import MatrixServer.Server.Sections

/-!
Calls as programs of one thread.
The sections and jobs of a call, taken by its thread without interruption, are
the call of `ServerCalls`: they leave the same server and the same trace.
-/

namespace MatrixServer
open ThreadPrograms

def runJobs (st : Server × Trace) (jobs : List Job) : Server × Trace :=
  jobs.foldl (fun st job => ((st.1.runJob job).1, st.2 ++ (st.1.runJob job).2)) st

theorem completes_jobs (thread : ServerThread) (st : Server × Trace) (jobs : List Job) :
    Completes runStage thread st (jobs.map .job) (runJobs st jobs) := by
  induction jobs generalizing st with
  | nil => exact .nil st
  | cons job jobs ih => exact .cons rfl (ih _)

theorem runJobs_append (st : Server × Trace) (jobs jobs' : List Job) :
    runJobs st (jobs ++ jobs') = runJobs (runJobs st jobs) jobs' := List.foldl_append

namespace Server

theorem onRenderer_at {s : Server} {before after : List Renderer} {r : Renderer}
    (h : s.renderers = before ++ r :: after) (f : Renderer → Renderer × List Effect) :
    s.onRenderer before.length f =
      ({ s with renderers := before ++ (f r).1 :: after }, (f r).2) := by
  simp [onRenderer, h]

theorem storeEntry_effects (serverConfig : ServerConfig) (beyond : Nat → UInt8) (r : Renderer)
    (effects : List Effect) (entry : ScreenData) :
    Server.storeEntry serverConfig beyond (r, effects) entry =
      ((Server.storeEntry serverConfig beyond (r, []) entry).1,
        effects ++ (Server.storeEntry serverConfig beyond (r, []) entry).2) := by
  simp only [Server.storeEntry]
  split
  · rw [List.append_nil]
  · rfl

theorem runJobs_storeEntries (s : Server) (trace : Trace) (before after : List Renderer)
    (beyond : Nat → UInt8) (entries : List ScreenData) (r : Renderer) (effects : List Effect) :
    runJobs ({ s with renderers := before ++ r :: after }, trace ++ effects)
        (entries.map (.storeEntry before.length beyond)) =
      let stored := entries.foldl (Server.storeEntry s.serverConfig beyond) (r, effects)
      ({ s with renderers := before ++ stored.1 :: after }, trace ++ stored.2) := by
  induction entries generalizing r effects with
  | nil => rfl
  | cons entry entries ih =>
      have hjob := onRenderer_at (s := { s with renderers := before ++ r :: after }) rfl
        fun r => Server.storeEntry s.serverConfig beyond (r, []) entry
      rw [List.map_cons, List.foldl_cons, storeEntry_effects, ← ih]
      simp only [runJobs, List.foldl_cons, runJob, hjob, List.append_assoc]

theorem runJobs_frameJobs (s : Server) (trace : Trace) (before after : List Renderer)
    (connection : ConnectionId) (message : MatrixServerMessage) (beyond : Nat → UInt8)
    (r : Renderer) :
    runJobs ({ s with renderers := before ++ r :: after }, trace)
        (frameJobs connection message beyond before.length) =
      let shown := showFrame s.serverConfig connection message beyond before.length r
      ({ s with renderers := before ++ shown.1 :: after }, trace ++ shown.2) := by
  have hstored := runJobs_storeEntries s trace before after beyond message.screenData r []
  rw [List.append_nil] at hstored
  rw [frameJobs, List.append_assoc, runJobs_append, hstored]
  cases hconfig : message.serverConfig with
  | none => simp [runJobs, runJob, showFrame, hconfig]
  | some config =>
      have hlit := onRenderer_at (s := { s with renderers := before ++ (message.screenData.foldl
        (Server.storeEntry s.serverConfig beyond) (r, [])).1 :: after }) rfl
          fun r => (r.setGlobalBrightness config.globalScreenBrightness, [])
      simp [runJobs, runJob, showFrame, hconfig, hlit]

theorem runJobs_frame (s : Server) (trace : Trace) (connection : ConnectionId)
    (message : MatrixServerMessage) (beyond : Nat → UInt8) (before rest : List Renderer) :
    runJobs ({ s with renderers := before ++ rest }, trace)
        (rest.mapIdx fun index _ =>
          frameJobs connection message beyond (before.length + index)).flatten =
      let shown := rest.mapIdx fun index =>
        showFrame s.serverConfig connection message beyond (before.length + index)
      ({ s with renderers := before ++ shown.map Prod.fst },
        trace ++ shown.flatMap Prod.snd) := by
  induction rest generalizing before trace with
  | nil => simp [runJobs]
  | cons r rest ih =>
      simp only [List.mapIdx_cons, List.flatten_cons, Nat.add_zero, runJobs_append,
        runJobs_frameJobs]
      have hrest := ih (trace ++ (showFrame s.serverConfig connection message beyond
        before.length r).2) (before ++ [(showFrame s.serverConfig connection message beyond
          before.length r).1])
      simp only [List.length_append, List.length_singleton, List.append_assoc,
        List.singleton_append, Nat.add_assoc, Nat.add_comm 1] at hrest
      rw [hrest]
      simp

theorem runJobs_setScreenFrame {s : Server} (trace : Trace) (connection : ConnectionId)
    (message : MatrixServerMessage) (beyond : Nat → UInt8) :
    runJobs (s, trace) (s.runSection (.checkTopApp connection message beyond)).2 =
      ((s.setScreenFrame connection message beyond).1,
        trace ++ (s.setScreenFrame connection message beyond).2) := by
  simp only [runSection, setScreenFrame]
  split
  · have hframe := runJobs_frame s trace connection message beyond [] s.renderers
    simpa only [List.nil_append, List.length_nil, Nat.zero_add] using hframe
  · rfl

theorem runJobs_rendererSends (s : Server) (trace : Trace) (message : MatrixServerMessage)
    (renderers : List Renderer) (first : Nat) :
    runJobs (s, trace)
        (renderers.mapIdx fun index _ => .rendererSend (first + index) message) =
      (s, trace ++ renderers.mapIdx fun index _ => .rendererSend (first + index) message) := by
  induction renderers generalizing trace first with
  | nil => simp [runJobs]
  | cons r renderers ih =>
      have hrest := ih (trace ++ [.rendererSend first message]) (first + 1)
      simp only [Nat.add_assoc, Nat.add_comm 1] at hrest
      simp only [List.mapIdx_cons, Nat.add_zero, runJobs, List.foldl_cons, runJob] at hrest ⊢
      rw [hrest, List.append_assoc, List.singleton_append]

theorem runJobs_rendererJobs (s : Server) (trace : Trace) (message : MatrixServerMessage) :
    runJobs (s, trace) (s.rendererJobs message) =
      (s, trace ++ s.sendToRenderers message) := by
  have hsends := runJobs_rendererSends s trace message s.renderers 0
  simp only [Nat.zero_add] at hsends
  exact hsends

theorem killTopApp_unpressed {s : Server} {input : TickInput} (h : input.killButton = false) :
    s.killTopApp input = [] := by
  simp only [killTopApp]
  split
  · simp [h]
  · rfl

end Server

/-- A section and the jobs it leaves. -/
theorem completes_locked (thread : ServerThread) (s : Server) (trace : Trace) (part : Section) :
    Completes runStage thread (s, trace) [.locked part]
      (runJobs ((s.runSection part).1.1, trace ++ (s.runSection part).1.2)
        (s.runSection part).2) := by
  refine .cons rfl ?_
  rw [List.append_nil]
  exact completes_jobs thread _ _

theorem completes_nothing (thread : ServerThread) (s : Server) (trace : Trace) :
    Completes runStage thread (s, trace) [] (s, trace ++ []) := by
  rw [List.append_nil]
  exact .nil _

theorem handleRequest_completes (thread : ServerThread) (s : Server) (trace : Trace)
    (connection : ConnectionId) (message : MatrixServerMessage) (rand : Nat)
    (beyond : Nat → UInt8) :
    Completes runStage thread (s, trace)
      (s.program (.handleRequest connection message rand beyond))
      ((s.handleRequest connection message rand beyond).1,
        trace ++ (s.handleRequest connection message rand beyond).2) := by
  have hlocked := completes_locked thread s trace
  simp only [Server.program, Server.handleRequest]
  cases htype : message.messageType with
  | registerApp =>
      simp only [Server.registerApp]
      split
      · have hregister := hlocked (.registerApp connection rand)
        simpa [Server.runSection, runJobs, Server.runJob] using hregister
      · exact completes_nothing thread s trace
  | getServerInfo => exact completes_jobs thread (s, trace) [.send _ _]
  | setScreenFrame =>
      have hframe := hlocked (.checkTopApp connection message beyond)
      have hnothing : (s.runSection (.checkTopApp connection message beyond)).1 = (s, []) := rfl
      rwa [hnothing, List.append_nil, Server.runJobs_setScreenFrame] at hframe
  | appPause => exact hlocked (.setAppState message.appID .paused)
  | appResume => exact hlocked (.setAppState message.appID .running)
  | appKill => exact hlocked (.appKill message)
  | appParamSchema =>
      have hschema := hlocked (.setParamSchema message)
      have hjobs : runJobs ((s.runSection (.setParamSchema message)).1.1, trace)
          (s.runSection (.setParamSchema message)).2 = _ :=
        Server.runJobs_rendererJobs _ trace message
      have hnothing : (s.runSection (.setParamSchema message)).1.2 = [] := rfl
      rw [hnothing, List.append_nil, hjobs] at hschema
      exact hschema
  | appParamValues =>
      have hvalues := completes_jobs thread (s, trace) (s.rendererJobs message)
      rwa [Server.runJobs_rendererJobs] at hvalues
  | _ => exact completes_nothing thread s trace

theorem clientMessage_completes (thread : ServerThread) (s : Server) (trace : Trace)
    (renderer : Nat) (message : MatrixServerMessage) :
    Completes runStage thread (s, trace) (s.program (.clientMessage renderer message))
      (s, trace ++ s.clientMessage renderer message) := by
  have hpassed := completes_locked thread s trace (.clientMessage renderer message)
  simp only [Server.program]
  cases htype : message.messageType with
  | getServerInfo =>
      refine .cons rfl (.cons rfl ?_)
      simp only [Server.runJob, Server.runSection, Server.clientMessage, htype,
        List.append_assoc, List.singleton_append]
      exact .nil _
  | setAppParam | getAppParams | imuData | audioDataMessage | joystickData => exact hpassed
  | _ =>
      simp only [Server.clientMessage, htype]
      exact completes_nothing thread s trace

/-- What a tick does after it has looked at the kill button. -/
theorem tickApps_completes (thread : ServerThread) (s : Server) (trace : Trace)
    (input : Server.TickInput) :
    Completes runStage thread (s, trace)
      [.locked (.tickApps input), .job (.removeConnections input.isDead)]
      ((s.tick input).1, trace ++ (s.runSection (.tickApps input)).1.2) := by
  refine .cons rfl (.cons rfl ?_)
  rw [Server.runJob, List.append_nil]
  exact .nil _

theorem tick_completes (thread : ServerThread) (s : Server) (trace : Trace)
    (input : Server.TickInput) :
    Completes runStage thread (s, trace) (s.program (.tick input))
      ((s.tick input).1, trace ++ (s.tick input).2) := by
  have heffects : (s.tick input).2 =
      s.killTopApp input ++ (s.runSection (.tickApps input)).1.2 := by
    simp only [Server.tick, Server.runSection, List.append_assoc]
  rw [heffects, ← List.append_assoc, Server.program]
  cases hkill : input.killButton with
  | true => exact .cons rfl (tickApps_completes thread s (trace ++ s.killTopApp input) input)
  | false =>
      rw [Server.killTopApp_unpressed hkill, List.append_nil]
      exact tickApps_completes thread s trace input

/-- A program that one thread takes alone is the call. -/
theorem program_completes (thread : ServerThread) (s : Server) (trace : Trace) (c : ServerCall) :
    Completes runStage thread (s, trace) (s.program c)
      ((s.call c).1, trace ++ (s.call c).2) := by
  cases c with
  | newConnection connection =>
      exact completes_jobs thread (s, trace) [.addConnection connection]
  | handleRequest connection message rand beyond =>
      exact handleRequest_completes thread s trace connection message rand beyond
  | clientMessage renderer message => exact clientMessage_completes thread s trace renderer message
  | tick input => exact tick_completes thread s trace input

end MatrixServer
