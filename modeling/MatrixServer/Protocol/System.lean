import MatrixServer.Application.AppThreads
import MatrixServer.Server.Replies

/-!
The server and its applications, joined by lossless FIFO channels.
Every application has one connection, named by its number. Handlers are atomic;
the main threads take their own steps. Connections do not die, browsers may send
anything at any time, and the server may tick at any time.

A call of the server is one step, a frame with all its renderers included. So it
is where one io thread handles all requests; the receive threads of two IPC
connections can mix the sections and jobs of their calls, as `threadRuns` has it.
No message is dropped: at most a hundred wait in the write queue of a connection.
-/

namespace MatrixServer
open TransitionRuns

structure System where
  server : Server
  clients : ConnectionId → AppProcess
  toServer : ConnectionId → List MatrixServerMessage
  toClient : ConnectionId → List MatrixServerMessage

inductive SystemEvent where
  | start (i : ConnectionId)
  | main (i : ConnectionId) (outcome : LoopOutcome) (connects : Bool)
  /-- The receive thread of an application handles the next message. -/
  | receive (i : ConnectionId)
  | join (i : ConnectionId)
  | accept (i : ConnectionId)
  /-- The server handles the next message of a connection. -/
  | serve (i : ConnectionId) (rand : Nat) (beyond : Nat → UInt8)
  | clientMessage (renderer : Nat) (message : MatrixServerMessage)
  | tick (input : Server.TickInput)

/-- The application that takes a step or whose message is handled. -/
def SystemEvent.actor : SystemEvent → Option ConnectionId
  | .start i | .main i _ _ | .receive i | .join i | .serve i _ _ => some i
  | .accept _ | .clientMessage _ _ | .tick _ => none

namespace System

/-- The system after a call of the server. -/
def call (st : System) (c : ServerCall) : System :=
  { st with
    server := (st.server.call c).1
    toClient := fun j => st.toClient j ++ (st.server.call c).2.filterMap (sentTo j) }

/-- The system after a step of an application that sends some messages. -/
def clientStep (st : System) (i : ConnectionId) (process : AppProcess)
    (sent : List MatrixServerMessage) : System :=
  { st with
    clients := Function.update st.clients i process
    toServer := Function.update st.toServer i (st.toServer i ++ sent) }

def step (st : System) : SystemEvent → Option System
  | .start i => (st.clients i).start.map fun stepped => st.clientStep i stepped.1 stepped.2
  | .main i outcome connects =>
      ((st.clients i).mainStep outcome connects).map fun stepped =>
        st.clientStep i stepped.1 stepped.2
  | .receive i =>
      match st.toClient i with
      | [] => none
      | message :: rest =>
          ((st.clients i).deliver message).map fun handled =>
            { st.clientStep i handled.1 (handled.2.filterMap AppEffect.sent) with
              toClient := Function.update st.toClient i rest }
  | .join i => (st.clients i).join.map fun process => st.clientStep i process []
  | .accept i => some (st.call (.newConnection i))
  | .serve i rand beyond =>
      match st.toServer i with
      | [] => none
      | message :: rest =>
          some (({ st with toServer := Function.update st.toServer i rest } : System).call
            (.handleRequest i message rand beyond))
  | .clientMessage renderer message => some (st.call (.clientMessage renderer message))
  | .tick input => some (st.call (.tick { input with isDead := fun _ => false }))

/-- The steps of the system, by event; calls without a request are of one kind. -/
inductive Step (st : System) : System → SystemEvent → Prop where
  | start (i : ConnectionId) : (st.clients i).mainThread = none →
      (st.clients i).started = false →
      Step st
        (st.clientStep i { (st.clients i).goTo .loopTop with started := true }
          [MatrixApplication.registerAtServer])
        (.start i)
  | main (i : ConnectionId) {process : AppProcess} {sent : List MatrixServerMessage}
      (outcome : LoopOutcome) (connects : Bool) :
      AppProcess.MainStep (st.clients i) outcome process sent →
      Step st (st.clientStep i process sent) (.main i outcome connects)
  | receive (i : ConnectionId) {message : MatrixServerMessage} {rest : List MatrixServerMessage}
      {app : MatrixApplication} {effects : List AppEffect} : st.toClient i = message :: rest →
      (st.clients i).receiveThread = .idle →
      MatrixApplication.Handles message.messageType (st.clients i).app app effects →
      Step st
        { st.clientStep i
            { st.clients i with app, receiveThread := (st.clients i).afterHandling effects }
            (effects.filterMap AppEffect.sent) with
          toClient := Function.update st.toClient i rest }
        (.receive i)
  | join (i : ConnectionId) : (st.clients i).receiveThread = .joining →
      (st.clients i).mainThread = some .finished →
      Step st (st.clientStep i
        { st.clients i with mainThread := none, receiveThread := .idle } []) (.join i)
  | serve (i : ConnectionId) {message : MatrixServerMessage} {rest : List MatrixServerMessage}
      (rand : Nat) (beyond : Nat → UInt8) : st.toServer i = message :: rest →
      Step st
        (({ st with toServer := Function.update st.toServer i rest } : System).call
          (.handleRequest i message rand beyond))
        (.serve i rand beyond)
  | call {e : SystemEvent} (c : ServerCall) : e.actor = none → c.requester = none →
      Step st (st.call c) e

theorem step_cases {st st' : System} {e : SystemEvent} (h : st.step e = some st') :
    Step st st' e := by
  cases e with
  | start i =>
      obtain ⟨⟨process, sent⟩, hstart, rfl⟩ := Option.map_eq_some_iff.mp h
      obtain ⟨⟨_, hmain, hfresh⟩, rfl, rfl⟩ := AppProcess.start_cases hstart
      exact .start i hmain hfresh
  | main i outcome connects =>
      obtain ⟨⟨process, sent⟩, hmain, rfl⟩ := Option.map_eq_some_iff.mp h
      exact .main i outcome connects (AppProcess.mainStep_cases hmain).2
  | receive i =>
      simp only [step] at h
      split at h
      · cases h
      · rename_i message rest hchannel
        obtain ⟨⟨process, effects⟩, hdeliver, rfl⟩ := Option.map_eq_some_iff.mp h
        obtain ⟨hidle, app, hhandles, rfl⟩ := AppProcess.deliver_cases hdeliver
        exact .receive i hchannel hidle hhandles
  | join i =>
      obtain ⟨process, hjoin, rfl⟩ := Option.map_eq_some_iff.mp h
      obtain ⟨⟨hjoining, hmain⟩, rfl⟩ := AppProcess.join_cases hjoin
      exact .join i hjoining hmain
  | serve i rand beyond =>
      simp only [step] at h
      split at h
      · cases h
      · rename_i message rest hchannel
        cases h
        exact .serve i rand beyond hchannel
  | accept i | clientMessage renderer message | tick input =>
      cases h
      exact .call _ rfl rfl

/-- Either only applications act, or the server makes one call. -/
theorem step_server {st st' : System} {e : SystemEvent} (h : st.step e = some st') :
    (st'.server = st.server ∧ ∀ j, ∀ message ∈ st'.toClient j, message ∈ st.toClient j) ∨
      ∃ c, st'.server = (st.server.call c).1 ∧
        ∀ j, st'.toClient j = st.toClient j ++ (st.server.call c).2.filterMap (sentTo j) := by
  cases step_cases h with
  | start | main | join => exact .inl ⟨rfl, fun _ _ => id⟩
  | @receive i _ rest _ _ hchannel =>
      refine .inl ⟨rfl, fun j message hmem => ?_⟩
      change message ∈ Function.update st.toClient i rest j at hmem
      by_cases hj : j = i
      · subst hj
        rw [hchannel]
        rw [Function.update_self] at hmem
        exact List.mem_cons_of_mem _ hmem
      · rwa [Function.update_of_ne hj] at hmem
  | serve | call => exact .inr ⟨_, rfl, fun _ => rfl⟩

theorem step_renderers_length {st st' : System} {e : SystemEvent} (h : st.step e = some st') :
    st'.server.renderers.length = st.server.renderers.length := by
  obtain ⟨hserver, _⟩ | ⟨c, hserver, _⟩ := step_server h
  · rw [hserver]
  · have hshapes := congrArg List.length (st.server.call_shapes c).2
    rwa [List.length_map, List.length_map, ← hserver] at hshapes

end System

/-- All applications have connected, none has started. -/
def systemRuns (serverConfig : ServerConfig) (renderers : List Renderer)
    (params : ConnectionId → AnimationParams) (appNames : ConnectionId → String) :
    TransitionSystem System SystemEvent where
  initial :=
    { server := .start serverConfig renderers
      clients := fun i => { app := { params := params i, appName := appNames i } }
      toServer := fun _ => []
      toClient := fun _ => [] }
  step := System.step

/-- An application starts, registers under an id and gets its configuration. -/
def registerSchedule (i : ConnectionId) (appId : Nat) : List SystemEvent :=
  let serve := SystemEvent.serve i appId fun _ => 0
  [.start i, serve, .receive i, serve, serve, .receive i]

/-- Steps of a main thread whose `loop` always returns. -/
def mainSchedule (i : ConnectionId) (steps : Nat) : List SystemEvent :=
  List.replicate steps (.main i (.returned true [] none) true)

end MatrixServer
