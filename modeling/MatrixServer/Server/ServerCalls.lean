import MatrixServer.Foundation.TransitionRuns
import MatrixServer.Server.FrameHandling

/-!
Runs of one server.
The calls arrive in any order and with any arguments, and each runs to
completion. A run keeps the trace of everything the calls did.
-/

namespace MatrixServer
open TransitionRuns

inductive ServerCall where
  | newConnection (connection : ConnectionId)
  | handleRequest (connection : ConnectionId) (message : MatrixServerMessage) (rand : Nat)
      (beyond : Nat → UInt8)
  | clientMessage (renderer : Nat) (message : MatrixServerMessage)
  | tick (input : Server.TickInput)

abbrev Trace := List Effect

def Server.call (s : Server) : ServerCall → Server × Trace
  | .newConnection connection => (s.newConnectionCallback connection, [])
  | .handleRequest connection message rand beyond =>
      s.handleRequest connection message rand beyond
  | .clientMessage renderer message => (s, s.clientMessage renderer message)
  | .tick input => s.tick input

def serverRuns (s : Server) : TransitionSystem (Server × Trace) ServerCall where
  initial := (s, [])
  step st c := some ((st.1.call c).1, st.2 ++ (st.1.call c).2)

/-- The calls in which `generateAppId` runs. -/
def registersApp (message : MatrixServerMessage) : Prop :=
  message.messageType = .registerApp ∧ message.appID = 0

/-- `generateAppId` returns an id that is not zero and was not returned before. -/
def FreshAppId (st : Server × Trace) : ServerCall → Prop
  | .handleRequest _ message rand _ =>
      registersApp message → rand ≠ 0 ∧ .generatedAppId rand ∉ st.2
  | _ => True

namespace Server

/-- Starting and reaping the default app only makes process calls. -/
structure ProcessCallsOnly (s s' : Server) (effects : Trace) : Prop where
  apps : s'.apps = s.apps
  renderers : s'.renderers = s.renderers
  serverConfig : s'.serverConfig = s.serverConfig
  effects : ∀ e ∈ effects, e = .fork ∨ ∃ pid, e = .waitpid pid

theorem startDefaultApp_processCallsOnly (s : Server) (input : TickInput) :
    ProcessCallsOnly s (s.startDefaultApp input).1 (s.startDefaultApp input).2 := by
  simp only [startDefaultApp]
  split
  · split
    · exact ⟨rfl, rfl, rfl, List.forall_mem_nil _⟩
    · refine ⟨rfl, rfl, rfl, fun e he => ?_⟩
      cases List.mem_append.mp he with
      | inl hreap =>
          split at hreap
          · exact .inr ⟨_, List.mem_singleton.mp hreap⟩
          · exact False.elim (List.not_mem_nil hreap)
      | inr hfork => exact .inl (List.mem_singleton.mp hfork)
  · exact ⟨rfl, rfl, rfl, List.forall_mem_nil _⟩

theorem reapDefaultApp_processCallsOnly (s : Server) (input : TickInput) :
    ProcessCallsOnly s (s.reapDefaultApp input).1 (s.reapDefaultApp input).2 := by
  simp only [reapDefaultApp]
  split
  · split
    · exact ⟨rfl, rfl, rfl, fun e he => .inr ⟨_, List.mem_singleton.mp he⟩⟩
    · exact ⟨rfl, rfl, rfl, List.forall_mem_nil _⟩
  · exact ⟨rfl, rfl, rfl, List.forall_mem_nil _⟩

/-- What `tick` does with the default app, before it looks at the connections. -/
theorem tick_processCallsOnly (s : Server) (input : TickInput) :
    ProcessCallsOnly s ((s.startDefaultApp input).1.reapDefaultApp input).1
      ((s.startDefaultApp input).2 ++ ((s.startDefaultApp input).1.reapDefaultApp input).2) := by
  have hstart := startDefaultApp_processCallsOnly s input
  have hreap := reapDefaultApp_processCallsOnly (s.startDefaultApp input).1 input
  refine ⟨hreap.apps.trans hstart.apps, hreap.renderers.trans hstart.renderers,
    hreap.serverConfig.trans hstart.serverConfig, fun e he => ?_⟩
  exact (List.mem_append.mp he).elim (hstart.effects e) (hreap.effects e)

theorem tick_apps (s : Server) (input : TickInput) :
    (s.tick input).1.apps = s.apps.filter fun app => !input.isDead app.connection := by
  rw [← (tick_processCallsOnly s input).apps]
  rfl

theorem mem_killTopApp {s : Server} {input : TickInput} {e : Effect}
    (he : e ∈ s.killTopApp input) :
    ∃ app ∈ s.apps, e = .send app.connection { messageType := .appKill } := by
  simp only [killTopApp] at he
  split at he
  · rename_i app happ
    split at he
    · exact ⟨app, List.mem_of_getLast? happ, List.mem_singleton.mp he⟩
    · exact False.elim (List.not_mem_nil he)
  · exact False.elim (List.not_mem_nil he)

end Server

/-- Calls keep the configuration, and of the renderers the kinds and the screen sizes. -/
theorem Server.call_shapes (s : Server) (c : ServerCall) :
    (s.call c).1.serverConfig = s.serverConfig ∧
      (s.call c).1.renderers.map Renderer.shape = s.renderers.map Renderer.shape := by
  cases c with
  | newConnection connection | clientMessage renderer message => exact ⟨rfl, rfl⟩
  | tick input =>
      have hcalls := tick_processCallsOnly s input
      exact ⟨hcalls.serverConfig, congrArg (List.map Renderer.shape) hcalls.renderers⟩
  | handleRequest connection message rand beyond =>
      have hframe := setScreenFrame_keeps connection message beyond s
      simp only [call, handleRequest]
      cases message.messageType with
      | setScreenFrame => exact ⟨hframe.1, hframe.2.2⟩
      | registerApp =>
          simp only [registerApp]
          split <;> exact ⟨rfl, rfl⟩
      | _ => exact ⟨rfl, rfl⟩

theorem Server.mem_updateApp {appId : Int} {f : App → App} {apps : List App} {app : App}
    (happ : app ∈ updateApp appId f apps) : ∃ old ∈ apps, app = old ∨ app = f old := by
  induction apps with
  | nil => exact False.elim (List.not_mem_nil happ)
  | cons first apps ih =>
      simp only [updateApp] at happ
      split at happ
      · cases List.mem_cons.mp happ with
        | inl hfirst => exact ⟨first, List.mem_cons_self, .inr hfirst⟩
        | inr hrest => exact ⟨app, List.mem_cons_of_mem _ hrest, .inl rfl⟩
      · cases List.mem_cons.mp happ with
        | inl hfirst => exact ⟨first, List.mem_cons_self, .inl hfirst⟩
        | inr hrest =>
            obtain ⟨old, hold, happ⟩ := ih hrest
            exact ⟨old, List.mem_cons_of_mem _ hold, happ⟩

theorem Server.updateApp_eq_nil {appId : Int} {f : App → App} {apps : List App}
    (h : updateApp appId f apps = []) : apps = [] := by
  cases apps with
  | nil => rfl
  | cons app apps =>
      simp only [updateApp] at h
      split at h <;> cases h

/-- An app after a call was there before, or the call registered it. -/
theorem Server.call_apps {s : Server} {c : ServerCall} {app : App}
    (happ : app ∈ (s.call c).1.apps) :
    (∃ old ∈ s.apps, old.appId = app.appId ∧ old.connection = app.connection) ∨
      ∃ connection message rand beyond, c = .handleRequest connection message rand beyond ∧
        registersApp message ∧ app = { appId := rand, connection } := by
  have hold : app ∈ s.apps →
      ∃ old ∈ s.apps, old.appId = app.appId ∧ old.connection = app.connection :=
    fun happ => ⟨app, happ, rfl, rfl⟩
  have hupdate : ∀ {appId : Int} {f : App → App}, app ∈ updateApp appId f s.apps →
      (∀ a, (f a).appId = a.appId) → (∀ a, (f a).connection = a.connection) →
        ∃ old ∈ s.apps, old.appId = app.appId ∧ old.connection = app.connection := by
    intro appId f happ hid hconnection
    obtain ⟨old, hmem, rfl | rfl⟩ := mem_updateApp happ
    · exact ⟨app, hmem, rfl, rfl⟩
    · exact ⟨old, hmem, (hid old).symm, (hconnection old).symm⟩
  cases c with
  | newConnection connection | clientMessage renderer message => exact .inl (hold happ)
  | tick input =>
      rw [call, tick_apps] at happ
      exact .inl (hold (List.mem_of_mem_filter happ))
  | handleRequest connection message rand beyond =>
      simp only [call, handleRequest] at happ
      cases htype : message.messageType <;> simp only [htype] at happ
      case registerApp =>
        simp only [registerApp] at happ
        split at happ
        · rename_i hzero
          cases List.mem_append.mp happ with
          | inl hmem => exact .inl (hold hmem)
          | inr hnew =>
              exact .inr ⟨connection, message, rand, beyond, rfl, ⟨htype, hzero⟩,
                List.mem_singleton.mp hnew⟩
        · exact .inl (hold happ)
      case setScreenFrame =>
        rw [(setScreenFrame_keeps connection message beyond s).2.1] at happ
        exact .inl (hold happ)
      case appKill => exact .inl (hold (List.mem_of_mem_filter happ))
      case appPause | appResume | appParamSchema =>
        exact .inl (hupdate happ (fun _ => rfl) fun _ => rfl)
      all_goals exact .inl (hold happ)

/-- The messages of a browser that renderers pass on to apps. -/
def forwardedToApps : MessageType → Bool
  | .setAppParam | .getAppParams | .imuData | .audioDataMessage | .joystickData => true
  | _ => false

/-- A browser's message makes the server answer the renderer or reaches apps unchanged. -/
theorem Server.clientMessage_effects {s : Server} {renderer : Nat} {message : MatrixServerMessage}
    {e : Effect} (he : e ∈ s.clientMessage renderer message) :
    (∃ index sent, e = .rendererSend index sent) ∨
      ∃ connection, (∃ app ∈ s.apps, app.connection = connection) ∧
        forwardedToApps message.messageType = true ∧ e = .send connection message := by
  simp only [clientMessage] at he
  cases htype : message.messageType with
  | getServerInfo =>
      simp only [htype] at he
      cases List.mem_cons.mp he with
      | inl hinfo => exact .inl ⟨_, _, hinfo⟩
      | inr hschema =>
          split at hschema
          · exact False.elim (List.not_mem_nil hschema)
          · exact .inl ⟨_, _, List.mem_singleton.mp hschema⟩
  | setAppParam | getAppParams =>
      simp only [htype] at he
      split at he
      · split at he
        · exact False.elim (List.not_mem_nil he)
        · rename_i app hfound
          have happ := List.mem_of_find?_eq_some hfound
          exact .inr ⟨app.connection, ⟨app, happ, rfl⟩, rfl, List.mem_singleton.mp he⟩
      · split at he
        · exact False.elim (List.not_mem_nil he)
        · rename_i app htop
          have happ := List.mem_of_getLast? htop
          exact .inr ⟨app.connection, ⟨app, happ, rfl⟩, rfl, List.mem_singleton.mp he⟩
  | imuData | audioDataMessage | joystickData =>
      simp only [htype] at he
      obtain ⟨app, happ, heq⟩ := List.mem_map.mp he
      exact .inr ⟨app.connection, ⟨app, happ, rfl⟩, rfl, heq.symm⟩
  | _ =>
      simp only [htype] at he
      exact False.elim (List.not_mem_nil he)

end MatrixServer
