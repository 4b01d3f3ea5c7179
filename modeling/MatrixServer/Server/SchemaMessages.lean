import MatrixServer.Server.AppStack
import MatrixServer.Server.DefaultApp

/-!
The schemas that the server sends to a renderer.
A renderer is sent a schema when an app sends one and when its browser asks for it. Every
call changes the apps and the last schema of a renderer in one of five ways.
-/

namespace MatrixServer

def schemaTo (renderer : Nat) : Effect → Option MatrixServerMessage
  | .rendererSend index message =>
      if index = renderer ∧ message.messageType = .appParamSchema then some message else none
  | _ => none

/-- The last schema message a renderer was sent. -/
def lastSchema (renderer : Nat) (trace : Trace) : Option MatrixServerMessage :=
  (trace.filterMap (schemaTo renderer)).getLast?

theorem lastSchema_append (renderer : Nat) (trace effects : Trace) :
    lastSchema renderer (trace ++ effects) =
      (lastSchema renderer effects).or (lastSchema renderer trace) := by
  simp only [lastSchema, List.filterMap_append, List.getLast?_append]

theorem lastSchema_silent {renderer : Nat} {effects : Trace}
    (h : ∀ e ∈ effects, schemaTo renderer e = none) (trace : Trace) :
    lastSchema renderer (trace ++ effects) = lastSchema renderer trace := by
  have hnone : effects.filterMap (schemaTo renderer) = [] := List.filterMap_eq_nil_iff.mpr h
  simp [lastSchema, hnone]

/-- A message is the schema of an app, under its id. -/
def Announces (message : MatrixServerMessage) (app : App) : Prop :=
  message.appID = app.appId ∧ message.appParamSchema.getD {} = app.paramSchema

instance (message : MatrixServerMessage) (app : App) : Decidable (Announces message app) :=
  inferInstanceAs (Decidable (_ ∧ _))

def schemaMessage : ServerCall → Option MatrixServerMessage
  | .handleRequest _ message _ _ =>
      if message.messageType = .appParamSchema then some message else none
  | _ => none

/-- The apps that a call takes off the list. -/
def removes : ServerCall → App → Bool
  | .handleRequest _ message _ _, app =>
      message.messageType = .appKill && app.appId = message.appID
  | .tick input, app => input.isDead app.connection
  | _, _ => false

/-- What a call does to the apps and to the last schema message that a renderer was sent. -/
inductive PanelStep (control : Nat) (st : Server × Trace) (c : ServerCall) :
    Server × Trace → Prop where
  | setState {s : Server} {trace : Trace} (appId : Int) (state : App.AppState) :
      schemaMessage c = none → (∀ app, removes c app = false) →
      s.apps = Server.updateApp appId (·.setAppState state) st.1.apps →
      lastSchema control trace = lastSchema control st.2 → PanelStep control st c (s, trace)
  | register {s : Server} {trace : Trace} (app : App) : app.hasSchema = false →
      schemaMessage c = none → (∀ app, removes c app = false) → s.apps = st.1.apps ++ [app] →
      lastSchema control trace = lastSchema control st.2 → PanelStep control st c (s, trace)
  | schema {s : Server} {trace : Trace} (message : MatrixServerMessage) :
      schemaMessage c = some message → (∀ app, removes c app = false) →
      s.apps = Server.updateApp message.appID
        (·.setParamSchema (message.appParamSchema.getD {})) st.1.apps →
      lastSchema control trace = some message → PanelStep control st c (s, trace)
  | answer {s : Server} {trace : Trace} (message : MatrixServerMessage) :
      schemaMessage c = none → (∀ app, removes c app = false) → s.apps = st.1.apps →
      (∀ top ∈ st.1.topApp, Announces message top) →
      lastSchema control trace = some message → PanelStep control st c (s, trace)
  | remove {s : Server} {trace : Trace} : schemaMessage c = none →
      s.apps = st.1.apps.filter (!removes c ·) →
      lastSchema control trace = lastSchema control st.2 → PanelStep control st c (s, trace)

/-- A call that neither changes the apps nor sends a schema. -/
theorem PanelStep.of_silent {control : Nat} {st : Server × Trace} {c : ServerCall} {s : Server}
    {effects : Trace} (hschema : schemaMessage c = none) (hkeep : ∀ app, removes c app = false)
    (happs : s.apps = st.1.apps) (h : ∀ e ∈ effects, schemaTo control e = none) :
    PanelStep control st c (s, st.2 ++ effects) := by
  refine .remove hschema ?_ (lastSchema_silent h st.2)
  simp [happs, hkeep]

theorem lastSchema_sendToRenderers {control : Nat} {s : Server}
    (hcontrol : control < s.renderers.length) {message : MatrixServerMessage}
    (htype : message.messageType = .appParamSchema) :
    lastSchema control (s.sendToRenderers message) = some message := by
  have hmem : message ∈ (s.sendToRenderers message).filterMap (schemaTo control) :=
    List.mem_filterMap.mpr ⟨.rendererSend control message,
      List.mem_mapIdx.mpr ⟨control, hcontrol, rfl⟩, by simp [schemaTo, htype]⟩
  have hall : ∀ other ∈ (s.sendToRenderers message).filterMap (schemaTo control),
      other = message := by
    intro other hother
    obtain ⟨e, he, hto⟩ := List.mem_filterMap.mp hother
    obtain ⟨index, _, rfl⟩ := List.mem_mapIdx.mp he
    simp only [schemaTo] at hto
    split at hto
    · exact (Option.some.inj hto).symm
    · cases hto
  have hne := List.ne_nil_of_mem hmem
  rw [lastSchema, List.getLast?_eq_some_getLast hne, hall _ (List.getLast_mem hne)]

theorem schemaTo_sendToRenderers {control : Nat} {s : Server} {message : MatrixServerMessage}
    (htype : message.messageType ≠ .appParamSchema) :
    ∀ e ∈ s.sendToRenderers message, schemaTo control e = none := by
  intro e he
  obtain ⟨index, _, rfl⟩ := List.mem_mapIdx.mp he
  simp [schemaTo, htype]

theorem schemaTo_tellTopApp (control : Nat) (messageType : MessageType) (apps : List App) :
    ∀ e ∈ Server.tellTopApp messageType apps, schemaTo control e = none := by
  intro e he
  simp only [Server.tellTopApp] at he
  split at he
  · exact False.elim (List.not_mem_nil he)
  · cases List.mem_singleton.mp he
    rfl

theorem tick_panelStep (control : Nat) (s : Server) (trace : Trace) (input : Server.TickInput) :
    PanelStep control (s, trace) (.tick input) ((s.tick input).1, trace ++ (s.tick input).2) := by
  have hcalls := Server.tick_processCallsOnly s input
  refine .remove rfl (Server.tick_apps s input) (lastSchema_silent (fun e he => ?_) trace)
  simp only [Server.tick, List.append_assoc, List.mem_append] at he
  rcases he with hkill | hstart | hreap | hremove
  · obtain ⟨app, _, rfl⟩ := Server.mem_killTopApp hkill
    rfl
  · obtain rfl | ⟨pid, rfl⟩ := hcalls.effects e (List.mem_append_left _ hstart) <;> rfl
  · obtain rfl | ⟨pid, rfl⟩ := hcalls.effects e (List.mem_append_right _ hreap) <;> rfl
  · obtain ⟨connection, message, rfl⟩ := Server.removeDeadApps_sends hremove
    rfl

theorem registerApp_panelStep {control : Nat} {s : Server} {trace : Trace}
    {connection : ConnectionId} {message : MatrixServerMessage} {rand : Nat}
    {beyond : Nat → UInt8} (htype : message.messageType = .registerApp) :
    PanelStep control (s, trace) (.handleRequest connection message rand beyond)
      ((s.registerApp connection message rand).1,
        trace ++ (s.registerApp connection message rand).2) := by
  have hschema : schemaMessage (.handleRequest connection message rand beyond) = none := by
    simp [schemaMessage, htype]
  have hkeep : ∀ app, removes (.handleRequest connection message rand beyond) app = false := by
    simp [removes, htype]
  simp only [Server.registerApp]
  split
  · refine .register { appId := rand, connection } rfl hschema hkeep rfl
      (lastSchema_silent ?_ trace)
    intro e he
    simp only [List.mem_append, List.mem_cons, List.not_mem_nil, or_false] at he
    rcases he with hpause | rfl | rfl
    · exact schemaTo_tellTopApp control _ _ e hpause
    · rfl
    · rfl
  · exact .of_silent hschema hkeep rfl (List.forall_mem_nil _)

theorem setScreenFrame_silent (control : Nat) (s : Server) (connection : ConnectionId)
    (message : MatrixServerMessage) (beyond : Nat → UInt8) :
    ∀ e ∈ (s.setScreenFrame connection message beyond).2, schemaTo control e = none := by
  intro e he
  cases htop : s.isTopApp message.appID with
  | true =>
      obtain ⟨_, r, _, hcopy | rfl | rfl⟩ :=
        (Server.mem_setScreenFrame_effects connection message beyond htop).mp he
      · obtain ⟨entry, _, hentry⟩ := List.mem_filterMap.mp hcopy
        simp only [Server.entryCopy] at hentry
        split at hentry
        · cases hentry
        · cases hentry
          rfl
      · rfl
      · rfl
  | false =>
      simp only [Server.setScreenFrame, htop, Bool.false_eq_true, if_false] at he
      cases List.mem_singleton.mp he
      rfl

theorem handleRequest_panelStep {control : Nat} {s : Server}
    (hcontrol : control < s.renderers.length) (trace : Trace) (connection : ConnectionId)
    (message : MatrixServerMessage) (rand : Nat) (beyond : Nat → UInt8) :
    PanelStep control (s, trace) (.handleRequest connection message rand beyond)
      ((s.handleRequest connection message rand beyond).1,
        trace ++ (s.handleRequest connection message rand beyond).2) := by
  have hschema : message.messageType ≠ .appParamSchema →
      schemaMessage (.handleRequest connection message rand beyond) = none := by
    intro htype
    simp [schemaMessage, htype]
  have hkeep : message.messageType ≠ .appKill →
      ∀ app, removes (.handleRequest connection message rand beyond) app = false := by
    intro htype
    simp [removes, htype]
  simp only [Server.handleRequest]
  cases htype : message.messageType with
  | registerApp => exact registerApp_panelStep htype
  | setScreenFrame =>
      exact .of_silent (hschema (by simp [htype])) (hkeep (by simp [htype]))
        (Server.setScreenFrame_keeps connection message beyond s).2.1
        (setScreenFrame_silent control s connection message beyond)
  | appKill =>
      refine .remove (hschema (by simp [htype])) ?_ (lastSchema_silent ?_ trace)
      · simp [Server.appKill, removes, htype]
      · simp only [Server.appKill]
        split
        · exact schemaTo_tellTopApp control _ _
        · exact List.forall_mem_nil _
  | appPause =>
      exact .setState message.appID .paused (hschema (by simp [htype])) (hkeep (by simp [htype]))
        rfl (lastSchema_silent (List.forall_mem_nil _) trace)
  | appResume =>
      exact .setState message.appID .running (hschema (by simp [htype]))
        (hkeep (by simp [htype])) rfl (lastSchema_silent (List.forall_mem_nil _) trace)
  | appParamSchema =>
      refine .schema message (by simp [schemaMessage, htype]) (hkeep (by simp [htype])) rfl ?_
      rw [lastSchema_append, lastSchema_sendToRenderers hcontrol htype, Option.some_or]
  | appParamValues =>
      exact .of_silent (hschema (by simp [htype])) (hkeep (by simp [htype])) rfl
        (schemaTo_sendToRenderers (by simp [htype]))
  | getServerInfo =>
      refine .of_silent (hschema (by simp [htype])) (hkeep (by simp [htype])) rfl fun e he => ?_
      cases List.mem_singleton.mp he
      rfl
  | defaultMessageType | requestScreenAccess | appAlive | imuData | joystickData | setAppParam
  | getAppParams | audioDataMessage =>
      exact .of_silent (hschema (by simp [htype])) (hkeep (by simp [htype])) rfl
        (List.forall_mem_nil _)

/-- A browser that asks is told the schema of the app on top. -/
theorem clientMessage_panelStep (control : Nat) (s : Server) (trace : Trace) (renderer : Nat)
    (message : MatrixServerMessage) :
    PanelStep control (s, trace) (.clientMessage renderer message)
      (s, trace ++ s.clientMessage renderer message) := by
  by_cases hinfo : message.messageType = .getServerInfo ∧ renderer = control
  · obtain ⟨htype, rfl⟩ := hinfo
    cases htop : s.topApp with
    | none =>
        refine .of_silent rfl (fun _ => rfl) rfl fun e he => ?_
        simp only [Server.clientMessage, htype, htop, List.mem_singleton] at he
        subst he
        simp [schemaTo]
    | some top =>
        refine .answer
          { messageType := .appParamSchema, appID := top.appId,
            appParamSchema := some top.paramSchema }
          rfl (fun _ => rfl) rfl ?_ ?_
        · intro app happ
          cases Option.some.inj (htop.symm.trans happ)
          exact ⟨rfl, rfl⟩
        · simp [lastSchema, Server.clientMessage, htype, htop, schemaTo]
  · refine .of_silent rfl (fun _ => rfl) rfl fun e he => ?_
    obtain ⟨index, sent, rfl⟩ | ⟨_, _, _, rfl⟩ := Server.clientMessage_effects he
    · simp only [Server.clientMessage] at he
      split at he
      · rename_i htype
        have hother : renderer ≠ control := fun heq => hinfo ⟨htype, heq⟩
        cases List.mem_cons.mp he with
        | inl hinfo =>
            cases hinfo
            simp [schemaTo]
        | inr hanswer =>
            split at hanswer
            · exact False.elim (List.not_mem_nil hanswer)
            · cases List.mem_singleton.mp hanswer
              simp [schemaTo, hother]
      all_goals grind
    · rfl

theorem panelStep_of_call {control : Nat} {st : Server × Trace}
    (hcontrol : control < st.1.renderers.length) (c : ServerCall) :
    PanelStep control st c ((st.1.call c).1, st.2 ++ (st.1.call c).2) := by
  cases c with
  | newConnection connection =>
      exact .of_silent rfl (fun _ => rfl) rfl (List.forall_mem_nil _)
  | handleRequest connection message rand beyond =>
      exact handleRequest_panelStep hcontrol st.2 connection message rand beyond
  | clientMessage renderer message =>
      exact clientMessage_panelStep control st.1 st.2 renderer message
  | tick input => exact tick_panelStep control st.1 st.2 input

end MatrixServer
