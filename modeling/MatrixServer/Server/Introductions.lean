import MatrixServer.Server.Replies

/-!
The exchange in which an application registers and is told the configuration.
A call of the server sends a message of this exchange only in answer to one, and the
information it sends is its own configuration.
-/

namespace MatrixServer

/-- The messages of the exchange, in both directions. -/
def MatrixServerMessage.introduces (message : MatrixServerMessage) : Bool :=
  message.messageType = .registerApp ∨ message.messageType = .getServerInfo

def introductions (messages : List MatrixServerMessage) : Nat :=
  messages.countP MatrixServerMessage.introduces

@[simp] theorem introductions_append (messages messages' : List MatrixServerMessage) :
    introductions (messages ++ messages') = introductions messages + introductions messages' :=
  List.countP_append

@[simp] theorem introductions_cons (message : MatrixServerMessage)
    (messages : List MatrixServerMessage) :
    introductions (message :: messages) = introductions messages + message.introduces.toNat := by
  rw [introductions, introductions, List.countP_cons]
  cases message.introduces <;> rfl

@[simp] theorem introductions_nil : introductions [] = 0 := rfl

theorem introductions_eq_zero {messages : List MatrixServerMessage}
    (h : ∀ message ∈ messages, message.introduces = false) : introductions messages = 0 := by
  rw [introductions, List.countP_eq_zero]
  intro message hmem hintroduces
  rw [h message hmem] at hintroduces
  cases hintroduces

/-- The call handles a message of the exchange. -/
def ServerCall.introduces : ServerCall → Bool
  | .handleRequest _ message _ _ => message.introduces
  | _ => false

/-- The orders and the frame replies of the server. -/
def MatrixServerMessage.commands (message : MatrixServerMessage) : Bool :=
  match message.messageType with
  | .setScreenFrame | .appPause | .appResume | .appKill => true
  | _ => false

theorem MatrixServerMessage.introduces_of_commands {message : MatrixServerMessage}
    (h : message.commands = true) : message.introduces = false := by
  cases htype : message.messageType <;> simp [commands, introduces, htype] at h ⊢

namespace Server

section
variable {s : Server} {connection receiver : ConnectionId} {message sent : MatrixServerMessage}
  {rand : Nat} {beyond : Nat → UInt8}

/-- What a server call sends of the exchange answers a message of it, with the server's own
configuration. -/
structure Answers (s : Server) (c : ServerCall) (receiver : ConnectionId)
    (sent : MatrixServerMessage) : Prop where
  requester : c.requester = some receiver
  asked : c.introduces = true
  introduces : sent.introduces = true
  config : sent.messageType = .getServerInfo → sent.serverConfig = some s.serverConfig

theorem commands_of_tellTopApp {messageType : MessageType} {apps : List App}
    (h : .send receiver sent ∈ tellTopApp messageType apps)
    (htype : messageType = .appPause ∨ messageType = .appResume) : sent.commands = true := by
  obtain ⟨-, hsent⟩ := mem_tellTopApp h
  rw [MatrixServerMessage.commands, hsent]
  cases htype with
  | inl hpause => rw [hpause]
  | inr hresume => rw [hresume]

theorem tick_commands {input : TickInput} (h : .send receiver sent ∈ (s.tick input).2) :
    sent.commands = true := by
  have hcalls := tick_processCallsOnly s input
  simp only [tick, List.append_assoc] at h
  cases List.mem_append.mp h with
  | inl hkill =>
      obtain ⟨app, -, he⟩ := mem_killTopApp hkill
      cases he
      rfl
  | inr hrest =>
      rw [← List.append_assoc] at hrest
      cases List.mem_append.mp hrest with
      | inl hprocess =>
          obtain he | ⟨pid, he⟩ := hcalls.effects _ hprocess
          · cases he
          · cases he
      | inr hresume =>
          simp only [removeDeadApps] at hresume
          split at hresume
          · exact commands_of_tellTopApp hresume (.inr rfl)
          · exact False.elim (List.not_mem_nil hresume)

theorem setScreenFrame_commands
    (h : .send receiver sent ∈ (s.setScreenFrame connection message beyond).2) :
    sent.commands = true := by
  cases htop : s.isTopApp message.appID with
  | true =>
      obtain ⟨_, r, _, hcopy | hrender | hreply⟩ :=
        (mem_setScreenFrame_effects connection message beyond htop).mp h
      · obtain ⟨entry, _, hentry⟩ := List.mem_filterMap.mp hcopy
        simp only [entryCopy] at hentry
        split at hentry <;> cases hentry
      · cases hrender
      · cases hreply
        rfl
  | false =>
      simp only [setScreenFrame, htop, Bool.false_eq_true, if_false] at h
      cases List.mem_singleton.mp h
      rfl

theorem registerApp_kinds (htype : message.messageType = .registerApp)
    (h : .send receiver sent ∈ (s.registerApp connection message rand).2) :
    sent.commands = true ∨
      Answers s (.handleRequest connection message rand beyond) receiver sent := by
  simp only [registerApp] at h
  split at h
  · cases List.mem_append.mp h with
    | inl hpause => exact .inl (commands_of_tellTopApp hpause (.inl rfl))
    | inr hanswer =>
        simp only [List.mem_cons, reduceCtorEq, false_or, List.not_mem_nil, or_false,
          Effect.send.injEq] at hanswer
        obtain ⟨rfl, rfl⟩ := hanswer
        exact .inr ⟨rfl, by simp [ServerCall.introduces, MatrixServerMessage.introduces, htype],
          rfl, fun hinfo => by cases hinfo⟩
  · exact False.elim (List.not_mem_nil h)

theorem handleRequest_kinds
    (h : .send receiver sent ∈ (s.handleRequest connection message rand beyond).2) :
    sent.commands = true ∨
      Answers s (.handleRequest connection message rand beyond) receiver sent := by
  have hrenderers : .send receiver sent ∉ s.sendToRenderers message := by
    simp [sendToRenderers]
  simp only [handleRequest] at h
  cases htype : message.messageType <;> simp only [htype] at h
  case registerApp => exact registerApp_kinds htype h
  case getServerInfo =>
    cases List.mem_singleton.mp h
    exact .inr ⟨rfl, by simp [ServerCall.introduces, MatrixServerMessage.introduces, htype], rfl,
      fun _ => rfl⟩
  case setScreenFrame => exact .inl (setScreenFrame_commands h)
  case appKill =>
    simp only [appKill] at h
    split at h
    · exact .inl (commands_of_tellTopApp h (.inr rfl))
    · exact False.elim (List.not_mem_nil h)
  case appParamSchema | appParamValues => exact absurd h hrenderers
  all_goals exact False.elim (List.not_mem_nil h)

/-- A call sends orders, answers of the exchange, and what a browser has for applications. -/
theorem call_kinds {c : ServerCall} (h : .send receiver sent ∈ (s.call c).2) :
    sent.commands = true ∨ Answers s c receiver sent ∨
      forwardedToApps sent.messageType = true ∧ ∃ renderer, c = .clientMessage renderer sent := by
  cases c with
  | newConnection _ => exact False.elim (List.not_mem_nil h)
  | handleRequest _ _ _ _ => exact (handleRequest_kinds h).imp_right .inl
  | clientMessage renderer _ =>
      obtain ⟨_, _, he⟩ | ⟨_, -, hforwarded, he⟩ := clientMessage_effects h
      · cases he
      · cases he
        exact .inr (.inr ⟨hforwarded, renderer, rfl⟩)
  | tick _ => exact .inl (tick_commands h)

theorem call_answers {c : ServerCall} (h : .send receiver sent ∈ (s.call c).2)
    (hsent : sent.introduces = true) : Answers s c receiver sent := by
  obtain hcommands | hanswers | ⟨hforwarded, -⟩ := call_kinds h
  · rw [MatrixServerMessage.introduces_of_commands hcommands] at hsent
    cases hsent
  · exact hanswers
  · cases htype : sent.messageType <;>
      simp [MatrixServerMessage.introduces, htype, forwardedToApps] at hsent hforwarded

theorem introductions_tellTopApp (messageType : MessageType) (apps : List App)
    (htype : messageType = .appPause ∨ messageType = .appResume) (receiver : ConnectionId) :
    introductions ((tellTopApp messageType apps).filterMap (sentTo receiver)) = 0 :=
  introductions_eq_zero fun _ hsent => MatrixServerMessage.introduces_of_commands
    (commands_of_tellTopApp (mem_sentTo.mp hsent) htype)

end

/-- A call sends at most one message of the exchange for the one it handles. -/
theorem call_introductions (s : Server) (c : ServerCall) (receiver : ConnectionId) :
    introductions ((s.call c).2.filterMap (sentTo receiver)) ≤
      (decide (c.requester = some receiver) && c.introduces).toNat := by
  by_cases hcause : c.requester = some receiver ∧ c.introduces = true
  · obtain ⟨hrequester, hintroduces⟩ := hcause
    rw [hrequester, hintroduces, decide_eq_true rfl]
    cases c with
    | newConnection _ | clientMessage _ _ | tick _ => cases hrequester
    | handleRequest connection message rand beyond =>
        cases hrequester
        have htype := of_decide_eq_true hintroduces
        simp only [call, handleRequest]
        cases htype with
        | inl hregister =>
            simp only [hregister, registerApp]
            split
            · rw [List.filterMap_append, introductions_append, pauseTopApp,
                introductions_tellTopApp .appPause s.apps (.inl rfl)]
              simp [List.filterMap_cons, sentTo, MatrixServerMessage.introduces]
            · exact Nat.zero_le _
        | inr hinfo => simp [hinfo, sentTo, MatrixServerMessage.introduces]
  · have hnone : introductions ((s.call c).2.filterMap (sentTo receiver)) = 0 := by
      refine introductions_eq_zero fun sent hsent => ?_
      cases hintroduces : sent.introduces with
      | false => rfl
      | true =>
          have hanswers := call_answers (mem_sentTo.mp hsent) hintroduces
          exact absurd ⟨hanswers.requester, hanswers.asked⟩ hcause
    rw [hnone]
    exact Nat.zero_le _

end Server

end MatrixServer
