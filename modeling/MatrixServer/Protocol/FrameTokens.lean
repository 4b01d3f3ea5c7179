import MatrixServer.Protocol.System

/-!
The permit to send a frame.
With one renderer an application has at most one permit: `frameAcked`, or the frame
it is drawing, or a frame on its way to the server, or a reply on its way back.
Every step keeps the permits of every application, but for two that drop one: a
turn of the main thread that throws before it sends, and a frame that the server
answers with `appPause`.
-/

namespace MatrixServer
open TransitionRuns

/-- The permits an application holds itself. -/
def AppProcess.credit (p : AppProcess) : Nat :=
  p.app.frameAcked.toNat + (decide (p.mainThread = some .drawing)).toNat

/-- The permits a step of the main thread drops. -/
def AppProcess.drops (p : AppProcess) (outcome : LoopOutcome) : Nat :=
  (decide (p.mainThread = some .drawing) && !outcome.returns).toNat

theorem AppProcess.MainStep.credit {p p' : AppProcess} {outcome : LoopOutcome}
    {sent : List MatrixServerMessage} (h : MainStep p outcome p' sent) :
    p'.credit + sent.countP MatrixServerMessage.isFrame + p.drops outcome = p.credit := by
  simp only [AppProcess.credit, drops]
  cases h with
  | enter hpos | skip hpos | checkKilled _ hpos => simp [hpos]
  | pass hpos hacked => simp [takeFrame, hpos, hacked]
  | draw hpos =>
      rw [(p.draw_sameTests outcome).frameAcked]
      cases outcome with
      | returned running screens brightness =>
          simp [AppProcess.draw, hpos, LoopOutcome.returns, MatrixApplication.renderToScreens,
            MatrixServerMessage.isFrame]
      | loopThrew screens brightness => simp [AppProcess.draw, hpos, LoopOutcome.returns]
      | renderThrew running screens brightness =>
          cases running <;> simp [AppProcess.draw, hpos, LoopOutcome.returns, nextTurn]
  | checkConnection running connects hpos =>
      have hsent :
          (p.checkConnection running connects).2.countP MatrixServerMessage.isFrame = 0 := by
        simp only [AppProcess.checkConnection]
        split
        · cases connects <;> rfl
        · rfl
      rw [hsent, checkConnection_frameAcked, checkConnection_mainThread]
      cases running <;> simp [hpos, nextTurn]

namespace System

/-- The permits of an application, wherever they are. -/
def permits (st : System) (i : ConnectionId) : Nat :=
  (st.clients i).credit + (st.toServer i).countP MatrixServerMessage.isFrame +
    (st.toClient i).countP MatrixServerMessage.isFrame

/-- The permits of an application that an event drops. -/
def drops (st : System) (i : ConnectionId) : SystemEvent → Nat
  | .main j outcome _ => if j = i then (st.clients j).drops outcome else 0
  | .serve j _ _ =>
      if j = i then
        ((st.toServer i).head?.any fun message =>
          message.isFrame && !st.server.isTopApp message.appID).toNat
      else 0
  | _ => 0

/-- A client's step changes its own permits as its credit and the frames it sends change. -/
theorem permits_clientStep (st : System) (i : ConnectionId) (process : AppProcess)
    (sent : List MatrixServerMessage) (dropped : Nat)
    (h : process.credit + sent.countP MatrixServerMessage.isFrame + dropped =
      (st.clients i).credit) (j : ConnectionId) :
    (st.clientStep i process sent).permits j + (if i = j then dropped else 0) = st.permits j := by
  by_cases hj : j = i
  · subst hj
    simp only [permits, clientStep, Function.update_self, List.countP_append, if_true]
    omega
  · simp [permits, clientStep, hj, Ne.symm hj]

theorem permits_call (st : System) (c : ServerCall) (j : ConnectionId) :
    (st.call c).permits j = st.permits j +
      if c.requester = some j ∧ c.showsFrame st.server then st.server.renderers.length else 0 := by
  simp only [permits, call, List.countP_append, Server.call_replies]
  omega

/-- What holds in every run with one renderer. -/
structure PermitInv (st : System) : Prop where
  sole : st.server.renderers.length = 1
  notAccess : ∀ i, ∀ message ∈ st.toClient i, message.messageType ≠ .requestScreenAccess
  permits : ∀ i, st.permits i ≤ 1

theorem acknowledges_eq_isFrame {message : MatrixServerMessage}
    (h : message.messageType ≠ .requestScreenAccess) :
    MatrixApplication.acknowledges message.messageType = message.isFrame := by
  simp only [MatrixServerMessage.isFrame]
  cases htype : message.messageType with
  | requestScreenAccess => exact absurd htype h
  | _ => rfl

theorem countP_sent {messageType : MessageType} {a a' : MatrixApplication}
    {effects : List AppEffect} (h : MatrixApplication.Handles messageType a a' effects) :
    (effects.filterMap AppEffect.sent).countP MatrixServerMessage.isFrame = 0 := by
  rw [List.countP_eq_zero]
  intro sent hsent hframe
  exact (h.sent hsent).1 (of_decide_eq_true hframe)

/-- Taking a reply out of the channel sets `frameAcked`, which was not set before. -/
theorem credit_handles {st : System} (h : st.PermitInv) {i : ConnectionId}
    {message : MatrixServerMessage} {rest : List MatrixServerMessage}
    (hchannel : st.toClient i = message :: rest) {app : MatrixApplication}
    {effects : List AppEffect}
    (hhandles : MatrixApplication.Handles message.messageType (st.clients i).app app effects) :
    app.frameAcked.toNat = (st.clients i).app.frameAcked.toNat + message.isFrame.toNat := by
  have haccess := h.notAccess i message (hchannel ▸ List.mem_cons_self)
  have hle := h.permits i
  rw [permits, hchannel, List.countP_cons] at hle
  rw [hhandles.frameAcked, acknowledges_eq_isFrame haccess]
  cases hframe : message.isFrame with
  | false => simp
  | true =>
      have hnot : (st.clients i).app.frameAcked = false := by
        rw [← Bool.not_eq_true]
        intro hacked
        simp only [AppProcess.credit, hacked, hframe, Bool.toNat_true, if_true] at hle
        omega
      simp [hnot]

/-- A step keeps the permits of an application, less those it drops. -/
theorem permits_step {st st' : System} {e : SystemEvent} (h : st.PermitInv)
    (hstep : st.step e = some st') (i : ConnectionId) :
    st'.permits i + st.drops i e = st.permits i := by
  cases step_cases hstep with
  | start j hmain =>
      have hcredit := st.permits_clientStep j
        { (st.clients j).goTo .loopTop with started := true } [MatrixApplication.registerAtServer] 0
        (by simp [AppProcess.credit, hmain, MatrixServerMessage.isFrame,
          MatrixApplication.registerAtServer]) i
      simpa [drops] using hcredit
  | main j outcome connects hmain =>
      exact st.permits_clientStep j _ _ _ hmain.credit i
  | receive j hchannel _ hhandles =>
      have hcredit := credit_handles h hchannel hhandles
      have hsent := countP_sent hhandles
      by_cases hi : i = j
      · subst hi
        simp only [permits, clientStep, Function.update_self, List.countP_append, hsent, hchannel,
          List.countP_cons, AppProcess.credit, hcredit, drops]
        cases MatrixServerMessage.isFrame _ with
        | false => simp
        | true =>
            simp only [if_true, Bool.toNat_true]
            omega
      · simp [permits, clientStep, hi, drops]
  | join j _ hmain =>
      have hcredit := st.permits_clientStep j
        { st.clients j with mainThread := none, receiveThread := .idle } [] 0
        (by simp [AppProcess.credit, hmain]) i
      simpa [drops] using hcredit
  | @serve j message rest rand beyond hchannel =>
      rw [permits_call]
      by_cases hi : i = j
      · subst hi
        simp only [permits, Function.update_self, hchannel, List.countP_cons, drops, if_true,
          List.head?_cons, Option.any_some, ServerCall.requester, ServerCall.showsFrame, h.sole]
        cases message.isFrame <;> cases st.server.isTopApp message.appID <;> simp <;> omega
      · simp [permits, drops, ServerCall.requester, hi, Ne.symm hi]
  | call c hactor hrequester =>
      rw [permits_call, hrequester]
      cases e with
      | accept _ | clientMessage _ _ | tick _ => simp [drops]
      | _ => cases hactor

theorem permitInv_step {st st' : System} {e : SystemEvent} (h : st.PermitInv)
    (hstep : st.step e = some st') : st'.PermitInv := by
  refine ⟨?_, ?_, fun i => ?_⟩
  · rw [step_renderers_length hstep, h.sole]
  · intro i message hmem
    obtain ⟨_, hclient⟩ | ⟨c, _, hclient⟩ := step_server hstep
    · exact h.notAccess i message (hclient i message hmem)
    · rw [hclient] at hmem
      cases List.mem_append.mp hmem with
      | inl hold => exact h.notAccess i message hold
      | inr hsent => exact (Server.call_sends (mem_sentTo.mp hsent)).notAccess
  · have hpermits := permits_step h hstep i
    have hle := h.permits i
    omega

theorem permitInv_initial (serverConfig : ServerConfig) {renderers : List Renderer}
    (hsole : renderers.length = 1) (params : ConnectionId → AnimationParams)
    (appNames : ConnectionId → String) :
    (systemRuns serverConfig renderers params appNames).initial.PermitInv :=
  ⟨hsole, fun _ _ h => False.elim (List.not_mem_nil h), fun _ => Nat.le_refl 1⟩

end System
end MatrixServer
