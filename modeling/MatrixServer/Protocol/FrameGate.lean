import MatrixServer.Protocol.FrameTokens

/-!
The frame gate across pauses.
An application that is registered keeps its one permit as long as each of its frames
reaches the server while it is the top app. A frame that another registration has
overtaken is answered with `appPause`, and the permit is gone: nothing after the
resume opens the gate again.
-/

namespace MatrixServer
open TransitionRuns

theorem AppProcess.MainStep.connection {p p' : AppProcess} {outcome : LoopOutcome}
    {sent : List MatrixServerMessage} (h : MainStep p outcome p' sent)
    (hlive : p.connection.dead = false) : p'.connection = p.connection := by
  cases h with
  | enter | skip | pass | checkKilled => rfl
  | draw => exact (p.draw_sameTests outcome).connection
  | checkConnection running connects =>
      rw [checkConnection_live hlive]
      rfl

/-- On a live connection the main thread does not register again. -/
theorem AppProcess.MainStep.sent_ne_registerApp {p p' : AppProcess} {outcome : LoopOutcome}
    {sent : List MatrixServerMessage} (h : MainStep p outcome p' sent)
    (hlive : p.connection.dead = false) :
    ∀ message ∈ sent, message.messageType ≠ .registerApp := by
  intro message hmem
  cases h with
  | enter | skip | pass | checkKilled => exact False.elim (List.not_mem_nil hmem)
  | draw =>
      cases outcome with
      | returned running screens brightness =>
          cases List.mem_singleton.mp hmem
          exact nofun
      | loopThrew | renderThrew => exact False.elim (List.not_mem_nil hmem)
  | checkConnection running connects =>
      rw [checkConnection_live hlive] at hmem
      exact False.elim (List.not_mem_nil hmem)

/-- A process that has registered, with what is on its way to the server: it registers
only once. -/
structure AppProcess.Started (p : AppProcess) (channel : List MatrixServerMessage) : Prop where
  noRegister : ∀ message ∈ channel, message.messageType ≠ .registerApp
  started : p.started = true

namespace AppProcess.Started

variable {p : AppProcess} {channel : List MatrixServerMessage}

theorem main (h : p.Started channel) (hlive : p.connection.dead = false) {outcome : LoopOutcome}
    {p' : AppProcess} {sent : List MatrixServerMessage} (hmain : MainStep p outcome p' sent) :
    p'.Started (channel ++ sent) := by
  refine ⟨fun message hmem => ?_, hmain.started.trans h.started⟩
  exact (List.mem_append.mp hmem).elim (h.noRegister message)
    (hmain.sent_ne_registerApp hlive message)

theorem receive (h : p.Started channel) {messageType : MessageType} {app : MatrixApplication}
    {effects : List AppEffect}
    (hhandles : MatrixApplication.Handles messageType p.app app effects) :
    Started { p with app, receiveThread := p.afterHandling effects }
      (channel ++ effects.filterMap AppEffect.sent) := by
  refine ⟨fun message hmem => ?_, h.started⟩
  exact (List.mem_append.mp hmem).elim (h.noRegister message) fun hsent => (hhandles.sent hsent).2

theorem join (h : p.Started channel) :
    Started { p with mainThread := none, receiveThread := .idle } channel :=
  ⟨h.noRegister, h.started⟩

end AppProcess.Started

namespace System

/-- The server has no app of this connection. -/
def NoEntry (st : System) (i : ConnectionId) : Prop :=
  ∀ app ∈ st.server.apps, app.connection ≠ i

/-- An application of which the server does not know yet. -/
structure Unregistered (st : System) (i : ConnectionId) : Prop where
  starting : (st.clients i).app.appState = .starting
  acked : (st.clients i).app.frameAcked = true
  idle : (st.clients i).receiveThread = .idle
  notWaiting : (st.clients i).mainThread ≠ some .frameWait
  notDrawing : (st.clients i).mainThread ≠ some .drawing
  toServer : st.toServer i =
    if (st.clients i).started then [MatrixApplication.registerAtServer] else []
  toClient : st.toClient i = []
  noEntry : st.NoEntry i

/-- An application that has registered; it has its permit or the server has dropped it. -/
structure Registered (st : System) (i : ConnectionId) : Prop where
  started : (st.clients i).Started (st.toServer i)
  permit : st.permits i = 1 ∨ st.NoEntry i

structure GateInv (st : System) : Prop where
  permits : st.PermitInv
  live : ∀ i, (st.clients i).connection.dead = false
  phase : ∀ i, st.Unregistered i ∨ st.Registered i

end System

/-- No turn of a main thread throws, and a frame of a registered app reaches the server
only while it is the top app. -/
def FramesFromTop (st : System) : SystemEvent → Prop
  | .main i outcome _ => (st.clients i).mainThread = some .drawing → outcome.returns = true
  | .serve i _ _ => ∀ message ∈ (st.toServer i).head?, message.isFrame = true →
      st.server.isTopApp message.appID = true ∨ st.NoEntry i
  | _ => True

namespace System

variable {st st' : System} {e : SystemEvent} {i : ConnectionId}

theorem Unregistered.permits_eq_one (h : st.Unregistered i) : st.permits i = 1 := by
  have hserver : (st.toServer i).countP MatrixServerMessage.isFrame = 0 := by
    rw [h.toServer]
    split <;> rfl
  simp [permits, AppProcess.credit, h.acked, h.notDrawing, hserver, h.toClient]

/-- A call that handles no request of a connection without apps sends it nothing and
registers no app of it. -/
theorem call_noEntry {c : ServerCall} (h : st.NoEntry i) (hrequester : c.requester ≠ some i) :
    (st.call c).toClient i = st.toClient i ∧ (st.call c).NoEntry i := by
  constructor
  · have hnone : (st.server.call c).2.filterMap (sentTo i) = [] := by
      rw [List.eq_nil_iff_forall_not_mem]
      intro sent hsent
      obtain ⟨app, happ, hconnection⟩ | hrequest :=
        (Server.call_sends (mem_sentTo.mp hsent)).receiver
      · exact h app happ hconnection
      · exact hrequester hrequest
    simp only [call, hnone, List.append_nil]
  · intro app happ
    obtain ⟨old, hold, _, hconnection⟩ | ⟨connection, message, rand, beyond, rfl, _, rfl⟩ :=
      Server.call_apps happ
    · exact hconnection ▸ h old hold
    · exact fun hi => hrequester (congrArg some hi)

theorem live_step (h : ∀ i, (st.clients i).connection.dead = false)
    (hstep : st.step e = some st') (i : ConnectionId) :
    (st'.clients i).connection.dead = false := by
  have hupdate : ∀ (j : ConnectionId) (process : AppProcess),
      process.connection = (st.clients j).connection →
        (Function.update st.clients j process i).connection.dead = false := by
    intro j process hsame
    by_cases hi : i = j
    · subst hi
      rw [Function.update_self, hsame]
      exact h i
    · rw [Function.update_of_ne hi]
      exact h i
  cases step_cases hstep with
  | start j | join j => exact hupdate j _ rfl
  | receive j => exact hupdate j _ rfl
  | main j outcome connects hmain => exact hupdate j _ (hmain.connection (h j))
  | serve | call => exact h i

theorem clientStep_ne (st : System) {j : ConnectionId} (process : AppProcess)
    (sent : List MatrixServerMessage) (hi : i ≠ j) :
    (st.clientStep j process sent).clients i = st.clients i ∧
      (st.clientStep j process sent).toServer i = st.toServer i :=
  ⟨Function.update_of_ne hi _ _, Function.update_of_ne hi _ _⟩

theorem Unregistered.of_same (h : st.Unregistered i) (hclient : st'.clients i = st.clients i)
    (hserver : st'.toServer i = st.toServer i) (htoClient : st'.toClient i = st.toClient i)
    (hentry : st'.NoEntry i) : st'.Unregistered i where
  starting := hclient ▸ h.starting
  acked := hclient ▸ h.acked
  idle := hclient ▸ h.idle
  notWaiting := hclient ▸ h.notWaiting
  notDrawing := hclient ▸ h.notDrawing
  toServer := by rw [hserver, hclient, h.toServer]
  toClient := htoClient.trans h.toClient
  noEntry := hentry

theorem Unregistered.clientStep (h : st.Unregistered i) {process : AppProcess}
    (sent : List MatrixServerMessage) (happ : process.app = (st.clients i).app)
    (hreceive : process.receiveThread = (st.clients i).receiveThread)
    (hwait : process.mainThread ≠ some .frameWait) (hdraw : process.mainThread ≠ some .drawing)
    (hserver : st.toServer i ++ sent =
      if process.started then [MatrixApplication.registerAtServer] else []) :
    (st.clientStep i process sent).Unregistered i := by
  have hclient : (st.clientStep i process sent).clients i = process := Function.update_self ..
  constructor
  case starting => rw [hclient, happ, h.starting]
  case acked => rw [hclient, happ, h.acked]
  case idle => rw [hclient, hreceive, h.idle]
  case notWaiting => rwa [hclient]
  case notDrawing => rwa [hclient]
  case toServer =>
    rw [hclient, ← hserver]
    exact Function.update_self ..
  case toClient => exact h.toClient
  case noEntry => exact h.noEntry

/-- The main thread of an unregistered app goes round without sending anything. -/
theorem Unregistered.main (h : st.Unregistered i) (hlive : (st.clients i).connection.dead = false)
    {outcome : LoopOutcome} {process : AppProcess} {sent : List MatrixServerMessage}
    (hmain : AppProcess.MainStep (st.clients i) outcome process sent) :
    (st.clientStep i process sent).Unregistered i := by
  have hgoTo : ∀ {position : MainPosition}, position ≠ .frameWait → position ≠ .drawing →
      (st.clientStep i ((st.clients i).goTo position) []).Unregistered i := by
    intro position hwait hdraw
    refine h.clientStep [] rfl rfl (fun hpos => hwait (Option.some.inj hpos))
      (fun hpos => hdraw (Option.some.inj hpos)) ?_
    rw [List.append_nil, h.toServer]
    rfl
  cases hmain with
  | enter _ hrunning => cases h.starting.symm.trans hrunning
  | skip => exact hgoTo nofun nofun
  | pass hpos => exact absurd hpos h.notWaiting
  | draw hpos => exact absurd hpos h.notDrawing
  | checkKilled running => exact hgoTo nofun nofun
  | checkConnection running connects =>
      rw [AppProcess.checkConnection_live hlive]
      cases running <;> exact hgoTo nofun nofun

/-- Once the server has handled its registration, an app is registered. -/
theorem Unregistered.register (h : st.Unregistered i) (hinv : st.GateInv)
    {message : MatrixServerMessage} {rest : List MatrixServerMessage}
    (hchannel : st.toServer i = message :: rest) {rand : Nat} {beyond : Nat → UInt8}
    (hstep : st.step (.serve i rand beyond) = some st')
    (hserved : st' = ({ st with toServer := Function.update st.toServer i rest } : System).call
      (.handleRequest i message rand beyond)) : st'.Registered i := by
  have hstarted : (st.clients i).started = true := by
    rw [← Bool.not_eq_false]
    intro hfresh
    rw [h.toServer, hfresh] at hchannel
    cases hchannel
  have hregister := h.toServer
  rw [if_pos hstarted] at hregister
  cases hregister.symm.trans hchannel
  have hclient : st'.clients i = st.clients i := by rw [hserved]; rfl
  have hempty : st'.toServer i = [] := by
    rw [hserved]
    exact Function.update_self ..
  refine ⟨⟨?_, hclient ▸ hstarted⟩, .inl ?_⟩
  · rw [hempty]
    exact fun _ hmem => False.elim (List.not_mem_nil hmem)
  · have hpermits := permits_step hinv.permits hstep i
    rwa [h.permits_eq_one, drops, if_pos rfl, hchannel] at hpermits

/-- A step in which an app has no part changes neither the app nor what it has sent; it
sends an app without an entry nothing and makes no entry of it. -/
theorem step_of_other (hstep : st.step e = some st') (hother : e.actor ≠ some i) :
    st'.clients i = st.clients i ∧ st'.toServer i = st.toServer i ∧
      (st.NoEntry i → st'.toClient i = st.toClient i ∧ st'.NoEntry i) := by
  have hne : ∀ {j : ConnectionId}, e.actor = some j → i ≠ j :=
    fun hactor hi => hother (hi ▸ hactor)
  cases step_cases hstep with
  | start j | main j | join j =>
      obtain ⟨hclient, hserver⟩ := clientStep_ne st _ _ (hne rfl)
      exact ⟨hclient, hserver, fun hentry => ⟨rfl, hentry⟩⟩
  | receive j =>
      obtain ⟨hclient, hserver⟩ := clientStep_ne st _ _ (hne rfl)
      exact ⟨hclient, hserver, fun hentry => ⟨Function.update_of_ne (hne rfl) _ _, hentry⟩⟩
  | @serve j message rest rand beyond =>
      refine ⟨rfl, Function.update_of_ne (hne rfl) _ _, fun hentry => ?_⟩
      let served : System := { st with toServer := Function.update st.toServer j rest }
      have hserved : served.NoEntry i := hentry
      exact call_noEntry (c := .handleRequest j message rand beyond) hserved
        fun hj => hother hj
  | call c _ hrequester =>
      exact ⟨rfl, rfl, fun hentry => call_noEntry hentry (hrequester ▸ nofun)⟩

theorem unregistered_step (h : st.GateInv) (hstep : st.step e = some st')
    (hphase : st.Unregistered i) : st'.Unregistered i ∨ st'.Registered i := by
  by_cases hactor : e.actor = some i
  · cases step_cases hstep with
    | start j _ hfresh =>
        obtain rfl := Option.some.inj hactor
        refine .inl (hphase.clientStep [MatrixApplication.registerAtServer] rfl rfl nofun nofun ?_)
        rw [hphase.toServer, hfresh]
        rfl
    | main j outcome connects hmain =>
        obtain rfl := Option.some.inj hactor
        exact .inl (hphase.main (h.live _) hmain)
    | receive j hchannel =>
        obtain rfl := Option.some.inj hactor
        cases hchannel.symm.trans hphase.toClient
    | join j hjoining =>
        obtain rfl := Option.some.inj hactor
        cases hphase.idle.symm.trans hjoining
    | serve j rand beyond hchannel =>
        obtain rfl := Option.some.inj hactor
        exact .inr (hphase.register h hchannel hstep rfl)
    | call c hnone => cases hnone.symm.trans hactor
  · obtain ⟨hclient, hserver, hrest⟩ := step_of_other hstep hactor
    obtain ⟨htoClient, hentry⟩ := hrest hphase.noEntry
    exact .inl (hphase.of_same hclient hserver htoClient hentry)

theorem started_step (h : st.GateInv) (hstep : st.step e = some st')
    (hstarted : (st.clients i).Started (st.toServer i)) :
    (st'.clients i).Started (st'.toServer i) := by
  by_cases hactor : e.actor = some i
  · cases step_cases hstep with
    | start j _ hfresh =>
        obtain rfl := Option.some.inj hactor
        cases hfresh.symm.trans hstarted.started
    | main j outcome connects hmain =>
        obtain rfl := Option.some.inj hactor
        have hafter := hstarted.main (h.live _) hmain
        simpa only [clientStep, Function.update_self] using hafter
    | receive j _ _ hhandles =>
        obtain rfl := Option.some.inj hactor
        have hafter := hstarted.receive hhandles
        simpa only [clientStep, Function.update_self] using hafter
    | join j =>
        obtain rfl := Option.some.inj hactor
        have hafter := hstarted.join
        simpa only [clientStep, Function.update_self, List.append_nil] using hafter
    | @serve j message rest rand beyond hchannel =>
        obtain rfl := Option.some.inj hactor
        refine ⟨fun sent hmem => hstarted.noRegister sent ?_, hstarted.started⟩
        change sent ∈ Function.update st.toServer j rest j at hmem
        rw [Function.update_self] at hmem
        exact hchannel ▸ List.mem_cons_of_mem _ hmem
    | call c hnone => cases hnone.symm.trans hactor
  · obtain ⟨hclient, hserver, _⟩ := step_of_other hstep hactor
    rwa [hclient, hserver]

/-- An app that is not registered any more stays so: it does not register again. -/
theorem noEntry_step (hstep : st.step e = some st')
    (hstarted : (st.clients i).Started (st.toServer i)) (h : st.NoEntry i) : st'.NoEntry i := by
  by_cases hactor : e.actor = some i
  · cases step_cases hstep with
    | start | main | receive | join => exact h
    | serve j rand beyond hchannel =>
        obtain rfl := Option.some.inj hactor
        intro app happ
        obtain ⟨old, hold, _, hconnection⟩ | ⟨_, _, _, _, hcall, hregisters, _⟩ :=
          Server.call_apps happ
        · exact hconnection ▸ h old hold
        · cases hcall
          exact absurd hregisters.1 (hstarted.noRegister _ (hchannel ▸ List.mem_cons_self))
    | call c hnone => cases hnone.symm.trans hactor
  · obtain ⟨_, _, hrest⟩ := step_of_other hstep hactor
    exact (hrest h).2

/-- Under the guard only an app that is not registered any more loses its permit. -/
theorem drops_of_framesFromTop (hguard : FramesFromTop st e) (i : ConnectionId) :
    st.drops i e = 0 ∨ st.NoEntry i := by
  cases e with
  | main j outcome connects =>
      refine .inl ?_
      simp only [drops, AppProcess.drops]
      split
      · by_cases hdrawing : (st.clients j).mainThread = some .drawing
        · simp [show outcome.returns = true from hguard hdrawing]
        · simp [hdrawing]
      · rfl
  | serve j rand beyond =>
      simp only [drops]
      split
      · rename_i hj
        subst hj
        cases hhead : (st.toServer j).head? with
        | none => exact .inl rfl
        | some message =>
            cases hframe : message.isFrame with
            | false => exact .inl (by simp [hframe])
            | true =>
                refine (hguard message hhead hframe).imp_left fun htop => ?_
                simp [htop]
      · exact .inl rfl
  | start | receive | join | accept | clientMessage | tick => exact .inl rfl

theorem GateInv.permits_of_entry (h : st.GateInv) (hentry : ¬st.NoEntry i) : st.permits i = 1 := by
  cases h.phase i with
  | inl hunregistered => exact hunregistered.permits_eq_one
  | inr hregistered => exact hregistered.permit.resolve_right hentry

/-- A step that breaks the guard takes the only permit of an app. -/
theorem permits_of_not_framesFromTop (h : st.GateInv) (hstep : st.step e = some st')
    (hguard : ¬FramesFromTop st e) : ∃ i, st'.permits i = 0 := by
  cases e with
  | main j outcome connects =>
      have hbad : (st.clients j).mainThread = some .drawing ∧ outcome.returns = false := by
        simpa only [FramesFromTop, Classical.not_imp, Bool.not_eq_true] using hguard
      have hpermits := permits_step h.permits hstep j
      have hle := h.permits.permits j
      simp only [drops, AppProcess.drops, hbad, if_true, decide_true, Bool.not_false, Bool.and_true,
        Bool.toNat_true] at hpermits
      exact ⟨j, by omega⟩
  | serve j rand beyond =>
      simp only [FramesFromTop, not_forall, not_or, Bool.not_eq_true] at hguard
      obtain ⟨message, hhead, hframe, htop, hentry⟩ := hguard
      have hpermits := permits_step h.permits hstep j
      rw [h.permits_of_entry hentry] at hpermits
      simp only [drops, if_true, Option.mem_def.mp hhead, Option.any_some, hframe, htop,
        Bool.not_false, Bool.and_true, Bool.toNat_true] at hpermits
      exact ⟨j, by omega⟩
  | start | receive | join | accept | clientMessage | tick => exact absurd trivial hguard

/-- A lost permit never comes back. -/
theorem permits_replay {serverConfig : ServerConfig} {renderers : List Renderer}
    {params : ConnectionId → AnimationParams} {appNames : ConnectionId → String}
    (events : List SystemEvent) (h : st.PermitInv)
    (hrun : (systemRuns serverConfig renderers params appNames).replay st events = some st') :
    st'.permits i ≤ st.permits i := by
  induction events generalizing st with
  | nil =>
      cases hrun
      exact Nat.le_refl _
  | cons e events ih =>
      simp only [TransitionSystem.replay, TransitionSystem.replayUnder, if_true] at hrun ih
      obtain ⟨st₁, hstep, hrest⟩ := Option.bind_eq_some_iff.mp hrun
      have hpermits := permits_step h hstep i
      have hle := ih (permitInv_step h hstep) hrest
      omega

theorem gateInv_step (h : st.GateInv) (hguard : FramesFromTop st e)
    (hstep : st.step e = some st') : st'.GateInv := by
  refine ⟨permitInv_step h.permits hstep, live_step h.live hstep, fun i => ?_⟩
  cases h.phase i with
  | inl hunregistered => exact unregistered_step h hstep hunregistered
  | inr hregistered =>
      refine .inr ⟨started_step h hstep hregistered.started, ?_⟩
      have hentry : st.NoEntry i → st'.NoEntry i := noEntry_step hstep hregistered.started
      have hpermits := permits_step h.permits hstep i
      cases hregistered.permit with
      | inl hone =>
          refine (drops_of_framesFromTop hguard i).imp (fun hkept => ?_) hentry
          rwa [hkept, hone] at hpermits
      | inr hnone => exact .inr (hentry hnone)

theorem gateInv_initial (serverConfig : ServerConfig) {renderers : List Renderer}
    (hsole : renderers.length = 1) (params : ConnectionId → AnimationParams)
    (appNames : ConnectionId → String) :
    (systemRuns serverConfig renderers params appNames).initial.GateInv := by
  refine ⟨permitInv_initial serverConfig hsole params appNames, fun _ => rfl, fun i => .inl ?_⟩
  exact ⟨rfl, rfl, rfl, nofun, nofun, rfl, rfl, fun _ h => False.elim (List.not_mem_nil h)⟩

/-- The top app of the server is the app of this connection, and it runs. -/
def TopRuns (st : System) (i : ConnectionId) : Prop :=
  (st.clients i).app.appState = .running ∧ ∃ top ∈ st.server.topApp, top.connection = i

/-- The gate is open or will be, or a word about pausing is on its way. -/
def NotStuck (st : System) (i : ConnectionId) : Prop :=
  (st.clients i).app.frameAcked = true ∨ (st.clients i).mainThread = some .drawing ∨
    (∃ message ∈ st.toServer i, message.messageType = .setScreenFrame) ∨
      ∃ message ∈ st.toClient i, message.messageType = .setScreenFrame ∨
        message.messageType = .appPause ∨ message.messageType = .appResume ∨
          message.messageType = .appKill

theorem notStuck_of_permits (h : st.permits i = 1) : st.NotStuck i := by
  by_contra hstuck
  simp only [NotStuck, not_or, not_exists, not_and] at hstuck
  obtain ⟨hacked, hdrawing, hserver, hclient⟩ := hstuck
  have hframes : (st.toServer i).countP MatrixServerMessage.isFrame = 0 := by
    rw [List.countP_eq_zero]
    exact fun message hmem hframe => hserver message hmem (of_decide_eq_true hframe)
  have hreplies : (st.toClient i).countP MatrixServerMessage.isFrame = 0 := by
    rw [List.countP_eq_zero]
    exact fun message hmem hframe => (hclient message hmem).1 (of_decide_eq_true hframe)
  simp [permits, AppProcess.credit, hacked, hdrawing, hframes, hreplies] at h

end System

instance (st : System) (i : ConnectionId) : Decidable (st.NoEntry i) :=
  inferInstanceAs (Decidable (∀ _ ∈ _, _))

instance (st : System) : (e : SystemEvent) → Decidable (FramesFromTop st e)
  | .main _ _ _ => inferInstanceAs (Decidable (_ → _))
  | .serve _ _ _ => inferInstanceAs (Decidable (∀ _ ∈ _, _ → _ ∨ _))
  | .start _ | .receive _ | .join _ | .accept _ | .clientMessage _ _ | .tick _ => .isTrue trivial

instance (st : System) (i : ConnectionId) : Decidable (st.TopRuns i) :=
  inferInstanceAs (Decidable (_ ∧ ∃ _ ∈ _, _))

instance (st : System) (i : ConnectionId) : Decidable (st.NotStuck i) :=
  inferInstanceAs (Decidable (_ ∨ _ ∨ _ ∨ _))

/-- As long as frames of registered apps reach the server only from its top app and no turn
throws, a running top app is never stuck at its gate. The first step that breaks this
takes the only permit of some app for good. -/
theorem top_app_never_stuck (serverConfig : ServerConfig) (renderer : Renderer)
    (params : ConnectionId → AnimationParams) (appNames : ConnectionId → String) (st : System)
    (h : (systemRuns serverConfig [renderer] params appNames).ReachableUnder FramesFromTop st) :
    (∀ i, st.TopRuns i → st.NotStuck i) ∧
    ∀ e st', st.step e = some st' → ¬FramesFromTop st e → ∃ i, ∀ events st'',
      (systemRuns serverConfig [renderer] params appNames).replay st' events = some st'' →
        st''.permits i = 0 := by
  have hinv : st.GateInv := by
    refine h.invariant System.GateInv (System.gateInv_initial serverConfig rfl params appNames) ?_
    exact fun _ _ _ hst hguard hstep => System.gateInv_step hst hguard hstep
  refine ⟨fun i htop => ?_, fun e st' hstep hguard => ?_⟩
  · obtain ⟨_, top, hmem, hconnection⟩ := htop
    refine System.notStuck_of_permits (hinv.permits_of_entry fun hnone => ?_)
    exact hnone top (List.mem_of_getLast? hmem) hconnection
  · obtain ⟨i, hlost⟩ := System.permits_of_not_framesFromTop hinv hstep hguard
    refine ⟨i, fun events st'' hrun => ?_⟩
    have hle := System.permits_replay (i := i) events
      (System.permitInv_step hinv.permits hstep) hrun
    omega

def killButtonPressed : Server.TickInput where
  killButton := true
  killSucceeds := false
  waitpidResult := 0
  forkResult := 0
  isDead _ := false

/-- A second app registers, is killed at the joystick, and the first app is told to resume. -/
def overtakenSchedule (meanwhile : List SystemEvent) : List SystemEvent :=
  let serve i := SystemEvent.serve i 8 fun _ => 0
  [.start 1, serve 1] ++ meanwhile ++ [.tick killButtonPressed, .receive 1, .receive 1] ++
    mainSchedule 1 3 ++ [.join 1, serve 1, serve 1, serve 1, .receive 0]

theorem resumed_app_not_stuck :
    ∃ st, (systemRuns {} [{ kind := .rgbMatrix, screens := [] }] (fun _ => {})
        fun _ => "app").Reachable st ∧
      (st.clients 0).mainThread = some .frameWait ∧ st.NotStuck 0 := by
  have hrun : (systemRuns {} [{ kind := .rgbMatrix, screens := [] }] (fun _ => {})
      fun _ => "app").ReachableUnder FramesFromTop _ :=
    .of_replayUnder (registerSchedule 0 7 ++ overtakenSchedule [.receive 0] ++ mainSchedule 0 1) rfl
  exact ⟨_, hrun.reachable, rfl, (top_app_never_stuck _ _ _ _ _ hrun).1 0 ⟨rfl, _, rfl, rfl⟩⟩

/-- The first app has sent a frame when the second one registers; at the end nothing is on
its way. -/
theorem resumed_app_stuck_after_overtaken_frame :
    ¬∀ st, (systemRuns {} [{ kind := .rgbMatrix, screens := [] }] (fun _ => {})
      fun _ => "app").Reachable st → ∀ i, st.TopRuns i → st.NotStuck i := by
  intro hall
  obtain ⟨st, hreach, hstuck⟩ := TransitionSystem.Reachable.of_test
    (M := systemRuns {} [{ kind := .rgbMatrix, screens := [] }] (fun _ => {}) fun _ => "app")
    (registerSchedule 0 7 ++ mainSchedule 0 3 ++
      overtakenSchedule [.serve 0 0 fun _ => 0, .receive 0, .receive 0] ++ mainSchedule 0 3 ++
      List.replicate 3 (.serve 0 0 fun _ => 0))
    (fun st => st.TopRuns 0 ∧ ¬st.NotStuck 0 ∧ st.toServer 0 = []) (by decide +kernel)
  obtain ⟨htop, hnot, _⟩ := of_decide_eq_true hstuck
  exact hnot (hall st hreach 0 htop)

end MatrixServer
