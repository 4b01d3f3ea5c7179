import MatrixServer.Application.ClientScreens
import MatrixServer.Protocol.System
import MatrixServer.Server.Introductions

/-!
How an application comes to know its screens.
It registers once, asks for the server's information once it is registered, and draws only
after the answer. While connections live, at most one message of this exchange is on its way,
so the answer comes once and finds the application without screens.
-/

namespace MatrixServer
open TransitionRuns

/-- The application answers the registration, and nothing else, with a message of the exchange. -/
theorem MatrixApplication.handleRequest_introductions (a : MatrixApplication)
    (message : MatrixServerMessage) :
    introductions ((a.handleRequest message).2.filterMap AppEffect.sent) ≤
      (decide (message.messageType = .registerApp)).toNat := by
  simp only [handleRequest]
  cases message.messageType with
  | registerApp =>
      simp only [register]
      split <;> simp [AppEffect.sent, MatrixServerMessage.introduces]
  | getServerInfo =>
      simp only [setServerConfig]
      split <;> exact Nat.le_refl 0
  | joystickData =>
      refine Nat.le_of_eq (introductions_eq_zero fun sent hsent => ?_)
      obtain ⟨e, he, hmessage⟩ := List.mem_filterMap.mp hsent
      obtain ⟨data, -, rfl⟩ := List.mem_map.mp he
      cases hmessage
  | audioDataMessage => cases message.audioData <;> exact Nat.le_refl 0
  | setAppParam => cases message.appParamUpdate <;> exact Nat.le_refl 0
  | _ => exact Nat.le_refl 0

/-- Only the server's information lets an application run. -/
theorem MatrixApplication.handleRequest_ready (a : MatrixApplication)
    {message : MatrixServerMessage} (h : message.messageType ≠ .getServerInfo)
    (hstate : a.appState ≠ .running ∧ a.appState ≠ .paused) :
    (a.handleRequest message).1.appState ≠ .running ∧
      (a.handleRequest message).1.appState ≠ .paused := by
  simp only [handleRequest]
  cases htype : message.messageType with
  | getServerInfo => exact absurd htype h
  | registerApp =>
      simp only [register]
      split <;> exact hstate
  | appPause =>
      simp only [pause, if_neg hstate.1]
      exact hstate
  | appResume =>
      simp only [resume, if_neg hstate.2]
      exact hstate
  | appKill =>
      constructor
      · intro hrunning
        cases hrunning
      · intro hpaused
        cases hpaused
  | audioDataMessage => cases message.audioData <;> exact hstate
  | setAppParam => cases message.appParamUpdate <;> exact hstate
  | _ => exact hstate

namespace AppProcess

/-- The application has not been told its screens, and does not draw. -/
structure Untold (p : AppProcess) : Prop where
  screens : p.app.screens = []
  state : p.app.appState ≠ .running ∧ p.app.appState ≠ .paused
  position : p.mainThread ≠ some .frameWait ∧ p.mainThread ≠ some .drawing

/-- The application has one whole screen for each entry of the configuration. -/
structure Told (serverConfig : ServerConfig) (p : AppProcess) : Prop where
  layouts : p.app.screens.map Screen.layout = serverConfig.screenInfo.map ScreenInfo.layout
  full : ∀ s ∈ p.app.screens, s.Full

end AppProcess

/-- The screens a turn of `loop` leaves. -/
def LoopOutcome.screens : LoopOutcome → List Screen
  | .returned _ screens _ | .loopThrew screens _ | .renderThrew _ screens _ => screens

/-- `loop` drew on the screens it was given. -/
def LoopOutcome.DrawsOn (before : List Screen) (outcome : LoopOutcome) : Prop :=
  outcome.screens.map Screen.layout = before.map Screen.layout ∧
    ∀ s ∈ outcome.screens, s.Full

theorem AppProcess.draw_screens (p : AppProcess) (outcome : LoopOutcome) :
    (p.draw outcome).1.app.screens = outcome.screens := by
  cases outcome with
  | returned _ _ brightness | loopThrew _ brightness | renderThrew _ _ brightness =>
      cases brightness <;> rfl

/-- An application between its channels to and from the server. -/
structure Introduction (serverConfig : ServerConfig) (p : AppProcess)
    (up down : List MatrixServerMessage) : Prop where
  live : p.connection.dead = false
  unstarted : p.started = false → introductions up + introductions down = 0 ∧ p.Untold
  progress : introductions up + introductions down ≤ 1 ∧ p.Untold ∨
    introductions up + introductions down = 0 ∧ p.Told serverConfig
  replies : ∀ message ∈ down, message.messageType = .getServerInfo →
    message.serverConfig = some serverConfig

namespace Introduction

variable {serverConfig : ServerConfig} {p p' : AppProcess} {up down : List MatrixServerMessage}

theorem told (h : Introduction serverConfig p up down) (hdraws : p.mainThread = some .drawing) :
    p.Told serverConfig := by
  cases h.progress with
  | inl huntold => exact absurd hdraws huntold.2.position.2
  | inr htold => exact htold.2

theorem start (h : Introduction serverConfig p up down) (hfresh : p.started = false) :
    Introduction serverConfig { p.goTo .loopTop with started := true }
      (up ++ [MatrixApplication.registerAtServer]) down := by
  obtain ⟨hnone, huntold⟩ := h.unstarted hfresh
  refine ⟨h.live, nofun, .inl ⟨?_, huntold.screens, huntold.state, nofun, nofun⟩, h.replies⟩
  simp [MatrixApplication.registerAtServer, MatrixServerMessage.introduces]
  omega

theorem mainStep (h : Introduction serverConfig p up down) {outcome : LoopOutcome}
    {sent : List MatrixServerMessage} (hstep : AppProcess.MainStep p outcome p' sent)
    (hdraws : p.mainThread = some .drawing → outcome.DrawsOn p.app.screens) :
    Introduction serverConfig p' (up ++ sent) down := by
  have hawake := hstep.started
  have hnone : introductions sent = 0 := by
    cases hstep with
    | enter | skip | pass | checkKilled => rfl
    | draw => cases outcome <;> rfl
    | checkConnection running connects =>
        rw [AppProcess.checkConnection_live h.live]
        rfl
  have hlive : p'.connection.dead = false := by
    cases hstep with
    | enter | skip | pass | checkKilled => exact h.live
    | draw => rw [(p.draw_sameTests outcome).connection, h.live]
    | checkConnection running connects =>
        rw [AppProcess.checkConnection_live h.live]
        exact h.live
  have huntold : p.Untold → p'.Untold := by
    intro huntold
    cases hstep with
    | enter _ hrunning => exact absurd hrunning huntold.state.1
    | pass hpos => exact absurd hpos huntold.position.1
    | draw hpos => exact absurd hpos huntold.position.2
    | skip | checkKilled => exact ⟨huntold.screens, huntold.state, nofun, nofun⟩
    | checkConnection running connects =>
        rw [AppProcess.checkConnection_live h.live]
        exact ⟨huntold.screens, huntold.state, by simpa using AppProcess.nextTurn_leaves running⟩
  have htold : p.Told serverConfig → p'.Told serverConfig := by
    intro htold
    cases hstep with
    | enter | skip | pass | checkKilled => exact ⟨htold.layouts, htold.full⟩
    | draw hpos =>
        obtain ⟨hlayouts, hfull⟩ := hdraws hpos
        refine ⟨?_, ?_⟩
        · rw [AppProcess.draw_screens, hlayouts, htold.layouts]
        · rwa [AppProcess.draw_screens]
    | checkConnection running connects =>
        rw [AppProcess.checkConnection_live h.live]
        exact ⟨htold.layouts, htold.full⟩
  refine ⟨hlive, fun hstarted => ?_, ?_, h.replies⟩
  · obtain ⟨hcount, hbefore⟩ := h.unstarted (hawake.symm.trans hstarted)
    rw [introductions_append, hnone]
    exact ⟨hcount, huntold hbefore⟩
  · rw [introductions_append, hnone]
    exact h.progress.imp (And.imp_right huntold) (And.imp_right htold)

theorem receive {message : MatrixServerMessage} {rest : List MatrixServerMessage}
    (h : Introduction serverConfig p up (message :: rest))
    (hnonneg : ∀ info ∈ serverConfig.screenInfo, 0 ≤ info.pixels) :
    Introduction serverConfig
      { p with
        app := (p.app.handleRequest message).1
        receiveThread := p.afterHandling (p.app.handleRequest message).2 }
      (up ++ (p.app.handleRequest message).2.filterMap AppEffect.sent) rest := by
  have hcount := p.app.handleRequest_introductions message
  have hreplies : ∀ other ∈ rest, other.messageType = .getServerInfo →
      other.serverConfig = some serverConfig :=
    fun other hother => h.replies other (List.mem_cons_of_mem _ hother)
  have hunstarted := h.unstarted
  have hprogress := h.progress
  simp only [introductions_cons] at hunstarted hprogress
  by_cases hinfo : message.messageType = .getServerInfo
  · have hintroduces : message.introduces = true := by
      simp [MatrixServerMessage.introduces, hinfo]
    have hnotRegister : message.messageType ≠ .registerApp := by
      rw [hinfo]
      decide
    simp only [hintroduces, Bool.toNat_true] at hunstarted hprogress
    simp only [hnotRegister, decide_false, Bool.toNat_false, Nat.le_zero] at hcount
    obtain ⟨hone, huntold⟩ | ⟨hzero, -⟩ := hprogress
    · refine ⟨h.live, fun hstarted => ?_, .inr ⟨?_, ?_⟩, hreplies⟩
      · have hnone := (hunstarted hstarted).1
        omega
      · rw [introductions_append, hcount]
        omega
      · have hconfig := h.replies message List.mem_cons_self hinfo
        have hfull : ∀ s ∈ p.app.screens, s.Full := by
          rw [huntold.screens]
          exact fun s hs => False.elim (List.not_mem_nil hs)
        simp only [MatrixApplication.handleRequest, hinfo, hconfig, Option.getD_some]
        exact ⟨(MatrixApplication.setServerConfig_matches _ _ hfull).mpr ⟨huntold.screens, hnonneg⟩,
          MatrixApplication.setServerConfig_full hfull serverConfig⟩
    · omega
  · have hscreens := (p.app.handleRequest_screens hinfo).1
    have hle : (decide (message.messageType = .registerApp)).toNat ≤ message.introduces.toNat := by
      by_cases hregister : message.messageType = .registerApp
      · simp [MatrixServerMessage.introduces, hregister]
      · simp [hregister]
    have huntold : p.Untold → AppProcess.Untold
        { p with
          app := (p.app.handleRequest message).1
          receiveThread := p.afterHandling (p.app.handleRequest message).2 } :=
      fun huntold => ⟨hscreens.trans huntold.screens,
        p.app.handleRequest_ready hinfo huntold.state, huntold.position⟩
    refine ⟨h.live, fun hstarted => ?_, ?_, hreplies⟩
    · obtain ⟨hnone, hbefore⟩ := hunstarted hstarted
      refine ⟨?_, huntold hbefore⟩
      rw [introductions_append]
      omega
    · rw [introductions_append]
      obtain ⟨hone, hbefore⟩ | ⟨hzero, htold⟩ := hprogress
      · exact .inl ⟨by omega, huntold hbefore⟩
      · refine .inr ⟨by omega, ?_, ?_⟩
        · exact (congrArg (List.map Screen.layout) hscreens).trans htold.layouts
        · rw [hscreens]
          exact htold.full

theorem answered {up' new : List MatrixServerMessage} (h : Introduction serverConfig p up down)
    (hcount : introductions up' + introductions new ≤ introductions up)
    (hconfig : ∀ message ∈ new, message.messageType = .getServerInfo →
      message.serverConfig = some serverConfig) :
    Introduction serverConfig p up' (down ++ new) := by
  have hle : introductions up' + introductions (down ++ new) ≤
      introductions up + introductions down := by
    rw [introductions_append]
    omega
  refine ⟨h.live, fun hstarted => ?_, ?_, fun message hmem => ?_⟩
  · obtain ⟨hnone, huntold⟩ := h.unstarted hstarted
    exact ⟨by omega, huntold⟩
  · exact h.progress.imp (And.imp_left fun hone => by omega) (And.imp_left fun hzero => by omega)
  · exact (List.mem_append.mp hmem).elim (h.replies message) (hconfig message)

end Introduction

namespace System

/-- Every turn of `loop` draws on the screens of its application. -/
def DrawsOnScreens (st : System) : SystemEvent → Prop
  | .main i outcome _ =>
      (st.clients i).mainThread = some .drawing → outcome.DrawsOn (st.clients i).app.screens
  | _ => True

def Introduced (serverConfig : ServerConfig) (st : System) : Prop :=
  ∀ i, Introduction serverConfig (st.clients i) (st.toServer i) (st.toClient i)

section
variable {serverConfig : ServerConfig} {st st' : System}

theorem Introduced.clientStep (h : st.Introduced serverConfig) {i : ConnectionId}
    {process : AppProcess} {sent : List MatrixServerMessage}
    {toClient : ConnectionId → List MatrixServerMessage}
    (hclient : Introduction serverConfig process (st.toServer i ++ sent) (toClient i))
    (hothers : ∀ j, j ≠ i → toClient j = st.toClient j) :
    Introduced serverConfig { st.clientStep i process sent with toClient } := by
  intro j
  by_cases hj : j = i
  · subst hj
    simpa only [System.clientStep, Function.update_self] using hclient
  · simpa only [System.clientStep, Function.update_of_ne hj, hothers j hj] using h j

theorem Introduced.call (h : st.Introduced serverConfig)
    (hconfig : st.server.serverConfig = serverConfig) (c : ServerCall)
    (toServer : ConnectionId → List MatrixServerMessage)
    (hcount : ∀ j, introductions (toServer j) +
      (decide (c.requester = some j) && c.introduces).toNat ≤ introductions (st.toServer j)) :
    Introduced serverConfig (({ st with toServer } : System).call c) := by
  intro j
  refine (h j).answered ?_ ?_
  · have hsent := st.server.call_introductions c j
    have hconsumed := hcount j
    change introductions (toServer j) +
      introductions ((st.server.call c).2.filterMap (sentTo j)) ≤ introductions (st.toServer j)
    omega
  · intro message hmem htype
    have hintroduces : message.introduces = true := by
      simp [MatrixServerMessage.introduces, htype]
    rw [(Server.call_answers (mem_sentTo.mp hmem) hintroduces).config htype, hconfig]

theorem receive_cases {i : ConnectionId} (h : st.step (.receive i) = some st') :
    ∃ message rest, st.toClient i = message :: rest ∧
      st' = { st.clientStep i
          { st.clients i with
            app := ((st.clients i).app.handleRequest message).1
            receiveThread :=
              (st.clients i).afterHandling ((st.clients i).app.handleRequest message).2 }
          (((st.clients i).app.handleRequest message).2.filterMap AppEffect.sent) with
        toClient := Function.update st.toClient i rest } := by
  simp only [System.step] at h
  split at h
  · cases h
  · rename_i message rest hchannel
    obtain ⟨⟨process, effects⟩, hdeliver, rfl⟩ := Option.map_eq_some_iff.mp h
    simp only [AppProcess.deliver] at hdeliver
    split at hdeliver
    · cases hdeliver
      exact ⟨message, rest, hchannel, rfl⟩
    · cases hdeliver

theorem Introduced.step (h : st.Introduced serverConfig)
    (hconfig : st.server.serverConfig = serverConfig)
    (hnonneg : ∀ info ∈ serverConfig.screenInfo, 0 ≤ info.pixels) {e : SystemEvent}
    (hdraws : st.DrawsOnScreens e) (hstep : st.step e = some st') :
    st'.Introduced serverConfig := by
  cases e with
  | receive i =>
      obtain ⟨message, rest, hchannel, rfl⟩ := receive_cases hstep
      have hclient := h i
      rw [hchannel] at hclient
      refine h.clientStep ?_ fun j hj => Function.update_of_ne hj _ _
      rw [Function.update_self]
      exact hclient.receive hnonneg
  | start i =>
      cases step_cases hstep with
      | start _ hmain hfresh => exact h.clientStep ((h i).start hfresh) fun _ _ => rfl
      | call c hactor => cases hactor
  | main i outcome connects =>
      cases step_cases hstep with
      | main _ _ _ hmain => exact h.clientStep ((h i).mainStep hmain hdraws) fun _ _ => rfl
      | call c hactor => cases hactor
  | join i =>
      cases step_cases hstep with
      | join _ hjoining hmain =>
          have hclient := h i
          have huntold : (st.clients i).Untold → AppProcess.Untold
              { st.clients i with mainThread := none, receiveThread := .idle } :=
            fun huntold => ⟨huntold.screens, huntold.state, nofun, nofun⟩
          refine h.clientStep ⟨hclient.live, fun hstarted => ?_, ?_, hclient.replies⟩ fun _ _ => rfl
          · rw [List.append_nil]
            exact (hclient.unstarted hstarted).imp_right huntold
          · rw [List.append_nil]
            exact hclient.progress.imp (And.imp_right huntold)
              (And.imp_right fun htold => ⟨htold.layouts, htold.full⟩)
      | call c hactor => cases hactor
  | serve i rand beyond =>
      cases step_cases hstep with
      | @serve _ message rest _ _ hchannel =>
          refine h.call hconfig _ _ fun j => ?_
          by_cases hj : j = i
          · subst hj
            rw [Function.update_self, hchannel, introductions_cons]
            simp [ServerCall.requester, ServerCall.introduces]
          · simp [ServerCall.requester, Function.update_of_ne hj, Ne.symm hj]
      | call c hactor => cases hactor
  | accept i | clientMessage renderer message | tick input =>
      cases step_cases hstep with
      | call c hactor hrequester =>
          refine h.call hconfig c st.toServer fun j => ?_
          simp [hrequester]

theorem introduced_initial (serverConfig : ServerConfig) (renderers : List Renderer)
    (params : ConnectionId → AnimationParams) (appNames : ConnectionId → String) :
    (systemRuns serverConfig renderers params appNames).initial.Introduced serverConfig := by
  intro i
  have huntold : AppProcess.Untold { app := { params := params i, appName := appNames i } } :=
    ⟨rfl, ⟨nofun, nofun⟩, nofun, nofun⟩
  exact ⟨rfl, fun _ => ⟨rfl, huntold⟩, .inl ⟨Nat.zero_le _, huntold⟩,
    fun _ hmem => False.elim (List.not_mem_nil hmem)⟩

end
end System
end MatrixServer
