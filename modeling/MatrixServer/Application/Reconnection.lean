import MatrixServer.Application.ApplicationRuns

/-!
Losing the connection of an application.
`frameAcked` is carried over a reconnect, and nobody answers a frame that went to
a lost connection. A loss is harmless when the main thread comes to
`checkConnection` with `frameAcked` set, or never waits again; then every wait in
vain is for a frame that the live connection carried.
-/

namespace MatrixServer
open TransitionRuns

namespace AppProcess

/-- `stop` has told the main thread to end, and no message can change that before the next
`checkConnection`. -/
def toldToEnd (p : AppProcess) : Bool :=
  p.receiveThread = .joining && p.app.appState = .killed

/-- From this position the main thread does not wait in vain any more. -/
def lastAt (p : AppProcess) : Option MainPosition → Bool
  | none => p.started
  | some .finished | some (.checkKilled false) | some (.checkConnection false) => true
  | some .loopTop | some .drawing | some (.checkKilled true) => p.toldToEnd
  | some .frameWait => p.toldToEnd && p.app.frameAcked
  | some (.checkConnection true) => false

/-- The main thread has ended or will end before it waits in vain. -/
def LastTurn (p : AppProcess) : Prop :=
  p.receiveThread = .terminated ∨ p.lastAt p.mainThread = true

/-- From this position `checkConnection` comes before the next wait. -/
def checkAhead (p : AppProcess) : Option MainPosition → Bool
  | some (.checkKilled _) | some (.checkConnection _) => true
  | none | some .loopTop => p.app.appState ≠ .running
  | _ => false

/-- The main thread is about to read `appState`, or has not been started. -/
def BeforeTest (p : AppProcess) : Prop :=
  p.mainThread = some .loopTop ∨ p.mainThread = none ∧ p.started = false

/-- No frame is unanswered and `checkConnection` comes first, or the turn is the last. -/
def ComesToCheck (p : AppProcess) : Prop :=
  p.LastTurn ∨ p.app.frameAcked = true ∧ p.checkAhead p.mainThread = true

instance (p : AppProcess) : Decidable p.BeforeTest := inferInstanceAs (Decidable (_ ∨ _))

instance (p : AppProcess) : Decidable p.LastTurn := inferInstanceAs (Decidable (_ ∨ _))

instance (p : AppProcess) : Decidable p.ComesToCheck := inferInstanceAs (Decidable (_ ∨ _))

theorem toldToEnd_joining {p : AppProcess} (h : p.toldToEnd = true) :
    p.receiveThread = .joining :=
  of_decide_eq_true (Bool.and_eq_true_iff.mp h).1

theorem toldToEnd_killed {p : AppProcess} (h : p.toldToEnd = true) : p.app.appState = .killed :=
  of_decide_eq_true (Bool.and_eq_true_iff.mp h).2

/-- A message is handled while nobody joins, so the last turn does not depend on it. -/
theorem lastAt_handled {p : AppProcess} (hidle : p.receiveThread = .idle)
    (hlast : p.lastAt p.mainThread = true) (app : MatrixApplication)
    (receiveThread : ReceivePosition) :
    lastAt { p with app, receiveThread } p.mainThread = true := by
  generalize p.mainThread = position at hlast ⊢
  cases position with
  | none => exact hlast
  | some position =>
      cases position with
      | loopTop | drawing => cases hidle.symm.trans (toldToEnd_joining hlast)
      | frameWait =>
          cases hidle.symm.trans (toldToEnd_joining (Bool.and_eq_true_iff.mp hlast).1)
      | checkKilled running =>
          cases running with
          | true => cases hidle.symm.trans (toldToEnd_joining hlast)
          | false => rfl
      | checkConnection running =>
          cases running with
          | true => cases hlast
          | false => rfl
      | finished => rfl

/-- A turn that `loop` ends, or in which the app was told to end, is the last. -/
theorem lastAt_draw {p : AppProcess} (h : p.toldToEnd = true) (outcome : LoopOutcome) :
    (p.draw outcome).1.lastAt (p.draw outcome).1.mainThread = true := by
  have hsame := p.draw_sameTests outcome
  have htold : (p.draw outcome).1.toldToEnd = true := by
    rw [toldToEnd, hsame.receiveThread, hsame.appState]
    exact h
  obtain ⟨running, hnext⟩ | ⟨running, hnext⟩ := p.draw_mainThread outcome
  · rw [hnext]
    cases running with
    | true => exact htold
    | false => rfl
  · rw [hnext]
    cases running with
    | true => exact htold
    | false => rfl

variable {p : AppProcess} (hlast : ¬ p.LastTurn)
include hlast

/-- Handling a message leaves `checkConnection` ahead unless it makes the app run before the
main thread has read `appState`. -/
theorem checkAhead_handled (hahead : p.checkAhead p.mainThread = true) {app : MatrixApplication}
    (hstays : p.BeforeTest → p.app.appState ≠ .running → app.appState ≠ .running) :
    checkAhead { p with app } p.mainThread = true := by
  cases hpos : p.mainThread with
  | none =>
      rw [hpos] at hahead
      have hfresh : p.started = false := by
        rw [← Bool.not_eq_true]
        exact fun hstarted => hlast (.inr (hpos ▸ hstarted))
      exact decide_eq_true (hstays (.inr ⟨hpos, hfresh⟩) (of_decide_eq_true hahead))
  | some position =>
      rw [hpos] at hahead
      cases position with
      | loopTop => exact decide_eq_true (hstays (.inl hpos) (of_decide_eq_true hahead))
      | checkKilled running | checkConnection running => rfl
      | frameWait | drawing | finished => cases hahead

/-- A connection that `checkConnection` leaves lost was lost before, and then the app has failed
and comes to the next `checkConnection` without a wait. -/
theorem comesToCheck_checkConnection (running connects : Bool)
    (hcheck : p.connection.dead = true → p.ComesToCheck)
    (hdead : (p.checkConnection running connects).1.connection.dead = true) :
    (p.checkConnection running connects).1.ComesToCheck := by
  by_cases hwas : p.connection.dead = true
  · obtain ⟨hacked, _⟩ := (hcheck hwas).resolve_left hlast
    cases running with
    | false =>
        refine .inl (.inr ?_)
        rw [checkConnection_mainThread]
        rfl
    | true =>
        refine .inr ⟨(p.checkConnection_frameAcked true connects).trans hacked, ?_⟩
        rw [checkConnection_mainThread]
        refine decide_eq_true fun hrunning => ?_
        rw [checkConnection_app, if_pos hwas] at hrunning
        cases hrunning
  · have hsame := p.checkConnection_connection running connects
    rw [if_neg hwas] at hsame
    exact absurd (hsame ▸ hdead) hwas

end AppProcess

/-- The connection is lost only where the loss is harmless, and no message makes the app
run between the loss and `checkConnection`. -/
def LossMeetsCheck (r : AppRun) : AppEvent → Prop
  | .lose => r.process.ComesToCheck
  | .deliver message =>
      r.process.connection.dead = true → r.process.BeforeTest →
        message.messageType ≠ .getServerInfo ∧
          ¬(message.messageType = .appResume ∧ r.process.app.appState = .paused)
  | _ => True

instance (r : AppRun) : (e : AppEvent) → Decidable (LossMeetsCheck r e)
  | .lose => inferInstanceAs (Decidable r.process.ComesToCheck)
  | .deliver _ => inferInstanceAs (Decidable (_ → _ → _ ∧ _))
  | .start | .main _ _ | .runPosted | .join | .joinFormer => .isTrue trivial

namespace AppRun

theorem lastTurn_step {r r' : AppRun} {e : AppEvent} (hthreads : r.ThreadInv)
    (h : r.process.LastTurn) (hstep : r.step e = some r') : r'.process.LastTurn := by
  cases step_cases hstep with
  | start halive hmain hfresh =>
      have hlast := h.resolve_left halive
      rw [hmain] at hlast
      cases hlast.symm.trans hfresh
  | main outcome connects halive hmain =>
      have hlast := h.resolve_left halive
      refine .inr ?_
      cases hmain with
      | enter hpos hrunning =>
          rw [hpos] at hlast
          cases (AppProcess.toldToEnd_killed hlast).symm.trans hrunning
      | skip hpos =>
          rw [hpos] at hlast
          exact hlast
      | pass hpos =>
          rw [hpos] at hlast
          exact (Bool.and_eq_true_iff.mp hlast).1
      | draw hpos =>
          rw [hpos] at hlast
          exact AppProcess.lastAt_draw hlast outcome
      | checkKilled running hpos =>
          rw [hpos] at hlast
          cases running with
          | false => rfl
          | true =>
              rw [AppRun.post, AppProcess.toldToEnd_killed hlast]
              rfl
      | checkConnection running connects hpos =>
          rw [hpos] at hlast
          cases running with
          | true => cases hlast
          | false =>
              rw [AppRun.post, AppProcess.checkConnection_mainThread]
              rfl
  | deliver message hidle hhandles =>
      have hlast := h.resolve_left fun hterm => by cases hidle.symm.trans hterm
      exact .inr (AppProcess.lastAt_handled hidle hlast _ _)
  | runPosted | lose => exact h
  | join _ hpos | joinFormer hpos => exact .inr (hthreads.began (hpos ▸ Option.some_ne_none _))

/-- What holds along runs whose losses are harmless. -/
structure LossInv (r : AppRun) : Prop where
  threads : r.ThreadInv
  check : r.process.connection.dead = true → r.process.ComesToCheck
  fate : r.process.LastTurn ∨ r.process.app.frameAcked = true ∨
    r.process.connection.dead = false ∧
      (r.lastFrame = .taken ∨ r.lastFrame = .sentOn r.process.connection.id)

theorem check_step {r r' : AppRun} {e : AppEvent} (h : r.LossInv) (hguard : LossMeetsCheck r e)
    (hstep : r.step e = some r') (hdead : r'.process.connection.dead = true) :
    r'.process.ComesToCheck := by
  by_cases hlast : r.process.LastTurn
  · exact .inl (lastTurn_step h.threads hlast hstep)
  cases step_cases hstep with
  | start _ hmain =>
      obtain ⟨hacked, hahead⟩ := (h.check hdead).resolve_left hlast
      rw [hmain] at hahead
      exact .inr ⟨hacked, hahead⟩
  | main outcome connects _ hmain =>
      cases hmain with
      | enter hpos hrunning =>
          obtain ⟨_, hahead⟩ := (h.check hdead).resolve_left hlast
          rw [hpos] at hahead
          exact absurd hrunning (of_decide_eq_true hahead)
      | skip | checkKilled =>
          obtain ⟨hacked, _⟩ := (h.check hdead).resolve_left hlast
          exact .inr ⟨hacked, rfl⟩
      | pass hpos =>
          obtain ⟨_, hahead⟩ := (h.check hdead).resolve_left hlast
          rw [hpos] at hahead
          cases hahead
      | draw hpos =>
          have hsame := (r.process.draw_sameTests outcome).connection
          obtain ⟨_, hahead⟩ := (h.check (hsame ▸ hdead)).resolve_left hlast
          rw [hpos] at hahead
          cases hahead
      | checkConnection running connects hpos =>
          exact AppProcess.comesToCheck_checkConnection hlast running connects h.check hdead
  | @deliver app _ _ _ hhandles =>
      obtain ⟨hacked, hahead⟩ := (h.check hdead).resolve_left hlast
      have hstays : r.process.BeforeTest → r.process.app.appState ≠ .running →
          app.appState ≠ .running := by
        intro hbefore hnot hrunning
        obtain ⟨hinfo, hresume⟩ := hguard hdead hbefore
        obtain hrunning | hinfo' | hresume' := hhandles.running hrunning
        · exact hnot hrunning
        · exact hinfo hinfo'
        · exact hresume hresume'
      exact .inr ⟨hhandles.stays_acked hacked, AppProcess.checkAhead_handled hlast hahead hstays⟩
  | runPosted => exact h.check hdead
  | join _ hpos | joinFormer hpos => exact absurd (.inr (hpos ▸ rfl)) hlast
  | lose => exact hguard

/-- A step that keeps a live connection keeps the frame on it. -/
theorem fateAfter_live {r : AppRun} {process : AppProcess} (sent : List MatrixServerMessage)
    (hsame : process.connection = r.process.connection)
    (h : r.process.connection.dead = false ∧
      (r.lastFrame = .taken ∨ r.lastFrame = .sentOn r.process.connection.id)) :
    process.connection.dead = false ∧
      (r.fateAfter process sent = .taken ∨
        r.fateAfter process sent = .sentOn process.connection.id) := by
  rw [hsame]
  refine ⟨h.1, ?_⟩
  obtain htaken | hsent | hlast := r.fateAfter_cases process sent
  · exact .inl htaken
  · exact .inr (hsame ▸ hsent)
  · exact hlast ▸ h.2

theorem fate_step {r r' : AppRun} {e : AppEvent} (h : r.LossInv) (hguard : LossMeetsCheck r e)
    (hstep : r.step e = some r') :
    r'.process.LastTurn ∨ r'.process.app.frameAcked = true ∨
      r'.process.connection.dead = false ∧
        (r'.lastFrame = .taken ∨ r'.lastFrame = .sentOn r'.process.connection.id) := by
  by_cases hlast : r.process.LastTurn
  · exact .inl (lastTurn_step h.threads hlast hstep)
  have hfate := h.fate.resolve_left hlast
  right
  cases step_cases hstep with
  | start | runPosted => exact hfate
  | main outcome connects _ hmain =>
      cases hmain with
      | enter | skip | checkKilled => exact hfate
      | pass hpos =>
          have hlive : r.process.connection.dead ≠ true := by
            intro hdead
            obtain ⟨_, hahead⟩ := (h.check hdead).resolve_left hlast
            rw [hpos] at hahead
            cases hahead
          exact .inr ⟨eq_false_of_ne_true hlive, .inl rfl⟩
      | draw hpos =>
          have hsame := r.process.draw_sameTests outcome
          exact hfate.imp hsame.frameAcked.trans (fateAfter_live _ hsame.connection)
      | checkConnection running connects hpos =>
          have hacked := r.process.checkConnection_frameAcked running connects
          have hconnection := r.process.checkConnection_connection running connects
          refine hfate.imp hacked.trans fun hlive => fateAfter_live _ ?_ hlive
          rwa [hlive.1, if_neg Bool.false_ne_true] at hconnection
  | deliver message _ hhandles =>
      cases hfate with
      | inl hacked => exact .inl (hhandles.stays_acked hacked)
      | inr hlive => exact .inr hlive
  | join _ hpos | joinFormer hpos => exact absurd (.inr (hpos ▸ rfl)) hlast
  | lose =>
      obtain ⟨hacked, _⟩ := Or.resolve_left hguard hlast
      exact .inl hacked

theorem lossInv_step {r r' : AppRun} {e : AppEvent} (h : r.LossInv) (hguard : LossMeetsCheck r e)
    (hstep : r.step e = some r') : r'.LossInv :=
  ⟨threadInv_step h.threads hstep, check_step h hguard hstep, fate_step h hguard hstep⟩

theorem lossInv_reachable {params : AnimationParams} {appName : String} {r : AppRun}
    (h : (applicationRuns params appName).ReachableUnder LossMeetsCheck r) : r.LossInv := by
  refine h.invariant LossInv ⟨threadInv_initial params appName, ?_, .inr (.inl rfl)⟩
    fun _ _ _ hr hguard hstep => lossInv_step hr hguard hstep
  intro hdead
  cases hdead

/-- The main thread waits in vain for the reply to a frame that went to a lost connection. -/
def Wedged (r : AppRun) : Prop :=
  r.process.receiveThread ≠ .terminated ∧ r.process.mainThread = some .frameWait ∧
    r.process.app.frameAcked = false ∧ ∃ connection, r.lastFrame = .sentOn connection ∧
      (connection ≠ r.process.connection.id ∨ r.process.connection.dead = true)

theorem LossInv.waits {r : AppRun} (h : r.LossInv) (halive : r.process.receiveThread ≠ .terminated)
    (hwait : r.process.mainThread = some .frameWait) :
    r.process.app.frameAcked = true ∨ r.process.connection.dead = false ∧
      (r.lastFrame = .taken ∨ r.lastFrame = .sentOn r.process.connection.id) := by
  refine h.fate.elim (fun hlast => .inl ?_) id
  have hlast := hlast.resolve_left halive
  rw [hwait] at hlast
  exact (Bool.and_eq_true_iff.mp hlast).2

end AppRun

namespace AppProcess

/-- How many steps the main thread is at most away from `checkConnection`. -/
def stepsToCheck : MainPosition → Nat
  | .checkConnection _ | .finished => 0
  | .checkKilled _ => 1
  | .loopTop => 2
  | .drawing => 3
  | .frameWait => 4

theorem stepsToCheck_nextTurn (running : Bool) : stepsToCheck (nextTurn running) ≤ 2 := by
  cases running <;> decide

/-- The main thread can go on towards `checkConnection` unless it waits or starts to. -/
theorem mainStep_progress {p : AppProcess} (halive : p.receiveThread ≠ .terminated)
    {position : MainPosition} (hpos : p.mainThread = some position)
    (hfar : stepsToCheck position ≠ 0) (hloop : position = .loopTop → p.app.appState ≠ .running)
    (hwait : position = .frameWait → p.app.frameAcked = true)
    (outcome : LoopOutcome) (connects : Bool) :
    ∃ p' sent position', p.mainStep outcome connects = some (p', sent) ∧
      p'.mainThread = some position' ∧ stepsToCheck position' < stepsToCheck position ∧
      p'.connection = p.connection := by
  cases position with
  | loopTop =>
      refine ⟨p.goTo (.checkKilled true), [], .checkKilled true, ?_, rfl, by decide, rfl⟩
      simp [mainStep, halive, hpos, hloop]
  | frameWait =>
      refine ⟨p.takeFrame, [], .drawing, ?_, rfl, by decide, rfl⟩
      simp [mainStep, halive, hpos, hwait]
  | drawing =>
      have hdraw : p.mainStep outcome connects = some (p.draw outcome) := by
        simp [mainStep, halive, hpos]
      have hsame := (p.draw_sameTests outcome).connection
      obtain ⟨running, hnext⟩ | ⟨running, hnext⟩ := p.draw_mainThread outcome
      · exact ⟨_, _, _, hdraw, hnext, (by decide : 1 < 3), hsame⟩
      · exact ⟨_, _, _, hdraw, hnext, Nat.lt_succ_of_le (stepsToCheck_nextTurn running), hsame⟩
  | checkKilled running =>
      refine ⟨p.goTo (.checkConnection (running && p.app.appState ≠ .killed)), [], _, ?_, rfl,
        Nat.zero_lt_one, rfl⟩
      simp [mainStep, halive, hpos]
  | checkConnection running | finished => exact absurd rfl hfar

end AppProcess

namespace AppRun

/-- On a dead connection the main thread reaches `checkConnection` or its end by its own
steps, whatever `loop` does. -/
theorem LossInv.reaches_check {r : AppRun} (h : r.LossInv)
    (hdead : r.process.connection.dead = true) (halive : r.process.receiveThread ≠ .terminated)
    {position : MainPosition} (hpos : r.process.mainThread = some position)
    (outcome : LoopOutcome) (connects : Bool) (params : AnimationParams) (appName : String) :
    ∃ steps r' position', (applicationRuns params appName).replay r
        (List.replicate steps (.main outcome connects)) = some r' ∧
      r'.process.mainThread = some position' ∧ AppProcess.stepsToCheck position' = 0 := by
  induction hn : AppProcess.stepsToCheck position using Nat.strongRecOn
    generalizing r position with
  | ind n ih =>
      by_cases hfar : AppProcess.stepsToCheck position = 0
      · exact ⟨0, r, position, rfl, hpos, hfar⟩
      have hloop : position = .loopTop → r.process.app.appState ≠ .running := by
        rintro rfl
        cases h.check hdead with
        | inl hlast =>
            have hlast := hlast.resolve_left halive
            rw [hpos] at hlast
            exact fun hrunning => by
              cases (AppProcess.toldToEnd_killed hlast).symm.trans hrunning
        | inr hahead =>
            have hahead := hahead.2
            rw [hpos] at hahead
            exact of_decide_eq_true hahead
      have hwait : position = .frameWait → r.process.app.frameAcked = true := by
        rintro rfl
        refine (h.waits halive hpos).resolve_right fun hlive => ?_
        cases hlive.1.symm.trans hdead
      obtain ⟨p', sent, position', hmain, hpos', hless, hsame⟩ :=
        AppProcess.mainStep_progress halive hpos hfar hloop hwait outcome connects
      have hstep : r.step (.main outcome connects) =
          some { r.post p' sent with lastFrame := r.fateAfter p' sent } := by
        rw [step, hmain, Option.map_some]
      have halive' := (AppProcess.mainStep_cases hmain).2.alive halive
      have hinv := lossInv_step h (e := .main outcome connects) trivial hstep
      obtain ⟨steps, r', position'', hrun, hend⟩ :=
        ih _ (hn ▸ hless) hinv (hsame ▸ hdead) halive' hpos' rfl
      refine ⟨steps + 1, r', position'', ?_, hend⟩
      rw [List.replicate_succ]
      simp only [TransitionSystem.replay, TransitionSystem.replayUnder, if_true] at hrun ⊢
      rw [show (applicationRuns params appName).step r (.main outcome connects) = _ from hstep]
      exact hrun

end AppRun

/-- As long as every loss meets `checkConnection` before the next wait, no wait is for a
frame on a lost connection: the main thread reaches `checkConnection` while the connection
is dead, and where it waits `frameAcked` is set, or the live connection carried the frame,
or `loop` threw. -/
theorem loss_before_check_never_wedges (params : AnimationParams) (appName : String) (r : AppRun)
    (h : (applicationRuns params appName).ReachableUnder LossMeetsCheck r) :
    ¬r.Wedged ∧
    (r.process.connection.dead = true → r.process.receiveThread ≠ .terminated →
      r.process.mainThread ≠ none → ∀ outcome connects, ∃ steps r' position,
        (applicationRuns params appName).replay r
            (List.replicate steps (.main outcome connects)) = some r' ∧
          r'.process.mainThread = some position ∧ AppProcess.stepsToCheck position = 0) ∧
    (r.process.receiveThread ≠ .terminated → r.process.mainThread = some .frameWait →
      r.process.app.frameAcked = true ∨ r.process.connection.dead = false ∧
        (r.lastFrame = .taken ∨ r.lastFrame = .sentOn r.process.connection.id)) := by
  have hinv := AppRun.lossInv_reachable h
  refine ⟨?_, ?_, hinv.waits⟩
  · rintro ⟨halive, hwait, hacked, connection, hsent, hlost⟩
    obtain hacked' | ⟨hlive, hfate⟩ := hinv.waits halive hwait
    · cases hacked.symm.trans hacked'
    · cases hfate with
      | inl htaken => cases hsent.symm.trans htaken
      | inr hlast =>
          have hsame := FrameFate.sentOn.inj (hsent.symm.trans hlast)
          exact hlost.elim (fun hne => hne hsame) fun hdead => by cases hlive.symm.trans hdead
  · intro hdead halive hmain outcome connects
    obtain ⟨position, hpos⟩ := Option.ne_none_iff_exists'.mp hmain
    exact hinv.reaches_check hdead halive hpos outcome connects params appName

/-- The connection is lost after the reply; the app reconnects and its next wait is open. -/
def reconnectSchedule : List AppEvent :=
  let main := AppEvent.main (.returned true [] none) true
  frameSentSchedule 0 ++ [.runPosted, .deliver { messageType := .setScreenFrame }, .lose, main,
    main, .deliver { messageType := .registerApp, appID := 8, status := .success },
    .deliver { messageType := .getServerInfo, serverConfig := some {} }, main]

theorem loss_after_reply_never_wedges :
    ∃ r, (applicationRuns {} "app").Reachable r ∧ r.process.mainThread = some .frameWait ∧
      r.process.connection.id = 1 ∧ ¬r.Wedged := by
  have hrun : (applicationRuns {} "app").ReachableUnder LossMeetsCheck _ :=
    .of_replayUnder reconnectSchedule rfl
  exact ⟨_, hrun.reachable, rfl, rfl, (loss_before_check_never_wedges {} "app" _ hrun).1⟩

/-- The connection is lost while the app waits for the reply to its frame. -/
theorem loss_during_wait_wedges : ¬∀ r, (applicationRuns {} "app").Reachable r → ¬r.Wedged := by
  intro hall
  refine hall _ (.of_replay (frameSentSchedule 3 ++ [.runPosted, .lose]) rfl) ?_
  exact ⟨nofun, rfl, rfl, 0, rfl, .inr rfl⟩

/-- The thread of the lost connection is still in `stop` when the app runs again on the new one
and waits for the reply to the frame it sent before. -/
example : ∃ r, (applicationRuns {} "app").Reachable r ∧ r.process.stopping = 1 ∧ r.Wedged :=
  ⟨_, .of_replay (frameSentSchedule 1 ++ [.deliver { messageType := .appKill }, .lose,
    .main (.returned true [] none) true,
    .deliver { messageType := .registerApp, appID := 8, status := .success },
    .deliver { messageType := .getServerInfo, serverConfig := some {} },
    .main (.returned true [] none) true]) rfl, rfl, nofun, rfl, rfl, 0, rfl, .inl nofun⟩

end MatrixServer
