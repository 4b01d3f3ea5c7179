import MatrixServer.Application.ApplicationRuns

/-!
Exceptions between the frame gate and the connection.
The main thread clears `frameAcked` before it draws, and the `catch` does not set it again.
The frame that was never sent has no reply, so the gate opens only for a reply that was
handled while the frame was drawn or that something else brings.
-/

namespace MatrixServer
open TransitionRuns MatrixApplication

/-- A run with a note of whether a reply was handled since the gate was last passed. -/
structure FrameRun where
  run : AppRun
  answered : Bool := false

namespace FrameRun

def answeredAfter (f : FrameRun) : AppEvent → Bool
  | .main _ _ => f.answered && f.run.process.mainThread ≠ some .frameWait
  | .deliver message => f.answered || acknowledges message.messageType
  | _ => f.answered

def step (f : FrameRun) (e : AppEvent) : Option FrameRun :=
  (f.run.step e).map fun run => { run, answered := f.answeredAfter e }

/-- `loop` or `renderToScreens` throws before the frame is given to the connection. -/
def Throws (f : FrameRun) : AppEvent → Prop
  | .main outcome _ => f.run.process.mainThread = some .drawing ∧ outcome.returns = false
  | _ => False

/-- No turn throws that no reply has come for since it passed the gate. -/
def AnsweredThrows (f : FrameRun) (e : AppEvent) : Prop := f.Throws e → f.answered = true

instance (f : FrameRun) : (e : AppEvent) → Decidable (f.AnsweredThrows e)
  | .main _ _ => inferInstanceAs (Decidable (_ ∧ _ → _))
  | .start | .deliver _ | .runPosted | .join | .joinFormer | .lose => .isTrue False.elim

end FrameRun

def frameRuns (params : AnimationParams) (appName : String) :
    TransitionSystem FrameRun AppEvent where
  initial := { run := (applicationRuns params appName).initial }
  step := FrameRun.step

namespace FrameRun

/-- The runs with the note are the runs of the application. -/
theorem exists_reachable_iff {params : AnimationParams} {appName : String} {r : AppRun} :
    (∃ f, (frameRuns params appName).Reachable f ∧ f.run = r) ↔
      (applicationRuns params appName).Reachable r := by
  constructor
  · rintro ⟨f, h, rfl⟩
    induction h with
    | initial => exact .initial
    | step _ _ hstep ih =>
        obtain ⟨run, hrun, rfl⟩ := Option.map_eq_some_iff.mp hstep
        exact .step ih trivial hrun
  · intro h
    induction h with
    | initial => exact ⟨_, .initial, rfl⟩
    | @step r r' e _ _ hstep ih =>
        obtain ⟨f, hreach, rfl⟩ := ih
        exact ⟨{ run := r', answered := f.answeredAfter e },
          .step hreach trivial (congrArg (Option.map _) hstep), rfl⟩

end FrameRun

theorem AppRun.fateAfter_sentOn {r : AppRun} {process : AppProcess}
    {sent : List MatrixServerMessage} (hleft : process.mainThread ≠ some .drawing)
    (h : (∃ message ∈ sent, message.messageType = .setScreenFrame) ∨
      ∃ connection, r.lastFrame = .sentOn connection) :
    ∃ connection, r.fateAfter process sent = .sentOn connection := by
  simp only [fateAfter, if_neg hleft]
  split
  · exact ⟨_, rfl⟩
  · rename_i hnone
    refine h.resolve_left ?_
    rintro ⟨message, hmem, htype⟩
    exact hnone (List.any_eq_true.mpr ⟨message, hmem, decide_eq_true htype⟩)

namespace FrameRun

/-- While a frame is drawn, the flag says whether a reply came since it was taken. -/
def Noted (f : FrameRun) : Prop :=
  f.run.process.mainThread = some .drawing → f.run.process.app.frameAcked = f.answered

theorem Noted.step {f f' : FrameRun} {e : AppEvent} (h : f.Noted) (hstep : f.step e = some f') :
    f'.Noted := by
  obtain ⟨run, hrun, rfl⟩ := Option.map_eq_some_iff.mp hstep
  intro hdraw
  cases AppRun.step_cases hrun with
  | start | join | joinFormer => cases hdraw
  | main outcome connects _ hmain =>
      obtain ⟨hwait, -, rfl⟩ := hmain.draws hdraw
      simp [answeredAfter, hwait, AppRun.post, AppProcess.takeFrame]
  | deliver message _ hhandles =>
      have hnoted := h hdraw
      exact hhandles.frameAcked.trans (congrArg (· || _) hnoted)
  | runPosted | lose => exact h hdraw

/-- A turn that throws passes on the flag it finds. -/
theorem Noted.throw {f f' : FrameRun} {e : AppEvent} (h : f.Noted) (hthrows : f.Throws e)
    (hstep : f.step e = some f') :
    f'.run.process.app.frameAcked = f.answered ∧ f'.run.process.mainThread ≠ some .drawing := by
  obtain ⟨run, hrun, rfl⟩ := Option.map_eq_some_iff.mp hstep
  cases AppRun.step_cases hrun with
  | start | deliver | runPosted | join | joinFormer | lose => exact False.elim hthrows
  | @main process sent outcome connects _ hmain =>
      have hleft : process.mainThread ≠ some .drawing := fun hdraw => by
        cases (hmain.draws hdraw).1.symm.trans hthrows.1
      exact ⟨(hmain.frameAcked hleft).trans (h hthrows.1), hleft⟩

theorem noted_of_reachable {params : AnimationParams} {appName : String} {f : FrameRun}
    (h : (frameRuns params appName).Reachable f) : f.Noted :=
  h.invariant Noted (fun hdraw => by cases hdraw) fun _ _ _ hf _ hstep => hf.step hstep

/-- The gate is closed only for a frame that is drawn or was given to a connection. -/
def ClosedForFrame (f : FrameRun) : Prop :=
  f.run.process.app.frameAcked = false → f.run.process.mainThread ≠ some .drawing →
    ∃ connection, f.run.lastFrame = .sentOn connection

theorem ClosedForFrame.step {f f' : FrameRun} {e : AppEvent} (h : f.ClosedForFrame)
    (hnoted : f.Noted) (hguard : f.AnsweredThrows e) (hstep : f.step e = some f') :
    f'.ClosedForFrame := by
  obtain ⟨run, hrun, rfl⟩ := Option.map_eq_some_iff.mp hstep
  intro hclosed hleft
  cases AppRun.step_cases hrun with
  | start _ hmain _ => exact h hclosed (by simp [hmain])
  | main outcome connects _ hmain =>
      have hsame : f.run.process.app.frameAcked = false :=
        (hmain.frameAcked hleft).symm.trans hclosed
      refine AppRun.fateAfter_sentOn hleft ?_
      by_cases hdraw : f.run.process.mainThread = some .drawing
      · left
        cases houtcome : outcome.returns with
        | true => exact hmain.sends hdraw houtcome
        | false =>
            have hanswered := hguard ⟨hdraw, houtcome⟩
            rw [hnoted hdraw, hanswered] at hsame
            cases hsame
      · exact .inr (h hsame hdraw)
  | deliver message _ hhandles =>
      have hsame := hhandles.frameAcked.symm.trans hclosed
      exact h (Bool.or_eq_false_iff.mp hsame).1 hleft
  | runPosted | lose => exact h hclosed hleft
  | join _ hmain | joinFormer hmain => exact h hclosed (by simp [hmain])

theorem closedForFrame_of_reachableUnder {params : AnimationParams} {appName : String}
    {f : FrameRun} (h : (frameRuns params appName).ReachableUnder AnsweredThrows f) :
    f.ClosedForFrame := by
  have hinv : f.Noted ∧ f.ClosedForFrame := by
    refine h.invariant (fun f => f.Noted ∧ f.ClosedForFrame) ⟨fun hdraw => ?_, fun hclosed => ?_⟩ ?_
    · cases hdraw
    · cases hclosed
    · rintro f e f' ⟨hnoted, hclosed⟩ hguard hstep
      exact ⟨hnoted.step hstep, hclosed.step hnoted hguard hstep⟩
  exact hinv.2

end FrameRun

/-- An exception in a frame leaves the gate open exactly when a reply was handled since the
gate was passed; in a run in which every exception is answered so, the gate is closed only
for a frame that is drawn or was sent. -/
theorem frame_errors_recoverable (params : AnimationParams) (appName : String) {f : FrameRun}
    (h : (frameRuns params appName).Reachable f) :
    ((frameRuns params appName).ReachableUnder FrameRun.AnsweredThrows f → f.ClosedForFrame) ∧
      ∀ e f', f.Throws e → (frameRuns params appName).step f e = some f' →
        (f'.run.process.app.frameAcked = true ↔ f.answered = true) := by
  refine ⟨FrameRun.closedForFrame_of_reachableUnder, fun e f' hthrows hstep => ?_⟩
  rw [((FrameRun.noted_of_reachable h).throw hthrows hstep).1]

/-- The app is configured and draws its first frame. -/
def drawingSchedule : List AppEvent := (frameSentSchedule 0).dropLast

theorem answered_error_recovers :
    ∃ f f', (frameRuns {} "app").Reachable f ∧
      (frameRuns {} "app").step f (.main (.loopThrew [] none) true) = some f' ∧
        f'.run.process.app.frameAcked = true := by
  have hrun : (frameRuns {} "app").Reachable _ :=
    .of_replay (drawingSchedule ++ [.deliver { messageType := .setScreenFrame }]) rfl
  exact ⟨_, _, hrun, rfl,
    ((frame_errors_recoverable {} "app" hrun).2 (.main (.loopThrew [] none) true) _ ⟨rfl, rfl⟩
      rfl).mpr rfl⟩

/-- `loop` throws in the first frame, and no frame was sent for which a reply could come. -/
theorem first_error_closes_gate :
    ∃ f f', (frameRuns {} "app").Reachable f ∧ f.Throws (.main (.loopThrew [] none) true) ∧
      (frameRuns {} "app").step f (.main (.loopThrew [] none) true) = some f' ∧
        f'.run.process.app.frameAcked = false ∧ f'.run.posted = [] := by
  have hrun : (frameRuns {} "app").Reachable _ := .of_replay drawingSchedule rfl
  exact ⟨_, _, hrun, ⟨rfl, rfl⟩, rfl, rfl, rfl⟩

/-- No reply is handled. -/
def NoReply (_ : AppRun) : AppEvent → Prop
  | .deliver message => acknowledges message.messageType = false
  | _ => True

instance (r : AppRun) : (e : AppEvent) → Decidable (NoReply r e)
  | .deliver _ => inferInstanceAs (Decidable (_ = _))
  | .start | .main _ _ | .runPosted | .join | .joinFormer | .lose => .isTrue trivial

/-- After such an exception no frame is drawn again until a reply is handled. -/
theorem unanswered_error_wedges (params : AnimationParams) (appName : String) {f f' : FrameRun}
    {e : AppEvent} (h : (frameRuns params appName).Reachable f) (hthrows : f.Throws e)
    (hnone : f.answered = false) (hstep : f.step e = some f') (events : List AppEvent) {r : AppRun}
    (hrun : (applicationRuns params appName).replayUnder NoReply f'.run events = some r) :
    r.process.app.frameAcked = false ∧ r.process.mainThread ≠ some .drawing := by
  obtain ⟨hflag, hleft⟩ := (FrameRun.noted_of_reachable h).throw hthrows hstep
  refine TransitionSystem.replayUnder_keeps
    (P := fun r => r.process.app.frameAcked = false ∧ r.process.mainThread ≠ some .drawing)
    ?_ events ⟨hflag.trans hnone, hleft⟩ hrun
  rintro r e r' ⟨hclosed, hleft⟩ hguard hstep
  cases AppRun.step_cases hstep with
  | start | join | joinFormer => exact ⟨hclosed, nofun⟩
  | main outcome connects _ hmain =>
      have hstays : _ ≠ some MainPosition.drawing := fun hdraw => by
        cases hclosed.symm.trans (hmain.draws hdraw).2.1
      exact ⟨(hmain.frameAcked hstays).trans hclosed, hstays⟩
  | deliver message _ hhandles =>
      exact ⟨hhandles.frameAcked.trans (by rw [hclosed, hguard]; rfl), hleft⟩
  | runPosted | lose => exact ⟨hclosed, hleft⟩

end MatrixServer
