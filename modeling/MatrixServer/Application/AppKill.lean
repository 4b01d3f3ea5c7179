import MatrixServer.Application.ApplicationRuns

/-!
Killing an application.
`stop` runs in the receive thread and joins the main thread, which may be waiting
for a reply that only the receive thread can take. A killed app never starts to
wait again, so the two block each other only when the kill is handled during the
wait.
-/

namespace MatrixServer
open TransitionRuns

/-- The receive thread joins the main thread, which waits for the receive thread. -/
def AppProcess.Deadlocked (p : AppProcess) : Prop :=
  p.receiveThread = .joining ∧ p.mainThread = some .frameWait ∧ p.app.frameAcked = false

/-- An `appKill` is not handled while the main thread waits for a reply. -/
def KillsOutsideWait (r : AppRun) : AppEvent → Prop
  | .deliver message => message.messageType = .appKill →
      ¬(r.process.mainThread = some .frameWait ∧ r.process.app.frameAcked = false)
  | _ => True

instance (r : AppRun) : (e : AppEvent) → Decidable (KillsOutsideWait r e)
  | .deliver _ => inferInstanceAs (Decidable (_ → ¬_))
  | .start | .main _ _ | .runPosted | .join | .joinFormer | .lose => .isTrue trivial

/-- While `stop` joins, the main thread does not wait in vain. -/
structure KillInv (r : AppRun) : Prop where
  threads : r.ThreadInv
  acked : r.process.receiveThread = .joining → r.process.mainThread = some .frameWait →
    r.process.app.frameAcked = true

theorem KillInv.not_deadlocked {r : AppRun} (h : KillInv r) : ¬r.process.Deadlocked := by
  rintro ⟨hjoin, hwait, hacked⟩
  cases hacked.symm.trans (h.acked hjoin hwait)

theorem killInv_step {r r' : AppRun} {e : AppEvent} (h : KillInv r) (hguard : KillsOutsideWait r e)
    (hstep : r.step e = some r') : KillInv r' := by
  refine ⟨AppRun.threadInv_step h.threads hstep, ?_⟩
  cases AppRun.step_cases hstep with
  | start => exact fun _ hwait => by cases hwait
  | main outcome connects _ hmain =>
      intro hjoin hwait
      exact absurd (hmain.waits hwait) (h.threads.not_running (hmain.joining hjoin))
  | deliver message _ hhandles =>
      intro hjoin hwait
      have hkill : message.messageType = .appKill :=
        hhandles.join.mp (AppProcess.join_of_afterHandling hjoin).1
      have hacked : r.process.app.frameAcked = true := by
        rw [← Bool.not_eq_false]
        exact fun hacked => hguard hkill ⟨hwait, hacked⟩
      exact hhandles.stays_acked hacked
  | runPosted | lose => exact h.acked
  | join => exact nofun
  | joinFormer => exact fun _ hwait => by cases hwait

/-- A kill that is handled during the wait deadlocks at once. -/
theorem deadlocked_of_kill {r r' : AppRun} {e : AppEvent} (hguard : ¬KillsOutsideWait r e)
    (hstep : r.step e = some r') : r'.process.Deadlocked := by
  cases AppRun.step_cases hstep with
  | start | main | runPosted | join | joinFormer | lose => exact absurd trivial hguard
  | @deliver app effects message _ hhandles =>
      obtain ⟨hkill, hwait, hacked⟩ :
          message.messageType = .appKill ∧ r.process.mainThread = some .frameWait ∧
            r.process.app.frameAcked = false := by
        simpa only [KillsOutsideWait, Classical.not_imp, not_not] using hguard
      have hnot : .lengthError ∉ effects := fun hthrow => by
        cases hkill.symm.trans (hhandles.throws hthrow)
      have hjoining : r.process.afterHandling effects = .joining := by
        simp [AppProcess.afterHandling, hnot, hhandles.join, hkill, hwait]
      refine ⟨hjoining, hwait, ?_⟩
      change app.frameAcked = false
      rw [hhandles.frameAcked, hacked, hkill]
      rfl

/-- As long as no `appKill` is handled during the wait, killing never deadlocks; the
first one that is does. -/
theorem kill_deadlocks_iff_during_wait (params : AnimationParams) (appName : String) (r : AppRun)
    (h : (applicationRuns params appName).ReachableUnder KillsOutsideWait r) :
    ¬r.process.Deadlocked ∧
      ∀ e r', r.step e = some r' → (r'.process.Deadlocked ↔ ¬KillsOutsideWait r e) := by
  have hinv : KillInv r := by
    refine h.invariant KillInv ⟨AppRun.threadInv_initial params appName, fun hjoin => ?_⟩
      fun _ _ _ hr hguard hstep => killInv_step hr hguard hstep
    cases hjoin
  refine ⟨hinv.not_deadlocked, fun e r' hstep => ⟨fun hdead hguard => ?_, fun hguard => ?_⟩⟩
  · exact (killInv_step hinv hguard hstep).not_deadlocked hdead
  · exact deadlocked_of_kill hguard hstep

theorem kill_after_frame_never_deadlocks :
    ∃ r, (applicationRuns {} "app").Reachable r ∧ r.process.receiveThread = .joining ∧
      ¬r.process.Deadlocked := by
  have hrun : (applicationRuns {} "app").ReachableUnder KillsOutsideWait _ :=
    .of_replayUnder (frameSentSchedule 0 ++ [.deliver { messageType := .appKill }]) rfl
  exact ⟨_, hrun.reachable, rfl, (kill_deadlocks_iff_during_wait {} "app" _ hrun).1⟩

/-- The app is killed while it waits for the reply to its frame. -/
theorem kill_during_wait_deadlocks :
    ¬∀ r, (applicationRuns {} "app").Reachable r → ¬r.process.Deadlocked := by
  intro hall
  refine hall _ (.of_replay (frameSentSchedule 3 ++ [.runPosted,
    .deliver { messageType := .appKill }]) rfl) ?_
  exact ⟨rfl, rfl, rfl⟩

end MatrixServer
