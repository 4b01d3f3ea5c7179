import MatrixServer.Application.AppThreads
import MatrixServer.Foundation.TransitionRuns

/-!
Runs of one application against any server.
The threads take their steps in any order, any message may arrive at any time and
the connection may be lost at any time. Messages given to `sendMessage` wait as
posted handlers, which any thread outside `stop` runs.
-/

namespace MatrixServer
open TransitionRuns

/-- What became of the frame for which the main thread last cleared `frameAcked`. -/
inductive FrameFate where
  | none
  | taken
  | sentOn (connection : Nat)
  deriving DecidableEq

structure AppRun where
  process : AppProcess
  /-- handlers of `sendMessage` not run yet, with the connection they write to -/
  posted : List (Nat × MatrixServerMessage) := []
  lastFrame : FrameFate := .none

inductive AppEvent where
  | start
  | main (outcome : LoopOutcome) (connects : Bool)
  | deliver (message : MatrixServerMessage)
  | runPosted
  | join
  /-- A thread whose connection was lost returns from `stop`. -/
  | joinFormer
  | lose

namespace AppRun

/-- The process after a step, with what it sent posted on its connection. -/
def post (r : AppRun) (process : AppProcess) (sent : List MatrixServerMessage) : AppRun :=
  { r with process, posted := r.posted ++ sent.map fun message => (process.connection.id, message) }

/-- The fate of the last frame after a step of the main thread. -/
def fateAfter (r : AppRun) (process : AppProcess) (sent : List MatrixServerMessage) : FrameFate :=
  if process.mainThread = some .drawing then .taken
  else if sent.any fun message => message.messageType = .setScreenFrame then
    .sentOn process.connection.id
  else r.lastFrame

theorem fateAfter_cases (r : AppRun) (process : AppProcess) (sent : List MatrixServerMessage) :
    r.fateAfter process sent = .taken ∨
      r.fateAfter process sent = .sentOn process.connection.id ∨
        r.fateAfter process sent = r.lastFrame := by
  simp only [fateAfter]
  split
  · exact .inl rfl
  · split
    · exact .inr (.inl rfl)
    · exact .inr (.inr rfl)

def step (r : AppRun) : AppEvent → Option AppRun
  | .start => r.process.start.map fun stepped => r.post stepped.1 stepped.2
  | .main outcome connects =>
      (r.process.mainStep outcome connects).map fun stepped =>
        { r.post stepped.1 stepped.2 with lastFrame := r.fateAfter stepped.1 stepped.2 }
  | .deliver message =>
      (r.process.deliver message).map fun handled =>
        r.post handled.1 (handled.2.filterMap AppEffect.sent)
  | .runPosted =>
      if r.process.hasFreeThread ∧ r.posted ≠ [] then
        some { r with posted := r.posted.tail }
      else none
  | .join => r.process.join.map fun process => { r with process }
  | .joinFormer => r.process.joinFormer.map fun process => { r with process }
  | .lose => some { r with process := r.process.lose }

end AppRun

/-- The constructor returns once `connect` has succeeded. -/
def applicationRuns (params : AnimationParams) (appName : String) :
    TransitionSystem AppRun AppEvent where
  initial := { process := { app := { params, appName } } }
  step := AppRun.step

namespace AppRun

/-- The steps of a run, by event, with what each does to the process. -/
inductive Step (r : AppRun) : AppRun → AppEvent → Prop where
  | start : r.process.receiveThread ≠ .terminated → r.process.mainThread = .none →
      r.process.started = false →
      Step r
        (r.post { r.process.goTo .loopTop with started := true }
          [MatrixApplication.registerAtServer])
        .start
  | main {process : AppProcess} {sent : List MatrixServerMessage} (outcome : LoopOutcome)
      (connects : Bool) : r.process.receiveThread ≠ .terminated →
      AppProcess.MainStep r.process outcome process sent →
      Step r { r.post process sent with lastFrame := r.fateAfter process sent }
        (.main outcome connects)
  | deliver {app : MatrixApplication} {effects : List AppEffect} (message : MatrixServerMessage) :
      r.process.receiveThread = .idle →
      MatrixApplication.Handles message.messageType r.process.app app effects →
      Step r
        (r.post { r.process with app, receiveThread := r.process.afterHandling effects }
          (effects.filterMap AppEffect.sent))
        (.deliver message)
  | runPosted : r.process.hasFreeThread = true →
      Step r { r with posted := r.posted.tail } .runPosted
  | join : r.process.receiveThread = .joining → r.process.mainThread = some .finished →
      Step r { r with process := { r.process with mainThread := .none, receiveThread := .idle } }
        .join
  | joinFormer : r.process.mainThread = some .finished →
      Step r
        { r with process :=
          { r.process with mainThread := .none, stopping := r.process.stopping - 1 } }
        .joinFormer
  | lose : Step r { r with process := r.process.lose } .lose

theorem step_cases {r r' : AppRun} {e : AppEvent} (h : r.step e = some r') : Step r r' e := by
  cases e with
  | start =>
      obtain ⟨⟨process, sent⟩, hstart, rfl⟩ := Option.map_eq_some_iff.mp h
      obtain ⟨⟨halive, hmain, hfresh⟩, rfl, rfl⟩ := AppProcess.start_cases hstart
      exact .start halive hmain hfresh
  | main outcome connects =>
      obtain ⟨⟨process, sent⟩, hmain, rfl⟩ := Option.map_eq_some_iff.mp h
      obtain ⟨halive, hstep⟩ := AppProcess.mainStep_cases hmain
      exact .main outcome connects halive hstep
  | deliver message =>
      obtain ⟨⟨process, effects⟩, hdeliver, rfl⟩ := Option.map_eq_some_iff.mp h
      obtain ⟨hidle, app, hhandles, rfl⟩ := AppProcess.deliver_cases hdeliver
      exact .deliver message hidle hhandles
  | runPosted =>
      simp only [step] at h
      split at h
      · rename_i hfree
        cases h
        exact .runPosted hfree.1
      · cases h
  | join =>
      obtain ⟨process, hjoin, rfl⟩ := Option.map_eq_some_iff.mp h
      obtain ⟨⟨hjoining, hmain⟩, rfl⟩ := AppProcess.join_cases hjoin
      exact .join hjoining hmain
  | joinFormer =>
      obtain ⟨process, hjoin, rfl⟩ := Option.map_eq_some_iff.mp h
      obtain ⟨hmain, rfl⟩ := AppProcess.joinFormer_cases hjoin
      exact .joinFormer hmain
  | lose =>
      cases h
      exact .lose

/-- While `stop` waits for the main thread, nothing can make the app run again; the main
thread exists only after `start`. -/
structure ThreadInv (r : AppRun) : Prop where
  stop : r.process.receiveThread = .joining →
    r.process.app.appState = .killed ∨ r.process.app.appState = .failure
  began : r.process.mainThread ≠ none → r.process.started = true

theorem ThreadInv.not_running {r : AppRun} (h : r.ThreadInv)
    (hjoin : r.process.receiveThread = .joining) : r.process.app.appState ≠ .running := by
  intro hrunning
  cases h.stop hjoin with
  | inl hkilled => cases hkilled.symm.trans hrunning
  | inr hfailure => cases hfailure.symm.trans hrunning

theorem threadInv_initial (params : AnimationParams) (appName : String) :
    (applicationRuns params appName).initial.ThreadInv :=
  ⟨fun hjoin => (by cases hjoin), fun hmain => absurd rfl hmain⟩

theorem threadInv_step {r r' : AppRun} {e : AppEvent} (h : r.ThreadInv)
    (hstep : r.step e = some r') : r'.ThreadInv := by
  cases step_cases hstep with
  | start => exact ⟨h.stop, fun _ => rfl⟩
  | main outcome connects _ hmain =>
      refine ⟨fun hjoin => ?_, fun _ => hmain.started.trans (h.began hmain.awake)⟩
      cases hmain.appState with
      | inl hsame => exact hsame.symm ▸ h.stop (hmain.joining hjoin)
      | inr hfailure => exact .inr hfailure
  | deliver message _ hhandles =>
      refine ⟨fun hjoin => ?_, h.began⟩
      exact .inl (hhandles.killed (hhandles.join.mp (AppProcess.join_of_afterHandling hjoin).1))
  | runPosted | lose => exact ⟨h.stop, h.began⟩
  | join => exact ⟨fun hjoin => (by cases hjoin), fun hmain => absurd rfl hmain⟩
  | joinFormer => exact ⟨h.stop, fun hmain => absurd rfl hmain⟩

end AppRun

/-- An app that starts, is configured and sends a frame, and whose main thread then
takes more turns. -/
def frameSentSchedule (turns : Nat) : List AppEvent :=
  let main := AppEvent.main (.returned true [] none) true
  [.start, .runPosted, .deliver { messageType := .registerApp, appID := 7, status := .success },
    .runPosted, .runPosted, .deliver { messageType := .getServerInfo, serverConfig := some {} },
    main, main, main] ++ List.replicate turns main

end MatrixServer
