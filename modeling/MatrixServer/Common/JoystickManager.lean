import MatrixServer.Common.InputLatches
import Mathlib.Data.List.Nodup

/-!
The loops of a manager over its slots, common/Joystick.cpp.
The read stops at the first slot that holds a press, so the presses that later slots hold stay
for the next read. No slot sees what another of a different number is given.
-/

namespace MatrixServer
open EdgeLatch

/-- Where a slot takes its inputs from; no input and no read changes it. -/
structure InputSource where
  joystickNumber : Int
  fd : Int
  useSimulatorFallback : Bool

namespace Joystick

def source (joystick : Joystick) : InputSource :=
  { joystickNumber := joystick.joystickNumber
    fd := joystick.fd
    useSimulatorFallback := joystick.useSimulatorFallback }

/-- Whether a slot holds a press of a button. -/
def holdsPress (num : Nat) (states : SimulatorStates) (joystick : Joystick) : Bool :=
  decide (num < MAXBUTTONAXISCOUNT) && (joystick.active states).buttonPress num

theorem source_withActive (joystick : Joystick) (states : SimulatorStates)
    (inputs : SimulatorState) : (joystick.withActive states inputs).1.source = joystick.source := by
  rw [withActive]
  split <;> rfl

/-- What one slot's arrays are given, slots of other numbers do not see. -/
theorem active_withActive_of_ne (joystick other : Joystick) (states : SimulatorStates)
    (inputs : SimulatorState) (hother : other.joystickNumber ≠ joystick.joystickNumber) :
    other.active (joystick.withActive states inputs).2 = other.active states := by
  rw [withActive]
  split
  · simp only [active, Function.update_of_ne hother]
  · rfl

theorem getButtonPress_fst (joystick : Joystick) (states : SimulatorStates) (num : Nat) :
    (joystick.getButtonPress states num).1 = joystick.holdsPress num states := by
  simp only [getButtonPress, SimulatorState.getButtonPress, holdsPress]
  by_cases hnum : num < MAXBUTTONAXISCOUNT
  · cases hpress : (joystick.active states).buttonPress num <;> simp [hnum]
  · simp [hnum]

theorem getButtonPress_of_not_holds {joystick : Joystick} {states : SimulatorStates} {num : Nat}
    (hidle : joystick.holdsPress num states = false) :
    joystick.getButtonPress states num = (false, joystick, states) := by
  have hstate : (joystick.active states).getButtonPress num = (false, joystick.active states) := by
    by_cases hnum : num < MAXBUTTONAXISCOUNT
    · have hpress : (joystick.active states).buttonPress num = false := by
        simpa [holdsPress, hnum] using hidle
      simp [SimulatorState.getButtonPress, hpress]
    · simp [SimulatorState.getButtonPress, hnum]
  rw [getButtonPress, hstate, withActive_active]

end Joystick

/-- The input updates, one event of a device at a time, and the calls of a manager. -/
inductive ManagerCall where
  | updateSimulatorState (data : JoystickData)
  | refresh (joystickNumber : Int) (event : JoystickEvent)
  | getButtonPress (num : Nat)
  | clearAllButtonPresses

namespace ManagerCall

def perform (inputs : JoystickManager × SimulatorStates) :
    ManagerCall → JoystickManager × SimulatorStates
  | updateSimulatorState data => (inputs.1, MatrixServer.updateSimulatorState inputs.2 data)
  | refresh joystickNumber event =>
      ({ joysticks := inputs.1.joysticks.map fun joystick =>
          if joystick.joystickNumber = joystickNumber then joystick.refresh [event]
          else joystick }, inputs.2)
  | getButtonPress num => (inputs.1.getButtonPress inputs.2 num).2
  | clearAllButtonPresses => inputs.1.clearAllButtonPresses inputs.2

end ManagerCall

namespace JoystickManager

/-- The slots that hold a press of a button. -/
def held (num : Nat) (inputs : JoystickManager × SimulatorStates) : List Joystick :=
  inputs.1.joysticks.filter (Joystick.holdsPress num inputs.2)

/-- No two slots have one number, and so none share a simulator state. -/
def Distinct (manager : JoystickManager) : Prop :=
  (manager.joysticks.map Joystick.joystickNumber).Nodup

theorem getButtonPressLoop_true (num : Nat) (joysticks : List Joystick)
    (states : SimulatorStates) :
    getButtonPressLoop num true joysticks states = (true, joysticks, states) := by
  induction joysticks with
  | nil => rfl
  | cons joystick joysticks ih => simp only [getButtonPressLoop, if_true, ih]

/-- Either no slot holds a press, or the first one that does is read and no other. -/
theorem getButtonPressLoop_split (num : Nat) (joysticks : List Joystick)
    (states : SimulatorStates) :
    ((∀ joystick ∈ joysticks, joystick.holdsPress num states = false) ∧
      getButtonPressLoop num false joysticks states = (false, joysticks, states)) ∨
    ∃ before joystick later, joysticks = before ++ joystick :: later ∧
      (∀ earlier ∈ before, earlier.holdsPress num states = false) ∧
      joystick.holdsPress num states = true ∧
      getButtonPressLoop num false joysticks states =
        (true, before ++ (joystick.getButtonPress states num).2.1 :: later,
          (joystick.getButtonPress states num).2.2) := by
  induction joysticks with
  | nil => exact .inl ⟨by simp, rfl⟩
  | cons joystick joysticks ih =>
      cases hholds : joystick.holdsPress num states with
      | true =>
          have hfst : (joystick.getButtonPress states num).1 = true := by
            rw [joystick.getButtonPress_fst, hholds]
          refine .inr ⟨[], joystick, joysticks, rfl, by simp, hholds, ?_⟩
          simp only [getButtonPressLoop, Bool.false_eq_true, if_false, hfst,
            getButtonPressLoop_true, List.nil_append]
      | false =>
          have hskip : getButtonPressLoop num false (joystick :: joysticks) states =
              ((getButtonPressLoop num false joysticks states).1,
                joystick :: (getButtonPressLoop num false joysticks states).2.1,
                (getButtonPressLoop num false joysticks states).2.2) := by
            simp only [getButtonPressLoop, Bool.false_eq_true, if_false,
              Joystick.getButtonPress_of_not_holds hholds]
          rw [hskip]
          obtain ⟨hnone, heq⟩ | ⟨before, first, later, rfl, hbefore, hfirst, heq⟩ := ih
          · exact .inl ⟨List.forall_mem_cons.mpr ⟨hholds, hnone⟩, by rw [heq]⟩
          · exact .inr ⟨joystick :: before, first, later, rfl,
              List.forall_mem_cons.mpr ⟨hholds, hbefore⟩, hfirst, by rw [heq]; rfl⟩

/-- The manager answers that some slot holds a press. -/
theorem getButtonPress_fst (manager : JoystickManager) (states : SimulatorStates) (num : Nat) :
    (manager.getButtonPress states num).1 =
      manager.joysticks.any (Joystick.holdsPress num states) := by
  obtain ⟨hnone, heq⟩ | ⟨before, first, later, hsplit, -, hfirst, heq⟩ :=
    getButtonPressLoop_split num manager.joysticks states
  · simp only [getButtonPress, heq, Bool.false_eq, List.any_eq_false]
    exact fun joystick hmem => Bool.eq_false_iff.mp (hnone joystick hmem)
  · have hmem : first ∈ manager.joysticks := by
      rw [hsplit]
      exact List.mem_append_right _ List.mem_cons_self
    simp only [getButtonPress, heq, Bool.true_eq, List.any_eq_true]
    exact ⟨first, hmem, hfirst⟩

theorem source_refresh (joystick : Joystick) (events : List JoystickEvent) :
    (joystick.refresh events).source = joystick.source := by
  rw [Joystick.refresh]
  split <;> rfl

theorem clearLoop_sources (joysticks : List Joystick) (states : SimulatorStates) :
    (clearLoop joysticks states).1.map Joystick.source = joysticks.map Joystick.source := by
  induction joysticks generalizing states with
  | nil => rfl
  | cons joystick joysticks ih =>
      rw [clearLoop, List.map_cons, ih, List.map_cons, Joystick.clearAllButtonPresses,
        Joystick.source_withActive]

/-- No call gives a slot another source. -/
theorem sources_perform (inputs : JoystickManager × SimulatorStates) (call : ManagerCall) :
    (call.perform inputs).1.joysticks.map Joystick.source =
      inputs.1.joysticks.map Joystick.source := by
  cases call with
  | updateSimulatorState data => rfl
  | refresh joystickNumber event =>
      rw [ManagerCall.perform, List.map_map]
      apply List.map_congr_left
      intro joystick _
      rw [Function.comp_apply]
      split
      · exact source_refresh joystick [event]
      · rfl
  | getButtonPress num =>
      obtain ⟨-, heq⟩ | ⟨before, first, later, hsplit, -, -, heq⟩ :=
        getButtonPressLoop_split num inputs.1.joysticks inputs.2
      · simp only [ManagerCall.perform, getButtonPress, heq]
      · simp only [ManagerCall.perform, getButtonPress, heq]
        rw [hsplit, List.map_append, List.map_append, List.map_cons, List.map_cons,
          Joystick.getButtonPress, Joystick.source_withActive]
  | clearAllButtonPresses => exact clearLoop_sources inputs.1.joysticks inputs.2

theorem distinct_perform {inputs : JoystickManager × SimulatorStates} (hinputs : inputs.1.Distinct)
    (call : ManagerCall) : (call.perform inputs).1.Distinct := by
  have hnumbers : ∀ joysticks : List Joystick, joysticks.map Joystick.joystickNumber =
      (joysticks.map Joystick.source).map InputSource.joystickNumber := by
    intro joysticks
    rw [List.map_map]
    rfl
  rw [Distinct, hnumbers, sources_perform, ← hnumbers]
  exact hinputs

theorem distinct_new (maxNum : Nat) (memory : Nat → SimulatorState) (fileExists : Nat → Bool)
    (opened : Nat → Int) : (new maxNum memory fileExists opened).Distinct := by
  have hnumber : ∀ i : Nat,
      (Joystick.init (memory i) i (fileExists i) (opened i)).joystickNumber = i := by
    intro i
    rw [Joystick.init, Joystick.openPath]
    split <;> rfl
  rw [Distinct, new, List.map_map]
  refine List.Nodup.map ?_ List.nodup_range
  intro i j hij
  rw [Function.comp_apply, Function.comp_apply, hnumber, hnumber] at hij
  exact Int.ofNat_inj.mp hij

end JoystickManager
end MatrixServer
