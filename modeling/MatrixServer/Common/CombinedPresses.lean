import MatrixServer.Common.ManagerSlots

/-!
Which presses a manager reports over a run, common/Joystick.cpp.
Over a run whose reads all find at most one held press, each slot is the latch of its own
signals. Once two slots hold a press, one read does not report them both.
-/

namespace MatrixServer
open EdgeLatch

/-- What a manager is made on: the memory, the device and the descriptor of each slot. -/
structure ManagerStart where
  maxNum : Nat
  memory : Nat → SimulatorState
  fileExists : Nat → Bool
  opened : Nat → Int

namespace ManagerStart

def manager (start : ManagerStart) : JoystickManager :=
  .new start.maxNum start.memory start.fileExists start.opened

/-- The manager and the static states after some calls. -/
def inputsAfter (start : ManagerStart) (calls : List ManagerCall) :
    JoystickManager × SimulatorStates :=
  calls.foldl ManagerCall.perform (start.manager, fun _ => .fresh)

/-- What a read of the manager returns after some calls. -/
def pressAfter (start : ManagerStart) (calls : List ManagerCall) (n : Nat) : Bool :=
  ((start.inputsAfter calls).1.getButtonPress (start.inputsAfter calls).2 n).1

/-- The slots that hold a press of a button after some calls. -/
def heldAfter (start : ManagerStart) (calls : List ManagerCall) (n : Nat) : List Joystick :=
  JoystickManager.held n (start.inputsAfter calls)

/-- At every read of a button in a history at most one slot holds a press of it. -/
def OnePressAtReads (start : ManagerStart) (n : Nat) (calls : List ManagerCall) : Prop :=
  ∀ before later, calls = before ++ .getButtonPress n :: later →
    (start.heldAfter before n).length ≤ 1

theorem inputsAfter_concat (start : ManagerStart) (calls : List ManagerCall)
    (call : ManagerCall) :
    start.inputsAfter (calls ++ [call]) = call.perform (start.inputsAfter calls) := by
  rw [inputsAfter, List.foldl_append]
  rfl

theorem distinct_inputsAfter (start : ManagerStart) (calls : List ManagerCall) :
    (start.inputsAfter calls).1.Distinct := by
  induction calls using List.reverseRecOn with
  | nil => exact JoystickManager.distinct_new _ _ _ _
  | append_singleton calls call ih =>
      rw [inputsAfter_concat]
      exact JoystickManager.distinct_perform ih call

/-- A slot starts with every button released and no press. -/
theorem slots_start (start : ManagerStart) (n : Nat) :
    JoystickManager.slots n (start.inputsAfter []) = start.manager.joysticks.map fun joystick =>
      (joystick.source, { level := false, press := false }) := by
  apply List.map_congr_left
  intro joystick hmem
  obtain ⟨i, -, rfl⟩ := List.mem_map.mp hmem
  rw [Joystick.slot, Joystick.init]
  cases start.fileExists i <;> rfl

/-- What a run makes of the slots: each is the latch that it would be alone. -/
theorem slots_inputsAfter {n : Nat} (hn : n < MAXBUTTONAXISCOUNT) (start : ManagerStart)
    (calls : List ManagerCall) (hreads : start.OnePressAtReads n calls) :
    JoystickManager.slots n (start.inputsAfter calls) =
      start.manager.joysticks.map fun joystick => (joystick.source,
        after (joystick.source.buttonSignal n) not false { level := false, press := false }
          calls) := by
  induction calls using List.reverseRecOn with
  | nil => exact slots_start start n
  | append_singleton calls call ih =>
      have hbefore : start.OnePressAtReads n calls := by
        intro before later heq
        exact hreads before (later ++ [call]) (by rw [heq, List.append_assoc, List.cons_append])
      have hlast : call = .getButtonPress n → (start.heldAfter calls n).length ≤ 1 := by
        rintro rfl
        exact hreads calls [] rfl
      rw [inputsAfter_concat, JoystickManager.slots_perform hn (start.distinct_inputsAfter calls)
        call hlast, ih hbefore, List.map_map]
      apply List.map_congr_left
      intro joystick _
      rw [Function.comp_apply, ManagerCall.move, after_concat]

/-- A read reports what some slot's latch holds. -/
theorem pressAfter_iff {n : Nat} (hn : n < MAXBUTTONAXISCOUNT) (start : ManagerStart)
    (calls : List ManagerCall) : start.pressAfter calls n = true ↔
      ∃ slot ∈ JoystickManager.slots n (start.inputsAfter calls), slot.2.press = true := by
  rw [pressAfter, JoystickManager.getButtonPress_fst, List.any_eq_true, JoystickManager.slots]
  simp only [List.mem_map, exists_exists_and_eq_and]
  apply exists_congr
  intro joystick
  rw [JoystickManager.holdsPress_eq, decide_eq_true hn, Bool.true_and]

end ManagerStart

/-- No input moves a button outside the arrays. -/
theorem InputSource.update_inside {n : Nat} {source : InputSource} {call : ManagerCall}
    {value : Bool} (hsignal : source.buttonSignal n call = some (.update value)) :
    n < MAXBUTTONAXISCOUNT := by
  cases call with
  | updateSimulatorState data =>
      simp only [buttonSignal] at hsignal
      split at hsignal
      · obtain ⟨button, hbutton, -⟩ := Option.map_eq_some_iff.mp hsignal
        exact data.fields_inside.1 button hbutton
      · cases hsignal
  | refresh joystickNumber event =>
      simp only [buttonSignal] at hsignal
      split at hsignal
      · obtain ⟨button, hbutton, -⟩ := Option.map_eq_some_iff.mp hsignal
        exact JoystickEvent.buttonUpdate_inside hbutton
      · cases hsignal
  | getButtonPress num =>
      simp only [buttonSignal] at hsignal
      split at hsignal <;> cases hsignal
  | clearAllButtonPresses => cases hsignal

/-- While at most one slot holds a press of a button whenever the manager reads it, the manager
reports exactly the presses that some slot had since the last read or clear. Where more than one
does, the read that follows reports a press that was already reported. -/
theorem manager_press_reported_once (start : ManagerStart) (calls : List ManagerCall) (n : Nat) :
    (start.OnePressAtReads n calls →
      (start.pressAfter calls n = true ↔ ∃ joystick ∈ start.manager.joysticks,
        RoseSince (joystick.source.buttonSignal n) not false calls)) ∧
    (start.pressAfter (calls ++ [.getButtonPress n]) n = true ↔
      1 < (start.heldAfter calls n).length) := by
  constructor
  · intro hreads
    cases Nat.lt_or_ge n MAXBUTTONAXISCOUNT with
    | inl hn =>
        rw [ManagerStart.pressAfter_iff hn, start.slots_inputsAfter hn calls hreads]
        simp only [List.mem_map, exists_exists_and_eq_and]
        apply exists_congr
        intro joystick
        rw [← switch_read_after { level := false, press := false } rfl calls, switch_read]
    | inr hn =>
        refine iff_of_false ?_ ?_
        · rw [ManagerStart.pressAfter, JoystickManager.getButtonPress_fst, List.any_eq_true]
          rintro ⟨joystick, -, hholds⟩
          exact Nat.not_lt.mpr hn (of_decide_eq_true (Bool.and_eq_true_iff.mp hholds).1)
        · rintro ⟨joystick, -, before, call, later, value, -, hsignal, -⟩
          exact Nat.not_lt.mpr hn (InputSource.update_inside hsignal)
  · rw [ManagerStart.pressAfter, start.inputsAfter_concat]
    exact JoystickManager.getButtonPress_again (start.distinct_inputsAfter calls)

/-- Two slots without a device. -/
def twoFallbackSlots : ManagerStart :=
  { maxNum := 2
    memory := fun _ => .fresh
    fileExists := fun _ => false
    opened := fun _ => -1 }

def buttonAPressed (joystickID : Int) : ManagerCall :=
  .updateSimulatorState { joystickID, buttonA := true }

/-- Two presses with a read of the manager between them. -/
def pressedInTurn : List ManagerCall := [buttonAPressed 0, .getButtonPress 0, buttonAPressed 1]

theorem single_presses_reported_once : twoFallbackSlots.pressAfter pressedInTurn 0 = true ∧
    (twoFallbackSlots.pressAfter pressedInTurn 0 = true ↔
      ∃ joystick ∈ twoFallbackSlots.manager.joysticks,
        RoseSince (joystick.source.buttonSignal 0) not false pressedInTurn) := by
  refine ⟨by decide, (manager_press_reported_once twoFallbackSlots pressedInTurn 0).1 ?_⟩
  intro before later heq
  obtain ⟨rfl, -⟩ : before = [buttonAPressed 0] ∧ later = [buttonAPressed 1] := by
    simpa [pressedInTurn, List.cons_eq_append_iff, buttonAPressed] using heq
  decide

/-- Two slots are pressed and read once: the next read reports the press again. -/
theorem second_read_repeats_press :
    ¬ ∀ (start : ManagerStart) (calls : List ManagerCall) (n : Nat),
      start.pressAfter calls n = true ↔ ∃ joystick ∈ start.manager.joysticks,
        RoseSince (joystick.source.buttonSignal n) not false calls := by
  intro hclaim
  have hpress : twoFallbackSlots.pressAfter
      ([buttonAPressed 0, buttonAPressed 1] ++ [.getButtonPress 0]) 0 = true := by decide
  obtain ⟨joystick, -, hrose⟩ := (hclaim twoFallbackSlots _ 0).mp hpress
  obtain ⟨value, hupdate, -⟩ | ⟨-, hunread⟩ := (roseSince_concat _ _).mp hrose
  · cases hupdate
  · exact hunread .read rfl trivial

end MatrixServer
