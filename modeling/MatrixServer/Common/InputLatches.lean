import MatrixServer.Common.Joystick
import MatrixServer.Foundation.EdgeLatch

/-!
The buttons and axes of common/Joystick.cpp as latches.
A button and its press, or an axis and its press, are a latch that only the updates of that
button or axis, its own reads and the clearing of all presses change.
-/

namespace MatrixServer
open EdgeLatch

namespace SimulatorState

def buttonLatch (n : Nat) (state : SimulatorState) : Latch Bool :=
  { level := state.button n, press := state.buttonPress n }

def axisLatch (n : Nat) (state : SimulatorState) : Latch FloatBits :=
  { level := state.axis n, press := state.axisPress n }

theorem buttonLatch_updateBtn (state : SimulatorState) (k : Nat) (newVal : Bool) (n : Nat) :
    (state.updateBtn k newVal).buttonLatch n =
      if k = n then (state.buttonLatch n).update not newVal else state.buttonLatch n := by
  by_cases hk : k = n
  · subst hk
    cases hlevel : state.button k <;> cases newVal <;>
      simp [buttonLatch, updateBtn, Latch.update, hlevel]
  · have hn : n ≠ k := fun heq => hk heq.symm
    rw [if_neg hk]
    simp only [buttonLatch, updateBtn, Function.update_of_ne hn]
    split
    · rw [Function.update_of_ne hn]
    · rfl

theorem axisLatch_updateAxis (state : SimulatorState) (k : Nat) (newVal : FloatBits) (n : Nat) :
    (state.updateAxis k newVal).axisLatch n =
      if k = n then (state.axisLatch n).update FloatBits.isZero newVal else state.axisLatch n := by
  by_cases hk : k = n
  · subst hk
    cases hlevel : FloatBits.isZero (state.axis k) <;> cases hnew : FloatBits.isZero newVal <;>
      simp [axisLatch, updateAxis, Latch.update, hlevel, hnew]
  · have hn : n ≠ k := fun heq => hk heq.symm
    rw [if_neg hk]
    simp only [axisLatch, updateAxis, Function.update_of_ne hn]
    split
    · rw [Function.update_of_ne hn]
    · rfl

theorem axisLatch_updateBtn (state : SimulatorState) (k : Nat) (newVal : Bool) (n : Nat) :
    (state.updateBtn k newVal).axisLatch n = state.axisLatch n := rfl

theorem buttonLatch_updateAxis (state : SimulatorState) (k : Nat) (newVal : FloatBits)
    (n : Nat) : (state.updateAxis k newVal).buttonLatch n = state.buttonLatch n := rfl

theorem buttonLatch_update (state : SimulatorState) (data : JoystickData) (n : Nat) :
    (state.update data).buttonLatch n =
      (data.buttonFields[n]?).elim (state.buttonLatch n) ((state.buttonLatch n).update not) := by
  have haxes : ∀ (fields : List (FloatBits × Nat)) (state : SimulatorState),
      (fields.foldl (fun state field => state.updateAxis field.2 field.1) state).buttonLatch n =
        state.buttonLatch n := by
    intro fields state
    apply view_kept (buttonLatch n)
    intro state field
    exact buttonLatch_updateAxis state field.2 field.1 n
  have hbuttons := view_updates buttonLatch updateBtn buttonLatch_updateBtn data.buttonFields 0
    state n
  rw [update, haxes, hbuttons, if_pos (Nat.zero_le n), Nat.sub_zero]

theorem axisLatch_update (state : SimulatorState) (data : JoystickData) (n : Nat) :
    (state.update data).axisLatch n = (data.axisFields[n]?).elim (state.axisLatch n)
      ((state.axisLatch n).update FloatBits.isZero) := by
  have hbuttons : ∀ (fields : List (Bool × Nat)) (state : SimulatorState),
      (fields.foldl (fun state field => state.updateBtn field.2 field.1) state).axisLatch n =
        state.axisLatch n := by
    intro fields state
    apply view_kept (axisLatch n)
    intro state field
    exact axisLatch_updateBtn state field.2 field.1 n
  have haxes := view_updates axisLatch updateAxis axisLatch_updateAxis data.axisFields 0
    (data.buttonFields.zipIdx.foldl (fun state field => state.updateBtn field.2 field.1) state) n
  rw [update, haxes, if_pos (Nat.zero_le n), Nat.sub_zero, hbuttons]

theorem button_update (state : SimulatorState) (data : JoystickData) (n : Nat) :
    (state.update data).button n = (data.buttonFields[n]?).getD (state.button n) := by
  have hlevel := congrArg Latch.level (state.buttonLatch_update data n)
  cases hfield : data.buttonFields[n]? with
  | none | some value =>
      rw [hfield] at hlevel
      exact hlevel

theorem axis_update (state : SimulatorState) (data : JoystickData) (n : Nat) :
    (state.update data).axis n = (data.axisFields[n]?).getD (state.axis n) := by
  have hlevel := congrArg Latch.level (state.axisLatch_update data n)
  cases hfield : data.axisFields[n]? with
  | none | some value =>
      rw [hfield] at hlevel
      exact hlevel

/-- Which field of a message is which button and which axis: the buttons from A on and the sticks'
buttons behind them, the axes with the trigger behind each stick and the two of the d-pad last. -/
theorem update_mapping (state : SimulatorState) (data : JoystickData) :
    (∀ field ∈ [(0, data.buttonA), (1, data.buttonB), (2, data.buttonX), (3, data.buttonY),
        (4, data.buttonL), (5, data.buttonR), (6, data.buttonSelect), (7, data.buttonStart),
        (8, data.leftStickButton), (9, data.rightStickButton)],
      (state.update data).button field.1 = field.2) ∧
    (∀ field ∈ [(0, data.axisX), (1, data.axisY), (2, data.leftTrigger), (3, data.rightAxisX),
        (4, data.rightAxisY), (5, data.rightTrigger),
        (6, if data.buttonDpadLeft then FloatBits.minusOne
          else if data.buttonDpadRight then FloatBits.one else 0),
        (7, if data.buttonDpadUp then FloatBits.minusOne
          else if data.buttonDpadDown then FloatBits.one else 0)],
      (state.update data).axis field.1 = field.2) ∧
    (∀ n, 10 ≤ n → (state.update data).button n = state.button n) ∧
    ∀ n, 8 ≤ n → (state.update data).axis n = state.axis n := by
  simp only [button_update, axis_update, List.forall_mem_cons, List.not_mem_nil, false_imp_iff,
    implies_true, and_true]
  refine ⟨⟨rfl, rfl, rfl, rfl, rfl, rfl, rfl, rfl, rfl, rfl⟩,
    ⟨rfl, rfl, rfl, rfl, rfl, rfl, rfl, rfl⟩, ?_, ?_⟩
  · intro n hn
    rw [List.getElem?_eq_none hn]
    rfl
  · intro n hn
    rw [List.getElem?_eq_none hn]
    rfl

theorem getButtonPress_result (state : SimulatorState) {n : Nat} (hn : n < MAXBUTTONAXISCOUNT) :
    (state.getButtonPress n).1 = ((state.buttonLatch n).read not false).1 := by
  cases hpress : state.buttonPress n <;>
    simp [getButtonPress, hn, buttonLatch, Latch.read, hpress]

theorem buttonLatch_getButtonPress (state : SimulatorState) {n : Nat}
    (hn : n < MAXBUTTONAXISCOUNT) (k : Nat) : (state.getButtonPress k).2.buttonLatch n =
      if k = n then ((state.buttonLatch n).read not false).2 else state.buttonLatch n := by
  by_cases hk : k = n
  · subst hk
    cases hpress : state.buttonPress k <;>
      simp [getButtonPress, hn, buttonLatch, Latch.read, hpress]
  · rw [if_neg hk]
    simp only [getButtonPress]
    split
    · split
      · simp only [buttonLatch, Function.update_of_ne (Ne.symm hk)]
      · rfl
    · rfl

theorem getAxisPress_result (state : SimulatorState) {n : Nat} (hn : n < MAXBUTTONAXISCOUNT) :
    (state.getAxisPress n).1 = ((state.axisLatch n).read FloatBits.isZero 0).1 := by
  cases hpress : FloatBits.isZero (state.axisPress n) <;>
    simp [getAxisPress, hn, axisLatch, Latch.read, hpress]

theorem axisLatch_getAxisPress (state : SimulatorState) {n : Nat}
    (hn : n < MAXBUTTONAXISCOUNT) (k : Nat) : (state.getAxisPress k).2.axisLatch n =
      if k = n then ((state.axisLatch n).read FloatBits.isZero 0).2 else state.axisLatch n := by
  by_cases hk : k = n
  · subst hk
    cases hpress : FloatBits.isZero (state.axisPress k) <;>
      simp [getAxisPress, hn, axisLatch, Latch.read, hpress]
  · rw [if_neg hk]
    simp only [getAxisPress]
    split
    · split
      · rfl
      · simp only [axisLatch, Function.update_of_ne (Ne.symm hk)]
    · rfl

@[simp] theorem axisLatch_getButtonPress (state : SimulatorState) (k n : Nat) :
    (state.getButtonPress k).2.axisLatch n = state.axisLatch n := by
  simp only [getButtonPress]
  split
  · split <;> rfl
  · rfl

@[simp] theorem buttonLatch_getAxisPress (state : SimulatorState) (k n : Nat) :
    (state.getAxisPress k).2.buttonLatch n = state.buttonLatch n := by
  simp only [getAxisPress]
  split
  · split <;> rfl
  · rfl

theorem buttonLatch_clear (state : SimulatorState) (n : Nat) :
    state.clearAllButtonPresses.buttonLatch n = (state.buttonLatch n).clear false := rfl

theorem axisLatch_clear (state : SimulatorState) (n : Nat) :
    state.clearAllButtonPresses.axisLatch n = (state.axisLatch n).clear 0 := rfl

end SimulatorState

/-- What an event makes of a button. -/
def JoystickEvent.buttonUpdate (n : Nat) (event : JoystickEvent) : Option Bool :=
  if event.number.toNat = n ∧ n < MAXBUTTONAXISCOUNT ∧ event.isButton then
    some (event.value != 0)
  else none

/-- What an event makes of an axis. -/
def JoystickEvent.axisUpdate (n : Nat) (event : JoystickEvent) : Option FloatBits :=
  if event.number.toNat = n ∧ n < MAXBUTTONAXISCOUNT ∧ event.isButton = false ∧ event.isAxis then
    some (FloatBits.ofShort event.value)
  else none

/-- No event moves a button outside the arrays. -/
theorem JoystickEvent.buttonUpdate_inside {n : Nat} {event : JoystickEvent} {value : Bool}
    (hupdate : event.buttonUpdate n = some value) : n < MAXBUTTONAXISCOUNT := by
  rw [buttonUpdate] at hupdate
  split at hupdate
  · rename_i hevent
    exact hevent.2.1
  · cases hupdate

theorem JoystickEvent.axisUpdate_inside {n : Nat} {event : JoystickEvent} {value : FloatBits}
    (hupdate : event.axisUpdate n = some value) : n < MAXBUTTONAXISCOUNT := by
  rw [axisUpdate] at hupdate
  split at hupdate
  · rename_i hevent
    exact hevent.2.1
  · cases hupdate

/-- No message has buttons or axes outside the arrays. -/
theorem JoystickData.fields_inside {n : Nat} (data : JoystickData) :
    (∀ value, data.buttonFields[n]? = some value → n < MAXBUTTONAXISCOUNT) ∧
      ∀ value, data.axisFields[n]? = some value → n < MAXBUTTONAXISCOUNT := by
  have hbuttons : data.buttonFields.length ≤ MAXBUTTONAXISCOUNT := of_decide_eq_true rfl
  have haxes : data.axisFields.length ≤ MAXBUTTONAXISCOUNT := of_decide_eq_true rfl
  constructor
  · intro value hfield
    exact Nat.lt_of_lt_of_le (List.getElem?_eq_some_iff.mp hfield).1 hbuttons
  · intro value hfield
    exact Nat.lt_of_lt_of_le (List.getElem?_eq_some_iff.mp hfield).1 haxes

namespace SimulatorState

theorem buttonLatch_handleEvent (state : SimulatorState) (event : JoystickEvent) (n : Nat) :
    (state.handleEvent event).buttonLatch n =
      (event.buttonUpdate n).elim (state.buttonLatch n) ((state.buttonLatch n).update not) := by
  simp only [handleEvent, JoystickEvent.buttonUpdate]
  by_cases hnumber : event.number.toNat < MAXBUTTONAXISCOUNT
  · cases hbutton : event.isButton with
    | true =>
        simp only [hnumber, if_true, buttonLatch_updateBtn, and_true]
        by_cases hn : event.number.toNat = n
        · subst hn
          simp only [hnumber, and_true, if_true]
          rfl
        · simp only [hn, false_and, if_false]
          rfl
    | false =>
        simp only [hnumber, if_true, Bool.false_eq_true, and_false, if_false]
        split <;> rfl
  · have hno : ¬ (event.number.toNat = n ∧ n < MAXBUTTONAXISCOUNT ∧ event.isButton = true) :=
      fun h => hnumber (h.1 ▸ h.2.1)
    rw [if_neg hnumber, if_neg hno]
    rfl

theorem axisLatch_handleEvent (state : SimulatorState) (event : JoystickEvent) (n : Nat) :
    (state.handleEvent event).axisLatch n = (event.axisUpdate n).elim (state.axisLatch n)
      ((state.axisLatch n).update FloatBits.isZero) := by
  simp only [handleEvent, JoystickEvent.axisUpdate]
  by_cases hnumber : event.number.toNat < MAXBUTTONAXISCOUNT
  · cases hbutton : event.isButton with
    | true =>
        simp only [hnumber, if_true, Bool.true_eq_false, false_and, and_false, if_false]
        rfl
    | false =>
        cases haxis : event.isAxis with
        | true =>
            simp only [hnumber, if_true, Bool.false_eq_true, if_false, axisLatch_updateAxis,
              and_true]
            by_cases hn : event.number.toNat = n
            · subst hn
              simp only [hnumber, and_true, if_true]
              rfl
            · simp only [hn, false_and, if_false]
              rfl
        | false =>
            simp only [Bool.false_eq_true, if_false, ite_self, and_false]
            rfl
  · have hno : ¬ (event.number.toNat = n ∧ n < MAXBUTTONAXISCOUNT ∧ event.isButton = false ∧
        event.isAxis = true) := fun h => hnumber (h.1 ▸ h.2.1)
    rw [if_neg hnumber, if_neg hno]
    rfl

end SimulatorState

namespace Joystick

theorem withActive_active (joystick : Joystick) (states : SimulatorStates) :
    joystick.withActive states (joystick.active states) = (joystick, states) := by
  rw [withActive]
  split
  · rename_i hfallback
    rw [active, if_pos hfallback, Function.update_eq_self]
  · rename_i hdevice
    rw [active, if_neg hdevice]

theorem active_withActive (joystick : Joystick) (states : SimulatorStates)
    (inputs : SimulatorState) :
    (joystick.withActive states inputs).1.active (joystick.withActive states inputs).2 =
      inputs := by
  cases hfallback : joystick.useSimulatorFallback with
  | true => simp only [withActive, active, hfallback, if_true, Function.update_self]
  | false => simp only [withActive, active, hfallback, Bool.false_eq_true, if_false]

end Joystick
end MatrixServer
