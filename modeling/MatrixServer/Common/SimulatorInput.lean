import MatrixServer.Common.InputLatches

/-!
What slots in simulator fallback report, common/Joystick.cpp.
All slots share the static states. Every call moves the latches of one number only, so what a
slot reports is told by the messages, reads and clears for its number.
-/

namespace MatrixServer
open EdgeLatch

/-- A slot whose device was not found. -/
structure FallbackSlot where
  joystick : Joystick
  fallback : joystick.useSimulatorFallback = true

def FallbackSlot.id (slot : FallbackSlot) : Int := slot.joystick.joystickNumber

/-- Calls of `Joystick`, each under the mutex of the states. -/
inductive SimulatorCall where
  | updateSimulatorState (data : JoystickData)
  | getButtonPress (slot : FallbackSlot) (num : Nat)
  | getAxisPress (slot : FallbackSlot) (num : Nat)
  | clearAllButtonPresses (slot : FallbackSlot)

namespace SimulatorCall

def perform (states : SimulatorStates) : SimulatorCall → SimulatorStates
  | updateSimulatorState data => MatrixServer.updateSimulatorState states data
  | getButtonPress slot num => (slot.joystick.getButtonPress states num).2.2
  | getAxisPress slot num => (slot.joystick.getAxisPress states num).2.2
  | clearAllButtonPresses slot => (slot.joystick.clearAllButtonPresses states).2

/-- The static states after some calls. -/
def statesAfter (calls : List SimulatorCall) : SimulatorStates :=
  calls.foldl perform fun _ => .fresh

/-- The number that a call is for. -/
def id : SimulatorCall → Int
  | updateSimulatorState data => data.joystickID
  | getButtonPress slot _ | getAxisPress slot _ | clearAllButtonPresses slot => slot.id

/-- What a call is to a button of its number. -/
def ownButtonSignal (n : Nat) : SimulatorCall → Option (Signal Bool)
  | updateSimulatorState data => data.buttonFields[n]?.map .update
  | getButtonPress _ num => if num = n then some .read else none
  | getAxisPress _ _ => none
  | clearAllButtonPresses _ => some .clear

/-- What a call is to an axis of its number. -/
def ownAxisSignal (n : Nat) : SimulatorCall → Option (Signal FloatBits)
  | updateSimulatorState data => data.axisFields[n]?.map .update
  | getButtonPress _ _ => none
  | getAxisPress _ num => if num = n then some .read else none
  | clearAllButtonPresses _ => some .clear

def buttonSignal (number : Int) (n : Nat) (call : SimulatorCall) : Option (Signal Bool) :=
  if call.id = number then call.ownButtonSignal n else none

def axisSignal (number : Int) (n : Nat) (call : SimulatorCall) : Option (Signal FloatBits) :=
  if call.id = number then call.ownAxisSignal n else none

end SimulatorCall

namespace FallbackSlot

theorem active_eq (slot : FallbackSlot) (states : SimulatorStates) :
    slot.joystick.active states = states slot.id := if_pos slot.fallback

theorem withActive_eq (slot : FallbackSlot) (states : SimulatorStates) (inputs : SimulatorState) :
    slot.joystick.withActive states inputs =
      (slot.joystick, Function.update states slot.id inputs) := if_pos slot.fallback

theorem getButtonPress_eq (slot : FallbackSlot) (states : SimulatorStates) (num : Nat) :
    slot.joystick.getButtonPress states num = (((states slot.id).getButtonPress num).1,
      slot.joystick, Function.update states slot.id ((states slot.id).getButtonPress num).2) := by
  rw [Joystick.getButtonPress, slot.active_eq, slot.withActive_eq]

theorem getAxisPress_eq (slot : FallbackSlot) (states : SimulatorStates) (num : Nat) :
    slot.joystick.getAxisPress states num = (((states slot.id).getAxisPress num).1,
      slot.joystick, Function.update states slot.id ((states slot.id).getAxisPress num).2) := by
  rw [Joystick.getAxisPress, slot.active_eq, slot.withActive_eq]

theorem clearAllButtonPresses_eq (slot : FallbackSlot) (states : SimulatorStates) :
    slot.joystick.clearAllButtonPresses states = (slot.joystick,
      Function.update states slot.id (states slot.id).clearAllButtonPresses) := by
  rw [Joystick.clearAllButtonPresses, slot.active_eq, slot.withActive_eq]

end FallbackSlot

namespace SimulatorCall

/-- What a call makes of the state of its own number. -/
def performOwn (state : SimulatorState) : SimulatorCall → SimulatorState
  | updateSimulatorState data => state.update data
  | getButtonPress _ num => (state.getButtonPress num).2
  | getAxisPress _ num => (state.getAxisPress num).2
  | clearAllButtonPresses _ => state.clearAllButtonPresses

/-- A call changes the state of its own number, by that state alone. -/
theorem perform_eq (states : SimulatorStates) (call : SimulatorCall) :
    call.perform states = Function.update states call.id (call.performOwn (states call.id)) := by
  cases call with
  | updateSimulatorState data => rfl
  | getButtonPress slot num => rw [perform, slot.getButtonPress_eq]; rfl
  | getAxisPress slot num => rw [perform, slot.getAxisPress_eq]; rfl
  | clearAllButtonPresses slot => rw [perform, slot.clearAllButtonPresses_eq]; rfl

theorem perform_at (states : SimulatorStates) (call : SimulatorCall) (number : Int) :
    call.perform states number =
      if call.id = number then call.performOwn (states number) else states number := by
  rw [perform_eq]
  by_cases hid : call.id = number
  · subst hid
    rw [Function.update_self, if_pos rfl]
  · rw [Function.update_of_ne (Ne.symm hid), if_neg hid]

theorem buttonLatch_performOwn {n : Nat} (hn : n < MAXBUTTONAXISCOUNT) (state : SimulatorState)
    (call : SimulatorCall) : (call.performOwn state).buttonLatch n =
      (call.ownButtonSignal n).elim (state.buttonLatch n)
        ((state.buttonLatch n).apply not false) := by
  cases call with
  | updateSimulatorState data =>
      rw [performOwn, SimulatorState.buttonLatch_update, ownButtonSignal]
      cases data.buttonFields[n]? <;> rfl
  | getButtonPress slot num =>
      rw [performOwn, SimulatorState.buttonLatch_getButtonPress state hn, ownButtonSignal]
      split <;> rfl
  | getAxisPress slot num => exact SimulatorState.buttonLatch_getAxisPress state num n
  | clearAllButtonPresses slot => exact SimulatorState.buttonLatch_clear state n

theorem axisLatch_performOwn {n : Nat} (hn : n < MAXBUTTONAXISCOUNT) (state : SimulatorState)
    (call : SimulatorCall) : (call.performOwn state).axisLatch n =
      (call.ownAxisSignal n).elim (state.axisLatch n)
        ((state.axisLatch n).apply FloatBits.isZero 0) := by
  cases call with
  | updateSimulatorState data =>
      rw [performOwn, SimulatorState.axisLatch_update, ownAxisSignal]
      cases data.axisFields[n]? <;> rfl
  | getButtonPress slot num => exact SimulatorState.axisLatch_getButtonPress state num n
  | getAxisPress slot num =>
      rw [performOwn, SimulatorState.axisLatch_getAxisPress state hn, ownAxisSignal]
      split <;> rfl
  | clearAllButtonPresses slot => exact SimulatorState.axisLatch_clear state n

/-- The button of a number after some calls. -/
theorem buttonLatch_statesAfter {n : Nat} (hn : n < MAXBUTTONAXISCOUNT)
    (calls : List SimulatorCall) (number : Int) :
    (statesAfter calls number).buttonLatch n =
      after (buttonSignal number n) not false { level := false, press := false } calls := by
  apply view_foldl (fun states : SimulatorStates => (states number).buttonLatch n) perform
  intro states call
  rw [perform_at, buttonSignal]
  split
  · exact buttonLatch_performOwn hn _ call
  · rfl

/-- The axis of a number after some calls. -/
theorem axisLatch_statesAfter {n : Nat} (hn : n < MAXBUTTONAXISCOUNT)
    (calls : List SimulatorCall) (number : Int) :
    (statesAfter calls number).axisLatch n =
      after (axisSignal number n) FloatBits.isZero 0 { level := 0, press := 0 } calls := by
  apply view_foldl (fun states : SimulatorStates => (states number).axisLatch n) perform
  intro states call
  rw [perform_at, axisSignal]
  split
  · exact axisLatch_performOwn hn _ call
  · rfl

/-- The calls for other numbers are as if they had not been made. -/
theorem statesAfter_filter (calls : List SimulatorCall) (number : Int) :
    statesAfter (calls.filter fun call => call.id = number) number =
      statesAfter calls number := by
  induction calls using List.reverseRecOn with
  | nil => rfl
  | append_singleton calls call ih =>
      have hlast : ∀ calls, statesAfter (calls ++ [call]) = call.perform (statesAfter calls) :=
        fun calls => by rw [statesAfter, List.foldl_append]; rfl
      rw [hlast, perform_at]
      by_cases hid : call.id = number
      · simp only [List.filter_append, List.filter_cons, hid, decide_true, if_true,
          List.filter_nil, hlast, perform_at, ih]
      · simp only [List.filter_append, List.filter_cons, hid, decide_false, if_false,
          List.filter_nil, List.append_nil, Bool.false_eq_true, ih]

/-- No message has buttons or axes outside the arrays. -/
theorem signal_inside {number : Int} {n : Nat} {call : SimulatorCall} :
    (∀ value, buttonSignal number n call = some (.update value) → n < MAXBUTTONAXISCOUNT) ∧
      ∀ value, axisSignal number n call = some (.update value) → n < MAXBUTTONAXISCOUNT := by
  simp only [buttonSignal, axisSignal]
  split
  · cases call with
    | updateSimulatorState data =>
        constructor
        · intro value hsignal
          obtain ⟨button, hbutton, -⟩ := Option.map_eq_some_iff.mp hsignal
          exact data.fields_inside.1 button hbutton
        · intro value hsignal
          obtain ⟨axis, haxis, -⟩ := Option.map_eq_some_iff.mp hsignal
          exact data.fields_inside.2 axis haxis
    | getButtonPress slot num | getAxisPress slot num => simp [ownButtonSignal, ownAxisSignal]
    | clearAllButtonPresses slot => simp [ownButtonSignal, ownAxisSignal]
  · simp

end SimulatorCall

/-- In simulator fallback a read reports the press of a button, or of an axis with its value,
that the messages for the slot's number made since the last read or clear for that number. What
concerns other numbers makes no difference. -/
theorem simulator_input_edge_triggered (calls : List SimulatorCall) (slot : FallbackSlot)
    (n : Nat) :
    ((slot.joystick.getButtonPress (SimulatorCall.statesAfter calls) n).1 = true ↔
      RoseSince (SimulatorCall.buttonSignal slot.id n) not false calls) ∧
    (∀ value, FloatBits.isZero value = false →
      ((slot.joystick.getAxisPress (SimulatorCall.statesAfter calls) n).1 = value ↔
        LastRise (SimulatorCall.axisSignal slot.id n) FloatBits.isZero 0 calls value)) ∧
    ((∀ value, ¬ LastRise (SimulatorCall.axisSignal slot.id n) FloatBits.isZero 0 calls value) →
      (slot.joystick.getAxisPress (SimulatorCall.statesAfter calls) n).1 = 0) ∧
    ∀ number, SimulatorCall.statesAfter (calls.filter fun call => call.id = number) number =
      SimulatorCall.statesAfter calls number := by
  rw [slot.getButtonPress_eq, slot.getAxisPress_eq]
  cases Nat.lt_or_ge n MAXBUTTONAXISCOUNT with
  | inl hn =>
      simp only [SimulatorState.getButtonPress_result _ hn, SimulatorState.getAxisPress_result _ hn,
        SimulatorCall.buttonLatch_statesAfter hn, SimulatorCall.axisLatch_statesAfter hn]
      have hzero : FloatBits.isZero 0 = true := rfl
      have hidle : Latch.pending FloatBits.isZero { level := 0, press := 0 } = none := rfl
      exact ⟨switch_read_after _ rfl calls, fun value => read_after hzero _ hidle calls,
        read_after_rest hzero _ hidle calls, SimulatorCall.statesAfter_filter calls⟩
  | inr hn =>
      have hnone : ∀ value,
          ¬ LastRise (SimulatorCall.axisSignal slot.id n) FloatBits.isZero 0 calls value := by
        rintro value ⟨before, call, later, -, hsignal, -⟩
        exact absurd (SimulatorCall.signal_inside.2 value hsignal) (Nat.not_lt.mpr hn)
      simp only [SimulatorState.getButtonPress, SimulatorState.getAxisPress,
        if_neg (Nat.not_lt.mpr hn)]
      refine ⟨iff_of_false (by decide) ?_, fun value hvalue => iff_of_false ?_ (hnone value),
        fun _ => trivial, SimulatorCall.statesAfter_filter calls⟩
      · rintro ⟨before, call, later, value, -, hsignal, -⟩
        exact absurd (SimulatorCall.signal_inside.1 value hsignal) (Nat.not_lt.mpr hn)
      · rintro rfl
        exact absurd hvalue (by decide)

end MatrixServer
