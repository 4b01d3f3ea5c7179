import MatrixServer.Common.InputLatches

/-!
What slots with a device report after a reset, common/Joystick.cpp.
The events of the device and the reads move the slot's own arrays alone. The reset leaves the
presses of the axes as they were in memory, and these are what a slot may report without an
event.
-/

namespace MatrixServer
open EdgeLatch

/-- Whether a check of the path resets the variables. -/
def Joystick.Resets (joystick : Joystick) (fileExists : Bool) : Prop :=
  if joystick.useSimulatorFallback then fileExists = true
  else fileExists = false ∨ joystick.fd = 0

/-- How a slot that reads a device comes to start afresh. -/
inductive DeviceStart where
  | init (memory : SimulatorState) (joystickNumber opened : Int)
  | recheckFilePath (joystick : Joystick) (fileExists : Bool) (opened : Int)
      (resets : joystick.Resets fileExists)

namespace DeviceStart

def joystick : DeviceStart → Joystick
  | init memory joystickNumber opened => .init memory joystickNumber true opened
  | recheckFilePath joystick fileExists opened _ => joystick.recheckFilePath fileExists opened

/-- The arrays as the start finds them. -/
def memory : DeviceStart → SimulatorState
  | init memory _ _ => memory
  | recheckFilePath joystick _ _ _ => joystick.inputs

/-- A start leaves one of the arrays as it was. -/
theorem joystick_spec (start : DeviceStart) : start.joystick.useSimulatorFallback = false ∧
    start.joystick.inputs = { SimulatorState.fresh with axisPress := start.memory.axisPress } := by
  cases start with
  | init memory joystickNumber opened => exact ⟨rfl, rfl⟩
  | recheckFilePath slot fileExists opened resets =>
      cases hfallback : slot.useSimulatorFallback with
      | true =>
          have hexists : fileExists = true := by simpa [Joystick.Resets, hfallback] using resets
          subst hexists
          simp only [joystick, memory, Joystick.recheckFilePath, hfallback, if_true,
            Joystick.openPath]
          exact ⟨trivial, rfl⟩
      | false =>
          cases fileExists with
          | true =>
              have hfd : slot.fd = 0 := by simpa [Joystick.Resets, hfallback] using resets
              simp only [joystick, memory, Joystick.recheckFilePath, hfallback, if_true,
                Bool.false_eq_true, if_false, hfd, Joystick.openPath]
              exact ⟨hfallback, rfl⟩
          | false =>
              simp only [joystick, memory, Joystick.recheckFilePath, hfallback,
                Bool.false_eq_true, if_false, if_true, Joystick.openPath]
              exact ⟨rfl, rfl⟩

end DeviceStart

/-- An event of the device, or a call of the slot. -/
inductive DeviceCall where
  | refresh (event : JoystickEvent)
  | getButtonPress (num : Nat)
  | getAxisPress (num : Nat)
  | clearAllButtonPresses

namespace DeviceCall

def perform (slot : Joystick × SimulatorStates) : DeviceCall → Joystick × SimulatorStates
  | refresh event => (slot.1.refresh [event], slot.2)
  | getButtonPress num => (slot.1.getButtonPress slot.2 num).2
  | getAxisPress num => (slot.1.getAxisPress slot.2 num).2
  | clearAllButtonPresses => slot.1.clearAllButtonPresses slot.2

/-- What a call is to a button; a slot that has no descriptor gets no events. -/
def buttonSignal (fd : Int) (n : Nat) : DeviceCall → Option (Signal Bool)
  | refresh event => if 0 < fd then (event.buttonUpdate n).map .update else none
  | getButtonPress num => if num = n then some .read else none
  | getAxisPress _ => none
  | clearAllButtonPresses => some .clear

/-- What a call is to an axis. -/
def axisSignal (fd : Int) (n : Nat) : DeviceCall → Option (Signal FloatBits)
  | refresh event => if 0 < fd then (event.axisUpdate n).map .update else none
  | getButtonPress _ => none
  | getAxisPress num => if num = n then some .read else none
  | clearAllButtonPresses => some .clear

/-- What a call makes of the slot's own arrays. -/
def performOwn (fd : Int) (inputs : SimulatorState) : DeviceCall → SimulatorState
  | refresh event => if 0 < fd then inputs.handleEvent event else inputs
  | getButtonPress num => (inputs.getButtonPress num).2
  | getAxisPress num => (inputs.getAxisPress num).2
  | clearAllButtonPresses => inputs.clearAllButtonPresses

/-- A slot with a device changes its own arrays only. -/
theorem perform_eq {joystick : Joystick} (hdevice : joystick.useSimulatorFallback = false)
    (states : SimulatorStates) (call : DeviceCall) : call.perform (joystick, states) =
      ({ joystick with inputs := call.performOwn joystick.fd joystick.inputs }, states) := by
  have hactive : joystick.active states = joystick.inputs := by simp [Joystick.active, hdevice]
  have hwith : ∀ inputs, joystick.withActive states inputs = ({ joystick with inputs }, states) :=
    fun inputs => by simp [Joystick.withActive, hdevice]
  cases call with
  | refresh event =>
      simp only [perform, Joystick.refresh, performOwn, List.foldl_cons, List.foldl_nil]
      split <;> rfl
  | getButtonPress num => simp only [perform, Joystick.getButtonPress, hactive, hwith, performOwn]
  | getAxisPress num => simp only [perform, Joystick.getAxisPress, hactive, hwith, performOwn]
  | clearAllButtonPresses =>
      simp only [perform, Joystick.clearAllButtonPresses, hactive, hwith, performOwn]

theorem foldl_perform {joystick : Joystick} (hdevice : joystick.useSimulatorFallback = false)
    (states : SimulatorStates) (calls : List DeviceCall) :
    calls.foldl perform (joystick, states) =
      ({ joystick with inputs := calls.foldl (performOwn joystick.fd) joystick.inputs },
        states) := by
  induction calls generalizing joystick with
  | nil => rfl
  | cons call calls ih =>
      rw [List.foldl_cons, perform_eq hdevice]
      exact @ih { joystick with inputs := call.performOwn joystick.fd joystick.inputs } hdevice

theorem buttonLatch_performOwn {n : Nat} (hn : n < MAXBUTTONAXISCOUNT) (fd : Int)
    (inputs : SimulatorState) (call : DeviceCall) : (call.performOwn fd inputs).buttonLatch n =
      (call.buttonSignal fd n).elim (inputs.buttonLatch n)
        ((inputs.buttonLatch n).apply not false) := by
  cases call with
  | refresh event =>
      simp only [performOwn, buttonSignal]
      split
      · rw [SimulatorState.buttonLatch_handleEvent]
        cases event.buttonUpdate n <;> rfl
      · rfl
  | getButtonPress num =>
      rw [performOwn, SimulatorState.buttonLatch_getButtonPress inputs hn, buttonSignal]
      split <;> rfl
  | getAxisPress num => exact SimulatorState.buttonLatch_getAxisPress inputs num n
  | clearAllButtonPresses => exact SimulatorState.buttonLatch_clear inputs n

theorem axisLatch_performOwn {n : Nat} (hn : n < MAXBUTTONAXISCOUNT) (fd : Int)
    (inputs : SimulatorState) (call : DeviceCall) : (call.performOwn fd inputs).axisLatch n =
      (call.axisSignal fd n).elim (inputs.axisLatch n)
        ((inputs.axisLatch n).apply FloatBits.isZero 0) := by
  cases call with
  | refresh event =>
      simp only [performOwn, axisSignal]
      split
      · rw [SimulatorState.axisLatch_handleEvent]
        cases event.axisUpdate n <;> rfl
      · rfl
  | getButtonPress num => exact SimulatorState.axisLatch_getButtonPress inputs num n
  | getAxisPress num =>
      rw [performOwn, SimulatorState.axisLatch_getAxisPress inputs hn, axisSignal]
      split <;> rfl
  | clearAllButtonPresses => exact SimulatorState.axisLatch_clear inputs n

/-- No event moves a button or an axis outside the arrays. -/
theorem signal_inside {fd : Int} {n : Nat} {call : DeviceCall} :
    (∀ value, call.buttonSignal fd n = some (.update value) → n < MAXBUTTONAXISCOUNT) ∧
      ∀ value, call.axisSignal fd n = some (.update value) → n < MAXBUTTONAXISCOUNT := by
  cases call with
  | refresh event =>
      simp only [buttonSignal, axisSignal]
      split
      · constructor
        · intro value hsignal
          obtain ⟨button, hbutton, -⟩ := Option.map_eq_some_iff.mp hsignal
          exact JoystickEvent.buttonUpdate_inside hbutton
        · intro value hsignal
          obtain ⟨axis, haxis, -⟩ := Option.map_eq_some_iff.mp hsignal
          exact JoystickEvent.axisUpdate_inside haxis
      · simp
  | getButtonPress num | getAxisPress num => simp [buttonSignal, axisSignal]
  | clearAllButtonPresses => simp [buttonSignal, axisSignal]

end DeviceCall

namespace DeviceStart

/-- The slot and the static states after some calls. -/
def slotAfter (start : DeviceStart) (states : SimulatorStates) (calls : List DeviceCall) :
    Joystick × SimulatorStates := calls.foldl DeviceCall.perform (start.joystick, states)

def buttonPressAfter (start : DeviceStart) (states : SimulatorStates) (calls : List DeviceCall)
    (n : Nat) : Bool :=
  ((start.slotAfter states calls).1.getButtonPress (start.slotAfter states calls).2 n).1

def axisPressAfter (start : DeviceStart) (states : SimulatorStates) (calls : List DeviceCall)
    (n : Nat) : FloatBits :=
  ((start.slotAfter states calls).1.getAxisPress (start.slotAfter states calls).2 n).1

/-- In every run from a start the reads report the presses since the last read or clear: the
buttons that events pressed, and the axes that events moved out of rest. -/
def EdgeTriggered (start : DeviceStart) : Prop :=
  ∀ (states : SimulatorStates) (calls : List DeviceCall) (n : Nat),
    (start.buttonPressAfter states calls n = true ↔
      RoseSince (DeviceCall.buttonSignal start.joystick.fd n) not false calls) ∧
    (FloatBits.isZero (start.axisPressAfter states calls n) = false ↔
      RoseSince (DeviceCall.axisSignal start.joystick.fd n) FloatBits.isZero 0 calls)

/-- The slot's own arrays after some calls. -/
def inputsAfter (start : DeviceStart) (calls : List DeviceCall) : SimulatorState :=
  calls.foldl (DeviceCall.performOwn start.joystick.fd)
    { SimulatorState.fresh with axisPress := start.memory.axisPress }

theorem pressesAfter_eq (start : DeviceStart) (states : SimulatorStates)
    (calls : List DeviceCall) (n : Nat) :
    start.buttonPressAfter states calls n = ((start.inputsAfter calls).getButtonPress n).1 ∧
      start.axisPressAfter states calls n = ((start.inputsAfter calls).getAxisPress n).1 := by
  obtain ⟨hdevice, hinputs⟩ := start.joystick_spec
  rw [buttonPressAfter, axisPressAfter, slotAfter, DeviceCall.foldl_perform hdevice, hinputs,
    Joystick.getButtonPress, Joystick.getAxisPress, Joystick.active, hdevice]
  exact ⟨rfl, rfl⟩

theorem buttonLatch_inputsAfter {n : Nat} (hn : n < MAXBUTTONAXISCOUNT) (start : DeviceStart)
    (calls : List DeviceCall) : (start.inputsAfter calls).buttonLatch n =
      after (DeviceCall.buttonSignal start.joystick.fd n) not false
        { level := false, press := false } calls :=
  view_foldl (SimulatorState.buttonLatch n) _ (DeviceCall.buttonLatch_performOwn hn _) _ calls

theorem axisLatch_inputsAfter {n : Nat} (hn : n < MAXBUTTONAXISCOUNT) (start : DeviceStart)
    (calls : List DeviceCall) : (start.inputsAfter calls).axisLatch n =
      after (DeviceCall.axisSignal start.joystick.fd n) FloatBits.isZero 0
        { level := 0, press := start.memory.axisPress n } calls :=
  view_foldl (SimulatorState.axisLatch n) _ (DeviceCall.axisLatch_performOwn hn _) _ calls

end DeviceStart

/-- A slot with a device reports the presses since its reset, just when no press of an axis was
in memory at the reset. -/
theorem device_edge_triggered_iff (start : DeviceStart) : start.EdgeTriggered ↔
    ∀ n < MAXBUTTONAXISCOUNT, FloatBits.isZero (start.memory.axisPress n) = true := by
  constructor
  · intro hedges n hn
    have hnone : ¬ RoseSince (DeviceCall.axisSignal start.joystick.fd n) FloatBits.isZero 0
        [] := by
      rintro ⟨before, call, later, value, hnil, -⟩
      simp at hnil
    have hread := mt (hedges (fun _ => .fresh) [] n).2.mp hnone
    rw [(start.pressesAfter_eq _ [] n).2, SimulatorState.getAxisPress_result _ hn,
      Bool.not_eq_false] at hread
    cases hpress : FloatBits.isZero (start.memory.axisPress n) with
    | true => rfl
    | false =>
        have hpending : ((start.inputsAfter []).axisLatch n).pending FloatBits.isZero =
            some (start.memory.axisPress n) := if_neg (Bool.eq_false_iff.mp hpress)
        have hreported : (((start.inputsAfter []).axisLatch n).read FloatBits.isZero 0).1 =
            start.memory.axisPress n := (read_eq_iff rfl _ hpress).mpr hpending
        rw [hreported, hpress] at hread
        cases hread
  · intro hmemory states calls n
    rw [(start.pressesAfter_eq states calls n).1, (start.pressesAfter_eq states calls n).2]
    cases Nat.lt_or_ge n MAXBUTTONAXISCOUNT with
    | inl hn =>
        have hzero : FloatBits.isZero 0 = true := rfl
        have hidle : Latch.pending FloatBits.isZero
            { level := 0, press := start.memory.axisPress n } = none := if_pos (hmemory n hn)
        rw [SimulatorState.getButtonPress_result _ hn, SimulatorState.getAxisPress_result _ hn,
          start.buttonLatch_inputsAfter hn, start.axisLatch_inputsAfter hn,
          read_quiet_iff hzero, pending_iff_roseSince hzero _ hidle]
        exact ⟨switch_read_after _ rfl calls, Iff.rfl⟩
    | inr hn =>
        have hout : ¬ n < MAXBUTTONAXISCOUNT := Nat.not_lt.mpr hn
        rw [SimulatorState.getButtonPress, if_neg hout, SimulatorState.getAxisPress, if_neg hout]
        have hzero : ¬ FloatBits.isZero 0 = false := by decide
        refine ⟨iff_of_false Bool.false_ne_true ?_, iff_of_false hzero ?_⟩
        · rintro ⟨before, call, later, value, -, hsignal, -⟩
          exact hout (DeviceCall.signal_inside.1 value hsignal)
        · rintro ⟨before, call, later, value, -, hsignal, -⟩
          exact hout (DeviceCall.signal_inside.2 value hsignal)

/-- A slot whose axis 0 was moved and not read, when its device is gone. -/
def movedAndGone : DeviceStart :=
  .recheckFilePath ((Joystick.init .fresh 0 true 3).refresh
    [{ value := 32767, type := 2, number := 0 }]) false 0 (.inl rfl)

/-- The press from before the reset is reported after it, with no event since. -/
theorem axis_press_outlives_reset : ¬ ∀ start : DeviceStart, start.EdgeTriggered := by
  intro hclaim
  have hpress : FloatBits.isZero (movedAndGone.axisPressAfter (fun _ => .fresh) [] 0) = false := by
    decide
  obtain ⟨before, call, later, value, hnil, -⟩ :=
    (hclaim movedAndGone (fun _ => .fresh) [] 0).2.mp hpress
  simp at hnil

end MatrixServer
