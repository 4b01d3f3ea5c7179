import MatrixServer.Common.JoystickManager

/-!
The slots of a manager as latches, common/Joystick.cpp.
Every call moves each slot's latch as the call alone would, but a read that finds two slots with
a press moves only the first of them.
-/

namespace MatrixServer
open EdgeLatch

/-- What a call is to a button of a slot. -/
def InputSource.buttonSignal (n : Nat) (source : InputSource) :
    ManagerCall → Option (Signal Bool)
  | .updateSimulatorState data =>
      if source.useSimulatorFallback ∧ data.joystickID = source.joystickNumber then
        data.buttonFields[n]?.map .update
      else none
  | .refresh joystickNumber event =>
      if source.useSimulatorFallback = false ∧ 0 < source.fd ∧
          source.joystickNumber = joystickNumber then
        (event.buttonUpdate n).map .update
      else none
  | .getButtonPress num => if num = n then some .read else none
  | .clearAllButtonPresses => some .clear

/-- A slot's source with the latch that the slot has for a button. -/
def Joystick.slot (n : Nat) (states : SimulatorStates) (joystick : Joystick) :
    InputSource × Latch Bool :=
  (joystick.source, (joystick.active states).buttonLatch n)

/-- What a call makes of a slot when it is read whatever the others hold. -/
def ManagerCall.move (n : Nat) (call : ManagerCall) (slot : InputSource × Latch Bool) :
    InputSource × Latch Bool :=
  (slot.1, (slot.1.buttonSignal n call).elim slot.2 (slot.2.apply not false))

namespace JoystickManager

def slots (n : Nat) (inputs : JoystickManager × SimulatorStates) :
    List (InputSource × Latch Bool) := inputs.1.joysticks.map (Joystick.slot n inputs.2)

section Steps

variable {n : Nat} {states : SimulatorStates}

theorem move_updateSimulatorState (data : JoystickData) (joystick : Joystick) :
    joystick.slot n (updateSimulatorState states data) =
      (ManagerCall.updateSimulatorState data).move n (joystick.slot n states) := by
  simp only [Joystick.slot, ManagerCall.move, InputSource.buttonSignal, Joystick.source]
  cases Bool.eq_false_or_eq_true joystick.useSimulatorFallback with
  | inl hfallback =>
      simp only [Joystick.active, hfallback, if_true, true_and, updateSimulatorState]
      by_cases hid : data.joystickID = joystick.joystickNumber
      · rw [if_pos hid, hid, Function.update_self, SimulatorState.buttonLatch_update]
        cases data.buttonFields[n]? <;> rfl
      · rw [if_neg hid, Function.update_of_ne (Ne.symm hid)]
        rfl
  | inr hdevice =>
      simp only [Joystick.active, hdevice, Bool.false_eq_true, if_false, false_and, Option.elim]

theorem move_refresh (joystickNumber : Int) (event : JoystickEvent) (joystick : Joystick) :
    (if joystick.joystickNumber = joystickNumber then joystick.refresh [event]
      else joystick).slot n states =
      (ManagerCall.refresh joystickNumber event).move n (joystick.slot n states) := by
  by_cases hnumber : joystick.joystickNumber = joystickNumber
  · rw [if_pos hnumber]
    by_cases hfd : 0 < joystick.fd
    · cases hfallback : joystick.useSimulatorFallback with
      | true =>
          simp [Joystick.slot, ManagerCall.move, InputSource.buttonSignal, Joystick.source,
            Joystick.active, Joystick.refresh, hfd, hfallback]
      | false =>
          simp only [Joystick.slot, ManagerCall.move, InputSource.buttonSignal, Joystick.source,
            Joystick.active, Joystick.refresh, hfd, hfallback, hnumber, if_true,
            Bool.false_eq_true, if_false, and_self, List.foldl_cons, List.foldl_nil,
            SimulatorState.buttonLatch_handleEvent]
          cases event.buttonUpdate n <;> rfl
    · simp [Joystick.slot, ManagerCall.move, InputSource.buttonSignal, Joystick.source,
        Joystick.refresh, hfd]
  · simp [Joystick.slot, ManagerCall.move, InputSource.buttonSignal, Joystick.source, hnumber]

theorem move_getButtonPress (hn : n < MAXBUTTONAXISCOUNT) (num : Nat) (joystick : Joystick) :
    (joystick.getButtonPress states num).2.1.slot n (joystick.getButtonPress states num).2.2 =
      (ManagerCall.getButtonPress num).move n (joystick.slot n states) := by
  simp only [Joystick.slot, ManagerCall.move, InputSource.buttonSignal, Joystick.getButtonPress,
    Joystick.source_withActive, Joystick.active_withActive,
    SimulatorState.buttonLatch_getButtonPress _ hn]
  split <;> rfl

theorem move_clear (joystick : Joystick) :
    (joystick.clearAllButtonPresses states).1.slot n (joystick.clearAllButtonPresses states).2 =
      ManagerCall.clearAllButtonPresses.move n (joystick.slot n states) := by
  simp only [Joystick.slot, ManagerCall.move, InputSource.buttonSignal,
    Joystick.clearAllButtonPresses, Joystick.source_withActive, Joystick.active_withActive]
  rfl

/-- A read changes no slot that holds no press. -/
theorem move_of_not_holds (hn : n < MAXBUTTONAXISCOUNT) {num : Nat} {joystick : Joystick}
    (hidle : num = n → joystick.holdsPress n states = false) :
    (ManagerCall.getButtonPress num).move n (joystick.slot n states) = joystick.slot n states := by
  by_cases hnum : num = n
  · have hpress : (joystick.active states).buttonPress n = false := by
      simpa [Joystick.holdsPress, hn] using hidle hnum
    simp [ManagerCall.move, InputSource.buttonSignal, hnum, Joystick.slot, Latch.apply, Latch.read,
      SimulatorState.buttonLatch, hpress]
  · simp [ManagerCall.move, InputSource.buttonSignal, hnum]

/-- A slot does not move with the arrays of a slot of another number. -/
theorem slot_withActive_of_ne {joystick other : Joystick} (inputs : SimulatorState)
    (hother : other.joystickNumber ≠ joystick.joystickNumber) :
    other.slot n (joystick.withActive states inputs).2 = other.slot n states := by
  rw [Joystick.slot, joystick.active_withActive_of_ne other states inputs hother, Joystick.slot]

theorem holdsPress_eq (joystick : Joystick) : joystick.holdsPress n states =
    (decide (n < MAXBUTTONAXISCOUNT) && (joystick.slot n states).2.press) := rfl

end Steps

theorem number_ne {before later : List Joystick} {joystick : Joystick}
    (hdistinct : ((before ++ joystick :: later).map Joystick.joystickNumber).Nodup) :
    ∀ other ∈ before ++ later, other.joystickNumber ≠ joystick.joystickNumber := by
  rw [List.map_append, List.map_cons, List.nodup_middle, ← List.map_append] at hdistinct
  intro other hmem heq
  exact (List.nodup_cons.mp hdistinct).1 (heq ▸ List.mem_map_of_mem hmem)

/-- The slots read in a loop that stops at the first press, when there is no second one. -/
theorem slots_getButtonPress {n : Nat} (hn : n < MAXBUTTONAXISCOUNT)
    {inputs : JoystickManager × SimulatorStates} (hinputs : inputs.1.Distinct) (num : Nat)
    (hone : num = n → (held n inputs).length ≤ 1) :
    slots n ((ManagerCall.getButtonPress num).perform inputs) =
      (slots n inputs).map ((ManagerCall.getButtonPress num).move n) := by
  obtain ⟨manager, states⟩ := inputs
  rw [slots, slots, List.map_map]
  obtain ⟨hnone, heq⟩ | ⟨before, first, later, hsplit, hbefore, hfirst, heq⟩ :=
    getButtonPressLoop_split num manager.joysticks states
  · simp only [ManagerCall.perform, getButtonPress, heq]
    apply List.map_congr_left
    intro joystick hmem
    exact (move_of_not_holds hn fun hnum => hnum ▸ hnone joystick hmem).symm
  · have hdistinct : (manager.joysticks.map Joystick.joystickNumber).Nodup := hinputs
    rw [hsplit] at hdistinct
    have hothers := number_ne hdistinct
    have hlater : num = n → ∀ joystick ∈ later, joystick.holdsPress n states = false := by
      rintro rfl joystick hmem
      have hlength := hone rfl
      rw [held, hsplit, List.filter_append, List.filter_cons_of_pos hfirst, List.length_append,
        List.length_cons] at hlength
      have hnil : later.filter (Joystick.holdsPress num states) = [] :=
        List.length_eq_zero_iff.mp (by omega)
      exact Bool.eq_false_iff.mpr (List.filter_eq_nil_iff.mp hnil joystick hmem)
    have hrest : ∀ joystick ∈ before ++ later,
        joystick.slot n (first.getButtonPress states num).2.2 =
          ((ManagerCall.getButtonPress num).move n ∘ Joystick.slot n states) joystick := by
      intro joystick hmem
      have hidle : num = n → joystick.holdsPress n states = false := by
        intro hnum
        cases List.mem_append.mp hmem with
        | inl hmem => exact hnum ▸ hbefore joystick hmem
        | inr hmem => exact hlater hnum joystick hmem
      rw [Joystick.getButtonPress, slot_withActive_of_ne _ (hothers joystick hmem),
        Function.comp_apply, move_of_not_holds hn hidle]
    simp only [ManagerCall.perform, getButtonPress, heq]
    rw [hsplit, List.map_append, List.map_append, List.map_cons, List.map_cons,
      move_getButtonPress hn, List.map_congr_left fun joystick hmem =>
        hrest joystick (List.mem_append_left _ hmem),
      List.map_congr_left fun joystick hmem => hrest joystick (List.mem_append_right _ hmem)]
    rfl

/-- The clearing loop reaches every slot. -/
theorem slots_clearLoop {n : Nat} {joysticks : List Joystick} {states : SimulatorStates}
    (hdistinct : (joysticks.map Joystick.joystickNumber).Nodup) :
    (clearLoop joysticks states).1.map (Joystick.slot n (clearLoop joysticks states).2) =
        (joysticks.map (Joystick.slot n states)).map (ManagerCall.clearAllButtonPresses.move n) ∧
      ∀ other : Joystick, (∀ joystick ∈ joysticks,
        other.joystickNumber ≠ joystick.joystickNumber) →
        other.slot n (clearLoop joysticks states).2 = other.slot n states := by
  induction joysticks generalizing states with
  | nil => exact ⟨rfl, fun _ _ => rfl⟩
  | cons joystick joysticks ih =>
      have hothers : ∀ other ∈ [] ++ joysticks, other.joystickNumber ≠ joystick.joystickNumber :=
        number_ne hdistinct
      obtain ⟨hslots, hframe⟩ := @ih (joystick.clearAllButtonPresses states).2
        (List.nodup_cons.mp hdistinct).2
      constructor
      · have hself := hframe (joystick.clearAllButtonPresses states).1 ?_
        · rw [clearLoop, List.map_cons, hslots, hself, move_clear, List.map_cons, List.map_cons]
          congr 2
          apply List.map_congr_left
          intro other hmem
          exact slot_withActive_of_ne _ (hothers other hmem)
        · intro other hmem heq
          refine hothers other hmem (heq.symm.trans ?_)
          exact congrArg InputSource.joystickNumber (Joystick.source_withActive joystick states _)
      · intro other hne
        rw [clearLoop, hframe other fun joystick hmem => hne joystick (List.mem_cons_of_mem _ hmem)]
        exact slot_withActive_of_ne _ (hne joystick List.mem_cons_self)

/-- What one call makes of the slots. -/
theorem slots_perform {n : Nat} (hn : n < MAXBUTTONAXISCOUNT)
    {inputs : JoystickManager × SimulatorStates} (hinputs : inputs.1.Distinct)
    (call : ManagerCall) (hone : call = .getButtonPress n → (held n inputs).length ≤ 1) :
    slots n (call.perform inputs) = (slots n inputs).map (call.move n) := by
  cases call with
  | updateSimulatorState data =>
      rw [slots, slots, List.map_map]
      apply List.map_congr_left
      intro joystick _
      exact move_updateSimulatorState data joystick
  | refresh joystickNumber event =>
      rw [slots, slots, ManagerCall.perform, List.map_map, List.map_map]
      apply List.map_congr_left
      intro joystick _
      exact move_refresh joystickNumber event joystick
  | getButtonPress num =>
      exact slots_getButtonPress hn hinputs num fun hnum => hone (congrArg _ hnum)
  | clearAllButtonPresses => exact (slots_clearLoop hinputs).1

/-- A slot that has reported its press holds none. -/
theorem holdsPress_read {n : Nat} (hn : n < MAXBUTTONAXISCOUNT) (joystick : Joystick)
    (states : SimulatorStates) :
    (joystick.getButtonPress states n).2.1.holdsPress n
      (joystick.getButtonPress states n).2.2 = false := by
  rw [holdsPress_eq, move_getButtonPress hn]
  cases hpress : (joystick.slot n states).2.press <;>
    simp [ManagerCall.move, InputSource.buttonSignal, Latch.apply, Latch.read, hpress]

/-- Reading one slot leaves the press of the others. -/
theorem holdsPress_read_other {n : Nat} {before later : List Joystick} {first : Joystick}
    (hdistinct : ((before ++ first :: later).map Joystick.joystickNumber).Nodup)
    (states : SimulatorStates) : ∀ joystick ∈ before ++ later,
      joystick.holdsPress n (first.getButtonPress states n).2.2 =
        joystick.holdsPress n states := by
  intro joystick hmem
  rw [holdsPress_eq, holdsPress_eq, Joystick.getButtonPress,
    slot_withActive_of_ne _ (number_ne hdistinct joystick hmem)]

/-- A second read reports a press just when two slots held one at the first. -/
theorem getButtonPress_again {n : Nat} {inputs : JoystickManager × SimulatorStates}
    (hinputs : inputs.1.Distinct) :
    ((inputs.1.getButtonPress inputs.2 n).2.1.getButtonPress
        (inputs.1.getButtonPress inputs.2 n).2.2 n).1 = true ↔ 1 < (held n inputs).length := by
  obtain ⟨manager, states⟩ := inputs
  rw [getButtonPress_fst, List.any_eq_true]
  obtain ⟨hnone, heq⟩ | ⟨before, first, later, hsplit, hbefore, hfirst, heq⟩ :=
    getButtonPressLoop_split n manager.joysticks states
  · have hheld : held n (manager, states) = [] :=
      List.filter_eq_nil_iff.mpr fun joystick hmem => Bool.eq_false_iff.mp (hnone joystick hmem)
    simp only [getButtonPress, heq, hheld, List.length_nil, Nat.not_lt_zero, iff_false]
    rintro ⟨joystick, hmem, hholds⟩
    exact Bool.eq_false_iff.mp (hnone joystick hmem) hholds
  · have hdistinct : (manager.joysticks.map Joystick.joystickNumber).Nodup := hinputs
    rw [hsplit] at hdistinct
    have hn : n < MAXBUTTONAXISCOUNT :=
      of_decide_eq_true (Bool.and_eq_true_iff.mp hfirst).1
    have hrest := holdsPress_read_other (n := n) hdistinct states
    have hself := holdsPress_read hn first states
    have hlength : (held n (manager, states)).length =
        (later.filter (Joystick.holdsPress n states)).length + 1 := by
      rw [held, hsplit, List.filter_append, List.filter_cons_of_pos hfirst, List.length_append,
        List.length_cons, List.filter_eq_nil_iff.mpr fun joystick hmem =>
          Bool.eq_false_iff.mp (hbefore joystick hmem), List.length_nil, Nat.zero_add]
    simp only [getButtonPress, heq, hlength]
    constructor
    · rintro ⟨joystick, hmem, hholds⟩
      have hlater : joystick ∈ later ∧ joystick.holdsPress n states = true := by
        obtain hmem | hmem := List.mem_append.mp hmem
        · rw [hrest joystick (List.mem_append_left _ hmem), hbefore joystick hmem] at hholds
          cases hholds
        · obtain rfl | hmem := List.mem_cons.mp hmem
          · rw [hself] at hholds
            cases hholds
          · exact ⟨hmem, hrest joystick (List.mem_append_right _ hmem) ▸ hholds⟩
      have hpositive := List.length_pos_of_mem (List.mem_filter.mpr hlater)
      omega
    · intro hlater
      obtain ⟨joystick, hmem⟩ := List.exists_mem_of_length_pos (Nat.lt_of_succ_lt_succ hlater)
      obtain ⟨hmem, hholds⟩ := List.mem_filter.mp hmem
      exact ⟨joystick, List.mem_append_right _ (List.mem_cons_of_mem _ hmem),
        (hrest joystick (List.mem_append_right _ hmem)).trans hholds⟩

end JoystickManager
end MatrixServer
