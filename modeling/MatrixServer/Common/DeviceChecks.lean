import MatrixServer.Common.DeviceNodes

/-!
Which devices a slot finds again, common/Joystick.cpp.
A state is current when the slot has a descriptor of the device that is there, or will open the
path. A check reopens the device just in the current states, and only a call of `open` that
fails or a device that comes unseen leaves them.
-/

namespace MatrixServer
open TransitionRuns

namespace NodeState

/-- A check while `open` works reopens the device just when the state is current. -/
theorem reopened_iff_current {s s' : NodeState} {descriptor : Nat} (hopens : s.opens = true)
    (hstep : s.step (.recheckFilePath descriptor) = some s') : Reopened s s' ↔ s.Current := by
  obtain ⟨joystick, hjoystick, rfl⟩ := step_recheckFilePath hstep
  obtain ⟨hattempt, -, hdevice, hopened⟩ | ⟨hattempt, -, hdevice, hfd, hsame⟩ | ⟨-, hgone, -⟩ :=
    joystick.recheckFilePath_cases s.node.isSome (s.opened descriptor)
  · refine iff_of_true ?_ ?_
    · intro _ device hnode
      refine ⟨_, rfl, hdevice, ?_⟩
      change s.opening _ descriptor _ = some device
      rw [hopened, hattempt, opening_opened hopens]
      exact hnode
    · intro joystick' hmem hdevice' hfd'
      cases Option.mem_unique hmem hjoystick
      simp [Joystick.attemptsOpen, hdevice', hfd'] at hattempt
  · have hkept : s.opening (joystick.attemptsOpen s.node.isSome) descriptor = s.descriptors := by
      rw [hattempt, opening_idle]
    constructor
    · intro hreopened joystick' hmem _ _ device hnode
      cases Option.mem_unique hmem hjoystick
      obtain ⟨joystick'', hmem'', -, hopen⟩ := hreopened hopens device hnode
      cases hmem''
      change s.opening _ descriptor _ = some device at hopen
      rw [hkept, hsame] at hopen
      exact hopen
    · intro hcurrent _ device hnode
      refine ⟨joystick, congrArg some hsame, hdevice, ?_⟩
      change s.opening _ descriptor _ = some device
      rw [hkept]
      exact hcurrent joystick hjoystick hdevice hfd device hnode
  · have hnode : s.node = none := by simpa using hgone
    refine iff_of_true ?_ ?_
    · intro _ device hsome
      rw [hnode] at hsome
      cases hsome
    · intro _ _ _ _ device hsome
      rw [hnode] at hsome
      cases hsome

theorem opened_failed {s : NodeState} (hopens : s.opens = false) (descriptor : Nat) :
    s.opened descriptor = -1 := by
  rw [opened, hopens, if_neg Bool.false_ne_true]

theorem opening_failed {s : NodeState} (hopens : s.opens = false) (attempt : Bool)
    (descriptor : Nat) : s.opening attempt descriptor = s.descriptors := by
  rw [opening, hopens, Bool.and_false, if_neg Bool.false_ne_true]

/-- With the -1 of a failed call a slot has no device. -/
theorem not_current_of_failed {s : NodeState} (hs : s.descriptors (-1) = none)
    {joystick : Joystick} (hjoystick : s.joystick = some joystick)
    (hdevice : joystick.useSimulatorFallback = false) (hfd : joystick.fd = -1)
    (hexists : s.node.isSome = true) : ¬ s.Current := by
  obtain ⟨device, hnode⟩ := Option.isSome_iff_exists.mp hexists
  intro hcurrent
  have hopen := hcurrent joystick hjoystick hdevice (by rw [hfd]; decide) device hnode
  rw [hfd, hs] at hopen
  cases hopen

/-- A device that has just come is behind no descriptor. -/
theorem not_current_of_unseen {s : NodeState} (hs : s.Numbered)
    (hunseen : ¬ ∀ joystick ∈ s.joystick,
      joystick.useSimulatorFallback = true ∨ joystick.fd = 0) : ¬ s.appear.Current := by
  intro hcurrent
  apply hunseen
  intro joystick hmem
  cases hfallback : joystick.useSimulatorFallback with
  | true => exact .inl rfl
  | false =>
      by_cases hfd : joystick.fd = 0
      · exact .inr hfd
      · have hopen := hcurrent joystick hmem hfallback hfd s.devices rfl
        exact absurd (hs.descriptors _ _ hopen) (Nat.lt_irrefl _)

/-- A failed call of `open`, or a device that comes unseen, leaves the state not current. -/
theorem not_current_of_late {s s' : NodeState} {e : NodeEvent} (hs : s.Numbered)
    (hlate : ¬ OpensInTime s e) (hstep : s.step e = some s') : ¬ s'.Current := by
  cases e with
  | appears =>
      obtain rfl := step_appears (.inl hstep)
      exact not_current_of_unseen hs hlate
  | replaced =>
      obtain rfl := step_appears (.inr hstep)
      exact not_current_of_unseen hs hlate
  | disappears | openFails | openWorks | readsFail | refresh sampled => exact absurd trivial hlate
  | init memory joystickNumber descriptor =>
      obtain rfl := step_init hstep
      simp only [OpensInTime, Classical.not_imp, Bool.not_eq_true] at hlate
      obtain ⟨hexists, hopens⟩ := hlate
      obtain ⟨hdevice, hfd⟩ := init_spec memory joystickNumber s.node.isSome (s.opened descriptor)
      refine not_current_of_failed ?_ rfl ?_ ?_ hexists
      · change s.opening _ descriptor (-1) = none
        rw [opening_failed hopens]
        exact hs.failed
      · rw [hdevice, hexists]
        rfl
      · rw [hfd hexists, opened_failed hopens]
  | recheckFilePath descriptor =>
      obtain ⟨joystick, hjoystick, rfl⟩ := step_recheckFilePath hstep
      have hattempted : joystick.attemptsOpen s.node.isSome = true ∧ s.opens = false := by
        simp only [OpensInTime, Option.mem_def, hjoystick, Option.some.injEq, forall_eq',
          Classical.not_imp, Bool.not_eq_true] at hlate
        exact hlate
      obtain ⟨hattempt, hopens⟩ := hattempted
      obtain ⟨-, hexists, hdevice, hopened⟩ | ⟨hidle, -⟩ | ⟨hidle, -⟩ :=
        joystick.recheckFilePath_cases s.node.isSome (s.opened descriptor)
      · refine not_current_of_failed ?_ rfl hdevice ?_ hexists
        · change s.opening _ descriptor (-1) = none
          rw [opening_failed hopens]
          exact hs.failed
        · rw [hopened, opened_failed hopens]
      · rw [hattempt] at hidle
        cases hidle
      · rw [hattempt] at hidle
        cases hidle

end NodeState

theorem current_of_reachableUnder {s : NodeState} (h : nodeRuns.ReachableUnder OpensInTime s) :
    s.Current := by
  apply h.invariant NodeState.Current
  · intro joystick hmem
    cases hmem
  · intro s e s' hs hguard hstep
    exact NodeState.current_step hs hguard hstep

theorem numbered_of_reachable {s : NodeState} (h : nodeRuns.Reachable s) : s.Numbered := by
  apply h.invariant NodeState.Numbered
  · refine ⟨?_, ?_, rfl⟩
    · intro device hnode
      cases hnode
    · intro fd device hopen
      cases hopen
  · intro s e s' hs _ hstep
    exact NodeState.numbered_step hs hstep

/-- While every call of `open` works and no device comes unseen, a check reopens the device that
is there. A call that fails, or a device that comes unseen, makes the check after it miss the
device that is there even though `open` works again. -/
theorem present_controller_reopened (s : NodeState) :
    (nodeRuns.ReachableUnder OpensInTime s → ∀ s' (descriptor : Nat),
      s.step (.recheckFilePath descriptor) = some s' → Reopened s s') ∧
    (nodeRuns.Reachable s → ∀ s' e, s.step e = some s' → ¬ OpensInTime s e →
      ∀ descriptor : Nat, s'.descriptors descriptor = none →
        ∃ s₁ s₂, s'.step .openWorks = some s₁ ∧
          s₁.step (.recheckFilePath descriptor) = some s₂ ∧ ¬ Reopened s₁ s₂) := by
  constructor
  · intro hreach s' descriptor hstep hopens
    have hcurrent := current_of_reachableUnder hreach
    exact (NodeState.reopened_iff_current hopens hstep).mpr hcurrent hopens
  · intro hreach s' e hstep hlate descriptor hfree
    have hstale := NodeState.not_current_of_late (numbered_of_reachable hreach) hlate hstep
    have hslot : ∃ joystick, s'.joystick = some joystick := by
      by_contra hnone
      exact hstale fun joystick hmem => absurd ⟨joystick, hmem⟩ hnone
    obtain ⟨joystick, hjoystick⟩ := hslot
    have hcheck : ∃ s₂, NodeState.step { s' with opens := true } (.recheckFilePath descriptor) =
        some s₂ := by
      simp only [NodeState.step, hjoystick, hfree, if_true, Option.map_some]
      exact ⟨_, rfl⟩
    obtain ⟨s₂, hcheck⟩ := hcheck
    exact ⟨_, s₂, rfl, hcheck, mt (NodeState.reopened_iff_current rfl hcheck).mp hstale⟩

/-- A slot that found no device, when one has appeared. -/
theorem late_pairing_reopened : ∃ s s' : NodeState, s.node = some 0 ∧ s.opens = true ∧
    s.step (.recheckFilePath 3) = some s' ∧ Reopened s s' := by
  have hinit : OpensInTime nodeRuns.initial (.init .fresh 0 3) :=
    fun h => absurd h Bool.false_ne_true
  have hslot : nodeRuns.ReachableUnder OpensInTime _ := .step .initial hinit rfl
  have happears : ∀ (s : NodeState) (joystick : Joystick), s.joystick = some joystick →
      joystick.useSimulatorFallback = true → OpensInTime s .appears := by
    intro s joystick hjoystick hfallback joystick' hmem
    cases Option.mem_unique hmem hjoystick
    exact .inl hfallback
  have hreach : nodeRuns.ReachableUnder OpensInTime _ :=
    .step hslot (happears _ _ rfl rfl) (rfl : nodeRuns.step _ .appears = some _)
  exact ⟨_, _, rfl, rfl, rfl, (present_controller_reopened _).1 hreach _ 3 rfl⟩

/-- The call of `open` fails once, on the device that has appeared. -/
theorem failed_open_not_retried : ¬ ∀ (s s' : NodeState) (descriptor : Nat),
    nodeRuns.Reachable s → s.step (.recheckFilePath descriptor) = some s' → Reopened s s' := by
  intro hclaim
  have hreach : nodeRuns.Reachable _ :=
    TransitionSystem.Reachable.of_replay
      [.init .fresh 0 3, .appears, .openFails, .recheckFilePath 3, .openWorks] rfl
  obtain ⟨joystick, hmem, -, hopen⟩ := hclaim _ _ 3 hreach rfl rfl 0 rfl
  cases hmem
  cases hopen

end MatrixServer
