import MatrixServer.Common.Joystick
import MatrixServer.Foundation.TransitionRuns

/-!
The device behind a slot's path, common/Joystick.cpp.
Devices come and go, `open` works or not, and the slot looks at its path now and then. The slot
opens its path in fallback and with the descriptor 0 only: neither the -1 of an `open` that
failed nor the descriptor of a device that was replaced is ever looked at again while the path
exists.
-/

namespace MatrixServer
open TransitionRuns

/-- Whether `recheckFilePath` calls `open`. -/
def Joystick.attemptsOpen (joystick : Joystick) (fileExists : Bool) : Bool :=
  fileExists && (joystick.useSimulatorFallback || joystick.fd == 0)

/-- A slot and its surroundings. Every device that appears has a number of its own, and
`descriptors` are the devices that the process has opened. -/
structure NodeState where
  node : Option Nat
  devices : Nat
  opens : Bool
  readable : Bool
  descriptors : Int → Option Nat
  joystick : Option Joystick

/-- What happens to the path, and the calls of the slot; `descriptor` is the one that `open`
takes if it is called and works. -/
inductive NodeEvent where
  | appears
  | disappears
  | replaced
  | openFails
  | openWorks
  | readsFail
  | init (memory : SimulatorState) (joystickNumber : Int) (descriptor : Nat)
  | recheckFilePath (descriptor : Nat)
  | refresh (sampled : List JoystickEvent)

namespace NodeState

def appear (s : NodeState) : NodeState :=
  { s with node := some s.devices, devices := s.devices + 1, readable := true }

/-- What `open` returns. -/
def opened (s : NodeState) (descriptor : Nat) : Int := if s.opens then descriptor else -1

/-- The descriptors after a call that may open the path. -/
def opening (s : NodeState) (attempt : Bool) (descriptor : Nat) : Int → Option Nat :=
  if attempt && s.opens then Function.update s.descriptors descriptor s.node else s.descriptors

def step (s : NodeState) : NodeEvent → Option NodeState
  | .appears => if s.node.isNone then some s.appear else none
  | .disappears => if s.node.isSome then some { s with node := none } else none
  | .replaced => if s.node.isSome then some s.appear else none
  | .openFails => some { s with opens := false }
  | .openWorks => some { s with opens := true }
  | .readsFail => some { s with readable := false }
  | .init memory joystickNumber descriptor =>
      if s.joystick.isNone ∧ s.descriptors descriptor = none then
        some { s with
          descriptors := s.opening s.node.isSome descriptor
          joystick :=
            some (.init memory joystickNumber s.node.isSome (s.opened descriptor)) }
      else none
  | .recheckFilePath descriptor =>
      if s.descriptors descriptor = none then
        s.joystick.map fun joystick =>
          { s with
            descriptors := s.opening (joystick.attemptsOpen s.node.isSome) descriptor
            joystick := some (joystick.recheckFilePath s.node.isSome (s.opened descriptor)) }
      else none
  | .refresh sampled =>
      s.joystick.map fun joystick =>
        { s with joystick := some (joystick.refresh (if s.readable then sampled else [])) }

end NodeState

/-- No slot yet, and nothing behind the path. -/
def nodeRuns : TransitionSystem NodeState NodeEvent :=
  { initial :=
      { node := none
        devices := 0
        opens := true
        readable := true
        descriptors := fun _ => none
        joystick := none }
    step := NodeState.step }

/-- A check leaves the slot out of fallback, with a descriptor of the device that is there. -/
def Reopened (s s' : NodeState) : Prop :=
  s.opens = true → ∀ device, s.node = some device → ∃ joystick, s'.joystick = some joystick ∧
    joystick.useSimulatorFallback = false ∧ s'.descriptors joystick.fd = some device

/-- A call that opens the path finds `open` working, and a device comes to the path only while
the slot will open it: in fallback, or after a check that found the path missing. -/
def OpensInTime (s : NodeState) : NodeEvent → Prop
  | .init _ _ _ => s.node.isSome → s.opens
  | .recheckFilePath _ =>
      ∀ joystick ∈ s.joystick, joystick.attemptsOpen s.node.isSome = true → s.opens = true
  | .appears | .replaced =>
      ∀ joystick ∈ s.joystick, joystick.useSimulatorFallback = true ∨ joystick.fd = 0
  | .disappears | .openFails | .openWorks | .readsFail | .refresh _ => True

namespace Joystick

/-- What a check makes of the fallback and the descriptor. -/
theorem recheckFilePath_cases (joystick : Joystick) (fileExists : Bool) (opened : Int) :
    (joystick.attemptsOpen fileExists = true ∧ fileExists = true ∧
      (joystick.recheckFilePath fileExists opened).useSimulatorFallback = false ∧
      (joystick.recheckFilePath fileExists opened).fd = opened) ∨
    (joystick.attemptsOpen fileExists = false ∧ fileExists = true ∧
      joystick.useSimulatorFallback = false ∧ joystick.fd ≠ 0 ∧
      joystick.recheckFilePath fileExists opened = joystick) ∨
    (joystick.attemptsOpen fileExists = false ∧ fileExists = false ∧
      ((joystick.recheckFilePath fileExists opened).useSimulatorFallback = true ∨
        (joystick.recheckFilePath fileExists opened).fd = 0)) := by
  cases hfallback : joystick.useSimulatorFallback with
  | true =>
      cases fileExists with
      | true =>
          refine .inl ⟨?_, rfl, ?_, ?_⟩ <;>
            simp [attemptsOpen, recheckFilePath, openPath, hfallback]
      | false =>
          refine .inr (.inr ⟨?_, rfl, .inl ?_⟩) <;>
            simp [attemptsOpen, recheckFilePath, hfallback]
  | false =>
      cases fileExists with
      | true =>
          by_cases hfd : joystick.fd = 0
          · refine .inl ⟨?_, rfl, ?_, ?_⟩ <;>
              simp [attemptsOpen, recheckFilePath, openPath, resetVariables, hfallback, hfd]
          · refine .inr (.inl ⟨?_, rfl, rfl, hfd, ?_⟩) <;>
              simp [attemptsOpen, recheckFilePath, hfallback, hfd]
      | false =>
          refine .inr (.inr ⟨?_, rfl, .inr ?_⟩) <;>
            simp [attemptsOpen, recheckFilePath, openPath, resetVariables, hfallback]

end Joystick

namespace NodeState

/-- A descriptor that the slot will not look at again is one of the device that is there. -/
def Current (s : NodeState) : Prop :=
  ∀ joystick ∈ s.joystick, joystick.useSimulatorFallback = false → joystick.fd ≠ 0 →
    ∀ device, s.node = some device → s.descriptors joystick.fd = some device

/-- The devices have numbers below the count, and -1 is no descriptor. -/
structure Numbered (s : NodeState) : Prop where
  node : ∀ device, s.node = some device → device < s.devices
  descriptors : ∀ fd device, s.descriptors fd = some device → device < s.devices
  failed : s.descriptors (-1) = none

/-- What the steps that change more than a flag lead to. -/
theorem step_appears {s s' : NodeState}
    (hstep : s.step .appears = some s' ∨ s.step .replaced = some s') : s' = s.appear := by
  simp only [step] at hstep
  cases hstep with
  | inl hstep | inr hstep =>
      split at hstep
      · exact (Option.some.inj hstep).symm
      · cases hstep

theorem step_init {s s' : NodeState} {memory : SimulatorState} {joystickNumber : Int}
    {descriptor : Nat} (hstep : s.step (.init memory joystickNumber descriptor) = some s') :
    s' = { s with
      descriptors := s.opening s.node.isSome descriptor
      joystick :=
        some (.init memory joystickNumber s.node.isSome (s.opened descriptor)) } := by
  simp only [step] at hstep
  split at hstep
  · exact (Option.some.inj hstep).symm
  · cases hstep

theorem step_recheckFilePath {s s' : NodeState} {descriptor : Nat}
    (hstep : s.step (.recheckFilePath descriptor) = some s') :
    ∃ joystick, s.joystick = some joystick ∧ s' = { s with
      descriptors := s.opening (joystick.attemptsOpen s.node.isSome) descriptor
      joystick := some (joystick.recheckFilePath s.node.isSome (s.opened descriptor)) } := by
  simp only [step] at hstep
  split at hstep
  · obtain ⟨joystick, hjoystick, heq⟩ := Option.map_eq_some_iff.mp hstep
    exact ⟨joystick, hjoystick, heq.symm⟩
  · cases hstep

theorem step_refresh {s s' : NodeState} {sampled : List JoystickEvent}
    (hstep : s.step (.refresh sampled) = some s') :
    ∃ joystick, s.joystick = some joystick ∧ s' = { s with
      joystick := some (joystick.refresh (if s.readable then sampled else [])) } := by
  obtain ⟨joystick, hjoystick, heq⟩ := Option.map_eq_some_iff.mp hstep
  exact ⟨joystick, hjoystick, heq.symm⟩

theorem refresh_keeps (joystick : Joystick) (sampled : List JoystickEvent) :
    (joystick.refresh sampled).useSimulatorFallback = joystick.useSimulatorFallback ∧
      (joystick.refresh sampled).fd = joystick.fd := by
  rw [Joystick.refresh]
  split <;> exact ⟨rfl, rfl⟩

theorem opening_opened {s : NodeState} (hopens : s.opens = true) (descriptor : Nat) :
    s.opening true descriptor (s.opened descriptor) = s.node := by
  rw [opening, opened, hopens]
  exact Function.update_self _ _ _

theorem opening_idle (s : NodeState) (descriptor : Nat) :
    s.opening false descriptor = s.descriptors := by
  rw [opening, Bool.false_and, if_neg Bool.false_ne_true]

/-- What holds of the slot that a call of `init` makes. -/
theorem init_spec (memory : SimulatorState) (joystickNumber : Int) (fileExists : Bool)
    (opened : Int) :
    (Joystick.init memory joystickNumber fileExists opened).useSimulatorFallback = !fileExists ∧
      (fileExists = true →
        (Joystick.init memory joystickNumber fileExists opened).fd = opened) := by
  cases fileExists with
  | true => exact ⟨rfl, fun _ => rfl⟩
  | false => exact ⟨rfl, fun h => absurd h Bool.false_ne_true⟩

theorem appear_current {s : NodeState} (hready : ∀ joystick ∈ s.joystick,
    joystick.useSimulatorFallback = true ∨ joystick.fd = 0) : s.appear.Current := by
  intro joystick hmem hdevice hfd
  cases hready joystick hmem with
  | inl hfallback => rw [hfallback] at hdevice; cases hdevice
  | inr hzero => exact absurd hzero hfd

theorem current_step {s s' : NodeState} {e : NodeEvent} (hs : s.Current)
    (hguard : OpensInTime s e) (hstep : s.step e = some s') : s'.Current := by
  cases e with
  | appears =>
      obtain rfl := step_appears (.inl hstep)
      exact appear_current hguard
  | replaced =>
      obtain rfl := step_appears (.inr hstep)
      exact appear_current hguard
  | disappears =>
      simp only [step] at hstep
      split at hstep
      · cases hstep
        intro joystick _ _ _ device hnode
        cases hnode
      · cases hstep
  | openFails | openWorks | readsFail =>
      cases hstep
      exact hs
  | init memory joystickNumber descriptor =>
      obtain rfl := step_init hstep
      intro joystick hmem hdevice hfd device hnode
      cases hmem
      have hexists : s.node.isSome = true := Option.isSome_of_eq_some hnode
      have hopens : s.opens = true := hguard hexists
      change s.opening s.node.isSome descriptor _ = some device
      rw [(init_spec memory joystickNumber s.node.isSome (s.opened descriptor)).2 hexists,
        hexists, opening_opened hopens]
      exact hnode
  | recheckFilePath descriptor =>
      obtain ⟨joystick, hjoystick, rfl⟩ := step_recheckFilePath hstep
      intro joystick' hmem hdevice hfd device hnode
      cases hmem
      change s.opening (joystick.attemptsOpen s.node.isSome) descriptor _ = some device
      obtain ⟨hattempt, -, -, hopened⟩ | ⟨hattempt, -, -, -, hsame⟩ | ⟨-, hgone, -⟩ :=
        joystick.recheckFilePath_cases s.node.isSome (s.opened descriptor)
      · rw [hopened, hattempt, opening_opened (hguard joystick hjoystick hattempt)]
        exact hnode
      · rw [hsame] at hdevice hfd ⊢
        rw [hattempt, opening_idle]
        exact hs joystick hjoystick hdevice hfd device hnode
      · rw [show s.node = some device from hnode] at hgone
        cases hgone
  | refresh sampled =>
      obtain ⟨joystick, hjoystick, rfl⟩ := step_refresh hstep
      intro joystick' hmem hdevice hfd device hnode
      cases hmem
      obtain ⟨hfallback, hsame⟩ := refresh_keeps joystick (if s.readable then sampled else [])
      rw [hfallback] at hdevice
      rw [hsame] at hfd ⊢
      exact hs joystick hjoystick hdevice hfd device hnode

theorem numbered_opening {s : NodeState} (hs : s.Numbered) (attempt : Bool) (descriptor : Nat) :
    (∀ fd device, s.opening attempt descriptor fd = some device → device < s.devices) ∧
      s.opening attempt descriptor (-1) = none := by
  rw [opening]
  split
  · constructor
    · intro fd device hopen
      by_cases hfd : fd = descriptor
      · rw [hfd, Function.update_self] at hopen
        exact hs.node device hopen
      · rw [Function.update_of_ne hfd] at hopen
        exact hs.descriptors fd device hopen
    · rw [Function.update_of_ne (by omega)]
      exact hs.failed
  · exact ⟨hs.descriptors, hs.failed⟩

theorem numbered_step {s s' : NodeState} {e : NodeEvent} (hs : s.Numbered)
    (hstep : s.step e = some s') : s'.Numbered := by
  have happear : s.appear.Numbered := by
    refine ⟨?_, fun fd device hopen => Nat.lt_succ_of_lt (hs.descriptors fd device hopen),
      hs.failed⟩
    intro device hnode
    cases hnode
    exact Nat.lt_succ_self _
  cases e with
  | appears =>
      obtain rfl := step_appears (.inl hstep)
      exact happear
  | replaced =>
      obtain rfl := step_appears (.inr hstep)
      exact happear
  | disappears =>
      simp only [step] at hstep
      split at hstep
      · cases hstep
        refine ⟨?_, hs.descriptors, hs.failed⟩
        intro device hnode
        cases hnode
      · cases hstep
  | openFails | openWorks | readsFail =>
      cases hstep
      exact ⟨hs.node, hs.descriptors, hs.failed⟩
  | init memory joystickNumber descriptor =>
      obtain rfl := step_init hstep
      obtain ⟨hdevices, hfailed⟩ := numbered_opening hs s.node.isSome descriptor
      exact ⟨hs.node, hdevices, hfailed⟩
  | recheckFilePath descriptor =>
      obtain ⟨joystick, -, rfl⟩ := step_recheckFilePath hstep
      obtain ⟨hdevices, hfailed⟩ :=
        numbered_opening hs (joystick.attemptsOpen s.node.isSome) descriptor
      exact ⟨hs.node, hdevices, hfailed⟩
  | refresh sampled =>
      obtain ⟨joystick, -, rfl⟩ := step_refresh hstep
      exact ⟨hs.node, hs.descriptors, hs.failed⟩

end NodeState
end MatrixServer
