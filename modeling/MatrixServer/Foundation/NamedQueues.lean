import Mathlib.Data.List.Nodup
import Mathlib.Logic.Function.Basic

/-!
Bounded message queues that processes share by name.
A queue is an object of its own: a name can be removed while the queue is open, and the
queue then stays with those that have opened it. What was ever put into a queue and what
was taken out of it is kept beside what waits in it.
-/

namespace NamedQueues

universe u v

structure Queues (Name : Type u) (Item : Type v) where
  /-- the queues in the order they were created in, by the names they got -/
  created : List Name := []
  named : Name → Option Nat := fun _ => none
  waiting : Nat → List Item := fun _ => []
  put : Nat → List Item := fun _ => []
  taken : Nat → List Item := fun _ => []

namespace Queues

variable {Name : Type u} {Item : Type v}

section
variable [DecidableEq Name]

/-- Open the queue of a name, or create one. -/
def openOrCreate (t : Queues Name Item) (name : Name) : Queues Name Item × Nat :=
  match t.named name with
  | some queue => (t, queue)
  | none =>
      ({ t with
          created := t.created ++ [name]
          named := Function.update t.named name (some t.created.length) },
        t.created.length)

/-- Take the name away; who has opened the queue keeps it. -/
def remove (t : Queues Name Item) (name : Name) : Queues Name Item :=
  { t with named := Function.update t.named name none }

end

/-- Put an item into a queue; none while the queue is full. -/
def send (t : Queues Name Item) (capacity queue : Nat) (item : Item) :
    Option (Queues Name Item) :=
  if (t.waiting queue).length < capacity then
    some { t with
      waiting := Function.update t.waiting queue (t.waiting queue ++ [item])
      put := Function.update t.put queue (t.put queue ++ [item]) }
  else none

/-- Take the oldest item out of a queue; none while the queue is empty. -/
def receive (t : Queues Name Item) (queue : Nat) : Option (Item × Queues Name Item) :=
  match t.waiting queue with
  | [] => none
  | item :: rest =>
      some (item, { t with
        waiting := Function.update t.waiting queue rest
        taken := Function.update t.taken queue (t.taken queue ++ [item]) })

/-- No name was given to two queues, and the queues are first-in first-out. -/
structure Sound (capacity : Nat) (t : Queues Name Item) : Prop where
  nodup : t.created.Nodup
  named : ∀ name queue, t.named name = some queue → t.created[queue]? = some name
  history : ∀ queue, t.put queue = t.taken queue ++ t.waiting queue
  bounded : ∀ queue, (t.waiting queue).length ≤ capacity
  /-- Nothing was put into a queue before it was created. -/
  blank : ∀ queue, t.created.length ≤ queue → t.put queue = []

variable {capacity : Nat} {t t' : Queues Name Item} {name : Name} {queue other : Nat}
  {item : Item}

theorem sound_empty : Sound capacity ({} : Queues Name Item) where
  nodup := List.nodup_nil
  named := fun _ _ h => by cases h
  history := fun _ => rfl
  bounded := fun _ => Nat.zero_le _
  blank := fun _ _ => rfl

/-- A queue is known by the name it was created under. -/
theorem Sound.queue_eq (h : Sound capacity t) (hqueue : t.created[queue]? = some name)
    (hother : t.created[other]? = some name) : queue = other := by
  obtain ⟨hlt, hget⟩ := List.getElem?_eq_some_iff.mp hqueue
  obtain ⟨hlt', hget'⟩ := List.getElem?_eq_some_iff.mp hother
  exact (h.nodup.getElem_inj_iff).mp (hget.trans hget'.symm)

theorem Sound.named_created (h : Sound capacity t) (hnamed : t.named name = some queue) :
    name ∈ t.created :=
  List.mem_of_getElem? (h.named _ _ hnamed)

theorem created_append (more : List Name) (h : t.created[queue]? = some name) :
    (t.created ++ more)[queue]? = some name := by
  rw [List.getElem?_append_left (List.getElem?_eq_some_iff.mp h).1]
  exact h

section
variable [DecidableEq Name]

/-- A name no queue was created under gives a new queue. -/
theorem Sound.openOrCreate_fresh (h : Sound capacity t) (hname : name ∉ t.created) :
    t.openOrCreate name =
      ({ t with
          created := t.created ++ [name]
          named := Function.update t.named name (some t.created.length) },
        t.created.length) := by
  simp only [openOrCreate]
  split
  · rename_i queue hnamed
    exact absurd (h.named_created hnamed) hname
  · rfl

theorem Sound.openOrCreate (h : Sound capacity t) (hname : name ∉ t.created) :
    Sound capacity (t.openOrCreate name).1 := by
  rw [h.openOrCreate_fresh hname]
  refine ⟨?_, ?_, h.history, h.bounded, ?_⟩
  · exact h.nodup.append (List.nodup_singleton _) (by simpa using hname)
  · intro other queue hnamed
    simp only [Function.update_apply] at hnamed
    split at hnamed
    · rename_i heq
      cases hnamed
      simp [heq]
    · exact created_append _ (h.named _ _ hnamed)
  · intro queue hqueue
    apply h.blank
    simp only [List.length_append, List.length_singleton] at hqueue
    omega

theorem Sound.remove (h : Sound capacity t) (name : Name) : Sound capacity (t.remove name) := by
  refine ⟨h.nodup, ?_, h.history, h.bounded, h.blank⟩
  intro other queue hnamed
  simp only [Queues.remove, Function.update_apply] at hnamed
  split at hnamed
  · cases hnamed
  · exact h.named _ _ hnamed

end

theorem send_cases (h : t.send capacity queue item = some t') :
    (t.waiting queue).length < capacity ∧
      t' = { t with
        waiting := Function.update t.waiting queue (t.waiting queue ++ [item])
        put := Function.update t.put queue (t.put queue ++ [item]) } := by
  simp only [send] at h
  split at h
  · rename_i hroom
    exact ⟨hroom, (Option.some.inj h).symm⟩
  · cases h

theorem receive_cases (h : t.receive queue = some (item, t')) :
    ∃ rest, t.waiting queue = item :: rest ∧
      t' = { t with
        waiting := Function.update t.waiting queue rest
        taken := Function.update t.taken queue (t.taken queue ++ [item]) } := by
  simp only [receive] at h
  split at h
  · cases h
  · rename_i first rest hwaiting
    cases h
    exact ⟨rest, hwaiting, rfl⟩

theorem Sound.send (h : Sound capacity t) (hqueue : t.created[queue]? = some name)
    (hsend : t.send capacity queue item = some t') : Sound capacity t' := by
  obtain ⟨hroom, rfl⟩ := send_cases hsend
  refine ⟨h.nodup, h.named, ?_, ?_, ?_⟩
  · intro other
    by_cases heq : other = queue
    · subst heq
      simp [h.history]
    · simpa [heq] using h.history other
  · intro other
    by_cases heq : other = queue
    · subst heq
      simp only [Function.update_self, List.length_append, List.length_singleton]
      exact hroom
    · simpa [heq] using h.bounded other
  · intro other hother
    have hlt := (List.getElem?_eq_some_iff.mp hqueue).1
    have hne : other ≠ queue := by
      intro heq
      rw [heq] at hother
      exact absurd hlt (Nat.not_lt.mpr hother)
    simpa [hne] using h.blank other hother

theorem Sound.receive (h : Sound capacity t) (hreceive : t.receive queue = some (item, t')) :
    Sound capacity t' := by
  obtain ⟨rest, hwaiting, rfl⟩ := receive_cases hreceive
  refine ⟨h.nodup, h.named, ?_, ?_, h.blank⟩
  · intro other
    by_cases heq : other = queue
    · subst heq
      simp [h.history, hwaiting]
    · simpa [heq] using h.history other
  · intro other
    by_cases heq : other = queue
    · subst heq
      have hbound := h.bounded other
      rw [hwaiting, List.length_cons] at hbound
      simp only [Function.update_self]
      omega
    · simpa [heq] using h.bounded other

end Queues
end NamedQueues
