import Mathlib.Logic.Function.Basic
import Mathlib.Logic.Relation

/-!
One sender in front of bounded queues.
It puts its items in order, each into the queue of a client or into none, and
waits at a full queue; clients take from their queues, except those that have
stalled. Whether the sender can get stuck at a stalled client is decided by the
room in the stalled clients' queues alone.
-/

namespace BlockingSends

universe u

structure Sender (Client : Type u) where
  queued : Client → Nat
  /-- What is still to be put; an item for no client needs no queue. -/
  pending : List (Option Client)

variable {Client : Type u} [DecidableEq Client]

/-- Put one item; none when the queue is full. -/
def put (capacity : Nat) (queued : Client → Nat) : Option Client → Option (Client → Nat)
  | none => some queued
  | some c =>
      if queued c < capacity then some (Function.update queued c (queued c + 1)) else none

inductive Step (capacity : Nat) (stalled : List Client) : Sender Client → Sender Client → Prop where
  | put {queued queued' : Client → Nat} {item : Option Client} {pending : List (Option Client)} :
      BlockingSends.put capacity queued item = some queued' →
      Step capacity stalled ⟨queued, item :: pending⟩ ⟨queued', pending⟩
  | take {queued : Client → Nat} {pending : List (Option Client)} (c : Client) : c ∉ stalled →
      0 < queued c →
      Step capacity stalled ⟨queued, pending⟩
        ⟨Function.update queued c (queued c - 1), pending⟩

theorem step_cases {capacity : Nat} {stalled : List Client} {s s' : Sender Client}
    (h : Step capacity stalled s s') :
    (∃ item pending queued', s.pending = item :: pending ∧
        put capacity s.queued item = some queued' ∧ s' = ⟨queued', pending⟩) ∨
      ∃ c, c ∉ stalled ∧ 0 < s.queued c ∧
        s' = ⟨Function.update s.queued c (s.queued c - 1), s.pending⟩ := by
  cases h with
  | put hput => exact .inl ⟨_, _, _, rfl, hput, rfl⟩
  | take c hc hpos => exact .inr ⟨c, hc, hpos, rfl⟩

namespace Sender

def Bounded (capacity : Nat) (s : Sender Client) : Prop := ∀ c, s.queued c ≤ capacity

/-- Every stalled client has room for what is still to be put into its queue. -/
def Fits (capacity : Nat) (stalled : List Client) (s : Sender Client) : Prop :=
  ∀ c ∈ stalled, s.queued c + s.pending.count (some c) ≤ capacity

/-- The next item is for a stalled client with a full queue. -/
def Blocked (capacity : Nat) (stalled : List Client) (s : Sender Client) (c : Client) : Prop :=
  c ∈ stalled ∧ s.pending.head? = some (some c) ∧ s.queued c = capacity

variable {capacity : Nat} {stalled : List Client}

theorem Fits.not_blocked {s : Sender Client} (h : s.Fits capacity stalled) (c : Client) :
    ¬ s.Blocked capacity stalled c := by
  intro hblocked
  obtain ⟨hstalled, hhead, hfull⟩ := hblocked
  have hroom := h c hstalled
  have hmem : some c ∈ s.pending := List.mem_of_mem_head? hhead
  have hpos := List.count_pos_iff.mpr hmem
  omega

theorem put_bounded {queued queued' : Client → Nat} {item : Option Client}
    (h : put capacity queued item = some queued') (hb : ∀ c, queued c ≤ capacity) (c : Client) :
    queued' c ≤ capacity := by
  cases item with
  | none => exact Option.some.inj h ▸ hb c
  | some d =>
      simp only [put] at h
      split at h
      · cases h
        by_cases hc : c = d
        · subst hc
          rw [Function.update_self]
          omega
        · rw [Function.update_of_ne hc]
          exact hb c
      · cases h

/-- A put moves an item from what is still to be put into its queue. -/
theorem put_count {queued queued' : Client → Nat} {item : Option Client}
    (h : put capacity queued item = some queued') (pending : List (Option Client)) (c : Client) :
    queued' c + pending.count (some c) = queued c + (item :: pending).count (some c) := by
  cases item with
  | none =>
      cases Option.some.inj h
      simp
  | some d =>
      simp only [put] at h
      split at h
      · cases h
        by_cases hc : c = d
        · subst hc
          rw [Function.update_self, List.count_cons_self]
          omega
        · rw [Function.update_of_ne hc, List.count_cons_of_ne]
          exact fun heq => hc (Option.some.inj heq).symm
      · cases h

/-- The next item is for a stalled client's full queue, or it can be put, after its client has
read if need be; the stalled clients keep their room. -/
theorem next_item (hcapacity : 0 < capacity) {queued : Client → Nat}
    (hb : ∀ c, queued c ≤ capacity) (item : Option Client) (pending : List (Option Client)) :
    (∃ c, (Sender.mk queued (item :: pending)).Blocked capacity stalled c) ∨
      ∃ queued', Relation.ReflTransGen (Step capacity stalled) ⟨queued, item :: pending⟩
          ⟨queued', pending⟩ ∧ (∀ c, queued' c ≤ capacity) ∧
        ∀ c ∈ stalled, queued' c + pending.count (some c) =
          queued c + (item :: pending).count (some c) := by
  cases hput : put capacity queued item with
  | some queued' =>
      exact .inr ⟨queued', .single (.put hput), put_bounded hput hb,
        fun c _ => put_count hput pending c⟩
  | none =>
      cases item with
      | none => cases hput
      | some d =>
          have hfull : queued d = capacity := by
            simp only [put] at hput
            split at hput
            · cases hput
            · have := hb d
              omega
          by_cases hd : d ∈ stalled
          · exact .inl ⟨d, hd, rfl, hfull⟩
          · right
            have hread : Function.update queued d (queued d - 1) d = capacity - 1 := by
              rw [Function.update_self, hfull]
            have hagain : put capacity (Function.update queued d (queued d - 1)) (some d) =
                some queued := by
              simp only [put, hread]
              rw [if_pos (by omega), Function.update_idem, Nat.sub_add_cancel hcapacity, ← hfull,
                Function.update_eq_self]
            refine ⟨queued, .head (.take d hd (by omega)) (.single (.put hagain)), hb, ?_⟩
            intro c hc
            rw [List.count_cons_of_ne]
            exact fun heq => hd (Option.some.inj heq ▸ hc)

/-- With room for the stalled clients everything can be put. -/
theorem Fits.completes (hcapacity : 0 < capacity) {queued : Client → Nat}
    {pending : List (Option Client)} (hb : ∀ c, queued c ≤ capacity)
    (h : (Sender.mk queued pending).Fits capacity stalled) :
    ∃ queued', Relation.ReflTransGen (Step capacity stalled) ⟨queued, pending⟩ ⟨queued', []⟩ := by
  induction pending generalizing queued with
  | nil => exact ⟨queued, .refl⟩
  | cons item pending ih =>
      obtain ⟨c, hblocked⟩ | ⟨queued', hrun, hb', hkeeps⟩ :=
        next_item hcapacity hb item pending
      · exact absurd hblocked (h.not_blocked c)
      · obtain ⟨queued'', hrest⟩ := ih hb' fun c hc =>
          Nat.le_trans (Nat.le_of_eq (hkeeps c hc)) (h c hc)
        exact ⟨queued'', hrun.trans hrest⟩

/-- Without it the sender gets stuck at a stalled client. -/
theorem blocks_of_not_fits (hcapacity : 0 < capacity) {queued : Client → Nat}
    {pending : List (Option Client)} (hb : ∀ c, queued c ≤ capacity)
    (h : ¬ (Sender.mk queued pending).Fits capacity stalled) :
    ∃ s c, Relation.ReflTransGen (Step capacity stalled) ⟨queued, pending⟩ s ∧
      s.Blocked capacity stalled c := by
  induction pending generalizing queued with
  | nil => exact absurd (fun c _ => hb c) h
  | cons item pending ih =>
      obtain ⟨c, hblocked⟩ | ⟨queued', hrun, hb', hkeeps⟩ :=
        next_item hcapacity hb item pending
      · exact ⟨_, c, .refl, hblocked⟩
      · obtain ⟨s, c, hrest, hblocked⟩ := ih hb' fun hfits =>
          h fun c hc => Nat.le_trans (Nat.le_of_eq (hkeeps c hc).symm) (hfits c hc)
        exact ⟨s, c, hrun.trans hrest, hblocked⟩

end Sender
end BlockingSends
