import Mathlib.Data.List.Basic

/-!
A queue of messages written one after the other by asynchronous writes.
Senders post a handler; the handler drops its message or pushes it, and starts a
write when the queue was idle. A write that ends is popped, and the next one starts.
Messages carry their place among all messages sent, so equal entries are the same
entry. The operands of the writes in flight are a list: that there is at most one,
and that it is the front of the queue, is what the invariant says.
-/

namespace WriteQueue

universe u

/-- A message and its place among all messages sent. -/
structure Entry (Message : Type u) where
  number : Nat
  message : Message
  deriving DecidableEq

/-- What the posted handler of an entry did, with the length of the queue it saw. -/
structure Handled (Message : Type u) where
  entry : Entry Message
  pending : Nat
  kept : Bool
  deriving DecidableEq

structure Writer (Message : Type u) where
  sent : List (Entry Message) := []
  /-- the entries whose handlers have not run yet, oldest first -/
  posted : List (Entry Message) := []
  /-- the handlers that have run, in order -/
  ran : List (Handled Message) := []
  queue : List (Entry Message) := []
  isWriting : Bool := false
  /-- the operands of the writes in flight -/
  outstanding : List (Entry Message) := []
  /-- the operands of all writes started so far -/
  handed : List (Entry Message) := []
  /-- the front of the empty queue was read or popped -/
  emptyAccess : Bool := false
  deriving DecidableEq

namespace Writer

variable {Message : Type u}

def post (w : Writer Message) (message : Message) : Writer Message :=
  let entry : Entry Message := ⟨w.sent.length, message⟩
  { w with sent := w.sent ++ [entry], posted := w.posted ++ [entry] }

def startWrite (w : Writer Message) : Writer Message :=
  match w.queue with
  | [] => { w with isWriting := true, emptyAccess := true }
  | front :: _ =>
      { w with
        isWriting := true
        outstanding := w.outstanding ++ [front]
        handed := w.handed ++ [front] }

def push (w : Writer Message) (entry : Entry Message) : Writer Message :=
  let pushed := { w with queue := w.queue ++ [entry] }
  if w.queue.isEmpty && !w.isWriting then pushed.startWrite else pushed

/-- The body of a posted handler. -/
def accept (drops : Nat → Message → Bool) (w : Writer Message) (entry : Entry Message) :
    Writer Message :=
  if drops w.queue.length entry.message then
    { w with ran := w.ran ++ [⟨entry, w.queue.length, false⟩] }
  else { w.push entry with ran := w.ran ++ [⟨entry, w.queue.length, true⟩] }

/-- The oldest posted handler runs. -/
def runPosted (drops : Nat → Message → Bool) (w : Writer Message) : Option (Writer Message) :=
  match w.posted with
  | [] => none
  | entry :: posted => some (accept drops { w with posted } entry)

/-- A write in flight ends. -/
def finish (w : Writer Message) (index : Nat) : Option (Writer Message) :=
  if index < w.outstanding.length then
    some { w with outstanding := w.outstanding.eraseIdx index }
  else none

def pop (w : Writer Message) : Writer Message :=
  match w.queue with
  | [] => { w with emptyAccess := true }
  | _ :: queue => { w with queue }

/-- The written front is popped, and the next write starts. -/
def advance (w : Writer Message) : Writer Message :=
  if w.pop.queue.isEmpty then { w.pop with isWriting := false } else w.pop.startWrite

/-- The entries that were not dropped, in the order of their handlers. -/
def kept (w : Writer Message) : List (Entry Message) :=
  (w.ran.filter Handled.kept).map Handled.entry

/-- The queue, the flag and the writes started fit together. -/
structure Consistent (drops : Nat → Message → Bool) (w : Writer Message) : Prop where
  writing : w.isWriting = true ↔ w.queue ≠ []
  started : w.handed ++ w.queue.tail = w.kept
  decided : ∀ h ∈ w.ran, h.kept = !drops h.pending h.entry.message
  posted : w.ran.map Handled.entry ++ w.posted = w.sent
  numbered : w.sent.map Entry.number = List.range w.sent.length
  access : w.emptyAccess = false

/-- The one write in flight is that of the front. -/
def Flowing (w : Writer Message) : Prop := w.outstanding = w.queue.head?.toList

/-- A write was lost and its entry stays in front. -/
def Stalled (w : Writer Message) : Prop := w.outstanding = [] ∧ w.queue ≠ []

variable {drops : Nat → Message → Bool} {w : Writer Message}

theorem consistent_empty : ({} : Writer Message).Consistent drops :=
  ⟨by simp, rfl, fun _ h => False.elim (List.not_mem_nil h), rfl, rfl, rfl⟩

theorem Consistent.post (h : w.Consistent drops) (message : Message) :
    (w.post message).Consistent drops := by
  refine ⟨h.writing, h.started, h.decided, ?_, ?_, h.access⟩
  · simp only [Writer.post, ← h.posted, List.append_assoc]
  · simp only [Writer.post, List.map_append, h.numbered, List.length_append, List.length_singleton,
      List.range_succ, List.map_cons, List.map_nil]

/-- What is written or will be is in order among the messages sent. -/
theorem Consistent.sublist (h : w.Consistent drops) :
    (w.handed ++ w.queue.tail).Sublist w.sent := by
  rw [h.started, ← h.posted]
  exact (List.filter_sublist.map _).trans (List.sublist_append_left _ _)

/-- Only dropped messages are missing among those whose handlers have run. -/
theorem Consistent.mem_sent (h : w.Consistent drops) {e : Entry Message} (he : e ∈ w.sent) :
    e ∈ w.handed ++ w.queue.tail ∨ e ∈ w.posted ∨
      ∃ handled ∈ w.ran, handled.entry = e ∧ drops handled.pending e.message = true := by
  rw [← h.posted] at he
  cases List.mem_append.mp he with
  | inl hran =>
      obtain ⟨handled, hmem, rfl⟩ := List.mem_map.mp hran
      have hdecided := h.decided handled hmem
      cases hkept : handled.kept with
      | true =>
          left
          rw [h.started]
          exact List.mem_map_of_mem (List.mem_filter.mpr ⟨hmem, hkept⟩)
      | false =>
          rw [hkept, eq_comm, Bool.not_eq_false'] at hdecided
          exact .inr (.inr ⟨handled, hmem, rfl, hdecided⟩)
  | inr hposted => exact .inr (.inl hposted)

/-- What a handler can do, with the flag telling whether the queue is idle. -/
theorem runPosted_cases {w' : Writer Message} (h : w.Consistent drops)
    (hrun : w.runPosted drops = some w') :
    ∃ entry posted, w.posted = entry :: posted ∧
      ((drops w.queue.length entry.message = true ∧
          w' = { w with posted, ran := w.ran ++ [⟨entry, w.queue.length, false⟩] }) ∨
        (drops w.queue.length entry.message = false ∧ w.queue = [] ∧
          w' = { w with
            posted, ran := w.ran ++ [⟨entry, w.queue.length, true⟩]
            queue := [entry], isWriting := true
            outstanding := w.outstanding ++ [entry], handed := w.handed ++ [entry] }) ∨
        (drops w.queue.length entry.message = false ∧ w.queue ≠ [] ∧
          w' = { w with
            posted, ran := w.ran ++ [⟨entry, w.queue.length, true⟩]
            queue := w.queue ++ [entry] })) := by
  simp only [runPosted] at hrun
  split at hrun
  · cases hrun
  · rename_i entry posted hposted
    refine ⟨entry, posted, hposted, ?_⟩
    cases Option.some.inj hrun
    simp only [accept]
    split
    · rename_i hdrop
      exact .inl ⟨hdrop, rfl⟩
    · rename_i hdrop
      have hkeep : drops w.queue.length entry.message = false := Bool.eq_false_iff.mpr hdrop
      right
      by_cases hqueue : w.queue = []
      · have hidle : w.isWriting = false :=
          Bool.eq_false_iff.mpr fun hwriting => h.writing.mp hwriting hqueue
        left
        refine ⟨hkeep, hqueue, ?_⟩
        simp [push, startWrite, hqueue, hidle]
      · right
        refine ⟨hkeep, hqueue, ?_⟩
        simp [push, hqueue]

theorem Consistent.runPosted {w' : Writer Message} (h : w.Consistent drops)
    (hrun : w.runPosted drops = some w') : w'.Consistent drops := by
  obtain ⟨entry, posted, hposted, hcases⟩ := runPosted_cases h hrun
  have hsent : ∀ kept : Bool,
      List.map Handled.entry (w.ran ++ [⟨entry, w.queue.length, kept⟩]) ++ posted = w.sent := by
    intro kept
    rw [← h.posted, hposted]
    simp
  have hdecided : ∀ kept, drops w.queue.length entry.message = !kept →
      ∀ hd ∈ w.ran ++ [⟨entry, w.queue.length, kept⟩],
        hd.kept = !drops hd.pending hd.entry.message := by
    intro kept hdrop hd hmem
    cases List.mem_append.mp hmem with
    | inl hold => exact h.decided hd hold
    | inr hnew =>
        cases List.mem_singleton.mp hnew
        rw [hdrop, Bool.not_not]
  obtain ⟨hdrop, rfl⟩ | ⟨hkeep, hqueue, rfl⟩ | ⟨hkeep, hqueue, rfl⟩ := hcases
  · refine ⟨h.writing, ?_, hdecided false hdrop, hsent false, h.numbered, h.access⟩
    simp only [kept, h.started, List.filter_append]
    simp
  · refine ⟨by simp, ?_, hdecided true hkeep, hsent true, h.numbered, h.access⟩
    have hstarted := h.started
    simp only [hqueue, List.tail_nil, List.append_nil] at hstarted
    simp [kept, hstarted]
  · refine ⟨?_, ?_, hdecided true hkeep, hsent true, h.numbered, h.access⟩
    · simp [h.writing, hqueue]
    · have hstarted := h.started
      simp only [kept] at hstarted ⊢
      rw [List.tail_append_of_ne_nil hqueue, ← List.append_assoc, hstarted]
      simp

theorem Flowing.runPosted {w' : Writer Message} (h : w.Consistent drops) (hflow : w.Flowing)
    (hrun : w.runPosted drops = some w') : w'.Flowing := by
  obtain ⟨entry, posted, -, hcases⟩ := runPosted_cases h hrun
  obtain ⟨-, rfl⟩ | ⟨-, hqueue, rfl⟩ | ⟨-, hqueue, rfl⟩ := hcases
  · exact hflow
  · simp only [Flowing, hqueue] at hflow ⊢
    simp [hflow]
  · simp only [Flowing] at hflow ⊢
    rw [hflow, List.head?_append_of_ne_nil _ hqueue]

/-- A writer that lost a write starts no other one. -/
theorem Stalled.runPosted {w' : Writer Message} (h : w.Consistent drops) (hstall : w.Stalled)
    (hrun : w.runPosted drops = some w') : w'.Stalled ∧ w'.handed = w.handed := by
  obtain ⟨entry, posted, -, hcases⟩ := runPosted_cases h hrun
  obtain ⟨-, rfl⟩ | ⟨-, hqueue, -⟩ | ⟨-, hqueue, rfl⟩ := hcases
  · exact ⟨hstall, rfl⟩
  · exact absurd hqueue hstall.2
  · exact ⟨⟨hstall.1, by simp⟩, rfl⟩

/-- The handlers keep at most `bound` queued entries of a kind that they only push onto
a shorter queue. -/
theorem runPosted_countP {w' : Writer Message} (h : w.Consistent drops) {p : Entry Message → Bool}
    {bound : Nat}
    (hdrops : ∀ entry n, p entry = true → drops n entry.message = false → n < bound)
    (hcount : w.queue.countP p ≤ bound) (hrun : w.runPosted drops = some w') :
    w'.queue.countP p ≤ bound := by
  obtain ⟨entry, posted, -, hcases⟩ := runPosted_cases h hrun
  have hpush : drops w.queue.length entry.message = false →
      (w.queue ++ [entry]).countP p ≤ bound := by
    intro hkeep
    rw [List.countP_append, List.countP_singleton]
    cases hp : p entry with
    | false => simpa using hcount
    | true =>
        have hlt : w.queue.length < bound := hdrops entry _ hp hkeep
        have hle : w.queue.countP p ≤ w.queue.length := List.countP_le_length
        exact Nat.succ_le_of_lt (Nat.lt_of_le_of_lt hle hlt)
  obtain ⟨-, rfl⟩ | ⟨hkeep, hqueue, rfl⟩ | ⟨hkeep, -, rfl⟩ := hcases
  · exact hcount
  · simpa only [hqueue, List.nil_append] using hpush hkeep
  · exact hpush hkeep

theorem Flowing.finish {w' : Writer Message} {index : Nat} (hflow : w.Flowing)
    (hfinish : w.finish index = some w') : w.queue ≠ [] ∧ w' = { w with outstanding := [] } := by
  simp only [Flowing] at hflow
  simp only [Writer.finish] at hfinish
  split at hfinish
  · rename_i hindex
    cases hfinish
    cases hqueue : w.queue with
    | nil => simp [hflow, hqueue] at hindex
    | cons front rest =>
        simp only [hflow, hqueue, List.head?_cons, Option.toList_some, List.length_singleton,
          Nat.lt_one_iff] at hindex
        simp [hflow, hqueue, hindex]
  · cases hfinish

theorem Stalled.finish (hstall : w.Stalled) (index : Nat) : w.finish index = none := by
  simp [Writer.finish, hstall.1]

theorem advance_last {front : Entry Message} (hqueue : w.queue = [front]) :
    w.advance = { w with queue := [], isWriting := false } := by
  simp [advance, pop, hqueue]

theorem advance_next {front next : Entry Message} {rest : List (Entry Message)}
    (hqueue : w.queue = front :: next :: rest) :
    w.advance = { w with
      queue := next :: rest, isWriting := true
      outstanding := w.outstanding ++ [next], handed := w.handed ++ [next] } := by
  simp [advance, pop, startWrite, hqueue]

theorem Consistent.advance (h : w.Consistent drops) (hqueue : w.queue ≠ []) :
    w.advance.Consistent drops := by
  have hstarted := h.started
  cases hcase : w.queue with
  | nil => exact absurd hcase hqueue
  | cons front rest =>
      cases rest with
      | nil =>
          rw [advance_last hcase]
          simp only [hcase, List.tail_cons] at hstarted
          exact ⟨by simp, hstarted, h.decided, h.posted, h.numbered, h.access⟩
      | cons next rest =>
          rw [advance_next hcase]
          simp only [hcase, List.tail_cons] at hstarted
          refine ⟨by simp, ?_, h.decided, h.posted, h.numbered, h.access⟩
          simpa [kept] using hstarted

theorem Flowing.advance (hnone : w.outstanding = []) (hqueue : w.queue ≠ []) :
    w.advance.Flowing := by
  cases hcase : w.queue with
  | nil => exact absurd hcase hqueue
  | cons front rest =>
      cases rest with
      | nil => simp [Flowing, advance_last hcase, hnone]
      | cons next rest => simp [Flowing, advance_next hcase, hnone]

theorem advance_queue (hqueue : w.queue ≠ []) : w.advance.queue = w.queue.tail := by
  cases hcase : w.queue with
  | nil => exact absurd hcase hqueue
  | cons front rest =>
      cases rest with
      | nil => rw [advance_last hcase, List.tail_cons]
      | cons next rest => rw [advance_next hcase, List.tail_cons]

@[simp] theorem advance_posted (w : Writer Message) : w.advance.posted = w.posted := by
  have hstart : ∀ v : Writer Message, v.startWrite.posted = v.posted := by
    intro v
    simp only [startWrite]
    split <;> rfl
  have hpop : w.pop.posted = w.posted := by
    simp only [pop]
    split <;> rfl
  simp only [Writer.advance]
  split
  · exact hpop
  · rw [hstart, hpop]

/-- What a write does that ends and whose entry is popped. -/
theorem Consistent.finish_advance {w' : Writer Message} {index : Nat} (h : w.Consistent drops)
    (hflow : w.Flowing) (hfinish : w.finish index = some w') :
    w'.advance.Consistent drops ∧ w'.advance.Flowing ∧ w'.advance.queue = w.queue.tail := by
  obtain ⟨hqueue, rfl⟩ := hflow.finish hfinish
  have hnone : Writer.Consistent drops { w with outstanding := [] } := { h with }
  exact ⟨hnone.advance hqueue, Flowing.advance rfl hqueue, advance_queue hqueue⟩

/-- A handler that runs starts at most one write, and only when none is in flight. -/
theorem Flowing.runPosted_starts {w' : Writer Message} (h : w.Consistent drops)
    (hflow : w.Flowing) (hrun : w.runPosted drops = some w') :
    (w'.handed = w.handed ∧ w'.outstanding = w.outstanding) ∨
      (w.outstanding = [] ∧
        ∃ entry, w'.handed = w.handed ++ [entry] ∧ w'.outstanding = [entry]) := by
  obtain ⟨entry, posted, -, hcases⟩ := runPosted_cases h hrun
  obtain ⟨-, rfl⟩ | ⟨-, hqueue, rfl⟩ | ⟨-, -, rfl⟩ := hcases
  · exact .inl ⟨rfl, rfl⟩
  · have hidle : w.outstanding = [] := by
      rw [hflow, hqueue]
      rfl
    refine .inr ⟨hidle, entry, rfl, ?_⟩
    rw [hidle, List.nil_append]
  · exact .inl ⟨rfl, rfl⟩

/-- A write that ends was the only one in flight, and is followed by at most one. -/
theorem Flowing.finish_advance_starts {w' : Writer Message} {index : Nat} (hflow : w.Flowing)
    (hfinish : w.finish index = some w') :
    ∃ front, w.outstanding = [front] ∧
      ((w'.advance.handed = w.handed ∧ w'.advance.outstanding = []) ∨
        ∃ next, w'.advance.handed = w.handed ++ [next] ∧ w'.advance.outstanding = [next]) := by
  obtain ⟨hqueue, rfl⟩ := hflow.finish hfinish
  obtain ⟨front, rest, hcase⟩ := List.exists_cons_of_ne_nil hqueue
  refine ⟨front, ?_, ?_⟩
  · rw [hflow, hcase]
    rfl
  · cases rest with
    | nil =>
        rw [advance_last (w := { w with outstanding := [] }) hcase]
        exact .inl ⟨rfl, rfl⟩
    | cons next rest =>
        rw [advance_next (w := { w with outstanding := [] }) hcase]
        exact .inr ⟨next, rfl, rfl⟩

theorem Consistent.runPosted_sent {w' : Writer Message} (h : w.Consistent drops)
    (hrun : w.runPosted drops = some w') : w'.sent = w.sent := by
  obtain ⟨entry, posted, -, hcases⟩ := runPosted_cases h hrun
  obtain ⟨-, rfl⟩ | ⟨-, -, rfl⟩ | ⟨-, -, rfl⟩ := hcases <;> rfl

theorem Flowing.finish_advance_sent {w' : Writer Message} {index : Nat} (hflow : w.Flowing)
    (hfinish : w.finish index = some w') : w'.advance.sent = w.sent := by
  obtain ⟨hqueue, rfl⟩ := hflow.finish hfinish
  obtain ⟨front, rest, hcase⟩ := List.exists_cons_of_ne_nil hqueue
  cases rest with
  | nil => rw [advance_last (w := { w with outstanding := [] }) hcase]
  | cons next rest => rw [advance_next (w := { w with outstanding := [] }) hcase]

end Writer
end WriteQueue
