import Mathlib.Data.List.Basic
import Mathlib.Data.List.Induction

/-!
Streams cut into segments by a delimiter.
A reading of a stream is given by its complete segments, each ending in the only
delimiter it contains, and by the open rest behind the last delimiter. Every
stream has exactly one such reading, whatever the pieces it arrives in.
-/

namespace DelimitedStream

universe u
variable {α : Type u} {delimiter : α}

/-- `segments` and `rest` are the reading of `stream`. -/
structure Segmented (delimiter : α) (stream : List α) (segments : List (List α))
    (rest : List α) : Prop where
  flatten : segments.flatten ++ rest = stream
  closed : ∀ segment ∈ segments, ∃ body, segment = body ++ [delimiter] ∧ delimiter ∉ body
  open_rest : delimiter ∉ rest

theorem Segmented.of_open {stream : List α} (h : delimiter ∉ stream) :
    Segmented delimiter stream [] stream :=
  ⟨rfl, fun _ hs => False.elim (List.not_mem_nil hs), h⟩

theorem Segmented.push {stream rest : List α} {segments : List (List α)}
    (h : Segmented delimiter stream segments rest) {x : α} (hx : x ≠ delimiter) :
    Segmented delimiter (stream ++ [x]) segments (rest ++ [x]) := by
  refine ⟨?_, h.closed, ?_⟩
  · rw [← List.append_assoc, h.flatten]
  · intro hmem
    cases List.mem_append.mp hmem with
    | inl hrest => exact h.open_rest hrest
    | inr hlast => exact hx (List.mem_singleton.mp hlast).symm

theorem Segmented.close {stream rest : List α} {segments : List (List α)}
    (h : Segmented delimiter stream segments rest) :
    Segmented delimiter (stream ++ [delimiter])
      (segments ++ [rest ++ [delimiter]]) [] := by
  refine ⟨?_, ?_, List.not_mem_nil⟩
  · simp only [List.flatten_append, List.flatten_singleton, List.append_nil]
    rw [← List.append_assoc, h.flatten]
  · intro segment hs
    cases List.mem_append.mp hs with
    | inl hold => exact h.closed segment hold
    | inr hlast => exact ⟨rest, List.mem_singleton.mp hlast, h.open_rest⟩

/-- Two delimiter-free prefixes in front of a delimiter are the same. -/
theorem prefix_unique {body body' rest rest' : List α} (h : delimiter ∉ body)
    (h' : delimiter ∉ body')
    (heq : body ++ delimiter :: rest = body' ++ delimiter :: rest') :
    body = body' ∧ rest = rest' := by
  induction body generalizing body' with
  | nil =>
      cases body' with
      | nil => simpa using heq
      | cons y ys =>
          have hy : delimiter = y := (List.cons.inj heq).1
          exact absurd (hy ▸ List.mem_cons_self) h'
  | cons x xs ih =>
      cases body' with
      | nil =>
          have hx : x = delimiter := (List.cons.inj heq).1
          exact absurd (hx ▸ List.mem_cons_self) h
      | cons y ys =>
          obtain ⟨hxy, htail⟩ := List.cons.inj heq
          obtain ⟨hbody, hrest⟩ := ih (fun hm => h (List.mem_cons_of_mem _ hm))
            (fun hm => h' (List.mem_cons_of_mem _ hm)) htail
          exact ⟨by rw [hxy, hbody], hrest⟩

theorem Segmented.delimiter_mem {stream segment rest : List α} {segments : List (List α)}
    (h : Segmented delimiter stream (segment :: segments) rest) : delimiter ∈ stream := by
  obtain ⟨body, rfl, _⟩ := h.closed segment List.mem_cons_self
  rw [← h.flatten]
  simp

theorem Segmented.unique {stream rest rest' : List α} {segments segments' : List (List α)}
    (h : Segmented delimiter stream segments rest)
    (h' : Segmented delimiter stream segments' rest') :
    segments = segments' ∧ rest = rest' := by
  induction segments generalizing stream segments' with
  | nil =>
      have hstream : rest = stream := h.flatten
      cases segments' with
      | nil => exact ⟨rfl, hstream.trans h'.flatten.symm⟩
      | cons _ _ => exact absurd h'.delimiter_mem (hstream ▸ h.open_rest)
  | cons segment segments ih =>
      cases segments' with
      | nil =>
          have hstream : rest' = stream := h'.flatten
          exact absurd h.delimiter_mem (hstream ▸ h'.open_rest)
      | cons segment' segments' =>
          obtain ⟨body, rfl, hbody⟩ := h.closed segment List.mem_cons_self
          obtain ⟨body', rfl, hbody'⟩ := h'.closed segment' List.mem_cons_self
          have hstream := h.flatten.trans h'.flatten.symm
          simp only [List.flatten_cons, List.append_assoc, List.singleton_append] at hstream
          obtain ⟨rfl, hrest⟩ := prefix_unique hbody hbody' hstream
          have hs : Segmented delimiter (segments.flatten ++ rest) segments rest := by
            refine ⟨rfl, fun s hs => h.closed s (List.mem_cons_of_mem _ hs), h.open_rest⟩
          have hs' : Segmented delimiter (segments.flatten ++ rest) segments' rest' := by
            refine ⟨hrest.symm, fun s hs => h'.closed s (List.mem_cons_of_mem _ hs), h'.open_rest⟩
          obtain ⟨rfl, rfl⟩ := ih hs hs'
          exact ⟨rfl, rfl⟩

/-- A concatenation of complete segments reads back as those segments. -/
theorem Segmented.of_closed {segments : List (List α)}
    (h : ∀ segment ∈ segments, ∃ body, segment = body ++ [delimiter] ∧ delimiter ∉ body) :
    Segmented delimiter segments.flatten segments [] :=
  ⟨List.append_nil _, h, List.not_mem_nil⟩

theorem exists_segmented (delimiter : α) (stream : List α) :
    ∃ segments rest, Segmented delimiter stream segments rest := by
  induction stream using List.reverseRecOn with
  | nil => exact ⟨[], [], .of_open List.not_mem_nil⟩
  | append_singleton stream x ih =>
      obtain ⟨segments, rest, h⟩ := ih
      by_cases hx : x = delimiter
      · subst hx
        exact ⟨_, _, h.close⟩
      · exact ⟨_, _, h.push hx⟩

/-- A reading with a complete segment, as the bytes up to the first delimiter and the others. -/
theorem Segmented.uncons {stream segment rest : List α} {segments : List (List α)}
    (h : Segmented delimiter stream (segment :: segments) rest) :
    ∃ body stream', segment = body ++ [delimiter] ∧ delimiter ∉ body ∧
      stream = body ++ delimiter :: stream' ∧ Segmented delimiter stream' segments rest := by
  obtain ⟨body, hsegment, hbody⟩ := h.closed segment List.mem_cons_self
  refine ⟨body, segments.flatten ++ rest, hsegment, hbody, ?_, rfl,
    fun s hs => h.closed s (List.mem_cons_of_mem _ hs), h.open_rest⟩
  rw [← h.flatten, hsegment]
  simp

/-- Bytes in front lengthen the first segment, or the open rest where there is none. -/
theorem Segmented.prepend_cons {front stream segment rest : List α} {segments : List (List α)}
    (hfront : delimiter ∉ front) (h : Segmented delimiter stream (segment :: segments) rest) :
    Segmented delimiter (front ++ stream) ((front ++ segment) :: segments) rest := by
  obtain ⟨body, stream', rfl, hbody, rfl, hrest⟩ := h.uncons
  refine ⟨?_, fun s hs => ?_, hrest.open_rest⟩
  · simp [← hrest.flatten]
  · cases List.mem_cons.mp hs with
    | inl hfirst =>
        refine ⟨front ++ body, by simp [hfirst], fun hmem => ?_⟩
        exact (List.mem_append.mp hmem).elim hfront hbody
    | inr hmem => exact hrest.closed s hmem

theorem Segmented.prepend_nil {front stream rest : List α} (hfront : delimiter ∉ front)
    (h : Segmented delimiter stream [] rest) :
    Segmented delimiter (front ++ stream) [] (front ++ rest) := by
  refine ⟨by simp [← h.flatten], fun _ hs => False.elim (List.not_mem_nil hs), fun hmem => ?_⟩
  exact (List.mem_append.mp hmem).elim hfront h.open_rest

theorem Segmented.delimiter_mem_iff {stream rest : List α} {segments : List (List α)}
    (h : Segmented delimiter stream segments rest) : delimiter ∈ stream ↔ segments ≠ [] := by
  cases segments with
  | nil =>
      rw [← h.flatten]
      simpa using h.open_rest
  | cons segment segments => simpa using h.delimiter_mem

/-- Nothing is open exactly behind a delimiter, or at the start. -/
theorem Segmented.rest_eq_nil_iff {stream rest : List α} {segments : List (List α)}
    (h : Segmented delimiter stream segments rest) (hne : stream ≠ []) :
    rest = [] ↔ stream.getLast? = some delimiter := by
  have hstream := h.flatten
  cases rest using List.reverseRecOn with
  | nil =>
      refine iff_of_true rfl ?_
      cases segments using List.reverseRecOn with
      | nil => exact absurd hstream.symm hne
      | append_singleton segments segment =>
          obtain ⟨body, rfl, -⟩ := h.closed segment (by simp)
          rw [← hstream]
          simp [← List.append_assoc]
  | append_singleton rest x =>
      rw [← hstream, ← List.append_assoc, List.getLast?_concat]
      have hx : x ≠ delimiter := by
        rintro rfl
        exact h.open_rest (by simp)
      simp [hx]

/-- What is received of a concatenation of complete segments reads as the first of them. -/
theorem Segmented.cut {stream later rest : List α} {segments frames : List (List α)}
    (h : Segmented delimiter stream segments rest)
    (hframes : ∀ frame ∈ frames, ∃ body, frame = body ++ [delimiter] ∧ delimiter ∉ body)
    (hfront : stream ++ later <+: frames.flatten) :
    ∃ frames', frames = segments ++ frames' ∧ rest ++ later <+: frames'.flatten := by
  induction segments generalizing stream frames with
  | nil =>
      have hstream : rest = stream := h.flatten
      exact ⟨frames, rfl, hstream ▸ hfront⟩
  | cons segment segments ih =>
      obtain ⟨body, stream', rfl, hbody, rfl, hrest⟩ := h.uncons
      obtain ⟨missing, hflat⟩ := hfront
      cases frames with
      | nil => simp at hflat
      | cons frame frames =>
          obtain ⟨body', rfl, hbody'⟩ := hframes frame List.mem_cons_self
          simp only [List.flatten_cons, List.append_assoc, List.cons_append,
            List.nil_append] at hflat
          obtain ⟨rfl, htail⟩ := prefix_unique hbody hbody' hflat
          obtain ⟨frames', rfl, hlater⟩ := ih hrest
            (fun frame hframe => hframes frame (List.mem_cons_of_mem _ hframe))
            ⟨missing, by rw [← htail, List.append_assoc]⟩
          exact ⟨frames', rfl, hlater⟩

/-- The open rest of what is received is shorter than the frame it belongs to. -/
theorem length_lt_of_open {rest later frame : List α} {frames : List (List α)}
    (hrest : delimiter ∉ rest) (hframe : ∃ body, frame = body ++ [delimiter])
    (hfront : rest ++ later <+: frame ++ frames.flatten) : rest.length < frame.length := by
  obtain ⟨body, rfl⟩ := hframe
  have hopen : rest <+: body ++ [delimiter] ++ frames.flatten :=
    (List.prefix_append rest later).trans hfront
  by_contra hlong
  apply hrest
  have hwhole : body ++ [delimiter] <+: rest :=
    List.prefix_of_prefix_length_le (List.prefix_append _ _) hopen (Nat.le_of_not_lt hlong)
  exact hwhole.subset (List.mem_append_right _ (List.mem_singleton_self _))

end DelimitedStream
