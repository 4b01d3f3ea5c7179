import MatrixServer.Common.CobsEncoding

/-!
Frames on the wire.
The encoder's frames have their only zero at the end and the length that the cuts of the
input make. The decoder reads a frame of any blocks as the standard does as long as the
last block is not full: a full one has no surplus zero that could be taken away.
-/

namespace MatrixServer.Cobs
open StuffedBlocks

/-- The encoder's output is one well-formed frame: no `at` throws, the only zero is the last
byte, the length is as the completed runs say, and the code bytes lead to the delimiter. -/
theorem encode_well_formed (s : Bytes) :
    ∃ encoded, encode s = .ok encoded ∧ (∃ body, encoded = body ++ [0] ∧ 0 ∉ body) ∧
      encoded.length = s.length + 2 + fullRuns s ∧ fullRuns s ≤ s.length / 254 ∧
      StepsTo [0] encoded := by
  refine ⟨frame (stuff s), encode_eq_frame s, ?_, ?_, ?_, ?_⟩
  · exact ⟨wire (stuff s), rfl, zero_not_mem_wire (stuff s)⟩
  · exact length_frame_stuff s
  · exact fullRuns_le s
  · exact stepsTo_frame (stuff s)

section
variable (front : List Block) {last : Block} (h : last.data.length = 254)
include h

/-- A full last block stands for no zero of its own, so there is no surplus one. -/
theorem flatMap_payload_of_last_full :
    (front ++ [last]).flatMap Block.payload = unstuff (front ++ [last]) := by
  induction front with
  | nil => simp [unstuff, Block.payload, h]
  | cons b front ih =>
      have hne : front ++ [last] ≠ [] :=
        List.append_ne_nil_of_right_ne_nil _ (List.cons_ne_nil _ _)
      rw [List.cons_append, unstuff_cons b hne, List.flatMap_cons, ih]

theorem length_pos_of_last_full : 0 < (unstuff (front ++ [last])).length := by
  rw [← flatMap_payload_of_last_full front h, List.flatMap_append, List.length_append]
  simp [Block.payload, h]

/-- Then `pop_back` removes the last data byte. -/
theorem decode_frame_of_last_full :
    decode (frame (front ++ [last])) = .ok (unstuff (front ++ [last])).dropLast := by
  have hpos := length_pos_of_last_full front h
  rw [decode_frame, flatMap_payload_of_last_full front h]
  cases hout : unstuff (front ++ [last]) with
  | nil =>
      rw [hout] at hpos
      exact absurd hpos (Nat.lt_irrefl 0)
  | cons byte out => rfl

end

/-- A frame made by any encoder is read as the standard says, unless its last code byte is
0xFF. -/
theorem decode_frame_iff (blocks : List Block) (h : blocks ≠ []) :
    decode (frame blocks) = .ok (unstuff blocks) ↔ ∀ b ∈ blocks.getLast?, b.code ≠ 0xFF := by
  have hshort : ∀ b : Block, b.code ≠ 0xFF → b.data.length < 254 := by
    intro b hcode
    exact Nat.lt_of_le_of_ne b.bounded (b.code_eq_max_iff.not.mp hcode)
  constructor
  · intro hread b hb hcode
    have hfull := b.code_eq_max_iff.mp hcode
    obtain ⟨front, rfl⟩ := List.getLast?_eq_some_iff.mp hb
    rw [decode_frame_of_last_full front hfull] at hread
    have hlength := congrArg List.length (Except.ok.inj hread)
    have hpos := length_pos_of_last_full front hfull
    rw [List.length_dropLast] at hlength
    omega
  · intro hlast
    exact decode_frame_of_last_short h fun b hb => hshort b (hlast b hb)

theorem decode_two_short_blocks :
    decode (frame [⟨[17, 34], by decide, by decide⟩, ⟨[51], by decide, by decide⟩]) =
      .ok [17, 34, 0, 51] :=
  (decode_frame_iff [⟨[17, 34], by decide, by decide⟩, ⟨[51], by decide, by decide⟩]
    (List.cons_ne_nil _ _)).mpr (by decide)

/-- 254 times the letter A in one block, with the code byte 0xFF. -/
def fullBlock : Block where
  data := List.replicate 254 65
  nonzero := fun hmem => absurd (List.eq_of_mem_replicate hmem) (by decide)
  bounded := Nat.le_of_eq List.length_replicate

theorem decode_full_block_loses_byte :
    decode (frame [fullBlock]) = .ok (List.replicate 253 65) ∧
      decode (frame [fullBlock]) ≠ .ok (unstuff [fullBlock]) := by
  have hdecode : decode (frame [fullBlock]) = .ok (List.replicate 253 65) := by
    rw [← List.nil_append [fullBlock], decode_frame_of_last_full [] List.length_replicate]
    exact congrArg Except.ok List.dropLast_replicate
  refine ⟨hdecode, ?_⟩
  intro hsame
  have hlength := congrArg List.length (Except.ok.inj (hdecode.symm.trans hsame))
  rw [List.length_replicate, unstuff, fullBlock, List.length_replicate] at hlength
  omega

end MatrixServer.Cobs
