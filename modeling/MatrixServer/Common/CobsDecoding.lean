import MatrixServer.Common.Cobs
import MatrixServer.Foundation.StuffedBlocks

/-!
What the decoder reads.
On a frame made of blocks the two loops of `decode` copy one block per turn and
`pop_back` takes the surplus zero of the last one. On a frame a peer made up the
inner loop trusts the code byte: the reads stay inside the frame exactly when
every code byte announces bytes that are there.
-/

namespace MatrixServer.Cobs
open StuffedBlocks

theorem copyData_append (data input result : Bytes) :
    copyData data.length (data ++ input) result = .ok (input, result ++ data) := by
  induction data generalizing result with
  | nil => simp [copyData]
  | cons byte data ih => simp [copyData, ih]

theorem copyData_short {count : Nat} {input : Bytes} (h : input.length < count)
    (result : Bytes) : copyData count input result = .error .readPastEnd := by
  induction count generalizing input result with
  | zero => exact absurd h (Nat.not_lt_zero _)
  | succ count ih =>
      cases input with
      | nil => rfl
      | cons byte input => exact ih (Nat.lt_of_succ_lt_succ h) _

theorem decodeLoop_nil (result : Bytes) : decodeLoop [] result = .ok result := by
  rw [decodeLoop]

/-- One turn of the outer loop over a code byte and the bytes it announces. -/
theorem decodeLoop_turn (code : UInt8) {data : Bytes} (hdata : data.length = code.toNat - 1)
    (input result : Bytes) :
    decodeLoop (code :: (data ++ input)) result =
      decodeLoop input
        (if code ≠ 0xFF ∧ input ≠ [] then result ++ data ++ [0] else result ++ data) := by
  rw [decodeLoop]
  split
  · rename_i fault hcopy
    rw [← hdata, copyData_append] at hcopy
    cases hcopy
  · rename_i rest out hcopy
    rw [← hdata, copyData_append] at hcopy
    cases hcopy
    rfl

theorem decodeLoop_overrun (code : UInt8) {input : Bytes} (h : input.length < code.toNat - 1)
    (result : Bytes) : decodeLoop (code :: input) result = .error .readPastEnd := by
  rw [decodeLoop]
  split
  · rename_i fault hcopy
    rw [copyData_short h] at hcopy
    cases hcopy
    rfl
  · rename_i rest out hcopy
    rw [copyData_short h] at hcopy
    cases hcopy

theorem decodeLoop_block (b : Block) {input : Bytes} (hinput : input ≠ []) (result : Bytes) :
    decodeLoop (b.wire ++ input) result = decodeLoop input (result ++ b.payload) := by
  have hlen : b.data.length = b.code.toNat - 1 := by rw [b.code_toNat]; rfl
  rw [Block.wire, List.cons_append, decodeLoop_turn b.code hlen]
  by_cases hfull : b.data.length = 254 <;>
    simp [Block.payload, b.code_eq_max_iff, hfull, hinput]

theorem decodeLoop_frame (blocks : List Block) (result : Bytes) :
    decodeLoop (frame blocks) result = .ok (result ++ blocks.flatMap Block.payload) := by
  induction blocks generalizing result with
  | nil =>
      have hturn := decodeLoop_turn 0 (List.length_nil : ([] : Bytes).length = 0) [] result
      simpa [frame, wire, decodeLoop_nil] using hturn
  | cons b blocks ih =>
      have hne : frame blocks ≠ [] := List.append_ne_nil_of_right_ne_nil _ (List.cons_ne_nil _ _)
      have hcons : frame (b :: blocks) = b.wire ++ frame blocks := by simp [frame, wire]
      rw [hcons, decodeLoop_block b hne, ih]
      simp

theorem decode_frame (blocks : List Block) :
    decode (frame blocks) = popBack (blocks.flatMap Block.payload) := by
  rw [decode, decodeLoop_frame]
  simp [bind, Except.bind]

theorem popBack_concat (result : Bytes) (byte : UInt8) :
    popBack (result ++ [byte]) = .ok result := by
  cases result with
  | nil => rfl
  | cons x xs =>
      have hlast : (x :: xs ++ [byte]).dropLast = x :: xs := List.dropLast_concat
      exact congrArg Except.ok hlast

/-- When the last block is not full, its surplus zero is what `pop_back` removes. -/
theorem decode_frame_of_last_short {blocks : List Block} (hne : blocks ≠ [])
    (hlast : ∀ b ∈ blocks.getLast?, b.data.length < 254) :
    decode (frame blocks) = .ok (unstuff blocks) := by
  have hread : blocks.flatMap Block.payload = unstuff blocks ++ [0] := by
    induction blocks with
    | nil => exact absurd rfl hne
    | cons b blocks ih =>
        by_cases hnil : blocks = []
        · subst hnil
          have hshort := Nat.ne_of_lt (hlast b rfl)
          simp [unstuff, Block.payload, hshort]
        · rw [List.getLast?_cons_of_ne_nil hnil] at hlast
          rw [List.flatMap_cons, ih hnil hlast, unstuff_cons b hnil, List.append_assoc]
  rw [decode_frame, hread, popBack_concat]

/-- Every code byte announces bytes that the input holds; the byte after them is
the next code byte. -/
inductive BlocksFit : Bytes → Prop where
  | done : BlocksFit []
  | block (code : UInt8) {data input : Bytes} : data.length = code.toNat - 1 →
      BlocksFit input → BlocksFit (code :: (data ++ input))

theorem decodeLoop_of_blocksFit {input : Bytes} (h : BlocksFit input) (result : Bytes) :
    ∃ out, decodeLoop input result = .ok out := by
  induction h generalizing result with
  | done => exact ⟨result, decodeLoop_nil result⟩
  | block code hdata _ ih =>
      rw [decodeLoop_turn code hdata]
      exact ih _

theorem blocksFit_of_decodeLoop {input result out : Bytes}
    (h : decodeLoop input result = .ok out) : BlocksFit input := by
  induction hn : input.length using Nat.strongRecOn generalizing input result with
  | _ n ih =>
      subst hn
      cases input with
      | nil => exact .done
      | cons code input =>
          by_cases hlen : input.length < code.toNat - 1
          · rw [decodeLoop_overrun code hlen] at h
            cases h
          · have hdata : (input.take (code.toNat - 1)).length = code.toNat - 1 :=
              List.length_take_of_le (Nat.le_of_not_lt hlen)
            rw [← List.take_append_drop (code.toNat - 1) input] at h ⊢
            rw [decodeLoop_turn code hdata] at h
            refine .block code hdata (ih _ ?_ h rfl)
            simp only [List.length_drop, List.length_cons]
            omega

/-- The loops only add to the result. -/
theorem decodeLoop_extends {input result out : Bytes} (h : decodeLoop input result = .ok out) :
    result <+: out := by
  have hfit := blocksFit_of_decodeLoop h
  induction hfit generalizing result with
  | done =>
      rw [decodeLoop_nil] at h
      cases h
      exact List.prefix_refl _
  | @block code data input hdata _ ih =>
      rw [decodeLoop_turn code hdata] at h
      refine List.IsPrefix.trans ?_ (ih h)
      split
      · rw [List.append_assoc]
        exact List.prefix_append _ _
      · exact List.prefix_append _ _

/-- What the stream decoder hands to `decode`. -/
structure StreamFrame (frame : Bytes) : Prop where
  long : 2 < frame.length
  closed : ∃ body, frame = body ++ [0] ∧ 0 ∉ body

theorem StreamFrame.first {frame : Bytes} (h : StreamFrame frame) :
    ∃ code rest, frame = code :: rest ∧ code ≠ 0 ∧ 1 < rest.length := by
  obtain ⟨body, rfl, hbody⟩ := h.closed
  cases body with
  | nil => exact absurd h.long (by simp)
  | cons code rest =>
      refine ⟨code, rest ++ [0], rfl, fun hz => hbody (hz ▸ List.mem_cons_self), ?_⟩
      have hlong := h.long
      simp only [List.cons_append, List.length_cons] at hlong
      omega

theorem StreamFrame.result_ne_nil {frame out : Bytes} (h : StreamFrame frame)
    (hloop : decodeLoop frame [] = .ok out) : out ≠ [] := by
  obtain ⟨code, rest, rfl, hcode, hrest⟩ := h.first
  intro hnil
  subst hnil
  have hfit := blocksFit_of_decodeLoop hloop
  cases hfit with
  | @block _ data input hdata _ =>
      rw [decodeLoop_turn code hdata] at hloop
      have hresult := List.prefix_nil.mp (decodeLoop_extends hloop)
      have hpos : code.toNat ≠ 0 := fun hz => hcode (UInt8.toNat_inj.mp hz)
      split at hresult
      · simp at hresult
      · rename_i hcond
        -- No data and no zero pushed: the block would have to end the frame.
        have hempty : data = [] := by simpa using hresult
        subst hempty
        have hone : code.toNat = 1 := by
          simp only [List.length_nil] at hdata
          omega
        have hinput : input ≠ [] := by
          intro hin
          simp [hin] at hrest
        apply hcond
        refine ⟨?_, hinput⟩
        intro hmax
        simp [hmax] at hone

/-- No read past the end and no `pop_back` on an empty string happens while a
frame is decoded, exactly when its code bytes announce no more than it holds. -/
theorem decode_safe_iff_blocksFit {frame : Bytes} (h : StreamFrame frame) :
    (∃ packet, decode frame = .ok packet) ↔ BlocksFit frame := by
  constructor
  · rintro ⟨packet, hdecode⟩
    cases hloop : decodeLoop frame [] with
    | error fault => simp [decode, hloop, bind, Except.bind] at hdecode
    | ok out => exact blocksFit_of_decodeLoop hloop
  · intro hfit
    obtain ⟨out, hloop⟩ := decodeLoop_of_blocksFit hfit []
    have hne := h.result_ne_nil hloop
    cases out with
    | nil => exact absurd rfl hne
    | cons byte out => exact ⟨_, by simp [decode, hloop, bind, Except.bind, popBack]; rfl⟩

theorem decode_safe_single_block : ∃ packet, decode [2, 65, 0] = .ok packet := by
  refine (decode_safe_iff_blocksFit ⟨by decide, [2, 65], rfl, by decide⟩).mpr ?_
  exact .block 2 (List.length_singleton : [(65 : UInt8)].length = 1)
    (.block 0 (List.length_nil : ([] : Bytes).length = 0) .done)

/-- A code byte that announces four bytes in front of one byte and the delimiter. -/
theorem decode_overruns_short_frame :
    ¬ ∀ frame, StreamFrame frame → ∃ packet, decode frame = .ok packet := by
  intro hsafe
  obtain ⟨packet, hpacket⟩ := hsafe [5, 1, 0] ⟨by decide, [5, 1], rfl, by decide⟩
  have hover : decodeLoop [5, 1, 0] [] = .error .readPastEnd :=
    decodeLoop_overrun 5 (by decide) []
  simp [decode, hover, bind, Except.bind] at hpacket

end MatrixServer.Cobs
