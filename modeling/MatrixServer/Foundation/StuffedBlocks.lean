import Mathlib.Data.List.Basic
import Mathlib.Algebra.GroupWithZero.Nat

/-!
Byte stuffing by blocks.
A block carries up to 254 non-zero bytes behind a code byte that says how many
follow. A block shorter than that also stands for a zero byte, except at the
end of a frame. Cutting a byte string into blocks and reading the blocks back
are inverse, and no byte of the blocks is zero, so zero can end the frame. A byte
string is cut at its zeros and after every 254 bytes without one.
-/

namespace StuffedBlocks

structure Block where
  data : List UInt8
  nonzero : 0 ∉ data
  bounded : data.length ≤ 254

namespace Block

def code (b : Block) : UInt8 := UInt8.ofNat (b.data.length + 1)

def wire (b : Block) : List UInt8 := b.code :: b.data

/-- What the block contributes in front of another block. -/
def payload (b : Block) : List UInt8 :=
  if b.data.length = 254 then b.data else b.data ++ [0]

theorem code_toNat (b : Block) : b.code.toNat = b.data.length + 1 := by
  have h := b.bounded
  simp only [code, UInt8.toNat_ofNat']
  omega

theorem code_ne_zero (b : Block) : b.code ≠ 0 := by
  intro h
  have := b.code_toNat
  simp [h] at this

theorem code_eq_max_iff (b : Block) : b.code = 0xFF ↔ b.data.length = 254 := by
  rw [← UInt8.toNat_inj, code_toNat]
  simp

theorem zero_not_mem_wire (b : Block) : 0 ∉ b.wire := by
  intro h
  cases List.mem_cons.mp h with
  | inl hcode => exact b.code_ne_zero hcode.symm
  | inr hdata => exact b.nonzero hdata

end Block

/-- The code bytes and data bytes of a list of blocks. -/
def wire (blocks : List Block) : List UInt8 := blocks.flatMap Block.wire

def frame (blocks : List Block) : List UInt8 := wire blocks ++ [0]

/-- The standard reading: a zero between blocks, unless the earlier one is full. -/
def unstuff : List Block → List UInt8
  | [] => []
  | [b] => b.data
  | b :: blocks => b.payload ++ unstuff blocks

theorem zero_not_mem_wire (blocks : List Block) : 0 ∉ wire blocks := by
  intro h
  obtain ⟨b, _, hb⟩ := List.mem_flatMap.mp h
  exact b.zero_not_mem_wire hb

theorem wire_concat (blocks : List Block) (b : Block) :
    wire (blocks ++ [b]) = wire blocks ++ b.wire := by
  simp [wire]

/-- A block that is still being filled: it can take at least one more byte. -/
structure OpenBlock extends Block where
  hasRoom : data.length < 254

namespace OpenBlock

def empty : OpenBlock := ⟨⟨[], List.not_mem_nil, Nat.zero_le _⟩, by decide⟩

/-- Add a byte: either the block stays open or it is full. -/
def push (run : OpenBlock) (byte : UInt8) (hbyte : byte ≠ 0) : Block :=
  ⟨run.data ++ [byte],
    fun h => by
      cases List.mem_append.mp h with
      | inl hd => exact run.nonzero hd
      | inr hl => exact hbyte (List.mem_singleton.mp hl).symm,
    by
      have := run.hasRoom
      simp only [List.length_append, List.length_singleton]
      omega⟩

@[simp] theorem empty_data : empty.data = [] := rfl

@[simp] theorem push_data (run : OpenBlock) (byte : UInt8) (h : byte ≠ 0) :
    (run.push byte h).data = run.data ++ [byte] := rfl

end OpenBlock

/-- Cut a byte string into blocks, starting with a partly filled one. -/
def stuffFrom : OpenBlock → List UInt8 → List Block
  | run, [] => [run.toBlock]
  | run, byte :: rest =>
      if hzero : byte = 0 then run.toBlock :: stuffFrom .empty rest
      else if hroom : (run.push byte hzero).data.length < 254 then
        stuffFrom ⟨run.push byte hzero, hroom⟩ rest
      else run.push byte hzero :: stuffFrom .empty rest

def stuff (input : List UInt8) : List Block := stuffFrom .empty input

theorem stuffFrom_ne_nil (run : OpenBlock) (input : List UInt8) : stuffFrom run input ≠ [] := by
  induction input generalizing run with
  | nil => exact List.cons_ne_nil _ _
  | cons byte rest ih =>
      simp only [stuffFrom]
      split
      · exact List.cons_ne_nil _ _
      · split
        · exact ih _
        · exact List.cons_ne_nil _ _

theorem unstuff_cons (b : Block) {blocks : List Block} (h : blocks ≠ []) :
    unstuff (b :: blocks) = b.payload ++ unstuff blocks := by
  cases blocks with
  | nil => exact absurd rfl h
  | cons _ _ => rfl

theorem unstuff_stuffFrom (run : OpenBlock) (input : List UInt8) :
    unstuff (stuffFrom run input) = run.data ++ input := by
  induction input generalizing run with
  | nil => simp [stuffFrom, unstuff]
  | cons byte rest ih =>
      simp only [stuffFrom]
      split
      · rename_i hzero
        have hshort : run.data.length ≠ 254 := Nat.ne_of_lt run.hasRoom
        rw [unstuff_cons _ (stuffFrom_ne_nil _ _), ih]
        simp [Block.payload, hshort, hzero]
      · split
        · rw [ih]
          simp
        · rename_i hzero hroom
          have hfull : (run.push byte hzero).data.length = 254 :=
            Nat.le_antisymm (run.push byte hzero).bounded (Nat.le_of_not_lt hroom)
          rw [unstuff_cons _ (stuffFrom_ne_nil _ _), ih]
          simp only [Block.payload, hfull, if_true]
          simp

theorem unstuff_stuff (input : List UInt8) : unstuff (stuff input) = input := by
  simp [stuff, unstuff_stuffFrom]

/-- The last block of a cut string is never full, so it stands for no byte of its own. -/
theorem stuffFrom_last_short (run : OpenBlock) (input : List UInt8) :
    ∀ b ∈ (stuffFrom run input).getLast?, b.data.length < 254 := by
  induction input generalizing run with
  | nil =>
      intro b hb
      cases Option.mem_def.mp hb
      exact run.hasRoom
  | cons byte rest ih =>
      simp only [stuffFrom]
      split
      · rw [List.getLast?_cons_of_ne_nil (stuffFrom_ne_nil _ _)]
        exact ih _
      · split
        · exact ih _
        · rw [List.getLast?_cons_of_ne_nil (stuffFrom_ne_nil _ _)]
          exact ih _

theorem stuff_ne_nil (input : List UInt8) : stuff input ≠ [] := stuffFrom_ne_nil _ _

theorem stuff_last_short (input : List UInt8) :
    ∀ b ∈ (stuff input).getLast?, b.data.length < 254 := stuffFrom_last_short _ _

/-- The runs of 254 bytes that a byte string completes: a piece between two zeros holds as many
as fit into it. -/
def fullRuns (input : List UInt8) : Nat :=
  ((input.splitOn 0).map fun piece => piece.length / 254).sum

theorem fullRuns_nonzero {front : List UInt8} (h : 0 ∉ front) :
    fullRuns front = front.length / 254 := by
  rw [fullRuns, List.splitOn_eq_singleton h, List.map_singleton, List.sum_singleton]

theorem fullRuns_zero {front : List UInt8} (h : 0 ∉ front) (rest : List UInt8) :
    fullRuns (front ++ 0 :: rest) = front.length / 254 + fullRuns rest := by
  rw [fullRuns, List.splitOn_append_cons_self_of_not_mem h, List.map_cons, List.sum_cons,
    fullRuns]

/-- A run that is completed counts, and the next one starts behind it. -/
theorem fullRuns_full {front : List UInt8} (h : 0 ∉ front) (hfull : front.length = 254)
    (rest : List UInt8) : fullRuns (front ++ rest) = fullRuns rest + 1 := by
  have hjoin : ∀ {piece : List UInt8}, 0 ∉ piece → 0 ∉ front ++ piece := by
    intro piece hpiece hmem
    exact (List.mem_append.mp hmem).elim h hpiece
  cases Decidable.em (0 ∈ rest) with
  | inl hmem =>
      obtain ⟨piece, rest, rfl, hpiece⟩ := List.eq_append_cons_of_mem hmem
      rw [← List.append_assoc, fullRuns_zero (hjoin hpiece), fullRuns_zero hpiece,
        List.length_append, hfull]
      omega
  | inr hmem =>
      rw [fullRuns_nonzero (hjoin hmem), fullRuns_nonzero hmem, List.length_append, hfull]
      omega

theorem fullRuns_le (input : List UInt8) : fullRuns input ≤ input.length / 254 := by
  induction hn : input.length using Nat.strongRecOn generalizing input with
  | _ n ih =>
      subst hn
      cases Decidable.em (0 ∈ input) with
      | inl hmem =>
          obtain ⟨piece, rest, rfl, hpiece⟩ := List.eq_append_cons_of_mem hmem
          have hrest := ih rest.length (by simp; omega) rest rfl
          rw [fullRuns_zero hpiece, List.length_append, List.length_cons]
          omega
      | inr hmem => exact Nat.le_of_eq (fullRuns_nonzero hmem)

/-- A block costs one byte more than it carries, and each zero is the end of one. -/
theorem length_wire_stuffFrom (run : OpenBlock) (input : List UInt8) :
    (wire (stuffFrom run input)).length =
      run.data.length + input.length + fullRuns (run.data ++ input) + 1 := by
  have hcons : ∀ (b : Block) (blocks : List Block),
      (wire (b :: blocks)).length = (b.data.length + 1) + (wire blocks).length := by
    intro b blocks
    rw [wire, List.flatMap_cons, List.length_append, Block.wire, List.length_cons, wire]
  induction input generalizing run with
  | nil =>
      have hshort := Nat.div_eq_of_lt run.hasRoom
      rw [List.append_nil, fullRuns_nonzero run.nonzero, hshort, stuffFrom, hcons]
      rfl
  | cons byte rest ih =>
      rw [stuffFrom]
      split
      · rename_i hzero
        have hshort := Nat.div_eq_of_lt run.hasRoom
        rw [hzero, hcons, ih, fullRuns_zero run.nonzero, hshort]
        simp only [OpenBlock.empty_data, List.length_nil, List.nil_append, List.length_cons]
        omega
      · rename_i hzero
        have hpushed : run.data ++ byte :: rest = (run.push byte hzero).data ++ rest := by
          rw [OpenBlock.push_data, List.append_assoc, List.singleton_append]
        have hlength : (run.push byte hzero).data.length = run.data.length + 1 := by
          rw [OpenBlock.push_data, List.length_append, List.length_singleton]
        rw [hpushed]
        split
        · simp only [ih, hlength, List.length_cons]
          omega
        · rename_i hroom
          have hfull : (run.push byte hzero).data.length = 254 :=
            Nat.le_antisymm (run.push byte hzero).bounded (Nat.le_of_not_lt hroom)
          rw [hcons, ih, fullRuns_full (run.push byte hzero).nonzero hfull]
          simp only [OpenBlock.empty_data, List.length_nil, List.nil_append, List.length_cons]
          omega

theorem length_frame_stuff (input : List UInt8) :
    (frame (stuff input)).length = input.length + 2 + fullRuns input := by
  rw [frame, List.length_append, stuff, length_wire_stuffFrom]
  simp only [OpenBlock.empty_data, List.length_nil, List.nil_append, List.length_singleton]
  omega

/-- Reading code bytes from the start: a code byte `c` is followed by `c - 1` bytes, and the next
code byte stands behind them. -/
inductive StepsTo (rest : List UInt8) : List UInt8 → Prop where
  | here : StepsTo rest rest
  | step {code : UInt8} {data input : List UInt8} : code ≠ 0 → data.length = code.toNat - 1 →
      StepsTo rest input → StepsTo rest (code :: (data ++ input))

theorem stepsTo_frame (blocks : List Block) : StepsTo [0] (frame blocks) := by
  induction blocks with
  | nil => exact .here
  | cons b blocks ih =>
      have hframe : frame (b :: blocks) = b.code :: (b.data ++ frame blocks) := by
        simp [frame, wire, Block.wire]
      rw [hframe]
      refine .step b.code_ne_zero ?_ ih
      rw [b.code_toNat, Nat.add_sub_cancel]

end StuffedBlocks
