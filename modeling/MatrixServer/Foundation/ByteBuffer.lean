import Mathlib.Logic.Function.Basic
import MatrixServer.Foundation.KeyedWrites

/-!
A buffer of bytes that is written in place, counted from wherever the reader likes.
What was written at a place is read from there, the rest of the buffer stays, and of the
little-endian words stored at even places each place keeps the last one.
-/

namespace ByteBuffer

abbrev Buffer := Int → UInt8

def write (buf : Buffer) (start : Int) : List UInt8 → Buffer
  | [] => buf
  | byte :: bytes => write (Function.update buf start byte) (start + 1) bytes

def read (buf : Buffer) (start : Int) : Nat → List UInt8
  | 0 => []
  | count + 1 => buf start :: read buf (start + 1) count

theorem read_length (buf : Buffer) (start : Int) (count : Nat) :
    (read buf start count).length = count := by
  induction count generalizing start with
  | zero => rfl
  | succ count ih => rw [read, List.length_cons, ih]

theorem read_add (buf : Buffer) (start : Int) (m n : Nat) :
    read buf start (m + n) = read buf start m ++ read buf (start + m) n := by
  induction m generalizing start with
  | zero => simp [read]
  | succ m ih =>
      rw [Nat.add_right_comm, read, read, List.cons_append, ih (start + 1)]
      have hplace : start + 1 + (m : Int) = start + ((m + 1 : Nat) : Int) := by omega
      rw [hplace]

theorem read_congr {buf buf' : Buffer} {start : Int} {count : Nat}
    (h : ∀ place, start ≤ place → place < start + count → buf place = buf' place) :
    read buf start count = read buf' start count := by
  induction count generalizing start with
  | zero => rfl
  | succ count ih =>
      rw [read, read, h start (Int.le_refl _) (by omega)]
      rw [ih fun place hlow hhigh => h place (by omega) (by omega)]

theorem read_getElem? (buf : Buffer) (start : Int) {count index : Nat} (h : index < count) :
    (read buf start count)[index]? = some (buf (start + index)) := by
  induction count generalizing start index with
  | zero => cases h
  | succ count ih =>
      cases index with
      | zero => simp [read]
      | succ index =>
          rw [read, List.getElem?_cons_succ, ih (start + 1) (by omega)]
          have hplace : start + 1 + (index : Int) = start + ((index + 1 : Nat) : Int) := by omega
          rw [hplace]

/-- Bytes outside of what is written stay. -/
theorem write_outside (buf : Buffer) {start place : Int} {bytes : List UInt8}
    (h : place < start ∨ start + bytes.length ≤ place) :
    write buf start bytes place = buf place := by
  induction bytes generalizing buf start with
  | nil => rfl
  | cons byte bytes ih =>
      rw [List.length_cons] at h
      rw [write, ih _ (by omega), Function.update_of_ne (by omega)]

theorem read_write (buf : Buffer) (start : Int) (bytes : List UInt8) :
    read (write buf start bytes) start bytes.length = bytes := by
  induction bytes generalizing buf start with
  | nil => rfl
  | cons byte bytes ih =>
      rw [List.length_cons, read, write, ih, write_outside _ (.inl (by omega)),
        Function.update_self]

theorem read_write_outside (buf : Buffer) {start place : Int} {count : Nat} {bytes : List UInt8}
    (h : place + count ≤ start ∨ start + bytes.length ≤ place) :
    read (write buf start bytes) place count = read buf place count :=
  read_congr fun other hlow hhigh => write_outside buf (by omega)

/-- A 16-bit store on a little-endian machine. -/
def storeWord (buf : Buffer) (offset : Int) (word : UInt16) : Buffer :=
  write buf offset [word.toUInt8, (word >>> 8).toUInt8]

theorem storeWord_bytes (buf : Buffer) (offset : Int) (word : UInt16) :
    storeWord buf offset word offset = word.toUInt8 ∧
      storeWord buf offset word (offset + 1) = (word >>> 8).toUInt8 := by
  constructor
  · rw [storeWord, write, write_outside _ (.inl (by omega)), Function.update_self]
  · rw [storeWord, write, write, write, Function.update_self]

/-- The word that little-endian bytes have at an offset. -/
def wordAt (bytes : List UInt8) (offset : Nat) : Option UInt16 :=
  bytes[offset]?.bind fun low => bytes[offset + 1]?.map fun high =>
    UInt16.ofNat (low.toNat + 256 * high.toNat)

theorem word_bytes (word : UInt16) :
    UInt16.ofNat (word.toUInt8.toNat + 256 * (word >>> 8).toUInt8.toNat) = word := by
  have hlt := word.toNat_lt
  apply UInt16.toNat_inj.mp
  simp [Nat.shiftRight_eq_div_pow]
  omega

section
variable {Entry : Type} (offset : Entry → Int) (word : Entry → Option UInt16)

/-- Stores one after the other; an entry without a word stores nothing. -/
def storeAll (buf : Buffer) (entries : List Entry) : Buffer :=
  entries.foldl (fun buf entry => (word entry).elim buf (storeWord buf (offset entry))) buf

theorem storeAll_outside (buf : Buffer) {entries : List Entry} {place : Int}
    (h : ∀ entry ∈ entries, place < offset entry ∨ offset entry + 2 ≤ place) :
    storeAll offset word buf entries place = buf place := by
  induction entries generalizing buf with
  | nil => rfl
  | cons entry entries ih =>
      have hrest := fun buf => ih buf fun other hother => h other (List.mem_cons_of_mem _ hother)
      rw [storeAll, List.foldl_cons]
      refine (hrest _).trans ?_
      cases word entry with
      | none => rfl
      | some w => exact write_outside buf (h entry List.mem_cons_self)

/-- The bytes at an even offset are those of the last word stored there. -/
theorem storeAll_even (buf : Buffer) {entries : List Entry}
    (heven : ∀ entry ∈ entries, offset entry % 2 = 0) {k : Int} (hk : k % 2 = 0) {w : UInt16}
    (h : (KeyedWrites.lastFor offset k entries).bind word = some w) :
    storeAll offset word buf entries k = w.toUInt8 ∧
      storeAll offset word buf entries (k + 1) = (w >>> 8).toUInt8 := by
  induction entries using List.reverseRecOn with
  | nil => cases h
  | append_singleton entries entry ih =>
      have hprev := ih fun other hother => heven other (List.mem_append_left _ hother)
      have hentry := heven entry (List.mem_append_right _ List.mem_cons_self)
      rw [KeyedWrites.lastFor_concat] at h
      rw [storeAll, List.foldl_append, List.foldl_cons, List.foldl_nil]
      by_cases hat : offset entry = k
      · rw [if_pos hat, Option.bind_some] at h
        rw [h, hat]
        exact storeWord_bytes _ k w
      · rw [if_neg hat] at h
        obtain ⟨hlow, hhigh⟩ := hprev h
        cases word entry with
        | none => exact ⟨hlow, hhigh⟩
        | some other =>
            constructor
            · refine (write_outside _ ?_).trans hlow
              simp only [List.length_cons, List.length_nil]
              omega
            · refine (write_outside _ ?_).trans hhigh
              simp only [List.length_cons, List.length_nil]
              omega

/-- In bytes read from the buffer the last word stored at an even offset is found again. -/
theorem wordAt_storeAll (buf : Buffer) {entries : List Entry}
    (heven : ∀ entry ∈ entries, offset entry % 2 = 0) {k count : Nat} (hk : k % 2 = 0)
    (hcount : k + 2 ≤ count) {w : UInt16}
    (h : (KeyedWrites.lastFor offset k entries).bind word = some w) :
    wordAt (read (storeAll offset word buf entries) 0 count) k = some w := by
  obtain ⟨hlow, hhigh⟩ := storeAll_even offset word buf heven (k := k) (by omega) h
  have hnext : (0 : Int) + ((k + 1 : Nat) : Int) = k + 1 := by omega
  rw [wordAt, read_getElem? _ _ (by omega), read_getElem? _ _ (by omega), Option.bind_some,
    Option.map_some, hnext, Int.zero_add, hlow, hhigh, word_bytes]

end

end ByteBuffer
