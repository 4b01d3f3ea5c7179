import Mathlib.Data.List.Basic

/-!
The commands of a serial engine with chip select, as FTDI's MPSSE has them.
A command sets the output pins or clocks out a chunk of bytes whose number less one is
sent in two bytes. What is clocked out while the chip is selected is a packet.
-/

namespace SerialCommands

/-- The bytes of one transfer. -/
structure Chunk where
  bytes : List UInt8
  nonempty : 0 < bytes.length
  short : bytes.length ≤ 65536
  deriving DecidableEq

inductive Command where
  /-- Set data bits, low byte. -/
  | setLow (value direction : UInt8)
  /-- Clock bytes out, and in as well if asked to. -/
  | transfer (reads : Bool) (chunk : Chunk)
  deriving DecidableEq

def lengthBytes (n : Nat) : List UInt8 := [UInt8.ofNat (n - 1), UInt8.ofNat ((n - 1) >>> 8)]

def opcode (reads : Bool) : UInt8 := if reads then 0x31 else 0x11

def Command.encode : Command → List UInt8
  | .setLow value direction => [0x80, value, direction]
  | .transfer reads chunk => opcode reads :: (lengthBytes chunk.bytes.length ++ chunk.bytes)

theorem length_take_chunk {n : Nat} {bytes : List UInt8}
    (h : (0 < n ∧ n ≤ 65536) ∧ n ≤ bytes.length) :
    0 < (bytes.take n).length ∧ (bytes.take n).length ≤ 65536 := by
  rw [List.length_take]
  omega

/-- The bytes of a transfer of `n` bytes, and what follows them. -/
def readChunk (n : Nat) (bytes : List UInt8) : Option (Chunk × List UInt8) :=
  if h : (0 < n ∧ n ≤ 65536) ∧ n ≤ bytes.length then
    some (⟨bytes.take n, (length_take_chunk h).1, (length_take_chunk h).2⟩, bytes.drop n)
  else none

/-- The engine reads one command. -/
def readOne : List UInt8 → Option (Command × List UInt8)
  | code :: first :: second :: rest =>
      if code = 0x80 then some (.setLow first second, rest)
      else if code = 0x11 ∨ code = 0x31 then
        (readChunk (first.toNat + 256 * second.toNat + 1) rest).map fun chunk =>
          (.transfer (code = 0x31) chunk.1, chunk.2)
      else none
  | _ => none

/-- It reads at most so many commands. -/
def readAll : Nat → List UInt8 → Option (List Command)
  | _, [] => some []
  | 0, _ => none
  | fuel + 1, bytes =>
      (readOne bytes).bind fun first => (readAll fuel first.2).map (first.1 :: ·)

def read (bytes : List UInt8) : Option (List Command) := readAll bytes.length bytes

theorem lengthBytes_value {n : Nat} (hpos : 0 < n) (hshort : n ≤ 65536) :
    (UInt8.ofNat (n - 1)).toNat + 256 * (UInt8.ofNat ((n - 1) >>> 8)).toNat + 1 = n := by
  simp only [UInt8.toNat_ofNat', Nat.shiftRight_eq_div_pow]
  omega

theorem readChunk_append (chunk : Chunk) (rest : List UInt8) :
    readChunk chunk.bytes.length (chunk.bytes ++ rest) = some (chunk, rest) := by
  rw [readChunk, dif_pos ⟨⟨chunk.nonempty, chunk.short⟩, by simp⟩]
  simp

theorem readOne_encode (command : Command) (rest : List UInt8) :
    readOne (command.encode ++ rest) = some (command, rest) := by
  cases command with
  | setLow value direction => rfl
  | transfer reads chunk =>
      have hchunk := readChunk_append chunk rest
      rw [← lengthBytes_value chunk.nonempty chunk.short] at hchunk
      cases reads with
      | false => exact congrArg (Option.map _) hchunk
      | true => exact congrArg (Option.map _) hchunk

theorem encode_nonempty (command : Command) : 1 ≤ command.encode.length := by
  cases command <;> simp [Command.encode]

theorem readAll_encode (commands : List Command) {fuel : Nat} (h : commands.length ≤ fuel) :
    readAll fuel (commands.flatMap Command.encode) = some commands := by
  induction commands generalizing fuel with
  | nil => cases fuel <;> rfl
  | cons command commands ih =>
      cases fuel with
      | zero => cases h
      | succ fuel =>
          rw [List.flatMap_cons]
          have hone := readOne_encode command (commands.flatMap Command.encode)
          have hrest := ih (Nat.le_of_succ_le_succ h)
          cases hbytes : command.encode ++ commands.flatMap Command.encode with
          | nil =>
              have hlength := congrArg List.length hbytes
              have hpos := encode_nonempty command
              simp only [List.length_append, List.length_nil] at hlength
              omega
          | cons byte bytes =>
              rw [hbytes] at hone
              simp only [readAll, hone, Option.bind_some, hrest, Option.map_some]

/-- The engine reads a stream of commands back. -/
theorem read_encode (commands : List Command) :
    read (commands.flatMap Command.encode) = some commands := by
  refine readAll_encode commands ?_
  induction commands with
  | nil => exact Nat.le_refl 0
  | cons command commands ih =>
      have hpos := encode_nonempty command
      simp only [List.flatMap_cons, List.length_append, List.length_cons]
      omega

/-- The output pins that select the chip are low while it is selected. -/
structure Bus where
  selected : Bool := false
  packet : List UInt8 := []
  packets : List (List UInt8) := []

namespace Bus

def step (mask : UInt8) (b : Bus) : Command → Bus
  | .setLow value _ =>
      if value &&& mask = 0 then
        { b with selected := true, packet := if b.selected then b.packet else [] }
      else
        { selected := false
          packet := []
          packets := if b.selected then b.packets ++ [b.packet] else b.packets }
  | .transfer _ chunk => if b.selected then { b with packet := b.packet ++ chunk.bytes } else b

/-- What the chip gets. -/
def packetsOf (mask : UInt8) (commands : List Command) : List (List UInt8) :=
  (commands.foldl (step mask) {}).packets

end Bus

/-- Select the chip, transfer, release the chip. -/
def packetCommands (high direction : UInt8) (reads : Bool) (chunk : Chunk) : List Command :=
  [.setLow 0 direction, .transfer reads chunk, .setLow high direction]

theorem foldl_packetCommands {mask high : UInt8} (hhigh : high &&& mask ≠ 0) (direction : UInt8)
    (transfers : List (Bool × Chunk)) (packets : List (List UInt8)) :
    ((transfers.flatMap fun transfer =>
        packetCommands high direction transfer.1 transfer.2).foldl (Bus.step mask)
      { packets }) = { packets := packets ++ transfers.map fun transfer => transfer.2.bytes } := by
  induction transfers generalizing packets with
  | nil => simp
  | cons transfer transfers ih =>
      have hone : (packetCommands high direction transfer.1 transfer.2).foldl (Bus.step mask)
          { packets } = { packets := packets ++ [transfer.2.bytes] } := by
        simp [packetCommands, Bus.step, hhigh]
      rw [List.flatMap_cons, List.foldl_append, hone, ih]
      simp

/-- Transfers that each select and release the chip are its packets. -/
theorem packetsOf_packetCommands {mask high : UInt8} (hhigh : high &&& mask ≠ 0)
    (direction : UInt8) (transfers : List (Bool × Chunk)) :
    Bus.packetsOf mask (transfers.flatMap fun transfer =>
      packetCommands high direction transfer.1 transfer.2) =
      transfers.map fun transfer => transfer.2.bytes := by
  have hbus := foldl_packetCommands hhigh direction transfers []
  exact congrArg Bus.packets hbus

end SerialCommands
