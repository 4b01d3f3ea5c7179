import Mathlib.Data.List.Basic

/-!
The COBS codec of common/Cobs.cpp, on byte lists.
`encode` back-patches code bytes into a zero-filled buffer through the checked
`at`, `decode` walks an iterator that nothing stops at the end of the input, and
the stream decoder cuts its buffer at zero bytes. A fault is what the C++ code
answers with an exception or leaves undefined. The mutex, the reserved
capacities and the log lines have no effect on the values and are left out.
-/

namespace MatrixServer

abbrev Bytes := List UInt8

inductive CobsFault where
  /-- `std::string::at` throws. -/
  | outOfRange
  /-- `*readIndex` with `readIndex == input.end()`. -/
  | readPastEnd
  /-- `pop_back` on an empty string. -/
  | popBackEmpty
  deriving DecidableEq, Repr

namespace Cobs

def maxStreamBufferSize : Nat := 1048576

def encodeDstBufLenMax (srcLen : Nat) : Nat := srcLen + (srcLen + 253) / 254

/-- `result.at(index) = byte` -/
def setAt (result : Bytes) (index : Nat) (byte : UInt8) : Except CobsFault Bytes :=
  if index < result.length then .ok (result.set index byte) else .error .outOfRange

/-- `result.resize(size)` -/
def resize (result : Bytes) (size : Nat) : Bytes :=
  result.take size ++ List.replicate (size - result.length) 0

structure EncodeState where
  result : Bytes
  writeIndex : Nat
  codeIndex : Nat
  code : UInt8

def encodeInit (input : Bytes) : EncodeState where
  result := resize [] (encodeDstBufLenMax input.length + 100)
  writeIndex := 1
  codeIndex := 0
  code := 1

/-- One turn of the loop over the input. -/
def encodeByte (s : EncodeState) (byte : UInt8) : Except CobsFault EncodeState := do
  if byte = 0 then
    let result ← setAt s.result s.codeIndex s.code
    return { result, code := 1, codeIndex := s.writeIndex, writeIndex := s.writeIndex + 1 }
  else
    let result ← setAt s.result s.writeIndex byte
    let code := s.code + 1
    if code = 0xFF then
      let result ← setAt result s.codeIndex code
      return { result, code := 1, codeIndex := s.writeIndex + 1, writeIndex := s.writeIndex + 2 }
    else
      return { s with result, code, writeIndex := s.writeIndex + 1 }

def encode (input : Bytes) : Except CobsFault Bytes := do
  let s ← input.foldlM encodeByte (encodeInit input)
  let result ← setAt s.result s.codeIndex s.code
  return resize result (s.writeIndex + 1)

/-- The inner loop `for (auto i = 1; i < code; i++) result.push_back(*readIndex++)`. -/
def copyData : Nat → Bytes → Bytes → Except CobsFault (Bytes × Bytes)
  | 0, input, result => .ok (input, result)
  | _ + 1, [], _ => .error .readPastEnd
  | count + 1, byte :: input, result => copyData count input (result ++ [byte])

theorem copyData_ok {count : Nat} {input result : Bytes} {r : Bytes × Bytes}
    (h : copyData count input result = .ok r) :
    ∃ data, data.length = count ∧ input = data ++ r.1 ∧ r.2 = result ++ data := by
  induction count generalizing input result with
  | zero =>
      cases h
      exact ⟨[], rfl, rfl, (List.append_nil _).symm⟩
  | succ count ih =>
      cases input with
      | nil => cases h
      | cons byte input =>
          obtain ⟨data, hlen, hin, hout⟩ := ih h
          exact ⟨byte :: data, by simp [hlen], by simp [hin], by simp [hout]⟩

/-- The outer loop; `input` is what lies between `readIndex` and `input.end()`. -/
def decodeLoop (input result : Bytes) : Except CobsFault Bytes :=
  match input with
  | [] => .ok result
  | code :: input =>
      match h : copyData (code.toNat - 1) input result with
      | .error fault => .error fault
      | .ok (rest, result) =>
          decodeLoop rest (if code ≠ 0xFF ∧ rest ≠ [] then result ++ [0] else result)
termination_by input.length
decreasing_by
  obtain ⟨data, _, hin, _⟩ := copyData_ok h
  simp only [hin, List.length_cons, List.length_append]
  omega

/-- `result.pop_back()` -/
def popBack : Bytes → Except CobsFault Bytes
  | [] => .error .popBackEmpty
  | byte :: result => .ok (byte :: result).dropLast

def decode (input : Bytes) : Except CobsFault Bytes := do
  let result ← decodeLoop input []
  popBack result

end Cobs

/-- A stream decoder; `decode` may meet a frame no encoder made, so each returned
packet is the outcome of its `decode` call. -/
structure Cobs where
  internalStreamBuffer : Bytes := []
  deriving DecidableEq

namespace Cobs

abbrev Packet := Except CobsFault Bytes

/-- One turn of the loop over the received bytes. -/
def insertByte (s : Cobs × List Packet) (byte : UInt8) : Cobs × List Packet :=
  if byte ≠ 0 then
    (⟨s.1.internalStreamBuffer ++ [byte]⟩, s.2)
  else
    let buffer := s.1.internalStreamBuffer ++ [0]
    (⟨[]⟩, if buffer.length > 2 then s.2 ++ [decode buffer] else s.2)

/-- The check in front of the loop; a call that trips it only clears the buffer. -/
def exceedsMaxSize (c : Cobs) (inputData : Bytes) : Prop :=
  c.internalStreamBuffer.length + inputData.length > maxStreamBufferSize

instance (c : Cobs) (inputData : Bytes) : Decidable (c.exceedsMaxSize inputData) :=
  inferInstanceAs (Decidable (_ > _))

def insertBytesAndReturnDecodedPackets (c : Cobs) (inputData : Bytes) : Cobs × List Packet :=
  if c.exceedsMaxSize inputData then (⟨[]⟩, [])
  else inputData.foldl insertByte (c, [])

end Cobs
end MatrixServer
