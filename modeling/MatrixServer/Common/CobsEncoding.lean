import MatrixServer.Common.CobsDecoding

/-!
What the encoder writes.
While the loop runs, the buffer holds the finished blocks, a place kept for the
code byte of the open block, that block's bytes and untouched zeros. The places
behind the code index are enough for what is still to come, so no `at` throws
and the result is the frame of the input's blocks.
-/

namespace MatrixServer.Cobs
open StuffedBlocks

/-- The state after writing `done` and part of the block `run`, with `room` bytes left. -/
structure Filled (s : EncodeState) (done : List Block) (run : OpenBlock) (room : Nat) : Prop where
  result : s.result = wire done ++ 0 :: (run.data ++ List.replicate room 0)
  codeIndex : s.codeIndex = (wire done).length
  writeIndex : s.writeIndex = (wire done).length + 1 + run.data.length
  code : s.code = run.code

theorem setAt_middle (front back : Bytes) (old byte : UInt8) :
    setAt (front ++ old :: back) front.length byte = .ok (front ++ byte :: back) := by
  simp [setAt]

/-- Writing the open block's code byte finishes it. -/
theorem Filled.setCode {s : EncodeState} {done : List Block} {run : OpenBlock} {room : Nat}
    (h : Filled s done run room) :
    setAt s.result s.codeIndex s.code =
      .ok (wire (done ++ [run.toBlock]) ++ List.replicate room 0) := by
  rw [h.result, h.codeIndex, h.code, setAt_middle, wire_concat]
  simp [Block.wire]

/-- Writing a byte behind the open block takes one byte of the room. -/
theorem Filled.setData {s : EncodeState} {done : List Block} {run : OpenBlock} {room : Nat}
    (h : Filled s done run (room + 1)) (byte : UInt8) :
    setAt s.result s.writeIndex byte =
      .ok (wire done ++ 0 :: ((run.data ++ [byte]) ++ List.replicate room 0)) := by
  have hres : s.result =
      (wire done ++ 0 :: run.data) ++ 0 :: List.replicate room 0 := by
    rw [h.result, List.replicate_succ]
    simp
  have hidx : s.writeIndex = (wire done ++ 0 :: run.data).length := by
    rw [h.writeIndex]
    simp only [List.length_append, List.length_cons]
    omega
  rw [hres, hidx, setAt_middle]
  simp

theorem length_wire_concat (done : List Block) (b : Block) :
    (wire (done ++ [b])).length = (wire done).length + 1 + b.data.length := by
  rw [wire_concat]
  simp only [List.length_append, Block.wire, List.length_cons]
  omega

theorem encodeByte_zero {s : EncodeState} {done : List Block} {run : OpenBlock} {room : Nat}
    (h : Filled s done run (room + 1)) :
    ∃ s', encodeByte s 0 = .ok s' ∧ Filled s' (done ++ [run.toBlock]) .empty room := by
  refine ⟨_, by simp only [encodeByte, if_pos, h.setCode]; rfl, ?_, ?_, ?_, rfl⟩
  · simp [List.replicate_succ]
  · rw [h.writeIndex, length_wire_concat]
  · simp only [h.writeIndex, length_wire_concat, OpenBlock.empty_data, List.length_nil]

theorem code_push (run : OpenBlock) {byte : UInt8} (hbyte : byte ≠ 0) :
    run.code + 1 = (run.push byte hbyte).code := by
  rw [← UInt8.toNat_inj, UInt8.toNat_add, Block.code_toNat, Block.code_toNat]
  have := run.hasRoom
  simp only [OpenBlock.push_data, List.length_append, List.length_singleton]
  have hone : (1 : UInt8).toNat = 1 := rfl
  omega

theorem encodeByte_push {s : EncodeState} {done : List Block} {run : OpenBlock} {room : Nat}
    (h : Filled s done run (room + 1)) {byte : UInt8} (hbyte : byte ≠ 0)
    (hroom : (run.push byte hbyte).data.length < 254) :
    ∃ s', encodeByte s byte = .ok s' ∧ Filled s' done ⟨run.push byte hbyte, hroom⟩ room := by
  have hcode : s.code + 1 = (run.push byte hbyte).code := by rw [h.code, code_push]
  have hmax : s.code + 1 ≠ 0xFF := by
    rw [hcode, ne_eq, Block.code_eq_max_iff]
    exact Nat.ne_of_lt hroom
  refine ⟨⟨wire done ++ 0 :: ((run.data ++ [byte]) ++ List.replicate room 0), s.writeIndex + 1,
    s.codeIndex, s.code + 1⟩, ?_, rfl, h.codeIndex, ?_, hcode⟩
  · simp only [encodeByte, if_neg hbyte, h.setData, bind, Except.bind, hmax, if_false]
    rfl
  · simp only [h.writeIndex, OpenBlock.push_data, List.length_append, List.length_singleton]
    omega

theorem encodeByte_full {s : EncodeState} {done : List Block} {run : OpenBlock} {room : Nat}
    (h : Filled s done run (room + 2)) {byte : UInt8} (hbyte : byte ≠ 0)
    (hroom : ¬ (run.push byte hbyte).data.length < 254) :
    ∃ s', encodeByte s byte = .ok s' ∧ Filled s' (done ++ [run.push byte hbyte]) .empty room := by
  have hcode : s.code + 1 = (run.push byte hbyte).code := by rw [h.code, code_push]
  have hfull : (run.push byte hbyte).data.length = 254 :=
    Nat.le_antisymm (run.push byte hbyte).bounded (Nat.le_of_not_lt hroom)
  have hmax : s.code + 1 = 0xFF := by rw [hcode, Block.code_eq_max_iff, hfull]
  have hset := setAt_middle (wire done) ((run.data ++ [byte]) ++ List.replicate (room + 1) 0)
    0 (s.code + 1)
  rw [← h.codeIndex] at hset
  have hlen : run.data.length + 1 = 254 := by
    simpa only [OpenBlock.push_data, List.length_append, List.length_singleton] using hfull
  have hindex : s.writeIndex + 1 = (wire (done ++ [run.push byte hbyte])).length := by
    rw [length_wire_concat, hfull, h.writeIndex]
    omega
  refine ⟨⟨wire done ++ (s.code + 1) :: ((run.data ++ [byte]) ++ List.replicate (room + 1) 0),
    s.writeIndex + 2, s.writeIndex + 1, 1⟩, ?_, ?_, hindex, ?_, rfl⟩
  · simp only [encodeByte, if_neg hbyte, h.setData, bind, Except.bind, if_pos hmax, hset]
    rfl
  · rw [wire_concat, hcode]
    simp [Block.wire, List.replicate_succ]
  · simp only [← hindex, OpenBlock.empty_data, List.length_nil]

/-- The room that the rest of the input needs: a byte for every byte and one more
for each run of 254 that it completes. -/
def roomFor (run : OpenBlock) (input : Bytes) : Nat :=
  input.length + (run.data.length + input.length) / 254

theorem encodeLoop_filled {s : EncodeState} {done : List Block} {run : OpenBlock} {room : Nat}
    {input : Bytes} (h : Filled s done run room) (hroom : roomFor run input ≤ room) :
    ∃ s' done' run' room', input.foldlM encodeByte s = .ok s' ∧ Filled s' done' run' room' ∧
      done' ++ [run'.toBlock] = done ++ stuffFrom run input := by
  induction input generalizing s done run room with
  | nil => exact ⟨s, done, run, room, rfl, h, rfl⟩
  | cons byte rest ih =>
      simp only [roomFor, List.length_cons] at hroom
      by_cases hzero : byte = 0
      · obtain ⟨room, rfl⟩ : ∃ k, room = k + 1 := ⟨room - 1, by omega⟩
        subst hzero
        obtain ⟨s₁, hstep, hs₁⟩ := encodeByte_zero h
        have hnext : roomFor .empty rest ≤ room := by
          simp only [roomFor, OpenBlock.empty_data, List.length_nil]
          omega
        obtain ⟨s', done', run', room', hloop, hs', hblocks⟩ := ih hs₁ hnext
        refine ⟨s', done', run', room', ?_, hs', ?_⟩
        · rw [List.foldlM_cons, hstep]
          exact hloop
        · rw [hblocks]
          simp [stuffFrom]
      · by_cases hshort : (run.push byte hzero).data.length < 254
        · obtain ⟨room, rfl⟩ : ∃ k, room = k + 1 := ⟨room - 1, by omega⟩
          obtain ⟨s₁, hstep, hs₁⟩ := encodeByte_push h hzero hshort
          have hnext : roomFor ⟨run.push byte hzero, hshort⟩ rest ≤ room := by
            simp only [roomFor, OpenBlock.push_data, List.length_append, List.length_singleton]
            omega
          obtain ⟨s', done', run', room', hloop, hs', hblocks⟩ := ih hs₁ hnext
          refine ⟨s', done', run', room', ?_, hs', ?_⟩
          · rw [List.foldlM_cons, hstep]
            exact hloop
          · rw [hblocks, stuffFrom, dif_neg hzero, dif_pos hshort]
        · have hfull : run.data.length + 1 = 254 := by
            have := run.hasRoom
            simp only [OpenBlock.push_data, List.length_append, List.length_singleton] at hshort
            omega
          obtain ⟨room, rfl⟩ : ∃ k, room = k + 2 := ⟨room - 2, by omega⟩
          obtain ⟨s₁, hstep, hs₁⟩ := encodeByte_full h hzero hshort
          have hnext : roomFor .empty rest ≤ room := by
            simp only [roomFor, OpenBlock.empty_data, List.length_nil]
            omega
          obtain ⟨s', done', run', room', hloop, hs', hblocks⟩ := ih hs₁ hnext
          refine ⟨s', done', run', room', ?_, hs', ?_⟩
          · rw [List.foldlM_cons, hstep]
            exact hloop
          · rw [hblocks, stuffFrom, dif_neg hzero, dif_neg hshort]
            simp

theorem filled_init (input : Bytes) :
    ∃ room, Filled (encodeInit input) [] .empty room ∧ roomFor .empty input ≤ room := by
  refine ⟨encodeDstBufLenMax input.length + 99, ⟨?_, rfl, rfl, rfl⟩, ?_⟩
  · simp [encodeInit, resize, wire, List.replicate_succ]
  · simp only [roomFor, encodeDstBufLenMax, OpenBlock.empty_data, List.length_nil]
    omega

/-- The final `resize` keeps one zero behind the blocks, which is the delimiter. -/
theorem resize_zeros (front : Bytes) (room : Nat) :
    resize (front ++ List.replicate room 0) (front.length + 1) = front ++ [0] := by
  have hfront : front.take (front.length + 1) = front :=
    List.take_of_length_le (Nat.le_succ _)
  cases room with
  | zero => simp [resize, hfront]
  | succ room => simp [resize, List.take_append, List.replicate_succ, hfront]

/-- No `at` throws, and the encoder's output is the frame of the input's blocks. -/
theorem encode_eq_frame (input : Bytes) : encode input = .ok (frame (stuff input)) := by
  obtain ⟨room, hinit, hroom⟩ := filled_init input
  obtain ⟨s, done, run, left, hloop, hs, hblocks⟩ := encodeLoop_filled hinit hroom
  rw [List.nil_append] at hblocks
  have hlen : s.writeIndex = (wire (done ++ [run.toBlock])).length := by
    rw [hs.writeIndex, length_wire_concat]
  have hresize : resize (wire (done ++ [run.toBlock]) ++ List.replicate left 0)
      (s.writeIndex + 1) = frame (stuff input) := by
    rw [hlen, resize_zeros, hblocks]
    rfl
  simp only [encode, hloop, bind, Except.bind, hs.setCode, pure, Except.pure, hresize]

theorem decode_encode (s : Bytes) :
    ∃ encoded, encode s = .ok encoded ∧ decode encoded = .ok s := by
  refine ⟨_, encode_eq_frame s, ?_⟩
  rw [decode_frame_of_last_short (stuff_ne_nil s) (stuff_last_short s), unstuff_stuff]

end MatrixServer.Cobs
