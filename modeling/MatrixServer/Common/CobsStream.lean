import MatrixServer.Common.CobsEncoding
import MatrixServer.Foundation.DelimitedStream

/-!
The stream decoder over successive calls.
The buffer carried between calls is the open rest of the stream received so
far, so the packets returned depend on the stream and not on how it was cut.
For the frames of an encoder these packets are the messages.
-/

namespace MatrixServer.Cobs
open StuffedBlocks DelimitedStream

/-- Successive calls, with the packets they return in order. -/
def feed : Cobs → List Bytes → Cobs × List Packet
  | c, [] => (c, [])
  | c, chunk :: chunks =>
      let called := c.insertBytesAndReturnDecodedPackets chunk
      let later := feed called.1 chunks
      (later.1, called.2 ++ later.2)

/-- None of the calls trips the size check. -/
def WithinMaxSize : Cobs → List Bytes → Prop
  | _, [] => True
  | c, chunk :: chunks =>
      ¬ c.exceedsMaxSize chunk ∧
        WithinMaxSize (c.insertBytesAndReturnDecodedPackets chunk).1 chunks

/-- Only segments longer than two bytes are decoded. -/
def packetsOf (segments : List Bytes) : List Packet :=
  (segments.filter fun segment => 2 < segment.length).map decode

theorem packetsOf_nil : packetsOf [] = [] := rfl

theorem packetsOf_append (segments more : List Bytes) :
    packetsOf (segments ++ more) = packetsOf segments ++ packetsOf more := by
  simp [packetsOf]

theorem packetsOf_cons_long {segment : Bytes} (h : 2 < segment.length) (segments : List Bytes) :
    packetsOf (segment :: segments) = decode segment :: packetsOf segments := by
  simp [packetsOf, h]

theorem packetsOf_cons_short {segment : Bytes} (h : ¬2 < segment.length)
    (segments : List Bytes) : packetsOf (segment :: segments) = packetsOf segments := by
  simp [packetsOf, h]

theorem insertByte_segmented {stream : Bytes} {segments new : List Bytes} {c : Cobs}
    (h : Segmented 0 stream (segments ++ new) c.internalStreamBuffer) (byte : UInt8) :
    ∃ new', Segmented 0 (stream ++ [byte]) (segments ++ new')
        (insertByte (c, packetsOf new) byte).1.internalStreamBuffer ∧
      (insertByte (c, packetsOf new) byte).2 = packetsOf new' := by
  by_cases hbyte : byte = 0
  · subst hbyte
    refine ⟨new ++ [c.internalStreamBuffer ++ [0]], ?_, ?_⟩
    · rw [← List.append_assoc]
      exact h.close
    · rw [packetsOf_append]
      by_cases hlong : (c.internalStreamBuffer ++ [0]).length > 2 <;>
        simp [insertByte, packetsOf] <;> simp at hlong <;> simp [hlong]
  · refine ⟨new, ?_, by simp [insertByte, hbyte]⟩
    simpa [insertByte, hbyte] using h.push hbyte

theorem foldl_insertByte_segmented {stream : Bytes} {segments new : List Bytes} {c : Cobs}
    (h : Segmented 0 stream (segments ++ new) c.internalStreamBuffer) (inputData : Bytes) :
    ∃ new', Segmented 0 (stream ++ inputData) (segments ++ new')
        (inputData.foldl insertByte (c, packetsOf new)).1.internalStreamBuffer ∧
      (inputData.foldl insertByte (c, packetsOf new)).2 = packetsOf new' := by
  induction inputData generalizing stream new c with
  | nil => exact ⟨new, by simpa using h, rfl⟩
  | cons byte rest ih =>
      obtain ⟨new₁, hstep, hpackets⟩ := insertByte_segmented h byte
      obtain ⟨new', hrest, hout⟩ := ih hstep
      have hpair : insertByte (c, packetsOf new) byte =
          ((insertByte (c, packetsOf new) byte).1, packetsOf new₁) := Prod.ext rfl hpackets
      rw [List.foldl_cons, hpair]
      exact ⟨new', by simpa using hrest, hout⟩

theorem feed_segmented {stream : Bytes} {segments : List Bytes} {c : Cobs} {chunks : List Bytes}
    (h : Segmented 0 stream segments c.internalStreamBuffer) (hsize : c.WithinMaxSize chunks) :
    ∃ new, Segmented 0 (stream ++ chunks.flatten) (segments ++ new)
        (c.feed chunks).1.internalStreamBuffer ∧
      (c.feed chunks).2 = packetsOf new := by
  induction chunks generalizing stream segments c with
  | nil => exact ⟨[], by simpa [feed] using h, rfl⟩
  | cons chunk chunks ih =>
      have hstart : Segmented 0 stream (segments ++ []) c.internalStreamBuffer := by simpa using h
      obtain ⟨called, hcall, hpackets⟩ := foldl_insertByte_segmented hstart chunk
      rw [packetsOf_nil] at hcall hpackets
      have hinsert : c.insertBytesAndReturnDecodedPackets chunk =
          chunk.foldl insertByte (c, []) := if_neg hsize.1
      have hrest := hsize.2
      rw [hinsert] at hrest
      obtain ⟨later, hlater, hout⟩ := ih hcall hrest
      refine ⟨called ++ later, ?_, ?_⟩
      · simp only [feed, hinsert, List.flatten_cons]
        rw [← List.append_assoc, ← List.append_assoc]
        exact hlater
      · simp only [feed, hinsert]
        rw [packetsOf_append, hpackets, hout]

theorem frame_stuff_long {message : Bytes} (h : message ≠ []) :
    2 < (frame (stuff message)).length := by
  have hpos := List.length_pos_iff.mpr h
  rw [length_frame_stuff]
  omega

theorem packetsOf_encoded {messages frames : List Bytes} (hmsg : ∀ m ∈ messages, m ≠ [])
    (henc : List.Forall₂ (fun m f => encode m = .ok f) messages frames) :
    packetsOf frames = messages.map .ok := by
  induction henc with
  | nil => rfl
  | @cons m f messages frames hm _ ih =>
      rw [encode_eq_frame] at hm
      cases hm
      obtain ⟨_, henc, hdec⟩ := decode_encode m
      rw [encode_eq_frame] at henc
      cases henc
      have htail := ih fun m' h' => hmsg m' (List.mem_cons_of_mem _ h')
      simp only [packetsOf] at htail
      simp [packetsOf, frame_stuff_long (hmsg m List.mem_cons_self), hdec, htail]

theorem segmented_encoded {messages frames : List Bytes}
    (henc : List.Forall₂ (fun m f => encode m = .ok f) messages frames) :
    Segmented 0 frames.flatten frames [] := by
  apply Segmented.of_closed
  induction henc with
  | nil => exact fun _ h => False.elim (List.not_mem_nil h)
  | @cons m f messages frames hm _ ih =>
      intro segment hs
      cases List.mem_cons.mp hs with
      | inl hhead =>
          rw [encode_eq_frame] at hm
          cases hm
          exact ⟨wire (stuff m), hhead, zero_not_mem_wire _⟩
      | inr htail => exact ih segment htail

/-- Whatever the bytes and however they are cut, the packets returned are the
decodings of the stream's segments and the buffer is its open rest; for a stream
of encoded messages these are the messages. -/
theorem stream_decoding_chunk_independent :
    (∀ (buffer : Bytes) (chunks : List Bytes), 0 ∉ buffer →
      WithinMaxSize ⟨buffer⟩ chunks →
      ∃ segments,
        Segmented 0 (buffer ++ chunks.flatten) segments
          (feed ⟨buffer⟩ chunks).1.internalStreamBuffer ∧
        (feed ⟨buffer⟩ chunks).2 =
          (segments.filter fun segment => 2 < segment.length).map decode) ∧
    (∀ messages frames chunks : List Bytes, (∀ m ∈ messages, m ≠ []) →
      List.Forall₂ (fun m f => encode m = .ok f) messages frames →
      chunks.flatten = frames.flatten → WithinMaxSize {} chunks →
      feed {} chunks = ({}, messages.map .ok)) := by
  constructor
  · intro buffer chunks hbuffer hsize
    obtain ⟨segments, hseg, hout⟩ := feed_segmented (c := ⟨buffer⟩) (.of_open hbuffer) hsize
    exact ⟨segments, hseg, hout⟩
  · intro messages frames chunks hmsg henc hflat hsize
    obtain ⟨segments, hseg, hout⟩ :=
      feed_segmented (c := {}) (.of_open List.not_mem_nil) hsize
    rw [List.nil_append, List.nil_append, hflat] at hseg
    obtain ⟨rfl, hrest⟩ := hseg.unique (segmented_encoded henc)
    rw [packetsOf_encoded hmsg henc] at hout
    exact Prod.ext (by cases hfeed : (feed {} chunks).1; simp [hfeed] at hrest; rw [hrest]) hout

theorem stream_decoding_split_packet :
    feed {} [[3, 65], [66, 0]] = ({}, [.ok [65, 66]]) := by
  refine stream_decoding_chunk_independent.2 [[65, 66]] [[3, 65, 66, 0]] _ ?_ ?_ rfl ?_
  · simp
  · exact .cons (by rfl) .nil
  · exact ⟨by decide, by decide, trivial⟩

end MatrixServer.Cobs
