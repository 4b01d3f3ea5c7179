import MatrixServer.Common.CobsStream
import MatrixServer.Foundation.TransitionRuns
import Mathlib.Data.List.Forall2

/-!
The stream decoder behind a call that trips the size check.
Such a call discards its bytes and the buffer. When it ends inside a frame, the
rest of this frame still comes, and nothing tells it from a whole one: it is
decoded unless it is too short. Only then do the packets stay sent messages.
-/

namespace MatrixServer.Cobs
open DelimitedStream StuffedBlocks TransitionRuns

/-- Whether the buffer starts inside a frame, its first bytes having been discarded. -/
def headLost (lost : Bool) (c : Cobs) (inputData : Bytes) : Bool :=
  if c.exceedsMaxSize inputData then (c.internalStreamBuffer ++ inputData).getLast? ≠ some 0
  else lost && !(inputData.contains 0)

/-- A call that completes a frame whose first bytes were discarded holds at most one other byte
of it, so that the rest is too short to be decoded. -/
def SkipsTail (lost : Bool) (c : Cobs) (inputData : Bytes) : Prop :=
  ¬c.exceedsMaxSize inputData → lost = true → 0 ∈ inputData →
    ((c.internalStreamBuffer ++ inputData).takeWhile fun byte => byte ≠ 0).length ≤ 1

/-- A decoder, the bytes it was given and the packets it returned. -/
structure Reception where
  decoder : Cobs := {}
  lost : Bool := false
  received : Bytes := []
  packets : List Packet := []

def receptions : TransitionSystem Reception Bytes where
  initial := {}
  step st chunk :=
    let called := st.decoder.insertBytesAndReturnDecodedPackets chunk
    some {
      decoder := called.1
      lost := headLost st.lost st.decoder chunk
      received := st.received ++ chunk
      packets := st.packets ++ called.2 }

/-- The frames of a list of messages. -/
def Encoded (messages frames : List Bytes) : Prop :=
  List.Forall₂ (fun m f => encode m = .ok f) messages frames

theorem Encoded.closed {messages frames : List Bytes} (h : Encoded messages frames) :
    ∀ frame ∈ frames, ∃ body, frame = body ++ [0] ∧ 0 ∉ body :=
  (segmented_encoded h).closed

/-- The packets of whole frames are messages, in order; an empty message gives none. -/
theorem Encoded.packetsOf_sublist {messages frames : List Bytes} (h : Encoded messages frames) :
    ∃ packets : List Bytes, packetsOf frames = packets.map .ok ∧ packets.Sublist messages := by
  induction h with
  | nil => exact ⟨[], rfl, .slnil⟩
  | @cons m f messages frames hm _ ih =>
      obtain ⟨packets, hpackets, hsub⟩ := ih
      by_cases hlong : 2 < f.length
      · obtain ⟨_, henc, hdec⟩ := decode_encode m
        cases hm.symm.trans henc
        exact ⟨m :: packets, by rw [packetsOf_cons_long hlong, hpackets, hdec]; rfl,
          hsub.cons_cons m⟩
      · exact ⟨packets, by rw [packetsOf_cons_short hlong, hpackets], hsub.cons m⟩

/-- What the messages of some frames are split into where the frames are. -/
theorem Encoded.split {messages frames frames' : List Bytes}
    (h : Encoded messages (frames ++ frames')) :
    Encoded (messages.take frames.length) frames ∧ Encoded (messages.drop frames.length) frames' :=
  ⟨List.forall₂_take_append _ _ _ h, List.forall₂_drop_append _ _ _ h⟩

/-- A call that does not trip reads its buffer and bytes. -/
theorem insert_segmented {c : Cobs} (hbuffer : 0 ∉ c.internalStreamBuffer) {inputData : Bytes}
    (hfits : ¬c.exceedsMaxSize inputData) :
    ∃ segments, Segmented 0 (c.internalStreamBuffer ++ inputData) segments
        (c.insertBytesAndReturnDecodedPackets inputData).1.internalStreamBuffer ∧
      (c.insertBytesAndReturnDecodedPackets inputData).2 = packetsOf segments := by
  have hstart : Segmented 0 c.internalStreamBuffer ([] ++ []) c.internalStreamBuffer :=
    .of_open hbuffer
  rw [insertBytesAndReturnDecodedPackets, if_neg hfits]
  exact foldl_insertByte_segmented hstart inputData

theorem insert_trips {c : Cobs} {inputData : Bytes} (htrips : c.exceedsMaxSize inputData) :
    c.insertBytesAndReturnDecodedPackets inputData = ({}, []) := if_pos htrips

/-- Where the decoder stands in the stream: `skipped` are the discarded bytes of the current
frame, and `todo` are the messages from that frame on. -/
structure Stands (skipped : Bytes) (lost : Bool) (c : Cobs) (rest : Bytes)
    (todo later : List Bytes) : Prop where
  encoded : Encoded todo later
  stream : skipped ++ c.internalStreamBuffer ++ rest <+: later.flatten
  unbroken : 0 ∉ skipped ++ c.internalStreamBuffer
  lost_iff : lost = true ↔ skipped ≠ []

variable {skipped rest chunk : Bytes} {lost : Bool} {c : Cobs} {todo later : List Bytes}

theorem takeWhile_front {body bytes : Bytes} (h : 0 ∉ body) :
    ((body ++ 0 :: bytes).takeWhile fun byte => byte ≠ 0) = body := by
  rw [List.takeWhile_append_of_pos]
  · simp
  · intro byte hmem
    apply decide_eq_true
    rintro rfl
    exact h hmem

/-- What a call makes of the stream: its packets are messages of frames it completes. -/
def Advances (lost : Bool) (c : Cobs) (chunk rest : Bytes) (todo later : List Bytes) : Prop :=
  ∃ (packets done todo' later' : List Bytes) (skipped' : Bytes), todo = done ++ todo' ∧
    later' <:+ later ∧
    (c.insertBytesAndReturnDecodedPackets chunk).2 = packets.map .ok ∧ packets.Sublist done ∧
    Stands skipped' (headLost lost c chunk) (c.insertBytesAndReturnDecodedPackets chunk).1 rest
      todo' later'

theorem Stands.trip (h : Stands skipped lost c (chunk ++ rest) todo later)
    (htrips : c.exceedsMaxSize chunk) : Advances lost c chunk rest todo later := by
  obtain ⟨new, opened, hread⟩ := exists_segmented 0 (skipped ++ c.internalStreamBuffer ++ chunk)
  obtain ⟨later', rfl, hlater⟩ := hread.cut h.encoded.closed (by simpa using h.stream)
  have hne : c.internalStreamBuffer ++ chunk ≠ [] := by
    intro hnil
    have hlength := congrArg List.length hnil
    simp only [List.length_append, List.length_nil] at hlength
    simp [exceedsMaxSize, maxStreamBufferSize, hlength] at htrips
  have hlast := hread.rest_eq_nil_iff (by simp [List.append_assoc, hne])
  rw [List.append_assoc, List.getLast?_append_of_ne_nil _ hne] at hlast
  rw [Advances, insert_trips htrips]
  refine ⟨[], _, _, later', opened, (List.take_append_drop _ todo).symm,
    List.suffix_append _ _, rfl, List.nil_sublist _, h.encoded.split.2, ?_, ?_, ?_⟩
  · simpa using hlater
  · simpa using hread.open_rest
  · rw [headLost, if_pos htrips, decide_eq_true_iff, ne_eq, ne_eq, hlast]

/-- The segments a call reads, and the frames they are or complete. -/
theorem Stands.segments (h : Stands skipped lost c (chunk ++ rest) todo later)
    (hfits : ¬c.exceedsMaxSize chunk) :
    ∃ segments, Segmented 0 (c.internalStreamBuffer ++ chunk) segments
        (c.insertBytesAndReturnDecodedPackets chunk).1.internalStreamBuffer ∧
      (c.insertBytesAndReturnDecodedPackets chunk).2 = packetsOf segments ∧
      (0 ∈ chunk ↔ segments ≠ []) ∧ 0 ∉ skipped ∧
      skipped ++ (c.internalStreamBuffer ++ chunk) ++ rest <+: later.flatten := by
  have hskipped : 0 ∉ skipped := fun hmem => h.unbroken (List.mem_append_left _ hmem)
  have hbuffer : 0 ∉ c.internalStreamBuffer :=
    fun hmem => h.unbroken (List.mem_append_right _ hmem)
  obtain ⟨segments, hread, hpackets⟩ := insert_segmented hbuffer hfits
  refine ⟨segments, hread, hpackets, ?_, hskipped, by simpa using h.stream⟩
  rw [← hread.delimiter_mem_iff, List.mem_append]
  exact ⟨.inr, fun hmem => hmem.resolve_left hbuffer⟩

theorem Stands.read (h : Stands skipped lost c (chunk ++ rest) todo later)
    (hfits : ¬c.exceedsMaxSize chunk) (hskip : SkipsTail lost c chunk) :
    Advances lost c chunk rest todo later := by
  obtain ⟨segments, hread, hpackets, hzero, hskipped, hstream⟩ := h.segments hfits
  cases segments with
  | nil =>
      have hopen := hread.prepend_nil hskipped
      obtain ⟨_, rfl, hlater⟩ := hopen.cut h.encoded.closed hstream
      refine ⟨[], [], todo, _, skipped, rfl, List.suffix_refl _, hpackets, .slnil, h.encoded,
        hlater, hopen.open_rest, ?_⟩
      have hnone : 0 ∉ chunk := by simp [hzero]
      simp [headLost, hfits, hnone, h.lost_iff]
  | cons first more =>
      have hclosed := hread.prepend_cons hskipped
      obtain ⟨later', rfl, hlater⟩ := hclosed.cut h.encoded.closed hstream
      obtain ⟨hdone, htodo⟩ := h.encoded.split
      have hsome : 0 ∈ chunk := by simp [hzero]
      obtain ⟨packets, hpackets', hsub⟩ : ∃ packets : List Bytes,
          packetsOf (first :: more) = packets.map .ok ∧
            packets.Sublist (todo.take ((skipped ++ first) :: more).length) := by
        cases hlost : lost with
        | false =>
            have hnil : skipped = [] := by
              by_contra hne
              rw [h.lost_iff.mpr hne] at hlost
              cases hlost
            subst hnil
            exact hdone.packetsOf_sublist
        | true =>
            obtain ⟨body, stream', rfl, hbody, hbytes, -⟩ := hread.uncons
            have hshort := hskip hfits hlost hsome
            rw [hbytes, takeWhile_front hbody] at hshort
            have hfirst : packetsOf ((body ++ [0]) :: more) = packetsOf more :=
              packetsOf_cons_short (by simpa using hshort) more
            obtain ⟨m, done, -, hmore, htake⟩ := List.forall₂_cons_right_iff.mp hdone
            obtain ⟨packets, hpackets', hsub⟩ := Encoded.packetsOf_sublist hmore
            exact ⟨packets, hfirst.trans hpackets', htake ▸ hsub.cons m⟩
      refine ⟨packets, _, _, later', [], (List.take_append_drop _ todo).symm,
        List.suffix_append _ _, hpackets.trans hpackets', hsub, htodo, hlater,
        hclosed.open_rest, ?_⟩
      simp [headLost, hfits, hsome]

theorem Stands.advances (h : Stands skipped lost c (chunk ++ rest) todo later)
    (hskip : SkipsTail lost c chunk) : Advances lost c chunk rest todo later := by
  by_cases hsize : c.exceedsMaxSize chunk
  · exact h.trip hsize
  · exact h.read hsize hskip

/-- A call that does not skip the rest of a discarded frame returns its decoding. -/
theorem Stands.decodes_tail (h : Stands skipped lost c (chunk ++ rest) todo later)
    (hlong : ¬SkipsTail lost c chunk) :
    skipped ≠ [] ∧ ∃ tail packets, skipped ++ tail ∈ later ∧
      (c.insertBytesAndReturnDecodedPackets chunk).2 = decode tail :: packets := by
  simp only [SkipsTail, Classical.not_imp] at hlong
  obtain ⟨hfits, hlost, hmem, hlong⟩ := hlong
  obtain ⟨segments, hread, hpackets, hzero, hskipped, hstream⟩ := h.segments hfits
  cases segments with
  | nil => exact absurd rfl (hzero.mp hmem)
  | cons first more =>
      have hclosed := hread.prepend_cons hskipped
      obtain ⟨later', rfl, -⟩ := hclosed.cut h.encoded.closed hstream
      obtain ⟨body, stream', rfl, hbody, hbytes, -⟩ := hread.uncons
      rw [hbytes, takeWhile_front hbody, Nat.not_le] at hlong
      refine ⟨h.lost_iff.mp hlost, body ++ [0], packetsOf more, by simp, ?_⟩
      have hfull : 2 < (body ++ [0]).length := by
        rw [List.length_append]
        exact Nat.succ_lt_succ hlong
      rw [hpackets, packetsOf_cons_long hfull]

/-- The packets returned so far are messages, and the decoder stands behind them. -/
def Follows (messages frames : List Bytes) (st : Reception) : Prop :=
  ∀ rest, st.received ++ rest <+: frames.flatten →
    ∃ (packets done todo later : List Bytes) (skipped : Bytes), messages = done ++ todo ∧
      later <:+ frames ∧ st.packets = packets.map .ok ∧ packets.Sublist done ∧
      Stands skipped st.lost st.decoder rest todo later

theorem follows_start {messages frames : List Bytes} (henc : Encoded messages frames) :
    Follows messages frames {} := by
  intro rest hstream
  refine ⟨[], [], messages, frames, [], rfl, List.suffix_refl _, rfl, .slnil, henc, ?_, ?_, ?_⟩
  · simpa using hstream
  · simp
  · simp

theorem Follows.step {messages frames : List Bytes} {st st' : Reception} {chunk : Bytes}
    (h : Follows messages frames st) (hskip : SkipsTail st.lost st.decoder chunk)
    (hstep : receptions.step st chunk = some st') : Follows messages frames st' := by
  cases hstep
  intro rest hstream
  rw [List.append_assoc] at hstream
  obtain ⟨packets, done, todo, later, skipped, rfl, hlater, hpackets, hsub, hstands⟩ :=
    h _ hstream
  obtain ⟨new, done', todo', later', skipped', rfl, hlater', hnew, hsub', hstands'⟩ :=
    hstands.advances hskip
  refine ⟨packets ++ new, done ++ done', todo', later', skipped', (List.append_assoc _ _ _).symm,
    hlater'.trans hlater, ?_, hsub.append hsub', hstands'⟩
  simp [hpackets, hnew]

/-- While calls skip the rests of the frames that a tripped call cut, the packets are sent
messages in order; a call that does not skip one returns the decoding of a frame's tail. -/
theorem packets_sent_while_tails_skipped (messages frames : List Bytes)
    (henc : Encoded messages frames) (st : Reception)
    (h : receptions.ReachableUnder (fun st chunk => SkipsTail st.lost st.decoder chunk) st)
    (hstream : st.received <+: frames.flatten) :
    (∃ packets : List Bytes, st.packets = packets.map .ok ∧ packets.Sublist messages) ∧
      ∀ chunk st', receptions.step st chunk = some st' → st'.received <+: frames.flatten →
        ¬SkipsTail st.lost st.decoder chunk →
          ∃ dropped tail packets, dropped ++ tail ∈ frames ∧ dropped ≠ [] ∧
            st'.packets = st.packets ++ decode tail :: packets := by
  have hfollows := h.invariant (Follows messages frames) (follows_start henc)
    fun _ _ _ hinv hskip hstep => hinv.step hskip hstep
  constructor
  · obtain ⟨packets, done, todo, -, -, rfl, -, hpackets, hsub, -⟩ :=
      hfollows [] (by simpa using hstream)
    exact ⟨packets, hpackets, hsub.trans (List.sublist_append_left _ _)⟩
  · intro chunk st' hstep hstream' hlong
    cases hstep
    obtain ⟨_, _, _, later, skipped, _, hlater, _, _, hstands⟩ :=
      hfollows (chunk ++ []) (by simpa using hstream')
    obtain ⟨hdropped, tail, packets, hmem, hcall⟩ := hstands.decodes_tail hlong
    exact ⟨skipped, tail, packets, hlater.subset hmem, hdropped, by simp [hcall]⟩

/-- A zero byte of a message becomes a block of its own. -/
theorem wire_stuff_zeros (n : Nat) (message : Bytes) :
    wire (stuff (List.replicate n 0 ++ message)) = List.replicate n 1 ++ wire (stuff message) := by
  induction n with
  | zero => rfl
  | succ n ih =>
      rw [List.replicate_succ, List.cons_append, List.replicate_succ, List.cons_append, ← ih]
      rfl

/-- So many zeros that a call that brings their code bytes trips the size check. -/
def longMessage (last : Bytes) : Bytes := List.replicate maxStreamBufferSize 0 ++ last

theorem encode_longMessage (last : Bytes) : encode (longMessage last) =
    .ok (List.replicate maxStreamBufferSize 1 ++ (wire (stuff last) ++ [0])) := by
  rw [encode_eq_frame, frame, longMessage, wire_stuff_zeros, List.append_assoc]

theorem exceedsMaxSize_long {front : Bytes} (h : front ≠ []) :
    exceedsMaxSize {} (List.replicate maxStreamBufferSize 1 ++ front) := by
  have hpos := List.length_pos_iff.mpr h
  simp only [exceedsMaxSize, List.length_nil, List.length_append, List.length_replicate]
  omega

/-- The state after a first call that trips. -/
def tripped (front : Bytes) : Reception where
  lost := front.getLast? ≠ some 0
  received := List.replicate maxStreamBufferSize 1 ++ front

theorem step_tripped {front : Bytes} (h : front ≠ []) :
    receptions.step {} (List.replicate maxStreamBufferSize 1 ++ front) = some (tripped front) := by
  have htrips := exceedsMaxSize_long h
  simp only [receptions, insert_trips htrips, headLost, if_pos htrips, List.nil_append,
    List.getLast?_append_of_ne_nil _ h]
  rfl

theorem decode_single : decode [2, 65, 0] = .ok [65] := by
  obtain ⟨frame, henc, hdec⟩ := decode_encode [65]
  cases henc
  exact hdec

/-- A call trips at the end of a frame, and the next frame is returned. -/
theorem packets_sent_after_whole_frame :
    ∃ st, receptions.ReachableUnder (fun st chunk => SkipsTail st.lost st.decoder chunk) st ∧
      st.packets = [.ok [65]] ∧
      ∃ packets : List Bytes, st.packets = packets.map .ok ∧
        packets.Sublist [longMessage [], [65]] := by
  have hfirst : receptions.ReachableUnder
      (fun st chunk => SkipsTail st.lost st.decoder chunk) (tripped [1, 0]) :=
    .step .initial (fun _ hlost => by cases hlost) (step_tripped (List.cons_ne_nil _ _))
  have hsecond := hfirst.step (e := [2, 65, 0]) (fun _ hlost => by cases hlost) rfl
  refine ⟨_, hsecond, congrArg (fun packet => [packet]) decode_single, ?_⟩
  refine (packets_sent_while_tails_skipped [longMessage [], [65]]
    [List.replicate maxStreamBufferSize 1 ++ [1, 0], [2, 65, 0]]
    (.cons (encode_longMessage []) (.cons rfl .nil)) _ hsecond ?_).1
  simp [tripped]

/-- A call trips inside the last block of a frame, so its data bytes pass for a frame. -/
theorem reset_forges_packet :
    ∃ frame st, encode (longMessage [2, 65]) = .ok frame ∧ receptions.Reachable st ∧
      st.received = frame ∧
      ¬∃ packets : List Bytes, st.packets = packets.map .ok ∧
        packets.Sublist [longMessage [2, 65]] := by
  have hfirst : receptions.Reachable (tripped [3]) :=
    .step .initial trivial (step_tripped (List.cons_ne_nil _ _))
  have hsecond := hfirst.step (e := [2, 65, 0]) trivial rfl
  refine ⟨_, _, encode_longMessage [2, 65], hsecond, ?_, ?_⟩
  · simp only [tripped, List.append_assoc]
    rfl
  · rintro ⟨packets, hpackets, hsub⟩
    have hforged : packets = [[65]] := by
      have hone : [Except.ok [65]] = packets.map (Except.ok : Bytes → Packet) :=
        (congrArg (fun packet => [packet]) decode_single).symm.trans hpackets
      cases packets with
      | nil => cases hone
      | cons packet packets =>
          obtain ⟨hpacket, hnone⟩ := List.cons.inj hone
          rw [← Except.ok.inj hpacket, List.map_eq_nil_iff.mp hnone.symm]
    rw [hforged, List.singleton_sublist, List.mem_singleton] at hsub
    have hlength := congrArg List.length hsub
    simp [longMessage] at hlength

end MatrixServer.Cobs
