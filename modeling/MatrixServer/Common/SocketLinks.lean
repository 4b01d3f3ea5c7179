import MatrixServer.Common.CobsFrames
import MatrixServer.Common.CobsStream
import MatrixServer.Common.Message
import MatrixServer.Common.SocketWrites

/-!
One direction of a connection, common/SocketConnection.cpp.
The sender's queue is emptied write by write into a byte stream; the peer reads it in pieces
of any length and cuts it at the delimiters. Serialisation is a parameter. A write may be cut
short by an error, after which the socket takes no bytes any more.
-/

namespace MatrixServer
open TransitionRuns WriteQueue DelimitedStream StuffedBlocks

/-- `RECEIVE_BUFFER_SIZE` -/
def receiveBufferSize : Nat := 200000

structure SocketLink where
  /-- the arguments of the calls of `sendMessage` -/
  sent : List MatrixServerMessage := []
  writer : SocketWriter := {}
  /-- how many bytes of the write in flight the socket has taken -/
  written : Nat := 0
  broken : Bool := false
  /-- taken by the socket and not read yet -/
  transit : Bytes := []
  read : Bytes := []
  cobsDecoder : Cobs := {}
  /-- the arguments of the calls of `receiveCallback` -/
  received : List MatrixServerMessage := []

inductive SocketLinkEvent where
  | sendMessage (message : MatrixServerMessage)
  | runPosted
  /-- the `async_write` in flight puts bytes on the stream -/
  | writeSome (count : Nat)
  | handleWrite (index : Nat) (error : Bool)
  | handleRead (bytesTransferred : Nat)

section
variable (serializeAsString : MatrixServerMessage → Bytes)
  (parseFromString : Bytes → Option MatrixServerMessage)

namespace SocketLink

def sendMessage (st : SocketLink) (message : MatrixServerMessage) : Option SocketLink :=
  match Cobs.encode (serializeAsString message) with
  | .ok sendBuffer =>
      some { st with
        sent := st.sent ++ [message]
        writer := st.writer.sendMessage sendBuffer }
  | .error _ => none

def runPosted (st : SocketLink) : Option SocketLink :=
  st.writer.runPosted.map fun writer => { st with writer }

def writeSome (st : SocketLink) (count : Nat) : Option SocketLink :=
  match st.writer.outstanding with
  | [] => none
  | entry :: _ =>
      if st.broken = false ∧ st.written + count ≤ entry.message.length then
        some { st with
          transit := st.transit ++ (entry.message.drop st.written).take count
          written := st.written + count }
      else none

/-- An `async_write` succeeds when all bytes are taken. -/
def handleWrite (st : SocketLink) (index : Nat) (error : Bool) : Option SocketLink :=
  if error = false ∧ (st.broken = true ∨
      ∃ entry ∈ st.writer.outstanding, entry.message.length ≠ st.written) then none
  else (st.writer.handleWrite index error).map fun writer =>
    { st with writer, written := 0, broken := st.broken || error }

/-- The packets for which `ParseFromString` succeeds. -/
def parsePackets (packets : List Cobs.Packet) : List MatrixServerMessage :=
  packets.filterMap fun packet => packet.toOption.bind parseFromString

def handleRead (st : SocketLink) (bytesTransferred : Nat) : Option SocketLink :=
  if bytesTransferred ≤ receiveBufferSize ∧ bytesTransferred ≤ st.transit.length then
    let recvBuffer := st.transit.take bytesTransferred
    let called := st.cobsDecoder.insertBytesAndReturnDecodedPackets recvBuffer
    some { st with
      transit := st.transit.drop bytesTransferred
      read := st.read ++ recvBuffer
      cobsDecoder := called.1
      received := st.received ++ parsePackets parseFromString called.2 }
  else none

end SocketLink

def socketLinks : TransitionSystem SocketLink SocketLinkEvent where
  initial := {}
  step
    | st, .sendMessage message => st.sendMessage serializeAsString message
    | st, .runPosted => st.runPosted
    | st, .writeSome count => st.writeSome count
    | st, .handleWrite index error => st.handleWrite index error
    | st, .handleRead bytesTransferred => st.handleRead parseFromString bytesTransferred

/-- The message survives serialisation, and its frame and one read fit the stream buffer. -/
structure Fits (message : MatrixServerMessage) : Prop where
  nonempty : serializeAsString message ≠ []
  parses : parseFromString (serializeAsString message) = some message
  bounded : (serializeAsString message).length + 2 + (serializeAsString message).length / 254 +
    receiveBufferSize ≤ Cobs.maxStreamBufferSize

/-- Every message sent fits. -/
def SendsFitting : SocketLinkEvent → Prop
  | .sendMessage message => Fits serializeAsString parseFromString message
  | _ => True

end

namespace SocketLink

/-- The messages that entries of the queue stand for. -/
def messagesOf (st : SocketLink) (entries : List (Entry Bytes)) : List MatrixServerMessage :=
  entries.filterMap fun entry => st.sent[entry.number]?

/-- The messages that were not dropped, in the order of their handlers. -/
def accepted (st : SocketLink) : List MatrixServerMessage := st.messagesOf st.writer.kept

def bytesOf (entries : List (Entry Bytes)) : Bytes := (entries.map Entry.message).flatten

@[simp] theorem bytesOf_nil : bytesOf [] = [] := rfl

@[simp] theorem bytesOf_singleton (entry : Entry Bytes) : bytesOf [entry] = entry.message := by
  simp [bytesOf]

@[simp] theorem bytesOf_append (entries more : List (Entry Bytes)) :
    bytesOf (entries ++ more) = bytesOf entries ++ bytesOf more := by
  simp [bytesOf]

/-- What is on the stream, as the frames whose writes have ended and the front of the one in
flight; after a failed write it is at least the front of all frames. -/
structure Streams (st : SocketLink) (done : List (Entry Bytes)) : Prop where
  handed : st.writer.handed = done ++ st.writer.outstanding
  taken : st.broken = false →
    st.read ++ st.transit = bytesOf done ++ (bytesOf st.writer.outstanding).take st.written
  front : st.read ++ st.transit <+: bytesOf st.writer.handed
  idle : st.writer.outstanding = [] → st.written = 0

theorem Streams.runPosted {st st' : SocketLink} {done : List (Entry Bytes)} (h : st.Streams done)
    (hwriter : st.writer.Inv) (hrun : st.runPosted = some st') : ∃ done', st'.Streams done' := by
  obtain ⟨c, hc, rfl⟩ := Option.map_eq_some_iff.mp hrun
  obtain ⟨w, hw, rfl⟩ := Option.map_eq_some_iff.mp hc
  cases hwriter.flowing.runPosted_starts hwriter.consistent hw with
  | inl hsame =>
      obtain ⟨hhanded, hflight⟩ := hsame
      refine ⟨done, ?_, ?_, ?_, ?_⟩
      · simpa only [hhanded, hflight] using h.handed
      · simpa only [hflight] using h.taken
      · simpa only [hhanded] using h.front
      · simpa only [hflight] using h.idle
  | inr hstart =>
      obtain ⟨hidle, entry, hhanded, hflight⟩ := hstart
      have hdone : st.writer.handed = done := by
        rw [h.handed, hidle, List.append_nil]
      refine ⟨done, ?_, ?_, ?_, ?_⟩
      · simp only [hhanded, hflight, hdone]
      · intro hfine
        have htaken := h.taken hfine
        rw [hidle] at htaken
        simp [htaken, h.idle hidle]
      · simp only [hhanded, bytesOf_append]
        exact h.front.trans (List.prefix_append _ _)
      · intro hnone
        simp [hflight] at hnone

theorem Streams.writeSome {st st' : SocketLink} {done : List (Entry Bytes)} {count : Nat}
    (h : st.Streams done) (hwriter : st.writer.Inv) (hwrite : st.writeSome count = some st') :
    st'.Streams done := by
  simp only [SocketLink.writeSome] at hwrite
  split at hwrite
  · cases hwrite
  · rename_i entry rest hflight
    split at hwrite
    · rename_i hfits
      cases hwrite
      have hone : st.writer.outstanding = [entry] := by
        have hflow : st.writer.outstanding = st.writer.queue.head?.toList := hwriter.flowing
        rw [hflight] at hflow ⊢
        cases hqueue : st.writer.queue with
        | nil => simp [hqueue] at hflow
        | cons front queue =>
            simp only [hqueue, List.head?_cons, Option.toList_some, List.cons.injEq] at hflow
            rw [hflow.2]
      have htaken := h.taken hfits.1
      rw [hone, bytesOf_singleton] at htaken
      have hmore : st.read ++ (st.transit ++ (entry.message.drop st.written).take count) =
          bytesOf done ++ entry.message.take (st.written + count) := by
        rw [← List.append_assoc, htaken, List.append_assoc, List.take_add]
      refine ⟨h.handed, ?_, ?_, ?_⟩
      · intro _
        simpa only [hone, bytesOf_singleton] using hmore
      · simp only [hmore, h.handed, hone, bytesOf_append, bytesOf_singleton]
        exact (List.prefix_append_right_inj _).mpr (List.take_prefix _ _)
      · intro hnone
        simp [hone] at hnone
    · cases hwrite

theorem Streams.handleWrite {st st' : SocketLink} {done : List (Entry Bytes)} {index : Nat}
    {error : Bool} (h : st.Streams done) (hwriter : st.writer.Inv)
    (hwrite : st.handleWrite index error = some st') : ∃ done', st'.Streams done' := by
  simp only [SocketLink.handleWrite] at hwrite
  split at hwrite
  · cases hwrite
  · rename_i hcompletes
    obtain ⟨c, hc, rfl⟩ := Option.map_eq_some_iff.mp hwrite
    obtain ⟨w, hw, rfl⟩ := Option.map_eq_some_iff.mp hc
    obtain ⟨front, hflight, hnext⟩ := hwriter.flowing.finish_advance_starts hw
    have hhanded := h.handed
    rw [hflight] at hhanded
    have hsplit : ∃ started, w.advance.handed = st.writer.handed ++ started ∧
        w.advance.outstanding = started := by
      cases hnext with
      | inl hnone => exact ⟨[], by simpa using hnone.1, hnone.2⟩
      | inr hsome =>
          obtain ⟨next, hnext⟩ := hsome
          exact ⟨[next], hnext⟩
    obtain ⟨started, hhanded', rfl⟩ := hsplit
    refine ⟨done ++ [front], ?_, ?_, ?_, fun _ => rfl⟩
    · simp only [hhanded', hhanded]
    · intro hfine
      simp only [Bool.or_eq_false_iff] at hfine
      have hwhole : front.message.length = st.written := by
        by_contra hpart
        exact hcompletes ⟨hfine.2, .inr ⟨front, by simp [hflight], hpart⟩⟩
      have htaken := h.taken hfine.1
      rw [hflight, bytesOf_singleton, List.take_of_length_le (Nat.le_of_eq hwhole)] at htaken
      simp [htaken]
    · simp only [hhanded', bytesOf_append]
      exact h.front.trans (List.prefix_append _ _)

section
variable {serializeAsString : MatrixServerMessage → Bytes}
  {parseFromString : Bytes → Option MatrixServerMessage}

/-- An entry holds the frame of the message sent under its number, and that message fits. -/
def Holds (serializeAsString : MatrixServerMessage → Bytes)
    (parseFromString : Bytes → Option MatrixServerMessage) (sent : List MatrixServerMessage)
    (entry : Entry Bytes) : Prop :=
  ∃ message, sent[entry.number]? = some message ∧
    Fits serializeAsString parseFromString message ∧
    Cobs.encode (serializeAsString message) = .ok entry.message

/-- The packets of frames give the messages again. -/
theorem parsePackets_entries (st : SocketLink) (entries : List (Entry Bytes))
    (h : ∀ entry ∈ entries, Holds serializeAsString parseFromString st.sent entry) :
    parsePackets parseFromString (Cobs.packetsOf (entries.map Entry.message)) =
      st.messagesOf entries := by
  induction entries with
  | nil => rfl
  | cons entry entries ih =>
      obtain ⟨message, hsent, hfits, hencode⟩ := h entry List.mem_cons_self
      have hrest := ih fun other hmem => h other (List.mem_cons_of_mem _ hmem)
      obtain ⟨frame, hframe, hdecode⟩ := Cobs.decode_encode (serializeAsString message)
      rw [← Except.ok.inj (hencode.symm.trans hframe)] at hdecode
      have hlong : 2 < entry.message.length := by
        rw [Cobs.encode_eq_frame, Except.ok.injEq] at hencode
        rw [← hencode]
        exact Cobs.frame_stuff_long hfits.nonempty
      rw [List.map_cons, Cobs.packetsOf_cons_long hlong, hdecode]
      simp only [parsePackets, messagesOf, List.filterMap_cons, hsent] at hrest ⊢
      rw [hrest]
      simp [Except.toOption, hfits.parses]

/-- The frame of a message that fits, and one read, stay below the size check. -/
theorem Holds.bounded {sent : List MatrixServerMessage} {entry : Entry Bytes}
    (h : Holds serializeAsString parseFromString sent entry) :
    entry.message.length + receiveBufferSize ≤ Cobs.maxStreamBufferSize ∧
      ∃ body, entry.message = body ++ [0] ∧ 0 ∉ body := by
  obtain ⟨message, -, hfits, hencode⟩ := h
  obtain ⟨frame, hframe, hclosed, hlength, hruns, -⟩ :=
    Cobs.encode_well_formed (serializeAsString message)
  cases hencode.symm.trans hframe
  have hbound := hfits.bounded
  exact ⟨by omega, hclosed⟩

/-- The peer has cut what it read at the delimiters and handed the messages on. -/
structure Reads (parseFromString : Bytes → Option MatrixServerMessage) (st : SocketLink)
    (segments : List Bytes) : Prop where
  segmented : Segmented 0 st.read segments st.cobsDecoder.internalStreamBuffer
  received : st.received = parsePackets parseFromString (Cobs.packetsOf segments)

structure Inv (serializeAsString : MatrixServerMessage → Bytes)
    (parseFromString : Bytes → Option MatrixServerMessage) (st : SocketLink) : Prop where
  writer : st.writer.Inv
  holds : ∀ entry ∈ st.writer.sent, Holds serializeAsString parseFromString st.sent entry
  numbered : st.writer.sent.length = st.sent.length
  streams : ∃ done, st.Streams done
  reads : ∃ segments, Reads parseFromString st segments

variable {st st' : SocketLink}

theorem Inv.handed_holds (h : Inv serializeAsString parseFromString st) :
    ∀ entry ∈ st.writer.handed, Holds serializeAsString parseFromString st.sent entry := by
  intro entry hmem
  apply h.holds
  exact h.writer.consistent.sublist.subset (List.mem_append_left _ hmem)

/-- The segments read are the first frames handed to the socket, and the rest belongs to
the next one. -/
theorem Inv.cut (h : Inv serializeAsString parseFromString st) {segments : List Bytes}
    (hreads : Reads parseFromString st segments) :
    ∃ frames, st.writer.handed.map Entry.message = segments ++ frames ∧
      st.cobsDecoder.internalStreamBuffer ++ st.transit <+: frames.flatten := by
  obtain ⟨done, hstreams⟩ := h.streams
  apply hreads.segmented.cut ?_ hstreams.front
  intro frame hframe
  obtain ⟨entry, hentry, rfl⟩ := List.mem_map.mp hframe
  exact (h.handed_holds entry hentry).bounded.2

/-- No read makes the decoder discard its buffer. -/
theorem Inv.within (h : Inv serializeAsString parseFromString st) {count : Nat}
    (hcount : count ≤ receiveBufferSize) :
    ¬st.cobsDecoder.exceedsMaxSize (st.transit.take count) := by
  obtain ⟨segments, hreads⟩ := h.reads
  obtain ⟨frames, hframes, hopen⟩ := h.cut hreads
  have hread : (st.transit.take count).length ≤ count := List.length_take_le _ _
  rw [Cobs.exceedsMaxSize, Nat.not_lt]
  cases frames with
  | nil =>
      have hnil := List.prefix_nil.mp hopen
      rw [List.append_eq_nil_iff] at hnil
      rw [hnil.1, hnil.2, List.take_nil]
      exact Nat.zero_le _
  | cons frame frames =>
      have hmem : frame ∈ st.writer.handed.map Entry.message := by
        rw [hframes]
        simp
      obtain ⟨entry, hentry, rfl⟩ := List.mem_map.mp hmem
      obtain ⟨hbound, body, hbody, -⟩ := (h.handed_holds entry hentry).bounded
      have hshort := length_lt_of_open hreads.segmented.open_rest ⟨body, hbody⟩ hopen
      omega

theorem Inv.sendMessage (h : Inv serializeAsString parseFromString st)
    {message : MatrixServerMessage} (hfits : Fits serializeAsString parseFromString message)
    (hsend : st.sendMessage serializeAsString message = some st') :
    Inv serializeAsString parseFromString st' := by
  simp only [SocketLink.sendMessage] at hsend
  split at hsend
  · rename_i sendBuffer hencode
    cases hsend
    obtain ⟨done, hstreams⟩ := h.streams
    obtain ⟨segments, hreads⟩ := h.reads
    refine ⟨⟨h.writer.consistent.post sendBuffer, h.writer.flowing, h.writer.bounded⟩, ?_, ?_,
      ⟨done, hstreams.handed, hstreams.taken, hstreams.front, hstreams.idle⟩,
      ⟨segments, hreads.segmented, hreads.received⟩⟩
    · intro entry hmem
      cases List.mem_append.mp hmem with
      | inl hold =>
          obtain ⟨other, hsent, hother⟩ := h.holds entry hold
          have hplace := (List.getElem?_eq_some_iff.mp hsent).1
          refine ⟨other, ?_, hother⟩
          rw [← hsent]
          exact List.getElem?_append_left hplace
      | inr hnew =>
          cases List.mem_singleton.mp hnew
          refine ⟨message, ?_, hfits, hencode⟩
          simp [h.numbered]
    · simp [SocketWriter.sendMessage, Writer.post, h.numbered]
  · cases hsend

theorem Inv.handleRead (h : Inv serializeAsString parseFromString st) {bytesTransferred : Nat}
    (hread : st.handleRead parseFromString bytesTransferred = some st') :
    Inv serializeAsString parseFromString st' := by
  simp only [SocketLink.handleRead] at hread
  split at hread
  · rename_i hcount
    cases hread
    have hfits := h.within hcount.1
    obtain ⟨done, hstreams⟩ := h.streams
    obtain ⟨segments, hreads⟩ := h.reads
    have hsplit : st.read ++ st.transit.take bytesTransferred ++ st.transit.drop bytesTransferred =
        st.read ++ st.transit := by
      rw [List.append_assoc, List.take_append_drop]
    have hopen : Segmented 0 st.read (segments ++ []) st.cobsDecoder.internalStreamBuffer := by
      simpa using hreads.segmented
    obtain ⟨new, hsegmented, hpackets⟩ :=
      Cobs.foldl_insertByte_segmented hopen (st.transit.take bytesTransferred)
    refine ⟨h.writer, h.holds, h.numbered, ⟨done, hstreams.handed, ?_, ?_, hstreams.idle⟩,
      ⟨segments ++ new, ?_, ?_⟩⟩
    · intro hfine
      simpa only [hsplit] using hstreams.taken hfine
    · simpa only [hsplit] using hstreams.front
    · simp only [Cobs.insertBytesAndReturnDecodedPackets, if_neg hfits]
      exact hsegmented
    · simp only [Cobs.insertBytesAndReturnDecodedPackets, if_neg hfits]
      rw [Cobs.packetsOf_nil] at hpackets
      rw [hpackets, hreads.received, Cobs.packetsOf_append]
      exact (List.filterMap_append ..).symm
  · cases hread

/-- A step of the writer that ends with the same messages sent. -/
theorem Inv.of_writer (h : Inv serializeAsString parseFromString st) {writer : SocketWriter}
    {written : Nat} {broken : Bool} (hwriter : writer.Inv)
    (hsent : writer.sent = st.writer.sent)
    (hstreams : ∃ done, Streams { st with writer, written, broken } done) :
    Inv serializeAsString parseFromString { st with writer, written, broken } := by
  obtain ⟨segments, hreads⟩ := h.reads
  refine ⟨hwriter, ?_, ?_, hstreams, ⟨segments, hreads.segmented, hreads.received⟩⟩
  · simpa only [hsent] using h.holds
  · simpa only [hsent] using h.numbered

theorem Inv.runPosted (h : Inv serializeAsString parseFromString st)
    (hrun : st.runPosted = some st') : Inv serializeAsString parseFromString st' := by
  obtain ⟨done, hdone⟩ := h.streams
  have hstreams := hdone.runPosted h.writer hrun
  obtain ⟨c, hc, rfl⟩ := Option.map_eq_some_iff.mp hrun
  have hwriter := h.writer.runPosted hc
  obtain ⟨w, hw, rfl⟩ := Option.map_eq_some_iff.mp hc
  exact h.of_writer hwriter (h.writer.consistent.runPosted_sent hw) hstreams

theorem Inv.handleWrite (h : Inv serializeAsString parseFromString st) {index : Nat} {error : Bool}
    (hwrite : st.handleWrite index error = some st') :
    Inv serializeAsString parseFromString st' := by
  obtain ⟨done, hdone⟩ := h.streams
  have hstreams := hdone.handleWrite h.writer hwrite
  simp only [SocketLink.handleWrite] at hwrite
  split at hwrite
  · cases hwrite
  · obtain ⟨c, hc, rfl⟩ := Option.map_eq_some_iff.mp hwrite
    have hwriter := h.writer.handleWrite hc
    obtain ⟨w, hw, rfl⟩ := Option.map_eq_some_iff.mp hc
    exact h.of_writer hwriter (h.writer.flowing.finish_advance_sent hw) hstreams

theorem Inv.writeSome (h : Inv serializeAsString parseFromString st) {count : Nat}
    (hwrite : st.writeSome count = some st') : Inv serializeAsString parseFromString st' := by
  obtain ⟨done, hdone⟩ := h.streams
  have hstreams := hdone.writeSome h.writer hwrite
  obtain ⟨segments, hreads⟩ := h.reads
  simp only [SocketLink.writeSome] at hwrite
  split at hwrite
  · cases hwrite
  · split at hwrite
    · cases hwrite
      exact ⟨h.writer, h.holds, h.numbered, ⟨done, hstreams⟩,
        ⟨segments, hreads.segmented, hreads.received⟩⟩
    · cases hwrite

theorem inv_start : Inv serializeAsString parseFromString {} where
  writer := SocketWriter.inv_start
  holds := fun _ h => False.elim (List.not_mem_nil h)
  numbered := rfl
  streams := ⟨[], rfl, fun _ => rfl, List.nil_prefix, fun _ => rfl⟩
  reads := ⟨[], .of_open List.not_mem_nil, rfl⟩

theorem Inv.step {e : SocketLinkEvent} (h : Inv serializeAsString parseFromString st)
    (hsends : SendsFitting serializeAsString parseFromString e)
    (hstep : (socketLinks serializeAsString parseFromString).step st e = some st') :
    Inv serializeAsString parseFromString st' := by
  cases e with
  | sendMessage message => exact h.sendMessage hsends hstep
  | runPosted => exact h.runPosted hstep
  | writeSome count => exact h.writeSome hstep
  | handleWrite index error => exact h.handleWrite hstep
  | handleRead bytesTransferred => exact h.handleRead hstep

/-- What the peer was given are the messages of the first frames handed to the socket. -/
theorem Inv.received (h : Inv serializeAsString parseFromString st) :
    ∃ entries frames, st.writer.handed = entries ++ frames ∧
      st.received = st.messagesOf entries ∧
      Segmented 0 st.read (entries.map Entry.message) st.cobsDecoder.internalStreamBuffer := by
  obtain ⟨segments, hreads⟩ := h.reads
  obtain ⟨frames, hframes, -⟩ := h.cut hreads
  obtain ⟨entries, rest, hsplit, rfl, rfl⟩ := List.map_eq_append_iff.mp hframes
  refine ⟨entries, rest, hsplit, ?_, hreads.segmented⟩
  rw [hreads.received]
  apply parsePackets_entries
  intro entry hmem
  apply h.handed_holds
  rw [hsplit]
  exact List.mem_append_left _ hmem

theorem filterMap_range (messages : List MatrixServerMessage) :
    (List.range messages.length).filterMap (fun number => messages[number]?) = messages := by
  induction messages with
  | nil => rfl
  | cons message messages ih =>
      rw [List.length_cons, List.range_succ_eq_map, List.filterMap_cons, List.filterMap_map]
      simpa using ih

/-- The entries posted stand for the messages sent. -/
theorem Inv.messagesOf_sent (h : Inv serializeAsString parseFromString st) :
    st.messagesOf st.writer.sent = st.sent := by
  have hnumbers : st.writer.sent.map Entry.number = List.range st.sent.length := by
    rw [h.writer.consistent.numbered, h.numbered]
  have hlook : st.messagesOf st.writer.sent =
      (st.writer.sent.map Entry.number).filterMap fun number => st.sent[number]? := by
    rw [messagesOf, List.filterMap_map]
    rfl
  rw [hlook, hnumbers, filterMap_range]

theorem Inv.accepted_sublist (h : Inv serializeAsString parseFromString st) :
    st.accepted.Sublist st.sent := by
  have hkept := h.writer.consistent.sublist
  rw [h.writer.consistent.started] at hkept
  have hsub := hkept.filterMap fun entry => st.sent[entry.number]?
  rw [← h.messagesOf_sent]
  exact hsub

theorem Inv.received_prefix (h : Inv serializeAsString parseFromString st) :
    st.received <+: st.accepted := by
  obtain ⟨entries, frames, hsplit, hreceived, -⟩ := h.received
  refine ⟨st.messagesOf (frames ++ st.writer.queue.tail), ?_⟩
  have hstarted := h.writer.consistent.started
  rw [hsplit, List.append_assoc] at hstarted
  rw [hreceived, accepted, ← hstarted]
  exact (List.filterMap_append ..).symm

/-- When the queue is empty, no write has failed and nothing is on its way, everything that
was accepted has been received. -/
theorem Inv.received_all (h : Inv serializeAsString parseFromString st)
    (hqueue : st.writer.queue = []) (hfine : st.broken = false) (hread : st.transit = []) :
    st.received = st.accepted := by
  obtain ⟨entries, frames, hsplit, hreceived, hread'⟩ := h.received
  obtain ⟨done, hstreams⟩ := h.streams
  have hidle : st.writer.outstanding = [] := by
    have hflow : st.writer.outstanding = st.writer.queue.head?.toList := h.writer.flowing
    rw [hflow, hqueue]
    rfl
  have hdone : st.writer.handed = done := by
    rw [hstreams.handed, hidle, List.append_nil]
  have hstream : st.read = bytesOf st.writer.handed := by
    have htaken := hstreams.taken hfine
    rw [hread, hidle, bytesOf_nil, List.take_nil, List.append_nil, List.append_nil] at htaken
    rw [htaken, hdone]
  have hopen : st.cobsDecoder.internalStreamBuffer = bytesOf frames := by
    have hbytes := hread'.flatten.trans hstream
    rw [hsplit, bytesOf_append] at hbytes
    exact List.append_cancel_left hbytes
  have hnone : frames = [] := by
    cases frames with
    | nil => rfl
    | cons entry frames =>
        have hmem : entry ∈ st.writer.handed := by
          rw [hsplit]
          simp
        obtain ⟨-, body, hbody, -⟩ := (h.handed_holds entry hmem).bounded
        apply absurd hread'.open_rest
        rw [hopen, not_not]
        simp [bytesOf, hbody]
  have hstarted := h.writer.consistent.started
  rw [hqueue, List.tail_nil, List.append_nil, hsplit, hnone, List.append_nil] at hstarted
  rw [hreceived, accepted, hstarted]

end

end SocketLink

/-- A connection is a first-in first-out channel that loses messages only at its ends: whatever
the pieces the stream is read in, the peer is given the accepted messages in order, a message
is not accepted only when over a hundred wait, and when nothing is on its way none is missing. -/
theorem socket_link_fifo {serializeAsString : MatrixServerMessage → Bytes}
    {parseFromString : Bytes → Option MatrixServerMessage} {st : SocketLink}
    (h : (socketLinks serializeAsString parseFromString).ReachableUnder
      (fun _ => SendsFitting serializeAsString parseFromString) st) :
    st.received <+: st.accepted ∧ st.accepted.Sublist st.sent ∧
      (∀ handled ∈ st.writer.ran, handled.kept = false ↔ handled.pending > 100) ∧
      (st.writer.queue = [] → st.broken = false → st.transit = [] →
        st.received = st.accepted) := by
  have hinv := h.invariant (SocketLink.Inv serializeAsString parseFromString) SocketLink.inv_start
    fun _ _ _ hinv hsends hstep => hinv.step hsends hstep
  refine ⟨hinv.received_prefix, hinv.accepted_sublist, ?_, hinv.received_all⟩
  intro handled hmem
  rw [hinv.writer.consistent.decided handled hmem]
  simp [SocketWriter.drops]

/-- The serialisation of messages that say no more than that an application registers. -/
def registerBytes (message : MatrixServerMessage) : Bytes :=
  if message = { messageType := .registerApp } then [8, 1] else []

def parseRegister (bytes : Bytes) : Option MatrixServerMessage :=
  if bytes = [8, 1] then some { messageType := .registerApp } else none

theorem socket_link_fifo_split_read :
    ∃ st, (socketLinks registerBytes parseRegister).ReachableUnder
        (fun _ => SendsFitting registerBytes parseRegister) st ∧
      st.read = [3, 8, 1, 0] ∧ st.received = [{ messageType := .registerApp }] := by
  have hfits : SendsFitting registerBytes parseRegister
      (.sendMessage { messageType := .registerApp }) := by
    refine ⟨by decide, by decide, ?_⟩
    change 2 + 2 + 0 + receiveBufferSize ≤ Cobs.maxStreamBufferSize
    decide
  have hstart : (socketLinks registerBytes parseRegister).ReachableUnder
      (fun _ => SendsFitting registerBytes parseRegister) {} := .initial
  have hsent := (hstart.step hfits rfl).step (e := SocketLinkEvent.runPosted) True.intro rfl
  have hwritten := (hsent.step (e := SocketLinkEvent.writeSome 3) True.intro rfl).step
    (e := SocketLinkEvent.handleRead 2) True.intro rfl
  have hread := ((hwritten.step (e := SocketLinkEvent.writeSome 1) True.intro rfl).step
    (e := SocketLinkEvent.handleWrite 0 false) True.intro rfl).step
    (e := SocketLinkEvent.handleRead 2) True.intro rfl
  exact ⟨_, hread, rfl, (socket_link_fifo hread).2.2.2 rfl rfl rfl⟩

end MatrixServer
