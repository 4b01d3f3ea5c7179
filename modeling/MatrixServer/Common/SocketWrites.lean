import MatrixServer.Common.Cobs
import MatrixServer.Foundation.TransitionRuns
import MatrixServer.Foundation.WriteQueue

/-!
The write queue of common/SocketConnection.cpp.
Any thread may call `sendMessage`, which only posts a handler; handlers run one
at a time, the posted ones in the order they were posted. A write that fails marks
the connection dead and is otherwise handled like one that succeeds.
-/

namespace MatrixServer
open TransitionRuns WriteQueue

/-- The sending side of a `SocketConnection`. -/
structure SocketWriter extends Writer Bytes where
  dead : Bool := false
  deriving DecidableEq

namespace SocketWriter

/-- `write_queue.size() > 100` -/
def drops (pending : Nat) (_sendBuffer : Bytes) : Bool := pending > 100

/-- `sendMessage`, once the message is encoded. -/
def sendMessage (c : SocketWriter) (sendBuffer : Bytes) : SocketWriter :=
  { c with toWriter := c.post sendBuffer }

/-- The handler that `sendMessage` has posted. -/
def runPosted (c : SocketWriter) : Option SocketWriter :=
  (c.toWriter.runPosted drops).map fun w => { c with toWriter := w }

def handleWrite (c : SocketWriter) (index : Nat) (error : Bool) : Option SocketWriter :=
  (c.finish index).map fun w => { toWriter := w.advance, dead := c.dead || error }

end SocketWriter

inductive SocketEvent where
  | sendMessage (sendBuffer : Bytes)
  | runPosted
  /-- the `async_write` at this place among those in flight completes -/
  | handleWrite (index : Nat) (error : Bool)

def socketWrites : TransitionSystem SocketWriter SocketEvent where
  initial := {}
  step
    | c, .sendMessage sendBuffer => some (c.sendMessage sendBuffer)
    | c, .runPosted => c.runPosted
    | c, .handleWrite index error => c.handleWrite index error

namespace SocketWriter

structure Inv (c : SocketWriter) : Prop where
  consistent : c.Consistent drops
  flowing : c.Flowing
  bounded : c.queue.length ≤ 101

theorem Inv.runPosted {c c' : SocketWriter} (h : c.Inv) (hrun : c.runPosted = some c') :
    c'.Inv := by
  obtain ⟨w, hw, rfl⟩ := Option.map_eq_some_iff.mp hrun
  refine ⟨h.consistent.runPosted hw, h.flowing.runPosted h.consistent hw, ?_⟩
  have hcount : w.queue.countP (fun _ => true) ≤ 101 := by
    apply Writer.runPosted_countP h.consistent _ (by simpa using h.bounded) hw
    intro entry n _ hkeep
    simp only [drops, decide_eq_false_iff_not] at hkeep
    omega
  simpa using hcount

theorem Inv.handleWrite {c c' : SocketWriter} (h : c.Inv) {index : Nat} {error : Bool}
    (hwrite : c.handleWrite index error = some c') : c'.Inv := by
  obtain ⟨w, hfinish, rfl⟩ := Option.map_eq_some_iff.mp hwrite
  obtain ⟨hconsistent, hflowing, hqueue⟩ := h.consistent.finish_advance h.flowing hfinish
  refine ⟨hconsistent, hflowing, ?_⟩
  have hle : w.advance.queue.length ≤ 101 := by
    rw [hqueue, List.length_tail]
    exact Nat.le_trans (Nat.sub_le _ _) h.bounded
  exact hle

theorem Inv.step {c c' : SocketWriter} {e : SocketEvent} (h : c.Inv)
    (hstep : socketWrites.step c e = some c') : c'.Inv := by
  cases e with
  | sendMessage sendBuffer =>
      cases hstep
      exact ⟨h.consistent.post sendBuffer, h.flowing, h.bounded⟩
  | runPosted => exact h.runPosted hstep
  | handleWrite index error => exact h.handleWrite hstep

theorem inv_start : Inv {} := ⟨Writer.consistent_empty, rfl, Nat.zero_le _⟩

theorem inv_of_reachable {c : SocketWriter} (h : socketWrites.Reachable c) : c.Inv :=
  h.invariant Inv inv_start fun _ _ _ hinv _ hstep => hinv.step hstep

end SocketWriter

/-- In every state of a connection the write in flight, if any, is that of the front of the
queue, and the frames handed to `async_write` with those queued behind them are the frames
whose handlers found at most 100 others pending, in post order. -/
theorem socket_write_queue {c : SocketWriter} (h : socketWrites.Reachable c) :
    c.outstanding = c.queue.head?.toList ∧
      (c.isWriting = true ↔ c.queue ≠ []) ∧
      c.emptyAccess = false ∧
      c.queue.length ≤ 101 ∧
      c.handed ++ c.queue.tail = (c.ran.filter Handled.kept).map Handled.entry ∧
      (∀ handled ∈ c.ran, handled.kept = false ↔ handled.pending > 100) ∧
      c.ran.map Handled.entry ++ c.posted = c.sent ∧
      c.sent.map Entry.number = List.range c.sent.length := by
  have hinv := SocketWriter.inv_of_reachable h
  have hcons := hinv.consistent
  refine ⟨hinv.flowing, hcons.writing, hcons.access, hinv.bounded, hcons.started, ?_,
    hcons.posted, hcons.numbered⟩
  intro handled hmem
  rw [hcons.decided handled hmem]
  simp [SocketWriter.drops]

theorem socket_write_queue_after_failed_write :
    ∃ c, socketWrites.Reachable c ∧ c.dead = true ∧ c.handed.length = 2 ∧
      c.outstanding = c.queue.head?.toList := by
  obtain ⟨c, hreach, htest⟩ := TransitionSystem.Reachable.of_test (M := socketWrites)
    [.sendMessage [2, 65, 0], .sendMessage [2, 66, 0], .runPosted, .runPosted, .handleWrite 0 true]
    (fun c => c.dead && c.handed.length == 2) (by decide)
  simp only [Bool.and_eq_true, beq_iff_eq] at htest
  exact ⟨c, hreach, htest.1, htest.2, (socket_write_queue hreach).1⟩

end MatrixServer
