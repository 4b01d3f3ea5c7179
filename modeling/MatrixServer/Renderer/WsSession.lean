import MatrixServer.Common.Cobs
import MatrixServer.Foundation.TransitionRuns
import MatrixServer.Foundation.WriteQueue

/-!
A browser's session, renderer/WebSocketSimulatorRenderer/WsSession.h.
Each handler also returns whether it called `on_close_`. A write that fails ends
`on_write` early: the queue keeps its front and `is_writing_` stays set, so nothing
is written any more. What the callback does with a message read is left out.
-/

namespace MatrixServer
open TransitionRuns WriteQueue

/-- A message for the browser; a frame of pixels is droppable, a control message is not. -/
structure WsMessage where
  msg : Bytes
  droppable : Bool
  deriving DecidableEq

/-- A session after `run`, which starts the handshake. -/
structure WsSession extends Writer WsMessage where
  /-- the `async_accept` of the handshake is outstanding -/
  accepting : Bool := true
  /-- an `async_read` is outstanding -/
  reading : Bool := false
  /-- `on_write` was called with an error -/
  writeFailed : Bool := false
  /-- `on_close_` was called -/
  closed : Bool := false
  deriving DecidableEq

inductive WsHandler where
  | onAccept (ec : Bool)
  | onRead (ec : Bool)
  /-- the oldest handler posted by `send_msg` -/
  | runPosted
  /-- the `async_write` at this place among those in flight completes -/
  | onWrite (index : Nat) (ec : Bool)
  deriving DecidableEq

/-- The handler is called with an error. -/
def WsHandler.reportsError : WsHandler → Bool
  | .onAccept ec | .onRead ec | .onWrite _ ec => ec
  | .runPosted => false

namespace WsSession

/-- `droppable && write_queue_.size() > 2` -/
def drops (pending : Nat) (message : WsMessage) : Bool := message.droppable && pending > 2

def onAccept (s : WsSession) (ec : Bool) : Option (WsSession × Bool) :=
  if !s.accepting then none
  else if ec then some ({ s with accepting := false, closed := true }, true)
  else some ({ s with accepting := false, reading := true }, false)

def onRead (s : WsSession) (ec : Bool) : Option (WsSession × Bool) :=
  if !s.reading then none
  else if ec then some ({ s with reading := false, closed := true }, true)
  else some (s, false)

def sendMsg (s : WsSession) (message : WsMessage) : WsSession :=
  { s with toWriter := s.post message }

def runPosted (s : WsSession) : Option (WsSession × Bool) :=
  (s.toWriter.runPosted drops).map fun w => ({ s with toWriter := w }, false)

def onWrite (s : WsSession) (index : Nat) (ec : Bool) : Option (WsSession × Bool) :=
  (s.finish index).map fun w =>
    if ec then ({ s with toWriter := w, writeFailed := true, closed := true }, true)
    else ({ s with toWriter := w.advance }, false)

def handle (s : WsSession) : WsHandler → Option (WsSession × Bool)
  | .onAccept ec => s.onAccept ec
  | .onRead ec => s.onRead ec
  | .runPosted => s.runPosted
  | .onWrite index ec => s.onWrite index ec

/-- A handler calls `on_close_` exactly when it reports an error, and then closes the session. -/
theorem handle_closes {s s' : WsSession} {h : WsHandler} {closes : Bool}
    (hhandle : s.handle h = some (s', closes)) :
    closes = h.reportsError ∧ s'.closed = (s.closed || h.reportsError) := by
  cases h with
  | onAccept ec | onRead ec =>
      simp only [handle, onAccept, onRead] at hhandle
      split at hhandle
      · cases hhandle
      · split at hhandle <;> cases hhandle <;> simp_all [WsHandler.reportsError]
  | runPosted =>
      obtain ⟨w, -, heq⟩ := Option.map_eq_some_iff.mp hhandle
      cases heq
      simp [WsHandler.reportsError]
  | onWrite index ec =>
      obtain ⟨w, -, heq⟩ := Option.map_eq_some_iff.mp hhandle
      split at heq <;> cases heq <;> simp_all [WsHandler.reportsError]

/-- While writes succeed the front is in flight; after a failure nothing is. -/
structure Inv (s : WsSession) : Prop where
  consistent : s.Consistent drops
  flowing : s.writeFailed = false → s.Flowing
  stalled : s.writeFailed = true → s.Stalled
  droppables : s.queue.countP (fun e => e.message.droppable) ≤ 3

theorem inv_start : Inv {} :=
  { consistent := Writer.consistent_empty
    flowing := fun _ => rfl
    stalled := fun h => by cases h
    droppables := Nat.zero_le _ }

theorem Inv.sendMsg {s : WsSession} (h : s.Inv) (message : WsMessage) : (s.sendMsg message).Inv :=
  ⟨h.consistent.post message, h.flowing, h.stalled, h.droppables⟩

theorem Inv.runPosted {s s' : WsSession} {closes : Bool} (h : s.Inv)
    (hrun : s.runPosted = some (s', closes)) :
    s'.Inv ∧ s'.writeFailed = s.writeFailed ∧ (s.writeFailed = true → s'.handed = s.handed) := by
  obtain ⟨w, hw, heq⟩ := Option.map_eq_some_iff.mp hrun
  cases heq
  refine ⟨⟨h.consistent.runPosted hw, fun hfine => (h.flowing hfine).runPosted h.consistent hw,
    fun hfail => ((h.stalled hfail).runPosted h.consistent hw).1, ?_⟩, rfl,
    fun hfail => ((h.stalled hfail).runPosted h.consistent hw).2⟩
  apply Writer.runPosted_countP h.consistent _ h.droppables hw
  intro entry n hdroppable hkeep
  simp only [drops, hdroppable, Bool.true_and, decide_eq_false_iff_not] at hkeep
  omega

theorem Inv.onWrite {s s' : WsSession} {closes : Bool} (h : s.Inv) {index : Nat} {ec : Bool}
    (hwrite : s.onWrite index ec = some (s', closes)) : s'.Inv ∧ s.writeFailed = false := by
  obtain ⟨w, hfinish, heq⟩ := Option.map_eq_some_iff.mp hwrite
  cases hfail : s.writeFailed with
  | true =>
      rw [(h.stalled hfail).finish] at hfinish
      cases hfinish
  | false =>
      have hflow := h.flowing hfail
      split at heq <;> cases heq
      · obtain ⟨hqueue, rfl⟩ := hflow.finish hfinish
        exact ⟨⟨{ h.consistent with }, fun hfine => (by cases hfine), fun _ => ⟨rfl, hqueue⟩,
          h.droppables⟩, rfl⟩
      · obtain ⟨hconsistent, hflowing, hqueue⟩ := h.consistent.finish_advance hflow hfinish
        refine ⟨⟨hconsistent, fun _ => hflowing, fun hfailed => ?_, ?_⟩, rfl⟩
        · rw [hfail] at hfailed
          cases hfailed
        · have hle : w.advance.queue.countP (fun e => e.message.droppable) ≤ 3 := by
            rw [hqueue]
            exact Nat.le_trans (List.tail_sublist _).countP_le h.droppables
          exact hle

end WsSession

inductive WsEvent where
  | sendMsg (message : WsMessage)
  | handle (handler : WsHandler)

def wsSession : TransitionSystem WsSession WsEvent where
  initial := {}
  step
    | s, .sendMsg message => some (s.sendMsg message)
    | s, .handle handler => (s.handle handler).map Prod.fst

namespace WsSession

theorem Inv.step {s s' : WsSession} {e : WsEvent} (h : s.Inv)
    (hstep : wsSession.step s e = some s') :
    s'.Inv ∧ (s.writeFailed = true → s'.writeFailed = true ∧ s'.handed = s.handed) := by
  cases e with
  | sendMsg message =>
      cases hstep
      exact ⟨h.sendMsg message, fun hfail => ⟨hfail, rfl⟩⟩
  | handle handler =>
      obtain ⟨⟨_, closes⟩, hhandle, rfl⟩ := Option.map_eq_some_iff.mp hstep
      cases handler with
      | onAccept ec | onRead ec =>
          simp only [WsSession.handle, onAccept, onRead] at hhandle
          split at hhandle
          · cases hhandle
          · split at hhandle <;> cases hhandle <;>
              exact ⟨⟨h.consistent, h.flowing, h.stalled, h.droppables⟩, fun hfail => ⟨hfail, rfl⟩⟩
      | runPosted =>
          obtain ⟨hinv, hsame, hhanded⟩ := h.runPosted hhandle
          exact ⟨hinv, fun hfail => ⟨hsame.trans hfail, hhanded hfail⟩⟩
      | onWrite index ec =>
          obtain ⟨hinv, hfine⟩ := h.onWrite hhandle
          refine ⟨hinv, fun hfail => ?_⟩
          rw [hfine] at hfail
          cases hfail

theorem inv_of_reachable {s : WsSession} (h : wsSession.Reachable s) : s.Inv :=
  h.invariant Inv inv_start fun _ _ _ hinv _ hstep => (hinv.step hstep).1

end WsSession

/-- In every state of a session the write in flight, if any, is that of the front. The messages
handed to `async_write` with those queued behind them are sent ones in order, without repetition,
and miss only unhandled ones and droppable ones that found three messages queued. After a failed
write none is ever started. -/
theorem ws_write_queue {s : WsSession} (h : wsSession.Reachable s) :
    s.outstanding = (if s.writeFailed then [] else s.queue.head?.toList) ∧
      (s.handed ++ s.queue.tail).Sublist s.sent ∧
      s.sent.map Entry.number = List.range s.sent.length ∧
      (∀ e ∈ s.sent, e ∈ s.handed ++ s.queue.tail ∨ e ∈ s.posted ∨
        ∃ handled ∈ s.ran, handled.entry = e ∧ e.message.droppable = true ∧ 3 ≤ handled.pending) ∧
      s.queue.countP (fun e => e.message.droppable) ≤ 3 ∧
      (s.writeFailed = true → ∀ events s', wsSession.replay s events = some s' →
        s'.handed = s.handed ∧ s'.outstanding = []) := by
  have hinv := WsSession.inv_of_reachable h
  refine ⟨?_, hinv.consistent.sublist, hinv.consistent.numbered, fun e he => ?_, hinv.droppables,
    fun hfail events s' hrun => ?_⟩
  · cases hfail : s.writeFailed with
    | false => exact hinv.flowing hfail
    | true => exact (hinv.stalled hfail).1
  · refine (hinv.consistent.mem_sent he).imp_right (Or.imp_right ?_)
    rintro ⟨handled, hmem, hentry, hdrop⟩
    simp only [WsSession.drops, Bool.and_eq_true, decide_eq_true_eq] at hdrop
    exact ⟨handled, hmem, hentry, hdrop⟩
  · obtain ⟨hlast, hfailed, hhanded⟩ := TransitionSystem.replayUnder_keeps
      (P := fun t => t.Inv ∧ t.writeFailed = true ∧ t.handed = s.handed)
      (fun t e t' ht _ hstep => by
        obtain ⟨hinv, hafter⟩ := ht.1.step hstep
        obtain ⟨hstill, hsame⟩ := hafter ht.2.1
        exact ⟨hinv, hstill, hsame.trans ht.2.2⟩)
      events ⟨hinv, hfail, rfl⟩ hrun
    exact ⟨hhanded, (hlast.stalled hfailed).1⟩

theorem ws_write_queue_after_failed_write :
    ∃ s, wsSession.Reachable s ∧ s.writeFailed = true ∧ s.queue.length = 3 ∧
      ∀ events s', wsSession.replay s events = some s' →
        s'.handed = s.handed ∧ s'.outstanding = [] := by
  obtain ⟨s, hreach, htest⟩ := TransitionSystem.Reachable.of_test (M := wsSession)
    ([.sendMsg ⟨[1], true⟩, .sendMsg ⟨[2], false⟩, .sendMsg ⟨[3], true⟩, .sendMsg ⟨[4], true⟩] ++
      List.replicate 4 (.handle .runPosted) ++ [.handle (.onWrite 0 true)])
    (fun s => s.writeFailed && s.queue.length == 3) (by decide)
  simp only [Bool.and_eq_true, beq_iff_eq] at htest
  exact ⟨s, hreach, htest.1, htest.2, (ws_write_queue hreach).2.2.2.2.2 htest.1⟩

end MatrixServer
