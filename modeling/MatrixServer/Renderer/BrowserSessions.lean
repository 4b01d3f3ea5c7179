import MatrixServer.Renderer.WsSession

/-!
The sessions of renderer/WebSocketSimulatorRenderer/WebSocketSimulatorRenderer.cpp.
The io thread runs the handlers of all sessions one at a time. Sessions are kept in
the order they were accepted, and `activeSession` is a place in this list. The
callback given to every session as `on_close_` resets `activeSession`, whichever
session it refers to.
-/

namespace MatrixServer
open TransitionRuns

structure BrowserSessions where
  sessions : List WsSession := []
  activeSession : Option Nat := none
  deriving DecidableEq

inductive BrowserEvent where
  /-- the handler of the acceptor's `async_accept` -/
  | doAccept (ec : Bool)
  /-- a handler of the session at this place -/
  | handle (index : Nat) (handler : WsHandler)
  /-- the `send_msg` of a `render` or `sendMessage` that found this session active -/
  | sendMsg (index : Nat) (message : WsMessage)

namespace BrowserSessions

def doAccept (st : BrowserSessions) (ec : Bool) : BrowserSessions :=
  if ec then st
  else { sessions := st.sessions ++ [{}], activeSession := some st.sessions.length }

/-- The lambda `do_accept` gives to each session. -/
def onClose (st : BrowserSessions) : BrowserSessions := { st with activeSession := none }

def handle (st : BrowserSessions) (index : Nat) (handler : WsHandler) : Option BrowserSessions :=
  (st.sessions[index]?.bind fun session => session.handle handler).map fun handled =>
    let after := { st with sessions := st.sessions.set index handled.1 }
    if handled.2 then after.onClose else after

def sendMsg (st : BrowserSessions) (index : Nat) (message : WsMessage) : BrowserSessions :=
  { st with sessions := st.sessions.modify index fun session => session.sendMsg message }

end BrowserSessions

def browserSessions : TransitionSystem BrowserSessions BrowserEvent where
  initial := {}
  step
    | st, .doAccept ec => some (st.doAccept ec)
    | st, .handle index handler => st.handle index handler
    | st, .sendMsg index message => some (st.sendMsg index message)

namespace BrowserSessions

/-- The most recently accepted session has closed, or there is none. -/
def newestClosed (st : BrowserSessions) : Bool := st.sessions.getLast?.all WsSession.closed

def NewestActive (st : BrowserSessions) : Prop :=
  st.newestClosed = false → st.activeSession = some (st.sessions.length - 1)

/-- No older session reports an error while the newest one is open. -/
def ClosesInOrder (st : BrowserSessions) : BrowserEvent → Prop
  | .handle index handler =>
      handler.reportsError = true → index + 1 = st.sessions.length ∨ st.newestClosed = true
  | _ => True

instance (st : BrowserSessions) : ∀ e, Decidable (st.ClosesInOrder e)
  | .handle _ _ => inferInstanceAs (Decidable (_ → _))
  | .doAccept _ | .sendMsg _ _ => inferInstanceAs (Decidable True)

/-- A list changed in one place has a new last element, or the old one. -/
theorem getLast?_set {α : Type} {l : List α} {index : Nat} (hlt : index < l.length) (a : α) :
    (l.set index a).getLast? = if index + 1 = l.length then some a else l.getLast? := by
  rw [List.getLast?_eq_getElem?, List.getLast?_eq_getElem?, List.length_set, List.getElem?_set]
  split <;> split <;> first | rfl | omega

theorem handle_cases {st st' : BrowserSessions} {index : Nat} {handler : WsHandler}
    (hhandle : st.handle index handler = some st') :
    index < st.sessions.length ∧ st'.sessions.length = st.sessions.length ∧
      st'.activeSession = (if handler.reportsError then none else st.activeSession) ∧
      st'.newestClosed = (st.newestClosed ||
        (handler.reportsError && decide (index + 1 = st.sessions.length))) := by
  obtain ⟨⟨session', closes⟩, hbind, rfl⟩ := Option.map_eq_some_iff.mp hhandle
  obtain ⟨session, hget, hsession⟩ := Option.bind_eq_some_iff.mp hbind
  obtain ⟨hlt, rfl⟩ := List.getElem?_eq_some_iff.mp hget
  obtain ⟨rfl, hclosed⟩ := WsSession.handle_closes hsession
  have hnewest : (st.sessions.set index session').getLast?.all WsSession.closed =
      (st.newestClosed || (handler.reportsError && decide (index + 1 = st.sessions.length))) := by
    rw [getLast?_set hlt]
    split
    · rename_i hlast
      have hold : st.newestClosed = st.sessions[index].closed := by
        rw [newestClosed, List.getLast?_eq_getElem?, ← hlast, Nat.add_sub_cancel, hget]
        rfl
      simp [hold, hclosed, hlast]
    · rename_i hlast
      simp [newestClosed, hlast]
  refine ⟨hlt, ?_, ?_, ?_⟩ <;> cases hreports : handler.reportsError <;>
    simp_all [onClose, newestClosed]

theorem sendMsg_newestClosed (st : BrowserSessions) (index : Nat) (message : WsMessage) :
    (st.sendMsg index message).newestClosed = st.newestClosed := by
  simp only [newestClosed, sendMsg, List.getLast?_eq_getElem?, List.length_modify,
    List.getElem?_modify]
  cases st.sessions[st.sessions.length - 1]? with
  | none => rfl
  | some session => split <;> rfl

/-- A step keeps the newest open session active exactly when it closes in order. -/
theorem newestActive_step {st st' : BrowserSessions} {e : BrowserEvent} (h : st.NewestActive)
    (hstep : browserSessions.step st e = some st') : st'.NewestActive ↔ st.ClosesInOrder e := by
  cases e with
  | doAccept ec =>
      cases hstep
      refine ⟨fun _ => trivial, fun _ hopen => ?_⟩
      cases ec with
      | true => exact h hopen
      | false => simp [doAccept]
  | sendMsg index message =>
      cases hstep
      refine ⟨fun _ => trivial, fun _ hopen => ?_⟩
      rw [sendMsg_newestClosed] at hopen
      simpa [sendMsg] using h hopen
  | handle index handler =>
      obtain ⟨hlt, hlength, hactive, hclosed⟩ := handle_cases hstep
      simp only [NewestActive, ClosesInOrder, hlength, hactive, hclosed]
      cases hreports : handler.reportsError with
      | false => simpa [NewestActive] using h
      | true =>
          cases hopen : st.newestClosed with
          | true => simp
          | false => simp

end BrowserSessions

/-- While sessions close in order the newest open session stays the active one, and the first
close out of order ends this. -/
theorem newest_session_active {st : BrowserSessions}
    (h : browserSessions.ReachableUnder BrowserSessions.ClosesInOrder st) :
    st.NewestActive ∧ ∀ e st', browserSessions.step st e = some st' →
      (st'.NewestActive ↔ st.ClosesInOrder e) := by
  have hactive : st.NewestActive :=
    h.invariant BrowserSessions.NewestActive (fun hopen => by cases hopen)
      fun _ _ _ hinv hguard hstep => (BrowserSessions.newestActive_step hinv hstep).mpr hguard
  exact ⟨hactive, fun _ _ hstep => BrowserSessions.newestActive_step hactive hstep⟩

/-- A second browser connects, its handshake succeeds, and the first one goes. -/
def staleCloseSchedule : List BrowserEvent :=
  [.doAccept false, .handle 0 (.onAccept false), .doAccept false, .handle 1 (.onAccept false),
    .handle 0 (.onRead true)]

theorem newest_session_active_until_stale_close :
    ∃ st, browserSessions.ReachableUnder BrowserSessions.ClosesInOrder st ∧
      st.sessions.length = 2 ∧ st.NewestActive := by
  have hreplay : (browserSessions.replayUnder BrowserSessions.ClosesInOrder {}
      (staleCloseSchedule.take 4)).any (fun st => st.sessions.length = 2) = true := by decide
  obtain ⟨st, hrun, hlength⟩ := (Option.any_eq_true _ _).mp hreplay
  have hreach := TransitionSystem.ReachableUnder.of_replayUnder (M := browserSessions) _ hrun
  exact ⟨st, hreach, of_decide_eq_true hlength, (newest_session_active hreach).1⟩

theorem stale_close_unregisters_newest :
    ∃ st, browserSessions.Reachable st ∧ ¬st.NewestActive ∧ st.newestClosed = false ∧
      st.activeSession = none := by
  obtain ⟨st, hreach, htest⟩ := TransitionSystem.Reachable.of_test (M := browserSessions)
    staleCloseSchedule (fun st => !st.newestClosed && st.activeSession == none) (by decide)
  simp only [Bool.and_eq_true, Bool.not_eq_true', beq_iff_eq] at htest
  obtain ⟨hopen, hnone⟩ := htest
  refine ⟨st, hreach, fun hactive => ?_, hopen, hnone⟩
  have hsome := hactive hopen
  rw [hnone] at hsome
  cases hsome

end MatrixServer
