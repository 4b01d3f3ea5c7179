import MatrixServer.Common.SocketWrites

/-!
The `io_context` of an application over all its TCP connections.
`run` serves handlers until nothing is outstanding and leaves the context stopped;
nothing restarts it, and `run` on a stopped context returns at once. Outstanding
are the reads, writes and posts of all connections made so far. The content of the
messages is left out; what an operation's outcome is comes from outside.
-/

namespace MatrixServer
open TransitionRuns

/-- A `SocketConnection`, as far as the `io_context` is concerned. -/
structure SocketConnection where
  dead : Bool := false
  /-- an `async_read_some` is outstanding -/
  reading : Bool := false
  /-- the handlers that `sendMessage` has posted -/
  posted : Nat := 0
  /-- the length of `write_queue` -/
  writeQueue : Nat := 0
  /-- `is_writing`: an `async_write` is outstanding -/
  isWriting : Bool := false
  deriving DecidableEq

namespace SocketConnection

def work (c : SocketConnection) : Nat := c.reading.toNat + c.posted + c.isWriting.toNat

def startReceiving (c : SocketConnection) : SocketConnection := { c with reading := true }

def sendMessage (c : SocketConnection) : SocketConnection := { c with posted := c.posted + 1 }

/-- `handleRead`; the messages received make the callback send some replies. -/
def handleRead (c : SocketConnection) (error : Bool) (replies : Nat) : Option SocketConnection :=
  if !c.reading then none
  else if error then some { c with reading := false, dead := true }
  else some { c with posted := c.posted + replies }

/-- The handler posted by `sendMessage`. -/
def runPosted (c : SocketConnection) : Option SocketConnection :=
  if c.posted = 0 then none
  else
    let taken := { c with posted := c.posted - 1 }
    if c.writeQueue > 100 then some taken
    else some { taken with
      writeQueue := c.writeQueue + 1
      isWriting := c.isWriting || c.writeQueue = 0 }

def handleWrite (c : SocketConnection) (error : Bool) : Option SocketConnection :=
  if !c.isWriting then none
  else some { c with
    dead := c.dead || error
    writeQueue := c.writeQueue - 1
    isWriting := c.writeQueue - 1 ≠ 0 }

/-- A connection that is not dead has its read outstanding. -/
def Receiving (c : SocketConnection) : Prop := c.dead = false → c.reading = true

/-- A handler keeps a connection receiving and never revives it. -/
def Keeps (handler : SocketConnection → Option SocketConnection) : Prop :=
  ∀ c c', handler c = some c' → (c.Receiving → c'.Receiving) ∧ (c'.dead = false → c.dead = false)

theorem handleRead_keeps (error : Bool) (replies : Nat) :
    Keeps fun c => c.handleRead error replies := by
  intro c c' hread
  simp only [handleRead] at hread
  split at hread
  · cases hread
  · split at hread <;> cases hread
    · exact ⟨fun _ => nofun, nofun⟩
    · exact ⟨id, id⟩

theorem runPosted_keeps : Keeps runPosted := by
  intro c c' hpost
  simp only [runPosted] at hpost
  split at hpost
  · cases hpost
  · split at hpost <;> cases hpost <;> exact ⟨id, id⟩

theorem handleWrite_keeps (error : Bool) : Keeps fun c => c.handleWrite error := by
  intro c c' hwrite
  simp only [handleWrite] at hwrite
  split at hwrite
  · cases hwrite
  · cases hwrite
    exact ⟨fun h hlive => h (Bool.or_eq_false_iff.mp hlive).1,
      fun hlive => (Bool.or_eq_false_iff.mp hlive).1⟩

/-- A sending side counted, beside the read. -/
def counts (w : SocketWriter) (reading : Bool) : SocketConnection where
  dead := w.dead
  reading := reading
  posted := w.posted.length
  writeQueue := w.queue.length
  isWriting := w.isWriting

theorem counts_sendMessage (w : SocketWriter) (reading : Bool) (sendBuffer : Bytes) :
    counts (w.sendMessage sendBuffer) reading = (counts w reading).sendMessage := by
  simp [counts, SocketWriter.sendMessage, WriteQueue.Writer.post, sendMessage]

theorem counts_runPosted {w w' : SocketWriter} (h : w.Inv) (reading : Bool)
    (hrun : w.runPosted = some w') : (counts w reading).runPosted = some (counts w' reading) := by
  obtain ⟨writer, hwriter, rfl⟩ := Option.map_eq_some_iff.mp hrun
  obtain ⟨entry, posted, hposted, hcases⟩ := WriteQueue.Writer.runPosted_cases h.consistent hwriter
  have hwriting := h.consistent.writing
  obtain ⟨hdrop, rfl⟩ | ⟨hkeep, hqueue, rfl⟩ | ⟨hkeep, hqueue, rfl⟩ := hcases
  · simp only [SocketWriter.drops, decide_eq_true_eq] at hdrop
    simp [runPosted, counts, hposted, hdrop]
  · simp [runPosted, counts, hposted, hqueue]
  · simp only [SocketWriter.drops, decide_eq_false_iff_not] at hkeep
    simp [runPosted, counts, hposted, hkeep, hqueue, hwriting.mpr hqueue]

theorem counts_handleWrite {w w' : SocketWriter} (h : w.Inv) (reading : Bool) {index : Nat}
    {error : Bool} (hwrite : w.handleWrite index error = some w') :
    (counts w reading).handleWrite error = some (counts w' reading) := by
  obtain ⟨writer, hfinish, rfl⟩ := Option.map_eq_some_iff.mp hwrite
  obtain ⟨hconsistent, -, hnext⟩ := h.consistent.finish_advance h.flowing hfinish
  have hqueue := (h.flowing.finish hfinish).1
  have hstays : writer.advance.isWriting = decide (w.queue.length - 1 ≠ 0) := by
    rw [Bool.eq_iff_iff, hconsistent.writing, hnext, decide_eq_true_iff, ← List.length_tail,
      ne_eq, ne_eq, List.length_eq_zero_iff]
  have hposted : writer.posted = w.posted := by rw [(h.flowing.finish hfinish).2]
  simp [handleWrite, counts, h.consistent.writing.mpr hqueue, hstays, hnext, hposted]

end SocketConnection

structure AppIo where
  stopped : Bool := false
  /-- threads created that have not called `run` yet -/
  spawned : Nat := 0
  /-- threads inside `run` -/
  runners : Nat := 0
  /-- all connections made with this context, newest first -/
  connections : List SocketConnection := []
  /-- the main thread is inside `connect`, after `TcpClient::connect` -/
  connecting : Bool := false
  /-- what the last `connect` returned -/
  connected : Bool := false
  deriving DecidableEq

inductive IoEvent where
  /-- `TcpClient::connect` -/
  | tcpConnect (succeeds : Bool)
  /-- the rest of `MatrixApplication::connect` -/
  | returnConnect
  | sendMessage
  | enterRun
  | handleRead (index : Nat) (error : Bool) (replies : Nat)
  | runPosted (index : Nat)
  | handleWrite (index : Nat) (error : Bool)
  | runOut
  | leaveRun

namespace AppIo

def work (st : AppIo) : Nat := st.connections.foldr (fun c others => c.work + others) 0

/-- `connection` is dead, or there is none yet. -/
def isDead (st : AppIo) : Bool := st.connections.head?.all SocketConnection.dead

/-- A thread inside `run` takes a handler of one connection. -/
def runHandler (st : AppIo) (index : Nat)
    (handler : SocketConnection → Option SocketConnection) : Option AppIo :=
  if st.runners = 0 ∨ st.stopped then none
  else
    (st.connections[index]?.bind handler).map fun connection =>
      { st with connections := st.connections.set index connection }

def step (st : AppIo) : IoEvent → Option AppIo
  | .tcpConnect succeeds =>
      if st.connecting ∨ !st.isDead then none
      else
        let connection : SocketConnection :=
          if succeeds then ({} : SocketConnection).startReceiving else { dead := true }
        some { st with connections := connection :: st.connections, connecting := true }
  | .returnConnect =>
      if !st.connecting then none
      else if st.isDead then some { st with connecting := false, connected := false }
      else some { st with connecting := false, connected := true, spawned := st.spawned + 1 }
  | .sendMessage =>
      some { st with connections := st.connections.modifyHead SocketConnection.sendMessage }
  | .enterRun =>
      if st.spawned = 0 then none
      else if st.stopped then some { st with spawned := st.spawned - 1 }
      else some { st with spawned := st.spawned - 1, runners := st.runners + 1 }
  | .handleRead index error replies =>
      st.runHandler index fun connection => connection.handleRead error replies
  | .runPosted index => st.runHandler index SocketConnection.runPosted
  | .handleWrite index error => st.runHandler index fun connection => connection.handleWrite error
  | .runOut =>
      if st.runners = 0 ∨ st.stopped ∨ st.work ≠ 0 then none else some { st with stopped := true }
  | .leaveRun =>
      if st.runners = 0 ∨ !st.stopped then none else some { st with runners := st.runners - 1 }

end AppIo

def ioRuns : TransitionSystem AppIo IoEvent where
  initial := {}
  step := AppIo.step

/-- A connection is made only while the `io_context` is not stopped. -/
def ConnectsBeforeStop (st : AppIo) : IoEvent → Prop
  | .tcpConnect succeeds => succeeds = true → st.stopped = false
  | _ => True

instance (st : AppIo) : (e : IoEvent) → Decidable (ConnectsBeforeStop st e)
  | .tcpConnect _ => inferInstanceAs (Decidable (_ → _))
  | .returnConnect | .sendMessage | .enterRun | .handleRead _ _ _ | .runPosted _
  | .handleWrite _ _ | .runOut | .leaveRun => .isTrue trivial

namespace AppIo

/-- A live connection is receiving on a context that is not stopped. -/
structure IoInv (st : AppIo) : Prop where
  receiving : ∀ c ∈ st.connections.head?, c.Receiving
  unstopped : st.isDead = false → st.stopped = false
  served : st.connected = true → st.stopped = false → 0 < st.spawned + st.runners

theorem isDead_eq_false_iff (st : AppIo) :
    st.isDead = false ↔ ∃ c ∈ st.connections.head?, c.dead = false := by
  simp only [isDead]
  cases st.connections.head? <;> simp

/-- The outstanding read of a live connection keeps `run` from running out. -/
theorem work_ne_zero {st : AppIo} (h : st.IoInv) (hlive : st.isDead = false) : st.work ≠ 0 := by
  obtain ⟨c, hc, hdead⟩ := st.isDead_eq_false_iff.mp hlive
  have hreading := h.receiving c hc hdead
  obtain ⟨rest, hrest⟩ := List.head?_eq_some_iff.mp hc
  simp [work, hrest, SocketConnection.work, hreading]

theorem runHandler_inv {st st' : AppIo} (h : st.IoInv) {index : Nat}
    {handler : SocketConnection → Option SocketConnection}
    (hkeeps : SocketConnection.Keeps handler)
    (hrun : st.runHandler index handler = some st') : st'.IoInv := by
  simp only [runHandler] at hrun
  split at hrun
  · cases hrun
  obtain ⟨c', hhandled, rfl⟩ := Option.map_eq_some_iff.mp hrun
  obtain ⟨c, hc, hhandler⟩ := Option.bind_eq_some_iff.mp hhandled
  obtain ⟨hreceiving, hdead⟩ := hkeeps c c' hhandler
  obtain ⟨hold, hunstopped, hserved⟩ := h
  simp only [isDead] at hunstopped
  refine ⟨?_, ?_, hserved⟩
  · cases hl : st.connections with
    | nil => simp
    | cons head rest =>
        rw [hl] at hc hold
        cases index with
        | zero =>
            cases hc
            intro d hd
            cases hd
            exact hreceiving (hold c rfl)
        | succ index => exact hold
  · simp only [isDead]
    cases hl : st.connections with
    | nil => exact nofun
    | cons head rest =>
        rw [hl] at hc hunstopped
        cases index with
        | zero =>
            cases hc
            exact fun hlive => hunstopped (hdead hlive)
        | succ index => exact hunstopped

theorem ioInv_step {st st' : AppIo} {e : IoEvent} (h : st.IoInv) (hguard : ConnectsBeforeStop st e)
    (hstep : st.step e = some st') : st'.IoInv := by
  cases e with
  | tcpConnect succeeds =>
      simp only [step] at hstep
      split at hstep
      · cases hstep
      · cases hstep
        cases succeeds with
        | true => exact ⟨fun c hc => by cases hc; exact fun _ => rfl, fun _ => hguard rfl, h.served⟩
        | false => exact ⟨fun c hc => by cases hc; exact nofun, nofun, h.served⟩
  | returnConnect =>
      simp only [step] at hstep
      split at hstep
      · cases hstep
      · split at hstep
        · cases hstep
          exact ⟨h.receiving, h.unstopped, nofun⟩
        · cases hstep
          exact ⟨h.receiving, h.unstopped, fun _ _ => by simp only; omega⟩
  | sendMessage =>
      cases hstep
      obtain ⟨hreceiving, hunstopped, hserved⟩ := h
      simp only [isDead] at hunstopped
      refine ⟨?_, ?_, hserved⟩
      · intro c hc
        simp only [List.head?_modifyHead, Option.mem_def, Option.map_eq_some_iff] at hc
        obtain ⟨old, hold, rfl⟩ := hc
        exact hreceiving old hold
      · simp only [isDead]
        simp only [List.head?_modifyHead, Option.all_map]
        exact hunstopped
  | enterRun =>
      simp only [step] at hstep
      split at hstep
      · cases hstep
      · split at hstep <;> cases hstep
        · rename_i hstopped
          exact ⟨h.receiving, h.unstopped, fun _ hrunning => by cases hstopped.symm.trans hrunning⟩
        · exact ⟨h.receiving, h.unstopped, fun _ _ => by simp only; omega⟩
  | handleRead index error replies =>
      exact runHandler_inv h (SocketConnection.handleRead_keeps error replies) hstep
  | runPosted index => exact runHandler_inv h SocketConnection.runPosted_keeps hstep
  | handleWrite index error =>
      exact runHandler_inv h (SocketConnection.handleWrite_keeps error) hstep
  | runOut =>
      simp only [step] at hstep
      split at hstep
      · cases hstep
      · rename_i hidle
        cases hstep
        refine ⟨h.receiving, fun hlive => ?_, fun _ => nofun⟩
        exact absurd (Or.inr (Or.inr (work_ne_zero h hlive))) hidle
  | leaveRun =>
      simp only [step] at hstep
      split at hstep
      · cases hstep
      · rename_i hstopped
        cases hstep
        refine ⟨h.receiving, h.unstopped, fun _ hrunning => ?_⟩
        simp [show st.stopped = false from hrunning] at hstopped

/-- A connection that `connect` has returned and that is not dead can be served. -/
def Served (st : AppIo) : Prop := st.connected = true → st.isDead = false → st.stopped = false

end AppIo

/-- As long as connections are made before the context stops, the last connection returned
is served: its read is outstanding and a thread is in `run` or on its way. The next
connection is served exactly when it, too, is made before the stop. -/
theorem connection_served_iff_before_stop (st : AppIo)
    (h : ioRuns.ReachableUnder ConnectsBeforeStop st) :
    (st.connected = true → st.isDead = false →
      st.stopped = false ∧ (∃ c ∈ st.connections.head?, c.reading = true) ∧
        0 < st.spawned + st.runners) ∧
    ∀ st' st'', st.step (.tcpConnect true) = some st' → st'.step .returnConnect = some st'' →
      (st''.Served ↔ st.stopped = false) := by
  have hinv : st.IoInv := by
    refine h.invariant AppIo.IoInv ⟨fun c hc => ?_, fun _ => rfl, fun hconnected => ?_⟩
      fun _ _ _ hst hguard hstep => AppIo.ioInv_step hst hguard hstep
    · cases hc
    · cases hconnected
  refine ⟨fun hconnected hlive => ?_, fun st' st'' hconnect hreturn => ?_⟩
  · have hunstopped := hinv.unstopped hlive
    obtain ⟨c, hc, hdead⟩ := st.isDead_eq_false_iff.mp hlive
    exact ⟨hunstopped, ⟨c, hc, hinv.receiving c hc hdead⟩, hinv.served hconnected hunstopped⟩
  · simp only [AppIo.step] at hconnect
    split at hconnect
    · cases hconnect
    · cases hconnect
      cases hreturn
      exact ⟨fun hserved => hserved rfl rfl, fun hunstopped _ _ => hunstopped⟩

/-- The read of the first connection fails before the main thread makes the second one. -/
def firstConnectionLost : List IoEvent :=
  [.tcpConnect true, .returnConnect, .enterRun, .handleRead 0 true 0]

theorem second_connection_before_stop_served :
    ∃ st, ioRuns.Reachable st ∧ st.connections.length = 2 ∧ st.stopped = false := by
  have hrun : ioRuns.ReachableUnder ConnectsBeforeStop _ :=
    .of_replayUnder (firstConnectionLost ++ [.tcpConnect true, .returnConnect]) rfl
  exact ⟨_, hrun.reachable, rfl, ((connection_served_iff_before_stop _ hrun).1 rfl rfl).1⟩

/-- Nothing is outstanding after the failed read, so `run` returns before the second
connection is made. -/
theorem second_connection_after_stop_unserved : ¬∀ st, ioRuns.Reachable st → st.Served := by
  intro hall
  have hserved := hall _ (.of_replay (firstConnectionLost ++ [.runOut, .leaveRun,
    .tcpConnect true, .returnConnect]) rfl)
  cases hserved rfl rfl

end MatrixServer
