import MatrixServer.Server.QueueAccounts

/-!
IPC clients that stop reading, and the mutex.
No thread waits for such a client with the mutex held exactly as long as each
step leaves the client's queue room for what the section under way has still to
send it. The section is then the sender of `BlockingSends`, and gets through.
-/

namespace MatrixServer
open TransitionRuns ThreadPrograms BlockingSends

/-- A thread holds `appsMutex` and waits for a client that has stopped reading. -/
def HoldsWhileBlocked (w : IpcSetting) (q : IpcQueues) (c : ConnectionId) : Prop :=
  c ∈ q.stalled ∧ ∃ thread message effects,
    q.holder = some (thread, .send c message :: effects) ∧
      w.queueOf (.send c message) = some c ∧ q.send (some c) = none

namespace QueuedServer

variable {w : IpcSetting} {st st' : QueuedServer}

/-- Every queue has at most ten messages, and every stalled client has room for what the
section under way has still to send it. -/
structure Inv (w : IpcSetting) (st : QueuedServer) : Prop where
  bounded : st.shared.Bounded
  fits : (st.shared.sender w).Fits maxNumMsg st.shared.stalled

theorem Inv.step {e : QueueEvent} (h : Inv w st) (hroom : HasRoom w st e)
    (hstep : step w st e = some st') : Inv w st' :=
  have haccounted := step_accounted h.bounded hstep
  ⟨haccounted.bounded, haccounted.fits_iff.mpr hroom⟩

theorem inv_start (w : IpcSetting) (s : Server) : Inv w { shared := { server := s } } :=
  ⟨fun _ => Nat.zero_le _, List.forall_mem_nil _⟩

theorem queueOf_eq_some {e : Effect} {c : ConnectionId} (h : w.queueOf e = some c) :
    ∃ message, e = .send c message := by
  cases e with
  | send connection message =>
      simp only [IpcSetting.queueOf] at h
      split at h
      · cases h
        exact ⟨message, rfl⟩
      · cases h
  | _ => cases h

theorem send_full {q : IpcQueues} {c : ConnectionId} :
    q.send (some c) = none ↔ maxNumMsg ≤ q.queued c := by
  simp [IpcQueues.send, put]

/-- Blocked under the mutex is what the library calls blocked. -/
theorem blocked_of_holdsWhileBlocked {q : IpcQueues} {c : ConnectionId}
    (h : HoldsWhileBlocked w q c) (hb : q.Bounded) :
    (q.sender w).Blocked maxNumMsg q.stalled c := by
  obtain ⟨hstalled, thread, message, effects, hholder, hqueue, hsend⟩ := h
  refine ⟨hstalled, ?_, Nat.le_antisymm (hb c) (send_full.mp hsend)⟩
  simp only [IpcQueues.sender, IpcQueues.pending, hholder, List.map_cons, hqueue,
    List.head?_cons]

theorem holdsWhileBlocked_of_blocked {q : IpcQueues} {c : ConnectionId}
    (h : (q.sender w).Blocked maxNumMsg q.stalled c) : HoldsWhileBlocked w q c := by
  obtain ⟨hstalled, hhead, hfull⟩ := h
  simp only [IpcQueues.sender, IpcQueues.pending] at hhead
  split at hhead
  · cases hhead
  · rename_i held hholder
    obtain ⟨thread, effects⟩ := held
    cases effects with
    | nil => cases hhead
    | cons e effects =>
        have hqueue : w.queueOf e = some c := Option.some.inj hhead
        obtain ⟨message, rfl⟩ := queueOf_eq_some hqueue
        exact ⟨hstalled, thread, message, effects, hholder, hqueue,
          send_full.mpr (Nat.le_of_eq hfull.symm)⟩

/-- A step of the thread that holds the mutex, or of a client that reads. -/
inductive Proceeds (w : IpcSetting) (st st' : QueuedServer) : Prop where
  | holder : step w st .proceed = some st' → Proceeds w st st'
  | client (connection : ConnectionId) : step w st (.read connection) = some st' →
      Proceeds w st st'

/-- The same thread is still in its section, and nothing else has moved on. -/
structure SameSection (thread : ServerThread) (st st' : QueuedServer) : Prop where
  stages : st'.stages = st.stages
  server : st'.shared.server = st.shared.server
  stalled : st'.shared.stalled = st.shared.stalled
  holder : ∃ effects, st'.shared.holder = some (thread, effects)

/-- While a thread holds the mutex, the steps of its sender are steps of the server. -/
theorem proceeds_of_step {thread : ServerThread} {effects : List Effect}
    (hholder : st.shared.holder = some (thread, effects)) {s : Sender ConnectionId}
    (hstep : Step maxNumMsg st.shared.stalled (st.shared.sender w) s) :
    ∃ st', Proceeds w st st' ∧ st'.shared.sender w = s ∧ SameSection thread st st' := by
  have hpending : st.shared.pending w = effects.map w.queueOf := by
    simp only [IpcQueues.pending, hholder]
  obtain ⟨item, pending, queued, hitems, hput, rfl⟩ | ⟨c, hc, hpos, rfl⟩ := step_cases hstep
  · have hmap : effects.map w.queueOf = item :: pending := hpending.symm.trans hitems
    obtain ⟨e, effects, rfl, rfl, rfl⟩ := List.map_eq_cons_iff.mp hmap
    have hsend : st.shared.send (w.queueOf e) = some { st.shared with queued } :=
      Option.map_eq_some_iff.mpr ⟨queued, hput, rfl⟩
    refine ⟨st.set { st.shared with queued, holder := some (thread, effects) }, .holder ?_, rfl,
      rfl, rfl, rfl, effects, rfl⟩
    simp only [step, IpcQueues.proceed, hholder, hsend, Option.map_some]
  · have hread : st.shared.read c = some { st.shared with
        queued := Function.update st.shared.queued c (st.shared.queued c - 1) } :=
      if_pos ⟨hc, hpos⟩
    refine ⟨st.set { st.shared with
        queued := Function.update st.shared.queued c (st.shared.queued c - 1) },
      .client c ?_, rfl, rfl, rfl, rfl, effects, hholder⟩
    simp only [step, hread, Option.map_some]

theorem proceeds_of_steps {thread : ServerThread} {effects : List Effect}
    (hholder : st.shared.holder = some (thread, effects)) {s : Sender ConnectionId}
    (hrun : Relation.ReflTransGen (Step maxNumMsg st.shared.stalled) (st.shared.sender w) s) :
    ∃ st', Relation.ReflTransGen (Proceeds w) st st' ∧ st'.shared.sender w = s ∧
      SameSection thread st st' := by
  induction hrun with
  | refl => exact ⟨st, .refl, rfl, rfl, rfl, rfl, effects, hholder⟩
  | @tail s₁ s₂ _ hstep ih =>
      obtain ⟨st₁, hrun, rfl, hsame⟩ := ih
      obtain ⟨effects₁, hholder₁⟩ := hsame.holder
      rw [← hsame.stalled] at hstep
      obtain ⟨st₂, hproceeds, heq, hsame₂⟩ := proceeds_of_step hholder₁ hstep
      exact ⟨st₂, hrun.tail hproceeds, heq, hsame₂.stages.trans hsame.stages,
        hsame₂.server.trans hsame.server, hsame₂.stalled.trans hsame.stalled, hsame₂.holder⟩

theorem Inv.proceeds (h : Inv w st) (hproceeds : Proceeds w st st') : Inv w st' := by
  have hroom : ∀ e, st.wanted w e = [] → st.stalledAfter e = st.shared.stalled →
      HasRoom w st e := by
    intro e hwanted hstalled
    rw [HasRoom, hwanted, hstalled, List.append_nil]
    exact h.fits
  cases hproceeds with
  | holder hstep => exact h.step (hroom .proceed rfl rfl) hstep
  | client connection hstep => exact h.step (hroom (.read connection) rfl rfl) hstep

theorem Inv.not_blocked (h : Inv w st) (c : ConnectionId) : ¬ HoldsWhileBlocked w st.shared c :=
  fun hblocked => h.fits.not_blocked c (blocked_of_holdsWhileBlocked hblocked h.bounded)

/-- The thread that holds the mutex leaves its section, if clients that read go on reading. -/
theorem Inv.releases (h : Inv w st) : ∃ st', Relation.ReflTransGen (Proceeds w) st st' ∧
    st'.stages = st.stages ∧ st'.shared.server = st.shared.server ∧
      st'.shared.holder = none := by
  cases hholder : st.shared.holder with
  | none => exact ⟨st, .refl, rfl, rfl, hholder⟩
  | some held =>
      obtain ⟨queued, hrun⟩ := Sender.Fits.completes (by decide) h.bounded h.fits
      obtain ⟨st₁, hproceeds, hsender, hsame⟩ := proceeds_of_steps hholder hrun
      obtain ⟨effects, hholder₁⟩ := hsame.holder
      have hpending := congrArg Sender.pending hsender
      simp only [IpcQueues.sender, IpcQueues.pending, hholder₁, List.map_eq_nil_iff] at hpending
      subst hpending
      refine ⟨st₁.set { st₁.shared with holder := none }, hproceeds.tail (.holder ?_),
        hsame.stages, hsame.server, rfl⟩
      simp only [QueuedServer.step, IpcQueues.proceed, hholder₁, Option.map_some]

/-- A section entered with room ends as the one step it is when sending never waits. -/
theorem Inv.section_completes (h : Inv w st) (hfree : st.shared.holder = none)
    {thread : ServerThread} {part : Section} {rest : List Stage}
    (hstages : st.stages thread = .locked part :: rest) (hroom : HasRoom w st (.run thread))
    (trace : Trace) :
    ∃ st₁ st' done, QueuedServer.step w st (.run thread) = some st₁ ∧
      Relation.ReflTransGen (Proceeds w) st₁ st' ∧ st'.shared.holder = none ∧
      runStage (st.shared.server, trace) thread (.locked part) = some done ∧
      st'.shared.server = done.1.1 ∧
      st'.stages = Function.update st.stages thread (done.2 ++ rest) := by
  have henter : QueuedServer.step w st (.run thread) = some
      { shared := { st.shared with
          server := (st.shared.server.runSection part).1.1
          holder := some (thread, (st.shared.server.runSection part).1.2) }
        stages := Function.update st.stages thread
          ((st.shared.server.runSection part).2.map .job ++ rest) } := by
    simp [QueuedServer.step, hfree, Threads.advance, hstages, runQueued]
  obtain ⟨st', hrun, hsame, hserver, hleft⟩ := (h.step hroom henter).releases
  exact ⟨_, st', _, henter, hrun, hleft, rfl, hserver, hsame⟩

theorem enters_section (hfree : st.shared.holder = none) {thread : ServerThread} {part : Section}
    {rest : List Stage} (hstages : st.stages thread = .locked part :: rest) :
    (step w st (.run thread)).isSome = true := by
  simp [step, hfree, Threads.advance, hstages, runQueued]

/-- Without room the thread that holds the mutex can get stuck at a client that has stalled. -/
theorem blocks_of_not_fits (hb : st.shared.Bounded)
    (h : ¬ (st.shared.sender w).Fits maxNumMsg st.shared.stalled) :
    ∃ st' c, Relation.ReflTransGen (Proceeds w) st st' ∧ HoldsWhileBlocked w st'.shared c := by
  cases hholder : st.shared.holder with
  | none =>
      refine absurd (fun c _ => ?_) h
      simpa [IpcQueues.sender, IpcQueues.pending, hholder] using hb c
  | some held =>
      obtain ⟨s, c, hrun, hblocked⟩ := Sender.blocks_of_not_fits (by decide) hb h
      obtain ⟨st₁, hproceeds, rfl, hsame⟩ := proceeds_of_steps hholder hrun
      rw [← hsame.stalled] at hblocked
      exact ⟨st₁, c, hproceeds, holdsWhileBlocked_of_blocked hblocked⟩

/-- A step has room exactly when nothing that follows from it alone can block the mutex. -/
theorem Inv.hasRoom_iff (h : Inv w st) {e : QueueEvent}
    (hstep : QueuedServer.step w st e = some st') :
    HasRoom w st e ↔ ¬ ∃ st'' c, Relation.ReflTransGen (Proceeds w) st' st'' ∧
      HoldsWhileBlocked w st''.shared c := by
  have haccounted := step_accounted h.bounded hstep
  constructor
  · rintro hroom ⟨st'', c, hrun, hblocked⟩
    have hinv : Inv w st'' := by
      clear hblocked
      induction hrun with
      | refl => exact h.step hroom hstep
      | tail _ hproceeds ih => exact ih.proceeds hproceeds
    exact hinv.not_blocked c hblocked
  · intro hnot
    by_contra hroom
    exact hnot (blocks_of_not_fits haccounted.bounded fun hfits =>
      hroom (haccounted.fits_iff.mp hfits))

end QueuedServer

/-- As long as every step leaves the clients that have stopped reading room for what the
section under way sends them, no thread holds the mutex while it is blocked at one of them, and
every thread that waits for the mutex can still get it. A step without room can block it. -/
theorem mutex_not_held_for_stalled_client (w : IpcSetting) (serverConfig : ServerConfig)
    (renderers : List Renderer) (st : QueuedServer)
    (h : (queueRuns w (.start serverConfig renderers)).ReachableUnder
      (QueuedServer.HasRoom w) st) :
    (∀ c, ¬ HoldsWhileBlocked w st.shared c) ∧
    (∃ st', Relation.ReflTransGen (QueuedServer.Proceeds w) st st' ∧
      ∀ thread part rest, st.stages thread = .locked part :: rest →
        ((queueRuns w (.start serverConfig renderers)).step st' (.run thread)).isSome = true) ∧
    ∀ e st', (queueRuns w (.start serverConfig renderers)).step st e = some st' →
      (st.HasRoom w e ↔ ¬ ∃ st'' c, Relation.ReflTransGen (QueuedServer.Proceeds w) st' st'' ∧
        HoldsWhileBlocked w st''.shared c) := by
  have hinv : QueuedServer.Inv w st := h.invariant (QueuedServer.Inv w)
    (QueuedServer.inv_start w _) fun _ _ _ hinv hroom hstep => hinv.step hroom hstep
  refine ⟨hinv.not_blocked, ?_, fun e st' hstep => hinv.hasRoom_iff hstep⟩
  obtain ⟨st', hrun, hstages, _, hfree⟩ := hinv.releases
  exact ⟨st', hrun, fun thread part rest hthread =>
    QueuedServer.enters_section hfree (hstages ▸ hthread)⟩

/-- Connection 1 is an IPC connection, and no message is too large. -/
def oneIpcClient : IpcSetting where
  isIpc c := c = 1
  tooLarge _ := false

/-- The IPC client connects, registers an app and stops reading; then a browser sends IMU data
`n` times, and once more, which the section under way is about to pass on. -/
def imuSchedule (n : Nat) : List QueueEvent :=
  let imuData : List QueueEvent :=
    [.call (.clientMessage 0 { messageType := .imuData }), .run (.renderer 0)]
  [.call (.newConnection 1), .run .ipcAccept, .read 1, .request 1 { messageType := .registerApp },
      .call (.handleRequest 1 { messageType := .registerApp } 7 fun _ => 0),
      .run (.ipcReceive 1), .proceed, .proceed, .run (.ipcReceive 1), .read 1, .stall 1] ++
    (List.replicate n (imuData ++ [.proceed, .proceed])).flatten ++ imuData

theorem mutex_free_with_room :
    ∃ st : QueuedServer, st.shared.stalled = [1] ∧ st.shared.queued 1 = 9 ∧
      ∀ c, ¬ HoldsWhileBlocked oneIpcClient st.shared c := by
  obtain ⟨st, hreach, htest⟩ := TransitionSystem.ReachableUnder.of_test
    (M := queueRuns oneIpcClient (.start {} [])) (QueuedServer.HasRoom oneIpcClient)
    (imuSchedule 9) (fun st => st.shared.stalled = [1] ∧ st.shared.queued 1 = 9) (by decide)
  obtain ⟨hstalled, hqueued⟩ := of_decide_eq_true htest
  exact ⟨st, hstalled, hqueued,
    (mutex_not_held_for_stalled_client oneIpcClient {} [] st hreach).1⟩

/-- After ten messages the next one blocks with the mutex held. -/
theorem full_queue_blocks_mutex :
    ∃ st, (queueRuns oneIpcClient (.start {} [])).Reachable st ∧
      HoldsWhileBlocked oneIpcClient st.shared 1 := by
  obtain ⟨st, hreach, htest⟩ := TransitionSystem.Reachable.of_test
    (M := queueRuns oneIpcClient (.start {} [])) (imuSchedule 10)
    (fun st => 1 ∈ st.shared.stalled ∧ st.shared.queued 1 = 10 ∧
      st.shared.holder = some (.renderer 0, [.send 1 { messageType := .imuData }])) (by decide)
  obtain ⟨hstalled, hqueued, hholder⟩ := of_decide_eq_true htest
  exact ⟨st, hreach, hstalled, _, _, _, hholder, rfl,
    QueuedServer.send_full.mpr (Nat.le_of_eq hqueued.symm)⟩

end MatrixServer
