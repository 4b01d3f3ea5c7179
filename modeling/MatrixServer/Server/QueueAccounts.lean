import MatrixServer.Server.IpcQueues

/-!
What every step of the server does to the queues of IPC clients.
A message that a section sends is counted from the moment the section is
entered, first as still to be put and then in its client's queue. Whether the
stalled clients have room after a step is a condition on the state before it.
-/

namespace MatrixServer
open ThreadPrograms BlockingSends

namespace IpcQueues

variable (w : IpcSetting)

/-- What the thread that holds the mutex has still to put into queues. -/
def pending (q : IpcQueues) : List (Option ConnectionId) :=
  match q.holder with
  | none => []
  | some held => held.2.map w.queueOf

def sender (q : IpcQueues) : Sender ConnectionId where
  queued := q.queued
  pending := q.pending w

end IpcQueues

namespace QueuedServer

/-- What an event puts into queues at once, or has put by the section it begins. -/
def wanted (w : IpcSetting) (st : QueuedServer) : QueueEvent → List (Option ConnectionId)
  | .call (.newConnection connection) => [if w.isIpc connection then some connection else none]
  | .run thread =>
      match st.stages thread with
      | [] => []
      | .locked part :: _ => (st.shared.server.runSection part).1.2.map w.queueOf
      | .job job :: _ => (st.shared.server.runJob job).2.map w.queueOf
  | _ => []

def stalledAfter (st : QueuedServer) : QueueEvent → List ConnectionId
  | .stall connection => connection :: st.shared.stalled
  | _ => st.shared.stalled

/-- Every stalled client has room for what the section under way has still to send it and for
what the event wants to. -/
def HasRoom (w : IpcSetting) (st : QueuedServer) (e : QueueEvent) : Prop :=
  ∀ c ∈ st.stalledAfter e,
    st.shared.queued c + (st.shared.pending w ++ st.wanted w e).count (some c) ≤ maxNumMsg

instance (w : IpcSetting) (st : QueuedServer) (e : QueueEvent) : Decidable (HasRoom w st e) :=
  inferInstanceAs (Decidable (∀ c ∈ st.stalledAfter e, _))

end QueuedServer

namespace IpcQueues

def Bounded (q : IpcQueues) : Prop := ∀ c, q.queued c ≤ maxNumMsg

/-- Only items for queues were put, and all of them. -/
structure Puts (q q' : IpcQueues) (items : List (Option ConnectionId)) : Prop where
  holder : q'.holder = q.holder
  stalled : q'.stalled = q.stalled
  bounded : q'.Bounded
  count : ∀ c, q'.queued c = q.queued c + items.count (some c)

theorem send_puts {q q' : IpcQueues} {item : Option ConnectionId} (h : q.send item = some q')
    (hb : q.Bounded) : Puts q q' [item] := by
  obtain ⟨queued, hput, rfl⟩ := Option.map_eq_some_iff.mp h
  refine ⟨rfl, rfl, Sender.put_bounded hput hb, fun c => ?_⟩
  simpa only [List.count_nil, Nat.add_zero] using Sender.put_count hput [] c

theorem sendAll_puts {items : List (Option ConnectionId)} {q q' : IpcQueues}
    (h : q.sendAll items = some q') (hb : q.Bounded) : Puts q q' items := by
  induction items generalizing q with
  | nil =>
      cases h
      exact ⟨rfl, rfl, hb, fun c => rfl⟩
  | cons item items ih =>
      obtain ⟨q₁, hsend, hrest⟩ := Option.bind_eq_some_iff.mp h
      have hfirst := send_puts hsend hb
      have hothers := ih hrest hfirst.bounded
      refine ⟨hothers.holder.trans hfirst.holder, hothers.stalled.trans hfirst.stalled,
        hothers.bounded, fun c => ?_⟩
      rw [hothers.count, hfirst.count, Nat.add_assoc, ← List.count_append, List.singleton_append]

end IpcQueues

namespace QueuedServer

/-- What a step does to the queues: nobody is lost who waits in or for one. -/
structure Accounted (w : IpcSetting) (st st' : QueuedServer) (e : QueueEvent) : Prop where
  bounded : st'.shared.Bounded
  stalled : st'.shared.stalled = st.stalledAfter e
  demand : ∀ c ∈ st.stalledAfter e,
    st'.shared.queued c + (st'.shared.pending w).count (some c) =
      st.shared.queued c + (st.shared.pending w ++ st.wanted w e).count (some c)

theorem Accounted.fits_iff {w : IpcSetting} {st st' : QueuedServer} {e : QueueEvent}
    (h : Accounted w st st' e) :
    (st'.shared.sender w).Fits maxNumMsg st'.shared.stalled ↔ HasRoom w st e := by
  rw [Sender.Fits, HasRoom, h.stalled]
  exact forall₂_congr fun c hc => by rw [← h.demand c hc]; rfl

variable {w : IpcSetting} {st st' : QueuedServer}

theorem Accounted.of_queued {e : QueueEvent} (hholder : st'.shared.holder = st.shared.holder)
    (hstalled : st'.shared.stalled = st.stalledAfter e) (hb : st'.shared.Bounded)
    (hcount : ∀ c ∈ st.stalledAfter e,
      st'.shared.queued c = st.shared.queued c + (st.wanted w e).count (some c)) :
    Accounted w st st' e := by
  refine ⟨hb, hstalled, fun c hc => ?_⟩
  have hpending : st'.shared.pending w = st.shared.pending w := by
    simp only [IpcQueues.pending, hholder]
  rw [hcount c hc, hpending, List.count_append]
  omega

theorem accounted_call {c : ServerCall} (hb : st.shared.Bounded)
    (hstep : step w st (.call c) = some st') : Accounted w st st' (.call c) := by
  obtain ⟨q, hbegin, hstart⟩ := Option.bind_eq_some_iff.mp hstep
  obtain ⟨_, rfl⟩ := Threads.start_cases hstart
  cases c with
  | newConnection connection =>
      have hputs := IpcQueues.send_puts hbegin hb
      exact .of_queued hputs.holder hputs.stalled hputs.bounded fun c _ => hputs.count c
  | handleRequest connection message rand beyond =>
      simp only [IpcQueues.beginCall] at hbegin
      split at hbegin
      · split at hbegin
        · cases hbegin
        · split at hbegin
          · cases hbegin
            exact .of_queued rfl rfl hb fun _ _ => rfl
          · cases hbegin
      · cases hbegin
        exact .of_queued rfl rfl hb fun _ _ => rfl
  | clientMessage _ _ | tick _ =>
      cases hbegin
      exact .of_queued rfl rfl hb fun _ _ => rfl

theorem accounted_run {thread : ServerThread} (hb : st.shared.Bounded)
    (hstep : step w st (.run thread) = some st') : Accounted w st st' (.run thread) := by
  simp only [step] at hstep
  split at hstep
  · cases hstep
  · obtain ⟨stage, rest, done, hstages, hdone, rfl⟩ := Threads.advance_cases hstep
    cases stage with
    | locked part =>
        simp only [runQueued] at hdone
        split at hdone
        · cases hdone
        · rename_i hfree
          cases hdone
          have hnone : st.shared.pending w = [] := by simp only [IpcQueues.pending, hfree]
          have hwanted : st.wanted w (.run thread) =
              (st.shared.server.runSection part).1.2.map w.queueOf := by
            simp only [wanted, hstages]
          refine ⟨hb, rfl, fun c _ => ?_⟩
          rw [hnone, hwanted]
          rfl
    | job job =>
        obtain ⟨q, hsend, rfl⟩ := Option.map_eq_some_iff.mp hdone
        have hputs := IpcQueues.sendAll_puts hsend hb
        refine .of_queued hputs.holder hputs.stalled hputs.bounded fun c _ => ?_
        simp only [wanted, hstages]
        exact hputs.count c

theorem accounted_proceed (hb : st.shared.Bounded)
    (hstep : step w st .proceed = some st') : Accounted w st st' .proceed := by
  obtain ⟨q, hproceed, rfl⟩ := Option.map_eq_some_iff.mp hstep
  simp only [IpcQueues.proceed] at hproceed
  split at hproceed
  · cases hproceed
  · rename_i thread hholder
    cases hproceed
    refine ⟨hb, rfl, fun c _ => ?_⟩
    simp [set, IpcQueues.pending, hholder, wanted]
  · rename_i thread e effects hholder
    obtain ⟨q₁, hsend, rfl⟩ := Option.map_eq_some_iff.mp hproceed
    have hputs := IpcQueues.send_puts hsend hb
    refine ⟨hputs.bounded, hputs.stalled, fun c _ => ?_⟩
    have hpending : st.shared.pending w = [w.queueOf e] ++ effects.map w.queueOf := by
      simp only [IpcQueues.pending, hholder, List.map_cons, List.singleton_append]
    have hnothing : st.wanted w .proceed = [] := rfl
    rw [hpending, hnothing, List.append_nil, List.count_append, ← Nat.add_assoc]
    exact congrArg (· + _) (hputs.count c)

theorem step_accounted {e : QueueEvent} (hb : st.shared.Bounded)
    (hstep : step w st e = some st') : Accounted w st st' e := by
  cases e with
  | call c => exact accounted_call hb hstep
  | run thread => exact accounted_run hb hstep
  | proceed => exact accounted_proceed hb hstep
  | request connection message =>
      obtain ⟨q, hrequest, rfl⟩ := Option.map_eq_some_iff.mp hstep
      simp only [IpcQueues.request] at hrequest
      split at hrequest
      · cases hrequest
        exact .of_queued rfl rfl hb fun _ _ => rfl
      · cases hrequest
  | read connection =>
      obtain ⟨q, hread, rfl⟩ := Option.map_eq_some_iff.mp hstep
      simp only [IpcQueues.read] at hread
      split at hread
      · rename_i hcan
        cases hread
        have hother : ∀ c, c ≠ connection → Function.update st.shared.queued connection
            (st.shared.queued connection - 1) c = st.shared.queued c :=
          fun c hc => Function.update_of_ne hc _ _
        refine .of_queued rfl rfl (fun c => ?_) fun c hc => ?_
        · have hold := hb c
          by_cases heq : c = connection
          · subst heq
            simp only [set, Function.update_self]
            omega
          · exact Nat.le_trans (Nat.le_of_eq (hother c heq)) hold
        · exact hother c fun heq => hcan.1 (heq ▸ hc)
      · cases hread
  | stall connection =>
      cases hstep
      exact .of_queued rfl rfl hb fun _ _ => rfl

end QueuedServer
end MatrixServer
