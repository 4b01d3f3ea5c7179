import MatrixServer.Server.IpcPairing

/-!
A client that waits for its connection is answered.
The accept loop takes four steps for a request and never waits for anything but requests,
and a request is overtaken by none; so the steps the loop takes before the answer are bounded.
-/

namespace MatrixServer
open TransitionRuns NamedQueues

/-- The steps the loop takes until it looks for the next request. -/
def AcceptPosition.left : AcceptPosition → Nat
  | .receiving => 0
  | .creating _ => 3
  | .opening .. => 2
  | .sending .. => 1

def IpcEvent.accepts : IpcEvent → Bool
  | .accept _ => true
  | _ => false

namespace IpcSystem
open Ipc

/-- The client has sent its request and its queue is still empty. -/
def Unanswered (s : IpcSystem) (client : Nat) : Prop :=
  (s.clients client).position = .waiting ∧
    ∀ queue, (s.clients client).receiveMQ = some queue → s.queues.waiting queue = []

/-- The reply is in the client's queue. -/
def Answered (s : IpcSystem) (client : Nat) : Prop :=
  (s.clients client).position = .waiting ∧
    ∃ queue, (s.clients client).receiveMQ = some queue ∧ s.queues.waiting queue ≠ []

/-- The steps of the loop that a request waits for. -/
def turnsFor (s : IpcSystem) (name : Bytes) : Nat :=
  if name ∈ s.inHand then s.acceptLoop.left
  else s.acceptLoop.left + 4 * ((s.queues.waiting s.serverMQ).idxOf name + 1)

def turns (s : IpcSystem) (client : Nat) : Nat := s.turnsFor (s.clients client).mqName

variable {serverName : Bytes} {serializeAsString : MatrixServerMessage → Bytes}
  {parseFromString : Bytes → Option MatrixServerMessage} {s s' : IpcSystem} {client : Nat}

/-- The request of an unanswered client is with the loop or in the server's queue. -/
theorem Inv.unanswered (h : s.Inv serializeAsString parseFromString serverName)
    (hclient : s.Unanswered client) :
    (s.clients client).mqName ∉ s.ends.map IpcEnds.clientMQName ∧
      (s.clients client).mqName ∈ s.inHand ++ s.queues.waiting s.serverMQ := by
  obtain ⟨hposition, hnone⟩ := hclient
  have hok := h.clients client
  have howns : (s.clients client).position.Owns := by
    rw [hposition]
    trivial
  obtain ⟨queue, hqueue, hnamed⟩ := hok.owns howns
  obtain ⟨hasked, htaken⟩ := hok.waiting hposition
  have hnot : (s.clients client).mqName ∉ s.ends.map IpcEnds.clientMQName := by
    intro hmem
    obtain ⟨e, he, heq⟩ := List.mem_map.mp hmem
    obtain ⟨c, hc, rfl⟩ := List.mem_map.mp he
    have hput := (h.connections c hc).put
    have hsame : c.sendMQ = queue :=
      h.sound.queue_eq (h.end_ok he).1 (heq ▸ h.sound.named _ _ hnamed)
    rw [hsame, h.sound.history, htaken queue hnamed, hnone queue hqueue] at hput
    cases hput
  refine ⟨hnot, ?_⟩
  rw [requests, List.append_assoc] at hasked
  exact (List.mem_append.mp hasked).resolve_left hnot

/-- The queue a request names is there as long as its client waits. -/
theorem Inv.unanswered_named (h : s.Inv serializeAsString parseFromString serverName)
    (hclient : s.Unanswered client) :
    ∃ queue, (s.clients client).receiveMQ = some queue ∧
      s.queues.named (s.clients client).mqName = some queue :=
  (h.clients client).owns (by rw [hclient.1]; trivial)

/-- The loop does not stop while a client waits for it. -/
theorem Inv.accept_enabled (h : s.Inv serializeAsString parseFromString serverName)
    (hclient : s.Unanswered client) (rand : Nat → Nat) : ∃ s', s.accept rand = some s' := by
  obtain ⟨-, hmem⟩ := h.unanswered hclient
  simp only [IpcSystem.accept]
  cases hloop : s.acceptLoop with
  | receiving =>
      simp only [inHand, hloop, List.nil_append] at hmem
      cases hwaiting : s.queues.waiting s.serverMQ with
      | nil =>
          rw [hwaiting] at hmem
          cases hmem
      | cons name rest => simp [Queues.receive, hwaiting]
  | creating clientName => simp
  | opening clientName name receiveMQ =>
      cases hnamed : s.queues.named clientName with
      | none => simp [hnamed]
      | some sendMQ => simp [hnamed]
  | sending clientName name receiveMQ sendMQ =>
      have hput := h.loop_unsent hloop
      have hempty : s.queues.waiting sendMQ = [] := by
        rw [h.sound.history, List.append_eq_nil_iff] at hput
        exact hput.2
      simp [Queues.send, hempty, maxNumMsg]

/-- What a step leaves of the loop and of the requests before a client's. -/
structure Behind (s s' : IpcSystem) : Prop where
  acceptLoop : s'.acceptLoop = s.acceptLoop
  serverMQ : s'.serverMQ = s.serverMQ
  waiting : s'.queues.waiting s.serverMQ = s.queues.waiting s.serverMQ ∨
    ∃ i, (s'.clients i).position = .waiting ∧
      s'.queues.waiting s.serverMQ = s.queues.waiting s.serverMQ ++ [(s'.clients i).mqName]

theorem Behind.turnsFor (h : Behind s s') {name : Bytes}
    (hmem : name ∈ s.inHand ++ s.queues.waiting s.serverMQ) :
    s'.turnsFor name = s.turnsFor name := by
  obtain ⟨more, hmore⟩ : ∃ more,
      s'.queues.waiting s.serverMQ = s.queues.waiting s.serverMQ ++ more := by
    cases h.waiting with
    | inl hsame => exact ⟨[], by rw [hsame, List.append_nil]⟩
    | inr hmore =>
        obtain ⟨i, -, hmore⟩ := hmore
        exact ⟨_, hmore⟩
  have hhand : s'.inHand = s.inHand := by
    rw [inHand, h.acceptLoop]
    rfl
  simp only [IpcSystem.turnsFor, hhand, h.acceptLoop, h.serverMQ, hmore]
  by_cases hin : name ∈ s.inHand
  · rw [if_pos hin, if_pos hin]
  · have hwaiting := (List.mem_append.mp hmem).resolve_left hin
    rw [if_neg hin, if_neg hin, List.idxOf_append_of_mem hwaiting]

theorem Behind.of_eq (hloop : s'.acceptLoop = s.acceptLoop) (hserver : s'.serverMQ = s.serverMQ)
    (hwaiting : s'.queues.waiting s.serverMQ = s.queues.waiting s.serverMQ) : Behind s s' :=
  ⟨hloop, hserver, .inl hwaiting⟩

theorem send_waiting {t t' : Queues Bytes Bytes} {queue other : Nat} {packet : Bytes}
    (h : t.send maxNumMsg queue packet = some t') (hne : other ≠ queue) :
    t'.waiting other = t.waiting other := by
  obtain ⟨-, rfl⟩ := Queues.send_cases h
  exact Function.update_of_ne hne _ _

theorem receive_waiting {t t' : Queues Bytes Bytes} {queue other : Nat} {packet : Bytes}
    (h : t.receive queue = some (packet, t')) (hne : other ≠ queue) :
    t'.waiting other = t.waiting other := by
  obtain ⟨rest, -, rfl⟩ := Queues.receive_cases h
  exact Function.update_of_ne hne _ _

theorem openOrCreate_waiting (t : Queues Bytes Bytes) (name : Bytes) :
    (t.openOrCreate name).1.waiting = t.waiting := by
  simp only [Queues.openOrCreate]
  split <;> rfl

theorem sendMessage_waiting {sendMQ other : Nat} {told told' : List MatrixServerMessage}
    {message : MatrixServerMessage} {queues : Queues Bytes Bytes}
    (h : s.sendMessage serializeAsString sendMQ told message = some (queues, told'))
    (hne : other ≠ sendMQ) : queues.waiting other = s.queues.waiting other := by
  obtain ⟨rfl, -⟩ | ⟨hsend, -⟩ := sendMessage_cases h
  · rfl
  · exact send_waiting hsend hne

theorem readMessage_waiting {receiveMQ other : Nat} {heard heard' : List MatrixServerMessage}
    {queues : Queues Bytes Bytes}
    (h : s.readMessage parseFromString receiveMQ heard = some (queues, heard'))
    (hne : other ≠ receiveMQ) : queues.waiting other = s.queues.waiting other := by
  obtain ⟨packet, hreceive, -⟩ := readMessage_cases h
  exact receive_waiting hreceive hne

/-- A client that waits for its connection is blocked. -/
theorem Inv.proceed_blocked (h : s.Inv serializeAsString parseFromString serverName)
    (hclient : s.Unanswered client) : s.proceed serverName client = none := by
  obtain ⟨queue, hqueue, -⟩ := h.unanswered_named hclient
  simp [IpcSystem.proceed, hclient.1, hqueue, Queues.receive, hclient.2 queue hqueue]

/-- The other steps of `connectToServer` put requests behind those that are there. -/
theorem Inv.proceed_behind (h : s.Inv serializeAsString parseFromString serverName) {i : Nat}
    (hstep : s.proceed serverName i = some s') :
    Behind s s' ∧ ∀ j, j ≠ i → s'.clients j = s.clients j := by
  simp only [IpcSystem.proceed] at hstep
  split at hstep
  · split at hstep
    · cases hstep
      exact ⟨.of_eq rfl rfl rfl, fun j hj => Function.update_of_ne hj _ _⟩
    · cases hstep
      exact ⟨.of_eq rfl rfl rfl, fun j hj => Function.update_of_ne hj _ _⟩
  · cases hstep
    refine ⟨.of_eq rfl rfl ?_, fun j hj => Function.update_of_ne hj _ _⟩
    exact congrFun (openOrCreate_waiting _ _) _
  · rename_i tempServer hposition
    obtain ⟨queues, hsend, rfl⟩ := Option.map_eq_some_iff.mp hstep
    obtain rfl := (h.clients i).server tempServer (.inr hposition)
    obtain ⟨-, rfl⟩ := Queues.send_cases hsend
    refine ⟨⟨rfl, rfl, .inr ⟨i, ?_, ?_⟩⟩, fun j hj => Function.update_of_ne hj _ _⟩
    · simp [setQueues, setClient]
    · simp [setQueues, setClient]
  · rename_i hposition
    obtain ⟨⟨reply, queues⟩, hreceive, rfl⟩ := Option.map_eq_some_iff.mp hstep
    obtain ⟨queue, hqueue, hreceive⟩ := Option.bind_eq_some_iff.mp hreceive
    have howns : (s.clients i).position.Owns := by
      rw [hposition]
      trivial
    obtain ⟨own, hown, hnamed⟩ := (h.clients i).owns howns
    cases hqueue.symm.trans hown
    have hne : s.serverMQ ≠ queue := queue_ne h.names.serverMQ (h.sound.named _ _ hnamed)
      (h.names.client_ne ((h.clients i).drawn ((h.clients i).begun (.inr howns)))).symm
    exact ⟨.of_eq rfl rfl (receive_waiting hreceive hne), fun j hj => Function.update_of_ne hj _ _⟩
  · split at hstep
    · cases hstep
      exact ⟨.of_eq rfl rfl rfl, fun j hj => Function.update_of_ne hj _ _⟩
    · cases hstep
      exact ⟨.of_eq rfl rfl rfl, fun j hj => Function.update_of_ne hj _ _⟩
  · cases hstep

/-- Whatever the others do, a waiting client stays where it is and is not overtaken. -/
theorem Inv.step_behind (h : s.Inv serializeAsString parseFromString serverName) {e : IpcEvent}
    (hloop : e.accepts = false)
    (hstep : (ipcSystems serverName serializeAsString parseFromString).step s e = some s') :
    Behind s s' ∧ ∀ client, s.Unanswered client → s'.clients client = s.clients client := by
  have hquiet : ∀ client, s.Unanswered client → (s.clients client).sendMQ = none :=
    fun client hclient => (h.clients client).quiet (by simp [hclient.1])
  have hother : ∀ {i : Nat} {c : IpcClient}, ¬s.Unanswered i →
      ∀ client, s.Unanswered client →
        Function.update s.clients i c client = s.clients client := by
      intro i c hnot client hclient
      apply Function.update_of_ne
      rintro rfl
      exact hnot hclient
  cases e with
  | connect i rand =>
      simp only [ipcSystems, IpcSystem.connect] at hstep
      split at hstep
      · rename_i hready
        cases hstep
        refine ⟨.of_eq rfl rfl ?_, hother ?_⟩
        · simp only [setQueues]
          split <;> rfl
        · intro hclient
          simp [hclient.1] at hready
      · cases hstep
  | proceed i =>
      obtain ⟨hbehind, hsame⟩ := h.proceed_behind hstep
      refine ⟨hbehind, fun client hclient => hsame client ?_⟩
      rintro rfl
      exact absurd hstep (by simp [ipcSystems, h.proceed_blocked hclient])
  | clientSend i message =>
      obtain ⟨queue, hqueue, hdone⟩ := Option.bind_eq_some_iff.mp hstep
      obtain ⟨⟨queues, told⟩, hmessage, rfl⟩ := Option.map_eq_some_iff.mp hdone
      obtain ⟨e, -, rfl, -, -, hattached⟩ := h.attached hqueue
      refine ⟨.of_eq rfl rfl ?_, hother ?_⟩
      · exact sendMessage_waiting hmessage (h.serverMQ_ne hattached.1).2
      · intro hclient
        simp [hquiet i hclient] at hqueue
  | clientRead i =>
      simp only [ipcSystems, IpcSystem.clientRead] at hstep
      split at hstep
      · rename_i hsome
        obtain ⟨queue, hqueue⟩ := Option.isSome_iff_exists.mp hsome
        obtain ⟨e, -, rfl, -, -, hattached⟩ := h.attached hqueue
        obtain ⟨receiveMQ, hreceive, hdone⟩ := Option.bind_eq_some_iff.mp hstep
        cases hattached.2.2.1.symm.trans hreceive
        obtain ⟨⟨queues, heard⟩, hmessage, rfl⟩ := Option.map_eq_some_iff.mp hdone
        refine ⟨.of_eq rfl rfl ?_, hother ?_⟩
        · exact readMessage_waiting hmessage (h.serverMQ_ne hattached.1).1
        · intro hclient
          simp [hquiet i hclient] at hqueue
      · cases hstep
  | destroyClient i =>
      simp only [ipcSystems, IpcSystem.destroyClient] at hstep
      split at hstep
      · rename_i hready
        cases hstep
        refine ⟨.of_eq rfl rfl ?_, hother ?_⟩
        · simp only [setQueues]
          split <;> rfl
        · intro hclient
          simp [hclient.1] at hready
      · cases hstep
  | accept rand => cases hloop
  | serverSend index message =>
      obtain ⟨c, hget, hdone⟩ := Option.bind_eq_some_iff.mp hstep
      split at hdone
      · cases hdone
      · obtain ⟨⟨queues, told⟩, hmessage, rfl⟩ := Option.map_eq_some_iff.mp hdone
        have he : c.toIpcEnds ∈ s.ends := List.mem_map_of_mem (List.mem_of_getElem? hget)
        exact ⟨.of_eq rfl rfl (sendMessage_waiting hmessage (h.serverMQ_ne he).1),
          fun _ _ => rfl⟩
  | serverRead index =>
      obtain ⟨c, hget, hdone⟩ := Option.bind_eq_some_iff.mp hstep
      split at hdone
      · cases hdone
      · obtain ⟨⟨queues, heard⟩, hmessage, rfl⟩ := Option.map_eq_some_iff.mp hdone
        have he : c.toIpcEnds ∈ s.ends := List.mem_map_of_mem (List.mem_of_getElem? hget)
        exact ⟨.of_eq rfl rfl (readMessage_waiting hmessage (h.serverMQ_ne he).2),
          fun _ _ => rfl⟩
  | destroyConnection index =>
      obtain ⟨c, hget, hdone⟩ := Option.bind_eq_some_iff.mp hstep
      split at hdone
      · cases hdone
      · cases hdone
        exact ⟨.of_eq rfl rfl rfl, fun _ _ => rfl⟩

/-- A step of the loop brings the answer nearer, or is the answer. -/
theorem Inv.accept_nearer (h : s.Inv serializeAsString parseFromString serverName)
    (hclient : s.Unanswered client) {rand : Nat → Nat} (hstep : s.accept rand = some s') :
    s'.clients = s.clients ∧ (s'.turns client < s.turns client ∨ s'.Answered client) := by
  obtain ⟨hnot, hmem⟩ := h.unanswered hclient
  simp only [turns, turnsFor]
  generalize hname : (s.clients client).mqName = name at hnot hmem
  simp only [IpcSystem.accept] at hstep
  split at hstep
  · rename_i hloop
    obtain ⟨⟨first, queues⟩, hreceive, rfl⟩ := Option.map_eq_some_iff.mp hstep
    obtain ⟨rest, hwaiting, rfl⟩ := Queues.receive_cases hreceive
    refine ⟨rfl, .inl ?_⟩
    simp only [inHand, hloop, AcceptPosition.left, hname, hwaiting, Function.update_self]
    by_cases hfirst : name = first
    · subst hfirst
      simp
    · rw [if_neg (by simpa using hfirst), List.idxOf_cons_ne _ (Ne.symm hfirst),
        if_neg List.not_mem_nil]
      omega
  · rename_i clientName hloop
    cases hstep
    refine ⟨rfl, .inl ?_⟩
    simp only [inHand, hloop, AcceptPosition.left, hname, openOrCreate_waiting]
    split <;> omega
  · rename_i clientName sendMQname receiveMQ hloop
    split at hstep
    · cases hstep
      refine ⟨rfl, .inl ?_⟩
      simp only [inHand, hloop, AcceptPosition.left, hname]
      split <;> omega
    · rename_i hnone
      cases hstep
      obtain ⟨queue, -, hnamed⟩ := h.unanswered_named hclient
      have hother : name ≠ clientName := by
        rintro rfl
        rw [hname, hnone] at hnamed
        cases hnamed
      refine ⟨rfl, .inl ?_⟩
      simp only [inHand, hloop, AcceptPosition.left, hname, List.mem_singleton, hother, if_false,
        List.not_mem_nil]
      omega
  · rename_i clientName sendMQname receiveMQ sendMQ hloop
    obtain ⟨queues, hsend, rfl⟩ := Option.map_eq_some_iff.mp hstep
    have hopened := h.loop
    simp only [LoopOpened, hloop] at hopened
    refine ⟨rfl, ?_⟩
    by_cases hown : name = clientName
    · subst hown
      obtain ⟨queue, hqueue, hnamed⟩ := h.unanswered_named hclient
      rw [hname] at hnamed
      have hsame := h.sound.queue_eq (h.sound.named _ _ hnamed) hopened.2
      obtain ⟨-, rfl⟩ := Queues.send_cases hsend
      refine .inr ⟨hclient.1, queue, hqueue, ?_⟩
      simp [hsame]
    · left
      have hdrawn : clientName ∈ s.clientNames := by
        apply h.names.requested
        simp [requests, inHand, hloop]
      have hne : s.serverMQ ≠ sendMQ :=
        queue_ne h.names.serverMQ hopened.2 (h.names.client_ne hdrawn).symm
      simp only [inHand, hloop, AcceptPosition.left, hname, List.mem_singleton, hown, if_false,
        List.not_mem_nil, send_waiting hsend hne]
      omega

theorem Inv.turns_pos (h : s.Inv serializeAsString parseFromString serverName)
    (hclient : s.Unanswered client) : 0 < s.turns client := by
  obtain ⟨-, hmem⟩ := h.unanswered hclient
  simp only [turns, turnsFor]
  split
  · rename_i hin
    cases hloop : s.acceptLoop with
    | receiving => simp [inHand, hloop] at hin
    | creating clientName => simp [AcceptPosition.left]
    | opening clientName name receiveMQ => simp [AcceptPosition.left]
    | sending clientName name receiveMQ sendMQ => simp [AcceptPosition.left]
  · omega

/-- The server's queue holds ten requests, and the loop may be at one more. -/
theorem Inv.turns_le (h : s.Inv serializeAsString parseFromString serverName)
    (hclient : s.Unanswered client) : s.turns client ≤ 43 := by
  obtain ⟨-, hmem⟩ := h.unanswered hclient
  have hleft : s.acceptLoop.left ≤ 3 := by
    cases s.acceptLoop <;> simp [AcceptPosition.left]
  have hbound := h.sound.bounded s.serverMQ
  simp only [turns, turnsFor]
  split
  · omega
  · rename_i hin
    have hwaiting := (List.mem_append.mp hmem).resolve_left hin
    have hindex := List.idxOf_lt_length_of_mem hwaiting
    simp only [maxNumMsg] at hbound
    omega

theorem Inv.answered_within (h : s.Inv serializeAsString parseFromString serverName)
    (hclient : s.Unanswered client) (events : List IpcEvent)
    (hrun : (ipcSystems serverName serializeAsString parseFromString).replayUnder
      (FreshNames serverName serializeAsString parseFromString) s events = some s')
    (hturns : s.turns client ≤ events.countP IpcEvent.accepts) :
    ∃ before s'', before <+: events ∧
      (ipcSystems serverName serializeAsString parseFromString).replayUnder
        (FreshNames serverName serializeAsString parseFromString) s before = some s'' ∧
      s''.Answered client := by
  induction events generalizing s with
  | nil =>
      have hpos := h.turns_pos hclient
      simp only [List.countP_nil] at hturns
      omega
  | cons e events ih =>
      simp only [TransitionSystem.replayUnder] at hrun
      split at hrun
      · rename_i hfresh
        obtain ⟨s₁, hstep, hrest⟩ := Option.bind_eq_some_iff.mp hrun
        have hinv := h.step hfresh hstep
        have hone : s₁.clients client = s.clients client ∧
            (s₁.turns client + (if e.accepts then 1 else 0) ≤ s.turns client ∨
              s₁.Answered client) := by
          cases hloop : e.accepts with
          | true =>
              cases e with
              | accept rand =>
                  obtain ⟨hsame, hnear⟩ := h.accept_nearer hclient hstep
                  exact ⟨congrFun hsame client, hnear⟩
              | _ => cases hloop
          | false =>
              obtain ⟨hbehind, hsame⟩ := h.step_behind hloop hstep
              refine ⟨hsame client hclient, .inl ?_⟩
              rw [turns, hsame client hclient, hbehind.turnsFor (h.unanswered hclient).2]
              exact Nat.le_refl _
        obtain ⟨hsame, hnear⟩ := hone
        by_cases hanswer : s₁.Answered client
        · refine ⟨[e], s₁, List.prefix_append [e] events, ?_, hanswer⟩
          simp [TransitionSystem.replayUnder, hfresh, hstep]
        · have hwaits : s₁.Unanswered client := by
            refine ⟨hsame ▸ hclient.1, ?_⟩
            intro queue hqueue
            by_contra hsome
            exact hanswer ⟨hsame ▸ hclient.1, queue, hqueue, hsome⟩
          have hless := hnear.resolve_right hanswer
          rw [List.countP_cons] at hturns
          obtain ⟨before, s'', hprefix, hreplay, hdone⟩ := ih hinv hwaits hrest (by omega)
          refine ⟨e :: before, s'', List.cons_prefix_cons.mpr ⟨rfl, hprefix⟩, ?_, hdone⟩
          simp [TransitionSystem.replayUnder, hfresh, hstep, hreplay]
      · cases hrun

end IpcSystem

/-- A client that has asked for a connection is answered: while it waits the accept loop is
never blocked, and whatever clients and connections do, the answer is in its queue after no
more than forty-three steps of the loop. -/
theorem ipc_connect_served {serverName : Bytes}
    {serializeAsString : MatrixServerMessage → Bytes}
    {parseFromString : Bytes → Option MatrixServerMessage} {s : IpcSystem}
    (h : (ipcSystems serverName serializeAsString parseFromString).ReachableUnder
      (FreshNames serverName serializeAsString parseFromString) s)
    {client : Nat} (hclient : s.Unanswered client) :
    (∀ rand, ∃ s', s.accept rand = some s') ∧
      ∀ events s', (ipcSystems serverName serializeAsString parseFromString).replayUnder
          (FreshNames serverName serializeAsString parseFromString) s events = some s' →
        43 ≤ events.countP IpcEvent.accepts →
        ∃ before s'', before <+: events ∧
          (ipcSystems serverName serializeAsString parseFromString).replayUnder
            (FreshNames serverName serializeAsString parseFromString) s before = some s'' ∧
          s''.Answered client := by
  have hinv := IpcSystem.reachable_inv h
  refine ⟨hinv.accept_enabled hclient, ?_⟩
  intro events s' hrun hturns
  exact hinv.answered_within hclient events hrun
    (Nat.le_trans (hinv.turns_le hclient) hturns)

/-- Another client's request is in the queue before that of the second client. -/
def twoRequests : List IpcEvent :=
  [.connect 0 fun _ => 0, .connect 1 fun _ => 1, .proceed 0, .proceed 0, .proceed 0,
    .proceed 1, .proceed 1, .proceed 1]

theorem ipc_connect_served_second :
    ∃ s, (ipcSystems ipcServerName registerBytes parseRegister).ReachableUnder
        (FreshNames ipcServerName registerBytes parseRegister) s ∧
      s.Unanswered 1 ∧ ∃ s', s.accept (fun _ => 2) = some s' := by
  have hrun : ((ipcSystems ipcServerName registerBytes parseRegister).replayUnder
      (FreshNames ipcServerName registerBytes parseRegister) (.start ipcServerName)
      twoRequests).any (fun s => (s.clients 1).position == .waiting &&
        (s.clients 1).receiveMQ == some 2 && s.queues.waiting 2 == []) = true := rfl
  obtain ⟨s, h, htest⟩ := TransitionSystem.ReachableUnder.of_test
    (M := ipcSystems ipcServerName registerBytes parseRegister)
    (FreshNames ipcServerName registerBytes parseRegister) twoRequests _ hrun
  simp only [Bool.and_eq_true, beq_iff_eq] at htest
  have hclient : s.Unanswered 1 := by
    refine ⟨htest.1.1, ?_⟩
    intro queue hqueue
    rw [htest.1.2, Option.some.injEq] at hqueue
    exact hqueue ▸ htest.2
  exact ⟨s, h, hclient, (ipc_connect_served h hclient).1 _⟩

end MatrixServer
