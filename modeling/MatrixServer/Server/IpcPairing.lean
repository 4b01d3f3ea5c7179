import MatrixServer.Common.SocketLinks
import MatrixServer.Server.IpcClients

/-!
Every connected IPC client talks with one connection of the server, and no other one.
-/

namespace MatrixServer
open TransitionRuns NamedQueues

namespace IpcSystem
open Ipc

variable {serverName : Bytes} {serializeAsString : MatrixServerMessage → Bytes}
  {parseFromString : Bytes → Option MatrixServerMessage} {s s' : IpcSystem}

/-- The accept loop takes the oldest request. -/
theorem Inv.acceptRequest (h : s.Inv serializeAsString parseFromString serverName) {name : Bytes}
    {queues : Queues Bytes Bytes} (hloop : s.acceptLoop = .receiving)
    (hreceive : s.queues.receive s.serverMQ = some (name, queues)) :
    IpcSystem.Inv serializeAsString parseFromString serverName
      { s with queues, acceptLoop := .creating name } := by
  have hsound := h.sound.receive hreceive
  obtain ⟨rest, hwaiting, rfl⟩ := Queues.receive_cases hreceive
  have hrequests : IpcSystem.requests { s with
      queues := { s.queues with
        waiting := Function.update s.queues.waiting s.serverMQ rest
        taken := Function.update s.queues.taken s.serverMQ
          (s.queues.taken s.serverMQ ++ [name]) }
      acceptLoop := .creating name } = s.requests := by
    simp [requests, inHand, hloop, hwaiting, ends]
  refine ⟨hsound, ?_, trivial, h.untold, ?_, ?_⟩
  · exact h.names.congr (fun _ => rfl) rfl rfl rfl rfl hrequests rfl (by simp [made, hloop])
  · intro i
    refine (h.clients i).frame ⟨fun _ hmem => hmem, rfl, fun _ hmem => hmem, fun _ => rfl, ?_, ?_,
      ?_, fun _ _ _ => rfl, fun _ hmem => hmem, fun _ hmem _ => .inl hmem⟩
    · rw [hrequests]
      exact fun _ hmem => hmem
    · rw [hrequests]
      exact fun _ hmem => hmem
    · intro hname queue hnamed
      have hne : queue ≠ s.serverMQ := queue_ne (h.sound.named _ _ hnamed) h.names.serverMQ
        (h.names.client_ne ((h.clients i).drawn hname))
      exact Function.update_of_ne hne _ _
  · intro c hc
    refine (h.connections c hc).frame (fun _ _ hget => hget) rfl ?_
    exact Function.update_of_ne (h.serverMQ_ne (List.mem_map_of_mem hc)).2.symm _ _

/-- The accept loop creates a queue under a name that nobody has drawn. -/
theorem Inv.acceptCreate (h : s.Inv serializeAsString parseFromString serverName)
    {clientName name : Bytes} (hloop : s.acceptLoop = .creating clientName)
    (hfresh : name ∉ s.drawn serverName) (hlength : name.length = 20) :
    IpcSystem.Inv serializeAsString parseFromString serverName { s with
      queues := (s.queues.openOrCreate name).1
      serverNames := s.serverNames ++ [name]
      acceptLoop := .opening clientName name (s.queues.openOrCreate name).2 } := by
  have hnone : name ∉ s.queues.created := fun hmem => hfresh (h.names.created name hmem)
  have hsound := h.sound.openOrCreate hnone
  rw [h.sound.openOrCreate_fresh hnone] at hsound ⊢
  have hclient : ∀ other ∈ s.clientNames, other ≠ name := by
    rintro other hmem rfl
    exact hfresh (List.mem_cons_of_mem _ (List.mem_append_left _ hmem))
  have hserver : name ∉ s.serverNames := by
    intro hmem
    exact hfresh (List.mem_cons_of_mem _ (List.mem_append_right _ hmem))
  have hmade : s.made = [] := by simp [made, hloop]
  have hends : ∀ other ∈ s.ends.map IpcEnds.mqName, other ∈ s.serverNames :=
    fun other hmem => h.names.answered other (List.mem_append_left _ hmem)
  refine ⟨hsound, ?_, ?_, ?_, ?_, ?_⟩
  · refine ⟨?_, ?_, ?_, Queues.created_append _ h.names.serverMQ, h.names.own, ?_, ?_, ?_, ?_⟩
    · simp only [drawn, ← List.append_assoc, ← List.cons_append]
      refine List.Nodup.append ?_ (List.nodup_singleton _) (by simpa [drawn] using hfresh)
      simpa [drawn] using h.names.nodup
    · intro other hmem
      rw [← List.append_assoc] at hmem
      cases List.mem_append.mp hmem with
      | inl hold => exact h.names.letters other hold
      | inr hnew => exact List.mem_singleton.mp hnew ▸ hlength
    · intro other hmem
      cases List.mem_append.mp hmem with
      | inl hold =>
          have hdrawn := h.names.created other hold
          simp only [drawn, List.mem_cons, List.mem_append] at hdrawn ⊢
          tauto
      | inr hnew =>
          simp only [drawn, List.mem_cons, List.mem_append]
          exact .inr (.inr (.inr (.inl (List.mem_singleton.mp hnew))))
    · have honce := h.names.once
      simpa only [requests, inHand, hloop, ends] using honce
    · have hrequested := h.names.requested
      simpa only [requests, inHand, hloop, ends] using hrequested
    · have hdistinct := h.names.distinct
      rw [hmade, List.append_nil] at hdistinct
      exact hdistinct.append (List.nodup_singleton _)
        (List.disjoint_singleton.mpr fun hmem => hserver (hends name hmem))
    · intro other hmem
      cases List.mem_append.mp hmem with
      | inl hold => exact List.mem_append_left _ (hends other hold)
      | inr hnew => exact List.mem_append_right _ hnew
  · exact by simp [LoopOpened]
  · intro queue other hget hnot
    cases getElem?_append_singleton hget with
    | inl hold =>
        apply h.untold queue other hold
        cases hnot with
        | inl hnot => exact .inl hnot
        | inr hnot =>
            refine .inr ⟨?_, hnot.2⟩
            cases List.mem_append.mp hnot.1 with
            | inl hdrawn => exact hdrawn
            | inr hnew =>
                cases List.mem_singleton.mp hnew
                exact absurd (List.mem_of_getElem? hold) hnone
    | inr hnew =>
        rw [hnew.1]
        exact h.sound.blank _ (Nat.le_refl _)
  · intro i
    have hok := h.clients i
    have hne : (s.clients i).mqName ≠ [] → (s.clients i).mqName ≠ name :=
      fun hname => hclient _ (hok.drawn hname)
    refine hok.frame ⟨fun _ hmem => hmem, rfl, ?_, ?_, ?_, ?_, fun _ _ _ => rfl, fun _ _ _ => rfl,
      fun _ hmem => hmem, fun _ hmem _ => .inl hmem⟩
    · intro hposition hmem
      cases List.mem_append.mp hmem with
      | inl hold => exact hold
      | inr hnew =>
          refine absurd (List.mem_singleton.mp hnew) (hne (hok.begun (.inl ?_)))
          cases hnow : (s.clients i).position <;> rw [hnow] at hposition <;> trivial
    · exact fun howns => Function.update_of_ne (hne (hok.begun (.inr howns))) _ _
    · intro _ hmem
      simpa only [requests, inHand, hloop, ends] using hmem
    · intro _ hmem
      simpa only [requests, inHand, hloop, ends] using hmem
  · intro c hc
    exact (h.connections c hc).frame (fun _ _ hget => Queues.created_append _ hget) rfl rfl

/-- The accept loop opens the queue that the request names. -/
theorem Inv.acceptOpen (h : s.Inv serializeAsString parseFromString serverName)
    {clientName name : Bytes} {receiveMQ sendMQ : Nat}
    (hloop : s.acceptLoop = .opening clientName name receiveMQ)
    (hnamed : s.queues.named clientName = some sendMQ) :
    IpcSystem.Inv serializeAsString parseFromString serverName
      { s with acceptLoop := .sending clientName name receiveMQ sendMQ } := by
  have hrequests : IpcSystem.requests
      { s with acceptLoop := .sending clientName name receiveMQ sendMQ } = s.requests := by
    simp only [requests, inHand, hloop]
    rfl
  refine ⟨h.sound, ?_, ?_, h.untold, ?_, ?_⟩
  · exact h.names.congr (fun _ => rfl) rfl rfl rfl rfl hrequests rfl (by simp [made, hloop])
  · have hopened := h.loop
    simp only [LoopOpened, hloop] at hopened
    exact ⟨hopened, h.sound.named _ _ hnamed⟩
  · intro i
    refine (h.clients i).frame ⟨fun _ hmem => hmem, rfl, fun _ hmem => hmem, fun _ => rfl, ?_, ?_,
      fun _ _ _ => rfl, fun _ _ _ => rfl, fun _ hmem => hmem, fun _ hmem _ => .inl hmem⟩
    · rw [hrequests]
      exact fun _ hmem => hmem
    · rw [hrequests]
      exact fun _ hmem => hmem
  · exact fun c hc => (h.connections c hc).frame (fun _ _ hget => hget) rfl rfl

/-- The request of a client that is gone is dropped. -/
theorem Inv.acceptOrphan (h : s.Inv serializeAsString parseFromString serverName)
    {clientName name : Bytes} {receiveMQ : Nat}
    (hloop : s.acceptLoop = .opening clientName name receiveMQ)
    (hnamed : s.queues.named clientName = none) :
    IpcSystem.Inv serializeAsString parseFromString serverName
      { s with acceptLoop := .receiving, orphans := s.orphans ++ [name] } := by
  have hsub : List.Sublist (IpcSystem.requests
      { s with acceptLoop := .receiving, orphans := s.orphans ++ [name] }) s.requests := by
    simp only [requests, inHand, hloop, List.append_nil, List.append_assoc]
    exact List.Sublist.append_left (List.sublist_append_right ..) _
  refine ⟨h.sound, ?_, trivial, h.untold, ?_, ?_⟩
  · refine ⟨h.names.nodup, h.names.letters, h.names.created, h.names.serverMQ, h.names.own,
      h.names.once.sublist hsub, fun other hmem => h.names.requested other (hsub.subset hmem),
      ?_, ?_⟩
    · simp only [made, List.append_nil]
      exact List.Nodup.of_append_left h.names.distinct
    · intro other hmem
      simp only [made, List.append_nil] at hmem
      exact h.names.answered other (List.mem_append_left _ hmem)
  · intro i
    have hok := h.clients i
    refine hok.frame ⟨fun _ hmem => hmem, rfl, fun _ hmem => hmem, fun _ => rfl,
      fun _ hmem => hsub.subset hmem, ?_, fun _ _ _ => rfl, fun _ _ _ => rfl,
      fun _ hmem => hmem, fun _ hmem _ => .inl hmem⟩
    intro hposition hmem
    obtain ⟨queue, -, hown⟩ := hok.owns (by rw [hposition]; trivial)
    have hne : (s.clients i).mqName ≠ clientName := by
      intro heq
      rw [heq, hnamed] at hown
      cases hown
    simp only [requests, inHand, hloop, ends, List.mem_append, List.mem_singleton, hne,
      or_false] at hmem
    simpa only [requests, inHand, ends, List.append_nil, List.mem_append] using hmem
  · exact fun c hc => (h.connections c hc).frame (fun _ _ hget => hget) rfl rfl

theorem Inv.loop_drawn (h : s.Inv serializeAsString parseFromString serverName)
    {clientName name : Bytes} (hhand : s.inHand = [clientName]) (hmade : s.made = [name]) :
    clientName ∈ s.clientNames ∧ name ∈ s.serverNames := by
  constructor
  · apply h.names.requested
    simp [requests, hhand]
  · apply h.names.answered
    simp [hmade]

/-- No connection has the request or the name that the loop is at. -/
theorem Inv.loop_unused (h : s.Inv serializeAsString parseFromString serverName)
    {clientName name : Bytes} (hhand : s.inHand = [clientName]) (hmade : s.made = [name]) :
    clientName ∉ s.ends.map IpcEnds.clientMQName ∧ name ∉ s.ends.map IpcEnds.mqName := by
  have honce := h.names.once
  have hdistinct := h.names.distinct
  rw [requests, hhand, List.append_assoc] at honce
  rw [hmade] at hdistinct
  exact ⟨fun hmem => List.disjoint_of_nodup_append honce hmem (by simp),
    fun hmem => List.disjoint_of_nodup_append hdistinct hmem (by simp)⟩

/-- Nothing has been put into the queue that the loop is about to answer to. -/
theorem Inv.loop_unsent (h : s.Inv serializeAsString parseFromString serverName)
    {clientName name : Bytes} {receiveMQ sendMQ : Nat}
    (hloop : s.acceptLoop = .sending clientName name receiveMQ sendMQ) :
    s.queues.put sendMQ = [] := by
  have hopened := h.loop
  simp only [LoopOpened, hloop] at hopened
  have hmade : s.made = [name] := by simp [made, hloop]
  have hhand : s.inHand = [clientName] := by simp [inHand, hloop]
  exact h.untold _ _ hopened.2 (.inl ⟨(h.loop_drawn hhand hmade).1, (h.loop_unused hhand hmade).1⟩)

/-- The accept loop answers a request, and the connection is there. -/
theorem Inv.acceptReply (h : s.Inv serializeAsString parseFromString serverName)
    {clientName name : Bytes} {receiveMQ sendMQ : Nat} {queues : Queues Bytes Bytes}
    (hloop : s.acceptLoop = .sending clientName name receiveMQ sendMQ)
    (hsend : s.queues.send maxNumMsg sendMQ name = some queues) :
    IpcSystem.Inv serializeAsString parseFromString serverName { s with
      queues
      acceptLoop := .receiving
      connections := s.connections ++
        [{ clientMQName := clientName, mqName := name, sendMQ, receiveMQ }] } := by
  have hopened := h.loop
  simp only [LoopOpened, hloop] at hopened
  have hmade : s.made = [name] := by simp [made, hloop]
  have hhand : s.inHand = [clientName] := by simp [inHand, hloop]
  obtain ⟨hclient, hserver⟩ := h.loop_drawn hhand hmade
  obtain ⟨hnew, hunused⟩ := h.loop_unused hhand hmade
  have hunsent := h.loop_unsent hloop
  have hsilent := h.untold _ _ hopened.1 (.inr ⟨hserver, hunused⟩)
  have hsound := h.sound.send hopened.2 hsend
  obtain ⟨-, rfl⟩ := Queues.send_cases hsend
  have hends : ∀ e ∈ s.ends, e.receiveMQ ≠ sendMQ := by
    intro e he
    exact queue_ne (h.end_ok he).2 hopened.2
      (h.names.client_ne_server hclient (h.names.end_drawn he).2).symm
  have hne : receiveMQ ≠ sendMQ :=
    queue_ne hopened.1 hopened.2 (h.names.client_ne_server hclient hserver).symm
  have hqueue : s.serverMQ ≠ sendMQ :=
    queue_ne h.names.serverMQ hopened.2 (h.names.client_ne hclient).symm
  have hmore : ∀ queues, IpcSystem.ends { s with
      queues
      acceptLoop := .receiving
      connections := s.connections ++
        [{ clientMQName := clientName, mqName := name, sendMQ, receiveMQ }] } =
      s.ends ++ [{ clientMQName := clientName, mqName := name, sendMQ, receiveMQ }] := by
    simp [ends]
  have hrequests : ∀ queues : Queues Bytes Bytes,
      queues.waiting s.serverMQ = s.queues.waiting s.serverMQ →
      IpcSystem.requests { s with
        queues
        acceptLoop := .receiving
        connections := s.connections ++
          [{ clientMQName := clientName, mqName := name, sendMQ, receiveMQ }] } = s.requests := by
    intro queues hwaiting
    rw [requests, hmore, requests, hhand, hwaiting]
    simp [inHand]
  have hsame := hrequests { s.queues with
    waiting := Function.update s.queues.waiting sendMQ (s.queues.waiting sendMQ ++ [name])
    put := Function.update s.queues.put sendMQ (s.queues.put sendMQ ++ [name]) }
    (Function.update_of_ne hqueue _ _)
  refine ⟨hsound, ?_, trivial, ?_, ?_, ?_⟩
  · refine ⟨h.names.nodup, h.names.letters, h.names.created, h.names.serverMQ, h.names.own, ?_,
      ?_, ?_, ?_⟩
    · exact hsame.symm ▸ h.names.once
    · exact hsame.symm ▸ h.names.requested
    · have hdistinct := h.names.distinct
      rw [hmade] at hdistinct
      simpa [hmore, made] using hdistinct
    · have hanswered := h.names.answered
      rw [hmade] at hanswered
      simpa [hmore, made] using hanswered
  · intro queue other hget hnot
    rw [hmore] at hnot
    simp only [List.map_append, List.map_singleton, List.mem_append, List.mem_singleton,
      not_or] at hnot
    have hother : queue ≠ sendMQ := by
      apply queue_ne hget hopened.2
      cases hnot with
      | inl hnot => exact hnot.2.2
      | inr hnot => exact (h.names.client_ne_server hclient hnot.1).symm
    simp only [Function.update_of_ne hother]
    apply h.untold queue other hget
    cases hnot with
    | inl hnot => exact .inl ⟨hnot.1, hnot.2.1⟩
    | inr hnot => exact .inr ⟨hnot.1, hnot.2.1⟩
  · intro i
    refine (h.clients i).frame ⟨fun _ hmem => hmem, rfl, fun _ hmem => hmem, fun _ => rfl, ?_, ?_,
      fun _ _ _ => rfl, ?_, ?_, ?_⟩
    · exact fun _ hmem => hsame ▸ hmem
    · exact fun _ hmem => hsame.symm ▸ hmem
    · exact fun e he _ => Function.update_of_ne (hends e he) _ _
    · intro e he
      rw [hmore]
      exact List.mem_append_left _ he
    · intro e he _
      rw [hmore] at he
      cases List.mem_append.mp he with
      | inl hold => exact .inl hold
      | inr hmem =>
          cases List.mem_singleton.mp hmem
          exact .inr ((Function.update_of_ne hne _ _).trans hsilent)
  · intro c hc
    cases List.mem_append.mp hc with
    | inl hold =>
        refine (h.connections c hold).frame (fun _ _ hget => hget) ?_ rfl
        apply Function.update_of_ne
        apply queue_ne (h.connections c hold).sendMQ hopened.2
        rintro rfl
        exact hnew (List.mem_map_of_mem (List.mem_map_of_mem hold))
    | inr hmem =>
        cases List.mem_singleton.mp hmem
        have hhistory := h.sound.history receiveMQ
        rw [hsilent] at hhistory
        have htaken := (List.append_eq_nil_iff.mp hhistory.symm).1
        refine ⟨hopened.2, hopened.1, ?_, ?_, by simp⟩
        · simp [hunsent]
        · simp [htaken]

theorem Inv.accept (h : s.Inv serializeAsString parseFromString serverName) {rand : Nat → Nat}
    (hfresh : ∀ clientName, s.acceptLoop = .creating clientName →
      randomName rand ∉ s.drawn serverName)
    (hstep : s.accept rand = some s') : s'.Inv serializeAsString parseFromString serverName := by
  simp only [IpcSystem.accept] at hstep
  split at hstep
  · rename_i hloop
    obtain ⟨⟨name, queues⟩, hreceive, rfl⟩ := Option.map_eq_some_iff.mp hstep
    exact h.acceptRequest hloop hreceive
  · rename_i clientName hloop
    cases hstep
    exact h.acceptCreate hloop (hfresh clientName hloop) (randomName_length rand)
  · rename_i clientName name receiveMQ hloop
    split at hstep
    · rename_i sendMQ hnamed
      cases hstep
      exact h.acceptOpen hloop hnamed
    · rename_i hnamed
      cases hstep
      exact h.acceptOrphan hloop hnamed
  · rename_i clientName name receiveMQ sendMQ hloop
    obtain ⟨queues, hsend, rfl⟩ := Option.map_eq_some_iff.mp hstep
    exact h.acceptReply hloop hsend

theorem inv_start : (start serverName).Inv serializeAsString parseFromString serverName := by
  have hstart : start serverName =
      { queues := { created := [serverName],
                    named := Function.update (Function.update (fun _ => none) serverName none)
                      serverName (some 0) },
        serverMQ := 0 } := by
    simp [start, Queues.remove, Queues.openOrCreate]
  have hsound : (start serverName).queues.Sound maxNumMsg :=
    (Queues.sound_empty.remove serverName).openOrCreate (by simp [Queues.remove])
  refine ⟨hsound, ?_, ?_, ?_, ?_, ?_⟩
  · rw [hstart]
    exact {
      nodup := by simp [drawn]
      letters := by simp
      created := by simp [drawn]
      serverMQ := rfl
      own := fun _ _ _ hne => absurd rfl hne
      once := by simp [requests, ends, inHand]
      requested := by simp [requests, ends, inHand]
      distinct := by simp [ends, made]
      answered := by simp [ends, made] }
  · rw [hstart]
    trivial
  · rw [hstart]
    exact fun _ _ _ _ => rfl
  · intro i
    rw [hstart]
    exact {
      drawn := fun hne => absurd rfl hne
      begun := by simp [ConnectPosition.Asks, ConnectPosition.Owns]
      unnamed := fun _ => rfl
      uncreated := by simp [ConnectPosition.Names]
      owns := by simp [ConnectPosition.Owns]
      server := by simp
      unasked := by simp [ConnectPosition.Asks]
      quiet := fun _ => rfl
      silent := fun _ _ => ⟨rfl, rfl⟩
      waiting := by simp
      attaching := by simp
      unheard := by simp
      parses := by simp
      attached := by simp }
  · rw [hstart]
    simp

theorem Inv.step (h : s.Inv serializeAsString parseFromString serverName) {e : IpcEvent}
    (hfresh : FreshNames serverName serializeAsString parseFromString s e)
    (hstep : (ipcSystems serverName serializeAsString parseFromString).step s e = some s') :
    s'.Inv serializeAsString parseFromString serverName := by
  cases e with
  | connect client rand => exact h.connect hfresh hstep
  | proceed client => exact h.proceed hstep
  | clientSend client message => exact h.clientSend hfresh hstep
  | clientRead client => exact h.clientRead hstep
  | destroyClient client => exact h.destroyClient hstep
  | accept rand =>
      apply h.accept _ hstep
      intro clientName hloop
      exact hfresh (by rw [hloop]; rfl)
  | serverSend index message => exact h.serverSend hfresh hstep
  | serverRead index => exact h.serverRead hstep
  | destroyConnection index => exact h.destroyConnection hstep

theorem reachable_inv
    (h : (ipcSystems serverName serializeAsString parseFromString).ReachableUnder
      (FreshNames serverName serializeAsString parseFromString) s) :
    s.Inv serializeAsString parseFromString serverName :=
  h.invariant (Inv serializeAsString parseFromString serverName) inv_start
    fun _ _ _ hinv hfresh hstep => hinv.step hfresh hstep

/-- Messages that survive serialisation are read back from what was put into a queue. -/
theorem filterMap_told {told : List MatrixServerMessage}
    (hparses : ∀ message ∈ told, parseFromString (serializeAsString message) = some message) :
    (told.map serializeAsString).filterMap parseFromString = told := by
  induction told with
  | nil => rfl
  | cons message told ih =>
      rw [List.map_cons, List.filterMap_cons, hparses message List.mem_cons_self,
        ih fun other hmem => hparses other (List.mem_cons_of_mem _ hmem)]

end IpcSystem

namespace IpcSystem
variable {serverName : Bytes} {serializeAsString : MatrixServerMessage → Bytes}
  {parseFromString : Bytes → Option MatrixServerMessage} {s s' : IpcSystem}

/-- The receive queues of the clients bear names that clients drew, and no two clients, whatever
became of them, have one in common. -/
structure OwnReceive (s : IpcSystem) : Prop where
  drawn : ∀ i queue, (s.clients i).receiveMQ = some queue →
    ∃ name ∈ s.clientNames, s.queues.created[queue]? = some name
  own : ∀ i j queue, (s.clients i).receiveMQ = some queue →
    (s.clients j).receiveMQ = some queue → i = j

/-- Queues are only added, and the clients keep their receive queues. -/
structure KeepsReceive (s s' : IpcSystem) : Prop where
  receiveMQ : ∀ i, (s'.clients i).receiveMQ = (s.clients i).receiveMQ
  names : ∀ name ∈ s.clientNames, name ∈ s'.clientNames
  created : ∀ (queue : Nat) (name : Bytes), s.queues.created[queue]? = some name →
    s'.queues.created[queue]? = some name

theorem OwnReceive.keep (h : s.OwnReceive) (hkeeps : KeepsReceive s s') : s'.OwnReceive := by
  constructor
  · intro i queue hqueue
    rw [hkeeps.receiveMQ] at hqueue
    obtain ⟨name, hname, hcreated⟩ := h.drawn i queue hqueue
    exact ⟨name, hkeeps.names name hname, hkeeps.created queue name hcreated⟩
  · intro i j queue hi hj
    rw [hkeeps.receiveMQ] at hi hj
    exact h.own i j queue hi hj

theorem KeepsReceive.setClient {client : Nat} {c : IpcClient} {queues : Queues Bytes Bytes}
    (hreceive : c.receiveMQ = (s.clients client).receiveMQ)
    (hcreated : queues.created = s.queues.created) :
    KeepsReceive s ((s.setClient client c).setQueues queues) := by
  refine ⟨?_, fun _ hname => hname, fun queue name hget => ?_⟩
  · intro i
    simp only [IpcSystem.setQueues, IpcSystem.setClient, Function.update_apply]
    split
    · rename_i hi
      rw [hi, hreceive]
    · rfl
  · rw [← hget, ← hcreated]
    rfl

theorem created_send {queues queues' : Queues Bytes Bytes} {queue : Nat} {packet : Bytes}
    (hsend : queues.send maxNumMsg queue packet = some queues') :
    queues'.created = queues.created := by
  obtain ⟨-, rfl⟩ := Queues.send_cases hsend
  rfl

theorem created_receive {queues queues' : Queues Bytes Bytes} {queue : Nat} {packet : Bytes}
    (hreceive : queues.receive queue = some (packet, queues')) :
    queues'.created = queues.created := by
  obtain ⟨-, -, rfl⟩ := Queues.receive_cases hreceive
  rfl

theorem created_sendMessage {sendMQ : Nat} {told told' : List MatrixServerMessage}
    {message : MatrixServerMessage} {queues : Queues Bytes Bytes}
    (hsend : s.sendMessage serializeAsString sendMQ told message = some (queues, told')) :
    queues.created = s.queues.created := by
  simp only [sendMessage] at hsend
  split at hsend
  · cases hsend
    rfl
  · obtain ⟨_, hput, hdone⟩ := Option.map_eq_some_iff.mp hsend
    cases hdone
    exact created_send hput

theorem created_readMessage {receiveMQ : Nat} {heard heard' : List MatrixServerMessage}
    {queues : Queues Bytes Bytes}
    (hread : s.readMessage parseFromString receiveMQ heard = some (queues, heard')) :
    queues.created = s.queues.created := by
  obtain ⟨⟨packet, _⟩, htake, hdone⟩ := Option.map_eq_some_iff.mp hread
  cases hdone
  exact created_receive htake

/-- Only a client that makes its queue gets another one, and it is a new queue. -/
theorem OwnReceive.proceed (h : s.OwnReceive)
    (hinv : s.Inv serializeAsString parseFromString serverName) {client : Nat}
    (hstep : s.proceed serverName client = some s') : s'.OwnReceive := by
  simp only [IpcSystem.proceed] at hstep
  split at hstep
  · split at hstep
    all_goals
      cases hstep
      exact h.keep (.setClient rfl rfl)
  · rename_i tempServer hposition
    have hclient := hinv.clients client
    have hnew := hclient.uncreated (by rw [hposition]; trivial)
    have hname := hclient.drawn (hclient.begun (.inl (by rw [hposition]; trivial)))
    rw [hinv.sound.openOrCreate_fresh hnew] at hstep
    cases hstep
    have hfresh : ∀ i, (s.clients i).receiveMQ ≠ some s.queues.created.length := by
      intro i hqueue
      obtain ⟨name, -, hget⟩ := h.drawn i _ hqueue
      exact absurd (List.getElem?_eq_some_iff.mp hget).1 (Nat.lt_irrefl _)
    constructor
    · intro i queue hqueue
      simp only [IpcSystem.setQueues, IpcSystem.setClient, Function.update_apply] at hqueue
      split at hqueue
      · cases hqueue
        exact ⟨_, hname, List.getElem?_concat_length⟩
      · obtain ⟨name, hdrawn, hget⟩ := h.drawn i queue hqueue
        exact ⟨name, hdrawn, Queues.created_append _ hget⟩
    · intro i j queue hi hj
      simp only [IpcSystem.setQueues, IpcSystem.setClient, Function.update_apply] at hi hj
      split at hi
      · rename_i hclientI
        cases hi
        split at hj
        · rename_i hclientJ
          exact hclientI.trans hclientJ.symm
        · exact absurd hj (hfresh j)
      · split at hj
        · cases hj
          exact absurd hi (hfresh i)
        · exact h.own i j queue hi hj
  · obtain ⟨queues, hsend, rfl⟩ := Option.map_eq_some_iff.mp hstep
    exact h.keep (.setClient rfl (created_send hsend))
  · obtain ⟨⟨packet, queues⟩, htake, rfl⟩ := Option.map_eq_some_iff.mp hstep
    obtain ⟨receiveMQ, -, hreceive⟩ := Option.bind_eq_some_iff.mp htake
    refine h.keep (.setClient ?_ (created_receive hreceive))
    split <;> rfl
  · split at hstep
    all_goals
      cases hstep
      exact h.keep (.setClient rfl rfl)
  · cases hstep

theorem OwnReceive.step (h : s.OwnReceive)
    (hinv : s.Inv serializeAsString parseFromString serverName) {e : IpcEvent}
    (hstep : (ipcSystems serverName serializeAsString parseFromString).step s e = some s') :
    s'.OwnReceive := by
  cases e with
  | connect client rand =>
      simp only [ipcSystems, IpcSystem.connect] at hstep
      split at hstep
      · cases hstep
        refine h.keep ⟨?_, fun _ hname => List.mem_append_left _ hname, ?_⟩
        · intro i
          simp only [IpcSystem.setQueues, IpcSystem.setClient, Function.update_apply]
          split
          · rename_i hi
            rw [hi]
          · rfl
        · intro queue name hget
          simp only [IpcSystem.setQueues]
          split <;> exact hget
      · cases hstep
  | proceed client => exact h.proceed hinv hstep
  | clientSend client message =>
      obtain ⟨sendMQ, -, hsend⟩ := Option.bind_eq_some_iff.mp hstep
      obtain ⟨done, hput, rfl⟩ := Option.map_eq_some_iff.mp hsend
      exact h.keep (.setClient rfl (created_sendMessage hput))
  | clientRead client =>
      simp only [ipcSystems, IpcSystem.clientRead] at hstep
      split at hstep
      · obtain ⟨receiveMQ, -, hread⟩ := Option.bind_eq_some_iff.mp hstep
        obtain ⟨done, htake, rfl⟩ := Option.map_eq_some_iff.mp hread
        exact h.keep (.setClient rfl (created_readMessage htake))
      · cases hstep
  | destroyClient client =>
      simp only [ipcSystems, IpcSystem.destroyClient] at hstep
      split at hstep
      · cases hstep
        refine h.keep (.setClient rfl ?_)
        split <;> rfl
      · cases hstep
  | accept rand =>
      simp only [ipcSystems, IpcSystem.accept] at hstep
      split at hstep
      · obtain ⟨⟨packet, queues⟩, htake, rfl⟩ := Option.map_eq_some_iff.mp hstep
        have hcreated := created_receive htake
        exact h.keep ⟨fun _ => rfl, fun _ hname => hname, fun _ _ hget => hcreated.symm ▸ hget⟩
      · cases hstep
        refine h.keep ⟨fun _ => rfl, fun _ hname => hname, ?_⟩
        intro queue name hget
        simp only [Queues.openOrCreate]
        split
        · exact hget
        · exact Queues.created_append _ hget
      · split at hstep
        all_goals
          cases hstep
          exact h.keep ⟨fun _ => rfl, fun _ hname => hname, fun _ _ hget => hget⟩
      · obtain ⟨queues, hsend, rfl⟩ := Option.map_eq_some_iff.mp hstep
        have hcreated := created_send hsend
        exact h.keep ⟨fun _ => rfl, fun _ hname => hname, fun _ _ hget => hcreated.symm ▸ hget⟩
  | serverSend index message =>
      obtain ⟨c, -, hdone⟩ := Option.bind_eq_some_iff.mp hstep
      split at hdone
      · cases hdone
      · obtain ⟨done, hput, rfl⟩ := Option.map_eq_some_iff.mp hdone
        have hcreated := created_sendMessage hput
        exact h.keep ⟨fun _ => rfl, fun _ hname => hname, fun _ _ hget => hcreated.symm ▸ hget⟩
  | serverRead index =>
      obtain ⟨c, -, hdone⟩ := Option.bind_eq_some_iff.mp hstep
      split at hdone
      · cases hdone
      · obtain ⟨done, htake, rfl⟩ := Option.map_eq_some_iff.mp hdone
        have hcreated := created_readMessage htake
        exact h.keep ⟨fun _ => rfl, fun _ hname => hname, fun _ _ hget => hcreated.symm ▸ hget⟩
  | destroyConnection index =>
      obtain ⟨c, -, hdone⟩ := Option.bind_eq_some_iff.mp hstep
      split at hdone
      · cases hdone
      · cases hdone
        exact h.keep ⟨fun _ => rfl, fun _ hname => hname, fun _ _ hget => hget⟩

theorem reachable_ownReceive
    (h : (ipcSystems serverName serializeAsString parseFromString).ReachableUnder
      (FreshNames serverName serializeAsString parseFromString) s) : s.OwnReceive := by
  have hstart : (start serverName).OwnReceive := by
    constructor
    · intro i queue hqueue
      cases hqueue
    · intro i j queue hqueue
      cases hqueue
  have hboth : s.Inv serializeAsString parseFromString serverName ∧ s.OwnReceive := by
    apply h.invariant (fun s => s.Inv serializeAsString parseFromString serverName ∧ s.OwnReceive)
      ⟨inv_start, hstart⟩
    intro s e s' hinv hfresh hstep
    exact ⟨hinv.1.step hfresh hstep, hinv.2.step hinv.1 hstep⟩
  exact hboth.2

end IpcSystem

/-- A client that `connectToServer` has connected is the peer of exactly one connection of the
server: neither shares a queue with anyone else, and each hears what the other said, in order
and complete but for what still waits in the queue between them. -/
theorem ipc_handshake_pairs {serverName : Bytes}
    {serializeAsString : MatrixServerMessage → Bytes}
    {parseFromString : Bytes → Option MatrixServerMessage} {s : IpcSystem}
    (h : (ipcSystems serverName serializeAsString parseFromString).ReachableUnder
      (FreshNames serverName serializeAsString parseFromString) s)
    {client queue : Nat} (hconnected : (s.clients client).sendMQ = some queue) :
    ∃ (index : Nat) (c : IpcAccepted), s.connections[index]? = some c ∧ c.receiveMQ = queue ∧
      (s.clients client).receiveMQ = some c.sendMQ ∧
      c.told = (s.clients client).heard ++
        (s.queues.waiting c.sendMQ).filterMap parseFromString ∧
      (s.clients client).told = c.heard ++
        (s.queues.waiting c.receiveMQ).filterMap parseFromString ∧
      (∀ (i : Nat) (c' : IpcAccepted), s.connections[i]? = some c' → i ≠ index →
        c'.sendMQ ∉ [c.sendMQ, c.receiveMQ] ∧ c'.receiveMQ ∉ [c.sendMQ, c.receiveMQ]) ∧
      (∀ i, i ≠ client → ∀ queue' ∈ [c.sendMQ, c.receiveMQ],
        (s.clients i).sendMQ ≠ some queue' ∧ (s.clients i).receiveMQ ≠ some queue') := by
  have hinv := IpcSystem.reachable_inv h
  obtain ⟨e, -, rfl, hname, -, he, hclient, hreceive, -, ⟨packets, htakes, hheard⟩, htold⟩ :=
    hinv.attached hconnected
  obtain ⟨c, hc, rfl⟩ := List.mem_map.mp he
  obtain ⟨index, hget⟩ := List.mem_iff_getElem?.mp hc
  have hok := hinv.connections c hc
  refine ⟨index, c, hget, rfl, hreceive, ?_, ?_, ?_, ?_⟩
  · have hhistory := hinv.sound.history c.sendMQ
    rw [hok.put, htakes, List.cons_append, List.cons.injEq] at hhistory
    rw [hheard, ← List.filterMap_append, ← hhistory.2]
    exact (IpcSystem.filterMap_told hok.parses).symm
  · have hhistory := hinv.sound.history c.receiveMQ
    rw [htold] at hhistory
    rw [hok.heard, ← List.filterMap_append, ← hhistory]
    exact (IpcSystem.filterMap_told (hinv.clients client).parses).symm
  · intro i c' hget' hne
    have he' : c'.toIpcEnds ∈ s.ends := List.mem_map_of_mem (List.mem_of_getElem? hget')
    have hends := hinv.ends_ne hget hget' hne
    simp only [List.mem_cons, List.not_mem_nil, or_false, not_or]
    exact ⟨⟨hinv.sendMQ_ne he' he hends, hinv.sendMQ_ne_receiveMQ he' he⟩,
      (hinv.sendMQ_ne_receiveMQ he he').symm, hinv.receiveMQ_ne he' he hends⟩
  · intro i hne queue' hqueue'
    have hown := IpcSystem.reachable_ownReceive h
    constructor
    · intro hsend
      obtain ⟨e', -, rfl, hname', -, he', hclient', -⟩ := hinv.attached hsend
      have hends : e' ≠ c.toIpcEnds := by
        rintro rfl
        exact hne (hinv.attached_unique hclient'.symm hclient.symm hname')
      cases List.mem_pair.mp hqueue' with
      | inl hsame => exact hinv.sendMQ_ne_receiveMQ he he' hsame.symm
      | inr hsame => exact hinv.receiveMQ_ne he' he hends hsame
    · intro hreceive'
      cases List.mem_pair.mp hqueue' with
      | inl hsame => exact hne (hown.own i client c.sendMQ (hsame ▸ hreceive') hreceive)
      | inr hsame =>
          obtain ⟨name, hdrawn, hget'⟩ := hown.drawn i _ hreceive'
          exact IpcSystem.queue_ne hget' hok.receiveMQ
            (hinv.names.client_ne_server hdrawn (hinv.names.end_drawn he).2) hsame

/-- "matrixserver" -/
def ipcServerName : Bytes := [109, 97, 116, 114, 105, 120, 115, 101, 114, 118, 101, 114]

/-- Two clients ask at the same time, the second one is answered first, and each side of the
first one's connection says something. -/
def twoHandshakes : List IpcEvent :=
  [.connect 0 fun _ => 0, .connect 1 fun _ => 1] ++
  [.proceed 0, .proceed 1, .proceed 0, .proceed 1, .proceed 1, .proceed 0] ++
  List.replicate 4 (.accept fun _ => 2) ++ List.replicate 4 (.accept fun _ => 3) ++
  [.proceed 0, .proceed 1, .proceed 0, .proceed 1, .clientSend 0 { messageType := .registerApp },
    .serverSend 1 { messageType := .registerApp }, .clientRead 0]

theorem ipc_handshake_pairs_two_clients :
    ∃ s, (ipcSystems ipcServerName registerBytes parseRegister).ReachableUnder
        (FreshNames ipcServerName registerBytes parseRegister) s ∧
      (s.clients 0).sendMQ = some 4 ∧ (s.clients 1).sendMQ = some 3 ∧
      ∃ (index : Nat) (c : IpcAccepted), s.connections[index]? = some c ∧ c.receiveMQ = 4 ∧
        (s.clients 0).told = c.heard ++
          (s.queues.waiting c.receiveMQ).filterMap parseRegister := by
  obtain ⟨s, h, htest⟩ := TransitionSystem.ReachableUnder.of_test
    (M := ipcSystems ipcServerName registerBytes parseRegister)
    (FreshNames ipcServerName registerBytes parseRegister) twoHandshakes
    (fun s => (s.clients 0).sendMQ == some 4 && (s.clients 1).sendMQ == some 3) rfl
  rw [Bool.and_eq_true, beq_iff_eq, beq_iff_eq] at htest
  obtain ⟨index, c, hget, hqueue, -, -, htold, -⟩ := ipc_handshake_pairs h htest.1
  exact ⟨s, h, htest.1, htest.2, index, c, hget, hqueue, htold⟩

end MatrixServer
