import MatrixServer.Server.IpcHandshake

/-!
What holds of the IPC clients, the accept loop and the queues between them.
The names tell the queues apart: each was drawn once, by a client or by the accept loop, and
a client's request is in one place until the connection exists. A step that uses the queues
of a connection, or only takes names away, is noticed by nobody but the party that takes it.
-/

namespace MatrixServer
open TransitionRuns NamedQueues

namespace Ipc.ConnectPosition

/-- The request has not been put into the server's queue yet. -/
def Asks : ConnectPosition → Prop
  | .opening | .creating _ | .requesting _ => True
  | _ => False

/-- The client's queue is not there yet. -/
def Names : ConnectPosition → Prop
  | .opening | .creating _ => True
  | _ => False

/-- The client's queue is there. -/
def Owns : ConnectPosition → Prop
  | .requesting _ | .waiting | .attaching _ | .returned true => True
  | _ => False

end Ipc.ConnectPosition

namespace IpcSystem
open Ipc

def ends (s : IpcSystem) : List IpcEnds := s.connections.map IpcAccepted.toIpcEnds

/-- The request that is being answered. -/
def inHand (s : IpcSystem) : List Bytes :=
  match s.acceptLoop with
  | .receiving => []
  | .creating name | .opening name _ _ | .sending name _ _ _ => [name]

/-- The name of the queue that is made for it. -/
def made (s : IpcSystem) : List Bytes :=
  match s.acceptLoop with
  | .opening _ name _ | .sending _ name _ _ => [name]
  | _ => []

def requests (s : IpcSystem) : List Bytes :=
  s.ends.map IpcEnds.clientMQName ++ s.inHand ++ s.queues.waiting s.serverMQ

/-- Who drew which names. -/
structure Names (serverName : Bytes) (s : IpcSystem) : Prop where
  nodup : (s.drawn serverName).Nodup
  letters : ∀ name ∈ s.clientNames ++ s.serverNames, name.length = 20
  created : ∀ name ∈ s.queues.created, name ∈ s.drawn serverName
  serverMQ : s.queues.created[s.serverMQ]? = some serverName
  own : ∀ i j, (s.clients i).mqName = (s.clients j).mqName → (s.clients i).mqName ≠ [] → i = j
  once : s.requests.Nodup
  requested : ∀ name ∈ s.requests, name ∈ s.clientNames
  distinct : (s.ends.map IpcEnds.mqName ++ s.made).Nodup
  answered : ∀ name ∈ s.ends.map IpcEnds.mqName ++ s.made, name ∈ s.serverNames

/-- The queues the accept loop has opened bear the names it knows. -/
def LoopOpened (s : IpcSystem) : Prop :=
  match s.acceptLoop with
  | .opening _ name receiveMQ => s.queues.created[receiveMQ]? = some name
  | .sending clientName name receiveMQ sendMQ =>
      s.queues.created[receiveMQ]? = some name ∧ s.queues.created[sendMQ]? = some clientName
  | _ => True

section
variable (serializeAsString : MatrixServerMessage → Bytes)
  (parseFromString : Bytes → Option MatrixServerMessage)

/-- The client has its connection, and what it said and heard are in the connection's queues. -/
def Attached (s : IpcSystem) (c : IpcClient) (e : IpcEnds) : Prop :=
  e ∈ s.ends ∧ e.clientMQName = c.mqName ∧ c.receiveMQ = some e.sendMQ ∧
    c.sendMQ = some e.receiveMQ ∧
    (∃ packets, s.queues.taken e.sendMQ = e.mqName :: packets ∧
      c.heard = packets.filterMap parseFromString) ∧
    s.queues.put e.receiveMQ = c.told.map serializeAsString

/-- How far a client is, and what is in its queue. -/
structure ClientOk (s : IpcSystem) (c : IpcClient) : Prop where
  drawn : c.mqName ≠ [] → c.mqName ∈ s.clientNames
  begun : c.position.Asks ∨ c.position.Owns → c.mqName ≠ []
  unnamed : c.position = .idle → c.mqName = []
  uncreated : c.position.Names → c.mqName ∉ s.queues.created
  owns : c.position.Owns →
    ∃ queue, c.receiveMQ = some queue ∧ s.queues.named c.mqName = some queue
  server : ∀ tempServer, c.position = .creating tempServer ∨ c.position = .requesting tempServer →
    tempServer = s.serverMQ
  unasked : c.position.Asks → c.mqName ∉ s.requests
  quiet : c.position ≠ .returned true → c.sendMQ = none
  silent : c.position ≠ .returned true → c.position ≠ .destroyed → c.told = [] ∧ c.heard = []
  waiting : c.position = .waiting → c.mqName ∈ s.requests ∧
    ∀ queue, s.queues.named c.mqName = some queue → s.queues.taken queue = []
  attaching : ∀ reply, c.position = .attaching reply →
    ∀ queue, s.queues.named c.mqName = some queue → s.queues.taken queue = [reply]
  unheard : c.position = .waiting ∨ (∃ reply, c.position = .attaching reply) →
    ∀ e ∈ s.ends, e.clientMQName = c.mqName → s.queues.put e.receiveMQ = []
  parses : ∀ message ∈ c.told, parseFromString (serializeAsString message) = some message
  attached : c.position = .returned true →
    ∃ e, s.Attached serializeAsString parseFromString c e

/-- A connection's queues, and what it said and heard in them. -/
structure AcceptedOk (s : IpcSystem) (c : IpcAccepted) : Prop where
  sendMQ : s.queues.created[c.sendMQ]? = some c.clientMQName
  receiveMQ : s.queues.created[c.receiveMQ]? = some c.mqName
  put : s.queues.put c.sendMQ = c.mqName :: c.told.map serializeAsString
  heard : c.heard = (s.queues.taken c.receiveMQ).filterMap parseFromString
  parses : ∀ message ∈ c.told, parseFromString (serializeAsString message) = some message

structure Inv (serverName : Bytes) (s : IpcSystem) : Prop where
  sound : s.queues.Sound maxNumMsg
  names : s.Names serverName
  loop : s.LoopOpened
  /-- Nothing is put into a queue before there is a connection that uses it. -/
  untold : ∀ queue name, s.queues.created[queue]? = some name →
    name ∈ s.clientNames ∧ name ∉ s.ends.map IpcEnds.clientMQName ∨
      name ∈ s.serverNames ∧ name ∉ s.ends.map IpcEnds.mqName → s.queues.put queue = []
  clients : ∀ i, s.ClientOk serializeAsString parseFromString (s.clients i)
  connections : ∀ c ∈ s.connections, s.AcceptedOk serializeAsString parseFromString c

end

variable {serverName : Bytes} {serializeAsString : MatrixServerMessage → Bytes}
  {parseFromString : Bytes → Option MatrixServerMessage} {s s' : IpcSystem}

/-- What a client's facts depend on, and how it may change. -/
structure Frame (s s' : IpcSystem) (c : IpcClient) : Prop where
  names : ∀ name ∈ s.clientNames, name ∈ s'.clientNames
  serverMQ : s'.serverMQ = s.serverMQ
  uncreated : c.position.Names → c.mqName ∈ s'.queues.created → c.mqName ∈ s.queues.created
  named : c.position.Owns → s'.queues.named c.mqName = s.queues.named c.mqName
  asked : c.position.Asks → c.mqName ∈ s'.requests → c.mqName ∈ s.requests
  kept : c.position = .waiting → c.mqName ∈ s.requests → c.mqName ∈ s'.requests
  taken : c.mqName ≠ [] → ∀ queue, s.queues.named c.mqName = some queue →
    s'.queues.taken queue = s.queues.taken queue
  put : ∀ e ∈ s.ends, e.clientMQName = c.mqName →
    s'.queues.put e.receiveMQ = s.queues.put e.receiveMQ
  ends : ∀ e ∈ s.ends, e ∈ s'.ends
  fresh : ∀ e ∈ s'.ends, e.clientMQName = c.mqName → e ∈ s.ends ∨ s'.queues.put e.receiveMQ = []

theorem ClientOk.frame {c : IpcClient} (h : s.ClientOk serializeAsString parseFromString c)
    (hframe : Frame s s' c) : s'.ClientOk serializeAsString parseFromString c where
  drawn := fun hname => hframe.names _ (h.drawn hname)
  begun := h.begun
  unnamed := h.unnamed
  uncreated := fun hposition hmem => h.uncreated hposition (hframe.uncreated hposition hmem)
  owns := by
    intro howns
    rw [hframe.named howns]
    exact h.owns howns
  server := by
    rw [hframe.serverMQ]
    exact h.server
  unasked := fun hposition hmem => h.unasked hposition (hframe.asked hposition hmem)
  quiet := h.quiet
  silent := h.silent
  waiting := by
    intro hposition
    have howns : c.position.Owns := by
      rw [hposition]
      trivial
    obtain ⟨hasked, htaken⟩ := h.waiting hposition
    refine ⟨hframe.kept hposition hasked, ?_⟩
    intro queue hnamed
    rw [hframe.named howns] at hnamed
    rw [hframe.taken (h.begun (.inr howns)) queue hnamed]
    exact htaken queue hnamed
  attaching := by
    intro reply hposition queue hnamed
    have howns : c.position.Owns := by
      rw [hposition]
      trivial
    rw [hframe.named howns] at hnamed
    rw [hframe.taken (h.begun (.inr howns)) queue hnamed]
    exact h.attaching reply hposition queue hnamed
  unheard := by
    intro hposition e he hname
    cases hframe.fresh e he hname with
    | inl hold =>
        rw [hframe.put e hold hname]
        exact h.unheard hposition e hold hname
    | inr hnone => exact hnone
  parses := h.parses
  attached := by
    intro hposition
    have howns : c.position.Owns := by
      rw [hposition]
      trivial
    obtain ⟨queue, hqueue, hnamed⟩ := h.owns howns
    obtain ⟨e, he, hname, hreceive, hsend, hheard, htold⟩ := h.attached hposition
    refine ⟨e, hframe.ends e he, hname, hreceive, hsend, ?_, ?_⟩
    · rw [hqueue, Option.some.injEq] at hreceive
      rw [hreceive] at hnamed
      rw [hframe.taken (h.begun (.inr howns)) _ hnamed]
      exact hheard
    · rw [hframe.put e he hname]
      exact htold

/-! Names of different parties differ. -/

theorem Names.client_ne_server (h : s.Names serverName) {name other : Bytes}
    (hname : name ∈ s.clientNames) (hother : other ∈ s.serverNames) : name ≠ other := by
  have hnodup := (List.nodup_cons.mp h.nodup).2
  exact fun heq => List.disjoint_of_nodup_append hnodup hname (heq ▸ hother)

theorem Names.client_ne (h : s.Names serverName) {name : Bytes} (hname : name ∈ s.clientNames) :
    name ≠ serverName := by
  intro heq
  apply (List.nodup_cons.mp h.nodup).1
  rw [← heq]
  exact List.mem_append_left _ hname

theorem Names.server_ne (h : s.Names serverName) {name : Bytes} (hname : name ∈ s.serverNames) :
    name ≠ serverName := by
  intro heq
  apply (List.nodup_cons.mp h.nodup).1
  rw [← heq]
  exact List.mem_append_right _ hname

theorem queue_ne {queue other : Nat} {name otherName : Bytes}
    (hqueue : s.queues.created[queue]? = some name)
    (hother : s.queues.created[other]? = some otherName) (hne : name ≠ otherName) :
    queue ≠ other := by
  intro heq
  rw [heq, hother, Option.some.injEq] at hqueue
  exact hne hqueue.symm

theorem Names.end_drawn (h : s.Names serverName) {e : IpcEnds} (he : e ∈ s.ends) :
    e.clientMQName ∈ s.clientNames ∧ e.mqName ∈ s.serverNames := by
  constructor
  · apply h.requested
    exact List.mem_append_left _ (List.mem_append_left _ (List.mem_map_of_mem he))
  · exact h.answered _ (List.mem_append_left _ (List.mem_map_of_mem he))

/-- No two connections answer one request. -/
theorem Names.end_eq_of_client (h : s.Names serverName) {e e' : IpcEnds} (he : e ∈ s.ends)
    (he' : e' ∈ s.ends) (heq : e.clientMQName = e'.clientMQName) : e = e' := by
  have hnodup := h.once
  rw [requests, List.append_assoc] at hnodup
  exact List.inj_on_of_nodup_map (List.Nodup.of_append_left hnodup) he he' heq

theorem Names.end_eq_of_name (h : s.Names serverName) {e e' : IpcEnds} (he : e ∈ s.ends)
    (he' : e' ∈ s.ends) (heq : e.mqName = e'.mqName) : e = e' :=
  List.inj_on_of_nodup_map (List.Nodup.of_append_left h.distinct) he he' heq

theorem Inv.end_ok (h : s.Inv serializeAsString parseFromString serverName) {e : IpcEnds}
    (he : e ∈ s.ends) : s.queues.created[e.sendMQ]? = some e.clientMQName ∧
      s.queues.created[e.receiveMQ]? = some e.mqName := by
  obtain ⟨c, hc, rfl⟩ := List.mem_map.mp he
  exact ⟨(h.connections c hc).sendMQ, (h.connections c hc).receiveMQ⟩

theorem ends_setConnection {index : Nat} {c c' : IpcAccepted}
    (hget : s.connections[index]? = some c) (hends : c'.toIpcEnds = c.toIpcEnds) :
    (s.setConnection index c').ends = s.ends := by
  simp only [setConnection, ends, List.map_set, hends]
  obtain ⟨hlt, rfl⟩ := List.getElem?_eq_some_iff.mp hget
  apply List.ext_getElem
  · simp
  · intro i _ hi
    rw [List.getElem_set]
    split
    · rename_i heq
      subst heq
      simp
    · rfl

theorem Names.congr (h : s.Names serverName)
    (hclients : ∀ i, (s'.clients i).mqName = (s.clients i).mqName)
    (hclientNames : s'.clientNames = s.clientNames) (hserverNames : s'.serverNames = s.serverNames)
    (hcreated : s'.queues.created = s.queues.created) (hserverMQ : s'.serverMQ = s.serverMQ)
    (hrequests : s'.requests = s.requests) (hends : s'.ends = s.ends) (hmade : s'.made = s.made) :
    s'.Names serverName := by
  have hdrawn : s'.drawn serverName = s.drawn serverName := by
    rw [drawn, hclientNames, hserverNames, drawn]
  refine ⟨?_, ?_, ?_, ?_, ?_, ?_, ?_, ?_, ?_⟩
  · rw [hdrawn]
    exact h.nodup
  · rw [hclientNames, hserverNames]
    exact h.letters
  · rw [hdrawn, hcreated]
    exact h.created
  · rw [hcreated, hserverMQ]
    exact h.serverMQ
  · simp only [hclients]
    exact h.own
  · rw [hrequests]
    exact h.once
  · rw [hrequests, hclientNames]
    exact h.requested
  · rw [hends, hmade]
    exact h.distinct
  · rw [hends, hmade, hserverNames]
    exact h.answered

theorem ClientOk.of_attached {c : IpcClient} {e : IpcEnds} (hposition : c.position = .returned true)
    (hname : c.mqName ≠ []) (hdrawn : c.mqName ∈ s.clientNames)
    (hnamed : s.queues.named c.mqName = some e.sendMQ)
    (hparses : ∀ message ∈ c.told, parseFromString (serializeAsString message) = some message)
    (hattached : s.Attached serializeAsString parseFromString c e) :
    s.ClientOk serializeAsString parseFromString c where
  drawn := fun _ => hdrawn
  begun := fun _ => hname
  unnamed := by simp [hposition]
  uncreated := by simp [hposition, ConnectPosition.Names]
  owns := fun _ => ⟨e.sendMQ, hattached.2.2.1, hnamed⟩
  server := by simp [hposition]
  unasked := by simp [hposition, ConnectPosition.Asks]
  quiet := fun hnot => absurd hposition hnot
  silent := fun hnot => absurd hposition hnot
  waiting := by simp [hposition]
  attaching := by simp [hposition]
  unheard := by simp [hposition]
  parses := hparses
  attached := fun _ => ⟨e, hattached⟩

/-- A client with a queue to the server has its connection. -/
theorem Inv.attached (h : s.Inv serializeAsString parseFromString serverName) {client queue : Nat}
    (hsend : (s.clients client).sendMQ = some queue) :
    ∃ e, (s.clients client).position = .returned true ∧ e.receiveMQ = queue ∧
      (s.clients client).mqName ≠ [] ∧
      s.queues.named (s.clients client).mqName = some e.sendMQ ∧
      s.Attached serializeAsString parseFromString (s.clients client) e := by
  have hclient := h.clients client
  have hposition : (s.clients client).position = .returned true := by
    by_contra hnot
    rw [hclient.quiet hnot] at hsend
    cases hsend
  have howns : (s.clients client).position.Owns := by
    rw [hposition]
    trivial
  obtain ⟨e, hattached⟩ := hclient.attached hposition
  obtain ⟨own, hreceive, hnamed⟩ := hclient.owns howns
  refine ⟨e, hposition, ?_, hclient.begun (.inr howns), ?_, hattached⟩
  · exact Option.some.inj (hattached.2.2.2.1.symm.trans hsend)
  · rw [hnamed, ← hreceive]
    exact hattached.2.2.1

/-- Only one client is attached to a connection. -/
theorem Inv.attached_unique (h : s.Inv serializeAsString parseFromString serverName) {i j : Nat}
    {e : IpcEnds} (hi : (s.clients i).mqName = e.clientMQName)
    (hj : (s.clients j).mqName = e.clientMQName) (hname : (s.clients i).mqName ≠ []) : i = j :=
  h.names.own i j (hi.trans hj.symm) hname

/-- A queue that an end names is none of the queues of other names. -/
theorem Inv.receiveMQ_ne (h : s.Inv serializeAsString parseFromString serverName)
    {e e' : IpcEnds} (he : e ∈ s.ends) (he' : e' ∈ s.ends) (hne : e ≠ e') :
    e.receiveMQ ≠ e'.receiveMQ :=
  queue_ne (h.end_ok he).2 (h.end_ok he').2 fun heq => hne (h.names.end_eq_of_name he he' heq)

theorem Inv.sendMQ_ne (h : s.Inv serializeAsString parseFromString serverName)
    {e e' : IpcEnds} (he : e ∈ s.ends) (he' : e' ∈ s.ends) (hne : e ≠ e') :
    e.sendMQ ≠ e'.sendMQ :=
  queue_ne (h.end_ok he).1 (h.end_ok he').1 fun heq => hne (h.names.end_eq_of_client he he' heq)

theorem Inv.sendMQ_ne_receiveMQ (h : s.Inv serializeAsString parseFromString serverName)
    {e e' : IpcEnds} (he : e ∈ s.ends) (he' : e' ∈ s.ends) : e.sendMQ ≠ e'.receiveMQ :=
  queue_ne (h.end_ok he).1 (h.end_ok he').2
    (h.names.client_ne_server (h.names.end_drawn he).1 (h.names.end_drawn he').2)

theorem Inv.serverMQ_ne (h : s.Inv serializeAsString parseFromString serverName) {e : IpcEnds}
    (he : e ∈ s.ends) : s.serverMQ ≠ e.sendMQ ∧ s.serverMQ ≠ e.receiveMQ := by
  constructor
  · exact queue_ne h.names.serverMQ (h.end_ok he).1
      (h.names.client_ne (h.names.end_drawn he).1).symm
  · exact queue_ne h.names.serverMQ (h.end_ok he).2
      (h.names.server_ne (h.names.end_drawn he).2).symm

theorem sendMessage_cases {sendMQ : Nat} {told told' : List MatrixServerMessage}
    {message : MatrixServerMessage} {queues : Queues Bytes Bytes}
    (h : s.sendMessage serializeAsString sendMQ told message = some (queues, told')) :
    queues = s.queues ∧ told' = told ∨
      s.queues.send maxNumMsg sendMQ (serializeAsString message) = some queues ∧
        told' = told ++ [message] := by
  simp only [sendMessage] at h
  split at h
  · cases h
    exact .inl ⟨rfl, rfl⟩
  · obtain ⟨queues', hsend, heq⟩ := Option.map_eq_some_iff.mp h
    cases heq
    exact .inr ⟨hsend, rfl⟩

theorem readMessage_cases {receiveMQ : Nat} {heard heard' : List MatrixServerMessage}
    {queues : Queues Bytes Bytes}
    (h : s.readMessage parseFromString receiveMQ heard = some (queues, heard')) :
    ∃ packet, s.queues.receive receiveMQ = some (packet, queues) ∧
      heard' = heard ++ [packet].filterMap parseFromString := by
  obtain ⟨⟨packet, queues'⟩, hreceive, heq⟩ := Option.map_eq_some_iff.mp h
  cases heq
  refine ⟨packet, hreceive, ?_⟩
  cases hparse : parseFromString packet <;> simp [hparse]

theorem setClient_self (s : IpcSystem) (client : Nat) :
    s.setClient client (s.clients client) = s := by
  simp [setClient]

theorem requests_congr (hends : s'.ends = s.ends) (hloop : s'.acceptLoop = s.acceptLoop)
    (hwaiting : s'.queues.waiting s'.serverMQ = s.queues.waiting s.serverMQ) :
    s'.requests = s.requests := by
  rw [requests, hends, hwaiting, inHand, hloop]
  rfl

theorem LoopOpened.mono (h : s.LoopOpened) (hloop : s'.acceptLoop = s.acceptLoop)
    (hcreated : ∀ (queue : Nat) (name : Bytes), s.queues.created[queue]? = some name →
      s'.queues.created[queue]? = some name) : s'.LoopOpened := by
  simp only [LoopOpened] at h ⊢
  rw [hloop]
  cases hposition : s.acceptLoop with
  | receiving | creating clientName => trivial
  | opening clientName name receiveMQ =>
      rw [hposition] at h
      exact hcreated _ _ h
  | sending clientName name receiveMQ sendMQ =>
      rw [hposition] at h
      exact ⟨hcreated _ _ h.1, hcreated _ _ h.2⟩

/-- No names are drawn, no requests are taken and no connections made. -/
structure SameParties (s s' : IpcSystem) : Prop where
  serverMQ : s'.serverMQ = s.serverMQ
  acceptLoop : s'.acceptLoop = s.acceptLoop
  clientNames : s'.clientNames = s.clientNames
  serverNames : s'.serverNames = s.serverNames
  ends : s'.ends = s.ends
  mqName : ∀ i, (s'.clients i).mqName = (s.clients i).mqName

/-- A step that only puts into a queue or takes out of it. -/
structure Uses (s s' : IpcSystem) (queue : Nat) : Prop extends SameParties s s' where
  created : s'.queues.created = s.queues.created
  named : s'.queues.named = s.queues.named
  waiting : ∀ other, other ≠ queue → s'.queues.waiting other = s.queues.waiting other
  put : ∀ other, other ≠ queue → s'.queues.put other = s.queues.put other
  taken : ∀ other, other ≠ queue → s'.queues.taken other = s.queues.taken other

section
variable {e : IpcEnds} {queue : Nat}

theorem Uses.requests (huses : Uses s s' queue)
    (h : s.Inv serializeAsString parseFromString serverName) (he : e ∈ s.ends)
    (hqueue : queue = e.sendMQ ∨ queue = e.receiveMQ) : s'.requests = s.requests := by
  apply requests_congr huses.ends huses.acceptLoop
  rw [huses.serverMQ]
  apply huses.waiting
  cases hqueue with
  | inl hqueue => exact hqueue ▸ (h.serverMQ_ne he).1
  | inr hqueue => exact hqueue ▸ (h.serverMQ_ne he).2

/-- Parties that use the queues of a connection draw no names and open no queues. -/
theorem Uses.inv (huses : Uses s s' queue)
    (h : s.Inv serializeAsString parseFromString serverName) (he : e ∈ s.ends)
    (hqueue : queue = e.sendMQ ∨ queue = e.receiveMQ) (hsound : s'.queues.Sound maxNumMsg)
    (hclients : ∀ i, s'.ClientOk serializeAsString parseFromString (s'.clients i))
    (hconnections : ∀ c ∈ s'.connections, s'.AcceptedOk serializeAsString parseFromString c) :
    s'.Inv serializeAsString parseFromString serverName := by
  refine ⟨hsound, ?_, ?_, ?_, hclients, hconnections⟩
  · apply h.names.congr huses.mqName huses.clientNames huses.serverNames huses.created
      huses.serverMQ (huses.requests h he hqueue) huses.ends
    rw [made, huses.acceptLoop]
    rfl
  · apply h.loop.mono huses.acceptLoop
    rw [huses.created]
    exact fun _ _ hget => hget
  · intro other name hother hnone
    rw [huses.created] at hother
    rw [huses.ends, huses.clientNames, huses.serverNames] at hnone
    rw [huses.put other]
    · exact h.untold other name hother hnone
    · intro heq
      have hdrawn := h.names.end_drawn he
      have hends := h.end_ok he
      rw [heq] at hother
      cases hqueue with
      | inl hqueue =>
          rw [hqueue, hends.1, Option.some.injEq] at hother
          subst hother
          cases hnone with
          | inl hclient => exact hclient.2 (List.mem_map_of_mem he)
          | inr hserver => exact h.names.client_ne_server hdrawn.1 hserver.1 rfl
      | inr hqueue =>
          rw [hqueue, hends.2, Option.some.injEq] at hother
          subst hother
          cases hnone with
          | inl hclient => exact h.names.client_ne_server hclient.1 hdrawn.2 rfl
          | inr hserver => exact hserver.2 (List.mem_map_of_mem he)

/-- Another client notices nothing. -/
theorem Uses.client (huses : Uses s s' queue)
    (h : s.Inv serializeAsString parseFromString serverName) (he : e ∈ s.ends)
    (hqueue : queue = e.sendMQ ∨ queue = e.receiveMQ) {c : IpcClient}
    (hok : s.ClientOk serializeAsString parseFromString c)
    (htaken : c.mqName ≠ [] → ∀ other, s.queues.named c.mqName = some other →
      s'.queues.taken other = s.queues.taken other)
    (hput : ∀ e' ∈ s.ends, e'.clientMQName = c.mqName →
      s'.queues.put e'.receiveMQ = s.queues.put e'.receiveMQ) :
    s'.ClientOk serializeAsString parseFromString c := by
  have hrequests := huses.requests h he hqueue
  apply hok.frame
  refine ⟨?_, huses.serverMQ, ?_, ?_, ?_, ?_, htaken, hput, ?_, ?_⟩
  · rw [huses.clientNames]
    exact fun _ hmem => hmem
  · rw [huses.created]
    exact fun _ hmem => hmem
  · rw [huses.named]
    exact fun _ => rfl
  · rw [hrequests]
    exact fun _ hmem => hmem
  · rw [hrequests]
    exact fun _ hmem => hmem
  · rw [huses.ends]
    exact fun _ hmem => hmem
  · rw [huses.ends]
    exact fun _ hmem _ => .inl hmem

end

/-- Another connection notices nothing. -/
theorem AcceptedOk.frame {c : IpcAccepted} (h : s.AcceptedOk serializeAsString parseFromString c)
    (hcreated : ∀ (queue : Nat) (name : Bytes), s.queues.created[queue]? = some name →
      s'.queues.created[queue]? = some name)
    (hput : s'.queues.put c.sendMQ = s.queues.put c.sendMQ)
    (htaken : s'.queues.taken c.receiveMQ = s.queues.taken c.receiveMQ) :
    s'.AcceptedOk serializeAsString parseFromString c where
  sendMQ := hcreated _ _ h.sendMQ
  receiveMQ := hcreated _ _ h.receiveMQ
  put := hput.trans h.put
  heard := by
    rw [htaken]
    exact h.heard
  parses := h.parses

section
variable {client queue : Nat} {c : IpcClient} {queues : Queues Bytes Bytes} {packet : Bytes}

theorem SameParties.setClient (hname : c.mqName = (s.clients client).mqName) :
    SameParties s (s.setClient client c) := by
  refine ⟨rfl, rfl, rfl, rfl, rfl, ?_⟩
  intro i
  by_cases hi : i = client
  · subst hi
    simpa [IpcSystem.setClient] using hname
  · simp [IpcSystem.setClient, hi]

theorem SameParties.setConnection {index : Nat} {c c' : IpcAccepted}
    (hget : s.connections[index]? = some c) (hends : c'.toIpcEnds = c.toIpcEnds) :
    SameParties s (s.setConnection index c') :=
  ⟨rfl, rfl, rfl, rfl, ends_setConnection hget hends, fun _ => rfl⟩

theorem SameParties.send (h : SameParties s s')
    (hsend : s.queues.send maxNumMsg queue packet = some queues) :
    Uses s (s'.setQueues queues) queue ∧ queues.taken = s.queues.taken ∧
      queues.put queue = s.queues.put queue ++ [packet] := by
  obtain ⟨-, rfl⟩ := Queues.send_cases hsend
  refine ⟨⟨⟨h.serverMQ, h.acceptLoop, h.clientNames, h.serverNames, h.ends, h.mqName⟩, rfl, rfl,
    ?_, ?_, fun _ _ => rfl⟩, rfl, Function.update_self ..⟩
  · exact fun _ hne => Function.update_of_ne hne _ _
  · exact fun _ hne => Function.update_of_ne hne _ _

theorem SameParties.receive (h : SameParties s s')
    (hreceive : s.queues.receive queue = some (packet, queues)) :
    Uses s (s'.setQueues queues) queue ∧ queues.put = s.queues.put ∧
      queues.taken queue = s.queues.taken queue ++ [packet] := by
  obtain ⟨rest, -, rfl⟩ := Queues.receive_cases hreceive
  refine ⟨⟨⟨h.serverMQ, h.acceptLoop, h.clientNames, h.serverNames, h.ends, h.mqName⟩, rfl, rfl,
    ?_, fun _ _ => rfl, ?_⟩, rfl, Function.update_self ..⟩
  · exact fun _ hne => Function.update_of_ne hne _ _
  · exact fun _ hne => Function.update_of_ne hne _ _

/-- What holds of the client that took the step and of the others holds of all. -/
theorem forall_setClient {P : IpcClient → Prop} (hself : P c)
    (hothers : ∀ i, i ≠ client → P (s.clients i)) (i : Nat) :
    P ((s.setClient client c).clients i) := by
  simp only [IpcSystem.setClient, Function.update_apply]
  split
  · exact hself
  · rename_i hi
    exact hothers i hi

theorem forall_setConnection {P : IpcAccepted → Prop} {index : Nat} {c : IpcAccepted}
    (hself : P c)
    (hothers : ∀ i c', i ≠ index → s.connections[i]? = some c' → P c') :
    ∀ c' ∈ (s.setConnection index c).connections, P c' := by
  intro c' hmem
  obtain ⟨i, hi⟩ := List.mem_iff_getElem?.mp hmem
  simp only [IpcSystem.setConnection, List.getElem?_set] at hi
  split at hi
  · split at hi
    · cases hi
      exact hself
    · cases hi
  · rename_i hne
    exact hothers i c' (Ne.symm hne) hi

end

/-- A step that leaves the queues alone and takes away names at most. -/
structure Keeps (s s' : IpcSystem) : Prop extends SameParties s s' where
  created : s'.queues.created = s.queues.created
  waiting : s'.queues.waiting = s.queues.waiting
  put : s'.queues.put = s.queues.put
  taken : s'.queues.taken = s.queues.taken

theorem SameParties.keeps (h : SameParties s s') (hqueues : s'.queues = s.queues) : Keeps s s' :=
  ⟨h, by rw [hqueues], by rw [hqueues], by rw [hqueues], by rw [hqueues]⟩

theorem SameParties.keeps_remove (h : SameParties s s') (name : Bytes) :
    Keeps s (s'.setQueues (s.queues.remove name)) :=
  ⟨⟨h.serverMQ, h.acceptLoop, h.clientNames, h.serverNames, h.ends, h.mqName⟩, rfl, rfl, rfl, rfl⟩

theorem Keeps.requests (hkeeps : Keeps s s') : s'.requests = s.requests := by
  apply requests_congr hkeeps.ends hkeeps.acceptLoop
  rw [hkeeps.serverMQ, hkeeps.waiting]

theorem Keeps.inv (hkeeps : Keeps s s')
    (h : s.Inv serializeAsString parseFromString serverName) (hsound : s'.queues.Sound maxNumMsg)
    (hclients : ∀ i, s'.ClientOk serializeAsString parseFromString (s'.clients i))
    (hconnections : ∀ c ∈ s'.connections, s'.AcceptedOk serializeAsString parseFromString c) :
    s'.Inv serializeAsString parseFromString serverName := by
  refine ⟨hsound, ?_, ?_, ?_, hclients, hconnections⟩
  · apply h.names.congr hkeeps.mqName hkeeps.clientNames hkeeps.serverNames hkeeps.created
      hkeeps.serverMQ hkeeps.requests hkeeps.ends
    rw [made, hkeeps.acceptLoop]
    rfl
  · apply h.loop.mono hkeeps.acceptLoop
    rw [hkeeps.created]
    exact fun _ _ hget => hget
  · rw [hkeeps.created, hkeeps.put, hkeeps.ends, hkeeps.clientNames, hkeeps.serverNames]
    exact h.untold

theorem Keeps.client (hkeeps : Keeps s s') {c : IpcClient}
    (hok : s.ClientOk serializeAsString parseFromString c)
    (hnamed : c.position.Owns → s'.queues.named c.mqName = s.queues.named c.mqName) :
    s'.ClientOk serializeAsString parseFromString c := by
  apply hok.frame
  refine ⟨?_, hkeeps.serverMQ, ?_, hnamed, ?_, ?_, ?_, ?_, ?_, ?_⟩
  · rw [hkeeps.clientNames]
    exact fun _ hmem => hmem
  · rw [hkeeps.created]
    exact fun _ hmem => hmem
  · rw [hkeeps.requests]
    exact fun _ hmem => hmem
  · rw [hkeeps.requests]
    exact fun _ hmem => hmem
  · rw [hkeeps.taken]
    exact fun _ _ _ => rfl
  · rw [hkeeps.put]
    exact fun _ _ _ => rfl
  · rw [hkeeps.ends]
    exact fun _ hmem => hmem
  · rw [hkeeps.ends]
    exact fun _ hmem _ => .inl hmem

theorem Keeps.connection (hkeeps : Keeps s s') {c : IpcAccepted}
    (hok : s.AcceptedOk serializeAsString parseFromString c) :
    s'.AcceptedOk serializeAsString parseFromString c := by
  refine hok.frame ?_ (by rw [hkeeps.put]) (by rw [hkeeps.taken])
  rw [hkeeps.created]
  exact fun _ _ hget => hget

theorem remove_named {t : Queues Bytes Bytes} {name other : Bytes} (hne : other ≠ name) :
    (t.remove name).named other = t.named other :=
  Function.update_of_ne hne _ _

theorem Names.drawn_ne_nil (h : s.Names serverName) {name : Bytes}
    (hname : name ∈ s.clientNames ++ s.serverNames) : name ≠ [] := by
  intro hnil
  have hlength := h.letters name hname
  rw [hnil] at hlength
  cases hlength

end IpcSystem
end MatrixServer
