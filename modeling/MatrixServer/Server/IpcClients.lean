import MatrixServer.Server.IpcInvariant

/-!
The steps of the IPC clients, and of the connections the server has with them.
-/

namespace MatrixServer
open TransitionRuns NamedQueues

namespace IpcSystem
open Ipc

variable {serverName : Bytes} {serializeAsString : MatrixServerMessage → Bytes}
  {parseFromString : Bytes → Option MatrixServerMessage} {s s' : IpcSystem}

/-- What a client says goes into the queue of its connection. -/
theorem Inv.clientSend (h : s.Inv serializeAsString parseFromString serverName) {client : Nat}
    {message : MatrixServerMessage}
    (hparse : parseFromString (serializeAsString message) = some message)
    (hsend : s.clientSend serializeAsString client message = some s') :
    s'.Inv serializeAsString parseFromString serverName := by
  obtain ⟨queue, hqueue, hdone⟩ := Option.bind_eq_some_iff.mp hsend
  obtain ⟨⟨queues, told⟩, hmessage, rfl⟩ := Option.map_eq_some_iff.mp hdone
  obtain ⟨e, hposition, rfl, hname, hnamed, hattached⟩ := h.attached hqueue
  have he := hattached.1
  obtain ⟨rfl, rfl⟩ | ⟨hqueues, rfl⟩ := sendMessage_cases hmessage
  · have hsame := setClient_self s client
    exact hsame.symm ▸ h
  · have hparties := SameParties.setClient
      (c := { s.clients client with told := (s.clients client).told ++ [message] }) rfl
    obtain ⟨huses, htaken, hput⟩ := hparties.send hqueues
    apply huses.inv h he (.inr rfl) (h.sound.send (h.end_ok he).2 hqueues)
    · apply forall_setClient
      · refine .of_attached (e := e) hposition hname ((h.clients client).drawn hname) ?_ ?_ ?_
        · exact (congrFun huses.named _).trans hnamed
        · intro told hmem
          cases List.mem_append.mp hmem with
          | inl hold => exact (h.clients client).parses told hold
          | inr hnew =>
              cases List.mem_singleton.mp hnew
              exact hparse
        · obtain ⟨-, hclient, hreceive, hsend, hheard, htold⟩ := hattached
          refine ⟨he, hclient, hreceive, hsend, ?_, ?_⟩
          · exact htaken.symm ▸ hheard
          · simp only [setQueues, hput, htold, List.map_append, List.map_singleton]
      · intro i hi
        apply huses.client h he (.inr rfl) (h.clients i) fun _ _ _ => congrFun htaken _
        intro e' he' hclient
        apply huses.put
        apply h.receiveMQ_ne he' he
        intro heq
        subst heq
        exact hi (h.attached_unique hattached.2.1.symm hclient.symm hname).symm
    · intro c hc
      refine (h.connections c hc).frame ?_ ?_ (congrFun htaken _)
      · exact fun _ _ hget => huses.created.symm ▸ hget
      · exact huses.put _ (h.sendMQ_ne_receiveMQ (List.mem_map_of_mem hc) he)

/-- A client hears what is in its own queue. -/
theorem Inv.clientRead (h : s.Inv serializeAsString parseFromString serverName) {client : Nat}
    (hread : s.clientRead parseFromString client = some s') :
    s'.Inv serializeAsString parseFromString serverName := by
  simp only [IpcSystem.clientRead] at hread
  split at hread
  · rename_i hsome
    obtain ⟨queue, hqueue⟩ := Option.isSome_iff_exists.mp hsome
    obtain ⟨e, hposition, rfl, hname, hnamed, hattached⟩ := h.attached hqueue
    obtain ⟨he, hclient, hreceive, hsend, ⟨packets, htakes, hheard⟩, htold⟩ := hattached
    obtain ⟨queue, hsame, hdone⟩ := Option.bind_eq_some_iff.mp hread
    cases hreceive.symm.trans hsame
    obtain ⟨⟨queues, heard⟩, hmessage, rfl⟩ := Option.map_eq_some_iff.mp hdone
    obtain ⟨packet, hqueues, rfl⟩ := readMessage_cases hmessage
    have hparties := SameParties.setClient
      (c := { s.clients client with
        heard := (s.clients client).heard ++ [packet].filterMap parseFromString }) rfl
    obtain ⟨huses, hput, htaken⟩ := hparties.receive hqueues
    apply huses.inv h he (.inl rfl) (h.sound.receive hqueues)
    · apply forall_setClient
      · refine .of_attached (e := e) hposition hname ((h.clients client).drawn hname) ?_
          (h.clients client).parses ?_
        · exact (congrFun huses.named _).trans hnamed
        · refine ⟨he, hclient, hreceive, hsend, ⟨packets ++ [packet], ?_, ?_⟩, ?_⟩
          · exact htaken.trans (by rw [htakes, List.cons_append])
          · rw [List.filterMap_append, hheard]
          · exact hput.symm ▸ htold
      · intro i hi
        apply huses.client h he (.inl rfl) (h.clients i) _ fun _ _ _ => congrFun hput _
        intro _ other hother
        apply huses.taken
        apply queue_ne (h.sound.named _ _ hother) (h.end_ok he).1
        intro heq
        exact hi (h.attached_unique hclient.symm heq hname).symm
    · intro c hc
      refine (h.connections c hc).frame ?_ (congrFun hput _) ?_
      · exact fun _ _ hget => huses.created.symm ▸ hget
      · exact huses.taken _ (h.sendMQ_ne_receiveMQ he (List.mem_map_of_mem hc)).symm
  · cases hread

theorem setConnection_self {index : Nat} {c : IpcAccepted}
    (hget : s.connections[index]? = some c) : s.setConnection index c = s := by
  obtain ⟨hlt, rfl⟩ := List.getElem?_eq_some_iff.mp hget
  simp [setConnection]

/-- Two entries of the list of connections have different ends. -/
theorem Inv.ends_ne (h : s.Inv serializeAsString parseFromString serverName) {index i : Nat}
    {c c' : IpcAccepted} (hget : s.connections[index]? = some c)
    (hget' : s.connections[i]? = some c') (hne : i ≠ index) : c'.toIpcEnds ≠ c.toIpcEnds := by
  intro heq
  have hnodup : (s.ends.map IpcEnds.mqName).Nodup := List.Nodup.of_append_left h.names.distinct
  obtain ⟨hlt, rfl⟩ := List.getElem?_eq_some_iff.mp hget
  obtain ⟨hlt', rfl⟩ := List.getElem?_eq_some_iff.mp hget'
  have hi : i < (s.ends.map IpcEnds.mqName).length := by simpa [ends] using hlt'
  have hindex : index < (s.ends.map IpcEnds.mqName).length := by simpa [ends] using hlt
  have hsame : (s.ends.map IpcEnds.mqName)[i] = (s.ends.map IpcEnds.mqName)[index] := by
    simp [ends, heq]
  exact hne (hnodup.getElem_inj_iff.mp hsame)

/-- What a connection says goes into its client's queue. -/
theorem Inv.serverSend (h : s.Inv serializeAsString parseFromString serverName) {index : Nat}
    {message : MatrixServerMessage}
    (hparse : parseFromString (serializeAsString message) = some message)
    (hsend : s.serverSend serializeAsString index message = some s') :
    s'.Inv serializeAsString parseFromString serverName := by
  obtain ⟨c, hget, hdone⟩ := Option.bind_eq_some_iff.mp hsend
  split at hdone
  · cases hdone
  · obtain ⟨⟨queues, told⟩, hmessage, rfl⟩ := Option.map_eq_some_iff.mp hdone
    have hmem := List.mem_of_getElem? hget
    have hok := h.connections c hmem
    have he : c.toIpcEnds ∈ s.ends := List.mem_map_of_mem hmem
    obtain ⟨rfl, rfl⟩ | ⟨hqueues, rfl⟩ := sendMessage_cases hmessage
    · have hsame := setConnection_self hget
      exact hsame.symm ▸ h
    · have hparties : SameParties s
          (s.setConnection index { c with told := c.told ++ [message] }) :=
        SameParties.setConnection hget rfl
      obtain ⟨huses, htaken, hput⟩ := hparties.send hqueues
      apply huses.inv h he (.inl rfl) (h.sound.send hok.sendMQ hqueues)
      · intro i
        apply huses.client h he (.inl rfl) (h.clients i) fun _ _ _ => congrFun htaken _
        intro e' he' _
        exact huses.put _ (h.sendMQ_ne_receiveMQ he he').symm
      · apply forall_setConnection
        · refine ⟨?_, ?_, ?_, ?_, ?_⟩
          · exact huses.created.symm ▸ hok.sendMQ
          · exact huses.created.symm ▸ hok.receiveMQ
          · exact hput.trans (by simp [hok.put])
          · exact htaken.symm ▸ hok.heard
          · intro told hmem
            cases List.mem_append.mp hmem with
            | inl hold => exact hok.parses told hold
            | inr hnew =>
                cases List.mem_singleton.mp hnew
                exact hparse
        · intro i c' hne hget'
          have hmem' := List.mem_of_getElem? hget'
          refine (h.connections c' hmem').frame ?_ ?_ (congrFun htaken _)
          · exact fun _ _ hget => huses.created.symm ▸ hget
          · exact huses.put _ (h.sendMQ_ne (List.mem_map_of_mem hmem') he
              (h.ends_ne hget hget' hne))

/-- A connection hears what is in its own queue. -/
theorem Inv.serverRead (h : s.Inv serializeAsString parseFromString serverName) {index : Nat}
    (hread : s.serverRead parseFromString index = some s') :
    s'.Inv serializeAsString parseFromString serverName := by
  obtain ⟨c, hget, hdone⟩ := Option.bind_eq_some_iff.mp hread
  split at hdone
  · cases hdone
  · obtain ⟨⟨queues, heard⟩, hmessage, rfl⟩ := Option.map_eq_some_iff.mp hdone
    have hmem := List.mem_of_getElem? hget
    have hok := h.connections c hmem
    have he : c.toIpcEnds ∈ s.ends := List.mem_map_of_mem hmem
    obtain ⟨packet, hqueues, rfl⟩ := readMessage_cases hmessage
    have hparties : SameParties s (s.setConnection index
        { c with heard := c.heard ++ [packet].filterMap parseFromString }) :=
      SameParties.setConnection hget rfl
    obtain ⟨huses, hput, htaken⟩ := hparties.receive hqueues
    apply huses.inv h he (.inr rfl) (h.sound.receive hqueues)
    · intro i
      apply huses.client h he (.inr rfl) (h.clients i) _ fun _ _ _ => congrFun hput _
      intro hname other hother
      apply huses.taken
      exact queue_ne (h.sound.named _ _ hother) hok.receiveMQ
        (h.names.client_ne_server ((h.clients i).drawn hname) (h.names.end_drawn he).2)
    · apply forall_setConnection
      · refine ⟨?_, ?_, ?_, ?_, hok.parses⟩
        · exact huses.created.symm ▸ hok.sendMQ
        · exact huses.created.symm ▸ hok.receiveMQ
        · exact hput.symm ▸ hok.put
        · exact Eq.trans (by simp [hok.heard]) (congrArg _ htaken.symm)
      · intro i c' hne hget'
        have hmem' := List.mem_of_getElem? hget'
        refine (h.connections c' hmem').frame ?_ (congrFun hput _) ?_
        · exact fun _ _ hget => huses.created.symm ▸ hget
        · exact huses.taken _ (h.receiveMQ_ne (List.mem_map_of_mem hmem') he
            (h.ends_ne hget hget' hne))

/-- A connection that goes takes the name of its own queue away. -/
theorem Inv.destroyConnection (h : s.Inv serializeAsString parseFromString serverName)
    {index : Nat} (hstep : s.destroyConnection index = some s') :
    s'.Inv serializeAsString parseFromString serverName := by
  obtain ⟨c, hget, hdone⟩ := Option.bind_eq_some_iff.mp hstep
  split at hdone
  · cases hdone
  · cases hdone
    have hmem := List.mem_of_getElem? hget
    have he : c.toIpcEnds ∈ s.ends := List.mem_map_of_mem hmem
    have hparties : SameParties s (s.setConnection index { c with destroyed := true }) :=
      SameParties.setConnection hget rfl
    have hkeeps := hparties.keeps_remove c.mqName
    apply hkeeps.inv h (h.sound.remove _)
    · intro i
      apply hkeeps.client (h.clients i)
      intro _
      apply remove_named
      have hserver := (h.names.end_drawn he).2
      by_cases hname : (s.clients i).mqName = []
      · rw [hname]
        exact (h.names.drawn_ne_nil (List.mem_append_right _ hserver)).symm
      · exact h.names.client_ne_server ((h.clients i).drawn hname) hserver
    · apply forall_setConnection
      · exact hkeeps.connection (c := { c with destroyed := true })
          ⟨(h.connections c hmem).sendMQ, (h.connections c hmem).receiveMQ,
            (h.connections c hmem).put, (h.connections c hmem).heard,
            (h.connections c hmem).parses⟩
      · intro i c' _ hget'
        exact hkeeps.connection (h.connections c' (List.mem_of_getElem? hget'))

/-- A client without a connection that does nothing. -/
theorem ClientOk.of_rest {c : IpcClient}
    (hposition : c.position = .destroyed ∨ c.position = .returned false)
    (hdrawn : c.mqName ≠ [] → c.mqName ∈ s.clientNames) (hsend : c.sendMQ = none)
    (hsilent : c.position ≠ .destroyed → c.told = [] ∧ c.heard = [])
    (hparses : ∀ message ∈ c.told, parseFromString (serializeAsString message) = some message) :
    s.ClientOk serializeAsString parseFromString c where
  drawn := hdrawn
  begun := by cases hposition <;> simp [*, ConnectPosition.Asks, ConnectPosition.Owns]
  unnamed := by cases hposition <;> simp [*]
  uncreated := by cases hposition <;> simp [*, ConnectPosition.Names]
  owns := by cases hposition <;> simp [*, ConnectPosition.Owns]
  server := by cases hposition <;> simp [*]
  unasked := by cases hposition <;> simp [*, ConnectPosition.Asks]
  quiet := fun _ => hsend
  silent := fun _ => hsilent
  waiting := by cases hposition <;> simp [*]
  attaching := by cases hposition <;> simp [*]
  unheard := by cases hposition <;> simp [*]
  parses := hparses
  attached := by cases hposition <;> simp [*]

/-- A client that goes takes the name of its own queue away. -/
theorem Inv.destroyClient (h : s.Inv serializeAsString parseFromString serverName) {client : Nat}
    (hstep : s.destroyClient client = some s') :
    s'.Inv serializeAsString parseFromString serverName := by
  simp only [IpcSystem.destroyClient] at hstep
  split at hstep
  · cases hstep
    have hparties := SameParties.setClient
      (c := { s.clients client with dead := true, sendMQ := none, position := .destroyed }) rfl
    have hself : s.ClientOk serializeAsString parseFromString
        { s.clients client with dead := true, sendMQ := none, position := .destroyed } :=
      .of_rest (.inl rfl) (h.clients client).drawn rfl (absurd rfl) (h.clients client).parses
    split
    · have hkeeps := hparties.keeps rfl
      apply hkeeps.inv h h.sound
      · exact forall_setClient (hkeeps.client hself fun _ => rfl) fun i _ =>
          hkeeps.client (h.clients i) fun _ => rfl
      · exact fun c hc => hkeeps.connection (h.connections c hc)
    · rename_i hname
      have hkeeps := hparties.keeps_remove (s.clients client).mqName
      apply hkeeps.inv h (h.sound.remove _)
      · apply forall_setClient
        · exact .of_rest (.inl rfl) (h.clients client).drawn rfl (absurd rfl)
            (h.clients client).parses
        · intro i hi
          apply hkeeps.client (h.clients i)
          intro _
          apply remove_named
          exact fun heq => hi (h.names.own client i heq.symm hname).symm
      · exact fun c hc => hkeeps.connection (h.connections c hc)
  · cases hstep

theorem Inv.fail (h : s.Inv serializeAsString parseFromString serverName) {client : Nat}
    (hposition : (s.clients client).position ≠ .returned true)
    (hlive : (s.clients client).position ≠ .destroyed) :
    (s.fail client).Inv serializeAsString parseFromString serverName := by
  have hclient := h.clients client
  have hparties := SameParties.setClient
    (c := { s.clients client with dead := true, position := .returned false }) rfl
  have hkeeps := hparties.keeps rfl
  apply hkeeps.inv h h.sound
  · apply forall_setClient
    · exact .of_rest (.inr rfl) hclient.drawn (hclient.quiet hposition)
        (fun _ => hclient.silent hposition hlive) hclient.parses
    · exact fun i _ => hkeeps.client (h.clients i) fun _ => rfl
  · exact fun c hc => hkeeps.connection (h.connections c hc)

theorem randomName_length (rand : Nat → Nat) : (randomName rand).length = 20 := by
  simp [randomName]

/-- The name of an attempt that failed goes. -/
theorem Inv.forget (h : s.Inv serializeAsString parseFromString serverName) {client : Nat}
    (hname : (s.clients client).mqName ≠ []) (howns : ¬(s.clients client).position.Owns) :
    (s.setQueues (s.queues.remove (s.clients client).mqName)).Inv serializeAsString parseFromString
      serverName := by
  have hparties : SameParties s s := ⟨rfl, rfl, rfl, rfl, rfl, fun _ => rfl⟩
  have hkeeps := hparties.keeps_remove (s.clients client).mqName
  apply hkeeps.inv h (h.sound.remove _)
  · intro i
    by_cases hi : i = client
    · subst hi
      exact hkeeps.client (h.clients i) fun hnot => absurd hnot howns
    · apply hkeeps.client (h.clients i)
      intro _
      apply remove_named
      exact fun heq => hi (h.names.own client i heq.symm hname).symm
  · exact fun c hc => hkeeps.connection (h.connections c hc)

/-- A client draws a name that nobody has drawn. -/
theorem Inv.draw (h : s.Inv serializeAsString parseFromString serverName) {client : Nat}
    {name : Bytes} (hfresh : name ∉ s.drawn serverName) (hlength : name.length = 20)
    (hsend : (s.clients client).sendMQ = none)
    (hsilent : (s.clients client).told = [] ∧ (s.clients client).heard = []) :
    (IpcSystem.setClient { s with clientNames := s.clientNames ++ [name] } client
      { s.clients client with mqName := name, position := .opening }).Inv serializeAsString
      parseFromString serverName := by
  have hnil : name ≠ [] := by
    intro hnil
    rw [hnil] at hlength
    cases hlength
  have hnone : name ∉ s.queues.created := fun hmem => hfresh (h.names.created name hmem)
  have hmore : ∀ other ∈ s.clientNames, other ∈ s.clientNames ++ [name] :=
    fun other hmem => List.mem_append_left _ hmem
  have hunasked : name ∉ s.requests := by
    intro hmem
    apply hfresh
    exact List.mem_cons_of_mem _ (List.mem_append_left _ (h.names.requested name hmem))
  have hother : ∀ i, (s.clients i).mqName ≠ name := by
    intro i heq
    apply hfresh
    rw [← heq]
    refine List.mem_cons_of_mem _ (List.mem_append_left _ ((h.clients i).drawn ?_))
    rwa [heq]
  refine ⟨h.sound, ?_, h.loop, ?_, ?_, ?_⟩
  · have hsplit : List.Perm (serverName :: (s.clientNames ++ [name] ++ s.serverNames))
        (name :: s.drawn serverName) := by
      have hmiddle : List.Perm (s.clientNames ++ [name] ++ s.serverNames)
          (name :: (s.clientNames ++ s.serverNames)) := by
        simp [List.perm_middle]
      exact (hmiddle.cons serverName).trans (List.Perm.swap ..)
    refine ⟨hsplit.nodup_iff.mpr (List.nodup_cons.mpr ⟨hfresh, h.names.nodup⟩), ?_, ?_,
      h.names.serverMQ, ?_, h.names.once, ?_, h.names.distinct, h.names.answered⟩
    · intro other hmem
      simp only [setClient, List.append_assoc, List.mem_append, List.mem_singleton] at hmem
      obtain hmem | rfl | hmem := hmem
      · exact h.names.letters other (List.mem_append_left _ hmem)
      · exact hlength
      · exact h.names.letters other (List.mem_append_right _ hmem)
    · intro other hmem
      exact hsplit.mem_iff.mpr (List.mem_cons_of_mem _ (h.names.created other hmem))
    · intro i j heq hne
      simp only [setClient, Function.update_apply] at heq hne
      split at heq <;> split at heq
      · rename_i hi hj
        exact hi.trans hj.symm
      · exact absurd heq.symm (hother j)
      · exact absurd heq (hother i)
      · rename_i hi hj
        rw [if_neg hi] at hne
        exact h.names.own i j heq hne
    · exact fun other hmem => hmore other (h.names.requested other hmem)
  · intro queue other hqueue hnot
    apply h.untold queue other hqueue
    cases hnot with
    | inl hclient =>
        cases List.mem_append.mp hclient.1 with
        | inl hold => exact .inl ⟨hold, hclient.2⟩
        | inr hnew =>
            cases List.mem_singleton.mp hnew
            exact absurd (List.mem_of_getElem? hqueue) hnone
    | inr hserver => exact .inr hserver
  · apply forall_setClient
    · exact {
        drawn := fun _ => List.mem_append_right _ (List.mem_singleton_self _)
        begun := fun _ => hnil
        unnamed := by simp
        uncreated := fun _ => hnone
        owns := by simp [ConnectPosition.Owns]
        server := by simp
        unasked := fun _ => hunasked
        quiet := fun _ => hsend
        silent := fun _ _ => hsilent
        waiting := by simp
        attaching := by simp
        unheard := by simp
        parses := by simp [hsilent.1]
        attached := by simp }
    · intro i _
      exact (h.clients i).frame ⟨hmore, rfl, fun _ hmem => hmem, fun _ => rfl, fun _ hmem => hmem,
        fun _ hmem => hmem, fun _ _ _ => rfl, fun _ _ _ => rfl, fun _ hmem => hmem,
        fun _ hmem _ => .inl hmem⟩
  · exact fun c hc => (h.connections c hc).frame (fun _ _ hget => hget) rfl rfl

theorem Inv.connect (h : s.Inv serializeAsString parseFromString serverName) {client : Nat}
    {rand : Nat → Nat} (hfresh : randomName rand ∉ s.drawn serverName)
    (hstep : s.connect client rand = some s') :
    s'.Inv serializeAsString parseFromString serverName := by
  simp only [IpcSystem.connect] at hstep
  split at hstep
  · rename_i hready
    cases hstep
    have hclient := h.clients client
    have hposition : (s.clients client).position ≠ .returned true := by
      intro hposition
      obtain ⟨e, hattached⟩ := hclient.attached hposition
      cases hready.2.symm.trans hattached.2.2.2.1
    have hrest : ¬(s.clients client).position.Owns ∧
        (s.clients client).position ≠ .destroyed := by
      obtain ⟨hidle | ⟨ok, hreturned⟩, -⟩ := hready
      · simp [hidle, ConnectPosition.Owns]
      · cases ok with
        | true => exact absurd hreturned hposition
        | false => simp [hreturned, ConnectPosition.Owns]
    have hsilent := hclient.silent hposition hrest.2
    have hlength := randomName_length rand
    split
    · exact h.draw hfresh hlength hready.2 hsilent
    · rename_i hname
      exact (h.forget hname hrest.1).draw hfresh hlength hready.2 hsilent
  · cases hstep

/-- What is in a client's queue begins with the name its connection was given. -/
theorem Inv.answer (h : s.Inv serializeAsString parseFromString serverName) {client queue : Nat}
    (howns : (s.clients client).position.Owns)
    (hnamed : s.queues.named (s.clients client).mqName = some queue)
    (hput : s.queues.put queue ≠ []) :
    ∃ e ∈ s.ends, e.clientMQName = (s.clients client).mqName ∧ e.sendMQ = queue ∧
      ∃ packets, s.queues.put queue = e.mqName :: packets := by
  have hclient := h.clients client
  have hname := hclient.begun (.inr howns)
  have hcreated := h.sound.named _ _ hnamed
  have hanswered : (s.clients client).mqName ∈ s.ends.map IpcEnds.clientMQName := by
    by_contra hnot
    exact hput (h.untold queue _ hcreated (.inl ⟨hclient.drawn hname, hnot⟩))
  obtain ⟨e, he, heq⟩ := List.mem_map.mp hanswered
  have hqueue : e.sendMQ = queue := h.sound.queue_eq (h.end_ok he).1 (heq.symm ▸ hcreated)
  obtain ⟨c, hc, rfl⟩ := List.mem_map.mp he
  exact ⟨_, he, heq, hqueue, _, hqueue ▸ (h.connections c hc).put⟩

/-- A client opens the server's queue. -/
theorem Inv.openServer (h : s.Inv serializeAsString parseFromString serverName) {client : Nat}
    {tempServer : Nat} (hposition : (s.clients client).position = .opening)
    (hnamed : s.queues.named serverName = some tempServer) :
    (s.setClient client { s.clients client with position := .creating tempServer }).Inv
      serializeAsString parseFromString serverName := by
  have hclient := h.clients client
  have hasks : (s.clients client).position.Asks := by
    rw [hposition]
    trivial
  have hserver := h.sound.queue_eq (h.sound.named _ _ hnamed) h.names.serverMQ
  have hparties := SameParties.setClient
    (c := { s.clients client with position := .creating tempServer }) rfl
  have hkeeps := hparties.keeps rfl
  apply hkeeps.inv h h.sound
  · apply forall_setClient
    · exact {
        drawn := hclient.drawn
        begun := fun _ => hclient.begun (.inl hasks)
        unnamed := by simp
        uncreated := fun _ => hclient.uncreated (by rw [hposition]; trivial)
        owns := by simp [ConnectPosition.Owns]
        server := by
          intro other hother
          simp only [ConnectPosition.creating.injEq, reduceCtorEq, or_false] at hother
          exact hother ▸ hserver
        unasked := fun _ => hclient.unasked hasks
        quiet := fun _ => hclient.quiet (by simp [hposition])
        silent := fun _ _ => hclient.silent (by simp [hposition]) (by simp [hposition])
        waiting := by simp
        attaching := by simp
        unheard := by simp
        parses := hclient.parses
        attached := by simp }
    · exact fun i _ => hkeeps.client (h.clients i) fun _ => rfl
  · exact fun c hc => hkeeps.connection (h.connections c hc)

theorem getElem?_append_singleton {names : List Bytes} {name other : Bytes} {queue : Nat}
    (h : (names ++ [name])[queue]? = some other) :
    names[queue]? = some other ∨ queue = names.length ∧ other = name := by
  rw [List.getElem?_append] at h
  split at h
  · exact .inl h
  · obtain ⟨hlt, heq⟩ := List.getElem?_eq_some_iff.mp h
    rw [List.length_singleton] at hlt
    exact .inr ⟨by omega, by simpa using heq.symm⟩

/-- A client creates its own queue. -/
theorem Inv.createQueue (h : s.Inv serializeAsString parseFromString serverName) {client : Nat}
    {tempServer : Nat} (hposition : (s.clients client).position = .creating tempServer) :
    ((s.setClient client { s.clients client with
        receiveMQ := some (s.queues.openOrCreate (s.clients client).mqName).2
        position := .requesting tempServer }).setQueues
      (s.queues.openOrCreate (s.clients client).mqName).1).Inv serializeAsString parseFromString
        serverName := by
  have hclient := h.clients client
  have hasks : (s.clients client).position.Asks := by
    rw [hposition]
    trivial
  have hnone := hclient.uncreated (by rw [hposition]; trivial)
  have hname := hclient.begun (.inl hasks)
  have hsound := h.sound.openOrCreate hnone
  rw [h.sound.openOrCreate_fresh hnone] at hsound ⊢
  have hother : ∀ i, i ≠ client → (s.clients i).mqName ≠ (s.clients client).mqName :=
    fun i hi heq => hi (h.names.own client i heq.symm hname).symm
  refine ⟨hsound, ?_, ?_, ?_, ?_, ?_⟩
  · refine ⟨h.names.nodup, h.names.letters, ?_, Queues.created_append _ h.names.serverMQ, ?_,
      h.names.once, h.names.requested, h.names.distinct, h.names.answered⟩
    · intro name hmem
      cases List.mem_append.mp hmem with
      | inl hold => exact h.names.created name hold
      | inr hnew =>
          cases List.mem_singleton.mp hnew
          exact List.mem_cons_of_mem _ (List.mem_append_left _ (hclient.drawn hname))
    · have hsame := SameParties.setClient (c := { s.clients client with
        receiveMQ := some s.queues.created.length, position := .requesting tempServer }) rfl
      intro i j heq hne
      have hi := hsame.mqName i
      have hj := hsame.mqName j
      exact h.names.own i j (hi.symm.trans (heq.trans hj)) (hi ▸ hne)
  · exact h.loop.mono rfl fun _ _ hget => Queues.created_append _ hget
  · intro queue name hget hnot
    cases getElem?_append_singleton hget with
    | inl hold => exact h.untold queue name hold hnot
    | inr hnew =>
        rw [hnew.1]
        exact h.sound.blank _ (Nat.le_refl _)
  · apply forall_setClient
    · exact {
        drawn := hclient.drawn
        begun := fun _ => hname
        unnamed := by simp
        uncreated := by simp [ConnectPosition.Names]
        owns := fun _ => ⟨_, rfl, Function.update_self ..⟩
        server := by
          intro other hother
          simp only [ConnectPosition.requesting.injEq, reduceCtorEq, false_or] at hother
          exact hother ▸ hclient.server tempServer (.inl hposition)
        unasked := fun _ => hclient.unasked hasks
        quiet := fun _ => hclient.quiet (by simp [hposition])
        silent := fun _ _ => hclient.silent (by simp [hposition]) (by simp [hposition])
        waiting := by simp
        attaching := by simp
        unheard := by simp
        parses := hclient.parses
        attached := by simp }
    · intro i hi
      refine (h.clients i).frame ⟨fun _ hmem => hmem, rfl, ?_, ?_, fun _ hmem => hmem,
        fun _ hmem => hmem, fun _ _ _ => rfl, fun _ _ _ => rfl, fun _ hmem => hmem,
        fun _ hmem _ => .inl hmem⟩
      · intro _ hmem
        cases List.mem_append.mp hmem with
        | inl hold => exact hold
        | inr hnew => exact absurd (List.mem_singleton.mp hnew) (hother i hi)
      · exact fun _ => Function.update_of_ne (hother i hi) _ _
  · intro c hc
    exact (h.connections c hc).frame (fun _ _ hget => Queues.created_append _ hget) rfl rfl

/-- A client puts its request behind the others. -/
theorem Inv.sendRequest (h : s.Inv serializeAsString parseFromString serverName) {client : Nat}
    {tempServer : Nat} {queues : Queues Bytes Bytes}
    (hposition : (s.clients client).position = .requesting tempServer)
    (hsend : s.queues.send maxNumMsg tempServer (s.clients client).mqName = some queues) :
    ((s.setClient client { s.clients client with position := .waiting }).setQueues queues).Inv
      serializeAsString parseFromString serverName := by
  have hclient := h.clients client
  have hasks : (s.clients client).position.Asks := by
    rw [hposition]
    trivial
  have howns : (s.clients client).position.Owns := by
    rw [hposition]
    trivial
  have hname := hclient.begun (.inl hasks)
  have hunasked := hclient.unasked hasks
  obtain rfl := hclient.server tempServer (.inr hposition)
  have hsound := h.sound.send h.names.serverMQ hsend
  obtain ⟨-, rfl⟩ := Queues.send_cases hsend
  have hrequests : IpcSystem.requests ((s.setClient client
      { s.clients client with position := .waiting }).setQueues { s.queues with
        waiting := Function.update s.queues.waiting s.serverMQ
          (s.queues.waiting s.serverMQ ++ [(s.clients client).mqName])
        put := Function.update s.queues.put s.serverMQ
          (s.queues.put s.serverMQ ++ [(s.clients client).mqName]) }) =
      s.requests ++ [(s.clients client).mqName] := by
    simp only [requests, setQueues, setClient, Function.update_self, ← List.append_assoc]
    rfl
  have hput : ∀ e ∈ s.ends, e.receiveMQ ≠ s.serverMQ := fun e he => (h.serverMQ_ne he).2.symm
  refine ⟨hsound, ?_, h.loop, ?_, ?_, ?_⟩
  · have hsame := SameParties.setClient
      (c := { s.clients client with position := .waiting }) rfl
    refine ⟨h.names.nodup, h.names.letters, h.names.created, h.names.serverMQ, ?_, ?_, ?_,
      h.names.distinct, h.names.answered⟩
    · intro i j heq hne
      have hi := hsame.mqName i
      have hj := hsame.mqName j
      exact h.names.own i j (hi.symm.trans (heq.trans hj)) (hi ▸ hne)
    · rw [hrequests]
      exact h.names.once.append (List.nodup_singleton _) (by simpa using hunasked)
    · rw [hrequests]
      intro name hmem
      cases List.mem_append.mp hmem with
      | inl hold => exact h.names.requested name hold
      | inr hnew =>
          cases List.mem_singleton.mp hnew
          exact hclient.drawn hname
  · intro queue name hget hnot
    have hne : queue ≠ s.serverMQ := by
      apply queue_ne hget h.names.serverMQ
      cases hnot with
      | inl hnot => exact h.names.client_ne hnot.1
      | inr hnot => exact h.names.server_ne hnot.1
    simp only [setQueues, Function.update_of_ne hne]
    exact h.untold queue name hget hnot
  · apply forall_setClient
    · exact {
        drawn := hclient.drawn
        begun := fun _ => hname
        unnamed := by simp
        uncreated := by simp [ConnectPosition.Names]
        owns := fun _ => hclient.owns howns
        server := by simp
        unasked := by simp [ConnectPosition.Asks]
        quiet := fun _ => hclient.quiet (by simp [hposition])
        silent := fun _ _ => hclient.silent (by simp [hposition]) (by simp [hposition])
        waiting := by
          intro _
          refine ⟨hrequests ▸ List.mem_append_right _ (List.mem_singleton_self _), ?_⟩
          intro queue hnamed
          have hput := h.untold queue _ (h.sound.named _ _ hnamed) (.inl ⟨hclient.drawn hname,
            fun hmem => hunasked (List.mem_append_left _ (List.mem_append_left _ hmem))⟩)
          rw [h.sound.history queue, List.append_eq_nil_iff] at hput
          exact hput.1
        attaching := by simp
        unheard := by
          intro _ e he heq
          apply absurd _ hunasked
          rw [← heq]
          exact List.mem_append_left _ (List.mem_append_left _ (List.mem_map_of_mem he))
        parses := hclient.parses
        attached := by simp }
    · intro i hi
      refine (h.clients i).frame ⟨fun _ hmem => hmem, rfl, fun _ hmem => hmem, fun _ => rfl, ?_, ?_,
        fun _ _ _ => rfl, ?_, fun _ hmem => hmem, fun _ hmem _ => .inl hmem⟩
      · intro _ hmem
        rw [hrequests] at hmem
        cases List.mem_append.mp hmem with
        | inl hold => exact hold
        | inr hnew =>
            exact absurd (h.names.own client i (List.mem_singleton.mp hnew).symm hname) (Ne.symm hi)
      · intro _ hmem
        rw [hrequests]
        exact List.mem_append_left _ hmem
      · exact fun e he _ => Function.update_of_ne (hput e he) _ _
  · intro c hc
    refine (h.connections c hc).frame (fun _ _ hget => hget) ?_ rfl
    exact Function.update_of_ne (h.serverMQ_ne (List.mem_map_of_mem hc)).1.symm _ _

/-- The first thing in a client's queue is the name of the connection's queue. -/
theorem Inv.receiveReply (h : s.Inv serializeAsString parseFromString serverName) {client : Nat}
    {queue : Nat} {reply : Bytes} {queues : Queues Bytes Bytes}
    (hposition : (s.clients client).position = .waiting)
    (hqueue : (s.clients client).receiveMQ = some queue)
    (hreceive : s.queues.receive queue = some (reply, queues)) :
    reply.length = 20 ∧
      ((s.setClient client { s.clients client with position := .attaching reply }).setQueues
        queues).Inv serializeAsString parseFromString serverName := by
  have hclient := h.clients client
  have howns : (s.clients client).position.Owns := by
    rw [hposition]
    trivial
  obtain ⟨own, hown, hnamed⟩ := hclient.owns howns
  cases hqueue.symm.trans hown
  have htaken := (hclient.waiting hposition).2 queue hnamed
  obtain ⟨rest, hwaiting, -⟩ := Queues.receive_cases hreceive
  have hput := h.sound.history queue
  rw [htaken, hwaiting, List.nil_append] at hput
  obtain ⟨e, he, heq, rfl, packets, hpackets⟩ := h.answer howns hnamed (by simp [hput])
  have hreply : reply = e.mqName := (List.cons.inj (hput.symm.trans hpackets)).1
  have hdrawn := h.names.end_drawn he
  refine ⟨hreply ▸ h.names.letters _ (List.mem_append_right _ hdrawn.2), ?_⟩
  have hparties := SameParties.setClient
    (c := { s.clients client with position := .attaching reply }) rfl
  obtain ⟨huses, hputs, htakes⟩ := hparties.receive hreceive
  have hsame := huses.requests h he (.inl rfl)
  apply huses.inv h he (.inl rfl) (h.sound.receive hreceive)
  · apply forall_setClient
    · exact {
        drawn := hclient.drawn
        begun := fun _ => hclient.begun (.inr howns)
        unnamed := by simp
        uncreated := by simp [ConnectPosition.Names]
        owns := fun _ => ⟨_, hown, (congrFun huses.named _).trans hnamed⟩
        server := by simp
        unasked := by simp [ConnectPosition.Asks]
        quiet := fun _ => hclient.quiet (by simp [hposition])
        silent := fun _ _ => hclient.silent (by simp [hposition]) (by simp [hposition])
        waiting := by simp
        attaching := by
          intro other hother other' hother'
          cases hother
          rw [huses.named] at hother'
          cases hnamed.symm.trans hother'
          rw [htaken, List.nil_append] at htakes
          exact htakes
        unheard := by
          intro _ e' he' heq'
          exact (congrFun hputs _).trans (hclient.unheard (.inl hposition) e' he' heq')
        parses := hclient.parses
        attached := by simp }
    · intro i hi
      apply huses.client h he (.inl rfl) (h.clients i) _ fun _ _ _ => congrFun hputs _
      intro hname other hother
      apply huses.taken
      apply queue_ne (h.sound.named _ _ hother) (h.end_ok he).1
      intro hsame
      exact hi (h.names.own i client (hsame.trans heq) hname)
  · intro c hc
    refine (h.connections c hc).frame ?_ (congrFun hputs _) ?_
    · exact fun _ _ hget => huses.created.symm ▸ hget
    · exact huses.taken _ (h.sendMQ_ne_receiveMQ he (List.mem_map_of_mem hc)).symm

/-- The queue a client opens is the one its connection receives from. -/
theorem Inv.attach (h : s.Inv serializeAsString parseFromString serverName) {client : Nat}
    {queue : Nat} {reply : Bytes}
    (hposition : (s.clients client).position = .attaching reply)
    (hopen : s.queues.named reply = some queue) :
    (s.setClient client { s.clients client with
        sendMQ := some queue, dead := false, position := .returned true }).Inv serializeAsString
      parseFromString serverName := by
  have hclient := h.clients client
  have howns : (s.clients client).position.Owns := by
    rw [hposition]
    trivial
  obtain ⟨own, hown, hnamed⟩ := hclient.owns howns
  have htaken := hclient.attaching reply hposition own hnamed
  have hput := h.sound.history own
  rw [htaken, List.singleton_append] at hput
  obtain ⟨e, he, heq, rfl, packets, hpackets⟩ := h.answer howns hnamed (by simp [hput])
  obtain rfl : reply = e.mqName := (List.cons.inj (hput.symm.trans hpackets)).1
  have hqueue : queue = e.receiveMQ :=
    h.sound.queue_eq (h.sound.named _ _ hopen) (h.end_ok he).2
  have hsilent := hclient.silent (by simp [hposition]) (by simp [hposition])
  have hparties := SameParties.setClient (c := { s.clients client with
    sendMQ := some queue, dead := false, position := .returned true }) rfl
  have hkeeps := hparties.keeps rfl
  apply hkeeps.inv h h.sound
  · apply forall_setClient
    · refine .of_attached (e := e) rfl (hclient.begun (.inr howns))
        (hclient.drawn (hclient.begun (.inr howns))) hnamed hclient.parses ?_
      refine ⟨he, heq, hown, congrArg some hqueue, ⟨[], htaken, ?_⟩, ?_⟩
      · simpa using hsilent.2
      · refine (hclient.unheard (.inr ⟨_, hposition⟩) e he heq).trans ?_
        simp [hsilent.1]
    · exact fun i _ => hkeeps.client (h.clients i) fun _ => rfl
  · exact fun c hc => hkeeps.connection (h.connections c hc)

theorem Inv.proceed (h : s.Inv serializeAsString parseFromString serverName) {client : Nat}
    (hstep : s.proceed serverName client = some s') :
    s'.Inv serializeAsString parseFromString serverName := by
  simp only [IpcSystem.proceed] at hstep
  split at hstep
  · rename_i hposition
    split at hstep
    · rename_i tempServer hnamed
      cases hstep
      exact h.openServer hposition hnamed
    · cases hstep
      exact h.fail (by simp [hposition]) (by simp [hposition])
  · rename_i tempServer hposition
    cases hstep
    exact h.createQueue hposition
  · rename_i tempServer hposition
    obtain ⟨queues, hsend, rfl⟩ := Option.map_eq_some_iff.mp hstep
    exact h.sendRequest hposition hsend
  · rename_i hposition
    obtain ⟨⟨reply, queues⟩, hreceive, rfl⟩ := Option.map_eq_some_iff.mp hstep
    obtain ⟨queue, hqueue, hreceive⟩ := Option.bind_eq_some_iff.mp hreceive
    obtain ⟨hlength, hinv⟩ := h.receiveReply hposition hqueue hreceive
    simpa only [if_pos hlength] using hinv
  · rename_i reply hposition
    split at hstep
    · rename_i queue hnamed
      cases hstep
      exact h.attach hposition hnamed
    · cases hstep
      exact h.fail (by simp [hposition]) (by simp [hposition])
  · cases hstep

end IpcSystem
end MatrixServer
