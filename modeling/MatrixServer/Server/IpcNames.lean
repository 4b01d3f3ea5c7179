import MatrixServer.Server.IpcProgress

/-!
Whose queues there are. A queue's name is removed by the party that drew it, when it goes or
asks again; a queue that the accept loop made for a client that was gone would be removed by
nobody, but every client waits until its request is answered.
-/

namespace MatrixServer
open TransitionRuns NamedQueues

namespace IpcSystem
open Ipc

/-- A client that is not gone has created a queue of this name. -/
def ClientOwns (s : IpcSystem) (name : Bytes) : Prop :=
  ∃ i, (s.clients i).mqName = name ∧ name ∈ s.queues.created ∧
    (s.clients i).position ≠ .destroyed

/-- A connection that is not gone receives from the queue of this name. -/
def ConnectionOwns (s : IpcSystem) (name : Bytes) : Prop :=
  ∃ (i : Nat) (c : IpcAccepted), s.connections[i]? = some c ∧ c.mqName = name ∧
    c.destroyed = false

def Owned (serverName : Bytes) (s : IpcSystem) (name : Bytes) : Prop :=
  name = serverName ∨ s.ClientOwns name ∨ s.ConnectionOwns name ∨ name ∈ s.made ++ s.orphans

structure NamesOwned (serverName : Bytes) (s : IpcSystem) : Prop where
  named : ∀ name, s.queues.named name ≠ none ↔ s.Owned serverName name
  distinct : (s.ends.map IpcEnds.mqName ++ (s.made ++ s.orphans)).Nodup
  drawn : ∀ name ∈ s.orphans, name ∈ s.serverNames

variable {serverName : Bytes} {serializeAsString : MatrixServerMessage → Bytes}
  {parseFromString : Bytes → Option MatrixServerMessage} {s s' : IpcSystem}

theorem connectionOwns_iff {name : Bytes} : s.ConnectionOwns name ↔
    ∃ c ∈ s.connections, c.mqName = name ∧ c.destroyed = false := by
  constructor
  · rintro ⟨i, c, hget, howns⟩
    exact ⟨c, List.mem_of_getElem? hget, howns⟩
  · rintro ⟨c, hc, howns⟩
    obtain ⟨i, hget⟩ := List.mem_iff_getElem?.mp hc
    exact ⟨i, c, hget, howns⟩

theorem ConnectionOwns.mem_ends {name : Bytes} (h : s.ConnectionOwns name) :
    name ∈ s.ends.map IpcEnds.mqName := by
  obtain ⟨i, c, hget, rfl, -⟩ := h
  exact List.mem_map_of_mem (List.mem_map_of_mem (List.mem_of_getElem? hget))

/-- The server's side drew the names it owns. -/
theorem NamesOwned.server_drawn (h : s.NamesOwned serverName) (hnames : s.Names serverName)
    {name : Bytes} (hname : s.ConnectionOwns name ∨ name ∈ s.made ++ s.orphans) :
    name ∈ s.serverNames := by
  cases hname with
  | inl howns => exact hnames.answered _ (List.mem_append_left _ howns.mem_ends)
  | inr hmem =>
      cases List.mem_append.mp hmem with
      | inl hmade => exact hnames.answered _ (List.mem_append_right _ hmade)
      | inr horphan => exact h.drawn name horphan

theorem NamesOwned.congr (h : s.NamesOwned serverName)
    (hnamed : s'.queues.named = s.queues.named)
    (hclients : ∀ name, s'.ClientOwns name ↔ s.ClientOwns name)
    (hconnections : ∀ name, s'.ConnectionOwns name ↔ s.ConnectionOwns name)
    (hends : s'.ends = s.ends) (hmade : s'.made = s.made) (horphans : s'.orphans = s.orphans)
    (hserver : s'.serverNames = s.serverNames) : s'.NamesOwned serverName := by
  refine ⟨?_, ?_, ?_⟩
  · intro name
    rw [hnamed, h.named, Owned, Owned, hclients, hconnections, hmade, horphans]
  · rw [hends, hmade, horphans]
    exact h.distinct
  · rw [horphans, hserver]
    exact h.drawn

section
variable {client : Nat} {c : IpcClient} {queues : Queues Bytes Bytes}

/-- A step of a client that neither draws a name nor ends the client. -/
theorem NamesOwned.of_client (h : s.NamesOwned serverName)
    (hname : c.mqName = (s.clients client).mqName)
    (hlive : c.position = .destroyed ↔ (s.clients client).position = .destroyed)
    (hcreated : queues.created = s.queues.created) (hnamed : queues.named = s.queues.named) :
    ((s.setClient client c).setQueues queues).NamesOwned serverName := by
  refine h.congr hnamed ?_ (fun _ => Iff.rfl) rfl rfl rfl rfl
  intro name
  apply exists_congr
  intro i
  by_cases hi : i = client
  · subst hi
    simp [setQueues, setClient, hname, hcreated, hlive]
  · simp [setQueues, setClient, hi, hcreated]

theorem NamesOwned.of_position (h : s.NamesOwned serverName)
    (hname : c.mqName = (s.clients client).mqName)
    (hlive : c.position = .destroyed ↔ (s.clients client).position = .destroyed) :
    (s.setClient client c).NamesOwned serverName := by
  have hsame := h.of_client hname hlive (Eq.refl s.queues.created) rfl
  exact hsame

/-- A step of a connection that does not end it. -/
theorem NamesOwned.of_connection (h : s.NamesOwned serverName) {index : Nat} {c c' : IpcAccepted}
    (hget : s.connections[index]? = some c) (hends : c'.toIpcEnds = c.toIpcEnds)
    (hlive : c'.destroyed = c.destroyed)
    (hcreated : queues.created = s.queues.created) (hnamed : queues.named = s.queues.named) :
    ((s.setConnection index c').setQueues queues).NamesOwned serverName := by
  refine h.congr hnamed ?_ ?_ (ends_setConnection hget hends) rfl rfl rfl
  · intro name
    simp only [ClientOwns, setQueues, setConnection, hcreated]
  · intro name
    apply exists_congr
    intro i
    by_cases hi : i = index
    · subst hi
      obtain ⟨hlt, rfl⟩ := List.getElem?_eq_some_iff.mp hget
      simp [setQueues, setConnection, hlt, hends, hlive]
    · simp [setQueues, setConnection, Ne.symm hi]

/-- A client that goes, or that draws another name, no longer owns its queue. -/
theorem NamesOwned.release (client : Nat) (h : s.NamesOwned serverName)
    (hinv : s.Inv serializeAsString parseFromString serverName)
    (hclients : ∀ name, s'.ClientOwns name ↔ ∃ i, i ≠ client ∧ (s.clients i).mqName = name ∧
      name ∈ s.queues.created ∧ (s.clients i).position ≠ .destroyed)
    (hnamed : s'.queues.named = if (s.clients client).mqName = [] then s.queues.named
      else (s.queues.remove (s.clients client).mqName).named)
    (hconnections : s'.connections = s.connections) (hmade : s'.made = s.made)
    (horphans : s'.orphans = s.orphans) (hserver : s'.serverNames = s.serverNames) :
    s'.NamesOwned serverName := by
  have hends : s'.ends = s.ends := by rw [ends, hconnections, ends]
  refine ⟨?_, ?_, ?_⟩
  · intro name
    have hothers : s'.ConnectionOwns name ↔ s.ConnectionOwns name := by
      rw [ConnectionOwns, hconnections]
      exact Iff.rfl
    have howned : s'.Owned serverName name ↔ name = serverName ∨ (∃ i, i ≠ client ∧
        (s.clients i).mqName = name ∧ name ∈ s.queues.created ∧
          (s.clients i).position ≠ .destroyed) ∨
        (s.ConnectionOwns name ∨ name ∈ s.made ++ s.orphans) := by
      rw [Owned, hclients, hothers, hmade, horphans]
    -- unless it is the client's own name, the client was not what made it owned
    have hsame : name ≠ (s.clients client).mqName ∨ name = [] →
        (s'.Owned serverName name ↔ s.Owned serverName name) := by
      intro hname
      rw [howned]
      constructor
      · rintro (hserver | ⟨i, -, howns⟩ | hrest)
        · exact .inl hserver
        · exact .inr (.inl ⟨i, howns⟩)
        · exact .inr (.inr hrest)
      · rintro (hserver | ⟨i, hown, hcreated, hlive⟩ | hrest)
        · exact .inl hserver
        · by_cases hi : i = client
          · subst hi
            have hnil := hname.resolve_left (not_not.mpr hown.symm)
            have hdrawn := hinv.names.created name hcreated
            refine .inl ((List.mem_cons.mp hdrawn).resolve_right fun hmem => ?_)
            exact hinv.names.drawn_ne_nil hmem hnil
          · exact .inr (.inl ⟨i, hi, hown, hcreated, hlive⟩)
        · exact .inr (.inr hrest)
    rw [hnamed]
    split
    · rename_i hnil
      rw [h.named]
      by_cases hname : name = []
      · exact (hsame (.inr hname)).symm
      · exact (hsame (.inl (hnil ▸ hname))).symm
    · rename_i hnil
      by_cases hname : name = (s.clients client).mqName
      · have hdrawn := (hinv.clients client).drawn hnil
        rw [howned, hname]
        simp only [Queues.remove, Function.update_self, ne_eq, not_true_eq_false, false_iff]
        rintro (hserver | ⟨i, hi, hown, -⟩ | hrest)
        · exact hinv.names.client_ne hdrawn hserver
        · exact hi (hinv.names.own client i hown.symm hnil).symm
        · exact hinv.names.client_ne_server hdrawn (h.server_drawn hinv.names hrest) rfl
      · rw [remove_named hname, h.named, hsame (.inl hname)]
  · rw [hends, hmade, horphans]
    exact h.distinct
  · rw [horphans, hserver]
    exact h.drawn

end

theorem NamesOwned.connect (h : s.NamesOwned serverName)
    (hinv : s.Inv serializeAsString parseFromString serverName) {client : Nat} {rand : Nat → Nat}
    (hfresh : randomName rand ∉ s.drawn serverName)
    (hstep : s.connect client rand = some s') : s'.NamesOwned serverName := by
  have hnone : randomName rand ∉ s.queues.created :=
    fun hmem => hfresh (hinv.names.created _ hmem)
  simp only [IpcSystem.connect] at hstep
  split at hstep
  · cases hstep
    refine h.release client hinv ?_ ?_ rfl rfl rfl rfl
    · intro name
      apply exists_congr
      intro i
      have hcreated : (if (s.clients client).mqName = [] then s.queues
          else s.queues.remove (s.clients client).mqName).created = s.queues.created := by
        split <;> rfl
      by_cases hi : i = client
      · subst hi
        simp only [setQueues, setClient, Function.update_self, hcreated, ne_eq, not_true_eq_false,
          false_and, iff_false]
        rintro ⟨rfl, hmem, -⟩
        exact hnone hmem
      · simp [setQueues, setClient, hi, hcreated]
    · simp only [setQueues]
      split <;> rfl
  · cases hstep

theorem NamesOwned.destroyClient (h : s.NamesOwned serverName)
    (hinv : s.Inv serializeAsString parseFromString serverName) {client : Nat}
    (hstep : s.destroyClient client = some s') : s'.NamesOwned serverName := by
  simp only [IpcSystem.destroyClient] at hstep
  split at hstep
  · cases hstep
    refine h.release client hinv ?_ ?_ rfl rfl rfl rfl
    · intro name
      apply exists_congr
      intro i
      have hcreated : (if (s.clients client).mqName = [] then s.queues
          else s.queues.remove (s.clients client).mqName).created = s.queues.created := by
        split <;> rfl
      by_cases hi : i = client
      · subst hi
        simp [setQueues, setClient]
      · simp [setQueues, setClient, hi, hcreated]
    · simp only [setQueues]
      split <;> rfl
  · cases hstep

theorem NamesOwned.createQueue (h : s.NamesOwned serverName)
    (hinv : s.Inv serializeAsString parseFromString serverName) {client tempServer : Nat}
    (hposition : (s.clients client).position = .creating tempServer) :
    ((s.setClient client { s.clients client with
        receiveMQ := some (s.queues.openOrCreate (s.clients client).mqName).2
        position := .requesting tempServer }).setQueues
      (s.queues.openOrCreate (s.clients client).mqName).1).NamesOwned serverName := by
  have hnone := (hinv.clients client).uncreated (by rw [hposition]; trivial)
  rw [hinv.sound.openOrCreate_fresh hnone]
  refine ⟨?_, h.distinct, h.drawn⟩
  intro name
  by_cases hname : name = (s.clients client).mqName
  · subst hname
    simp only [setQueues, Function.update_self, ne_eq, reduceCtorEq, not_false_eq_true, true_iff]
    refine .inr (.inl ⟨client, ?_, List.mem_append_right _ (List.mem_singleton_self _), ?_⟩)
    · simp [setClient]
    · simp [setClient]
  · simp only [setQueues, Function.update_of_ne hname]
    rw [h.named]
    refine or_congr_right (or_congr_left (exists_congr ?_))
    intro i
    by_cases hi : i = client
    · subst hi
      simp [setClient, Ne.symm hname]
    · simp [setClient, hi, hname]

theorem NamesOwned.proceed (h : s.NamesOwned serverName)
    (hinv : s.Inv serializeAsString parseFromString serverName) {client : Nat}
    (hstep : s.proceed serverName client = some s') : s'.NamesOwned serverName := by
  simp only [IpcSystem.proceed] at hstep
  split at hstep
  · rename_i hposition
    split at hstep
    · cases hstep
      exact h.of_position rfl (by simp [hposition])
    · cases hstep
      exact h.of_position rfl (by simp [hposition])
  · rename_i tempServer hposition
    cases hstep
    exact h.createQueue hinv hposition
  · rename_i tempServer hposition
    obtain ⟨queues, hsend, rfl⟩ := Option.map_eq_some_iff.mp hstep
    obtain ⟨-, rfl⟩ := Queues.send_cases hsend
    exact h.of_client rfl (by simp [hposition]) rfl rfl
  · rename_i hposition
    obtain ⟨⟨reply, queues⟩, hreceive, rfl⟩ := Option.map_eq_some_iff.mp hstep
    obtain ⟨queue, -, hreceive⟩ := Option.bind_eq_some_iff.mp hreceive
    obtain ⟨rest, -, rfl⟩ := Queues.receive_cases hreceive
    split
    · exact h.of_client rfl (by simp [hposition]) rfl rfl
    · exact h.of_client rfl (by simp [hposition]) rfl rfl
  · rename_i reply hposition
    split at hstep
    · cases hstep
      exact h.of_position rfl (by simp [hposition])
    · cases hstep
      exact h.of_position rfl (by simp [hposition])
  · cases hstep

theorem sendMessage_named {sendMQ : Nat} {told told' : List MatrixServerMessage}
    {message : MatrixServerMessage} {queues : Queues Bytes Bytes}
    (h : s.sendMessage serializeAsString sendMQ told message = some (queues, told')) :
    queues.created = s.queues.created ∧ queues.named = s.queues.named := by
  obtain ⟨rfl, -⟩ | ⟨hsend, -⟩ := sendMessage_cases h
  · exact ⟨rfl, rfl⟩
  · obtain ⟨-, rfl⟩ := Queues.send_cases hsend
    exact ⟨rfl, rfl⟩

theorem readMessage_named {receiveMQ : Nat} {heard heard' : List MatrixServerMessage}
    {queues : Queues Bytes Bytes}
    (h : s.readMessage parseFromString receiveMQ heard = some (queues, heard')) :
    queues.created = s.queues.created ∧ queues.named = s.queues.named := by
  obtain ⟨packet, hreceive, -⟩ := readMessage_cases h
  obtain ⟨rest, -, rfl⟩ := Queues.receive_cases hreceive
  exact ⟨rfl, rfl⟩

theorem NamesOwned.acceptCreate (h : s.NamesOwned serverName)
    (hinv : s.Inv serializeAsString parseFromString serverName) {clientName name : Bytes}
    (hloop : s.acceptLoop = .creating clientName) (hfresh : name ∉ s.drawn serverName) :
    NamesOwned serverName { s with
      queues := (s.queues.openOrCreate name).1
      serverNames := s.serverNames ++ [name]
      acceptLoop := .opening clientName name (s.queues.openOrCreate name).2 } := by
  have hnone := fun hmem => hfresh (hinv.names.created name hmem)
  have hmade : s.made = [] := by simp [made, hloop]
  have hnew : name ∉ s.serverNames :=
    fun hmem => hfresh (List.mem_cons_of_mem _ (List.mem_append_right _ hmem))
  rw [hinv.sound.openOrCreate_fresh hnone]
  refine ⟨?_, ?_, fun other hmem => List.mem_append_left _ (h.drawn other hmem)⟩
  · intro other
    by_cases hother : other = name
    · subst hother
      simp [Owned, made]
    · simp only [Function.update_of_ne hother]
      rw [h.named]
      refine or_congr_right (or_congr (exists_congr ?_) (or_congr_right ?_))
      · simp [hother]
      · simp [made, hloop, hother]
  · have hdistinct := h.distinct
    rw [hmade, List.nil_append] at hdistinct
    have hends : name ∉ s.ends.map IpcEnds.mqName :=
      fun hmem => hnew (hinv.names.answered name (List.mem_append_left _ hmem))
    have horphans : name ∉ s.orphans := fun hmem => hnew (h.drawn name hmem)
    have hperm : (s.ends.map IpcEnds.mqName ++ ([name] ++ s.orphans)).Perm
        (name :: (s.ends.map IpcEnds.mqName ++ s.orphans)) := List.perm_middle
    exact hperm.nodup_iff.mpr (List.nodup_cons.mpr ⟨by simp [hends, horphans], hdistinct⟩)

theorem NamesOwned.acceptOrphan (h : s.NamesOwned serverName)
    (hinv : s.Inv serializeAsString parseFromString serverName) {clientName name : Bytes}
    {receiveMQ : Nat} (hloop : s.acceptLoop = .opening clientName name receiveMQ) :
    NamesOwned serverName
      { s with acceptLoop := .receiving, orphans := s.orphans ++ [name] } := by
  have hmade : s.made = [name] := by simp [made, hloop]
  have hperm : ([] ++ (s.orphans ++ [name])).Perm (s.made ++ s.orphans) := by
    rw [hmade, List.nil_append]
    exact List.perm_append_comm
  refine ⟨?_, ?_, ?_⟩
  · intro other
    rw [h.named]
    exact or_congr_right (or_congr_right (or_congr_right hperm.mem_iff.symm))
  · exact (hperm.append_left _).nodup_iff.mpr h.distinct
  · intro other hmem
    cases List.mem_append.mp hmem with
    | inl hold => exact h.drawn other hold
    | inr hnew =>
        cases List.mem_singleton.mp hnew
        apply hinv.names.answered
        simp [hmade]

theorem NamesOwned.acceptReply (h : s.NamesOwned serverName) {clientName name : Bytes}
    {receiveMQ sendMQ : Nat} {queues : Queues Bytes Bytes}
    (hloop : s.acceptLoop = .sending clientName name receiveMQ sendMQ)
    (hcreated : queues.created = s.queues.created) (hnamed : queues.named = s.queues.named) :
    NamesOwned serverName { s with
      queues
      acceptLoop := .receiving
      connections := s.connections ++
        [{ clientMQName := clientName, mqName := name, sendMQ, receiveMQ }] } := by
  have hmade : s.made = [name] := by simp [made, hloop]
  refine ⟨?_, ?_, h.drawn⟩
  · intro other
    simp only [hnamed]
    rw [h.named, Owned, Owned, connectionOwns_iff, connectionOwns_iff]
    simp only [ClientOwns, hcreated, made, hloop, List.mem_append, List.mem_singleton,
      List.not_mem_nil, false_or, or_and_right, exists_or, exists_eq_left, and_true, or_assoc]
    exact or_congr_right (or_congr_right (or_congr_right (or_congr_left eq_comm)))
  · have hdistinct := h.distinct
    rw [hmade] at hdistinct
    simpa [ends, made] using hdistinct

/-- What the accept loop makes belongs to it until it is a connection's, or nobody's. -/
theorem NamesOwned.accept (h : s.NamesOwned serverName)
    (hinv : s.Inv serializeAsString parseFromString serverName) {rand : Nat → Nat}
    (hfresh : ∀ clientName, s.acceptLoop = .creating clientName →
      randomName rand ∉ s.drawn serverName)
    (hstep : s.accept rand = some s') : s'.NamesOwned serverName := by
  simp only [IpcSystem.accept] at hstep
  split at hstep
  · rename_i hloop
    obtain ⟨⟨name, queues⟩, hreceive, rfl⟩ := Option.map_eq_some_iff.mp hstep
    obtain ⟨rest, -, rfl⟩ := Queues.receive_cases hreceive
    exact h.congr rfl (fun _ => Iff.rfl) (fun _ => Iff.rfl) rfl (by simp [made, hloop]) rfl rfl
  · rename_i clientName hloop
    cases hstep
    exact h.acceptCreate hinv hloop (hfresh clientName hloop)
  · rename_i clientName name receiveMQ hloop
    split at hstep
    · cases hstep
      exact h.congr rfl (fun _ => Iff.rfl) (fun _ => Iff.rfl) rfl (by simp [made, hloop]) rfl rfl
    · cases hstep
      exact h.acceptOrphan hinv hloop
  · rename_i clientName name receiveMQ sendMQ hloop
    obtain ⟨queues, hsend, rfl⟩ := Option.map_eq_some_iff.mp hstep
    obtain ⟨-, rfl⟩ := Queues.send_cases hsend
    exact h.acceptReply hloop rfl rfl

/-- A connection that goes owns its queue no longer. -/
theorem NamesOwned.destroyConnection (h : s.NamesOwned serverName)
    (hinv : s.Inv serializeAsString parseFromString serverName) {index : Nat}
    (hstep : s.destroyConnection index = some s') : s'.NamesOwned serverName := by
  obtain ⟨c, hget, hdone⟩ := Option.bind_eq_some_iff.mp hstep
  split at hdone
  · cases hdone
  · cases hdone
    have he : c.toIpcEnds ∈ s.ends := List.mem_map_of_mem (List.mem_of_getElem? hget)
    have hends : (s.setConnection index { c with destroyed := true }).ends = s.ends :=
      ends_setConnection hget rfl
    have hserver := (hinv.names.end_drawn he).2
    refine ⟨?_, ?_, h.drawn⟩
    · intro name
      by_cases hname : name = c.mqName
      · subst hname
        simp only [setQueues, Queues.remove, Function.update_self, ne_eq, not_true_eq_false,
          false_iff]
        rintro (hname | ⟨i, hname, -⟩ | ⟨i, c', hget', hname, hlive⟩ | hname)
        · exact hinv.names.server_ne hserver hname
        · have hnil : (s.clients i).mqName ≠ [] := by
            rw [show (s.clients i).mqName = c.mqName from hname]
            exact hinv.names.drawn_ne_nil (List.mem_append_right _ hserver)
          exact hinv.names.client_ne_server ((hinv.clients i).drawn hnil) hserver hname
        · simp only [setConnection, List.getElem?_set] at hget'
          split at hget'
          · split at hget'
            · cases hget'
              cases hlive
            · cases hget'
          · rename_i hne
            have he' : c'.toIpcEnds ∈ s.ends := List.mem_map_of_mem (List.mem_of_getElem? hget')
            exact hinv.ends_ne hget hget' (Ne.symm hne) (hinv.names.end_eq_of_name he' he hname)
        · exact List.disjoint_of_nodup_append h.distinct (List.mem_map_of_mem he) hname
      · simp only [setQueues, remove_named hname]
        rw [h.named]
        refine or_congr_right (or_congr_right (or_congr_left (exists_congr ?_)))
        intro i
        by_cases hi : i = index
        · subst hi
          obtain ⟨hlt, rfl⟩ := List.getElem?_eq_some_iff.mp hget
          simp [setConnection, hlt, Ne.symm hname]
        · simp [setConnection, Ne.symm hi]
    · have hdistinct := h.distinct
      rw [← hends] at hdistinct
      exact hdistinct

theorem NamesOwned.step (h : s.NamesOwned serverName)
    (hinv : s.Inv serializeAsString parseFromString serverName) {e : IpcEvent}
    (hfresh : FreshNames serverName serializeAsString parseFromString s e)
    (hstep : (ipcSystems serverName serializeAsString parseFromString).step s e = some s') :
    s'.NamesOwned serverName := by
  cases e with
  | connect client rand => exact h.connect hinv hfresh hstep
  | proceed client => exact h.proceed hinv hstep
  | clientSend client message =>
      obtain ⟨queue, -, hdone⟩ := Option.bind_eq_some_iff.mp hstep
      obtain ⟨⟨queues, told⟩, hmessage, rfl⟩ := Option.map_eq_some_iff.mp hdone
      obtain ⟨hcreated, hnamed⟩ := sendMessage_named hmessage
      exact h.of_client rfl Iff.rfl hcreated hnamed
  | clientRead client =>
      simp only [ipcSystems, IpcSystem.clientRead] at hstep
      split at hstep
      · obtain ⟨queue, -, hdone⟩ := Option.bind_eq_some_iff.mp hstep
        obtain ⟨⟨queues, heard⟩, hmessage, rfl⟩ := Option.map_eq_some_iff.mp hdone
        obtain ⟨hcreated, hnamed⟩ := readMessage_named hmessage
        exact h.of_client rfl Iff.rfl hcreated hnamed
      · cases hstep
  | destroyClient client => exact h.destroyClient hinv hstep
  | accept rand =>
      apply h.accept hinv _ hstep
      intro clientName hloop
      exact hfresh (by rw [hloop]; rfl)
  | serverSend index message =>
      obtain ⟨c, hget, hdone⟩ := Option.bind_eq_some_iff.mp hstep
      split at hdone
      · cases hdone
      · obtain ⟨⟨queues, told⟩, hmessage, rfl⟩ := Option.map_eq_some_iff.mp hdone
        obtain ⟨hcreated, hnamed⟩ := sendMessage_named hmessage
        exact h.of_connection hget rfl rfl hcreated hnamed
  | serverRead index =>
      obtain ⟨c, hget, hdone⟩ := Option.bind_eq_some_iff.mp hstep
      split at hdone
      · cases hdone
      · obtain ⟨⟨queues, heard⟩, hmessage, rfl⟩ := Option.map_eq_some_iff.mp hdone
        obtain ⟨hcreated, hnamed⟩ := readMessage_named hmessage
        exact h.of_connection hget rfl rfl hcreated hnamed
  | destroyConnection index => exact h.destroyConnection hinv hstep

theorem namesOwned_start : (start serverName).NamesOwned serverName := by
  refine ⟨?_, ?_, ?_⟩
  · intro name
    simp only [start, Queues.remove, Queues.openOrCreate, Function.update_self, ne_eq]
    by_cases hname : name = serverName
    · subst hname
      simp [Owned]
    · simp [Owned, ClientOwns, ConnectionOwns, made, hname]
  · simp [start, ends, made]
  · simp [start]

/-- Every request that is not answered yet is that of a client that waits. -/
def Pending (s : IpcSystem) : Prop :=
  ∀ name ∈ s.inHand ++ s.queues.waiting s.serverMQ,
    ∃ i, (s.clients i).mqName = name ∧ (s.clients i).position = .waiting

theorem Inv.unanswered_of_waiting (h : s.Inv serializeAsString parseFromString serverName)
    {i : Nat} (hmem : (s.clients i).mqName ∈ s.inHand ++ s.queues.waiting s.serverMQ)
    (hposition : (s.clients i).position = .waiting) : s.Unanswered i := by
  refine ⟨hposition, ?_⟩
  intro queue hqueue
  have hok := h.clients i
  obtain ⟨own, hown, hnamed⟩ := hok.owns (by rw [hposition]; trivial)
  cases hqueue.symm.trans hown
  have hnot : (s.clients i).mqName ∉ s.ends.map IpcEnds.clientMQName := by
    have honce := h.names.once
    rw [requests, List.append_assoc] at honce
    exact fun hends => List.disjoint_of_nodup_append honce hends hmem
  have hdrawn := hok.drawn (hok.begun (.inr (by rw [hposition]; trivial)))
  have hput := h.untold queue _ (h.sound.named _ _ hnamed) (.inl ⟨hdrawn, hnot⟩)
  rw [h.sound.history, List.append_eq_nil_iff] at hput
  exact hput.2

/-- A step of the loop adds no request. -/
theorem Inv.accept_requests (h : s.Inv serializeAsString parseFromString serverName)
    {rand : Nat → Nat} (hstep : s.accept rand = some s') : s'.clients = s.clients ∧
      ∀ name ∈ s'.inHand ++ s'.queues.waiting s'.serverMQ,
        name ∈ s.inHand ++ s.queues.waiting s.serverMQ := by
  simp only [IpcSystem.accept] at hstep
  split at hstep
  · rename_i hloop
    obtain ⟨⟨first, queues⟩, hreceive, rfl⟩ := Option.map_eq_some_iff.mp hstep
    obtain ⟨rest, hwaiting, rfl⟩ := Queues.receive_cases hreceive
    refine ⟨rfl, ?_⟩
    simp [inHand, hloop, hwaiting]
  · rename_i clientName hloop
    cases hstep
    refine ⟨rfl, ?_⟩
    simp [inHand, hloop, openOrCreate_waiting]
  · rename_i clientName name receiveMQ hloop
    split at hstep
    · cases hstep
      refine ⟨rfl, ?_⟩
      simp [inHand, hloop]
    · cases hstep
      refine ⟨rfl, ?_⟩
      intro name hmem
      exact List.mem_append_right _ hmem
  · rename_i clientName name receiveMQ sendMQ hloop
    obtain ⟨queues, hsend, rfl⟩ := Option.map_eq_some_iff.mp hstep
    have hopened := h.loop
    simp only [LoopOpened, hloop] at hopened
    have hdrawn : clientName ∈ s.clientNames := by
      apply h.names.requested
      simp [requests, inHand, hloop]
    have hne : s.serverMQ ≠ sendMQ :=
      queue_ne h.names.serverMQ hopened.2 (h.names.client_ne hdrawn).symm
    refine ⟨rfl, ?_⟩
    intro name hmem
    rw [← send_waiting hsend hne]
    exact List.mem_append_right _ hmem

theorem Pending.step (hpending : s.Pending)
    (h : s.Inv serializeAsString parseFromString serverName) {e : IpcEvent}
    (hstep : (ipcSystems serverName serializeAsString parseFromString).step s e = some s') :
    s'.Pending := by
  intro name hmem
  cases hloop : e.accepts with
  | true =>
      cases e with
      | accept rand =>
          obtain ⟨hsame, hsub⟩ := h.accept_requests hstep
          rw [hsame]
          exact hpending name (hsub name hmem)
      | _ => cases hloop
  | false =>
      obtain ⟨hbehind, hsame⟩ := h.step_behind hloop hstep
      have hold : name ∈ s.inHand ++ s.queues.waiting s.serverMQ →
          ∃ i, (s'.clients i).mqName = name ∧ (s'.clients i).position = .waiting := by
        intro hmem
        obtain ⟨i, rfl, hposition⟩ := hpending name hmem
        have hclient := hsame i (h.unanswered_of_waiting hmem hposition)
        exact ⟨i, by rw [hclient], by rw [hclient, hposition]⟩
      have hhand : s'.inHand = s.inHand := by
        rw [inHand, hbehind.acceptLoop]
        rfl
      rw [hhand, hbehind.serverMQ] at hmem
      cases hbehind.waiting with
      | inl hwaiting =>
          rw [hwaiting] at hmem
          exact hold hmem
      | inr hmore =>
          obtain ⟨i, hposition, hwaiting⟩ := hmore
          rw [hwaiting, ← List.append_assoc] at hmem
          cases List.mem_append.mp hmem with
          | inl hmem => exact hold hmem
          | inr hnew => exact ⟨i, (List.mem_singleton.mp hnew).symm, hposition⟩

/-- The queue that a request names is there when the loop opens it. -/
theorem Pending.orphans (hpending : s.Pending)
    (h : s.Inv serializeAsString parseFromString serverName) {e : IpcEvent}
    (hstep : (ipcSystems serverName serializeAsString parseFromString).step s e = some s') :
    s'.orphans = s.orphans := by
  cases e with
  | connect client rand =>
      simp only [ipcSystems, IpcSystem.connect] at hstep
      split at hstep <;> cases hstep
      rfl
  | proceed client =>
      simp only [ipcSystems, IpcSystem.proceed] at hstep
      split at hstep
      · split at hstep <;> cases hstep <;> rfl
      · cases hstep
        rfl
      · obtain ⟨queues, -, rfl⟩ := Option.map_eq_some_iff.mp hstep
        rfl
      · obtain ⟨received, -, rfl⟩ := Option.map_eq_some_iff.mp hstep
        rfl
      · split at hstep <;> cases hstep <;> rfl
      · cases hstep
  | clientSend client message =>
      obtain ⟨queue, -, hdone⟩ := Option.bind_eq_some_iff.mp hstep
      obtain ⟨done, -, rfl⟩ := Option.map_eq_some_iff.mp hdone
      rfl
  | clientRead client =>
      simp only [ipcSystems, IpcSystem.clientRead] at hstep
      split at hstep
      · obtain ⟨queue, -, hdone⟩ := Option.bind_eq_some_iff.mp hstep
        obtain ⟨done, -, rfl⟩ := Option.map_eq_some_iff.mp hdone
        rfl
      · cases hstep
  | destroyClient client =>
      simp only [ipcSystems, IpcSystem.destroyClient] at hstep
      split at hstep <;> cases hstep
      rfl
  | accept rand =>
      simp only [ipcSystems, IpcSystem.accept] at hstep
      split at hstep
      · obtain ⟨received, -, rfl⟩ := Option.map_eq_some_iff.mp hstep
        rfl
      · cases hstep
        rfl
      · rename_i clientName name receiveMQ hloop
        split at hstep
        · cases hstep
          rfl
        · rename_i hnone
          obtain ⟨i, rfl, hposition⟩ := hpending clientName (by simp [inHand, hloop])
          obtain ⟨own, -, hnamed⟩ := (h.clients i).owns (by rw [hposition]; trivial)
          rw [hnone] at hnamed
          cases hnamed
      · obtain ⟨queues, -, rfl⟩ := Option.map_eq_some_iff.mp hstep
        rfl
  | serverSend index message =>
      obtain ⟨c, -, hdone⟩ := Option.bind_eq_some_iff.mp hstep
      split at hdone
      · cases hdone
      · obtain ⟨done, -, rfl⟩ := Option.map_eq_some_iff.mp hdone
        rfl
  | serverRead index =>
      obtain ⟨c, -, hdone⟩ := Option.bind_eq_some_iff.mp hstep
      split at hdone
      · cases hdone
      · obtain ⟨done, -, rfl⟩ := Option.map_eq_some_iff.mp hdone
        rfl
  | destroyConnection index =>
      obtain ⟨c, -, hdone⟩ := Option.bind_eq_some_iff.mp hstep
      split at hdone <;> cases hdone
      rfl

end IpcSystem

/-- The accept loop never makes a queue for a client that is gone; so the names there are
belong to the server, to clients and connections that are not gone, and to the request the
loop is at, and no queue is left behind. -/
theorem ipc_queue_names {serverName : Bytes} {serializeAsString : MatrixServerMessage → Bytes}
    {parseFromString : Bytes → Option MatrixServerMessage} {s : IpcSystem}
    (h : (ipcSystems serverName serializeAsString parseFromString).ReachableUnder
      (FreshNames serverName serializeAsString parseFromString) s) :
    s.orphans = [] ∧ ∀ name, s.queues.named name ≠ none ↔ name = serverName ∨
      (∃ i, (s.clients i).mqName = name ∧ name ∈ s.queues.created ∧
        (s.clients i).position ≠ .destroyed) ∨
      (∃ c ∈ s.connections, c.mqName = name ∧ c.destroyed = false) ∨ name ∈ s.made := by
  have hall : s.Inv serializeAsString parseFromString serverName ∧ s.NamesOwned serverName ∧
      s.Pending ∧ s.orphans = [] := by
    refine h.invariant (fun s => s.Inv serializeAsString parseFromString serverName ∧
      s.NamesOwned serverName ∧ s.Pending ∧ s.orphans = []) ?_ ?_
    · refine ⟨IpcSystem.inv_start, IpcSystem.namesOwned_start, ?_, rfl⟩
      simp [IpcSystem.Pending, IpcSystem.inHand, ipcSystems, IpcSystem.start,
        IpcSystem.openOrCreate_waiting, Queues.remove]
    · rintro s e s' ⟨hinv, hnames, hpending, hnone⟩ hfresh hstep
      exact ⟨hinv.step hfresh hstep, hnames.step hinv hfresh hstep, hpending.step hinv hstep,
        (hpending.orphans hinv hstep).trans hnone⟩
  refine ⟨hall.2.2.2, ?_⟩
  intro name
  rw [hall.2.1.named, IpcSystem.Owned, IpcSystem.connectionOwns_iff, hall.2.2.2, List.append_nil]
  exact Iff.rfl

/-- A client connects and goes, and its connection after it. -/
def connectedAndGone : List IpcEvent :=
  [.connect 0 fun _ => 0, .proceed 0, .proceed 0, .proceed 0] ++
  List.replicate 4 (.accept fun _ => 1) ++
  [.proceed 0, .proceed 0, .destroyClient 0, .destroyConnection 0]

theorem ipc_queue_names_gone :
    ∃ s, (ipcSystems ipcServerName registerBytes parseRegister).ReachableUnder
        (FreshNames ipcServerName registerBytes parseRegister) s ∧
      (s.clients 0).position = .destroyed ∧ s.orphans = [] ∧
      s.queues.named ipcServerName ≠ none := by
  obtain ⟨s, h, htest⟩ := TransitionSystem.ReachableUnder.of_test
    (M := ipcSystems ipcServerName registerBytes parseRegister)
    (FreshNames ipcServerName registerBytes parseRegister) connectedAndGone
    (fun s => (s.clients 0).position == .destroyed) rfl
  obtain ⟨hnone, hnames⟩ := ipc_queue_names h
  exact ⟨s, h, beq_iff_eq.mp htest, hnone, (hnames ipcServerName).mpr (.inl rfl)⟩

end MatrixServer
