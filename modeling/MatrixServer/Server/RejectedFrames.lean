import MatrixServer.Server.Programs
import MatrixServer.Server.StageWords

/-!
The appPause that answers a frame, among all the threads of the server.
A thread decides under the mutex that a frame is not the top app's and sends the
appPause after it has left the mutex; other threads may come between. The top
app is never left paused as long as no appKill or tick brings an app to the back
of `apps` while such an appPause for it is still to be sent.
-/

namespace MatrixServer
open TransitionRuns ThreadPrograms

inductive ThreadEvent where
  /-- A thread with nothing left to do begins a call. -/
  | call (c : ServerCall)
  /-- A thread takes its next section or does its next job. -/
  | run (thread : ServerThread)

abbrev ThreadedServer := Threads (Server × Trace) ServerThread Stage

def threadRuns (isIpc : ConnectionId → Bool) (s : Server) :
    TransitionSystem ThreadedServer ThreadEvent where
  initial := { shared := (s, []) }
  step st
    | .call c => st.start (c.thread isIpc) (st.shared.1.program c)
    | .run thread => st.advance runStage thread

theorem threadRuns_advances {isIpc : ConnectionId → Bool} {s : Server} {thread : ServerThread}
    {st st' : ThreadedServer} (h : (threadRuns isIpc s).Reachable st)
    (hrun : Relation.ReflTransGen
      (fun st st' => Threads.advance runStage st thread = some st') st st') :
    (threadRuns isIpc s).Reachable st' := by
  induction hrun with
  | refl => exact h
  | tail _ hadvance ih => exact .step (e := .run thread) ih trivial hadvance

/-- Calls that run to completion are runs of the threads in which nobody interrupts. -/
theorem threadRuns_of_serverRuns (isIpc : ConnectionId → Bool) {s : Server} {st : Server × Trace}
    (h : (serverRuns s).Reachable st) : (threadRuns isIpc s).Reachable { shared := st } := by
  induction h with
  | initial => exact .initial
  | @step st st' c _ _ hstep ih =>
      cases hstep
      have hstart := TransitionSystem.ReachableUnder.step (e := .call c) ih trivial rfl
      have hcompletes := (program_completes (c.thread isIpc) st.1 st.2 c).advances_from
        (Function.update (fun _ => []) (c.thread isIpc) (st.1.program c))
          (Function.update_self ..)
      rw [Function.update_idem, Function.update_eq_self] at hcompletes
      exact threadRuns_advances hstart hcompletes

def nextStage (st : ThreadedServer) : ThreadEvent → Option Stage
  | .call _ => none
  | .run thread => (st.stages thread).head?

def FreshIds (st : ThreadedServer) (e : ThreadEvent) : Prop :=
  ∀ stage ∈ nextStage st e, st.shared.1.generatesUnused stage = true

/-- No appPause for a rejected frame goes to the app at the back. -/
def RejectsBelow (st : ThreadedServer) (e : ThreadEvent) : Prop :=
  ∀ stage ∈ nextStage st e, st.shared.1.rejectsTop stage = false

/-- The thread that handles the requests of a connection. -/
def requestThread (isIpc : ConnectionId → Bool) (connection : ConnectionId) : ServerThread :=
  if isIpc connection then .ipcReceive connection else .io

/-- The thread of the app's connection has rejected a frame of the app and not yet sent the
appPause. -/
def RejectionPending (isIpc : ConnectionId → Bool) (st : ThreadedServer) (place : Place) : Prop :=
  ∃ stage ∈ st.stages (requestThread isIpc place.1), stage.rejects place = true

/-- No appKill or tick leaves an app at the back of `apps` while the appPause for one of its
frames is pending. -/
def NoneComesUpRejected (isIpc : ConnectionId → Bool) (st : ThreadedServer) (e : ThreadEvent) :
    Prop :=
  ∀ stage ∈ nextStage st e, ∀ place ∈ st.shared.1.leftOnTop stage,
    ¬ RejectionPending isIpc st place

instance (st : ThreadedServer) (e : ThreadEvent) : Decidable (FreshIds st e) :=
  inferInstanceAs (Decidable (∀ stage ∈ nextStage st e, _))

instance (isIpc : ConnectionId → Bool) (st : ThreadedServer) (place : Place) :
    Decidable (RejectionPending isIpc st place) :=
  inferInstanceAs (Decidable (∃ stage ∈ st.stages _, _))

instance (isIpc : ConnectionId → Bool) (st : ThreadedServer) (e : ThreadEvent) :
    Decidable (NoneComesUpRejected isIpc st e) :=
  inferInstanceAs (Decidable (∀ stage ∈ nextStage st e, _))

/-- A thread that may come to reject a frame works for its connection, and has that alone
left to do. -/
def RequestsAlone (isIpc : ConnectionId → Bool) (thread : ServerThread) (stages : List Stage) :
    Prop :=
  ∀ stage ∈ stages, ∀ connection ∈ stage.request,
    thread = requestThread isIpc connection ∧ stages = [stage]

structure ThreadInv (isIpc : ConnectionId → Bool) (st : ThreadedServer) : Prop where
  ids : DistinctIds st.shared.1.apps
  top : TopNotPaused st.shared
  wordless : ∀ thread, ∀ stage ∈ st.stages thread, stage.Wordless
  alone : ∀ thread, RequestsAlone isIpc thread (st.stages thread)
  below : ∀ thread, ∀ stage ∈ st.stages thread, st.shared.1.rejectsTop stage = false

variable {isIpc : ConnectionId → Bool}

/-- A pending appPause is all that its thread has left to do. -/
theorem ThreadInv.pending {st : ThreadedServer} (h : ThreadInv isIpc st) {thread : ServerThread}
    {place : Place} (hstage : .job (.rejectFrame place.1 place.2) ∈ st.stages thread) :
    thread = requestThread isIpc place.1 ∧
      st.stages thread = [.job (.rejectFrame place.1 place.2)] :=
  h.alone thread _ hstage place.1 rfl

theorem ThreadInv.rejectsBelow {st : ThreadedServer} (h : ThreadInv isIpc st) (e : ThreadEvent) :
    RejectsBelow st e := by
  intro stage hnext
  cases e with
  | call _ => cases hnext
  | run thread => exact h.below thread stage (List.mem_of_head? hnext)

theorem ThreadInv.call {st st' : ThreadedServer} (h : ThreadInv isIpc st) {c : ServerCall}
    (hstart : st.start (c.thread isIpc) (st.shared.1.program c) = some st') :
    ThreadInv isIpc st' := by
  obtain ⟨_, rfl⟩ := Threads.start_cases hstart
  refine ⟨h.ids, h.top, ?_, ?_, ?_⟩
  · exact Threads.stages_update (P := fun _ stages => ∀ stage ∈ stages, Stage.Wordless stage)
      h.wordless fun _ hstage => (mem_program hstage).1
  · refine Threads.stages_update (P := RequestsAlone isIpc) h.alone ?_
    intro stage hstage connection hrequest
    obtain ⟨-, -, hnone | ⟨halone, sender, message, rand, beyond, rfl, hsender⟩⟩ :=
      mem_program hstage
    · cases hnone.symm.trans hrequest
    · cases hsender.symm.trans hrequest
      exact ⟨rfl, halone⟩
  · refine Threads.stages_update
      (P := fun _ stages => ∀ stage ∈ stages, st.shared.1.rejectsTop stage = false) h.below ?_
    exact fun _ hstage => (mem_program hstage).2.1

/-- A pending appPause is still for an app below the back: nothing that the stage may do has
brought the app up. -/
theorem ThreadInv.below_run {st : ThreadedServer} (h : ThreadInv isIpc st) {thread : ServerThread}
    {stage : Stage} {rest : List Stage} (hstages : st.stages thread = stage :: rest)
    (hcomes : NoneComesUpRejected isIpc st (.run thread))
    {done : (Server × Trace) × List Stage} (hdone : runStage st.shared thread stage = some done)
    {other : ServerThread} {old : Stage} (hold : old ∈ st.stages other) :
    done.1.1.rejectsTop old = false := by
  rw [← Bool.not_eq_true, rejectsTop_iff]
  rintro ⟨place, rfl, hplace⟩
  obtain ⟨hother, halone⟩ := h.pending hold
  obtain hsame | ⟨connection, rand, rfl, hregistered⟩ | hup := runStage_back hdone
  · have hbelow := h.below other _ hold
    rw [← Bool.not_eq_true, rejectsTop_iff] at hbelow
    exact hbelow ⟨place, rfl, hsame ▸ hplace⟩
  · -- the registering app's own thread cannot have a rejection left to send
    have hmem : Stage.locked (.registerApp connection rand) ∈ st.stages thread := by
      rw [hstages]
      exact List.mem_cons_self
    have hconnection : connection = place.1 :=
      congrArg Prod.fst (Option.some.inj (hregistered.symm.trans hplace))
    have hthread := (h.alone thread _ hmem connection rfl).1
    rw [hthread, hconnection, ← hother, halone] at hmem
    cases List.mem_singleton.mp hmem
  · have hnext : nextStage st (.run thread) = some stage := by rw [nextStage, hstages]; rfl
    refine hcomes stage hnext place (hup.symm.trans hplace) ⟨_, hother ▸ hold, ?_⟩
    exact Stage.rejects_iff.mpr rfl

/-- What one stage keeps of the other parts of the invariant. -/
theorem ThreadInv.run {st st' : ThreadedServer} (h : ThreadInv isIpc st) {thread : ServerThread}
    (hfresh : FreshIds st (.run thread)) (hcomes : NoneComesUpRejected isIpc st (.run thread))
    (hrun : st.advance runStage thread = some st') : ThreadInv isIpc st' := by
  obtain ⟨stage, rest, done, hstages, hdone, rfl⟩ := Threads.advance_cases hrun
  have hnext : nextStage st (.run thread) = some stage := by rw [nextStage, hstages]; rfl
  have hmem : stage ∈ st.stages thread := by rw [hstages]; exact List.mem_cons_self
  have hrest : ∀ old ∈ rest, old ∈ st.stages thread := by
    intro old hold
    rw [hstages]
    exact List.mem_cons_of_mem _ hold
  have hwordless := h.wordless thread stage hmem
  have hcases := runStage_cases h.ids hwordless (hfresh stage hnext) hdone
  refine ⟨?_, ?_, ?_, ?_, ?_⟩
  · obtain ⟨effects, hstep, _⟩ | ⟨connection, appId, _, hsame⟩ := hcases
    · exact hstep.distinctIds h.ids
    · rw [hsame]
      exact h.ids
  · obtain ⟨effects, hstep, htrace, _⟩ | ⟨connection, appId, rfl, hsame⟩ := hcases
    · have htop := hstep.topNotPaused h.top
      rwa [← htrace] at htop
    · rw [hsame]
      exact (topNotPaused_reject h.top connection appId).mpr (h.below thread _ hmem)
  · refine Threads.stages_update (P := fun _ stages => ∀ stage ∈ stages, Stage.Wordless stage)
      h.wordless fun next hkept => ?_
    cases List.mem_append.mp hkept with
    | inl hnew => exact (runStage_stages hdone hnew).1
    | inr hold => exact h.wordless thread next (hrest next hold)
  · refine Threads.stages_update (P := RequestsAlone isIpc) h.alone ?_
    intro next hkept connection hrequest
    cases List.mem_append.mp hkept with
    | inl hnew =>
        obtain ⟨-, -, hnone | ⟨hjobs, hsame⟩⟩ := runStage_stages hdone hnew
        · cases hnone.symm.trans hrequest
        · obtain ⟨hthread, halone⟩ := h.alone thread stage hmem connection (hsame.trans hrequest)
          rw [hstages] at halone
          exact ⟨hthread, by rw [hjobs, (List.cons.inj halone).2, List.append_nil]⟩
    | inr hold =>
        have halone := (h.alone thread next (hrest next hold) connection hrequest).2
        rw [hstages] at halone
        rw [(List.cons.inj halone).2] at hold
        exact False.elim (List.not_mem_nil hold)
  · refine Threads.stages_update
      (P := fun _ stages => ∀ stage ∈ stages, done.1.1.rejectsTop stage = false)
      (fun _ _ hold => h.below_run hstages hcomes hdone hold) fun next hkept => ?_
    cases List.mem_append.mp hkept with
    | inl hnew => exact (runStage_stages hdone hnew).2.1
    | inr hold => exact h.below_run hstages hcomes hdone (hrest next hold)

/-- An app that comes up while its appPause is pending is paused as soon as its thread runs. -/
theorem ThreadInv.paused_later {s : Server} {st st' : ThreadedServer} (h : ThreadInv isIpc st)
    {e : ThreadEvent} (hcomes : ¬ NoneComesUpRejected isIpc st e)
    (hstep : (threadRuns isIpc s).step st e = some st') :
    ∃ later st'', FreshIds st' (.run later) ∧
      (threadRuns isIpc s).step st' (.run later) = some st'' ∧ ¬ TopNotPaused st''.shared := by
  simp only [NoneComesUpRejected, not_forall, not_not] at hcomes
  obtain ⟨stage, hnext, place, hup, rejection, hpending, hrejects⟩ := hcomes
  rw [Stage.rejects_iff.mp hrejects] at hpending
  have halone := (h.pending hpending).2
  cases e with
  | call _ => cases hnext
  | run thread =>
      obtain ⟨first, rest, done, hstages, hdone, rfl⟩ := Threads.advance_cases hstep
      have hfirst : first = stage := by
        rw [nextStage, hstages] at hnext
        exact Option.some.inj hnext
      subst hfirst
      obtain ⟨hnone, htop⟩ := runStage_leftOnTop hup hdone
      have hne : requestThread isIpc place.1 ≠ thread := by
        rintro rfl
        rw [hstages] at halone
        rw [(List.cons.inj halone).1] at hnone
        cases hnone
      have hstill : Function.update st.stages thread (done.2 ++ rest)
          (requestThread isIpc place.1) = [.job (.rejectFrame place.1 place.2)] := by
        rw [Function.update_of_ne hne, halone]
      refine ⟨requestThread isIpc place.1, _, ?_, Threads.advance_eq hstill rfl, ?_⟩
      · intro next hlater
        have hhead : next ∈ (Function.update st.stages thread (done.2 ++ rest)
          (requestThread isIpc place.1)).head? := hlater
        rw [hstill] at hhead
        cases hhead
        rfl
      · exact not_topNotPaused_reject done.1.2 htop

theorem threadInv_start (s : Server) (hnone : s.apps = []) :
    ThreadInv isIpc { shared := (s, []) } := by
  refine ⟨⟨?_, ?_⟩, ?_, fun _ => List.forall_mem_nil _, fun _ => List.forall_mem_nil _,
    fun _ => List.forall_mem_nil _⟩
  · simp [hnone, appIds]
  · simp [hnone, appIds]
  · intro place hplace
    simp [hnone, places] at hplace

theorem threadInv_reachable {serverConfig : ServerConfig} {renderers : List Renderer}
    {st : ThreadedServer}
    (h : (threadRuns isIpc (.start serverConfig renderers)).ReachableUnder
      (fun st e => FreshIds st e ∧ NoneComesUpRejected isIpc st e) st) : ThreadInv isIpc st := by
  refine h.invariant (ThreadInv isIpc) (threadInv_start _ rfl) ?_
  intro st e st' hinv hguard hstep
  cases e with
  | call c => exact hinv.call hstep
  | run thread => exact hinv.run hguard.1 hguard.2 hstep

/-- However the threads interleave, as long as ids are fresh and no app comes to the back of
`apps` through an appKill or a tick while the appPause for one of its frames is pending, no
such appPause goes to the app at the back, and this app was not last told to pause. Once an
app does come up so, its own thread can leave it paused at once. -/
theorem top_app_not_left_paused (isIpc : ConnectionId → Bool) (serverConfig : ServerConfig)
    (renderers : List Renderer) (st : ThreadedServer)
    (h : (threadRuns isIpc (.start serverConfig renderers)).ReachableUnder
      (fun st e => FreshIds st e ∧ NoneComesUpRejected isIpc st e) st) :
    TopNotPaused st.shared ∧ (∀ e, RejectsBelow st e) ∧
    ∀ e st', (threadRuns isIpc (.start serverConfig renderers)).step st e = some st' →
      ¬ NoneComesUpRejected isIpc st e →
        ∃ later st'', FreshIds st' (.run later) ∧
          (threadRuns isIpc (.start serverConfig renderers)).step st' (.run later) = some st'' ∧
          ¬ TopNotPaused st''.shared :=
  have hinv := threadInv_reachable h
  ⟨hinv.top, hinv.rejectsBelow, fun _ _ hstep hcomes => hinv.paused_later hcomes hstep⟩

/-- Two apps register, the first sends a frame once it is below the back, and the second
leaves. `last` is what happens after the first app's thread has rejected the frame. -/
def rejectionSchedule (last : List ThreadEvent) : List ThreadEvent :=
  let request (connection : ConnectionId) (message : MatrixServerMessage) (rand : Nat) :=
    ThreadEvent.call (.handleRequest connection message rand fun _ => 0)
  [request 1 { messageType := .registerApp } 7, .run (.ipcReceive 1), .run (.ipcReceive 1),
    request 2 { messageType := .registerApp } 8, .run (.ipcReceive 2), .run (.ipcReceive 2),
    request 1 { messageType := .setScreenFrame, appID := 7 } 0, .run (.ipcReceive 1),
    request 2 { messageType := .appKill, appID := 8 } 0] ++ last

theorem top_not_paused_when_rejected_in_time :
    ∃ st : ThreadedServer, (places st.shared.1.apps).getLast? = some (1, 7) ∧
      lastWord (1, 7) st.shared.2 ≠ some .pause := by
  obtain ⟨st, hreach, htest⟩ := TransitionSystem.ReachableUnder.of_test
    (M := threadRuns (fun _ => true) (.start {} []))
    (fun st e => FreshIds st e ∧ NoneComesUpRejected (fun _ => true) st e)
    (rejectionSchedule [.run (.ipcReceive 1), .run (.ipcReceive 2)])
    (fun st => (places st.shared.1.apps).getLast? == some (1, 7)) (by decide)
  have hplace := beq_iff_eq.mp htest
  exact ⟨st, hplace, (top_app_not_left_paused (fun _ => true) {} [] st hreach).1 _ hplace⟩

/-- The second app's appKill comes between the rejection and its appPause. -/
theorem rejected_frame_pauses_top_app :
    ∃ st, (threadRuns (fun _ => true) (.start {} [])).ReachableUnder FreshIds st ∧
      (places st.shared.1.apps).getLast? = some (1, 7) ∧
      lastWord (1, 7) st.shared.2 = some .pause ∧
      st.shared.2.drop 5 =
        [.send 1 { messageType := .appResume, appID := 7 },
          .send 1 { messageType := .appPause, appID := 7 }] := by
  obtain ⟨st, hreach, htest⟩ := TransitionSystem.ReachableUnder.of_test
    (M := threadRuns (fun _ => true) (.start {} [])) FreshIds
    (rejectionSchedule [.run (.ipcReceive 2), .run (.ipcReceive 1)])
    (fun st => (places st.shared.1.apps).getLast? = some (1, 7) ∧
      lastWord (1, 7) st.shared.2 = some .pause ∧
      st.shared.2.drop 5 =
        [.send 1 { messageType := .appResume, appID := 7 },
          .send 1 { messageType := .appPause, appID := 7 }]) (by decide)
  exact ⟨st, hreach, of_decide_eq_true htest⟩

end MatrixServer
