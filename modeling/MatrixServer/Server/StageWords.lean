import MatrixServer.Server.Sections
import MatrixServer.Server.TopWords

/-!
What each section and job does to the apps and to what they are told.
Only the rejection of a frame says a word about pausing outside the mutex; all
other stages take a step of `AppsStep`. A rejection is right when it is decided,
and it is then all that its thread has left to do.
-/

namespace MatrixServer

/-- A stage that registers an app gets an id that no app has. -/
def Server.generatesUnused (s : Server) : Stage → Bool
  | .locked (.registerApp _ rand) => (rand : Int) ∉ appIds s.apps
  | _ => true

/-- A stage that sends the appPause for a rejected frame to the app at the back. -/
def Server.rejectsTop (s : Server) : Stage → Bool
  | .job (.rejectFrame connection appId) => (places s.apps).getLast? = some (connection, appId)
  | _ => false

/-- The app that an appKill or a tick leaves at the back of `apps`. -/
def Server.leftOnTop (s : Server) : Stage → Option Place
  | .locked (.appKill message) =>
      (places (s.apps.filter fun app => app.appId ≠ message.appID)).getLast?
  | .locked (.tickApps input) =>
      (places (s.apps.filter fun app => !input.isDead app.connection)).getLast?
  | _ => none

/-- The connection whose request a thread works on, while it may come to reject a frame. -/
def Stage.request : Stage → Option ConnectionId
  | .locked (.registerApp connection _) => some connection
  | .locked (.checkTopApp connection _ _) => some connection
  | .job (.rejectFrame connection _) => some connection
  | _ => none

/-- The job of sending the appPause for a frame of this app. -/
def Stage.rejects (place : Place) : Stage → Bool
  | .job (.rejectFrame connection appId) => (connection, appId) = place
  | _ => false

/-- A message that a thread has still to send is no word about pausing. -/
def Stage.Wordless : Stage → Prop
  | .job (.send _ message) => controlOf message.messageType = none
  | _ => True

theorem Stage.rejects_iff {place : Place} {stage : Stage} :
    stage.rejects place = true ↔ stage = .job (.rejectFrame place.1 place.2) := by
  constructor
  · intro h
    unfold Stage.rejects at h
    split at h
    · rw [← of_decide_eq_true h]
    · cases h
  · rintro rfl
    exact decide_eq_true rfl

theorem rejectsTop_iff {s : Server} {stage : Stage} :
    s.rejectsTop stage = true ↔ ∃ place : Place, stage = .job (.rejectFrame place.1 place.2) ∧
      (places s.apps).getLast? = some place := by
  constructor
  · intro h
    unfold Server.rejectsTop at h
    split at h
    · rename_i connection appId
      exact ⟨(connection, appId), rfl, of_decide_eq_true h⟩
    · cases h
  · rintro ⟨place, rfl, hplace⟩
    exact decide_eq_true hplace

theorem rejectsTop_of_request {s : Server} {stage : Stage} (h : stage.request = none) :
    s.rejectsTop stage = false := by
  rw [← Bool.not_eq_true, rejectsTop_iff]
  rintro ⟨place, rfl, _⟩
  cases h

/-- What a frame that is shown leaves to do: no word about pausing and no rejection. -/
theorem mem_frameJobs {connection : ConnectionId} {message : MatrixServerMessage}
    {beyond : Nat → UInt8} {index : Nat} {job : Job}
    (h : job ∈ Server.frameJobs connection message beyond index) :
    (Stage.job job).Wordless ∧ (Stage.job job).request = none := by
  simp only [Server.frameJobs, List.mem_append, List.mem_map, List.mem_cons,
    List.not_mem_nil, or_false] at h
  obtain (⟨entry, _, rfl⟩ | rfl | rfl) | hlit := h
  · exact ⟨trivial, rfl⟩
  · exact ⟨trivial, rfl⟩
  · exact ⟨rfl, rfl⟩
  · split at hlit
    · cases List.mem_singleton.mp hlit
      exact ⟨trivial, rfl⟩
    · exact False.elim (List.not_mem_nil hlit)

theorem mem_rendererJobs {s : Server} {message : MatrixServerMessage} {job : Job}
    (h : job ∈ s.rendererJobs message) :
    (Stage.job job).Wordless ∧ (Stage.job job).request = none := by
  obtain ⟨_, _, rfl⟩ := List.mem_mapIdx.mp h
  exact ⟨trivial, rfl⟩

/-- A job that a section leaves belongs to no request, or it is the rejection of a frame that
is not the top app's, and all that is left. -/
theorem mem_runSection {s : Server} {part : Section} {job : Job}
    (h : job ∈ (s.runSection part).2) :
    (Stage.job job).Wordless ∧ ((Stage.job job).request = none ∨
      ∃ connection message beyond, part = .checkTopApp connection message beyond ∧
        s.isTopApp message.appID = false ∧ job = .rejectFrame connection message.appID ∧
        (s.runSection part).2 = [job]) := by
  cases part with
  | registerApp connection rand =>
      cases List.mem_singleton.mp h
      exact ⟨rfl, .inl rfl⟩
  | checkTopApp connection message beyond =>
      simp only [Server.runSection] at h ⊢
      cases htop : s.isTopApp message.appID with
      | true =>
          rw [if_pos htop] at h
          obtain ⟨jobs, hjobs, hjob⟩ := List.mem_flatten.mp h
          obtain ⟨_, _, rfl⟩ := List.mem_mapIdx.mp hjobs
          exact ⟨(mem_frameJobs hjob).1, .inl (mem_frameJobs hjob).2⟩
      | false =>
          rw [htop, if_neg Bool.false_ne_true] at h
          cases List.mem_singleton.mp h
          exact ⟨trivial, .inr ⟨_, _, _, rfl, htop, rfl, rfl⟩⟩
  | setParamSchema message => exact ⟨(mem_rendererJobs h).1, .inl (mem_rendererJobs h).2⟩
  | setAppState _ _ | appKill _ | sendTopSchema _ | clientMessage _ _ | killTopApp _ | tickApps _ =>
      exact False.elim (List.not_mem_nil h)

/-- A stage of a program belongs to no request, or it is all of the program of one. -/
theorem mem_program {s : Server} {c : ServerCall} {stage : Stage} (h : stage ∈ s.program c) :
    stage.Wordless ∧ s.rejectsTop stage = false ∧ (stage.request = none ∨
      s.program c = [stage] ∧ ∃ connection message rand beyond,
        c = .handleRequest connection message rand beyond ∧
          stage.request = some connection) := by
  cases c with
  | newConnection connection =>
      cases List.mem_singleton.mp h
      exact ⟨trivial, rfl, .inl rfl⟩
  | handleRequest connection message rand beyond =>
      simp only [Server.program] at h ⊢
      cases htype : message.messageType <;> simp only [htype] at h ⊢
      case registerApp =>
        split at h
        · rename_i hzero
          cases List.mem_singleton.mp h
          exact ⟨trivial, rfl, .inr ⟨if_pos hzero, _, _, _, _, rfl, rfl⟩⟩
        · exact False.elim (List.not_mem_nil h)
      case setScreenFrame =>
        cases List.mem_singleton.mp h
        exact ⟨trivial, rfl, .inr ⟨rfl, _, _, _, _, rfl, rfl⟩⟩
      case appParamValues =>
        obtain ⟨job, hjob, rfl⟩ := List.mem_map.mp h
        obtain ⟨hwordless, hnone⟩ := mem_rendererJobs hjob
        exact ⟨hwordless, rejectsTop_of_request hnone, .inl hnone⟩
      case getServerInfo =>
        cases List.mem_singleton.mp h
        exact ⟨rfl, rfl, .inl rfl⟩
      case appPause | appResume | appKill | appParamSchema =>
        cases List.mem_singleton.mp h
        exact ⟨trivial, rfl, .inl rfl⟩
      all_goals exact False.elim (List.not_mem_nil h)
  | clientMessage renderer message =>
      simp only [Server.program] at h
      cases htype : message.messageType <;> simp only [htype] at h
      case getServerInfo =>
        obtain rfl | h := List.mem_cons.mp h
        · exact ⟨trivial, rfl, .inl rfl⟩
        · cases List.mem_singleton.mp h
          exact ⟨trivial, rfl, .inl rfl⟩
      case setAppParam | getAppParams | imuData | audioDataMessage | joystickData =>
        cases List.mem_singleton.mp h
        exact ⟨trivial, rfl, .inl rfl⟩
      all_goals exact False.elim (List.not_mem_nil h)
  | tick input =>
      simp only [Server.program, List.mem_append, List.mem_cons, List.not_mem_nil, or_false] at h
      obtain hkill | rfl | rfl := h
      · split at hkill
        · cases List.mem_singleton.mp hkill
          exact ⟨trivial, rfl, .inl rfl⟩
        · exact False.elim (List.not_mem_nil hkill)
      · exact ⟨trivial, rfl, .inl rfl⟩
      · exact ⟨trivial, rfl, .inl rfl⟩

theorem onRenderer_cases (s : Server) (index : Nat) (f : Renderer → Renderer × List Effect) :
    (s.onRenderer index f).1.apps = s.apps ∧
      ∀ e ∈ (s.onRenderer index f).2, ∃ r, e ∈ (f r).2 := by
  simp only [Server.onRenderer]
  split
  · exact ⟨rfl, List.forall_mem_nil _⟩
  · exact ⟨rfl, fun _ he => ⟨_, he⟩⟩

theorem runJob_appsStep {s : Server} {job : Job} (hwordless : (Stage.job job).Wordless)
    (hnot : ∀ connection appId, job ≠ .rejectFrame connection appId) :
    AppsStep s (s.runJob job).1 (s.runJob job).2 := by
  cases job with
  | addConnection _ | removeConnections _ => exact .quiet rfl quiet_nil
  | send connection message =>
      refine .quiet rfl fun e he => ?_
      cases List.mem_singleton.mp he
      exact hwordless
  | rejectFrame connection appId => exact absurd rfl (hnot connection appId)
  | rendererSend _ _ | render _ =>
      refine .quiet rfl fun e he => ?_
      cases List.mem_singleton.mp he
      trivial
  | storeEntry renderer beyond entry =>
      obtain ⟨happs, heffects⟩ := onRenderer_cases s renderer
        fun r => Server.storeEntry s.serverConfig beyond (r, []) entry
      refine .quiet (congrArg places happs) fun e he => ?_
      obtain ⟨r, hstored⟩ := heffects e he
      rw [(Server.storeEntry_eq s.serverConfig beyond r [] entry).2, List.nil_append,
        Option.mem_toList, Server.entryCopy] at hstored
      split at hstored
      · cases hstored
      · cases hstored
        trivial
  | setGlobalBrightness renderer brightness =>
      obtain ⟨happs, heffects⟩ := onRenderer_cases s renderer
        fun r => (r.setGlobalBrightness brightness, [])
      refine .quiet (congrArg places happs) fun e he => ?_
      obtain ⟨r, hlit⟩ := heffects e he
      exact False.elim (List.not_mem_nil hlit)

theorem runSection_appsStep {s : Server} (hids : DistinctIds s.apps) {part : Section}
    (hunused : s.generatesUnused (.locked part) = true) :
    AppsStep s (s.runSection part).1.1 (s.runSection part).1.2 := by
  cases part with
  | registerApp connection rand =>
      refine .register connection rand (of_decide_eq_true hunused) ?_
      simp [Server.runSection, places]
  | checkTopApp connection message beyond => exact .quiet rfl quiet_nil
  | setAppState appId appState =>
      refine .quiet ?_ quiet_nil
      exact updateApp_places (f := (·.setAppState appState)) (fun _ => rfl) (fun _ => rfl) _ _
  | appKill message => exact appKill_appsStep s message
  | setParamSchema message =>
      refine .quiet ?_ quiet_nil
      exact updateApp_places (f := (·.setParamSchema (message.appParamSchema.getD {})))
        (fun _ => rfl) (fun _ => rfl) _ _
  | sendTopSchema renderer =>
      refine .quiet rfl fun e he => ?_
      simp only [Server.runSection] at he
      split at he
      · exact False.elim (List.not_mem_nil he)
      · cases List.mem_singleton.mp he
        trivial
  | clientMessage renderer message => exact .quiet rfl (clientMessage_quiet s renderer message)
  | killTopApp input =>
      refine .quiet rfl fun e he => ?_
      obtain ⟨app, _, rfl⟩ := Server.mem_killTopApp he
      rfl
  | tickApps input =>
      have hcalls := Server.tick_processCallsOnly s input
      refine removeDeadApps_appsStep (hcalls.apps ▸ hids) input.isDead hcalls.apps fun e he => ?_
      obtain rfl | ⟨pid, rfl⟩ := hcalls.effects e he
      · trivial
      · trivial

/-- Sending an appPause leaves the top app unpaused exactly when it goes elsewhere. -/
theorem topNotPaused_reject {s : Server} {trace : Trace} (htop : TopNotPaused (s, trace))
    (connection : ConnectionId) (appId : Int) :
    TopNotPaused
        (s, trace ++ [.send connection { messageType := .appPause, appID := appId }]) ↔
      s.rejectsTop (.job (.rejectFrame connection appId)) = false := by
  rw [Server.rejectsTop, decide_eq_false_iff_not]
  constructor
  · intro hafter hplace
    refine hafter _ hplace ?_
    simp [lastWord_append, hearAt, controlOf]
  · intro hother place hplace
    have hne : (connection, appId) ≠ place := fun heq => hother (heq ▸ hplace)
    simpa [lastWord_append, hearAt, hne] using htop place hplace

/-- An appPause for the app at the back leaves it paused. -/
theorem not_topNotPaused_reject {s : Server} (trace : Trace) {place : Place}
    (hplace : (places s.apps).getLast? = some place) :
    ¬ TopNotPaused
        (s, trace ++ [.send place.1 { messageType := .appPause, appID := place.2 }]) := by
  intro h
  refine h place hplace ?_
  simp [lastWord_append, hearAt, controlOf]

/-- A stage does to the apps what `AppsStep` allows, or rejects a frame. -/
theorem runStage_cases {st : Server × Trace} (hids : DistinctIds st.1.apps)
    {thread : ServerThread} {stage : Stage} (hwordless : stage.Wordless)
    (hunused : st.1.generatesUnused stage = true) {done : (Server × Trace) × List Stage}
    (hrun : runStage st thread stage = some done) :
    (∃ effects, AppsStep st.1 done.1.1 effects ∧ done.1.2 = st.2 ++ effects ∧
        st.1.rejectsTop stage = false) ∨
      ∃ connection appId, stage = .job (.rejectFrame connection appId) ∧
        done.1 = (st.1, st.2 ++
          [.send connection { messageType := .appPause, appID := appId }]) := by
  cases stage with
  | locked part =>
      cases hrun
      exact .inl ⟨_, runSection_appsStep hids hunused, rfl, rfl⟩
  | job job =>
      cases hrun
      by_cases hreject : ∃ connection appId, job = .rejectFrame connection appId
      · obtain ⟨connection, appId, rfl⟩ := hreject
        exact .inr ⟨connection, appId, rfl, rfl⟩
      · left
        refine ⟨_, runJob_appsStep hwordless fun connection appId heq =>
          hreject ⟨connection, appId, heq⟩, rfl, ?_⟩
        cases job with
        | rejectFrame connection appId => exact absurd ⟨connection, appId, rfl⟩ hreject
        | _ => rfl

theorem runJob_places (s : Server) (job : Job) :
    places (s.runJob job).1.apps = places s.apps := by
  cases job with
  | storeEntry renderer _ _ | setGlobalBrightness renderer _ =>
      exact congrArg places (onRenderer_cases s renderer _).1
  | _ => rfl

/-- The back of `apps` changes only where an app registers or others leave. -/
theorem runStage_back {st : Server × Trace} {thread : ServerThread} {stage : Stage}
    {done : (Server × Trace) × List Stage} (hrun : runStage st thread stage = some done) :
    (places done.1.1.apps).getLast? = (places st.1.apps).getLast? ∨
      (∃ connection rand, stage = .locked (.registerApp connection rand) ∧
        (places done.1.1.apps).getLast? = some (connection, (rand : Int))) ∨
      (places done.1.1.apps).getLast? = st.1.leftOnTop stage := by
  cases stage with
  | job job =>
      cases hrun
      exact .inl (congrArg List.getLast? (runJob_places st.1 job))
  | locked part =>
      cases hrun
      cases part with
      | registerApp connection rand =>
          refine .inr (.inl ⟨connection, rand, rfl, ?_⟩)
          simp [Server.runSection, places]
      | setAppState appId appState =>
          exact .inl (congrArg List.getLast?
            (updateApp_places (f := (·.setAppState appState)) (fun _ => rfl) (fun _ => rfl) _ _))
      | setParamSchema message =>
          exact .inl (congrArg List.getLast?
            (updateApp_places (f := (·.setParamSchema (message.appParamSchema.getD {})))
              (fun _ => rfl) (fun _ => rfl) _ _))
      | appKill message => exact .inr (.inr rfl)
      | tickApps input =>
          refine .inr (.inr ?_)
          rw [Server.leftOnTop, ← Server.tick_apps]
          rfl
      | checkTopApp _ _ _ | sendTopSchema _ | clientMessage _ _ | killTopApp _ => exact .inl rfl

/-- The appPause and the appResume that change who is on top are no rejections. -/
theorem runStage_leftOnTop {st : Server × Trace} {thread : ServerThread} {stage : Stage}
    {place : Place} (hplace : place ∈ st.1.leftOnTop stage)
    {done : (Server × Trace) × List Stage} (hrun : runStage st thread stage = some done) :
    stage.request = none ∧ (places done.1.1.apps).getLast? = some place := by
  cases stage with
  | job _ => cases hplace
  | locked part =>
      cases part with
      | appKill message =>
          cases hrun
          exact ⟨rfl, hplace⟩
      | tickApps input =>
          cases hrun
          rw [← Option.mem_def.mp hplace, Server.leftOnTop, ← Server.tick_apps]
          exact ⟨rfl, rfl⟩
      | _ => cases hplace

/-- A stage that a thread puts first belongs to no request, or it is the rejection of a frame:
this is all that the check of the frame leaves, and it goes below the back. -/
theorem runStage_stages {st : Server × Trace} {thread : ServerThread} {stage next : Stage}
    {done : (Server × Trace) × List Stage} (hrun : runStage st thread stage = some done)
    (hnext : next ∈ done.2) :
    next.Wordless ∧ done.1.1.rejectsTop next = false ∧ (next.request = none ∨
      done.2 = [next] ∧ stage.request = next.request) := by
  cases stage with
  | job job =>
      cases hrun
      exact False.elim (List.not_mem_nil hnext)
  | locked part =>
      cases hrun
      obtain ⟨job, hjob, rfl⟩ := List.mem_map.mp hnext
      obtain ⟨hwordless, hnone | ⟨connection, message, beyond, rfl, htop, rfl, hjobs⟩⟩ :=
        mem_runSection hjob
      · exact ⟨hwordless, rejectsTop_of_request hnone, .inl hnone⟩
      · refine ⟨hwordless, ?_, .inr ⟨?_, rfl⟩⟩
        · rw [Server.rejectsTop, decide_eq_false_iff_not, getLast?_places]
          intro hplace
          obtain ⟨app, happ, heq⟩ := Option.map_eq_some_iff.mp hplace
          have hback : st.1.apps.getLast? = some app := happ
          have hid : app.appId = message.appID := congrArg Prod.snd heq
          simp [Server.isTopApp, Server.topApp, hback, hid] at htop
        · rw [hjobs, List.map_singleton]

end MatrixServer
