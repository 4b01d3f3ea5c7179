import MatrixServer.Server.AppStack

/-!
What each app was last told, by connection and id.
The step that a call, or a part of one, takes on the apps either keeps them and
says no word about pausing, registers one, or removes some; after each the app
at the back was not last told to pause if that was so before.
-/

namespace MatrixServer
open ControlStack

/-- Where an app is reached: its connection, and the id in the messages to it. -/
abbrev Place := ConnectionId × Int

def places (apps : List App) : List Place := apps.map fun app => (app.connection, app.appId)

/-- The last word at a place after one more effect; registering starts afresh. -/
def hearAt (place : Place) (last : Option Control) : Effect → Option Control
  | .generatedAppId generated => if generated = place.2 then none else last
  | .send connection message =>
      if (connection, message.appID) = place then (controlOf message.messageType).or last else last
  | _ => last

/-- The last `appPause` or `appResume` sent to an app since it registered. -/
def lastWord (place : Place) (trace : Trace) : Option Control := trace.foldl (hearAt place) none

/-- The app at the back was not last told to pause. -/
def TopNotPaused (st : Server × Trace) : Prop :=
  ∀ place ∈ (places st.1.apps).getLast?, lastWord place st.2 ≠ some .pause

theorem lastWord_append (place : Place) (trace effects : Trace) :
    lastWord place (trace ++ effects) = effects.foldl (hearAt place) (lastWord place trace) :=
  List.foldl_append

theorem hearAt_quiet {e : Effect} (h : e.Quiet) (place : Place) (last : Option Control) :
    hearAt place last e = last := by
  cases e with
  | send connection message =>
      have hnone : controlOf message.messageType = none := h
      simp [hearAt, hnone]
  | generatedAppId _ => exact False.elim h
  | rendererSend _ _ | copyColors _ _ | render _ | waitpid _ | fork => rfl

theorem lastWord_quiet {effects : Trace} (h : ∀ e ∈ effects, e.Quiet) (place : Place)
    (trace : Trace) : lastWord place (trace ++ effects) = lastWord place trace := by
  rw [lastWord_append]
  exact foldl_quiet (fun e he => hearAt_quiet he place) h _

theorem appIds_places (apps : List App) : appIds apps = (places apps).map Prod.snd := by
  simp [appIds, places]

theorem getLast?_places (apps : List App) :
    (places apps).getLast? = apps.getLast?.map fun app => (app.connection, app.appId) :=
  List.getLast?_map

theorem updateApp_places {f : App → App} (hid : ∀ app, (f app).appId = app.appId)
    (hconnection : ∀ app, (f app).connection = app.connection) (appId : Int) (apps : List App) :
    places (Server.updateApp appId f apps) = places apps := by
  induction apps with
  | nil => rfl
  | cons app apps ih =>
      simp only [Server.updateApp]
      split
      · simp [places, hid, hconnection]
      · simpa [places] using ih

/-- What a stage does to the apps and which words it sends, unless it rejects a frame. -/
inductive AppsStep (s s' : Server) : List Effect → Prop where
  | quiet {effects : List Effect} : places s'.apps = places s.apps →
      (∀ e ∈ effects, e.Quiet) → AppsStep s s' effects
  | register (connection : ConnectionId) (rand : Nat) : (rand : Int) ∉ appIds s.apps →
      places s'.apps = places s.apps ++ [(connection, (rand : Int))] →
      AppsStep s s' (Server.pauseTopApp s.apps ++ [.generatedAppId rand])
  | remove (keep : App → Bool) {before after : List Effect} : s'.apps = s.apps.filter keep →
      (∀ e ∈ before, e.Quiet) →
      ((places s'.apps).getLast? = (places s.apps).getLast? ∧ after = [] ∨
        after = Server.resumeTopApp s'.apps) →
      AppsStep s s' (before ++ after)

theorem lastWord_tellTopApp {messageType : MessageType} {word : Control}
    (hword : controlOf messageType = some word) {apps : List App} {place : Place}
    (hplace : place ∈ (places apps).getLast?) (trace : Trace) :
    lastWord place (trace ++ Server.tellTopApp messageType apps) = some word := by
  rw [getLast?_places] at hplace
  obtain ⟨app, htop, rfl⟩ := Option.map_eq_some_iff.mp hplace
  simp [Server.tellTopApp, htop, lastWord_append, hearAt, hword]

theorem AppsStep.topNotPaused {s s' : Server} {trace effects : Trace}
    (h : AppsStep s s' effects) (htop : TopNotPaused (s, trace)) :
    TopNotPaused (s', trace ++ effects) := by
  intro place hplace
  cases h with
  | quiet hplaces hquiet =>
      rw [lastWord_quiet hquiet]
      exact htop place (hplaces ▸ hplace)
  | register connection rand hunused hplaces =>
      rw [hplaces, List.getLast?_concat, Option.mem_some_iff] at hplace
      subst hplace
      simp [← List.append_assoc, lastWord_append, hearAt]
  | remove keep happs hquiet hafter =>
      rw [← List.append_assoc]
      obtain ⟨hsame, rfl⟩ | rfl := hafter
      · rw [List.append_nil, lastWord_quiet hquiet]
        exact htop place (hsame ▸ hplace)
      · rw [Server.resumeTopApp, lastWord_tellTopApp rfl hplace]
        exact fun hpause => by cases hpause

/-- The ids are natural numbers, and no two apps share one. -/
structure DistinctIds (apps : List App) : Prop where
  nodup : (appIds apps).Nodup
  natural : ∀ appId ∈ appIds apps, 0 ≤ appId

theorem AppsStep.distinctIds {s s' : Server} {effects : Trace} (h : AppsStep s s' effects)
    (hids : DistinctIds s.apps) : DistinctIds s'.apps := by
  cases h with
  | quiet hplaces _ =>
      have happIds : appIds s'.apps = appIds s.apps := by rw [appIds_places, hplaces, appIds_places]
      exact ⟨happIds ▸ hids.nodup, happIds ▸ hids.natural⟩
  | register connection rand hunused hplaces =>
      have happIds : appIds s'.apps = appIds s.apps ++ [(rand : Int)] := by
        rw [appIds_places, hplaces, appIds_places, List.map_append, List.map_singleton]
      refine ⟨?_, ?_⟩
      · rw [happIds, ← List.concat_eq_append]
        exact hids.nodup.concat hunused
      · intro appId hmem
        rw [happIds] at hmem
        cases List.mem_append.mp hmem with
        | inl hold => exact hids.natural appId hold
        | inr hlast => exact List.mem_singleton.mp hlast ▸ Int.natCast_nonneg rand
  | remove keep happs _ _ =>
      have hsub : (appIds s'.apps).Sublist (appIds s.apps) :=
        happs ▸ List.filter_sublist.map App.appId
      exact ⟨hsub.nodup hids.nodup, fun appId hmem => hids.natural appId (hsub.subset hmem)⟩

/-- With distinct ids the back of `apps` is known by its id. -/
theorem getLast?_of_appIds {apps apps' : List App} (hids : DistinctIds apps)
    (hsub : ∀ app ∈ apps', app ∈ apps)
    (h : (appIds apps').getLast? = (appIds apps).getLast?) :
    apps'.getLast? = apps.getLast? := by
  simp only [getLast?_appIds] at h
  cases htop' : apps'.getLast? with
  | none =>
      rw [htop', Option.map_none] at h
      exact (Option.map_eq_none_iff.mp h.symm).symm
  | some top' =>
      rw [htop', Option.map_some] at h
      obtain ⟨top, htop, hid⟩ := Option.map_eq_some_iff.mp h.symm
      rw [htop, List.inj_on_of_nodup_map hids.nodup (hsub _ (List.mem_of_getLast? htop'))
        (List.mem_of_getLast? htop) hid.symm]

theorem removeDeadApps_appsStep {s : Server} (hids : DistinctIds s.apps)
    (isDead : ConnectionId → Bool) {s₀ : Server} (happs : s.apps = s₀.apps) {before : List Effect}
    (hquiet : ∀ e ∈ before, e.Quiet) :
    AppsStep s₀ (s.removeDeadApps isDead).1 (before ++ (s.removeDeadApps isDead).2) := by
  have hkept : (s.removeDeadApps isDead).1.apps = s.apps.filter fun app => !isDead app.connection :=
    rfl
  refine .remove (fun app => !isDead app.connection) (happs ▸ hkept) hquiet ?_
  rw [← happs]
  by_cases hnil : (s.removeDeadApps isDead).1.apps = []
  · right
    have hnone : Server.topAppId (s.removeDeadApps isDead).1.apps = -1 := by rw [hnil]; rfl
    rw [hnil]
    exact if_neg fun htest => htest.2 hnone
  · have hsub : ∀ app ∈ (s.removeDeadApps isDead).1.apps, app ∈ s.apps :=
      fun app happ => List.mem_of_mem_filter happ
    have htest : _ ↔ _ ≠ (appIds s.apps).getLast? := topAppId_ne_iff (fun appId hmem => ?_) hnil
    · by_cases hsame : (appIds (s.removeDeadApps isDead).1.apps).getLast? =
          (appIds s.apps).getLast?
      · left
        refine ⟨?_, if_neg fun h => htest.mp h hsame⟩
        rw [getLast?_places, getLast?_places, getLast?_of_appIds hids hsub hsame]
      · exact .inr (if_pos (htest.mpr hsame))
    · obtain ⟨app, happ, rfl⟩ := List.mem_map.mp hmem
      have hnatural := hids.natural _ (List.mem_map_of_mem (hsub app happ))
      omega

theorem getLast?_filter {apps : List App} {keep : App → Bool}
    (h : ∀ app ∈ apps.getLast?, keep app = true) :
    (apps.filter keep).getLast? = apps.getLast? := by
  cases htop : apps.getLast? with
  | none => rw [List.getLast?_eq_none_iff.mp htop, List.filter_nil, List.getLast?_nil]
  | some top =>
      rw [Stack.eq_concat htop, List.filter_append, List.filter_cons_of_pos (h top htop)]
      simp

theorem appKill_appsStep (s : Server) (message : MatrixServerMessage) :
    AppsStep s (s.appKill message).1 (s.appKill message).2 := by
  have hstep : AppsStep s (s.appKill message).1 ([] ++ (s.appKill message).2) :=
    .remove (fun app => app.appId ≠ message.appID) rfl quiet_nil ?_
  · rwa [List.nil_append] at hstep
  · cases htop : s.isTopApp message.appID with
    | true =>
        right
        simp only [Server.appKill, htop, if_true]
    | false =>
        left
        refine ⟨?_, by simp only [Server.appKill, htop, Bool.false_eq_true, if_false]⟩
        rw [getLast?_places, getLast?_places, Server.appKill, getLast?_filter]
        intro app happ
        rw [decide_eq_true_iff]
        intro hid
        simp [Server.isTopApp, Server.topApp, Option.mem_def.mp happ, hid] at htop

end MatrixServer
