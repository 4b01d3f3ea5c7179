import MatrixServer.Server.SchemaMessages

/-!
The schema that the parameter panel of a browser shows.
Nothing is sent when the app on top goes, and a schema is passed on whoever sent it, so the
panel describes the app on top as long as neither happens at the wrong time.
-/

namespace MatrixServer
open TransitionRuns

/-- If the app on top has sent a schema, the last one that the renderer was sent is this one,
and a `setAppParam` with the id that came with it reaches this app. -/
def PanelDescribesTop (control : Nat) (st : Server × Trace) : Prop :=
  ∀ top ∈ st.1.topApp, top.hasSchema → ∀ last ∈ lastSchema control st.2,
    Announces last top ∧ ∀ message : MatrixServerMessage, message.messageType = .setAppParam →
      message.appID = last.appID →
        st.1.clientMessage control message = [.send top.connection message]

/-- A schema comes from the app on top, unless that app has sent none; and the app that comes
up when the one on top is removed has sent none, unless it was the last to be announced. -/
def KeepsPanel (control : Nat) (st : Server × Trace) (c : ServerCall) : Prop :=
  (∀ message ∈ schemaMessage c, ∀ top ∈ st.1.topApp, top.hasSchema →
    top.appId = message.appID) ∧
  ∀ top ∈ st.1.topApp, removes c top → ∀ app ∈ (st.1.apps.filter (!removes c ·)).getLast?,
    app.hasSchema → ∀ last ∈ lastSchema control st.2, Announces last app

instance (control : Nat) (st : Server × Trace) (c : ServerCall) :
    Decidable (KeepsPanel control st c) :=
  inferInstanceAs (Decidable (_ ∧ _))

/-- An app with a schema is the first in the list with its id, the one a message finds. -/
def SchemaFirst (apps : List App) : Prop :=
  apps.Pairwise fun a b => b.hasSchema → a.appId ≠ b.appId

theorem SchemaFirst.find_top {apps : List App} (h : SchemaFirst apps) {top : App}
    (htop : top ∈ apps.getLast?) (hschema : top.hasSchema) :
    (apps.find? fun app => app.appId = top.appId) = some top := by
  rw [SchemaFirst, ControlStack.Stack.eq_concat htop, List.pairwise_append] at h
  refine List.find?_eq_some_iff_append.mpr ⟨by simp, apps.dropLast, [],
    ControlStack.Stack.eq_concat htop, fun app happ => ?_⟩
  simpa using h.2.2 app happ top (List.mem_singleton_self top) hschema

/-- The back of the list after an update: updated if it is the first with the id, and else
no app with a schema that has the id. -/
theorem SchemaFirst.top_updateApp {appId : Int} {f : App → App} {apps : List App}
    (h : SchemaFirst apps) {top' : App} (htop : top' ∈ (Server.updateApp appId f apps).getLast?) :
    ∃ top ∈ apps.getLast?, top.appId = appId ∧ top' = f top ∨
      top' = top ∧ (top.hasSchema → top.appId ≠ appId) := by
  induction apps with
  | nil => cases htop
  | cons first apps ih =>
      obtain ⟨hfirst, hrest⟩ := List.pairwise_cons.mp h
      simp only [Server.updateApp] at htop
      split at htop
      · rename_i heq
        cases apps with
        | nil => exact ⟨first, rfl, .inl ⟨heq, (Option.some.inj htop).symm⟩⟩
        | cons second apps =>
            refine ⟨top', htop, .inr ⟨rfl, fun hschema => ?_⟩⟩
            exact heq ▸ (hfirst top' (List.mem_of_getLast? htop) hschema).symm
      · rename_i hne
        cases apps with
        | nil => exact ⟨first, rfl, .inr ⟨(Option.some.inj htop).symm, fun _ => hne⟩⟩
        | cons second apps =>
            have hrest' : top' ∈ (Server.updateApp appId f (second :: apps)).getLast? := by
              rw [List.getLast?_cons] at htop
              cases hlast : (Server.updateApp appId f (second :: apps)).getLast? with
              | none => cases Server.updateApp_eq_nil (List.getLast?_eq_none_iff.mp hlast)
              | some last => simpa [hlast] using htop
            exact ih hrest hrest'

section
variable {appId : Int} {f : App → App} (hid : ∀ app, (f app).appId = app.appId)
include hid

theorem mem_updateApp_or {apps : List App} {app : App}
    (happ : app ∈ Server.updateApp appId f apps) : app ∈ apps ∨ app.appId = appId := by
  induction apps with
  | nil => exact False.elim (List.not_mem_nil happ)
  | cons first apps ih =>
      simp only [Server.updateApp] at happ
      split at happ
      · rename_i hfirst
        cases List.mem_cons.mp happ with
        | inl heq => exact .inr (by rw [heq, hid, hfirst])
        | inr hrest => exact .inl (List.mem_cons_of_mem _ hrest)
      · cases List.mem_cons.mp happ with
        | inl heq => exact .inl (heq ▸ List.mem_cons_self)
        | inr hrest => exact (ih hrest).imp_left (List.mem_cons_of_mem _)

theorem SchemaFirst.updateApp {apps : List App} (h : SchemaFirst apps) :
    SchemaFirst (Server.updateApp appId f apps) := by
  induction apps with
  | nil => exact List.Pairwise.nil
  | cons first apps ih =>
      obtain ⟨hfirst, hrest⟩ := List.pairwise_cons.mp h
      simp only [Server.updateApp]
      split
      · exact List.pairwise_cons.mpr ⟨fun app happ => (hid first).symm ▸ hfirst app happ, hrest⟩
      · rename_i hne
        refine List.pairwise_cons.mpr ⟨fun app happ hschema => ?_, ih hrest⟩
        cases mem_updateApp_or hid happ with
        | inl hold => exact hfirst app hold hschema
        | inr heq => exact heq.symm ▸ hne

end

theorem PanelStep.schemaFirst {control : Nat} {st st' : Server × Trace} {c : ServerCall}
    (h : PanelStep control st c st') (hfirst : SchemaFirst st.1.apps) :
    SchemaFirst st'.1.apps := by
  cases h with
  | setState appId state _ _ happs =>
      rw [happs]
      exact hfirst.updateApp (f := (·.setAppState state)) fun _ => rfl
  | register app hnew _ _ happs =>
      refine happs ▸ List.pairwise_append.mpr ⟨hfirst, List.pairwise_singleton _ app, ?_⟩
      intro other _ new hmem hschema
      rw [List.mem_singleton.mp hmem, hnew] at hschema
      cases hschema
  | schema message _ _ happs =>
      rw [happs]
      exact hfirst.updateApp (f := (·.setParamSchema _)) fun _ => rfl
  | answer message _ _ happs => exact happs ▸ hfirst
  | remove _ happs => exact happs ▸ hfirst.filter _

/-- With the schema goes the address: the app that a message finds under the id is the top. -/
theorem panelDescribesTop_iff {control : Nat} {st : Server × Trace}
    (hfirst : SchemaFirst st.1.apps) :
    PanelDescribesTop control st ↔ ∀ top ∈ st.1.topApp, top.hasSchema →
      ∀ last ∈ lastSchema control st.2, Announces last top := by
  constructor
  · exact fun h top htop hschema last hlast => (h top htop hschema last hlast).1
  · intro h top htop hschema last hlast
    have hannounces := h top htop hschema last hlast
    refine ⟨hannounces, fun message htype hid => ?_⟩
    simp only [Server.clientMessage, htype, hid, hannounces.1, hfirst.find_top htop hschema]
    split
    · rfl
    · rw [htop]

theorem getLast?_filter_of_keep {apps : List App} {top : App} (htop : top ∈ apps.getLast?)
    (keep : App → Bool) (hkeep : keep top = true) :
    (apps.filter keep).getLast? = some top := by
  conv_lhs => rw [ControlStack.Stack.eq_concat htop]
  simp [hkeep]

theorem keepsPanel_of_quiet {control : Nat} {st : Server × Trace} {c : ServerCall}
    (hschema : schemaMessage c = none) (hkeep : ∀ app, removes c app = false) :
    KeepsPanel control st c := by
  simp [KeepsPanel, hschema, hkeep]

/-- A step keeps the panel right exactly when it meets the condition. -/
theorem PanelStep.describes_iff {control : Nat} {st st' : Server × Trace} {c : ServerCall}
    (h : PanelStep control st c st') (hfirst : SchemaFirst st.1.apps)
    (hst : PanelDescribesTop control st) :
    PanelDescribesTop control st' ↔ KeepsPanel control st c := by
  rw [panelDescribesTop_iff (h.schemaFirst hfirst)]
  rw [panelDescribesTop_iff hfirst] at hst
  cases h with
  | setState appId state hschema hkeep happs hlast =>
      refine iff_of_true ?_ (keepsPanel_of_quiet hschema hkeep)
      intro top' htop' hsent last hmem
      simp only [Server.topApp, happs] at htop'
      obtain ⟨top, htop, ⟨_, rfl⟩ | ⟨rfl, _⟩⟩ := hfirst.top_updateApp htop'
      · exact hst top htop hsent last (hlast ▸ hmem)
      · exact hst _ htop hsent last (hlast ▸ hmem)
  | register app hnew hschema hkeep happs hlast =>
      refine iff_of_true ?_ (keepsPanel_of_quiet hschema hkeep)
      intro top htop hsent
      simp only [Server.topApp, happs, List.getLast?_concat, Option.mem_some_iff] at htop
      rw [← htop, hnew] at hsent
      cases hsent
  | schema message hschema hkeep happs hlast =>
      simp only [KeepsPanel, hschema, hkeep, hlast, Server.topApp, happs, Option.mem_some_iff,
        Bool.false_eq_true, false_implies, implies_true, and_true, forall_eq']
      constructor
      · intro h top htop hsent
        have hne : (Server.updateApp message.appID
            (·.setParamSchema (message.appParamSchema.getD {})) st.1.apps) ≠ [] := by
          intro hnil
          rw [Server.updateApp_eq_nil hnil] at htop
          cases htop
        have htop' := List.getLast?_eq_some_getLast hne
        obtain ⟨other, hother, ⟨hid, _⟩ | ⟨heq, _⟩⟩ := hfirst.top_updateApp htop'
        · cases Option.some.inj (htop.symm.trans hother)
          exact hid
        · cases Option.some.inj (htop.symm.trans hother)
          exact ((h _ htop' (heq ▸ hsent)).1.trans (congrArg App.appId heq)).symm
      · intro h top' htop' hsent
        obtain ⟨top, htop, ⟨hid, rfl⟩ | ⟨rfl, hother⟩⟩ := hfirst.top_updateApp htop'
        · exact ⟨hid.symm, rfl⟩
        · exact absurd (h _ htop hsent) (hother hsent)
  | answer message hschema hkeep happs hannounces hlast =>
      refine iff_of_true ?_ (keepsPanel_of_quiet hschema hkeep)
      intro top htop _ last hmem
      cases Option.some.inj (hlast.symm.trans hmem)
      exact hannounces top (by simpa only [Server.topApp, happs] using htop)
  | remove hschema happs hlast =>
      simp only [KeepsPanel, hschema, Server.topApp, happs, hlast, Option.not_mem_none,
        false_implies, implies_true, true_and]
      constructor
      · exact fun h _ _ _ => h
      · intro h app happ hsent
        have hne : st.1.apps ≠ [] := by
          intro hnil
          rw [hnil] at happ
          cases happ
        have htop := List.getLast?_eq_some_getLast hne
        cases hremoved : removes c (st.1.apps.getLast hne) with
        | true => exact h _ htop hremoved app happ hsent
        | false =>
            have hkept := getLast?_filter_of_keep htop (!removes c ·) (by simp [hremoved])
            cases Option.some.inj (hkept.symm.trans happ)
            exact hst _ htop hsent

/-- What holds of a run in which every step keeps the panel right. -/
structure PanelInv (control : Nat) (st : Server × Trace) : Prop where
  renderer : control < st.1.renderers.length
  schemaFirst : SchemaFirst st.1.apps
  describes : PanelDescribesTop control st

theorem PanelInv.call {control : Nat} {st : Server × Trace} (h : PanelInv control st)
    {c : ServerCall} (hguard : KeepsPanel control st c) :
    PanelInv control ((st.1.call c).1, st.2 ++ (st.1.call c).2) := by
  have hstep := panelStep_of_call h.renderer c
  refine ⟨?_, hstep.schemaFirst h.schemaFirst,
    (hstep.describes_iff h.schemaFirst h.describes).mpr hguard⟩
  have hshapes := congrArg List.length (Server.call_shapes st.1 c).2
  rw [List.length_map, List.length_map] at hshapes
  exact hshapes ▸ h.renderer

/-- The panel describes the app on top in every run whose schemas come from the app on top and
in which no app with a schema comes up unannounced; the first step of a run that does
otherwise breaks it. -/
theorem panel_describes_top {serverConfig : ServerConfig} {renderers : List Renderer}
    {control : Nat} (hcontrol : control < renderers.length) {st : Server × Trace}
    (h : (serverRuns (.start serverConfig renderers)).ReachableUnder (KeepsPanel control) st) :
    PanelDescribesTop control st ∧
      ∀ c st', (serverRuns (.start serverConfig renderers)).step st c = some st' →
        (PanelDescribesTop control st' ↔ KeepsPanel control st c) := by
  have hinv : PanelInv control st := by
    refine h.invariant (PanelInv control) ?_ ?_
    · refine ⟨hcontrol, List.Pairwise.nil, ?_⟩
      intro top htop
      cases htop
    · intro s c s' hs hguard hstep
      cases Option.some.inj hstep
      exact hs.call hguard
  refine ⟨hinv.describes, fun c st' hstep => ?_⟩
  cases Option.some.inj hstep
  exact (panelStep_of_call hinv.renderer c).describes_iff hinv.schemaFirst hinv.describes

def panelRenderers : List Renderer := [{ kind := .webSocketSimulator false, screens := [] }]

def registers (connection rand : Nat) : ServerCall :=
  .handleRequest connection { messageType := .registerApp } rand fun _ => 0

def sendsSchema (connection : Nat) (appId : Int) (appName : String) : ServerCall :=
  .handleRequest connection
    { messageType := .appParamSchema, appID := appId, appParamSchema := some { appName } } 0
    fun _ => 0

def killReply (connection : Nat) (appId : Int) : ServerCall :=
  .handleRequest connection { messageType := .appKill, appID := appId } 0 fun _ => 0

/-- An app without a schema comes and goes over one that has sent its own. -/
theorem uncovered_menu_described :
    ∃ st, (serverRuns (.start {} panelRenderers)).ReachableUnder (KeepsPanel 0) st ∧
      (st.1.topApp.any App.hasSchema = true ∧ (lastSchema 0 st.2).isSome = true) ∧
        PanelDescribesTop 0 st := by
  obtain ⟨st, hreach, htest⟩ := TransitionSystem.ReachableUnder.of_test
    (M := serverRuns (.start {} panelRenderers)) (KeepsPanel 0)
    [registers 1 7, sendsSchema 1 7 "menu", registers 2 8, killReply 2 8]
    (fun st => st.1.topApp.any App.hasSchema && (lastSchema 0 st.2).isSome) (by decide)
  exact ⟨st, hreach, Bool.and_eq_true_iff.mp htest, (panel_describes_top (by decide) hreach).1⟩

instance (st : Server × Trace) : (c : ServerCall) → Decidable (FreshAppId st c)
  | .handleRequest _ message rand _ =>
      inferInstanceAs (Decidable
        (message.messageType = .registerApp ∧ message.appID = 0 →
          rand ≠ 0 ∧ Effect.generatedAppId rand ∉ st.2))
  | .newConnection _ | .clientMessage _ _ | .tick _ => .isTrue trivial

/-- A game started over the menu ends: the menu is on top and the panel shows the game. -/
theorem ended_game_still_shown :
    ∃ st, (serverRuns (.start {} panelRenderers)).ReachableUnder FreshAppId st ∧
      ¬ PanelDescribesTop 0 st := by
  obtain ⟨st, hreach, htest⟩ := TransitionSystem.ReachableUnder.of_test
    (M := serverRuns (.start {} panelRenderers)) FreshAppId
    [registers 1 7, sendsSchema 1 7 "menu", registers 2 8, sendsSchema 2 8 "game", killReply 2 8]
    (fun st => st.1.topApp.any (fun top => top.hasSchema && top.appId = 7) &&
      (lastSchema 0 st.2).any fun last => last.appID = 8) (by decide)
  refine ⟨st, hreach, fun h => ?_⟩
  simp only [Bool.and_eq_true, Option.any_eq_true, decide_eq_true_eq] at htest
  obtain ⟨⟨top, htop, hsent, hid⟩, last, hlast, hother⟩ := htest
  have hannounces := (h top htop hsent last hlast).1
  rw [Announces, hid, hother] at hannounces
  cases hannounces.1

end MatrixServer
