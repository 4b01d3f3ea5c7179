import MatrixServer.Foundation.ControlStack
import MatrixServer.Server.ServerCalls

/-!
The apps as a stack of which only the back may run.
The trace tells what each app was last told since it registered. Every call of
the server acts on the stack of ids and these last words as one operation of
`ControlStack`, or not at all, so the last word always fits the position.
-/

namespace MatrixServer
open TransitionRuns ControlStack

def controlOf : MessageType → Option Control
  | .appPause => some .pause
  | .appResume => some .resume
  | _ => none

/-- The last word to an app after one more effect; registering starts afresh. -/
def hear (appId : Int) (last : Option Control) : Effect → Option Control
  | .generatedAppId generated => if generated = appId then none else last
  | .send _ message =>
      if message.appID = appId then (controlOf message.messageType).or last else last
  | _ => last

/-- The last `appPause` or `appResume` sent with this id since the app registered. -/
def lastControl (appId : Int) (trace : Trace) : Option Control := trace.foldl (hear appId) none

theorem lastControl_append (appId : Int) (trace effects : Trace) :
    lastControl appId (trace ++ effects) = effects.foldl (hear appId) (lastControl appId trace) :=
  List.foldl_append

/-- An effect that no app takes as a word about pausing. -/
def Effect.Quiet : Effect → Prop
  | .generatedAppId _ => False
  | .send _ message => controlOf message.messageType = none
  | _ => True

theorem hear_quiet {e : Effect} (h : e.Quiet) (appId : Int) (last : Option Control) :
    hear appId last e = last := by
  cases e with
  | send connection message =>
      have hnone : controlOf message.messageType = none := h
      simp [hear, hnone]
  | generatedAppId _ => exact False.elim h
  | rendererSend _ _ | copyColors _ _ | render _ | waitpid _ | fork => rfl

/-- Quiet effects leave what is heard as it is. -/
theorem foldl_quiet {f : Option Control → Effect → Option Control}
    (hf : ∀ e, e.Quiet → ∀ last, f last e = last) {effects : Trace}
    (h : ∀ e ∈ effects, e.Quiet) (last : Option Control) : effects.foldl f last = last := by
  induction effects with
  | nil => rfl
  | cons e effects ih =>
      rw [List.foldl_cons, hf e (h e List.mem_cons_self)]
      exact ih fun e' he' => h e' (List.mem_cons_of_mem _ he')

theorem quiet_nil : ∀ e ∈ ([] : Trace), e.Quiet := List.forall_mem_nil _

theorem lastControl_quiet {effects : Trace} (h : ∀ e ∈ effects, e.Quiet) (appId : Int)
    (trace : Trace) : lastControl appId (trace ++ effects) = lastControl appId trace := by
  rw [lastControl_append]
  exact foldl_quiet (fun e he => hear_quiet he appId) h _

def appIds (apps : List App) : List Int := apps.map App.appId

/-- The stack that a server and its trace stand for. -/
def stackOf (st : Server × Trace) : Stack Int where
  members := appIds st.1.apps
  told appId := lastControl appId st.2

theorem getLast?_appIds (apps : List App) :
    (appIds apps).getLast? = apps.getLast?.map App.appId := List.getLast?_map

theorem isTopApp_iff (s : Server) (appId : Int) :
    s.isTopApp appId = true ↔ appId ∈ (appIds s.apps).getLast? := by
  rw [getLast?_appIds]
  simp only [Server.isTopApp, Server.topApp]
  cases s.apps.getLast? with
  | none => simp
  | some app => simp

theorem lastControl_tellTopApp {messageType : MessageType} {word : Control}
    (hword : controlOf messageType = some word) (apps : List App) (trace : Trace) :
    (fun appId => lastControl appId (trace ++ Server.tellTopApp messageType apps)) =
      Stack.tell (appIds apps) word fun appId => lastControl appId trace := by
  funext appId
  simp only [Server.tellTopApp, Stack.tell, getLast?_appIds]
  cases apps.getLast? with
  | none => simp
  | some app => simp [lastControl_append, hear, hword]

/-- What a call does to the stack. -/
inductive StackStep (st : Stack Int) : Stack Int → Prop where
  | stay : StackStep st st
  | push (appId : Int) : appId ∉ st.members → StackStep st (st.push appId)
  | rebuke (appId : Int) : appId ∉ st.members.getLast? → StackStep st (st.rebuke appId)
  | retain (keep : Int → Bool) : StackStep st (st.retain keep)

theorem updateApp_appIds (appId : Int) {f : App → App} (hf : ∀ app, (f app).appId = app.appId)
    (apps : List App) : appIds (Server.updateApp appId f apps) = appIds apps := by
  induction apps with
  | nil => rfl
  | cons app apps ih =>
      simp only [Server.updateApp]
      split
      · simp [appIds, hf]
      · simpa [appIds] using ih

/-- A call that keeps the ids and sends no word about pausing leaves the stack as it is. -/
theorem StackStep.of_quiet {st : Server × Trace} {s : Server} {effects : Trace}
    (hids : appIds s.apps = appIds st.1.apps) (h : ∀ e ∈ effects, e.Quiet) :
    StackStep (stackOf st) (stackOf (s, st.2 ++ effects)) := by
  have hstack : stackOf (s, st.2 ++ effects) = stackOf st := by
    simp only [stackOf, hids, lastControl_quiet h]
  rw [hstack]
  exact .stay

theorem StackStep.consistent {st st' : Stack Int} (h : StackStep st st') (hst : st.Consistent) :
    st'.Consistent := by
  cases h with
  | stay => exact hst
  | push appId hnew => exact hst.push hnew
  | rebuke appId hnot => exact hst.rebuke hnot
  | retain keep => exact hst.retain keep

/-- A member that a call brings to the back is told to resume. -/
theorem StackStep.resumes {st st' : Stack Int} (h : StackStep st st') (hst : st.Consistent)
    {appId : Int} (hbelow : appId ∈ st.members.dropLast) (htop : appId ∈ st'.members.getLast?) :
    st'.told appId = some .resume := by
  cases h with
  | stay | rebuke => exact absurd hbelow (Stack.not_below_of_top hst.nodup htop)
  | push new hnew =>
      have hlast : new = appId := by
        simpa only [Stack.push, List.getLast?_concat, Option.mem_def, Option.some.injEq] using htop
      exact absurd (List.dropLast_subset _ hbelow) (hlast ▸ hnew)
  | retain keep => exact hst.retain_resumes keep hbelow htop

theorem registerApp_stackStep {s : Server} (trace : Trace) (connection : ConnectionId)
    (message : MatrixServerMessage) (rand : Nat)
    (hfresh : message.appID = 0 → (rand : Int) ∉ appIds s.apps) :
    StackStep (stackOf (s, trace))
      (stackOf ((s.registerApp connection message rand).1,
        trace ++ (s.registerApp connection message rand).2)) := by
  by_cases hzero : message.appID = 0
  · have hpush : stackOf ((s.registerApp connection message rand).1,
        trace ++ (s.registerApp connection message rand).2) =
          (stackOf (s, trace)).push rand := by
      have htold := lastControl_tellTopApp (rfl : controlOf .appPause = some .pause) s.apps trace
      simp only [Server.registerApp, Server.pauseTopApp, hzero, if_true, stackOf, Stack.push,
        ← htold]
      congr 1
      · simp [appIds]
      · funext appId
        rw [← List.append_assoc, lastControl_append]
        by_cases hid : appId = rand
        · simp [hear, hid, controlOf]
        · simp [hear, hid, Ne.symm hid]
    rw [hpush]
    exact .push _ (hfresh hzero)
  · simp only [Server.registerApp, hzero, if_false]
    exact .of_quiet rfl quiet_nil

theorem setScreenFrame_stackStep (s : Server) (trace : Trace) (connection : ConnectionId)
    (message : MatrixServerMessage) (beyond : Nat → UInt8) :
    StackStep (stackOf (s, trace))
      (stackOf ((s.setScreenFrame connection message beyond).1,
        trace ++ (s.setScreenFrame connection message beyond).2)) := by
  cases htop : s.isTopApp message.appID with
  | true =>
      refine .of_quiet (by simp [Server.setScreenFrame, htop]) ?_
      intro e he
      obtain ⟨_, r, _, hcopy | rfl | rfl⟩ :=
        (Server.mem_setScreenFrame_effects connection message beyond htop).mp he
      · obtain ⟨entry, _, hentry⟩ := List.mem_filterMap.mp hcopy
        simp only [Server.entryCopy] at hentry
        split at hentry
        · cases hentry
        · cases hentry
          trivial
      · trivial
      · rfl
  | false =>
      have hnot : message.appID ∉ (appIds s.apps).getLast? := by
        rw [← isTopApp_iff, htop]
        exact Bool.false_ne_true
      have hrebuke : stackOf ((s.setScreenFrame connection message beyond).1,
          trace ++ (s.setScreenFrame connection message beyond).2) =
            (stackOf (s, trace)).rebuke message.appID := by
        simp only [Server.setScreenFrame, htop, Bool.false_eq_true, if_false, stackOf, Stack.rebuke]
        congr 1
        funext appId
        rw [lastControl_append]
        by_cases hid : appId = message.appID
        · simp [hear, hid, controlOf]
        · simp [hear, hid, Ne.symm hid]
      rw [hrebuke]
      exact .rebuke _ hnot

/-- Removing apps and resuming the back is `retain`, when the code's test for a new
back is right wherever it matters. -/
theorem stackOf_retain {s s' : Server} (trace : Trace) {keep : Int → Bool}
    (hids : appIds s'.apps = (appIds s.apps).filter keep) (test : Prop) [Decidable test]
    (hsound : test → (appIds s'.apps).getLast? ≠ (appIds s.apps).getLast?)
    (hcomplete : (appIds s'.apps).getLast? ≠ (appIds s.apps).getLast? → s'.apps ≠ [] → test) :
    stackOf (s', trace ++ if test then Server.resumeTopApp s'.apps else []) =
      (stackOf (s, trace)).retain keep := by
  simp only [stackOf, Stack.retain, ← hids]
  congr 1
  by_cases hsame : (appIds s'.apps).getLast? = (appIds s.apps).getLast?
  · rw [if_pos hsame, if_neg fun h => hsound h hsame]
    simp
  · rw [if_neg hsame]
    by_cases hnil : s'.apps = []
    · funext appId
      simp [Stack.tell, Server.resumeTopApp, Server.tellTopApp, hnil, appIds]
    · rw [if_pos (hcomplete hsame hnil)]
      exact lastControl_tellTopApp (rfl : controlOf .appResume = some .resume) s'.apps trace

theorem appIds_filter (keep : Int → Bool) (apps : List App) :
    appIds (apps.filter fun app => keep app.appId) = (appIds apps).filter keep := by
  simp only [appIds, List.filter_map]
  rfl

theorem appKill_stackStep (s : Server) (trace : Trace) (message : MatrixServerMessage) :
    StackStep (stackOf (s, trace))
      (stackOf ((s.appKill message).1, trace ++ (s.appKill message).2)) := by
  have hids : appIds (s.appKill message).1.apps =
      (appIds s.apps).filter fun appId => appId ≠ message.appID :=
    appIds_filter (fun appId => appId ≠ message.appID) s.apps
  have hretain := stackOf_retain trace hids (s.isTopApp message.appID = true)
    ?_ ?_
  · rw [show (s.appKill message).2 = if s.isTopApp message.appID = true then
      Server.resumeTopApp (s.appKill message).1.apps else [] from rfl, hretain]
    exact .retain _
  · intro htop hsame
    rw [isTopApp_iff, ← hsame] at htop
    rw [hids] at htop
    have hmem := List.of_mem_filter (List.mem_of_getLast? htop)
    simp at hmem
  · intro hdiff hne
    rw [isTopApp_iff]
    by_contra hnot
    apply hdiff
    have hne' : appIds s.apps ≠ [] := by
      intro hnil
      rw [hnil, List.filter_nil] at hids
      exact hne (List.map_eq_nil_iff.mp hids)
    obtain ⟨top, htop⟩ : ∃ top, top ∈ (appIds s.apps).getLast? :=
      ⟨_, List.getLast?_eq_some_getLast hne'⟩
    have hkeep : top ≠ message.appID := fun h => hnot (h ▸ htop)
    rw [hids, Stack.eq_concat htop, List.filter_append]
    simp [hkeep]

/-- With distinct ids, removing apps by any test is removing ids. -/
theorem appIds_filter_of_nodup {apps : List App} (hnodup : (appIds apps).Nodup)
    (keep : App → Bool) :
    appIds (apps.filter keep) =
      (appIds apps).filter fun appId => appId ∈ appIds (apps.filter keep) := by
  have hkeep : apps.filter keep =
      apps.filter fun app => app.appId ∈ appIds (apps.filter keep) := by
    apply List.filter_congr
    intro app happ
    rw [Bool.eq_iff_iff, decide_eq_true_iff]
    constructor
    · intro h
      exact List.mem_map_of_mem (List.mem_filter.mpr ⟨happ, h⟩)
    · intro h
      obtain ⟨app', happ', hid⟩ := List.mem_map.mp h
      obtain ⟨hmem, hkept⟩ := List.mem_filter.mp happ'
      rwa [← List.inj_on_of_nodup_map hnodup hmem happ hid]
  conv_lhs => rw [hkeep]
  exact appIds_filter (fun appId => decide (appId ∈ appIds (apps.filter keep))) apps

/-- The code takes -1 for "no app", which is right when no id is -1. -/
theorem topAppId_ne_iff {apps apps' : List App} (hids : ∀ appId ∈ appIds apps', appId ≠ -1)
    (hne : apps' ≠ []) :
    (Server.topAppId apps ≠ Server.topAppId apps' ∧ Server.topAppId apps' ≠ -1) ↔
      (appIds apps').getLast? ≠ (appIds apps).getLast? := by
  simp only [getLast?_appIds, Server.topAppId]
  rw [List.getLast?_eq_some_getLast hne]
  have hlast := hids _ (List.mem_map_of_mem (List.getLast_mem hne))
  cases apps.getLast? with
  | none => simp [hlast, eq_comm]
  | some top => simp [hlast, eq_comm]

theorem removeDeadApps_stackStep {s : Server} (trace : Trace) (hnodup : (appIds s.apps).Nodup)
    (hids : ∀ appId ∈ appIds s.apps, appId ≠ -1) (isDead : ConnectionId → Bool) :
    StackStep (stackOf (s, trace))
      (stackOf ((s.removeDeadApps isDead).1, trace ++ (s.removeDeadApps isDead).2)) := by
  have hfilter : appIds (s.removeDeadApps isDead).1.apps = _ :=
    appIds_filter_of_nodup hnodup fun app => !isDead app.connection
  have hids' : ∀ appId ∈ appIds (s.removeDeadApps isDead).1.apps, appId ≠ -1 := by
    intro appId hmem
    rw [hfilter] at hmem
    exact hids appId (List.mem_of_mem_filter hmem)
  have hretain := stackOf_retain trace hfilter
    (Server.topAppId s.apps ≠ Server.topAppId (s.removeDeadApps isDead).1.apps ∧
      Server.topAppId (s.removeDeadApps isDead).1.apps ≠ -1) ?_ ?_
  · rw [show (s.removeDeadApps isDead).2 =
      if Server.topAppId s.apps ≠ Server.topAppId (s.removeDeadApps isDead).1.apps ∧
        Server.topAppId (s.removeDeadApps isDead).1.apps ≠ -1 then
          Server.resumeTopApp (s.removeDeadApps isDead).1.apps else [] from rfl, hretain]
    exact .retain _
  · intro htest
    by_cases hne : (s.removeDeadApps isDead).1.apps = []
    · exact absurd (by rw [hne]; rfl) htest.2
    · exact (topAppId_ne_iff hids' hne).mp htest
  · intro hdiff hne
    exact (topAppId_ne_iff hids' hne).mpr hdiff

theorem tick_stackStep {s : Server} (trace : Trace) (hnodup : (appIds s.apps).Nodup)
    (hids : ∀ appId ∈ appIds s.apps, appId ≠ -1) (input : Server.TickInput) :
    StackStep (stackOf (s, trace)) (stackOf ((s.tick input).1, trace ++ (s.tick input).2)) := by
  have hcalls := Server.tick_processCallsOnly s input
  let reaped := ((s.startDefaultApp input).1.reapDefaultApp input).1
  let before := s.killTopApp input ++ ((s.startDefaultApp input).2 ++
    ((s.startDefaultApp input).1.reapDefaultApp input).2)
  have happs : reaped.apps = s.apps := hcalls.apps
  have hquiet : ∀ e ∈ before, e.Quiet := by
    intro e he
    cases List.mem_append.mp he with
    | inl hkill =>
        obtain ⟨app, _, rfl⟩ := Server.mem_killTopApp hkill
        rfl
    | inr hprocess =>
        obtain rfl | ⟨pid, rfl⟩ := hcalls.effects e hprocess
        · trivial
        · trivial
  have hsame : stackOf (reaped, trace ++ before) = stackOf (s, trace) := by
    simp only [stackOf, lastControl_quiet hquiet, happs]
  have hstep := removeDeadApps_stackStep (s := reaped) (trace ++ before) (happs ▸ hnodup)
    (happs ▸ hids) input.isDead
  have heffects : (s.tick input).2 = before ++ (reaped.removeDeadApps input.isDead).2 := by
    simp only [Server.tick, before, reaped, List.append_assoc]
  rw [hsame, List.append_assoc, ← heffects] at hstep
  exact hstep

theorem controlOf_forwarded {messageType : MessageType} (h : forwardedToApps messageType = true) :
    controlOf messageType = none := by
  cases messageType with
  | appPause | appResume => cases h
  | _ => rfl

theorem clientMessage_quiet (s : Server) (renderer : Nat) (message : MatrixServerMessage) :
    ∀ e ∈ s.clientMessage renderer message, e.Quiet := by
  intro e he
  obtain ⟨_, _, rfl⟩ | ⟨_, _, hforwarded, rfl⟩ := Server.clientMessage_effects he
  · trivial
  · exact controlOf_forwarded hforwarded

/-- What holds of a server and its trace after any calls with fresh ids. -/
structure StackInv (st : Server × Trace) : Prop where
  consistent : (stackOf st).Consistent
  generated : ∀ appId ∈ appIds st.1.apps, .generatedAppId appId ∈ st.2
  natural : ∀ appId ∈ appIds st.1.apps, 0 ≤ appId

theorem StackInv.ne_neg_one {st : Server × Trace} (h : StackInv st) :
    ∀ appId ∈ appIds st.1.apps, appId ≠ -1 := by
  intro appId hmem heq
  have := h.natural appId hmem
  omega

theorem handleRequest_stackStep {s : Server} {trace : Trace} (h : StackInv (s, trace))
    {connection : ConnectionId} {message : MatrixServerMessage} {rand : Nat}
    {beyond : Nat → UInt8}
    (hfresh : FreshAppId (s, trace) (.handleRequest connection message rand beyond)) :
    StackStep (stackOf (s, trace))
      (stackOf ((s.handleRequest connection message rand beyond).1,
        trace ++ (s.handleRequest connection message rand beyond).2)) := by
  have hrenderers : ∀ e ∈ s.sendToRenderers message, e.Quiet := by
    intro e he
    obtain ⟨_, _, rfl⟩ := List.mem_mapIdx.mp he
    trivial
  simp only [Server.handleRequest]
  cases htype : message.messageType with
  | registerApp =>
      refine registerApp_stackStep trace connection message rand fun hzero hmem => ?_
      exact (hfresh ⟨htype, hzero⟩).2 (h.generated _ hmem)
  | setScreenFrame => exact setScreenFrame_stackStep s trace connection message beyond
  | appKill => exact appKill_stackStep s trace message
  | appPause =>
      refine .of_quiet ?_ quiet_nil
      exact updateApp_appIds (f := (·.setAppState .paused)) message.appID (fun _ => rfl) s.apps
  | appResume =>
      refine .of_quiet ?_ quiet_nil
      exact updateApp_appIds (f := (·.setAppState .running)) message.appID (fun _ => rfl) s.apps
  | appParamSchema =>
      refine .of_quiet ?_ hrenderers
      exact updateApp_appIds (f := (·.setParamSchema (message.appParamSchema.getD {})))
        message.appID (fun _ => rfl) s.apps
  | appParamValues => exact .of_quiet rfl hrenderers
  | getServerInfo =>
      refine .of_quiet rfl fun e he => ?_
      cases List.mem_singleton.mp he
      rfl
  | defaultMessageType | requestScreenAccess | appAlive | imuData | joystickData | setAppParam
  | getAppParams | audioDataMessage => exact .of_quiet rfl quiet_nil

theorem call_stackStep {st : Server × Trace} (h : StackInv st) {c : ServerCall}
    (hfresh : FreshAppId st c) :
    StackStep (stackOf st) (stackOf ((st.1.call c).1, st.2 ++ (st.1.call c).2)) := by
  cases c with
  | newConnection connection =>
      exact .of_quiet rfl quiet_nil
  | handleRequest connection message rand beyond => exact handleRequest_stackStep h hfresh
  | clientMessage renderer message => exact .of_quiet rfl (clientMessage_quiet _ _ _)
  | tick input => exact tick_stackStep st.2 h.consistent.nodup h.ne_neg_one input

/-- The ids after a call are old ones, or the one the call generated. -/
theorem call_appIds {s : Server} {c : ServerCall} {appId : Int}
    (hmem : appId ∈ appIds (s.call c).1.apps) :
    appId ∈ appIds s.apps ∨ 0 ≤ appId ∧ .generatedAppId appId ∈ (s.call c).2 := by
  obtain ⟨app, happ, rfl⟩ := List.mem_map.mp hmem
  obtain ⟨old, hold, hid, _⟩ | ⟨connection, message, rand, beyond, rfl, hregisters, rfl⟩ :=
    Server.call_apps happ
  · exact .inl (hid ▸ List.mem_map_of_mem hold)
  · right
    simp [Server.call, Server.handleRequest, hregisters.1, Server.registerApp, hregisters.2]

theorem stackInv_call {st : Server × Trace} {c : ServerCall} (h : StackInv st)
    (hfresh : FreshAppId st c) : StackInv ((st.1.call c).1, st.2 ++ (st.1.call c).2) := by
  refine ⟨(call_stackStep h hfresh).consistent h.consistent, ?_, ?_⟩
  · intro appId hmem
    cases call_appIds hmem with
    | inl hold => exact List.mem_append_left _ (h.generated appId hold)
    | inr hnew => exact List.mem_append_right _ hnew.2
  · intro appId hmem
    cases call_appIds hmem with
    | inl hold => exact h.natural appId hold
    | inr hnew => exact hnew.1

theorem stackInv_start (serverConfig : ServerConfig) (renderers : List Renderer) :
    StackInv (Server.start serverConfig renderers, []) :=
  ⟨Stack.consistent_empty _, List.forall_mem_nil _, List.forall_mem_nil _⟩

theorem stackInv_reachable {serverConfig : ServerConfig} {renderers : List Renderer}
    {st : Server × Trace}
    (h : (serverRuns (.start serverConfig renderers)).ReachableUnder FreshAppId st) :
    StackInv st := by
  refine h.invariant StackInv (stackInv_start serverConfig renderers) ?_
  intro st c st' hst hfresh hstep
  cases hstep
  exact stackInv_call hst hfresh

/-- After any calls, an app below the back was last told to pause and the app at the
back was not; an app that a call brings to the back has been told to resume. -/
theorem last_control_fits_position (serverConfig : ServerConfig) (renderers : List Renderer)
    (st : Server × Trace)
    (h : (serverRuns (.start serverConfig renderers)).ReachableUnder FreshAppId st) :
    (∀ app ∈ st.1.apps.dropLast, lastControl app.appId st.2 = some .pause) ∧
    (∀ app ∈ st.1.apps.getLast?,
      lastControl app.appId st.2 = none ∨ lastControl app.appId st.2 = some .resume) ∧
    ∀ c, FreshAppId st c →
      ∀ app ∈ st.1.apps.dropLast, ∀ top ∈ (st.1.call c).1.apps.getLast?, top.appId = app.appId →
        lastControl top.appId (st.2 ++ (st.1.call c).2) = some .resume := by
  have hinv := stackInv_reachable h
  have hbelow : ∀ app ∈ st.1.apps.dropLast, app.appId ∈ (stackOf st).members.dropLast := by
    intro app happ
    simp only [stackOf, appIds, ← List.map_dropLast]
    exact List.mem_map_of_mem happ
  have htop : ∀ st' : Server × Trace, ∀ app ∈ st'.1.apps.getLast?,
      app.appId ∈ (stackOf st').members.getLast? := by
    intro st' app happ
    simp only [stackOf, getLast?_appIds]
    rw [Option.mem_def.mp happ]
    rfl
  refine ⟨fun app happ => hinv.consistent.below _ (hbelow app happ), ?_, ?_⟩
  · intro app happ
    have hnot := hinv.consistent.top _ (htop st app happ)
    change lastControl app.appId st.2 ≠ some .pause at hnot
    cases hlast : lastControl app.appId st.2 with
    | none => exact .inl rfl
    | some word =>
        cases word with
        | pause => exact absurd hlast hnot
        | resume => exact .inr rfl
  · intro c hfresh app happ top htop' hid
    rw [hid]
    exact (call_stackStep hinv hfresh).resumes hinv.consistent (hbelow app happ)
      (hid ▸ htop ((st.1.call c).1, st.2 ++ (st.1.call c).2) top htop')

theorem last_control_two_apps :
    let register (connection : ConnectionId) (rand : Nat) : ServerCall :=
      .handleRequest connection { messageType := .registerApp } rand fun _ => 0
    ∃ st, (serverRuns (.start {} [])).replay (.start {} [], []) [register 1 7, register 2 8] =
        some st ∧
      appIds st.1.apps = [7, 8] ∧ ∀ app ∈ st.1.apps.dropLast,
        lastControl app.appId st.2 = some .pause := by
  refine ⟨_, rfl, rfl, ?_⟩
  refine (last_control_fits_position {} [] _ ?_).1
  refine .step (.step .initial ?_ rfl) ?_ rfl
  · exact fun _ => by decide
  · exact fun _ => by decide

end MatrixServer
