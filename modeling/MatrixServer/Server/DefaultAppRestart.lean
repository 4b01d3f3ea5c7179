import MatrixServer.Server.DefaultApp

/-!
The default app after its process has ended.
`kill(pid, 0)` finds a child that has exited and was not reaped, so a tick without apps
never replaces such a child. Only a tick with apps reaps: the process has to exit while
an app is registered, and such a tick has to come before the last app leaves.
-/

namespace MatrixServer
open TransitionRuns

namespace DefaultAppSystem

/-- The tracked process has exited and was not reaped. -/
def Unreaped (st : DefaultAppSystem) : Prop :=
  st.processes st.server.defaultAppPid = some .exited

instance (st : DefaultAppSystem) : Decidable st.Unreaped :=
  inferInstanceAs (Decidable (_ = _))

def ForkFailed (st : DefaultAppSystem) (input : Server.TickInput) : Prop :=
  .fork ∈ (st.server.tick input).2 ∧ input.forkResult = -1

instance (st : DefaultAppSystem) (input : Server.TickInput) : Decidable (st.ForkFailed input) :=
  inferInstanceAs (Decidable (_ ∧ _))

/-- After the tick the tracked process has not exited, or the tick could not start one. -/
def NotLeftDead (st : DefaultAppSystem) (input : Server.TickInput) (st' : DefaultAppSystem) :
    Prop := ¬ st'.Unreaped ∨ st.ForkFailed input

/-- After the tick a process is tracked and runs, or the tick could not start one. -/
def Restored (st : DefaultAppSystem) (input : Server.TickInput) (st' : DefaultAppSystem) :
    Prop := st'.processes st'.server.defaultAppPid = some .running ∨ st.ForkFailed input

instance (st : DefaultAppSystem) (input : Server.TickInput) (st' : DefaultAppSystem) :
    Decidable (st.NotLeftDead input st') :=
  inferInstanceAs (Decidable (_ ∨ _))

/-- The tracked process exits only while an app is registered, and no `appKill` takes the last
app away from a process that has exited and was not reaped. -/
def ReapedInTime (st : DefaultAppSystem) : DefaultAppEvent → Prop
  | .childExits pid => pid = st.server.defaultAppPid → st.server.apps ≠ []
  | .call (.handleRequest _ message _ _) =>
      message.messageType = .appKill → st.Unreaped →
        ∃ app ∈ st.server.apps, app.appId ≠ message.appID
  | _ => True

instance (st : DefaultAppSystem) : (e : DefaultAppEvent) → Decidable (st.ReapedInTime e)
  | .childExits _ => inferInstanceAs (Decidable (_ → _))
  | .call (.handleRequest _ _ _ _) => inferInstanceAs (Decidable (_ → _ → _))
  | .call (.newConnection _) | .call (.clientMessage _ _) | .call (.tick _) | .stopPoll
  | .stopForce => .isTrue trivial

/-- Children have positive ids. -/
def PositivePids (st : DefaultAppSystem) : Prop := ∀ pid, st.processes pid ≠ none → 0 < pid

theorem PositivePids.untracked {st : DefaultAppSystem} (h : st.PositivePids)
    (hpid : st.server.defaultAppPid ≤ 0) : st.processes st.server.defaultAppPid = none := by
  by_contra hsome
  have hpos := h _ hsome
  omega

theorem PositivePids.forgotten {st : DefaultAppSystem} {processes : Processes}
    (h : (st.forgetPid processes).PositivePids) : ¬ (st.forgetPid processes).Unreaped := by
  have hnone := h.untracked (by simp [forgetPid])
  simp [Unreaped, hnone]

theorem PositivePids.update {processes : Processes} {pid : Int} {state : Option ProcessState}
    (h : ∀ other, processes other ≠ none → 0 < other) (hpid : state ≠ none → 0 < pid)
    (other : Int) (hsome : processes.update pid state other ≠ none) : 0 < other := by
  simp only [Processes.update] at hsome
  split at hsome
  · rename_i heq
    exact heq ▸ hpid hsome
  · exact h other hsome

theorem PositivePids.reap {processes : Processes} {pid : Int}
    (h : ∀ other, processes other ≠ none → 0 < other) (other : Int)
    (hsome : processes.reap pid other ≠ none) : 0 < other := by
  simp only [Processes.reap] at hsome
  split at hsome
  · exact PositivePids.update h (fun hne => absurd rfl hne) other hsome
  · exact h other hsome

/-- No child that `waitpid` is done with stays behind as exited. -/
theorem reap_ne_exited (processes : Processes) (pid : Int) :
    processes.reap pid pid ≠ some .exited := by
  simp only [Processes.reap]
  split
  · simp [Processes.update]
  · assumption

theorem fork_mem_tick {s : Server} {input : Server.TickInput} (h : s.apps = []) :
    .fork ∈ (s.tick input).2 ↔ .fork ∈ (s.startDefaultApp input).2 := by
  have hidle : (s.startDefaultApp input).1.apps = [] :=
    (Server.startDefaultApp_processCallsOnly s input).apps.trans h
  have hkill : .fork ∉ s.killTopApp input := fun he => by
    obtain ⟨app, -, heq⟩ := Server.mem_killTopApp he
    cases heq
  have hremove : .fork ∉ ((s.startDefaultApp input).1.removeDeadApps input.isDead).2 :=
    fun he => by
      obtain ⟨connection, message, heq⟩ := Server.removeDeadApps_sends he
      cases heq
  simp [Server.tick, Server.reapDefaultApp_idle hidle, hkill, hremove]

/-- A tick without apps: with an app started or a child tracked it does nothing; otherwise it
forks, and the new child runs or nothing changes. -/
theorem tick_idle {st st' : DefaultAppSystem} (h : st.Inv) {input : Server.TickInput}
    (happs : st.server.apps = []) (htick : st.tick input = some st') :
    ((st.server.defaultAppStarted = true ∨ 0 < st.server.defaultAppPid) ∧ ¬ st.ForkFailed input ∧
        st'.server.defaultAppPid = st.server.defaultAppPid ∧ st'.processes = st.processes) ∨
      (st.server.defaultAppStarted = false ∧ st.server.defaultAppPid ≤ 0 ∧
        (st'.processes st'.server.defaultAppPid = some .running ∨
          st.ForkFailed input ∧ st'.server.defaultAppPid = st.server.defaultAppPid ∧
            st'.processes = st.processes)) := by
  simp only [tick] at htick
  split at htick
  · rename_i hposix
    cases htick
    have hidle : (st.server.startDefaultApp input).1.apps = [] :=
      (Server.startDefaultApp_processCallsOnly st.server input).apps.trans happs
    simp only [foldl_after_tick, tick_pid, ForkFailed, fork_mem_tick happs,
      Server.reapDefaultApp_idle hidle, List.append_nil]
    cases hstarted : st.server.defaultAppStarted with
    | true =>
        left
        simp [Server.startDefaultApp, hstarted]
    | false =>
        by_cases hpid : st.server.defaultAppPid > 0
        · left
          have hkill := hposix.kill (h.tracked hpid)
          simp [Server.startDefaultApp, happs, hstarted, hpid, hkill]
        · right
          refine ⟨rfl, Int.not_lt.mp hpid, ?_⟩
          cases hposix.fork with
          | inl hfailed =>
              right
              simp [Server.startDefaultApp, happs, hstarted, hpid, hfailed, Processes.after]
          | inr hforked =>
              left
              simp [Server.startDefaultApp, happs, hstarted, hpid, hforked.1, Processes.after,
                Processes.update]
  · cases htick

/-- A tick with apps leaves no tracked process that has exited. -/
theorem tick_busy {st st' : DefaultAppSystem} (hpos : st.PositivePids)
    {input : Server.TickInput} (happs : st.server.apps ≠ [])
    (htick : st.tick input = some st') : ¬ st'.Unreaped := by
  simp only [tick] at htick
  split at htick
  · rename_i hposix
    cases htick
    simp only [Unreaped, foldl_after_tick, tick_pid, Server.startDefaultApp_busy happs,
      List.nil_append, Server.reapDefaultApp, if_pos happs, hposix.waitpid]
    by_cases hpid : st.server.defaultAppPid > 0
    · by_cases hwait : st.processes.waitpid st.server.defaultAppPid = 0
      · simp only [if_pos hpid, hwait, ne_eq, not_true_eq_false, if_false, List.foldl_cons,
          List.foldl_nil, Processes.after]
        exact reap_ne_exited _ _
      · simp only [if_pos hpid, if_pos hwait, ne_eq, List.foldl_cons, List.foldl_nil,
          Processes.after]
        intro hexited
        have hsome : st.processes.reap st.server.defaultAppPid (-1) ≠ none := by simp [hexited]
        have hneg := PositivePids.reap hpos (-1) hsome
        omega
    · simp only [if_neg hpid, List.foldl_nil]
      simp [hpos.untracked (Int.not_lt.mp hpid)]
  · cases htick

theorem PositivePids.tick {st st' : DefaultAppSystem} (hinv : st.Inv) (h : st.PositivePids)
    {input : Server.TickInput} (htick : st.tick input = some st') : st'.PositivePids := by
  obtain ⟨-, hforked, -, hprocesses⟩ | ⟨-, -, -, hprocesses⟩ | ⟨-, hprocesses⟩ :=
    tick_cases hinv htick
  · rw [PositivePids, hprocesses]
    exact PositivePids.update h fun _ => hforked
  · rw [PositivePids, hprocesses]
    exact PositivePids.reap h
  · rw [PositivePids, hprocesses]
    exact h

theorem PositivePids.step {st st' : DefaultAppSystem} (hinv : st.Inv) (h : st.PositivePids)
    {e : DefaultAppEvent} (hstep : st.step e = some st') : st'.PositivePids := by
  cases e with
  | call c =>
      cases c with
      | tick input => exact h.tick hinv hstep
      | newConnection _ | handleRequest _ _ _ _ | clientMessage _ _ =>
          cases hstep
          exact h
  | childExits pid =>
      simp only [DefaultAppSystem.step] at hstep
      split at hstep
      · rename_i hrun
        cases hstep
        exact PositivePids.update h fun _ => (hinv.only pid hrun).1
      · cases hstep
  | stopPoll =>
      simp only [DefaultAppSystem.step, stopPoll] at hstep
      split at hstep
      · cases hstep
        split
        · exact PositivePids.reap h
        · exact h
      · cases hstep
  | stopForce =>
      simp only [DefaultAppSystem.step, stopForce] at hstep
      split at hstep
      · cases hstep
        exact PositivePids.update h fun hne => absurd rfl hne
      · cases hstep

/-- What holds of every run, whenever the process exits. -/
structure Tracked (st : DefaultAppSystem) : Prop where
  inv : st.Inv
  positive : st.PositivePids

theorem Tracked.step {st st' : DefaultAppSystem} (h : st.Tracked) {e : DefaultAppEvent}
    (hstep : st.step e = some st') : st'.Tracked :=
  ⟨h.inv.step hstep, h.positive.step h.inv hstep⟩

theorem tracked_start (serverConfig : ServerConfig) (renderers : List Renderer) :
    Tracked { server := .start serverConfig renderers } :=
  ⟨inv_start serverConfig renderers, fun _ hsome => absurd rfl hsome⟩

/-- Only `appKill` and dead connections take apps away. -/
theorem apps_of_handleRequest_nil {s : Server} {connection : ConnectionId}
    {message : MatrixServerMessage} {rand : Nat} {beyond : Nat → UInt8}
    (h : (s.handleRequest connection message rand beyond).1.apps = []) :
    s.apps = [] ∨
      message.messageType = .appKill ∧ ∀ app ∈ s.apps, app.appId = message.appID := by
  simp only [Server.handleRequest] at h
  cases htype : message.messageType with
  | appKill =>
      simp only [htype, Server.appKill] at h
      refine .inr ⟨rfl, fun app happ => ?_⟩
      by_contra hother
      exact List.not_mem_nil (h ▸ List.mem_filter.mpr ⟨happ, by simpa using hother⟩)
  | registerApp =>
      simp only [htype, Server.registerApp] at h
      split at h
      · exact absurd h (List.concat_ne_nil _ _)
      · exact .inl h
  | setScreenFrame =>
      simp only [htype, Server.setScreenFrame] at h
      split at h <;> exact .inl h
  | appPause | appResume | appParamSchema =>
      simp only [htype] at h
      exact .inl (Server.updateApp_eq_nil h)
  | _ =>
      simp only [htype] at h
      exact .inl h

/-- While processes are reaped in time, no tracked one that has exited is left without apps. -/
structure InTime (st : DefaultAppSystem) : Prop extends Tracked st where
  reaped : st.server.apps = [] → ¬ st.Unreaped

theorem InTime.tick {st st' : DefaultAppSystem} (h : st.InTime) {input : Server.TickInput}
    (htick : st.tick input = some st') : ¬ st'.Unreaped := by
  by_cases happs : st.server.apps = []
  · obtain ⟨-, -, hpid, hprocesses⟩ | ⟨-, -, hrun | ⟨-, hpid, hprocesses⟩⟩ :=
      tick_idle h.inv happs htick
    · simpa only [Unreaped, hpid, hprocesses] using h.reaped happs
    · simp [Unreaped, hrun]
    · simpa only [Unreaped, hpid, hprocesses] using h.reaped happs
  · exact tick_busy h.positive happs htick

theorem InTime.step {st st' : DefaultAppSystem} (h : st.InTime) {e : DefaultAppEvent}
    (hguard : st.ReapedInTime e) (hstep : st.step e = some st') : st'.InTime := by
  have htracked := h.toTracked.step hstep
  refine ⟨htracked, fun happs => ?_⟩
  cases e with
  | call c =>
      cases c with
      | tick input => exact h.tick hstep
      | newConnection _ | clientMessage _ _ =>
          cases hstep
          exact h.reaped happs
      | handleRequest connection message rand beyond =>
          cases hstep
          have hpid := call_defaultAppPid st.server
            (c := .handleRequest connection message rand beyond) fun _ heq => by cases heq
          simp only [Unreaped, hpid]
          obtain hnone | ⟨htype, hsame⟩ := apps_of_handleRequest_nil happs
          · exact h.reaped hnone
          · intro hexited
            obtain ⟨app, happ, hother⟩ := hguard htype hexited
            exact hother (hsame app happ)
  | childExits pid =>
      simp only [DefaultAppSystem.step] at hstep
      split at hstep
      · cases hstep
        have hother : st.server.defaultAppPid ≠ pid := fun heq => hguard heq.symm happs
        simpa [Unreaped, Processes.update, hother] using h.reaped happs
      · cases hstep
  | stopPoll =>
      simp only [DefaultAppSystem.step, stopPoll] at hstep
      split at hstep
      · cases hstep
        by_cases hwait : st.processes.waitpid st.server.defaultAppPid ≠ 0
        · simp only [if_pos hwait] at htracked ⊢
          exact htracked.positive.forgotten
        · simp only [if_neg hwait] at happs ⊢
          exact h.reaped happs
      · cases hstep
  | stopForce =>
      simp only [DefaultAppSystem.step, stopForce] at hstep
      split at hstep
      · cases hstep
        exact htracked.positive.forgotten
      · cases hstep

theorem Tracked.of_reachable {serverConfig : ServerConfig} {renderers : List Renderer}
    {st : DefaultAppSystem} (h : (defaultAppRuns serverConfig renderers).Reachable st) :
    st.Tracked :=
  h.invariant Tracked (tracked_start serverConfig renderers) fun _ _ _ hst _ hstep =>
    hst.step hstep

theorem InTime.of_reachableUnder {serverConfig : ServerConfig} {renderers : List Renderer}
    {st : DefaultAppSystem}
    (h : (defaultAppRuns serverConfig renderers).ReachableUnder ReapedInTime st) : st.InTime :=
  h.invariant InTime
    ⟨tracked_start serverConfig renderers, fun _ hexited => by cases hexited⟩
    fun _ _ _ hst hguard hstep => hst.step hguard hstep

/-- A tick without apps leaves the tracked process dead just where it found it so. -/
theorem notLeftDead_iff {st st' : DefaultAppSystem} (h : st.Tracked) {input : Server.TickInput}
    (happs : st.server.apps = []) (htick : st.tick input = some st') :
    st.NotLeftDead input st' ↔ ¬ st.Unreaped := by
  obtain ⟨-, hfork, hpid, hprocesses⟩ | ⟨-, hle, hstarted⟩ := tick_idle h.inv happs htick
  · simp [NotLeftDead, Unreaped, hfork, hpid, hprocesses]
  · have halive : ¬ st.Unreaped := by simp [Unreaped, h.positive.untracked hle]
    refine iff_of_true ?_ halive
    cases hstarted with
    | inl hrun => exact .inl (by simp [Unreaped, hrun])
    | inr hfailed => exact .inr hfailed.1

/-- After a tick without apps a process runs, or could not be started, just when the tracked
one has not exited and no earlier tick marked the app as started in vain. -/
theorem restored_iff {st st' : DefaultAppSystem} (h : st.Tracked) {input : Server.TickInput}
    (happs : st.server.apps = []) (htick : st.tick input = some st') :
    st.Restored input st' ↔ ¬ st.Unreaped ∧
      (st.server.defaultAppStarted = true → 0 < st.server.defaultAppPid) := by
  obtain ⟨hidle, hfork, hpid, hprocesses⟩ | ⟨hnot, hle, hstarted⟩ := tick_idle h.inv happs htick
  · simp only [Restored, hfork, or_false, hpid, hprocesses]
    constructor
    · intro hrun
      exact ⟨by simp [Unreaped, hrun], fun _ => (h.inv.only _ hrun).1⟩
    · rintro ⟨halive, hpos⟩
      have htracked := h.inv.tracked (hidle.elim hpos id)
      simp only [Unreaped] at halive
      cases hstate : st.processes st.server.defaultAppPid with
      | none => exact absurd hstate htracked
      | some state =>
          cases state with
          | running => rfl
          | exited => exact absurd hstate halive
  · refine iff_of_true ?_ ⟨by simp [Unreaped, h.positive.untracked hle], fun htrue => ?_⟩
    · cases hstarted with
      | inl hrun => exact .inl hrun
      | inr hfailed => exact .inr hfailed.1
    · rw [hnot] at htrue
      cases htrue

end DefaultAppSystem

/-- A tick that finds no app leaves no dead process tracked, in every run in which processes
are reaped in time; in any run it does so just when the tracked process had not exited
unreaped before it. -/
theorem default_app_comes_back (serverConfig : ServerConfig) (renderers : List Renderer)
    {st st' : DefaultAppSystem} {input : Server.TickInput}
    (h : (defaultAppRuns serverConfig renderers).Reachable st) (happs : st.server.apps = [])
    (htick : (defaultAppRuns serverConfig renderers).step st (.call (.tick input)) = some st') :
    ((defaultAppRuns serverConfig renderers).ReachableUnder DefaultAppSystem.ReapedInTime st →
      st.NotLeftDead input st') ∧
    (st.NotLeftDead input st' ↔ ¬ st.Unreaped) ∧
    (st.Restored input st' ↔ ¬ st.Unreaped ∧
      (st.server.defaultAppStarted = true → 0 < st.server.defaultAppPid)) := by
  have htracked := DefaultAppSystem.Tracked.of_reachable h
  have hexact := DefaultAppSystem.notLeftDead_iff htracked happs htick
  refine ⟨fun hguarded => ?_, hexact, DefaultAppSystem.restored_iff htracked happs htick⟩
  rw [hexact]
  exact (DefaultAppSystem.InTime.of_reachableUnder hguarded).reaped happs

/-- A run of the default app that another app takes over from: it exits while that app is
registered and is reaped. -/
def takenOver : List DefaultAppEvent :=
  [.call (.tick (quietTick 42)), .call (.newConnection 1),
    .call (.handleRequest 1 { messageType := .registerApp } 7 fun _ => 0), .childExits 42,
    .call (.tick { quietTick (-1) with waitpidResult := 42 }),
    .call (.handleRequest 1 { messageType := .appKill, appID := 7 } 0 fun _ => 0)]

theorem taken_over_comes_back :
    ∃ st st', (defaultAppRuns {} []).ReachableUnder DefaultAppSystem.ReapedInTime st ∧
      (defaultAppRuns {} []).step st (.call (.tick (quietTick 43))) = some st' ∧
      st.NotLeftDead (quietTick 43) st' := by
  obtain ⟨st, hreach, htest⟩ := TransitionSystem.ReachableUnder.of_test (M := defaultAppRuns {} [])
    DefaultAppSystem.ReapedInTime takenOver
    (fun st => st.server.apps == [] && (st.tick (quietTick 43)).isSome) (by decide)
  simp only [Bool.and_eq_true, beq_iff_eq, Option.isSome_iff_exists] at htest
  obtain ⟨happs, st', htick⟩ := htest
  exact ⟨st, st', hreach, htick,
    (default_app_comes_back {} [] hreach.reachable happs htick).1 hreach⟩

/-- The only app is killed by its reply to `appKill` and exits after it: the next ticks find
the dead child alive. -/
theorem killed_app_left_dead :
    ∃ st st' input, (defaultAppRuns {} []).Reachable st ∧ st.server.apps = [] ∧
      (defaultAppRuns {} []).step st (.call (.tick input)) = some st' ∧
      ¬ st.NotLeftDead input st' := by
  obtain ⟨st, hreach, htest⟩ := TransitionSystem.Reachable.of_test (M := defaultAppRuns {} [])
    [.call (.tick (quietTick 42)), .call (.newConnection 1),
      .call (.handleRequest 1 { messageType := .registerApp } 7 fun _ => 0),
      .call (.tick { quietTick (-1) with waitpidResult := 0 }),
      .call (.handleRequest 1 { messageType := .appKill, appID := 7 } 0 fun _ => 0),
      .childExits 42]
    (fun st => st.server.apps == [] &&
      (st.tick { quietTick 43 with waitpidResult := 42 }).any fun st' =>
        !decide (st.NotLeftDead { quietTick 43 with waitpidResult := 42 } st')) (by decide)
  simp only [Bool.and_eq_true, beq_iff_eq, Option.any_eq_true, Bool.not_eq_true',
    decide_eq_false_iff_not] at htest
  obtain ⟨happs, st', htick, hdead⟩ := htest
  exact ⟨st, st', _, hreach, happs, htick, hdead⟩

end MatrixServer
