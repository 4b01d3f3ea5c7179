import MatrixServer.Server.ServerCalls

/-!
The process of the default app.
Its states are those a parent can tell apart: running, exited but not reaped, and
gone. The process calls of `tick` answer as POSIX says for the state of the child,
`fork` may fail, and the child may exit at any time. `stopDefaultApp` is one event
for each turn of its loop and one for its end.
-/

namespace MatrixServer
open TransitionRuns

inductive ProcessState where
  | running | exited
  deriving DecidableEq

/-- The children of the server that have not been reaped. -/
abbrev Processes := Int → Option ProcessState

namespace Processes

def update (processes : Processes) (pid : Int) (state : Option ProcessState) : Processes :=
  fun other => if other = pid then state else processes other

/-- What `waitpid(pid, nullptr, WNOHANG)` returns. -/
def waitpid (processes : Processes) (pid : Int) : Int :=
  match processes pid with
  | some .running => 0
  | some .exited => pid
  | none => -1

/-- An exited child that is waited for is gone. -/
def reap (processes : Processes) (pid : Int) : Processes :=
  if processes pid = some .exited then processes.update pid none else processes

theorem running_of_reap {processes : Processes} {pid other : Int}
    (h : processes.reap pid other = some .running) : processes other = some .running := by
  simp only [reap] at h
  split at h
  · simp only [update] at h
    split at h
    · cases h
    · exact h
  · exact h

theorem reap_of_waitpid_zero {processes : Processes} {pid : Int} (hpid : pid > 0)
    (h : processes.waitpid pid = 0) : processes.reap pid = processes := by
  apply if_neg
  intro hexited
  simp only [waitpid, hexited] at h
  omega

/-- A child that `waitpid` reports on is not running after it. -/
theorem not_running_of_waitpid {processes : Processes} {pid : Int}
    (h : processes.waitpid pid ≠ 0) : processes.reap pid pid ≠ some .running := by
  intro hrun
  have hbefore := running_of_reap hrun
  simp [waitpid, hbefore] at h

/-- What an effect of `tick` does to the children; `forkResult` is what `fork` returns. -/
def after (forkResult : Int) (processes : Processes) : Effect → Processes
  | .waitpid pid => processes.reap pid
  | .fork => if forkResult > 0 then processes.update forkResult (some .running) else processes
  | _ => processes

end Processes

structure DefaultAppSystem where
  server : Server
  processes : Processes := fun _ => none

inductive DefaultAppEvent where
  /-- a call of the server -/
  | call (c : ServerCall)
  | childExits (pid : Int)
  /-- one turn of the loop in `stopDefaultApp` -/
  | stopPoll
  /-- `SIGKILL` and the blocking `waitpid` at the end of `stopDefaultApp` -/
  | stopForce

namespace DefaultAppSystem

/-- The process calls of a tick answer as POSIX says. What `kill` answers about a process that
is no child of the server is left open. -/
structure AnswersPosix (st : DefaultAppSystem) (input : Server.TickInput) : Prop where
  kill : st.processes st.server.defaultAppPid ≠ none → input.killSucceeds = true
  waitpid : input.waitpidResult = st.processes.waitpid st.server.defaultAppPid
  fork : input.forkResult = -1 ∨ 0 < input.forkResult ∧ st.processes input.forkResult = none

instance (st : DefaultAppSystem) (input : Server.TickInput) : Decidable (st.AnswersPosix input) :=
  decidable_of_iff ((st.processes st.server.defaultAppPid ≠ none → input.killSucceeds = true) ∧
      input.waitpidResult = st.processes.waitpid st.server.defaultAppPid ∧
      (input.forkResult = -1 ∨ 0 < input.forkResult ∧ st.processes input.forkResult = none))
    ⟨fun h => ⟨h.1, h.2.1, h.2.2⟩, fun h => ⟨h.kill, h.waitpid, h.fork⟩⟩

def forgetPid (st : DefaultAppSystem) (processes : Processes) : DefaultAppSystem :=
  { server := { st.server with defaultAppPid := -1 }, processes }

def stopPoll (st : DefaultAppSystem) : Option DefaultAppSystem :=
  let pid := st.server.defaultAppPid
  if pid > 0 then
    some (if st.processes.waitpid pid ≠ 0 then st.forgetPid (st.processes.reap pid) else st)
  else none

def stopForce (st : DefaultAppSystem) : Option DefaultAppSystem :=
  let pid := st.server.defaultAppPid
  if pid > 0 then some (st.forgetPid (st.processes.update pid none)) else none

def tick (st : DefaultAppSystem) (input : Server.TickInput) : Option DefaultAppSystem :=
  if st.AnswersPosix input then
    let ticked := st.server.tick input
    some {
      server := ticked.1
      processes := ticked.2.foldl (Processes.after input.forkResult) st.processes }
  else none

def step (st : DefaultAppSystem) : DefaultAppEvent → Option DefaultAppSystem
  | .call (.tick input) => st.tick input
  | .call c => some { st with server := (st.server.call c).1 }
  | .childExits pid =>
      if st.processes pid = some .running then
        some { st with processes := st.processes.update pid (some .exited) }
      else none
  | .stopPoll => st.stopPoll
  | .stopForce => st.stopForce

end DefaultAppSystem

def defaultAppRuns (serverConfig : ServerConfig) (renderers : List Renderer) :
    TransitionSystem DefaultAppSystem DefaultAppEvent where
  initial := { server := .start serverConfig renderers }
  step := DefaultAppSystem.step

namespace Server

theorem removeDeadApps_sends {s : Server} {isDead : ConnectionId → Bool} {e : Effect}
    (he : e ∈ (s.removeDeadApps isDead).2) :
    ∃ connection message, e = .send connection message := by
  simp only [removeDeadApps, resumeTopApp, tellTopApp] at he
  split at he
  · split at he
    · exact False.elim (List.not_mem_nil he)
    · exact ⟨_, _, List.mem_singleton.mp he⟩
  · exact False.elim (List.not_mem_nil he)

theorem startDefaultApp_busy {s : Server} (h : s.apps ≠ []) (input : TickInput) :
    s.startDefaultApp input = (s, []) := by
  simp [startDefaultApp, h]

theorem reapDefaultApp_idle {s : Server} (h : s.apps = []) (input : TickInput) :
    s.reapDefaultApp input = (s, []) := by
  simp [reapDefaultApp, h]

/-- `tick` forks only when no app is registered. -/
theorem apps_of_fork {s : Server} {input : TickInput} (h : .fork ∈ (s.tick input).2) :
    s.apps = [] := by
  by_contra hbusy
  simp only [tick, startDefaultApp_busy hbusy, List.append_nil, List.mem_append] at h
  obtain (hkill | hreap) | hremove := h
  · obtain ⟨app, -, heq⟩ := mem_killTopApp hkill
    cases heq
  · simp only [reapDefaultApp, if_pos hbusy] at hreap
    split at hreap
    · cases List.mem_singleton.mp hreap
    · exact List.not_mem_nil hreap
  · obtain ⟨connection, message, heq⟩ := removeDeadApps_sends hremove
    cases heq

end Server

namespace DefaultAppSystem

theorem foldl_after_sends {effects : List Effect} (forkResult : Int) (processes : Processes)
    (h : ∀ e ∈ effects, ∃ connection message, e = .send connection message) :
    effects.foldl (Processes.after forkResult) processes = processes := by
  induction effects with
  | nil => rfl
  | cons e effects ih =>
      obtain ⟨connection, message, rfl⟩ := h e List.mem_cons_self
      exact ih fun e he => h e (List.mem_cons_of_mem _ he)

/-- Of the effects of a tick, those on the default app reach the children. -/
theorem foldl_after_tick (s : Server) (input : Server.TickInput) (processes : Processes) :
    (s.tick input).2.foldl (Processes.after input.forkResult) processes =
      ((s.startDefaultApp input).2 ++ ((s.startDefaultApp input).1.reapDefaultApp input).2).foldl
        (Processes.after input.forkResult) processes := by
  simp only [Server.tick, List.foldl_append]
  rw [foldl_after_sends _ processes fun e he => ?_, foldl_after_sends]
  · exact fun e he => Server.removeDeadApps_sends he
  · obtain ⟨app, -, heq⟩ := Server.mem_killTopApp he
    exact ⟨_, _, heq⟩

/-- Only the process whose id is kept may run; while an id is kept its process is not reaped. -/
structure Inv (st : DefaultAppSystem) : Prop where
  tracked : st.server.defaultAppPid > 0 → st.processes st.server.defaultAppPid ≠ none
  only : ∀ pid, st.processes pid = some .running → 0 < pid ∧ pid = st.server.defaultAppPid

theorem tick_pid (s : Server) (input : Server.TickInput) : (s.tick input).1.defaultAppPid =
    ((s.startDefaultApp input).1.reapDefaultApp input).1.defaultAppPid := rfl

/-- What a tick can do to the child: start one while none is tracked, look after the tracked
one, or nothing. -/
theorem tick_cases {st st' : DefaultAppSystem} (h : st.Inv) {input : Server.TickInput}
    (htick : st.tick input = some st') :
    (st.server.defaultAppPid ≤ 0 ∧ 0 < input.forkResult ∧
        st'.server.defaultAppPid = input.forkResult ∧
        st'.processes = st.processes.update input.forkResult (some .running)) ∨
      (0 < st.server.defaultAppPid ∧
        st.processes.waitpid st.server.defaultAppPid ≠ 0 ∧ st'.server.defaultAppPid = -1 ∧
        st'.processes = st.processes.reap st.server.defaultAppPid) ∨
      (st'.server.defaultAppPid = st.server.defaultAppPid ∧ st'.processes = st.processes) := by
  simp only [tick] at htick
  split at htick
  · rename_i hposix
    cases htick
    simp only [foldl_after_tick, tick_pid]
    by_cases happs : st.server.apps = []
    · have hidle : (st.server.startDefaultApp input).1.apps = [] :=
        (Server.startDefaultApp_processCallsOnly st.server input).apps.trans happs
      rw [Server.reapDefaultApp_idle hidle, List.append_nil]
      simp only [Server.startDefaultApp]
      split
      · by_cases hpid : st.server.defaultAppPid > 0
        · have hkill := hposix.kill (h.tracked hpid)
          simp [hpid, hkill]
        · cases hposix.fork with
          | inl hfailed => simp [hpid, hfailed, Processes.after]
          | inr hforked =>
              have hle : st.server.defaultAppPid ≤ 0 := by omega
              simp [hpid, hforked.1, hle, Processes.after]
      · exact .inr (.inr ⟨rfl, rfl⟩)
    · rw [Server.startDefaultApp_busy happs, List.nil_append]
      simp only [Server.reapDefaultApp, if_pos happs, hposix.waitpid]
      split
      · rename_i hpid
        by_cases hwait : st.processes.waitpid st.server.defaultAppPid = 0
        · right
          right
          simp [hwait, Processes.after, Processes.reap_of_waitpid_zero hpid hwait]
        · right
          left
          simp [hwait, hpid, Processes.after]
      · exact .inr (.inr ⟨rfl, rfl⟩)
  · cases htick

theorem Inv.tick {st st' : DefaultAppSystem} (h : st.Inv) {input : Server.TickInput}
    (htick : st.tick input = some st') : st'.Inv := by
  obtain ⟨hnone, hforked, hpid, hprocesses⟩ | ⟨hpid, hwait, hcleared, hprocesses⟩ |
    ⟨hpid, hprocesses⟩ := tick_cases h htick
  · refine ⟨fun _ => ?_, fun pid hrun => ?_⟩
    · simp [hpid, hprocesses, Processes.update]
    · simp only [hprocesses, Processes.update] at hrun
      split at hrun
      · rename_i heq
        rw [heq, hpid]
        exact ⟨hforked, rfl⟩
      · have hold := h.only pid hrun
        omega
  · refine ⟨fun hpos => by omega, fun pid hrun => ?_⟩
    rw [hprocesses] at hrun
    have hold := h.only pid (Processes.running_of_reap hrun)
    rw [hold.2] at hrun
    exact absurd hrun (Processes.not_running_of_waitpid hwait)
  · refine ⟨fun hpos => ?_, fun pid hrun => ?_⟩
    · rw [hprocesses, hpid]
      exact h.tracked (hpid ▸ hpos)
    · rw [hpid]
      exact h.only pid (hprocesses ▸ hrun)

theorem Inv.forgetPid {st : DefaultAppSystem} (h : st.Inv) {processes : Processes}
    (hother : ∀ pid, processes pid = some .running → st.processes pid = some .running)
    (hgone : processes st.server.defaultAppPid ≠ some .running) :
    (st.forgetPid processes).Inv := by
  refine ⟨fun hpos => absurd hpos (by simp [DefaultAppSystem.forgetPid]), fun pid hrun => ?_⟩
  have hold := h.only pid (hother pid hrun)
  rw [hold.2] at hrun
  exact absurd hrun hgone

/-- A call that is no tick keeps the default app's id. -/
theorem call_defaultAppPid (s : Server) {c : ServerCall} (h : ∀ input, c ≠ .tick input) :
    (s.call c).1.defaultAppPid = s.defaultAppPid := by
  cases c with
  | tick input => exact absurd rfl (h input)
  | newConnection connection | clientMessage renderer message => rfl
  | handleRequest connection message rand beyond =>
      simp only [Server.call, Server.handleRequest]
      cases message.messageType with
      | registerApp =>
          simp only [Server.registerApp]
          split <;> rfl
      | setScreenFrame =>
          simp only [Server.setScreenFrame]
          split <;> rfl
      | _ => rfl

theorem Inv.call {st : DefaultAppSystem} (h : st.Inv) {c : ServerCall}
    (hother : ∀ input, c ≠ .tick input) :
    Inv { st with server := (st.server.call c).1 } := by
  have hpid := call_defaultAppPid st.server hother
  exact ⟨fun hpos => hpid ▸ h.tracked (hpid ▸ hpos), fun pid hrun => hpid ▸ h.only pid hrun⟩

theorem Inv.step {st st' : DefaultAppSystem} {e : DefaultAppEvent} (h : st.Inv)
    (hstep : st.step e = some st') : st'.Inv := by
  cases e with
  | call c =>
      cases c with
      | tick input => exact h.tick hstep
      | newConnection _ | handleRequest _ _ _ _ | clientMessage _ _ =>
          cases hstep
          exact h.call fun _ heq => by cases heq
  | childExits pid =>
      simp only [DefaultAppSystem.step] at hstep
      split at hstep
      · cases hstep
        refine ⟨fun hpos => ?_, fun other hrun => ?_⟩
        · simp only [Processes.update]
          split
          · exact fun hnone => by cases hnone
          · exact h.tracked hpos
        · simp only [Processes.update] at hrun
          split at hrun
          · cases hrun
          · exact h.only other hrun
      · cases hstep
  | stopPoll =>
      simp only [DefaultAppSystem.step, stopPoll] at hstep
      split at hstep
      · cases hstep
        split
        · rename_i hwait
          exact h.forgetPid (fun _ => Processes.running_of_reap)
            (Processes.not_running_of_waitpid hwait)
        · exact h
      · cases hstep
  | stopForce =>
      simp only [DefaultAppSystem.step, stopForce] at hstep
      split at hstep
      · cases hstep
        refine h.forgetPid (fun pid hrun => ?_) (by simp [Processes.update])
        simp only [Processes.update] at hrun
        split at hrun
        · cases hrun
        · exact hrun
      · cases hstep

theorem inv_start (serverConfig : ServerConfig) (renderers : List Renderer) :
    Inv { server := .start serverConfig renderers } :=
  ⟨fun hpos => absurd hpos (by simp [Server.start]), fun _ hrun => by cases hrun⟩

end DefaultAppSystem

/-- Of the server's children at most one runs, the server knows its id, and a tick forks
only when no app is registered. -/
theorem at_most_one_default_app (serverConfig : ServerConfig) (renderers : List Renderer)
    (st : DefaultAppSystem) (h : (defaultAppRuns serverConfig renderers).Reachable st) :
    (∀ pid pid', st.processes pid = some .running → st.processes pid' = some .running →
      pid = pid') ∧
    (∀ pid, st.processes pid = some .running → st.server.defaultAppPid = pid) ∧
    ∀ input, .fork ∈ (st.server.tick input).2 → st.server.apps = [] := by
  have hinv : st.Inv := h.invariant DefaultAppSystem.Inv
    (DefaultAppSystem.inv_start serverConfig renderers) fun _ _ _ hinv _ hstep => hinv.step hstep
  refine ⟨fun pid pid' hrun hrun' => ?_, fun pid hrun => (hinv.only pid hrun).2.symm,
    fun _ hfork => Server.apps_of_fork hfork⟩
  rw [(hinv.only pid hrun).2, (hinv.only pid' hrun').2]

/-- What a tick learns while nothing is wrong. -/
def quietTick (forkResult : Int) : Server.TickInput where
  killButton := false
  killSucceeds := true
  waitpidResult := -1
  forkResult := forkResult
  isDead := fun _ => false

theorem default_app_running_after_tick :
    ∃ st, (defaultAppRuns {} []).Reachable st ∧ st.processes 42 = some .running ∧
      st.server.defaultAppPid = 42 := by
  obtain ⟨st, hreach, htest⟩ := TransitionSystem.Reachable.of_test (M := defaultAppRuns {} [])
    [.call (.tick (quietTick 42))] (fun st => st.processes 42 == some .running) (by decide)
  have hrun := beq_iff_eq.mp htest
  exact ⟨st, hreach, hrun, (at_most_one_default_app {} [] st hreach).2.1 42 hrun⟩

end MatrixServer
