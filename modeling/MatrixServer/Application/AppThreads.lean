import MatrixServer.Application.MatrixApplication

/-!
The threads of an application.
The main thread runs `internalLoop`; the receive thread runs the message handler
for the connection. Each reconnect starts a further thread, which handles the
messages of the new connection while one of the lost connection may still be in
`stop`. A step of the main thread goes from one access to
shared state to the next: the read of `appState`, the wait that clears
`frameAcked`, `loop` with `renderToScreens`, the test for `killed`, and
`checkConnection`. What `loop` does to the screens, whether it throws and whether
a reconnect succeeds come from outside. Sleeping is left out.
-/

namespace MatrixServer

/-- Where the main thread is; `running` is the local variable of `internalLoop`. -/
inductive MainPosition where
  | loopTop
  /-- It has found the app running and waits for `frameAcked`. -/
  | frameWait
  | drawing
  | checkKilled (running : Bool)
  | checkConnection (running : Bool)
  | finished
  deriving DecidableEq

inductive ReceivePosition where
  | idle
  /-- in `stop`, waiting for the main thread to finish -/
  | joining
  /-- An exception left the handler and ended the process. -/
  | terminated
  deriving DecidableEq

structure AppConnection where
  id : Nat := 0
  dead : Bool := false
  deriving DecidableEq

structure AppProcess where
  app : MatrixApplication
  /-- `start` has been called, which a program does once -/
  started : Bool := false
  mainThread : Option MainPosition := none
  /-- handles the messages of the present connection -/
  receiveThread : ReceivePosition := .idle
  /-- how many threads `connect` has started, one at each success -/
  threads : Nat := 1
  /-- how many of them lost their connection while in `stop` -/
  stopping : Nat := 0
  connection : AppConnection := {}

/-- What one turn of `loop` and `renderToScreens` does. -/
inductive LoopOutcome where
  | returned (running : Bool) (screens : List Screen) (brightness : Option Int)
  | loopThrew (screens : List Screen) (brightness : Option Int)
  | renderThrew (running : Bool) (screens : List Screen) (brightness : Option Int)

/-- `loop` and `renderToScreens` return. -/
def LoopOutcome.returns : LoopOutcome → Bool
  | .returned _ _ _ => true
  | _ => false

namespace AppProcess

def goTo (p : AppProcess) (position : MainPosition) : AppProcess :=
  { p with mainThread := some position }

/-- The test of `while (running)`. -/
def nextTurn (running : Bool) : MainPosition := if running then .loopTop else .finished

def takeFrame (p : AppProcess) : AppProcess :=
  { p.goTo .drawing with app := { p.app with frameAcked := false } }

/-- The application once `loop` has drawn the screens and maybe set the brightness. -/
def afterLoop (p : AppProcess) (screens : List Screen) : Option Int → MatrixApplication
  | none => { p.app with screens }
  | some brightness => { p.app with screens }.setBrightness brightness

/-- `running = loop(); renderToScreens();`, with the `catch` when one of them throws. -/
def draw (p : AppProcess) : LoopOutcome → AppProcess × List MatrixServerMessage
  | .returned running screens brightness =>
      let rendered := (p.afterLoop screens brightness).renderToScreens
      ({ p.goTo (.checkKilled running) with app := rendered.1 }, [rendered.2])
  | .loopThrew screens brightness =>
      ({ p.goTo .loopTop with app := p.afterLoop screens brightness }, [])
  | .renderThrew running screens brightness =>
      let rendered := (p.afterLoop screens brightness).renderToScreens
      ({ p.goTo (nextTurn running) with app := rendered.1 }, [])

/-- `connect` starts a thread for the new connection; one that is in `stop` stays there. -/
def startThread (p : AppProcess) : AppProcess :=
  { p with
    threads := p.threads + 1
    stopping := if p.receiveThread = .joining then p.stopping + 1 else p.stopping
    receiveThread := if p.receiveThread = .joining then .idle else p.receiveThread }

def checkConnection (p : AppProcess) (running connects : Bool) :
    AppProcess × List MatrixServerMessage :=
  if p.connection.dead then
    let failed :=
      { p.goTo (nextTurn running) with
        app := { p.app with appState := .failure }
        connection := { id := p.connection.id + 1, dead := !connects } }
    if connects then (failed.startThread, [MatrixApplication.registerAtServer]) else (failed, [])
  else (p.goTo (nextTurn running), [])

/-- One step of the main thread; none when it waits, has not started or has ended. -/
def mainStep (p : AppProcess) (outcome : LoopOutcome) (connects : Bool) :
    Option (AppProcess × List MatrixServerMessage) :=
  if p.receiveThread = .terminated then none
  else match p.mainThread with
    | none | some .finished => none
    | some .loopTop =>
        some (p.goTo (if p.app.appState = .running then .frameWait else .checkKilled true), [])
    | some .frameWait => if p.app.frameAcked then some (p.takeFrame, []) else none
    | some .drawing => some (p.draw outcome)
    | some (.checkKilled running) =>
        some (p.goTo (.checkConnection (running && p.app.appState ≠ .killed)), [])
    | some (.checkConnection running) => some (p.checkConnection running connects)

/-- Where the receive thread is after the handler has had these effects. -/
def afterHandling (p : AppProcess) (effects : List AppEffect) : ReceivePosition :=
  if .lengthError ∈ effects then .terminated
  else if .join ∈ effects ∧ p.mainThread ≠ none then .joining
  else .idle

def deliver (p : AppProcess) (message : MatrixServerMessage) :
    Option (AppProcess × List AppEffect) :=
  if p.receiveThread = .idle then
    let handled := p.app.handleRequest message
    some ({ p with app := handled.1, receiveThread := p.afterHandling handled.2 }, handled.2)
  else none

/-- `join` returns; `delete mainThread; mainThread = nullptr;` -/
def join (p : AppProcess) : Option AppProcess :=
  if p.receiveThread = .joining ∧ p.mainThread = some .finished then
    some { p with mainThread := none, receiveThread := .idle }
  else none

/-- The same for a thread whose connection was lost meanwhile. -/
def joinFormer (p : AppProcess) : Option AppProcess :=
  if p.stopping ≠ 0 ∧ p.mainThread = some .finished then
    some { p with mainThread := none, stopping := p.stopping - 1 }
  else none

/-- Some thread is outside `stop` and can run what was posted. -/
def hasFreeThread (p : AppProcess) : Bool :=
  p.receiveThread = .idle || p.receiveThread = .joining && p.stopping + 1 < p.threads

def start (p : AppProcess) : Option (AppProcess × List MatrixServerMessage) :=
  if p.receiveThread ≠ .terminated ∧ p.mainThread = none ∧ p.started = false then
    some ({ p.goTo .loopTop with started := true }, [MatrixApplication.registerAtServer])
  else none

/-- A read or write of the connection fails. -/
def lose (p : AppProcess) : AppProcess :=
  { p with connection := { p.connection with dead := true } }

/-- The steps of the main thread, by the position they start from. -/
inductive MainStep (p : AppProcess) (outcome : LoopOutcome) :
    AppProcess → List MatrixServerMessage → Prop where
  | enter : p.mainThread = some .loopTop → p.app.appState = .running →
      MainStep p outcome (p.goTo .frameWait) []
  | skip : p.mainThread = some .loopTop → p.app.appState ≠ .running →
      MainStep p outcome (p.goTo (.checkKilled true)) []
  | pass : p.mainThread = some .frameWait → p.app.frameAcked = true →
      MainStep p outcome p.takeFrame []
  | draw : p.mainThread = some .drawing → MainStep p outcome (p.draw outcome).1 (p.draw outcome).2
  | checkKilled (running : Bool) : p.mainThread = some (.checkKilled running) →
      MainStep p outcome (p.goTo (.checkConnection (running && p.app.appState ≠ .killed))) []
  | checkConnection (running connects : Bool) : p.mainThread = some (.checkConnection running) →
      MainStep p outcome (p.checkConnection running connects).1
        (p.checkConnection running connects).2

theorem mainStep_cases {p p' : AppProcess} {outcome : LoopOutcome} {connects : Bool}
    {sent : List MatrixServerMessage} (h : p.mainStep outcome connects = some (p', sent)) :
    p.receiveThread ≠ .terminated ∧ MainStep p outcome p' sent := by
  simp only [mainStep] at h
  split at h
  · cases h
  · rename_i halive
    refine ⟨halive, ?_⟩
    split at h
    · cases h
    · cases h
    · rename_i hmain
      by_cases hrunning : p.app.appState = .running
      · rw [if_pos hrunning] at h
        cases h
        exact .enter hmain hrunning
      · rw [if_neg hrunning] at h
        cases h
        exact .skip hmain hrunning
    · rename_i hmain
      split at h
      · rename_i hacked
        cases h
        exact .pass hmain hacked
      · cases h
    · rename_i hmain
      have hstep : MainStep p outcome _ _ := .draw hmain
      rw [Option.some.inj h] at hstep
      exact hstep
    · rename_i running hmain
      cases h
      exact .checkKilled running hmain
    · rename_i running hmain
      have hstep : MainStep p outcome _ _ := .checkConnection running connects hmain
      rw [Option.some.inj h] at hstep
      exact hstep

theorem start_cases {p p' : AppProcess} {sent : List MatrixServerMessage}
    (h : p.start = some (p', sent)) :
    (p.receiveThread ≠ .terminated ∧ p.mainThread = none ∧ p.started = false) ∧
      p' = { p.goTo .loopTop with started := true } ∧
        sent = [MatrixApplication.registerAtServer] := by
  simp only [start] at h
  split at h
  · rename_i hfresh
    cases h
    exact ⟨hfresh, rfl, rfl⟩
  · cases h

theorem deliver_cases {p p' : AppProcess} {message : MatrixServerMessage}
    {effects : List AppEffect} (h : p.deliver message = some (p', effects)) :
    p.receiveThread = .idle ∧
      ∃ app, MatrixApplication.Handles message.messageType p.app app effects ∧
        p' = { p with app, receiveThread := p.afterHandling effects } := by
  simp only [deliver] at h
  split at h
  · rename_i hidle
    cases h
    exact ⟨hidle, _, MatrixApplication.handleRequest_handles _ _, rfl⟩
  · cases h

theorem join_cases {p p' : AppProcess} (h : p.join = some p') :
    (p.receiveThread = .joining ∧ p.mainThread = some .finished) ∧
      p' = { p with mainThread := none, receiveThread := .idle } := by
  simp only [join] at h
  split at h
  · rename_i hdone
    cases h
    exact ⟨hdone, rfl⟩
  · cases h

theorem joinFormer_cases {p p' : AppProcess} (h : p.joinFormer = some p') :
    p.mainThread = some .finished ∧
      p' = { p with mainThread := none, stopping := p.stopping - 1 } := by
  simp only [joinFormer] at h
  split at h
  · rename_i hdone
    cases h
    exact ⟨hdone.2, rfl⟩
  · cases h

@[simp] theorem goTo_app (p : AppProcess) (position : MainPosition) :
    (p.goTo position).app = p.app := rfl

@[simp] theorem goTo_mainThread (p : AppProcess) (position : MainPosition) :
    (p.goTo position).mainThread = some position := rfl

@[simp] theorem goTo_receiveThread (p : AppProcess) (position : MainPosition) :
    (p.goTo position).receiveThread = p.receiveThread := rfl

@[simp] theorem goTo_connection (p : AppProcess) (position : MainPosition) :
    (p.goTo position).connection = p.connection := rfl

theorem join_of_afterHandling {p : AppProcess} {effects : List AppEffect}
    (h : p.afterHandling effects = .joining) : .join ∈ effects ∧ p.mainThread ≠ none := by
  simp only [afterHandling] at h
  split at h
  · cases h
  · split at h
    · assumption
    · cases h

/-- Drawing changes neither what the threads test nor the connection. -/
structure SameTests (p p' : AppProcess) : Prop where
  started : p'.started = p.started
  frameAcked : p'.app.frameAcked = p.app.frameAcked
  appState : p'.app.appState = p.app.appState
  receiveThread : p'.receiveThread = p.receiveThread
  connection : p'.connection = p.connection

theorem draw_sameTests (p : AppProcess) (outcome : LoopOutcome) :
    SameTests p (p.draw outcome).1 := by
  cases outcome with
  | returned _ _ brightness | loopThrew _ brightness | renderThrew _ _ brightness =>
      cases brightness <;> exact ⟨rfl, rfl, rfl, rfl, rfl⟩

theorem draw_mainThread (p : AppProcess) (outcome : LoopOutcome) :
    (∃ running, (p.draw outcome).1.mainThread = some (.checkKilled running)) ∨
      ∃ running, (p.draw outcome).1.mainThread = some (nextTurn running) := by
  cases outcome with
  | returned running screens brightness => exact .inl ⟨running, rfl⟩
  | loopThrew screens brightness => exact .inr ⟨true, rfl⟩
  | renderThrew running screens brightness => exact .inr ⟨running, rfl⟩

/-- The next turn starts before the gate. -/
theorem nextTurn_leaves (running : Bool) :
    nextTurn running ≠ .frameWait ∧ nextTurn running ≠ .drawing := by
  cases running <;> exact ⟨nofun, nofun⟩

theorem draw_leaves (p : AppProcess) (outcome : LoopOutcome) :
    (p.draw outcome).1.mainThread ≠ some .frameWait ∧
      (p.draw outcome).1.mainThread ≠ some .drawing := by
  obtain ⟨running, hmain⟩ | ⟨running, hmain⟩ := p.draw_mainThread outcome
  · rw [hmain]
    exact ⟨nofun, nofun⟩
  · simpa only [hmain, ne_eq, Option.some.injEq] using nextTurn_leaves running

theorem checkConnection_live {p : AppProcess} (hlive : p.connection.dead = false)
    (running connects : Bool) :
    p.checkConnection running connects = (p.goTo (nextTurn running), []) := by
  rw [checkConnection, hlive, if_neg Bool.false_ne_true]

theorem checkConnection_app (p : AppProcess) (running connects : Bool) :
    (p.checkConnection running connects).1.app =
      if p.connection.dead then { p.app with appState := .failure } else p.app := by
  simp only [checkConnection]
  split
  · cases connects <;> rfl
  · rfl

theorem checkConnection_connection (p : AppProcess) (running connects : Bool) :
    (p.checkConnection running connects).1.connection =
      if p.connection.dead then { id := p.connection.id + 1, dead := !connects }
      else p.connection := by
  simp only [checkConnection]
  split
  · cases connects <;> rfl
  · rfl

@[simp] theorem checkConnection_started (p : AppProcess) (running connects : Bool) :
    (p.checkConnection running connects).1.started = p.started := by
  simp only [checkConnection]
  split
  · cases connects <;> rfl
  · rfl

@[simp] theorem checkConnection_mainThread (p : AppProcess) (running connects : Bool) :
    (p.checkConnection running connects).1.mainThread = some (nextTurn running) := by
  simp only [checkConnection]
  split
  · cases connects <;> rfl
  · rfl

/-- Only a reconnect while the receive thread is in `stop` frees the receive thread. -/
theorem checkConnection_receiveThread (p : AppProcess) (running connects : Bool) :
    (p.checkConnection running connects).1.receiveThread = p.receiveThread ∨
      p.receiveThread = .joining ∧
        (p.checkConnection running connects).1.receiveThread = .idle := by
  simp only [checkConnection]
  split
  · cases connects with
    | false => exact .inl rfl
    | true =>
        by_cases hjoin : p.receiveThread = .joining
        · exact .inr ⟨hjoin, if_pos hjoin⟩
        · exact .inl (if_neg hjoin)
  · exact .inl rfl

@[simp] theorem checkConnection_frameAcked (p : AppProcess) (running connects : Bool) :
    (p.checkConnection running connects).1.app.frameAcked = p.app.frameAcked := by
  rw [checkConnection_app]
  split <;> rfl

section
variable {p p' : AppProcess} {outcome : LoopOutcome} {sent : List MatrixServerMessage}

theorem MainStep.receiveThread (h : MainStep p outcome p' sent) :
    p'.receiveThread = p.receiveThread ∨
      p.receiveThread = .joining ∧ p'.receiveThread = .idle := by
  cases h with
  | enter | skip | pass | checkKilled => exact .inl rfl
  | draw => exact .inl (p.draw_sameTests outcome).receiveThread
  | checkConnection running connects => exact p.checkConnection_receiveThread running connects

theorem MainStep.joining (h : MainStep p outcome p' sent) (hjoin : p'.receiveThread = .joining) :
    p.receiveThread = .joining :=
  h.receiveThread.elim (fun hsame => hsame ▸ hjoin) And.left

theorem MainStep.alive (h : MainStep p outcome p' sent) (halive : p.receiveThread ≠ .terminated) :
    p'.receiveThread ≠ .terminated := by
  obtain hsame | ⟨_, hidle⟩ := h.receiveThread
  · exact hsame ▸ halive
  · rw [hidle]
    exact nofun

theorem MainStep.awake (h : MainStep p outcome p' sent) : p.mainThread ≠ none := by
  cases h with
  | enter hpos | skip hpos | pass hpos | draw hpos | checkKilled _ hpos
  | checkConnection _ _ hpos =>
      rw [hpos]
      exact Option.some_ne_none _

theorem MainStep.started (h : MainStep p outcome p' sent) : p'.started = p.started := by
  cases h with
  | enter | skip | pass | checkKilled => rfl
  | draw => exact (p.draw_sameTests outcome).started
  | checkConnection running connects => exact p.checkConnection_started running connects

/-- The main thread changes `appState` only when it finds the connection dead. -/
theorem MainStep.appState (h : MainStep p outcome p' sent) :
    p'.app.appState = p.app.appState ∨ p'.app.appState = .failure := by
  cases h with
  | enter | skip | pass | checkKilled => exact .inl rfl
  | draw => exact .inl (p.draw_sameTests outcome).appState
  | checkConnection running connects =>
      rw [checkConnection_app]
      split
      · exact .inr rfl
      · exact .inl rfl

/-- The main thread starts to wait only when it finds the app running. -/
theorem MainStep.waits (h : MainStep p outcome p' sent) (hwait : p'.mainThread = some .frameWait) :
    p.app.appState = .running := by
  cases h with
  | enter _ hrunning => exact hrunning
  | skip | pass | checkKilled => cases hwait
  | draw => exact absurd hwait (p.draw_leaves outcome).1
  | checkConnection running connects =>
      rw [checkConnection_mainThread] at hwait
      exact absurd (Option.some.inj hwait) (nextTurn_leaves running).1

/-- Only a pass of the gate brings the main thread to drawing. -/
theorem MainStep.draws (h : MainStep p outcome p' sent) (hdraw : p'.mainThread = some .drawing) :
    p.mainThread = some .frameWait ∧ p.app.frameAcked = true ∧ p' = p.takeFrame := by
  cases h with
  | enter | skip | checkKilled => cases hdraw
  | pass hpos hacked => exact ⟨hpos, hacked, rfl⟩
  | draw => exact absurd hdraw (p.draw_leaves outcome).2
  | checkConnection running connects =>
      rw [checkConnection_mainThread] at hdraw
      exact absurd (Option.some.inj hdraw) (nextTurn_leaves running).2

/-- A step of the main thread that does not pass the gate leaves `frameAcked` alone. -/
theorem MainStep.frameAcked (h : MainStep p outcome p' sent)
    (hdraw : p'.mainThread ≠ some .drawing) : p'.app.frameAcked = p.app.frameAcked := by
  cases h with
  | enter | skip | checkKilled => rfl
  | pass => exact absurd rfl hdraw
  | draw => exact (p.draw_sameTests outcome).frameAcked
  | checkConnection running connects => exact p.checkConnection_frameAcked running connects

/-- A turn that returns gives its frame to the connection. -/
theorem MainStep.sends (h : MainStep p outcome p' sent)
    (hdraw : p.mainThread = some .drawing) (hreturns : outcome.returns = true) :
    ∃ message ∈ sent, message.messageType = .setScreenFrame := by
  cases h with
  | enter hpos | skip hpos | pass hpos | checkKilled _ hpos | checkConnection _ _ hpos =>
      cases hpos.symm.trans hdraw
  | draw =>
      cases outcome with
      | returned running screens brightness => exact ⟨_, List.mem_singleton_self _, rfl⟩
      | loopThrew | renderThrew => cases hreturns

end
end AppProcess
end MatrixServer
