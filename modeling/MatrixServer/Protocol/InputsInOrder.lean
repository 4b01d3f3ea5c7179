import MatrixServer.Foundation.PictureBoard
import MatrixServer.Protocol.Introductions

/-!
From a browser to the applications.
The server forwards sensor data, audio and controllers to every application and parameters to
the one addressed or on top. The channels keep these messages in order, among everything else
that the server sends, so what an application knows of its inputs is what the first of the
forwarded messages make of it, and the others are on their way.
-/

namespace MatrixServer
open TransitionRuns PictureBoard

/-- A message that a browser sends to applications. -/
def MatrixServerMessage.isInput (message : MatrixServerMessage) : Bool :=
  forwardedToApps message.messageType

/-- What an application keeps of its inputs. -/
structure AppInputs where
  params : AnimationParams
  latestSimulatorImu : ImuData := {}
  latestAudioVolume : UInt8 := 0
  latestAudioFrequencies : List UInt8 := []

def MatrixApplication.inputs (a : MatrixApplication) : AppInputs where
  params := a.params
  latestSimulatorImu := a.latestSimulatorImu
  latestAudioVolume := a.latestAudioVolume
  latestAudioFrequencies := a.latestAudioFrequencies

/-- What an input makes of them. -/
def AppInputs.take (inputs : AppInputs) (message : MatrixServerMessage) : AppInputs :=
  match message.messageType with
  | .setAppParam =>
      match message.appParamUpdate with
      | some update => { inputs with params := inputs.params.applyUpdate update }
      | none => inputs
  | .imuData => { inputs with latestSimulatorImu := message.imuData.getD {} }
  | .audioDataMessage =>
      match message.audioData with
      | some audioData =>
          { inputs with
            latestAudioVolume := audioData.volume.toUInt8
            latestAudioFrequencies := audioData.frequencyBands.map UInt32.toUInt8 }
      | none => inputs
  | _ => inputs

theorem AppInputs.take_of_not_input (inputs : AppInputs) {message : MatrixServerMessage}
    (h : message.isInput = false) : inputs.take message = inputs := by
  simp only [take]
  cases htype : message.messageType with
  | setAppParam | imuData | audioDataMessage =>
      rw [MatrixServerMessage.isInput, htype] at h
      cases h
  | _ => rfl

theorem MatrixApplication.handleRequest_inputs (a : MatrixApplication)
    (message : MatrixServerMessage) :
    (a.handleRequest message).1.inputs = a.inputs.take message := by
  simp only [handleRequest, AppInputs.take]
  cases message.messageType with
  | registerApp =>
      simp only [register]
      split <;> rfl
  | getServerInfo =>
      simp only [setServerConfig]
      split <;> rfl
  | appPause =>
      simp only [pause]
      split <;> rfl
  | appResume =>
      simp only [resume]
      split <;> rfl
  | audioDataMessage => cases message.audioData <;> rfl
  | setAppParam => cases message.appParamUpdate <;> rfl
  | _ => rfl

theorem AppProcess.MainStep.inputs {p p' : AppProcess} {outcome : LoopOutcome}
    {sent : List MatrixServerMessage} (h : MainStep p outcome p' sent) :
    p'.app.inputs = p.app.inputs := by
  cases h with
  | enter | skip | pass | checkKilled => rfl
  | draw =>
      cases outcome with
      | returned _ _ brightness | loopThrew _ brightness | renderThrew _ _ brightness =>
          cases brightness <;> rfl
  | checkConnection running connects =>
      rw [checkConnection_app]
      split <;> rfl

/-- The receiver and the message of an effect. -/
def Effect.sending : Effect → Option (ConnectionId × MatrixServerMessage)
  | .send receiver message => some (receiver, message)
  | _ => none

theorem sending_to (effects : Trace) (i : ConnectionId) :
    ((effects.filterMap Effect.sending).filter fun entry => entry.1 = i).map Prod.snd =
      effects.filterMap (sentTo i) := by
  induction effects with
  | nil => rfl
  | cons e effects ih =>
      cases e with
      | send receiver message =>
          by_cases hreceiver : receiver = i
          · simp [Effect.sending, sentTo, hreceiver, ← ih]
          · simp [Effect.sending, sentTo, hreceiver, ← ih]
      | _ => exact ih

/-- What a step of the system means to the queues of inputs: the server forwards what a browser
sends, and an application handles what it receives. -/
def System.inputActions (st : System) :
    SystemEvent → List (Action ConnectionId MatrixServerMessage)
  | .clientMessage renderer message =>
      posts ((st.server.clientMessage renderer message).filterMap Effect.sending)
  | .receive i =>
      match st.toClient i with
      | message :: _ => if message.isInput then [.take i true] else []
      | [] => []
  | _ => []

theorem MatrixServerMessage.not_isInput_of_commands {message : MatrixServerMessage}
    (h : message.commands = true) : message.isInput = false := by
  cases htype : message.messageType <;> simp [commands, isInput, forwardedToApps, htype] at h ⊢

theorem MatrixServerMessage.not_isInput_of_introduces {message : MatrixServerMessage}
    (h : message.introduces = true) : message.isInput = false := by
  cases htype : message.messageType <;> simp [introduces, isInput, forwardedToApps, htype] at h ⊢

/-- Only a browser's message makes the server send inputs. -/
theorem Server.call_inputs {s : Server} {c : ServerCall} (i : ConnectionId)
    (h : ∀ renderer message, c ≠ .clientMessage renderer message) :
    ((s.call c).2.filterMap (sentTo i)).filter MatrixServerMessage.isInput = [] := by
  rw [List.filter_eq_nil_iff]
  intro sent hsent hinput
  obtain hcommands | hanswers | ⟨-, renderer, hcall⟩ := call_kinds (mem_sentTo.mp hsent)
  · rw [MatrixServerMessage.not_isInput_of_commands hcommands] at hinput
    cases hinput
  · rw [MatrixServerMessage.not_isInput_of_introduces hanswers.introduces] at hinput
    cases hinput
  · exact h renderer _ hcall

theorem Server.clientMessage_inputs (s : Server) (renderer : Nat) (message : MatrixServerMessage)
    (i : ConnectionId) :
    ((s.clientMessage renderer message).filterMap (sentTo i)).filter
        MatrixServerMessage.isInput = (s.clientMessage renderer message).filterMap (sentTo i) := by
  rw [List.filter_eq_self]
  intro sent hsent
  obtain ⟨_, _, he⟩ | ⟨_, -, hforwarded, he⟩ := clientMessage_effects (mem_sentTo.mp hsent)
  · cases he
  · cases he
    exact hforwarded

namespace System

/-- How a state of the system and the queues of inputs belong together. -/
structure Delivers (params : ConnectionId → AnimationParams) (st : System)
    (b : Board ConnectionId MatrixServerMessage) : Prop where
  queues : ∀ i, (st.toClient i).filter MatrixServerMessage.isInput = b.queued i
  inputs : ∀ i, (st.clients i).app.inputs =
    (b.shownOf i).foldl AppInputs.take { params := params i }

section
variable {params : ConnectionId → AnimationParams} {st st' : System}
  {b : Board ConnectionId MatrixServerMessage}

/-- A step of an application that changes nothing it keeps of its inputs. -/
theorem Delivers.clientStep (h : st.Delivers params b) (i : ConnectionId) {process : AppProcess}
    {sent : List MatrixServerMessage} (hinputs : process.app.inputs = (st.clients i).app.inputs) :
    (st.clientStep i process sent).Delivers params b := by
  refine ⟨h.queues, fun j => ?_⟩
  by_cases hj : j = i
  · subst hj
    simpa only [System.clientStep, Function.update_self, hinputs] using h.inputs j
  · simpa only [System.clientStep, Function.update_of_ne hj] using h.inputs j

/-- A call for anything but a browser's message. -/
theorem Delivers.call (h : st.Delivers params b) (c : ServerCall)
    (toServer : ConnectionId → List MatrixServerMessage)
    (hcall : ∀ renderer message, c ≠ .clientMessage renderer message) :
    (({ st with toServer } : System).call c).Delivers params b := by
  refine ⟨fun i => ?_, h.inputs⟩
  have hnone : ((st.server.call c).2.filterMap (sentTo i)).filter
      MatrixServerMessage.isInput = [] := Server.call_inputs i hcall
  have hqueue := h.queues i
  simp only [System.call, List.filter_append, hnone, List.append_nil, hqueue]

theorem Delivers.clientMessage (h : st.Delivers params b) (renderer : Nat)
    (message : MatrixServerMessage) :
    ∃ b', (boardRuns ConnectionId MatrixServerMessage).replay b
        (st.inputActions (.clientMessage renderer message)) = some b' ∧
      (st.call (.clientMessage renderer message)).Delivers params b' := by
  refine ⟨_, replay_posts b _, fun i => ?_, h.inputs⟩
  have hqueue := h.queues i
  have hforwarded := st.server.clientMessage_inputs renderer message i
  simp only [System.call, Server.call, List.filter_append, hqueue, hforwarded, sending_to]

theorem Delivers.receive (h : st.Delivers params b) {i : ConnectionId}
    {message : MatrixServerMessage} {rest : List MatrixServerMessage}
    {receiveThread : ReceivePosition} {sent : List MatrixServerMessage}
    (hchannel : st.toClient i = message :: rest) :
    ∃ b', (boardRuns ConnectionId MatrixServerMessage).replay b (st.inputActions (.receive i)) =
        some b' ∧
      Delivers params
        { st.clientStep i
            { st.clients i with
              app := ((st.clients i).app.handleRequest message).1
              receiveThread } sent with
          toClient := Function.update st.toClient i rest } b' := by
  have hqueue := h.queues i
  have hactions : st.inputActions (.receive i) =
      if message.isInput then [.take i true] else [] := by
    simp only [inputActions, hchannel]
  have hhandled := (st.clients i).app.handleRequest_inputs message
  rw [hchannel] at hqueue
  cases hinput : message.isInput with
  | false =>
      rw [List.filter_cons_of_neg (by simp [hinput])] at hqueue
      rw [AppInputs.take_of_not_input _ hinput] at hhandled
      rw [hactions, if_neg (by simp [hinput])]
      refine ⟨b, rfl, fun j => ?_, fun j => ?_⟩
      · by_cases hj : j = i
        · subst hj
          simpa only [Function.update_self] using hqueue
        · simpa only [Function.update_of_ne hj] using h.queues j
      · by_cases hj : j = i
        · subst hj
          simp only [System.clientStep, Function.update_self, hhandled, h.inputs j]
        · simp only [System.clientStep, Function.update_of_ne hj, h.inputs j]
  | true =>
      rw [List.filter_cons_of_pos hinput] at hqueue
      have hstep : (boardRuns ConnectionId MatrixServerMessage).replay b
          (st.inputActions (.receive i)) =
        some
          { queued := Function.update b.queued i (rest.filter MatrixServerMessage.isInput)
            shown := b.shown ++ [(i, message)] } := by
        rw [hactions, if_pos hinput, TransitionSystem.replay_singleton]
        simp only [boardRuns, Board.step, ← hqueue, if_true]
      refine ⟨_, hstep, fun j => ?_, fun j => ?_⟩
      · by_cases hj : j = i
        · subst hj
          simp only [Function.update_self]
        · simp only [Function.update_of_ne hj, h.queues j]
      · by_cases hj : j = i
        · subst hj
          simp only [System.clientStep, Function.update_self, hhandled, h.inputs j]
          simp [Board.shownOf]
        · simp only [System.clientStep, Function.update_of_ne hj, h.inputs j]
          simp [Board.shownOf, Ne.symm hj]

theorem Delivers.step (h : st.Delivers params b) {e : SystemEvent}
    (hstep : st.step e = some st') :
    ∃ b', (boardRuns ConnectionId MatrixServerMessage).replay b (st.inputActions e) = some b' ∧
      st'.Delivers params b' := by
  cases e with
  | receive i =>
      obtain ⟨message, rest, hchannel, rfl⟩ := receive_cases hstep
      exact h.receive hchannel
  | clientMessage renderer message =>
      cases hstep
      exact h.clientMessage renderer message
  | accept i =>
      cases hstep
      refine ⟨b, rfl, h.call (.newConnection i) st.toServer ?_⟩
      intro _ _ hcall
      cases hcall
  | tick input =>
      cases hstep
      refine ⟨b, rfl, h.call (.tick { input with isDead := fun _ => false }) st.toServer ?_⟩
      intro _ _ hcall
      cases hcall
  | start i =>
      cases step_cases hstep with
      | start => exact ⟨b, rfl, h.clientStep i rfl⟩
      | call c hactor => cases hactor
  | main i outcome connects =>
      cases step_cases hstep with
      | main _ _ _ hmain => exact ⟨b, rfl, h.clientStep i hmain.inputs⟩
      | call c hactor => cases hactor
  | join i =>
      cases step_cases hstep with
      | join => exact ⟨b, rfl, h.clientStep i rfl⟩
      | call c hactor => cases hactor
  | serve i rand beyond =>
      cases step_cases hstep with
      | @serve _ message rest _ _ hchannel =>
          refine ⟨b, rfl, h.call (.handleRequest i message rand beyond)
            (Function.update st.toServer i rest) ?_⟩
          intro _ _ hcall
          cases hcall
      | call c hactor => cases hactor

end
end System

/-- Of the inputs the server has forwarded to an application, it has handled the first ones, and
what it keeps of its inputs is what these make of it; the others are on their way. -/
theorem inputs_in_order {serverConfig : ServerConfig} {renderers : List Renderer}
    {params : ConnectionId → AnimationParams} {appNames : ConnectionId → String} {st : System}
    {actions : List (Action ConnectionId MatrixServerMessage)}
    (h : (systemRuns serverConfig renderers params appNames).Means (fun _ _ => True)
      System.inputActions st actions) (i : ConnectionId) :
    postedBy i actions = (postedBy i actions).take (takenOf i actions) ++
        (st.toClient i).filter MatrixServerMessage.isInput ∧
      (st.clients i).app.inputs = ((postedBy i actions).take (takenOf i actions)).foldl
        AppInputs.take { params := params i } := by
  obtain ⟨b, hreplay, hdelivers⟩ := h.refines (System.Delivers params)
    ⟨fun _ => rfl, fun _ => rfl⟩ fun _ _ _ _ hdelivers _ hstep => hdelivers.step hstep
  have hall : .take i false ∉ actions := by
    intro hmem
    have hput := h.forall_actions (P := fun action => action ≠ .take i false)
      (fun st e action haction heq => ?_) _ hmem
    · exact hput rfl
    · subst heq
      cases e with
      | clientMessage renderer message =>
          obtain ⟨entry, -, hentry⟩ := List.mem_map.mp haction
          cases hentry
      | receive j =>
          simp only [System.inputActions] at haction
          split at haction
          · split at haction
            · cases List.mem_singleton.mp haction
            · exact List.not_mem_nil haction
          · exact List.not_mem_nil haction
      | _ => exact List.not_mem_nil haction
  obtain ⟨hqueue, -⟩ := accounts i hreplay
  have hcomplete := accounts_complete i hreplay hall
  have hshown : b.shownOf i = (postedBy i actions).take (takenOf i actions) :=
    List.append_cancel_right (hcomplete.trans hqueue)
  rw [hdelivers.queues i, ← hshown]
  exact ⟨hcomplete.symm, hdelivers.inputs i⟩

/-- A browser moves twice; the application has handled the first movement. -/
def tiltSchedule : List SystemEvent :=
  registerSchedule 0 7 ++
    [.clientMessage 0 { messageType := .imuData, imuData := some { accelX := 1 } },
      .clientMessage 0 { messageType := .imuData, imuData := some { accelX := 2 } }, .receive 0]

theorem inputs_in_order_tilt : ∃ (st : System)
    (actions : List (Action ConnectionId MatrixServerMessage)),
    (st.clients 0).app.latestSimulatorImu = { accelX := 1 } ∧
      (postedBy 0 actions).length = takenOf 0 actions + 1 ∧
      (st.clients 0).app.inputs = ((postedBy 0 actions).take (takenOf 0 actions)).foldl
        AppInputs.take { params := {} } := by
  obtain ⟨st, hreach, htest⟩ := TransitionSystem.Reachable.of_test
    (M := systemRuns {} [] (fun _ => {}) fun _ => "app") tiltSchedule
    (fun st => (st.clients 0).app.latestSimulatorImu = { accelX := 1 } ∧
      ((st.toClient 0).filter MatrixServerMessage.isInput).length = 1) (by decide)
  have hmeans : ∃ actions, (systemRuns {} [] (fun _ => {}) fun _ => "app").Means
      (fun _ _ => True) System.inputActions st actions := hreach.means
  obtain ⟨actions, hmeans⟩ := hmeans
  obtain ⟨himu, hpending⟩ := of_decide_eq_true htest
  obtain ⟨hposted, hinputs⟩ := inputs_in_order hmeans 0
  refine ⟨st, actions, himu, ?_, hinputs⟩
  have hlength := congrArg List.length hposted
  rw [List.length_append, hpending, List.length_take] at hlength
  omega

end MatrixServer
