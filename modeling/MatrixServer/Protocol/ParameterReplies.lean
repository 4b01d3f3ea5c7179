import MatrixServer.Foundation.RemoteService
import MatrixServer.Protocol.InputsInOrder

/-!
Parameters between a browser and an application.
Setting and asking for parameters are requests that the server forwards to an application; what
the application answers, the server passes on to every renderer. Seen from one renderer an
application is a service behind two channels, whose store is its parameters.
-/

namespace MatrixServer
open TransitionRuns RemoteService

def MatrixServerMessage.isParamRequest (message : MatrixServerMessage) : Bool :=
  message.messageType = .setAppParam ∨ message.messageType = .getAppParams

/-- The values in an answer of an application. -/
def MatrixServerMessage.values (message : MatrixServerMessage) : Option AppParamValues :=
  if message.messageType = .appParamValues then message.appParamValues else none

/-- What parameters become of a request, and the answer to it. -/
def AnimationParams.respond (appName : String) (p : AnimationParams)
    (message : MatrixServerMessage) : AnimationParams × Option AppParamValues :=
  match message.messageType with
  | .setAppParam => (message.appParamUpdate.elim p p.applyUpdate, none)
  | .getAppParams => (p, some (p.toValues appName))
  | _ => (p, none)

/-- The values that an effect gives to a renderer. -/
def valuesTo (index : Nat) : Effect → Option AppParamValues
  | .rendererSend renderer message => if renderer = index then message.values else none
  | _ => none

/-- What a step of the system means to the parameters of an application and to a renderer. -/
def System.paramActions (i : ConnectionId) (index : Nat) (st : System) :
    SystemEvent → List (Action MatrixServerMessage AppParamValues)
  | .clientMessage renderer message =>
      (((st.server.clientMessage renderer message).filterMap (sentTo i)).filter
        MatrixServerMessage.isParamRequest).map .ask
  | .receive j =>
      if j = i then
        match st.toClient i with
        | message :: _ => if message.isParamRequest then [.handle] else []
        | [] => []
      else []
  | .serve j rand beyond =>
      if j = i then
        match st.toServer i with
        | message :: _ =>
            ((st.server.handleRequest i message rand beyond).2.filterMap (valuesTo index)).map
              .deliver
        | [] => []
      else []
  | _ => []

theorem MatrixServerMessage.isInput_of_isParamRequest {message : MatrixServerMessage}
    (h : message.isParamRequest = true) : message.isInput = true := by
  cases of_decide_eq_true h with
  | inl hset => rw [isInput, hset]; rfl
  | inr hget => rw [isInput, hget]; rfl

theorem filter_isParamRequest_of_no_input {messages : List MatrixServerMessage}
    (h : messages.filter MatrixServerMessage.isInput = []) :
    messages.filter MatrixServerMessage.isParamRequest = [] := by
  rw [List.filter_eq_nil_iff] at h ⊢
  exact fun message hmem hparam =>
    h message hmem (MatrixServerMessage.isInput_of_isParamRequest hparam)

/-- An application handles a request as its parameters do. -/
theorem MatrixApplication.handleRequest_params (a : MatrixApplication)
    (message : MatrixServerMessage) :
    (a.handleRequest message).1.params = (a.params.respond a.appName message).1 := by
  have hinputs := congrArg AppInputs.params (a.handleRequest_inputs message)
  refine hinputs.trans ?_
  simp only [AppInputs.take, AnimationParams.respond]
  cases message.messageType with
  | setAppParam => cases message.appParamUpdate <;> rfl
  | audioDataMessage => cases message.audioData <;> rfl
  | _ => rfl

theorem MatrixApplication.handleRequest_values (a : MatrixApplication)
    (message : MatrixServerMessage) :
    ((a.handleRequest message).2.filterMap AppEffect.sent).filterMap
      MatrixServerMessage.values = (a.params.respond a.appName message).2.toList := by
  simp only [handleRequest, AnimationParams.respond]
  cases message.messageType with
  | registerApp =>
      simp only [register]
      split <;> simp [AppEffect.sent, MatrixServerMessage.values]
  | getServerInfo =>
      simp only [setServerConfig]
      split <;> simp [AppEffect.sent]
  | audioDataMessage => cases message.audioData <;> rfl
  | setAppParam => cases message.appParamUpdate <;> rfl
  | joystickData => simp [List.filterMap_map, Function.comp_def, AppEffect.sent]
  | appPause | appAlive | appResume | appKill =>
      simp [response, AppEffect.sent, MatrixServerMessage.values]
  | _ => rfl

theorem MatrixApplication.handleRequest_appName (a : MatrixApplication)
    (message : MatrixServerMessage) : (a.handleRequest message).1.appName = a.appName := by
  simp only [handleRequest]
  cases message.messageType with
  | registerApp =>
      simp only [register]
      split <;> rfl
  | getServerInfo =>
      simp only [setServerConfig]
      split <;> rfl
  | appPause =>
      simp only [pause]
      split <;> rfl
  | appResume =>
      simp only [resume]
      split <;> rfl
  | audioDataMessage => cases message.audioData <;> rfl
  | setAppParam => cases message.appParamUpdate <;> rfl
  | _ => rfl

theorem AnimationParams.respond_of_not_isParamRequest (appName : String) (p : AnimationParams)
    {message : MatrixServerMessage} (h : message.isParamRequest = false) :
    p.respond appName message = (p, none) := by
  simp only [respond]
  cases htype : message.messageType with
  | setAppParam | getAppParams => simp [MatrixServerMessage.isParamRequest, htype] at h
  | _ => rfl

theorem AppProcess.MainStep.appName {p p' : AppProcess} {outcome : LoopOutcome}
    {sent : List MatrixServerMessage} (h : MainStep p outcome p' sent) :
    p'.app.appName = p.app.appName := by
  cases h with
  | enter | skip | pass | checkKilled => rfl
  | draw =>
      cases outcome with
      | returned _ _ brightness | loopThrew _ brightness | renderThrew _ _ brightness =>
          cases brightness <;> rfl
  | checkConnection running connects =>
      rw [checkConnection_app]
      split <;> rfl

/-- A main thread sends no parameter values. -/
theorem AppProcess.MainStep.values {p p' : AppProcess} {outcome : LoopOutcome}
    {sent : List MatrixServerMessage} (h : MainStep p outcome p' sent) :
    sent.filterMap MatrixServerMessage.values = [] := by
  cases h with
  | enter | skip | pass | checkKilled => rfl
  | draw => cases outcome <;> rfl
  | checkConnection running connects =>
      simp only [AppProcess.checkConnection]
      split
      · cases connects <;> rfl
      · rfl

theorem filterMap_range_single {α : Type} (value : Option α) {index count : Nat}
    (h : index < count) :
    (List.range count).filterMap (fun place => if place = index then value else none) =
      value.toList := by
  induction count with
  | zero => cases h
  | succ count ih =>
      rw [List.range_succ, List.filterMap_append]
      by_cases hlast : index < count
      · rw [ih hlast]
        simp [Nat.ne_of_gt hlast]
      · have hat : count = index := by omega
        have hnone : (List.range count).filterMap
            (fun place => if place = index then value else none) = [] := by
          rw [List.filterMap_eq_nil_iff]
          intro place hplace
          rw [if_neg (by rw [List.mem_range] at hplace; omega)]
        rw [hnone, hat]
        cases value <;> simp

namespace Server

theorem sendToRenderers_values (s : Server) (message : MatrixServerMessage) {index : Nat}
    (hindex : index < s.renderers.length) :
    (s.sendToRenderers message).filterMap (valuesTo index) = message.values.toList := by
  have hrange : s.sendToRenderers message =
      (List.range s.renderers.length).map fun renderer => .rendererSend renderer message := by
    apply List.ext_getElem
    · simp [sendToRenderers]
    · intro place hplace hplace'
      simp [sendToRenderers]
  rw [hrange, List.filterMap_map]
  exact filterMap_range_single message.values hindex

theorem tellTopApp_rendererSend {messageType : MessageType} {apps : List App} {renderer : Nat}
    {sent : MatrixServerMessage} : .rendererSend renderer sent ∉ tellTopApp messageType apps := by
  intro h
  simp only [tellTopApp] at h
  split at h
  · exact List.not_mem_nil h
  · cases List.mem_singleton.mp h

/-- A request makes the server send to renderers only what it passes on. -/
theorem handleRequest_rendererSend {s : Server} {connection : ConnectionId}
    {message sent : MatrixServerMessage} {rand : Nat} {beyond : Nat → UInt8} {renderer : Nat}
    (h : .rendererSend renderer sent ∈ (s.handleRequest connection message rand beyond).2) :
    sent = message := by
  have hpassed : .rendererSend renderer sent ∈ s.sendToRenderers message → sent = message := by
    intro hmem
    obtain ⟨index, _, heffect⟩ := List.mem_mapIdx.mp hmem
    cases heffect
    rfl
  simp only [handleRequest] at h
  cases htype : message.messageType <;> simp only [htype] at h
  case registerApp =>
    simp only [registerApp] at h
    split at h
    · cases List.mem_append.mp h with
      | inl hpause => exact absurd hpause tellTopApp_rendererSend
      | inr hanswer => simp at hanswer
    · exact False.elim (List.not_mem_nil h)
  case setScreenFrame =>
    cases htop : s.isTopApp message.appID with
    | true =>
        obtain ⟨_, r, _, hcopy | hrender | hreply⟩ :=
          (mem_setScreenFrame_effects connection message beyond htop).mp h
        · obtain ⟨entry, _, hentry⟩ := List.mem_filterMap.mp hcopy
          simp only [entryCopy] at hentry
          split at hentry <;> cases hentry
        · cases hrender
        · cases hreply
    | false =>
        simp only [setScreenFrame, htop, Bool.false_eq_true, if_false] at h
        cases List.mem_singleton.mp h
  case appKill =>
    simp only [appKill] at h
    split at h
    · exact absurd h tellTopApp_rendererSend
    · exact False.elim (List.not_mem_nil h)
  case getServerInfo => cases List.mem_singleton.mp h
  case appParamSchema | appParamValues => exact hpassed h
  all_goals exact False.elim (List.not_mem_nil h)

/-- Every renderer is given the values that an application answers. -/
theorem handleRequest_values (s : Server) (connection : ConnectionId)
    (message : MatrixServerMessage) (rand : Nat) (beyond : Nat → UInt8) {index : Nat}
    (hindex : index < s.renderers.length) :
    (s.handleRequest connection message rand beyond).2.filterMap (valuesTo index) =
      message.values.toList := by
  by_cases htype : message.messageType = .appParamValues
  · have heffects : (s.handleRequest connection message rand beyond).2 =
        s.sendToRenderers message := by
      simp only [handleRequest, htype]
    rw [heffects, s.sendToRenderers_values message hindex]
  · have hnone : message.values = none := if_neg htype
    rw [hnone, Option.toList_none, List.filterMap_eq_nil_iff]
    intro e he
    cases e with
    | rendererSend renderer sent =>
        rw [valuesTo, handleRequest_rendererSend he, hnone, ite_self]
    | _ => rfl

end Server

namespace System

/-- How a state of the system and the service that an application is belong together. -/
structure Serves (appName : String) (i : ConnectionId) (index : Nat) (st : System)
    (service : Service AnimationParams MatrixServerMessage AppParamValues) : Prop where
  renderer : index < st.server.renderers.length
  name : (st.clients i).app.appName = appName
  store : (st.clients i).app.params = service.store
  requests : (st.toClient i).filter MatrixServerMessage.isParamRequest = service.requests
  replies : (st.toServer i).filterMap MatrixServerMessage.values = service.replies

section
variable {appName : String} {i : ConnectionId} {index : Nat} {st st' : System}
  {service : Service AnimationParams MatrixServerMessage AppParamValues}

/-- A step of an application that neither changes its parameters nor sends values. -/
theorem Serves.clientStep (h : st.Serves appName i index service) (j : ConnectionId)
    {process : AppProcess} {sent : List MatrixServerMessage}
    (hname : process.app.appName = (st.clients j).app.appName)
    (hparams : process.app.params = (st.clients j).app.params)
    (hsent : sent.filterMap MatrixServerMessage.values = []) :
    (st.clientStep j process sent).Serves appName i index service := by
  by_cases hj : i = j
  · subst hj
    refine ⟨h.renderer, ?_, ?_, h.requests, ?_⟩
    · simpa only [System.clientStep, Function.update_self, hname] using h.name
    · simpa only [System.clientStep, Function.update_self, hparams] using h.store
    · simpa only [System.clientStep, Function.update_self, List.filterMap_append, hsent,
        List.append_nil] using h.replies
  · refine ⟨h.renderer, ?_, ?_, h.requests, ?_⟩
    · simpa only [System.clientStep, Function.update_of_ne hj] using h.name
    · simpa only [System.clientStep, Function.update_of_ne hj] using h.store
    · simpa only [System.clientStep, Function.update_of_ne hj] using h.replies

theorem call_renderers_length (st : System) (c : ServerCall) :
    (st.call c).server.renderers.length = st.server.renderers.length := by
  have hshapes := congrArg List.length (st.server.call_shapes c).2
  rwa [List.length_map, List.length_map] at hshapes

/-- A call for anything but a browser's message. -/
theorem Serves.call (h : st.Serves appName i index service) (c : ServerCall)
    {toServer : ConnectionId → List MatrixServerMessage}
    {rest : List AppParamValues}
    (hcall : ∀ renderer message, c ≠ .clientMessage renderer message)
    (hreplies : (toServer i).filterMap MatrixServerMessage.values = rest) :
    (({ st with toServer } : System).call c).Serves appName i index
      { service with replies := rest } := by
  have hnone := filter_isParamRequest_of_no_input (st.server.call_inputs (c := c) i hcall)
  refine ⟨?_, h.name, h.store, ?_, hreplies⟩
  · rw [call_renderers_length]
    exact h.renderer
  · simp only [System.call, List.filter_append, hnone, List.append_nil, h.requests]

variable {params : AnimationParams}

theorem Serves.clientMessage (h : st.Serves appName i index service) (renderer : Nat)
    (message : MatrixServerMessage) :
    ∃ service', (serviceRuns (AnimationParams.respond appName) params).replay service
        (st.paramActions i index (.clientMessage renderer message)) = some service' ∧
      (st.call (.clientMessage renderer message)).Serves appName i index service' := by
  refine ⟨_, replay_asks service _, ?_, h.name, h.store, ?_, h.replies⟩
  · rw [call_renderers_length]
    exact h.renderer
  · simp only [System.call, Server.call, List.filter_append, h.requests]

/-- The application handles its next message. -/
theorem Serves.receiveOwn (h : st.Serves appName i index service)
    {message : MatrixServerMessage} {rest : List MatrixServerMessage}
    {receiveThread : ReceivePosition} (hchannel : st.toClient i = message :: rest) :
    ∃ service', (serviceRuns (AnimationParams.respond appName) params).replay service
        (if message.isParamRequest then [.handle] else []) = some service' ∧
      Serves appName i index
        { st.clientStep i
            { st.clients i with
              app := ((st.clients i).app.handleRequest message).1
              receiveThread }
            (((st.clients i).app.handleRequest message).2.filterMap AppEffect.sent) with
          toClient := Function.update st.toClient i rest } service' := by
  have hrequests := h.requests
  have hparams := (st.clients i).app.handleRequest_params message
  have hvalues := (st.clients i).app.handleRequest_values message
  have hname := (st.clients i).app.handleRequest_appName message
  rw [hchannel] at hrequests
  rw [h.name, h.store] at hparams hvalues
  cases hrequest : message.isParamRequest with
  | false =>
      rw [List.filter_cons_of_neg (by simp [hrequest])] at hrequests
      rw [AnimationParams.respond_of_not_isParamRequest _ _ hrequest] at hparams hvalues
      refine ⟨service, rfl, h.renderer, ?_, ?_, ?_, ?_⟩
      · simpa only [System.clientStep, Function.update_self, hname] using h.name
      · simpa only [System.clientStep, Function.update_self] using hparams
      · simpa only [Function.update_self] using hrequests
      · simp only [System.clientStep, Function.update_self, List.filterMap_append, hvalues,
          h.replies, Option.toList_none, List.append_nil]
  | true =>
      rw [List.filter_cons_of_pos hrequest] at hrequests
      refine ⟨{ store := (service.store.respond appName message).1
                requests := rest.filter MatrixServerMessage.isParamRequest
                replies := service.replies ++ (service.store.respond appName message).2.toList },
        ?_, h.renderer, ?_, ?_, ?_, ?_⟩
      · rw [if_pos rfl, TransitionSystem.replay_singleton]
        simp only [serviceRuns, Service.step, ← hrequests]
      · simpa only [System.clientStep, Function.update_self, hname] using h.name
      · simpa only [System.clientStep, Function.update_self] using hparams
      · simp only [Function.update_self]
      · simp only [System.clientStep, Function.update_self, List.filterMap_append, hvalues,
          h.replies]

/-- Another application handles its next message. -/
theorem Serves.receiveOther (h : st.Serves appName i index service) {j : ConnectionId}
    (hj : j ≠ i) {process : AppProcess} {sent rest : List MatrixServerMessage} :
    Serves appName i index
      { st.clientStep j process sent with toClient := Function.update st.toClient j rest }
      service := by
  refine ⟨h.renderer, ?_, ?_, ?_, ?_⟩
  · simpa only [System.clientStep, Function.update_of_ne (Ne.symm hj)] using h.name
  · simpa only [System.clientStep, Function.update_of_ne (Ne.symm hj)] using h.store
  · simpa only [Function.update_of_ne (Ne.symm hj)] using h.requests
  · simpa only [System.clientStep, Function.update_of_ne (Ne.symm hj)] using h.replies

/-- The server handles the application's next message. -/
theorem Serves.serveOwn (h : st.Serves appName i index service)
    {message : MatrixServerMessage} {rest : List MatrixServerMessage} (rand : Nat)
    (beyond : Nat → UInt8) (hchannel : st.toServer i = message :: rest) :
    ∃ service', (serviceRuns (AnimationParams.respond appName) params).replay service
        (((st.server.handleRequest i message rand beyond).2.filterMap (valuesTo index)).map
          .deliver) = some service' ∧
      (({ st with toServer := Function.update st.toServer i rest } : System).call
        (.handleRequest i message rand beyond)).Serves appName i index service' := by
  have hreplies := h.replies
  rw [hchannel] at hreplies
  rw [Server.handleRequest_values _ _ _ _ _ h.renderer]
  refine ⟨{ service with replies := rest.filterMap MatrixServerMessage.values }, ?_,
    h.call (.handleRequest i message rand beyond) (fun _ _ hcall => by cases hcall)
      (by rw [Function.update_self])⟩
  cases hvalues : message.values with
  | none =>
      rw [List.filterMap_cons_none hvalues] at hreplies
      rw [hreplies]
      rfl
  | some values =>
      rw [List.filterMap_cons_some hvalues] at hreplies
      rw [Option.toList_some, List.map_singleton, TransitionSystem.replay_singleton]
      simp only [serviceRuns, Service.step, ← hreplies, if_true]

theorem Serves.step (h : st.Serves appName i index service) {e : SystemEvent}
    (hstep : st.step e = some st') :
    ∃ service', (serviceRuns (AnimationParams.respond appName) params).replay service
        (st.paramActions i index e) = some service' ∧ st'.Serves appName i index service' := by
  cases e with
  | receive j =>
      obtain ⟨message, rest, hchannel, rfl⟩ := receive_cases hstep
      by_cases hj : j = i
      · subst hj
        simp only [paramActions, if_true, hchannel]
        exact h.receiveOwn hchannel
      · simp only [paramActions, if_neg hj]
        exact ⟨service, rfl, h.receiveOther hj⟩
  | serve j rand beyond =>
      cases step_cases hstep with
      | @serve _ message rest _ _ hchannel =>
          by_cases hj : j = i
          · subst hj
            simp only [paramActions, if_true, hchannel]
            exact h.serveOwn rand beyond hchannel
          · simp only [paramActions, if_neg hj]
            refine ⟨service, rfl, h.call (.handleRequest j message rand beyond)
              (fun _ _ hcall => by cases hcall) ?_⟩
            rw [Function.update_of_ne (Ne.symm hj), h.replies]
      | call c hactor => cases hactor
  | clientMessage renderer message =>
      cases hstep
      exact h.clientMessage renderer message
  | accept j =>
      cases hstep
      exact ⟨service, rfl, h.call (.newConnection j) (fun _ _ hcall => by cases hcall) h.replies⟩
  | tick input =>
      cases hstep
      exact ⟨service, rfl, h.call (.tick { input with isDead := fun _ => false })
        (fun _ _ hcall => by cases hcall) h.replies⟩
  | start j =>
      cases step_cases hstep with
      | start => exact ⟨service, rfl, h.clientStep j rfl rfl rfl⟩
      | call c hactor => cases hactor
  | main j outcome connects =>
      cases step_cases hstep with
      | main _ _ _ hmain =>
          exact ⟨service, rfl, h.clientStep j hmain.appName
            (congrArg AppInputs.params hmain.inputs) hmain.values⟩
      | call c hactor => cases hactor
  | join j =>
      cases step_cases hstep with
      | join => exact ⟨service, rfl, h.clientStep j rfl rfl rfl⟩
      | call c hactor => cases hactor

end
end System

/-- What a renderer is given of an application's parameter values begins what its parameters
answer to the requests the server has forwarded to it, in order: each answer has the effect of
all that was set before it was asked for. What is missing waits on its way. -/
theorem parameter_replies_in_order {serverConfig : ServerConfig} {renderers : List Renderer}
    {params : ConnectionId → AnimationParams} {appNames : ConnectionId → String} {st : System}
    {i : ConnectionId} {index : Nat} (hindex : index < renderers.length)
    {actions : List (Action MatrixServerMessage AppParamValues)}
    (h : (systemRuns serverConfig renderers params appNames).Means (fun _ _ => True)
      (System.paramActions i index) st actions) :
    asked actions = (asked actions).take (handledCount actions) ++
        (st.toClient i).filter MatrixServerMessage.isParamRequest ∧
      delivered actions ++ (st.toServer i).filterMap MatrixServerMessage.values =
        replies (AnimationParams.respond (appNames i)) (params i)
          ((asked actions).take (handledCount actions)) ∧
      delivered actions <+:
        replies (AnimationParams.respond (appNames i)) (params i) (asked actions) := by
  obtain ⟨service, hreplay, hserves⟩ := h.refines
    (A := serviceRuns (AnimationParams.respond (appNames i)) (params i))
    (System.Serves (appNames i) i index) ⟨hindex, rfl, rfl, rfl, rfl⟩
    fun _ _ _ _ hserves _ hstep => hserves.step hstep
  obtain ⟨hrequests, -, hreplies⟩ := accounts hreplay
  rw [hserves.requests, hserves.replies]
  exact ⟨hrequests, hreplies, delivered_isPrefix hreplay⟩

/-- An application with a speed of one. -/
def speedParams : AnimationParams :=
  AnimationParams.new.registerInt ⟨0, 0, false⟩ "speed" "Speed" 1 9 1 ""

/-- A browser sets the speed and asks for it, and the application has answered. -/
def speedSchedule : List SystemEvent :=
  registerSchedule 0 7 ++
    [.clientMessage 0
        { messageType := .setAppParam, appParamUpdate := some { key := "speed", intVal := 5 } },
      .clientMessage 0 { messageType := .getAppParams }, .receive 0, .receive 0]

theorem parameter_replies_in_order_speed :
    ∃ actions : List (Action MatrixServerMessage AppParamValues),
      delivered actions ++ [{ appName := "app", values := [{ key := "speed", intVal := 5 }] }] =
        replies (AnimationParams.respond "app") speedParams
          ((asked actions).take (handledCount actions)) := by
  obtain ⟨st, hreach, htest⟩ := TransitionSystem.Reachable.of_test
    (M := systemRuns {} [{ kind := .webSocketSimulator true, screens := [] }]
      (fun _ => speedParams) fun _ => "app") speedSchedule
    (fun st => (st.toServer 0).filterMap MatrixServerMessage.values =
      [{ appName := "app", values := [{ key := "speed", intVal := 5 }] }]) (by decide)
  have hmeans : ∃ actions, (systemRuns {} [{ kind := .webSocketSimulator true, screens := [] }]
      (fun _ => speedParams) fun _ => "app").Means (fun _ _ => True) (System.paramActions 0 0) st
      actions := hreach.means
  obtain ⟨actions, hmeans⟩ := hmeans
  obtain ⟨-, hreplies, -⟩ := parameter_replies_in_order (Nat.succ_pos 0) hmeans
  rw [of_decide_eq_true htest] at hreplies
  exact ⟨actions, hreplies⟩

end MatrixServer
