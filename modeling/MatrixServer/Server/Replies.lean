import MatrixServer.Server.ServerCalls

/-!
What a call of the server sends to connections.
Messages go to registered apps or back to the connection whose request is being
handled. Only a frame of the top app is answered with `setScreenFrame`, and that
answer is sent inside the loop over the renderers: there is one per renderer.
-/

namespace MatrixServer

/-- The message an effect sends to a connection. -/
def sentTo (connection : ConnectionId) : Effect → Option MatrixServerMessage
  | .send receiver message => if receiver = connection then some message else none
  | _ => none

theorem sentTo_eq_some {connection : ConnectionId} {e : Effect} {message : MatrixServerMessage} :
    sentTo connection e = some message ↔ e = .send connection message := by
  cases e with
  | send receiver sent =>
      simp only [sentTo]
      split
      · rename_i hreceiver
        subst hreceiver
        simp
      · rename_i hreceiver
        simp [hreceiver]
  | rendererSend _ _ | generatedAppId _ | copyColors _ _ | render _ | waitpid _ | fork =>
      simp [sentTo]

theorem mem_sentTo {connection : ConnectionId} {effects : Trace} {message : MatrixServerMessage} :
    message ∈ effects.filterMap (sentTo connection) ↔ .send connection message ∈ effects := by
  simp only [List.mem_filterMap, sentTo_eq_some, exists_eq_right]

/-- A frame, or the reply to one. -/
def MatrixServerMessage.isFrame (message : MatrixServerMessage) : Bool :=
  message.messageType = .setScreenFrame

/-- The connection whose request a call handles. -/
def ServerCall.requester : ServerCall → Option ConnectionId
  | .handleRequest connection _ _ _ => some connection
  | _ => none

/-- The call handles a frame of the top app. -/
def ServerCall.showsFrame (s : Server) : ServerCall → Bool
  | .handleRequest _ message _ _ => message.isFrame && s.isTopApp message.appID
  | _ => false

namespace Server

/-- What a message that a call sends to a connection says about the call. -/
structure SendCause (s : Server) (c : ServerCall) (connection : ConnectionId)
    (sent : MatrixServerMessage) : Prop where
  receiver : (∃ app ∈ s.apps, app.connection = connection) ∨ c.requester = some connection
  notAccess : sent.messageType ≠ .requestScreenAccess
  reply : sent.messageType = .setScreenFrame →
    c.requester = some connection ∧ c.showsFrame s = true

theorem SendCause.toApp {s : Server} {c : ServerCall} {connection : ConnectionId}
    {sent : MatrixServerMessage} (happ : ∃ app ∈ s.apps, app.connection = connection)
    (haccess : sent.messageType ≠ .requestScreenAccess)
    (hreply : sent.messageType ≠ .setScreenFrame) : SendCause s c connection sent :=
  ⟨.inl happ, haccess, fun h => absurd h hreply⟩

theorem SendCause.toRequester {s : Server} {requester : ConnectionId}
    {message sent : MatrixServerMessage} {rand : Nat} {beyond : Nat → UInt8}
    (haccess : sent.messageType ≠ .requestScreenAccess)
    (hreply : sent.messageType ≠ .setScreenFrame) :
    SendCause s (.handleRequest requester message rand beyond) requester sent :=
  ⟨.inr rfl, haccess, fun h => absurd h hreply⟩

theorem mem_tellTopApp {messageType : MessageType} {apps : List App} {connection : ConnectionId}
    {sent : MatrixServerMessage} (h : .send connection sent ∈ tellTopApp messageType apps) :
    (∃ app ∈ apps, app.connection = connection) ∧ sent.messageType = messageType := by
  simp only [tellTopApp] at h
  split at h
  · exact False.elim (List.not_mem_nil h)
  · rename_i app happ
    cases List.mem_singleton.mp h
    exact ⟨⟨app, List.mem_of_getLast? happ, rfl⟩, rfl⟩

section
variable {s : Server} {connection receiver : ConnectionId} {message sent : MatrixServerMessage}
  {rand : Nat} {beyond : Nat → UInt8}

theorem registerApp_sends (h : .send receiver sent ∈ (s.registerApp connection message rand).2) :
    SendCause s (.handleRequest connection message rand beyond) receiver sent := by
  simp only [registerApp] at h
  split at h
  · cases List.mem_append.mp h with
    | inl hpause =>
        obtain ⟨happ, htype⟩ := mem_tellTopApp hpause
        exact .toApp happ (by rw [htype]; decide) (by rw [htype]; decide)
    | inr hanswer =>
        simp only [List.mem_cons, reduceCtorEq, false_or, List.not_mem_nil, or_false,
          Effect.send.injEq] at hanswer
        obtain ⟨rfl, rfl⟩ := hanswer
        exact .toRequester (fun haccess => by cases haccess) fun hreply => by cases hreply
  · exact False.elim (List.not_mem_nil h)

theorem setScreenFrame_sends (hframe : message.messageType = .setScreenFrame)
    (h : .send receiver sent ∈ (s.setScreenFrame connection message beyond).2) :
    SendCause s (.handleRequest connection message rand beyond) receiver sent := by
  cases htop : s.isTopApp message.appID with
  | true =>
      obtain ⟨_, r, _, hcopy | hrender | hreply⟩ :=
        (mem_setScreenFrame_effects connection message beyond htop).mp h
      · obtain ⟨entry, _, hentry⟩ := List.mem_filterMap.mp hcopy
        simp only [entryCopy] at hentry
        split at hentry <;> cases hentry
      · cases hrender
      · cases hreply
        refine ⟨.inr rfl, (fun haccess => by cases haccess), fun _ => ⟨rfl, ?_⟩⟩
        simp [ServerCall.showsFrame, MatrixServerMessage.isFrame, hframe, htop]
  | false =>
      simp only [setScreenFrame, htop, Bool.false_eq_true, if_false] at h
      cases List.mem_singleton.mp h
      exact .toRequester (fun haccess => by cases haccess) fun hreply => by cases hreply

theorem appKill_sends {c : ServerCall} (h : .send receiver sent ∈ (s.appKill message).2) :
    SendCause s c receiver sent := by
  simp only [appKill] at h
  split at h
  · obtain ⟨⟨app, happ, hconnection⟩, htype⟩ := mem_tellTopApp h
    refine .toApp ⟨app, List.mem_of_mem_filter happ, hconnection⟩ ?_ ?_
    · rw [htype]; decide
    · rw [htype]; decide
  · exact False.elim (List.not_mem_nil h)

theorem handleRequest_sends
    (h : .send receiver sent ∈ (s.handleRequest connection message rand beyond).2) :
    SendCause s (.handleRequest connection message rand beyond) receiver sent := by
  have hrenderers : .send receiver sent ∉ s.sendToRenderers message := by
    simp [sendToRenderers]
  simp only [handleRequest] at h
  cases htype : message.messageType <;> simp only [htype] at h
  case registerApp => exact registerApp_sends h
  case setScreenFrame => exact setScreenFrame_sends htype h
  case appKill => exact appKill_sends h
  case getServerInfo =>
    cases List.mem_singleton.mp h
    exact .toRequester (fun haccess => by cases haccess) fun hreply => by cases hreply
  case appParamSchema | appParamValues => exact absurd h hrenderers
  all_goals exact False.elim (List.not_mem_nil h)

theorem tick_sends {input : TickInput} (h : .send receiver sent ∈ (s.tick input).2) :
    SendCause s (.tick input) receiver sent := by
  have hcalls := tick_processCallsOnly s input
  simp only [tick, List.append_assoc] at h
  cases List.mem_append.mp h with
  | inl hkill =>
      obtain ⟨app, happ, he⟩ := mem_killTopApp hkill
      cases he
      exact .toApp ⟨app, happ, rfl⟩ (by decide) (by decide)
  | inr hrest =>
      rw [← List.append_assoc] at hrest
      cases List.mem_append.mp hrest with
      | inl hprocess =>
          obtain he | ⟨pid, he⟩ := hcalls.effects _ hprocess
          · cases he
          · cases he
      | inr hresume =>
          simp only [removeDeadApps] at hresume
          split at hresume
          · obtain ⟨⟨app, happ, hconnection⟩, htype⟩ := mem_tellTopApp hresume
            rw [hcalls.apps] at happ
            refine .toApp ⟨app, List.mem_of_mem_filter happ, hconnection⟩ ?_ ?_
            · rw [htype]; decide
            · rw [htype]; decide
          · exact False.elim (List.not_mem_nil hresume)

/-- Every message a call sends to a connection has its cause in the call. -/
theorem call_sends {c : ServerCall} (h : .send receiver sent ∈ (s.call c).2) :
    SendCause s c receiver sent := by
  cases c with
  | newConnection _ => exact False.elim (List.not_mem_nil h)
  | handleRequest _ _ _ _ => exact handleRequest_sends h
  | clientMessage _ _ =>
      obtain ⟨_, _, he⟩ | ⟨_, happ, hforwarded, he⟩ := clientMessage_effects h
      · cases he
      · cases he
        exact .toApp happ (fun htype => by simp [htype, forwardedToApps] at hforwarded)
          fun htype => by simp [htype, forwardedToApps] at hforwarded
  | tick _ => exact tick_sends h

/-- A frame of the top app is answered once for each renderer. -/
theorem setScreenFrame_replies (htop : s.isTopApp message.appID = true) :
    (s.setScreenFrame connection message beyond).2.filterMap (sentTo connection) =
      List.replicate s.renderers.length frameReply := by
  have hshown : ∀ shown ∈ s.renderers.mapIdx (showFrame s.serverConfig connection message beyond),
      shown.2.filterMap (sentTo connection) = [frameReply] := by
    intro shown hmem
    obtain ⟨index, hlt, rfl⟩ := List.mem_mapIdx.mp hmem
    have hcopies : (message.screenData.filterMap
        (entryCopy s.serverConfig s.renderers[index])).filterMap (sentTo connection) = [] := by
      rw [List.filterMap_eq_nil_iff]
      intro e he
      obtain ⟨entry, _, hentry⟩ := List.mem_filterMap.mp he
      simp only [entryCopy] at hentry
      split at hentry <;> cases hentry
      rfl
    rw [showFrame_effects, List.filterMap_append, hcopies]
    simp [List.filterMap_cons, sentTo]
  simp only [setScreenFrame, htop, if_true, List.filterMap_flatMap]
  rw [List.flatMap_congr hshown, ← List.map_eq_flatMap, List.map_const', List.length_mapIdx]

end
end Server

/-- How many frame replies a call sends to a connection. -/
theorem Server.call_replies (s : Server) (c : ServerCall) (connection : ConnectionId) :
    ((s.call c).2.filterMap (sentTo connection)).countP MatrixServerMessage.isFrame =
      if c.requester = some connection ∧ c.showsFrame s then s.renderers.length else 0 := by
  split
  · rename_i hcause
    obtain ⟨hrequester, hshows⟩ := hcause
    cases c with
    | newConnection _ | clientMessage _ _ | tick _ => cases hrequester
    | handleRequest requester message rand beyond =>
        cases hrequester
        obtain ⟨hframe, htop⟩ := Bool.and_eq_true_iff.mp hshows
        have hcall : s.call (.handleRequest connection message rand beyond) =
            s.setScreenFrame connection message beyond := by
          simp only [call, handleRequest, of_decide_eq_true hframe]
        rw [hcall, setScreenFrame_replies htop, List.countP_replicate]
        rfl
  · rename_i hcause
    rw [List.countP_eq_zero]
    intro sent hsent hreply
    have hsends := call_sends (mem_sentTo.mp hsent)
    exact hcause (hsends.reply (of_decide_eq_true hreply))

end MatrixServer
