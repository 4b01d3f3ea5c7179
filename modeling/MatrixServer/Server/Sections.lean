import MatrixServer.Foundation.ThreadPrograms
import MatrixServer.Server.ServerCalls

/-!
The calls of the server, cut where a thread takes or leaves `appsMutex`.
A section is what runs under one `lock_guard`; a job is one thing done without
the mutex, and what a section decided travels in the jobs after it.
-/

namespace MatrixServer
open ThreadPrograms

/-- The threads that call the server. -/
inductive ServerThread where
  /-- `ioThread`, for all TCP connections -/
  | io
  /-- `acceptThread` of the `IpcServer` -/
  | ipcAccept
  /-- `receiveThread` of an `IpcConnection` -/
  | ipcReceive (connection : ConnectionId)
  | renderer (index : Nat)
  /-- the thread of `main`, which ticks -/
  | main
  deriving DecidableEq

inductive Job where
  | addConnection (connection : ConnectionId)
  | removeConnections (isDead : ConnectionId → Bool)
  | send (connection : ConnectionId) (message : MatrixServerMessage)
  /-- "send app to pause" -/
  | rejectFrame (connection : ConnectionId) (appId : Int)
  | rendererSend (renderer : Nat) (message : MatrixServerMessage)
  | storeEntry (renderer : Nat) (beyond : Nat → UInt8) (entry : ScreenData)
  | render (renderer : Nat)
  | setGlobalBrightness (renderer : Nat) (brightness : Int)

inductive Section where
  | registerApp (connection : ConnectionId) (rand : Nat)
  /-- finds out `isTopApp` -/
  | checkTopApp (connection : ConnectionId) (message : MatrixServerMessage)
      (beyond : Nat → UInt8)
  | setAppState (appId : Int) (appState : App.AppState)
  | appKill (message : MatrixServerMessage)
  | setParamSchema (message : MatrixServerMessage)
  /-- the second half of a browser's `getServerInfo` -/
  | sendTopSchema (renderer : Nat)
  | clientMessage (renderer : Nat) (message : MatrixServerMessage)
  | killTopApp (input : Server.TickInput)
  | tickApps (input : Server.TickInput)

inductive Stage where
  | locked (part : Section)
  | job (job : Job)

namespace Server

def onRenderer (s : Server) (index : Nat) (f : Renderer → Renderer × List Effect) :
    Server × List Effect :=
  match s.renderers[index]? with
  | none => (s, [])
  | some renderer =>
      ({ s with renderers := s.renderers.set index (f renderer).1 }, (f renderer).2)

def runJob (s : Server) : Job → Server × List Effect
  | .addConnection connection => (s.newConnectionCallback connection, [])
  | .removeConnections isDead =>
      ({ s with connections := s.connections.filter fun c => !isDead c }, [])
  | .send connection message => (s, [.send connection message])
  | .rejectFrame connection appId =>
      (s, [.send connection { messageType := .appPause, appID := appId }])
  | .rendererSend renderer message => (s, [.rendererSend renderer message])
  | .storeEntry renderer beyond entry =>
      s.onRenderer renderer fun r => Server.storeEntry s.serverConfig beyond (r, []) entry
  | .render renderer => (s, [.render renderer])
  | .setGlobalBrightness renderer brightness =>
      s.onRenderer renderer fun r => (r.setGlobalBrightness brightness, [])

/-- One turn of the loop over the renderers. -/
def frameJobs (connection : ConnectionId) (message : MatrixServerMessage) (beyond : Nat → UInt8)
    (index : Nat) : List Job :=
  message.screenData.map (.storeEntry index beyond) ++
    [.render index, .send connection frameReply] ++
      match message.serverConfig with
      | some config => [.setGlobalBrightness index config.globalScreenBrightness]
      | none => []

def rendererJobs (s : Server) (message : MatrixServerMessage) : List Job :=
  s.renderers.mapIdx fun index _ => .rendererSend index message

/-- What a section does under the mutex, and the jobs it leaves its thread with. -/
def runSection (s : Server) : Section → (Server × List Effect) × List Job
  | .registerApp connection rand =>
      let app : App := { appId := rand, connection }
      (({ s with apps := s.apps ++ [app] }, pauseTopApp s.apps ++ [.generatedAppId app.appId]),
        [.send connection
          { messageType := .registerApp, appID := app.appId, status := .success }])
  | .checkTopApp connection message beyond =>
      ((s, []),
        if s.isTopApp message.appID then
          (s.renderers.mapIdx fun index _ => frameJobs connection message beyond index).flatten
        else [.rejectFrame connection message.appID])
  | .setAppState appId appState =>
      (({ s with apps := updateApp appId (·.setAppState appState) s.apps }, []), [])
  | .appKill message => (s.appKill message, [])
  | .setParamSchema message =>
      let schema := message.appParamSchema.getD {}
      (({ s with apps := updateApp message.appID (·.setParamSchema schema) s.apps }, []),
        s.rendererJobs message)
  | .sendTopSchema renderer =>
      ((s, match s.topApp with
        | none => []
        | some app =>
            [.rendererSend renderer
              { messageType := .appParamSchema, appID := app.appId,
                appParamSchema := some app.paramSchema }]), [])
  | .clientMessage renderer message => ((s, s.clientMessage renderer message), [])
  | .killTopApp input => ((s, s.killTopApp input), [])
  | .tickApps input =>
      let started := s.startDefaultApp input
      let reaped := started.1.reapDefaultApp input
      let removed := reaped.1.removeDeadApps input.isDead
      ((removed.1, started.2 ++ reaped.2 ++ removed.2), [])

/-- What the thread that makes a call does for it. -/
def program (s : Server) : ServerCall → List Stage
  | .newConnection connection => [.job (.addConnection connection)]
  | .handleRequest connection message rand beyond =>
      match message.messageType with
      | .registerApp =>
          if message.appID = 0 then [.locked (.registerApp connection rand)] else []
      | .getServerInfo =>
          [.job (.send connection
            { messageType := .getServerInfo, serverConfig := some s.serverConfig })]
      | .setScreenFrame => [.locked (.checkTopApp connection message beyond)]
      | .appPause => [.locked (.setAppState message.appID .paused)]
      | .appResume => [.locked (.setAppState message.appID .running)]
      | .appKill => [.locked (.appKill message)]
      | .appParamSchema => [.locked (.setParamSchema message)]
      | .appParamValues => (s.rendererJobs message).map .job
      | _ => []
  | .clientMessage renderer message =>
      match message.messageType with
      | .getServerInfo =>
          [.job (.rendererSend renderer
            { messageType := .getServerInfo, serverConfig := some s.serverConfig }),
            .locked (.sendTopSchema renderer)]
      | .setAppParam | .getAppParams | .imuData | .audioDataMessage | .joystickData =>
          [.locked (.clientMessage renderer message)]
      | _ => []
  | .tick input =>
      (if input.killButton then [.locked (.killTopApp input)] else []) ++
        [.locked (.tickApps input), .job (.removeConnections input.isDead)]

end Server

/-- The thread that makes a call; `isIpc` tells which connections are IPC connections. -/
def ServerCall.thread (isIpc : ConnectionId → Bool) : ServerCall → ServerThread
  | .newConnection connection => if isIpc connection then .ipcAccept else .io
  | .handleRequest connection _ _ _ => if isIpc connection then .ipcReceive connection else .io
  | .clientMessage renderer _ => .renderer renderer
  | .tick _ => .main

/-- A section is one step. -/
def runStage : StageRun (Server × Trace) ServerThread Stage
  | (s, trace), _, .locked part =>
      let done := s.runSection part
      some ((done.1.1, trace ++ done.1.2), done.2.map .job)
  | (s, trace), _, .job job => some (((s.runJob job).1, trace ++ (s.runJob job).2), [])

end MatrixServer
