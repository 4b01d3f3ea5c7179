import MatrixServer.Renderer.Renderer

/-!
The server of server/Server.cpp and server/App.cpp.
A call runs to completion and returns what it did in order: messages sent to
connections and renderers, ids generated, pixels copied, system calls on the
default app's process. The io threads, the log and the C++ locks are left out;
values the code gets from its surroundings (`rand`, the joystick, the process
calls, dead connections, memory behind a frame) are arguments.
-/

namespace MatrixServer

abbrev ConnectionId := Nat

namespace App

inductive AppState where
  | running | paused | ended | killed | unkown
  deriving DecidableEq, Repr

end App

/-- A registered app. The constructor leaves `appState` unset. -/
structure App where
  appId : Int
  connection : ConnectionId
  appState : Option App.AppState := none
  paramSchema : AppParamSchema := {}
  hasSchema : Bool := false
  deriving DecidableEq

def App.setParamSchema (a : App) (schema : AppParamSchema) : App :=
  { a with paramSchema := schema, hasSchema := true }

def App.setAppState (a : App) (newAppState : App.AppState) : App :=
  { a with appState := some newAppState }

structure Server where
  serverConfig : ServerConfig
  renderers : List Renderer
  apps : List App := []
  connections : List ConnectionId := []
  defaultAppStarted : Bool := false
  defaultAppPid : Int := -1
  deriving DecidableEq

/-- What a call does besides changing the server's state. -/
inductive Effect where
  | send (connection : ConnectionId) (message : MatrixServerMessage)
  | rendererSend (renderer : Nat) (message : MatrixServerMessage)
  | generatedAppId (appId : Int)
  /-- `setScreenData` read `count` colours starting at this data. -/
  | copyColors (frameData : Bytes) (count : Nat)
  | render (renderer : Nat)
  | waitpid (pid : Int)
  | fork
  deriving DecidableEq

namespace Server

/-- The apps the server was built with are none; `setRenderer` and `addRenderer` fill
the list of renderers before any message arrives. -/
def start (serverConfig : ServerConfig) (renderers : List Renderer) : Server :=
  { serverConfig, renderers }

def topApp (s : Server) : Option App := s.apps.getLast?

def isTopApp (s : Server) (appId : Int) : Bool := s.topApp.any fun app => app.appId = appId

/-- The loop `for (auto &app : apps) if (app.getAppId() == appId) { ...; break; }` -/
def updateApp (appId : Int) (f : App → App) : List App → List App
  | [] => []
  | app :: apps => if app.appId = appId then f app :: apps else app :: updateApp appId f apps

/-- `resumeTopApp` and the pausing in `registerApp` share this body. -/
def tellTopApp (messageType : MessageType) (apps : List App) : List Effect :=
  match apps.getLast? with
  | none => []
  | some app => [.send app.connection { messageType, appID := app.appId }]

def resumeTopApp := tellTopApp .appResume

def pauseTopApp := tellTopApp .appPause

def newConnectionCallback (s : Server) (connection : ConnectionId) : Server :=
  { s with connections := s.connections ++ [connection] }

/-- `case registerApp`; `rand` is what `App::generateAppId` returns. -/
def registerApp (s : Server) (connection : ConnectionId) (message : MatrixServerMessage)
    (rand : Nat) : Server × List Effect :=
  if message.appID = 0 then
    let app : App := { appId := rand, connection }
    ({ s with apps := s.apps ++ [app] },
      pauseTopApp s.apps ++
        [.generatedAppId app.appId,
          .send connection { messageType := .registerApp, appID := app.appId, status := .success }])
  else (s, [])

/-- The body of the loop over `message->screendata()`. -/
def storeEntry (serverConfig : ServerConfig) (beyond : Nat → UInt8)
    (acc : Renderer × List Effect) (entry : ScreenData) : Renderer × List Effect :=
  if entry.screenID < 0 ∨ entry.screenID ≥ serverConfig.screenInfo.length then acc
  else
    let stored :=
      acc.1.setScreenData entry.screenID.toNat (Color.pointedTo entry.frameData beyond)
    (stored.1, acc.2 ++ [.copyColors entry.frameData stored.2])

def frameReply : MatrixServerMessage := { messageType := .setScreenFrame, status := .success }

/-- The body of the loop over the renderers. -/
def showFrame (serverConfig : ServerConfig) (connection : ConnectionId)
    (message : MatrixServerMessage) (beyond : Nat → UInt8) (index : Nat) (renderer : Renderer) :
    Renderer × List Effect :=
  let stored := message.screenData.foldl (storeEntry serverConfig beyond) (renderer, [])
  let lit := match message.serverConfig with
    | some config => stored.1.setGlobalBrightness config.globalScreenBrightness
    | none => stored.1
  (lit, stored.2 ++ [.render index, .send connection frameReply])

def setScreenFrame (s : Server) (connection : ConnectionId) (message : MatrixServerMessage)
    (beyond : Nat → UInt8) : Server × List Effect :=
  if s.isTopApp message.appID then
    let shown := s.renderers.mapIdx (showFrame s.serverConfig connection message beyond)
    ({ s with renderers := shown.map Prod.fst }, shown.flatMap Prod.snd)
  else
    (s, [.send connection { messageType := .appPause, appID := message.appID }])

def appKill (s : Server) (message : MatrixServerMessage) : Server × List Effect :=
  let apps := s.apps.filter fun app => app.appId ≠ message.appID
  ({ s with apps }, if s.isTopApp message.appID then resumeTopApp apps else [])

/-- `for (auto renderer : renderers) renderer->sendMessage(message)` -/
def sendToRenderers (s : Server) (message : MatrixServerMessage) : List Effect :=
  s.renderers.mapIdx fun index _ => .rendererSend index message

def handleRequest (s : Server) (connection : ConnectionId) (message : MatrixServerMessage)
    (rand : Nat) (beyond : Nat → UInt8) : Server × List Effect :=
  match message.messageType with
  | .registerApp => s.registerApp connection message rand
  | .getServerInfo =>
      (s, [.send connection
        { messageType := .getServerInfo, serverConfig := some s.serverConfig }])
  | .requestScreenAccess => (s, [])
  | .setScreenFrame => s.setScreenFrame connection message beyond
  | .appAlive => (s, [])
  | .appPause =>
      ({ s with apps := updateApp message.appID (·.setAppState .paused) s.apps }, [])
  | .appResume =>
      ({ s with apps := updateApp message.appID (·.setAppState .running) s.apps }, [])
  | .appKill => s.appKill message
  | .appParamSchema =>
      let schema := message.appParamSchema.getD {}
      ({ s with apps := updateApp message.appID (·.setParamSchema schema) s.apps },
        s.sendToRenderers message)
  | .appParamValues => (s, s.sendToRenderers message)
  | _ => (s, [])

/-- The callback that the constructor and `addRenderer` give to each renderer. -/
def clientMessage (s : Server) (renderer : Nat) (message : MatrixServerMessage) : List Effect :=
  match message.messageType with
  | .getServerInfo =>
      .rendererSend renderer
          { messageType := .getServerInfo, serverConfig := some s.serverConfig } ::
        match s.topApp with
        | none => []
        | some app =>
            [.rendererSend renderer
              { messageType := .appParamSchema, appID := app.appId,
                appParamSchema := some app.paramSchema }]
  | .setAppParam | .getAppParams =>
      if message.appID ≠ 0 then
        match s.apps.find? fun app => app.appId = message.appID with
        | none => []
        | some app => [.send app.connection message]
      else
        match s.topApp with
        | none => []
        | some app => [.send app.connection message]
  | .imuData | .audioDataMessage | .joystickData =>
      s.apps.map fun app => .send app.connection message
  | _ => []

/-- What one tick learns from the joysticks, the process calls and the connections. -/
structure TickInput where
  /-- `joystickmngr.getButtonPress(7)` -/
  killButton : Bool
  /-- `kill(defaultAppPid_, 0) == 0` -/
  killSucceeds : Bool
  /-- the result of `waitpid(defaultAppPid_, nullptr, WNOHANG)` -/
  waitpidResult : Int
  /-- what `fork` returns in the parent -/
  forkResult : Int
  isDead : ConnectionId → Bool

def killTopApp (s : Server) (input : TickInput) : List Effect :=
  match s.topApp with
  | some app => if input.killButton then [.send app.connection { messageType := .appKill }] else []
  | none => []

/-- `if (apps.size() == 0 && !defaultAppStarted) { ... }` -/
def startDefaultApp (s : Server) (input : TickInput) : Server × List Effect :=
  if s.apps = [] ∧ !s.defaultAppStarted then
    let tracked := decide (s.defaultAppPid > 0)
    let started := { s with defaultAppStarted := true }
    if tracked && input.killSucceeds then (started, [])
    else
      let reaped := if tracked then [.waitpid s.defaultAppPid] else []
      let pid := if tracked then -1 else s.defaultAppPid
      ({ started with defaultAppPid := if input.forkResult > 0 then input.forkResult else pid },
        reaped ++ [.fork])
  else (s, [])

/-- `if (apps.size() > 0) { ... }` -/
def reapDefaultApp (s : Server) (input : TickInput) : Server × List Effect :=
  if s.apps ≠ [] then
    let cleared := { s with defaultAppStarted := false }
    if s.defaultAppPid > 0 then
      ({ cleared with
          defaultAppPid := if input.waitpidResult ≠ 0 then -1 else s.defaultAppPid },
        [.waitpid s.defaultAppPid])
    else (cleared, [])
  else (s, [])

/-- `apps.empty() ? -1 : apps.back().getAppId()` -/
def topAppId (apps : List App) : Int := (apps.getLast?.map App.appId).getD (-1)

def removeDeadApps (s : Server) (isDead : ConnectionId → Bool) : Server × List Effect :=
  let apps := s.apps.filter fun app => !isDead app.connection
  ({ s with apps },
    if topAppId s.apps ≠ topAppId apps ∧ topAppId apps ≠ -1 then resumeTopApp apps else [])

def tick (s : Server) (input : TickInput) : Server × List Effect :=
  let started := s.startDefaultApp input
  let reaped := started.1.reapDefaultApp input
  let removed := reaped.1.removeDeadApps input.isDead
  ({ removed.1 with connections := removed.1.connections.filter fun c => !input.isDead c },
    s.killTopApp input ++ started.2 ++ reaped.2 ++ removed.2)

end Server
end MatrixServer
