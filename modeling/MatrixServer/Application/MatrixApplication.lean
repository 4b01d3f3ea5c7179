import MatrixServer.Application.AnimationParams
import MatrixServer.Common.Screen

/-!
The application of application/MatrixApplication.cpp and its message handler.
A handler returns what it did in order; waiting for the main thread and a screen
that cannot be built are effects, since what follows them depends on the threads.
The file's globals and static members belong to the one application of a process.
Frame rate, load and the log are left out.
-/

namespace MatrixServer
namespace MatrixApplication

inductive AppState where
  | starting | running | paused | ended | killed | failure
  deriving DecidableEq, Repr

end MatrixApplication

structure MatrixApplication where
  appId : Int := 0
  appState : MatrixApplication.AppState := .starting
  serverConfig : ServerConfig := {}
  screens : List Screen := []
  params : AnimationParams := {}
  appName : String := "MatrixApp"
  updateBrightness : Bool := false
  frameAcked : Bool := true
  /-- `latestSimulatorImuX` to `latestSimulatorGyroZ` -/
  latestSimulatorImu : ImuData := {}
  latestAudioVolume : UInt8 := 0
  latestAudioFrequencies : List UInt8 := []

inductive AppEffect where
  | send (message : MatrixServerMessage)
  | notifyOne
  | updateSimulatorState (joystickData : JoystickData)
  /-- `mainThread->join()` in `stop` -/
  | join
  /-- the constructor of `Screen` throws -/
  | lengthError
  deriving DecidableEq

def AppEffect.sent : AppEffect → Option MatrixServerMessage
  | .send message => some message
  | _ => none

namespace MatrixApplication

def registerAtServer : MatrixServerMessage := { messageType := .registerApp }

def renderToScreens (a : MatrixApplication) : MatrixApplication × MatrixServerMessage :=
  ({ a with updateBrightness := false },
    { messageType := .setScreenFrame
      appID := a.appId
      screenData := a.screens.map fun screen =>
        { screenID := screen.screenId, frameData := screen.frameData, encoding := .rgb24bbp }
      serverConfig := if a.updateBrightness then some a.serverConfig else none })

def pause (a : MatrixApplication) : MatrixApplication × Bool :=
  if a.appState = .running then ({ a with appState := .paused }, true) else (a, false)

def resume (a : MatrixApplication) : MatrixApplication × Bool :=
  if a.appState = .paused then ({ a with appState := .running }, true) else (a, false)

def setBrightness (a : MatrixApplication) (brightness : Int) : MatrixApplication :=
  { a with
    serverConfig := { a.serverConfig with globalScreenBrightness := brightness }
    updateBrightness := true }

/-- The loop over `serverConfig.screeninfo()`, and whether it got to its end. -/
def pushScreens (screens : List Screen) : List ScreenInfo → List Screen × Bool
  | [] => (screens, true)
  | screenInfo :: rest =>
      match Screen.new screenInfo.width screenInfo.height screenInfo.screenID with
      | none => (screens, false)
      | some screen => pushScreens (screens ++ [screen]) rest

def setServerConfig (a : MatrixApplication) (serverConfig : ServerConfig) :
    MatrixApplication × List AppEffect :=
  let pushed := pushScreens a.screens serverConfig.screenInfo
  let configured := { a with serverConfig, screens := pushed.1 }
  if pushed.2 then ({ configured with appState := .running }, []) else (configured, [.lengthError])

def register (a : MatrixApplication) (message : MatrixServerMessage) :
    MatrixApplication × List AppEffect :=
  if message.status = .success then
    ({ a with appId := message.appID },
      [.send
        { messageType := .appParamSchema, appID := message.appID,
          appParamSchema := some (a.params.toSchema a.appName) },
        .send { messageType := .getServerInfo, appID := message.appID }])
  else (a, [])

/-- The reply to `appPause`, `appAlive`, `appResume` and `appKill`. -/
def response (a : MatrixApplication) (messageType : MessageType) (ok : Bool) : AppEffect :=
  .send { messageType, appID := a.appId, status := if ok then .success else .error }

def setAudioData (a : MatrixApplication) (audioData : AudioData) : MatrixApplication :=
  { a with
    latestAudioVolume := audioData.volume.toUInt8
    latestAudioFrequencies := audioData.frequencyBands.map UInt32.toUInt8 }

def handleRequest (a : MatrixApplication) (message : MatrixServerMessage) :
    MatrixApplication × List AppEffect :=
  match message.messageType with
  | .registerApp => a.register message
  | .getServerInfo => a.setServerConfig (message.serverConfig.getD {})
  | .appPause => (a.pause.1, [a.response .appPause a.pause.2])
  | .appAlive => (a, [a.response .appAlive (a.appState = .running ∨ a.appState = .paused)])
  | .appResume => (a.resume.1, [a.response .appResume a.resume.2])
  | .appKill => ({ a with appState := .killed }, [a.response .appKill true, .join])
  | .requestScreenAccess | .setScreenFrame => ({ a with frameAcked := true }, [.notifyOne])
  | .joystickData => (a, message.joystickData.map .updateSimulatorState)
  | .imuData => ({ a with latestSimulatorImu := message.imuData.getD {} }, [])
  | .audioDataMessage =>
      match message.audioData with
      | some audioData => (a.setAudioData audioData, [])
      | none => (a, [])
  | .setAppParam =>
      match message.appParamUpdate with
      | some update => ({ a with params := a.params.applyUpdate update }, [])
      | none => (a, [])
  | .getAppParams =>
      (a, [.send
        { messageType := .appParamValues, status := .success, appID := a.appId,
          appParamValues := some (a.params.toValues a.appName) }])
  | _ => (a, [])

/-- The messages that set `frameAcked`. -/
def acknowledges : MessageType → Bool
  | .requestScreenAccess | .setScreenFrame => true
  | _ => false

/-- What the handler of a message type may change, as far as frames and threads go. -/
structure Handles (messageType : MessageType) (a a' : MatrixApplication)
    (effects : List AppEffect) : Prop where
  frameAcked : a'.frameAcked = (a.frameAcked || acknowledges messageType)
  running : a'.appState = .running →
    a.appState = .running ∨ messageType = .getServerInfo ∨
      messageType = .appResume ∧ a.appState = .paused
  killed : messageType = .appKill → a'.appState = .killed
  join : .join ∈ effects ↔ messageType = .appKill
  throws : .lengthError ∈ effects → messageType = .getServerInfo
  sends : ∀ sent, .send sent ∈ effects →
    sent.messageType ≠ .setScreenFrame ∧ sent.messageType ≠ .registerApp

theorem Handles.sent {messageType : MessageType} {a a' : MatrixApplication}
    {effects : List AppEffect} (h : Handles messageType a a' effects) {sent : MatrixServerMessage}
    (hsent : sent ∈ effects.filterMap AppEffect.sent) :
    sent.messageType ≠ .setScreenFrame ∧ sent.messageType ≠ .registerApp := by
  obtain ⟨e, he, hmessage⟩ := List.mem_filterMap.mp hsent
  cases e with
  | send message =>
      cases hmessage
      exact h.sends _ he
  | notifyOne | updateSimulatorState _ | join | lengthError => cases hmessage

theorem Handles.of_same {messageType : MessageType} {a a' : MatrixApplication}
    {effects : List AppEffect} (hkill : messageType ≠ .appKill)
    (hacked : a'.frameAcked = (a.frameAcked || acknowledges messageType))
    (hstate : a'.appState = a.appState) (hjoin : .join ∉ effects)
    (hthrows : .lengthError ∈ effects → messageType = .getServerInfo)
    (hsends : ∀ sent, .send sent ∈ effects →
      sent.messageType ≠ .setScreenFrame ∧ sent.messageType ≠ .registerApp) :
    Handles messageType a a' effects where
  frameAcked := hacked
  running h := .inl (hstate ▸ h)
  killed h := absurd h hkill
  join := ⟨fun h => absurd h hjoin, fun h => absurd h hkill⟩
  throws := hthrows
  sends := hsends

theorem Handles.stays_acked {messageType : MessageType} {a a' : MatrixApplication}
    {effects : List AppEffect} (h : Handles messageType a a' effects)
    (hacked : a.frameAcked = true) : a'.frameAcked = true := by
  rw [h.frameAcked, hacked, Bool.true_or]

theorem register_handles (a : MatrixApplication) (message : MatrixServerMessage) :
    Handles .registerApp a (a.register message).1 (a.register message).2 := by
  simp only [register]
  split <;> exact .of_same (by decide) (Bool.or_false _).symm rfl (by simp) (by simp) (by simp)

theorem setServerConfig_handles (a : MatrixApplication) (serverConfig : ServerConfig) :
    Handles .getServerInfo a (a.setServerConfig serverConfig).1
      (a.setServerConfig serverConfig).2 := by
  simp only [setServerConfig]
  split
  · exact ⟨(Bool.or_false _).symm, fun _ => .inr (.inl rfl), nofun, by simp, by simp,
      by simp⟩
  · exact .of_same (by decide) (Bool.or_false _).symm rfl (by simp) (by simp) (by simp)

theorem pause_handles (a : MatrixApplication) :
    Handles .appPause a a.pause.1 [a.response .appPause a.pause.2] := by
  simp only [pause]
  split
  · exact ⟨(Bool.or_false _).symm, nofun, nofun, by simp [response],
      by simp [response], by simp [response]⟩
  · exact .of_same (by decide) (Bool.or_false _).symm rfl (by simp [response])
      (by simp [response]) (by simp [response])

theorem resume_handles (a : MatrixApplication) :
    Handles .appResume a a.resume.1 [a.response .appResume a.resume.2] := by
  simp only [resume]
  split
  · rename_i hpaused
    exact ⟨(Bool.or_false _).symm, fun _ => .inr (.inr ⟨rfl, hpaused⟩), nofun, by simp [response],
      by simp [response], by simp [response]⟩
  · exact .of_same (by decide) (Bool.or_false _).symm rfl (by simp [response])
      (by simp [response]) (by simp [response])

theorem handleRequest_handles (a : MatrixApplication) (message : MatrixServerMessage) :
    Handles message.messageType a (a.handleRequest message).1 (a.handleRequest message).2 := by
  simp only [handleRequest]
  cases message.messageType with
  | registerApp => exact register_handles a message
  | getServerInfo => exact setServerConfig_handles a _
  | appPause => exact pause_handles a
  | appResume => exact resume_handles a
  | appKill =>
      exact ⟨(Bool.or_false _).symm, nofun, fun _ => rfl, by simp,
        by simp [response], by simp [response]⟩
  | requestScreenAccess | setScreenFrame =>
      exact .of_same (by decide) (Bool.or_true _).symm rfl (by simp) (by simp) (by simp)
  | audioDataMessage =>
      cases message.audioData <;>
        exact .of_same (by decide) (Bool.or_false _).symm rfl (by simp) (by simp) (by simp)
  | setAppParam =>
      cases message.appParamUpdate <;>
        exact .of_same (by decide) (Bool.or_false _).symm rfl (by simp) (by simp) (by simp)
  | appAlive =>
      exact .of_same (by decide) (Bool.or_false _).symm rfl (by simp [response])
        (by simp [response]) (by simp [response])
  | _ => exact .of_same (by decide) (Bool.or_false _).symm rfl (by simp) (by simp) (by simp)

end MatrixApplication
end MatrixServer
