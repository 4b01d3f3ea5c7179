import MatrixServer.Common.Cobs

/-!
The messages of common/protobuf/matrixserver.proto.
Defaults are those of proto3, so a literal that sets some fields is the message
that the corresponding `set_` calls build. A singular submessage is an option,
`has_` being `isSome`; reading an absent one gives its default. A `float` is its
bit pattern. An enumerator the schema does not know is handled like
`defaultMessageType` by every `switch` in the code.
-/

namespace MatrixServer

abbrev FloatBits := UInt32

inductive MessageType where
  | defaultMessageType | registerApp | getServerInfo | requestScreenAccess | setScreenFrame
  | appAlive | appPause | appResume | appKill | imuData | joystickData | appParamSchema
  | setAppParam | getAppParams | appParamValues | audioDataMessage
  deriving DecidableEq, Repr

inductive Status where
  | defaultStatus | error | success | invalidRequest | requestDenied
  deriving DecidableEq, Repr

inductive Encoding where
  | default | rgb24bbp
  deriving DecidableEq, Repr

structure ScreenData where
  screenID : Int := 0
  frameData : Bytes := []
  encoding : Encoding := .default
  deriving DecidableEq

structure ImuData where
  accelX : FloatBits := 0
  accelY : FloatBits := 0
  accelZ : FloatBits := 0
  gyroX : FloatBits := 0
  gyroY : FloatBits := 0
  gyroZ : FloatBits := 0
  deriving DecidableEq

structure AudioData where
  volume : UInt32 := 0
  frequencyBands : List UInt32 := []
  deriving DecidableEq

structure JoystickData where
  joystickID : Int := 0
  axisX : FloatBits := 0
  axisY : FloatBits := 0
  buttonA : Bool := false
  buttonB : Bool := false
  buttonX : Bool := false
  buttonY : Bool := false
  buttonR : Bool := false
  buttonL : Bool := false
  buttonStart : Bool := false
  buttonSelect : Bool := false
  rightAxisX : FloatBits := 0
  rightAxisY : FloatBits := 0
  rightTrigger : FloatBits := 0
  leftTrigger : FloatBits := 0
  rightStickButton : Bool := false
  leftStickButton : Bool := false
  buttonDpadUp : Bool := false
  buttonDpadLeft : Bool := false
  buttonDpadDown : Bool := false
  buttonDpadRight : Bool := false
  deriving DecidableEq

inductive Rotation where
  | rot0 | rot90 | rot180 | rot270
  deriving DecidableEq, Repr

structure ScreenInfo where
  screenID : Int := 0
  width : Int := 0
  height : Int := 0
  screenRotation : Rotation := .rot0
  offsetX : Int := 0
  offsetY : Int := 0
  deriving DecidableEq

structure ServerConfig where
  screenInfo : List ScreenInfo := []
  globalScreenBrightness : Int := 0
  deriving DecidableEq

structure AppParamDef where
  key : String := ""
  label : String := ""
  type : String := ""
  minVal : FloatBits := 0
  maxVal : FloatBits := 0
  step : FloatBits := 0
  defaultVal : FloatBits := 0
  enumOptions : List String := []
  group : String := ""
  deriving DecidableEq

structure AppParamSchema where
  appName : String := ""
  params : List AppParamDef := []
  deriving DecidableEq

structure AppParamUpdate where
  key : String := ""
  floatVal : FloatBits := 0
  intVal : Int := 0
  boolVal : Bool := false
  stringVal : String := ""
  deriving DecidableEq

structure AppParamValues where
  appName : String := ""
  values : List AppParamUpdate := []
  deriving DecidableEq

structure MatrixServerMessage where
  messageType : MessageType := .defaultMessageType
  appID : Int := 0
  status : Status := .defaultStatus
  screenData : List ScreenData := []
  joystickData : List JoystickData := []
  imuData : Option ImuData := none
  serverConfig : Option ServerConfig := none
  appParamSchema : Option AppParamSchema := none
  appParamUpdate : Option AppParamUpdate := none
  appParamValues : Option AppParamValues := none
  audioData : Option AudioData := none
  deriving DecidableEq

end MatrixServer
