import MatrixServer.Common.Message
import Mathlib.Logic.Function.Basic

/-!
Controllers, common/Joystick.cpp.
A slot reads a device or, in simulator fallback, the state that messages for its number left.
Both are the same four arrays, functions of the index here, of which `MAXBUTTONAXISCOUNT`
entries exist. `operator[]` of the static map makes a state of zeros, so the map is total.
-/

namespace MatrixServer

def MAXBUTTONAXISCOUNT : Nat := 16

namespace FloatBits

/-- `value == 0.0f`: both zeros and nothing else. -/
def isZero (value : FloatBits) : Bool := value == 0 || value == 0x80000000

def one : FloatBits := 0x3F800000

def minusOne : FloatBits := 0xBF800000

/-- The quotient to the nearest integer, to the even one of two. -/
def nearestQuotient (a b : Nat) : Nat :=
  if a % b * 2 > b ∨ (a % b * 2 = b ∧ a / b % 2 = 1) then a / b + 1 else a / b

/-- `(float)value / INT16_MAX`, with 24 bits of the quotient's significand. -/
def ofShort (value : Int16) : FloatBits :=
  let magnitude := value.toInt.natAbs
  let exponent := if 32767 ≤ magnitude then 15 else magnitude.log2
  let significand := nearestQuotient (magnitude <<< (38 - exponent)) 32767
  if magnitude = 0 then 0
  else if value < 0 then .ofNat (0x80000000 + (exponent + 111) * 0x800000 + significand)
  else .ofNat ((exponent + 111) * 0x800000 + significand)

end FloatBits

/-- The buttons of a message in the order of their numbers. -/
def JoystickData.buttonFields (data : JoystickData) : List Bool :=
  [data.buttonA, data.buttonB, data.buttonX, data.buttonY, data.buttonL, data.buttonR,
    data.buttonSelect, data.buttonStart, data.leftStickButton, data.rightStickButton]

def JoystickData.dpadx (data : JoystickData) : FloatBits :=
  if data.buttonDpadLeft then FloatBits.minusOne
  else if data.buttonDpadRight then FloatBits.one else 0

def JoystickData.dpady (data : JoystickData) : FloatBits :=
  if data.buttonDpadUp then FloatBits.minusOne
  else if data.buttonDpadDown then FloatBits.one else 0

/-- The axes of a message in the order of their numbers. -/
def JoystickData.axisFields (data : JoystickData) : List FloatBits :=
  [data.axisX, data.axisY, data.leftTrigger, data.rightAxisX, data.rightAxisY, data.rightTrigger,
    data.dpadx, data.dpady]

structure SimulatorState where
  button : Nat → Bool
  buttonPress : Nat → Bool
  axis : Nat → FloatBits
  axisPress : Nat → FloatBits

namespace SimulatorState

/-- The constructor: all four arrays are filled. -/
def fresh : SimulatorState :=
  { button := fun _ => false
    buttonPress := fun _ => false
    axis := fun _ => 0
    axisPress := fun _ => 0 }

def updateBtn (state : SimulatorState) (num : Nat) (newVal : Bool) : SimulatorState :=
  { state with
    buttonPress :=
      if !state.button num && newVal then Function.update state.buttonPress num true
      else state.buttonPress
    button := Function.update state.button num newVal }

def updateAxis (state : SimulatorState) (num : Nat) (newVal : FloatBits) : SimulatorState :=
  { state with
    axisPress :=
      if FloatBits.isZero (state.axis num) && !FloatBits.isZero newVal then
        Function.update state.axisPress num newVal
      else state.axisPress
    axis := Function.update state.axis num newVal }

/-- The calls of `updateBtn` and `updateAxis` in `updateSimulatorState`, one after the other. -/
def update (state : SimulatorState) (data : JoystickData) : SimulatorState :=
  data.axisFields.zipIdx.foldl (fun state field => state.updateAxis field.2 field.1)
    (data.buttonFields.zipIdx.foldl (fun state field => state.updateBtn field.2 field.1) state)

def getButton (state : SimulatorState) (num : Nat) : Bool :=
  if num < MAXBUTTONAXISCOUNT then state.button num else false

def getButtonPress (state : SimulatorState) (num : Nat) : Bool × SimulatorState :=
  if num < MAXBUTTONAXISCOUNT then
    if state.buttonPress num then
      (true, { state with buttonPress := Function.update state.buttonPress num false })
    else (false, state)
  else (false, state)

def getAxis (state : SimulatorState) (num : Nat) : FloatBits :=
  if num < MAXBUTTONAXISCOUNT then state.axis num else 0

def getAxisPress (state : SimulatorState) (num : Nat) : FloatBits × SimulatorState :=
  if num < MAXBUTTONAXISCOUNT then
    if FloatBits.isZero (state.axisPress num) then (0, state)
    else (state.axisPress num,
      { state with axisPress := Function.update state.axisPress num 0 })
  else (0, state)

def clearAllButtonPresses (state : SimulatorState) : SimulatorState :=
  { state with
    buttonPress := fun _ => false
    axisPress := fun _ => 0 }

end SimulatorState

/-- `Joystick::simulatorStates_` -/
abbrev SimulatorStates := Int → SimulatorState

def updateSimulatorState (states : SimulatorStates) (data : JoystickData) : SimulatorStates :=
  Function.update states data.joystickID ((states data.joystickID).update data)

/-- A `Joystick::Event`; nothing reads its time. -/
structure JoystickEvent where
  value : Int16
  type : UInt8
  number : UInt8
  deriving DecidableEq

def JoystickEvent.isButton (event : JoystickEvent) : Bool := event.type &&& 0x01 != 0

def JoystickEvent.isAxis (event : JoystickEvent) : Bool := event.type &&& 0x02 != 0

/-- The body of the loop in `refresh`. -/
def SimulatorState.handleEvent (state : SimulatorState) (event : JoystickEvent) :
    SimulatorState :=
  if event.number.toNat < MAXBUTTONAXISCOUNT then
    if event.isButton then state.updateBtn event.number.toNat (event.value != 0)
    else if event.isAxis then state.updateAxis event.number.toNat (FloatBits.ofShort event.value)
    else state
  else state

/-- A slot; `inputs` are its own `button_`, `buttonPress_`, `axis_` and `axisPress_`. -/
structure Joystick where
  joystickNumber : Int
  fd : Int
  useSimulatorFallback : Bool
  inputs : SimulatorState

namespace Joystick

/-- `axisPress_` is not among the variables that are reset. -/
def resetVariables (joystick : Joystick) : Joystick :=
  { joystick with
    inputs := { joystick.inputs with
      button := fun _ => false
      buttonPress := fun _ => false
      axis := fun _ => 0 } }

/-- `fileExists` is what `stat` finds and `opened` what `open` returns. -/
def openPath (joystick : Joystick) (fileExists : Bool) (opened : Int) : Joystick :=
  if fileExists then { joystick with fd := opened } else joystick

/-- `init` on memory that holds anything, for the number that the path names. -/
def init (memory : SimulatorState) (joystickNumber : Int) (fileExists : Bool) (opened : Int) :
    Joystick :=
  let joystick := resetVariables
    { joystickNumber, fd := -1, useSimulatorFallback := false, inputs := memory }
  if fileExists then joystick.openPath fileExists opened
  else { joystick with useSimulatorFallback := true }

def recheckFilePath (joystick : Joystick) (fileExists : Bool) (opened : Int) : Joystick :=
  if joystick.useSimulatorFallback then
    if fileExists then
      { joystick.resetVariables.openPath fileExists opened with useSimulatorFallback := false }
    else joystick
  else
    let joystick := if fileExists then joystick else { joystick with fd := 0 }
    if joystick.fd = 0 then joystick.resetVariables.openPath fileExists opened else joystick

/-- `sampled` are the events that the device has for the loop. -/
def refresh (joystick : Joystick) (sampled : List JoystickEvent) : Joystick :=
  if joystick.fd > 0 then
    { joystick with inputs := sampled.foldl SimulatorState.handleEvent joystick.inputs }
  else joystick

/-- The arrays a slot reads. -/
def active (joystick : Joystick) (states : SimulatorStates) : SimulatorState :=
  if joystick.useSimulatorFallback then states joystick.joystickNumber else joystick.inputs

/-- The slot and the static states with other contents in the arrays the slot reads. -/
def withActive (joystick : Joystick) (states : SimulatorStates) (inputs : SimulatorState) :
    Joystick × SimulatorStates :=
  if joystick.useSimulatorFallback then
    (joystick, Function.update states joystick.joystickNumber inputs)
  else ({ joystick with inputs }, states)

def getButton (joystick : Joystick) (states : SimulatorStates) (num : Nat) : Bool :=
  (joystick.active states).getButton num

def getButtonPress (joystick : Joystick) (states : SimulatorStates) (num : Nat) :
    Bool × Joystick × SimulatorStates :=
  let pressed := (joystick.active states).getButtonPress num
  (pressed.1, joystick.withActive states pressed.2)

def getAxis (joystick : Joystick) (states : SimulatorStates) (num : Nat) : FloatBits :=
  (joystick.active states).getAxis num

def getAxisPress (joystick : Joystick) (states : SimulatorStates) (num : Nat) :
    FloatBits × Joystick × SimulatorStates :=
  let pressed := (joystick.active states).getAxisPress num
  (pressed.1, joystick.withActive states pressed.2)

def clearAllButtonPresses (joystick : Joystick) (states : SimulatorStates) :
    Joystick × SimulatorStates :=
  joystick.withActive states (joystick.active states).clearAllButtonPresses

end Joystick

structure JoystickManager where
  joysticks : List Joystick

namespace JoystickManager

/-- The slots are made one after the other, each on memory and with a device of its own. -/
def new (maxNum : Nat) (memory : Nat → SimulatorState) (fileExists : Nat → Bool)
    (opened : Nat → Int) : JoystickManager :=
  { joysticks := (List.range maxNum).map fun i =>
      .init (memory i) i (fileExists i) (opened i) }

/-- `returnValue || joystick->getButtonPress(num)` calls nothing once a slot has answered. -/
def getButtonPressLoop (num : Nat) : Bool → List Joystick → SimulatorStates →
    Bool × List Joystick × SimulatorStates
  | returnValue, [], states => (returnValue, [], states)
  | returnValue, joystick :: joysticks, states =>
      let pressed :=
        if returnValue then (true, joystick, states) else joystick.getButtonPress states num
      let rest := getButtonPressLoop num pressed.1 joysticks pressed.2.2
      (rest.1, pressed.2.1 :: rest.2.1, rest.2.2)

def getButtonPress (manager : JoystickManager) (states : SimulatorStates) (num : Nat) :
    Bool × JoystickManager × SimulatorStates :=
  let pressed := getButtonPressLoop num false manager.joysticks states
  (pressed.1, { joysticks := pressed.2.1 }, pressed.2.2)

def clearLoop : List Joystick → SimulatorStates → List Joystick × SimulatorStates
  | [], states => ([], states)
  | joystick :: joysticks, states =>
      let cleared := joystick.clearAllButtonPresses states
      let rest := clearLoop joysticks cleared.2
      (cleared.1 :: rest.1, rest.2)

def clearAllButtonPresses (manager : JoystickManager) (states : SimulatorStates) :
    JoystickManager × SimulatorStates :=
  let cleared := clearLoop manager.joysticks states
  ({ joysticks := cleared.1 }, cleared.2)

end JoystickManager
end MatrixServer
