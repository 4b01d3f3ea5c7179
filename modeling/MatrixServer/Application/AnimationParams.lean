import MatrixServer.Common.Message
import MatrixServer.Foundation.OrderedMap

/-!
The parameter store of application/AnimationParams.cpp: an ordered map from keys
to records, read out in key order and updated by key. A call holds `mutex_` from its
first line to its last, so calls are taken one after the other.
-/

namespace MatrixServer

structure ParamRecord where
  def_ : AppParamDef
  floatVal : FloatBits
  intVal : Int
  boolVal : Bool
  stringVal : String
  deriving DecidableEq

/-- `std::map<std::string, ParamRecord>`: the entries in strictly increasing key order. -/
structure AnimationParams where
  params_ : List (String × ParamRecord) := []
  ordered : params_.Pairwise fun a b => a.1 < b.1 := by exact List.Pairwise.nil

namespace AnimationParams

/-- The field an update of the record's type writes. -/
def applyToRecord (update : AppParamUpdate) (record : ParamRecord) : ParamRecord :=
  if record.def_.type = "float" then { record with floatVal := update.floatVal }
  else if record.def_.type = "int" then { record with intVal := update.intVal }
  else if record.def_.type = "bool" then { record with boolVal := update.boolVal }
  else if record.def_.type = "enum" then { record with stringVal := update.stringVal }
  else record

def applyUpdate (p : AnimationParams) (update : AppParamUpdate) : AnimationParams where
  params_ := p.params_.map fun x =>
    (x.1, if x.1 = update.key then applyToRecord update x.2 else x.2)
  ordered := List.pairwise_map.mpr p.ordered

def toSchema (p : AnimationParams) (appName : String) : AppParamSchema where
  appName := appName
  params := p.params_.map fun x => x.2.def_

def recordValue (key : String) (record : ParamRecord) : AppParamUpdate :=
  if record.def_.type = "float" then { key, floatVal := record.floatVal }
  else if record.def_.type = "int" then { key, intVal := record.intVal }
  else if record.def_.type = "bool" then { key, boolVal := record.boolVal }
  else if record.def_.type = "enum" then { key, stringVal := record.stringVal }
  else { key }

def toValues (p : AnimationParams) (appName : String) : AppParamValues where
  appName := appName
  values := p.params_.map fun x => recordValue x.1 x.2

def find (p : AnimationParams) (key : String) : Option ParamRecord :=
  OrderedMap.find p.params_ key

def typeOf (p : AnimationParams) (key : String) : Option String :=
  (p.find key).map fun record => record.def_.type

theorem ordered_nil : OrderedMap.Ordered ([] : List (String × ParamRecord)) := List.Pairwise.nil

/-- The constructor. -/
def new : AnimationParams := ⟨[], ordered_nil⟩

/-- `params_[key] = record`. -/
def assign (p : AnimationParams) (key : String) (record : ParamRecord) : AnimationParams where
  params_ := OrderedMap.put key record p.params_
  ordered := OrderedMap.Ordered.put p.ordered

/-- `static_cast<float>` of an `int`: the nearest value of 24 significant bits, ties to even. -/
def floatOfInt (n : Int) : FloatBits :=
  let magnitude := n.natAbs
  let exponent := magnitude.log2
  let unit := 1 <<< (exponent - 23)
  let below := magnitude / unit
  let roundsUp := unit < 2 * (magnitude % unit) ∨ unit = 2 * (magnitude % unit) ∧ below % 2 = 1
  let significand := (if roundsUp then below + 1 else below) <<< (23 - exponent)
  if n = 0 then 0
  else .ofNat ((if n < 0 then 0x80000000 else 0) + (exponent + 127) <<< 23 +
    (significand - 0x800000))

example : floatOfInt 100 = 0x42C80000 := by decide
example : floatOfInt (-16777219) = 0xCB800002 := by decide

/-- The fields of a local `ParamRecord` that have no constructor hold what was there before. -/
structure Uninitialised where
  floatVal : FloatBits
  intVal : Int
  boolVal : Bool

def localRecord (fields : Uninitialised) (def_ : AppParamDef) : ParamRecord where
  def_ := def_
  floatVal := fields.floatVal
  intVal := fields.intVal
  boolVal := fields.boolVal
  stringVal := ""

section
variable (p : AnimationParams) (fields : Uninitialised) (key label : String)

def registerFloat (min max def_ step : FloatBits) (group : String) : AnimationParams :=
  let record := localRecord fields
    { key, label, type := "float", minVal := min, maxVal := max, step, defaultVal := def_, group }
  p.assign key { record with floatVal := def_ }

def registerInt (min max def_ : Int) (group : String) : AnimationParams :=
  let record := localRecord fields
    { key, label, type := "int", minVal := floatOfInt min, maxVal := floatOfInt max,
      step := floatOfInt 1, defaultVal := floatOfInt def_, group }
  p.assign key { record with intVal := def_ }

def registerBool (def_ : Bool) (group : String) : AnimationParams :=
  let record := localRecord fields
    { key, label, type := "bool", defaultVal := if def_ then floatOfInt 1 else 0, group }
  p.assign key { record with boolVal := def_ }

def registerEnum (options : List String) (def_ : String) (group : String) : AnimationParams :=
  let record := localRecord fields { key, label, type := "enum", enumOptions := options, group }
  p.assign key { record with stringVal := def_ }

end

/-- The setters write a field of the record whatever its type is. -/
def setField (p : AnimationParams) (key : String) (f : ParamRecord → ParamRecord) :
    AnimationParams where
  params_ := OrderedMap.update p.params_ key f
  ordered := List.pairwise_map.mpr p.ordered

def setFloat (p : AnimationParams) (key : String) (value : FloatBits) : AnimationParams :=
  p.setField key fun record => { record with floatVal := value }

def setInt (p : AnimationParams) (key : String) (value : Int) : AnimationParams :=
  p.setField key fun record => { record with intVal := value }

def setBool (p : AnimationParams) (key : String) (value : Bool) : AnimationParams :=
  p.setField key fun record => { record with boolVal := value }

def setString (p : AnimationParams) (key : String) (value : String) : AnimationParams :=
  p.setField key fun record => { record with stringVal := value }

/-- The getters read a field of the record whatever its type is. -/
def getField {Value : Type} (p : AnimationParams) (key : String) (field : ParamRecord → Value)
    (unknown : Value) : Value :=
  ((p.find key).map field).getD unknown

def getFloat (p : AnimationParams) (key : String) : FloatBits :=
  p.getField key ParamRecord.floatVal 0

def getInt (p : AnimationParams) (key : String) : Int := p.getField key ParamRecord.intVal 0

def getBool (p : AnimationParams) (key : String) : Bool :=
  p.getField key ParamRecord.boolVal false

def getString (p : AnimationParams) (key : String) : String :=
  p.getField key ParamRecord.stringVal ""

end AnimationParams
end MatrixServer
