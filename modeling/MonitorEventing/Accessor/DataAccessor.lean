import MonitorEventing.Accessor.Json
import MonitorEventing.Accessor.PropertyValue
import MonitorEventing.DeviceId.DeviceUtil

/-!
# Data accessors

A data accessor is a JSON description of where a value comes from, together with the value last read
and the device it was read for. What the read calls return from outside is the environment.
-/

namespace MonitorEventing.Accessor
open DeviceId DeviceUtil

/-- The calls that leave the program: the bus, a child process (`none` where it fails), and the
device core interface (return code, text, number). -/
structure Env where
  readDbusProperty : String → String → String → Except Exn PropertyVariant
  runCommand : String → Option String
  deviceGetCoreAPI : Int → String → Int × String × UInt64

structure DataAccessor where
  acc : Json := .null
  dataValue : PropertyValue := {}
  savedDevice : String := ""

namespace DataAccessor

def readFailedReturn : String := "Value_Not_Available"

/-! ### What the description says -/

def isValid (acc : Json) : Bool := acc.contains "type"

/-- `operator=` from JSON keeps the old description where the new one has no type. -/
def assign (a : DataAccessor) (acc : Json) : DataAccessor := if isValid acc then { a with acc := acc } else a

/-- The `isType` family. -/
def isType (a : DataAccessor) (type : String) : Bool :=
  match a.acc.get? "type" with
  | some value => value.isString type
  | none => false

def isTypeDbus (a : DataAccessor) : Bool := a.isType "DBUS"
def isTypeDevice (a : DataAccessor) : Bool := a.isType "DEVICE"
def isTypeTest (a : DataAccessor) : Bool := a.isType "TEST"
def isTypeDeviceName (a : DataAccessor) : Bool := a.isType "DIRECT"
def isTypeConst (a : DataAccessor) : Bool := a.isType "CONSTANT"
def isTypeCmdline (a : DataAccessor) : Bool := a.isType "CMDLINE"
def isTypeDeviceCoreApi (a : DataAccessor) : Bool := a.isType "DeviceCoreAPI"

def isValidDbusAccessor (a : DataAccessor) : Bool :=
  a.isTypeDbus && a.acc.contains "object" && a.acc.contains "interface" && a.acc.contains "property"

def isValidDeviceAccessor (a : DataAccessor) : Bool := a.isTypeDevice && a.acc.contains "device_name"
def isValidCmdlineAccessor (a : DataAccessor) : Bool := a.isTypeCmdline && a.acc.contains "executable"
def isValidDeviceCoreApiAccessor (a : DataAccessor) : Bool := a.isTypeDeviceCoreApi && a.acc.contains "property"

def isEmpty (a : DataAccessor) : Bool := a.acc.isEmpty

def hasData (a : DataAccessor) : Bool := !a.dataValue.empty

/-- The text at a key that the caller has checked to be there. -/
def textAt (a : DataAccessor) (key : String) : Except Exn String := do
  let value ← a.acc.index key
  value.getString

def getDbusObjectPath (a : DataAccessor) : Except Exn String :=
  if a.isValidDbusAccessor then a.textAt "object" else pure ""

def getDbusInterface (a : DataAccessor) : Except Exn String :=
  if a.isValidDbusAccessor then a.textAt "interface" else pure ""

def getProperty (a : DataAccessor) : Except Exn String :=
  if isValid a.acc && a.acc.contains "property" then a.textAt "property" else pure ""

def getExecutable (a : DataAccessor) : Except Exn String :=
  if a.acc.contains "executable" then a.textAt "executable" else pure ""

def getArguments (a : DataAccessor) : Except Exn String :=
  if a.isTypeCmdline && a.acc.contains "arguments" then a.textAt "arguments" else pure ""

def existsCheckKey (a : DataAccessor) : Bool := !a.isEmpty && a.acc.contains "check"

/-- A key inside "check"; `existsCheckBitmap` and `existsCheckLookup` are its two uses. -/
def existsInCheck (a : DataAccessor) (key : String) : Bool :=
  a.existsCheckKey && ((a.acc.get? "check").map fun check => check.contains key).getD false

def existsCheckBitmap (a : DataAccessor) : Bool := a.existsInCheck "bitmap"
def existsCheckLookup (a : DataAccessor) : Bool := a.existsInCheck "lookup"

def isDeviceIdRange (a : DataAccessor) : Bool :=
  match a.acc.get? "device_id" with
  | some value => value.isString "range"
  | none => true

/-! ### Reading -/

def clearData (a : DataAccessor) : DataAccessor := { a with dataValue := {} }

def setDataValue (a : DataAccessor) (value : PropertyValue) : DataAccessor := { a with dataValue := value }

def setDataValueFromVariant (a : DataAccessor) (propVariant : PropertyVariant) : DataAccessor :=
  if isValidVariant propVariant then a.setDataValue (.ofVariant propVariant) else a.clearData

def readDbus (env : Env) (a : DataAccessor) (devIndex : Option PatternIndex) : Except Exn DataAccessor :=
  if a.isValidDbusAccessor then do
    let text ← a.textAt "object"
    let ranged ← existsRangeIn text
    let objPath ← match devIndex with
      | some index => if ranged then introduceDeviceInObjectpath text index else pure text
      | none => pure text
    let interface ← a.textAt "interface"
    let property ← a.textAt "property"
    let propVariant ← env.readDbusProperty objPath interface property
    pure (a.setDataValueFromVariant propVariant)
  else pure a.clearData

def runCommandLine (env : Env) (a : DataAccessor) (devIndex : Option PatternIndex) : Except Exn DataAccessor :=
  if a.isValidCmdlineAccessor then do
    let executable ← a.getExecutable
    let cmd ←
      if a.acc.contains "arguments" then do
        let text ← a.getArguments
        let args ← match devIndex with
          | some index => introduceDeviceInObjectpath text index
          | none => pure text
        pure (executable ++ " " ++ args)
      else pure executable
    match env.runCommand cmd with
    | some result => pure (a.setDataValue (.ofString result))
    | none => pure a.clearData
  else pure a.clearData

def readDeviceCoreApi (env : Env) (a : DataAccessor) (device : String) : Except Exn DataAccessor :=
  if a.isValidDeviceCoreApiAccessor then do
    let mapped := getMappedDeviceId device
    let deviceId := if mapped = invalidDeviceId then (getDeviceId device : Int) else mapped
    let property ← a.textAt "property"
    let (rc, text, number) := env.deviceGetCoreAPI deviceId property
    if rc ≠ 0 then pure a.clearData
    else if a.existsCheckLookup && !a.isDeviceIdRange then pure (a.setDataValue (.ofBoth text number))
    else pure (a.setDataValue (.ofVariant (.integer number.toNat)))
  else pure a.clearData

/-- The text at a key of a value that is not constant: a missing key becomes null, which is no text. -/
def ownText (a : DataAccessor) (key : String) : Except Exn String := ((a.acc.get? key).getD .null).getString

/-- `read`: the value read, and the accessor that now holds it. -/
def read (env : Env) (a : DataAccessor) (device : String) (devIndex : Option PatternIndex) :
    Except Exn (String × DataAccessor) := do
  let a ←
    if a.isTypeDbus then a.readDbus env devIndex
    else if a.isTypeDevice then do
      let name ← a.ownText "device_name"
      pure (a.setDataValue (.ofString name))
    else if a.isTypeCmdline then a.runCommandLine env devIndex
    else if a.isTypeDeviceCoreApi then a.readDeviceCoreApi env device
    else if a.isTypeTest then do
      let value ← a.ownText "test_value"
      pure (a.setDataValue (.ofString value))
    else if a.isTypeDeviceName then pure (a.setDataValue (.ofString device))
    else if a.isTypeConst then do
      let value ← a.ownText "value"
      pure (a.setDataValue (.ofString value))
    else pure a
  pure (if a.dataValue.empty then readFailedReturn else a.dataValue.strValue, a)

/-! ### Equality -/

def isSkipped (key : String) : Bool := key == "name" || key == "check" || key == "device_id"

/-- The texts compared as patterns, by accessor type. -/
def patternTexts (accType : String) (a other : DataAccessor) : Except Exn (String × String) :=
  if accType = "DBUS" then do
    let patPath ← a.textAt "object"
    let otherPatPath ← other.textAt "object"
    pure (patPath, otherPatPath)
  else if accType = "CMDLINE" then do
    let patPath ← a.textAt "arguments"
    let otherPatPath ← other.textAt "arguments"
    pure (patPath, otherPatPath)
  else pure ("", "")

def patternsMatch (patPath otherPatPath : String) : Except Exn Bool :=
  if patPath ≠ otherPatPath then do
    let pat1 ← DeviceIdPattern.ofString patPath
    let pat2 ← DeviceIdPattern.ofString otherPatPath
    let first ← pat1.matchesString otherPatPath
    if first then pure true else pat2.matchesString patPath
  else pure true

/-- The loop of `operator==` over the members of `a`. -/
def eqFrom (accType : String) (a other : DataAccessor) : List (String × Json) → Except Exn Bool
  | [] => pure true
  | (key, val) :: rest =>
    if isSkipped key then eqFrom accType a other rest
    else if !other.acc.contains key then pure false
    else if key = "object" ∨ key = "arguments" then do
      let (patPath, otherPatPath) ← patternTexts accType a other
      let objPathMatches ← patternsMatch patPath otherPatPath
      if objPathMatches then eqFrom accType a other rest else pure false
    else do
      let otherVal ← other.textAt key
      let myVal ← val.getString
      if otherVal ≠ myVal then pure false else eqFrom accType a other rest

/-- `operator==`. -/
def eq (a other : DataAccessor) : Except Exn Bool :=
  match a.acc.get? "type", other.acc.get? "type" with
  | some type, some otherType =>
    if Json.beq type otherType then do
      let accType ← type.getString
      eqFrom accType a other a.acc.items
    else pure false
  | _, _ => pure false

/-! ### Small facts -/

theorem isType_iff {a : DataAccessor} {type : String} :
    a.isType type = true ↔ a.acc.get? "type" = some (.string type) := by
  unfold isType
  cases a.acc.get? "type" with
  | none => simp
  | some value => simp [Json.isString_iff]

theorem isType_other {a : DataAccessor} {type other : String} (h : a.isType type = true) (different : type ≠ other) :
    a.isType other = false := by
  rw [← Bool.not_eq_true, isType_iff, isType_iff.mp h]
  simpa using different

@[simp] theorem textAt_ok_iff {a : DataAccessor} {key s : String} :
    a.textAt key = .ok s ↔ a.acc.get? key = some (.string s) := by
  simp [textAt, bind_ok_iff, Json.index_ok_iff]

end DataAccessor

end MonitorEventing.Accessor
