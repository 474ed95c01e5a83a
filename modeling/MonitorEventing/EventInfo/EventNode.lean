import MonitorEventing.Dat.Device

/-!
# Event nodes

An event as loaded from the event info file. Who handles an event fills in the device it occurred on
in a copy, so a loaded event has none.
-/

namespace MonitorEventing.EventInfo
open Accessor DeviceId Dat

structure EventNode where
  configEventNode : Json := .null
  event : String := ""
  errorId : String := ""
  deviceTypes : List String := []
  triggerCount : Int := 0
  eventCategories : Option (List String) := none
  subType : String := ""
  telemetries : List DataAccessor := []
  action : String := ""
  device : String := ""
  counterReset : DataAccessor := {}
  messageId : String := ""
  severity : String := ""
  resolution : String := ""
  messageArgsJsonPattern : Json := .null
  accessor : DataAccessor := {}
  trigger : DataAccessor := {}
  recoveryAccessor : DataAccessor := {}
  valueAsCount : Bool := false
  originOfCondition : Option String := none
  deviceIndexTuple : Option PatternIndex := none
  severities : List Severity := []
  selftestReport : Json := .null

/-! ### Text of JSON -/

def hexDigitOf (n : Nat) : Char := "0123456789abcdef".toList.getD n '0'

def escapeChar (c : Char) : List Char :=
  if c = '"' then ['\\', '"']
  else if c = '\\' then ['\\', '\\']
  else if c.toNat = 8 then ['\\', 'b']
  else if c.toNat = 9 then ['\\', 't']
  else if c.toNat = 10 then ['\\', 'n']
  else if c.toNat = 12 then ['\\', 'f']
  else if c.toNat = 13 then ['\\', 'r']
  else if c.toNat < 32 then ['\\', 'u', '0', '0', hexDigitOf (c.toNat / 16), hexDigitOf (c.toNat % 16)]
  else [c]

def quoted (s : String) : String := "\"" ++ String.ofList (s.toList.flatMap escapeChar) ++ "\""

mutual
/-- `dump`. -/
def dump : Json → String
  | .null => "null"
  | .boolean b => toString b
  | .number n => toString n
  | .unsigned n => toString n
  | .float x => x.text
  | .string s => quoted s
  | .array elems => "[" ++ ",".intercalate (dumpElems elems) ++ "]"
  | .object members => "\x7b" ++ ",".intercalate (dumpMembers members) ++ "\x7d"

def dumpElems : List Json → List String
  | [] => []
  | elem :: rest => dump elem :: dumpElems rest

def dumpMembers : List (String × Json) → List String
  | [] => []
  | (key, value) :: rest => (quoted key ++ ":" ++ dump value) :: dumpMembers rest
end

/-! ### Loading -/

/-- `at` of a JSON value. -/
def jsonAt (j : Json) (key : String) : Except Exn Json :=
  match j with
  | .object members =>
    match members.lookup key with
    | some value => .ok value
    | none => .error .outOfRange
  | _ => .error .typeError

def stringAt (j : Json) (key : String) : Except Exn String := do
  let value ← jsonAt j key
  value.getString

/-- `get<int>()`, with the 32 bits an `int` has. -/
def getInt : Json → Except Exn Int
  | .number n => pure ((n + 2 ^ 31) % 2 ^ 32 - 2 ^ 31)
  | .unsigned n => pure ((n + 2 ^ 31) % 2 ^ 32 - 2 ^ 31)
  | .float x => x.value.toInt
  | .boolean b => pure (if b then 1 else 0)
  | _ => .error .typeError

/-- An entry that is read where `contains` finds it. -/
def optionalAt {α : Type} (get : Json → Except Exn α) (default : α) (j : Json) (key : String) : Except Exn α :=
  match j.get? key with
  | some value => get value
  | none => pure default

/-- `value("key", "")`. -/
def stringOr (j : Json) (key : String) : Except Exn String :=
  match j with
  | .object members =>
    match members.lookup key with
    | some value => value.getString
    | none => pure ""
  | _ => .error .typeError

namespace EventNode

def deviceTypeElement : Json → Except Exn String
  | .string s => pure s
  | elem => .error (.runtimeError ("Value '" ++ dump elem ++ "' expected to be a string"))

/-- The values `setDeviceTypes` stores. There is at least one. -/
def setDeviceTypes (js : Json) : Except Exn (List String) :=
  match js with
  | .string s => pure ((split ['/'] s.toList).map String.ofList)
  | .array elems => do
    let values ← elems.mapM deviceTypeElement
    if values.length > 0 then pure values
    else .error (.runtimeError "Device types array is expected to have at least 1 element. Actual size: 0")
  | _ => .error (.runtimeError ("value '" ++ dump js ++ "' expected to be a string or an array of strings"))

/-- `setDeviceTypes` throws nothing but runtime errors, which get the event's name here. -/
def readDeviceTypes (js : Json) (eventName : String) : Except Exn (List String) :=
  match setDeviceTypes js with
  | .error (.runtimeError what) =>
    .error (.runtimeError ("Error reading \"device_type\" property in event entry '" ++ eventName ++ "': " ++ what))
  | result => result

def loadFrom (j : Json) : Except Exn EventNode := do
  let event ← stringAt j "event"
  let errorId ← optionalAt Json.getString "" j "error_id"
  let deviceType ← jsonAt j "device_type"
  let deviceTypes ← readDeviceTypes deviceType event
  let count ← jsonAt j "trigger_count"
  let triggerCount ← getInt count
  let eventCategories ← getOptionalAttribute getStrings j "category"
  let subType ← stringOr j "sub_type"
  let telemetries ← jsonAt j "telemetries"
  let action ← stringAt j "action"
  let counterReset ← jsonAt j "event_counter_reset"
  let redfish ← jsonAt j "redfish"
  let messageId ← stringAt redfish "message_id"
  let severity ← stringAt j "severity"
  let resolution ← stringAt j "resolution"
  let messageArgsJsonPattern ← optionalAt pure .null redfish "message_args"
  let accessor ← jsonAt j "accessor"
  let eventTrigger ← jsonAt j "event_trigger"
  let recovery ← optionalAt pure .null j "recovery"
  let valueAsCount ← optionalAt getBool false j "value_as_count"
  let originOfCondition ← getOptionalAttribute Json.getString redfish "origin_of_condition"
  pure {
    configEventNode := j
    event, errorId, deviceTypes, triggerCount, eventCategories, subType, action
    telemetries := (elements telemetries).map fun entry => { acc := entry }
    counterReset := ({} : DataAccessor).assign counterReset
    messageId, severity, resolution, messageArgsJsonPattern
    accessor := ({} : DataAccessor).assign accessor
    trigger := ({} : DataAccessor).assign (if eventTrigger.isEmpty then accessor else eventTrigger)
    recoveryAccessor := ({} : DataAccessor).assign recovery
    valueAsCount, originOfCondition }

/-! ### Names -/

def getStringifiedDeviceType (e : EventNode) : String := "/".intercalate e.deviceTypes

/-- The positions `1` to `dim` of the index, moved down by one. -/
def adjustIndex (dim : Nat) (index : PatternIndex) : PatternIndex :=
  (List.range dim).foldl (fun adjusted i => adjusted.set i (index.get (i + 1))) (.ofList [])

/-- The full name of the device with the index, empty if the index does not fit the device type. -/
def getFullDeviceName (e : EventNode) (index : PatternIndex) : Except Exn String :=
  if e.deviceTypes.length > 0 then do
    let devTypePattern ← DeviceIdPattern.ofString e.getStringifiedDeviceType
    if devTypePattern.dim = index.dim ∨ (devTypePattern.dim = 0 ∧ index.dim = 1 ∧ index.get 0 = 0) then
      devTypePattern.eval index
    else if devTypePattern.dim > 0 ∧ devTypePattern.dim < index.dim then
      devTypePattern.eval (adjustIndex devTypePattern.dim index)
    else pure ""
  else pure ""

def separateFullDeviceName (fullName : String) : List String :=
  if fullName = "" then [] else (split ['/'] fullName.toList).map String.ofList

def getStringCategories (e : EventNode) : List String := e.eventCategories.getD []

def hasFixedOriginOfCondition (e : EventNode) : Bool := e.originOfCondition.isSome

def setOriginOfCondition (e : EventNode) (ooc : String) : EventNode := { e with originOfCondition := some ooc }

def isEventNodeEvaluated (e : EventNode) : Bool := e.deviceIndexTuple.isSome

def getOriginOfCondition (e : EventNode) : Except Exn (Option String) :=
  match e.deviceIndexTuple, e.originOfCondition with
  | some index, some ooc => do
    let pattern ← DeviceIdPattern.ofString ooc
    let value ← pattern.eval index
    pure (some value)
  | some _, none => pure none
  | none, _ => .error (.runtimeError "Trying to get OOC on an unevaluated event node. Quit...")

/-- A loaded event is on no device yet. -/
theorem loadFrom_device {j : Json} {e : EventNode} (h : loadFrom j = .ok e) : e.device = "" := by
  unfold loadFrom at h
  iterate 21 obtain ⟨_, _, h⟩ := bind_ok h
  rw [pure_ok_iff] at h
  rw [← h]

end EventNode

end MonitorEventing.EventInfo
