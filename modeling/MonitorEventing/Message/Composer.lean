import MonitorEventing.Detection.ProcessEventList
import MonitorEventing.EventInfo.LoadMessageArgs
import MonitorEventing.Schema.JsonPattern
import MonitorEventing.Selftest.Perform

/-!
# Composing log entries

The composer turns an event into a call of the logging service. What it says about the event is read while
it is composed, of the object the event was found on where the description allows it.
-/

namespace MonitorEventing

namespace Accessor.DataAccessor
open DeviceId DeviceUtil EventInfo

def matchRegexString (regstr str : String) : Except Exn Bool :=
  if regstr = str then pure true
  else do
    let pattern ← DeviceIdPattern.ofString regstr
    pattern.matchesString str

/-- The text that is read, and the accessor that holds what was read. -/
def readUsingMainAccessor (env : Env) (a otherAcc : DataAccessor) : Except Exn (String × DataAccessor) := do
  let same ← if otherAcc.hasData then a.eq otherAcc else pure false
  if same then pure (otherAcc.dataValue.strValue, { a with dataValue := otherAcc.dataValue })
  else if a.isTypeDbus ∧ otherAcc.isTypeDbus then do
    let objPath ← a.getDbusObjectPath
    let otherObjPath ← otherAcc.getDbusObjectPath
    let ranged ← existsRangeIn objPath
    let plain ← if ranged then (!·) <$> existsRangeIn otherObjPath else pure false
    let matched ← if plain then matchRegexString objPath otherObjPath else pure false
    if matched then do
      let _ ← a.acc.memberOf "object"
      let tmpAcc : DataAccessor := { acc := a.acc.withMember "object" (.string otherObjPath) }
      let (ret, tmpAcc) ← tmpAcc.read env "" none
      pure (ret, { a with dataValue := tmpAcc.dataValue })
    else pure ("", a)
  else pure ("", a)

/-- With `__FILE__` less its directory. -/
def unrecognisedType : Exn :=
  .runtimeError ("Unrecognised data accessor type. If a new accessor type was added a change in 'data_accessor.cpp" ++
    ":getStringMessageArg' is needed")

/-- `read` for an event: the text. -/
def readForEvent (env : Env) (a : DataAccessor) (event : EventNode) : Except Exn String :=
  if a.isTypeDeviceCoreApi ∨ a.isTypeCmdline ∨ a.isTypeDbus then do
    let (result, a) ← a.readUsingMainAccessor env event.accessor
    let (result, a) ← if result = "" then a.readUsingMainAccessor env event.trigger else pure (result, a)
    if result ≠ "" then pure result
    else do
      let (text, _) ← a.read env event.device (some (event.deviceIndexTuple.getD (.ofList [])))
      pure text
  else if a.isTypeDevice ∨ a.isTypeTest ∨ a.isTypeConst ∨ a.isTypeDeviceName then do
    let (text, _) ← a.read env event.device none
    pure text
  else .error unrecognisedType

end Accessor.DataAccessor

namespace EventInfo
open Accessor Schema

/-! ### Message arguments -/

def MessageArg.getStringMessageArg (env : Env) (arg : MessageArg) (event : EventNode) : Except Exn String := do
  let values ← arg.parameters.mapM fun accessor => accessor.readForEvent env event
  pure (arg.pattern.substPlaceholders values)

def getStringMessageArgsDynamic (env : Env) (messageArgs : List MessageArg) (event : EventNode) : Except Exn String := do
  let args ← messageArgs.mapM fun arg => arg.getStringMessageArg env event
  pure (", ".intercalate args)

def getStringMessageArgsStatic (event : EventNode) : String := event.device ++ ", " ++ event.event

namespace EventNode

/-- The loaded arguments of the event on its device. -/
def messageArgs (what : Exn → String) (event : EventNode) (index : DeviceId.PatternIndex) : Except Exn (List MessageArg) :=
  match event.messageArgsJsonPattern with
  | .null => pure []
  | js => do
    let messageArgsJsonEvaluation ← JsonPattern.eval what index ⟨js⟩
    loadMessageArgs messageArgsJsonEvaluation

/-- Whatever is thrown, there is a text. -/
def getStringMessageArgs (env : Env) (what : Exn → String) (event : EventNode) : String :=
  match event.deviceIndexTuple with
  | none => ""
  | some index =>
    let text := do
      let messageArgs ← event.messageArgs what index
      if messageArgs.length > 0 then getStringMessageArgsDynamic env messageArgs event
      else pure (getStringMessageArgsStatic event)
    match text with
    | .ok text => text
    | .error _ => ""

/-- `getFullDeviceName` of an event that knows its device. -/
def fullDeviceName (event : EventNode) : Except Exn String :=
  event.getFullDeviceName (event.deviceIndexTuple.getD (.ofList [0]))

end EventNode

end EventInfo

namespace Message
open Accessor EventInfo

/-! ### The parts of an entry -/

def severityMapper : List (String × String) :=
  [("OK", "Informational"), ("Ok", "Informational"), ("ok", "Informational"), ("Warning", "Warning"),
    ("warning", "Warning"), ("Critical", "Critical"), ("critical", "Critical")]

def makeSeverity (severityJson : String) : String :=
  "xyz.openbmc_project.Logging.Entry.Level." ++ (severityMapper.lookup severityJson).getD severityJson

def getPhosphorLoggingNamespace (event : EventNode) : String :=
  if event.subType ≠ "" then event.device ++ ("_" ++ event.subType) else event.device

/-- What composing needs from outside. -/
structure System where
  env : Env
  getPrimaryDevIdPaths : String → Except Exn (List String)
  what : Exn → String

def getOriginOfConditionObjectPath (sys : System) (deviceId : String) : Except Exn String := do
  let paths ← sys.getPrimaryDevIdPaths deviceId
  pure (paths.headD deviceId)

def getOriginOfCondition (sys : System) (event : EventNode) : Except Exn String := do
  let fixed ← event.getOriginOfCondition
  match fixed with
  | some val =>
    if "/redfish/v1".toList.isPrefixOf val.toList then pure val
    else if val ≠ "" then getOriginOfConditionObjectPath sys val
    else pure event.device
  | none => pure event.device

/-- `operator[]` of an object that keeps the order of its keys. -/
def putOrdered : List (String × Json) → String → Json → List (String × Json)
  | [], key, value => [(key, value)]
  | (other, old) :: rest, key, value =>
    if other = key then (key, value) :: rest else (other, old) :: putOrdered rest key value

def diagText (accessor : DataAccessor) : Json :=
  .string (if accessor.isEmpty then "empty" else accessor.dataValue.strValue)

def collectFrom (env : Env) (event : EventNode) : List DataAccessor → List (String × Json) → Except Exn (List (String × Json))
  | [], output => pure output
  | telemetry :: rest, output => do
    let telemetryName ← telemetry.ownText "name"
    let telemetryValue ← telemetry.readForEvent env event
    collectFrom env event rest (putOrdered output telemetryName (.string telemetryValue))

def collectDiagData (env : Env) (event : EventNode) : Except Exn String := do
  let output ← collectFrom env event event.telemetries
    [("trigger", diagText event.trigger), ("accessor", diagText event.accessor)]
  pure (dump (.object output))

/-! ### The call -/

/-- The arguments of `Create`. -/
structure CreateCall where
  message : String
  severity : String
  additionalData : List (String × String)

/-- `createLog`, up to the call; `none` without an origin of condition. -/
def composeLog (sys : System) (event : EventNode) : Except Exn (Option CreateCall) := do
  let messageArgs := event.getStringMessageArgs sys.env sys.what
  let telemetries ← collectDiagData sys.env event
  let originOfCondition ← getOriginOfCondition sys event
  if originOfCondition = "" then pure none
  else do
    let fullDeviceName ← event.fullDeviceName
    pure (some {
      message := event.event
      severity := makeSeverity event.severity
      additionalData := [
        ("xyz.openbmc_project.Logging.Entry.EventId", event.errorId),
        ("xyz.openbmc_project.Logging.Entry.Resolution", event.resolution),
        ("REDFISH_MESSAGE_ID", event.messageId),
        ("DEVICE_EVENT_DATA", telemetries),
        ("namespace", getPhosphorLoggingNamespace event),
        ("REDFISH_MESSAGE_ARGS", messageArgs),
        ("REDFISH_ORIGIN_OF_CONDITION", originOfCondition),
        ("DEVICE_NAME", event.device),
        ("FULL_DEVICE_NAME", fullDeviceName),
        ("EVENT_NAME", event.event),
        ("RECOVERY_TYPE", if event.recoveryAccessor.isEmpty then "other" else "property_change")] })

/-- `createLog` and `process`: whether the entry was created. -/
def process (sys : System) (create : CreateCall → Bool) (event : EventNode) : Except Exn Selftest.RcCode := do
  let call ← composeLog sys event
  pure (if (call.map create).getD false then .succ else .error)

end Message

end MonitorEventing
