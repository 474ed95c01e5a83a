import MonitorEventing.Accessor.DataAccessor

/-!
# Checks

`CheckAccessor`: whether a value read meets the check of an accessor, and the devices asserted by it.
The members the calls change are passed along explicitly.
-/

namespace MonitorEventing.Accessor
open DeviceId DeviceUtil

structure AssertedDevice where
  trigger : DataAccessor
  accessor : DataAccessor
  device : String
  deviceIndexTuple : PatternIndex

inductive CheckStatus where
  | notPerformed | passed | notPassed
  deriving DecidableEq, Repr

/-- `pattern` and `index` are the two halves of `_devIdData`. -/
structure CheckAccessor where
  lastStatus : CheckStatus := .notPerformed
  assertedDevices : List AssertedDevice := []
  trigger : DataAccessor := {}
  triggerAssertedDevice : String := ""
  pattern : DeviceIdPattern
  index : PatternIndex := .ofList []

namespace CheckAccessor

def ofDeviceType (deviceType : String) : Except Exn CheckAccessor := do
  let pattern ← DeviceIdPattern.ofString deviceType
  pure { pattern }

def passed (c : CheckAccessor) : Bool := c.lastStatus = .passed

/-- Adds the device; the flag the source returns has no reader. -/
def buildSingleAssertedDeviceName (c : CheckAccessor) (dataAcc : DataAccessor) (realDevice : String)
    (patternIndex : PatternIndex) : Except Exn CheckAccessor := do
  let deviceName ←
    if realDevice = "" ∧ existsRange c.pattern = false then determineDeviceName c.pattern patternIndex
    else pure realDevice
  if deviceName ≠ "" then
    pure { c with assertedDevices := c.assertedDevices ++ [⟨c.trigger, dataAcc, deviceName, patternIndex⟩] }
  else pure c

def buildSingleWithId (c : CheckAccessor) (dataAcc : DataAccessor) (realDevice : String) (deviceId : Int) :
    Except Exn CheckAccessor :=
  if deviceId = invalidDeviceId then c.buildSingleAssertedDeviceName dataAcc realDevice c.index
  else c.buildSingleAssertedDeviceName dataAcc realDevice (.ofList [deviceId])

def getCurrentDevice (c : CheckAccessor) : Except Exn String := do
  let currentDevice ← if c.pattern.dim > 0 then determineDeviceName c.pattern c.index else pure ""
  pure (if currentDevice = "" ∧ c.triggerAssertedDevice ≠ "" then c.triggerAssertedDevice else currentDevice)

/-- The loop of `subCheck` over the devices of a bitmap, one bit each. Shifting by the width of the
integer or more is undefined. -/
def bitmapFrom (dataAcc : DataAccessor) (checkMap : List (String × String)) (bitmap : UInt64) :
    List PatternIndex → Nat → Bool → CheckAccessor → Except Exn (Bool × CheckAccessor)
  | [], _, ret, c => pure (ret, c)
  | index :: rest, shift, ret, c =>
    if 64 ≤ shift then .error .undefined
    else if dataAcc.dataValue.check checkMap (.integer (bitmap <<< UInt64.ofNat shift).toNat) then do
      let deviceName ← c.pattern.eval index
      let c ← c.buildSingleAssertedDeviceName dataAcc deviceName index
      bitmapFrom dataAcc checkMap bitmap rest (shift + 1) true c
    else bitmapFrom dataAcc checkMap bitmap rest (shift + 1) ret c

def markPassed (c : CheckAccessor) (ret : Bool) : CheckAccessor :=
  if ret then { c with lastStatus := .passed } else c

def subCheck (c : CheckAccessor) (jsonAcc dataAcc : DataAccessor) (dev2Read : String) (deviceId : Int) :
    Except Exn (Bool × CheckAccessor) :=
  if dataAcc.hasData = false then pure (false, c)
  else do
    let check ← jsonAcc.acc.index "check"
    let checkMap ← check.getStringMap
    let (ret, c) ←
      if jsonAcc.existsCheckBitmap then do
        let bitmap ← check.index "bitmap"
        let jsonBitmapValue ← bitmap.getString
        let bitmapValue := PropertyValue.ofString jsonBitmapValue
        if bitmapValue.isValidInteger then
          bitmapFrom dataAcc checkMap bitmapValue.value64 c.pattern.domain 0 false c
        else pure (false, c)
      else if dataAcc.dataValue.check checkMap .invalid then do
        let c ← c.buildSingleWithId dataAcc dev2Read deviceId
        pure (true, c)
      else pure (false, c)
    pure (ret, c.markPassed ret)

/-- `loopDevices`, with the accessor that holds the value of the device before. -/
def loopDevices (env : Env) (jsonAcc : DataAccessor) :
    List PatternIndex → Bool → DataAccessor → CheckAccessor → Except Exn (Bool × CheckAccessor)
  | [], ret, _, c => pure (ret, c)
  | index :: rest, ret, dataAcc, c => do
    let deviceName ← c.pattern.eval index
    let (_, dataAcc) ← dataAcc.read env deviceName (some index)
    let (passed, c) ← c.subCheck jsonAcc dataAcc deviceName (index.get 0)
    loopDevices env jsonAcc rest (ret || passed) dataAcc c

/-- The indexes `privCheck` loops over, none where a single read is enough. -/
def devRange (c : CheckAccessor) (jsonAcc : DataAccessor) (deviceToRead : String) : Except Exn (List PatternIndex) :=
  if deviceToRead = "" then do
    let ranged ←
      if jsonAcc.isTypeCmdline then do
        let arguments ← jsonAcc.getArguments
        existsRangeIn arguments
      else pure false
    if ranged then pure c.pattern.domain
    else if jsonAcc.isTypeDeviceCoreApi && jsonAcc.isDeviceIdRange then pure c.pattern.domain
    else pure []
  else pure []

/-- How `privCheck` begins. -/
def start (c : CheckAccessor) (dataAcc : DataAccessor) : CheckAccessor :=
  { c with lastStatus := .notPassed, trigger := if c.trigger.isEmpty then dataAcc else c.trigger }

/-- What the single check of `privCheck` looks at: a bus accessor that has data is not read again. -/
def dataToCheck (env : Env) (c : CheckAccessor) (dataAcc : DataAccessor) (deviceToRead : String) :
    Except Exn DataAccessor :=
  if !dataAcc.isTypeDbus || !dataAcc.hasData then do
    let (_, dataAcc) ← dataAcc.read env deviceToRead (some c.index)
    pure dataAcc
  else pure dataAcc

/-- The branch of `privCheck` with criteria. -/
def checkDevices (env : Env) (c : CheckAccessor) (jsonAcc dataAcc : DataAccessor) (deviceToRead : String) :
    Except Exn (Bool × DataAccessor × CheckAccessor) := do
  let devRange ← c.devRange jsonAcc deviceToRead
  if devRange ≠ [] then do
    let (ret, c) ← loopDevices env jsonAcc devRange false jsonAcc c
    pure (ret, dataAcc, c)
  else do
    let dataAcc ← c.dataToCheck env dataAcc deviceToRead
    let (ret, c) ← c.subCheck jsonAcc dataAcc deviceToRead invalidDeviceId
    pure (ret, dataAcc, c)

/-- `privCheck`, returning the accessor it has read into as well. -/
def privCheck (env : Env) (c : CheckAccessor) (jsonAcc dataAcc : DataAccessor) :
    Except Exn (Bool × DataAccessor × CheckAccessor) := do
  let deviceToRead ← (c.start dataAcc).getCurrentDevice
  if jsonAcc.existsCheckKey then do
    let (ret, dataAcc, c) ← (c.start dataAcc).checkDevices env jsonAcc dataAcc deviceToRead
    pure (ret, dataAcc, c.markPassed ret)
  else do
    let c ← (c.start dataAcc).buildSingleAssertedDeviceName dataAcc deviceToRead c.index
    pure (true, dataAcc, c.markPassed true)

/-- The index `check` finds by matching the data accessor against the template, if it looks for one:
by object path between bus accessors, by arguments between command lines. -/
def matchedIndex (pattern : DeviceIdPattern) (jsonAcc dataAcc : DataAccessor) : Except Exn (Option PatternIndex) :=
  if jsonAcc.isTypeDbus then
    if existsRange pattern then do
      let templateAccessorObj ← jsonAcc.getDbusObjectPath
      let triggerAccessorObj ← dataAcc.getDbusObjectPath
      if templateAccessorObj ≠ "" ∧ triggerAccessorObj ≠ "" then do
        let jsonObjPattern ← DeviceIdPattern.ofString templateAccessorObj
        let index ← determineDeviceIndex jsonObjPattern triggerAccessorObj
        pure (some index)
      else pure none
    else pure none
  else if jsonAcc.isTypeCmdline then do
    let jsonArguments ← jsonAcc.getArguments
    let jsonArgPattern ← DeviceIdPattern.ofString jsonArguments
    let dataArguments ← dataAcc.getArguments
    let dataArgPattern ← DeviceIdPattern.ofString dataArguments
    if existsRange jsonArgPattern && !existsRange dataArgPattern then do
      let index ← determineDeviceIndex jsonArgPattern dataArguments
      pure (some index)
    else pure none
  else pure none

/-- `check(jsonAcc, dataAcc)`. A command line with data of its own, and a device core accessor with
data and a device, are checked at once; everything else goes through `privCheck`. -/
def check (env : Env) (c : CheckAccessor) (jsonAcc dataAcc : DataAccessor) : Except Exn (Bool × CheckAccessor) := do
  let matched ← matchedIndex c.pattern jsonAcc dataAcc
  let c := { c with lastStatus := .notPassed, index := matched.getD c.index }
  if jsonAcc.isTypeCmdline && matched.isSome && dataAcc.hasData then do
    let device ← determineDeviceName c.pattern c.index
    c.subCheck jsonAcc dataAcc device (c.index.get 0)
  else if jsonAcc.isTypeDeviceCoreApi && dataAcc.hasData && dataAcc.savedDevice != "" then
    c.subCheck jsonAcc dataAcc dataAcc.savedDevice (getDeviceId dataAcc.savedDevice)
  else do
    let (ret, _, c) ← c.privCheck env jsonAcc dataAcc
    pure (ret, c)

def hasAssertedDevices (c : CheckAccessor) : Bool := !c.assertedDevices.isEmpty

/-- `check(jsonAcc, triggerCheck)`: the accessor is read for the device of the trigger, and keeps the
trigger's devices where it has none of its own. -/
def checkAfter (env : Env) (c : CheckAccessor) (jsonAcc : DataAccessor) (triggerCheck : CheckAccessor) :
    Except Exn CheckAccessor := do
  let c := { c with trigger := triggerCheck.trigger }
  let c :=
    match triggerCheck.assertedDevices with
    | [] => c
    | first :: _ =>
      { c with triggerAssertedDevice := first.device, pattern := triggerCheck.pattern, index := triggerCheck.index }
  let (_, accessorData, c) ← c.privCheck env jsonAcc jsonAcc
  if c.passed && !c.hasAssertedDevices then
    let devices :=
      if accessorData.hasData then triggerCheck.assertedDevices.map fun d => { d with accessor := accessorData }
      else triggerCheck.assertedDevices
    pure { c with assertedDevices := devices }
  else pure c

/-- `check(jsonTrig, jsonAcc, dataAcc)`. Where the accessors are equal the source gives the copy of
`jsonAcc` the value it has already. -/
def checkBoth (env : Env) (c : CheckAccessor) (jsonTrig jsonAcc dataAcc : DataAccessor) : Except Exn CheckAccessor := do
  let eventType := c.pattern.pattern
  let triggerCheck ← ofDeviceType eventType
  let (_, triggerCheck) ← triggerCheck.check env jsonTrig dataAcc
  if triggerCheck.passed then do
    let accessorCheck ← ofDeviceType eventType
    let same ← jsonAcc.eq dataAcc
    let accessorJsonAcc := if same then jsonAcc.setDataValue jsonAcc.dataValue else jsonAcc
    accessorCheck.checkAfter env accessorJsonAcc triggerCheck
  else pure triggerCheck

end CheckAccessor

end MonitorEventing.Accessor
