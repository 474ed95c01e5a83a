import MonitorEventing.Accessor.PropertyValue

/-!
# The device health service

The service as a machine. Its handlers run one at a time, but a restart can come between any two of
their accesses to the shared memory and the bus. The error sets are in shared memory and outlive a
restart, as does the health last set on the bus; the deferred devices do not.
-/

namespace MonitorEventing.Health
open Accessor

structure Options where
  /-- Deassertion is enabled, by new log entries that are resolved. -/
  deassertLog : Bool := false
  maxErrorIdLength : Nat := 100
  maxAssertedErrorIdsPerDevSev : Nat := 50
  /-- With a limit of 0 no error could ever be asserted. -/
  positive : 0 < maxAssertedErrorIdsPerDevSev := by decide

/-! ### The error sets -/

inductive ErrorLevel where
  | critical | warning
  deriving DecidableEq, Repr

structure AssertedErrorsForDevice where
  criticalErrors : Std.TreeSet String := ∅
  warningErrors : Std.TreeSet String := ∅

namespace AssertedErrorsForDevice

def errors (aefd : AssertedErrorsForDevice) : ErrorLevel → Std.TreeSet String
  | .critical => aefd.criticalErrors
  | .warning => aefd.warningErrors

def insert (aefd : AssertedErrorsForDevice) (errorId : String) : ErrorLevel → AssertedErrorsForDevice
  | .critical => { aefd with criticalErrors := aefd.criticalErrors.insert errorId }
  | .warning => { aefd with warningErrors := aefd.warningErrors.insert errorId }

def erase (aefd : AssertedErrorsForDevice) (errorId : String) : AssertedErrorsForDevice :=
  ⟨aefd.criticalErrors.erase errorId, aefd.warningErrors.erase errorId⟩

end AssertedErrorsForDevice

abbrev AssertedEventsMap : Type := StringMap AssertedErrorsForDevice

def activeErrorCount (level : ErrorLevel) (map : AssertedEventsMap) (device : String) : Nat :=
  match map[device]? with
  | some aefd => (aefd.errors level).size
  | none => 0

def getActiveCriticalErrorCountForDevice : AssertedEventsMap → String → Nat := activeErrorCount .critical
def getActiveWarningErrorCountForDevice : AssertedEventsMap → String → Nat := activeErrorCount .warning

def computeHealthForDevice (map : AssertedEventsMap) (deviceName : String) : String :=
  if getActiveCriticalErrorCountForDevice map deviceName > 0 then "Critical"
  else if getActiveWarningErrorCountForDevice map deviceName > 0 then "Warning"
  else "OK"

def ensureMappingPresent (map : AssertedEventsMap) (device : String) : AssertedEventsMap :=
  if device ∈ map then map else map.insert device {}

/-- `addCriticalErrorToDevice` and `addWarningErrorToDevice` after `ensureMappingPresent`; `none` at the
limit. -/
def addErrorToDevice (o : Options) (level : ErrorLevel) (map : AssertedEventsMap) (errorId device : String) :
    Option AssertedEventsMap :=
  let aefd := map.getD device {}
  if (aefd.errors level).size ≥ o.maxAssertedErrorIdsPerDevSev then none
  else some (map.insert device (aefd.insert errorId level))

def removeErrorFromDevice (map : AssertedEventsMap) (errorId device : String) : AssertedEventsMap :=
  match map[device]? with
  | some aefd => map.insert device (aefd.erase errorId)
  | none => map

/-! ### Messages -/

abbrev PropertiesChangedMap : Type := StringMap PropertyVariant

structure LogEntry where
  severity : String
  eventId : String
  resolved : Bool
  deviceName : String

def textOf (props : PropertiesChangedMap) (name : String) : Option String :=
  match props[name]? with
  | some (.string text) => if text.length = 0 then none else some text
  | _ => none

/-- The loop over the additional data: the first value, not empty, of the device's name. -/
def deviceNameFrom : List String → String
  | [] => ""
  | additionalDataItem :: rest =>
    let additionalDataKey := additionalDataItem.toList.takeWhile (· != '=')
    let value := (additionalDataItem.toList.dropWhile (· != '=')).tail
    if value ≠ [] ∧ String.ofList additionalDataKey = "DEVICE_NAME" then String.ofList value
    else deviceNameFrom rest

/-- The log entry of a message, `none` where `interfacesAddedCallback` returns early. -/
def readLogEntry (o : Options) (interfacesAddedMap : StringMap PropertiesChangedMap) : Option LogEntry := do
  let props ← interfacesAddedMap["xyz.openbmc_project.Logging.Entry"]?
  let severity ← textOf props "Severity"
  let eventId ← textOf props "EventId"
  if eventId.utf8ByteSize > o.maxErrorIdLength then none
  else
    match props["Resolved"]?, props["AdditionalData"]? with
    | some (.boolean resolved), some (.strings additionalData) =>
      let deviceName := deviceNameFrom additionalData
      if deviceName.length = 0 then none else some { severity, eventId, resolved, deviceName }
    | _, _ => none

/-! ### The machine -/

/-- What is left to do of the handler that runs. -/
inductive Phase where
  | starting (remaining : List String)
  | idle
  | asserting (level : ErrorLevel) (errorId device : String)
  | updating (device : String)
  | retrying (remaining : List String)
  deriving DecidableEq

/-- `pushed` is what the bus was last set to with success. -/
structure Service where
  assertedEventsMap : AssertedEventsMap
  deferredDeviceSet : Std.TreeSet String
  timerEnabled : Bool
  pushed : StringMap String
  phase : Phase

/-- A message (`none` if it cannot be read), the timer, the running handler going on with the result
of `setDeviceHealth` if it calls it, and a restart, after which the timer may be enabled or not. -/
inductive Input where
  | interfacesAdded (message : Option (StringMap PropertiesChangedMap))
  | tick
  | proceed (succeeds : Bool)
  | restart (timerEnabled : Bool)

namespace Service

def addDeferredDevice (s : Service) (device : String) : Service :=
  { s with deferredDeviceSet := s.deferredDeviceSet.insert device, timerEnabled := true }

def push (s : Service) (device : String) : Service :=
  { s with pushed := s.pushed.insert device (computeHealthForDevice s.assertedEventsMap device) }

def updateDeviceHealth (s : Service) (deviceName : String) (succeeds : Bool) : Service :=
  if succeeds then s.push deviceName else s.addDeferredDevice deviceName

/-- The body of the loop of `retryDeferredDevices`. -/
def retryDevice (s : Service) (device : String) (succeeds : Bool) : Service :=
  if succeeds then { s.push device with deferredDeviceSet := s.deferredDeviceSet.erase device } else s

/-- The end of `retryDeferredDevices`. -/
def finishRetry (s : Service) : Service :=
  if s.deferredDeviceSet.isEmpty then { s with timerEnabled := false, phase := .idle } else { s with phase := .idle }

/-- `main`, to the loop over the known devices. -/
def start (s : Service) (timerEnabled : Bool) : Service :=
  { s with deferredDeviceSet := ∅, timerEnabled, phase := .starting s.assertedEventsMap.keys }

def assertError (s : Service) (level : ErrorLevel) (entry : LogEntry) : Service :=
  { s with
    assertedEventsMap := ensureMappingPresent s.assertedEventsMap entry.deviceName
    phase := .asserting level entry.eventId entry.deviceName }

/-- `interfacesAddedCallback`, to its first access to the shared memory that matters. -/
def interfacesAddedCallback (o : Options) (s : Service) (message : Option (StringMap PropertiesChangedMap)) : Service :=
  match message.bind (readLogEntry o) with
  | none => s
  | some entry =>
    if entry.resolved then
      if o.deassertLog then
        { s with
          assertedEventsMap := removeErrorFromDevice s.assertedEventsMap entry.eventId entry.deviceName
          phase := .updating entry.deviceName }
      else s
    else if entry.severity = "xyz.openbmc_project.Logging.Entry.Level.Critical" then s.assertError .critical entry
    else if entry.severity = "xyz.openbmc_project.Logging.Entry.Level.Warning" then s.assertError .warning entry
    else s

def proceed (o : Options) (s : Service) (succeeds : Bool) : Option Service :=
  match s.phase with
  | .idle => none
  | .starting [] => some { s with phase := .idle }
  | .starting (device :: remaining) => some { s.updateDeviceHealth device succeeds with phase := .starting remaining }
  | .asserting level errorId device =>
    match addErrorToDevice o level s.assertedEventsMap errorId device with
    | none => some { s with phase := .idle }
    | some map => some { s with assertedEventsMap := map, phase := .updating device }
  | .updating device => some { s.updateDeviceHealth device succeeds with phase := .idle }
  | .retrying [] => some s.finishRetry
  | .retrying (device :: remaining) => some { s.retryDevice device succeeds with phase := .retrying remaining }

/-- The timer has an interval: it is enabled again when it fires. -/
def step (o : Options) (s : Service) : Input → Option Service
  | .interfacesAdded message => if s.phase = .idle then some (s.interfacesAddedCallback o message) else none
  | .tick =>
    if s.phase = .idle ∧ s.timerEnabled then some { s with phase := .retrying s.deferredDeviceSet.toList } else none
  | .proceed succeeds => s.proceed o succeeds
  | .restart timerEnabled => some (s.start timerEnabled)

/-- The service was just started, with whatever the shared memory and the bus hold. -/
def Started (s : Service) : Prop := ∃ before timerEnabled, s = start before timerEnabled

end Service

end MonitorEventing.Health
