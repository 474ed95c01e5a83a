import MonitorEventing.EventInfo.EventNode
import MonitorEventing.Selftest.Perform

/-!
# The device status handler

For each device an event rolls up to, the handler writes a status file and remembers the health it wrote.
A device whose health is already worse than the event keeps its file.
-/

namespace MonitorEventing.DeviceStatus
open Dat EventInfo DeviceId Selftest

structure Device where
  name : String
  health : Severity := .ok
  healthRollup : Severity := .ok
  deriving DecidableEq

/-- The cache, and the files it is about. -/
structure DeviceStatusHandler where
  device : List Device := []
  files : StringMap Json := ∅

structure Profile where
  deviceAssociation : Json
  monevtDeviceStatusFSPath : String

/-- What the handler gets from the system while it is at the device of the given position in the list. -/
structure Env where
  /-- The message arguments that the pattern of an event gives. -/
  dynamicMessageArgs : EventNode → String
  getTimestamp : Nat → String
  createDirectories : Nat → Except Exn Unit
  writeJson2File : Nat → Int

namespace DeviceStatusHandler

variable (s : DeviceStatusHandler) (name : String)

def device? : Option Device := s.device.find? fun dev => dev.name == name

/-- The cache after `getDevice`, which adds a device it does not find. -/
def getDevice : DeviceStatusHandler :=
  match s.device? name with
  | some _ => s
  | none => { s with device := s.device ++ [{ name }] }

def health? : Option Severity := (s.device? name).map Device.health

def setFirst (severity : Severity) : List Device → List Device
  | [] => []
  | dev :: rest =>
    if dev.name = name then { dev with health := severity, healthRollup := severity } :: rest
    else dev :: setFirst severity rest

/-- The cached device gets the severity of what was written to the file. -/
def update (severity : Severity) (filePath : String) (j : Json) : DeviceStatusHandler :=
  { device := setFirst name severity s.device, files := s.files.insert filePath j }

end DeviceStatusHandler

/-! ### The status of a device -/

def lookupRollupDeviceId (deviceAssociation : Json) (deviceId : String) : Json :=
  match deviceAssociation.get? deviceId with
  | some j => j
  | none =>
    match deviceAssociation.get? "[Other]" with
    | some jOther => jOther
    | none => .array []

def getStringMessageArgsStatic (event : EventNode) : String := event.device ++ ", " ++ event.event

/-- Without a pattern there are no arguments but the fixed ones. -/
def getStringMessageArgs (env : Env) (event : EventNode) : String :=
  if event.isEventNodeEvaluated then
    match event.messageArgsJsonPattern with
    | .null => getStringMessageArgsStatic event
    | _ => env.dynamicMessageArgs event
  else ""

def isSpace (c : Char) : Bool := c = ' ' || (9 ≤ c.toNat && c.toNat ≤ 13)

def trim (token : List Char) : List Char := (token.dropWhile isSpace).rdropWhile isSpace

def conditionOf (env : Env) (position : Nat) (event : EventNode) : Except Exn Json := do
  let tokens := (split [','] (getStringMessageArgs env event).toList).map trim
  match ← event.getOriginOfCondition with
  | none => .error .undefined
  | some originOfCondition => pure (.object [
      ("Device", .string event.device),
      ("ErrorId", .string event.errorId),
      ("MessageArgs", .array (tokens.map fun token => .string (String.ofList token))),
      ("MessageId", .string event.messageId),
      ("OriginOfCondition", .string originOfCondition),
      ("Resolution", .string event.resolution),
      ("Severity", .string event.severity),
      ("Timestamp", .string (env.getTimestamp position))])

def statusOf (severity : String) (jCond : Json) : Json :=
  .object [("Status", .object [("Conditions", .array [jCond]), ("Health", .string severity), ("HealthRollup", .string severity)])]

/-! ### Events -/

def filePathOf (p : Profile) (name : String) : String := p.monevtDeviceStatusFSPath ++ "/" ++ name

/-- The loop over the names, each with its position. A failure leaves what was done before it. -/
def processNames (p : Profile) (env : Env) (event : EventNode) :
    List (Json × Nat) → DeviceStatusHandler → Except Exn RcCode × DeviceStatusHandler
  | [], s => (.ok .succ, s)
  | (name, position) :: rest, s =>
    match name.getString with
    | .error e => (.error e, s)
    | .ok name =>
      let s := s.getDevice name
      if name = "" then processNames p env event rest s
      else
        match Severity.ofString event.severity with
        | .error e => (.error e, s)
        | .ok severity =>
          if ((s.health? name).getD .ok).value > severity.value then (.ok .succ, s)
          else
            match conditionOf env position event with
            | .error e => (.error e, s)
            | .ok jCond =>
              match env.createDirectories position with
              | .error e => (.error e, s)
              | .ok _ =>
                if env.writeJson2File position ≠ 0 then (.ok .error, s)
                else processNames p env event rest
                  (s.update name severity (filePathOf p name) (statusOf event.severity jCond))

def isManaged (event : EventNode) : Bool :=
  match event.configEventNode.get? "managed" with
  | none => false
  | some managed => managed.isString "yes"

def namesOf (p : Profile) (event : EventNode) : List Json :=
  elements (lookupRollupDeviceId p.deviceAssociation event.device)

def process (p : Profile) (env : Env) (event : EventNode) (s : DeviceStatusHandler) :
    Except Exn RcCode × DeviceStatusHandler :=
  if isManaged event then processNames p env event (namesOf p event).zipIdx s
  else (.ok .succ, s)

/-! ### The cache -/

namespace DeviceStatusHandler

variable {s : DeviceStatusHandler} {name other : String}

theorem find?_setFirst (severity : Severity) (devices : List Device) :
    ((setFirst name severity devices).find? fun dev => dev.name == other).map Device.health =
      if other = name then (devices.find? fun dev => dev.name == name).map fun _ => severity
      else (devices.find? fun dev => dev.name == other).map Device.health := by
  induction devices with
  | nil => simp [setFirst]
  | cons dev rest ih =>
    by_cases first : dev.name = name
    · by_cases same : other = name
      · simp [setFirst, first, same]
      · have different : ¬ name = other := fun h => same h.symm
        simp [setFirst, first, same, different]
    · by_cases found : dev.name = other
      · have different : ¬ other = name := fun h => first (found.trans h)
        simp [setFirst, found, different]
      · simp [setFirst, first, found, ih]

theorem health?_getDevice :
    (s.getDevice name).health? other = if other = name then some ((s.health? name).getD .ok) else s.health? other := by
  cases cached : s.device? name with
  | some dev =>
    have present : s.health? name = some dev.health := by rw [health?, cached, Option.map_some]
    by_cases same : other = name
    · simp [getDevice, cached, same, present]
    · simp [getDevice, cached, same]
  | none =>
    have absent : s.health? name = none := by rw [health?, cached, Option.map_none]
    have grown : s.getDevice name = { s with device := s.device ++ [{ name }] } := by rw [getDevice, cached]
    rw [grown, absent]
    unfold device? at cached
    by_cases same : other = name
    · simp [health?, device?, same, cached]
    · have different : ¬ name = other := fun h => same h.symm
      simp [health?, device?, same, different]

theorem files_getDevice : (s.getDevice name).files = s.files := by
  unfold getDevice
  split <;> rfl

theorem health?_update {severity : Severity} {filePath : String} {j : Json} :
    ((s.getDevice name).update name severity filePath j).health? other =
      if other = name then some severity else s.health? other := by
  show ((setFirst name severity (s.getDevice name).device).find? fun dev => dev.name == other).map Device.health = _
  rw [find?_setFirst]
  by_cases same : other = name
  · have present : ((s.getDevice name).health? name).isSome = true := by simp [health?_getDevice]
    rw [if_pos same, if_pos same]
    cases found : (s.getDevice name).device.find? fun dev => dev.name == name with
    | some dev => rfl
    | none => simp [health?, device?, found] at present
  · rw [if_neg same, if_neg same]
    exact health?_getDevice.trans (if_neg same)

end DeviceStatusHandler

theorem filePathOf_inj {p : Profile} {name other : String} : filePathOf p name = filePathOf p other ↔ name = other :=
  String.append_right_inj _

end MonitorEventing.DeviceStatus
