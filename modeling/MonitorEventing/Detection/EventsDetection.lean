import MonitorEventing.Accessor.CheckAccessor
import MonitorEventing.Detection.ResolveLogs

/-!
# Detecting events

`EventsDetection`: of the events a trigger may mean, first those it recovers, then those it asserts.
A recovery becomes a candidate, for which a root cause trace is made, unless there is one for the
device the event is on. That device is filled in later, in the copy of the event that is traced, so
here all events have the same.
-/

namespace MonitorEventing.Detection
open Accessor EventInfo

structure EventCandidate where
  event : EventNode
  assertedDevices : List AssertedDevice
  isRecovery : Bool

/-- What the loops change: the candidates, the keys seen, the calls of `resolveDeviceLogs` with their event and
full device name, and the log entries resolved. -/
structure Detected where
  eventCandidateList : List EventCandidate := []
  recoveredEventDevices : List String := []
  rootCauseTracerDevice : List String := []
  calls : List (String × String) := []
  resolved : List String := []

/-! ### Recoveries -/

/-- The devices of an event that recovers, `none` for an event that does not. -/
def checkRecovery (env : Env) (pcTrigger : DataAccessor) (event : EventNode) :
    Except Exn (Option (List AssertedDevice)) := do
  let checkForRecovery ←
    if event.recoveryAccessor.isEmpty then pure false else event.recoveryAccessor.eq pcTrigger
  if checkForRecovery then do
    let recoveryCheck ← CheckAccessor.ofDeviceType event.getStringifiedDeviceType
    let (passed, recoveryCheck) ← recoveryCheck.check env event.recoveryAccessor pcTrigger
    pure (if passed then some recoveryCheck.assertedDevices else none)
  else pure none

/-- One candidate for each device the events are on. -/
def addTracer (s : Detected) (event : EventNode) (asserted : List AssertedDevice) : Detected :=
  let mainDeviceKey := event.device
  if mainDeviceKey ∈ s.rootCauseTracerDevice then s
  else
    { s with
      rootCauseTracerDevice := mainDeviceKey :: s.rootCauseTracerDevice
      eventCandidateList := s.eventCandidateList ++ [⟨event, asserted, true⟩] }

/-- The log entries of a recovery. A failure is logged and passed over if it is a runtime error. -/
def resolve (getAll : Nat → String → Except Exn ManagedObjectType) (s : Detected) (event : EventNode)
    (fullDeviceName : String) : Except Exn Detected :=
  let s := { s with calls := s.calls ++ [(event.event, fullDeviceName)] }
  match resolveDeviceLogs (getAll s.calls.length) event.event fullDeviceName with
  | (.ok _, paths) => pure { s with resolved := s.resolved ++ paths }
  | (.error (.runtimeError _), paths) => pure { s with resolved := s.resolved ++ paths }
  | (.error e, _) => .error e

def devicesFrom (getAll : Nat → String → Except Exn ManagedObjectType) (event : EventNode)
    (asserted : List AssertedDevice) : List AssertedDevice → Detected → Except Exn Detected
  | [], s => pure s
  | entry :: rest, s => do
    let fullDeviceName ← event.getFullDeviceName entry.deviceIndexTuple
    let eventFullKey := fullDeviceName ++ event.event
    if fullDeviceName = "" ∨ eventFullKey ∈ s.recoveredEventDevices then devicesFrom getAll event asserted rest s
    else do
      let s := addTracer { s with recoveredEventDevices := eventFullKey :: s.recoveredEventDevices } event asserted
      let s ← resolve getAll s event fullDeviceName
      devicesFrom getAll event asserted rest s

/-- The first loop, with the number of checks made before. What is read may change from check to check. -/
def recoverFrom (env : Nat → Env) (getAll : Nat → String → Except Exn ManagedObjectType) (pcTrigger : DataAccessor) :
    List EventNode → Nat → Detected → List EventNode → Except Exn (Detected × List EventNode)
  | [], _, s, eventsOnlyPattern => pure (s, eventsOnlyPattern)
  | event :: rest, n, s, eventsOnlyPattern => do
    let recovery ← checkRecovery (env n) pcTrigger event
    match recovery with
    | some asserted => do
      let s ← devicesFrom getAll event asserted asserted s
      recoverFrom env getAll pcTrigger rest (n + 1) s eventsOnlyPattern
    | none => recoverFrom env getAll pcTrigger rest (n + 1) s (eventsOnlyPattern ++ [event])

/-! ### Events -/

def checkEvent (env : Env) (pcTrigger : DataAccessor) (event : EventNode) : Except Exn CheckAccessor := do
  let checkObj ← CheckAccessor.ofDeviceType event.getStringifiedDeviceType
  let same ← event.accessor.eq pcTrigger
  if same then do
    let (_, checkObj) ← checkObj.check env event.accessor pcTrigger
    pure checkObj
  else if event.accessor.isEmpty then do
    let (_, checkObj) ← checkObj.check env event.trigger pcTrigger
    pure checkObj
  else checkObj.checkBoth env event.trigger event.accessor pcTrigger

/-- The second loop. -/
def eventsFrom (env : Nat → Env) (pcTrigger : DataAccessor) :
    List EventNode → Nat → List EventCandidate → Except Exn (List EventCandidate)
  | [], _, candidates => pure candidates
  | event :: rest, n, candidates => do
    let check ← checkEvent (env n) pcTrigger event
    eventsFrom env pcTrigger rest (n + 1)
      (if check.passed then candidates ++ [⟨event, check.assertedDevices, false⟩] else candidates)

/-- `EventsDetection`: the candidates, and the log entries that were resolved. -/
def eventsDetection (env : Nat → Env) (getAll : Nat → String → Except Exn ManagedObjectType) (pcTrigger : DataAccessor)
    (possibleEventPatternList : List EventNode) : Except Exn (List EventCandidate × List String) := do
  let (s, eventsOnlyPattern) ← recoverFrom env getAll pcTrigger possibleEventPatternList 0 {} []
  let candidates ← eventsFrom env pcTrigger eventsOnlyPattern possibleEventPatternList.length s.eventCandidateList
  pure (candidates, s.resolved)

/-! ### Which recoveries are traced -/

def recoveriesFrom (env : Nat → Env) (pcTrigger : DataAccessor) :
    List EventNode → Nat → List (EventNode × List AssertedDevice)
  | [], _ => []
  | event :: rest, n =>
    match checkRecovery (env n) pcTrigger event with
    | .ok (some asserted) => (event, asserted) :: recoveriesFrom env pcTrigger rest (n + 1)
    | _ => recoveriesFrom env pcTrigger rest (n + 1)

def hasName (event : EventNode) (entry : AssertedDevice) : Bool :=
  match event.getFullDeviceName entry.deviceIndexTuple with
  | .ok name => name != ""
  | .error _ => false

def isNamed (recovery : EventNode × List AssertedDevice) : Bool := recovery.2.any (hasName recovery.1)

def Covered (candidates : List EventCandidate) (device : String) : Prop :=
  ∃ candidate ∈ candidates, candidate.isRecovery = true ∧ ∃ entry ∈ candidate.assertedDevices, entry.device = device

instance (candidates : List EventCandidate) (device : String) : Decidable (Covered candidates device) := by
  unfold Covered
  infer_instance

def FirstCovers (recoveries : List (EventNode × List AssertedDevice)) : Prop :=
  ∀ recovery ∈ recoveries, ∀ entry ∈ recovery.2, ∃ first ∈ recoveries.find? isNamed,
    ∃ other ∈ first.2, other.device = entry.device

instance (recoveries : List (EventNode × List AssertedDevice)) : Decidable (FirstCovers recoveries) := by
  unfold FirstCovers
  infer_instance

section
variable {env : Nat → Env} {getAll : Nat → String → Except Exn ManagedObjectType} {pcTrigger : DataAccessor}

/-- The call is noted and some paths are added, and nothing else changes. -/
theorem resolve_ok {s s' : Detected} {event : EventNode} {name : String} (h : resolve getAll s event name = .ok s') :
    ∃ paths, s' = { s with calls := s.calls ++ [(event.event, name)], resolved := s.resolved ++ paths } := by
  unfold resolve at h
  dsimp only at h
  split at h
  · exact ⟨_, (pure_ok_iff.mp h).symm⟩
  · exact ⟨_, (pure_ok_iff.mp h).symm⟩
  · cases h

theorem resolve_frame {s s' : Detected} {event : EventNode} {name : String} (h : resolve getAll s event name = .ok s') :
    s'.eventCandidateList = s.eventCandidateList ∧ s'.rootCauseTracerDevice = s.rootCauseTracerDevice := by
  obtain ⟨paths, rfl⟩ := resolve_ok h
  exact ⟨rfl, rfl⟩

theorem devicesFrom_seen {event : EventNode} (loaded : event.device = "") {asserted entries : List AssertedDevice}
    {s s' : Detected} (seen : "" ∈ s.rootCauseTracerDevice) (h : devicesFrom getAll event asserted entries s = .ok s') :
    s'.eventCandidateList = s.eventCandidateList ∧ "" ∈ s'.rootCauseTracerDevice := by
  induction entries generalizing s with
  | nil =>
    obtain rfl := pure_ok_iff.mp h
    exact ⟨rfl, seen⟩
  | cons entry rest ih =>
    unfold devicesFrom at h
    obtain ⟨name, _, h⟩ := bind_ok h
    dsimp only at h
    split at h
    · exact ih seen h
    · obtain ⟨next, resolved, h⟩ := bind_ok h
      obtain ⟨candidates, tracers⟩ := resolve_frame resolved
      have same : ∀ keys, addTracer { s with recoveredEventDevices := keys } event asserted =
          { s with recoveredEventDevices := keys } := by
        intro keys
        exact if_pos (loaded.symm ▸ seen)
      rw [same] at candidates tracers
      obtain ⟨rest_candidates, rest_seen⟩ := ih (tracers.symm ▸ seen) h
      exact ⟨rest_candidates.trans candidates, rest_seen⟩

theorem devicesFrom_fresh {event : EventNode} (loaded : event.device = "") {asserted entries : List AssertedDevice}
    {s s' : Detected} (unseen : s.rootCauseTracerDevice = []) (fresh : s.recoveredEventDevices = [])
    (h : devicesFrom getAll event asserted entries s = .ok s') :
    if entries.any (hasName event) then
      s'.eventCandidateList = s.eventCandidateList ++ [⟨event, asserted, true⟩] ∧ "" ∈ s'.rootCauseTracerDevice
    else s' = s := by
  induction entries generalizing s with
  | nil => exact (pure_ok_iff.mp h).symm
  | cons entry rest ih =>
    unfold devicesFrom at h
    obtain ⟨name, named, h⟩ := bind_ok h
    have value : hasName event entry = (name != "") := by rw [hasName, named]
    dsimp only at h
    rw [List.any_cons, value]
    by_cases blank : name = ""
    · rw [if_pos (Or.inl blank)] at h
      have rest_result := ih unseen fresh h
      simpa [blank] using rest_result
    · rw [if_neg (by simp [blank, fresh])] at h
      obtain ⟨next, resolved, h⟩ := bind_ok h
      obtain ⟨candidates, tracers⟩ := resolve_frame resolved
      have added : ∀ keys, addTracer { s with recoveredEventDevices := keys } event asserted =
          { s with
            recoveredEventDevices := keys
            rootCauseTracerDevice := event.device :: s.rootCauseTracerDevice
            eventCandidateList := s.eventCandidateList ++ [⟨event, asserted, true⟩] } := by
        intro keys
        exact if_neg (by simp [unseen])
      rw [added] at candidates tracers
      have seen : "" ∈ next.rootCauseTracerDevice := by
        rw [tracers, loaded]
        exact List.mem_cons_self
      obtain ⟨rest_candidates, rest_seen⟩ := devicesFrom_seen loaded seen h
      rw [if_pos (by simp [blank])]
      exact ⟨rest_candidates.trans candidates, rest_seen⟩

theorem recoverFrom_seen {events : List EventNode} (loaded : ∀ event ∈ events, event.device = "") {n : Nat}
    {s s' : Detected} {only only' : List EventNode} (seen : "" ∈ s.rootCauseTracerDevice)
    (h : recoverFrom env getAll pcTrigger events n s only = .ok (s', only')) :
    s'.eventCandidateList = s.eventCandidateList := by
  induction events generalizing n s only with
  | nil =>
    obtain ⟨rfl, _⟩ := Prod.mk.inj (pure_ok_iff.mp h)
    rfl
  | cons event rest ih =>
    obtain ⟨here, later⟩ := List.forall_mem_cons.mp loaded
    unfold recoverFrom at h
    obtain ⟨recovery, _, h⟩ := bind_ok h
    cases recovery with
    | none => exact ih later seen h
    | some asserted =>
      obtain ⟨next, devices, h⟩ := bind_ok h
      obtain ⟨candidates, seen⟩ := devicesFrom_seen here seen devices
      exact (ih later seen h).trans candidates

/-- The first loop makes one candidate, of the first recovery that has a full name. -/
theorem recoverFrom_fresh {events : List EventNode} (loaded : ∀ event ∈ events, event.device = "") {n : Nat}
    {s s' : Detected} {only only' : List EventNode} (unseen : s.rootCauseTracerDevice = [])
    (fresh : s.recoveredEventDevices = []) (h : recoverFrom env getAll pcTrigger events n s only = .ok (s', only')) :
    s'.eventCandidateList = s.eventCandidateList ++
      ((recoveriesFrom env pcTrigger events n).find? isNamed).toList.map fun first => ⟨first.1, first.2, true⟩ := by
  induction events generalizing n s only with
  | nil =>
    obtain ⟨rfl, _⟩ := Prod.mk.inj (pure_ok_iff.mp h)
    simp [recoveriesFrom]
  | cons event rest ih =>
    obtain ⟨here, later⟩ := List.forall_mem_cons.mp loaded
    unfold recoverFrom at h
    unfold recoveriesFrom
    obtain ⟨recovery, checked, h⟩ := bind_ok h
    rw [checked]
    cases recovery with
    | none => exact ih later unseen fresh h
    | some asserted =>
      obtain ⟨next, devices, h⟩ := bind_ok h
      have result := devicesFrom_fresh here unseen fresh devices
      dsimp only
      rw [List.find?_cons]
      cases named : isNamed (event, asserted) with
      | true =>
        obtain ⟨candidates, seen⟩ := (if_pos named).mp result
        rw [recoverFrom_seen later seen h, candidates]
        rfl
      | false =>
        have same : next = s := (if_neg (Bool.eq_false_iff.mp named)).mp result
        rw [same] at h
        exact ih later unseen fresh h

theorem eventsFrom_plain {events : List EventNode} {n : Nat} {before after : List EventCandidate}
    (h : eventsFrom env pcTrigger events n before = .ok after) (device : String) :
    Covered after device ↔ Covered before device := by
  induction events generalizing n before with
  | nil =>
    obtain rfl := pure_ok_iff.mp h
    rfl
  | cons event rest ih =>
    unfold eventsFrom at h
    obtain ⟨check, _, h⟩ := bind_ok h
    rw [ih h]
    split
    · simp [Covered, or_and_right, exists_or]
    · rfl

end

/-- Every device of every recovery gets a root cause trace, exactly if the first recovery that has a full
name has them all. -/
theorem eventsDetection_covers_iff (env : Nat → Env) (getAll : Nat → String → Except Exn ManagedObjectType)
    (pcTrigger : DataAccessor) (events : List EventNode) (loaded : ∀ event ∈ events, ∃ j, EventNode.loadFrom j = .ok event)
    (candidates : List EventCandidate) (resolved : List String)
    (h : eventsDetection env getAll pcTrigger events = .ok (candidates, resolved)) :
    (∀ recovery ∈ recoveriesFrom env pcTrigger events 0, ∀ entry ∈ recovery.2, Covered candidates entry.device) ↔
      FirstCovers (recoveriesFrom env pcTrigger events 0) := by
  have blank : ∀ event ∈ events, event.device = "" := by
    intro event member
    obtain ⟨_, load⟩ := loaded event member
    exact EventNode.loadFrom_device load
  unfold eventsDetection at h
  obtain ⟨⟨s, only⟩, first, h⟩ := bind_ok h
  obtain ⟨all, second, h⟩ := bind_ok h
  obtain ⟨rfl, _⟩ := Prod.mk.inj (pure_ok_iff.mp h)
  have covered : ∀ device, Covered all device ↔
      ∃ first ∈ (recoveriesFrom env pcTrigger events 0).find? isNamed, ∃ other ∈ first.2, other.device = device := by
    intro device
    rw [eventsFrom_plain second, recoverFrom_fresh blank rfl rfl first]
    simp [Covered]
  simp only [covered]
  rfl

/-! ### Two events with one recovery -/

def bus (check : List (String × Json)) : Json :=
  .object (check ++ [("interface", .string "com.nvidia.Power"), ("object", .string "/xyz/board"),
    ("property", .string "Good"), ("type", .string "DBUS")])

/-- An event that recovers when the board's power is good. -/
def powerEvent (name deviceType : String) : Json :=
  .object [("accessor", bus [("check", .object [("equal", .string "false")])]), ("action", .string ""),
    ("device_type", .string deviceType), ("event", .string name), ("event_counter_reset", .object []),
    ("event_trigger", .object []), ("recovery", bus [("check", .object [("equal", .string "true")])]),
    ("redfish", .object [("message_id", .string "ResourceEvent.1.0.ResourceErrorsDetected")]),
    ("resolution", .string ""), ("severity", .string "Critical"), ("telemetries", .array []),
    ("trigger_count", .number 0)]

def powerGood : DataAccessor := { acc := bus [], dataValue := .ofString "true" }

def silent (_ : Nat) : Env where
  readDbusProperty _ _ _ := .ok .invalid
  runCommand _ := none
  deviceGetCoreAPI _ _ := (1, "", 0)

def emptyLog (_ : Nat) (_ : String) : Except Exn ManagedObjectType := .ok []

def detectPower (events : List Json) : Except Exn (List EventNode × List EventCandidate × List String) := do
  let events ← events.mapM EventNode.loadFrom
  let detected ← eventsDetection silent emptyLog powerGood events
  pure (events, detected)

theorem detectPower_ok {js : List Json} {events : List EventNode} {candidates : List EventCandidate}
    {resolved : List String} (h : detectPower js = .ok (events, candidates, resolved)) :
    (∀ event ∈ events, ∃ j, EventNode.loadFrom j = .ok event) ∧
      eventsDetection silent emptyLog powerGood events = .ok (candidates, resolved) := by
  obtain ⟨loaded, load, h⟩ := bind_ok h
  obtain ⟨detected, run, h⟩ := bind_ok h
  simp only [pure_ok_iff, Prod.mk.injEq] at h
  obtain ⟨rfl, rfl⟩ := h
  refine ⟨fun event member => ?_, run⟩
  obtain ⟨j, _, load⟩ := forall₂_mem_right (mapM_ok_iff.mp load) member
  exact ⟨j, load⟩

/-- Two events of one device that recover together are covered by one trace. -/
theorem eventsDetection_covers_iff_power : ∃ events candidates,
    detectPower [powerEvent "Power Failure" "GPU_SXM_1", powerEvent "Brownout" "GPU_SXM_1"] =
      .ok (events, candidates, []) ∧
    ∀ recovery ∈ recoveriesFrom silent powerGood events 0, ∀ entry ∈ recovery.2, Covered candidates entry.device := by
  have run : (detectPower [powerEvent "Power Failure" "GPU_SXM_1", powerEvent "Brownout" "GPU_SXM_1"]).map
      (fun r => (r.2.2, decide (FirstCovers (recoveriesFrom silent powerGood r.1 0)))) = .ok ([], true) := by decide
  obtain ⟨⟨events, candidates, resolved⟩, detect, facts⟩ := map_ok run
  simp only [Prod.mk.injEq, decide_eq_true_eq] at facts
  obtain ⟨rfl, covers⟩ := facts
  obtain ⟨loaded, detected⟩ := detectPower_ok detect
  exact ⟨events, candidates, detect,
    (eventsDetection_covers_iff silent emptyLog powerGood events loaded candidates [] detected).mpr covers⟩

/-- Of two devices that recover together one gets no trace. -/
theorem eventsDetection_drops_device : ∃ events candidates resolved,
    (∀ event ∈ events, ∃ j, EventNode.loadFrom j = .ok event) ∧
    eventsDetection silent emptyLog powerGood events = .ok (candidates, resolved) ∧
    ∃ recovery ∈ recoveriesFrom silent powerGood events 0, ∃ entry ∈ recovery.2, ¬ Covered candidates entry.device := by
  have run : (detectPower [powerEvent "Power Failure" "GPU_SXM_1", powerEvent "Power Failure" "NVSwitch_0"]).map
      (fun (r : List EventNode × List EventCandidate × List String) =>
        decide (∃ recovery ∈ recoveriesFrom silent powerGood r.1 0, ∃ entry ∈ recovery.2,
          ¬ Covered r.2.1 entry.device)) = .ok true := by decide
  obtain ⟨⟨events, candidates, resolved⟩, detect, dropped⟩ := map_ok run
  obtain ⟨loaded, detected⟩ := detectPower_ok detect
  exact ⟨events, candidates, resolved, loaded, detected, of_decide_eq_true dropped⟩

end MonitorEventing.Detection
