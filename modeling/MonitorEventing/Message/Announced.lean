import MonitorEventing.Health.Deferred
import MonitorEventing.Health.ErrorSets
import MonitorEventing.Message.Journal

/-!
# Entries that are announced

The health service is told of each new entry. What it shows of a device is the worst of the events that it
was told of, whatever fails and is retried on the way.
-/

namespace MonitorEventing.Message
open Accessor EventInfo Health

/-- The signal of an entry that was made of the call. -/
def Announces (call : CreateCall) (message : StringMap PropertiesChangedMap) : Prop :=
  ∃ props lines, message["xyz.openbmc_project.Logging.Entry"]? = some props ∧
    props["Severity"]? = some (.string call.severity) ∧
    (∀ eventId, ("xyz.openbmc_project.Logging.Entry.EventId", eventId) ∈ call.additionalData →
      props["EventId"]? = some (.string eventId)) ∧
    props["Resolved"]? = some (.boolean false) ∧ props["AdditionalData"]? = some (.strings lines) ∧
    Keeps call ["DEVICE_NAME"] lines

/-- An entry the composer made, and its signal. -/
structure Announcement where
  sys : System
  event : EventNode
  call : CreateCall
  message : StringMap PropertiesChangedMap
  composed : composeLog sys event = .ok (some call)
  announces : Announces call message

/-- What the service takes: an error without its identifier or its device is passed over. -/
def Audible (o : Options) (event : EventNode) : Prop :=
  event.errorId ≠ "" ∧ event.errorId.utf8ByteSize ≤ o.maxErrorIdLength ∧ event.device ≠ ""

instance (o : Options) (event : EventNode) : Decidable (Audible o event) := inferInstanceAs (Decidable (_ ∧ _))

def severities : ErrorLevel → List String
  | .critical => ["Critical", "critical"]
  | .warning => ["Warning", "warning"]

/-- The event is an error of the device. -/
def Tells (o : Options) (level : ErrorLevel) (device : String) (event : EventNode) : Prop :=
  Audible o event ∧ event.device = device ∧ event.severity ∈ severities level

instance (o : Options) (level : ErrorLevel) (device : String) : DecidablePred (Tells o level device) :=
  fun _ => inferInstanceAs (Decidable (_ ∧ _))

/-- The worst of the events of a device. -/
def worst (o : Options) (events : List EventNode) (device : String) : Option String :=
  if ∃ event ∈ events, Tells o .critical device event then some "Critical"
  else if ∃ event ∈ events, Tells o .warning device event then some "Warning"
  else none

/-! ### Reading the signal -/

theorem deviceNameFrom_line {key : String} (plain : '=' ∉ key.toList) (value : String) (rest : List String) :
    deviceNameFrom ((key ++ "=" ++ value) :: rest) =
      if value ≠ "" ∧ key = "DEVICE_NAME" then value else deviceNameFrom rest := by
  have text : (key ++ "=" ++ value).toList = key.toList ++ '=' :: value.toList := by simp
  have free : ∀ c ∈ key.toList, (c != '=') = true := by
    intro c member
    have other : c ≠ '=' := fun same => plain (same ▸ member)
    simp [other]
  have before : (key ++ "=" ++ value).toList.takeWhile (· != '=') = key.toList := by
    rw [text, List.takeWhile_append_of_pos free]
    simp
  have after : (key ++ "=" ++ value).toList.dropWhile (· != '=') = '=' :: value.toList := by
    rw [text, List.dropWhile_append_of_pos free]
    simp
  have filled : value.toList ≠ [] ↔ value ≠ "" := by
    rw [Ne, String.toList_eq_nil_iff]
  rw [deviceNameFrom]
  simp only [before, after, List.tail_cons, String.ofList_toList, filled]

/-- The device comes back whole, also where the service keeps few of the lines. -/
theorem deviceNameFrom_keeps {pairs : List (String × String)} (keyed : Keyed pairs) {device : String}
    (named : ("DEVICE_NAME", device) ∈ pairs) {lines : List String}
    (own : ∀ line ∈ lines, line ∈ pairs.map fun pair => pair.1 ++ "=" ++ pair.2) :
    deviceNameFrom lines = if "DEVICE_NAME" ++ "=" ++ device ∈ lines then device else "" := by
  induction lines with
  | nil => rfl
  | cons line rest ih =>
    obtain ⟨here, later⟩ := List.forall_mem_cons.mp own
    obtain ⟨pair, inside, rfl⟩ := List.mem_map.mp here
    rw [deviceNameFrom_line (keyed.plain pair inside), ih later]
    by_cases same : pair.1 = "DEVICE_NAME"
    · obtain rfl : pair = ("DEVICE_NAME", device) := List.inj_on_of_nodup_map keyed.unique inside named same
      by_cases empty : device = ""
      · simp [empty]
      · simp [empty]
    · have apart : "DEVICE_NAME" ++ "=" ++ device ≠ pair.1 ++ "=" ++ pair.2 := fun line =>
        same (line_inj (keyed.plain _ named) (keyed.plain pair inside) line).symm
      simp only [same, and_false, if_false, List.mem_cons, apart, false_or]

theorem makeSeverity_ne (severity : String) : makeSeverity severity ≠ "" := by
  intro empty
  have filled : "xyz.openbmc_project.Logging.Entry.Level." ≠ "" := by decide +kernel
  exact filled (String.append_eq_empty_iff.mp empty).1

def Announcement.entry (a : Announcement) : LogEntry :=
  ⟨makeSeverity a.event.severity, a.event.errorId, false, a.event.device⟩

theorem Announcement.readLogEntry (a : Announcement) (o : Options) :
    readLogEntry o a.message = if Audible o a.event then some a.entry else none := by
  obtain ⟨props, lines, interface, severity, eventId, resolved, additionalData, keeps⟩ := a.announces
  obtain ⟨telemetries, messageArgs, originOfCondition, full, _, call⟩ := composeLog_ok a.composed
  have keyed := composeLog_keyed a.composed
  have named : ("DEVICE_NAME", a.event.device) ∈ a.call.additionalData := by simp [call]
  have identified : ("xyz.openbmc_project.Logging.Entry.EventId", a.event.errorId) ∈ a.call.additionalData := by simp [call]
  have line := keeps.kept _ named (List.mem_singleton.mpr rfl)
  have device := (deviceNameFrom_keeps keyed named keeps.own).trans (if_pos line)
  have level : a.call.severity = makeSeverity a.event.severity := by simp [call]
  have empty : ∀ text : String, text.length = 0 ↔ text = "" := fun text => String.length_eq_zero_iff
  have told : textOf props "Severity" = some (makeSeverity a.event.severity) := by
    simp [textOf, severity, level, makeSeverity_ne]
  have errorId : textOf props "EventId" = if a.event.errorId = "" then none else some a.event.errorId := by
    simp only [textOf, eventId _ identified, empty]
  simp only [Health.readLogEntry, interface, Option.bind_eq_bind, Option.bind_some, told, errorId, resolved, additionalData, device,
    empty, Audible, entry]
  by_cases unidentified : a.event.errorId = ""
  · simp [unidentified]
  · by_cases short : a.event.errorId.utf8ByteSize ≤ o.maxErrorIdLength
    · simp [unidentified, short, Nat.not_lt.mpr short]
    · simp [unidentified, short, Nat.not_le.mp short]

def levelText : ErrorLevel → String
  | .critical => "Critical"
  | .warning => "Warning"

theorem makeSeverity_iff (severity : String) (level : ErrorLevel) :
    makeSeverity severity = "xyz.openbmc_project.Logging.Entry.Level." ++ levelText level ↔ severity ∈ severities level := by
  unfold makeSeverity
  rw [String.append_right_inj]
  by_cases known : severity ∈ severityMapper.map (·.1)
  · have each : ∀ name ∈ severityMapper.map (·.1), (severityMapper.lookup name).getD name = levelText level ↔
        name ∈ severities level := by cases level <;> decide +kernel
    exact each severity known
  · have unmapped : severityMapper.lookup severity = none := by
      rw [List.lookup_eq_none_iff]
      intro pair member
      rw [bne_iff_ne]
      exact fun same => known (same ▸ List.mem_map_of_mem member)
    have mapped : ∀ name ∈ severities level, name ∈ severityMapper.map (·.1) := by cases level <;> decide +kernel
    rw [unmapped, Option.getD_none]
    refine iff_of_false (fun same => ?_) (fun member => known (mapped severity member))
    apply known
    rw [same]
    cases level <;> decide +kernel

/-! ### Adding errors -/

theorem addErrorToDevice_full {o : Options} {level : ErrorLevel} {map : AssertedEventsMap} {errorId device : String}
    (h : addErrorToDevice o level map errorId device = none) : 0 < (errorsOf map device level).size := by
  have positive := o.positive
  simp only [addErrorToDevice, Std.TreeMap.getD_eq_getD_getElem?] at h
  split at h
  · rename_i full
    exact Nat.lt_of_lt_of_le positive full
  · cases h

theorem addErrorToDevice_errors {o : Options} {level : ErrorLevel} {map map' : AssertedEventsMap} {errorId device : String}
    (h : addErrorToDevice o level map errorId device = some map') (other : String) (level' : ErrorLevel) :
    errorsOf map' other level' =
      if device = other ∧ level = level' then (errorsOf map other level').insert errorId else errorsOf map other level' := by
  simp only [addErrorToDevice, Std.TreeMap.getD_eq_getD_getElem?] at h
  split at h
  · cases h
  · obtain rfl := Option.some.inj h
    by_cases here : device = other
    · subst here
      simp [errorsOf]
    · simp [errorsOf, here]

theorem mem_addErrorToDevice {o : Options} {level : ErrorLevel} {map map' : AssertedEventsMap} {errorId device : String}
    (h : addErrorToDevice o level map errorId device = some map') (other : String) :
    other ∈ map' ↔ device = other ∨ other ∈ map := by
  simp only [addErrorToDevice] at h
  split at h
  · cases h
  · rw [← Option.some.inj h, StringMap.mem_insert]

theorem mem_ensureMappingPresent (map : AssertedEventsMap) (device other : String) :
    other ∈ ensureMappingPresent map device ↔ device = other ∨ other ∈ map := by
  unfold ensureMappingPresent
  split
  · rename_i present
    refine ⟨Or.inr, fun known => known.elim (fun same => same ▸ present) id⟩
  · rw [StringMap.mem_insert]

theorem size_insert_pos (errors : Std.TreeSet String) (errorId : String) : 0 < (errors.insert errorId).size := by
  rw [Nat.pos_iff_ne_zero, Ne, ← beq_iff_eq, ← Std.TreeSet.isEmpty_eq_size_eq_zero, Std.TreeSet.isEmpty_insert]
  exact Bool.false_ne_true

/-! ### Runs -/

/-- What happens to the service. It may be restarted, but not between its two accesses for one entry. -/
inductive Happening where
  | announced (announcement : Announcement)
  | tick
  | proceed (succeeds : Bool)
  | restart (timerEnabled : Bool)

def Happening.input : Happening → Input
  | .announced a => .interfacesAdded (some a.message)
  | .tick => .tick
  | .proceed succeeds => .proceed succeeds
  | .restart timerEnabled => .restart timerEnabled

def Asserts (s : Service) (level : ErrorLevel) (device : String) : Prop := ∃ errorId, s.phase = .asserting level errorId device

def happen (o : Options) (s : Service) (happening : Happening) : Option Service :=
  match happening, s.phase with
  | .restart _, .asserting _ _ _ => none
  | _, _ => s.step o happening.input

def told : List Happening → List EventNode
  | [] => []
  | .announced a :: rest => a.event :: told rest
  | _ :: rest => told rest

/-- The devices the service will set the health of. -/
def Named (s : Service) (device : String) : Prop :=
  device ∈ s.deferredDeviceSet ∨ match s.phase with
    | .starting remaining | .retrying remaining => device ∈ remaining
    | .updating updated => device = updated
    | .idle | .asserting _ _ _ => False

/-- The error sets are those of the events, and nothing else was shown. -/
structure Heard (o : Options) (shown : StringMap String) (events : List EventNode) (s : Service) : Prop where
  recorded : ∀ device level, 0 < (errorsOf s.assertedEventsMap device level).size ∨ Asserts s level device ↔
    ∃ event ∈ events, Tells o level device event
  known : ∀ device ∈ s.assertedEventsMap, ∃ event ∈ events, ∃ level, Tells o level device event
  named : ∀ device, Named s device → device ∈ s.assertedEventsMap
  untouched : ∀ device, device ∉ s.assertedEventsMap → s.pushed[device]? = shown[device]?
  inv : s.Inv

section
variable {o : Options} {shown : StringMap String} {events : List EventNode} {s t : Service}

theorem severities_unique {severity : String} {level level' : ErrorLevel} (member : severity ∈ severities level)
    (member' : severity ∈ severities level') : level = level' := by
  have apart : ∀ name ∈ severities .critical, name ∉ severities .warning := by decide
  cases level with
  | critical =>
    cases level' with
    | critical => rfl
    | warning => exact absurd member' (apart severity member)
  | warning =>
    cases level' with
    | critical => exact absurd member (apart severity member')
    | warning => rfl

/-- The callback passes the entry over, or asserts the error that its event tells of. -/
theorem Announcement.callback_cases (a : Announcement) (o : Options) (s : Service) :
    ((∀ level device, ¬ Tells o level device a.event) ∧ s.interfacesAddedCallback o (some a.message) = s) ∨
    ∃ level, (∀ level' device, Tells o level' device a.event ↔ level = level' ∧ a.event.device = device) ∧
      s.interfacesAddedCallback o (some a.message) = s.assertError level a.entry := by
  unfold Service.interfacesAddedCallback
  rw [Option.bind_some, a.readLogEntry]
  by_cases audible : Audible o a.event
  · rw [if_pos audible]
    have tells : ∀ level, a.event.severity ∈ severities level →
        ∀ level' device, Tells o level' device a.event ↔ level = level' ∧ a.event.device = device := by
      intro level member level' device
      constructor
      · intro told
        exact ⟨severities_unique member told.2.2, told.2.1⟩
      · intro both
        obtain ⟨rfl, here⟩ := both
        exact ⟨audible, here, member⟩
    have critical := makeSeverity_iff a.event.severity .critical
    have warning := makeSeverity_iff a.event.severity .warning
    simp only [levelText, String.reduceAppend] at critical warning
    simp only [entry, Bool.false_eq_true, if_false, critical, warning]
    split_ifs with isCritical isWarning
    · exact Or.inr ⟨.critical, tells _ isCritical, rfl⟩
    · exact Or.inr ⟨.warning, tells _ isWarning, rfl⟩
    · refine Or.inl ⟨fun level device told => ?_, rfl⟩
      cases level with
      | critical => exact isCritical told.2.2
      | warning => exact isWarning told.2.2
  · rw [if_neg audible]
    exact Or.inl ⟨fun level device told => audible told.1, rfl⟩

theorem not_asserts {phase : Phase} (here : s.phase = phase) (other : ∀ level errorId device, phase ≠ .asserting level errorId device)
    (level : ErrorLevel) (device : String) : ¬ Asserts s level device := by
  intro asserts
  obtain ⟨errorId, asserting⟩ := asserts
  exact other level errorId device (here.symm.trans asserting)

/-- A step that adds no error, and sets the health of no device but those it had to. -/
theorem Heard.keep (heard : Heard o shown events s) (calm : ∀ level device, ¬ Asserts s level device)
    (calm' : ∀ level device, ¬ Asserts t level device) (same : t.assertedEventsMap = s.assertedEventsMap)
    (named : ∀ device, Named t device → Named s device ∨ device ∈ s.assertedEventsMap)
    (pushed : ∀ device, ¬ Named s device → t.pushed[device]? = s.pushed[device]?) (inv : t.Inv) : Heard o shown events t := by
  refine ⟨fun device level => ?_, ?_, fun device member => ?_, fun device unknown => ?_, inv⟩
  · rw [same, ← heard.recorded device level]
    simp only [calm, calm']
  · rw [same]
    exact heard.known
  · rw [same]
    exact (named device member).elim (heard.named device) id
  · rw [same] at unknown
    rw [pushed device (mt (heard.named device) unknown)]
    exact heard.untouched device unknown

theorem updateDeviceHealth_pushed {device other : String} (apart : device ≠ other) (succeeds : Bool) :
    (s.updateDeviceHealth device succeeds).pushed[other]? = s.pushed[other]? := by
  cases succeeds with
  | false => rfl
  | true => exact (StringMap.getElem?_insert ..).trans (if_neg apart)

theorem updateDeviceHealth_deferred {device other : String} {succeeds : Bool}
    (member : other ∈ (s.updateDeviceHealth device succeeds).deferredDeviceSet) :
    other = device ∨ other ∈ s.deferredDeviceSet := by
  cases succeeds with
  | true => exact Or.inr member
  | false =>
    refine (Std.TreeSet.mem_insert.mp member).imp_left fun same => ?_
    exact (Std.LawfulEqCmp.compare_eq_iff_eq.mp same).symm

theorem retryDevice_pushed {device other : String} (apart : device ≠ other) (succeeds : Bool) :
    (s.retryDevice device succeeds).pushed[other]? = s.pushed[other]? := by
  cases succeeds with
  | false => rfl
  | true => exact (StringMap.getElem?_insert ..).trans (if_neg apart)

theorem retryDevice_deferred {device other : String} {succeeds : Bool}
    (member : other ∈ (s.retryDevice device succeeds).deferredDeviceSet) : other ∈ s.deferredDeviceSet := by
  cases succeeds with
  | false => exact member
  | true => exact Std.TreeSet.mem_of_mem_erase member

theorem mem_of_errors {map : AssertedEventsMap} {device : String} {level : ErrorLevel}
    (filled : 0 < (errorsOf map device level).size) : device ∈ map := by
  rw [StringMap.mem_iff]
  cases read : map[device]? with
  | some aefd => exact ⟨aefd, rfl⟩
  | none =>
    have empty : (errorsOf map device level).size = 0 := by
      rw [errorsOf, read]
      cases level <;> rfl
    omega

/-- The error that is being asserted is recorded, at the limit by the errors before it. -/
theorem Heard.add (heard : Heard o shown events s) {level : ErrorLevel} {errorId device : String}
    (phase : s.phase = .asserting level errorId device) {succeeds : Bool} (h : s.proceed o succeeds = some t) :
    Heard o shown events t := by
  have inv := Service.proceed_inv o heard.inv h
  have asserts : ∀ other level', Asserts s level' other ↔ level = level' ∧ device = other := by
    intro other level'
    simp only [Asserts, phase, Phase.asserting.injEq]
    tauto
  simp only [Service.proceed, phase] at h
  split at h
  · rename_i full
    obtain rfl := Option.some.inj h
    have calm := @not_asserts { s with phase := .idle } .idle rfl nofun
    refine ⟨fun other level' => ?_, heard.known, fun other member => ?_, heard.untouched, inv⟩
    · rw [← heard.recorded other level', asserts]
      simp only [calm, or_false]
      refine ⟨Or.inl, fun counted => counted.elim id fun here => ?_⟩
      obtain ⟨rfl, rfl⟩ := here
      exact addErrorToDevice_full full
    · exact heard.named other (Or.inl (member.resolve_right id))
  · rename_i map added
    obtain rfl := Option.some.inj h
    have calm := @not_asserts { s with assertedEventsMap := map, phase := .updating device } (.updating device) rfl nofun
    have errors := addErrorToDevice_errors added
    have kept := mem_addErrorToDevice added
    refine ⟨fun other level' => ?_, fun other member => ?_, fun other member => ?_, fun other unknown => ?_, inv⟩
    · rw [← heard.recorded other level', asserts, errors]
      simp only [calm, or_false]
      split
      · rename_i here
        exact iff_of_true (size_insert_pos _ _) (Or.inr ⟨here.2, here.1⟩)
      · rename_i apart
        refine ⟨Or.inl, fun counted => counted.resolve_right fun here => apart ⟨here.2, here.1⟩⟩
    · rcases (kept other).mp member with rfl | known
      · obtain ⟨event, inside, tells⟩ := (heard.recorded device level).mp (Or.inr ⟨errorId, phase⟩)
        exact ⟨event, inside, level, tells⟩
      · exact heard.known other known
    · apply (kept other).mpr
      rcases member with deferred | rfl
      · exact Or.inr (heard.named other (Or.inl deferred))
      · exact Or.inl rfl
    · exact heard.untouched other fun known => unknown ((kept other).mpr (Or.inr known))

theorem Heard.proceed (heard : Heard o shown events s) {succeeds : Bool} (h : s.proceed o succeeds = some t) :
    Heard o shown events t := by
  have inv := Service.proceed_inv o heard.inv h
  cases phase : s.phase with
  | idle => simp [Service.proceed, phase] at h
  | asserting level errorId device => exact heard.add phase h
  | starting remaining =>
    cases remaining with
    | nil =>
      simp only [Service.proceed, phase, Option.some.injEq] at h
      subst h
      refine heard.keep (not_asserts phase nofun) (not_asserts rfl nofun) rfl (fun device member => ?_) (fun _ _ => rfl) inv
      exact Or.inl (member.imp_right False.elim)
    | cons first remaining =>
      simp only [Service.proceed, phase, Option.some.injEq] at h
      subst h
      have named : ∀ device, Named s device ↔ device ∈ s.deferredDeviceSet ∨ device ∈ first :: remaining := by
        simp [Named, phase]
      have errors := Service.updateDeviceHealth_errors s first succeeds
      refine heard.keep (not_asserts phase nofun) (not_asserts rfl nofun) errors (fun device member => Or.inl ?_)
        (fun device unnamed => updateDeviceHealth_pushed (fun same => unnamed ((named device).mpr ?_)) succeeds) inv
      · rw [named]
        rcases member with deferred | later
        · exact (updateDeviceHealth_deferred deferred).elim (fun same => Or.inr (same ▸ List.mem_cons_self)) Or.inl
        · exact Or.inr (List.mem_cons_of_mem first later)
      · exact Or.inr (same ▸ List.mem_cons_self)
  | updating updated =>
    simp only [Service.proceed, phase, Option.some.injEq] at h
    subst h
    have named : ∀ device, Named s device ↔ device ∈ s.deferredDeviceSet ∨ device = updated := by
      simp [Named, phase]
    have errors := Service.updateDeviceHealth_errors s updated succeeds
    refine heard.keep (not_asserts phase nofun) (not_asserts rfl nofun) errors (fun device member => Or.inl ?_)
      (fun device unnamed => updateDeviceHealth_pushed (fun same => unnamed ((named device).mpr (Or.inr same.symm))) succeeds) inv
    rw [named]
    exact (updateDeviceHealth_deferred (member.resolve_right id)).symm
  | retrying remaining =>
    cases remaining with
    | nil =>
      simp only [Service.proceed, phase, Option.some.injEq] at h
      subst h
      have finished : s.finishRetry.phase = .idle ∧ s.finishRetry.deferredDeviceSet = s.deferredDeviceSet ∧
          s.finishRetry.assertedEventsMap = s.assertedEventsMap ∧ s.finishRetry.pushed = s.pushed := by
        unfold Service.finishRetry
        split <;> exact ⟨rfl, rfl, rfl, rfl⟩
      obtain ⟨idle, deferred, errors, pushed⟩ := finished
      refine heard.keep (not_asserts phase nofun) (not_asserts idle nofun) errors (fun device member => Or.inl ?_)
        (fun device _ => by rw [pushed]) inv
      simpa [Named, phase, idle, deferred] using member
    | cons first remaining =>
      simp only [Service.proceed, phase, Option.some.injEq] at h
      subst h
      have named : ∀ device, Named s device ↔ device ∈ s.deferredDeviceSet ∨ device ∈ first :: remaining := by
        simp [Named, phase]
      have errors := Service.retryDevice_errors s first succeeds
      refine heard.keep (not_asserts phase nofun) (not_asserts rfl nofun) errors (fun device member => Or.inl ?_)
        (fun device unnamed => retryDevice_pushed (fun same => unnamed ((named device).mpr ?_)) succeeds) inv
      · rw [named]
        exact member.imp retryDevice_deferred (List.mem_cons_of_mem first)
      · exact Or.inr (same ▸ List.mem_cons_self)

theorem Heard.announced (heard : Heard o shown events s) (idle : s.phase = .idle) (a : Announcement) :
    Heard o shown (events ++ [a.event]) (s.interfacesAddedCallback o (some a.message)) := by
  have inv := Service.interfacesAddedCallback_inv o heard.inv idle (some a.message)
  have calm := @not_asserts s .idle idle nofun
  rcases a.callback_cases o s with ⟨silent, same⟩ | ⟨level, tells, asserted⟩
  · rw [same]
    refine ⟨fun device level => ?_, fun device member => ?_, heard.named, heard.untouched, heard.inv⟩
    · rw [heard.recorded]
      simp [silent]
    · obtain ⟨event, inside, tells⟩ := heard.known device member
      exact ⟨event, List.mem_append_left _ inside, tells⟩
  · rw [asserted] at inv ⊢
    have asserts : ∀ other level', Asserts (s.assertError level a.entry) level' other ↔ level = level' ∧ a.event.device = other := by
      intro other level'
      simp only [Asserts, Service.assertError, Announcement.entry, Phase.asserting.injEq]
      tauto
    have mapped := mem_ensureMappingPresent s.assertedEventsMap a.event.device
    refine ⟨fun device level' => ?_, fun device member => ?_, fun device member => ?_, fun device unknown => ?_, inv⟩
    · rw [asserts, Service.assertError, errorsOf_ensureMappingPresent]
      simp only [List.mem_append, List.mem_singleton, or_and_right, exists_or, exists_eq_left, tells, ← heard.recorded device level',
        calm, or_false]
    · rcases (mapped device).mp member with rfl | known
      · exact ⟨a.event, by simp, level, (tells level _).mpr ⟨rfl, rfl⟩⟩
      · obtain ⟨event, inside, tells⟩ := heard.known device known
        exact ⟨event, List.mem_append_left _ inside, tells⟩
    · exact (mapped device).mpr (Or.inr (heard.named device (Or.inl (member.resolve_right id))))
    · exact heard.untouched device fun known => unknown ((mapped device).mpr (Or.inr known))

/-- One happening, after which the events are those told of before and by it. -/
theorem Heard.happen (heard : Heard o shown events s) {happening : Happening} (h : happen o s happening = some t) :
    Heard o shown (events ++ told [happening]) t := by
  cases happening with
  | announced a =>
    simp only [Message.happen, Happening.input, Service.step] at h
    split at h
    · rename_i idle
      obtain rfl := Option.some.inj h
      exact heard.announced idle a
    · cases h
  | tick =>
    have inv := Service.step_inv o s .tick t heard.inv h
    simp only [Message.happen, Happening.input, Service.step] at h
    split at h
    · rename_i ready
      obtain rfl := Option.some.inj h
      show Heard o shown (events ++ []) _
      rw [List.append_nil]
      refine heard.keep (not_asserts ready.1 nofun) (not_asserts rfl nofun) rfl (fun device member => Or.inl (Or.inl ?_))
        (fun _ _ => rfl) inv
      exact member.elim id Std.TreeSet.mem_toList.mp
    · cases h
  | proceed succeeds =>
    show Heard o shown (events ++ []) t
    rw [List.append_nil]
    exact heard.proceed h
  | restart timerEnabled =>
    show Heard o shown (events ++ []) t
    rw [List.append_nil]
    simp only [Message.happen] at h
    split at h
    · cases h
    · rename_i elsewhere
      have inv := Service.step_inv o s (.restart timerEnabled) t heard.inv h
      obtain rfl := Option.some.inj h
      refine heard.keep (fun level device asserts => ?_) (not_asserts rfl nofun) rfl (fun device member => Or.inr ?_)
        (fun _ _ => rfl) inv
      · obtain ⟨errorId, phase⟩ := asserts
        exact elsewhere timerEnabled level errorId device rfl phase
      · exact member.elim (fun deferred => absurd deferred Std.TreeSet.not_mem_emptyc) Std.TreeMap.mem_keys.mp

theorem told_cons (happening : Happening) (rest : List Happening) : told (happening :: rest) = told [happening] ++ told rest := by
  cases happening with
  | announced a => rfl
  | _ => rfl

theorem Heard.run (heard : Heard o shown events s) {happenings : List Happening}
    (h : Machine.run (Message.happen o) s happenings = some t) : Heard o shown (events ++ told happenings) t := by
  induction happenings generalizing s events with
  | nil =>
    obtain rfl := Option.some.inj h
    rw [told, List.append_nil]
    exact heard
  | cons happening rest ih =>
    obtain ⟨next, first, later⟩ := Machine.run_cons_iff.mp h
    rw [told_cons, ← List.append_assoc]
    exact ih (heard.happen first) later

theorem start_heard (before : Service) (timerEnabled : Bool) (forgotten : before.assertedEventsMap = ∅) :
    Heard o before.pushed [] (before.start timerEnabled) := by
  have nothing : ∀ device : String, device ∉ before.assertedEventsMap := fun device => forgotten ▸ Std.TreeMap.not_mem_emptyc
  have empty : ∀ device level, ¬ 0 < (errorsOf before.assertedEventsMap device level).size :=
    fun device level filled => nothing device (mem_of_errors filled)
  have calm := @not_asserts (before.start timerEnabled) _ rfl nofun
  refine ⟨fun device level => ?_, fun device member => ?_, fun device member => ?_, fun _ _ => rfl,
    Service.start_inv before timerEnabled⟩
  · refine iff_of_false (fun counted => counted.elim (empty device level) (calm level device)) ?_
    simp
  · exact absurd member (nothing device)
  · exact member.elim (fun deferred => absurd deferred Std.TreeSet.not_mem_emptyc) Std.TreeMap.mem_keys.mp

theorem activeErrorCount_eq (level : ErrorLevel) (map : AssertedEventsMap) (device : String) :
    activeErrorCount level map device = (errorsOf map device level).size := by
  unfold activeErrorCount errorsOf
  cases map[device]? with
  | some aefd => rfl
  | none => cases level <;> rfl

/-- Between two handlers. -/
theorem Heard.settled (heard : Heard o shown events s) (idle : s.phase = .idle) {device : String}
    (settled : device ∉ s.deferredDeviceSet) : s.pushed[device]? = (worst o events device).or shown[device]? := by
  have calm := @not_asserts s .idle idle nofun
  have counts : ∀ level, 0 < activeErrorCount level s.assertedEventsMap device ↔ ∃ event ∈ events, Tells o level device event := by
    intro level
    rw [← heard.recorded device level, activeErrorCount_eq]
    simp only [calm, or_false]
  by_cases known : device ∈ s.assertedEventsMap
  · have synced := (heard.inv.synced device known).resolve_right (by rw [Service.Pending, idle]; exact id)
    rw [synced.resolve_right settled, computeHealthForDevice, worst]
    simp only [gt_iff_lt, getActiveCriticalErrorCountForDevice, getActiveWarningErrorCountForDevice, counts]
    split_ifs with critical warning
    · rfl
    · rfl
    · obtain ⟨event, inside, level, tells⟩ := heard.known device known
      cases level with
      | critical => exact absurd ⟨event, inside, tells⟩ critical
      | warning => exact absurd ⟨event, inside, tells⟩ warning
  · have silent : ∀ level, ¬ ∃ event ∈ events, Tells o level device event := by
      intro level tells
      rw [← heard.recorded device level] at tells
      exact tells.elim (fun filled => known (mem_of_errors filled)) (calm level device)
    rw [worst, if_neg (silent .critical), if_neg (silent .warning), heard.untouched device known]
    rfl

end

/-! ### A push that fails and is retried -/

def logEntryOf (event : EventNode) (call : CreateCall) : PropertiesChangedMap :=
  .ofPairs [("Severity", .string call.severity), ("EventId", .string event.errorId),
    ("AdditionalData", .strings call.lines), ("Resolved", .boolean false)]

theorem announces_logEntryOf {sys : System} {event : EventNode} {call : CreateCall}
    (composed : composeLog sys event = .ok (some call)) :
    Announces call (.ofPairs [("xyz.openbmc_project.Logging.Entry", logEntryOf event call)]) := by
  have keyed := composeLog_keyed composed
  obtain ⟨telemetries, messageArgs, originOfCondition, full, _, made⟩ := composeLog_ok composed
  have identified : ("xyz.openbmc_project.Logging.Entry.EventId", event.errorId) ∈ call.additionalData := by simp [made]
  have whole : Keeps call ["DEVICE_NAME"] call.lines :=
    ⟨fun _ member => member, fun _ member _ => List.mem_map_of_mem member⟩
  refine ⟨logEntryOf event call, call.lines, ?_, ?_, fun eventId member => ?_, ?_, ?_, whole⟩
  · rw [StringMap.getElem?_ofPairs]
    rfl
  · rw [logEntryOf, StringMap.getElem?_ofPairs]
    rfl
  · obtain ⟨_, rfl⟩ := Prod.mk.inj (List.inj_on_of_nodup_map keyed.unique member identified rfl)
    rw [logEntryOf, StringMap.getElem?_ofPairs]
    rfl
  · rw [logEntryOf, StringMap.getElem?_ofPairs]
    rfl
  · rw [logEntryOf, StringMap.getElem?_ofPairs]
    rfl

def overheatCall : CreateCall := (composeLog quiet overheat).toOption.join.getD ⟨"", "", []⟩

theorem overheat_composed : composeLog quiet overheat = .ok (some overheatCall) := by
  obtain ⟨call, composed⟩ := exists_composed (show (composeLog quiet overheat).map Option.isSome = .ok true by decide +kernel)
  rw [overheatCall, composed]
  rfl

def overheatAnnounced : Announcement where
  sys := quiet
  event := overheat
  call := overheatCall
  message := .ofPairs [("xyz.openbmc_project.Logging.Entry", logEntryOf overheat overheatCall)]
  composed := overheat_composed
  announces := announces_logEntryOf overheat_composed

/-- The push fails, and is retried when the timer fires. -/
def retried : List Happening :=
  [.proceed true, .announced overheatAnnounced, .proceed true, .proceed false, .tick, .proceed true, .proceed true]

end MonitorEventing.Message
