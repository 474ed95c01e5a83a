import MonitorEventing.Detection.ResolveLogs
import MonitorEventing.Message.Composer

/-!
# Entries that are read back

The logging service keeps what it was called with as lines of a key and a value. A recovery reads the lines of
the entries of a device, and resolves those of its event.
-/

namespace MonitorEventing.Message
open Accessor EventInfo Detection DeviceId

def CreateCall.lines (call : CreateCall) : List String := call.additionalData.map fun pair => pair.1 ++ "=" ++ pair.2

/-- A value as `AdditionalData` reads it: what comes after a second equals sign is lost. -/
def readBack (value : String) : String := String.ofList (value.toList.takeWhile (· != '='))

theorem splitOnP_head {α : Type} (p : α → Bool) (text : List α) :
    ∃ pieces, text.splitOnP p = text.takeWhile (!p ·) :: pieces := by
  induction text with
  | nil => exact ⟨[], by simp⟩
  | cons c text ih =>
    obtain ⟨pieces, split⟩ := ih
    rw [List.splitOnP_cons_eq_if_modifyHead, split]
    cases separator : p c with
    | true => exact ⟨text.takeWhile (!p ·) :: pieces, by simp [separator]⟩
    | false => exact ⟨pieces, by simp [separator]⟩

/-- A line whose key has no equals sign. -/
theorem split_line {key : String} (plain : '=' ∉ key.toList) (value : String) :
    ∃ pieces, split ['='] (key ++ "=" ++ value).toList =
      key.toList :: (readBack value).toList :: pieces := by
  have free : Text.Free (fun c => ['='].contains c) key.toList := by
    intro c member
    have other : c ≠ '=' := fun same => plain (same ▸ member)
    simp [other]
  have text : (key ++ "=" ++ value).toList = key.toList ++ '=' :: value.toList := by simp
  obtain ⟨pieces, later⟩ := splitOnP_head (fun c => ['='].contains c) value.toList
  refine ⟨pieces, ?_⟩
  rw [split, text, Text.splitOnP_append_cons _ free rfl, later, readBack, String.toList_ofList]
  congr 3
  funext c
  by_cases same : c = '='
  · simp [same]
  · simp [same]

/-! ### Reading a call back -/

/-- The lines of an entry: of its call, and with those of the given keys. -/
structure Keeps (call : CreateCall) (keys : List String) (lines : List String) : Prop where
  own : ∀ line ∈ lines, line ∈ call.lines
  kept : ∀ pair ∈ call.additionalData, pair.1 ∈ keys → pair.1 ++ "=" ++ pair.2 ∈ lines

/-- The keys of a call are told apart by what is before the first equals sign of a line. -/
structure Keyed (pairs : List (String × String)) : Prop where
  plain : ∀ pair ∈ pairs, '=' ∉ pair.1.toList
  unique : (pairs.map (·.1)).Nodup

theorem line_inj {key key' value value' : String} (plain : '=' ∉ key.toList) (plain' : '=' ∉ key'.toList)
    (same : key ++ "=" ++ value = key' ++ "=" ++ value') : key = key' := by
  obtain ⟨pieces, read⟩ := split_line plain value
  obtain ⟨pieces', read'⟩ := split_line plain' value'
  rw [same, read'] at read
  exact String.toList_inj.mp (List.cons.inj read).1.symm

theorem convert_line {key value : String} (plain : '=' ∉ key.toList) (rest : List String) (data : StringMap String) :
    convert ((key ++ "=" ++ value) :: rest) data = convert rest (data.insert key (readBack value)) := by
  obtain ⟨pieces, read⟩ := split_line plain value
  rw [convert, read]
  simp only [String.ofList_toList]

/-- What is read back of a key that is among the lines. -/
theorem convert_lines {pairs : List (String × String)} (keyed : Keyed pairs) {lines : List String}
    (own : ∀ line ∈ lines, line ∈ pairs.map fun pair => pair.1 ++ "=" ++ pair.2) (data : StringMap String) :
    ∃ final, convert lines data = .ok final ∧
      (∀ pair ∈ pairs, pair.1 ++ "=" ++ pair.2 ∈ lines → final[pair.1]? = some (readBack pair.2)) ∧
      ∀ pair ∈ pairs, pair.1 ++ "=" ++ pair.2 ∉ lines → final[pair.1]? = data[pair.1]? := by
  induction lines generalizing data with
  | nil => exact ⟨data, rfl, by simp, by simp⟩
  | cons line rest ih =>
    obtain ⟨here, later⟩ := List.forall_mem_cons.mp own
    obtain ⟨first, inside, rfl⟩ := List.mem_map.mp here
    obtain ⟨final, run, found, missing⟩ := ih later (data.insert first.1 (readBack first.2))
    have alone : ∀ pair ∈ pairs, pair.1 = first.1 → pair = first := fun pair member same =>
      List.inj_on_of_nodup_map keyed.unique member inside same
    refine ⟨final, ?_, ?_, ?_⟩
    · rw [convert_line (keyed.plain first inside), run]
    · intro pair member listed
      by_cases behind : pair.1 ++ "=" ++ pair.2 ∈ rest
      · exact found pair member behind
      · have same : pair = first := by
          apply alone pair member
          rcases List.mem_cons.mp listed with same | listed
          · exact line_inj (keyed.plain pair member) (keyed.plain first inside) same
          · exact absurd listed behind
        rw [missing pair member behind, same, StringMap.getElem?_insert, if_pos rfl]
    · intro pair member absent
      obtain ⟨other, behind⟩ := not_or.mp (mt List.mem_cons.mpr absent)
      have apart : ¬ first.1 = pair.1 := fun same => other (alone pair member same.symm ▸ rfl)
      rw [missing pair member behind, StringMap.getElem?_insert, if_neg apart]

theorem readBack_length (value : String) : (readBack value).toList.length ≤ value.toList.length := by
  rw [readBack, String.toList_ofList]
  exact List.takeWhile_sublist _ |>.length_le

theorem readBack_eq_iff {value : String} : readBack value = value ↔ '=' ∉ value.toList := by
  rw [← String.toList_inj, readBack, String.toList_ofList, List.takeWhile_eq_self_iff]
  constructor
  · intro all member
    simpa using all '=' member
  · intro plain c member
    simpa using fun same : c = '=' => plain (same ▸ member)

/-- The namespace is that of the device, and the device is read back, exactly without a sub type. -/
theorem namespace_iff {event : EventNode} {main : String} :
    getPhosphorLoggingNamespace event = main ∧ readBack event.device = main ↔
      event.subType = "" ∧ event.device = main ∧ '=' ∉ main.toList := by
  by_cases plain : event.subType = ""
  · rw [getPhosphorLoggingNamespace, if_neg (not_not.mpr plain), and_iff_right plain]
    refine and_congr_right fun same => ?_
    rw [same, readBack_eq_iff]
  · rw [getPhosphorLoggingNamespace, if_pos plain]
    refine iff_of_false (fun both => ?_) (fun all => plain all.1)
    obtain ⟨longer, read⟩ := both
    have lengths := congrArg (fun s : String => s.toList.length) longer
    have short := readBack_length event.device
    rw [read] at short
    simp only [String.toList_append, List.length_append] at lengths
    have one : "_".toList.length = 1 := rfl
    omega

/-! ### The journal -/

def CreateCall.namespaceOf (call : CreateCall) : String := (call.additionalData.lookup "namespace").getD ""

/-- An entry of the logging service, of an event that was handled. -/
structure Entry where
  event : EventNode
  call : CreateCall
  object : LogObject
  resolved : Bool

def readKeys : List String := ["REDFISH_MESSAGE_ARGS", "EVENT_NAME", "DEVICE_NAME", "FULL_DEVICE_NAME"]

/-- The entry was made by the composer, and the service has kept what a recovery reads of it. -/
structure Entry.Written (entry : Entry) : Prop where
  composed : ∃ sys, composeLog sys entry.event = .ok (some entry.call)
  data : HasAdditionalData entry.object
  lines : ∃ lines, ownAdditionalData entry.object = some lines ∧ Keeps entry.call readKeys lines
  named : ∃ full, entry.event.fullDeviceName = .ok full ∧ readBack full ≠ ""

def unresolvedIn (journal : List Entry) (devId : String) : List Entry :=
  journal.filter fun entry => !entry.resolved && entry.call.namespaceOf == devId

/-- What `GetAll` of the logging service replies: the unresolved entries of a namespace, in an order of its own.
It may fail. -/
def Lists (getAll : List Entry → String → Except Exn ManagedObjectType) : Prop :=
  ∀ journal devId reply, getAll journal devId = .ok reply →
    reply.Perm ((unresolvedIn journal devId).map (·.object))

/-- An entry of the event on the device. -/
def IsOf (eventName main fullDeviceName : String) (entry : Entry) : Prop :=
  entry.event.subType = "" ∧ entry.event.device = main ∧ '=' ∉ main.toList ∧
    readBack entry.event.event = eventName ∧ entry.event.fullDeviceName.map readBack = .ok fullDeviceName

instance (eventName main fullDeviceName : String) (entry : Entry) : Decidable (IsOf eventName main fullDeviceName entry) := by
  unfold IsOf
  infer_instance

theorem composeLog_ok {sys : System} {event : EventNode} {call : CreateCall} (h : composeLog sys event = .ok (some call)) :
    ∃ telemetries messageArgs originOfCondition fullDeviceName, event.fullDeviceName = .ok fullDeviceName ∧
      call = {
        message := event.event
        severity := makeSeverity event.severity
        additionalData := [
          ("xyz.openbmc_project.Logging.Entry.EventId", event.errorId),
          ("xyz.openbmc_project.Logging.Entry.Resolution", event.resolution),
          ("REDFISH_MESSAGE_ID", event.messageId),
          ("DEVICE_EVENT_DATA", telemetries),
          ("namespace", getPhosphorLoggingNamespace event),
          ("REDFISH_MESSAGE_ARGS", messageArgs),
          ("REDFISH_ORIGIN_OF_CONDITION", originOfCondition),
          ("DEVICE_NAME", event.device),
          ("FULL_DEVICE_NAME", fullDeviceName),
          ("EVENT_NAME", event.event),
          ("RECOVERY_TYPE", if event.recoveryAccessor.isEmpty then "other" else "property_change")] } := by
  unfold composeLog at h
  obtain ⟨telemetries, _, h⟩ := bind_ok h
  obtain ⟨originOfCondition, _, h⟩ := bind_ok h
  split at h
  · cases pure_ok_iff.mp h
  · obtain ⟨fullDeviceName, named, h⟩ := bind_ok h
    exact ⟨telemetries, _, originOfCondition, fullDeviceName, named, (Option.some.inj (pure_ok_iff.mp h)).symm⟩

def createKeys : List String :=
  ["xyz.openbmc_project.Logging.Entry.EventId", "xyz.openbmc_project.Logging.Entry.Resolution", "REDFISH_MESSAGE_ID",
    "DEVICE_EVENT_DATA", "namespace", "REDFISH_MESSAGE_ARGS", "REDFISH_ORIGIN_OF_CONDITION", "DEVICE_NAME",
    "FULL_DEVICE_NAME", "EVENT_NAME", "RECOVERY_TYPE"]

theorem composeLog_keyed {sys : System} {event : EventNode} {call : CreateCall}
    (h : composeLog sys event = .ok (some call)) : Keyed call.additionalData := by
  obtain ⟨_, _, _, _, _, rfl⟩ := composeLog_ok h
  have plain : ∀ key ∈ createKeys, '=' ∉ key.toList := by decide
  have unique : createKeys.Nodup := by decide
  exact ⟨fun pair member => plain pair.1 (List.mem_map_of_mem member), unique⟩

/-- What a recovery reads of an entry. -/
theorem Entry.Written.read {entry : Entry} (written : entry.Written) :
    ∃ lines data fullDeviceName, ownAdditionalData entry.object = some lines ∧ convert lines ∅ = .ok data ∧
      entry.call.namespaceOf = getPhosphorLoggingNamespace entry.event ∧
      entry.event.fullDeviceName = .ok fullDeviceName ∧ readBack fullDeviceName ≠ "" ∧
      data["EVENT_NAME"]? = some (readBack entry.event.event) ∧
      data["DEVICE_NAME"]? = some (readBack entry.event.device) ∧
      data["FULL_DEVICE_NAME"]? = some (readBack fullDeviceName) := by
  obtain ⟨sys, composed⟩ := written.composed
  obtain ⟨lines, own, keeps⟩ := written.lines
  obtain ⟨full, name, filled⟩ := written.named
  obtain ⟨data, run, found, _⟩ := convert_lines (composeLog_keyed composed) keeps.own ∅
  obtain ⟨telemetries, messageArgs, originOfCondition, other, named, call⟩ := composeLog_ok composed
  obtain rfl := Except.ok.inj (named.symm.trans name)
  have value : ∀ key text, (key, text) ∈ entry.call.additionalData → key ∈ readKeys →
      data[key]? = some (readBack text) := fun key text member known =>
    found (key, text) member (keeps.kept (key, text) member known)
  refine ⟨lines, data, other, own, run, by rw [call]; rfl, named, filled, ?_, ?_, ?_⟩
  · exact value _ _ (by rw [call]; simp) (by decide)
  · exact value _ _ (by rw [call]; simp) (by decide)
  · exact value _ _ (by rw [call]; simp) (by decide)

section
variable {eventName fullDeviceName main : String} {others : List String}

theorem Entry.Written.recovered_iff {entry : Entry} (written : entry.Written) (named : eventName ≠ "") (filled : main ≠ "")
    (names : EventNode.separateFullDeviceName fullDeviceName = main :: others) :
    ∃ lines data, ownAdditionalData entry.object = some lines ∧ convert lines ∅ = .ok data ∧
      (entry.call.namespaceOf = main ∧ isRecovered eventName main fullDeviceName (main :: others) data = true ↔
        IsOf eventName main fullDeviceName entry) := by
  obtain ⟨lines, data, full, own, run, space, name, given, event, device, whole⟩ := written.read
  refine ⟨lines, data, own, run, ?_⟩
  rw [isRecovered_iff named filled names, NamesDevice, names, IsOf, name, space, event, device, whole]
  have unnamed : ¬ data.getD "FULL_DEVICE_NAME" "" = "" := by
    rw [Std.TreeMap.getD_eq_getD_getElem?, whole]
    exact given
  have apart := @namespace_iff entry.event main
  simp only [Option.some.injEq, List.head?_cons, Option.mem_def, exists_eq_left', unnamed, false_and, or_false, Except.map,
    Except.ok.injEq]
  tauto

/-- A loop over entries with data of their own. -/
theorem resolveFrom_entries {recovered : StringMap String → Bool} {hit : Entry → Bool} {entries : List Entry}
    (data : ∀ entry ∈ entries, HasAdditionalData entry.object ∧ ∃ lines data, ownAdditionalData entry.object = some lines ∧
      convert lines ∅ = .ok data ∧ recovered data = hit entry) (raw : Option (List String)) :
    resolveFrom recovered (entries.map (·.object)) raw = (.ok (), (entries.filter hit).map (·.object.1)) := by
  induction entries generalizing raw with
  | nil => rfl
  | cons entry rest ih =>
    obtain ⟨⟨has, lines, data, own, run, answer⟩, later⟩ := List.forall_mem_cons.mp data
    have read : readInterfaces raw entry.object.2 = some lines := by
      rw [readInterfaces_eq, if_pos has, own]
    rw [List.map_cons, resolveFrom, read]
    simp only [run, ih later, answer, List.filter_cons]
    cases hit entry with
    | true => rfl
    | false => rfl

theorem Lists.entries {getAll : List Entry → String → Except Exn ManagedObjectType} (lists : Lists getAll)
    {journal : List Entry} {devId : String} {reply : ManagedObjectType} (answer : getAll journal devId = .ok reply) :
    ∃ entries : List Entry, reply = entries.map (·.object) ∧ entries.Perm (unresolvedIn journal devId) := by
  have perm := lists journal devId reply answer
  have each : List.Forall₂ (fun (object : LogObject) (entry : Entry) => object = entry.object)
      ((unresolvedIn journal devId).map (·.object)) (unresolvedIn journal devId) := by
    rw [List.forall₂_map_left_iff, List.forall₂_same]
    exact fun _ _ => rfl
  obtain ⟨entries, same, others⟩ := List.perm_comp_forall₂ perm each
  refine ⟨entries, ?_, others⟩
  rw [← List.forall₂_eq_eq_eq, List.forall₂_map_right_iff]
  exact same

end

/-! ### An entry that is resolved -/

def overheat : EventNode where
  event := "Overheat"
  errorId := "GPU-OVERHEAT"
  deviceTypes := ["GPU_[1-2]"]
  device := "GPU_1"
  deviceIndexTuple := some (.ofList [1])
  originOfCondition := some "/redfish/v1/Chassis/GPU_[1-2]"
  severity := "Critical"

def quiet : System where
  env := silent 0
  getPrimaryDevIdPaths _ := .ok []
  what _ := ""

/-- The service lists the newest entries first. -/
def newestFirst (journal : List Entry) (devId : String) : Except Exn ManagedObjectType :=
  .ok ((unresolvedIn journal devId).reverse.map (·.object))

/-- An event of which a log is written, with its path and whether it is resolved. -/
def Logs (event : EventNode) (path : String) (resolved : Bool) (entry : Entry) : Prop :=
  entry.Written ∧ entry.event = event ∧ entry.object.1 = path ∧ entry.resolved = resolved

theorem exists_composed {sys : System} {event : EventNode}
    (composed : (composeLog sys event).map Option.isSome = .ok true) : ∃ call, composeLog sys event = .ok (some call) := by
  obtain ⟨result, run, some⟩ := map_ok composed
  obtain ⟨call, rfl⟩ := Option.isSome_iff_exists.mp some
  exact ⟨call, run⟩

end MonitorEventing.Message
