import MonitorEventing.EventInfo.EventNode

/-!
# Resolving logs

`resolveDeviceLogs`: the entries of the log that a recovery resolves. The loop over the entries
carries the data it last read from one entry to the next.
-/

namespace MonitorEventing.Detection
open DeviceId EventInfo

/-- The variants of the bus: a list of strings, or anything else. -/
inductive DbusVariant where
  | strings (list : List String)
  | other
  deriving DecidableEq, Repr

def DbusVariant.getStrings : DbusVariant → Option (List String)
  | .strings list => some list
  | .other => none

abbrev DBusPropertiesMap : Type := List (String × DbusVariant)
abbrev DBusInteracesMap : Type := List (String × DBusPropertiesMap)
abbrev LogObject : Type := String × DBusInteracesMap
abbrev ManagedObjectType : Type := List LogObject

/-- `AdditionalData::convert`, the last of several values of a key being kept. -/
def convert : List String → StringMap String → Except Exn (StringMap String)
  | [], data => pure data
  | kv :: rest, data =>
    match split ['='] kv.toList with
    | key :: value :: _ => convert rest (data.insert (String.ofList key) (String.ofList value))
    | _ => .error .undefined

/-! ### The loops -/

def readProperties (additionalDataRaw : Option (List String)) (properties : DBusPropertiesMap) : Option (List String) :=
  properties.foldl (fun raw propertyMap =>
    if propertyMap.1 = "AdditionalData" then propertyMap.2.getStrings else raw) additionalDataRaw

def readInterfaces (additionalDataRaw : Option (List String)) (interfaces : DBusInteracesMap) : Option (List String) :=
  interfaces.foldl (fun raw interfaceMap =>
    if interfaceMap.1 = "xyz.openbmc_project.Logging.Entry" then readProperties raw interfaceMap.2 else raw)
    additionalDataRaw

def foundAllDevices (fullDeviceName : String) (deviceNames : List String) (additional : StringMap String) : Bool :=
  let messageArgs := additional.getD "REDFISH_MESSAGE_ARGS" ""
  let addFullDeviceName := additional.getD "FULL_DEVICE_NAME" ""
  if addFullDeviceName = "" ∧ deviceNames.length > 1 then
    deviceNames.tail.reverse.all fun name => Text.occursIn name.toList messageArgs.toList
  else fullDeviceName = addFullDeviceName

/-- Whether an entry with the data is resolved. -/
def isRecovered (eventName devId fullDeviceName : String) (deviceNames : List String) (additional : StringMap String) :
    Bool :=
  let addlEventName := additional.getD "EVENT_NAME" ""
  let addDeviceName := additional.getD "DEVICE_NAME" ""
  if eventName ≠ addlEventName ∨ addDeviceName = "" ∨ devId ≠ addDeviceName then false
  else foundAllDevices fullDeviceName deviceNames additional

/-- The loop over the entries: what it throws, and the paths it has set Resolved on. -/
def resolveFrom (recovered : StringMap String → Bool) :
    ManagedObjectType → Option (List String) → Except Exn Unit × List String
  | [], _ => (.ok (), [])
  | (path, interfaces) :: rest, additionalDataRaw =>
    let additionalDataRaw := readInterfaces additionalDataRaw interfaces
    match additionalDataRaw with
    | none => resolveFrom recovered rest additionalDataRaw
    | some lines =>
      match convert lines ∅ with
      | .error e => (.error e, [])
      | .ok additional =>
        let (result, resolved) := resolveFrom recovered rest additionalDataRaw
        (result, if recovered additional then path :: resolved else resolved)

/-- `resolveDeviceLogs`, with what `GetAll` answers for a device. Without an event name everything is
resolved. -/
def resolveDeviceLogs (getAll : String → Except Exn ManagedObjectType) (eventName fullDeviceName : String) :
    Except Exn Unit × List String :=
  let deviceNames := EventNode.separateFullDeviceName fullDeviceName
  match vectorAt deviceNames 0 with
  | .error e => (.error e, [])
  | .ok devId =>
    match getAll devId with
    | .error e => (.error e, [])
    | .ok result =>
      if eventName = "" then (.ok (), result.map (·.1))
      else resolveFrom (isRecovered eventName devId fullDeviceName deviceNames) result none

/-! ### What belongs to an entry -/

def additionalDataOf (object : LogObject) : List DbusVariant :=
  (object.2.filter fun interfaceMap => interfaceMap.1 = "xyz.openbmc_project.Logging.Entry").flatMap fun interfaceMap =>
    (interfaceMap.2.filter fun propertyMap => propertyMap.1 = "AdditionalData").map (·.2)

def HasAdditionalData (object : LogObject) : Prop := additionalDataOf object ≠ []

instance (object : LogObject) : Decidable (HasAdditionalData object) :=
  inferInstanceAs (Decidable (additionalDataOf object ≠ []))

def ownAdditionalData (object : LogObject) : Option (List String) :=
  (additionalDataOf object).getLast?.bind DbusVariant.getStrings

/-- The data names the event and the device. -/
def NamesDevice (eventName fullDeviceName : String) (data : StringMap String) : Prop :=
  let deviceNames := EventNode.separateFullDeviceName fullDeviceName
  data["EVENT_NAME"]? = some eventName ∧
  (∃ main ∈ deviceNames.head?, data["DEVICE_NAME"]? = some main) ∧
  (data["FULL_DEVICE_NAME"]? = some fullDeviceName ∨
    (data.getD "FULL_DEVICE_NAME" "" = "" ∧ 1 < deviceNames.length ∧
      ∀ name ∈ deviceNames.tail, name.toList <:+: (data.getD "REDFISH_MESSAGE_ARGS" "").toList))

instance (eventName fullDeviceName : String) (data : StringMap String) :
    Decidable (NamesDevice eventName fullDeviceName data) := by
  unfold NamesDevice
  infer_instance

def Concerns (eventName fullDeviceName : String) (object : LogObject) : Prop :=
  ∃ lines ∈ ownAdditionalData object, ∃ data ∈ (convert lines ∅).toOption, NamesDevice eventName fullDeviceName data

instance (eventName fullDeviceName : String) (object : LogObject) : Decidable (Concerns eventName fullDeviceName object) := by
  unfold Concerns
  infer_instance

/-- No entry without data of its own follows one that is concerned, and none is by an empty device name. -/
def Separated (eventName fullDeviceName : String) (reply : ManagedObjectType) : Prop :=
  (∀ object ∈ reply, Concerns eventName fullDeviceName object →
    (EventNode.separateFullDeviceName fullDeviceName).head? ≠ some "") ∧
  reply.IsChain fun object next => Concerns eventName fullDeviceName object → HasAdditionalData next

/-! ### Data carried along -/

theorem foldl_const_last {α β : Type} (f : α → β) (b : β) (xs : List α) :
    xs.foldl (fun _ x => f x) b = (xs.getLast?.map f).getD b := by
  induction xs generalizing b with
  | nil => rfl
  | cons x xs ih =>
    rw [List.foldl_cons, ih, List.getLast?_cons]
    cases xs.getLast? <;> rfl

theorem readInterfaces_eq (raw : Option (List String)) (object : LogObject) :
    readInterfaces raw object.2 = if HasAdditionalData object then ownAdditionalData object else raw := by
  have properties : ∀ (raw : Option (List String)) (ps : DBusPropertiesMap), readProperties raw ps =
      ((ps.filter fun propertyMap => propertyMap.1 = "AdditionalData").map (·.2)).foldl (fun _ v => v.getStrings) raw := by
    intro raw ps
    rw [List.foldl_map, List.foldl_filter]
    simp only [readProperties, decide_eq_true_eq]
  have flat : readInterfaces raw object.2 = (additionalDataOf object).foldl (fun _ v => v.getStrings) raw := by
    rw [additionalDataOf, List.foldl_flatMap, List.foldl_filter]
    simp only [readInterfaces, properties, decide_eq_true_eq]
  rw [flat, foldl_const_last, ownAdditionalData]
  cases last : (additionalDataOf object).getLast? with
  | none =>
    have none : ¬ HasAdditionalData object := not_not.mpr (List.getLast?_eq_none_iff.mp last)
    rw [if_neg none]
    rfl
  | some value =>
    have own : HasAdditionalData object := by
      intro none
      simp [none] at last
    rw [if_pos own]
    rfl

theorem own_eq_none {object : LogObject} (missing : ¬ HasAdditionalData object) : ownAdditionalData object = none := by
  have empty : additionalDataOf object = [] := not_not.mp missing
  rw [ownAdditionalData, empty]
  rfl

theorem convert_ok {lines : List String} (items : ∀ item ∈ lines, '=' ∈ item.toList) (data : StringMap String) :
    ∃ parsed, convert lines data = .ok parsed := by
  induction lines generalizing data with
  | nil => exact ⟨data, rfl⟩
  | cons kv rest ih =>
    obtain ⟨here, later⟩ := List.forall_mem_cons.mp items
    unfold convert
    cases pieces : split ['='] kv.toList with
    | nil => exact absurd pieces (List.splitOnP_ne_nil _ _)
    | cons key others =>
      cases others with
      | nil =>
        obtain ⟨same, free⟩ := Text.splitOnP_eq_singleton_iff.mp pieces
        exact absurd (free '=' (same ▸ here)) (by decide)
      | cons value _ => exact ih later _

/-! ### The run -/

section
variable (recovered : StringMap String → Bool)

def isHit (raw : Option (List String)) : Bool :=
  match raw.bind fun lines => (convert lines ∅).toOption with
  | none => false
  | some data => recovered data

def Parses (raw : Option (List String)) : Prop := ∀ lines ∈ raw, ∃ data, convert lines ∅ = .ok data

variable {recovered}

theorem resolveFrom_cons {object : LogObject} {rest : ManagedObjectType} {raw : Option (List String)}
    (parses : Parses (readInterfaces raw object.2)) :
    (resolveFrom recovered (object :: rest) raw).2 =
      (if isHit recovered (readInterfaces raw object.2) then [object.1] else []) ++
        (resolveFrom recovered rest (readInterfaces raw object.2)).2 := by
  obtain ⟨path, interfaces⟩ := object
  rw [resolveFrom]
  dsimp only at parses ⊢
  cases carried : readInterfaces raw interfaces with
  | none => rfl
  | some lines =>
    obtain ⟨data, converted⟩ := parses lines carried
    simp only [isHit, Option.bind_some, converted, Except.toOption]
    cases recovered data with
    | false => rfl
    | true => rfl

def hits (recovered : StringMap String → Bool) (objects : ManagedObjectType) : List String :=
  (objects.filter fun object => isHit recovered (ownAdditionalData object)).map (·.1)

theorem hits_cons (object : LogObject) (rest : ManagedObjectType) : hits recovered (object :: rest) =
    (if isHit recovered (ownAdditionalData object) then [object.1] else []) ++ hits recovered rest := by
  unfold hits
  rw [List.filter_cons]
  split <;> rfl

theorem parses_carried {raw : Option (List String)} {object : LogObject} (here : Parses raw)
    (own : Parses (ownAdditionalData object)) : Parses (readInterfaces raw object.2) := by
  rw [readInterfaces_eq]
  split
  · exact own
  · exact here

variable (recovered) in
theorem hits_length_le {objects : ManagedObjectType} {raw : Option (List String)} (here : Parses raw)
    (own : ∀ object ∈ objects, Parses (ownAdditionalData object)) :
    (hits recovered objects).length ≤ (resolveFrom recovered objects raw).2.length := by
  induction objects generalizing raw with
  | nil => exact Nat.zero_le _
  | cons object rest ih =>
    obtain ⟨first, later⟩ := List.forall_mem_cons.mp own
    have carried := parses_carried here first
    have le := ih carried later
    rw [hits_cons, resolveFrom_cons carried, List.length_append, List.length_append]
    by_cases has : HasAdditionalData object
    · rw [readInterfaces_eq, if_pos has] at le ⊢
      omega
    · have missed : isHit recovered (ownAdditionalData object) = false := by rw [own_eq_none has]; rfl
      simp only [missed, Bool.false_eq_true, if_false, List.length_nil]
      omega

variable (recovered) in
/-- Only hits are resolved, exactly if no entry without data follows data that is a hit. -/
theorem resolveFrom_iff {objects : ManagedObjectType} {raw : Option (List String)} (here : Parses raw)
    (own : ∀ object ∈ objects, Parses (ownAdditionalData object)) :
    (resolveFrom recovered objects raw).2 = hits recovered objects ↔
      (∀ object ∈ objects.head?, isHit recovered raw = true → HasAdditionalData object) ∧
      objects.IsChain fun object next => isHit recovered (ownAdditionalData object) = true → HasAdditionalData next := by
  induction objects generalizing raw with
  | nil => simp [resolveFrom, hits]
  | cons object rest ih =>
    obtain ⟨first, later⟩ := List.forall_mem_cons.mp own
    have carried := parses_carried here first
    have rest_iff := ih carried later
    rw [resolveFrom_cons carried, hits_cons, List.isChain_cons]
    simp only [List.head?_cons, Option.mem_def, Option.some.injEq, forall_eq']
    by_cases has : HasAdditionalData object
    · rw [readInterfaces_eq, if_pos has] at rest_iff ⊢
      rw [List.append_cancel_left_eq, rest_iff]
      exact (and_iff_right fun _ => has).symm
    · have missed : isHit recovered (ownAdditionalData object) = false := by rw [own_eq_none has]; rfl
      rw [readInterfaces_eq, if_neg has] at rest_iff ⊢
      rw [missed]
      cases hit : isHit recovered raw with
      | false =>
        rw [hit] at rest_iff
        simpa using rest_iff
      | true =>
        -- the entry is resolved by data that is not its own
        have short := hits_length_le recovered here later
        constructor
        · intro same
          have lengths := congrArg List.length same
          simp only [if_true, Bool.false_eq_true, if_false, List.nil_append, List.length_append, List.length_singleton]
            at lengths
          omega
        · intro separated
          exact absurd (separated.1 rfl) has

theorem isHit_iff {raw : Option (List String)} : isHit recovered raw = true ↔
    ∃ lines ∈ raw, ∃ data ∈ (convert lines ∅).toOption, recovered data = true := by
  unfold isHit
  cases raw with
  | none => simp
  | some lines =>
    cases parsed : (convert lines ∅).toOption with
    | none => simp [parsed]
    | some data => simp [parsed]

end

/-! ### Entries and devices -/

theorem getD_eq_iff {data : StringMap String} {key value : String} (filled : value ≠ "") :
    data.getD key "" = value ↔ data[key]? = some value := by
  rw [Std.TreeMap.getD_eq_getD_getElem?]
  cases data[key]? with
  | none => simp [Ne.symm filled]
  | some other => simp

section
variable {eventName fullDeviceName main : String} {others : List String}

theorem isRecovered_iff (named : eventName ≠ "") (filled : main ≠ "")
    (names : EventNode.separateFullDeviceName fullDeviceName = main :: others) (data : StringMap String) :
    isRecovered eventName main fullDeviceName (main :: others) data = true ↔
      NamesDevice eventName fullDeviceName data := by
  have full : fullDeviceName ≠ "" := by
    intro blank
    rw [blank, EventNode.separateFullDeviceName, if_pos rfl] at names
    cases names
  have first : (∃ m ∈ (main :: others).head?, data["DEVICE_NAME"]? = some m) ↔ data.getD "DEVICE_NAME" "" = main := by
    rw [getD_eq_iff filled]
    simp
  unfold isRecovered NamesDevice
  simp only [names]
  rw [first, ← getD_eq_iff named, ← getD_eq_iff full]
  by_cases event : data.getD "EVENT_NAME" "" = eventName
  · by_cases device : data.getD "DEVICE_NAME" "" = main
    · rw [if_neg (by simp [event, device, filled]), and_iff_right event, and_iff_right device]
      unfold foundAllDevices
      by_cases old : data.getD "FULL_DEVICE_NAME" "" = "" ∧ (main :: others).length > 1
      · have blank : data.getD "FULL_DEVICE_NAME" "" ≠ fullDeviceName := by
          rw [old.1]
          exact Ne.symm full
        rw [if_pos old, or_iff_right blank, and_iff_right old.1, and_iff_right old.2]
        simp [Text.occursIn_iff]
      · rw [if_neg old, or_iff_left fun third => old ⟨third.1, third.2.1⟩, decide_eq_true_eq, eq_comm]
    · rw [if_pos (Or.inr (Or.inr (Ne.symm device)))]
      simp [device]
  · rw [if_pos (Or.inl (Ne.symm event))]
    simp [event]

theorem isRecovered_blank (deviceNames : List String) (data : StringMap String) :
    isRecovered eventName "" fullDeviceName deviceNames data = false := by
  unfold isRecovered
  by_cases blank : data.getD "DEVICE_NAME" "" = ""
  · exact if_pos (Or.inr (Or.inl blank))
  · exact if_pos (Or.inr (Or.inr (Ne.symm blank)))

end

theorem isChain_of_none {P Q : LogObject → Prop} {objects : List LogObject} (none : ∀ object ∈ objects, ¬ P object) :
    objects.IsChain fun object next => P object → Q next := by
  induction objects with
  | nil => exact List.IsChain.nil
  | cons object rest ih =>
    obtain ⟨here, later⟩ := List.forall_mem_cons.mp none
    rw [List.isChain_cons]
    exact ⟨fun _ _ concerned => absurd concerned here, ih later⟩

theorem separated_iff_none {eventName fullDeviceName : String} {reply : ManagedObjectType}
    (blank : ∀ object ∈ reply, Concerns eventName fullDeviceName object →
      (EventNode.separateFullDeviceName fullDeviceName).head? = some "") :
    [] = (reply.filter fun object => Concerns eventName fullDeviceName object).map (·.1) ↔
      Separated eventName fullDeviceName reply := by
  have empty : [] = (reply.filter fun object => Concerns eventName fullDeviceName object).map (·.1) ↔
      ∀ object ∈ reply, ¬ Concerns eventName fullDeviceName object := by
    rw [eq_comm, List.map_eq_nil_iff, List.filter_eq_nil_iff]
    simp only [decide_eq_true_eq]
  rw [empty]
  constructor
  · intro none
    exact ⟨fun object member concerned => absurd concerned (none object member), isChain_of_none none⟩
  · intro separated object member concerned
    exact separated.1 object member concerned (blank object member concerned)

/-- `resolveDeviceLogs` resolves the entries whose own data names the event and the device, each once and
no others, exactly if no entry without data follows one of them and none is found by an empty device name. -/
theorem resolveDeviceLogs_iff (reply : ManagedObjectType) (eventName fullDeviceName : String) (named : eventName ≠ "")
    (items : ∀ object ∈ reply, ∀ lines ∈ ownAdditionalData object, ∀ item ∈ lines, '=' ∈ item.toList) :
    (resolveDeviceLogs (fun _ => .ok reply) eventName fullDeviceName).2 =
      (reply.filter fun object => Concerns eventName fullDeviceName object).map (·.1) ↔
      Separated eventName fullDeviceName reply := by
  have own : ∀ object ∈ reply, Parses (ownAdditionalData object) := by
    intro object member lines read
    exact convert_ok (items object member lines read) ∅
  have nothing : Parses none := by
    intro lines read
    cases read
  unfold resolveDeviceLogs
  cases names : EventNode.separateFullDeviceName fullDeviceName with
  | nil =>
    apply separated_iff_none
    intro object _ concerned
    obtain ⟨_, _, _, _, _, ⟨main, here, _⟩, _⟩ := concerned
    rw [names] at here
    cases here
  | cons main others =>
    simp only [vectorAt, List.getElem?_cons_zero, if_neg named]
    by_cases blank : main = ""
    · subst blank
      have missed : ∀ raw, isHit (isRecovered eventName "" fullDeviceName ("" :: others)) raw = false := by
        intro raw
        rw [← Bool.not_eq_true, isHit_iff]
        intro hit
        obtain ⟨_, _, data, _, found⟩ := hit
        rw [isRecovered_blank] at found
        cases found
      have none : (resolveFrom (isRecovered eventName "" fullDeviceName ("" :: others)) reply none).2 = [] := by
        rw [(resolveFrom_iff _ nothing own).mpr]
        · simp [hits, missed]
        · refine ⟨fun _ _ hit => ?_, isChain_of_none fun object _ => by simp [missed]⟩
          rw [missed] at hit
          cases hit
      rw [none]
      apply separated_iff_none
      intro object _ _
      rw [names]
      rfl
    · have hit : ∀ object, isHit (isRecovered eventName main fullDeviceName (main :: others)) (ownAdditionalData object) =
          decide (Concerns eventName fullDeviceName object) := by
        intro object
        rw [Bool.eq_iff_iff, isHit_iff, decide_eq_true_eq]
        simp only [isRecovered_iff named blank names]
        rfl
      have chain := resolveFrom_iff (isRecovered eventName main fullDeviceName (main :: others)) nothing own
      simp only [hits, hit, decide_eq_true_eq] at chain
      rw [chain, Separated, names]
      constructor
      · intro both
        refine ⟨fun _ _ _ same => blank (Option.some.inj same), both.2⟩
      · intro separated
        refine ⟨fun _ _ hit => ?_, separated.2⟩
        cases hit

/-! ### An entry without data -/

def logEntry (path : String) (lines : List String) : LogObject :=
  (path, [("xyz.openbmc_project.Logging.Entry", [("AdditionalData", .strings lines), ("Resolved", .other)])])

def bareEntry (path : String) : LogObject := (path, [("xyz.openbmc_project.Logging.Entry", [("Resolved", .other)])])

def linkDown : List String := ["EVENT_NAME=Link Down", "DEVICE_NAME=NVSwitch_0", "FULL_DEVICE_NAME=NVSwitch_0/NVLink_3"]

theorem resolveDeviceLogs_iff_first :
    (resolveDeviceLogs (fun _ => .ok [bareEntry "/entry/1", logEntry "/entry/2" linkDown]) "Link Down"
      "NVSwitch_0/NVLink_3").2 = ["/entry/2"] := by
  have separated : Separated "Link Down" "NVSwitch_0/NVLink_3" [bareEntry "/entry/1", logEntry "/entry/2" linkDown] := by
    unfold Separated
    decide
  rw [(resolveDeviceLogs_iff _ "Link Down" "NVSwitch_0/NVLink_3" (by decide) (by decide)).mpr separated]
  decide

/-- The entry without data after it is resolved as well. -/
theorem resolveDeviceLogs_carried :
    (resolveDeviceLogs (fun _ => .ok [logEntry "/entry/2" linkDown, bareEntry "/entry/3"]) "Link Down"
      "NVSwitch_0/NVLink_3").2 = ["/entry/2", "/entry/3"] ∧
    ownAdditionalData (bareEntry "/entry/3") = none ∧
    ¬ Concerns "Link Down" "NVSwitch_0/NVLink_3" (bareEntry "/entry/3") := by
  decide

end MonitorEventing.Detection
