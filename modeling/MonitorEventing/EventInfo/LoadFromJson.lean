import MonitorEventing.Accessor.View
import MonitorEventing.Detection.PropertyFilter

/-!
# Loading the event info file

The loader reads a document its schema has accepted before. It fills the map of events, the property
filter and the three views, event after event.
-/

namespace MonitorEventing.EventInfo
open Accessor DataAccessor DeviceId Dat Schema

/-- What is filled. A view shares its events with the others. -/
structure Loaded (hashFn : String → UInt64) where
  eventMap : EventMap := ∅
  propertyFilterSet : PropertyFilterSet := ∅
  eventTriggerView : EventView hashFn EventNode := []
  eventAccessorView : EventView hashFn EventNode := []
  eventRecoveryView : EventView hashFn EventNode := []

variable {hashFn : String → UInt64} (buckets : EventView.Buckets hashFn EventNode)

/-- Only events with a recovery are in the last view. -/
def insertRecovery (view : EventView hashFn EventNode) (eventNode : EventNode) :
    Except Exn (EventView hashFn EventNode) :=
  if eventNode.recoveryAccessor.isEmpty then pure view
  else EventView.insert buckets view eventNode.recoveryAccessor eventNode

/-- One round of the loop over the events of a device type, which are collected in `v`. -/
def loadEvent : List EventNode × Loaded hashFn → Json → Except Exn (List EventNode × Loaded hashFn)
  | (v, loaded), event => do
    let name ← event.index "event"
    let _ ← name.getString
    let eventNode ← EventNode.loadFrom event
    let propertyFilterSet ← EventNode.addEventToPropertyFilterSet loaded.propertyFilterSet eventNode
    let eventTriggerView ← EventView.insert buckets loaded.eventTriggerView eventNode.trigger eventNode
    let eventAccessorView ← EventView.insert buckets loaded.eventAccessorView eventNode.accessor eventNode
    let eventRecoveryView ← insertRecovery buckets loaded.eventRecoveryView eventNode
    pure (v ++ [eventNode],
      { loaded with propertyFilterSet, eventTriggerView, eventAccessorView, eventRecoveryView })

/-- One round of the loop over the device types. -/
def loadDeviceType (loaded : Loaded hashFn) (el : String × Json) : Except Exn (Loaded hashFn) := do
  let (v, loaded) ← (elements el.2).foldlM (loadEvent buckets) ([], loaded)
  pure { loaded with eventMap := loaded.eventMap.insertIfNew el.1 v }

def loadFromJson (loaded : Loaded hashFn) (j : Json) : Except Exn (Loaded hashFn) :=
  (itemsOf j).foldlM (loadDeviceType buckets) loaded

/-! ### What is read of an event -/

def accessorOf (event : Json) : DataAccessor := ({} : DataAccessor).assign ((event.get? "accessor").getD .null)

def triggerOf (event : Json) : DataAccessor :=
  let eventTrigger := (event.get? "event_trigger").getD .null
  if eventTrigger.isEmpty then accessorOf event else ({} : DataAccessor).assign eventTrigger

def recoveryOf (event : Json) : DataAccessor := ({} : DataAccessor).assign ((event.get? "recovery").getD .null)

theorem jsonAt_ok_iff {j : Json} {key : String} {value : Json} : jsonAt j key = .ok value ↔ j.get? key = some value := by
  cases j with
  | object members =>
    simp only [jsonAt, Json.get?, Json.items]
    cases members.lookup key <;> simp
  | _ => simp [jsonAt, Json.get?, Json.items]

theorem stringAt_ok {j : Json} {key s : String} (read : j.get? key = some (.string s)) : stringAt j key = .ok s :=
  bind_ok_iff.mpr ⟨_, jsonAt_ok_iff.mpr read, rfl⟩

theorem bind_jsonAt {α : Type} {j value : Json} {key : String} {f : Json → Except Exn α} (read : j.get? key = some value)
    (rest : ∃ a, f value = .ok a) : ∃ a, jsonAt j key >>= f = .ok a := by
  refine bind_total ⟨value, jsonAt_ok_iff.mpr read⟩ fun other again => ?_
  obtain rfl := Option.some.inj (read.symm.trans (jsonAt_ok_iff.mp again))
  exact rest

theorem optionalAt_total {α : Type} {get : Json → Except Exn α} {default : α} {j : Json} {key : String}
    (readable : ∀ value, j.get? key = some value → ∃ x, get value = .ok x) :
    ∃ x, optionalAt get default j key = .ok x := by
  unfold optionalAt
  cases read : j.get? key with
  | none => exact ⟨default, rfl⟩
  | some value => exact readable value read

/-- What loading leaves of the accessors. -/
theorem loadFrom_accessors {event : Json} {e : EventNode} (loaded : EventNode.loadFrom event = .ok e) :
    e.accessor = accessorOf event ∧ e.trigger = triggerOf event ∧ e.recoveryAccessor = recoveryOf event := by
  unfold EventNode.loadFrom at loaded
  iterate 16 obtain ⟨_, _, loaded⟩ := bind_ok loaded
  obtain ⟨accessor, readAccessor, loaded⟩ := bind_ok loaded
  obtain ⟨eventTrigger, readTrigger, loaded⟩ := bind_ok loaded
  obtain ⟨recovery, readRecovery, loaded⟩ := bind_ok loaded
  iterate 2 obtain ⟨_, _, loaded⟩ := bind_ok loaded
  obtain rfl := pure_ok_iff.mp loaded
  have sameAccessor := jsonAt_ok_iff.mp readAccessor
  have sameTrigger := jsonAt_ok_iff.mp readTrigger
  refine ⟨?_, ?_, ?_⟩
  · rw [accessorOf, sameAccessor]
    rfl
  · rw [triggerOf, accessorOf, sameAccessor, sameTrigger]
    simp only [Option.getD_some]
    split
    · rfl
    · rfl
  · unfold optionalAt at readRecovery
    rw [recoveryOf]
    cases present : event.get? "recovery" with
    | none =>
      rw [present] at readRecovery
      rw [← pure_ok_iff.mp readRecovery]
      rfl
    | some value =>
      rw [present] at readRecovery
      rw [← pure_ok_iff.mp readRecovery]
      rfl

theorem getOptionalAttribute_total {α : Type} {get : Json → Except Exn α} {j : Json} {key : String}
    (isObject : typeOf j = .object) (readable : ∀ value, j.get? key = some value → ∃ x, get value = .ok x) :
    ∃ x, getOptionalAttribute get j key = .ok x := by
  obtain ⟨members, rfl⟩ := typeOf_object isObject
  simp only [getOptionalAttribute]
  cases read : members.lookup key with
  | none => exact ⟨none, rfl⟩
  | some value => exact bind_total (readable value read) fun x _ => ⟨some x, rfl⟩

theorem stringOr_total {j : Json} {key : String} (isObject : typeOf j = .object)
    (text : ∀ value, j.get? key = some value → ∃ s, value = .string s) : ∃ s, stringOr j key = .ok s := by
  obtain ⟨members, rfl⟩ := typeOf_object isObject
  simp only [stringOr]
  cases read : members.lookup key with
  | none => exact ⟨"", rfl⟩
  | some value =>
    obtain ⟨s, rfl⟩ := text value read
    exact ⟨s, rfl⟩

theorem getInt_total {count : Json} (isInteger : typeOf count ∈ [.numberUnsigned, .numberInteger]) :
    ∃ n, getInt count = .ok n := by
  cases count with
  | number n => exact ⟨_, rfl⟩
  | unsigned n => exact ⟨_, rfl⟩
  | _ => simp [typeOf] at isInteger

theorem loadFrom_telemetries {event : Json} {e : EventNode} (loaded : EventNode.loadFrom event = .ok e) :
    event.contains "telemetries" = true := by
  unfold EventNode.loadFrom at loaded
  iterate 8 obtain ⟨_, _, loaded⟩ := bind_ok loaded
  obtain ⟨telemetries, read, _⟩ := bind_ok loaded
  rw [Json.contains, jsonAt_ok_iff.mp read]
  rfl

theorem loadFrom_total {event : Json} (shape : EventShape event) (has : event.contains "telemetries" = true) :
    ∃ e, EventNode.loadFrom event = .ok e := by
  have text : ∀ key ∈ eventTexts, ∃ s, stringAt event key = .ok s := by
    intro key member
    obtain ⟨s, read⟩ := shape.texts key member
    exact ⟨s, stringAt_ok read⟩
  obtain ⟨telemetries, readTelemetries⟩ := Option.isSome_iff_exists.mp has
  obtain ⟨errorId, readErrorId⟩ := shape.texts "error_id" (by decide)
  obtain ⟨deviceType, readDeviceType⟩ := shape.texts "device_type" (by decide)
  obtain ⟨count, readCount, isInteger⟩ := shape.triggerCount
  obtain ⟨_, readReset⟩ := shape.counterReset
  obtain ⟨redfish, readRedfish, redfishShape⟩ := shape.redfish
  obtain ⟨messageId, readMessageId⟩ := redfishShape.messageId
  obtain ⟨_, _, readAccessor, _⟩ := shape.accessor
  obtain ⟨_, readTrigger, _⟩ := shape.eventTrigger
  obtain ⟨b, readValueAsCount⟩ := shape.valueAsCount
  unfold EventNode.loadFrom
  refine bind_total (text "event" (by decide)) fun name _ => ?_
  refine bind_total (optionalAt_total fun value read => ?_) fun errorId _ => ?_
  · rw [readErrorId] at read
    exact ⟨_, Json.getString_ok_iff.mpr (Option.some.inj read).symm⟩
  refine bind_jsonAt readDeviceType (bind_total ⟨_, rfl⟩ fun deviceTypes _ => ?_)
  refine bind_jsonAt readCount (bind_total (getInt_total isInteger) fun triggerCount _ => ?_)
  refine bind_total (getOptionalAttribute_total shape.isObject shape.category) fun eventCategories _ => ?_
  refine bind_total (stringOr_total shape.isObject shape.subType) fun subType _ => ?_
  refine bind_jsonAt readTelemetries ?_
  refine bind_total (text "action" (by decide)) fun action _ => ?_
  refine bind_jsonAt readReset (bind_jsonAt readRedfish ?_)
  refine bind_total ⟨_, stringAt_ok readMessageId⟩ fun messageId _ => ?_
  refine bind_total (text "severity" (by decide)) fun severity _ => ?_
  refine bind_total (text "resolution" (by decide)) fun resolution _ => ?_
  refine bind_total (optionalAt_total fun value _ => ⟨value, rfl⟩) fun messageArgs _ => ?_
  refine bind_jsonAt readAccessor (bind_jsonAt readTrigger ?_)
  refine bind_total (optionalAt_total fun value _ => ⟨value, rfl⟩) fun recovery _ => ?_
  refine bind_total (optionalAt_total fun value read => ?_) fun valueAsCount _ => ?_
  · rw [readValueAsCount] at read
    obtain rfl := Option.some.inj read
    exact ⟨b, rfl⟩
  refine bind_total (getOptionalAttribute_total redfishShape.isObject fun value read => ?_) fun originOfCondition _ => ?_
  · obtain ⟨s, rfl⟩ := redfishShape.originOfCondition value read
    exact ⟨s, rfl⟩
  exact ⟨_, rfl⟩

/-- Of all that a schema accepts, the loader misses the telemetries only. -/
theorem loadFrom_ok_iff {event : Json} (shape : EventShape event) :
    (∃ e, EventNode.loadFrom event = .ok e) ↔ event.contains "telemetries" = true :=
  ⟨fun ⟨_, loaded⟩ => loadFrom_telemetries loaded, loadFrom_total shape⟩

/-! ### What can be loaded -/

/-- The keys of an event in the three views. -/
def keysOf : List (Json → DataAccessor) := [accessorOf, triggerOf, recoveryOf]

/-- What an accepted event needs to be loaded. -/
structure LoadableEvent (event : Json) : Prop where
  telemetries : event.contains "telemetries" = true
  paths : ∀ key ∈ keysOf, ∀ object, (key event).acc.get? "object" = some (.string object) → IsDeviceIdPattern object

def Apart (hashFn : String → UInt64) (earlier later : Json) : Prop :=
  ∀ key ∈ keysOf, ¬ Clash hashFn (key earlier) (key later)

/-- What accepted events need to be loaded one after the other. -/
structure Loadable (hashFn : String → UInt64) (events : List Json) : Prop where
  each : ∀ event ∈ events, LoadableEvent event
  apart : events.Pairwise (Apart hashFn)

theorem loadable_append {done rest : List Json} (loadable : Loadable hashFn (done ++ rest)) : Loadable hashFn done :=
  ⟨fun event member => loadable.each event (List.mem_append_left rest member),
    loadable.apart.sublist (List.sublist_append_left done rest)⟩

theorem loadable_concat {done : List Json} {event : Json} (before : Loadable hashFn done) :
    Loadable hashFn (done ++ [event]) ↔ LoadableEvent event ∧ ∀ earlier ∈ done, Apart hashFn earlier event := by
  constructor
  · intro loadable
    refine ⟨loadable.each event (by simp), fun earlier member => ?_⟩
    exact (List.pairwise_append.mp loadable.apart).2.2 earlier member event List.mem_cons_self
  · rintro ⟨loadable, apart⟩
    refine ⟨fun other member => ?_, List.pairwise_append.mpr ⟨before.apart, List.pairwise_singleton _ _, ?_⟩⟩
    · rcases List.mem_append.mp member with old | new
      · exact before.each other old
      · exact List.mem_singleton.mp new ▸ loadable
    · intro earlier member later new
      exact List.mem_singleton.mp new ▸ apart earlier member

/-! ### The keys of accepted events -/

theorem assign_form {acc : Json} {form : Form} (shape : IsForm acc form) : (({} : DataAccessor).assign acc).acc = acc := by
  have valid : isValid acc = true := by
    rw [isValid, Json.contains, shape.shape.typed]
    rfl
  rw [DataAccessor.assign, if_pos valid]

theorem form_not_empty {acc : Json} {form : Form} (shape : IsForm acc form) : acc.isEmpty = false := by
  by_contra empty
  have none := get?_of_isEmpty (eq_true_of_ne_false empty) "type"
  rw [shape.shape.typed] at none
  cases none

theorem accessorOf_form {event : Json} (shape : EventShape event) : ∃ form, IsForm (accessorOf event).acc form := by
  obtain ⟨acc, form, read, isForm⟩ := shape.accessor
  refine ⟨form, ?_⟩
  rw [accessorOf, read, Option.getD_some, assign_form isForm]
  exact isForm

theorem triggerOf_form {event : Json} (shape : EventShape event) : ∃ form, IsForm (triggerOf event).acc form := by
  obtain ⟨acc, read, empty | ⟨form, isForm⟩⟩ := shape.eventTrigger
  · rw [triggerOf, read, Option.getD_some, if_pos empty]
    exact accessorOf_form shape
  · refine ⟨form, ?_⟩
    rw [triggerOf, read, Option.getD_some, if_neg (by simp [form_not_empty isForm]), assign_form isForm]
    exact isForm

theorem recoveryOf_form {event : Json} (shape : EventShape event) :
    (recoveryOf event).isEmpty = true ∨ ∃ form, IsForm (recoveryOf event).acc form := by
  rw [recoveryOf]
  cases read : event.get? "recovery" with
  | none => exact Or.inl rfl
  | some acc =>
    obtain ⟨form, isForm⟩ := shape.recovery acc read
    rw [Option.getD_some, assign_form isForm]
    exact Or.inr ⟨form, isForm⟩

theorem form_or_empty {event : Json} (shape : EventShape event) {key : Json → DataAccessor} (member : key ∈ keysOf) :
    (key event).isEmpty = true ∨ ∃ form, IsForm (key event).acc form := by
  simp only [keysOf, List.mem_cons, List.not_mem_nil, or_false] at member
  rcases member with rfl | rfl | rfl
  · exact Or.inr (accessorOf_form shape)
  · exact Or.inr (triggerOf_form shape)
  · exact recoveryOf_form shape

theorem isKey_of_loadable {event : Json} (loadable : LoadableEvent event) {key : Json → DataAccessor}
    (member : key ∈ keysOf) {form : Form} (shape : IsForm (key event).acc form) : IsKey (key event) :=
  ⟨⟨form, shape⟩, loadable.paths key member⟩

theorem not_clash_empty {a b : DataAccessor} (empty : a.isEmpty = true) : ¬ Clash hashFn a b := by
  rintro ⟨_, s, t, own, _⟩
  rw [get?_of_isEmpty empty] at own
  cases own

theorem clash_symm {a b : DataAccessor} (clash : Clash hashFn a b) : Clash hashFn b a :=
  ⟨clash.1.symm, argumentsClash_symm clash.2⟩

/-! ### One event -/

theorem addAccessor_ok_iff {a : DataAccessor} (shape : a.isEmpty = true ∨ ∃ form, IsForm a.acc form)
    (set : PropertyFilterSet) : (∃ set', EventNode.addAccessorToPropertyFilterSet set a = .ok set') ↔
      ∀ object, a.acc.get? "object" = some (.string object) → IsDeviceIdPattern object := by
  rcases shape with empty | ⟨form, shape⟩
  · refine iff_of_true (addAccessor_total (Or.inl empty) set) fun object read => ?_
    rw [get?_of_isEmpty empty] at read
    cases read
  · by_cases dbus : form = .dbus
    · subst dbus
      constructor
      · rintro ⟨set', added⟩ object read
        have typed : a.isTypeDbus = true := isType_iff.mpr shape.shape.typed
        rcases addAccessor_ok added with ⟨skipped, _⟩ | ⟨object', pattern, _, _, _, _, path, built, _⟩
        · have nonempty : a.isEmpty = false := form_not_empty shape
          simp [typed, nonempty] at skipped
        · have valid : a.isValidDbusAccessor = true := by
            simp [isValidDbusAccessor, typed, shape.shape.present "object" (by decide),
              shape.shape.present "interface" (by decide), shape.shape.present "property" (by decide)]
          rw [getDbusObjectPath, if_pos valid, textAt_ok_iff, read] at path
          obtain rfl := Json.string.inj (Option.some.inj path)
          exact ⟨pattern, built⟩
      · intro accepted
        exact addAccessor_total (Or.inr (wellFormed_dbus shape.shape accepted)) set
    · -- no other accessor has a path, and the filter passes it over
      have other : a.isTypeDbus = false := by
        rw [← Bool.not_eq_true, isTypeDbus, isType_iff, shape.shape.typed]
        intro same
        exact dbus (form_type_injective (Json.string.inj (Option.some.inj same)))
      refine iff_of_true ⟨set, by simp [EventNode.addAccessorToPropertyFilterSet, other, pure, Except.pure]⟩ ?_
      intro object read
      have known := known_key shape read rfl
      cases form with
      | dbus => exact absurd rfl dbus
      | deviceCoreApi => exact absurd known (by decide)
      | cmdline => exact absurd known (by decide)
      | direct => exact absurd known (by decide)

theorem addEvent_ok_iff {event : Json} {e : EventNode} (shape : EventShape event)
    (loaded : EventNode.loadFrom event = .ok e) (set : PropertyFilterSet) :
    (∃ set', EventNode.addEventToPropertyFilterSet set e = .ok set') ↔
      ∀ key ∈ keysOf, ∀ object, (key event).acc.get? "object" = some (.string object) → IsDeviceIdPattern object := by
  obtain ⟨accessor, trigger, recovery⟩ := loadFrom_accessors loaded
  have filtered : e.filtered = keysOf.map fun key => key event := by
    rw [EventNode.filtered, accessor, trigger, recovery]
    rfl
  rw [EventNode.addEventToPropertyFilterSet, filtered]
  constructor
  · rintro ⟨set', added⟩ key member
    obtain ⟨before, after, one⟩ := foldlM_each added (List.mem_map_of_mem member)
    exact (addAccessor_ok_iff (form_or_empty shape member) before).mp ⟨after, one⟩
  · intro paths
    refine foldlM_total (fun a member before => ?_) set
    obtain ⟨key, inside, rfl⟩ := List.mem_map.mp member
    exact (addAccessor_ok_iff (form_or_empty shape inside) before).mpr (paths key inside)

/-- The keys that a view has after the events. -/
def keysAfter (key : Json → DataAccessor) (done : List Json) : List DataAccessor :=
  (done.map key).filter fun a => !a.isEmpty

theorem keysAfter_concat {key : Json → DataAccessor} {done : List Json} {event : Json}
    (used : (key event).isEmpty = false) : keysAfter key (done ++ [event]) = keysAfter key done ++ [key event] := by
  simp [keysAfter, used]

theorem keysAfter_skip {key : Json → DataAccessor} {done : List Json} {event : Json}
    (empty : (key event).isEmpty = true) : keysAfter key (done ++ [event]) = keysAfter key done := by
  simp [keysAfter, empty]

structure Filled (loaded : Loaded hashFn) (done : List Json) : Prop where
  accessors : loaded.eventAccessorView.keys = keysAfter accessorOf done
  triggers : loaded.eventTriggerView.keys = keysAfter triggerOf done
  recoveries : loaded.eventRecoveryView.keys = keysAfter recoveryOf done

/-- An insertion into a view that has a key of each event. -/
theorem insert_event_ok_iff {done : List Json} (shapes : ∀ event ∈ done, EventShape event)
    (before : Loadable hashFn done) {key : Json → DataAccessor} (member : key ∈ keysOf)
    {view : EventView hashFn EventNode} (filled : view.keys = keysAfter key done)
    {event : Json} (new : IsKey (key event)) (e : EventNode) :
    (∃ view', EventView.insert buckets view (key event) e = .ok view') ↔
      ∀ earlier ∈ done, ¬ Clash hashFn (key earlier) (key event) := by
  have known : ∀ other ∈ view.keys, IsKey other := by
    intro other inside
    rw [filled, keysAfter] at inside
    obtain ⟨listed, used⟩ := List.mem_filter.mp inside
    obtain ⟨earlier, early, rfl⟩ := List.mem_map.mp listed
    rcases form_or_empty (shapes earlier early) member with empty | ⟨form, shape⟩
    · simp [empty] at used
    · exact isKey_of_loadable (before.each earlier early) member shape
  have clear : view.keys.Pairwise fun a b => ¬ Clash hashFn a b := by
    rw [filled, keysAfter]
    refine List.Pairwise.sublist List.filter_sublist (List.pairwise_map.mpr ?_)
    exact before.apart.imp fun apart => apart key member
  rw [EventView.insert_ok_iff buckets e new known clear, filled, keysAfter]
  constructor
  · intro apart earlier early clash
    by_cases empty : (key earlier).isEmpty = true
    · exact not_clash_empty empty clash
    · refine apart (key earlier) (List.mem_filter.mpr ⟨List.mem_map_of_mem early, ?_⟩) (clash_symm clash)
      simpa using empty
  · intro apart other inside clash
    obtain ⟨earlier, early, rfl⟩ := List.mem_map.mp (List.mem_filter.mp inside).1
    exact apart earlier early (clash_symm clash)

theorem insertRecovery_ok_iff {done : List Json} (shapes : ∀ event ∈ done, EventShape event)
    (before : Loadable hashFn done) {view : EventView hashFn EventNode} (filled : view.keys = keysAfter recoveryOf done)
    {event : Json} (shape : EventShape event) (loadable : LoadableEvent event) {e : EventNode}
    (recovery : e.recoveryAccessor = recoveryOf event) :
    (∃ view', insertRecovery buckets view e = .ok view') ↔
      ∀ earlier ∈ done, ¬ Clash hashFn (recoveryOf earlier) (recoveryOf event) := by
  have member : recoveryOf ∈ keysOf := by simp [keysOf]
  rw [insertRecovery, recovery]
  rcases recoveryOf_form shape with empty | ⟨form, isForm⟩
  · rw [if_pos empty]
    exact iff_of_true ⟨view, rfl⟩ fun earlier _ clash => not_clash_empty empty (clash_symm clash)
  · rw [DataAccessor.isEmpty, form_not_empty isForm, if_neg Bool.false_ne_true]
    exact insert_event_ok_iff buckets shapes before member filled (isKey_of_loadable loadable member isForm) e

/-- The three insertions of one event. -/
theorem inserts_ok_iff {loaded : Loaded hashFn} {done : List Json} {event : Json} {e : EventNode}
    (shapes : ∀ other ∈ done, EventShape other) (filled : Filled loaded done) (before : Loadable hashFn done)
    (shape : EventShape event) (loadable : LoadableEvent event) (read : EventNode.loadFrom event = .ok e) :
    ((∃ view, EventView.insert buckets loaded.eventAccessorView e.accessor e = .ok view) ∧
      (∃ view, EventView.insert buckets loaded.eventTriggerView e.trigger e = .ok view) ∧
      ∃ view, insertRecovery buckets loaded.eventRecoveryView e = .ok view) ↔
    ∀ earlier ∈ done, Apart hashFn earlier event := by
  obtain ⟨accessor, trigger, recovery⟩ := loadFrom_accessors read
  obtain ⟨_, isAccessor⟩ := accessorOf_form shape
  obtain ⟨_, isTrigger⟩ := triggerOf_form shape
  have accessorKey : accessorOf ∈ keysOf := by simp [keysOf]
  have triggerKey : triggerOf ∈ keysOf := by simp [keysOf]
  have byAccessor := insert_event_ok_iff buckets shapes before accessorKey filled.accessors
    (isKey_of_loadable loadable accessorKey isAccessor) e
  have byTrigger := insert_event_ok_iff buckets shapes before triggerKey filled.triggers
    (isKey_of_loadable loadable triggerKey isTrigger) e
  have byRecovery := insertRecovery_ok_iff buckets shapes before filled.recoveries shape loadable recovery
  rw [accessor, trigger, byAccessor, byTrigger, byRecovery]
  constructor
  · rintro ⟨accessors, triggers, recoveries⟩ earlier early key member
    simp only [keysOf, List.mem_cons, List.not_mem_nil, or_false] at member
    rcases member with rfl | rfl | rfl
    · exact accessors earlier early
    · exact triggers earlier early
    · exact recoveries earlier early
  · intro apart
    refine ⟨fun earlier early => ?_, fun earlier early => ?_, fun earlier early => ?_⟩
    · exact apart earlier early accessorOf accessorKey
    · exact apart earlier early triggerOf triggerKey
    · exact apart earlier early recoveryOf (by simp [keysOf])

theorem loadEvent_ok_iff {v : List EventNode} {loaded : Loaded hashFn} {done : List Json} {event : Json}
    (shapes : ∀ other ∈ done ++ [event], EventShape other) (filled : Filled loaded done)
    (before : Loadable hashFn done) :
    (∃ r, loadEvent buckets (v, loaded) event = .ok r) ↔ Loadable hashFn (done ++ [event]) := by
  have shape : EventShape event := shapes event (by simp)
  have old : ∀ other ∈ done, EventShape other := fun other member => shapes other (List.mem_append_left _ member)
  rw [loadable_concat before]
  constructor
  · rintro ⟨r, run⟩
    unfold loadEvent at run
    iterate 2 obtain ⟨_, _, run⟩ := bind_ok run
    obtain ⟨e, read, run⟩ := bind_ok run
    obtain ⟨set, added, run⟩ := bind_ok run
    obtain ⟨triggerView, byTrigger, run⟩ := bind_ok run
    obtain ⟨accessorView, byAccessor, run⟩ := bind_ok run
    obtain ⟨recoveryView, byRecovery, _⟩ := bind_ok run
    have loadable : LoadableEvent event :=
      ⟨(loadFrom_ok_iff shape).mp ⟨e, read⟩, (addEvent_ok_iff shape read _).mp ⟨set, added⟩⟩
    exact ⟨loadable, (inserts_ok_iff buckets old filled before shape loadable read).mp
      ⟨⟨_, byAccessor⟩, ⟨_, byTrigger⟩, ⟨_, byRecovery⟩⟩⟩
  · rintro ⟨loadable, apart⟩
    obtain ⟨name, readName⟩ := shape.texts "event" (by decide)
    obtain ⟨e, read⟩ := (loadFrom_ok_iff shape).mpr loadable.telemetries
    obtain ⟨byAccessor, byTrigger, byRecovery⟩ :=
      (inserts_ok_iff buckets old filled before shape loadable read).mpr apart
    unfold loadEvent
    refine bind_total ⟨_, Json.index_ok_iff.mpr readName⟩ fun value same => ?_
    obtain rfl := Option.some.inj (readName.symm.trans (Json.index_ok_iff.mp same))
    refine bind_total ⟨name, rfl⟩ fun _ _ => bind_total ⟨e, read⟩ fun e' again => ?_
    obtain rfl := Except.ok.inj (read.symm.trans again)
    refine bind_total ((addEvent_ok_iff shape read _).mpr loadable.paths) fun set _ => ?_
    exact bind_total byTrigger fun _ _ => bind_total byAccessor fun _ _ => bind_total byRecovery fun _ _ => ⟨_, rfl⟩

theorem insertRecovery_keys {done : List Json} {view view' : EventView hashFn EventNode} {event : Json} {e : EventNode}
    (filled : view.keys = keysAfter recoveryOf done) (recovery : e.recoveryAccessor = recoveryOf event)
    (inserted : insertRecovery buckets view e = .ok view') : view'.keys = keysAfter recoveryOf (done ++ [event]) := by
  unfold insertRecovery at inserted
  rw [recovery] at inserted
  by_cases empty : (recoveryOf event).isEmpty = true
  · rw [if_pos empty] at inserted
    rw [keysAfter_skip empty, ← filled, pure_ok_iff.mp inserted]
  · rw [if_neg empty] at inserted
    rw [keysAfter_concat (eq_false_of_ne_true empty), ← filled, EventView.insert_keys inserted]

theorem loadEvent_filled {v : List EventNode} {loaded : Loaded hashFn} {done : List Json} {event : Json}
    (shape : EventShape event) (filled : Filled loaded done) {r : List EventNode × Loaded hashFn}
    (run : loadEvent buckets (v, loaded) event = .ok r) : Filled r.2 (done ++ [event]) := by
  unfold loadEvent at run
  iterate 2 obtain ⟨_, _, run⟩ := bind_ok run
  obtain ⟨e, read, run⟩ := bind_ok run
  obtain ⟨set, _, run⟩ := bind_ok run
  obtain ⟨triggerView, insertedTrigger, run⟩ := bind_ok run
  obtain ⟨accessorView, insertedAccessor, run⟩ := bind_ok run
  obtain ⟨recoveryView, insertedRecovery, run⟩ := bind_ok run
  obtain rfl := pure_ok_iff.mp run
  obtain ⟨accessor, trigger, recovery⟩ := loadFrom_accessors read
  obtain ⟨_, isAccessor⟩ := accessorOf_form shape
  obtain ⟨_, isTrigger⟩ := triggerOf_form shape
  refine ⟨?_, ?_, insertRecovery_keys buckets filled.recoveries recovery insertedRecovery⟩
  · show accessorView.keys = keysAfter accessorOf (done ++ [event])
    rw [keysAfter_concat (form_not_empty isAccessor), ← filled.accessors, EventView.insert_keys insertedAccessor, accessor]
  · show triggerView.keys = keysAfter triggerOf (done ++ [event])
    rw [keysAfter_concat (form_not_empty isTrigger), ← filled.triggers, EventView.insert_keys insertedTrigger, trigger]

/-! ### Documents -/

theorem loadDeviceType_ok_iff {loaded : Loaded hashFn} {done : List Json} {el : String × Json}
    (shapes : ∀ event ∈ done ++ elements el.2, EventShape event) (filled : Filled loaded done)
    (before : Loadable hashFn done) :
    ((∃ loaded', loadDeviceType buckets loaded el = .ok loaded') ↔ Loadable hashFn (done ++ elements el.2)) ∧
      ∀ loaded', loadDeviceType buckets loaded el = .ok loaded' → Filled loaded' (done ++ elements el.2) := by
  obtain ⟨iff, keeps⟩ := foldlM_ok_iff (f := loadEvent buckets) (H := fun s done => Filled s.2 done)
    (fun done rest => loadable_append)
    (fun s done event shapes filled before => ⟨loadEvent_ok_iff buckets shapes filled before,
      fun r run => loadEvent_filled buckets (shapes event (by simp)) filled run⟩)
    (s := (([] : List EventNode), loaded)) shapes filled before
  refine ⟨?_, fun loaded' run => ?_⟩
  · rw [← iff]
    constructor
    · rintro ⟨loaded', run⟩
      obtain ⟨r, inner, _⟩ := bind_ok run
      exact ⟨r, inner⟩
    · rintro ⟨r, inner⟩
      exact ⟨_, bind_ok_iff.mpr ⟨r, inner, rfl⟩⟩
  · obtain ⟨r, inner, run⟩ := bind_ok run
    obtain ⟨v, last⟩ := r
    obtain rfl := pure_ok_iff.mp run
    obtain ⟨accessors, triggers, recoveries⟩ := keeps (v, last) inner
    exact ⟨accessors, triggers, recoveries⟩

theorem loadFromJson_filled (buckets : EventView.Buckets hashFn EventNode) {j : Json} (ordered : keysInOrder j = true)
    (admits : eventInfoJsonSchema.Admits j) :
    ((∃ loaded, loadFromJson buckets {} j = .ok loaded) ↔ Loadable hashFn (eventsOf j)) ∧
      ∀ loaded, loadFromJson buckets {} j = .ok loaded → Filled loaded (eventsOf j) := by
  have shapes := eventsOf_shape ordered admits
  have each : ∀ el ∈ itemsOf j, ∀ event ∈ elements el.2, EventShape event :=
    fun el member event inside => shapes event (List.mem_flatMap.mpr ⟨el, member, inside⟩)
  have empty : Loadable hashFn (eventsIn []) := ⟨by simp [eventsIn], List.Pairwise.nil⟩
  have started : Filled ({} : Loaded hashFn) (eventsIn []) := ⟨rfl, rfl, rfl⟩
  refine foldlM_ok_iff (f := loadDeviceType buckets) (P := fun el => ∀ event ∈ elements el.2, EventShape event)
    (G := fun types => Loadable hashFn (eventsIn types)) (H := fun loaded types => Filled loaded (eventsIn types))
    ?_ ?_ (by simpa using each) started empty
  · intro done rest loadable
    rw [eventsIn, List.flatMap_append] at loadable
    exact loadable_append loadable
  · intro loaded done el shapes filled before
    rw [eventsIn_concat]
    refine loadDeviceType_ok_iff buckets (fun event member => ?_) filled before
    rw [← eventsIn_concat] at member
    obtain ⟨other, listed, inside⟩ := List.mem_flatMap.mp member
    exact shapes other listed event inside

/-- An accepted document is loaded without an exception exactly if every event has telemetries and paths
that are patterns, and no two events that a hash leads to each other have arguments that cannot be compared. -/
theorem loadFromJson_ok_iff (buckets : EventView.Buckets hashFn EventNode) (j : Json) (ordered : keysInOrder j = true)
    (accepted : ∃ problems, eventInfoJsonSchema.check j [] = .ok (true, problems)) :
    (∃ loaded, loadFromJson buckets {} j = .ok loaded) ↔ Loadable hashFn (eventsOf j) := by
  obtain ⟨problems, accepted⟩ := accepted
  exact (loadFromJson_filled buckets ordered (admits_of_check accepted)).1

/-! ### Events of a device type -/

def inInsertionOrder (hashFn : String → UInt64) : EventView.Buckets hashFn EventNode :=
  ⟨EventView.keysWith, fun _ _ => List.Perm.refl _⟩

def gpuEvent (accessor : Json) (telemetries : List (String × Json)) : Json :=
  .object ([("accessor", accessor), ("action", .string "none"), ("device_type", .string "GPU"),
    ("error_id", .string "Overheat"), ("event", .string "Overheat"), ("event_counter_reset", .object []),
    ("event_trigger", .object []), ("redfish", .object [("message_args", .object [("parameters", .array []),
      ("patterns", .array [])]), ("message_id", .string "Overheat")]), ("resolution", .string "none"),
    ("severity", .string "OK")] ++ telemetries ++ [("trigger_count", .unsigned 0), ("value_as_count", .boolean false)])

def temperature (object : String) : Json :=
  .object [("interface", .string "Sensor"), ("object", .string object), ("property", .string "Value"),
    ("type", .string "DBUS")]

def tool (arguments : String) : Json :=
  .object [("arguments", .string arguments), ("executable", .string "tool"), ("type", .string "CMDLINE")]

def gpuEvents (events : List Json) : Json := .object [("GPU", .array events)]

/-- An event on a range of paths, with a list of telemetries. -/
theorem loadFromJson_ok_iff_ranged : ∃ loaded, loadFromJson (inInsertionOrder polynomialHash) {}
    (gpuEvents [gpuEvent (temperature "/GPU[1-2]") [("telemetries", .array [])]]) = .ok loaded := by
  apply (loadFromJson_ok_iff (inInsertionOrder polynomialHash) _ (by decide) ⟨[], by decide +kernel⟩).mpr
  refine ⟨fun event member => ?_, List.pairwise_singleton _ _⟩
  obtain rfl := List.mem_singleton.mp member
  refine ⟨rfl, fun key inside object read => ?_⟩
  have ranged : (DeviceIdPattern.ofString "/GPU[1-2]").isOk = true := by decide
  simp only [keysOf, List.mem_cons, List.not_mem_nil, or_false] at inside
  rcases inside with rfl | rfl | rfl
  · obtain rfl := Json.string.inj (Option.some.inj read)
    exact accepted_of_isOk ranged
  · obtain rfl := Json.string.inj (Option.some.inj read)
    exact accepted_of_isOk ranged
  · cases read

/-- A hash under which texts of one length share a bucket. -/
def lengthHash (text : String) : UInt64 := UInt64.ofNat text.length

/-- The schema accepts the document, and the loader throws. -/
def Unloadable (j : Json) : Prop :=
  keysInOrder j = true ∧ eventInfoJsonSchema.check j [] = .ok (true, []) ∧
    (loadFromJson (inInsertionOrder lengthHash) {} j).isOk = false

/-- An event without telemetries, one on a path that is no pattern, and two whose arguments cannot be compared. -/
theorem loadFromJson_throws :
    Unloadable (gpuEvents [gpuEvent (temperature "/GPU[1-2]") []]) ∧
    Unloadable (gpuEvents [gpuEvent (temperature "/GPU[") [("telemetries", .array [])]]) ∧
    Unloadable (gpuEvents [gpuEvent (tool "[") [("telemetries", .array [])],
      gpuEvent (tool "-t") [("telemetries", .array [])]]) := by
  refine ⟨⟨by decide, by decide +kernel, rfl⟩, ⟨by decide, by decide +kernel, rfl⟩, ?_⟩
  exact ⟨by decide, by decide +kernel, by decide +kernel⟩

end MonitorEventing.EventInfo
