import MonitorEventing.Detection.Subscription
import MonitorEventing.EventInfo.Views

/-!
# Discovery

The callback of a signal makes an accessor of every property that changed. `eventDiscovery` looks it up in
the views and pushes the events it finds to the queue, in one item.
-/

namespace MonitorEventing.Detection
open Accessor DataAccessor EventInfo Schema

/-- What a table wants of the equality of its keys. -/
structure Equivalent (keys : List DataAccessor) : Prop where
  total : ∀ a ∈ keys, ∀ b ∈ keys, ∃ r, a.eq b = .ok r
  refl : ∀ a ∈ keys, a.eq a = .ok true
  symm : ∀ a ∈ keys, ∀ b ∈ keys, a.eq b = .ok true → b.eq a = .ok true
  trans : ∀ a ∈ keys, ∀ b ∈ keys, ∀ c ∈ keys, a.eq b = .ok true → b.eq c = .ok true → a.eq c = .ok true

/-- `equal_range`. The order of equal keys is left open, and so is everything where their equality is no
equivalence. -/
structure Table (hashFn : String → UInt64) (Ref : Type) where
  equalRange : EventView hashFn Ref → DataAccessor → Except Exn (List Ref)
  complete : ∀ (view : EventView hashFn Ref) (accessor : DataAccessor) (code : UInt64),
    accessor.hash hashFn = .ok code → Equivalent (accessor :: view.keys) →
    ∃ found, equalRange view accessor = .ok found ∧
      found.Perm ((view.filter fun entry => entry.code = code ∧ accessor.eq entry.key = .ok true).map (·.value))

/-- A table that looks at every key. -/
def scan {hashFn : String → UInt64} {Ref : Type} : Table hashFn Ref where
  equalRange view accessor := do
    let code ← accessor.hash hashFn
    let found ← view.filterM fun entry => if entry.code = code then accessor.eq entry.key else pure false
    pure (found.map (·.value))
  complete view accessor code hashed equivalent := by
    have kept : view.filterM (fun entry => if entry.code = code then accessor.eq entry.key else pure false) =
        .ok (view.filter fun entry => entry.code = code ∧ accessor.eq entry.key = .ok true) := by
      apply filterM_ok
      intro entry member
      by_cases same : entry.code = code
      · obtain ⟨r, run⟩ := equivalent.total accessor List.mem_cons_self entry.key
          (List.mem_cons_of_mem _ (List.mem_map_of_mem member))
        cases r <;> simp [same, run]
      · simp [same]
    exact ⟨_, bind_ok_iff.mpr ⟨code, hashed, bind_ok_iff.mpr ⟨_, kept, rfl⟩⟩, List.Perm.refl _⟩

structure PcData (Ref : Type) where
  accessor : DataAccessor
  eventPtrs : List Ref

section
variable {hashFn : String → UInt64} {Ref : Type} [DecidableEq Ref] (table : Table hashFn Ref) (views : Views hashFn Ref)

/-- The events that `eventDiscovery` collects. A recovery is left out if the event was found by its trigger. -/
def collectEvents (accessor : DataAccessor) (bootup : Bool) : Except Exn (List Ref) :=
  if bootup then
    if accessor.dataValue.empty then pure [] else table.equalRange views.eventAccessorView accessor
  else do
    let uniqueEvents ← table.equalRange views.eventTriggerView accessor
    let recoveries ← table.equalRange views.eventRecoveryView accessor
    pure (uniqueEvents ++ recoveries.filter fun event => event ∉ uniqueEvents)

/-- `eventDiscovery`: the item that is pushed, if there is an event. -/
def eventDiscovery (accessor : DataAccessor) (bootup : Bool) : Except Exn (Option (PcData Ref)) := do
  let eventPtrs ← collectEvents table views accessor bootup
  pure (if eventPtrs.length > 0 then some ⟨accessor, eventPtrs⟩ else none)

/-- A message about properties of one interface of an object. -/
structure Signal where
  objectPath : String
  msgInterface : String
  propertiesChanged : StringMap PropertyVariant

def Signal.accessor (msg : Signal) (eventProperty : String) (variant : PropertyVariant) : DataAccessor where
  acc := .object [("interface", .string msg.msgInterface), ("object", .string msg.objectPath),
    ("property", .string eventProperty), ("type", .string "DBUS")]
  dataValue := .ofVariant variant

/-- The loop of the callback: how it ends, and what it has pushed. -/
def discoverFrom (msg : Signal) : List (String × PropertyVariant) → Except Exn Unit × List (PcData Ref)
  | [] => (.ok (), [])
  | (eventProperty, variant) :: rest =>
    if eventProperty = "" ∨ isValidVariant variant = false then discoverFrom msg rest
    else
      match eventDiscovery table views (msg.accessor eventProperty variant) false with
      | .error e => (.error e, [])
      | .ok pushed =>
        let (result, more) := discoverFrom msg rest
        (result, pushed.toList ++ more)

def dbusEventHandlerCallback (msg : Signal) : Except Exn Unit × List (PcData Ref) :=
  discoverFrom table views msg msg.propertiesChanged.toList

end

/-! ### The accessor of a signal -/

section
variable {msg : Signal} {property : String} {variant : PropertyVariant} {key : DataAccessor}

theorem expands_texts (nonempty : msg.objectPath ≠ "") (expands : Expands key (property, msg.msgInterface, msg.objectPath)) :
    key.acc.get? "type" = some (.string "DBUS") ∧ key.isValidDbusAccessor = true ∧
      ∃ object, Texts key object msg.msgInterface property ∧ IsValueOf msg.objectPath object := by
  obtain ⟨used, readProperty, readInterface, object, readObject, value⟩ := expands
  have typed := isType_iff.mp used.2
  have valid : key.isValidDbusAccessor = true := by
    by_contra invalid
    rw [getDbusObjectPath, if_neg invalid, pure_ok_iff] at readObject
    subst readObject
    obtain ⟨p, built, found⟩ := value
    exact nonempty ((DeviceId.DeviceIdPattern.plain_value_iff built (by simp [Text.Free]) _).mp found)
  rw [getDbusObjectPath, if_pos valid, textAt_ok_iff] at readObject
  rw [getDbusInterface, if_pos valid, textAt_ok_iff] at readInterface
  have propertied : key.acc.contains "property" = true := by
    have all : (key.isTypeDbus && key.acc.contains "object" && key.acc.contains "interface" &&
      key.acc.contains "property") = true := valid
    simp only [Bool.and_eq_true] at all
    exact all.2
  rw [getProperty, isValid, Json.contains, typed, propertied] at readProperty
  exact ⟨typed, valid, object, ⟨readObject, readInterface, textAt_ok_iff.mp readProperty⟩, value⟩

theorem patternsMatch_concrete_iff {path object : String} (concrete : Concrete path) :
    patternsMatch path object = .ok true ↔ IsValueOf path object := by
  have accepted := accepted_of_concrete concrete
  constructor
  · intro matched
    obtain ⟨p, built⟩ : ∃ p, DeviceId.DeviceIdPattern.ofString object = .ok p := by
      rcases patternsMatch_ok_iff.mp ⟨_, matched⟩ with same | both
      · exact same ▸ accepted
      · exact both.2
    obtain ⟨b, run, overlap⟩ := patternsMatch_ok accepted ⟨p, built⟩
    have overlapping := overlap.mp (Except.ok.inj (run.symm.trans matched))
    exact (overlaps_concrete_iff ⟨p, built⟩ concrete accepted).mp (overlaps_symm overlapping)
  · intro value
    obtain ⟨p, built, found⟩ := value
    obtain ⟨b, run, overlap⟩ := patternsMatch_ok accepted ⟨p, built⟩
    rw [run, overlap.mpr (Or.inr (Or.inr ⟨p, built, found⟩))]

theorem eqFrom_text {a other : DataAccessor} {type name s t : String} {rest : List (String × Json)}
    (compared : isSkipped name = false) (exact : ¬ (name = "object" ∨ name = "arguments"))
    (read : other.acc.get? name = some (.string t)) :
    eqFrom type a other ((name, .string s) :: rest) = .ok true ↔ t = s ∧ eqFrom type a other rest = .ok true := by
  have text : other.textAt name = .ok t := textAt_ok_iff.mpr read
  rw [eqFrom, compared, if_neg Bool.false_ne_true, if_neg (by simp [Json.contains, read]), if_neg exact, text]
  by_cases same : t = s
  · simp [same, Json.getString, bind, Except.bind]
  · simp [same, Json.getString, bind, Except.bind]

theorem eqFrom_object {a other : DataAccessor} {s t : String} {value : Json} {rest : List (String × Json)}
    (own : a.acc.get? "object" = some (.string s)) (read : other.acc.get? "object" = some (.string t)) :
    eqFrom "DBUS" a other (("object", value) :: rest) = .ok true ↔
      patternsMatch s t = .ok true ∧ eqFrom "DBUS" a other rest = .ok true := by
  have texts : patternTexts "DBUS" a other = .ok (s, t) :=
    bind_ok_iff.mpr ⟨s, textAt_ok_iff.mpr own, bind_ok_iff.mpr ⟨t, textAt_ok_iff.mpr read, rfl⟩⟩
  rw [eqFrom, if_neg (by decide), if_neg (by simp [Json.contains, read]), if_pos (Or.inl rfl), texts]
  cases matched : patternsMatch s t with
  | error e => simp [matched, bind, Except.bind]
  | ok b => cases b <;> simp [matched, bind, Except.bind]

theorem eqFrom_object_text {a other : DataAccessor} {value : Json} {rest : List (String × Json)}
    (equal : eqFrom "DBUS" a other (("object", value) :: rest) = .ok true) :
    ∃ t, other.acc.get? "object" = some (.string t) := by
  rw [eqFrom, if_neg (by decide)] at equal
  split at equal
  · cases equal
  · rw [if_pos (Or.inl rfl)] at equal
    obtain ⟨_, read, _⟩ := bind_ok equal
    obtain ⟨_, _, read⟩ := bind_ok read
    obtain ⟨t, read, _⟩ := bind_ok read
    exact ⟨t, textAt_ok_iff.mp read⟩

theorem expands_of_texts {object interface : String} {path : String} (typed : key.acc.get? "type" = some (.string "DBUS"))
    (texts : Texts key object interface property) (value : IsValueOf path object) :
    Expands key (property, interface, path) := by
  have isDbus : key.isTypeDbus = true := isType_iff.mpr typed
  have valid : key.isValidDbusAccessor = true := by
    simp [isValidDbusAccessor, isDbus, Json.contains, texts.object, texts.interface, texts.property]
  have used : key.isEmpty = false := by
    by_contra empty
    have none := get?_of_isEmpty (eq_true_of_ne_false empty) "type"
    rw [typed] at none
    cases none
  refine ⟨⟨used, isDbus⟩, ?_, ?_, object, ?_, value⟩
  · rw [getProperty, isValid, Json.contains, typed, Json.contains, texts.property]
    exact textAt_ok_iff.mpr texts.property
  · rw [getDbusInterface, if_pos valid, textAt_ok_iff]
    exact texts.interface
  · rw [getDbusObjectPath, if_pos valid, textAt_ok_iff]
    exact texts.object

/-- A signal equals the accessors that its property is one of. -/
theorem signal_eq_iff (concrete : Concrete msg.objectPath) (nonempty : msg.objectPath ≠ "") :
    (msg.accessor property variant).eq key = .ok true ↔ Expands key (property, msg.msgInterface, msg.objectPath) := by
  have own : (msg.accessor property variant).acc.get? "type" = some (.string "DBUS") := rfl
  have ownInterface : (msg.accessor property variant).acc.get? "interface" = some (.string msg.msgInterface) := rfl
  have ownProperty : (msg.accessor property variant).acc.get? "property" = some (.string property) := rfl
  have unfolded : key.acc.get? "type" = some (.string "DBUS") → (msg.accessor property variant).eq key =
      eqFrom "DBUS" (msg.accessor property variant) key [("interface", .string msg.msgInterface),
        ("object", .string msg.objectPath), ("property", .string property), ("type", .string "DBUS")] := by
    intro typed
    rw [DataAccessor.eq, own, typed]
    rfl
  constructor
  · intro equal
    obtain ⟨type, same, readType⟩ := eq_sameText equal own rfl (by decide)
    obtain rfl := Json.string.inj (Option.some.inj (own.symm.trans same))
    obtain ⟨_, same, readInterface⟩ := eq_sameText equal ownInterface rfl (by decide)
    obtain rfl := Json.string.inj (Option.some.inj (ownInterface.symm.trans same))
    obtain ⟨_, same, readProperty⟩ := eq_sameText equal ownProperty rfl (by decide)
    obtain rfl := Json.string.inj (Option.some.inj (ownProperty.symm.trans same))
    rw [unfolded readType, eqFrom_text rfl (by decide) readInterface] at equal
    obtain ⟨object, readObject⟩ := eqFrom_object_text equal.2
    have matched := ((eqFrom_object rfl readObject).mp equal.2).1
    exact expands_of_texts readType ⟨readObject, readInterface, readProperty⟩
      ((patternsMatch_concrete_iff concrete).mp matched)
  · intro expands
    obtain ⟨readType, _, object, texts, value⟩ := expands_texts nonempty expands
    have matched := (patternsMatch_concrete_iff concrete).mpr value
    rw [unfolded readType, eqFrom_text rfl (by decide) texts.interface, eqFrom_object rfl texts.object,
      eqFrom_text rfl (by decide) texts.property, eqFrom_text rfl (by decide) readType]
    exact ⟨rfl, matched, rfl, rfl, rfl⟩

/-- The hash of a signal is that of the accessors it equals. -/
theorem signal_hash (hashFn : String → UInt64) :
    (msg.accessor property variant).hash hashFn = .ok (hashFn ("DBUS" ++ (msg.msgInterface ++ property))) := rfl

theorem expands_hash (hashFn : String → UInt64) (nonempty : msg.objectPath ≠ "")
    (expands : Expands key (property, msg.msgInterface, msg.objectPath)) :
    key.hash hashFn = .ok (hashFn ("DBUS" ++ (msg.msgInterface ++ property))) := by
  obtain ⟨typed, valid, _⟩ := expands_texts nonempty expands
  have type : key.getType = .ok "DBUS" := by
    rw [getType, isValid, Json.contains, typed]
    exact textAt_ok_iff.mpr typed
  have hashed : key.hashKey = .ok ("DBUS" ++ (msg.msgInterface ++ property)) := by
    rw [hashKey]
    apply bind_ok_iff.mpr ⟨_, type, ?_⟩
    rw [if_pos valid]
    exact bind_ok_iff.mpr ⟨_, expands.interface, bind_ok_iff.mpr ⟨_, expands.property, rfl⟩⟩
  rw [DataAccessor.hash, hashed]
  rfl

/-! ### What is found -/

section
variable {hashFn : String → UInt64} {Ref : Type} (table : Table hashFn Ref)

/-- A lookup of a signal finds what its property is one of. -/
theorem equalRange_signal {view : EventView hashFn Ref} (concrete : Concrete msg.objectPath)
    (nonempty : msg.objectPath ≠ "") (equivalent : Equivalent (msg.accessor property variant :: view.keys)) :
    ∃ found, table.equalRange view (msg.accessor property variant) = .ok found ∧
      found.Perm (((pairs view).filter fun entry =>
        decide ((msg.accessor property variant).eq entry.1 = .ok true)).map (·.2)) := by
  obtain ⟨found, run, perm⟩ := table.complete view _ _ (signal_hash hashFn) equivalent
  refine ⟨found, run, perm.trans ?_⟩
  rw [pairs, List.filter_map, List.map_map]
  have same : ∀ entry ∈ view, decide (entry.code = hashFn ("DBUS" ++ (msg.msgInterface ++ property)) ∧
      (msg.accessor property variant).eq entry.key = .ok true) =
      decide ((msg.accessor property variant).eq entry.key = .ok true) := by
    intro entry _
    rw [decide_eq_decide]
    refine and_iff_right_of_imp fun equal => ?_
    have hashed := expands_hash hashFn nonempty ((signal_eq_iff concrete nonempty).mp equal)
    exact Except.ok.inj (entry.hashed.symm.trans hashed)
  rw [List.filter_congr same]
  exact List.Perm.refl _

theorem equalRange_numbered {view : EventView hashFn Nat} (table : Table hashFn Nat)
    {numbered : List (EventNode × Nat)} {key : EventNode → DataAccessor} (keyed : pairs view = numbered.map fun entry => (key entry.1, entry.2))
    (unique : (numbered.map (·.2)).Nodup) (concrete : Concrete msg.objectPath) (nonempty : msg.objectPath ≠ "")
    (equivalent : Equivalent (msg.accessor property variant :: view.keys)) :
    ∃ found, table.equalRange view (msg.accessor property variant) = .ok found ∧ found.Nodup ∧
      ∀ i, i ∈ found ↔ ∃ e, (e, i) ∈ numbered ∧ Expands (key e) (property, msg.msgInterface, msg.objectPath) := by
  obtain ⟨found, run, perm⟩ := equalRange_signal table concrete nonempty equivalent
  refine ⟨found, run, ?_, fun i => ?_⟩
  · rw [perm.nodup_iff]
    refine unique.sublist (List.Sublist.trans (List.filter_sublist.map _) ?_)
    rw [keyed, List.map_map]
    exact List.Sublist.refl _
  · rw [perm.mem_iff, keyed]
    simp [signal_eq_iff concrete nonempty]

end

end

/-- The numbers of the events that look at a property. -/
def Concerned {hashFn : String → UInt64} (loaded : Loaded hashFn) (entry : PropertyFilterTuple) (i : Nat) : Prop :=
  ∃ e, loaded.events[i]? = some e ∧ (Expands e.trigger entry ∨ Expands e.recoveryAccessor entry)

section
variable {hashFn : String → UInt64} {loaded : Loaded hashFn} (table : Table hashFn Nat) {msg : Signal}

/-- What the views have to be for a signal to be looked up in them. -/
structure Searchable (loaded : Loaded hashFn) (msg : Signal) : Prop where
  concrete : Concrete msg.objectPath
  nonempty : msg.objectPath ≠ ""
  triggers : ∀ pc ∈ msg.propertiesChanged.toList,
    Equivalent (msg.accessor pc.1 pc.2 :: loaded.views.eventTriggerView.keys)
  recoveries : ∀ pc ∈ msg.propertiesChanged.toList,
    Equivalent (msg.accessor pc.1 pc.2 :: loaded.views.eventRecoveryView.keys)

theorem collectEvents_concerned (shares : loaded.Shares) (searchable : Searchable loaded msg)
    {pc : String × PropertyVariant} (inside : pc ∈ msg.propertiesChanged.toList) :
    ∃ eventPtrs, collectEvents table loaded.views (msg.accessor pc.1 pc.2) false = .ok eventPtrs ∧
      eventPtrs.Nodup ∧ ∀ i, i ∈ eventPtrs ↔ Concerned loaded (pc.1, msg.msgInterface, msg.objectPath) i := by
  have numbers : (loaded.events.zipIdx.map (·.2)).Nodup := by
    rw [List.zipIdx_map_snd]
    exact List.nodup_range'
  obtain ⟨found, run, once, triggered⟩ := equalRange_numbered table shares.triggerView numbers
    searchable.concrete searchable.nonempty (searchable.triggers pc inside)
  obtain ⟨recovered, run', once', recovers⟩ := equalRange_numbered table shares.recoveryView
    (numbers.sublist (List.filter_sublist.map _)) searchable.concrete searchable.nonempty
    (searchable.recoveries pc inside)
  refine ⟨found ++ recovered.filter fun event => event ∉ found, ?_, ?_, fun i => ?_⟩
  · exact bind_ok_iff.mpr ⟨found, run, bind_ok_iff.mpr ⟨recovered, run', rfl⟩⟩
  · refine List.Nodup.append once (once'.filter _) fun i member again => ?_
    exact (of_decide_eq_true (List.mem_filter.mp again).2) member
  · have either : i ∈ found ++ recovered.filter (fun event => event ∉ found) ↔ i ∈ found ∨ i ∈ recovered := by
      simp only [List.mem_append, List.mem_filter, decide_eq_true_eq]
      tauto
    rw [either, triggered, recovers, ← exists_or]
    apply exists_congr
    intro e
    have used : Expands e.recoveryAccessor (pc.1, msg.msgInterface, msg.objectPath) →
        (!e.recoveryAccessor.isEmpty) = true := fun expands => by rw [expands.used.1, Bool.not_false]
    simp only [Loaded.recovering, List.mem_filter, List.mk_mem_zipIdx_iff_getElem?]
    tauto

/-- The items that a signal's properties give. -/
structure Queued (loaded : Loaded hashFn) (msg : Signal) (properties : List (String × PropertyVariant))
    (items : List (PcData Nat)) : Prop where
  inOrder : (items.map (·.accessor)).Sublist (properties.map fun pc => msg.accessor pc.1 pc.2)
  exact : ∀ item ∈ items, item.eventPtrs ≠ [] ∧ item.eventPtrs.Nodup ∧
    ∃ pc ∈ properties, pc.1 ≠ "" ∧ isValidVariant pc.2 = true ∧ item.accessor = msg.accessor pc.1 pc.2 ∧
      ∀ i, i ∈ item.eventPtrs ↔ Concerned loaded (pc.1, msg.msgInterface, msg.objectPath) i
  complete : ∀ pc ∈ properties, pc.1 ≠ "" → isValidVariant pc.2 = true →
    ∀ i, Concerned loaded (pc.1, msg.msgInterface, msg.objectPath) i →
      ∃ item ∈ items, item.accessor = msg.accessor pc.1 pc.2 ∧ i ∈ item.eventPtrs

theorem Queued.skip {properties : List (String × PropertyVariant)} {items : List (PcData Nat)}
    (queued : Queued loaded msg properties items) {pc : String × PropertyVariant}
    (silent : pc.1 ≠ "" → isValidVariant pc.2 = true → ∀ i, ¬ Concerned loaded (pc.1, msg.msgInterface, msg.objectPath) i) :
    Queued loaded msg (pc :: properties) items := by
  refine ⟨queued.inOrder.cons _, ?_, ?_⟩
  · intro item member
    obtain ⟨found, once, other, inside, rest⟩ := queued.exact item member
    exact ⟨found, once, other, List.mem_cons_of_mem _ inside, rest⟩
  · intro other inside named valid i concerned
    rcases List.mem_cons.mp inside with rfl | later
    · exact absurd concerned (silent named valid i)
    · exact queued.complete other later named valid i concerned

theorem Queued.push {properties : List (String × PropertyVariant)} {items : List (PcData Nat)}
    (queued : Queued loaded msg properties items) {pc : String × PropertyVariant} {eventPtrs : List Nat}
    (named : pc.1 ≠ "") (valid : isValidVariant pc.2 = true) (found : eventPtrs ≠ []) (once : eventPtrs.Nodup)
    (concerned : ∀ i, i ∈ eventPtrs ↔ Concerned loaded (pc.1, msg.msgInterface, msg.objectPath) i) :
    Queued loaded msg (pc :: properties) (⟨msg.accessor pc.1 pc.2, eventPtrs⟩ :: items) := by
  refine ⟨queued.inOrder.cons_cons _, ?_, ?_⟩
  · intro item member
    rcases List.mem_cons.mp member with rfl | later
    · exact ⟨found, once, pc, List.mem_cons_self, named, valid, rfl, concerned⟩
    · obtain ⟨found, once, other, inside, rest⟩ := queued.exact item later
      exact ⟨found, once, other, List.mem_cons_of_mem _ inside, rest⟩
  · intro other inside named valid i entry
    rcases List.mem_cons.mp inside with rfl | later
    · exact ⟨_, List.mem_cons_self, rfl, (concerned i).mpr entry⟩
    · obtain ⟨item, member, same, listed⟩ := queued.complete other later named valid i entry
      exact ⟨item, List.mem_cons_of_mem _ member, same, listed⟩

theorem discoverFrom_queued (shares : loaded.Shares) (searchable : Searchable loaded msg)
    (properties : List (String × PropertyVariant)) (changed : properties ⊆ msg.propertiesChanged.toList) :
    ∃ items, discoverFrom table loaded.views msg properties = (.ok (), items) ∧ Queued loaded msg properties items := by
  induction properties with
  | nil => exact ⟨[], rfl, List.Sublist.refl _, by simp, by simp⟩
  | cons pc rest ih =>
    obtain ⟨here, later⟩ := List.cons_subset.mp changed
    obtain ⟨items, run, queued⟩ := ih later
    obtain ⟨eventProperty, variant⟩ := pc
    rw [discoverFrom]
    by_cases skipped : eventProperty = "" ∨ isValidVariant variant = false
    · rw [if_pos skipped]
      refine ⟨items, run, queued.skip fun named valid => ?_⟩
      rcases skipped with empty | invalid
      · exact absurd empty named
      · exact absurd (valid.symm.trans invalid) (by decide)
    · rw [if_neg skipped]
      obtain ⟨named, valid⟩ := not_or.mp skipped
      obtain ⟨eventPtrs, collected, once, concerned⟩ :=
        collectEvents_concerned table shares searchable here
      have discovered : eventDiscovery table loaded.views (msg.accessor eventProperty variant) false =
          .ok (if eventPtrs.length > 0 then some ⟨msg.accessor eventProperty variant, eventPtrs⟩ else none) :=
        bind_ok_iff.mpr ⟨eventPtrs, collected, rfl⟩
      rw [discovered, run]
      by_cases found : eventPtrs = []
      · refine ⟨items, by simp [found], queued.skip fun _ _ i entry => ?_⟩
        rw [← concerned, found] at entry
        cases entry
      · refine ⟨_, by simp [List.length_pos_of_ne_nil found], queued.push named ?_ found once concerned⟩
        exact eq_true_of_ne_false valid

def temperatureRange : Json :=
  gpuEvents [gpuEvent (temperature "/GPU[1-2]") [("telemetries", .array [])]]

def temperatureChange : Signal where
  objectPath := "/GPU1"
  msgInterface := "Sensor"
  propertiesChanged := (∅ : StringMap PropertyVariant).insert "Value" (.integer 90)

/-! ### What is subscribed to -/

/-- What a signal on the bus queues. Every handler whose rule it matches gets it. -/
def delivered {Ref : Type} [DecidableEq Ref] (table : Table hashFn Ref) (views : Views hashFn Ref)
    (handlerList : List (String × String)) (msg : Signal) : List (PcData Ref) :=
  (handlerList.filter fun rule => rule = (msg.objectPath, msg.msgInterface)).flatMap fun _ =>
    (dbusEventHandlerCallback table views msg).2

theorem startEventDetection_subscribes (eventMap : EventMap)
    (added : ∀ e ∈ eventMap.events, ∀ a ∈ e.filtered,
      ∃ before after, EventNode.addAccessorToPropertyFilterSet before a = .ok after)
    (plain : ∀ e ∈ eventMap.events, ∀ a ∈ e.filtered, ∀ interface, a.getDbusInterface = .ok interface →
      ':' ∉ interface.toList) :
    ∃ handlerList, startEventDetection eventMap = .ok handlerList ∧ handlerList.Nodup ∧
      ∀ pair, pair ∈ handlerList ↔ ∃ e ∈ eventMap.events, ∃ a ∈ e.filtered, Subscribes a pair := by
  have events : ∀ e ∈ eventMap.events,
      Registers subscribeEvent (fun e pair => ∃ a ∈ e.filtered, Subscribes a pair) e := by
    intro e inside
    apply subscribeEvent_registers
    intro a member
    obtain ⟨_, _, one⟩ := added e inside a member
    exact subscribeAcc_registers one (plain e inside a member)
  have start : ({} : Subscriptions).Valid :=
    ⟨List.nodup_nil, fun _ member => (List.not_mem_nil member).elim, fun key => by simp⟩
  obtain ⟨s, loop, valid, members⟩ := foldlM_registers eventMap.toList
    (fun dev listed => foldlM_registers dev.2
      fun e inside => events e (List.mem_flatMap.mpr ⟨dev, listed, inside⟩)) {} start
  refine ⟨s.handlerList, bind_ok_iff.mpr ⟨s, loop, rfl⟩, valid.once, fun pair => ?_⟩
  rw [members, EventMap.events]
  simp only [List.mem_flatMap, List.not_mem_nil, false_or]
  constructor
  · intro registered
    obtain ⟨dev, listed, e, inside, rest⟩ := registered
    exact ⟨e, ⟨dev, listed, inside⟩, rest⟩
  · intro registered
    obtain ⟨e, ⟨dev, listed, inside⟩, rest⟩ := registered
    exact ⟨dev, listed, e, inside, rest⟩

/-- A signal that matches no rule concerns no event. -/
theorem Queued.unsubscribed {properties : List (String × PropertyVariant)} {items : List (PcData Nat)}
    (queued : Queued loaded msg properties items)
    (silent : ∀ e ∈ loaded.events, ∀ a ∈ e.filtered, ∀ property,
      ¬ Expands a (property, msg.msgInterface, msg.objectPath)) : items = [] := by
  by_contra found
  obtain ⟨item, member⟩ := List.exists_mem_of_ne_nil items found
  obtain ⟨nonempty, _, pc, _, _, _, _, concerned⟩ := queued.exact item member
  obtain ⟨i, listed⟩ := List.exists_mem_of_ne_nil _ nonempty
  obtain ⟨e, read, expands⟩ := (concerned i).mp listed
  have event : e ∈ loaded.events := List.mem_of_getElem? read
  rcases expands with trigger | recovery
  · exact silent e event e.trigger (by simp [EventNode.filtered]) pc.1 trigger
  · exact silent e event e.recoveryAccessor (by simp [EventNode.filtered]) pc.1 recovery

end

end MonitorEventing.Detection
