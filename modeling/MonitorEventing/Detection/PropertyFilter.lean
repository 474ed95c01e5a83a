import MonitorEventing.Accessor.Equality
import MonitorEventing.EventInfo.EventNode

/-!
# The property filter

Which properties a signal may change and still matter to an event. The set is filled while the
events are loaded, one entry for each path a pattern stands for; the scan compares a property with
the accessors of every event.
-/

namespace MonitorEventing.EventInfo
open Accessor DeviceId

/-- Property, interface and path, in the order the set compares them. -/
abbrev PropertyFilterTuple := String × String × String

abbrev PropertyFilterSet := Finset PropertyFilterTuple

abbrev EventMap := StringMap (List EventNode)

/-- The events of every device type. -/
def EventMap.events (eventMap : EventMap) : List EventNode := eventMap.toList.flatMap (·.2)

namespace EventNode

def filtered (e : EventNode) : List DataAccessor := [e.accessor, e.trigger, e.recoveryAccessor]

/-- One round of the loop of `addEventToPropertyFilterSet`. -/
def addAccessorToPropertyFilterSet (propertyFilterSet : PropertyFilterSet) (accessor : DataAccessor) :
    Except Exn PropertyFilterSet :=
  if accessor.isEmpty || !accessor.isTypeDbus then pure propertyFilterSet
  else do
    let object ← accessor.getDbusObjectPath
    let pattern ← DeviceIdPattern.ofString object
    let iface ← accessor.getDbusInterface
    let prop ← accessor.getProperty
    let paths ← pattern.values
    pure (propertyFilterSet ∪ (paths.map fun path => (prop, iface, path)).toFinset)

def addEventToPropertyFilterSet (propertyFilterSet : PropertyFilterSet) (e : EventNode) :
    Except Exn PropertyFilterSet :=
  e.filtered.foldlM addAccessorToPropertyFilterSet propertyFilterSet

/-- `!a.isEmpty() && a == other`. -/
def isSetAndEq (a other : DataAccessor) : Except Exn Bool := if a.isEmpty then pure false else a.eq other

def getIsAccessorInterestingToEvent (event : EventNode) (otherAccessor : DataAccessor) : Except Exn Bool := do
  let byAccessor ← event.accessor.eq otherAccessor
  if byAccessor then pure true
  else do
    let byTrigger ← isSetAndEq event.trigger otherAccessor
    if byTrigger then pure true else isSetAndEq event.recoveryAccessor otherAccessor

end EventNode

/-- The set that loading the events leaves. -/
def loadPropertyFilterSet (events : List EventNode) : Except Exn PropertyFilterSet :=
  events.foldlM EventNode.addEventToPropertyFilterSet ∅

def scanEvents (accessor : DataAccessor) : List EventNode → Except Exn Bool
  | [] => pure false
  | event :: rest => do
    let interesting ← event.getIsAccessorInterestingToEvent accessor
    if interesting then pure true else scanEvents accessor rest

def getIsAccessorInteresting (eventMap : EventMap) (propertyFilterSet : PropertyFilterSet) (accessor : DataAccessor) :
    Except Exn Bool :=
  if accessor.isEmpty then pure false
  else if accessor.isTypeDbus then do
    let eventProperty ← accessor.getProperty
    let msgInterface ← accessor.getDbusInterface
    let objectPath ← accessor.getDbusObjectPath
    pure (decide ((eventProperty, msgInterface, objectPath) ∈ propertyFilterSet))
  else scanEvents accessor eventMap.events

/-! ### What loading puts into the set -/

/-- The entries an accessor adds. -/
structure Expands (a : DataAccessor) (entry : PropertyFilterTuple) : Prop where
  used : a.isEmpty = false ∧ a.isTypeDbus = true
  property : a.getProperty = .ok entry.1
  interface : a.getDbusInterface = .ok entry.2.1
  path : ∃ object, a.getDbusObjectPath = .ok object ∧ DataAccessor.IsValueOf entry.2.2 object

theorem mem_values {p : DeviceIdPattern} {paths : List String} (read : p.values = .ok paths) (path : String) :
    path ∈ paths ↔ ∃ x ∈ p.domain, p.eval x = .ok path := by
  have all := mapM_ok_iff.mp read
  constructor
  · intro member
    exact forall₂_mem_right all member
  · rintro ⟨x, inside, evaluated⟩
    obtain ⟨path', member, evaluated'⟩ := forall₂_mem_left all inside
    exact Except.ok.inj (evaluated.symm.trans evaluated') ▸ member

theorem exists_values (p : DeviceIdPattern) : ∃ paths, p.values = .ok paths := by
  obtain ⟨text, evaluated⟩ := p.evaluated_domain
  exact ⟨_, mapM_ok evaluated⟩

/-- What a success read. -/
theorem addAccessor_ok {set set' : PropertyFilterSet} {a : DataAccessor}
    (added : EventNode.addAccessorToPropertyFilterSet set a = .ok set') :
    (a.isEmpty || !a.isTypeDbus) = true ∧ set' = set ∨
    ∃ object pattern iface prop paths, (a.isEmpty = false ∧ a.isTypeDbus = true) ∧
      a.getDbusObjectPath = .ok object ∧ DeviceIdPattern.ofString object = .ok pattern ∧
      a.getDbusInterface = .ok iface ∧ a.getProperty = .ok prop ∧ pattern.values = .ok paths ∧
      set' = set ∪ (paths.map fun path => (prop, iface, path)).toFinset := by
  unfold EventNode.addAccessorToPropertyFilterSet at added
  split at added
  · rename_i skipped
    exact Or.inl ⟨skipped, (pure_ok_iff.mp added).symm⟩
  · rename_i kept
    obtain ⟨object, readObject, added⟩ := bind_ok added
    obtain ⟨pattern, built, added⟩ := bind_ok added
    obtain ⟨iface, readInterface, added⟩ := bind_ok added
    obtain ⟨prop, readProperty, added⟩ := bind_ok added
    obtain ⟨paths, read, added⟩ := bind_ok added
    have used : a.isEmpty = false ∧ a.isTypeDbus = true := by simpa using kept
    exact Or.inr ⟨object, pattern, iface, prop, paths, used, readObject, built, readInterface, readProperty, read,
      (pure_ok_iff.mp added).symm⟩

theorem addAccessor_mem {set set' : PropertyFilterSet} {a : DataAccessor}
    (added : EventNode.addAccessorToPropertyFilterSet set a = .ok set') (entry : PropertyFilterTuple) :
    entry ∈ set' ↔ entry ∈ set ∨ Expands a entry := by
  rcases addAccessor_ok added with ⟨skipped, rfl⟩ |
    ⟨object, pattern, iface, prop, paths, used, readObject, built, readInterface, readProperty, read, rfl⟩
  · have none : ¬ Expands a entry := fun h => by simp [h.used.1, h.used.2] at skipped
    exact (or_iff_left none).symm
  · rw [Finset.mem_union, List.mem_toFinset, List.mem_map]
    apply or_congr_right
    obtain ⟨prop', iface', path⟩ := entry
    constructor
    · intro value
      obtain ⟨path', member, same⟩ := value
      cases same
      exact ⟨used, readProperty, readInterface, object, readObject, pattern, built, (mem_values read _).mp member⟩
    · intro expands
      obtain ⟨_, property, interface, object', path', pattern', built', value⟩ := expands
      obtain rfl := Except.ok.inj (readProperty.symm.trans property)
      obtain rfl := Except.ok.inj (readInterface.symm.trans interface)
      obtain rfl := Except.ok.inj (readObject.symm.trans path')
      obtain rfl := Except.ok.inj (built.symm.trans built')
      exact ⟨path, (mem_values read path).mpr value, rfl⟩

theorem foldlM_mem_iff {α β : Type} {f : Finset β → α → Except Exn (Finset β)} {R : α → β → Prop}
    (step : ∀ s a s', f s a = .ok s' → ∀ b, b ∈ s' ↔ b ∈ s ∨ R a b) {xs : List α} {s s' : Finset β}
    (h : xs.foldlM f s = .ok s') (b : β) : b ∈ s' ↔ b ∈ s ∨ ∃ a ∈ xs, R a b := by
  induction xs generalizing s with
  | nil =>
    rw [List.foldlM_nil, pure_ok_iff] at h
    simp [h]
  | cons a xs ih =>
    rw [List.foldlM_cons] at h
    obtain ⟨middle, first, rest⟩ := bind_ok h
    rw [ih rest, step s a middle first, or_assoc, List.exists_mem_cons_iff]

theorem loadPropertyFilterSet_mem {events : List EventNode} {set : PropertyFilterSet}
    (loaded : loadPropertyFilterSet events = .ok set) (entry : PropertyFilterTuple) :
    entry ∈ set ↔ ∃ e ∈ events, ∃ a ∈ e.filtered, Expands a entry := by
  have each : ∀ (s : PropertyFilterSet) (e : EventNode) (s' : PropertyFilterSet),
      e.addEventToPropertyFilterSet s = .ok s' → ∀ b, b ∈ s' ↔ b ∈ s ∨ ∃ a ∈ e.filtered, Expands a b :=
    fun s e s' added => foldlM_mem_iff (fun _ _ _ one => addAccessor_mem one) added
  rw [foldlM_mem_iff each loaded]
  simp

/-! ### What the scan compares -/

/-- No accessor, or a well-formed one of the bus. -/
def Filterable (a : DataAccessor) : Prop := a.isEmpty = true ∨ DataAccessor.WellFormed a .dbus

theorem get?_of_isEmpty {j : Json} (empty : j.isEmpty = true) (key : String) : j.get? key = none := by
  cases j with
  | object members =>
    have none : members = [] := List.isEmpty_iff.mp empty
    rw [none]
    rfl
  | _ => rfl

theorem eq_of_isEmpty {a : DataAccessor} (empty : a.isEmpty = true) (other : DataAccessor) :
    a.eq other = .ok false := by
  rw [DataAccessor.eq, get?_of_isEmpty empty]
  rfl

theorem isTypeDbus_of_wellFormed {a : DataAccessor} (wf : DataAccessor.WellFormed a .dbus) :
    a.isEmpty = false ∧ a.isTypeDbus = true ∧ a.isValidDbusAccessor = true := by
  have typed : a.isTypeDbus = true := DataAccessor.isType_iff.mpr wf.shape.typed
  refine ⟨?_, typed, ?_⟩
  · by_contra empty
    have none := get?_of_isEmpty (eq_true_of_ne_false empty) "type"
    rw [wf.shape.typed] at none
    cases none
  · simp [DataAccessor.isValidDbusAccessor, typed, wf.shape.present "object" (by decide),
      wf.shape.present "interface" (by decide), wf.shape.present "property" (by decide)]

/-- The three texts of a well-formed accessor of the bus. -/
structure Texts (a : DataAccessor) (object interface property : String) : Prop where
  object : a.acc.get? "object" = some (.string object)
  interface : a.acc.get? "interface" = some (.string interface)
  property : a.acc.get? "property" = some (.string property)

theorem exists_texts {a : DataAccessor} (wf : DataAccessor.WellFormed a .dbus) :
    ∃ object interface property, Texts a object interface property := by
  have text : ∀ key ∈ DataAccessor.Kind.dbus.required, ∃ s, a.acc.get? key = some (.string s) := by
    intro key member
    refine wf.shape.required_text member ?_
    simp only [DataAccessor.Kind.required, List.mem_cons, List.not_mem_nil, or_false] at member
    rcases member with rfl | rfl | rfl
    · rfl
    · rfl
    · rfl
  obtain ⟨object, readObject⟩ := text "object" (by decide)
  obtain ⟨interface, readInterface⟩ := text "interface" (by decide)
  obtain ⟨property, readProperty⟩ := text "property" (by decide)
  exact ⟨object, interface, property, readObject, readInterface, readProperty⟩

theorem Texts.reads {a : DataAccessor} (wf : DataAccessor.WellFormed a .dbus) {object interface property : String}
    (texts : Texts a object interface property) :
    a.getDbusObjectPath = .ok object ∧ a.getDbusInterface = .ok interface ∧ a.getProperty = .ok property := by
  obtain ⟨_, _, valid⟩ := isTypeDbus_of_wellFormed wf
  have typed : DataAccessor.isValid a.acc = true := by
    rw [DataAccessor.isValid, Json.contains, wf.shape.typed]
    rfl
  have propertied : a.acc.contains "property" = true := wf.shape.present "property" (by decide)
  refine ⟨?_, ?_, ?_⟩
  · rw [DataAccessor.getDbusObjectPath, if_pos valid, DataAccessor.textAt_ok_iff]
    exact texts.object
  · rw [DataAccessor.getDbusInterface, if_pos valid, DataAccessor.textAt_ok_iff]
    exact texts.interface
  · rw [DataAccessor.getProperty, typed, propertied, Bool.and_self, if_pos rfl, DataAccessor.textAt_ok_iff]
    exact texts.property

theorem overlaps_concrete_iff {object path : String} (accepted : ∃ p, DeviceIdPattern.ofString object = .ok p)
    (concrete : DataAccessor.Concrete path) (acceptedPath : ∃ p, DeviceIdPattern.ofString path = .ok p) :
    DataAccessor.Overlaps object path ↔ DataAccessor.IsValueOf path object := by
  constructor
  · intro overlap
    obtain ⟨p, built⟩ := accepted
    obtain ⟨q, builtPath⟩ := acceptedPath
    rcases overlap with rfl | value | ⟨q', built', value⟩
    · exact ⟨p, built, (DeviceIdPattern.plain_value_iff built concrete _).mpr rfl⟩
    · exact value
    · -- a concrete path stands for itself alone
      obtain rfl := (DeviceIdPattern.plain_value_iff built' concrete _).mp value
      exact ⟨p, built, (DeviceIdPattern.plain_value_iff built concrete _).mpr rfl⟩
  · exact fun value => Or.inr (Or.inl value)

theorem covers_iff_expands {a other : DataAccessor} (wf : DataAccessor.WellFormed a .dbus)
    (wfOther : DataAccessor.WellFormed other .dbus) {object interface property : String}
    (texts : Texts other object interface property) (concrete : DataAccessor.Concrete object) :
    DataAccessor.Covers a other ↔ Expands a (property, interface, object) := by
  obtain ⟨object', interface', property', own⟩ := exists_texts wf
  obtain ⟨readObject, readInterface, readProperty⟩ := own.reads wf
  obtain ⟨nonempty, typed, _⟩ := isTypeDbus_of_wellFormed wf
  have overlap := overlaps_concrete_iff (wf.accepted "object" object' (Or.inl rfl) own.object) concrete
    (wfOther.accepted "object" object (Or.inl rfl) texts.object)
  constructor
  · intro covers
    obtain ⟨_, read, overlapping⟩ := covers "object" object' rfl own.object
    obtain rfl := Json.string.inj (Option.some.inj (texts.object.symm.trans read))
    obtain ⟨_, read, sameInterface⟩ := covers "interface" interface' rfl own.interface
    obtain rfl := Json.string.inj (Option.some.inj (texts.interface.symm.trans read))
    obtain ⟨_, read, sameProperty⟩ := covers "property" property' rfl own.property
    obtain rfl := Json.string.inj (Option.some.inj (texts.property.symm.trans read))
    have interfaces : interface' = interface := by simpa [DataAccessor.Agree] using sameInterface
    have properties : property' = property := by simpa [DataAccessor.Agree] using sameProperty
    subst interfaces properties
    have value := overlap.mp (by simpa [DataAccessor.Agree] using overlapping)
    exact ⟨⟨nonempty, typed⟩, readProperty, readInterface, object', readObject, value⟩
  · intro expands key s compared read
    obtain ⟨_, property_, interface_, object_, path, value⟩ := expands
    obtain rfl := Except.ok.inj (readProperty.symm.trans property_)
    obtain rfl := Except.ok.inj (readInterface.symm.trans interface_)
    obtain rfl := Except.ok.inj (readObject.symm.trans path)
    obtain ⟨known, _⟩ := wf.shape.known _ (Json.mem_items_of_get? read) compared
    simp only [DataAccessor.Kind.required, DataAccessor.Kind.optional, List.append_nil, List.mem_cons,
      List.not_mem_nil, or_false] at known
    rcases known with rfl | rfl | rfl | rfl
    · rw [wf.shape.typed] at read
      obtain rfl := Json.string.inj (Option.some.inj read)
      exact ⟨_, wfOther.shape.typed, by simp [DataAccessor.Agree]⟩
    · obtain rfl := Json.string.inj (Option.some.inj (own.object.symm.trans read))
      exact ⟨object, texts.object, by simpa [DataAccessor.Agree] using overlap.mpr value⟩
    · obtain rfl := Json.string.inj (Option.some.inj (own.interface.symm.trans read))
      exact ⟨_, texts.interface, by simp [DataAccessor.Agree]⟩
    · obtain rfl := Json.string.inj (Option.some.inj (own.property.symm.trans read))
      exact ⟨_, texts.property, by simp [DataAccessor.Agree]⟩

theorem eq_iff_expands {a other : DataAccessor} (filterable : Filterable a)
    (wfOther : DataAccessor.WellFormed other .dbus) {object interface property : String}
    (texts : Texts other object interface property) (concrete : DataAccessor.Concrete object) :
    ∃ r, a.eq other = .ok r ∧ (r = true ↔ Expands a (property, interface, object)) := by
  rcases filterable with empty | wf
  · refine ⟨false, eq_of_isEmpty empty other, ?_⟩
    have none : ¬ Expands a (property, interface, object) := fun h =>
      absurd (empty.symm.trans h.used.1) (by decide)
    simp [none]
  · obtain ⟨r, compared, iff⟩ := DataAccessor.eq_ok wf wfOther
    exact ⟨r, compared, iff.trans (covers_iff_expands wf wfOther texts concrete)⟩

theorem interestingToEvent_iff {e : EventNode} {other : DataAccessor} (filterable : ∀ a ∈ e.filtered, Filterable a)
    (wfOther : DataAccessor.WellFormed other .dbus) {object interface property : String}
    (texts : Texts other object interface property) (concrete : DataAccessor.Concrete object) :
    ∃ r, e.getIsAccessorInterestingToEvent other = .ok r ∧
      (r = true ↔ ∃ a ∈ e.filtered, Expands a (property, interface, object)) := by
  have each := fun a member => eq_iff_expands (filterable a member) wfOther texts concrete
  -- the check for an empty accessor changes no answer
  have guarded : ∀ a : DataAccessor, EventNode.isSetAndEq a other = a.eq other := by
    intro a
    unfold EventNode.isSetAndEq
    by_cases empty : a.isEmpty = true
    · rw [if_pos empty, eq_of_isEmpty empty]
      rfl
    · rw [if_neg empty]
  obtain ⟨first, byAccessor, firstIff⟩ := each e.accessor (by simp [EventNode.filtered])
  obtain ⟨second, byTrigger, secondIff⟩ := each e.trigger (by simp [EventNode.filtered])
  obtain ⟨third, byRecovery, thirdIff⟩ := each e.recoveryAccessor (by simp [EventNode.filtered])
  refine ⟨first || (second || third), ?_, ?_⟩
  · rw [EventNode.getIsAccessorInterestingToEvent]
    simp only [guarded, byAccessor, byTrigger, byRecovery, bind, Except.bind]
    cases first
    · cases second <;> rfl
    · rfl
  · simp only [Bool.or_eq_true, firstIff, secondIff, thirdIff, EventNode.filtered, List.mem_cons, List.not_mem_nil,
      or_false, exists_eq_or_imp, exists_eq_left]

theorem addAccessor_total {a : DataAccessor} (filterable : Filterable a) (set : PropertyFilterSet) :
    ∃ set', EventNode.addAccessorToPropertyFilterSet set a = .ok set' := by
  unfold EventNode.addAccessorToPropertyFilterSet
  rcases filterable with empty | wf
  · exact ⟨set, by rw [empty]; rfl⟩
  · obtain ⟨object, interface, property, texts⟩ := exists_texts wf
    obtain ⟨readObject, readInterface, readProperty⟩ := texts.reads wf
    obtain ⟨nonempty, typed, _⟩ := isTypeDbus_of_wellFormed wf
    obtain ⟨p, built⟩ := wf.accepted "object" object (Or.inl rfl) texts.object
    obtain ⟨paths, values⟩ := exists_values p
    simp only [nonempty, typed, readObject, readInterface, readProperty, built, values, bind, Except.bind]
    exact ⟨_, rfl⟩

theorem loadPropertyFilterSet_total {events : List EventNode}
    (filterable : ∀ e ∈ events, ∀ a ∈ e.filtered, Filterable a) : ∃ set, loadPropertyFilterSet events = .ok set :=
  foldlM_total (fun e inside set =>
    foldlM_total (fun a member set => addAccessor_total (filterable e inside a member) set) set) ∅

theorem wellFormed_dbus {a : DataAccessor}
    (shape : DataAccessor.HasShape a.acc "DBUS" ["object", "interface", "property"] [])
    (accepted : ∀ object, a.acc.get? "object" = some (.string object) → ∃ p, DeviceIdPattern.ofString object = .ok p) :
    DataAccessor.WellFormed a .dbus := by
  refine ⟨shape, fun key s pattern read => ?_⟩
  rcases pattern with rfl | rfl
  · exact accepted s read
  · -- no accessor of the bus has arguments
    have known := (shape.known _ (Json.mem_items_of_get? read) rfl).1
    simp at known

/-- On a signal of the bus, the lookup in the set loaded from the events answers as the scan over the
events does. -/
theorem interesting_iff_scan (eventMap : EventMap) (events : List EventNode) (other : DataAccessor)
    (filterable : ∀ e ∈ events, ∀ a ∈ e.filtered, Filterable a)
    (shape : DataAccessor.HasShape other.acc "DBUS" ["object", "interface", "property"] [])
    (concrete : ∀ object, other.acc.get? "object" = some (.string object) → DataAccessor.Concrete object) :
    ∃ set, loadPropertyFilterSet events = .ok set ∧
      (∀ e ∈ events, ∃ b, e.getIsAccessorInterestingToEvent other = .ok b) ∧
      ∃ r, getIsAccessorInteresting eventMap set other = .ok r ∧
        (r = true ↔ ∃ e ∈ events, e.getIsAccessorInterestingToEvent other = .ok true) := by
  have wfOther : DataAccessor.WellFormed other .dbus :=
    wellFormed_dbus shape fun object read => DataAccessor.accepted_of_concrete (concrete object read)
  obtain ⟨object, interface, property, texts⟩ := exists_texts wfOther
  obtain ⟨readObject, readInterface, readProperty⟩ := texts.reads wfOther
  obtain ⟨nonempty, typed, _⟩ := isTypeDbus_of_wellFormed wfOther
  obtain ⟨set, loaded⟩ := loadPropertyFilterSet_total filterable
  have scan : ∀ e ∈ events, ∃ r, e.getIsAccessorInterestingToEvent other = .ok r ∧
      (r = true ↔ ∃ a ∈ e.filtered, Expands a (property, interface, object)) := fun e inside =>
    interestingToEvent_iff (filterable e inside) wfOther texts (concrete object texts.object)
  refine ⟨set, loaded, fun e inside => ?_, decide ((property, interface, object) ∈ set), ?_, ?_⟩
  · obtain ⟨r, answered, _⟩ := scan e inside
    exact ⟨r, answered⟩
  · rw [getIsAccessorInteresting, nonempty, typed, readProperty, readInterface, readObject]
    rfl
  · rw [decide_eq_true_iff, loadPropertyFilterSet_mem loaded]
    apply exists_congr
    intro e
    apply and_congr_right
    intro inside
    obtain ⟨r, answered, iff⟩ := scan e inside
    rw [answered, ← iff, Except.ok.injEq]

def present (object : String) : DataAccessor :=
  { acc := .object [("interface", .string "Item"), ("object", .string object), ("property", .string "Present"),
      ("type", .string "DBUS")] }

theorem present_filterable {object : String} (accepted : ∃ p, DeviceIdPattern.ofString object = .ok p) :
    Filterable (present object) := by
  refine Or.inr (wellFormed_dbus ⟨?_, rfl, ?_, ?_⟩ ?_)
  · show (["interface", "object", "property", "type"] : List String).Nodup
    decide
  · intro entry member _
    simp only [present, Json.items, List.mem_cons, List.not_mem_nil, or_false] at member
    rcases member with rfl | rfl | rfl | rfl
    · exact ⟨by simp, _, rfl⟩
    · exact ⟨by simp, _, rfl⟩
    · exact ⟨by simp, _, rfl⟩
    · exact ⟨by simp, _, rfl⟩
  · intro key member
    simp only [List.mem_cons, List.not_mem_nil, or_false] at member
    rcases member with rfl | rfl | rfl
    · rfl
    · rfl
    · rfl
  · intro s read
    obtain rfl := Json.string.inj (Option.some.inj read)
    exact accepted

/-- One event on a range of paths, and a signal from one of them. -/
theorem interesting_iff_scan_ranged : ∃ set, loadPropertyFilterSet [{ accessor := present "/GPU[1-2]" }] = .ok set ∧
    getIsAccessorInteresting ∅ set (present "/GPU2") = .ok true := by
  have concrete : DataAccessor.Concrete "/GPU2" := by
    have none : "/GPU2".toList.all (fun c => !Grammar.isBracket c) = true := by rfl
    simpa [DataAccessor.Concrete, Text.Free] using none
  have ranged : Filterable (present "/GPU[1-2]") := present_filterable (DataAccessor.accepted_of_isOk (by decide))
  obtain ⟨set, loaded, _, r, answered, iff⟩ :=
    interesting_iff_scan ∅ [{ accessor := present "/GPU[1-2]" }] (present "/GPU2")
      (by
        intro e inside a member
        obtain rfl := List.mem_singleton.mp inside
        simp only [EventNode.filtered, List.mem_cons, List.not_mem_nil, or_false] at member
        rcases member with rfl | rfl | rfl
        · exact ranged
        · exact Or.inl rfl
        · exact Or.inl rfl)
      (by decide)
      (by
        intro object read
        obtain rfl := Json.string.inj (Option.some.inj read)
        exact concrete)
  refine ⟨set, loaded, ?_⟩
  rw [answered, iff.mpr ⟨_, List.mem_singleton_self _, by decide⟩]

end MonitorEventing.EventInfo
