import MonitorEventing.Detection.PropertyFilter

/-!
# Subscriptions

Which signals the detection asks the bus for. Every accessor of every event is expanded to its paths,
and a pair of path and interface is registered the first time it turns up.
-/

namespace MonitorEventing.Detection
open Accessor DeviceId DeviceUtil EventInfo

def getDbusInterfaceObjectsMap (a : DataAccessor) : Except Exn (StringMap (List String)) := do
  let interface ← a.getDbusInterface
  if interface = "" then pure ∅
  else do
    let object ← a.getDbusObjectPath
    let deviceList ← expandDeviceRangeIn object
    pure ((∅ : StringMap (List String)).insert interface (deviceList.toList.map (·.2)))

/-- The pairs seen, by the text they are keyed with, and the handlers registered for them. -/
structure Subscriptions where
  uniqueRegisterMap : StringMap Int := ∅
  handlerList : List (String × String) := []

def registrationKey (object interface : String) : String := object ++ ":" ++ interface

/-- The loop of `subscribeAcc`. -/
def registerFrom (interface : String) : List String → Subscriptions → Subscriptions
  | [], s => s
  | object :: rest, s =>
    if registrationKey object interface ∈ s.uniqueRegisterMap then registerFrom interface rest s
    else
      registerFrom interface rest {
        uniqueRegisterMap := s.uniqueRegisterMap.insert (registrationKey object interface) 1
        handlerList := s.handlerList ++ [(object, interface)] }

def subscribeAcc (s : Subscriptions) (acc : DataAccessor) : Except Exn Subscriptions := do
  let dbusInfo ← getDbusInterfaceObjectsMap acc
  match dbusInfo.toList with
  | (interface, objects) :: _ => pure (registerFrom interface objects s)
  | [] => pure s

def subscribeEvent (s : Subscriptions) (event : EventNode) : Except Exn Subscriptions :=
  [event.trigger, event.accessor, event.recoveryAccessor].foldlM subscribeAcc s

/-- The handlers registered, in order. -/
def startEventDetection (eventMap : EventMap) : Except Exn (List (String × String)) := do
  let s ← eventMap.toList.foldlM (fun s dev => dev.2.foldlM subscribeEvent s) {}
  pure s.handlerList

/-! ### Registering a pair -/

theorem registrationKey_inj {object object' interface interface' : String} (plain : ':' ∉ interface.toList)
    (plain' : ':' ∉ interface'.toList) (same : registrationKey object interface = registrationKey object' interface') :
    object = object' ∧ interface = interface' := by
  -- read backwards, the interface is what comes before the first ':'
  have reversed : interface.toList.reverse ++ ':' :: object.toList.reverse =
      interface'.toList.reverse ++ ':' :: object'.toList.reverse := by
    have texts := congrArg (fun s => s.toList.reverse) same
    simpa [registrationKey] using texts
  have free : ∀ {s : String}, ':' ∉ s.toList → Text.Free (· == ':') s.toList.reverse := by
    intro s plain c member
    rw [beq_eq_false_iff_ne]
    intro colon
    exact plain (colon ▸ List.mem_reverse.mp member)
  have pieces := congrArg (List.splitOnP (· == ':')) reversed
  rw [Text.splitOnP_append_cons _ (free plain) rfl, Text.splitOnP_append_cons _ (free plain') rfl] at pieces
  have interfaces : interface.toList.reverse = interface'.toList.reverse := (List.cons.inj pieces).1
  rw [interfaces, List.append_cancel_left_eq, List.cons.injEq] at reversed
  exact ⟨String.toList_inj.mp (List.reverse_injective reversed.2), String.toList_inj.mp (List.reverse_injective interfaces)⟩

/-- The map holds the keys of the handlers, each registered once. -/
structure Subscriptions.Valid (s : Subscriptions) : Prop where
  once : s.handlerList.Nodup
  plain : ∀ pair ∈ s.handlerList, ':' ∉ pair.2.toList
  keys : ∀ key, key ∈ s.uniqueRegisterMap ↔ ∃ pair ∈ s.handlerList, registrationKey pair.1 pair.2 = key

theorem Subscriptions.Valid.mem_iff {s : Subscriptions} (valid : s.Valid) {object interface : String}
    (plain : ':' ∉ interface.toList) :
    registrationKey object interface ∈ s.uniqueRegisterMap ↔ (object, interface) ∈ s.handlerList := by
  rw [valid.keys]
  constructor
  · intro held
    obtain ⟨pair, member, same⟩ := held
    obtain ⟨objects, interfaces⟩ := registrationKey_inj (valid.plain pair member) plain same
    rw [← objects, ← interfaces]
    exact member
  · exact fun member => ⟨_, member, rfl⟩

theorem Subscriptions.Valid.register {s : Subscriptions} (valid : s.Valid) {object interface : String}
    (plain : ':' ∉ interface.toList) (fresh : (object, interface) ∉ s.handlerList) :
    ({
      uniqueRegisterMap := s.uniqueRegisterMap.insert (registrationKey object interface) 1
      handlerList := s.handlerList ++ [(object, interface)] } : Subscriptions).Valid := by
  refine ⟨?_, ?_, fun key => ?_⟩
  · rw [← List.concat_eq_append]
    exact List.Nodup.concat fresh valid.once
  · intro pair member
    rcases List.mem_append.mp member with old | new
    · exact valid.plain pair old
    · rw [List.mem_singleton.mp new]
      exact plain
  · rw [StringMap.mem_insert, valid.keys]
    simp only [List.mem_append, List.mem_singleton, or_and_right, exists_or, exists_eq_left]
    exact or_comm

theorem registerFrom_spec {interface : String} (plain : ':' ∉ interface.toList) (objects : List String)
    {s : Subscriptions} (valid : s.Valid) :
    (registerFrom interface objects s).Valid ∧ ∀ pair, pair ∈ (registerFrom interface objects s).handlerList ↔
      pair ∈ s.handlerList ∨ pair.1 ∈ objects ∧ pair.2 = interface := by
  induction objects generalizing s with
  | nil => exact ⟨valid, by simp [registerFrom]⟩
  | cons object rest ih =>
    unfold registerFrom
    by_cases seen : registrationKey object interface ∈ s.uniqueRegisterMap
    · rw [if_pos seen]
      obtain ⟨after, members⟩ := ih valid
      refine ⟨after, fun pair => ?_⟩
      rw [members, List.mem_cons]
      have registered := (valid.mem_iff plain).mp seen
      constructor
      · intro either
        exact either.imp_right fun ⟨member, same⟩ => ⟨Or.inr member, same⟩
      · intro either
        rcases either with old | ⟨here | member, same⟩
        · exact Or.inl old
        · exact Or.inl (by rw [← here, ← same] at registered; exact registered)
        · exact Or.inr ⟨member, same⟩
    · rw [if_neg seen]
      have fresh : (object, interface) ∉ s.handlerList := fun member => seen ((valid.mem_iff plain).mpr member)
      obtain ⟨after, members⟩ := ih (valid.register plain fresh)
      refine ⟨after, fun pair => ?_⟩
      rw [members, List.mem_append, List.mem_singleton, List.mem_cons, or_assoc]
      apply or_congr_right
      rw [or_and_right]
      apply or_congr_left
      exact Prod.ext_iff

/-! ### From accessors to pairs -/

/-- The pairs an accessor stands for. -/
structure Subscribes (a : DataAccessor) (pair : String × String) : Prop where
  nonempty : pair.1 ≠ "" ∧ pair.2 ≠ ""
  interface : a.getDbusInterface = .ok pair.2
  object : ∃ object, a.getDbusObjectPath = .ok object ∧ DataAccessor.IsValueOf pair.1 object

theorem domain_length (p : DeviceIdPattern) : p.domain.length < 2 ^ 32 := by
  rw [DeviceIdPattern.length_domain]
  exact Nat.mod_lt _ (by decide)

theorem mem_toList_values {deviceIdMap : DeviceIdMap} {value : String} :
    value ∈ deviceIdMap.toList.map (·.2) ↔ ∃ k : Int, deviceIdMap[k]? = some value := by
  rw [List.mem_map]
  constructor
  · intro listed
    obtain ⟨entry, member, same⟩ := listed
    exact ⟨entry.1, Std.TreeMap.mem_toList_iff_getElem?_eq_some.mp (same ▸ member)⟩
  · intro stored
    obtain ⟨k, read⟩ := stored
    exact ⟨(k, value), Std.TreeMap.mem_toList_iff_getElem?_eq_some.mpr read, rfl⟩

theorem expandDeviceRange_values {object : String} {pattern : DeviceIdPattern}
    (built : DeviceIdPattern.ofString object = .ok pattern) :
    ∃ deviceList, expandDeviceRangeIn object = .ok deviceList ∧
      ∀ path, path ∈ deviceList.toList.map (·.2) ↔ path ≠ "" ∧ DataAccessor.IsValueOf path object := by
  have valueOf : ∀ path, DataAccessor.IsValueOf path object ↔ ∃ x ∈ pattern.domain, pattern.eval x = .ok path := by
    intro path
    refine ⟨fun ⟨p, same, value⟩ => ?_, fun value => ⟨pattern, built, value⟩⟩
    rwa [Except.ok.inj (built.symm.trans same)]
  obtain ⟨paths, read⟩ := exists_values pattern
  by_cases empty : object = ""
  · -- the empty pattern has no value but the empty text
    refine ⟨∅, ?_, fun path => ?_⟩
    · rw [expandDeviceRangeIn, built]
      show expandDeviceRange pattern = _
      rw [expandDeviceRange, DeviceIdPattern.pattern_ofString built, if_neg (not_not.mpr empty)]
      rfl
    · have plain : Text.Free Grammar.isBracket object.toList := by simp [empty, Text.Free]
      rw [valueOf, DeviceIdPattern.plain_value_iff built plain, empty, mem_toList_values]
      simp
  · refine ⟨expandFrom paths (initialKey pattern.domain) ∅, ?_, fun path => ?_⟩
    · rw [expandDeviceRangeIn, built]
      show expandDeviceRange pattern = _
      rw [expandDeviceRange, DeviceIdPattern.pattern_ofString built, if_pos empty, read]
      rfl
    · have few : paths.length ≤ 2 ^ 32 := by
        rw [← (mapM_ok_iff.mp read).length_eq]
        exact (domain_length pattern).le
      rw [mem_toList_values, mem_expandFrom (initialKey_lt _) few (by simp), valueOf, mem_values read]
      simp

theorem getDbusInterface_skipped {a : DataAccessor} (skipped : (a.isEmpty || !a.isTypeDbus) = true) :
    a.getDbusInterface = .ok "" := by
  have invalid : a.isValidDbusAccessor = false := by
    rcases Bool.or_eq_true_iff.mp skipped with empty | other
    · simp [DataAccessor.isValidDbusAccessor, DataAccessor.isTypeDbus, DataAccessor.isType, get?_of_isEmpty empty]
    · have notDbus : a.isTypeDbus = false := by simpa using other
      simp [DataAccessor.isValidDbusAccessor, notDbus]
  rw [DataAccessor.getDbusInterface, invalid]
  rfl

/-- An accessor subscribes to what it adds to the filter, apart from empty texts. -/
theorem subscribes_iff {a : DataAccessor} {set set' : PropertyFilterSet}
    (added : EventNode.addAccessorToPropertyFilterSet set a = .ok set') (object interface : String) :
    Subscribes a (object, interface) ↔
      object ≠ "" ∧ interface ≠ "" ∧ ∃ property, Expands a (property, interface, object) := by
  constructor
  · intro given
    obtain ⟨nonempty, read, path⟩ := given
    refine ⟨nonempty.1, nonempty.2, ?_⟩
    rcases addAccessor_ok added with ⟨skipped, _⟩ | ⟨_, _, _, property, _, used, _, _, _, readProperty, _⟩
    · exact absurd (Except.ok.inj (read.symm.trans (getDbusInterface_skipped skipped))) nonempty.2
    · exact ⟨property, used, readProperty, read, path⟩
  · intro subscribed
    obtain ⟨object_, interface_, property, expands⟩ := subscribed
    exact ⟨⟨object_, interface_⟩, expands.interface, expands.path⟩

theorem getDbusInterfaceObjectsMap_ok {a : DataAccessor} {set set' : PropertyFilterSet}
    (added : EventNode.addAccessorToPropertyFilterSet set a = .ok set') :
    (getDbusInterfaceObjectsMap a = .ok ∅ ∧ ∀ pair, ¬ Subscribes a pair) ∨
    ∃ interface objects, getDbusInterfaceObjectsMap a = .ok ((∅ : StringMap (List String)).insert interface objects) ∧
      a.getDbusInterface = .ok interface ∧ ∀ pair, pair.1 ∈ objects ∧ pair.2 = interface ↔ Subscribes a pair := by
  have silent : a.getDbusInterface = .ok "" → getDbusInterfaceObjectsMap a = .ok ∅ ∧ ∀ pair, ¬ Subscribes a pair := by
    intro read
    refine ⟨by rw [getDbusInterfaceObjectsMap, read]; rfl, fun pair h => ?_⟩
    exact h.nonempty.2 (Except.ok.inj (h.interface.symm.trans read))
  rcases addAccessor_ok added with ⟨skipped, _⟩ |
    ⟨object, pattern, iface, _, _, _, readObject, built, readInterface, _, _, _⟩
  · exact Or.inl (silent (getDbusInterface_skipped skipped))
  · by_cases empty : iface = ""
    · exact Or.inl (silent (empty ▸ readInterface))
    · obtain ⟨deviceList, expanded, values⟩ := expandDeviceRange_values built
      refine Or.inr ⟨iface, deviceList.toList.map (·.2), ?_, readInterface, fun pair => ?_⟩
      · rw [getDbusInterfaceObjectsMap, readInterface, readObject]
        simp only [bind, Except.bind, if_neg empty, expanded]
        rfl
      · rw [values]
        constructor
        · intro given
          obtain ⟨⟨nonempty, value⟩, same⟩ := given
          rw [← same] at readInterface empty
          exact ⟨⟨nonempty, empty⟩, readInterface, object, readObject, value⟩
        · intro subscribed
          obtain ⟨nonempty, interface, object', read, value⟩ := subscribed
          obtain rfl := Except.ok.inj (readObject.symm.trans read)
          exact ⟨⟨nonempty.1, value⟩, Except.ok.inj (interface.symm.trans readInterface)⟩

/-! ### The loops -/

/-- `f` registers what `R` says, from any state whose map and list agree. -/
def Registers {α : Type} (f : Subscriptions → α → Except Exn Subscriptions) (R : α → String × String → Prop) (a : α) :
    Prop :=
  ∀ s : Subscriptions, s.Valid → ∃ s', f s a = .ok s' ∧ s'.Valid ∧
    ∀ pair, pair ∈ s'.handlerList ↔ pair ∈ s.handlerList ∨ R a pair

theorem subscribeAcc_registers {a : DataAccessor} {set set' : PropertyFilterSet}
    (added : EventNode.addAccessorToPropertyFilterSet set a = .ok set')
    (plain : ∀ interface, a.getDbusInterface = .ok interface → ':' ∉ interface.toList) :
    Registers subscribeAcc Subscribes a := by
  intro s valid
  rcases getDbusInterfaceObjectsMap_ok added with ⟨none, nothing⟩ | ⟨interface, objects, one, read, pairs⟩
  · refine ⟨s, by rw [subscribeAcc, none]; rfl, valid, fun pair => ?_⟩
    exact (or_iff_left (nothing pair)).symm
  · obtain ⟨after, members⟩ := registerFrom_spec (plain interface read) objects valid
    refine ⟨registerFrom interface objects s, by rw [subscribeAcc, one]; rfl, after, fun pair => ?_⟩
    rw [members, pairs]

theorem foldlM_registers {α : Type} {f : Subscriptions → α → Except Exn Subscriptions}
    {R : α → String × String → Prop} (xs : List α) (each : ∀ a ∈ xs, Registers f R a) :
    Registers (fun s (xs : List α) => xs.foldlM f s) (fun xs pair => ∃ a ∈ xs, R a pair) xs := by
  induction xs with
  | nil => exact fun s valid => ⟨s, rfl, valid, by simp⟩
  | cons a xs ih =>
    intro s valid
    obtain ⟨middle, first, kept, members⟩ := each a List.mem_cons_self s valid
    obtain ⟨s', rest, after, members'⟩ := ih (fun a member => each a (List.mem_cons_of_mem _ member)) middle kept
    refine ⟨s', ?_, after, fun pair => ?_⟩
    · show List.foldlM f s (a :: xs) = _
      rw [List.foldlM_cons]
      exact bind_ok_iff.mpr ⟨middle, first, rest⟩
    · simp only [members', members, or_assoc, List.exists_mem_cons_iff]

theorem subscribeEvent_registers {e : EventNode} (each : ∀ a ∈ e.filtered, Registers subscribeAcc Subscribes a) :
    Registers subscribeEvent (fun e pair => ∃ a ∈ e.filtered, Subscribes a pair) e := by
  -- the loops of loading and of subscribing go through the three accessors in different orders
  have same : ∀ a, a ∈ [e.trigger, e.accessor, e.recoveryAccessor] ↔ a ∈ e.filtered := by
    intro a
    simp only [EventNode.filtered, List.mem_cons, List.not_mem_nil, or_false]
    exact or_left_comm
  intro s valid
  obtain ⟨s', loop, after, members⟩ := foldlM_registers _ (fun a member => each a ((same a).mp member)) s valid
  refine ⟨s', loop, after, fun pair => ?_⟩
  simp only [members, same]

/-- The pairs registered are those of the property filter, each once. -/
theorem startEventDetection_registers (eventMap : EventMap) (set : PropertyFilterSet)
    (loaded : loadPropertyFilterSet eventMap.events = .ok set)
    (plain : ∀ e ∈ eventMap.events, ∀ a ∈ e.filtered, ∀ interface, a.getDbusInterface = .ok interface →
      ':' ∉ interface.toList) :
    ∃ handlerList, startEventDetection eventMap = .ok handlerList ∧ handlerList.Nodup ∧
      ∀ object interface, (object, interface) ∈ handlerList ↔
        object ≠ "" ∧ interface ≠ "" ∧ ∃ property, (property, interface, object) ∈ set := by
  have added : ∀ e ∈ eventMap.events, ∀ a ∈ e.filtered,
      ∃ before after, EventNode.addAccessorToPropertyFilterSet before a = .ok after := by
    intro e inside a member
    obtain ⟨_, _, loop⟩ := foldlM_each loaded inside
    exact foldlM_each loop member
  have events : ∀ e ∈ eventMap.events,
      Registers subscribeEvent (fun e pair => ∃ a ∈ e.filtered, Subscribes a pair) e := by
    intro e inside
    apply subscribeEvent_registers
    intro a member
    obtain ⟨_, _, one⟩ := added e inside a member
    exact subscribeAcc_registers one (plain e inside a member)
  have start : ({} : Subscriptions).Valid :=
    ⟨List.nodup_nil, fun _ member => (List.not_mem_nil member).elim, fun key => by simp⟩
  obtain ⟨s, loop, valid, members⟩ := foldlM_registers eventMap.toList
    (fun dev listed => foldlM_registers dev.2
      fun e inside => events e (List.mem_flatMap.mpr ⟨dev, listed, inside⟩)) {} start
  refine ⟨s.handlerList, ?_, valid.once, fun object interface => ?_⟩
  · rw [startEventDetection]
    exact bind_ok_iff.mpr ⟨s, loop, rfl⟩
  · rw [members]
    constructor
    · intro either
      obtain ⟨dev, listed, e, inside, a, member, subscribes⟩ := either.resolve_left List.not_mem_nil
      have event : e ∈ eventMap.events := List.mem_flatMap.mpr ⟨dev, listed, inside⟩
      obtain ⟨_, _, one⟩ := added e event a member
      obtain ⟨objects, interfaces, property, expands⟩ := (subscribes_iff one object interface).mp subscribes
      exact ⟨objects, interfaces, property, (loadPropertyFilterSet_mem loaded _).mpr ⟨e, event, a, member, expands⟩⟩
    · intro both
      obtain ⟨objects, interfaces, property, entry⟩ := both
      obtain ⟨e, event, a, member, expands⟩ := (loadPropertyFilterSet_mem loaded _).mp entry
      obtain ⟨dev, listed, inside⟩ := List.mem_flatMap.mp event
      obtain ⟨_, _, one⟩ := added e event a member
      exact Or.inr ⟨dev, listed, e, inside, a, member,
        (subscribes_iff one object interface).mpr ⟨objects, interfaces, property, expands⟩⟩

def sameRange : EventNode := { accessor := present "/GPU[1-2]", trigger := present "/GPU[2-3]" }

/-- Two patterns that share a path: it is registered, once. -/
theorem startEventDetection_registers_overlap :
    ∃ handlerList, startEventDetection ((∅ : EventMap).insert "GPU" [sameRange]) = .ok handlerList ∧
      handlerList.Nodup ∧ ("/GPU2", "Item") ∈ handlerList := by
  have events : EventMap.events ((∅ : EventMap).insert "GPU" [sameRange]) = [sameRange] := rfl
  have accessors : ∀ e ∈ [sameRange], ∀ a ∈ e.filtered,
      a = present "/GPU[1-2]" ∨ a = present "/GPU[2-3]" ∨ a = {} := by
    intro e inside a member
    obtain rfl := List.mem_singleton.mp inside
    simpa [EventNode.filtered, sameRange] using member
  obtain ⟨set, loaded⟩ : ∃ set, loadPropertyFilterSet [sameRange] = .ok set := by
    apply loadPropertyFilterSet_total
    intro e inside a member
    rcases accessors e inside a member with rfl | rfl | rfl
    · exact present_filterable (DataAccessor.accepted_of_isOk (by decide))
    · exact present_filterable (DataAccessor.accepted_of_isOk (by decide))
    · exact Or.inl rfl
  obtain ⟨handlerList, started, once, members⟩ := startEventDetection_registers _ set (events ▸ loaded) (by
    rw [events]
    intro e inside a member interface read
    rcases accessors e inside a member with rfl | rfl | rfl
    · obtain rfl := Except.ok.inj read
      decide
    · obtain rfl := Except.ok.inj read
      decide
    · obtain rfl := Except.ok.inj read
      decide)
  refine ⟨handlerList, started, once, (members "/GPU2" "Item").mpr ⟨by decide, by decide, "Present", ?_⟩⟩
  rw [loadPropertyFilterSet_mem loaded]
  have path : DataAccessor.IsValueOf "/GPU2" "/GPU[1-2]" := by
    have matched : (DeviceIdPattern.ofString "/GPU[1-2]").bind (fun p => p.matchesString "/GPU2") = .ok true := by
      decide
    obtain ⟨p, built, matched⟩ := bind_ok matched
    obtain ⟨b, answered, iff⟩ := DeviceIdPattern.matchesString_iff p "/GPU2"
    rw [answered] at matched
    exact ⟨p, built, iff.mp (Except.ok.inj matched)⟩
  exact ⟨sameRange, List.mem_singleton_self _, present "/GPU[1-2]", by simp [EventNode.filtered, sameRange],
    ⟨rfl, by decide⟩, rfl, rfl, "/GPU[1-2]", rfl, path⟩

end MonitorEventing.Detection
