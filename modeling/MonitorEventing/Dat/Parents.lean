import MonitorEventing.Dat.Traverse

/-!
# Parents and associations

The two adjacency lists of the table: the associations as they are loaded, and the parents, which a second
pass adds to the devices of the map it walks.
-/

namespace MonitorEventing.Dat
open Accessor

/-- The associations of the devices, with the device in front. -/
def edgesOf (entries : List (String × Device)) : List (String × String) :=
  entries.flatMap fun entry => entry.2.association.map (Prod.mk entry.1)

def Device.withParents (device : Device) (parents : List String) : Device :=
  { device with parents := device.parents ++ parents }

/-- The devices with an edge to this one, once for each. -/
def intoOf (edges : List (String × String)) (name : String) : List String :=
  (edges.filter fun edge => edge.2 = name).map (·.1)

theorem count_intoOf (edges : List (String × String)) (parent child : String) :
    (intoOf edges child).count parent = edges.count (parent, child) := by
  induction edges with
  | nil => rfl
  | cons edge edges ih =>
    obtain ⟨from_, to_⟩ := edge
    by_cases here : to_ = child
    · have first : intoOf ((from_, to_) :: edges) child = from_ :: intoOf edges child := by simp [intoOf, here]
      rw [first, List.count_cons, List.count_cons, ih]
      simp [here]
    · have skipped : intoOf ((from_, to_) :: edges) child = intoOf edges child := by simp [intoOf, here]
      rw [skipped, List.count_cons, ih]
      simp [here]

theorem count_edgesOf_of_not_mem {entries : List (String × Device)} {parent : String}
    (absent : parent ∉ entries.map (·.1)) (child : String) : (edgesOf entries).count (parent, child) = 0 := by
  rw [List.count_eq_zero]
  intro member
  obtain ⟨entry, listed, edge⟩ := List.mem_flatMap.mp member
  obtain ⟨other, _, same⟩ := List.mem_map.mp edge
  obtain ⟨same, _⟩ := Prod.mk.inj same
  exact absent (List.mem_map.mpr ⟨entry, listed, same⟩)

/-- A device that is listed once has each edge as often as its association list has the child. -/
theorem count_edgesOf {entries : List (String × Device)} (unique : (entries.map (·.1)).Nodup) {parent : String}
    {device : Device} (member : (parent, device) ∈ entries) (child : String) :
    (edgesOf entries).count (parent, child) = device.association.count child := by
  induction entries with
  | nil => cases member
  | cons entry entries ih =>
    rw [List.map_cons, List.nodup_cons] at unique
    have split : edgesOf (entry :: entries) = entry.2.association.map (Prod.mk entry.1) ++ edgesOf entries := rfl
    rw [split, List.count_append]
    rcases List.mem_cons.mp member with rfl | later
    · rw [count_edgesOf_of_not_mem unique.1, Nat.add_zero]
      exact List.count_map_of_injective _ _ (Prod.mk_right_injective parent) child
    · have other : entry.1 ≠ parent := by
        intro same
        exact unique.1 (same ▸ List.mem_map_of_mem later)
      have none : (entry.2.association.map (Prod.mk entry.1)).count (parent, child) = 0 := by
        rw [List.count_eq_zero]
        intro inside
        obtain ⟨_, _, same⟩ := List.mem_map.mp inside
        exact other (Prod.mk.inj same).1
      rw [none, Nat.zero_add, ih unique.2 later]

namespace DAT

theorem getElem?_put (dat : DAT) (device : Device) (name : String) :
    (dat.put device).devices[name]? = if device.name = name then some device else dat.devices[name]? :=
  StringMap.getElem?_insert dat.devices device.name name device

/-! ### The second pass -/

theorem getElem?_addParent (dat : DAT) (child parent name : String) : (dat.addParent child parent).devices[name]? =
    (dat.devices[name]?).map fun device => device.withParents (intoOf [(parent, child)] name) := by
  unfold addParent
  split
  · rename_i device found
    have named : device.name = child := dat.named child device found
    rw [getElem?_put]
    by_cases here : child = name
    · subst here
      simp [named, found, intoOf, Device.withParents]
    · simp [named, here, intoOf, Device.withParents]
  · rename_i missing
    by_cases here : child = name
    · subst here
      simp [missing]
    · simp [here, intoOf, Device.withParents]

theorem getElem?_addParents (edges : List (String × String)) (dat : DAT) (name : String) :
    (edges.foldl (fun dat edge => dat.addParent edge.2 edge.1) dat).devices[name]? =
      (dat.devices[name]?).map fun device => device.withParents (intoOf edges name) := by
  induction edges generalizing dat with
  | nil => simp [intoOf, Device.withParents]
  | cons edge edges ih =>
    have split : intoOf (edge :: edges) name = intoOf [edge] name ++ intoOf edges name := by
      rw [intoOf, ← List.singleton_append, List.filter_append, List.map_append]
      rfl
    rw [List.foldl_cons, ih, getElem?_addParent, Option.map_map]
    congr 1
    funext device
    simp [split, Device.withParents]

/-- The loops of the second pass are one loop over the edges. -/
theorem foldl_addParent_eq (entries : List (String × Device)) (dat : DAT) :
    entries.foldl (fun dat entry => entry.2.association.foldl (fun dat child => dat.addParent child entry.1) dat) dat =
      (edgesOf entries).foldl (fun dat edge => dat.addParent edge.2 edge.1) dat := by
  rw [edgesOf, List.foldl_flatMap]
  simp only [List.foldl_map]

/-! ### The first pass -/

theorem getElem?_insertNew (dat : DAT) (device : Device) (name : String) : (dat.insertNew device).devices[name]? =
    (dat.devices[name]?).or (if device.name = name then some device else none) := by
  unfold insertNew
  split
  · rename_i present
    by_cases here : device.name = name
    · subst here
      obtain ⟨first, found⟩ := StringMap.mem_iff.mp present
      simp [found]
    · simp [here]
  · rename_i absent
    rw [getElem?_put]
    by_cases here : device.name = name
    · subst here
      simp [StringMap.not_mem_iff.mp absent]
    · simp [here]

theorem getElem?_foldl_insertNew (loaded : List Device) (dat : DAT) (name : String) :
    (loaded.foldl insertNew dat).devices[name]? =
      (dat.devices[name]?).or (loaded.find? fun device => device.name = name) := by
  induction loaded generalizing dat with
  | nil => simp
  | cons device loaded ih =>
    rw [List.foldl_cons, ih, getElem?_insertNew, List.find?_cons, Option.or_assoc]
    by_cases here : device.name = name
    · simp [here]
    · simp [here]

end DAT

/-- A device as its JSON has it, with no parents yet. -/
structure AsLoaded (name : String) (j : Json) (device : Device) : Prop where
  named : device.name = name
  alone : device.parents = []
  type : Device.typeOf j = .ok device.type
  association : (j.index "association" >>= getStrings) = .ok device.association
  layers : ∃ layers, (layersOf j).mapM (loadLayer j) = .ok layers ∧ device.test = testOf layers ∧
    device.testpointCount = countOf layers

theorem Device.ofJson_asLoaded {name : String} {j : Json} {device : Device} (h : Device.ofJson name j = .ok device) :
    AsLoaded name j device := by
  obtain ⟨type, typed, h⟩ := bind_ok h
  obtain ⟨_, _, h⟩ := bind_ok h
  obtain ⟨_, _, h⟩ := bind_ok h
  obtain ⟨children, read, h⟩ := bind_ok h
  obtain ⟨association, strings, h⟩ := bind_ok h
  split at h
  · cases h
  · rename_i layers loaded
    rw [← pure_ok_iff.mp h]
    exact ⟨rfl, rfl, typed, bind_ok_iff.mpr ⟨children, read, strings⟩, layers, loaded, rfl, rfl⟩

theorem Device.ofJson_ok {name : String} {j : Json} {type : DeviceType} {paths : Option String × Option String}
    {setHealth : Option Bool} {association : List String} {layers : List (String × List (String × TestPoint))}
    (typed : Device.typeOf j = .ok type) (pathed : Device.dbusPathsOf j = .ok paths)
    (set : getOptionalAttribute getBool j "dbus_set_health" = .ok setHealth)
    (associates : (j.index "association" >>= getStrings) = .ok association)
    (loaded : (layersOf j).mapM (loadLayer j) = .ok layers) : ∃ device, Device.ofJson name j = .ok device := by
  obtain ⟨children, read, strings⟩ := bind_ok_iff.mp associates
  simp only [Device.ofJson, bind, Except.bind, typed, pathed, set, read, strings]
  split
  · rename_i failed
    cases loaded.symm.trans failed
  · exact ⟨_, rfl⟩

/-- A device has test points if one was loaded, and says so if their number is no multiple of 2^32. -/
theorem AsLoaded.points {name : String} {j : Json} {device : Device} (h : AsLoaded name j device) :
    ∃ layers, (layersOf j).mapM (loadLayer j) = .ok layers ∧ (HasPoints device.test ↔ 0 < pointsIn layers) ∧
      (device.hasTestpoints = true ↔ pointsIn layers % 2 ^ 32 ≠ 0) := by
  obtain ⟨layers, loaded, test, count⟩ := h.layers
  have unique : (layers.map (·.1)).Nodup := by
    rw [loaded_names loaded]
    exact layersOf_nodup j
  refine ⟨layers, loaded, ?_, ?_⟩
  · rw [test]
    exact (pointsIn_pos_iff unique).symm
  · rw [Device.hasTestpoints_iff, count]
    exact countOf_ne_zero_iff layers

theorem find?_loaded {items : List (String × Json)} {loaded : List Device}
    (each : List.Forall₂ (fun el device => Device.ofJson el.1 el.2 = .ok device) items loaded) {name : String}
    {device : Device} (found : (loaded.find? fun device => device.name = name) = some device) :
    ∃ value, items.lookup name = some value ∧ Device.ofJson name value = .ok device := by
  induction each with
  | nil => cases found
  | @cons el first items loaded made _ ih =>
    obtain ⟨key, value⟩ := el
    have named : first.name = key := (Device.ofJson_asLoaded made).named
    rw [List.find?_cons, named] at found
    rw [lookup_cons_if]
    by_cases here : key = name
    · subst here
      simp only [decide_true, Option.some.injEq] at found
      exact ⟨value, by simp, found ▸ made⟩
    · simp only [here, decide_false] at found
      rw [if_neg here]
      exact ih found

theorem names_loaded {items : List (String × Json)} {loaded : List Device}
    (each : List.Forall₂ (fun el device => Device.ofJson el.1 el.2 = .ok device) items loaded) :
    loaded.map Device.name = items.map (·.1) := by
  induction each with
  | nil => rfl
  | cons made _ ih => rw [List.map_cons, List.map_cons, ih, (Device.ofJson_asLoaded made).named]

/-- The table behind the first pass, and what the second makes of it. -/
theorem DAT.populateMap_empty {j : Json} {dat : DAT} (run : DAT.populateMap .empty j = .ok dat) : ∃ first : DAT,
    (∀ name device, first.devices[name]? = some device →
      ∃ value, (itemsOf j).lookup name = some value ∧ Device.ofJson name value = .ok device) ∧
    (∀ name, name ∈ first.devices ↔ name ∈ (itemsOf j).map (·.1)) ∧
    ∀ name : String, dat.devices[name]? = (first.devices[name]?).map
      fun device => device.withParents (intoOf (edgesOf first.devices.toList) name) := by
  obtain ⟨loaded, each, run⟩ := bind_ok run
  have second := pure_ok_iff.mp run
  rw [DAT.foldl_addParent_eq] at second
  have each := mapM_ok_iff.mp each
  have found (name : String) :
      (loaded.foldl DAT.insertNew .empty).devices[name]? = loaded.find? fun device => device.name = name := by
    rw [DAT.getElem?_foldl_insertNew]
    simp [DAT.empty]
  refine ⟨loaded.foldl DAT.insertNew .empty, ?_, ?_, ?_⟩
  · intro name device here
    rw [found] at here
    exact find?_loaded each here
  · intro name
    rw [← names_loaded each, Std.TreeMap.mem_iff_isSome_getElem?, found, List.find?_isSome]
    simp [eq_comm]
  · intro name
    rw [← second, DAT.getElem?_addParents]

theorem DAT.populateMap_asLoaded {j : Json} {dat : DAT} (run : DAT.populateMap .empty j = .ok dat) {name : String}
    {device : Device} (found : dat.devices[name]? = some device) :
    ∃ value, (itemsOf j).lookup name = some value ∧ AsLoaded name value { device with parents := [] } := by
  obtain ⟨first, loaded, -, table⟩ := DAT.populateMap_empty run
  rw [table] at found
  obtain ⟨device, before, rfl⟩ := Option.map_eq_some_iff.mp found
  obtain ⟨value, item, made⟩ := loaded name device before
  have asLoaded := Device.ofJson_asLoaded made
  refine ⟨value, item, asLoaded.named, rfl, asLoaded.type, asLoaded.association, asLoaded.layers⟩

/-- The parents are the associations the other way round, each as often; it is the first pass alone that makes the
devices and their association lists. -/
theorem DAT.populateMap_adjacency {j : Json} {dat : DAT} (run : DAT.populateMap .empty j = .ok dat) :
    (∀ (p c : String) (parent child : Device), dat.devices[p]? = some parent → dat.devices[c]? = some child →
      child.parents.count p = parent.association.count c) ∧
    (∀ name : String, name ∈ dat.devices ↔ name ∈ (itemsOf j).map (·.1)) ∧
    ∀ (name : String) (device : Device), dat.devices[name]? = some device → ∃ value loaded,
      (itemsOf j).lookup name = some value ∧ Device.ofJson name value = .ok loaded ∧
      { device with parents := [] } = loaded ∧
      (value.index "association" >>= getStrings) = .ok device.association := by
  obtain ⟨first, loaded, names, table⟩ := DAT.populateMap_empty run
  refine ⟨?_, ?_, ?_⟩
  · intro p c parent child parentHere childHere
    rw [table] at parentHere childHere
    obtain ⟨parent, before, rfl⟩ := Option.map_eq_some_iff.mp parentHere
    obtain ⟨child, childBefore, rfl⟩ := Option.map_eq_some_iff.mp childHere
    obtain ⟨_, -, made⟩ := loaded c child childBefore
    have unique := StringMap.names_nodup first.devices
    show (child.parents ++ intoOf (edgesOf first.devices.toList) c).count p = parent.association.count c
    rw [(Device.ofJson_asLoaded made).alone, List.nil_append, count_intoOf]
    exact count_edgesOf unique (Std.TreeMap.mem_toList_iff_getElem?_eq_some.mpr before) c
  · intro name
    rw [← names, StringMap.mem_iff, StringMap.mem_iff, table]
    simp
  · intro name device found
    rw [table] at found
    obtain ⟨device, before, rfl⟩ := Option.map_eq_some_iff.mp found
    obtain ⟨value, item, made⟩ := loaded name device before
    have asLoaded := Device.ofJson_asLoaded made
    refine ⟨value, device, item, made, ?_, asLoaded.association⟩
    rw [← asLoaded.alone]
    rfl

/-- A device that names itself, one child twice and one that does not exist. -/
def tangle : Json :=
  .object [("GPU_0", boardJson ["HSC_0", "GPU_0", "HSC_0", "Retimer_0"]), ("HSC_0", boardJson ["GPU_0"])]

theorem populateMap_adjacency_tangle : ∃ (dat : DAT) (parent child : Device), DAT.populateMap .empty tangle = .ok dat ∧
    dat.devices["GPU_0"]? = some parent ∧ dat.devices["HSC_0"]? = some child ∧ "Retimer_0" ∉ dat.devices ∧
    child.parents.count "GPU_0" = parent.association.count "HSC_0" := by
  have run : (DAT.populateMap .empty tangle).map (fun dat => (decide ("GPU_0" ∈ dat.devices),
      decide ("HSC_0" ∈ dat.devices))) = .ok (true, true) := by decide
  obtain ⟨dat, loaded, facts⟩ := map_ok run
  simp only [Prod.mk.injEq, decide_eq_true_eq] at facts
  obtain ⟨parent, here⟩ := StringMap.mem_iff.mp facts.1
  obtain ⟨child, there⟩ := StringMap.mem_iff.mp facts.2
  obtain ⟨counts, names, -⟩ := DAT.populateMap_adjacency loaded
  refine ⟨dat, parent, child, loaded, here, there, ?_, counts _ _ _ _ here there⟩
  rw [names]
  decide

end MonitorEventing.Dat
