import MonitorEventing.EventInfo.LoadFromJson

/-!
# The events behind the views

The loader makes every event once and puts pointers to it into the views. The events are numbered in the
order they are made, and the number stands for the pointer.
-/

namespace MonitorEventing.EventInfo
open Accessor DataAccessor Dat Schema

variable {hashFn : String → UInt64}

/-- The views as the detection gets them. -/
structure Views (hashFn : String → UInt64) (Ref : Type) where
  eventTriggerView : EventView hashFn Ref
  eventAccessorView : EventView hashFn Ref
  eventRecoveryView : EventView hashFn Ref

def pairs {β : Type} (view : EventView hashFn β) : List (DataAccessor × β) :=
  view.map fun entry => (entry.key, entry.value)

def withValues {β γ : Type} (view : EventView hashFn β) (values : List γ) : EventView hashFn γ :=
  List.zipWith (fun entry value => ⟨entry.code, entry.key, value, entry.hashed⟩) view values

namespace Loaded

/-- The events in the order they were made, which is that of the first view. -/
def events (loaded : Loaded hashFn) : List EventNode := loaded.eventTriggerView.map (·.value)

def recovering (loaded : Loaded hashFn) : List (EventNode × Nat) :=
  loaded.events.zipIdx.filter fun numbered => !numbered.1.recoveryAccessor.isEmpty

def views (loaded : Loaded hashFn) : Views hashFn Nat where
  eventTriggerView := withValues loaded.eventTriggerView (loaded.events.zipIdx.map (·.2))
  eventAccessorView := withValues loaded.eventAccessorView (loaded.events.zipIdx.map (·.2))
  eventRecoveryView := withValues loaded.eventRecoveryView (loaded.recovering.map (·.2))

/-- What loading an event adds. -/
structure Adds (e : EventNode) (loaded loaded' : Loaded hashFn) : Prop where
  filter : EventNode.addEventToPropertyFilterSet loaded.propertyFilterSet e = .ok loaded'.propertyFilterSet
  triggers : pairs loaded'.eventTriggerView = pairs loaded.eventTriggerView ++ [(e.trigger, e)]
  accessors : pairs loaded'.eventAccessorView = pairs loaded.eventAccessorView ++ [(e.accessor, e)]
  recoveries : pairs loaded'.eventRecoveryView = pairs loaded.eventRecoveryView ++
    if e.recoveryAccessor.isEmpty then [] else [(e.recoveryAccessor, e)]
  eventMap : loaded'.eventMap = loaded.eventMap

/-- Every view leads to the events it has a key of, and the filter was filled from all. -/
structure Shares (loaded : Loaded hashFn) : Prop where
  triggers : pairs loaded.eventTriggerView = loaded.events.map fun e => (e.trigger, e)
  accessors : pairs loaded.eventAccessorView = loaded.events.map fun e => (e.accessor, e)
  recoveries : pairs loaded.eventRecoveryView =
    (loaded.events.filter fun e => !e.recoveryAccessor.isEmpty).map fun e => (e.recoveryAccessor, e)
  filtered : ∀ e ∈ loaded.events, ∀ a ∈ e.filtered,
    ∃ before after, EventNode.addAccessorToPropertyFilterSet before a = .ok after

/-- The map has the events that the views lead to. -/
def MapsEvents (loaded : Loaded hashFn) : Prop := ∀ e, e ∈ loaded.eventMap.events ↔ e ∈ loaded.events

end Loaded

/-! ### Loading -/

section
variable {buckets : EventView.Buckets hashFn EventNode}

theorem insert_pairs {β : Type} {buckets : EventView.Buckets hashFn β} {view view' : EventView hashFn β}
    {key : DataAccessor} {value : β} (inserted : EventView.insert buckets view key value = .ok view') :
    pairs view' = pairs view ++ [(key, value)] := by
  unfold EventView.insert at inserted
  split at inserted
  · cases inserted
  · obtain ⟨_, _, inserted⟩ := bind_ok inserted
    rw [← pure_ok_iff.mp inserted, pairs, List.map_append]
    rfl

theorem insertRecovery_pairs {view view' : EventView hashFn EventNode} {e : EventNode}
    (inserted : insertRecovery buckets view e = .ok view') : pairs view' = pairs view ++
      if e.recoveryAccessor.isEmpty then [] else [(e.recoveryAccessor, e)] := by
  unfold insertRecovery at inserted
  split at inserted
  · rename_i empty
    rw [if_pos empty, List.append_nil, pure_ok_iff.mp inserted]
  · rename_i used
    rw [if_neg used, insert_pairs inserted]

namespace Loaded

theorem loadEvent_adds {v : List EventNode} {loaded : Loaded hashFn} {event : Json}
    {r : List EventNode × Loaded hashFn} (run : loadEvent buckets (v, loaded) event = .ok r) :
    ∃ e, r.1 = v ++ [e] ∧ Adds e loaded r.2 := by
  unfold loadEvent at run
  iterate 2 obtain ⟨_, _, run⟩ := bind_ok run
  obtain ⟨e, _, run⟩ := bind_ok run
  obtain ⟨set, added, run⟩ := bind_ok run
  obtain ⟨triggerView, insertedTrigger, run⟩ := bind_ok run
  obtain ⟨accessorView, insertedAccessor, run⟩ := bind_ok run
  obtain ⟨recoveryView, insertedRecovery, run⟩ := bind_ok run
  obtain rfl := pure_ok_iff.mp run
  exact ⟨e, rfl, added, insert_pairs insertedTrigger, insert_pairs insertedAccessor,
    insertRecovery_pairs insertedRecovery, rfl⟩

theorem events_eq (loaded : Loaded hashFn) : loaded.events = (pairs loaded.eventTriggerView).map (·.2) := by
  simp [Loaded.events, pairs]

theorem Adds.events {e : EventNode} {loaded loaded' : Loaded hashFn} (adds : Adds e loaded loaded') :
    loaded'.events = loaded.events ++ [e] := by
  rw [events_eq, events_eq, adds.triggers, List.map_append]
  rfl

theorem Adds.shares {e : EventNode} {loaded loaded' : Loaded hashFn} (adds : Adds e loaded loaded')
    (shares : loaded.Shares) : loaded'.Shares := by
  refine ⟨?_, ?_, ?_, ?_⟩
  · rw [adds.triggers, shares.triggers, adds.events, List.map_append]
    rfl
  · rw [adds.accessors, shares.accessors, adds.events, List.map_append]
    rfl
  · rw [adds.recoveries, shares.recoveries, adds.events, List.filter_append, List.map_append]
    cases used : e.recoveryAccessor.isEmpty <;> simp [used]
  · intro other member a inside
    rw [adds.events] at member
    rcases List.mem_append.mp member with old | new
    · exact shares.filtered other old a inside
    · obtain rfl := List.mem_singleton.mp new
      exact foldlM_each adds.filter inside

/-- One device type, whose events are collected on the way. -/
theorem loadEvents_adds {events : List Json} {v v' : List EventNode} {loaded loaded' : Loaded hashFn}
    (shares : loaded.Shares) (run : events.foldlM (loadEvent buckets) (v, loaded) = .ok (v', loaded')) :
    ∃ new, v' = v ++ new ∧ loaded'.events = loaded.events ++ new ∧ loaded'.Shares ∧
      loaded'.eventMap = loaded.eventMap := by
  induction events generalizing v loaded with
  | nil =>
    rw [List.foldlM_nil, pure_ok_iff, Prod.mk.injEq] at run
    obtain ⟨rfl, rfl⟩ := run
    exact ⟨[], by simp, by simp, shares, rfl⟩
  | cons event rest ih =>
    rw [List.foldlM_cons] at run
    obtain ⟨⟨v₁, loaded₁⟩, first, run⟩ := bind_ok run
    obtain ⟨e, collected, adds⟩ := loadEvent_adds first
    obtain ⟨new, values, events, after, map⟩ := ih (adds.shares shares) run
    refine ⟨e :: new, ?_, ?_, after, map.trans adds.eventMap⟩
    · rw [values]
      have same : v₁ = v ++ [e] := collected
      rw [same, List.append_assoc]
      rfl
    · rw [events, adds.events, List.append_assoc]
      rfl

theorem mem_events_iff {eventMap : EventMap} {e : EventNode} :
    e ∈ eventMap.events ↔ ∃ (type : String) (v : List EventNode), eventMap[type]? = some v ∧ e ∈ v := by
  rw [EventMap.events, List.mem_flatMap]
  constructor
  · intro listed
    obtain ⟨entry, member, inside⟩ := listed
    exact ⟨entry.1, entry.2, Std.TreeMap.mem_toList_iff_getElem?_eq_some.mp member, inside⟩
  · intro stored
    obtain ⟨type, v, read, inside⟩ := stored
    exact ⟨(type, v), Std.TreeMap.mem_toList_iff_getElem?_eq_some.mpr read, inside⟩

theorem mem_events_insertIfNew {eventMap : EventMap} {type : String} (fresh : type ∉ eventMap) (v : List EventNode)
    {e : EventNode} : e ∈ EventMap.events (eventMap.insertIfNew type v) ↔ e ∈ eventMap.events ∨ e ∈ v := by
  simp only [mem_events_iff, StringMap.getElem?_insertIfNew]
  constructor
  · intro stored
    obtain ⟨other, held, read, inside⟩ := stored
    split at read
    · obtain rfl := Option.some.inj read
      exact Or.inr inside
    · exact Or.inl ⟨other, held, read, inside⟩
  · intro either
    rcases either with ⟨other, held, read, inside⟩ | new
    · refine ⟨other, held, ?_, inside⟩
      rw [if_neg ?_]
      · exact read
      · rintro ⟨rfl, _⟩
        exact fresh (StringMap.mem_iff.mpr ⟨held, read⟩)
    · exact ⟨type, v, by simp [fresh], new⟩

theorem loadDeviceType_adds {loaded loaded' : Loaded hashFn} {el : String × Json} (shares : loaded.Shares)
    (maps : loaded.MapsEvents) (fresh : el.1 ∉ loaded.eventMap)
    (run : loadDeviceType buckets loaded el = .ok loaded') :
    loaded'.Shares ∧ loaded'.MapsEvents ∧ ∀ type, type ∈ loaded'.eventMap ↔ type = el.1 ∨ type ∈ loaded.eventMap := by
  obtain ⟨⟨v, last⟩, inner, run⟩ := bind_ok run
  obtain rfl := pure_ok_iff.mp run
  obtain ⟨new, collected, events, ⟨triggers, accessors, recoveries, filtered⟩, map⟩ := loadEvents_adds shares inner
  rw [List.nil_append] at collected
  have kept : el.1 ∉ last.eventMap := map.symm ▸ fresh
  refine ⟨⟨triggers, accessors, recoveries, filtered⟩, fun e => ?_, fun type => ?_⟩
  · show e ∈ EventMap.events (last.eventMap.insertIfNew el.1 v) ↔ e ∈ last.events
    rw [mem_events_insertIfNew kept, map, maps e, collected, events, List.mem_append]
  · show type ∈ last.eventMap.insertIfNew el.1 v ↔ _
    rw [map, StringMap.mem_insertIfNew, eq_comm]

theorem loadDeviceTypes_adds {types : List (String × Json)} {loaded loaded' : Loaded hashFn} (shares : loaded.Shares)
    (maps : loaded.MapsEvents) (unique : (types.map (·.1)).Nodup) (fresh : ∀ el ∈ types, el.1 ∉ loaded.eventMap)
    (run : types.foldlM (loadDeviceType buckets) loaded = .ok loaded') : loaded'.Shares ∧ loaded'.MapsEvents := by
  induction types generalizing loaded with
  | nil =>
    obtain rfl := pure_ok_iff.mp run
    exact ⟨shares, maps⟩
  | cons el rest ih =>
    rw [List.foldlM_cons] at run
    obtain ⟨next, first, run⟩ := bind_ok run
    obtain ⟨new, distinct⟩ := List.nodup_cons.mp unique
    obtain ⟨here, later⟩ := List.forall_mem_cons.mp fresh
    obtain ⟨shares, maps, types⟩ := loadDeviceType_adds shares maps here first
    refine ih shares maps distinct (fun other member stored => ?_) run
    rcases (types other.1).mp stored with same | old
    · exact new (List.mem_map.mpr ⟨other, member, same⟩)
    · exact later other member old

/-- After loading, the views and the map have the same events. -/
theorem loadFromJson_shares {j : Json} {loaded : Loaded hashFn} (isObject : typeOf j = .object)
    (ordered : keysInOrder j = true) (run : loadFromJson buckets {} j = .ok loaded) :
    loaded.Shares ∧ loaded.MapsEvents := by
  obtain ⟨members, rfl⟩ := typeOf_object isObject
  have unique : (members.map (·.1)).Nodup := (keysInOrder_items ordered).imp fun before => ne_of_lt before
  have shares : ({} : Loaded hashFn).Shares := ⟨rfl, rfl, rfl, by simp [Loaded.events]⟩
  have maps : ({} : Loaded hashFn).MapsEvents := by simp [Loaded.MapsEvents, Loaded.events, EventMap.events]
  exact loadDeviceTypes_adds shares maps unique (by simp) run

end Loaded

end

/-! ### Pointers -/

theorem pairs_withValues {α β γ : Type} (view : EventView hashFn β) (xs : List α) (key : α → DataAccessor)
    (value : α → γ) (keys : view.map (·.key) = xs.map key) :
    pairs (withValues view (xs.map value)) = xs.map fun x => (key x, value x) := by
  induction view generalizing xs with
  | nil =>
    obtain rfl := List.map_eq_nil_iff.mp keys.symm
    rfl
  | cons entry rest ih =>
    cases xs with
    | nil => cases keys
    | cons x xs =>
      rw [List.map_cons, List.map_cons] at keys
      obtain ⟨here, later⟩ := List.cons.inj keys
      rw [List.map_cons, List.map_cons, ← here, ← ih xs later]
      rfl

theorem keys_eq_pairs {β : Type} (view : EventView hashFn β) : view.map (·.key) = (pairs view).map (·.1) := by
  simp [pairs]

namespace Loaded

theorem Shares.triggerView {loaded : Loaded hashFn} (shares : loaded.Shares) :
    pairs loaded.views.eventTriggerView = loaded.events.zipIdx.map fun numbered => (numbered.1.trigger, numbered.2) := by
  apply pairs_withValues
  rw [keys_eq_pairs, shares.triggers, List.map_map]
  conv_lhs => rw [← List.zipIdx_map_fst 0 loaded.events, List.map_map]
  rfl

theorem Shares.accessorView {loaded : Loaded hashFn} (shares : loaded.Shares) :
    pairs loaded.views.eventAccessorView =
      loaded.events.zipIdx.map fun numbered => (numbered.1.accessor, numbered.2) := by
  apply pairs_withValues
  rw [keys_eq_pairs, shares.accessors, List.map_map]
  conv_lhs => rw [← List.zipIdx_map_fst 0 loaded.events, List.map_map]
  rfl

theorem Shares.recoveryView {loaded : Loaded hashFn} (shares : loaded.Shares) :
    pairs loaded.views.eventRecoveryView =
      loaded.recovering.map fun numbered => (numbered.1.recoveryAccessor, numbered.2) := by
  apply pairs_withValues
  rw [keys_eq_pairs, shares.recoveries, List.map_map]
  conv_lhs => rw [← List.zipIdx_map_fst 0 loaded.events, List.filter_map, List.map_map]
  rfl

end Loaded

end MonitorEventing.EventInfo
