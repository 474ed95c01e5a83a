import MonitorEventing.Dat.Traverse
import MonitorEventing.Dbus.ObjectMapper

/-!
# Health rollup associations

`datToDbusAssociation` writes what is reachable from a device into the associations of its objects. The bus is a
state that keeps what was written when an exception ends the run.
-/

namespace MonitorEventing.Dat
open Dbus Dbus.CachingObjectMapper Relation

/-! ### The associations on the bus -/

/-- Kind, kind of the way back, and object path. -/
abbrev PropertyType : Type := List (String × String × String)

structure AssociationBus where
  /-- By manager and object, or the text of the failure. -/
  associations : String → String → Except String PropertyType
  /-- The text of the failure to write. -/
  refused : String → String → Option String
  /-- The managers and objects written to, in their order. -/
  written : List (String × String)

def dbusGetDeviceAssociations (bus : AssociationBus) (manager devicePath : String) : Except Exn PropertyType :=
  match bus.associations manager devicePath with
  | .ok values => .ok values
  | .error what => .error (.runtimeError what)

def AssociationBus.put (bus : AssociationBus) (manager devicePath : String) (values : PropertyType) : AssociationBus :=
  { bus with
    associations := fun m path => if m = manager ∧ path = devicePath then .ok values else bus.associations m path
    written := bus.written ++ [(manager, devicePath)] }

def dbusSetDeviceAssociations (bus : AssociationBus) (manager devicePath : String) (values : PropertyType) :
    Except Exn AssociationBus :=
  match bus.refused manager devicePath with
  | some what => .error (.runtimeError what)
  | none => .ok (bus.put manager devicePath values)

def isRollup (elem : String × String × String) : Bool := elem.1 == "health_rollup"

def dbusSetHealthRollupAssociations (bus : AssociationBus) (manager devicePath : String)
    (subAssocDevicePaths : List String) : Except Exn AssociationBus := do
  let values ← dbusGetDeviceAssociations bus manager devicePath
  let kept := values.filter fun elem => !isRollup elem
  let newAssocs := subAssocDevicePaths.map fun path => ("health_rollup", "", path)
  dbusSetDeviceAssociations bus manager devicePath (kept ++ newAssocs)

/-! ### The run -/

/-- Everything reachable, the device itself included. -/
def getAssociationConnectedDevices (fuel : Nat) (dat : StringMap Device) (rootDevice : String) :
    Option (Except Exn (List String)) :=
  (childTraverse fuel dat rootDevice (fun _ => true) ([] : List (Action Unit)) ()).map fun outcome =>
    outcome.map (·.1)

section
variable {T : Type} (mapper : ObjectMapper T)

/-- The loop over the connected devices and their object paths. -/
def objPathAssociations : List String → T → Except Exn (List String × T)
  | [], om => pure ([], om)
  | devAssoc :: rest, om => do
    let (paths, om) ← mapper.getAllDevIdObjPaths om devAssoc []
    let (more, om) ← objPathAssociations rest om
    pure (paths ++ more, om)

/-- The loop over the device's own object paths. -/
def setRollups (assocs : List String) : List String → T → AssociationBus → AssociationBus × Except Exn T
  | [], om, bus => (bus, .ok om)
  | devObjPath :: rest, om, bus =>
    match mapper.getManager om devObjPath definitionsIntf with
    | .error e => (bus, .error e)
    | .ok (manager, om) =>
      if manager ≠ "" then
        match dbusSetHealthRollupAssociations bus manager devObjPath (assocs.filter fun elem => elem ≠ devObjPath) with
        | .error e => (bus, .error e)
        | .ok bus => setRollups assocs rest om bus
      else setRollups assocs rest om bus

/-- `datToDbusAssociation` for one device. -/
def datToDbusAssociationOf (fuel : Nat) (dat : StringMap Device) (om : T) (devId : String) (bus : AssociationBus) :
    Option (AssociationBus × Except Exn T) :=
  match getAssociationConnectedDevices fuel dat devId with
  | none => none
  | some (.error e) => some (bus, .error e)
  | some (.ok devices) =>
    match objPathAssociations mapper devices om with
    | .error e => some (bus, .error e)
    | .ok (assocs, om) =>
      match mapper.getAllDevIdObjPaths om devId [definitionsIntf] with
      | .error e => some (bus, .error e)
      | .ok (own, om) => some (setRollups mapper assocs own om bus)

def datToDbusAssociations (fuel : Nat) (dat : StringMap Device) : List String → T → AssociationBus →
    Option (AssociationBus × Except Exn T)
  | [], om, bus => some (bus, .ok om)
  | devId :: rest, om, bus =>
    match datToDbusAssociationOf mapper fuel dat om devId bus with
    | some (bus, .ok om) => datToDbusAssociations fuel dat rest om bus
    | ended => ended

end

/-- All devices of the table, with a mapper of its own. -/
def datToDbusAssociation (fuel : Nat) (dat : StringMap Device) (tree : Except Exn FullTreeType) (bus : AssociationBus) :
    Option (AssociationBus × Except Exn CachingObjectMapper) :=
  datToDbusAssociations (CachingObjectMapper.mapper tree) fuel dat (dat.toList.map (·.1)) {} bus

/-! ### Writes on the bus -/

/-- What one call of `dbusSetHealthRollupAssociations` is asked to do. -/
structure Write where
  manager : String
  path : String
  rollups : List String

def merged (old : PropertyType) (rollups : List String) : PropertyType :=
  (old.filter fun elem => !isRollup elem) ++ rollups.map fun path => ("health_rollup", "", path)

def rollupsOf (values : PropertyType) : List String := (values.filter isRollup).map fun elem => elem.2.2

def othersOf (values : PropertyType) : PropertyType := values.filter fun elem => !isRollup elem

@[simp] theorem othersOf_merged (old : PropertyType) (rollups : List String) :
    othersOf (merged old rollups) = othersOf old := by
  have none : (rollups.map fun path => ("health_rollup", "", path)).filter (fun elem => !isRollup elem) = [] := by
    simp [isRollup]
  rw [othersOf, merged, List.filter_append, none, List.append_nil, List.filter_filter, othersOf]
  simp only [Bool.and_self]

@[simp] theorem rollupsOf_merged (old : PropertyType) (rollups : List String) :
    rollupsOf (merged old rollups) = rollups := by
  have none : (old.filter fun elem => !isRollup elem).filter isRollup = [] := by
    simp [List.filter_filter]
  have all : (rollups.map fun path => ("health_rollup", "", path)).filter isRollup =
      rollups.map fun path => ("health_rollup", "", path) := List.filter_eq_self.mpr (by simp [isRollup])
  rw [rollupsOf, merged, List.filter_append, none, List.nil_append, all, List.map_map]
  exact List.map_id rollups

theorem merged_merged (old : PropertyType) (rollups : List String) :
    merged (merged old rollups) rollups = merged old rollups := by
  have same : othersOf (merged old rollups) = othersOf old := othersOf_merged old rollups
  rw [othersOf, othersOf] at same
  rw [merged, same, merged]

namespace AssociationBus

theorem put_here (bus : AssociationBus) (manager path : String) (values : PropertyType) :
    (bus.put manager path values).associations manager path = .ok values := if_pos ⟨rfl, rfl⟩

theorem put_elsewhere (bus : AssociationBus) {manager path m p : String} (other : (m, p) ≠ (manager, path))
    (values : PropertyType) : (bus.put manager path values).associations m p = bus.associations m p := by
  apply if_neg
  rintro ⟨rfl, rfl⟩
  exact other rfl

theorem put_same {bus : AssociationBus} {manager path : String} {values : PropertyType}
    (here : bus.associations manager path = .ok values) :
    (bus.put manager path values).associations = bus.associations := by
  funext m p
  by_cases place : (m, p) = (manager, path)
  · obtain ⟨rfl, rfl⟩ := Prod.mk.inj place
    rw [put_here, here]
  · rw [put_elsewhere bus place]

end AssociationBus

variable {bus bus' : AssociationBus} {manager path : String} {rollups : List String}

theorem setRollup_ok_iff : dbusSetHealthRollupAssociations bus manager path rollups = .ok bus' ↔
    ∃ old, bus.associations manager path = .ok old ∧ bus.refused manager path = none ∧
      bus' = bus.put manager path (merged old rollups) := by
  rw [dbusSetHealthRollupAssociations, bind_ok_iff, dbusGetDeviceAssociations]
  cases bus.associations manager path with
  | error what => simp
  | ok old =>
    cases allowed : bus.refused manager path with
    | some what => simp [dbusSetDeviceAssociations, allowed]
    | none => simp [dbusSetDeviceAssociations, allowed, merged, eq_comm]

/-- The writes in turn, up to the first that fails. -/
def perform : List (Except Exn Write) → AssociationBus → AssociationBus × Except Exn Unit
  | [], bus => (bus, .ok ())
  | .error e :: _, bus => (bus, .error e)
  | .ok write :: rest, bus =>
    match dbusSetHealthRollupAssociations bus write.manager write.path write.rollups with
    | .error e => (bus, .error e)
    | .ok bus => perform rest bus

def address : Except Exn Write → Option (String × String)
  | .ok write => some (write.manager, write.path)
  | .error _ => none

theorem places_cons (write : Write) (rest : List (Except Exn Write)) :
    (.ok write :: rest).filterMap address = (write.manager, write.path) :: rest.filterMap address := rfl

/-- What the writes of `steps` leave of the bus, where `new` is written to. -/
structure Performed (steps : List (Except Exn Write)) (bus : AssociationBus) (done : AssociationBus × Except Exn Unit)
    (new : List (String × String)) : Prop where
  refused : done.1.refused = bus.refused
  written : done.1.written = bus.written ++ new
  planned : ∀ place ∈ new, place ∈ steps.filterMap address
  merges : ∀ write, .ok write ∈ steps → (write.manager, write.path) ∈ new →
    ∃ old, bus.associations write.manager write.path = .ok old ∧
      done.1.associations write.manager write.path = .ok (merged old write.rollups)
  keeps : ∀ m p, (m, p) ∉ new → done.1.associations m p = bus.associations m p
  all : done.2 = .ok () → ∀ step ∈ steps, ∃ write, step = .ok write ∧ (write.manager, write.path) ∈ new

theorem Performed.stop {steps : List (Except Exn Write)} (e : Exn) : Performed steps bus (bus, .error e) [] := by
  refine ⟨rfl, (List.append_nil _).symm, ?_, ?_, fun _ _ _ => rfl, ?_⟩
  · simp
  · simp
  · intro same
    cases same

theorem Performed.step {write : Write} {rest : List (Except Exn Write)} {done : AssociationBus × Except Exn Unit}
    {new : List (String × String)} {old : PropertyType}
    (read : bus.associations write.manager write.path = .ok old)
    (once : (write.manager, write.path) ∉ rest.filterMap address)
    (h : Performed rest (bus.put write.manager write.path (merged old write.rollups)) done new) :
    Performed (.ok write :: rest) bus done ((write.manager, write.path) :: new) := by
  have later : (write.manager, write.path) ∉ new := fun member => once (h.planned _ member)
  refine ⟨h.refused, ?_, ?_, ?_, ?_, ?_⟩
  · rw [h.written]
    simp [AssociationBus.put]
  · rw [places_cons, List.forall_mem_cons]
    exact ⟨List.mem_cons_self, fun place member => List.mem_cons_of_mem _ (h.planned place member)⟩
  · intro other member done
    rcases List.mem_cons.mp member with same | member
    · obtain rfl := Except.ok.inj same
      refine ⟨old, read, ?_⟩
      rw [h.keeps _ _ later, AssociationBus.put_here]
    · have planned : (other.manager, other.path) ∈ rest.filterMap address := List.mem_filterMap.mpr ⟨_, member, rfl⟩
      have different : (other.manager, other.path) ≠ (write.manager, write.path) := fun same => once (same ▸ planned)
      obtain ⟨old', read', merges⟩ := h.merges other member (List.mem_of_ne_of_mem different done)
      rw [AssociationBus.put_elsewhere _ different] at read'
      exact ⟨old', read', merges⟩
  · intro m p outside
    rw [List.mem_cons, not_or] at outside
    rw [h.keeps m p outside.2, AssociationBus.put_elsewhere _ outside.1]
  · intro ended
    rw [List.forall_mem_cons]
    refine ⟨⟨write, rfl, List.mem_cons_self⟩, fun step member => ?_⟩
    obtain ⟨other, made, done⟩ := h.all ended step member
    exact ⟨other, made, List.mem_cons_of_mem _ done⟩

theorem perform_performed {steps : List (Except Exn Write)} (distinct : (steps.filterMap address).Nodup)
    (bus : AssociationBus) : ∃ new, Performed steps bus (perform steps bus) new := by
  induction steps generalizing bus with
  | nil => exact ⟨[], rfl, (List.append_nil _).symm, by simp, by simp, fun _ _ _ => rfl, by simp⟩
  | cons step rest ih =>
    cases step with
    | error e => exact ⟨[], .stop e⟩
    | ok write =>
      rw [perform]
      cases run : dbusSetHealthRollupAssociations bus write.manager write.path write.rollups with
      | error e => exact ⟨[], .stop e⟩
      | ok next =>
        obtain ⟨old, read, -, rfl⟩ := setRollup_ok_iff.mp run
        rw [places_cons] at distinct
        obtain ⟨once, distinct⟩ := List.nodup_cons.mp distinct
        obtain ⟨new, h⟩ := ih distinct (bus.put write.manager write.path (merged old write.rollups))
        exact ⟨_, h.step read once⟩

/-- On what the writes left of the bus they change nothing. -/
theorem perform_again {steps : List (Except Exn Write)} (distinct : (steps.filterMap address).Nodup)
    {bus again : AssociationBus} (refused : again.refused = bus.refused)
    (same : again.associations = (perform steps bus).1.associations) :
    (perform steps again).1.associations = again.associations := by
  induction steps generalizing bus again with
  | nil => rfl
  | cons step rest ih =>
    cases step with
    | error e => rfl
    | ok write =>
      rw [perform] at same ⊢
      cases run : dbusSetHealthRollupAssociations bus write.manager write.path write.rollups with
      | error e =>
        -- The write that failed fails again.
        rw [run] at same
        have same : again.associations = bus.associations := same
        cases rerun : dbusSetHealthRollupAssociations again write.manager write.path write.rollups with
        | error e' => rfl
        | ok next =>
          obtain ⟨old, read, allowed, -⟩ := setRollup_ok_iff.mp rerun
          rw [same] at read
          rw [refused] at allowed
          have succeeds : dbusSetHealthRollupAssociations bus write.manager write.path write.rollups = _ :=
            setRollup_ok_iff.mpr ⟨old, read, allowed, rfl⟩
          rw [run] at succeeds
          cases succeeds
      | ok next =>
        rw [run] at same
        obtain ⟨old, read, allowed, rfl⟩ := setRollup_ok_iff.mp run
        rw [places_cons] at distinct
        obtain ⟨once, distinct⟩ := List.nodup_cons.mp distinct
        obtain ⟨new, h⟩ := perform_performed distinct (bus.put write.manager write.path (merged old write.rollups))
        have here : again.associations write.manager write.path = .ok (merged old write.rollups) := by
          rw [same, h.keeps _ _ fun member => once (h.planned _ member), AssociationBus.put_here]
        rw [← refused] at allowed
        have rerun : dbusSetHealthRollupAssociations again write.manager write.path write.rollups = _ :=
          setRollup_ok_iff.mpr ⟨_, here, allowed, rfl⟩
        rw [merged_merged] at rerun
        have unchanged := AssociationBus.put_same here
        have held : (again.put write.manager write.path (merged old write.rollups)).refused =
            (bus.put write.manager write.path (merged old write.rollups)).refused := refused
        rw [rerun]
        exact (ih distinct held (unchanged.trans same)).trans unchanged

theorem perform_append (steps more : List (Except Exn Write)) (bus : AssociationBus) :
    perform (steps ++ more) bus =
      match perform steps bus with
      | (bus, .ok _) => perform more bus
      | (bus, .error e) => (bus, .error e) := by
  induction steps generalizing bus with
  | nil => rfl
  | cons step rest ih =>
    cases step with
    | error e => rfl
    | ok write =>
      rw [List.cons_append, perform, perform]
      cases dbusSetHealthRollupAssociations bus write.manager write.path write.rollups with
      | error e => rfl
      | ok next => exact ih next

/-! ### The connected devices -/

section
variable {dat : StringMap Device} {device : String}

variable (dat device) in
/-- What a traversal says of the devices connected to one, where it does not fail. -/
def Connects (outcome : Except Exn (List String × Surroundings Unit)) : Prop :=
  ∀ found s, outcome = .ok (found, s) → (∀ x, x ∈ found ↔ ReflTransGen (Associates dat) device x) ∧ ∀ x ∈ found, x ∈ dat

theorem connects_of_ended {result : List String} {s : Surroundings Unit}
    (worklist : Graph.Worklist (Associates dat) device {x | x ∈ [] ∧ x ∉ result} {x | x ∈ result ++ []})
    (known : ∀ x ∈ result, x ∈ dat) : Connects dat device (.ok (result, s)) := by
  intro found s same
  obtain ⟨rfl, -⟩ := Prod.mk.inj (Except.ok.inj same)
  simp only [List.append_nil, List.not_mem_nil, false_and] at worklist
  exact ⟨worklist.mem_iff, known⟩

/-- Without actions the traversal ends with what is reachable, or at a device that the table does not have. -/
theorem childFrom_connects {fuel : Nat} {toVisit result : List String}
    (worklist : Graph.Worklist (Associates dat) device {x | x ∈ toVisit ∧ x ∉ result} {x | x ∈ result ++ toVisit})
    (known : ∀ x ∈ result, x ∈ dat)
    (enough : toVisit.length + Queue.work dat.keys.toFinset (links dat) result ≤ fuel) :
    ∃ outcome, childFrom (fun _ => true) ([] : List (Action Unit)) fuel toVisit result (dat, ()) = some outcome ∧
      Connects dat device outcome := by
  induction fuel generalizing toVisit result with
  | zero =>
    obtain rfl : toVisit = [] := List.eq_nil_of_length_eq_zero (by omega)
    exact ⟨_, by rw [childFrom], connects_of_ended worklist known⟩
  | succ fuel ih =>
    cases toVisit with
    | nil => exact ⟨_, by rw [childFrom], connects_of_ended worklist known⟩
    | cons name toVisit =>
      rw [List.length_cons] at enough
      rw [childFrom]
      by_cases visited : name ∈ result
      · rw [if_pos visited]
        exact ih (worklist.pop visited) known (by omega)
      · rw [if_neg visited]
        by_cases present : name ∈ dat
        · obtain ⟨dev, found⟩ := StringMap.mem_iff.mp present
          have run : visit ([] : List (Action Unit)) (dat, ()) name = .ok ((dat, ()), dev) := by
            rw [visit, if_pos present, applyActions, found]
          have edges : ∀ y, Associates dat name y ↔ y ∈ pushed (fun _ => true) dev := by
            simp [Associates, found, pushed]
          have size : (pushed (fun _ => true) dev).length = links dat name := by
            simp [links, found, pushed]
          have spent : links dat name + Queue.work dat.keys.toFinset (links dat) (result ++ [name]) =
              Queue.work dat.keys.toFinset (links dat) result :=
            Queue.work_visit (by simpa using present) visited
          rw [run]
          apply ih (worklist.push visited edges)
          · simpa [or_imp, forall_and] using ⟨known, present⟩
          · rw [List.length_append]
            omega
        · rw [visit, if_neg present]
          refine ⟨_, rfl, fun found s same => ?_⟩
          cases same

theorem getAssociationConnectedDevices_connects {fuel : Nat} (enough : associationCount dat < fuel) (device : String) :
    ∃ outcome, getAssociationConnectedDevices fuel dat device = some outcome ∧ ∀ found, outcome = .ok found →
      (∀ x, x ∈ found ↔ ReflTransGen (Associates dat) device x) ∧ ∀ x ∈ found, x ∈ dat := by
  have bound : [device].length + Queue.work dat.keys.toFinset (links dat) [] ≤ fuel := by
    rw [List.length_singleton, work_nil]
    omega
  obtain ⟨outcome, run, connects⟩ := childFrom_connects (Graph.Worklist.alone device) (by simp) bound
  refine ⟨outcome.map (·.1), by rw [getAssociationConnectedDevices, childTraverse, run]; rfl, fun found same => ?_⟩
  obtain ⟨⟨_, s⟩, ended, rfl⟩ := map_ok same
  exact connects _ s ended

end

/-! ### The writes of a run -/

section
variable {tree : FullTreeType}

variable (tree) in
def objPaths (devId : String) : List String := devIdObjPaths tree devId []

variable (tree) in
/-- The object paths that have associations. -/
def ownPaths (devId : String) : List String := devIdObjPaths tree devId [definitionsIntf]

variable (tree) in
def writeTo (assocs : List String) (path : String) : Option Write :=
  if managerOf tree path definitionsIntf ≠ "" then
    some ⟨managerOf tree path definitionsIntf, path, assocs.filter fun elem => elem ≠ path⟩
  else none

variable (tree) in
def stepsOf (connected : Except Exn (List String)) (devId : String) : List (Except Exn Write) :=
  match connected with
  | .error e => [.error e]
  | .ok devices => ((ownPaths tree devId).filterMap (writeTo tree (devices.flatMap (objPaths tree)))).map .ok

theorem writeTo_some_iff {assocs : List String} {path : String} {write : Write} :
    writeTo tree assocs path = some write ↔ managerOf tree path definitionsIntf ≠ "" ∧
      write = ⟨managerOf tree path definitionsIntf, path, assocs.filter fun elem => elem ≠ path⟩ := by
  unfold writeTo
  split
  · rename_i managed
    simp [managed, eq_comm]
  · rename_i unmanaged
    simp [unmanaged]

theorem mem_stepsOf {connected : Except Exn (List String)} {devId : String} {write : Write} :
    .ok write ∈ stepsOf tree connected devId ↔ ∃ devices, connected = .ok devices ∧ write.path ∈ ownPaths tree devId ∧
      writeTo tree (devices.flatMap (objPaths tree)) write.path = some write := by
  cases connected with
  | error e => simp [stepsOf]
  | ok devices =>
    simp only [stepsOf, List.mem_map, Except.ok.injEq, exists_eq_right, List.mem_filterMap, exists_eq_left']
    constructor
    · rintro ⟨path, own, made⟩
      obtain ⟨-, rfl⟩ := writeTo_some_iff.mp made
      exact ⟨own, made⟩
    · rintro ⟨own, made⟩
      exact ⟨_, own, made⟩

theorem placed_of_all {connected : Except Exn (List String)} {devId path : String} {new : List (String × String)}
    (all : ∀ step ∈ stepsOf tree connected devId, ∃ write, step = .ok write ∧ (write.manager, write.path) ∈ new)
    (own : path ∈ ownPaths tree devId) (managed : managerOf tree path definitionsIntf ≠ "") :
    (managerOf tree path definitionsIntf, path) ∈ new := by
  cases connected with
  | error e =>
    obtain ⟨write, same, -⟩ := all (.error e) List.mem_cons_self
    cases same
  | ok devices =>
    obtain ⟨write, made⟩ : ∃ write, writeTo tree (devices.flatMap (objPaths tree)) path = some write :=
      ⟨_, writeTo_some_iff.mpr ⟨managed, rfl⟩⟩
    have shape := (writeTo_some_iff.mp made).2
    have atPath : write.path = path := by rw [shape]
    have byManager : write.manager = managerOf tree path definitionsIntf := by rw [shape]
    have member : .ok write ∈ stepsOf tree (.ok devices) devId := by
      rw [mem_stepsOf, atPath]
      exact ⟨devices, rfl, own, made⟩
    obtain ⟨other, same, done⟩ := all (.ok write) member
    obtain rfl := Except.ok.inj same
    rw [← byManager, ← atPath]
    exact done

variable {om : CachingObjectMapper} {mapping : Except Exn FullTreeType}

theorem objPathAssociations_eq (h : om.Mirrors mapping tree) (devices : List String) :
    ∃ om' : CachingObjectMapper, om'.Mirrors mapping tree ∧
      objPathAssociations (CachingObjectMapper.mapper mapping) devices om =
        .ok (devices.flatMap (objPaths tree), om') := by
  induction devices generalizing om with
  | nil => exact ⟨om, h, rfl⟩
  | cons devAssoc rest ih =>
    obtain ⟨om', kept, run⟩ := ih (mirrors_asked mapping tree)
    refine ⟨om', kept, ?_⟩
    rw [objPathAssociations, h.getAllDevIdObjPaths_eq]
    simp only [bind, Except.bind, run]
    rfl

theorem setRollups_eq (assocs : List String) {own : List String} (known : ∀ path ∈ own, path ∈ tree)
    (bus : AssociationBus) :
    setRollups (CachingObjectMapper.mapper mapping) assocs own ⟨true, tree⟩ bus =
      ((perform ((own.filterMap (writeTo tree assocs)).map .ok) bus).1,
        (perform ((own.filterMap (writeTo tree assocs)).map .ok) bus).2.map fun _ => ⟨true, tree⟩) := by
  induction own generalizing bus with
  | nil => rfl
  | cons path rest ih =>
    obtain ⟨here, later⟩ := List.forall_mem_cons.mp known
    rw [setRollups, (mirrors_asked mapping tree).getManager_eq here, List.filterMap_cons]
    dsimp only
    by_cases managed : managerOf tree path definitionsIntf ≠ ""
    · rw [if_pos managed, writeTo_some_iff.mpr ⟨managed, rfl⟩]
      simp only [List.map_cons, perform]
      cases dbusSetHealthRollupAssociations bus (managerOf tree path definitionsIntf) path
        (assocs.filter fun elem => elem ≠ path) with
      | error e => rfl
      | ok next => exact ih later next
    · rw [if_neg managed, writeTo, if_neg managed]
      exact ih later bus

theorem datToDbusAssociationOf_eq (h : om.Mirrors mapping tree) {fuel : Nat} {dat : StringMap Device} {devId : String}
    {connected : Except Exn (List String)} (ends : getAssociationConnectedDevices fuel dat devId = some connected)
    (bus : AssociationBus) :
    datToDbusAssociationOf (CachingObjectMapper.mapper mapping) fuel dat om devId bus =
      some ((perform (stepsOf tree connected devId) bus).1,
        (perform (stepsOf tree connected devId) bus).2.map fun _ => ⟨true, tree⟩) := by
  rw [datToDbusAssociationOf, ends]
  cases connected with
  | error e => rfl
  | ok devices =>
    obtain ⟨om', kept, run⟩ := objPathAssociations_eq h devices
    have own := kept.getAllDevIdObjPaths_eq devId [definitionsIntf]
    simp only [run, own]
    rw [setRollups_eq _ fun path => mem_tree_of_mem_devIdObjPaths]
    rfl

theorem datToDbusAssociations_eq (h : om.Mirrors mapping tree) {fuel : Nat} {dat : StringMap Device}
    {connected : String → Except Exn (List String)}
    (ends : ∀ devId, getAssociationConnectedDevices fuel dat devId = some (connected devId)) (names : List String)
    (bus : AssociationBus) :
    ∃ om', datToDbusAssociations (CachingObjectMapper.mapper mapping) fuel dat names om bus =
      some ((perform (names.flatMap fun devId => stepsOf tree (connected devId) devId) bus).1,
        (perform (names.flatMap fun devId => stepsOf tree (connected devId) devId) bus).2.map fun _ => om') := by
  induction names generalizing om bus with
  | nil => exact ⟨om, rfl⟩
  | cons devId rest ih =>
    rw [datToDbusAssociations, datToDbusAssociationOf_eq h (ends devId), List.flatMap_cons, perform_append]
    obtain ⟨next, result⟩ := perform (stepsOf tree (connected devId) devId) bus
    cases result with
    | error e => exact ⟨om, rfl⟩
    | ok _ => exact ih (mirrors_asked mapping tree) next

theorem writes_sublist (assocs own : List String) :
    ((((own.filterMap (writeTo tree assocs)).map .ok).filterMap address).map (·.2)).Sublist own := by
  induction own with
  | nil => exact .slnil
  | cons path rest ih =>
    rw [List.filterMap_cons]
    cases made : writeTo tree assocs path with
    | none => exact ih.cons path
    | some write =>
      obtain ⟨-, rfl⟩ := writeTo_some_iff.mp made
      exact ih.cons_cons path

theorem steps_sublist (connected : Except Exn (List String)) (devId : String) :
    (((stepsOf tree connected devId).filterMap address).map (·.2)).Sublist (ownPaths tree devId) := by
  cases connected with
  | error e => exact List.nil_sublist _
  | ok devices => exact writes_sublist _ _

/-- No place is written to twice. -/
theorem steps_distinct {names : List String} (once : names.Nodup)
    (apart : ∀ a ∈ names, ∀ b ∈ names, a ≠ b → ∀ path ∈ objPaths tree a, path ∉ objPaths tree b)
    (connected : String → Except Exn (List String)) :
    ((names.flatMap fun devId => stepsOf tree (connected devId) devId).filterMap address).Nodup := by
  rw [List.filterMap_flatMap, List.nodup_flatMap]
  constructor
  · intro devId _
    apply List.Nodup.of_map (·.2)
    exact (steps_sublist _ devId).nodup (devIdObjPaths_nodup _ _ _)
  · refine once.imp_of_mem fun {a b} here there different place inA inB => ?_
    have pathOf : ∀ devId, place ∈ (stepsOf tree (connected devId) devId).filterMap address →
        place.2 ∈ objPaths tree devId := by
      intro devId member
      exact mem_devIdObjPaths_nil ((steps_sublist _ devId).subset (List.mem_map_of_mem member))
    exact apart a here b there different place.2 (pathOf a inA) (pathOf b inB)

/-! ### What a run leaves -/

variable {dat : StringMap Device} {device path : String}

variable (tree dat) in
/-- The rollups of an object of a device are the object paths of the other devices it reaches, and its other
associations are the old ones. -/
def RollsUp (device : String) (old now : PropertyType) : Prop :=
  (∀ path ∈ objPaths tree device, path ∉ rollupsOf now) ∧
  (∀ other, other ≠ device → ReflTransGen (Associates dat) device other →
    ∀ path ∈ objPaths tree other, path ∈ rollupsOf now) ∧
  othersOf now = othersOf old

variable (tree dat) in
/-- No object belongs to two devices. -/
def Apart : Prop := ∀ a ∈ dat, ∀ b ∈ dat, a ≠ b → ∀ path ∈ objPaths tree a, path ∉ objPaths tree b

/-- Only the path that is written to is taken out. -/
theorem rollsUp_merged_iff (apart : Apart tree dat) {devices : List String}
    (reached : ∀ x, x ∈ devices ↔ ReflTransGen (Associates dat) device x)
    (known : ∀ x ∈ devices, x ∈ dat) (own : path ∈ objPaths tree device) (old : PropertyType) :
    RollsUp tree dat device old
        (merged old ((devices.flatMap (objPaths tree)).filter fun elem => elem ≠ path)) ↔
      ∀ other ∈ objPaths tree device, other = path := by
  have start : device ∈ devices := (reached device).mpr .refl
  have listed : ∀ elem, elem ∈ (devices.flatMap (objPaths tree)).filter (fun elem => elem ≠ path) ↔
      (∃ other ∈ devices, elem ∈ objPaths tree other) ∧ elem ≠ path := by
    simp [List.mem_filter]
  rw [RollsUp, rollupsOf_merged, othersOf_merged]
  constructor
  · rintro ⟨free, -, -⟩ other member
    by_contra different
    exact free other member ((listed other).mpr ⟨⟨device, start, member⟩, different⟩)
  · intro sole
    refine ⟨fun other member inside => ?_, fun other different reaches elem member => ?_, rfl⟩
    · exact ((listed other).mp inside).2 (sole other member)
    · have connected : other ∈ devices := (reached other).mpr reaches
      refine (listed elem).mpr ⟨⟨other, connected, member⟩, ?_⟩
      rintro rfl
      exact apart other (known other connected) device (known device start) different elem member own

/-- A run writes the rollups as they should be to the objects that are the only ones of their device, and running again
changes nothing. -/
theorem rollsUp_iff (fuel : Nat) (dat : StringMap Device) (tree : FullTreeType) (bus : AssociationBus)
    (enough : associationCount dat < fuel) (apart : Apart tree dat) :
    ∃ done result new, datToDbusAssociation fuel dat (.ok tree) bus = some (done, result) ∧
      done.written = bus.written ++ new ∧
      (∀ manager path, (manager, path) ∈ new → ∀ device ∈ dat, path ∈ objPaths tree device →
        ∃ old now, bus.associations manager path = .ok old ∧ done.associations manager path = .ok now ∧
          (RollsUp tree dat device old now ↔ ∀ other ∈ objPaths tree device, other = path)) ∧
      (∀ manager path, (manager, path) ∉ new →
        done.associations manager path = bus.associations manager path) ∧
      ((∃ om, result = .ok om) → ∀ device ∈ dat, ∀ path ∈ ownPaths tree device,
        managerOf tree path definitionsIntf ≠ "" →
          (managerOf tree path definitionsIntf, path) ∈ new) ∧
      ∃ again result', datToDbusAssociation fuel dat (.ok tree) done = some (again, result') ∧
        again.associations = done.associations := by
  choose connected ends connects using getAssociationConnectedDevices_connects enough
  have fresh : CachingObjectMapper.Mirrors (.ok tree) {} tree := rfl
  have names : ∀ name, name ∈ dat.toList.map (·.1) ↔ name ∈ dat := by
    intro name
    rw [Std.TreeMap.map_fst_toList_eq_keys, Std.TreeMap.mem_keys]
  have distinct := steps_distinct dat.names_nodup
    (fun a here b there => apart a ((names a).mp here) b ((names b).mp there)) connected
  obtain ⟨om, run⟩ := datToDbusAssociations_eq fresh ends (dat.toList.map (·.1)) bus
  obtain ⟨new, performed⟩ := perform_performed distinct bus
  refine ⟨_, _, new, run, performed.written, ?_, performed.keeps, ?_, ?_⟩
  · intro manager path written device known own
    obtain ⟨step, member, place⟩ := List.mem_filterMap.mp (performed.planned _ written)
    cases step with
    | error e => cases place
    | ok write =>
      obtain ⟨rfl, rfl⟩ := Prod.mk.inj (Option.some.inj place)
      obtain ⟨devId, listed, step⟩ := List.mem_flatMap.mp member
      obtain ⟨devices, answer, ownToo, made⟩ := mem_stepsOf.mp step
      have inside : write.path ∈ objPaths tree devId := mem_devIdObjPaths_nil ownToo
      obtain rfl : devId = device := by
        by_contra different
        exact apart devId ((names devId).mp listed) device known different _ inside own
      obtain ⟨old, read, now⟩ := performed.merges write member written
      obtain ⟨reached, present⟩ := connects devId devices answer
      refine ⟨old, _, read, now, ?_⟩
      rw [(Write.mk.inj (writeTo_some_iff.mp made).2).2.2]
      exact rollsUp_merged_iff apart reached present own old
  · rintro ⟨om', ended⟩ device known path own managed
    obtain ⟨_, ended, -⟩ := map_ok ended
    have inRun : ∀ step ∈ stepsOf tree (connected device) device, ∃ write, step = .ok write ∧
        (write.manager, write.path) ∈ new := fun step member =>
      performed.all ended step (List.mem_flatMap.mpr ⟨device, (names device).mpr known, member⟩)
    exact placed_of_all inRun own managed
  · obtain ⟨om', rerun⟩ := datToDbusAssociations_eq fresh ends (dat.toList.map (·.1))
      (perform ((dat.toList.map (·.1)).flatMap fun devId => stepsOf tree (connected devId) devId) bus).1
    exact ⟨_, _, rerun, perform_again distinct performed.refused rfl⟩

end

def rack : Json := .object [("GPU_SXM_1", boardJson ["HSC_0"]), ("HSC_0", boardJson [])]

def processorPath : String := "/xyz/openbmc_project/inventory/system/processors/GPU_SXM_1"

def hscPath : String := "/xyz/openbmc_project/inventory/system/chassis/HGX_HSC_0"

/-- One object for each device. -/
def plainTree : FullTreeType :=
  ((∅ : FullTreeType).insert gpuPath ((∅ : ValueType).insert gpuMgr [definitionsIntf])).insert hscPath
    ((∅ : ValueType).insert "xyz.openbmc_project.HscMgr" [itemIntf])

/-- And another one for the GPU. -/
def crowdedTree : FullTreeType := plainTree.insert processorPath ((∅ : ValueType).insert gpuMgr [itemIntf])

def openBus : AssociationBus := ⟨fun _ _ => .ok [("all_sensors", "chassis", hscPath)], fun _ _ => none, []⟩

variable {tree : FullTreeType} {dat : StringMap Device}

variable (tree dat) in
def disjoint : Bool :=
  dat.toList.all fun a => dat.toList.all fun b =>
    a.1 == b.1 || (objPaths tree a.1).all fun path => !(objPaths tree b.1).contains path

theorem apart_of_disjoint (all : disjoint tree dat = true) : Apart tree dat := by
  intro a here b there different path member
  obtain ⟨first, known⟩ := StringMap.mem_iff.mp here
  obtain ⟨second, known'⟩ := StringMap.mem_iff.mp there
  have entry : (a, first) ∈ dat.toList := Std.TreeMap.mem_toList_iff_getElem?_eq_some.mpr known
  have entry' : (b, second) ∈ dat.toList := Std.TreeMap.mem_toList_iff_getElem?_eq_some.mpr known'
  have apart := List.all_eq_true.mp (List.all_eq_true.mp all _ entry) _ entry'
  simp only [Bool.or_eq_true, beq_iff_eq, different, false_or, List.all_eq_true] at apart
  simpa using apart path member

/-- The GPU's other object is among its rollups. -/
theorem not_rollsUp_crowdedTree : ∃ dat : DAT, DAT.populateMap .empty rack = .ok dat ∧
    Apart crowdedTree dat.devices ∧ gpuPath ∈ objPaths crowdedTree "GPU_SXM_1" ∧
    ∃ done result old now, datToDbusAssociation 2 dat.devices (.ok crowdedTree) openBus = some (done, result) ∧
      done.written = [(gpuMgr, gpuPath)] ∧ openBus.associations gpuMgr gpuPath = .ok old ∧
      done.associations gpuMgr gpuPath = .ok now ∧ ¬ RollsUp crowdedTree dat.devices "GPU_SXM_1" old now := by
  have run : (DAT.populateMap .empty rack).map (fun dat =>
      (disjoint crowdedTree dat.devices,
        (datToDbusAssociation 2 dat.devices (.ok crowdedTree) openBus).map fun out =>
          (decide (out.1.written = [(gpuMgr, gpuPath)]), decide (out.1.associations gpuMgr gpuPath =
            .ok (merged [("all_sensors", "chassis", hscPath)] [processorPath, hscPath]))))) =
      .ok (true, some (true, true)) := by
    decide +kernel
  obtain ⟨dat, loaded, facts⟩ := map_ok run
  obtain ⟨apart, ran⟩ := Prod.mk.inj facts
  obtain ⟨⟨done, result⟩, ran, left⟩ := Option.map_eq_some_iff.mp ran
  simp only [Prod.mk.injEq, decide_eq_true_eq] at left
  obtain ⟨written, now⟩ := left
  have own : gpuPath ∈ objPaths crowdedTree "GPU_SXM_1" := by decide +kernel
  refine ⟨dat, loaded, apart_of_disjoint apart, own, done, result, _, _, ran, written, rfl, now, fun rolls => ?_⟩
  have listed : processorPath ∈ objPaths crowdedTree "GPU_SXM_1" := by decide +kernel
  apply rolls.1 processorPath listed
  rw [rollupsOf_merged]
  exact List.mem_cons_self

theorem rollsUp_iff_plainTree : ∃ dat : DAT, DAT.populateMap .empty rack = .ok dat ∧
    ∃ done result old now, datToDbusAssociation 2 dat.devices (.ok plainTree) openBus = some (done, result) ∧
      openBus.associations gpuMgr gpuPath = .ok old ∧ done.associations gpuMgr gpuPath = .ok now ∧
      RollsUp plainTree dat.devices "GPU_SXM_1" old now := by
  have run : (DAT.populateMap .empty rack).map (fun dat =>
      (disjoint plainTree dat.devices, decide (associationCount dat.devices < 2), decide ("GPU_SXM_1" ∈ dat.devices),
        decide ((datToDbusAssociation 2 dat.devices (.ok plainTree) openBus).map (fun out => out.1.written) =
          some [(gpuMgr, gpuPath)]))) = .ok (true, true, true, true) := by
    decide +kernel
  obtain ⟨dat, loaded, facts⟩ := map_ok run
  simp only [Prod.mk.injEq, decide_eq_true_eq] at facts
  obtain ⟨apart, few, known, ran⟩ := facts
  obtain ⟨done, result, new, ran', written, rolled, -⟩ :=
    rollsUp_iff 2 dat.devices plainTree openBus few (apart_of_disjoint apart)
  rw [ran', Option.map_some, Option.some.injEq, written] at ran
  have own : objPaths plainTree "GPU_SXM_1" = [gpuPath] := by decide +kernel
  have placed : (gpuMgr, gpuPath) ∈ new := by
    have all : openBus.written ++ new = new := List.nil_append new
    rw [← all, ran]
    exact List.mem_cons_self
  have listed : gpuPath ∈ objPaths plainTree "GPU_SXM_1" := by
    rw [own]
    exact List.mem_cons_self
  obtain ⟨old, now, read, left, rolls⟩ := rolled gpuMgr gpuPath placed "GPU_SXM_1" known listed
  refine ⟨dat, loaded, done, result, old, now, ran', read, left, rolls.mpr fun other member => ?_⟩
  rw [own] at member
  exact List.mem_singleton.mp member

end MonitorEventing.Dat
