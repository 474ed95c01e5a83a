import MonitorEventing.Basic

/-!
# The object mapper

`CachingObjectMapper` answers the queries of the bus's object mapper from a copy of its tree. The object mapper
itself takes the listed interfaces as a disjunction.
-/

namespace MonitorEventing.Dbus

/-- Manager to interfaces. -/
abbrev ValueType : Type := StringMap (List String)

/-- Object to its managers. -/
abbrev FullTreeType : Type := StringMap ValueType

/-! ### The mirror -/

/-- The loop of `scopeManagers` over the interfaces, which goes on while its flag is true. -/
def implementsAny (intfs : List String) : List String → Bool → Bool
  | [], flag => flag
  | it :: rest, flag => if flag then implementsAny intfs rest (intfs.contains it) else flag

def scopeManagers (implementations : ValueType) (interfaces : List String) : ValueType :=
  implementations.toList.foldl (fun result keyValPair =>
    if implementsAny keyValPair.2 interfaces true then result.insert keyValPair.1 keyValPair.2 else result) ∅

structure CachingObjectMapper where
  isInitialized : Bool := false
  objectsServicesMapping : FullTreeType := ∅

namespace CachingObjectMapper

/-- The whole tree is read from the bus, which answers or throws. -/
def refresh (bus : Except Exn FullTreeType) : Except Exn CachingObjectMapper := do
  let tree ← bus
  pure { isInitialized := true, objectsServicesMapping := tree }

def ensureIsInitialized (bus : Except Exn FullTreeType) (om : CachingObjectMapper) : Except Exn CachingObjectMapper :=
  if om.isInitialized then pure om else refresh bus

def getObject (bus : Except Exn FullTreeType) (om : CachingObjectMapper) (objectPath : String)
    (interfaces : List String) : Except Exn (ValueType × CachingObjectMapper) := do
  let om ← om.ensureIsInitialized bus
  match om.objectsServicesMapping[objectPath]? with
  | some implementations => pure (scopeManagers implementations interfaces, om)
  | none => .error .outOfRange

/-- The source's text, where two literals meet. -/
def notImplemented : Exn :=
  .runtimeError "CachingObjectMapper::getSubTreePathsImpl not implementedfor depth != and subtree != '/'"

/-- The paths of the whole tree. -/
def allPaths (om : CachingObjectMapper) (interfaces : List String) : List String :=
  (om.objectsServicesMapping.toList.filter fun keyValPair =>
    (scopeManagers keyValPair.2 interfaces).size ≠ 0).map (·.1)

def getSubTreePaths (bus : Except Exn FullTreeType) (om : CachingObjectMapper) (subtree : String) (depth : Int)
    (interfaces : List String) : Except Exn (List String × CachingObjectMapper) := do
  let om ← om.ensureIsInitialized bus
  if depth = 0 ∧ subtree = "/" then pure (om.allPaths interfaces, om)
  else .error notImplemented

end CachingObjectMapper

/-! ### Queries for devices -/

/-- What a kind of mapper implements, with the state it keeps. -/
structure ObjectMapper (T : Type) where
  getObject : T → String → List String → Except Exn (ValueType × T)
  getSubTreePaths : T → String → Int → List String → Except Exn (List String × T)

def CachingObjectMapper.mapper (bus : Except Exn FullTreeType) : ObjectMapper CachingObjectMapper :=
  ⟨getObject bus, getSubTreePaths bus⟩

def definitionsIntf : String := "xyz.openbmc_project.Association.Definitions"

namespace ObjectMapper

def isObjPathPrimaryDevId (objPath devId : String) : Bool :=
  objPath == "/xyz/openbmc_project/inventory/system/chassis/" ++ devId ||
    objPath == "/xyz/openbmc_project/inventory/system/chassis/HGX_" ++ devId

def isObjPathDerivativeDevId (objPath devId : String) : Bool := ("/" ++ devId).toList.isSuffixOf objPath.toList

def isObjPathDevId (devId objPath : String) : Bool :=
  isObjPathPrimaryDevId objPath devId || isObjPathDerivativeDevId objPath devId

variable {T : Type} (mapper : ObjectMapper T)

def getAllDevIdObjPaths (om : T) (devId : String) (interfaces : List String) : Except Exn (List String × T) := do
  let (objectPaths, om) ← mapper.getSubTreePaths om "/" 0 interfaces
  pure (objectPaths.filter (isObjPathDevId devId), om)

/-- The key of a map with one entry. -/
def soleManager (ret : ValueType) : String :=
  match ret.toList with
  | [keyValPair] => keyValPair.1
  | _ => ""

def getManager (om : T) (objectPath interface : String) : Except Exn (String × T) := do
  let (ret, om) ← mapper.getObject om objectPath [interface]
  pure (soleManager ret, om)

end ObjectMapper

/-! ### What is asked for -/

/-- A manager with these interfaces is one of those asked for. -/
def Serves (interfaces intfs : List String) : Prop := interfaces = [] ∨ ∃ i ∈ interfaces, i ∈ intfs

/-- `scopeManagers` keeps exactly the managers asked for. -/
def Keeps (implementations : ValueType) (interfaces : List String) : Prop :=
  ∀ (manager : String) (intfs : List String), (scopeManagers implementations interfaces)[manager]? = some intfs ↔
    implementations[manager]? = some intfs ∧ Serves interfaces intfs

/-- Every manager implements all of the interfaces or none. -/
def Uniform (implementations : ValueType) (interfaces : List String) : Prop :=
  ∀ (manager : String) (intfs : List String), implementations[manager]? = some intfs → (∃ i ∈ interfaces, i ∈ intfs) →
    ∀ i ∈ interfaces, i ∈ intfs

namespace CachingObjectMapper

/-- The tree the mapper answers from, now or after it was read. -/
def Mirrors (bus : Except Exn FullTreeType) (om : CachingObjectMapper) (tree : FullTreeType) : Prop :=
  if om.isInitialized then om.objectsServicesMapping = tree else bus = .ok tree

/-- `getObject` answers as the object mapper does for the tree. -/
def AnswersObject (bus : Except Exn FullTreeType) (om : CachingObjectMapper) (tree : FullTreeType)
    (objectPath : String) (interfaces : List String) : Prop :=
  (∀ implementations, tree[objectPath]? = some implementations →
    ∃ managers, om.getObject bus objectPath interfaces = .ok (managers, ⟨true, tree⟩) ∧
      ∀ (manager : String) (intfs : List String), managers[manager]? = some intfs ↔
        implementations[manager]? = some intfs ∧ Serves interfaces intfs) ∧
  (tree[objectPath]? = none → ∃ e, om.getObject bus objectPath interfaces = .error e)

/-- `getSubTreePaths` answers as the object mapper does for the tree. -/
def AnswersPaths (bus : Except Exn FullTreeType) (om : CachingObjectMapper) (tree : FullTreeType)
    (interfaces : List String) : Prop :=
  ∃ paths, om.getSubTreePaths bus "/" 0 interfaces = .ok (paths, ⟨true, tree⟩) ∧ paths.Nodup ∧
    ∀ path, path ∈ paths ↔ ∃ implementations, tree[path]? = some implementations ∧
      ∃ (manager : String) (intfs : List String), implementations[manager]? = some intfs ∧ Serves interfaces intfs

end CachingObjectMapper

theorem implementsAny_iff {intfs interfaces : List String} :
    implementsAny intfs interfaces true = true ↔ ∀ i ∈ interfaces, i ∈ intfs := by
  have stopped : ∀ rest, implementsAny intfs rest false = false := by
    intro rest
    cases rest <;> rfl
  induction interfaces with
  | nil => simp [implementsAny]
  | cons it rest ih =>
    rw [implementsAny, if_pos rfl, List.forall_mem_cons]
    cases found : intfs.contains it with
    | true => simpa [List.contains_iff_mem.mp found] using ih
    | false =>
      have missing : it ∉ intfs := by simpa using found
      simp [stopped, missing]

/-- A manager is kept where it implements all of the interfaces. -/
theorem scopeManagers_iff {implementations : ValueType} {interfaces : List String} {manager : String}
    {intfs : List String} : (scopeManagers implementations interfaces)[manager]? = some intfs ↔
      implementations[manager]? = some intfs ∧ ∀ i ∈ interfaces, i ∈ intfs := by
  have folded := StringMap.foldl_insert_if (fun intfs => implementsAny intfs interfaces true) implementations.names_nodup
    ∅ manager
  rw [scopeManagers, folded, StringMap.lookup_toList, ← implementsAny_iff]
  simp [Option.filter_eq_some_iff]

theorem serves_of_all {interfaces intfs : List String} (all : ∀ i ∈ interfaces, i ∈ intfs) :
    Serves interfaces intfs := by
  cases interfaces with
  | nil => exact .inl rfl
  | cons i rest => exact .inr ⟨i, List.mem_cons_self, all i List.mem_cons_self⟩

theorem keeps_iff (implementations : ValueType) (interfaces : List String) :
    Keeps implementations interfaces ↔ Uniform implementations interfaces := by
  constructor
  · intro keeps manager intfs read some
    exact (scopeManagers_iff.mp ((keeps manager intfs).mpr ⟨read, .inr some⟩)).2
  · intro uniform manager intfs
    rw [scopeManagers_iff]
    refine and_congr_right fun read => ⟨serves_of_all, ?_⟩
    rintro (rfl | some)
    · simp
    · exact uniform manager intfs read some

namespace CachingObjectMapper

variable {bus : Except Exn FullTreeType} {om : CachingObjectMapper} {tree : FullTreeType}

theorem Mirrors.ensure (h : om.Mirrors bus tree) : om.ensureIsInitialized bus = .ok ⟨true, tree⟩ := by
  obtain ⟨initialized, mapping⟩ := om
  cases initialized with
  | true =>
    obtain rfl : mapping = tree := h
    rfl
  | false =>
    obtain rfl : bus = .ok tree := h
    rfl

/-- Once it was asked a mapper keeps to its tree, whatever becomes of the bus. -/
theorem mirrors_asked (bus : Except Exn FullTreeType) (tree : FullTreeType) : Mirrors bus ⟨true, tree⟩ tree := rfl

theorem Mirrors.getObject_eq (h : om.Mirrors bus tree) (objectPath : String) (interfaces : List String) :
    om.getObject bus objectPath interfaces =
      match tree[objectPath]? with
      | some implementations => .ok (scopeManagers implementations interfaces, ⟨true, tree⟩)
      | none => .error .outOfRange := by
  rw [getObject, h.ensure]
  rfl

theorem answersObject_iff (h : om.Mirrors bus tree) (objectPath : String) (interfaces : List String) :
    AnswersObject bus om tree objectPath interfaces ↔
      ∀ implementations, tree[objectPath]? = some implementations → Uniform implementations interfaces := by
  rw [AnswersObject, h.getObject_eq]
  cases tree[objectPath]? with
  | none => simp
  | some implementations =>
    rw [and_iff_left (by simp)]
    refine forall_congr' fun other => forall_congr' fun same => ?_
    obtain rfl := Option.some.inj same
    rw [← keeps_iff]
    constructor
    · rintro ⟨managers, run, keeps⟩
      obtain ⟨rfl, -⟩ := Prod.mk.inj (Except.ok.inj run)
      exact keeps
    · exact fun keeps => ⟨_, rfl, keeps⟩

theorem mem_allPaths {path : String} {interfaces : List String} :
    path ∈ allPaths ⟨true, tree⟩ interfaces ↔ ∃ implementations, tree[path]? = some implementations ∧
      ∃ (manager : String) (intfs : List String), implementations[manager]? = some intfs ∧
        ∀ i ∈ interfaces, i ∈ intfs := by
  have kept : ∀ implementations : ValueType, (scopeManagers implementations interfaces).size ≠ 0 ↔
      ∃ (manager : String) (intfs : List String), implementations[manager]? = some intfs ∧
        ∀ i ∈ interfaces, i ∈ intfs := by
    intro implementations
    simp only [← scopeManagers_iff]
    generalize scopeManagers implementations interfaces = managers
    rw [← Std.TreeMap.length_toList, ne_eq, List.length_eq_zero_iff, ← ne_eq, List.ne_nil_iff_exists_cons]
    constructor
    · rintro ⟨entry, rest, split⟩
      refine ⟨entry.1, entry.2, Std.TreeMap.mem_toList_iff_getElem?_eq_some.mp ?_⟩
      rw [split]
      exact List.mem_cons_self
    · rintro ⟨manager, intfs, read⟩
      have member := Std.TreeMap.mem_toList_iff_getElem?_eq_some.mpr read
      exact List.exists_cons_of_ne_nil (List.ne_nil_of_mem member)
  rw [allPaths, List.mem_map]
  constructor
  · rintro ⟨⟨_, implementations⟩, member, rfl⟩
    obtain ⟨member, some⟩ := List.mem_filter.mp member
    exact ⟨implementations, Std.TreeMap.mem_toList_iff_getElem?_eq_some.mp member,
      (kept implementations).mp (of_decide_eq_true some)⟩
  · rintro ⟨implementations, read, some⟩
    refine ⟨(path, implementations), List.mem_filter.mpr ⟨?_, ?_⟩, rfl⟩
    · exact Std.TreeMap.mem_toList_iff_getElem?_eq_some.mpr read
    · exact decide_eq_true ((kept implementations).mpr some)

/-- Any other part of the tree is refused. -/
theorem Mirrors.getSubTreePaths_elsewhere (h : om.Mirrors bus tree) {subtree : String} {depth : Int}
    (elsewhere : ¬(depth = 0 ∧ subtree = "/")) (interfaces : List String) :
    om.getSubTreePaths bus subtree depth interfaces = .error notImplemented := by
  rw [getSubTreePaths, h.ensure]
  exact if_neg elsewhere

theorem allPaths_nodup (om : CachingObjectMapper) (interfaces : List String) : (om.allPaths interfaces).Nodup :=
  (List.filter_sublist.map _).nodup om.objectsServicesMapping.names_nodup

theorem Mirrors.getSubTreePaths_eq (h : om.Mirrors bus tree) (interfaces : List String) :
    om.getSubTreePaths bus "/" 0 interfaces = .ok (allPaths ⟨true, tree⟩ interfaces, ⟨true, tree⟩) := by
  rw [getSubTreePaths, h.ensure]
  rfl

theorem answersPaths_iff (h : om.Mirrors bus tree) (interfaces : List String) :
    AnswersPaths bus om tree interfaces ↔ ∀ (path : String) implementations, tree[path]? = some implementations →
      (∃ (manager : String) (intfs : List String), implementations[manager]? = some intfs ∧
        ∃ i ∈ interfaces, i ∈ intfs) →
      ∃ (manager : String) (intfs : List String), implementations[manager]? = some intfs ∧
        ∀ i ∈ interfaces, i ∈ intfs := by
  have paths : AnswersPaths bus om tree interfaces ↔ ∀ path, path ∈ allPaths ⟨true, tree⟩ interfaces ↔
      ∃ implementations, tree[path]? = some implementations ∧
        ∃ (manager : String) (intfs : List String), implementations[manager]? = some intfs ∧
          Serves interfaces intfs := by
    rw [AnswersPaths, h.getSubTreePaths_eq]
    constructor
    · rintro ⟨paths, same, -, listed⟩
      obtain ⟨rfl, -⟩ := Prod.mk.inj (Except.ok.inj same)
      exact listed
    · exact fun listed => ⟨_, rfl, allPaths_nodup _ _, listed⟩
  rw [paths]
  constructor
  · intro listed path implementations read some
    obtain ⟨manager, intfs, known, serves⟩ := some
    have member : path ∈ allPaths ⟨true, tree⟩ interfaces :=
      (listed path).mpr ⟨implementations, read, manager, intfs, known, .inr serves⟩
    obtain ⟨_, read', all⟩ := mem_allPaths.mp member
    rw [read, Option.some.injEq] at read'
    exact read' ▸ all
  · intro all path
    rw [mem_allPaths]
    refine exists_congr fun implementations => and_congr_right fun read => ⟨?_, ?_⟩
    · rintro ⟨manager, intfs, known, every⟩
      exact ⟨manager, intfs, known, serves_of_all every⟩
    · rintro ⟨manager, intfs, known, rfl | some⟩
      · exact ⟨manager, intfs, known, by simp⟩
      · exact all path implementations read ⟨manager, intfs, known, some⟩

/-! ### Devices in a tree -/

def devIdObjPaths (tree : FullTreeType) (devId : String) (interfaces : List String) : List String :=
  (allPaths ⟨true, tree⟩ interfaces).filter (ObjectMapper.isObjPathDevId devId)

def managerOf (tree : FullTreeType) (objectPath interface : String) : String :=
  ObjectMapper.soleManager (scopeManagers (tree[objectPath]?.getD ∅) [interface])

theorem Mirrors.getAllDevIdObjPaths_eq (h : om.Mirrors bus tree) (devId : String) (interfaces : List String) :
    (mapper bus).getAllDevIdObjPaths om devId interfaces = .ok (devIdObjPaths tree devId interfaces, ⟨true, tree⟩) := by
  have run : (mapper bus).getSubTreePaths om "/" 0 interfaces = _ := h.getSubTreePaths_eq interfaces
  rw [ObjectMapper.getAllDevIdObjPaths, run]
  rfl

theorem Mirrors.getManager_eq (h : om.Mirrors bus tree) {objectPath : String} (known : objectPath ∈ tree)
    (interface : String) :
    (mapper bus).getManager om objectPath interface = .ok (managerOf tree objectPath interface, ⟨true, tree⟩) := by
  obtain ⟨implementations, read⟩ := StringMap.mem_iff.mp known
  have run : (mapper bus).getObject om objectPath [interface] = _ := h.getObject_eq objectPath [interface]
  rw [ObjectMapper.getManager, run, managerOf, read]
  rfl

theorem devIdObjPaths_nodup (tree : FullTreeType) (devId : String) (interfaces : List String) :
    (devIdObjPaths tree devId interfaces).Nodup := (allPaths_nodup _ _).filter _

theorem mem_tree_of_mem_devIdObjPaths {devId path : String} {interfaces : List String}
    (member : path ∈ devIdObjPaths tree devId interfaces) : path ∈ tree := by
  obtain ⟨implementations, read, -⟩ := mem_allPaths.mp (List.mem_filter.mp member).1
  exact StringMap.mem_iff.mpr ⟨implementations, read⟩

/-- Without interfaces no path is left out that is found with some. -/
theorem mem_devIdObjPaths_nil {devId path : String} {interfaces : List String}
    (member : path ∈ devIdObjPaths tree devId interfaces) : path ∈ devIdObjPaths tree devId [] := by
  obtain ⟨listed, named⟩ := List.mem_filter.mp member
  obtain ⟨implementations, read, manager, intfs, known, -⟩ := mem_allPaths.mp listed
  have all : path ∈ allPaths ⟨true, tree⟩ [] := mem_allPaths.mpr ⟨implementations, read, manager, intfs, known, by simp⟩
  exact List.mem_filter.mpr ⟨all, named⟩

end CachingObjectMapper

/-- Where no manager implements some of the interfaces only, the managers asked for are kept, and the mapper answers
for the whole tree as the object mapper of the bus does. -/
theorem mimics_iff (bus : Except Exn FullTreeType) (om : CachingObjectMapper) (tree : FullTreeType)
    (mirrors : om.Mirrors bus tree) (interfaces : List String) :
    (∀ implementations, Keeps implementations interfaces ↔ Uniform implementations interfaces) ∧
    (∀ objectPath, om.AnswersObject bus tree objectPath interfaces ↔
      ∀ implementations, tree[objectPath]? = some implementations → Uniform implementations interfaces) ∧
    (om.AnswersPaths bus tree interfaces ↔ ∀ (path : String) implementations, tree[path]? = some implementations →
      (∃ (manager : String) (intfs : List String), implementations[manager]? = some intfs ∧
        ∃ i ∈ interfaces, i ∈ intfs) →
      ∃ (manager : String) (intfs : List String), implementations[manager]? = some intfs ∧
        ∀ i ∈ interfaces, i ∈ intfs) ∧
    ∀ subtree depth, ¬(depth = 0 ∧ subtree = "/") →
      om.getSubTreePaths bus subtree depth interfaces = .error CachingObjectMapper.notImplemented :=
  ⟨fun implementations => keeps_iff implementations interfaces,
    fun objectPath => CachingObjectMapper.answersObject_iff mirrors objectPath interfaces,
    CachingObjectMapper.answersPaths_iff mirrors interfaces,
    fun _ _ elsewhere => mirrors.getSubTreePaths_elsewhere elsewhere interfaces⟩

def itemIntf : String := "xyz.openbmc_project.Inventory.Item"

def gpuPath : String := "/xyz/openbmc_project/inventory/system/chassis/HGX_GPU_SXM_1"

def gpuMgr : String := "xyz.openbmc_project.GpuMgr"

/-- One manager, and one of the two interfaces. -/
def gpuManagers : ValueType := (∅ : ValueType).insert gpuMgr [itemIntf]

def gpuTree : FullTreeType := (∅ : FullTreeType).insert gpuPath gpuManagers

theorem not_keeps_gpuManagers : ¬ Keeps gpuManagers [itemIntf, definitionsIntf] := by
  intro keeps
  have known : gpuManagers[gpuMgr]? = some [itemIntf] := by
    simp [gpuManagers]
  have kept := (keeps gpuMgr [itemIntf]).mpr ⟨known, .inr ⟨itemIntf, by simp, by simp⟩⟩
  have all := (scopeManagers_iff.mp kept).2 definitionsIntf (by simp)
  revert all
  decide

theorem mimics_iff_gpuTree : CachingObjectMapper.AnswersObject (.ok gpuTree) {} gpuTree gpuPath [itemIntf] ∧
    CachingObjectMapper.AnswersPaths (.ok gpuTree) {} gpuTree [itemIntf] := by
  obtain ⟨-, object, paths, -⟩ := mimics_iff (.ok gpuTree) {} gpuTree rfl [itemIntf]
  constructor
  · refine (object gpuPath).mpr fun implementations _ manager intfs _ some i asked => ?_
    obtain ⟨j, listed, implemented⟩ := some
    rw [List.mem_singleton.mp asked]
    exact List.mem_singleton.mp listed ▸ implemented
  · refine paths.mpr fun path implementations _ some => ?_
    obtain ⟨manager, intfs, known, j, listed, implemented⟩ := some
    refine ⟨manager, intfs, known, fun i asked => ?_⟩
    rw [List.mem_singleton.mp asked]
    exact List.mem_singleton.mp listed ▸ implemented

end MonitorEventing.Dbus
