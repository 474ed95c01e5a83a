import MonitorEventing.EventInfo.EventNode
import MonitorEventing.Selftest.Reach

/-!
# Root cause tracing

`RootCauseTracer::process`: a self-test of the device of an event without its data dump, and a
breadth-first search for the devices whose results it then looks up. The search starts with the
layers of the event's categories and goes on with all layers, the data dump included.
-/

namespace MonitorEventing.Selftest
open Accessor Dat EventInfo Relation

/-! ### Associated devices -/

def getDeviceTypeTestpoints (layer : TestLayer) : Except Exn (List String) :=
  (layer.testPoints.toList.filter fun point => point.2.accessor.isValidDeviceAccessor).mapM fun point =>
    point.2.deviceName

/-- `copy_if` of the elements the result does not have yet. -/
def copyNew (result elems : List String) : List String :=
  elems.foldl (fun result elem => if elem ∈ result then result else result ++ [elem]) result

/-- The loop of `getTestLayerAssociations`. -/
def associationsFrom (layerPred : String → Bool) : List (String × TestLayer) → List String → Except Exn (List String)
  | [], result => pure result
  | (layerName, layer) :: rest, result =>
    if layerPred layerName then do
      let deviceTestpoints ← getDeviceTypeTestpoints layer
      associationsFrom layerPred rest (copyNew result deviceTestpoints)
    else associationsFrom layerPred rest result

def getTestLayerAssociations (dev : Device) (layerPred : String → Bool) : Except Exn (List String) :=
  associationsFrom layerPred dev.test.toList []

/-- The inner loop of the search. -/
def pushNew (dat : DAT) : List String → List Device → List String → Except Exn (List Device × List String)
  | [], fringe, result => pure (fringe, result)
  | elem :: rest, fringe, result =>
    if elem ∈ result then pushNew dat rest fringe result
    else
      match dat.devices[elem]? with
      | some dev => pushNew dat rest (fringe ++ [dev]) (result ++ [elem])
      | none => .error .outOfRange

def expand (dat : DAT) (layersChooser : String → Bool) (dev : Device) (fringe : List Device) (result : List String) :
    Except Exn (List Device × List String) := do
  let layerAssociations ← getTestLayerAssociations dev layersChooser
  pushNew dat layerAssociations fringe result

def allLayersChooser (_ : String) : Bool := true

/-- The search, with the layers to look at for the device in front. -/
def searchFrom (dat : DAT) : Nat → (String → Bool) → List Device → List String → Run (List String)
  | _, _, [], result => pure result
  | 0, _, _ :: _, _ => none
  | fuel + 1, layersChooser, dev :: fringe, result => do
    let (fringe, result) ← Run.ofExcept (expand dat layersChooser dev fringe result)
    searchFrom dat fuel allLayersChooser fringe result

/-- Every device enters the fringe once, so their number is enough fuel. -/
def getTestLayerSubAssociations (dat : DAT) (rootDevice : String) (eventNode : EventNode) : Run (List String) :=
  match dat.devices[rootDevice]? with
  | none => Run.ofExcept (.error (.runtimeError ("DAT doesn't contain device" ++ rootDevice)))
  | some root =>
    let categories := eventNode.getStringCategories
    searchFrom dat dat.devices.size (if categories.isEmpty then allLayersChooser else categories.contains) [root]
      [rootDevice]

/-! ### Tracing -/

/-- The loop of `findRootCauseGeneral`. -/
def firstFailed (report : ReportResult) : List String → Except Exn (Option String)
  | [] => pure none
  | child :: rest =>
    match report[child]? with
    | none => .error .outOfRange
    | some result => if evaluateDevice result then firstFailed report rest else pure (some child)

def findRootCauseGeneral (dat : DAT) (triggeringDevice : String) (report : ReportResult) (eventNode : EventNode) :
    Run String := do
  let childVec ← getTestLayerSubAssociations dat triggeringDevice eventNode
  let failed ← Run.ofExcept (firstFailed report childVec.reverse)
  pure (failed.getD triggeringDevice)

def findRootCause (dat : DAT) (triggeringDevice : String) (report : ReportResult) (eventNode : EventNode) :
    Run String :=
  if eventNode.hasFixedOriginOfCondition then do
    let origin ← Run.ofExcept eventNode.getOriginOfCondition
    match origin with
    | some name => pure name
    | none => Run.ofExcept (.error .undefined)
  else findRootCauseGeneral dat triggeringDevice report eventNode

def updateRootCause (dev : Device) (rootCauseDeviceName : String) (dat : DAT) : Device :=
  let originOfCondition :=
    match dat.devices[rootCauseDeviceName]? with
    | some rootCause => rootCause.name
    | none => ""
  { dev with
    healthStatus :=
      { dev.healthStatus with healthRollup := "Critical", triState := "Error", originOfCondition := originOfCondition } }

/-- The health the bus is told to set, if any. -/
def updateDeviceHealth (dev : Device) (health : String) : Option String :=
  if dev.canSetHealthOnDbus then some health else none

structure Traced where
  rc : RcCode
  event : EventNode
  dat : DAT
  health : Option String := none

/-- `process`, once the self-test has filled the report. -/
def traceReport (dat : DAT) (generateReport : ReportResult → Option Json) (event : EventNode) (dev : Device)
    (completeReportRes : ReportResult) : Run Traced := do
  let selftestSeverity ←
    Run.ofExcept (Severity.ofString (getDeviceTestResult (completeReportRes.getD event.device {})))
  let severities := event.severities ++ [selftestSeverity]
  let rootCauseCandidateName ← findRootCause dat event.device completeReportRes event
  let traced : Traced := {
    rc := .error
    event := { event with severities }.setOriginOfCondition rootCauseCandidateName
    dat := dat.put (updateRootCause dev rootCauseCandidateName dat)
    health := updateDeviceHealth dev (Severity.findMaxSeverity severities) }
  match generateReport completeReportRes with
  | none => pure traced
  | some report => pure { traced with rc := .succ, event := { traced.event with selftestReport := report } }

/-- `process`. The text of the report has times and versions from outside in it and is a parameter. -/
def process (dat : DAT) (read : Oracle) (generateReport : ReportResult → Option Json) (event : EventNode) :
    Run Traced :=
  if event.device = "" then pure { rc := .error, event, dat }
  else
    match dat.devices[event.device]? with
    | none => pure { rc := .error, event, dat }
    | some dev => do
      let (rc, completeReportRes) ← perform dat read ["data_dump"] dat.devices.size dev ∅
      match rc with
      | .error => pure { rc := .error, event, dat }
      | .succ => traceReport dat generateReport event dev (touch completeReportRes event.device)

/-! ### What the search finds -/

def Names (layer : TestLayer) (other : String) : Prop :=
  ∃ (name : String) (tp : TestPoint), layer.testPoints[name]? = some tp ∧ tp.accessor.isValidDeviceAccessor = true ∧
    tp.deviceName = .ok other

/-- The edges the search follows: of the root only those in layers of the event's categories, if it has any. -/
def SubEdge (dat : DAT) (categories : List String) (root a b : String) : Prop :=
  ∃ (dev : Device) (layerName : String) (layer : TestLayer), dat.devices[a]? = some dev ∧
    dev.test[layerName]? = some layer ∧ (a = root → categories = [] ∨ layerName ∈ categories) ∧ Names layer b

section
variable {dat : DAT}

theorem getDeviceTypeTestpoints_ok {layer : TestLayer}
    (named : ∀ (name : String) (tp : TestPoint), layer.testPoints[name]? = some tp →
      tp.accessor.isValidDeviceAccessor = true → ∃ other, tp.deviceName = .ok other) :
    ∃ names, getDeviceTypeTestpoints layer = .ok names ∧ ∀ other, other ∈ names ↔ Names layer other := by
  obtain ⟨names, run⟩ : ∃ names, getDeviceTypeTestpoints layer = .ok names := by
    apply exists_mapM_ok_iff.mpr
    intro point member
    obtain ⟨listed, isDevice⟩ := List.mem_filter.mp member
    exact named point.1 point.2 (Std.TreeMap.mem_toList_iff_getElem?_eq_some.mp listed) isDevice
  refine ⟨names, run, fun other => ?_⟩
  have each := mapM_ok_iff.mp run
  constructor
  · intro member
    obtain ⟨point, listed, nameRead⟩ := forall₂_mem_right each member
    obtain ⟨inside, isDevice⟩ := List.mem_filter.mp listed
    exact ⟨point.1, point.2, Std.TreeMap.mem_toList_iff_getElem?_eq_some.mp inside, isDevice, nameRead⟩
  · intro names
    obtain ⟨name, tp, inside, isDevice, nameRead⟩ := names
    have listed := Std.TreeMap.mem_toList_iff_getElem?_eq_some.mpr inside
    obtain ⟨found, member, same⟩ := forall₂_mem_left each (List.mem_filter.mpr ⟨listed, isDevice⟩)
    rw [nameRead, Except.ok.injEq] at same
    exact same ▸ member

theorem mem_copyNew {result elems : List String} {x : String} : x ∈ copyNew result elems ↔ x ∈ result ∨ x ∈ elems := by
  induction elems generalizing result with
  | nil => simp [copyNew]
  | cons elem rest ih =>
    show x ∈ copyNew (if elem ∈ result then result else result ++ [elem]) rest ↔ _
    rw [ih]
    by_cases known : elem ∈ result
    · rw [if_pos known, List.mem_cons]
      have same : x = elem → x ∈ result := fun equal => equal ▸ known
      tauto
    · rw [if_neg known, List.mem_append, List.mem_singleton, List.mem_cons]
      tauto

theorem associationsFrom_ok (layerPred : String → Bool) {layers : List (String × TestLayer)} (result : List String)
    (named : ∀ layer ∈ layers, ∃ names, getDeviceTypeTestpoints layer.2 = .ok names ∧
      ∀ other, other ∈ names ↔ Names layer.2 other) :
    ∃ associations, associationsFrom layerPred layers result = .ok associations ∧
      ∀ x, x ∈ associations ↔ x ∈ result ∨ ∃ layer ∈ layers, layerPred layer.1 = true ∧ Names layer.2 x := by
  induction layers generalizing result with
  | nil => exact ⟨result, rfl, by simp⟩
  | cons layer rest ih =>
    obtain ⟨here, later⟩ := List.forall_mem_cons.mp named
    obtain ⟨names, run, members⟩ := here
    unfold associationsFrom
    by_cases chosen : layerPred layer.1 = true
    · obtain ⟨associations, rest_run, found⟩ := ih (copyNew result names) later
      refine ⟨associations, ?_, fun x => ?_⟩
      · rw [if_pos chosen, run]
        exact rest_run
      · rw [found, mem_copyNew, members, List.exists_mem_cons_iff]
        tauto
    · obtain ⟨associations, rest_run, found⟩ := ih result later
      refine ⟨associations, ?_, fun x => ?_⟩
      · rw [if_neg chosen]
        exact rest_run
      · rw [found, List.exists_mem_cons_iff]
        tauto

theorem getTestLayerAssociations_ok (closed : dat.Closed) {dev : Device} (known : dat.devices[dev.name]? = some dev)
    (layerPred : String → Bool) :
    ∃ associations, getTestLayerAssociations dev layerPred = .ok associations ∧ (∀ x ∈ associations, x ∈ dat.devices) ∧
      ∀ x, x ∈ associations ↔
        ∃ layerName layer, dev.test[layerName]? = some layer ∧ layerPred layerName = true ∧ Names layer x := by
  have named : ∀ layer ∈ dev.test.toList, ∃ names, getDeviceTypeTestpoints layer.2 = .ok names ∧
      ∀ other, other ∈ names ↔ Names layer.2 other := by
    intro layer member
    apply getDeviceTypeTestpoints_ok
    intro name tp inside isDevice
    have here := Std.TreeMap.mem_toList_iff_getElem?_eq_some.mp member
    obtain ⟨other, nameRead, _⟩ := closed dev.name dev known layer.1 layer.2 here name tp inside isDevice
    exact ⟨other, nameRead⟩
  obtain ⟨associations, run, found⟩ := associationsFrom_ok layerPred [] named
  have members : ∀ x, x ∈ associations ↔
      ∃ layerName layer, dev.test[layerName]? = some layer ∧ layerPred layerName = true ∧ Names layer x := by
    intro x
    simp only [found, List.not_mem_nil, false_or, Prod.exists, Std.TreeMap.mem_toList_iff_getElem?_eq_some]
  refine ⟨associations, run, ?_, members⟩
  intro x member
  obtain ⟨layerName, layer, here, _, name, tp, inside, isDevice, nameRead⟩ := (members x).mp member
  obtain ⟨other, same, listed⟩ := closed dev.name dev known layerName layer here name tp inside isDevice
  rw [nameRead, Except.ok.injEq] at same
  exact same ▸ listed

theorem pushNew_ok {elems : List String} (listed : ∀ x ∈ elems, x ∈ dat.devices) (fringe : List Device)
    {result : List String} (distinct : result.Nodup) :
    ∃ new : List Device, pushNew dat elems fringe result = .ok (fringe ++ new, result ++ new.map Device.name) ∧
      (∀ dev ∈ new, dat.devices[dev.name]? = some dev ∧ dev.name ∈ elems) ∧
      (∀ x ∈ elems, x ∈ result ++ new.map Device.name) ∧ (result ++ new.map Device.name).Nodup := by
  induction elems generalizing fringe result with
  | nil => exact ⟨[], by simp [pushNew, pure, Except.pure], by simp, by simp, by simpa using distinct⟩
  | cons elem rest ih =>
    obtain ⟨here, later⟩ := List.forall_mem_cons.mp listed
    unfold pushNew
    by_cases old : elem ∈ result
    · obtain ⟨new, run, known, covered, distinct⟩ := ih later fringe distinct
      refine ⟨new, by rw [if_pos old]; exact run, ?_, ?_, distinct⟩
      · intro dev member
        exact ⟨(known dev member).1, List.mem_cons_of_mem _ (known dev member).2⟩
      · intro x member
        rcases List.mem_cons.mp member with rfl | member
        · exact List.mem_append_left _ old
        · exact covered x member
    · obtain ⟨dev, found⟩ := StringMap.mem_iff.mp here
      obtain rfl := dat.named elem dev found
      have distinct' : (result ++ [dev.name]).Nodup := by
        rw [← List.concat_eq_append]
        exact List.Nodup.concat old distinct
      obtain ⟨new, run, known, covered, distinct''⟩ := ih later (fringe ++ [dev]) distinct'
      have together : result ++ [dev.name] ++ new.map Device.name = result ++ (dev :: new).map Device.name := by simp
      rw [together] at run covered distinct''
      refine ⟨dev :: new, ?_, ?_, ?_, distinct''⟩
      · rw [if_neg old, found]
        simpa using run
      · intro other member
        rcases List.mem_cons.mp member with rfl | member
        · exact ⟨found, List.mem_cons_self⟩
        · exact ⟨(known other member).1, List.mem_cons_of_mem _ (known other member).2⟩
      · intro x member
        rcases List.mem_cons.mp member with rfl | member
        · simp
        · exact covered x member

/-! ### The loop -/

variable (dat) in
/-- The loop's invariant: a worklist search without repetitions, over devices of the table. -/
structure Searching (categories : List String) (root : String) (fringe : List Device) (result : List String) : Prop where
  worklist : Graph.Worklist (SubEdge dat categories root) root {x | x ∈ fringe.map Device.name} {x | x ∈ result}
  distinct : result.Nodup
  listed : ∀ x ∈ result, x ∈ dat.devices
  known : ∀ dev ∈ fringe, dat.devices[dev.name]? = some dev

theorem Searching.length_le {categories : List String} {root : String} {fringe : List Device} {result : List String}
    (h : Searching dat categories root fringe result) : result.length ≤ dat.devices.size := by
  have sub : result ⊆ dat.devices.keys := fun x member => Std.TreeMap.mem_keys.mpr (h.listed x member)
  have le := (h.distinct.subperm sub).length_le
  rwa [Std.TreeMap.length_keys] at le

variable (dat) in
/-- What the expansion of a device adds to the devices found: its successors, those that were not there. -/
structure Expanded (categories : List String) (root : String) (dev : Device) (result : List String) (new : List Device) :
    Prop where
  known : ∀ other ∈ new, dat.devices[other.name]? = some other
  edges : ∀ other ∈ new, SubEdge dat categories root dev.name other.name
  covered : ∀ x, SubEdge dat categories root dev.name x → x ∈ result ++ new.map Device.name
  distinct : (result ++ new.map Device.name).Nodup

theorem expand_ok (closed : dat.Closed) {categories : List String} {root : String} {dev : Device}
    (known : dat.devices[dev.name]? = some dev) {result : List String} (distinct : result.Nodup)
    (layersChooser : String → Bool)
    (chooses : ∀ layerName, layersChooser layerName = true ↔ (dev.name = root → categories = [] ∨ layerName ∈ categories))
    (fringe : List Device) :
    ∃ new : List Device, expand dat layersChooser dev fringe result = .ok (fringe ++ new, result ++ new.map Device.name) ∧
      Expanded dat categories root dev result new := by
  obtain ⟨associations, run, listed, members⟩ := getTestLayerAssociations_ok closed known layersChooser
  obtain ⟨new, pushed, found, covered, distinct⟩ := pushNew_ok listed fringe distinct
  have edges : ∀ x, x ∈ associations ↔ SubEdge dat categories root dev.name x := by
    intro x
    rw [members]
    constructor
    · intro association
      obtain ⟨layerName, layer, here, chosen, names⟩ := association
      exact ⟨dev, layerName, layer, known, here, (chooses layerName).mp chosen, names⟩
    · intro edge
      obtain ⟨dev', layerName, layer, known', here, chosen, names⟩ := edge
      rw [known, Option.some.injEq] at known'
      subst known'
      exact ⟨layerName, layer, here, (chooses layerName).mpr chosen, names⟩
  refine ⟨new, ?_, fun other member => (found other member).1, fun other member => ?_, fun x edge => ?_, distinct⟩
  · rw [expand, run]
    exact pushed
  · exact (edges other.name).mp (found other member).2
  · exact covered x ((edges x).mpr edge)

theorem Searching.expand {categories : List String} {root : String} {dev : Device} {fringe new : List Device}
    {result : List String} (h : Searching dat categories root (dev :: fringe) result)
    (expanded : Expanded dat categories root dev result new) :
    Searching dat categories root (fringe ++ new) (result ++ new.map Device.name) := by
  refine ⟨?_, expanded.distinct, ?_, ?_⟩
  · rw [List.map_append]
    apply h.worklist.expand_list
    · intro x member
      obtain ⟨other, inside, rfl⟩ := List.mem_map.mp member
      exact expanded.edges other inside
    · exact expanded.covered
  · intro x member
    rcases List.mem_append.mp member with old | fresh
    · exact h.listed x old
    · obtain ⟨other, inside, rfl⟩ := List.mem_map.mp fresh
      exact StringMap.mem_iff.mpr ⟨other, expanded.known other inside⟩
  · intro other member
    rcases List.mem_append.mp member with old | fresh
    · exact h.known other (List.mem_cons_of_mem _ old)
    · exact expanded.known other fresh

/-- The root is found already, it is not new. -/
theorem Searching.new_ne_root {categories : List String} {root : String} {dev : Device} {fringe new : List Device}
    {result : List String} (h : Searching dat categories root fringe result)
    (expanded : Expanded dat categories root dev result new) : ∀ other ∈ new, other.name ≠ root := by
  intro other member same
  have apart := (List.nodup_append.mp expanded.distinct).2.2 root h.worklist.started other.name
    (List.mem_map_of_mem member)
  exact apart same.symm

variable (dat) in
/-- What every expansion keeps. -/
def Kept (categories : List String) (root : String) (P : List Device → List String → Prop) : Prop :=
  ∀ dev fringe result new, Searching dat categories root (dev :: fringe) result → P (dev :: fringe) result →
    Expanded dat categories root dev result new → P (fringe ++ new) (result ++ new.map Device.name)

/-- From the second device on all layers are followed. The search ends, with what every expansion keeps. -/
theorem searchFrom_ok (closed : dat.Closed) {categories : List String} {root : String} {fuel : Nat} {fringe : List Device}
    {result : List String} (h : Searching dat categories root fringe result) (others : ∀ dev ∈ fringe, dev.name ≠ root)
    (enough : dat.devices.size + fringe.length ≤ fuel + result.length) {P : List Device → List String → Prop}
    (kept : Kept dat categories root P) (holds : P fringe result) :
    ∃ found, searchFrom dat fuel allLayersChooser fringe result = some (.ok found) ∧
      Searching dat categories root [] found ∧ P [] found := by
  have bound := h.length_le
  induction fuel generalizing fringe result with
  | zero =>
    have empty : fringe = [] := List.eq_nil_of_length_eq_zero (by omega)
    subst empty
    exact ⟨result, rfl, h, holds⟩
  | succ fuel ih =>
    cases fringe with
    | nil => exact ⟨result, rfl, h, holds⟩
    | cons dev fringe =>
      have chooses : ∀ layerName,
          allLayersChooser layerName = true ↔ (dev.name = root → categories = [] ∨ layerName ∈ categories) := by
        intro layerName
        simp [allLayersChooser, others dev List.mem_cons_self]
      obtain ⟨new, run, expanded⟩ :=
        expand_ok closed (h.known dev List.mem_cons_self) h.distinct allLayersChooser chooses fringe
      have next := h.expand expanded
      have left : dat.devices.size + (fringe ++ new).length ≤ fuel + (result ++ new.map Device.name).length := by
        simp only [List.length_append, List.length_map, List.length_cons] at enough ⊢
        omega
      have apart : ∀ other ∈ fringe ++ new, other.name ≠ root := by
        intro other member
        rcases List.mem_append.mp member with old | pushed
        · exact others other (List.mem_cons_of_mem _ old)
        · exact h.new_ne_root expanded other pushed
      obtain ⟨found, rest, ended⟩ := ih next apart left (kept dev fringe result new h holds expanded) next.length_le
      refine ⟨found, ?_, ended⟩
      unfold searchFrom
      rw [Run.bind_ofExcept run]
      exact rest

/-- In a closed table the search from a device ends, with what every expansion keeps. -/
theorem getTestLayerSubAssociations_kept (closed : dat.Closed) {root : Device}
    (known : dat.devices[root.name]? = some root) (event : EventNode) {P : List Device → List String → Prop}
    (kept : Kept dat event.getStringCategories root.name P) (holds : P [root] [root.name]) :
    ∃ found, getTestLayerSubAssociations dat root.name event = some (.ok found) ∧
      Searching dat event.getStringCategories root.name [] found ∧ P [] found := by
  have start : Searching dat event.getStringCategories root.name [root] [root.name] := by
    refine ⟨?_, List.nodup_singleton _, ?_, ?_⟩
    · simpa using Graph.Worklist.init root.name
    · intro x member
      exact StringMap.mem_iff.mpr ⟨root, List.mem_singleton.mp member ▸ known⟩
    · intro dev member
      exact List.mem_singleton.mp member ▸ known
  have positive : 1 ≤ dat.devices.size := start.length_le
  obtain ⟨n, size⟩ : ∃ n, dat.devices.size = n + 1 := ⟨dat.devices.size - 1, by omega⟩
  have chooses : ∀ layerName,
      (if event.getStringCategories.isEmpty then allLayersChooser else event.getStringCategories.contains) layerName = true ↔
        (root.name = root.name → event.getStringCategories = [] ∨ layerName ∈ event.getStringCategories) := by
    intro layerName
    by_cases none : event.getStringCategories = []
    · simp [none, allLayersChooser]
    · simp [none]
  obtain ⟨new, run, expanded⟩ := expand_ok closed known start.distinct _ chooses []
  have enough : dat.devices.size + ([] ++ new).length ≤ n + ([root.name] ++ new.map Device.name).length := by
    simp only [List.length_append, List.length_map, List.length_singleton, List.length_nil]
    omega
  obtain ⟨found, rest, ended⟩ := searchFrom_ok closed (start.expand expanded) (start.new_ne_root expanded) enough kept
    (kept root [] [root.name] new start holds expanded)
  refine ⟨found, ?_, ended⟩
  unfold getTestLayerSubAssociations
  rw [known, size]
  dsimp only
  unfold searchFrom
  rw [Run.bind_ofExcept run]
  exact rest

/-- In a closed table the search ends with the devices reachable along its edges. -/
theorem getTestLayerSubAssociations_ok (closed : dat.Closed) {root : Device} (known : dat.devices[root.name]? = some root)
    (event : EventNode) :
    ∃ found, getTestLayerSubAssociations dat root.name event = some (.ok found) ∧
      ∀ x, x ∈ found ↔ ReflTransGen (SubEdge dat event.getStringCategories root.name) root.name x := by
  obtain ⟨found, run, ended, -⟩ := getTestLayerSubAssociations_kept (P := fun _ _ => True) closed known event
    (fun _ _ _ _ _ _ _ => trivial) trivial
  exact ⟨found, run, fun x => Graph.Worklist.mem_iff (by simpa using ended.worklist) x⟩

/-! ### Looking up the results -/

theorem firstFailed_ok {report : ReportResult} {children : List String} (reported : ∀ child ∈ children, child ∈ report) :
    ∃ failed, firstFailed report children = .ok failed := by
  induction children with
  | nil => exact ⟨none, rfl⟩
  | cons child rest ih =>
    obtain ⟨here, later⟩ := List.forall_mem_cons.mp reported
    obtain ⟨result, found⟩ := StringMap.mem_iff.mp here
    unfold firstFailed
    rw [found]
    dsimp only
    split
    · exact ih later
    · exact ⟨some child, rfl⟩

theorem traceReport_ok {event : EventNode} (free : event.originOfCondition = none) {children : List String}
    (found : getTestLayerSubAssociations dat event.device event = some (.ok children)) {report : ReportResult}
    (reported : ∀ child ∈ children, child ∈ report) (generateReport : ReportResult → Option Json) (dev : Device) :
    ∃ traced, traceReport dat generateReport event dev report = some (.ok traced) := by
  obtain ⟨failed, lookup⟩ := firstFailed_ok fun child (member : child ∈ children.reverse) =>
    reported child (List.mem_reverse.mp member)
  have general : findRootCause dat event.device report event = some (.ok (failed.getD event.device)) := by
    rw [findRootCause, if_neg (by simp [EventNode.hasFixedOriginOfCondition, free]), findRootCauseGeneral,
      Run.bind_of_eq found, Run.bind_ofExcept lookup]
    rfl
  unfold traceReport
  rw [getDeviceTestResult, Run.bind_ofExcept (Severity.ofString_ok_iff.mpr rfl), Run.bind_of_eq general]
  dsimp only
  cases generateReport report with
  | none => exact ⟨_, rfl⟩
  | some text => exact ⟨_, rfl⟩

theorem mem_touch {report : ReportResult} {device d : String} : d ∈ touch report device ↔ device = d ∨ d ∈ report := by
  unfold touch
  split
  · rename_i present
    exact (or_iff_right_of_imp fun same => same ▸ present).symm
  · exact StringMap.mem_insert report device d {}

variable (dat) in
/-- What the search finds from the event's device, the self-test visits as well. -/
def TestsAssociated (event : EventNode) : Prop :=
  ∀ d, ReflTransGen (SubEdge dat event.getStringCategories event.device) event.device d →
    ReflTransGen (Edge dat ["data_dump"]) event.device d

end

/-- In a closed table every device associated with the event's device is in the report of its self-test,
exactly if every device the search reaches is reached by test points outside of the data dumps too, through
devices that are not skipped. Then tracing an event without a fixed origin throws nothing. -/
theorem associated_reported_iff (dat : DAT) (closed : dat.Closed) (read : Oracle)
    (generateReport : ReportResult → Option Json) (event : EventNode) (dev : Device)
    (known : dat.devices[event.device]? = some dev) (free : event.originOfCondition = none) :
    ∃ children report, getTestLayerSubAssociations dat event.device event = some (.ok children) ∧
      perform dat read ["data_dump"] dat.devices.size dev ∅ = some (.ok (.succ, report)) ∧
      ((∀ child ∈ children, child ∈ touch report event.device) ↔ TestsAssociated dat event) ∧
      (TestsAssociated dat event → ∃ traced, process dat read generateReport event = some (.ok traced)) := by
  have name := dat.named event.device dev known
  have known' : dat.devices[dev.name]? = some dev := name.symm ▸ known
  obtain ⟨children, search, found⟩ := getTestLayerSubAssociations_ok closed known' event
  obtain ⟨report, run, cases⟩ := perform_reaches closed read ["data_dump"] known'
  rw [name] at search found
  have covered : (∀ child ∈ children, child ∈ touch report event.device) ↔ TestsAssociated dat event := by
    simp only [found, mem_touch]
    rcases cases with ⟨skip, rfl⟩ | ⟨_, reached⟩
    · -- a test that is skipped enters its own device only, and leads to no other
      refine forall_congr' fun d => imp_congr_right fun _ => ?_
      have alone : ReflTransGen (Edge dat ["data_dump"]) event.device d ↔ event.device = d := by
        constructor
        · intro path
          exact path.cases_head.resolve_right fun ⟨b, edge, _⟩ => not_edge_of_skip known skip edge
        · rintro rfl
          exact ReflTransGen.refl
      rw [alone]
      exact or_iff_left (by simp)
    · rw [name] at reached
      constructor
      · intro all d path
        rcases all d path with same | member
        · rw [same]
        · exact (reached d).mp member
      · intro tests d path
        exact Or.inr ((reached d).mpr (tests d path))
  refine ⟨children, report, search, run, covered, fun tests => ?_⟩
  unfold process
  by_cases blank : event.device = ""
  · exact ⟨{ rc := .error, event, dat }, if_pos blank⟩
  · rw [if_neg blank, known]
    dsimp only
    rw [Run.bind_of_eq run]
    exact traceReport_ok free search (covered.mpr tests) generateReport dev

/-! ### A device that only a data dump names -/

def dumped (powerRail : List Json) : Json :=
  .object [("GPU_SXM_1", deviceJson powerRail [devicePoint "NVSwitch_0" "PASS"]), ("NVSwitch_0", deviceJson [] [])]

/-- Where the power rail names the device as well, the trace finds its result. -/
theorem associated_reported_iff_rail : ∃ dat : DAT,
    DAT.populateMap .empty (dumped [devicePoint "NVSwitch_0" "PASS"]) = .ok dat ∧
    ∃ traced, process dat readTest (fun _ => none) { device := "GPU_SXM_1" } = some (.ok traced) := by
  have run : (DAT.populateMap .empty (dumped [devicePoint "NVSwitch_0" "PASS"])).map (fun dat =>
      (decide dat.Closed, decide ("GPU_SXM_1" ∈ dat.devices),
        decide (∀ entry ∈ dat.devices.toList, entry.2.type = .regular),
        decide (∀ entry ∈ dat.devices.toList, ∀ layer ∈ entry.2.test.toList, ∀ point ∈ layer.2.testPoints.toList,
          layer.1 = "data_dump" → ((entry.2.test["power_rail"]?).bind fun rail => rail.testPoints[point.1]?).map
            (fun tp => (tp.accessor.isValidDeviceAccessor, tp.deviceName)) =
              some (point.2.accessor.isValidDeviceAccessor, point.2.deviceName)))) = .ok (true, true, true, true) := by
    decide
  obtain ⟨dat, loaded, facts⟩ := map_ok run
  simp only [Prod.mk.injEq, decide_eq_true_eq] at facts
  obtain ⟨closed, known, regular, twice⟩ := facts
  obtain ⟨dev, known⟩ := StringMap.mem_iff.mp known
  refine ⟨dat, loaded, ?_⟩
  obtain ⟨_, _, _, _, _, traces⟩ :=
    associated_reported_iff dat closed readTest (fun _ => none) { device := "GPU_SXM_1" } dev known rfl
  apply traces
  intro d path
  refine ReflTransGen.mono (fun a b edge => ?_) _ _ path
  obtain ⟨dev, layerName, layer, here, there, _, name, tp, inside, isDevice, nameRead⟩ := edge
  have tested : testedLayers dev = dev.test := by
    apply testedLayers_visited
    exact shouldSkip_regular (regular (a, dev) (Std.TreeMap.mem_toList_iff_getElem?_eq_some.mpr here))
  by_cases dump : layerName = "data_dump"
  · have same := twice (a, dev) (Std.TreeMap.mem_toList_iff_getElem?_eq_some.mpr here) (layerName, layer)
      (Std.TreeMap.mem_toList_iff_getElem?_eq_some.mpr there) (name, tp)
      (Std.TreeMap.mem_toList_iff_getElem?_eq_some.mpr inside) dump
    obtain ⟨tp', found, same⟩ := Option.map_eq_some_iff.mp same
    obtain ⟨rail, railFound, found⟩ := Option.bind_eq_some_iff.mp found
    obtain ⟨isDevice', nameRead'⟩ := Prod.mk.inj same
    exact ⟨dev, name, tp', here, ⟨"power_rail", rail, tested ▸ railFound, by decide, found⟩, isDevice' ▸ isDevice,
      nameRead'.trans nameRead⟩
  · exact ⟨dev, name, tp, here, ⟨layerName, layer, tested ▸ there, by simpa using dump, inside⟩, isDevice, nameRead⟩

/-- A trace of the device with the data dump looks up a result that is not there. -/
theorem process_throws_dumped : ∃ dat : DAT, DAT.populateMap .empty (dumped []) = .ok dat ∧ dat.Closed ∧
    "GPU_SXM_1" ∈ dat.devices ∧
    process dat readTest (fun _ => none) { device := "GPU_SXM_1" } = some (.error .outOfRange) := by
  have run : (DAT.populateMap .empty (dumped [])).map (fun dat => (decide dat.Closed, decide ("GPU_SXM_1" ∈ dat.devices),
      match process dat readTest (fun _ => none) { device := "GPU_SXM_1" } with
      | some (.error e) => some e
      | some (.ok _) => none
      | none => none)) = .ok (true, true, some .outOfRange) := by decide
  obtain ⟨dat, loaded, facts⟩ := map_ok run
  simp only [Prod.mk.injEq, decide_eq_true_eq] at facts
  obtain ⟨closed, known, facts⟩ := facts
  refine ⟨dat, loaded, closed, known, ?_⟩
  split at facts
  · rename_i e result
    rw [result, Option.some.inj facts]
  · cases facts
  · cases facts

end MonitorEventing.Selftest
