import MonitorEventing.Lib.BreadthFirst
import MonitorEventing.Selftest.RootCause

/-!
# The most nested device that fails

The search lists the associated devices by their distance from the root. `findRootCauseGeneral` goes
through the list from its end, so that no failing device is further away than the one it takes.
-/

namespace MonitorEventing.Selftest
open Accessor Dat EventInfo Relation

/-- The number of test points from the root to a device, by the shortest way. -/
noncomputable def nesting (dat : DAT) (categories : List String) (root x : String) : Nat :=
  Graph.distance (SubEdge dat categories root) root x

/-- The associated devices of a root: itself, and then all others once, by their nesting. -/
structure Associated (dat : DAT) (categories : List String) (root : String) (found : List String) : Prop where
  first : found.head? = some root
  once : found.Nodup
  reached : ∀ x, x ∈ found ↔ ReflTransGen (SubEdge dat categories root) root x
  nested : found.Pairwise fun x y => nesting dat categories root x ≤ nesting dat categories root y

section
variable {dat : DAT} {root : String}

/-! ### The search -/

variable (dat) in
/-- The fringe is what the search still has to expand of its result. -/
def Layered (categories : List String) (root : String) (fringe : List Device) (result : List String) : Prop :=
  ∃ done, result = done ++ fringe.map Device.name ∧
    Graph.BreadthFirst (SubEdge dat categories root) root done (fringe.map Device.name)

theorem kept_layered (categories : List String) : Kept dat categories root (Layered dat categories root) := by
  intro dev fringe result new _ layered expanded
  obtain ⟨done, rfl, search⟩ := layered
  refine ⟨done ++ [dev.name], by simp, ?_⟩
  rw [List.map_append]
  apply search.expand
  · intro x member
    obtain ⟨other, inside, rfl⟩ := List.mem_map.mp member
    exact expanded.edges other inside
  · exact expanded.covered
  · exact expanded.distinct

theorem getTestLayerSubAssociations_associated (closed : dat.Closed) (known : root ∈ dat.devices) (event : EventNode) :
    ∃ found, getTestLayerSubAssociations dat root event = some (.ok found) ∧
      Associated dat event.getStringCategories root found := by
  obtain ⟨dev, known⟩ := StringMap.mem_iff.mp known
  obtain rfl := dat.named root dev known
  have start : Layered dat event.getStringCategories dev.name [dev] [dev.name] :=
    ⟨[], rfl, Graph.BreadthFirst.init dev.name⟩
  obtain ⟨found, run, -, done, same, search⟩ :=
    getTestLayerSubAssociations_kept closed known event (kept_layered _) start
  rw [List.map_nil, List.append_nil] at same
  subst same
  rw [List.map_nil] at search
  refine ⟨found, run, ?_, ?_, search.mem_iff, ?_⟩
  · simpa using search.first
  · simpa using search.distinct
  · have sorted := search.sorted
    rwa [List.append_nil] at sorted

/-! ### The lookup -/

/-- The report has a failing result of the device. -/
def fails (report : ReportResult) (device : String) : Bool := (report[device]?).any fun result => !evaluateDevice result

theorem firstFailed_eq {report : ReportResult} {children : List String} (reported : ∀ child ∈ children, child ∈ report) :
    firstFailed report children = .ok (children.find? (fails report)) := by
  induction children with
  | nil => rfl
  | cons child rest ih =>
    obtain ⟨here, later⟩ := List.forall_mem_cons.mp reported
    obtain ⟨result, found⟩ := StringMap.mem_iff.mp here
    have failing : fails report child = !evaluateDevice result := by
      rw [fails, found]
      rfl
    unfold firstFailed
    rw [found, List.find?_cons, failing]
    dsimp only
    split
    · rename_i passes
      rw [passes]
      exact ih later
    · rename_i fails
      rw [Bool.not_eq_true] at fails
      rw [fails]
      rfl

/-- The device that fails nearest to the end of the list is one of the furthest that fail. -/
theorem Associated.furthest {categories : List String} {found : List String}
    (h : Associated dat categories root found) {p : String → Bool} {cause : String}
    (last : found.reverse.find? p = some cause) : p cause = true ∧ cause ∈ found ∧
      ∀ d ∈ found, p d = true → nesting dat categories root d ≤ nesting dat categories root cause := by
  obtain ⟨fails, before, after, split, passing⟩ := List.find?_eq_some_iff_append.mp last
  have order : found = after.reverse ++ cause :: before.reverse := by
    rw [← found.reverse_reverse, split]
    simp
  refine ⟨fails, by simp [order], fun d member failing => ?_⟩
  have nested := h.nested
  rw [order, List.pairwise_append] at nested
  rw [order] at member
  rcases List.mem_append.mp member with early | late
  · exact nested.2.2 d early cause List.mem_cons_self
  · rcases List.mem_cons.mp late with rfl | beyond
    · exact le_rfl
    · have passes := passing d (List.mem_reverse.mp beyond)
      rw [failing] at passes
      cases passes

end

/-- The search of a closed table ends with the associated devices of its root, by their nesting. What is not in the
table has none. -/
theorem getTestLayerSubAssociations_nested (dat : DAT) (closed : dat.Closed) (root : String) (event : EventNode) :
    (root ∈ dat.devices → ∃ found, getTestLayerSubAssociations dat root event = some (.ok found) ∧
      Associated dat event.getStringCategories root found) ∧
    (root ∉ dat.devices → getTestLayerSubAssociations dat root event =
      some (.error (.runtimeError ("DAT doesn't contain device" ++ root)))) := by
  refine ⟨fun known => getTestLayerSubAssociations_associated closed known event, fun unknown => ?_⟩
  rw [getTestLayerSubAssociations, Std.TreeMap.getElem?_eq_none unknown]
  rfl

/-- GPU and switch name each other: the search of the GPU ends with both. -/
theorem getTestLayerSubAssociations_nested_circle : ∃ dat : DAT,
    DAT.populateMap .empty (circle (fixedPoint "PGOOD" "1" "1")) = .ok dat ∧
    ∃ found, getTestLayerSubAssociations dat "GPU_SXM_1" {} = some (.ok found) ∧ Associated dat [] "GPU_SXM_1" found := by
  have run : (DAT.populateMap .empty (circle (fixedPoint "PGOOD" "1" "1"))).map (fun dat =>
      (decide dat.Closed, decide ("GPU_SXM_1" ∈ dat.devices))) = .ok (true, true) := by decide
  obtain ⟨dat, loaded, facts⟩ := map_ok run
  simp only [Prod.mk.injEq, decide_eq_true_eq] at facts
  exact ⟨dat, loaded, (getTestLayerSubAssociations_nested dat facts.1 "GPU_SXM_1" {}).1 facts.2⟩

/-- What the trace takes for the root cause: the device itself if nothing fails, else a failing device with no failing
one further away. -/
structure Nested (dat : DAT) (report : ReportResult) (categories : List String) (device cause : String) : Prop where
  clean : (∀ d, ReflTransGen (SubEdge dat categories device) device d → fails report d = false) → cause = device
  failing : (∃ d, ReflTransGen (SubEdge dat categories device) device d ∧ fails report d = true) →
    ReflTransGen (SubEdge dat categories device) device cause ∧ fails report cause = true ∧
      ∀ d, ReflTransGen (SubEdge dat categories device) device d → fails report d = true →
        nesting dat categories device d ≤ nesting dat categories device cause

/-- With a result for every associated device, the root cause is one of the most nested devices that fail. -/
theorem findRootCauseGeneral_nested (dat : DAT) (closed : dat.Closed) (triggeringDevice : String)
    (known : triggeringDevice ∈ dat.devices) (event : EventNode) (report : ReportResult)
    (reported : ∀ d, ReflTransGen (SubEdge dat event.getStringCategories triggeringDevice) triggeringDevice d →
      d ∈ report) :
    ∃ cause, findRootCauseGeneral dat triggeringDevice report event = some (.ok cause) ∧
      Nested dat report event.getStringCategories triggeringDevice cause := by
  obtain ⟨found, search, associated⟩ := getTestLayerSubAssociations_associated closed known event
  have lookup := firstFailed_eq fun d (member : d ∈ found.reverse) =>
    reported d ((associated.reached d).mp (List.mem_reverse.mp member))
  refine ⟨(found.reverse.find? (fails report)).getD triggeringDevice, ?_, ?_⟩
  · rw [findRootCauseGeneral, Run.bind_of_eq search, Run.bind_ofExcept lookup]
    rfl
  · cases last : found.reverse.find? (fails report) with
    | none =>
      have passing := List.find?_eq_none.mp last
      refine ⟨fun _ => rfl, ?_⟩
      rintro ⟨d, path, failing⟩
      exact absurd failing (passing d (List.mem_reverse.mpr ((associated.reached d).mpr path)))
    | some cause =>
      obtain ⟨failing, member, furthest⟩ := associated.furthest last
      have path := (associated.reached cause).mp member
      refine ⟨fun passing => ?_, fun _ => ⟨path, failing, fun d path failing => ?_⟩⟩
      · rw [passing cause path] at failing
        cases failing
      · exact furthest d ((associated.reached d).mpr path) failing

/-- Test points of a closed table lead to devices of the table. -/
theorem subEdge_known {dat : DAT} (closed : dat.Closed) {categories : List String} {root a b : String}
    (edge : SubEdge dat categories root a b) : b ∈ dat.devices := by
  obtain ⟨dev, layerName, layer, known, here, -, name, tp, inside, isDevice, nameRead⟩ := edge
  obtain ⟨other, same, listed⟩ := closed a dev known layerName layer here name tp inside isDevice
  rw [nameRead, Except.ok.injEq] at same
  exact same ▸ listed

/-- A report on the circle in which the switch fails. -/
def switchFailed : ReportResult := StringMap.ofPairs [("GPU_SXM_1", {}),
  ("NVSwitch_0", { layer := StringMap.ofPairs [("power_rail", [⟨false, .critical, "PGOOD", "0", "1", false⟩])] })]

/-- The trace of the GPU takes the switch, which is the only device that fails. -/
theorem findRootCauseGeneral_nested_circle : ∃ dat : DAT,
    DAT.populateMap .empty (circle (fixedPoint "PGOOD" "1" "1")) = .ok dat ∧
    ∃ cause, findRootCauseGeneral dat "GPU_SXM_1" switchFailed {} = some (.ok cause) ∧
      Nested dat switchFailed [] "GPU_SXM_1" cause := by
  have run : (DAT.populateMap .empty (circle (fixedPoint "PGOOD" "1" "1"))).map (fun dat =>
      (decide dat.Closed, decide ("GPU_SXM_1" ∈ dat.devices),
        decide (∀ d ∈ dat.devices.keys, d ∈ switchFailed))) = .ok (true, true, true) := by decide
  obtain ⟨dat, loaded, facts⟩ := map_ok run
  simp only [Prod.mk.injEq, decide_eq_true_eq] at facts
  obtain ⟨closed, known, covered⟩ := facts
  refine ⟨dat, loaded, findRootCauseGeneral_nested dat closed "GPU_SXM_1" known {} switchFailed fun d path => ?_⟩
  apply covered
  rw [Std.TreeMap.mem_keys]
  rcases path.cases_tail with same | ⟨c, -, edge⟩
  · exact same ▸ known
  · exact subEdge_known closed edge

end MonitorEventing.Selftest
