import MonitorEventing.Selftest.Reach

/-!
# Reports of cyclic tables

A device on the recursion stack is in the report with a placeholder that evaluates well. A test
point that names it is reported by the placeholder, so on a cycle with a failing device the report
contradicts itself for one of the starts.
-/

namespace MonitorEventing.Selftest
open Accessor Dat Relation

/-- The DEVICE test points that expect something tell how the final entries evaluate. -/
def Consistent (report : ReportResult) : Prop :=
  ∀ (d : String) (entry : DeviceResult), report[d]? = some entry → ∀ (layerName : String),
    ∀ res ∈ entry.layer.getD layerName [], res.isTypeDevice = true → res.valExpected ≠ "" → res.valExpected ≠ "Fail" →
      ∃ target, report[res.targetName]? = some target ∧ (res.result = true ↔ evaluateDevice target = true)

/-- A DEVICE test point that expects something, of the first device, which is not skipped, names the second. -/
def CheckedEdge (dat : DAT) (ignored : List String) (a b : String) : Prop :=
  ∃ dev name tp, dat.devices[a]? = some dev ∧ IsTested ignored dev name tp ∧
    tp.accessor.isValidDeviceAccessor = true ∧ tp.deviceName = .ok b ∧ tp.expectedValue ≠ "" ∧ tp.expectedValue ≠ "Fail"

/-- A device that a checked test point on a cycle names passes by itself. -/
def CyclesPass (dat : DAT) (read : Oracle) (ignored : List String) : Prop :=
  ∀ a b, CheckedEdge dat ignored a b → ReflTransGen (Edge dat ignored) b a →
    ∀ dev, dat.devices[b]? = some dev → PassesItself read ignored dev

section
variable {dat : DAT} {read : Oracle} {ignored : List String}

theorem IsEntry.device_result {found : String → Bool → Prop} {dev : Device} {entry : DeviceResult}
    (h : IsEntry read ignored found dev entry) {layerName : String} {res : TestPointResult}
    (member : res ∈ entry.layer.getD layerName []) (isDevice : res.isTypeDevice = true) :
    ∃ name tp evaluated, IsTested ignored dev name tp ∧ tp.accessor.isValidDeviceAccessor = true ∧
      tp.deviceName = .ok res.targetName ∧ found res.targetName evaluated ∧
      res = nestedTpRes tp res.targetName evaluated := by
  obtain ⟨name, tp, tested, result⟩ := h.point member
  unfold IsResult at result
  split at result
  · rename_i valid
    obtain ⟨other, evaluated, nameRead, holds, rfl⟩ := result
    exact ⟨name, tp, evaluated, tested, valid, nameRead, holds, rfl⟩
  · rw [result] at isDevice
    cases isDevice

theorem consistent_of_pass (pass : CyclesPass dat read ignored) {root : Device} {report : ReportResult}
    (grew : Grew dat read ignored {root.name} ∅ report) : Consistent report := by
  intro d entry found layerName res member isDevice expects notFail
  obtain ⟨dev, known, isEntry⟩ := grew.entries d (by simp) entry found
  obtain ⟨name, tp, evaluated, tested, valid, nameRead, holds, same⟩ := isEntry.device_result member isDevice
  rw [same] at expects notFail
  have result : res.result = evaluated := by
    rw [same]
    exact nestedTpRes_result expects notFail _ _
  rcases holds with ⟨_, none, _⟩ | ⟨_, target, final, value⟩
  · simp at none
  refine ⟨target, final, ?_⟩
  rw [result]
  rcases value with value | ⟨placeholder, cycle⟩
  · rw [value]
  · obtain ⟨other, otherKnown, otherEntry⟩ := grew.entries res.targetName (by simp) target final
    have edge : CheckedEdge dat ignored d res.targetName := ⟨dev, name, tp, known, tested, valid, nameRead, expects, notFail⟩
    have passed := pass d res.targetName edge cycle other otherKnown
    rw [placeholder, otherEntry.evaluateDevice_iff]
    exact iff_of_true rfl passed

theorem perform_root (closed : dat.Closed) {root : Device} (known : dat.devices[root.name]? = some root)
    (visited : shouldSkip root = false) :
    ∃ report : ReportResult, perform dat read ignored dat.devices.size root ∅ = some (.ok (.succ, report)) ∧
      (∃ final, report[root.name]? = some final ∧ (evaluateDevice final = true ↔ PassesItself read ignored root)) ∧
      ∀ (d : String) (entry : DeviceResult), report[d]? = some entry → ∃ dev, dat.devices[d]? = some dev ∧
        IsEntry read ignored (fun b v => b = root.name → v = true) dev entry := by
  have member : root.name ∈ dat.devices := StringMap.mem_iff.mpr ⟨root, known⟩
  have fresh : root.name ∉ (∅ : ReportResult) := by simp
  obtain ⟨n, size⟩ : ∃ n, dat.devices.size = n + 1 := by
    have some := size_pos member
    exact ⟨dat.devices.size - 1, by omega⟩
  obtain ⟨inside, result, run, grew, own⟩ := perform_visit closed (perform_tests closed n) known visited
    fresh (size ▸ unvisited_le dat ∅)
  have stale : ∀ a b v, Evaluated dat ignored ((∅ : ReportResult).insert root.name {}) inside a b v →
      b = root.name → v = true := by
    intro a b v holds same
    subst same
    rcases holds with ⟨entry, found, value⟩ | ⟨fresh, _⟩
    · rw [StringMap.getElem?_insert, if_pos rfl, Option.some.injEq] at found
      rw [value, ← found]
      rfl
    · exact absurd ((StringMap.mem_insert ∅ root.name root.name {}).mpr (Or.inl rfl)) fresh
  refine ⟨inside.insert root.name result, size ▸ run, ⟨result, by simp, own.evaluateDevice_iff⟩, ?_⟩
  intro d entry found
  rw [StringMap.getElem?_insert] at found
  split at found
  · rename_i same
    obtain rfl := Option.some.inj found
    exact ⟨root, same ▸ known, own.mono fun b v => stale root.name b v⟩
  · rename_i other
    obtain ⟨dev, devKnown, isEntry⟩ := grew.entries d (by simpa using other) entry found
    exact ⟨dev, devKnown, isEntry.mono fun b v => stale d b v⟩

/-- Started from a failing device that is named on a cycle, the report contradicts itself. -/
theorem pass_of_consistent (closed : dat.Closed)
    (consistent : ∀ root, dat.devices[root.name]? = some root → ∃ report : ReportResult,
      perform dat read ignored dat.devices.size root ∅ = some (.ok (.succ, report)) ∧ Consistent report) :
    CyclesPass dat read ignored := by
  intro a b edge cycle root rootKnown
  obtain rfl := dat.named b root rootKnown
  by_contra failing
  have visited : shouldSkip root = false := by
    by_contra skip
    apply failing
    intro name tp tested
    exact absurd tested (not_isTested_of_skip (Bool.eq_true_of_not_eq_false skip) name tp)
  obtain ⟨report, run, holds⟩ := consistent root rootKnown
  obtain ⟨report', run', ⟨final, found, evaluates⟩, entries⟩ := perform_root closed rootKnown visited
  obtain rfl : report = report' := by
    rw [run] at run'
    exact (Prod.mk.inj (Except.ok.inj (Option.some.inj run'))).2
  obtain ⟨report', again, reaches⟩ := perform_reaches closed read ignored rootKnown
  obtain rfl : report = report' := by
    rw [run] at again
    exact (Prod.mk.inj (Except.ok.inj (Option.some.inj again))).2
  have reached := (reaches.resolve_left fun skipped => by simp [skipped.1] at visited).2
  have reported : a ∈ report := (reached a).mpr cycle
  obtain ⟨entry, entryFound⟩ := StringMap.mem_iff.mp reported
  obtain ⟨dev, devKnown, isEntry⟩ := entries a entry entryFound
  obtain ⟨dev', name, tp, devKnown', tested, valid, nameRead, expects, notFail⟩ := edge
  rw [devKnown, Option.some.injEq] at devKnown'
  subst devKnown'
  obtain ⟨layerName, res, member, result⟩ := isEntry.result tested
  rw [IsResult, if_pos valid] at result
  obtain ⟨other, evaluated, nameRead', placeholder, rfl⟩ := result
  rw [nameRead, Except.ok.injEq] at nameRead'
  subst nameRead'
  obtain ⟨target, targetFound, agrees⟩ := holds a entry entryFound layerName _ member rfl expects notFail
  rw [show (nestedTpRes tp root.name evaluated).targetName = root.name from rfl, found, Option.some.injEq] at targetFound
  rw [nestedTpRes_result expects notFail, placeholder rfl, ← targetFound, evaluates] at agrees
  exact failing (agrees.mp rfl)

end

/-- From every root the report of a self-test is consistent, exactly if every device that a checked
test point on a cycle names passes by itself. A device that is skipped is on no cycle. -/
theorem perform_consistent_iff (dat : DAT) (closed : dat.Closed) (read : Oracle) (ignored : List String) :
    (∀ root, dat.devices[root.name]? = some root → ∃ report : ReportResult,
      perform dat read ignored dat.devices.size root ∅ = some (.ok (.succ, report)) ∧ Consistent report) ↔
      CyclesPass dat read ignored := by
  constructor
  · exact pass_of_consistent closed
  · intro pass root known
    obtain ⟨report, run, ⟨_, rfl⟩ | ⟨grew, _⟩⟩ := perform_reaches closed read ignored known
    · exact ⟨∅, run, fun d entry found => by simp at found⟩
    · exact ⟨report, run, consistent_of_pass pass grew⟩

/-! ### The two devices again -/

theorem passesItself_iff (read : Oracle) (ignored : List String) (dev : Device) :
    (∀ layer ∈ (testedLayers dev).toList, layer.1 ∉ ignored → ∀ point ∈ layer.2.testPoints.toList,
      point.2.accessor.isValidDeviceAccessor = false → passes read dev.name point.2 = true) ↔
      PassesItself read ignored dev := by
  simp only [Prod.forall, Std.TreeMap.mem_toList_iff_getElem?_eq_some]
  constructor
  · intro all name tp tested
    obtain ⟨layerName, layer, here, used, point⟩ := tested
    exact all layerName layer here used name tp point
  · intro passing layerName layer here used name tp point
    exact passing name tp ⟨layerName, layer, here, used, point⟩

instance (read : Oracle) (ignored : List String) (dev : Device) : Decidable (PassesItself read ignored dev) :=
  decidable_of_iff _ (passesItself_iff read ignored dev)

/-- With a circle of devices that pass, every report is consistent. -/
theorem perform_consistent_iff_circle : ∃ dat : DAT,
    DAT.populateMap .empty (circle (fixedPoint "PGOOD" "1" "1")) = .ok dat ∧
    ∀ root, dat.devices[root.name]? = some root → ∃ report : ReportResult,
      perform dat readTest [] dat.devices.size root ∅ = some (.ok (.succ, report)) ∧ Consistent report := by
  have run : (DAT.populateMap .empty (circle (fixedPoint "PGOOD" "1" "1"))).map (fun dat =>
      (decide dat.Closed, dat.devices.toList.all fun d => decide (PassesItself readTest [] d.2))) =
        .ok (true, true) := by decide
  obtain ⟨dat, loaded, facts⟩ := map_ok run
  simp only [Prod.mk.injEq, decide_eq_true_eq, List.all_eq_true] at facts
  obtain ⟨closed, pass⟩ := facts
  refine ⟨dat, loaded, (perform_consistent_iff dat closed readTest []).mpr ?_⟩
  intro _ b _ _ dev known
  exact pass (b, dev) (Std.TreeMap.mem_toList_iff_getElem?_eq_some.mpr known)

/-- Started from the failing device of the circle, the other one reports it as passing. -/
theorem perform_inconsistent_circle : ∃ (dat : DAT) (root : Device) (report : ReportResult),
    DAT.populateMap .empty (circle (fixedPoint "PGOOD" "0" "1")) = .ok dat ∧ dat.Closed ∧
    dat.devices["GPU_SXM_1"]? = some root ∧
    perform dat readTest [] dat.devices.size root ∅ = some (.ok (.succ, report)) ∧ ¬ Consistent report := by
  have run : (DAT.populateMap .empty (circle (fixedPoint "PGOOD" "0" "1"))).map (fun dat =>
      (decide dat.Closed, (dat.devices["GPU_SXM_1"]?).map fun root =>
        match perform dat readTest [] dat.devices.size root ∅ with
        | some (.ok (.succ, report)) =>
          ((report["NVSwitch_0"]?).map fun entry => entry.layer.getD "power_rail" [],
            (report["GPU_SXM_1"]?).map evaluateDevice)
        | some (.ok (.error, _)) => (none, none)
        | some (.error _) => (none, none)
        | none => (none, none))) =
      .ok (true, some (some [⟨true, .critical, "GPU_SXM_1", "PASS", "PASS", true⟩], some false)) := by decide
  obtain ⟨dat, loaded, facts⟩ := map_ok run
  simp only [Prod.mk.injEq, decide_eq_true_eq, Option.map_eq_some_iff] at facts
  obtain ⟨closed, root, known, facts⟩ := facts
  split at facts
  · rename_i report result
    simp only [Prod.mk.injEq, Option.map_eq_some_iff] at facts
    obtain ⟨⟨entry, found, results⟩, ⟨target, targetFound, failing⟩⟩ := facts
    refine ⟨dat, root, report, loaded, closed, known, result, fun consistent => ?_⟩
    obtain ⟨target', targetFound', agrees⟩ := consistent "NVSwitch_0" entry found "power_rail"
      ⟨true, .critical, "GPU_SXM_1", "PASS", "PASS", true⟩ (by rw [results]; exact List.mem_singleton_self _) rfl
      (by decide) (by decide)
    rw [targetFound, Option.some.injEq] at targetFound'
    rw [← targetFound', failing] at agrees
    exact absurd (agrees.mp rfl) (by decide)
  · simp at facts
  · simp at facts
  · simp at facts

end MonitorEventing.Selftest
