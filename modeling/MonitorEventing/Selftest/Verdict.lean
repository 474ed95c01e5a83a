import MonitorEventing.Selftest.Reach

/-!
# The verdict on a device

`evaluateDevice` and `getDeviceTestResult` fold the same results, one to a boolean, the other to a severity.
A failure of severity OK is one for the first alone.
-/

namespace MonitorEventing.Dat.Severity

/-- What the loop keeps is the highest so far. -/
theorem foldl_highest (severities : List Severity) (start : Severity) :
    let maxSev := severities.foldl (fun maxSev sev => if sev.value > maxSev.value then sev else maxSev) start
    (maxSev = start ∨ maxSev ∈ severities) ∧ start.value ≤ maxSev.value ∧ ∀ sev ∈ severities, sev.value ≤ maxSev.value := by
  induction severities generalizing start with
  | nil => simp
  | cons sev severities ih =>
    rw [List.foldl_cons]
    obtain ⟨found, least, highest⟩ := ih (if sev.value > start.value then sev else start)
    split at found
    · rename_i higher
      rw [if_pos higher] at least highest ⊢
      refine ⟨Or.inr ?_, by omega, List.forall_mem_cons.mpr ⟨least, highest⟩⟩
      rcases found with same | later
      · rw [same]
        exact List.mem_cons_self
      · exact List.mem_cons_of_mem _ later
    · rename_i lower
      rw [if_neg lower] at least highest ⊢
      exact ⟨found.imp_right (List.mem_cons_of_mem _), least, List.forall_mem_cons.mpr ⟨by omega, highest⟩⟩

def IsHighest (severities : List Severity) (severity : Severity) : Prop :=
  severity ∈ severities ∧ ∀ sev ∈ severities, sev.value ≤ severity.value

theorem value_eq_zero_iff {severity : Severity} : severity.value = 0 ↔ severity = ok := by
  cases severity <;> simp [value]

theorem string_injective : Function.Injective string := by
  intro a b same
  have read : ofString a.string = .ok a := ofString_ok_iff.mpr rfl
  exact Except.ok.inj (read.symm.trans (ofString_ok_iff.mpr same))

theorem findMaxSeverity_eq_ok_iff (severities : List Severity) :
    findMaxSeverity severities = ok.string ↔ ∀ sev ∈ severities, sev = ok := by
  obtain ⟨found, -, highest⟩ := foldl_highest severities ok
  rw [findMaxSeverity, string_injective.eq_iff]
  constructor
  · intro none sev member
    have bound := highest sev member
    rw [none] at bound
    exact value_eq_zero_iff.mp (Nat.le_zero.mp bound)
  · intro all
    rcases found with same | member
    · exact same
    · exact all _ member

theorem findMaxSeverity_highest {severities : List Severity} (some : severities ≠ []) :
    ∃ severity, findMaxSeverity severities = severity.string ∧ IsHighest severities severity := by
  obtain ⟨found, -, highest⟩ := foldl_highest severities ok
  refine ⟨_, rfl, ?_, highest⟩
  rcases found with same | member
  · -- nothing is above OK, so that the first is OK itself
    rw [same] at highest ⊢
    obtain ⟨first, rest, rfl⟩ := List.exists_cons_of_ne_nil some
    have first_ok := value_eq_zero_iff.mp (Nat.le_zero.mp (highest first List.mem_cons_self))
    rw [first_ok]
    exact List.mem_cons_self
  · exact member

end MonitorEventing.Dat.Severity

namespace MonitorEventing.Selftest
open Accessor Dat

/-- The test points that failed, those of type DEVICE apart. -/
def failing (deviceResult : DeviceResult) : List TestPointResult :=
  (deviceResult.layer.toList.flatMap (·.2)).filter isTpFailed

theorem evaluateDevice_eq_failing (deviceResult : DeviceResult) :
    evaluateDevice deviceResult = true ↔ failing deviceResult = [] := by
  rw [evaluateDevice, failing, List.filter_eq_nil_iff]
  simp only [List.all_eq_true, Bool.not_eq_true', List.any_eq_false, List.mem_flatMap]
  constructor
  · intro each tp member
    obtain ⟨layer, listed, inside⟩ := member
    exact each layer listed tp inside
  · intro all layer listed tp inside
    exact all tp ⟨layer, listed, inside⟩

theorem getDeviceTestResult_eq_failing (deviceResult : DeviceResult) :
    getDeviceTestResult deviceResult = Severity.findMaxSeverity ((failing deviceResult).map (·.severity)) := by
  rw [getDeviceTestResult, worstSeverity, Severity.findMaxSeverity, failing, List.foldl_map, List.foldl_filter]
  congr 2
  funext worst tp
  unfold isTpFailed
  cases tp.result <;> cases tp.isTypeDevice <;> rfl

/-- The two verdicts tell the same. -/
def Agrees (deviceResult : DeviceResult) : Prop :=
  (evaluateDevice deviceResult = true ↔ getDeviceTestResult deviceResult = Severity.ok.string) ∧
    (evaluateDevice deviceResult = false → ∃ severity, getDeviceTestResult deviceResult = severity.string ∧
      Severity.IsHighest ((failing deviceResult).map (·.severity)) severity)

/-- They do unless there are failures that are all of severity OK. -/
theorem agrees_iff (deviceResult : DeviceResult) : Agrees deviceResult ↔
    (failing deviceResult ≠ [] → ∃ tp ∈ failing deviceResult, tp.severity ≠ .ok) := by
  have highest : evaluateDevice deviceResult = false → ∃ severity, getDeviceTestResult deviceResult = severity.string ∧
      Severity.IsHighest ((failing deviceResult).map (·.severity)) severity := by
    intro fails
    rw [getDeviceTestResult_eq_failing]
    apply Severity.findMaxSeverity_highest
    rw [Ne, List.map_eq_nil_iff, ← evaluateDevice_eq_failing, fails]
    decide
  rw [Agrees, and_iff_left highest, evaluateDevice_eq_failing, getDeviceTestResult_eq_failing,
    Severity.findMaxSeverity_eq_ok_iff, List.forall_mem_map]
  constructor
  · intro agree some
    by_contra all
    push Not at all
    exact some (agree.mpr all)
  · intro worse
    constructor
    · intro none tp member
      rw [none] at member
      cases member
    · intro all
      by_contra some
      obtain ⟨tp, member, bad⟩ := worse some
      exact bad (all tp member)

theorem mem_failing {deviceResult : DeviceResult} {tp : TestPointResult} (member : tp ∈ failing deviceResult) :
    ∃ layerName : String, tp ∈ deviceResult.layer.getD layerName [] ∧ isTpFailed tp = true := by
  obtain ⟨listed, failed⟩ := List.mem_filter.mp member
  obtain ⟨layer, present, inside⟩ := List.mem_flatMap.mp listed
  refine ⟨layer.1, ?_, failed⟩
  rw [Std.TreeMap.getD_eq_getD_getElem?, Std.TreeMap.mem_toList_iff_getElem?_eq_some.mp present]
  exact inside

theorem IsEntry.agrees {read : Oracle} {ignored : List String} {found : String → Bool → Prop} {dev : Device}
    {entry : DeviceResult} (h : IsEntry read ignored found dev entry)
    (graded : ∀ name tp, IsTested ignored dev name tp → tp.accessor.isValidDeviceAccessor = false → tp.severity ≠ .ok) :
    Agrees entry := by
  rw [agrees_iff]
  intro some
  obtain ⟨res, rest, listed⟩ := List.exists_cons_of_ne_nil some
  have member : res ∈ failing entry := by
    rw [listed]
    exact List.mem_cons_self
  obtain ⟨layerName, inside, failed⟩ := mem_failing member
  obtain ⟨name, tp, tested, result⟩ := h.point inside
  refine ⟨res, member, ?_⟩
  unfold IsResult at result
  split at result
  · -- the result of a DEVICE test point never counts as failed
    obtain ⟨other, evaluated, -, -, rfl⟩ := result
    cases failed
  · rename_i plain
    rw [result]
    exact graded name tp tested (eq_false_of_ne_true plain)

/-- Where the table gives no test point of a device severity OK, the verdicts on the device agree in every report. -/
theorem perform_agrees (dat : DAT) (closed : dat.Closed) (read : Oracle) (ignored : List String) (root : Device)
    (known : dat.devices[root.name]? = some root) {report : ReportResult} {fuel : Nat} (enough : dat.devices.size ≤ fuel)
    (run : perform dat read ignored fuel root ∅ = some (.ok (.succ, report))) (d : String) (dev : Device)
    (here : dat.devices[d]? = some dev) (graded : ∀ name tp, IsTested ignored dev name tp →
      tp.accessor.isValidDeviceAccessor = false → tp.severity ≠ .ok)
    (entry : DeviceResult) (found : report[d]? = some entry) : Agrees entry := by
  obtain ⟨report', run', cases⟩ := perform_reaches closed read ignored known
  rw [perform_mono enough run', Option.some.injEq, Except.ok.injEq, Prod.mk.injEq] at run
  obtain ⟨-, rfl⟩ := run
  rcases cases with ⟨-, rfl⟩ | ⟨grew, -⟩
  · simp at found
  · obtain ⟨dev', here', isEntry⟩ := grew.entries d (by simp) entry found
    obtain rfl := Option.some.inj (here.symm.trans here')
    exact isEntry.agrees graded

/-- A test point that reads 0 instead of 1, of severity OK. -/
def harmlessPoint : Json :=
  .object [("accessor", .object [("test_value", .string "0"), ("type", .string "TEST")]), ("expected_value", .string "1"),
    ("name", .string "PGOOD"), ("severity", .string "OK")]

theorem disagrees_harmless : ∃ (dat : DAT) (root : Device) (report : ReportResult) (deviceResult : DeviceResult),
    DAT.populateMap .empty (circle harmlessPoint) = .ok dat ∧ dat.devices["GPU_SXM_1"]? = some root ∧
    perform dat readTest [] 2 root ∅ = some (.ok (.succ, report)) ∧ report["GPU_SXM_1"]? = some deviceResult ∧
    evaluateDevice deviceResult = false ∧ getDeviceTestResult deviceResult = "OK" ∧ ¬ Agrees deviceResult := by
  have run : (DAT.populateMap .empty (circle harmlessPoint)).map (fun dat =>
      (dat.devices["GPU_SXM_1"]?).map fun root =>
        match perform dat readTest [] 2 root ∅ with
        | some (.ok (.succ, report)) =>
          (report["GPU_SXM_1"]?).map fun deviceResult => (evaluateDevice deviceResult, getDeviceTestResult deviceResult)
        | some (.ok (.error, _)) => none
        | some (.error _) => none
        | none => none) = .ok (some (some (false, "OK"))) := by decide
  obtain ⟨dat, loaded, facts⟩ := map_ok run
  obtain ⟨root, known, facts⟩ := Option.map_eq_some_iff.mp facts
  split at facts
  · rename_i report result
    obtain ⟨deviceResult, found, verdicts⟩ := Option.map_eq_some_iff.mp facts
    obtain ⟨evaluated, severity⟩ := Prod.mk.inj verdicts
    refine ⟨dat, root, report, deviceResult, loaded, known, result, found, evaluated, severity, fun agrees => ?_⟩
    rw [agrees.1.mpr severity] at evaluated
    cases evaluated
  · cases facts
  · cases facts
  · cases facts

end MonitorEventing.Selftest
