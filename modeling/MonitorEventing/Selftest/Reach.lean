import MonitorEventing.Dat.Parents
import MonitorEventing.Selftest.Perform
import MonitorEventing.Lib.Graph

/-!
# What a self-test visits

The report of a self-test as an exploration of the graph of DEVICE test points. Between two reports
of one test, the devices that were there keep their entries, and every new device has a finished
entry; `Evaluated` says what such an entry may have seen of the devices it names.
-/

namespace MonitorEventing.Selftest
open Accessor Dat Relation

/-- A test point of a layer that is not ignored. -/
def IsPoint (ignored : List String) (test : StringMap TestLayer) (name : String) (tp : TestPoint) : Prop :=
  ∃ layerName layer, test[layerName]? = some layer ∧ layerName ∉ ignored ∧ layer.testPoints[name]? = some tp

def IsListed (ignored : List String) (dev : Device) (name : String) (tp : TestPoint) : Prop :=
  IsPoint ignored dev.test name tp

def IsTested (ignored : List String) (dev : Device) (name : String) (tp : TestPoint) : Prop :=
  IsPoint ignored (testedLayers dev) name tp

/-- A DEVICE test point of the first device, not in an ignored layer, names the second. -/
def Refers (dat : DAT) (ignored : List String) (a b : String) : Prop :=
  ∃ dev name tp, dat.devices[a]? = some dev ∧ IsListed ignored dev name tp ∧
    tp.accessor.isValidDeviceAccessor = true ∧ tp.deviceName = .ok b

/-- The same where the first device is not skipped. -/
def Edge (dat : DAT) (ignored : List String) (a b : String) : Prop :=
  ∃ dev name tp, dat.devices[a]? = some dev ∧ IsTested ignored dev name tp ∧
    tp.accessor.isValidDeviceAccessor = true ∧ tp.deviceName = .ok b

/-- All test points the device has for itself pass. -/
def PassesOwn (read : Oracle) (ignored : List String) (dev : Device) : Prop :=
  ∀ name tp, IsListed ignored dev name tp → tp.accessor.isValidDeviceAccessor = false → passes read dev.name tp = true

/-- All test points the device is read for itself pass. -/
def PassesItself (read : Oracle) (ignored : List String) (dev : Device) : Prop :=
  ∀ name tp, IsTested ignored dev name tp → tp.accessor.isValidDeviceAccessor = false → passes read dev.name tp = true

theorem IsTested.listed {ignored : List String} {dev : Device} {name : String} {tp : TestPoint}
    (h : IsTested ignored dev name tp) : IsListed ignored dev name tp := by
  obtain ⟨layerName, layer, here, used, point⟩ := h
  exact ⟨layerName, layer, testedLayers_subset here, used, point⟩

theorem IsListed.tested {ignored : List String} {dev : Device} {name : String} {tp : TestPoint}
    (h : IsListed ignored dev name tp) (seen : ¬ Overlooked dev) : IsTested ignored dev name tp := by
  obtain ⟨layerName, layer, here, used, point⟩ := h
  exact ⟨layerName, layer, testedLayers_of_not_overlooked seen here point, used, point⟩

theorem Edge.refers {dat : DAT} {ignored : List String} {a b : String} (h : Edge dat ignored a b) :
    Refers dat ignored a b := by
  obtain ⟨dev, name, tp, known, tested, isDevice, named⟩ := h
  exact ⟨dev, name, tp, known, tested.listed, isDevice, named⟩

theorem not_isTested_of_skip {ignored : List String} {dev : Device} (skip : shouldSkip dev = true) (name : String)
    (tp : TestPoint) : ¬ IsTested ignored dev name tp := by
  intro tested
  obtain ⟨layerName, layer, here, _⟩ := tested
  rw [testedLayers_skipped skip] at here
  simp at here

theorem passesItself_iff_passesOwn {read : Oracle} {ignored : List String} {dev : Device} (seen : ¬ Overlooked dev) :
    PassesItself read ignored dev ↔ PassesOwn read ignored dev :=
  ⟨fun passing name tp listed => passing name tp (listed.tested seen),
    fun passing name tp tested => passing name tp tested.listed⟩

section
variable (dat : DAT) (read : Oracle) (ignored : List String)

/-! ### Entries -/

/-- What device `a` may have found of device `b`, tested between two reports: the entry that was there
before, the entry that is there after, or the placeholder of a device that led to `a`. -/
def Evaluated (before after : ReportResult) (a b : String) (evaluated : Bool) : Prop :=
  (∃ entry, before[b]? = some entry ∧ evaluated = evaluateDevice entry) ∨
    (b ∉ before ∧ ∃ entry, after[b]? = some entry ∧
      (evaluated = evaluateDevice entry ∨ (evaluated = true ∧ ReflTransGen (Edge dat ignored) b a)))

/-- The result of a test point, given what may be found of the devices. -/
def IsResult (found : String → Bool → Prop) (dev : Device) (point : String × TestPoint) (res : TestPointResult) : Prop :=
  if point.2.accessor.isValidDeviceAccessor then
    ∃ other evaluated, point.2.deviceName = .ok other ∧ found other evaluated ∧ res = nestedTpRes point.2 other evaluated
  else res = ownTpRes read dev.name point.1 point.2

/-- A finished entry: a result for every test point of the layers that are not ignored, nothing else. -/
structure IsEntry (found : String → Bool → Prop) (dev : Device) (entry : DeviceResult) : Prop where
  results : ∀ layerName layer, (testedLayers dev)[layerName]? = some layer → layerName ∉ ignored →
    List.Forall₂ (IsResult read found dev) layer.testPoints.toList (entry.layer.getD layerName []).reverse
  others : ∀ layerName, layerName ∈ ignored ∨ layerName ∉ testedLayers dev → entry.layer.getD layerName [] = []

variable {dat read ignored}

theorem IsResult.mono {found found' : String → Bool → Prop} {dev : Device} {point : String × TestPoint}
    {res : TestPointResult} (h : IsResult read found dev point res) (more : ∀ b v, found b v → found' b v) :
    IsResult read found' dev point res := by
  unfold IsResult at h ⊢
  split at h
  · rename_i isDevice
    rw [if_pos isDevice]
    obtain ⟨other, evaluated, named, known, same⟩ := h
    exact ⟨other, evaluated, named, more other evaluated known, same⟩
  · rename_i plain
    rw [if_neg plain]
    exact h

theorem IsEntry.mono {found found' : String → Bool → Prop} {dev : Device} {entry : DeviceResult}
    (h : IsEntry read ignored found dev entry) (more : ∀ b v, found b v → found' b v) :
    IsEntry read ignored found' dev entry := by
  refine ⟨fun layerName layer here used => ?_, h.others⟩
  exact (h.results layerName layer here used).imp fun point res result => IsResult.mono result more

theorem IsEntry.point {found : String → Bool → Prop} {dev : Device} {entry : DeviceResult}
    (h : IsEntry read ignored found dev entry) {layerName : String} {res : TestPointResult}
    (member : res ∈ entry.layer.getD layerName []) :
    ∃ name tp, IsTested ignored dev name tp ∧ IsResult read found dev (name, tp) res := by
  by_cases used : layerName ∈ ignored ∨ layerName ∉ testedLayers dev
  · rw [h.others layerName used] at member
    cases member
  · push Not at used
    obtain ⟨layer, here⟩ := StringMap.mem_iff.mp used.2
    obtain ⟨⟨name, tp⟩, inside, result⟩ :=
      forall₂_mem_right (h.results layerName layer here used.1) (List.mem_reverse.mpr member)
    have point := Std.TreeMap.mem_toList_iff_getElem?_eq_some.mp inside
    exact ⟨name, tp, ⟨layerName, layer, here, used.1, point⟩, result⟩

theorem IsEntry.result {found : String → Bool → Prop} {dev : Device} {entry : DeviceResult}
    (h : IsEntry read ignored found dev entry) {name : String} {tp : TestPoint} (tested : IsTested ignored dev name tp) :
    ∃ layerName, ∃ res ∈ entry.layer.getD layerName [], IsResult read found dev (name, tp) res := by
  obtain ⟨layerName, layer, here, used, point⟩ := tested
  have inside := Std.TreeMap.mem_toList_iff_getElem?_eq_some.mpr point
  obtain ⟨res, member, result⟩ := forall₂_mem_left (h.results layerName layer here used) inside
  exact ⟨layerName, res, List.mem_reverse.mp member, result⟩

/-- A device evaluates by its own test points, whatever it found of the devices it names. -/
theorem IsEntry.evaluateDevice_iff {found : String → Bool → Prop} {dev : Device} {entry : DeviceResult}
    (h : IsEntry read ignored found dev entry) : evaluateDevice entry = true ↔ PassesItself read ignored dev := by
  rw [Selftest.evaluateDevice_iff]
  constructor
  · intro clean name tp tested plain
    obtain ⟨layerName, res, member, result⟩ := h.result tested
    have passed := clean layerName res member
    rw [IsResult, if_neg (by rw [plain]; decide)] at result
    simp only at result
    rw [result, isTpFailed_ownTpRes, Bool.not_eq_false'] at passed
    exact passed
  · intro passing layerName res member
    obtain ⟨name, tp, tested, result⟩ := h.point member
    unfold IsResult at result
    split at result
    · obtain ⟨other, evaluated, _, _, rfl⟩ := result
      rfl
    · rename_i plain
      have passed := passing name tp tested (by simpa using plain)
      simp only at result
      rw [result, isTpFailed_ownTpRes, passed]
      rfl

theorem isEntry_empty {found : String → Bool → Prop} {dev : Device} (skip : shouldSkip dev = true) :
    IsEntry read ignored found dev {} := by
  refine ⟨fun layerName layer here _ => ?_, fun _ _ => rfl⟩
  rw [testedLayers_skipped skip] at here
  simp at here

/-! ### Between two reports -/

variable (dat read ignored) in
/-- A test that started at the given devices took the report from the one to the other. -/
structure Grew (starts : Set String) (before after : ReportResult) : Prop where
  kept : ∀ (d : String) (entry : DeviceResult), before[d]? = some entry → after[d]? = some entry
  explored : Graph.Explored (Edge dat ignored) starts {d | d ∈ before} {d | d ∈ after}
  entries : ∀ (d : String), d ∉ before → ∀ entry, after[d]? = some entry → ∃ dev, dat.devices[d]? = some dev ∧
    IsEntry read ignored (Evaluated dat ignored before after d) dev entry

theorem evaluated_later {before after later : ReportResult} {a b : String} {v : Bool}
    (kept : ∀ (d : String) (entry : DeviceResult), after[d]? = some entry → later[d]? = some entry)
    (h : Evaluated dat ignored before after a b v) : Evaluated dat ignored before later a b v := by
  apply h.imp_right
  intro right
  obtain ⟨fresh, entry, found, value⟩ := right
  exact ⟨fresh, entry, kept b entry found, value⟩

theorem evaluated_earlier {before middle after : ReportResult} {a b : String} {v : Bool}
    (first : ∀ (d : String) (entry : DeviceResult), before[d]? = some entry → middle[d]? = some entry)
    (second : ∀ (d : String) (entry : DeviceResult), middle[d]? = some entry → after[d]? = some entry)
    (h : Evaluated dat ignored middle after a b v) : Evaluated dat ignored before after a b v := by
  rcases h with ⟨entry, found, value⟩ | ⟨fresh, later⟩
  · by_cases old : b ∈ before
    · obtain ⟨entry', found'⟩ := StringMap.mem_iff.mp old
      have same := first b entry' found'
      rw [found, Option.some.injEq] at same
      exact Or.inl ⟨entry', found', same ▸ value⟩
    · exact Or.inr ⟨old, entry, second b entry found, Or.inl value⟩
  · refine Or.inr ⟨fun old => fresh ?_, later⟩
    obtain ⟨entry, found⟩ := StringMap.mem_iff.mp old
    exact StringMap.mem_iff.mpr ⟨entry, first b entry found⟩

theorem Grew.refl (starts : Set String) (report : ReportResult) : Grew dat read ignored starts report report :=
  ⟨fun _ _ found => found, Graph.Explored.refl _ _,
    fun _ fresh entry found => absurd (StringMap.mem_iff.mpr ⟨entry, found⟩) fresh⟩

theorem Grew.trans {starts : Set String} {before middle after : ReportResult}
    (first : Grew dat read ignored starts before middle) (second : Grew dat read ignored starts middle after) :
    Grew dat read ignored starts before after := by
  refine ⟨fun d entry found => second.kept d entry (first.kept d entry found),
    first.explored.trans second.explored, ?_⟩
  intro d fresh entry found
  by_cases early : d ∈ middle
  · obtain ⟨entry', found'⟩ := StringMap.mem_iff.mp early
    have same := second.kept d entry' found'
    rw [found, Option.some.injEq] at same
    obtain ⟨dev, known, isEntry⟩ := first.entries d fresh entry' found'
    exact ⟨dev, known, same ▸ isEntry.mono fun b v => evaluated_later second.kept⟩
  · obtain ⟨dev, known, isEntry⟩ := second.entries d early entry found
    exact ⟨dev, known, isEntry.mono fun b v => evaluated_earlier first.kept second.kept⟩

theorem Grew.mono {starts more : Set String} {before after : ReportResult}
    (h : Grew dat read ignored starts before after) (sub : starts ⊆ more) : Grew dat read ignored more before after :=
  ⟨h.kept, h.explored.mono sub, h.entries⟩

theorem Grew.mem {starts : Set String} {before after : ReportResult} (h : Grew dat read ignored starts before after)
    {d : String} (member : d ∈ before) : d ∈ after :=
  h.explored.grows member

/-! ### How many devices are left -/

def unvisited (dat : DAT) (report : ReportResult) : Nat := (dat.devices.keys.toFinset.filter (· ∉ report)).card

theorem unvisited_mono {before after : ReportResult} (grows : ∀ d ∈ before, d ∈ after) :
    unvisited dat after ≤ unvisited dat before := by
  apply Finset.card_le_card
  intro d member
  rw [Finset.mem_filter] at member ⊢
  exact ⟨member.1, fun old => member.2 (grows d old)⟩

theorem unvisited_visit {report : ReportResult} {d : String} (known : d ∈ dat.devices) (fresh : d ∉ report)
    (entry : DeviceResult) : unvisited dat (report.insert d entry) < unvisited dat report := by
  apply Finset.card_lt_card
  rw [Finset.ssubset_iff_of_subset]
  · refine ⟨d, ?_, ?_⟩
    · rw [Finset.mem_filter, List.mem_toFinset, Std.TreeMap.mem_keys]
      exact ⟨known, fresh⟩
    · rw [Finset.mem_filter]
      exact fun both => both.2 ((StringMap.mem_insert report d d entry).mpr (Or.inl rfl))
  · intro e member
    rw [Finset.mem_filter] at member ⊢
    exact ⟨member.1, fun old => member.2 ((StringMap.mem_insert report d e entry).mpr (Or.inr old))⟩

theorem unvisited_le (dat : DAT) (report : ReportResult) : unvisited dat report ≤ dat.devices.size := by
  apply (Finset.card_filter_le _ _).trans
  apply (List.toFinset_card_le _).trans
  exact Std.TreeMap.length_keys.le

theorem size_pos {d : String} (known : d ∈ dat.devices) : 0 < dat.devices.size := by
  have visit := unvisited_visit known Std.TreeMap.not_mem_emptyc {}
  have left := unvisited_le dat ∅
  omega

/-! ### The loops -/

variable (dat read ignored) in
/-- What `perform` does with enough fuel, on a device that is not in the report. -/
def TestsDevices (n : Nat) (nested : Device → ReportResult → Run (RcCode × ReportResult)) : Prop :=
  ∀ (dev : Device) (report : ReportResult), dat.devices[dev.name]? = some dev → dev.name ∉ report →
    unvisited dat report ≤ n → ∃ after, nested dev report = some (.ok (.succ, after)) ∧
      ((shouldSkip dev = true ∧ after = report) ∨
        (dev.name ∈ after ∧ Grew dat read ignored {dev.name} report after))

theorem not_edge_of_skip {dev : Device} {a b : String} (known : dat.devices[a]? = some dev)
    (skip : shouldSkip dev = true) : ¬ Edge dat ignored a b := by
  intro edge
  obtain ⟨dev', name, tp, known', tested, _⟩ := edge
  rw [known, Option.some.injEq] at known'
  exact not_isTested_of_skip skip name tp (known' ▸ tested)

theorem insert_members (report : ReportResult) (device : String) (entry : DeviceResult) :
    {d | d ∈ report.insert device entry} = insert device {d | d ∈ report} := by
  ext d
  rw [Set.mem_ofPred_eq, StringMap.mem_insert, Set.mem_insert_iff, eq_comm]
  rfl

theorem grew_skipped {dev : Device} {report : ReportResult} (known : dat.devices[dev.name]? = some dev)
    (fresh : dev.name ∉ report) (skip : shouldSkip dev = true) :
    Grew dat read ignored {dev.name} report (report.insert dev.name {}) := by
  refine ⟨?_, ?_, ?_⟩
  · intro d entry found
    have other : dev.name ≠ d := fun same => fresh (same ▸ StringMap.mem_iff.mpr ⟨entry, found⟩)
    rw [StringMap.getElem?_insert, if_neg other]
    exact found
  · rw [insert_members]
    apply Graph.Explored.visit (Graph.Explored.refl _ _)
    intro b edge
    exact absurd edge (not_edge_of_skip known skip)
  · intro d new entry found
    rw [StringMap.getElem?_insert] at found
    split at found
    · rename_i same
      obtain rfl := Option.some.inj found
      exact ⟨dev, same ▸ known, isEntry_empty skip⟩
    · exact absurd (StringMap.mem_iff.mpr ⟨entry, found⟩) new

theorem evaluateNested_ok {n : Nat} {nested : Device → ReportResult → Run (RcCode × ReportResult)}
    (tests : TestsDevices dat read ignored n nested) {dev : Device} (known : dat.devices[dev.name]? = some dev)
    {report : ReportResult} (fuel : unvisited dat report ≤ n) :
    ∃ after entry, evaluateNested nested dev.name dev report = some (.ok (evaluateDevice entry, after)) ∧
      after[dev.name]? = some entry ∧ Grew dat read ignored {dev.name} report after := by
  have finish : ∀ after : ReportResult, dev.name ∈ after →
      ∃ entry, after[dev.name]? = some entry ∧ touch after dev.name = after ∧
        evaluateDevice (after.getD dev.name {}) = evaluateDevice entry := by
    intro after member
    obtain ⟨entry, found⟩ := StringMap.mem_iff.mp member
    refine ⟨entry, found, if_pos member, ?_⟩
    rw [Std.TreeMap.getD_eq_getD_getElem?, found, Option.getD_some]
  have evaluated : ∀ after : ReportResult, testNested nested dev.name dev report = some (.ok (.succ, after)) →
      evaluateNested nested dev.name dev report =
        some (.ok (evaluateDevice (after.getD dev.name {}), touch after dev.name)) := by
    intro after tested
    rw [evaluateNested, Run.bind_of_eq tested]
    rfl
  by_cases cached : dev.name ∈ report
  · obtain ⟨entry, found, same, value⟩ := finish report cached
    have tested : testNested nested dev.name dev report = some (.ok (.succ, report)) := if_pos (decide_eq_true cached)
    refine ⟨report, entry, ?_, found, Grew.refl _ _⟩
    rw [evaluated report tested, same, value]
  · have run : testNested nested dev.name dev report = nested dev report :=
      if_neg (by simpa [isDeviceCached] using cached)
    obtain ⟨after, result, ⟨skip, rfl⟩ | ⟨member, grew⟩⟩ := tests dev report known cached fuel
    · refine ⟨after.insert dev.name {}, {}, ?_, by simp, grew_skipped known cached skip⟩
      rw [evaluated after (run.trans result), touch, if_neg cached, Std.TreeMap.getD_eq_getD_getElem?,
        StringMap.not_mem_iff.mp cached]
      rfl
    · obtain ⟨entry, found, same, value⟩ := finish after member
      refine ⟨after, entry, ?_, found, grew⟩
      rw [evaluated after (run.trans result), same, value]

theorem testPointsFrom_ok {n : Nat} {nested : Device → ReportResult → Run (RcCode × ReportResult)}
    (tests : TestsDevices dat read ignored n nested) {dev : Device} {starts : Set String}
    {points : List (String × TestPoint)}
    (named : ∀ point ∈ points, point.2.accessor.isValidDeviceAccessor = true →
      ∃ other ∈ starts, point.2.deviceName = .ok other ∧ other ∈ dat.devices)
    {before : ReportResult} (fuel : unvisited dat before ≤ n) (layerReport : List TestPointResult) :
    ∃ after results, testPointsFrom nested dat read dev points before layerReport =
        some (.ok (.succ, after, results.reverse ++ layerReport)) ∧
      Grew dat read ignored starts before after ∧
      List.Forall₂ (IsResult read (Evaluated dat ignored before after dev.name) dev) points results := by
  induction points generalizing before layerReport with
  | nil => exact ⟨before, [], rfl, Grew.refl _ _, List.Forall₂.nil⟩
  | cons point rest ih =>
    obtain ⟨name, tp⟩ := point
    obtain ⟨here, named⟩ := List.forall_mem_cons.mp named
    unfold testPointsFrom
    by_cases isDevice : tp.accessor.isValidDeviceAccessor = true
    · rw [if_pos isDevice]
      obtain ⟨other, start, nameRead, member⟩ := here isDevice
      obtain ⟨devNested, known⟩ := StringMap.mem_iff.mp member
      obtain rfl := dat.named other devNested known
      obtain ⟨middle, entry, nestedRun, found, first⟩ := evaluateNested_ok tests known fuel
      have fuel' := (unvisited_mono fun d old => first.mem old).trans fuel
      obtain ⟨after, results, run, second, all⟩ := ih named fuel'
        (nestedTpRes tp devNested.name (evaluateDevice entry) :: layerReport)
      refine ⟨after, nestedTpRes tp devNested.name (evaluateDevice entry) :: results, ?_, (first.mono (by simpa using start)).trans second, List.Forall₂.cons ?_ ?_⟩
      · rw [Run.bind_ofExcept nameRead, known, List.reverse_cons, List.append_assoc]
        dsimp only
        rw [Run.bind_of_eq nestedRun]
        exact run
      · rw [IsResult, if_pos isDevice]
        refine ⟨devNested.name, evaluateDevice entry, nameRead, ?_, rfl⟩
        exact evaluated_earlier first.kept second.kept (Or.inl ⟨entry, found, rfl⟩)
      · exact all.imp fun point res result => IsResult.mono result fun b v => evaluated_earlier first.kept second.kept
    · rw [if_neg isDevice]
      obtain ⟨after, results, run, grew, all⟩ := ih named fuel (ownTpRes read dev.name name tp :: layerReport)
      refine ⟨after, ownTpRes read dev.name name tp :: results, ?_, grew, List.Forall₂.cons ?_ all⟩
      · rw [List.reverse_cons, List.append_assoc]
        exact run
      · rw [IsResult, if_neg isDevice]

theorem layersFrom_ok {n : Nat} {nested : Device → ReportResult → Run (RcCode × ReportResult)}
    (tests : TestsDevices dat read ignored n nested) {dev : Device} {starts : Set String}
    {layers : List (String × TestLayer)} (unique : (layers.map (·.1)).Nodup)
    (named : ∀ layer ∈ layers, layer.1 ∉ ignored → ∀ point ∈ layer.2.testPoints.toList,
      point.2.accessor.isValidDeviceAccessor = true →
        ∃ other ∈ starts, point.2.deviceName = .ok other ∧ other ∈ dat.devices)
    {before : ReportResult} (fuel : unvisited dat before ≤ n) (deviceReport : DeviceResult) :
    ∃ after result, layersFrom nested dat read ignored dev layers before deviceReport =
        some (.ok (.succ, after, result)) ∧
      Grew dat read ignored starts before after ∧
      (∀ layerName ∉ layers.map (·.1), result.layer.getD layerName [] = deviceReport.layer.getD layerName []) ∧
      ∀ layer ∈ layers, if layer.1 ∈ ignored then result.layer.getD layer.1 [] = []
        else List.Forall₂ (IsResult read (Evaluated dat ignored before after dev.name) dev)
          layer.2.testPoints.toList (result.layer.getD layer.1 []).reverse := by
  induction layers generalizing before deviceReport with
  | nil => exact ⟨before, deviceReport, rfl, Grew.refl _ _, fun _ _ => rfl, fun _ none => absurd none List.not_mem_nil⟩
  | cons layer rest ih =>
    obtain ⟨name, layer⟩ := layer
    obtain ⟨here, named⟩ := List.forall_mem_cons.mp named
    obtain ⟨fresh, unique⟩ := List.nodup_cons.mp unique
    have inserted : ∀ (results : List TestPointResult) (layerName : String),
        (deviceReport.layer.insert name results).getD layerName [] =
          if name = layerName then results else deviceReport.layer.getD layerName [] := by
      intro results layerName
      simp only [Std.TreeMap.getD_eq_getD_getElem?, StringMap.getElem?_insert]
      split <;> rfl
    unfold layersFrom
    by_cases skipped : name ∈ ignored
    · rw [if_pos (List.contains_iff_mem.mpr skipped)]
      obtain ⟨after, result, run, grew, others, all⟩ := ih unique named fuel ⟨deviceReport.layer.insert name []⟩
      refine ⟨after, result, run, grew, ?_, List.forall_mem_cons.mpr ⟨?_, all⟩⟩
      · intro layerName outside
        rw [List.map_cons, List.mem_cons, not_or] at outside
        obtain ⟨different, outside⟩ := outside
        rw [others layerName outside, inserted, if_neg (Ne.symm different)]
      · rw [if_pos skipped, others name fresh, inserted, if_pos rfl]
    · rw [if_neg (by simpa using skipped)]
      obtain ⟨middle, results, pointsRun, first, points⟩ := testPointsFrom_ok tests (here skipped) fuel []
      have fuel' := (unvisited_mono fun d old => first.mem old).trans fuel
      obtain ⟨after, result, run, second, others, all⟩ :=
        ih unique named fuel' ⟨deviceReport.layer.insert name (results.reverse ++ [])⟩
      refine ⟨after, result, ?_, first.trans second, ?_, List.forall_mem_cons.mpr ⟨?_, ?_⟩⟩
      · rw [Run.bind_of_eq pointsRun]
        exact run
      · intro layerName outside
        rw [List.map_cons, List.mem_cons, not_or] at outside
        obtain ⟨different, outside⟩ := outside
        rw [others layerName outside, inserted, if_neg (Ne.symm different)]
      · rw [if_neg skipped, others name fresh, inserted, if_pos rfl, List.append_nil, List.reverse_reverse]
        exact points.imp fun point res result => IsResult.mono result fun b v => evaluated_later second.kept
      · intro layer member
        have later := all layer member
        by_cases skippedLater : layer.1 ∈ ignored
        · rw [if_pos skippedLater] at later ⊢
          exact later
        · rw [if_neg skippedLater] at later ⊢
          exact later.imp fun point res result =>
            IsResult.mono result fun b v => evaluated_earlier first.kept second.kept

/-! ### The recursion -/

theorem evaluated_visit {device : String} {before inside : ReportResult} {finished : DeviceResult}
    (fresh : device ∉ before) {a b : String} {v : Bool} (path : ReflTransGen (Edge dat ignored) device a)
    (h : Evaluated dat ignored (before.insert device {}) inside a b v) :
    Evaluated dat ignored before (inside.insert device finished) a b v := by
  by_cases same : device = b
  · subst same
    rcases h with ⟨entry, found, value⟩ | ⟨new, _⟩
    · rw [StringMap.getElem?_insert, if_pos rfl, Option.some.injEq] at found
      subst found
      exact Or.inr ⟨fresh, finished, by simp, Or.inr ⟨value, path⟩⟩
    · exact absurd ((StringMap.mem_insert before device device {}).mpr (Or.inl rfl)) new
  · rcases h with ⟨entry, found, value⟩ | ⟨new, entry, found, value⟩
    · rw [StringMap.getElem?_insert, if_neg same] at found
      exact Or.inl ⟨entry, found, value⟩
    · refine Or.inr ⟨fun old => new ?_, entry, ?_, value⟩
      · exact (StringMap.mem_insert before device b {}).mpr (Or.inr old)
      · rw [StringMap.getElem?_insert, if_neg same]
        exact found

theorem Evaluated.mem {before after : ReportResult} {a b : String} {v : Bool}
    (kept : ∀ (d : String) (entry : DeviceResult), before[d]? = some entry → after[d]? = some entry)
    (h : Evaluated dat ignored before after a b v) : b ∈ after := by
  rcases h with ⟨entry, found, _⟩ | ⟨_, entry, found, _⟩
  · exact StringMap.mem_iff.mpr ⟨entry, kept b entry found⟩
  · exact StringMap.mem_iff.mpr ⟨entry, found⟩

theorem IsEntry.edge {found : String → Bool → Prop} {dev : Device} {entry : DeviceResult}
    (h : IsEntry read ignored found dev entry) {a b : String} (known : dat.devices[a]? = some dev)
    (edge : Edge dat ignored a b) : ∃ v, found b v := by
  obtain ⟨dev', name, tp, known', tested, isDevice, nameRead⟩ := edge
  rw [known, Option.some.injEq] at known'
  subst known'
  obtain ⟨_, _, _, result⟩ := h.result tested
  rw [IsResult, if_pos isDevice] at result
  obtain ⟨other, evaluated, nameRead', holds, _⟩ := result
  rw [nameRead, Except.ok.injEq] at nameRead'
  exact ⟨evaluated, nameRead' ▸ holds⟩

theorem layers_grow (closed : dat.Closed) {n : Nat} {nested : Device → ReportResult → Run (RcCode × ReportResult)}
    (tests : TestsDevices dat read ignored n nested) {dev : Device} (known : dat.devices[dev.name]? = some dev)
    (visited : shouldSkip dev = false) {before : ReportResult} (fuel : unvisited dat before ≤ n) :
    ∃ inside result, layersFrom nested dat read ignored dev dev.test.toList before {} =
        some (.ok (.succ, inside, result)) ∧
      Grew dat read ignored {b | Edge dat ignored dev.name b} before inside ∧
      IsEntry read ignored (Evaluated dat ignored before inside dev.name) dev result := by
  have same := testedLayers_visited visited
  have unique := StringMap.names_nodup dev.test
  have named : ∀ layer ∈ dev.test.toList, layer.1 ∉ ignored → ∀ point ∈ layer.2.testPoints.toList,
      point.2.accessor.isValidDeviceAccessor = true →
        ∃ other ∈ {b | Edge dat ignored dev.name b}, point.2.deviceName = .ok other ∧ other ∈ dat.devices := by
    intro layer member used point inside isDevice
    have here := Std.TreeMap.mem_toList_iff_getElem?_eq_some.mp member
    have there := Std.TreeMap.mem_toList_iff_getElem?_eq_some.mp inside
    obtain ⟨other, nameRead, other_known⟩ := closed dev.name dev known layer.1 layer.2 here point.1 point.2 there isDevice
    have tested : IsTested ignored dev point.1 point.2 := ⟨layer.1, layer.2, same ▸ here, used, there⟩
    exact ⟨other, ⟨dev, point.1, point.2, known, tested, isDevice, nameRead⟩, nameRead, other_known⟩
  obtain ⟨inside, result, run, grew, others, all⟩ := layersFrom_ok tests unique named fuel {}
  refine ⟨inside, result, run, grew, ?_, ?_⟩
  · intro layerName layer here used
    rw [same] at here
    have entry := all (layerName, layer) (Std.TreeMap.mem_toList_iff_getElem?_eq_some.mpr here)
    rwa [if_neg used] at entry
  · intro layerName unused
    rw [same] at unused
    by_cases present : layerName ∈ dev.test
    · obtain ⟨layer, here⟩ := StringMap.mem_iff.mp present
      have entry := all (layerName, layer) (Std.TreeMap.mem_toList_iff_getElem?_eq_some.mpr here)
      rwa [if_pos (unused.resolve_right (not_not.mpr present))] at entry
    · apply others layerName
      rw [Std.TreeMap.map_fst_toList_eq_keys, Std.TreeMap.mem_keys]
      exact present

theorem perform_visit (closed : dat.Closed) {n : Nat} (tests : TestsDevices dat read ignored n (perform dat read ignored n))
    {dev : Device} (known : dat.devices[dev.name]? = some dev) (visited : shouldSkip dev = false)
    {report : ReportResult} (fresh : dev.name ∉ report) (fuel : unvisited dat report ≤ n + 1) :
    ∃ inside result, perform dat read ignored (n + 1) dev report =
        some (.ok (.succ, inside.insert dev.name result)) ∧
      Grew dat read ignored {b | Edge dat ignored dev.name b} (report.insert dev.name {}) inside ∧
      IsEntry read ignored (Evaluated dat ignored (report.insert dev.name {}) inside dev.name) dev result := by
  have visit := unvisited_visit (StringMap.mem_iff.mpr ⟨dev, known⟩) fresh {}
  have left : unvisited dat (report.insert dev.name {}) ≤ n := by omega
  obtain ⟨inside, result, run, grew, entry⟩ := layers_grow closed tests known visited left
  refine ⟨inside, result, ?_, grew, entry⟩
  unfold perform
  rw [if_neg (by simp [isDeviceCached, fresh, visited]), Run.bind_of_eq run]
  rfl

/-- A fuel of the number of devices left is enough. -/
theorem perform_tests (closed : dat.Closed) (n : Nat) :
    TestsDevices dat read ignored n (perform dat read ignored n) := by
  induction n with
  | zero =>
    intro dev report known fresh fuel
    have visit := unvisited_visit (StringMap.mem_iff.mpr ⟨dev, known⟩) fresh {}
    omega
  | succ n ih =>
    intro dev report known fresh fuel
    by_cases skip : shouldSkip dev = true
    · exact ⟨report, perform_skip skip n report, Or.inl ⟨skip, rfl⟩⟩
    · obtain ⟨inside, result, run, grew, entry⟩ :=
        perform_visit closed ih known (Bool.eq_false_of_not_eq_true skip) fresh fuel
      have own : dev.name ∈ inside := grew.mem ((StringMap.mem_insert report dev.name dev.name {}).mpr (Or.inl rfl))
      refine ⟨inside.insert dev.name result, run, Or.inr ⟨by simp, ?_, ?_, ?_⟩⟩
      · intro d old found
        have other : dev.name ≠ d := fun same => fresh (same ▸ StringMap.mem_iff.mpr ⟨old, found⟩)
        rw [StringMap.getElem?_insert, if_neg other]
        apply grew.kept
        rw [StringMap.getElem?_insert, if_neg other]
        exact found
      · rw [insert_members, show insert dev.name {d | d ∈ inside} = {d | d ∈ inside} from Set.insert_eq_of_mem own]
        apply Graph.Explored.visit
        · rw [← insert_members]
          exact grew.explored
        intro b edge
        obtain ⟨_, holds⟩ := entry.edge known edge
        exact holds.mem grew.kept
      · intro d new found_entry found
        rw [StringMap.getElem?_insert] at found
        split at found
        · rename_i same
          obtain rfl := Option.some.inj found
          subst same
          exact ⟨dev, known, entry.mono fun b v => evaluated_visit fresh ReflTransGen.refl⟩
        · rename_i other
          have newInside : d ∉ report.insert dev.name {} := by
            rw [StringMap.mem_insert, not_or]
            exact ⟨other, new⟩
          obtain ⟨a, edge, path⟩ := grew.explored.reached d (StringMap.mem_iff.mpr ⟨_, found⟩) newInside
          obtain ⟨other_dev, other_known, other_entry⟩ := grew.entries d newInside found_entry found
          exact ⟨other_dev, other_known,
            other_entry.mono fun b v => evaluated_visit fresh (ReflTransGen.head edge path)⟩

theorem perform_reaches (closed : dat.Closed) (read : Oracle) (ignored : List String) {root : Device}
    (known : dat.devices[root.name]? = some root) :
    ∃ report : ReportResult, perform dat read ignored dat.devices.size root ∅ = some (.ok (.succ, report)) ∧
      ((shouldSkip root = true ∧ report = ∅) ∨ (Grew dat read ignored {root.name} ∅ report ∧
        ∀ d : String, d ∈ report ↔ ReflTransGen (Edge dat ignored) root.name d)) := by
  obtain ⟨report, run, cases⟩ := perform_tests closed dat.devices.size root ∅ known (by simp) (unvisited_le dat ∅)
  refine ⟨report, run, cases.imp_right ?_⟩
  intro visited
  obtain ⟨member, grew⟩ := visited
  have nothing : {d : String | d ∈ (∅ : ReportResult)} = ∅ := by
    ext d
    simp
  have explored := grew.explored
  rw [nothing] at explored
  exact ⟨grew, explored.mem_iff member⟩

/-! ### What is in the report -/

/-- Of a table as it was loaded, the devices that are overlooked. -/
theorem overlooked_iff {j : Json} {dat : DAT} (run : DAT.populateMap .empty j = .ok dat) {name : String} {dev : Device}
    (found : dat.devices[name]? = some dev) : ∃ value layers, (itemsOf j).lookup name = some value ∧
      (layersOf value).mapM (loadLayer value) = .ok layers ∧
      (Overlooked dev ↔ dev.type ≠ .regular ∧ 0 < pointsIn layers ∧ 2 ^ 32 ∣ pointsIn layers) := by
  obtain ⟨value, item, asLoaded⟩ := DAT.populateMap_asLoaded run found
  obtain ⟨layers, loaded, points, counts⟩ := asLoaded.points
  refine ⟨value, layers, item, loaded, ?_⟩
  have uncounted : dev.hasTestpoints = false ↔ 2 ^ 32 ∣ pointsIn layers := by
    rw [← Bool.not_eq_true, Nat.dvd_iff_mod_eq_zero]
    exact (not_congr counts).trans not_not
  have points : HasPoints dev.test ↔ 0 < pointsIn layers := points
  rw [Overlooked, shouldSkip_iff, uncounted, points]
  tauto

variable (dat read ignored) in
/-- The report has the devices that DEVICE test points lead to, and every device in it evaluates by its own test
points alone. -/
structure IsReport (root : Device) (report : ReportResult) : Prop where
  skipped : root.type ≠ .regular ∧ ¬ HasPoints root.test → report = ∅
  reached : ¬ (root.type ≠ .regular ∧ ¬ HasPoints root.test) →
    ∀ d : String, d ∈ report ↔ ReflTransGen (Refers dat ignored) root.name d
  evaluated : ∀ (d : String) (entry : DeviceResult), report[d]? = some entry → ∃ dev, dat.devices[d]? = some dev ∧
    (evaluateDevice entry = true ↔ PassesOwn read ignored dev)

variable (dat read ignored) in
/-- A test of the device misses nothing by the devices whose test points it overlooks. -/
structure MissesNothing (root : Device) : Prop where
  seen : ¬ Overlooked root
  reached : ∀ d, ReflTransGen (Refers dat ignored) root.name d → ReflTransGen (Edge dat ignored) root.name d
  passing : ∀ d dev, ReflTransGen (Edge dat ignored) root.name d → dat.devices[d]? = some dev → Overlooked dev →
    PassesOwn read ignored dev

theorem alone_of_empty {root : Device} (known : dat.devices[root.name]? = some root) (empty : ¬ HasPoints root.test)
    {d : String} (path : ReflTransGen (Refers dat ignored) root.name d) : d = root.name := by
  rcases path.cases_head with same | ⟨b, refers, _⟩
  · exact same.symm
  · obtain ⟨dev, name, tp, known', ⟨layerName, layer, here, _, point⟩, _⟩ := refers
    rw [known, Option.some.injEq] at known'
    exact absurd ⟨layerName, layer, name, tp, known' ▸ here, point⟩ empty

theorem isReport_empty_iff {root : Device} (known : dat.devices[root.name]? = some root) (skip : shouldSkip root = true) :
    IsReport dat read ignored root ∅ ↔ MissesNothing dat read ignored root := by
  have special : root.type ≠ .regular := ((shouldSkip_iff root).mp skip).1
  constructor
  · intro h
    have empty : ¬ HasPoints root.test := by
      intro points
      have member := (h.reached (fun none => none.2 points) root.name).mpr ReflTransGen.refl
      simp at member
    refine ⟨fun overlooked => empty overlooked.2, ?_, ?_⟩
    · intro d path
      rw [alone_of_empty known empty path]
    · intro d dev path here overlooked
      obtain rfl := alone_of_empty known empty (ReflTransGen.mono (fun _ _ => Edge.refers) _ _ path)
      rw [known, Option.some.injEq] at here
      exact absurd (here ▸ overlooked.2) empty
  · intro h
    refine ⟨fun _ => rfl, fun points => ?_, fun d entry found => by simp at found⟩
    exact absurd ⟨special, fun points => h.seen ⟨skip, points⟩⟩ points

theorem Grew.isReport_iff {root : Device} {report : ReportResult} (visited : shouldSkip root = false)
    (grew : Grew dat read ignored {root.name} ∅ report)
    (reached : ∀ d : String, d ∈ report ↔ ReflTransGen (Edge dat ignored) root.name d) :
    IsReport dat read ignored root report ↔ MissesNothing dat read ignored root := by
  have notEmpty : ¬ (root.type ≠ .regular ∧ ¬ HasPoints root.test) := by
    intro empty
    rw [shouldSkip_of_empty empty.1 empty.2] at visited
    cases visited
  have entries : ∀ (d : String) (entry : DeviceResult), report[d]? = some entry → ∃ dev, dat.devices[d]? = some dev ∧
      (evaluateDevice entry = true ↔ PassesItself read ignored dev) := by
    intro d entry found
    obtain ⟨dev, here, isEntry⟩ := grew.entries d (by simp) entry found
    exact ⟨dev, here, isEntry.evaluateDevice_iff⟩
  constructor
  · intro h
    refine ⟨fun overlooked => ?_, fun d path => ?_, ?_⟩
    · rw [overlooked.1] at visited
      cases visited
    · exact (reached d).mp ((h.reached notEmpty d).mpr path)
    · intro d dev path here overlooked
      obtain ⟨entry, found⟩ := StringMap.mem_iff.mp ((reached d).mpr path)
      obtain ⟨dev', here', own⟩ := h.evaluated d entry found
      obtain ⟨dev'', here'', tested⟩ := entries d entry found
      obtain rfl := Option.some.inj (here.symm.trans here')
      obtain rfl := Option.some.inj (here.symm.trans here'')
      -- nothing of an overlooked device is tested, so it evaluates well
      exact own.mp (tested.mpr fun name tp listed => absurd listed (not_isTested_of_skip overlooked.1 name tp))
  · intro h
    refine ⟨fun empty => absurd empty notEmpty, fun _ d => ?_, fun d entry found => ?_⟩
    · rw [reached]
      exact ⟨ReflTransGen.mono (fun _ _ => Edge.refers) _ _, h.reached d⟩
    · obtain ⟨dev, here, tested⟩ := entries d entry found
      refine ⟨dev, here, tested.trans ?_⟩
      by_cases overlooked : Overlooked dev
      · have own := h.passing d dev ((reached d).mp (StringMap.mem_iff.mpr ⟨entry, found⟩)) here overlooked
        exact iff_of_true (fun name tp listed => absurd listed (not_isTested_of_skip overlooked.1 name tp)) own
      · exact passesItself_iff_passesOwn overlooked

end

/-- A self-test of a device of a closed table terminates with success, whatever the cycles. Its report has
what it is to have exactly if the test misses nothing by the devices it overlooks. -/
theorem perform_report_iff (dat : DAT) (closed : dat.Closed) (read : Oracle) (ignored : List String) (root : Device)
    (known : dat.devices[root.name]? = some root) :
    ∃ report : ReportResult,
      (∀ fuel, dat.devices.size ≤ fuel → perform dat read ignored fuel root ∅ = some (.ok (.succ, report))) ∧
      (IsReport dat read ignored root report ↔ MissesNothing dat read ignored root) := by
  obtain ⟨report, run, cases⟩ := perform_reaches closed read ignored known
  refine ⟨report, fun fuel enough => perform_mono enough run, ?_⟩
  by_cases skip : shouldSkip root = true
  · have skipped : perform dat read ignored _ root ∅ = _ := perform_skip skip dat.devices.size ∅
    rw [perform_mono (Nat.le_succ _) run] at skipped
    obtain rfl := (Prod.mk.inj (Except.ok.inj (Option.some.inj skipped))).2
    exact isReport_empty_iff known skip
  · obtain ⟨grew, reached⟩ := cases.resolve_left fun both => skip both.1
    exact grew.isReport_iff (Bool.eq_false_of_not_eq_true skip) reached

/-! ### Two devices that name each other -/

def devicePoint (device expected : String) : Json :=
  .object [("accessor", .object [("device_name", .string device), ("type", .string "DEVICE")]),
    ("expected_value", .string expected), ("name", .string device)]

def fixedPoint (name value expected : String) : Json :=
  .object [("accessor", .object [("test_value", .string value), ("type", .string "TEST")]),
    ("expected_value", .string expected), ("name", .string name)]

def deviceJson (powerRail dataDump : List Json) : Json :=
  .object [("association", .array []), ("data_dump", .array dataDump), ("erot_control", .array []),
    ("firmware_status", .array []), ("interface_status", .array []), ("pin_status", .array []),
    ("power_rail", .array powerRail), ("protocol_status", .array []), ("type", .string "regular")]

def readTest (acc : DataAccessor) (_ : String) : PropertyValue :=
  match acc.ownText "test_value" with
  | .ok value => .ofString value
  | .error _ => {}

def circle (own : Json) : Json :=
  .object [("GPU_SXM_1", deviceJson [own, devicePoint "NVSwitch_0" "PASS"] []),
    ("NVSwitch_0", deviceJson [devicePoint "GPU_SXM_1" "PASS"] [])]

theorem perform_report_iff_circle : ∃ (dat : DAT) (root : Device) (report : ReportResult),
    DAT.populateMap .empty (circle (fixedPoint "PGOOD" "0" "1")) = .ok dat ∧
    dat.devices["GPU_SXM_1"]? = some root ∧ perform dat readTest [] 2 root ∅ = some (.ok (.succ, report)) ∧
    IsReport dat readTest [] root report := by
  have run : (DAT.populateMap .empty (circle (fixedPoint "PGOOD" "0" "1"))).map (fun dat =>
      (decide dat.Closed, dat.devices.size, dat.devices.toList.all fun d => decide (d.2.type = .regular),
        (dat.devices["GPU_SXM_1"]?).map Device.name)) = .ok (true, 2, true, some "GPU_SXM_1") := by decide
  obtain ⟨dat, loaded, facts⟩ := map_ok run
  simp only [Prod.mk.injEq, decide_eq_true_eq, List.all_eq_true, Option.map_eq_some_iff] at facts
  obtain ⟨closed, size, regular, root, known, name⟩ := facts
  have seen : ∀ (d : String) (dev : Device), dat.devices[d]? = some dev → ¬ Overlooked dev := by
    intro d dev here overlooked
    have visited := shouldSkip_regular (regular (d, dev) (Std.TreeMap.mem_toList_iff_getElem?_eq_some.mpr here))
    cases overlooked.1.symm.trans visited
  obtain ⟨report, run, holds⟩ := perform_report_iff dat closed readTest [] root (name ▸ known)
  refine ⟨dat, root, report, loaded, known, run 2 size.le, holds.mpr ⟨seen _ _ known, fun d path => ?_, ?_⟩⟩
  · refine ReflTransGen.mono (fun a b refers => ?_) _ _ path
    obtain ⟨dev, point, tp, here, listed, isDevice, named⟩ := refers
    exact ⟨dev, point, tp, here, listed.tested (seen a dev here), isDevice, named⟩
  · exact fun d dev _ here overlooked => absurd overlooked (seen d dev here)

/-! ### A port with too many test points -/

/-- A port whose power rail lists one test point again and again. -/
def portJson (n : Nat) : Json :=
  .object [("association", .array []), ("erot_control", .array []), ("firmware_status", .array []),
    ("interface_status", .array []), ("pin_status", .array []),
    ("power_rail", .array (List.replicate n (fixedPoint "PGOOD" "1" "1"))), ("protocol_status", .array []),
    ("type", .string "port")]

def railPoint : TestPoint where
  accessor := ({} : DataAccessor).assign (.object [("test_value", .string "1"), ("type", .string "TEST")])
  expectedValue := "1"
  severity := .critical

def portLayers (n : Nat) : List (String × List (String × TestPoint)) :=
  [("power_rail", List.replicate n ("PGOOD", railPoint)), ("erot_control", []), ("pin_status", []),
    ("interface_status", []), ("protocol_status", []), ("firmware_status", [])]

theorem portJson_layers (n : Nat) : (layersOf (portJson n)).mapM (loadLayer (portJson n)) = .ok (portLayers n) := by
  have points : (List.replicate n (fixedPoint "PGOOD" "1" "1")).mapM loadTestPoint =
      .ok (List.replicate n ("PGOOD", railPoint)) := by
    rw [mapM_ok_iff, List.forall₂_iff_get]
    refine ⟨by simp, fun i _ _ => ?_⟩
    simp only [List.get_eq_getElem, List.getElem_replicate]
    rfl
  have rail : loadLayer (portJson n) "power_rail" = .ok ("power_rail", List.replicate n ("PGOOD", railPoint)) :=
    bind_ok_iff.mpr ⟨_, rfl, bind_ok_iff.mpr ⟨_, points, rfl⟩⟩
  exact bind_ok_iff.mpr ⟨_, rail, rfl⟩

theorem portJson_populates (n : Nat) : ∃ (dat : DAT) (root : Device),
    DAT.populateMap .empty (.object [("Port_0", portJson n)]) = .ok dat ∧ dat.devices["Port_0"]? = some root := by
  obtain ⟨device, made⟩ : ∃ device, Device.ofJson "Port_0" (portJson n) = .ok device :=
    Device.ofJson_ok rfl rfl rfl rfl (portJson_layers n)
  have run : DAT.populateMap .empty (.object [("Port_0", portJson n)]) = .ok _ :=
    bind_ok_iff.mpr ⟨[device], bind_ok_iff.mpr ⟨device, made, rfl⟩, rfl⟩
  obtain ⟨first, -, names, table⟩ := DAT.populateMap_empty run
  have here : "Port_0" ∈ first.devices := (names "Port_0").mpr List.mem_cons_self
  obtain ⟨device, found⟩ := StringMap.mem_iff.mp here
  exact ⟨_, _, run, (table "Port_0").trans (congrArg _ found)⟩

theorem portJson_closed {n : Nat} {dat : DAT}
    (run : DAT.populateMap .empty (.object [("Port_0", portJson n)]) = .ok dat) : dat.Closed := by
  intro key device found layerName layer here name tp point isDevice
  obtain ⟨value, item, asLoaded⟩ := DAT.populateMap_asLoaded run found
  obtain ⟨-, rfl⟩ := Prod.mk.inj (List.mem_singleton.mp (mem_of_lookup item))
  obtain ⟨layers, loaded, test, -⟩ := asLoaded.layers
  obtain rfl := Except.ok.inj (loaded.symm.trans (portJson_layers n))
  obtain ⟨source, listed, member⟩ := loaded_of_point (test ▸ here) point
  have rail : tp = railPoint := by
    simp only [portLayers, List.mem_cons, List.not_mem_nil, or_false] at listed
    rcases listed with rfl | rfl | rfl | rfl | rfl | rfl
    · exact (Prod.mk.inj (List.eq_of_mem_replicate member)).2
    all_goals cases member
  rw [rail] at isDevice
  cases isDevice

theorem perform_overlooks {n : Nat} (some : 0 < n) (wraps : 2 ^ 32 ∣ n) : ∃ (dat : DAT) (root : Device),
    DAT.populateMap .empty (.object [("Port_0", portJson n)]) = .ok dat ∧ dat.Closed ∧
    dat.devices["Port_0"]? = .some root ∧ HasPoints root.test ∧
    (∀ fuel, dat.devices.size ≤ fuel → perform dat readTest [] fuel root ∅ = .some (.ok (.succ, ∅))) ∧
    ¬ IsReport dat readTest [] root ∅ := by
  obtain ⟨dat, root, run, known⟩ := portJson_populates n
  obtain ⟨value, layers, item, loaded, overlooked⟩ := overlooked_iff run known
  obtain ⟨-, rfl⟩ := Prod.mk.inj (List.mem_singleton.mp (mem_of_lookup item))
  obtain rfl := Except.ok.inj (loaded.symm.trans (portJson_layers n))
  obtain ⟨_, item, asLoaded⟩ := DAT.populateMap_asLoaded run known
  obtain ⟨-, rfl⟩ := Prod.mk.inj (List.mem_singleton.mp (mem_of_lookup item))
  have port : root.type = .port := (Except.ok.inj asLoaded.type).symm
  have points : pointsIn (portLayers n) = n := by simp [pointsIn, portLayers]
  obtain ⟨skip, points⟩ : Overlooked root := by
    rw [overlooked, port, points]
    exact ⟨by decide, some, wraps⟩
  refine ⟨dat, root, run, portJson_closed run, known, points, fun fuel enough => ?_, fun report => ?_⟩
  · have full := size_pos (StringMap.mem_iff.mpr ⟨root, known⟩)
    obtain ⟨n, rfl⟩ : ∃ n, fuel = n + 1 := ⟨fuel - 1, by omega⟩
    exact perform_skip skip n ∅
  · have here := (report.reached (fun none => none.2 points) root.name).mpr ReflTransGen.refl
    simp at here

/-- A port with 2^32 test points is skipped as one without any. -/
theorem perform_overlooks_port : ∃ (dat : DAT) (root : Device),
    DAT.populateMap .empty (.object [("Port_0", portJson (2 ^ 32))]) = .ok dat ∧ dat.Closed ∧
    dat.devices["Port_0"]? = some root ∧ HasPoints root.test ∧
    (∀ fuel, dat.devices.size ≤ fuel → perform dat readTest [] fuel root ∅ = some (.ok (.succ, ∅))) ∧
    ¬ IsReport dat readTest [] root ∅ :=
  perform_overlooks (Nat.two_pow_pos 32) (Nat.dvd_refl _)

end MonitorEventing.Selftest
