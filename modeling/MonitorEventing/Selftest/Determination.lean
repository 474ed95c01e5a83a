import MonitorEventing.Selftest.Missing

/-!
# The self-test after a boot

`perform` and `performEntireTree` with event determination. For a test point that does not pass,
`eventDiscovery` is called with the accessor as it was read, and what it pushes goes to the queue.
-/

namespace MonitorEventing.Selftest
open Accessor Dat Relation

section
variable {Item : Type} (discover : DataAccessor → Except Exn (Option Item))

/-- A call that may push to the queue. -/
abbrev Determining (Item α : Type) : Type := StateT (List Item) (ExceptT Exn Option) α

def Determining.ofExcept {α : Type} (x : Except Exn α) : Determining Item α := StateT.lift (Run.ofExcept x)

/-- `setDevice`, after `acc` was read. -/
def readFor (device : String) (acc : DataAccessor) (value : PropertyValue) : DataAccessor :=
  { acc with dataValue := value, savedDevice := device }

def discoverFailed (acc : DataAccessor) (tpRes : TestPointResult) : Determining Item Unit :=
  if tpRes.result then pure ()
  else do
    let pushed ← Determining.ofExcept (discover acc)
    modify (· ++ pushed.toList)

def testNestedDetermining (nested : Device → ReportResult → Determining Item (RcCode × ReportResult)) (devName : String)
    (devNested : Device) (reportRes : ReportResult) : Determining Item (RcCode × ReportResult) :=
  if isDeviceCached devName reportRes then pure (.succ, reportRes) else nested devNested reportRes

def evaluateNestedDetermining (nested : Device → ReportResult → Determining Item (RcCode × ReportResult))
    (devName : String) (devNested : Device) (reportRes : ReportResult) : Determining Item (Bool × ReportResult) := do
  let (selftestRes, reportRes) ← testNestedDetermining nested devName devNested reportRes
  if selftestRes = .succ then
    pure (evaluateDevice (reportRes.getD devName {}), touch reportRes devName)
  else pure (false, reportRes)

def testPointsDetermining (nested : Device → ReportResult → Determining Item (RcCode × ReportResult)) (dat : DAT)
    (read : Oracle) (dev : Device) : List (String × TestPoint) → ReportResult → List TestPointResult →
      Determining Item (RcCode × ReportResult × List TestPointResult)
  | [], reportRes, layerReport => pure (.succ, reportRes, layerReport)
  | (name, testPoint) :: rest, reportRes, layerReport =>
    if testPoint.accessor.isValidDeviceAccessor then do
      let devName ← Determining.ofExcept testPoint.deviceName
      match dat.devices[devName]? with
      | none => pure (.error, reportRes, layerReport)
      | some devNested => do
        let (devEvalRes, reportRes) ← evaluateNestedDetermining nested devName devNested reportRes
        let tpRes := nestedTpRes testPoint devName devEvalRes
        discoverFailed discover (readFor dev.name testPoint.accessor (.ofString devName)) tpRes
        testPointsDetermining nested dat read dev rest reportRes (tpRes :: layerReport)
    else do
      let tpRes := ownTpRes read dev.name name testPoint
      discoverFailed discover (readFor dev.name testPoint.accessor (read testPoint.accessor dev.name)) tpRes
      testPointsDetermining nested dat read dev rest reportRes (tpRes :: layerReport)

def layersDetermining (nested : Device → ReportResult → Determining Item (RcCode × ReportResult)) (dat : DAT)
    (read : Oracle) (layersToIgnore : List String) (dev : Device) : List (String × TestLayer) → ReportResult →
      DeviceResult → Determining Item (RcCode × ReportResult × DeviceResult)
  | [], reportRes, deviceReport => pure (.succ, reportRes, deviceReport)
  | (name, layer) :: rest, reportRes, deviceReport =>
    if layersToIgnore.contains name then
      layersDetermining nested dat read layersToIgnore dev rest reportRes ⟨deviceReport.layer.insert name []⟩
    else do
      let (rc, reportRes, layerReport) ←
        testPointsDetermining discover nested dat read dev layer.testPoints.toList reportRes []
      match rc with
      | .succ =>
        layersDetermining nested dat read layersToIgnore dev rest reportRes ⟨deviceReport.layer.insert name layerReport⟩
      | .error => pure (.error, reportRes, deviceReport)

/-- `perform` with event determination. -/
def performDetermining (dat : DAT) (read : Oracle) (layersToIgnore : List String) :
    Nat → Device → ReportResult → Determining Item (RcCode × ReportResult)
  | 0, _, _ => StateT.lift none
  | fuel + 1, dev, reportRes =>
    if isDeviceCached dev.name reportRes || shouldSkip dev then pure (.succ, reportRes)
    else do
      let (rc, reportRes, deviceReport) ← layersDetermining discover (performDetermining dat read layersToIgnore fuel)
        dat read layersToIgnore dev dev.test.toList (reportRes.insert dev.name {}) {}
      match rc with
      | .succ => pure (.succ, reportRes.insert dev.name deviceReport)
      | .error => pure (.error, reportRes)

def entireDetermining (dat : DAT) (read : Oracle) (layersToIgnore : List String) (fuel : Nat) :
    List (String × Device) → ReportResult → Determining Item (RcCode × ReportResult)
  | [], reportRes => pure (.succ, reportRes)
  | (_, dev) :: rest, reportRes => do
    let (rc, reportRes) ← performDetermining discover dat read layersToIgnore fuel dev reportRes
    match rc with
    | .succ => entireDetermining dat read layersToIgnore fuel rest reportRes
    | .error => pure (.error, reportRes)

end

/-- The loop that resolves the logs of all devices. -/
def resolveAll {Journal : Type} (resolve : String → Journal → Except Exn Unit × Journal) :
    List (String × Device) → Journal → Except Exn Unit × Journal
  | [], journal => (.ok (), journal)
  | (_, dev) :: rest, journal =>
    match resolve dev.name journal with
    | (.ok _, journal) => resolveAll resolve rest journal
    | (.error (.runtimeError _), journal) => resolveAll resolve rest journal
    | (.error e, journal) => (.error e, journal)

/-- `performEntireTree` with event determination: how it ends, and the journal it leaves. -/
def performEntireTreeDetermining {Item Journal : Type} (discover : DataAccessor → Except Exn (Option Item))
    (resolve : String → Journal → Except Exn Unit × Journal) (dat : DAT) (read : Oracle) (layersToIgnore : List String)
    (fuel : Nat) (journal : Journal) (reportRes : ReportResult) : Determining Item (RcCode × ReportResult) × Journal :=
  let (resolved, journal) := resolveAll resolve dat.devices.toList journal
  (do
    Determining.ofExcept resolved
    entireDetermining discover dat read layersToIgnore fuel dat.devices.toList reportRes, journal)

/-- A call of `eventDiscovery` for a test point of a layer of a device. -/
structure Determination where
  device : String
  layer : String
  name : String
  accessor : DataAccessor

/-! ### Calls that push and calls that do not -/

theorem Run.bind_ok_iff {α β : Type} {x : Run α} {f : α → Run β} {b : β} :
    x >>= f = some (.ok b) ↔ ∃ a, x = some (.ok a) ∧ f a = some (.ok b) := by
  constructor
  · intro h
    cases run : x with
    | none =>
      rw [run] at h
      cases h
    | some result =>
      rw [run] at h
      cases result with
      | error e => cases h
      | ok a => exact ⟨a, rfl, h⟩
  · intro given
    obtain ⟨a, first, second⟩ := given
    rw [Run.bind_of_eq first]
    exact second

section
variable {Item : Type} (discover : DataAccessor → Except Exn (Option Item))

/-- What a discovery pushes. -/
def pushed (det : Determination) : Option Item := (discover det.accessor).toOption.join

/-- Where the plain call returns, the other one returns the same, after it has discovered a list of test points
of which the relation holds. -/
def Adds {α : Type} (plain : Run α) (x : Determining Item α) (P : α → List Determination → Prop) : Prop :=
  ∀ a, plain = some (.ok a) → ∃ ds, P a ds ∧
    ∀ queue, x.run queue = some (.ok (a, queue ++ ds.filterMap (pushed discover)))

variable {discover} {α β : Type} {plain : Run α} {x : Determining Item α} {P Q : α → List Determination → Prop}

theorem Adds.pure {a : α} (h : P a []) : Adds discover (pure a) (pure a) P := by
  intro a' same
  obtain rfl := Except.ok.inj (Option.some.inj same)
  refine ⟨[], h, fun queue => ?_⟩
  rw [List.filterMap_nil, List.append_nil]
  rfl

theorem Adds.mono (h : Adds discover plain x P) (more : ∀ a ds, P a ds → Q a ds) : Adds discover plain x Q := by
  intro a run
  obtain ⟨ds, holds, same⟩ := h a run
  exact ⟨ds, more a ds holds, same⟩

theorem Adds.bind {R : β → List Determination → Prop} {f : α → Run β} {g : α → Determining Item β}
    (h : Adds discover plain x P) (next : ∀ a ds, P a ds → Adds discover (f a) (g a) fun b more => R b (ds ++ more)) :
    Adds discover (plain >>= f) (x >>= g) R := by
  intro b run
  obtain ⟨a, first, second⟩ := Run.bind_ok_iff.mp run
  obtain ⟨ds, holds, same⟩ := h a first
  obtain ⟨more, result, same'⟩ := next a ds holds b second
  refine ⟨ds ++ more, result, fun queue => ?_⟩
  rw [StateT.run_bind, Run.bind_of_eq (same queue), same', List.filterMap_append, List.append_assoc]

/-- A call that is not in the plain version. -/
theorem Adds.first {P : List Determination → Prop} {f : Run β} {y : Determining Item PUnit} {g : Determining Item β}
    {R : β → List Determination → Prop} (h : Adds discover (Pure.pure ()) y fun _ ds => P ds)
    (next : ∀ ds, P ds → Adds discover f g fun b more => R b (ds ++ more)) :
    Adds discover f (y >>= fun _ => g) R :=
  Adds.bind (f := fun _ => f) h fun _ => next

theorem Adds.ofExcept (y : Except Exn α) :
    Adds discover (Run.ofExcept y) (Determining.ofExcept y) fun a ds => y = .ok a ∧ ds = [] := by
  intro a run
  obtain rfl := Option.some.inj run
  refine ⟨[], ⟨rfl, rfl⟩, fun queue => ?_⟩
  rw [List.filterMap_nil, List.append_nil]
  rfl

theorem pushed_eq {det : Determination} {item : Option Item} (answer : discover det.accessor = .ok item) :
    pushed discover det = item := by
  rw [pushed, answer]
  rfl

theorem Adds.discoverFailed {acc : DataAccessor} (answers : ∃ item, discover acc = .ok item)
    (device layer name : String) (tpRes : TestPointResult) :
    Adds discover (Pure.pure ()) (discoverFailed discover acc tpRes) fun _ ds =>
      ds = if tpRes.result then [] else [⟨device, layer, name, acc⟩] := by
  intro a _
  refine ⟨_, rfl, fun queue => ?_⟩
  unfold Selftest.discoverFailed
  by_cases passed : tpRes.result = true
  · rw [if_pos passed, if_pos passed, List.filterMap_nil, List.append_nil]
    rfl
  · obtain ⟨item, answer⟩ := answers
    have known : pushed discover ⟨device, layer, name, acc⟩ = item := pushed_eq answer
    have one : [Determination.mk device layer name acc].filterMap (pushed discover) = item.toList := by
      rw [List.filterMap_cons, known]
      cases item <;> rfl
    rw [if_neg passed, if_neg passed, answer, one]
    rfl

end

/-! ### What was discovered for a device -/

def callsOf (device layer : String) (ds : List Determination) : List Determination :=
  ds.filter fun det => det.device = device ∧ det.layer = layer

theorem callsOf_append (device layer : String) (ds more : List Determination) :
    callsOf device layer (ds ++ more) = callsOf device layer ds ++ callsOf device layer more :=
  List.filter_append ..

theorem callsOf_eq_nil {device : String} {ds : List Determination} (others : ∀ det ∈ ds, det.device ≠ device)
    (layer : String) : callsOf device layer ds = [] := by
  apply List.filter_eq_nil_iff.mpr
  intro det member both
  exact others det member (of_decide_eq_true both).1

/-- The call for a test point, if it has not passed. -/
def failure (read : Oracle) (device layer : String) (point : String × TestPoint) (res : TestPointResult) :
    List Determination :=
  if res.result then []
  else [⟨device, layer, point.1, readFor device point.2.accessor
    (if point.2.accessor.isValidDeviceAccessor then .ofString res.targetName else read point.2.accessor device)⟩]

/-- The calls for the test points of a layer. -/
def failures (read : Oracle) (device layer : String) (points : List (String × TestPoint))
    (results : List TestPointResult) : List Determination :=
  (points.zip results).flatMap fun both => failure read device layer both.1 both.2

theorem of_mem_failure {read : Oracle} {device layer : String} {point : String × TestPoint} {res : TestPointResult}
    {det : Determination} (member : det ∈ failure read device layer point res) :
    det.device = device ∧ det.layer = layer ∧ det.name = point.1 ∧
      ∃ value, det.accessor = readFor device point.2.accessor value := by
  unfold failure at member
  by_cases passed : res.result = true
  · rw [if_pos passed] at member
    cases member
  · rw [if_neg passed] at member
    rw [List.mem_singleton.mp member]
    exact ⟨rfl, rfl, rfl, _, rfl⟩

theorem callsOf_failure (read : Oracle) (device layer other : String) (point : String × TestPoint) (res : TestPointResult) :
    callsOf device other (failure read device layer point res) =
      if other = layer then failure read device layer point res else [] := by
  by_cases here : other = layer
  · rw [if_pos here]
    apply List.filter_eq_self.mpr
    intro det member
    obtain ⟨own, same, _⟩ := of_mem_failure member
    exact decide_eq_true ⟨own, same.trans here.symm⟩
  · rw [if_neg here]
    apply List.filter_eq_nil_iff.mpr
    intro det member both
    exact here ((of_decide_eq_true both).2.symm.trans (of_mem_failure member).2.1)

def pointsAt (dev : Device) (layer : String) : List (String × TestPoint) :=
  (((testedLayers dev)[layer]?).map (·.testPoints.toList)).getD []

section
variable (dat : DAT) (read : Oracle) (ignored : List String)

/-- The entry of a device has the results of all test points that are not ignored, and those that have not passed
were discovered, in the order of the layer. -/
def Discovers (dev : Device) (entry : DeviceResult) (ds : List Determination) : Prop :=
  ∀ layer, (layer ∉ ignored → (entry.layer.getD layer []).length = (pointsAt dev layer).length) ∧
    callsOf dev.name layer ds = failures read dev.name layer (pointsAt dev layer) (entry.layer.getD layer []).reverse

/-- The call is for a test point of the table. -/
def IsOfPoint (det : Determination) : Prop :=
  ∃ dev tp value, dat.devices[det.device]? = some dev ∧ IsTested ignored dev det.name tp ∧
    det.accessor = readFor det.device tp.accessor value

/-- Between two reports. The busy devices are being tested all the time. -/
structure Recorded (busy : Set String) (before after : ReportResult) (ds : List Determination) : Prop where
  kept : ∀ (d : String) (entry : DeviceResult), before[d]? = some entry → after[d]? = some entry
  tested : ∀ d ∈ busy, d ∈ before
  fresh : ∀ det ∈ ds, det.device ∉ busy → det.device ∉ before ∧ det.device ∈ after
  points : ∀ det ∈ ds, IsOfPoint dat ignored det
  entries : ∀ (d : String), d ∉ before → ∀ entry, after[d]? = some entry → ∃ dev, dat.devices[d]? = some dev ∧
    (¬ Bad dat ignored d → Discovers read ignored dev entry ds)

variable {dat read ignored} {busy : Set String} {before middle after : ReportResult} {ds more : List Determination}

theorem Recorded.mem (h : Recorded dat read ignored busy before after ds) {d : String} (member : d ∈ before) :
    d ∈ after := by
  obtain ⟨entry, found⟩ := StringMap.mem_iff.mp member
  exact StringMap.mem_iff.mpr ⟨entry, h.kept d entry found⟩

theorem Recorded.refl (report : ReportResult) : Recorded dat read ignored ∅ report report [] where
  kept _ _ found := found
  tested _ none := absurd none (Set.notMem_empty _)
  fresh _ none := absurd none List.not_mem_nil
  points _ none := absurd none List.not_mem_nil
  entries _ new entry found := absurd (StringMap.mem_iff.mpr ⟨entry, found⟩) new

theorem Recorded.own {device : String} {report : ReportResult} (tested : device ∈ report)
    (own : ∀ det ∈ ds, det.device = device) (points : ∀ det ∈ ds, IsOfPoint dat ignored det) :
    Recorded dat read ignored {device} report report ds where
  kept _ _ found := found
  tested _ member := (Set.mem_singleton_iff.mp member) ▸ tested
  fresh det member other := absurd (Set.mem_singleton_iff.mpr (own det member)) other
  points := points
  entries _ new entry found := absurd (StringMap.mem_iff.mpr ⟨entry, found⟩) new

theorem Discovers.congr {dev : Device} {entry : DeviceResult} (h : Discovers read ignored dev entry ds)
    (same : ∀ layer, callsOf dev.name layer more = callsOf dev.name layer ds) : Discovers read ignored dev entry more := by
  intro layer
  rw [same]
  exact h layer

theorem Recorded.trans (first : Recorded dat read ignored busy before middle ds)
    (second : Recorded dat read ignored busy middle after more) :
    Recorded dat read ignored busy before after (ds ++ more) where
  kept d entry found := second.kept d entry (first.kept d entry found)
  tested := first.tested
  fresh := by
    intro det member other
    rcases List.mem_append.mp member with early | late
    · have both := first.fresh det early other
      exact ⟨both.1, second.mem both.2⟩
    · have both := second.fresh det late other
      exact ⟨fun old => both.1 (first.mem old), both.2⟩
  points := List.forall_mem_append.mpr ⟨first.points, second.points⟩
  entries := by
    intro d new entry found
    have idle : d ∉ busy := fun member => new (first.tested d member)
    by_cases early : d ∈ middle
    · obtain ⟨entry', found'⟩ := StringMap.mem_iff.mp early
      obtain rfl := Option.some.inj ((second.kept d entry' found').symm.trans found)
      obtain ⟨dev, known, discovers⟩ := first.entries d new entry' found'
      refine ⟨dev, known, fun good => (discovers good).congr fun layer => ?_⟩
      have none : callsOf dev.name layer more = [] := by
        apply callsOf_eq_nil
        intro det member same
        rw [dat.named d dev known] at same
        exact (second.fresh det member (same ▸ idle)).1 (same ▸ early)
      rw [callsOf_append, none, List.append_nil]
    · obtain ⟨dev, known, discovers⟩ := second.entries d early entry found
      refine ⟨dev, known, fun good => (discovers good).congr fun layer => ?_⟩
      have none : callsOf dev.name layer ds = [] := by
        apply callsOf_eq_nil
        intro det member same
        rw [dat.named d dev known] at same
        exact early (same ▸ (first.fresh det member (same ▸ idle)).2)
      rw [callsOf_append, none, List.nil_append]

/-- A device that is tested all the time may be taken to be busy. -/
theorem Recorded.within (h : Recorded dat read ignored ∅ before after ds) {device : String} (tested : device ∈ before) :
    Recorded dat read ignored {device} before after ds where
  kept := h.kept
  tested _ member := (Set.mem_singleton_iff.mp member) ▸ tested
  fresh det member _ := h.fresh det member (Set.notMem_empty _)
  points := h.points
  entries := h.entries

/-! ### The loops -/

variable (dat read ignored) in
/-- The loop over the test points of a layer, from a report and a list of results. -/
structure PointsTested (dev : Device) (layer : String) (points : List (String × TestPoint)) (before : ReportResult)
    (layerReport : List TestPointResult) (a : RcCode × ReportResult × List TestPointResult)
    (ds : List Determination) : Prop where
  recorded : Recorded dat read ignored {dev.name} before a.2.1 ds
  absent : a.1 = .error → ∃ point ∈ points, isAbsent dat point.2 = true
  finished : a.1 = .succ → ∃ results, results.length = points.length ∧ a.2.2 = results.reverse ++ layerReport ∧
    ∀ other, callsOf dev.name other ds = if other = layer then failures read dev.name layer points results else []

variable {dev : Device} {layer : String}

theorem PointsTested.cons {points : List (String × TestPoint)} {layerReport : List TestPointResult}
    {a : RcCode × ReportResult × List TestPointResult} (point : String × TestPoint) {res : TestPointResult}
    (known : dat.devices[dev.name]? = some dev) (listed : IsTested ignored dev point.1 point.2)
    (tested : dev.name ∈ before) (first : Recorded dat read ignored ∅ before middle ds)
    (rest : PointsTested dat read ignored dev layer points middle (res :: layerReport) a more) :
    PointsTested dat read ignored dev layer (point :: points) before layerReport a
      (ds ++ (failure read dev.name layer point res ++ more)) := by
  refine ⟨(first.within tested).trans ((Recorded.own (first.mem tested) ?_ ?_).trans rest.recorded), ?_, ?_⟩
  · exact fun det member => (of_mem_failure member).1
  · intro det member
    obtain ⟨own, _, name, value, accessor⟩ := of_mem_failure member
    rw [IsOfPoint, own, name]
    exact ⟨dev, point.2, value, known, listed, accessor⟩
  · intro failed
    obtain ⟨bad, member, absent⟩ := rest.absent failed
    exact ⟨bad, List.mem_cons_of_mem _ member, absent⟩
  · intro done
    obtain ⟨results, length, same, calls⟩ := rest.finished done
    refine ⟨res :: results, by simp [length], by simp [same], fun other => ?_⟩
    have none : callsOf dev.name other ds = [] := by
      apply callsOf_eq_nil
      intro det member same
      exact (first.fresh det member (Set.notMem_empty _)).1 (same ▸ tested)
    rw [callsOf_append, callsOf_append, none, calls, List.nil_append, callsOf_failure]
    by_cases here : other = layer
    · rw [if_pos here, if_pos here, if_pos here]
      rfl
    · rw [if_neg here, if_neg here, if_neg here, List.append_nil]

variable {Item : Type} {discover : DataAccessor → Except Exn (Option Item)}
  {nested : Device → ReportResult → Run (RcCode × ReportResult)}
  {nestedDetermining : Device → ReportResult → Determining Item (RcCode × ReportResult)}

variable (dat read ignored discover nested nestedDetermining) in
/-- The test of a device, with and without event determination. -/
def TestsBoth : Prop :=
  ∀ (dev : Device) (report : ReportResult), dat.devices[dev.name]? = some dev →
    Adds discover (nested dev report) (nestedDetermining dev report) fun a ds =>
      Recorded dat read ignored ∅ report a.2 ds ∧ (a.1 = .succ → dev.name ∈ a.2 ∨ shouldSkip dev = true)

variable (dat ignored discover) in
/-- `eventDiscovery` returns for every test point of the table. -/
def AnswersAll : Prop := ∀ det, IsOfPoint dat ignored det → ∃ item, discover det.accessor = .ok item

theorem pointsAt_skipped (skip : shouldSkip dev = true) (layer : String) : pointsAt dev layer = [] := by
  rw [pointsAt, testedLayers_skipped skip]
  simp

theorem Recorded.touched (h : Recorded dat read ignored ∅ before after ds) (known : dat.devices[dev.name]? = some dev)
    (skip : dev.name ∈ after ∨ shouldSkip dev = true) :
    Recorded dat read ignored ∅ before (touch after dev.name) ds := by
  unfold touch
  by_cases member : dev.name ∈ after
  · rw [if_pos member]
    exact h
  have skip := skip.resolve_left member
  rw [if_neg member]
  refine ⟨?_, h.tested, ?_, h.points, ?_⟩
  · intro d entry found
    have kept := h.kept d entry found
    have other : dev.name ≠ d := fun same => member (same ▸ StringMap.mem_iff.mpr ⟨entry, kept⟩)
    rw [StringMap.getElem?_insert, if_neg other]
    exact kept
  · intro det inside other
    have both := h.fresh det inside other
    exact ⟨both.1, (StringMap.mem_insert after dev.name det.device {}).mpr (Or.inr both.2)⟩
  · intro d new entry found
    rw [StringMap.getElem?_insert] at found
    split at found
    · rename_i same
      subst same
      obtain rfl := Option.some.inj found
      refine ⟨dev, known, fun _ layer => ?_⟩
      rw [pointsAt_skipped skip]
      refine ⟨fun _ => rfl, ?_⟩
      apply callsOf_eq_nil
      intro det inside same
      exact member (same ▸ (h.fresh det inside (Set.notMem_empty _)).2)
    · exact h.entries d new entry found

theorem evaluateNested_adds (tests : TestsBoth dat read ignored discover nested nestedDetermining)
    (known : dat.devices[dev.name]? = some dev) (report : ReportResult) :
    Adds discover (evaluateNested nested dev.name dev report)
      (evaluateNestedDetermining nestedDetermining dev.name dev report) fun a ds =>
        Recorded dat read ignored ∅ report a.2 ds := by
  have tested : Adds discover (testNested nested dev.name dev report)
      (testNestedDetermining nestedDetermining dev.name dev report) fun a ds =>
        Recorded dat read ignored ∅ report a.2 ds ∧ (a.1 = .succ → dev.name ∈ a.2 ∨ shouldSkip dev = true) := by
    unfold testNested testNestedDetermining
    by_cases cached : isDeviceCached dev.name report = true
    · rw [if_pos cached, if_pos cached]
      exact Adds.pure ⟨Recorded.refl report, fun _ => Or.inl (of_decide_eq_true cached)⟩
    · rw [if_neg cached, if_neg cached]
      exact tests dev report known
  unfold evaluateNested evaluateNestedDetermining
  apply Adds.bind tested
  intro a ds holds
  obtain ⟨recorded, skip⟩ := holds
  dsimp only
  by_cases done : a.1 = .succ
  · rw [if_pos done, if_pos done]
    apply Adds.pure
    rw [List.append_nil]
    exact recorded.touched known (skip done)
  · rw [if_neg done, if_neg done]
    apply Adds.pure
    rw [List.append_nil]
    exact recorded

theorem testPointsFrom_adds (tests : TestsBoth dat read ignored discover nested nestedDetermining) (layer : String)
    (answers : AnswersAll dat ignored discover) (known : dat.devices[dev.name]? = some dev)
    {points : List (String × TestPoint)} (listed : ∀ point ∈ points, IsTested ignored dev point.1 point.2)
    {report : ReportResult} (tested : dev.name ∈ report) (layerReport : List TestPointResult) :
    Adds discover (testPointsFrom nested dat read dev points report layerReport)
      (testPointsDetermining discover nestedDetermining dat read dev points report layerReport)
      (PointsTested dat read ignored dev layer points report layerReport) := by
  induction points generalizing report layerReport with
  | nil =>
    apply Adds.pure
    refine ⟨(Recorded.refl report).within tested, fun failed => ?_, fun _ => ⟨[], rfl, rfl, fun other => ?_⟩⟩
    · cases failed
    · split <;> rfl
  | cons point rest ih =>
    obtain ⟨name, tp⟩ := point
    obtain ⟨here, listed⟩ := List.forall_mem_cons.mp listed
    have answer : ∀ value, ∃ item, discover (readFor dev.name tp.accessor value) = .ok item :=
      fun value => answers ⟨dev.name, layer, name, readFor dev.name tp.accessor value⟩ ⟨dev, tp, value, known, here, rfl⟩
    unfold testPointsFrom testPointsDetermining
    by_cases isDevice : tp.accessor.isValidDeviceAccessor = true
    · rw [if_pos isDevice, if_pos isDevice]
      apply Adds.bind (Adds.ofExcept _)
      intro devName ds holds
      obtain ⟨named, rfl⟩ := holds
      cases found : dat.devices[devName]? with
      | none =>
        apply Adds.pure
        have absent := isAbsent_iff.mpr ⟨devName, ⟨isDevice, named⟩, fun member => by
          rw [Std.TreeMap.mem_iff_isSome_getElem?, found] at member
          cases member⟩
        refine ⟨(Recorded.refl report).within tested, fun _ => ⟨_, List.mem_cons_self, absent⟩, fun done => ?_⟩
        cases done
      | some devNested =>
        obtain rfl := dat.named devName devNested found
        apply Adds.bind (evaluateNested_adds tests found report)
        intro evaluated ds first
        let res := nestedTpRes tp devNested.name evaluated.1
        apply Adds.first (Adds.discoverFailed (answer _) dev.name layer name res)
        intro own same
        subst same
        apply (ih listed (first.mem tested) (res :: layerReport)).mono
        intro a more rest
        have tested := PointsTested.cons (name, tp) known here tested first rest
        simp only [failure, if_pos isDevice] at tested
        exact tested
    · rw [if_neg isDevice, if_neg isDevice]
      let res := ownTpRes read dev.name name tp
      apply Adds.first (Adds.discoverFailed (answer _) dev.name layer name res)
      intro own same
      subst same
      apply (ih listed tested (res :: layerReport)).mono
      intro a more rest
      have tested := PointsTested.cons (name, tp) known here tested (Recorded.refl report) rest
      simp only [failure, if_neg isDevice] at tested
      exact tested

variable (dat read ignored) in
/-- The loop over the layers of a device, from a report and the layers it has reported. -/
structure LayersTested (dev : Device) (layers : List (String × TestLayer)) (before : ReportResult)
    (deviceReport : DeviceResult) (a : RcCode × ReportResult × DeviceResult) (ds : List Determination) : Prop where
  recorded : Recorded dat read ignored {dev.name} before a.2.1 ds
  absent : a.1 = .error → ∃ point ∈ pointsOf ignored layers, isAbsent dat point.2 = true
  others : a.1 = .succ → ∀ layer ∉ layers.map (·.1),
    a.2.2.layer.getD layer [] = deviceReport.layer.getD layer [] ∧ callsOf dev.name layer ds = []
  finished : a.1 = .succ → ∀ layer ∈ layers,
    (layer.1 ∉ ignored → (a.2.2.layer.getD layer.1 []).length = layer.2.testPoints.toList.length) ∧
      callsOf dev.name layer.1 ds =
        failures read dev.name layer.1 layer.2.testPoints.toList (a.2.2.layer.getD layer.1 []).reverse

theorem getD_insert_layer (deviceReport : DeviceResult) (name : String) (results : List TestPointResult) (layer : String) :
    (deviceReport.layer.insert name results).getD layer [] =
      if name = layer then results else deviceReport.layer.getD layer [] := by
  simp only [Std.TreeMap.getD_eq_getD_getElem?, StringMap.getElem?_insert]
  split <;> rfl

theorem pointsOf_cons (name : String) (testLayer : TestLayer) (rest : List (String × TestLayer)) :
    pointsOf ignored ((name, testLayer) :: rest) =
      (if name ∈ ignored then [] else testLayer.testPoints.toList) ++ pointsOf ignored rest := by
  unfold pointsOf
  rw [List.filter_cons]
  by_cases skipped : name ∈ ignored
  · rw [if_neg (by simpa using skipped), if_pos skipped, List.nil_append]
  · rw [if_pos (by simpa using skipped), if_neg skipped, List.flatMap_cons]

theorem LayersTested.skip {name : String} {testLayer : TestLayer} {rest : List (String × TestLayer)}
    {deviceReport : DeviceResult} {a : RcCode × ReportResult × DeviceResult} (fresh : name ∉ rest.map (·.1))
    (skipped : name ∈ ignored)
    (h : LayersTested dat read ignored dev rest before ⟨deviceReport.layer.insert name []⟩ a ds) :
    LayersTested dat read ignored dev ((name, testLayer) :: rest) before deviceReport a ds where
  recorded := h.recorded
  absent := by
    intro failed
    obtain ⟨point, member, absent⟩ := h.absent failed
    refine ⟨point, ?_, absent⟩
    rw [pointsOf_cons, if_pos skipped]
    exact member
  others := by
    intro done layer outside
    rw [List.map_cons, List.mem_cons, not_or] at outside
    obtain ⟨different, outside⟩ := outside
    obtain ⟨same, none⟩ := h.others done layer outside
    rw [same, getD_insert_layer, if_neg (Ne.symm different)]
    exact ⟨rfl, none⟩
  finished := by
    intro done layer member
    rcases List.mem_cons.mp member with rfl | member
    · refine ⟨fun used => absurd skipped used, ?_⟩
      obtain ⟨same, none⟩ := h.others done name fresh
      rw [none, same, getD_insert_layer, if_pos rfl, failures, List.reverse_nil, List.zip_nil_right, List.flatMap_nil]
    · exact h.finished done layer member

theorem LayersTested.cons {name : String} {testLayer : TestLayer} {rest : List (String × TestLayer)}
    {deviceReport : DeviceResult} {layerReport : List TestPointResult} {a : RcCode × ReportResult × DeviceResult}
    (fresh : name ∉ rest.map (·.1)) (used : name ∉ ignored)
    (first : PointsTested dat read ignored dev name testLayer.testPoints.toList before [] (.succ, middle, layerReport) ds)
    (h : LayersTested dat read ignored dev rest middle ⟨deviceReport.layer.insert name layerReport⟩ a more) :
    LayersTested dat read ignored dev ((name, testLayer) :: rest) before deviceReport a (ds ++ more) := by
  obtain ⟨results, length, same, calls⟩ := first.finished rfl
  rw [List.append_nil] at same
  dsimp only at same
  subst same
  refine ⟨first.recorded.trans h.recorded, ?_, ?_, ?_⟩
  · intro failed
    obtain ⟨point, member, absent⟩ := h.absent failed
    refine ⟨point, ?_, absent⟩
    rw [pointsOf_cons, if_neg used]
    exact List.mem_append_right _ member
  · intro done layer outside
    rw [List.map_cons, List.mem_cons, not_or] at outside
    obtain ⟨different, outside⟩ := outside
    obtain ⟨same, none⟩ := h.others done layer outside
    rw [same, getD_insert_layer, if_neg (Ne.symm different), callsOf_append, none, calls, if_neg different]
    exact ⟨rfl, rfl⟩
  · intro done layer member
    rcases List.mem_cons.mp member with rfl | member
    · obtain ⟨same, none⟩ := h.others done name fresh
      rw [same, getD_insert_layer, if_pos rfl, callsOf_append, none, calls, if_pos rfl, List.append_nil,
        List.length_reverse, List.reverse_reverse]
      exact ⟨fun _ => length, rfl⟩
    · obtain ⟨count, same⟩ := h.finished done layer member
      have different : layer.1 ≠ name := fun same => fresh (same ▸ List.mem_map_of_mem member)
      rw [callsOf_append, calls, if_neg different, List.nil_append]
      exact ⟨count, same⟩

theorem layersFrom_adds (tests : TestsBoth dat read ignored discover nested nestedDetermining)
    (answers : AnswersAll dat ignored discover) (known : dat.devices[dev.name]? = some dev)
    {layers : List (String × TestLayer)} (unique : (layers.map (·.1)).Nodup)
    (listed : ∀ point ∈ pointsOf ignored layers, IsTested ignored dev point.1 point.2)
    {report : ReportResult} (tested : dev.name ∈ report) (deviceReport : DeviceResult) :
    Adds discover (layersFrom nested dat read ignored dev layers report deviceReport)
      (layersDetermining discover nestedDetermining dat read ignored dev layers report deviceReport)
      (LayersTested dat read ignored dev layers report deviceReport) := by
  induction layers generalizing report deviceReport with
  | nil =>
    apply Adds.pure
    refine ⟨(Recorded.refl report).within tested, fun failed => ?_, fun _ _ _ => ⟨rfl, rfl⟩,
      fun _ _ none => absurd none List.not_mem_nil⟩
    cases failed
  | cons layer rest ih =>
    obtain ⟨name, testLayer⟩ := layer
    obtain ⟨fresh, unique⟩ := List.nodup_cons.mp unique
    unfold layersFrom layersDetermining
    by_cases skipped : name ∈ ignored
    · rw [if_pos (List.contains_iff_mem.mpr skipped), if_pos (List.contains_iff_mem.mpr skipped)]
      rw [pointsOf_cons, if_pos skipped, List.nil_append] at listed
      exact (ih unique listed tested _).mono fun a ds => LayersTested.skip fresh skipped
    · rw [if_neg (by simpa using skipped), if_neg (by simpa using skipped)]
      rw [pointsOf_cons, if_neg skipped, List.forall_mem_append] at listed
      apply Adds.bind (testPointsFrom_adds tests name answers known listed.1 tested [])
      intro a ds first
      obtain ⟨rc, middle, layerReport⟩ := a
      cases rc with
      | succ =>
        apply (ih unique listed.2 (first.recorded.mem tested) _).mono
        exact fun a more => LayersTested.cons fresh skipped first
      | error =>
        apply Adds.pure
        rw [List.append_nil]
        refine ⟨first.recorded, fun _ => ?_, fun done => ?_, fun done => ?_⟩
        · obtain ⟨point, member, absent⟩ := first.absent rfl
          refine ⟨point, ?_, absent⟩
          rw [pointsOf_cons, if_neg skipped]
          exact List.mem_append_left _ member
        · cases done
        · cases done

/-! ### The recursion -/

theorem Recorded.visit (known : dat.devices[dev.name]? = some dev) (fresh : dev.name ∉ before)
    (h : Recorded dat read ignored {dev.name} (before.insert dev.name {}) middle ds) (entry : DeviceResult)
    (own : ¬ Bad dat ignored dev.name → Discovers read ignored dev entry ds)
    (updated : ∀ (d : String), after[d]? = if dev.name = d then some entry else middle[d]?) :
    Recorded dat read ignored ∅ before after ds where
  kept d entry found := by
    have other : dev.name ≠ d := fun same => fresh (same ▸ StringMap.mem_iff.mpr ⟨entry, found⟩)
    rw [updated, if_neg other]
    apply h.kept
    rw [StringMap.getElem?_insert, if_neg other]
    exact found
  tested _ none := absurd none (Set.notMem_empty _)
  fresh det member _ := by
    by_cases same : dev.name = det.device
    · rw [← same]
      exact ⟨fresh, StringMap.mem_iff.mpr ⟨entry, by rw [updated, if_pos rfl]⟩⟩
    · obtain ⟨new, found⟩ := h.fresh det member fun mem => same (Set.mem_singleton_iff.mp mem).symm
      obtain ⟨found_entry, found⟩ := StringMap.mem_iff.mp found
      rw [StringMap.mem_insert, not_or] at new
      exact ⟨new.2, StringMap.mem_iff.mpr ⟨found_entry, by rw [updated, if_neg same, found]⟩⟩
  points := h.points
  entries d new found_entry found := by
    rw [updated] at found
    by_cases same : dev.name = d
    · rw [if_pos same] at found
      obtain rfl := Option.some.inj found
      subst same
      exact ⟨dev, known, own⟩
    · rw [if_neg same] at found
      apply h.entries d _ found_entry found
      rw [StringMap.mem_insert, not_or]
      exact ⟨same, new⟩

theorem LayersTested.discovers {deviceReport entry : DeviceResult} {rc : RcCode}
    (h : LayersTested dat read ignored dev (testedLayers dev).toList before deviceReport (rc, after, entry) ds)
    (done : rc = .succ) (empty : deviceReport = {}) : Discovers read ignored dev entry ds := by
  intro layer
  cases here : (testedLayers dev)[layer]? with
  | none =>
    have absent : layer ∉ (testedLayers dev).toList.map (·.1) := by
      rw [Std.TreeMap.map_fst_toList_eq_keys, Std.TreeMap.mem_keys, Std.TreeMap.mem_iff_isSome_getElem?, here]
      exact Bool.false_ne_true
    obtain ⟨same, none⟩ := h.others done layer absent
    rw [empty] at same
    have points : pointsAt dev layer = [] := by
      rw [pointsAt, here]
      rfl
    rw [same, none, points]
    exact ⟨fun _ => rfl, rfl⟩
  | some testLayer =>
    have points : pointsAt dev layer = testLayer.testPoints.toList := by
      rw [pointsAt, here]
      rfl
    rw [points]
    exact h.finished done (layer, testLayer) (Std.TreeMap.mem_toList_iff_getElem?_eq_some.mpr here)

theorem perform_adds (answers : AnswersAll dat ignored discover) (n : Nat) :
    TestsBoth dat read ignored discover (perform dat read ignored n) (performDetermining discover dat read ignored n) := by
  induction n with
  | zero =>
    intro dev report _ a run
    cases run
  | succ n ih =>
    intro dev report known
    unfold perform performDetermining
    by_cases done : (isDeviceCached dev.name report || shouldSkip dev) = true
    · rw [if_pos done, if_pos done]
      apply Adds.pure
      refine ⟨Recorded.refl report, fun _ => ?_⟩
      rwa [Bool.or_eq_true, isDeviceCached, decide_eq_true_iff] at done
    have visited : shouldSkip dev = false := by
      apply Bool.eq_false_of_not_eq_true
      intro skip
      apply done
      rw [skip, Bool.or_true]
    rw [if_neg done, if_neg done, ← testedLayers_visited visited]
    have fresh : dev.name ∉ report := by
      intro member
      apply done
      rw [isDeviceCached, decide_eq_true member, Bool.true_or]
    have own : dev.name ∈ report.insert dev.name {} := (StringMap.mem_insert report dev.name dev.name {}).mpr (Or.inl rfl)
    have listed : ∀ point ∈ pointsOf ignored (testedLayers dev).toList, IsTested ignored dev point.1 point.2 :=
      fun point => isTested_iff.mpr
    apply Adds.bind (layersFrom_adds ih answers known (StringMap.names_nodup _) listed own {})
    intro a ds tested
    obtain ⟨rc, inside, entry⟩ := a
    cases rc with
    | succ =>
      apply Adds.pure
      rw [List.append_nil]
      refine ⟨tested.recorded.visit known fresh entry (fun _ => tested.discovers rfl rfl) fun d => ?_, fun _ => Or.inl ?_⟩
      · rw [StringMap.getElem?_insert]
      · exact (StringMap.mem_insert inside dev.name dev.name entry).mpr (Or.inl rfl)
    | error =>
      apply Adds.pure
      rw [List.append_nil]
      have placeholder : inside[dev.name]? = some {} := by
        apply tested.recorded.kept
        rw [StringMap.getElem?_insert, if_pos rfl]
      refine ⟨tested.recorded.visit known fresh {} (fun good => ?_) fun d => ?_, fun done => ?_⟩
      · exact absurd ((bad_iff known).mpr (tested.absent rfl)) good
      · by_cases same : dev.name = d
        · rw [if_pos same, ← same, placeholder]
        · rw [if_neg same]
      · cases done

theorem entireFrom_adds (answers : AnswersAll dat ignored discover) (fuel : Nat)
    {devs : List (String × Device)} (listed : ∀ entry ∈ devs, dat.devices[entry.1]? = some entry.2)
    (report : ReportResult) :
    Adds discover (entireFrom dat read ignored fuel devs report)
      (entireDetermining discover dat read ignored fuel devs report) fun a ds =>
        Recorded dat read ignored ∅ report a.2 ds := by
  induction devs generalizing report with
  | nil => exact Adds.pure (Recorded.refl report)
  | cons entry rest ih =>
    obtain ⟨name, dev⟩ := entry
    obtain ⟨here, later⟩ := List.forall_mem_cons.mp listed
    obtain rfl := dat.named name dev here
    unfold entireFrom entireDetermining
    apply Adds.bind (perform_adds answers fuel dev report here)
    intro a ds tested
    obtain ⟨rc, middle⟩ := a
    cases rc with
    | succ => exact (ih later middle).mono fun a more => tested.1.trans
    | error =>
      apply Adds.pure
      rw [List.append_nil]
      exact tested.1

theorem resolveAll_ok {Journal : Type} {resolve : String → Journal → Except Exn Unit × Journal}
    {devs : List (String × Device)}
    (caught : ∀ entry ∈ devs, ∀ journal e, (resolve entry.2.name journal).1 = .error e → ∃ text, e = .runtimeError text)
    (journal : Journal) :
    resolveAll resolve devs journal =
      (.ok (), devs.foldl (fun journal entry => (resolve entry.2.name journal).2) journal) := by
  induction devs generalizing journal with
  | nil => rfl
  | cons entry rest ih =>
    obtain ⟨name, dev⟩ := entry
    obtain ⟨here, caught⟩ := List.forall_mem_cons.mp caught
    rw [List.foldl_cons, ← ih caught, resolveAll]
    cases run : resolve dev.name journal with
    | mk result resolved =>
      cases result with
      | ok _ => rfl
      | error e =>
        obtain ⟨text, rfl⟩ := here journal e (congrArg Prod.fst run)
        rfl

theorem performEntireTreeDetermining_eq {Journal : Type} {resolve : String → Journal → Except Exn Unit × Journal}
    {journal journal' : Journal} (resolved : resolveAll resolve dat.devices.toList journal = (.ok (), journal'))
    (fuel : Nat) (report : ReportResult) :
    performEntireTreeDetermining discover resolve dat read ignored fuel journal report =
      (entireDetermining discover dat read ignored fuel dat.devices.toList report, journal') := by
  unfold performEntireTreeDetermining
  rw [resolved]
  rfl

end

/-- Event determination changes nothing of a test of the table. The failures of every device that is tested are
discovered once, in order, and nothing else is. -/
theorem entireDetermining_discovers (dat : DAT) (read : Oracle) (ignored : List String) {Item : Type}
    {discover : DataAccessor → Except Exn (Option Item)} (answers : AnswersAll dat ignored discover) {fuel : Nat}
    {rc : RcCode} {report : ReportResult}
    (run : performEntireTree dat read ignored fuel ∅ = some (.ok (rc, report))) :
    ∃ ds : List Determination,
      (∀ queue, (entireDetermining discover dat read ignored fuel dat.devices.toList ∅).run queue =
        some (.ok ((rc, report), queue ++ ds.filterMap (pushed discover)))) ∧
      (∀ det ∈ ds, det.device ∈ report ∧ IsOfPoint dat ignored det) ∧
      ∀ (d : String) (entry : DeviceResult), report[d]? = some entry → ∃ dev, dat.devices[d]? = some dev ∧
        (¬ Bad dat ignored d → Discovers read ignored dev entry ds) := by
  have listed : ∀ entry ∈ dat.devices.toList, dat.devices[entry.1]? = some entry.2 :=
    fun entry => Std.TreeMap.mem_toList_iff_getElem?_eq_some.mp
  obtain ⟨ds, recorded, same⟩ := entireFrom_adds answers fuel listed ∅ (rc, report) run
  refine ⟨ds, same, fun det member => ?_, ?_⟩
  · exact ⟨(recorded.fresh det member (Set.notMem_empty _)).2, recorded.points det member⟩
  · exact fun d entry found => recorded.entries d Std.TreeMap.not_mem_emptyc entry found

end MonitorEventing.Selftest
