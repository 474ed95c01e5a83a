import MonitorEventing.Dat.Device

/-!
# The self-test

`Selftest::perform` without event determination: a recursion over DEVICE test points in which the
report is the set of visited devices. The depth of the recursion is a fuel argument, `none` where it
runs out.
-/

namespace MonitorEventing.Selftest
open Accessor Dat

structure TestPointResult where
  isTypeDevice : Bool
  severity : Severity
  targetName : String
  valRead : String
  valExpected : String
  result : Bool
  deriving DecidableEq, Repr

structure DeviceResult where
  layer : StringMap (List TestPointResult) := ∅

abbrev ReportResult : Type := StringMap DeviceResult

inductive RcCode where
  | succ | error
  deriving DecidableEq, Repr

/-- The data of an accessor after it was read for a device, empty where the read fails. -/
abbrev Oracle : Type := DataAccessor → String → PropertyValue

/-! ### Results -/

def isTpFailed (tp : TestPointResult) : Bool := if tp.isTypeDevice then false else !tp.result

def evaluateDevice (deviceResult : DeviceResult) : Bool :=
  deviceResult.layer.toList.all fun layer => !layer.2.any isTpFailed

/-- The severity the loops of `getDeviceTestResult` end with. -/
def worstSeverity (deviceResult : DeviceResult) : Severity :=
  (deviceResult.layer.toList.flatMap (·.2)).foldl (fun worst tp =>
    if tp.result || tp.isTypeDevice then worst
    else if tp.severity.value > worst.value then tp.severity else worst) .ok

def getDeviceTestResult (deviceResult : DeviceResult) : String := (worstSeverity deviceResult).string

def isDeviceCached (devName : String) (reportRes : ReportResult) : Bool := decide (devName ∈ reportRes)

def isDeviceRegular (dev : Device) : Bool := dev.getType = .regular

def shouldSkip (dev : Device) : Bool := !isDeviceRegular dev && !dev.hasTestpoints

def propertyValueResultFail : PropertyValue := .propertyString "Fail"

def fillTpRes (expVal : String) (readVal : PropertyValue) (name : String) (severity : Severity) (isDevice : Bool) :
    TestPointResult where
  targetName := name
  valExpected := expVal
  severity := severity
  isTypeDevice := isDevice
  valRead := if readVal.empty then "Error - TP read failed." else readVal.strValue
  result := if readVal.empty then false else if expVal = "" then true else readVal.eq (.ofString expVal)

/-- The result of a DEVICE test point: a device that evaluates well is taken to read as expected. -/
def nestedTpRes (testPoint : TestPoint) (devName : String) (devEvalRes : Bool) : TestPointResult :=
  let readVal := if devEvalRes then .ofString testPoint.expectedValue else propertyValueResultFail
  fillTpRes testPoint.expectedValue readVal devName testPoint.severity true

/-- The result of any other test point. -/
def ownTpRes (read : Oracle) (device name : String) (testPoint : TestPoint) : TestPointResult :=
  fillTpRes testPoint.expectedValue (read testPoint.accessor device) name testPoint.severity false

/-! ### The recursion -/

/-- A call that may run out of fuel or throw. -/
abbrev Run (α : Type) : Type := ExceptT Exn Option α

def Run.ofExcept {α : Type} (x : Except Exn α) : Run α := ExceptT.mk (some x)

/-- `operator[]` of the report, read for its effect. -/
def touch (reportRes : ReportResult) (devName : String) : ReportResult :=
  if devName ∈ reportRes then reportRes else reportRes.insert devName {}

def testNested (nested : Device → ReportResult → Run (RcCode × ReportResult)) (devName : String) (devNested : Device)
    (reportRes : ReportResult) : Run (RcCode × ReportResult) :=
  if isDeviceCached devName reportRes then pure (.succ, reportRes) else nested devNested reportRes

def evaluateNested (nested : Device → ReportResult → Run (RcCode × ReportResult)) (devName : String)
    (devNested : Device) (reportRes : ReportResult) : Run (Bool × ReportResult) := do
  let (selftestRes, reportRes) ← testNested nested devName devNested reportRes
  if selftestRes = .succ then
    pure (evaluateDevice (reportRes.getD devName {}), touch reportRes devName)
  else pure (false, reportRes)

/-- The loop over the test points of a layer. Results are inserted at the front. -/
def testPointsFrom (nested : Device → ReportResult → Run (RcCode × ReportResult)) (dat : DAT) (read : Oracle)
    (dev : Device) : List (String × TestPoint) → ReportResult → List TestPointResult →
      Run (RcCode × ReportResult × List TestPointResult)
  | [], reportRes, layerReport => pure (.succ, reportRes, layerReport)
  | (name, testPoint) :: rest, reportRes, layerReport =>
    if testPoint.accessor.isValidDeviceAccessor then do
      let devName ← Run.ofExcept testPoint.deviceName
      match dat.devices[devName]? with
      | none => pure (.error, reportRes, layerReport)
      | some devNested => do
        let (devEvalRes, reportRes) ← evaluateNested nested devName devNested reportRes
        testPointsFrom nested dat read dev rest reportRes (nestedTpRes testPoint devName devEvalRes :: layerReport)
    else testPointsFrom nested dat read dev rest reportRes (ownTpRes read dev.name name testPoint :: layerReport)

/-- The loop over the layers. An ignored layer is reported empty. -/
def layersFrom (nested : Device → ReportResult → Run (RcCode × ReportResult)) (dat : DAT) (read : Oracle)
    (layersToIgnore : List String) (dev : Device) : List (String × TestLayer) → ReportResult → DeviceResult →
      Run (RcCode × ReportResult × DeviceResult)
  | [], reportRes, deviceReport => pure (.succ, reportRes, deviceReport)
  | (name, layer) :: rest, reportRes, deviceReport =>
    if layersToIgnore.contains name then
      layersFrom nested dat read layersToIgnore dev rest reportRes ⟨deviceReport.layer.insert name []⟩
    else do
      let (rc, reportRes, layerReport) ← testPointsFrom nested dat read dev layer.testPoints.toList reportRes []
      match rc with
      | .succ => layersFrom nested dat read layersToIgnore dev rest reportRes ⟨deviceReport.layer.insert name layerReport⟩
      | .error => pure (.error, reportRes, deviceReport)

/-- `perform`. The device is in the report, without layers, while its test points are visited. -/
def perform (dat : DAT) (read : Oracle) (layersToIgnore : List String) :
    Nat → Device → ReportResult → Run (RcCode × ReportResult)
  | 0, _, _ => none
  | fuel + 1, dev, reportRes =>
    if isDeviceCached dev.name reportRes || shouldSkip dev then pure (.succ, reportRes)
    else do
      let (rc, reportRes, deviceReport) ← layersFrom (perform dat read layersToIgnore fuel) dat read layersToIgnore
        dev dev.test.toList (reportRes.insert dev.name {}) {}
      match rc with
      | .succ => pure (.succ, reportRes.insert dev.name deviceReport)
      | .error => pure (.error, reportRes)

/-! ### Small facts -/

theorem Run.bind_of_eq {α β : Type} {x : Run α} {a : α} (h : x = some (.ok a)) (f : α → Run β) : x >>= f = f a := by
  rw [h]
  rfl

theorem Run.bind_ofExcept {α β : Type} {x : Except Exn α} {a : α} (h : x = .ok a) (f : α → Run β) :
    Run.ofExcept x >>= f = f a :=
  Run.bind_of_eq (congrArg some h) f

def passes (read : Oracle) (device : String) (tp : TestPoint) : Bool :=
  !(read tp.accessor device).empty &&
    (tp.expectedValue = "" || (read tp.accessor device).eq (.ofString tp.expectedValue))

theorem isTpFailed_ownTpRes (read : Oracle) (device name : String) (tp : TestPoint) :
    isTpFailed (ownTpRes read device name tp) = !passes read device tp := by
  show (!(ownTpRes _ _ _ _).result) = _
  unfold ownTpRes fillTpRes passes
  by_cases failed : (read tp.accessor device).empty = true
  · simp [failed]
  · by_cases blank : tp.expectedValue = ""
    · simp [failed, blank]
    · simp [failed, blank]

theorem nestedTpRes_result {tp : TestPoint} (expects : tp.expectedValue ≠ "") (notFail : tp.expectedValue ≠ "Fail")
    (devName : String) (devEvalRes : Bool) : (nestedTpRes tp devName devEvalRes).result = devEvalRes := by
  unfold nestedTpRes fillTpRes
  cases devEvalRes with
  | true => simp [expects, PropertyValue.ofString_not_empty, PropertyValue.eq_refl]
  | false =>
    have unequal : propertyValueResultFail.eq (.ofString tp.expectedValue) = false := by
      rw [propertyValueResultFail, PropertyValue.propertyString_eq, PropertyValue.ofString_strValue]
      exact beq_false_of_ne (Ne.symm notFail)
    simp [expects, unequal]

theorem evaluateDevice_iff (deviceResult : DeviceResult) :
    evaluateDevice deviceResult = true ↔
      ∀ (layerName : String), ∀ tp ∈ deviceResult.layer.getD layerName [], isTpFailed tp = false := by
  rw [evaluateDevice, List.all_eq_true]
  constructor
  · intro all layerName tp member
    rw [Std.TreeMap.getD_eq_getD_getElem?] at member
    cases read : deviceResult.layer[layerName]? with
    | none =>
      rw [read] at member
      cases member
    | some results =>
      rw [read] at member
      have clean := all (layerName, results) (Std.TreeMap.mem_toList_iff_getElem?_eq_some.mpr read)
      rw [Bool.not_eq_true', List.any_eq_false] at clean
      simpa using clean tp member
  · intro clean layer member
    have read := Std.TreeMap.mem_toList_iff_getElem?_eq_some.mp member
    rw [Bool.not_eq_true', List.any_eq_false]
    intro tp inside
    have found : tp ∈ deviceResult.layer.getD layer.1 [] := by
      rw [Std.TreeMap.getD_eq_getD_getElem?, read]
      exact inside
    simpa using clean layer.1 tp found

theorem shouldSkip_iff (dev : Device) : shouldSkip dev = true ↔ dev.type ≠ .regular ∧ dev.hasTestpoints = false := by
  have regular : isDeviceRegular dev = true ↔ dev.type = .regular := decide_eq_true_iff
  rw [Ne, ← regular, shouldSkip]
  cases isDeviceRegular dev <;> cases dev.hasTestpoints <;> simp

theorem shouldSkip_regular {dev : Device} (regular : dev.type = .regular) : shouldSkip dev = false :=
  Bool.eq_false_of_not_eq_true fun skip => ((shouldSkip_iff dev).mp skip).1 regular

theorem shouldSkip_of_empty {dev : Device} (special : dev.type ≠ .regular) (empty : ¬ HasPoints dev.test) :
    shouldSkip dev = true := by
  refine (shouldSkip_iff dev).mpr ⟨special, Bool.eq_false_of_not_eq_true fun counted => ?_⟩
  exact empty (Device.hasPoints_of_hasTestpoints counted)

/-- The layers of test points that a test goes through. -/
def testedLayers (dev : Device) : StringMap TestLayer := if shouldSkip dev then ∅ else dev.test

theorem testedLayers_visited {dev : Device} (visited : shouldSkip dev = false) : testedLayers dev = dev.test := by
  rw [testedLayers, visited]
  rfl

theorem testedLayers_skipped {dev : Device} (skip : shouldSkip dev = true) : testedLayers dev = ∅ := if_pos skip

theorem testedLayers_subset {dev : Device} {layerName : String} {layer : TestLayer}
    (here : (testedLayers dev)[layerName]? = some layer) : dev.test[layerName]? = some layer := by
  unfold testedLayers at here
  split at here
  · simp at here
  · exact here

/-- The device has test points, and is skipped as one that has none: their number came back to zero. -/
def Overlooked (dev : Device) : Prop := shouldSkip dev = true ∧ HasPoints dev.test

theorem testedLayers_of_not_overlooked {dev : Device} (seen : ¬ Overlooked dev) {layerName : String} {layer : TestLayer}
    (here : dev.test[layerName]? = some layer) {name : String} {tp : TestPoint}
    (point : layer.testPoints[name]? = some tp) : (testedLayers dev)[layerName]? = some layer := by
  by_cases skip : shouldSkip dev = true
  · exact absurd ⟨skip, layerName, layer, name, tp, here, point⟩ seen
  · rw [testedLayers_visited (Bool.eq_false_of_not_eq_true skip)]
    exact here

theorem perform_skip {dat : DAT} {read : Oracle} {layersToIgnore : List String} {dev : Device}
    (skip : shouldSkip dev = true) (n : Nat) (reportRes : ReportResult) :
    perform dat read layersToIgnore (n + 1) dev reportRes = some (.ok (.succ, reportRes)) :=
  if_pos (by rw [skip, Bool.or_true])

/-! ### More fuel -/

theorem Run.bind_mono {α β : Type} {x x' : Run α} {f f' : α → Run β} {y : Except Exn β}
    (left : ∀ r, x = some r → x' = some r) (right : ∀ a r, f a = some r → f' a = some r)
    (h : x >>= f = some y) : x' >>= f' = some y := by
  cases run : x with
  | none =>
    rw [run] at h
    cases h
  | some result =>
    rw [run] at h
    rw [left result run]
    cases result with
    | error e => exact h
    | ok a => exact right a y h

section
variable {nested nested' : Device → ReportResult → Run (RcCode × ReportResult)}
  (more : ∀ dev report result, nested dev report = some result → nested' dev report = some result)
include more

theorem evaluateNested_mono {devName : String} {devNested : Device} {reportRes : ReportResult}
    {result : Except Exn (Bool × ReportResult)} (h : evaluateNested nested devName devNested reportRes = some result) :
    evaluateNested nested' devName devNested reportRes = some result := by
  unfold evaluateNested at h ⊢
  apply Run.bind_mono _ (fun a r same => same) h
  intro r tested
  unfold testNested at tested ⊢
  by_cases cached : isDeviceCached devName reportRes = true
  · rw [if_pos cached] at tested ⊢
    exact tested
  · rw [if_neg cached] at tested ⊢
    exact more _ _ _ tested

theorem testPointsFrom_mono {dat : DAT} {read : Oracle} {dev : Device} {points : List (String × TestPoint)}
    {reportRes : ReportResult} {layerReport : List TestPointResult}
    {result : Except Exn (RcCode × ReportResult × List TestPointResult)}
    (h : testPointsFrom nested dat read dev points reportRes layerReport = some result) :
    testPointsFrom nested' dat read dev points reportRes layerReport = some result := by
  induction points generalizing reportRes layerReport result with
  | nil => exact h
  | cons point rest ih =>
    obtain ⟨name, tp⟩ := point
    unfold testPointsFrom at h ⊢
    by_cases isDevice : tp.accessor.isValidDeviceAccessor = true
    · rw [if_pos isDevice] at h ⊢
      apply Run.bind_mono (fun r same => same) _ h
      intro devName r found
      cases known : dat.devices[devName]? with
      | none =>
        rw [known] at found
        exact found
      | some devNested =>
        rw [known] at found
        apply Run.bind_mono (fun r => evaluateNested_mono more) _ found
        exact fun a r => ih
    · rw [if_neg isDevice] at h ⊢
      exact ih h

theorem layersFrom_mono {dat : DAT} {read : Oracle} {layersToIgnore : List String} {dev : Device}
    {layers : List (String × TestLayer)} {reportRes : ReportResult} {deviceReport : DeviceResult}
    {result : Except Exn (RcCode × ReportResult × DeviceResult)}
    (h : layersFrom nested dat read layersToIgnore dev layers reportRes deviceReport = some result) :
    layersFrom nested' dat read layersToIgnore dev layers reportRes deviceReport = some result := by
  induction layers generalizing reportRes deviceReport result with
  | nil => exact h
  | cons layer rest ih =>
    obtain ⟨name, layer⟩ := layer
    unfold layersFrom at h ⊢
    by_cases skipped : layersToIgnore.contains name = true
    · rw [if_pos skipped] at h ⊢
      exact ih h
    · rw [if_neg skipped] at h ⊢
      apply Run.bind_mono (fun r => testPointsFrom_mono more) _ h
      intro a r found
      obtain ⟨rc, reportRes, layerReport⟩ := a
      cases rc with
      | succ => exact ih found
      | error => exact found

end

theorem perform_mono {dat : DAT} {read : Oracle} {layersToIgnore : List String} {fuel fuel' : Nat} (le : fuel ≤ fuel')
    {dev : Device} {reportRes : ReportResult} {result : Except Exn (RcCode × ReportResult)}
    (h : perform dat read layersToIgnore fuel dev reportRes = some result) :
    perform dat read layersToIgnore fuel' dev reportRes = some result := by
  induction fuel generalizing fuel' dev reportRes result with
  | zero => cases h
  | succ fuel ih =>
    obtain ⟨fuel', rfl⟩ : ∃ n, fuel' = n + 1 := ⟨fuel' - 1, by omega⟩
    unfold perform at h ⊢
    by_cases done : (isDeviceCached dev.name reportRes || shouldSkip dev) = true
    · rw [if_pos done] at h ⊢
      exact h
    · rw [if_neg done] at h ⊢
      apply Run.bind_mono _ (fun a r same => same) h
      intro r run
      exact layersFrom_mono (fun dev report result => ih (by omega)) run

end MonitorEventing.Selftest
