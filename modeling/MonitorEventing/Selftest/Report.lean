import MonitorEventing.Selftest.Perform

/-!
# The report of a self-test

`Report::generateReport`: the results of a self-test as an `ordered_json`, and two counters. The texts of the
clock and the firmware version come from outside.
-/

namespace MonitorEventing

namespace Json

/-- As `putMember`, of an `ordered_json`: a new key comes last. -/
def putLast : List (String × Json) → String → Json → List (String × Json)
  | [], key, value => [(key, value)]
  | (other, old) :: rest, key, value =>
    if other = key then (key, value) :: rest else (other, old) :: putLast rest key value

def withLast : Json → String → Json → Json
  | object members, key, value => object (putLast members key value)
  | _, key, value => object [(key, value)]

/-- `+=`. -/
def pushBack : Json → Json → Except Exn Json
  | array elems, value => .ok (array (elems ++ [value]))
  | null, value => .ok (array [value])
  | _, _ => .error .typeError

/-- What a statement does with the value it gets to by `operator[]`, key by key. -/
def updateAt (f : Json → Except Exn Json) : List String → Json → Except Exn Json
  | [], j => f j
  | key :: rest, j => do
    let slot ← j.memberOf key
    let slot ← updateAt f rest slot
    pure (j.withLast key slot)

def assignAt (j : Json) (keys : List String) (value : Json) : Except Exn Json := updateAt (fun _ => pure value) keys j

def appendAt (j : Json) (keys : List String) (value : Json) : Except Exn Json :=
  updateAt (fun slot => slot.pushBack value) keys j

theorem updateAt_nil (f : Json → Except Exn Json) (j : Json) : updateAt f [] j = f j := rfl

theorem updateAt_null (f : Json → Except Exn Json) (key : String) (keys : List String) :
    updateAt f (key :: keys) null = (updateAt f keys null).map fun slot => object [(key, slot)] := by
  simp only [updateAt, memberOf, bind, Except.bind, withLast]
  cases updateAt f keys null <;> rfl

theorem updateAt_object (f : Json → Except Exn Json) (key : String) (keys : List String)
    (members : List (String × Json)) :
    updateAt f (key :: keys) (object members) =
      (updateAt f keys ((members.lookup key).getD null)).map fun slot => object (putLast members key slot) := by
  simp only [updateAt, memberOf, bind, Except.bind, withLast]
  cases updateAt f keys ((members.lookup key).getD null) <;> rfl

theorem lookup_putLast (members : List (String × Json)) (key : String) (value : Json) (other : String) :
    (putLast members key value).lookup other = if other = key then some value else members.lookup other := by
  induction members with
  | nil => simp [putLast, lookup_cons_if, eq_comm]
  | cons entry rest ih =>
    obtain ⟨name, old⟩ := entry
    rw [putLast]
    split
    · rename_i here
      rw [here]
      exact lookup_overwritten key old value rest other
    · rename_i apart
      exact lookup_behind apart old value ih

theorem putLast_fresh {members : List (String × Json)} {key : String} (fresh : key ∉ members.map (·.1)) (value : Json) :
    putLast members key value = members ++ [(key, value)] := by
  induction members with
  | nil => rfl
  | cons entry rest ih =>
    rw [List.map_cons, List.mem_cons, not_or] at fresh
    rw [putLast, if_neg (Ne.symm fresh.1), ih fresh.2]
    rfl

theorem lookup_last {members : List (String × Json)} {key : String} (fresh : key ∉ members.map (·.1)) (value : Json) :
    (members ++ [(key, value)]).lookup key = some value := by
  rw [← putLast_fresh fresh, lookup_putLast, if_pos rfl]

theorem putLast_last {members : List (String × Json)} {key : String} (fresh : key ∉ members.map (·.1))
    (old value : Json) : putLast (members ++ [(key, old)]) key value = members ++ [(key, value)] := by
  induction members with
  | nil => simp [putLast]
  | cons entry rest ih =>
    rw [List.map_cons, List.mem_cons, not_or] at fresh
    rw [List.cons_append, putLast, if_neg (Ne.symm fresh.1), ih fresh.2]
    rfl

theorem putLast_twice (members : List (String × Json)) (key : String) (first second : Json) :
    putLast (putLast members key first) key second = putLast members key second := by
  induction members with
  | nil => simp [putLast]
  | cons entry rest ih =>
    obtain ⟨name, old⟩ := entry
    rw [putLast]
    split
    · rename_i here
      simp [putLast, here]
    · rename_i other
      simp [putLast, other, ih]

/-- The value `operator[]` gets to, key by key. -/
def getAt : List String → Json → Option Json
  | [], j => some j
  | key :: rest, j => (j.get? key).bind (getAt rest)

end Json

namespace Selftest

def layerToKeyLut : List (String × String) :=
  [("power_rail", "power-rail-status"), ("erot_control", "erot-control-status"), ("pin_status", "pin-status"),
    ("interface_status", "interface-status"), ("firmware_status", "firmware-status"),
    ("protocol_status", "protocol-status"), ("data_dump", "data-dump")]

def reportResultPass : String := "Pass"
def reportResultFail : String := "Fail"

def resStr (result : Bool) : String := if result then reportResultPass else reportResultFail

/-- `getFwVersionClbk` is what the callback returns or throws, `none` where there is no callback. -/
structure Report where
  report : Json := .null
  tpTotal : UInt32 := 0
  tpFailed : UInt32 := 0
  getFwVersionClbk : Option (Except Exn String)

namespace Report

def newTp (tp : TestPointResult) : Json :=
  let device : List (String × Json) := if tp.isTypeDevice then [("device", .boolean true)] else []
  let expected : List (String × Json) :=
    if tp.valExpected.length ≠ 0 then
      [("value-expected", .string tp.valExpected), ("result", .string (resStr tp.result))]
    else []
  .object (("name", .string tp.targetName) :: device ++ ("value", .string tp.valRead) :: expected)

def count (r : Report) (tp : TestPointResult) : Report :=
  { r with tpTotal := r.tpTotal + 1, tpFailed := if tp.result then r.tpFailed else r.tpFailed + 1 }

/-- The loop over the test points of a layer. -/
def testPointsFrom (layerKey : String) :
    List TestPointResult → Report → Bool → Json → Except Exn (Report × Bool × Json)
  | [], r, layerPassOrFail, jdev => pure (r, layerPassOrFail, jdev)
  | tp :: rest, r, layerPassOrFail, jdev => do
    let jdev ← jdev.appendAt [layerKey, "test-points"] (newTp tp)
    testPointsFrom layerKey rest (r.count tp) (layerPassOrFail && tp.result) jdev

def processLayer (r : Report) (jdev : Json) (layerName : String) (testpoints : List TestPointResult) :
    Except Exn (Bool × Report × Json) :=
  match layerToKeyLut.lookup layerName with
  | none => pure (false, r, jdev)
  | some layerKey => do
    let jdev ← jdev.assignAt [layerKey, "test-points"] (.array [])
    let (r, layerPassOrFail, jdev) ← testPointsFrom layerKey testpoints r true jdev
    let jdev ← jdev.assignAt [layerKey, "result"] (.string (resStr layerPassOrFail))
    pure (true, r, jdev)

/-- The loop over the layers of a device, without the one that is kept for the end. -/
def layersFrom : List (String × List TestPointResult) → Report → Json → Except Exn (Bool × Report × Json)
  | [], r, jdev => pure (true, r, jdev)
  | (layerName, testpoints) :: rest, r, jdev =>
    if layerName = "data_dump" then layersFrom rest r jdev
    else do
      let (known, r, jdev) ← processLayer r jdev layerName testpoints
      if known then layersFrom rest r jdev else pure (false, r, jdev)

/-- The body of the loop over the devices. -/
def processDevice (currentTimestamp : String) (r : Report) (name : String) (dev : DeviceResult) :
    Except Exn (Bool × Report × Json) := do
  let jdev ← Json.null.assignAt ["device-name"] (.string name)
  let jdev ← jdev.assignAt ["timestamp"] (.string currentTimestamp)
  let (known, r, jdev) ← layersFrom dev.layer.toList r jdev
  if known then
    match dev.layer["data_dump"]? with
    | some testpoints => processLayer r jdev "data_dump" testpoints
    | none => pure (true, r, jdev)
  else pure (false, r, jdev)

def devicesFrom (currentTimestamp : String) : List (String × DeviceResult) → Report → Except Exn (Bool × Report)
  | [], r => pure (true, r)
  | (name, dev) :: rest, r => do
    let (known, r, jdev) ← processDevice currentTimestamp r name dev
    if known then do
      let report ← r.report.appendAt ["tests"] jdev
      devicesFrom currentTimestamp rest { r with report }
    else pure (false, r)

def fwVersion (r : Report) : Except Exn String := r.getFwVersionClbk.getD (pure "Reading fw version disabled.")

def writeSummaryHeader (timestamp : String) (r : Report) : Except Exn Report := do
  let fwVersion ← r.fwVersion
  let report ← r.report.assignAt ["header", "name"] (.string "Self test report")
  let report ← report.assignAt ["header", "version"] (.string "1.2")
  let report ← report.assignAt ["header", "HMC-version"] (.string fwVersion)
  let report ← report.assignAt ["header", "timestamp"] (.string timestamp)
  let report ← report.assignAt ["header", "summary", "test-case-total"] (.unsigned r.tpTotal.toNat)
  let report ← report.assignAt ["header", "summary", "test-case-failed"] (.unsigned r.tpFailed.toNat)
  pure { r with report }

/-- The clock is read at the start and for the header. -/
def generateReport (currentTimestamp headerTimestamp : String) (r : Report) (reportRes : ReportResult) :
    Except Exn (Bool × Report) := do
  let report ← r.report.assignAt ["header"] (.object [])
  let report ← report.assignAt ["tests"] (.array [])
  let (known, r) ← devicesFrom currentTimestamp reportRes.toList { r with report, tpTotal := 0, tpFailed := 0 }
  if known then do
    let r ← r.writeSummaryHeader headerTimestamp
    pure (true, r)
  else pure (false, r)

/-! ### Layers -/

def counted (r : Report) (testpoints : List TestPointResult) : Report := testpoints.foldl count r

def Known (layerName : String) : Prop := ∃ layerKey, layerToKeyLut.lookup layerName = some layerKey

instance (layerName : String) : Decidable (Known layerName) :=
  decidable_of_iff ((layerToKeyLut.lookup layerName).isSome = true) Option.isSome_iff_exists

def layerKey (layerName : String) : String := (layerToKeyLut.lookup layerName).getD ""

/-- A layer in the document. -/
def layerJson (testpoints : List TestPointResult) : Json :=
  .object [("test-points", .array (testpoints.map newTp)),
    ("result", .string (resStr (testpoints.all fun tp => tp.result)))]

def layerEntry (layer : String × List TestPointResult) : String × Json := (layerKey layer.1, layerJson layer.2)

theorem lookup_layerKey {layerName : String} (known : Known layerName) :
    layerToKeyLut.lookup layerName = some (layerKey layerName) := by
  obtain ⟨key, read⟩ := known
  rw [layerKey, read]
  rfl

theorem layerKey_mem {layerName : String} (known : Known layerName) :
    (layerName, layerKey layerName) ∈ layerToKeyLut := by
  obtain ⟨before, after, split, -⟩ := List.lookup_eq_some_iff.mp (lookup_layerKey known)
  rw [split]
  exact List.mem_append_right _ List.mem_cons_self

theorem layerKey_inj {first second : String} (knownFirst : Known first) (knownSecond : Known second)
    (same : layerKey first = layerKey second) : first = second := by
  have distinct : ∀ entry ∈ layerToKeyLut, ∀ other ∈ layerToKeyLut, entry.2 = other.2 → entry.1 = other.1 := by decide
  exact distinct _ (layerKey_mem knownFirst) _ (layerKey_mem knownSecond) same

theorem layerKey_ne {layerName : String} (known : Known layerName) :
    layerKey layerName ≠ "device-name" ∧ layerKey layerName ≠ "timestamp" := by
  have others : ∀ entry ∈ layerToKeyLut, entry.2 ≠ "device-name" ∧ entry.2 ≠ "timestamp" := by decide
  exact others _ (layerKey_mem known)

theorem testPointsFrom_ok {front : List (String × Json)} {key : String} (fresh : key ∉ front.map (·.1))
    (testpoints : List TestPointResult) (r : Report) (pass : Bool) (done : List Json) :
    testPointsFrom key testpoints r pass (.object (front ++ [(key, .object [("test-points", .array done)])])) =
      .ok (r.counted testpoints, pass && testpoints.all (fun tp => tp.result),
        .object (front ++ [(key, .object [("test-points", .array (done ++ testpoints.map newTp))])])) := by
  induction testpoints generalizing r pass done with
  | nil => simp [testPointsFrom, counted, pure, Except.pure]
  | cons tp rest ih =>
    have written : (Json.object (front ++ [(key, .object [("test-points", .array done)])])).appendAt
        [key, "test-points"] (newTp tp) =
        .ok (.object (front ++ [(key, .object [("test-points", .array (done ++ [newTp tp]))])])) := by
      rw [Json.appendAt, Json.updateAt_object, Json.lookup_last fresh, Option.getD_some, Json.updateAt_object]
      simp [Json.updateAt, Json.pushBack, Json.putLast, Json.putLast_last fresh, Except.map]
    rw [testPointsFrom, written]
    simp only [bind, Except.bind, ih]
    simp [counted, Bool.and_assoc]

theorem processLayer_ok {front : List (String × Json)} {layerName : String} (known : Known layerName)
    (fresh : layerKey layerName ∉ front.map (·.1)) (r : Report) (testpoints : List TestPointResult) :
    r.processLayer (.object front) layerName testpoints =
      .ok (true, r.counted testpoints, .object (front ++ [layerEntry (layerName, testpoints)])) := by
  have begun : (Json.object front).assignAt [layerKey layerName, "test-points"] (.array []) =
      .ok (.object (front ++ [(layerKey layerName, .object [("test-points", .array [])])])) := by
    rw [Json.assignAt, Json.updateAt_object, lookup_fresh fresh]
    simp [Json.updateAt, Json.memberOf, Json.withLast, Json.putLast_fresh fresh, bind, Except.bind, pure, Except.pure,
      Except.map]
  have ended : ∀ points text, (Json.object (front ++ [(layerKey layerName, .object [("test-points", points)])])).assignAt
      [layerKey layerName, "result"] text =
      .ok (.object (front ++ [(layerKey layerName, .object [("test-points", points), ("result", text)])])) := by
    intro points text
    rw [Json.assignAt, Json.updateAt_object, Json.lookup_last fresh, Option.getD_some, Json.updateAt_object]
    simp [Json.updateAt, Json.putLast, Json.putLast_last fresh, pure, Except.pure, Except.map]
  rw [processLayer, lookup_layerKey known]
  simp only [begun, bind, Except.bind, testPointsFrom_ok fresh, ended]
  simp [pure, Except.pure, layerEntry, layerJson]

/-- The layers before the last one, as the loop leaves them. -/
theorem layersFrom_ok (layers : List (String × List TestPointResult)) (distinct : (layers.map (·.1)).Nodup)
    (front : List (String × Json)) (fresh : ∀ layer ∈ layers, Known layer.1 → layerKey layer.1 ∉ front.map (·.1))
    (r : Report) :
    ∃ b r' jdev, layersFrom layers r (.object front) = .ok (b, r', jdev) ∧
      (b = true ↔ ∀ layer ∈ layers, Known layer.1) ∧
      (b = true → r' = r.counted ((layers.filter fun layer => layer.1 ≠ "data_dump").flatMap (·.2)) ∧
        jdev = .object (front ++ (layers.filter fun layer => layer.1 ≠ "data_dump").map layerEntry)) := by
  induction layers generalizing front r with
  | nil => exact ⟨true, r, .object front, rfl, by simp, by simp [counted]⟩
  | cons layer rest ih =>
    obtain ⟨name, testpoints⟩ := layer
    obtain ⟨once, distinct⟩ := List.nodup_cons.mp distinct
    obtain ⟨here, later⟩ := List.forall_mem_cons.mp fresh
    rw [layersFrom]
    by_cases dump : name = "data_dump"
    · obtain ⟨b, r', jdev, run, iff, result⟩ := ih distinct front later r
      refine ⟨b, r', jdev, by rw [if_pos dump, run], iff.trans ?_, by simpa [dump] using result⟩
      have known : Known name := by rw [dump]; decide
      simp [known]
    · rw [if_neg dump]
      by_cases known : Known name
      · have next : ∀ layer ∈ rest, Known layer.1 →
            layerKey layer.1 ∉ (front ++ [layerEntry (name, testpoints)]).map (·.1) := by
          intro layer member knownLayer inside
          rw [List.map_append, List.mem_append] at inside
          rcases inside with old | new
          · exact later layer member knownLayer old
          · have again : layer.1 ∈ rest.map (·.1) := List.mem_map_of_mem member
            rw [layerKey_inj knownLayer known (List.mem_singleton.mp new)] at again
            exact once again
        obtain ⟨b, r', jdev, run, iff, result⟩ := ih distinct _ next (r.counted testpoints)
        refine ⟨b, r', jdev, ?_, iff.trans (by simp [known]), fun all => ?_⟩
        · rw [processLayer_ok known (here known)]
          exact run
        · obtain ⟨counts, document⟩ := result all
          rw [counts, document]
          simp [dump, counted, List.foldl_append]
      · refine ⟨false, r, .object front, ?_, by simp [known], by simp⟩
        have missing : layerToKeyLut.lookup name = none :=
          Option.eq_none_iff_forall_ne_some.mpr fun key read => known ⟨key, read⟩
        rw [processLayer, missing]
        rfl

/-! ### Devices -/

/-- The layers of a device in the order of the document. -/
def deviceLayers (layers : StringMap (List TestPointResult)) : List (String × List TestPointResult) :=
  (layers.toList.filter fun layer => layer.1 ≠ "data_dump") ++
    (layers["data_dump"]?.map fun testpoints => ("data_dump", testpoints)).toList

def deviceTestPoints (dev : DeviceResult) : List TestPointResult := (deviceLayers dev.layer).flatMap (·.2)

def deviceJson (timestamp : String) (name : String) (dev : DeviceResult) : Json :=
  .object ([("device-name", .string name), ("timestamp", .string timestamp)] ++ (deviceLayers dev.layer).map layerEntry)

def AllKnown (dev : DeviceResult) : Prop := ∀ layer ∈ dev.layer.toList, Known layer.1

theorem deviceLayers_perm (layers : StringMap (List TestPointResult)) : (deviceLayers layers).Perm layers.toList := by
  have once : layers.toList.Nodup := List.Nodup.of_map _ (StringMap.names_nodup layers)
  have member : ∀ layer : String × List TestPointResult, layer ∈ layers.toList ↔ layers[layer.1]? = some layer.2 :=
    fun layer => Std.TreeMap.mem_toList_iff_getElem?_eq_some
  refine (List.perm_ext_iff_of_nodup ?_ once).mpr fun layer => ?_
  · refine List.Nodup.append (once.filter _) ?_ ?_
    · cases layers["data_dump"]? <;> simp
    · intro layer inside last
      have different := (List.mem_filter.mp inside).2
      obtain ⟨testpoints, -, rfl⟩ := Option.map_eq_some_iff.mp (Option.mem_toList.mp last)
      simp at different
  · obtain ⟨name, testpoints⟩ := layer
    rw [deviceLayers, List.mem_append, List.mem_filter, member, Option.mem_toList, Option.map_eq_some_iff]
    by_cases dump : name = "data_dump"
    · subst dump
      simp
    · simp [dump, Ne.symm dump]

theorem processDevice_ok (timestamp : String) (r : Report) (name : String) (dev : DeviceResult) :
    ∃ b r' jdev, processDevice timestamp r name dev = .ok (b, r', jdev) ∧ (b = true ↔ AllKnown dev) ∧
      (b = true → r' = r.counted (deviceTestPoints dev) ∧ jdev = deviceJson timestamp name dev) := by
  have front : ∀ key ∈ [("device-name", Json.string name), ("timestamp", Json.string timestamp)].map (·.1),
      key = "device-name" ∨ key = "timestamp" := by simp
  have fresh : ∀ layerName, Known layerName →
      layerKey layerName ∉ [("device-name", Json.string name), ("timestamp", Json.string timestamp)].map (·.1) := by
    intro layerName known inside
    obtain ⟨notName, notTimestamp⟩ := layerKey_ne known
    exact (front _ inside).elim notName notTimestamp
  obtain ⟨b, r', jdev, run, iff, result⟩ := layersFrom_ok dev.layer.toList (StringMap.names_nodup dev.layer) _
    (fun layer _ known => fresh layer.1 known) r
  have begun : processDevice timestamp r name dev = (layersFrom dev.layer.toList r
      (.object [("device-name", .string name), ("timestamp", .string timestamp)]) >>= fun out =>
        if out.1 then
          match dev.layer["data_dump"]? with
          | some testpoints => processLayer out.2.1 out.2.2 "data_dump" testpoints
          | none => pure (true, out.2.1, out.2.2)
        else pure (false, out.2.1, out.2.2)) := rfl
  rw [begun, run]
  cases b with
  | false => exact ⟨false, r', jdev, rfl, iff, by simp⟩
  | true =>
    obtain ⟨rfl, rfl⟩ := result rfl
    cases last : dev.layer["data_dump"]? with
    | none =>
      refine ⟨true, _, _, by simp only [bind, Except.bind, if_true]; rfl, iff, fun _ => ⟨?_, ?_⟩⟩
      · simp [deviceTestPoints, deviceLayers, last]
      · simp [deviceJson, deviceLayers, last]
    | some testpoints =>
      have known : Known "data_dump" := by decide
      have unused : layerKey "data_dump" ∉ ([("device-name", Json.string name), ("timestamp", Json.string timestamp)] ++
          (dev.layer.toList.filter fun layer => layer.1 ≠ "data_dump").map layerEntry).map (·.1) := by
        rw [List.map_append, List.mem_append, not_or]
        refine ⟨fresh _ known, fun inside => ?_⟩
        rw [List.map_map] at inside
        obtain ⟨layer, member, same⟩ := List.mem_map.mp inside
        obtain ⟨member, different⟩ := List.mem_filter.mp member
        exact of_decide_eq_true different (layerKey_inj (iff.mp rfl layer member) known same)
      refine ⟨true, _, _, by simp only [bind, Except.bind, if_true]; exact processLayer_ok known unused _ _, iff,
        fun _ => ⟨?_, ?_⟩⟩
      · simp [deviceTestPoints, deviceLayers, last, counted]
      · simp [deviceJson, deviceLayers, last]

/-! ### The whole report -/

/-- The document before its header is written. -/
def Draft (report : Json) (tests : List Json) : Prop :=
  ∃ members, report = .object members ∧ members.lookup "header" = some (.object []) ∧
    members.lookup "tests" = some (.array tests)

theorem counted_eq (r : Report) (testpoints : List TestPointResult) :
    r.counted testpoints = { r with
      tpTotal := r.tpTotal + .ofNat testpoints.length
      tpFailed := r.tpFailed + .ofNat (testpoints.countP fun tp => !tp.result) } := by
  induction testpoints generalizing r with
  | nil => simp [counted]
  | cons tp rest ih =>
    have step : r.counted (tp :: rest) = (r.count tp).counted rest := rfl
    rw [step, ih, count, List.length_cons, List.countP_cons]
    cases tp.result <;> simp [UInt32.ofNat_add, add_assoc, add_comm]

theorem counted_report (r : Report) (report : Json) (testpoints : List TestPointResult) :
    ({ r with report } : Report).counted testpoints = { r.counted testpoints with report } := by
  rw [counted_eq, counted_eq]

theorem devicesFrom_ok (timestamp : String) (devices : List (String × DeviceResult)) (r : Report) (tests : List Json)
    (draft : Draft r.report tests) :
    ∃ b r', devicesFrom timestamp devices r = .ok (b, r') ∧ (b = true ↔ ∀ dev ∈ devices, AllKnown dev.2) ∧
      (b = true → ∃ report, r' = { r.counted (devices.flatMap fun dev => deviceTestPoints dev.2) with report } ∧
        Draft report (tests ++ devices.map fun dev => deviceJson timestamp dev.1 dev.2)) := by
  induction devices generalizing r tests with
  | nil => exact ⟨true, r, rfl, by simp, fun _ => ⟨r.report, rfl, by simpa using draft⟩⟩
  | cons device rest ih =>
    obtain ⟨name, dev⟩ := device
    obtain ⟨b, r', jdev, run, iff, result⟩ := processDevice_ok timestamp r name dev
    rw [devicesFrom, run]
    cases b with
    | false =>
      have unknown : ¬ AllKnown dev := fun all => Bool.false_ne_true (iff.mpr all)
      exact ⟨false, r', rfl, by simp [unknown], by simp⟩
    | true =>
      obtain ⟨rfl, rfl⟩ := result rfl
      have known : AllKnown dev := iff.mp rfl
      obtain ⟨members, here, header, listed⟩ := draft
      have same : (r.counted (deviceTestPoints dev)).report = .object members := by rw [counted_eq, ← here]
      have written : (Json.object members).appendAt ["tests"] (deviceJson timestamp name dev) =
          .ok (.object (Json.putLast members "tests" (.array (tests ++ [deviceJson timestamp name dev])))) := by
        rw [Json.appendAt, Json.updateAt_object, listed]
        rfl
      have next : Draft (.object (Json.putLast members "tests" (.array (tests ++ [deviceJson timestamp name dev]))))
          (tests ++ [deviceJson timestamp name dev]) := by
        refine ⟨_, rfl, ?_, ?_⟩
        · rw [Json.lookup_putLast, if_neg (by decide), header]
        · rw [Json.lookup_putLast, if_pos rfl]
      simp only [bind, Except.bind, if_true, same, written]
      obtain ⟨b, r', run, iff, result⟩ := ih
        { r.counted (deviceTestPoints dev) with
          report := .object (Json.putLast members "tests" (.array (tests ++ [deviceJson timestamp name dev]))) } _ next
      refine ⟨b, r', run, iff.trans (by simp [known]), fun all => ?_⟩
      obtain ⟨report, rfl, draft⟩ := result all
      refine ⟨report, ?_, by simpa using draft⟩
      rw [counted_report]
      simp [counted, List.foldl_append]

/-- What `_report` can be: it starts as null and is an object from the first report on. -/
def Writable (report : Json) : Prop := report = .null ∨ ∃ members, report = .object members

theorem begin_ok {report : Json} (writable : Writable report) :
    ∃ begun, (do let report ← report.assignAt ["header"] (.object []); report.assignAt ["tests"] (.array [])) =
      Except.ok begun ∧ Draft begun [] := by
  have second : ∀ members : List (String × Json), members.lookup "header" = some (.object []) →
      ∃ begun, (Json.object members).assignAt ["tests"] (.array []) = .ok begun ∧ Draft begun [] := by
    intro members header
    refine ⟨.object (Json.putLast members "tests" (.array [])), ?_, _, rfl, ?_, ?_⟩
    · rw [Json.assignAt, Json.updateAt_object]
      rfl
    · rw [Json.lookup_putLast, if_neg (by decide), header]
    · rw [Json.lookup_putLast, if_pos rfl]
  rcases writable with rfl | ⟨members, rfl⟩
  · exact second [("header", .object [])] rfl
  · have first : (Json.object members).assignAt ["header"] (.object []) =
        .ok (.object (Json.putLast members "header" (.object []))) := by
      rw [Json.assignAt, Json.updateAt_object]
      rfl
    simp only [first, bind, Except.bind]
    exact second _ (by rw [Json.lookup_putLast, if_pos rfl])

def headerJson (version timestamp : String) (total failed : UInt32) : Json :=
  .object [("name", .string "Self test report"), ("version", .string "1.2"), ("HMC-version", .string version),
    ("timestamp", .string timestamp), ("summary", .object [("test-case-total", .unsigned total.toNat),
      ("test-case-failed", .unsigned failed.toNat)])]

theorem writeSummaryHeader_ok {r : Report} {version : String} (answers : r.fwVersion = .ok version) {tests : List Json}
    (draft : Draft r.report tests) (timestamp : String) :
    ∃ members, r.writeSummaryHeader timestamp = .ok { r with report := .object members } ∧
      members.lookup "header" = some (headerJson version timestamp r.tpTotal r.tpFailed) ∧
      members.lookup "tests" = some (.array tests) := by
  obtain ⟨members, here, header, listed⟩ := draft
  refine ⟨Json.putLast members "header" (headerJson version timestamp r.tpTotal r.tpFailed), ?_, ?_, ?_⟩
  · rw [writeSummaryHeader, answers, here]
    simp only [bind, Except.bind, Json.assignAt, Json.updateAt_object, Json.updateAt_nil, header,
      Json.lookup_putLast, Json.putLast_twice, if_true, Option.getD_some, Except.map, pure, Except.pure]
    simp [Json.putLast, headerJson, List.lookup, Json.updateAt_object, Json.updateAt_null, Json.updateAt_nil, Except.map,
      Json.lookup_putLast, Json.putLast_twice]
  · rw [Json.lookup_putLast, if_pos rfl]
  · rw [Json.lookup_putLast, if_neg (by decide), listed]

/-! ### What the document says -/

structure LayerReport (testpoints : List TestPointResult) (jlayer : Json) : Prop where
  failed : jlayer.get? "result" = some (.string "Fail") ↔ ∃ tp ∈ testpoints, tp.result = false
  passed : jlayer.get? "result" = some (.string "Pass") ↔ ∀ tp ∈ testpoints, tp.result = true
  points : ∃ elems, jlayer.get? "test-points" = some (.array elems) ∧ elems.length = testpoints.length

structure DeviceReport (name : String) (dev : DeviceResult) (jdev : Json) : Prop where
  name : jdev.get? "device-name" = some (.string name)
  unique : (jdev.items.map (·.1)).Nodup
  keys : ∀ key, key ∈ jdev.items.map (·.1) ↔
    key = "device-name" ∨ key = "timestamp" ∨ ∃ layer ∈ dev.layer, layerToKeyLut.lookup layer = some key
  layers : ∀ layer testpoints, dev.layer[layer]? = some testpoints →
    ∃ key jlayer, layerToKeyLut.lookup layer = some key ∧ jdev.get? key = some jlayer ∧ LayerReport testpoints jlayer
  last : "data_dump" ∈ dev.layer → (jdev.items.map (·.1)).getLast? = some "data-dump"

def allTestPoints (reportRes : ReportResult) : List TestPointResult :=
  reportRes.toList.flatMap fun dev => dev.2.layer.toList.flatMap (·.2)

structure Document (reportRes : ReportResult) (report : Json) : Prop where
  total : report.getAt ["header", "summary", "test-case-total"] = some (.unsigned (allTestPoints reportRes).length)
  failed : report.getAt ["header", "summary", "test-case-failed"] =
    some (.unsigned ((allTestPoints reportRes).countP fun tp => !tp.result))
  devices : ∃ tests, report.getAt ["tests"] = some (.array tests) ∧
    List.Forall₂ (fun dev jdev => DeviceReport dev.1 dev.2 jdev) reportRes.toList tests

theorem layerReport (testpoints : List TestPointResult) : LayerReport testpoints (layerJson testpoints) := by
  have result : (layerJson testpoints).get? "result" =
      some (.string (resStr (testpoints.all fun tp => tp.result))) := rfl
  refine ⟨?_, ?_, _, rfl, List.length_map ..⟩
  · rw [result, Option.some.injEq, Json.string.injEq]
    cases all : testpoints.all fun tp => tp.result with
    | true => simpa [resStr, reportResultPass] using List.all_eq_true.mp all
    | false => simpa [resStr, reportResultFail] using List.all_eq_false.mp all
  · rw [result, Option.some.injEq, Json.string.injEq]
    cases all : testpoints.all fun tp => tp.result with
    | true => simpa [resStr, reportResultPass] using List.all_eq_true.mp all
    | false => simpa [resStr, reportResultFail] using List.all_eq_false.mp all

theorem mem_deviceLayers {layers : StringMap (List TestPointResult)} {layer : String × List TestPointResult} :
    layer ∈ deviceLayers layers ↔ layers[layer.1]? = some layer.2 := by
  rw [(deviceLayers_perm layers).mem_iff]
  exact Std.TreeMap.mem_toList_iff_getElem?_eq_some

theorem deviceReport (timestamp name : String) (dev : DeviceResult) (known : AllKnown dev) :
    DeviceReport name dev (deviceJson timestamp name dev) := by
  have knownAt : ∀ layer ∈ deviceLayers dev.layer, Known layer.1 :=
    fun layer member => known layer ((deviceLayers_perm dev.layer).mem_iff.mp member)
  have names : ((deviceLayers dev.layer).map (·.1)).Nodup :=
    ((deviceLayers_perm dev.layer).map _).nodup_iff.mpr (StringMap.names_nodup dev.layer)
  have layerKeys : ((deviceLayers dev.layer).map layerEntry).map (·.1) =
      ((deviceLayers dev.layer).map (·.1)).map layerKey := by
    rw [List.map_map, List.map_map]
    rfl
  have items : (deviceJson timestamp name dev).items.map (·.1) =
      "device-name" :: "timestamp" :: ((deviceLayers dev.layer).map (·.1)).map layerKey := by
    rw [← layerKeys]
    rfl
  have knownName : ∀ layerName ∈ (deviceLayers dev.layer).map (·.1), Known layerName := by
    intro layerName member
    obtain ⟨layer, inside, rfl⟩ := List.mem_map.mp member
    exact knownAt layer inside
  have unique : ((deviceJson timestamp name dev).items.map (·.1)).Nodup := by
    rw [items, List.nodup_cons, List.nodup_cons, List.mem_cons, not_or]
    refine ⟨⟨by decide, fun inside => ?_⟩, fun inside => ?_, ?_⟩
    · obtain ⟨layerName, member, same⟩ := List.mem_map.mp inside
      exact (layerKey_ne (knownName layerName member)).1 same
    · obtain ⟨layerName, member, same⟩ := List.mem_map.mp inside
      exact (layerKey_ne (knownName layerName member)).2 same
    · exact names.map_on fun first member second member' same =>
        layerKey_inj (knownName first member) (knownName second member') same
  refine ⟨rfl, unique, fun key => ?_, fun layerName testpoints read => ?_, fun dump => ?_⟩
  · rw [items, List.mem_cons, List.mem_cons, List.mem_map]
    refine or_congr_right (or_congr_right (exists_congr fun layerName => ?_))
    have present : layerName ∈ (deviceLayers dev.layer).map (·.1) ↔ layerName ∈ dev.layer := by
      rw [((deviceLayers_perm dev.layer).map _).mem_iff, Std.TreeMap.map_fst_toList_eq_keys, Std.TreeMap.mem_keys]
    rw [present]
    refine and_congr_right fun member => ?_
    rw [lookup_layerKey (knownName layerName (present.mpr member)), Option.some.injEq]
  · have member : (layerName, testpoints) ∈ deviceLayers dev.layer := mem_deviceLayers.mpr read
    refine ⟨layerKey layerName, layerJson testpoints, lookup_layerKey (knownAt _ member), ?_, layerReport testpoints⟩
    apply lookup_of_mem unique
    exact List.mem_append_right _ (List.mem_map_of_mem member)
  · obtain ⟨testpoints, read⟩ := StringMap.mem_iff.mp dump
    have key : layerKey "data_dump" = "data-dump" := by decide
    have final : ((deviceLayers dev.layer).map (·.1)).map layerKey =
        ((dev.layer.toList.filter fun layer => layer.1 ≠ "data_dump").map (·.1)).map layerKey ++ ["data-dump"] := by
      rw [deviceLayers, read]
      simp [key]
    rw [items, final, ← List.cons_append, ← List.cons_append, List.getLast?_concat]

/-! ### Every report -/

def LayersKnown (reportRes : ReportResult) : Prop :=
  ∀ (name : String) (dev : DeviceResult), reportRes[name]? = some dev → ∀ layer ∈ dev.layer, Known layer

theorem layersKnown_iff {reportRes : ReportResult} :
    LayersKnown reportRes ↔ ∀ dev ∈ reportRes.toList, AllKnown dev.2 := by
  have listed : ∀ {name : String} {dev : DeviceResult}, reportRes[name]? = some dev ↔ (name, dev) ∈ reportRes.toList :=
    Std.TreeMap.mem_toList_iff_getElem?_eq_some.symm
  constructor
  · intro known dev member layer inside
    apply known dev.1 dev.2 (listed.mpr member)
    exact StringMap.mem_iff.mpr ⟨layer.2, Std.TreeMap.mem_toList_iff_getElem?_eq_some.mp inside⟩
  · intro known name dev read layer inside
    obtain ⟨testpoints, points⟩ := StringMap.mem_iff.mp inside
    exact known _ (listed.mp read) _ (Std.TreeMap.mem_toList_iff_getElem?_eq_some.mpr points)

theorem reported_perm (reportRes : ReportResult) :
    (reportRes.toList.flatMap fun dev => deviceTestPoints dev.2).Perm (allTestPoints reportRes) :=
  List.Perm.flatMap_left _ fun dev _ => (deviceLayers_perm dev.2.layer).flatMap_right _

section
variable {r : Report} {reportRes : ReportResult} (currentTimestamp headerTimestamp : String)

theorem generateReport_eq : r.generateReport currentTimestamp headerTimestamp reportRes =
    ((do let report ← r.report.assignAt ["header"] (.object []); report.assignAt ["tests"] (.array [])) >>=
      fun report => devicesFrom currentTimestamp reportRes.toList { r with report, tpTotal := 0, tpFailed := 0 } >>=
      fun out => if out.1 then out.2.writeSummaryHeader headerTimestamp >>= fun r => pure (true, r)
        else pure (false, out.2)) := by
  rw [generateReport]
  cases r.report.assignAt ["header"] (.object []) with
  | error e => rfl
  | ok report => rfl

theorem generateReport_known {version : String} (writable : Writable r.report) (answers : r.fwVersion = .ok version)
    (known : LayersKnown reportRes) :
    ∃ r' members, r.generateReport currentTimestamp headerTimestamp reportRes = .ok (true, r') ∧
      r'.report = .object members ∧
      members.lookup "header" = some (headerJson version headerTimestamp (.ofNat (allTestPoints reportRes).length)
        (.ofNat ((allTestPoints reportRes).countP fun tp => !tp.result))) ∧
      members.lookup "tests" =
        some (.array (reportRes.toList.map fun dev => deviceJson currentTimestamp dev.1 dev.2)) := by
  obtain ⟨begun, first, draft⟩ := begin_ok writable
  obtain ⟨b, r', run, iff, result⟩ := devicesFrom_ok currentTimestamp reportRes.toList
    { r with report := begun, tpTotal := 0, tpFailed := 0 } [] draft
  obtain rfl : b = true := iff.mpr (layersKnown_iff.mp known)
  obtain ⟨report, same, draft⟩ := result rfl
  rw [counted_eq] at same
  have draft : Draft r'.report (reportRes.toList.map fun dev => deviceJson currentTimestamp dev.1 dev.2) := by
    rw [same]
    exact draft
  have version' : r'.fwVersion = .ok version := by rw [same]; exact answers
  obtain ⟨members, written, header, listed⟩ := writeSummaryHeader_ok version' draft headerTimestamp
  have total : r'.tpTotal = 0 + .ofNat (reportRes.toList.flatMap fun dev => deviceTestPoints dev.2).length := by
    rw [same]
  have failed : r'.tpFailed = 0 + .ofNat ((reportRes.toList.flatMap fun dev => deviceTestPoints dev.2).countP
      fun tp => !tp.result) := by
    rw [same]
  rw [UInt32.zero_add, (reported_perm reportRes).length_eq] at total
  rw [UInt32.zero_add, (reported_perm reportRes).countP_eq] at failed
  refine ⟨{ r' with report := .object members }, members, ?_, rfl, ?_, listed⟩
  · rw [generateReport_eq, first]
    simp only [bind, Except.bind, run, if_true, written]
    rfl
  · rw [header, total, failed]

theorem generateReport_unknown (writable : Writable r.report) :
    (∃ r', r.generateReport currentTimestamp headerTimestamp reportRes = .ok (false, r')) ↔ ¬ LayersKnown reportRes := by
  obtain ⟨begun, first, draft⟩ := begin_ok writable
  obtain ⟨b, r', run, iff, -⟩ := devicesFrom_ok currentTimestamp reportRes.toList
    { r with report := begun, tpTotal := 0, tpFailed := 0 } [] draft
  rw [generateReport_eq, first, layersKnown_iff, ← iff]
  simp only [bind, Except.bind, run]
  cases b with
  | false => exact iff_of_true ⟨r', rfl⟩ Bool.false_ne_true
  | true =>
    refine iff_of_false ?_ (not_not.mpr rfl)
    rintro ⟨_, ended⟩
    rw [if_pos rfl] at ended
    cases written : r'.writeSummaryHeader headerTimestamp with
    | error e => rw [written] at ended; cases ended
    | ok _ => rw [written] at ended; cases ended
end

/-- The report of every result is right: where all layers are known there is a document and it says what the
results are, and no report fails but for an unknown layer. -/
def Truthful (currentTimestamp headerTimestamp : String) (r : Report) (reportRes : ReportResult) : Prop :=
  (LayersKnown reportRes →
    ∃ r', r.generateReport currentTimestamp headerTimestamp reportRes = .ok (true, r') ∧
      Document reportRes r'.report) ∧
  ((∃ r', r.generateReport currentTimestamp headerTimestamp reportRes = .ok (false, r')) ↔ ¬ LayersKnown reportRes)

theorem getAt_header {members : List (String × Json)} {version timestamp : String} {total failed : UInt32}
    (header : members.lookup "header" = some (headerJson version timestamp total failed)) :
    (Json.object members).getAt ["header", "summary", "test-case-total"] = some (.unsigned total.toNat) ∧
      (Json.object members).getAt ["header", "summary", "test-case-failed"] = some (.unsigned failed.toNat) := by
  have read : (Json.object members).get? "header" = some (headerJson version timestamp total failed) := header
  constructor
  · rw [Json.getAt, read]
    rfl
  · rw [Json.getAt, read]
    rfl

theorem document_iff {reportRes : ReportResult} (known : LayersKnown reportRes) {members : List (String × Json)}
    {version current timestamp : String}
    (header : members.lookup "header" = some (headerJson version timestamp (.ofNat (allTestPoints reportRes).length)
      (.ofNat ((allTestPoints reportRes).countP fun tp => !tp.result))))
    (listed : members.lookup "tests" =
      some (.array (reportRes.toList.map fun dev => deviceJson current dev.1 dev.2))) :
    Document reportRes (.object members) ↔ (allTestPoints reportRes).length < 2 ^ 32 := by
  obtain ⟨total, failed⟩ := getAt_header header
  constructor
  · intro document
    have same := document.total
    rw [total, Option.some.injEq, Json.unsigned.injEq] at same
    rw [← same]
    exact UInt32.toNat_lt _
  · intro small
    have fewer : (allTestPoints reportRes).countP (fun tp => !tp.result) < 2 ^ 32 := List.countP_le_length.trans_lt small
    refine ⟨?_, ?_, reportRes.toList.map fun dev => deviceJson current dev.1 dev.2, ?_, ?_⟩
    · rw [total, UInt32.toNat_ofNat_of_lt' small]
    · rw [failed, UInt32.toNat_ofNat_of_lt' fewer]
    · rw [Json.getAt, Json.get?, Json.items, listed]
      rfl
    · rw [List.forall₂_map_right_iff, List.forall₂_same]
      exact fun dev member => deviceReport current dev.1 dev.2 (layersKnown_iff.mp known dev member)

theorem truthful_iff (currentTimestamp headerTimestamp version : String) (r : Report) (reportRes : ReportResult)
    (writable : Writable r.report) (answers : r.fwVersion = .ok version) :
    Truthful currentTimestamp headerTimestamp r reportRes ↔
      (LayersKnown reportRes → (allTestPoints reportRes).length < 2 ^ 32) := by
  rw [Truthful, and_iff_left (generateReport_unknown currentTimestamp headerTimestamp writable)]
  refine forall_congr' fun known => ?_
  obtain ⟨r', members, run, here, header, listed⟩ :=
    generateReport_known currentTimestamp headerTimestamp writable answers known
  rw [← document_iff known header listed, ← here, run]
  simp

/-- Many results of one layer. -/
def crowded (n : Nat) : ReportResult :=
  (∅ : ReportResult).insert "GPU0" ⟨(∅ : StringMap (List TestPointResult)).insert "power_rail"
    (List.replicate n ⟨false, .ok, "sampleTp", "123", "OK", false⟩)⟩

theorem allTestPoints_crowded (n : Nat) : (allTestPoints (crowded n)).length = n := by
  have listed : allTestPoints (crowded n) = List.replicate n ⟨false, .ok, "sampleTp", "123", "OK", false⟩ ++ [] ++ [] :=
    rfl
  rw [listed]
  simp

theorem layersKnown_crowded (n : Nat) : LayersKnown (crowded n) := by
  intro name dev read layer inside
  rw [crowded, StringMap.getElem?_insert] at read
  split at read
  · obtain rfl := Option.some.inj read
    rcases (StringMap.mem_insert _ _ _ _).mp inside with rfl | none
    · decide
    · exact absurd none Std.TreeMap.not_mem_emptyc
  · simp at read

/-- From 2^32 results on the counters have wrapped. -/
theorem not_truthful_of_crowded {r : Report} {version : String} (writable : Writable r.report)
    (answers : r.fwVersion = .ok version) {n : Nat} (many : 2 ^ 32 ≤ n) (currentTimestamp headerTimestamp : String) :
    ¬ Truthful currentTimestamp headerTimestamp r (crowded n) := by
  rintro ⟨right, -⟩
  have known := layersKnown_crowded n
  obtain ⟨r', members, run, here, header, listed⟩ :=
    generateReport_known currentTimestamp headerTimestamp writable answers known
  obtain ⟨r'', run', document⟩ := right known
  rw [run, Except.ok.injEq, Prod.mk.injEq] at run'
  rw [← run'.2, here, document_iff known header listed, allTestPoints_crowded] at document
  exact document.not_ge many

theorem not_truthful_crowded :
    ¬ Truthful "2022-10-01T12:00:00Z" "2022-10-01T12:00:01Z" { getFwVersionClbk := none } (crowded (2 ^ 32)) :=
  not_truthful_of_crowded (.inl rfl) rfl le_rfl _ _

theorem truthful_iff_crowded : Truthful "2022-10-01T12:00:00Z" "2022-10-01T12:00:01Z"
    { getFwVersionClbk := some (.ok "HGX-22.10-1-rc34") } (crowded 12) :=
  (truthful_iff _ _ _ _ _ (.inl rfl) rfl).mpr fun _ => by
    rw [allTestPoints_crowded]
    decide

end Report

end Selftest

end MonitorEventing
