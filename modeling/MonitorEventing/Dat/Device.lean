import MonitorEventing.Accessor.DataAccessor

/-!
# The device association table

Devices with their layers of test points, as loaded from JSON. A device carries the fact that its
counter counts nothing where there are no test points, a table the fact that every device stands under
its own name. The counter is an `unsigned`: it comes back to zero with every 2^32nd test point.
-/

namespace MonitorEventing.Dat
open Accessor

inductive Severity where
  | ok | warning | critical
  deriving DecidableEq, Repr

namespace Severity

def value : Severity → Nat
  | ok => 0
  | warning => 1
  | critical => 2

def string : Severity → String
  | ok => "OK"
  | warning => "Warning"
  | critical => "Critical"

def ofString (severity : String) : Except Exn Severity :=
  if severity = ok.string then pure ok
  else if severity = warning.string then pure warning
  else if severity = critical.string then pure critical
  else .error (.runtimeError ("Unknown severity (" ++ severity ++ "). Error in dat.json config."))

def findMaxSeverity (severities : List Severity) : String :=
  (severities.foldl (fun maxSev sev => if sev.value > maxSev.value then sev else maxSev) ok).string

theorem ofString_ok_iff {text : String} {severity : Severity} : ofString text = .ok severity ↔ text = severity.string := by
  constructor
  · intro h
    unfold ofString at h
    split_ifs at h with isOk isWarning isCritical
    · rw [← Except.ok.inj h, isOk]
    · rw [← Except.ok.inj h, isWarning]
    · rw [← Except.ok.inj h, isCritical]
  · rintro rfl
    cases severity <;> rfl

end Severity

inductive DeviceType where
  | unknown | regular | sensor | port | software
  deriving DecidableEq, Repr

def DeviceType.ofString (type : String) : Except Exn DeviceType :=
  match type with
  | "unknown" => pure .unknown
  | "regular" => pure .regular
  | "sensor" => pure .sensor
  | "port" => pure .port
  | "software" => pure .software
  | _ => .error (.runtimeError ("Invalid device type: '" ++ type ++ "'"))

structure Status where
  health : String := "OK"
  healthRollup : String := "OK"
  originOfCondition : String := ""
  triState : String := "Active"

structure TestPoint where
  accessor : DataAccessor
  expectedValue : String
  severity : Severity

structure TestLayer where
  testPoints : StringMap TestPoint

def HasPoints (test : StringMap TestLayer) : Prop :=
  ∃ (layerName : String) (layer : TestLayer) (name : String) (point : TestPoint), test[layerName]? = some layer ∧
    layer.testPoints[name]? = some point

structure Device where
  name : String
  type : DeviceType
  dbusPathPrimary : Option String
  dbusPathOoc : Option String
  dbusSetHealth : Option Bool
  association : List String
  parents : List String
  healthStatus : Status
  test : StringMap TestLayer
  testpointCount : UInt32
  counted : testpointCount ≠ 0 → HasPoints test

namespace Device

def hasTestpoints (d : Device) : Bool := decide (d.testpointCount > 0)

def getType (d : Device) : DeviceType := d.type

def canSetHealthOnDbus (d : Device) : Bool := d.dbusSetHealth.getD true

theorem hasTestpoints_iff (d : Device) : d.hasTestpoints = true ↔ d.testpointCount ≠ 0 := by
  rw [hasTestpoints, decide_eq_true_eq, gt_iff_lt, UInt32.pos_iff_ne_zero]

theorem hasPoints_of_hasTestpoints {d : Device} (h : d.hasTestpoints = true) : HasPoints d.test :=
  d.counted (d.hasTestpoints_iff.mp h)

end Device

/-! ### Loading -/

def elements : Json → List Json
  | .null => []
  | .array elems => elems
  | .object members => members.map (·.2)
  | other => [other]

/-- `items()`. -/
def itemsOf : Json → List (String × Json)
  | .null => []
  | .array elems => elems.zipIdx.map fun elem => (toString elem.2, elem.1)
  | .object members => members
  | other => [("", other)]

/-- `getOptionalAttribute`, with the conversion of the attribute. -/
def getOptionalAttribute {α : Type} (get : Json → Except Exn α) (js : Json) (attr : String) : Except Exn (Option α) :=
  match js with
  | .object members =>
    match members.lookup attr with
    | some value => do
      let converted ← get value
      pure (some converted)
    | none => pure none
  | _ => .error (.runtimeError "! js.is_object()")

def getBool : Json → Except Exn Bool
  | .boolean b => pure b
  | _ => .error .typeError

def getStrings : Json → Except Exn (List String)
  | .array elems => elems.mapM Json.getString
  | _ => .error .typeError

def loadTestPoint (point : Json) : Except Exn (String × TestPoint) := do
  let accessor ← point.index "accessor"
  let expectedValue ←
    match point.get? "expected_value" with
    | some value => value.getString
    | none => pure ""
  let nameValue ← point.index "name"
  let name ← nameValue.getString
  let severity ←
    match point.get? "severity" with
    | some value => do
      let text ← value.getString
      Severity.ofString text
    | none => pure .critical
  pure (name, { accessor := ({} : DataAccessor).assign accessor, expectedValue, severity })

def loadLayer (j : Json) (layer : String) : Except Exn (String × List (String × TestPoint)) := do
  let points ← j.index layer
  let testPoints ← (elements points).mapM loadTestPoint
  pure (layer, testPoints)

def layersOf (j : Json) : List String :=
  ["power_rail", "erot_control", "pin_status", "interface_status", "protocol_status", "firmware_status"] ++
    if j.contains "data_dump" then ["data_dump"] else []

/-- The map of layers the loops build, the first of several points with a name being kept. -/
def testOf (layers : List (String × List (String × TestPoint))) : StringMap TestLayer :=
  StringMap.ofPairs (layers.map fun layer => (layer.1, ⟨StringMap.ofPairs layer.2⟩))

/-- The counter is incremented for every point, kept or not. -/
def countOf (layers : List (String × List (String × TestPoint))) : UInt32 :=
  layers.foldl (fun count layer => layer.2.foldl (fun count _ => count + 1) count) 0

def pointsIn (layers : List (String × List (String × TestPoint))) : Nat := (layers.map fun layer => layer.2.length).sum

theorem countOf_eq (layers : List (String × List (String × TestPoint))) :
    countOf layers = UInt32.ofNat (pointsIn layers) := by
  have layer : ∀ (points : List (String × TestPoint)) (count : UInt32),
      points.foldl (fun count _ => count + 1) count = count + UInt32.ofNat points.length := by
    intro points
    induction points with
    | nil => simp
    | cons point rest ih =>
      intro count
      rw [List.foldl_cons, ih, List.length_cons, UInt32.ofNat_add, UInt32.add_assoc, UInt32.add_comm (UInt32.ofNat _)]
      rfl
  have all : ∀ count : UInt32, layers.foldl (fun count layer => layer.2.foldl (fun count _ => count + 1) count) count =
      count + UInt32.ofNat (pointsIn layers) := by
    induction layers with
    | nil => simp [pointsIn]
    | cons first rest ih =>
      intro count
      rw [List.foldl_cons, layer, ih, UInt32.add_assoc, ← UInt32.ofNat_add]
      rfl
  exact (all 0).trans (UInt32.zero_add _)

theorem countOf_ne_zero_iff (layers : List (String × List (String × TestPoint))) :
    countOf layers ≠ 0 ↔ pointsIn layers % 2 ^ 32 ≠ 0 := by
  rw [countOf_eq, Ne, ← UInt32.toNat_inj, UInt32.toNat_ofNat']
  rfl

/-- A point of the map was loaded. -/
theorem loaded_of_point {layers : List (String × List (String × TestPoint))} {layerName : String} {layer : TestLayer}
    (here : (testOf layers)[layerName]? = some layer) {name : String} {tp : TestPoint}
    (inside : layer.testPoints[name]? = some tp) : ∃ source ∈ layers, (name, tp) ∈ source.2 := by
  rw [testOf, StringMap.getElem?_ofPairs] at here
  obtain ⟨source, listed, same⟩ := List.mem_map.mp (mem_of_lookup here)
  obtain ⟨_, rfl⟩ := Prod.mk.inj same
  rw [StringMap.getElem?_ofPairs] at inside
  exact ⟨source, listed, mem_of_lookup inside⟩

theorem pointsIn_pos_iff {layers : List (String × List (String × TestPoint))} (unique : (layers.map (·.1)).Nodup) :
    0 < pointsIn layers ↔ HasPoints (testOf layers) := by
  have some : 0 < pointsIn layers ↔ ∃ layer ∈ layers, layer.2 ≠ [] := by
    rw [pointsIn, List.sum_pos_iff_exists_pos_nat]
    simp [List.length_pos_iff]
  rw [some]
  constructor
  · intro exists_
    obtain ⟨layer, member, nonempty⟩ := exists_
    obtain ⟨point, rest, points⟩ := List.exists_cons_of_ne_nil nonempty
    refine ⟨layer.1, ⟨StringMap.ofPairs layer.2⟩, point.1, point.2, ?_, ?_⟩
    · rw [testOf, StringMap.getElem?_ofPairs]
      apply lookup_of_mem
      · rwa [List.map_map]
      · exact List.mem_map_of_mem member
    · rw [StringMap.getElem?_ofPairs, points, List.lookup_cons_self]
  · intro has
    obtain ⟨layerName, layer, name, point, here, inside⟩ := has
    obtain ⟨source, listed, member⟩ := loaded_of_point here inside
    exact ⟨source, listed, List.ne_nil_of_mem member⟩

theorem hasPoints_of_countOf {layers : List (String × List (String × TestPoint))} (unique : (layers.map (·.1)).Nodup)
    (counted : countOf layers ≠ 0) : HasPoints (testOf layers) := by
  apply (pointsIn_pos_iff unique).mp
  have some := (countOf_ne_zero_iff layers).mp counted
  exact Nat.pos_of_ne_zero fun none => some (by omega)

theorem layersOf_nodup (j : Json) : (layersOf j).Nodup := by
  unfold layersOf
  split
  · decide
  · decide

theorem loaded_names {j : Json} {names : List String} {layers : List (String × List (String × TestPoint))}
    (h : names.mapM (loadLayer j) = .ok layers) : layers.map (·.1) = names := by
  have each := mapM_ok_iff.mp h
  clear h
  induction each with
  | nil => rfl
  | cons first _ ih =>
    obtain ⟨_, _, first⟩ := bind_ok first
    obtain ⟨_, _, first⟩ := bind_ok first
    obtain rfl := pure_ok_iff.mp first
    rw [List.map_cons, ih]

def Device.typeOf (j : Json) : Except Exn DeviceType :=
  if j.contains "type" then do
    let value ← j.index "type"
    let text ← value.getString
    DeviceType.ofString text
  else pure .unknown

/-- The primary path and the one of the origin of condition. -/
def Device.dbusPathsOf (j : Json) : Except Exn (Option String × Option String) :=
  match j.get? "dbus_objects" with
  | some objects => do
    let primary ← getOptionalAttribute Json.getString objects "primary"
    let ooc ← getOptionalAttribute Json.getString objects "ooc_context"
    pure (primary, ooc)
  | none => pure (none, none)

/-- `Device(name, json)`. -/
def Device.ofJson (name : String) (j : Json) : Except Exn Device := do
  let type ← Device.typeOf j
  let paths ← Device.dbusPathsOf j
  let dbusSetHealth ← getOptionalAttribute getBool j "dbus_set_health"
  let children ← j.index "association"
  let association ← getStrings children
  match loaded : (layersOf j).mapM (loadLayer j) with
  | .error e => .error e
  | .ok layers =>
    pure {
      name, type, dbusSetHealth, association
      dbusPathPrimary := paths.1
      dbusPathOoc := paths.2
      parents := []
      healthStatus := {}
      test := testOf layers
      testpointCount := countOf layers
      counted := hasPoints_of_countOf (by rw [loaded_names loaded]; exact layersOf_nodup j) }

/-! ### The table -/

structure DAT where
  devices : StringMap Device
  named : ∀ (key : String) (device : Device), devices[key]? = some device → device.name = key

namespace DAT

def empty : DAT := ⟨∅, by simp⟩

def put (dat : DAT) (device : Device) : DAT where
  devices := dat.devices.insert device.name device
  named := by
    intro key other read
    rw [StringMap.getElem?_insert] at read
    split at read
    · rename_i same
      rw [← Option.some.inj read]
      exact same
    · exact dat.named key other read

/-- `insert`, which leaves a device that is there alone. -/
def insertNew (dat : DAT) (device : Device) : DAT := if device.name ∈ dat.devices then dat else dat.put device

def addParent (dat : DAT) (child parent : String) : DAT :=
  match dat.devices[child]? with
  | some device => dat.put { device with parents := device.parents ++ [parent] }
  | none => dat

/-- `populateMap`: the devices, and on a second pass the parents of all children. -/
def populateMap (dat : DAT) (j : Json) : Except Exn DAT := do
  let loaded ← (itemsOf j).mapM fun el => Device.ofJson el.1 el.2
  let dat := loaded.foldl insertNew dat
  pure (dat.devices.toList.foldl
    (fun dat entry => entry.2.association.foldl (fun dat child => dat.addParent child entry.1) dat) dat)

end DAT

/-! ### Device test points -/

/-- `read()` of an accessor of type DEVICE. -/
def TestPoint.deviceName (tp : TestPoint) : Except Exn String := tp.accessor.ownText "device_name"

theorem read_deviceName {tp : TestPoint} (isDevice : tp.accessor.isValidDeviceAccessor = true) (env : Env)
    (device : String) (index : Option DeviceId.PatternIndex) :
    (tp.accessor.read env device index).map (·.1) = tp.deviceName := by
  have type : tp.accessor.isTypeDevice = true := (Bool.and_eq_true _ _ ▸ isDevice).1
  have notBus : tp.accessor.isTypeDbus = false := DataAccessor.isType_other type (by decide)
  unfold DataAccessor.read TestPoint.deviceName
  simp only [notBus, type, Bool.false_eq_true, if_false, if_true]
  cases tp.accessor.ownText "device_name" with
  | error e => rfl
  | ok name =>
    show Except.ok _ = _
    simp [DataAccessor.setDataValue, PropertyValue.ofString_not_empty]

/-- Every DEVICE test point names a device of the table. -/
def DAT.Closed (dat : DAT) : Prop :=
  ∀ (key : String) (device : Device), dat.devices[key]? = some device →
    ∀ (layerName : String) (layer : TestLayer), device.test[layerName]? = some layer →
      ∀ (name : String) (tp : TestPoint), layer.testPoints[name]? = some tp →
        tp.accessor.isValidDeviceAccessor = true → ∃ other, tp.deviceName = .ok other ∧ other ∈ dat.devices

def DAT.knows (dat : DAT) (tp : TestPoint) : Bool :=
  !tp.accessor.isValidDeviceAccessor ||
    match tp.deviceName with
    | .ok other => decide (other ∈ dat.devices)
    | .error _ => false

theorem DAT.knows_iff {dat : DAT} {tp : TestPoint} : dat.knows tp = true ↔
    (tp.accessor.isValidDeviceAccessor = true → ∃ other, tp.deviceName = .ok other ∧ other ∈ dat.devices) := by
  unfold DAT.knows
  cases tp.deviceName with
  | error e => simp
  | ok other => cases tp.accessor.isValidDeviceAccessor <;> simp

theorem DAT.closed_iff (dat : DAT) : (∀ device ∈ dat.devices.toList, ∀ layer ∈ device.2.test.toList,
    ∀ point ∈ layer.2.testPoints.toList, dat.knows point.2 = true) ↔ dat.Closed := by
  simp only [Prod.forall, Std.TreeMap.mem_toList_iff_getElem?_eq_some, DAT.knows_iff]
  rfl

instance (dat : DAT) : Decidable dat.Closed := decidable_of_iff _ dat.closed_iff

end MonitorEventing.Dat
