import MonitorEventing.DeviceId.Pattern

/-!
# Device names and indexes

The helpers between patterns and concrete device names: which index of a pattern a path stands for,
which device an index names, and the number a device name carries.
-/

namespace MonitorEventing.DeviceUtil
open DeviceId

def invalidDeviceId : Int := -1

def existsRange (patternObj : DeviceIdPattern) : Bool := decide (patternObj.dim > 0)

/-- `existsRange` of a text, which throws where the text is no pattern. -/
def existsRangeIn (str : String) : Except Exn Bool := do
  let devicePattern ← DeviceIdPattern.ofString str
  pure (existsRange devicePattern)

def determineDeviceIndex (objPathPattern : DeviceIdPattern) (objPath : String) : Except Exn PatternIndex := do
  let indexes ← objPathPattern.matchArgs objPath
  pure (indexes.headD (.ofList []))

/-- The first component of a name, up to the first '/'. -/
def getFirstDeviceTypePattern (devicesPatterns : String) : String :=
  String.ofList ((split ['/'] devicesPatterns.toList).headD [])

def determineDeviceName (deviceTypePattern : DeviceIdPattern) (index : PatternIndex) : Except Exn String :=
  if deviceTypePattern.pattern ≠ "" ∧ deviceTypePattern.dim = index.dim then do
    let device ← deviceTypePattern.eval index
    pure (getFirstDeviceTypePattern device)
  else pure ""

def introduceDeviceInObjectpath (objPath : String) (deviceIndex : PatternIndex) : Except Exn String := do
  let objPattern ← DeviceIdPattern.ofString objPath
  if objPattern.dim > 0 ∧ deviceIndex.dim = objPattern.dim then objPattern.eval deviceIndex
  else pure objPath

/-- The numbers of the renamed devices; the other half of each entry, the old name, has no reader. -/
def deviceNameMap : List (String × Int) :=
  (List.range 8).map (fun i => ("ERoT_GPU_SXM_" ++ toString (i + 1), (i : Int))) ++
  (List.range 8).map (fun i => ("GPU_SXM_" ++ toString (i + 1), (i : Int))) ++
  (List.range 8).map (fun i => ("GPU_SXM_" ++ toString (i + 1) ++ "_DRAM_0", (i : Int)))

def getMappedDeviceId (deviceName : String) : Int := (deviceNameMap.lookup deviceName).getD invalidDeviceId

/-- `getDeviceId` without a range. Its range is then read out of the regular expression for device
names, whose one bracket is "[0-9]": the largest digit that occurs in the name, or 0. -/
def getDeviceId (deviceName : String) : Nat :=
  ((List.range 10).reverse.find? fun counter =>
    Text.occursIn (toString counter).toList deviceName.toList).getD 0

/-! ### Expanding a pattern -/

/-- `std::map<int, std::string>`. -/
abbrev DeviceIdMap := Std.TreeMap Int String

/-- The `int` an `unsigned` of 32 bits converts to. -/
def intOfUnsigned (n : Nat) : Int := ((n : Int) + 2 ^ 31) % 2 ^ 32 - 2 ^ 31

/-- The loop of `expandDeviceRange`, with the next key. Empty values are not supported. -/
def expandFrom : List String → Nat → DeviceIdMap → DeviceIdMap
  | [], _, deviceIdMap => deviceIdMap
  | value :: rest, key, deviceIdMap =>
    if value = "" then expandFrom rest key deviceIdMap
    else expandFrom rest ((key + 1) % 2 ^ 32) (deviceIdMap.insert (intOfUnsigned key) value)

/-- The first index of the first tuple, as an `unsigned`. -/
def initialKey (domain : List PatternIndex) : Nat :=
  match domain with
  | front :: _ => if front.dim > 0 then (front.get 0 % 2 ^ 32).toNat else 0
  | [] => 0

def expandDeviceRange (patternObj : DeviceIdPattern) : Except Exn DeviceIdMap :=
  if patternObj.pattern ≠ "" then do
    let values ← patternObj.values
    pure (expandFrom values (initialKey patternObj.domain) ∅)
  else pure ∅

/-- `expandDeviceRange` of a text, which throws where the text is no pattern. -/
def expandDeviceRangeIn (deviceRegx : String) : Except Exn DeviceIdMap := do
  let devicePattern ← DeviceIdPattern.ofString deviceRegx
  expandDeviceRange devicePattern

theorem initialKey_lt (domain : List PatternIndex) : initialKey domain < 2 ^ 32 := by
  unfold initialKey
  split
  · split <;> omega
  · decide

theorem intOfUnsigned_inj {m n : Nat} (hm : m < 2 ^ 32) (hn : n < 2 ^ 32) :
    intOfUnsigned m = intOfUnsigned n ↔ m = n := by
  unfold intOfUnsigned
  omega

/-- A new key takes no value away. -/
theorem exists_getElem?_insert {deviceIdMap : DeviceIdMap} {key : Int} (fresh : key ∉ deviceIdMap) {first value : String} :
    (∃ k : Int, (deviceIdMap.insert key first)[k]? = some value) ↔
      first = value ∨ ∃ k : Int, deviceIdMap[k]? = some value := by
  simp only [Std.TreeMap.getElem?_insert, Std.LawfulEqCmp.compare_eq_iff_eq]
  constructor
  · intro stored
    obtain ⟨k, read⟩ := stored
    by_cases here : key = k
    · rw [if_pos here] at read
      exact Or.inl (Option.some.inj read)
    · rw [if_neg here] at read
      exact Or.inr ⟨k, read⟩
  · intro either
    rcases either with rfl | ⟨k, read⟩
    · exact ⟨key, if_pos rfl⟩
    · refine ⟨k, ?_⟩
      rw [if_neg, read]
      intro same
      apply fresh
      rw [same, Std.TreeMap.mem_iff_isSome_getElem?, read]
      rfl

/-- Fewer values than keys are all kept. -/
theorem mem_expandFrom {values : List String} {key : Nat} {deviceIdMap : DeviceIdMap} (bound : key < 2 ^ 32)
    (few : values.length ≤ 2 ^ 32)
    (unused : ∀ i < values.length, intOfUnsigned ((key + i) % 2 ^ 32) ∉ deviceIdMap) (value : String) :
    (∃ k : Int, (expandFrom values key deviceIdMap)[k]? = some value) ↔
      (∃ k : Int, deviceIdMap[k]? = some value) ∨ value ≠ "" ∧ value ∈ values := by
  induction values generalizing key deviceIdMap with
  | nil => simp [expandFrom]
  | cons first rest ih =>
    rw [List.length_cons] at few unused
    unfold expandFrom
    by_cases empty : first = ""
    · rw [if_pos empty, ih bound (by omega) fun i inside => unused i (by omega)]
      apply or_congr_right
      simp only [List.mem_cons, empty]
      exact ⟨fun ⟨kept, member⟩ => ⟨kept, Or.inr member⟩, fun ⟨kept, either⟩ => ⟨kept, either.resolve_left kept⟩⟩
    · have free : intOfUnsigned key ∉ deviceIdMap := by
        have now := unused 0 (by omega)
        rwa [Nat.add_zero, Nat.mod_eq_of_lt bound] at now
      have later : ∀ i < rest.length,
          intOfUnsigned (((key + 1) % 2 ^ 32 + i) % 2 ^ 32) ∉ deviceIdMap.insert (intOfUnsigned key) first := by
        intro i inside
        have next : ((key + 1) % 2 ^ 32 + i) % 2 ^ 32 = (key + (i + 1)) % 2 ^ 32 := by omega
        rw [next, Std.TreeMap.mem_insert, Std.LawfulEqCmp.compare_eq_iff_eq,
          intOfUnsigned_inj bound (Nat.mod_lt _ (by decide))]
        intro either
        rcases either with same | old
        · omega
        · exact unused (i + 1) (by omega) old
      rw [if_neg empty, ih (Nat.mod_lt _ (by decide)) (by omega) later]
      rw [exists_getElem?_insert free, List.mem_cons]
      constructor
      · intro either
        rcases either with (rfl | old) | ⟨kept, member⟩
        · exact Or.inr ⟨empty, Or.inl rfl⟩
        · exact Or.inl old
        · exact Or.inr ⟨kept, Or.inr member⟩
      · intro either
        rcases either with old | ⟨kept, rfl | member⟩
        · exact Or.inl (Or.inr old)
        · exact Or.inl (Or.inl rfl)
        · exact Or.inr ⟨kept, member⟩

/-! ### Names -/

theorem first_plain {s : String} (plain : '/' ∉ s.toList) : getFirstDeviceTypePattern s = s := by
  have pieces : split ['/'] s.toList = [s.toList] := by
    apply Text.splitOnP_free
    intro c member
    simp only [List.contains_eq_mem, List.mem_singleton, decide_eq_false_iff_not]
    intro slash
    exact plain (slash ▸ member)
  rw [getFirstDeviceTypePattern, pieces, List.headD_cons, String.ofList_toList]

theorem first_has_no_slash (s : String) : '/' ∉ (getFirstDeviceTypePattern s).toList := by
  obtain ⟨piece, rest, pieces⟩ := List.exists_cons_of_ne_nil
    (List.splitOnP_ne_nil (fun c => ['/'].contains c) s.toList)
  have free : Text.Free (fun c => ['/'].contains c) piece := (Text.splitOnP_eq_cons_iff.mp pieces).1
  rw [getFirstDeviceTypePattern, split, pieces, List.headD_cons, String.toList_ofList]
  intro slash
  exact absurd (free '/' slash) (by decide)

end MonitorEventing.DeviceUtil
