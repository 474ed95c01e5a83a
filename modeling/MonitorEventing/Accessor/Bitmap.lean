import MonitorEventing.Accessor.Numerals
import MonitorEventing.Accessor.Outcome

/-!
# Bitmaps

A bitmap is checked once for each device of the device type, every time shifted by one place more. The
mask has the 64 bits of the value: what is shifted beyond them is lost, and a lost bit asks for nothing.
-/

namespace MonitorEventing.Accessor
open DeviceId DeviceIdPattern DeviceUtil

/-! ### Masks -/

/-- Every bit of the mask is set in the value. -/
def BitsSet (mask value : Nat) : Prop := ∀ i, mask.testBit i = true → value.testBit i = true

theorem bitsSet_iff_and {mask value : Nat} : BitsSet mask value ↔ value &&& mask = mask := by
  constructor
  · intro set
    apply Nat.eq_of_testBit_eq
    intro i
    rw [Nat.testBit_and]
    cases bit : mask.testBit i with
    | true => rw [set i bit, Bool.and_true]
    | false => rw [Bool.and_false]
  · intro same i bit
    rw [← same, Nat.testBit_and, Bool.and_eq_true] at bit
    exact bit.1

/-- A value of 64 bits has all bits of a mask that does not go beyond them, or not all. -/
theorem bitsSet_word_iff {mask value : Nat} (word : value < 2 ^ 64) :
    BitsSet mask value ↔ mask < 2 ^ 64 ∧ BitsSet (mask % 2 ^ 64) value := by
  constructor
  · intro set
    have small : mask < 2 ^ 64 := by
      apply Nat.lt_pow_two_of_testBit
      intro i beyond
      rw [← Bool.not_eq_true]
      intro bit
      have none := Nat.testBit_lt_two_pow (word.trans_le (Nat.pow_le_pow_right (by decide) beyond))
      rw [set i bit] at none
      cases none
    rw [Nat.mod_eq_of_lt small]
    exact ⟨small, set⟩
  · rintro ⟨small, set⟩
    rwa [Nat.mod_eq_of_lt small] at set

theorem toNat_shifted (bitmap : UInt64) {k : Nat} (inside : k < 64) :
    (bitmap <<< UInt64.ofNat k).toNat = bitmap.toNat <<< k % 2 ^ 64 := by
  rw [UInt64.toNat_shiftLeft, UInt64.toNat_ofNat']
  congr 2
  omega

theorem PropertyValue.check_bitmap_iff {value : PropertyValue} (valid : value.isValidInteger = true) (text : String)
    (mask : UInt64) :
    value.check [("bitmap", text)] (.integer mask.toNat) = true ↔ BitsSet mask.toNat value.value64.toNat := by
  rw [bitsSet_iff_and, ← UInt64.toNat_and, UInt64.toNat_inj]
  simp only [check, checkFrom, checkEntry, valueFromCriteria, isValidVariant, ofVariant_integer, bitmask, valid]
  simp [isValidInteger]

namespace CheckAccessor

section
variable {deviceType : String} {c c' : CheckAccessor} {jsonAcc dataAcc : DataAccessor} {name : String} {deviceId : Int}
  {checkMap : List (String × String)} {bitmap : UInt64}

/-! ### The walk over the devices -/

/-- A value of the device type is asserted, unless the device type is empty. -/
theorem build_value (built : ofString deviceType = .ok c.pattern) {x : PatternIndex} {value : String}
    (evaluated : c.pattern.eval x = .ok value) :
    c.buildSingleAssertedDeviceName dataAcc value x = .ok (if c.pattern.pattern = "" then c
      else { c with assertedDevices := c.assertedDevices ++ [⟨c.trigger, dataAcc, value, x⟩] }) := by
  have named := value_nonempty_iff built evaluated
  unfold buildSingleAssertedDeviceName
  by_cases empty : c.pattern.pattern = ""
  · have unnamed : value = "" := by
      by_contra some
      exact named.mp some empty
    have none : determineDeviceName c.pattern x = .ok "" := by
      rw [determineDeviceName, if_neg (fun both => both.1 empty)]
      rfl
    rw [if_pos empty, unnamed, none]
    split
    · rfl
    · rfl
  · rw [if_neg empty, if_neg (fun both => named.mpr empty both.1)]
    exact if_pos (named.mpr empty)

/-- The value meets the check with the bitmap shifted to a place. -/
def MeetsAt (dataAcc : DataAccessor) (checkMap : List (String × String)) (bitmap : UInt64) (place : Nat) : Prop :=
  dataAcc.dataValue.check checkMap (.integer (bitmap <<< UInt64.ofNat place).toNat) = true

theorem bitmapFrom_met {index : PatternIndex} {rest : List PatternIndex} {shift : Nat} (narrow : ¬ 64 ≤ shift)
    (met : MeetsAt dataAcc checkMap bitmap shift) (before : Bool) :
    bitmapFrom dataAcc checkMap bitmap (index :: rest) shift before c = (do
      let deviceName ← c.pattern.eval index
      let c ← c.buildSingleAssertedDeviceName dataAcc deviceName index
      bitmapFrom dataAcc checkMap bitmap rest (shift + 1) true c) := by
  rw [bitmapFrom, if_neg narrow]
  exact if_pos met

theorem bitmapFrom_unmet {index : PatternIndex} {rest : List PatternIndex} {shift : Nat} (narrow : ¬ 64 ≤ shift)
    (unmet : ¬ MeetsAt dataAcc checkMap bitmap shift) (before : Bool) :
    bitmapFrom dataAcc checkMap bitmap (index :: rest) shift before c =
      bitmapFrom dataAcc checkMap bitmap rest (shift + 1) before c := by
  rw [bitmapFrom, if_neg narrow]
  exact if_neg unmet

/-- The devices have the names that the device type gives them at their places. -/
def NamedByIndex (p : DeviceIdPattern) (added : List AssertedDevice) : Prop :=
  ∀ d ∈ added, p.eval d.deviceIndexTuple = .ok d.device

/-- Where no shift reaches the width, the walk ends with the devices whose mask the value meets. -/
theorem bitmapFrom_ok (built : ofString deviceType = .ok c.pattern) {indexes : List PatternIndex} {shift : Nat}
    (evaluated : ∀ x ∈ indexes, ∃ s, c.pattern.eval x = .ok s) (narrow : shift + indexes.length ≤ 64) (before : Bool) :
    ∃ ret c' added, bitmapFrom dataAcc checkMap bitmap indexes shift before c = .ok (ret, c') ∧
      c'.assertedDevices = c.assertedDevices ++ added ∧ NamedByIndex c.pattern added ∧
      ∀ x, (∃ d ∈ added, d.deviceIndexTuple = x) ↔ c.pattern.pattern ≠ "" ∧ ∃ k, indexes[k]? = some x ∧
        MeetsAt dataAcc checkMap bitmap (shift + k) := by
  induction indexes generalizing shift before c with
  | nil => exact ⟨before, c, [], rfl, (List.append_nil _).symm, List.forall_mem_nil _, by simp⟩
  | cons index rest ih =>
    obtain ⟨here, later⟩ := List.forall_mem_cons.mp evaluated
    rw [List.length_cons] at narrow
    have next : shift + 1 + rest.length ≤ 64 := by omega
    have places : ∀ x, (∃ k, (index :: rest)[k]? = some x ∧ MeetsAt dataAcc checkMap bitmap (shift + k)) ↔
        (index = x ∧ MeetsAt dataAcc checkMap bitmap shift) ∨
          ∃ k, rest[k]? = some x ∧ MeetsAt dataAcc checkMap bitmap (shift + 1 + k) := by
      intro x
      constructor
      · rintro ⟨k, read, holds⟩
        cases k with
        | zero => exact Or.inl ⟨Option.some.inj read, holds⟩
        | succ k => exact Or.inr ⟨k, read, by rwa [show shift + 1 + k = shift + (k + 1) by omega]⟩
      · rintro (⟨rfl, holds⟩ | ⟨k, read, holds⟩)
        · exact ⟨0, rfl, holds⟩
        · exact ⟨k + 1, read, by rwa [show shift + (k + 1) = shift + 1 + k by omega]⟩
    have inside : ¬ 64 ≤ shift := by omega
    simp only [places]
    by_cases met : MeetsAt dataAcc checkMap bitmap shift
    · obtain ⟨value, named⟩ := here
      rw [bitmapFrom_met inside met, named]
      show ∃ ret c' added, (c.buildSingleAssertedDeviceName dataAcc value index >>= _) = _ ∧ _
      rw [build_value built named]
      by_cases empty : c.pattern.pattern = ""
      · rw [if_pos empty]
        obtain ⟨ret, c', added, run, devices, names, entries⟩ := ih built later next true
        refine ⟨ret, c', added, run, devices, names, fun x => ?_⟩
        rw [entries]
        simp [empty]
      · rw [if_neg empty]
        obtain ⟨ret, c', added, run, devices, names, entries⟩ := ih (c := { c with
          assertedDevices := c.assertedDevices ++ [⟨c.trigger, dataAcc, value, index⟩] }) built later next true
        refine ⟨ret, c', ⟨c.trigger, dataAcc, value, index⟩ :: added, run, ?_,
          List.forall_mem_cons.mpr ⟨named, names⟩, fun x => ?_⟩
        · rw [devices, List.append_assoc, List.singleton_append]
        · rw [List.exists_mem_cons_iff, entries]
          simp [empty, met]
    · rw [bitmapFrom_unmet inside met]
      obtain ⟨ret, c', added, run, devices, names, entries⟩ := ih built later next before
      refine ⟨ret, c', added, run, devices, names, fun x => ?_⟩
      rw [entries]
      simp [met]

/-- A walk that ends has shifted by less than the width each time. -/
theorem bitmapFrom_narrow {indexes : List PatternIndex} {shift : Nat} {before ret : Bool}
    (h : bitmapFrom dataAcc checkMap bitmap indexes shift before c = .ok (ret, c')) :
    indexes = [] ∨ shift + indexes.length ≤ 64 := by
  induction indexes generalizing shift before c with
  | nil => exact Or.inl rfl
  | cons index rest ih =>
    right
    obtain ⟨here, continues⟩ := bitmapFrom_step h
    have further : rest = [] ∨ shift + 1 + rest.length ≤ 64 := by
      rcases continues with ⟨_, _, _, _, h⟩ | h
      · exact ih h
      · exact ih h
    rcases further with rfl | narrow
    · simp only [List.length_cons, List.length_nil]
      omega
    · simp only [List.length_cons]
      omega

/-! ### Bitmap criteria -/

/-- The check map has the bitmap as its only key. -/
def BitmapOnly (jsonAcc : DataAccessor) (text : String) : Prop :=
  jsonAcc.acc.get? "check" = some (.object [("bitmap", .string text)])

theorem subCheck_bitmapOnly {text : String} (criteria : BitmapOnly jsonAcc text)
    (parsed : PropertyValue.ofString text = ⟨text, bitmap, .integer⟩) (data : dataAcc.hasData = true) {ret : Bool} :
    c.subCheck jsonAcc dataAcc name deviceId = .ok (ret, c') ↔
      ∃ c₁, bitmapFrom dataAcc [("bitmap", text)] bitmap c.pattern.domain 0 false c = .ok (ret, c₁) ∧
        c' = c₁.markPassed ret := by
  have key : jsonAcc.acc.contains "check" = true := by rw [Json.contains, criteria]; rfl
  have some : jsonAcc.acc.isEmpty = false := by
    cases acc : jsonAcc.acc with
    | object members =>
      rw [acc] at key
      cases members with
      | nil => cases key
      | cons _ _ => rfl
    | _ =>
      rw [acc] at key
      cases key
  have bitmapped : jsonAcc.existsCheckBitmap = true := by
    rw [DataAccessor.existsCheckBitmap, DataAccessor.existsInCheck, DataAccessor.existsCheckKey, DataAccessor.isEmpty,
      some, key, criteria]
    rfl
  have valid : (PropertyValue.ofString text).isValidInteger = true := by
    rw [parsed]
    rfl
  have shape : c.subCheck jsonAcc dataAcc name deviceId = (do
      let result ← bitmapFrom dataAcc [("bitmap", text)] bitmap c.pattern.domain 0 false c
      pure (result.1, result.2.markPassed result.1)) := by
    unfold subCheck
    rw [if_neg (by simp [data]), Json.index_ok_iff.mpr criteria, bitmapped]
    refine (if_pos valid).trans ?_
    rw [parsed]
    rfl
  rw [shape, bind_ok_iff]
  constructor
  · rintro ⟨⟨ended, c₁⟩, walked, final⟩
    obtain ⟨rfl, rfl⟩ := Prod.mk.inj (Except.ok.inj final)
    exact ⟨c₁, walked, rfl⟩
  · rintro ⟨c₁, walked, rfl⟩
    exact ⟨_, walked, rfl⟩

end

/-! ### Which devices are asserted -/

/-- Besides what was asserted before, the device at each place is asserted, under its name, exactly where the value has
all bits of the bitmap moved to that place. -/
def AssertedByBits (c : CheckAccessor) (jsonAcc dataAcc : DataAccessor) (name : String) (deviceId : Int)
    (bitmap : UInt64) : Prop :=
  ∃ ret c' added, c.subCheck jsonAcc dataAcc name deviceId = .ok (ret, c') ∧
    c'.assertedDevices = c.assertedDevices ++ added ∧ NamedByIndex c.pattern added ∧
    ∀ k x, c.pattern.domain[k]? = some x →
      ((∃ d ∈ added, d.deviceIndexTuple = x) ↔ BitsSet (bitmap.toNat <<< k) dataAcc.dataValue.value64.toNat)

/-- There are no more devices than bits, and where the value has what is left of the moved bitmap, no bit of it was
lost. An empty device type has one device without a name, which is never asserted. -/
def KeepsBits (p : DeviceIdPattern) (bitmap value : UInt64) : Prop :=
  p.domain.length ≤ 64 ∧ ∀ k < p.domain.length, BitsSet (bitmap.toNat <<< k % 2 ^ 64) value.toNat →
    (bitmap.toNat <<< k < 2 ^ 64 ↔ p.pattern ≠ "")

section
variable {deviceType : String} {c : CheckAccessor} {jsonAcc dataAcc : DataAccessor} {text : String} {bitmap : UInt64}

theorem hasData_of_integer (valid : dataAcc.dataValue.isValidInteger = true) : dataAcc.hasData = true := by
  have state : dataAcc.dataValue.state = .integer := by simpa [PropertyValue.isValidInteger] using valid
  simp [DataAccessor.hasData, PropertyValue.empty, state]

/-- With no more devices than bits, a device is asserted where the value has what is left of the moved bitmap. -/
theorem subCheck_narrow (built : ofString deviceType = .ok c.pattern) (criteria : BitmapOnly jsonAcc text)
    (parsed : PropertyValue.ofString text = ⟨text, bitmap, .integer⟩) (valid : dataAcc.dataValue.isValidInteger = true)
    (narrow : c.pattern.domain.length ≤ 64) (name : String) (deviceId : Int) :
    ∃ ret c' added, c.subCheck jsonAcc dataAcc name deviceId = .ok (ret, c') ∧
      c'.assertedDevices = c.assertedDevices ++ added ∧ NamedByIndex c.pattern added ∧
      ∀ k x, c.pattern.domain[k]? = some x → ((∃ d ∈ added, d.deviceIndexTuple = x) ↔ c.pattern.pattern ≠ "" ∧
        BitsSet (bitmap.toNat <<< k % 2 ^ 64) dataAcc.dataValue.value64.toNat) := by
  obtain ⟨values, evaluated⟩ := evaluated_domain c.pattern
  have each : ∀ x ∈ c.pattern.domain, ∃ s, c.pattern.eval x = .ok s := fun x member => ⟨values x, evaluated x member⟩
  obtain ⟨ret, c₁, added, walked, devices, names, entries⟩ :
      ∃ ret c₁ added, bitmapFrom dataAcc [("bitmap", text)] bitmap c.pattern.domain 0 false c = .ok (ret, c₁) ∧ _ :=
    bitmapFrom_ok built each (by rwa [Nat.zero_add]) false
  have run : c.subCheck jsonAcc dataAcc name deviceId = .ok (ret, c₁.markPassed ret) :=
    (subCheck_bitmapOnly criteria parsed (hasData_of_integer valid)).mpr ⟨c₁, walked, rfl⟩
  refine ⟨ret, c₁.markPassed ret, added, run, ?_, names, fun k x read => ?_⟩
  · rw [← devices]
    cases ret
    · rfl
    · rfl
  · have inside : k < 64 := (List.getElem?_eq_some_iff.mp read).1.trans_le narrow
    have place : (∃ k', c.pattern.domain[k']? = some x ∧ MeetsAt dataAcc [("bitmap", text)] bitmap (0 + k')) ↔
        MeetsAt dataAcc [("bitmap", text)] bitmap k := by
      constructor
      · rintro ⟨k', read', meets⟩
        rwa [Nat.zero_add, ← domain_get_inj read read'] at meets
      · intro meets
        exact ⟨k, read, by rwa [Nat.zero_add]⟩
    rw [entries, place, MeetsAt, PropertyValue.check_bitmap_iff valid, toNat_shifted bitmap inside]

end

/-- A bitmap asserts its devices bit by bit, exactly where shifting loses no bit that counts. -/
theorem assertedByBits_iff {deviceType : String} {c : CheckAccessor} (built : ofString deviceType = .ok c.pattern)
    {jsonAcc dataAcc : DataAccessor} {text : String} (criteria : BitmapOnly jsonAcc text) {bitmap : UInt64}
    (parsed : PropertyValue.ofString text = ⟨text, bitmap, .integer⟩)
    (valid : dataAcc.dataValue.isValidInteger = true) (name : String) (deviceId : Int) :
    AssertedByBits c jsonAcc dataAcc name deviceId bitmap ↔ KeepsBits c.pattern bitmap dataAcc.dataValue.value64 := by
  have bits : ∀ k, BitsSet (bitmap.toNat <<< k) dataAcc.dataValue.value64.toNat ↔ _ := fun k =>
    bitsSet_word_iff dataAcc.dataValue.value64.toNat_lt
  unfold AssertedByBits KeepsBits
  simp only [bits]
  constructor
  · rintro ⟨ret, c', added, run, devices, -, each⟩
    obtain ⟨c₁, walked, -⟩ := (subCheck_bitmapOnly criteria parsed (hasData_of_integer valid)).mp run
    have narrow : c.pattern.domain.length ≤ 64 := by
      rcases bitmapFrom_narrow walked with none | narrow
      · simp [none]
      · omega
    refine ⟨narrow, fun k inside left => ?_⟩
    obtain ⟨ret', c'', added', run', devices', -, each'⟩ :=
      subCheck_narrow built criteria parsed valid narrow name deviceId
    rw [run, Except.ok.injEq, Prod.mk.injEq] at run'
    obtain ⟨-, rfl⟩ := run'
    obtain rfl := List.append_cancel_left (devices.symm.trans devices')
    have read := List.getElem?_eq_getElem inside
    have both := (each k _ read).symm.trans (each' k _ read)
    rwa [and_iff_left left, and_iff_left left] at both
  · rintro ⟨narrow, kept⟩
    obtain ⟨ret, c', added, run, devices, names, each⟩ :=
      subCheck_narrow built criteria parsed valid narrow name deviceId
    refine ⟨ret, c', added, run, devices, names, fun k x read => ?_⟩
    rw [each k x read]
    refine and_congr_left fun left => ?_
    exact (kept k (List.getElem?_eq_some_iff.mp read).1 left).symm

/-- Criteria with a bitmap alone. -/
def bitmapped (text : String) : DataAccessor := { acc := .object [("check", .object [("bitmap", .string text)])] }

def valued (value : Nat) : DataAccessor := { dataValue := .ofVariant (.integer value) }

/-- Two switches, one bit each. -/
theorem assertedByBits_iff_switch : ∃ c₀, ofDeviceType "NVSwitch_[0-1]" = .ok c₀ ∧
    AssertedByBits c₀ (bitmapped "1") (valued 2) "" 0 1 := by
  have run : (ofDeviceType "NVSwitch_[0-1]").map (fun c₀ => (c₀.pattern.pattern, c₀.pattern.domain.length)) =
      .ok ("NVSwitch_[0-1]", 2) := by decide
  obtain ⟨c₀, created, facts⟩ := map_ok run
  obtain ⟨named, two⟩ := Prod.mk.inj facts
  have built := (ofDeviceType_fresh created).1
  have criteria : BitmapOnly (bitmapped "1") "1" := rfl
  have parsed : PropertyValue.ofString "1" = ⟨"1", 1, .integer⟩ := by decide
  have valid : (valued 2).dataValue.isValidInteger = true := by decide
  refine ⟨c₀, created, (assertedByBits_iff built criteria parsed valid "" 0).mpr ?_⟩
  refine ⟨two.trans_le (by decide), fun k inside _ => ?_⟩
  rw [two] at inside
  refine iff_of_true ?_ (by rw [named]; decide)
  interval_cases k
  · decide
  · decide

/-- The mask of the third device is empty: the bit it asks for was shifted out, and the device is asserted. -/
theorem assertedByBits_lost : ∃ c₀, ofDeviceType "GPU_[0-2]" = .ok c₀ ∧
    ¬ AssertedByBits c₀ (bitmapped "0x4000000000000000") (valued 0) "" 0 0x4000000000000000 := by
  have run : (ofDeviceType "GPU_[0-2]").map (fun c₀ => (c₀.pattern.pattern, c₀.pattern.domain.length)) =
      .ok ("GPU_[0-2]", 3) := by decide
  obtain ⟨c₀, created, facts⟩ := map_ok run
  obtain ⟨named, three⟩ := Prod.mk.inj facts
  have built := (ofDeviceType_fresh created).1
  have criteria : BitmapOnly (bitmapped "0x4000000000000000") "0x4000000000000000" := rfl
  have parsed : PropertyValue.ofString "0x4000000000000000" = ⟨"0x4000000000000000", 0x4000000000000000, .integer⟩ := by
    decide
  have valid : (valued 0).dataValue.isValidInteger = true := by decide
  refine ⟨c₀, created, ?_⟩
  rintro ⟨ret, c', added, asserted, devices, -, each⟩
  obtain ⟨ret', c'', added', asserted', devices', -, each'⟩ :=
    subCheck_narrow built criteria parsed valid (three.trans_le (by decide)) "" 0
  rw [asserted, Except.ok.injEq, Prod.mk.injEq] at asserted'
  obtain ⟨-, rfl⟩ := asserted'
  obtain rfl := List.append_cancel_left (devices.symm.trans devices')
  have inside : 2 < c₀.pattern.domain.length := by rw [three]; decide
  have read := List.getElem?_eq_getElem inside
  have left := (each' 2 _ read).mpr ⟨by rw [named]; decide, fun i bit => by simp at bit⟩
  have all := (each 2 _ read).mp left 64 (by decide)
  cases all

end CheckAccessor

end MonitorEventing.Accessor
