import MonitorEventing.Accessor.CheckAccessor
import MonitorEventing.DeviceId.Values

/-!
# Coherent asserted devices

An asserted device carries a name and an index tuple. They belong together where the tuple is one of
the device type's and the name is the first component of the device type at that tuple. Each path of
a check derives the two in its own way; what a path reports is the list of name and tuple pairs it
adds.
-/

namespace MonitorEventing.Accessor
open DeviceId DeviceId.DeviceIdPattern DeviceUtil

def Coherent (p : DeviceIdPattern) (device : String) (tuple : PatternIndex) : Prop :=
  p.InDomain tuple ∧ ∃ s, p.eval tuple = .ok s ∧ getFirstDeviceTypePattern s = device

/-- No index stands where the pattern has no bracket. -/
def Tight (p : DeviceIdPattern) (index : PatternIndex) : Prop :=
  ∀ i < p.dim, ¬ p.IsBound i → index.get i = PatternIndex.unspecified

instance (p : DeviceIdPattern) (index : PatternIndex) : Decidable (Tight p index) :=
  inferInstanceAs (Decidable (∀ i < p.dim, ¬ p.IsBound i → index.get i = PatternIndex.unspecified))

/-! ### Tuples -/

theorem accepts_bound {p : DeviceIdPattern} {x : PatternIndex} (accepted : p.Accepts x) {i : Nat} (inside : i < p.dim)
    (bound : p.IsBound i) : ∃ n ∈ (p.dimDomain i).domain, x.get i = n := by
  have contained := accepted i inside
  have restricted : (p.dimDomain i).unspecified = false := by
    rw [← Bool.not_eq_true, unspecified_iff inside]
    exact not_not.mpr bound
  rw [PatternInputDomain.contains, restricted, Bool.false_or, Bool.and_eq_true, decide_eq_true_eq,
    List.contains_iff_mem] at contained
  refine ⟨(x.get i).toNat, contained.2, ?_⟩
  omega

theorem inDomain_iff {p : DeviceIdPattern} {x : PatternIndex} (accepted : p.Accepts x) (short : x.dim ≤ p.dim) :
    p.InDomain x ↔ Tight p x := by
  constructor
  · intro inDomain i inside free
    exact ((allows_dimDomain inside _).mp (inDomain.2 i inside)).2 free
  · intro tight
    refine ⟨short, fun i inside => ?_⟩
    apply (allows_dimDomain inside _).mpr
    exact ⟨accepts_bound accepted inside, tight i inside⟩

theorem get_last_nonneg {p : DeviceIdPattern} (ranged : 1 ≤ p.dim) {x : PatternIndex} (accepted : p.Accepts x) :
    0 ≤ x.get (p.dim - 1) := by
  obtain ⟨n, _, same⟩ := accepts_bound accepted (by omega) (last_bound ranged)
  rw [same]
  omega

theorem dim_eq_of_inDomain {p : DeviceIdPattern} (ranged : 1 ≤ p.dim) {x : PatternIndex} (inDomain : p.InDomain x) :
    x.dim = p.dim := by
  by_contra other
  have short := inDomain.1
  have last := get_last_nonneg ranged inDomain.accepts
  rw [PatternIndex.get_beyond (by omega)] at last
  exact absurd last (by decide)

theorem dim_ofList_single (v : Int) : (PatternIndex.ofList [v]).dim ≤ 1 := by
  apply PatternIndex.dim_le_iff.mpr
  intro i beyond
  rw [PatternIndex.get_ofList, List.getD_eq_default _ _ (by simpa using beyond)]
  rfl

theorem ofList_get_zero {x : PatternIndex} (short : x.dim ≤ 1) : PatternIndex.ofList [x.get 0] = x := by
  apply PatternIndex.ext
  intro i
  rw [PatternIndex.get_ofList]
  cases i with
  | zero => exact PatternIndex.clip_get x 0
  | succ i =>
    rw [PatternIndex.get_beyond (by omega : x.dim ≤ i + 1)]
    rfl

/-- The tuple an entry gets for a device number, given the index the check has matched. -/
def tupleFor (index : PatternIndex) (deviceId : Int) : PatternIndex :=
  if deviceId = invalidDeviceId then index else .ofList [deviceId]

theorem tupleFor_single {index x : PatternIndex} {p : DeviceIdPattern} (single : p.dim = 1) (accepted : p.Accepts x)
    (short : x.dim ≤ 1) : tupleFor index (x.get 0) = x := by
  have given := get_last_nonneg single.ge accepted
  have first : p.dim - 1 = 0 := by omega
  rw [first] at given
  rw [tupleFor, if_neg (by rw [invalidDeviceId]; omega), ofList_get_zero short]

/-! ### Names -/

theorem pattern_nonempty {deviceType : String} {p : DeviceIdPattern} (built : ofString deviceType = .ok p)
    (ranged : 1 ≤ p.dim) : p.pattern ≠ "" := by
  intro empty
  have source : deviceType = "" := (pattern_ofString built).symm.trans empty
  have used : p.IsBound (p.dim - 1) := last_bound ranged
  rw [IsBound, (plain_fields built (by rw [source]; intro c none; cases none)).2] at used
  cases used

theorem determineDeviceName_iff {deviceType : String} {p : DeviceIdPattern}
    (built : ofString deviceType = .ok p) (ranged : 1 ≤ p.dim) {index : PatternIndex} {name : String}
    (some : name ≠ "") : determineDeviceName p index = .ok name ↔
      index.dim = p.dim ∧ ∃ s, p.eval index = .ok s ∧ getFirstDeviceTypePattern s = name := by
  unfold determineDeviceName
  by_cases fits : p.dim = index.dim
  · rw [if_pos ⟨pattern_nonempty built ranged, fits⟩]
    rw [bind_ok_iff, and_iff_right fits.symm]
    simp only [pure_ok_iff]
  · rw [if_neg (fun both => fits both.2)]
    simp [Ne.symm fits, Ne.symm some]

theorem coherent_name_iff {deviceType : String} {p : DeviceIdPattern}
    (built : ofString deviceType = .ok p) (ranged : 1 ≤ p.dim) {index : PatternIndex} {name : String}
    (some : name ≠ "") (named : determineDeviceName p index = .ok name) : Coherent p name index ↔ Tight p index := by
  obtain ⟨dims, s, evaluated, first⟩ := (determineDeviceName_iff built ranged some).mp named
  rw [← inDomain_iff (eval_ok_iff.mp ⟨s, evaluated⟩) dims.le]
  exact and_iff_left ⟨s, evaluated, first⟩

theorem tight_single {p : DeviceIdPattern} (single : p.dim = 1) (index : PatternIndex) : Tight p index := by
  intro i inside free
  have used := last_bound single.ge
  have zero : i = p.dim - 1 := by omega
  exact absurd (zero ▸ used) free

theorem coherent_value_iff {deviceType : String} {p : DeviceIdPattern}
    (built : ofString deviceType = .ok p) {x : PatternIndex} (member : x ∈ p.domain) {value : String}
    (evaluated : p.eval x = .ok value) : Coherent p value x ↔ '/' ∉ deviceType.toList := by
  rw [← mem_value_iff built evaluated (by decide) (by decide) (by decide)]
  constructor
  · intro coherent
    obtain ⟨_, s, same, first⟩ := coherent
    rw [evaluated] at same
    obtain rfl := Except.ok.inj same
    rw [← first]
    exact first_has_no_slash value
  · intro plain
    exact ⟨inDomain_of_mem member, value, evaluated, first_plain plain⟩

theorem coherent_loop_iff {deviceType : String} {p : DeviceIdPattern}
    (built : ofString deviceType = .ok p) (ranged : 1 ≤ p.dim) {index x : PatternIndex}
    (unnamed : determineDeviceName p index = .ok "") (member : x ∈ p.domain) {value : String}
    (evaluated : p.eval x = .ok value) :
    Coherent p value (tupleFor index (x.get 0)) ↔ p.dim = 1 ∧ '/' ∉ deviceType.toList := by
  have inDomain := inDomain_of_mem member
  rw [← coherent_value_iff built member evaluated]
  by_cases single : p.dim = 1
  · rw [tupleFor_single single inDomain.accepts (single ▸ inDomain.1)]
    exact (and_iff_right single).symm
  · apply iff_of_false
    · intro coherent
      have dims := dim_eq_of_inDomain ranged coherent.1
      by_cases invalid : x.get 0 = invalidDeviceId
      · rw [tupleFor, if_pos invalid] at coherent dims
        have named := (determineDeviceName_iff built ranged (eval_nonempty ranged evaluated)).mpr ⟨dims, coherent.2⟩
        rw [unnamed] at named
        exact eval_nonempty ranged evaluated (Except.ok.inj named).symm
      · rw [tupleFor, if_neg invalid] at dims
        have short := dim_ofList_single (x.get 0)
        omega
    · exact fun both => single both.1

theorem coherent_command_iff {deviceType : String} {p : DeviceIdPattern}
    (built : ofString deviceType = .ok p) (ranged : 1 ≤ p.dim) {index : PatternIndex} {name : String}
    (some : name ≠ "") (named : determineDeviceName p index = .ok name) :
    Coherent p name (tupleFor index (index.get 0)) ↔
      p.dim = 1 ∨ (index.get 0 = PatternIndex.unspecified ∧ Tight p index) := by
  obtain ⟨dims, s, evaluated, _⟩ := (determineDeviceName_iff built ranged some).mp named
  by_cases single : p.dim = 1
  · have accepted := eval_ok_iff.mp ⟨s, evaluated⟩
    rw [tupleFor_single single accepted (by omega), coherent_name_iff built ranged some named]
    exact iff_of_true (tight_single single index) (Or.inl single)
  · rw [or_iff_right single, tupleFor]
    by_cases invalid : index.get 0 = invalidDeviceId
    · rw [if_pos invalid, coherent_name_iff built ranged some named]
      exact (and_iff_right invalid).symm
    · rw [if_neg invalid]
      apply iff_of_false
      · intro coherent
        have wide := dim_eq_of_inDomain ranged coherent.1
        have short := dim_ofList_single (index.get 0)
        omega
      · exact fun both => invalid both.1

theorem coherent_core_iff {deviceType : String} {p : DeviceIdPattern}
    (built : ofString deviceType = .ok p) (ranged : 1 ≤ p.dim) {index : PatternIndex} {deviceId : Nat}
    {device : String}
    (some : device ≠ "") : Coherent p device (tupleFor index deviceId) ↔
      p.dim = 1 ∧ determineDeviceName p (.ofList [(deviceId : Int)]) = .ok device := by
  have given : (deviceId : Int) ≠ invalidDeviceId := by
    rw [invalidDeviceId]
    omega
  rw [tupleFor, if_neg given]
  constructor
  · intro coherent
    have dims := dim_eq_of_inDomain ranged coherent.1
    have short := dim_ofList_single (deviceId : Int)
    exact ⟨by omega, (determineDeviceName_iff built ranged some).mpr ⟨dims, coherent.2⟩⟩
  · intro both
    obtain ⟨single, named⟩ := both
    rw [coherent_name_iff built ranged some named]
    exact tight_single single _

/-! ### What the paths report -/

namespace CheckAccessor

def entry (d : AssertedDevice) : String × PatternIndex := (d.device, d.deviceIndexTuple)

/-- Between the two states the entries were added, and the device type and the index kept. -/
structure Reports (c c' : CheckAccessor) (added : List (String × PatternIndex)) : Prop where
  pattern : c'.pattern = c.pattern
  index : c'.index = c.index
  entries : c'.assertedDevices.map entry = c.assertedDevices.map entry ++ added

theorem reports_of_same {c c' : CheckAccessor} (pattern : c'.pattern = c.pattern) (index : c'.index = c.index)
    (devices : c'.assertedDevices = c.assertedDevices) : Reports c c' [] :=
  ⟨pattern, index, by rw [devices, List.append_nil]⟩

theorem Reports.trans {c c' c'' : CheckAccessor} {first second : List (String × PatternIndex)}
    (left : Reports c c' first) (right : Reports c' c'' second) : Reports c c'' (first ++ second) := by
  refine ⟨right.pattern.trans left.pattern, right.index.trans left.index, ?_⟩
  rw [right.entries, left.entries, List.append_assoc]

theorem reports_markPassed (c : CheckAccessor) (ret : Bool) : Reports c (c.markPassed ret) [] := by
  unfold markPassed
  split
  · exact reports_of_same rfl rfl rfl
  · exact reports_of_same rfl rfl rfl

theorem Reports.markPassed {c c' : CheckAccessor} {added : List (String × PatternIndex)} (h : Reports c c' added)
    (ret : Bool) : Reports c (c'.markPassed ret) added := by
  have both := h.trans (reports_markPassed c' ret)
  rwa [List.append_nil] at both

def single (name : String) (tuple : PatternIndex) : List (String × PatternIndex) :=
  if name = "" then [] else [(name, tuple)]

theorem build_reports {c c' : CheckAccessor} {dataAcc : DataAccessor} {name : String} {tuple : PatternIndex}
    (ranged : 1 ≤ c.pattern.dim) (h : c.buildSingleAssertedDeviceName dataAcc name tuple = .ok c') :
    Reports c c' (single name tuple) := by
  have range : existsRange c.pattern = true := decide_eq_true ranged
  unfold buildSingleAssertedDeviceName at h
  rw [if_neg (by rw [range]; simp)] at h
  obtain ⟨_, same, h⟩ := bind_ok h
  obtain rfl := pure_ok_iff.mp same
  dsimp only at h
  unfold single
  by_cases empty : name = ""
  · rw [if_neg (not_not.mpr empty), pure_ok_iff] at h
    rw [if_pos empty, ← h]
    exact reports_of_same rfl rfl rfl
  · rw [if_pos empty, pure_ok_iff] at h
    rw [if_neg empty, ← h]
    exact ⟨rfl, rfl, List.map_append⟩

theorem buildWithId_reports {c c' : CheckAccessor} {dataAcc : DataAccessor} {name : String} {deviceId : Int}
    (ranged : 1 ≤ c.pattern.dim) (h : c.buildSingleWithId dataAcc name deviceId = .ok c') :
    Reports c c' (single name (tupleFor c.index deviceId)) := by
  unfold buildSingleWithId at h
  unfold tupleFor
  by_cases invalid : deviceId = invalidDeviceId
  · rw [if_pos invalid] at h ⊢
    exact build_reports ranged h
  · rw [if_neg invalid] at h ⊢
    exact build_reports ranged h

/-- Entries were added that all have the property, and some if the step has passed. -/
def ReportsAll (P : String × PatternIndex → Prop) (c c' : CheckAccessor) (ret : Bool) : Prop :=
  ∃ added, Reports c c' added ∧ (∀ e ∈ added, P e) ∧ (ret = true → added ≠ [])

theorem ReportsAll.append {P : String × PatternIndex → Prop} {c c' c'' : CheckAccessor} {first second : Bool}
    (left : ReportsAll P c c' first) (right : ReportsAll P c' c'' second) : ReportsAll P c c'' (first || second) := by
  obtain ⟨before, reported, all, some⟩ := left
  obtain ⟨after, reported', all', some'⟩ := right
  refine ⟨before ++ after, reported.trans reported', ?_, ?_⟩
  · intro e member
    exact (List.mem_append.mp member).elim (all e) (all' e)
  · intro either none
    obtain ⟨noneBefore, noneAfter⟩ := List.append_eq_nil_iff.mp none
    rcases Bool.or_eq_true _ _ ▸ either with passed | passed
    · exact some passed noneBefore
    · exact some' passed noneAfter

theorem reportsAll_refl (P : String × PatternIndex → Prop) (c : CheckAccessor) : ReportsAll P c c false :=
  ⟨[], reports_of_same rfl rfl rfl, fun _ none => absurd none List.not_mem_nil, fun no => absurd no (by decide)⟩

theorem reportsAll_single {P : String × PatternIndex → Prop} {c c' : CheckAccessor} {name : String}
    {tuple : PatternIndex} (some : name ≠ "") (reported : Reports c c' (single name tuple)) (holds : P (name, tuple)) :
    ReportsAll P c c' true := by
  rw [single, if_neg some] at reported
  refine ⟨_, reported, fun e member => ?_, fun _ => List.cons_ne_nil _ _⟩
  rw [List.mem_singleton.mp member]
  exact holds

def IsValue (p : DeviceIdPattern) (e : String × PatternIndex) : Prop := e.2 ∈ p.domain ∧ p.eval e.2 = .ok e.1

/-- One round of the walk over a bitmap. -/
theorem bitmapFrom_step {dataAcc : DataAccessor} {checkMap : List (String × String)} {bitmap : UInt64}
    {index : PatternIndex} {rest : List PatternIndex} {shift : Nat} {before ret : Bool} {c c' : CheckAccessor}
    (h : bitmapFrom dataAcc checkMap bitmap (index :: rest) shift before c = .ok (ret, c')) :
    shift < 64 ∧ ((∃ value c₁, c.pattern.eval index = .ok value ∧
        c.buildSingleAssertedDeviceName dataAcc value index = .ok c₁ ∧
        bitmapFrom dataAcc checkMap bitmap rest (shift + 1) true c₁ = .ok (ret, c')) ∨
      bitmapFrom dataAcc checkMap bitmap rest (shift + 1) before c = .ok (ret, c')) := by
  unfold bitmapFrom at h
  split at h
  · cases h
  · rename_i narrow
    refine ⟨Nat.lt_of_not_le narrow, ?_⟩
    split at h
    · obtain ⟨value, evaluated, h⟩ := bind_ok h
      obtain ⟨c₁, built, h⟩ := bind_ok h
      exact Or.inl ⟨value, c₁, evaluated, built, h⟩
    · exact Or.inr h

theorem bitmapFrom_reports {dataAcc : DataAccessor} {checkMap : List (String × String)} {bitmap : UInt64}
    {indexes : List PatternIndex} {shift : Nat} {before ret : Bool} {c c' : CheckAccessor}
    (ranged : 1 ≤ c.pattern.dim) (listed : ∀ x ∈ indexes, x ∈ c.pattern.domain)
    (h : bitmapFrom dataAcc checkMap bitmap indexes shift before c = .ok (ret, c')) :
    ∃ step, ReportsAll (IsValue c.pattern) c c' step ∧ ret = (before || step) := by
  induction indexes generalizing shift before c with
  | nil =>
    obtain ⟨rfl, rfl⟩ := Prod.mk.inj (Except.ok.inj h)
    exact ⟨false, reportsAll_refl _ c, (Bool.or_false before).symm⟩
  | cons index rest ih =>
    obtain ⟨first, listed⟩ := List.forall_mem_cons.mp listed
    obtain ⟨-, ⟨value, c₁, evaluated, built, h⟩ | h⟩ := bitmapFrom_step h
    · have reported := build_reports ranged built
      have same := reported.pattern
      rw [← same] at ranged listed
      obtain ⟨step, later, result⟩ := ih ranged listed h
      rw [same] at later ranged
      have now : ReportsAll (IsValue c.pattern) c c₁ true :=
        reportsAll_single (eval_nonempty ranged evaluated) reported ⟨first, evaluated⟩
      refine ⟨true || step, now.append later, ?_⟩
      rw [result, Bool.true_or, Bool.or_true]
    · exact ih ranged listed h

/-- How a check of one value ends: without a device, after the walk over a bitmap, or with one device. -/
theorem subCheck_cases {c c' : CheckAccessor} {jsonAcc dataAcc : DataAccessor} {name : String} {deviceId : Int}
    {ret : Bool} (h : c.subCheck jsonAcc dataAcc name deviceId = .ok (ret, c')) :
    (ret = false ∧ c' = c) ∨
    (jsonAcc.existsCheckBitmap = true ∧ ∃ checkMap bitmap c₁,
      bitmapFrom dataAcc checkMap bitmap c.pattern.domain 0 false c = .ok (ret, c₁) ∧ c' = c₁.markPassed ret) ∨
    (jsonAcc.existsCheckBitmap = false ∧ ret = true ∧ ∃ c₁,
      c.buildSingleWithId dataAcc name deviceId = .ok c₁ ∧ c' = c₁.markPassed true) := by
  unfold subCheck at h
  split at h
  · obtain ⟨rfl, rfl⟩ := Prod.mk.inj (Except.ok.inj h)
    exact Or.inl ⟨rfl, rfl⟩
  · obtain ⟨check, _, h⟩ := bind_ok h
    obtain ⟨checkMap, _, h⟩ := bind_ok h
    dsimp only at h
    by_cases bitmap : jsonAcc.existsCheckBitmap = true
    · rw [if_pos bitmap] at h
      obtain ⟨_, _, h⟩ := bind_ok h
      obtain ⟨_, _, h⟩ := bind_ok h
      split at h
      · obtain ⟨⟨passed, c₁⟩, walked, final⟩ := bind_ok h
        obtain ⟨rfl, rfl⟩ := Prod.mk.inj (Except.ok.inj final)
        exact Or.inr (Or.inl ⟨bitmap, _, _, c₁, walked, rfl⟩)
      · obtain ⟨rfl, rfl⟩ := Prod.mk.inj (Except.ok.inj h)
        exact Or.inl ⟨rfl, rfl⟩
    · rw [if_neg bitmap] at h
      split at h
      · obtain ⟨c₁, built, h⟩ := bind_ok h
        obtain ⟨rfl, rfl⟩ := Prod.mk.inj (Except.ok.inj h)
        exact Or.inr (Or.inr ⟨eq_false_of_ne_true bitmap, rfl, c₁, built, rfl⟩)
      · obtain ⟨rfl, rfl⟩ := Prod.mk.inj (Except.ok.inj h)
        exact Or.inl ⟨rfl, rfl⟩

theorem subCheck_bitmap {c c' : CheckAccessor} {jsonAcc dataAcc : DataAccessor} {name : String} {deviceId : Int}
    {ret : Bool} (ranged : 1 ≤ c.pattern.dim) (bitmap : jsonAcc.existsCheckBitmap = true)
    (h : c.subCheck jsonAcc dataAcc name deviceId = .ok (ret, c')) : ReportsAll (IsValue c.pattern) c c' ret := by
  rcases subCheck_cases h with ⟨rfl, rfl⟩ | ⟨_, _, _, c₁, walked, rfl⟩ | ⟨none, _⟩
  · exact reportsAll_refl _ _
  · obtain ⟨step, ⟨added, reported, all⟩, result⟩ := bitmapFrom_reports ranged (fun _ member => member) walked
    rw [Bool.false_or] at result
    rw [result]
    exact ⟨added, reported.markPassed step, all⟩
  · rw [bitmap] at none
    cases none

theorem subCheck_single {c c' : CheckAccessor} {jsonAcc dataAcc : DataAccessor} {name : String} {deviceId : Int}
    {ret : Bool} (ranged : 1 ≤ c.pattern.dim) (bitmap : jsonAcc.existsCheckBitmap = false)
    (h : c.subCheck jsonAcc dataAcc name deviceId = .ok (ret, c')) :
    Reports c c' (if ret then single name (tupleFor c.index deviceId) else []) := by
  rcases subCheck_cases h with ⟨rfl, rfl⟩ | ⟨some, _⟩ | ⟨_, rfl, c₁, built, rfl⟩
  · exact reports_of_same rfl rfl rfl
  · rw [bitmap] at some
    cases some
  · exact (buildWithId_reports ranged built).markPassed true

theorem loopDevices_reports {P : String × PatternIndex → Prop} {env : Env} {jsonAcc : DataAccessor}
    {p : DeviceIdPattern} {matched : PatternIndex} {indexes : List PatternIndex} {before ret : Bool}
    {dataAcc : DataAccessor} {c c' : CheckAccessor} (pattern : c.pattern = p) (index : c.index = matched)
    (each : ∀ x ∈ indexes, ∀ (name : String) (acc : DataAccessor) (d d' : CheckAccessor) (passed : Bool),
      d.pattern = p → d.index = matched → p.eval x = .ok name →
      d.subCheck jsonAcc acc name (x.get 0) = .ok (passed, d') → ReportsAll P d d' passed)
    (h : loopDevices env jsonAcc indexes before dataAcc c = .ok (ret, c')) :
    ∃ step, ReportsAll P c c' step ∧ ret = (before || step) := by
  induction indexes generalizing before dataAcc c with
  | nil =>
    obtain ⟨rfl, rfl⟩ := Prod.mk.inj (Except.ok.inj h)
    exact ⟨false, reportsAll_refl _ c, (Bool.or_false before).symm⟩
  | cons x rest ih =>
    obtain ⟨here, each⟩ := List.forall_mem_cons.mp each
    obtain ⟨name, evaluated, h⟩ := bind_ok h
    obtain ⟨⟨_, acc⟩, _, h⟩ := bind_ok h
    obtain ⟨⟨passed, c₁⟩, checked, h⟩ := bind_ok h
    have now := here name acc c c₁ passed pattern index (pattern ▸ evaluated) checked
    have ⟨_, reported, _⟩ := now
    obtain ⟨step, later, result⟩ := ih (reported.pattern.trans pattern) (reported.index.trans index) each h
    refine ⟨passed || step, ReportsAll.append now later, ?_⟩
    rw [result, Bool.or_assoc]

/-! ### The routes of a check -/

def loopsOver (jsonAcc : DataAccessor) : Bool :=
  (jsonAcc.isTypeCmdline && (jsonAcc.getArguments >>= existsRangeIn) = .ok true) ||
    (jsonAcc.isTypeDeviceCoreApi && jsonAcc.isDeviceIdRange)

theorem devRange_ok {c : CheckAccessor} {jsonAcc : DataAccessor} {name : String} {indexes : List PatternIndex}
    (h : c.devRange jsonAcc name = .ok indexes) :
    indexes = if name = "" ∧ loopsOver jsonAcc = true then c.pattern.domain else [] := by
  unfold devRange at h
  unfold loopsOver
  by_cases unnamed : name = ""
  · rw [if_pos unnamed] at h
    by_cases command : jsonAcc.isTypeCmdline = true
    · have notCore : jsonAcc.isTypeDeviceCoreApi = false := DataAccessor.isType_other command (by decide)
      rw [if_pos command] at h
      obtain ⟨arguments, read, h⟩ := bind_ok h
      obtain ⟨ranged, found, h⟩ := bind_ok h
      have known : (jsonAcc.getArguments >>= existsRangeIn) = .ok ranged := bind_ok_iff.mpr ⟨arguments, read, found⟩
      rw [known]
      cases ranged <;> simp_all
    · rw [if_neg command] at h
      by_cases core : jsonAcc.isTypeDeviceCoreApi = true ∧ jsonAcc.isDeviceIdRange = true
      · simp_all
      · simp_all
  · rw [if_neg unnamed, pure_ok_iff] at h
    rw [if_neg (fun both => unnamed both.1), h]

theorem getCurrentDevice_ok {c : CheckAccessor} {name : String} (ranged : 1 ≤ c.pattern.dim)
    (untriggered : c.triggerAssertedDevice = "") (h : c.getCurrentDevice = .ok name) :
    determineDeviceName c.pattern c.index = .ok name := by
  unfold getCurrentDevice at h
  rw [if_pos (show c.pattern.dim > 0 from ranged)] at h
  obtain ⟨determined, found, h⟩ := bind_ok h
  dsimp only at h
  rw [if_neg (fun both => both.2 untriggered), pure_ok_iff] at h
  rw [found, h]

theorem checkDevices_cases {env : Env} {c c' : CheckAccessor} {jsonAcc dataAcc acc : DataAccessor} {name : String}
    {ret : Bool} (h : c.checkDevices env jsonAcc dataAcc name = .ok (ret, acc, c')) :
    ((name = "" ∧ loopsOver jsonAcc = true ∧ c.pattern.domain ≠ []) ∧
        loopDevices env jsonAcc c.pattern.domain false jsonAcc c = .ok (ret, c')) ∨
      (¬ (name = "" ∧ loopsOver jsonAcc = true ∧ c.pattern.domain ≠ []) ∧
        ∃ read, c.subCheck jsonAcc read name invalidDeviceId = .ok (ret, c')) := by
  unfold checkDevices at h
  obtain ⟨indexes, range, h⟩ := bind_ok h
  have range := devRange_ok range
  by_cases loops : name = "" ∧ loopsOver jsonAcc = true ∧ c.pattern.domain ≠ []
  · left
    rw [if_pos ⟨loops.1, loops.2.1⟩] at range
    rw [range, if_pos loops.2.2] at h
    obtain ⟨⟨passed, c₁⟩, looped, h⟩ := bind_ok h
    simp only [pure_ok_iff, Prod.mk.injEq] at h
    obtain ⟨rfl, _, rfl⟩ := h
    exact ⟨loops, looped⟩
  · right
    have none : ¬ indexes ≠ [] := by
      rw [range]
      split
      · rename_i both
        exact fun some => loops ⟨both.1, both.2, some⟩
      · exact fun some => some rfl
    rw [if_neg none] at h
    obtain ⟨read, _, h⟩ := bind_ok h
    obtain ⟨⟨passed, c₁⟩, checked, h⟩ := bind_ok h
    simp only [pure_ok_iff, Prod.mk.injEq] at h
    obtain ⟨rfl, _, rfl⟩ := h
    exact ⟨loops, read, checked⟩

/-- A check begins with a device or none, and goes through its criteria where there are some. -/
theorem privCheck_cases {env : Env} {c c' : CheckAccessor} {jsonAcc dataAcc acc : DataAccessor} {ret : Bool}
    (h : c.privCheck env jsonAcc dataAcc = .ok (ret, acc, c')) :
    ∃ name c₁, (c.start dataAcc).getCurrentDevice = .ok name ∧ c' = c₁.markPassed ret ∧
      ((jsonAcc.existsCheckKey = true ∧
          (c.start dataAcc).checkDevices env jsonAcc dataAcc name = .ok (ret, acc, c₁)) ∨
        (jsonAcc.existsCheckKey = false ∧ jsonAcc.existsCheckBitmap = false ∧ ret = true ∧
          (c.start dataAcc).buildSingleAssertedDeviceName dataAcc name c.index = .ok c₁)) := by
  unfold privCheck at h
  obtain ⟨name, current, h⟩ := bind_ok h
  by_cases key : jsonAcc.existsCheckKey = true
  · rw [if_pos key] at h
    obtain ⟨⟨passed, read, c₁⟩, checked, h⟩ := bind_ok h
    simp only [pure_ok_iff, Prod.mk.injEq] at h
    obtain ⟨rfl, rfl, rfl⟩ := h
    exact ⟨name, c₁, current, rfl, Or.inl ⟨key, checked⟩⟩
  · rw [if_neg key] at h
    obtain ⟨c₁, added, h⟩ := bind_ok h
    simp only [pure_ok_iff, Prod.mk.injEq] at h
    obtain ⟨rfl, _, rfl⟩ := h
    have noBitmap : ¬ jsonAcc.existsCheckBitmap = true := fun bitmap => key (Bool.and_eq_true _ _ ▸ bitmap).1
    exact ⟨name, c₁, current, rfl, Or.inr ⟨eq_false_of_ne_true key, eq_false_of_ne_true noBitmap, rfl, added⟩⟩

/-! ### When the entries are coherent -/

def AllCoherent (p : DeviceIdPattern) (c : CheckAccessor) : Prop :=
  ∀ d ∈ c.assertedDevices, Coherent p d.device d.deviceIndexTuple

theorem allCoherent_markPassed (p : DeviceIdPattern) (c : CheckAccessor) (ret : Bool) :
    AllCoherent p (c.markPassed ret) ↔ AllCoherent p c := by
  unfold markPassed
  split
  · rfl
  · rfl

theorem allCoherent_iff {c c' : CheckAccessor} {added : List (String × PatternIndex)} (fresh : c.assertedDevices = [])
    (reported : Reports c c' added) : AllCoherent c.pattern c' ↔ ∀ e ∈ added, Coherent c.pattern e.1 e.2 := by
  have entries := reported.entries
  rw [fresh, List.map_nil, List.nil_append] at entries
  rw [← entries, List.forall_mem_map]
  rfl

theorem allCoherent_of_each {P : String × PatternIndex → Prop} {cond : Prop} {c c' : CheckAccessor}
    (fresh : c.assertedDevices = []) (reported : ReportsAll P c c' true)
    (each : ∀ e, P e → (Coherent c.pattern e.1 e.2 ↔ cond)) : AllCoherent c.pattern c' ↔ cond := by
  obtain ⟨added, reported, all, some⟩ := reported
  rw [allCoherent_iff fresh reported]
  constructor
  · intro coherent
    obtain ⟨e, member⟩ := List.exists_mem_of_ne_nil added (some rfl)
    exact (each e (all e member)).mp (coherent e member)
  · intro holds e member
    exact (each e (all e member)).mpr holds

theorem allCoherent_single {c c' : CheckAccessor} {name : String} {tuple : PatternIndex}
    (fresh : c.assertedDevices = []) (reported : Reports c c' (single name tuple)) :
    AllCoherent c.pattern c' ↔ (name ≠ "" → Coherent c.pattern name tuple) := by
  rw [allCoherent_iff fresh reported, single]
  by_cases empty : name = ""
  · simp [empty]
  · simp [empty]

theorem subCheck_coherent_bitmap {deviceType : String} {c c' : CheckAccessor} {jsonAcc dataAcc : DataAccessor}
    {name : String} {deviceId : Int} (built : ofString deviceType = .ok c.pattern) (ranged : 1 ≤ c.pattern.dim)
    (fresh : c.assertedDevices = []) (bitmap : jsonAcc.existsCheckBitmap = true)
    (h : c.subCheck jsonAcc dataAcc name deviceId = .ok (true, c')) : AllCoherent c.pattern c' ↔ '/' ∉ deviceType.toList := by
  apply allCoherent_of_each fresh (subCheck_bitmap ranged bitmap h)
  intro e value
  exact coherent_value_iff built value.1 value.2

theorem subCheck_coherent {c c' : CheckAccessor} {jsonAcc dataAcc : DataAccessor} {name : String} {deviceId : Int}
    (ranged : 1 ≤ c.pattern.dim) (fresh : c.assertedDevices = []) (noBitmap : jsonAcc.existsCheckBitmap = false)
    (h : c.subCheck jsonAcc dataAcc name deviceId = .ok (true, c')) :
    AllCoherent c.pattern c' ↔ (name ≠ "" → Coherent c.pattern name (tupleFor c.index deviceId)) := by
  have reported := subCheck_single ranged noBitmap h
  rw [if_pos rfl] at reported
  exact allCoherent_single fresh reported

theorem loop_coherent_bitmap {deviceType : String} {env : Env} {c c' : CheckAccessor} {jsonAcc dataAcc : DataAccessor}
    (built : ofString deviceType = .ok c.pattern) (ranged : 1 ≤ c.pattern.dim)
    (fresh : c.assertedDevices = []) (bitmap : jsonAcc.existsCheckBitmap = true)
    (h : loopDevices env jsonAcc c.pattern.domain false dataAcc c = .ok (true, c')) :
    AllCoherent c.pattern c' ↔ '/' ∉ deviceType.toList := by
  obtain ⟨step, reported, rfl⟩ := loopDevices_reports (P := IsValue c.pattern) rfl rfl
    (fun x _ name acc d d' passed pattern _ _ checked => by
      rw [← pattern] at ranged ⊢
      exact subCheck_bitmap ranged bitmap checked) h
  apply allCoherent_of_each fresh reported
  intro e value
  exact coherent_value_iff built value.1 value.2

theorem loop_coherent {deviceType : String} {env : Env} {c c' : CheckAccessor} {jsonAcc dataAcc : DataAccessor}
    (built : ofString deviceType = .ok c.pattern) (ranged : 1 ≤ c.pattern.dim) (fresh : c.assertedDevices = [])
    (noBitmap : jsonAcc.existsCheckBitmap = false) (unnamed : determineDeviceName c.pattern c.index = .ok "")
    (h : loopDevices env jsonAcc c.pattern.domain false dataAcc c = .ok (true, c')) :
    AllCoherent c.pattern c' ↔ c.pattern.dim = 1 ∧ '/' ∉ deviceType.toList := by
  obtain ⟨step, reported, rfl⟩ := loopDevices_reports
    (P := fun e => ∃ x ∈ c.pattern.domain, c.pattern.eval x = .ok e.1 ∧ e.2 = tupleFor c.index (x.get 0)) rfl rfl
    (fun x member name acc d d' passed pattern index evaluated checked => by
      rw [← pattern] at ranged
      have reported := subCheck_single ranged noBitmap checked
      cases passed with
      | false => exact ⟨[], reported, fun _ none => absurd none List.not_mem_nil, fun no => absurd no (by decide)⟩
      | true =>
        rw [if_pos rfl] at reported
        exact reportsAll_single (eval_nonempty (pattern ▸ ranged) evaluated) reported
          ⟨x, member, evaluated, by rw [index]⟩) h
  apply allCoherent_of_each fresh reported
  intro e looped
  obtain ⟨x, member, evaluated, tuple⟩ := looped
  rw [tuple]
  exact coherent_loop_iff built ranged unnamed member evaluated

def Named (p : DeviceIdPattern) (index : PatternIndex) : Prop := determineDeviceName p index ≠ .ok ""

instance (p : DeviceIdPattern) (index : PatternIndex) : Decidable (Named p index) :=
  inferInstanceAs (Decidable (¬ determineDeviceName p index = .ok ""))

theorem named_iff {p : DeviceIdPattern} {index : PatternIndex} {name : String}
    (found : determineDeviceName p index = .ok name) : Named p index ↔ name ≠ "" := by
  rw [Named, found, Ne, Except.ok.injEq]

def Loops (p : DeviceIdPattern) (jsonAcc : DataAccessor) (index : PatternIndex) : Prop :=
  (jsonAcc.existsCheckKey = true ∧ loopsOver jsonAcc = true ∧ p.domain.isEmpty = false) ∧ ¬ Named p index

instance (p : DeviceIdPattern) (jsonAcc : DataAccessor) (index : PatternIndex) : Decidable (Loops p jsonAcc index) :=
  inferInstanceAs (Decidable (_ ∧ _))

theorem privCheck_coherent {deviceType : String} {env : Env} {c c' : CheckAccessor} {jsonAcc dataAcc acc : DataAccessor}
    (built : ofString deviceType = .ok c.pattern) (ranged : 1 ≤ c.pattern.dim) (fresh : c.assertedDevices = [])
    (untriggered : c.triggerAssertedDevice = "") (h : c.privCheck env jsonAcc dataAcc = .ok (true, acc, c')) :
    AllCoherent c.pattern c' ↔
      if jsonAcc.existsCheckBitmap then '/' ∉ deviceType.toList
      else if Loops c.pattern jsonAcc c.index then c.pattern.dim = 1 ∧ '/' ∉ deviceType.toList
      else Named c.pattern c.index → Tight c.pattern c.index := by
  obtain ⟨name, c₁, current, rfl, route⟩ := privCheck_cases h
  have found : determineDeviceName c.pattern c.index = .ok name :=
    getCurrentDevice_ok (c := c.start dataAcc) ranged untriggered current
  have named := named_iff found
  have alone : (name ≠ "" → Coherent c.pattern name c.index) ↔ (Named c.pattern c.index → Tight c.pattern c.index) := by
    rw [named]
    apply forall_congr'
    intro some
    exact coherent_name_iff built ranged some found
  rw [allCoherent_markPassed]
  rcases route with ⟨key, checked⟩ | ⟨noKey, noBitmap, _, added⟩
  · rcases checkDevices_cases checked with ⟨loops, looped⟩ | ⟨noLoop, acc', checked⟩
    · by_cases bitmap : jsonAcc.existsCheckBitmap = true
      · rw [if_pos bitmap]
        exact loop_coherent_bitmap (c := c.start dataAcc) built ranged fresh bitmap looped
      · have reached : Loops c.pattern jsonAcc c.index :=
          ⟨⟨key, loops.2.1, List.isEmpty_eq_false_iff.mpr loops.2.2⟩, fun some => named.mp some loops.1⟩
        rw [if_neg bitmap, if_pos reached]
        rw [loops.1] at found
        exact loop_coherent (c := c.start dataAcc) built ranged fresh (by simpa using bitmap) found looped
    · by_cases bitmap : jsonAcc.existsCheckBitmap = true
      · rw [if_pos bitmap]
        exact subCheck_coherent_bitmap (c := c.start dataAcc) built ranged fresh bitmap checked
      · have reached : ¬ Loops c.pattern jsonAcc c.index := by
          intro loops
          apply noLoop
          refine ⟨?_, loops.1.2.1, List.isEmpty_eq_false_iff.mp loops.1.2.2⟩
          by_contra some
          exact loops.2 (named.mpr some)
        rw [if_neg bitmap, if_neg reached, ← alone]
        exact subCheck_coherent (c := c.start dataAcc) ranged fresh (by simpa using bitmap) checked
  · have noLoop : ¬ Loops c.pattern jsonAcc c.index := fun loops => by
      have key := loops.1.1
      rw [noKey] at key
      cases key
    rw [noBitmap, if_neg Bool.false_ne_true, if_neg noLoop, ← alone]
    exact allCoherent_single (c := c.start dataAcc) fresh (build_reports ranged added)

/-- The index a check finds for the device type, where it looks for one. -/
def foundIndex (p : DeviceIdPattern) (jsonAcc dataAcc : DataAccessor) : Option PatternIndex :=
  match matchedIndex p jsonAcc dataAcc with
  | .ok matched => matched
  | .error _ => none

/-- When the asserted devices are coherent, by the way the check takes: through a bitmap, the device type has one
component; on a command line with data of its own, the number it reports alone is the whole index;
for a device with data of its own, its number is the only index and names it; in the loop over the
devices there is one dimension and one component; otherwise the index found is no wider than the
device type. -/
def CoherentFor (deviceType : String) (p : DeviceIdPattern) (jsonAcc dataAcc : DataAccessor) : Prop :=
  let index := (foundIndex p jsonAcc dataAcc).getD (.ofList [])
  if jsonAcc.existsCheckBitmap then '/' ∉ deviceType.toList
  else if jsonAcc.isTypeCmdline && (foundIndex p jsonAcc dataAcc).isSome && dataAcc.hasData then
    Named p index → p.dim = 1 ∨ (index.get 0 = PatternIndex.unspecified ∧ Tight p index)
  else if jsonAcc.isTypeDeviceCoreApi && dataAcc.hasData && dataAcc.savedDevice != "" then
    p.dim = 1 ∧ determineDeviceName p (.ofList [(getDeviceId dataAcc.savedDevice : Int)]) = .ok dataAcc.savedDevice
  else if Loops p jsonAcc index then p.dim = 1 ∧ '/' ∉ deviceType.toList
  else Named p index → Tight p index

instance (deviceType : String) (p : DeviceIdPattern) (jsonAcc dataAcc : DataAccessor) :
    Decidable (CoherentFor deviceType p jsonAcc dataAcc) :=
  inferInstanceAs (Decidable (ite _ _ _))

/-- A check that passes on a device type with a range reports coherent devices exactly for the inputs above. -/
theorem check_coherent_iff {deviceType : String} {env : Env} {c₀ c : CheckAccessor} {jsonAcc dataAcc : DataAccessor}
    (created : ofDeviceType deviceType = .ok c₀) (ranged : 1 ≤ c₀.pattern.dim)
    (passes : c₀.check env jsonAcc dataAcc = .ok (true, c)) :
    (∀ d ∈ c.assertedDevices, Coherent c₀.pattern d.device d.deviceIndexTuple) ↔
      CoherentFor deviceType c₀.pattern jsonAcc dataAcc := by
  obtain ⟨p, built, h⟩ := bind_ok created
  obtain rfl := pure_ok_iff.mp h
  unfold check at passes
  obtain ⟨matched, found, passes⟩ := bind_ok passes
  have same : foundIndex p jsonAcc dataAcc = matched := by
    unfold foundIndex
    rw [found]
  dsimp only at passes ranged
  show AllCoherent p c ↔ _
  rw [CoherentFor, same]
  dsimp only
  by_cases command : (jsonAcc.isTypeCmdline && matched.isSome && dataAcc.hasData) = true
  · rw [if_pos command] at passes ⊢
    obtain ⟨name, named, checked⟩ := bind_ok passes
    by_cases bitmap : jsonAcc.existsCheckBitmap = true
    · rw [if_pos bitmap]
      exact subCheck_coherent_bitmap built ranged rfl bitmap checked
    · rw [if_neg bitmap, subCheck_coherent ranged rfl (by simpa using bitmap) checked, named_iff named]
      apply forall_congr'
      intro some
      exact coherent_command_iff built ranged some named
  · rw [if_neg command] at passes ⊢
    by_cases core : (jsonAcc.isTypeDeviceCoreApi && dataAcc.hasData && dataAcc.savedDevice != "") = true
    · rw [if_pos core] at passes ⊢
      by_cases bitmap : jsonAcc.existsCheckBitmap = true
      · rw [if_pos bitmap]
        exact subCheck_coherent_bitmap built ranged rfl bitmap passes
      · have some : dataAcc.savedDevice ≠ "" := by
          rw [Bool.and_eq_true, bne_iff_ne] at core
          exact core.2
        rw [if_neg bitmap, subCheck_coherent ranged rfl (by simpa using bitmap) passes, forall_prop_of_true some]
        exact coherent_core_iff built ranged some
    · rw [if_neg core] at passes ⊢
      obtain ⟨⟨passed, acc, c₁⟩, checked, final⟩ := bind_ok passes
      simp only [pure_ok_iff, Prod.mk.injEq] at final
      obtain ⟨rfl, rfl⟩ := final
      exact privCheck_coherent built ranged rfl rfl checked

/-! ### One switch, and one link of it -/

def silent : Env := ⟨fun _ _ _ => .ok .invalid, fun _ => none, fun _ _ => (1, "", 0)⟩

def onBus (object : String) : DataAccessor :=
  { acc := .object [("interface", .string "com.nvidia.Switch"), ("object", .string object),
      ("property", .string "Health"), ("type", .string "DBUS")] }

def onCommandLine (arguments : String) (criteria : List (String × Json)) (data : String) : DataAccessor :=
  { acc := .object ([("arguments", .string arguments)] ++ criteria ++
      [("executable", .string "nvlink-status"), ("type", .string "CMDLINE")])
    dataValue := .ofString data }

def freshCheck (deviceType : String) (jsonAcc dataAcc : DataAccessor) :
    Except Exn (CheckAccessor × Bool × CheckAccessor) := do
  let c₀ ← ofDeviceType deviceType
  let (ret, c) ← c₀.check silent jsonAcc dataAcc
  pure (c₀, ret, c)

theorem freshCheck_ok {deviceType : String} {jsonAcc dataAcc : DataAccessor} {c₀ c : CheckAccessor} {ret : Bool}
    (h : freshCheck deviceType jsonAcc dataAcc = .ok (c₀, ret, c)) :
    ofDeviceType deviceType = .ok c₀ ∧ c₀.check silent jsonAcc dataAcc = .ok (ret, c) := by
  obtain ⟨created, made, h⟩ := bind_ok h
  obtain ⟨⟨passed, checked⟩, result, h⟩ := bind_ok h
  simp only [pure_ok_iff, Prod.mk.injEq] at h
  obtain ⟨rfl, rfl, rfl⟩ := h
  exact ⟨made, result⟩

theorem check_coherent_iff_switch : ∃ c₀ c, ofDeviceType "NVSwitch_[0-1]" = .ok c₀ ∧
    c₀.check silent (onBus "/xyz/NVSwitch_[0-1]") (onBus "/xyz/NVSwitch_1") = .ok (true, c) ∧
    ∀ d ∈ c.assertedDevices, Coherent c₀.pattern d.device d.deviceIndexTuple := by
  have run : (freshCheck "NVSwitch_[0-1]" (onBus "/xyz/NVSwitch_[0-1]") (onBus "/xyz/NVSwitch_1")).map
      (fun r => (r.2.1, decide (1 ≤ r.1.pattern.dim), decide (CoherentFor "NVSwitch_[0-1]" r.1.pattern
        (onBus "/xyz/NVSwitch_[0-1]") (onBus "/xyz/NVSwitch_1")))) = .ok (true, true, true) := by decide
  obtain ⟨⟨c₀, ret, c⟩, result, facts⟩ := map_ok run
  simp only [Prod.mk.injEq, decide_eq_true_eq] at facts
  obtain ⟨rfl, ranged, coherent⟩ := facts
  obtain ⟨created, passes⟩ := freshCheck_ok result
  exact ⟨c₀, c, created, passes, (check_coherent_iff created ranged passes).mpr coherent⟩

/-- On a command line with data of its own, link 2 of switch 1 is reported with the tuple (1). -/
theorem check_incoherent_link :
    let jsonAcc := onCommandLine "NVSwitch_[0|0-1] NVLink_[1|0-3]" [("check", .object [("equal", .string "1")])] ""
    let dataAcc := onCommandLine "NVSwitch_1 NVLink_2" [] "1"
    ∃ c₀ c, ofDeviceType "NVSwitch_[0|0-1]/NVLink_[1|0-3]" = .ok c₀ ∧ c₀.pattern.dim = 2 ∧
      c₀.check silent jsonAcc dataAcc = .ok (true, c) ∧
      ∃ d ∈ c.assertedDevices, d.device = "NVSwitch_1" ∧ d.deviceIndexTuple = .ofList [1] ∧
        ¬ Coherent c₀.pattern d.device d.deviceIndexTuple := by
  intro jsonAcc dataAcc
  have run : (freshCheck "NVSwitch_[0|0-1]/NVLink_[1|0-3]" jsonAcc dataAcc).map
      (fun r => (r.2.1, r.1.pattern.dim, r.2.2.assertedDevices.map fun d => (d.device, d.deviceIndexTuple.indexes))) =
        .ok (true, 2, [("NVSwitch_1", [1])]) := by decide
  obtain ⟨⟨c₀, ret, c⟩, result, facts⟩ := map_ok run
  simp only [Prod.mk.injEq] at facts
  obtain ⟨rfl, wide, entries⟩ := facts
  obtain ⟨created, passes⟩ := freshCheck_ok result
  refine ⟨c₀, c, created, wide, passes, ?_⟩
  obtain ⟨d, rest, devices, entry, _⟩ := List.map_eq_cons_iff.mp entries
  obtain ⟨device, indexes⟩ := Prod.mk.inj entry
  have tuple : d.deviceIndexTuple = .ofList [1] := by
    apply PatternIndex.ext
    intro i
    rw [PatternIndex.get, indexes]
    rfl
  refine ⟨d, devices ▸ List.mem_cons_self, device, tuple, fun coherent => ?_⟩
  have dims := dim_eq_of_inDomain (by omega) coherent.1
  have short := dim_ofList_single 1
  rw [tuple, wide] at dims
  omega

end CheckAccessor

end MonitorEventing.Accessor
