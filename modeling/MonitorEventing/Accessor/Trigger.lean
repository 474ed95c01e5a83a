import MonitorEventing.Accessor.Coherence

/-!
# Triggers of asserted devices

An asserted device carries the trigger the check holds when the device is added. A check that is
answered at once from the data it was given holds none yet.
-/

namespace MonitorEventing.Accessor
open DeviceId DeviceId.DeviceIdPattern DeviceUtil

/-- The value of a device type is empty only where the device type is. -/
theorem value_nonempty_iff {deviceType : String} {p : DeviceIdPattern} (built : ofString deviceType = .ok p)
    {x : PatternIndex} {value : String} (evaluated : p.eval x = .ok value) : value ≠ "" ↔ p.pattern ≠ "" := by
  by_cases ranged : 1 ≤ p.dim
  · exact iff_of_true (eval_nonempty ranged evaluated) (pattern_nonempty built ranged)
  · rw [pattern_ofString built, eval_unranged built (by omega) evaluated]

namespace CheckAccessor

theorem named_pattern {p : DeviceIdPattern} {index : PatternIndex} (named : Named p index) : p.pattern ≠ "" := by
  intro empty
  apply named
  rw [determineDeviceName, if_neg (fun both => both.1 empty)]
  rfl

/-! ### What a step adds -/

/-- The entries a step has added carry its trigger, and there are some where it asserts a device. -/
def Adds (c c' : CheckAccessor) (ret : Bool) (asserts : Prop) : Prop :=
  ∃ added, c' = ({ c with assertedDevices := c.assertedDevices ++ added }).markPassed ret ∧
    (∀ d ∈ added, d.trigger = c.trigger ∧ d.device ≠ "") ∧ (added ≠ [] ↔ asserts)

section
variable {c c' c'' : CheckAccessor} {r r' ret : Bool} {P Q : Prop}

theorem adds_refl (c : CheckAccessor) : Adds c c false False := by
  refine ⟨[], ?_, fun d none => absurd none List.not_mem_nil, by simp⟩
  rw [List.append_nil]
  rfl

theorem markPassed_markPassed (c : CheckAccessor) (r r' : Bool) : (c.markPassed r).markPassed r' = c.markPassed (r || r') := by
  cases r <;> cases r' <;> rfl

theorem markPassed_devices (c : CheckAccessor) (r : Bool) (devices : List AssertedDevice) :
    { c.markPassed r with assertedDevices := devices } = ({ c with assertedDevices := devices }).markPassed r := by
  cases r <;> rfl

theorem Adds.trans (first : Adds c c' r P) (second : Adds c' c'' r' Q) : Adds c c'' (r || r') (P ∨ Q) := by
  obtain ⟨before, rfl, kept, some⟩ := first
  obtain ⟨after, rfl, kept', some'⟩ := second
  have trigger : (({ c with assertedDevices := c.assertedDevices ++ before }).markPassed r).trigger = c.trigger := by
    cases r <;> rfl
  have devices : (({ c with assertedDevices := c.assertedDevices ++ before }).markPassed r).assertedDevices =
      c.assertedDevices ++ before := by
    cases r <;> rfl
  refine ⟨before ++ after, ?_, ?_, ?_⟩
  · rw [markPassed_devices, markPassed_markPassed, devices, List.append_assoc]
  · rw [trigger] at kept'
    intro d member
    exact (List.mem_append.mp member).elim (kept d) (kept' d)
  · rw [← some, ← some', Ne, List.append_eq_nil_iff, Decidable.not_and_iff_not_or_not]

theorem Adds.markPassed (h : Adds c c' r P) (r' : Bool) : Adds c (c'.markPassed r') (r || r') P := by
  obtain ⟨added, rfl, rest⟩ := h
  exact ⟨added, markPassed_markPassed _ r r', rest⟩

theorem Adds.congr (h : Adds c c' r P) (same : P ↔ Q) : Adds c c' r Q := by
  obtain ⟨added, result, kept, some⟩ := h
  exact ⟨added, result, kept, some.trans same⟩

theorem Adds.pattern (h : Adds c c' r P) : c'.pattern = c.pattern := by
  obtain ⟨added, rfl, -⟩ := h
  cases r <;> rfl

theorem Adds.index (h : Adds c c' r P) : c'.index = c.index := by
  obtain ⟨added, rfl, -⟩ := h
  cases r <;> rfl

theorem Adds.trigger (h : Adds c c' r P) : c'.trigger = c.trigger := by
  obtain ⟨added, rfl, -⟩ := h
  cases r <;> rfl

theorem Adds.passed (h : Adds c c' r P) (unpassed : c.lastStatus = .notPassed) : c'.passed = r := by
  obtain ⟨added, rfl, -⟩ := h
  cases r
  · simp [CheckAccessor.passed, CheckAccessor.markPassed, unpassed]
  · rfl

/-- What a check that had no devices reports. -/
theorem Adds.devices (h : Adds c c' r P) (fresh : c.assertedDevices = []) :
    (∀ d ∈ c'.assertedDevices, d.trigger = c.trigger ∧ d.device ≠ "") ∧ (c'.assertedDevices ≠ [] ↔ P) := by
  obtain ⟨added, rfl, kept, some⟩ := h
  have devices : (({ c with assertedDevices := c.assertedDevices ++ added }).markPassed r).assertedDevices = added := by
    rw [fresh]
    cases r <;> rfl
  rw [devices]
  exact ⟨kept, some⟩

end

/-- Whether an entry is added under a name, or without one under that of the tuple. -/
def Builds (p : DeviceIdPattern) (name : String) (tuple : PatternIndex) : Prop := name ≠ "" ∨ (p.dim = 0 ∧ Named p tuple)

section
variable {deviceType : String} {env : Env} {c c' : CheckAccessor} {jsonAcc dataAcc acc : DataAccessor} {name : String}
  {tuple : PatternIndex} {deviceId : Int} {ret : Bool}

theorem builds_value (built : ofString deviceType = .ok c.pattern) {x : PatternIndex}
    (evaluated : c.pattern.eval x = .ok name) (tuple : PatternIndex) : Builds c.pattern name tuple ↔ c.pattern.pattern ≠ "" := by
  rw [Builds, value_nonempty_iff built evaluated]
  exact or_iff_left_of_imp fun both => named_pattern both.2

theorem named_adds {accessor : DataAccessor} {asserts : Prop} (some : name ≠ "" ↔ asserts)
    (h : (if name ≠ "" then pure { c with assertedDevices := c.assertedDevices ++ [⟨c.trigger, accessor, name, tuple⟩] }
      else pure c : Except Exn CheckAccessor) = .ok c') : Adds c c' false asserts := by
  by_cases none : name = ""
  · rw [if_neg (not_not.mpr none), pure_ok_iff] at h
    rw [← h]
    exact (adds_refl c).congr (iff_of_false id fun asserted => some.mpr asserted none)
  · rw [if_pos none, pure_ok_iff] at h
    refine ⟨[⟨c.trigger, accessor, name, tuple⟩], h.symm, ?_, iff_of_true (List.cons_ne_nil _ _) (some.mp none)⟩
    intro d member
    rw [List.mem_singleton.mp member]
    exact ⟨rfl, none⟩

theorem build_adds (h : c.buildSingleAssertedDeviceName dataAcc name tuple = .ok c') :
    Adds c c' false (Builds c.pattern name tuple) := by
  unfold buildSingleAssertedDeviceName at h
  by_cases unnamed : name = "" ∧ existsRange c.pattern = false
  · rw [if_pos unnamed] at h
    obtain ⟨deviceName, found, h⟩ := bind_ok h
    refine named_adds ?_ h
    have unranged : c.pattern.dim = 0 := by simpa [existsRange] using unnamed.2
    rw [Builds, named_iff found]
    simp [unnamed.1, unranged]
  · rw [if_neg unnamed] at h
    obtain ⟨_, same, h⟩ := bind_ok h
    obtain rfl := pure_ok_iff.mp same
    refine named_adds ?_ h
    rw [Builds]
    refine (or_iff_left_of_imp fun both => ?_).symm
    intro empty
    exact unnamed ⟨empty, by simp [existsRange, both.1]⟩

theorem buildWithId_adds (h : c.buildSingleWithId dataAcc name deviceId = .ok c') :
    Adds c c' false (Builds c.pattern name (tupleFor c.index deviceId)) := by
  unfold buildSingleWithId at h
  unfold tupleFor
  by_cases invalid : deviceId = invalidDeviceId
  · rw [if_pos invalid] at h ⊢
    exact build_adds h
  · rw [if_neg invalid] at h ⊢
    exact build_adds h

theorem bitmapFrom_adds {checkMap : List (String × String)} {bitmap : UInt64} {indexes : List PatternIndex} {shift : Nat}
    {before : Bool} (built : ofString deviceType = .ok c.pattern)
    (h : bitmapFrom dataAcc checkMap bitmap indexes shift before c = .ok (ret, c')) :
    ∃ step, Adds c c' false (step = true ∧ c.pattern.pattern ≠ "") ∧ ret = (before || step) := by
  induction indexes generalizing shift before c with
  | nil =>
    obtain ⟨rfl, rfl⟩ := Prod.mk.inj (Except.ok.inj h)
    exact ⟨false, (adds_refl c).congr (by simp), (Bool.or_false before).symm⟩
  | cons index rest ih =>
    obtain ⟨-, ⟨value, c₁, evaluated, added, h⟩ | h⟩ := bitmapFrom_step h
    · have now := (build_adds added).congr (builds_value built evaluated index)
      rw [← now.pattern] at built
      obtain ⟨step, later, result⟩ := ih built h
      rw [now.pattern] at later
      refine ⟨true, (now.trans later).congr ?_, ?_⟩
      · rw [and_iff_right rfl]
        exact or_iff_left_of_imp And.right
      · rw [result, Bool.true_or, Bool.or_true]
    · exact ih built h

/-- A check of one value: the devices of a bitmap, or one device. -/
theorem subCheck_adds (built : ofString deviceType = .ok c.pattern)
    (h : c.subCheck jsonAcc dataAcc name deviceId = .ok (ret, c')) :
    Adds c c' ret (ret = true ∧
      if jsonAcc.existsCheckBitmap then c.pattern.pattern ≠ "" else Builds c.pattern name (tupleFor c.index deviceId)) := by
  rcases subCheck_cases h with ⟨rfl, rfl⟩ | ⟨bitmap, _, _, c₁, walked, rfl⟩ | ⟨noBitmap, rfl, c₁, added, rfl⟩
  · exact (adds_refl c').congr (by simp)
  · obtain ⟨step, added, result⟩ := bitmapFrom_adds built walked
    rw [Bool.false_or] at result
    rw [if_pos bitmap, result]
    exact added.markPassed step
  · rw [noBitmap, if_neg Bool.false_ne_true]
    exact ((buildWithId_adds added).markPassed true).congr (and_iff_right rfl).symm

theorem loopDevices_adds {indexes : List PatternIndex} {before : Bool} (built : ofString deviceType = .ok c.pattern)
    (h : loopDevices env jsonAcc indexes before dataAcc c = .ok (ret, c')) :
    ∃ step, Adds c c' step (step = true ∧ c.pattern.pattern ≠ "") ∧ ret = (before || step) := by
  induction indexes generalizing before dataAcc c with
  | nil =>
    obtain ⟨rfl, rfl⟩ := Prod.mk.inj (Except.ok.inj h)
    exact ⟨false, (adds_refl c).congr (by simp), (Bool.or_false before).symm⟩
  | cons x rest ih =>
    obtain ⟨value, evaluated, h⟩ := bind_ok h
    obtain ⟨⟨_, acc⟩, _, h⟩ := bind_ok h
    obtain ⟨⟨passed, c₁⟩, checked, h⟩ := bind_ok h
    have here := subCheck_adds built checked
    rw [builds_value built evaluated, ite_self] at here
    rw [← here.pattern] at built
    obtain ⟨step, later, result⟩ := ih built h
    rw [here.pattern] at later
    refine ⟨passed || step, (here.trans later).congr ?_, ?_⟩
    · rw [← or_and_right, Bool.or_eq_true]
    · rw [result, Bool.or_assoc]

/-! ### The routes of a check -/

/-- The criteria are checked for each device of the device type. -/
def Each (p : DeviceIdPattern) (jsonAcc : DataAccessor) : Prop :=
  jsonAcc.existsCheckBitmap = true ∨ (jsonAcc.existsCheckKey = true ∧ loopsOver jsonAcc = true ∧ p.domain ≠ [])

/-- Whether `privCheck`, if it passes, asserts a device: that of the index, or one of the device type. -/
def Asserts (p : DeviceIdPattern) (jsonAcc : DataAccessor) (index : PatternIndex) : Prop :=
  Named p index ∨ (p.pattern ≠ "" ∧ Each p jsonAcc)

/-- The same where it begins with the device of a trigger. -/
def AssertsAfter (p : DeviceIdPattern) (jsonAcc : DataAccessor) : Prop := jsonAcc.existsCheckBitmap = true → p.pattern ≠ ""

open scoped Classical in
def AssertsAs (p : DeviceIdPattern) (jsonAcc : DataAccessor) (name : String) (index : PatternIndex) : Prop :=
  if jsonAcc.existsCheckBitmap = true ∨
      (jsonAcc.existsCheckKey = true ∧ name = "" ∧ loopsOver jsonAcc = true ∧ p.domain ≠ []) then p.pattern ≠ ""
  else Builds p name index

theorem each_iff (p : DeviceIdPattern) (jsonAcc : DataAccessor) : Each p jsonAcc ↔ jsonAcc.existsCheckBitmap = true ∨
    (jsonAcc.existsCheckKey = true ∧ "" = "" ∧ loopsOver jsonAcc = true ∧ p.domain ≠ []) := by
  rw [Each, and_iff_right rfl]

theorem assertsAs_unnamed (p : DeviceIdPattern) (jsonAcc : DataAccessor) (index : PatternIndex) :
    AssertsAs p jsonAcc "" index ↔ (p.dim = 0 ∧ Named p index) ∨ (p.pattern ≠ "" ∧ Each p jsonAcc) := by
  rw [AssertsAs]
  by_cases each : Each p jsonAcc
  · rw [if_pos ((each_iff p jsonAcc).mp each), and_iff_left each]
    exact (or_iff_right_of_imp fun both => named_pattern both.2).symm
  · rw [if_neg (fun either => each ((each_iff p jsonAcc).mpr either)), Builds]
    simp [each]

theorem assertsAs_named {p : DeviceIdPattern} (jsonAcc : DataAccessor) {name : String} (some : name ≠ "")
    (index : PatternIndex) : AssertsAs p jsonAcc name index ↔ AssertsAfter p jsonAcc := by
  rw [AssertsAs, AssertsAfter]
  by_cases bitmap : jsonAcc.existsCheckBitmap = true
  · rw [if_pos (Or.inl bitmap)]
    exact (imp_iff_right bitmap).symm
  · rw [if_neg (fun either => either.elim bitmap fun loops => some loops.2.1)]
    exact iff_of_true (Or.inl some) fun given => absurd given bitmap

theorem checkDevices_adds (built : ofString deviceType = .ok c.pattern) (key : jsonAcc.existsCheckKey = true)
    (h : c.checkDevices env jsonAcc dataAcc name = .ok (ret, acc, c')) :
    Adds c c' ret (ret = true ∧ AssertsAs c.pattern jsonAcc name c.index) := by
  rw [AssertsAs]
  rcases checkDevices_cases h with ⟨loops, looped⟩ | ⟨single, read, checked⟩
  · obtain ⟨step, added, result⟩ := loopDevices_adds built looped
    rw [Bool.false_or] at result
    rw [result, if_pos (Or.inr ⟨key, loops⟩)]
    exact added
  · have added := subCheck_adds built checked
    by_cases bitmap : jsonAcc.existsCheckBitmap = true
    · rw [if_pos bitmap] at added
      rwa [if_pos (Or.inl bitmap)]
    · rw [if_neg bitmap] at added
      rwa [if_neg (fun either => either.elim bitmap fun loops => single loops.2)]

/-- The check begins with a device, or with none. -/
theorem privCheck_adds (h : c.privCheck env jsonAcc dataAcc = .ok (ret, acc, c'))
    (built : ofString deviceType = .ok c.pattern) : ∃ name, c.getCurrentDevice = .ok name ∧
      Adds (c.start dataAcc) c' ret (ret = true ∧ AssertsAs c.pattern jsonAcc name c.index) := by
  obtain ⟨name, c₁, current, rfl, route⟩ := privCheck_cases h
  refine ⟨name, current, ?_⟩
  rcases route with ⟨key, checked⟩ | ⟨noKey, noBitmap, rfl, added⟩
  · have added := (checkDevices_adds (c := c.start dataAcc) built key checked).markPassed ret
    rwa [Bool.or_self] at added
  · refine ((build_adds added).markPassed true).congr ?_
    rw [and_iff_right rfl, AssertsAs, noBitmap, noKey]
    simp only [Bool.false_eq_true, false_and, or_false, if_false]
    rfl

theorem getCurrentDevice_after (triggered : c.triggerAssertedDevice ≠ "") (h : c.getCurrentDevice = .ok name) : name ≠ "" := by
  have chosen : ∀ determined : String,
      (pure (if determined = "" ∧ c.triggerAssertedDevice ≠ "" then c.triggerAssertedDevice else determined) :
        Except Exn String) = .ok name → name ≠ "" := by
    intro determined h
    by_cases unnamed : determined = ""
    · rw [if_pos ⟨unnamed, triggered⟩, pure_ok_iff] at h
      rwa [← h]
    · rw [if_neg (fun both => unnamed both.1), pure_ok_iff] at h
      rwa [← h]
  unfold getCurrentDevice at h
  split at h
  · obtain ⟨determined, _, h⟩ := bind_ok h
    exact chosen determined h
  · exact chosen "" h

/-- A check that follows no trigger asserts by its index. -/
theorem assertsAs_fresh (untriggered : c.triggerAssertedDevice = "") (h : c.getCurrentDevice = .ok name) :
    AssertsAs c.pattern jsonAcc name c.index ↔ Asserts c.pattern jsonAcc c.index := by
  rw [Asserts]
  by_cases ranged : 1 ≤ c.pattern.dim
  · have named := named_iff (getCurrentDevice_ok ranged untriggered h)
    by_cases unnamed : name = ""
    · rw [unnamed, assertsAs_unnamed, named]
      simp [unnamed, show c.pattern.dim ≠ 0 by omega]
    · rw [assertsAs_named jsonAcc unnamed]
      exact iff_of_true (fun _ => named_pattern (named.mpr unnamed)) (Or.inl (named.mpr unnamed))
  · have unranged : c.pattern.dim = 0 := by omega
    unfold getCurrentDevice at h
    rw [if_neg (by omega)] at h
    obtain ⟨_, same, h⟩ := bind_ok h
    obtain rfl := pure_ok_iff.mp same
    dsimp only at h
    rw [if_neg (fun both => both.2 untriggered), pure_ok_iff] at h
    rw [← h, assertsAs_unnamed, and_iff_right unranged]

end

/-! ### Checks answered at once -/

/-- The check is answered from the data it was given: that of a command line matched to the template's, or
that of a device read through the device core. -/
def Direct (p : DeviceIdPattern) (jsonAcc dataAcc : DataAccessor) : Prop :=
  (jsonAcc.isTypeCmdline && (foundIndex p jsonAcc dataAcc).isSome && dataAcc.hasData) = true ∨
    (jsonAcc.isTypeDeviceCoreApi && dataAcc.hasData && dataAcc.savedDevice != "") = true

instance (p : DeviceIdPattern) (jsonAcc dataAcc : DataAccessor) : Decidable (Direct p jsonAcc dataAcc) :=
  inferInstanceAs (Decidable (_ ∨ _))

def checkIndex (p : DeviceIdPattern) (jsonAcc dataAcc : DataAccessor) : PatternIndex :=
  (foundIndex p jsonAcc dataAcc).getD (.ofList [])

/-- Whether such a check, if it passes, asserts a device. -/
def DirectAsserts (p : DeviceIdPattern) (jsonAcc dataAcc : DataAccessor) : Prop :=
  if jsonAcc.existsCheckBitmap then p.pattern ≠ ""
  else jsonAcc.isTypeCmdline = true → Named p (checkIndex p jsonAcc dataAcc)

def CheckAsserts (p : DeviceIdPattern) (jsonAcc dataAcc : DataAccessor) : Prop :=
  if Direct p jsonAcc dataAcc then DirectAsserts p jsonAcc dataAcc
  else Asserts p jsonAcc (checkIndex p jsonAcc dataAcc)

theorem Named.dim {p : DeviceIdPattern} {index : PatternIndex} (named : Named p index) : p.dim = index.dim := by
  by_contra other
  apply named
  rw [determineDeviceName, if_neg (fun both => other both.2)]
  rfl

/-- The number of the device alone names nothing that the whole index does not. -/
theorem builds_command {p : DeviceIdPattern} {index : PatternIndex} {name : String}
    (named : determineDeviceName p index = .ok name) : Builds p name (tupleFor index (index.get 0)) ↔ Named p index := by
  rw [Builds, ← named_iff named]
  refine or_iff_left_of_imp fun both => ?_
  obtain ⟨unranged, alone⟩ := both
  unfold tupleFor at alone
  by_cases invalid : index.get 0 = invalidDeviceId
  · rwa [if_pos invalid] at alone
  · rw [if_neg invalid] at alone
    have dims := alone.dim
    have first : (PatternIndex.ofList [index.get 0]).get 0 = PatternIndex.unspecified := PatternIndex.get_beyond (by omega)
    rw [PatternIndex.get_ofList] at first
    exact absurd ((PatternIndex.clip_get index 0).symm.trans first) invalid

section
variable {deviceType : String} {env : Env} {p : DeviceIdPattern} {c t : CheckAccessor} {jsonAcc dataAcc X : DataAccessor} {ret : Bool}

/-- A fresh check keeps the data accessor as its trigger, unless it is answered at once. -/
theorem check_adds (built : ofString deviceType = .ok p)
    (h : CheckAccessor.check env { pattern := p } jsonAcc dataAcc = .ok (ret, c)) :
    Adds
      { lastStatus := .notPassed
        trigger := if Direct p jsonAcc dataAcc then {} else dataAcc
        pattern := p
        index := checkIndex p jsonAcc dataAcc }
      c ret (ret = true ∧ CheckAsserts p jsonAcc dataAcc) := by
  unfold CheckAccessor.check at h
  obtain ⟨matched, found, h⟩ := bind_ok h
  have same : foundIndex p jsonAcc dataAcc = matched := by
    unfold foundIndex
    rw [found]
  dsimp only at h
  rw [← same] at h
  rw [CheckAsserts]
  have unlessBitmap : ∀ {P Q R : Prop}, (P ↔ Q) →
      ((if jsonAcc.existsCheckBitmap then R else P) ↔ if jsonAcc.existsCheckBitmap then R else Q) :=
    fun same => by rw [same]
  by_cases command : (jsonAcc.isTypeCmdline && (foundIndex p jsonAcc dataAcc).isSome && dataAcc.hasData) = true
  · have direct : Direct p jsonAcc dataAcc := Or.inl command
    rw [if_pos command] at h
    rw [if_pos direct, if_pos direct, DirectAsserts]
    obtain ⟨name, named, checked⟩ := bind_ok h
    have cmdline : jsonAcc.isTypeCmdline = true := by
      rw [Bool.and_eq_true, Bool.and_eq_true] at command
      exact command.1.1
    refine (subCheck_adds built checked).congr (and_congr_right fun _ => ?_)
    refine unlessBitmap ?_
    rw [imp_iff_right cmdline]
    exact builds_command named
  · rw [if_neg command] at h
    by_cases core : (jsonAcc.isTypeDeviceCoreApi && dataAcc.hasData && dataAcc.savedDevice != "") = true
    · have direct : Direct p jsonAcc dataAcc := Or.inr core
      rw [if_pos core] at h
      rw [if_pos direct, if_pos direct, DirectAsserts]
      rw [Bool.and_eq_true, Bool.and_eq_true, bne_iff_ne] at core
      have notCommand : jsonAcc.isTypeCmdline = false := DataAccessor.isType_other core.1.1 (by decide)
      refine (subCheck_adds built h).congr (and_congr_right fun _ => ?_)
      refine unlessBitmap ?_
      exact iff_of_true (Or.inl core.2) fun other => by simp [notCommand] at other
    · have indirect : ¬ Direct p jsonAcc dataAcc := fun either => either.elim command core
      rw [if_neg core] at h
      rw [if_neg indirect, if_neg indirect]
      obtain ⟨⟨passed, acc, c₁⟩, checked, final⟩ := bind_ok h
      simp only [pure_ok_iff, Prod.mk.injEq] at final
      obtain ⟨rfl, rfl⟩ := final
      obtain ⟨name, current, added⟩ := privCheck_adds checked built
      exact added.congr (and_congr_right fun _ => assertsAs_fresh rfl current)

/-- Whether a check after a trigger, if it passes, asserts a device of its own. -/
def AssertsOwn (p : DeviceIdPattern) (jsonAcc : DataAccessor) (triggered : Prop) : Prop :=
  (triggered → AssertsAfter p jsonAcc) ∧ (¬ triggered → Asserts p jsonAcc (.ofList []))

/-- The end of a check after a trigger: its own devices if there are some, else the others. -/
theorem report_own {begun c₁ : CheckAccessor} {devices : List AssertedDevice} {asserts own : Prop}
    {triggers : List DataAccessor} (fresh : begun.assertedDevices = [])
    (added : Adds (begun.start dataAcc) c₁ ret (ret = true ∧ asserts)) (owns : own ↔ asserts)
    (carried : devices.map (·.trigger) = triggers)
    (h : (if c₁.passed && !c₁.hasAssertedDevices then pure { c₁ with assertedDevices := devices } else pure c₁ :
      Except Exn CheckAccessor) = .ok c) (passed : c.passed = true) :
    (own ∧ c.assertedDevices ≠ [] ∧ ∀ d ∈ c.assertedDevices, d.trigger = (begun.start dataAcc).trigger) ∨
      (¬ own ∧ c.assertedDevices.map (·.trigger) = triggers) := by
  rw [owns]
  obtain ⟨kept, some⟩ := added.devices (show (begun.start dataAcc).assertedDevices = [] from fresh)
  have status : c₁.passed = ret := added.passed rfl
  by_cases none : c₁.assertedDevices = []
  · right
    have noDevices : c₁.hasAssertedDevices = false := by simp [hasAssertedDevices, none]
    rw [noDevices, Bool.not_false, Bool.and_true] at h
    cases ended : ret with
    | false =>
      rw [status, ended, if_neg (by decide), pure_ok_iff] at h
      rw [← h, status, ended] at passed
      cases passed
    | true =>
      rw [status, ended, if_pos rfl, pure_ok_iff] at h
      rw [← h]
      exact ⟨fun asserted => some.mpr ⟨ended, asserted⟩ none, carried⟩
  · left
    have someDevices : c₁.hasAssertedDevices = true := by simp [hasAssertedDevices, none]
    rw [someDevices, Bool.not_true, Bool.and_false, if_neg (by decide), pure_ok_iff] at h
    rw [← h]
    exact ⟨(some.mp none).2, none, fun d member => (kept d member).1⟩

/-- A check after a trigger reports what it adds itself, else what the trigger has asserted. -/
theorem checkAfter_reports (built : ofString deviceType = .ok p) (pattern : t.pattern = p)
    (some : ∀ d ∈ t.assertedDevices, d.device ≠ "")
    (h : CheckAccessor.checkAfter env { pattern := p } jsonAcc t = .ok c) (passed : c.passed = true) :
    (AssertsOwn p jsonAcc (t.assertedDevices ≠ []) ∧ c.assertedDevices ≠ [] ∧
        ∀ d ∈ c.assertedDevices, d.trigger = if t.trigger.isEmpty then jsonAcc else t.trigger) ∨
      (¬ AssertsOwn p jsonAcc (t.assertedDevices ≠ []) ∧
        c.assertedDevices.map (·.trigger) = t.assertedDevices.map (·.trigger)) := by
  unfold checkAfter at h
  dsimp only at h
  obtain ⟨⟨ret, accessorData, c₁⟩, checked, h⟩ := bind_ok h
  have triggers : (if accessorData.hasData then t.assertedDevices.map fun d => { d with accessor := accessorData }
      else t.assertedDevices).map (·.trigger) = t.assertedDevices.map (·.trigger) := by
    split
    · rw [List.map_map]
      rfl
    · rfl
  cases devices : t.assertedDevices with
  | nil =>
    rw [devices] at checked h triggers
    obtain ⟨name, current, added⟩ := privCheck_adds checked built
    rw [assertsAs_fresh rfl current] at added
    have own : AssertsOwn p jsonAcc (([] : List AssertedDevice) ≠ []) ↔ Asserts p jsonAcc (.ofList []) := by
      simp [AssertsOwn]
    have reported := report_own rfl added own triggers h passed
    exact reported
  | cons first rest =>
    rw [devices] at checked h triggers
    dsimp only at checked
    rw [← pattern] at built
    obtain ⟨name, current, added⟩ := privCheck_adds checked built
    have named : name ≠ "" := getCurrentDevice_after (some first (devices ▸ List.mem_cons_self)) current
    rw [assertsAs_named jsonAcc named, pattern] at added
    have own : AssertsOwn p jsonAcc (first :: rest ≠ []) ↔ AssertsAfter p jsonAcc := by
      simp [AssertsOwn]
    have reported := report_own rfl added own triggers h passed
    exact reported

end

/-! ### Which trigger is reported -/

/-- The devices of a check alone carry the data accessor: no device is asserted at once. -/
def Kept (p : DeviceIdPattern) (jsonAcc dataAcc : DataAccessor) : Prop :=
  Direct p jsonAcc dataAcc → ¬ DirectAsserts p jsonAcc dataAcc

/-- The same for a check after its trigger. Where the trigger is answered at once or the data accessor is
empty, the second check takes its own criteria for the trigger. -/
def KeptBoth (p : DeviceIdPattern) (jsonTrig jsonAcc dataAcc : DataAccessor) : Prop :=
  Direct p jsonTrig dataAcc ∨ dataAcc.isEmpty = true →
    (AssertsOwn p jsonAcc (CheckAsserts p jsonTrig dataAcc) → jsonAcc = dataAcc) ∧
    (¬ AssertsOwn p jsonAcc (CheckAsserts p jsonTrig dataAcc) → Kept p jsonTrig dataAcc)

theorem Direct.not_default {p : DeviceIdPattern} {jsonAcc dataAcc : DataAccessor} (direct : Direct p jsonAcc dataAcc) :
    ({} : DataAccessor) ≠ dataAcc := by
  have data : dataAcc.hasData = true := by
    rcases direct with command | core
    · exact (Bool.and_eq_true _ _ ▸ command).2
    · rw [Bool.and_eq_true, Bool.and_eq_true] at core
      exact core.1.2
  intro same
  rw [← same] at data
  exact absurd data (by decide)

theorem allTriggers_iff {devices : List AssertedDevice} {T X : DataAccessor} (all : ∀ d ∈ devices, d.trigger = T) :
    (∀ d ∈ devices, d.trigger = X) ↔ (devices ≠ [] → T = X) := by
  constructor
  · intro given some
    obtain ⟨d, member⟩ := List.exists_mem_of_ne_nil devices some
    exact (all d member).symm.trans (given d member)
  · intro given d member
    exact (all d member).trans (given (List.ne_nil_of_mem member))

theorem kept_iff {p : DeviceIdPattern} {jsonAcc dataAcc : DataAccessor} :
    (CheckAsserts p jsonAcc dataAcc → (if Direct p jsonAcc dataAcc then {} else dataAcc) = dataAcc) ↔
      Kept p jsonAcc dataAcc := by
  rw [CheckAsserts, Kept]
  by_cases direct : Direct p jsonAcc dataAcc
  · rw [if_pos direct, if_pos direct, imp_iff_right direct]
    exact imp_congr_right fun _ => iff_of_false direct.not_default id
  · rw [if_neg direct, if_neg direct]
    exact iff_of_true (fun _ => rfl) fun given => absurd given direct

theorem ownTrigger_iff {p : DeviceIdPattern} {jsonTrig jsonAcc dataAcc : DataAccessor}
    (own : AssertsOwn p jsonAcc (CheckAsserts p jsonTrig dataAcc)) :
    (if (if Direct p jsonTrig dataAcc then {} else dataAcc : DataAccessor).isEmpty then jsonAcc
      else if Direct p jsonTrig dataAcc then {} else dataAcc) = dataAcc ↔ KeptBoth p jsonTrig jsonAcc dataAcc := by
  rw [KeptBoth, imp_iff_right own, and_iff_left (fun inherited => absurd own inherited)]
  by_cases direct : Direct p jsonTrig dataAcc
  · rw [if_pos direct, if_pos (by decide), imp_iff_right (Or.inl direct)]
  · rw [if_neg direct, or_iff_right direct]
    by_cases empty : dataAcc.isEmpty = true
    · rw [if_pos empty, imp_iff_right empty]
    · rw [if_neg empty]
      exact iff_of_true rfl fun given => absurd given empty

theorem inheritedTrigger_iff {p : DeviceIdPattern} {jsonTrig jsonAcc dataAcc : DataAccessor}
    (inherited : ¬ AssertsOwn p jsonAcc (CheckAsserts p jsonTrig dataAcc)) :
    Kept p jsonTrig dataAcc ↔ KeptBoth p jsonTrig jsonAcc dataAcc := by
  rw [KeptBoth, imp_iff_right inherited, and_iff_right (fun own => absurd own inherited)]
  exact ⟨fun kept _ => kept, fun kept direct => kept (Or.inl direct) direct⟩

/-- Exactly when every device that a fresh check asserts carries the data accessor with its value. -/
theorem check_trigger_iff {deviceType : String} {env : Env} {c₀ : CheckAccessor} {jsonAcc dataAcc : DataAccessor}
    (created : ofDeviceType deviceType = .ok c₀) :
    (∀ c, c₀.check env jsonAcc dataAcc = .ok (true, c) →
      ((∀ d ∈ c.assertedDevices, d.trigger = dataAcc) ↔ Kept c₀.pattern jsonAcc dataAcc)) ∧
    ∀ jsonTrig c, c₀.checkBoth env jsonTrig jsonAcc dataAcc = .ok c → c.passed = true →
      ((∀ d ∈ c.assertedDevices, d.trigger = dataAcc) ↔ KeptBoth c₀.pattern jsonTrig jsonAcc dataAcc) := by
  obtain ⟨p, built, h⟩ := bind_ok created
  obtain rfl := pure_ok_iff.mp h
  refine ⟨?_, ?_⟩
  · intro c passes
    obtain ⟨kept, some⟩ := (check_adds built passes).devices rfl
    rw [allTriggers_iff fun d member => (kept d member).1, some, and_iff_right rfl]
    exact kept_iff
  · intro jsonTrig c checked passed
    unfold checkBoth at checked
    dsimp only at checked
    rw [pattern_ofString built, created] at checked
    obtain ⟨t₀, same, checked⟩ := bind_ok checked
    obtain rfl := Except.ok.inj same
    obtain ⟨⟨ret, t⟩, triggered, checked⟩ := bind_ok checked
    have added := check_adds built triggered
    obtain ⟨kept, some⟩ := added.devices rfl
    dsimp only at checked kept some
    by_cases ended : t.passed = true
    · rw [if_pos ended] at checked
      obtain ⟨a₀, same, checked⟩ := bind_ok checked
      obtain rfl := Except.ok.inj same
      obtain ⟨equal, _, checked⟩ := bind_ok checked
      have criteria : (if equal = true then jsonAcc.setDataValue jsonAcc.dataValue else jsonAcc) = jsonAcc := by
        split
        · rfl
        · rfl
      rw [criteria] at checked
      have passing : ret = true := (added.passed rfl).symm.trans ended
      rw [passing, and_iff_right rfl] at some
      have trigger : t.trigger = if Direct p jsonTrig dataAcc then {} else dataAcc := added.trigger
      rw [trigger.symm] at kept
      have reports := checkAfter_reports built added.pattern (fun d member => (kept d member).2) checked passed
      rw [some] at reports
      rcases reports with ⟨own, asserted, triggers⟩ | ⟨inherited, triggers⟩
      · rw [allTriggers_iff triggers, imp_iff_right asserted, trigger]
        exact ownTrigger_iff own
      · have same : (∀ d ∈ c.assertedDevices, d.trigger = dataAcc) ↔ ∀ d ∈ t.assertedDevices, d.trigger = dataAcc := by
          have mapped : (∀ a ∈ c.assertedDevices.map (·.trigger), a = dataAcc) ↔
              ∀ a ∈ t.assertedDevices.map (·.trigger), a = dataAcc := by rw [triggers]
          rwa [List.forall_mem_map, List.forall_mem_map] at mapped
        rw [same, allTriggers_iff fun d member => (kept d member).1, some, trigger, kept_iff]
        exact inheritedTrigger_iff inherited
    · rw [if_neg ended, pure_ok_iff] at checked
      exact absurd (checked ▸ passed) ended

/-- A switch on the bus: what is asserted carries the accessor with its value. -/
theorem check_trigger_iff_switch : ∃ c₀ c, ofDeviceType "NVSwitch_[0-1]" = .ok c₀ ∧
    c₀.check silent (onBus "/xyz/NVSwitch_[0-1]") (onBus "/xyz/NVSwitch_1") = .ok (true, c) ∧
    ∀ d ∈ c.assertedDevices, d.trigger = onBus "/xyz/NVSwitch_1" := by
  have run : (freshCheck "NVSwitch_[0-1]" (onBus "/xyz/NVSwitch_[0-1]") (onBus "/xyz/NVSwitch_1")).map
      (fun r => (r.2.1, decide (Direct r.1.pattern (onBus "/xyz/NVSwitch_[0-1]") (onBus "/xyz/NVSwitch_1")))) =
        .ok (true, false) := by decide
  obtain ⟨⟨c₀, ret, c⟩, result, facts⟩ := map_ok run
  simp only [Prod.mk.injEq, decide_eq_false_iff_not] at facts
  obtain ⟨rfl, indirect⟩ := facts
  obtain ⟨created, passes⟩ := freshCheck_ok result
  exact ⟨c₀, c, created, passes, ((check_trigger_iff created).1 c passes).mpr fun direct => absurd direct indirect⟩

/-- On a command line with data of its own, switch 1 is asserted with an empty trigger. -/
theorem check_trigger_lost :
    let jsonAcc := onCommandLine "NVSwitch_[0-1]" [("check", .object [("equal", .string "1")])] ""
    let dataAcc := onCommandLine "NVSwitch_1" [] "1"
    ∃ c₀ c, ofDeviceType "NVSwitch_[0-1]" = .ok c₀ ∧ c₀.check silent jsonAcc dataAcc = .ok (true, c) ∧
      ∃ d ∈ c.assertedDevices, d.device = "NVSwitch_1" ∧ d.trigger.isEmpty = true ∧ d.trigger.hasData = false ∧
        d.trigger ≠ dataAcc := by
  intro jsonAcc dataAcc
  have run : (freshCheck "NVSwitch_[0-1]" jsonAcc dataAcc).map
      (fun r => (r.2.1, r.2.2.assertedDevices.map fun d => (d.device, d.trigger.isEmpty, d.trigger.hasData))) =
        .ok (true, [("NVSwitch_1", true, false)]) := by decide
  obtain ⟨⟨c₀, ret, c⟩, result, facts⟩ := map_ok run
  simp only [Prod.mk.injEq] at facts
  obtain ⟨rfl, entries⟩ := facts
  obtain ⟨created, passes⟩ := freshCheck_ok result
  refine ⟨c₀, c, created, passes, ?_⟩
  obtain ⟨d, rest, devices, entry, _⟩ := List.map_eq_cons_iff.mp entries
  simp only [Prod.mk.injEq] at entry
  obtain ⟨device, empty, noData⟩ := entry
  refine ⟨d, devices ▸ List.mem_cons_self, device, empty, noData, fun same => ?_⟩
  rw [same] at noData
  exact absurd noData (by decide)

end CheckAccessor

end MonitorEventing.Accessor
