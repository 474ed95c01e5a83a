import MonitorEventing.Accessor.Trigger

/-!
# Outcomes of a check

What a check returns, the status it leaves and the devices it asserts belong together. A check without
criteria passes, unless it is answered at once: then the criteria are looked up all the same.
-/

namespace MonitorEventing.Accessor
open DeviceId DeviceIdPattern DeviceUtil

namespace CheckAccessor

def performed (c : CheckAccessor) : Bool := c.lastStatus ≠ .notPerformed

/-- `check(jsonAcc, triggerCheck)` with what it returns. -/
def checkTriggered (env : Env) (c : CheckAccessor) (jsonAcc : DataAccessor) (triggerCheck : CheckAccessor) :
    Except Exn (Bool × CheckAccessor) := do
  let c ← c.checkAfter env jsonAcc triggerCheck
  pure (c.passed, c)

/-- `check(jsonTrig, jsonAcc, dataAcc)` with what it returns. -/
def checkJoined (env : Env) (c : CheckAccessor) (jsonTrig jsonAcc dataAcc : DataAccessor) :
    Except Exn (Bool × CheckAccessor) := do
  let c ← c.checkBoth env jsonTrig jsonAcc dataAcc
  pure (c.passed, c)

/-! ### What a step tells -/

/-- A step adds devices only where it passes. -/
def Decides (c c' : CheckAccessor) (ret : Bool) : Prop := ∃ P, Adds c c' ret P ∧ (P → ret = true)

/-- What is returned is the status, and nothing is asserted by a check that has not passed. -/
structure Told (ret : Bool) (c : CheckAccessor) : Prop where
  returned : ret = c.passed
  performed : c.performed = true
  unasserted : c.passed = false → c.assertedDevices = []

section
variable {env : Env} {c c' c'' : CheckAccessor} {jsonAcc dataAcc acc : DataAccessor} {name : String} {deviceId : Int}
  {ret r r' : Bool}

theorem decides_refl (c : CheckAccessor) : Decides c c false := ⟨False, adds_refl c, False.elim⟩

theorem Decides.trans (first : Decides c c' r) (second : Decides c' c'' r') : Decides c c'' (r || r') := by
  obtain ⟨P, before, some⟩ := first
  obtain ⟨Q, after, some'⟩ := second
  refine ⟨P ∨ Q, before.trans after, fun either => ?_⟩
  rcases either with added | added
  · rw [some added, Bool.true_or]
  · rw [some' added, Bool.or_true]

theorem Decides.markPassed (h : Decides c c' r) (r' : Bool) : Decides c (c'.markPassed r') (r || r') := by
  obtain ⟨P, added, some⟩ := h
  exact ⟨P, added.markPassed r', fun holds => by rw [some holds, Bool.true_or]⟩

theorem Adds.decides {P : Prop} (h : Adds c c' false P) : Decides c (c'.markPassed true) true :=
  ⟨P, h.markPassed true, fun _ => rfl⟩

/-- A check that begins anew ends as its steps decide. -/
theorem Decides.told (h : Decides c c' ret) (status : c.lastStatus = .notPassed) (fresh : c.assertedDevices = []) :
    Told ret c' := by
  obtain ⟨P, added, some⟩ := h
  have passed := added.passed status
  refine ⟨passed.symm, ?_, fun unpassed => ?_⟩
  · obtain ⟨_, rfl, -⟩ := added
    cases ret
    · simp [CheckAccessor.performed, CheckAccessor.markPassed, status]
    · rfl
  · by_contra asserted
    have returned := some ((added.devices fresh).2.mp asserted)
    rw [passed, returned] at unpassed
    cases unpassed

theorem bitmapFrom_decides {checkMap : List (String × String)} {bitmap : UInt64} {indexes : List PatternIndex}
    {shift : Nat} {before : Bool} (h : bitmapFrom dataAcc checkMap bitmap indexes shift before c = .ok (ret, c')) :
    ∃ step P, Adds c c' false P ∧ (P → step = true) ∧ ret = (before || step) := by
  induction indexes generalizing shift before c with
  | nil =>
    obtain ⟨rfl, rfl⟩ := Prod.mk.inj (Except.ok.inj h)
    exact ⟨false, False, adds_refl c, False.elim, (Bool.or_false before).symm⟩
  | cons index rest ih =>
    obtain ⟨-, ⟨value, c₁, _, added, h⟩ | h⟩ := bitmapFrom_step h
    · obtain ⟨step, P, later, _, result⟩ := ih h
      refine ⟨true, _, (build_adds added).trans later, fun _ => rfl, ?_⟩
      rw [result, Bool.true_or, Bool.or_true]
    · exact ih h

theorem subCheck_decides (h : c.subCheck jsonAcc dataAcc name deviceId = .ok (ret, c')) : Decides c c' ret := by
  rcases subCheck_cases h with ⟨rfl, rfl⟩ | ⟨_, _, _, c₁, walked, rfl⟩ | ⟨_, rfl, c₁, added, rfl⟩
  · exact decides_refl c'
  · obtain ⟨step, P, added, some, result⟩ := bitmapFrom_decides walked
    rw [Bool.false_or] at result
    rw [result]
    exact ⟨P, added.markPassed step, some⟩
  · exact (buildWithId_adds added).decides

theorem loopDevices_decides {indexes : List PatternIndex} {before : Bool}
    (h : loopDevices env jsonAcc indexes before dataAcc c = .ok (ret, c')) :
    ∃ step, Decides c c' step ∧ ret = (before || step) := by
  induction indexes generalizing before dataAcc c with
  | nil =>
    obtain ⟨rfl, rfl⟩ := Prod.mk.inj (Except.ok.inj h)
    exact ⟨false, decides_refl c, (Bool.or_false before).symm⟩
  | cons x rest ih =>
    obtain ⟨value, _, h⟩ := bind_ok h
    obtain ⟨⟨_, acc⟩, _, h⟩ := bind_ok h
    obtain ⟨⟨passed, c₁⟩, checked, h⟩ := bind_ok h
    obtain ⟨step, later, result⟩ := ih h
    refine ⟨passed || step, (subCheck_decides checked).trans later, ?_⟩
    rw [result, Bool.or_assoc]

theorem checkDevices_decides (h : c.checkDevices env jsonAcc dataAcc name = .ok (ret, acc, c')) : Decides c c' ret := by
  rcases checkDevices_cases h with ⟨_, looped⟩ | ⟨_, _, checked⟩
  · obtain ⟨step, decided, result⟩ := loopDevices_decides looped
    rw [Bool.false_or] at result
    rwa [result]
  · exact subCheck_decides checked

theorem privCheck_told (h : c.privCheck env jsonAcc dataAcc = .ok (ret, acc, c')) (fresh : c.assertedDevices = []) :
    Told ret c' := by
  obtain ⟨name, c₁, _, rfl, route⟩ := privCheck_cases h
  have decided : Decides (c.start dataAcc) (c₁.markPassed ret) ret := by
    rcases route with ⟨_, checked⟩ | ⟨_, _, rfl, added⟩
    · have decided := (checkDevices_decides checked).markPassed ret
      rwa [Bool.or_self] at decided
    · exact (build_adds added).decides
  exact decided.told rfl fresh

theorem check_told (h : c.check env jsonAcc dataAcc = .ok (ret, c')) (fresh : c.assertedDevices = []) : Told ret c' := by
  unfold check at h
  obtain ⟨matched, _, h⟩ := bind_ok h
  dsimp only at h
  split at h
  · obtain ⟨device, _, checked⟩ := bind_ok h
    exact (subCheck_decides checked).told rfl fresh
  · split at h
    · exact (subCheck_decides h).told rfl fresh
    · obtain ⟨⟨passed, acc, c₁⟩, checked, final⟩ := bind_ok h
      simp only [pure_ok_iff, Prod.mk.injEq] at final
      obtain ⟨rfl, rfl⟩ := final
      exact privCheck_told checked fresh

/-- Devices are taken over from the trigger only where the check has passed. -/
theorem checkAfter_told {t : CheckAccessor} (h : c.checkAfter env jsonAcc t = .ok c') (fresh : c.assertedDevices = []) :
    Told c'.passed c' := by
  unfold checkAfter at h
  dsimp only at h
  obtain ⟨⟨passed, accessorData, c₁⟩, checked, h⟩ := bind_ok h
  have told : Told passed c₁ := by
    refine privCheck_told checked ?_
    cases t.assertedDevices
    · exact fresh
    · exact fresh
  split at h
  · rename_i ended
    rw [Bool.and_eq_true] at ended
    obtain rfl := pure_ok_iff.mp h
    exact ⟨rfl, told.performed, fun unpassed => absurd (ended.1.symm.trans unpassed) Bool.noConfusion⟩
  · obtain rfl := pure_ok_iff.mp h
    exact ⟨rfl, told.performed, told.unasserted⟩

end

/-- A fresh accessor has the pattern of its device type, and no device yet. -/
theorem ofDeviceType_fresh {deviceType : String} {c : CheckAccessor} (created : ofDeviceType deviceType = .ok c) :
    DeviceIdPattern.ofString deviceType = .ok c.pattern ∧ c.assertedDevices = [] := by
  obtain ⟨pattern, built, final⟩ := bind_ok created
  obtain rfl := pure_ok_iff.mp final
  exact ⟨built, rfl⟩

/-- Whatever is read, each of the three checks of a fresh accessor returns its status, has been performed, and
asserts nothing if it has not passed. -/
theorem checks_told {deviceType : String} {c₀ : CheckAccessor} (created : ofDeviceType deviceType = .ok c₀) (env : Env) :
    (∀ jsonAcc dataAcc ret c, c₀.check env jsonAcc dataAcc = .ok (ret, c) → Told ret c) ∧
    (∀ jsonAcc triggerCheck ret c, c₀.checkTriggered env jsonAcc triggerCheck = .ok (ret, c) → Told ret c) ∧
    ∀ jsonTrig jsonAcc dataAcc ret c, c₀.checkJoined env jsonTrig jsonAcc dataAcc = .ok (ret, c) → Told ret c := by
  have fresh := (ofDeviceType_fresh created).2
  refine ⟨fun jsonAcc dataAcc ret c h => check_told h fresh, ?_, ?_⟩
  · intro jsonAcc triggerCheck ret c h
    obtain ⟨c₁, checked, final⟩ := bind_ok h
    obtain ⟨rfl, rfl⟩ := Prod.mk.inj (Except.ok.inj final)
    exact checkAfter_told checked fresh
  · intro jsonTrig jsonAcc dataAcc ret c h
    obtain ⟨c₁, checked, final⟩ := bind_ok h
    obtain ⟨rfl, rfl⟩ := Prod.mk.inj (Except.ok.inj final)
    unfold checkBoth at checked
    obtain ⟨t₀, made, checked⟩ := bind_ok checked
    obtain ⟨⟨passed, t⟩, triggered, checked⟩ := bind_ok checked
    dsimp only at checked
    split at checked
    · obtain ⟨a₀, made, checked⟩ := bind_ok checked
      obtain ⟨same, _, checked⟩ := bind_ok checked
      exact checkAfter_told checked (ofDeviceType_fresh made).2
    · obtain rfl := pure_ok_iff.mp checked
      have told := check_told triggered (ofDeviceType_fresh made).2
      exact ⟨rfl, told.performed, told.unasserted⟩

/-- A command line whose value is not the one expected: not passed, and no device. -/
theorem checks_told_link :
    let jsonAcc := onCommandLine "NVSwitch_[0-1]" [("check", .object [("equal", .string "2")])] ""
    let dataAcc := onCommandLine "NVSwitch_1" [] "1"
    ∃ c₀ c, ofDeviceType "NVSwitch_[0-1]" = .ok c₀ ∧ c₀.check silent jsonAcc dataAcc = .ok (false, c) ∧ Told false c := by
  intro jsonAcc dataAcc
  have run : (freshCheck "NVSwitch_[0-1]" jsonAcc dataAcc).map (·.2.1) = .ok false := by decide
  obtain ⟨⟨c₀, ret, c⟩, result, same⟩ := map_ok run
  obtain rfl : ret = false := same
  obtain ⟨created, ended⟩ := freshCheck_ok result
  exact ⟨c₀, c, created, ended, (checks_told created silent).1 jsonAcc dataAcc false c ended⟩

/-! ### Without criteria -/

/-- A check without criteria passes, whatever is read. -/
def PassesAlone (env : Env) (c : CheckAccessor) (jsonAcc dataAcc : DataAccessor) : Prop :=
  ∃ c', c.check env jsonAcc dataAcc = .ok (true, c') ∧ c'.passed = true

/-- The index of the device and its name can be told from the accessors. -/
def Readable (c : CheckAccessor) (jsonAcc dataAcc : DataAccessor) : Prop :=
  ∃ matched name, matchedIndex c.pattern jsonAcc dataAcc = .ok matched ∧
    determineDeviceName c.pattern (matched.getD c.index) = .ok name

section
variable {env : Env} {c : CheckAccessor} {jsonAcc dataAcc : DataAccessor} {name : String} {deviceId : Int}

/-- With data the criteria are looked up without a look whether they are there. -/
theorem subCheck_bare (bare : jsonAcc.acc.contains "check" = false) {type : String} (typed : jsonAcc.isType type = true)
    (data : dataAcc.hasData = true) : c.subCheck jsonAcc dataAcc name deviceId = .error .undefined := by
  have missing : jsonAcc.acc.index "check" = .error .undefined := by
    rw [Json.contains, Option.isSome_eq_false_iff, Option.isNone_iff_eq_none] at bare
    have read := DataAccessor.isType_iff.mp typed
    cases acc : jsonAcc.acc with
    | object members =>
      rw [acc] at bare
      rw [Json.index]
      rw [show members.lookup "check" = none from bare]
    | _ =>
      rw [acc] at read
      cases read
  unfold subCheck
  rw [if_neg (by simp [data]), missing]
  rfl

theorem determineDeviceName_unranged {p : DeviceIdPattern} (unranged : ¬ p.dim > 0) (index : PatternIndex) :
    ∃ name, determineDeviceName p index = .ok name := by
  unfold determineDeviceName
  split
  · have accepted : p.Accepts index := fun i inside => absurd inside (by omega)
    obtain ⟨s, evaluated⟩ := eval_ok_iff.mpr accepted
    exact ⟨_, bind_ok_iff.mpr ⟨s, evaluated, rfl⟩⟩
  · exact ⟨"", rfl⟩

theorem buildSingle_ok (c : CheckAccessor) (dataAcc : DataAccessor) (name : String) (tuple : PatternIndex) :
    ∃ c', c.buildSingleAssertedDeviceName dataAcc name tuple = .ok c' := by
  have added : ∀ deviceName : String, ∃ c',
      (if deviceName ≠ "" then
          pure { c with assertedDevices := c.assertedDevices ++ [⟨c.trigger, dataAcc, deviceName, tuple⟩] }
        else pure c : Except Exn CheckAccessor) = .ok c' := by
    intro deviceName
    split
    · exact ⟨_, rfl⟩
    · exact ⟨_, rfl⟩
  unfold buildSingleAssertedDeviceName
  split
  · rename_i unnamed
    have unranged : ¬ c.pattern.dim > 0 := by simpa [existsRange] using unnamed.2
    exact bind_total (determineDeviceName_unranged unranged tuple) fun deviceName _ => added deviceName
  · exact added name

/-- The current device can be told where the name of the index can. -/
theorem getCurrentDevice_total_iff (c : CheckAccessor) :
    (∃ name, c.getCurrentDevice = .ok name) ↔ ∃ name, determineDeviceName c.pattern c.index = .ok name := by
  unfold getCurrentDevice
  by_cases ranged : c.pattern.dim > 0
  · rw [if_pos ranged]
    constructor
    · rintro ⟨name, h⟩
      obtain ⟨determined, found, _⟩ := bind_ok h
      exact ⟨determined, found⟩
    · exact fun first => bind_total first fun determined _ => ⟨_, rfl⟩
  · rw [if_neg ranged]
    exact iff_of_true ⟨_, rfl⟩ (determineDeviceName_unranged ranged c.index)

/-- Without criteria `privCheck` passes where it can tell its device. -/
theorem privCheck_bare_iff (env : Env) (c : CheckAccessor) (dataAcc : DataAccessor) (bare : jsonAcc.existsCheckKey = false) :
    (∃ acc c', c.privCheck env jsonAcc dataAcc = .ok (true, acc, c') ∧ c'.passed = true) ↔
      ∃ name, determineDeviceName c.pattern c.index = .ok name := by
  refine Iff.trans ?_ (getCurrentDevice_total_iff (c.start dataAcc))
  constructor
  · rintro ⟨acc, c', h, _⟩
    obtain ⟨name, _, current, _⟩ := privCheck_cases h
    exact ⟨name, current⟩
  · rintro ⟨name, current⟩
    obtain ⟨c₁, added⟩ := buildSingle_ok (c.start dataAcc) dataAcc name c.index
    refine ⟨dataAcc, c₁.markPassed true, ?_, rfl⟩
    unfold privCheck
    rw [bind_ok_iff]
    refine ⟨name, current, ?_⟩
    rw [bare, if_neg Bool.false_ne_true, bind_ok_iff]
    exact ⟨c₁, added, rfl⟩

end

section
variable {env : Env} {c : CheckAccessor} {jsonAcc dataAcc : DataAccessor} {matched : Option PatternIndex}

/-- How `check` begins, with the index it has found. -/
def begin (c : CheckAccessor) (matched : Option PatternIndex) : CheckAccessor :=
  { c with lastStatus := .notPassed, index := matched.getD c.index }

theorem check_command (found : matchedIndex c.pattern jsonAcc dataAcc = .ok matched)
    (command : (jsonAcc.isTypeCmdline && matched.isSome && dataAcc.hasData) = true) :
    c.check env jsonAcc dataAcc = (do
      let device ← determineDeviceName c.pattern (matched.getD c.index)
      (c.begin matched).subCheck jsonAcc dataAcc device ((matched.getD c.index).get 0)) := by
  rw [check, found]
  exact if_pos command

theorem check_core (found : matchedIndex c.pattern jsonAcc dataAcc = .ok matched)
    (command : ¬ (jsonAcc.isTypeCmdline && matched.isSome && dataAcc.hasData) = true)
    (core : (jsonAcc.isTypeDeviceCoreApi && dataAcc.hasData && dataAcc.savedDevice != "") = true) :
    c.check env jsonAcc dataAcc =
      (c.begin matched).subCheck jsonAcc dataAcc dataAcc.savedDevice (getDeviceId dataAcc.savedDevice) := by
  rw [check, found]
  exact (if_neg command).trans (if_pos core)

theorem check_indirect (found : matchedIndex c.pattern jsonAcc dataAcc = .ok matched)
    (command : ¬ (jsonAcc.isTypeCmdline && matched.isSome && dataAcc.hasData) = true)
    (core : ¬ (jsonAcc.isTypeDeviceCoreApi && dataAcc.hasData && dataAcc.savedDevice != "") = true) :
    c.check env jsonAcc dataAcc = (do
      let (ret, _, c) ← (c.begin matched).privCheck env jsonAcc dataAcc
      pure (ret, c)) := by
  rw [check, found]
  exact (if_neg command).trans (if_neg core)

end

/-- A check without criteria passes exactly where the index and the name can be told and it is not answered at
once; answered at once, it looks up the criteria that are not there. -/
theorem check_bare_iff (env : Env) (c : CheckAccessor) (jsonAcc dataAcc : DataAccessor)
    (bare : jsonAcc.acc.contains "check" = false) :
    (PassesAlone env c jsonAcc dataAcc ↔ Readable c jsonAcc dataAcc ∧ ¬ Direct c.pattern jsonAcc dataAcc) ∧
    (Readable c jsonAcc dataAcc → Direct c.pattern jsonAcc dataAcc →
      c.check env jsonAcc dataAcc = .error .undefined) := by
  have noKey : jsonAcc.existsCheckKey = false := by rw [DataAccessor.existsCheckKey, bare, Bool.and_false]
  cases found : matchedIndex c.pattern jsonAcc dataAcc with
  | error e =>
    have failed : c.check env jsonAcc dataAcc = .error e := by
      rw [check, found]
      rfl
    simp [PassesAlone, Readable, failed, found]
  | ok matched =>
    have readable : Readable c jsonAcc dataAcc ↔
        ∃ name, determineDeviceName c.pattern (matched.getD c.index) = .ok name := by
      simp [Readable, found]
    have same : foundIndex c.pattern jsonAcc dataAcc = matched := by rw [foundIndex, found]
    rw [PassesAlone, readable, Direct, same]
    by_cases command : (jsonAcc.isTypeCmdline && matched.isSome && dataAcc.hasData) = true
    · obtain ⟨typed, data⟩ := Bool.and_eq_true _ _ ▸ command
      have typed : jsonAcc.isType "CMDLINE" = true := (Bool.and_eq_true _ _ ▸ typed).1
      rw [check_command found command]
      simp only [subCheck_bare bare typed data]
      refine ⟨iff_of_false ?_ fun both => both.2 (Or.inl command), ?_⟩
      · rintro ⟨c', h, _⟩
        obtain ⟨_, _, impossible⟩ := bind_ok h
        cases impossible
      · rintro ⟨name, named⟩ _
        rw [named]
        rfl
    · by_cases core : (jsonAcc.isTypeDeviceCoreApi && dataAcc.hasData && dataAcc.savedDevice != "") = true
      · obtain ⟨typed, data⟩ := Bool.and_eq_true _ _ ▸ (Bool.and_eq_true _ _ ▸ core).1
        rw [check_core found command core, subCheck_bare bare typed data]
        refine ⟨iff_of_false ?_ fun both => both.2 (Or.inr core), fun _ _ => rfl⟩
        rintro ⟨c', impossible, _⟩
        cases impossible
      · have indirect : ¬ (_ ∨ _) := fun either => either.elim command core
        rw [check_indirect found command core, and_iff_left indirect]
        refine ⟨?_, fun _ direct => absurd direct indirect⟩
        refine Iff.trans ?_ (privCheck_bare_iff env (c.begin matched) dataAcc noKey)
        constructor
        · rintro ⟨c', h, passed⟩
          obtain ⟨⟨ret, acc, c₁⟩, checked, final⟩ := bind_ok h
          obtain ⟨rfl, rfl⟩ := Prod.mk.inj (Except.ok.inj final)
          exact ⟨acc, c₁, checked, passed⟩
        · rintro ⟨acc, c', checked, passed⟩
          exact ⟨c', bind_ok_iff.mpr ⟨_, checked, rfl⟩, passed⟩

/-- On the bus a check without criteria passes. -/
theorem check_bare_iff_switch : ∃ c₀, ofDeviceType "NVSwitch_[0-1]" = .ok c₀ ∧
    PassesAlone silent c₀ (onBus "/xyz/NVSwitch_[0-1]") (onBus "/xyz/NVSwitch_1") := by
  have run : (freshCheck "NVSwitch_[0-1]" (onBus "/xyz/NVSwitch_[0-1]") (onBus "/xyz/NVSwitch_1")).map
      (fun r => (decide (Direct r.1.pattern (onBus "/xyz/NVSwitch_[0-1]") (onBus "/xyz/NVSwitch_1")),
        (matchedIndex r.1.pattern (onBus "/xyz/NVSwitch_[0-1]") (onBus "/xyz/NVSwitch_1")).map fun matched =>
          determineDeviceName r.1.pattern (matched.getD r.1.index))) =
        .ok (false, .ok (.ok "NVSwitch_1")) := by decide
  obtain ⟨⟨c₀, ret, c⟩, result, facts⟩ := map_ok run
  obtain ⟨indirect, names⟩ := Prod.mk.inj facts
  obtain ⟨matched, found, named⟩ := map_ok names
  refine ⟨c₀, (freshCheck_ok result).1, ?_⟩
  rw [(check_bare_iff silent c₀ (onBus "/xyz/NVSwitch_[0-1]") (onBus "/xyz/NVSwitch_1") (by decide)).1]
  exact ⟨⟨matched, "NVSwitch_1", found, named⟩, of_decide_eq_false indirect⟩

/-- On a command line with data of its own the missing criteria are looked up. -/
theorem check_bare_undefined : (onCommandLine "NVSwitch_[0-1]" [] "").acc.contains "check" = false ∧
    ∃ c₀, ofDeviceType "NVSwitch_[0-1]" = .ok c₀ ∧
      c₀.check silent (onCommandLine "NVSwitch_[0-1]" [] "") (onCommandLine "NVSwitch_1" [] "1") = .error .undefined := by
  refine ⟨by decide, ?_⟩
  have run : (ofDeviceType "NVSwitch_[0-1]").map (fun c₀ =>
      match c₀.check silent (onCommandLine "NVSwitch_[0-1]" [] "") (onCommandLine "NVSwitch_1" [] "1") with
      | .ok _ => none
      | .error e => some e) = .ok (some .undefined) := by decide
  obtain ⟨c₀, created, ended⟩ := map_ok run
  refine ⟨c₀, created, ?_⟩
  cases result : c₀.check silent (onCommandLine "NVSwitch_[0-1]" [] "") (onCommandLine "NVSwitch_1" [] "1") with
  | ok _ =>
    rw [result] at ended
    cases ended
  | error e =>
    rw [result] at ended
    rw [Option.some.inj ended]

end CheckAccessor

end MonitorEventing.Accessor
