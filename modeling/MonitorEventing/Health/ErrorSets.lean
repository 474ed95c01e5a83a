import MonitorEventing.Health.Service
import MonitorEventing.Lib.Machine

/-!
# The asserted errors of a device

`TmpFileManager` as a machine that adds and removes errors. A set that holds as many errors as the limit
allows takes no other, and refuses those it holds already as well.
-/

namespace MonitorEventing.Health

/-- What is stored of a string: `c_str()` ends at the first null character. -/
def stored (text : String) : String := String.ofList (text.toList.takeWhile (· ≠ '\x00'))

inductive Operation where
  | add (level : ErrorLevel) (errorId device : String)
  | remove (errorId device : String)

def errorsOf (map : AssertedEventsMap) (device : String) (level : ErrorLevel) : Std.TreeSet String :=
  (map[device]?.getD {}).errors level

/-- The error is in the set of the device. -/
def Active (map : AssertedEventsMap) (level : ErrorLevel) (errorId device : String) : Prop :=
  stored errorId ∈ errorsOf map (stored device) level

/-- `addCriticalErrorToDevice` and `addWarningErrorToDevice`, and `removeErrorFromDevice`, with what they
return. -/
def perform (o : Options) (map : AssertedEventsMap) : Operation → Bool × AssertedEventsMap
  | .add level errorId device =>
    let map := ensureMappingPresent map (stored device)
    match addErrorToDevice o level map (stored errorId) (stored device) with
    | some map => (true, map)
    | none => (false, map)
  | .remove errorId device =>
    let removed := (errorsOf map (stored device) .critical).contains (stored errorId) ||
      (errorsOf map (stored device) .warning).contains (stored errorId)
    (removed, removeErrorFromDevice map (stored errorId) (stored device))

instance (map : AssertedEventsMap) (level : ErrorLevel) (errorId device : String) :
    Decidable (Active map level errorId device) :=
  inferInstanceAs (Decidable (stored errorId ∈ errorsOf map (stored device) level))

def step (o : Options) (map : AssertedEventsMap) (operation : Operation) : Option AssertedEventsMap :=
  some (perform o map operation).2

/-- The same errors are active. -/
def SameErrors (map map' : AssertedEventsMap) : Prop :=
  ∀ device level errorId, errorId ∈ errorsOf map' device level ↔ errorId ∈ errorsOf map device level

/-! ### What the operations do to the sets -/

@[simp] theorem errors_insert (aefd : AssertedErrorsForDevice) (errorId : String) (level other : ErrorLevel) :
    (aefd.insert errorId level).errors other =
      if level = other then (aefd.errors other).insert errorId else aefd.errors other := by
  cases level <;> cases other <;> rfl

@[simp] theorem errors_erase (aefd : AssertedErrorsForDevice) (errorId : String) (level : ErrorLevel) :
    (aefd.erase errorId).errors level = (aefd.errors level).erase errorId := by
  cases level <;> rfl

@[simp] theorem errorsOf_ensureMappingPresent (map : AssertedEventsMap) (device other : String) (level : ErrorLevel) :
    errorsOf (ensureMappingPresent map device) other level = errorsOf map other level := by
  unfold errorsOf ensureMappingPresent
  split
  · rfl
  · rename_i absent
    rw [StringMap.getElem?_insert]
    split
    · rename_i here
      rw [← here, StringMap.not_mem_iff.mp absent]
      rfl
    · rfl

theorem errorsOf_remove (map : AssertedEventsMap) (errorId device other : String) (level : ErrorLevel) :
    errorsOf (removeErrorFromDevice map errorId device) other level =
      if device = other ∧ device ∈ map then (errorsOf map other level).erase errorId else errorsOf map other level := by
  unfold errorsOf removeErrorFromDevice
  cases read : map[device]? with
  | none => simp [StringMap.not_mem_iff.mpr read]
  | some aefd =>
    have present : device ∈ map := StringMap.mem_iff.mpr ⟨aefd, read⟩
    by_cases here : device = other
    · subst here
      rw [if_pos ⟨rfl, present⟩, read, StringMap.getElem?_insert, if_pos rfl]
      exact errors_erase aefd errorId level
    · simp [here]

/-- An add changes one set, unless the set is full. -/
theorem perform_add (o : Options) (map : AssertedEventsMap) (level : ErrorLevel) (errorId device : String) :
    ((perform o map (.add level errorId device)).1 = true ↔
      (errorsOf map (stored device) level).size < o.maxAssertedErrorIdsPerDevSev) ∧
    ∀ other level', errorsOf (perform o map (.add level errorId device)).2 other level' =
      if stored device = other ∧ level = level' ∧
          (errorsOf map (stored device) level).size < o.maxAssertedErrorIdsPerDevSev then
        (errorsOf map other level').insert (stored errorId)
      else errorsOf map other level' := by
  have size : (((ensureMappingPresent map (stored device)).getD (stored device) {}).errors level).size =
      (errorsOf map (stored device) level).size := by
    rw [Std.TreeMap.getD_eq_getD_getElem?, ← errorsOf_ensureMappingPresent map (stored device)]
    rfl
  by_cases room : (errorsOf map (stored device) level).size < o.maxAssertedErrorIdsPerDevSev
  · have accepted : addErrorToDevice o level (ensureMappingPresent map (stored device)) (stored errorId) (stored device) =
        some ((ensureMappingPresent map (stored device)).insert (stored device)
          (((ensureMappingPresent map (stored device)).getD (stored device) {}).insert (stored errorId) level)) :=
      if_neg (by omega)
    simp only [perform, accepted, room, and_true, true_and]
    intro other level'
    rw [← errorsOf_ensureMappingPresent map (stored device) other level']
    by_cases here : stored device = other
    · subst here
      simp [errorsOf, Std.TreeMap.getD_eq_getD_getElem?]
    · simp [errorsOf, here]
  · have rejected : addErrorToDevice o level (ensureMappingPresent map (stored device)) (stored errorId) (stored device) =
        none := if_pos (by omega)
    simp [perform, rejected, room]

theorem errorsOf_perform_remove (o : Options) (map : AssertedEventsMap) (errorId device other : String)
    (level : ErrorLevel) :
    errorsOf (perform o map (.remove errorId device)).2 other level =
      if stored device = other ∧ stored device ∈ map then (errorsOf map other level).erase (stored errorId)
      else errorsOf map other level :=
  errorsOf_remove map (stored errorId) (stored device) other level

/-! ### Runs -/

/-- Each set is within the limit. -/
def Bounded (o : Options) (map : AssertedEventsMap) : Prop :=
  ∀ device level, (errorsOf map device level).size ≤ o.maxAssertedErrorIdsPerDevSev

theorem step_bounded {o : Options} {map next : AssertedEventsMap} {operation : Operation} (bounded : Bounded o map)
    (h : step o map operation = some next) : Bounded o next := by
  rw [← Option.some.inj h]
  intro other level
  have old := bounded other level
  cases operation with
  | add level' errorId device =>
    rw [(perform_add o map level' errorId device).2]
    split
    · rename_i changed
      obtain ⟨rfl, rfl, room⟩ := changed
      rw [Std.TreeSet.size_insert]
      split
      · exact old
      · omega
    · exact old
  | remove errorId device =>
    rw [errorsOf_perform_remove]
    split
    · exact Std.TreeSet.size_erase_le.trans old
    · exact old

theorem run_bounded {o : Options} {map : AssertedEventsMap} {operations : List Operation}
    (h : Machine.run (step o) ∅ operations = some map) : Bounded o map := by
  have empty : Bounded o ∅ := by
    intro device level
    cases level with
    | critical => exact Nat.zero_le _
    | warning => exact Nat.zero_le _
  exact Machine.run_invariant (fun _ _ _ => step_bounded) empty h

/-- After any operations no set exceeds the limit, an add is rejected exactly where the set is full, and one
that is rejected or that adds an active error leaves every set as it was. -/
theorem add_rejected_iff_full (o : Options) (operations : List Operation) (map : AssertedEventsMap)
    (reached : Machine.run (step o) ∅ operations = some map) :
    (∀ device level, (errorsOf map device level).size ≤ o.maxAssertedErrorIdsPerDevSev) ∧
    ∀ level errorId device,
      ((perform o map (.add level errorId device)).1 = false ↔
        (errorsOf map (stored device) level).size = o.maxAssertedErrorIdsPerDevSev) ∧
      ((perform o map (.add level errorId device)).1 = false ∨ Active map level errorId device →
        SameErrors map (perform o map (.add level errorId device)).2) := by
  have bounded := run_bounded reached
  refine ⟨bounded, fun level errorId device => ?_⟩
  obtain ⟨accepted, sets⟩ := perform_add o map level errorId device
  have full : (perform o map (.add level errorId device)).1 = false ↔
      (errorsOf map (stored device) level).size = o.maxAssertedErrorIdsPerDevSev := by
    rw [← Bool.not_eq_true, accepted]
    have within := bounded (stored device) level
    omega
  refine ⟨full, fun unchanged other level' errorId' => ?_⟩
  rw [sets]
  split
  · rename_i changed
    obtain ⟨rfl, rfl, room⟩ := changed
    have active : stored errorId ∈ errorsOf map (stored device) level :=
      unchanged.resolve_left fun rejected => room.ne (full.mp rejected)
    rw [Std.TreeSet.mem_insert, Std.LawfulEqCmp.compare_eq_iff_eq]
    exact ⟨fun h => h.elim (fun same => same ▸ active) id, Or.inr⟩
  · rfl

/-- As many errors of a device as the default limit allows. -/
def fifty : List Operation := (List.range 50).map fun i => .add .critical (toString i) "GPU_0"

/-- The first of them is not rejected when there is nothing else. -/
theorem add_rejected_iff_full_one : ∃ map, Machine.run (step {}) ∅ [.add .critical "0" "GPU_0"] = some map ∧
    SameErrors map (perform {} map (.add .critical "0" "GPU_0")).2 := by
  refine ⟨_, rfl, ?_⟩
  exact ((add_rejected_iff_full {} [.add .critical "0" "GPU_0"] _ rfl).2 .critical "0" "GPU_0").2 (Or.inr (by decide))

/-- A full set rejects an error that is active in it. -/
theorem add_rejects_active : ∃ map, Machine.run (step {}) ∅ fifty = some map ∧
    Active map .critical "0" "GPU_0" ∧ (perform {} map (.add .critical "0" "GPU_0")).1 = false := by
  refine ⟨_, rfl, ?_, ?_⟩
  · decide +kernel
  · decide +kernel

end MonitorEventing.Health
