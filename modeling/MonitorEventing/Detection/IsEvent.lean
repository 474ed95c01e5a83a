import MonitorEventing.Detection.EventsDetection

/-!
# Counting events

`IsEvent` decides whether an asserted event is reported: an event counts its assertions, by device, up to
its trigger count, or is compared with the value of the property. `int` arithmetic that leaves the range
of `int` is undefined.
-/

namespace MonitorEventing.Detection
open Accessor EventInfo

/-- The result of an operation on `int`. -/
def intResult (value : Int) : Except Exn Int :=
  if -2 ^ 31 ≤ value ∧ value < 2 ^ 31 then .ok value else .error .undefined

theorem intResult_ok {value : Int} (low : -2 ^ 31 ≤ value) (high : value < 2 ^ 31) : intResult value = .ok value :=
  if_pos ⟨low, high⟩

/-- `std::stoi`, `none` for an exception. -/
def stoi (text : String) : Option Int :=
  let body := text.toList.dropWhile isSpace
  let negative := body.head? == some '-'
  let unsigned := if negative || body.head? == some '+' then body.tail else body
  let digits := unsigned.takeWhile Char.isDigit
  let magnitude : Int := Nat.ofDigitChars 10 digits 0
  let value := if negative then -magnitude else magnitude
  if digits = [] then none else (intResult value).toOption

def invalidIntParam : Int := -1

/-- An event with its counts. If its value is its count, nothing is counted. -/
structure CountedEvent where
  node : EventNode
  count : StringMap Int := ∅
  uncounted : node.valueAsCount = true → ∀ device : String, count[device]?.getD 0 = 0 := by simp

namespace CountedEvent

variable (candidate : CountedEvent) (device other : String)

/-- The count of a device, which is 0 before `operator[]` has made one. -/
def countOf : Int := candidate.count[device]?.getD 0

def touch : CountedEvent :=
  { candidate with
    count := candidate.count.insertIfNew device 0
    uncounted := by
      intro value other
      have old := candidate.uncounted value other
      rw [StringMap.getElem?_insertIfNew]
      split
      · rfl
      · exact old }

/-- The assignment to the count, where there is one. -/
def setCount (value : Int) : CountedEvent :=
  if counted : candidate.node.valueAsCount = true then candidate
  else { candidate with count := candidate.count.insert device value, uncounted := fun h => absurd h counted }

/-- The candidate after its accessor was read. -/
def setAccessor (accessor : DataAccessor) : CountedEvent :=
  { candidate with node := { candidate.node with accessor := accessor }, uncounted := candidate.uncounted }

@[simp] theorem touch_node : (candidate.touch device).node = candidate.node := rfl

@[simp] theorem countOf_touch : (candidate.touch device).countOf other = candidate.countOf other := by
  simp only [countOf, touch, StringMap.getElem?_insertIfNew]
  split
  · rename_i fresh
    rw [← fresh.1, StringMap.not_mem_iff.mp fresh.2]
    rfl
  · rfl

@[simp] theorem setCount_node (value : Int) : (candidate.setCount device value).node = candidate.node := by
  unfold setCount
  split
  · rfl
  · rfl

theorem countOf_setCount (counts : candidate.node.valueAsCount = false) (value : Int) :
    (candidate.setCount device value).countOf other = if device = other then value else candidate.countOf other := by
  rw [setCount, dif_neg (by simp [counts]), countOf, StringMap.getElem?_insert]
  split
  · rfl
  · rfl

end CountedEvent

/-- What a call of `IsEvent` returns, whether it read the property, and what it leaves of the candidate. -/
structure Answer where
  raised : Bool
  reread : Bool
  candidate : CountedEvent

/-- What the candidate is compared with, which is read again if it is the invalid parameter. Nobody tells
the exceptions of `stoi` apart. -/
def comparedCount (env : Env) (candidate : CountedEvent) (next compareCount : Int) :
    Except Exn (Int × Bool × CountedEvent) :=
  if candidate.node.valueAsCount then
    if compareCount = invalidIntParam then do
      let (text, accessor) ← candidate.node.accessor.read env "" none
      let value ← (stoi text).elim (.error .outOfRange) .ok
      pure (value, true, candidate.setAccessor accessor)
    else pure (compareCount, false, candidate)
  else pure (next, false, candidate)

/-- `IsEvent`. -/
def isEvent (env : Env) (candidate : CountedEvent) (device : String) (compareCount : Int) : Except Exn Answer := do
  let candidate := candidate.touch device
  let next ← intResult (candidate.countOf device + 1)
  let (count, reread, candidate) ← comparedCount env candidate next compareCount
  let triggerCount := candidate.node.triggerCount
  if triggerCount = -1 then pure ⟨false, reread, candidate⟩
  else do
    let countDiff ← intResult (triggerCount - count)
    if countDiff ≤ 0 then pure ⟨true, reread, candidate.setCount device triggerCount⟩
    else pure ⟨false, reread, candidate.setCount device next⟩

/-! ### Counting assertions -/

/-- What is stored after `n` calls for a device. -/
def countAfter (triggerCount : Int) (n : Nat) : Int := if triggerCount = -1 then 0 else min (n : Int) triggerCount

/-- Whether the `n`-th call for a device raises the event. -/
def Raises (triggerCount : Int) (n : Nat) : Prop := triggerCount ≠ -1 ∧ triggerCount ≤ n

instance (triggerCount : Int) (n : Nat) : Decidable (Raises triggerCount n) :=
  inferInstanceAs (Decidable (_ ∧ _))

section
variable (env : Env) {candidate : CountedEvent}

/-- What is answered once it is known what to compare with. -/
theorem isEvent_of_compared {device : String} {compareCount next count : Int} {reread : Bool} {compared : CountedEvent}
    (inRange : intResult (candidate.countOf device + 1) = .ok next)
    (read : comparedCount env (candidate.touch device) next compareCount = .ok (count, reread, compared)) :
    isEvent env candidate device compareCount =
      if compared.node.triggerCount = -1 then .ok ⟨false, reread, compared⟩
      else (intResult (compared.node.triggerCount - count)).map fun countDiff =>
        if countDiff ≤ 0 then ⟨true, reread, compared.setCount device compared.node.triggerCount⟩
        else ⟨false, reread, compared.setCount device next⟩ := by
  simp only [isEvent, CountedEvent.countOf_touch, inRange, bind, Except.bind, read]
  by_cases never : compared.node.triggerCount = -1
  · rw [if_pos never, if_pos never]
    rfl
  · rw [if_neg never, if_neg never]
    cases intResult (compared.node.triggerCount - count) with
    | error e => rfl
    | ok countDiff =>
      simp only [Except.map]
      split
      · rfl
      · rfl

theorem isEvent_of_counts (counts : candidate.node.valueAsCount = false) (device : String) (compareCount : Int)
    {next : Int} (inRange : intResult (candidate.countOf device + 1) = .ok next) :
    isEvent env candidate device compareCount =
      if candidate.node.triggerCount = -1 then .ok ⟨false, false, candidate.touch device⟩
      else (intResult (candidate.node.triggerCount - next)).map fun countDiff =>
        if countDiff ≤ 0 then ⟨true, false, (candidate.touch device).setCount device candidate.node.triggerCount⟩
        else ⟨false, false, (candidate.touch device).setCount device next⟩ := by
  have compared : comparedCount env (candidate.touch device) next compareCount =
      .ok (next, false, candidate.touch device) := if_neg (by simp [counts])
  exact isEvent_of_compared env inRange compared

/-- One call, as long as the count can go on. -/
theorem isEvent_counts (counts : candidate.node.valueAsCount = false) (low : -1 ≤ candidate.node.triggerCount)
    (high : candidate.node.triggerCount < 2 ^ 31) {device : String} {n : Nat}
    (stored : candidate.countOf device = countAfter candidate.node.triggerCount n)
    (room : candidate.node.triggerCount = 2 ^ 31 - 1 → n + 1 < 2 ^ 31) (compareCount : Int) :
    ∃ next, isEvent env candidate device compareCount =
        .ok ⟨decide (Raises candidate.node.triggerCount (n + 1)), false, next⟩ ∧ next.node = candidate.node ∧
      ∀ other, next.countOf other =
        if device = other then countAfter candidate.node.triggerCount (n + 1) else candidate.countOf other := by
  have inRange : intResult (candidate.countOf device + 1) = .ok (candidate.countOf device + 1) := by
    rw [stored, countAfter]
    apply intResult_ok
    · split <;> omega
    · split <;> omega
  rw [isEvent_of_counts env counts device compareCount inRange]
  by_cases never : candidate.node.triggerCount = -1
  · refine ⟨candidate.touch device, ?_, rfl, fun other => ?_⟩
    · rw [if_pos never, decide_eq_false (fun raises => raises.1 never)]
    · rw [CountedEvent.countOf_touch, countAfter, if_pos never]
      split
      · rename_i same
        rw [← same, stored, countAfter, if_pos never]
      · rfl
  · have count : candidate.countOf device = min (n : Int) candidate.node.triggerCount := by
      rw [stored, countAfter, if_neg never]
    rw [if_neg never, intResult_ok (by omega) (by omega)]
    by_cases reached : candidate.node.triggerCount ≤ n + 1
    · refine ⟨(candidate.touch device).setCount device candidate.node.triggerCount, ?_, by simp, fun other => ?_⟩
      · simp only [Except.map]
        rw [if_pos (by omega), decide_eq_true ⟨never, by exact_mod_cast reached⟩]
      · rw [CountedEvent.countOf_setCount _ _ _ (by exact counts), CountedEvent.countOf_touch, countAfter, if_neg never]
        congr 1
        push_cast
        omega
    · refine ⟨(candidate.touch device).setCount device (candidate.countOf device + 1), ?_, by simp, fun other => ?_⟩
      · simp only [Except.map]
        rw [if_neg (by omega), decide_eq_false (fun raises => reached (by exact_mod_cast raises.2))]
      · rw [CountedEvent.countOf_setCount _ _ _ (by exact counts), CountedEvent.countOf_touch, countAfter, if_neg never]
        congr 1
        push_cast
        omega

/-- One call, after calls for the devices of `past`. -/
theorem isEvent_counts_past (counts : candidate.node.valueAsCount = false) (low : -1 ≤ candidate.node.triggerCount)
    (high : candidate.node.triggerCount < 2 ^ 31) {past : List String}
    (stored : ∀ device, candidate.countOf device = countAfter candidate.node.triggerCount (past.count device))
    {device : String} (room : candidate.node.triggerCount = 2 ^ 31 - 1 → past.count device + 1 < 2 ^ 31)
    (compareCount : Int) :
    ∃ answer, isEvent env candidate device compareCount = .ok answer ∧ answer.candidate.node = candidate.node ∧
      ∀ other, answer.candidate.countOf other =
        countAfter answer.candidate.node.triggerCount ((past ++ [device]).count other) := by
  obtain ⟨next, step, same, after⟩ := isEvent_counts env counts low high (stored device) room compareCount
  refine ⟨_, step, same, fun other => ?_⟩
  rw [after, same]
  by_cases here : device = other
  · subst here
    simp
  · simp [here, stored]

/-- At the largest `int` the count cannot go on. -/
theorem isEvent_overflow {device : String} (stored : candidate.countOf device = 2 ^ 31 - 1) (compareCount : Int) :
    isEvent env candidate device compareCount = .error .undefined := by
  simp only [isEvent, CountedEvent.countOf_touch, stored]
  rfl

end

/-- Calls one after the other, each for a device and with a parameter. -/
def isEventFrom (env : Env) : List (String × Int) → CountedEvent → Except Exn CountedEvent
  | [], candidate => pure candidate
  | (device, compareCount) :: rest, candidate => do
    let answer ← isEvent env candidate device compareCount
    isEventFrom env rest answer.candidate

/-- No device is counted beyond the largest `int`. -/
def Fits (triggerCount : Int) (devices : List String) : Prop :=
  triggerCount = 2 ^ 31 - 1 → ∀ device, devices.count device < 2 ^ 31

section
variable (env : Env) {candidate : CountedEvent}

theorem isEventFrom_concat {calls : List (String × Int)} {device : String} {compareCount : Int}
    {before : CountedEvent} {answer : Answer} (run : isEventFrom env calls candidate = .ok before)
    (last : isEvent env before device compareCount = .ok answer) :
    isEventFrom env (calls ++ [(device, compareCount)]) candidate = .ok answer.candidate := by
  induction calls generalizing candidate with
  | nil =>
    obtain rfl := pure_ok_iff.mp run
    rw [List.nil_append, isEventFrom, last]
    rfl
  | cons call rest ih =>
    obtain ⟨first, step, run⟩ := bind_ok run
    rw [List.cons_append, isEventFrom, step]
    exact ih run

theorem isEventFrom_counts (counts : candidate.node.valueAsCount = false) (low : -1 ≤ candidate.node.triggerCount)
    (high : candidate.node.triggerCount < 2 ^ 31) {past : List String}
    (stored : ∀ device, candidate.countOf device = countAfter candidate.node.triggerCount (past.count device))
    {calls : List (String × Int)} (fits : Fits candidate.node.triggerCount (past ++ calls.map (·.1))) :
    ∃ after, isEventFrom env calls candidate = .ok after ∧ after.node = candidate.node ∧
      ∀ device, after.countOf device =
        countAfter candidate.node.triggerCount ((past ++ calls.map (·.1)).count device) := by
  induction calls generalizing candidate past with
  | nil => exact ⟨candidate, rfl, rfl, by simpa using stored⟩
  | cons call rest ih =>
    obtain ⟨device, compareCount⟩ := call
    have room : candidate.node.triggerCount = 2 ^ 31 - 1 → past.count device + 1 < 2 ^ 31 := by
      intro largest
      have all := fits largest device
      simp only [List.map_cons, List.count_append, List.count_cons_self] at all
      omega
    obtain ⟨answer, step, same, counted⟩ := isEvent_counts_past env counts low high stored room compareCount
    have rest_fits : Fits answer.candidate.node.triggerCount ((past ++ [device]) ++ rest.map (·.1)) := by
      rw [same]
      simpa using fits
    obtain ⟨final, run, node, result⟩ := ih (by rw [same]; exact counts) (by rw [same]; exact low)
      (by rw [same]; exact high) counted rest_fits
    refine ⟨final, ?_, node.trans same, fun other => ?_⟩
    · rw [isEventFrom, step]
      exact run
    · rw [result, same]
      simp

theorem isEventFrom_overflow (counts : candidate.node.valueAsCount = false)
    (largest : candidate.node.triggerCount = 2 ^ 31 - 1) {past : List String}
    (stored : ∀ device, candidate.countOf device = countAfter candidate.node.triggerCount (past.count device))
    {calls : List (String × Int)} (fits : Fits candidate.node.triggerCount past)
    (exceeds : ¬ Fits candidate.node.triggerCount (past ++ calls.map (·.1))) :
    isEventFrom env calls candidate = .error .undefined := by
  induction calls generalizing candidate past with
  | nil => exact absurd (by simpa using fits) exceeds
  | cons call rest ih =>
    obtain ⟨device, compareCount⟩ := call
    by_cases full : past.count device = 2 ^ 31 - 1
    · have last : candidate.countOf device = 2 ^ 31 - 1 := by
        rw [stored, full, largest]
        rfl
      rw [isEventFrom, isEvent_overflow env last]
      rfl
    · have below := fits largest device
      have room : past.count device + 1 < 2 ^ 31 := by omega
      obtain ⟨answer, step, same, counted⟩ := isEvent_counts_past env counts (by omega) (by omega) stored
        (fun _ => room) compareCount
      have fits' : Fits answer.candidate.node.triggerCount (past ++ [device]) := by
        intro _ other
        have old := fits largest other
        by_cases here : device = other
        · subst here
          simp
          omega
        · simpa [here] using old
      rw [isEventFrom, step]
      refine ih (by rw [same]; exact counts) (by rw [same]; exact largest) counted fits' ?_
      rw [same]
      simpa using exceeds

end

/-- Every call counts and answers as it should, exactly if the trigger count is not the largest `int` or no
device is reported more often than that. -/
theorem isEvent_counts_iff (env : Env) (node : EventNode) (counts : node.valueAsCount = false)
    (low : -1 ≤ node.triggerCount) (high : node.triggerCount < 2 ^ 31) (calls : List (String × Int)) :
    (∀ before device compareCount after, calls = before ++ (device, compareCount) :: after →
      ∃ candidate answer, isEventFrom env before { node } = .ok candidate ∧
        isEvent env candidate device compareCount = .ok answer ∧
        (answer.raised = true ↔ node.triggerCount ≠ -1 ∧ node.triggerCount ≤ ((before.map (·.1)).count device : Int) + 1) ∧
        answer.candidate.countOf device =
          (if node.triggerCount = -1 then 0 else min (((before.map (·.1)).count device : Int) + 1) node.triggerCount) ∧
        ∀ other ≠ device, answer.candidate.countOf other = candidate.countOf other) ↔
      (node.triggerCount = 2 ^ 31 - 1 → ∀ device, (calls.map (·.1)).count device < 2 ^ 31) := by
  have empty : ∀ device, ({ node } : CountedEvent).countOf device = countAfter node.triggerCount (([] : List String).count device) := by
    intro device
    simp [CountedEvent.countOf, countAfter]
    omega
  refine ⟨fun each => ?_, fun fits before device compareCount after split => ?_⟩
  · -- a run in which every call answers does not end in an overflow
    by_contra exceeds
    have largest : node.triggerCount = 2 ^ 31 - 1 := (Classical.not_imp.mp exceeds).1
    have overflow := @isEventFrom_overflow env { node } counts largest [] empty calls (fun _ device => by simp)
      (by simpa [Fits] using exceeds)
    rcases List.eq_nil_or_concat calls with rfl | ⟨before, call, rfl⟩
    · cases overflow
    · obtain ⟨device, compareCount⟩ := call
      obtain ⟨candidate, answer, run, answers, _⟩ := each before device compareCount [] (by simp)
      rw [List.concat_eq_append, isEventFrom_concat env run answers] at overflow
      cases overflow
  · have fitsBefore : Fits node.triggerCount ([] ++ before.map (·.1)) := by
      intro largest other
      have all := fits largest other
      rw [split, List.map_append, List.count_append] at all
      simpa using by omega
    obtain ⟨candidate, run, same, stored⟩ := @isEventFrom_counts env { node } counts low high [] empty before fitsBefore
    have room : candidate.node.triggerCount = 2 ^ 31 - 1 → (before.map (·.1)).count device + 1 < 2 ^ 31 := by
      intro largest
      have all := fits (by rw [← largest, same]) device
      simp only [split, List.map_append, List.map_cons, List.count_append, List.count_cons_self] at all
      omega
    obtain ⟨next, step, _, changed⟩ := isEvent_counts env (by rw [same]; exact counts) (by rw [same]; exact low)
      (by rw [same]; exact high) (by rw [stored, same]; rfl) room compareCount
    refine ⟨candidate, _, run, step, ?_, ?_, fun other different => ?_⟩
    · rw [same]
      simp [Raises]
    · rw [changed, if_pos rfl, same, countAfter]
      push_cast
      rfl
    · rw [changed, if_neg (Ne.symm different)]

/-- With a trigger count of 2 the second call for a device raises the event, whatever comes between. -/
theorem isEvent_counts_iff_second : ∃ candidate answer,
    isEventFrom (silent 0) [("GPU_0", -1), ("GPU_1", -1)] { node := { triggerCount := 2 } } = .ok candidate ∧
      isEvent (silent 0) candidate "GPU_0" (-1) = .ok answer ∧ answer.raised = true := by
  have counts := (isEvent_counts_iff (silent 0) { triggerCount := 2 } rfl (by decide) (by decide)
    [("GPU_0", -1), ("GPU_1", -1), ("GPU_0", -1)]).mpr (fun largest => by cases largest)
  obtain ⟨candidate, answer, run, step, raised, _⟩ := counts [("GPU_0", -1), ("GPU_1", -1)] "GPU_0" (-1) [] rfl
  exact ⟨candidate, answer, run, step, raised.mpr ⟨by decide, by decide⟩⟩

/-- At the largest trigger count the call after the one that first raises the event overflows. -/
theorem isEvent_counts_overflow : ∃ candidate,
    isEventFrom (silent 0) (List.replicate (2 ^ 31 - 1) ("GPU_0", -1)) { node := { triggerCount := 2 ^ 31 - 1 } } =
      .ok candidate ∧ isEvent (silent 0) candidate "GPU_0" (-1) = .error .undefined := by
  have devices : (List.replicate (2 ^ 31 - 1) (("GPU_0", -1) : String × Int)).map (·.1) =
      List.replicate (2 ^ 31 - 1) "GPU_0" := List.map_replicate
  have fits : Fits (2 ^ 31 - 1) ([] ++ (List.replicate (2 ^ 31 - 1) (("GPU_0", -1) : String × Int)).map (·.1)) := by
    intro _ device
    rw [devices, List.nil_append]
    exact List.count_le_length.trans_lt (by rw [List.length_replicate]; decide)
  obtain ⟨candidate, run, _, stored⟩ := @isEventFrom_counts (silent 0)
    { node := { triggerCount := 2 ^ 31 - 1 } } rfl (by decide) (by decide) []
    (fun device => by rw [CountedEvent.countOf]; rfl) _ fits
  refine ⟨candidate, run, isEvent_overflow _ ?_ _⟩
  rw [stored, devices, List.nil_append, List.count_replicate_self]
  rfl

end MonitorEventing.Detection
