import MonitorEventing.Accessor.Json

/-!
# Running the diagnostics tests

A test is run once, after the tests it depends on, and is skipped if one of them has no result to offer.
What its own part does is anything: it returns a result or throws.
-/

namespace MonitorEventing.Diagnostics

inductive Status where
  | passed | failed | skipped | done
  deriving DecidableEq, Repr

namespace Status

def providesResult (status : Status) : Bool := status = .passed ∨ status = .done

def toString : Status → String
  | .passed => "PASSED"
  | .failed => "FAILED"
  | .skipped => "SKIPPED"
  | .done => "DONE"

end Status

/-- The result of a test, with the tests it spawns. -/
structure Result where
  status : Status
  details : Json := .null
  newTests : List Nat := []

/-- How a call of `rawRun` ends. -/
inductive RawOutcome where
  | returned (result : Result)
  | exception (what : String)
  /-- Something is thrown that is no `std::exception`. -/
  | unknown

/-- A test, which points to those it depends on by their addresses. -/
structure Test where
  type : String
  instanceName : String
  description : String
  dependencies : List Nat
  rawRun : Json → RawOutcome

def Test.toString (test : Test) : String := test.type ++ ": " ++ test.instanceName

def Test.alreadyPerformedErrMsg (test : Test) : String := "Test '" ++ test.toString ++ "' was already performed"

/-- The results of the tests that were performed, and the tests whose `rawRun` was called. -/
structure Session where
  result : Nat → Option Result := fun _ => none
  invoked : List Nat := []

namespace Session

def isPerformed (s : Session) (test : Nat) : Bool := (s.result test).isSome

def providesResult (s : Session) (test : Nat) : Bool :=
  match s.result test with
  | some result => result.status.providesResult
  | none => false

def setResult (s : Session) (test : Nat) (result : Result) : Session :=
  { s with result := Function.update s.result test (some result) }

end Session

section
variable (tests : Nat → Test)

/-- What `run` makes of the outcome of `rawRun`. -/
def resultOf : RawOutcome → Result
  | .returned result => result
  | .exception what => { status := .failed, details := .string ("Exception thrown during execution of the test: " ++ what) }
  | .unknown => { status := .failed, details := .string "Unknown exception thrown during execution of the test" }

def skippedBy (dependency : Test) : Result where
  status := .skipped
  details := .object [("info", .string "No results provided by the depending test"),
    ("dependency_test", .string dependency.toString)]

/-- `Test::run`, which throws before it changes anything. -/
def run (test : Nat) (resultsSoFar : Json) (s : Session) : Except Exn Unit × Session :=
  if s.isPerformed test then (.error (.runtimeError (tests test).alreadyPerformedErrMsg), s)
  else
    match (tests test).dependencies.find? fun dep => !s.isPerformed dep with
    | some dep =>
      (.error (.runtimeError ("Dependency test '" ++ (tests dep).toString ++ "' for '" ++ (tests test).toString ++
        "' was not performed")), s)
    | none =>
      match (tests test).dependencies.find? fun dep => !s.providesResult dep with
      | none =>
        let s := { s with invoked := s.invoked ++ [test] }
        (.ok (), s.setResult test (resultOf ((tests test).rawRun resultsSoFar)))
      | some dep => (.ok (), s.setResult test (skippedBy (tests dep)))

/-- Calls of `run`, each with the results so far, until one throws. -/
def runAll : List (Nat × Json) → Session → Except Exn Unit × Session
  | [], s => (.ok (), s)
  | (test, resultsSoFar) :: rest, s =>
    match run tests test resultsSoFar s with
    | (.ok (), s) => runAll rest s
    | (.error e, s) => (.error e, s)

/-- `getFullResultNode` of a test that was performed, as an object in the order the members were added. -/
def getFullResultNode (test : Nat) (result : Result) : Json :=
  let details := match result.details with
    | .null => []
    | details => [("details", details)]
  .object ([("description", .string (tests test).description), ("status", .string result.status.toString)] ++ details)

/-- `node[key]` replaced. A null becomes an object. -/
def assign (node : Json) (key : String) (value : Json) : Json :=
  if node.contains key then .object (node.items.map fun member => if member.1 = key then (key, value) else member)
  else .object (node.items ++ [(key, value)])

/-- The entry of a test in the report, under its type and its instance. -/
def addResult (report : Json) (test : Nat) (result : Result) : Json :=
  let group := ((report.get? (tests test).type).getD .null)
  assign report (tests test).type (assign group (tests test).instanceName (getFullResultNode tests test result))

/-- The loop of `diagnostics::run` over the tests that wait, those a test spawns behind the others. It
may go on for ever. That `rawRun` gets the report with its keys sorted is left to `rawRun`. -/
def loop : Nat → List Nat → Json → Session → Option (Except Exn Json × Session)
  | 0, _, _, _ => none
  | _ + 1, [], report, s => some (.ok report, s)
  | fuel + 1, test :: queue, report, s =>
    match run tests test report s with
    | (.error e, s) => some (.error e, s)
    | (.ok (), s) =>
      match s.result test with
      | some result => loop fuel (queue ++ result.newTests) (addResult tests report test result) s
      | none => some (.error (.runtimeError (tests test).alreadyPerformedErrMsg), s)

/-! ### One test -/

/-- Every test it depends on ended passed or done. -/
def Offered (s : Session) (test : Nat) : Prop :=
  ∀ dep ∈ (tests test).dependencies, ∃ result, s.result dep = some result ∧ (result.status = .passed ∨ result.status = .done)

theorem providesResult_iff (s : Session) (dep : Nat) : s.providesResult dep = true ↔
    ∃ result, s.result dep = some result ∧ (result.status = .passed ∨ result.status = .done) := by
  unfold Session.providesResult Status.providesResult
  cases s.result dep with
  | none => simp
  | some result => simp

theorem offered_iff (s : Session) (test : Nat) :
    Offered tests s test ↔ ∀ dep ∈ (tests test).dependencies, s.providesResult dep = true :=
  forall₂_congr fun dep _ => (providesResult_iff s dep).symm

instance (s : Session) (test : Nat) : Decidable (Offered tests s test) :=
  decidable_of_iff _ (offered_iff tests s test).symm

/-- A test that is out of its turn is left as it was, and so is everything else. -/
theorem run_refuses {s : Session} {test : Nat}
    (refused : s.isPerformed test = true ∨ ∃ dep ∈ (tests test).dependencies, s.isPerformed dep = false) (resultsSoFar : Json) :
    ∃ what, run tests test resultsSoFar s = (.error (.runtimeError what), s) := by
  unfold run
  by_cases performed : s.isPerformed test = true
  · rw [if_pos performed]
    exact ⟨_, rfl⟩
  · rw [if_neg performed]
    obtain ⟨dep, member, unperformed⟩ := refused.resolve_left performed
    cases found : (tests test).dependencies.find? fun dep => !s.isPerformed dep with
    | some first => exact ⟨_, rfl⟩
    | none =>
      have all := List.find?_eq_none.mp found dep member
      simp [unperformed] at all

theorem run_ready {s : Session} {test : Nat} (fresh : s.isPerformed test = false)
    (ready : ∀ dep ∈ (tests test).dependencies, s.isPerformed dep = true) (resultsSoFar : Json) :
    ∃ result, run tests test resultsSoFar s = (.ok (),
        ⟨Function.update s.result test (some result), if Offered tests s test then s.invoked ++ [test] else s.invoked⟩) ∧
      (Offered tests s test → result = resultOf ((tests test).rawRun resultsSoFar)) ∧
      (¬ Offered tests s test → result.status = .skipped) := by
  have performed : ((tests test).dependencies.find? fun dep => !s.isPerformed dep) = none := by
    rw [List.find?_eq_none]
    intro dep member
    simp [ready dep member]
  unfold run
  rw [if_neg (by simp [fresh]), performed]
  dsimp only
  cases found : (tests test).dependencies.find? fun dep => !s.providesResult dep with
  | none =>
    have offered : Offered tests s test :=
      (offered_iff tests s test).mpr fun dep member => by simpa using List.find?_eq_none.mp found dep member
    refine ⟨resultOf ((tests test).rawRun resultsSoFar), ?_, fun _ => rfl, fun h => absurd offered h⟩
    rw [if_pos offered]
    rfl
  | some dep =>
    have missing : ¬ Offered tests s test := fun all => by
      have bad := List.find?_some found
      simp [(offered_iff tests s test).mp all dep (List.mem_of_find?_eq_some found)] at bad
    refine ⟨skippedBy (tests dep), ?_, fun h => absurd h missing, fun _ => rfl⟩
    rw [if_neg missing]
    rfl

/-! ### All of them -/

/-- A test that was run with the results so far has the result its dependencies and its `rawRun` give it. -/
def Judged (s : Session) (call : Nat × Json) : Prop :=
  ∃ result, s.result call.1 = some result ∧
    if Offered tests s call.1 then
      s.invoked.count call.1 = 1 ∧
        match (tests call.1).rawRun call.2 with
        | .returned given => result = given
        | .exception _ | .unknown => result.status = .failed
    else s.invoked.count call.1 = 0 ∧ result.status = .skipped

/-- An order of calls in which no test is met twice and every test comes after those it depends on. -/
structure Ordered (calls : List (Nat × Json)) : Prop where
  once : (calls.map (·.1)).Nodup
  after : ∀ before call rest, calls = before ++ call :: rest →
    ∀ dep ∈ (tests call.1).dependencies, dep ∈ before.map (·.1)

/-- What the calls made so far have left. -/
structure Inv (past : List (Nat × Json)) (s : Session) : Prop where
  performed : ∀ test, s.isPerformed test = true ↔ test ∈ past.map (·.1)
  closed : ∀ call ∈ past, ∀ dep ∈ (tests call.1).dependencies, dep ∈ past.map (·.1)
  judged : ∀ call ∈ past, Judged tests s call
  uninvoked : ∀ test, test ∉ past.map (·.1) → s.invoked.count test = 0

theorem empty_inv : Inv tests [] {} where
  performed test := by simp [Session.isPerformed]
  closed call member := by cases member
  judged call member := by cases member
  uninvoked test _ := rfl

variable {tests} {past : List (Nat × Json)} {s t : Session} {call : Nat × Json}

theorem isPerformed_update (test other : Nat) (result : Result) (invoked : List Nat) :
    Session.isPerformed ⟨Function.update s.result test (some result), invoked⟩ other = (decide (other = test) || s.isPerformed other) := by
  by_cases here : other = test
  · simp [Session.isPerformed, here]
  · simp [Session.isPerformed, here]

/-- The result of one test says nothing about the dependencies of another that does not wait for it. -/
theorem offered_update {test other : Nat} (outside : test ∉ (tests other).dependencies) (result : Result) (invoked : List Nat) :
    Offered tests ⟨Function.update s.result test (some result), invoked⟩ other ↔ Offered tests s other := by
  refine forall₂_congr fun dep member => ?_
  have different : dep ≠ test := fun same => outside (same ▸ member)
  simp [different]

/-- What is known of a test does not change when another is run. -/
theorem Judged.frame (judged : Judged tests s call) {test : Nat} {result : Result} {invoked : List Nat}
    (other : call.1 ≠ test) (outside : test ∉ (tests call.1).dependencies)
    (count : invoked.count call.1 = s.invoked.count call.1) :
    Judged tests ⟨Function.update s.result test (some result), invoked⟩ call := by
  obtain ⟨given, here, known⟩ := judged
  refine ⟨given, (Function.update_of_ne other _ _).trans here, ?_⟩
  simp only [offered_update outside, count]
  exact known

/-- A test whose turn it is gets its result. -/
theorem run_judged (fresh : s.isPerformed call.1 = false)
    (ready : ∀ dep ∈ (tests call.1).dependencies, s.isPerformed dep = true) (uninvoked : s.invoked.count call.1 = 0)
    (ran : run tests call.1 call.2 s = (.ok (), t)) : Judged tests t call := by
  obtain ⟨result, computed, offers, skips⟩ := run_ready tests fresh ready call.2
  have outside : call.1 ∉ (tests call.1).dependencies := fun member => by
    rw [ready _ member] at fresh
    cases fresh
  cases (Prod.mk.inj (computed.symm.trans ran)).2
  refine ⟨result, Function.update_self _ _ _, ?_⟩
  simp only [offered_update outside]
  by_cases offered : Offered tests s call.1
  · have given := offers offered
    rw [if_pos offered, if_pos offered, List.count_append, uninvoked, List.count_singleton_self]
    refine ⟨rfl, ?_⟩
    cases outcome : (tests call.1).rawRun call.2 with
    | returned result => simp only [given, outcome, resultOf]
    | exception what => simp only [given, outcome, resultOf]
    | unknown => simp only [given, outcome, resultOf]
  · rw [if_neg offered, if_neg offered]
    exact ⟨uninvoked, skips offered⟩

/-- A step: one more test, after those it depends on. -/
theorem run_inv (inv : Inv tests past s) (once : call.1 ∉ past.map (·.1))
    (after : ∀ dep ∈ (tests call.1).dependencies, dep ∈ past.map (·.1)) :
    ∃ t, run tests call.1 call.2 s = (.ok (), t) ∧ Inv tests (past ++ [call]) t := by
  have fresh : s.isPerformed call.1 = false := by
    rw [← Bool.not_eq_true, inv.performed]
    exact once
  have ready : ∀ dep ∈ (tests call.1).dependencies, s.isPerformed dep = true :=
    fun dep member => (inv.performed dep).mpr (after dep member)
  obtain ⟨result, ran, -⟩ := run_ready tests fresh ready call.2
  have judged := run_judged fresh ready (inv.uninvoked call.1 once) ran
  have counts : ∀ other, other ≠ call.1 →
      (if Offered tests s call.1 then s.invoked ++ [call.1] else s.invoked).count other = s.invoked.count other := by
    intro other different
    by_cases offered : Offered tests s call.1
    · simp [offered, different.symm]
    · simp [offered]
  refine ⟨_, ran, ?_, ?_, ?_, ?_⟩
  · intro other
    rw [isPerformed_update, Bool.or_eq_true, inv.performed, decide_eq_true_iff]
    simp [or_comm]
  · intro earlier member dep inside
    rw [List.map_append, List.mem_append]
    rcases List.mem_append.mp member with old | new
    · exact Or.inl (inv.closed earlier old dep inside)
    · rw [List.mem_singleton.mp new] at inside
      exact Or.inl (after dep inside)
  · intro earlier member
    rcases List.mem_append.mp member with old | new
    · have other : earlier.1 ≠ call.1 := fun same => once (same ▸ List.mem_map_of_mem old)
      exact (inv.judged earlier old).frame other (fun inside => once (inv.closed earlier old _ inside)) (counts _ other)
    · rw [List.mem_singleton.mp new]
      exact judged
  · intro other outside
    rw [List.map_append, List.mem_append, not_or] at outside
    have different : other ≠ call.1 := fun same => outside.2 (by simp [same])
    exact (counts other different).trans (inv.uninvoked other outside.1)

/-- The run: the calls that are left, after those made. -/
theorem runAll_inv (calls : List (Nat × Json)) (inv : Inv tests past s) (ordered : Ordered tests (past ++ calls)) :
    ∃ t, runAll tests calls s = (.ok (), t) ∧ Inv tests (past ++ calls) t := by
  induction calls generalizing past s with
  | nil =>
    rw [List.append_nil]
    exact ⟨s, rfl, inv⟩
  | cons call rest ih =>
    have once : call.1 ∉ past.map (·.1) := by
      have distinct := ordered.once
      rw [List.map_append, List.map_cons] at distinct
      intro member
      exact (List.nodup_append.mp distinct).2.2 _ member _ List.mem_cons_self rfl
    obtain ⟨t, ran, next⟩ := run_inv inv once (ordered.after past call rest rfl)
    have split : past ++ call :: rest = past ++ [call] ++ rest := by rw [List.append_assoc, List.singleton_append]
    rw [split] at ordered ⊢
    obtain ⟨u, went, final⟩ := ih next ordered
    refine ⟨u, ?_, final⟩
    rw [runAll, ran]
    exact went

theorem runAll_append (calls more : List (Nat × Json)) (ran : runAll tests calls s = (.ok (), t)) :
    runAll tests (calls ++ more) s = runAll tests more t := by
  induction calls generalizing s with
  | nil =>
    cases ran
    rfl
  | cons call rest ih =>
    rw [List.cons_append, runAll]
    rw [runAll] at ran
    cases step : run tests call.1 call.2 s with
    | mk outcome u =>
      rw [step] at ran
      cases outcome with
      | error e => cases ran
      | ok _ => exact ih ran

/-- Nothing replaces a result that is there. -/
theorem run_keeps {test : Nat} (performed : s.isPerformed test = true) (other : Nat) (resultsSoFar : Json) :
    (run tests other resultsSoFar s).2.result test = s.result test := by
  by_cases refused : s.isPerformed other = true ∨ ∃ dep ∈ (tests other).dependencies, s.isPerformed dep = false
  · obtain ⟨what, thrown⟩ := run_refuses tests refused resultsSoFar
    rw [thrown]
  · rw [not_or] at refused
    have fresh : s.isPerformed other = false := by simpa using refused.1
    have ready : ∀ dep ∈ (tests other).dependencies, s.isPerformed dep = true := by simpa using refused.2
    obtain ⟨result, ran, -⟩ := run_ready tests fresh ready resultsSoFar
    have different : test ≠ other := fun same => by
      rw [← same, performed] at fresh
      cases fresh
    rw [ran]
    exact Function.update_of_ne different _ _

theorem runAll_keeps {test : Nat} (performed : s.isPerformed test = true) (calls : List (Nat × Json)) :
    (runAll tests calls s).2.result test = s.result test := by
  induction calls generalizing s with
  | nil => rfl
  | cons call rest ih =>
    have kept : (run tests call.1 call.2 s).2.result test = s.result test := run_keeps performed call.1 call.2
    rw [runAll]
    cases step : run tests call.1 call.2 s with
    | mk outcome u =>
      rw [step] at kept
      cases outcome with
      | error e => exact kept
      | ok _ =>
        have still : u.isPerformed test = true := (congrArg Option.isSome kept).trans performed
        exact (ih still).trans kept

/-- A session that goes through the loop is one of calls one after another. -/
theorem loop_runAll {fuel : Nat} {queue : List Nat} {report final : Json}
    (ended : loop tests fuel queue report s = some (.ok final, t)) :
    ∃ calls, queue <+: calls.map (·.1) ∧ runAll tests calls s = (.ok (), t) := by
  induction fuel generalizing queue report s with
  | zero => cases ended
  | succ fuel ih =>
    cases queue with
    | nil =>
      cases ended
      exact ⟨[], List.prefix_rfl, rfl⟩
    | cons test queue =>
      rw [loop] at ended
      cases step : run tests test report s with
      | mk outcome u =>
        rw [step] at ended
        cases outcome with
        | error e => cases ended
        | ok _ =>
          cases here : u.result test with
          | none =>
            simp only [here] at ended
            cases ended
          | some result =>
            simp only [here] at ended
            obtain ⟨calls, starts, ran⟩ := ih ended
            refine ⟨(test, report) :: calls, ?_, ?_⟩
            · exact List.cons_prefix_cons.mpr ⟨rfl, (List.prefix_append _ _).trans starts⟩
            · rw [runAll, step]
              exact ran

/-- Each test of an order that respects the dependencies is performed once: its `rawRun` is called if its
dependencies all offer a result and else it is skipped, what `rawRun` throws makes it failed, and a
call out of turn throws and changes nothing. -/
theorem run_performs_once (tests : Nat → Test) :
    (∀ (s : Session) (test : Nat) (resultsSoFar : Json),
      (s.isPerformed test = true ∨ ∃ dep ∈ (tests test).dependencies, s.isPerformed dep = false) →
        ∃ what, run tests test resultsSoFar s = (.error (.runtimeError what), s)) ∧
    ∀ calls : List (Nat × Json), Ordered tests calls → ∃ s, runAll tests calls {} = (.ok (), s) ∧
      (∀ call ∈ calls, Judged tests s call) ∧
      (∀ test, s.isPerformed test = true ↔ test ∈ calls.map (·.1)) ∧
      ∀ before call rest, calls = before ++ call :: rest → ∃ t u, runAll tests before {} = (.ok (), t) ∧
        t.isPerformed call.1 = false ∧ run tests call.1 call.2 t = (.ok (), u) ∧
        u.isPerformed call.1 = true ∧ s.result call.1 = u.result call.1 := by
  refine ⟨fun s test resultsSoFar refused => run_refuses tests refused resultsSoFar, ?_⟩
  intro calls ordered
  obtain ⟨s, ran, inv⟩ := runAll_inv calls (empty_inv tests) ordered
  rw [List.nil_append] at inv
  refine ⟨s, ran, inv.judged, inv.performed, ?_⟩
  intro before call rest split
  rw [split] at ordered ran
  have once : (before.map (·.1) ++ call.1 :: rest.map (·.1)).Nodup := by
    have distinct := ordered.once
    rwa [List.map_append, List.map_cons] at distinct
  have prior : Ordered tests ([] ++ before) := by
    refine ⟨(List.nodup_append.mp once).1, ?_⟩
    intro earlier other later inside dep member
    refine ordered.after earlier other (later ++ call :: rest) ?_ dep member
    rw [show before = earlier ++ other :: later from inside, List.append_assoc, List.cons_append]
  obtain ⟨t, first, reached⟩ := runAll_inv before (empty_inv tests) prior
  rw [List.nil_append] at reached
  have new : call.1 ∉ before.map (·.1) := fun member =>
    (List.nodup_append.mp once).2.2 _ member _ List.mem_cons_self rfl
  have fresh : t.isPerformed call.1 = false := by
    rw [← Bool.not_eq_true, reached.performed]
    exact new
  obtain ⟨u, step, next⟩ := run_inv reached new (ordered.after before call rest rfl)
  have performed : u.isPerformed call.1 = true := (next.performed call.1).mpr (by simp)
  refine ⟨t, u, first, fresh, step, performed, ?_⟩
  rw [runAll_append before (call :: rest) first, runAll, step] at ran
  have kept : (runAll tests rest u).2.result call.1 = u.result call.1 := runAll_keeps performed rest
  rwa [show runAll tests rest u = (.ok (), s) from ran] at kept

/-- The first test passes, the second cannot read its file, and the third waits for the second. -/
theorem run_performs_once_three :
    let tests : Nat → Test := fun test =>
      ⟨"Json file read", "dat.json", "", if test = 0 then [] else [test - 1],
        fun _ => if test = 0 then .returned { status := .passed } else .exception "parse error"⟩
    ∃ s, runAll tests [(0, .null), (1, .null), (2, .null)] {} = (.ok (), s) ∧
      (∀ call ∈ [(0, Json.null), (1, .null), (2, .null)], Judged tests s call) ∧ s.invoked = [0, 1] ∧
      [0, 1, 2].map (fun test => (s.result test).map (·.status)) = [some .passed, some .failed, some .skipped] := by
  intro tests
  have ordered : Ordered tests [(0, .null), (1, .null), (2, .null)] := by
    refine ⟨by decide, ?_⟩
    intro before call rest split dep member
    match before, split with
    | [], split =>
      obtain ⟨rfl, -⟩ := List.cons.inj split
      cases member
    | [first], split =>
      obtain ⟨rfl, same⟩ := List.cons.inj split
      obtain ⟨rfl, -⟩ := List.cons.inj same
      exact member
    | [first, second], split =>
      obtain ⟨rfl, later⟩ := List.cons.inj (List.cons.inj split).2
      obtain ⟨rfl, -⟩ := List.cons.inj later
      exact List.mem_cons_of_mem _ member
    | first :: second :: third :: more, split =>
      obtain ⟨-, same⟩ := List.cons.inj (List.cons.inj split).2
      exact absurd (List.cons.inj same).2 (by simp)
  obtain ⟨s, ran, judged, -⟩ := (run_performs_once tests).2 _ ordered
  obtain rfl : (runAll tests [(0, .null), (1, .null), (2, .null)] {}).2 = s := by rw [ran]
  exact ⟨_, ran, judged, by decide, by decide⟩

end

end MonitorEventing.Diagnostics
