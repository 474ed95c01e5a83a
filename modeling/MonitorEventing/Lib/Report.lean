import Mathlib.Data.List.Basic

/-!
# Checks that report problems

A check is handed the problems found so far, adds its own and says whether it accepts. It reports if it
adds them at the end and accepts exactly when there are none. Checks are combined by running all of
them, or by trying alternatives that each start without problems.
-/

namespace Report

variable {ε π α : Type}

abbrev Check (ε π : Type) : Type := List π → Except ε (Bool × List π)

def accept : Check ε π := fun problems => .ok (true, problems)

def single (condition : Bool) (problem : π) : Check ε π := fun problems =>
  .ok (condition, if condition then problems else problems ++ [problem])

def all : List (Check ε π) → Check ε π
  | [], problems => .ok (true, problems)
  | check :: rest, problems => do
    let (testResult, problems) ← check problems
    let (result, problems) ← all rest problems
    pure (testResult && result, problems)

/-- Whether some alternative accepts, and what was found by each up to there. -/
def trial : List (Check ε π) → Except ε (Bool × List (List π))
  | [] => .ok (false, [])
  | check :: rest => do
    let (matched, found) ← check []
    if matched then pure (true, [found])
    else do
      let (matched, others) ← trial rest
      pure (matched, found :: others)

/-- One of the alternatives. If none accepts there is the problem `head`, and what each found, marked with
its number. -/
def any (head : π) (mark : Nat → π → π) (checks : List (Check ε π)) : Check ε π := fun problems => do
  let (matched, found) ← trial checks
  if matched then pure (true, problems)
  else pure (false, problems ++ head :: found.zipIdx.flatMap fun (found, i) => found.map (mark i))

/-! ### What reports -/

/-- The check adds problems, each of which has the property, and accepts if there are none. -/
def Reports (P : π → Prop) (check : Check ε π) : Prop :=
  ∃ found, (∀ problems, check problems = .ok (found.isEmpty, problems ++ found)) ∧ ∀ problem ∈ found, P problem

def Accepts (check : Check ε π) : Prop := ∃ found, check [] = .ok (true, found)

variable {P : π → Prop}

theorem reports_accept : Reports P (accept : Check ε π) := by
  refine ⟨[], fun problems => ?_, fun problem member => ?_⟩
  · simp [accept]
  · cases member

theorem reports_single (condition : Bool) {problem : π} (holds : P problem) :
    Reports P (single condition problem : Check ε π) := by
  cases condition with
  | true => exact reports_accept
  | false => exact ⟨[problem], fun problems => rfl, by simpa using holds⟩

theorem reports_all {checks : List (Check ε π)} (reports : ∀ check ∈ checks, Reports P check) :
    Reports P (all checks) := by
  induction checks with
  | nil => exact reports_accept
  | cons check rest ih =>
    obtain ⟨first, runFirst, firstHolds⟩ := reports check List.mem_cons_self
    obtain ⟨others, runOthers, othersHold⟩ := ih fun other member => reports other (List.mem_cons_of_mem _ member)
    refine ⟨first ++ others, fun problems => ?_, fun problem member => ?_⟩
    · simp only [all, runFirst, runOthers, bind, Except.bind, pure, Except.pure]
      rw [List.append_assoc]
      cases first <;> rfl
    · rcases List.mem_append.mp member with early | late
      · exact firstHolds problem early
      · exact othersHold problem late

/-- Alternatives that report accept by finding nothing, so one that accepts is the last one tried. -/
theorem trial_spec {checks : List (Check ε π)} (reports : ∀ check ∈ checks, Reports P check) :
    ∃ matched found, trial checks = .ok (matched, found) ∧ (matched = true ↔ ∃ check ∈ checks, Accepts check) ∧
      ∀ problems ∈ found, ∀ problem ∈ problems, P problem := by
  induction checks with
  | nil => exact ⟨false, [], rfl, by simp, by simp⟩
  | cons check rest ih =>
    obtain ⟨first, runFirst, firstHolds⟩ := reports check List.mem_cons_self
    have started : check [] = .ok (first.isEmpty, first) := runFirst []
    by_cases nothing : first.isEmpty = true
    · have accepts : Accepts check := ⟨first, by rw [started, nothing]⟩
      refine ⟨true, [first], ?_, ?_, ?_⟩
      · simp [trial, started, nothing, bind, Except.bind, pure, Except.pure]
      · simpa using Or.inl accepts
      · simpa using firstHolds
    · obtain ⟨matched, others, tried, isMatched, othersHold⟩ :=
        ih fun other member => reports other (List.mem_cons_of_mem _ member)
      have rejects : ¬ Accepts check := by
        rintro ⟨found, accepted⟩
        rw [started] at accepted
        exact nothing (Prod.mk.inj (Except.ok.inj accepted)).1
      refine ⟨matched, first :: others, ?_, ?_, ?_⟩
      · simp [trial, started, nothing, tried, bind, Except.bind, pure, Except.pure]
      · simp [isMatched, rejects]
      · intro problems member
        rcases List.mem_cons.mp member with rfl | later
        · exact firstHolds
        · exact othersHold problems later

theorem reports_any {checks : List (Check ε π)} {head : π} {mark : Nat → π → π}
    (reports : ∀ check ∈ checks, Reports P check) (headHolds : P head) (marked : ∀ i problem, P problem → P (mark i problem)) :
    Reports P (any head mark checks) := by
  obtain ⟨matched, found, tried, _, hold⟩ := trial_spec reports
  cases matched with
  | true =>
    refine ⟨[], fun problems => ?_, by simp⟩
    simp [any, tried, bind, Except.bind, pure, Except.pure]
  | false =>
    refine ⟨head :: found.zipIdx.flatMap fun (found, i) => found.map (mark i), fun problems => ?_, fun problem member => ?_⟩
    · simp [any, tried, bind, Except.bind, pure, Except.pure]
    · rcases List.mem_cons.mp member with rfl | inner
      · exact headHolds
      obtain ⟨⟨problems, i⟩, numbered, inside⟩ := List.mem_flatMap.mp inner
      obtain ⟨unmarked, listed, rfl⟩ := List.mem_map.mp inside
      exact marked i unmarked (hold problems (List.fst_mem_of_mem_zipIdx numbered) unmarked listed)

theorem any_of_accepts {checks : List (Check ε π)} {head : π} {mark : Nat → π → π}
    (reports : ∀ check ∈ checks, Reports P check) (some : ∃ check ∈ checks, Accepts check) :
    any head mark checks = accept := by
  obtain ⟨matched, found, tried, isMatched, _⟩ := trial_spec reports
  funext problems
  simp [any, accept, tried, isMatched.mpr some, bind, Except.bind, pure, Except.pure]

/-! ### What accepts -/

/-- After some problems the check accepts. -/
def Passes (check : Check ε π) : Prop := ∃ problems problems', check problems = .ok (true, problems')

theorem passes_single {condition : Bool} {problem : π} (passes : Passes (single condition problem : Check ε π)) :
    condition = true := by
  obtain ⟨_, _, run⟩ := passes
  exact (Prod.mk.inj (Except.ok.inj run)).1

theorem passes_all {checks : List (Check ε π)} (passes : Passes (all checks)) : ∀ check ∈ checks, Passes check := by
  obtain ⟨problems, problems', run⟩ := passes
  induction checks generalizing problems with
  | nil => simp
  | cons check rest ih =>
    rw [all] at run
    cases first : check problems with
    | error e =>
      rw [first] at run
      cases run
    | ok result =>
      obtain ⟨testResult, middle⟩ := result
      cases others : all rest middle with
      | error e =>
        simp only [first, others, bind, Except.bind] at run
        cases run
      | ok result =>
        obtain ⟨restResult, last⟩ := result
        simp only [first, others, bind, Except.bind, pure, Except.pure, Except.ok.injEq, Prod.mk.injEq,
          Bool.and_eq_true] at run
        obtain ⟨⟨rfl, rfl⟩, rfl⟩ := run
        intro other member
        rcases List.mem_cons.mp member with rfl | later
        · exact ⟨problems, middle, first⟩
        · exact ih middle others other later

theorem passes_trial {checks : List (Check ε π)} {found : List (List π)} (tried : trial checks = .ok (true, found)) :
    ∃ check ∈ checks, Passes check := by
  induction checks generalizing found with
  | nil => cases tried
  | cons check rest ih =>
    rw [trial] at tried
    cases first : check [] with
    | error e =>
      rw [first] at tried
      cases tried
    | ok result =>
      obtain ⟨testResult, problems⟩ := result
      cases testResult with
      | true => exact ⟨check, List.mem_cons_self, [], problems, first⟩
      | false =>
        cases others : trial rest with
        | error e =>
          simp only [first, others, bind, Except.bind, Bool.false_eq_true, if_false] at tried
          cases tried
        | ok result =>
          obtain ⟨matched, more⟩ := result
          simp only [first, others, bind, Except.bind, pure, Except.pure, Bool.false_eq_true, if_false,
            Except.ok.injEq, Prod.mk.injEq] at tried
          obtain ⟨rfl, _⟩ := tried
          obtain ⟨other, member, passes⟩ := ih others
          exact ⟨other, List.mem_cons_of_mem _ member, passes⟩

theorem passes_any {checks : List (Check ε π)} {head : π} {mark : Nat → π → π}
    (passes : Passes (any head mark checks)) : ∃ check ∈ checks, Passes check := by
  obtain ⟨problems, problems', run⟩ := passes
  unfold any at run
  cases tried : trial checks with
  | error e =>
    rw [tried] at run
    cases run
  | ok result =>
    obtain ⟨matched, found⟩ := result
    cases matched with
    | true => exact passes_trial tried
    | false =>
      rw [tried] at run
      cases run

end Report
