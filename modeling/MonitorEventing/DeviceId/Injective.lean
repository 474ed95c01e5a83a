import MonitorEventing.DeviceId.Values
import MonitorEventing.Lib.Distinct

/-!
# Injective patterns

`isInjective` compares how many tuples the domain has with how many values they have, both counted by
sets. The set of tuples is ordered by `operator<`, which has to be a strict order that tells all tuples
apart for the count to be right.
-/

namespace MonitorEventing.DeviceId

namespace PatternIndex

theorem lt_trans {a b c : PatternIndex} (first : a < b) (second : b < c) : a < c := by
  rw [lt_iff_toLex] at first second ⊢
  exact first.trans second

/-- Two tuples neither of which is less are equal: there is no first position where they differ. -/
theorem eq_of_not_lt {a b : PatternIndex} (notLess : ¬ a < b) (notGreater : ¬ b < a) : a = b := by
  rw [lt_iff_toLex] at notLess notGreater
  rcases lt_trichotomy (toLex a.get) (toLex b.get) with less | same | greater
  · exact absurd less notLess
  · exact ext fun i => congrFun (toLex_inj.mp same) i
  · exact absurd greater notGreater

/-- How `std::set` compares, by `operator<` alone. -/
def compare (a b : PatternIndex) : Ordering := if a < b then .lt else if b < a then .gt else .eq

theorem compare_eq_lt_iff {a b : PatternIndex} : compare a b = .lt ↔ a < b := by
  unfold compare
  split_ifs with less greater
  · simp [less]
  · simp [less]
  · simp [less]

instance : Std.TransCmp compare where
  eq_swap {a b} := by
    unfold compare
    by_cases less : a < b
    · have notGreater : ¬ b < a := fun greater => lt_irrefl a (lt_trans less greater)
      simp [less, notGreater]
    · by_cases greater : b < a
      · simp [less, greater]
      · simp [less, greater]
  isLE_trans {a b c} first second := by
    have le_iff : ∀ {x y : PatternIndex}, (compare x y).isLE ↔ ¬ y < x := by
      intro x y
      unfold compare
      by_cases less : x < y
      · have notGreater : ¬ y < x := fun greater => lt_irrefl x (lt_trans less greater)
        simp [less, notGreater]
      · by_cases greater : y < x
        · simp [less, greater]
        · simp [less, greater]
    rw [le_iff] at first second ⊢
    intro less
    by_cases greater : b < a
    · exact first greater
    · have same : a = b := eq_of_not_lt (fun h => second (lt_trans less h)) greater
      exact second (same ▸ less)

instance : Std.LawfulEqCmp compare where
  eq_of_compare {a b} same := by
    unfold compare at same
    split_ifs at same with less greater
    exact eq_of_not_lt less greater

end PatternIndex

namespace DeviceIdPattern

/-- `isInjective`. The strings are compared character by character, which is the order of their bytes. -/
def isInjective (p : DeviceIdPattern) : Except Exn Bool := do
  let d := p.domain
  let v ← p.values
  pure ((Std.TreeSet.ofList d PatternIndex.compare).size == (Std.TreeSet.ofList v).size)

theorem size_domain {p : DeviceIdPattern} (increasing : p.domain.Pairwise (· < ·)) :
    (Std.TreeSet.ofList p.domain PatternIndex.compare).size = p.domain.length := by
  refine Std.TreeSet.size_ofList (increasing.imp fun less same => ?_)
  rw [PatternIndex.compare_eq_lt_iff.mpr less] at same
  cases same

theorem domain_nodup {p : DeviceIdPattern} (increasing : p.domain.Pairwise (· < ·)) : p.domain.Nodup := by
  refine increasing.imp fun less same => ?_
  rw [same] at less
  exact PatternIndex.lt_irrefl _ less

/-- No string has two arguments, exactly if no two tuples have one value. -/
theorem matchArgs_unique_iff {p : DeviceIdPattern} (distinct : p.domain.Nodup) :
    (∀ str, ∃ args, p.matchArgs str = .ok args ∧ args.length ≤ 1) ↔
      ∀ x ∈ p.domain, ∀ y ∈ p.domain, p.eval x = p.eval y → x = y := by
  have found : ∀ str, (∃ args, p.matchArgs str = .ok args ∧ args.length ≤ 1) ↔
      ∀ x ∈ p.domain, p.eval x = .ok str → ∀ y ∈ p.domain, p.eval y = .ok str → x = y := by
    intro str
    simp only [matchArgs_eq, Except.ok.injEq, exists_eq_left']
    rw [← List.toFinset_card_of_nodup (distinct.filter _), Finset.card_le_one]
    simp
  simp only [found]
  refine ⟨fun unique x hx y hy same => ?_, fun unique str x hx value y hy value' => ?_⟩
  · obtain ⟨text, evaluated⟩ := evaluated_domain p
    exact unique (text x) x hx (evaluated x hx) y hy (same ▸ evaluated x hx)
  · exact unique x hx y hy (value.trans value'.symm)

/-- `isInjective` tells whether the tuples of the domain have different values, and so whether every
string matches at most one of them. -/
theorem isInjective_iff (p : DeviceIdPattern)
    (small : (p.patternInputDomains.map PatternInputDomain.size).prod < 2 ^ 32) :
    ∃ b, p.isInjective = .ok b ∧
      (b = true ↔ ∀ x ∈ p.domain, ∀ y ∈ p.domain, x ≠ y → p.eval x ≠ p.eval y) ∧
      (b = true ↔ ∀ str, ∃ args, p.matchArgs str = .ok args ∧ args.length ≤ 1) := by
  have increasing := domain_increasing small
  have distinct := domain_nodup increasing
  obtain ⟨text, evaluated⟩ := evaluated_domain p
  refine ⟨_, bind_ok_iff.mpr ⟨_, mapM_ok evaluated, rfl⟩, ?_⟩
  have counted : ((Std.TreeSet.ofList p.domain PatternIndex.compare).size ==
      (Std.TreeSet.ofList (p.domain.map text)).size) = true ↔
      ∀ x ∈ p.domain, ∀ y ∈ p.domain, p.eval x = p.eval y → x = y := by
    have length : p.domain.length = (p.domain.map text).length := (List.length_map text).symm
    rw [beq_iff_eq, size_domain increasing, length, eq_comm, Distinct.size_ofList_iff,
      List.nodup_map_iff_inj_on distinct]
    refine forall₂_congr fun x hx => forall₂_congr fun y hy => ?_
    rw [evaluated x hx, evaluated y hy, Except.ok.injEq]
  refine ⟨counted.trans ?_, counted.trans (matchArgs_unique_iff distinct).symm⟩
  simp only [ne_eq, not_imp_not]

/-- Each bracket alone is injective, but 1 and 11 read the same as 11 and 1. -/
theorem isInjective_iff_adjacent : ∃ p, ofString "GPU_[1-11][1-11]" = .ok p ∧ p.isInjective = .ok false := by
  have facts : (ofString "GPU_[1-11][1-11]").map (fun p =>
      (p.patternInputDomains.map PatternInputDomain.size, p.eval (.ofList [1, 11]), p.eval (.ofList [11, 1]),
        decide (PatternIndex.ofList [1, 11] ∈ p.domain ∧ PatternIndex.ofList [11, 1] ∈ p.domain))) =
        .ok ([11, 11], .ok "GPU_111", .ok "GPU_111", true) := by decide +kernel
  obtain ⟨p, built, facts⟩ := map_ok facts
  simp only [Prod.mk.injEq, decide_eq_true_eq] at facts
  obtain ⟨sizes, first, second, inside, inside'⟩ := facts
  obtain ⟨b, result, injective, _⟩ := isInjective_iff p (by rw [sizes]; decide)
  refine ⟨p, built, ?_⟩
  cases b with
  | false => exact result
  | true => exact absurd (first.trans second.symm) (injective.mp rfl _ inside _ inside' (by decide))

end DeviceIdPattern

end MonitorEventing.DeviceId
