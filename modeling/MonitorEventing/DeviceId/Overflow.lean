import MonitorEventing.DeviceId.Evaluation

/-!
# Domains that are too large

The size of a domain is an `unsigned` product, and the end of the enumeration. From 2^32 tuples on it
wraps around: the enumeration ends early, and `match` does not find what evaluation gives.
-/

namespace MonitorEventing.DeviceId.DeviceIdPattern
open CartesianProductRange

/-- The tuple without what evaluation ignores: nothing at the positions no bracket reads. -/
def trim (p : DeviceIdPattern) (x : PatternIndex) : PatternIndex :=
  .ofList ((List.range p.dim).map fun i => if p.IsBound i then x.get i else PatternIndex.unspecified)

theorem get_trim (p : DeviceIdPattern) (x : PatternIndex) (i : Nat) :
    (p.trim x).get i = if i < p.dim ∧ p.IsBound i then x.get i else PatternIndex.unspecified := by
  rw [trim, PatternIndex.get_ofList, List.getD_eq_getElem?_getD, List.getElem?_map]
  by_cases inside : i < p.dim
  · rw [List.getElem?_range inside]
    by_cases bound : p.IsBound i
    · simp [inside, bound, PatternIndex.clip_get]
    · simp [bound]
      rfl
  · rw [List.getElem?_eq_none (by simpa using inside), if_neg (fun both => inside both.1)]
    rfl

theorem trim_inDomain {p : DeviceIdPattern} {x : PatternIndex} (accepted : p.Accepts x) : p.InDomain (p.trim x) := by
  refine ⟨PatternIndex.dim_le_iff.mpr fun i beyond => ?_, fun i inside => ?_⟩
  · rw [get_trim, if_neg (by omega)]
  · rw [allows_dimDomain inside, get_trim]
    refine ⟨fun bound => ?_, fun free => if_neg fun both => free both.2⟩
    rw [if_pos ⟨inside, bound⟩]
    exact accepts_iff.mp accepted i inside bound

theorem eval_trim {p : DeviceIdPattern} {x : PatternIndex} {v : String} (h : p.eval x = .ok v) :
    p.eval (p.trim x) = .ok v := by
  apply eval_congr h
  intro i bound
  rw [get_trim, if_pos ⟨p.consistent.positions i bound, bound⟩]

/-- A domain that is too large always loses a tuple. -/
theorem exists_dropped {p : DeviceIdPattern} (large : 2 ^ 32 ≤ (sizes p.patternInputDomains).prod) :
    ∃ x v, p.InDomain x ∧ p.eval x = .ok v ∧ x ∉ p.domain := by
  have wrapped : size p.patternInputDomains < 2 ^ 32 := by
    rw [size_eq]
    exact Nat.mod_lt _ (by decide)
  have below := wrapped.trans_le large
  have inDomain : p.InDomain (deref p.patternInputDomains (size p.patternInputDomains)) := deref_allows below
  obtain ⟨v, evaluated⟩ := eval_ok_iff.mpr inDomain.accepts
  refine ⟨_, v, inDomain, evaluated, fun member => ?_⟩
  obtain ⟨k, listed, same⟩ := List.mem_map.mp member
  have less := deref_lt (fun i inside => (isInputDomain inside).strict) (List.mem_range.mp listed) below
  rw [same] at less
  exact PatternIndex.lt_irrefl _ less

/-- The size is the number of tuples, and every tuple that evaluates is enumerated and matched by its
value, exactly for the patterns with fewer than 2^32 tuples. -/
theorem size_exact_iff (p : DeviceIdPattern) :
    (size p.patternInputDomains = (p.patternInputDomains.map PatternInputDomain.size).prod ∧
      ∀ x v, p.eval x = .ok v → p.trim x ∈ p.domain ∧ ∃ args, p.matchArgs v = .ok args ∧ p.trim x ∈ args) ↔
      (p.patternInputDomains.map PatternInputDomain.size).prod < 2 ^ 32 := by
  constructor
  · intro exact_
    rw [← exact_.1, size_eq]
    exact Nat.mod_lt _ (by decide)
  · intro small
    refine ⟨?_, fun x v evaluated => ?_⟩
    · rw [size_eq]
      exact Nat.mod_eq_of_lt small
    · have member : p.trim x ∈ p.domain := (mem_domain small).mpr (trim_inDomain (eval_ok_iff.mp ⟨v, evaluated⟩))
      refine ⟨member, _, matchArgs_eq p v, List.mem_filter.mpr ⟨member, ?_⟩⟩
      exact decide_eq_true (eval_trim evaluated)

/-- Eight brackets of sixteen numbers: the size is 0, and the value at the first tuple has no match. -/
theorem size_wraps : ∃ p, ofString "[0-15][0-15][0-15][0-15][0-15][0-15][0-15][0-15]" = .ok p ∧
    (p.patternInputDomains.map PatternInputDomain.size).prod = 2 ^ 32 ∧ size p.patternInputDomains = 0 ∧
    p.eval (.ofList [0, 0, 0, 0, 0, 0, 0, 0]) = .ok "00000000" ∧ p.matchArgs "00000000" = .ok [] := by
  have facts : (ofString "[0-15][0-15][0-15][0-15][0-15][0-15][0-15][0-15]").map (fun p =>
      (p.patternInputDomains.map PatternInputDomain.size, p.eval (.ofList [0, 0, 0, 0, 0, 0, 0, 0]))) =
        .ok (List.replicate 8 16, .ok "00000000") := by decide +kernel
  obtain ⟨p, built, facts⟩ := map_ok facts
  obtain ⟨sizes, value⟩ := Prod.mk.inj facts
  have empty : size p.patternInputDomains = 0 := by
    rw [size_eq, CartesianProductRange.sizes, sizes]
    rfl
  refine ⟨p, built, by rw [sizes]; rfl, empty, value, ?_⟩
  rw [matchArgs, domain, elements, empty]
  rfl

end MonitorEventing.DeviceId.DeviceIdPattern
