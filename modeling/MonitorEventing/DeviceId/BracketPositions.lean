import MonitorEventing.DeviceId.InputDomain

/-!
# Brackets by input position

`calcInputIndexToBracketPoss` as the code counts, with positions that are `unsigned`. The lists of brackets
it makes are told apart by position, and the domains calculated from them are the keys that the mappings of
the brackets have in common.
-/

namespace MonitorEventing.DeviceId.BracketPositions

/-- `result[pos].push_back(i)`. -/
def pushBack (result : List (List Nat)) (pos i : Nat) : Except Exn (List (List Nat)) :=
  if pos < result.length then .ok (result.modify pos (· ++ [i])) else .error .undefined

/-- `calcInputIndexToBracketPoss`. -/
def calcInputIndexToBracketPoss (bracketPosToInputPos : List UInt32) : Except Exn (List (List Nat)) :=
  let positions := bracketPosToInputPos.map UInt32.toNat
  match positions.max? with
  | some largest =>
    -- The counter of the loop wraps before it gets to a size that it cannot hold.
    if positions.length < 2 ^ 32 then
      positions.zipIdx.foldlM (fun result entry => pushBack result entry.1 entry.2)
        (List.replicate ((largest + 1) % 2 ^ 32) [])
    else .error .undefined
  | none => pure []

/-! ### The lists of brackets -/

theorem foldl_modify (entries : List (Nat × Nat)) (result : List (List Nat)) (p : Nat) :
    (entries.foldl (fun result entry => result.modify entry.1 (· ++ [entry.2])) result)[p]? =
      result[p]?.map (· ++ (entries.filter (·.1 == p)).map (·.2)) := by
  induction entries generalizing result with
  | nil => simp
  | cons entry entries ih =>
    rw [List.foldl_cons, ih, List.getElem?_modify]
    by_cases here : entry.1 = p
    · simp [here, Option.map_map, Function.comp_def]
    · simp [here]

theorem foldlM_pushBack {entries : List (Nat × Nat)} {result : List (List Nat)}
    (inside : ∀ entry ∈ entries, entry.1 < result.length) :
    entries.foldlM (fun result entry => pushBack result entry.1 entry.2) result =
      .ok (entries.foldl (fun result entry => result.modify entry.1 (· ++ [entry.2])) result) := by
  induction entries generalizing result with
  | nil => rfl
  | cons entry entries ih =>
    obtain ⟨here, later⟩ := List.forall_mem_cons.mp inside
    rw [List.foldlM_cons, List.foldl_cons, pushBack, if_pos here]
    exact ih (by simpa only [List.length_modify] using later)

/-- Fewer than 2^32 brackets, none of them at the last position there is. -/
def Fits (bracketPosToInputPos : List UInt32) : Prop :=
  bracketPosToInputPos.length < 2 ^ 32 ∧ ∀ pos ∈ bracketPosToInputPos, pos ≠ 4294967295

variable {v : List UInt32}

theorem foldl_modify_bracketsByInput {positions : List Nat} {largest : Nat} (found : positions.max? = some largest) :
    positions.zipIdx.foldl (fun result entry => result.modify entry.1 (· ++ [entry.2]))
      (List.replicate (largest + 1) []) = bracketsByInput positions := by
  refine List.ext_getElem? fun p => ?_
  rw [foldl_modify, List.getElem?_replicate, bracketsByInput, inputCount, found, List.getElem?_map]
  rcases Nat.lt_or_ge p (largest + 1) with inside | beyond
  · simp [inside, bracketsAt]
  · simp [Nat.not_lt.mpr beyond]

theorem calc_fits (fits : Fits v) : calcInputIndexToBracketPoss v = .ok (bracketsByInput (v.map UInt32.toNat)) := by
  unfold calcInputIndexToBracketPoss
  dsimp only
  cases found : (v.map UInt32.toNat).max? with
  | none =>
    rw [bracketsByInput, inputCount, found]
    rfl
  | some largest =>
    obtain ⟨pos, member, rfl⟩ := List.mem_map.mp (List.max?_mem found)
    have bounded := pos.toNat_lt
    have other : pos.toNat ≠ 4294967295 := fun same => fits.2 pos member (UInt32.toNat_inj.mp same)
    dsimp only
    rw [if_pos (by simpa using fits.1), Nat.mod_eq_of_lt (by omega), ← foldl_modify_bracketsByInput found]
    apply foldlM_pushBack
    intro entry listed
    rw [List.length_replicate]
    have inside := List.fst_mem_of_mem_zipIdx listed
    exact Nat.lt_succ_of_le ((List.max?_le_iff found).mp le_rfl _ inside)

/-- The largest position, which is also the number of lists but one. -/
theorem exists_largest (some : v ≠ []) : ∃ largest ∈ v, (∀ pos ∈ v, pos ≤ largest) ∧
    (v.map UInt32.toNat).max? = .some largest.toNat := by
  cases found : (v.map UInt32.toNat).max? with
  | none => exact absurd (List.map_eq_nil_iff.mp (List.max?_eq_none_iff.mp found)) some
  | some n =>
    obtain ⟨largest, member, rfl⟩ := List.mem_map.mp (List.max?_mem found)
    refine ⟨largest, member, fun pos other => ?_, rfl⟩
    exact UInt32.le_iff_toNat_le.mpr ((List.max?_le_iff found).mp le_rfl _ (List.mem_map_of_mem other))

theorem calc_wraps (some : v ≠ []) (unfit : ¬ Fits v) : calcInputIndexToBracketPoss v = .error .undefined := by
  obtain ⟨largest, _, bound, found⟩ := exists_largest some
  unfold calcInputIndexToBracketPoss
  simp only [found, List.length_map]
  by_cases short : v.length < 2 ^ 32
  · -- some bracket is at the last position, so there are no lists at all
    have last : largest = 4294967295 := by
      by_contra other
      refine unfit ⟨short, fun pos member same => other ?_⟩
      have above := UInt32.le_iff_toNat_le.mp (bound pos member)
      have bounded := largest.toNat_lt
      rw [same] at above
      apply UInt32.toNat_inj.mp
      exact le_antisymm (Nat.le_of_lt_succ bounded) above
    obtain ⟨first, rest, rfl⟩ := List.exists_cons_of_ne_nil some
    rw [if_pos short, last, List.map_cons, List.zipIdx_cons, List.foldlM_cons]
    rfl
  · rw [if_neg short]

/-- The lists tell the brackets apart by position, up to the largest position. -/
structure IsPartition (v : List UInt32) (result : List (List Nat)) : Prop where
  length : ∃ largest ∈ v, (∀ pos ∈ v, pos ≤ largest) ∧ result.length = largest.toNat + 1
  listed : ∀ i b : Nat, (∃ row, result[i]? = some row ∧ b ∈ row) ↔ ∃ pos, v[b]? = some pos ∧ pos.toNat = i
  ascending : ∀ row ∈ result, row.Pairwise (· < ·)

theorem mem_bracketsAt_iff {i b : Nat} :
    b ∈ bracketsAt (v.map UInt32.toNat) i ↔ ∃ pos, v[b]? = some pos ∧ pos.toNat = i := by
  rw [mem_bracketsAt, List.getElem?_map, Option.map_eq_some_iff]

theorem isPartition_calc (some : v ≠ []) :
    IsPartition v (bracketsByInput (v.map UInt32.toNat)) := by
  refine ⟨?_, fun i b => ?_, fun row listed => ?_⟩
  · obtain ⟨largest, member, bound, found⟩ := exists_largest some
    refine ⟨largest, member, bound, ?_⟩
    rw [bracketsByInput, List.length_map, List.length_range, inputCount, found]
  · rw [← mem_bracketsAt_iff]
    constructor
    · intro found
      obtain ⟨row, read, member⟩ := found
      obtain ⟨_, rfl⟩ := getElem?_bracketsByInput.mp read
      exact member
    · intro member
      have position := List.mem_of_getElem? (mem_bracketsAt.mp member)
      exact ⟨_, getElem?_bracketsByInput.mpr ⟨lt_inputCount position, rfl⟩, member⟩
  · obtain ⟨i, read⟩ := List.getElem?_of_mem listed
    obtain ⟨_, rfl⟩ := getElem?_bracketsByInput.mp read
    exact bracketsAt_ascending _ i

example : calcInputIndexToBracketPoss [0, 4, 0, 1, 1] = .ok [[0, 2], [3, 4], [], [], [1]] := by decide

/-! ### The domains -/

/-- The domain at a position: without restriction where no bracket is bound, and otherwise the keys in
the mappings of all the brackets that are. -/
structure IsIntersection (v : List UInt32) (bracketMappings : List BracketMap) (i : Nat) (d : PatternInputDomain) :
    Prop where
  unspecified : d.unspecified = true ↔ ∀ pos ∈ v, pos.toNat ≠ i
  ascending : d.domain.Pairwise (· < ·)
  keys : (∃ pos ∈ v, pos.toNat = i) → ∀ key, key ∈ d.domain ↔
    ∀ (b : Nat) (pos : UInt32), v[b]? = some pos → pos.toNat = i → ∃ m, bracketMappings[b]? = some m ∧ key ∈ m

theorem bracketsAt_ne_nil_iff {i : Nat} : bracketsAt (v.map UInt32.toNat) i ≠ [] ↔ ∃ pos ∈ v, pos.toNat = i := by
  constructor
  · intro some
    obtain ⟨b, member⟩ := List.exists_mem_of_ne_nil _ some
    obtain ⟨pos, read, same⟩ := mem_bracketsAt_iff.mp member
    exact ⟨pos, List.mem_of_getElem? read, same⟩
  · rintro ⟨pos, member, same⟩
    obtain ⟨b, read⟩ := List.getElem?_of_mem member
    exact List.ne_nil_of_mem (mem_bracketsAt_iff.mpr ⟨pos, read, same⟩)

theorem isIntersection_of_ok {i : Nat} {bracketMappings : List BracketMap} {d : PatternInputDomain}
    (run : calcInputDomain (bracketsAt (v.map UInt32.toNat) i) bracketMappings = .ok d) :
    IsIntersection v bracketMappings i d := by
  obtain ⟨free, ascending, keys⟩ := calcInputDomain_sound run
  refine ⟨?_, ascending, fun bound key => ?_⟩
  · rw [free, ← not_iff_not, ← ne_eq, bracketsAt_ne_nil_iff]
    simp only [ne_eq, not_forall, not_not, exists_prop]
  · rw [keys (bracketsAt_ne_nil_iff.mpr bound) key]
    simp only [mem_bracketsAt_iff]
    constructor
    · intro all b pos read same
      exact all b ⟨pos, read, same⟩
    · intro all b position
      obtain ⟨pos, read, same⟩ := position
      exact all b pos read same

theorem domains_of_ok {bracketMappings : List BracketMap} {domains : List PatternInputDomain}
    (run : calcInputDomains (bracketsByInput (v.map UInt32.toNat)) bracketMappings = .ok domains) :
    domains.length = (bracketsByInput (v.map UInt32.toNat)).length ∧
      ∀ (i : Nat) (d : PatternInputDomain), domains[i]? = some d → IsIntersection v bracketMappings i d := by
  have each := mapM_ok_iff.mp run
  refine ⟨each.length_eq.symm, fun i d read => ?_⟩
  obtain ⟨inside, rfl⟩ := List.getElem?_eq_some_iff.mp read
  have position := inside
  rw [← each.length_eq] at position
  obtain ⟨_, row⟩ := getElem?_bracketsByInput.mp (List.getElem?_eq_getElem position)
  have calculated := each.get position inside
  rw [List.get_eq_getElem, ← row] at calculated
  exact isIntersection_of_ok calculated

theorem exists_domains {bracketMappings : List BracketMap} (given : v.length ≤ bracketMappings.length) :
    ∃ domains, calcInputDomains (bracketsByInput (v.map UInt32.toNat)) bracketMappings =
      .ok domains := by
  refine exists_mapM_ok_iff.mpr fun row listed => ?_
  obtain ⟨i, read⟩ := List.getElem?_of_mem listed
  obtain ⟨_, rfl⟩ := getElem?_bracketsByInput.mp read
  obtain ⟨d, calculated, _⟩ := @calcInputDomain_ok (bracketsAt (v.map UInt32.toNat) i) bracketMappings fun b member => by
    obtain ⟨pos, position, _⟩ := mem_bracketsAt_iff.mp member
    exact (List.getElem?_eq_some_iff.mp position).1.trans_le given
  exact ⟨d, calculated⟩

/-- The brackets are told apart by position, and the domains are the common keys of those at one, exactly
where the positions and the brackets can be counted. -/
theorem partitions_iff (some : v ≠ []) :
    (∃ result, calcInputIndexToBracketPoss v = .ok result ∧ IsPartition v result ∧ ∀ bracketMappings : List BracketMap,
      (v.length ≤ bracketMappings.length → ∃ domains, calcInputDomains result bracketMappings = .ok domains) ∧
      ∀ domains, calcInputDomains result bracketMappings = .ok domains → domains.length = result.length ∧
        ∀ (i : Nat) (d : PatternInputDomain), domains[i]? = .some d → IsIntersection v bracketMappings i d) ↔
      Fits v := by
  constructor
  · intro found
    obtain ⟨result, ran, _⟩ := found
    by_contra unfit
    rw [calc_wraps some unfit] at ran
    cases ran
  · intro fits
    exact ⟨_, calc_fits fits, isPartition_calc some, fun bracketMappings => ⟨exists_domains, fun _ => domains_of_ok⟩⟩

/-- Positions with a gap, and two brackets that share one. -/
theorem partitions_gap : ∃ result, calcInputIndexToBracketPoss [0, 2, 0] = .ok result ∧
    IsPartition [0, 2, 0] result ∧ ∀ bracketMappings : List BracketMap,
      (3 ≤ bracketMappings.length → ∃ domains, calcInputDomains result bracketMappings = .ok domains) ∧
      ∀ domains, calcInputDomains result bracketMappings = .ok domains → domains.length = result.length ∧
        ∀ (i : Nat) (d : PatternInputDomain), domains[i]? = .some d → IsIntersection [0, 2, 0] bracketMappings i d :=
  (partitions_iff (by simp)).mpr ⟨by decide, by simp⟩

/-- One more than the last position is 0, so there is no list to put the bracket in. -/
theorem partitions_none : calcInputIndexToBracketPoss [4294967295] = .error .undefined ∧
    ¬ ∃ result, calcInputIndexToBracketPoss [4294967295] = .ok result ∧ IsPartition [4294967295] result := by
  have ran : calcInputIndexToBracketPoss [4294967295] = .error .undefined := by decide
  refine ⟨ran, ?_⟩
  rintro ⟨result, found, _⟩
  rw [ran] at found
  cases found

end MonitorEventing.DeviceId.BracketPositions
