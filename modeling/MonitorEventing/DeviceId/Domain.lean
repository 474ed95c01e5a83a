import MonitorEventing.DeviceId.Pattern
import MonitorEventing.Lib.MixedRadix

/-!
# The domain of a pattern

What the enumeration of a pattern's domain lists, and that evaluation, `values`, `match` and
`matches` agree with it. The iterator is a mixed radix counter over the sizes of the input domains,
so its order and its coverage come from the counter's.
-/

namespace MonitorEventing.DeviceId

namespace PatternInputDomain

def Allows (d : PatternInputDomain) (v : Int) : Prop :=
  if d.unspecified then v = PatternIndex.unspecified else ∃ n ∈ d.domain, v = n

theorem clip_get (d : PatternInputDomain) (k : Nat) : PatternIndex.clip (d.get k) = d.get k := by
  unfold get PatternIndex.clip PatternIndex.unspecified
  split <;> split <;> omega

theorem allows_iff (d : PatternInputDomain) (v : Int) : d.Allows v ↔ ∃ k < d.size, v = d.get k := by
  unfold Allows size get
  split
  · constructor
    · rintro rfl
      exact ⟨0, Nat.one_pos, rfl⟩
    · rintro ⟨_, _, rfl⟩
      rfl
  · constructor
    · rintro ⟨n, member, rfl⟩
      obtain ⟨k, inside, rfl⟩ := List.mem_iff_getElem.mp member
      exact ⟨k, inside, by rw [List.getD_eq_getElem _ _ inside]⟩
    · rintro ⟨k, inside, rfl⟩
      exact ⟨_, List.getElem_mem inside, by rw [List.getD_eq_getElem _ _ inside]⟩

theorem contains_of_allows {d : PatternInputDomain} {v : Int} (allowed : d.Allows v) : d.contains v = true := by
  unfold Allows at allowed
  unfold contains
  split at allowed
  · simp_all
  · obtain ⟨n, member, rfl⟩ := allowed
    simp [member]

theorem get_lt_get {d : PatternInputDomain} (strict : d.domain.Pairwise (· < ·)) {j k : Nat}
    (less : j < k) (inside : k < d.size) : d.get j < d.get k := by
  unfold size at inside
  unfold get
  split at inside
  · omega
  · rename_i specified
    rw [if_neg specified, if_neg specified, List.getD_eq_getElem _ _ inside,
      List.getD_eq_getElem _ _ (less.trans inside)]
    exact_mod_cast List.pairwise_iff_getElem.mp strict j k _ inside less

end PatternInputDomain

/-! ### The iterator -/

namespace CartesianProductRange

def sizes (ranges : List PatternInputDomain) : List Nat := ranges.map PatternInputDomain.size

theorem size_eq (ranges : List PatternInputDomain) : size ranges = (sizes ranges).prod % 2 ^ 32 := by
  have folded : ∀ (ranges : List PatternInputDomain) (start : Nat),
      ranges.foldl (fun result elem => result * elem.size % 2 ^ 32) (start % 2 ^ 32) =
        start * (sizes ranges).prod % 2 ^ 32 := by
    intro ranges
    induction ranges with
    | nil => intro start; simp [sizes]
    | cons elem ranges ih =>
      intro start
      rw [List.foldl_cons, Nat.mod_mul_mod, ih (start * elem.size), sizes, sizes, List.map_cons, List.prod_cons,
        Nat.mul_assoc]
  have whole := folded ranges 1
  rwa [Nat.one_mul, Nat.mod_eq_of_lt (by decide : 1 < 2 ^ 32)] at whole

theorem get_derefFrom {ranges : List PatternInputDomain} {i : Nat} (mi : Nat) (result : PatternIndex) (j : Nat)
    (bound : i ≤ ranges.length) :
    (derefFrom ranges i mi result).get j =
      if j < i then (ranges.getD j .any).get (MixedRadix.digit ((sizes ranges).take i) j mi)
      else result.get j := by
  induction i generalizing mi result with
  | zero => simp [derefFrom]
  | succ i ih =>
    have inside : i < ranges.length := bound
    have prefixLength : ((sizes ranges).take i).length = i := by simp [sizes, inside.le]
    have last : (sizes ranges).take (i + 1) = (sizes ranges).take i ++ [(ranges.getD i .any).size] := by
      rw [List.take_add_one]
      simp [sizes, List.getElem?_map, List.getElem?_eq_getElem inside]
    rw [derefFrom, ih _ _ inside.le, last]
    rcases Nat.lt_trichotomy j i with before | rfl | after
    · rw [if_pos before, if_pos (by omega), MixedRadix.digit_append_init _ _ (by omega)]
    · have digit := MixedRadix.digit_append_last ((sizes ranges).take j) (ranges.getD j .any).size mi
      rw [prefixLength] at digit
      rw [if_neg (lt_irrefl j), if_pos (Nat.lt_succ_self j), PatternIndex.get_set, if_pos rfl, digit,
        PatternInputDomain.clip_get]
    · rw [if_neg (by omega), if_neg (by omega), PatternIndex.get_set, if_neg (by omega)]

theorem get_deref (ranges : List PatternInputDomain) (masterIndex j : Nat) :
    (deref ranges masterIndex).get j =
      if j < ranges.length then (ranges.getD j .any).get (MixedRadix.digit (sizes ranges) j masterIndex)
      else PatternIndex.unspecified := by
  rw [deref, get_derefFrom _ _ _ le_rfl]
  have whole : (sizes ranges).take ranges.length = sizes ranges := List.take_of_length_le (by simp [sizes])
  rw [whole, PatternIndex.get_ofList]
  rfl

theorem sizes_get {ranges : List PatternInputDomain} {j : Nat} (inside : j < ranges.length) :
    (sizes ranges)[j]? = some (ranges.getD j .any).size := by
  simp [sizes, List.getElem?_eq_getElem inside]

theorem size_pos_of_prod {ranges : List PatternInputDomain} {j k : Nat} (inside : j < ranges.length)
    (below : k < (sizes ranges).prod) : 0 < (ranges.getD j .any).size := by
  refine Nat.pos_of_ne_zero fun zero => ?_
  have member : 0 ∈ sizes ranges := by
    rw [← zero]
    exact List.mem_of_getElem? (sizes_get inside)
  rw [List.prod_eq_zero member] at below
  exact absurd below (Nat.not_lt_zero k)

theorem deref_allows {ranges : List PatternInputDomain} {k : Nat} (below : k < (sizes ranges).prod) :
    (deref ranges k).dim ≤ ranges.length ∧ ∀ i < ranges.length, (ranges.getD i .any).Allows ((deref ranges k).get i) := by
  refine ⟨PatternIndex.dim_le_iff.mpr fun i hi => ?_, fun i inside => ?_⟩
  · rw [get_deref, if_neg (by omega)]
  · rw [get_deref, if_pos inside, PatternInputDomain.allows_iff]
    exact ⟨_, MixedRadix.digit_lt k (sizes_get inside) (size_pos_of_prod inside below), rfl⟩

theorem allows_of_mem_elements {ranges : List PatternInputDomain} {x : PatternIndex} (member : x ∈ elements ranges) :
    x.dim ≤ ranges.length ∧ ∀ i < ranges.length, (ranges.getD i .any).Allows (x.get i) := by
  obtain ⟨k, below, rfl⟩ := List.mem_map.mp member
  rw [List.mem_range, size_eq] at below
  exact deref_allows (below.trans_le (Nat.mod_le _ _))

theorem mem_elements {ranges : List PatternInputDomain} (small : (sizes ranges).prod < 2 ^ 32)
    {x : PatternIndex} :
    x ∈ elements ranges ↔
      x.dim ≤ ranges.length ∧ ∀ i < ranges.length, (ranges.getD i .any).Allows (x.get i) := by
  constructor
  · exact allows_of_mem_elements
  · rintro ⟨short, allowed⟩
    have indexes : ∀ i, ∃ k, i < ranges.length →
        k < (ranges.getD i .any).size ∧ x.get i = (ranges.getD i .any).get k := by
      intro i
      by_cases inside : i < ranges.length
      · obtain ⟨k, bound, same⟩ := (PatternInputDomain.allows_iff _ _).mp (allowed i inside)
        exact ⟨k, fun _ => ⟨bound, same⟩⟩
      · exact ⟨0, fun h => absurd h inside⟩
    choose f hf using indexes
    have bounded : ∀ i b, (sizes ranges)[i]? = some b → f i < b := by
      intro i b read
      have inside : i < ranges.length := by
        simpa [sizes] using (List.getElem?_eq_some_iff.mp read).1
      rw [sizes_get inside] at read
      exact Option.some.inj read ▸ (hf i inside).1
    obtain ⟨k, below, digits⟩ := MixedRadix.exists_digits f bounded
    have counted : k < size ranges := by rwa [size_eq, Nat.mod_eq_of_lt small]
    refine List.mem_map.mpr ⟨k, List.mem_range.mpr counted, PatternIndex.ext fun i => ?_⟩
    rw [get_deref]
    split
    · rename_i inside
      rw [digits i (by simpa [sizes] using inside)]
      exact (hf i inside).2.symm
    · rename_i beyond
      exact (PatternIndex.get_beyond (short.trans (Nat.le_of_not_lt beyond))).symm

theorem deref_lt {ranges : List PatternInputDomain} {i j : Nat}
    (strict : ∀ p < ranges.length, (ranges.getD p .any).domain.Pairwise (· < ·)) (less : i < j)
    (below : j < (sizes ranges).prod) : deref ranges i < deref ranges j := by
  obtain ⟨p, inside, agree, smaller⟩ := MixedRadix.digit_first_difference less below
  have inside : p < ranges.length := by simpa [sizes] using inside
  refine PatternIndex.lt_iff.mpr ⟨p, fun q hq => ?_, ?_⟩
  · rw [get_deref, get_deref, agree q hq]
  · rw [get_deref, get_deref, if_pos inside, if_pos inside]
    exact PatternInputDomain.get_lt_get (strict p inside) smaller
      (MixedRadix.digit_lt j (sizes_get inside) (size_pos_of_prod inside below))

theorem elements_increasing {ranges : List PatternInputDomain} (small : (sizes ranges).prod < 2 ^ 32)
    (strict : ∀ i < ranges.length, (ranges.getD i .any).domain.Pairwise (· < ·)) :
    (elements ranges).Pairwise (· < ·) := by
  rw [elements, size_eq, Nat.mod_eq_of_lt small, List.pairwise_map]
  refine List.pairwise_lt_range.imp_of_mem fun {i j} _ member less => ?_
  exact deref_lt strict less (List.mem_range.mp member)

/-- No element stands at two places, also where the number of elements has overflowed. -/
theorem elements_get_inj {ranges : List PatternInputDomain}
    (strict : ∀ i < ranges.length, (ranges.getD i .any).domain.Pairwise (· < ·)) {i j : Nat} {x : PatternIndex}
    (first : (elements ranges)[i]? = some x) (second : (elements ranges)[j]? = some x) : i = j := by
  have place : ∀ {k}, (elements ranges)[k]? = some x → k < (sizes ranges).prod ∧ deref ranges k = x := by
    intro k read
    rw [elements, size_eq, List.getElem?_map, Option.map_eq_some_iff] at read
    obtain ⟨k', inside, same⟩ := read
    obtain ⟨below, rfl⟩ := List.getElem?_eq_some_iff.mp inside
    rw [List.length_range] at below
    rw [List.getElem_range] at same
    exact ⟨below.trans_le (Nat.mod_le _ _), same⟩
  obtain ⟨below, here⟩ := place first
  obtain ⟨below', there⟩ := place second
  rcases Nat.lt_trichotomy i j with less | same | greater
  · exact absurd (deref_lt strict less below') (by rw [here, there]; exact PatternIndex.lt_irrefl x)
  · exact same
  · exact absurd (deref_lt strict greater below) (by rw [here, there]; exact PatternIndex.lt_irrefl x)

end CartesianProductRange

namespace DeviceIdPattern

theorem length_domain (p : DeviceIdPattern) :
    p.domain.length = (p.patternInputDomains.map PatternInputDomain.size).prod % 2 ^ 32 := by
  rw [domain, CartesianProductRange.elements, List.length_map, List.length_range, CartesianProductRange.size_eq,
    CartesianProductRange.sizes]

/-! ### Evaluation -/

def Accepts (p : DeviceIdPattern) (pi : PatternIndex) : Prop :=
  ∀ i < p.dim, (p.dimDomain i).contains (pi.get i) = true

theorem checkIsInDomain_ok_iff {p : DeviceIdPattern} {pi : PatternIndex} :
    p.checkIsInDomain pi = .ok () ↔ p.Accepts pi := by
  have empty : (p.badPositions pi).isEmpty = true ↔ p.Accepts pi := by
    simp [badPositions, Accepts, List.filter_eq_nil_iff]
  unfold checkIsInDomain
  dsimp only
  split
  · rename_i none
    simpa using empty.mp none
  · rename_i some
    simpa using mt empty.mpr some

theorem evalFrom_ok {pi : PatternIndex} {brackets : List (Nat × BracketMap × String)} (ss : String)
    (mapped : ∀ b ∈ brackets, ∃ v, mappingAt b.2.1 (pi.get b.1) = .ok v) :
    ∃ s, evalFrom pi brackets ss = .ok s := by
  induction brackets generalizing ss with
  | nil => exact ⟨ss, rfl⟩
  | cons b rest ih =>
    obtain ⟨inputPos, mapping, fragment⟩ := b
    obtain ⟨v, read⟩ := mapped _ List.mem_cons_self
    obtain ⟨s, h⟩ := ih (ss ++ toString v ++ fragment) fun b member => mapped b (List.mem_cons_of_mem _ member)
    exact ⟨s, by rw [evalFrom, bind_ok_iff]; exact ⟨v, read, h⟩⟩

theorem mappingAt_ok {mapping : BracketMap} {key : Int} (positive : 0 ≤ key) (member : key.toNat ∈ mapping) :
    ∃ v, mappingAt mapping key = .ok v := by
  obtain ⟨v, read⟩ := Std.TreeMap.mem_iff_isSome_getElem?.mp member |> Option.isSome_iff_exists.mp
  exact ⟨v, by simp [mappingAt, positive, read]⟩

theorem mem_brackets {p : DeviceIdPattern} {bracket : Nat × BracketMap × String}
    (member : bracket ∈ p.brackets) :
    ∃ b : Nat, p.bracketPosToInputPos[b]? = some bracket.1 ∧ p.bracketInputMappings[b]? = some bracket.2.1 := by
  obtain ⟨b, read⟩ := List.mem_iff_getElem?.mp member
  obtain ⟨inputPos, rest⟩ := bracket
  obtain ⟨first, second⟩ := List.getElem?_zip_eq_some.mp read
  exact ⟨b, first, (List.getElem?_zip_eq_some.mp second).1⟩

theorem eval_ok_iff {p : DeviceIdPattern} {pi : PatternIndex} : (∃ s, p.eval pi = .ok s) ↔ p.Accepts pi := by
  constructor
  · rintro ⟨s, h⟩
    obtain ⟨_, checked, _⟩ := bind_ok h
    exact checkIsInDomain_ok_iff.mp checked
  · intro accepted
    have mapped : ∀ b ∈ p.brackets, ∃ v, mappingAt b.2.1 (pi.get b.1) = .ok v := by
      intro bracket member
      obtain ⟨b, position, mapping⟩ := mem_brackets member
      have used : b ∈ bracketsAt p.bracketPosToInputPos bracket.1 := mem_bracketsAt.mpr position
      have inside := p.consistent.positions _ (List.mem_of_getElem? position)
      have contained := accepted _ inside
      -- a position with a bracket is restricted to keys that bracket has
      rw [PatternInputDomain.contains, (isInputDomain inside).bound (List.ne_nil_of_mem used), Bool.false_or,
        Bool.and_eq_true, decide_eq_true_eq, List.contains_iff_mem] at contained
      have key := ((isInputDomain inside).mem (List.ne_nil_of_mem used) _).mp contained.2 b used _ mapping
      exact mappingAt_ok contained.1 key
    obtain ⟨s, h⟩ := evalFrom_ok (p.patternNonBracketFragments.headD "") mapped
    exact ⟨s, bind_ok_iff.mpr ⟨(), checkIsInDomain_ok_iff.mpr accepted, h⟩⟩

/-! ### The domain -/

/-- The tuples of the domain: an element of the axis domain at every position, nothing beyond. -/
def InDomain (p : DeviceIdPattern) (x : PatternIndex) : Prop :=
  x.dim ≤ p.dim ∧ ∀ i < p.dim, (p.dimDomain i).Allows (x.get i)

theorem InDomain.accepts {p : DeviceIdPattern} {x : PatternIndex} (h : p.InDomain x) : p.Accepts x :=
  fun i inside => PatternInputDomain.contains_of_allows (h.2 i inside)

theorem inDomain_of_mem {p : DeviceIdPattern} {x : PatternIndex} (member : x ∈ p.domain) : p.InDomain x :=
  CartesianProductRange.allows_of_mem_elements member

theorem mem_domain {p : DeviceIdPattern} (small : (p.patternInputDomains.map PatternInputDomain.size).prod < 2 ^ 32)
    {x : PatternIndex} : x ∈ p.domain ↔ p.InDomain x :=
  CartesianProductRange.mem_elements small

theorem domain_increasing {p : DeviceIdPattern}
    (small : (p.patternInputDomains.map PatternInputDomain.size).prod < 2 ^ 32) :
    p.domain.Pairwise (· < ·) :=
  CartesianProductRange.elements_increasing small fun _ inside => (isInputDomain inside).strict

theorem domain_get_inj {p : DeviceIdPattern} {i j : Nat} {x : PatternIndex} (first : p.domain[i]? = some x)
    (second : p.domain[j]? = some x) : i = j :=
  CartesianProductRange.elements_get_inj (fun _ inside => (isInputDomain inside).strict) first second

theorem evaluated_domain (p : DeviceIdPattern) :
    ∃ text : PatternIndex → String, ∀ x ∈ p.domain, p.eval x = .ok (text x) := by
  have each : ∀ x, ∃ s, x ∈ p.domain → p.eval x = .ok s := by
    intro x
    by_cases member : x ∈ p.domain
    · obtain ⟨s, h⟩ := eval_ok_iff.mpr (inDomain_of_mem member).accepts
      exact ⟨s, fun _ => h⟩
    · exact ⟨"", fun h => absurd h member⟩
  choose text evaluated using each
  exact ⟨text, evaluated⟩

theorem allows_dimDomain {p : DeviceIdPattern} {i : Nat} (inside : i < p.dim) (v : Int) :
    (p.dimDomain i).Allows v ↔
      (p.IsBound i → ∃ n ∈ (p.dimDomain i).domain, v = n) ∧ (¬ p.IsBound i → v = PatternIndex.unspecified) := by
  have free := unspecified_iff inside
  unfold PatternInputDomain.Allows
  split
  · rename_i unrestricted
    have unused := free.mp unrestricted
    exact ⟨fun same => ⟨fun used => absurd used unused, fun _ => same⟩, fun h => h.2 unused⟩
  · rename_i restricted
    have used := not_not.mp (mt free.mpr restricted)
    exact ⟨fun same => ⟨fun _ => same, fun unused => absurd used unused⟩, fun h => h.1 used⟩

theorem matchArgs_ok {p : DeviceIdPattern} {text : PatternIndex → String} (str : String)
    (evaluated : ∀ x ∈ p.domain, p.eval x = .ok (text x)) :
    p.matchArgs str = .ok (p.domain.filter fun x => p.eval x = .ok str) := by
  refine filterM_ok fun x member => ?_
  rw [evaluated x member]
  simp [bind, Except.bind, pure, Except.pure, BEq.beq]

theorem matchesString_ok {p : DeviceIdPattern} {text : PatternIndex → String} (str : String)
    (evaluated : ∀ x ∈ p.domain, p.eval x = .ok (text x)) :
    ∃ b, p.matchesString str = .ok b ∧ (b = true ↔ str ∈ p.domain.map text) := by
  refine ⟨_, bind_ok_iff.mpr ⟨_, matchArgs_ok str evaluated, rfl⟩, ?_⟩
  rw [Bool.not_eq_true', List.isEmpty_eq_false_iff, Ne, List.filter_eq_nil_iff, List.mem_map]
  simp only [not_forall, decide_eq_true_eq, not_not]
  constructor
  · rintro ⟨x, member, same⟩
    exact ⟨x, member, Except.ok.inj ((evaluated x member).symm.trans same)⟩
  · rintro ⟨x, member, rfl⟩
    exact ⟨x, member, evaluated x member⟩

/-- The enumerator, the evaluator, the inverse and the membership test of a pattern agree below the overflow of the
`unsigned` size: the domain lists, in increasing order, the tuples with an element of the axis domain at every bound
position and nothing elsewhere, `values` are its images, and `match` and `matches` tell which tuples give a text. -/
theorem domain_values_match (p : DeviceIdPattern)
    (small : (p.patternInputDomains.map PatternInputDomain.size).prod < 2 ^ 32) :
    p.domain.Pairwise (· < ·) ∧
    (∀ x : PatternIndex, x ∈ p.domain ↔ x.dim ≤ p.dim ∧ ∀ i < p.dim,
      (p.IsBound i → ∃ v ∈ (p.dimDomain i).domain, x.get i = v) ∧
      (¬ p.IsBound i → x.get i = PatternIndex.unspecified)) ∧
    ∃ values, p.values = .ok values ∧ values.length = p.domain.length ∧
      (∀ (k : Nat) (x : PatternIndex), p.domain[k]? = some x → ∃ v, p.eval x = .ok v ∧ values[k]? = some v) ∧
      (∀ str, p.matchArgs str = .ok (p.domain.filter fun x => p.eval x = .ok str)) ∧
      ∀ str, ∃ b, p.matchesString str = .ok b ∧ (b = true ↔ str ∈ values) := by
  obtain ⟨text, evaluated⟩ := evaluated_domain p
  refine ⟨domain_increasing small, fun x => ?_, p.domain.map text, mapM_ok evaluated, by simp, ?_,
    fun str => matchArgs_ok str evaluated, fun str => matchesString_ok str evaluated⟩
  · rw [mem_domain small, InDomain]
    refine and_congr_right fun _ => forall₂_congr fun i inside => ?_
    exact allows_dimDomain inside (x.get i)
  · intro k x read
    exact ⟨text x, evaluated x (List.mem_of_getElem? read), by simp [read]⟩

/-- A pattern with a shifted bracket at position 2, a constant one at 0 and none at 1. -/
theorem domain_values_match_gap : ∃ p, ofString "GPU_[2|1-2:5-6]_[0|3-4:7]" = .ok p ∧ p.dim = 3 ∧
    p.domain.Pairwise (· < ·) ∧ ∃ values, p.values = .ok values ∧ values.length = p.domain.length := by
  have sizes : (ofString "GPU_[2|1-2:5-6]_[0|3-4:7]").map
      (fun p => p.patternInputDomains.map PatternInputDomain.size) = .ok [2, 1, 2] := by decide
  obtain ⟨p, built⟩ : ∃ p, ofString "GPU_[2|1-2:5-6]_[0|3-4:7]" = .ok p := by
    cases built : ofString "GPU_[2|1-2:5-6]_[0|3-4:7]" with
    | ok p => exact ⟨p, rfl⟩
    | error e => rw [built] at sizes; cases sizes
  rw [built] at sizes
  have sizes : p.patternInputDomains.map PatternInputDomain.size = [2, 1, 2] := Except.ok.inj sizes
  obtain ⟨increasing, _, values, listed, count, _⟩ := domain_values_match p (by rw [sizes]; decide)
  exact ⟨p, built, by simpa [dim] using congrArg List.length sizes, increasing, values, listed, count⟩

example : (ofString "GPU_[2|1-2:5-6]_[0|3-4:7]").bind values = .ok ["GPU_5_7", "GPU_6_7", "GPU_5_7", "GPU_6_7"] := by
  decide

end DeviceIdPattern

end MonitorEventing.DeviceId
