import MonitorEventing.DeviceId.DeviceUtil
import MonitorEventing.DeviceId.Values

/-!
# Expanding a range

`expandDeviceRange` counts its keys up from the first index, whatever the pattern. With one input position the
keys are the indexes, since the indexes that all brackets have are an interval.
-/

namespace MonitorEventing.DeviceId

/-! ### Intervals -/

/-- An increasing list without a gap counts up from its first element. -/
theorem eq_range'_of_connected {d : List Nat} (strict : d.Pairwise (· < ·)) (connected : Set.OrdConnected {k | k ∈ d}) :
    d = List.range' (d.headD 0) d.length := by
  induction d with
  | nil => rfl
  | cons a rest ih =>
    obtain ⟨above, strict⟩ := List.pairwise_cons.mp strict
    have restConnected : Set.OrdConnected {k | k ∈ rest} := by
      refine ⟨fun i hi k hk j between => ?_⟩
      rcases List.mem_cons.mp (connected.out (List.mem_cons_of_mem a hi) (List.mem_cons_of_mem a hk) between) with
        rfl | later
      · exact absurd (above i hi) (Nat.not_lt.mpr between.1)
      · exact later
    have tail := ih strict restConnected
    cases rest with
    | nil => rfl
    | cons b rest =>
      have less : a < b := above b List.mem_cons_self
      have next : b = a + 1 := by
        have member : a + 1 ∈ a :: b :: rest :=
          connected.out List.mem_cons_self (List.mem_cons_of_mem a List.mem_cons_self) ⟨Nat.le_succ a, less⟩
        rcases List.mem_cons.mp member with same | later
        · omega
        · rcases List.mem_cons.mp later with same | beyond
          · exact same.symm
          · have := (List.pairwise_cons.mp strict).1 _ beyond
            omega
      rw [List.headD_cons] at tail
      rw [List.headD_cons, List.length_cons, List.range'_succ, ← next, ← tail]

theorem BracketRangeMap.toBracketMap_connected (ranges : BracketRangeMap) :
    Set.OrdConnected {k | k ∈ ranges.toBracketMap} := by
  have interval : {k | k ∈ ranges.toBracketMap} = Set.Icc ranges.domain.left ranges.domain.right := by
    ext k
    have keys : k ∈ ranges.toBracketMap ↔ k ∈ ranges.domain.elements := by
      rw [Std.TreeMap.mem_iff_isSome_getElem?, toBracketMap_get]
      split
      · rename_i inside
        simp [inside]
      · rename_i outside
        simp [outside]
    exact keys.trans BracketRange.mem_elements
  rw [interval]
  exact Set.ordConnected_Icc

theorem parseBracketMap_connected {range : List Char} {map : BracketMap} (h : parseBracketMap range = .ok map) :
    Set.OrdConnected {k | k ∈ map} := by
  unfold parseBracketMap at h
  split at h
  · obtain ⟨ranges, -, h⟩ := bind_ok h
    rw [← pure_ok_iff.mp h]
    exact ranges.toBracketMap_connected
  · cases h

theorem IndexedBracketMap.parse_connected {range : List Char} {parsed : IndexedBracketMap}
    (h : parse range = .ok parsed) : Set.OrdConnected {k | k ∈ parsed.indexMap} := by
  unfold parse at h
  split at h
  · obtain ⟨map, read, h⟩ := bind_ok h
    rw [← pure_ok_iff.mp h]
    exact parseBracketMap_connected read
  · obtain ⟨_, -, h⟩ := bind_ok h
    obtain ⟨map, read, h⟩ := bind_ok h
    rw [← pure_ok_iff.mp h]
    exact parseBracketMap_connected read
  · cases h

namespace DeviceIdPattern

theorem mapping_connected {s : String} {p : DeviceIdPattern} (built : ofString s = .ok p) {map : BracketMap}
    (member : map ∈ p.bracketInputMappings) : Set.OrdConnected {k | k ∈ map} := by
  obtain ⟨parsed, _, read, _, _, _, mappings, _⟩ := PatternFields.construct_ok_iff.mp (ofString_ok_iff.mp built)
  rw [mappings] at member
  obtain ⟨filled, inside, rfl⟩ := List.mem_map.mp member
  obtain ⟨i, at_i⟩ := List.mem_iff_getElem?.mp inside
  rw [IndexedBracketMap.fillImplicitInputPositions, List.getElem?_mapIdx, Option.map_eq_some_iff] at at_i
  obtain ⟨given, at_i, rfl⟩ := at_i
  obtain ⟨range, _, parsedHere⟩ := forall₂_mem_right (mapM_ok_iff.mp read) (List.mem_of_getElem? at_i)
  have connected := IndexedBracketMap.parse_connected parsedHere
  split
  · exact connected
  · exact connected

/-- The indexes at a position have no gap: each bracket has an interval of them, and they are those all have. -/
theorem dimDomain_connected {s : String} {p : DeviceIdPattern} (built : ofString s = .ok p) {i : Nat} (inside : i < p.dim) :
    Set.OrdConnected {k | k ∈ (p.dimDomain i).domain} := by
  have isDomain := isInputDomain inside
  by_cases used : bracketsAt p.bracketPosToInputPos i = []
  · rw [isDomain.free used]
    exact ⟨fun _ none => by cases none⟩
  · refine ⟨fun a ha c hc b between => (isDomain.mem used b).mpr fun position member map here => ?_⟩
    have connected := mapping_connected built (List.mem_of_getElem? here)
    exact connected.out ((isDomain.mem used a).mp ha position member map here)
      ((isDomain.mem used c).mp hc position member map here) between

theorem dimDomain_eq_range' {s : String} {p : DeviceIdPattern} (built : ofString s = .ok p) {i : Nat} (inside : i < p.dim) :
    (p.dimDomain i).domain = List.range' ((p.dimDomain i).domain.headD 0) (p.dimDomain i).domain.length :=
  eq_range'_of_connected (isInputDomain inside).strict (dimDomain_connected built inside)

theorem single_bound {p : DeviceIdPattern} (single : p.dim = 1) : (p.dimDomain 0).unspecified = false := by
  have last : p.IsBound (p.dim - 1) := last_bound (by omega)
  rw [single] at last
  rw [← Bool.not_eq_true, unspecified_iff (by omega), not_not]
  exact last

/-- With one input position the domain is the list of its indexes. -/
theorem domain_single {p : DeviceIdPattern} (single : p.dim = 1)
    (small : (p.patternInputDomains.map PatternInputDomain.size).prod < 2 ^ 32) :
    p.domain = (p.dimDomain 0).domain.map fun i : Nat => PatternIndex.ofList [(i : Int)] := by
  obtain ⟨d, domains⟩ := List.length_eq_one_iff.mp single
  have axis : p.dimDomain 0 = d := by rw [dimDomain, domains]; rfl
  have bound : d.unspecified = false := axis ▸ single_bound single
  have size : d.size = d.domain.length := by rw [PatternInputDomain.size, bound]; rfl
  have count : CartesianProductRange.size [d] = d.domain.length := by
    rw [domains] at small
    rw [CartesianProductRange.size_eq, CartesianProductRange.sizes, Nat.mod_eq_of_lt small]
    simp [size]
  rw [axis, domain, domains, CartesianProductRange.elements, count]
  refine List.ext_getElem (by simp) fun k _ inside => ?_
  rw [List.length_map] at inside
  rw [List.getElem_map, List.getElem_map, List.getElem_range]
  ext j
  rw [CartesianProductRange.get_deref, PatternIndex.get_ofList]
  cases j with
  | zero =>
    have place : MixedRadix.digit (CartesianProductRange.sizes [d]) 0 k = k := by
      simp [CartesianProductRange.sizes, size, Nat.mod_eq_of_lt inside]
    rw [place]
    simp [PatternInputDomain.get, bound, PatternIndex.clip, List.getElem?_eq_getElem inside]
  | succ j => simp [PatternIndex.clip, PatternIndex.unspecified]

end DeviceIdPattern

end MonitorEventing.DeviceId

namespace MonitorEventing.DeviceUtil
open DeviceId

/-! ### Counting up -/

/-- Values under consecutive keys. -/
def numbered : Int → List String → List (Int × String)
  | _, [] => []
  | key, value :: rest => (key, value) :: numbered (key + 1) rest

theorem toList_insert_last {map : DeviceIdMap} {key : Int} (above : ∀ k ∈ map, k < key) (value : String) :
    (map.insert key value).toList = map.toList ++ [(key, value)] := by
  have sorted (map : DeviceIdMap) : map.toList.Pairwise fun a b => a.1 < b.1 :=
    map.ordered_keys_toList.imp fun less => Int.compare_eq_lt.mp less
  have fresh : map[key]? = none := by
    rw [Std.TreeMap.getElem?_eq_none]
    intro member
    exact lt_irrefl key (above key member)
  have last : (map.toList ++ [(key, value)]).Pairwise fun a b => a.1 < b.1 := by
    rw [List.pairwise_append]
    refine ⟨sorted map, List.pairwise_singleton _ _, fun entry member other single => ?_⟩
    rw [List.mem_singleton.mp single]
    apply above
    rw [Std.TreeMap.mem_iff_isSome_getElem?, Std.TreeMap.mem_toList_iff_getElem?_eq_some.mp member]
    rfl
  have distinct {l : List (Int × String)} (increasing : l.Pairwise fun a b => a.1 < b.1) : l.Nodup :=
    increasing.imp fun less same => absurd (congrArg Prod.fst same) less.ne
  refine List.Perm.eq_of_pairwise (fun a b _ _ ab ba => absurd ab (lt_asymm ba)) (sorted _) last
    ((List.perm_ext_iff_of_nodup (distinct (sorted _)) (distinct last)).mpr fun entry => ?_)
  obtain ⟨k, v⟩ := entry
  rw [Std.TreeMap.mem_toList_iff_getElem?_eq_some, List.mem_append, Std.TreeMap.mem_toList_iff_getElem?_eq_some,
    Std.TreeMap.getElem?_insert, List.mem_singleton, Prod.mk.injEq]
  simp only [Std.LawfulEqCmp.compare_eq_iff_eq]
  by_cases here : key = k
  · subst here
    simp [fresh, eq_comm]
  · simp [here, Ne.symm here]

theorem toList_expandFrom {values : List String} {key : Nat} {deviceIdMap : DeviceIdMap} (bound : key < 2 ^ 32)
    (fits : intOfUnsigned key + values.length < 2 ^ 31) (nonempty : ∀ value ∈ values, value ≠ "")
    (above : ∀ k ∈ deviceIdMap, k < intOfUnsigned key) :
    (expandFrom values key deviceIdMap).toList = deviceIdMap.toList ++ numbered (intOfUnsigned key) values := by
  induction values generalizing key deviceIdMap with
  | nil => simp [expandFrom, numbered]
  | cons value rest ih =>
    obtain ⟨here, later⟩ := List.forall_mem_cons.mp nonempty
    rw [List.length_cons] at fits
    have next : intOfUnsigned ((key + 1) % 2 ^ 32) = intOfUnsigned key + 1 := by
      unfold intOfUnsigned at fits ⊢
      omega
    have grown : ∀ k ∈ deviceIdMap.insert (intOfUnsigned key) value, k < intOfUnsigned ((key + 1) % 2 ^ 32) := by
      intro k member
      rw [Std.TreeMap.mem_insert, Std.LawfulEqCmp.compare_eq_iff_eq] at member
      rcases member with rfl | old
      · omega
      · have := above k old
        omega
    rw [expandFrom, if_neg here, ih (Nat.mod_lt _ (by decide)) (by rw [next]; omega) later grown,
      toList_insert_last above, next, List.append_assoc]
    rfl

theorem numbered_range' (value : Nat → String) (first count : Nat) :
    numbered first ((List.range' first count).map value) =
      (List.range' first count).map fun i : Nat => ((i : Int), value i) := by
  induction count generalizing first with
  | zero => rfl
  | succ count ih =>
    have later := ih (first + 1)
    rw [Nat.cast_succ] at later
    rw [List.range'_succ, List.map_cons, List.map_cons, numbered, later]

/-- The first index of the first tuple, if the pattern has one. -/
def firstIndex (p : DeviceIdPattern) : Int := (p.domain.head?.map fun front => front.get 0).getD 0

theorem initialKey_eq {p : DeviceIdPattern} (below : firstIndex p < 2 ^ 31) (some : p.domain ≠ []) :
    intOfUnsigned (initialKey p.domain) = if p.dim = 0 then 0 else firstIndex p := by
  obtain ⟨front, rest, domain⟩ := List.exists_cons_of_ne_nil some
  have member : p.InDomain front := DeviceIdPattern.inDomain_of_mem (by rw [domain]; exact List.mem_cons_self)
  have first : firstIndex p = front.get 0 := by rw [firstIndex, domain]; rfl
  rw [first] at below ⊢
  rw [domain, initialKey]
  by_cases unranged : p.dim = 0
  · have none : ¬ front.dim > 0 := by
      have := member.1
      omega
    rw [if_neg none, if_pos unranged]
    rfl
  · have some : front.dim > 0 := by
      by_contra none
      obtain ⟨n, -, last⟩ := ((DeviceIdPattern.allows_dimDomain (by omega) _).mp (member.2 (p.dim - 1) (by omega))).1
        (DeviceIdPattern.last_bound (by omega))
      rw [PatternIndex.get_beyond (by omega)] at last
      exact absurd last (by simp [PatternIndex.unspecified])
    rw [if_pos some, if_neg unranged]
    have least := front.get_ge 0
    unfold intOfUnsigned
    omega

theorem firstIndex_ge (p : DeviceIdPattern) : -1 ≤ firstIndex p := by
  unfold firstIndex
  cases p.domain.head? with
  | none => simp
  | some front => exact front.get_ge 0

section
variable {s : String} {p : DeviceIdPattern} {text : PatternIndex → String}

theorem values_nonempty (built : DeviceIdPattern.ofString s = .ok p) (nonempty : s ≠ "")
    (evaluated : ∀ x ∈ p.domain, p.eval x = .ok (text x)) : ∀ value ∈ p.domain.map text, value ≠ "" := by
  intro value member
  obtain ⟨x, inside, rfl⟩ := List.mem_map.mp member
  by_cases unranged : p.dim = 0
  · rw [DeviceIdPattern.eval_unranged built unranged (evaluated x inside)]
    exact nonempty
  · exact DeviceIdPattern.eval_nonempty (by omega) (evaluated x inside)

theorem toList_expandFrom_domain
    (below : firstIndex p + (p.patternInputDomains.map PatternInputDomain.size).prod < 2 ^ 31)
    (small : (p.patternInputDomains.map PatternInputDomain.size).prod < 2 ^ 32)
    (texts : ∀ value ∈ p.domain.map text, value ≠ "") :
    (expandFrom (p.domain.map text) (initialKey p.domain) ∅).toList =
      numbered (if p.dim = 0 then 0 else firstIndex p) (p.domain.map text) := by
  by_cases none : p.domain = []
  · rw [none]
    rfl
  · have start := initialKey_eq (by omega) none
    have fits : intOfUnsigned (initialKey p.domain) + (p.domain.map text).length < 2 ^ 31 := by
      rw [start, List.length_map, p.length_domain, Nat.mod_eq_of_lt small]
      split
      · rename_i unranged
        rw [List.length_eq_zero_iff.mp unranged]
        decide
      · exact below
    rw [toList_expandFrom (initialKey_lt _) fits texts (by simp), start]
    rfl

/-- With one input position the values stand under the indexes, which count up from the first. -/
theorem mem_numbered_single (built : DeviceIdPattern.ofString s = .ok p) (single : p.dim = 1)
    (small : (p.patternInputDomains.map PatternInputDomain.size).prod < 2 ^ 32) {i : Int}
    (inside : (p.dimDomain 0).contains i = true) :
    .ofList [i] ∈ p.domain ∧ (i, text (.ofList [i])) ∈ numbered (firstIndex p) (p.domain.map text) := by
  rw [PatternInputDomain.contains, DeviceIdPattern.single_bound single, Bool.false_or, Bool.and_eq_true,
    decide_eq_true_eq, List.contains_iff_mem] at inside
  obtain ⟨n, rfl⟩ := Int.eq_ofNat_of_zero_le inside.1
  have member : n ∈ (p.dimDomain 0).domain := inside.2
  have domain := DeviceIdPattern.domain_single single small
  have here : PatternIndex.ofList [(n : Int)] ∈ p.domain := by
    rw [domain]
    exact List.mem_map_of_mem member
  obtain ⟨first, rest, split⟩ := List.exists_cons_of_ne_nil (List.ne_nil_of_mem member)
  have start : firstIndex p = first := by
    rw [firstIndex, domain, split]
    simp [PatternIndex.get_ofList, PatternIndex.clip]
  have axis : (p.dimDomain 0).domain = List.range' first (p.dimDomain 0).domain.length := by
    have interval := DeviceIdPattern.dimDomain_eq_range' built (i := 0) (by omega)
    rwa [split, List.headD_cons, ← split] at interval
  refine ⟨here, ?_⟩
  rw [axis] at member
  rw [start, domain, axis, List.map_map, numbered_range']
  exact List.mem_map_of_mem (f := fun i : Nat => ((i : Int), _)) member

end

/-- The entries are the values under consecutive keys, and with one input position the keys are the indexes. -/
theorem expandDeviceRange_entries (s : String) (p : DeviceIdPattern) (built : DeviceIdPattern.ofString s = .ok p)
    (nonempty : s ≠ "") (below : firstIndex p + (p.patternInputDomains.map PatternInputDomain.size).prod < 2 ^ 31) :
    ∃ deviceIdMap values, expandDeviceRangeIn s = .ok deviceIdMap ∧ expandDeviceRange p = .ok deviceIdMap ∧
      p.values = .ok values ∧ values.length = (p.patternInputDomains.map PatternInputDomain.size).prod ∧
      deviceIdMap.toList = numbered (if p.dim = 0 then 0 else firstIndex p) values ∧
      (p.dim = 1 → ∀ i : Int, (p.dimDomain 0).contains i = true →
        ∃ value, p.eval (.ofList [i]) = .ok value ∧ deviceIdMap[i]? = some value) := by
  have small : (p.patternInputDomains.map PatternInputDomain.size).prod < 2 ^ 32 := by
    have least := firstIndex_ge p
    omega
  obtain ⟨text, evaluated⟩ := p.evaluated_domain
  have values : p.values = .ok (p.domain.map text) := mapM_ok evaluated
  have entries := toList_expandFrom_domain below small (values_nonempty built nonempty evaluated)
  have expanded : expandDeviceRange p = .ok (expandFrom (p.domain.map text) (initialKey p.domain) ∅) := by
    rw [expandDeviceRange, DeviceIdPattern.pattern_ofString built, if_pos nonempty, values]
    rfl
  have count : (p.domain.map text).length = (p.patternInputDomains.map PatternInputDomain.size).prod := by
    rw [List.length_map, p.length_domain, Nat.mod_eq_of_lt small]
  refine ⟨_, _, bind_ok_iff.mpr ⟨p, built, expanded⟩, expanded, values, count, entries, fun single i inside => ?_⟩
  obtain ⟨here, listed⟩ := mem_numbered_single built single small inside
  refine ⟨_, evaluated _ here, ?_⟩
  rw [← Std.TreeMap.mem_toList_iff_getElem?_eq_some, entries, if_neg (by omega)]
  exact listed

/-- Two brackets at one position, of which one is shifted. -/
theorem expandDeviceRange_entries_shifted : ∃ p deviceIdMap,
    DeviceIdPattern.ofString "GPU_[0|1-3]_[0|2-4:7-9]" = .ok p ∧
    expandDeviceRangeIn "GPU_[0|1-3]_[0|2-4:7-9]" = .ok deviceIdMap ∧
    ∃ value, p.eval (.ofList [3]) = .ok value ∧ deviceIdMap[(3 : Int)]? = some value := by
  have run : (DeviceIdPattern.ofString "GPU_[0|1-3]_[0|2-4:7-9]").map (fun p =>
      (decide (firstIndex p + (p.patternInputDomains.map PatternInputDomain.size).prod < 2 ^ 31), p.dim,
        (p.dimDomain 0).contains 3)) = .ok (true, 1, true) := by decide
  obtain ⟨p, built, facts⟩ := map_ok run
  simp only [Prod.mk.injEq, decide_eq_true_eq] at facts
  obtain ⟨below, single, inside⟩ := facts
  obtain ⟨deviceIdMap, values, expanded, -, -, -, -, keys⟩ := expandDeviceRange_entries _ p built (by decide) below
  exact ⟨p, deviceIdMap, built, expanded, keys single 3 inside⟩

end MonitorEventing.DeviceUtil
