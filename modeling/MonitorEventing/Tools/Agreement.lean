import MonitorEventing.Tools.Ids

/-!
# The two implementations agree

The documentation of the language says that the constructor and the script are equivalent for all intents and
purposes. On a pattern that the constructor takes, the script has the same brackets, the same domain and the same
values, in the same order.
-/

namespace MonitorEventing.Ids

open DeviceId

/-! ### Which characters each layer uses -/

theorem Number.uses (n : Number) : Grammar.Uses [] n.token := fun c member => Or.inl (n.decimal c member)

theorem Range.uses (r : Range) : Grammar.Uses ['-'] r.text := by
  cases r with
  | number n => exact n.uses.mono (List.nil_subset _)
  | properRange first last =>
    exact (first.uses.mono (List.nil_subset _)).append (last.uses.mono (List.nil_subset _)) List.mem_cons_self

theorem Map.uses (map : Map) : Grammar.Uses ['-', ':'] map.text := by
  cases map with
  | range r => exact r.uses.mono (by simp)
  | properMap domain image => exact (domain.uses.mono (by simp)).append (image.uses.mono (by simp)) (by simp)

theorem SumMap.uses (maps : SumMap) : Grammar.Uses ['-', ':', ','] maps.text := by
  intro c member
  rcases List.mem_append.mp member with first | later
  · exact maps.first.uses.mono (by simp) c first
  · obtain ⟨map, _, inside⟩ := List.mem_flatMap.mp later
    rcases List.mem_cons.mp inside with rfl | inside
    · exact Or.inr (by simp)
    · exact map.uses.mono (by simp) c inside

theorem IndexedMap.uses (map : IndexedMap) : Grammar.Uses ['-', ':', ',', '|'] map.text := by
  cases map with
  | sumMap maps => exact maps.uses.mono (by simp)
  | properIndexedMap index maps => exact (index.uses.mono (List.nil_subset _)).append (maps.uses.mono (by simp)) (by simp)

/-! ### What a bracket means -/

/-- One function, as a dictionary and as a map. -/
structure SameMapping (d : Dict) (m : BracketMap) : Prop where
  distinct : (d.map (·.1)).Nodup
  same : ∀ k, d.lookup k = m[k]?

theorem Number.getVal_eq {n : Number} {value : Nat} (h : parseNonNegativeInt n.token = .ok value) : n.getVal = value := by
  have unsigned : '-' ∉ n.token := fun member => absurd (n.decimal _ member) (by decide)
  exact ((Grammar.parseNonNegativeInt_ok_iff.mp h).isNumber unsigned).value

theorem Range.values_eq {r : Range} {range : BracketRange} (h : BracketRange.parse r.text = .ok range) :
    r.values = range.elements := by
  unfold BracketRange.parse at h
  cases r with
  | number n =>
    rw [text, n.uses.split '-' (by decide)] at h
    obtain ⟨value, read, h⟩ := bind_ok h
    obtain rfl := pure_ok_iff.mp h
    simp [values, n.getVal_eq read, BracketRange.elements, BracketRange.size]
  | properRange first last =>
    rw [text, first.uses.split_pair last.uses '-' (by decide) (by decide)] at h
    obtain ⟨left, readLeft, h⟩ := bind_ok h
    obtain ⟨right, readRight, h⟩ := bind_ok h
    split at h
    · rename_i ordered
      obtain rfl := pure_ok_iff.mp h
      rw [values, first.getVal_eq readLeft, last.getVal_eq readRight, BracketRange.elements, BracketRange.size,
        Nat.sub_add_comm ordered]
    · cases h

theorem lookup_map_self (f : Nat → Nat) (keys : List Nat) (k : Nat) :
    (keys.map fun key => (key, f key)).lookup k = if k ∈ keys then some (f k) else none := by
  split
  · rename_i member
    exact List.lookup_graph f member
  · rename_i outside
    rw [List.lookup_eq_none_iff]
    intro entry member
    obtain ⟨key, inside, rfl⟩ := List.mem_map.mp member
    rw [bne_iff_ne]
    rintro rfl
    exact outside inside

theorem sequencesDict_elements (ranges : BracketRangeMap) :
    sequencesDict ranges.domain.elements ranges.codomain.elements =
      .ok (ranges.domain.elements.map fun key => (key, ranges.value key)) := by
  have lengths : ∀ range : BracketRange, range.elements.length = range.size := by simp [BracketRange.elements]
  unfold sequencesDict
  rw [lengths, lengths, if_pos ranges.sizes.symm]
  by_cases one : ranges.codomain.size = 1
  · have single : ranges.codomain.elements = [ranges.codomain.left] := by simp [BracketRange.elements, one]
    have value : ∀ key, ranges.value key = ranges.codomain.left := fun key => if_pos one
    rw [single]
    simp only [value]
  · have value : ∀ key, ranges.value key = ranges.codomain.left + (key - ranges.domain.left) := fun key => if_neg one
    split
    · rename_i y single
      exact absurd ((lengths _).symm.trans (congrArg List.length single)) one
    · rw [BracketRangeMap.zip_elements one]
      simp only [value]

theorem sameMapping_elements (ranges : BracketRangeMap) :
    SameMapping (ranges.domain.elements.map fun key => (key, ranges.value key)) ranges.toBracketMap := by
  refine ⟨?_, fun k => ?_⟩
  · rw [List.map_map]
    exact (List.map_id _).symm ▸ List.nodup_range'
  · rw [lookup_map_self, BracketRangeMap.toBracketMap_get]

theorem Map.mapping_eq {map : Map} {ranges : BracketRangeMap} (h : BracketRangeMap.parse map.text = .ok ranges) :
    map.mapping = .ok (ranges.domain.elements.map fun key => (key, ranges.value key)) := by
  unfold BracketRangeMap.parse at h
  cases map with
  | range r =>
    rw [text, r.uses.split ':' (by decide)] at h
    obtain ⟨range, read, h⟩ := bind_ok h
    obtain ⟨_, rfl⟩ := Grammar.ofRanges_ok_iff.mp h
    rw [mapping, domain, image, Range.values_eq read]
    exact sequencesDict_elements ⟨range, range, _⟩
  | properMap first second =>
    rw [text, first.uses.split_pair second.uses ':' (by decide) (by decide)] at h
    obtain ⟨range, read, h⟩ := bind_ok h
    obtain ⟨target, readTarget, h⟩ := bind_ok h
    obtain ⟨_, rfl⟩ := Grammar.ofRanges_ok_iff.mp h
    rw [mapping, domain, image, Range.values_eq read, Range.values_eq readTarget]
    exact sequencesDict_elements ⟨range, target, _⟩

theorem foldlM_addEntry {d acc : Dict} (distinct : ((acc ++ d).map (·.1)).Nodup) :
    d.foldlM addEntry acc = .ok (acc ++ d) := by
  induction d generalizing acc with
  | nil => simp [pure, Except.pure]
  | cons entry rest ih =>
    have fresh : acc.lookup entry.1 = none := by
      rw [List.lookup_eq_none_iff]
      intro other member
      rw [bne_iff_ne]
      intro same
      rw [List.map_append, List.nodup_append] at distinct
      exact distinct.2.2 _ (List.mem_map_of_mem member) _ List.mem_cons_self same.symm
    have next := @ih (acc ++ [entry]) (by simpa using distinct)
    rw [List.foldlM_cons, addEntry, fresh]
    simpa [bind, Except.bind] using next

theorem dictSum_single {d : Dict} (distinct : (d.map (·.1)).Nodup) : dictSum [d] = .ok d := by
  have added := @foldlM_addEntry d [] distinct
  exact bind_ok_iff.mpr ⟨d, added, rfl⟩

theorem SumMap.mapping_same {maps : SumMap} {m : BracketMap} (h : parseBracketMap maps.text = .ok m) :
    ∃ d, maps.mapping = .ok d ∧ SameMapping d m := by
  obtain ⟨first, rest⟩ := maps
  unfold parseBracketMap at h
  cases rest with
  | nil =>
    rw [text, List.flatMap_nil, List.append_nil, first.uses.split ',' (by decide)] at h
    obtain ⟨ranges, read, h⟩ := bind_ok h
    obtain rfl := pure_ok_iff.mp h
    have same := sameMapping_elements ranges
    have mapped : [first].mapM Map.mapping = .ok [ranges.domain.elements.map fun key => (key, ranges.value key)] :=
      mapM_ok_iff.mpr (List.forall₂_cons.mpr ⟨Map.mapping_eq read, List.Forall₂.nil⟩)
    exact ⟨_, bind_ok_iff.mpr ⟨_, mapped, dictSum_single same.distinct⟩, same⟩
  | cons second rest =>
    -- the constructor has no series of mappings
    have cut : split [','] (text ⟨first, second :: rest⟩) =
        first.text :: split [','] (second.text ++ rest.flatMap fun map => ',' :: map.text) :=
      Text.splitOnP_append_cons _ (first.uses.free [','] (by simp)) (by simp)
    obtain ⟨piece, pieces, more⟩ := List.exists_cons_of_ne_nil
      (List.splitOnP_ne_nil (fun c => [','].contains c) (second.text ++ rest.flatMap fun map => ',' :: map.text))
    have cut : split [','] (text ⟨first, second :: rest⟩) = first.text :: piece :: pieces := by rw [cut, split, more]
    rw [cut] at h
    cases h

/-- A bracket as both have it. -/
structure SameBracket (entry : Option Nat × Dict) (bracket : IndexedBracketMap) : Prop where
  position : bracket.inputPosition = (entry.1.map Int.ofNat).getD IndexedBracketMap.indexPosImplicit
  mapping : SameMapping entry.2 bracket.indexMap

theorem IndexedMap.get_same {map : IndexedMap} {bracket : IndexedBracketMap}
    (h : IndexedBracketMap.parse map.text = .ok bracket) : ∃ entry, map.get = .ok entry ∧ SameBracket entry bracket := by
  unfold IndexedBracketMap.parse at h
  cases map with
  | sumMap maps =>
    rw [text, maps.uses.split '|' (by decide)] at h
    obtain ⟨indexMap, read, h⟩ := bind_ok h
    obtain rfl := pure_ok_iff.mp h
    obtain ⟨d, mapped, same⟩ := maps.mapping_same read
    exact ⟨(none, d), bind_ok_iff.mpr ⟨d, mapped, rfl⟩, rfl, same⟩
  | properIndexedMap index maps =>
    rw [text, index.uses.split_pair maps.uses '|' (by decide) (by decide)] at h
    obtain ⟨inputPosition, readPosition, h⟩ := bind_ok h
    obtain ⟨indexMap, read, h⟩ := bind_ok h
    obtain rfl := pure_ok_iff.mp h
    obtain ⟨d, mapped, same⟩ := maps.mapping_same read
    refine ⟨(some index.getVal, d), bind_ok_iff.mpr ⟨d, mapped, rfl⟩, ?_, same⟩
    rw [index.getVal_eq readPosition]
    rfl

/-! ### Texts and brackets -/

/-- No closing bracket stands outside of the brackets. The constructor would split there. -/
structure Tree.Plain (tree : Tree) : Prop where
  head : ']' ∉ strText tree.head
  rest : ∀ entry ∈ tree.rest, ']' ∉ strText entry.2

theorem free_strText {str : Option Str} (plain : ']' ∉ strText str) : Text.Free Grammar.isBracket (strText str) := by
  have closed : '[' ∉ strText str := by
    cases str with
    | none => exact List.not_mem_nil
    | some str => exact str.plain
  intro c member
  simp only [Grammar.isBracket, List.contains_eq_mem, List.mem_cons, List.not_mem_nil, or_false, decide_eq_false_iff_not]
  rintro (rfl | rfl)
  · exact closed member
  · exact plain member

theorem split_brackets (rest : List (IndexedMap × Option Str)) {head : List Char}
    (free : Text.Free Grammar.isBracket head) (plain : ∀ entry ∈ rest, ']' ∉ strText entry.2) :
    split ['[', ']'] (head ++ rest.flatMap fun entry => '[' :: (entry.1.text ++ ']' :: strText entry.2)) =
      head :: rest.flatMap fun entry => [entry.1.text, strText entry.2] := by
  induction rest generalizing head with
  | nil =>
    rw [List.flatMap_nil, List.append_nil]
    exact Text.splitOnP_free free
  | cons entry rest ih =>
    obtain ⟨here, later⟩ := List.forall_mem_cons.mp plain
    have content : Text.Free Grammar.isBracket entry.1.text := entry.1.uses.free ['[', ']'] (by simp)
    rw [List.flatMap_cons, List.flatMap_cons, List.cons_append, List.append_assoc, List.cons_append]
    calc split ['[', ']'] (head ++ '[' :: (entry.1.text ++ ']' :: (strText entry.2 ++ rest.flatMap _)))
        = head :: split ['[', ']'] (entry.1.text ++ ']' :: (strText entry.2 ++ rest.flatMap _)) :=
          Text.splitOnP_append_cons _ free rfl
      _ = head :: entry.1.text :: split ['[', ']'] (strText entry.2 ++ rest.flatMap _) :=
          congrArg (head :: ·) (Text.splitOnP_append_cons _ content rfl)
      _ = _ := by rw [ih (free_strText here) later]; rfl

theorem interleaved_pieces (head : List Char) (rest : List (IndexedMap × Option Str)) :
    PatternFields.interleaved (head :: rest.flatMap fun entry => [entry.1.text, strText entry.2]) =
      (head :: rest.map fun entry => strText entry.2, rest.map fun entry => entry.1.text) := by
  induction rest generalizing head with
  | nil => rfl
  | cons entry rest ih =>
    rw [List.flatMap_cons, List.cons_append, List.cons_append, List.nil_append, PatternFields.interleaved, ih]
    rfl

/-! ### Domains -/

/-- A domain as the script has it. -/
def options (d : PatternInputDomain) : List (Option Nat) := if d.unspecified then [none] else d.domain.map some

theorem mem_common (indexedMappings : List (Nat × Dict)) (rest : List Nat) (start : List Nat) (v : Nat) :
    v ∈ rest.foldl (fun d bracketPos => d.filter (keysAt indexedMappings bracketPos).contains) start ↔
      v ∈ start ∧ ∀ b ∈ rest, v ∈ keysAt indexedMappings b := by
  induction rest generalizing start with
  | nil => simp
  | cons b rest ih =>
    rw [List.foldl_cons, ih, List.mem_filter, List.contains_iff_mem, List.forall_mem_cons, and_assoc]

theorem common_sublist (indexedMappings : List (Nat × Dict)) (rest : List Nat) (start : List Nat) :
    (rest.foldl (fun d bracketPos => d.filter (keysAt indexedMappings bracketPos).contains) start).Sublist start := by
  induction rest generalizing start with
  | nil => exact List.Sublist.refl _
  | cons b rest ih => exact (ih _).trans List.filter_sublist

theorem SameMapping.mem_keys {d : Dict} {m : BracketMap} (same : SameMapping d m) (k : Nat) :
    k ∈ d.map (·.1) ↔ k ∈ m := by
  rw [Std.TreeMap.mem_iff_isSome_getElem?, ← same.same, Option.isSome_iff_ne_none, Ne, List.lookup_eq_none_iff]
  simp only [List.mem_map, bne_iff_ne, not_forall, not_not, exists_prop]
  exact exists_congr fun entry => and_congr_right fun _ => eq_comm

section
variable {indexedMappings : List (Nat × Dict)} {mappings : List BracketMap}

theorem keysAt_same (same : List.Forall₂ SameMapping (indexedMappings.map (·.2)) mappings) {b : Nat}
    (inside : b < mappings.length) :
    (keysAt indexedMappings b).Nodup ∧ ∀ v, v ∈ keysAt indexedMappings b ↔ v ∈ mappings[b] := by
  have lengths := same.length_eq
  have count : b < indexedMappings.length := by rwa [← lengths, List.length_map] at inside
  have here := same.get (by simpa using count) inside
  simp only [List.get_eq_getElem, List.getElem_map] at here
  rw [keysAt, List.getD_eq_getElem _ _ count]
  exact ⟨here.distinct, here.mem_keys⟩

theorem domainAt_eq (same : List.Forall₂ SameMapping (indexedMappings.map (·.2)) mappings) {rows : List Nat}
    (inside : ∀ b ∈ rows, b < mappings.length) {d : PatternInputDomain} (isDomain : IsInputDomain rows mappings d) :
    domainAt indexedMappings rows = options d := by
  cases rows with
  | nil =>
    rw [isDomain.free rfl]
    rfl
  | cons first rest =>
    have bound : d.unspecified = false := isDomain.bound (List.cons_ne_nil _ _)
    obtain ⟨here, later⟩ := List.forall_mem_cons.mp inside
    let common := rest.foldl (fun d b => d.filter (keysAt indexedMappings b).contains) (keysAt indexedMappings first)
    have distinct : common.Nodup := (keysAt_same same here).1.sublist (common_sublist indexedMappings rest _)
    have members : ∀ v, v ∈ common ↔ v ∈ d.domain := by
      intro v
      rw [mem_common, isDomain.mem (List.cons_ne_nil _ _), List.forall_mem_cons, (keysAt_same same here).2]
      refine and_congr (by simp [List.getElem?_eq_getElem here]) (forall₂_congr fun b member => ?_)
      rw [(keysAt_same same (later b member)).2]
      simp [List.getElem?_eq_getElem (later b member)]
    have sorted : common.insertionSort (· ≤ ·) = d.domain := by
      have perm : (common.insertionSort (· ≤ ·)).Perm d.domain :=
        (List.perm_insertionSort _ _).trans
          ((List.perm_ext_iff_of_nodup distinct (isDomain.strict.imp Nat.ne_of_lt)).mpr members)
      exact perm.eq_of_pairwise' (List.pairwise_insertionSort _ _) d.sorted
    rw [options, bound, if_neg Bool.false_ne_true, ← sorted]
    rfl

end

/-! ### The pattern as both have it -/

theorem calcInputIndexToBracketPoss_eq (positions : List Nat) :
    calcInputIndexToBracketPoss positions = bracketsByInput positions := by
  unfold calcInputIndexToBracketPoss
  cases found : positions.max? with
  | none =>
    rw [bracketsByInput, inputCount, found]
    rfl
  | some largest =>
    have append : ∀ (row : List Nat) (k : Nat), (if row = [] then [k] else row ++ [k]) = row ++ [k] := by
      intro row k
      cases row with
      | nil => rfl
      | cons first rest => rfl
    simp only [append]
    exact BracketPositions.foldl_modify_bracketsByInput found

structure SamePattern (ids : Pattern) (p : DeviceIdPattern) : Prop where
  strings : ids.strings = p.patternNonBracketFragments
  positions : ids.indexedMappings.map (·.1) = p.bracketPosToInputPos
  mappings : List.Forall₂ SameMapping (ids.indexedMappings.map (·.2)) p.bracketInputMappings
  domains : ids.domains = p.patternInputDomains.map options

/-- A bracket with the input position it is given at its place. -/
theorem SameBracket.filled {entry : Option Nat × Dict} {bracket : IndexedBracketMap} (same : SameBracket entry bracket)
    (i : Nat) :
    entry.1.getD i = (if bracket.isImplicit then { bracket with inputPosition := i } else bracket).inputPosition.toNat ∧
    SameMapping entry.2 (if bracket.isImplicit then { bracket with inputPosition := i } else bracket).indexMap := by
  obtain ⟨index, d⟩ := entry
  obtain ⟨position, mapping⟩ := same
  cases index with
  | none =>
    have implicit : bracket.isImplicit = true := decide_eq_true position
    rw [if_pos implicit]
    exact ⟨rfl, mapping⟩
  | some index =>
    have positive : bracket.inputPosition = (index : Int) := position
    have explicit : ¬ bracket.isImplicit = true := by
      rw [IndexedBracketMap.isImplicit, decide_eq_true_iff, positive, IndexedBracketMap.indexPosImplicit]
      omega
    rw [if_neg explicit, positive]
    exact ⟨rfl, mapping⟩

theorem fillImplicit_same {entries : List (Option Nat × Dict)} {brackets : List IndexedBracketMap}
    (same : List.Forall₂ SameBracket entries brackets) :
    (fillImplicitIndexes entries).map (·.1) =
      (IndexedBracketMap.fillImplicitInputPositions brackets).map (·.inputPosition.toNat) ∧
    List.Forall₂ SameMapping ((fillImplicitIndexes entries).map (·.2))
      ((IndexedBracketMap.fillImplicitInputPositions brackets).map (·.indexMap)) := by
  have lengths := same.length_eq
  constructor
  · refine List.ext_getElem (by simpa [fillImplicitIndexes] using lengths) fun i inside inside' => ?_
    have here := same.get (by simpa [fillImplicitIndexes] using inside) (by simpa using inside')
    simpa [fillImplicitIndexes, IndexedBracketMap.fillImplicitInputPositions] using (here.filled i).1
  · refine List.forall₂_iff_get.mpr ⟨by simpa [fillImplicitIndexes] using lengths, fun i inside inside' => ?_⟩
    have here := same.get (by simpa [fillImplicitIndexes] using inside) (by simpa using inside')
    simpa [fillImplicitIndexes, IndexedBracketMap.fillImplicitInputPositions] using (here.filled i).2

theorem get_same {rest : List (IndexedMap × Option Str)} {parsed : List IndexedBracketMap}
    (brackets : List.Forall₂ (fun entry bracket => IndexedBracketMap.parse entry.1.text = .ok bracket) rest parsed) :
    ∃ entries, rest.mapM (fun entry => entry.1.get) = .ok entries ∧ List.Forall₂ SameBracket entries parsed := by
  simp only [mapM_ok_iff]
  induction brackets with
  | nil => exact ⟨[], List.Forall₂.nil, List.Forall₂.nil⟩
  | cons here _ ih =>
    obtain ⟨entry, got, bracket⟩ := IndexedMap.get_same here
    obtain ⟨entries, gotAll, all⟩ := ih
    exact ⟨entry :: entries, List.Forall₂.cons got gotAll, List.Forall₂.cons bracket all⟩

theorem domains_same {indexedMappings : List (Nat × Dict)} {p : DeviceIdPattern}
    (positions : indexedMappings.map (·.1) = p.bracketPosToInputPos)
    (mappings : List.Forall₂ SameMapping (indexedMappings.map (·.2)) p.bracketInputMappings)
    (calculated : calcInputDomains (bracketsByInput p.bracketPosToInputPos) p.bracketInputMappings =
      .ok p.patternInputDomains) :
    (calcInputIndexToBracketPoss (indexedMappings.map (·.1))).map (domainAt indexedMappings) =
      p.patternInputDomains.map options := by
  have rows := mapM_ok_iff.mp calculated
  rw [positions, calcInputIndexToBracketPoss_eq]
  refine List.ext_getElem (by simpa using rows.length_eq) fun i inside inside' => ?_
  simp only [List.getElem_map]
  have here := p.consistent.domains i _ (List.getElem?_eq_getElem (by simpa using inside'))
  obtain ⟨_, row⟩ := getElem?_bracketsByInput.mp
    (List.getElem?_eq_getElem (by simpa using inside) :
      (bracketsByInput p.bracketPosToInputPos)[i]? = _)
  rw [← row]
  refine domainAt_eq mappings (fun b member => ?_) here
  rw [p.consistent.mappings]
  exact (List.getElem?_eq_some_iff.mp (mem_bracketsAt.mp member)).1

theorem Tree.getIds_same {tree : Tree} (plain : tree.Plain) {p : DeviceIdPattern}
    (built : DeviceIdPattern.ofString (String.ofList tree.text) = .ok p) :
    ∃ ids, tree.getIds = .ok ids ∧ SamePattern ids p := by
  obtain ⟨parsed, _, read, _, fragments, positions, mappings, domains⟩ :=
    PatternFields.construct_ok_iff.mp (DeviceIdPattern.ofString_ok_iff.mp built)
  have pieces := split_brackets tree.rest (free_strText plain.head) plain.rest
  rw [String.toList_ofList, text, pieces, interleaved_pieces] at read fragments
  have brackets := mapM_ok_iff.mp read
  rw [List.forall₂_map_left_iff] at brackets
  obtain ⟨entries, got, same⟩ := get_same brackets
  obtain ⟨samePositions, sameMappings⟩ := fillImplicit_same same
  rw [← positions] at samePositions
  rw [← mappings] at sameMappings
  refine ⟨_, bind_ok_iff.mpr ⟨entries, got, rfl⟩, ?_, samePositions, sameMappings,
    domains_same samePositions sameMappings domains⟩
  rw [fragments]
  simp [Pattern.init]

end MonitorEventing.Ids
