import MonitorEventing.Tools.Values

/-!
# The inverse

The script inverts a pattern position by position: it groups the domain of each input position by what the
brackets there make of it, and combines the groups. What it finds for the numbers in the brackets is every tuple
of the domain with these numbers, in the order of the domain.
-/

namespace MonitorEventing.Ids

open DeviceId

/-! ### Grouping -/

section
variable {α β : Type} [BEq β]

/-- The keys with a value. -/
def keysOf (d : List (α × β)) (value : β) : List α := (d.filter fun entry => entry.2 == value).map (·.1)

theorem keysOf_concat (d : List (α × β)) (key : α) (own value : β) :
    keysOf (d ++ [(key, own)]) value = if own == value then keysOf d value ++ [key] else keysOf d value := by
  unfold keysOf
  rw [List.filter_append, List.map_append, List.filter_singleton]
  cases own == value <;> simp

variable [LawfulBEq β]

theorem lookup_extended (rows : List (β × List α)) (value other : β) (key : α) :
    (rows.map fun row => if row.1 == value then (row.1, row.2 ++ [key]) else row).lookup other =
      if value == other then (rows.lookup other).map (· ++ [key]) else rows.lookup other := by
  induction rows with
  | nil => simp
  | cons row rest ih =>
    obtain ⟨first, keys⟩ := row
    rw [List.map_cons]
    by_cases own : first = value
    · subst own
      rw [if_pos BEq.rfl, List.lookup_cons, List.lookup_cons, ih]
      by_cases same : other = first
      · simp [same]
      · simp [beq_false_of_ne same, beq_false_of_ne (Ne.symm same)]
    · rw [if_neg (by simpa using own), List.lookup_cons, List.lookup_cons, ih]
      by_cases same : other = first
      · simp [same, beq_false_of_ne (Ne.symm own)]
      · simp [beq_false_of_ne same]

theorem lookup_dictInv (d : List (α × β)) (value : β) :
    (dictInv d).lookup value = if (keysOf d value).isEmpty then none else some (keysOf d value) := by
  induction d using List.reverseRecOn generalizing value with
  | nil => rfl
  | append_singleton d entry ih =>
    obtain ⟨key, own⟩ := entry
    rw [dictInv, List.foldl_append, List.foldl_cons, List.foldl_nil, ← dictInv, keysOf_concat, ih own]
    by_cases known : (keysOf d own).isEmpty = true
    · rw [if_pos known]
      simp only [Option.isSome_none, Bool.false_eq_true, if_false]
      rw [List.lookup_append, ih value]
      by_cases same : own = value
      · subst same
        simp_all
      · have apart : (value == own) = false := beq_false_of_ne (Ne.symm same)
        simp [beq_false_of_ne same, List.lookup_cons, apart]
    · rw [if_neg known]
      simp only [Option.isSome_some, if_true]
      rw [lookup_extended, ih value]
      by_cases same : own = value
      · subst same
        simp [known]
      · simp [beq_false_of_ne same]

end

theorem map_zipIdx {α β : Type} (f : α → β) (xs : List α) : xs.zipIdx.map (fun entry => f entry.1) = xs.map f := by
  have both : xs.zipIdx.map (fun entry => f entry.1) = (xs.zipIdx.map Prod.fst).map f := by
    rw [List.map_map]
    rfl
  rw [both, List.zipIdx_map_fst]

/-! ### One input position -/

section
variable {indexedMappings : List (Nat × Dict)}

/-- What the bracket makes of an index. -/
def bracketOutput (indexedMappings : List (Nat × Dict)) (x : Option Nat) (bracketPos : Nat) : Option Nat :=
  x.bind fun index => (indexedMappings.getD bracketPos (0, [])).2.lookup index

def outputAt (indexedMappings : List (Nat × Dict)) (rows : List Nat) (x : Option Nat) : List Nat :=
  rows.map fun b => (bracketOutput indexedMappings x b).getD 0

theorem exists_bracketOutput {rows : List Nat} {x : Option Nat} (member : x ∈ domainAt indexedMappings rows) :
    ∀ b ∈ rows, ∃ value, bracketOutput indexedMappings x b = some value := by
  cases rows with
  | nil => simp
  | cons first rest =>
    obtain ⟨v, common, rfl⟩ := List.mem_map.mp member
    rw [List.mem_insertionSort, mem_common] at common
    intro b inside
    have key : v ∈ keysAt indexedMappings b := by
      rcases List.mem_cons.mp inside with rfl | later
      · exact common.1
      · exact common.2 b later
    obtain ⟨entry, own, same⟩ := List.mem_map.mp key
    have found : (indexedMappings.getD b (0, [])).2.lookup v ≠ none := by
      rw [Ne, List.lookup_eq_none_iff]
      intro apart
      exact absurd same.symm (by simpa using apart entry own)
    exact Option.ne_none_iff_exists'.mp found

theorem outputsOf_ok {rows : List Nat} {x : Option Nat} (member : x ∈ domainAt indexedMappings rows) :
    outputsOf indexedMappings rows x = .ok (outputAt indexedMappings rows x) := by
  refine mapM_ok fun b inside => ?_
  obtain ⟨value, found⟩ := exists_bracketOutput member b inside
  rw [found, orKeyError_ok_iff]
  exact found

/-- The indexes of a position's domain that give the outputs. -/
def chosen (indexedMappings : List (Nat × Dict)) (outputs : List Nat) (rows : List Nat) : List (Option Nat) :=
  (domainAt indexedMappings rows).filter fun x => outputAt indexedMappings rows x == rows.map fun k => outputs.getD k 0

theorem keysOf_outputs (outputs : List Nat) (rows : List Nat) :
    keysOf ((domainAt indexedMappings rows).map fun x => (x, outputAt indexedMappings rows x))
      (rows.map fun k => outputs.getD k 0) = chosen indexedMappings outputs rows := by
  rw [keysOf, List.filter_map, List.map_map]
  exact List.map_id _

end

/-! ### The inverted pattern -/

section
variable {ids : Pattern}

/-- How the fields of a pattern belong together. -/
def Formed (ids : Pattern) : Prop :=
  ids.domains = (calcInputIndexToBracketPoss (ids.indexedMappings.map (·.1))).map (domainAt ids.indexedMappings)

theorem formed_of_getIds {tree : Tree} (got : tree.getIds = .ok ids) : Formed ids := by
  obtain ⟨entries, _, made⟩ := bind_ok got
  obtain rfl := pure_ok_iff.mp made
  rfl

theorem Formed.domains_getD (formed : Formed ids) {rows : List Nat} {i : Nat}
    (row : (calcInputIndexToBracketPoss (ids.indexedMappings.map (·.1)))[i]? = some rows) :
    ids.domains.getD i [] = domainAt ids.indexedMappings rows := by
  rw [formed, List.getD_eq_getElem?_getD, List.getElem?_map, row]
  rfl

def inverseAt (indexedMappings : List (Nat × Dict)) (rows : List Nat) : List (List Nat × List (Option Nat)) :=
  dictInv ((domainAt indexedMappings rows).map fun x => (x, outputAt indexedMappings rows x))

/-- The inversion of a pattern with brackets. -/
def inverted (ids : Pattern) : InvPattern where
  patternInPosToBracketPos := calcInputIndexToBracketPoss (ids.indexedMappings.map (·.1))
  invMappings := (calcInputIndexToBracketPoss (ids.indexedMappings.map (·.1))).map (inverseAt ids.indexedMappings)

theorem init_eq (formed : Formed ids) :
    InvPattern.init ids = if ids.indexedMappings = [] then .error .valueError else .ok (inverted ids) := by
  unfold InvPattern.init calcPatternPositionsToBracketPositons
  by_cases bare : ids.indexedMappings = []
  · rw [if_pos bare, if_pos (by rw [bare]; rfl)]
    rfl
  · rw [if_neg bare, if_neg (by simpa using bare)]
    refine bind_ok_iff.mpr ⟨_, rfl, bind_ok_iff.mpr ⟨_, ?_, rfl⟩⟩
    refine Eq.trans (mapM_ok fun row member => ?_) (congrArg Except.ok (map_zipIdx (inverseAt ids.indexedMappings) _))
    rw [formed.domains_getD (List.mem_zipIdx_iff_getElem?.mp member)]
    refine bind_ok_iff.mpr ⟨_, mapM_ok fun x inside => ?_, rfl⟩
    rw [outputsOf_ok inside]
    rfl

/-- The output of all brackets at a tuple. -/
def bracketsOutputs (ids : Pattern) (indxs : Tuple) : Except Raised (List Nat) :=
  ids.patternInputToBracketsInput indxs >>= ids.bracketsInputToBracketsOutput

theorem mem_rows {i : Nat} {rows : List Nat}
    (row : (calcInputIndexToBracketPoss (ids.indexedMappings.map (·.1)))[i]? = some rows) (b : Nat) :
    b ∈ rows ↔ ∃ entry, ids.indexedMappings[b]? = some entry ∧ entry.1 = i := by
  rw [calcInputIndexToBracketPoss_eq] at row
  obtain ⟨_, rfl⟩ := getElem?_bracketsByInput.mp row
  rw [mem_bracketsAt, List.getElem?_map, Option.map_eq_some_iff]

theorem inverse_choices (outputs : List Nat) (all : outputs.length = ids.indexedMappings.length) {rows : List Nat} {i : Nat}
    (row : (calcInputIndexToBracketPoss (ids.indexedMappings.map (·.1)))[i]? = some rows) :
    (do
      let key ← rows.mapM fun k => orIndexError outputs[k]?
      orKeyError (((inverted ids).invMappings.getD i []).lookup key)) =
    if (chosen ids.indexedMappings outputs rows).isEmpty then .error .keyError
    else .ok (chosen ids.indexedMappings outputs rows) := by
  have key : rows.mapM (fun k => orIndexError outputs[k]?) = .ok (rows.map fun k => outputs.getD k 0) := by
    refine mapM_ok fun k member => ?_
    obtain ⟨entry, found, _⟩ := (mem_rows row k).mp member
    have inside : k < outputs.length := all ▸ (List.getElem?_eq_some_iff.mp found).1
    rw [orIndexError_ok_iff, List.getD_eq_getElem _ _ inside]
    exact List.getElem?_eq_getElem inside
  have mapping : (inverted ids).invMappings.getD i [] = inverseAt ids.indexedMappings rows := by
    rw [inverted, List.getD_eq_getElem?_getD, List.getElem?_map, row]
    rfl
  rw [key, mapping]
  show orKeyError (List.lookup _ (inverseAt ids.indexedMappings rows)) = _
  rw [inverseAt, lookup_dictInv, keysOf_outputs]
  split
  · rfl
  · rfl

theorem bracketOutputToPatternInput_eq (outputs : List Nat) (all : outputs.length = ids.indexedMappings.length) :
    (inverted ids).bracketOutputToPatternInput outputs =
      if [] ∈ (calcInputIndexToBracketPoss (ids.indexedMappings.map (·.1))).map (chosen ids.indexedMappings outputs) then
        .error .keyError
      else .ok ((calcInputIndexToBracketPoss (ids.indexedMappings.map (·.1))).map (chosen ids.indexedMappings outputs)) := by
  have each : ∀ row ∈ (calcInputIndexToBracketPoss (ids.indexedMappings.map (·.1))).zipIdx, _ := fun row member =>
    inverse_choices outputs all (List.mem_zipIdx_iff_getElem?.mp member)
  split
  · rename_i member
    obtain ⟨rows, inside, none⟩ := List.mem_map.mp member
    obtain ⟨i, row⟩ := List.getElem?_of_mem inside
    cases run : (inverted ids).bracketOutputToPatternInput outputs with
    | error e =>
      obtain ⟨row, inside, failed⟩ := mapM_error run
      have here := each row inside
      rw [failed] at here
      split at here
      · rw [Except.error.inj here]
      · cases here
    | ok choices =>
      have inside : (rows, i) ∈ (inverted ids).patternInPosToBracketPos.zipIdx := List.mem_zipIdx_iff_getElem?.mpr row
      obtain ⟨choice, _, found⟩ := forall₂_mem_left (mapM_ok_iff.mp run) inside
      have here := each (rows, i) inside
      rw [none] at here
      rw [here] at found
      cases found
  · rename_i some
    unfold InvPattern.bracketOutputToPatternInput
    refine Eq.trans (mapM_ok fun row member => ?_) (congrArg Except.ok (map_zipIdx (chosen ids.indexedMappings outputs) _))
    have inside : chosen ids.indexedMappings outputs row.1 ∈
        (calcInputIndexToBracketPoss (ids.indexedMappings.map (·.1))).map (chosen ids.indexedMappings outputs) :=
      List.mem_map_of_mem (List.fst_mem_of_mem_zipIdx member)
    refine (each row member).trans (if_neg ?_)
    rw [List.isEmpty_iff]
    intro none
    exact some (none ▸ inside)

/-- Bracket by bracket. -/
theorem bracketsOutputs_ok_iff {indxs : Tuple} {outputs : List Nat} (all : outputs.length = ids.indexedMappings.length)
    (known : ∀ entry ∈ ids.indexedMappings, entry.1 < indxs.length) :
    bracketsOutputs ids indxs = .ok outputs ↔ ∀ (b : Nat) (entry : Nat × Dict), ids.indexedMappings[b]? = some entry →
      bracketOutput ids.indexedMappings (indxs.getD entry.1 none) b = some (outputs.getD b 0) := by
  have input : ids.patternInputToBracketsInput indxs = .ok (ids.indexedMappings.map fun entry => indxs.getD entry.1 none) := by
    refine mapM_ok fun entry member => ?_
    rw [orIndexError_ok_iff, List.getD_eq_getElem _ _ (known entry member)]
    exact List.getElem?_eq_getElem _
  have zipped : (ids.indexedMappings.map fun entry => indxs.getD entry.1 none).zip (ids.indexedMappings.map (·.2)) =
      ids.indexedMappings.map fun entry => (indxs.getD entry.1 none, entry.2) := List.zip_map'
  rw [bracketsOutputs, input]
  show ids.bracketsInputToBracketsOutput _ = .ok outputs ↔ _
  rw [Pattern.bracketsInputToBracketsOutput, zipped, mapM_ok_iff, List.forall₂_map_left_iff]
  simp only [orKeyError_ok_iff]
  rw [List.forall₂_iff_get, and_iff_right all.symm]
  constructor
  · intro each b entry found
    obtain ⟨inside, rfl⟩ := List.getElem?_eq_some_iff.mp found
    have inside' : b < outputs.length := all ▸ inside
    rw [bracketOutput, List.getD_eq_getElem ids.indexedMappings _ inside, List.getD_eq_getElem outputs _ inside']
    exact each b inside inside'
  · intro each b inside inside'
    have here := each b _ (List.getElem?_eq_getElem inside)
    rw [bracketOutput, List.getD_eq_getElem ids.indexedMappings _ inside, List.getD_eq_getElem outputs _ inside'] at here
    exact here

/-- A tuple of the domain has the outputs exactly if every position of it has those of its brackets. -/
theorem keptAll_outputs (formed : Formed ids) {outputs : List Nat} (all : outputs.length = ids.indexedMappings.length)
    {indxs : Tuple} (member : indxs ∈ MixedRadix.product ids.domains) :
    MixedRadix.keptAll ((calcInputIndexToBracketPoss (ids.indexedMappings.map (·.1))).map fun rows x =>
      outputAt ids.indexedMappings rows x == rows.map fun k => outputs.getD k 0) indxs =
      decide (bracketsOutputs ids indxs = .ok outputs) := by
  have places := MixedRadix.mem_product.mp member
  rw [formed, List.forall₂_map_right_iff] at places
  have rowAt : ∀ entry ∈ ids.indexedMappings, ∃ rows,
      (calcInputIndexToBracketPoss (ids.indexedMappings.map (·.1)))[entry.1]? = some rows := by
    intro entry inside
    have position : entry.1 ∈ ids.indexedMappings.map (·.1) := List.mem_map_of_mem inside
    rw [calcInputIndexToBracketPoss_eq]
    exact ⟨_, getElem?_bracketsByInput.mpr ⟨lt_inputCount position, rfl⟩⟩
  have known : ∀ entry ∈ ids.indexedMappings, entry.1 < indxs.length := by
    intro entry inside
    obtain ⟨rows, row⟩ := rowAt entry inside
    exact places.length_eq ▸ (List.getElem?_eq_some_iff.mp row).1
  have outputs_iff : ∀ (i : Nat) (rows : List Nat) (x : Option Nat),
      (calcInputIndexToBracketPoss (ids.indexedMappings.map (·.1)))[i]? = some rows → indxs[i]? = some x →
      ((outputAt ids.indexedMappings rows x == rows.map fun k => outputs.getD k 0) = true ↔
        ∀ b ∈ rows, bracketOutput ids.indexedMappings x b = some (outputs.getD b 0)) := by
    intro i rows x row here
    obtain ⟨inside, rfl⟩ := List.getElem?_eq_some_iff.mp here
    obtain ⟨inside', rfl⟩ := List.getElem?_eq_some_iff.mp row
    have inDomain := places.get inside inside'
    rw [beq_iff_eq, outputAt, List.map_inj_left]
    refine forall₂_congr fun b belongs => ?_
    obtain ⟨value, found⟩ := exists_bracketOutput inDomain b belongs
    simp only [List.get_eq_getElem] at found
    rw [found, Option.getD_some, Option.some.injEq]
  rw [Bool.eq_iff_iff, decide_eq_true_iff, MixedRadix.keptAll_iff, bracketsOutputs_ok_iff all known]
  constructor
  · intro each b entry found
    have inside := List.mem_of_getElem? found
    obtain ⟨rows, row⟩ := rowAt entry inside
    have here : indxs[entry.1]? = some (indxs.getD entry.1 none) := by
      rw [List.getD_eq_getElem _ _ (known entry inside)]
      exact List.getElem?_eq_getElem _
    refine (outputs_iff _ rows _ row here).mp ?_ b ((mem_rows row b).mpr ⟨entry, found, rfl⟩)
    apply each entry.1 (fun x => outputAt ids.indexedMappings rows x == rows.map fun k => outputs.getD k 0) _ ?_ here
    rw [List.getElem?_map, row]
    rfl
  · intro each i keep x kept here
    rw [List.getElem?_map, Option.map_eq_some_iff] at kept
    obtain ⟨rows, row, rfl⟩ := kept
    refine (outputs_iff i rows x row here).mpr fun b belongs => ?_
    obtain ⟨entry, found, rfl⟩ := (mem_rows row b).mp belongs
    have own := each b entry found
    rwa [List.getD_eq_getElem?_getD, here, Option.getD_some] at own

theorem expandPatternInput_nil : ids.expandPatternInput [] = .ok (MixedRadix.product ids.domains) := by
  have raw : Pattern.rawInputToInput [] ids.domains.length = List.replicate ids.domains.length none := rfl
  rw [Pattern.expandPatternInput, raw, expandInput_ok (by simp)]
  congr 2
  refine List.ext_getElem (by simp) fun i inside inside' => ?_
  simp [List.getElem?_eq_getElem inside']

/-- What a pattern is inverted to finds, for the outputs of the brackets, exactly the tuples of the domain that have
them, in the order of the domain. A pattern without brackets is not inverted. -/
theorem invert_finds {tree : Tree} (got : tree.getIds = .ok ids) :
    (ids.indexedMappings = [] → InvPattern.init ids = .error .valueError) ∧
    (ids.indexedMappings ≠ [] → ∃ inv tuples, InvPattern.init ids = .ok inv ∧ ids.expandPatternInput [] = .ok tuples ∧
      ∀ outputs : List Nat, outputs.length = ids.indexedMappings.length →
        inv.bracketOutputToPatternInputs outputs =
          if tuples.filter (fun indxs => bracketsOutputs ids indxs = .ok outputs) = [] then .error .keyError
          else .ok (tuples.filter fun indxs => bracketsOutputs ids indxs = .ok outputs)) := by
  have formed := formed_of_getIds got
  rw [init_eq formed]
  refine ⟨fun bare => if_pos bare, fun bracketed => ?_⟩
  refine ⟨inverted ids, MixedRadix.product ids.domains, if_neg bracketed, expandPatternInput_nil, fun outputs all => ?_⟩
  have filtered : (MixedRadix.product ids.domains).filter (fun indxs => bracketsOutputs ids indxs = .ok outputs) =
      MixedRadix.product ((calcInputIndexToBracketPoss (ids.indexedMappings.map (·.1))).map
        (chosen ids.indexedMappings outputs)) := by
    rw [← List.filter_congr fun indxs member => keptAll_outputs formed all member, ← MixedRadix.product_filter]
    · rw [formed, List.zipWith_map, List.zipWith_self]
      rfl
    · rw [formed, List.length_map, List.length_map]
  rw [InvPattern.bracketOutputToPatternInputs, bracketOutputToPatternInput_eq outputs all, filtered]
  simp only [MixedRadix.product_eq_nil_iff]
  split
  · rfl
  · rfl

end

theorem invert_finds_gap : ∃ ids inv tuples, gap.getIds = .ok ids ∧ InvPattern.init ids = .ok inv ∧
    ids.expandPatternInput [] = .ok tuples ∧ inv.bracketOutputToPatternInputs [5, 7] =
      .ok (tuples.filter fun indxs => bracketsOutputs ids indxs = .ok [5, 7]) := by
  have computed : gap.getIds.map (fun ids => (ids.indexedMappings.length,
      (ids.expandPatternInput []).map fun tuples =>
        (tuples.filter fun indxs => bracketsOutputs ids indxs = .ok [5, 7]).length)) = .ok (2, .ok 2) := by
    decide +kernel
  obtain ⟨ids, got, facts⟩ := map_ok computed
  obtain ⟨brackets, listed⟩ := Prod.mk.inj facts
  obtain ⟨inv, tuples, inverts, expanded, finds⟩ := (invert_finds got).2 (List.ne_nil_of_length_pos (by omega))
  rw [expanded] at listed
  have count : (tuples.filter fun indxs => bracketsOutputs ids indxs = .ok [5, 7]).length = 2 := Except.ok.inj listed
  have some := finds [5, 7] brackets.symm
  rw [if_neg (List.ne_nil_of_length_pos (by omega))] at some
  exact ⟨ids, inv, tuples, got, inverts, expanded, some⟩

end MonitorEventing.Ids
