import MonitorEventing.Tools.Agreement

/-!
# The same values

With the same brackets and domains, the script lists the tuples of the constructor's domain, and what it computes
of a tuple is what `eval` gives. Arguments it is given restrict the listing to the tuples that have them.
-/

namespace MonitorEventing.Ids

open DeviceId

/-! ### Tuples -/

/-- `None` for an unspecified index. -/
def indexOption (v : Int) : Option Nat := if 0 ≤ v then some v.toNat else none

theorem indexOption_eq_some_iff {v : Int} {index : Nat} : indexOption v = some index ↔ v = index := by
  unfold indexOption
  split
  · rw [Option.some.injEq]
    omega
  · simp only [reduceCtorEq, false_iff]
    omega

def tupleOf (p : DeviceIdPattern) (x : PatternIndex) : Tuple := (List.range p.dim).map fun i => indexOption (x.get i)

theorem getElem?_tupleOf {p : DeviceIdPattern} {x : PatternIndex} {i : Nat} (inside : i < p.dim) :
    (tupleOf p x)[i]? = some (indexOption (x.get i)) := by
  simp [tupleOf, inside]

theorem getElem?_options {d : PatternInputDomain} {k : Nat} (inside : k < d.size) :
    (options d)[k]? = some (indexOption (d.get k)) := by
  unfold PatternInputDomain.size at inside
  unfold options PatternInputDomain.get
  split at inside
  · obtain rfl : k = 0 := by omega
    rename_i free
    rw [if_pos free, if_pos free]
    rfl
  · rename_i bound
    rw [if_neg bound, if_neg bound, List.getElem?_map, List.getElem?_eq_getElem inside, List.getD_eq_getElem _ _ inside]
    exact congrArg some (indexOption_eq_some_iff.mpr rfl).symm

theorem length_options (d : PatternInputDomain) : (options d).length = d.size := by
  unfold options PatternInputDomain.size
  split
  · rfl
  · exact List.length_map _

/-- Both count the domain in one order, the last input position first. -/
theorem domain_tuples {p : DeviceIdPattern}
    (small : (p.patternInputDomains.map PatternInputDomain.size).prod < 2 ^ 32) :
    p.domain.map (tupleOf p) = MixedRadix.product (p.patternInputDomains.map options) := by
  have sizes : (p.patternInputDomains.map options).map List.length = CartesianProductRange.sizes p.patternInputDomains := by
    rw [List.map_map, CartesianProductRange.sizes]
    exact List.map_congr_left fun d _ => length_options d
  have count : p.domain.length = (CartesianProductRange.sizes p.patternInputDomains).prod := by
    rw [DeviceIdPattern.length_domain, Nat.mod_eq_of_lt small, CartesianProductRange.sizes]
  refine List.ext_getElem? fun k => ?_
  rcases Nat.lt_or_ge k (CartesianProductRange.sizes p.patternInputDomains).prod with below | beyond
  · obtain ⟨choices, found, length, digits⟩ :=
      @MixedRadix.getElem?_product _ (p.patternInputDomains.map options) k (sizes ▸ below)
    have here : p.domain[k]? = some (CartesianProductRange.deref p.patternInputDomains k) := by
      have inside : k < CartesianProductRange.size p.patternInputDomains := by
        rwa [CartesianProductRange.size_eq, CartesianProductRange.sizes, Nat.mod_eq_of_lt small]
      simp [DeviceIdPattern.domain, CartesianProductRange.elements, inside]
    rw [found, List.getElem?_map, here, Option.map_some, Option.some.injEq]
    rw [List.length_map] at length
    refine List.ext_getElem? fun i => ?_
    rcases Nat.lt_or_ge i p.dim with inside | past
    · have inside : i < p.patternInputDomains.length := inside
      have axis : p.patternInputDomains[i]? = some (p.patternInputDomains.getD i .any) := DeviceIdPattern.dimDomain_eq inside
      rw [getElem?_tupleOf inside, digits i (options (p.patternInputDomains.getD i .any)) (by rw [List.getElem?_map, axis]; rfl),
        CartesianProductRange.get_deref, if_pos inside, sizes]
      have positive := CartesianProductRange.size_pos_of_prod inside below
      exact (getElem?_options (MixedRadix.digit_lt k (CartesianProductRange.sizes_get inside) positive)).symm
    · rw [List.getElem?_eq_none (by simpa [tupleOf] using past), List.getElem?_eq_none (by rw [length]; exact past)]
  · rw [List.getElem?_eq_none (by simpa [count] using beyond), List.getElem?_eq_none]
    rw [MixedRadix.length_product, sizes]
    exact beyond

/-! ### What is computed of a tuple -/

/-- The numbers in place of the brackets. -/
structure Numbers (p : DeviceIdPattern) (x : PatternIndex) (numerals : List Nat) : Prop where
  length : numerals.length = p.bracketPosToInputPos.length
  each : ∀ (k inputPos : Nat) (mapping : BracketMap), p.bracketPosToInputPos[k]? = some inputPos →
    p.bracketInputMappings[k]? = some mapping →
      0 ≤ x.get inputPos ∧ ∃ n, mapping[(x.get inputPos).toNat]? = some n ∧ numerals[k]? = some n

section
variable {p : DeviceIdPattern} {x : PatternIndex}

theorem exists_mapping {k : Nat} (inside : k < p.bracketPosToInputPos.length) :
    ∃ mapping, p.bracketInputMappings[k]? = some mapping :=
  ⟨_, List.getElem?_eq_getElem (p.consistent.mappings ▸ inside)⟩

theorem Numbers.unique {first second : List Nat} (one : Numbers p x first) (two : Numbers p x second) : first = second := by
  refine List.ext_getElem? fun k => ?_
  rcases Nat.lt_or_ge k p.bracketPosToInputPos.length with inside | beyond
  · obtain ⟨mapping, mapped⟩ := exists_mapping inside
    obtain ⟨_, n, read, here⟩ := one.each k _ mapping (List.getElem?_eq_getElem inside) mapped
    obtain ⟨_, n', read', here'⟩ := two.each k _ mapping (List.getElem?_eq_getElem inside) mapped
    rw [here, here', ← read, ← read']
  · rw [List.getElem?_eq_none (one.length ▸ beyond), List.getElem?_eq_none (two.length ▸ beyond)]

theorem Numbers.accepts {numerals : List Nat} (numbers : Numbers p x numerals) : p.Accepts x := by
  rw [DeviceIdPattern.accepts_iff]
  intro i inside bound
  have each : ∀ b ∈ bracketsAt p.bracketPosToInputPos i, ∀ m, p.bracketInputMappings[b]? = some m →
      0 ≤ x.get i ∧ (x.get i).toNat ∈ m := by
    intro b member m mapped
    obtain ⟨positive, n, read, _⟩ := numbers.each b i m (mem_bracketsAt.mp member) mapped
    exact ⟨positive, Std.TreeMap.mem_iff_isSome_getElem?.mpr (by rw [read]; rfl)⟩
  have used := DeviceIdPattern.isBound_iff.mp bound
  obtain ⟨b, rest, here⟩ := List.exists_cons_of_ne_nil used
  have member : b ∈ bracketsAt p.bracketPosToInputPos i := here ▸ List.mem_cons_self
  obtain ⟨mapping, mapped⟩ := exists_mapping (List.getElem?_eq_some_iff.mp (mem_bracketsAt.mp member)).1
  refine ⟨(x.get i).toNat, ?_, (Int.toNat_of_nonneg (each b member mapping mapped).1).symm⟩
  rw [(DeviceIdPattern.isInputDomain inside).mem used]
  exact fun b member m mapped => (each b member m mapped).2

theorem eval_ok_iff_numbers {v : String} :
    p.eval x = .ok v ↔ ∃ numerals, Numbers p x numerals ∧ v = interleave p.patternNonBracketFragments (numerals.map toString) := by
  constructor
  · intro h
    obtain ⟨numerals, text, length, each⟩ := DeviceIdPattern.eval_text h
    exact ⟨numerals, ⟨length, each⟩, text⟩
  · intro h
    obtain ⟨numerals, numbers, rfl⟩ := h
    obtain ⟨v, value⟩ := DeviceIdPattern.eval_ok_iff.mpr numbers.accepts
    obtain ⟨numerals', text, length, each⟩ := DeviceIdPattern.eval_text value
    rw [value, text, numbers.unique ⟨length, each⟩]

variable {ids : Pattern}

theorem SamePattern.isBound (same : SamePattern ids p) {entry : Nat × Dict} (member : entry ∈ ids.indexedMappings) :
    p.IsBound entry.1 := by
  rw [DeviceIdPattern.IsBound, ← same.positions]
  exact List.mem_map_of_mem member

theorem numbers_iff (same : SamePattern ids p) {numerals : List Nat} :
    List.Forall₂ (fun entry n => ((indexOption (x.get entry.1)).bind fun index => entry.2.lookup index) = some n)
      ids.indexedMappings numerals ↔ Numbers p x numerals := by
  have read : ∀ (v : Int) (d : Dict) (m : BracketMap), SameMapping d m → ∀ n,
      ((indexOption v).bind fun index => d.lookup index) = some n ↔ 0 ≤ v ∧ m[v.toNat]? = some n := by
    intro v d m sameMapping n
    unfold indexOption
    split
    · rename_i positive
      rw [Option.bind_some, sameMapping.same, and_iff_right positive]
    · rename_i negative
      simp [negative]
  have places := congrArg List.length same.positions
  rw [List.length_map] at places
  have entries : ∀ (k : Nat) (inside : k < ids.indexedMappings.length), ∃ m, p.bracketInputMappings[k]? = some m ∧
      p.bracketPosToInputPos[k]? = some ids.indexedMappings[k].1 ∧ SameMapping ids.indexedMappings[k].2 m := by
    intro k inside
    obtain ⟨m, mapped⟩ := exists_mapping (p := p) (places ▸ inside)
    obtain ⟨inside', here⟩ := List.getElem?_eq_some_iff.mp mapped
    have mapping := same.mappings.get (by simpa using inside) inside'
    simp only [List.get_eq_getElem, List.getElem_map, here] at mapping
    exact ⟨m, mapped, by rw [← same.positions, List.getElem?_map, List.getElem?_eq_getElem inside]; rfl, mapping⟩
  constructor
  · intro all
    refine ⟨all.length_eq.symm.trans places, fun k inputPos m position mapped => ?_⟩
    have inside : k < ids.indexedMappings.length := places ▸ (List.getElem?_eq_some_iff.mp position).1
    have inside' : k < numerals.length := all.length_eq ▸ inside
    obtain ⟨m', mapped', position', sameMapping⟩ := entries k inside
    obtain rfl := Option.some.inj (mapped.symm.trans mapped')
    obtain rfl := Option.some.inj (position.symm.trans position')
    have here := all.get inside inside'
    obtain ⟨positive, value⟩ := (read _ _ _ sameMapping _).mp here
    exact ⟨positive, _, value, List.getElem?_eq_getElem inside'⟩
  · intro numbers
    refine List.forall₂_iff_get.mpr ⟨places.trans numbers.length.symm, fun k inside inside' => ?_⟩
    obtain ⟨m, mapped, position, sameMapping⟩ := entries k inside
    obtain ⟨positive, n, value, here⟩ := numbers.each k _ m position mapped
    rw [List.getElem?_eq_getElem inside', Option.some.injEq] at here
    rw [List.get_eq_getElem, List.get_eq_getElem, here]
    exact (read _ _ _ sameMapping n).mpr ⟨positive, value⟩

theorem output_ok_iff (same : SamePattern ids p) {indxs : Tuple}
    (reads : ∀ i, p.IsBound i → indxs[i]? = some (indexOption (x.get i))) {numerals : List Nat} :
    (ids.patternInputToBracketsInput indxs >>= ids.bracketsInputToBracketsOutput) = .ok numerals ↔ Numbers p x numerals := by
  have input : ids.patternInputToBracketsInput indxs =
      .ok (ids.indexedMappings.map fun entry => indexOption (x.get entry.1)) := by
    refine mapM_ok fun entry member => ?_
    rw [reads entry.1 (same.isBound member)]
    rfl
  have zipped : (ids.indexedMappings.map fun entry => indexOption (x.get entry.1)).zip (ids.indexedMappings.map (·.2)) =
      ids.indexedMappings.map fun entry => (indexOption (x.get entry.1), entry.2) := List.zip_map'
  rw [input, ← numbers_iff same]
  show ids.bracketsInputToBracketsOutput _ = .ok numerals ↔ _
  rw [Pattern.bracketsInputToBracketsOutput, zipped, mapM_ok_iff, List.forall₂_map_left_iff]
  simp only [orKeyError_ok_iff]

/-- What the script computes of a tuple is what `eval` gives of one with the same bound indexes. -/
theorem valueAt_same (same : SamePattern ids p) {indxs : Tuple}
    (reads : ∀ i, p.IsBound i → indxs[i]? = some (indexOption (x.get i))) (v : String) :
    ids.valueAt indxs = .ok v ↔ p.eval x = .ok v := by
  have composed : ids.valueAt indxs =
      ((ids.patternInputToBracketsInput indxs >>= ids.bracketsInputToBracketsOutput) >>= fun bracketsOutput =>
        pure (ids.bracketsOutputToStringOutput bracketsOutput)) := by
    rw [bind_assoc]
    rfl
  rw [composed, bind_ok_iff, eval_ok_iff_numbers]
  refine exists_congr fun numerals => and_congr (output_ok_iff same reads) ?_
  rw [pure_ok_iff, Pattern.bracketsOutputToStringOutput, same.strings, eq_comm]

end

/-! ### Arguments -/

/-- The tuple has the arguments that are given. -/
def agrees (args : Tuple) (x : PatternIndex) : Bool :=
  args.zipIdx.all fun entry => entry.1.all fun index => x.get entry.2 == index

/-- Every argument that is given is in the domain of its position. -/
structure Given (p : DeviceIdPattern) (args : Tuple) : Prop where
  short : args.length ≤ p.dim
  inside : ∀ i index, args[i]? = some (some index) → index ∈ (p.dimDomain i).domain

theorem expandInput_ok {indxs : Tuple} {domains : List (List (Option Nat))} (known : indxs.length ≤ domains.length) :
    Pattern.expandInput indxs domains =
      .ok (MixedRadix.product (indxs.zipIdx.map fun entry =>
        (entry.1.map fun index => [some index]).getD (domains.getD entry.2 []))) := by
  refine bind_ok_iff.mpr ⟨_, mapM_ok fun entry member => ?_, rfl⟩
  obtain ⟨index, i⟩ := entry
  have inside : i < domains.length :=
    (List.getElem?_eq_some_iff.mp (List.mem_zipIdx_iff_getElem?.mp member)).1.trans_le known
  cases index with
  | none => simp [List.getElem?_eq_getElem inside]
  | some index => rfl

/-- What the arguments let through at a position. -/
def keepAt (args : Tuple) (i : Nat) : Option Nat → Bool := fun index =>
  match args[i]?.join with
  | some given => index == some given
  | none => true

theorem agrees_getElem_iff {args : Tuple} {x : PatternIndex} :
    agrees args x = true ↔ ∀ (i index : Nat), args[i]? = some (some index) → x.get i = index := by
  simp only [agrees, List.all_eq_true, Prod.forall, List.mk_mem_zipIdx_iff_getElem?]
  constructor
  · intro all i index given
    simpa using all (some index) i given
  · intro all index i given
    cases index with
    | none => rfl
    | some index => simpa using all i index given

theorem keptAll_tupleOf {p : DeviceIdPattern} {args : Tuple} (short : args.length ≤ p.dim) (x : PatternIndex) :
    MixedRadix.keptAll ((List.range p.dim).map (keepAt args)) (tupleOf p x) = agrees args x := by
  rw [Bool.eq_iff_iff, agrees_getElem_iff]
  simp only [MixedRadix.keptAll, tupleOf, List.zipWith_map, List.zipWith_self, List.all_map, List.all_eq_true,
    List.mem_range, Function.comp_apply, id]
  constructor
  · intro all i index given
    have inside : i < p.dim := (List.getElem?_eq_some_iff.mp given).1.trans_le short
    have kept := all i inside
    simp only [keepAt, given, Option.join_some, beq_iff_eq] at kept
    exact indexOption_eq_some_iff.mp kept
  · intro all i inside
    unfold keepAt
    split
    · rename_i given here
      rw [beq_iff_eq, indexOption_eq_some_iff]
      exact all i given (by simpa [Option.join_eq_some_iff] using here)
    · rfl

theorem length_rawInputToInput {args : Tuple} {n : Nat} (short : args.length ≤ n) :
    (Pattern.rawInputToInput args n).length = n := by
  simp [Pattern.rawInputToInput, short]

theorem getElem?_rawInputToInput {args : Tuple} {n i : Nat} (inside : i < n) :
    (Pattern.rawInputToInput args n)[i]? = some args[i]?.join := by
  unfold Pattern.rawInputToInput
  rcases Nat.lt_or_ge i args.length with given | open_
  · rw [List.getElem?_append_left given, List.getElem?_eq_getElem given]
    rfl
  · rw [List.getElem?_append_right open_, List.getElem?_replicate, if_pos (by omega), List.getElem?_eq_none open_]
    rfl

theorem mem_options {p : DeviceIdPattern} {i index : Nat} (member : index ∈ (p.dimDomain i).domain) :
    i < p.dim ∧ (options (p.dimDomain i)).filter (· == some index) = [some index] := by
  have inside : i < p.dim := by
    by_contra beyond
    rw [DeviceIdPattern.dimDomain, List.getD_eq_default _ _ (Nat.le_of_not_lt beyond)] at member
    cases member
  have isDomain := DeviceIdPattern.isInputDomain inside
  have bound : (p.dimDomain i).unspecified = false := by
    apply isDomain.bound
    intro unused
    rw [isDomain.free unused] at member
    cases member
  have once : (options (p.dimDomain i)).Nodup := by
    rw [options, bound, if_neg Bool.false_ne_true]
    exact List.Nodup.map (Option.some_injective _) (isDomain.strict.imp Nat.ne_of_lt)
  have here : some index ∈ options (p.dimDomain i) := by
    rw [options, bound, if_neg Bool.false_ne_true]
    exact List.mem_map_of_mem member
  refine ⟨inside, ?_⟩
  rw [List.filter_beq, List.count_eq_one_of_mem once here]
  rfl

section
variable {p : DeviceIdPattern} {ids : Pattern}

theorem expandPatternInput_same (same : SamePattern ids p)
    (small : (p.patternInputDomains.map PatternInputDomain.size).prod < 2 ^ 32) {args : Tuple} (given : Given p args) :
    ids.expandPatternInput args = .ok ((p.domain.filter (agrees args)).map (tupleOf p)) := by
  have dims : ids.domains.length = p.dim := by rw [same.domains, List.length_map, DeviceIdPattern.dim]
  have raw := length_rawInputToInput given.short
  have choices : (Pattern.rawInputToInput args p.dim).zipIdx.map (fun entry =>
      (entry.1.map fun index => [some index]).getD (ids.domains.getD entry.2 [])) =
      ((List.range p.dim).map (keepAt args)).zipWith List.filter (p.patternInputDomains.map options) := by
    refine List.ext_getElem (by simpa [DeviceIdPattern.dim] using raw) fun i inside inside' => ?_
    have inside : i < p.dim := by simpa [raw] using inside
    have here := @getElem?_rawInputToInput args p.dim i inside
    obtain ⟨place, here⟩ := List.getElem?_eq_some_iff.mp here
    have axis : (p.patternInputDomains.map options)[i]? = some (options (p.dimDomain i)) := by
      rw [List.getElem?_map, DeviceIdPattern.dimDomain_eq inside]
      rfl
    obtain ⟨place', axis'⟩ := List.getElem?_eq_some_iff.mp axis
    simp only [List.getElem_map, List.getElem_zipIdx, List.getElem_zipWith, List.getElem_range, Nat.zero_add]
    rw [here, same.domains, List.getD_eq_getElem?_getD, axis, Option.getD_some]
    simp only [List.getElem_map] at axis'
    rw [axis']
    cases read : args[i]?.join with
    | none =>
      have all : keepAt args i = fun _ => true := by
        funext index
        simp [keepAt, read]
      rw [all, List.filter_true]
      rfl
    | some index =>
      have only : keepAt args i = (· == some index) := by
        funext other
        simp [keepAt, read]
      rw [only, (mem_options (given.inside i index (by simpa [Option.join_eq_some_iff] using read))).2]
      rfl
  rw [Pattern.expandPatternInput, dims, expandInput_ok (by rw [raw, dims]), choices,
    MixedRadix.product_filter (by simp [DeviceIdPattern.dim]), ← domain_tuples small, List.filter_map]
  congr 3
  funext x
  exact keptAll_tupleOf given.short x

/-- The script lists, for the arguments it is given, the tuples of the domain that have them, each with what
`eval` gives of it, in the order of the domain. -/
theorem pairs_same (same : SamePattern ids p)
    (small : (p.patternInputDomains.map PatternInputDomain.size).prod < 2 ^ 32) {args : Tuple} (given : Given p args) :
    ∃ texts, (p.domain.filter (agrees args)).mapM p.eval = .ok texts ∧ ids.values args = .ok texts ∧
      ids.pairs args = .ok (((p.domain.filter (agrees args)).map (tupleOf p)).zip texts) := by
  obtain ⟨text, evaluated⟩ := DeviceIdPattern.evaluated_domain p
  have each : ∀ x ∈ p.domain.filter (agrees args), p.eval x = .ok (text x) :=
    fun x member => evaluated x (List.mem_of_mem_filter member)
  have valued : ∀ x ∈ p.domain.filter (agrees args), ids.valueAt (tupleOf p x) = .ok (text x) := fun x member =>
    (valueAt_same same (fun i bound => getElem?_tupleOf (p.consistent.positions i bound)) _).mpr (each x member)
  have expanded := expandPatternInput_same same small given
  refine ⟨(p.domain.filter (agrees args)).map text, mapM_ok each, ?_, ?_⟩
  · refine bind_ok_iff.mpr ⟨_, expanded, ?_⟩
    rw [mapM_ok_iff, List.forall₂_map_left_iff, List.forall₂_map_right_iff, List.forall₂_same]
    exact valued
  · refine bind_ok_iff.mpr ⟨_, expanded, ?_⟩
    rw [List.zip_map', mapM_ok_iff, List.forall₂_map_left_iff, List.forall₂_map_right_iff, List.forall₂_same]
    exact fun x member => bind_ok_iff.mpr ⟨_, valued x member, rfl⟩

theorem expandPatternInput_full {ns : List Nat} (full : ids.domains.length ≤ ns.length) :
    ids.expandPatternInput (ns.map some) = .ok [ns.map some] := by
  have raw : Pattern.rawInputToInput (ns.map some) ids.domains.length = ns.map some := by
    simp [Pattern.rawInputToInput, full]
  rw [Pattern.expandPatternInput, raw]
  refine bind_ok_iff.mpr ⟨(ns.map some).zipIdx.map fun entry => [entry.1], mapM_ok fun entry member => ?_, ?_⟩
  · obtain ⟨index, _, same⟩ := List.mem_map.mp (List.fst_mem_of_mem_zipIdx member)
    rw [← same]
  · have single : (ns.map some).zipIdx.map (fun entry => [entry.1]) = (ns.map some).map fun index => [index] := by
      have split : (ns.map some).zipIdx.map (fun entry => [entry.1]) =
          ((ns.map some).zipIdx.map Prod.fst).map fun index => [index] := by rw [List.map_map]; rfl
      rw [split, List.zipIdx_map_fst]
    rw [pure_ok_iff, single, MixedRadix.product_singletons]

end

/-! ### The patterns of both -/

theorem agrees_nil (x : PatternIndex) : agrees [] x = true := rfl

def numeral (n : Nat) : Number := ⟨Nat.toDigits 10 n, Nat.toDigits_ne_nil, fun _ => Text.isDigit_of_mem_toDigits⟩

/-- A shifted bracket at position 2, a constant one at 0 and none at 1. -/
def gap : Tree where
  head := some ⟨"GPU_".toList, by decide, by decide⟩
  rest := [
    (.properIndexedMap (numeral 2)
        ⟨.properMap (.properRange (numeral 1) (numeral 2)) (.properRange (numeral 5) (numeral 6)), []⟩,
      some ⟨['_'], by decide, by decide⟩),
    (.properIndexedMap (numeral 0) ⟨.properMap (.properRange (numeral 3) (numeral 4)) (.number (numeral 7)), []⟩, none)]

theorem gap_text : String.ofList gap.text = "GPU_[2|1-2:5-6]_[0|3-4:7]" := by decide

theorem gap_plain : gap.Plain := ⟨by decide, by decide⟩

/-- Whatever arguments the script is given, it lists the tuples of the constructor's domain that have them and what
`eval` gives of each, in the same order; without arguments its values are `values`. -/
theorem values_agree {tree : Tree} (plain : tree.Plain) {p : DeviceIdPattern}
    (built : DeviceIdPattern.ofString (String.ofList tree.text) = .ok p)
    (small : (p.patternInputDomains.map PatternInputDomain.size).prod < 2 ^ 32) :
    ∃ ids, tree.getIds = .ok ids ∧ (∃ texts, p.values = .ok texts ∧ ids.values [] = .ok texts) ∧
      ∀ args, Given p args → ∃ texts, (p.domain.filter (agrees args)).mapM p.eval = .ok texts ∧
        ids.values args = .ok texts ∧
        ids.pairs args = .ok (((p.domain.filter (agrees args)).map (tupleOf p)).zip texts) := by
  obtain ⟨ids, got, same⟩ := tree.getIds_same plain built
  refine ⟨ids, got, ?_, fun args given => pairs_same same small given⟩
  obtain ⟨texts, evaluated, listed, _⟩ := pairs_same same small (⟨Nat.zero_le _, by simp⟩ : Given p [])
  rw [List.filter_eq_self.mpr fun x _ => agrees_nil x] at evaluated
  exact ⟨texts, evaluated, listed⟩

/-- With an index for the first position only, and the second used by no bracket. -/
theorem values_agree_gap : ∃ p ids, DeviceIdPattern.ofString (String.ofList gap.text) = .ok p ∧
    gap.getIds = .ok ids ∧ p.values = .ok ["GPU_5_7", "GPU_6_7", "GPU_5_7", "GPU_6_7"] ∧
    ids.values [] = .ok ["GPU_5_7", "GPU_6_7", "GPU_5_7", "GPU_6_7"] ∧
    ids.pairs [some 4] = .ok [([some 4, none, some 1], "GPU_5_7"), ([some 4, none, some 2], "GPU_6_7")] := by
  have run : (DeviceIdPattern.ofString (String.ofList gap.text)).map (fun p =>
      (decide (p.patternInputDomains.map PatternInputDomain.size = [2, 1, 2] ∧ p.dim = 3 ∧ 4 ∈ (p.dimDomain 0).domain),
        decide (p.values = .ok ["GPU_5_7", "GPU_6_7", "GPU_5_7", "GPU_6_7"]),
        decide ((p.domain.filter (agrees [some 4])).mapM p.eval = .ok ["GPU_5_7", "GPU_6_7"]),
        decide ((p.domain.filter (agrees [some 4])).map (tupleOf p) = [[some 4, none, some 1], [some 4, none, some 2]]))) =
      .ok (true, true, true, true) := by
    rw [gap_text]
    decide +kernel
  obtain ⟨p, built, facts⟩ := map_ok run
  simp only [Prod.mk.injEq, decide_eq_true_eq] at facts
  obtain ⟨⟨sizes, dim, four⟩, values, evaluated, tuples⟩ := facts
  obtain ⟨ids, got, ⟨texts, constructed, listed⟩, partly⟩ := values_agree gap_plain built (by rw [sizes]; decide)
  have given : Given p [some 4] := by
    refine ⟨by rw [dim]; decide, fun i index read => ?_⟩
    cases i with
    | zero =>
      obtain rfl := Option.some.inj (Option.some.inj read)
      exact four
    | succ i => cases read
  obtain ⟨texts', evaluated', -, paired⟩ := partly [some 4] given
  obtain rfl := Except.ok.inj (values.symm.trans constructed)
  obtain rfl := Except.ok.inj (evaluated.symm.trans evaluated')
  rw [tuples] at paired
  exact ⟨p, ids, built, got, values, listed, paired⟩

/-- At an index for every input position, in the domain or not, both give the same value or none. -/
theorem evalAt_agrees {tree : Tree} (plain : tree.Plain) {p : DeviceIdPattern}
    (built : DeviceIdPattern.ofString (String.ofList tree.text) = .ok p) :
    ∃ ids, tree.getIds = .ok ids ∧ ∀ ns : List Nat, p.dim ≤ ns.length → ∀ v,
      ids.evalAt (ns.map some) = .ok v ↔ p.eval (.ofList (ns.map Int.ofNat)) = .ok v := by
  obtain ⟨ids, got, same⟩ := tree.getIds_same plain built
  refine ⟨ids, got, fun ns full v => ?_⟩
  have dims : ids.domains.length = p.dim := by rw [same.domains, List.length_map, DeviceIdPattern.dim]
  have computed : ids.evalAt (ns.map some) = ids.valueAt (ns.map some) := by
    rw [Pattern.evalAt, expandPatternInput_full (dims ▸ full)]
    rfl
  rw [computed]
  apply valueAt_same same
  intro i bound
  have inside : i < ns.length := (p.consistent.positions i bound).trans_le full
  rw [PatternIndex.get_ofList, List.getD_eq_getElem _ _ (by simpa using inside), List.getElem?_map,
    List.getElem?_eq_getElem inside, Option.map_some, List.getElem_map]
  exact congrArg some (indexOption_eq_some_iff.mpr rfl).symm

theorem evalAt_agrees_gap : ∃ p ids, DeviceIdPattern.ofString (String.ofList gap.text) = .ok p ∧
    gap.getIds = .ok ids ∧ p.eval (.ofList [3, 9, 1]) = .ok "GPU_5_7" ∧
    ids.evalAt [some 3, some 9, some 1] = .ok "GPU_5_7" := by
  have run : (DeviceIdPattern.ofString (String.ofList gap.text)).map (fun p =>
      (p.dim, decide (p.eval (.ofList [3, 9, 1]) = .ok "GPU_5_7"))) = .ok (3, true) := by
    rw [gap_text]
    decide +kernel
  obtain ⟨p, built, facts⟩ := map_ok run
  simp only [Prod.mk.injEq, decide_eq_true_eq] at facts
  obtain ⟨dim, evaluated⟩ := facts
  obtain ⟨ids, got, agree⟩ := evalAt_agrees gap_plain built
  exact ⟨p, ids, built, got, evaluated, (agree [3, 9, 1] dim.le "GPU_5_7").mpr evaluated⟩

end MonitorEventing.Ids
