import MonitorEventing.DeviceId.Pattern

/-!
# The device id grammar

The language of device id patterns as a grammar of its own, and the strings the constructor really
accepts. The two differ in two places: the splitter takes either bracket character at either end of
a bracket, and the number parser reads a minus sign in front of zeros where an input position
stands.
-/

namespace MonitorEventing.DeviceId

namespace Grammar

/-- Decimal digits with a value that fits the parser's `int`. -/
structure IsNumber (text : List Char) (n : Nat) : Prop where
  nonempty : text ≠ []
  digits : ∀ c ∈ text, c.isDigit = true
  value : Nat.ofDigitChars 10 text 0 = n
  small : n ≤ 2 ^ 31 - 1

inductive IsRange : List Char → BracketRange → Prop where
  | single {text : List Char} {n : Nat} (number : IsNumber text n) : IsRange text ⟨n, n, le_refl n⟩
  | interval {first second : List Char} {m n : Nat} (left : IsNumber first m) (right : IsNumber second n)
      (ordered : m ≤ n) : IsRange (first ++ '-' :: second) ⟨m, n, ordered⟩

inductive IsRangeMap : List Char → BracketRangeMap → Prop where
  | same {text : List Char} {r : BracketRange} (range : IsRange text r) :
      IsRangeMap text ⟨r, r, Or.inl rfl⟩
  | mapped {first second : List Char} {r t : BracketRange} (domain : IsRange first r)
      (codomain : IsRange second t) (sizes : r.size = t.size ∨ t.size = 1) :
      IsRangeMap (first ++ ':' :: second) ⟨r, t, sizes⟩

/-- What stands between two brackets, for a given syntax of input positions. -/
inductive IsContent (position : List Char → Nat → Prop) : List Char → Prop where
  | implicit {text : List Char} {m : BracketRangeMap} (map : IsRangeMap text m) : IsContent position text
  | indexed {first second : List Char} {n : Nat} {m : BracketRangeMap} (input : position first n)
      (map : IsRangeMap second m) : IsContent position (first ++ '|' :: second)

def isBracket (c : Char) : Bool := ['[', ']'].contains c

/-- Texts and brackets in turn, for a given pair of delimiters and syntax of input positions. -/
inductive IsPatternWith (delimiters : Char → Char → Prop) (position : List Char → Nat → Prop) :
    List Char → Prop where
  | text {text : List Char} (plain : Text.Free isBracket text) : IsPatternWith delimiters position text
  | bracket {text content rest : List Char} {opening closing : Char} (plain : Text.Free isBracket text)
      (ends : delimiters opening closing) (inside : IsContent position content)
      (tail : IsPatternWith delimiters position rest) :
      IsPatternWith delimiters position (text ++ opening :: (content ++ closing :: rest))

/-- The documented language. -/
def IsPattern : List Char → Prop := IsPatternWith (fun o c => o = '[' ∧ c = ']') IsNumber

/-- A number, or zeros behind a minus sign. -/
def IsSignedNumber (text : List Char) (n : Nat) : Prop :=
  IsNumber text n ∨ ∃ zeros, zeros ≠ [] ∧ (∀ c ∈ zeros, c = '0') ∧ text = '-' :: zeros ∧ n = 0

/-- The language the constructor accepts. -/
def IsLoosePattern : List Char → Prop :=
  IsPatternWith (fun o c => isBracket o = true ∧ isBracket c = true) IsSignedNumber

/-! ### Numbers -/

theorem ofDigitChars_eq_zero {digits : List Char} (all : ∀ c ∈ digits, c.isDigit = true) :
    Nat.ofDigitChars 10 digits 0 = 0 ↔ ∀ c ∈ digits, c = '0' := by
  induction digits with
  | nil => simp
  | cons c digits ih =>
    have digit := all c List.mem_cons_self
    have zero : c.toNat - '0'.toNat = 0 ↔ c = '0' := by
      simp only [Char.isDigit, Bool.and_eq_true, decide_eq_true_eq] at digit
      constructor
      · intro none
        refine Char.ext (UInt32.toNat_inj.mp ?_)
        have low : '0'.toNat ≤ c.toNat := UInt32.le_iff_toNat_le.mp digit.1
        have high : c.toNat ≤ '0'.toNat := by omega
        exact Nat.le_antisymm high low
      · rintro rfl
        rfl
    rw [Nat.ofDigitChars_cons, Nat.ofDigitChars_eq_ofDigitChars_zero, List.forall_mem_cons,
      ← ih fun d member => all d (List.mem_cons_of_mem _ member), ← zero]
    simp [Nat.add_eq_zero_iff]

/-- The unread rest is empty exactly for a whole numeral, with or without a minus sign. -/
theorem fromChars_whole_iff {text : List Char} {v : Int} :
    fromChars text = some (v, []) ↔ ∃ digits, digits ≠ [] ∧ (∀ c ∈ digits, c.isDigit = true) ∧
      (text = digits ∧ v = Nat.ofDigitChars 10 digits 0 ∨
        text = '-' :: digits ∧ v = -Nat.ofDigitChars 10 digits 0) ∧ intMin ≤ v ∧ v ≤ intMax := by
  have whole : ∀ (body : List Char) (sign : Int → Int),
      (if body.takeWhile Char.isDigit = [] ∨ sign (Nat.ofDigitChars 10 (body.takeWhile Char.isDigit) 0) < intMin ∨
          intMax < sign (Nat.ofDigitChars 10 (body.takeWhile Char.isDigit) 0) then none
        else some (sign (Nat.ofDigitChars 10 (body.takeWhile Char.isDigit) 0), body.dropWhile Char.isDigit)) =
          some (v, []) ↔
        body ≠ [] ∧ (∀ c ∈ body, c.isDigit = true) ∧ v = sign (Nat.ofDigitChars 10 body 0) ∧
          intMin ≤ v ∧ v ≤ intMax := by
    intro body sign
    by_cases all : ∀ c ∈ body, c.isDigit = true
    · rw [List.takeWhile_eq_self_iff.mpr all, List.dropWhile_eq_nil_iff.mpr all]
      split
      · rename_i refused
        refine iff_of_false (by simp) ?_
        rintro ⟨nonempty, _, rfl, low, high⟩
        rcases refused with none | below | above
        · exact nonempty none
        · omega
        · omega
      · rename_i taken
        push Not at taken
        obtain ⟨nonempty, low, high⟩ := taken
        constructor
        · intro same
          obtain rfl := (Prod.mk.inj (Option.some.inj same)).1
          exact ⟨nonempty, all, rfl, low, high⟩
        · rintro ⟨_, _, rfl, _, _⟩
          rfl
    · refine iff_of_false ?_ fun h => all h.2.1
      split
      · simp
      · intro same
        exact all (List.dropWhile_eq_nil_iff.mp (Prod.mk.inj (Option.some.inj same)).2)
  unfold fromChars
  by_cases minus : text.head? = some '-'
  · obtain ⟨body, rfl⟩ := List.head?_eq_some_iff.mp minus
    have read := whole body (fun m => -m)
    simp only [List.head?_cons, beq_self_eq_true, if_true, List.tail_cons]
    rw [read]
    constructor
    · rintro ⟨nonempty, all, value, bounds⟩
      exact ⟨body, nonempty, all, Or.inr ⟨rfl, value⟩, bounds⟩
    · rintro ⟨digits, nonempty, all, ⟨rfl, _⟩ | ⟨same, value⟩, bounds⟩
      · exact absurd (all '-' List.mem_cons_self) (by decide)
      · obtain rfl := (List.cons.inj same).2
        exact ⟨nonempty, all, value, bounds⟩
  · have read := whole text id
    simp only [beq_iff_eq, minus, if_false, id] at read ⊢
    rw [read]
    constructor
    · rintro ⟨nonempty, all, value, bounds⟩
      exact ⟨text, nonempty, all, Or.inl ⟨rfl, value⟩, bounds⟩
    · rintro ⟨digits, nonempty, all, ⟨rfl, value⟩ | ⟨rfl, _⟩, bounds⟩
      · exact ⟨nonempty, all, value, bounds⟩
      · exact absurd rfl minus

theorem parseNonNegativeInt_ok_iff {text : List Char} {n : Nat} :
    parseNonNegativeInt text = .ok n ↔ IsSignedNumber text n := by
  have shape : parseNonNegativeInt text = .ok n ↔ fromChars text = some ((n : Int), []) := by
    unfold parseNonNegativeInt
    split
    · rename_i value read
      rw [read]
      split
      · simp only [Except.ok.injEq, Option.some.injEq, Prod.mk.injEq, and_true]
        omega
      · simp only [reduceCtorEq, Option.some.injEq, Prod.mk.injEq, and_true, false_iff]
        omega
    · rename_i whole unread read
      rw [read]
      refine iff_of_false (by simp) fun same => ?_
      obtain rfl := Option.some.inj same
      exact unread _ rfl
    · rename_i read
      simp [read]
  rw [shape, fromChars_whole_iff]
  constructor
  · rintro ⟨digits, nonempty, all, ⟨rfl, value⟩ | ⟨rfl, value⟩, _, high⟩
    · refine Or.inl ⟨nonempty, all, by exact_mod_cast value.symm, ?_⟩
      unfold intMax at high
      omega
    · -- a minus sign leaves a non-negative value only in front of zeros
      have zero : Nat.ofDigitChars 10 digits 0 = 0 := by omega
      exact Or.inr ⟨digits, nonempty, (ofDigitChars_eq_zero all).mp zero, rfl, by omega⟩
  · rintro (number | ⟨zeros, nonempty, allZero, rfl, rfl⟩)
    · refine ⟨text, number.nonempty, number.digits, Or.inl ⟨rfl, by rw [number.value]⟩, ?_, ?_⟩
      · unfold intMin
        omega
      · have := number.small
        unfold intMax
        omega
    · have digits : ∀ c ∈ zeros, c.isDigit = true := fun c member => by rw [allZero c member]; decide
      refine ⟨zeros, nonempty, digits, Or.inr ⟨rfl, ?_⟩, by decide, by decide⟩
      rw [(ofDigitChars_eq_zero digits).mpr allZero]
      rfl

theorem IsSignedNumber.isNumber {text : List Char} {n : Nat} (h : IsSignedNumber text n)
    (unsigned : '-' ∉ text) : IsNumber text n := by
  rcases h with number | ⟨zeros, _, _, rfl, _⟩
  · exact number
  · exact absurd List.mem_cons_self unsigned

/-! ### Which characters each layer uses -/

def Uses (marks : List Char) (text : List Char) : Prop := ∀ c ∈ text, c.isDigit = true ∨ c ∈ marks

theorem Uses.free {marks text : List Char} (h : Uses marks text) (separators : List Char)
    (apart : ∀ s ∈ separators, s.isDigit = false ∧ s ∉ marks) :
    Text.Free (fun c => separators.contains c) text := by
  intro c member
  simp only [List.contains_eq_mem, decide_eq_false_iff_not]
  intro separator
  rcases h c member with digit | mark
  · rw [(apart c separator).1] at digit
    cases digit
  · exact (apart c separator).2 mark

theorem Uses.append {marks first second : List Char} {mark : Char} (left : Uses marks first)
    (right : Uses marks second) (allowed : mark ∈ marks) : Uses marks (first ++ mark :: second) := by
  intro c member
  rcases List.mem_append.mp member with before | after
  · exact left c before
  · rcases List.mem_cons.mp after with rfl | after
    · exact Or.inr allowed
    · exact right c after

theorem Uses.mono {marks more text : List Char} (h : Uses marks text) (sub : marks ⊆ more) : Uses more text :=
  fun c member => (h c member).imp_right (@sub c)

theorem IsNumber.uses {text : List Char} {n : Nat} (h : IsNumber text n) : Uses [] text :=
  fun c member => Or.inl (h.digits c member)

theorem IsSignedNumber.uses {text : List Char} {n : Nat} (h : IsSignedNumber text n) : Uses ['-'] text := by
  rcases h with number | ⟨zeros, _, allZero, rfl, _⟩
  · exact number.uses.mono (List.nil_subset _)
  · intro c member
    rcases List.mem_cons.mp member with rfl | member
    · exact Or.inr List.mem_cons_self
    · rw [allZero c member]
      exact Or.inl (by decide)

theorem IsRange.uses {text : List Char} {r : BracketRange} (h : IsRange text r) : Uses ['-'] text := by
  cases h with
  | single number => exact number.uses.mono (List.nil_subset _)
  | interval left right ordered =>
    exact (left.uses.mono (List.nil_subset _)).append (right.uses.mono (List.nil_subset _)) List.mem_cons_self

theorem IsRangeMap.uses {text : List Char} {m : BracketRangeMap} (h : IsRangeMap text m) :
    Uses ['-', ':'] text := by
  cases h with
  | same range => exact range.uses.mono (by simp)
  | mapped domain codomain sizes =>
    exact (domain.uses.mono (by simp)).append (codomain.uses.mono (by simp)) (by simp)

theorem IsContent.uses {position : List Char → Nat → Prop} {text : List Char} (h : IsContent position text)
    (signed : ∀ t n, position t n → Uses ['-'] t) : Uses ['-', ':', '|'] text := by
  cases h with
  | implicit map => exact map.uses.mono (by simp)
  | indexed input map =>
    exact ((signed _ _ input).mono (by simp)).append (map.uses.mono (by simp)) (by simp)

/-! ### The parsers, layer by layer -/

theorem free_singleton_iff {separator : Char} {text : List Char} :
    Text.Free (fun c => [separator].contains c) text ↔ separator ∉ text := by
  simp only [Text.Free, List.contains_eq_mem, List.mem_singleton, decide_eq_false_iff_not]
  exact ⟨fun h member => h _ member rfl, fun h c member same => h (same ▸ member)⟩

theorem split_eq_singleton_iff {separator : Char} {text piece : List Char} :
    split [separator] text = [piece] ↔ text = piece ∧ separator ∉ piece := by
  rw [split, Text.splitOnP_eq_singleton_iff, free_singleton_iff]

theorem split_eq_pair_iff {separator : Char} {text first second : List Char} :
    split [separator] text = [first, second] ↔
      text = first ++ separator :: second ∧ separator ∉ first ∧ separator ∉ second := by
  rw [split, Text.splitOnP_eq_pair_iff, free_singleton_iff, free_singleton_iff]
  simp

theorem Uses.split {marks text : List Char} (h : Uses marks text) (separator : Char)
    (apart : separator.isDigit = false ∧ separator ∉ marks) : DeviceId.split [separator] text = [text] :=
  split_eq_singleton_iff.mpr ⟨rfl, free_singleton_iff.mp (h.free _ (by simpa using apart))⟩

theorem Uses.split_pair {marks marks' first second : List Char} (left : Uses marks first)
    (right : Uses marks' second) (separator : Char) (apart : separator.isDigit = false ∧ separator ∉ marks)
    (apart' : separator ∉ marks') : DeviceId.split [separator] (first ++ separator :: second) = [first, second] :=
  split_eq_pair_iff.mpr ⟨rfl, free_singleton_iff.mp (left.free _ (by simpa using apart)),
    free_singleton_iff.mp (right.free _ (by simpa using ⟨apart.1, apart'⟩))⟩

theorem rangeParse_ok_iff {text : List Char} {r : BracketRange} :
    BracketRange.parse text = .ok r ↔ IsRange text r := by
  constructor
  · intro h
    unfold BracketRange.parse at h
    split at h
    · rename_i element pieces
      obtain ⟨rfl, unsigned⟩ := split_eq_singleton_iff.mp pieces
      obtain ⟨number, read, h⟩ := bind_ok h
      obtain rfl := pure_ok_iff.mp h
      exact .single ((parseNonNegativeInt_ok_iff.mp read).isNumber unsigned)
    · rename_i first second pieces
      obtain ⟨rfl, noFirst, noSecond⟩ := split_eq_pair_iff.mp pieces
      obtain ⟨left, readLeft, h⟩ := bind_ok h
      obtain ⟨right, readRight, h⟩ := bind_ok h
      split at h
      · obtain rfl := pure_ok_iff.mp h
        exact .interval ((parseNonNegativeInt_ok_iff.mp readLeft).isNumber noFirst)
          ((parseNonNegativeInt_ok_iff.mp readRight).isNumber noSecond) _
      · cases h
    · cases h
  · intro h
    unfold BracketRange.parse
    cases h with
    | single number =>
      rw [number.uses.split '-' (by decide)]
      exact bind_ok_iff.mpr ⟨_, parseNonNegativeInt_ok_iff.mpr (Or.inl number), rfl⟩
    | interval left right ordered =>
      rw [left.uses.split_pair right.uses '-' (by decide) (by decide)]
      refine bind_ok_iff.mpr ⟨_, parseNonNegativeInt_ok_iff.mpr (Or.inl left), ?_⟩
      refine bind_ok_iff.mpr ⟨_, parseNonNegativeInt_ok_iff.mpr (Or.inl right), ?_⟩
      rw [dif_pos ordered]
      rfl

theorem ofRanges_ok_iff {r t : BracketRange} {m : BracketRangeMap} :
    BracketRangeMap.ofRanges r t = .ok m ↔ ∃ sizes, m = ⟨r, t, sizes⟩ := by
  unfold BracketRangeMap.ofRanges
  split
  · rename_i sizes
    rw [Except.ok.injEq, eq_comm]
    exact ⟨fun same => ⟨sizes, same⟩, fun ⟨_, same⟩ => same⟩
  · rename_i wrong
    refine iff_of_false (by simp) ?_
    rintro ⟨sizes, _⟩
    exact wrong sizes

theorem rangeMapParse_ok_iff {text : List Char} {m : BracketRangeMap} :
    BracketRangeMap.parse text = .ok m ↔ IsRangeMap text m := by
  constructor
  · intro h
    unfold BracketRangeMap.parse at h
    split at h
    · rename_i element pieces
      obtain ⟨rfl, _⟩ := split_eq_singleton_iff.mp pieces
      obtain ⟨range, read, h⟩ := bind_ok h
      obtain ⟨_, rfl⟩ := ofRanges_ok_iff.mp h
      exact .same (rangeParse_ok_iff.mp read)
    · rename_i first second pieces
      obtain ⟨rfl, _, _⟩ := split_eq_pair_iff.mp pieces
      obtain ⟨domain, readDomain, h⟩ := bind_ok h
      obtain ⟨codomain, readCodomain, h⟩ := bind_ok h
      obtain ⟨_, rfl⟩ := ofRanges_ok_iff.mp h
      exact .mapped (rangeParse_ok_iff.mp readDomain) (rangeParse_ok_iff.mp readCodomain) _
    · cases h
  · intro h
    unfold BracketRangeMap.parse
    cases h with
    | same range =>
      rw [range.uses.split ':' (by decide)]
      exact bind_ok_iff.mpr ⟨_, rangeParse_ok_iff.mpr range, ofRanges_ok_iff.mpr ⟨_, rfl⟩⟩
    | mapped domain codomain sizes =>
      rw [domain.uses.split_pair codomain.uses ':' (by decide) (by decide)]
      refine bind_ok_iff.mpr ⟨_, rangeParse_ok_iff.mpr domain, ?_⟩
      exact bind_ok_iff.mpr ⟨_, rangeParse_ok_iff.mpr codomain, ofRanges_ok_iff.mpr ⟨_, rfl⟩⟩

theorem parseBracketMap_ok_iff {text : List Char} {map : BracketMap} :
    parseBracketMap text = .ok map ↔ ∃ m, IsRangeMap text m ∧ map = m.toBracketMap := by
  unfold parseBracketMap
  constructor
  · intro h
    split at h
    · rename_i element pieces
      obtain ⟨rfl, _⟩ := split_eq_singleton_iff.mp pieces
      obtain ⟨m, read, h⟩ := bind_ok h
      exact ⟨m, rangeMapParse_ok_iff.mp read, (pure_ok_iff.mp h).symm⟩
    · cases h
  · rintro ⟨m, ranges, rfl⟩
    rw [ranges.uses.split ',' (by decide)]
    exact bind_ok_iff.mpr ⟨m, rangeMapParse_ok_iff.mpr ranges, rfl⟩

theorem contentParse_ok_iff {text : List Char} :
    (∃ map, IndexedBracketMap.parse text = .ok map) ↔ IsContent IsSignedNumber text := by
  unfold IndexedBracketMap.parse
  constructor
  · rintro ⟨map, h⟩
    split at h
    · rename_i element pieces
      obtain ⟨rfl, _⟩ := split_eq_singleton_iff.mp pieces
      obtain ⟨indexMap, read, _⟩ := bind_ok h
      obtain ⟨m, ranges, _⟩ := parseBracketMap_ok_iff.mp read
      exact .implicit ranges
    · rename_i first second pieces
      obtain ⟨rfl, _, _⟩ := split_eq_pair_iff.mp pieces
      obtain ⟨inputPosition, readPosition, h⟩ := bind_ok h
      obtain ⟨indexMap, read, _⟩ := bind_ok h
      obtain ⟨m, ranges, _⟩ := parseBracketMap_ok_iff.mp read
      exact .indexed (parseNonNegativeInt_ok_iff.mp readPosition) ranges
    · cases h
  · intro h
    cases h with
    | implicit ranges =>
      rw [ranges.uses.split '|' (by decide)]
      exact ⟨_, bind_ok_iff.mpr ⟨_, parseBracketMap_ok_iff.mpr ⟨_, ranges, rfl⟩, rfl⟩⟩
    | indexed input ranges =>
      rw [input.uses.split_pair ranges.uses '|' (by decide) (by decide)]
      have readMap := parseBracketMap_ok_iff.mpr ⟨_, ranges, rfl⟩
      exact ⟨_, bind_ok_iff.mpr ⟨_, parseNonNegativeInt_ok_iff.mpr input, bind_ok_iff.mpr ⟨_, readMap, rfl⟩⟩⟩

/-! ### What the parsers throw -/

/-- Whatever is thrown is a `std::runtime_error`. -/
def OnlyRuntime {α : Type} (x : Except Exn α) : Prop := ∀ e, x = .error e → ∃ text, e = .runtimeError text

section
variable {α β : Type}

theorem onlyRuntime_ok (a : α) : OnlyRuntime (.ok a : Except Exn α) := by
  intro e h
  cases h

theorem onlyRuntime_error (text : String) : OnlyRuntime (.error (.runtimeError text) : Except Exn α) :=
  fun _ h => ⟨text, (Except.error.inj h).symm⟩

theorem OnlyRuntime.bind {x : Except Exn α} {f : α → Except Exn β} (first : OnlyRuntime x)
    (next : ∀ a, OnlyRuntime (f a)) : OnlyRuntime (x >>= f) := by
  intro e h
  rcases bind_error h with failed | ⟨a, _, failed⟩
  · exact first e failed
  · exact next a e failed

end

theorem parseNonNegativeInt_runtime (text : List Char) : OnlyRuntime (parseNonNegativeInt text) := by
  unfold parseNonNegativeInt
  split
  · split
    · exact onlyRuntime_ok _
    · exact onlyRuntime_error _
  · exact onlyRuntime_error _
  · exact onlyRuntime_error _

theorem rangeParse_runtime (text : List Char) : OnlyRuntime (BracketRange.parse text) := by
  unfold BracketRange.parse
  split
  · exact (parseNonNegativeInt_runtime _).bind fun _ => onlyRuntime_ok _
  · refine (parseNonNegativeInt_runtime _).bind fun _ => (parseNonNegativeInt_runtime _).bind fun _ => ?_
    split
    · exact onlyRuntime_ok _
    · exact onlyRuntime_error _
  · exact onlyRuntime_error _

theorem ofRanges_runtime (domain codomain : BracketRange) : OnlyRuntime (BracketRangeMap.ofRanges domain codomain) := by
  unfold BracketRangeMap.ofRanges
  split
  · exact onlyRuntime_ok _
  · exact onlyRuntime_error _

theorem rangeMapParse_runtime (text : List Char) : OnlyRuntime (BracketRangeMap.parse text) := by
  unfold BracketRangeMap.parse
  split
  · exact (rangeParse_runtime _).bind fun _ => ofRanges_runtime _ _
  · exact (rangeParse_runtime _).bind fun _ => (rangeParse_runtime _).bind fun _ => ofRanges_runtime _ _
  · exact onlyRuntime_error _

theorem parseBracketMap_runtime (text : List Char) : OnlyRuntime (parseBracketMap text) := by
  unfold parseBracketMap
  split
  · exact (rangeMapParse_runtime _).bind fun _ => onlyRuntime_ok _
  · exact onlyRuntime_error _

theorem contentParse_runtime (text : List Char) : OnlyRuntime (IndexedBracketMap.parse text) := by
  unfold IndexedBracketMap.parse
  split
  · exact (parseBracketMap_runtime _).bind fun _ => onlyRuntime_ok _
  · exact (parseNonNegativeInt_runtime _).bind fun _ => (parseBracketMap_runtime _).bind fun _ => onlyRuntime_ok _
  · exact onlyRuntime_error _

/-! ### The constructor -/

theorem split_brackets (text : List Char) : split ['[', ']'] text = text.splitOnP isBracket := rfl

/-- Nothing behind the parsers throws. -/
theorem construct_total {s : String}
    (pieces : (split ['[', ']'] s.toList).length % 2 = 1 ∧ (split ['[', ']'] s.toList).length < 2 ^ 32)
    {maps : List IndexedBracketMap}
    (read : (PatternFields.interleaved (split ['[', ']'] s.toList)).2.mapM IndexedBracketMap.parse = .ok maps) :
    ∃ fields, PatternFields.construct s = .ok fields := by
  let filled := IndexedBracketMap.fillImplicitInputPositions maps
  have lengths : (filled.map (·.indexMap)).length = (filled.map (·.inputPosition.toNat)).length := by simp
  obtain ⟨domains, calculated, _⟩ := calcInputDomains_ok lengths
  exact ⟨⟨s, (PatternFields.interleaved (split ['[', ']'] s.toList)).1.map String.ofList,
      filled.map (·.inputPosition.toNat), domains, filled.map (·.indexMap)⟩,
    PatternFields.construct_ok_iff.mpr ⟨maps, pieces, read, rfl, rfl, rfl, rfl, calculated⟩⟩

theorem constructor_ok_iff {s : String} :
    (∃ p, DeviceIdPattern.ofString s = .ok p) ↔
      ((split ['[', ']'] s.toList).length % 2 = 1 ∧ (split ['[', ']'] s.toList).length < 2 ^ 32) ∧
        ∀ content ∈ (PatternFields.interleaved (split ['[', ']'] s.toList)).2, IsContent IsSignedNumber content := by
  have parsed : (∀ content ∈ (PatternFields.interleaved (split ['[', ']'] s.toList)).2,
      IsContent IsSignedNumber content) ↔
      ∃ maps, (PatternFields.interleaved (split ['[', ']'] s.toList)).2.mapM IndexedBracketMap.parse = .ok maps := by
    rw [exists_mapM_ok_iff]
    exact forall₂_congr fun content _ => contentParse_ok_iff.symm
  rw [parsed]
  constructor
  · rintro ⟨p, built⟩
    obtain ⟨maps, odd, read, _⟩ := PatternFields.construct_ok_iff.mp (DeviceIdPattern.ofString_ok_iff.mp built)
    exact ⟨odd, maps, read⟩
  · rintro ⟨odd, maps, read⟩
    obtain ⟨fields, built⟩ := construct_total odd read
    exact ⟨⟨fields, PatternFields.construct_consistent built⟩, DeviceIdPattern.ofString_ok_iff.mpr built⟩

theorem isLoosePattern_of_pieces {pieces : List (List Char)} {text : List Char}
    (pieced : split ['[', ']'] text = pieces) (odd : pieces.length % 2 = 1)
    (contents : ∀ content ∈ (PatternFields.interleaved pieces).2, IsContent IsSignedNumber content) :
    IsLoosePattern text := by
  induction pieces using PatternFields.interleaved.induct generalizing text with
  | case1 => simp at odd
  | case2 piece =>
    obtain ⟨rfl, plain⟩ := Text.splitOnP_eq_singleton_iff.mp pieced
    exact .text plain
  | case3 piece content rest ih =>
    obtain ⟨plain, ⟨none, _⟩ | ⟨opening, after, isOpening, rfl, cut⟩⟩ := Text.splitOnP_eq_cons_iff.mp pieced
    · cases none
    · obtain ⟨_, ⟨none, _⟩ | ⟨closing, tail, isClosing, rfl, last⟩⟩ := Text.splitOnP_eq_cons_iff.mp cut
      · subst none
        simp at odd
      · simp only [PatternFields.interleaved, List.forall_mem_cons] at contents
        refine .bracket plain ⟨isOpening, isClosing⟩ contents.1 (ih last ?_ contents.2)
        simp only [List.length_cons] at odd
        omega

theorem IsLoosePattern.pieces {text : List Char} (h : IsLoosePattern text) :
    (split ['[', ']'] text).length % 2 = 1 ∧
      ∀ content ∈ (PatternFields.interleaved (split ['[', ']'] text)).2, IsContent IsSignedNumber content := by
  rw [split_brackets]
  induction h with
  | text plain =>
    rw [Text.splitOnP_free plain]
    exact ⟨rfl, by simp [PatternFields.interleaved]⟩
  | bracket plain ends inside tail ih =>
    have free : Text.Free isBracket _ := (inside.uses fun _ _ => IsSignedNumber.uses).free ['[', ']'] (by simp)
    rw [Text.splitOnP_append_cons _ plain ends.1, Text.splitOnP_append_cons _ free ends.2]
    refine ⟨by simpa [Nat.add_assoc] using ih.1, ?_⟩
    simp only [PatternFields.interleaved, List.forall_mem_cons]
    exact ⟨inside, ih.2⟩

theorem filter_free {text : List Char} (free : Text.Free isBracket text) : text.filter isBracket = [] :=
  List.filter_eq_nil_iff.mpr fun c member => by simp [free c member]

def bracketCount (text : List Char) : Nat := (text.filter isBracket).length

theorem length_pieces (text : List Char) : (split ['[', ']'] text).length = bracketCount text + 1 := by
  rw [split_brackets, bracketCount]
  induction text with
  | nil => rfl
  | cons c text ih =>
    rw [List.splitOnP_cons_eq_if_modifyHead]
    cases bracket : isBracket c with
    | true => simp [bracket, ih]
    | false => simpa [bracket] using ih

theorem IsLoosePattern.even {text : List Char} (h : IsLoosePattern text) : bracketCount text % 2 = 0 := by
  have odd := h.pieces.1
  rw [length_pieces] at odd
  omega

/-- The language the constructor accepts. -/
theorem accepts_iff_loose {s : String} :
    (∃ p, DeviceIdPattern.ofString s = .ok p) ↔ IsLoosePattern s.toList ∧ bracketCount s.toList < 2 ^ 32 := by
  rw [constructor_ok_iff]
  have count := length_pieces s.toList
  constructor
  · rintro ⟨⟨odd, short⟩, contents⟩
    exact ⟨isLoosePattern_of_pieces rfl odd contents, by omega⟩
  · rintro ⟨loose, few⟩
    obtain ⟨odd, contents⟩ := loose.pieces
    exact ⟨⟨odd, by omega⟩, contents⟩

/-- The loop over the pieces ends. -/
def Ends (text : List Char) : Prop := bracketCount text % 2 = 0 → bracketCount text < 2 ^ 32

theorem construct_endless {s : String} (endless : ¬ Ends s.toList) : PatternFields.construct s = .error .undefined := by
  have count := length_pieces s.toList
  unfold Ends at endless
  rw [PatternFields.construct, PatternFields.separateTextAndBracketContents, if_pos (by omega), if_neg (by omega)]
  rfl

theorem construct_runtime {s : String} (ends : Ends s.toList) : OnlyRuntime (PatternFields.construct s) := by
  have count := length_pieces s.toList
  unfold Ends at ends
  intro e failed
  have thrown := failed
  unfold PatternFields.construct PatternFields.separateTextAndBracketContents at thrown
  dsimp only at thrown
  by_cases odd : (split ['[', ']'] s.toList).length % 2 = 1
  · have short : (split ['[', ']'] s.toList).length < 2 ^ 32 := by omega
    rw [if_pos odd, if_pos short] at thrown
    obtain ⟨_, pieces, thrown⟩ := (bind_error thrown).resolve_left fun failed => by cases failed
    obtain rfl := Except.ok.inj pieces
    rcases bind_error thrown with refused | ⟨maps, read, _⟩
    · obtain ⟨content, _, refused⟩ := mapM_error refused
      exact contentParse_runtime content e refused
    · obtain ⟨fields, built⟩ := construct_total ⟨odd, short⟩ read
      cases built.symm.trans failed
  · rw [if_neg odd] at thrown
    exact ⟨_, (Except.error.inj thrown).symm⟩

theorem ofString_error_iff {s : String} {e : Exn} :
    DeviceIdPattern.ofString s = .error e ↔ PatternFields.construct s = .error e := by
  unfold DeviceIdPattern.ofString
  split
  · rename_i fields made
    simp [made]
  · rename_i made
    simp [made]

/-- What is not accepted is refused with a text, unless the loop over the pieces does not end. -/
theorem refuses_iff {s : String} : (∃ text, DeviceIdPattern.ofString s = .error (.runtimeError text)) ↔
    ¬ IsLoosePattern s.toList ∧ Ends s.toList := by
  simp only [ofString_error_iff]
  constructor
  · rintro ⟨text, thrown⟩
    have ends : Ends s.toList := by
      by_contra endless
      rw [construct_endless endless] at thrown
      cases thrown
    refine ⟨fun loose => ?_, ends⟩
    obtain ⟨p, built⟩ := accepts_iff_loose.mpr ⟨loose, ends loose.even⟩
    cases (ofString_error_iff.mpr thrown).symm.trans built
  · rintro ⟨strict, ends⟩
    cases made : PatternFields.construct s with
    | ok fields =>
      have built : DeviceIdPattern.ofString s = .ok ⟨fields, PatternFields.construct_consistent made⟩ :=
        DeviceIdPattern.ofString_ok_iff.mpr made
      exact absurd (accepts_iff_loose.mp ⟨_, built⟩).1 strict
    | error e =>
      obtain ⟨text, rfl⟩ := construct_runtime ends e made
      exact ⟨text, rfl⟩

/-! ### Where the two languages differ -/

def Alternates (brackets : List Char) : Prop :=
  ∀ i c, brackets[i]? = some c → c = if i % 2 = 0 then '[' else ']'

def NoMinus (text : List Char) : Prop := text.IsChain fun a b => ¬ (a = '[' ∧ b = '-')

def DigitFirst (text : List Char) : Prop := ∃ c rest, text = c :: rest ∧ c.isDigit = true

theorem DigitFirst.append {text : List Char} (h : DigitFirst text) (more : List Char) : DigitFirst (text ++ more) := by
  obtain ⟨c, rest, rfl, digit⟩ := h
  exact ⟨c, rest ++ more, rfl, digit⟩

theorem DigitFirst.head {text : List Char} (h : DigitFirst text) : text.head? ≠ some '-' := by
  obtain ⟨c, rest, rfl, digit⟩ := h
  rintro same
  obtain rfl := Option.some.inj same
  exact absurd digit (by decide)

theorem IsNumber.digitFirst {text : List Char} {n : Nat} (h : IsNumber text n) : DigitFirst text := by
  obtain ⟨c, rest, rfl⟩ := List.exists_cons_of_ne_nil h.nonempty
  exact ⟨c, rest, rfl, h.digits c List.mem_cons_self⟩

theorem IsRange.digitFirst {text : List Char} {r : BracketRange} (h : IsRange text r) : DigitFirst text := by
  cases h with
  | single number => exact number.digitFirst
  | interval left right ordered => exact left.digitFirst.append _

theorem IsRangeMap.digitFirst {text : List Char} {m : BracketRangeMap} (h : IsRangeMap text m) : DigitFirst text := by
  cases h with
  | same range => exact range.digitFirst
  | mapped domain codomain sizes => exact domain.digitFirst.append _

theorem isContent_iff {text : List Char} :
    IsContent IsNumber text ↔ IsContent IsSignedNumber text ∧ text.head? ≠ some '-' := by
  constructor
  · intro h
    cases h with
    | implicit map => exact ⟨.implicit map, map.digitFirst.head⟩
    | indexed input map => exact ⟨.indexed (Or.inl input) map, (input.digitFirst.append _).head⟩
  · rintro ⟨h, unsigned⟩
    cases h with
    | implicit map => exact .implicit map
    | indexed input map =>
      rcases input with number | ⟨zeros, _, _, rfl, _⟩
      · exact .indexed number map
      · simp at unsigned

theorem filter_bracket {text content rest : List Char} {opening closing : Char} (plain : Text.Free isBracket text)
    (free : Text.Free isBracket content) (isOpening : isBracket opening = true) (isClosing : isBracket closing = true) :
    (text ++ opening :: (content ++ closing :: rest)).filter isBracket = opening :: closing :: rest.filter isBracket := by
  rw [List.filter_append, filter_free plain, List.nil_append, List.filter_cons_of_pos isOpening, List.filter_append,
    filter_free free, List.nil_append, List.filter_cons_of_pos isClosing]

theorem alternates_cons_cons {opening closing : Char} {rest : List Char} :
    Alternates (opening :: closing :: rest) ↔ (opening = '[' ∧ closing = ']') ∧ Alternates rest := by
  constructor
  · intro h
    refine ⟨⟨h 0 opening rfl, h 1 closing rfl⟩, fun i c read => ?_⟩
    simpa [Nat.add_mod] using h (i + 2) c (by simpa using read)
  · rintro ⟨⟨rfl, rfl⟩, h⟩ i c read
    match i with
    | 0 => exact (Option.some.inj read).symm
    | 1 => exact (Option.some.inj read).symm
    | i + 2 => simpa [Nat.add_mod] using h i c (by simpa using read)

theorem noMinus_of_free {text : List Char} (free : Text.Free isBracket text) : NoMinus text := by
  unfold NoMinus
  induction text with
  | nil => exact List.IsChain.nil
  | cons a text ih =>
    have plain := free a List.mem_cons_self
    rw [List.isChain_cons]
    refine ⟨fun b _ ⟨bracket, _⟩ => ?_, ih fun c member => free c (List.mem_cons_of_mem _ member)⟩
    subst bracket
    exact absurd plain (by decide)

theorem noMinus_bracket {text content rest : List Char} (plain : Text.Free isBracket text)
    (free : Text.Free isBracket content) :
    NoMinus (text ++ '[' :: (content ++ ']' :: rest)) ↔ content.head? ≠ some '-' ∧ NoMinus rest := by
  have chainText := noMinus_of_free plain
  have chainContent := noMinus_of_free free
  have head : (∀ b ∈ (content ++ ']' :: rest).head?, ¬ ('[' = '[' ∧ b = '-')) ↔ content.head? ≠ some '-' := by
    cases content <;> simp
  unfold NoMinus at *
  rw [List.isChain_append, List.isChain_cons, head, List.isChain_append, List.isChain_cons]
  constructor
  · rintro ⟨_, ⟨unsigned, _, ⟨_, tail⟩, _⟩, _⟩
    exact ⟨unsigned, tail⟩
  · rintro ⟨unsigned, tail⟩
    refine ⟨chainText, ⟨unsigned, chainContent, ⟨?_, tail⟩, ?_⟩, ?_⟩
    · simp
    · simp
    · simp

theorem isPattern_iff {text : List Char} :
    IsPattern text ↔ IsLoosePattern text ∧ Alternates (text.filter isBracket) ∧ NoMinus text := by
  constructor
  · intro h
    induction h with
    | text plain =>
      refine ⟨.text plain, ?_, noMinus_of_free plain⟩
      rw [filter_free plain]
      exact fun i c read => by simp at read
    | bracket plain ends inside tail ih =>
      obtain ⟨rfl, rfl⟩ := ends
      obtain ⟨signed, unsigned⟩ := isContent_iff.mp inside
      have free : Text.Free isBracket _ := (signed.uses fun _ _ => IsSignedNumber.uses).free ['[', ']'] (by simp)
      refine ⟨.bracket plain ⟨rfl, rfl⟩ signed ih.1, ?_, (noMinus_bracket plain free).mpr ⟨unsigned, ih.2.2⟩⟩
      rw [filter_bracket plain free rfl rfl]
      exact alternates_cons_cons.mpr ⟨⟨rfl, rfl⟩, ih.2.1⟩
  · rintro ⟨h, alternates, noMinus⟩
    induction h with
    | text plain => exact .text plain
    | bracket plain ends inside tail ih =>
      have free : Text.Free isBracket _ := (inside.uses fun _ _ => IsSignedNumber.uses).free ['[', ']'] (by simp)
      rw [filter_bracket plain free ends.1 ends.2] at alternates
      obtain ⟨⟨rfl, rfl⟩, tailAlternates⟩ := alternates_cons_cons.mp alternates
      obtain ⟨unsigned, tailNoMinus⟩ := (noMinus_bracket plain free).mp noMinus
      exact .bracket plain ⟨rfl, rfl⟩ (isContent_iff.mpr ⟨inside, unsigned⟩) (ih tailAlternates tailNoMinus)

/-- The constructor decides the documented grammar on a string exactly when the loop over its pieces ends and
the string is not one that it reads with brackets the wrong way round or with a minus sign before an input
position. -/
theorem accepts_grammar_iff (s : String) :
    (((∃ p, DeviceIdPattern.ofString s = .ok p) ↔ IsPattern s.toList) ∧
      (¬ IsPattern s.toList → ∃ text, DeviceIdPattern.ofString s = .error (.runtimeError text))) ↔
      (bracketCount s.toList % 2 = 0 → bracketCount s.toList < 2 ^ 32) ∧
        (IsLoosePattern s.toList → Alternates (s.toList.filter isBracket) ∧ NoMinus s.toList) := by
  rw [accepts_iff_loose, refuses_iff, isPattern_iff]
  constructor
  · rintro ⟨same, refuses⟩
    by_cases loose : IsLoosePattern s.toList
    · by_cases tidy : Alternates (s.toList.filter isBracket) ∧ NoMinus s.toList
      · exact ⟨fun _ => (same.mpr ⟨loose, tidy⟩).2, fun _ => tidy⟩
      · exact absurd loose (refuses fun pattern => tidy pattern.2).1
    · exact ⟨(refuses fun pattern => loose pattern.1).2, fun read => absurd read loose⟩
  · rintro ⟨ends, tidy⟩
    refine ⟨⟨fun accepted => ⟨accepted.1, tidy accepted.1⟩, fun pattern => ⟨pattern.1, ends pattern.1.even⟩⟩,
      fun foreign => ⟨fun loose => foreign ⟨loose, tidy loose⟩, ends⟩⟩

theorem accepts_inverted_bracket :
    (∃ p, DeviceIdPattern.ofString "]1[" = .ok p) ∧ ¬ IsPattern "]1[".toList := by
  refine ⟨accepts_iff_loose.mpr ⟨?_, by decide⟩, fun pattern => ?_⟩
  · have one : IsNumber ['1'] 1 := ⟨by simp, by simp, by decide, by decide⟩
    have text : IsLoosePattern [] := .text fun c member => by cases member
    have inverted : IsLoosePattern ([] ++ ']' :: (['1'] ++ '[' :: [])) :=
      .bracket (fun c member => by cases member) ⟨rfl, rfl⟩ (.implicit (.same (.single one))) text
    exact inverted
  · exact absurd ((isPattern_iff.mp pattern).2.1 0 ']' (by decide)) (by decide)

end Grammar

end MonitorEventing.DeviceId
