import MonitorEventing.Basic
import MonitorEventing.Lib.Replacement
import MonitorEventing.Lib.Text

/-!
# Message arguments

A pattern of a message argument has placeholders in braces, which are replaced by values read at run time.
Values come from the hardware and from commands: what is in them is anything.
-/

namespace MonitorEventing.EventInfo
open Replacement

def placeholder (inner : List Char) : List Char := '{' :: (inner ++ ['}'])

/-- The first match of `\{[^\}]*\}`: what stands before it, what is in its braces and what comes after it.
With what stands before it, it is also the match of `^[^\{]*\{[^\}]*\}`. -/
def search (str : List Char) : Option (List Char × List Char × List Char) := do
  let (before, opened) ← Text.cutAt '{' str
  let (inner, suffix) ← Text.cutAt '}' opened
  some (before, inner, suffix)

theorem search_some_iff {str before inner suffix : List Char} : search str = some (before, inner, suffix) ↔
    str = before ++ (placeholder inner ++ suffix) ∧ '{' ∉ before ∧ '}' ∉ inner := by
  simp only [search, Option.bind_eq_bind, Option.bind_eq_some_iff, Prod.exists, Text.cutAt_eq_some_iff, Option.some.injEq,
    Prod.mk.injEq, placeholder, List.cons_append, List.append_assoc]
  constructor
  · intro found
    obtain ⟨_, _, ⟨rfl, free⟩, _, _, ⟨rfl, free'⟩, rfl, rfl, rfl⟩ := found
    exact ⟨rfl, free, free'⟩
  · intro found
    obtain ⟨rfl, free, free'⟩ := found
    exact ⟨_, _, ⟨rfl, free⟩, _, _, ⟨rfl, free'⟩, rfl, rfl, rfl⟩

theorem search_suffix {str before inner suffix : List Char} (found : search str = some (before, inner, suffix)) :
    suffix.length < str.length := by
  obtain ⟨rfl, _, _⟩ := search_some_iff.mp found
  simp only [placeholder, List.length_append, List.length_cons]
  omega

/-- `std::regex_replace` with `\{[^\}]*\}`, of every match. -/
def regexReplace (format str : List Char) : List Char :=
  match _found : search str with
  | none => str
  | some (before, inner, suffix) =>
    before ++ (expand ⟨before, placeholder inner, suffix⟩ format ++ regexReplace format suffix)
termination_by str.length
decreasing_by exact search_suffix ‹_›

structure MessageArgPattern where
  pattern : String

namespace MessageArgPattern

def matchesFrom (str : List Char) : Nat :=
  match _found : search str with
  | none => 0
  | some (_, _, suffix) => matchesFrom suffix + 1
termination_by str.length
decreasing_by exact search_suffix ‹_›

def placeholdersCount (p : MessageArgPattern) : Nat := matchesFrom p.pattern.toList % 2 ^ 32

/-- The loop of `substPlaceholders`. After a search that fails the match and its suffix are empty. -/
def substFrom : List (List Char) → List Char → List Char
  | [], str => str
  | elem :: values, str =>
    match search str with
    | some (before, inner, suffix) => regexReplace elem (before ++ placeholder inner) ++ substFrom values suffix
    | none => regexReplace elem [] ++ substFrom values []

def substPlaceholders (p : MessageArgPattern) (values : List String) : String :=
  String.ofList (substFrom (values.map String.toList) p.pattern.toList)

/-! ### What is to be replaced -/

/-- The text cut at its placeholders: what stands before each with what its braces hold, and the rest, in which
there is none. -/
inductive Cut : List Char → List (List Char × List Char) → List Char → Prop where
  | tail {str : List Char} (whole : ∀ before inner suffix, str ≠ before ++ (placeholder inner ++ suffix)) : Cut str [] str
  | placeholder {before inner suffix tail : List Char} {pieces : List (List Char × List Char)} (outside : '{' ∉ before)
      (inside : '}' ∉ inner) (rest : Cut suffix pieces tail) :
      Cut (before ++ (EventInfo.placeholder inner ++ suffix)) ((before, inner) :: pieces) tail

/-- Each placeholder that has a value replaced by it, and all other text as it was. -/
def fill : List (List Char × List Char) → List (List Char) → List Char → List Char
  | [], _, tail => tail
  | (before, inner) :: pieces, [], tail => before ++ (placeholder inner ++ fill pieces [] tail)
  | (before, _) :: pieces, value :: values, tail => before ++ (value ++ fill pieces values tail)

/-- The result is the pattern with the values for its placeholders. -/
def Replaced (p : MessageArgPattern) (values : List String) (result : String) : Prop :=
  ∃ pieces tail, Cut p.pattern.toList pieces tail ∧ result.toList = fill pieces (values.map String.toList) tail

section
variable {str tail : List Char} {pieces : List (List Char × List Char)} {values : List (List Char)}

theorem search_placeholder {before inner : List Char} (outside : '{' ∉ before) (inside : '}' ∉ inner) (suffix : List Char) :
    search (before ++ (placeholder inner ++ suffix)) = some (before, inner, suffix) :=
  search_some_iff.mpr ⟨rfl, outside, inside⟩

/-- Where the search fails no closing brace follows an opening one. -/
theorem search_none (failed : search str = none) (before inner suffix : List Char) :
    str ≠ before ++ (placeholder inner ++ suffix) := by
  intro given
  have opening : '{' ∈ str := by simp [given, placeholder]
  obtain ⟨outside, opened, split, free⟩ := List.eq_append_cons_of_mem opening
  have closing : '}' ∈ opened := by
    rw [given, placeholder, List.cons_append] at split
    rcases List.append_eq_append_iff.mp split with ⟨more, same, rest⟩ | ⟨more, _, rest⟩
    · cases more with
      | nil => simp [← (List.cons.inj rest).2]
      | cons c more =>
        rw [← (List.cons.inj rest).1] at same
        exact absurd (by simp [same]) free
    · cases more with
      | nil => simp [(List.cons.inj rest).2]
      | cons c more => simp [(List.cons.inj rest).2]
  obtain ⟨inside, rest, split', free'⟩ := List.eq_append_cons_of_mem closing
  have found := search_placeholder free free' rest
  rw [placeholder, List.cons_append, List.append_assoc, List.singleton_append, ← split', ← split, failed] at found
  cases found

theorem cut_exists (str : List Char) : ∃ pieces tail, Cut str pieces tail := by
  induction size : str.length using Nat.strong_induction_on generalizing str with
  | h n ih =>
    cases found : search str with
    | none => exact ⟨[], str, .tail (search_none found)⟩
    | some result =>
      obtain ⟨before, inner, suffix⟩ := result
      obtain ⟨pieces, tail, rest⟩ := ih suffix.length (size ▸ search_suffix found) suffix rfl
      obtain ⟨rfl, outside, inside⟩ := search_some_iff.mp found
      exact ⟨_, tail, .placeholder outside inside rest⟩

theorem search_tail (whole : ∀ before inner suffix, str ≠ before ++ (placeholder inner ++ suffix)) : search str = none := by
  cases found : search str with
  | none => rfl
  | some result => exact absurd (search_some_iff.mp found).1 (whole _ _ _)

theorem matchesFrom_cut (cut : Cut str pieces tail) : matchesFrom str = pieces.length := by
  induction cut with
  | tail whole =>
    rw [matchesFrom]
    split
    · rfl
    · rename_i found
      rw [search_tail whole] at found
      cases found
  | placeholder outside inside rest ih =>
    rw [matchesFrom]
    split
    · rename_i found
      rw [search_placeholder outside inside] at found
      cases found
    · rename_i found
      rw [search_placeholder outside inside] at found
      cases found
      rw [ih, List.length_cons]

theorem regexReplace_placeholder {before inner : List Char} (outside : '{' ∉ before) (inside : '}' ∉ inner) (format : List Char) :
    regexReplace format (before ++ placeholder inner) = before ++ expand ⟨before, placeholder inner, []⟩ format := by
  have found := search_placeholder outside inside []
  rw [List.append_nil] at found
  have done : regexReplace format [] = [] := by
    rw [regexReplace]
    rfl
  rw [regexReplace]
  split
  · rename_i none
    rw [found] at none
    cases none
  · rename_i other
    rw [found] at other
    cases other
    rw [done, List.append_nil]

theorem fill_nil (cut : Cut str pieces tail) : fill pieces [] tail = str := by
  induction cut with
  | tail whole => rfl
  | placeholder outside inside rest ih => rw [fill, ih]

/-- A placeholder is replaced by what its value expands to. -/
theorem substFrom_cons {before inner suffix : List Char} (outside : '{' ∉ before) (inside : '}' ∉ inner) (value : List Char)
    (values : List (List Char)) : substFrom (value :: values) (before ++ (placeholder inner ++ suffix)) =
      before ++ (expand ⟨before, placeholder inner, []⟩ value ++ substFrom values suffix) := by
  rw [substFrom, search_placeholder outside inside]
  dsimp only
  rw [regexReplace_placeholder outside inside, List.append_assoc]

theorem substFrom_plain (cut : Cut str pieces tail) (fits : values.length ≤ pieces.length)
    (plain : ∀ value ∈ values, Plain value) : substFrom values str = fill pieces values tail := by
  induction cut generalizing values with
  | tail whole =>
    rw [List.length_eq_zero_iff.mp (Nat.le_zero.mp fits)]
    rfl
  | placeholder outside inside rest ih =>
    cases values with
    | nil => exact (fill_nil (.placeholder outside inside rest)).symm
    | cons value values =>
      obtain ⟨here, plain⟩ := List.forall_mem_cons.mp plain
      rw [substFrom_cons outside inside, fill, expand_plain here, ih (Nat.le_of_succ_le_succ fits) plain]

/-- Where every reference in a value stands for less than it weighs, the values are plain if nothing is lost. -/
theorem substFrom_weigh (cut : Cut str pieces tail) (fits : values.length ≤ pieces.length) {w : Char → Int}
    (less : ∀ piece ∈ pieces, ∀ value ∈ values, ∀ item ∈ items value, item.isChar = false →
      weigh w (item.meaning ⟨piece.1, placeholder piece.2, []⟩) < weigh w item.source) :
    weigh w (substFrom values str) ≤ weigh w (fill pieces values tail) ∧
      (weigh w (substFrom values str) = weigh w (fill pieces values tail) → ∀ value ∈ values, Plain value) := by
  induction cut generalizing values with
  | tail whole =>
    rw [List.length_eq_zero_iff.mp (Nat.le_zero.mp fits)]
    exact ⟨le_refl _, fun _ _ none => by cases none⟩
  | placeholder outside inside rest ih =>
    cases values with
    | nil =>
      rw [fill_nil (.placeholder outside inside rest)]
      exact ⟨le_refl _, fun _ _ none => by cases none⟩
    | cons value values =>
      obtain ⟨here, later⟩ := List.forall_mem_cons.mp less
      obtain ⟨below, plain⟩ := weigh_expand (here value List.mem_cons_self)
      obtain ⟨belowRest, plainRest⟩ := ih (Nat.le_of_succ_le_succ fits)
        (fun piece member value inside => later piece member value (List.mem_cons_of_mem _ inside))
      dsimp only at below plain
      rw [substFrom_cons outside inside, fill]
      simp only [weigh_append]
      refine ⟨by omega, fun same => ?_⟩
      rw [List.forall_mem_cons]
      exact ⟨plain (by omega), plainRest (by omega)⟩

/-! ### A weight for a pattern -/

/-- An opening brace weighs less than any text of `n` characters in braces can make up for, and a backtick more
than any such text without one. -/
def weight (n : Nat) (c : Char) : Int :=
  if c = '{' then -((n + 1) * n + 1)
  else if c = '`' then n + 1
  else 1

theorem weigh_le {n : Nat} (text : List Char) : weigh (weight n) text ≤ (n + 1) * text.length := by
  induction text with
  | nil => simp
  | cons c text ih =>
    have heavy : weight n c ≤ n + 1 := by
      unfold weight
      split
      · have big : (0 : Int) ≤ (n + 1) * n := by positivity
        omega
      · split
        · exact le_refl _
        · omega
    rw [weigh_cons, List.length_cons, Nat.cast_succ, mul_add, mul_one]
    omega

theorem weigh_light {n : Nat} {text : List Char} (light : '`' ∉ text) : weigh (weight n) text ≤ text.length := by
  induction text with
  | nil => simp
  | cons c text ih =>
    rw [List.mem_cons, not_or] at light
    have single : weight n c ≤ 1 := by
      unfold weight
      split
      · have big : (0 : Int) ≤ (n + 1) * n := by positivity
        omega
      · rw [if_neg (fun same => light.1 same.symm)]
    have rest := ih light.2
    rw [weigh_cons, List.length_cons, Nat.cast_succ]
    omega

theorem weigh_placeholder {n : Nat} {inner : List Char} (short : inner.length ≤ n) :
    weigh (weight n) (placeholder inner) ≤ 0 := by
  have opening : weight n '{' = -((n + 1) * n + 1) := rfl
  have closing : weight n '}' = 1 := rfl
  have within : ((n : Int) + 1) * inner.length ≤ (n + 1) * n :=
    Int.mul_le_mul_of_nonneg_left (by omega) (by omega)
  have bound := weigh_le (n := n) inner
  rw [placeholder, weigh_cons, weigh_append, weigh_cons, weigh_nil, opening, closing]
  omega

theorem weight_digit {n : Nat} {c : Char} (digit : c.isDigit = true) : weight n c = 1 := by
  unfold weight
  rw [if_neg, if_neg]
  · intro same
    rw [same] at digit
    exact absurd digit (by decide)
  · intro same
    rw [same] at digit
    exact absurd digit (by decide)

theorem cut_within (cut : Cut str pieces tail) : ∀ piece ∈ pieces,
    piece.1.length ≤ str.length ∧ piece.2.length ≤ str.length ∧ ∀ c ∈ piece.1, c ∈ str := by
  induction cut with
  | tail whole =>
    intro piece member
    cases member
  | placeholder outside inside rest ih =>
    intro piece member
    simp only [placeholder, List.length_append, List.length_cons]
    rcases List.mem_cons.mp member with rfl | later
    · dsimp only
      exact ⟨by omega, by omega, fun c inside => List.mem_append_left _ inside⟩
    · obtain ⟨short, short', within⟩ := ih piece later
      refine ⟨by omega, by omega, fun c inside => ?_⟩
      exact List.mem_append_right _ (List.mem_append_right _ (within c inside))

/-- A reference stands for less than it weighs, unless it is to a text with a backtick before a placeholder. -/
theorem reference_less {n : Nat} {before inner value : List Char} (short : before.length ≤ n) (short' : inner.length ≤ n)
    (quiet : '`' ∉ before ∨ ¬ ['$', '`'] <:+: value) {item : Item} (member : item ∈ items value)
    (reference : item.isChar = false) :
    weigh (weight n) (item.meaning ⟨before, placeholder inner, []⟩) < weigh (weight n) item.source := by
  have dollar : weight n '$' = 1 := rfl
  have whole := weigh_placeholder short'
  cases item with
  | char c => cases reference
  | dollar => simp [Item.meaning, Item.source, dollar]
  | whole =>
    have ampersand : weight n '&' = 1 := rfl
    simp only [Item.meaning, Item.source, weigh_cons, weigh_nil]
    omega
  | before =>
    have backtick : weight n '`' = n + 1 := rfl
    have light : '`' ∉ before := quiet.resolve_right (not_not.mpr (source_occurs member))
    have bound := weigh_light (n := n) light
    simp only [Item.meaning, Item.source, weigh_cons, weigh_nil]
    omega
  | after =>
    have quote : weight n '\'' = 1 := rfl
    simp only [Item.meaning, Item.source, weigh_cons, weigh_nil]
    omega
  | group digit next =>
    obtain ⟨first, second⟩ := group_digits member
    have positive : 0 ≤ weigh (weight n) next.toList := by
      cases next with
      | none => simp
      | some y => simp [weight_digit (second y rfl)]
    simp only [Item.meaning, Item.source, weigh_cons, weight_digit first]
    split
    · omega
    · rw [weigh_nil]
      omega

end

/-! ### When the values survive -/

section
variable {p : MessageArgPattern} {values : List String}

theorem cut_fits {pieces : List (List Char × List Char)} {tail : List Char} (cut : Cut p.pattern.toList pieces tail)
    (count : p.placeholdersCount = values.length) : (values.map String.toList).length ≤ pieces.length := by
  rw [List.length_map, ← count, placeholdersCount, matchesFrom_cut cut]
  exact Nat.mod_le _ _

theorem replaced_of_plain (count : p.placeholdersCount = values.length) (plain : ∀ value ∈ values, Plain value.toList) :
    p.Replaced values (p.substPlaceholders values) := by
  obtain ⟨pieces, tail, cut⟩ := cut_exists p.pattern.toList
  refine ⟨pieces, tail, cut, ?_⟩
  rw [substPlaceholders, String.toList_ofList]
  exact substFrom_plain cut (cut_fits cut count) (List.forall_mem_map.mpr plain)

theorem plain_of_replaced (count : p.placeholdersCount = values.length)
    (quiet : '`' ∉ p.pattern.toList ∨ ∀ value ∈ values, ¬ ['$', '`'] <:+: value.toList)
    (replaced : p.Replaced values (p.substPlaceholders values)) : ∀ value ∈ values, Plain value.toList := by
  obtain ⟨pieces, tail, cut, result⟩ := replaced
  rw [substPlaceholders, String.toList_ofList] at result
  have within := cut_within cut
  rw [← List.forall_mem_map (f := String.toList) (P := Plain)]
  refine (substFrom_weigh cut (cut_fits cut count) ?_).2 (congrArg (weigh (weight p.pattern.toList.length)) result)
  intro piece member value inside item read reference
  obtain ⟨short, short', text⟩ := within piece member
  refine reference_less short short' ?_ read reference
  rcases quiet with light | none
  · exact Or.inl fun backtick => light (text _ backtick)
  · obtain ⟨given, given', rfl⟩ := List.mem_map.mp inside
    exact Or.inr (none given given')

/-- A pattern of `n` placeholders and nothing else. -/
def braces : Nat → List Char
  | 0 => []
  | n + 1 => '{' :: '}' :: braces n

theorem braces_cut (n : Nat) : ∃ pieces, Cut (braces n) pieces [] ∧ pieces.length = n := by
  induction n with
  | zero => exact ⟨[], .tail fun before inner suffix => by simp [braces, placeholder], rfl⟩
  | succ n ih =>
    obtain ⟨pieces, rest, length⟩ := ih
    exact ⟨([], []) :: pieces, .placeholder List.not_mem_nil List.not_mem_nil rest, by rw [List.length_cons, length]⟩

theorem braces_light (n : Nat) : '`' ∉ braces n := by
  induction n with
  | zero => exact List.not_mem_nil
  | succ n ih => simp [braces, ih]

end

/-- Values without references survive in every pattern, and no others do: in a pattern without a backtick,
or for values that do not refer to the text before a placeholder, exactly the plain ones are put where their placeholders
stand. -/
theorem substPlaceholders_iff (values : List String) :
    ((∀ p : MessageArgPattern, p.placeholdersCount = values.length → p.Replaced values (p.substPlaceholders values)) ↔
      (values.length < 2 ^ 32 → ∀ value ∈ values, Plain value.toList)) ∧
    ∀ p : MessageArgPattern, p.placeholdersCount = values.length →
      ('`' ∉ p.pattern.toList ∨ ∀ value ∈ values, ¬ ['$', '`'] <:+: value.toList) →
        (p.Replaced values (p.substPlaceholders values) ↔ ∀ value ∈ values, Plain value.toList) := by
  refine ⟨⟨fun all few => ?_, fun plain p count => ?_⟩, fun p count quiet => ?_⟩
  · obtain ⟨pieces, cut, length⟩ := braces_cut values.length
    have count : placeholdersCount ⟨String.ofList (braces values.length)⟩ = values.length := by
      rw [placeholdersCount, String.toList_ofList, matchesFrom_cut cut, length, Nat.mod_eq_of_lt few]
    refine plain_of_replaced count (Or.inl ?_) (all _ count)
    rw [String.toList_ofList]
    exact braces_light _
  · refine replaced_of_plain count (plain ?_)
    rw [← count]
    exact Nat.mod_lt _ (by decide)
  · exact ⟨plain_of_replaced count quiet, replaced_of_plain count⟩

/-- Of the two dollars in a value one is left. -/
theorem substPlaceholders_dollar :
    placeholdersCount ⟨"name: {TheName}"⟩ = 1 ∧ substPlaceholders ⟨"name: {TheName}"⟩ ["a$$b"] = "name: a$b" ∧
      ¬ Replaced ⟨"name: {TheName}"⟩ ["a$$b"] (substPlaceholders ⟨"name: {TheName}"⟩ ["a$$b"]) := by
  have outside : '{' ∉ "name: ".toList := by decide
  have inside : '}' ∉ "TheName".toList := by decide
  have cut : Cut "name: {TheName}".toList [("name: ".toList, "TheName".toList)] [] :=
    .placeholder outside inside (.tail fun before inner suffix => by simp [placeholder])
  have count : placeholdersCount ⟨"name: {TheName}"⟩ = 1 := by
    rw [placeholdersCount, matchesFrom_cut cut]
    rfl
  refine ⟨count, ?_, fun replaced => ?_⟩
  · exact congrArg String.ofList (substFrom_cons outside inside "a$$b".toList [])
  · have plain := plain_of_replaced count (Or.inl (by decide)) replaced "a$$b" List.mem_cons_self
    exact plain '$' (by decide) ⟨['a'], ['b'], by decide⟩

end MessageArgPattern

end MonitorEventing.EventInfo
