import Mathlib

/-!
# Replacement formats

The text that replaces a match of a regular expression without groups is written in a format in which
a '$' may refer to the match. A format is read into its items, each of which stands for a text.
A format that stands for itself at every match is one without references.
-/

namespace Replacement

/-- A match: the text before it, its own and the text after it. -/
structure Match where
  before : List Char
  text : List Char
  after : List Char

inductive Item where
  | char (c : Char)
  | dollar
  | whole
  | before
  | after
  /-- The number of a group, in one or two digits. -/
  | group (digit : Char) (next : Option Char)
  deriving DecidableEq

namespace Item

def source : Item → List Char
  | char c => [c]
  | dollar => ['$', '$']
  | whole => ['$', '&']
  | before => ['$', '`']
  | after => ['$', '\'']
  | group digit next => '$' :: digit :: next.toList

/-- What the item stands for. The only group is group 0, the match itself. -/
def meaning (m : Match) : Item → List Char
  | char c => [c]
  | dollar => ['$']
  | whole => m.text
  | before => m.before
  | after => m.after
  | group digit next => if digit = '0' ∧ next.getD '0' = '0' then m.text else []

def isChar : Item → Bool
  | char _ => true
  | _ => false

end Item

/-- The references of one character. -/
def mark? : Char → Option Item
  | '$' => some .dollar
  | '&' => some .whole
  | '`' => some .before
  | '\'' => some .after
  | _ => none

def items : List Char → List Item
  | [] => []
  | [c] => [.char c]
  | c :: x :: rest =>
    if c = '$' then
      match mark? x with
      | some item => item :: items rest
      | none =>
        if x.isDigit then
          match rest with
          | [] => [.group x none]
          | y :: rest => if y.isDigit then .group x (some y) :: items rest else .group x none :: items (y :: rest)
        else .char c :: items (x :: rest)
    else .char c :: items (x :: rest)

def expand (m : Match) (format : List Char) : List Char := (items format).flatMap (Item.meaning m)

example : expand ⟨['a'], ['{', '}'], []⟩ ['$', '&', '$', '$', '$', '1', 'b', '$'] = ['{', '}', '$', 'b', '$'] := by decide

/-- The characters that make a reference of a '$' before them. -/
def refers (c : Char) : Bool := (mark? c).isSome || c.isDigit

/-- No '$' is followed by such a character. -/
def Plain (format : List Char) : Prop := ∀ c, refers c = true → ¬ ['$', c] <:+: format

/-! ### Reading a format -/

theorem mark_source {c : Char} {item : Item} (marked : mark? c = some item) :
    item.source = ['$', c] ∧ item.isChar = false := by
  unfold mark? at marked
  split at marked
  · cases marked
    exact ⟨rfl, rfl⟩
  · cases marked
    exact ⟨rfl, rfl⟩
  · cases marked
    exact ⟨rfl, rfl⟩
  · cases marked
    exact ⟨rfl, rfl⟩
  · cases marked

theorem items_source (format : List Char) : (items format).flatMap Item.source = format := by
  fun_induction items format with
  | case1 => rfl
  | case2 c => rfl
  | case3 x rest item marked ih => rw [List.flatMap_cons, (mark_source marked).1, ih, List.cons_append, List.singleton_append]
  | case4 x marked digit => rfl
  | case5 x marked digit y rest digit' ih =>
    rw [List.flatMap_cons, ih]
    rfl
  | case6 x marked digit y rest digit' ih =>
    rw [List.flatMap_cons, ih]
    rfl
  | case7 x rest marked digit ih =>
    rw [List.flatMap_cons, ih]
    rfl
  | case8 c x rest dollar ih =>
    rw [List.flatMap_cons, ih]
    rfl

theorem source_occurs {item : Item} {format : List Char} (member : item ∈ items format) : item.source <:+: format := by
  obtain ⟨before, after, split⟩ := List.append_of_mem member
  refine ⟨before.flatMap Item.source, after.flatMap Item.source, ?_⟩
  have read := items_source format
  rw [split, List.flatMap_append, List.flatMap_cons, ← List.append_assoc] at read
  exact read

theorem group_digits {format : List Char} {digit : Char} {next : Option Char} (member : .group digit next ∈ items format) :
    digit.isDigit = true ∧ ∀ y ∈ next, y.isDigit = true := by
  fun_induction items format with
  | case1 => cases member
  | case2 c => simp at member
  | case3 x rest item marked ih =>
    rcases List.mem_cons.mp member with rfl | member
    · unfold mark? at marked
      split at marked
      all_goals cases marked
    · exact ih member
  | case4 x marked isDigit =>
    obtain ⟨rfl, rfl⟩ := Item.group.inj (List.mem_singleton.mp member)
    exact ⟨isDigit, fun y none => by cases none⟩
  | case5 x marked isDigit y rest isDigit' ih =>
    rcases List.mem_cons.mp member with same | member
    · obtain ⟨rfl, rfl⟩ := Item.group.inj same
      refine ⟨isDigit, fun z some => ?_⟩
      rwa [← Option.mem_some.mp some]
    · exact ih member
  | case6 x marked isDigit y rest other ih =>
    rcases List.mem_cons.mp member with same | member
    · obtain ⟨rfl, rfl⟩ := Item.group.inj same
      exact ⟨isDigit, fun z none => by cases none⟩
    · exact ih member
  | case7 x rest marked other ih =>
    rcases List.mem_cons.mp member with same | member
    · cases same
    · exact ih member
  | case8 c x rest other ih =>
    rcases List.mem_cons.mp member with same | member
    · cases same
    · exact ih member

theorem plain_cons {c x : Char} {rest : List Char} :
    Plain (c :: x :: rest) ↔ (c = '$' → refers x = false) ∧ Plain (x :: rest) := by
  constructor
  · intro plain
    refine ⟨?_, fun d reference inside => plain d reference (List.infix_cons_iff.mpr (Or.inr inside))⟩
    intro dollar
    rw [← Bool.not_eq_true]
    intro reference
    exact plain x reference ⟨[], rest, by rw [dollar]; rfl⟩
  · intro both d reference inside
    rcases List.infix_cons_iff.mp inside with here | later
    · rw [List.cons_prefix_cons, List.cons_prefix_cons] at here
      rw [here.2.1, both.1 here.1.symm] at reference
      cases reference
    · exact both.2 d reference later

theorem plain_short {format : List Char} (short : format.length < 2) : Plain format := by
  intro c _ inside
  have long := inside.length_le
  rw [List.length_cons, List.length_singleton] at long
  omega

theorem not_plain {x : Char} {rest : List Char} (reference : refers x = true) : ¬ Plain ('$' :: x :: rest) :=
  fun plain => by simp [(plain_cons.mp plain).1 rfl] at reference

/-- The items of a plain format are its characters. -/
theorem plain_iff (format : List Char) : (∀ item ∈ items format, item.isChar = true) ↔ Plain format := by
  fun_induction items format with
  | case1 => exact iff_of_true (fun _ none => by cases none) (plain_short (by decide))
  | case2 c => exact iff_of_true (by simp [Item.isChar]) (plain_short (by simp))
  | case3 x rest item marked ih =>
    refine iff_of_false (fun all => ?_) (not_plain (by simp [refers, marked]))
    have char := all item List.mem_cons_self
    rw [(mark_source marked).2] at char
    cases char
  | case4 x marked digit => exact iff_of_false (by simp [Item.isChar]) (not_plain (by simp [refers, digit]))
  | case5 x marked digit y rest digit' ih => exact iff_of_false (by simp [Item.isChar]) (not_plain (by simp [refers, digit]))
  | case6 x marked digit y rest other ih => exact iff_of_false (by simp [Item.isChar]) (not_plain (by simp [refers, digit]))
  | case7 x rest marked other ih =>
    have quiet : refers x = false := by simp [refers, marked, other]
    rw [List.forall_mem_cons, ih, plain_cons]
    exact and_congr_left fun _ => iff_of_true rfl fun _ => quiet
  | case8 c x rest other ih =>
    rw [List.forall_mem_cons, ih, plain_cons]
    exact and_congr_left fun _ => iff_of_true rfl fun dollar => absurd dollar other

/-! ### What a format expands to -/

theorem expand_plain {format : List Char} (plain : Plain format) (m : Match) : expand m format = format := by
  have chars := (plain_iff format).mpr plain
  have same : (items format).flatMap (Item.meaning m) = (items format).flatMap Item.source := by
    refine List.flatMap_congr fun item member => ?_
    have char := chars item member
    cases item with
    | char c => rfl
    | _ => cases char
  exact same.trans (items_source format)

/-- The weight of a text, its characters weighed one by one. -/
def weigh (w : Char → Int) (text : List Char) : Int := (text.map w).sum

@[simp] theorem weigh_nil (w : Char → Int) : weigh w [] = 0 := rfl

@[simp] theorem weigh_cons (w : Char → Int) (c : Char) (text : List Char) : weigh w (c :: text) = w c + weigh w text := by
  simp [weigh]

@[simp] theorem weigh_append (w : Char → Int) (text text' : List Char) :
    weigh w (text ++ text') = weigh w text + weigh w text' := by
  simp [weigh]

/-- Where every reference stands for less than it weighs, a format with one expands to less than it weighs. -/
theorem weigh_expand {w : Char → Int} {m : Match} {format : List Char}
    (less : ∀ item ∈ items format, item.isChar = false → weigh w (item.meaning m) < weigh w item.source) :
    weigh w (expand m format) ≤ weigh w format ∧ (weigh w (expand m format) = weigh w format → Plain format) := by
  have summed : ∀ read : List Item,
      (∀ item ∈ read, item.isChar = false → weigh w (item.meaning m) < weigh w item.source) →
      weigh w (read.flatMap (Item.meaning m)) ≤ weigh w (read.flatMap Item.source) ∧
        (weigh w (read.flatMap (Item.meaning m)) = weigh w (read.flatMap Item.source) → ∀ item ∈ read, item.isChar = true) := by
    intro read less
    induction read with
    | nil => exact ⟨le_refl _, fun _ _ none => by cases none⟩
    | cons item rest ih =>
      obtain ⟨here, less⟩ := List.forall_mem_cons.mp less
      obtain ⟨below, plain⟩ := ih less
      rw [List.flatMap_cons, List.flatMap_cons, weigh_append, weigh_append, List.forall_mem_cons]
      cases char : item.isChar with
      | false =>
        have lighter := here char
        refine ⟨by omega, fun same => ?_⟩
        omega
      | true =>
        have equal : item.meaning m = item.source := by
          cases item with
          | char c => rfl
          | _ => cases char
        rw [equal]
        exact ⟨by omega, fun same => ⟨rfl, plain (by omega)⟩⟩
  have all := summed (items format) less
  rw [items_source, plain_iff] at all
  exact all

end Replacement
