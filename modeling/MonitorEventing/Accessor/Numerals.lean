import MonitorEventing.Accessor.PropertyValue

/-!
# Numbers in text

Which number `string2Uint64` finds in a text: that of a truth word, or the one the text begins with,
whatever comes behind it. The number is kept where it is one of a `long long`.
-/

namespace MonitorEventing.Accessor

def InInt64 (z : Int) : Prop := -2 ^ 63 ≤ z ∧ z ≤ 2 ^ 63 - 1

def isHexDigit (c : Char) : Bool := (hexDigit c).isSome

def hexValue (digits : List Char) : Nat := digits.foldl (fun n c => 16 * n + (hexDigit c).getD 0) 0

def isMark (c : Char) : Prop := c = 'x' ∨ c = 'X'

abbrev truthWords : List String := ["true", "True", "TRUE"]

abbrev falseWords : List String := ["false", "False", "FALSE"]

/-- What makes a text be read in base 16. -/
def Marked (text body : List Char) : Prop := body ≠ [] ∧ ∃ mark, text = '0' :: mark :: body ∧ isMark mark

/-- The number a text begins with. -/
inductive Begins : List Char → Int → Prop
  | yes {word : String} (spelled : word ∈ truthWords) : Begins word.toList 1
  | no {word : String} (spelled : word ∈ falseWords) : Begins word.toList 0
  | hex {text body digits rest : List Char} (marked : Marked text body)
      (starts : Text.Starts isHexDigit body digits rest) : Begins text (hexValue digits)
  | decimal {space sign text digits rest : List Char} (spaces : ∀ c ∈ space, isSpace c = true)
      (signed : sign ∈ [[], ['+'], ['-']]) (starts : Text.Starts Char.isDigit text digits rest) (some : digits ≠ [])
      (plain : ∀ body, ¬ Marked (space ++ sign ++ text) body) :
      Begins (space ++ sign ++ text)
        (if sign = ['-'] then -(Nat.ofDigitChars 10 digits 0 : Int) else Nat.ofDigitChars 10 digits 0)

/-! ### The conversions without their range -/

def magnitudeOf (text : List Char) : Option Nat :=
  let digits := text.takeWhile Char.isDigit
  if digits = [] then none else some (Nat.ofDigitChars 10 digits 0)

/-- `stollDecimal` of a text without leading space, before the range is looked at. -/
def signedNumber (body : List Char) : Option Int :=
  let negative := body.head? == some '-'
  let unsigned := if negative || body.head? == some '+' then body.tail else body
  (magnitudeOf unsigned).map fun magnitude : Nat => if negative then -(magnitude : Int) else magnitude

def decimalNumber (text : List Char) : Option Int := signedNumber (text.dropWhile isSpace)

/-- What stands behind the mark of base 16. -/
def afterMark : List Char → Option (List Char)
  | '0' :: x :: c :: rest => if x = 'x' ∨ x = 'X' then some (c :: rest) else none
  | _ => none

/-- `integerOfText` before the range is looked at. -/
def numberOf (value : List Char) : Option Int :=
  if String.ofList value ∈ truthWords then some 1
  else if String.ofList value ∈ falseWords then some 0
  else
    match afterMark value with
    | some body => some (hexPrefix 0 body)
    | none => decimalNumber value

theorem afterMark_eq_some_iff {text body : List Char} : afterMark text = some body ↔ Marked text body := by
  unfold Marked isMark
  fun_cases afterMark text
  · rename_i mark c rest marked
    rw [Option.some.injEq]
    constructor
    · rintro rfl
      exact ⟨List.cons_ne_nil c rest, mark, rfl, marked⟩
    · rintro ⟨_, mark', same, _⟩
      simp_all
  · rename_i mark c rest unmarked
    refine iff_of_false nofun ?_
    rintro ⟨_, mark', same, marked⟩
    simp_all
  · rename_i other
    refine iff_of_false nofun ?_
    rintro ⟨more, mark, rfl, _⟩
    obtain ⟨c, rest, rfl⟩ := List.exists_cons_of_ne_nil more
    exact other mark c rest rfl

theorem stollDecimal_eq (text : List Char) : stollDecimal text = (decimalNumber text).bind storeInt64 := by
  unfold stollDecimal decimalNumber signedNumber magnitudeOf
  dsimp only
  rw [apply_ite (Option.map _), apply_ite fun number : Option Int => number.bind storeInt64]
  rfl

theorem storeInt64_eq_some_iff {z : Int} {w : UInt64} :
    storeInt64 z = some w ↔ InInt64 z ∧ UInt64.ofNat (z % 2 ^ 64).toNat = w := by
  unfold storeInt64 InInt64
  split <;> simp_all

theorem integerOfText_eq {value : List Char} (plain : ' ' ∉ value) :
    integerOfText value = (numberOf value).bind storeInt64 := by
  have nothing : decimalNumber [] = none := rfl
  unfold integerOfText numberOf
  by_cases empty : value = []
  · subst empty
    rw [if_pos (Or.inl rfl), if_neg (by decide), if_neg (by decide)]
    rfl
  · rw [if_neg (by simp [empty, plain])]
    by_cases yes : String.ofList value ∈ truthWords
    · rw [if_pos yes, if_pos yes]
      rfl
    · by_cases no : String.ofList value ∈ falseWords
      · rw [if_neg yes, if_neg yes, if_pos no, if_pos no]
        rfl
      · rw [if_neg yes, if_neg yes, if_neg no, if_neg no]
        split
        · rename_i mark c rest
          by_cases marked : mark = 'x' ∨ mark = 'X'
          · rw [if_pos marked, afterMark, if_pos marked]
            rfl
          · rw [if_neg marked, afterMark, if_neg marked]
            exact stollDecimal_eq _
        · rename_i other
          have unmarked : afterMark value = none := by
            rw [← Option.not_isSome_iff_eq_none, Option.isSome_iff_exists]
            rintro ⟨body, marked⟩
            obtain ⟨more, mark, rfl, _⟩ := afterMark_eq_some_iff.mp marked
            obtain ⟨c, rest, rfl⟩ := List.exists_cons_of_ne_nil more
            exact other mark c rest rfl
          rw [unmarked]
          exact stollDecimal_eq _

/-! ### Hexadecimal digits -/

theorem hexPrefix_starts {text digits rest : List Char} (starts : Text.Starts isHexDigit text digits rest) (acc : Nat) :
    hexPrefix acc text = digits.foldl (fun n c => 16 * n + (hexDigit c).getD 0) acc := by
  obtain ⟨rfl, inside, stops⟩ := starts
  induction digits generalizing acc with
  | nil =>
    cases rest with
    | nil => rfl
    | cons c rest =>
      have stop : hexDigit c = none := by simpa [isHexDigit] using stops c rfl
      simp [hexPrefix, stop]
  | cons c digits ih =>
    obtain ⟨here, later⟩ := List.forall_mem_cons.mp inside
    obtain ⟨d, digit⟩ := Option.isSome_iff_exists.mp here
    rw [List.cons_append, hexPrefix, digit]
    simpa [digit] using ih (16 * acc + d) later

theorem hexPrefix_eq (text : List Char) : hexPrefix 0 text = hexValue (text.takeWhile isHexDigit) :=
  hexPrefix_starts (Text.starts_iff.mpr ⟨rfl, rfl⟩) 0

/-! ### What is found -/

theorem isDigit_toNat {c : Char} (digit : c.isDigit = true) : 48 ≤ c.toNat ∧ c.toNat ≤ 57 := by
  simp only [Char.isDigit, ge_iff_le, Bool.and_eq_true, decide_eq_true_eq] at digit
  exact digit

theorem isSpace_of_isDigit {c : Char} (digit : c.isDigit = true) : isSpace c = false := by
  have bounds := isDigit_toNat digit
  have notBlank : c ≠ ' ' := by
    rintro rfl
    exact absurd digit (by decide)
  simp only [isSpace, beq_eq_false_iff_ne.mpr notBlank, Bool.false_or, Bool.and_eq_false_iff, decide_eq_false_iff_not]
  omega

theorem signed_head {sign text digits rest : List Char} (signed : sign ∈ [[], ['+'], ['-']])
    (starts : Text.Starts Char.isDigit text digits rest) (some : digits ≠ []) :
    ∃ c tail, sign ++ text = c :: tail ∧ isSpace c = false ∧ c.toNat < 58 := by
  simp only [List.mem_cons, List.not_mem_nil, or_false] at signed
  rcases signed with rfl | rfl | rfl
  · obtain ⟨c, more, rfl⟩ := List.exists_cons_of_ne_nil some
    have digit := starts.inside c List.mem_cons_self
    have bounds := isDigit_toNat digit
    exact ⟨c, more ++ rest, starts.whole, isSpace_of_isDigit digit, by omega⟩
  · exact ⟨'+', text, rfl, by decide, by decide⟩
  · exact ⟨'-', text, rfl, by decide, by decide⟩

theorem magnitudeOf_eq_some_iff {text : List Char} {n : Nat} : magnitudeOf text = some n ↔
    ∃ digits rest, Text.Starts Char.isDigit text digits rest ∧ digits ≠ [] ∧ Nat.ofDigitChars 10 digits 0 = n := by
  unfold magnitudeOf
  simp only [Text.starts_iff]
  by_cases none : text.takeWhile Char.isDigit = []
  · rw [if_pos none]
    refine iff_of_false nofun ?_
    rintro ⟨digits, rest, ⟨rfl, _⟩, some, _⟩
    exact some none
  · rw [if_neg none, Option.some.injEq]
    constructor
    · intro same
      exact ⟨_, _, ⟨rfl, rfl⟩, none, same⟩
    · rintro ⟨digits, rest, ⟨rfl, _⟩, _, same⟩
      exact same

theorem signedNumber_plain {body : List Char} (notMinus : body.head? ≠ some '-') (notPlus : body.head? ≠ some '+') :
    signedNumber body = (magnitudeOf body).map Int.ofNat := by
  simp [signedNumber, notMinus, notPlus]
  rfl

theorem signedNumber_eq_some_iff {body : List Char} {z : Int} : signedNumber body = some z ↔
    ∃ sign text n, sign ∈ [[], ['+'], ['-']] ∧ body = sign ++ text ∧ magnitudeOf text = some n ∧
      (if sign = ['-'] then -(n : Int) else n) = z := by
  constructor
  · intro found
    by_cases minus : body.head? = some '-'
    · obtain ⟨text, rfl⟩ := List.head?_eq_some_iff.mp minus
      obtain ⟨n, magnitude, same⟩ := Option.map_eq_some_iff.mp found
      exact ⟨['-'], text, n, by simp, rfl, magnitude, same⟩
    · by_cases plus : body.head? = some '+'
      · obtain ⟨text, rfl⟩ := List.head?_eq_some_iff.mp plus
        obtain ⟨n, magnitude, same⟩ := Option.map_eq_some_iff.mp found
        exact ⟨['+'], text, n, by simp, rfl, magnitude, same⟩
      · rw [signedNumber_plain minus plus] at found
        obtain ⟨n, magnitude, same⟩ := Option.map_eq_some_iff.mp found
        exact ⟨[], body, n, by simp, rfl, magnitude, same⟩
  · rintro ⟨sign, text, n, signed, rfl, magnitude, rfl⟩
    simp only [List.mem_cons, List.not_mem_nil, or_false] at signed
    rcases signed with rfl | rfl | rfl
    · -- a text that starts with a digit starts with no sign
      obtain ⟨digits, rest, starts, some, _⟩ := magnitudeOf_eq_some_iff.mp magnitude
      obtain ⟨c, more, rfl⟩ := List.exists_cons_of_ne_nil some
      have digit := starts.inside c List.mem_cons_self
      have head : text.head? = .some c := by rw [starts.whole]; rfl
      have apart : ∀ d, d.isDigit = false → text.head? ≠ .some d := by
        intro d other same
        rw [head, Option.some.injEq] at same
        rw [same, other] at digit
        cases digit
      rw [List.nil_append, signedNumber_plain (apart '-' (by decide)) (apart '+' (by decide)), magnitude]
      rfl
    · exact Option.map_eq_some_iff.mpr ⟨n, magnitude, rfl⟩
    · exact Option.map_eq_some_iff.mpr ⟨n, magnitude, rfl⟩

/-- The texts a decimal conversion reads: space, a sign, and digits up to a character that is none. -/
theorem decimalNumber_eq_some_iff {text : List Char} {z : Int} : decimalNumber text = some z ↔
    ∃ space sign unsigned digits rest, text = space ++ sign ++ unsigned ∧ (∀ c ∈ space, isSpace c = true) ∧
      sign ∈ [[], ['+'], ['-']] ∧ Text.Starts Char.isDigit unsigned digits rest ∧ digits ≠ [] ∧
      (if sign = ['-'] then -(Nat.ofDigitChars 10 digits 0 : Int) else Nat.ofDigitChars 10 digits 0) = z := by
  rw [decimalNumber, signedNumber_eq_some_iff]
  constructor
  · rintro ⟨sign, unsigned, n, signed, body, magnitude, same⟩
    obtain ⟨digits, rest, starts, some, rfl⟩ := magnitudeOf_eq_some_iff.mp magnitude
    refine ⟨text.takeWhile isSpace, sign, unsigned, digits, rest, ?_, fun c member => List.mem_takeWhile_imp member,
      signed, starts, some, same⟩
    rw [List.append_assoc, ← body, List.takeWhile_append_dropWhile]
  · rintro ⟨space, sign, unsigned, digits, rest, rfl, spaces, signed, starts, some, same⟩
    obtain ⟨c, tail, first, notSpace, _⟩ := signed_head signed starts some
    refine ⟨sign, unsigned, _, signed, ?_, magnitudeOf_eq_some_iff.mpr ⟨digits, rest, starts, some, rfl⟩, same⟩
    rw [List.append_assoc, List.dropWhile_append_of_pos spaces, first, List.dropWhile_cons_of_neg (by simp [notSpace])]

/-! ### The number of a text -/

/-- A text that begins with a number in digits is no word. -/
theorem not_word {text : List Char} {c : Char} {tail : List Char} (first : text = c :: tail) (low : c.toNat < 58) :
    String.ofList text ∉ truthWords ∧ String.ofList text ∉ falseWords := by
  have high : ∀ word ∈ truthWords ++ falseWords, ∀ d ∈ word.toList.head?, 58 ≤ d.toNat := by
    intro word member
    simp only [List.cons_append, List.nil_append, List.mem_cons, List.not_mem_nil, or_false] at member
    rcases member with rfl | rfl | rfl | rfl | rfl | rfl <;> simp
  have apart : String.ofList text ∉ truthWords ++ falseWords := by
    intro member
    have bound := high _ member c (by rw [String.toList_ofList, first]; rfl)
    omega
  rwa [List.mem_append, not_or] at apart

theorem isSpace_low {c : Char} (space : isSpace c = true) : c.toNat < 58 := by
  simp only [isSpace, Bool.or_eq_true, beq_iff_eq, Bool.and_eq_true, decide_eq_true_eq] at space
  rcases space with rfl | bounds
  · decide
  · omega

/-- What `string2Uint64` finds is what the text begins with. -/
theorem numberOf_eq_some_iff {text : List Char} {z : Int} : numberOf text = some z ↔ Begins text z := by
  constructor
  · intro found
    unfold numberOf at found
    split_ifs at found with yes no
    · rw [← Option.some.inj found, ← String.toList_ofList (l := text)]
      exact .yes yes
    · rw [← Option.some.inj found, ← String.toList_ofList (l := text)]
      exact .no no
    · cases marked : afterMark text with
      | some body =>
        rw [marked, Option.some.injEq, hexPrefix_eq] at found
        rw [← found]
        exact .hex (afterMark_eq_some_iff.mp marked) (Text.starts_iff.mpr ⟨rfl, rfl⟩)
      | none =>
        rw [marked] at found
        obtain ⟨space, sign, unsigned, digits, rest, rfl, spaces, signed, starts, some, rfl⟩ :=
          decimalNumber_eq_some_iff.mp found
        refine .decimal spaces signed starts some fun body other => ?_
        rw [afterMark_eq_some_iff.mpr other] at marked
        cases marked
  · intro begins
    unfold numberOf
    cases begins with
    | yes spelled => rw [if_pos (by rwa [String.ofList_toList])]
    | no spelled =>
      rw [String.ofList_toList, if_pos spelled, if_neg]
      intro both
      simp only [List.mem_cons, List.not_mem_nil, or_false] at spelled both
      rcases spelled with rfl | rfl | rfl <;> simp at both
    | hex marked starts =>
      obtain ⟨more, mark, rfl, isMark⟩ := id marked
      have low : ('0' : Char).toNat < 58 := by decide
      obtain ⟨notTrue, notFalse⟩ := not_word rfl low
      rw [if_neg notTrue, if_neg notFalse, afterMark_eq_some_iff.mpr marked]
      exact congrArg (fun n : Nat => some (n : Int)) (hexPrefix_starts starts 0)
    | @decimal space sign unsigned digits rest spaces signed starts some plain =>
      have unmarked : afterMark (space ++ sign ++ unsigned) = none := by
        rw [Option.eq_none_iff_forall_ne_some]
        intro body marked
        exact plain body (afterMark_eq_some_iff.mp marked)
      have low : ∃ c tail, space ++ sign ++ unsigned = c :: tail ∧ c.toNat < 58 := by
        cases space with
        | nil =>
          obtain ⟨c, tail, first, _, low⟩ := signed_head signed starts some
          exact ⟨c, tail, first, low⟩
        | cons c space => exact ⟨c, _, rfl, isSpace_low (spaces c List.mem_cons_self)⟩
      obtain ⟨c, tail, first, low⟩ := low
      obtain ⟨notTrue, notFalse⟩ := not_word first low
      rw [if_neg notTrue, if_neg notFalse, unmarked]
      exact decimalNumber_eq_some_iff.mpr ⟨space, sign, unsigned, digits, rest, rfl, spaces, signed, starts, some, rfl⟩

/-- What of a text is kept as its integer: a number within the range of a `long long`. -/
theorem integerOfText_eq_some_iff {text : List Char} {w : UInt64} : integerOfText text = some w ↔
    ' ' ∉ text ∧ ∃ z, Begins text z ∧ InInt64 z ∧ UInt64.ofNat (z % 2 ^ 64).toNat = w := by
  by_cases plain : ' ' ∈ text
  · refine iff_of_false ?_ fun both => both.1 plain
    simp [integerOfText, plain]
  · simp only [integerOfText_eq plain, Option.bind_eq_some_iff, numberOf_eq_some_iff, storeInt64_eq_some_iff,
      plain, not_false_eq_true, true_and]

theorem Begins.unique {text : List Char} {z z' : Int} (one : Begins text z) (two : Begins text z') : z = z' := by
  rw [← numberOf_eq_some_iff] at one two
  rw [one] at two
  exact Option.some.inj two

/-- The text is read as that integer. -/
def Numbered (s : String) (z : Int) : Prop := ' ' ∉ s.toList ∧ Begins s.toList z ∧ InInt64 z

def stored (z : Int) : UInt64 := UInt64.ofNat (z % 2 ^ 64).toNat

theorem stored_inj {z z' : Int} (one : InInt64 z) (two : InInt64 z') : stored z = stored z' ↔ z = z' := by
  refine ⟨fun same => ?_, fun same => congrArg stored same⟩
  have words := congrArg UInt64.toNat same
  simp only [stored, UInt64.toNat_ofNat'] at words
  unfold InInt64 at one two
  omega

theorem stored_nat (n : Nat) : stored n = UInt64.ofNat n := by
  have whole : ((n : Int) % 2 ^ 64).toNat = n % 2 ^ 64 := by omega
  rw [stored, whole, UInt64.ofNat_mod_size]

namespace PropertyValue

theorem ofString_numbered {s : String} {z : Int} (numbered : Numbered s z) : ofString s = ⟨s, stored z, .integer⟩ := by
  have found : integerOfText s.toList = some (stored z) :=
    integerOfText_eq_some_iff.mpr ⟨numbered.1, z, numbered.2.1, numbered.2.2, rfl⟩
  rw [ofString, found]

theorem ofString_plain {s : String} (plain : ∀ z, ¬ Numbered s z) : ofString s = propertyString s := by
  have none : integerOfText s.toList = none := by
    rw [Option.eq_none_iff_forall_ne_some]
    intro w found
    obtain ⟨noSpace, z, begins, inside, _⟩ := integerOfText_eq_some_iff.mp found
    exact plain z ⟨noSpace, begins, inside⟩
  rw [ofString, none, propertyString]

/-- Two texts compare as equal where they are the same or begin with the same number. -/
theorem ofString_eq_iff (a b : String) :
    (ofString a).eq (ofString b) = true ↔ a = b ∨ ∃ z, Numbered a z ∧ Numbered b z := by
  by_cases first : ∃ z, Numbered a z
  · obtain ⟨z, numbered⟩ := first
    rw [ofString_numbered numbered]
    by_cases second : ∃ z, Numbered b z
    · obtain ⟨z', numbered'⟩ := second
      rw [ofString_numbered numbered']
      have equal : eq ⟨a, stored z, .integer⟩ ⟨b, stored z', .integer⟩ = true ↔ z = z' := by
        simp [eq, isValidInteger, stored_inj numbered.2.2 numbered'.2.2]
      rw [equal]
      constructor
      · rintro rfl
        exact Or.inr ⟨z, numbered, numbered'⟩
      · intro either
        rcases either with rfl | ⟨w, one, two⟩
        · exact numbered.2.1.unique numbered'.2.1
        · exact (numbered.2.1.unique one.2.1).trans (two.2.1.unique numbered'.2.1)
    · have apart : ¬ ∃ z, Numbered a z ∧ Numbered b z := fun both => second (both.imp fun _ numbers => numbers.2)
      rw [not_exists] at second
      rw [ofString_plain second, or_iff_left apart]
      simp [eq, isValidInteger, propertyString]
  · have apart : ¬ ∃ z, Numbered a z ∧ Numbered b z := fun both => first (both.imp fun _ numbers => numbers.1)
    rw [not_exists] at first
    rw [ofString_plain first, propertyString_eq, ofString_strValue, beq_iff_eq, or_iff_left apart]

end PropertyValue

/-! ### Printed numbers -/

theorem hexDigit_digitChar {d : Nat} (small : d < 16) : hexDigit (Nat.digitChar d) = some d := by
  have each : ∀ d : Fin 16, hexDigit (Nat.digitChar d.val) = some d.val := by decide
  exact each ⟨d, small⟩

theorem hexValue_append (digits : List Char) (c : Char) :
    hexValue (digits ++ [c]) = 16 * hexValue digits + (hexDigit c).getD 0 := by
  simp [hexValue]

/-- The digits of a number are hexadecimal digits of its value. -/
theorem hexValue_toDigits (n : Nat) :
    hexValue (Nat.toDigits 16 n) = n ∧ ∀ c ∈ Nat.toDigits 16 n, isHexDigit c = true := by
  induction n using Nat.strong_induction_on with
  | _ n ih =>
    rw [Nat.toDigits_eq_if (by decide)]
    split
    · rename_i small
      simp [hexValue, isHexDigit, hexDigit_digitChar small]
    · rename_i large
      have last := hexDigit_digitChar (Nat.mod_lt n (by decide : 0 < 16))
      obtain ⟨value, digits⟩ := ih (n / 16) (by omega)
      refine ⟨?_, ?_⟩
      · rw [hexValue_append, value, last, Option.getD_some]
        omega
      · intro c member
        rcases List.mem_append.mp member with front | back
        · exact digits c front
        · rw [List.mem_singleton.mp back, isHexDigit, last]
          rfl

/-- A text that begins with a natural number is read as it, where a `long long` has it. -/
theorem numbered_iff {s : String} {n : Nat} (plain : ' ' ∉ s.toList) (begins : Begins s.toList n) (z : Int) :
    Numbered s z ↔ z = n ∧ n < 2 ^ 63 := by
  constructor
  · rintro ⟨_, other, inside⟩
    have same := other.unique begins
    unfold InInt64 at inside
    exact ⟨same, by omega⟩
  · rintro ⟨rfl, small⟩
    exact ⟨plain, begins, by unfold InInt64; omega⟩

/-- `std::to_string`. -/
def decimalText (n : Nat) : String := toString n

theorem numbered_decimalText (n : Nat) (z : Int) : Numbered (decimalText n) z ↔ z = n ∧ n < 2 ^ 63 := by
  have text : (decimalText n).toList = Nat.toDigits 10 n := Nat.toList_repr
  have digits : ∀ c ∈ Nat.toDigits 10 n, c.isDigit = true := fun c member => Text.isDigit_of_mem_toDigits member
  have unmarked : ∀ body, ¬ Marked ([] ++ [] ++ Nat.toDigits 10 n) body := by
    rintro body ⟨_, mark, same, isMark⟩
    have digit := digits mark (by simp_all)
    rcases isMark with rfl | rfl
    · exact absurd digit (by decide)
    · exact absurd digit (by decide)
  apply numbered_iff
  · rw [text]
    intro member
    exact absurd (digits ' ' member) (by decide)
  · rw [text]
    have decimal := @Begins.decimal [] [] _ _ _ (fun c member => absurd member List.not_mem_nil) (by simp)
      (Text.starts_of_all digits) Nat.toDigits_ne_nil unmarked
    simpa using decimal

/-- The hexadecimal text, behind its mark. -/
def hexText (n : Nat) : String := "0x" ++ String.ofList (Nat.toDigits 16 n)

theorem numbered_hexText (n : Nat) (z : Int) : Numbered (hexText n) z ↔ z = n ∧ n < 2 ^ 63 := by
  obtain ⟨value, digits⟩ := hexValue_toDigits n
  have text : (hexText n).toList = '0' :: 'x' :: Nat.toDigits 16 n := by simp [hexText]
  apply numbered_iff
  · rw [text, List.mem_cons, List.mem_cons, not_or, not_or]
    exact ⟨by decide, by decide, fun member => absurd (digits ' ' member) (by decide)⟩
  · rw [text]
    have hex := Begins.hex ⟨Nat.toDigits_ne_nil, 'x', rfl, Or.inl rfl⟩ (Text.starts_of_all digits)
    rwa [value] at hex

/-! ### One number, three ways -/

namespace PropertyValue

/-- The numbers of a variant and of its two texts are one integer, and both texts can be compared with. -/
structure Agree (v : UInt64) : Prop where
  integers : ∀ value ∈ [ofVariant (.integer v.toNat), ofString (decimalText v.toNat), ofString (hexText v.toNat)],
    value.isValidInteger = true ∧ value.value64 = v
  equal : ∀ value ∈ [ofVariant (.integer v.toNat), ofString (decimalText v.toNat), ofString (hexText v.toNat)],
    ∀ other ∈ [ofVariant (.integer v.toNat), ofString (decimalText v.toNat), ofString (hexText v.toNat)],
      value.eq other = true
  criteria : ∀ text ∈ [decimalText v.toNat, hexText v.toNat], ∀ value : PropertyValue, value.isValidInteger = true →
    (value.check [("equal", text)] .invalid = true ↔ value.value64 = v) ∧
      (value.check [("bitmask", text)] .invalid = true ↔ value.value64 &&& v = v)

theorem ofVariant_integer (v : UInt64) : ofVariant (.integer v.toNat) = ⟨toString (v.toNat : Int), v, .integer⟩ := by
  show PropertyValue.mk _ (stored v.toNat) _ = _
  rw [stored_nat, UInt64.ofNat_toNat]

/-- The three ways agree on exactly the lower half of the range. -/
theorem agree_iff (v : UInt64) : Agree v ↔ v.toNat < 2 ^ 63 := by
  constructor
  · intro agree
    have valid := (agree.integers (ofString (decimalText v.toNat)) (by simp)).1
    by_contra large
    rw [ofString_plain fun z numbered => large ((numbered_decimalText v.toNat z).mp numbered).2] at valid
    cases valid
  · intro small
    have decimal : ofString (decimalText v.toNat) = ⟨decimalText v.toNat, v, .integer⟩ := by
      rw [ofString_numbered ((numbered_decimalText v.toNat v.toNat).mpr ⟨rfl, small⟩), stored_nat, UInt64.ofNat_toNat]
    have hex : ofString (hexText v.toNat) = ⟨hexText v.toNat, v, .integer⟩ := by
      rw [ofString_numbered ((numbered_hexText v.toNat v.toNat).mpr ⟨rfl, small⟩), stored_nat, UInt64.ofNat_toNat]
    refine ⟨?_, ?_, ?_⟩
    · simp [decimal, hex, ofVariant_integer, isValidInteger]
    · simp [decimal, hex, ofVariant_integer, isValidInteger, eq]
    · intro text member value valid
      have criteria : ofString text = ⟨text, v, .integer⟩ := by
        simp only [List.mem_cons, List.not_mem_nil, or_false] at member
        rcases member with rfl | rfl
        · exact decimal
        · exact hex
      simp [check, checkFrom, checkEntry, valueFromCriteria, isValidVariant, criteria, eq, bitmask, valid]
      simp [isValidInteger]

/-- The highest bit alone: the texts are no integers, and the mask is never met. -/
theorem agree_high_bit : ¬ Agree 0x8000000000000000 ∧
    (ofVariant (.integer 0x8000000000000000)).value64 = 0x8000000000000000 ∧
    (ofString "9223372036854775808").isValidInteger = false ∧ (ofString "0x8000000000000000").isValidInteger = false ∧
    (ofVariant (.integer 0x8000000000000000)).check [("bitmask", "0x8000000000000000")] .invalid = false := by
  refine ⟨fun agree => ?_, by decide +kernel, by decide +kernel, by decide +kernel, by decide +kernel⟩
  have valid := (agree.integers (ofString (decimalText (0x8000000000000000 : UInt64).toNat)) (by simp)).1
  exact absurd valid (by decide +kernel)

end PropertyValue

end MonitorEventing.Accessor
