import MonitorEventing.Accessor.Numerals
import MonitorEventing.Selftest.Perform

/-!
# Expected values

A test point passes where the value read compares as equal to the text that is expected. Both texts
are looked at as numbers first, and of a text that only begins with a number the rest is not compared.
-/

namespace MonitorEventing.Selftest
open Accessor Dat

/-! ### Texts that are numbers as a whole -/

/-- A sign, digits and a decimal fraction. -/
def isDecimal (text : List Char) : Bool :=
  let unsigned := if text.head? == some '+' || text.head? == some '-' then text.tail else text
  !(unsigned.takeWhile Char.isDigit).isEmpty &&
    match unsigned.dropWhile Char.isDigit with
    | [] => true
    | c :: decimals => c == '.' && !decimals.isEmpty && decimals.all Char.isDigit

def isHexadecimal (text : List Char) : Bool :=
  match afterMark text with
  | some body => body.all isHexDigit
  | none => false

/-- Wholly a numeral, or a truth value. -/
def isLiteral (s : String) : Bool :=
  isDecimal s.toList || isHexadecimal s.toList || decide (s ∈ truthWords ++ falseWords)

example : ["12", "-3.5", "0x1F", "true"].all isLiteral = true := by decide

/-! ### The comparison -/

/-- Two texts never compare as equal, nor pass as what was read and what was expected, unless they are the same. -/
def ToldApart (readText expVal : String) : Prop :=
  ((PropertyValue.ofString readText).eq (.ofString expVal) = true → readText = expVal) ∧
  ∀ (name : String) (severity : Severity) (isDevice : Bool), expVal ≠ "" →
    (fillTpRes expVal (.ofString readText) name severity isDevice).result = true → readText = expVal

theorem fillTpRes_ofString (expVal readText name : String) (severity : Severity) (isDevice : Bool) (some : expVal ≠ "") :
    (fillTpRes expVal (.ofString readText) name severity isDevice).result =
      (PropertyValue.ofString readText).eq (.ofString expVal) := by
  simp [fillTpRes, PropertyValue.ofString_not_empty, some]

/-- Two texts are told apart unless they differ behind one number that both begin with. -/
theorem toldApart_iff (readText expVal : String) :
    ToldApart readText expVal ↔ readText = expVal ∨ ¬ ∃ z, Numbered readText z ∧ Numbered expVal z := by
  have both : ToldApart readText expVal ↔
      ((PropertyValue.ofString readText).eq (.ofString expVal) = true → readText = expVal) := by
    refine and_iff_left_of_imp fun equal name severity isDevice some => ?_
    rw [fillTpRes_ofString expVal readText name severity isDevice some]
    exact equal
  rw [both, PropertyValue.ofString_eq_iff]
  constructor
  · intro apart
    by_cases same : readText = expVal
    · exact Or.inl same
    · exact Or.inr fun number => same (apart (Or.inr number))
  · intro either equal
    rcases equal with same | number
    · exact same
    · exact either.resolve_right fun none => none number

/-- Two versions of a firmware: a test point that expects one passes on the other. -/
theorem toldApart_versions : ' ' ∉ "1.2.3".toList ∧ ' ' ∉ "1.2.4".toList ∧
    isLiteral "1.2.3" = false ∧ isLiteral "1.2.4" = false ∧ ¬ ToldApart "1.2.4" "1.2.3" ∧
    (fillTpRes "1.2.3" (.ofString "1.2.4") "version" .critical false).result = true := by
  refine ⟨by decide, by decide, by decide, by decide, fun apart => ?_, by decide⟩
  exact absurd (apart.1 (by decide)) (by decide)

end MonitorEventing.Selftest
