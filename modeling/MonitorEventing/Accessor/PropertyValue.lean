import MonitorEventing.Basic
import MonitorEventing.Lib.Text

/-!
# Property values

What an accessor reads: a text together with its 64 bit integer where it has one, the conversion
from text and from bus variants, and the check operations.
-/

namespace MonitorEventing.Accessor

/-- The variant of the bus. The seven integer alternatives are one here: what becomes of them is the
value modulo 2^64 and its decimal text. A double is its own cast and text. -/
inductive PropertyVariant where
  | invalid
  | boolean (b : Bool)
  | integer (value : Int)
  | double (cast : UInt64) (text : String)
  | string (s : String)
  | strings (list : List String)
  | associations (list : List (String × String × String))
  deriving DecidableEq, Repr

def isValidVariant : PropertyVariant → Bool
  | .invalid => false
  | _ => true

inductive DataState where
  | empty | integer | stringOnly
  deriving DecidableEq, Repr

structure PropertyValue where
  strValue : String := ""
  value64 : UInt64 := 0
  state : DataState := .empty
  deriving DecidableEq, Repr

/-! ### Numbers in text -/

def isSpace (c : Char) : Bool := c == ' ' || (9 ≤ c.toNat && c.toNat ≤ 13)

def hexDigit (c : Char) : Option Nat :=
  if '0' ≤ c ∧ c ≤ '9' then some (c.toNat - '0'.toNat)
  else if 'a' ≤ c ∧ c ≤ 'f' then some (c.toNat - 'a'.toNat + 10)
  else if 'A' ≤ c ∧ c ≤ 'F' then some (c.toNat - 'A'.toNat + 10)
  else none

def hexPrefix (acc : Nat) : List Char → Nat
  | [] => acc
  | c :: rest =>
    match hexDigit c with
    | some d => hexPrefix (16 * acc + d) rest
    | none => acc

/-- A `long long` in range, as the `uint64_t` it is stored in. -/
def storeInt64 (value : Int) : Option UInt64 :=
  if -2 ^ 63 ≤ value ∧ value ≤ 2 ^ 63 - 1 then some (UInt64.ofNat (value % 2 ^ 64).toNat) else none

/-- `std::stoll` in base 10: leading space, a sign, and as many digits as there are; `none` for an
exception. -/
def stollDecimal (text : List Char) : Option UInt64 :=
  let body := text.dropWhile isSpace
  let negative := body.head? == some '-'
  let unsigned := if negative || body.head? == some '+' then body.tail else body
  let digits := unsigned.takeWhile Char.isDigit
  let magnitude : Int := Nat.ofDigitChars 10 digits 0
  if digits = [] then none else storeInt64 (if negative then -magnitude else magnitude)

/-- `std::stoll` in base 16 of a text that starts with "0x" or "0X". -/
def stollHex (afterMark : List Char) : Option UInt64 := storeInt64 (hexPrefix 0 afterMark)

/-- The integer a text stands for, if `string2Uint64` finds one. -/
def integerOfText (value : List Char) : Option UInt64 :=
  if value = [] ∨ ' ' ∈ value then none
  else if String.ofList value ∈ ["true", "True", "TRUE"] then some 1
  else if String.ofList value ∈ ["false", "False", "FALSE"] then some 0
  else
    match value with
    | '0' :: x :: c :: rest =>
      if x = 'x' ∨ x = 'X' then stollHex (c :: rest) else stollDecimal value
    | _ => stollDecimal value

namespace PropertyValue

/-- `PropertyValue(const std::string&)`, through `string2Uint64`. -/
def ofString (value : String) : PropertyValue :=
  match integerOfText value.toList with
  | some data => ⟨value, data, .integer⟩
  | none => ⟨value, 0, .stringOnly⟩

/-- `PropertyValue(const std::string&, uint64_t)`. -/
def ofBoth (valueStr : String) (value64 : UInt64) : PropertyValue := ⟨valueStr, value64, .integer⟩

/-- `PropertyValue(const PropertyVariant&)`, through `getPropertyDataFromVariant`. -/
def ofVariant : PropertyVariant → PropertyValue
  | .string s => ⟨s, 0, .stringOnly⟩
  | .integer value => ⟨toString value, UInt64.ofNat (value % 2 ^ 64).toNat, .integer⟩
  | .double cast text => ⟨text, cast, .integer⟩
  | .boolean true => ⟨"true", 1, .integer⟩
  | .boolean false => ⟨"false", 0, .integer⟩
  | .strings list => ⟨" ".intercalate list, 0, .stringOnly⟩
  | .associations _ => {}
  | .invalid => {}

/-- `PropertyString(const std::string&)`. -/
def propertyString (value : String) : PropertyValue := ⟨value, 0, .stringOnly⟩

/-- `PropertyString(const PropertyVariant&)`. -/
def propertyStringOfVariant (variant : PropertyVariant) : PropertyValue :=
  { ofVariant variant with state := .stringOnly }

def empty (value : PropertyValue) : Bool := value.state = .empty

def isValidInteger (value : PropertyValue) : Bool := value.state = .integer

/-- `operator==`: as integers where both are, otherwise as texts. -/
def eq (a b : PropertyValue) : Bool :=
  if a.isValidInteger && b.isValidInteger then a.value64 == b.value64 else a.strValue == b.strValue

/-! ### Checks -/

def bitmask (value other : PropertyValue) : Bool :=
  other.isValidInteger && (value.isValidInteger && value.value64 &&& other.value64 == other.value64)

def notBitmask (value other : PropertyValue) : Bool :=
  other.isValidInteger && !(value.isValidInteger && value.value64 &&& other.value64 == other.value64)

def bitset (value other : PropertyValue) : Bool :=
  other.isValidInteger && (value.isValidInteger && value.value64 &&& other.value64 != 0)

def notBitset (value other : PropertyValue) : Bool :=
  other.isValidInteger && !(value.isValidInteger && value.value64 &&& other.value64 != 0)

/-- The case sensitive `lookup`. -/
def lookup (value other : PropertyValue) : Bool :=
  Text.occursIn other.strValue.toList value.strValue.toList

/-- `criteria::getStringFromCriteria`. -/
def stringFromCriteria (redefCriteria : PropertyVariant) (accessorValue : String) : PropertyValue :=
  if isValidVariant redefCriteria then propertyStringOfVariant redefCriteria else propertyString accessorValue

/-- `criteria::getValueFromCriteria`. -/
def valueFromCriteria (redefCriteria : PropertyVariant) (accessorValue : String) : PropertyValue :=
  if isValidVariant redefCriteria then ofVariant redefCriteria else ofString accessorValue

/-- One entry of the check map. An unknown key leaves the result of the entry before. -/
def checkEntry (value : PropertyValue) (redefCriteria : PropertyVariant) (ret : Bool)
    (key accessorValue : String) : Bool :=
  let criteria := valueFromCriteria redefCriteria accessorValue
  if key = "bitmask" ∨ key = "bitmap" then value.bitmask criteria
  else if key = "bitset" then value.bitset criteria
  else if key = "not_bitmask" then value.notBitmask criteria
  else if key = "not_bitset" then value.notBitset criteria
  else if key = "lookup" then value.lookup (stringFromCriteria redefCriteria accessorValue)
  else if key = "equal" then value.eq criteria
  else if key = "not_equal" then !value.eq criteria
  else ret

/-- The loop of `check` over the map, stopping at the first entry that fails. -/
def checkFrom (value : PropertyValue) (redefCriteria : PropertyVariant) : Bool → List (String × String) → Bool
  | ret, [] => ret
  | ret, (key, accessorValue) :: rest =>
    if value.checkEntry redefCriteria ret key accessorValue then value.checkFrom redefCriteria true rest
    else false

def check (value : PropertyValue) (map : List (String × String)) (redefCriteria : PropertyVariant) : Bool :=
  value.checkFrom redefCriteria false map

/-! ### Small facts -/

@[simp] theorem ofString_strValue (s : String) : (ofString s).strValue = s := by
  unfold ofString
  cases integerOfText s.toList <;> rfl

theorem ofString_not_empty (s : String) : (ofString s).empty = false := by
  unfold ofString
  cases integerOfText s.toList <;> rfl

theorem eq_refl (value : PropertyValue) : value.eq value = true := by
  unfold eq
  split <;> simp

theorem propertyString_eq (s : String) (value : PropertyValue) :
    (propertyString s).eq value = (s == value.strValue) := by
  simp [eq, propertyString, isValidInteger]

example : ofString "0x1F" = ⟨"0x1F", 31, .integer⟩ := by decide

end PropertyValue

end MonitorEventing.Accessor
