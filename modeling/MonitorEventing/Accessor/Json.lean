import MonitorEventing.Basic

/-!
# JSON values

The part of `nlohmann::json` the accessors, the tables loaded from files and their schemas use. An
object is the list of its members in key order, as `std::map` keeps them. Of the three kinds of
numbers `number` is the signed integer.
-/

namespace MonitorEventing

/-- What a `double` holds, both zeros alike. -/
inductive DoubleValue where
  | finite (x : Dyadic)
  | infinity (negative : Bool)
  | nan
  deriving DecidableEq

namespace DoubleValue

def le : DoubleValue → DoubleValue → Bool
  | nan, _ => false
  | _, nan => false
  | infinity true, _ => true
  | _, infinity false => true
  | finite x, finite y => decide (x ≤ y)
  | _, _ => false

/-- The nearest value with a significand of 53 bits, of two the one with the even significand. -/
def ofInt (n : Int) : DoubleValue :=
  let spacing : Int := 2 ^ (n.natAbs.log2 + 1 - 53)
  let significand := n / spacing
  let rest := n % spacing
  let upwards := spacing < 2 * rest ∨ (spacing = 2 * rest ∧ significand % 2 = 1)
  finite (.ofInt (spacing * if upwards then significand + 1 else significand))

/-- The cast to `int`, which drops the fraction. It is undefined where no `int` has the value. -/
def toInt : DoubleValue → Except Exn Int
  | finite x =>
    let whole := x.toRat.num.tdiv x.toRat.den
    if -2 ^ 31 ≤ whole ∧ whole < 2 ^ 31 then .ok whole else .error .undefined
  | _ => .error .undefined

end DoubleValue

/-- A `double`, with the text the library prints for it. -/
structure Double where
  value : DoubleValue
  text : String

inductive Json where
  | null
  | boolean (b : Bool)
  | number (n : Int)
  | unsigned (n : Nat)
  | float (x : Double)
  | string (s : String)
  | array (elems : List Json)
  | object (members : List (String × Json))

namespace Json

/-- The number as a `double`. -/
def toDouble? : Json → Option DoubleValue
  | number n => some (.ofInt n)
  | unsigned n => some (.ofInt n)
  | float x => some x.value
  | _ => none

/-- Signed and unsigned numbers are compared as signed ones, and any other pair as doubles. -/
def beqNumber : Json → Json → Bool
  | unsigned n, unsigned n' => n == n'
  | number n, unsigned n' | unsigned n', number n => n == (n' + 2 ^ 63) % 2 ^ 64 - 2 ^ 63
  | j, j' =>
    match j.toDouble?, j'.toDouble? with
    | some x, some x' => x.le x' && x'.le x
    | _, _ => false

mutual
def beq : Json → Json → Bool
  | null, null => true
  | boolean b, boolean b' => b == b'
  | number n, number n' => n == n'
  | string s, string s' => s == s'
  | array elems, array elems' => beqElems elems elems'
  | object members, object members' => beqMembers members members'
  | j, j' => beqNumber j j'

def beqElems : List Json → List Json → Bool
  | [], [] => true
  | j :: js, j' :: js' => beq j j' && beqElems js js'
  | _, _ => false

def beqMembers : List (String × Json) → List (String × Json) → Bool
  | [], [] => true
  | (key, j) :: rest, (key', j') :: rest' => key == key' && beq j j' && beqMembers rest rest'
  | _, _ => false
end

def items : Json → List (String × Json)
  | object members => members
  | _ => []

def get? (j : Json) (key : String) : Option Json := j.items.lookup key

/-- `count`, for a key of an object. -/
def contains (j : Json) (key : String) : Bool := (j.get? key).isSome

/-- `operator[]` of a constant value. A missing key of an object is undefined behaviour, any other
value throws. -/
def index (j : Json) (key : String) : Except Exn Json :=
  match j with
  | object members =>
    match members.lookup key with
    | some value => .ok value
    | none => .error .undefined
  | _ => .error .typeError

/-- `get<std::string>()`. -/
def getString : Json → Except Exn String
  | string s => .ok s
  | _ => .error .typeError

def isString (j : Json) (s : String) : Bool := beq j (string s)

/-- `get<std::map<std::string, std::string>>()`. -/
def getStringMap : Json → Except Exn (List (String × String))
  | object members => members.mapM fun entry => do
    let value ← entry.2.getString
    pure (entry.1, value)
  | _ => .error .typeError

def isEmpty : Json → Bool
  | null => true
  | array elems => elems.isEmpty
  | object members => members.isEmpty
  | _ => false

/-! ### Writing into a value -/

/-- `operator[]` with a key, of a value that is written to. -/
def memberOf : Json → String → Except Exn Json
  | .object members, key => .ok ((members.lookup key).getD .null)
  | .null, _ => .ok .null
  | _, _ => .error .typeError

def putMember : List (String × Json) → String → Json → List (String × Json)
  | [], key, value => [(key, value)]
  | (other, old) :: rest, key, value =>
    if other = key then (key, value) :: rest
    else if key < other then (key, value) :: (other, old) :: rest
    else (other, old) :: putMember rest key value

def withMember : Json → String → Json → Json
  | .object members, key, value => .object (putMember members key value)
  | _, key, value => .object [(key, value)]

/-- `operator[]` with an index, of a value that is written to. -/
def elementOf : Json → Nat → Except Exn Json
  | .array elems, i => .ok (elems.getD i .null)
  | .null, _ => .ok .null
  | _, _ => .error .typeError

def withElement : Json → Nat → Json → Json
  | .array elems, i, value => .array ((elems ++ List.replicate (i + 1 - elems.length) Json.null).set i value)
  | _, i, value => .array (List.replicate i .null ++ [value])

/-! ### Small facts -/

@[simp] theorem beq_string (s s' : String) : beq (string s) (string s') = (s == s') := rfl

theorem isString_iff {j : Json} {s : String} : j.isString s = true ↔ j = string s := by
  cases j <;> simp [isString, beq, beqNumber, toDouble?]

@[simp] theorem getString_ok_iff {j : Json} {s : String} : j.getString = .ok s ↔ j = string s := by
  cases j <;> simp [getString]

theorem index_ok_iff {j : Json} {key : String} {value : Json} : j.index key = .ok value ↔ j.get? key = some value := by
  cases j with
  | object members =>
    simp only [Json.index, get?, items]
    cases members.lookup key <;> simp
  | _ => simp [Json.index, get?, items]

theorem mem_items_of_get? {j : Json} {key : String} {value : Json} (read : j.get? key = some value) :
    (key, value) ∈ j.items := mem_of_lookup read

end Json

end MonitorEventing
