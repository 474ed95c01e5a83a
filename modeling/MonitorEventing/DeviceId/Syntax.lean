import MonitorEventing.Basic
import MonitorEventing.Lib.Text

/-!
# Bracket syntax

The parsers for what stands inside a bracket of a device id pattern, from the number up to the
indexed bracket map ("0|0-7:1-8"). Each layer splits its text at one separator and hands the pieces
to the layer below. The ranges carry the conditions their constructors check.
-/

namespace MonitorEventing.DeviceId

/-- `boost::split` at any of the given characters, without token compression. -/
def split (separators : List Char) (text : List Char) : List (List Char) :=
  text.splitOnP fun c => separators.contains c

def intMin : Int := -2 ^ 31
def intMax : Int := 2 ^ 31 - 1

/-- `std::from_chars` for `int`: an optional minus sign and as many digits as there are. `none` is
an error code, otherwise the value and the unread rest. -/
def fromChars (range : List Char) : Option (Int × List Char) :=
  let negative := range.head? == some '-'
  let body := if negative then range.tail else range
  let digits := body.takeWhile Char.isDigit
  let magnitude : Int := Nat.ofDigitChars 10 digits 0
  let value := if negative then -magnitude else magnitude
  if digits = [] ∨ value < intMin ∨ intMax < value then none
  else some (value, body.dropWhile Char.isDigit)

def parseNonNegativeInt (range : List Char) : Except Exn Nat :=
  match fromChars range with
  | some (value, []) =>
    if 0 ≤ value then .ok value.toNat
    else .error (.runtimeError "parseNonNegativeInt: ! value >= 0")
  | some _ => .error (.runtimeError "parseNonNegativeInt: ! readEnd == rangeEnd")
  | none => .error (.runtimeError
      "parseNonNegativeInt: ! std::from_chars(range.begin(), range.end(), value).ec == std::errc\x7b\x7d")

theorem fromChars_le {range rest : List Char} {value : Int} (h : fromChars range = some (value, rest)) :
    value ≤ intMax := by
  unfold fromChars at h
  extract_lets negative body digits magnitude read at h
  split at h
  · cases h
  · rename_i inside
    rw [← (Prod.mk.inj (Option.some.inj h)).1]
    omega

theorem parseNonNegativeInt_small {range : List Char} {number : Nat} (h : parseNonNegativeInt range = .ok number) :
    number < 2 ^ 31 := by
  unfold parseNonNegativeInt at h
  split at h
  · rename_i value read
    have bound := fromChars_le read
    split at h
    · obtain rfl := Except.ok.inj h
      simp only [intMax] at bound
      omega
    · cases h
  · cases h
  · cases h

/-! ### Ranges -/

/-- A range "1-8" of device indexes. -/
structure BracketRange where
  left : Nat
  right : Nat
  ordered : left ≤ right
  deriving DecidableEq

namespace BracketRange

def size (range : BracketRange) : Nat := range.right - range.left + 1

def elements (range : BracketRange) : List Nat := List.range' range.left range.size

def parse (range : List Char) : Except Exn BracketRange :=
  match split ['-'] range with
  | [element] => do
    let number ← parseNonNegativeInt element
    pure ⟨number, number, le_refl number⟩
  | [first, second] => do
    let left ← parseNonNegativeInt first
    let right ← parseNonNegativeInt second
    if ordered : left ≤ right then pure ⟨left, right, ordered⟩
    else .error (.runtimeError "BracketRange::parse: ! left <= right")
  | _ => .error (.runtimeError "BracketRange::parse: ! elements.size() in \x7b1, 2\x7d")

theorem mem_elements {range : BracketRange} {k : Nat} :
    k ∈ range.elements ↔ range.left ≤ k ∧ k ≤ range.right := by
  have := range.ordered
  simp only [elements, List.mem_range'_1, size]
  omega

end BracketRange

abbrev BracketMap := Std.TreeMap Nat Nat

structure BracketRangeMap where
  domain : BracketRange
  codomain : BracketRange
  sizes : domain.size = codomain.size ∨ codomain.size = 1
  deriving DecidableEq

namespace BracketRangeMap

/-- The constructor; its `from` and `to` are `domain` and `codomain` here. -/
def ofRanges (domain codomain : BracketRange) : Except Exn BracketRangeMap :=
  if sizes : domain.size = codomain.size ∨ codomain.size = 1 then .ok ⟨domain, codomain, sizes⟩
  else .error (.runtimeError "BracketRangeMap: from.size() == to.size() || to.size() == 1")

def parse (range : List Char) : Except Exn BracketRangeMap :=
  match split [':'] range with
  | [element] => do
    let bracketRange ← BracketRange.parse element
    ofRanges bracketRange bracketRange
  | [first, second] => do
    let domain ← BracketRange.parse first
    let codomain ← BracketRange.parse second
    ofRanges domain codomain
  | _ => .error (.runtimeError "BracketRangeMap: ! elements.size() in \x7b1, 2\x7d")

def toBracketMap (ranges : BracketRangeMap) : BracketMap :=
  if ranges.codomain.size = 1 then
    ranges.domain.elements.foldl (fun result key => result.insert key ranges.codomain.left) ∅
  else
    (ranges.domain.elements.zip ranges.codomain.elements).foldl
      (fun result entry => result.insert entry.1 entry.2) ∅

def value (ranges : BracketRangeMap) (key : Nat) : Nat :=
  if ranges.codomain.size = 1 then ranges.codomain.left
  else ranges.codomain.left + (key - ranges.domain.left)

theorem foldl_insert (keys : List Nat) (f : Nat → Nat) (m : BracketMap)
    (k : Nat) :
    (keys.foldl (fun result key => result.insert key (f key)) m)[k]? =
      if k ∈ keys then some (f k) else m[k]? := by
  induction keys generalizing m with
  | nil => simp
  | cons key keys ih =>
    rw [List.foldl_cons, ih]
    by_cases later : k ∈ keys
    · simp [later]
    · by_cases here : k = key
      · simp [here]
      · simp [later, here, Std.TreeMap.getElem?_insert, Ne.symm here]

theorem zip_elements {ranges : BracketRangeMap} (wide : ranges.codomain.size ≠ 1) :
    ranges.domain.elements.zip ranges.codomain.elements =
      ranges.domain.elements.map fun key => (key, ranges.codomain.left + (key - ranges.domain.left)) := by
  have same := ranges.sizes.resolve_right wide
  refine List.ext_getElem ?_ fun i hi _ => ?_
  · simp [BracketRange.elements, same]
  · simp [BracketRange.elements]

theorem toBracketMap_get (ranges : BracketRangeMap) (k : Nat) :
    ranges.toBracketMap[k]? = if k ∈ ranges.domain.elements then some (ranges.value k) else none := by
  unfold toBracketMap value
  split
  · rw [foldl_insert]
    simp
  · rename_i wide
    rw [zip_elements wide, List.foldl_map, foldl_insert]
    simp

end BracketRangeMap

def parseBracketMap (range : List Char) : Except Exn BracketMap :=
  match split [','] range with
  | [element] => do
    let ranges ← BracketRangeMap.parse element
    pure ranges.toBracketMap
  | _ => .error (.runtimeError "parseBracketMap: ! series of mappings not supported yet")

/-! ### Input positions -/

structure IndexedBracketMap where
  inputPosition : Int
  indexMap : BracketMap

namespace IndexedBracketMap

def indexPosImplicit : Int := -1

def isImplicit (bracketMapping : IndexedBracketMap) : Bool :=
  bracketMapping.inputPosition = indexPosImplicit

def parse (range : List Char) : Except Exn IndexedBracketMap :=
  match split ['|'] range with
  | [element] => do
    let indexMap ← parseBracketMap element
    pure ⟨indexPosImplicit, indexMap⟩
  | [first, second] => do
    let inputPosition ← parseNonNegativeInt first
    let indexMap ← parseBracketMap second
    pure ⟨inputPosition, indexMap⟩
  | _ => .error (.runtimeError "IndexedBracketMap::parse: ! elements.size() in \x7b1,2\x7d")

theorem parse_small {range : List Char} {bracketMapping : IndexedBracketMap} (h : parse range = .ok bracketMapping) :
    bracketMapping.inputPosition < 2 ^ 31 := by
  unfold parse at h
  split at h
  · obtain ⟨_, _, h⟩ := bind_ok h
    obtain rfl := pure_ok_iff.mp h
    exact (by decide : indexPosImplicit < 2 ^ 31)
  · obtain ⟨number, read, h⟩ := bind_ok h
    obtain ⟨_, _, h⟩ := bind_ok h
    obtain rfl := pure_ok_iff.mp h
    have small := parseNonNegativeInt_small read
    dsimp only
    omega
  · cases h

def fillImplicitInputPositions (bracketMappings : List IndexedBracketMap) : List IndexedBracketMap :=
  bracketMappings.mapIdx fun i bracketMapping =>
    if bracketMapping.isImplicit then { bracketMapping with inputPosition := i } else bracketMapping

@[simp] theorem length_fillImplicitInputPositions (bracketMappings : List IndexedBracketMap) :
    (fillImplicitInputPositions bracketMappings).length = bracketMappings.length := by
  simp [fillImplicitInputPositions]

end IndexedBracketMap

end MonitorEventing.DeviceId
