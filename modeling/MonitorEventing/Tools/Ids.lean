import MonitorEventing.DeviceId.Evaluation
import MonitorEventing.DeviceId.Grammar

/-!
# The device id language of the tools

The scripts have an implementation of the device id language of their own, `ids.py`. It works on a syntax tree
and goes through all choices of an index for each input position. Where both implementations take a pattern,
they give the same.
-/

namespace MonitorEventing.Ids

inductive Raised where
  | assertionError
  | indexError
  | keyError
  | typeError
  | valueError
  | exception (text : String)
  deriving DecidableEq

/-- What a dictionary's `[]` gives. -/
def orKeyError {α : Type} : Option α → Except Raised α
  | some value => .ok value
  | none => .error .keyError

@[simp] theorem orKeyError_ok_iff {α : Type} {found : Option α} {value : α} :
    orKeyError found = .ok value ↔ found = some value := by
  cases found <;> simp [orKeyError]

/-- What a tuple's `[]` gives. -/
def orIndexError {α : Type} : Option α → Except Raised α
  | some value => .ok value
  | none => .error .indexError

@[simp] theorem orIndexError_ok_iff {α : Type} {found : Option α} {value : α} :
    orIndexError found = .ok value ↔ found = some value := by
  cases found <;> simp [orIndexError]

/-! ### Syntax trees -/

/-- The token of `number`. -/
structure Number where
  token : List Char
  nonempty : token ≠ []
  decimal : ∀ c ∈ token, c.isDigit = true

inductive Range where
  | number (n : Number)
  | properRange (first last : Number)

inductive Map where
  | range (r : Range)
  | properMap (domain image : Range)

structure SumMap where
  first : Map
  rest : List Map

inductive IndexedMap where
  | sumMap (maps : SumMap)
  | properIndexedMap (index : Number) (maps : SumMap)

/-- The token of `string`. -/
structure Str where
  token : List Char
  nonempty : token ≠ []
  plain : '[' ∉ token

/-- `string_map`. -/
structure Tree where
  head : Option Str
  rest : List (IndexedMap × Option Str)

/-! ### What is parsed -/

def Range.text : Range → List Char
  | .number n => n.token
  | .properRange first last => first.token ++ '-' :: last.token

def Map.text : Map → List Char
  | .range r => r.text
  | .properMap domain image => domain.text ++ ':' :: image.text

def SumMap.text (maps : SumMap) : List Char := maps.first.text ++ maps.rest.flatMap fun map => ',' :: map.text

def IndexedMap.text : IndexedMap → List Char
  | .sumMap maps => maps.text
  | .properIndexedMap index maps => index.token ++ '|' :: maps.text

/-- `stringValOrEmpty`. -/
def strText (str : Option Str) : List Char := (str.map (·.token)).getD []

def Tree.text (tree : Tree) : List Char :=
  strText tree.head ++ tree.rest.flatMap fun entry => '[' :: (entry.1.text ++ ']' :: strText entry.2)

/-! ### Mappings -/

/-- A dictionary, in the order its keys were added. -/
abbrev Dict : Type := List (Nat × Nat)

def conflictMsg (key new old : Nat) : String :=
  "Key mapping conflict: ‘" ++ toString key ++ "’: ‘" ++ toString new ++ "’ vs ‘" ++ toString key ++ "’: ‘" ++
    toString old ++ "’"

def addEntry (result : Dict) (entry : Nat × Nat) : Except Raised Dict :=
  match result.lookup entry.1 with
  | none => .ok (result ++ [entry])
  | some old => if entry.2 ≠ old then .error (.exception (conflictMsg entry.1 entry.2 old)) else .ok result

/-- With the strategy "error". -/
def dictSum (ds : List Dict) : Except Raised Dict := ds.foldlM (fun result d => d.foldlM addEntry result) []

def sequencesDict (xs ys : List Nat) : Except Raised Dict :=
  if ys.length = 1 ∨ xs.length = ys.length then
    match ys with
    | [y] => .ok (xs.map fun x => (x, y))
    | ys => .ok (xs.zip ys)
  else .error .assertionError

/-- `number__getVal`. -/
def Number.getVal (n : Number) : Nat := Nat.ofDigitChars 10 n.token 0

def Range.values : Range → List Nat
  | .number n => [n.getVal]
  | .properRange first last => List.range' first.getVal (last.getVal + 1 - first.getVal)

def Map.domain : Map → List Nat
  | .range r => r.values
  | .properMap domain _ => domain.values

def Map.image : Map → List Nat
  | .range r => r.values
  | .properMap _ image => image.values

def Map.mapping (map : Map) : Except Raised Dict := sequencesDict map.domain map.image

def SumMap.mapping (maps : SumMap) : Except Raised Dict := do
  let ds ← (maps.first :: maps.rest).mapM Map.mapping
  dictSum ds

def IndexedMap.getIndex : IndexedMap → Option Nat
  | .sumMap _ => none
  | .properIndexedMap index _ => some index.getVal

def IndexedMap.getMapping : IndexedMap → Except Raised Dict
  | .sumMap maps => maps.mapping
  | .properIndexedMap _ maps => maps.mapping

/-- `indexed_map__get`. -/
def IndexedMap.get (map : IndexedMap) : Except Raised (Option Nat × Dict) := do
  let mapping ← map.getMapping
  pure (map.getIndex, mapping)

/-! ### Patterns -/

def fillImplicitIndexes (partiallyIndexedMappings : List (Option Nat × Dict)) : List (Nat × Dict) :=
  partiallyIndexedMappings.mapIdx fun autoIndex entry => (entry.1.getD autoIndex, entry.2)

def calcInputIndexToBracketPoss (bracketsInputIndexes : List Nat) : List (List Nat) :=
  match bracketsInputIndexes.max? with
  | none => []
  | some largest =>
    bracketsInputIndexes.zipIdx.foldl
      (fun result entry => result.modify entry.1 fun row => if row = [] then [entry.2] else row ++ [entry.2])
      (List.replicate (largest + 1) [])

/-- `DeviceIdPattern`. An input position that no bracket uses has `None` as its domain. -/
structure Pattern where
  strings : List String
  indexedMappings : List (Nat × Dict)
  domains : List (List (Option Nat))

def keysAt (indexedMappings : List (Nat × Dict)) (bracketPos : Nat) : List Nat :=
  (indexedMappings.getD bracketPos (0, [])).2.map (·.1)

def domainAt (indexedMappings : List (Nat × Dict)) : List Nat → List (Option Nat)
  | [] => [none]
  | first :: rest =>
    let common := rest.foldl (fun d bracketPos => d.filter (keysAt indexedMappings bracketPos).contains)
      (keysAt indexedMappings first)
    (common.insertionSort (· ≤ ·)).map some

def Pattern.init (strings : List String) (partiallyIndexedMappings : List (Option Nat × Dict)) : Pattern :=
  let indexedMappings := fillImplicitIndexes partiallyIndexedMappings
  { strings, indexedMappings
    domains := (calcInputIndexToBracketPoss (indexedMappings.map (·.1))).map (domainAt indexedMappings) }

/-- `string_map__getIds`. -/
def Tree.getIds (tree : Tree) : Except Raised Pattern := do
  let mappings ← tree.rest.mapM fun entry => entry.1.get
  pure (.init (String.ofList (strText tree.head) :: tree.rest.map fun entry => String.ofList (strText entry.2)) mappings)

/-! ### Values -/

/-- An argument: an index or `None` for each input position. -/
abbrev Tuple : Type := List (Option Nat)

namespace Pattern

def rawInputToInput (indxs : Tuple) (n : Nat) : Tuple := indxs ++ List.replicate (n - indxs.length) none

/-- There is no domain past the last input position. -/
def expandInput (indxs : Tuple) (domains : List (List (Option Nat))) : Except Raised (List Tuple) := do
  let choices ← indxs.zipIdx.mapM fun entry =>
    match entry.1 with
    | some index => .ok [some index]
    | none =>
      match domains[entry.2]? with
      | some domain => .ok domain
      | none => .error .typeError
  pure (MixedRadix.product choices)

def expandPatternInput (ids : Pattern) (args : Tuple) : Except Raised (List Tuple) :=
  expandInput (rawInputToInput args ids.domains.length) ids.domains

def patternInputToBracketsInput (ids : Pattern) (indxs : Tuple) : Except Raised Tuple :=
  ids.indexedMappings.mapM fun entry => orIndexError indxs[entry.1]?

def bracketsInputToBracketsOutput (ids : Pattern) (indxs : Tuple) : Except Raised (List Nat) :=
  (indxs.zip (ids.indexedMappings.map (·.2))).mapM fun entry =>
    orKeyError (entry.1.bind fun index => entry.2.lookup index)

def bracketsOutputToStringOutput (ids : Pattern) (indxs : List Nat) : String :=
  DeviceId.interleave ids.strings (indxs.map toString)

/-- What is computed of one tuple. -/
def valueAt (ids : Pattern) (indxs : Tuple) : Except Raised String := do
  let bracketsInput ← ids.patternInputToBracketsInput indxs
  let bracketsOutput ← ids.bracketsInputToBracketsOutput bracketsInput
  pure (ids.bracketsOutputToStringOutput bracketsOutput)

def values (ids : Pattern) (args : Tuple) : Except Raised (List String) := do
  let tuples ← ids.expandPatternInput args
  tuples.mapM ids.valueAt

def pairs (ids : Pattern) (args : Tuple) : Except Raised (List (Tuple × String)) := do
  let tuples ← ids.expandPatternInput args
  tuples.mapM fun indxs => do
    let value ← ids.valueAt indxs
    pure (indxs, value)

/-- `repr` of a tuple. -/
def repr (args : Tuple) : String :=
  "(" ++ ", ".intercalate (args.map fun index => index.elim "None" toString) ++ (if args.length = 1 then ",)" else ")")

/-- The values are computed one by one, and the first is enough. -/
def evalAt (ids : Pattern) (args : Tuple) : Except Raised String := do
  let tuples ← ids.expandPatternInput args
  match tuples with
  | [] => .error (.exception ("No values found for the argument ‘" ++ repr args ++ "’"))
  | indxs :: _ => ids.valueAt indxs

end Pattern

/-! ### The inverse -/

/-- Every value with the keys that map to it. -/
def dictInv {α β : Type} [BEq β] (d : List (α × β)) : List (β × List α) :=
  d.foldl (fun result entry =>
    if (result.lookup entry.2).isSome then
      result.map fun row => if row.1 == entry.2 then (row.1, row.2 ++ [entry.1]) else row
    else result ++ [(entry.2, [entry.1])]) []

/-- Unlike `calcInputIndexToBracketPoss`, this takes the maximum of any list. -/
def calcPatternPositionsToBracketPositons (bracketsPatternInputPositions : List Nat) : Except Raised (List (List Nat)) :=
  if bracketsPatternInputPositions = [] then .error .valueError
  else .ok (calcInputIndexToBracketPoss bracketsPatternInputPositions)

/-- `InvDeviceIdPattern`. -/
structure InvPattern where
  patternInPosToBracketPos : List (List Nat)
  invMappings : List (List (List Nat × List (Option Nat)))

def outputsOf (indexedMappings : List (Nat × Dict)) (bracketPositions : List Nat) (x : Option Nat) :
    Except Raised (List Nat) :=
  bracketPositions.mapM fun bracketPos =>
    orKeyError (x.bind fun index => (indexedMappings.getD bracketPos (0, [])).2.lookup index)

def InvPattern.init (ids : Pattern) : Except Raised InvPattern := do
  let patternInPosToBracketPos ← calcPatternPositionsToBracketPositons (ids.indexedMappings.map (·.1))
  let invMappings ← patternInPosToBracketPos.zipIdx.mapM fun row => do
    let mapped ← (ids.domains.getD row.2 []).mapM fun x => do
      let outputs ← outputsOf ids.indexedMappings row.1 x
      pure (x, outputs)
    pure (dictInv mapped)
  pure ⟨patternInPosToBracketPos, invMappings⟩

namespace InvPattern

def bracketOutputToPatternInput (inv : InvPattern) (indxs : List Nat) : Except Raised (List (List (Option Nat))) :=
  inv.patternInPosToBracketPos.zipIdx.mapM fun row => do
    let key ← row.1.mapM fun k => orIndexError indxs[k]?
    orKeyError ((inv.invMappings.getD row.2 []).lookup key)

def bracketOutputToPatternInputs (inv : InvPattern) (indxs : List Nat) : Except Raised (List Tuple) := do
  let choices ← inv.bracketOutputToPatternInput indxs
  pure (MixedRadix.product choices)

end InvPattern

end MonitorEventing.Ids
