import MonitorEventing.EventInfo.EventNode
import MonitorEventing.Lib.Report
import MonitorEventing.Schema.JsonPath

/-!
# JSON schemas

A schema is an object that checks an element at a path and collects what is wrong with it. Each class is
here what its `rawCheck` does, given what that of its parts does, and the tree of schemas puts them
together.
-/

namespace MonitorEventing.Schema
open Dat EventInfo

inductive ValueType where
  | null | object | array | string | boolean | numberInteger | numberUnsigned | numberFloat | binary | discarded
  deriving DecidableEq, Repr

def typeOf : Json → ValueType
  | .null => .null
  | .boolean _ => .boolean
  | .number _ => .numberInteger
  | .unsigned _ => .numberUnsigned
  | .float _ => .numberFloat
  | .string _ => .string
  | .array _ => .array
  | .object _ => .object

def getTypeAsString : ValueType → String
  | .null => "null"
  | .boolean => "boolean"
  | .numberInteger => "number_integer"
  | .numberUnsigned => "number_unsigned"
  | .numberFloat => "number_float"
  | .object => "object"
  | .array => "array"
  | .string => "string"
  | _ => "(unknown)"

/-- A path and what is wrong there. -/
abbrev JsonFormatProblem : Type := JsonPath × String

abbrev ProblemsCollector : Type := List JsonFormatProblem

abbrev RawCheck : Type := Json → StackJsonPath → Report.Check Exn JsonFormatProblem

def singleQuote (sth : String) : String := "'" ++ sth ++ "'"

def setToString {α : Type} (elements : List α) (transform : α → String) : String :=
  "\x7b" ++ ", ".intercalate (elements.map transform) ++ "\x7d"

def singleCheck (condition : Bool) (messageIfConditionNotMet : String) (elementPath : StackJsonPath) :
    Report.Check Exn JsonFormatProblem :=
  Report.single condition (getPath elementPath, messageIfConditionNotMet)

/-! ### Classes -/

def JsonLiteralSchema.rawCheck (value : Bool) : RawCheck := fun _ elementPath =>
  singleCheck value "Not allowed" elementPath

/-- Each checker comes with the types it is for. -/
def JsonFeaturesCheckerSchema.rawCheck (checkers : List ((ValueType → Bool) × RawCheck)) : RawCheck :=
  fun element elementPath => Report.all (checkers.map fun checker =>
    if checker.1 (typeOf element) then checker.2 element elementPath else Report.accept)

def JsonTypeChecker.rawCheck (expectedTypes : List ValueType) : RawCheck := fun element elementPath =>
  singleCheck (expectedTypes.contains (typeOf element))
    ((match expectedTypes with
      | [expectedType] => "Type expected to be " ++ singleQuote (getTypeAsString expectedType)
      | _ => "Type expected to be one of " ++ setToString expectedTypes fun elem => singleQuote (getTypeAsString elem)) ++
      " (actual type: " ++ singleQuote (getTypeAsString (typeOf element)) ++ ")")
    elementPath

def JsonPropertiesCheck.rawCheck (additionalPropertiesSchema : RawCheck)
    (propertiesCheckers : List (String × RawCheck)) : RawCheck := fun element elementPath =>
  Report.all ((itemsOf element).map fun (key, value) =>
    ((propertiesCheckers.lookup key).getD additionalPropertiesSchema) value (.key key :: elementPath))

def JsonItemsCheck.rawCheck (elementSchema : RawCheck) : RawCheck := fun element elementPath =>
  match element with
  | .array elems =>
    if elems.length < 2 ^ 32 then
      Report.all (elems.zipIdx.map fun (elem, i) => elementSchema elem (.index i :: elementPath))
    -- The counter wraps before it gets to the size, so the loop has no end.
    else fun _ => .error .undefined
  | .null => Report.accept
  | .object [] => Report.accept
  | _ => fun _ => .error .typeError

def JsonEnumCheck.rawCheck (allowedValues : List Json) : RawCheck := fun element elementPath =>
  singleCheck (allowedValues.any fun value => value.beq element)
    ("Value expected to be one of " ++ setToString allowedValues dump ++ " (actual value: " ++ dump element ++ ")")
    elementPath

def JsonRequiredPropertiesCheck.rawCheck (requiredProperties : List String) : RawCheck := fun element elementPath =>
  Report.all (requiredProperties.map fun requiredProperty =>
    singleCheck (element.contains requiredProperty) ("Required property " ++ singleQuote requiredProperty ++ " not found")
      elementPath)

def boundCheckErrorMsg (bound : Double) (element : Json) (relation : String) : Except Exn String := do
  let text ← if typeOf element = .numberFloat then pure bound.text else (bound.value.toInt).map toString
  pure ("Value expected to be " ++ relation ++ " " ++ text ++ " (actual value: " ++ dump element ++ ")")

/-- The check of both bounds. `get<double>` takes numbers only. -/
def JsonBoundCheck.rawCheck (inBound : DoubleValue → Bool) (relation : String) (bound : Double) : RawCheck :=
  fun element elementPath problems => do
    let value ← element.toDouble?.elim (.error .typeError) .ok
    let message ← boundCheckErrorMsg bound element relation
    singleCheck (inBound value) message elementPath problems

def JsonLowerBoundCheck.rawCheck (bound : Double) : RawCheck :=
  JsonBoundCheck.rawCheck (fun value => bound.value.le value) "greater than or equal to" bound

def JsonUpperBoundCheck.rawCheck (bound : Double) : RawCheck :=
  JsonBoundCheck.rawCheck (fun value => value.le bound.value) "lesser than or equal to" bound

def JsonAnyOfCheck.rawCheck (schemas : List RawCheck) : RawCheck := fun element elementPath =>
  Report.any (getPath elementPath, "Element doesn't match any of the alllowed schemas")
    (fun i problem => (problem.1, problem.2 ++ " (schema no. " ++ toString i ++ ")"))
    (schemas.map fun schema => schema element elementPath)

/-- The check of both lengths, which are counted in bytes by an `unsigned`. -/
def JsonStringLengthCheck.rawCheck (checkLength : Nat → Bool) (relation : String) (bound : Nat) : RawCheck :=
  fun element elementPath problems => do
    let string ← element.getString
    let len := string.utf8ByteSize % 2 ^ 32
    singleCheck (checkLength len)
      ("String expected to be " ++ relation ++ " " ++ toString bound ++ " (actual length: " ++ toString len ++ ")")
      elementPath problems

def JsonStringMinLengthCheck.rawCheck (bound : Nat) : RawCheck :=
  JsonStringLengthCheck.rawCheck (fun elementLength => decide (elementLength ≥ bound)) "no shorter than" bound

def JsonStringMaxLengthCheck.rawCheck (bound : Nat) : RawCheck :=
  JsonStringLengthCheck.rawCheck (fun elementLength => decide (elementLength ≤ bound)) "no longer than" bound

/-! ### Trees -/

mutual
/-- A schema. Every feature checker is one too. -/
inductive JsonSchema where
  | literal (value : Bool)
  | schema (checkers : List JsonFeatureChecker)
  | feature (checker : JsonFeatureChecker)

inductive JsonFeatureChecker where
  | types (expectedTypes : List ValueType)
  | properties (additionalPropertiesSchema : JsonSchema) (propertiesCheckers : List (String × JsonSchema))
  | items (elementSchema : JsonSchema)
  | values (allowedValues : List Json)
  | requiredProperties (requiredProperties : List String)
  | minimum (bound : Double)
  | maximum (bound : Double)
  | anyOf (schemas : List JsonSchema)
  | minLength (bound : Nat)
  | maxLength (bound : Nat)
end

def JsonFeatureChecker.forType : JsonFeatureChecker → ValueType → Bool
  | .types _, _ | .values _, _ | .anyOf _, _ => true
  | .properties _ _, elemType | .requiredProperties _, elemType => elemType = .object
  | .items _, elemType => elemType = .array
  | .minimum _, elemType | .maximum _, elemType =>
    elemType = .numberInteger || elemType = .numberUnsigned || elemType = .numberFloat
  | .minLength _, elemType | .maxLength _, elemType => elemType = .string

mutual
def JsonSchema.rawCheck : JsonSchema → RawCheck
  | .literal value => JsonLiteralSchema.rawCheck value
  | .schema checkers => JsonFeaturesCheckerSchema.rawCheck (JsonFeatureChecker.gated checkers)
  | .feature checker => checker.rawCheck

def JsonFeatureChecker.rawCheck : JsonFeatureChecker → RawCheck
  | .types expectedTypes => JsonTypeChecker.rawCheck expectedTypes
  | .properties additional propertiesCheckers =>
    JsonPropertiesCheck.rawCheck additional.rawCheck (JsonSchema.named propertiesCheckers)
  | .items elementSchema => JsonItemsCheck.rawCheck elementSchema.rawCheck
  | .values allowedValues => JsonEnumCheck.rawCheck allowedValues
  | .requiredProperties requiredProperties => JsonRequiredPropertiesCheck.rawCheck requiredProperties
  | .minimum bound => JsonLowerBoundCheck.rawCheck bound
  | .maximum bound => JsonUpperBoundCheck.rawCheck bound
  | .anyOf schemas => JsonAnyOfCheck.rawCheck (JsonSchema.alternatives schemas)
  | .minLength bound => JsonStringMinLengthCheck.rawCheck bound
  | .maxLength bound => JsonStringMaxLengthCheck.rawCheck bound

def JsonFeatureChecker.gated : List JsonFeatureChecker → List ((ValueType → Bool) × RawCheck)
  | [] => []
  | checker :: rest => (checker.forType, checker.rawCheck) :: JsonFeatureChecker.gated rest

def JsonSchema.named : List (String × JsonSchema) → List (String × RawCheck)
  | [] => []
  | (name, checker) :: rest => (name, checker.rawCheck) :: JsonSchema.named rest

def JsonSchema.alternatives : List JsonSchema → List RawCheck
  | [] => []
  | schema :: rest => schema.rawCheck :: JsonSchema.alternatives rest
end

namespace JsonSchema

def check (schema : JsonSchema) (element : Json) (problemsCollector : ProblemsCollector) :
    Except Exn (Bool × ProblemsCollector) :=
  schema.rawCheck element [] problemsCollector

end JsonSchema

end MonitorEventing.Schema
