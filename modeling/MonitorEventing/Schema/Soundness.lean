import MonitorEventing.Schema.JsonSchema

/-!
# What checking a document reports

A check only reads the document, so what it does is to report: its verdict is whether it found nothing,
and what it found is at places of the document. That goes up the tree of schemas from the parts of each
class to the class. It takes that a checker never gets an element it is not for, which only lists of
features see to.
-/

namespace MonitorEventing.Schema
open Report

/-- A value as the library builds it. -/
structure Document where
  root : Json
  distinct : distinctKeys root = true := by decide

namespace Document

variable (d : Document)

/-- Where an element is while it is checked. -/
def Holds (elementPath : StackJsonPath) (element : Json) : Prop :=
  optionalNodeAt d.root (getPath elementPath) = some element

def HasPlace (problem : JsonFormatProblem) : Prop := contains d.root problem.1 = true

/-- The check reports on every element of the types. -/
def CheckedBy (types : ValueType → Bool) (check : RawCheck) : Prop :=
  ∀ element elementPath, d.Holds elementPath element → types (typeOf element) = true →
    Reports d.HasPlace (check element elementPath)

end Document

abbrev anyType (_ : ValueType) : Bool := true

/-! ### Proper schemas -/

/-- The checkers that may stand where a schema is expected. -/
def JsonFeatureChecker.freestanding : JsonFeatureChecker → Bool
  | .types _ | .values _ | .requiredProperties _ | .anyOf _ => true
  | _ => false

def intBound (bound : Double) : Bool := bound.value.toInt.isOk

mutual
/-- Checkers for elements of some types only are in lists of features, and the bounds have a value as
`int`. -/
def JsonSchema.proper : JsonSchema → Bool
  | .literal _ => true
  | .schema checkers => JsonFeatureChecker.allProper checkers
  | .feature checker => checker.freestanding && checker.proper

def JsonFeatureChecker.proper : JsonFeatureChecker → Bool
  | .properties additional propertiesCheckers => additional.proper && JsonSchema.namedProper propertiesCheckers
  | .items elementSchema => elementSchema.proper
  | .anyOf schemas => JsonSchema.allProper schemas
  | .minimum bound | .maximum bound => intBound bound
  | _ => true

def JsonFeatureChecker.allProper : List JsonFeatureChecker → Bool
  | [] => true
  | checker :: rest => checker.proper && JsonFeatureChecker.allProper rest

def JsonSchema.namedProper : List (String × JsonSchema) → Bool
  | [] => true
  | (_, schema) :: rest => schema.proper && JsonSchema.namedProper rest

def JsonSchema.allProper : List JsonSchema → Bool
  | [] => true
  | schema :: rest => schema.proper && JsonSchema.allProper rest
end

/-! ### Classes -/

variable {d : Document} {types : ValueType → Bool}

theorem hasPlace_of_holds {elementPath : StackJsonPath} {element : Json} (here : d.Holds elementPath element)
    (message : String) : d.HasPlace (getPath elementPath, message) := by
  show (optionalNodeAt d.root (getPath elementPath)).isSome = true
  rw [here]
  rfl

theorem singleCheck_reports {elementPath : StackJsonPath} {element : Json} (here : d.Holds elementPath element)
    (condition : Bool) (message : String) : Reports d.HasPlace (singleCheck condition message elementPath) :=
  reports_single condition (hasPlace_of_holds here message)

theorem literal_checks (value : Bool) : d.CheckedBy types (JsonLiteralSchema.rawCheck value) :=
  fun _ _ here _ => singleCheck_reports here _ _

theorem types_checks (expectedTypes : List ValueType) : d.CheckedBy types (JsonTypeChecker.rawCheck expectedTypes) :=
  fun _ _ here _ => singleCheck_reports here _ _

theorem values_checks (allowedValues : List Json) : d.CheckedBy types (JsonEnumCheck.rawCheck allowedValues) :=
  fun _ _ here _ => singleCheck_reports here _ _

theorem requiredProperties_checks (names : List String) :
    d.CheckedBy types (JsonRequiredPropertiesCheck.rawCheck names) := by
  intro element elementPath here _
  refine reports_all fun check member => ?_
  obtain ⟨name, _, rfl⟩ := List.mem_map.mp member
  exact singleCheck_reports here _ _

theorem features_checks {checkers : List ((ValueType → Bool) × RawCheck)}
    (parts : ∀ checker ∈ checkers, d.CheckedBy checker.1 checker.2) :
    d.CheckedBy types (JsonFeaturesCheckerSchema.rawCheck checkers) := by
  intro element elementPath here _
  refine reports_all fun check member => ?_
  obtain ⟨checker, listed, rfl⟩ := List.mem_map.mp member
  by_cases forType : checker.1 (typeOf element) = true
  · rw [if_pos forType]
    exact parts checker listed element elementPath here forType
  · rw [if_neg forType]
    exact reports_accept

theorem properties_checks {additional : RawCheck} {propertiesCheckers : List (String × RawCheck)}
    (fallback : d.CheckedBy anyType additional) (parts : ∀ entry ∈ propertiesCheckers, d.CheckedBy anyType entry.2) :
    d.CheckedBy (fun elemType => elemType = .object) (JsonPropertiesCheck.rawCheck additional propertiesCheckers) := by
  intro element elementPath here ofType
  cases element with
  | object members =>
    refine reports_all fun check member => ?_
    obtain ⟨⟨key, value⟩, entry, rfl⟩ := List.mem_map.mp member
    have unique : (members.map (·.1)).Nodup := of_decide_eq_true (everywhere_self (everywhere_at d.distinct here))
    have found : child (.object members) (.key key) = some value := lookup_of_mem unique entry
    have inside : d.Holds (.key key :: elementPath) value := optionalNodeAt_getPath_cons here found
    show Reports d.HasPlace (((propertiesCheckers.lookup key).getD additional) value (.key key :: elementPath))
    cases listed : propertiesCheckers.lookup key with
    | none => exact fallback value _ inside rfl
    | some checker =>
      exact parts (key, checker) (mem_of_lookup listed) value _ inside rfl
  | _ => cases ofType

theorem items_checks {elementSchema : RawCheck} (short : countable d.root = true)
    (part : d.CheckedBy anyType elementSchema) :
    d.CheckedBy (fun elemType => elemType = .array) (JsonItemsCheck.rawCheck elementSchema) := by
  intro element elementPath here ofType
  cases element with
  | array elems =>
    have few : elems.length < 2 ^ 32 := of_decide_eq_true (everywhere_self (everywhere_at short here))
    rw [JsonItemsCheck.rawCheck, if_pos few]
    refine reports_all fun check member => ?_
    obtain ⟨⟨elem, i⟩, numbered, rfl⟩ := List.mem_map.mp member
    have found : child (.array elems) (.index i) = some elem := List.mk_mem_zipIdx_iff_getElem?.mp numbered
    exact part elem _ (optionalNodeAt_getPath_cons here found) rfl
  | _ => cases ofType

theorem boundCheckErrorMsg_ok {bound : Double} (cast : intBound bound = true) (element : Json) (relation : String) :
    ∃ message, boundCheckErrorMsg bound element relation = .ok message := by
  unfold boundCheckErrorMsg
  split
  · exact ⟨_, rfl⟩
  · unfold intBound at cast
    cases whole : bound.value.toInt with
    | ok n => exact ⟨_, rfl⟩
    | error e => simp [whole, Except.isOk, Except.toBool] at cast

abbrev numberType (elemType : ValueType) : Bool :=
  elemType = .numberInteger || elemType = .numberUnsigned || elemType = .numberFloat

theorem bound_checks {inBound : DoubleValue → Bool} {relation : String} {bound : Double} (cast : intBound bound = true) :
    d.CheckedBy numberType (JsonBoundCheck.rawCheck inBound relation bound) := by
  intro element elementPath here ofType
  obtain ⟨message, composed⟩ := boundCheckErrorMsg_ok cast element relation
  obtain ⟨value, number⟩ : ∃ value, element.toDouble? = some value := by
    cases element with
    | number n => exact ⟨_, rfl⟩
    | unsigned n => exact ⟨_, rfl⟩
    | float x => exact ⟨_, rfl⟩
    | _ => cases ofType
  have same : JsonBoundCheck.rawCheck inBound relation bound element elementPath =
      singleCheck (inBound value) message elementPath := by
    funext problems
    simp [JsonBoundCheck.rawCheck, number, composed, bind, Except.bind]
  rw [same]
  exact singleCheck_reports here _ _

theorem stringLength_checks {checkLength : Nat → Bool} {relation : String} {bound : Nat} :
    d.CheckedBy (fun elemType => elemType = .string) (JsonStringLengthCheck.rawCheck checkLength relation bound) := by
  intro element elementPath here ofType
  cases element with
  | string s => exact singleCheck_reports here _ _
  | _ => cases ofType

theorem minLength_checks (bound : Nat) :
    d.CheckedBy (fun elemType => elemType = .string) (JsonStringMinLengthCheck.rawCheck bound) :=
  stringLength_checks

theorem maxLength_checks (bound : Nat) :
    d.CheckedBy (fun elemType => elemType = .string) (JsonStringMaxLengthCheck.rawCheck bound) :=
  stringLength_checks

theorem alternatives_report {schemas : List RawCheck} (parts : ∀ schema ∈ schemas, d.CheckedBy anyType schema)
    {element : Json} {elementPath : StackJsonPath} (here : d.Holds elementPath element) :
    ∀ check ∈ schemas.map fun schema => schema element elementPath, Reports d.HasPlace check := by
  intro check member
  obtain ⟨schema, listed, rfl⟩ := List.mem_map.mp member
  exact parts schema listed element elementPath here rfl

theorem anyOf_checks {schemas : List RawCheck} (parts : ∀ schema ∈ schemas, d.CheckedBy anyType schema) :
    d.CheckedBy types (JsonAnyOfCheck.rawCheck schemas) := by
  intro element elementPath here _
  -- a mark changes the text of a problem, not its place
  exact reports_any (alternatives_report parts here) (hasPlace_of_holds here _) fun _ _ place => place

theorem anyOf_accepts {schemas : List RawCheck} (parts : ∀ schema ∈ schemas, d.CheckedBy anyType schema)
    {element : Json} {elementPath : StackJsonPath} (here : d.Holds elementPath element)
    (accepting : ∃ schema ∈ schemas, Accepts (schema element elementPath)) :
    JsonAnyOfCheck.rawCheck schemas element elementPath = accept := by
  obtain ⟨schema, listed, accepts⟩ := accepting
  have tried : schema element elementPath ∈ schemas.map fun schema => schema element elementPath :=
    List.mem_map.mpr ⟨schema, listed, rfl⟩
  exact any_of_accepts (alternatives_report parts here) ⟨_, tried, accepts⟩

/-! ### Trees -/

theorem JsonSchema.mem_alternatives {schema : JsonSchema} {schemas : List JsonSchema} (listed : schema ∈ schemas) :
    schema.rawCheck ∈ JsonSchema.alternatives schemas := by
  induction schemas with
  | nil => cases listed
  | cons first rest ih =>
    rcases List.mem_cons.mp listed with rfl | later
    · exact List.mem_cons_self
    · exact List.mem_cons_of_mem _ (ih later)

mutual
theorem JsonSchema.rawCheck_checks (short : countable d.root = true) :
    ∀ {schema : JsonSchema}, schema.proper = true → d.CheckedBy anyType schema.rawCheck
  | .literal value, _ => literal_checks value
  | .schema _, proper => features_checks (JsonFeatureChecker.gated_check short proper)
  | .feature checker, proper => by
    obtain ⟨freestanding, inner⟩ := Bool.and_eq_true_iff.mp proper
    have checked := JsonFeatureChecker.rawCheck_checks short inner
    cases checker with
    | types expectedTypes => exact checked
    | values allowedValues => exact checked
    | anyOf schemas => exact checked
    | requiredProperties names => exact requiredProperties_checks names
    | _ => cases freestanding

theorem JsonFeatureChecker.rawCheck_checks (short : countable d.root = true) :
    ∀ {checker : JsonFeatureChecker}, checker.proper = true → d.CheckedBy checker.forType checker.rawCheck
  | .types expectedTypes, _ => types_checks expectedTypes
  | .values allowedValues, _ => values_checks allowedValues
  | .requiredProperties names, _ => requiredProperties_checks names
  | .properties _ _, proper =>
    have parts := Bool.and_eq_true_iff.mp proper
    properties_checks (JsonSchema.rawCheck_checks short parts.1) (JsonSchema.named_check short parts.2)
  | .items _, proper => items_checks short (JsonSchema.rawCheck_checks short proper)
  | .minimum _, cast => bound_checks cast
  | .maximum _, cast => bound_checks cast
  | .anyOf _, proper => anyOf_checks (JsonSchema.alternatives_check short proper)
  | .minLength bound, _ => minLength_checks bound
  | .maxLength bound, _ => maxLength_checks bound

theorem JsonFeatureChecker.gated_check (short : countable d.root = true) : ∀ {checkers : List JsonFeatureChecker},
    JsonFeatureChecker.allProper checkers = true →
      ∀ checker ∈ JsonFeatureChecker.gated checkers, d.CheckedBy checker.1 checker.2
  | [], _, _, member => nomatch member
  | _ :: _, proper, checker, member => by
    obtain ⟨first, rest⟩ := Bool.and_eq_true_iff.mp proper
    rcases List.mem_cons.mp member with rfl | later
    · exact JsonFeatureChecker.rawCheck_checks short first
    · exact JsonFeatureChecker.gated_check short rest checker later

theorem JsonSchema.named_check (short : countable d.root = true) : ∀ {named : List (String × JsonSchema)},
    JsonSchema.namedProper named = true → ∀ entry ∈ JsonSchema.named named, d.CheckedBy anyType entry.2
  | [], _, _, member => nomatch member
  | (_, _) :: _, proper, entry, member => by
    obtain ⟨first, rest⟩ := Bool.and_eq_true_iff.mp proper
    rcases List.mem_cons.mp member with rfl | later
    · exact JsonSchema.rawCheck_checks short first
    · exact JsonSchema.named_check short rest entry later

theorem JsonSchema.alternatives_check (short : countable d.root = true) : ∀ {schemas : List JsonSchema},
    JsonSchema.allProper schemas = true → ∀ check ∈ JsonSchema.alternatives schemas, d.CheckedBy anyType check
  | [], _, _, member => nomatch member
  | _ :: _, proper, check, member => by
    obtain ⟨first, rest⟩ := Bool.and_eq_true_iff.mp proper
    rcases List.mem_cons.mp member with rfl | later
    · exact JsonSchema.rawCheck_checks short first
    · exact JsonSchema.alternatives_check short rest check later
end

/-! ### Documents -/

theorem check_reports (d : Document) (short : countable d.root = true) :
    (∀ schema : JsonSchema, schema.proper = true → ∀ problems : ProblemsCollector, ∃ accepted found,
      schema.check d.root problems = .ok (accepted, problems ++ found) ∧ (accepted = false ↔ found ≠ []) ∧
        ∀ problem ∈ found, contains d.root problem.1 = true) ∧
    ∀ (schemas : List JsonSchema) (elementPath : StackJsonPath) (element : Json),
      (JsonFeatureChecker.anyOf schemas).proper = true → d.Holds elementPath element →
      (∃ schema ∈ schemas, ∃ found, schema.rawCheck element elementPath [] = .ok (true, found)) →
      ∀ problems, (JsonFeatureChecker.anyOf schemas).rawCheck element elementPath problems = .ok (true, problems) := by
  refine ⟨fun schema proper problems => ?_, fun schemas elementPath element proper here accepting problems => ?_⟩
  · obtain ⟨found, run, places⟩ := JsonSchema.rawCheck_checks short proper d.root [] rfl rfl
    refine ⟨found.isEmpty, found, run problems, ?_, places⟩
    rw [Bool.eq_false_iff, ne_eq, List.isEmpty_iff]
  · have parts := JsonSchema.alternatives_check short proper
    obtain ⟨schema, listed, accepts⟩ := accepting
    exact congrFun (anyOf_accepts parts here ⟨_, JsonSchema.mem_alternatives listed, accepts⟩) problems

/-- A rack whose name is too short for the first alternative and fits the second one. -/
def rack : Document := { root := .object [("name", .string "GPU"), ("slots", .array [.unsigned 1, .string "2"])] }

def nameSchemas : List JsonSchema := [.schema [.minLength 4], .feature (.types [.string])]

def rackSchema : JsonSchema :=
  .schema [.types [.object], .properties (.literal false) [("name", .feature (.anyOf nameSchemas)),
    ("slots", .schema [.items (.feature (.types [.numberUnsigned]))])]]

theorem check_reports_rack :
    (∃ accepted found, rackSchema.check rack.root [([], "before")] = .ok (accepted, [([], "before")] ++ found) ∧
      (accepted = false ↔ found ≠ []) ∧ ∀ problem ∈ found, contains rack.root problem.1 = true) ∧
    (JsonFeatureChecker.anyOf nameSchemas).rawCheck (.string "GPU") [.key "name"] [] = .ok (true, []) := by
  have reports := check_reports rack (by decide)
  refine ⟨reports.1 rackSchema (by decide) _, ?_⟩
  exact reports.2 nameSchemas [.key "name"] (.string "GPU") (by decide) rfl ⟨_, List.mem_cons_of_mem _ List.mem_cons_self, [], rfl⟩ []

example : rackSchema.check rack.root [] = .ok (false, [([.key "slots", .index 1],
    "Type expected to be 'number_unsigned' (actual type: 'string')")]) := by decide

theorem check_items_endless {elementSchema : JsonSchema} {elems : List Json} (long : 2 ^ 32 ≤ elems.length) :
    (JsonSchema.schema [.items elementSchema]).check (.array elems) [] = .error .undefined := by
  show Report.all [JsonItemsCheck.rawCheck elementSchema.rawCheck (.array elems) []] [] = .error .undefined
  rw [JsonItemsCheck.rawCheck, if_neg (Nat.not_lt.mpr long)]
  rfl

/-- A checker that gets what it is not for reports a place there is not, or throws. A bound no `int` holds
and an array too long to count have no result. -/
theorem check_unsound :
    (JsonSchema.feature (.properties (.literal false) [])).check (.array [.null]) [] =
      .ok (false, [([.key "0"], "Not allowed")]) ∧
    contains (.array [.null]) [.key "0"] = false ∧
    (JsonSchema.feature (.minLength 1)).check .null [] = .error .typeError ∧
    (JsonSchema.schema [.minimum ⟨.finite (.ofInt (2 ^ 31)), "2147483648.0"⟩]).check (.unsigned 0) [] =
      .error .undefined ∧
    (JsonSchema.schema [.items (.literal true)]).check (.array (List.replicate (2 ^ 32) .null)) [] = .error .undefined := by
  refine ⟨by decide, rfl, rfl, rfl, check_items_endless ?_⟩
  rw [List.length_replicate]

end MonitorEventing.Schema
