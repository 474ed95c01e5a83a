import MonitorEventing.Schema.JsonSchema

/-!
# What acceptance says

What is known of an element that a schema accepted, class by class. Only acceptance is looked at, so it
does not matter what an element would be reported for, nor where it is.
-/

namespace MonitorEventing.Schema
open Report Dat

def JsonSchema.Admits (schema : JsonSchema) (element : Json) : Prop :=
  ∃ elementPath, Passes (schema.rawCheck element elementPath)

def JsonFeatureChecker.Admits (checker : JsonFeatureChecker) (element : Json) : Prop :=
  ∃ elementPath, Passes (checker.rawCheck element elementPath)

theorem admits_of_check {schema : JsonSchema} {element : Json} {problems problems' : ProblemsCollector}
    (accepted : schema.check element problems = .ok (true, problems')) : schema.Admits element :=
  ⟨[], problems, problems', accepted⟩

theorem typeOf_object {element : Json} (typed : typeOf element = .object) : ∃ members, element = .object members := by
  cases element with
  | object members => exact ⟨members, rfl⟩
  | _ => cases typed

theorem typeOf_array {element : Json} (typed : typeOf element = .array) : ∃ elems, element = .array elems := by
  cases element with
  | array elems => exact ⟨elems, rfl⟩
  | _ => cases typed

theorem typeOf_string {element : Json} (typed : typeOf element = .string) : ∃ s, element = .string s := by
  cases element with
  | string s => exact ⟨s, rfl⟩
  | _ => cases typed

/-! ### Lists of parts -/

theorem JsonFeatureChecker.mem_gated {checker : JsonFeatureChecker} {checkers : List JsonFeatureChecker}
    (listed : checker ∈ checkers) : (checker.forType, checker.rawCheck) ∈ gated checkers := by
  induction checkers with
  | nil => cases listed
  | cons first rest ih =>
    rcases List.mem_cons.mp listed with rfl | later
    · exact List.mem_cons_self
    · exact List.mem_cons_of_mem _ (ih later)

theorem JsonSchema.lookup_named (named : List (String × JsonSchema)) (key : String) :
    (JsonSchema.named named).lookup key = (named.lookup key).map JsonSchema.rawCheck := by
  induction named with
  | nil => rfl
  | cons entry rest ih =>
    obtain ⟨name, checker⟩ := entry
    rw [JsonSchema.named, List.lookup_cons, List.lookup_cons]
    cases key == name with
    | true => rfl
    | false => exact ih

theorem JsonSchema.of_mem_alternatives {schemas : List JsonSchema} {check : RawCheck}
    (listed : check ∈ JsonSchema.alternatives schemas) : ∃ schema ∈ schemas, schema.rawCheck = check := by
  induction schemas with
  | nil => cases listed
  | cons first rest ih =>
    rcases List.mem_cons.mp listed with rfl | later
    · exact ⟨first, List.mem_cons_self, rfl⟩
    · obtain ⟨schema, inside, same⟩ := ih later
      exact ⟨schema, List.mem_cons_of_mem _ inside, same⟩

/-! ### Classes -/

theorem not_admits_false {element : Json} : ¬ (JsonSchema.literal false).Admits element := by
  rintro ⟨elementPath, passes⟩
  cases passes_single passes

theorem admits_feature {checkers : List JsonFeatureChecker} {element : Json}
    (admits : (JsonSchema.schema checkers).Admits element) {checker : JsonFeatureChecker} (listed : checker ∈ checkers)
    (forType : checker.forType (typeOf element) = true) : checker.Admits element := by
  obtain ⟨elementPath, passes⟩ := admits
  have each := passes_all passes _ (List.mem_map_of_mem (JsonFeatureChecker.mem_gated listed))
  rw [if_pos forType] at each
  exact ⟨elementPath, each⟩

theorem admits_types {expectedTypes : List ValueType} {element : Json}
    (admits : (JsonFeatureChecker.types expectedTypes).Admits element) : typeOf element ∈ expectedTypes := by
  obtain ⟨elementPath, passes⟩ := admits
  exact List.contains_iff_mem.mp (passes_single passes)

theorem admits_values {allowedValues : List Json} {element : Json}
    (admits : (JsonFeatureChecker.values allowedValues).Admits element) :
    ∃ value ∈ allowedValues, value.beq element = true := by
  obtain ⟨elementPath, passes⟩ := admits
  exact List.any_eq_true.mp (passes_single passes)

theorem admits_requiredProperties {names : List String} {element : Json}
    (admits : (JsonFeatureChecker.requiredProperties names).Admits element) {name : String} (listed : name ∈ names) :
    element.contains name = true := by
  obtain ⟨elementPath, passes⟩ := admits
  exact passes_single (passes_all passes _ (List.mem_map_of_mem listed))

theorem admits_properties {additional : JsonSchema} {propertiesCheckers : List (String × JsonSchema)}
    {members : List (String × Json)}
    (admits : (JsonFeatureChecker.properties additional propertiesCheckers).Admits (.object members)) {key : String}
    {value : Json} (member : (key, value) ∈ members) :
    ((propertiesCheckers.lookup key).getD additional).Admits value := by
  obtain ⟨elementPath, passes⟩ := admits
  have each : Passes ((((JsonSchema.named propertiesCheckers).lookup key).getD additional.rawCheck) value
      (.key key :: elementPath)) := passes_all passes _ (List.mem_map_of_mem member)
  rw [JsonSchema.lookup_named] at each
  refine ⟨.key key :: elementPath, ?_⟩
  cases listed : propertiesCheckers.lookup key with
  | none =>
    rw [listed] at each
    exact each
  | some checker =>
    rw [listed] at each
    exact each

theorem admits_items {elementSchema : JsonSchema} {elems : List Json}
    (admits : (JsonFeatureChecker.items elementSchema).Admits (.array elems)) : ∀ elem ∈ elems, elementSchema.Admits elem := by
  obtain ⟨elementPath, passes⟩ := admits
  rw [JsonFeatureChecker.rawCheck, JsonItemsCheck.rawCheck] at passes
  by_cases few : elems.length < 2 ^ 32
  · rw [if_pos few] at passes
    intro elem member
    obtain ⟨i, read⟩ := List.mem_iff_getElem?.mp member
    have each := passes_all passes _ (List.mem_map_of_mem (List.mk_mem_zipIdx_iff_getElem?.mpr read))
    exact ⟨.index i :: elementPath, each⟩
  · -- an array too long to count has no result
    rw [if_neg few] at passes
    obtain ⟨_, _, run⟩ := passes
    cases run

theorem admits_anyOf {schemas : List JsonSchema} {element : Json}
    (admits : (JsonFeatureChecker.anyOf schemas).Admits element) : ∃ schema ∈ schemas, schema.Admits element := by
  obtain ⟨elementPath, passes⟩ := admits
  rw [JsonFeatureChecker.rawCheck, JsonAnyOfCheck.rawCheck] at passes
  obtain ⟨check, listed, passes⟩ := passes_any passes
  obtain ⟨alternative, inside, rfl⟩ := List.mem_map.mp listed
  obtain ⟨schema, member, rfl⟩ := JsonSchema.of_mem_alternatives inside
  exact ⟨schema, member, elementPath, passes⟩

/-! ### Closed objects -/

/-- The members of an object that may have the named properties only. -/
theorem admits_named {checkers : List JsonFeatureChecker} {propertiesCheckers : List (String × JsonSchema)}
    {members : List (String × Json)} (admits : (JsonSchema.schema checkers).Admits (.object members))
    (listed : .properties (.literal false) propertiesCheckers ∈ checkers) {key : String} {value : Json}
    (member : (key, value) ∈ members) :
    ∃ schema, propertiesCheckers.lookup key = some schema ∧ schema.Admits value := by
  have each := admits_properties (admits_feature admits listed rfl) member
  cases found : propertiesCheckers.lookup key with
  | none =>
    rw [found] at each
    exact absurd each not_admits_false
  | some schema =>
    rw [found] at each
    exact ⟨schema, rfl, each⟩

theorem admits_required {checkers : List JsonFeatureChecker} {names : List String} {members : List (String × Json)}
    (admits : (JsonSchema.schema checkers).Admits (.object members)) (listed : .requiredProperties names ∈ checkers)
    {name : String} (inside : name ∈ names) : ∃ value, members.lookup name = some value :=
  Option.isSome_iff_exists.mp (admits_requiredProperties (admits_feature admits listed rfl) inside)

/-- An object that has the required properties, each value accepted by the schema of its name. -/
structure ClosedObject (names : List String) (propertiesCheckers : List (String × JsonSchema)) (element : Json) :
    Prop where
  isObject : typeOf element = .object
  required : ∀ name ∈ names, ∃ value, element.get? name = some value
  property : ∀ {key value schema}, element.get? key = some value → propertiesCheckers.lookup key = some schema →
    schema.Admits value

theorem closedObject_of_admits {names : List String} {propertiesCheckers : List (String × JsonSchema)} {element : Json}
    (admits : (JsonSchema.schema [.types [.object], .requiredProperties names,
      .properties (.literal false) propertiesCheckers]).Admits element) :
    ClosedObject names propertiesCheckers element := by
  have typed := List.mem_singleton.mp (admits_types (admits_feature admits List.mem_cons_self rfl))
  obtain ⟨members, rfl⟩ := typeOf_object typed
  refine ⟨typed, fun name inside => ?_, fun {key value schema} read listed => ?_⟩
  · exact admits_required admits (List.mem_cons_of_mem _ List.mem_cons_self) inside
  · have last : JsonFeatureChecker.properties (.literal false) propertiesCheckers ∈
        [.types [.object], .requiredProperties names, .properties (.literal false) propertiesCheckers] := by simp
    obtain ⟨found, same, admitted⟩ := admits_named admits last (Json.mem_items_of_get? read)
    rwa [Option.some.inj (listed.symm.trans same)]

/-- `types` as a schema. -/
theorem admits_text {element : Json} (admits : (JsonSchema.feature (.types [.string])).Admits element) :
    ∃ s, element = .string s :=
  typeOf_string (List.mem_singleton.mp (admits_types admits))

end MonitorEventing.Schema
