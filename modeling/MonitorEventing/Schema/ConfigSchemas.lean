import MonitorEventing.Accessor.Equality
import MonitorEventing.Schema.Acceptance

/-!
# The schema of the event info file

What an accepted event looks like where it is loaded: which keys it has, what kind of value each has,
and the shapes of its accessors.
-/

namespace MonitorEventing.Schema
open Accessor Dat
open DataAccessor (HasShape isSkipped)

/-- `types(string)` where a schema is expected. -/
def textSchema : JsonSchema := .feature (.types [.string])

def accessorCheckerSchema : JsonSchema :=
  .schema [.types [.object], .anyOf (["not_equal", "equal", "bitmap", "bitmask"].map fun key =>
    .schema [.requiredProperties [key], .properties (.literal false) [(key, textSchema)]])]

def dbusAccessorProperties : JsonSchema :=
  .schema [.requiredProperties ["type", "object", "interface", "property"],
    .properties (.literal false) [("type", .feature (.values [.string "DBUS"])), ("object", textSchema),
      ("interface", textSchema), ("property", textSchema), ("name", textSchema), ("check", accessorCheckerSchema)]]

def coreApiAccessorProperties : JsonSchema :=
  .schema [.requiredProperties ["type", "property"],
    .properties (.literal false) [("type", .feature (.values [.string "DeviceCoreAPI"])), ("property", textSchema),
      ("device_id", textSchema), ("check", accessorCheckerSchema), ("name", textSchema)]]

def cmdLineAccessorProperties : JsonSchema :=
  .schema [.requiredProperties ["type", "executable", "arguments"],
    .properties (.literal false) [("type", .feature (.values [.string "CMDLINE"])), ("executable", textSchema),
      ("arguments", textSchema), ("check", accessorCheckerSchema), ("name", textSchema)]]

def directAccessorProperties : JsonSchema :=
  .schema [.requiredProperties ["type", "field"],
    .properties (.literal false) [("type", .feature (.values [.string "DIRECT"])),
      ("field", .feature (.values [.string "CurrentDeviceName"])), ("check", accessorCheckerSchema), ("name", textSchema)]]

def dataAccessorSchema : JsonSchema :=
  .schema [.types [.object], .anyOf [dbusAccessorProperties, coreApiAccessorProperties, cmdLineAccessorProperties,
    directAccessorProperties]]

def messageArgsSchema : JsonSchema :=
  .schema [.types [.object], .requiredProperties ["patterns", "parameters"],
    .properties (.literal false) [("patterns", .schema [.types [.array], .items textSchema]),
      ("parameters", .schema [.types [.array], .items dataAccessorSchema])]]

def redfishProperties : List (String × JsonSchema) :=
  [("message_id", textSchema), ("message_args", messageArgsSchema), ("origin_of_condition", .schema [.types [.string]])]

def eventNodeRedfishJsonSchema : JsonSchema :=
  .schema [.types [.object], .requiredProperties ["message_id", "message_args"],
    .properties (.literal false) redfishProperties]

def emptyObjectSchema : JsonSchema := .schema [.types [.object], .properties (.literal false) []]

def eventNodeRequired : List String :=
  ["action", "value_as_count", "redfish", "event_counter_reset", "trigger_count", "resolution", "severity", "accessor",
    "event_trigger", "device_type", "event", "error_id"]

def eventNodeProperties : List (String × JsonSchema) :=
  [("event", textSchema),
    ("error_id", textSchema),
    ("device_type", textSchema),
    ("category", .schema [.types [.array], .items (.schema [.types [.string],
      .values (["association", "power_rail", "erot_control", "pin_status", "interface_status", "protocol_status",
        "firmware_status"].map .string)])]),
    ("sub_type", textSchema),
    ("event_trigger", .feature (.anyOf [dataAccessorSchema, emptyObjectSchema])),
    ("accessor", dataAccessorSchema),
    ("recovery", dataAccessorSchema),
    ("severity", .schema [.types [.string], .values (["OK", "Critical", "Warning"].map .string)]),
    ("resolution", textSchema),
    ("trigger_count", .schema [.types [.numberUnsigned, .numberInteger], .minimum ⟨.finite (.ofInt (-1)), "-1.0"⟩]),
    ("event_counter_reset", .feature (.types [.object])),
    ("redfish", eventNodeRedfishJsonSchema),
    ("telemetries", .schema [.types [.array], .items dataAccessorSchema]),
    ("action", textSchema),
    ("value_as_count", .feature (.types [.boolean]))]

def eventNodeJsonSchema : JsonSchema :=
  .schema [.types [.object], .requiredProperties eventNodeRequired, .properties (.literal false) eventNodeProperties]

def eventInfoJsonSchema : JsonSchema :=
  .schema [.types [.object], .properties (.schema [.types [.array], .items eventNodeJsonSchema]) []]

/-! ### Accessors -/

/-- The accessors the schema knows. -/
inductive Form where
  | dbus | deviceCoreApi | cmdline | direct
  deriving DecidableEq

def Form.type : Form → String
  | dbus => "DBUS"
  | deviceCoreApi => "DeviceCoreAPI"
  | cmdline => "CMDLINE"
  | direct => "DIRECT"

/-- The keys two accessors are compared by, apart from the type. -/
def Form.texts : Form → List String
  | dbus => ["object", "interface", "property"]
  | deviceCoreApi => ["property"]
  | cmdline => ["executable", "arguments"]
  | direct => ["field"]

structure IsForm (acc : Json) (form : Form) : Prop where
  shape : HasShape acc form.type form.texts []
  inOrder : (acc.items.map (·.1)).Pairwise (· < ·)

theorem admits_value {s : String} {element : Json} (admits : (JsonSchema.feature (.values [.string s])).Admits element) :
    element = .string s := by
  obtain ⟨value, listed, equal⟩ := admits_values admits
  obtain rfl := List.mem_singleton.mp listed
  cases element with
  | string other => rw [of_decide_eq_true equal]
  | _ => simp [Json.beq, Json.beqNumber, Json.toDouble?] at equal

/-- The schemas of properties that are compared as texts. -/
def IsTextSchema (schema : JsonSchema) : Prop := ∀ value, schema.Admits value → ∃ s, value = .string s

theorem textSchema_isText : IsTextSchema textSchema := fun _ admits => admits_text admits

theorem value_isText (s : String) : IsTextSchema (.feature (.values [.string s])) :=
  fun _ admits => ⟨s, admits_value admits⟩

theorem shape_of_admits {type : String} {texts : List String} {named : List (String × JsonSchema)}
    {members : List (String × Json)} (unique : (members.map (·.1)).Nodup)
    (admits : (JsonSchema.schema [.requiredProperties ("type" :: texts), .properties (.literal false) named]).Admits
      (.object members))
    (typed : named.lookup "type" = some (.feature (.values [.string type])))
    (compared : ∀ entry ∈ named, isSkipped entry.1 = false → entry.1 ∈ "type" :: texts ∧ IsTextSchema entry.2) :
    HasShape (.object members) type texts [] := by
  have named_of : ∀ {key value}, (key, value) ∈ members → ∃ schema, named.lookup key = some schema ∧ schema.Admits value :=
    fun member => admits_named admits (List.mem_cons_of_mem _ List.mem_cons_self) member
  have required : ∀ {key}, key ∈ "type" :: texts → ∃ value, members.lookup key = some value :=
    fun inside => admits_required admits List.mem_cons_self inside
  refine ⟨unique, ?_, ?_, ?_⟩
  · obtain ⟨value, read⟩ := required List.mem_cons_self
    obtain ⟨schema, listed, admitted⟩ := named_of (Json.mem_items_of_get? (j := .object members) read)
    obtain rfl := Option.some.inj (typed.symm.trans listed)
    show members.lookup "type" = some (.string type)
    rw [read, admits_value admitted]
  · intro entry member kept
    obtain ⟨key, value⟩ := entry
    obtain ⟨schema, listed, admitted⟩ := named_of member
    obtain ⟨known, text⟩ := compared (key, schema) (mem_of_lookup listed) kept
    rw [List.append_nil]
    exact ⟨known, text value admitted⟩
  · intro key inside
    obtain ⟨value, read⟩ := required (List.mem_cons_of_mem _ inside)
    show (members.lookup key).isSome = true
    rw [read]
    rfl

theorem form_of_admits {acc : Json} (ordered : keysInOrder acc = true) (admits : dataAccessorSchema.Admits acc) :
    ∃ form, IsForm acc form := by
  have inOrder := keysInOrder_items ordered
  have unique : (acc.items.map (·.1)).Nodup := inOrder.imp fun before => ne_of_lt before
  have typed := admits_types (admits_feature admits List.mem_cons_self rfl)
  obtain ⟨members, rfl⟩ := typeOf_object (List.mem_singleton.mp typed)
  obtain ⟨schema, listed, admits⟩ :=
    admits_anyOf (admits_feature admits (List.mem_cons_of_mem _ List.mem_cons_self) rfl)
  simp only [List.mem_cons, List.not_mem_nil, or_false] at listed
  rcases listed with rfl | rfl | rfl | rfl
  · refine ⟨.dbus, shape_of_admits unique admits rfl ?_, inOrder⟩
    simp [isSkipped, Form.texts, textSchema_isText, value_isText]
  · refine ⟨.deviceCoreApi, shape_of_admits unique admits rfl ?_, inOrder⟩
    simp [isSkipped, Form.texts, textSchema_isText, value_isText]
  · refine ⟨.cmdline, shape_of_admits unique admits rfl ?_, inOrder⟩
    simp [isSkipped, Form.texts, textSchema_isText, value_isText]
  · refine ⟨.direct, shape_of_admits unique admits rfl ?_, inOrder⟩
    simp [isSkipped, Form.texts, textSchema_isText, value_isText]

/-! ### Events -/

def eventTexts : List String := ["event", "error_id", "device_type", "severity", "resolution", "action"]

structure RedfishShape (redfish : Json) : Prop where
  isObject : typeOf redfish = .object
  messageId : ∃ s, redfish.get? "message_id" = some (.string s)
  originOfCondition : ∀ value, redfish.get? "origin_of_condition" = some value → ∃ s, value = .string s

/-- An accepted event, as far as loading it reads it. -/
structure EventShape (event : Json) : Prop where
  isObject : typeOf event = .object
  texts : ∀ key ∈ eventTexts, ∃ s, event.get? key = some (.string s)
  triggerCount : ∃ count, event.get? "trigger_count" = some count ∧ typeOf count ∈ [.numberUnsigned, .numberInteger]
  category : ∀ value, event.get? "category" = some value → ∃ names, getStrings value = .ok names
  subType : ∀ value, event.get? "sub_type" = some value → ∃ s, value = .string s
  counterReset : ∃ value, event.get? "event_counter_reset" = some value
  redfish : ∃ value, event.get? "redfish" = some value ∧ RedfishShape value
  accessor : ∃ acc form, event.get? "accessor" = some acc ∧ IsForm acc form
  eventTrigger : ∃ acc, event.get? "event_trigger" = some acc ∧ (acc.isEmpty = true ∨ ∃ form, IsForm acc form)
  recovery : ∀ acc, event.get? "recovery" = some acc → ∃ form, IsForm acc form
  valueAsCount : ∃ b, event.get? "value_as_count" = some (.boolean b)

theorem isText_of_types {checkers : List JsonFeatureChecker} :
    IsTextSchema (.schema (.types [.string] :: checkers)) := fun _ admits =>
  typeOf_string (List.mem_singleton.mp (admits_types (admits_feature admits List.mem_cons_self rfl)))

theorem strings_of_items {elementSchema : JsonSchema} (text : IsTextSchema elementSchema) {value : Json}
    (admits : (JsonSchema.schema [.types [.array], .items elementSchema]).Admits value) :
    ∃ names, getStrings value = .ok names := by
  have typed := admits_types (admits_feature admits List.mem_cons_self rfl)
  obtain ⟨elems, rfl⟩ := typeOf_array (List.mem_singleton.mp typed)
  have each := admits_items (admits_feature admits (List.mem_cons_of_mem _ List.mem_cons_self) rfl)
  apply exists_mapM_ok_iff.mpr
  intro elem member
  obtain ⟨s, rfl⟩ := text elem (each elem member)
  exact ⟨s, rfl⟩

theorem get?_ordered {j value : Json} {key : String} (ordered : keysInOrder j = true) (read : j.get? key = some value) :
    keysInOrder value = true := by
  cases j with
  | object members => exact everywhere_member ordered (Json.mem_items_of_get? read)
  | _ => cases read

theorem redfishShape_of_admits {redfish : Json} (admits : eventNodeRedfishJsonSchema.Admits redfish) :
    RedfishShape redfish := by
  have closed := closedObject_of_admits admits
  refine ⟨closed.isObject, ?_, fun value read => ?_⟩
  · obtain ⟨value, read⟩ := closed.required "message_id" (by decide)
    obtain ⟨s, rfl⟩ := textSchema_isText value (closed.property read rfl)
    exact ⟨s, read⟩
  · exact isText_of_types value (closed.property read rfl)

theorem isEmpty_of_admits {element : Json} (admits : emptyObjectSchema.Admits element) : element.isEmpty = true := by
  have typed := List.mem_singleton.mp (admits_types (admits_feature admits List.mem_cons_self rfl))
  obtain ⟨members, rfl⟩ := typeOf_object typed
  cases members with
  | nil => rfl
  | cons entry rest =>
    obtain ⟨schema, listed, _⟩ := admits_named admits (List.mem_cons_of_mem _ List.mem_cons_self) List.mem_cons_self
    cases listed

theorem eventTexts_isText : ∀ key ∈ eventTexts, key ∈ eventNodeRequired ∧
    ∃ schema, eventNodeProperties.lookup key = some schema ∧ IsTextSchema schema := by
  intro key member
  simp only [eventTexts, List.mem_cons, List.not_mem_nil, or_false] at member
  rcases member with rfl | rfl | rfl | rfl | rfl | rfl
  · exact ⟨by decide, _, rfl, textSchema_isText⟩
  · exact ⟨by decide, _, rfl, textSchema_isText⟩
  · exact ⟨by decide, _, rfl, textSchema_isText⟩
  · exact ⟨by decide, _, rfl, isText_of_types⟩
  · exact ⟨by decide, _, rfl, textSchema_isText⟩
  · exact ⟨by decide, _, rfl, textSchema_isText⟩

theorem eventShape_of_admits {event : Json} (ordered : keysInOrder event = true)
    (admits : eventNodeJsonSchema.Admits event) : EventShape event := by
  have closed := closedObject_of_admits admits
  refine ⟨closed.isObject, fun key member => ?_, ?_, fun value read => ?_, fun value read => ?_, ?_, ?_, ?_, ?_,
    fun acc read => ?_, ?_⟩
  · obtain ⟨required, schema, listed, text⟩ := eventTexts_isText key member
    obtain ⟨value, read⟩ := closed.required key required
    obtain ⟨s, rfl⟩ := text value (closed.property read listed)
    exact ⟨s, read⟩
  · obtain ⟨count, read⟩ := closed.required "trigger_count" (by decide)
    have admitted := closed.property read rfl
    exact ⟨count, read, admits_types (admits_feature admitted List.mem_cons_self rfl)⟩
  · exact strings_of_items isText_of_types (closed.property read rfl)
  · exact textSchema_isText value (closed.property read rfl)
  · exact closed.required "event_counter_reset" (by decide)
  · obtain ⟨redfish, read⟩ := closed.required "redfish" (by decide)
    exact ⟨redfish, read, redfishShape_of_admits (closed.property read rfl)⟩
  · obtain ⟨acc, read⟩ := closed.required "accessor" (by decide)
    obtain ⟨form, shape⟩ := form_of_admits (get?_ordered ordered read) (closed.property read rfl)
    exact ⟨acc, form, read, shape⟩
  · obtain ⟨acc, read⟩ := closed.required "event_trigger" (by decide)
    refine ⟨acc, read, ?_⟩
    obtain ⟨schema, listed, admitted⟩ := admits_anyOf (closed.property read rfl)
    simp only [List.mem_cons, List.not_mem_nil, or_false] at listed
    rcases listed with rfl | rfl
    · exact Or.inr (form_of_admits (get?_ordered ordered read) admitted)
    · exact Or.inl (isEmpty_of_admits admitted)
  · exact form_of_admits (get?_ordered ordered read) (closed.property read rfl)
  · obtain ⟨value, read⟩ := closed.required "value_as_count" (by decide)
    have typed := List.mem_singleton.mp (admits_types (closed.property read rfl))
    cases value with
    | boolean b => exact ⟨b, read⟩
    | _ => cases typed

/-! ### Documents -/

/-- The events of some device types, in the order they are loaded. -/
def eventsIn (types : List (String × Json)) : List Json := types.flatMap fun el => elements el.2

def eventsOf (j : Json) : List Json := eventsIn (itemsOf j)

theorem eventsIn_concat (types : List (String × Json)) (el : String × Json) :
    eventsIn (types ++ [el]) = eventsIn types ++ elements el.2 := by
  simp [eventsIn]

theorem eventsOf_shape {j : Json} (ordered : keysInOrder j = true) (admits : eventInfoJsonSchema.Admits j) :
    ∀ event ∈ eventsOf j, EventShape event := by
  have typed := List.mem_singleton.mp (admits_types (admits_feature admits List.mem_cons_self rfl))
  obtain ⟨members, rfl⟩ := typeOf_object typed
  intro event inside
  obtain ⟨⟨key, value⟩, member, inside⟩ := List.mem_flatMap.mp inside
  have group := admits_properties (admits_feature admits (List.mem_cons_of_mem _ List.mem_cons_self) rfl) member
  have array := List.mem_singleton.mp (admits_types (admits_feature group List.mem_cons_self rfl))
  obtain ⟨elems, rfl⟩ := typeOf_array array
  have admitted := admits_items (admits_feature group (List.mem_cons_of_mem _ List.mem_cons_self) rfl) event inside
  have orderedGroup : keysInOrder (.array elems) = true := everywhere_member ordered member
  have orderedEvent : keysInOrder event = true := everywhere_elem orderedGroup inside
  exact eventShape_of_admits orderedEvent admitted

end MonitorEventing.Schema
