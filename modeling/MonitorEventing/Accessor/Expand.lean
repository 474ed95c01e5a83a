import MonitorEventing.Accessor.Equality

/-!
# Expanded accessors

`expand`: an accessor with a range, as one accessor for each value of the range.
-/

namespace MonitorEventing

namespace Json

theorem lookup_putMember (members : List (String × Json)) (key : String) (value : Json) (other : String) :
    (putMember members key value).lookup other = if other = key then some value else members.lookup other := by
  induction members with
  | nil => simp [putMember, lookup_cons_if, eq_comm]
  | cons entry rest ih =>
    obtain ⟨name, old⟩ := entry
    rw [putMember]
    split
    · rename_i here
      rw [here]
      exact lookup_overwritten key old value rest other
    · rename_i apart
      split
      · simp only [lookup_cons_if, eq_comm]
      · exact lookup_behind apart old value ih

theorem putMember_twice (members : List (String × Json)) (key : String) (first second : Json) :
    putMember (putMember members key first) key second = putMember members key second := by
  induction members with
  | nil => simp [putMember]
  | cons entry rest ih =>
    obtain ⟨name, old⟩ := entry
    rw [putMember]
    split
    · rename_i here
      simp [putMember, here]
    · rename_i other
      split
      · rename_i before
        simp [putMember, other, before]
      · rename_i behind
        simp [putMember, other, behind, ih]

/-- Writing to a key that is there keeps the keys. -/
theorem keys_putMember {members : List (String × Json)} (ordered : (members.map (·.1)).Pairwise (· < ·)) {key : String}
    (known : key ∈ members.map (·.1)) (value : Json) :
    (putMember members key value).map (·.1) = members.map (·.1) := by
  induction members with
  | nil => cases known
  | cons entry rest ih =>
    obtain ⟨name, old⟩ := entry
    obtain ⟨below, ordered⟩ := List.pairwise_cons.mp ordered
    rw [putMember]
    split
    · rename_i here
      simp [here]
    · rename_i other
      have later : key ∈ rest.map (·.1) := (List.mem_cons.mp known).resolve_left (Ne.symm other)
      have less : name < key := below key later
      rw [if_neg less.asymm, List.map_cons, ih ordered later]
      rfl

theorem exists_object {j : Json} {key : String} {value : Json} (read : j.get? key = some value) :
    ∃ members, j = object members := by
  cases j with
  | object members => exact ⟨members, rfl⟩
  | _ => cases read

end Json

namespace Accessor.DataAccessor
open DeviceId DeviceUtil

/-- The loop of `expand`, with the description the rounds write their text into. -/
def expandFrom (value : PropertyValue) (pattern : DeviceIdPattern) (jKey : String) :
    List PatternIndex → Json → Except Exn (List DataAccessor)
  | [], _ => pure []
  | domainItemIndex :: rest, json => do
    let text ← pattern.eval domainItemIndex
    let _ ← json.memberOf jKey
    let json := json.withMember jKey (.string text)
    let later ← expandFrom value pattern jKey rest json
    pure ({ acc := json, dataValue := value } :: later)

/-- 1 for the bus, 2 for a command line, 0 for none of them. -/
def expansionType (a : DataAccessor) : Nat := if a.isTypeCmdline then 2 else if a.isTypeDbus then 1 else 0

def expand (a : DataAccessor) : Except Exn (List DataAccessor) :=
  if a.expansionType > 0 then do
    let jKey := if a.expansionType = 1 then "object" else "arguments"
    let jValue ← if a.expansionType = 1 then a.getDbusObjectPath else a.getArguments
    let pattern ← DeviceIdPattern.ofString jValue
    expandFrom a.dataValue pattern jKey pattern.domain a.acc
  else pure []

/-- The accessor `a` with the text at the key replaced by the value of the pattern at an index. -/
structure IsExpansion (a : DataAccessor) (p : DeviceIdPattern) (jKey : String) (x : PatternIndex)
    (e : DataAccessor) : Prop where
  value : e.dataValue = a.dataValue
  text : ∃ v, p.eval x = .ok v ∧ e.acc.get? jKey = some (.string v)
  others : ∀ key ≠ jKey, e.acc.get? key = a.acc.get? key
  keys : e.acc.items.map (·.1) = a.acc.items.map (·.1)

/-- What the rounds write into: the description of `a` with any text at the key. -/
def Rewritten (a : DataAccessor) (jKey : String) (json : Json) : Prop :=
  ∃ members, a.acc = .object members ∧
    (json = .object members ∨ ∃ old, json = .object (Json.putMember members jKey old))

theorem Rewritten.write {a : DataAccessor} {jKey : String} {json : Json} (written : Rewritten a jKey json)
    (value : Json) :
    (∃ old, json.memberOf jKey = .ok old) ∧
      ∃ members, a.acc = .object members ∧ json.withMember jKey value = .object (Json.putMember members jKey value) := by
  obtain ⟨members, whole, rfl | ⟨old, rfl⟩⟩ := written
  · exact ⟨⟨_, rfl⟩, members, whole, rfl⟩
  · refine ⟨⟨_, rfl⟩, members, whole, ?_⟩
    rw [Json.withMember, Json.putMember_twice]

theorem expandFrom_ok {a : DataAccessor} {p : DeviceIdPattern} {jKey : String} {old : Json}
    (ordered : (a.acc.items.map (·.1)).Pairwise (· < ·)) (known : a.acc.get? jKey = some old)
    (indexes : List PatternIndex) (evaluated : ∀ x ∈ indexes, ∃ v, p.eval x = .ok v) (json : Json)
    (written : Rewritten a jKey json) :
    ∃ list, expandFrom a.dataValue p jKey indexes json = .ok list ∧ List.Forall₂ (IsExpansion a p jKey) indexes list := by
  induction indexes generalizing json with
  | nil => exact ⟨[], rfl, .nil⟩
  | cons x rest ih =>
    obtain ⟨v, here⟩ := evaluated x List.mem_cons_self
    obtain ⟨⟨slot, reached⟩, members, whole, result⟩ := written.write (.string v)
    have next : Rewritten a jKey (json.withMember jKey (.string v)) := ⟨members, whole, .inr ⟨_, result⟩⟩
    obtain ⟨list, later, each⟩ := ih (fun x member => evaluated x (List.mem_cons_of_mem _ member)) _ next
    refine ⟨{ acc := json.withMember jKey (.string v), dataValue := a.dataValue } :: list, ?_, .cons ?_ each⟩
    · rw [expandFrom, here]
      simp only [bind, Except.bind, reached, later]
      rfl
    · have items : a.acc.items = members := by rw [whole]; rfl
      have key : jKey ∈ members.map (·.1) := by
        rw [← items]
        exact List.mem_map_of_mem (Json.mem_items_of_get? known)
      rw [items] at ordered
      rw [result]
      refine ⟨rfl, ⟨v, here, ?_⟩, fun other different => ?_, ?_⟩
      · rw [Json.get?, Json.items, Json.lookup_putMember, if_pos rfl]
      · rw [Json.get?, Json.items, Json.lookup_putMember, if_neg different, Json.get?, items]
      · rw [items, Json.items, Json.keys_putMember ordered key]

/-! ### Comparison with the original -/

theorem isKey_of_kind {a : DataAccessor} {jKey : String}
    (kind : a.isTypeDbus = true ∧ jKey = "object" ∨ a.isTypeCmdline = true ∧ jKey = "arguments") :
    jKey = "object" ∨ jKey = "arguments" := by
  rcases kind with ⟨-, rfl⟩ | ⟨-, rfl⟩
  · exact .inl rfl
  · exact .inr rfl

theorem patternTexts_of_kind {a e : DataAccessor} {accType jKey s t : String}
    (typed : a.acc.get? "type" = some (.string accType))
    (kind : a.isTypeDbus = true ∧ jKey = "object" ∨ a.isTypeCmdline = true ∧ jKey = "arguments")
    (own : a.acc.get? jKey = some (.string s)) (other : e.acc.get? jKey = some (.string t)) :
    patternTexts accType a e = .ok (s, t) := by
  rcases kind with ⟨type, rfl⟩ | ⟨type, rfl⟩
  · have known : accType = "DBUS" := by
      rw [isTypeDbus, isType_iff, typed] at type
      exact Json.string.inj (Option.some.inj type)
    rw [patternTexts, if_pos known]
    exact bind_ok_iff.mpr ⟨s, textAt_ok_iff.mpr own, bind_ok_iff.mpr ⟨t, textAt_ok_iff.mpr other, rfl⟩⟩
  · have known : accType = "CMDLINE" := by
      rw [isTypeCmdline, isType_iff, typed] at type
      exact Json.string.inj (Option.some.inj type)
    rw [patternTexts, if_neg (by rw [known]; decide), if_pos known]
    exact bind_ok_iff.mpr ⟨s, textAt_ok_iff.mpr own, bind_ok_iff.mpr ⟨t, textAt_ok_iff.mpr other, rfl⟩⟩

theorem eqFrom_expansion {a e : DataAccessor} {accType jKey s t : String}
    (typed : a.acc.get? "type" = some (.string accType))
    (kind : a.isTypeDbus = true ∧ jKey = "object" ∨ a.isTypeCmdline = true ∧ jKey = "arguments")
    (own : a.acc.get? jKey = some (.string s)) (other : e.acc.get? jKey = some (.string t))
    (matching : patternsMatch s t = .ok true) (others : ∀ key ≠ jKey, e.acc.get? key = a.acc.get? key)
    (members : List (String × Json))
    (texts : ∀ entry ∈ members, a.acc.get? entry.1 = some entry.2 ∧
      (isSkipped entry.1 = false → ∃ s, entry.2 = .string s)) :
    eqFrom accType a e members = .ok true := by
  induction members with
  | nil => rfl
  | cons entry rest ih =>
    obtain ⟨key, val⟩ := entry
    obtain ⟨⟨here, text⟩, later⟩ := List.forall_mem_cons.mp texts
    have rest := ih later
    rw [eqFrom]
    cases skipped : isSkipped key with
    | true => exact rest
    | false =>
      obtain ⟨own', rfl⟩ := text skipped
      have present : e.acc.contains key = true := by
        rw [Json.contains]
        by_cases same : key = jKey
        · rw [same, other]
          rfl
        · rw [others key same, here]
          rfl
      rw [if_neg Bool.false_ne_true, present, if_neg (by decide)]
      by_cases pattern : key = "object" ∨ key = "arguments"
      · rw [if_pos pattern, patternTexts_of_kind typed kind own other]
        simp only [bind, Except.bind, matching]
        exact rest
      · rw [if_neg pattern]
        have different : key ≠ jKey := by
          rintro rfl
          exact pattern (isKey_of_kind kind)
        have read : e.textAt key = .ok own' := textAt_ok_iff.mpr ((others key different).trans here)
        rw [read]
        simp only [bind, Except.bind, Json.getString]
        rw [if_neg (not_not.mpr rfl)]
        exact rest

theorem eq_expansion {a e : DataAccessor} {p : DeviceIdPattern} {jKey s : String} {x : PatternIndex}
    (ordered : (a.acc.items.map (·.1)).Pairwise (· < ·))
    (texts : ∀ entry ∈ a.acc.items, isSkipped entry.1 = false → ∃ s, entry.2 = .string s)
    (kind : a.isTypeDbus = true ∧ jKey = "object" ∨ a.isTypeCmdline = true ∧ jKey = "arguments")
    (own : a.acc.get? jKey = some (.string s)) (built : DeviceIdPattern.ofString s = .ok p) (member : x ∈ p.domain)
    (expansion : IsExpansion a p jKey x e) : a.eq e = .ok true := by
  obtain ⟨v, evaluated, other⟩ := expansion.text
  obtain ⟨accType, typed⟩ : ∃ type, a.acc.get? "type" = some (.string type) := by
    rcases kind with ⟨type, -⟩ | ⟨type, -⟩
    · exact ⟨_, isType_iff.mp type⟩
    · exact ⟨_, isType_iff.mp type⟩
  have concrete : Concrete v := DeviceIdPattern.eval_free built evaluated
  obtain ⟨b, matched, overlap⟩ := patternsMatch_ok ⟨p, built⟩ (accepted_of_concrete concrete)
  have matching : b = true := overlap.mpr (.inr (.inl ⟨p, built, x, member, evaluated⟩))
  have notType : "type" ≠ jKey := by
    rcases isKey_of_kind kind with rfl | rfl
    · decide
    · decide
  rw [DataAccessor.eq, expansion.others _ notType, typed]
  simp only [Json.beq_string, BEq.rfl, if_true, Json.getString, bind, Except.bind]
  refine eqFrom_expansion typed kind own other (matching ▸ matched) expansion.others _ fun entry inside => ?_
  exact ⟨lookup_of_mem (ordered.imp fun less => less.ne) inside, texts entry inside⟩

/-! ### The expansion -/

theorem existsRangeIn_concrete {s : String} (concrete : Concrete s) : existsRangeIn s = .ok false := by
  obtain ⟨p, built⟩ := accepted_of_concrete concrete
  rw [existsRangeIn, built]
  simp only [bind, Except.bind, existsRange, DeviceIdPattern.dim, DeviceIdPattern.plain_inputs built concrete]
  rfl

theorem isTypeDbus_of_valid {a : DataAccessor} (valid : a.isValidDbusAccessor = true) : a.isTypeDbus = true := by
  rw [isValidDbusAccessor, Bool.and_eq_true, Bool.and_eq_true, Bool.and_eq_true] at valid
  exact valid.1.1.1

theorem expand_eq {a : DataAccessor} {p : DeviceIdPattern} {jKey s : String}
    (kind : a.isValidDbusAccessor = true ∧ jKey = "object" ∨ a.isTypeCmdline = true ∧ jKey = "arguments")
    (own : a.acc.get? jKey = some (.string s)) (built : DeviceIdPattern.ofString s = .ok p) :
    a.expand = expandFrom a.dataValue p jKey p.domain a.acc := by
  rcases kind with ⟨valid, rfl⟩ | ⟨type, rfl⟩
  · have type := isTypeDbus_of_valid valid
    have one : a.expansionType = 1 := by
      rw [expansionType, isTypeCmdline, isType_other type (by decide), type]
      rfl
    have path : a.getDbusObjectPath = .ok s := by
      rw [getDbusObjectPath, if_pos valid]
      exact textAt_ok_iff.mpr own
    rw [expand, one]
    simp [path, built, bind, Except.bind]
  · have two : a.expansionType = 2 := by
      rw [expansionType, if_pos type]
    have arguments : a.getArguments = .ok s := by
      have present : a.acc.contains "arguments" = true := by
        rw [Json.contains, own]
        rfl
      rw [getArguments, type, present]
      exact textAt_ok_iff.mpr own
    rw [expand, two]
    simp [arguments, built, bind, Except.bind]

/-- A bus accessor, and a command line with arguments, is expanded to one accessor for each tuple of the domain,
in the order of the domain. The original compares equal to each. -/
theorem expand_domain (a : DataAccessor) (jKey s : String) (p : DeviceIdPattern)
    (ordered : (a.acc.items.map (·.1)).Pairwise (· < ·))
    (texts : ∀ entry ∈ a.acc.items, isSkipped entry.1 = false → ∃ s, entry.2 = .string s)
    (kind : a.isValidDbusAccessor = true ∧ jKey = "object" ∨ a.isTypeCmdline = true ∧ jKey = "arguments")
    (own : a.acc.get? jKey = some (.string s)) (built : DeviceIdPattern.ofString s = .ok p)
    (small : (p.patternInputDomains.map PatternInputDomain.size).prod < 2 ^ 32) :
    (∀ x, x ∈ p.domain ↔ p.InDomain x) ∧ p.domain.Pairwise (· < ·) ∧
    ∃ list, a.expand = .ok list ∧ List.Forall₂ (IsExpansion a p jKey) p.domain list ∧
      ∀ e ∈ list, (∃ v, e.acc.get? jKey = some (.string v) ∧ existsRangeIn v = .ok false) ∧ a.eq e = .ok true := by
  obtain ⟨members, whole⟩ := Json.exists_object own
  obtain ⟨text, evaluated⟩ := DeviceIdPattern.evaluated_domain p
  obtain ⟨list, expanded, each⟩ := expandFrom_ok ordered own p.domain (fun x member => ⟨text x, evaluated x member⟩)
    a.acc ⟨members, whole, .inl whole⟩
  refine ⟨fun x => DeviceIdPattern.mem_domain small, DeviceIdPattern.domain_increasing small, list,
    (expand_eq kind own built).trans expanded, each, fun e member => ?_⟩
  obtain ⟨x, inside, expansion⟩ := forall₂_mem_right each member
  obtain ⟨v, value, read⟩ := expansion.text
  refine ⟨⟨v, read, existsRangeIn_concrete (DeviceIdPattern.eval_free built value)⟩, ?_⟩
  have type : a.isTypeDbus = true ∧ jKey = "object" ∨ a.isTypeCmdline = true ∧ jKey = "arguments" :=
    kind.imp_left (And.imp_left isTypeDbus_of_valid)
  exact eq_expansion ordered texts type own built inside expansion

def overtemp : DataAccessor where
  acc := .object [("check", .object [("equal", .string "true")]), ("interface", .string "com.nvidia.Overtemp"),
    ("object", .string "/GPU_SXM_[1-2]/NVLink_[4-5]"), ("property", .string "Overtemp"), ("type", .string "DBUS")]

theorem expand_domain_overtemp : ∃ list, overtemp.expand = .ok list ∧ list.length = 4 ∧
    ∀ e ∈ list, overtemp.eq e = .ok true := by
  have parsed : (DeviceIdPattern.ofString "/GPU_SXM_[1-2]/NVLink_[4-5]").map (fun p =>
      (decide ((p.patternInputDomains.map PatternInputDomain.size).prod = 4), p.domain.length)) = .ok (true, 4) := by
    decide +kernel
  obtain ⟨p, built, facts⟩ := map_ok parsed
  simp only [Prod.mk.injEq, decide_eq_true_eq] at facts
  obtain ⟨-, -, list, expanded, each, equal⟩ := expand_domain overtemp "object" "/GPU_SXM_[1-2]/NVLink_[4-5]" p
    (by decide) (by simp [overtemp, Json.items, isSkipped]) (.inl ⟨by decide, rfl⟩) rfl built (by rw [facts.1]; decide)
  exact ⟨list, expanded, each.length_eq.symm.trans facts.2, fun e member => (equal e member).2⟩

end Accessor.DataAccessor

end MonitorEventing
