import MonitorEventing.Accessor.Equality

/-!
# Accessor hashes

`DataAccessor::Hash`, the hash of the event views. Equality of accessors is loose where the hash
reads nothing: in the object path, the arguments and the optional fields.
-/

namespace MonitorEventing.Accessor.DataAccessor

def getType (a : DataAccessor) : Except Exn String :=
  if isValid a.acc then a.textAt "type" else pure ""

/-- The text the hash is taken of. -/
def hashKey (a : DataAccessor) : Except Exn String := do
  let type ← a.getType
  if a.isValidDbusAccessor then do
    let interface ← a.getDbusInterface
    let property ← a.getProperty
    pure (type ++ (interface ++ property))
  else if a.isTypeCmdline then do
    let executable ← a.getExecutable
    pure (type ++ executable)
  else if a.isTypeDeviceCoreApi then do
    let property ← a.getProperty
    pure (type ++ property)
  else pure type

/-- `Hash`, over `std::hash` of strings. -/
def hash (hashFn : String → UInt64) (a : DataAccessor) : Except Exn UInt64 := do
  let key ← a.hashKey
  pure (hashFn key)

/-! ### What equal accessors share -/

/-- The fields the hash reads. -/
def Kind.hashed : Kind → List String
  | dbus => ["type", "interface", "property"]
  | cmdline => ["type", "executable"]
  | deviceCoreApi => ["type", "property"]

def SameText (a b : DataAccessor) (key : String) : Prop :=
  ∃ s, a.acc.get? key = some (.string s) ∧ b.acc.get? key = some (.string s)

theorem eqFrom_true {accType : String} {a b : DataAccessor} {members : List (String × Json)}
    (equal : eqFrom accType a b members = .ok true) {key : String} {value : Json} (member : (key, value) ∈ members)
    (compared : isSkipped key = false) (exact : ¬ (key = "object" ∨ key = "arguments")) :
    ∃ s, value = .string s ∧ b.acc.get? key = some (.string s) := by
  induction members with
  | nil => cases member
  | cons entry rest ih =>
    obtain ⟨first, own⟩ := entry
    -- a loop that ends in true went past its first member
    have step : eqFrom accType a b rest = .ok true ∧
        (isSkipped first = false → ¬ (first = "object" ∨ first = "arguments") →
          ∃ s, own = .string s ∧ b.acc.get? first = some (.string s)) := by
      unfold eqFrom at equal
      by_cases skipped : isSkipped first = true
      · rw [if_pos skipped] at equal
        exact ⟨equal, fun kept => absurd (skipped.symm.trans kept) (by decide)⟩
      · rw [if_neg skipped] at equal
        by_cases missing : (!b.acc.contains first) = true
        · rw [if_pos missing] at equal
          cases equal
        · rw [if_neg missing] at equal
          by_cases pattern : first = "object" ∨ first = "arguments"
          · rw [if_pos pattern] at equal
            obtain ⟨⟨s, t⟩, _, equal⟩ := bind_ok equal
            obtain ⟨matched, _, equal⟩ := bind_ok equal
            cases matched with
            | true => exact ⟨equal, fun _ other => absurd pattern other⟩
            | false => cases equal
          · rw [if_neg pattern] at equal
            obtain ⟨t, other, equal⟩ := bind_ok equal
            obtain ⟨s, mine, equal⟩ := bind_ok equal
            by_cases different : t ≠ s
            · rw [if_pos different] at equal
              cases equal
            · rw [if_neg different] at equal
              have same : t = s := not_not.mp different
              subst same
              exact ⟨equal, fun _ _ => ⟨t, Json.getString_ok_iff.mp mine, textAt_ok_iff.mp other⟩⟩
    rcases List.mem_cons.mp member with here | later
    · obtain ⟨rfl, rfl⟩ := Prod.mk.inj here
      exact step.2 compared exact
    · exact ih step.1 later

theorem eq_sameText {a b : DataAccessor} (equal : a.eq b = .ok true) {key : String} {value : Json}
    (read : a.acc.get? key = some value) (compared : isSkipped key = false)
    (exact : ¬ (key = "object" ∨ key = "arguments")) : SameText a b key := by
  unfold DataAccessor.eq at equal
  split at equal
  · split at equal
    · obtain ⟨accType, _, equal⟩ := bind_ok equal
      obtain ⟨s, rfl, other⟩ := eqFrom_true equal (Json.mem_items_of_get? read) compared exact
      exact ⟨s, read, other⟩
    · cases equal
  · cases equal

theorem HasShape.contains {acc : Json} {kind : Kind} (h : HasShape acc kind.type kind.required kind.optional)
    {key : String} (member : key ∈ "type" :: kind.required) : ∃ value, acc.get? key = some value := by
  rcases List.mem_cons.mp member with rfl | required
  · exact ⟨_, h.typed⟩
  · exact Option.isSome_iff_exists.mp (h.present key required)

theorem hashed_sub (kind : Kind) : ∀ key ∈ kind.hashed,
    key ∈ "type" :: kind.required ∧ isSkipped key = false ∧ ¬ (key = "object" ∨ key = "arguments") := by
  cases kind
  · decide
  · decide
  · decide

/-! ### What the hash reads -/

theorem hashKey_dbus {a : DataAccessor} (h : HasShape a.acc "DBUS" Kind.dbus.required Kind.dbus.optional)
    {interface property : String} (readInterface : a.acc.get? "interface" = some (.string interface))
    (readProperty : a.acc.get? "property" = some (.string property)) :
    a.hashKey = .ok ("DBUS" ++ (interface ++ property)) := by
  have object := h.present "object" (by decide)
  have typed := h.typed
  have valid : a.isValidDbusAccessor = true := by
    have interfaced : a.acc.contains "interface" = true := by simp [Json.contains, readInterface]
    have propertied : a.acc.contains "property" = true := by simp [Json.contains, readProperty]
    simp [isValidDbusAccessor, isTypeDbus, isType_iff.mpr typed, object, interfaced, propertied]
  simp only [hashKey, getType, getDbusInterface, getProperty, valid, if_true, isValid, Json.contains, typed,
    readProperty, Option.isSome_some, Bool.and_self, textAt_ok_iff.mpr typed, textAt_ok_iff.mpr readInterface,
    textAt_ok_iff.mpr readProperty]
  rfl

theorem hashKey_cmdline {a : DataAccessor}
    (typed : a.acc.get? "type" = some (.string "CMDLINE")) {executable : String}
    (read : a.acc.get? "executable" = some (.string executable)) : a.hashKey = .ok ("CMDLINE" ++ executable) := by
  have cmdline : a.isTypeCmdline = true := isType_iff.mpr typed
  have notDbus : a.isType "DBUS" = false := isType_other cmdline (by decide)
  have other : a.isValidDbusAccessor = false := by simp [isValidDbusAccessor, isTypeDbus, notDbus]
  simp only [hashKey, getType, getExecutable, cmdline, other, Bool.false_eq_true, if_false, if_true, isValid,
    Json.contains, typed, read, Option.isSome_some, textAt_ok_iff.mpr typed, textAt_ok_iff.mpr read]
  rfl

theorem hashKey_deviceCoreApi {a : DataAccessor}
    (typed : a.acc.get? "type" = some (.string "DeviceCoreAPI")) {property : String}
    (read : a.acc.get? "property" = some (.string property)) : a.hashKey = .ok ("DeviceCoreAPI" ++ property) := by
  have core : a.isTypeDeviceCoreApi = true := isType_iff.mpr typed
  have notDbus : a.isType "DBUS" = false := isType_other core (by decide)
  have dbus : a.isValidDbusAccessor = false := by simp [isValidDbusAccessor, isTypeDbus, notDbus]
  have cmdline : a.isTypeCmdline = false := isType_other core (by decide)
  simp only [hashKey, getType, getProperty, core, dbus, cmdline, Bool.false_eq_true, if_false, if_true, isValid,
    Json.contains, typed, read, Option.isSome_some, Bool.and_self, textAt_ok_iff.mpr typed, textAt_ok_iff.mpr read]
  rfl

theorem hashKey_direct {a : DataAccessor} (typed : a.acc.get? "type" = some (.string "DIRECT")) :
    a.hashKey = .ok "DIRECT" := by
  have direct : a.isTypeDeviceName = true := isType_iff.mpr typed
  have notDbus : a.isType "DBUS" = false := isType_other direct (by decide)
  have dbus : a.isValidDbusAccessor = false := by simp [isValidDbusAccessor, isTypeDbus, notDbus]
  have cmdline : a.isTypeCmdline = false := isType_other direct (by decide)
  have core : a.isTypeDeviceCoreApi = false := isType_other direct (by decide)
  simp only [hashKey, getType, dbus, cmdline, core, Bool.false_eq_true, if_false, if_true, isValid, Json.contains,
    typed, Option.isSome_some, textAt_ok_iff.mpr typed]
  rfl

theorem hashKey_sameText {a b : DataAccessor} {kind : Kind}
    (left : HasShape a.acc kind.type kind.required kind.optional)
    (right : HasShape b.acc kind.type kind.required kind.optional)
    (same : ∀ key ∈ kind.hashed, SameText a b key) : ∃ text, a.hashKey = .ok text ∧ b.hashKey = .ok text := by
  cases kind with
  | dbus =>
    obtain ⟨interface, leftInterface, rightInterface⟩ := same "interface" (by decide)
    obtain ⟨property, leftProperty, rightProperty⟩ := same "property" (by decide)
    exact ⟨_, hashKey_dbus left leftInterface leftProperty, hashKey_dbus right rightInterface rightProperty⟩
  | cmdline =>
    obtain ⟨executable, leftRead, rightRead⟩ := same "executable" (by decide)
    exact ⟨_, hashKey_cmdline left.typed leftRead, hashKey_cmdline right.typed rightRead⟩
  | deviceCoreApi =>
    obtain ⟨property, leftRead, rightRead⟩ := same "property" (by decide)
    exact ⟨_, hashKey_deviceCoreApi left.typed leftRead, hashKey_deviceCoreApi right.typed rightRead⟩

/-- Equal accessors have the same hash, whatever else the two carry. -/
theorem hash_eq_of_eq (hashFn : String → UInt64) (a b : DataAccessor) (kindA kindB : Kind)
    (left : HasShape a.acc kindA.type kindA.required kindA.optional)
    (right : HasShape b.acc kindB.type kindB.required kindB.optional) (equal : a.eq b = .ok true) :
    ∃ n, a.hash hashFn = .ok n ∧ b.hash hashFn = .ok n := by
  have kinds : kindA = kindB := by
    obtain ⟨s, own, other⟩ := eq_sameText equal left.typed rfl (by decide)
    have sameType : kindA.type = kindB.type := by
      rw [left.typed] at own
      rw [right.typed] at other
      simpa using own.trans other.symm
    cases kindA <;> cases kindB <;> first | rfl | exact absurd sameType (by decide)
  subst kinds
  have same : ∀ key ∈ kindA.hashed, SameText a b key := by
    intro key member
    obtain ⟨known, compared, exact⟩ := hashed_sub kindA key member
    obtain ⟨value, read⟩ := left.contains known
    exact eq_sameText equal read compared exact
  obtain ⟨text, leftKey, rightKey⟩ := hashKey_sameText left right same
  exact ⟨hashFn text, by rw [hash, leftKey]; rfl, by rw [hash, rightKey]; rfl⟩

/-- A hash of texts as a standard library may have it. -/
def polynomialHash (text : String) : UInt64 := text.foldl (fun n c => 31 * n + c.val.toUInt64) 0

/-- A range pattern with a name and a check, and one of its paths with neither. -/
theorem hash_eq_of_eq_ranged :
    ∃ n, (DataAccessor.hash polynomialHash { acc := .object [("check", .object [("lookup", .string "fault")]),
        ("interface", .string "Item"), ("name", .string "present"), ("object", .string "/GPU[1-2]"),
        ("property", .string "Present"), ("type", .string "DBUS")] }) = .ok n ∧
      (DataAccessor.hash polynomialHash { acc := .object [("interface", .string "Item"), ("object", .string "/GPU2"),
        ("property", .string "Present"), ("type", .string "DBUS")] }) = .ok n :=
  hash_eq_of_eq polynomialHash _ _ .dbus .dbus (by decide) (by decide) (by decide)

end MonitorEventing.Accessor.DataAccessor
