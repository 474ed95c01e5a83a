import MonitorEventing.Accessor.PropertyValue

/-!
# Check maps

A check map names operators with the texts they compare with. Each known operator is a predicate on
the value; `check` goes through the map in its order and stops at the first predicate that fails. It
has no branch for an operator it does not know.
-/

namespace MonitorEventing.Accessor.PropertyValue

/-- The predicate an operator stands for. -/
def predicateOf (redefCriteria : PropertyVariant) (key accessorValue : String) : Option (PropertyValue → Bool) :=
  let criteria := valueFromCriteria redefCriteria accessorValue
  match key with
  | "bitmask" => some fun value => value.bitmask criteria
  | "bitmap" => some fun value => value.bitmask criteria
  | "bitset" => some fun value => value.bitset criteria
  | "not_bitmask" => some fun value => value.notBitmask criteria
  | "not_bitset" => some fun value => value.notBitset criteria
  | "lookup" => some fun value => value.lookup (stringFromCriteria redefCriteria accessorValue)
  | "equal" => some fun value => value.eq criteria
  | "not_equal" => some fun value => !value.eq criteria
  | _ => none

def isOperator (key : String) : Bool :=
  key ∈ ["bitmask", "bitmap", "bitset", "not_bitmask", "not_bitset", "lookup", "equal", "not_equal"]

/-- The entry has a known operator, and its predicate holds. -/
def Met (value : PropertyValue) (redefCriteria : PropertyVariant) (entry : String × String) : Prop :=
  ∃ predicate, predicateOf redefCriteria entry.1 entry.2 = some predicate ∧ predicate value = true

theorem predicateOf_isSome (redefCriteria : PropertyVariant) (key accessorValue : String) :
    (predicateOf redefCriteria key accessorValue).isSome = isOperator key := by
  unfold predicateOf isOperator
  split <;> simp_all

theorem checkEntry_eq (value : PropertyValue) (redefCriteria : PropertyVariant) (ret : Bool) (key accessorValue : String) :
    value.checkEntry redefCriteria ret key accessorValue =
      ((predicateOf redefCriteria key accessorValue).map fun predicate => predicate value).getD ret := by
  unfold predicateOf
  split <;> simp_all [checkEntry]

section
variable {value : PropertyValue} {redefCriteria : PropertyVariant}

theorem checkEntry_operator {ret : Bool} {entry : String × String} (known : isOperator entry.1 = true) :
    value.checkEntry redefCriteria ret entry.1 entry.2 = true ↔ Met value redefCriteria entry := by
  rw [← predicateOf_isSome redefCriteria entry.1 entry.2, Option.isSome_iff_exists] at known
  obtain ⟨predicate, operator⟩ := known
  simp [checkEntry_eq, Met, operator]

theorem checkEntry_unknown {ret : Bool} {entry : String × String} (unknown : isOperator entry.1 = false) :
    value.checkEntry redefCriteria ret entry.1 entry.2 = ret := by
  rw [← predicateOf_isSome redefCriteria entry.1 entry.2, Option.isSome_eq_false_iff, Option.isNone_iff_eq_none] at unknown
  rw [checkEntry_eq, unknown]
  rfl

theorem Met.known {entry : String × String} (met : Met value redefCriteria entry) : isOperator entry.1 = true := by
  obtain ⟨predicate, operator, _⟩ := met
  rw [← predicateOf_isSome redefCriteria entry.1 entry.2, operator]
  rfl

/-- Behind an entry that passed only the known operators count. -/
theorem checkFrom_true (map : List (String × String)) :
    value.checkFrom redefCriteria true map = true ↔
      ∀ entry ∈ map, isOperator entry.1 = true → Met value redefCriteria entry := by
  induction map with
  | nil => simp [checkFrom]
  | cons entry rest ih =>
    rw [checkFrom, Bool.if_false_right, Bool.and_eq_true, decide_eq_true_eq, ih, List.forall_mem_cons]
    apply and_congr_left
    intro _
    cases known : isOperator entry.1 with
    | true => rw [checkEntry_operator known, imp_iff_right rfl]
    | false =>
      rw [checkEntry_unknown known]
      exact iff_of_true rfl nofun

/-- The first entry has to be known and to hold, of the others those that are known. -/
theorem check_cons (entry : String × String) (rest : List (String × String)) :
    value.check (entry :: rest) redefCriteria = true ↔ Met value redefCriteria entry ∧
      ∀ other ∈ rest, isOperator other.1 = true → Met value redefCriteria other := by
  rw [check, checkFrom, Bool.if_false_right, Bool.and_eq_true, decide_eq_true_eq, checkFrom_true]
  apply and_congr_left
  intro _
  cases known : isOperator entry.1 with
  | true => exact checkEntry_operator known
  | false =>
    rw [checkEntry_unknown known]
    refine iff_of_false nofun fun met => ?_
    rw [met.known] at known
    cases known

end

/-- Exactly the maps with an entry, and only entries that are met, pass. -/
def ChecksAll (value : PropertyValue) (map : List (String × String)) (redefCriteria : PropertyVariant) : Prop :=
  value.check map redefCriteria = true ↔ map ≠ [] ∧ ∀ entry ∈ map, Met value redefCriteria entry

/-- An operator nobody knows stands behind the first entry, and every entry with a known one is met. -/
def PassesUnknown (value : PropertyValue) (map : List (String × String)) (redefCriteria : PropertyVariant) : Prop :=
  ∃ first rest, map = first :: rest ∧ isOperator first.1 = true ∧
    (∀ entry ∈ map, isOperator entry.1 = true → Met value redefCriteria entry) ∧
    ∃ entry ∈ rest, isOperator entry.1 = false

/-- A check says whether all entries are met, unless an unknown operator follows and all else is met. -/
theorem checksAll_iff (value : PropertyValue) (map : List (String × String)) (redefCriteria : PropertyVariant) :
    ChecksAll value map redefCriteria ↔ ¬ PassesUnknown value map redefCriteria := by
  cases map with
  | nil =>
    refine iff_of_true ?_ ?_
    · simp [ChecksAll, check, checkFrom]
    · rintro ⟨first, rest, impossible, _⟩
      cases impossible
  | cons first rest =>
    rw [ChecksAll, check_cons, and_iff_right (List.cons_ne_nil first rest), List.forall_mem_cons]
    constructor
    · intro stated passes
      obtain ⟨first', rest', same, known, met, entry, member, unknown⟩ := passes
      obtain ⟨rfl, rfl⟩ := List.cons.inj same
      obtain ⟨here, later⟩ := List.forall_mem_cons.mp met
      have all := (stated.mp ⟨here known, later⟩).2 entry member
      rw [all.known] at unknown
      cases unknown
    · intro never
      refine and_congr_right fun here => ⟨fun later entry member => ?_, fun all entry member _ => all entry member⟩
      cases known : isOperator entry.1 with
      | true => exact later entry member known
      | false =>
        refine absurd ?_ never
        refine ⟨first, rest, rfl, here.known, ?_, entry, member, known⟩
        exact List.forall_mem_cons.mpr ⟨fun _ => here, later⟩

/-- A mask that is met, and an operator with a typing error behind it. -/
theorem checksAll_mistyped :
    (ofVariant (.integer 3)).check [("bitmask", "0x01"), ("not_equals", "3")] .invalid = true ∧
      ¬ ChecksAll (ofVariant (.integer 3)) [("bitmask", "0x01"), ("not_equals", "3")] .invalid := by
  refine ⟨by decide, fun stated => ?_⟩
  have met := (stated.mp (by decide)).2 ("not_equals", "3") (by simp)
  exact absurd met.known (by decide)

end MonitorEventing.Accessor.PropertyValue
