import MonitorEventing.Accessor.DataAccessor
import MonitorEventing.DeviceId.Values

/-!
# Accessor equality

`operator==` of accessors, the key equality of the event views. On well-formed accessors it is a
comparison field by field in which object paths and arguments overlap as patterns, and overlapping
is no equivalence: a concrete text overlaps every pattern it is a value of, but two different
patterns never overlap each other.
-/

namespace MonitorEventing.Accessor.DataAccessor
open DeviceId

/-! ### Overlapping patterns -/

def IsValueOf (text pattern : String) : Prop :=
  ∃ p, DeviceIdPattern.ofString pattern = .ok p ∧ ∃ x ∈ p.domain, p.eval x = .ok text

def Overlaps (s t : String) : Prop := s = t ∨ IsValueOf t s ∨ IsValueOf s t

def Concrete (s : String) : Prop := Text.Free Grammar.isBracket s.toList

theorem accepted_of_concrete {s : String} (concrete : Concrete s) : ∃ p, DeviceIdPattern.ofString s = .ok p := by
  refine Grammar.accepts_iff_loose.mpr ⟨.text concrete, ?_⟩
  rw [Grammar.bracketCount, Grammar.filter_free concrete]
  exact Nat.two_pow_pos 32

theorem overlaps_symm {s t : String} (h : Overlaps s t) : Overlaps t s := by
  rcases h with same | value | value
  · exact Or.inl same.symm
  · exact Or.inr (Or.inr value)
  · exact Or.inr (Or.inl value)

theorem value_concrete {s t : String} (h : IsValueOf t s) (different : s ≠ t) : Concrete t ∧ ¬ Concrete s := by
  obtain ⟨p, built, value⟩ := h
  refine ⟨?_, fun plain => ?_⟩
  · obtain ⟨x, _, evaluated⟩ := value
    exact DeviceIdPattern.eval_free built evaluated
  · exact different ((DeviceIdPattern.plain_value_iff built plain t).mp value).symm

theorem overlaps_opposite {s t : String} (h : Overlaps s t) (different : s ≠ t) : Concrete s ↔ ¬ Concrete t := by
  rcases h with same | value | value
  · exact absurd same different
  · obtain ⟨concrete, pattern⟩ := value_concrete value different
    exact iff_of_false pattern (not_not.mpr concrete)
  · obtain ⟨concrete, pattern⟩ := value_concrete value different.symm
    exact iff_of_true concrete pattern

theorem not_overlaps_three {s t u : String} (hst : Overlaps s t) (htu : Overlaps t u) (st : s ≠ t) (tu : t ≠ u)
    (su : s ≠ u) : ¬ Overlaps s u := by
  intro hsu
  have first := overlaps_opposite hst st
  have second := overlaps_opposite htu tu
  have third := overlaps_opposite hsu su
  by_cases concrete : Concrete t
  · exact (second.mp concrete) (not_not.mp (mt third.mpr (mt first.mp (not_not.mpr concrete))))
  · exact (third.mp (first.mpr concrete)) (not_not.mp (mt second.mpr concrete))

theorem patternsMatch_ok {s t : String} (left : ∃ p, DeviceIdPattern.ofString s = .ok p)
    (right : ∃ p, DeviceIdPattern.ofString t = .ok p) :
    ∃ b, patternsMatch s t = .ok b ∧ (b = true ↔ Overlaps s t) := by
  obtain ⟨p, builtP⟩ := left
  obtain ⟨q, builtQ⟩ := right
  obtain ⟨first, firstRead, firstIff⟩ := DeviceIdPattern.matchesString_iff p t
  obtain ⟨second, secondRead, secondIff⟩ := DeviceIdPattern.matchesString_iff q s
  have valueOfP : IsValueOf t s ↔ first = true := by
    rw [firstIff]
    refine ⟨fun ⟨p', built, value⟩ => ?_, fun value => ⟨p, builtP, value⟩⟩
    rwa [Except.ok.inj (builtP.symm.trans built)]
  have valueOfQ : IsValueOf s t ↔ second = true := by
    rw [secondIff]
    refine ⟨fun ⟨q', built, value⟩ => ?_, fun value => ⟨q, builtQ, value⟩⟩
    rwa [Except.ok.inj (builtQ.symm.trans built)]
  unfold patternsMatch Overlaps
  rw [valueOfP, valueOfQ]
  by_cases same : s = t
  · exact ⟨true, by simp [same, pure, Except.pure], by simp [same]⟩
  · refine ⟨first || second, ?_, by simp [same]⟩
    rw [if_pos same, builtP, builtQ]
    simp only [bind, Except.bind, firstRead]
    cases first
    · exact secondRead
    · rfl

/-! ### Well-formed accessors -/

structure HasShape (acc : Json) (type : String) (required optional : List String) : Prop where
  unique : (acc.items.map (·.1)).Nodup
  typed : acc.get? "type" = some (.string type)
  known : ∀ entry ∈ acc.items, isSkipped entry.1 = false →
    entry.1 ∈ "type" :: (required ++ optional) ∧ ∃ s, entry.2 = .string s
  present : ∀ key ∈ required, acc.contains key = true

def isText : Json → Bool
  | .string _ => true
  | _ => false

theorem isText_iff {j : Json} : isText j = true ↔ ∃ s, j = .string s := by
  cases j <;> simp [isText]

instance (acc : Json) (type : String) (required optional : List String) :
    Decidable (HasShape acc type required optional) :=
  decidable_of_iff
    ((acc.items.map (·.1)).Nodup ∧ ((acc.get? "type").map fun value => value.isString type) = some true ∧
      (∀ entry ∈ acc.items, isSkipped entry.1 = false →
        entry.1 ∈ "type" :: (required ++ optional) ∧ isText entry.2 = true) ∧
      ∀ key ∈ required, acc.contains key = true)
    (by
      have typed : ((acc.get? "type").map fun value => value.isString type) = some true ↔
          acc.get? "type" = some (.string type) := by
        cases acc.get? "type" <;> simp [Json.isString_iff]
      simp only [typed, isText_iff]
      exact ⟨fun ⟨unique, typed, known, present⟩ => ⟨unique, typed, known, present⟩,
        fun h => ⟨h.unique, h.typed, h.known, h.present⟩⟩)

inductive Kind where
  | dbus | cmdline | deviceCoreApi
  deriving DecidableEq

def Kind.type : Kind → String
  | dbus => "DBUS"
  | cmdline => "CMDLINE"
  | deviceCoreApi => "DeviceCoreAPI"

def Kind.required : Kind → List String
  | dbus => ["object", "interface", "property"]
  | cmdline => ["executable"]
  | deviceCoreApi => ["property"]

def Kind.optional : Kind → List String
  | cmdline => ["arguments"]
  | _ => []

/-- An accessor of one of the three kinds that are looked up, with accepted patterns. -/
structure WellFormed (a : DataAccessor) (kind : Kind) : Prop where
  shape : HasShape a.acc kind.type kind.required kind.optional
  accepted : ∀ key s, key = "object" ∨ key = "arguments" → a.acc.get? key = some (.string s) →
    ∃ p, DeviceIdPattern.ofString s = .ok p

theorem HasShape.get?_of_mem {acc : Json} {type : String} {required optional : List String}
    (h : HasShape acc type required optional) {key : String} {value : Json} (member : (key, value) ∈ acc.items) :
    acc.get? key = some value :=
  lookup_of_mem h.unique member

theorem HasShape.text {acc : Json} {type : String} {required optional : List String}
    (h : HasShape acc type required optional) {key : String} {value : Json} (compared : isSkipped key = false)
    (read : acc.get? key = some value) : ∃ s, value = .string s :=
  (h.known _ (Json.mem_items_of_get? read) compared).2

theorem HasShape.required_text {acc : Json} {type : String} {required optional : List String}
    (h : HasShape acc type required optional) {key : String} (member : key ∈ required)
    (compared : isSkipped key = false) : ∃ s, acc.get? key = some (.string s) := by
  obtain ⟨value, read⟩ := Option.isSome_iff_exists.mp (h.present key member)
  obtain ⟨s, rfl⟩ := h.text compared read
  exact ⟨s, read⟩

/-! ### The comparison, field by field -/

def Agree (key s t : String) : Prop := if key = "object" ∨ key = "arguments" then Overlaps s t else s = t

def Covers (a b : DataAccessor) : Prop :=
  ∀ key s, isSkipped key = false → a.acc.get? key = some (.string s) →
    ∃ t, b.acc.get? key = some (.string t) ∧ Agree key s t

theorem agree_symm {key s t : String} (h : Agree key s t) : Agree key t s := by
  by_cases pattern : key = "object" ∨ key = "arguments"
  · simp only [Agree, pattern, if_true] at h ⊢
    exact overlaps_symm h
  · simp only [Agree, pattern, if_false] at h ⊢
    exact h.symm

theorem pattern_key {kind : Kind} {key : String} (pattern : key = "object" ∨ key = "arguments")
    (known : key ∈ "type" :: (kind.required ++ kind.optional)) :
    kind = .dbus ∧ key = "object" ∨ kind = .cmdline ∧ key = "arguments" := by
  rcases pattern with rfl | rfl
  · cases kind
    · exact Or.inl ⟨rfl, rfl⟩
    · exact absurd known (by decide)
    · exact absurd known (by decide)
  · cases kind
    · exact absurd known (by decide)
    · exact Or.inr ⟨rfl, rfl⟩
    · exact absurd known (by decide)

theorem eqFrom_ok {a b : DataAccessor} {kind : Kind} (left : WellFormed a kind) (right : WellFormed b kind)
    (members : List (String × Json)) (sub : ∀ entry ∈ members, entry ∈ a.acc.items) :
    ∃ r, eqFrom kind.type a b members = .ok r ∧ (r = true ↔ ∀ entry ∈ members, ∀ s, isSkipped entry.1 = false →
      entry.2 = .string s → ∃ t, b.acc.get? entry.1 = some (.string t) ∧ Agree entry.1 s t) := by
  induction members with
  | nil => exact ⟨true, rfl, by simp⟩
  | cons entry rest ih =>
    obtain ⟨key, val⟩ := entry
    obtain ⟨r, restRead, restIff⟩ := ih fun entry member => sub entry (List.mem_cons_of_mem _ member)
    have here := sub _ List.mem_cons_self
    unfold eqFrom
    simp only [List.forall_mem_cons]
    rw [← restIff]
    by_cases skipped : isSkipped key = true
    · exact ⟨r, by rw [if_pos skipped]; exact restRead, by simp [skipped]⟩
    · rw [if_neg skipped]
      have compared : isSkipped key = false := by simpa using skipped
      obtain ⟨known, s, rfl⟩ := left.shape.known _ here compared
      have own := left.shape.get?_of_mem here
      -- the left text is fixed, so the first conjunct speaks of it alone
      have first : (∀ s', isSkipped key = false → Json.string s = .string s' →
          ∃ t, b.acc.get? key = some (.string t) ∧ Agree key s' t) ↔
          ∃ t, b.acc.get? key = some (.string t) ∧ Agree key s t :=
        ⟨fun h => h s compared rfl, fun h s' _ same => (Json.string.inj same) ▸ h⟩
      rw [first]
      cases missing : b.acc.get? key with
      | none =>
        refine ⟨false, ?_, by simp⟩
        rw [if_pos (by simp [Json.contains, missing])]
        rfl
      | some value =>
        obtain ⟨t, rfl⟩ := right.shape.text compared missing
        rw [if_neg (by simp [Json.contains, missing])]
        by_cases pattern : key = "object" ∨ key = "arguments"
        · rw [if_pos pattern]
          have texts : patternTexts kind.type a b = .ok (s, t) := by
            rcases pattern_key pattern known with ⟨rfl, rfl⟩ | ⟨rfl, rfl⟩
            · show patternTexts "DBUS" a b = .ok (s, t)
              rw [patternTexts, if_pos rfl]
              exact bind_ok_iff.mpr ⟨s, textAt_ok_iff.mpr own, bind_ok_iff.mpr ⟨t, textAt_ok_iff.mpr missing, rfl⟩⟩
            · show patternTexts "CMDLINE" a b = .ok (s, t)
              rw [patternTexts, if_neg (by decide), if_pos rfl]
              exact bind_ok_iff.mpr ⟨s, textAt_ok_iff.mpr own, bind_ok_iff.mpr ⟨t, textAt_ok_iff.mpr missing, rfl⟩⟩
          obtain ⟨m, matched, overlap⟩ := patternsMatch_ok (left.accepted key s pattern own)
            (right.accepted key t pattern missing)
          refine ⟨m && r, ?_, by simp [Agree, pattern, overlap]⟩
          rw [texts]
          simp only [bind, Except.bind, matched]
          cases m
          · rfl
          · exact restRead
        · rw [if_neg pattern]
          have other : b.textAt key = .ok t := textAt_ok_iff.mpr missing
          rw [other]
          simp only [bind, Except.bind, Json.getString]
          by_cases same : t = s
          · exact ⟨r, by rw [if_neg (not_not.mpr same)]; exact restRead, by simp [Agree, pattern, same]⟩
          · refine ⟨false, by rw [if_pos same]; rfl, ?_⟩
            simp [Agree, pattern, Ne.symm same]

theorem eq_ok {a b : DataAccessor} {kind kind' : Kind} (left : WellFormed a kind) (right : WellFormed b kind') :
    ∃ r, a.eq b = .ok r ∧ (r = true ↔ Covers a b) := by
  unfold DataAccessor.eq
  rw [left.shape.typed, right.shape.typed]
  simp only [Json.beq_string, beq_iff_eq]
  by_cases same : kind.type = kind'.type
  · have kinds : kind = kind' := by
      cases kind <;> cases kind' <;> first | rfl | exact absurd same (by decide)
    subst kinds
    obtain ⟨r, read, iff⟩ := eqFrom_ok left right a.acc.items fun _ member => member
    refine ⟨r, ?_, iff.trans ⟨fun h key s compared read => ?_, fun h entry member s compared text => ?_⟩⟩
    · rw [if_pos rfl]
      exact read
    · exact h (key, .string s) (Json.mem_items_of_get? read) s compared rfl
    · obtain ⟨key, value⟩ := entry
      subst text
      exact h key s compared (left.shape.get?_of_mem member)
  · refine ⟨false, by rw [if_neg same]; rfl, by simp, fun covers => ?_⟩
    obtain ⟨t, read, agree⟩ := covers "type" kind.type rfl left.shape.typed
    rw [right.shape.typed] at read
    obtain rfl := Json.string.inj (Option.some.inj read)
    exact absurd agree (by simpa [Agree] using same)

/-! ### Symmetry and composition -/

theorem covers_kind {a b : DataAccessor} {kind kind' : Kind} (left : WellFormed a kind) (right : WellFormed b kind')
    (covers : Covers a b) : kind = kind' := by
  obtain ⟨t, read, agree⟩ := covers "type" kind.type rfl left.shape.typed
  rw [right.shape.typed] at read
  obtain rfl := Json.string.inj (Option.some.inj read)
  have same : kind.type = kind'.type := by simpa [Agree] using agree
  cases kind <;> cases kind' <;> first | rfl | exact absurd same (by decide)

theorem covers_symm {a b : DataAccessor} {kind kind' : Kind} (left : WellFormed a kind) (right : WellFormed b kind')
    (both : a.acc.contains "arguments" = b.acc.contains "arguments") (covers : Covers a b) : Covers b a := by
  obtain rfl := covers_kind left right covers
  intro key t compared read
  have present : ∃ s, a.acc.get? key = some (.string s) := by
    obtain ⟨known, _⟩ := right.shape.known _ (Json.mem_items_of_get? read) compared
    rcases List.mem_cons.mp known with rfl | known
    · exact ⟨_, left.shape.typed⟩
    · rcases List.mem_append.mp known with required | optional
      · exact left.shape.required_text required compared
      · have arguments : key = "arguments" := by
          cases kind
          · cases optional
          · exact List.mem_singleton.mp optional
          · cases optional
        subst arguments
        have has : a.acc.contains "arguments" = true := by rw [both, Json.contains, read]; rfl
        obtain ⟨value, own⟩ := Option.isSome_iff_exists.mp has
        obtain ⟨s, rfl⟩ := left.shape.text compared own
        exact ⟨s, own⟩
  obtain ⟨s, own⟩ := present
  obtain ⟨t', read', agree⟩ := covers key s compared own
  rw [read] at read'
  obtain rfl := Json.string.inj (Option.some.inj read')
  exact ⟨s, own, agree_symm agree⟩

def patternText (a : DataAccessor) : Option Json := (a.acc.get? "object").or (a.acc.get? "arguments")

theorem patternText_eq {a : DataAccessor} {kind : Kind} (wf : WellFormed a kind) {key : String} {value : Json}
    (pattern : key = "object" ∨ key = "arguments") (read : a.acc.get? key = some value) :
    a.patternText = some value := by
  unfold patternText
  rcases pattern with rfl | rfl
  · rw [read]
    rfl
  · cases object : a.acc.get? "object" with
    | none => exact read
    | some other =>
      -- no kind has both keys
      have known : "arguments" ∈ "type" :: (kind.required ++ kind.optional) :=
        (wf.shape.known _ (Json.mem_items_of_get? read) rfl).1
      have knownObject : "object" ∈ "type" :: (kind.required ++ kind.optional) :=
        (wf.shape.known _ (Json.mem_items_of_get? object) rfl).1
      cases kind
      · exact absurd known (by decide)
      · exact absurd knownObject (by decide)
      · exact absurd known (by decide)

theorem exists_pattern_key {a : DataAccessor} {kind : Kind} (wf : WellFormed a kind) {value : Json}
    (read : a.patternText = some value) :
    ∃ key s, (key = "object" ∨ key = "arguments") ∧ isSkipped key = false ∧ a.acc.get? key = some (.string s) := by
  have either : a.acc.get? "object" = some value ∨ a.acc.get? "arguments" = some value := by
    unfold patternText at read
    cases object : a.acc.get? "object" with
    | none => exact Or.inr (by simpa [object] using read)
    | some other => exact Or.inl (by simpa [object] using read)
  rcases either with read | read
  · obtain ⟨s, rfl⟩ := wf.shape.text rfl read
    exact ⟨"object", s, Or.inl rfl, rfl, read⟩
  · obtain ⟨s, rfl⟩ := wf.shape.text rfl read
    exact ⟨"arguments", s, Or.inr rfl, rfl, read⟩

theorem covers_trans_iff {a b c : DataAccessor} {kind kind' kind'' : Kind} (wa : WellFormed a kind)
    (wb : WellFormed b kind') (wc : WellFormed c kind'')
    (both : a.acc.contains "arguments" = b.acc.contains "arguments") (hab : Covers a b) (hbc : Covers b c) :
    Covers a c ↔ a.patternText = b.patternText ∨ b.patternText = c.patternText ∨ a.patternText = c.patternText := by
  constructor
  · intro hac
    by_contra distinct
    push Not at distinct
    obtain ⟨ab, bc, ac⟩ := distinct
    cases own : a.patternText with
    | none =>
      -- a text of the middle accessor would be a text of the left one too
      apply ab
      rw [own]
      by_contra some
      obtain ⟨value, other⟩ := Option.ne_none_iff_exists'.mp (Ne.symm some)
      obtain ⟨key, t, pattern, compared, read⟩ := exists_pattern_key wb other
      obtain ⟨s, left, _⟩ := covers_symm wa wb both hab key t compared read
      rw [patternText_eq wa pattern left] at own
      cases own
    | some value =>
      obtain ⟨key, s, pattern, compared, read⟩ := exists_pattern_key wa own
      obtain ⟨t, readB, agreeAB⟩ := hab key s compared read
      obtain ⟨u, readC, agreeBC⟩ := hbc key t compared readB
      obtain ⟨u', readC', agreeAC⟩ := hac key s compared read
      rw [readC] at readC'
      obtain rfl := Json.string.inj (Option.some.inj readC')
      rw [patternText_eq wa pattern read, patternText_eq wb pattern readB] at ab
      rw [patternText_eq wb pattern readB, patternText_eq wc pattern readC] at bc
      rw [patternText_eq wa pattern read, patternText_eq wc pattern readC] at ac
      simp only [ne_eq, Option.some.injEq, Json.string.injEq] at ab bc ac
      simp only [Agree, pattern, if_true] at agreeAB agreeBC agreeAC
      exact not_overlaps_three agreeAB agreeBC ab bc ac agreeAC
  · intro two key s compared read
    obtain ⟨t, readB, agreeAB⟩ := hab key s compared read
    obtain ⟨u, readC, agreeBC⟩ := hbc key t compared readB
    refine ⟨u, readC, ?_⟩
    by_cases pattern : key = "object" ∨ key = "arguments"
    · simp only [Agree, pattern, if_true] at agreeAB agreeBC ⊢
      rw [patternText_eq wa pattern read, patternText_eq wb pattern readB, patternText_eq wc pattern readC] at two
      simp only [Option.some.injEq, Json.string.injEq] at two
      rcases two with rfl | rfl | rfl
      · exact agreeBC
      · exact agreeAB
      · exact Or.inl rfl
    · simp only [Agree, pattern, if_false] at agreeAB agreeBC ⊢
      exact agreeAB.trans agreeBC

/-- Between accessors that both have arguments or both have none, equality is symmetric, and of two
equal pairs the ends are equal exactly when two of the three pattern texts are the same. -/
theorem eq_symm_trans_iff (a b c : DataAccessor) (kindA kindB kindC : Kind) (wa : WellFormed a kindA)
    (wb : WellFormed b kindB) (wc : WellFormed c kindC)
    (bothAB : a.acc.contains "arguments" = b.acc.contains "arguments") :
    (∃ r, a.eq b = .ok r ∧ b.eq a = .ok r) ∧
    (a.eq b = .ok true → b.eq c = .ok true →
      (a.eq c = .ok true ↔
        a.patternText = b.patternText ∨ b.patternText = c.patternText ∨ a.patternText = c.patternText)) := by
  have holds : ∀ {x y : DataAccessor} {k k' : Kind}, WellFormed x k → WellFormed y k' →
      (x.eq y = .ok true ↔ Covers x y) := by
    intro x y k k' wx wy
    obtain ⟨r, read, iff⟩ := eq_ok wx wy
    rw [read, Except.ok.injEq]
    exact iff
  refine ⟨?_, fun hab hbc => ?_⟩
  · obtain ⟨r, read, iff⟩ := eq_ok wa wb
    obtain ⟨r', read', iff'⟩ := eq_ok wb wa
    have same : r = r' := by
      rw [Bool.eq_iff_iff, iff, iff']
      exact ⟨covers_symm wa wb bothAB, covers_symm wb wa bothAB.symm⟩
    exact ⟨r, read, same ▸ read'⟩
  · rw [holds wa wc]
    exact covers_trans_iff wa wb wc bothAB ((holds wa wb).mp hab) ((holds wb wc).mp hbc)

/-! ### A pattern between two accessors -/

def cmdline (rest : List (String × Json)) : DataAccessor :=
  { acc := .object (rest ++ [("executable", .string "mctp-vdm-util"), ("type", .string "CMDLINE")]) }

theorem cmdline_wellFormed {arguments : String} (accepted : ∃ p, DeviceIdPattern.ofString arguments = .ok p) :
    WellFormed (cmdline [("arguments", .string arguments)]) .cmdline := by
  refine ⟨⟨?_, rfl, ?_, ?_⟩, ?_⟩
  · show (["arguments", "executable", "type"] : List String).Nodup
    decide
  · intro entry member _
    simp only [cmdline, Json.items, List.cons_append, List.nil_append, List.mem_cons, List.not_mem_nil,
      or_false] at member
    rcases member with rfl | rfl | rfl
    · exact ⟨by simp [Kind.optional], _, rfl⟩
    · exact ⟨by simp [Kind.required], _, rfl⟩
    · exact ⟨by simp, _, rfl⟩
  · intro key member
    obtain rfl := List.mem_singleton.mp member
    rfl
  · intro key s pattern read
    rcases pattern with rfl | rfl
    · cases read
    · obtain rfl := Json.string.inj (Option.some.inj read)
      exact accepted

theorem accepted_of_isOk {s : String} (h : (DeviceIdPattern.ofString s).isOk = true) :
    ∃ p, DeviceIdPattern.ofString s = .ok p := by
  cases built : DeviceIdPattern.ofString s with
  | ok p => exact ⟨p, rfl⟩
  | error e => rw [built] at h; cases h

/-- Two overlapping pairs, two of the three texts being the same. -/
theorem eq_symm_trans_iff_same_text :
    (cmdline [("arguments", .string "-t [1-2]")]).eq (cmdline [("arguments", .string "-t [1-2]")]) = .ok true := by
  have ranged : WellFormed (cmdline [("arguments", .string "-t [1-2]")]) .cmdline :=
    cmdline_wellFormed (accepted_of_isOk (by decide))
  have single : WellFormed (cmdline [("arguments", .string "-t 1")]) .cmdline :=
    cmdline_wellFormed (accepted_of_isOk (by decide))
  have composed := (eq_symm_trans_iff _ _ _ _ _ _ ranged single ranged rfl).2 (by decide) (by decide)
  exact composed.mpr (Or.inr (Or.inr rfl))

theorem cmdline_bare_wellFormed : WellFormed (cmdline []) .cmdline := by
  refine ⟨⟨?_, rfl, ?_, ?_⟩, ?_⟩
  · show (["executable", "type"] : List String).Nodup
    decide
  · intro entry member _
    simp only [cmdline, Json.items, List.nil_append, List.mem_cons, List.not_mem_nil, or_false] at member
    rcases member with rfl | rfl
    · exact ⟨by simp [Kind.required], _, rfl⟩
    · exact ⟨by simp, _, rfl⟩
  · intro key member
    obtain rfl := List.mem_singleton.mp member
    rfl
  · intro key s pattern read
    rcases pattern with rfl | rfl
    · cases read
    · cases read

/-- Neither symmetric, without and with arguments, nor transitive, through a common value. -/
theorem eq_not_equivalence :
    (∃ a b, WellFormed a .cmdline ∧ WellFormed b .cmdline ∧ a.eq b = .ok true ∧ b.eq a = .ok false) ∧
    (∃ a b c, WellFormed a .cmdline ∧ WellFormed b .cmdline ∧ WellFormed c .cmdline ∧
      a.eq b = .ok true ∧ b.eq c = .ok true ∧ a.eq c = .ok false) := by
  have accepted : ∀ s, (DeviceIdPattern.ofString s).isOk = true →
      WellFormed (cmdline [("arguments", .string s)]) .cmdline := fun s h => cmdline_wellFormed (accepted_of_isOk h)
  refine ⟨⟨cmdline [], cmdline [("arguments", .string "-t 1")], cmdline_bare_wellFormed, accepted _ (by decide),
    by decide, by decide⟩, ?_⟩
  exact ⟨cmdline [("arguments", .string "-t [1-2]")], cmdline [("arguments", .string "-t 1")],
    cmdline [("arguments", .string "-t [1-3]")], accepted _ (by decide), accepted _ (by decide),
    accepted _ (by decide), by decide, by decide, by decide⟩

end MonitorEventing.Accessor.DataAccessor
