import MonitorEventing.Accessor.Hash
import MonitorEventing.Schema.ConfigSchemas

/-!
# Event views

The multimaps that find events by an accessor. An insertion compares the new key with those of the same
hash, one after the other up to the first equal one, so it throws where one of these comparisons does.
-/

namespace MonitorEventing.Accessor
open DeviceId Schema

/-- A node of the table, which keeps the hash of its key. -/
structure ViewEntry (hashFn : String → UInt64) (β : Type) where
  code : UInt64
  key : DataAccessor
  value : β
  hashed : key.hash hashFn = .ok code

/-- The nodes, in the order they were inserted. -/
abbrev EventView (hashFn : String → UInt64) (β : Type) : Type := List (ViewEntry hashFn β)

namespace EventView

variable {hashFn : String → UInt64} {β : Type}

def keys (view : EventView hashFn β) : List DataAccessor := view.map (·.key)

def keysWith (view : EventView hashFn β) (code : UInt64) : List DataAccessor :=
  (view.filter fun entry => entry.code = code).map (·.key)

/-- The order in which a table has the keys of one hash, which its library leaves open. -/
structure Buckets (hashFn : String → UInt64) (β : Type) where
  chain : EventView hashFn β → UInt64 → List DataAccessor
  complete : ∀ view code, (chain view code).Perm (view.keysWith code)

def findEqual (accessor : DataAccessor) : List DataAccessor → Except Exn Bool
  | [] => pure false
  | key :: rest => do
    let equal ← accessor.eq key
    if equal then pure true else findEqual accessor rest

/-- The new node goes next to an equal one if there is one. -/
def insert (buckets : Buckets hashFn β) (view : EventView hashFn β) (key : DataAccessor) (value : β) :
    Except Exn (EventView hashFn β) :=
  match hashed : key.hash hashFn with
  | .error e => .error e
  | .ok code => do
    let _ ← findEqual key (buckets.chain view code)
    pure (view ++ [⟨code, key, value, hashed⟩])

end EventView

namespace DataAccessor

def IsDeviceIdPattern (s : String) : Prop := ∃ p, DeviceIdPattern.ofString s = .ok p

/-- Arguments that differ, not both of which are patterns. -/
def ArgumentsClash (a b : DataAccessor) : Prop :=
  ∃ s t, a.acc.get? "arguments" = some (.string s) ∧ b.acc.get? "arguments" = some (.string t) ∧ s ≠ t ∧
    ¬ (IsDeviceIdPattern s ∧ IsDeviceIdPattern t)

/-- Keys whose comparison throws, which the hash leads to. -/
def Clash (hashFn : String → UInt64) (a b : DataAccessor) : Prop :=
  a.hash hashFn = b.hash hashFn ∧ ArgumentsClash a b

/-- An accessor as the schema has it, on a path that is a pattern. -/
structure IsKey (a : DataAccessor) : Prop where
  form : ∃ form, IsForm a.acc form
  path : ∀ object, a.acc.get? "object" = some (.string object) → IsDeviceIdPattern object

/-! ### When two keys can be compared -/

theorem patternsMatch_ok_iff {s t : String} :
    (∃ r, patternsMatch s t = .ok r) ↔ s = t ∨ (IsDeviceIdPattern s ∧ IsDeviceIdPattern t) := by
  constructor
  · rintro ⟨r, run⟩
    by_cases same : s = t
    · exact Or.inl same
    · unfold patternsMatch at run
      rw [if_pos same] at run
      obtain ⟨p, left, run⟩ := bind_ok run
      obtain ⟨q, right, _⟩ := bind_ok run
      exact Or.inr ⟨⟨p, left⟩, ⟨q, right⟩⟩
  · rintro (rfl | ⟨left, right⟩)
    · exact ⟨true, by simp [patternsMatch, pure, Except.pure]⟩
    · obtain ⟨r, run, _⟩ := patternsMatch_ok left right
      exact ⟨r, run⟩

theorem form_type_injective {form form' : Form} (same : form.type = form'.type) : form = form' := by
  cases form <;> cases form' <;> first | rfl | exact absurd same (by decide)

variable {a b : DataAccessor} {form : Form}

theorem known_key (shape : IsForm a.acc form) {key : String} {value : Json} (read : a.acc.get? key = some value)
    (kept : isSkipped key = false) : key ∈ "type" :: form.texts := by
  have known := (shape.shape.known _ (Json.mem_items_of_get? read) kept).1
  rwa [List.append_nil] at known

theorem form_of_arguments (shape : IsForm a.acc form) {value : Json} (read : a.acc.get? "arguments" = some value) :
    form = .cmdline := by
  have known := known_key shape read rfl
  cases form with
  | cmdline => rfl
  | dbus => exact absurd known (by decide)
  | deviceCoreApi => exact absurd known (by decide)
  | direct => exact absurd known (by decide)

theorem text_of_form (shape : IsForm a.acc form) {key : String} (known : key ∈ "type" :: form.texts)
    (kept : isSkipped key = false) : ∃ s, a.acc.get? key = some (.string s) := by
  rcases List.mem_cons.mp known with rfl | required
  · exact ⟨_, shape.shape.typed⟩
  · exact shape.shape.required_text required kept

theorem patternTexts_of_form {key s t : String} (pattern : key = "object" ∨ key = "arguments")
    (known : key ∈ "type" :: form.texts) (own : a.acc.get? key = some (.string s))
    (other : b.acc.get? key = some (.string t)) : patternTexts form.type a b = .ok (s, t) := by
  have texts : ∀ {key}, a.acc.get? key = some (.string s) → b.acc.get? key = some (.string t) →
      (do let s ← a.textAt key; let t ← b.textAt key; pure (s, t) : Except Exn (String × String)) = .ok (s, t) :=
    fun own other => bind_ok_iff.mpr ⟨s, textAt_ok_iff.mpr own, bind_ok_iff.mpr ⟨t, textAt_ok_iff.mpr other, rfl⟩⟩
  rcases pattern with rfl | rfl
  · cases form with
    | dbus => exact texts own other
    | cmdline => exact absurd known (by decide)
    | deviceCoreApi => exact absurd known (by decide)
    | direct => exact absurd known (by decide)
  · cases form with
    | cmdline => exact texts own other
    | dbus => exact absurd known (by decide)
    | deviceCoreApi => exact absurd known (by decide)
    | direct => exact absurd known (by decide)

theorem eqFrom_total (left : IsForm a.acc form) (right : IsForm b.acc form)
    (comparable : ∀ key s t, key = "object" ∨ key = "arguments" → a.acc.get? key = some (.string s) →
      b.acc.get? key = some (.string t) → ∃ r, patternsMatch s t = .ok r)
    {members : List (String × Json)} (sub : ∀ entry ∈ members, entry ∈ a.acc.items) :
    ∃ r, eqFrom form.type a b members = .ok r := by
  induction members with
  | nil => exact ⟨true, rfl⟩
  | cons entry rest ih =>
    obtain ⟨key, val⟩ := entry
    obtain ⟨r, later⟩ := ih fun entry member => sub entry (List.mem_cons_of_mem _ member)
    unfold eqFrom
    by_cases skipped : isSkipped key = true
    · exact ⟨r, by rw [if_pos skipped]; exact later⟩
    · rw [if_neg skipped]
      have kept : isSkipped key = false := eq_false_of_ne_true skipped
      have own := left.shape.get?_of_mem (sub _ List.mem_cons_self)
      have known := known_key left own kept
      obtain ⟨s, rfl⟩ := left.shape.text kept own
      obtain ⟨t, other⟩ := text_of_form right known kept
      rw [if_neg (by simp [Json.contains, other])]
      by_cases pattern : key = "object" ∨ key = "arguments"
      · rw [if_pos pattern, patternTexts_of_form pattern known own other]
        obtain ⟨matched, run⟩ := comparable key s t pattern own other
        simp only [bind, Except.bind, run]
        cases matched with
        | true => exact ⟨r, later⟩
        | false => exact ⟨false, rfl⟩
      · rw [if_neg pattern, textAt_ok_iff.mpr other]
        simp only [bind, Except.bind, Json.getString]
        by_cases different : t ≠ s
        · exact ⟨false, by rw [if_pos different]; rfl⟩
        · exact ⟨r, by rw [if_neg different]; exact later⟩

/-- The arguments come before all else that is compared. -/
theorem eqFrom_arguments {s t : String} (own : a.acc.get? "arguments" = some (.string s))
    (other : b.acc.get? "arguments" = some (.string t)) {members : List (String × Json)}
    (inOrder : (members.map (·.1)).Pairwise (· < ·)) (inside : ("arguments", .string s) ∈ members)
    (known : ∀ entry ∈ members, isSkipped entry.1 = false → entry.1 ∈ "type" :: Form.cmdline.texts) {r : Bool}
    (compared : eqFrom "CMDLINE" a b members = .ok r) : ∃ r, patternsMatch s t = .ok r := by
  induction members with
  | nil => cases inside
  | cons entry rest ih =>
    obtain ⟨key, val⟩ := entry
    unfold eqFrom at compared
    rw [List.map_cons, List.pairwise_cons] at inOrder
    by_cases skipped : isSkipped key = true
    · rw [if_pos skipped] at compared
      have later : ("arguments", Json.string s) ∈ rest := by
        rcases List.mem_cons.mp inside with here | later
        · obtain ⟨rfl, _⟩ := Prod.mk.inj here
          cases skipped
        · exact later
      exact ih inOrder.2 later (fun entry member => known entry (List.mem_cons_of_mem _ member)) compared
    · rw [if_neg skipped] at compared
      have first : key = "arguments" := by
        rcases List.mem_cons.mp inside with here | later
        · exact (Prod.mk.inj here).1.symm
        · have before : key < "arguments" := inOrder.1 "arguments" (List.mem_map_of_mem later)
          have among := known (key, val) List.mem_cons_self (eq_false_of_ne_true skipped)
          simp only [Form.texts, List.mem_cons, List.not_mem_nil, or_false] at among
          rcases among with rfl | rfl | rfl
          · exact absurd before (by decide)
          · exact absurd before (by decide)
          · rfl
      subst first
      rw [if_neg (by simp [Json.contains, other]), if_pos (Or.inr rfl)] at compared
      obtain ⟨⟨s', t'⟩, texts, compared⟩ := bind_ok compared
      have same : patternTexts Form.cmdline.type a b = .ok (s, t) :=
        patternTexts_of_form (Or.inr rfl) (by decide) own other
      cases same.symm.trans texts
      obtain ⟨matched, run, _⟩ := bind_ok compared
      exact ⟨matched, run⟩

theorem eq_ok_iff_arguments (left : IsKey a) (right : IsKey b) : (∃ r, a.eq b = .ok r) ↔ ¬ ArgumentsClash a b := by
  obtain ⟨form, shape⟩ := left.form
  obtain ⟨form', shape'⟩ := right.form
  have unfolded : a.eq b = if form.type = form'.type then eqFrom form.type a b a.acc.items else pure false := by
    rw [DataAccessor.eq, shape.shape.typed, shape'.shape.typed]
    simp only [Json.beq_string, beq_iff_eq]
    rfl
  rw [unfolded]
  constructor
  · rintro ⟨r, compared⟩ ⟨s, t, own, other, different, malformed⟩
    obtain rfl := form_of_arguments shape own
    obtain rfl := form_of_arguments shape' other
    rw [if_pos rfl] at compared
    have known : ∀ entry ∈ a.acc.items, isSkipped entry.1 = false → entry.1 ∈ "type" :: Form.cmdline.texts := by
      intro entry member kept
      have known := (shape.shape.known entry member kept).1
      rwa [List.append_nil] at known
    have run := eqFrom_arguments own other shape.inOrder (Json.mem_items_of_get? own) known compared
    rcases patternsMatch_ok_iff.mp run with same | both
    · exact different same
    · exact malformed both
  · intro clear
    by_cases same : form.type = form'.type
    · obtain rfl := form_type_injective same
      rw [if_pos rfl]
      refine eqFrom_total shape shape' (fun key s t pattern own other => ?_) fun _ member => member
      apply patternsMatch_ok_iff.mpr
      rcases pattern with rfl | rfl
      · exact Or.inr ⟨left.path s own, right.path t other⟩
      · by_contra neither
        push Not at neither
        exact clear ⟨s, t, own, other, neither.1, fun both => neither.2 both.1 both.2⟩
    · exact ⟨false, if_neg same⟩

/-- A key that clashes with another one does so with every key that the other one equals. -/
theorem clash_of_equal {c : DataAccessor} (left : IsKey a) (right : IsKey b) (equal : a.eq b = .ok true)
    (clear : ¬ ArgumentsClash a b) (clash : ArgumentsClash a c) : ArgumentsClash b c := by
  obtain ⟨s, u, own, last, different, malformed⟩ := clash
  obtain ⟨form, shape⟩ := left.form
  obtain ⟨form', shape'⟩ := right.form
  obtain rfl := form_of_arguments shape own
  have sameType : form'.type = Form.cmdline.type := by
    obtain ⟨type, mine, others⟩ := eq_sameText equal shape.shape.typed rfl (by decide)
    rw [shape.shape.typed] at mine
    rw [shape'.shape.typed] at others
    simpa using others.trans mine.symm
  obtain rfl := form_type_injective sameType
  obtain ⟨t, other⟩ := text_of_form shape' (show "arguments" ∈ "type" :: Form.cmdline.texts by decide) rfl
  by_cases same : s = t
  · exact ⟨t, u, other, last, same ▸ different, same ▸ malformed⟩
  · have both : IsDeviceIdPattern s ∧ IsDeviceIdPattern t := by
      by_contra neither
      exact clear ⟨s, t, own, other, same, neither⟩
    have bad : ¬ IsDeviceIdPattern u := fun good => malformed ⟨both.1, good⟩
    refine ⟨t, u, other, last, ?_, fun accepted => bad accepted.2⟩
    rintro rfl
    exact bad both.2

theorem argumentsClash_symm (clash : ArgumentsClash a b) : ArgumentsClash b a := by
  obtain ⟨s, t, own, other, different, malformed⟩ := clash
  exact ⟨t, s, other, own, different.symm, fun both => malformed both.symm⟩

theorem hash_total (hashFn : String → UInt64) (shape : IsForm a.acc form) : ∃ code, a.hash hashFn = .ok code := by
  have text : ∀ key ∈ form.texts, isSkipped key = false → ∃ s, a.acc.get? key = some (.string s) :=
    fun key member kept => text_of_form shape (List.mem_cons_of_mem _ member) kept
  obtain ⟨key, read⟩ : ∃ key, a.hashKey = .ok key := by
    cases form with
    | dbus =>
      obtain ⟨interface, readInterface⟩ := text "interface" (by decide) rfl
      obtain ⟨property, readProperty⟩ := text "property" (by decide) rfl
      exact ⟨_, hashKey_dbus shape.shape readInterface readProperty⟩
    | deviceCoreApi =>
      obtain ⟨property, readProperty⟩ := text "property" (by decide) rfl
      exact ⟨_, hashKey_deviceCoreApi shape.shape.typed readProperty⟩
    | cmdline =>
      obtain ⟨executable, readExecutable⟩ := text "executable" (by decide) rfl
      exact ⟨_, hashKey_cmdline shape.shape.typed readExecutable⟩
    | direct => exact ⟨_, hashKey_direct shape.shape.typed⟩
  exact ⟨hashFn key, by rw [hash, read]; rfl⟩

end DataAccessor

namespace EventView
open DataAccessor

variable {hashFn : String → UInt64} {β : Type}

theorem findEqual_ok_iff {accessor : DataAccessor} (new : IsKey accessor) {chain : List DataAccessor}
    (known : ∀ key ∈ chain, IsKey key) (clear : chain.Pairwise fun a b => ¬ ArgumentsClash a b) :
    (∃ r, findEqual accessor chain = .ok r) ↔ ∀ key ∈ chain, ¬ ArgumentsClash accessor key := by
  induction chain with
  | nil => exact iff_of_true ⟨false, rfl⟩ (by simp)
  | cons key rest ih =>
    rw [List.pairwise_cons] at clear
    have isKey := known key List.mem_cons_self
    have later := ih (fun other member => known other (List.mem_cons_of_mem _ member)) clear.2
    rw [List.forall_mem_cons, ← eq_ok_iff_arguments new isKey, ← later]
    constructor
    · rintro ⟨r, found⟩
      obtain ⟨equal, compared, found⟩ := bind_ok found
      refine ⟨⟨equal, compared⟩, ?_⟩
      cases equal with
      | false => exact ⟨r, found⟩
      | true =>
        -- the search ended here, so nothing more was compared
        apply later.mpr
        intro other member clash
        have apart := (eq_ok_iff_arguments new isKey).mp ⟨true, compared⟩
        exact clear.1 other member (clash_of_equal new isKey compared apart clash)
    · rintro ⟨⟨equal, compared⟩, r, found⟩
      cases equal with
      | true => exact ⟨true, bind_ok_iff.mpr ⟨true, compared, rfl⟩⟩
      | false => exact ⟨r, bind_ok_iff.mpr ⟨false, compared, found⟩⟩

theorem mem_keysWith {view : EventView hashFn β} {code : UInt64} {key : DataAccessor} :
    key ∈ view.keysWith code ↔ key ∈ view.keys ∧ key.hash hashFn = .ok code := by
  simp only [keysWith, keys, List.mem_map, List.mem_filter, decide_eq_true_eq]
  constructor
  · rintro ⟨entry, ⟨inside, rfl⟩, rfl⟩
    exact ⟨⟨entry, inside, rfl⟩, entry.hashed⟩
  · rintro ⟨⟨entry, inside, rfl⟩, hashed⟩
    exact ⟨entry, ⟨inside, Except.ok.inj (entry.hashed.symm.trans hashed)⟩, rfl⟩

theorem insert_keys {buckets : Buckets hashFn β} {view view' : EventView hashFn β} {key : DataAccessor} {value : β}
    (inserted : insert buckets view key value = .ok view') : view'.keys = view.keys ++ [key] := by
  unfold insert at inserted
  split at inserted
  · cases inserted
  · obtain ⟨_, _, inserted⟩ := bind_ok inserted
    rw [← pure_ok_iff.mp inserted, keys, List.map_append]
    rfl

theorem insert_ok_iff (buckets : Buckets hashFn β) {view : EventView hashFn β} {key : DataAccessor} (value : β)
    (new : IsKey key) (known : ∀ other ∈ view.keys, IsKey other)
    (clear : view.keys.Pairwise fun a b => ¬ Clash hashFn a b) :
    (∃ view', insert buckets view key value = .ok view') ↔ ∀ other ∈ view.keys, ¬ Clash hashFn key other := by
  obtain ⟨form, shape⟩ := new.form
  obtain ⟨code, hashed⟩ := hash_total hashFn shape
  have perm := buckets.complete view code
  have knownChain : ∀ other ∈ buckets.chain view code, IsKey other :=
    fun other member => known other (mem_keysWith.mp (perm.mem_iff.mp member)).1
  have clearChain : (buckets.chain view code).Pairwise fun a b => ¬ ArgumentsClash a b := by
    rw [perm.pairwise_iff fun apart clash => apart (argumentsClash_symm clash)]
    have sub : (view.keysWith code).Sublist view.keys := List.Sublist.map _ List.filter_sublist
    refine (clear.sublist sub).imp_of_mem fun left right apart clash => ?_
    exact apart ⟨(mem_keysWith.mp left).2.trans (mem_keysWith.mp right).2.symm, clash⟩
  have search : (∃ view', insert buckets view key value = .ok view') ↔
      ∃ r, findEqual key (buckets.chain view code) = .ok r := by
    unfold insert
    split
    · rename_i e thrown
      rw [hashed] at thrown
      cases thrown
    · rename_i code' same
      obtain rfl := Except.ok.inj (hashed.symm.trans same)
      constructor
      · rintro ⟨view', inserted⟩
        obtain ⟨r, found, _⟩ := bind_ok inserted
        exact ⟨r, found⟩
      · rintro ⟨r, found⟩
        exact ⟨_, bind_ok_iff.mpr ⟨r, found, rfl⟩⟩
  rw [search, findEqual_ok_iff new knownChain clearChain]
  constructor
  · rintro apart other member ⟨sameHash, clash⟩
    exact apart other (perm.mem_iff.mpr (mem_keysWith.mpr ⟨member, sameHash.symm.trans hashed⟩)) clash
  · intro apart other member clash
    obtain ⟨inside, sameHash⟩ := mem_keysWith.mp (perm.mem_iff.mp member)
    exact apart other inside ⟨hashed.trans sameHash.symm, clash⟩

end EventView

end MonitorEventing.Accessor
