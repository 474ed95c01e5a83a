import MonitorEventing.Basic

/-!
# Index tuples

`PatternIndex`, the argument of a device id pattern: a tuple of non-negative indexes in which any
position may be left unspecified. A tuple is kept normalized, so two tuples are equal exactly when
they agree at every position.
-/

namespace MonitorEventing.DeviceId

/-- Nothing below the unspecified marker, and no marker at the end. -/
def Normal (indexes : List Int) : Prop :=
  (∀ v ∈ indexes, -1 ≤ v) ∧ ∀ v, indexes.getLast? = some v → 0 ≤ v

structure PatternIndex where
  indexes : List Int
  normal : Normal indexes
  deriving DecidableEq

namespace PatternIndex

def unspecified : Int := -1

/-- A negative index of any size means unspecified. -/
def clip (v : Int) : Int := if 0 ≤ v then v else unspecified

def normalize (indexes : List Int) : List Int :=
  (indexes.rdropWhile fun v => decide (v < 0)).map fun v => if v < 0 then unspecified else v

theorem normalize_normal (indexes : List Int) : Normal (normalize indexes) := by
  refine ⟨?_, ?_⟩
  · intro v member
    obtain ⟨w, _, rfl⟩ := List.mem_map.mp member
    simp only [unspecified]
    split <;> omega
  · intro v last
    rw [normalize, List.getLast?_map] at last
    obtain ⟨w, lastKept, rfl⟩ := Option.map_eq_some_iff.mp last
    obtain ⟨nonempty, rfl⟩ := List.mem_getLast?_eq_getLast lastKept
    have kept := List.rdropWhile_last_not (fun v : Int => decide (v < 0)) indexes nonempty
    simp only [decide_eq_true_eq] at kept
    rw [if_neg kept]
    omega

/-- `PatternIndex()`, and `PatternIndex(arg0, args...)` for a non-empty list. -/
def ofList (indexes : List Int) : PatternIndex := ⟨normalize indexes, normalize_normal indexes⟩

def dim (pi : PatternIndex) : Nat := pi.indexes.length

def get (pi : PatternIndex) (i : Nat) : Int := pi.indexes.getD i unspecified

theorem normal_resize {indexes : List Int} (normal : Normal indexes) {i : Nat} {v : Int}
    (positive : 0 ≤ v) :
    Normal (indexes ++ List.replicate (i - indexes.length) unspecified ++ [v]) := by
  refine ⟨?_, ?_⟩
  · intro w member
    rcases List.mem_append.mp member with member | member
    · rcases List.mem_append.mp member with member | member
      · exact normal.1 w member
      · rw [List.eq_of_mem_replicate member]
        exact Int.le_refl _
    · rw [List.mem_singleton.mp member]
      omega
  · intro w last
    rw [List.getLast?_concat] at last
    obtain rfl := Option.some.inj last
    exact positive

/-- `PatternIndex::set`. Resizing to `i + 1` and writing the last place is appending the gap and
the value. -/
def set (pi : PatternIndex) (i : Nat) (value : Int) : PatternIndex :=
  if pi.indexes.length ≤ i then
    if given : 0 ≤ value then
      ⟨pi.indexes ++ List.replicate (i - pi.indexes.length) unspecified ++ [value],
        normal_resize pi.normal given⟩
    else pi
  else ofList (pi.indexes.set i (clip value))

def printValue (value : Int) : String := if value = unspecified then "_" else toString value

/-- `operator<<`: "(1, _, 5)". -/
def print (pi : PatternIndex) : String := "(" ++ ", ".intercalate (pi.indexes.map printValue) ++ ")"

/-- The loop of `operator<` from position `i`, with `n` positions to go. -/
def ltFrom (a b : PatternIndex) : Nat → Nat → Bool
  | 0, _ => false
  | n + 1, i =>
    if a.get i < b.get i then true
    else if a.get i > b.get i then false
    else ltFrom a b n (i + 1)

def lt (a b : PatternIndex) : Bool := ltFrom a b (max a.dim b.dim) 0

instance : LT PatternIndex where
  lt a b := lt a b = true

instance (a b : PatternIndex) : Decidable (a < b) := inferInstanceAs (Decidable (lt a b = true))

/-! ### What a position holds -/

theorem get_beyond {pi : PatternIndex} {i : Nat} (beyond : pi.dim ≤ i) : pi.get i = unspecified :=
  List.getD_eq_default _ _ beyond

theorem get_ge (pi : PatternIndex) (i : Nat) : -1 ≤ pi.get i := by
  rcases Nat.lt_or_ge i pi.dim with inside | beyond
  · rw [get, List.getD_eq_getElem _ _ inside]
    exact pi.normal.1 _ (List.getElem_mem inside)
  · rw [get_beyond beyond]
    exact Int.le_refl _

theorem clip_get (pi : PatternIndex) (i : Nat) : clip (pi.get i) = pi.get i := by
  have := pi.get_ge i
  unfold clip unspecified
  split <;> omega

theorem get_ofList (indexes : List Int) (i : Nat) :
    (ofList indexes).get i = clip (indexes.getD i unspecified) := by
  simp only [ofList, get, normalize]
  induction indexes using List.reverseRecOn with
  | nil => rfl
  | append_singleton l v ih =>
    rw [List.rdropWhile_concat]
    split
    · rename_i negative
      rw [ih]
      -- a dropped place reads as unspecified, which is what clipping makes of it
      rcases Nat.lt_trichotomy i l.length with inside | rfl | beyond
      · rw [List.getD_append _ _ _ _ inside]
      · simp only [decide_eq_true_eq] at negative
        have dropped : ¬ 0 ≤ v := by omega
        simp [clip, unspecified, dropped]
      · rw [List.getD_eq_default _ _ beyond.le, List.getD_eq_default _ _ (by simpa using beyond)]
    · rcases Nat.lt_or_ge i (l ++ [v]).length with inside | beyond
      · rw [List.getD_eq_getElem _ _ (by simpa using inside), List.getD_eq_getElem _ _ inside, List.getElem_map]
        unfold clip
        split <;> split <;> omega
      · rw [List.getD_eq_default _ _ (by simpa using beyond), List.getD_eq_default _ _ beyond]
        rfl

theorem get_set (pi : PatternIndex) (i j : Nat) (value : Int) :
    (pi.set i value).get j = if j = i then clip value else pi.get j := by
  unfold set
  split
  · rename_i short
    split
    · rename_i given
      simp only [get, clip, given, if_true]
      rcases Nat.lt_or_ge j pi.indexes.length with inside | beyond
      · rw [List.append_assoc, List.getD_append _ _ _ _ inside, if_neg (by omega)]
      · rw [List.append_assoc, List.getD_append_right _ _ _ _ beyond]
        rw [List.getD_eq_default pi.indexes _ beyond]
        simp only [List.getD_eq_getElem?_getD, List.getElem?_append, List.getElem?_replicate, List.length_replicate]
        split
        · rw [if_neg (by omega)]
          rfl
        · split
          · simp_all
          · rw [List.getElem?_eq_none (by simp; omega)]
            rfl
    · rename_i given
      split
      · rename_i same
        subst same
        rw [get_beyond short]
        simp [clip, given]
      · rfl
  · rename_i inside
    rw [get_ofList]
    simp only [List.getD_eq_getElem?_getD, List.getElem?_set]
    split
    · rename_i same
      subst same
      simp only [if_pos (Nat.lt_of_not_le inside), Option.getD_some, if_true]
      unfold clip unspecified
      split <;> simp_all
    · rename_i other
      rw [if_neg (Ne.symm other), ← List.getD_eq_getElem?_getD]
      exact clip_get pi j

theorem get_last {pi : PatternIndex} (positive : 0 < pi.dim) : 0 ≤ pi.get (pi.dim - 1) := by
  have nonempty : pi.indexes ≠ [] := List.ne_nil_of_length_pos positive
  refine pi.normal.2 _ ?_
  rw [get, List.getD_eq_getElem _ _ (by unfold dim at *; omega), List.getLast?_eq_getElem?]
  exact List.getElem?_eq_getElem _

theorem dim_le_iff {pi : PatternIndex} {n : Nat} : pi.dim ≤ n ↔ ∀ i, n ≤ i → pi.get i = unspecified := by
  refine ⟨fun bound i hi => get_beyond (bound.trans hi), fun blank => ?_⟩
  by_contra longer
  have last : 0 ≤ pi.get (pi.dim - 1) := get_last (by omega)
  rw [blank _ (by omega)] at last
  exact absurd last (by decide)

@[ext] theorem ext {a b : PatternIndex} (same : ∀ i, a.get i = b.get i) : a = b := by
  have shorter : ∀ {a b : PatternIndex}, (∀ i, a.get i = b.get i) → a.dim ≤ b.dim := fun same =>
    dim_le_iff.mpr fun i hi => (same i).trans (get_beyond hi)
  have dims : a.dim = b.dim := (shorter same).antisymm (shorter fun i => (same i).symm)
  obtain ⟨xs, _⟩ := a
  obtain ⟨ys, _⟩ := b
  simp only [mk.injEq]
  refine List.ext_getElem dims fun i hx hy => ?_
  simpa only [get, List.getD_eq_getElem _ _ hx, List.getD_eq_getElem _ _ hy] using same i

/-! ### The order -/

theorem ltFrom_iff (a b : PatternIndex) (n i : Nat) :
    ltFrom a b n i = true ↔ ∃ p, i ≤ p ∧ p < i + n ∧ (∀ q, i ≤ q → q < p → a.get q = b.get q) ∧ a.get p < b.get p := by
  induction n generalizing i with
  | zero => simpa [ltFrom] using fun p hi hp => absurd hp (by omega)
  | succ n ih =>
    rw [ltFrom]
    split
    · rename_i less
      exact iff_of_true rfl ⟨i, by omega, by omega, fun q _ _ => by omega, less⟩
    · rename_i notLess
      split
      · rename_i greater
        refine iff_of_false (by simp) ?_
        rintro ⟨p, hi, _, agree, less⟩
        rcases Nat.eq_or_lt_of_le hi with rfl | later
        · exact notLess less
        · exact absurd (agree i (by omega) later) (by omega)
      · rename_i notGreater
        have equal : a.get i = b.get i := by omega
        rw [ih]
        constructor
        · rintro ⟨p, hi, hp, agree, less⟩
          refine ⟨p, by omega, by omega, ?_, less⟩
          intro q hq hqp
          rcases Nat.eq_or_lt_of_le hq with rfl | later
          · exact equal
          · exact agree q later hqp
        · rintro ⟨p, hi, hp, agree, less⟩
          have later : i ≠ p := by rintro rfl; exact notLess less
          exact ⟨p, by omega, by omega, fun q hq hqp => agree q (by omega) hqp, less⟩

/-- `operator<` compares at the first position where the tuples differ. -/
theorem lt_iff {a b : PatternIndex} :
    a < b ↔ ∃ p, (∀ q < p, a.get q = b.get q) ∧ a.get p < b.get p := by
  refine (ltFrom_iff a b _ 0).trans ?_
  constructor
  · rintro ⟨p, _, _, agree, less⟩
    exact ⟨p, fun q hq => agree q (Nat.zero_le q) hq, less⟩
  · rintro ⟨p, agree, less⟩
    refine ⟨p, Nat.zero_le p, ?_, fun q _ hq => agree q hq, less⟩
    by_contra beyond
    rw [get_beyond (by omega), get_beyond (by omega)] at less
    exact absurd less (by omega)

/-- That is the lexicographic order of what the positions hold. -/
theorem lt_iff_toLex {a b : PatternIndex} : a < b ↔ toLex a.get < toLex b.get := lt_iff

theorem lt_irrefl (a : PatternIndex) : ¬ a < a := by
  rw [lt_iff]
  rintro ⟨p, _, less⟩
  omega

end PatternIndex

end MonitorEventing.DeviceId
