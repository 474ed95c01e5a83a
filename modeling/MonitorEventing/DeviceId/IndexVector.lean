import MonitorEventing.DeviceId.Injective

/-!
# The vector of an index tuple

`PatternIndex` as the code stores it, a `std::vector<int>` whose positions are counted by an `unsigned`. Every
construction and every `set` leaves the normal form of a tuple, except that growing to the last position there
is wraps around.
-/

namespace MonitorEventing.DeviceId.IndexVector
open PatternIndex (unspecified normalize)

/-- `std::vector::resize`. -/
def resize (indexes : List Int) (count : Nat) : List Int :=
  indexes.take count ++ List.replicate (count - indexes.length) unspecified

/-- `indexes[i] = value`. -/
def assign (indexes : List Int) (i : Nat) (value : Int) : Except Exn (List Int) :=
  if i < indexes.length then .ok (indexes.set i value) else .error .undefined

def set (indexes : List Int) (i : UInt32) (value : Int) : Except Exn (List Int) :=
  let actualValue := if value ≥ 0 then value else unspecified
  if indexes.length ≤ i.toNat then
    if actualValue ≠ unspecified then assign (resize indexes (i + 1).toNat) i.toNat actualValue
    else pure indexes
  else do
    let indexes ← assign indexes i.toNat actualValue
    pure (normalize indexes)

/-- `PatternIndex()` and `PatternIndex(arg0, args...)`. The arguments behind the first are of any integer
types; a call has fewer than 2^32 of them. -/
inductive Construction where
  | empty
  | given (arg0 : Int) (args : List Int) (few : args.length + 1 < 2 ^ 32)

/-- `static_cast<int>`. -/
def toInt (value : Int) : Int := (value + 2 ^ 31) % 2 ^ 32 - 2 ^ 31

def Construction.arguments : Construction → List Int
  | empty => []
  | given arg0 args _ => arg0 :: args.map fun arg => toInt (if arg ≥ 0 then arg else unspecified)

def Construction.indexes : Construction → List Int
  | empty => []
  | given arg0 args few => normalize (given arg0 args few).arguments

/-- A construction and the calls of `set` on what it makes. -/
def run (start : Construction) (calls : List (UInt32 × Int)) : Except Exn (List Int) :=
  calls.foldlM (fun indexes call => set indexes call.1 call.2) start.indexes

def dim (indexes : List Int) : Nat := indexes.length % 2 ^ 32

/-- `operator[]`. -/
def get (indexes : List Int) (i : Nat) : Int := indexes.getD i unspecified

/-- `operator==`, whose first look at the addresses changes nothing. -/
def equal (a b : List Int) : Bool := a == b

/-- The loop of `operator<` from position `i`, with `n` positions to go. -/
def ltFrom (a b : List Int) : Nat → Nat → Bool
  | 0, _ => false
  | n + 1, i =>
    if get a i < get b i then true
    else if get a i > get b i then false
    else ltFrom a b n (i + 1)

/-- `operator<`. -/
def lt (a b : List Int) : Bool := ltFrom a b (max (dim a) (dim b)) 0

/-! ### One call -/

/-- A position after which there is another one, or nothing to write. -/
def Fits (call : UInt32 × Int) : Prop := call.1 = 4294967295 → call.2 < 0

instance (call : UInt32 × Int) : Decidable (Fits call) :=
  inferInstanceAs (Decidable (call.1 = 4294967295 → call.2 < 0))

theorem toNat_add_one {i : UInt32} (inside : i ≠ 4294967295) : (i + 1).toNat = i.toNat + 1 := by
  have bounded := i.toNat_lt
  have other : i.toNat ≠ 4294967295 := fun same => inside (UInt32.toNat_inj.mp same)
  rw [UInt32.toNat_add, UInt32.toNat_one]
  omega

theorem assign_resize {indexes : List Int} {i : Nat} (short : indexes.length ≤ i) (value : Int) :
    assign (resize indexes (i + 1)) i value =
      .ok (indexes ++ List.replicate (i - indexes.length) unspecified ++ [value]) := by
  have grown : resize indexes (i + 1) = (indexes ++ List.replicate (i - indexes.length) unspecified) ++ [unspecified] := by
    have gap : i + 1 - indexes.length = i - indexes.length + 1 := by omega
    rw [resize, List.take_of_length_le (by omega), gap, List.replicate_succ', List.append_assoc]
  have length : (indexes ++ List.replicate (i - indexes.length) unspecified).length = i := by
    rw [List.length_append, List.length_replicate]
    omega
  rw [assign, grown, if_pos (by rw [List.length_append, length, List.length_singleton]; omega)]
  rw [List.set_append_right _ _ (by omega), length, Nat.sub_self]
  rfl

theorem clip_ne_iff (value : Int) : PatternIndex.clip value ≠ unspecified ↔ 0 ≤ value := by
  unfold PatternIndex.clip unspecified
  split <;> omega

theorem set_clip (indexes : List Int) (i : UInt32) (value : Int) : set indexes i value =
    if indexes.length ≤ i.toNat then
      if 0 ≤ value then assign (resize indexes (i + 1).toNat) i.toNat (PatternIndex.clip value) else .ok indexes
    else .ok (normalize (indexes.set i.toNat (PatternIndex.clip value))) := by
  have clipped : (if value ≥ 0 then value else unspecified) = PatternIndex.clip value := rfl
  unfold set
  simp only [clipped, clip_ne_iff]
  by_cases short : indexes.length ≤ i.toNat
  · rw [if_pos short, if_pos short]
    rfl
  · rw [if_neg short, if_neg short, assign, if_pos (by omega)]
    rfl

theorem set_last {indexes : List Int} {value : Int} (small : indexes.length < 2 ^ 32) (given : 0 ≤ value) :
    set indexes 4294967295 value = .error .undefined := by
  have wrapped : resize indexes ((4294967295 : UInt32) + 1).toNat = [] := by
    rw [show ((4294967295 : UInt32) + 1).toNat = 0 by decide, resize, List.take_zero, Nat.zero_sub, List.replicate_zero]
    rfl
  have beyond : indexes.length ≤ (4294967295 : UInt32).toNat := Nat.le_of_lt_succ small
  rw [set_clip, if_pos beyond, if_pos given, wrapped, assign, List.length_nil, if_neg (Nat.not_lt_zero _)]

/-- A call of `set` is the one on tuples, where it fits. -/
theorem set_eq {pi : PatternIndex} (small : pi.dim < 2 ^ 32) (call : UInt32 × Int) :
    set pi.indexes call.1 call.2 =
      if Fits call then .ok (pi.set call.1.toNat call.2).indexes else .error .undefined := by
  obtain ⟨i, value⟩ := call
  by_cases fits : Fits (i, value)
  · rw [if_pos fits, set_clip, PatternIndex.set]
    by_cases short : pi.indexes.length ≤ i.toNat
    · rw [if_pos short, if_pos short]
      by_cases given : 0 ≤ value
      · have inside : i ≠ 4294967295 := fun last => absurd (fits last) (by omega)
        rw [if_pos given, dif_pos given, toNat_add_one inside, assign_resize short, PatternIndex.clip, if_pos given]
      · rw [if_neg given, dif_neg given]
    · rw [if_neg short, if_neg short]
      rfl
  · rw [if_neg fits]
    unfold Fits at fits
    obtain ⟨last, given⟩ := Classical.not_imp.mp fits
    dsimp only at last given ⊢
    rw [last, set_last small (by omega)]

/-! ### A run -/

theorem dim_set (pi : PatternIndex) (i : Nat) (value : Int) : (pi.set i value).dim ≤ max pi.dim (i + 1) := by
  rw [PatternIndex.dim_le_iff]
  intro j beyond
  rw [PatternIndex.get_set, if_neg (by omega), PatternIndex.get_beyond (by omega)]

theorem dim_set_small {pi : PatternIndex} (small : pi.dim < 2 ^ 32) {call : UInt32 × Int} (fits : Fits call) :
    (pi.set call.1.toNat call.2).dim < 2 ^ 32 := by
  obtain ⟨i, value⟩ := call
  show (pi.set i.toNat value).dim < 2 ^ 32
  by_cases given : 0 ≤ value
  · have inside : i ≠ 4294967295 := fun last => absurd (fits last) (by omega)
    have next := toNat_add_one inside
    have bounded := (i + 1).toNat_lt
    have grown := dim_set pi i.toNat value
    omega
  · -- nothing is written behind the last entry
    have kept : (pi.set i.toNat value).dim ≤ pi.dim := by
      rw [PatternIndex.dim_le_iff]
      intro j beyond
      rw [PatternIndex.get_set, PatternIndex.get_beyond beyond, PatternIndex.clip, if_neg given]
      exact ite_self unspecified
    exact kept.trans_lt small

/-- What a construction makes, as a tuple. -/
def Construction.value (start : Construction) : PatternIndex := .ofList start.arguments

theorem indexes_eq (start : Construction) : start.indexes = start.value.indexes := by
  cases start <;> rfl

theorem dim_value (start : Construction) : start.value.dim < 2 ^ 32 := by
  have few : start.arguments.length < 2 ^ 32 := by
    cases start with
    | empty => decide
    | given arg0 args few => simpa [Construction.arguments] using few
  refine lt_of_le_of_lt ?_ few
  rw [PatternIndex.dim_le_iff]
  intro i beyond
  rw [Construction.value, PatternIndex.get_ofList, List.getD_eq_default _ _ beyond]
  rfl

/-- The calls of a run, on tuples. -/
def after (pi : PatternIndex) (calls : List (UInt32 × Int)) : PatternIndex :=
  calls.foldl (fun pi call => pi.set call.1.toNat call.2) pi

theorem run_from {pi : PatternIndex} (small : pi.dim < 2 ^ 32) (calls : List (UInt32 × Int)) :
    calls.foldlM (fun indexes call => set indexes call.1 call.2) pi.indexes =
      if ∀ call ∈ calls, Fits call then .ok (after pi calls).indexes else .error .undefined := by
  induction calls generalizing pi with
  | nil => rw [if_pos (by simp)]; rfl
  | cons call calls ih =>
    rw [List.foldlM_cons, set_eq small]
    by_cases fits : Fits call
    · have rest := ih (dim_set_small small fits)
      simp only [List.forall_mem_cons, fits, true_and, if_true]
      exact rest
    · rw [if_neg fits, if_neg fun all => fits (all call List.mem_cons_self)]
      rfl

/-- A run is a run on tuples, if all of its calls fit, and otherwise writes where there is no entry. -/
theorem run_eq (start : Construction) (calls : List (UInt32 × Int)) : run start calls =
    if ∀ call ∈ calls, Fits call then .ok (after start.value calls).indexes else .error .undefined := by
  rw [run, indexes_eq, run_from (dim_value start)]

theorem dim_after {pi : PatternIndex} (small : pi.dim < 2 ^ 32) {calls : List (UInt32 × Int)}
    (fits : ∀ call ∈ calls, Fits call) : (after pi calls).dim < 2 ^ 32 := by
  induction calls generalizing pi with
  | nil => exact small
  | cons call calls ih =>
    obtain ⟨first, rest⟩ := List.forall_mem_cons.mp fits
    exact ih (dim_set_small small first) rest

/-! ### The order -/

theorem ltFrom_eq (a b : PatternIndex) (n i : Nat) : ltFrom a.indexes b.indexes n i = PatternIndex.ltFrom a b n i := by
  induction n generalizing i with
  | zero => rfl
  | succ n ih =>
    rw [ltFrom, PatternIndex.ltFrom, ih]
    rfl

theorem lt_eq_true_iff {a b : PatternIndex} (smallA : a.dim < 2 ^ 32) (smallB : b.dim < 2 ^ 32) :
    lt a.indexes b.indexes = true ↔ a < b := by
  have dimA : dim a.indexes = a.dim := Nat.mod_eq_of_lt smallA
  have dimB : dim b.indexes = b.dim := Nat.mod_eq_of_lt smallB
  rw [lt, dimA, dimB, ltFrom_eq]
  rfl

/-- The last entry is given, and what is not given is marked as the header says. -/
structure NormalForm (indexes : List Int) : Prop where
  last : ∀ v, indexes.getLast? = some v → 0 ≤ v
  marked : ∀ v ∈ indexes, v < 0 → v = unspecified

def Reached (indexes : List Int) : Prop := ∃ start calls, run start calls = .ok indexes

theorem Reached.tuple {indexes : List Int} (reached : Reached indexes) :
    ∃ pi : PatternIndex, pi.indexes = indexes ∧ pi.dim < 2 ^ 32 := by
  obtain ⟨start, calls, run⟩ := reached
  rw [run_eq] at run
  split at run
  · rename_i fits
    exact ⟨after start.value calls, Except.ok.inj run, dim_after (dim_value start) fits⟩
  · cases run

theorem Reached.normalForm {indexes : List Int} (reached : Reached indexes) : NormalForm indexes := by
  obtain ⟨pi, rfl, _⟩ := reached.tuple
  refine ⟨pi.normal.2, fun v member negative => ?_⟩
  have marked := pi.normal.1 v member
  unfold unspecified
  omega

theorem indexes_inj {a b : PatternIndex} : a.indexes = b.indexes ↔ a = b := by
  cases a
  cases b
  rw [PatternIndex.mk.injEq]

/-- How a value compares with the others there can be: `operator<` is a strict order, and neither is less
than the other exactly for equal values. -/
structure Ordered (a : List Int) : Prop where
  irrefl : lt a a = false
  trans : ∀ b c, Reached b → Reached c → lt a b = true → lt b c = true → lt a c = true
  total : ∀ b, Reached b → (lt a b = false ∧ lt b a = false ↔ equal a b = true)

theorem Reached.ordered {a : List Int} (reached : Reached a) : Ordered a := by
  obtain ⟨pi, rfl, small⟩ := reached.tuple
  refine ⟨?_, ?_, ?_⟩
  · rw [Bool.eq_false_iff, ne_eq, lt_eq_true_iff small small]
    exact PatternIndex.lt_irrefl pi
  · intro b c reachedB reachedC first second
    obtain ⟨pib, rfl, smallB⟩ := reachedB.tuple
    obtain ⟨pic, rfl, smallC⟩ := reachedC.tuple
    rw [lt_eq_true_iff small smallB] at first
    rw [lt_eq_true_iff smallB smallC] at second
    rw [lt_eq_true_iff small smallC]
    exact PatternIndex.lt_trans first second
  · intro b reachedB
    obtain ⟨pib, rfl, smallB⟩ := reachedB.tuple
    rw [Bool.eq_false_iff, Bool.eq_false_iff, ne_eq, ne_eq, lt_eq_true_iff small smallB, lt_eq_true_iff smallB small]
    rw [equal, beq_iff_eq, indexes_inj]
    constructor
    · intro neither
      exact PatternIndex.eq_of_not_lt neither.1 neither.2
    · rintro rfl
      exact ⟨PatternIndex.lt_irrefl pi, PatternIndex.lt_irrefl pi⟩

/-- A run ends in a normal form exactly if no call writes a given value at the last position there is. -/
theorem run_ordered_iff (start : Construction) (calls : List (UInt32 × Int)) :
    (∃ indexes, run start calls = .ok indexes ∧ NormalForm indexes ∧ Ordered indexes) ↔
      ∀ call ∈ calls, Fits call := by
  constructor
  · intro found
    obtain ⟨indexes, ran, _⟩ := found
    by_contra unfit
    rw [run_eq, if_neg unfit] at ran
    cases ran
  · intro fits
    have ran : run start calls = .ok (after start.value calls).indexes := by rw [run_eq, if_pos fits]
    have reached : Reached (after start.value calls).indexes := ⟨start, calls, ran⟩
    exact ⟨_, ran, reached.normalForm, reached.ordered⟩

/-- `PatternIndex().set(4294967295, 0)`. -/
theorem run_wraps : run .empty [(4294967295, 0)] = .error .undefined ∧
    ¬ ∃ indexes, run .empty [(4294967295, 0)] = .ok indexes ∧ NormalForm indexes := by
  have ran : run .empty [(4294967295, 0)] = .error .undefined := by decide
  refine ⟨ran, ?_⟩
  rintro ⟨indexes, found, _⟩
  rw [ran] at found
  cases found

end MonitorEventing.DeviceId.IndexVector
