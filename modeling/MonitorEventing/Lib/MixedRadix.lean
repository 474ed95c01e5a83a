import Mathlib

/-!
# Mixed radix numerals

A list of radices, most significant first, and the digits of a number in it. The last position
varies fastest. Everything a counter over a Cartesian product needs: how the digits are peeled
off from the end, that every tuple of digits is reached, and that counting up counts in
lexicographic order.
-/

namespace MixedRadix

/-- The digit of `k` at position `p`. -/
def digit : List Nat → Nat → Nat → Nat
  | [], _, _ => 0
  | b :: bs, 0, k => k / bs.prod % b
  | _ :: bs, p + 1, k => digit bs p k

@[simp] theorem digit_zero (b : Nat) (bs : List Nat) (k : Nat) :
    digit (b :: bs) 0 k = k / bs.prod % b := rfl

@[simp] theorem digit_succ (b : Nat) (bs : List Nat) (p k : Nat) :
    digit (b :: bs) (p + 1) k = digit bs p k := rfl

theorem digit_lt {bs : List Nat} {p b : Nat} (k : Nat) (read : bs[p]? = some b) (positive : 0 < b) :
    digit bs p k < b := by
  induction bs generalizing p with
  | nil => simp at read
  | cons c bs ih =>
    cases p with
    | zero =>
      obtain rfl : c = b := by simpa using read
      exact Nat.mod_lt _ positive
    | succ p => exact ih (by simpa using read)

theorem digit_mod (bs : List Nat) (p k : Nat) : digit bs p (k % bs.prod) = digit bs p k := by
  induction bs generalizing p k with
  | nil => simp [digit]
  | cons b bs ih =>
    cases p with
    | zero => simp [Nat.mod_mul_left_div_self]
    | succ p =>
      simp only [digit_succ, List.prod_cons]
      rw [← ih p (k % (b * bs.prod)), Nat.mod_mul_left_mod, ih]

/-! ### Peeling from the end -/

theorem digit_append_last (bs : List Nat) (b k : Nat) :
    digit (bs ++ [b]) bs.length k = k % b := by
  induction bs with
  | nil => simp
  | cons c bs ih => simpa using ih

theorem digit_append_init {bs : List Nat} {p : Nat} (b k : Nat) (inside : p < bs.length) :
    digit (bs ++ [b]) p k = digit bs p (k / b) := by
  induction bs generalizing p with
  | nil => simp at inside
  | cons c bs ih =>
    cases p with
    | zero =>
      simp only [List.cons_append, digit_zero, List.prod_append, List.prod_singleton]
      rw [Nat.div_div_eq_div_mul, Nat.mul_comm b]
    | succ p => exact ih (by simpa using inside)

/-! ### Every tuple is counted, in order -/

theorem exists_digits {bs : List Nat} (f : Nat → Nat)
    (inside : ∀ p b, bs[p]? = some b → f p < b) :
    ∃ k < bs.prod, ∀ p < bs.length, digit bs p k = f p := by
  induction bs generalizing f with
  | nil => exact ⟨0, by simp, by simp⟩
  | cons b bs ih =>
    have head : f 0 < b := inside 0 b rfl
    obtain ⟨k, bound, tail⟩ := ih (fun p => f (p + 1)) fun p c read => inside (p + 1) c (by simpa using read)
    have positive : 0 < bs.prod := Nat.zero_lt_of_lt bound
    refine ⟨bs.prod * f 0 + k, ?_, ?_⟩
    · calc bs.prod * f 0 + k < bs.prod * (f 0 + 1) := by rw [Nat.mul_succ]; omega
        _ ≤ bs.prod * b := Nat.mul_le_mul_left _ head
        _ = (b :: bs).prod := by rw [List.prod_cons, Nat.mul_comm]
    · intro p hp
      cases p with
      | zero => simp [Nat.mul_add_div positive, Nat.div_eq_of_lt bound, Nat.mod_eq_of_lt head]
      | succ p =>
        rw [digit_succ, ← digit_mod, Nat.mul_add_mod, Nat.mod_eq_of_lt bound]
        exact tail p (by simpa using hp)

/-- Counting up is lexicographic: at the first position where two numerals differ, the smaller
number has the smaller digit. -/
theorem digit_first_difference {bs : List Nat} {i j : Nat} (less : i < j) (bound : j < bs.prod) :
    ∃ p < bs.length, (∀ q < p, digit bs q i = digit bs q j) ∧ digit bs p i < digit bs p j := by
  induction bs generalizing i j with
  | nil => simp only [List.prod_nil] at bound; omega
  | cons b bs ih =>
    have positive : 0 < bs.prod := by
      refine Nat.pos_of_ne_zero fun zero => ?_
      simp [zero] at bound
    have top : j / bs.prod < b := by
      rw [Nat.div_lt_iff_lt_mul positive]
      simpa using bound
    rcases Nat.lt_or_eq_of_le (Nat.div_le_div_right (c := bs.prod) less.le) with smaller | same
    · refine ⟨0, by simp, by simp, ?_⟩
      rw [digit_zero, digit_zero, Nat.mod_eq_of_lt top, Nat.mod_eq_of_lt (smaller.trans top)]
      exact smaller
    · -- equal leading digits: the comparison moves to the remainders
      have rest : i % bs.prod < j % bs.prod := by
        have hi := Nat.div_add_mod i bs.prod
        have hj := Nat.div_add_mod j bs.prod
        rw [same] at hi
        omega
      obtain ⟨p, inside, agree, differ⟩ := ih rest (Nat.mod_lt j positive)
      refine ⟨p + 1, by simpa using inside, ?_, ?_⟩
      · intro q hq
        cases q with
        | zero => rw [digit_zero, digit_zero, same]
        | succ q => simpa [digit_mod] using agree q (by omega)
      · simpa [digit_mod] using differ

/-! ### Products of lists -/

variable {α : Type}

/-- One element of each list, the last varying fastest. -/
def product : List (List α) → List (List α)
  | [] => [[]]
  | choices :: rest => choices.flatMap fun choice => (product rest).map (choice :: ·)

@[simp] theorem length_product (lists : List (List α)) : (product lists).length = (lists.map List.length).prod := by
  induction lists with
  | nil => rfl
  | cons choices rest ih => simp [product, ih]

/-- Entries of equal length, one after the other. -/
theorem getElem?_flatMap {β : Type} {f : α → List β} {size : Nat} {xs : List α} (even : ∀ x ∈ xs, (f x).length = size)
    (k : Nat) : (xs.flatMap f)[k]? = xs[k / size]?.bind fun x => (f x)[k % size]? := by
  induction xs generalizing k with
  | nil => simp
  | cons x xs ih =>
    obtain ⟨here, later⟩ := List.forall_mem_cons.mp even
    rw [List.flatMap_cons]
    rcases Nat.lt_or_ge k size with first | beyond
    · rw [List.getElem?_append_left (here ▸ first), Nat.div_eq_of_lt first, Nat.mod_eq_of_lt first]
      rfl
    · rw [List.getElem?_append_right (here ▸ beyond), here, ih later]
      rcases Nat.eq_zero_or_pos size with rfl | positive
      · have none : ∀ y ∈ x :: xs, (f y)[k]? = none := fun y member => by
          rw [List.length_eq_zero_iff.mp (even y member)]
          rfl
        cases xs with
        | nil => simp [none x List.mem_cons_self]
        | cons y ys => simp [none x List.mem_cons_self, none y (List.mem_cons_of_mem x List.mem_cons_self)]
      · obtain ⟨k, rfl⟩ := Nat.exists_eq_add_of_le' beyond
        rw [Nat.add_sub_cancel, Nat.add_div_right k positive, Nat.add_mod_right]
        rfl

/-- The choices of the product are the digits of their number. -/
theorem getElem?_product {lists : List (List α)} {k : Nat} (below : k < (lists.map List.length).prod) :
    ∃ choices, (product lists)[k]? = some choices ∧ choices.length = lists.length ∧
      ∀ p list, lists[p]? = some list → choices[p]? = list[digit (lists.map List.length) p k]? := by
  induction lists generalizing k with
  | nil =>
    obtain rfl : k = 0 := by simpa using below
    exact ⟨[], rfl, rfl, nofun⟩
  | cons list rest ih =>
    rw [List.map_cons, List.prod_cons] at below
    have positive : 0 < (rest.map List.length).prod := by
      refine Nat.pos_of_ne_zero fun zero => ?_
      simp [zero] at below
    obtain ⟨choices, found, length, digits⟩ := ih (Nat.mod_lt k positive)
    have top : k / (rest.map List.length).prod < list.length := by rwa [Nat.div_lt_iff_lt_mul positive]
    refine ⟨list[k / (rest.map List.length).prod] :: choices, ?_, by simp [length], fun p other read => ?_⟩
    · rw [product, getElem?_flatMap (fun x _ => by rw [List.length_map, length_product]), List.getElem?_eq_getElem top,
        Option.bind_some, List.getElem?_map, found]
      rfl
    · cases p with
      | zero =>
        obtain rfl := Option.some.inj read
        rw [List.map_cons, digit_zero, Nat.mod_eq_of_lt top, List.getElem?_eq_getElem top]
        rfl
      | succ p =>
        rw [List.map_cons, digit_succ, ← digit_mod]
        exact digits p other read

theorem product_singletons (choice : List α) : product (choice.map fun a => [a]) = [choice] := by
  induction choice with
  | nil => rfl
  | cons a rest ih => simp [product, ih]

theorem mem_product {lists : List (List α)} {choices : List α} :
    choices ∈ product lists ↔ List.Forall₂ (fun choice list => choice ∈ list) choices lists := by
  induction lists generalizing choices with
  | nil => simp [product]
  | cons list rest ih =>
    simp only [product, List.mem_flatMap, List.mem_map, ih, List.forall₂_cons_right_iff]
    constructor
    · intro found
      obtain ⟨choice, inside, later, each, rfl⟩ := found
      exact ⟨choice, later, inside, each, rfl⟩
    · intro found
      obtain ⟨choice, later, inside, each, rfl⟩ := found
      exact ⟨choice, inside, later, each, rfl⟩

theorem product_eq_nil_iff {lists : List (List α)} : product lists = [] ↔ [] ∈ lists := by
  induction lists with
  | nil => simp [product]
  | cons choices rest ih =>
    rw [product, List.flatMap_eq_nil_iff, List.mem_cons, ← ih]
    simp only [List.map_eq_nil_iff]
    cases choices with
    | nil => simp
    | cons choice choices => simpa using fun none _ _ => none

/-- The choices of which every one is kept at its place. -/
def keptAll (keeps : List (α → Bool)) (choices : List α) : Bool :=
  (keeps.zipWith (fun keep choice => keep choice) choices).all id

theorem keptAll_iff {keeps : List (α → Bool)} {choices : List α} :
    keptAll keeps choices = true ↔
      ∀ (i : Nat) (keep : α → Bool) (choice : α), keeps[i]? = some keep → choices[i]? = some choice → keep choice = true := by
  rw [keptAll, List.all_eq_true]
  constructor
  · intro all i keep choice hereKeep here
    refine all _ (List.mem_of_getElem? (i := i) ?_)
    rw [List.getElem?_zipWith, hereKeep, here]
  · intro all kept member
    obtain ⟨i, found⟩ := List.getElem?_of_mem member
    obtain ⟨keep, choice, hereKeep, here, rfl⟩ := List.getElem?_zipWith_eq_some.mp found
    exact all i keep choice hereKeep here

theorem flatMap_filter {β : Type} (keep : α → Bool) (f : α → List β) (xs : List α) :
    (xs.filter keep).flatMap f = xs.flatMap fun x => if keep x then f x else [] := by
  induction xs with
  | nil => rfl
  | cons x xs ih =>
    rw [List.filter_cons, List.flatMap_cons, ← ih]
    cases keep x <;> rfl

/-- The product of what each list keeps. -/
theorem product_filter {lists : List (List α)} {keeps : List (α → Bool)} (lengths : keeps.length = lists.length) :
    product (keeps.zipWith List.filter lists) = (product lists).filter (keptAll keeps) := by
  induction lists generalizing keeps with
  | nil =>
    obtain rfl := List.length_eq_zero_iff.mp lengths
    rfl
  | cons list rest ih =>
    obtain ⟨keep, keeps, rfl⟩ := List.exists_cons_of_length_eq_add_one lengths
    have later := ih (Nat.succ.inj lengths)
    have here : ∀ choice, (((product rest).map (choice :: ·)).filter (keptAll (keep :: keeps))) =
        if keep choice then (product (keeps.zipWith List.filter rest)).map (choice :: ·) else [] := by
      intro choice
      rw [List.filter_map]
      cases kept : keep choice with
      | true =>
        rw [if_pos rfl, later]
        congr 2
        funext choices
        simp [keptAll, kept]
      | false =>
        rw [if_neg Bool.false_ne_true, List.map_eq_nil_iff, List.filter_eq_nil_iff]
        simp [keptAll, kept]
    rw [List.zipWith_cons_cons, product, product, List.filter_flatMap, flatMap_filter]
    simp only [here]

end MixedRadix
