import Mathlib

/-!
# Distinct keys

What is left of a list when of each key only the first entry is kept, and how many entries a set has
that is made from a list.
-/

namespace Distinct

section
variable {α κ : Type} [DecidableEq κ] {key : α → κ}

/-- The entries whose key was not seen before. -/
def firsts (key : α → κ) : List κ → List α → List α
  | _, [] => []
  | seen, x :: rest => if key x ∈ seen then firsts key seen rest else x :: firsts key (key x :: seen) rest

/-- The keys seen after the entries. -/
def seenAfter (key : α → κ) : List κ → List α → List κ
  | seen, [] => seen
  | seen, x :: rest => if key x ∈ seen then seenAfter key seen rest else seenAfter key (key x :: seen) rest

theorem firsts_append (seen : List κ) (xs ys : List α) :
    firsts key seen (xs ++ ys) = firsts key seen xs ++ firsts key (seenAfter key seen xs) ys := by
  induction xs generalizing seen with
  | nil => rfl
  | cons x rest ih =>
    rw [List.cons_append, firsts, firsts, seenAfter]
    split
    · exact ih seen
    · rw [ih]
      rfl

theorem mem_of_mem_firsts {seen : List κ} {xs : List α} {x : α} (member : x ∈ firsts key seen xs) :
    x ∈ xs ∧ key x ∉ seen := by
  induction xs generalizing seen with
  | nil => cases member
  | cons y rest ih =>
    unfold firsts at member
    split at member
    · obtain ⟨inside, fresh⟩ := ih member
      exact ⟨List.mem_cons_of_mem _ inside, fresh⟩
    · rename_i fresh
      rcases List.mem_cons.mp member with rfl | later
      · exact ⟨List.mem_cons_self, fresh⟩
      · obtain ⟨inside, fresh⟩ := ih later
        exact ⟨List.mem_cons_of_mem _ inside, fun old => fresh (List.mem_cons_of_mem _ old)⟩

theorem firsts_keys_nodup (key : α → κ) (seen : List κ) (xs : List α) : ((firsts key seen xs).map key).Nodup := by
  induction xs generalizing seen with
  | nil => exact List.nodup_nil
  | cons y rest ih =>
    unfold firsts
    split
    · exact ih seen
    · rw [List.map_cons, List.nodup_cons]
      refine ⟨fun repeated => ?_, ih _⟩
      obtain ⟨x, later, same⟩ := List.mem_map.mp repeated
      exact (mem_of_mem_firsts later).2 (same ▸ List.mem_cons_self)

theorem firsts_nodup (key : α → κ) (seen : List κ) (xs : List α) : (firsts key seen xs).Nodup :=
  (firsts_keys_nodup key seen xs).of_map key

theorem exists_first {seen : List κ} {xs : List α} {x : α} (member : x ∈ xs) (fresh : key x ∉ seen) :
    ∃ first ∈ firsts key seen xs, key first = key x := by
  induction xs generalizing seen with
  | nil => cases member
  | cons y rest ih =>
    unfold firsts
    by_cases old : key y ∈ seen
    · rw [if_pos old]
      rcases List.mem_cons.mp member with rfl | later
      · exact absurd old fresh
      · exact ih later fresh
    · rw [if_neg old]
      by_cases same : key y = key x
      · exact ⟨y, List.mem_cons_self, same⟩
      · rcases List.mem_cons.mp member with rfl | later
        · exact absurd rfl same
        · have unseen : key x ∉ key y :: seen := fun old => (List.mem_cons.mp old).elim (fun h => same h.symm) fresh
          obtain ⟨first, inside, found⟩ := ih later unseen
          exact ⟨first, List.mem_cons_of_mem _ inside, found⟩

/-- Nothing is dropped but repetitions, exactly if no two different entries have one key. -/
theorem mem_firsts_iff (key : α → κ) (xs : List α) :
    (∀ x ∈ xs, x ∈ firsts key [] xs) ↔ ∀ x ∈ xs, ∀ y ∈ xs, key x = key y → x = y := by
  refine ⟨fun kept x hx y hy same => ?_, fun distinct x member => ?_⟩
  · exact List.inj_on_of_nodup_map (firsts_keys_nodup key [] xs) (kept x hx) (kept y hy) same
  · obtain ⟨first, inside, same⟩ := exists_first member (@List.not_mem_nil κ (key x))
    rwa [← distinct first (mem_of_mem_firsts inside).1 x member same]

/-- Every entry is kept exactly once, exactly if no two different ones have one key. -/
theorem count_firsts_iff [BEq α] [LawfulBEq α] (key : α → κ) (xs : List α) :
    (∀ x, (firsts key [] xs).count x = if x ∈ xs then 1 else 0) ↔ ∀ x ∈ xs, ∀ y ∈ xs, key x = key y → x = y := by
  rw [← mem_firsts_iff]
  refine ⟨fun counted x member => ?_, fun kept x => ?_⟩
  · refine List.count_pos_iff.mp ?_
    rw [counted, if_pos member]
    exact Nat.one_pos
  · rw [(firsts_nodup key [] xs).count]
    exact if_congr ⟨fun inside => (mem_of_mem_firsts inside).1, kept x⟩ rfl rfl

end

/-! ### Sets -/

theorem size_ofList_iff {α : Type} [DecidableEq α] {cmp : α → α → Ordering} [Std.TransCmp cmp]
    [Std.LawfulEqCmp cmp] (xs : List α) : (Std.TreeSet.ofList xs cmp).size = xs.length ↔ xs.Nodup := by
  refine ⟨fun full => ?_, fun distinct => Std.TreeSet.size_ofList ?_⟩
  · have entries : (Std.TreeSet.ofList xs cmp).toList.toFinset = xs.toFinset := by
      ext x
      simp
    have nodup : (Std.TreeSet.ofList xs cmp).toList.Nodup := by
      refine Std.TreeSet.distinct_toList.imp fun different same => different ?_
      rw [same]
      exact Std.ReflCmp.compare_self
    rw [← Std.TreeSet.length_toList, ← List.toFinset_card_of_nodup nodup, entries] at full
    exact Multiset.toFinset_card_eq_card_iff_nodup.mp full
  · exact distinct.imp fun different same => different (Std.LawfulEqCmp.compare_eq_iff_eq.mp same)

end Distinct
