import Mathlib

/-!
# Exploring a graph

What a traversal with a set of visited nodes has done between two of its states, and the rules by
which the pieces of a traversal make up the whole: nothing yet, one piece after the other, one node
with all its successors. A traversal from one node with nothing visited before has visited exactly
what is reachable. A worklist search is the same with the nodes that are still to be expanded, which may
wait on a stack with others that were found since.
-/

namespace Graph
open Relation

variable {α : Type} {r : α → α → Prop}

/-- From visited set `S` to `T`: only nodes reachable from the starts are new, and with a new node
its successors are visited. -/
structure Explored (r : α → α → Prop) (starts S T : Set α) : Prop where
  grows : S ⊆ T
  reached : ∀ x ∈ T, x ∉ S → ∃ a ∈ starts, ReflTransGen r a x
  closed : ∀ x ∈ T, x ∉ S → ∀ y, r x y → y ∈ T

theorem Explored.refl (starts S : Set α) : Explored r starts S S :=
  ⟨subset_rfl, fun _ member new => absurd member new, fun _ member new => absurd member new⟩

theorem Explored.trans {starts S T U : Set α} (first : Explored r starts S T) (second : Explored r starts T U) :
    Explored r starts S U := by
  refine ⟨first.grows.trans second.grows, ?_, ?_⟩
  · intro x member new
    by_cases early : x ∈ T
    · exact first.reached x early new
    · exact second.reached x member early
  · intro x member new y edge
    by_cases early : x ∈ T
    · exact second.grows (first.closed x early new y edge)
    · exact second.closed x member early y edge

theorem Explored.mono {starts more S T : Set α} (h : Explored r starts S T) (sub : starts ⊆ more) :
    Explored r more S T := by
  refine ⟨h.grows, fun x member new => ?_, h.closed⟩
  obtain ⟨a, start, path⟩ := h.reached x member new
  exact ⟨a, sub start, path⟩

theorem Explored.visit {a : α} {S T : Set α} (rest : Explored r {b | r a b} (insert a S) T)
    (all : ∀ b, r a b → b ∈ T) : Explored r {a} S T := by
  refine ⟨(Set.subset_insert a S).trans rest.grows, ?_, ?_⟩
  · intro x member new
    by_cases same : x = a
    · exact ⟨a, rfl, same ▸ ReflTransGen.refl⟩
    · have other : x ∉ insert a S := fun inside => (Set.mem_insert_iff.mp inside).elim same new
      obtain ⟨b, edge, path⟩ := rest.reached x member other
      exact ⟨a, rfl, ReflTransGen.head edge path⟩
  · intro x member new y edge
    by_cases same : x = a
    · exact all y (same ▸ edge)
    · have other : x ∉ insert a S := fun inside => (Set.mem_insert_iff.mp inside).elim same new
      exact rest.closed x member other y edge

theorem mem_of_reachable {T : Set α} (closed : ∀ x ∈ T, ∀ y, r x y → y ∈ T) {a x : α} (start : a ∈ T)
    (path : ReflTransGen r a x) : x ∈ T := by
  induction path with
  | refl => exact start
  | tail _ edge ih => exact closed _ ih _ edge

/-- Started from nothing, exactly the reachable nodes are visited. -/
theorem Explored.mem_iff {a : α} {T : Set α} (h : Explored r {a} ∅ T) (start : a ∈ T) (x : α) :
    x ∈ T ↔ ReflTransGen r a x := by
  constructor
  · intro member
    obtain ⟨b, same, path⟩ := h.reached x member (Set.notMem_empty x)
    exact Set.mem_singleton_iff.mp same ▸ path
  · apply mem_of_reachable _ start
    intro x member
    exact h.closed x member (Set.notMem_empty x)

/-! ### Worklists -/

/-- A search that has visited `V` and still has to expand the nodes of `F`. -/
structure Worklist (r : α → α → Prop) (start : α) (F V : Set α) : Prop where
  started : start ∈ V
  pending : F ⊆ V
  reached : ∀ x ∈ V, ReflTransGen r start x
  closed : ∀ x ∈ V, x ∉ F → ∀ y, r x y → y ∈ V

theorem Worklist.init (start : α) : Worklist r start {start} {start} := by
  refine ⟨rfl, subset_rfl, fun x member => ?_, fun x member done => absurd member done⟩
  rw [Set.mem_singleton_iff.mp member]

theorem Worklist.expand {start a : α} {F V N : Set α} (h : Worklist r start (insert a F) V)
    (new : ∀ y ∈ N, r a y) (all : ∀ y, r a y → y ∈ V ∪ N) : Worklist r start (F ∪ N) (V ∪ N) := by
  have visited : a ∈ V := h.pending (Set.mem_insert a F)
  refine ⟨Or.inl h.started, ?_, ?_, ?_⟩
  · apply Set.union_subset_union_left
    exact (Set.subset_insert a F).trans h.pending
  · intro x member
    rcases member with old | fresh
    · exact h.reached x old
    · exact (h.reached a visited).tail (new x fresh)
  · intro x member done y edge
    have notPending : x ∉ F := fun waits => done (Or.inl waits)
    have old : x ∈ V := member.resolve_right fun fresh => done (Or.inr fresh)
    by_cases same : x = a
    · exact all y (same ▸ edge)
    · have expanded : x ∉ insert a F := fun waits => (Set.mem_insert_iff.mp waits).elim same notPending
      exact Or.inl (h.closed x old expanded y edge)

/-- The same with the nodes in lists, the one to expand in front. -/
theorem Worklist.expand_list {start a : α} {queue found new : List α}
    (h : Worklist r start {x | x ∈ a :: queue} {x | x ∈ found}) (fresh : ∀ y ∈ new, r a y)
    (all : ∀ y, r a y → y ∈ found ++ new) : Worklist r start {x | x ∈ queue ++ new} {x | x ∈ found ++ new} := by
  have front : {x | x ∈ a :: queue} = insert a {x | x ∈ queue} := by
    ext x
    exact List.mem_cons
  have behind : ∀ xs : List α, {x | x ∈ xs ++ new} = {x | x ∈ xs} ∪ {x | x ∈ new} := by
    intro xs
    ext x
    exact List.mem_append
  rw [behind, behind]
  refine (front ▸ h).expand (N := {x | x ∈ new}) fresh fun y edge => ?_
  rw [← behind]
  exact all y edge

/-- The edges out of a node that waits may become known later. -/
theorem Worklist.learn {q : α → α → Prop} {start : α} {F V : Set α} (h : Worklist r start F V)
    (more : ∀ x y, r x y → q x y) (same : ∀ x ∈ V, x ∉ F → ∀ y, q x y → r x y) : Worklist q start F V := by
  refine ⟨h.started, h.pending, fun x member => ReflTransGen.mono more _ _ (h.reached x member), ?_⟩
  intro x member done y edge
  exact h.closed x member done y (same x member done y edge)

theorem Worklist.mem_iff {start : α} {V : Set α} (h : Worklist r start ∅ V) (x : α) :
    x ∈ V ↔ ReflTransGen r start x := by
  constructor
  · exact h.reached x
  · apply mem_of_reachable _ h.started
    intro x member
    exact h.closed x member (Set.notMem_empty x)

/-! ### Stacks

A node is looked up when it is taken from the stack: what waits is on the stack and not found yet. -/

section
variable {start a : α} {stack found : List α}

theorem Worklist.alone (start : α) : Worklist r start {x | x ∈ [start] ∧ x ∉ ([] : List α)} {x | x ∈ [] ++ [start]} := by
  simpa using Worklist.init start

theorem Worklist.pop (h : Worklist r start {x | x ∈ a :: stack ∧ x ∉ found} {x | x ∈ found ++ a :: stack})
    (old : a ∈ found) : Worklist r start {x | x ∈ stack ∧ x ∉ found} {x | x ∈ found ++ stack} := by
  have waiting : {x | x ∈ a :: stack ∧ x ∉ found} = {x | x ∈ stack ∧ x ∉ found} := by
    ext x
    simp only [Set.mem_ofPred_eq, List.mem_cons]
    constructor
    · rintro ⟨rfl | waits, fresh⟩
      · exact absurd old fresh
      · exact ⟨waits, fresh⟩
    · rintro ⟨waits, fresh⟩
      exact ⟨Or.inr waits, fresh⟩
  have all : {x | x ∈ found ++ a :: stack} = {x | x ∈ found ++ stack} := by
    ext x
    simp only [Set.mem_ofPred_eq, List.mem_append, List.mem_cons]
    constructor
    · rintro (done | rfl | waits)
      · exact Or.inl done
      · exact Or.inl old
      · exact Or.inr waits
    · rintro (done | waits)
      · exact Or.inl done
      · exact Or.inr (Or.inr waits)
  rw [← waiting, ← all]
  exact h

/-- A node that is found now puts its successors on the stack, found or not. -/
theorem Worklist.push (h : Worklist r start {x | x ∈ a :: stack ∧ x ∉ found} {x | x ∈ found ++ a :: stack})
    (fresh : a ∉ found) {pushes : List α} (edges : ∀ y, r a y ↔ y ∈ pushes) :
    Worklist r start {x | x ∈ pushes ++ stack ∧ x ∉ found ++ [a]} {x | x ∈ found ++ [a] ++ (pushes ++ stack)} := by
  have waiting : {x | x ∈ a :: stack ∧ x ∉ found} = insert a {x | x ∈ stack ∧ x ∉ found ++ [a]} := by
    ext x
    simp only [Set.mem_ofPred_eq, Set.mem_insert_iff, List.mem_cons, List.mem_append, List.not_mem_nil]
    by_cases same : x = a
    · simp [same, fresh]
    · simp [same]
  rw [waiting] at h
  have expanded := h.expand (N := {x | x ∈ pushes ∧ x ∉ found ++ a :: stack})
    (fun y member => (edges y).mpr member.1) fun y edge => by
      by_cases old : y ∈ found ++ a :: stack
      · exact Or.inl old
      · exact Or.inr ⟨(edges y).mp edge, old⟩
  convert expanded using 1
  · ext x
    simp only [Set.mem_ofPred_eq, Set.mem_union, List.mem_append, List.mem_cons, List.not_mem_nil]
    tauto
  · ext x
    simp only [Set.mem_ofPred_eq, Set.mem_union, List.mem_append, List.mem_cons, List.not_mem_nil]
    tauto

end

end Graph
