import Mathlib

/-!
# Queues and stacks of nodes

What a loop over a queue or a stack of nodes has still to do, for a bound on its rounds, and the queue
of a walk that looks at nothing it has done before: it goes through the nodes of a graph as through a
tree, so that a node is met once for every way that leads to it.
-/

namespace Queue
open Relation

variable {α : Type}

/-! ### Work -/

/-- What the nodes not done yet can still add. -/
def work [DecidableEq α] (nodes : Finset α) (size : α → Nat) (done : List α) : Nat :=
  ∑ a ∈ nodes \ done.toFinset, size a

theorem work_visit [DecidableEq α] {nodes : Finset α} {size : α → Nat} {done : List α} {a : α} (known : a ∈ nodes)
    (fresh : a ∉ done) : size a + work nodes size (done ++ [a]) = work nodes size done := by
  have here : a ∈ nodes \ done.toFinset := by
    rw [Finset.mem_sdiff, List.mem_toFinset]
    exact ⟨known, fresh⟩
  have rest : nodes \ (done ++ [a]).toFinset = (nodes \ done.toFinset).erase a := by
    ext x
    simp only [Finset.mem_sdiff, Finset.mem_erase, List.mem_toFinset, List.mem_append, List.mem_singleton]
    tauto
  rw [work, rest, Finset.add_sum_erase _ _ here, work]

/-! ### Unfoldings -/

variable {next : α → List α} {start a : α} {done queue : List α}

/-- Nodes taken from the front of a queue, every one with its successors put behind it. -/
structure Unfolded (next : α → List α) (start : α) (done queue : List α) : Prop where
  order : done ++ queue = start :: done.flatMap next
  reached : ∀ x ∈ done ++ queue, ReflTransGen (fun a b => b ∈ next a) start x

namespace Unfolded

theorem init (next : α → List α) (start : α) : Unfolded next start [] [start] := by
  refine ⟨rfl, fun x member => ?_⟩
  rw [List.mem_singleton.mp member]

theorem expand (h : Unfolded next start done (a :: queue)) : Unfolded next start (done ++ [a]) (queue ++ next a) := by
  have same : done ++ [a] ++ (queue ++ next a) = done ++ a :: queue ++ next a := by simp
  refine ⟨?_, ?_⟩
  · rw [same, h.order]
    simp
  · rw [same]
    intro x member
    rcases List.mem_append.mp member with old | added
    · exact h.reached x old
    · exact (h.reached a (by simp)).tail added

/-- With an empty queue all that is reachable is done. -/
theorem mem_iff (h : Unfolded next start done []) (x : α) :
    x ∈ done ↔ ReflTransGen (fun a b => b ∈ next a) start x := by
  have order := h.order
  rw [List.append_nil] at order
  constructor
  · intro member
    exact h.reached x (by rwa [List.append_nil])
  · intro path
    induction path with
    | refl =>
      rw [order]
      exact List.mem_cons_self
    | tail _ edge ih =>
      rw [order]
      exact List.mem_cons_of_mem _ (List.mem_flatMap.mpr ⟨_, ih, edge⟩)

/-- A walk that ends has met a node without successors. -/
theorem exists_leaf (h : Unfolded next start done []) : ∃ x ∈ done, next x = [] := by
  by_contra! inner
  have order := congrArg List.length h.order
  have least : done.length ≤ (done.flatMap next).length := by
    rw [List.length_flatMap]
    calc done.length = (done.map fun _ => 1).sum := by simp
      _ ≤ (done.map fun x => (next x).length).sum :=
        List.sum_le_sum fun x member => List.length_pos_iff.mpr (inner x member)
  rw [List.append_nil, List.length_cons] at order
  omega

end Unfolded

/-- What is reachable is a tree: nothing is a successor twice, and the start is none. -/
structure Tree (next : α → List α) (start : α) : Prop where
  once : ∀ a, ReflTransGen (fun a b => b ∈ next a) start a → (next a).Nodup
  apart : ∀ a b, ReflTransGen (fun a b => b ∈ next a) start a → ReflTransGen (fun a b => b ∈ next a) start b → a ≠ b →
    (next a).Disjoint (next b)
  root : ∀ a, ReflTransGen (fun a b => b ∈ next a) start a → start ∉ next a

/-- In a tree the queue has no node that is done, and none twice. -/
theorem Tree.expand (tree : Tree next start) (h : Unfolded next start done (a :: queue))
    (distinct : (done ++ a :: queue).Nodup) : (done ++ [a] ++ (queue ++ next a)).Nodup := by
  have visited : (done ++ [a]).Nodup := by
    rw [List.append_cons] at distinct
    exact distinct.of_append_left
  have reached : ∀ x ∈ done ++ [a], ReflTransGen (fun a b => b ∈ next a) start x := by
    intro x member
    apply h.reached
    rw [List.append_cons]
    exact List.mem_append_left queue member
  rw [h.expand.order, List.nodup_cons, List.nodup_flatMap]
  refine ⟨?_, fun x member => tree.once x (reached x member), ?_⟩
  · intro inside
    obtain ⟨x, member, edge⟩ := List.mem_flatMap.mp inside
    exact tree.root x (reached x member) edge
  · apply visited.imp_of_mem
    intro x y one other differ
    exact tree.apart x y (reached x one) (reached y other) differ

/-- Nodes with no successor twice make up a tree, if they are all nodes with successors. -/
theorem Tree.of_nodup {nodes : List α} (distinct : (start :: nodes.flatMap next).Nodup)
    (all : ∀ a, ReflTransGen (fun a b => b ∈ next a) start a → a ∈ nodes ∨ next a = []) : Tree next start := by
  rw [List.nodup_cons, List.nodup_flatMap] at distinct
  obtain ⟨root, once, apart⟩ := distinct
  have symmetric : Std.Symm (Function.onFun List.Disjoint next) := ⟨fun x y disjoint => disjoint.symm⟩
  refine ⟨fun a path => ?_, fun a b one other differ => ?_, fun a path edge => ?_⟩
  · rcases all a path with member | leaf
    · exact once a member
    · rw [leaf]
      exact List.nodup_nil
  · rcases all a one with member | leaf
    · rcases all b other with member' | leaf
      · exact apart.forall member member' differ
      · rw [leaf]
        exact List.disjoint_nil_right _
    · rw [leaf]
      exact List.disjoint_nil_left _
  · rcases all a path with member | leaf
    · exact root (List.mem_flatMap.mpr ⟨a, member, edge⟩)
    · rw [leaf] at edge
      cases edge

/-- A walk that ends without doing a node twice has gone through a tree. -/
theorem Unfolded.tree (h : Unfolded next start done []) (distinct : done.Nodup) : Tree next start := by
  have order := h.order
  rw [List.append_nil] at order
  rw [order] at distinct
  exact Tree.of_nodup distinct fun a path => Or.inl ((h.mem_iff a).mpr path)

end Queue
