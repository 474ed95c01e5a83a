import MonitorEventing.Lib.Graph

/-!
# Breadth-first search

Distances along the edges of a graph, and the invariant of a search that expands its nodes in the order
it found them: what waits in the queue is at most one edge further away than its front, so that every
new node is exactly one edge further away and the order of finding is an order by distance.
-/

namespace Graph
open Relation

variable {α : Type} {r : α → α → Prop} {a b c : α}

/-! ### Distances -/

/-- A walk of `n` edges. -/
def Walk (r : α → α → Prop) : Nat → α → α → Prop
  | 0, a, b => a = b
  | n + 1, a, b => ∃ c, Walk r n a c ∧ r c b

theorem Walk.reachable {n : Nat} (walk : Walk r n a b) : ReflTransGen r a b := by
  induction n generalizing b with
  | zero =>
    obtain rfl := walk
    exact ReflTransGen.refl
  | succ n ih =>
    obtain ⟨c, walk, edge⟩ := walk
    exact (ih walk).tail edge

theorem exists_walk (path : ReflTransGen r a b) : ∃ n, Walk r n a b := by
  induction path with
  | refl => exact ⟨0, rfl⟩
  | tail _ edge ih =>
    obtain ⟨n, walk⟩ := ih
    exact ⟨n + 1, _, walk, edge⟩

/-- A walk out of a set leaves it along an edge. -/
theorem Walk.leaves {n : Nat} {S : Set α} (walk : Walk r n a b) (inside : a ∈ S) (outside : b ∉ S) :
    ∃ m x y, m < n ∧ Walk r m a x ∧ x ∈ S ∧ r x y ∧ y ∉ S := by
  induction n generalizing b with
  | zero =>
    obtain rfl := walk
    exact absurd inside outside
  | succ n ih =>
    obtain ⟨c, walk, edge⟩ := walk
    by_cases early : c ∈ S
    · exact ⟨n, c, b, Nat.lt_succ_self n, walk, early, edge, outside⟩
    · obtain ⟨m, x, y, less, found⟩ := ih walk early
      exact ⟨m, x, y, less.trans (Nat.lt_succ_self n), found⟩

/-- The number of edges of a shortest walk. -/
noncomputable def distance (r : α → α → Prop) (a b : α) : Nat := sInf {n | Walk r n a b}

theorem walk_distance (path : ReflTransGen r a b) : Walk r (distance r a b) a b := Nat.sInf_mem (exists_walk path)

theorem Walk.distance_le {n : Nat} (walk : Walk r n a b) : distance r a b ≤ n := Nat.sInf_le walk

theorem distance_tail_le (path : ReflTransGen r a b) (edge : r b c) : distance r a c ≤ distance r a b + 1 := by
  have walk : Walk r (distance r a b + 1) a c := ⟨b, walk_distance path, edge⟩
  exact walk.distance_le

/-- What is reachable beyond a set is further away than a node with an edge out of it. -/
theorem exists_distance_lt {S : Set α} (inside : a ∈ S) (outside : b ∉ S) (path : ReflTransGen r a b) :
    ∃ x y, x ∈ S ∧ r x y ∧ y ∉ S ∧ distance r a x < distance r a b := by
  obtain ⟨m, x, y, less, walk, here, edge, beyond⟩ := (walk_distance path).leaves inside outside
  exact ⟨x, y, here, edge, beyond, walk.distance_le.trans_lt less⟩

/-! ### The search -/

/-- A search that has found its nodes in this order, expanded those of `done`, and has still to expand the queue. -/
structure BreadthFirst (r : α → α → Prop) (start : α) (done queue : List α) : Prop where
  worklist : Worklist r start {x | x ∈ queue} {x | x ∈ done ++ queue}
  distinct : (done ++ queue).Nodup
  first : (done ++ queue).head? = some start
  sorted : (done ++ queue).Pairwise fun x y => distance r start x ≤ distance r start y
  near : ∀ x ∈ queue.head?, ∀ y ∈ queue, distance r start y ≤ distance r start x + 1

namespace BreadthFirst
variable {start : α} {done queue new : List α}

theorem init (start : α) : BreadthFirst r start [] [start] := by
  refine ⟨?_, List.nodup_singleton start, rfl, List.pairwise_singleton _ _, ?_⟩
  · simpa using Worklist.init start
  · intro x front y member
    rw [List.head?_cons, Option.mem_some_iff] at front
    rw [List.mem_singleton.mp member, front]
    exact Nat.le_succ _

theorem front_le (h : BreadthFirst r start done (a :: queue)) {x : α} (member : x ∈ a :: queue) :
    distance r start a ≤ distance r start x := by
  have sorted := (List.pairwise_append.mp h.sorted).2.1
  rcases List.mem_cons.mp member with rfl | behind
  · exact le_rfl
  · exact (List.pairwise_cons.mp sorted).1 x behind

theorem le_front_succ (h : BreadthFirst r start done (a :: queue)) {x : α} (member : x ∈ done ++ a :: queue) :
    distance r start x ≤ distance r start a + 1 := by
  rcases List.mem_append.mp member with old | waiting
  · exact Nat.le_succ_of_le ((List.pairwise_append.mp h.sorted).2.2 x old a List.mem_cons_self)
  · exact h.near a rfl x waiting

/-- A node not found yet is further away than the front of the queue. -/
theorem front_lt (h : BreadthFirst r start done (a :: queue)) {y : α} (path : ReflTransGen r start y)
    (unseen : y ∉ done ++ a :: queue) : distance r start a < distance r start y := by
  obtain ⟨x, z, here, edge, beyond, less⟩ := exists_distance_lt h.worklist.started unseen path
  have waiting : x ∈ a :: queue := by
    by_contra expanded
    exact beyond (h.worklist.closed x here expanded z edge)
  exact (h.front_le waiting).trans_lt less

/-- Expanding the front puts its new successors behind the queue. -/
theorem expand (h : BreadthFirst r start done (a :: queue)) (fresh : ∀ y ∈ new, r a y)
    (all : ∀ y, r a y → y ∈ done ++ a :: queue ++ new) (distinct : (done ++ a :: queue ++ new).Nodup) :
    BreadthFirst r start (done ++ [a]) (queue ++ new) := by
  have front : a ∈ done ++ a :: queue := by simp
  have same : done ++ [a] ++ (queue ++ new) = done ++ a :: queue ++ new := by simp
  have path := h.worklist.reached a front
  have further : ∀ y ∈ new, distance r start y = distance r start a + 1 := by
    intro y member
    have unseen : y ∉ done ++ a :: queue := fun old => (List.nodup_append.mp distinct).2.2 y old y member rfl
    have reached := path.tail (fresh y member)
    exact Nat.le_antisymm (distance_tail_le path (fresh y member)) (h.front_lt reached unseen)
  refine ⟨?_, same ▸ distinct, ?_, ?_, ?_⟩
  · rw [same]
    exact h.worklist.expand_list fresh all
  · rw [same, List.head?_append, h.first]
    rfl
  · rw [same, List.pairwise_append]
    refine ⟨h.sorted, ?_, fun x old y member => ?_⟩
    · refine List.pairwise_of_forall_mem_list fun x one y other => ?_
      rw [further x one, further y other]
    · rw [further y member]
      exact h.le_front_succ old
  · intro x next y member
    have least : distance r start a ≤ distance r start x := by
      rcases List.mem_append.mp (List.mem_of_mem_head? next) with waiting | added
      · exact h.front_le (List.mem_cons_of_mem a waiting)
      · rw [further x added]
        exact Nat.le_succ _
    have most : distance r start y ≤ distance r start a + 1 := by
      rcases List.mem_append.mp member with waiting | added
      · exact h.le_front_succ (List.mem_append_right done (List.mem_cons_of_mem a waiting))
      · rw [further y added]
    exact most.trans (Nat.succ_le_succ least)

/-- With an empty queue the search has found exactly what is reachable. -/
theorem mem_iff (h : BreadthFirst r start done []) (x : α) : x ∈ done ↔ ReflTransGen r start x := by
  have worklist := h.worklist
  simp only [List.not_mem_nil, List.append_nil] at worklist
  exact worklist.mem_iff x

end BreadthFirst

end Graph
