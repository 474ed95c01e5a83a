import MonitorEventing.Accessor.Json

/-!
# Paths into JSON

A path leads from a value to one inside it. While a value is descended into, its path is kept newest
element first, as the list the stack links.
-/

namespace MonitorEventing.Schema

inductive JsonPathElement where
  | key (name : String)
  | index (i : Nat)
  deriving DecidableEq, Repr

abbrev JsonPath : Type := List JsonPathElement

abbrev StackJsonPath : Type := List JsonPathElement

/-- The loop that puts each element in front of the later ones. -/
def getPath (startNode : StackJsonPath) : JsonPath :=
  startNode.foldl (fun result element => element :: result) []

/-- What `at` gives for a coordinate the value has. -/
def child : Json → JsonPathElement → Option Json
  | .object members, .key name => members.lookup name
  | .array elems, .index i => elems[i]?
  | _, _ => none

def optionalNodeAt (js : Json) : JsonPath → Option Json
  | [] => some js
  | coordinate :: rest =>
    match child js coordinate with
    | some value => optionalNodeAt value rest
    | none => none

def contains (js : Json) (jsPath : JsonPath) : Bool := (optionalNodeAt js jsPath).isSome

/-- `to_string`. -/
def JsonPathElement.text : JsonPathElement → String
  | .key name => name
  | .index i => "[" ++ toString i ++ "]"

def JsonPath.text (jsonPath : JsonPath) : String :=
  if jsonPath = [] then "." else String.join (jsonPath.map fun elem => "." ++ elem.text)

def nodeAt (js : Json) (jsPath : JsonPath) : Except Exn Json :=
  match optionalNodeAt js jsPath with
  | some res => .ok res
  | none => .error (.runtimeError ("Path '" ++ JsonPath.text jsPath ++ "' doesn't exist in the given json"))

@[simp] theorem nodeAt_ok_iff {js node : Json} {jsPath : JsonPath} :
    nodeAt js jsPath = .ok node ↔ optionalNodeAt js jsPath = some node := by
  unfold nodeAt
  cases optionalNodeAt js jsPath <;> simp

theorem getPath_cons (element : JsonPathElement) (previous : StackJsonPath) :
    getPath (element :: previous) = getPath previous ++ [element] := by
  simp [getPath, List.foldl_flip_cons_eq_append]

theorem optionalNodeAt_append (js : Json) (first second : JsonPath) :
    optionalNodeAt js (first ++ second) = (optionalNodeAt js first).bind fun value => optionalNodeAt value second := by
  induction first generalizing js with
  | nil => rfl
  | cons coordinate rest ih =>
    rw [List.cons_append, optionalNodeAt, optionalNodeAt]
    cases child js coordinate with
    | none => rfl
    | some value => exact ih value

/-- The value at the path of a stack, and what a further coordinate leads to. -/
theorem optionalNodeAt_getPath_cons {root element value : Json} {previous : StackJsonPath} {coordinate : JsonPathElement}
    (here : optionalNodeAt root (getPath previous) = some element) (further : child element coordinate = some value) :
    optionalNodeAt root (getPath (coordinate :: previous)) = some value := by
  rw [getPath_cons, optionalNodeAt_append, here, Option.bind_some, optionalNodeAt, further]
  rfl

/-! ### What holds everywhere -/

mutual
/-- The property of a value and of every value inside it. -/
def everywhere (p : Json → Bool) : Json → Bool
  | .array elems => p (.array elems) && everywhereElems p elems
  | .object members => p (.object members) && everywhereMembers p members
  | j => p j

def everywhereElems (p : Json → Bool) : List Json → Bool
  | [] => true
  | elem :: rest => everywhere p elem && everywhereElems p rest

def everywhereMembers (p : Json → Bool) : List (String × Json) → Bool
  | [] => true
  | (_, value) :: rest => everywhere p value && everywhereMembers p rest
end

variable {p : Json → Bool}

theorem everywhereElems_iff {elems : List Json} :
    everywhereElems p elems = true ↔ ∀ elem ∈ elems, everywhere p elem = true := by
  induction elems with
  | nil => simp [everywhereElems]
  | cons elem rest ih => simp [everywhereElems, ih]

theorem everywhereMembers_iff {members : List (String × Json)} :
    everywhereMembers p members = true ↔ ∀ entry ∈ members, everywhere p entry.2 = true := by
  induction members with
  | nil => simp [everywhereMembers]
  | cons entry rest ih =>
    obtain ⟨key, value⟩ := entry
    simp [everywhereMembers, ih]

theorem everywhere_self {j : Json} (h : everywhere p j = true) : p j = true := by
  cases j with
  | array elems => exact (Bool.and_eq_true_iff.mp h).1
  | object members => exact (Bool.and_eq_true_iff.mp h).1
  | _ => exact h

theorem everywhere_member {members : List (String × Json)} (h : everywhere p (.object members) = true)
    {entry : String × Json} (member : entry ∈ members) : everywhere p entry.2 = true :=
  everywhereMembers_iff.mp (Bool.and_eq_true_iff.mp h).2 entry member

theorem everywhere_elem {elems : List Json} (h : everywhere p (.array elems) = true) {elem : Json}
    (member : elem ∈ elems) : everywhere p elem = true :=
  everywhereElems_iff.mp (Bool.and_eq_true_iff.mp h).2 elem member

theorem everywhere_child {j value : Json} {coordinate : JsonPathElement} (h : everywhere p j = true)
    (found : child j coordinate = some value) : everywhere p value = true := by
  fun_cases child j coordinate with
  | case1 members name => exact everywhere_member h (Json.mem_items_of_get? (j := .object members) found)
  | case2 elems i => exact everywhere_elem h (List.mem_of_getElem? found)
  | case3 => simp_all [child]

theorem everywhere_at {j value : Json} {path : JsonPath} (h : everywhere p j = true)
    (found : optionalNodeAt j path = some value) : everywhere p value = true := by
  induction path generalizing j with
  | nil => exact Option.some.inj found ▸ h
  | cons coordinate rest ih =>
    rw [optionalNodeAt] at found
    cases next : child j coordinate with
    | none => simp [next] at found
    | some inner =>
      rw [next] at found
      exact ih (everywhere_child h next) found

/-- Objects have each key once, as a map does. -/
def distinctKeys (j : Json) : Bool :=
  everywhere (fun | .object members => decide (members.map (·.1)).Nodup | _ => true) j

/-- The keys of an object are in the order a map has them. -/
def keysInOrder (j : Json) : Bool :=
  everywhere (fun | .object members => decide ((members.map (·.1)).Pairwise (· < ·)) | _ => true) j

theorem keysInOrder_items {j : Json} (ordered : keysInOrder j = true) : (j.items.map (·.1)).Pairwise (· < ·) := by
  cases j with
  | object members => exact of_decide_eq_true (everywhere_self ordered)
  | _ => exact List.Pairwise.nil

theorem lookup_of_ordered {members : List (String × Json)} (ordered : (members.map (·.1)).Pairwise (· < ·))
    {entry : String × Json} (member : entry ∈ members) : members.lookup entry.1 = some entry.2 :=
  lookup_of_mem (ordered.imp fun less => less.ne) member

mutual
/-- Where a property does not hold everywhere, there is a path to a value it does not hold of. -/
theorem exists_at (j : Json) (ordered : keysInOrder j = true) (fails : everywhere p j = false) :
    ∃ path node, optionalNodeAt j path = some node ∧ p node = false := by
  cases j with
  | object members =>
    rcases Bool.and_eq_false_iff.mp fails with here | inside
    · exact ⟨[], _, rfl, here⟩
    · obtain ⟨entry, member, path, node, found, bad⟩ :=
        exists_at_members members (fun entry member => everywhere_member ordered member) inside
      refine ⟨.key entry.1 :: path, node, ?_, bad⟩
      have step : child (.object members) (.key entry.1) = some entry.2 :=
        lookup_of_ordered (keysInOrder_items ordered) member
      rw [optionalNodeAt, step]
      exact found
  | array elems =>
    rcases Bool.and_eq_false_iff.mp fails with here | inside
    · exact ⟨[], _, rfl, here⟩
    · obtain ⟨elem, member, path, node, found, bad⟩ :=
        exists_at_elems elems (fun elem member => everywhere_elem ordered member) inside
      obtain ⟨i, at_i⟩ := List.mem_iff_getElem?.mp member
      refine ⟨.index i :: path, node, ?_, bad⟩
      have step : child (.array elems) (.index i) = some elem := at_i
      rw [optionalNodeAt, step]
      exact found
  | _ => exact ⟨[], _, rfl, fails⟩

theorem exists_at_members (members : List (String × Json)) (ordered : ∀ entry ∈ members, keysInOrder entry.2 = true)
    (fails : everywhereMembers p members = false) :
    ∃ entry ∈ members, ∃ path node, optionalNodeAt entry.2 path = some node ∧ p node = false := by
  cases members with
  | nil => cases fails
  | cons entry rest =>
    obtain ⟨key, value⟩ := entry
    obtain ⟨first, others⟩ := List.forall_mem_cons.mp ordered
    rcases Bool.and_eq_false_iff.mp fails with here | later
    · exact ⟨(key, value), List.mem_cons_self, exists_at value first here⟩
    · obtain ⟨entry, member, found⟩ := exists_at_members rest others later
      exact ⟨entry, List.mem_cons_of_mem _ member, found⟩

theorem exists_at_elems (elems : List Json) (ordered : ∀ elem ∈ elems, keysInOrder elem = true)
    (fails : everywhereElems p elems = false) :
    ∃ elem ∈ elems, ∃ path node, optionalNodeAt elem path = some node ∧ p node = false := by
  cases elems with
  | nil => cases fails
  | cons elem rest =>
    obtain ⟨first, others⟩ := List.forall_mem_cons.mp ordered
    rcases Bool.and_eq_false_iff.mp fails with here | later
    · exact ⟨elem, List.mem_cons_self, exists_at elem first here⟩
    · obtain ⟨elem, member, found⟩ := exists_at_elems rest others later
      exact ⟨elem, List.mem_cons_of_mem _ member, found⟩
end

/-- No array is so long that an `unsigned` cannot count its elements. -/
def countable (j : Json) : Bool :=
  everywhere (fun | .array elems => decide (elems.length < 2 ^ 32) | _ => true) j

end MonitorEventing.Schema
