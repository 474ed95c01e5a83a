import MonitorEventing.Schema.JsonPath
import MonitorEventing.DeviceId.Pattern

/-!
# JSON patterns

A JSON value whose strings are device id patterns. It is evaluated in place, on a copy. What an exception says
is a parameter, for the texts of those the standard library throws.
-/

namespace MonitorEventing.Schema
open DeviceId
open Json (memberOf putMember withMember elementOf withElement)

/-! ### Evaluation -/

section
variable (what : Exn → String) (index : PatternIndex)

/-- A string. Every exception comes out as one that names the pattern and the index. -/
def evalString (str : String) : Except Exn String :=
  match DeviceIdPattern.ofString str >>= fun p => p.eval index with
  | .ok value => .ok value
  | .error e =>
    .error (.runtimeError ("Error when evaluating pattern '" ++ str ++ "' at " ++ index.print ++ ": " ++ what e))

mutual
def evalJson : Json → Json → Except Exn Json
  | .string str, _ => do
    let value ← evalString what index str
    pure (.string value)
  | .object members, result => evalMembers members result
  | .array elems, result => evalElems elems 0 result
  | jsonPattern, _ => pure jsonPattern

def evalMembers : List (String × Json) → Json → Except Exn Json
  | [], result => pure result
  | (key, value) :: rest, result => do
    let slot ← memberOf result key
    let value ← evalJson value slot
    evalMembers rest (withMember result key value)

/-- The loop over an array, from the element `i`. The counter wraps before it gets to a size of 2^32 or more, so
that loop has no end. -/
def evalElems : List Json → Nat → Json → Except Exn Json
  | [], i, result => if i < 2 ^ 32 then pure result else .error .undefined
  | elem :: rest, i, result =>
    if i < 2 ^ 32 then do
      let slot ← elementOf result i
      let value ← evalJson elem slot
      evalElems rest (i + 1) (withElement result i value)
    else .error .undefined
end

structure JsonPattern where
  js : Json

def JsonPattern.eval (p : JsonPattern) : Except Exn Json := evalJson what index p.js p.js

/-! ### Without the copy -/

mutual
def evaluate : Json → Except Exn Json
  | .string str => do
    let value ← evalString what index str
    pure (.string value)
  | .object members => (evaluateMembers members).map .object
  | .array elems => (evaluateElems 0 elems).map .array
  | j => pure j

def evaluateMembers : List (String × Json) → Except Exn (List (String × Json))
  | [] => pure []
  | (key, value) :: rest => do
    let value ← evaluate value
    let values ← evaluateMembers rest
    pure ((key, value) :: values)

def evaluateElems : Nat → List Json → Except Exn (List Json)
  | i, [] => if i < 2 ^ 32 then pure [] else .error .undefined
  | i, elem :: rest =>
    if i < 2 ^ 32 then do
      let value ← evaluate elem
      let values ← evaluateElems (i + 1) rest
      pure (value :: values)
    else .error .undefined
end

end

variable {what : Exn → String} {index : PatternIndex}

theorem putMember_here {before after : List (String × Json)} {key : String}
    (ordered : (before.map (·.1)).Pairwise (· < ·)) (above : ∀ entry ∈ before, entry.1 < key) (old value : Json) :
    putMember (before ++ (key, old) :: after) key value = before ++ (key, value) :: after := by
  induction before with
  | nil => simp [putMember]
  | cons entry before ih =>
    obtain ⟨other, kept⟩ := entry
    have less : other < key := above _ List.mem_cons_self
    rw [List.cons_append, putMember, if_neg less.ne, if_neg less.asymm, ih]
    · rfl
    · exact (List.pairwise_cons.mp ordered).2
    · exact fun entry member => above entry (List.mem_cons_of_mem _ member)

theorem lookup_here {before after : List (String × Json)} {key : String} (above : ∀ entry ∈ before, entry.1 < key)
    (value : Json) : (before ++ (key, value) :: after).lookup key = some value := by
  induction before with
  | nil => exact List.lookup_cons_self
  | cons entry before ih =>
    rw [List.cons_append, lookup_cons_if, if_neg (above entry List.mem_cons_self).ne]
    exact ih fun entry member => above entry (List.mem_cons_of_mem _ member)

theorem withElement_here (before after : List Json) (old value : Json) :
    withElement (.array (before ++ old :: after)) before.length value = .array (before ++ value :: after) := by
  have fits : before.length + 1 - (before ++ old :: after).length = 0 := by
    rw [List.length_append, List.length_cons]
    omega
  rw [withElement, fits, List.replicate_zero, List.append_nil, List.set_append_right _ _ le_rfl, Nat.sub_self]
  rfl

mutual
/-- On a copy of itself a pattern is evaluated as if it was built anew. -/
theorem evalJson_eq (j : Json) (ordered : keysInOrder j = true) : evalJson what index j j = evaluate what index j := by
  cases j with
  | object members =>
    exact evalMembers_eq members [] (keysInOrder_items ordered) (fun entry member => everywhere_member ordered member)
  | array elems => exact evalElems_eq elems [] (fun elem member => everywhere_elem ordered member)
  | _ => rfl

theorem evalMembers_eq (rest done : List (String × Json)) (increasing : ((done ++ rest).map (·.1)).Pairwise (· < ·))
    (ordered : ∀ entry ∈ rest, keysInOrder entry.2 = true) :
    evalMembers what index rest (.object (done ++ rest)) =
      (evaluateMembers what index rest).map fun values => .object (done ++ values) := by
  cases rest with
  | nil => rfl
  | cons entry rest =>
    obtain ⟨key, old⟩ := entry
    obtain ⟨here, later⟩ := List.forall_mem_cons.mp ordered
    have split := increasing
    rw [List.map_append, List.pairwise_append] at split
    obtain ⟨before, -, across⟩ := split
    have above : ∀ entry ∈ done, entry.1 < key := fun entry member =>
      across entry.1 (List.mem_map_of_mem member) key List.mem_cons_self
    have own := evalJson_eq old here
    unfold evalMembers evaluateMembers
    simp only [memberOf, lookup_here above, Option.getD_some, bind, Except.bind, own]
    cases evaluate what index old with
    | error e => rfl
    | ok value =>
      have next := evalMembers_eq rest (done ++ [(key, value)])
        (by simpa only [List.map_append, List.map_cons, List.append_assoc, List.singleton_append] using increasing) later
      simp only [List.append_assoc, List.singleton_append] at next
      simp only [withMember, putMember_here before above, next]
      cases evaluateMembers what index rest with
      | error e => rfl
      | ok values => rfl

theorem evalElems_eq (rest done : List Json) (ordered : ∀ elem ∈ rest, keysInOrder elem = true) :
    evalElems what index rest done.length (.array (done ++ rest)) =
      (evaluateElems what index done.length rest).map fun values => .array (done ++ values) := by
  cases rest with
  | nil =>
    unfold evalElems evaluateElems
    split
    · rfl
    · rfl
  | cons old rest =>
    obtain ⟨here, later⟩ := List.forall_mem_cons.mp ordered
    have own := evalJson_eq old here
    have slot : (done ++ old :: rest).getD done.length .null = old := by simp
    unfold evalElems evaluateElems
    split
    · simp only [elementOf, slot, bind, Except.bind, own]
      cases evaluate what index old with
      | error e => rfl
      | ok value =>
        have next := evalElems_eq rest (done ++ [value]) later
        simp only [List.append_assoc, List.singleton_append, List.length_append, List.length_singleton] at next
        simp only [withElement_here, next]
        cases evaluateElems what index (done.length + 1) rest with
        | error e => rfl
        | ok values => rfl
    · rfl
end

theorem eval_eq (p : JsonPattern) (ordered : keysInOrder p.js = true) : p.eval what index = evaluate what index p.js :=
  evalJson_eq p.js ordered

/-! ### Structure -/

theorem evaluateMembers_ok : ∀ {members values : List (String × Json)}, evaluateMembers what index members = .ok values →
    List.Forall₂ (fun entry value => entry.1 = value.1 ∧ evaluate what index entry.2 = .ok value.2) members values
  | [], values, run => by
    rw [← pure_ok_iff.mp run]
    exact List.Forall₂.nil
  | (key, value) :: rest, values, run => by
    obtain ⟨first, here, run⟩ := bind_ok run
    obtain ⟨others, later, run⟩ := bind_ok run
    rw [← pure_ok_iff.mp run]
    exact List.Forall₂.cons ⟨rfl, here⟩ (evaluateMembers_ok later)

theorem evaluateElems_ok : ∀ {elems values : List Json} {i : Nat}, evaluateElems what index i elems = .ok values →
    List.Forall₂ (fun elem value => evaluate what index elem = .ok value) elems values
  | [], values, i, run => by
    rw [evaluateElems] at run
    split at run
    · rw [← pure_ok_iff.mp run]
      exact List.Forall₂.nil
    · cases run
  | elem :: rest, values, i, run => by
    rw [evaluateElems] at run
    split at run
    · obtain ⟨first, here, run⟩ := bind_ok run
      obtain ⟨others, later, run⟩ := bind_ok run
      rw [← pure_ok_iff.mp run]
      exact List.Forall₂.cons here (evaluateElems_ok later)
    · cases run

/-- What is evaluated has the value inside evaluated, or neither has one. -/
def Evaluated (what : Exn → String) (index : PatternIndex) (j value : Option Json) : Prop :=
  Option.Rel (fun j value => evaluate what index j = .ok value) j value

theorem lookup_evaluated {members values : List (String × Json)}
    (each : List.Forall₂ (fun entry value => entry.1 = value.1 ∧ evaluate what index entry.2 = .ok value.2) members values)
    (key : String) : Evaluated what index (members.lookup key) (values.lookup key) := by
  induction each with
  | nil => exact Option.Rel.none
  | @cons entry value _ _ same _ ih =>
    obtain ⟨other, inner⟩ := entry
    obtain ⟨rfl, here⟩ := same
    rw [List.lookup_cons, List.lookup_cons]
    split
    · exact Option.Rel.some here
    · exact ih

theorem getElem?_evaluated {elems values : List Json}
    (each : List.Forall₂ (fun elem value => evaluate what index elem = .ok value) elems values) (i : Nat) :
    Evaluated what index elems[i]? values[i]? := by
  induction each generalizing i with
  | nil => exact Option.Rel.none
  | cons here _ ih =>
    cases i with
    | zero => exact Option.Rel.some here
    | succ i => exact ih i

theorem child_evaluated {j value : Json} (run : evaluate what index j = .ok value) (coordinate : JsonPathElement) :
    Evaluated what index (child j coordinate) (child value coordinate) := by
  cases j with
  | object members =>
    obtain ⟨values, inner, rfl⟩ := map_ok run
    cases coordinate with
    | key name => exact lookup_evaluated (evaluateMembers_ok inner) name
    | index i => exact Option.Rel.none
  | array elems =>
    obtain ⟨values, inner, rfl⟩ := map_ok run
    cases coordinate with
    | key name => exact Option.Rel.none
    | index i => exact getElem?_evaluated (evaluateElems_ok inner) i
  | string str =>
    obtain ⟨text, -, run⟩ := bind_ok run
    rw [← pure_ok_iff.mp run]
    exact Option.Rel.none
  | _ =>
    rw [← pure_ok_iff.mp run]
    exact Option.Rel.none

theorem nodeAt_evaluated {j value : Json} (run : evaluate what index j = .ok value) (path : JsonPath) :
    Evaluated what index (optionalNodeAt j path) (optionalNodeAt value path) := by
  induction path generalizing j value with
  | nil => exact Option.Rel.some run
  | cons coordinate rest ih =>
    rw [optionalNodeAt, optionalNodeAt]
    have step := child_evaluated run coordinate
    generalize child j coordinate = inside, child value coordinate = insideValue at step
    cases step with
    | none => exact Option.Rel.none
    | some inner => exact ih inner

/-! ### Failure -/

/-- A pattern that has a value at the index. -/
def evaluates (index : PatternIndex) (str : String) : Bool :=
  match DeviceIdPattern.ofString str >>= fun p => p.eval index with
  | .ok _ => true
  | .error _ => false

def leafEvaluates (index : PatternIndex) : Json → Bool
  | .string str => evaluates index str
  | _ => true

def evaluable (index : PatternIndex) (j : Json) : Bool := everywhere (leafEvaluates index) j

mutual
/-- Going through the value in order, 2^32 elements of one array are passed, and no string that fails before. -/
def endless (index : PatternIndex) : Json → Bool
  | .object members => endlessMembers index members
  | .array elems => endlessElems index 0 elems
  | _ => false

def endlessMembers (index : PatternIndex) : List (String × Json) → Bool
  | [] => false
  | (_, value) :: rest => endless index value || (evaluable index value && endlessMembers index rest)

def endlessElems (index : PatternIndex) : Nat → List Json → Bool
  | i, [] => decide (2 ^ 32 ≤ i)
  | i, elem :: rest =>
    if i < 2 ^ 32 then endless index elem || (evaluable index elem && endlessElems index (i + 1) rest) else true
end

/-- The three ways an evaluation ends. -/
inductive Outcome {α : Type} : Bool → Bool → Except Exn α → Prop where
  | value (a : α) : Outcome false true (.ok a)
  | thrown (message : String) : Outcome false false (.error (.runtimeError message))
  | never (fine : Bool) : Outcome true fine (.error .undefined)

theorem Outcome.map {α β : Type} {stuck fine : Bool} {x : Except Exn α} (h : Outcome stuck fine x) (f : α → β) :
    Outcome stuck fine (x.map f) := by
  cases h with
  | value a => exact .value (f a)
  | thrown message => exact .thrown message
  | never => exact .never fine

theorem Outcome.cons {α β : Type} {stuck stuck' fine fine' : Bool} {x : Except Exn α} {y : Except Exn (List β)}
    (first : Outcome stuck fine x) (rest : Outcome stuck' fine' y) (f : α → β) :
    Outcome (stuck || (fine && stuck')) (fine && fine') (do let a ← x; let bs ← y; pure (f a :: bs)) := by
  cases first with
  | never => exact .never _
  | thrown message => exact .thrown message
  | value a =>
    cases rest with
    | never => exact .never _
    | thrown message => exact .thrown message
    | value bs => exact .value (f a :: bs)

theorem evalString_outcome (str : String) : Outcome false (evaluates index str) (evalString what index str) := by
  unfold evaluates evalString
  cases DeviceIdPattern.ofString str >>= fun p => p.eval index with
  | ok value => exact .value value
  | error e => exact .thrown _

mutual
theorem evaluate_outcome (j : Json) : Outcome (endless index j) (evaluable index j) (evaluate what index j) := by
  cases j with
  | string str => exact (evalString_outcome str).map Json.string
  | object members =>
    have inside : evaluable index (.object members) = everywhereMembers (leafEvaluates index) members := by
      simp [evaluable, everywhere, leafEvaluates]
    rw [inside]
    exact (evaluateMembers_outcome members).map Json.object
  | array elems =>
    have inside : evaluable index (.array elems) = everywhereElems (leafEvaluates index) elems := by
      simp [evaluable, everywhere, leafEvaluates]
    rw [inside]
    exact (evaluateElems_outcome elems 0).map Json.array
  | _ => exact .value _

theorem evaluateMembers_outcome (members : List (String × Json)) : Outcome (endlessMembers index members)
    (everywhereMembers (leafEvaluates index) members) (evaluateMembers what index members) := by
  cases members with
  | nil => exact .value []
  | cons entry rest =>
    obtain ⟨key, value⟩ := entry
    exact (evaluate_outcome value).cons (evaluateMembers_outcome rest) fun value => (key, value)

theorem evaluateElems_outcome (elems : List Json) (i : Nat) : Outcome (endlessElems index i elems)
    (everywhereElems (leafEvaluates index) elems) (evaluateElems what index i elems) := by
  cases elems with
  | nil =>
    unfold endlessElems evaluateElems
    by_cases counted : i < 2 ^ 32
    · rw [if_pos counted, decide_eq_false (by omega)]
      exact .value []
    · rw [if_neg counted, decide_eq_true (by omega)]
      exact .never _
  | cons elem rest =>
    unfold endlessElems evaluateElems
    split
    · exact (evaluate_outcome elem).cons (evaluateElems_outcome rest (i + 1)) id
    · exact .never _
end

theorem evaluate_endless {j : Json} (stuck : endless index j = true) : evaluate what index j = .error .undefined := by
  have outcome : Outcome (endless index j) (evaluable index j) (evaluate what index j) := evaluate_outcome j
  rw [stuck] at outcome
  generalize evaluable index j = fine, evaluate what index j = run at outcome ⊢
  cases outcome
  rfl

/-- A string that is no pattern, or has no value at the index. -/
def HasBadString (index : PatternIndex) (j : Json) : Prop :=
  ∃ path str, nodeAt j path = .ok (.string str) ∧
    ¬ ∃ p value, DeviceIdPattern.ofString str = .ok p ∧ p.eval index = .ok value

theorem evaluates_iff {str : String} :
    evaluates index str = true ↔ ∃ p value, DeviceIdPattern.ofString str = .ok p ∧ p.eval index = .ok value := by
  unfold evaluates
  cases DeviceIdPattern.ofString str with
  | error e => simp [bind, Except.bind]
  | ok p => cases run : p.eval index <;> simp [bind, Except.bind, run]

theorem hasBadString_iff {j : Json} (ordered : keysInOrder j = true) :
    HasBadString index j ↔ evaluable index j = false := by
  simp only [HasBadString, nodeAt_ok_iff, ← evaluates_iff, Bool.not_eq_true]
  constructor
  · intro bad
    obtain ⟨path, str, here, fails⟩ := bad
    rw [← Bool.not_eq_true]
    intro all
    have good : leafEvaluates index (.string str) = true := everywhere_self (everywhere_at all here)
    exact absurd good (by rw [leafEvaluates, fails]; decide)
  · intro some
    obtain ⟨path, node, here, fails⟩ := exists_at j ordered some
    cases node with
    | string str => exact ⟨path, str, here, fails⟩
    | _ => cases fails

def isLeaf : Json → Bool
  | .object _ => false
  | .array _ => false
  | _ => true

/-- What an evaluation keeps, and when it throws. -/
def Faithful (what : Exn → String) (index : PatternIndex) (js : Json) : Prop :=
  (∀ result, (JsonPattern.mk js).eval what index = .ok result → ∀ path,
    (contains js path = true ↔ contains result path = true) ∧
    ∀ node, nodeAt js path = .ok node →
      (∃ value, nodeAt result path = .ok value ∧ (JsonPattern.mk node).eval what index = .ok value) ∧
      (isLeaf node = true → (∀ str, node ≠ .string str) → nodeAt result path = .ok node)) ∧
  ((∃ e, e ≠ Exn.undefined ∧ (JsonPattern.mk js).eval what index = .error e) ↔ HasBadString index js)

theorem eval_throws_iff (js : Json) (ordered : keysInOrder js = true) :
    (∃ e, e ≠ Exn.undefined ∧ (JsonPattern.mk js).eval what index = .error e) ↔
      endless index js = false ∧ evaluable index js = false := by
  rw [eval_eq _ ordered]
  have outcome : Outcome (endless index js) (evaluable index js) (evaluate what index js) := evaluate_outcome js
  generalize endless index js = stuck, evaluable index js = fine, evaluate what index js = run at outcome
  cases outcome <;> simp

/-- A value that is neither a string nor has others inside stays as it is. -/
theorem evaluate_leaf {node : Json} (leaf : isLeaf node = true) (plain : ∀ str, node ≠ .string str) :
    evaluate what index node = .ok node := by
  cases node with
  | object _ => cases leaf
  | array _ => cases leaf
  | string str => exact absurd rfl (plain str)
  | _ => rfl

/-- The accessor of a port, one of several on one of several switches. -/
def portAccessor : Json :=
  .object [("check", .object [("not_equal", .string "0")]), ("object", .string "NVSwitch_[0-3]/Ports/NVLink_[0-39]"),
    ("property", .string "FlitCRCCount"), ("type", .string "DBUS")]

/-- A string that is no pattern, behind a row of other elements. -/
def longRow (n : Nat) : Json := .array (List.replicate n .null ++ [.string "["])

end MonitorEventing.Schema
