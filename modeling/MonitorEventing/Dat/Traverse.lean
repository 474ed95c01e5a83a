import MonitorEventing.Dat.Device
import MonitorEventing.Lib.Graph
import MonitorEventing.Lib.Queue

/-!
# Traversing associations

`childTraverse`: from the back of a stack, with the visited devices kept. The actions get the whole table
and may change it, and what they do outside of it is a state of its own.
-/

namespace MonitorEventing.Dat
open Accessor Relation

/-- The table and the world outside of it. -/
abbrev Surroundings (σ : Type) : Type := StringMap Device × σ

abbrev Action (σ : Type) : Type := StringMap Device → Device → σ → Surroundings σ

/-- The actions in turn on the device in the table, and the device as they leave it. If one of them erases
it, the reference to it dangles. -/
def applyActions {σ : Type} (name : String) : List (Action σ) → Surroundings σ → Except Exn (Surroundings σ × Device)
  | [], s =>
    match s.1[name]? with
    | some dev => .ok (s, dev)
    | none => .error .undefined
  | callback :: rest, s =>
    match s.1[name]? with
    | some dev => applyActions name rest (callback s.1 dev s.2)
    | none => .error .undefined

/-- A device that is not in the result yet. -/
def visit {σ : Type} (actions : List (Action σ)) (s : Surroundings σ) (name : String) :
    Except Exn (Surroundings σ × Device) :=
  if name ∈ s.1 then applyActions name actions s else .error .outOfRange

/-- The children that go on the stack, the last of them to its back. -/
def pushed (predicate : Device → Bool) (dev : Device) : List String :=
  if predicate dev then dev.association.reverse else []

/-- The loop. The back of `toVisit` comes first. -/
def childFrom {σ : Type} (predicate : Device → Bool) (actions : List (Action σ)) :
    Nat → List String → List String → Surroundings σ → Option (Except Exn (List String × Surroundings σ))
  | _, [], result, s => some (.ok (result, s))
  | 0, _ :: _, _, _ => none
  | fuel + 1, name :: toVisit, result, s =>
    if name ∈ result then childFrom predicate actions fuel toVisit result s
    else
      match visit actions s name with
      | .error e => some (.error e)
      | .ok (s, dev) =>
        childFrom predicate actions fuel (pushed predicate dev ++ toVisit) (result ++ [name]) s

def childTraverse {σ : Type} (fuel : Nat) (dat : StringMap Device) (device : String) (predicate : Device → Bool)
    (actions : List (Action σ)) (world : σ) : Option (Except Exn (List String × Surroundings σ)) :=
  childFrom predicate actions fuel [device] [] (dat, world)

/-! ### What the actions keep -/

/-- Both tables have the same devices, with the same value of each. -/
def Same {β : Type} (f : Device → β) (dat dat' : StringMap Device) : Prop :=
  ∀ name : String, (dat'[name]?).map f = (dat[name]?).map f

def Keeps {σ β : Type} (f : Device → β) (callback : Action σ) : Prop :=
  ∀ dat dev world, Same f dat (callback dat dev world).1

section
variable {σ β : Type} {f : Device → β} {actions : List (Action σ)} {s : Surroundings σ} {name : String} {dev : Device}

theorem Same.trans {dat dat' dat'' : StringMap Device} (first : Same f dat dat') (second : Same f dat' dat'') :
    Same f dat dat'' := fun name => (second name).trans (first name)

theorem Same.mem_iff {dat dat' : StringMap Device} (h : Same f dat dat') (name : String) : name ∈ dat' ↔ name ∈ dat := by
  have both := congrArg Option.isSome (h name)
  rw [Option.isSome_map, Option.isSome_map] at both
  rw [Std.TreeMap.mem_iff_isSome_getElem?, Std.TreeMap.mem_iff_isSome_getElem?, both]

/-- What is left behind when an action is called on a device as it stands in the table. -/
def act (name : String) (s : Surroundings σ) (callback : Action σ) : Surroundings σ :=
  match s.1[name]? with
  | some dev => callback s.1 dev s.2
  | none => s

/-- What is left behind when the actions are called in turn on each of the devices, one device after the other. -/
def actAll (actions : List (Action σ)) (names : List String) (s : Surroundings σ) : Surroundings σ :=
  names.foldl (fun s name => actions.foldl (act name) s) s

theorem act_some (found : s.1[name]? = some dev) (callback : Action σ) : act name s callback = callback s.1 dev s.2 := by
  rw [act, found]

theorem act_same {callback : Action σ} (keep : Keeps f callback) : Same f s.1 (act name s callback).1 := by
  unfold act
  split
  · exact keep _ _ _
  · exact fun _ => rfl

theorem foldl_act_same (keep : ∀ callback ∈ actions, Keeps f callback) :
    Same f s.1 (actions.foldl (act name) s).1 := by
  induction actions generalizing s with
  | nil => exact fun _ => rfl
  | cons callback rest ih =>
    obtain ⟨here, later⟩ := List.forall_mem_cons.mp keep
    exact (act_same here).trans (ih later)

theorem actAll_same (keep : ∀ callback ∈ actions, Keeps f callback) (names : List String) :
    Same f s.1 (actAll actions names s).1 := by
  induction names generalizing s with
  | nil => exact fun _ => rfl
  | cons name rest ih => exact (foldl_act_same keep).trans ih

theorem actAll_append (actions : List (Action σ)) (names more : List String) (s : Surroundings σ) :
    actAll actions (names ++ more) s = actAll actions more (actAll actions names s) := List.foldl_append

/-- No action takes the device away, so each is called on it. -/
theorem applyActions_ok (keep : ∀ callback ∈ actions, Keeps f callback) (known : name ∈ s.1) :
    ∃ dev, applyActions name actions s = .ok (actions.foldl (act name) s, dev) ∧
      (actions.foldl (act name) s).1[name]? = some dev := by
  obtain ⟨dev, found⟩ := StringMap.mem_iff.mp known
  induction actions generalizing s dev with
  | nil => exact ⟨dev, by rw [applyActions, found]; rfl, found⟩
  | cons callback rest ih =>
    obtain ⟨here, later⟩ := List.forall_mem_cons.mp keep
    have still : name ∈ (act name s callback).1 := ((act_same here).mem_iff name).mpr known
    obtain ⟨dev', found'⟩ := StringMap.mem_iff.mp still
    rw [applyActions, found, List.foldl_cons]
    dsimp only
    rw [← act_some found callback]
    exact ih later still dev' found'

theorem visit_ok (keep : ∀ callback ∈ actions, Keeps f callback) (known : name ∈ s.1) :
    ∃ dev, visit actions s name = .ok (actAll actions [name] s, dev) ∧ (actAll actions [name] s).1[name]? = some dev := by
  rw [visit, if_pos known]
  exact applyActions_ok keep known

end

/-! ### Associations that are followed -/

def Associates (dat : StringMap Device) (a b : String) : Prop := ∃ dev, dat[a]? = some dev ∧ b ∈ dev.association

section
variable {σ : Type} (dat : StringMap Device) (predicate : Device → Bool) (actions : List (Action σ)) (world : σ)

/-- The predicate held of the device when its turn came in the traversal, as the actions on it leave it. -/
def Asked (result : List String) (a : String) : Prop :=
  ∃ before after dev, result = before ++ a :: after ∧
    (actAll actions (before ++ [a]) (dat, world)).1[a]? = some dev ∧ predicate dev = true

/-- The associations the traversal follows. -/
def Follows (result : List String) (a b : String) : Prop :=
  Associates dat a b ∧ Asked dat predicate actions world result a

variable {dat predicate actions world} {result : List String} {a x : String}

theorem Asked.later (h : Asked dat predicate actions world result x) (a : String) :
    Asked dat predicate actions world (result ++ [a]) x := by
  obtain ⟨before, after, dev, rfl, rest⟩ := h
  exact ⟨before, after ++ [a], dev, by simp, rest⟩

theorem split_last {before after : List String} (split : result ++ [a] = before ++ x :: after) :
    (before = result ∧ x = a) ∨ ∃ after', result = before ++ x :: after' := by
  rcases List.eq_nil_or_concat after with rfl | ⟨after, last, rfl⟩
  · obtain ⟨rfl, same⟩ := List.append_inj' split rfl
    exact Or.inl ⟨rfl, (List.head_eq_of_cons_eq same).symm⟩
  · rw [List.concat_eq_append, ← List.cons_append, ← List.append_assoc] at split
    exact Or.inr ⟨after, List.append_inj_left' split rfl⟩

/-- A later device does not change what was asked of the earlier ones. -/
theorem Asked.earlier (h : Asked dat predicate actions world (result ++ [a]) x) (other : x ≠ a) :
    Asked dat predicate actions world result x := by
  obtain ⟨before, after, dev, split, rest⟩ := h
  rcases split_last split with ⟨-, same⟩ | ⟨after', split⟩
  · exact absurd same other
  · exact ⟨before, after', dev, split, rest⟩

theorem asked_last_iff {dev : Device} (found : (actAll actions (result ++ [a]) (dat, world)).1[a]? = some dev)
    (fresh : a ∉ result) : Asked dat predicate actions world (result ++ [a]) a ↔ predicate dev = true := by
  constructor
  · rintro ⟨before, after, dev', split, found', holds⟩
    rcases split_last split with ⟨rfl, -⟩ | ⟨after', split⟩
    · rw [found, Option.some.injEq] at found'
      exact found' ▸ holds
    · exact absurd (split ▸ by simp) fresh
  · intro holds
    exact ⟨result, [], dev, rfl, found, holds⟩

/-! ### The loop -/

variable (dat predicate actions world) in
/-- The loop's invariant. The edges out of a device are known once it was asked. -/
structure Traversing (device : String) (toVisit result : List String) (s : Surroundings σ) : Prop where
  worklist : Graph.Worklist (Follows dat predicate actions world result) device {x | x ∈ toVisit ∧ x ∉ result}
    {x | x ∈ result ++ toVisit}
  distinct : result.Nodup
  first : (result ++ toVisit).head? = some device
  listed : ∀ x ∈ result ++ toVisit, x ∈ dat
  state : s = actAll actions result (dat, world)

variable {device name : String} {toVisit : List String} {s : Surroundings σ}

theorem Traversing.start (known : device ∈ dat) :
    Traversing dat predicate actions world device [device] [] (dat, world) := by
  refine ⟨Graph.Worklist.alone device, List.nodup_nil, rfl, ?_, rfl⟩
  intro x member
  rw [List.nil_append, List.mem_singleton] at member
  exact member ▸ known

theorem Traversing.skip (h : Traversing dat predicate actions world device (name :: toVisit) result s)
    (visited : name ∈ result) : Traversing dat predicate actions world device toVisit result s := by
  refine ⟨h.worklist.pop visited, h.distinct, ?_, ?_, h.state⟩
  · have first := h.first
    rw [List.head?_append] at first ⊢
    cases head : result.head? with
    | none => rw [List.head?_eq_none_iff.mp head] at visited; cases visited
    | some front =>
      rw [head] at first
      exact first
  · intro x member
    apply h.listed
    simp only [List.mem_append, List.mem_cons] at member ⊢
    tauto

/-- The edges out of a device that was just visited lead to what it pushes. -/
theorem follows_last_iff {dev : Device} (found : (actAll actions (result ++ [name]) (dat, world)).1[name]? = some dev)
    (fresh : name ∉ result) (children : (dat[name]?).map Device.association = some dev.association) (y : String) :
    Follows dat predicate actions world (result ++ [name]) name y ↔ y ∈ pushed predicate dev := by
  have associates : Associates dat name y ↔ y ∈ dev.association := by
    obtain ⟨dev', loaded, same⟩ := Option.map_eq_some_iff.mp children
    simp [Associates, loaded, same]
  rw [Follows, asked_last_iff found fresh, associates, pushed]
  split
  · rename_i holds
    simp [holds]
  · rename_i fails
    simp [fails]

/-- What is known of the edges when a device was visited. -/
theorem Traversing.learnt (h : Traversing dat predicate actions world device (name :: toVisit) result s)
    (fresh : name ∉ result) : Graph.Worklist (Follows dat predicate actions world (result ++ [name])) device
      {x | x ∈ name :: toVisit ∧ x ∉ result} {x | x ∈ result ++ name :: toVisit} := by
  apply h.worklist.learn
  · intro x y edge
    exact ⟨edge.1, edge.2.later name⟩
  · intro x _ done y edge
    refine ⟨edge.1, edge.2.earlier ?_⟩
    rintro rfl
    exact done ⟨List.mem_cons_self, fresh⟩

theorem Traversing.visit (closed : ∀ a b, Associates dat a b → b ∈ dat)
    (keep : ∀ callback ∈ actions, Keeps Device.association callback)
    (h : Traversing dat predicate actions world device (name :: toVisit) result s) (fresh : name ∉ result) :
    ∃ s' dev, Dat.visit actions s name = .ok (s', dev) ∧ (dat[name]?).map Device.association = some dev.association ∧
      Traversing dat predicate actions world device (pushed predicate dev ++ toVisit) (result ++ [name]) s' := by
  have known : name ∈ dat := h.listed name (by simp)
  have before : Same Device.association dat s.1 := h.state ▸ actAll_same keep result
  obtain ⟨dev, run, found⟩ := visit_ok keep ((before.mem_iff name).mpr known)
  have state : actAll actions [name] s = actAll actions (result ++ [name]) (dat, world) := by
    rw [actAll_append, ← h.state]
  rw [state] at run found
  have kept : Same Device.association dat (actAll actions (result ++ [name]) (dat, world)).1 := actAll_same keep _
  have children : (dat[name]?).map Device.association = some dev.association := by
    rw [← kept name, found]
    rfl
  have edges : ∀ y, Follows dat predicate actions world (result ++ [name]) name y ↔ y ∈ pushed predicate dev :=
    follows_last_iff found fresh children
  have first := h.first
  refine ⟨_, dev, run, children, (h.learnt fresh).push fresh edges, ?_, ?_, ?_, rfl⟩
  · rw [← List.concat_eq_append]
    exact List.Nodup.concat fresh h.distinct
  · rw [List.append_assoc, List.singleton_append]
    rw [List.head?_append] at first ⊢
    exact first
  · intro x member
    rcases List.mem_append.mp member with visited | waits
    · exact h.listed x (by simp at visited ⊢; tauto)
    · rcases List.mem_append.mp waits with added | waits
      · exact closed name x ((edges x).mpr added).1
      · exact h.listed x (by simp [waits])

variable (dat) in
/-- The length of the association list of a device. -/
def links (name : String) : Nat := ((dat[name]?).map fun dev => dev.association.length).getD 0

variable (dat) in
def associationCount : Nat := ∑ name ∈ dat.keys.toFinset, links dat name

theorem work_nil : Queue.work dat.keys.toFinset (links dat) [] = associationCount dat := by
  rw [Queue.work, List.toFinset_nil, Finset.sdiff_empty, associationCount]

variable (dat predicate actions world) in
/-- What a traversal returns and leaves behind. -/
structure Traversed (device : String) (result : List String) (s : Surroundings σ) : Prop where
  first : result.head? = some device
  once : result.Nodup
  reached : ∀ x, x ∈ result ↔ ReflTransGen (Follows dat predicate actions world result) device x
  applied : s = actAll actions result (dat, world)

theorem Traversing.ended (h : Traversing dat predicate actions world device [] result s) :
    Traversed dat predicate actions world device result s := by
  have first := h.first
  have worklist := h.worklist
  simp only [List.append_nil, List.not_mem_nil, false_and] at first worklist
  exact ⟨first, h.distinct, worklist.mem_iff, h.state⟩

theorem childFrom_ok (closed : ∀ a b, Associates dat a b → b ∈ dat)
    (keep : ∀ callback ∈ actions, Keeps Device.association callback) {fuel : Nat}
    (h : Traversing dat predicate actions world device toVisit result s)
    (enough : toVisit.length + Queue.work dat.keys.toFinset (links dat) result ≤ fuel) :
    ∃ found s', childFrom predicate actions fuel toVisit result s = some (.ok (found, s')) ∧
      Traversed dat predicate actions world device found s' := by
  induction fuel generalizing toVisit result s with
  | zero =>
    have empty : toVisit = [] := List.eq_nil_of_length_eq_zero (by omega)
    subst empty
    exact ⟨result, s, by rw [childFrom], h.ended⟩
  | succ fuel ih =>
    cases toVisit with
    | nil => exact ⟨result, s, by rw [childFrom], h.ended⟩
    | cons name toVisit =>
      rw [List.length_cons] at enough
      unfold childFrom
      by_cases visited : name ∈ result
      · rw [if_pos visited]
        exact ih (h.skip visited) (by omega)
      · rw [if_neg visited]
        obtain ⟨s', dev, run, children, next⟩ := h.visit closed keep visited
        have known : name ∈ dat.keys.toFinset := by
          rw [List.mem_toFinset, Std.TreeMap.mem_keys]
          exact h.listed name (by simp)
        have spent : links dat name + Queue.work dat.keys.toFinset (links dat) (result ++ [name]) =
            Queue.work dat.keys.toFinset (links dat) result := Queue.work_visit known visited
        have most : (pushed predicate dev).length ≤ links dat name := by
          obtain ⟨dev', found, same⟩ := Option.map_eq_some_iff.mp children
          rw [links, found, pushed]
          split
          · simp [same]
          · simp
        rw [run]
        apply ih next
        rw [List.length_append]
        omega

end

/-! ### Answers that stay -/

/-- The associations of devices that the predicate holds of in the table. -/
def AssociatesIf (dat : StringMap Device) (predicate : Device → Bool) (a b : String) : Prop :=
  ∃ dev, dat[a]? = some dev ∧ predicate dev = true ∧ b ∈ dev.association

section
variable {σ : Type} {predicate : Device → Bool} {actions : List (Action σ)} {world : σ}
  {dat : StringMap Device} {s : Surroundings σ} {device : String} {result : List String}

/-- Where no action changes an answer, a device was asked what it answers in the table. -/
theorem asked_iff_of_keeps (keep : ∀ callback ∈ actions, Keeps predicate callback) {a : String} (member : a ∈ result) :
    Asked dat predicate actions world result a ↔ ∃ dev, dat[a]? = some dev ∧ predicate dev = true := by
  have answer : ∀ names, ((actAll actions names (dat, world)).1[a]?).map predicate = (dat[a]?).map predicate :=
    fun names => actAll_same keep names a
  constructor
  · rintro ⟨before, after, dev, _, found, holds⟩
    have same := answer (before ++ [a])
    rw [found, Option.map_some, eq_comm, Option.map_eq_some_iff] at same
    obtain ⟨dev', loaded, same⟩ := same
    exact ⟨dev', loaded, same.trans holds⟩
  · rintro ⟨dev, loaded, holds⟩
    obtain ⟨before, after, rfl⟩ := List.append_of_mem member
    have same := answer (before ++ [a])
    rw [loaded, Option.map_some, Option.map_eq_some_iff] at same
    obtain ⟨dev', found, same⟩ := same
    exact ⟨before, after, dev', rfl, found, same.trans holds⟩

/-- Then the traversal returns what is reachable in the table it was given. -/
theorem Traversed.reached_of_keeps (h : Traversed dat predicate actions world device result s)
    (keep : ∀ callback ∈ actions, Keeps predicate callback) (x : String) :
    x ∈ result ↔ ReflTransGen (AssociatesIf dat predicate) device x := by
  have start : device ∈ result := (h.reached device).mpr ReflTransGen.refl
  constructor
  · intro member
    refine ReflTransGen.mono (fun a b edge => ?_) _ _ ((h.reached x).mp member)
    obtain ⟨⟨dev, found, child⟩, asked⟩ := edge
    have visited : a ∈ result := by
      obtain ⟨before, after, _, rfl, _⟩ := asked
      simp
    obtain ⟨dev', found', holds⟩ := (asked_iff_of_keeps keep visited).mp asked
    rw [found, Option.some.injEq] at found'
    exact ⟨dev, found, found' ▸ holds, child⟩
  · refine Graph.mem_of_reachable (T := {x | x ∈ result}) (fun a member b edge => ?_) start
    obtain ⟨dev, found, holds, child⟩ := edge
    have asked : Asked dat predicate actions world result a :=
      (asked_iff_of_keeps keep member).mpr ⟨dev, found, holds⟩
    exact (h.reached b).mpr (((h.reached a).mp member).tail ⟨⟨dev, found, child⟩, asked⟩)

end

/-- In a table closed under association a traversal ends with the devices it reaches, each once, the start first, and
with the actions applied to these in their order. -/
theorem childTraverse_traversed {σ : Type} (dat : StringMap Device) (closed : ∀ a b, Associates dat a b → b ∈ dat)
    (device : String) (known : device ∈ dat) (predicate : Device → Bool) (actions : List (Action σ))
    (keep : ∀ callback ∈ actions, Keeps Device.association callback) (world : σ) (fuel : Nat)
    (enough : associationCount dat < fuel) :
    ∃ result s, childTraverse fuel dat device predicate actions world = some (.ok (result, s)) ∧
      Traversed dat predicate actions world device result s ∧
      ((∀ callback ∈ actions, Keeps predicate callback) →
        ∀ x, x ∈ result ↔ ReflTransGen (AssociatesIf dat predicate) device x) := by
  have start : Traversing dat predicate actions world device [device] [] (dat, world) := Traversing.start known
  have bound : [device].length + Queue.work dat.keys.toFinset (links dat) [] ≤ fuel := by
    rw [List.length_singleton, work_nil]
    omega
  obtain ⟨result, s, run, traversed⟩ := childFrom_ok closed keep start bound
  exact ⟨result, s, run, traversed, traversed.reached_of_keeps⟩

def boardJson (association : List String) : Json :=
  .object [("association", .array (association.map .string)), ("erot_control", .array []),
    ("firmware_status", .array []), ("interface_status", .array []), ("pin_status", .array []),
    ("power_rail", .array []), ("protocol_status", .array [])]

/-- A board with a way back and two ways to one device. -/
def board : Json :=
  .object [("GPU_0", boardJson ["HSC_0", "Retimer_0"]), ("HSC_0", boardJson []),
    ("Retimer_0", boardJson ["GPU_0", "HSC_0"])]

/-- An action that only notes the device. -/
def note : Action (List String) := fun dat dev noted => (dat, noted ++ [dev.name])

theorem childTraverse_traversed_board : ∃ dat : DAT, DAT.populateMap .empty board = .ok dat ∧
    ∃ result s, childTraverse 5 dat.devices "GPU_0" (fun _ => true) [note] [] = some (.ok (result, s)) ∧
      Traversed dat.devices (fun _ => true) [note] [] "GPU_0" result s ∧
      (∀ x, x ∈ result ↔ ReflTransGen (AssociatesIf dat.devices fun _ => true) "GPU_0" x) ∧
      result = ["GPU_0", "Retimer_0", "HSC_0"] ∧ s.2 = ["GPU_0", "Retimer_0", "HSC_0"] := by
  have run : (DAT.populateMap .empty board).map (fun dat =>
      (dat.devices.toList.all fun entry => entry.2.association.all fun child => decide (child ∈ dat.devices),
        decide ("GPU_0" ∈ dat.devices), decide (associationCount dat.devices < 5),
        decide (((childTraverse 5 dat.devices "GPU_0" (fun _ => true) [note] []).bind Except.toOption).map
          (fun ended => (ended.1, ended.2.2)) =
            some (["GPU_0", "Retimer_0", "HSC_0"], ["GPU_0", "Retimer_0", "HSC_0"])))) = .ok (true, true, true, true) := by
    decide +kernel
  obtain ⟨dat, loaded, facts⟩ := map_ok run
  simp only [Prod.mk.injEq, List.all_eq_true, decide_eq_true_eq] at facts
  obtain ⟨closed, known, few, noted⟩ := facts
  have keep : ∀ callback ∈ [note], Keeps Device.association callback := by
    intro callback member
    rw [List.mem_singleton.mp member]
    exact fun _ _ _ _ => rfl
  have answers : ∀ callback ∈ [note], Keeps (fun _ => true) callback := fun callback member => by
    rw [List.mem_singleton.mp member]
    exact fun _ _ _ _ => rfl
  have inside : ∀ a b, Associates dat.devices a b → b ∈ dat.devices := by
    rintro a b ⟨dev, found, child⟩
    exact closed (a, dev) (Std.TreeMap.mem_toList_iff_getElem?_eq_some.mpr found) b child
  obtain ⟨result, s, ended, traversed, reached⟩ :=
    childTraverse_traversed dat.devices inside "GPU_0" known (fun _ => true) [note] keep [] 5 few
  rw [ended] at noted
  obtain ⟨visited, calls⟩ := Prod.mk.inj (Option.some.inj noted)
  exact ⟨dat, loaded, result, s, ended, traversed, reached answers, visited, calls⟩

end MonitorEventing.Dat
