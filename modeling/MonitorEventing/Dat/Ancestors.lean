import MonitorEventing.Dat.Traverse

/-!
# Traversing parents

`parentTraverse`: from the front of a queue, with no record of the visited devices. It goes through the
ancestors as through a tree, so that it visits a device once for every way up to it, and goes round a
circle for ever.
-/

namespace MonitorEventing.Dat
open Accessor Relation

/-- An action on a device of the table, with what it does outside of the table. -/
abbrev NodeAction (σ : Type) : Type := Device → Status → σ → Device × σ

def hasParents (dev : Device) : Bool := decide (dev.parents.length > 0)

def setHealthProperties {σ : Type} : NodeAction σ := fun targetDevice status world =>
  ({ targetDevice with healthStatus :=
      { targetDevice.healthStatus with healthRollup := status.healthRollup, triState := status.triState } }, world)

def setOriginOfCondition {σ : Type} : NodeAction σ := fun targetDevice status world =>
  ({ targetDevice with healthStatus :=
      { targetDevice.healthStatus with originOfCondition := status.originOfCondition } }, world)

/-- The actions of `process`. -/
def parentCallbacks : List (NodeAction Unit) := [setHealthProperties, setOriginOfCondition]

/-- The status handed to the actions: the rollup is the health of the device. -/
def statusOf (dev : Device) (device : String) : Status :=
  { health := dev.healthStatus.health, healthRollup := dev.healthStatus.health, originOfCondition := device,
    triState := dev.healthStatus.triState }

def applyNode {σ : Type} (actions : List (NodeAction σ)) (status : Status) (node : Device) (world : σ) : Device × σ :=
  actions.foldl (fun s callback => callback s.1 status s.2) (node, world)

/-- The parents that go to the queue. -/
def raised (comparator : Device → Bool) (node : Device) : List String := if comparator node then node.parents else []

/-- The loop. A name that is not in the table is passed over. -/
def parentFrom {σ : Type} (comparator : Device → Bool) (actions : List (NodeAction σ)) (status : Status) :
    Nat → List String → Surroundings σ → Option (Surroundings σ)
  | _, [], s => some s
  | 0, _ :: _, _ => none
  | fuel + 1, deviceName :: fringe, s =>
    match s.1[deviceName]? with
    | none => parentFrom comparator actions status fuel fringe s
    | some node =>
      let (node, world) := applyNode actions status node s.2
      parentFrom comparator actions status fuel (fringe ++ raised comparator node)
        (s.1.insert deviceName node, world)

def parentTraverse {σ : Type} (fuel : Nat) (dat : StringMap Device) (device : String) (comparator : Device → Bool)
    (actions : List (NodeAction σ)) (world : σ) : Option (Surroundings σ) :=
  match dat[device]? with
  | none => some (dat, world)
  | some dev => parentFrom comparator actions (statusOf dev device) fuel [device] (dat, world)

/-! ### Visits -/

def KeepsOn {σ β : Type} (f : Device → β) (callback : NodeAction σ) : Prop :=
  ∀ node status world, f (callback node status world).1 = f node

/-- All actions on a device of the table. -/
def applyAt {σ : Type} (actions : List (NodeAction σ)) (status : Status) (s : Surroundings σ) (name : String) :
    Surroundings σ :=
  match s.1[name]? with
  | none => s
  | some node => (s.1.insert name (applyNode actions status node s.2).1, (applyNode actions status node s.2).2)

section
variable {σ β : Type} {f : Device → β} {actions : List (NodeAction σ)} {status : Status} {s : Surroundings σ}
  {name : String} {node : Device} {names : List String}

theorem applyNode_keeps (keep : ∀ callback ∈ actions, KeepsOn f callback) (node : Device) (world : σ) :
    f (applyNode actions status node world).1 = f node := by
  unfold applyNode
  induction actions generalizing node world with
  | nil => rfl
  | cons callback rest ih =>
    obtain ⟨here, later⟩ := List.forall_mem_cons.mp keep
    rw [List.foldl_cons]
    exact (ih later (callback node status world).1 (callback node status world).2).trans (here node status world)

theorem applyAt_same (keep : ∀ callback ∈ actions, KeepsOn f callback) (s : Surroundings σ) (name : String) :
    Same f s.1 (applyAt actions status s name).1 := by
  intro other
  unfold applyAt
  split
  · rfl
  · rename_i node found
    rw [StringMap.getElem?_insert]
    split
    · rename_i same
      rw [← same, found, Option.map_some, Option.map_some, applyNode_keeps keep]
    · rfl

theorem foldl_applyAt_same (keep : ∀ callback ∈ actions, KeepsOn f callback) (names : List String)
    (s : Surroundings σ) : Same f s.1 (names.foldl (applyAt actions status) s).1 := by
  induction names generalizing s with
  | nil => exact fun _ => rfl
  | cons name rest ih => exact (applyAt_same keep s name).trans (ih (applyAt actions status s name))

end

/-! ### The loop -/

/-- The parents of a device that the comparator holds of, those of the table. -/
def ancestors (dat : StringMap Device) (comparator : Device → Bool) (name : String) : List String :=
  ((dat[name]?).map fun node => (raised comparator node).filter (· ∈ dat)).getD []

section
variable {σ : Type} {dat : StringMap Device} {comparator : Device → Bool} {actions : List (NodeAction σ)}
  {status : Status} {world : σ} {device name : String} {fringe done : List String} {s : Surroundings σ}

variable (dat comparator actions status world) in
/-- The loop's invariant: the queue of known devices unfolds the table as it was given. -/
structure Climbing (device : String) (done fringe : List String) (s : Surroundings σ) : Prop where
  unfolded : Queue.Unfolded (ancestors dat comparator) device done (fringe.filter (· ∈ dat))
  state : s = done.foldl (applyAt actions status) (dat, world)

theorem Climbing.start (known : device ∈ dat) :
    Climbing dat comparator actions status world device [] [device] (dat, world) := by
  refine ⟨?_, rfl⟩
  rw [List.filter_cons_of_pos (by simpa using known), List.filter_nil]
  exact Queue.Unfolded.init _ device

theorem Climbing.skip (h : Climbing dat comparator actions status world device done (name :: fringe) s)
    (unknown : name ∉ dat) : Climbing dat comparator actions status world device done fringe s := by
  refine ⟨?_, h.state⟩
  have unfolded := h.unfolded
  rwa [List.filter_cons_of_neg (by simpa using unknown)] at unfolded

variable (dat comparator) in
/-- How many names a device puts on the queue, known or not. -/
def raises (name : String) : Nat := ((dat[name]?).map fun node => (raised comparator node).length).getD 0

theorem keepsOn_raised (parents : ∀ callback ∈ actions, KeepsOn Device.parents callback)
    (answers : ∀ callback ∈ actions, KeepsOn comparator callback) :
    ∀ callback ∈ actions, KeepsOn (raised comparator) callback := by
  intro callback member node status world
  rw [raised, answers callback member, parents callback member, raised]

/-- A round of the loop with a known device in front. -/
theorem Climbing.visit (keep : ∀ callback ∈ actions, KeepsOn (raised comparator) callback)
    (h : Climbing dat comparator actions status world device done (name :: fringe) s) (known : name ∈ dat) (fuel : Nat) :
    ∃ parents, parentFrom comparator actions status (fuel + 1) (name :: fringe) s =
        parentFrom comparator actions status fuel (fringe ++ parents) (applyAt actions status s name) ∧
      parents.length = raises dat comparator name ∧ parents.filter (· ∈ dat) = ancestors dat comparator name ∧
      Climbing dat comparator actions status world device (done ++ [name]) (fringe ++ parents)
        (applyAt actions status s name) := by
  have same : Same (raised comparator) dat s.1 := h.state ▸ foldl_applyAt_same keep done (dat, world)
  obtain ⟨node, found⟩ := StringMap.mem_iff.mp ((same.mem_iff name).mpr known)
  obtain ⟨given, found', raised_same⟩ :
      ∃ given, dat[name]? = some given ∧ raised comparator given = raised comparator node := by
    have both := same name
    rw [found] at both
    exact Option.map_eq_some_iff.mp both.symm
  have unfolded := h.unfolded
  rw [List.filter_cons_of_pos (by simpa using known)] at unfolded
  have pushes : (raised comparator node).filter (· ∈ dat) = ancestors dat comparator name := by
    rw [ancestors, found', Option.map_some, raised_same, Option.getD_some]
  refine ⟨raised comparator node, ?_, ?_, pushes, ?_, ?_⟩
  · rw [parentFrom, found, applyAt, found]
    dsimp only
    rw [applyNode_keeps keep]
  · rw [raises, found', Option.map_some, raised_same, Option.getD_some]
  · rw [List.filter_append, pushes]
    exact unfolded.expand
  · rw [List.foldl_append, ← h.state]
    rfl

theorem Climbing.unknown (keep : ∀ callback ∈ actions, KeepsOn (raised comparator) callback)
    (h : Climbing dat comparator actions status world device done (name :: fringe) s) (unknown : name ∉ dat) (fuel : Nat) :
    parentFrom comparator actions status (fuel + 1) (name :: fringe) s =
      parentFrom comparator actions status fuel fringe s := by
  have same : Same (raised comparator) dat s.1 := h.state ▸ foldl_applyAt_same keep done (dat, world)
  rw [parentFrom, StringMap.not_mem_iff.mp fun present => unknown ((same.mem_iff name).mp present)]

/-- A traversal that ends has unfolded all ancestors of its device, and applied the actions to them in this order. -/
theorem parentFrom_ended (keep : ∀ callback ∈ actions, KeepsOn (raised comparator) callback)
    (h : Climbing dat comparator actions status world device done fringe s) {fuel : Nat} {final : Surroundings σ}
    (run : parentFrom comparator actions status fuel fringe s = some final) :
    ∃ visited, Queue.Unfolded (ancestors dat comparator) device visited [] ∧
      final = visited.foldl (applyAt actions status) (dat, world) := by
  induction fuel generalizing done fringe s with
  | zero =>
    cases fringe with
    | nil =>
      obtain rfl := Option.some.inj run
      exact ⟨done, h.unfolded, h.state⟩
    | cons name fringe => cases run
  | succ fuel ih =>
    cases fringe with
    | nil =>
      obtain rfl := Option.some.inj run
      exact ⟨done, h.unfolded, h.state⟩
    | cons name fringe =>
      by_cases known : name ∈ dat
      · obtain ⟨parents, round, -, -, next⟩ := h.visit keep known fuel
        exact ih next (round ▸ run)
      · rw [h.unknown keep known fuel] at run
        exact ih (h.skip known) run

theorem parentFrom_mono {fuel more : Nat} {final : Surroundings σ}
    (run : parentFrom comparator actions status fuel fringe s = some final) (le : fuel ≤ more) :
    parentFrom comparator actions status more fringe s = some final := by
  induction fuel generalizing fringe s more with
  | zero =>
    cases fringe with
    | nil => rwa [parentFrom] at run ⊢
    | cons name fringe => cases run
  | succ fuel ih =>
    cases fringe with
    | nil => rwa [parentFrom] at run ⊢
    | cons name fringe =>
      obtain ⟨more, rfl⟩ : ∃ n, more = n + 1 := ⟨more - 1, by omega⟩
      rw [parentFrom] at run ⊢
      cases found : s.1[name]? with
      | none =>
        rw [found] at run
        exact ih run (by omega)
      | some node =>
        rw [found] at run
        exact ih run (by omega)

/-- In a tree no device comes twice, and the traversal ends. -/
theorem parentFrom_ok (keep : ∀ callback ∈ actions, KeepsOn (raised comparator) callback)
    (tree : Queue.Tree (ancestors dat comparator) device)
    (h : Climbing dat comparator actions status world device done fringe s)
    (distinct : (done ++ fringe.filter (· ∈ dat)).Nodup) {fuel : Nat}
    (enough : fringe.length + Queue.work dat.keys.toFinset (raises dat comparator) done ≤ fuel) :
    ∃ visited, visited.Nodup ∧ Queue.Unfolded (ancestors dat comparator) device visited [] ∧
      parentFrom comparator actions status fuel fringe s =
        some (visited.foldl (applyAt actions status) (dat, world)) := by
  induction fuel generalizing done fringe s with
  | zero =>
    have empty : fringe = [] := List.eq_nil_of_length_eq_zero (by omega)
    subst empty
    rw [List.filter_nil, List.append_nil] at distinct
    exact ⟨done, distinct, h.unfolded, by rw [parentFrom, h.state]⟩
  | succ fuel ih =>
    cases fringe with
    | nil =>
      rw [List.filter_nil, List.append_nil] at distinct
      exact ⟨done, distinct, h.unfolded, by rw [parentFrom, h.state]⟩
    | cons name fringe =>
      rw [List.length_cons] at enough
      by_cases known : name ∈ dat
      · obtain ⟨parents, round, few, pushes, next⟩ := h.visit keep known fuel
        have unfolded := h.unfolded
        rw [List.filter_cons_of_pos (by simpa using known)] at unfolded distinct
        have fresh : name ∉ done := fun old =>
          (List.nodup_append.mp distinct).2.2 name old name List.mem_cons_self rfl
        have spent : raises dat comparator name +
            Queue.work dat.keys.toFinset (raises dat comparator) (done ++ [name]) =
            Queue.work dat.keys.toFinset (raises dat comparator) done :=
          Queue.work_visit (List.mem_toFinset.mpr (Std.TreeMap.mem_keys.mpr known)) fresh
        rw [round]
        refine ih next ?_ ?_
        · rw [List.filter_append, pushes]
          exact tree.expand unfolded distinct
        · rw [List.length_append]
          omega
      · rw [List.filter_cons_of_neg (by simpa using known)] at distinct
        rw [h.unknown keep known fuel]
        exact ih (h.skip known) distinct (by omega)

/-! ### Each action once -/

variable (dat comparator) in
/-- From a device that the comparator holds of to a parent of it in the table. -/
def ParentIf (a b : String) : Prop :=
  ∃ dev, dat[a]? = some dev ∧ comparator dev = true ∧ b ∈ dev.parents ∧ b ∈ dat

theorem mem_ancestors_iff {a b : String} : b ∈ ancestors dat comparator a ↔ ParentIf dat comparator a b := by
  unfold ancestors ParentIf raised
  cases found : dat[a]? with
  | none => simp
  | some dev => cases holds : comparator dev <;> simp [holds]

end

/-- Whatever the actions do: the traversal ends, and they were applied once to the device and to each of the ancestors
reached, in some order, and to no others. -/
def AppliesOnce (dat : DAT) (dev : Device) (comparator : Device → Bool) : Prop :=
  ∀ (σ : Type) (actions : List (NodeAction σ)) (world : σ), (∀ callback ∈ actions, KeepsOn Device.parents callback) →
    (∀ callback ∈ actions, KeepsOn comparator callback) →
    ∃ visited : List String, visited.Nodup ∧
      (∀ x, x ∈ visited ↔ ReflTransGen (ParentIf dat.devices comparator) dev.name x) ∧
      ∃ bound, ∀ fuel ≥ bound, parentTraverse fuel dat.devices dev.name comparator actions world =
        some (visited.foldl (applyAt actions (statusOf dev dev.name)) (dat.devices, world))

section
variable {dat : DAT} {dev : Device} {comparator : Device → Bool}

theorem mem_unfolded_iff {visited : List String}
    (h : Queue.Unfolded (ancestors dat.devices comparator) dev.name visited []) (x : String) :
    x ∈ visited ↔ ReflTransGen (ParentIf dat.devices comparator) dev.name x := by
  rw [h.mem_iff]
  simp only [mem_ancestors_iff]

theorem reached_listed (known : dat.devices[dev.name]? = some dev) {x : String}
    (path : ReflTransGen (ParentIf dat.devices comparator) dev.name x) : x ∈ dat.devices := by
  rcases path.cases_tail with rfl | ⟨a, -, _, _, _, _, member⟩
  · exact StringMap.mem_iff.mpr ⟨dev, known⟩
  · exact member

theorem appliesOnce_of_tree (known : dat.devices[dev.name]? = some dev)
    (tree : Queue.Tree (ancestors dat.devices comparator) dev.name) : AppliesOnce dat dev comparator := by
  intro σ actions world parents answers
  have listed : dev.name ∈ dat.devices := StringMap.mem_iff.mpr ⟨dev, known⟩
  have start : Climbing dat.devices comparator actions (statusOf dev dev.name) world dev.name [] [dev.name]
      (dat.devices, world) := Climbing.start listed
  have single : ([] ++ [dev.name].filter (· ∈ dat.devices)).Nodup := by simp [listed]
  obtain ⟨visited, distinct, unfolded, run⟩ :=
    parentFrom_ok (keepsOn_raised parents answers) tree start single (Nat.le_refl _)
  refine ⟨visited, distinct, mem_unfolded_iff unfolded, ?_⟩
  refine ⟨[dev.name].length + Queue.work dat.devices.keys.toFinset (raises dat.devices comparator) [], ?_⟩
  intro fuel enough
  rw [parentTraverse, known]
  exact parentFrom_mono run enough

/-- An action that only notes the device. -/
def noteNode : NodeAction (List String) := fun node _ noted => (node, noted ++ [node.name])

theorem foldl_noteNode {status : Status} {visited : List String} (listed : ∀ x ∈ visited, x ∈ dat.devices) :
    (visited.foldl (applyAt [noteNode] status) (dat.devices, [])).2 = visited := by
  induction visited using List.reverseRecOn with
  | nil => rfl
  | append_singleton visited name ih =>
    have names : Same Device.name dat.devices (visited.foldl (applyAt [noteNode] status) (dat.devices, [])).1 :=
      foldl_applyAt_same (fun callback member => by rw [List.mem_singleton.mp member]; exact fun _ _ _ => rfl) _ _
    have known := listed name (by simp)
    obtain ⟨node, found⟩ := StringMap.mem_iff.mp ((names.mem_iff name).mpr known)
    have named : node.name = name := by
      have both := names name
      rw [found] at both
      obtain ⟨given, found', same⟩ := Option.map_eq_some_iff.mp both.symm
      rw [← same, dat.named name given found']
    rw [List.foldl_append, List.foldl_cons, List.foldl_nil, applyAt, found]
    show (visited.foldl (applyAt [noteNode] status) (dat.devices, [])).2 ++ [node.name] = _
    rw [ih fun x member => listed x (List.mem_append_left _ member), named]

theorem tree_of_appliesOnce (known : dat.devices[dev.name]? = some dev) (h : AppliesOnce dat dev comparator) :
    Queue.Tree (ancestors dat.devices comparator) dev.name := by
  have note : ∀ {β : Type} (f : Device → β), ∀ callback ∈ [noteNode], KeepsOn f callback := by
    intro β f callback member
    rw [List.mem_singleton.mp member]
    exact fun _ _ _ => rfl
  obtain ⟨visited, distinct, reached, bound, runs⟩ := h (List String) [noteNode] [] (note _) (note _)
  have listed : dev.name ∈ dat.devices := StringMap.mem_iff.mpr ⟨dev, known⟩
  have run := runs bound (Nat.le_refl bound)
  rw [parentTraverse, known] at run
  obtain ⟨order, unfolded, same⟩ := parentFrom_ended (note _) (Climbing.start listed) run
  have noted := congrArg Prod.snd same
  rw [foldl_noteNode fun x member => reached_listed known ((reached x).mp member),
    foldl_noteNode fun x member => reached_listed known ((mem_unfolded_iff unfolded x).mp member)] at noted
  exact unfolded.tree (noted ▸ distinct)

/-- Where every device has an ancestor to go on with, the traversal never ends. -/
theorem parentTraverse_endless {σ : Type} (known : dat.devices[dev.name]? = some dev)
    (inner : ∀ name ∈ dat.devices, ancestors dat.devices comparator name ≠ []) {actions : List (NodeAction σ)}
    (keep : ∀ callback ∈ actions, KeepsOn (raised comparator) callback) (world : σ) (fuel : Nat) :
    parentTraverse fuel dat.devices dev.name comparator actions world = none := by
  have listed : dev.name ∈ dat.devices := StringMap.mem_iff.mpr ⟨dev, known⟩
  cases run : parentTraverse fuel dat.devices dev.name comparator actions world with
  | none => rfl
  | some final =>
    rw [parentTraverse, known] at run
    obtain ⟨visited, unfolded, -⟩ := parentFrom_ended keep (Climbing.start listed) run
    obtain ⟨x, member, leaf⟩ := unfolded.exists_leaf
    exact absurd leaf (inner x (reached_listed known ((mem_unfolded_iff unfolded x).mp member)))

/-- Exactly in a tree of ancestors the actions are applied once to each. -/
theorem appliesOnce_iff (dat : DAT) (dev : Device) (known : dat.devices[dev.name]? = some dev)
    (comparator : Device → Bool) :
    AppliesOnce dat dev comparator ↔ Queue.Tree (ancestors dat.devices comparator) dev.name :=
  ⟨tree_of_appliesOnce known, appliesOnce_of_tree known⟩

/-- One board on the other, and nothing on it. -/
def chain : Json :=
  .object [("GPU_0", boardJson ["Retimer_0"]), ("HSC_0", boardJson []), ("Retimer_0", boardJson ["HSC_0"])]

theorem appliesOnce_iff_chain : ∃ (dat : DAT) (dev : Device), DAT.populateMap .empty chain = .ok dat ∧
    dat.devices["HSC_0"]? = some dev ∧ AppliesOnce dat dev hasParents := by
  have run : (DAT.populateMap .empty chain).map (fun dat => (decide ("HSC_0" ∈ dat.devices),
      decide ("HSC_0" :: dat.devices.keys.flatMap (ancestors dat.devices hasParents)).Nodup)) = .ok (true, true) := by decide
  obtain ⟨dat, loaded, facts⟩ := map_ok run
  simp only [Prod.mk.injEq, decide_eq_true_eq] at facts
  obtain ⟨listed, distinct⟩ := facts
  obtain ⟨dev, known⟩ := StringMap.mem_iff.mp listed
  have named := dat.named "HSC_0" dev known
  refine ⟨dat, dev, loaded, known, (appliesOnce_iff dat dev (named.symm ▸ known) hasParents).mpr ?_⟩
  rw [named]
  apply Queue.Tree.of_nodup distinct
  intro a _
  by_cases member : a ∈ dat.devices
  · exact Or.inl (Std.TreeMap.mem_keys.mpr member)
  · right
    rw [ancestors, StringMap.not_mem_iff.mp member]
    rfl

/-- Every device of the board has parents, and `process` never comes back from it. -/
theorem appliesOnce_board : ∃ (dat : DAT) (dev : Device), DAT.populateMap .empty board = .ok dat ∧
    dat.devices["HSC_0"]? = some dev ∧ ¬ AppliesOnce dat dev hasParents ∧
    ∀ fuel, parentTraverse fuel dat.devices "HSC_0" hasParents parentCallbacks () = none := by
  have run : (DAT.populateMap .empty board).map (fun dat => (decide ("HSC_0" ∈ dat.devices),
      dat.devices.keys.all fun name => decide (ancestors dat.devices hasParents name ≠ []))) = .ok (true, true) := by decide
  obtain ⟨dat, loaded, facts⟩ := map_ok run
  simp only [Prod.mk.injEq, decide_eq_true_eq, List.all_eq_true] at facts
  obtain ⟨listed, inner⟩ := facts
  obtain ⟨dev, known⟩ := StringMap.mem_iff.mp listed
  have named := dat.named "HSC_0" dev known
  have known' : dat.devices[dev.name]? = some dev := named.symm ▸ known
  have inner' : ∀ name ∈ dat.devices, ancestors dat.devices hasParents name ≠ [] :=
    fun name member => inner name (Std.TreeMap.mem_keys.mpr member)
  have keep : ∀ callback ∈ parentCallbacks, KeepsOn (raised hasParents) callback := by
    intro callback member
    rcases List.mem_cons.mp member with rfl | member
    · exact fun _ _ _ => rfl
    · rw [List.mem_singleton.mp member]
      exact fun _ _ _ => rfl
  refine ⟨dat, dev, loaded, known, fun once => ?_, fun fuel => ?_⟩
  · have idle : ∀ {β : Type} (f : Device → β), ∀ callback ∈ ([] : List (NodeAction Unit)), KeepsOn f callback :=
      fun _ _ member => nomatch member
    obtain ⟨_, _, _, bound, runs⟩ := once Unit [] () (idle _) (idle _)
    have run := runs bound (Nat.le_refl bound)
    rw [parentTraverse_endless known' inner' (idle _)] at run
    cases run
  · rw [← named]
    exact parentTraverse_endless known' inner' keep () fuel

end

end MonitorEventing.Dat
