import MonitorEventing.DeviceStatus.Handler
import MonitorEventing.Lib.Machine

/-!
# What the handled events leave

The handler as a machine that takes one event after another, each with every file written. A device should
be left with the worst severity of the events that roll up to it. An event is done with at the first device
whose health is worse, so what it leaves depends on the devices behind that one.
-/

namespace MonitorEventing.DeviceStatus
open Dat EventInfo Selftest

instance : LinearOrder Severity :=
  LinearOrder.lift' Severity.value fun a b h => by cases a <;> cases b <;> first | rfl | cases h

/-- An event with a severity the handler knows, and what the system does meanwhile. -/
structure Occurrence where
  event : EventNode
  env : Env
  severity : Severity
  known : Severity.ofString event.severity = .ok severity := by rfl

def text? : Json → Option String
  | .string s => some s
  | _ => none

/-- The devices whose status a managed event is about. -/
def rollupDevices (p : Profile) (event : EventNode) : List String :=
  if isManaged event then (namesOf p event).filterMap text? else []

/-- The handler takes the event and no write fails. -/
def step (p : Profile) (s : DeviceStatusHandler) (o : Occurrence) : Option DeviceStatusHandler :=
  match process p o.env o.event s with
  | (.ok .succ, t) => some t
  | _ => none

/-- The worst severity of the events that roll up to the device. -/
def worst (p : Profile) (occurrences : List Occurrence) (name : String) : Severity :=
  occurrences.foldl (fun health o => if name ∈ rollupDevices p o.event then max health o.severity else health) .ok

def Listed (p : Profile) (occurrences : List Occurrence) (name : String) : Prop :=
  name ≠ "" ∧ ∃ o ∈ occurrences, name ∈ rollupDevices p o.event

def healthIn (j : Json) : Option Json := (j.get? "Status").bind fun status => status.get? "Health"

/-- Every device has the worst health of the events that roll up to it, in the cache and in its file. -/
structure RolledUp (p : Profile) (occurrences : List Occurrence) (s : DeviceStatusHandler) : Prop where
  cached : ∀ name, Listed p occurrences name → s.health? name = some (worst p occurrences name)
  written : ∀ name, Listed p occurrences name → ∀ j, s.files[filePathOf p name]? = some j →
    healthIn j = some (.string (worst p occurrences name).string)

/-- The health of the device is worse than the severity, which ends the loop. -/
def blocks (s : DeviceStatusHandler) (severity : Severity) (name : String) : Bool :=
  name ≠ "" ∧ severity < (s.health? name).getD .ok

/-- The devices the loop gets to. -/
def reached (p : Profile) (s : DeviceStatusHandler) (o : Occurrence) : List String :=
  (rollupDevices p o.event).takeWhile fun name => !blocks s o.severity name

/-- A device the loop does not get to has nothing to get from the event. -/
def Covers (p : Profile) (s : DeviceStatusHandler) (o : Occurrence) : Prop :=
  ∀ name ∈ rollupDevices p o.event, name ≠ "" →
    name ∈ reached p s o ∨ ∃ health, s.health? name = some health ∧ o.severity ≤ health

/-! ### One event -/

/-- What the event leaves of a device it updates. -/
structure Updated (p : Profile) (severity : Severity) (t : DeviceStatusHandler) (name : String) : Prop where
  health : t.health? name = some severity
  file : ∃ j, t.files[filePathOf p name]? = some j ∧ healthIn j = some (.string severity.string)

structure Kept (p : Profile) (s t : DeviceStatusHandler) (name : String) : Prop where
  health : t.health? name = s.health? name
  file : t.files[filePathOf p name]? = s.files[filePathOf p name]?

/-- The devices are updated, and no others. -/
def Updates (p : Profile) (severity : Severity) (s t : DeviceStatusHandler) (names : List String) : Prop :=
  ∀ name, name ≠ "" → (name ∈ names → Updated p severity t name) ∧ (name ∉ names → Kept p s t name)

section Updates
variable {p : Profile} {severity : Severity} {s s' t : DeviceStatusHandler} {name : String}

theorem Kept.trans (first : Kept p s s' name) (second : Kept p s' t name) : Kept p s t name :=
  ⟨second.health.trans first.health, second.file.trans first.file⟩

theorem Kept.updated (kept : Kept p s t name) (updated : Updated p severity s name) : Updated p severity t name := by
  obtain ⟨j, stored, healthy⟩ := updated.file
  exact ⟨kept.health.trans updated.health, j, kept.file.trans stored, healthy⟩

theorem kept_getDevice {current : String} (same : name = current → (s.health? name).isSome = true) :
    Kept p s (s.getDevice current) name := by
  refine ⟨?_, by rw [DeviceStatusHandler.files_getDevice]⟩
  rw [DeviceStatusHandler.health?_getDevice]
  by_cases here : name = current
  · subst here
    obtain ⟨health, cached⟩ := Option.isSome_iff_exists.mp (same rfl)
    rw [if_pos rfl, cached, Option.getD_some]
  · rw [if_neg here]

theorem Updates.cons {current : String} {names : List String} (first : Updates p severity s s' [current])
    (rest : Updates p severity s' t names) : Updates p severity s t (current :: names) := by
  intro name nonempty
  obtain ⟨updated, kept⟩ := first name nonempty
  obtain ⟨updatedLater, keptLater⟩ := rest name nonempty
  refine ⟨fun member => ?_, fun outside => ?_⟩
  · by_cases later : name ∈ names
    · exact updatedLater later
    · have here : name = current := (List.mem_cons.mp member).resolve_right later
      exact (keptLater later).updated (updated (List.mem_singleton.mpr here))
  · obtain ⟨different, later⟩ := not_or.mp (mt List.mem_cons.mpr outside)
    exact (kept fun here => different (List.mem_singleton.mp here)).trans (keptLater later)

theorem updates_update (current : String) {j : Json} (healthy : healthIn j = some (.string severity.string)) :
    Updates p severity s ((s.getDevice current).update current severity (filePathOf p current) j) [current] := by
  intro name _
  refine ⟨fun here => ?_, fun outside => ?_⟩
  · obtain rfl := List.mem_singleton.mp here
    refine ⟨?_, j, StringMap.getElem?_insert _ _ _ _ |>.trans (if_pos rfl), healthy⟩
    rw [DeviceStatusHandler.health?_update, if_pos rfl]
  · have different : name ≠ current := fun same => outside (List.mem_singleton.mpr same)
    have elsewhere : ¬ filePathOf p current = filePathOf p name := fun same => different (filePathOf_inj.mp same).symm
    refine ⟨?_, ?_⟩
    · rw [DeviceStatusHandler.health?_update, if_neg different]
    · show ((s.getDevice current).files.insert _ j)[filePathOf p name]? = _
      rw [StringMap.getElem?_insert, if_neg elsewhere, DeviceStatusHandler.files_getDevice]

theorem updates_getDevice_empty : Updates p severity s (s.getDevice "") [""] := by
  intro name nonempty
  refine ⟨fun here => absurd (List.mem_singleton.mp here) nonempty, fun _ => ?_⟩
  exact kept_getDevice fun same => absurd same nonempty

end Updates

theorem blocks_congr {s t : DeviceStatusHandler} {severity : Severity}
    (same : ∀ name, name ≠ "" → (severity < (t.health? name).getD .ok ↔ severity < (s.health? name).getD .ok)) :
    (fun name => !blocks t severity name) = fun name => !blocks s severity name := by
  funext name
  by_cases empty : name = ""
  · simp [blocks, empty]
  · simp [blocks, empty, same name empty]

theorem healthIn_statusOf (severity : String) (jCond : Json) :
    healthIn (statusOf severity jCond) = some (.string severity) := rfl

/-- What the loop does with its first name when no write fails. -/
theorem processNames_cases {p : Profile} {env : Env} {event : EventNode} {severity : Severity}
    (known : Severity.ofString event.severity = .ok severity) {first : Json} {position : Nat} {rest : List (Json × Nat)}
    {s t : DeviceStatusHandler} (h : processNames p env event ((first, position) :: rest) s = (.ok .succ, t)) :
    ∃ name, first = .string name ∧
      ((name = "" ∧ processNames p env event rest (s.getDevice name) = (.ok .succ, t)) ∨
        (blocks s severity name = true ∧ t = s.getDevice name) ∨
        (name ≠ "" ∧ blocks s severity name = false ∧ ∃ j, healthIn j = some (.string severity.string) ∧
          processNames p env event rest ((s.getDevice name).update name severity (filePathOf p name) j) = (.ok .succ, t))) := by
  have current (name : String) : ((s.getDevice name).health? name).getD .ok = (s.health? name).getD .ok := by
    simp [DeviceStatusHandler.health?_getDevice]
  unfold processNames at h
  split at h
  · cases h
  · rename_i name read
    refine ⟨name, Json.getString_ok_iff.mp read, ?_⟩
    dsimp only at h
    split at h
    · exact Or.inl ⟨‹_›, h⟩
    · rename_i nonempty
      rw [known] at h
      dsimp only at h
      rw [current] at h
      split at h
      · rename_i worse
        have blocked : blocks s severity name = true := decide_eq_true ⟨nonempty, worse⟩
        exact Or.inr (Or.inl ⟨blocked, (Prod.mk.inj h).2.symm⟩)
      · rename_i better
        have open_ : blocks s severity name = false := decide_eq_false fun both => better both.2
        split at h
        · cases h
        · split at h
          · cases h
          · split at h
            · cases h
            · refine Or.inr (Or.inr ⟨nonempty, open_, _, ?_, h⟩)
              rw [healthIn_statusOf, Severity.ofString_ok_iff.mp known]

/-- The loop updates the devices it gets to, and nothing else. -/
theorem processNames_spec {p : Profile} {env : Env} {event : EventNode} {severity : Severity}
    (known : Severity.ofString event.severity = .ok severity) {names : List (Json × Nat)} {s t : DeviceStatusHandler}
    (h : processNames p env event names s = (.ok .succ, t)) :
    Updates p severity s t
      ((names.filterMap fun entry => text? entry.1).takeWhile fun name => !blocks s severity name) := by
  induction names generalizing s with
  | nil =>
    cases h
    exact fun name _ => ⟨fun member => (List.not_mem_nil member).elim, fun _ => ⟨rfl, rfl⟩⟩
  | cons entry rest ih =>
    obtain ⟨first, position⟩ := entry
    obtain ⟨current, rfl, outcome⟩ := processNames_cases known h
    show Updates p severity s t ((current :: rest.filterMap fun entry => text? entry.1).takeWhile _)
    rw [List.takeWhile_cons]
    rcases outcome with ⟨rfl, later⟩ | ⟨blocked, rfl⟩ | ⟨nonempty, unblocked, j, healthy, later⟩
    · have same : (fun name => !blocks (s.getDevice "") severity name) = fun name => !blocks s severity name :=
        blocks_congr fun other nonempty => by rw [DeviceStatusHandler.health?_getDevice, if_neg nonempty]
      have unblocked : blocks s severity "" = false := by simp [blocks]
      have others := ih later
      rw [same] at others
      rw [unblocked]
      exact updates_getDevice_empty.cons others
    · rw [blocked]
      refine fun name _ => ⟨fun member => (List.not_mem_nil member).elim, fun _ => kept_getDevice fun here => ?_⟩
      -- a device that is not cached counts as fine, so what blocks is cached
      subst here
      cases cached : s.health? name with
      | some health => rfl
      | none =>
        have worse : severity < (s.health? name).getD .ok := (of_decide_eq_true blocked).2
        rw [cached] at worse
        exact absurd worse (by cases severity <;> decide)
    · have same : (fun name => !blocks ((s.getDevice current).update current severity (filePathOf p current) j) severity name) =
          fun name => !blocks s severity name := by
        refine blocks_congr fun other _ => ?_
        rw [DeviceStatusHandler.health?_update]
        by_cases here : other = current
        · subst here
          have better : ¬ severity < (s.health? other).getD .ok := fun worse =>
            of_decide_eq_false unblocked ⟨nonempty, worse⟩
          rw [if_pos rfl]
          exact iff_of_false (lt_irrefl severity) better
        · rw [if_neg here]
      have others := ih later
      rw [same] at others
      rw [unblocked]
      exact (updates_update current healthy).cons others

theorem step_spec {p : Profile} {s t : DeviceStatusHandler} {o : Occurrence} (h : step p s o = some t) :
    Updates p o.severity s t (reached p s o) := by
  unfold step at h
  split at h
  · rename_i u processed
    obtain rfl := Option.some.inj h
    unfold process at processed
    unfold reached rollupDevices
    split at processed
    · rename_i managed
      rw [if_pos managed]
      have names : (namesOf p o.event).filterMap text? =
          (namesOf p o.event).zipIdx.filterMap fun entry => text? entry.1 := by
        conv_lhs => rw [← List.zipIdx_map_fst 0 (namesOf p o.event), List.filterMap_map]
        rfl
      rw [names]
      exact processNames_spec o.known processed
    · rename_i unmanaged
      rw [if_neg unmanaged]
      obtain rfl := (Prod.mk.inj processed).2
      exact fun name _ => ⟨fun member => (List.not_mem_nil member).elim, fun _ => ⟨rfl, rfl⟩⟩
  · cases h

theorem worst_append (p : Profile) (before : List Occurrence) (o : Occurrence) (name : String) :
    worst p (before ++ [o]) name =
      if name ∈ rollupDevices p o.event then max (worst p before name) o.severity else worst p before name := by
  rw [worst, List.foldl_append]
  rfl

theorem reached_subset {p : Profile} {s : DeviceStatusHandler} {o : Occurrence} {name : String}
    (member : name ∈ reached p s o) : name ∈ rollupDevices p o.event :=
  List.takeWhile_sublist _ |>.mem member

theorem not_worse_of_reached {p : Profile} {s : DeviceStatusHandler} {o : Occurrence} {name : String} (nonempty : name ≠ "")
    (member : name ∈ reached p s o) : (s.health? name).getD .ok ≤ o.severity := by
  have unblocked := List.mem_takeWhile_imp member
  rw [Bool.not_eq_true'] at unblocked
  exact not_lt.mp fun worse => of_decide_eq_false unblocked ⟨nonempty, worse⟩

/-! ### Many events -/

/-- A cached device got there by an event. -/
def FromEvents (p : Profile) (occurrences : List Occurrence) (s : DeviceStatusHandler) : Prop :=
  ∀ name, name ≠ "" → (s.health? name).isSome = true → Listed p occurrences name

theorem listed_append {p : Profile} {before : List Occurrence} {o : Occurrence} {name : String} :
    Listed p (before ++ [o]) name ↔ Listed p before name ∨ (name ≠ "" ∧ name ∈ rollupDevices p o.event) := by
  simp only [Listed, List.mem_append, List.mem_singleton, or_and_right, exists_or, exists_eq_left]
  exact and_or_left

theorem worst_of_not_listed {p : Profile} {before : List Occurrence} {name : String} (nonempty : name ≠ "")
    (unlisted : ¬ Listed p before name) : worst p before name = .ok := by
  induction before using List.reverseRecOn with
  | nil => rfl
  | append_singleton before o ih =>
    rw [listed_append, not_or] at unlisted
    rw [worst_append, if_neg fun member => unlisted.2 ⟨nonempty, member⟩]
    exact ih unlisted.1

section Step
variable {p : Profile} {before : List Occurrence} {s t : DeviceStatusHandler} {o : Occurrence} {name : String}

/-- A device without an entry counts as fine, which is the worst of no events. -/
theorem RolledUp.health_eq_worst (rolled : RolledUp p before s) (origin : FromEvents p before s) (nonempty : name ≠ "") :
    (s.health? name).getD .ok = worst p before name := by
  by_cases listed : Listed p before name
  · rw [rolled.cached name listed, Option.getD_some]
  · have absent : s.health? name = none := by
      cases cached : s.health? name with
      | none => rfl
      | some health => exact absurd (origin name nonempty (by rw [cached]; rfl)) listed
    rw [absent, worst_of_not_listed nonempty listed, Option.getD_none]

theorem FromEvents.step (origin : FromEvents p before s) (h : step p s o = some t) : FromEvents p (before ++ [o]) t := by
  intro name nonempty cached
  obtain ⟨_, kept⟩ := step_spec h name nonempty
  rw [listed_append]
  by_cases updated : name ∈ reached p s o
  · exact Or.inr ⟨nonempty, reached_subset updated⟩
  · rw [(kept updated).health] at cached
    exact Or.inl (origin name nonempty cached)

theorem RolledUp.covers (h : DeviceStatus.step p s o = some t) (rolled : RolledUp p (before ++ [o]) t) : Covers p s o := by
  intro name member nonempty
  obtain ⟨_, kept⟩ := step_spec h name nonempty
  by_cases updated : name ∈ reached p s o
  · exact Or.inl updated
  · refine Or.inr ⟨worst p (before ++ [o]) name, ?_, ?_⟩
    · rw [← (kept updated).health]
      exact rolled.cached name (listed_append.mpr (Or.inr ⟨nonempty, member⟩))
    · rw [worst_append, if_pos member]
      exact le_max_right _ _

/-- The event leaves a device it does not get to as bad as the worst event, itself included. -/
theorem Covers.worst_append (covers : Covers p s o) (rolled : RolledUp p before s) (origin : FromEvents p before s)
    (listed : Listed p (before ++ [o]) name) (outside : name ∉ reached p s o) :
    Listed p before name ∧ worst p (before ++ [o]) name = worst p before name := by
  rw [DeviceStatus.worst_append]
  by_cases member : name ∈ rollupDevices p o.event
  · obtain ⟨health, cached, above⟩ := (covers name member listed.1).resolve_left outside
    have current : health = worst p before name := by
      rw [← rolled.health_eq_worst origin listed.1, cached, Option.getD_some]
    refine ⟨origin name listed.1 (by rw [cached]; rfl), ?_⟩
    rw [if_pos member, ← current]
    exact max_eq_left above
  · refine ⟨(listed_append.mp listed).resolve_right fun late => member late.2, ?_⟩
    rw [if_neg member]

theorem RolledUp.step (rolled : RolledUp p before s) (origin : FromEvents p before s) (covers : Covers p s o)
    (h : DeviceStatus.step p s o = some t) : RolledUp p (before ++ [o]) t := by
  have worstOf {name : String} (nonempty : name ≠ "") (member : name ∈ reached p s o) :
      worst p (before ++ [o]) name = o.severity := by
    rw [DeviceStatus.worst_append, if_pos (reached_subset member), ← rolled.health_eq_worst origin nonempty]
    exact max_eq_right (not_worse_of_reached nonempty member)
  refine ⟨fun name listed => ?_, fun name listed j stored => ?_⟩
  · obtain ⟨updated, kept⟩ := step_spec h name listed.1
    by_cases member : name ∈ reached p s o
    · rw [(updated member).health, worstOf listed.1 member]
    · obtain ⟨earlier, same⟩ := covers.worst_append rolled origin listed member
      rw [(kept member).health, same, rolled.cached name earlier]
  · obtain ⟨updated, kept⟩ := step_spec h name listed.1
    by_cases member : name ∈ reached p s o
    · obtain ⟨written, last, healthy⟩ := (updated member).file
      rw [last] at stored
      obtain rfl := Option.some.inj stored
      rw [healthy, worstOf listed.1 member]
    · obtain ⟨earlier, same⟩ := covers.worst_append rolled origin listed member
      rw [(kept member).file] at stored
      rw [same, rolled.written name earlier j stored]

end Step

theorem fromEvents_run {p : Profile} {occurrences : List Occurrence} {s : DeviceStatusHandler}
    (h : Machine.run (step p) {} occurrences = some s) : FromEvents p occurrences s := by
  induction occurrences using List.reverseRecOn generalizing s with
  | nil =>
    obtain rfl := Option.some.inj h
    intro name _ cached
    cases cached
  | append_singleton before o ih =>
    obtain ⟨middle, first, last⟩ := Machine.run_concat_iff.mp h
    exact (ih first).step last

theorem rolledUp_init (p : Profile) : RolledUp p [] {} :=
  ⟨fun _ listed => absurd listed.2 (by simp), fun _ listed => absurd listed.2 (by simp)⟩

/-- The handler rolls every event up exactly where no device that it does not get to is behind the event. -/
theorem rolledUp_iff_covers (p : Profile) {occurrences : List Occurrence} {t : DeviceStatusHandler}
    (h : Machine.run (step p) {} occurrences = some t) :
    (∀ before after s, occurrences = before ++ after → Machine.run (step p) {} before = some s → RolledUp p before s) ↔
      ∀ before o after s, occurrences = before ++ o :: after → Machine.run (step p) {} before = some s →
        Covers p s o := by
  refine ⟨fun rolled before o after s split first => ?_, fun covers before => ?_⟩
  · rw [split, List.append_cons] at h
    obtain ⟨next, middle, _⟩ := Machine.run_append_iff.mp h
    obtain ⟨s', same, taken⟩ := Machine.run_concat_iff.mp middle
    obtain rfl : s = s' := Option.some.inj (first.symm.trans same)
    exact (rolled (before ++ [o]) after next (by rw [split, List.append_cons]) middle).covers taken
  · induction before using List.reverseRecOn with
    | nil =>
      intro after s _ first
      obtain rfl := Option.some.inj first
      exact rolledUp_init p
    | append_singleton before o ih =>
      intro after t split run
      rw [← List.append_cons] at split
      obtain ⟨s, first, taken⟩ := Machine.run_concat_iff.mp run
      exact (ih (o :: after) s split first).step (fromEvents_run first) (covers before o after s split first) taken

/-! ### A rack -/

/-- The chassis hears of the link and of the second GPU, the board of both GPUs. -/
def rack : Profile where
  deviceAssociation := .object [("GPU0", .array [.string "Board"]), ("GPU1", .array [.string "Board", .string "Chassis"]),
    ("NVLink", .array [.string "Chassis"])]
  monevtDeviceStatusFSPath := "/tmp/devinfofs"

def ready : Env where
  dynamicMessageArgs _ := ""
  getTimestamp _ := "2024-01-01T00:00:00Z"
  createDirectories _ := .ok ()
  writeJson2File _ := 0

def managedEvent (device severity : String) : EventNode where
  configEventNode := .object [("managed", .string "yes")]
  device := device
  severity := severity
  originOfCondition := some "Board"
  deviceIndexTuple := some (.ofList [])

def linkUp : Occurrence := { event := managedEvent "NVLink" "OK", env := ready, severity := .ok }

def firstFails : Occurrence := { event := managedEvent "GPU0" "Critical", env := ready, severity := .critical }

def secondWarns : Occurrence := { event := managedEvent "GPU1" "Warning", env := ready, severity := .warning }

theorem rolledUp_iff_covers_rack : ∃ t, Machine.run (step rack) {} [linkUp, firstFails] = some t ∧
    ((∀ before after s, [linkUp, firstFails] = before ++ after → Machine.run (step rack) {} before = some s →
      RolledUp rack before s) ↔
      ∀ before o after s, [linkUp, firstFails] = before ++ o :: after → Machine.run (step rack) {} before = some s →
        Covers rack s o) :=
  ⟨_, rfl, rolledUp_iff_covers rack rfl⟩

/-- The board is worse than the second GPU's warning already, so the chassis behind it never hears of it. -/
theorem chassis_not_updated : ∃ t, Machine.run (step rack) {} [linkUp, firstFails, secondWarns] = some t ∧
    t.health? "Chassis" = some .ok ∧ worst rack [linkUp, firstFails, secondWarns] "Chassis" = .warning ∧
    ¬ RolledUp rack [linkUp, firstFails, secondWarns] t := by
  refine ⟨_, rfl, rfl, rfl, fun rolled => ?_⟩
  have listed : Listed rack [linkUp, firstFails, secondWarns] "Chassis" :=
    ⟨by decide, linkUp, List.mem_cons_self, by decide⟩
  have cached := rolled.cached "Chassis" listed
  cases cached

end MonitorEventing.DeviceStatus
