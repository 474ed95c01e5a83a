import MonitorEventing.Selftest.Reach

/-!
# Test points that name no device

A DEVICE test point whose device is not in the table ends the test of its own device with an error.
The test of another device that leads there takes the error for a failed test point and goes on, so
whether an error is reported depends on the device a test starts at alone.
-/

namespace MonitorEventing.Selftest
open Accessor Dat Relation

/-- The loop of `performEntireTree`. -/
def entireFrom (dat : DAT) (read : Oracle) (layersToIgnore : List String) (fuel : Nat) :
    List (String × Device) → ReportResult → Run (RcCode × ReportResult)
  | [], reportRes => pure (.succ, reportRes)
  | (_, dev) :: rest, reportRes => do
    let (rc, reportRes) ← perform dat read layersToIgnore fuel dev reportRes
    match rc with
    | .succ => entireFrom dat read layersToIgnore fuel rest reportRes
    | .error => pure (.error, reportRes)

def performEntireTree (dat : DAT) (read : Oracle) (layersToIgnore : List String) (fuel : Nat)
    (reportRes : ReportResult) : Run (RcCode × ReportResult) :=
  entireFrom dat read layersToIgnore fuel dat.devices.toList reportRes

/-! ### How a run may end -/

/-- With an exception, for which there is a reason, or with a result. -/
inductive Run.Ends {α : Type} (reason : Prop) (good : α → Prop) (x : Run α) : Prop where
  | threw (e : Exn) (same : x = some (.error e)) (why : reason)
  | returned (a : α) (same : x = some (.ok a)) (holds : good a)

theorem Run.Ends.bind {α β : Type} {reason reason' : Prop} {good : α → Prop} {good' : β → Prop} {x : Run α}
    {f : α → Run β} (h : x.Ends reason good) (first : reason → reason')
    (next : ∀ a, good a → (f a).Ends reason' good') : (x >>= f).Ends reason' good' := by
  cases h with
  | threw e same why =>
    rw [same]
    exact .threw e rfl (first why)
  | returned a same holds =>
    rw [Run.bind_of_eq same]
    exact next a holds

theorem Run.Ends.mono {α : Type} {reason reason' : Prop} {good good' : α → Prop} {x : Run α}
    (h : x.Ends reason good) (first : reason → reason') (second : ∀ a, good a → good' a) : x.Ends reason' good' := by
  cases h with
  | threw e same why => exact .threw e same (first why)
  | returned a same holds => exact .returned a same (second a holds)

/-! ### Test points in order -/

section
variable (dat : DAT) (ignored : List String)

def isAbsent (tp : TestPoint) : Bool :=
  tp.accessor.isValidDeviceAccessor &&
    match tp.deviceName with
    | .ok other => decide (other ∉ dat.devices)
    | .error _ => false

def NamesDevice (tp : TestPoint) (other : String) : Prop :=
  tp.accessor.isValidDeviceAccessor = true ∧ tp.deviceName = .ok other

/-- A DEVICE test point whose "device_name" is no text. -/
def Unnamed (tp : TestPoint) : Prop :=
  tp.accessor.isValidDeviceAccessor = true ∧ ∃ e, tp.deviceName = .error e

/-- The test points of the layers that are not ignored, in the order of the loops. -/
def pointsOf (layers : List (String × TestLayer)) : List (String × TestPoint) :=
  (layers.filter fun layer => !ignored.contains layer.1).flatMap fun layer => layer.2.testPoints.toList

/-- The points before the first one that names no device. -/
def ahead (points : List (String × TestPoint)) : List (String × TestPoint) :=
  points.takeWhile fun point => !isAbsent dat point.2

/-- A point ahead of the first bad one of the first device names the second. -/
def Leads (a b : String) : Prop :=
  ∃ dev, dat.devices[a]? = some dev ∧ ∃ point ∈ ahead dat (pointsOf ignored (testedLayers dev).toList), NamesDevice point.2 b

def Stuck (a : String) : Prop :=
  ∃ dev, dat.devices[a]? = some dev ∧ ∃ point ∈ ahead dat (pointsOf ignored (testedLayers dev).toList), Unnamed point.2

/-- A test of the device comes to a name that is no text. -/
def Throws (a : String) : Prop := ∃ d, ReflTransGen (Leads dat ignored) a d ∧ Stuck dat ignored d

/-- A DEVICE test point of the device, not in an ignored layer, names no device of the table. -/
def Misnames (a : String) : Prop := ∃ b, Refers dat ignored a b ∧ b ∉ dat.devices

/-- The same of a device that is not skipped. -/
def Bad (a : String) : Prop := ∃ b, Edge dat ignored a b ∧ b ∉ dat.devices

variable {dat ignored}

theorem isAbsent_iff {tp : TestPoint} : isAbsent dat tp = true ↔ ∃ other, NamesDevice tp other ∧ other ∉ dat.devices := by
  rw [isAbsent, Bool.and_eq_true]
  constructor
  · intro absent
    obtain ⟨isDevice, missing⟩ := absent
    split at missing
    · rename_i other named
      exact ⟨other, ⟨isDevice, named⟩, decide_eq_true_iff.mp missing⟩
    · cases missing
  · intro given
    obtain ⟨other, ⟨isDevice, named⟩, missing⟩ := given
    refine ⟨isDevice, ?_⟩
    rw [named]
    exact decide_eq_true missing

theorem isTested_iff {dev : Device} {name : String} {tp : TestPoint} :
    IsTested ignored dev name tp ↔ (name, tp) ∈ pointsOf ignored (testedLayers dev).toList := by
  simp only [IsTested, IsPoint, pointsOf, List.mem_flatMap, List.mem_filter, Prod.exists,
    Std.TreeMap.mem_toList_iff_getElem?_eq_some, List.contains_eq_mem, Bool.not_eq_true', decide_eq_false_iff_not,
    and_assoc]

theorem bad_iff {dev : Device} (known : dat.devices[dev.name]? = some dev) :
    Bad dat ignored dev.name ↔ ∃ point ∈ pointsOf ignored (testedLayers dev).toList, isAbsent dat point.2 = true := by
  constructor
  · intro bad
    obtain ⟨b, ⟨dev', name, tp, known', tested, isDevice, named⟩, missing⟩ := bad
    obtain rfl := Option.some.inj (known.symm.trans known')
    exact ⟨(name, tp), isTested_iff.mp tested, isAbsent_iff.mpr ⟨b, ⟨isDevice, named⟩, missing⟩⟩
  · intro given
    obtain ⟨point, member, absent⟩ := given
    obtain ⟨other, ⟨isDevice, named⟩, missing⟩ := isAbsent_iff.mp absent
    exact ⟨other, ⟨dev, point.1, point.2, known, isTested_iff.mpr member, isDevice, named⟩, missing⟩

theorem mem_of_mem_ahead {points : List (String × TestPoint)} {point : String × TestPoint}
    (member : point ∈ ahead dat points) : point ∈ points ∧ isAbsent dat point.2 = false := by
  refine ⟨(List.takeWhile_sublist _).mem member, ?_⟩
  simpa using List.mem_takeWhile_imp member

theorem Leads.edge {a b : String} (h : Leads dat ignored a b) : Edge dat ignored a b := by
  obtain ⟨dev, known, point, member, isDevice, named⟩ := h
  exact ⟨dev, point.1, point.2, known, isTested_iff.mpr (mem_of_mem_ahead member).1, isDevice, named⟩

theorem Leads.known {a b : String} (h : Leads dat ignored a b) : b ∈ dat.devices := by
  obtain ⟨_, _, point, member, named⟩ := h
  by_contra missing
  have absent := isAbsent_iff.mpr ⟨b, named, missing⟩
  rw [(mem_of_mem_ahead member).2] at absent
  cases absent

theorem mem_ahead_append {first rest : List (String × TestPoint)} {point : String × TestPoint} :
    point ∈ ahead dat (first ++ rest) ↔
      point ∈ ahead dat first ∨ (∀ p ∈ first, isAbsent dat p.2 = false) ∧ point ∈ ahead dat rest := by
  induction first with
  | nil => simp [ahead]
  | cons p first ih =>
    simp only [ahead, List.cons_append, List.takeWhile_cons, List.forall_mem_cons] at ih ⊢
    cases absent : isAbsent dat p.2 with
    | true => simp
    | false =>
      simp only [Bool.not_false, if_true, List.mem_cons, ih, true_and]
      exact or_assoc.symm

/-! ### What a test visits -/

variable (dat ignored) in
/-- A test that started at the given devices went from the one report to the other. -/
structure Visited (starts : Set String) (before after : ReportResult) : Prop where
  explored : Graph.Explored (Leads dat ignored) starts {d | d ∈ before} {d | d ∈ after}
  unstuck : ∀ d ∈ after, d ∉ before → ¬ Stuck dat ignored d

theorem Visited.refl (starts : Set String) (report : ReportResult) : Visited dat ignored starts report report :=
  ⟨Graph.Explored.refl _ _, fun _ member new => absurd member new⟩

theorem Visited.mem {starts : Set String} {before after : ReportResult} (h : Visited dat ignored starts before after)
    {d : String} (member : d ∈ before) : d ∈ after :=
  h.explored.grows member

theorem Visited.trans {starts : Set String} {before middle after : ReportResult}
    (first : Visited dat ignored starts before middle) (second : Visited dat ignored starts middle after) :
    Visited dat ignored starts before after := by
  refine ⟨first.explored.trans second.explored, fun d member new => ?_⟩
  by_cases early : d ∈ middle
  · exact first.unstuck d early new
  · exact second.unstuck d member early

theorem Visited.mono {starts more : Set String} {before after : ReportResult}
    (h : Visited dat ignored starts before after) (sub : starts ⊆ more) : Visited dat ignored more before after :=
  ⟨h.explored.mono sub, h.unstuck⟩

/-- No test that goes on from devices that do not lead to a throw has visited one that does. -/
theorem Visited.not_throws {starts : Set String} {before after : ReportResult}
    (h : Visited dat ignored starts before after) (sound : ∀ d ∈ before, ¬ Throws dat ignored d) :
    ∀ d ∈ after, ¬ Throws dat ignored d := by
  intro d member throws
  obtain ⟨s, path, stuck⟩ := throws
  induction path using ReflTransGen.head_induction_on with
  | refl =>
    by_cases old : s ∈ before
    · exact sound s old ⟨s, ReflTransGen.refl, stuck⟩
    · exact h.unstuck s member old stuck
  | head edge rest ih =>
    rename_i a b
    by_cases old : a ∈ before
    · exact sound a old ⟨s, rest.head edge, stuck⟩
    · exact ih (h.explored.closed a member old b edge)

variable (dat ignored) in
/-- Some point of the list throws, or leads to one that does. -/
def Hinders (points : List (String × TestPoint)) : Prop :=
  ∃ point ∈ ahead dat points, Unnamed point.2 ∨ ∃ b, NamesDevice point.2 b ∧ Throws dat ignored b

variable (dat ignored) in
/-- The loop over the points returned. -/
structure Went (points : List (String × TestPoint)) (before : ReportResult) (rc : RcCode) (after : ReportResult) :
    Prop where
  failed : rc = .error ↔ ∃ point ∈ points, isAbsent dat point.2 = true
  visited : Visited dat ignored {b | ∃ point ∈ ahead dat points, NamesDevice point.2 b} before after
  named : ∀ point ∈ ahead dat points, ¬ Unnamed point.2
  members : ∀ point ∈ ahead dat points, ∀ b, NamesDevice point.2 b → b ∈ after

theorem Hinders.left {first : List (String × TestPoint)} (h : Hinders dat ignored first)
    (rest : List (String × TestPoint)) : Hinders dat ignored (first ++ rest) := by
  obtain ⟨point, member, why⟩ := h
  exact ⟨point, mem_ahead_append.mpr (Or.inl member), why⟩

theorem Hinders.right {first rest : List (String × TestPoint)} (h : Hinders dat ignored rest)
    (clean : ∀ p ∈ first, isAbsent dat p.2 = false) : Hinders dat ignored (first ++ rest) := by
  obtain ⟨point, member, why⟩ := h
  exact ⟨point, mem_ahead_append.mpr (Or.inr ⟨clean, member⟩), why⟩

theorem Went.nil (report : ReportResult) : Went dat ignored [] report .succ report :=
  ⟨by simp, Visited.refl _ _, fun _ member => (List.not_mem_nil member).elim,
    fun _ member => (List.not_mem_nil member).elim⟩

theorem Went.clean {points : List (String × TestPoint)} {before after : ReportResult}
    (h : Went dat ignored points before .succ after) : ∀ p ∈ points, isAbsent dat p.2 = false := by
  intro p member
  by_contra absent
  have error := h.failed.mpr ⟨p, member, eq_true_of_ne_false absent⟩
  cases error

theorem Went.append {first rest : List (String × TestPoint)} {before middle after : ReportResult} {rc : RcCode}
    (one : Went dat ignored first before .succ middle) (two : Went dat ignored rest middle rc after) :
    Went dat ignored (first ++ rest) before rc after := by
  have clean := one.clean
  have either : ∀ {point}, point ∈ ahead dat (first ++ rest) ↔ point ∈ ahead dat first ∨ point ∈ ahead dat rest := by
    intro point
    rw [mem_ahead_append, and_iff_right clean]
  refine ⟨?_, (one.visited.mono ?_).trans (two.visited.mono ?_), ?_, ?_⟩
  · rw [two.failed]
    constructor
    · intro given
      obtain ⟨p, member, absent⟩ := given
      exact ⟨p, List.mem_append_right _ member, absent⟩
    · intro given
      obtain ⟨p, member, absent⟩ := given
      refine ⟨p, (List.mem_append.mp member).resolve_left fun early => ?_, absent⟩
      rw [clean p early] at absent
      cases absent
  · exact fun b ⟨point, member, named⟩ => ⟨point, either.mpr (Or.inl member), named⟩
  · exact fun b ⟨point, member, named⟩ => ⟨point, either.mpr (Or.inr member), named⟩
  · intro point member
    exact (either.mp member).elim (one.named point) (two.named point)
  · intro point member b named
    rcases either.mp member with early | late
    · exact two.visited.mem (one.members point early b named)
    · exact two.members point late b named

theorem Went.stopped {first : List (String × TestPoint)} {before after : ReportResult}
    (h : Went dat ignored first before .error after) (rest : List (String × TestPoint)) :
    Went dat ignored (first ++ rest) before .error after := by
  obtain ⟨p, member, absent⟩ := h.failed.mp rfl
  have same : ∀ {point}, point ∈ ahead dat (first ++ rest) ↔ point ∈ ahead dat first := by
    intro point
    rw [mem_ahead_append]
    refine or_iff_left fun ⟨clean, _⟩ => ?_
    rw [clean p member] at absent
    cases absent
  refine ⟨iff_of_true rfl ⟨p, List.mem_append_left _ member, absent⟩, h.visited.mono ?_, ?_, ?_⟩
  · exact fun b ⟨point, member, named⟩ => ⟨point, same.mpr member, named⟩
  · exact fun point member => h.named point (same.mp member)
  · exact fun point member => h.members point (same.mp member)

/-! ### The loops -/

variable (dat ignored) in
/-- A test of the device that was not in the report returned. -/
def Tested (dev : Device) (report : ReportResult) (result : RcCode × ReportResult) : Prop :=
  (result.1 = .error ↔ Bad dat ignored dev.name) ∧
    ((shouldSkip dev = true ∧ result.2 = report) ∨
      (dev.name ∈ result.2 ∧ Visited dat ignored {dev.name} report result.2))

variable (dat ignored) in
/-- What `perform` does with enough fuel, on a device that is not in the report. -/
def Performs (n : Nat) (nested : Device → ReportResult → Run (RcCode × ReportResult)) : Prop :=
  ∀ (dev : Device) (report : ReportResult), dat.devices[dev.name]? = some dev → dev.name ∉ report →
    unvisited dat report ≤ n →
      (nested dev report).Ends (Throws dat ignored dev.name) (Tested dat ignored dev report)

theorem pointsOf_skipped {dev : Device} (skip : shouldSkip dev = true) : pointsOf ignored (testedLayers dev).toList = [] := by
  rw [List.eq_nil_iff_forall_not_mem]
  intro point member
  exact not_isTested_of_skip skip point.1 point.2 (isTested_iff.mpr member)

theorem not_stuck_of_ahead {dev : Device} (known : dat.devices[dev.name]? = some dev)
    (named : ∀ point ∈ ahead dat (pointsOf ignored (testedLayers dev).toList), ¬ Unnamed point.2) :
    ¬ Stuck dat ignored dev.name := by
  intro stuck
  obtain ⟨dev', known', point, member, unnamed⟩ := stuck
  obtain rfl := Option.some.inj (known.symm.trans known')
  exact named point member unnamed

theorem visited_skipped {dev : Device} {report : ReportResult} (known : dat.devices[dev.name]? = some dev)
    (skip : shouldSkip dev = true) : Visited dat ignored {dev.name} report (report.insert dev.name {}) := by
  have none : pointsOf ignored (testedLayers dev).toList = [] := pointsOf_skipped skip
  refine ⟨?_, fun d member new => ?_⟩
  · rw [insert_members]
    apply Graph.Explored.visit (Graph.Explored.refl _ _)
    intro b leads
    obtain ⟨dev', known', point, member, _⟩ := leads
    obtain rfl := Option.some.inj (known.symm.trans known')
    rw [none] at member
    cases member
  · obtain rfl := ((StringMap.mem_insert _ _ _ _).mp member).resolve_right new
    apply not_stuck_of_ahead known
    intro point member
    rw [none] at member
    cases member

theorem evaluateNested_ends {n : Nat} {nested : Device → ReportResult → Run (RcCode × ReportResult)}
    (performs : Performs dat ignored n nested) {dev : Device} (known : dat.devices[dev.name]? = some dev)
    {report : ReportResult} (fuel : unvisited dat report ≤ n) :
    (evaluateNested nested dev.name dev report).Ends (Throws dat ignored dev.name)
      fun result => dev.name ∈ result.2 ∧ Visited dat ignored {dev.name} report result.2 := by
  unfold evaluateNested testNested
  by_cases cached : dev.name ∈ report
  · have isCached : isDeviceCached dev.name report = true := decide_eq_true cached
    rw [if_pos isCached]
    refine .returned _ rfl ⟨?_, ?_⟩
    · rw [touch, if_pos cached]
      exact cached
    · rw [touch, if_pos cached]
      exact Visited.refl _ _
  · rw [if_neg (by simpa [isDeviceCached] using cached)]
    apply (performs dev report known cached fuel).bind id
    intro result tested
    obtain ⟨rc, after⟩ := result
    obtain ⟨failed, either⟩ := tested
    rcases either with ⟨skip, same⟩ | ⟨member, visited⟩
    · -- a skipped device is entered by the evaluation of its result
      have same : after = report := same
      subst same
      cases rc with
      | succ =>
        refine .returned _ rfl ⟨?_, ?_⟩
        · rw [touch, if_neg cached]
          simp
        · rw [touch, if_neg cached]
          exact visited_skipped known skip
      | error =>
        obtain ⟨point, inside, _⟩ := (bad_iff known).mp (failed.mp rfl)
        rw [pointsOf_skipped skip] at inside
        cases inside
    · have member : dev.name ∈ after := member
      cases rc with
      | succ =>
        refine .returned _ rfl ⟨?_, ?_⟩
        · rw [touch, if_pos member]
          exact member
        · rw [touch, if_pos member]
          exact visited
      | error => exact .returned _ rfl ⟨member, visited⟩

/-! One point, which the loop stops at, passes, or tests the device of. -/

section Point
variable {name : String} {tp : TestPoint} {before after : ReportResult}

theorem ahead_present (present : isAbsent dat tp = false) : ahead dat [(name, tp)] = [(name, tp)] := by
  simp [ahead, present]

theorem Hinders.single (present : isAbsent dat tp = false)
    (why : Unnamed tp ∨ ∃ b, NamesDevice tp b ∧ Throws dat ignored b) : Hinders dat ignored [(name, tp)] := by
  refine ⟨(name, tp), ?_, why⟩
  rw [ahead_present present]
  exact List.mem_singleton_self _

theorem Went.absent (absent : isAbsent dat tp = true) (before : ReportResult) :
    Went dat ignored [(name, tp)] before .error before := by
  have nothing : ahead dat [(name, tp)] = [] := by simp [ahead, absent]
  refine ⟨iff_of_true rfl ⟨_, List.mem_singleton_self _, absent⟩, Visited.refl _ _, ?_, ?_⟩
  · rw [nothing]
    exact fun _ member => (List.not_mem_nil member).elim
  · rw [nothing]
    exact fun _ member => (List.not_mem_nil member).elim

theorem Went.passed (notDevice : ¬ tp.accessor.isValidDeviceAccessor = true) (before : ReportResult) :
    Went dat ignored [(name, tp)] before .succ before := by
  have present : isAbsent dat tp = false := by simp [isAbsent, notDevice]
  refine ⟨by simp [present], Visited.refl _ _, ?_, ?_⟩
  · rw [ahead_present present]
    intro p same unnamed
    obtain rfl := List.mem_singleton.mp same
    exact notDevice unnamed.1
  · rw [ahead_present present]
    intro p same b named
    obtain rfl := List.mem_singleton.mp same
    exact absurd named.1 notDevice

theorem Went.tested {other : String} (named : NamesDevice tp other) (present : isAbsent dat tp = false)
    (member : other ∈ after) (visited : Visited dat ignored {other} before after) :
    Went dat ignored [(name, tp)] before .succ after := by
  refine ⟨by simp [present], visited.mono ?_, ?_, ?_⟩
  · rw [ahead_present present]
    intro b same
    obtain rfl := Set.mem_singleton_iff.mp same
    exact ⟨_, List.mem_singleton_self _, named⟩
  · rw [ahead_present present]
    intro p same unnamed
    obtain ⟨_, e, failed⟩ := unnamed
    obtain rfl := List.mem_singleton.mp same
    exact nomatch named.2.symm.trans failed
  · rw [ahead_present present]
    intro p same b again
    obtain rfl := List.mem_singleton.mp same
    obtain rfl : b = other := Except.ok.inj (again.2.symm.trans named.2)
    exact member

end Point

theorem testPointsFrom_ends {n : Nat} {nested : Device → ReportResult → Run (RcCode × ReportResult)}
    (performs : Performs dat ignored n nested) {read : Oracle} {dev : Device} (points : List (String × TestPoint))
    {before : ReportResult} (fuel : unvisited dat before ≤ n) (layerReport : List TestPointResult) :
    (testPointsFrom nested dat read dev points before layerReport).Ends (Hinders dat ignored points)
      fun result => Went dat ignored points before result.1 result.2.1 := by
  induction points generalizing before layerReport with
  | nil => exact .returned _ rfl (Went.nil before)
  | cons point rest ih =>
    obtain ⟨name, tp⟩ := point
    -- a point that stops nothing, and then the rest
    have next : ∀ {middle : ReportResult} {results : List TestPointResult},
        Went dat ignored [(name, tp)] before .succ middle →
        (testPointsFrom nested dat read dev rest middle results).Ends (Hinders dat ignored ((name, tp) :: rest))
          fun result => Went dat ignored ((name, tp) :: rest) before result.1 result.2.1 := by
      intro middle results one
      have fuel' := (unvisited_mono fun d old => one.visited.mem old).trans fuel
      exact (ih fuel' results).mono (fun hinders => hinders.right one.clean) fun _ two => one.append two
    unfold testPointsFrom
    by_cases isDevice : tp.accessor.isValidDeviceAccessor = true
    · rw [if_pos isDevice]
      cases nameRead : tp.deviceName with
      | error e =>
        have present : isAbsent dat tp = false := by simp [isAbsent, nameRead]
        exact .threw e rfl ((Hinders.single present (Or.inl ⟨isDevice, e, nameRead⟩)).left rest)
      | ok other =>
        rw [Run.bind_ofExcept rfl]
        cases found : dat.devices[other]? with
        | none =>
          have absent : isAbsent dat tp = true :=
            isAbsent_iff.mpr ⟨other, ⟨isDevice, nameRead⟩, StringMap.not_mem_iff.mpr found⟩
          exact .returned _ rfl ((Went.absent absent before).stopped rest)
        | some devNested =>
          obtain rfl := dat.named other devNested found
          have named : NamesDevice tp devNested.name := ⟨isDevice, nameRead⟩
          have present : isAbsent dat tp = false := by
            simp [isAbsent, nameRead, StringMap.mem_iff.mpr ⟨devNested, found⟩]
          apply (evaluateNested_ends performs found fuel).bind
          · intro throws
            exact (Hinders.single present (Or.inr ⟨_, named, throws⟩)).left rest
          · intro result evaluated
            obtain ⟨devEvalRes, middle⟩ := result
            obtain ⟨member, visited⟩ := evaluated
            exact next (Went.tested named present member visited)
    · rw [if_neg isDevice]
      exact next (Went.passed isDevice before)

theorem layersFrom_ends {n : Nat} {nested : Device → ReportResult → Run (RcCode × ReportResult)}
    (performs : Performs dat ignored n nested) {read : Oracle} {dev : Device} (layers : List (String × TestLayer))
    {before : ReportResult} (fuel : unvisited dat before ≤ n) (deviceReport : DeviceResult) :
    (layersFrom nested dat read ignored dev layers before deviceReport).Ends (Hinders dat ignored (pointsOf ignored layers))
      fun result => Went dat ignored (pointsOf ignored layers) before result.1 result.2.1 := by
  induction layers generalizing before deviceReport with
  | nil => exact .returned _ rfl (Went.nil before)
  | cons layer rest ih =>
    obtain ⟨name, layer⟩ := layer
    unfold layersFrom
    by_cases skipped : ignored.contains name = true
    · have same : pointsOf ignored ((name, layer) :: rest) = pointsOf ignored rest := by
        rw [pointsOf, List.filter_cons_of_neg (by simpa using skipped)]
        rfl
      rw [if_pos skipped, same]
      exact ih fuel _
    · have same : pointsOf ignored ((name, layer) :: rest) = layer.testPoints.toList ++ pointsOf ignored rest := by
        rw [pointsOf, List.filter_cons_of_pos (by simpa using skipped), List.flatMap_cons]
        rfl
      rw [if_neg skipped, same]
      apply (testPointsFrom_ends performs layer.testPoints.toList fuel []).bind
      · exact fun hinders => hinders.left _
      · intro result one
        obtain ⟨rc, middle, layerReport⟩ := result
        cases rc with
        | error => exact .returned _ rfl (one.stopped _)
        | succ =>
          have fuel' := (unvisited_mono fun d old => one.visited.mem old).trans fuel
          exact (ih fuel' _).mono (fun hinders => hinders.right one.clean) fun _ two => one.append two

/-! ### The recursion -/

theorem Hinders.throws {dev : Device} (known : dat.devices[dev.name]? = some dev)
    (h : Hinders dat ignored (pointsOf ignored (testedLayers dev).toList)) : Throws dat ignored dev.name := by
  obtain ⟨point, member, unnamed | ⟨b, named, d, path, stuck⟩⟩ := h
  · exact ⟨dev.name, ReflTransGen.refl, dev, known, point, member, unnamed⟩
  · exact ⟨d, path.head ⟨dev, known, point, member, named⟩, stuck⟩

theorem Visited.congr {starts : Set String} {before after after' : ReportResult}
    (h : Visited dat ignored starts before after) (same : ∀ d, d ∈ after' ↔ d ∈ after) :
    Visited dat ignored starts before after' := by
  have sets : {d | d ∈ after'} = {d | d ∈ after} := Set.ext same
  refine ⟨?_, fun d member new => h.unstuck d ((same d).mp member) new⟩
  rw [sets]
  exact h.explored

theorem Went.visit {dev : Device} (known : dat.devices[dev.name]? = some dev) {report inside : ReportResult} {rc : RcCode}
    (h : Went dat ignored (pointsOf ignored (testedLayers dev).toList) (report.insert dev.name {}) rc inside) :
    Visited dat ignored {dev.name} report inside := by
  have leads : ∀ b, Leads dat ignored dev.name b ↔
      ∃ point ∈ ahead dat (pointsOf ignored (testedLayers dev).toList), NamesDevice point.2 b := by
    intro b
    refine ⟨fun ⟨dev', known', points⟩ => ?_, fun points => ⟨dev, known, points⟩⟩
    obtain rfl := Option.some.inj (known.symm.trans known')
    exact points
  refine ⟨Graph.Explored.visit ?_ ?_, fun d member new => ?_⟩
  · have explored := h.visited.explored
    rw [insert_members] at explored
    exact explored.mono fun b named => (leads b).mpr named
  · intro b edge
    obtain ⟨point, member, named⟩ := (leads b).mp edge
    exact h.members point member b named
  · by_cases same : d = dev.name
    · rw [same]
      exact not_stuck_of_ahead known h.named
    · refine h.visited.unstuck d member fun old => ?_
      exact ((StringMap.mem_insert _ _ _ _).mp old).elim (fun here => same here.symm) new

/-- A fuel of the number of devices left is enough. -/
theorem perform_ends (read : Oracle) (n : Nat) : Performs dat ignored n (perform dat read ignored n) := by
  induction n with
  | zero =>
    intro dev report known fresh fuel
    have visit := unvisited_visit (StringMap.mem_iff.mpr ⟨dev, known⟩) fresh {}
    omega
  | succ n ih =>
    intro dev report known fresh fuel
    by_cases skip : shouldSkip dev = true
    · refine .returned _ (perform_skip skip n report) ⟨?_, Or.inl ⟨skip, rfl⟩⟩
      rw [bad_iff known, pointsOf_skipped skip]
      simp
    · have visit := unvisited_visit (StringMap.mem_iff.mpr ⟨dev, known⟩) fresh {}
      have left : unvisited dat (report.insert dev.name {}) ≤ n := by omega
      unfold perform
      rw [if_neg (by simp [isDeviceCached, fresh, skip]), ← testedLayers_visited (Bool.eq_false_of_not_eq_true skip)]
      apply (layersFrom_ends ih (testedLayers dev).toList left {}).bind (Hinders.throws known)
      intro result went
      obtain ⟨rc, inside, deviceReport⟩ := result
      have visited := went.visit known
      have own : dev.name ∈ inside := went.visited.mem ((StringMap.mem_insert _ _ _ _).mpr (Or.inl rfl))
      have failed : rc = .error ↔ Bad dat ignored dev.name := went.failed.trans (bad_iff known).symm
      cases rc with
      | error => exact .returned _ rfl ⟨failed, Or.inr ⟨own, visited⟩⟩
      | succ =>
        refine .returned _ rfl ⟨failed, Or.inr ⟨by simp, visited.congr fun d => ?_⟩⟩
        rw [StringMap.mem_insert]
        exact or_iff_right_of_imp fun same => same ▸ own

theorem Refers.source {a b : String} (h : Refers dat ignored a b) : ∃ dev, dat.devices[a]? = some dev := by
  obtain ⟨dev, _, _, known, _⟩ := h
  exact ⟨dev, known⟩

theorem not_throws_of_skip {dev : Device} (known : dat.devices[dev.name]? = some dev) (skip : shouldSkip dev = true) :
    ¬ Throws dat ignored dev.name := by
  intro throws
  obtain ⟨d, path, stuck⟩ := throws
  have none : pointsOf ignored (testedLayers dev).toList = [] := pointsOf_skipped skip
  rcases path.cases_head with same | ⟨b, ⟨dev', known', point, member, _⟩, _⟩
  · subst same
    obtain ⟨dev', known', point, member, _⟩ := stuck
    obtain rfl := Option.some.inj (known.symm.trans known')
    rw [none] at member
    cases member
  · obtain rfl := Option.some.inj (known.symm.trans known')
    rw [none] at member
    cases member

variable (dat ignored) in
/-- A test of a device that was not in the report. -/
theorem perform_fresh (read : Oracle) {dev : Device} (known : dat.devices[dev.name]? = some dev) {report : ReportResult}
    (fresh : dev.name ∉ report) (sound : ∀ d ∈ report, ¬ Throws dat ignored d) :
    (perform dat read ignored dat.devices.size dev report).Ends (Throws dat ignored dev.name) fun result =>
      (result.1 = .error ↔ Bad dat ignored dev.name) ∧ ¬ Throws dat ignored dev.name ∧
        Visited dat ignored {dev.name} report result.2 ∧ ∀ d ∈ result.2, ¬ Throws dat ignored d := by
  apply (perform_ends read dat.devices.size dev report known fresh (unvisited_le dat report)).mono id
  intro result tested
  obtain ⟨rc, after⟩ := result
  obtain ⟨failed, either⟩ := tested
  rcases either with ⟨skip, same⟩ | ⟨member, visited⟩
  · have same : after = report := same
    subst same
    exact ⟨failed, not_throws_of_skip known skip, Visited.refl _ _, sound⟩
  · have all := visited.not_throws sound
    exact ⟨failed, all dev.name member, visited, all⟩

theorem perform_error_iff (read : Oracle) {root : Device} (known : dat.devices[root.name]? = some root) :
    (∃ report : ReportResult, ∀ fuel, dat.devices.size ≤ fuel →
      perform dat read ignored fuel root ∅ = some (.ok (.error, report))) ↔
      Bad dat ignored root.name ∧ ¬ Throws dat ignored root.name := by
  have ends := perform_fresh dat ignored read known Std.TreeMap.not_mem_emptyc (by simp)
  constructor
  · intro given
    obtain ⟨report, runs⟩ := given
    have run := runs _ le_rfl
    cases ends with
    | threw e same _ => exact nomatch run.symm.trans same
    | returned result same holds =>
      obtain rfl := Except.ok.inj (Option.some.inj (run.symm.trans same))
      exact ⟨holds.1.mp rfl, holds.2.1⟩
  · intro given
    obtain ⟨bad, sound⟩ := given
    cases ends with
    | threw e same throws => exact absurd throws sound
    | returned result same holds =>
      obtain ⟨rc, report⟩ := result
      obtain rfl : rc = .error := holds.1.mpr bad
      exact ⟨report, fun fuel enough => perform_mono enough same⟩

/-! ### The whole table -/

theorem entireFrom_mono {read : Oracle} {fuel fuel' : Nat} (le : fuel ≤ fuel') {devs : List (String × Device)}
    {report : ReportResult} {result : Except Exn (RcCode × ReportResult)}
    (h : entireFrom dat read ignored fuel devs report = some result) :
    entireFrom dat read ignored fuel' devs report = some result := by
  induction devs generalizing report result with
  | nil => exact h
  | cons entry rest ih =>
    obtain ⟨key, dev⟩ := entry
    unfold entireFrom at h ⊢
    apply Run.bind_mono (fun r => perform_mono le) _ h
    intro result r found
    obtain ⟨rc, after⟩ := result
    cases rc with
    | succ => exact ih found
    | error => exact found

variable (dat ignored) in
/-- From every device that leads to a bad one, a test finds the device itself bad and returns. -/
def Upstream : Prop :=
  ∀ a, (∃ d, ReflTransGen (Edge dat ignored) a d ∧ Bad dat ignored d) → Bad dat ignored a ∧ ¬ Throws dat ignored a

section Tour
variable (dat ignored)

def BeforeBad (devs : List (String × Device)) (name : String) : Prop :=
  ∀ other ∈ devs, Bad dat ignored other.1 → name < other.1

/-- A device before every bad one leads to a throw. -/
def Interrupted (devs : List (String × Device)) : Prop :=
  ∃ entry ∈ devs, Throws dat ignored entry.1 ∧ BeforeBad dat ignored devs entry.1

/-- The loop over the devices returned. -/
structure Toured (devs : List (String × Device)) (rc : RcCode) : Prop where
  failed : rc = .error ↔ ∃ entry ∈ devs, Bad dat ignored entry.1
  quiet : ∀ entry ∈ devs, BeforeBad dat ignored devs entry.1 → ¬ Throws dat ignored entry.1

variable {dat ignored} {entry : String × Device} {rest : List (String × Device)}

theorem Interrupted.cons (h : Interrupted dat ignored rest) (good : ¬ Bad dat ignored entry.1) :
    Interrupted dat ignored (entry :: rest) := by
  obtain ⟨other, member, throws, before⟩ := h
  refine ⟨other, List.mem_cons_of_mem _ member, throws, List.forall_mem_cons.mpr ⟨fun bad => ?_, before⟩⟩
  exact absurd bad good

theorem Interrupted.head (good : ¬ Bad dat ignored entry.1) (throws : Throws dat ignored entry.1)
    (first : ∀ other ∈ rest, entry.1 < other.1) : Interrupted dat ignored (entry :: rest) := by
  refine ⟨entry, List.mem_cons_self, throws, List.forall_mem_cons.mpr ⟨fun bad => ?_, fun other member _ => ?_⟩⟩
  · exact absurd bad good
  · exact first other member

theorem Toured.cons {rc : RcCode} (h : Toured dat ignored rest rc) (good : ¬ Bad dat ignored entry.1)
    (quiet : ¬ Throws dat ignored entry.1) : Toured dat ignored (entry :: rest) rc := by
  refine ⟨?_, List.forall_mem_cons.mpr ⟨fun _ => quiet, fun other member before => ?_⟩⟩
  · rw [h.failed, List.exists_mem_cons_iff]
    exact (or_iff_right good).symm
  · exact h.quiet other member fun later inside => before later (List.mem_cons_of_mem _ inside)

/-- The loop ends at a bad device, and the devices behind it do not count. -/
theorem Toured.stopped (bad : Bad dat ignored entry.1) (quiet : ¬ Throws dat ignored entry.1)
    (first : ∀ other ∈ rest, entry.1 < other.1) : Toured dat ignored (entry :: rest) .error := by
  refine ⟨iff_of_true rfl ⟨_, List.mem_cons_self, bad⟩, List.forall_mem_cons.mpr ⟨fun _ => quiet, ?_⟩⟩
  intro other later before
  exact absurd (before entry List.mem_cons_self bad) (lt_asymm (first other later))

end Tour

theorem entireFrom_ends (upstream : Upstream dat ignored) (read : Oracle) {devs : List (String × Device)}
    (known : ∀ entry ∈ devs, dat.devices[entry.1]? = some entry.2)
    (sorted : devs.Pairwise fun one two => one.1 < two.1) {report : ReportResult}
    (sound : ∀ d ∈ report, ¬ Bad dat ignored d ∧ ¬ Throws dat ignored d) :
    (entireFrom dat read ignored dat.devices.size devs report).Ends (Interrupted dat ignored devs)
      fun result => Toured dat ignored devs result.1 := by
  induction devs generalizing report with
  | nil => exact .returned _ rfl ⟨by simp, by simp⟩
  | cons entry rest ih =>
    obtain ⟨key, dev⟩ := entry
    obtain ⟨here, knownRest⟩ := List.forall_mem_cons.mp known
    obtain ⟨first, sortedRest⟩ := List.pairwise_cons.mp sorted
    obtain rfl := dat.named key dev here
    -- a good device, and then the rest of the table
    have next : ∀ {after : ReportResult}, ¬ Bad dat ignored dev.name → ¬ Throws dat ignored dev.name →
        (∀ d ∈ after, ¬ Bad dat ignored d ∧ ¬ Throws dat ignored d) →
        (entireFrom dat read ignored dat.devices.size rest after).Ends (Interrupted dat ignored ((dev.name, dev) :: rest))
          fun result => Toured dat ignored ((dev.name, dev) :: rest) result.1 := by
      intro after good quiet sound
      exact (ih knownRest sortedRest sound).mono (fun interrupted => interrupted.cons good)
        fun _ toured => toured.cons good quiet
    unfold entireFrom
    by_cases cached : dev.name ∈ report
    · have run : perform dat read ignored dat.devices.size dev report = some (.ok (.succ, report)) := by
        have some := size_pos (StringMap.mem_iff.mpr ⟨dev, here⟩)
        obtain ⟨n, size⟩ : ∃ n, dat.devices.size = n + 1 := ⟨dat.devices.size - 1, by omega⟩
        rw [size]
        exact if_pos (by simp [isDeviceCached, cached])
      rw [Run.bind_of_eq run]
      exact next (sound _ cached).1 (sound _ cached).2 sound
    · have fresh := perform_fresh dat ignored read here cached fun d member => (sound d member).2
      apply fresh.bind
      · intro throws
        exact .head (fun bad => absurd throws (upstream _ ⟨_, ReflTransGen.refl, bad⟩).2) throws first
      · intro result tested
        obtain ⟨rc, after⟩ := result
        obtain ⟨failed, quiet, visited, all⟩ := tested
        cases rc with
        | error => exact .returned _ rfl (.stopped (failed.mp rfl) quiet first)
        | succ =>
          have good : ¬ Bad dat ignored dev.name := by
            intro bad
            cases failed.mpr bad
          refine next good quiet fun d member => ⟨fun bad => ?_, all d member⟩
          by_cases old : d ∈ report
          · exact (sound d old).1 bad
          · -- a new device was reached from this one
            obtain ⟨a, same, path⟩ := visited.explored.reached d member old
            obtain rfl := Set.mem_singleton_iff.mp same
            exact good (upstream _ ⟨d, ReflTransGen.mono (fun _ _ => Leads.edge) _ _ path, bad⟩).1

variable (dat ignored) in
/-- No device before all bad ones leads to a throw. -/
def Downstream : Prop :=
  ∀ a ∈ dat.devices, (∀ b, Bad dat ignored b → a < b) → ¬ Throws dat ignored a

theorem Bad.known {a : String} (h : Bad dat ignored a) : ∃ dev, dat.devices[a]? = some dev :=
  h.choose_spec.1.refers.source

theorem performEntireTree_error_iff (upstream : Upstream dat ignored) (read : Oracle)
    (exists_ : ∃ d, Bad dat ignored d) :
    (∃ report : ReportResult, ∀ fuel, dat.devices.size ≤ fuel →
      performEntireTree dat read ignored fuel ∅ = some (.ok (.error, report))) ↔ Downstream dat ignored := by
  have listed : ∀ {a : String} {dev : Device}, dat.devices[a]? = some dev ↔ (a, dev) ∈ dat.devices.toList :=
    Std.TreeMap.mem_toList_iff_getElem?_eq_some.symm
  have sorted : dat.devices.toList.Pairwise fun one two => one.1 < two.1 :=
    Std.TreeMap.ordered_keys_toList.imp compare_lt_iff_lt.mp
  have nothing : ∀ d ∈ (∅ : ReportResult), ¬ Bad dat ignored d ∧ ¬ Throws dat ignored d :=
    fun d member => absurd member Std.TreeMap.not_mem_emptyc
  have ends := entireFrom_ends upstream read (fun entry member => listed.mpr member) sorted nothing
  have before : ∀ a, BeforeBad dat ignored dat.devices.toList a ↔ ∀ b, Bad dat ignored b → a < b := by
    intro a
    refine ⟨fun all b bad => ?_, fun all entry _ bad => all entry.1 bad⟩
    obtain ⟨dev, known⟩ := bad.known
    exact all (b, dev) (listed.mp known) bad
  constructor
  · intro given a member first
    obtain ⟨report, runs⟩ := given
    cases ends with
    | threw e same _ => exact nomatch (runs _ le_rfl).symm.trans same
    | returned result same holds =>
      obtain ⟨dev, known⟩ := StringMap.mem_iff.mp member
      exact holds.quiet (a, dev) (listed.mp known) ((before a).mpr first)
  · intro downstream
    cases ends with
    | threw e same why =>
      obtain ⟨entry, member, throws, first⟩ := why
      have known := StringMap.mem_iff.mpr ⟨_, listed.mpr member⟩
      exact absurd throws (downstream entry.1 known ((before entry.1).mp first))
    | returned result same holds =>
      obtain ⟨rc, report⟩ := result
      obtain ⟨d, bad⟩ := exists_
      obtain ⟨dev, known⟩ := bad.known
      obtain rfl : rc = .error := holds.failed.mpr ⟨(d, dev), listed.mp known, bad⟩
      exact ⟨report, fun fuel enough => entireFrom_mono enough same⟩

end

/-- Errors are reported for every device that leads to one with a missing target, and for the whole table,
exactly if every such device is tested and has a missing target itself and comes to no name that is no text,
and no device before all bad ones comes to one. -/
theorem errors_reported_iff (dat : DAT) (read : Oracle) (ignored : List String) :
    ((∀ root : Device, dat.devices[root.name]? = some root →
        (∃ d, ReflTransGen (Refers dat ignored) root.name d ∧ Misnames dat ignored d) →
        ∃ report : ReportResult, ∀ fuel, dat.devices.size ≤ fuel →
          perform dat read ignored fuel root ∅ = some (.ok (.error, report))) ∧
      ((∃ d, Misnames dat ignored d) → ∃ report : ReportResult, ∀ fuel, dat.devices.size ≤ fuel →
        performEntireTree dat read ignored fuel ∅ = some (.ok (.error, report)))) ↔
    (∀ a, (∃ d, ReflTransGen (Refers dat ignored) a d ∧ Misnames dat ignored d) →
        Bad dat ignored a ∧ ¬ Throws dat ignored a) ∧
      ((∃ d, Misnames dat ignored d) → ∀ a ∈ dat.devices, (∀ b, Bad dat ignored b → a < b) →
        ¬ Throws dat ignored a) := by
  have roots : (∀ root : Device, dat.devices[root.name]? = some root →
      (∃ d, ReflTransGen (Refers dat ignored) root.name d ∧ Misnames dat ignored d) →
      ∃ report : ReportResult, ∀ fuel, dat.devices.size ≤ fuel →
        perform dat read ignored fuel root ∅ = some (.ok (.error, report))) ↔
      ∀ a, (∃ d, ReflTransGen (Refers dat ignored) a d ∧ Misnames dat ignored d) →
        Bad dat ignored a ∧ ¬ Throws dat ignored a := by
    constructor
    · intro reported a leads
      obtain ⟨d, path, misnames⟩ := leads
      obtain ⟨root, known⟩ : ∃ root, dat.devices[a]? = some root := by
        rcases path.cases_head with rfl | ⟨b, refers, _⟩
        · exact misnames.choose_spec.1.source
        · exact refers.source
      obtain rfl := dat.named a root known
      exact (perform_error_iff read known).mp (reported root known ⟨d, path, misnames⟩)
    · intro upstream root known leads
      exact (perform_error_iff read known).mpr (upstream root.name leads)
  rw [roots]
  refine and_congr_right fun all => forall_congr' fun exists_ => ?_
  have upstream : Upstream dat ignored := by
    intro a leads
    obtain ⟨d, path, b, edge, missing⟩ := leads
    exact all a ⟨d, ReflTransGen.mono (fun _ _ => Edge.refers) _ _ path, b, edge.refers, missing⟩
  obtain ⟨d, misnames⟩ := exists_
  exact performEntireTree_error_iff upstream read ⟨d, (all d ⟨d, ReflTransGen.refl, misnames⟩).1⟩

/-! ### A bad device behind a good one -/

def chain : Json :=
  .object [("GPU_SXM_1", deviceJson [devicePoint "NVSwitch_0" "PASS"] []),
    ("NVSwitch_0", deviceJson [devicePoint "PCIeSwitch_0" "PASS"] [])]

/-- The point a load left in a layer is a DEVICE test point for the other device. -/
def namesAt (dat : DAT) (device layer name other : String) : Bool :=
  (((dat.devices[device]?).bind fun dev => dev.test[layer]?).bind fun testLayer => testLayer.testPoints[name]?).any
    fun tp => tp.accessor.isValidDeviceAccessor && tp.deviceName.toOption == some other

theorem refers_of_namesAt {dat : DAT} {ignored : List String} {a layer name b : String}
    (names : namesAt dat a layer name b = true) (used : layer ∉ ignored) : Refers dat ignored a b := by
  obtain ⟨tp, found, facts⟩ := (Option.any_eq_true _ _).mp names
  obtain ⟨testLayer, found, point⟩ := Option.bind_eq_some_iff.mp found
  obtain ⟨dev, known, here⟩ := Option.bind_eq_some_iff.mp found
  rw [Bool.and_eq_true, beq_iff_eq] at facts
  have named : tp.deviceName = .ok b := by
    cases name : tp.deviceName with
    | ok other =>
      rw [name] at facts
      exact congrArg _ (Option.some.inj facts.2)
    | error e =>
      rw [name] at facts
      cases facts.2
  exact ⟨dev, name, tp, known, ⟨layer, testLayer, here, used, point⟩, facts.1, named⟩

def returnCode (result : Run (RcCode × ReportResult)) : Option RcCode :=
  match result with
  | some (.ok (rc, _)) => some rc
  | _ => none

theorem returnCode_eq {result : Run (RcCode × ReportResult)} {rc : RcCode} (h : returnCode result = some rc) :
    ∃ report, result = some (.ok (rc, report)) := by
  unfold returnCode at h
  split at h
  · rename_i code report
    obtain rfl := Option.some.inj h
    exact ⟨report, rfl⟩
  · cases h

/-- The device that is named does not exist, and neither test says so. -/
theorem errors_unreported_chain : ∃ (dat : DAT) (root : Device), DAT.populateMap .empty chain = .ok dat ∧
    dat.devices["GPU_SXM_1"]? = some root ∧ Refers dat [] "GPU_SXM_1" "NVSwitch_0" ∧ Misnames dat [] "NVSwitch_0" ∧
    (∃ report : ReportResult, ∀ fuel, dat.devices.size ≤ fuel →
      perform dat readTest [] fuel root ∅ = some (.ok (.succ, report))) ∧
    ∃ report : ReportResult, ∀ fuel, dat.devices.size ≤ fuel →
      performEntireTree dat readTest [] fuel ∅ = some (.ok (.succ, report)) := by
  have run : (DAT.populateMap .empty chain).map (fun dat =>
      (namesAt dat "GPU_SXM_1" "power_rail" "NVSwitch_0" "NVSwitch_0" &&
          namesAt dat "NVSwitch_0" "power_rail" "PCIeSwitch_0" "PCIeSwitch_0" && decide ("PCIeSwitch_0" ∉ dat.devices),
        (dat.devices["GPU_SXM_1"]?).map fun root => returnCode (perform dat readTest [] dat.devices.size root ∅),
        returnCode (performEntireTree dat readTest [] dat.devices.size ∅))) =
      .ok (true, some (some .succ), some .succ) := by decide
  obtain ⟨dat, loaded, facts⟩ := map_ok run
  simp only [Prod.mk.injEq, Bool.and_eq_true, decide_eq_true_eq] at facts
  obtain ⟨⟨⟨first, second⟩, missing⟩, performed, entire⟩ := facts
  obtain ⟨root, known, performed⟩ := Option.map_eq_some_iff.mp performed
  obtain ⟨report, performed⟩ := returnCode_eq performed
  obtain ⟨entireReport, entire⟩ := returnCode_eq entire
  exact ⟨dat, root, loaded, known, refers_of_namesAt first List.not_mem_nil,
    ⟨"PCIeSwitch_0", refers_of_namesAt second List.not_mem_nil, missing⟩,
    ⟨report, fun fuel enough => perform_mono enough performed⟩,
    entireReport, fun fuel enough => entireFrom_mono enough entire⟩

end MonitorEventing.Selftest
