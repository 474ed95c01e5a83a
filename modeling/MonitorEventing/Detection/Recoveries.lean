import MonitorEventing.Detection.EventsDetection
import MonitorEventing.Lib.Distinct

/-!
# Resolving each recovery once

The first loop of `EventsDetection` keeps the pairs of an event and a full device name it has resolved by
a key, the device name with the event name behind it. What it comes to is recorded here beside it: each
pair, and whether its logs are resolved or it is skipped as already done.
-/

namespace MonitorEventing.Detection
open Accessor EventInfo

/-- The event and the full device name of a recovery, and whether `resolveDeviceLogs` is called. -/
structure Recovery where
  event : String
  fullDeviceName : String
  resolves : Bool
  deriving DecidableEq

namespace Recovery

def pair (recovery : Recovery) : String × String := (recovery.event, recovery.fullDeviceName)

end Recovery

/-- `eventFullKey` of an event and a full device name. -/
def eventFullKey (pair : String × String) : String := pair.2 ++ pair.1

/-- What `devicesFrom` comes to, to its end or to the exception it ends with. -/
def recoveriesOn (getAll : Nat → String → Except Exn ManagedObjectType) (event : EventNode)
    (asserted : List AssertedDevice) : List AssertedDevice → Detected → List Recovery
  | [], _ => []
  | entry :: rest, s =>
    match event.getFullDeviceName entry.deviceIndexTuple with
    | .error _ => []
    | .ok fullDeviceName =>
      let key := eventFullKey (event.event, fullDeviceName)
      if fullDeviceName = "" then recoveriesOn getAll event asserted rest s
      else if key ∈ s.recoveredEventDevices then
        ⟨event.event, fullDeviceName, false⟩ :: recoveriesOn getAll event asserted rest s
      else
        let s := addTracer { s with recoveredEventDevices := key :: s.recoveredEventDevices } event asserted
        ⟨event.event, fullDeviceName, true⟩ ::
          match resolve getAll s event fullDeviceName with
          | .error _ => []
          | .ok s => recoveriesOn getAll event asserted rest s

/-- What `recoverFrom` comes to. -/
def recoveriesOf (env : Nat → Env) (getAll : Nat → String → Except Exn ManagedObjectType) (pcTrigger : DataAccessor) :
    List EventNode → Nat → Detected → List Recovery
  | [], _, _ => []
  | event :: rest, n, s =>
    match checkRecovery (env n) pcTrigger event with
    | .error _ => []
    | .ok none => recoveriesOf env getAll pcTrigger rest (n + 1) s
    | .ok (some asserted) =>
      recoveriesOn getAll event asserted asserted s ++
        match devicesFrom getAll event asserted asserted s with
        | .error _ => []
        | .ok s => recoveriesOf env getAll pcTrigger rest (n + 1) s

/-- The pairs whose logs are resolved, in the order of the calls. -/
def resolvedPairs (recoveries : List Recovery) : List (String × String) :=
  (recoveries.filter (·.resolves)).map Recovery.pair

theorem resolvedPairs_append (first second : List Recovery) :
    resolvedPairs (first ++ second) = resolvedPairs first ++ resolvedPairs second := by
  rw [resolvedPairs, List.filter_append, List.map_append]
  rfl

/-! ### The keys -/

section
variable {env : Nat → Env} {getAll : Nat → String → Except Exn ManagedObjectType} {pcTrigger : DataAccessor}

theorem addTracer_recovered (s : Detected) (event : EventNode) (asserted : List AssertedDevice) :
    (addTracer s event asserted).recoveredEventDevices = s.recoveredEventDevices ∧
      (addTracer s event asserted).calls = s.calls := by
  unfold addTracer
  dsimp only
  split
  · exact ⟨rfl, rfl⟩
  · exact ⟨rfl, rfl⟩

theorem resolve_recovered {s s' : Detected} {event : EventNode} {name : String} (h : resolve getAll s event name = .ok s') :
    s'.recoveredEventDevices = s.recoveredEventDevices ∧ s'.calls = s.calls ++ [(event.event, name)] := by
  obtain ⟨paths, rfl⟩ := resolve_ok h
  exact ⟨rfl, rfl⟩

/-- Of each key the first pair is resolved. -/
theorem recoveriesOn_resolved (event : EventNode) (asserted entries : List AssertedDevice) (s : Detected) :
    resolvedPairs (recoveriesOn getAll event asserted entries s) =
      Distinct.firsts eventFullKey s.recoveredEventDevices
        ((recoveriesOn getAll event asserted entries s).map Recovery.pair) := by
  induction entries generalizing s with
  | nil => rfl
  | cons entry rest ih =>
    unfold recoveriesOn
    split
    · rfl
    · rename_i name _
      dsimp only
      split
      · exact ih s
      · split
        · rename_i old
          exact (ih s).trans (if_pos old).symm
        · rename_i fresh
          refine Eq.trans ?_ (if_neg fresh).symm
          split
          · rfl
          · rename_i next resolved
            have keys : next.recoveredEventDevices = eventFullKey (event.event, name) :: s.recoveredEventDevices :=
              (resolve_recovered resolved).1.trans (addTracer_recovered _ event asserted).1
            have later := ih next
            rw [keys] at later
            exact congrArg (List.cons _) later

/-- The pair of an asserted device, if it has a full name. -/
def namedPair (event : EventNode) (entry : AssertedDevice) : Option (String × String) :=
  match event.getFullDeviceName entry.deviceIndexTuple with
  | .ok name => if name = "" then none else some (event.event, name)
  | .error _ => none

/-- What the loop leaves, where it comes to its end. -/
theorem devicesFrom_recoveries {event : EventNode} {asserted entries : List AssertedDevice} {s s' : Detected}
    (h : devicesFrom getAll event asserted entries s = .ok s') :
    s'.recoveredEventDevices = Distinct.seenAfter eventFullKey s.recoveredEventDevices
        ((recoveriesOn getAll event asserted entries s).map Recovery.pair) ∧
      s'.calls = s.calls ++ resolvedPairs (recoveriesOn getAll event asserted entries s) ∧
      (recoveriesOn getAll event asserted entries s).map Recovery.pair = entries.filterMap (namedPair event) := by
  induction entries generalizing s with
  | nil =>
    obtain rfl := pure_ok_iff.mp h
    exact ⟨rfl, (List.append_nil _).symm, rfl⟩
  | cons entry rest ih =>
    unfold devicesFrom at h
    obtain ⟨name, named, h⟩ := bind_ok h
    have first : namedPair event entry = if name = "" then none else some (event.event, name) := by
      rw [namedPair, named]
    dsimp only at h
    unfold recoveriesOn
    rw [named, List.filterMap_cons, first]
    dsimp only
    by_cases blank : name = ""
    · rw [if_pos (Or.inl blank)] at h
      rw [if_pos blank, if_pos blank]
      exact ih h
    · have key : eventFullKey (event.event, name) = name ++ event.event := rfl
      rw [if_neg blank, if_neg blank, key]
      by_cases old : name ++ event.event ∈ s.recoveredEventDevices
      · rw [if_pos (Or.inr old)] at h
        obtain ⟨keys, calls, pairs⟩ := ih h
        rw [if_pos old]
        exact ⟨keys.trans (if_pos old).symm, calls, congrArg (List.cons _) pairs⟩
      · rw [if_neg (fun either => either.elim blank old)] at h
        obtain ⟨next, resolved, h⟩ := bind_ok h
        have added := addTracer_recovered
          { s with recoveredEventDevices := (name ++ event.event) :: s.recoveredEventDevices } event asserted
        obtain ⟨nextKeys, nextCalls⟩ := resolve_recovered resolved
        obtain ⟨keys, calls, pairs⟩ := ih h
        rw [nextKeys, added.1] at keys
        rw [nextCalls, added.2, List.append_assoc] at calls
        rw [if_neg old, resolved]
        exact ⟨keys.trans (if_neg old).symm, calls, congrArg (List.cons _) pairs⟩

theorem recoveriesOf_resolved (events : List EventNode) (n : Nat) (s : Detected) :
    resolvedPairs (recoveriesOf env getAll pcTrigger events n s) =
      Distinct.firsts eventFullKey s.recoveredEventDevices
        ((recoveriesOf env getAll pcTrigger events n s).map Recovery.pair) := by
  induction events generalizing n s with
  | nil => rfl
  | cons event rest ih =>
    unfold recoveriesOf
    split
    · rfl
    · exact ih (n + 1) s
    · rename_i asserted _
      rw [resolvedPairs_append, List.map_append, Distinct.firsts_append, recoveriesOn_resolved]
      split
      · rfl
      · rename_i next devices
        rw [ih, (devicesFrom_recoveries devices).1]

theorem recoverFrom_recoveries {events : List EventNode} {n : Nat} {s s' : Detected} {only only' : List EventNode}
    (h : recoverFrom env getAll pcTrigger events n s only = .ok (s', only')) :
    s'.calls = s.calls ++ resolvedPairs (recoveriesOf env getAll pcTrigger events n s) ∧
      (recoveriesOf env getAll pcTrigger events n s).map Recovery.pair =
        (recoveriesFrom env pcTrigger events n).flatMap fun recovery => recovery.2.filterMap (namedPair recovery.1) := by
  induction events generalizing n s only with
  | nil =>
    obtain ⟨rfl, _⟩ := Prod.mk.inj (pure_ok_iff.mp h)
    exact ⟨(List.append_nil _).symm, rfl⟩
  | cons event rest ih =>
    unfold recoverFrom at h
    unfold recoveriesOf recoveriesFrom
    obtain ⟨recovery, checked, h⟩ := bind_ok h
    rw [checked]
    cases recovery with
    | none => exact ih h
    | some asserted =>
      obtain ⟨next, devices, h⟩ := bind_ok h
      obtain ⟨_, firstCalls, firstPairs⟩ := devicesFrom_recoveries devices
      obtain ⟨calls, pairs⟩ := ih h
      dsimp only
      rw [devices]
      dsimp only
      rw [resolvedPairs_append, List.map_append, List.flatMap_cons, firstPairs, pairs, calls, firstCalls, List.append_assoc]
      exact ⟨rfl, rfl⟩

end

/-- In no call is a pair resolved twice. Each recovered pair is resolved exactly once, exactly if no two
different ones have the same key. Where the loop ends they are all the named pairs of all recoveries, and its calls
are those of the pairs resolved, in their order. -/
theorem eventsDetection_resolves_iff (env : Nat → Env) (getAll : Nat → String → Except Exn ManagedObjectType)
    (pcTrigger : DataAccessor) (events : List EventNode) :
    let recoveries := recoveriesOf env getAll pcTrigger events 0 {}
    (resolvedPairs recoveries).Nodup ∧
    ((∀ pair, (resolvedPairs recoveries).count pair = if pair ∈ recoveries.map Recovery.pair then 1 else 0) ↔
      ∀ first ∈ recoveries.map Recovery.pair, ∀ second ∈ recoveries.map Recovery.pair,
        first.2 ++ first.1 = second.2 ++ second.1 → first = second) ∧
    ∀ s only, recoverFrom env getAll pcTrigger events 0 {} [] = .ok (s, only) →
      s.calls = resolvedPairs recoveries ∧
      recoveries.map Recovery.pair =
        (recoveriesFrom env pcTrigger events 0).flatMap fun recovery => recovery.2.filterMap (namedPair recovery.1) := by
  intro recoveries
  have resolved : resolvedPairs recoveries = Distinct.firsts eventFullKey [] (recoveries.map Recovery.pair) :=
    recoveriesOf_resolved events 0 {}
  refine ⟨?_, ?_, fun s only returned => ?_⟩
  · rw [resolved]
    exact Distinct.firsts_nodup eventFullKey [] _
  · rw [resolved]
    exact Distinct.count_firsts_iff eventFullKey _
  · exact recoverFrom_recoveries returned

/-- The two pairs have one key, so the logs of the second stay unresolved. -/
theorem eventsDetection_merges_pairs : ∃ events, (∀ event ∈ events, ∃ j, EventNode.loadFrom j = .ok event) ∧
    ("G Link Down", "NVLink_10") ∈ (recoveriesOf silent emptyLog powerGood events 0 {}).map Recovery.pair ∧
    resolvedPairs (recoveriesOf silent emptyLog powerGood events 0 {}) = [("0G Link Down", "NVLink_1")] := by
  have run : ([powerEvent "0G Link Down" "NVLink_1", powerEvent "G Link Down" "NVLink_10"].mapM EventNode.loadFrom).map
      (fun events => recoveriesOf silent emptyLog powerGood events 0 {}) =
        .ok [⟨"0G Link Down", "NVLink_1", true⟩, ⟨"G Link Down", "NVLink_10", false⟩] := by decide
  obtain ⟨events, loaded, recoveries⟩ := map_ok run
  refine ⟨events, fun event member => ?_, ?_, ?_⟩
  · obtain ⟨j, _, load⟩ := forall₂_mem_right (mapM_ok_iff.mp loaded) member
    exact ⟨j, load⟩
  · rw [recoveries]
    decide
  · rw [recoveries]
    decide

end MonitorEventing.Detection
