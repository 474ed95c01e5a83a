import MonitorEventing.Detection.Discovery
import MonitorEventing.Detection.EventsDetection
import MonitorEventing.Detection.ProcessEventList

/-!
# One item of the queue

`popFromQueue` detects the events that an item asserts and handles them. The detection gets pointers to the
events and passes them on, so that what is counted for one candidate is there for the next.
-/

namespace MonitorEventing.Detection
open Accessor EventInfo

/-! ### Detection with pointers -/

section
variable {Ref : Type} (env : Nat → Env) (getAll : Nat → String → Except Exn ManagedObjectType) (pcTrigger : DataAccessor)
  (events : Ref → CountedEvent)

/-- The first loop, with the events that its candidates point to. -/
def recoverShared : List Ref → Nat → Detected → List (SharedCandidate Ref) → List Ref →
    Except Exn (Detected × List (SharedCandidate Ref) × List Ref)
  | [], _, s, eventCandidateList, eventsOnlyPattern => pure (s, eventCandidateList, eventsOnlyPattern)
  | eventPtr :: rest, n, s, eventCandidateList, eventsOnlyPattern => do
    let recovery ← checkRecovery (env n) pcTrigger (events eventPtr).node
    match recovery with
    | some asserted => do
      let next ← devicesFrom getAll (events eventPtr).node asserted asserted s
      let made := next.eventCandidateList.length - s.eventCandidateList.length
      recoverShared rest (n + 1) next (eventCandidateList ++ List.replicate made ⟨eventPtr, asserted, true⟩) eventsOnlyPattern
    | none => recoverShared rest (n + 1) s eventCandidateList (eventsOnlyPattern ++ [eventPtr])

def eventsShared : List Ref → Nat → List (SharedCandidate Ref) → Except Exn (List (SharedCandidate Ref))
  | [], _, eventCandidateList => pure eventCandidateList
  | eventPtr :: rest, n, eventCandidateList => do
    let check ← checkEvent (env n) pcTrigger (events eventPtr).node
    eventsShared rest (n + 1)
      (if check.passed then eventCandidateList ++ [⟨eventPtr, check.assertedDevices, false⟩] else eventCandidateList)

def detectShared (possibleEventPatternList : List Ref) : Except Exn (List (SharedCandidate Ref) × List String) := do
  let (s, eventCandidateList, eventsOnlyPattern) ← recoverShared env getAll pcTrigger events possibleEventPatternList 0 {} [] []
  let eventCandidateList ← eventsShared env pcTrigger events eventsOnlyPattern possibleEventPatternList.length eventCandidateList
  pure (eventCandidateList, s.resolved)

def SharedCandidate.erase (candidate : SharedCandidate Ref) : EventCandidate :=
  ⟨(events candidate.event).node, candidate.assertedDevices, candidate.isRecovery⟩

end

section
variable {Ref : Type} {env : Nat → Env} {getAll : Nat → String → Except Exn ManagedObjectType} {pcTrigger : DataAccessor}
  {events : Ref → CountedEvent}

theorem addTracer_candidates (s : Detected) (event : EventNode) (asserted : List AssertedDevice) :
    ∃ made, (addTracer s event asserted).eventCandidateList =
      s.eventCandidateList ++ List.replicate made ⟨event, asserted, true⟩ := by
  unfold addTracer
  dsimp only
  split
  · exact ⟨0, by simp⟩
  · exact ⟨1, rfl⟩

/-- The candidates that an event adds are of this event. -/
theorem devicesFrom_candidates {event : EventNode} {asserted entries : List AssertedDevice} {s s' : Detected}
    (h : devicesFrom getAll event asserted entries s = .ok s') :
    ∃ made, s'.eventCandidateList = s.eventCandidateList ++ List.replicate made ⟨event, asserted, true⟩ := by
  induction entries generalizing s with
  | nil =>
    obtain rfl := pure_ok_iff.mp h
    exact ⟨0, by simp⟩
  | cons entry rest ih =>
    unfold devicesFrom at h
    obtain ⟨name, _, h⟩ := bind_ok h
    dsimp only at h
    split at h
    · exact ih h
    · obtain ⟨next, resolved, h⟩ := bind_ok h
      obtain ⟨traced, added⟩ := addTracer_candidates
        { s with recoveredEventDevices := (name ++ event.event) :: s.recoveredEventDevices } event asserted
      obtain ⟨made, later⟩ := ih h
      refine ⟨traced + made, ?_⟩
      rw [later, (resolve_frame resolved).1, added, List.append_assoc, List.replicate_append_replicate]

theorem recoverShared_erase (eventPtrs : List Ref) (n : Nat) (s : Detected) (shared : List (SharedCandidate Ref))
    (only : List Ref) (same : shared.map (SharedCandidate.erase events) = s.eventCandidateList) :
    recoverFrom env getAll pcTrigger (eventPtrs.map fun ptr => (events ptr).node) n s (only.map fun ptr => (events ptr).node) =
      (recoverShared env getAll pcTrigger events eventPtrs n s shared only).map
        (fun result => (result.1, result.2.2.map fun ptr => (events ptr).node)) ∧
    ∀ result, recoverShared env getAll pcTrigger events eventPtrs n s shared only = .ok result →
      result.2.1.map (SharedCandidate.erase events) = result.1.eventCandidateList := by
  induction eventPtrs generalizing n s shared only with
  | nil =>
    refine ⟨rfl, fun result h => ?_⟩
    obtain rfl := pure_ok_iff.mp h
    exact same
  | cons ptr rest ih =>
    rw [List.map_cons, recoverFrom, recoverShared]
    cases recovery : checkRecovery (env n) pcTrigger (events ptr).node with
    | error e => exact ⟨rfl, fun result h => by cases h⟩
    | ok found =>
      cases found with
      | none =>
        have later := ih (n + 1) s shared (only ++ [ptr]) same
        rw [List.map_append] at later
        exact later
      | some asserted =>
        cases devices : devicesFrom getAll (events ptr).node asserted asserted s with
        | error e => exact ⟨by simp [bind, Except.bind, devices, Except.map], fun result h => by simp [bind, Except.bind, devices] at h⟩
        | ok next =>
          obtain ⟨made, added⟩ := devicesFrom_candidates devices
          have number : next.eventCandidateList.length - s.eventCandidateList.length = made := by
            rw [added, List.length_append, List.length_replicate]
            omega
          let candidate : SharedCandidate Ref := ⟨ptr, asserted, true⟩
          have extended : (shared ++ List.replicate made candidate).map (SharedCandidate.erase events) =
              next.eventCandidateList := by
            rw [List.map_append, same, added, List.map_replicate]
            rfl
          have later := ih (n + 1) next (shared ++ List.replicate made candidate) only extended
          simpa only [bind, Except.bind, devices, number] using later

theorem eventsShared_erase (eventPtrs : List Ref) (n : Nat) (shared : List (SharedCandidate Ref)) :
    eventsFrom env pcTrigger (eventPtrs.map fun ptr => (events ptr).node) n (shared.map (SharedCandidate.erase events)) =
      (eventsShared env pcTrigger events eventPtrs n shared).map (·.map (SharedCandidate.erase events)) := by
  induction eventPtrs generalizing n shared with
  | nil => rfl
  | cons ptr rest ih =>
    rw [List.map_cons, eventsFrom, eventsShared]
    cases checkEvent (env n) pcTrigger (events ptr).node with
    | error e => rfl
    | ok check =>
      have later := ih (n + 1) (if check.passed then shared ++ [⟨ptr, check.assertedDevices, false⟩] else shared)
      simp only [bind, Except.bind]
      rw [← later]
      cases check.passed with
      | true => simp [SharedCandidate.erase]
      | false => rfl

/-- The pointers change nothing about what is detected. -/
theorem detectShared_erase (eventPtrs : List Ref) :
    eventsDetection env getAll pcTrigger (eventPtrs.map fun ptr => (events ptr).node) =
      (detectShared env getAll pcTrigger events eventPtrs).map fun result =>
        (result.1.map (SharedCandidate.erase events), result.2) := by
  obtain ⟨loop, candidates⟩ := @recoverShared_erase Ref env getAll pcTrigger events eventPtrs 0 {} [] [] rfl
  rw [eventsDetection, detectShared]
  rw [List.map_nil] at loop
  rw [loop, List.length_map]
  cases recovered : recoverShared env getAll pcTrigger events eventPtrs 0 {} [] [] with
  | error e => rfl
  | ok result =>
    simp only [bind, Except.bind, Except.map]
    rw [← candidates result recovered, eventsShared_erase]
    cases eventsShared env pcTrigger events result.2.2 eventPtrs.length result.2.1 with
    | error e => rfl
    | ok shared => rfl

end

/-! ### One item -/

/-- What the worker meets while it handles an item: the system, what is read from it, and the events as an
exception leaves them. -/
structure World (Ref : Type) where
  sys : System
  env : Nat → Env
  getAll : Nat → String → Except Exn ManagedObjectType
  left : Ref → CountedEvent

section
variable {Ref : Type} [DecidableEq Ref]

/-- `popFromQueue`, with an item of the queue. -/
def popFromQueue (world : World Ref) (pc : PcData Ref) (events : Ref → CountedEvent) : Except Exn (Ref → CountedEvent) := do
  let (eventsCandidateList, _) ← detectShared world.env world.getAll pc.accessor events pc.eventPtrs
  if eventsCandidateList.isEmpty then pure events
  else (processEventList world.sys true pc.accessor.dataValue eventsCandidateList events).1

/-- An exception ends the loop of the worker thread. -/
def workerThreadProcessEvent (world : World Ref) (pc : PcData Ref) (events : Ref → CountedEvent) :
    Bool × (Ref → CountedEvent) :=
  match popFromQueue world pc events with
  | .ok events => (true, events)
  | .error _ => (false, world.left)

end

/-! ### Counting -/

section
variable {Ref : Type} [DecidableEq Ref]

/-- The devices of an event that candidates assert it on. -/
def assertionsOf (eventsCandidateList : List (SharedCandidate Ref)) (ref : Ref) :
    List String :=
  eventsCandidateList.flatMap fun candidate =>
    if candidate.event = ref ∧ candidate.isRecovery = false then candidate.assertedDevices.map (·.device) else []

/-- The same for an item of the queue. -/
def assertedBy (world : World Ref) (pc : PcData Ref) (events : Ref → CountedEvent) (ref : Ref) : List String :=
  match detectShared world.env world.getAll pc.accessor events pc.eventPtrs with
  | .ok (eventsCandidateList, _) => assertionsOf eventsCandidateList ref
  | .error _ => []

end

section
variable {env : Env} {candidate : CountedEvent}

/-- One call that was answered. -/
theorem isEvent_counts_ok (counts : candidate.node.valueAsCount = false) (low : -1 ≤ candidate.node.triggerCount)
    (high : candidate.node.triggerCount < 2 ^ 31) {device : String} {n : Nat}
    (stored : candidate.countOf device = countAfter candidate.node.triggerCount n) {compareCount : Int}
    {answer : Answer} (h : isEvent env candidate device compareCount = .ok answer) :
    answer.raised = decide (Raises candidate.node.triggerCount (n + 1)) ∧ answer.candidate.node = candidate.node ∧
      ∀ other, answer.candidate.countOf other =
        if device = other then countAfter candidate.node.triggerCount (n + 1) else candidate.countOf other := by
  by_cases room : candidate.node.triggerCount = 2 ^ 31 - 1 → n + 1 < 2 ^ 31
  · obtain ⟨next, run, node, others⟩ := isEvent_counts env counts low high stored room compareCount
    obtain rfl := Except.ok.inj (run.symm.trans h)
    exact ⟨rfl, node, others⟩
  · obtain ⟨largest, past⟩ := Classical.not_imp.mp room
    have full : candidate.countOf device = 2 ^ 31 - 1 := by
      rw [stored, countAfter, largest]
      omega
    rw [isEvent_overflow env full] at h
    cases h

/-- The counts of an event after assertions on the devices of `past`. -/
structure Counts (node : EventNode) (past : List String) (candidate : CountedEvent) : Prop where
  kept : candidate.node = node
  stored : ∀ device, candidate.countOf device = countAfter node.triggerCount (past.count device)

end

section
variable {sys : System} {isMultiThread : Bool} {node : EventNode} (counts : node.valueAsCount = false)
  (low : -1 ≤ node.triggerCount) (high : node.triggerCount < 2 ^ 31)
include counts low high

theorem processDevices_counts {isRecovery : Bool} {eventValue : Int} {devices : List AssertedDevice} {past : List String}
    {candidate final : CountedEvent} (before : Counts node past candidate)
    (h : (processDevices sys isMultiThread isRecovery eventValue devices candidate).1 = .ok final) :
    Counts node (past ++ if isRecovery then [] else devices.map (·.device)) final := by
  induction devices generalizing past candidate with
  | nil =>
    obtain rfl := Except.ok.inj h
    simpa using before
  | cons assertedDevice rest ih =>
    unfold processDevices at h
    dsimp only at h
    split at h
    · rename_i recovers
      split at h
      · cases h
      · simpa [recovers] using ih before h
    · rename_i asserts
      split at h
      · cases h
      · rename_i given answered
        split at h
        · cases h
        · obtain ⟨same, stored⟩ := before
          subst same
          obtain ⟨_, kept, others⟩ := isEvent_counts_ok counts low high (stored _) answered
          have next : Counts candidate.node (past ++ [assertedDevice.device]) given.candidate := by
            refine ⟨kept, fun device => ?_⟩
            rw [others]
            by_cases here : assertedDevice.device = device
            · subst here
              simp [occurrenceOn]
            · simp [occurrenceOn, here, stored]
          have all := ih next h
          rw [if_neg asserts] at all ⊢
          simpa using all

variable {Ref : Type} [DecidableEq Ref] {ref : Ref}

theorem processEventList_counts {propertyValue : PropertyValue} {candidates : List (SharedCandidate Ref)}
    {past : List String} {events final : Ref → CountedEvent} (before : Counts node past (events ref))
    (h : (processEventList sys isMultiThread propertyValue candidates events).1 = .ok final) :
    Counts node (past ++ assertionsOf candidates ref) (final ref) := by
  induction candidates generalizing past events with
  | nil =>
    obtain rfl := Except.ok.inj h
    simpa [assertionsOf] using before
  | cons shared rest ih =>
    unfold processEventList at h
    dsimp only at h
    split at h
    · cases h
    · rename_i candidate asked ended
      rw [assertionsOf, List.flatMap_cons, ← List.append_assoc]
      apply ih _ h
      by_cases same : shared.event = ref
      · subst same
        have here := processDevices_counts counts low high before (congrArg Prod.fst ended)
        rw [Function.update_self]
        cases recovers : shared.isRecovery <;> simpa [recovers] using here
      · rw [Function.update_of_ne (Ne.symm same), if_neg (fun both => same both.1), List.append_nil]
        exact before

theorem popFromQueue_counts {world : World Ref} {pc : PcData Ref} {past : List String} {events final : Ref → CountedEvent}
    (before : Counts node past (events ref)) (h : popFromQueue world pc events = .ok final) :
    Counts node (past ++ assertedBy world pc events ref) (final ref) := by
  obtain ⟨⟨candidates, resolved⟩, detected, h⟩ := bind_ok h
  rw [assertedBy, detected]
  dsimp only at h ⊢
  split at h
  · rename_i none
    obtain rfl := pure_ok_iff.mp h
    rw [List.isEmpty_iff.mp none]
    simpa [assertionsOf] using before
  · exact processEventList_counts counts low high before h

end

end MonitorEventing.Detection
