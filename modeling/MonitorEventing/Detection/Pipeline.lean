import MonitorEventing.Detection.PopFromQueue
import MonitorEventing.Lib.Worker

/-!
# From signals to events

The thread of the bus and the one of the selftest push what they discover to the queue, and the worker thread
pops one item after the other. An exception ends the worker thread, and the main thread starts it again.
-/

namespace MonitorEventing.Detection
open Accessor EventInfo Schema

namespace Pipeline

/-- The threads that push. -/
inductive Thread where
  | bus | selftest
  deriving DecidableEq

inductive Act where
  | signal (msg : Signal)
  /-- A test of the selftest that failed. -/
  | bootup (accessor : DataAccessor)
  | pushToQueue (thread : Thread)
  | popFromQueue
  | process (world : World Nat)
  | startWorkerThread

abbrev State : Type := Worker.State Thread (PcData Nat) (World Nat) (Nat → CountedEvent)

section
variable {hashFn : String → UInt64} (capacity : Nat) (table : Table hashFn Nat) (loaded : Loaded hashFn)

/-- What the selftest pushes. An exception of the lookup leaves nothing. -/
def discovered (accessor : DataAccessor) : List (PcData Nat) :=
  match eventDiscovery table loaded.views accessor true with
  | .ok item => item.toList
  | .error _ => []

def Act.base : Act → Worker.Act Thread (PcData Nat) (World Nat)
  | .signal msg => .begin .bus (dbusEventHandlerCallback table loaded.views msg).2
  | .bootup accessor => .begin .selftest (discovered table loaded accessor)
  | .pushToQueue thread => .push thread
  | .popFromQueue => .take
  | .process world => .work world
  | .startWorkerThread => .restart

def step (s : State) (act : Act) : Option State :=
  Worker.step capacity workerThreadProcessEvent s (act.base table loaded)

/-- Events that were just loaded have not been counted. -/
def uncounted (i : Nat) : CountedEvent := { node := (loaded.events[i]?).getD {} }

def start : State := Worker.start (uncounted loaded)

def Act.signal? : Act → Option Signal
  | .signal msg => some msg
  | _ => none

def Act.bootup? : Act → Option DataAccessor
  | .bootup accessor => some accessor
  | _ => none

/-- Where everything is that a run has met. -/
structure Accounted (acts : List Act) (s : State) : Prop where
  bus : (acts.filterMap Act.signal?).flatMap (fun msg => (dbusEventHandlerCallback table loaded.views msg).2) =
    s.offered .bus ++ s.pending .bus
  selftest : (acts.filterMap Act.bootup?).flatMap (discovered table loaded) = s.offered .selftest ++ s.pending .selftest
  inOrder : s.accepted = s.handled.map (·.1) ++ s.busy.toList ++ s.queue
  bounded : s.queue.length ≤ capacity
  refused : ∀ offer ∈ s.offers, offer.accepted = false ↔ offer.waiting = capacity
  sequential : s.data = Worker.replay workerThreadProcessEvent (uncounted loaded) s.handled

variable {capacity table loaded}

theorem produced_bus (acts : List Act) :
    (acts.map (Act.base table loaded)).flatMap (Worker.Act.produced .bus) =
      (acts.filterMap Act.signal?).flatMap (fun msg => (dbusEventHandlerCallback table loaded.views msg).2) := by
  induction acts with
  | nil => rfl
  | cons act rest ih =>
    rw [List.map_cons, List.flatMap_cons, ih]
    cases act <;> rfl

theorem produced_selftest (acts : List Act) :
    (acts.map (Act.base table loaded)).flatMap (Worker.Act.produced .selftest) =
      (acts.filterMap Act.bootup?).flatMap (discovered table loaded) := by
  induction acts with
  | nil => rfl
  | cons act rest ih =>
    rw [List.map_cons, List.flatMap_cons, ih]
    cases act <;> rfl

theorem accounted_of_run {acts : List Act} {s : State}
    (run : Machine.run (step capacity table loaded) (start loaded) acts = some s) :
    Accounted capacity table loaded acts s := by
  have base : Machine.run (Worker.step capacity workerThreadProcessEvent) (start loaded)
      (acts.map (Act.base table loaded)) = some s := (Machine.run_map _ _ _).symm.trans run
  have inv := Worker.reachable_inv ⟨_, _, rfl, base⟩
  have begun := Worker.run_begun base
  refine ⟨?_, ?_, inv.conserved, inv.bounded, inv.refused, inv.replayed⟩
  · rw [← inv.produced, begun, produced_bus]
    rfl
  · rw [← inv.produced, begun, produced_selftest]
    rfl

/-- However the threads take turns, and wherever an exception stops the worker, no item is lost but those the
full queue refuses, none is handled twice or out of order, and the counts are those of handling the accepted
items one after the other. -/
theorem run_accounted {acts : List Act} {s : State}
    (run : Machine.run (step capacity table loaded) (start loaded) acts = some s) :
    Accounted capacity table loaded acts s :=
  accounted_of_run run

end

def calm : World Nat where
  sys := idle
  env := silent
  getAll := emptyLog
  left _ := { node := {} }

def gpuState (check : List (String × Json)) : Json :=
  .object (check ++ [("interface", .string "Sensor"), ("object", .string "/GPU"), ("property", .string "State"),
    ("type", .string "DBUS")])

/-- A hot GPU, reported from the third time on. -/
def hotEvents : Json :=
  gpuEvents [.object [("accessor", gpuState [("check", .object [("equal", .string "hot")])]), ("action", .string "none"),
    ("device_type", .string "GPU"), ("error_id", .string "Overheat"), ("event", .string "Overheat"),
    ("event_counter_reset", .object []), ("event_trigger", gpuState []),
    ("redfish", .object [("message_args", .object [("parameters", .array []), ("patterns", .array [])]),
      ("message_id", .string "Overheat")]), ("resolution", .string "none"), ("severity", .string "OK"),
    ("telemetries", .array []), ("trigger_count", .unsigned 3), ("value_as_count", .boolean false)]]

def gotHot : Signal where
  objectPath := "/GPU"
  msgInterface := "Sensor"
  propertiesChanged := (∅ : StringMap PropertyVariant).insert "State" (.string "hot")

/-- Three signals, with room in the queue for one item. The worker handles that of the first. -/
def burst : List Act :=
  [.signal gotHot, .pushToQueue .bus, .signal gotHot, .pushToQueue .bus, .popFromQueue, .process calm,
    .signal gotHot, .pushToQueue .bus]

section
variable {loaded : Loaded lengthHash} (load : loadFromJson (inInsertionOrder lengthHash) {} hotEvents = .ok loaded)
include load

/-- The item of the second signal is refused. -/
theorem exists_burst : ∃ s : State, Machine.run (step 1 scan loaded) (start loaded) burst = some s ∧
    s.offers.map (fun offer => (offer.accepted, offer.waiting)) = [(true, 0), (false, 1), (true, 0)] ∧
    s.handled.length = 1 ∧ s.queue.length = 1 := by
  have computed : (loadFromJson (inInsertionOrder lengthHash) {} hotEvents).map (fun loaded =>
      (Machine.run (step 1 scan loaded) (start loaded) burst).map fun s =>
        (s.offers.map fun offer => (offer.accepted, offer.waiting), s.handled.length, s.queue.length)) =
      .ok (some ([(true, 0), (false, 1), (true, 0)], 1, 1)) := by
    decide +kernel
  rw [load] at computed
  obtain ⟨s, run, facts⟩ := Option.map_eq_some_iff.mp (Except.ok.inj computed)
  simp only [Prod.mk.injEq] at facts
  exact ⟨s, run, facts⟩

theorem exists_burst_handled : ∃ s : State,
    Machine.run (step 1 scan loaded) (start loaded) (burst ++ [.popFromQueue, .process calm]) = some s ∧
    s.stopped = false ∧ (s.data 0).countOf "GPU" = 2 ∧
    (isEvent idle.env (s.data 0) "GPU" invalidIntParam).isOk = true := by
  have computed : (loadFromJson (inInsertionOrder lengthHash) {} hotEvents).map (fun loaded =>
      (Machine.run (step 1 scan loaded) (start loaded) (burst ++ [.popFromQueue, .process calm])).map fun s =>
        (s.stopped, (s.data 0).countOf "GPU", (isEvent idle.env (s.data 0) "GPU" invalidIntParam).isOk)) =
      .ok (some (false, 2, true)) := by
    decide +kernel
  rw [load] at computed
  obtain ⟨s, run, facts⟩ := Option.map_eq_some_iff.mp (Except.ok.inj computed)
  simp only [Prod.mk.injEq] at facts
  exact ⟨s, run, facts⟩

theorem exists_hot : ∃ e, loaded.events[0]? = some e ∧ e.valueAsCount = false ∧ e.triggerCount = 3 ∧
    Concerned loaded ("State", "Sensor", "/GPU") 0 := by
  have computed : (loadFromJson (inInsertionOrder lengthHash) {} hotEvents).map (fun loaded =>
      (loaded.events[0]?).map fun e => (e.valueAsCount, e.triggerCount,
        decide ((e.trigger.isEmpty = false ∧ e.trigger.isTypeDbus = true) ∧ e.trigger.getProperty = .ok "State" ∧
          e.trigger.getDbusInterface = .ok "Sensor" ∧ e.trigger.getDbusObjectPath = .ok "/GPU"))) =
      .ok (some (false, 3, true)) := by
    decide +kernel
  rw [load] at computed
  obtain ⟨e, read, facts⟩ := Option.map_eq_some_iff.mp (Except.ok.inj computed)
  simp only [Prod.mk.injEq, decide_eq_true_eq] at facts
  obtain ⟨counts, trigger, used, property, interface, object⟩ := facts
  have plain : DataAccessor.Concrete "/GPU" := by
    simp [DataAccessor.Concrete, Text.Free, DeviceId.Grammar.isBracket]
  obtain ⟨p, built⟩ := DataAccessor.accepted_of_concrete plain
  have value : DataAccessor.IsValueOf "/GPU" "/GPU" :=
    ⟨p, built, (DeviceId.DeviceIdPattern.plain_value_iff built plain _).mpr rfl⟩
  exact ⟨e, read, counts, trigger, e, read, Or.inl ⟨used, property, interface, "/GPU", object, value⟩⟩

end

theorem exists_hotEvents : ∃ loaded, loadFromJson (inInsertionOrder lengthHash) {} hotEvents = .ok loaded := by
  have computed : (loadFromJson (inInsertionOrder lengthHash) {} hotEvents).map (fun _ => ()) = .ok () := by
    decide +kernel
  obtain ⟨loaded, load, _⟩ := map_ok computed
  exact ⟨loaded, load⟩

theorem run_accounted_burst : ∃ (loaded : Loaded lengthHash) (s : State), Accounted 1 scan loaded burst s ∧
    s.offers.map (fun offer => (offer.accepted, offer.waiting)) = [(true, 0), (false, 1), (true, 0)] ∧
    s.handled.length = 1 ∧ s.queue.length = 1 := by
  obtain ⟨loaded, load⟩ := exists_hotEvents
  obtain ⟨s, run, facts⟩ := exists_burst load
  exact ⟨loaded, s, run_accounted run, facts⟩

section
variable {hashFn : String → UInt64} {capacity : Nat} {table : Table hashFn Nat} {loaded : Loaded hashFn}

/-! ### What the worker still has to do -/

def Act.isWorkers : Act → Bool
  | .popFromQueue => true
  | .process _ => true
  | .startWorkerThread => true
  | _ => false

variable (table loaded) in
theorem exists_base {act : Worker.Act Thread (PcData Nat) (World Nat)} (worker : act.isWorkers = true) :
    ∃ own : Act, own.isWorkers = true ∧ own.base table loaded = act := by
  cases act with
  | begin | push => cases worker
  | take => exact ⟨.popFromQueue, rfl, rfl⟩
  | work world => exact ⟨.process world, rfl, rfl⟩
  | restart => exact ⟨.startWorkerThread, rfl, rfl⟩

variable (table loaded) in
theorem exists_bases {acts : List (Worker.Act Thread (PcData Nat) (World Nat))}
    (workers : ∀ act ∈ acts, act.isWorkers = true) :
    ∃ own : List Act, (∀ act ∈ own, act.isWorkers = true) ∧ own.map (Act.base table loaded) = acts := by
  induction acts with
  | nil => exact ⟨[], by simp, rfl⟩
  | cons act rest ih =>
    obtain ⟨here, later⟩ := List.forall_mem_cons.mp workers
    obtain ⟨first, workerFirst, rfl⟩ := exists_base table loaded here
    obtain ⟨own, workersOwn, rfl⟩ := ih later
    exact ⟨first :: own, List.forall_mem_cons.mpr ⟨workerFirst, workersOwn⟩, rfl⟩

theorem mem_signals {acts : List Act} {msg : Signal} : msg ∈ acts.filterMap Act.signal? ↔ .signal msg ∈ acts := by
  rw [List.mem_filterMap]
  constructor
  · intro found
    obtain ⟨act, member, same⟩ := found
    cases act with
    | signal other =>
      obtain rfl := Option.some.inj same
      exact member
    | _ => cases same
  · exact fun member => ⟨_, member, rfl⟩

/-- What became of an item: it was handled, its thread has not pushed it yet, or the full queue refused it. -/
def Settled (capacity : Nat) (s t : State) (item : PcData Nat) : Prop :=
  item ∈ t.handled.map (·.1) ∨ item ∈ s.pending .bus ∨
    ∃ offer ∈ s.offers, offer.item = item ∧ offer.accepted = false ∧ offer.waiting = capacity

theorem settled_of_accounted {acts : List Act} {s t : State} (accounted : Accounted capacity table loaded acts s)
    (drained : t.handled.map (·.1) = s.accepted) {msg : Signal} (signalled : .signal msg ∈ acts) {item : PcData Nat}
    (queued : item ∈ (dbusEventHandlerCallback table loaded.views msg).2) : Settled capacity s t item := by
  have all : item ∈ s.offered .bus ++ s.pending .bus := by
    rw [← accounted.bus]
    exact List.mem_flatMap.mpr ⟨msg, mem_signals.mpr signalled, queued⟩
  rcases List.mem_append.mp all with offered | pending
  · obtain ⟨offer, member, same⟩ := List.mem_map.mp offered
    have put := List.mem_of_mem_filter member
    cases accepted : offer.accepted with
    | true =>
      refine Or.inl ?_
      rw [drained, ← same]
      exact List.mem_map_of_mem (List.mem_filter.mpr ⟨put, accepted⟩)
    | false => exact Or.inr (Or.inr ⟨offer, put, same, accepted, (accounted.refused offer put).mp accepted⟩)
  · exact Or.inr (Or.inl pending)

/-! ### What was counted -/

/-- The devices that an event was asserted on, item after item. -/
def assertionsFrom (i : Nat) : (Nat → CountedEvent) → List (PcData Nat × World Nat) → List String
  | _, [] => []
  | events, (pc, world) :: rest =>
    assertedBy world pc events i ++ assertionsFrom i (workerThreadProcessEvent world pc events).2 rest

theorem replay_counts {node : EventNode} (counts : node.valueAsCount = false) (low : -1 ≤ node.triggerCount)
    (high : node.triggerCount < 2 ^ 31) {i : Nat} {handled : List (PcData Nat × World Nat)} {past : List String}
    {events : Nat → CountedEvent} (before : Counts node past (events i))
    (goes : Worker.GoesOn workerThreadProcessEvent events handled) :
    Counts node (past ++ assertionsFrom i events handled)
      (Worker.replay workerThreadProcessEvent events handled i) := by
  induction handled generalizing past events with
  | nil => simpa [assertionsFrom, Worker.replay] using before
  | cons entry rest ih =>
    obtain ⟨pc, world⟩ := entry
    obtain ⟨went, later⟩ := goes
    have next : Counts node (past ++ assertedBy world pc events i) ((workerThreadProcessEvent world pc events).2 i) := by
      rw [workerThreadProcessEvent] at went ⊢
      cases popped : popFromQueue world pc events with
      | error e =>
        rw [popped] at went
        cases went
      | ok final => exact popFromQueue_counts counts low high before popped
    rw [assertionsFrom, ← List.append_assoc]
    exact ih next later

/-- As long as no exception has ended the worker thread, an event's count on a device is the number of its
assertions there, up to the trigger count, and the next one is reported if it brings them to the trigger count. -/
theorem run_counts {acts : List Act} {s : State}
    (run : Machine.run (step capacity table loaded) (start loaded) acts = some s)
    (never : Act.startWorkerThread ∉ acts) (runs : s.stopped = false) {i : Nat} {e : EventNode}
    (event : loaded.events[i]? = some e) (counts : e.valueAsCount = false) (low : -1 ≤ e.triggerCount)
    (high : e.triggerCount < 2 ^ 31) (device : String) :
    (s.data i).countOf device =
        countAfter e.triggerCount ((assertionsFrom i (uncounted loaded) s.handled).count device) ∧
      ∀ env compareCount answer, isEvent env (s.data i) device compareCount = .ok answer →
        (answer.raised = true ↔
          Raises e.triggerCount ((assertionsFrom i (uncounted loaded) s.handled).count device + 1)) := by
  have base : Machine.run (Worker.step capacity workerThreadProcessEvent) (start loaded)
      (acts.map (Act.base table loaded)) = some s := (Machine.run_map _ _ _).symm.trans run
  have unrestarted : Worker.Act.restart ∉ acts.map (Act.base table loaded) := by
    intro member
    obtain ⟨act, listed, same⟩ := List.mem_map.mp member
    cases act with
    | startWorkerThread => exact never listed
    | _ => cases same
  have begins : Counts e [] (uncounted loaded i) := by
    have same : (uncounted loaded i).node = (loaded.events[i]?).getD {} := rfl
    refine ⟨by rw [same, event]; rfl, fun other => ?_⟩
    have zero : (uncounted loaded i).countOf other = 0 := rfl
    rw [zero, countAfter]
    split
    · rfl
    · simp
      omega
  have goes := Worker.run_goesOn unrestarted Worker.start_inv (fun _ => trivial) base runs
  have final := replay_counts counts low high begins goes
  rw [← (accounted_of_run run).sequential, List.nil_append] at final
  obtain ⟨rfl, stored⟩ := final
  refine ⟨stored device, fun env compareCount answer h => ?_⟩
  rw [(isEvent_counts_ok counts low high (stored device) h).1, decide_eq_true_iff]

/-- Asserted twice, the event is reported the third time. -/
theorem run_counts_burst : ∃ (loaded : Loaded lengthHash) (s : State),
    Machine.run (step 1 scan loaded) (start loaded) (burst ++ [.popFromQueue, .process calm]) = some s ∧
      (s.data 0).countOf "GPU" = 2 ∧ (assertionsFrom 0 (uncounted loaded) s.handled).count "GPU" = 2 ∧
      ∃ answer, isEvent idle.env (s.data 0) "GPU" invalidIntParam = .ok answer ∧ answer.raised = true := by
  obtain ⟨loaded, load⟩ := exists_hotEvents
  obtain ⟨s, run, runs, two, answers⟩ := exists_burst_handled load
  obtain ⟨e, event, counts, trigger, _⟩ := exists_hot load
  obtain ⟨counted, reports⟩ := run_counts run (by simp [burst]) runs event counts (by omega) (by omega) "GPU"
  rw [trigger] at counted reports
  have asserted : (assertionsFrom 0 (uncounted loaded) s.handled).count "GPU" = 2 := by
    rw [two, countAfter] at counted
    omega
  cases next : isEvent idle.env (s.data 0) "GPU" invalidIntParam with
  | error e =>
    rw [next] at answers
    cases answers
  | ok answer =>
    refine ⟨loaded, s, run, two, asserted, answer, next, ?_⟩
    rw [reports _ _ answer next, asserted]
    decide

end

end Pipeline

end MonitorEventing.Detection
