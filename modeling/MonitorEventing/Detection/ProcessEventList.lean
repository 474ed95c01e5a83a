import MonitorEventing.Detection.IsEvent

/-!
# Handling the detected events

`processEventList` takes the candidates one by one and asks `IsEvent` about each of their devices. An
event whose value is its count is asked about with the 64 bit value of the property, which goes through
an `int` on its way.
-/

namespace MonitorEventing.Detection
open Accessor EventInfo DeviceUtil Dat

/-- What handling needs from outside: the health of a device where it is read from the bus, and the
handlers, which get to know whether the event recovers and whether they run in threads of their own. -/
structure System where
  env : Env
  deviceHealth : Option (String → String)
  handle : Bool → Bool → EventNode → Except Exn Unit

/-- A candidate with a pointer to the event, which other candidates may share. -/
structure SharedCandidate (Ref : Type) where
  event : Ref
  assertedDevices : List AssertedDevice
  isRecovery : Bool

/-- A call of `IsEvent`. -/
structure Asked where
  candidate : CountedEvent
  device : String
  answer : Except Exn Answer

/-- The copy of the event that is handled. -/
def occurrenceOn (event : EventNode) (assertedDevice : AssertedDevice) : EventNode :=
  { event with
    device := assertedDevice.device
    trigger := assertedDevice.trigger
    accessor := assertedDevice.accessor
    deviceIndexTuple := some assertedDevice.deviceIndexTuple }

def addSeverities (sys : System) (event : EventNode) : Except Exn EventNode :=
  match sys.deviceHealth with
  | none => pure event
  | some health => do
    let severity ← Severity.ofString event.severity
    if health event.device = "" then pure { event with severities := event.severities ++ [severity] }
    else do
      let current ← Severity.ofString (health event.device)
      pure { event with severities := event.severities ++ [severity, current] }

/-- What is done about a device that `IsEvent` has answered for. -/
def handleEvent (sys : System) (isMultiThread raised : Bool) (event : EventNode) : Except Exn Unit :=
  if raised then do
    let event ← addSeverities sys event
    sys.handle false isMultiThread event
  else pure ()

/-- The loop over the devices: how it ends, and what it has asked. -/
def processDevices (sys : System) (isMultiThread isRecovery : Bool) (eventValue : Int) :
    List AssertedDevice → CountedEvent → Except Exn CountedEvent × List Asked
  | [], candidate => (.ok candidate, [])
  | assertedDevice :: rest, candidate =>
    let event := occurrenceOn candidate.node assertedDevice
    if isRecovery then
      match sys.handle true isMultiThread event with
      | .error e => (.error e, [])
      | .ok () => processDevices sys isMultiThread isRecovery eventValue rest candidate
    else
      let answer := isEvent sys.env candidate event.device eventValue
      let asked := ⟨candidate, event.device, answer⟩
      match answer with
      | .error e => (.error e, [asked])
      | .ok given =>
        match handleEvent sys isMultiThread given.raised event with
        | .error e => (.error e, [asked])
        | .ok () =>
          let (result, more) := processDevices sys isMultiThread isRecovery eventValue rest given.candidate
          (result, asked :: more)

/-- The parameter `IsEvent` gets. -/
def eventValueOf (event : EventNode) (propertyValue : PropertyValue) : Int :=
  if event.valueAsCount then intOfUnsigned propertyValue.value64.toNat else invalidIntParam

section
variable {Ref : Type} [DecidableEq Ref]

def processEventList (sys : System) (isMultiThread : Bool) (propertyValue : PropertyValue) :
    List (SharedCandidate Ref) → (Ref → CountedEvent) → Except Exn (Ref → CountedEvent) × List Asked
  | [], events => (.ok events, [])
  | shared :: rest, events =>
    let candidate := events shared.event
    match processDevices sys isMultiThread shared.isRecovery (eventValueOf candidate.node propertyValue)
      shared.assertedDevices candidate with
    | (.error e, asked) => (.error e, asked)
    | (.ok candidate, asked) =>
      let (result, more) := processEventList sys isMultiThread propertyValue rest
        (Function.update events shared.event candidate)
      (result, asked ++ more)

end

/-! ### Events whose value is their count -/

section
variable {env : Env} {candidate : CountedEvent}

theorem isEvent_value (value : candidate.node.valueAsCount = true) {compareCount : Int}
    (given : compareCount ≠ invalidIntParam) (device : String) :
    isEvent env candidate device compareCount =
      if candidate.node.triggerCount = -1 then .ok ⟨false, false, candidate.touch device⟩
      else (intResult (candidate.node.triggerCount - compareCount)).map fun countDiff =>
        ⟨decide (countDiff ≤ 0), false, candidate.touch device⟩ := by
  have first : candidate.countOf device = 0 := candidate.uncounted value device
  have compared : ∀ next, comparedCount env (candidate.touch device) next compareCount =
      .ok (compareCount, false, candidate.touch device) := by
    intro next
    rw [comparedCount, if_pos (by exact value), if_neg given]
    rfl
  have kept : ∀ stored, (candidate.touch device).setCount device stored = candidate.touch device :=
    fun stored => dif_pos (by exact value)
  have next : intResult (candidate.countOf device + 1) = .ok 1 := by
    rw [first]
    rfl
  rw [isEvent_of_compared env next (compared 1)]
  simp only [kept, CountedEvent.touch_node]
  congr 2
  funext countDiff
  by_cases enough : countDiff ≤ 0
  · rw [if_pos enough, decide_eq_true enough]
  · rw [if_neg enough, decide_eq_false enough]

/-- What an answer was given from. -/
theorem isEvent_compared {device : String} {compareCount : Int} {answer : Answer}
    (h : isEvent env candidate device compareCount = .ok answer) :
    ∃ next count compared, comparedCount env (candidate.touch device) next compareCount =
      .ok (count, answer.reread, compared) ∧ answer.candidate.node = compared.node := by
  obtain ⟨next, inRange, rest⟩ := bind_ok h
  obtain ⟨⟨count, reread, compared⟩, read, _⟩ := bind_ok rest
  rw [CountedEvent.countOf_touch] at inRange
  rw [isEvent_of_compared env inRange read] at h
  by_cases never : compared.node.triggerCount = -1
  · rw [if_pos never] at h
    obtain rfl := Except.ok.inj h
    exact ⟨next, count, compared, read, rfl⟩
  · rw [if_neg never] at h
    obtain ⟨countDiff, _, rfl⟩ := map_ok h
    split
    · exact ⟨next, count, compared, read, CountedEvent.setCount_node ..⟩
    · exact ⟨next, count, compared, read, CountedEvent.setCount_node ..⟩

/-- The parameter that stands for none makes `IsEvent` read the property. -/
theorem isEvent_reread (value : candidate.node.valueAsCount = true) {device : String} {answer : Answer}
    (h : isEvent env candidate device invalidIntParam = .ok answer) : answer.reread = true := by
  obtain ⟨next, count, compared, read, _⟩ := isEvent_compared h
  rw [comparedCount, if_pos (by exact value), if_pos rfl] at read
  obtain ⟨⟨text, accessor⟩, _, read⟩ := bind_ok read
  obtain ⟨number, _, read⟩ := bind_ok read
  obtain ⟨_, again, _⟩ := by simpa only [pure_ok_iff, Prod.mk.injEq] using read
  exact again.symm

/-- The value survives the `int` if its last 32 bits are no negative `int` and they answer for all of it. -/
theorem isEvent_value_iff (value : candidate.node.valueAsCount = true) (low : 0 ≤ candidate.node.triggerCount)
    (high : candidate.node.triggerCount < 2 ^ 31) (device : String) (n : Nat) :
    (∃ answer, isEvent env candidate device (intOfUnsigned n) = .ok answer ∧ answer.reread = false ∧
      (answer.raised = true ↔ candidate.node.triggerCount ≤ n)) ↔
      n % 2 ^ 32 < 2 ^ 31 ∧ (candidate.node.triggerCount ≤ n → candidate.node.triggerCount ≤ (n % 2 ^ 32 : Nat)) := by
  have never : ¬ candidate.node.triggerCount = -1 := by omega
  by_cases small : n % 2 ^ 32 < 2 ^ 31
  · have same : intOfUnsigned n = (n % 2 ^ 32 : Nat) := by
      unfold intOfUnsigned
      omega
    rw [same, isEvent_value value (by unfold invalidIntParam; omega), if_neg never,
      intResult_ok (by omega) (by omega)]
    simp only [Except.map, Except.ok.injEq, exists_eq_left', decide_eq_true_eq, true_and, small]
    omega
  · have negative : intOfUnsigned n < 0 := by
      unfold intOfUnsigned
      omega
    refine iff_of_false ?_ (fun fits => small fits.1)
    intro h
    obtain ⟨answer, called, once, raised⟩ := h
    by_cases sentinel : intOfUnsigned n = invalidIntParam
    · rw [sentinel] at called
      rw [isEvent_reread value called] at once
      cases once
    · rw [isEvent_value value sentinel, if_neg never] at called
      obtain ⟨countDiff, diff, rfl⟩ := map_ok called
      unfold intResult at diff
      split at diff
      · rw [← Except.ok.inj diff, decide_eq_true_eq] at raised
        omega
      · cases diff

theorem isEvent_settings {device : String} {compareCount : Int} {answer : Answer}
    (h : isEvent env candidate device compareCount = .ok answer) :
    answer.candidate.node.valueAsCount = candidate.node.valueAsCount := by
  obtain ⟨next, count, compared, read, same⟩ := isEvent_compared h
  rw [same]
  unfold comparedCount at read
  split at read
  · split at read
    · obtain ⟨⟨text, accessor⟩, _, read⟩ := bind_ok read
      obtain ⟨number, _, read⟩ := bind_ok read
      obtain ⟨_, _, rfl⟩ := by simpa only [pure_ok_iff, Prod.mk.injEq] using read
      rfl
    · obtain ⟨_, _, rfl⟩ := by simpa only [pure_ok_iff, Prod.mk.injEq] using read
      rfl
  · obtain ⟨_, _, rfl⟩ := by simpa only [pure_ok_iff, Prod.mk.injEq] using read
    rfl

end

/-! ### What is asked -/

section
variable {sys : System} {isMultiThread : Bool}

theorem processDevices_asked {isRecovery : Bool} {eventValue : Int} {devices : List AssertedDevice}
    {candidate : CountedEvent} {asked : Asked}
    (member : asked ∈ (processDevices sys isMultiThread isRecovery eventValue devices candidate).2) :
    asked.answer = isEvent sys.env asked.candidate asked.device eventValue ∧
      asked.candidate.node.valueAsCount = candidate.node.valueAsCount := by
  induction devices generalizing candidate with
  | nil => cases member
  | cons assertedDevice rest ih =>
    unfold processDevices at member
    dsimp only at member
    split at member
    · split at member
      · cases member
      · exact ih member
    · split at member
      · rw [List.mem_singleton.mp member]
        exact ⟨rfl, rfl⟩
      · rename_i given answered
        split at member
        · rw [List.mem_singleton.mp member]
          exact ⟨rfl, rfl⟩
        · rcases List.mem_cons.mp member with rfl | later
          · exact ⟨rfl, rfl⟩
          · obtain ⟨answer, kept⟩ := ih later
            exact ⟨answer, kept.trans (isEvent_settings answered)⟩

/-- Where the loop comes to its end, `IsEvent` was asked about every device. -/
theorem processDevices_all {isRecovery : Bool} {eventValue : Int} {devices : List AssertedDevice}
    {candidate final : CountedEvent}
    (h : (processDevices sys isMultiThread isRecovery eventValue devices candidate).1 = .ok final) :
    (processDevices sys isMultiThread isRecovery eventValue devices candidate).2.map Asked.device =
      if isRecovery then [] else devices.map AssertedDevice.device := by
  induction devices generalizing candidate with
  | nil => cases isRecovery <;> rfl
  | cons assertedDevice rest ih =>
    unfold processDevices at h ⊢
    dsimp only at h ⊢
    split at h
    · rename_i recovers
      split at h
      · cases h
      · rename_i handled
        simpa [recovers, handled] using ih h
    · rename_i asserts
      split at h
      · cases h
      · rename_i given answered
        split at h
        · cases h
        · rename_i handled
          simp only [answered]
          have later := ih h
          rw [if_neg asserts] at later ⊢
          simpa [occurrenceOn, asserts] using later

variable {Ref : Type} [DecidableEq Ref] {propertyValue : PropertyValue} {candidates : List (SharedCandidate Ref)}
  {events : Ref → CountedEvent}

theorem processEventList_asked {asked : Asked}
    (member : asked ∈ (processEventList sys isMultiThread propertyValue candidates events).2) :
    asked.answer = isEvent sys.env asked.candidate asked.device (eventValueOf asked.candidate.node propertyValue) := by
  induction candidates generalizing events with
  | nil => cases member
  | cons shared rest ih =>
    have here : ∀ {asked : Asked}, asked ∈ (processDevices sys isMultiThread shared.isRecovery
        (eventValueOf (events shared.event).node propertyValue) shared.assertedDevices (events shared.event)).2 →
        asked.answer =
          isEvent sys.env asked.candidate asked.device (eventValueOf asked.candidate.node propertyValue) := by
      intro asked member
      obtain ⟨answer, kept⟩ := processDevices_asked member
      rw [eventValueOf, kept]
      exact answer
    unfold processEventList at member
    dsimp only at member
    split at member
    · rename_i stopped
      exact here (by rw [stopped]; exact member)
    · rename_i ended
      rcases List.mem_append.mp member with first | later
      · exact here (by rw [ended]; exact first)
      · exact ih later

theorem processEventList_all {final : Ref → CountedEvent}
    (h : (processEventList sys isMultiThread propertyValue candidates events).1 = .ok final) :
    (processEventList sys isMultiThread propertyValue candidates events).2.map Asked.device =
      candidates.flatMap fun shared => if shared.isRecovery then [] else shared.assertedDevices.map AssertedDevice.device := by
  induction candidates generalizing events with
  | nil => rfl
  | cons shared rest ih =>
    unfold processEventList at h ⊢
    dsimp only at h ⊢
    split at h
    · cases h
    · rename_i candidate asked ended
      have first := processDevices_all (congrArg Prod.fst ended)
      rw [ended] at first
      simp only [List.map_append, List.flatMap_cons, first, ih h]

end

/-- `IsEvent` is asked about every device of every candidate that recovers from nothing, and for an event
whose value is its count it answers as the value does, exactly if the last 32 bits are no negative `int` and
are not below the trigger count where the value is not. -/
theorem processEventList_value_iff {Ref : Type} [DecidableEq Ref] (sys : System) (isMultiThread : Bool)
    (propertyValue : PropertyValue) (candidates : List (SharedCandidate Ref)) (events : Ref → CountedEvent) :
    (∀ final, (processEventList sys isMultiThread propertyValue candidates events).1 = .ok final →
      (processEventList sys isMultiThread propertyValue candidates events).2.map Asked.device =
        candidates.flatMap fun shared =>
          if shared.isRecovery then [] else shared.assertedDevices.map AssertedDevice.device) ∧
    ∀ asked ∈ (processEventList sys isMultiThread propertyValue candidates events).2,
      asked.candidate.node.valueAsCount = true → 0 ≤ asked.candidate.node.triggerCount →
      asked.candidate.node.triggerCount < 2 ^ 31 →
      ((∃ answer, asked.answer = .ok answer ∧ answer.reread = false ∧
          (answer.raised = true ↔ asked.candidate.node.triggerCount ≤ propertyValue.value64.toNat)) ↔
        propertyValue.value64.toNat % 2 ^ 32 < 2 ^ 31 ∧
          (asked.candidate.node.triggerCount ≤ propertyValue.value64.toNat →
            asked.candidate.node.triggerCount ≤ (propertyValue.value64.toNat % 2 ^ 32 : Nat))) := by
  refine ⟨fun _ ended => processEventList_all ended, fun asked member value low high => ?_⟩
  rw [processEventList_asked member, eventValueOf, if_pos value]
  exact isEvent_value_iff value low high asked.device propertyValue.value64.toNat

/-- A service that keeps the status in files, with handlers that do nothing. -/
def idle : System := { env := silent 0, deviceHealth := none, handle := fun _ _ _ => .ok () }

/-- The value of the property is put to one device of an event with a trigger count of 1. -/
def askAboutValue (value : Int) : List Asked :=
  (processEventList idle false (.ofVariant (.integer value)) [⟨(), [⟨{}, {}, "GPU_0", .ofList []⟩], false⟩]
    fun _ => { node := { valueAsCount := true, triggerCount := 1 } }).2

/-- Two raise the event, and are not read again. -/
theorem processEventList_value_iff_two : ∃ asked ∈ askAboutValue 2, ∃ answer,
    asked.answer = .ok answer ∧ answer.reread = false ∧ answer.raised = true := by
  obtain ⟨answer, called, once, raised⟩ := ((processEventList_value_iff idle false (.ofVariant (.integer 2))
    [⟨(), [⟨{}, {}, "GPU_0", .ofList []⟩], false⟩]
    fun _ => { node := { valueAsCount := true, triggerCount := 1 } }).2 _ List.mem_cons_self rfl (by decide)
      (by decide)).mpr ⟨by decide, fun _ => by decide⟩
  exact ⟨_, List.mem_cons_self, answer, called, once, raised.mpr (by decide)⟩

/-- 2^32 does not raise the event, as its last 32 bits are 0. One less reads the property again. -/
theorem processEventList_value_lost :
    (∃ asked ∈ askAboutValue (2 ^ 32), ∃ answer, asked.answer = .ok answer ∧ answer.raised = false ∧
      asked.candidate.node.triggerCount ≤ (PropertyValue.ofVariant (.integer (2 ^ 32))).value64.toNat) ∧
    ∃ asked ∈ askAboutValue (2 ^ 32 - 1), asked.answer = .error .outOfRange :=
  ⟨⟨_, List.mem_cons_self, _, rfl, rfl, by decide⟩, ⟨_, List.mem_cons_self, rfl⟩⟩

end MonitorEventing.Detection
