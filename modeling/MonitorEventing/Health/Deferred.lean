import MonitorEventing.Health.Service
import MonitorEventing.Lib.Machine

/-!
# Deferred devices

No device of the shared memory is forgotten: what was last pushed for it is its health, or it is
deferred, or the running handler is about to push it.
-/

namespace MonitorEventing.Health
open Accessor
namespace Service

/-! ### Health of one device -/

theorem computeHealth_congr {map map' : AssertedEventsMap} {device : String} (same : map[device]? = map'[device]?) :
    computeHealthForDevice map device = computeHealthForDevice map' device := by
  unfold computeHealthForDevice getActiveCriticalErrorCountForDevice getActiveWarningErrorCountForDevice activeErrorCount
  rw [same]

theorem ensureMappingPresent_cases (map : AssertedEventsMap) (device other : String) :
    (ensureMappingPresent map device)[other]? = map[other]? ∨
      (other = device ∧ (ensureMappingPresent map device)[other]? = some {}) := by
  unfold ensureMappingPresent
  split
  · exact Or.inl rfl
  · rw [StringMap.getElem?_insert]
    split
    · rename_i same
      exact Or.inr ⟨same.symm, rfl⟩
    · exact Or.inl rfl

theorem addErrorToDevice_other {o : Options} {level : ErrorLevel} {map map' : AssertedEventsMap} {errorId device other : String}
    (h : addErrorToDevice o level map errorId device = some map') (different : other ≠ device) :
    map'[other]? = map[other]? := by
  unfold addErrorToDevice at h
  dsimp only at h
  split at h
  · cases h
  · rw [← Option.some.inj h, StringMap.getElem?_insert, if_neg (Ne.symm different)]

theorem addErrorToDevice_new {o : Options} {level : ErrorLevel} {map : AssertedEventsMap} {errorId device : String}
    (new : map[device]? = some {}) : addErrorToDevice o level map errorId device ≠ none := by
  have empty : (({} : AssertedErrorsForDevice).errors level).size = 0 := by cases level <;> rfl
  have found : map.getD device {} = {} := by rw [Std.TreeMap.getD_eq_getD_getElem?, new, Option.getD_some]
  have positive := o.positive
  unfold addErrorToDevice
  rw [found]
  dsimp only
  rw [if_neg (by omega)]
  exact Option.some_ne_none _

theorem removeErrorFromDevice_other (map : AssertedEventsMap) (errorId : String) {device other : String}
    (different : other ≠ device) : (removeErrorFromDevice map errorId device)[other]? = map[other]? := by
  unfold removeErrorFromDevice
  split
  · rw [StringMap.getElem?_insert, if_neg (Ne.symm different)]
  · rfl

theorem mem_of_getElem?_eq {map map' : AssertedEventsMap} {device : String} (same : map[device]? = map'[device]?)
    (member : device ∈ map) : device ∈ map' := by
  rw [StringMap.mem_iff] at member ⊢
  exact same ▸ member

/-! ### The invariant -/

/-- The last health pushed for the device is its health, or there will be a retry. -/
def Synced (s : Service) (device : String) : Prop :=
  s.pushed[device]? = some (computeHealthForDevice s.assertedEventsMap device) ∨ device ∈ s.deferredDeviceSet

/-- The running handler will push the device. In a handler that is about to add an error these are the
devices that were just mapped. -/
def Pending (s : Service) (device : String) : Prop :=
  match s.phase with
  | .starting remaining => device ∈ remaining
  | .asserting _ _ asserted => device = asserted ∧ s.assertedEventsMap[device]? = some {}
  | .updating updated => device = updated
  | .idle | .retrying _ => False

structure Inv (s : Service) : Prop where
  timer : ∀ device ∈ s.deferredDeviceSet, s.timerEnabled = true
  synced : ∀ device ∈ s.assertedEventsMap, s.Synced device ∨ s.Pending device

theorem Synced.congr {s t : Service} {device : String} (h : s.Synced device) (pushed : t.pushed = s.pushed)
    (deferred : t.deferredDeviceSet = s.deferredDeviceSet)
    (errors : t.assertedEventsMap[device]? = s.assertedEventsMap[device]?) : t.Synced device := by
  rw [Synced, pushed, deferred, computeHealth_congr errors]
  exact h

theorem push_synced (s : Service) (device other : String) (h : other = device ∨ s.Synced other) :
    (s.push device).Synced other := by
  by_cases same : device = other
  · left
    rw [push, StringMap.getElem?_insert, if_pos same, same]
  · have old := h.resolve_left (Ne.symm same)
    refine old.imp_left fun pushed => ?_
    rw [push, StringMap.getElem?_insert, if_neg same]
    exact pushed

theorem updateDeviceHealth_synced (s : Service) (device other : String) (succeeds : Bool)
    (h : other = device ∨ s.Synced other) : (s.updateDeviceHealth device succeeds).Synced other := by
  unfold updateDeviceHealth
  cases succeeds with
  | true => exact push_synced s device other h
  | false =>
    by_cases same : device = other
    · right
      show other ∈ s.deferredDeviceSet.insert device
      rw [same]
      exact Std.TreeSet.mem_insert_self
    · refine (h.resolve_left (Ne.symm same)).imp_right fun deferred => ?_
      show other ∈ s.deferredDeviceSet.insert device
      exact Std.TreeSet.mem_insert.mpr (Or.inr deferred)

theorem updateDeviceHealth_timer {s : Service} (timer : ∀ device ∈ s.deferredDeviceSet, s.timerEnabled = true)
    (device : String) (succeeds : Bool) :
    ∀ other ∈ (s.updateDeviceHealth device succeeds).deferredDeviceSet,
      (s.updateDeviceHealth device succeeds).timerEnabled = true := by
  unfold updateDeviceHealth
  cases succeeds with
  | true => exact timer
  | false =>
    intro _ _
    rfl

theorem updateDeviceHealth_errors (s : Service) (device : String) (succeeds : Bool) :
    (s.updateDeviceHealth device succeeds).assertedEventsMap = s.assertedEventsMap := by
  cases succeeds <;> rfl

theorem retryDevice_synced (s : Service) (device other : String) (succeeds : Bool) (h : s.Synced other) :
    (s.retryDevice device succeeds).Synced other := by
  unfold retryDevice
  cases succeeds with
  | false => exact h
  | true =>
    by_cases same : other = device
    · left
      rw [same]
      show (s.pushed.insert device _)[device]? = some (computeHealthForDevice s.assertedEventsMap device)
      rw [StringMap.getElem?_insert, if_pos rfl]
    · refine (push_synced s device other (Or.inr h)).imp_right fun deferred => ?_
      show other ∈ s.deferredDeviceSet.erase device
      rw [Std.TreeSet.mem_erase]
      refine ⟨?_, deferred⟩
      rw [Ne, Std.LawfulEqCmp.compare_eq_iff_eq]
      exact Ne.symm same

theorem retryDevice_timer {s : Service} (timer : ∀ device ∈ s.deferredDeviceSet, s.timerEnabled = true)
    (device : String) (succeeds : Bool) :
    ∀ other ∈ (s.retryDevice device succeeds).deferredDeviceSet, (s.retryDevice device succeeds).timerEnabled = true := by
  unfold retryDevice
  cases succeeds with
  | false => exact timer
  | true =>
    intro other deferred
    exact timer other (Std.TreeSet.mem_of_mem_erase deferred)

theorem retryDevice_errors (s : Service) (device : String) (succeeds : Bool) :
    (s.retryDevice device succeeds).assertedEventsMap = s.assertedEventsMap := by
  cases succeeds <;> rfl

/-! ### One step -/

theorem start_inv (s : Service) (timerEnabled : Bool) : (s.start timerEnabled).Inv := by
  refine ⟨fun device deferred => ?_, fun device known => Or.inr (Std.TreeMap.mem_keys.mpr known)⟩
  exact absurd deferred Std.TreeSet.not_mem_emptyc

theorem interfacesAddedCallback_inv (o : Options) {s : Service} (inv : s.Inv) (idle : s.phase = .idle)
    (message : Option (StringMap PropertiesChangedMap)) : (s.interfacesAddedCallback o message).Inv := by
  have synced : ∀ device ∈ s.assertedEventsMap, s.Synced device := by
    intro device known
    refine (inv.synced device known).resolve_right ?_
    rw [Pending, idle]
    exact id
  have asserts : ∀ level entry, (s.assertError level entry).Inv := by
    intro level entry
    refine ⟨inv.timer, fun device known => ?_⟩
    rcases ensureMappingPresent_cases s.assertedEventsMap entry.deviceName device with old | new
    · exact Or.inl ((synced device (mem_of_getElem?_eq old known)).congr rfl rfl old)
    · exact Or.inr new
  unfold interfacesAddedCallback
  cases message.bind (readLogEntry o) with
  | none => exact inv
  | some entry =>
    dsimp only
    split
    · split
      · refine ⟨inv.timer, fun device known => ?_⟩
        by_cases same : device = entry.deviceName
        · exact Or.inr same
        · have other := removeErrorFromDevice_other s.assertedEventsMap entry.eventId same
          exact Or.inl ((synced device (mem_of_getElem?_eq other known)).congr rfl rfl other)
      · exact inv
    · split
      · exact asserts .critical entry
      · split
        · exact asserts .warning entry
        · exact inv

theorem proceed_inv (o : Options) {s t : Service} (inv : s.Inv) {succeeds : Bool} (h : s.proceed o succeeds = some t) :
    t.Inv := by
  obtain ⟨timer, synced⟩ := inv
  unfold Pending at synced
  unfold proceed at h
  split at h
  · cases h
  · rename_i phase
    rw [phase] at synced
    obtain rfl := Option.some.inj h
    refine ⟨timer, fun device known => Or.inl ?_⟩
    exact (synced device known).resolve_right List.not_mem_nil
  · rename_i first remaining phase
    rw [phase] at synced
    obtain rfl := Option.some.inj h
    refine ⟨updateDeviceHealth_timer timer first succeeds, fun device known => ?_⟩
    have known' : device ∈ s.assertedEventsMap := updateDeviceHealth_errors s first succeeds ▸ known
    rcases synced device known' with done | waiting
    · exact Or.inl (updateDeviceHealth_synced s first device succeeds (Or.inr done))
    · rcases List.mem_cons.mp waiting with same | later
      · exact Or.inl (updateDeviceHealth_synced s first device succeeds (Or.inl same))
      · exact Or.inr later
  · rename_i level errorId asserted phase
    rw [phase] at synced
    cases added : addErrorToDevice o level s.assertedEventsMap errorId asserted with
    | none =>
      rw [added] at h
      obtain rfl := Option.some.inj h
      refine ⟨timer, fun device known => Or.inl ?_⟩
      refine (synced device known).resolve_right fun mapped => ?_
      exact addErrorToDevice_new (mapped.1 ▸ mapped.2) added
    | some map =>
      rw [added] at h
      obtain rfl := Option.some.inj h
      refine ⟨timer, fun device known => ?_⟩
      by_cases same : device = asserted
      · exact Or.inr same
      · have other := addErrorToDevice_other added same
        have done := (synced device (mem_of_getElem?_eq other known)).resolve_right fun mapped => same mapped.1
        exact Or.inl (done.congr rfl rfl other)
  · rename_i updated phase
    rw [phase] at synced
    obtain rfl := Option.some.inj h
    refine ⟨updateDeviceHealth_timer timer updated succeeds, fun device known => Or.inl ?_⟩
    have known' : device ∈ s.assertedEventsMap := updateDeviceHealth_errors s updated succeeds ▸ known
    exact updateDeviceHealth_synced s updated device succeeds (synced device known').symm
  · rename_i phase
    rw [phase] at synced
    obtain rfl := Option.some.inj h
    have done : ∀ device ∈ s.assertedEventsMap, s.Synced device := fun device known => (synced device known).resolve_right id
    unfold finishRetry
    split
    · rename_i empty
      refine ⟨fun device deferred => ?_, fun device known => Or.inl (done device known)⟩
      exact absurd deferred (Std.TreeSet.not_mem_of_isEmpty empty)
    · exact ⟨timer, fun device known => Or.inl (done device known)⟩
  · rename_i first remaining phase
    rw [phase] at synced
    obtain rfl := Option.some.inj h
    refine ⟨retryDevice_timer timer first succeeds, fun device known => Or.inl ?_⟩
    have known' : device ∈ s.assertedEventsMap := retryDevice_errors s first succeeds ▸ known
    exact retryDevice_synced s first device succeeds ((synced device known').resolve_right id)

theorem step_inv (o : Options) (s : Service) (input : Input) (t : Service) (inv : s.Inv) (h : s.step o input = some t) :
    t.Inv := by
  cases input with
  | interfacesAdded message =>
    unfold step at h
    dsimp only at h
    split at h
    · rename_i idle
      exact Option.some.inj h ▸ interfacesAddedCallback_inv o inv idle message
    · cases h
  | tick =>
    unfold step at h
    dsimp only at h
    split at h
    · rename_i ready
      obtain rfl := Option.some.inj h
      refine ⟨inv.timer, fun device known => Or.inl ?_⟩
      refine (inv.synced device known).resolve_right ?_
      rw [Pending, ready.1]
      exact id
    · cases h
  | proceed succeeds => exact proceed_inv o inv h
  | restart timerEnabled => exact Option.some.inj h ▸ start_inv s timerEnabled

end Service

/-- Whatever messages, ticks, failures and restarts came before: between two handlers every known device
has its health as the one last pushed or is deferred, and with a deferred device the timer is enabled. -/
theorem reachable_synced (o : Options) (s : Service) (reachable : Machine.Reachable (Service.step o) Service.Started s)
    (idle : s.phase = .idle) :
    (∀ device ∈ s.assertedEventsMap,
      s.pushed[device]? = some (computeHealthForDevice s.assertedEventsMap device) ∨ device ∈ s.deferredDeviceSet) ∧
    ((∃ device, device ∈ s.deferredDeviceSet) → s.timerEnabled = true) := by
  have inv : s.Inv := by
    refine reachable.invariant ?_ (Service.step_inv o)
    intro first started
    obtain ⟨before, timerEnabled, rfl⟩ := started
    exact Service.start_inv before timerEnabled
  refine ⟨fun device known => (inv.synced device known).resolve_right ?_, fun deferred => ?_⟩
  · rw [Service.Pending, idle]
    exact id
  · obtain ⟨device, member⟩ := deferred
    exact inv.timer device member

/-! ### A push that fails -/

def criticalEntry (eventId device : String) : StringMap PropertiesChangedMap :=
  .ofPairs [("xyz.openbmc_project.Logging.Entry", .ofPairs [
    ("Severity", .string "xyz.openbmc_project.Logging.Entry.Level.Critical"), ("EventId", .string eventId),
    ("AdditionalData", .strings ["DEVICE_NAME=" ++ device]), ("Resolved", .boolean false)])]

def firstStart : Service := .start ⟨∅, ∅, false, ∅, .idle⟩ false

/-- After a push that fails the device is deferred and the timer is enabled. -/
theorem reachable_synced_failing : ∃ s, Machine.run (Service.step {}) firstStart
    [.proceed true, .interfacesAdded (some (criticalEntry "ERR_1" "GPU_SXM_1")), .proceed true, .proceed false] = some s ∧
    "GPU_SXM_1" ∈ s.assertedEventsMap ∧ s.pushed["GPU_SXM_1"]? = none ∧ "GPU_SXM_1" ∈ s.deferredDeviceSet ∧
    s.timerEnabled = true := by
  have outcome : (Machine.run (Service.step {}) firstStart
      [.proceed true, .interfacesAdded (some (criticalEntry "ERR_1" "GPU_SXM_1")), .proceed true, .proceed false]).map
      (fun s => (s.phase, decide ("GPU_SXM_1" ∈ s.assertedEventsMap), s.pushed["GPU_SXM_1"]?)) =
        some (.idle, true, none) := by decide
  obtain ⟨s, run, facts⟩ := Option.map_eq_some_iff.mp outcome
  simp only [Prod.mk.injEq, decide_eq_true_eq] at facts
  obtain ⟨idle, known, unpushed⟩ := facts
  obtain ⟨synced, timer⟩ := reachable_synced {} s ⟨firstStart, _, ⟨_, _, rfl⟩, run⟩ idle
  have deferred : "GPU_SXM_1" ∈ s.deferredDeviceSet := (synced _ known).resolve_left (by rw [unpushed]; exact nofun)
  exact ⟨s, run, known, unpushed, deferred, timer ⟨_, deferred⟩⟩

end MonitorEventing.Health
