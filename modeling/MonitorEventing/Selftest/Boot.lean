import MonitorEventing.Detection.Discovery
import MonitorEventing.Message.Journal
import MonitorEventing.Selftest.Determination

/-!
# The self-test of a boot

When the HMC has booted, the logs of all devices are resolved, and events are determined anew from the
test points that do not pass.
-/

namespace MonitorEventing.Selftest
open Accessor Dat EventInfo Detection Message

/-! ### Logs -/

def resolve (entry : Entry) : Entry := { entry with resolved := true }

/-- `resolveDeviceLogs` without an event name, and what it makes of the journal. -/
def resolveLogs (getAll : List Entry → String → Except Exn ManagedObjectType) (device : String) (journal : List Entry) :
    Except Exn Unit × List Entry :=
  let (result, resolved) := resolveDeviceLogs (getAll journal) "" device
  (result, journal.map fun entry => if entry.object.1 ∈ resolved then resolve entry else entry)

/-- The logging service, with a failure of the bus for some namespaces. -/
structure Serves (getAll : List Entry → String → Except Exn ManagedObjectType) (failure : String → Option String) :
    Prop where
  lists : Lists getAll
  fails : ∀ journal devId text, failure devId = some text → getAll journal devId = .error (.runtimeError text)
  answers : ∀ journal devId, failure devId = none → ∃ reply, getAll journal devId = .ok reply

/-- The entry is in the namespace of the device, and the bus does not fail for it. -/
def IsAsked (failure : String → Option String) (device : String) (entry : Entry) : Prop :=
  ∃ main ∈ (EventNode.separateFullDeviceName device).head?, failure main = none ∧ entry.call.namespaceOf = main

instance (failure : String → Option String) (device : String) (entry : Entry) : Decidable (IsAsked failure device entry) := by
  unfold IsAsked
  infer_instance

section
variable {failure : String → Option String} {getAll : List Entry → String → Except Exn ManagedObjectType}

theorem separateFullDeviceName_cons {device : String} (named : device ≠ "") :
    ∃ main others, EventNode.separateFullDeviceName device = main :: others := by
  rw [EventNode.separateFullDeviceName, if_neg named]
  cases parts : DeviceId.split ['/'] device.toList with
  | nil => exact absurd parts (List.splitOnP_ne_nil _ _)
  | cons part rest => exact ⟨_, _, rfl⟩

theorem resolve_of_resolved {entry : Entry} (already : entry.resolved = true) : resolve entry = entry := by
  rw [resolve, ← already]

theorem isAsked_iff {device main : String} {others : List String}
    (names : EventNode.separateFullDeviceName device = main :: others) (entry : Entry) :
    IsAsked failure device entry ↔ failure main = none ∧ entry.call.namespaceOf = main := by
  rw [IsAsked, names, List.head?_cons]
  constructor
  · intro given
    obtain ⟨_, same, both⟩ := given
    obtain rfl := Option.some.inj same
    exact both
  · exact fun both => ⟨main, rfl, both⟩

theorem resolveLogs_caught (serves : Serves getAll failure) {device : String} (named : device ≠ "") {journal : List Entry}
    {e : Exn} (failed : (resolveLogs getAll device journal).1 = .error e) : ∃ text, e = .runtimeError text := by
  obtain ⟨main, others, names⟩ := separateFullDeviceName_cons named
  unfold resolveLogs resolveDeviceLogs at failed
  simp only [names, vectorAt, List.getElem?_cons_zero] at failed
  cases bus : failure main with
  | some text =>
    rw [serves.fails journal main text bus] at failed
    exact ⟨text, (Except.error.inj failed).symm⟩
  | none =>
    obtain ⟨reply, answer⟩ := serves.answers journal main bus
    rw [answer] at failed
    cases failed

/-- The service lists what is unresolved in the namespace. -/
theorem listed_iff (serves : Serves getAll failure) {main : String} {journal : List Entry} {reply : ManagedObjectType}
    (answer : getAll journal main = .ok reply) (unique : (journal.map (·.object.1)).Nodup) {entry : Entry}
    (member : entry ∈ journal) :
    entry.object.1 ∈ reply.map (·.1) ↔ entry.resolved = false ∧ entry.call.namespaceOf = main := by
  rw [((serves.lists journal main reply answer).map _).mem_iff, List.map_map, List.mem_map]
  constructor
  · intro found
    obtain ⟨other, inside, same⟩ := found
    obtain ⟨inside, both⟩ := List.mem_filter.mp inside
    obtain rfl := List.inj_on_of_nodup_map unique inside member same
    simpa using both
  · intro both
    exact ⟨entry, List.mem_filter.mpr ⟨member, by simpa using both⟩, rfl⟩

theorem resolveLogs_journal (serves : Serves getAll failure) {device : String} (named : device ≠ "") {journal : List Entry}
    (unique : (journal.map (·.object.1)).Nodup) :
    (resolveLogs getAll device journal).2 =
      journal.map fun entry => if IsAsked failure device entry then resolve entry else entry := by
  obtain ⟨main, others, names⟩ := separateFullDeviceName_cons named
  unfold resolveLogs resolveDeviceLogs
  simp only [names, vectorAt, List.getElem?_cons_zero]
  apply List.map_congr_left
  intro entry member
  cases bus : failure main with
  | some text =>
    have silent : ¬ IsAsked failure device entry := by
      rw [isAsked_iff names, bus]
      intro both
      cases both.1
    rw [if_neg silent, serves.fails journal main text bus]
    exact if_neg List.not_mem_nil
  | none =>
    obtain ⟨reply, answer⟩ := serves.answers journal main bus
    have listed := listed_iff serves answer unique member
    rw [answer]
    by_cases here : entry.call.namespaceOf = main
    · rw [if_pos ((isAsked_iff names entry).mpr ⟨bus, here⟩)]
      cases already : entry.resolved with
      | true => rw [resolve_of_resolved already, ite_self]
      | false => exact if_pos (listed.mpr ⟨already, here⟩)
    · rw [if_neg fun both => here ((isAsked_iff names entry).mp both).2]
      exact if_neg fun found => here (listed.mp found).2

/-- After the loop, the entries of all devices are resolved. -/
theorem resolveAll_journal (serves : Serves getAll failure) {devs : List (String × Device)} (named : ∀ entry ∈ devs, entry.2.name ≠ "")
    {journal : List Entry} (unique : (journal.map (·.object.1)).Nodup) :
    resolveAll (resolveLogs getAll) devs journal = (.ok (), journal.map fun entry =>
      if ∃ dev ∈ devs, IsAsked failure dev.2.name entry then resolve entry else entry) := by
  rw [resolveAll_ok fun entry member journal e => resolveLogs_caught serves (named entry member)]
  congr 1
  induction devs generalizing journal with
  | nil => simp
  | cons dev rest ih =>
    obtain ⟨here, later⟩ := List.forall_mem_cons.mp named
    have paths : (journal.map fun entry =>
        if IsAsked failure dev.2.name entry then resolve entry else entry).map (·.object.1) =
          journal.map (·.object.1) := by
      rw [List.map_map]
      apply List.map_congr_left
      intro entry _
      show (if IsAsked failure dev.2.name entry then resolve entry else entry).object.1 = entry.object.1
      split <;> rfl
    rw [List.foldl_cons, resolveLogs_journal serves here unique, ih later (paths ▸ unique), List.map_map]
    apply List.map_congr_left
    intro entry _
    rw [Function.comp_apply]
    have either : (∃ other ∈ dev :: rest, IsAsked failure other.2.name entry) ↔
        IsAsked failure dev.2.name entry ∨ ∃ other ∈ rest, IsAsked failure other.2.name entry := by
      simp only [List.mem_cons, exists_eq_or_imp]
    by_cases own : IsAsked failure dev.2.name entry
    · rw [if_pos own, if_pos (either.mpr (Or.inl own))]
      exact ite_self _
    · rw [if_neg own]
      apply if_congr _ rfl rfl
      rw [either, or_iff_right own]

end

/-! ### Events -/

section
variable {hashFn : String → UInt64} (loaded : Loaded hashFn)

/-- The value that was read belongs to the accessor of the event. -/
def IsReissued (acc : DataAccessor) (i : Nat) : Prop :=
  acc.dataValue.empty = false ∧ ∃ e code, loaded.events[i]? = some e ∧ acc.hash hashFn = .ok code ∧
    e.accessor.hash hashFn = .ok code ∧ acc.eq e.accessor = .ok true

/-- The accessor can be looked up. -/
def Searches (acc : DataAccessor) : Prop :=
  (∃ code, acc.hash hashFn = .ok code) ∧ Equivalent (acc :: loaded.views.eventAccessorView.keys)

variable {loaded} (table : Table hashFn Nat) {acc : DataAccessor}

theorem collectEvents_bootup (shares : loaded.Shares) (searches : Searches loaded acc) :
    ∃ eventPtrs, collectEvents table loaded.views acc true = .ok eventPtrs ∧ eventPtrs.Nodup ∧
      ∀ i, i ∈ eventPtrs ↔ IsReissued loaded acc i := by
  obtain ⟨⟨code, hashed⟩, equivalent⟩ := searches
  cases blank : acc.dataValue.empty with
  | true =>
    refine ⟨[], ?_, List.nodup_nil, fun i => ?_⟩
    · rw [collectEvents, if_pos rfl, if_pos blank]
      rfl
    · rw [IsReissued, blank]
      exact iff_of_false List.not_mem_nil fun both => nomatch both.1
  | false =>
    obtain ⟨found, run, perm⟩ := table.complete loaded.views.eventAccessorView acc code hashed equivalent
    have numbers : (pairs loaded.views.eventAccessorView).map (·.2) = List.range loaded.events.length := by
      rw [shares.accessorView, List.map_map, List.range_eq_range', ← List.zipIdx_map_snd 0 loaded.events]
      rfl
    refine ⟨found, ?_, ?_, fun i => ?_⟩
    · rw [collectEvents, if_pos rfl, if_neg (by simp [blank])]
      exact run
    · rw [perm.nodup_iff]
      apply List.Nodup.sublist (List.filter_sublist.map _)
      have values : loaded.views.eventAccessorView.map (·.value) = List.range loaded.events.length := by
        rw [← numbers, pairs, List.map_map]
        rfl
      rw [values]
      exact List.nodup_range
    · rw [perm.mem_iff, List.mem_map, IsReissued, and_iff_right blank]
      have listed : ∀ key, (key, i) ∈ pairs loaded.views.eventAccessorView ↔
          ∃ e, loaded.events[i]? = some e ∧ e.accessor = key := by
        intro key
        rw [shares.accessorView]
        simp [List.mk_mem_zipIdx_iff_getElem?]
      constructor
      · intro given
        obtain ⟨entry, inside, rfl⟩ := given
        obtain ⟨inside, both⟩ := List.mem_filter.mp inside
        obtain ⟨same, equal⟩ := of_decide_eq_true both
        obtain ⟨e, known, key⟩ := (listed entry.key).mp (List.mem_map_of_mem inside)
        refine ⟨e, code, known, hashed, ?_, key ▸ equal⟩
        rw [key, ← same]
        exact entry.hashed
      · intro given
        obtain ⟨e, code', known, hashed', own, equal⟩ := given
        obtain rfl := Except.ok.inj (hashed.symm.trans hashed')
        obtain ⟨entry, inside, same⟩ := List.mem_map.mp ((listed e.accessor).mpr ⟨e, known, rfl⟩)
        obtain ⟨key, value⟩ := Prod.mk.inj same
        refine ⟨entry, List.mem_filter.mpr ⟨inside, decide_eq_true ⟨?_, key ▸ equal⟩⟩, value⟩
        exact Except.ok.inj (entry.hashed.symm.trans (key ▸ own))

/-! ### Accessors with data -/

theorem eq_of_acc {a a' b b' : DataAccessor} (same : a.acc = a'.acc) (same' : b.acc = b'.acc) : a.eq b = a'.eq b' := by
  have texts : ∀ key, b.textAt key = b'.textAt key := by
    intro key
    unfold DataAccessor.textAt
    rw [same']
  have patterns : ∀ type, DataAccessor.patternTexts type a b = DataAccessor.patternTexts type a' b' := by
    intro type
    unfold DataAccessor.patternTexts DataAccessor.textAt
    rw [same, same']
  have members : ∀ type items, DataAccessor.eqFrom type a b items = DataAccessor.eqFrom type a' b' items := by
    intro type items
    induction items with
    | nil => rfl
    | cons member rest ih =>
      unfold DataAccessor.eqFrom
      rw [ih, patterns, texts, same']
  unfold DataAccessor.eq
  simp only [members, same, same']

theorem hash_of_acc {a a' : DataAccessor} (same : a.acc = a'.acc) (hashFn : String → UInt64) :
    a.hash hashFn = a'.hash hashFn := by
  unfold DataAccessor.hash DataAccessor.hashKey DataAccessor.getType DataAccessor.getDbusInterface
    DataAccessor.getProperty DataAccessor.getExecutable DataAccessor.isValidDbusAccessor DataAccessor.isTypeCmdline
    DataAccessor.isTypeDbus DataAccessor.isTypeDeviceCoreApi DataAccessor.isType DataAccessor.textAt
  rw [same]

theorem equivalent_of_acc {acc acc' : DataAccessor} {keys : List DataAccessor} (h : Equivalent (acc :: keys))
    (same : acc'.acc = acc.acc) : Equivalent (acc' :: keys) := by
  have stands : ∀ x ∈ acc' :: keys, ∃ y ∈ acc :: keys, x.acc = y.acc := by
    intro x inside
    rcases List.mem_cons.mp inside with rfl | old
    · exact ⟨acc, List.mem_cons_self, same⟩
    · exact ⟨x, List.mem_cons_of_mem _ old, rfl⟩
  refine ⟨?_, ?_, ?_, ?_⟩
  · intro a inside b inside'
    obtain ⟨a', member, one⟩ := stands a inside
    obtain ⟨b', member', two⟩ := stands b inside'
    rw [eq_of_acc one two]
    exact h.total a' member b' member'
  · intro a inside
    obtain ⟨a', member, one⟩ := stands a inside
    rw [eq_of_acc one one]
    exact h.refl a' member
  · intro a inside b inside' equal
    obtain ⟨a', member, one⟩ := stands a inside
    obtain ⟨b', member', two⟩ := stands b inside'
    rw [eq_of_acc one two] at equal
    rw [eq_of_acc two one]
    exact h.symm a' member b' member' equal
  · intro a inside b inside' c inside'' first second
    obtain ⟨a', member, one⟩ := stands a inside
    obtain ⟨b', member', two⟩ := stands b inside'
    obtain ⟨c', member'', three⟩ := stands c inside''
    rw [eq_of_acc one two] at first
    rw [eq_of_acc two three] at second
    rw [eq_of_acc one three]
    exact h.trans a' member b' member' c' member'' first second

theorem Searches.of_acc {acc' : DataAccessor} (h : Searches loaded acc) (same : acc'.acc = acc.acc) :
    Searches loaded acc' := by
  obtain ⟨hashed, equivalent⟩ := h
  refine ⟨?_, equivalent_of_acc equivalent same⟩
  rw [hash_of_acc same]
  exact hashed

/-! ### The boot -/

variable (loaded) in
/-- The items that were pushed for the calls. -/
def Reissues (ds : List Determination) (items : List (PcData Nat)) : Prop :=
  ∃ push : Determination → Option (PcData Nat), items = ds.filterMap push ∧ ∀ det ∈ ds,
    (∀ i, (∃ item ∈ push det, i ∈ item.eventPtrs) ↔ IsReissued loaded det.accessor i) ∧
    ∀ item ∈ push det, item.accessor = det.accessor ∧ item.eventPtrs ≠ [] ∧ item.eventPtrs.Nodup

theorem eventDiscovery_bootup (shares : loaded.Shares) (searches : Searches loaded acc) :
    ∃ pushed, eventDiscovery table loaded.views acc true = .ok pushed ∧
      (∀ i, (∃ item ∈ pushed, i ∈ item.eventPtrs) ↔ IsReissued loaded acc i) ∧
      ∀ item ∈ pushed, item.accessor = acc ∧ item.eventPtrs ≠ [] ∧ item.eventPtrs.Nodup := by
  obtain ⟨eventPtrs, run, unique, reissued⟩ := collectEvents_bootup table shares searches
  refine ⟨_, bind_ok_iff.mpr ⟨eventPtrs, run, rfl⟩, fun i => ?_, ?_⟩
  · rw [← reissued i]
    cases eventPtrs with
    | nil => simp
    | cons first rest => simp
  · intro item same
    cases eventPtrs with
    | nil => cases same
    | cons first rest =>
      obtain rfl := Option.some.inj same
      exact ⟨rfl, List.cons_ne_nil _ _, unique⟩

end

/-! ### A device that is still hot -/

def hotDevice : Json :=
  .object [("GPU_1", deviceJson [.object [("accessor", temperature "/GPU1"), ("expected_value", .string "45"),
    ("name", .string "TEMP")]] [])]

def readHot : Oracle := fun _ _ => .ofVariant (.integer 90)

def logOf (devId path : String) : Entry where
  event := {}
  call := { message := "Overheat", severity := "", additionalData := [("namespace", devId)] }
  object := logEntry path []
  resolved := false

/-- The items of a run that returns. -/
def queued (run : Run ((RcCode × ReportResult) × List (PcData Nat))) : List (List Nat) :=
  match run with
  | some (.ok (_, items)) => items.map (·.eventPtrs)
  | _ => []

end MonitorEventing.Selftest
