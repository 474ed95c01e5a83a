import MonitorEventing.Accessor.Coherence
import MonitorEventing.Accessor.Expand
import MonitorEventing.Detection.Discovery
import MonitorEventing.Detection.ProcessEventList

/-!
# Event detection at boot

`bootUpEventsDetection` reads every property an event looks at once, and handles the events whose
check the values pass. That is what signals of the same values would have led to.
-/

namespace MonitorEventing.Detection
open Accessor DataAccessor DeviceId DeviceUtil EventInfo Schema

/-! ### The detection -/

def readExpanded (env : Env) (accExpanded : DataAccessor) : Except Exn DataAccessor := do
  let (_, accExpanded) ← accExpanded.read env "" none
  pure accExpanded

/-- The accessors to check: one for each path of a bus accessor, read, and any other as it is. -/
def bootUpAccessors (env : Env) (accessor : DataAccessor) : Except Exn (List DataAccessor) :=
  if accessor.isTypeDbus then do
    let accList ← accessor.expand
    accList.mapM (readExpanded env)
  else pure [accessor]

def bootUpCheck (env : Env) (event : EventNode) (accData : DataAccessor) : Except Exn CheckAccessor := do
  let checkObj ← CheckAccessor.ofDeviceType event.getStringifiedDeviceType
  let (_, checkObj) ← checkObj.check env event.accessor accData
  pure checkObj

section
variable {Ref : Type} (env : Env) (node : Ref → EventNode)

def candidatesOf (eventPtr : Ref) (checked : List CheckAccessor) : List (SharedCandidate Ref) :=
  (checked.filter (·.passed)).map fun check => ⟨eventPtr, check.assertedDevices, false⟩

/-- The loop over the view, in the order of the table. -/
def bootUpFrom : List (DataAccessor × Ref) → Except Exn (List (SharedCandidate Ref))
  | [] => pure []
  | (accessor, eventPtr) :: rest => do
    let accList ← bootUpAccessors env accessor
    let checked ← accList.mapM (bootUpCheck env (node eventPtr))
    let more ← bootUpFrom rest
    pure (candidatesOf eventPtr checked ++ more)

end

def bootUpEventsDetection {Ref : Type} [DecidableEq Ref] (sys : System) (order : List (DataAccessor × Ref))
    (events : Ref → CountedEvent) : Except Exn (Ref → CountedEvent) × List Asked :=
  match bootUpFrom sys.env (fun eventPtr => (events eventPtr).node) order with
  | .error e => (.error e, [])
  | .ok eventCandidateList =>
    if eventCandidateList.isEmpty then (.ok events, [])
    else processEventList sys false (.ofVariant (.integer 0)) eventCandidateList events

/-! ### Checks that differ in the accessors they keep -/

/-- All of a check but the accessors. -/
def outcome (c : CheckAccessor) : CheckStatus × DeviceIdPattern × PatternIndex × String × List (String × PatternIndex) :=
  (c.lastStatus, c.pattern, c.index, c.triggerAssertedDevice, c.assertedDevices.map CheckAccessor.entry)

section
variable {c c' : CheckAccessor} {acc acc' : DataAccessor}

theorem build_outcome (same : outcome c = outcome c') (name : String) (index : PatternIndex) :
    (c.buildSingleAssertedDeviceName acc name index).map outcome =
      (c'.buildSingleAssertedDeviceName acc' name index).map outcome := by
  obtain ⟨status, devices, trigger, device, pattern, own⟩ := c
  obtain ⟨status', devices', trigger', device', pattern', own'⟩ := c'
  simp only [outcome, Prod.mk.injEq] at same
  obtain ⟨rfl, rfl, rfl, rfl, entries⟩ := same
  unfold CheckAccessor.buildSingleAssertedDeviceName
  have added : ∀ deviceName : String,
      (if deviceName ≠ "" then
        pure ⟨status, devices ++ [⟨trigger, acc, deviceName, index⟩], trigger, device, pattern, own⟩
      else pure ⟨status, devices, trigger, device, pattern, own⟩ : Except Exn CheckAccessor).map outcome =
      (if deviceName ≠ "" then
        pure ⟨status, devices' ++ [⟨trigger', acc', deviceName, index⟩], trigger', device, pattern, own⟩
      else pure ⟨status, devices', trigger', device, pattern, own⟩ : Except Exn CheckAccessor).map outcome := by
    intro deviceName
    by_cases blank : deviceName = ""
    · rw [if_neg (not_not.mpr blank), if_neg (not_not.mpr blank)]
      apply congrArg Except.ok
      simp only [outcome, entries]
    · rw [if_pos blank, if_pos blank]
      apply congrArg Except.ok
      simp only [outcome, List.map_append, entries]
      rfl
  dsimp only
  by_cases determined : name = "" ∧ existsRange pattern = false
  · rw [if_pos determined, if_pos determined]
    apply bind_map_congr rfl
    intro deviceName other same
    obtain rfl : deviceName = other := same
    exact added deviceName
  · rw [if_neg determined, if_neg determined]
    exact added name

def answered (r : Bool × CheckAccessor) : Bool × CheckStatus × DeviceIdPattern × PatternIndex × String ×
    List (String × PatternIndex) :=
  (r.1, outcome r.2)

theorem outcome_pattern (same : outcome c = outcome c') : c.pattern = c'.pattern := congrArg (·.2.1) same

theorem outcome_index (same : outcome c = outcome c') : c.index = c'.index := congrArg (·.2.2.1) same

theorem outcome_markPassed (same : outcome c = outcome c') (ret : Bool) :
    outcome (c.markPassed ret) = outcome (c'.markPassed ret) := by
  cases ret with
  | false => exact same
  | true =>
    simp only [outcome, Prod.mk.injEq] at same ⊢
    exact ⟨rfl, same.2⟩

theorem bitmapFrom_outcome (value : acc.dataValue = acc'.dataValue) (checkMap : List (String × String)) (bitmap : UInt64)
    {indexes : List PatternIndex} {shift : Nat} {ret : Bool} (same : outcome c = outcome c') :
    (CheckAccessor.bitmapFrom acc checkMap bitmap indexes shift ret c).map answered =
      (CheckAccessor.bitmapFrom acc' checkMap bitmap indexes shift ret c').map answered := by
  induction indexes generalizing shift ret c c' with
  | nil =>
    apply congrArg Except.ok
    rw [answered, answered, same]
  | cons index rest ih =>
    unfold CheckAccessor.bitmapFrom
    rw [← value, ← outcome_pattern same]
    by_cases wide : 64 ≤ shift
    · rw [if_pos wide, if_pos wide]
    rw [if_neg wide, if_neg wide]
    by_cases met : acc.dataValue.check checkMap (.integer (bitmap <<< UInt64.ofNat shift).toNat) = true
    · rw [if_pos met, if_pos met]
      apply bind_map_congr rfl
      intro deviceName other named
      obtain rfl : deviceName = other := named
      exact bind_map_congr (build_outcome same deviceName index) fun a b => ih
    · rw [if_neg met, if_neg met]
      exact ih same

theorem buildWithId_outcome (same : outcome c = outcome c') (name : String) (deviceId : Int) :
    (c.buildSingleWithId acc name deviceId).map outcome = (c'.buildSingleWithId acc' name deviceId).map outcome := by
  unfold CheckAccessor.buildSingleWithId
  by_cases invalid : deviceId = invalidDeviceId
  · rw [if_pos invalid, if_pos invalid, ← outcome_index same]
    exact build_outcome same name c.index
  · rw [if_neg invalid, if_neg invalid]
    exact build_outcome same name _

theorem subCheck_outcome (value : acc.dataValue = acc'.dataValue) (same : outcome c = outcome c')
    (jsonAcc : DataAccessor) (name : String) (deviceId : Int) :
    (c.subCheck jsonAcc acc name deviceId).map answered = (c'.subCheck jsonAcc acc' name deviceId).map answered := by
  have data : acc.hasData = acc'.hasData := by rw [hasData, hasData, value]
  have failed : ∀ x y : CheckAccessor, outcome x = outcome y → answered (false, x) = answered (false, y) :=
    fun x y equal => congrArg (Prod.mk false) equal
  unfold CheckAccessor.subCheck
  rw [← data, ← value]
  by_cases empty : acc.hasData = false
  · rw [if_pos empty, if_pos empty]
    exact congrArg Except.ok (failed c c' same)
  rw [if_neg empty, if_neg empty]
  apply bind_map_congr rfl
  intro check other read
  obtain rfl : check = other := read
  apply bind_map_congr rfl
  intro checkMap other read
  obtain rfl : checkMap = other := read
  have marked : ∀ (x y : Except Exn (Bool × CheckAccessor)), x.map answered = y.map answered →
      (x >>= fun r => pure (r.1, r.2.markPassed r.1)).map answered =
        (y >>= fun r => pure (r.1, r.2.markPassed r.1)).map answered := by
    intro x y equal
    apply bind_map_congr equal
    intro a b both
    obtain ⟨first, second⟩ := Prod.mk.inj both
    apply congrArg Except.ok
    rw [answered, answered, first, outcome_markPassed second]
  by_cases bits : jsonAcc.existsCheckBitmap = true
  · rw [if_pos bits, if_pos bits]
    apply bind_map_congr rfl
    intro bitmap other read
    obtain rfl : bitmap = other := read
    apply bind_map_congr rfl
    intro text other read
    obtain rfl : text = other := read
    by_cases number : (PropertyValue.ofString text).isValidInteger = true
    · rw [if_pos number, if_pos number, ← outcome_pattern same]
      exact marked _ _ (bitmapFrom_outcome value checkMap _ same)
    · rw [if_neg number, if_neg number]
      exact marked (.ok (false, c)) (.ok (false, c')) (congrArg Except.ok (failed c c' same))
  · rw [if_neg bits, if_neg bits]
    by_cases met : acc.dataValue.check checkMap .invalid = true
    · rw [if_pos met, if_pos met]
      apply bind_map_congr (buildWithId_outcome same name deviceId)
      intro a b equal
      exact marked (.ok (true, a)) (.ok (true, b)) (congrArg (fun r => Except.ok (true, r)) equal)
    · rw [if_neg met, if_neg met]
      exact marked (.ok (false, c)) (.ok (false, c')) (congrArg Except.ok (failed c c' same))

theorem start_outcome (same : outcome c = outcome c') : outcome (c.start acc) = outcome (c'.start acc') := by
  simp only [outcome, Prod.mk.injEq] at same ⊢
  exact ⟨rfl, same.2⟩

theorem getCurrentDevice_outcome (same : outcome c = outcome c') : c.getCurrentDevice = c'.getCurrentDevice := by
  simp only [outcome, Prod.mk.injEq] at same
  obtain ⟨_, pattern, index, device, _⟩ := same
  unfold CheckAccessor.getCurrentDevice
  rw [pattern, index, device]

/-- Two values that were read from the same path of the bus. -/
structure SameRead (acc acc' : DataAccessor) : Prop where
  value : acc.dataValue = acc'.dataValue
  data : acc.hasData = true
  typed : acc.isTypeDbus = true ∧ acc'.isTypeDbus = true
  path : acc.getDbusObjectPath = acc'.getDbusObjectPath

theorem SameRead.kept (h : SameRead acc acc') (env : Env) (c c' : CheckAccessor) (name : String) :
    c.dataToCheck env acc name = .ok acc ∧ c'.dataToCheck env acc' name = .ok acc' := by
  have data : acc'.hasData = true := by
    rw [hasData, ← h.value]
    exact h.data
  unfold CheckAccessor.dataToCheck
  rw [h.typed.1, h.typed.2, h.data, data]
  exact ⟨rfl, rfl⟩

theorem devRange_dbus {jsonAcc : DataAccessor} (bus : jsonAcc.isTypeDbus = true) (name : String) :
    c.devRange jsonAcc name = .ok [] := by
  have command : jsonAcc.isTypeCmdline = false := isType_other bus (by decide)
  have core : jsonAcc.isTypeDeviceCoreApi = false := isType_other bus (by decide)
  unfold CheckAccessor.devRange
  rw [command, core]
  split <;> rfl

theorem checkDevices_outcome {env : Env} {jsonAcc : DataAccessor} (bus : jsonAcc.isTypeDbus = true)
    (h : SameRead acc acc') (same : outcome c = outcome c') (name : String) :
    (c.checkDevices env jsonAcc acc name).map (fun r => answered (r.1, r.2.2)) =
      (c'.checkDevices env jsonAcc acc' name).map fun r => answered (r.1, r.2.2) := by
  unfold CheckAccessor.checkDevices
  rw [devRange_dbus bus, devRange_dbus bus, (h.kept env c c' name).1, (h.kept env c c' name).2]
  show (c.subCheck jsonAcc acc name invalidDeviceId >>= _).map _ = (c'.subCheck jsonAcc acc' name invalidDeviceId >>= _).map _
  exact bind_map_congr (subCheck_outcome h.value same jsonAcc name invalidDeviceId) fun a b => congrArg Except.ok

theorem privCheck_outcome {env : Env} {jsonAcc : DataAccessor} (bus : jsonAcc.isTypeDbus = true)
    (h : SameRead acc acc') (same : outcome c = outcome c') :
    (c.privCheck env jsonAcc acc).map (fun r => answered (r.1, r.2.2)) =
      (c'.privCheck env jsonAcc acc').map fun r => answered (r.1, r.2.2) := by
  unfold CheckAccessor.privCheck
  rw [getCurrentDevice_outcome (start_outcome same)]
  apply bind_map_congr rfl
  intro name other read
  obtain rfl : name = other := read
  by_cases criteria : jsonAcc.existsCheckKey = true
  · rw [if_pos criteria, if_pos criteria]
    apply bind_map_congr (checkDevices_outcome bus h (start_outcome same) name)
    intro a b both
    obtain ⟨first, second⟩ := Prod.mk.inj both
    apply congrArg Except.ok
    show (a.1, outcome (a.2.2.markPassed a.1)) = (b.1, outcome (b.2.2.markPassed b.1))
    rw [← show a.1 = b.1 from first, outcome_markPassed second]
  · rw [if_neg criteria, if_neg criteria, outcome_index same]
    apply bind_map_congr (build_outcome (start_outcome same) name _)
    intro a b equal
    exact congrArg (fun r => Except.ok (true, r)) (outcome_markPassed equal true)

theorem check_outcome {env : Env} {jsonAcc : DataAccessor} (bus : jsonAcc.isTypeDbus = true) (h : SameRead acc acc')
    (c : CheckAccessor) : (c.check env jsonAcc acc).map answered = (c.check env jsonAcc acc').map answered := by
  have command : jsonAcc.isTypeCmdline = false := isType_other bus (by decide)
  have core : jsonAcc.isTypeDeviceCoreApi = false := isType_other bus (by decide)
  unfold CheckAccessor.check
  have matched : CheckAccessor.matchedIndex c.pattern jsonAcc acc = CheckAccessor.matchedIndex c.pattern jsonAcc acc' := by
    unfold CheckAccessor.matchedIndex
    rw [h.path, command]
    simp only [bus, if_true]
  rw [matched, command, core]
  apply bind_map_congr rfl
  intro index other same
  obtain rfl : index = other := same
  simp only [Bool.false_and, Bool.false_eq_true, if_false]
  exact bind_map_congr (privCheck_outcome bus h rfl) fun a b => congrArg Except.ok

end

/-! ### Signals of the same values -/

def signalOf (env : Env) (interface property path : String) : Except Exn DataAccessor := do
  let variant ← env.readDbusProperty path interface property
  pure (Signal.accessor ⟨path, interface, ∅⟩ property variant)

/-- The signals that would report the current values of what the accessor looks at. -/
def currentSignals (env : Env) (accessor : DataAccessor) : Except Exn (List DataAccessor) := do
  let object ← accessor.getDbusObjectPath
  let interface ← accessor.getDbusInterface
  let property ← accessor.getProperty
  let pattern ← DeviceIdPattern.ofString object
  let paths ← pattern.values
  paths.mapM (signalOf env interface property)

/-- What the detection makes of these signals, for an event. What is not on the bus has no signals, and is
checked as it is. -/
def replayed (env : Env) (event : EventNode) (accessor : DataAccessor) : Except Exn (List CheckAccessor) :=
  if accessor.isTypeDbus then do
    let signals ← currentSignals env accessor
    signals.mapM fun pcTrigger => checkEvent env pcTrigger event
  else [accessor].mapM (bootUpCheck env event)

def replayFrom {Ref : Type} (env : Env) (node : Ref → EventNode) :
    List (DataAccessor × Ref) → Except Exn (List (SharedCandidate Ref))
  | [] => pure []
  | (accessor, eventPtr) :: rest => do
    let checked ← replayed env (node eventPtr) accessor
    let more ← replayFrom env node rest
    pure (candidatesOf eventPtr checked ++ more)

/-- All properties that the accessor looks at on the bus have a value. -/
def Valued (env : Env) (a : DataAccessor) : Prop :=
  ∀ property interface path, Expands a (property, interface, path) →
    ∃ variant, env.readDbusProperty path interface property = .ok variant ∧ (PropertyValue.ofVariant variant).empty = false

structure HasValues (env : Env) (a : DataAccessor) : Prop where
  wellFormed : WellFormed a .dbus
  ordered : (a.acc.items.map (·.1)).Pairwise (· < ·)
  valued : Valued env a

section
variable {env : Env} {a e : DataAccessor} {object interface property : String} {p : DeviceIdPattern} {x : PatternIndex}

theorem signal_texts (path interface property : String) (variant : PropertyVariant) :
    Texts (Signal.accessor ⟨path, interface, ∅⟩ property variant) path interface property := ⟨rfl, rfl, rfl⟩

theorem signal_wellFormed {path : String} (concrete : Concrete path) (interface property : String)
    (variant : PropertyVariant) : WellFormed (Signal.accessor ⟨path, interface, ∅⟩ property variant) .dbus := by
  refine wellFormed_dbus ⟨?_, rfl, ?_, ?_⟩ ?_
  · show (["interface", "object", "property", "type"] : List String).Nodup
    decide
  · intro entry member _
    simp only [Signal.accessor, Json.items, List.mem_cons, List.not_mem_nil, or_false] at member
    rcases member with rfl | rfl | rfl | rfl
    · exact ⟨by simp, _, rfl⟩
    · exact ⟨by simp, _, rfl⟩
    · exact ⟨by simp, _, rfl⟩
    · exact ⟨by simp, _, rfl⟩
  · intro key member
    simp only [List.mem_cons, List.not_mem_nil, or_false] at member
    rcases member with rfl | rfl | rfl
    · rfl
    · rfl
    · rfl
  · intro other read
    obtain rfl := Json.string.inj (Option.some.inj ((signal_texts path interface property variant).object.symm.trans read))
    exact accepted_of_concrete concrete

/-- One path: the expanded accessor is read to what the signal says. -/
theorem readExpanded_signal (readable : HasValues env a) (texts : Texts a object interface property)
    (built : DeviceIdPattern.ofString object = .ok p) (member : x ∈ p.domain) (expansion : IsExpansion a p "object" x e) :
    ∃ path acc sig, p.eval x = .ok path ∧ readExpanded env e = .ok acc ∧ signalOf env interface property path = .ok sig ∧
      SameRead acc sig ∧ a.eq sig = .ok true := by
  obtain ⟨path, evaluated, text⟩ := expansion.text
  have concrete : Concrete path := DeviceIdPattern.eval_free built evaluated
  have value : IsValueOf path object := ⟨p, built, x, member, evaluated⟩
  have expands := expands_of_texts readable.wellFormed.shape.typed texts value
  obtain ⟨variant, read, filled⟩ := readable.valued property interface path expands
  have valid : isValidVariant variant = true := by
    cases variant with
    | invalid => cases filled
    | _ => rfl
  have typed : e.acc.get? "type" = some (.string "DBUS") :=
    (expansion.others "type" (by decide)).trans readable.wellFormed.shape.typed
  have ownInterface : e.acc.get? "interface" = some (.string interface) :=
    (expansion.others "interface" (by decide)).trans texts.interface
  have ownProperty : e.acc.get? "property" = some (.string property) :=
    (expansion.others "property" (by decide)).trans texts.property
  have bus : e.isTypeDbus = true := isType_iff.mpr typed
  have dbus : e.isValidDbusAccessor = true := by
    simp [isValidDbusAccessor, bus, Json.contains, text, ownInterface, ownProperty]
  have done : readExpanded env e = .ok (e.setDataValue (.ofVariant variant)) := by
    unfold readExpanded DataAccessor.read readDbus
    rw [bus, if_pos rfl, if_pos dbus, textAt_ok_iff.mpr text, textAt_ok_iff.mpr ownInterface,
      textAt_ok_iff.mpr ownProperty]
    simp only [bind, Except.bind, existsRangeIn_concrete concrete, read, pure, Except.pure, setDataValueFromVariant,
      if_pos valid]
  refine ⟨path, _, _, evaluated, done, bind_ok_iff.mpr ⟨variant, read, rfl⟩, ⟨rfl, ?_, ⟨bus, rfl⟩, ?_⟩, ?_⟩
  · show (!(PropertyValue.ofVariant variant).empty) = true
    rw [filled]
    rfl
  · show e.getDbusObjectPath = _
    rw [getDbusObjectPath, if_pos dbus, textAt_ok_iff.mpr text]
    exact ((signal_texts path interface property variant).reads (signal_wellFormed concrete interface property variant)).1.symm
  · obtain ⟨r, compared, iff⟩ := eq_iff_expands (Or.inr readable.wellFormed)
      (signal_wellFormed concrete interface property variant) (signal_texts path interface property variant) concrete
    rw [compared, iff.mpr expands]

theorem expansions_signals (readable : HasValues env a) (texts : Texts a object interface property)
    (built : DeviceIdPattern.ofString object = .ok p) {indexes : List PatternIndex} {list : List DataAccessor}
    (sub : ∀ x ∈ indexes, x ∈ p.domain) (each : List.Forall₂ (IsExpansion a p "object") indexes list) :
    ∃ paths accs sigs, indexes.mapM p.eval = .ok paths ∧ list.mapM (readExpanded env) = .ok accs ∧
      paths.mapM (signalOf env interface property) = .ok sigs ∧
      List.Forall₂ (fun acc sig => SameRead acc sig ∧ a.eq sig = .ok true) accs sigs := by
  induction each with
  | nil => exact ⟨[], [], [], rfl, rfl, rfl, .nil⟩
  | cons here _ ih =>
    obtain ⟨member, sub⟩ := List.forall_mem_cons.mp sub
    obtain ⟨path, acc, sig, evaluated, read, signalled, same⟩ := readExpanded_signal readable texts built member here
    obtain ⟨paths, accs, sigs, allEvaluated, allRead, allSignalled, all⟩ := ih sub
    refine ⟨path :: paths, acc :: accs, sig :: sigs, ?_, ?_, ?_, .cons same all⟩
    · exact mapM_ok_iff.mpr (.cons evaluated (mapM_ok_iff.mp allEvaluated))
    · exact mapM_ok_iff.mpr (.cons read (mapM_ok_iff.mp allRead))
    · exact mapM_ok_iff.mpr (.cons signalled (mapM_ok_iff.mp allSignalled))

theorem bootUpAccessors_signals (readable : HasValues env a) :
    ∃ accs sigs, bootUpAccessors env a = .ok accs ∧ currentSignals env a = .ok sigs ∧
      List.Forall₂ (fun acc sig => SameRead acc sig ∧ a.eq sig = .ok true) accs sigs := by
  obtain ⟨object, interface, property, texts⟩ := exists_texts readable.wellFormed
  obtain ⟨readObject, readInterface, readProperty⟩ := texts.reads readable.wellFormed
  obtain ⟨_, bus, valid⟩ := isTypeDbus_of_wellFormed readable.wellFormed
  obtain ⟨p, built⟩ := readable.wellFormed.accepted "object" object (Or.inl rfl) texts.object
  obtain ⟨members, whole⟩ := Json.exists_object texts.object
  obtain ⟨text, evaluated⟩ := DeviceIdPattern.evaluated_domain p
  obtain ⟨list, expanded, each⟩ := expandFrom_ok readable.ordered texts.object p.domain
    (fun x member => ⟨text x, evaluated x member⟩) a.acc ⟨members, whole, .inl whole⟩
  obtain ⟨paths, accs, sigs, values, read, signalled, all⟩ :=
    expansions_signals readable texts built (fun _ member => member) each
  refine ⟨accs, sigs, ?_, ?_, all⟩
  · unfold bootUpAccessors
    rw [if_pos bus, expand_eq (Or.inl ⟨valid, rfl⟩) texts.object built, expanded]
    exact read
  · unfold currentSignals DeviceIdPattern.values
    rw [readObject, readInterface, readProperty]
    simp only [bind, Except.bind, built, values]
    exact signalled

end

/-! ### The replay -/

section
variable {env : Env}

theorem bootUpCheck_signal {event : EventNode} {acc sig : DataAccessor} (bus : event.accessor.isTypeDbus = true)
    (same : SameRead acc sig) (equal : event.accessor.eq sig = .ok true) :
    (bootUpCheck env event acc).map outcome = (checkEvent env sig event).map outcome := by
  unfold bootUpCheck checkEvent
  apply bind_map_congr rfl
  intro c other built
  obtain rfl : c = other := built
  rw [equal]
  show (c.check env event.accessor acc >>= fun r => pure r.2).map outcome =
    (c.check env event.accessor sig >>= fun r => pure r.2).map outcome
  exact bind_map_congr (check_outcome bus same c) fun a b both => congrArg Except.ok (Prod.mk.inj both).2

/-- What a candidate says: the event, and the devices with their indexes. -/
def summary {Ref : Type} (candidate : SharedCandidate Ref) : Ref × List (String × PatternIndex) × Bool :=
  (candidate.event, candidate.assertedDevices.map CheckAccessor.entry, candidate.isRecovery)

theorem candidatesOf_outcome {Ref : Type} (eventPtr : Ref) {checked checked' : List CheckAccessor}
    (same : checked.map outcome = checked'.map outcome) :
    (candidatesOf eventPtr checked).map summary = (candidatesOf eventPtr checked').map summary := by
  induction checked generalizing checked' with
  | nil =>
    obtain rfl := List.map_eq_nil_iff.mp same.symm
    rfl
  | cons c rest ih =>
    cases checked' with
    | nil => cases same
    | cons c' rest' =>
      rw [List.map_cons, List.map_cons] at same
      obtain ⟨here, later⟩ := List.cons.inj same
      simp only [outcome, Prod.mk.injEq] at here
      obtain ⟨status, _, _, _, entries⟩ := here
      have passed : c.passed = c'.passed := by rw [CheckAccessor.passed, CheckAccessor.passed, status]
      have more := ih later
      unfold candidatesOf at more ⊢
      rw [List.filter_cons, List.filter_cons, ← passed]
      cases c.passed with
      | false => exact more
      | true =>
        simp only [if_true, List.map_cons, summary, entries]
        exact congrArg (List.cons _) more

/-- The checks of one entry of the view. -/
theorem bootUpChecks_replayed {event : EventNode}
    (readable : event.accessor.isTypeDbus = true → HasValues env event.accessor) :
    (bootUpAccessors env event.accessor >>= fun accList => accList.mapM (bootUpCheck env event)).map (List.map outcome) =
      (replayed env event event.accessor).map (List.map outcome) := by
  by_cases bus : event.accessor.isTypeDbus = true
  · obtain ⟨accs, sigs, read, signalled, all⟩ := bootUpAccessors_signals (readable bus)
    unfold replayed
    rw [if_pos bus, read, signalled]
    apply mapM_map_congr
    apply all.imp
    intro acc sig both
    exact bootUpCheck_signal bus both.1 both.2
  · unfold replayed bootUpAccessors
    rw [if_neg bus, if_neg bus]
    rfl

theorem bootUpFrom_keyed {Ref : Type} {node : Ref → EventNode} {order : List (DataAccessor × Ref)}
    (keyed : ∀ item ∈ order, item.1 = (node item.2).accessor)
    (readable : ∀ item ∈ order, item.1.isTypeDbus = true → HasValues env item.1) :
    (bootUpFrom env node order).map (List.map summary) = (replayFrom env node order).map (List.map summary) := by
  induction order with
  | nil => rfl
  | cons item rest ih =>
    obtain ⟨accessor, eventPtr⟩ := item
    obtain ⟨key, others⟩ := List.forall_mem_cons.mp keyed
    obtain ⟨here, later⟩ := List.forall_mem_cons.mp readable
    obtain rfl : accessor = (node eventPtr).accessor := key
    have checks := bootUpChecks_replayed here
    rw [show bootUpFrom env node (((node eventPtr).accessor, eventPtr) :: rest) =
      (bootUpAccessors env (node eventPtr).accessor >>= fun accList => accList.mapM (bootUpCheck env (node eventPtr))) >>=
        fun checked => bootUpFrom env node rest >>= fun more => pure (candidatesOf eventPtr checked ++ more) from
      (bind_assoc _ _ _).symm]
    unfold replayFrom
    apply bind_map_congr checks
    intro checked checked' same
    apply bind_map_congr (ih others later)
    intro more more' equal
    apply congrArg Except.ok
    rw [List.map_append, List.map_append, candidatesOf_outcome eventPtr same, equal]

end

/-! ### Loaded events -/

section
variable {hashFn : String → UInt64} {buckets : EventView.Buckets hashFn EventNode} {loaded : Loaded hashFn} {j : Json}
  {env : Env}

/-- The event that a number stands for. -/
def eventAt (loaded : Loaded hashFn) (i : Nat) : EventNode := (loaded.events[i]?).getD {}

theorem hasValues_of_loaded (ordered : keysInOrder j = true) (admits : eventInfoJsonSchema.Admits j)
    (run : loadFromJson buckets {} j = .ok loaded) (shares : loaded.Shares) {e : EventNode} (inside : e ∈ loaded.events)
    (bus : e.accessor.isTypeDbus = true) (valued : Valued env e.accessor) : HasValues env e.accessor := by
  obtain ⟨iff, filled⟩ := loadFromJson_filled buckets ordered admits
  have key : e.accessor ∈ loaded.eventAccessorView.keys := by
    rw [EventView.keys, keys_eq_pairs, shares.accessors, List.map_map]
    exact List.mem_map_of_mem inside
  rw [(filled loaded run).accessors] at key
  obtain ⟨event, listed, same⟩ := List.mem_map.mp (List.mem_of_mem_filter key)
  have loadable := (iff.mp ⟨loaded, run⟩).each event listed
  obtain ⟨form, isForm⟩ := accessorOf_form (eventsOf_shape ordered admits event listed)
  have paths := loadable.paths accessorOf List.mem_cons_self
  rw [same] at isForm paths
  have dbus : form = .dbus := by
    have typed : form.type = "DBUS" :=
      Json.string.inj (Option.some.inj (isForm.shape.typed.symm.trans (isType_iff.mp bus)))
    cases form with
    | dbus => rfl
    | deviceCoreApi => exact absurd typed (by decide)
    | cmdline => exact absurd typed (by decide)
    | direct => exact absurd typed (by decide)
  subst dbus
  exact ⟨wellFormed_dbus isForm.shape paths, isForm.inOrder, valued⟩

/-- At boot, the events that are detected are those that signals of the current values would lead to. -/
theorem bootUpFrom_replays {order : List (DataAccessor × Nat)} (ordered : keysInOrder j = true)
    (accepted : ∃ problems, eventInfoJsonSchema.check j [] = .ok (true, problems))
    (run : loadFromJson buckets {} j = .ok loaded) (listed : order.Perm (pairs loaded.views.eventAccessorView))
    (valued : ∀ e ∈ loaded.events, Valued env e.accessor) :
    (bootUpFrom env (eventAt loaded) order).map (List.map summary) =
      (replayFrom env (eventAt loaded) order).map (List.map summary) := by
  obtain ⟨problems, accepted⟩ := accepted
  have admits := admits_of_check accepted
  have isObject := List.mem_singleton.mp (admits_types (admits_feature admits List.mem_cons_self rfl))
  have shares := (Loaded.loadFromJson_shares isObject ordered run).1
  have numbered : ∀ item ∈ order, ∃ e, loaded.events[item.2]? = some e ∧ item.1 = e.accessor := by
    intro item member
    rw [listed.mem_iff, shares.accessorView] at member
    obtain ⟨⟨e, i⟩, inside, rfl⟩ := List.mem_map.mp member
    exact ⟨e, List.mem_zipIdx_iff_getElem?.mp inside, rfl⟩
  apply bootUpFrom_keyed
  · intro item member
    obtain ⟨e, found, key⟩ := numbered item member
    rw [key, eventAt, found, Option.getD_some]
  · intro item member bus
    obtain ⟨e, found, key⟩ := numbered item member
    rw [key] at bus ⊢
    have inside := List.mem_of_getElem? found
    exact hasValues_of_loaded ordered admits run shares inside bus (valued e inside)

end

/-- A bus on which every property has the value 90. -/
def warm : Env := { silent 0 with readDbusProperty := fun _ _ _ => .ok (.integer 90) }

/-- Both paths of a range are detected. -/
theorem bootUpFrom_replays_range : ∃ loaded : Loaded lengthHash,
    loadFromJson (inInsertionOrder lengthHash) {} temperatureRange = .ok loaded ∧
      ((bootUpFrom warm (eventAt loaded) (pairs loaded.views.eventAccessorView)).map List.length).toOption = some 2 ∧
      (bootUpFrom warm (eventAt loaded) (pairs loaded.views.eventAccessorView)).map (List.map summary) =
        (replayFrom warm (eventAt loaded) (pairs loaded.views.eventAccessorView)).map (List.map summary) := by
  have computed : (loadFromJson (inInsertionOrder lengthHash) {} temperatureRange).map (fun loaded => decide
      (((bootUpFrom warm (eventAt loaded) (pairs loaded.views.eventAccessorView)).map List.length).toOption = some 2)) =
      .ok true := by
    decide +kernel
  obtain ⟨loaded, run, both⟩ := map_ok computed
  exact ⟨loaded, run, of_decide_eq_true both, bootUpFrom_replays (by decide) ⟨[], by decide +kernel⟩ run
    (List.Perm.refl _) fun _ _ _ _ _ _ => ⟨.integer 90, rfl, by decide⟩⟩

end MonitorEventing.Detection
