import MonitorEventing.Basic
import MonitorEventing.Lib.Machine

/-!
# The thread pool

Guards that ask a manager for one of its slots, each in a thread of its own. A step is one atomic
operation of one guard on what the guards share, the semaphore and the counter of acquisitions in
progress; what else a guard does is between two of its steps.
-/

namespace MonitorEventing.Threadpool

/-- `THREADPOOL_SEMAPHORE_MIN_CAPABILITY`. -/
def semaphoreMinCapability : Nat := 32

/-- The limits the constructor accepts. -/
structure ThreadpoolManager where
  maxRunning : Nat
  maxTotal : Nat
  supported : maxRunning ≤ semaphoreMinCapability
  ordered : maxRunning ≤ maxTotal

/-- The constructor. A semaphore must not start below zero. -/
def ThreadpoolManager.ofLimits (maxRunning maxTotal : Int) : Except Exn ThreadpoolManager :=
  if low : maxRunning < 0 then .error .undefined
  else if high : maxRunning > semaphoreMinCapability then
    .error (.runtimeError "ThreadpoolManager: maxRunning cannot be greater than THREADPOOL_SEMAPHORE_MIN_CAPABILITY")
  else if less : maxTotal < maxRunning then
    .error (.runtimeError "ThreadpoolManager: maxTotal cannot be less than maxRunning")
  else .ok ⟨maxRunning.toNat, maxTotal.toNat, by omega, by omega⟩

theorem ThreadpoolManager.ofLimits_ok_iff {maxRunning maxTotal : Int} :
    (∃ m, ofLimits maxRunning maxTotal = .ok m) ↔
      0 ≤ maxRunning ∧ maxRunning ≤ semaphoreMinCapability ∧ maxRunning ≤ maxTotal := by
  unfold ofLimits
  split_ifs with low high less
  · simp [low]
  · simp [high]
  · simp [less]
  · simpa using ⟨not_lt.mp low, not_lt.mp high, not_lt.mp less⟩

/-- Where a guard is: in `try_acquire`, or constructed with what it returned, or gone. -/
inductive Phase where
  /-- Counted, with the cap reached. -/
  | rejecting
  /-- Counted and admitted, in `try_acquire_for`. -/
  | blocked
  /-- Still counted, without a slot. -/
  | timedOut
  /-- Still counted, with a slot. -/
  | acquired
  | holding
  | refused
  | destroyed
  deriving DecidableEq, Repr

/-- What the guards share, and where each of them is. An acquisition in progress occupies a thread, so
the counter stays far inside the range of `int`. -/
structure State where
  free : Nat
  waiting : Int
  guards : List Phase
  deriving DecidableEq

inductive Act where
  /-- `fetch_add` of a new guard, which compares the old value with the limit. -/
  | enter
  | acquire (guard : Nat)
  /-- `try_acquire_for` returns false, after the timeout or spuriously. -/
  | timeout (guard : Nat)
  | decrement (guard : Nat)
  | destroy (guard : Nat)

def start (m : ThreadpoolManager) : State := ⟨m.maxRunning, 0, []⟩

def State.enter (s : State) (phase : Phase) : State :=
  { s with waiting := s.waiting + 1, guards := s.guards ++ [phase] }

def State.put (s : State) (guard : Nat) (phase : Phase) : State := { s with guards := s.guards.set guard phase }

/-- The end of `try_acquire`, after which the guard is constructed. -/
def Phase.returned : Phase → Option Phase
  | .rejecting => some .refused
  | .timedOut => some .refused
  | .acquired => some .holding
  | _ => none

def step (m : ThreadpoolManager) (s : State) : Act → Option State
  | .enter => some (s.enter (if s.waiting ≥ m.maxTotal then .rejecting else .blocked))
  | .acquire guard =>
    if s.guards[guard]? = some .blocked ∧ 0 < s.free then some { s.put guard .acquired with free := s.free - 1 }
    else none
  | .timeout guard => if s.guards[guard]? = some .blocked then some (s.put guard .timedOut) else none
  | .decrement guard =>
    match s.guards[guard]?.bind Phase.returned with
    | some phase => some { s.put guard phase with waiting := s.waiting - 1 }
    | none => none
  | .destroy guard =>
    match s.guards[guard]? with
    | some .holding => some { s.put guard .destroyed with free := s.free + 1 }
    | some .refused => some (s.put guard .destroyed)
    | _ => none

/-! ### Counting guards -/

def Phase.isHolder (p : Phase) : Bool := p = .acquired ∨ p = .holding
def Phase.isBlocked (p : Phase) : Bool := p = .blocked
def Phase.isAdmitted (p : Phase) : Bool := p = .blocked ∨ p = .timedOut ∨ p = .acquired
def Phase.inProgress (p : Phase) : Bool := p = .rejecting ∨ p.isAdmitted

def State.count (s : State) (p : Phase → Bool) : Nat := s.guards.countP p

theorem count_put {s : State} {guard : Nat} {old : Phase} (here : s.guards[guard]? = some old) (new : Phase)
    (p : Phase → Bool) :
    (s.put guard new).count p + (p old).toNat = s.count p + (p new).toNat := by
  obtain ⟨inside, value⟩ := List.getElem?_eq_some_iff.mp here
  have counted : (p old).toNat ≤ s.guards.countP p := by
    cases matched : p old with
    | false => simp
    | true => exact List.countP_pos_iff.mpr ⟨old, List.mem_of_getElem? here, matched⟩
  have number : ∀ b : Bool, (if b = true then 1 else 0) = b.toNat := by decide
  rw [State.count, State.put, State.count, List.countP_set inside, value, number, number]
  omega

theorem count_enter (s : State) (new : Phase) (p : Phase → Bool) :
    (s.enter new).count p = s.count p + (p new).toNat := by
  simp only [State.count, State.enter, List.countP_append, List.countP_singleton]
  cases p new with
  | true => rfl
  | false => rfl

theorem count_mono (s : State) {p q : Phase → Bool} (sub : ∀ phase, p phase = true → q phase = true) :
    s.count p ≤ s.count q :=
  List.countP_mono_left fun phase _ => sub phase

/-! ### What a step can do -/

/-- How a guard gets from one phase to the next. -/
inductive Moves : Phase → Phase → Prop where
  | acquire : Moves .blocked .acquired
  | timeout : Moves .blocked .timedOut
  | reject : Moves .rejecting .refused
  | giveUp : Moves .timedOut .refused
  | hold : Moves .acquired .holding
  | release : Moves .holding .destroyed
  | dismiss : Moves .refused .destroyed

/-- A guard enters, or one moves and with it what it has of the slots and of the count. -/
theorem step_cases {m : ThreadpoolManager} {s t : State} {act : Act} (h : step m s act = some t) :
    (act = .enter ∧ t = s.enter (if s.waiting ≥ m.maxTotal then .rejecting else .blocked)) ∨
    ∃ guard old new free waiting, s.guards[guard]? = some old ∧ Moves old new ∧
      free + new.isHolder.toNat = s.free + old.isHolder.toNat ∧
      waiting - new.inProgress.toNat = s.waiting - old.inProgress.toNat ∧
      t = { s.put guard new with free := free, waiting := waiting } := by
  cases act with
  | enter => exact Or.inl ⟨rfl, (Option.some.inj h).symm⟩
  | acquire guard =>
    simp only [step] at h
    split at h
    · rename_i able
      have slot : s.free - 1 + 1 = s.free + 0 := by omega
      exact Or.inr ⟨guard, _, _, _, s.waiting, able.1, .acquire, slot, rfl, (Option.some.inj h).symm⟩
    · cases h
  | timeout guard =>
    simp only [step] at h
    split at h
    · rename_i here
      exact Or.inr ⟨guard, _, _, s.free, s.waiting, here, .timeout, rfl, rfl, (Option.some.inj h).symm⟩
    · cases h
  | decrement guard =>
    simp only [step] at h
    split at h
    · rename_i phase returned
      obtain ⟨old, here, next⟩ := Option.bind_eq_some_iff.mp returned
      have less : s.waiting - 1 - ((0 : Nat) : Int) = s.waiting - ((1 : Nat) : Int) := by omega
      have moved := (Option.some.inj h).symm
      cases old with
      | rejecting =>
        obtain rfl := Option.some.inj next
        exact Or.inr ⟨guard, _, _, s.free, _, here, .reject, rfl, less, moved⟩
      | timedOut =>
        obtain rfl := Option.some.inj next
        exact Or.inr ⟨guard, _, _, s.free, _, here, .giveUp, rfl, less, moved⟩
      | acquired =>
        obtain rfl := Option.some.inj next
        exact Or.inr ⟨guard, _, _, s.free, _, here, .hold, rfl, less, moved⟩
      | _ => cases next
    · cases h
  | destroy guard =>
    simp only [step] at h
    split at h
    · rename_i here
      exact Or.inr ⟨guard, _, _, _, s.waiting, here, .release, rfl, rfl, (Option.some.inj h).symm⟩
    · rename_i here
      exact Or.inr ⟨guard, _, _, s.free, s.waiting, here, .dismiss, rfl, rfl, (Option.some.inj h).symm⟩
    · cases h

/-! ### The invariant -/

/-- Slots and count agree with where the guards are, and only those the limit admits are admitted. -/
structure Inv (m : ThreadpoolManager) (s : State) : Prop where
  slots : s.free + s.count Phase.isHolder = m.maxRunning
  counted : s.waiting = s.count Phase.inProgress
  limited : s.count Phase.isAdmitted ≤ m.maxTotal

theorem start_inv (m : ThreadpoolManager) : Inv m (start m) :=
  ⟨rfl, rfl, Nat.zero_le _⟩

/-- One guard moves, and what it moves in the shared state. -/
theorem put_inv {m : ThreadpoolManager} {s : State} (inv : Inv m s) {guard : Nat} {old : Phase}
    (here : s.guards[guard]? = some old) (new : Phase) {free : Nat} {waiting : Int}
    (slot : free + new.isHolder.toNat = s.free + old.isHolder.toNat)
    (count : waiting - new.inProgress.toNat = s.waiting - old.inProgress.toNat)
    (admitted : new.isAdmitted.toNat ≤ old.isAdmitted.toNat) :
    Inv m { s.put guard new with free := free, waiting := waiting } := by
  obtain ⟨slots, counted, limited⟩ := inv
  have holders := count_put here new Phase.isHolder
  have running := count_put here new Phase.inProgress
  have letIn := count_put here new Phase.isAdmitted
  refine ⟨?_, ?_, ?_⟩
  · show free + (s.put guard new).count Phase.isHolder = m.maxRunning
    omega
  · show waiting = (s.put guard new).count Phase.inProgress
    omega
  · show (s.put guard new).count Phase.isAdmitted ≤ m.maxTotal
    omega

theorem enter_inv {m : ThreadpoolManager} {s : State} (inv : Inv m s) (new : Phase) (slotless : new.isHolder = false)
    (progress : new.inProgress = true) (room : new.isAdmitted = true → s.waiting < m.maxTotal) :
    Inv m (s.enter new) := by
  obtain ⟨slots, counted, limited⟩ := inv
  have holders := count_enter s new Phase.isHolder
  have running := count_enter s new Phase.inProgress
  have letIn := count_enter s new Phase.isAdmitted
  have within : s.count Phase.isAdmitted ≤ s.count Phase.inProgress :=
    count_mono s fun phase admitted => by simp [Phase.inProgress, admitted]
  rw [slotless, Bool.toNat_false] at holders
  rw [progress, Bool.toNat_true] at running
  refine ⟨?_, ?_, ?_⟩
  · show s.free + (s.enter new).count Phase.isHolder = m.maxRunning
    omega
  · show s.waiting + 1 = (s.enter new).count Phase.inProgress
    omega
  · cases admitted : new.isAdmitted with
    | false =>
      rw [admitted, Bool.toNat_false] at letIn
      omega
    | true =>
      -- the counter is at least the number of the admitted
      have below := room admitted
      rw [admitted, Bool.toNat_true] at letIn
      omega

theorem step_inv {m : ThreadpoolManager} {s t : State} {act : Act} (inv : Inv m s) (h : step m s act = some t) :
    Inv m t := by
  rcases step_cases h with ⟨_, rfl⟩ | ⟨guard, old, new, free, waiting, here, moves, slot, count, rfl⟩
  · by_cases full : s.waiting ≥ m.maxTotal
    · rw [if_pos full]
      exact enter_inv inv .rejecting rfl rfl fun admitted => nomatch admitted
    · rw [if_neg full]
      exact enter_inv inv .blocked rfl rfl fun _ => by omega
  · refine put_inv inv here new slot count ?_
    cases moves <;> decide

theorem blocked_le_admitted (s : State) : s.count Phase.isBlocked ≤ s.count Phase.isAdmitted :=
  count_mono s fun phase blocked => by
    have same : phase = .blocked := by simpa [Phase.isBlocked] using blocked
    rw [same]
    rfl

theorem reachable_inv {m : ThreadpoolManager} {s : State} (reached : Machine.Reachable (step m) (· = start m) s) :
    Inv m s :=
  reached.invariant (fun _ begins => begins ▸ start_inv m) fun _ _ _ => step_inv

/-- At any point of any interleaving, no slot is lost, the count is right, and as many guards as the
limit allows are in the queue at most. -/
theorem slots_and_count (m : ThreadpoolManager) (s : State)
    (reached : Machine.Reachable (step m) (· = start m) s) :
    s.count Phase.isHolder ≤ m.maxRunning ∧ s.free + s.count Phase.isHolder = m.maxRunning ∧
    s.count Phase.isBlocked ≤ m.maxTotal ∧ 0 ≤ s.waiting ∧
    (s.count Phase.inProgress = 0 → s.waiting = 0) ∧
    ((∀ phase ∈ s.guards, phase = .destroyed) → s.free = m.maxRunning) := by
  obtain ⟨slots, counted, limited⟩ := reachable_inv reached
  have blocked := blocked_le_admitted s
  refine ⟨by omega, slots, by omega, by omega, fun none => by omega, fun gone => ?_⟩
  have none : s.count Phase.isHolder = 0 := by
    rw [State.count, List.countP_eq_zero]
    intro phase member
    rw [gone phase member]
    decide
  omega

def single : ThreadpoolManager := ⟨1, 1, by decide, le_rfl⟩

/-- One guard has the only slot, and another is about to be refused. -/
theorem slots_and_count_single :
    (⟨0, 1, [.holding, .rejecting]⟩ : State).free +
      (⟨0, 1, [.holding, .rejecting]⟩ : State).count Phase.isHolder = single.maxRunning :=
  (slots_and_count single ⟨0, 1, [.holding, .rejecting]⟩
    ⟨start single, [.enter, .enter, .acquire 0, .decrement 0], rfl, rfl⟩).2.1

end MonitorEventing.Threadpool
