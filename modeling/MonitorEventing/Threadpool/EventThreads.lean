import MonitorEventing.Selftest.Perform
import MonitorEventing.Threadpool.Manager

/-!
# Event threads

Each event is handled by a thread of its own, which shares a guard of the pool with the caller that has created
it. The slot is free again when both are done. What the threads do does not depend on how they interleave: every
one runs its handlers as a call without threads would.
-/

namespace MonitorEventing.EventThreads
open Selftest Threadpool

variable {η ε : Type}

/-! ### The handlers -/

section
variable {m : Type → Type} [Monad m] (process : η → ε → m (RcCode × ε)) (getName : η → String)

def runHandler (name : String) : List η → ε → m (RcCode × ε)
  | [], event => pure (.succ, event)
  | hdlr :: rest, event =>
    if name = getName hdlr then do
      let result ← process hdlr event
      pure (.succ, result.2)
    else runHandler name rest event

/-- What a handler returns stops no other. -/
def runAllHandlers : List η → ε → m (RcCode × ε)
  | [], event => pure (.succ, event)
  | hdlr :: rest, event => do
    let result ← process hdlr event
    runAllHandlers rest result.2

end

/-- `RunEventHandlers` runs all, `RunEventHandler` the one of a name. -/
inductive Routine where
  | all
  | single (name : String)
  deriving DecidableEq

namespace Routine

def run {m : Type → Type} [Monad m] (process : η → ε → m (RcCode × ε)) (getName : η → String) (handlers : List η)
    (event : ε) : Routine → m (RcCode × ε)
  | .all => runAllHandlers process handlers event
  | .single name => runHandler process getName name handlers event

def chosen (getName : η → String) (handlers : List η) : Routine → List η
  | .all => handlers
  | .single name => (handlers.find? fun hdlr => name = getName hdlr).toList

theorem run_eq {m : Type → Type} [Monad m] (process : η → ε → m (RcCode × ε)) (getName : η → String) (handlers : List η)
    (event : ε) (routine : Routine) :
    routine.run process getName handlers event = runAllHandlers process (routine.chosen getName handlers) event := by
  cases routine with
  | all => rfl
  | single name =>
    induction handlers with
    | nil => rfl
    | cons hdlr rest ih =>
      by_cases same : name = getName hdlr
      · simp only [run, runHandler, chosen, List.find?_cons, same, decide_true, if_true]
        rfl
      · simp only [run, chosen] at ih
        simp only [run, runHandler, chosen, List.find?_cons, same, decide_false, if_false, ih]

end Routine

/-! ### The threads -/

/-- A handler that was run: the event it saw, what it returned and how it left the event. -/
structure Call (η ε : Type) where
  handler : η
  seen : ε
  outcome : RcCode × ε

inductive Thread (η ε : Type) where
  | uncreated
  | running (event : ε) (remaining : List η)
  | finished (event : ε)

/-- What a guard is constructed for: an event, or the rest of a thread that is already there. -/
inductive Task (ε : Type) where
  | event (event : ε) (routine : Routine)
  | scope
  deriving DecidableEq

/-- `success` is that of the guard, once it is constructed. -/
structure Job (η ε : Type) where
  task : Task ε
  success : Option Bool := none
  /-- The caller has gone on, and has its pointer to the guard no more. -/
  left : Bool := false
  thread : Thread η ε := .uncreated
  calls : List (Call η ε) := []

def Thread.isRunning : Thread η ε → Bool
  | .running _ _ => true
  | _ => false

def Thread.isCreated : Thread η ε → Bool
  | .uncreated => false
  | _ => true

def Task.isScope : Task ε → Bool
  | .scope => true
  | .event _ _ => false

/-- Someone has a pointer to the guard. -/
def Job.owned (job : Job η ε) : Bool := !job.left || job.thread.isRunning

/-- The guards of the pool, and the job of each. -/
structure State (η ε : Type) where
  pool : Threadpool.State
  jobs : List (Job η ε)

inductive Act (ε : Type) where
  | call (task : Task ε)
  | acquire (job : Nat)
  | timeout (job : Nat)
  | construct (job : Nat)
  | create (job : Nat)
  | handle (job : Nat) (outcome : RcCode × ε)
  | finish (job : Nat)
  | leave (job : Nat)

/-- The job goes on by itself. -/
def Act.isOwn : Act ε → Bool
  | .call _ | .timeout _ => false
  | _ => true

def start (m : ThreadpoolManager) : State η ε := ⟨Threadpool.start m, []⟩

namespace State

def put (s : State η ε) (i : Nat) (job : Job η ε) : State η ε := { s with jobs := s.jobs.set i job }

/-- A pointer to the guard is gone, and the guard with the last of them. -/
def release (m : ThreadpoolManager) (s : State η ε) (i : Nat) (job : Job η ε) : Option (State η ε) :=
  if job.owned then some (s.put i job)
  else (Threadpool.step m s.pool (.destroy i)).map fun pool => { s.put i job with pool := pool }

end State

section
variable (m : ThreadpoolManager) (getName : η → String) (handlers : List η)

def step (s : State η ε) : Act ε → Option (State η ε)
  | .call task => (Threadpool.step m s.pool .enter).map fun pool => ⟨pool, s.jobs ++ [{ task := task }]⟩
  | .acquire i => (Threadpool.step m s.pool (.acquire i)).map fun pool => { s with pool := pool }
  | .timeout i => (Threadpool.step m s.pool (.timeout i)).map fun pool => { s with pool := pool }
  | .construct i => do
    let job ← s.jobs[i]?
    let pool ← Threadpool.step m s.pool (.decrement i)
    some { s.put i { job with success := some (s.pool.guards[i]? = some .acquired) } with pool := pool }
  | .create i => do
    let job ← s.jobs[i]?
    match job.success, job.left, job.thread, job.task with
    | some true, false, .uncreated, .event event routine =>
      some (s.put i { job with thread := .running event (routine.chosen getName handlers) })
    | _, _, _, _ => none
  | .handle i outcome => do
    let job ← s.jobs[i]?
    match job.thread with
    | .running event (hdlr :: rest) =>
      some (s.put i { job with thread := .running outcome.2 rest, calls := job.calls ++ [⟨hdlr, event, outcome⟩] })
    | _ => none
  | .finish i => do
    let job ← s.jobs[i]?
    match job.thread with
    | .running event [] => s.release m i { job with thread := .finished event }
    | _ => none
  | .leave i => do
    let job ← s.jobs[i]?
    if job.left = false ∧ (job.success = some false ∨ job.success = some true ∧ (job.thread.isCreated ∨ job.task.isScope)) then
      s.release m i { job with left := true }
    else none

end

/-! ### What a thread has done -/

/-- The calls pass the event on. -/
def Trace : ε → List (Call η ε) → ε → Prop
  | first, [], last => first = last
  | first, call :: rest, last => call.seen = first ∧ Trace call.outcome.2 rest last

theorem Trace.concat {first last : ε} {calls : List (Call η ε)} (trace : Trace first calls last) (hdlr : η)
    (outcome : RcCode × ε) : Trace first (calls ++ [⟨hdlr, last, outcome⟩]) outcome.2 := by
  induction calls generalizing first with
  | nil =>
    obtain rfl := trace
    exact ⟨rfl, rfl⟩
  | cons call rest ih => exact ⟨trace.1, ih trace.2⟩

/-- A handler that follows a script, and notes how it was called. -/
def scripted (hdlr : η) (event : ε) : StateM (List (RcCode × ε) × List (Call η ε)) (RcCode × ε) := fun s =>
  let outcome := s.1.headD (.error, event)
  (outcome, s.1.tail, s.2 ++ [⟨hdlr, event, outcome⟩])

theorem runAllHandlers_scripted {first last : ε} {calls : List (Call η ε)} (trace : Trace first calls last)
    (before : List (Call η ε)) :
    runAllHandlers scripted (calls.map (·.handler)) first (calls.map (·.outcome), before) =
      ((.succ, last), [], before ++ calls) := by
  induction calls generalizing first before with
  | nil =>
    obtain rfl := trace
    simp [runAllHandlers, pure, StateT.pure]
  | cons call rest ih =>
    obtain ⟨rfl, later⟩ := trace
    have next := ih later (before ++ [call])
    rw [List.append_assoc] at next
    exact next

section
variable {m : ThreadpoolManager} {getName : η → String} {handlers : List η}

/-- The calls a job has made, and those it will make. -/
def Job.Did (getName : η → String) (handlers : List η) (job : Job η ε) : Prop :=
  match job.thread, job.task with
  | .uncreated, _ => job.calls = []
  | .running event remaining, .event first routine =>
    Trace first job.calls event ∧ job.calls.map (·.handler) ++ remaining = routine.chosen getName handlers
  | .finished event, .event first routine =>
    Trace first job.calls event ∧ job.calls.map (·.handler) = routine.chosen getName handlers
  | _, .scope => False

/-- Where the guard is, and where its job can be then. -/
inductive Fits (getName : η → String) (handlers : List η) : Phase → Job η ε → Prop where
  | constructing {phase : Phase} {task : Task ε} (progress : phase.inProgress = true) :
      Fits getName handlers phase { task := task }
  | refused {task : Task ε} : Fits getName handlers .refused { task := task, success := some false }
  | dismissed {task : Task ε} : Fits getName handlers .destroyed { task := task, success := some false, left := true }
  | holding {job : Job η ε} (admitted : job.success = some true) (owned : job.owned = true) (did : job.Did getName handlers) :
      Fits getName handlers .holding job
  | ended {job : Job η ε} (admitted : job.success = some true) (gone : job.owned = false) (did : job.Did getName handlers)
      (created : job.thread.isCreated = true ∨ job.task.isScope = true) : Fits getName handlers .destroyed job

theorem did_running {job : Job η ε} {event : ε} {remaining : List η} (running : job.thread = .running event remaining) :
    job.Did getName handlers ↔ ∃ first routine, job.task = .event first routine ∧ Trace first job.calls event ∧
      job.calls.map (·.handler) ++ remaining = routine.chosen getName handlers := by
  unfold Job.Did
  rw [running]
  cases task : job.task with
  | scope => simp
  | event first routine => simp

theorem did_finished {job : Job η ε} {event : ε} (finished : job.thread = .finished event) :
    job.Did getName handlers ↔ ∃ first routine, job.task = .event first routine ∧ Trace first job.calls event ∧
      job.calls.map (·.handler) = routine.chosen getName handlers := by
  unfold Job.Did
  rw [finished]
  cases task : job.task with
  | scope => simp
  | event first routine => simp

theorem forall₂_set {α β : Type} {R : α → β → Prop} {as : List α} {bs : List β} (all : List.Forall₂ R as bs) (i : Nat)
    {a : α} {b : β} (here : R a b) : List.Forall₂ R (as.set i a) (bs.set i b) := by
  induction all generalizing i with
  | nil => exact .nil
  | cons head tail ih =>
    cases i with
    | zero => exact .cons here tail
    | succ i => exact .cons head (ih i)

theorem set_self {α : Type} {as : List α} {i : Nat} {a : α} (here : as[i]? = some a) : as.set i a = as := by
  obtain ⟨inside, rfl⟩ := List.getElem?_eq_some_iff.mp here
  exact List.set_getElem_self inside

theorem forall₂_getElem? {α β : Type} {R : α → β → Prop} {as : List α} {bs : List β} (all : List.Forall₂ R as bs) {i : Nat}
    {b : β} (here : bs[i]? = some b) : ∃ a, as[i]? = some a ∧ R a b := by
  induction all generalizing i with
  | nil => cases here
  | cons head tail ih =>
    cases i with
    | zero => exact ⟨_, rfl, Option.some.inj here ▸ head⟩
    | succ i => exact ih here

theorem forall₂_getElem?_left {α β : Type} {R : α → β → Prop} {as : List α} {bs : List β} (all : List.Forall₂ R as bs)
    {i : Nat} {a : α} (here : as[i]? = some a) : ∃ b, bs[i]? = some b ∧ R a b :=
  forall₂_getElem? all.flip here

structure Inv (m : ThreadpoolManager) (getName : η → String) (handlers : List η) (s : State η ε) : Prop where
  pool : Threadpool.Inv m s.pool
  fits : List.Forall₂ (Fits getName handlers) s.pool.guards s.jobs

/-! ### One step -/

/-- What the job makes of its guard, when a pointer to it is gone. -/
def Releases (phase : Phase) (job : Job η ε) (phase' : Phase) : Prop :=
  (job.owned = true ∧ phase' = phase) ∨
    (job.owned = false ∧ (phase = .holding ∨ phase = .refused) ∧ phase' = .destroyed)

theorem Releases.still {phase phase' : Phase} {job : Job η ε} (releases : Releases phase job phase') {p : Prop}
    (blocked : phase = .blocked) (late : phase' = .timedOut) : p := by
  rcases releases with ⟨_, same⟩ | ⟨_, _, gone⟩
  · exact nomatch (same.trans blocked).symm.trans late
  · exact nomatch gone.symm.trans late

/-- How a guard and its job get on. -/
inductive Moves (getName : η → String) (handlers : List η) : Phase → Job η ε → Phase → Job η ε → Prop where
  | acquire {job : Job η ε} : Moves getName handlers .blocked job .acquired job
  | timeout {job : Job η ε} : Moves getName handlers .blocked job .timedOut job
  | construct {phase phase' : Phase} {job : Job η ε} (returned : phase.returned = some phase') :
      Moves getName handlers phase job phase' { job with success := some (phase = .acquired) }
  | create {phase : Phase} {job : Job η ε} {event : ε} {routine : Routine} (admitted : job.success = some true)
      (inside : job.left = false) (uncreated : job.thread = .uncreated) (task : job.task = .event event routine) :
      Moves getName handlers phase job phase { job with thread := .running event (routine.chosen getName handlers) }
  | handle {phase : Phase} {job : Job η ε} {event : ε} {hdlr : η} {rest : List η} (outcome : RcCode × ε)
      (running : job.thread = .running event (hdlr :: rest)) : Moves getName handlers phase job phase
      { job with thread := .running outcome.2 rest, calls := job.calls ++ [⟨hdlr, event, outcome⟩] }
  | finish {phase phase' : Phase} {job : Job η ε} {event : ε} (running : job.thread = .running event [])
      (releases : Releases phase { job with thread := .finished event } phase') :
      Moves getName handlers phase job phase' { job with thread := .finished event }
  | leave {phase phase' : Phase} {job : Job η ε} (inside : job.left = false)
      (done : job.success = some false ∨ job.success = some true ∧ (job.thread.isCreated ∨ job.task.isScope))
      (releases : Releases phase { job with left := true } phase') :
      Moves getName handlers phase job phase' { job with left := true }

/-- The call that the act adds to those of the job, if it adds one. -/
def Adds (act : Act ε) (i : Nat) (job job' : Job η ε) : Prop :=
  job'.calls = job.calls ∨ ∃ call rest, act = .handle i call.outcome ∧
    job.thread = .running call.seen (call.handler :: rest) ∧ job'.calls = job.calls ++ [call]

/-- A guard and its job move, and no other. -/
structure Turns (m : ThreadpoolManager) (getName : η → String) (handlers : List η) (act : Act ε) (s t : State η ε) : Prop where
  moved : ∃ i phase job phase' job', s.pool.guards[i]? = some phase ∧ s.jobs[i]? = some job ∧
    t.pool.guards = s.pool.guards.set i phase' ∧ t.jobs = s.jobs.set i job' ∧
    Moves getName handlers phase job phase' job' ∧ (phase = .blocked → phase' = .timedOut → act = .timeout i) ∧
    Adds act i job job'
  pool : t.pool = s.pool ∨ ∃ act, Threadpool.step m s.pool act = some t.pool

theorem acquire_guards {pool next : Threadpool.State} {i : Nat} (h : Threadpool.step m pool (.acquire i) = some next) :
    pool.guards[i]? = some .blocked ∧ next.guards = pool.guards.set i .acquired := by
  simp only [Threadpool.step] at h
  split at h
  · rename_i able
    obtain rfl := Option.some.inj h
    exact ⟨able.1, rfl⟩
  · cases h

theorem timeout_guards {pool next : Threadpool.State} {i : Nat} (h : Threadpool.step m pool (.timeout i) = some next) :
    pool.guards[i]? = some .blocked ∧ next.guards = pool.guards.set i .timedOut := by
  simp only [Threadpool.step] at h
  split at h
  · rename_i here
    obtain rfl := Option.some.inj h
    exact ⟨here, rfl⟩
  · cases h

theorem decrement_guards {pool next : Threadpool.State} {i : Nat} (h : Threadpool.step m pool (.decrement i) = some next) :
    ∃ phase phase', pool.guards[i]? = some phase ∧ phase.returned = some phase' ∧ next.guards = pool.guards.set i phase' := by
  simp only [Threadpool.step] at h
  split at h
  · rename_i phase' returned
    obtain ⟨phase, here, next⟩ := Option.bind_eq_some_iff.mp returned
    obtain rfl := Option.some.inj h
    exact ⟨phase, phase', here, next, rfl⟩
  · cases h

theorem destroy_guards {pool next : Threadpool.State} {i : Nat} (h : Threadpool.step m pool (.destroy i) = some next) :
    ∃ phase, pool.guards[i]? = some phase ∧ (phase = .holding ∨ phase = .refused) ∧
      next.guards = pool.guards.set i .destroyed := by
  simp only [Threadpool.step] at h
  split at h
  · rename_i here
    obtain rfl := Option.some.inj h
    exact ⟨_, here, Or.inl rfl, rfl⟩
  · rename_i here
    obtain rfl := Option.some.inj h
    exact ⟨_, here, Or.inr rfl, rfl⟩
  · cases h

variable {s t : State η ε}

theorem release_cases {i : Nat} {phase : Phase} {job : Job η ε} (here : s.pool.guards[i]? = some phase)
    (h : s.release m i job = some t) : ∃ phase', Releases phase job phase' ∧
      t.pool.guards = s.pool.guards.set i phase' ∧ t.jobs = s.jobs.set i job ∧
      (t.pool = s.pool ∨ ∃ act, Threadpool.step m s.pool act = some t.pool) := by
  unfold State.release at h
  split at h
  · rename_i owned
    obtain rfl := Option.some.inj h
    refine ⟨phase, Or.inl ⟨owned, rfl⟩, ?_, rfl, Or.inl rfl⟩
    exact (set_self here).symm
  · rename_i gone
    obtain ⟨pool, destroyed, rfl⟩ := Option.map_eq_some_iff.mp h
    obtain ⟨old, found, able, guards⟩ := destroy_guards destroyed
    obtain rfl := Option.some.inj (here.symm.trans found)
    exact ⟨.destroyed, Or.inr ⟨by simpa using gone, able, rfl⟩, guards, rfl, Or.inr ⟨_, destroyed⟩⟩

/-- A call comes, or one guard and its job move. -/
theorem step_cases (inv : Inv m getName handlers s) {act : Act ε} (h : step m getName handlers s act = some t) :
    (∃ task pool, act = .call task ∧ Threadpool.step m s.pool .enter = some pool ∧
      t = ⟨pool, s.jobs ++ [{ task := task }]⟩) ∨
    Turns m getName handlers act s t := by
  have still : ∀ {phase : Phase} {i : Nat}, phase = .blocked → phase = .timedOut → act = .timeout i :=
    fun blocked late => nomatch blocked.symm.trans late
  cases act with
  | call task =>
    simp only [step, Option.map_eq_some_iff] at h
    obtain ⟨pool, entered, rfl⟩ := h
    exact Or.inl ⟨task, pool, rfl, entered, rfl⟩
  | acquire i =>
    simp only [step, Option.map_eq_some_iff] at h
    obtain ⟨pool, acquired, rfl⟩ := h
    obtain ⟨here, guards⟩ := acquire_guards acquired
    obtain ⟨job, found, _⟩ := forall₂_getElem?_left inv.fits here
    exact Or.inr ⟨⟨i, _, job, _, job, here, found, guards, (set_self found).symm, .acquire, nofun, Or.inl rfl⟩,
      Or.inr ⟨_, acquired⟩⟩
  | timeout i =>
    simp only [step, Option.map_eq_some_iff] at h
    obtain ⟨pool, late, rfl⟩ := h
    obtain ⟨here, guards⟩ := timeout_guards late
    obtain ⟨job, found, _⟩ := forall₂_getElem?_left inv.fits here
    exact Or.inr ⟨⟨i, _, job, _, job, here, found, guards, (set_self found).symm, .timeout, fun _ _ => rfl, Or.inl rfl⟩,
      Or.inr ⟨_, late⟩⟩
  | construct i =>
    simp only [step, Option.bind_eq_bind, Option.bind_eq_some_iff] at h
    obtain ⟨job, found, pool, counted, made⟩ := h
    obtain rfl := Option.some.inj made
    obtain ⟨phase, phase', here, returned, guards⟩ := decrement_guards counted
    rw [here]
    simp only [Option.some.injEq]
    refine Or.inr ⟨⟨i, phase, job, phase', _, here, found, guards, rfl, .construct returned, fun blocked => ?_, Or.inl rfl⟩,
      Or.inr ⟨_, counted⟩⟩
    rw [blocked] at returned
    cases returned
  | create i =>
    simp only [step, Option.bind_eq_bind, Option.bind_eq_some_iff] at h
    obtain ⟨job, found, made⟩ := h
    obtain ⟨phase, here, _⟩ := forall₂_getElem? inv.fits found
    split at made
    · rename_i event routine admitted inside uncreated task
      obtain rfl := Option.some.inj made
      exact Or.inr ⟨⟨i, phase, job, phase, _, here, found, (set_self here).symm, rfl, .create admitted inside uncreated task,
        still, Or.inl rfl⟩, Or.inl rfl⟩
    · cases made
  | handle i outcome =>
    simp only [step, Option.bind_eq_bind, Option.bind_eq_some_iff] at h
    obtain ⟨job, found, made⟩ := h
    obtain ⟨phase, here, _⟩ := forall₂_getElem? inv.fits found
    split at made
    · rename_i event hdlr rest running
      obtain rfl := Option.some.inj made
      have adds : Adds (.handle i outcome) i job
          { job with thread := .running outcome.2 rest, calls := job.calls ++ [⟨hdlr, event, outcome⟩] } :=
        Or.inr ⟨⟨hdlr, event, outcome⟩, rest, rfl, running, rfl⟩
      exact Or.inr ⟨⟨i, phase, job, phase, _, here, found, (set_self here).symm, rfl, .handle outcome running, still, adds⟩,
        Or.inl rfl⟩
    · cases made
  | finish i =>
    simp only [step, Option.bind_eq_bind, Option.bind_eq_some_iff] at h
    obtain ⟨job, found, made⟩ := h
    obtain ⟨phase, here, _⟩ := forall₂_getElem? inv.fits found
    split at made
    · rename_i event running
      obtain ⟨phase', releases, guards, jobs, pool⟩ := release_cases here made
      exact Or.inr ⟨⟨i, phase, job, phase', _, here, found, guards, jobs, .finish running releases, releases.still,
        Or.inl rfl⟩, pool⟩
    · cases made
  | leave i =>
    simp only [step, Option.bind_eq_bind, Option.bind_eq_some_iff] at h
    obtain ⟨job, found, made⟩ := h
    obtain ⟨phase, here, _⟩ := forall₂_getElem? inv.fits found
    split at made
    · rename_i able
      obtain ⟨phase', releases, guards, jobs, pool⟩ := release_cases here made
      exact Or.inr ⟨⟨i, phase, job, phase', _, here, found, guards, jobs, .leave able.1 able.2 releases, releases.still,
        Or.inl rfl⟩, pool⟩
    · cases made

/-! ### The invariant -/

theorem Moves.fits {phase phase' : Phase} {job job' : Job η ε} (moves : Moves getName handlers phase job phase' job')
    (fits : Fits getName handlers phase job) : Fits getName handlers phase' job' := by
  cases moves with
  | acquire =>
    cases fits with
    | constructing => exact .constructing rfl
  | timeout =>
    cases fits with
    | constructing => exact .constructing rfl
  | construct returned =>
    cases fits with
    | constructing progress =>
      cases phase with
      | rejecting =>
        obtain rfl := Option.some.inj returned
        exact .refused
      | timedOut =>
        obtain rfl := Option.some.inj returned
        exact .refused
      | acquired =>
        obtain rfl := Option.some.inj returned
        exact .holding rfl rfl rfl
      | _ => cases returned
    | _ => cases returned
  | create admitted inside uncreated task =>
    cases fits with
    | holding _ _ did =>
      refine .holding admitted (by simp [Job.owned, inside]) ?_
      simp only [Job.Did, uncreated] at did
      simp only [Job.Did, task, did]
      exact ⟨rfl, rfl⟩
    | ended _ gone => simp [Job.owned, inside] at gone
    | _ => cases admitted
  | handle outcome running =>
    cases fits with
    | holding admitted _ did =>
      refine .holding admitted (by simp [Job.owned, Thread.isRunning]) ?_
      obtain ⟨first, routine, task, trace, chosen⟩ := (did_running running).mp did
      refine (did_running rfl).mpr ⟨first, routine, task, trace.concat _ outcome, ?_⟩
      rw [List.map_append, List.append_assoc]
      exact chosen
    | ended _ gone => simp [Job.owned, running, Thread.isRunning] at gone
    | _ => cases running
  | finish running releases =>
    cases fits with
    | holding admitted _ did =>
      obtain ⟨first, routine, task, trace, chosen⟩ := (did_running running).mp did
      rw [List.append_nil] at chosen
      have did' : ({ job with thread := .finished _ } : Job η ε).Did getName handlers :=
        (did_finished rfl).mpr ⟨first, routine, task, trace, chosen⟩
      rcases releases with ⟨owned, rfl⟩ | ⟨gone, _, rfl⟩
      · exact .holding admitted owned did'
      · exact .ended admitted gone did' (Or.inl rfl)
    | ended _ gone => simp [Job.owned, running, Thread.isRunning] at gone
    | _ => cases running
  | leave inside done releases =>
    cases fits with
    | constructing => simp at done
    | refused =>
      rcases releases with ⟨owned, _⟩ | ⟨_, _, rfl⟩
      · cases owned
      · exact .dismissed
    | dismissed => cases inside
    | holding admitted _ did =>
      have able : job.thread.isCreated ∨ job.task.isScope := by simpa [admitted] using done
      rcases releases with ⟨owned, rfl⟩ | ⟨gone, _, rfl⟩
      · exact .holding admitted owned did
      · exact .ended admitted gone did able
    | ended _ gone => simp [Job.owned, inside] at gone

theorem step_inv {act : Act ε} (inv : Inv m getName handlers s) (h : step m getName handlers s act = some t) :
    Inv m getName handlers t := by
  rcases step_cases inv h with ⟨task, pool, rfl, entered, rfl⟩ | turns
  · refine ⟨Threadpool.step_inv inv.pool entered, ?_⟩
    obtain rfl := Option.some.inj entered
    refine List.rel_append inv.fits (.cons ?_ .nil)
    split
    · exact .constructing rfl
    · exact .constructing rfl
  · obtain ⟨i, phase, job, phase', job', here, found, guards, jobs, moves, _⟩ := turns.moved
    refine ⟨?_, ?_⟩
    · rcases turns.pool with same | ⟨act, stepped⟩
      · rw [same]
        exact inv.pool
      · exact Threadpool.step_inv inv.pool stepped
    · rw [guards, jobs]
      obtain ⟨old, there, fits⟩ := forall₂_getElem? inv.fits found
      obtain rfl := Option.some.inj (here.symm.trans there)
      exact forall₂_set inv.fits i (moves.fits fits)

theorem reachable_inv (reached : Machine.Reachable (step m getName handlers) (· = start m) s) : Inv m getName handlers s :=
  reached.invariant (fun _ begins => begins ▸ ⟨Threadpool.start_inv m, .nil⟩) fun _ _ _ => step_inv

/-! ### What holds at any time -/

theorem countP_le {α β : Type} {R : α → β → Prop} {p : α → Bool} {q : β → Bool} (implies : ∀ a b, R a b → q b = true → p a = true)
    {as : List α} {bs : List β} (all : List.Forall₂ R as bs) : bs.countP q ≤ as.countP p := by
  induction all with
  | nil => exact Nat.le_refl 0
  | @cons a b as bs head tail ih =>
    rw [List.countP_cons, List.countP_cons]
    cases counted : q b with
    | false => simp; omega
    | true => simp [implies a b head counted]; omega

def Job.isRunning (job : Job η ε) : Bool := job.thread.isRunning

theorem Fits.running {phase : Phase} {job : Job η ε} (fits : Fits getName handlers phase job) (running : job.isRunning = true) :
    phase.isHolder = true := by
  cases fits with
  | holding => rfl
  | ended _ gone => simp [Job.owned, Job.isRunning] at gone running; simp [gone] at running
  | _ => cases running

theorem Fits.gone {phase : Phase} {job : Job η ε} (fits : Fits getName handlers phase job) (gone : job.owned = false) :
    phase = .destroyed := by
  cases fits with
  | constructing => cases gone
  | refused => cases gone
  | dismissed => rfl
  | holding _ owned => simp [owned] at gone
  | ended => rfl

/-- What a job for an event has done. -/
theorem Fits.did {phase : Phase} {job : Job η ε} (fits : Fits getName handlers phase job) :
    job.Did getName handlers ∧ (job.success ≠ some true → job.calls = []) ∧
      (job.success = some true → job.owned = false → job.thread.isCreated = true ∨ job.task.isScope = true) := by
  cases fits with
  | holding admitted owned did => exact ⟨did, fun other => absurd admitted other, fun _ gone => by simp [owned] at gone⟩
  | ended admitted _ did created => exact ⟨did, fun other => absurd admitted other, fun _ _ => created⟩
  | _ => exact ⟨rfl, fun _ => rfl, nofun⟩

theorem Fits.created {phase : Phase} {job : Job η ε} (fits : Fits getName handlers phase job)
    (created : job.thread.isCreated = true) : job.success ≠ none := by
  cases fits with
  | holding admitted => simp [admitted]
  | ended admitted => simp [admitted]
  | _ => cases created

theorem Job.Did.called {job : Job η ε} (did : job.Did getName handlers) {event : ε} {routine : Routine}
    (task : job.task = .event event routine) : job.calls.map (·.handler) <+: routine.chosen getName handlers := by
  cases thread : job.thread with
  | uncreated =>
    have none : job.calls = [] := by simpa [Job.Did, thread] using did
    simp [none]
  | running now remaining =>
    obtain ⟨first, chosen, given, _, all⟩ := (did_running thread).mp did
    obtain ⟨rfl, rfl⟩ := Task.event.inj (task.symm.trans given)
    exact ⟨remaining, all⟩
  | finished last =>
    obtain ⟨first, chosen, given, _, all⟩ := (did_finished thread).mp did
    obtain ⟨rfl, rfl⟩ := Task.event.inj (task.symm.trans given)
    rw [all]

theorem Job.Did.whole {job : Job η ε} (did : job.Did getName handlers) {event last : ε} {routine : Routine}
    (task : job.task = .event event routine) (finished : job.thread = .finished last) :
    routine.run scripted getName handlers event (job.calls.map (·.outcome), []) = ((.succ, last), [], job.calls) := by
  obtain ⟨first, chosen, given, trace, all⟩ := (did_finished finished).mp did
  obtain ⟨rfl, rfl⟩ := Task.event.inj (task.symm.trans given)
  rw [Routine.run_eq, ← all]
  exact runAllHandlers_scripted trace []

/-- When all jobs are over. -/
theorem ended_free {s : State η ε} (inv : Inv m getName handlers s) (gone : ∀ job ∈ s.jobs, job.owned = false) :
    s.pool.free = m.maxRunning ∧ s.pool.waiting = 0 := by
  obtain ⟨⟨slots, counted, _⟩, fits⟩ := inv
  have destroyed : ∀ phase ∈ s.pool.guards, phase = .destroyed := by
    intro phase member
    obtain ⟨i, here⟩ := List.getElem?_of_mem member
    obtain ⟨job, found, own⟩ := forall₂_getElem?_left fits here
    exact own.gone (gone job (List.mem_of_getElem? found))
  have none : ∀ p : Phase → Bool, p .destroyed = false → s.pool.count p = 0 := by
    intro p no
    rw [Threadpool.State.count, List.countP_eq_zero]
    intro phase member
    rw [destroyed phase member, no]
    exact Bool.false_ne_true
  rw [none _ rfl] at slots counted
  exact ⟨slots, counted⟩

end

/-- At any point of any interleaving no more threads handle events than the pool has slots, a job that was refused
has run nothing, and the others the handlers of their routine one after the other. A thread that has finished has
done what the routine does without threads, and when all are over no slot is lost. -/
theorem reachable_threads (m : ThreadpoolManager) (getName : η → String) (handlers : List η) (s : State η ε)
    (reached : Machine.Reachable (step m getName handlers) (· = start m) s) :
    s.jobs.countP Job.isRunning ≤ m.maxRunning ∧
    (∀ job ∈ s.jobs, ∀ event routine, job.task = .event event routine →
      (job.success ≠ some true → job.calls = []) ∧ job.calls.map (·.handler) <+: routine.chosen getName handlers ∧
      (job.success = some true → job.owned = false → ∃ last, job.thread = .finished last) ∧
      ∀ last, job.thread = .finished last →
        routine.run scripted getName handlers event (job.calls.map (·.outcome), []) = ((.succ, last), [], job.calls)) ∧
    ((∀ job ∈ s.jobs, job.owned = false) → s.pool.free = m.maxRunning ∧ s.pool.waiting = 0) := by
  obtain ⟨⟨slots, counted, limited⟩, fits⟩ := reachable_inv reached
  refine ⟨?_, fun job member event routine task => ?_, fun gone => ?_⟩
  · have running := countP_le (fun phase job here => here.running) fits
    have held : s.pool.guards.countP Phase.isHolder ≤ m.maxRunning := by
      rw [← slots]
      exact Nat.le_add_left _ _
    exact running.trans held
  · obtain ⟨i, found⟩ := List.getElem?_of_mem member
    obtain ⟨phase, _, here⟩ := forall₂_getElem? fits found
    obtain ⟨did, refused, created⟩ := here.did
    refine ⟨refused, did.called task, fun admitted gone => ?_, fun last finished => did.whole task finished⟩
    have started := (created admitted gone).resolve_right (by simp [task, Task.isScope])
    cases thread : job.thread with
    | uncreated => simp [thread, Thread.isCreated] at started
    | running now remaining => simp [Job.owned, thread, Thread.isRunning] at gone
    | finished last => exact ⟨last, rfl⟩
  · exact ended_free ⟨⟨slots, counted, limited⟩, fits⟩ gone

/-! ### To the end -/

section
variable {m : ThreadpoolManager} {getName : η → String} {handlers : List η} {s t : State η ε}

/-- What is left to do of a guard and its job. -/
def left (getName : η → String) (handlers : List η) (phase : Phase) (job : Job η ε) : Nat :=
  (match phase with
    | .blocked => 2
    | .acquired | .rejecting | .timedOut => 1
    | _ => 0) +
  (if job.left then 0 else 1) +
  match job.thread, job.task with
  | .uncreated, .event _ routine => (routine.chosen getName handlers).length + 2
  | .running _ remaining, _ => remaining.length + 1
  | _, _ => 0

def toDo (getName : η → String) (handlers : List η) (s : State η ε) : Nat :=
  (List.zipWith (left getName handlers) s.pool.guards s.jobs).sum

/-- The job has a slot, or may get one. -/
def Hopeful (phase : Phase) (job : Job η ε) : Prop := phase = .blocked ∨ phase = .acquired ∨ job.success = some true

theorem sum_zipWith_set {α β : Type} (f : α → β → Nat) {as : List α} {bs : List β} {i : Nat} {a a' : α} {b b' : β}
    (here : as[i]? = some a) (there : bs[i]? = some b) (less : f a' b' < f a b) :
    (List.zipWith f (as.set i a') (bs.set i b')).sum < (List.zipWith f as bs).sum := by
  induction i generalizing as bs with
  | zero =>
    cases as with
    | nil => cases here
    | cons first as =>
      cases bs with
      | nil => cases there
      | cons second bs =>
        obtain rfl := Option.some.inj here
        obtain rfl := Option.some.inj there
        simpa using less
  | succ i ih =>
    cases as with
    | nil => cases here
    | cons first as =>
      cases bs with
      | nil => cases there
      | cons second bs => simpa using ih here there

theorem Releases.rank {phase phase' : Phase} {job : Job η ε} (releases : Releases phase job phase') :
    phase' = phase ∨ phase' = .destroyed := by
  rcases releases with ⟨_, same⟩ | ⟨_, _, gone⟩
  · exact Or.inl same
  · exact Or.inr gone

theorem Moves.less {phase phase' : Phase} {job job' : Job η ε} (moves : Moves getName handlers phase job phase' job') :
    left getName handlers phase' job' < left getName handlers phase job := by
  cases moves with
  | acquire => simp [left]
  | timeout => simp [left]
  | construct returned => cases phase <;> cases returned <;> simp [left]
  | create admitted inside uncreated task => simp [left, uncreated, task]
  | handle outcome running => simp [left, running]
  | finish running releases =>
    rcases releases.rank with rfl | rfl
    · simp [left, running]
    · simp [left, running]
  | leave inside done releases =>
    rcases releases.rank with rfl | rfl
    · simp [left, inside]
    · simp [left, inside]

theorem Moves.task {phase phase' : Phase} {job job' : Job η ε} (moves : Moves getName handlers phase job phase' job') :
    job'.task = job.task := by
  cases moves <;> rfl

theorem Moves.hopeful {phase phase' : Phase} {job job' : Job η ε} (moves : Moves getName handlers phase job phase' job')
    (fits : Fits getName handlers phase job) (inTime : phase = .blocked → phase' ≠ .timedOut) (hopeful : Hopeful phase job) :
    Hopeful phase' job' := by
  have admitted : job.success ≠ none → job.success = some true := by
    intro constructed
    cases fits with
    | constructing => exact absurd rfl constructed
    | refused => simp [Hopeful] at hopeful
    | dismissed => simp [Hopeful] at hopeful
    | holding admitted => exact admitted
    | ended admitted => exact admitted
  cases moves with
  | acquire => exact Or.inr (Or.inl rfl)
  | timeout => exact absurd rfl (inTime rfl)
  | construct returned =>
    cases fits with
    | constructing progress =>
      rcases hopeful with rfl | rfl | success
      · cases returned
      · exact Or.inr (Or.inr rfl)
      · cases success
    | _ => cases returned
  | create success => exact Or.inr (Or.inr success)
  | handle outcome running => exact Or.inr (Or.inr (admitted (fits.created (by simp [running, Thread.isCreated]))))
  | finish running => exact Or.inr (Or.inr (admitted (fits.created (by simp [running, Thread.isCreated]))))
  | leave inside done =>
    refine Or.inr (Or.inr (admitted ?_))
    rcases done with refused | taken
    · rw [refused]
      exact Option.some_ne_none _
    · rw [taken.1]
      exact Option.some_ne_none _

/-- The jobs are those of before, and none has lost its hope. -/
structure Keeps (s t : State η ε) : Prop where
  same : t.jobs.map (·.task) = s.jobs.map (·.task)
  hope : ∀ (i : Nat) (phase : Phase) (job : Job η ε), s.pool.guards[i]? = some phase → s.jobs[i]? = some job →
    Hopeful phase job → ∃ phase' job', t.pool.guards[i]? = some phase' ∧ t.jobs[i]? = some job' ∧ Hopeful phase' job'

theorem Keeps.trans {u : State η ε} (first : Keeps s t) (second : Keeps t u) : Keeps s u := by
  refine ⟨second.same.trans first.same, fun i phase job here found hopeful => ?_⟩
  obtain ⟨phase', job', here', found', hopeful'⟩ := first.hope i phase job here found hopeful
  exact second.hope i phase' job' here' found' hopeful'

/-- A step that is no call and no timeout brings a job nearer to its end. -/
theorem step_advances (inv : Inv m getName handlers s) {act : Act ε} (h : step m getName handlers s act = some t)
    (own : act.isOwn = true) : Keeps s t ∧ toDo getName handlers t < toDo getName handlers s := by
  rcases step_cases inv h with ⟨task, _, call, _⟩ | turns
  · rw [call] at own
    cases own
  · obtain ⟨i, phase, job, phase', job', here, found, guards, jobs, moves, late, _⟩ := turns.moved
    refine ⟨⟨?_, fun j other job₂ there known hopeful => ?_⟩, ?_⟩
    · rw [jobs, List.map_set, moves.task]
      apply set_self
      rw [List.getElem?_map, found]
      rfl
    · rw [guards, jobs]
      by_cases same : i = j
      · subst same
        obtain rfl := Option.some.inj (here.symm.trans there)
        obtain rfl := Option.some.inj (found.symm.trans known)
        obtain ⟨_, there', fits⟩ := forall₂_getElem? inv.fits found
        obtain rfl := Option.some.inj (here.symm.trans there')
        refine ⟨phase', job', ?_, ?_, moves.hopeful fits (fun blocked timedOut => ?_) hopeful⟩
        · exact List.getElem?_set_self (List.getElem?_eq_some_iff.mp here).1
        · exact List.getElem?_set_self (List.getElem?_eq_some_iff.mp found).1
        · rw [late blocked timedOut] at own
          cases own
      · exact ⟨other, job₂, by rw [List.getElem?_set_ne same, there], by rw [List.getElem?_set_ne same, known], hopeful⟩
    · unfold toDo
      rw [guards, jobs]
      exact sum_zipWith_set _ here found moves.less

/-- A handler that the act runs returns what is given for it. -/
def Gives (outcome : η → ε → RcCode × ε) (s : State η ε) (act : Act ε) : Prop :=
  ∀ i given, act = .handle i given → ∀ job event hdlr rest, s.jobs[i]? = some job →
    job.thread = .running event (hdlr :: rest) → given = outcome hdlr event

theorem gives_of_ne {outcome : η → ε → RcCode × ε} {act : Act ε} (other : ∀ i given, act ≠ .handle i given) :
    Gives outcome s act := fun i given same => absurd same (other i given)

/-- What the job has been doing since, with handlers that return what is given for them. -/
def Continues (outcome : η → ε → RcCode × ε) (job job' : Job η ε) : Prop :=
  ∃ made, job'.calls = job.calls ++ made ∧ ∀ call ∈ made, call.outcome = outcome call.handler call.seen

theorem Continues.of_same (outcome : η → ε → RcCode × ε) {job job' : Job η ε} (same : job'.calls = job.calls) :
    Continues outcome job job' := ⟨[], by rw [same, List.append_nil], List.forall_mem_nil _⟩

theorem Continues.trans {outcome : η → ε → RcCode × ε} {job job' job'' : Job η ε} (first : Continues outcome job job')
    (second : Continues outcome job' job'') : Continues outcome job job'' := by
  obtain ⟨made, calls, given⟩ := first
  obtain ⟨more, calls', given'⟩ := second
  exact ⟨made ++ more, by rw [calls', calls, List.append_assoc], List.forall_mem_append.mpr ⟨given, given'⟩⟩

theorem continues_set {outcome : η → ε → RcCode × ε} {jobs : List (Job η ε)} {i j : Nat} {old new job : Job η ε}
    (here : jobs[j]? = some old) (continues : Continues outcome old new) (found : jobs[i]? = some job) :
    ∃ job', (jobs.set j new)[i]? = some job' ∧ Continues outcome job job' := by
  by_cases same : j = i
  · subst same
    obtain rfl := Option.some.inj (here.symm.trans found)
    exact ⟨new, List.getElem?_set_self (List.getElem?_eq_some_iff.mp here).1, continues⟩
  · exact ⟨job, by rw [List.getElem?_set_ne same, found], .of_same outcome rfl⟩

/-- No call is taken back, and one is added where a handler was run. -/
theorem step_continues {outcome : η → ε → RcCode × ε} (inv : Inv m getName handlers s) {act : Act ε}
    (h : step m getName handlers s act = some t) (gives : Gives outcome s act) {i : Nat} {job : Job η ε}
    (found : s.jobs[i]? = some job) : ∃ job', t.jobs[i]? = some job' ∧ Continues outcome job job' := by
  rcases step_cases inv h with ⟨task, pool, rfl, _, rfl⟩ | turns
  · refine ⟨job, ?_, .of_same outcome rfl⟩
    rw [List.getElem?_append_left (List.getElem?_eq_some_iff.mp found).1, found]
  · obtain ⟨j, _, old, _, new, _, here, _, jobs, _, _, adds⟩ := turns.moved
    have continues : Continues outcome old new := by
      rcases adds with same | ⟨call, rest, rfl, running, appended⟩
      · exact .of_same outcome same
      · have given := gives j call.outcome rfl old call.seen call.handler rest here running
        exact ⟨[call], appended, List.forall_mem_singleton.mpr given⟩
    rw [jobs]
    exact continues_set here continues found

theorem exists_release {i : Nat} {phase : Phase} {job : Job η ε} (here : s.pool.guards[i]? = some phase)
    (able : job.owned = true ∨ phase = .holding ∨ phase = .refused) : ∃ t, s.release m i job = some t := by
  unfold State.release
  split
  · exact ⟨_, rfl⟩
  · rename_i gone
    rcases able.resolve_left gone with rfl | rfl
    · simp [Threadpool.step, here]
    · simp [Threadpool.step, here]

/-- A guard that is neither blocked nor gone lets its job go on, whatever its handlers return. -/
theorem exists_step (outcome : η → ε → RcCode × ε) {i : Nat} {phase : Phase} {job : Job η ε}
    (here : s.pool.guards[i]? = some phase) (found : s.jobs[i]? = some job) (fits : Fits getName handlers phase job)
    (free : phase ≠ .blocked) (alive : phase ≠ .destroyed) :
    ∃ act t, act.isOwn = true ∧ Gives outcome s act ∧ step m getName handlers s act = some t := by
  cases fits with
  | @constructing phase task progress =>
    have returns : ∃ phase', phase.returned = some phase' := by
      cases phase with
      | blocked => exact absurd rfl free
      | rejecting => exact ⟨_, rfl⟩
      | timedOut => exact ⟨_, rfl⟩
      | acquired => exact ⟨_, rfl⟩
      | _ => cases progress
    obtain ⟨phase', returned⟩ := returns
    have able : ∃ t, step m getName handlers s (.construct i) = some t := by
      simp [step, found, Threadpool.step, here, returned]
    obtain ⟨t, stepped⟩ := able
    exact ⟨.construct i, t, rfl, gives_of_ne (by simp), stepped⟩
  | @refused task =>
    obtain ⟨t, released⟩ := @exists_release _ _ m s i _ { task := task, success := some false, left := true } here (Or.inr (Or.inr rfl))
    refine ⟨.leave i, t, rfl, gives_of_ne (by simp), ?_⟩
    simp [step, found, released]
  | dismissed => exact absurd rfl alive
  | ended => exact absurd rfl alive
  | holding admitted owned did =>
    have inside : job.thread.isRunning = false → job.left = false := by
      intro still
      simpa [Job.owned, still] using owned
    have leaves : job.left = false → (job.thread.isCreated ∨ job.task.isScope) → ∃ t, step m getName handlers s (.leave i) = some t := by
      intro inside able
      obtain ⟨t, released⟩ := @exists_release _ _ m s i _ { job with left := true } here (Or.inr (Or.inl rfl))
      exact ⟨t, by simpa [step, found, inside, admitted, able] using released⟩
    cases thread : job.thread with
    | uncreated =>
      have inside := inside (by rw [thread]; rfl)
      cases task : job.task with
      | scope =>
        obtain ⟨t, stepped⟩ := leaves inside (Or.inr (by rw [task]; rfl))
        exact ⟨.leave i, t, rfl, gives_of_ne (by simp), stepped⟩
      | event event routine =>
        have able : ∃ t, step m getName handlers s (.create i) = some t := by
          simp [step, found, admitted, inside, thread, task]
        obtain ⟨t, stepped⟩ := able
        exact ⟨.create i, t, rfl, gives_of_ne (by simp), stepped⟩
    | running event remaining =>
      cases remaining with
      | nil =>
        obtain ⟨t, released⟩ := @exists_release _ _ m s i _ { job with thread := .finished event } here (Or.inr (Or.inl rfl))
        refine ⟨.finish i, t, rfl, gives_of_ne (by simp), ?_⟩
        simp [step, found, thread, released]
      | cons hdlr rest =>
        have able : ∃ t, step m getName handlers s (.handle i (outcome hdlr event)) = some t := by
          simp [step, found, thread]
        obtain ⟨t, stepped⟩ := able
        refine ⟨.handle i (outcome hdlr event), t, rfl, ?_, stepped⟩
        intro j given same job' event' hdlr' rest' found' running
        obtain ⟨rfl, rfl⟩ := Act.handle.inj same
        obtain rfl := Option.some.inj (found.symm.trans found')
        obtain ⟨rfl, remaining⟩ := Thread.running.inj (thread.symm.trans running)
        rw [(List.cons.inj remaining).1]
    | finished last =>
      obtain ⟨t, stepped⟩ := leaves (inside (by rw [thread]; rfl)) (Or.inl (by rw [thread]; rfl))
      exact ⟨.leave i, t, rfl, gives_of_ne (by simp), stepped⟩

/-- Where nothing but blocked guards is left, there is a slot for one of them. -/
theorem exists_acquire (runs : 0 < m.maxRunning) (inv : Inv m getName handlers s) {i : Nat}
    (here : s.pool.guards[i]? = some .blocked) (others : ∀ phase ∈ s.pool.guards, phase = .blocked ∨ phase = .destroyed) :
    ∃ t, step m getName handlers s (.acquire i) = some t := by
  have none : s.pool.count Phase.isHolder = 0 := by
    rw [Threadpool.State.count, List.countP_eq_zero]
    intro phase member
    rcases others phase member with rfl | rfl
    · decide
    · decide
  have free : 0 < s.pool.free := by
    have slots := inv.pool.slots
    omega
  simp [step, Threadpool.step, here, free]

theorem exists_progress (runs : 0 < m.maxRunning) (outcome : η → ε → RcCode × ε) (inv : Inv m getName handlers s)
    (going : ¬ ∀ job ∈ s.jobs, job.owned = false) :
    ∃ act t, act.isOwn = true ∧ Gives outcome s act ∧ step m getName handlers s act = some t := by
  by_cases others : ∀ phase ∈ s.pool.guards, phase = .blocked ∨ phase = .destroyed
  · push Not at going
    obtain ⟨job, member, owned⟩ := going
    obtain ⟨i, found⟩ := List.getElem?_of_mem member
    obtain ⟨phase, here, fits⟩ := forall₂_getElem? inv.fits found
    rcases others phase (List.mem_of_getElem? here) with rfl | rfl
    · obtain ⟨t, acquired⟩ := exists_acquire runs inv here others
      exact ⟨.acquire i, t, rfl, gives_of_ne (by simp), acquired⟩
    · cases fits with
      | constructing progress => cases progress
      | dismissed => simp [Job.owned, Thread.isRunning] at owned
      | ended _ gone => exact absurd gone owned
  · push Not at others
    obtain ⟨phase, member, free, alive⟩ := others
    obtain ⟨i, here⟩ := List.getElem?_of_mem member
    obtain ⟨job, found, fits⟩ := forall₂_getElem?_left inv.fits here
    exact exists_step outcome here found fits free alive

end

/-- A job that had a slot, or might get one, and is over. -/
theorem Fits.handled {getName : η → String} {handlers : List η} {phase : Phase} {job : Job η ε}
    (fits : Fits getName handlers phase job) (hopeful : Hopeful phase job) (gone : job.owned = false) :
    job.success = some true ∧
      ∀ event routine, job.task = .event event routine → job.calls.map (·.handler) = routine.chosen getName handlers := by
  obtain rfl := fits.gone gone
  have admitted : job.success = some true := by simpa [Hopeful] using hopeful
  obtain ⟨did, _, created⟩ := fits.did
  refine ⟨admitted, fun event routine task => ?_⟩
  have started := (created admitted gone).resolve_right (by simp [task, Task.isScope])
  cases thread : job.thread with
  | uncreated => simp [thread, Thread.isCreated] at started
  | running now remaining => simp [Job.owned, thread, Thread.isRunning] at gone
  | finished last =>
    obtain ⟨first, chosen, given, _, all⟩ := (did_finished thread).mp did
    obtain ⟨rfl, rfl⟩ := Task.event.inj (task.symm.trans given)
    exact all

/-- From any state that a run can reach the jobs can come to their end by themselves, with no call and no timeout,
whatever their handlers return: those that wait for a slot or have one run all their handlers, and no slot is lost. -/
theorem exists_end (m : ThreadpoolManager) (runs : 0 < m.maxRunning) (getName : η → String) (handlers : List η)
    (outcome : η → ε → RcCode × ε) (s : State η ε) (reached : Machine.Reachable (step m getName handlers) (· = start m) s) :
    ∃ acts t, (∀ act ∈ acts, act.isOwn = true) ∧ Machine.run (step m getName handlers) s acts = some t ∧
      t.jobs.map (·.task) = s.jobs.map (·.task) ∧ (∀ job ∈ t.jobs, job.owned = false) ∧ t.pool.free = m.maxRunning ∧
      (∀ (i : Nat) (phase : Phase) (job : Job η ε), s.pool.guards[i]? = some phase → s.jobs[i]? = some job → Hopeful phase job →
        ∃ job', t.jobs[i]? = some job' ∧ job'.success = some true ∧
          ∀ event routine, job'.task = .event event routine → job'.calls.map (·.handler) = routine.chosen getName handlers) ∧
      ∀ (i : Nat) (job : Job η ε), s.jobs[i]? = some job → ∃ job', t.jobs[i]? = some job' ∧ Continues outcome job job' := by
  let Kept (u : State η ε) : Prop := Inv m getName handlers u ∧ Keeps s u ∧
    ∀ (i : Nat) (job : Job η ε), s.jobs[i]? = some job → ∃ job', u.jobs[i]? = some job' ∧ Continues outcome job job'
  have begins : Kept s := ⟨reachable_inv reached,
    ⟨rfl, fun i phase job here found hopeful => ⟨phase, job, here, found, hopeful⟩⟩,
    fun i job found => ⟨job, found, .of_same outcome rfl⟩⟩
  have progress : ∀ u, Kept u → ¬ (∀ job ∈ u.jobs, job.owned = false) →
      ∃ act t, act.isOwn = true ∧ step m getName handlers u act = some t ∧ Kept t ∧
        toDo getName handlers t < toDo getName handlers u := by
    intro u kept going
    obtain ⟨inv, keeps, continues⟩ := kept
    obtain ⟨act, next, own, gives, stepped⟩ := exists_progress runs outcome inv going
    obtain ⟨later, less⟩ := step_advances inv stepped own
    refine ⟨act, next, own, stepped, ⟨step_inv inv stepped, keeps.trans later, fun i job found => ?_⟩, less⟩
    obtain ⟨job', found', first⟩ := continues i job found
    obtain ⟨job'', found'', second⟩ := step_continues inv stepped gives found'
    exact ⟨job'', found'', first.trans second⟩
  obtain ⟨acts, t, own, path, ⟨inv, keeps, continues⟩, gone⟩ := Machine.exists_run_of_progress _ progress begins
  refine ⟨acts, t, own, path, keeps.same, gone, (ended_free inv gone).1, fun i phase job here found hopeful => ?_, continues⟩
  obtain ⟨phase', job', here', found', hopeful'⟩ := keeps.hope i phase job here found hopeful
  obtain ⟨_, there, fits⟩ := forall₂_getElem? inv.fits found'
  obtain rfl := Option.some.inj (here'.symm.trans there)
  exact ⟨job', found', fits.handled hopeful' (gone job' (List.mem_of_getElem? found'))⟩

/-! ### Two events and one slot -/

/-- The first event has the slot, and the second waits for it. -/
def contended : List (Act Nat) :=
  [.call (.event 1 .all), .acquire 0, .construct 0, .create 0, .call (.event 2 (.single "RootCauseTracer")), .leave 0,
    .handle 0 (.error, 1)]

def registered : List String := ["RootCauseTracer", "MsgComp1", "ClearEvent"]

/-- The thread of the first event is the only one. -/
theorem reachable_threads_contended : ∃ s, Machine.run (step single id registered) (start single) contended = some s ∧
    s.jobs.countP Job.isRunning ≤ single.maxRunning ∧ s.jobs.countP Job.isRunning = 1 := by
  have outcome : (Machine.run (step single id registered) (start single) contended).map
      (fun s => s.jobs.countP Job.isRunning) = some 1 := by decide +kernel
  obtain ⟨s, path, one⟩ := Option.map_eq_some_iff.mp outcome
  exact ⟨s, path, (reachable_threads single id registered s ⟨_, contended, rfl, path⟩).1, one⟩

/-- The handlers that are still to run fail, which keeps no one from the end. -/
theorem exists_end_contended : ∃ s, Machine.run (step single id registered) (start single) contended = some s ∧
    ∃ acts t, Machine.run (step single id registered) s acts = some t ∧ t.pool.free = 1 ∧
      ∃ job, t.jobs[1]? = some job ∧ job.calls.map (·.handler) = ["RootCauseTracer"] ∧
        ∀ call ∈ job.calls, call.outcome = (.error, call.seen + 1) := by
  have outcome : (Machine.run (step single id registered) (start single) contended).map
      (fun s => (s.pool.guards, s.jobs.map (·.task), s.jobs.map (·.calls.length))) =
        some ([.holding, .blocked], [.event 1 .all, .event 2 (.single "RootCauseTracer")], [1, 0]) := by decide +kernel
  obtain ⟨s, path, facts⟩ := Option.map_eq_some_iff.mp outcome
  simp only [Prod.mk.injEq] at facts
  obtain ⟨guards, tasks, calls⟩ := facts
  obtain ⟨acts, t, _, later, same, _, free, handled, continues⟩ :=
    exists_end single (by decide) id registered (fun _ event => (.error, event + 1)) s ⟨_, contended, rfl, path⟩
  have here : s.pool.guards[1]? = some .blocked := by rw [guards]; rfl
  have known : (s.jobs.map (·.task))[1]? = some (.event 2 (.single "RootCauseTracer")) := by rw [tasks]; rfl
  have known' : (t.jobs.map (·.task))[1]? = some (.event 2 (.single "RootCauseTracer")) := same ▸ known
  have none : (s.jobs.map (·.calls.length))[1]? = some 0 := by rw [calls]; rfl
  rw [List.getElem?_map, Option.map_eq_some_iff] at known known' none
  obtain ⟨job, found, _⟩ := known
  obtain ⟨job', found', admitted, all⟩ := handled 1 .blocked job here found (Or.inl rfl)
  obtain ⟨_, again, task⟩ := known'
  obtain rfl := Option.some.inj (found'.symm.trans again)
  obtain ⟨_, before, empty⟩ := none
  obtain rfl := Option.some.inj (found.symm.trans before)
  obtain ⟨_, after, made, appended, given⟩ := continues 1 job found
  obtain rfl := Option.some.inj (found'.symm.trans after)
  rw [List.eq_nil_of_length_eq_zero empty, List.nil_append] at appended
  exact ⟨s, path, acts, t, later, free, job', found', all _ _ task, appended ▸ given⟩

end MonitorEventing.EventThreads
