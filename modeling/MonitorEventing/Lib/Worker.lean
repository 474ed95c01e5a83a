import MonitorEventing.Lib.Machine
import Mathlib.Data.List.Basic
import Mathlib.Data.List.Infix
import Mathlib.Logic.Function.Basic

/-!
# A bounded queue with a worker

Threads put items into a queue, which refuses them while it is full. A worker takes them out and handles
one at a time, and an item it fails on stops it until it is restarted. What has been accepted is handled in
order, and the data of the worker come from nothing else.
-/

namespace Worker

variable {τ ι ω σ : Type}

/-- An item that was put in, or refused, with the number of items that were waiting. -/
structure Offer (τ ι : Type) where
  thread : τ
  item : ι
  accepted : Bool
  waiting : Nat

/-- The queue, what each thread still has to put in, and the worker; with them, what has happened so far. -/
structure State (τ ι ω σ : Type) where
  pending : τ → List ι
  queue : List ι
  busy : Option ι
  stopped : Bool
  data : σ
  begun : τ → List ι
  offers : List (Offer τ ι)
  handled : List (ι × ω)

inductive Act (τ ι ω : Type) where
  | begin (thread : τ) (items : List ι)
  | push (thread : τ)
  | take
  /-- The worker is done with its item, with what it met outside. -/
  | work (world : ω)
  | restart

def start (data : σ) : State τ ι ω σ :=
  ⟨fun _ => [], [], none, false, data, fun _ => [], [], []⟩

def State.accepted (s : State τ ι ω σ) : List ι := (s.offers.filter (·.accepted)).map (·.item)

def State.offered [DecidableEq τ] (s : State τ ι ω σ) (thread : τ) : List ι :=
  (s.offers.filter (·.thread = thread)).map (·.item)

section
variable [DecidableEq τ] (capacity : Nat) (handle : ω → ι → σ → Bool × σ)

/-- The worker has handled its item. `handle` tells whether it goes on. -/
def State.finish (s : State τ ι ω σ) (item : ι) (world : ω) : State τ ι ω σ :=
  let (goes, data) := handle world item s.data
  { s with busy := none, stopped := !goes, data := data, handled := s.handled ++ [(item, world)] }

def step (s : State τ ι ω σ) : Act τ ι ω → Option (State τ ι ω σ)
  | .begin thread items =>
    if s.pending thread = [] then
      some { s with
        pending := Function.update s.pending thread items
        begun := Function.update s.begun thread (s.begun thread ++ items) }
    else none
  | .push thread =>
    match s.pending thread with
    | [] => none
    | item :: rest =>
      let accepted := decide (s.queue.length < capacity)
      some { s with
        pending := Function.update s.pending thread rest
        queue := if accepted then s.queue ++ [item] else s.queue
        offers := s.offers ++ [⟨thread, item, accepted, s.queue.length⟩] }
  | .take =>
    match s.stopped, s.busy, s.queue with
    | false, none, item :: rest => some { s with queue := rest, busy := some item }
    | _, _, _ => none
  | .work world =>
    match s.busy with
    | none => none
    | some item => some (s.finish handle item world)
  | .restart => if s.stopped then some { s with stopped := false } else none

/-- What a step does. -/
inductive Moves (s : State τ ι ω σ) : Act τ ι ω → State τ ι ω σ → Prop where
  | begins {thread : τ} {items : List ι} (free : s.pending thread = []) : Moves s (.begin thread items) { s with
      pending := Function.update s.pending thread items
      begun := Function.update s.begun thread (s.begun thread ++ items) }
  | pushes {thread : τ} {item : ι} {rest : List ι} {accepted : Bool} (next : s.pending thread = item :: rest)
      (fits : accepted = true ↔ s.queue.length < capacity) : Moves s (.push thread) { s with
      pending := Function.update s.pending thread rest
      queue := if accepted then s.queue ++ [item] else s.queue
      offers := s.offers ++ [⟨thread, item, accepted, s.queue.length⟩] }
  | takes {item : ι} {rest : List ι} (runs : s.stopped = false) (free : s.busy = none) (next : s.queue = item :: rest) :
      Moves s .take { s with queue := rest, busy := some item }
  | works {item : ι} {world : ω} (busy : s.busy = some item) : Moves s (.work world) (s.finish handle item world)
  | restarts (stopped : s.stopped = true) : Moves s .restart { s with stopped := false }

/-- The data after the items were handled one after the other. -/
def replay (data : σ) (handled : List (ι × ω)) : σ :=
  handled.foldl (fun data entry => (handle entry.2 entry.1 data).2) data

/-- What holds at any time after a start with `data`. -/
structure Inv (data : σ) (s : State τ ι ω σ) : Prop where
  produced : ∀ thread, s.begun thread = s.offered thread ++ s.pending thread
  conserved : s.accepted = s.handled.map (·.1) ++ s.busy.toList ++ s.queue
  bounded : s.queue.length ≤ capacity
  /-- An item is refused exactly if the queue is full. -/
  refused : ∀ offer ∈ s.offers, offer.accepted = false ↔ offer.waiting = capacity
  replayed : s.data = replay handle data s.handled
  /-- The worker has stopped with its item. -/
  idle : s.stopped = true → s.busy = none

variable {capacity handle} {data : σ} {s t : State τ ι ω σ}

theorem step_moves {act : Act τ ι ω} (h : step capacity handle s act = some t) : Moves capacity handle s act t := by
  cases act with
  | begin thread items =>
    simp only [step] at h
    split at h
    · rename_i free
      exact Option.some.inj h ▸ .begins free
    · cases h
  | push thread =>
    simp only [step] at h
    split at h
    · cases h
    · rename_i item rest next
      exact Option.some.inj h ▸ .pushes next decide_eq_true_iff
  | take =>
    simp only [step] at h
    split at h
    · rename_i item rest runs free next
      exact Option.some.inj h ▸ .takes runs free next
    · cases h
  | work world =>
    simp only [step] at h
    split at h
    · cases h
    · rename_i item busy
      exact Option.some.inj h ▸ .works busy
  | restart =>
    simp only [step] at h
    split at h
    · rename_i stopped
      exact Option.some.inj h ▸ .restarts stopped
    · cases h

theorem start_inv : Inv capacity handle data (start data : State τ ι ω σ) := by
  exact ⟨fun _ => rfl, rfl, Nat.zero_le _, List.forall_mem_nil _, rfl, fun h => by cases h⟩

theorem begin_inv (inv : Inv capacity handle data s) {thread : τ} {items : List ι} (free : s.pending thread = []) :
    Inv capacity handle data { s with
      pending := Function.update s.pending thread items
      begun := Function.update s.begun thread (s.begun thread ++ items) } := by
  refine ⟨fun other => ?_, inv.conserved, inv.bounded, inv.refused, inv.replayed, inv.idle⟩
  by_cases same : other = thread
  · subst same
    have before := inv.produced other
    rw [free, List.append_nil] at before
    simp only [Function.update_self]
    rw [before]
    rfl
  · simp only [Function.update_of_ne same]
    exact inv.produced other

theorem push_inv (inv : Inv capacity handle data s) {thread : τ} {item : ι} {rest : List ι} {accepted : Bool}
    (next : s.pending thread = item :: rest) (fits : accepted = true ↔ s.queue.length < capacity) :
    Inv capacity handle data { s with
      pending := Function.update s.pending thread rest
      queue := if accepted then s.queue ++ [item] else s.queue
      offers := s.offers ++ [⟨thread, item, accepted, s.queue.length⟩] } := by
  refine ⟨fun other => ?_, ?_, ?_, fun offer listed => ?_, inv.replayed, inv.idle⟩
  · have before := inv.produced other
    simp only [State.offered, List.filter_append, List.map_append, List.filter_singleton]
    by_cases same : other = thread
    · subst same
      simp [before, next, State.offered]
    · simp [before, same, Ne.symm same, State.offered]
  · have before := inv.conserved
    simp only [State.accepted, List.filter_append, List.map_append, List.filter_singleton] at before ⊢
    cases accepted <;> simp [before]
  · show (if accepted = true then s.queue ++ [item] else s.queue).length ≤ capacity
    split
    · rename_i accepts
      rw [List.length_append]
      exact fits.mp accepts
    · exact inv.bounded
  · rcases List.mem_append.mp listed with old | new
    · exact inv.refused offer old
    · obtain rfl := List.mem_singleton.mp new
      have bounded := inv.bounded
      show accepted = false ↔ s.queue.length = capacity
      rw [← Bool.not_eq_true, fits]
      omega

theorem step_inv (inv : Inv capacity handle data s) {act : Act τ ι ω} (h : step capacity handle s act = some t) :
    Inv capacity handle data t := by
  cases step_moves h with
  | begins free => exact begin_inv inv free
  | pushes next fits => exact push_inv inv next fits
  | takes runs free next =>
    refine ⟨inv.produced, ?_, ?_, inv.refused, inv.replayed, fun stopped => ?_⟩
    · have before := inv.conserved
      rw [free, next] at before
      simpa [State.accepted] using before
    · have bounded := inv.bounded
      rw [next, List.length_cons] at bounded
      exact Nat.le_of_succ_le bounded
    · exact absurd (runs.symm.trans stopped) Bool.false_ne_true
  | @works item world busy =>
    refine ⟨inv.produced, ?_, inv.bounded, inv.refused, ?_, fun _ => rfl⟩
    · have before := inv.conserved
      rw [busy] at before
      simpa [State.accepted, State.finish] using before
    · show (handle world item s.data).2 = replay handle data (s.handled ++ [(item, world)])
      rw [replay, List.foldl_append, inv.replayed]
      rfl
  | restarts => exact ⟨inv.produced, inv.conserved, inv.bounded, inv.refused, inv.replayed, fun h => by cases h⟩

/-- Whatever the threads and the worker do, in whatever order. -/
theorem reachable_inv (reached : Machine.Reachable (step capacity handle) (· = start data) s) :
    Inv capacity handle data s :=
  reached.invariant (fun _ started => started ▸ start_inv) fun _ _ _ inv h => step_inv inv h

/-- What an act lets a thread begin with. -/
def Act.produced (thread : τ) : Act τ ι ω → List ι
  | .begin other items => if other = thread then items else []
  | _ => []

theorem step_begun {act : Act τ ι ω} (h : step capacity handle s act = some t) (thread : τ) :
    t.begun thread = s.begun thread ++ act.produced thread := by
  cases step_moves h with
  | @begins other items free =>
    by_cases same : other = thread
    · subst same
      simp [Act.produced]
    · simp [Act.produced, same, Ne.symm same]
  | pushes | takes | works | restarts => exact (List.append_nil _).symm

theorem run_begun {acts : List (Act τ ι ω)} (h : Machine.run (step capacity handle) s acts = some t) (thread : τ) :
    t.begun thread = s.begun thread ++ acts.flatMap (Act.produced thread) := by
  induction acts generalizing s with
  | nil =>
    obtain rfl := Option.some.inj h
    simp
  | cons act rest ih =>
    obtain ⟨next, first, later⟩ := Machine.run_cons_iff.mp h
    rw [ih later, step_begun first, List.append_assoc, List.flatMap_cons]

/-! ### A worker that has not stopped -/

/-- The worker goes on after each of the items. -/
def GoesOn (handle : ω → ι → σ → Bool × σ) : σ → List (ι × ω) → Prop
  | _, [] => True
  | data, (item, world) :: rest =>
    (handle world item data).1 = true ∧ GoesOn handle (handle world item data).2 rest

theorem goesOn_concat {entries : List (ι × ω)} {item : ι} {world : ω} (first : GoesOn handle data entries)
    (last : (handle world item (replay handle data entries)).1 = true) :
    GoesOn handle data (entries ++ [(item, world)]) := by
  induction entries generalizing data with
  | nil => exact ⟨last, trivial⟩
  | cons entry rest ih => exact ⟨first.1, ih first.2 last⟩

/-- Without a restart, a worker that still runs has failed on nothing. -/
theorem run_goesOn {acts : List (Act τ ι ω)} (never : Act.restart ∉ acts) (inv : Inv capacity handle data s)
    (before : s.stopped = false → GoesOn handle data s.handled)
    (h : Machine.run (step capacity handle) s acts = some t) (runs : t.stopped = false) :
    GoesOn handle data t.handled := by
  induction acts generalizing s with
  | nil =>
    obtain rfl := Option.some.inj h
    exact before runs
  | cons act rest ih =>
    obtain ⟨next, first, later⟩ := Machine.run_cons_iff.mp h
    refine ih (fun member => never (List.mem_cons_of_mem _ member)) (step_inv inv first) (fun going => ?_) later
    cases step_moves first with
    | begins | pushes | takes => exact before going
    | works busy =>
      have working : s.stopped = false := by
        by_contra stopped
        rw [inv.idle (eq_true_of_ne_false stopped)] at busy
        cases busy
      apply goesOn_concat (before working)
      rw [← inv.replayed]
      simpa [State.finish] using going
    | restarts => exact absurd List.mem_cons_self never

/-! ### The worker alone -/

def Act.isWorkers : Act τ ι ω → Bool
  | .begin _ _ => false
  | .push _ => false
  | _ => true

/-- What acts of the worker alone lead to, the threads waiting. -/
structure Alone (capacity : Nat) (handle : ω → ι → σ → Bool × σ) (s : State τ ι ω σ) (acts : List (Act τ ι ω))
    (t : State τ ι ω σ) : Prop where
  run : Machine.run (step capacity handle) s acts = some t
  workers : ∀ act ∈ acts, act.isWorkers = true
  offers : t.offers = s.offers
  begun : t.begun = s.begun

theorem Alone.refl (s : State τ ι ω σ) : Alone capacity handle s [] s :=
  ⟨rfl, by simp, rfl, rfl⟩

theorem Alone.trans {first second : List (Act τ ι ω)} {u : State τ ι ω σ} (left : Alone capacity handle s first t)
    (right : Alone capacity handle t second u) : Alone capacity handle s (first ++ second) u where
  run := Machine.run_append_iff.mpr ⟨t, left.run, right.run⟩
  workers act member := (List.mem_append.mp member).elim (left.workers act) (right.workers act)
  offers := right.offers.trans left.offers
  begun := right.begun.trans left.begun

theorem Alone.one {act : Act τ ι ω} (worker : act.isWorkers = true) (h : step capacity handle s act = some t)
    (offers : t.offers = s.offers) (begun : t.begun = s.begun) : Alone capacity handle s [act] t where
  run := by rw [Machine.run, h]; rfl
  workers other member := List.mem_singleton.mp member ▸ worker
  offers := offers
  begun := begun

/-- The worker is ready, with what `s` has in the queue. -/
structure Settles (capacity : Nat) (handle : ω → ι → σ → Bool × σ) (s : State τ ι ω σ) (acts : Nat)
    (t : State τ ι ω σ) : Prop where
  alone : ∃ list, list.length ≤ acts ∧ Alone capacity handle s list t
  queue : t.queue = s.queue
  free : t.busy = none
  runs : t.stopped = false

theorem exists_restart (free : s.busy = none) : ∃ t, Settles capacity handle s 1 t := by
  cases stopped : s.stopped with
  | false => exact ⟨s, ⟨[], by simp, .refl s⟩, rfl, free, stopped⟩
  | true =>
    have h : step capacity handle s .restart = some { s with stopped := false } := if_pos stopped
    exact ⟨_, ⟨[.restart], le_rfl, .one rfl h rfl rfl⟩, rfl, free, rfl⟩

theorem exists_settle (world : ω) : ∃ t, Settles capacity handle s 2 t := by
  cases busy : s.busy with
  | none =>
    obtain ⟨t, settles⟩ : ∃ t, Settles capacity handle s 1 t := exists_restart busy
    obtain ⟨acts, few, alone⟩ := settles.alone
    exact ⟨t, ⟨acts, by omega, alone⟩, settles.queue, settles.free, settles.runs⟩
  | some item =>
    have h : step capacity handle s (.work world) = some (s.finish handle item world) := by
      rw [step, busy]
    obtain ⟨t, settles⟩ : ∃ t, Settles capacity handle (s.finish handle item world) 1 t := exists_restart rfl
    obtain ⟨acts, few, alone⟩ := settles.alone
    refine ⟨t, ⟨_, ?_, (Alone.one rfl h rfl rfl).trans alone⟩, settles.queue, settles.free, settles.runs⟩
    rw [List.length_append, List.length_singleton]
    omega

/-- Left to itself, the worker empties the queue. -/
theorem exists_drain (world : ω) (s : State τ ι ω σ) : ∃ acts t, acts.length ≤ 3 * s.queue.length + 2 ∧
    Alone capacity handle s acts t ∧ t.queue = [] ∧ t.busy = none ∧ t.stopped = false := by
  induction waiting : s.queue generalizing s with
  | nil =>
    obtain ⟨t, settles⟩ : ∃ t, Settles capacity handle s 2 t := exists_settle world
    obtain ⟨acts, few, alone⟩ := settles.alone
    exact ⟨acts, t, by simpa using few, alone, settles.queue.trans waiting, settles.free, settles.runs⟩
  | cons item rest ih =>
    obtain ⟨ready, settles⟩ : ∃ ready, Settles capacity handle s 2 ready := exists_settle world
    obtain ⟨first, few, alone⟩ := settles.alone
    have took : step capacity handle ready .take = some { ready with queue := rest, busy := some item } := by
      rw [step, settles.runs, settles.free, settles.queue, waiting]
    obtain ⟨acts, t, more, later, done⟩ := ih { ready with queue := rest, busy := some item } rfl
    refine ⟨_, t, ?_, alone.trans ((Alone.one rfl took rfl rfl).trans later), done⟩
    simp only [List.length_append, List.length_cons, List.length_nil]
    omega

end

end Worker
