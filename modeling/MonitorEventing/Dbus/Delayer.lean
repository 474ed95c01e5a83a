import Mathlib

/-!
# Delayed bus calls

Calls that share a delayer keep a distance from each other. The delayer is a state machine with the
time the last call finished, and a guard brings it back to idle on every way out of a call. Time
points count nanoseconds, waiting times milliseconds.
-/

namespace MonitorEventing.Dbus

inductive DelayerState where
  | idle | waiting | calling
  deriving DecidableEq, Repr

/-- `DbusDelayerConstLowerBound`. -/
structure DbusDelayer where
  state : DelayerState := .idle
  waitTimeLowerBound : Int
  lastCallFinish : Int

def nanosPerMilli : Int := 1000000

/-- `duration_cast<milliseconds>`, which truncates. -/
def toMillis (nanos : Int) : Int := nanos.tdiv nanosPerMilli

namespace DbusDelayer

def callStartAttemptImpl (d : DbusDelayer) (now : Int) : Int :=
  max (d.waitTimeLowerBound - toMillis (now - d.lastCallFinish)) 0

def callFinishedImpl (d : DbusDelayer) (now : Int) : DbusDelayer := { d with lastCallFinish := now }

/-- The time to wait. Each of the three ignores a call in the wrong state. -/
def callStartAttempt (d : DbusDelayer) (now : Int) : Int × DbusDelayer :=
  if d.state = .idle then (d.callStartAttemptImpl now, { d with state := .waiting }) else (0, d)

def callStartActual (d : DbusDelayer) : DbusDelayer :=
  if d.state = .waiting then { d with state := .calling } else d

def callFinished (d : DbusDelayer) (now : Int) : DbusDelayer :=
  if d.state = .calling then { d.callFinishedImpl now with state := .idle } else d

/-- The destructor of `DbusDelayerStateGuard`. -/
def closeGuard (d : DbusDelayer) (now : Int) : DbusDelayer :=
  let d := if d.state = .waiting then d.callStartActual else d
  if d.state = .calling then d.callFinished now else d

end DbusDelayer

/-- What happens outside during a call: the readings of the clock by the delayer, when the sleep and
the bus call begin and end, and whether the bus call throws. -/
structure Timing where
  attempt : Int
  wake : Int
  start : Int
  stop : Int
  throws : Bool
  finish : Int
  guard : Int

structure CallResult where
  /-- The time the call slept, `none` for the regular call a delayer in an unexpected state is bypassed with. -/
  delayed : Option Int
  after : DbusDelayer

/-- `DelayedMethod::call`. -/
def call (d : DbusDelayer) (t : Timing) : CallResult :=
  if d.state = .idle then
    let (waitTime, waiting) := d.callStartAttempt t.attempt
    let calling := waiting.callStartActual
    if t.throws then ⟨some waitTime, calling.closeGuard t.guard⟩
    else ⟨some waitTime, (calling.callFinished t.finish).closeGuard t.guard⟩
  else ⟨none, d.closeGuard t.guard⟩

/-- The delayer on entry of each call. -/
def entries : DbusDelayer → List Timing → List (DbusDelayer × Timing)
  | _, [] => []
  | d, t :: rest => (d, t) :: entries (call d t).after rest

/-- The clock does not go back, and the sleep lasts as long as requested. -/
structure Timing.Sound (t : Timing) (d : DbusDelayer) : Prop where
  slept : t.attempt + (d.callStartAttempt t.attempt).1 * nanosPerMilli ≤ t.wake
  woken : t.attempt ≤ t.wake
  started : t.wake ≤ t.start
  stopped : t.start ≤ t.stop
  finished : t.stop ≤ t.finish
  left : t.finish ≤ t.guard

/-- One call after the other, from the given time on. -/
def Follows : DbusDelayer → Int → List Timing → Prop
  | _, _, [] => True
  | d, clock, t :: rest => clock ≤ t.attempt ∧ t.Sound d ∧ Follows (call d t).after t.guard rest

/-! ### One call -/

/-- When the delayer takes the call for finished: behind the bus call, in the guard if it throws. -/
def Timing.recorded (t : Timing) : Int := if t.throws then t.guard else t.finish

theorem call_idle {d : DbusDelayer} (idle : d.state = .idle) (t : Timing) :
    call d t = ⟨some (d.callStartAttemptImpl t.attempt), { d with lastCallFinish := t.recorded }⟩ := by
  obtain ⟨state, bound, last⟩ := d
  obtain rfl : state = .idle := idle
  unfold call Timing.recorded
  cases t.throws with
  | true => rfl
  | false => rfl

/-- The elapsed time is rounded down, so the time to wait is enough. -/
theorem attempt_enough (d : DbusDelayer) {now : Int} (later : d.lastCallFinish ≤ now) :
    d.lastCallFinish + d.waitTimeLowerBound * nanosPerMilli ≤ now + d.callStartAttemptImpl now * nanosPerMilli := by
  have elapsed : toMillis (now - d.lastCallFinish) * nanosPerMilli ≤ now - d.lastCallFinish := by
    rw [toMillis, Int.tdiv_eq_ediv_of_nonneg (by omega)]
    exact Int.ediv_mul_le _ (by decide)
  have bound : d.waitTimeLowerBound - toMillis (now - d.lastCallFinish) ≤ d.callStartAttemptImpl now := le_max_left _ _
  unfold nanosPerMilli at elapsed ⊢
  omega

theorem start_late {d : DbusDelayer} {t : Timing} (idle : d.state = .idle) (sound : t.Sound d)
    (later : d.lastCallFinish ≤ t.attempt) :
    d.lastCallFinish + d.waitTimeLowerBound * nanosPerMilli ≤ t.start := by
  have enough := attempt_enough d later
  have slept := sound.slept
  rw [DbusDelayer.callStartAttempt, if_pos idle] at slept
  dsimp only at slept
  have started := sound.started
  omega

/-! ### All calls -/

theorem follows_spaced {d : DbusDelayer} {clock : Int} {ts : List Timing} (idle : d.state = .idle)
    (later : d.lastCallFinish ≤ clock) (follows : Follows d clock ts) :
    (∀ entry ∈ entries d ts, entry.1.state = .idle ∧ (call entry.1 entry.2).delayed.isSome = true ∧
      (call entry.1 entry.2).after.state = .idle ∧
      entry.1.lastCallFinish + d.waitTimeLowerBound * nanosPerMilli ≤ entry.2.start) ∧
    (∀ first ∈ ts.head?, d.lastCallFinish + d.waitTimeLowerBound * nanosPerMilli ≤ first.start) ∧
    ts.IsChain fun t next => t.stop + d.waitTimeLowerBound * nanosPerMilli ≤ next.start := by
  induction ts generalizing d clock with
  | nil => exact ⟨fun _ member => (List.not_mem_nil member).elim, fun _ member => (Option.not_mem_none _ member).elim, .nil⟩
  | cons t rest ih =>
    obtain ⟨now, sound, follows⟩ := follows
    have result := call_idle idle t
    have late := start_late idle sound (later.trans now)
    have stopped : t.stop ≤ t.recorded ∧ t.recorded ≤ t.guard := by
      have finished := sound.finished
      have left := sound.left
      unfold Timing.recorded
      split <;> omega
    rw [result] at follows
    obtain ⟨others, next, chain⟩ := ih (d := { d with lastCallFinish := t.recorded }) idle stopped.2 follows
    refine ⟨?_, ?_, ?_⟩
    · rw [entries, List.forall_mem_cons, result]
      exact ⟨⟨idle, rfl, idle, late⟩, others⟩
    · intro first same
      obtain rfl := Option.some.inj same
      exact late
    · refine List.isChain_cons.mpr ⟨fun second member => ?_, chain⟩
      have spaced := next second member
      have first := stopped.1
      simp only at spaced
      omega

/-- On entry and on return the delayer is idle, no call bypasses it, and a bus call begins the bound
after the one before ended, the first one the bound after the delayer was made. -/
theorem calls_spaced (waitTimeLowerBound created : Int) (ts : List Timing)
    (follows : Follows { waitTimeLowerBound, lastCallFinish := created } created ts) :
    (∀ entry ∈ entries { waitTimeLowerBound, lastCallFinish := created } ts,
      entry.1.state = .idle ∧ (call entry.1 entry.2).delayed.isSome = true ∧
      (call entry.1 entry.2).after.state = .idle ∧
      entry.1.lastCallFinish + waitTimeLowerBound * nanosPerMilli ≤ entry.2.start) ∧
    (∀ first ∈ ts.head?, created + waitTimeLowerBound * nanosPerMilli ≤ first.start) ∧
    ts.IsChain fun t next => t.stop + waitTimeLowerBound * nanosPerMilli ≤ next.start :=
  follows_spaced rfl le_rfl follows

/-- Two calls five milliseconds apart, the first of which throws. -/
theorem calls_spaced_throwing :
    List.IsChain (fun t next : Timing => t.stop + 5 * nanosPerMilli ≤ next.start)
      [⟨1500000, 5500000, 5500000, 6000000, true, 6000000, 6100000⟩,
        ⟨6200000, 11200000, 11200000, 12000000, false, 12000000, 12000000⟩] := by
  refine (calls_spaced 5 0 _ ?_).2.2
  show _ ∧ _ ∧ _ ∧ _ ∧ True
  refine ⟨by decide, ?_, by decide, ?_, trivial⟩
  · exact ⟨by decide, by decide, by decide, by decide, by decide, by decide⟩
  · exact ⟨by decide, by decide, by decide, by decide, by decide, by decide⟩

end MonitorEventing.Dbus
