import MonitorEventing.Threadpool.Manager

/-!
# The limit on running and queued threads

The option `-T` promises a limit on the running and the queued threads together. The guard that enters
compares the limit with the acquisitions in progress, and a guard that runs is not in progress any more.
-/

namespace MonitorEventing.Threadpool

/-- The guards that run, and those that were admitted and wait for a slot. -/
def State.total (s : State) : Nat := s.count Phase.isHolder + s.count Phase.isBlocked

theorem put_total {s : State} {guard : Nat} {old : Phase} (here : s.guards[guard]? = some old) (new : Phase)
    (less : new.isHolder.toNat + new.isBlocked.toNat ≤ old.isHolder.toNat + old.isBlocked.toNat) :
    (s.put guard new).total ≤ s.total := by
  have holders := count_put here new Phase.isHolder
  have blocked := count_put here new Phase.isBlocked
  unfold State.total
  omega

theorem enter_total (m : ThreadpoolManager) (s : State) :
    (s.enter (if s.waiting ≥ m.maxTotal then .rejecting else .blocked)).total =
      s.total + if s.waiting < m.maxTotal then 1 else 0 := by
  have holders := count_enter s (if s.waiting ≥ m.maxTotal then .rejecting else .blocked) Phase.isHolder
  have blocked := count_enter s (if s.waiting ≥ m.maxTotal then .rejecting else .blocked) Phase.isBlocked
  unfold State.total
  rw [holders, blocked]
  by_cases full : s.waiting ≥ m.maxTotal
  · rw [if_pos full, if_neg (by omega)]
    rfl
  · rw [if_neg full, if_pos (by omega)]
    show s.count Phase.isHolder + 0 + (s.count Phase.isBlocked + 1) = _
    omega

/-- No step but an admission makes the guards that run or wait more. -/
theorem step_total {m : ThreadpoolManager} {s t : State} {act : Act} (h : step m s act = some t)
    (other : act ≠ .enter) : t.total ≤ s.total := by
  rcases step_cases h with ⟨enters, _⟩ | ⟨guard, old, new, free, waiting, here, moves, _, _, rfl⟩
  · exact absurd enters other
  · refine put_total here new ?_
    cases moves <;> decide

/-- Along a run the limit is kept, exactly if every guard that is admitted finds room below it. -/
theorem run_total_iff (m : ThreadpoolManager) (acts : List Act) :
    (∀ before after s, acts = before ++ after → Machine.run (step m) (start m) before = some s → s.total ≤ m.maxTotal) ↔
      ∀ before after s, acts = before ++ .enter :: after → Machine.run (step m) (start m) before = some s →
        s.waiting < m.maxTotal → s.total < m.maxTotal := by
  refine ⟨fun kept before after s split path admitted => ?_, fun room before => ?_⟩
  · have entered : Machine.run (step m) (start m) (before ++ [.enter]) =
        some (s.enter (if s.waiting ≥ m.maxTotal then .rejecting else .blocked)) :=
      Machine.run_concat_iff.mpr ⟨s, path, rfl⟩
    have within := kept (before ++ [.enter]) after _ (by rw [split]; simp) entered
    rw [enter_total, if_pos admitted] at within
    omega
  · induction before using List.reverseRecOn with
    | nil =>
      intro after s _ path
      rw [← Option.some.inj path]
      exact Nat.zero_le _
    | append_singleton before act ih =>
      intro after t split path
      obtain ⟨s, earlier, last⟩ := Machine.run_concat_iff.mp path
      have within := ih (act :: after) s (by rw [split]; simp) earlier
      cases act with
      | enter =>
        rw [← Option.some.inj last, enter_total]
        split
        · rename_i admitted
          exact room before after s (by rw [split]; simp) earlier admitted
        · exact within
      | _ => exact (step_total last (by simp)).trans within

/-! ### Filling the queue behind a running guard -/

/-- A guard runs, and as many as there are acquisitions in progress wait. -/
def queued (m : ThreadpoolManager) (n : Nat) : State := ⟨m.maxRunning - 1, n, .holding :: List.replicate n .blocked⟩

theorem queued_total (m : ThreadpoolManager) (n : Nat) : (queued m n).total = n + 1 := by
  have holders : (List.replicate n Phase.blocked).countP Phase.isHolder = 0 :=
    List.countP_eq_zero.mpr fun phase member => by rw [List.eq_of_mem_replicate member]; decide
  have blocked : (List.replicate n Phase.blocked).countP Phase.isBlocked = n := by
    rw [List.countP_eq_length.mpr fun phase member => by rw [List.eq_of_mem_replicate member]; rfl,
      List.length_replicate]
  show (Phase.holding :: List.replicate n .blocked).countP Phase.isHolder +
    (Phase.holding :: List.replicate n .blocked).countP Phase.isBlocked = n + 1
  rw [List.countP_cons, List.countP_cons, holders, blocked]
  show 0 + 1 + (n + 0) = n + 1
  omega

theorem queued_reachable {m : ThreadpoolManager} (runs : 0 < m.maxRunning) {n : Nat} (room : n ≤ m.maxTotal) :
    Machine.Reachable (step m) (· = start m) (queued m n) := by
  induction n with
  | zero =>
    have positive : m.maxTotal ≠ 0 := (runs.trans_le m.ordered).ne'
    refine ⟨start m, [.enter, .acquire 0, .decrement 0], rfl, ?_⟩
    simp [Machine.run, step, start, State.enter, State.put, positive, runs, Phase.returned, queued]
  | succ n ih =>
    obtain ⟨first, acts, started, path⟩ := ih (by omega)
    refine ⟨first, acts ++ [.enter], started, Machine.run_concat_iff.mpr ⟨_, path, ?_⟩⟩
    have admitted : ¬ (n : Int) ≥ m.maxTotal := by omega
    simp [step, queued, State.enter, admitted, List.replicate_succ']

/-- At any point of any interleaving, the running and the queued guards are at most both limits together. -/
theorem total_le (m : ThreadpoolManager) (s : State) (reached : Machine.Reachable (step m) (· = start m) s) :
    s.total ≤ m.maxRunning + m.maxTotal := by
  obtain ⟨slots, _, limited⟩ := reachable_inv reached
  have queue := blocked_le_admitted s
  unfold State.total
  omega

/-- Along any interleaving the running and the queued guards stay within the total limit, exactly if every
guard that is admitted finds room below it. That is so in all of them only where no guard ever runs. -/
theorem total_limit_iff (m : ThreadpoolManager) :
    (∀ acts : List Act,
      (∀ before after s, acts = before ++ after → Machine.run (step m) (start m) before = some s →
        s.count Phase.isHolder + s.count Phase.isBlocked ≤ m.maxTotal) ↔
      ∀ before after s, acts = before ++ .enter :: after → Machine.run (step m) (start m) before = some s →
        s.waiting < m.maxTotal → s.count Phase.isHolder + s.count Phase.isBlocked < m.maxTotal) ∧
    ((∀ s, Machine.Reachable (step m) (· = start m) s →
      s.count Phase.isHolder + s.count Phase.isBlocked ≤ m.maxTotal) ↔ m.maxRunning = 0) := by
  refine ⟨run_total_iff m, fun kept => ?_, fun never s reached => ?_⟩
  · by_contra runs
    have within := kept _ (queued_reachable (Nat.pos_of_ne_zero runs) le_rfl)
    have total := queued_total m m.maxTotal
    unfold State.total at total
    omega
  · obtain ⟨slots, _, limited⟩ := reachable_inv reached
    have queue := blocked_le_admitted s
    omega

/-- `DEFAULT_RUNNING_THREAD_LIMIT` and `DEFAULT_TOTAL_THREAD_LIMIT`. -/
def defaults : ThreadpoolManager := ⟨3, 4, by decide, by decide⟩

/-- With the default limits three guards run while four wait. -/
theorem total_limit_exceeded : ∃ s, Machine.Reachable (step defaults) (· = start defaults) s ∧
    s.count Phase.isHolder = 3 ∧ s.count Phase.isBlocked = 4 ∧ defaults.maxTotal = 4 := by
  refine ⟨⟨0, 4, [.holding, .holding, .holding, .blocked, .blocked, .blocked, .blocked]⟩,
    ⟨start defaults, [.enter, .enter, .enter, .acquire 0, .acquire 1, .acquire 2, .decrement 0, .decrement 1, .decrement 2,
      .enter, .enter, .enter, .enter], rfl, rfl⟩, rfl, rfl, rfl⟩

end MonitorEventing.Threadpool
