import Mathlib.Data.List.Basic

/-!
# Machines

A machine takes inputs one at a time, each of which its state may refuse. What every accepted input
preserves holds along every run, and so in every state that a start can reach.
-/

namespace Machine

variable {σ ι : Type} {step : σ → ι → Option σ}

def run (step : σ → ι → Option σ) : σ → List ι → Option σ
  | s, [] => some s
  | s, input :: rest => (step s input).bind fun next => run step next rest

/-- A state some start leads to. -/
def Reachable (step : σ → ι → Option σ) (start : σ → Prop) (s : σ) : Prop :=
  ∃ first inputs, start first ∧ run step first inputs = some s

theorem run_cons_iff {s t : σ} {input : ι} {rest : List ι} :
    run step s (input :: rest) = some t ↔ ∃ next, step s input = some next ∧ run step next rest = some t :=
  Option.bind_eq_some_iff

/-- Inputs that stand for inputs of another machine. -/
theorem run_map {κ : Type} (f : κ → ι) (s : σ) (inputs : List κ) :
    run (fun s input => step s (f input)) s inputs = run step s (inputs.map f) := by
  induction inputs generalizing s with
  | nil => rfl
  | cons input rest ih => simp only [List.map_cons, run, ih]

theorem run_append_iff {s t : σ} {first second : List ι} :
    run step s (first ++ second) = some t ↔ ∃ middle, run step s first = some middle ∧ run step middle second = some t := by
  induction first generalizing s with
  | nil => simp [run]
  | cons input rest ih =>
    simp only [List.cons_append, run_cons_iff, ih]
    tauto

theorem run_concat_iff {s t : σ} {first : List ι} {input : ι} :
    run step s (first ++ [input]) = some t ↔ ∃ middle, run step s first = some middle ∧ step middle input = some t := by
  simp [run_append_iff, run]

theorem run_invariant {inv : σ → Prop} (keeps : ∀ s input t, inv s → step s input = some t → inv t) {s t : σ}
    {inputs : List ι} (holds : inv s) (h : run step s inputs = some t) : inv t := by
  induction inputs generalizing s with
  | nil => exact Option.some.inj h ▸ holds
  | cons input rest ih =>
    obtain ⟨next, first, later⟩ := run_cons_iff.mp h
    exact ih (keeps s input next holds first) later

theorem Reachable.invariant {start inv : σ → Prop} (begins : ∀ s, start s → inv s)
    (keeps : ∀ s input t, inv s → step s input = some t → inv t) {s : σ} (h : Reachable step start s) : inv s := by
  obtain ⟨first, inputs, started, path⟩ := h
  exact run_invariant keeps (begins first started) path

/-- Inputs that bring a machine to an end, where one of those allowed always brings it nearer. -/
theorem exists_run_of_progress {inv final : σ → Prop} {allowed : ι → Prop} (measure : σ → Nat)
    (progress : ∀ s, inv s → ¬ final s → ∃ input t, allowed input ∧ step s input = some t ∧ inv t ∧ measure t < measure s)
    {s : σ} (holds : inv s) : ∃ inputs t, (∀ input ∈ inputs, allowed input) ∧ run step s inputs = some t ∧ inv t ∧ final t := by
  induction size : measure s using Nat.strongRecOn generalizing s with
  | ind n ih =>
    by_cases ended : final s
    · exact ⟨[], s, nofun, rfl, holds, ended⟩
    · obtain ⟨input, next, fine, first, kept, less⟩ := progress s holds ended
      obtain ⟨inputs, t, others, later, done⟩ := ih (measure next) (size ▸ less) kept rfl
      exact ⟨input :: inputs, t, List.forall_mem_cons.mpr ⟨fine, others⟩, run_cons_iff.mpr ⟨next, first, later⟩, done⟩

end Machine
