import Mathlib

/-!
# Rows of a regular expression

A regular expression without alternatives is a row of single characters and of stars. A backtracking
matcher goes through the row: a star first takes all it can, and gives characters back until the rest of the
row matches. One part of the row is its group.
-/

namespace Regex

/-- A character of a class, or any number of them. -/
inductive Item (α : Type) where
  | one (p : α → Bool)
  | star (p : α → Bool)

structure Row (α : Type) where
  before : List (Item α)
  group : List (Item α)
  after : List (Item α)

/-- What the whole row matched, and what its group matched. -/
structure Found (α : Type) where
  whole : List α
  group : List α

section
variable {α β : Type}

/-- As many characters as there are, then what comes next. -/
def starThen (p : α → Bool) (next : List α → Option β) : List α → Option β
  | [] => next []
  | c :: text => if p c then (starThen p next text).or (next (c :: text)) else next (c :: text)

def matchThen : List (Item α) → (List α → Option β) → List α → Option β
  | [], next, text => next text
  | .one _ :: _, _, [] => none
  | .one p :: items, next, c :: text => if p c then matchThen items next text else none
  | .star p :: items, next, text => starThen p (matchThen items next) text

/-- The row matched from the start of the text. -/
def Row.matchAt (row : Row α) (text : List α) : Option (Found α) :=
  matchThen row.before (fun start => matchThen row.group (fun stop => matchThen row.after (fun rest =>
    some ⟨text.take (text.length - rest.length), start.take (start.length - stop.length)⟩) stop) start) text

/-- The row matched from the first place it can be. -/
def Row.search (row : Row α) : List α → Option (Found α)
  | [] => row.matchAt []
  | c :: text => (row.matchAt (c :: text)).or (row.search text)

/-! ### What is matched -/

theorem starThen_sound {p : α → Bool} {next : List α → Option β} {text : List α} {b : β}
    (h : starThen p next text = some b) :
    ∃ run rest, text = run ++ rest ∧ (∀ c ∈ run, p c = true) ∧ next rest = some b := by
  induction text with
  | nil => exact ⟨[], [], rfl, nofun, h⟩
  | cons c text ih =>
    rw [starThen] at h
    by_cases inside : p c = true
    · rw [if_pos inside, Option.or_eq_some_iff] at h
      rcases h with more | ⟨_, here⟩
      · obtain ⟨run, rest, rfl, all, found⟩ := ih more
        exact ⟨c :: run, rest, rfl, List.forall_mem_cons.mpr ⟨inside, all⟩, found⟩
      · exact ⟨[], c :: text, rfl, nofun, here⟩
    · rw [if_neg inside] at h
      exact ⟨[], c :: text, rfl, nofun, h⟩

theorem take_matched (word rest : List α) : (word ++ rest).take ((word ++ rest).length - rest.length) = word := by
  rw [List.length_append, Nat.add_sub_cancel, List.take_left]

theorem Row.search_here {row : Row α} {text : List α} {found : Found α} (here : row.matchAt text = some found) :
    row.search text = some found := by
  cases text with
  | nil => exact here
  | cons c text => rw [search, here, Option.some_or]

/-! ### What a star takes -/

theorem starThen_run {p : α → Bool} {next : List α → Option β} {run rest : List α} {b : β}
    (inside : ∀ c ∈ run, p c = true) (found : starThen p next rest = some b) :
    starThen p next (run ++ rest) = some b := by
  induction run with
  | nil => exact found
  | cons c run ih =>
    obtain ⟨here, all⟩ := List.forall_mem_cons.mp inside
    rw [List.cons_append, starThen, if_pos here, ih all, Option.some_or]

/-- It takes all the characters of its class where the rest of the row matches behind them. -/
theorem starThen_greedy {p : α → Bool} {next : List α → Option β} {run rest : List α} {b : β}
    (inside : ∀ c ∈ run, p c = true) (stops : ∀ c ∈ rest.head?, p c = false) (found : next rest = some b) :
    starThen p next (run ++ rest) = some b := by
  apply starThen_run inside
  cases rest with
  | nil => exact found
  | cons c rest => rw [starThen, stops c rfl, if_neg Bool.false_ne_true, found]

theorem starThen_total {p : α → Bool} {next : List α → Option β} (total : ∀ rest, (next rest).isSome = true)
    (text : List α) : (starThen p next text).isSome = true := by
  induction text with
  | nil => exact total []
  | cons c text ih =>
    rw [starThen]
    split
    · rw [Option.isSome_or, ih, Bool.true_or]
    · exact total (c :: text)

theorem starThen_none {p : α → Bool} {next : List α → Option β} {text : List α}
    (nowhere : ∀ rest, rest <:+ text → next rest = none) : starThen p next text = none := by
  induction text with
  | nil => exact nowhere [] List.suffix_rfl
  | cons c text ih =>
    have later := ih fun rest suffix => nowhere rest (suffix.trans (List.suffix_cons c text))
    rw [starThen, later, nowhere _ List.suffix_rfl]
    exact ite_self none

/-- It gives back up to the last place behind which the rest of the row matches. -/
theorem starThen_last {p : α → Bool} {next : List α → Option β} {run rest : List α} {b : β}
    (inside : ∀ c ∈ run, p c = true) (found : next rest = some b)
    (nowhere : ∀ later, later <:+ rest.tail → next later = none) : starThen p next (run ++ rest) = some b := by
  apply starThen_run inside
  cases rest with
  | nil => exact found
  | cons c rest =>
    rw [List.tail_cons] at nowhere
    rw [starThen, starThen_none nowhere, Option.none_or, found]
    exact ite_self (some b)

end

end Regex
