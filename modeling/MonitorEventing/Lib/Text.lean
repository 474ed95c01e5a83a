import Mathlib

/-!
# Splitting text and decimal numerals

How a text is cut at separator characters, read backwards: which texts have a given list of
pieces; which run of characters a text starts with; and which characters a printed number consists of.
-/

namespace Text

/-! ### Splitting -/

/-- No character of the piece is a separator. -/
def Free {α : Type} (p : α → Bool) (piece : List α) : Prop := ∀ c ∈ piece, p c = false

theorem splitOnP_free {α : Type} {p : α → Bool} {text : List α} (free : Free p text) :
    text.splitOnP p = [text] :=
  List.splitOnP_eq_singleton free

theorem splitOnP_append_cons {α : Type} {p : α → Bool} {piece : List α} {c : α} (rest : List α)
    (free : Free p piece) (separator : p c = true) :
    (piece ++ c :: rest).splitOnP p = piece :: rest.splitOnP p :=
  List.splitOnP_append_cons_of_forall_mem free c separator rest

theorem splitOnP_eq_cons_iff {α : Type} {p : α → Bool} {text piece : List α} {pieces : List (List α)} :
    text.splitOnP p = piece :: pieces ↔ Free p piece ∧
      ((pieces = [] ∧ text = piece) ∨
        ∃ c rest, p c = true ∧ text = piece ++ c :: rest ∧ rest.splitOnP p = pieces) := by
  constructor
  · intro h
    rcases Classical.em (Free p text) with free | cut
    · rw [splitOnP_free free, List.cons.injEq] at h
      obtain ⟨rfl, rfl⟩ := h
      exact ⟨free, Or.inl ⟨rfl, rfl⟩⟩
    · -- cut at the first separator: what precedes it is free
      simp only [Free, not_forall] at cut
      obtain ⟨d, member, separator⟩ := cut
      have found : ∃ d ∈ text, p d = true := ⟨d, member, by simpa using separator⟩
      obtain ⟨c, isSep⟩ := Option.isSome_iff_exists.mp (List.find?_isSome.mpr found)
      obtain ⟨separator, before, rest, rfl, free⟩ := List.find?_eq_some_iff_append.mp isSep
      have free : Free p before := fun e he => by simpa using free e he
      rw [splitOnP_append_cons _ free separator, List.cons.injEq] at h
      obtain ⟨rfl, rfl⟩ := h
      exact ⟨free, Or.inr ⟨c, rest, separator, rfl, rfl⟩⟩
  · rintro ⟨free, ⟨rfl, rfl⟩ | ⟨c, rest, separator, rfl, rfl⟩⟩
    · exact splitOnP_free free
    · exact splitOnP_append_cons rest free separator

theorem splitOnP_eq_singleton_iff {α : Type} {p : α → Bool} {text piece : List α} :
    text.splitOnP p = [piece] ↔ text = piece ∧ Free p piece := by
  rw [splitOnP_eq_cons_iff]
  constructor
  · rintro ⟨free, ⟨_, same⟩ | ⟨_, rest, _, _, none⟩⟩
    · exact ⟨same, free⟩
    · exact absurd none (List.splitOnP_ne_nil p rest)
  · rintro ⟨same, free⟩
    exact ⟨free, Or.inl ⟨rfl, same⟩⟩

theorem splitOnP_eq_pair_iff {α : Type} {p : α → Bool} {text left right : List α} :
    text.splitOnP p = [left, right] ↔
      ∃ c, p c = true ∧ text = left ++ c :: right ∧ Free p left ∧ Free p right := by
  rw [splitOnP_eq_cons_iff]
  constructor
  · rintro ⟨free, ⟨none, _⟩ | ⟨c, rest, separator, same, tail⟩⟩
    · cases none
    · obtain ⟨rfl, freeRight⟩ := splitOnP_eq_singleton_iff.mp tail
      exact ⟨c, separator, same, free, freeRight⟩
  · rintro ⟨c, separator, same, free, freeRight⟩
    exact ⟨free, Or.inr ⟨c, right, separator, same, splitOnP_free freeRight⟩⟩

theorem free_of_mem_splitOnP {α : Type} {p : α → Bool} {text piece : List α} (member : piece ∈ text.splitOnP p) :
    Free p piece := by
  generalize pieced : text.splitOnP p = pieces at member
  induction pieces generalizing text with
  | nil => cases member
  | cons first rest ih =>
    obtain ⟨free, ⟨rfl, _⟩ | ⟨_, tail, _, _, later⟩⟩ := splitOnP_eq_cons_iff.mp pieced
    · obtain rfl := List.mem_singleton.mp member
      exact free
    · rcases List.mem_cons.mp member with rfl | member
      · exact free
      · exact ih later member

theorem mem_iff_mem_splitOnP {α : Type} {p : α → Bool} {text : List α} {c : α} (plain : p c = false) :
    c ∈ text ↔ ∃ piece ∈ text.splitOnP p, c ∈ piece := by
  generalize pieced : text.splitOnP p = pieces
  induction pieces generalizing text with
  | nil => exact absurd pieced (List.splitOnP_ne_nil p text)
  | cons first rest ih =>
    rw [List.exists_mem_cons_iff]
    obtain ⟨_, ⟨rfl, rfl⟩ | ⟨d, tail, separator, rfl, later⟩⟩ := splitOnP_eq_cons_iff.mp pieced
    · simp
    · have other : c ≠ d := by
        intro same
        rw [same, separator] at plain
        cases plain
      rw [List.mem_append, List.mem_cons, ← ih later, or_iff_right other]

/-- What stands before the first `c` and what comes after it. -/
def cutAt {α : Type} [DecidableEq α] (c : α) : List α → Option (List α × List α)
  | [] => none
  | d :: text => if d = c then some ([], text) else (cutAt c text).map fun cut => (d :: cut.1, cut.2)

theorem cutAt_eq_some_iff {α : Type} [DecidableEq α] {c : α} {text before after : List α} :
    cutAt c text = some (before, after) ↔ text = before ++ c :: after ∧ c ∉ before := by
  induction text generalizing before with
  | nil => simp [cutAt]
  | cons d text ih =>
    rw [cutAt]
    by_cases here : d = c
    · rw [if_pos here, here, Option.some.injEq, Prod.mk.injEq]
      cases before with
      | nil => simp [eq_comm]
      | cons e before =>
        refine iff_of_false (by simp) fun both => both.2 ?_
        rw [(List.cons.inj both.1).1]
        exact List.mem_cons_self
    · rw [if_neg here, Option.map_eq_some_iff]
      constructor
      · intro found
        obtain ⟨⟨before', after'⟩, cut, same⟩ := found
        obtain ⟨rfl, rfl⟩ := Prod.mk.inj same
        obtain ⟨rfl, free⟩ := ih.mp cut
        exact ⟨rfl, fun member => (List.mem_cons.mp member).elim (fun same => here same.symm) free⟩
      · intro both
        cases before with
        | nil => exact absurd (List.cons.inj both.1).1 here
        | cons e before =>
          obtain ⟨rfl, rest⟩ := List.cons.inj both.1
          exact ⟨(before, after), ih.mpr ⟨rest, fun member => both.2 (List.mem_cons_of_mem _ member)⟩, rfl⟩

/-! ### Runs of characters -/

/-- The text starts with a run of characters that ends where it has to. -/
structure Starts {α : Type} (p : α → Bool) (text run rest : List α) : Prop where
  whole : text = run ++ rest
  inside : ∀ c ∈ run, p c = true
  stops : ∀ c ∈ rest.head?, p c = false

theorem starts_iff {α : Type} {p : α → Bool} {text run rest : List α} :
    Starts p text run rest ↔ run = text.takeWhile p ∧ rest = text.dropWhile p := by
  constructor
  · intro starts
    obtain ⟨rfl, inside, stops⟩ := starts
    rw [List.takeWhile_append_of_pos inside, List.dropWhile_append_of_pos inside]
    cases rest with
    | nil => simp
    | cons c rest => simp [stops c rfl]
  · rintro ⟨rfl, rfl⟩
    refine ⟨List.takeWhile_append_dropWhile.symm, fun c member => List.mem_takeWhile_imp member, ?_⟩
    intro c first
    have stopped := List.head?_dropWhile_not p text
    rw [Option.mem_def.mp first] at stopped
    simpa using stopped

theorem starts_of_all {α : Type} {p : α → Bool} {text : List α} (inside : ∀ c ∈ text, p c = true) :
    Starts p text text [] :=
  ⟨(List.append_nil text).symm, inside, nofun⟩

/-! ### Substrings -/

/-- The needle occurs somewhere in the text. -/
def occursIn {α : Type} [BEq α] (needle : List α) : List α → Bool
  | [] => needle.isEmpty
  | c :: text => needle.isPrefixOf (c :: text) || occursIn needle text

theorem occursIn_iff {α : Type} [BEq α] [LawfulBEq α] {needle text : List α} :
    occursIn needle text = true ↔ needle <:+: text := by
  induction text with
  | nil => simp [occursIn]
  | cons c text ih =>
    rw [occursIn, Bool.or_eq_true, List.isPrefixOf_iff_prefix, ih, List.infix_cons_iff]

/-! ### Numerals -/

theorem isDigit_of_mem_toDigits {n : Nat} {c : Char} (member : c ∈ Nat.toDigits 10 n) : c.isDigit = true :=
  Nat.isDigit_of_mem_toDigits (by decide) (by decide) member

end Text
