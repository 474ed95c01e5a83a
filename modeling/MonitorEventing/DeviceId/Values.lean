import MonitorEventing.DeviceId.Domain
import MonitorEventing.DeviceId.Grammar

/-!
# The values of a pattern as text

What a pattern evaluates to, character by character: the texts between the brackets with decimal
numerals in their place. A value never contains a bracket character, and a pattern without brackets
has itself as its only value.
-/

namespace MonitorEventing.DeviceId

namespace DeviceIdPattern

/-- `matches` always returns, and tells whether the string is a value. -/
theorem matchesString_iff (p : DeviceIdPattern) (str : String) :
    ∃ b, p.matchesString str = .ok b ∧ (b = true ↔ ∃ x ∈ p.domain, p.eval x = .ok str) := by
  obtain ⟨text, evaluated⟩ := evaluated_domain p
  obtain ⟨b, result, same⟩ := matchesString_ok str evaluated
  refine ⟨b, result, same.trans ?_⟩
  rw [List.mem_map]
  refine exists_congr fun x => and_congr_right fun member => ?_
  rw [evaluated x member, Except.ok.injEq]

theorem matchArgs_eq (p : DeviceIdPattern) (str : String) :
    p.matchArgs str = .ok (p.domain.filter fun x => p.eval x = .ok str) := by
  obtain ⟨text, evaluated⟩ := evaluated_domain p
  exact matchArgs_ok str evaluated

/-! ### The characters of a value -/

theorem isDigit_of_mem_toString {n : Nat} {c : Char} (member : c ∈ (toString n).toList) : c.isDigit = true := by
  rw [Nat.toString_eq_repr, Nat.toList_repr] at member
  exact Text.isDigit_of_mem_toDigits member

theorem mem_evalFrom {pi : PatternIndex} {brackets : List (Nat × BracketMap × String)} {ss s : String} {c : Char}
    (h : evalFrom pi brackets ss = .ok s) (plain : c.isDigit = false) :
    c ∈ s.toList ↔ c ∈ ss.toList ∨ ∃ b ∈ brackets, c ∈ b.2.2.toList := by
  induction brackets generalizing ss with
  | nil =>
    obtain rfl := Except.ok.inj h
    simp
  | cons b rest ih =>
    obtain ⟨inputPos, mapping, fragment⟩ := b
    obtain ⟨v, _, h⟩ := bind_ok h
    have digits : c ∉ (toString v).toList := fun member => by
      rw [isDigit_of_mem_toString member] at plain
      cases plain
    rw [ih h, String.toList_append, String.toList_append, List.mem_append, List.mem_append]
    simp only [digits, or_false, or_assoc, List.mem_cons, exists_eq_or_imp]

theorem brackets_fragments (p : DeviceIdPattern) :
    p.brackets.map (fun b => b.2.2) = p.patternNonBracketFragments.tail := by
  have fragments := p.consistent.fragments
  have mappings := p.consistent.mappings
  have second : (p.bracketInputMappings.zip p.patternNonBracketFragments.tail).length =
      p.bracketPosToInputPos.length := by
    rw [List.length_zip, List.length_tail]
    omega
  have outer : p.brackets.map (fun b => b.2.2) =
      (p.brackets.map (fun b => b.2)).map (fun b => b.2) := by rw [List.map_map]; rfl
  rw [outer, brackets, List.map_snd_zip second.le, List.map_snd_zip]
  rw [List.length_tail]
  omega

/-- A value has the pattern's own characters and digits, nothing else. -/
theorem mem_eval {p : DeviceIdPattern} {pi : PatternIndex} {s : String} {c : Char} (h : p.eval pi = .ok s)
    (plain : c.isDigit = false) :
    c ∈ s.toList ↔ ∃ f ∈ p.patternNonBracketFragments, c ∈ f.toList := by
  obtain ⟨_, _, h⟩ := bind_ok h
  have nonempty : p.patternNonBracketFragments ≠ [] := by
    intro none
    have := p.consistent.fragments
    rw [none] at this
    cases this
  obtain ⟨first, rest, fragments⟩ := List.exists_cons_of_ne_nil nonempty
  have tail : (∃ b ∈ p.brackets, c ∈ b.2.2.toList) ↔ ∃ f ∈ p.patternNonBracketFragments.tail, c ∈ f.toList := by
    rw [← brackets_fragments p]
    simp only [List.mem_map, exists_exists_and_eq_and]
  rw [mem_evalFrom h plain, tail, fragments]
  simp

theorem mem_interleaved {pieces : List (List Char)} {piece : List Char} :
    piece ∈ pieces ↔ piece ∈ (PatternFields.interleaved pieces).1 ∨ piece ∈ (PatternFields.interleaved pieces).2 := by
  induction pieces using PatternFields.interleaved.induct with
  | case1 => simp [PatternFields.interleaved]
  | case2 text => simp [PatternFields.interleaved]
  | case3 text content rest ih =>
    simp only [PatternFields.interleaved, List.mem_cons, ih]
    tauto

theorem fragments_free {s : String} {p : DeviceIdPattern} (built : ofString s = .ok p) :
    ∀ f ∈ p.patternNonBracketFragments, Text.Free Grammar.isBracket f.toList := by
  obtain ⟨_, _, _, _, fragments, _⟩ := PatternFields.construct_ok_iff.mp (ofString_ok_iff.mp built)
  intro f member
  rw [fragments] at member
  obtain ⟨text, texts, rfl⟩ := List.mem_map.mp member
  rw [String.toList_ofList]
  have sub := mem_interleaved.mpr (Or.inl texts)
  exact Text.free_of_mem_splitOnP sub

theorem eval_free {s : String} {p : DeviceIdPattern} (built : ofString s = .ok p) {pi : PatternIndex} {v : String}
    (h : p.eval pi = .ok v) : Text.Free Grammar.isBracket v.toList := by
  intro c member
  by_contra bracket
  have bracket : Grammar.isBracket c = true := by simpa using bracket
  have plain : c.isDigit = false := by
    simp only [Grammar.isBracket, List.contains_eq_mem, decide_eq_true_eq, List.mem_cons, List.not_mem_nil,
      or_false] at bracket
    rcases bracket with rfl | rfl
    · decide
    · decide
  obtain ⟨f, fragment, inside⟩ := (mem_eval h plain).mp member
  rw [fragments_free built f fragment c inside] at bracket
  cases bracket

theorem mem_value_iff {s : String} {p : DeviceIdPattern} (built : ofString s = .ok p) {pi : PatternIndex}
    {v : String} (h : p.eval pi = .ok v) {c : Char} (digit : c.isDigit = false) (bracket : Grammar.isBracket c = false)
    (mark : c ∉ ['-', ':', '|']) : c ∈ v.toList ↔ c ∈ s.toList := by
  obtain ⟨_, contents⟩ := Grammar.constructor_ok_iff.mp ⟨p, built⟩
  obtain ⟨_, _, _, _, fragments, _⟩ := PatternFields.construct_ok_iff.mp (ofString_ok_iff.mp built)
  have outside : ∀ content ∈ (PatternFields.interleaved (split ['[', ']'] s.toList)).2, c ∉ content := by
    intro content member inside
    rcases (contents content member).uses (fun _ _ number => number.uses) c inside with isDigit | isMark
    · rw [isDigit] at digit
      cases digit
    · exact mark isMark
  rw [mem_eval h digit, Text.mem_iff_mem_splitOnP bracket, fragments]
  constructor
  · intro inFragment
    obtain ⟨_, member, inside⟩ := inFragment
    obtain ⟨text, texts, rfl⟩ := List.mem_map.mp member
    rw [String.toList_ofList] at inside
    exact ⟨text, mem_interleaved.mpr (Or.inl texts), inside⟩
  · intro inPiece
    obtain ⟨piece, member, inside⟩ := inPiece
    rcases mem_interleaved.mp member with texts | content
    · refine ⟨String.ofList piece, List.mem_map_of_mem texts, ?_⟩
      rwa [String.toList_ofList]
    · exact absurd inside (outside piece content)

theorem evalFrom_nonempty {pi : PatternIndex} {brackets : List (Nat × BracketMap × String)} {ss s : String}
    (h : evalFrom pi brackets ss = .ok s) (some : brackets ≠ [] ∨ ss ≠ "") : s ≠ "" := by
  induction brackets generalizing ss with
  | nil =>
    obtain rfl := Except.ok.inj h
    exact some.resolve_left (fun none => none rfl)
  | cons b rest ih =>
    obtain ⟨inputPos, mapping, fragment⟩ := b
    obtain ⟨v, _, h⟩ := bind_ok h
    apply ih h
    right
    intro empty
    have numeral : (toString v).toList = [] := by
      have characters := congrArg String.toList empty
      simp only [String.toList_append, String.toList_empty, List.append_eq_nil_iff] at characters
      exact characters.1.2
    rw [Nat.toString_eq_repr, Nat.toList_repr] at numeral
    exact Nat.toDigits_ne_nil numeral

theorem last_bound {p : DeviceIdPattern} (ranged : 1 ≤ p.dim) : p.IsBound (p.dim - 1) := by
  obtain ⟨j, used, atLeast⟩ := p.consistent.minimal (p.dim - 1) (by unfold dim at *; omega)
  have inside := p.consistent.positions j used
  have same : j = p.dim - 1 := by unfold dim at *; omega
  rw [IsBound, ← same]
  exact used

theorem eval_nonempty {p : DeviceIdPattern} (ranged : 1 ≤ p.dim) {pi : PatternIndex} {v : String}
    (h : p.eval pi = .ok v) : v ≠ "" := by
  obtain ⟨_, _, h⟩ := bind_ok h
  apply evalFrom_nonempty h
  left
  intro none
  have positions : p.bracketPosToInputPos ≠ [] := List.ne_nil_of_mem (last_bound ranged)
  have fragments := congrArg List.length (brackets_fragments p)
  rw [none, List.map_nil, List.length_nil, List.length_tail] at fragments
  have count := p.consistent.fragments
  have positive := List.length_pos_of_ne_nil positions
  omega

/-! ### Patterns without brackets -/

theorem plain_fields {s : String} {p : DeviceIdPattern} (built : ofString s = .ok p)
    (plain : Text.Free Grammar.isBracket s.toList) :
    p.patternNonBracketFragments = [s] ∧ p.bracketPosToInputPos = [] := by
  obtain ⟨parsed, _, read, _, fragments, positions, _⟩ :=
    PatternFields.construct_ok_iff.mp (ofString_ok_iff.mp built)
  have pieces : split ['[', ']'] s.toList = [s.toList] := Text.splitOnP_free plain
  rw [pieces] at read fragments
  simp only [PatternFields.interleaved, List.mapM_nil, pure_ok_iff] at read
  subst read
  refine ⟨?_, positions⟩
  rw [fragments]
  simp [PatternFields.interleaved, String.ofList_toList]

theorem plain_inputs {s : String} {p : DeviceIdPattern} (built : ofString s = .ok p)
    (plain : Text.Free Grammar.isBracket s.toList) : p.patternInputDomains = [] := by
  rw [← List.length_eq_zero_iff]
  by_contra some
  obtain ⟨j, used, _⟩ := p.consistent.minimal 0 (Nat.pos_of_ne_zero some)
  rw [(plain_fields built plain).2] at used
  cases used

theorem plain_value_iff {s : String} {p : DeviceIdPattern} (built : ofString s = .ok p)
    (plain : Text.Free Grammar.isBracket s.toList) (str : String) :
    (∃ x ∈ p.domain, p.eval x = .ok str) ↔ str = s := by
  obtain ⟨fragments, positions⟩ := plain_fields built plain
  have dim := plain_inputs built plain
  have domain : p.domain = [.ofList []] := by
    rw [DeviceIdPattern.domain, dim]
    rfl
  have value : p.eval (.ofList []) = .ok s := by
    have checked : p.checkIsInDomain (.ofList []) = .ok () := by
      rw [checkIsInDomain_ok_iff]
      intro i inside
      rw [DeviceIdPattern.dim, dim] at inside
      exact absurd inside (Nat.not_lt_zero i)
    rw [eval, checked, brackets, positions, fragments]
    rfl
  rw [domain]
  simp [value, eq_comm]

theorem free_of_unranged {s : String} {p : DeviceIdPattern} (built : ofString s = .ok p) (unranged : p.dim = 0) :
    Text.Free Grammar.isBracket s.toList := by
  obtain ⟨parsed, ⟨odd, _⟩, _, _, fragments, _⟩ := PatternFields.construct_ok_iff.mp (ofString_ok_iff.mp built)
  have positions : p.bracketPosToInputPos = [] := by
    apply List.eq_nil_iff_forall_not_mem.mpr
    intro i used
    have inside := p.consistent.positions i used
    exact absurd (unranged ▸ inside : i < 0) (Nat.not_lt_zero i)
  have count := p.consistent.fragments
  have lengths := PatternFields.interleaved_lengths odd
  rw [positions, fragments, List.length_map, List.length_nil] at count
  cases pieces : split ['[', ']'] s.toList with
  | nil => simp [pieces] at odd
  | cons piece rest =>
    cases rest with
    | nil =>
      obtain ⟨rfl, free⟩ := Text.splitOnP_eq_singleton_iff.mp pieces
      exact free
    | cons content rest =>
      rw [← count, pieces] at lengths
      simp [PatternFields.interleaved] at lengths

theorem eval_unranged {s : String} {p : DeviceIdPattern} (built : ofString s = .ok p) (unranged : p.dim = 0)
    {pi : PatternIndex} {v : String} (h : p.eval pi = .ok v) : v = s := by
  obtain ⟨fragments, positions⟩ := plain_fields built (free_of_unranged built unranged)
  obtain ⟨_, _, h⟩ := bind_ok h
  rw [brackets, positions, fragments] at h
  exact (Except.ok.inj h).symm

end DeviceIdPattern

end MonitorEventing.DeviceId
