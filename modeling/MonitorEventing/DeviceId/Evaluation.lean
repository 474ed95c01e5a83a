import MonitorEventing.DeviceId.Values

/-!
# What a pattern evaluates to

Evaluation at any index tuple, in or out of the domain: when it throws and what, and the text it gives
as an interleaving of the pattern's texts with numerals. Only the bound positions of the tuple matter.
-/

namespace MonitorEventing.DeviceId

def interleave : List String → List String → String
  | fragment :: fragments, numeral :: numerals => fragment ++ numeral ++ interleave fragments numerals
  | fragments, _ => String.join fragments

theorem interleave_append (first fragment : String) (fragments numerals : List String) :
    interleave ((first ++ fragment) :: fragments) numerals = first ++ interleave (fragment :: fragments) numerals := by
  cases numerals with
  | nil => simp [interleave, String.append_assoc]
  | cons numeral numerals => simp [interleave, String.append_assoc]

namespace DeviceIdPattern

theorem accepts_iff {p : DeviceIdPattern} {pi : PatternIndex} :
    p.Accepts pi ↔ ∀ i < p.dim, p.IsBound i → ∃ n ∈ (p.dimDomain i).domain, pi.get i = n := by
  refine forall₂_congr fun i inside => ?_
  rw [PatternInputDomain.contains, Bool.or_eq_true, unspecified_iff inside, or_iff_not_imp_left, not_not]
  refine imp_congr_right fun _ => ?_
  rw [Bool.and_eq_true, decide_eq_true_eq, List.contains_iff_mem]
  constructor
  · intro inDomain
    exact ⟨_, inDomain.2, (Int.toNat_of_nonneg inDomain.1).symm⟩
  · intro element
    obtain ⟨n, member, same⟩ := element
    rw [same, Int.toNat_natCast]
    exact ⟨Int.natCast_nonneg n, member⟩

theorem Accepts.congr {p : DeviceIdPattern} {pi pi' : PatternIndex} (accepted : p.Accepts pi)
    (same : ∀ i, p.IsBound i → pi'.get i = pi.get i) : p.Accepts pi' := by
  rw [accepts_iff] at accepted ⊢
  intro i inside bound
  rw [same i bound]
  exact accepted i inside bound

theorem checkIsInDomain_error {p : DeviceIdPattern} {pi : PatternIndex} (outside : ¬ p.Accepts pi) :
    ∃ what, p.checkIsInDomain pi = .error (.runtimeError what) := by
  have failed : p.checkIsInDomain pi ≠ .ok () := fun checked => outside (checkIsInDomain_ok_iff.mp checked)
  unfold checkIsInDomain at failed ⊢
  dsimp only at failed ⊢
  split at failed
  · exact absurd rfl failed
  · rename_i some
    rw [if_neg some]
    exact ⟨_, rfl⟩

theorem evalFrom_text {pi : PatternIndex} {brackets : List (Nat × BracketMap × String)} {ss s : String}
    (h : evalFrom pi brackets ss = .ok s) :
    ∃ numerals : List Nat, List.Forall₂ (fun b n => mappingAt b.2.1 (pi.get b.1) = .ok n) brackets numerals ∧
      s = interleave (ss :: brackets.map (fun b => b.2.2)) (numerals.map toString) := by
  induction brackets generalizing ss with
  | nil =>
    obtain rfl := Except.ok.inj h
    exact ⟨[], List.Forall₂.nil, by simp [interleave]⟩
  | cons b rest ih =>
    obtain ⟨inputPos, mapping, fragment⟩ := b
    obtain ⟨n, read, h⟩ := bind_ok h
    obtain ⟨numerals, mapped, text⟩ := ih h
    refine ⟨n :: numerals, List.Forall₂.cons read mapped, ?_⟩
    rw [text, interleave_append]
    rfl

theorem evalFrom_congr {pi pi' : PatternIndex} {brackets : List (Nat × BracketMap × String)} (ss : String)
    (same : ∀ b ∈ brackets, pi'.get b.1 = pi.get b.1) : evalFrom pi' brackets ss = evalFrom pi brackets ss := by
  induction brackets generalizing ss with
  | nil => rfl
  | cons b rest ih =>
    obtain ⟨here, later⟩ := List.forall_mem_cons.mp same
    unfold evalFrom
    rw [here]
    congr 1
    funext n
    exact ih _ later

/-- Only the positions some bracket reads matter. -/
theorem eval_congr {p : DeviceIdPattern} {pi pi' : PatternIndex} {v : String} (h : p.eval pi = .ok v)
    (same : ∀ i, p.IsBound i → pi'.get i = pi.get i) : p.eval pi' = .ok v := by
  have accepted : p.Accepts pi' := (eval_ok_iff.mp ⟨v, h⟩).congr same
  obtain ⟨_, _, h⟩ := bind_ok h
  rw [eval, checkIsInDomain_ok_iff.mpr accepted, ← h]
  apply evalFrom_congr
  intro b member
  obtain ⟨_, position, _⟩ := mem_brackets member
  exact same b.1 (List.mem_of_getElem? position)

theorem mappingAt_ok_iff {mapping : BracketMap} {key : Int} {value : Nat} :
    mappingAt mapping key = .ok value ↔ 0 ≤ key ∧ mapping[key.toNat]? = some value := by
  unfold mappingAt
  by_cases positive : 0 ≤ key
  · simp only [positive, if_true, true_and]
    cases mapping[key.toNat]? <;> simp
  · simp [positive]

theorem brackets_getElem? {p : DeviceIdPattern} {k inputPos : Nat} {mapping : BracketMap}
    (position : p.bracketPosToInputPos[k]? = some inputPos) (mapped : p.bracketInputMappings[k]? = some mapping) :
    ∃ fragment, p.brackets[k]? = some (inputPos, mapping, fragment) := by
  have inside := (List.getElem?_eq_some_iff.mp position).1
  have fragments := p.consistent.fragments
  have tail : k < p.patternNonBracketFragments.tail.length := by
    rw [List.length_tail]
    omega
  refine ⟨p.patternNonBracketFragments.tail[k], ?_⟩
  exact List.getElem?_zip_eq_some.mpr
    ⟨position, List.getElem?_zip_eq_some.mpr ⟨mapped, List.getElem?_eq_getElem tail⟩⟩

theorem eval_text {p : DeviceIdPattern} {pi : PatternIndex} {v : String} (h : p.eval pi = .ok v) :
    ∃ numerals : List Nat, v = interleave p.patternNonBracketFragments (numerals.map toString) ∧
      numerals.length = p.bracketPosToInputPos.length ∧
      ∀ (k inputPos : Nat) (mapping : BracketMap), p.bracketPosToInputPos[k]? = some inputPos →
        p.bracketInputMappings[k]? = some mapping →
          0 ≤ pi.get inputPos ∧ ∃ n, mapping[(pi.get inputPos).toNat]? = some n ∧ numerals[k]? = some n := by
  obtain ⟨_, _, h⟩ := bind_ok h
  obtain ⟨numerals, mapped, text⟩ := evalFrom_text h
  have count := congrArg List.length (brackets_fragments p)
  have fragments := p.consistent.fragments
  rw [List.length_map, List.length_tail] at count
  refine ⟨numerals, ?_, ?_, ?_⟩
  · rw [text, brackets_fragments]
    have nonempty : p.patternNonBracketFragments ≠ [] := List.ne_nil_of_length_pos (by omega)
    obtain ⟨first, rest, split⟩ := List.exists_cons_of_ne_nil nonempty
    rw [split]
    rfl
  · have lengths := mapped.length_eq
    omega
  · intro k inputPos mapping position mappingRead
    obtain ⟨fragment, bracket⟩ := brackets_getElem? position mappingRead
    obtain ⟨inside, here⟩ := List.getElem?_eq_some_iff.mp bracket
    have inside' : k < numerals.length := mapped.length_eq ▸ inside
    have read := (List.forall₂_iff_get.mp mapped).2 k inside inside'
    rw [List.get_eq_getElem, List.get_eq_getElem, here] at read
    obtain ⟨positive, value⟩ := mappingAt_ok_iff.mp read
    exact ⟨positive, _, value, List.getElem?_eq_getElem inside'⟩

/-- Evaluation at any tuple: it succeeds exactly where every bound position holds an element of its
domain, and otherwise throws what the domain check throws; the text has numerals for the brackets, and
no other position of the tuple has a part in it. -/
theorem eval_spec {s : String} {p : DeviceIdPattern} (built : ofString s = .ok p) (pi : PatternIndex) :
    ((∃ v, p.eval pi = .ok v) ↔ ∀ i < p.dim, p.IsBound i → ∃ n ∈ (p.dimDomain i).domain, pi.get i = n) ∧
    (∀ e, p.eval pi = .error e → p.checkIsInDomain pi = .error e ∧ ∃ what, e = .runtimeError what) ∧
    ∀ v, p.eval pi = .ok v →
      (∃ numerals : List Nat, v = interleave p.patternNonBracketFragments (numerals.map toString) ∧
        numerals.length = p.bracketPosToInputPos.length ∧
        ∀ (k inputPos : Nat) (mapping : BracketMap), p.bracketPosToInputPos[k]? = some inputPos →
          p.bracketInputMappings[k]? = some mapping →
            0 ≤ pi.get inputPos ∧ ∃ n, mapping[(pi.get inputPos).toNat]? = some n ∧ numerals[k]? = some n) ∧
      '[' ∉ v.toList ∧ ']' ∉ v.toList ∧
      ∀ pi' : PatternIndex, (∀ i < p.dim, p.IsBound i → pi'.get i = pi.get i) → p.eval pi' = .ok v := by
  refine ⟨eval_ok_iff.trans accepts_iff, ?_, ?_⟩
  · intro e h
    have outside : ¬ p.Accepts pi := by
      intro accepted
      obtain ⟨v, evaluated⟩ := eval_ok_iff.mpr accepted
      rw [evaluated] at h
      cases h
    obtain ⟨what, checked⟩ := checkIsInDomain_error outside
    rw [eval, checked] at h
    obtain rfl := Except.error.inj h
    exact ⟨checked, what, rfl⟩
  · intro v h
    have free := eval_free built h
    refine ⟨eval_text h, fun bracket => ?_, fun bracket => ?_, fun pi' same => ?_⟩
    · exact absurd (free _ bracket) (by decide)
    · exact absurd (free _ bracket) (by decide)
    · exact eval_congr h fun i bound => same i (p.consistent.positions i bound) bound

/-- Two brackets that read position 2 and one that reads position 0, at a tuple with too many
indexes: the one at position 1 and the last have no part in the text. -/
theorem eval_spec_shared : ∃ p, ofString "A[2|0-3]B[0|1:7]C[2|1-2:5-6]" = .ok p ∧
    p.eval (.ofList [1, 9, 2, 4]) = .ok "A2B7C6" ∧ p.eval (.ofList [1, 8, 2]) = .ok "A2B7C6" := by
  have evaluated : (ofString "A[2|0-3]B[0|1:7]C[2|1-2:5-6]").bind (fun p => p.eval (.ofList [1, 9, 2, 4])) =
      .ok "A2B7C6" := by decide
  obtain ⟨p, built, value⟩ := bind_ok evaluated
  have positions : (ofString "A[2|0-3]B[0|1:7]C[2|1-2:5-6]").map (fun p => p.bracketPosToInputPos) = .ok [2, 0, 2] := by
    decide
  rw [built] at positions
  have bound : p.bracketPosToInputPos = [2, 0, 2] := Except.ok.inj positions
  refine ⟨p, built, value, ((eval_spec built _).2.2 _ value).2.2.2 _ ?_⟩
  intro i _ used
  rw [IsBound, bound] at used
  simp only [List.mem_cons, List.not_mem_nil, or_false] at used
  rcases used with rfl | rfl | rfl
  · rfl
  · rfl
  · rfl

end DeviceIdPattern

end MonitorEventing.DeviceId
