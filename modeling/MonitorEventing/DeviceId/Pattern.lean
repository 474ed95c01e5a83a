import MonitorEventing.DeviceId.BracketPositions

/-!
# Device id patterns

`DeviceIdPattern` as the constructor builds it from a string, with the constraints its own comments
state, and its operations: evaluation at an index tuple, the enumeration of the domain, and matching
a string.
-/

namespace MonitorEventing.DeviceId

/-! ### Cartesian products -/

namespace CartesianProductRange

/-- `product`, in `unsigned` arithmetic. -/
def size (ranges : List PatternInputDomain) : Nat :=
  ranges.foldl (fun result elem => result * elem.size % 2 ^ 32) 1

/-- The loop of `iterator_t::operator*`, with positions `i - 1` down to `0` to go. -/
def derefFrom (ranges : List PatternInputDomain) : Nat → Nat → PatternIndex → PatternIndex
  | 0, _, result => result
  | i + 1, mi, result =>
    let range := ranges.getD i .any
    derefFrom ranges i (mi / range.size) (result.set i (range.get (mi % range.size)))

def deref (ranges : List PatternInputDomain) (masterIndex : Nat) : PatternIndex :=
  derefFrom ranges ranges.length masterIndex (.ofList [])

/-- The tuples from `begin()` to `end()`. -/
def elements (ranges : List PatternInputDomain) : List PatternIndex :=
  (List.range (size ranges)).map (deref ranges)

end CartesianProductRange

/-! ### Construction -/

structure PatternFields where
  rawPattern : String
  patternNonBracketFragments : List String
  bracketPosToInputPos : List Nat
  patternInputDomains : List PatternInputDomain
  bracketInputMappings : List BracketMap

namespace PatternFields

/-- The constraints the class states about its members, and what the members say of each other. -/
structure Consistent (p : PatternFields) : Prop where
  fragments : p.bracketPosToInputPos.length + 1 = p.patternNonBracketFragments.length
  mappings : p.bracketInputMappings.length = p.bracketPosToInputPos.length
  positions : ∀ i ∈ p.bracketPosToInputPos, i < p.patternInputDomains.length
  minimal : ∀ i < p.patternInputDomains.length, ∃ j ∈ p.bracketPosToInputPos, i ≤ j
  domains : ∀ i d, p.patternInputDomains[i]? = some d →
    IsInputDomain (bracketsAt p.bracketPosToInputPos i) p.bracketInputMappings d

/-- Texts at even positions, bracket contents at odd ones. -/
def interleaved : List (List Char) → List (List Char) × List (List Char)
  | [] => ([], [])
  | [text] => ([text], [])
  | text :: bracketContent :: rest =>
    ((text :: (interleaved rest).1), (bracketContent :: (interleaved rest).2))

def separateTextAndBracketContents (str : List Char) : Except Exn (List (List Char) × List (List Char)) :=
  let result := split ['[', ']'] str
  if result.length % 2 = 1 then
    -- The counter of the loop, which goes over the odd numbers, comes back to 1 before it gets to a larger size.
    if result.length < 2 ^ 32 then .ok (interleaved result) else .error .undefined
  else .error (.runtimeError "separateTextAndBracketContents: ! result.size() % 2 == 1")

def construct (devIdPattern : String) : Except Exn PatternFields := do
  let (texts, bracketContents) ← separateTextAndBracketContents devIdPattern.toList
  let parsed ← bracketContents.mapM IndexedBracketMap.parse
  let indexedBracketMappings := IndexedBracketMap.fillImplicitInputPositions parsed
  let bracketPosToInputPos := indexedBracketMappings.map (·.inputPosition.toNat)
  let bracketInputMappings := indexedBracketMappings.map (·.indexMap)
  let inputPosToBracketPos ←
    BracketPositions.calcInputIndexToBracketPoss (bracketPosToInputPos.map UInt32.ofNat)
  let patternInputDomains ← calcInputDomains inputPosToBracketPos bracketInputMappings
  pure {
    rawPattern := devIdPattern
    patternNonBracketFragments := texts.map String.ofList
    bracketPosToInputPos, patternInputDomains, bracketInputMappings }

theorem interleaved_lengths {pieces : List (List Char)} (odd : pieces.length % 2 = 1) :
    (interleaved pieces).2.length + 1 = (interleaved pieces).1.length := by
  induction pieces using interleaved.induct with
  | case1 => simp at odd
  | case2 text => rfl
  | case3 text bracketContent rest ih =>
    simp only [interleaved, List.length_cons, Nat.add_right_cancel_iff]
    exact ih (by simp only [List.length_cons] at odd; omega)

theorem interleaved_total {pieces : List (List Char)} (odd : pieces.length % 2 = 1) :
    (interleaved pieces).1.length + (interleaved pieces).2.length = pieces.length := by
  induction pieces using interleaved.induct with
  | case1 => simp at odd
  | case2 text => rfl
  | case3 text bracketContent rest ih =>
    have rest := ih (by simp only [List.length_cons] at odd; omega)
    simp only [interleaved, List.length_cons]
    omega

/-- No position of a bracket wraps. -/
theorem positions_small {pieces : List (List Char)} (odd : pieces.length % 2 = 1) (short : pieces.length < 2 ^ 32)
    {parsed : List IndexedBracketMap} (read : (interleaved pieces).2.mapM IndexedBracketMap.parse = .ok parsed) :
    (IndexedBracketMap.fillImplicitInputPositions parsed).length < 2 ^ 31 ∧
      ∀ pos ∈ (IndexedBracketMap.fillImplicitInputPositions parsed).map (·.inputPosition.toNat), pos < 2 ^ 31 := by
  have each := mapM_ok_iff.mp read
  have count := interleaved_lengths odd
  have whole := interleaved_total odd
  have few : parsed.length < 2 ^ 31 := by
    rw [← each.length_eq]
    omega
  refine ⟨by rwa [IndexedBracketMap.length_fillImplicitInputPositions], fun pos member => ?_⟩
  obtain ⟨filled, listed, rfl⟩ := List.mem_map.mp member
  obtain ⟨i, inside, rfl⟩ := List.getElem_of_mem listed
  have bound := inside
  rw [IndexedBracketMap.length_fillImplicitInputPositions] at bound
  simp only [IndexedBracketMap.fillImplicitInputPositions, List.getElem_mapIdx]
  split
  · dsimp only
    omega
  · obtain ⟨range, _, here⟩ := forall₂_mem_right each (List.getElem_mem bound)
    have small := IndexedBracketMap.parse_small here
    omega

/-- The brackets are where they are read, whatever the width of the positions. -/
theorem calcInputIndexToBracketPoss_small {positions : List Nat} (few : positions.length < 2 ^ 31)
    (small : ∀ pos ∈ positions, pos < 2 ^ 31) :
    BracketPositions.calcInputIndexToBracketPoss (positions.map UInt32.ofNat) = .ok (bracketsByInput positions) := by
  have back : ∀ pos ∈ positions, (UInt32.ofNat pos).toNat = pos := fun pos member =>
    UInt32.toNat_ofNat_of_lt' ((small pos member).trans (by decide))
  have same : (positions.map UInt32.ofNat).map UInt32.toNat = positions := by
    rw [List.map_map]
    exact (List.map_congr_left back).trans (List.map_id _)
  rw [BracketPositions.calc_fits ⟨?_, ?_⟩, same]
  · rw [List.length_map]
    omega
  · intro pos member last
    obtain ⟨n, listed, rfl⟩ := List.mem_map.mp member
    have value := back n listed
    have bound := small n listed
    rw [last] at value
    have largest : (4294967295 : UInt32).toNat = 4294967295 := rfl
    omega

theorem construct_ok_iff {s : String} {p : PatternFields} :
    construct s = .ok p ↔ ∃ parsed, ((split ['[', ']'] s.toList).length % 2 = 1 ∧
        (split ['[', ']'] s.toList).length < 2 ^ 32) ∧
      (interleaved (split ['[', ']'] s.toList)).2.mapM IndexedBracketMap.parse = .ok parsed ∧
      p.rawPattern = s ∧
      p.patternNonBracketFragments = (interleaved (split ['[', ']'] s.toList)).1.map String.ofList ∧
      p.bracketPosToInputPos =
        (IndexedBracketMap.fillImplicitInputPositions parsed).map (·.inputPosition.toNat) ∧
      p.bracketInputMappings = (IndexedBracketMap.fillImplicitInputPositions parsed).map (·.indexMap) ∧
      calcInputDomains (bracketsByInput p.bracketPosToInputPos) p.bracketInputMappings = .ok p.patternInputDomains := by
  obtain ⟨rawPattern, fragments, positions, domains, mappings⟩ := p
  simp only [construct, separateTextAndBracketContents]
  split
  · rename_i odd
    split
    · rename_i short
      have rows : ∀ parsed, (interleaved (split ['[', ']'] s.toList)).2.mapM IndexedBracketMap.parse = .ok parsed →
          BracketPositions.calcInputIndexToBracketPoss (((IndexedBracketMap.fillImplicitInputPositions parsed).map
            (·.inputPosition.toNat)).map UInt32.ofNat) = .ok (bracketsByInput
              ((IndexedBracketMap.fillImplicitInputPositions parsed).map (·.inputPosition.toNat))) := by
        intro parsed read
        obtain ⟨few, small⟩ := positions_small odd short read
        exact calcInputIndexToBracketPoss_small (by rwa [List.length_map]) small
      simp only [bind_ok_iff, pure_ok_iff, Except.ok.injEq, PatternFields.mk.injEq]
      constructor
      · rintro ⟨_, rfl, parsed, hp, row, hr, domains, hd, rfl, rfl, rfl, rfl, rfl⟩
        obtain rfl := Except.ok.inj (hr.symm.trans (rows parsed hp))
        exact ⟨parsed, ⟨odd, short⟩, hp, rfl, rfl, rfl, rfl, hd⟩
      · rintro ⟨parsed, _, hp, rfl, rfl, rfl, rfl, hd⟩
        exact ⟨_, rfl, parsed, hp, _, rows parsed hp, domains, hd, rfl, rfl, rfl, rfl, rfl⟩
    · rename_i long
      refine iff_of_false (fun built => ?_) fun given => long given.choose_spec.1.2
      cases built
  · rename_i even
    simp [even, bind, Except.bind]

theorem construct_consistent {s : String} {p : PatternFields} (h : construct s = .ok p) : p.Consistent := by
  obtain ⟨parsed, ⟨odd, _⟩, parsedOk, _, fragments, positions, mappings, domains⟩ := construct_ok_iff.mp h
  have count := (mapM_ok_iff.mp parsedOk).length_eq
  have lengths : p.bracketInputMappings.length = p.bracketPosToInputPos.length := by
    rw [positions, mappings, List.length_map, List.length_map]
  obtain ⟨ds, calculated, dim, isDomain⟩ := calcInputDomains_ok lengths
  obtain rfl : ds = p.patternInputDomains := Except.ok.inj (calculated.symm.trans domains)
  refine ⟨?_, lengths, fun i member => dim ▸ lt_inputCount member,
    fun i inside => exists_ge_of_lt_inputCount (dim ▸ inside), isDomain⟩
  rw [positions, fragments, List.length_map, List.length_map,
    IndexedBracketMap.length_fillImplicitInputPositions, ← count, interleaved_lengths odd]

end PatternFields

/-- A device id pattern: the members, with the constraints on them. -/
structure DeviceIdPattern extends PatternFields where
  consistent : toPatternFields.Consistent

namespace DeviceIdPattern

/-- The constructor. -/
def ofString (devIdPattern : String) : Except Exn DeviceIdPattern :=
  match h : PatternFields.construct devIdPattern with
  | .ok fields => .ok ⟨fields, PatternFields.construct_consistent h⟩
  | .error e => .error e

theorem ofString_ok_iff {s : String} {p : DeviceIdPattern} :
    ofString s = .ok p ↔ PatternFields.construct s = .ok p.toPatternFields := by
  unfold ofString
  split
  · rename_i fields built
    obtain ⟨fields', _⟩ := p
    simp [built]
  · rename_i built
    simp [built]

def pattern (p : DeviceIdPattern) : String := p.rawPattern

theorem pattern_ofString {s : String} {p : DeviceIdPattern} (built : ofString s = .ok p) : p.pattern = s := by
  obtain ⟨_, _, _, raw, _⟩ := PatternFields.construct_ok_iff.mp (ofString_ok_iff.mp built)
  exact raw

def dim (p : DeviceIdPattern) : Nat := p.patternInputDomains.length

def dimDomain (p : DeviceIdPattern) (axis : Nat) : PatternInputDomain := p.patternInputDomains.getD axis .any

/-! ### Evaluation -/

def badPositions (p : DeviceIdPattern) (pi : PatternIndex) : List Nat :=
  (List.range p.dim).filter fun i => !(p.dimDomain i).contains (pi.get i)

def checkIsInDomain (p : DeviceIdPattern) (pi : PatternIndex) : Except Exn Unit :=
  let bad := p.badPositions pi
  if bad.isEmpty then .ok ()
  else .error (.runtimeError ("Given pattern index tuple '" ++ pi.print ++
    "' contains indexes outside of pattern's domain at axes: " ++
    String.join (bad.map fun pos => toString pos ++ ", ") ++ "(values " ++
    String.join (bad.map fun pos => PatternIndex.printValue (pi.get pos) ++ ", ") ++ ")"))

/-- `std::map::at`. No parsed number reaches the `unsigned` a negative key converts to. -/
def mappingAt (mapping : BracketMap) (key : Int) : Except Exn Nat :=
  match if 0 ≤ key then mapping[key.toNat]? else none with
  | some value => .ok value
  | none => .error .outOfRange

/-- Each bracket's input position and mapping, with the text that follows the bracket. -/
def brackets (p : DeviceIdPattern) : List (Nat × BracketMap × String) :=
  p.bracketPosToInputPos.zip (p.bracketInputMappings.zip p.patternNonBracketFragments.tail)

def evalFrom (pi : PatternIndex) : List (Nat × BracketMap × String) → String → Except Exn String
  | [], ss => .ok ss
  | (inputPos, mapping, fragment) :: rest, ss => do
    let value ← mappingAt mapping (pi.get inputPos)
    evalFrom pi rest (ss ++ toString value ++ fragment)

def eval (p : DeviceIdPattern) (pi : PatternIndex) : Except Exn String := do
  p.checkIsInDomain pi
  evalFrom pi p.brackets (p.patternNonBracketFragments.headD "")

/-! ### Enumeration and matching -/

def domain (p : DeviceIdPattern) : List PatternIndex := CartesianProductRange.elements p.patternInputDomains

def values (p : DeviceIdPattern) : Except Exn (List String) := p.domain.mapM p.eval

/-- `match`. -/
def matchArgs (p : DeviceIdPattern) (str : String) : Except Exn (List PatternIndex) :=
  p.domain.filterM fun arg => do
    let value ← p.eval arg
    pure (value == str)

/-- `matches`. -/
def matchesString (p : DeviceIdPattern) (str : String) : Except Exn Bool := do
  let args ← p.matchArgs str
  pure !args.isEmpty

/-! ### Small facts -/

theorem dimDomain_eq {p : DeviceIdPattern} {i : Nat} (inside : i < p.dim) :
    p.patternInputDomains[i]? = some (p.dimDomain i) := by
  rw [dimDomain, List.getD_eq_getElem?_getD, List.getElem?_eq_getElem inside, Option.getD_some]

theorem isInputDomain {p : DeviceIdPattern} {i : Nat} (inside : i < p.dim) :
    IsInputDomain (bracketsAt p.bracketPosToInputPos i) p.bracketInputMappings (p.dimDomain i) :=
  p.consistent.domains i _ (dimDomain_eq inside)

def IsBound (p : DeviceIdPattern) (i : Nat) : Prop := i ∈ p.bracketPosToInputPos

instance (p : DeviceIdPattern) (i : Nat) : Decidable (p.IsBound i) :=
  inferInstanceAs (Decidable (i ∈ p.bracketPosToInputPos))

theorem isBound_iff {p : DeviceIdPattern} {i : Nat} :
    p.IsBound i ↔ bracketsAt p.bracketPosToInputPos i ≠ [] := by
  rw [IsBound, List.mem_iff_getElem?, Ne, List.eq_nil_iff_forall_not_mem]
  simp only [mem_bracketsAt, not_forall, not_not]

theorem unspecified_iff {p : DeviceIdPattern} {i : Nat} (inside : i < p.dim) :
    (p.dimDomain i).unspecified = true ↔ ¬ p.IsBound i := by
  rw [isBound_iff, not_not]
  constructor
  · intro free
    by_contra used
    rw [(isInputDomain inside).bound used] at free
    cases free
  · intro unused
    rw [(isInputDomain inside).free unused]
    rfl

end DeviceIdPattern

end MonitorEventing.DeviceId
