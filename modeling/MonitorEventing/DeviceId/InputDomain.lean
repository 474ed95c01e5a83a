import MonitorEventing.DeviceId.PatternIndex
import MonitorEventing.DeviceId.Syntax

/-!
# Input domains

The values a pattern accepts at each input position, calculated from the brackets bound to that
position: the keys the bracket mappings have in common, or no restriction where no bracket is bound.
-/

namespace MonitorEventing.DeviceId

/-- Values are sorted ascendingly. -/
structure PatternInputDomain where
  unspecified : Bool
  domain : List Nat
  sorted : domain.Pairwise (· ≤ ·)
  deriving DecidableEq

namespace PatternInputDomain

/-- The default constructor: every argument is accepted. -/
def any : PatternInputDomain := ⟨true, [], List.Pairwise.nil⟩

/-- The constructor from a range of arguments. -/
def ofRange (arguments : List Nat) : PatternInputDomain :=
  ⟨false, arguments.insertionSort (· ≤ ·), List.pairwise_insertionSort _ _⟩

def size (d : PatternInputDomain) : Nat := if d.unspecified then 1 else d.domain.length

/-- `operator[]`, only used below `size`. -/
def get (d : PatternInputDomain) (i : Nat) : Int :=
  if d.unspecified then PatternIndex.unspecified else d.domain.getD i 0

def contains (d : PatternInputDomain) (elem : Int) : Bool :=
  d.unspecified || (decide (0 ≤ elem) && d.domain.contains elem.toNat)

theorem mem_ofRange {arguments : List Nat} {v : Nat} : v ∈ (ofRange arguments).domain ↔ v ∈ arguments :=
  List.mem_insertionSort _

theorem ofRange_strict {arguments : List Nat} (distinct : arguments.Nodup) :
    (ofRange arguments).domain.Pairwise (· < ·) := by
  have unique : (ofRange arguments).domain.Nodup := (List.perm_insertionSort _ arguments).nodup_iff.mpr distinct
  exact ((ofRange arguments).sorted.and unique).imp fun ⟨le, ne⟩ => Nat.lt_of_le_of_ne le ne

end PatternInputDomain

/-- The cross section of the domains of all brackets at one input position. -/
def calcInputDomain (bracketPositions : List Nat) (allBracketMappings : List BracketMap) :
    Except Exn PatternInputDomain :=
  match bracketPositions with
  | [] => pure .any
  | first :: _ => do
    let firstMapping ← vectorAt allBracketMappings first
    let resultSet ← firstMapping.keys.filterM fun elem =>
      bracketPositions.allM fun i => do
        let mapping ← vectorAt allBracketMappings i
        pure (mapping.contains elem)
    pure (.ofRange resultSet)

def calcInputDomains (inputPosToBracketPos : List (List Nat)) (bracketMappings : List BracketMap) :
    Except Exn (List PatternInputDomain) :=
  inputPosToBracketPos.mapM fun bracketPositions => calcInputDomain bracketPositions bracketMappings

/-! ### What the calculation gives -/

def bracketsAt (bracketPosToInputPos : List Nat) (inputPos : Nat) : List Nat :=
  (bracketPosToInputPos.zipIdx.filter (·.1 == inputPos)).map (·.2)

theorem mem_bracketsAt {bracketPosToInputPos : List Nat} {inputPos b : Nat} :
    b ∈ bracketsAt bracketPosToInputPos inputPos ↔ bracketPosToInputPos[b]? = some inputPos := by
  simp only [bracketsAt, List.mem_map, List.mem_filter, beq_iff_eq, Prod.exists, exists_eq_right,
    List.mem_zipIdx_iff_getElem?]

def inputCount (bracketPosToInputPos : List Nat) : Nat :=
  match bracketPosToInputPos.max? with
  | some largest => largest + 1
  | none => 0

theorem lt_inputCount {bracketPosToInputPos : List Nat} {pos : Nat} (member : pos ∈ bracketPosToInputPos) :
    pos < inputCount bracketPosToInputPos := by
  unfold inputCount
  split
  · rename_i largest read
    exact Nat.lt_succ_of_le ((List.max?_le_iff read).mp le_rfl pos member)
  · rename_i read
    rw [List.max?_eq_none_iff] at read
    simp [read] at member

theorem exists_ge_of_lt_inputCount {bracketPosToInputPos : List Nat} {i : Nat}
    (inside : i < inputCount bracketPosToInputPos) : ∃ pos ∈ bracketPosToInputPos, i ≤ pos := by
  unfold inputCount at inside
  split at inside
  · rename_i largest read
    exact ⟨largest, List.max?_mem read, by omega⟩
  · omega

/-- The brackets at each input position up to the largest one used. -/
def bracketsByInput (bracketPosToInputPos : List Nat) : List (List Nat) :=
  (List.range (inputCount bracketPosToInputPos)).map (bracketsAt bracketPosToInputPos)

theorem bracketsAt_ascending (positions : List Nat) (i : Nat) : (bracketsAt positions i).Pairwise (· < ·) := by
  have sublist : (bracketsAt positions i).Sublist (positions.zipIdx.map (·.2)) := List.filter_sublist.map _
  rw [List.zipIdx_map_snd] at sublist
  exact List.Pairwise.sublist sublist List.pairwise_lt_range'

theorem getElem?_bracketsByInput {positions : List Nat} {i : Nat} {row : List Nat} :
    (bracketsByInput positions)[i]? = some row ↔ i < inputCount positions ∧ bracketsAt positions i = row := by
  rw [bracketsByInput, List.getElem?_eq_some_iff]
  simp

/-- The domain at an input position with the given brackets: no restriction without a bracket,
otherwise the keys all the brackets have. -/
structure IsInputDomain (positions : List Nat) (mappings : List BracketMap) (d : PatternInputDomain) : Prop where
  free : positions = [] → d = .any
  bound : positions ≠ [] → d.unspecified = false
  strict : d.domain.Pairwise (· < ·)
  mem : positions ≠ [] → ∀ v, v ∈ d.domain ↔ ∀ b ∈ positions, ∀ m, mappings[b]? = some m → v ∈ m

theorem hasKey_iff {bracketMappings : List BracketMap} {key b : Nat} :
    (do let mapping ← vectorAt bracketMappings b; pure (mapping.contains key) : Except Exn Bool) = .ok true ↔
      ∃ m, bracketMappings[b]? = some m ∧ key ∈ m := by
  simp only [bind_ok_iff, vectorAt_ok_iff, pure_ok_iff, Std.TreeMap.contains_iff_mem]

/-- What is calculated, also where some bracket has no mapping. -/
theorem calcInputDomain_sound {positions : List Nat} {bracketMappings : List BracketMap} {d : PatternInputDomain}
    (run : calcInputDomain positions bracketMappings = .ok d) : (d.unspecified = true ↔ positions = []) ∧
      d.domain.Pairwise (· < ·) ∧ (positions ≠ [] → ∀ key, key ∈ d.domain ↔
        ∀ b ∈ positions, ∃ m, bracketMappings[b]? = some m ∧ key ∈ m) := by
  cases positions with
  | nil =>
    cases run
    exact ⟨⟨fun _ => rfl, fun _ => rfl⟩, List.Pairwise.nil, fun h => absurd rfl h⟩
  | cons first rest =>
    obtain ⟨mapping, read, run⟩ := bind_ok run
    obtain ⟨resultSet, filtered, run⟩ := bind_ok run
    obtain rfl := Except.ok.inj run
    obtain ⟨_, rfl⟩ := filterM_ok_iff.mp filtered
    refine ⟨⟨nofun, nofun⟩, PatternInputDomain.ofRange_strict (List.Nodup.filter _ ?_), fun _ key => ?_⟩
    · exact mapping.distinct_keys.imp fun ne same => ne (by simp [same])
    · rw [PatternInputDomain.mem_ofRange, List.mem_filter, toOption_getD_iff, allM_true_iff, Std.TreeMap.mem_keys]
      simp only [hasKey_iff]
      refine and_iff_right_of_imp fun all => ?_
      obtain ⟨m, readFirst, member⟩ := all first List.mem_cons_self
      rw [vectorAt_ok_iff.mp read] at readFirst
      exact Option.some.inj readFirst ▸ member

theorem exists_calcInputDomain {positions : List Nat} {mappings : List BracketMap}
    (valid : ∀ b ∈ positions, b < mappings.length) : ∃ d, calcInputDomain positions mappings = .ok d := by
  cases positions with
  | nil => exact ⟨.any, rfl⟩
  | cons first rest =>
    have read : ∀ b ∈ first :: rest, vectorAt mappings b = .ok (mappings.getD b ∅) := by
      intro b member
      rw [vectorAt_ok_iff, List.getD_eq_getElem _ _ (valid b member)]
      exact List.getElem?_eq_getElem _
    have each : ∀ elem, (first :: rest).allM (fun i => do
        let mapping ← vectorAt mappings i
        pure (mapping.contains elem)) = .ok ((first :: rest).all fun b => (mappings.getD b ∅).contains elem) := by
      refine fun elem => allM_ok fun b member => ?_
      rw [read b member]
      rfl
    rw [calcInputDomain, read first List.mem_cons_self]
    exact bind_total ⟨_, rfl⟩ fun _ _ => bind_total ⟨_, filterM_ok fun elem _ => each elem⟩ fun _ _ => ⟨_, rfl⟩

theorem calcInputDomain_ok {positions : List Nat} {mappings : List BracketMap}
    (valid : ∀ b ∈ positions, b < mappings.length) :
    ∃ d, calcInputDomain positions mappings = .ok d ∧ IsInputDomain positions mappings d := by
  obtain ⟨d, run⟩ := exists_calcInputDomain valid
  obtain ⟨free, strict, keys⟩ := calcInputDomain_sound run
  refine ⟨d, run, fun none => ?_, fun some => ?_, strict, fun some v => (keys some v).trans ?_⟩
  · subst none
    cases run
    rfl
  · rw [Bool.eq_false_iff, ne_eq, free]
    exact some
  · refine forall₂_congr fun b member => ?_
    rw [List.getElem?_eq_getElem (valid b member)]
    simp

/-- The constructor's calculation succeeds on the brackets of a pattern, one domain for each input
position. -/
theorem calcInputDomains_ok {bracketPosToInputPos : List Nat} {mappings : List BracketMap}
    (lengths : mappings.length = bracketPosToInputPos.length) :
    ∃ ds, calcInputDomains (bracketsByInput bracketPosToInputPos) mappings = .ok ds ∧
      ds.length = inputCount bracketPosToInputPos ∧
      ∀ i d, ds[i]? = some d → IsInputDomain (bracketsAt bracketPosToInputPos i) mappings d := by
  have one : ∀ i, ∃ d, calcInputDomain (bracketsAt bracketPosToInputPos i) mappings = .ok d ∧
      IsInputDomain (bracketsAt bracketPosToInputPos i) mappings d := fun i =>
    calcInputDomain_ok fun b member => by
      rw [lengths]
      exact (List.getElem?_eq_some_iff.mp (mem_bracketsAt.mp member)).1
  choose domainAt calculated isDomain using one
  refine ⟨(List.range (inputCount bracketPosToInputPos)).map domainAt, ?_, by simp, ?_⟩
  · rw [calcInputDomains, bracketsByInput, mapM_ok_iff, List.forall₂_map_left_iff,
      List.forall₂_map_right_iff, List.forall₂_same]
    exact fun i _ => calculated i
  · intro i d read
    rw [List.getElem?_map, Option.map_eq_some_iff] at read
    obtain ⟨j, readJ, rfl⟩ := read
    obtain ⟨_, rfl⟩ := List.getElem?_eq_some_iff.mp readJ
    rw [List.getElem_range]
    exact isDomain i

end MonitorEventing.DeviceId
