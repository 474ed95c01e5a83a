import MonitorEventing.EventInfo.EventNode
import MonitorEventing.EventInfo.MessageArg

/-!
# Loading message arguments

The parameters of an event's message are given as one list. Each pattern takes from it what it has
placeholders for.
-/

namespace MonitorEventing.EventInfo
open Accessor Dat

structure MessageArg where
  pattern : MessageArgPattern
  parameters : List DataAccessor

def loadMessageArgsPatterns (messageArgsJson : Json) : Except Exn (List MessageArgPattern) := do
  let patterns ← messageArgsJson.index "patterns"
  (elements patterns).mapM fun elem => do
    let pattern ← elem.getString
    pure ⟨pattern⟩

/-- `operator[]` of a constant value, with an index. -/
def elementAt (j : Json) (i : Nat) : Except Exn Json :=
  match j with
  | .array elems =>
    match elems[i]? with
    | some elem => .ok elem
    | none => .error .undefined
  | _ => .error .typeError

def loadMessageArgsAccessors (accessorsJson : Json) (fromIncl toExcl : Nat) : Except Exn (List DataAccessor) :=
  (List.range' fromIncl (toExcl - fromIncl)).mapM fun i => do
    let acc ← elementAt accessorsJson i
    pure { acc }

/-- `size()`. -/
def sizeOfJson : Json → Nat
  | .null => 0
  | .array elems => elems.length
  | .object members => members.length
  | _ => 1

def totalPlaceholders (patterns : List MessageArgPattern) : Nat :=
  patterns.foldl (fun res p => (res + p.placeholdersCount) % 2 ^ 32) 0

/-- The loop over the patterns. -/
def loadFrom (accessorsJson : Json) : List MessageArgPattern → Nat → Except Exn (List MessageArg)
  | [], _ => pure []
  | pattern :: rest, placeholdersRead => do
    let next := (placeholdersRead + pattern.placeholdersCount) % 2 ^ 32
    let parameters ← loadMessageArgsAccessors accessorsJson placeholdersRead next
    let others ← loadFrom accessorsJson rest next
    pure (⟨pattern, parameters⟩ :: others)

def loadMessageArgs (messageArgsJson : Json) : Except Exn (List MessageArg) := do
  let patterns ← loadMessageArgsPatterns messageArgsJson
  let accessorsJson := (messageArgsJson.get? "parameters").getD (.array [])
  if totalPlaceholders patterns ≠ sizeOfJson accessorsJson then
    .error (.runtimeError ("The total number of placeholders in \"patterns\" property (= " ++
      toString (totalPlaceholders patterns) ++
      ") is different from the number of elements in the \"parameters\" property (= " ++
      toString (sizeOfJson accessorsJson) ++ ") for the \"message_args\" value '" ++ dump messageArgsJson ++ "'\n"))
  else loadFrom accessorsJson patterns 0

/-! ### What is loaded -/

/-- The number of placeholders of a pattern, however many. -/
def MessageArgPattern.placeholders (p : MessageArgPattern) : Nat := matchesFrom p.pattern.toList

def needed (patterns : List MessageArgPattern) : Nat := (patterns.map MessageArgPattern.placeholders).sum

theorem totalPlaceholders_eq (patterns : List MessageArgPattern) : totalPlaceholders patterns = needed patterns % 2 ^ 32 := by
  have sum : ∀ start, patterns.foldl (fun res p => (res + p.placeholdersCount) % 2 ^ 32) (start % 2 ^ 32) =
      (start + needed patterns) % 2 ^ 32 := by
    induction patterns with
    | nil => exact fun start => rfl
    | cons p patterns ih =>
      intro start
      have step : (start % 2 ^ 32 + p.placeholdersCount) % 2 ^ 32 = (start + p.placeholders) % 2 ^ 32 := by
        rw [MessageArgPattern.placeholdersCount, ← Nat.add_mod]
        rfl
      rw [List.foldl_cons, step, ih, Nat.add_assoc]
      rfl
  exact (sum 0).trans (by rw [Nat.zero_add])

theorem loadMessageArgsPatterns_ok {messageArgsJson : Json} {patterns : List String}
    (given : messageArgsJson.get? "patterns" = some (.array (patterns.map Json.string))) :
    loadMessageArgsPatterns messageArgsJson = .ok (patterns.map MessageArgPattern.mk) := by
  rw [loadMessageArgsPatterns, Json.index_ok_iff.mpr given]
  show (patterns.map Json.string).mapM _ = _
  rw [mapM_ok_iff, List.forall₂_map_left_iff, List.forall₂_map_right_iff, List.forall₂_same]
  exact fun _ _ => rfl

/-- The elements between two positions of an array. -/
theorem loadMessageArgsAccessors_ok {elems : List Json} {fromIncl count : Nat} (fits : fromIncl + count ≤ elems.length) :
    loadMessageArgsAccessors (.array elems) fromIncl (fromIncl + count) =
      .ok (((elems.drop fromIncl).take count).map fun acc => { acc }) := by
  rw [loadMessageArgsAccessors, Nat.add_sub_cancel_left]
  induction count generalizing fromIncl with
  | zero => rfl
  | succ count ih =>
    have inside : fromIncl < elems.length := by omega
    have here : elementAt (.array elems) fromIncl = .ok elems[fromIncl] := by
      simp [elementAt, List.getElem?_eq_getElem inside]
    rw [List.range'_succ, List.mapM_cons, here, List.drop_eq_getElem_cons inside, List.take_succ_cons, List.map_cons]
    simp only [bind, Except.bind, pure, Except.pure] at ih ⊢
    rw [ih (by omega)]

/-- The chunks are what the list holds from the position on, each as long as its pattern has placeholders. -/
theorem loadFrom_ok {elems : List Json} {patterns : List MessageArgPattern} {placeholdersRead : Nat}
    (fits : placeholdersRead + needed patterns = elems.length) (few : elems.length < 2 ^ 32) :
    ∃ args, loadFrom (.array elems) patterns placeholdersRead = .ok args ∧ args.map MessageArg.pattern = patterns ∧
      args.flatMap MessageArg.parameters = (elems.drop placeholdersRead).map (fun acc => { acc }) ∧
      ∀ arg ∈ args, arg.parameters.length = arg.pattern.placeholders := by
  induction patterns generalizing placeholdersRead with
  | nil =>
    have ended : elems.drop placeholdersRead = [] := List.drop_eq_nil_of_le (by simp [needed] at fits; omega)
    exact ⟨[], rfl, rfl, by rw [ended]; rfl, by simp⟩
  | cons pattern patterns ih =>
    have sum : needed (pattern :: patterns) = pattern.placeholders + needed patterns := rfl
    have count : pattern.placeholdersCount = pattern.placeholders := Nat.mod_eq_of_lt (by
      show pattern.placeholders < 2 ^ 32
      omega)
    have next : (placeholdersRead + pattern.placeholdersCount) % 2 ^ 32 = placeholdersRead + pattern.placeholders := by
      rw [count]
      exact Nat.mod_eq_of_lt (by omega)
    have left : placeholdersRead + pattern.placeholders + needed patterns = elems.length := by omega
    obtain ⟨others, rest, same, chunks, sizes⟩ := ih left
    have here : loadMessageArgsAccessors (.array elems) placeholdersRead (placeholdersRead + pattern.placeholders) =
        .ok (((elems.drop placeholdersRead).take pattern.placeholders).map fun acc => { acc }) :=
      loadMessageArgsAccessors_ok (by omega)
    refine ⟨⟨pattern, ((elems.drop placeholdersRead).take pattern.placeholders).map fun acc => { acc }⟩ :: others,
      ?_, ?_, ?_, ?_⟩
    · rw [loadFrom, next, here, rest]
      rfl
    · rw [List.map_cons, same]
    · rw [List.flatMap_cons, chunks, ← List.map_append, ← List.drop_drop, List.take_append_drop]
    · rw [List.forall_mem_cons]
      refine ⟨?_, sizes⟩
      simp only [List.length_map, List.length_take, List.length_drop]
      omega

/-- The parameters cut into chunks, one for each pattern. -/
def Splits (args : List MessageArg) (patterns : List String) (parameters : List Json) : Prop :=
  args.map (·.pattern.pattern) = patterns ∧ args.flatMap MessageArg.parameters = parameters.map (fun acc => { acc }) ∧
    ∀ arg ∈ args, arg.parameters.length = arg.pattern.placeholders

/-- Message arguments throw where they do not add up, and are cut into chunks otherwise. -/
def Loads (messageArgsJson : Json) (patterns : List String) (parameters : List Json) : Prop :=
  ((∃ message, loadMessageArgs messageArgsJson = .error (.runtimeError message)) ↔
      needed (patterns.map MessageArgPattern.mk) ≠ parameters.length) ∧
    (needed (patterns.map MessageArgPattern.mk) = parameters.length →
      ∃ args, loadMessageArgs messageArgsJson = .ok args ∧ Splits args patterns parameters)

theorem elementAt_error {elems : List Json} {i : Nat} {e : Exn} (h : elementAt (.array elems) i = .error e) :
    e = .undefined := by
  unfold elementAt at h
  cases at_i : elems[i]? with
  | some elem => simp [at_i] at h
  | none => simpa [at_i, eq_comm] using h

/-- Reading beyond an array is all that can go wrong with the chunks. -/
theorem loadFrom_error {elems : List Json} {patterns : List MessageArgPattern} {placeholdersRead : Nat} {e : Exn}
    (h : loadFrom (.array elems) patterns placeholdersRead = .error e) : e = .undefined := by
  induction patterns generalizing placeholdersRead with
  | nil => cases h
  | cons pattern patterns ih =>
    rcases bind_error h with here | ⟨parameters, -, h⟩
    · obtain ⟨i, -, outside⟩ := mapM_error here
      rcases bind_error outside with outside | ⟨acc, -, done⟩
      · exact elementAt_error outside
      · cases done
    · rcases bind_error h with later | ⟨others, -, done⟩
      · exact ih later
      · cases done

theorem loadFrom_splits {patterns : List String} {parameters : List Json}
    (few : needed (patterns.map MessageArgPattern.mk) < 2 ^ 32)
    (same : needed (patterns.map MessageArgPattern.mk) = parameters.length) :
    ∃ args, loadFrom (.array parameters) (patterns.map MessageArgPattern.mk) 0 = .ok args ∧
      Splits args patterns parameters := by
  have fits : 0 + needed (patterns.map MessageArgPattern.mk) = parameters.length := by rw [same, Nat.zero_add]
  obtain ⟨args, loaded, given, chunks, sizes⟩ := loadFrom_ok fits (same ▸ few)
  refine ⟨args, loaded, ?_, chunks, sizes⟩
  have texts := congrArg (List.map MessageArgPattern.pattern) given
  simpa [List.map_map, Function.comp_def] using texts

/-- The sum is compared as an `unsigned`. -/
theorem loadMessageArgs_eq {messageArgsJson : Json} {patterns : List String} {parameters : Option (List Json)}
    (given : messageArgsJson.get? "patterns" = some (.array (patterns.map Json.string)))
    (accessors : messageArgsJson.get? "parameters" = parameters.map Json.array) :
    ∃ message, loadMessageArgs messageArgsJson =
      if needed (patterns.map MessageArgPattern.mk) % 2 ^ 32 ≠ (parameters.getD []).length then
        .error (.runtimeError message)
      else loadFrom (.array (parameters.getD [])) (patterns.map MessageArgPattern.mk) 0 := by
  have array : (messageArgsJson.get? "parameters").getD (.array []) = .array (parameters.getD []) := by
    rw [accessors]
    cases parameters <;> rfl
  apply Exists.intro
  rw [loadMessageArgs, loadMessageArgsPatterns_ok given, array, ← totalPlaceholders_eq]
  rfl

theorem loads_iff (messageArgsJson : Json) (patterns : List String) (parameters : Option (List Json))
    (given : messageArgsJson.get? "patterns" = some (.array (patterns.map Json.string)))
    (accessors : messageArgsJson.get? "parameters" = parameters.map Json.array) :
    Loads messageArgsJson patterns (parameters.getD []) ↔
      needed (patterns.map MessageArgPattern.mk) < 2 ^ 32 ∨
        (needed (patterns.map MessageArgPattern.mk) ≠ (parameters.getD []).length ∧
          needed (patterns.map MessageArgPattern.mk) % 2 ^ 32 ≠ (parameters.getD []).length) := by
  obtain ⟨message, run⟩ := loadMessageArgs_eq given accessors
  have splits := @loadFrom_splits patterns (parameters.getD [])
  have never (message : String) : loadFrom (.array (parameters.getD [])) (patterns.map MessageArgPattern.mk) 0 ≠
      .error (.runtimeError message) := by
    intro thrown
    cases loadFrom_error thrown
  unfold Loads
  rw [run]
  generalize needed (patterns.map MessageArgPattern.mk) = total at splits ⊢
  by_cases agrees : total % 2 ^ 32 = (parameters.getD []).length
  · rw [if_neg (not_not.mpr agrees)]
    have silent : ¬ ∃ message, loadFrom (.array (parameters.getD [])) (patterns.map MessageArgPattern.mk) 0 =
        .error (.runtimeError message) := fun thrown => never _ thrown.choose_spec
    rw [iff_false_left silent, not_not]
    constructor
    · intro loads
      left
      rw [loads.1, ← agrees]
      exact Nat.mod_lt _ (by decide)
    · intro fits
      have same : total = (parameters.getD []).length := by
        rcases fits with few | ⟨-, other⟩
        · rwa [Nat.mod_eq_of_lt few] at agrees
        · exact absurd agrees other
      have few : total < 2 ^ 32 := by omega
      exact ⟨same, fun _ => splits few same⟩
  · rw [if_pos agrees]
    have thrown : ∃ text, (Except.error (Exn.runtimeError message) : Except Exn (List MessageArg)) =
        .error (.runtimeError text) := ⟨message, rfl⟩
    rw [iff_true_left thrown]
    constructor
    · intro loads
      exact Or.inr ⟨loads.1, agrees⟩
    · intro fits
      have other : total ≠ (parameters.getD []).length := by
        rcases fits with few | ⟨other, -⟩
        · rwa [Nat.mod_eq_of_lt few] at agrees
        · exact other
      exact ⟨other, fun same => absurd same other⟩

/-! ### How many there can be -/

theorem MessageArgPattern.Cut.length_le {str tail : List Char} {pieces : List (List Char × List Char)}
    (cut : Cut str pieces tail) : pieces.length ≤ str.length := by
  induction cut with
  | tail whole => exact Nat.zero_le _
  | placeholder outside inside rest ih =>
    simp only [EventInfo.placeholder, List.length_append, List.length_cons]
    omega

theorem placeholders_le (p : MessageArgPattern) : p.placeholders ≤ p.pattern.toList.length := by
  obtain ⟨pieces, tail, cut⟩ := MessageArgPattern.cut_exists p.pattern.toList
  rw [MessageArgPattern.placeholders, MessageArgPattern.matchesFrom_cut cut]
  exact cut.length_le

/-- Texts of fewer than 2^32 characters in all have few enough placeholders. -/
theorem needed_le (patterns : List String) :
    needed (patterns.map MessageArgPattern.mk) ≤ (patterns.map fun text => text.toList.length).sum := by
  rw [needed, List.map_map]
  exact List.sum_le_sum fun text _ => placeholders_le ⟨text⟩

def sensorPatterns : List String := ["{NVSwitchId} Temperature", "critical", "{Threshold}"]

def sensorParameters : List Json :=
  [.object [("field", .string "CurrentDeviceName"), ("type", .string "DIRECT")],
    .object [("type", .string "CONSTANT"), ("value", .string "plug")]]

theorem loads_iff_sensor : Loads
    (.object [("parameters", .array sensorParameters), ("patterns", .array (sensorPatterns.map .string))])
    sensorPatterns sensorParameters := by
  apply (loads_iff _ sensorPatterns (some sensorParameters) rfl rfl).mpr
  left
  calc needed (sensorPatterns.map MessageArgPattern.mk)
      ≤ (sensorPatterns.map fun text => text.toList.length).sum := needed_le sensorPatterns
    _ < 2 ^ 32 := by decide

/-- A pattern of nothing but placeholders. -/
def braces (n : Nat) : String := String.ofList (List.replicate n (placeholder [])).flatten

theorem placeholders_braces (n : Nat) : MessageArgPattern.placeholders ⟨braces n⟩ = n := by
  have cut : MessageArgPattern.Cut (List.replicate n (placeholder [])).flatten (List.replicate n ([], [])) [] := by
    induction n with
    | zero =>
      apply MessageArgPattern.Cut.tail
      intro before inner suffix same
      simp [placeholder] at same
    | succ n ih =>
      rw [List.replicate_succ, List.flatten_cons, List.replicate_succ]
      exact MessageArgPattern.Cut.placeholder List.not_mem_nil List.not_mem_nil ih
  rw [MessageArgPattern.placeholders, braces, String.toList_ofList, MessageArgPattern.matchesFrom_cut cut,
    List.length_replicate]

theorem unloaded_braces {m n : Nat} (full : m * n = 2 ^ 32) :
    needed ((List.replicate m (braces n)).map MessageArgPattern.mk) = 2 ^ 32 ∧
    ¬ Loads (.object [("patterns", .array ((List.replicate m (braces n)).map .string))]) (List.replicate m (braces n)) [] := by
  have sum : needed ((List.replicate m (braces n)).map MessageArgPattern.mk) = 2 ^ 32 := by
    rw [needed, List.map_map, List.map_replicate, List.sum_replicate, Function.comp_apply, placeholders_braces,
      smul_eq_mul, full]
  refine ⟨sum, fun loads => ?_⟩
  have fits := (loads_iff _ (List.replicate m (braces n)) none rfl rfl).mp loads
  rw [sum] at fits
  rcases fits with few | ⟨-, other⟩
  · exact absurd few (by decide)
  · exact other rfl

/-- So many placeholders that an `unsigned` counts none. -/
theorem unloaded_wrapped : needed ((List.replicate (2 ^ 16) (braces (2 ^ 16))).map MessageArgPattern.mk) = 2 ^ 32 ∧
    ¬ Loads (.object [("patterns", .array ((List.replicate (2 ^ 16) (braces (2 ^ 16))).map .string))])
      (List.replicate (2 ^ 16) (braces (2 ^ 16))) [] :=
  unloaded_braces (by decide)

end MonitorEventing.EventInfo
