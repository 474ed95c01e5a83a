import MonitorEventing.Accessor.PropertyValue

/-!
# The command line

`CmdLine::parse`: a scan over the words of the command line, each argument taking as many words as its format has.
-/

namespace MonitorEventing.CmdLine
open Accessor (isSpace)

inductive OptFlag where
  | none | overwrite | append
  deriving DecidableEq

inductive ActFlag where
  | normal | mandatory | exclusive
  deriving DecidableEq

def isArgName (str : String) : Bool := str.toList.head? = some '-'

/-- The loop over the characters of a format, with an `int` that must not overflow. -/
def countFrom : List Char → Bool → Nat → Except Exn Nat
  | [], _, count => pure count
  | ch :: rest, wasWS, count =>
    if isSpace ch then countFrom rest true count
    else if wasWS then
      if count + 1 < 2 ^ 31 then countFrom rest false (count + 1) else .error .undefined
    else countFrom rest false count

def calcOptCount (flag : OptFlag) (optFmtStr : String) : Except Exn Nat :=
  if flag = .none then pure 0 else countFrom optFmtStr.toList true 0

/-- `optCount` is what the constructor has counted. -/
structure CmdLineArg where
  shortArg : String
  longArg : String
  optFlag : OptFlag
  optFmt : String
  actFlag : ActFlag
  argOpts : List String := []
  optCount : Nat
  counted : calcOptCount optFlag optFmt = .ok optCount

namespace CmdLineArg

/-- The copy constructor leaves the options behind. -/
def copy (r : CmdLineArg) : CmdLineArg := { r with argOpts := [] }

def needOpt (a : CmdLineArg) : Bool := a.optFlag = .overwrite ∨ a.optFlag = .append

def addOpt (a : CmdLineArg) (opt : String) : CmdLineArg :=
  if a.optFlag = .none then a
  else if a.optFlag = .overwrite then { a with argOpts := [opt] }
  else { a with argOpts := a.argOpts ++ [opt] }

def getTag (a : CmdLineArg) : String :=
  if !isArgName a.shortArg && !isArgName a.longArg then "cmd"
  else if a.shortArg = "" then a.longArg else a.shortArg

def isMandatory (a : CmdLineArg) : Bool := a.actFlag = .mandatory

def isExclusive (a : CmdLineArg) : Bool := a.actFlag = .exclusive

end CmdLineArg

/-! ### The parser -/

def indexName (argIndexes : StringMap CmdLineArg) (id : String) (arg : CmdLineArg) : StringMap CmdLineArg :=
  if id ≠ "" then argIndexes.insert id arg else argIndexes

/-- `argIndexes`, as `buildArgIndexes` fills it. -/
def argIndexes (cmdLineArgs : List CmdLineArg) : StringMap CmdLineArg :=
  cmdLineArgs.foldl (fun indexes arg => indexName (indexName indexes arg.shortArg arg) arg.longArg arg) ∅

/-- `mandatoryPresenceIndexes`, as `buildArgIndexes` fills it. -/
def mandatoryIndexes (cmdLineArgs : List CmdLineArg) : StringMap Bool :=
  cmdLineArgs.foldl (fun indexes arg => if arg.isMandatory then indexes.insert arg.getTag false else indexes) ∅

/-- The loop that reads the words of an argument. -/
def addOpts (argStr : String) : Nat → List String → CmdLineArg → Except Exn CmdLineArg
  | 0, _, arg => pure arg
  | _ + 1, [], _ => .error (.runtimeError ("Argument " ++ argStr ++ " needs parameter!"))
  | n + 1, opt :: rest, arg =>
    if isArgName opt then .error (.runtimeError ("Argument " ++ argStr ++ " needs parameter!"))
    else addOpts argStr n rest (arg.addOpt opt)

def getOptions (argStr : String) (rest : List String) (arg : CmdLineArg) : Except Exn CmdLineArg :=
  if arg.needOpt then addOpts argStr arg.optCount rest arg else pure arg

def checkMandatory (presence : StringMap Bool) : Except Exn Unit :=
  match presence.toList.find? fun m => m.2 = false with
  | some m => .error (.runtimeError ("Arg " ++ m.1 ++ " is needed!"))
  | none => pure ()

/-- The loop over the words, of which the next `read` have been read as options. What it returns is `actualArgs`. -/
def parseFrom (indexes : StringMap CmdLineArg) :
    List String → Nat → StringMap Bool → StringMap CmdLineArg → Except Exn (StringMap CmdLineArg)
  | [], _, presence, actualArgs => do
    let _ ← checkMandatory presence
    pure actualArgs
  | _ :: rest, read + 1, presence, actualArgs => parseFrom indexes rest read presence actualArgs
  | argStr :: rest, 0, presence, actualArgs =>
    match indexes[argStr]? with
    | none => .error (.runtimeError ("Uknown argument: " ++ argStr ++ "!"))
    | some oArg =>
      let presence := if oArg.isMandatory then presence.insert oArg.getTag true else presence
      if oArg.isExclusive then pure ((∅ : StringMap CmdLineArg).insert oArg.getTag oArg.copy)
      else do
        let arg ← getOptions argStr rest (actualArgs[oArg.getTag]?.getD oArg.copy)
        parseFrom indexes rest (if arg.needOpt then arg.optCount else 0) presence (actualArgs.insert oArg.getTag arg)

/-- `parse` of a command line that was just constructed. -/
def parse (cmdLineArgs : List CmdLineArg) (argv : List String) : Except Exn (StringMap CmdLineArg) :=
  parseFrom (argIndexes cmdLineArgs) argv.tail 0 (mandatoryIndexes cmdLineArgs) ∅

/-! ### Formats -/

/-- The words of a format. -/
def words (optFmt : String) : List (List Char) := (optFmt.toList.splitOnP isSpace).filter (· ≠ [])

def CmdLineArg.wordCount (a : CmdLineArg) : Nat := if a.needOpt then (words a.optFmt).length else 0

theorem countFrom_ok {chars : List Char} {wasWS : Bool} {count n : Nat} (h : countFrom chars wasWS count = .ok n) :
    n = count + if wasWS then ((chars.splitOnP isSpace).filter (· ≠ [])).length
      else ((chars.splitOnP isSpace).tail.filter (· ≠ [])).length := by
  induction chars generalizing wasWS count with
  | nil =>
    obtain rfl := Except.ok.inj h
    cases wasWS <;> simp
  | cons ch rest ih =>
    rw [countFrom] at h
    obtain ⟨piece, pieces, split⟩ := List.exists_cons_of_ne_nil (List.splitOnP_ne_nil isSpace rest)
    rw [List.splitOnP_cons_eq_if_modifyHead]
    by_cases space : isSpace ch = true
    · rw [if_pos space] at h
      rw [if_pos space, ih h]
      cases wasWS <;> simp
    · rw [if_neg space] at h
      rw [if_neg space, split, List.modifyHead_cons]
      cases wasWS with
      | true =>
        rw [if_pos rfl] at h
        split at h
        · have later := ih h
          rw [if_neg Bool.false_ne_true, split, List.tail_cons] at later
          rw [later, if_pos rfl, List.filter_cons, if_pos (by simp), List.length_cons]
          omega
        · cases h
      | false =>
        rw [if_neg Bool.false_ne_true] at h
        have later := ih h
        rwa [if_neg Bool.false_ne_true, split, List.tail_cons] at later

theorem CmdLineArg.optCount_eq (a : CmdLineArg) : (if a.needOpt then a.optCount else 0) = a.wordCount := by
  unfold wordCount
  by_cases need : a.needOpt = true
  · have counted := a.counted
    have takes : a.optFlag ≠ .none := by
      intro none
      simp [needOpt, none] at need
    rw [calcOptCount, if_neg takes] at counted
    rw [if_pos need, if_pos need, words, countFrom_ok counted]
    simp
  · rw [if_neg need, if_neg need]

/-! ### Options -/

def CmdLineArg.withOpts (a : CmdLineArg) (argOpts : List String) : CmdLineArg := { a with argOpts }

/-- The options after more words were added. -/
def optionsAfter (flag : OptFlag) (argOpts : List String) (opts : List String) : List String :=
  match flag with
  | .none => argOpts
  | .overwrite => (opts.getLast?.map fun opt => [opt]).getD argOpts
  | .append => argOpts ++ opts

theorem optionsAfter_cons (flag : OptFlag) (argOpts : List String) (opt : String) (rest : List String) :
    optionsAfter flag (optionsAfter flag argOpts [opt]) rest = optionsAfter flag argOpts (opt :: rest) := by
  cases flag with
  | none => rfl
  | overwrite =>
    cases rest using List.reverseRecOn with
    | nil => rfl
    | append_singleton front last =>
      have final : (opt :: (front ++ [last])).getLast? = some last := by
        rw [← List.cons_append, List.getLast?_concat]
      simp only [optionsAfter, List.getLast?_concat, final, Option.map_some, Option.getD_some]
  | append => simp [optionsAfter]

theorem optionsAfter_nil (flag : OptFlag) (argOpts : List String) : optionsAfter flag argOpts [] = argOpts := by
  cases flag with
  | none => rfl
  | overwrite => rfl
  | append => exact List.append_nil argOpts

theorem addOpt_withOpts (a : CmdLineArg) (argOpts : List String) (opt : String) :
    (a.withOpts argOpts).addOpt opt = a.withOpts (optionsAfter a.optFlag argOpts [opt]) := by
  obtain ⟨_, _, flag, _, _, _, _, _⟩ := a
  cases flag with
  | none => rfl
  | overwrite => rfl
  | append => rfl

theorem foldl_addOpt (opts : List String) (a : CmdLineArg) (argOpts : List String) :
    opts.foldl CmdLineArg.addOpt (a.withOpts argOpts) = a.withOpts (optionsAfter a.optFlag argOpts opts) := by
  induction opts generalizing argOpts with
  | nil => rw [List.foldl_nil, optionsAfter_nil]
  | cons opt rest ih => rw [List.foldl_cons, addOpt_withOpts, ih, optionsAfter_cons]

theorem addOpts_ok (argStr : String) {opts : List String} (plain : ∀ opt ∈ opts, isArgName opt = false)
    (rest : List String) (a : CmdLineArg) :
    addOpts argStr opts.length (opts ++ rest) a = .ok (opts.foldl CmdLineArg.addOpt a) := by
  induction opts generalizing a with
  | nil => rfl
  | cons opt opts ih =>
    obtain ⟨here, later⟩ := List.forall_mem_cons.mp plain
    rw [List.length_cons, List.cons_append, addOpts, here, if_neg Bool.false_ne_true, ih later]
    rfl

theorem addOpts_error (argStr : String) {n : Nat} {rest : List String}
    (few : (rest.takeWhile fun word => !isArgName word).length < n) (a : CmdLineArg) :
    ∃ e, addOpts argStr n rest a = .error e := by
  induction rest generalizing n a with
  | nil =>
    cases n with
    | zero => cases few
    | succ n => exact ⟨_, rfl⟩
  | cons opt rest ih =>
    cases n with
    | zero => cases few
    | succ n =>
      rw [addOpts]
      by_cases name : isArgName opt = true
      · exact ⟨_, if_pos name⟩
      · rw [if_neg name]
        apply ih
        simpa [name] using few

/-! ### The table -/

namespace CmdLineArg

def HasName (a : CmdLineArg) (name : String) : Prop := name ≠ "" ∧ (a.shortArg = name ∨ a.longArg = name)

instance (a : CmdLineArg) (name : String) : Decidable (a.HasName name) :=
  inferInstanceAs (Decidable (_ ∧ (_ ∨ _)))

end CmdLineArg

/-- No name and no tag of two arguments. -/
def Distinct (args : List CmdLineArg) : Prop :=
  args.Pairwise fun a b => (∀ name, a.HasName name → ¬ b.HasName name) ∧ a.getTag ≠ b.getTag

theorem Distinct.tag_inj {args : List CmdLineArg} (distinct : Distinct args) {a b : CmdLineArg} (left : a ∈ args)
    (right : b ∈ args) (same : a.getTag = b.getTag) : a = b := by
  have apart : (args.map CmdLineArg.getTag).Nodup := List.pairwise_map.mpr (distinct.imp fun h => h.2)
  exact List.inj_on_of_nodup_map apart left right same

theorem getElem?_indexName (indexes : StringMap CmdLineArg) (arg : CmdLineArg) (name : String) :
    (indexName (indexName indexes arg.shortArg arg) arg.longArg arg)[name]? =
      if arg.HasName name then some arg else indexes[name]? := by
  have one : ∀ (indexes : StringMap CmdLineArg) (id : String),
      (indexName indexes id arg)[name]? = if name ≠ "" ∧ id = name then some arg else indexes[name]? := by
    intro indexes id
    unfold indexName
    by_cases empty : id = ""
    · rw [if_neg (not_not.mpr empty), if_neg]
      rintro ⟨named, rfl⟩
      exact named empty
    · rw [if_pos empty, StringMap.getElem?_insert]
      by_cases same : id = name
      · rw [if_pos same, if_pos ⟨same ▸ empty, same⟩]
      · rw [if_neg same, if_neg fun h => same h.2]
  rw [one, one]
  unfold CmdLineArg.HasName
  by_cases long : arg.longArg = name
  · by_cases named : name = ""
    · simp [named]
    · simp [long, named]
  · simp [long]

theorem argIndexes_from {args : List CmdLineArg} (distinct : Distinct args) (indexes : StringMap CmdLineArg)
    (name : String) {arg : CmdLineArg} :
    (args.foldl (fun indexes arg => indexName (indexName indexes arg.shortArg arg) arg.longArg arg) indexes)[name]? =
        some arg ↔
      (arg ∈ args ∧ arg.HasName name) ∨ ((∀ other ∈ args, ¬ other.HasName name) ∧ indexes[name]? = some arg) := by
  induction args generalizing indexes with
  | nil => simp
  | cons first rest ih =>
    obtain ⟨apart, distinct⟩ := List.pairwise_cons.mp distinct
    rw [List.foldl_cons, ih distinct, getElem?_indexName]
    by_cases here : first.HasName name
    · have none : ∀ other ∈ rest, ¬ other.HasName name := fun other member => (apart other member).1 name here
      simp only [here, if_true, Option.some.injEq, List.mem_cons]
      constructor
      · rintro (⟨member, named⟩ | ⟨-, rfl⟩)
        · exact absurd named (none arg member)
        · exact .inl ⟨.inl rfl, here⟩
      · rintro (⟨rfl | member, named⟩ | ⟨all, -⟩)
        · exact .inr ⟨none, rfl⟩
        · exact absurd named (none arg member)
        · exact absurd here (all first (.inl rfl))
    · rw [if_neg here]
      constructor
      · rintro (⟨member, named⟩ | ⟨all, read⟩)
        · exact .inl ⟨List.mem_cons_of_mem _ member, named⟩
        · exact .inr ⟨List.forall_mem_cons.mpr ⟨here, all⟩, read⟩
      · rintro (⟨member, named⟩ | ⟨all, read⟩)
        · rcases List.mem_cons.mp member with rfl | member
          · exact absurd named here
          · exact .inl ⟨member, named⟩
        · exact .inr ⟨(List.forall_mem_cons.mp all).2, read⟩

theorem argIndexes_iff {args : List CmdLineArg} (distinct : Distinct args) {name : String} {arg : CmdLineArg} :
    (argIndexes args)[name]? = some arg ↔ arg ∈ args ∧ arg.HasName name := by
  rw [argIndexes, argIndexes_from distinct]
  simp

theorem mandatoryIndexes_from (args : List CmdLineArg) (indexes : StringMap Bool) (tag : String) :
    (args.foldl (fun indexes arg => if arg.isMandatory then indexes.insert arg.getTag false else indexes)
      indexes)[tag]? =
      if ∃ arg ∈ args, arg.isMandatory = true ∧ arg.getTag = tag then some false else indexes[tag]? := by
  induction args generalizing indexes with
  | nil => simp
  | cons first rest ih =>
    rw [List.foldl_cons, ih]
    by_cases later : ∃ arg ∈ rest, arg.isMandatory = true ∧ arg.getTag = tag
    · simp [later]
    · by_cases mandatory : first.isMandatory = true
      · simp [later, mandatory]
      · simp [later, mandatory]

/-! ### What a command line is made of -/

/-- Getting to the words `rest` in argument position, past the arguments listed with the words that follow each. -/
inductive Reaches (args : List CmdLineArg) (line : List String) : List (CmdLineArg × List String) → List String → Prop where
  | start : Reaches args line [] line
  | past {occs : List (CmdLineArg × List String)} {arg : CmdLineArg} {name : String} {opts rest : List String}
      (before : Reaches args line occs (name :: (opts ++ rest))) (listed : arg ∈ args) (named : arg.HasName name)
      (usual : arg.isExclusive = false) (count : opts.length = arg.wordCount)
      (plain : ∀ opt ∈ opts, isArgName opt = false) : Reaches args line (occs ++ [(arg, opts)]) rest

def Unknown (args : List CmdLineArg) (rest : List String) : Prop :=
  ∃ name tail, rest = name :: tail ∧ ∀ arg ∈ args, ¬ arg.HasName name

/-- An argument with fewer words than its format has. -/
def Short (args : List CmdLineArg) (rest : List String) : Prop :=
  ∃ arg ∈ args, ∃ name tail, rest = name :: tail ∧ arg.HasName name ∧ arg.isExclusive = false ∧
    (tail.takeWhile fun word => !isArgName word).length < arg.wordCount

def Exclusive (args : List CmdLineArg) (rest : List String) : Prop :=
  ∃ arg ∈ args, ∃ name tail, rest = name :: tail ∧ arg.HasName name ∧ arg.isExclusive = true

def Lacking (args : List CmdLineArg) (occs : List (CmdLineArg × List String)) : Prop :=
  ∃ arg ∈ args, arg.isMandatory = true ∧ ∀ occ ∈ occs, occ.1 ≠ arg

/-- The words after an argument's occurrences. -/
def taken (occs : List (CmdLineArg × List String)) (tag : String) : List (List String) :=
  (occs.filter fun occ => occ.1.getTag = tag).map (·.2)

/-- The options an argument is to have. -/
def optionsOf (occs : List (CmdLineArg × List String)) (arg : CmdLineArg) : List String :=
  match arg.optFlag with
  | .none => []
  | .overwrite => (taken occs arg.getTag).getLast?.getD []
  | .append => (taken occs arg.getTag).flatten

theorem Reaches.occ {args : List CmdLineArg} {line rest : List String} {occs : List (CmdLineArg × List String)}
    (h : Reaches args line occs rest) : ∀ occ ∈ occs, occ.1 ∈ args ∧ occ.2.length = occ.1.wordCount := by
  induction h with
  | start => simp
  | past before listed named usual count plain ih =>
    intro occ member
    rcases List.mem_append.mp member with old | new
    · exact ih occ old
    · obtain rfl := List.mem_singleton.mp new
      exact ⟨listed, count⟩

/-- From every argument position the scan gets to an end. -/
theorem Reaches.ends {args : List CmdLineArg} {line rest : List String} {occs : List (CmdLineArg × List String)}
    (h : Reaches args line occs rest) :
    ∃ occs rest, Reaches args line occs rest ∧
      (rest = [] ∨ Unknown args rest ∨ Short args rest ∨ Exclusive args rest) := by
  induction size : rest.length using Nat.strong_induction_on generalizing occs rest with
  | _ size' ih =>
    subst size
    cases rest with
    | nil => exact ⟨occs, [], h, .inl rfl⟩
    | cons name tail =>
      by_cases known : ∃ arg ∈ args, arg.HasName name
      · obtain ⟨arg, listed, named⟩ := known
        by_cases exclusive : arg.isExclusive = true
        · exact ⟨occs, _, h, .inr (.inr (.inr ⟨arg, listed, name, tail, rfl, named, exclusive⟩))⟩
        · rw [Bool.not_eq_true] at exclusive
          by_cases few : (tail.takeWhile fun word => !isArgName word).length < arg.wordCount
          · exact ⟨occs, _, h, .inr (.inr (.inl ⟨arg, listed, name, tail, rfl, named, exclusive, few⟩))⟩
          · have fits : arg.wordCount ≤ (tail.takeWhile fun word => !isArgName word).length := by omega
            have prefixed := List.prefix_iff_eq_take.mp (List.takeWhile_prefix (l := tail) fun word => !isArgName word)
            have length : (tail.take arg.wordCount).length = arg.wordCount := by
              rw [List.length_take]
              have := (List.takeWhile_prefix (l := tail) fun word => !isArgName word).length_le
              omega
            have plain : ∀ opt ∈ tail.take arg.wordCount, isArgName opt = false := by
              intro opt member
              have inside : opt ∈ tail.takeWhile fun word => !isArgName word := by
                rw [prefixed]
                exact List.take_subset_take_left tail fits member
              simpa using List.mem_takeWhile_imp inside
            have whole : Reaches args line occs (name :: (tail.take arg.wordCount ++ tail.drop arg.wordCount)) := by
              rwa [List.take_append_drop]
            refine ih (tail.drop arg.wordCount).length ?_ (.past whole listed named exclusive length plain) rfl
            rw [List.length_drop, List.length_cons]
            omega
      · exact ⟨occs, _, h, .inr (.inl ⟨name, tail, rfl, fun arg listed named => known ⟨arg, listed, named⟩⟩)⟩

/-! ### The run of the parser -/

def Occurs (occs : List (CmdLineArg × List String)) (tag : String) : Prop := ∃ occ ∈ occs, occ.1.getTag = tag

instance (occs : List (CmdLineArg × List String)) (tag : String) : Decidable (Occurs occs tag) :=
  inferInstanceAs (Decidable (∃ occ ∈ occs, _))

theorem occurs_past {occs : List (CmdLineArg × List String)} {arg : CmdLineArg} {opts : List String} {tag : String} :
    Occurs (occs ++ [(arg, opts)]) tag ↔ Occurs occs tag ∨ arg.getTag = tag := by
  constructor
  · rintro ⟨occ, member, same⟩
    rcases List.mem_append.mp member with old | new
    · exact .inl ⟨occ, old, same⟩
    · obtain rfl := List.mem_singleton.mp new
      exact .inr same
  · rintro (⟨occ, member, same⟩ | same)
    · exact ⟨occ, List.mem_append_left _ member, same⟩
    · exact ⟨(arg, opts), List.mem_append_right _ List.mem_cons_self, same⟩

/-- What the parser holds after the arguments listed. -/
structure Recorded (args : List CmdLineArg) (occs : List (CmdLineArg × List String)) (presence : StringMap Bool)
    (actualArgs : StringMap CmdLineArg) : Prop where
  absent : ∀ tag, presence[tag]? = some false ↔
    (∃ arg ∈ args, arg.isMandatory = true ∧ arg.getTag = tag) ∧ ¬ Occurs occs tag
  entries : ∀ arg ∈ args, actualArgs[arg.getTag]? =
    if Occurs occs arg.getTag then
      some (arg.withOpts (optionsAfter arg.optFlag [] (taken occs arg.getTag).flatten))
    else none
  only : ∀ tag ∈ actualArgs, Occurs occs tag

theorem recorded_start (args : List CmdLineArg) : Recorded args [] (mandatoryIndexes args) ∅ := by
  have nothing : ∀ tag, ¬ Occurs [] tag := fun tag ⟨_, inside, _⟩ => nomatch inside
  refine ⟨fun tag => ?_, fun arg _ => ?_, fun tag member => absurd member Std.TreeMap.not_mem_emptyc⟩
  · rw [mandatoryIndexes, mandatoryIndexes_from, and_iff_left (nothing tag)]
    simp
  · rw [if_neg (nothing _)]
    simp

theorem optionsAfter_append (flag : OptFlag) (argOpts first second : List String) :
    optionsAfter flag (optionsAfter flag argOpts first) second = optionsAfter flag argOpts (first ++ second) := by
  induction first using List.reverseRecOn generalizing second with
  | nil => rw [optionsAfter_nil, List.nil_append]
  | append_singleton front last ih =>
    rw [← ih [last], optionsAfter_cons, ih, List.append_assoc, List.singleton_append]

theorem taken_past (occs : List (CmdLineArg × List String)) (arg : CmdLineArg) (opts : List String) (tag : String) :
    taken (occs ++ [(arg, opts)]) tag = if arg.getTag = tag then taken occs tag ++ [opts] else taken occs tag := by
  unfold taken
  rw [List.filter_append, List.map_append]
  by_cases same : arg.getTag = tag
  · simp [same]
  · simp [same]

theorem taken_none {occs : List (CmdLineArg × List String)} {tag : String}
    (none : ¬ Occurs occs tag) : taken occs tag = [] := by
  rw [taken, List.map_eq_nil_iff, List.filter_eq_nil_iff]
  exact fun occ member same => none ⟨occ, member, of_decide_eq_true same⟩

theorem Recorded.entry {args : List CmdLineArg} {occs : List (CmdLineArg × List String)} {presence : StringMap Bool}
    {actualArgs : StringMap CmdLineArg} (recorded : Recorded args occs presence actualArgs) {arg : CmdLineArg}
    (listed : arg ∈ args) :
    actualArgs[arg.getTag]?.getD arg.copy =
      arg.withOpts (optionsAfter arg.optFlag [] (taken occs arg.getTag).flatten) := by
  rw [recorded.entries arg listed]
  split
  · rfl
  · rename_i none
    rw [taken_none none, List.flatten_nil, optionsAfter_nil]
    rfl

theorem Recorded.past {args : List CmdLineArg} (distinct : Distinct args) {occs : List (CmdLineArg × List String)}
    {presence : StringMap Bool} {actualArgs : StringMap CmdLineArg}
    (recorded : Recorded args occs presence actualArgs) {arg : CmdLineArg} (listed : arg ∈ args) (opts : List String) :
    Recorded args (occs ++ [(arg, opts)]) (if arg.isMandatory then presence.insert arg.getTag true else presence)
      (actualArgs.insert arg.getTag
        (opts.foldl CmdLineArg.addOpt (actualArgs[arg.getTag]?.getD arg.copy))) := by
  constructor
  · intro tag
    have before := recorded.absent tag
    rw [occurs_past]
    by_cases mandatory : arg.isMandatory = true
    · rw [if_pos mandatory, StringMap.getElem?_insert]
      by_cases same : arg.getTag = tag
      · simp [same]
      · simp [same, before]
    · rw [if_neg mandatory, before]
      refine and_congr_right fun ⟨other, member, needed, same⟩ => ?_
      have different : arg.getTag ≠ tag := by
        intro equal
        rw [distinct.tag_inj listed member (equal.trans same.symm)] at mandatory
        exact mandatory needed
      simp [different]
  · intro other member
    rw [StringMap.getElem?_insert, taken_past]
    by_cases same : arg.getTag = other.getTag
    · obtain rfl := distinct.tag_inj listed member same
      rw [if_pos rfl, if_pos rfl, if_pos (occurs_past.mpr (.inr rfl)), recorded.entry listed, foldl_addOpt,
        optionsAfter_append, List.flatten_append, List.flatten_singleton]
    · rw [if_neg same, if_neg same, recorded.entries other member]
      simp only [occurs_past, same, or_false]
  · intro tag member
    rw [occurs_past]
    exact ((StringMap.mem_insert _ _ _ _).mp member).symm.imp_left (recorded.only tag)

theorem parseFrom_read (indexes : StringMap CmdLineArg) (opts rest : List String) (presence : StringMap Bool)
    (actualArgs : StringMap CmdLineArg) :
    parseFrom indexes (opts ++ rest) opts.length presence actualArgs = parseFrom indexes rest 0 presence actualArgs := by
  induction opts with
  | nil => rfl
  | cons opt opts ih =>
    rw [List.cons_append, List.length_cons, parseFrom]
    exact ih

/-- The entry of an argument takes as many words as the argument does. -/
theorem getOptions_eq (argStr : String) (rest : List String) (arg : CmdLineArg) (argOpts : List String) :
    getOptions argStr rest (arg.withOpts argOpts) = addOpts argStr arg.wordCount rest (arg.withOpts argOpts) := by
  rw [← arg.optCount_eq, getOptions]
  by_cases need : arg.needOpt = true
  · rw [if_pos need]
    exact if_pos need
  · rw [if_neg need]
    exact if_neg need

/-- Past an argument and its words the parser goes on as from there. -/
theorem Reaches.run {args : List CmdLineArg} (distinct : Distinct args) {line rest : List String}
    {occs : List (CmdLineArg × List String)} (h : Reaches args line occs rest) :
    ∃ presence actualArgs, Recorded args occs presence actualArgs ∧
      parseFrom (argIndexes args) line 0 (mandatoryIndexes args) ∅ =
        parseFrom (argIndexes args) rest 0 presence actualArgs := by
  induction h with
  | start => exact ⟨_, _, recorded_start args, rfl⟩
  | @past occs arg name opts rest before listed named usual count plain ih =>
    obtain ⟨presence, actualArgs, recorded, run⟩ := ih
    refine ⟨_, _, recorded.past distinct listed opts, run.trans ?_⟩
    rw [parseFrom, (argIndexes_iff distinct).mpr ⟨listed, named⟩]
    simp only [usual, Bool.false_eq_true, if_false]
    rw [recorded.entry listed, getOptions_eq, ← count, addOpts_ok name plain rest, foldl_addOpt]
    simp only [bind, Except.bind]
    rw [← parseFrom_read (argIndexes args) opts rest, count, ← arg.optCount_eq]
    rfl

/-! ### Where the parser ends -/

theorem parseFrom_unknown {args : List CmdLineArg} (distinct : Distinct args) {rest : List String}
    (unknown : Unknown args rest) (presence : StringMap Bool) (actualArgs : StringMap CmdLineArg) :
    ∃ e, parseFrom (argIndexes args) rest 0 presence actualArgs = .error e := by
  obtain ⟨name, tail, rfl, none⟩ := unknown
  have missing : (argIndexes args)[name]? = Option.none := by
    apply Option.eq_none_iff_forall_ne_some.mpr
    intro arg read
    obtain ⟨listed, named⟩ := (argIndexes_iff distinct).mp read
    exact none arg listed named
  rw [parseFrom, missing]
  exact ⟨_, rfl⟩

theorem parseFrom_short {args : List CmdLineArg} (distinct : Distinct args) {rest : List String}
    {occs : List (CmdLineArg × List String)} {presence : StringMap Bool} {actualArgs : StringMap CmdLineArg}
    (recorded : Recorded args occs presence actualArgs) (short : Short args rest) :
    ∃ e, parseFrom (argIndexes args) rest 0 presence actualArgs = .error e := by
  obtain ⟨arg, listed, name, tail, rfl, named, usual, few⟩ := short
  obtain ⟨e, failed⟩ := addOpts_error name few
    (arg.withOpts (optionsAfter arg.optFlag [] (taken occs arg.getTag).flatten))
  rw [parseFrom, (argIndexes_iff distinct).mpr ⟨listed, named⟩]
  simp only [usual, Bool.false_eq_true, if_false]
  rw [recorded.entry listed, getOptions_eq, failed]
  exact ⟨e, rfl⟩

theorem parseFrom_exclusive {args : List CmdLineArg} (distinct : Distinct args) {rest : List String}
    (exclusive : Exclusive args rest) (presence : StringMap Bool) (actualArgs : StringMap CmdLineArg) :
    ∃ result, parseFrom (argIndexes args) rest 0 presence actualArgs = .ok result := by
  obtain ⟨arg, listed, name, tail, rfl, named, alone⟩ := exclusive
  rw [parseFrom, (argIndexes_iff distinct).mpr ⟨listed, named⟩]
  simp only [alone, if_true]
  exact ⟨_, rfl⟩

theorem checkMandatory_cases (presence : StringMap Bool) :
    (checkMandatory presence = .ok () ∧ ∀ tag : String, presence[tag]? ≠ some false) ∨
      ((∃ e, checkMandatory presence = .error e) ∧ ∃ tag : String, presence[tag]? = some false) := by
  unfold checkMandatory
  cases found : presence.toList.find? fun m => m.2 = false with
  | none =>
    refine .inl ⟨rfl, fun tag read => ?_⟩
    have listed := Std.TreeMap.mem_toList_iff_getElem?_eq_some.mpr read
    simpa using List.find?_eq_none.mp found _ listed
  | some m =>
    obtain ⟨tag, value⟩ := m
    have missing : value = false := by simpa using List.find?_some found
    subst missing
    exact .inr ⟨⟨_, rfl⟩, tag, Std.TreeMap.mem_toList_iff_getElem?_eq_some.mp (List.mem_of_find?_eq_some found)⟩

theorem Recorded.lacking_iff {args : List CmdLineArg} (distinct : Distinct args)
    {occs : List (CmdLineArg × List String)} {presence : StringMap Bool} {actualArgs : StringMap CmdLineArg}
    (recorded : Recorded args occs presence actualArgs) (listed : ∀ occ ∈ occs, occ.1 ∈ args) :
    (∃ tag : String, presence[tag]? = some false) ↔ Lacking args occs := by
  constructor
  · rintro ⟨tag, read⟩
    obtain ⟨⟨arg, member, mandatory, rfl⟩, never⟩ := (recorded.absent tag).mp read
    exact ⟨arg, member, mandatory, fun occ inside same => never ⟨occ, inside, by rw [same]⟩⟩
  · rintro ⟨arg, member, mandatory, never⟩
    refine ⟨arg.getTag, (recorded.absent _).mpr ⟨⟨arg, member, mandatory, rfl⟩, ?_⟩⟩
    rintro ⟨occ, inside, same⟩
    exact never occ inside (distinct.tag_inj (listed occ inside) member same)

/-- At the end of the line the parser returns what it holds, where nothing is lacking. -/
theorem Reaches.parse_end {args : List CmdLineArg} (distinct : Distinct args) {argv : List String}
    {occs : List (CmdLineArg × List String)} (h : Reaches args argv.tail occs []) :
    ((∃ e, parse args argv = .error e) ∧ Lacking args occs) ∨
      ∃ presence actualArgs, Recorded args occs presence actualArgs ∧ parse args argv = .ok actualArgs ∧
        ¬ Lacking args occs := by
  obtain ⟨presence, actualArgs, recorded, run⟩ := h.run distinct
  have lacking := recorded.lacking_iff distinct fun occ inside => (h.occ occ inside).1
  rw [parse, run, parseFrom]
  rcases checkMandatory_cases presence with ⟨passed, all⟩ | ⟨⟨e, failed⟩, some⟩
  · rw [passed, ← lacking]
    exact .inr ⟨presence, actualArgs, recorded, rfl, fun ⟨tag, read⟩ => all tag read⟩
  · rw [failed]
    exact .inl ⟨⟨e, rfl⟩, lacking.mp some⟩

/-! ### The command line as a whole -/

/-- Why a line is refused. -/
def Rejected (args : List CmdLineArg) (line : List String) : Prop :=
  ∃ occs rest, Reaches args line occs rest ∧
    (Unknown args rest ∨ Short args rest ∨ (rest = [] ∧ Lacking args occs))

/-- A line is refused for one of the three reasons only, and otherwise each argument that is present has the options
it is to have, unless an exclusive argument was met. -/
def Parses (args : List CmdLineArg) (argv : List String) : Prop :=
  ((∃ e, parse args argv = .error e) ↔ Rejected args argv.tail) ∧
  ∀ actualArgs occs, parse args argv = .ok actualArgs → Reaches args argv.tail occs [] →
    (∀ tag, tag ∈ actualArgs ↔ ∃ occ ∈ occs, occ.1.getTag = tag) ∧
    ∀ occ ∈ occs, ∃ arg, actualArgs[occ.1.getTag]? = some arg ∧ arg.argOpts = optionsOf occs occ.1

theorem parse_error_iff {args : List CmdLineArg} (distinct : Distinct args) (argv : List String) :
    (∃ e, parse args argv = .error e) ↔ Rejected args argv.tail := by
  constructor
  · rintro ⟨e, failed⟩
    obtain ⟨occs, rest, reaches, rfl | unknown | short | exclusive⟩ :=
      (Reaches.start : Reaches args argv.tail [] argv.tail).ends
    · rcases reaches.parse_end distinct with ⟨-, lacking⟩ | ⟨_, actualArgs, -, run, -⟩
      · exact ⟨occs, [], reaches, .inr (.inr ⟨rfl, lacking⟩)⟩
      · rw [run] at failed
        cases failed
    · exact ⟨occs, rest, reaches, .inl unknown⟩
    · exact ⟨occs, rest, reaches, .inr (.inl short)⟩
    · obtain ⟨presence, actualArgs, -, run⟩ := reaches.run distinct
      obtain ⟨result, ended⟩ := parseFrom_exclusive distinct exclusive presence actualArgs
      rw [parse, run, ended] at failed
      cases failed
  · rintro ⟨occs, rest, reaches, reason⟩
    obtain ⟨presence, actualArgs, recorded, run⟩ := reaches.run distinct
    rcases reason with unknown | short | ⟨rfl, lacking⟩
    · rw [parse, run]
      exact parseFrom_unknown distinct unknown presence actualArgs
    · rw [parse, run]
      exact parseFrom_short distinct recorded short
    · rcases reaches.parse_end distinct with ⟨failed, -⟩ | ⟨_, _, -, -, complete⟩
      · exact failed
      · exact absurd lacking complete

/-! ### Options that are kept -/

theorem last_word_iff {pieces : List (List String)} (some : pieces ≠ []) {n : Nat}
    (count : ∀ piece ∈ pieces, piece.length = n) :
    optionsAfter .overwrite [] pieces.flatten = pieces.getLast?.getD [] ↔ n ≤ 1 := by
  obtain ⟨front, last, rfl⟩ := List.eq_nil_or_concat pieces |>.resolve_left some
  rw [List.concat_eq_append] at count ⊢
  have length := count last (by simp)
  rw [List.getLast?_concat, Option.getD_some]
  constructor
  · intro same
    rw [← length, ← same, optionsAfter]
    cases (front ++ [last]).flatten.getLast? <;> simp
  · intro few
    rw [optionsAfter]
    cases last with
    | nil =>
      have empty : (front ++ [[]]).flatten = [] := by
        apply List.flatten_eq_nil_iff.mpr
        intro piece member
        exact List.length_eq_zero_iff.mp ((count piece member).trans length.symm)
      rw [empty]
      rfl
    | cons word rest =>
      have single : rest = [] := by
        rw [List.length_cons] at length
        exact List.length_eq_zero_iff.mp (by omega)
      rw [single, List.flatten_append, List.flatten_singleton, List.getLast?_concat]
      rfl

theorem options_iff {args : List CmdLineArg} (distinct : Distinct args) {line rest : List String}
    {occs : List (CmdLineArg × List String)} (h : Reaches args line occs rest) {occ : CmdLineArg × List String}
    (present : occ ∈ occs) :
    optionsAfter occ.1.optFlag [] (taken occs occ.1.getTag).flatten = optionsOf occs occ.1 ↔
      (occ.1.optFlag = .overwrite → occ.1.wordCount ≤ 1) := by
  have taken_ne : taken occs occ.1.getTag ≠ [] := by
    apply List.ne_nil_of_mem
    exact List.mem_map_of_mem (List.mem_filter.mpr ⟨present, by simp⟩)
  have count : ∀ piece ∈ taken occs occ.1.getTag, piece.length = occ.1.wordCount := by
    intro piece member
    obtain ⟨other, inside, rfl⟩ := List.mem_map.mp member
    obtain ⟨inside, same⟩ := List.mem_filter.mp inside
    obtain ⟨listed, length⟩ := h.occ other inside
    rwa [distinct.tag_inj listed (h.occ occ present).1 (of_decide_eq_true same)] at length
  unfold optionsOf
  cases flag : occ.1.optFlag with
  | none => simp [optionsAfter]
  | append => simp [optionsAfter]
  | overwrite => simpa using last_word_iff taken_ne count

theorem Reaches.ended {args : List CmdLineArg} (distinct : Distinct args) {argv : List String}
    {occs : List (CmdLineArg × List String)} (h : Reaches args argv.tail occs []) (complete : ¬ Lacking args occs) :
    ∃ actualArgs, parse args argv = .ok actualArgs ∧
      (∀ tag, tag ∈ actualArgs ↔ ∃ occ ∈ occs, occ.1.getTag = tag) ∧
      ((∀ occ ∈ occs, ∃ arg, actualArgs[occ.1.getTag]? = some arg ∧ arg.argOpts = optionsOf occs occ.1) ↔
        ∀ occ ∈ occs, occ.1.optFlag = .overwrite → occ.1.wordCount ≤ 1) := by
  rcases h.parse_end distinct with ⟨-, lacking⟩ | ⟨presence, actualArgs, recorded, run, -⟩
  · exact absurd lacking complete
  · have entry : ∀ occ ∈ occs, actualArgs[occ.1.getTag]? =
        some (occ.1.withOpts (optionsAfter occ.1.optFlag [] (taken occs occ.1.getTag).flatten)) := by
      intro occ present
      rw [recorded.entries occ.1 (h.occ occ present).1, if_pos ⟨occ, present, rfl⟩]
    refine ⟨actualArgs, run, fun tag => ⟨recorded.only tag, ?_⟩, ?_⟩
    · rintro ⟨occ, present, rfl⟩
      exact StringMap.mem_iff.mpr ⟨_, entry occ present⟩
    · refine forall₂_congr fun occ present => ?_
      rw [← options_iff distinct h present, entry occ present]
      simp [CmdLineArg.withOpts]

/-- The parser is right exactly where no argument that overwrites has a format of several words. -/
theorem parses_iff (args : List CmdLineArg) (distinct : Distinct args) (argv : List String) :
    Parses args argv ↔ ∀ occs, Reaches args argv.tail occs [] → ¬ Lacking args occs →
      ∀ occ ∈ occs, occ.1.optFlag = .overwrite → occ.1.wordCount ≤ 1 := by
  rw [Parses, and_iff_right (parse_error_iff distinct argv)]
  constructor
  · intro right occs reaches complete
    obtain ⟨actualArgs, run, -, iff⟩ := reaches.ended distinct complete
    exact iff.mp (right actualArgs occs run reaches).2
  · intro few actualArgs occs run reaches
    by_cases lacking : Lacking args occs
    · rcases reaches.parse_end distinct with ⟨⟨e, failed⟩, -⟩ | ⟨_, _, -, -, complete⟩
      · rw [run] at failed
        cases failed
      · exact absurd lacking complete
    · obtain ⟨result, run', present, iff⟩ := reaches.ended distinct lacking
      obtain rfl := Except.ok.inj (run.symm.trans run')
      exact ⟨present, iff.mpr (few occs reaches lacking)⟩

def datArg : CmdLineArg := ⟨"-d", "--dat", .overwrite, "<file>", .mandatory, [], 1, rfl⟩
def helpArg : CmdLineArg := ⟨"-h", "--help", .none, "", .exclusive, [], 0, rfl⟩
def pairArg : CmdLineArg := ⟨"-p", "--pair", .overwrite, "<first> <second>", .normal, [], 2, rfl⟩

theorem distinct_datArg : Distinct [datArg, helpArg] := by
  refine .cons ?_ (List.pairwise_singleton ..)
  intro b member
  obtain rfl := List.mem_singleton.mp member
  refine ⟨?_, by decide⟩
  rintro name ⟨-, rfl | rfl⟩
  · decide
  · decide

theorem parses_iff_datArg : Parses [datArg, helpArg] ["tool", "-d", "dat.json", "-d", "other.json"] := by
  refine (parses_iff _ distinct_datArg _).mpr fun occs reaches _ occ present overwrites => ?_
  have single : ∀ arg ∈ [datArg, helpArg], arg.optFlag = .overwrite → arg.wordCount ≤ 1 := by decide
  exact single occ.1 (reaches.occ occ present).1 overwrites

/-- Of the two words only the second one is kept. -/
theorem not_parses_pairArg : ¬ Parses [pairArg] ["tool", "-p", "x", "y"] := by
  intro right
  have distinct : Distinct [pairArg] := List.pairwise_singleton ..
  have begun : Reaches [pairArg] ["tool", "-p", "x", "y"].tail [] ("-p" :: (["x", "y"] ++ [])) := .start
  have reaches : Reaches [pairArg] ["tool", "-p", "x", "y"].tail [(pairArg, ["x", "y"])] [] :=
    begun.past List.mem_cons_self (by decide) rfl rfl (by decide)
  have complete : ¬ Lacking [pairArg] [(pairArg, ["x", "y"])] := by
    rintro ⟨arg, member, mandatory, -⟩
    obtain rfl := List.mem_singleton.mp member
    cases mandatory
  obtain ⟨actualArgs, run, -, iff⟩ := reaches.ended distinct complete
  have few := iff.mp (right.2 actualArgs _ run reaches).2 _ List.mem_cons_self rfl
  exact absurd few (by decide)

end MonitorEventing.CmdLine
