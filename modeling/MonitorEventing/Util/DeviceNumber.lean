import MonitorEventing.Lib.Regex
import MonitorEventing.Accessor.Numerals
import MonitorEventing.DeviceId.DeviceUtil
import MonitorEventing.Detection.IsEvent

/-!
# The number in a device name

`getDeviceId` looks for the numbers of a range in a device name, from the highest down. Without a range it
takes the one in the text of the regular expression for device names, so it looks for single digits only.
-/

namespace MonitorEventing.Util
open DeviceId Regex
open Accessor (decimalNumber signedNumber magnitudeOf decimalNumber_eq_some_iff)
open Detection (stoi)

/-- What '.' matches. -/
def isAny (c : Char) : Bool := !(c == '\n' || c == '\r')

/-- `.*(\[[0-9]*\-*[0-9]*\]).*` -/
def rangeRegxStr : Row Char where
  before := [.star isAny]
  group := [.one (· == '['), .star Char.isDigit, .star (· == '-'), .star Char.isDigit, .one (· == ']')]
  after := [.star isAny]

/-- The regular expression that matches "GPU2", "GPU5-ERoT", "NVSwitch2", as a text. -/
def deviceRangeRegx : String := ".*([0-9]+)$|.*([0-9]+)\\-.*"

/-- The last group that is not empty; the whole match counts as the first group. -/
def matchedRegx (str : String) (rgx : Row Char) : String :=
  match rgx.search str.toList with
  | some found => String.ofList (if found.group = [] then found.whole else found.group)
  | none => ""

/-- `std::stoi`. Nobody tells its exceptions apart. -/
def stoiOrThrow (text : List Char) : Except Exn Int := (stoi (String.ofList text)).elim (.error .outOfRange) .ok

/-- The range in a text, with its brackets. -/
def rangeIn (rgx : String) : String :=
  if rgx.toList.head? = some '[' ∧ rgx.toList.getLast? = some ']' then rgx else matchedRegx rgx rangeRegxStr

/-- The two ends of the range, where there are two, and the range. -/
def getMinMaxRange (rgx : String) : Except Exn (List Int × String) :=
  if rangeIn rgx = "" then pure ([], rangeIn rgx)
  else
    match split ['-'] (rangeIn rgx).toList.dropLast.tail with
    | [low, high] => do
      let min ← stoiOrThrow low
      let max ← stoiOrThrow high
      pure ([min, max], rangeIn rgx)
    | _ => pure ([], rangeIn rgx)

def occurs (deviceName : String) (counter : Int) : Bool :=
  Text.occursIn (toString counter).toList deviceName.toList

/-- The loop from the highest value down to the lowest. -/
def highestIn (deviceName : String) (min max : Int) : Option Int :=
  ((List.range (max - min + 1).toNat).map fun k : Nat => max - (k : Int)).find? (occurs deviceName)

def getDeviceId (deviceName range : String) : Except Exn Int := do
  let (minMax, _) ← getMinMaxRange (if range = "" then deviceRangeRegx else range)
  let ret : Int := if range = "" then 0 else -1
  match minMax with
  | [min, max] => pure ((highestIn deviceName min max).getD ret)
  | _ => pure ret

/-! ### The range -/

def bracket (low high : Nat) : String := "[" ++ toString low ++ "-" ++ toString high ++ "]"

theorem toList_bracket (low high : Nat) : (bracket low high).toList =
    '[' :: (Nat.toDigits 10 low ++ '-' :: (Nat.toDigits 10 high ++ [']'])) := by
  simp [bracket]

theorem bracket_ne (low high : Nat) : bracket low high ≠ "" := by
  rw [ne_eq, ← String.toList_inj, toList_bracket]
  exact List.cons_ne_nil _ _

theorem stoi_eq (text : String) :
    stoi text = (decimalNumber text.toList).bind fun value => (Detection.intResult value).toOption := by
  unfold stoi decimalNumber signedNumber magnitudeOf
  dsimp only
  rw [apply_ite (Option.map _), apply_ite fun number : Option Int => number.bind _]
  rfl

theorem stoiOrThrow_toDigits {n : Nat} (small : n < 2 ^ 31) : stoiOrThrow (Nat.toDigits 10 n) = .ok (n : Int) := by
  have digits : ∀ c ∈ Nat.toDigits 10 n, c.isDigit = true := fun c member => Text.isDigit_of_mem_toDigits member
  have read : decimalNumber (Nat.toDigits 10 n) = some (n : Int) := by
    rw [decimalNumber_eq_some_iff]
    refine ⟨[], [], Nat.toDigits 10 n, Nat.toDigits 10 n, [], rfl, nofun, by simp, Text.starts_of_all digits,
      Nat.toDigits_ne_nil, ?_⟩
    rw [if_neg (by decide), Nat.ofDigitChars_ten_toDigits]
  rw [stoiOrThrow, stoi_eq, String.toList_ofList, read, Option.bind_some, Detection.intResult_ok (by omega) (by omega)]
  rfl

theorem highestIn_eq_some_iff {deviceName : String} {min max z : Int} : highestIn deviceName min max = some z ↔
    min ≤ z ∧ z ≤ max ∧ occurs deviceName z = true ∧ ∀ y, z < y → y ≤ max → occurs deviceName y = false := by
  rw [highestIn, List.find?_map, Option.map_eq_some_iff]
  simp only [List.find?_range_eq_some, List.mem_range, Function.comp_apply, Bool.not_eq_true']
  constructor
  · intro found
    obtain ⟨k, ⟨here, inside, above⟩, rfl⟩ := found
    refine ⟨by omega, by omega, here, fun y more bounded => ?_⟩
    have missed := above (max - y).toNat (by omega)
    rwa [show max - ((max - y).toNat : Int) = y by omega] at missed
  · intro found
    obtain ⟨low, high, here, above⟩ := found
    refine ⟨(max - z).toNat, ⟨?_, by omega, fun j less => above _ (by omega) (by omega)⟩, by omega⟩
    rwa [show max - ((max - z).toNat : Int) = z by omega]

theorem matchedRegx_eq {str : String} {rgx : Row Char} {found : Found Char} (searched : rgx.search str.toList = some found)
    (grouped : found.group ≠ []) : matchedRegx str rgx = String.ofList found.group := by
  rw [matchedRegx, searched]
  dsimp only
  rw [if_neg grouped]

theorem digits_head (n : Nat) (rest : List Char) : ∀ c ∈ (Nat.toDigits 10 n ++ rest).head?, c.isDigit = true := by
  obtain ⟨first, more, text⟩ := List.exists_cons_of_ne_nil (@Nat.toDigits_ne_nil n 10)
  intro c head
  rw [text, List.cons_append, List.head?_cons, Option.mem_some_iff] at head
  apply Text.isDigit_of_mem_toDigits (n := n)
  rw [text, head]
  exact List.mem_cons_self

section
variable {β : Type} {next : List Char → Option β}

theorem group_bracket {low high : Nat} {after : List Char} {b : β} (found : next after = some b) :
    matchThen rangeRegxStr.group next ((bracket low high).toList ++ after) = some b := by
  have digits : ∀ n, ∀ c ∈ Nat.toDigits 10 n, c.isDigit = true := fun n c member => Text.isDigit_of_mem_toDigits member
  have dashed : ∀ c ∈ (Nat.toDigits 10 high ++ ']' :: after).head?, (c == '-') = false := by
    intro c head
    rw [beq_eq_false_iff_ne]
    rintro rfl
    exact absurd (digits_head high _ _ head) (by decide)
  have text : (bracket low high).toList ++ after =
      '[' :: (Nat.toDigits 10 low ++ (['-'] ++ (Nat.toDigits 10 high ++ ']' :: after))) := by
    simp [toList_bracket]
  rw [text, rangeRegxStr, matchThen, if_pos (by decide)]
  refine starThen_greedy (digits low) (by simp) ?_
  refine starThen_greedy (by simp) dashed ?_
  refine starThen_greedy (digits high) (by simp) ?_
  rw [matchThen, if_pos (by decide)]
  exact found

theorem group_elsewhere {text : List Char} (other : text.head? ≠ some '[') :
    matchThen rangeRegxStr.group next text = none := by
  cases text with
  | nil => rfl
  | cons c text =>
    rw [List.head?_cons, ne_eq, Option.some.injEq] at other
    rw [rangeRegxStr, matchThen, if_neg (by simpa using other)]

theorem tail_bracket {low high : Nat} {after : List Char} (last : '[' ∉ after) :
    '[' ∉ ((bracket low high).toList ++ after).tail := by
  have digits : ∀ n, '[' ∉ Nat.toDigits 10 n := fun n member =>
    absurd (Text.isDigit_of_mem_toDigits member) (by decide)
  simp [toList_bracket, digits, last]

/-- The last range in a line of text is where the group ends up. -/
theorem scan_last {before after : List Char} {low high : Nat} (line : ∀ c ∈ before, isAny c = true)
    (last : '[' ∉ after) (take : List Char → List Char → List Char → β) :
    ∃ rest, starThen isAny (fun start => matchThen rangeRegxStr.group (fun stop => starThen isAny (fun rest =>
      some (take start stop rest)) stop) start) (before ++ ((bracket low high).toList ++ after)) =
        some (take ((bracket low high).toList ++ after) after rest) := by
  have total : (starThen isAny (fun rest => some (take ((bracket low high).toList ++ after) after rest)) after).isSome =
      true := starThen_total (fun _ => rfl) after
  obtain ⟨b, found⟩ := Option.isSome_iff_exists.mp total
  obtain ⟨_, rest, _, _, same⟩ := starThen_sound found
  refine ⟨rest, same ▸ starThen_last line (group_bracket found) ?_⟩
  intro later suffix
  apply group_elsewhere
  intro head
  exact tail_bracket last (suffix.mem (List.mem_of_mem_head? head))

end

theorem matchAt_rangeRegxStr (text : List Char) : rangeRegxStr.matchAt text =
    starThen isAny (fun start => matchThen rangeRegxStr.group (fun stop => starThen isAny (fun rest =>
      some ⟨text.take (text.length - rest.length), start.take (start.length - stop.length)⟩) stop) start) text := rfl

theorem matchedRegx_last {before after : List Char} {low high : Nat} (line : ∀ c ∈ before, isAny c = true)
    (last : '[' ∉ after) :
    matchedRegx (String.ofList (before ++ ((bracket low high).toList ++ after))) rangeRegxStr = bracket low high := by
  let text := before ++ ((bracket low high).toList ++ after)
  obtain ⟨rest, found⟩ := @scan_last _ before after low high line last fun start stop rest =>
    Found.mk (text.take (text.length - rest.length)) (start.take (start.length - stop.length))
  rw [take_matched, ← matchAt_rangeRegxStr] at found
  rw [matchedRegx_eq (by rw [String.toList_ofList]; exact Row.search_here found), String.ofList_toList]
  rw [toList_bracket]
  exact List.cons_ne_nil _ _

theorem rangeIn_bracket (low high : Nat) : rangeIn (bracket low high) = bracket low high := by
  apply if_pos
  simp [toList_bracket, List.getLast?_cons, List.getLast?_append]

theorem rangeIn_deviceRangeRegx : rangeIn deviceRangeRegx = bracket 0 9 := by
  have first : deviceRangeRegx.toList.head? = some '.' := rfl
  have text : deviceRangeRegx =
      String.ofList (".*([0-9]+)$|.*(".toList ++ ((bracket 0 9).toList ++ "+)\\-.*".toList)) := by decide
  rw [rangeIn, first, if_neg (by simp), text]
  exact matchedRegx_last (by simp [isAny]) (by simp)

theorem getMinMaxRange_bracket {rgx : String} {low high : Nat} (range : rangeIn rgx = bracket low high)
    (smallLow : low < 2 ^ 31) (smallHigh : high < 2 ^ 31) :
    getMinMaxRange rgx = .ok ([(low : Int), (high : Int)], bracket low high) := by
  have pieces : split ['-'] (bracket low high).toList.dropLast.tail = [Nat.toDigits 10 low, Nat.toDigits 10 high] := by
    have free : ∀ n, Text.Free (fun c => ['-'].contains c) (Nat.toDigits 10 n) := by
      intro n c member
      have digit := Text.isDigit_of_mem_toDigits member
      simp only [List.contains_eq_mem, List.mem_singleton, decide_eq_false_iff_not]
      rintro rfl
      cases digit
    rw [split, Text.splitOnP_eq_pair_iff]
    refine ⟨'-', by decide, ?_, free low, free high⟩
    simp [toList_bracket, List.dropLast_cons_of_ne_nil]
  rw [getMinMaxRange, range, if_neg (bracket_ne low high), pieces]
  simp only [stoiOrThrow_toDigits smallLow, stoiOrThrow_toDigits smallHigh]
  rfl

/-- A range given as "[low-high]". -/
theorem getDeviceId_bracket {low high : Nat} (deviceName : String) (smallLow : low < 2 ^ 31) (smallHigh : high < 2 ^ 31) :
    getDeviceId deviceName (bracket low high) = .ok ((highestIn deviceName low high).getD (-1)) := by
  have given : bracket low high ≠ "" := bracket_ne low high
  rw [getDeviceId, if_neg given, if_neg given,
    getMinMaxRange_bracket (rangeIn_bracket low high) smallLow smallHigh]
  rfl

theorem getDeviceId_noRange (deviceName : String) :
    getDeviceId deviceName "" = .ok ((highestIn deviceName (0 : Nat) (9 : Nat)).getD 0) := by
  rw [getDeviceId, if_pos rfl, if_pos rfl, getMinMaxRange_bracket rangeIn_deviceRangeRegx (by decide) (by decide)]
  rfl

theorem getDeviceId_default (deviceName : String) :
    getDeviceId deviceName "" = .ok (DeviceUtil.getDeviceId deviceName : Int) := by
  have counters : (List.range ((9 : Nat) - (0 : Nat) + 1 : Int).toNat).map (fun k : Nat => ((9 : Nat) : Int) - (k : Int)) =
      (List.range 10).reverse.map fun n : Nat => (n : Int) := by decide
  rw [getDeviceId_noRange, highestIn, counters, List.find?_map, DeviceUtil.getDeviceId]
  exact congrArg Except.ok (Option.getD_map (fun n : Nat => (n : Int)) 0 _)

/-! ### Numbered names -/

/-- "GPU5", or "GPU6-ERoT" with a suffix. -/
def numbered (stem : String) (n : Nat) (suffix : Option String) : String :=
  stem ++ toString n ++ suffix.elim "" ("-" ++ ·)

def Plain (text : String) : Prop := ∀ c ∈ text.toList, c.isDigit = false

theorem mem_numbered {stem : String} {n : Nat} {suffix : Option String} (plain : Plain stem)
    (plainSuffix : ∀ text ∈ suffix, Plain text) {c : Char} (digit : c.isDigit = true) :
    c ∈ (numbered stem n suffix).toList ↔ c ∈ Nat.toDigits 10 n := by
  have outside : ∀ text, Plain text → c ∉ text.toList := by
    intro text plain member
    rw [plain c member] at digit
    cases digit
  have behind : c ∉ (suffix.elim "" ("-" ++ ·)).toList := by
    cases suffix with
    | none => exact List.not_mem_nil
    | some text =>
      have dash : c ≠ '-' := by rintro rfl; cases digit
      simp [dash, outside text (plainSuffix text rfl)]
  simp [numbered, outside stem plain, behind]

theorem occurs_digit {d : Nat} (small : d < 10) (deviceName : String) :
    occurs deviceName d = true ↔ Nat.digitChar d ∈ deviceName.toList := by
  have digits : (toString (d : Int)).toList = [Nat.digitChar d] :=
    Nat.toList_repr.trans (Nat.toDigits_of_lt_base small)
  rw [occurs, digits, Text.occursIn_iff, List.singleton_infix_iff]

theorem highest_lt (deviceName : String) : (highestIn deviceName (0 : Nat) (9 : Nat)).getD 0 < 10 := by
  cases found : highestIn deviceName (0 : Nat) (9 : Nat) with
  | none => decide
  | some z =>
    have bounded := (highestIn_eq_some_iff.mp found).2.1
    exact Int.lt_of_le_of_lt bounded (by decide)

/-- A name with one digit, however often. -/
theorem highest_digit {deviceName : String} {n : Nat} (small : n < 10)
    (only : ∀ d < 10, Nat.digitChar d ∈ deviceName.toList ↔ d = n) :
    highestIn deviceName (0 : Nat) (9 : Nat) = some (n : Int) := by
  refine highestIn_eq_some_iff.mpr ⟨by omega, by omega, ?_, fun y more bounded => ?_⟩
  · exact (occurs_digit small deviceName).mpr ((only n small).mpr rfl)
  · obtain ⟨d, rfl⟩ := Int.eq_ofNat_of_zero_le (show 0 ≤ y by omega)
    have smallD : d < 10 := by omega
    rw [Bool.eq_false_iff, ne_eq, occurs_digit smallD, only d smallD]
    omega

theorem digitChar_inj {d n : Nat} (smallD : d < 10) (small : n < 10) : Nat.digitChar d = Nat.digitChar n ↔ d = n := by
  have each : ∀ d n : Fin 10, Nat.digitChar d.val = Nat.digitChar n.val ↔ d.val = n.val := by decide
  exact each ⟨d, smallD⟩ ⟨n, small⟩

/-- The number of a device is found exactly for one digit. -/
theorem getDeviceId_numbered_iff {stem : String} {suffix : Option String} (n : Nat) (plain : Plain stem)
    (plainSuffix : ∀ text ∈ suffix, Plain text) :
    getDeviceId (numbered stem n suffix) "" = .ok (n : Int) ↔ n < 10 := by
  rw [getDeviceId_noRange, Except.ok.injEq]
  constructor
  · intro same
    have bounded := highest_lt (numbered stem n suffix)
    omega
  · intro small
    rw [highest_digit small fun d smallD => ?_, Option.getD_some]
    have digit : (Nat.digitChar d).isDigit = true := by rw [Nat.isDigit_digitChar, decide_eq_true smallD]
    rw [mem_numbered plain plainSuffix digit, Nat.toDigits_of_lt_base small, List.mem_singleton,
      digitChar_inj smallD small]

theorem getDeviceId_numbered_erot : numbered "GPU" 6 (some "ERoT") = "GPU6-ERoT" ∧
    (getDeviceId (numbered "GPU" 6 (some "ERoT")) "" = .ok ((6 : Nat) : Int) ↔ 6 < 10) :=
  ⟨by decide, getDeviceId_numbered_iff 6 (by simp [Plain]) (by simp [Plain])⟩

/-- The device with the number 12 is taken for the one with the number 2. -/
theorem getDeviceId_twelve : numbered "GPU" 12 none = "GPU12" ∧ Plain "GPU" ∧
    getDeviceId "GPU12" "" = .ok 2 ∧ getDeviceId "GPU12" "" ≠ .ok 12 := by
  have found : getDeviceId "GPU12" "" = .ok 2 := by
    rw [getDeviceId_default]
    decide
  refine ⟨by decide, by simp [Plain], found, ?_⟩
  rw [found]
  decide

end MonitorEventing.Util
