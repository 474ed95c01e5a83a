import Mathlib

/-!
# Common vocabulary

The exceptions the code throws and the few standard library calls every subsystem makes. A
function that may throw returns `Except Exn`, so what the caller sees of a failure is a value.
-/

namespace MonitorEventing

/-- The exceptions that leave the modelled functions. `undefined` is undefined behaviour of the
source, kept apart from every exception a caller could catch. -/
inductive Exn where
  | runtimeError (what : String)
  | outOfRange
  | typeError
  | undefined
  deriving DecidableEq, Repr

section

variable {ε α β : Type}

theorem bind_ok_iff {x : Except ε α} {f : α → Except ε β} {b : β} :
    x >>= f = .ok b ↔ ∃ a, x = .ok a ∧ f a = .ok b := by
  cases x <;> simp [bind, Except.bind]

alias ⟨bind_ok, _⟩ := bind_ok_iff

theorem bind_total {x : Except ε α} {f : α → Except ε β} (first : ∃ a, x = .ok a)
    (rest : ∀ a, x = .ok a → ∃ b, f a = .ok b) : ∃ b, x >>= f = .ok b := by
  obtain ⟨a, run⟩ := first
  obtain ⟨b, done⟩ := rest a run
  exact ⟨b, bind_ok_iff.mpr ⟨a, run, done⟩⟩

theorem bind_error {x : Except ε α} {f : α → Except ε β} {e : ε} (h : x >>= f = .error e) :
    x = .error e ∨ ∃ a, x = .ok a ∧ f a = .error e := by
  cases x with
  | error e' =>
    have same : (.error e' : Except ε β) = .error e := h
    rw [Except.error.inj same]
    exact Or.inl rfl
  | ok a => exact Or.inr ⟨a, rfl, h⟩

theorem map_ok {x : Except ε α} {f : α → β} {b : β} (h : x.map f = .ok b) :
    ∃ a, x = .ok a ∧ f a = b := by
  cases x with
  | ok a => exact ⟨a, rfl, Except.ok.inj h⟩
  | error e => cases h

theorem bind_map_congr {α' β' γ δ : Type} {x : Except ε α} {y : Except ε α'} {f : α → γ} {g : α' → γ}
    {k : α → Except ε β} {k' : α' → Except ε β'} {h : β → δ} {h' : β' → δ} (first : x.map f = y.map g)
    (next : ∀ a b, f a = g b → (k a).map h = (k' b).map h') : (x >>= k).map h = (y >>= k').map h' := by
  cases run : x with
  | error e =>
    rw [run] at first
    cases run' : y with
    | error e' =>
      rw [run'] at first
      cases first
      rfl
    | ok b =>
      rw [run'] at first
      cases first
  | ok a =>
    rw [run] at first
    cases run' : y with
    | error e' =>
      rw [run'] at first
      cases first
    | ok b =>
      rw [run'] at first
      exact next a b (Except.ok.inj first)

@[simp] theorem pure_ok_iff {a b : α} : (pure a : Except ε α) = .ok b ↔ a = b := by
  simp [pure, Except.pure]

end

/-- `std::vector::at`. -/
def vectorAt {α : Type} (xs : List α) (i : Nat) : Except Exn α :=
  match xs[i]? with
  | some x => .ok x
  | none => .error .outOfRange

@[simp] theorem vectorAt_ok_iff {α : Type} {xs : List α} {i : Nat} {x : α} :
    vectorAt xs i = .ok x ↔ xs[i]? = some x := by
  unfold vectorAt
  cases xs[i]? <;> simp

/-! ### Loops that may throw -/

theorem mapM_ok_iff {ε α β : Type} {f : α → Except ε β} {xs : List α} {ys : List β} :
    xs.mapM f = .ok ys ↔ List.Forall₂ (fun x y => f x = .ok y) xs ys := by
  induction xs generalizing ys with
  | nil => rw [List.mapM_nil, pure_ok_iff, List.forall₂_nil_left_iff, eq_comm]
  | cons x xs ih =>
    simp only [List.mapM_cons, bind_ok_iff, pure_ok_iff, ih, List.forall₂_cons_left_iff]
    constructor
    · rintro ⟨y, hy, zs, hzs, rfl⟩
      exact ⟨y, zs, hy, hzs, rfl⟩
    · rintro ⟨y, zs, hy, hzs, rfl⟩
      exact ⟨y, hy, zs, hzs, rfl⟩

theorem exists_mapM_ok_iff {ε α β : Type} {f : α → Except ε β} {xs : List α} :
    (∃ ys, xs.mapM f = .ok ys) ↔ ∀ x ∈ xs, ∃ y, f x = .ok y := by
  simp only [mapM_ok_iff]
  induction xs with
  | nil => simp
  | cons x xs ih =>
    rw [List.forall_mem_cons, ← ih]
    constructor
    · rintro ⟨ys, h⟩
      obtain ⟨y, zs, hy, hzs, rfl⟩ := List.forall₂_cons_left_iff.mp h
      exact ⟨⟨y, hy⟩, zs, hzs⟩
    · rintro ⟨⟨y, hy⟩, zs, hzs⟩
      exact ⟨y :: zs, List.Forall₂.cons hy hzs⟩

theorem mapM_error {ε α β : Type} {f : α → Except ε β} {xs : List α} {e : ε} (h : xs.mapM f = .error e) :
    ∃ x ∈ xs, f x = .error e := by
  induction xs with
  | nil => cases h
  | cons x xs ih =>
    rw [List.mapM_cons] at h
    rcases bind_error h with first | ⟨y, _, h⟩
    · exact ⟨x, List.mem_cons_self, first⟩
    · rcases bind_error h with later | ⟨ys, _, done⟩
      · obtain ⟨x', member, fails⟩ := ih later
        exact ⟨x', List.mem_cons_of_mem _ member, fails⟩
      · cases done

theorem mapM_ok {ε α β : Type} {f : α → Except ε β} {g : α → β} {xs : List α}
    (body : ∀ x ∈ xs, f x = .ok (g x)) : xs.mapM f = .ok (xs.map g) := by
  rw [mapM_ok_iff, List.forall₂_map_right_iff, List.forall₂_same]
  exact body

theorem mapM_map_congr {ε α α' β γ : Type} {f : α → Except ε β} {g : α' → Except ε β} {h : β → γ}
    {xs : List α} {ys : List α'} (each : List.Forall₂ (fun x y => (f x).map h = (g y).map h) xs ys) :
    (xs.mapM f).map (List.map h) = (ys.mapM g).map (List.map h) := by
  induction each with
  | nil => rfl
  | cons here _ ih =>
    rw [List.mapM_cons, List.mapM_cons]
    apply bind_map_congr here
    intro a b first
    apply bind_map_congr ih
    intro as bs rest
    apply congrArg Except.ok
    rw [List.map_cons, List.map_cons, first, rest]

theorem allM_ok {α : Type} {f : α → Except Exn Bool} {g : α → Bool} {xs : List α}
    (body : ∀ x ∈ xs, f x = .ok (g x)) : xs.allM f = .ok (xs.all g) := by
  induction xs with
  | nil => rfl
  | cons x xs ih =>
    have rest := ih fun y member => body y (List.mem_cons_of_mem _ member)
    simp only [List.allM, body x List.mem_cons_self, bind, Except.bind, List.all_cons]
    cases g x
    · rfl
    · simpa using rest

theorem filterAuxM_ok {α : Type} {f : α → Except Exn Bool} {g : α → Bool} {xs : List α} (acc : List α)
    (body : ∀ x ∈ xs, f x = .ok (g x)) : xs.filterAuxM f acc = .ok ((xs.filter g).reverse ++ acc) := by
  induction xs generalizing acc with
  | nil => rfl
  | cons x xs ih =>
    simp only [List.filterAuxM, body x List.mem_cons_self, bind, Except.bind]
    rw [ih _ fun y member => body y (List.mem_cons_of_mem _ member)]
    cases kept : g x <;> simp [kept]

theorem filterM_ok {α : Type} {f : α → Except Exn Bool} {g : α → Bool} {xs : List α}
    (body : ∀ x ∈ xs, f x = .ok (g x)) : xs.filterM f = .ok (xs.filter g) := by
  simp [List.filterM, filterAuxM_ok [] body, bind, Except.bind, pure, Except.pure]

theorem filterAuxM_each {α : Type} {f : α → Except Exn Bool} {xs kept : List α} (acc : List α)
    (run : xs.filterAuxM f acc = .ok kept) : ∀ x ∈ xs, ∃ b, f x = .ok b := by
  induction xs generalizing acc with
  | nil => simp
  | cons x xs ih =>
    obtain ⟨b, now, rest⟩ := bind_ok run
    exact List.forall_mem_cons.mpr ⟨⟨b, now⟩, ih _ rest⟩

theorem filterM_each {α : Type} {f : α → Except Exn Bool} {xs kept : List α} (run : xs.filterM f = .ok kept) :
    ∀ x ∈ xs, ∃ b, f x = .ok b := by
  obtain ⟨reversed, collected, _⟩ := bind_ok run
  exact filterAuxM_each [] collected

/-- A filter that has not thrown. -/
theorem filterM_ok_iff {α : Type} {f : α → Except Exn Bool} {xs kept : List α} : xs.filterM f = .ok kept ↔
    (∀ x ∈ xs, ∃ b, f x = .ok b) ∧ kept = xs.filter fun x => (f x).toOption.getD false := by
  have filtered : (∀ x ∈ xs, ∃ b, f x = .ok b) →
      xs.filterM f = .ok (xs.filter fun x => (f x).toOption.getD false) := by
    intro each
    apply filterM_ok
    intro x member
    obtain ⟨b, now⟩ := each x member
    rw [now]
    rfl
  constructor
  · intro run
    have each := filterM_each run
    rw [filtered each] at run
    exact ⟨each, (Except.ok.inj run).symm⟩
  · rintro ⟨each, rfl⟩
    exact filtered each

theorem toOption_getD_iff {x : Except Exn Bool} : x.toOption.getD false = true ↔ x = .ok true := by
  cases x <;> simp [Except.toOption]

theorem allM_true_iff {α : Type} {f : α → Except Exn Bool} {xs : List α} :
    xs.allM f = .ok true ↔ ∀ x ∈ xs, f x = .ok true := by
  induction xs with
  | nil => simp [List.allM, pure, Except.pure]
  | cons x xs ih =>
    rw [List.forall_mem_cons, ← ih, List.allM, bind_ok_iff]
    constructor
    · intro run
      obtain ⟨b, now, rest⟩ := run
      cases b with
      | true => exact ⟨now, rest⟩
      | false => cases rest
    · intro both
      exact ⟨true, both.1, both.2⟩

theorem foldlM_each {α σ : Type} {f : σ → α → Except Exn σ} {xs : List α} {s s' : σ}
    (h : xs.foldlM f s = .ok s') {a : α} (member : a ∈ xs) : ∃ before after, f before a = .ok after := by
  induction xs generalizing s with
  | nil => cases member
  | cons first xs ih =>
    rw [List.foldlM_cons] at h
    obtain ⟨middle, now, rest⟩ := bind_ok h
    rcases List.mem_cons.mp member with rfl | later
    · exact ⟨s, middle, now⟩
    · exact ih rest later

theorem foldlM_total {α σ : Type} {f : σ → α → Except Exn σ} {xs : List α}
    (step : ∀ a ∈ xs, ∀ s, ∃ s', f s a = .ok s') (s : σ) : ∃ s', xs.foldlM f s = .ok s' := by
  induction xs generalizing s with
  | nil => exact ⟨s, rfl⟩
  | cons a xs ih =>
    obtain ⟨middle, first⟩ := step a List.mem_cons_self s
    obtain ⟨s', rest⟩ := ih (fun a member => step a (List.mem_cons_of_mem _ member)) middle
    refine ⟨s', ?_⟩
    rw [List.foldlM_cons]
    exact bind_ok_iff.mpr ⟨middle, first, rest⟩

/-- A loop that goes on as long as what it went through is good, where each round keeps what holds of the
state and the elements so far. -/
theorem foldlM_ok_iff {σ α : Type} {f : σ → α → Except Exn σ} {P : α → Prop} {G : List α → Prop}
    {H : σ → List α → Prop} (closed : ∀ done rest, G (done ++ rest) → G done)
    (step : ∀ s done a, (∀ x ∈ done ++ [a], P x) → H s done → G done →
      ((∃ s', f s a = .ok s') ↔ G (done ++ [a])) ∧ ∀ s', f s a = .ok s' → H s' (done ++ [a]))
    {xs done : List α} {s : σ} (each : ∀ x ∈ done ++ xs, P x) (holds : H s done) (good : G done) :
    ((∃ s', xs.foldlM f s = .ok s') ↔ G (done ++ xs)) ∧ ∀ s', xs.foldlM f s = .ok s' → H s' (done ++ xs) := by
  induction xs generalizing done s with
  | nil =>
    rw [List.append_nil]
    refine ⟨iff_of_true ⟨s, rfl⟩ good, fun s' run => ?_⟩
    rw [← pure_ok_iff.mp run]
    exact holds
  | cons a xs ih =>
    have split : done ++ a :: xs = done ++ [a] ++ xs := by simp
    rw [split] at each ⊢
    obtain ⟨continues, keeps⟩ := step s done a (fun x member => each x (List.mem_append_left xs member)) holds good
    rw [List.foldlM_cons]
    refine ⟨⟨?_, fun all => ?_⟩, ?_⟩
    · rintro ⟨s', run⟩
      obtain ⟨middle, first, rest⟩ := bind_ok run
      exact (ih each (keeps middle first) (continues.mp ⟨middle, first⟩)).1.mp ⟨s', rest⟩
    · have goodNow := closed _ _ all
      obtain ⟨middle, first⟩ := continues.mpr goodNow
      obtain ⟨s', rest⟩ := (ih each (keeps middle first) goodNow).1.mpr all
      exact ⟨s', bind_ok_iff.mpr ⟨middle, first, rest⟩⟩
    · intro s' run
      obtain ⟨middle, first, rest⟩ := bind_ok run
      exact (ih each (keeps middle first) (continues.mp ⟨middle, first⟩)).2 s' rest

theorem forall₂_mem_right {α β : Type} {R : α → β → Prop} {xs : List α} {ys : List β} (h : List.Forall₂ R xs ys)
    {y : β} (member : y ∈ ys) : ∃ x ∈ xs, R x y := by
  induction h with
  | nil => cases member
  | cons related _ ih =>
    rcases List.mem_cons.mp member with rfl | later
    · exact ⟨_, List.mem_cons_self, related⟩
    · obtain ⟨x, inside, related⟩ := ih later
      exact ⟨x, List.mem_cons_of_mem _ inside, related⟩

theorem forall₂_mem_left {α β : Type} {R : α → β → Prop} {xs : List α} {ys : List β} (h : List.Forall₂ R xs ys)
    {x : α} (member : x ∈ xs) : ∃ y ∈ ys, R x y :=
  forall₂_mem_right (List.Forall₂.flip h : List.Forall₂ (fun y x => R x y) ys xs) member

/-! ### Maps -/

theorem lookup_cons_if {β : Type} (key other : String) (value : β) (rest : List (String × β)) :
    ((key, value) :: rest).lookup other = if key = other then some value else rest.lookup other := by
  rw [List.lookup_cons]
  by_cases same : key = other
  · simp [same]
  · simp [same, beq_false_of_ne (Ne.symm same)]

theorem lookup_overwritten {β : Type} (key : String) (old value : β) (rest : List (String × β)) (other : String) :
    ((key, value) :: rest).lookup other = if other = key then some value else ((key, old) :: rest).lookup other := by
  rw [lookup_cons_if, lookup_cons_if]
  by_cases same : key = other
  · simp [same]
  · simp [same, Ne.symm same]

/-- A write behind an entry with another key. -/
theorem lookup_behind {β : Type} {name key : String} (apart : name ≠ key) (old value : β)
    {rest written : List (String × β)} {other : String}
    (later : written.lookup other = if other = key then some value else rest.lookup other) :
    ((name, old) :: written).lookup other = if other = key then some value else ((name, old) :: rest).lookup other := by
  rw [lookup_cons_if, lookup_cons_if, later]
  by_cases same : other = key
  · simp [same, apart]
  · simp [same]

theorem lookup_of_mem {β : Type} {pairs : List (String × β)} (unique : (pairs.map (·.1)).Nodup) {key : String}
    {value : β} (member : (key, value) ∈ pairs) : pairs.lookup key = some value := by
  induction pairs with
  | nil => cases member
  | cons entry rest ih =>
    obtain ⟨key', value'⟩ := entry
    simp only [List.map_cons, List.nodup_cons] at unique
    rcases List.mem_cons.mp member with here | later
    · obtain ⟨rfl, rfl⟩ := Prod.mk.inj here
      exact List.lookup_cons_self
    · have different : key' ≠ key := by
        rintro rfl
        exact unique.1 (List.mem_map.mpr ⟨_, later, rfl⟩)
      rw [lookup_cons_if, if_neg different]
      exact ih unique.2 later

theorem mem_of_lookup {β : Type} {pairs : List (String × β)} {key : String} {value : β}
    (found : pairs.lookup key = some value) : (key, value) ∈ pairs := by
  obtain ⟨before, after, split, _⟩ := List.lookup_eq_some_iff.mp found
  rw [split]
  exact List.mem_append_right _ List.mem_cons_self

theorem lookup_fresh {β : Type} {pairs : List (String × β)} {key : String} (fresh : key ∉ pairs.map (·.1)) :
    pairs.lookup key = none := by
  rw [List.lookup_eq_none_iff]
  intro entry member
  rw [bne_iff_ne]
  intro same
  have again : entry.1 ∈ pairs.map (·.1) := List.mem_map_of_mem member
  rw [← same] at again
  exact fresh again

/-- `std::map` with string keys. -/
abbrev StringMap (β : Type) : Type := Std.TreeMap String β

namespace StringMap

variable {β : Type}

@[simp] theorem getElem?_insert (map : StringMap β) (key other : String) (value : β) :
    (map.insert key value)[other]? = if key = other then some value else map[other]? := by
  simp only [Std.TreeMap.getElem?_insert, Std.LawfulEqCmp.compare_eq_iff_eq]

@[simp] theorem mem_insert (map : StringMap β) (key other : String) (value : β) :
    other ∈ map.insert key value ↔ key = other ∨ other ∈ map := by
  simp only [Std.TreeMap.mem_insert, Std.LawfulEqCmp.compare_eq_iff_eq]

@[simp] theorem getElem?_insertIfNew (map : StringMap β) (key other : String) (value : β) :
    (map.insertIfNew key value)[other]? = if key = other ∧ key ∉ map then some value else map[other]? := by
  simp only [Std.TreeMap.getElem?_insertIfNew, Std.LawfulEqCmp.compare_eq_iff_eq]

@[simp] theorem mem_insertIfNew (map : StringMap β) (key other : String) (value : β) :
    other ∈ map.insertIfNew key value ↔ key = other ∨ other ∈ map := by
  simp only [Std.TreeMap.mem_insertIfNew, Std.LawfulEqCmp.compare_eq_iff_eq]

theorem mem_iff {map : StringMap β} {key : String} : key ∈ map ↔ ∃ value, map[key]? = some value := by
  rw [Std.TreeMap.mem_iff_isSome_getElem?, Option.isSome_iff_exists]

theorem not_mem_iff {map : StringMap β} {key : String} : key ∉ map ↔ map[key]? = none := by
  rw [mem_iff, not_exists, Option.eq_none_iff_forall_ne_some]

theorem names_nodup (map : StringMap β) : (map.toList.map (·.1)).Nodup := by
  rw [Std.TreeMap.map_fst_toList_eq_keys]
  exact Std.TreeMap.nodup_keys

theorem lookup_toList (map : StringMap β) (key : String) : map.toList.lookup key = map[key]? := by
  cases read : map[key]? with
  | some value => exact lookup_of_mem map.names_nodup (Std.TreeMap.mem_toList_iff_getElem?_eq_some.mpr read)
  | none =>
    apply lookup_fresh
    rw [Std.TreeMap.map_fst_toList_eq_keys, Std.TreeMap.mem_keys, not_mem_iff, read]

/-- `insert` of one pair after the other, which keeps the first of each key. -/
def ofPairs (pairs : List (String × β)) : StringMap β :=
  pairs.foldl (fun map pair => map.insertIfNew pair.1 pair.2) ∅

theorem foldl_insertIfNew (pairs : List (String × β)) (map : StringMap β) (key : String) :
    (pairs.foldl (fun map pair => map.insertIfNew pair.1 pair.2) map)[key]? = map[key]?.or (pairs.lookup key) := by
  induction pairs generalizing map with
  | nil => simp
  | cons pair rest ih =>
    obtain ⟨first, value⟩ := pair
    rw [List.foldl_cons, ih, getElem?_insertIfNew, lookup_cons_if]
    by_cases same : first = key
    · subst same
      by_cases present : first ∈ map
      · simp [present]
      · simp [present]
    · simp [same]

theorem foldl_insert_if (keep : β → Bool) {pairs : List (String × β)} (unique : (pairs.map (·.1)).Nodup)
    (map : StringMap β) (key : String) :
    (pairs.foldl (fun map pair => if keep pair.2 then map.insert pair.1 pair.2 else map) map)[key]? =
      ((pairs.lookup key).filter keep).or map[key]? := by
  induction pairs generalizing map with
  | nil => rfl
  | cons pair rest ih =>
    obtain ⟨first, value⟩ := pair
    obtain ⟨once, unique⟩ := List.nodup_cons.mp unique
    rw [List.foldl_cons, ih unique, lookup_cons_if]
    by_cases same : first = key
    · subst same
      rw [lookup_fresh once]
      by_cases kept : keep value = true
      · simp [kept, Option.filter_some]
      · simp [kept, Option.filter_some]
    · by_cases kept : keep value = true
      · simp [kept, same]
      · simp [kept, same]

theorem getElem?_ofPairs (pairs : List (String × β)) (key : String) : (ofPairs pairs)[key]? = pairs.lookup key := by
  rw [ofPairs, foldl_insertIfNew]
  simp

end StringMap

end MonitorEventing
