import Mathlib.Data.List.Sort

/-! A pass over a list in which the first entry of every key wins, and what comes first in a sorted list. -/
namespace RemudaRmm.Foundation
open List Option

section FirstWins
variable {κ α : Type*} [DecidableEq κ] (key : α → κ)

def addNew (seen : List α) (a : α) : List α := if ∃ s ∈ seen, key s = key a then seen else seen ++ [a]

/-- The first entry of every key, in the order of the entries. -/
def firstOfEach (l : List α) : List α := l.foldl (addNew key) []

variable {key}

theorem mem_foldl_addNew {l seen : List α} {a : α} : a ∈ l.foldl (addNew key) seen ↔
    a ∈ seen ∨ (∀ s ∈ seen, key s ≠ key a) ∧ l.find? (fun b => key b = key a) = some a := by
  induction l generalizing seen with
  | nil => simp only [foldl_nil, find?_nil, reduceCtorEq, and_false, or_false]
  | cons b l ih =>
    rw [foldl_cons, ih, addNew, find?_cons]
    by_cases taken : ∃ s ∈ seen, key s = key b
    · rw [if_pos taken]
      obtain ⟨s, old, same⟩ := taken
      by_cases here : key b = key a
      · have occupied : ¬∀ s ∈ seen, key s ≠ key a := fun free => free s old (same.trans here)
        simp only [occupied, false_and]
      · simp only [here, decide_false]
    · rw [if_neg taken]
      by_cases here : key b = key a
      · simp only [here, decide_true, mem_append, mem_singleton, Option.some.injEq]
        constructor
        · rintro ((old | rfl) | ⟨free, -⟩)
          · exact .inl old
          · exact .inr ⟨fun s old same => taken ⟨s, old, same⟩, rfl⟩
          · exact absurd here (free b (.inr rfl))
        · rintro (old | ⟨-, rfl⟩)
          · exact .inl (.inl old)
          · exact .inl (.inr rfl)
      · have other : a ≠ b := fun same => here (congrArg key same.symm)
        simp only [here, decide_false, mem_append, mem_singleton, other, or_false, or_imp, forall_and,
          forall_eq, ne_eq, not_false_eq_true, and_true]

theorem mem_firstOfEach {l : List α} {a : α} : a ∈ firstOfEach key l ↔ l.find? (fun b => key b = key a) = some a := by
  rw [firstOfEach, mem_foldl_addNew]
  simp only [not_mem_nil, false_implies, implies_true, true_and, false_or]

theorem nodup_foldl_addNew {l seen : List α} (once : (seen.map key).Nodup) :
    ((l.foldl (addNew key) seen).map key).Nodup := by
  induction l generalizing seen with
  | nil => exact once
  | cons b l ih =>
    refine ih ?_
    unfold addNew
    split
    · exact once
    · next free =>
      rw [map_append, map_singleton]
      refine nodup_append.mpr ⟨once, nodup_singleton _, fun k old k' new => ?_⟩
      obtain ⟨s, member, rfl⟩ := List.mem_map.mp old
      rw [mem_singleton.mp new]
      exact fun same => free ⟨s, member, same⟩

theorem nodup_firstOfEach (l : List α) : ((firstOfEach key l).map key).Nodup := nodup_foldl_addNew nodup_nil

theorem mem_firstOfEach_id {l : List κ} {a : κ} : a ∈ firstOfEach id l ↔ a ∈ l := by
  rw [mem_firstOfEach]
  constructor
  · exact mem_of_find?_eq_some
  · intro member
    cases found : l.find? (fun b => decide (id b = id a)) with
    | none => exact absurd (decide_eq_true rfl) (find?_eq_none.mp found a member)
    | some b =>
      have same := find?_some found
      rw [decide_eq_true_eq] at same
      exact congrArg some same

theorem nodup_firstOfEach_id (l : List κ) : (firstOfEach id l).Nodup := by
  rw [← List.map_id (firstOfEach id l)]
  exact nodup_firstOfEach l

theorem find?_map_key {make : κ → α} (keyed : ∀ k, key (make k) = k) (ids : List κ) (k : κ) :
    ((ids.map make).find? fun a => key a = k) = if k ∈ ids then some (make k) else none := by
  induction ids with
  | nil => rfl
  | cons i ids ih =>
    rw [map_cons, find?_cons, ih, keyed]
    by_cases here : i = k
    · simp only [here, decide_true, mem_cons, true_or, if_true]
    · simp only [here, decide_false, mem_cons, Ne.symm here, false_or]

/-- The first entry of a key comes from the first member of the list that has one. -/
theorem find?_flatMap_map {β : Type*} {ids : β → List κ} {make : β → κ → α} (keyed : ∀ b k, key (make b k) = k)
    (l : List β) (k : κ) : ((l.flatMap fun b => (ids b).map (make b)).find? fun a => key a = k) =
      (l.find? fun b => k ∈ ids b).map fun b => make b k := by
  induction l with
  | nil => rfl
  | cons b l ih =>
    rw [flatMap_cons, find?_append, ih, find?_map_key (keyed b), find?_cons]
    by_cases here : k ∈ ids b
    · simp only [here, decide_true, if_true, some_or, map_some]
    · simp only [here, decide_false, if_false, none_or]

/-- Where no two entries have the same key, looking a key up finds its entry. -/
theorem find?_key_eq_some_iff {l : List α} {a : α} {k : κ} (once : (l.map key).Nodup) :
    (l.find? fun b => key b = k) = some a ↔ a ∈ l ∧ key a = k := by
  constructor
  · intro found
    have same := find?_some found
    rw [decide_eq_true_eq] at same
    exact ⟨mem_of_find?_eq_some found, same⟩
  · rintro ⟨member, rfl⟩
    cases found : l.find? fun b => decide (key b = key a) with
    | none => exact absurd (decide_eq_true rfl) (find?_eq_none.mp found a member)
    | some b =>
      have same := find?_some found
      rw [decide_eq_true_eq] at same
      exact congrArg some (inj_on_of_nodup_map once (mem_of_find?_eq_some found) member same)

end FirstWins

section Sorted
variable {α : Type*} {r : α → α → Prop} [DecidableRel r] [Std.Total r] [IsTrans α r] {l : List α} {p : α → Bool} {x : α}

omit [DecidableRel r] [IsTrans α r] in
theorem find?_pairwise (sorted : l.Pairwise r) (found : l.find? p = some x) : ∀ y ∈ l, p y → r x y := by
  intro y member fits
  obtain ⟨-, before, after, rfl, misses⟩ := find?_eq_some_iff_append.mp found
  rcases mem_append.mp member with earlier | rest
  · exact absurd fits (Bool.not_eq_true _ ▸ by simpa using misses y earlier)
  · rcases mem_cons.mp rest with rfl | later
    · exact (Std.Total.total (r := r) y y).elim id id
    · exact rel_of_pairwise_cons (pairwise_append.mp sorted).2.1 later

/-- What comes first in a sorted list is a least of the entries that fit. -/
theorem find?_insertionSort (found : (l.insertionSort r).find? p = some x) : x ∈ l ∧ p x ∧ ∀ y ∈ l, p y → r x y := by
  refine ⟨(mem_insertionSort r).mp (mem_of_find?_eq_some found), find?_some found, fun y member => ?_⟩
  exact find?_pairwise (pairwise_insertionSort r l) found y ((mem_insertionSort r).mpr member)

omit [Std.Total r] [IsTrans α r] in
theorem find?_insertionSort_eq_none : (l.insertionSort r).find? p = none ↔ ∀ y ∈ l, ¬p y := by
  simp only [find?_eq_none, mem_insertionSort]

/-- Where no two entries are level, the least entry that fits comes first. -/
theorem find?_insertionSort_eq_some_iff (strict : ∀ x ∈ l, ∀ y ∈ l, r x y → r y x → x = y) :
    (l.insertionSort r).find? p = some x ↔ x ∈ l ∧ p x ∧ ∀ y ∈ l, p y → r x y := by
  constructor
  · exact find?_insertionSort
  · rintro ⟨member, fits, least⟩
    cases found : (l.insertionSort r).find? p with
    | none => exact absurd fits (find?_insertionSort_eq_none.mp found x member)
    | some y =>
      obtain ⟨among, fits', least'⟩ := find?_insertionSort found
      rw [strict x member y among (least y among fits') (least' x member fits)]

theorem head?_insertionSort_eq_some_iff (strict : ∀ x ∈ l, ∀ y ∈ l, r x y → r y x → x = y) :
    (l.insertionSort r).head? = some x ↔ x ∈ l ∧ ∀ y ∈ l, r x y := by
  have all : (l.insertionSort r).head? = (l.insertionSort r).find? fun _ => true := by
    cases l.insertionSort r <;> rfl
  rw [all, find?_insertionSort_eq_some_iff strict]
  simp only [true_and, true_implies]

end Sorted

end RemudaRmm.Foundation
