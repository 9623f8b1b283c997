import Mathlib.Order.Interval.Set.Basic

/-! Items that are given numbers from per-series counters. A register is gapless when the counters
found on its items are exactly one up to the counter of the series, each on one item. -/
namespace RemudaRmm.Foundation
open Function

/-- A numbering scheme writes a series and a counter so that both can be told again. -/
def Scheme {Y ν : Type*} (format : Y → ℕ → ν) : Prop :=
  ∀ y k y' k', format y k = format y' k' → y = y' ∧ k = k'

structure Gapless {ι Y ν : Type*} (format : Y → ℕ → ν) (number : ι → Option ν) (counter : Y → ℕ) : Prop where
  formed : ∀ i n, number i = some n → ∃ y k, n = format y k
  counters : ∀ y, {k | ∃ i, number i = some (format y k)} = Set.Icc 1 (counter y)
  once : ∀ i j n, number i = some n → number j = some n → i = j

namespace Gapless
variable {ι Y ν : Type*} {format : Y → ℕ → ν} {number : ι → Option ν} {counter : Y → ℕ}

theorem blank : Gapless format (fun _ : ι => none) fun _ => 0 where
  formed _ _ numbered := nomatch numbered
  counters y := by
    ext k
    simp only [Set.mem_ofPred_eq, reduceCtorEq, exists_false, Set.mem_Icc, false_iff]
    omega
  once _ _ _ numbered := nomatch numbered

theorem mem_iff (gapless : Gapless format number counter) {y : Y} {k : ℕ} :
    (∃ i, number i = some (format y k)) ↔ 1 ≤ k ∧ k ≤ counter y :=
  Set.ext_iff.mp (gapless.counters y) k

variable [DecidableEq ι] [DecidableEq Y]

theorem issue (scheme : Scheme format) (gapless : Gapless format number counter) {i : ι} {y : Y}
    (blank : number i = none) : Gapless format (update number i (some (format y (counter y + 1))))
      (update counter y (counter y + 1)) := by
  have fresh : ∀ j, number j ≠ some (format y (counter y + 1)) := by
    intro j numbered
    have bound := (gapless.mem_iff.mp ⟨j, numbered⟩).2
    omega
  refine ⟨fun j n numbered => ?_, fun series => ?_, fun j l n first second => ?_⟩
  · by_cases same : j = i
    · subst same
      rw [update_self, Option.some.injEq] at numbered
      exact ⟨y, counter y + 1, numbered.symm⟩
    · rw [update_of_ne same] at numbered
      exact gapless.formed j n numbered
  · ext k
    have carried : (∃ j, update number i (some (format y (counter y + 1))) j = some (format series k)) ↔
        (series = y ∧ k = counter y + 1) ∨ (1 ≤ k ∧ k ≤ counter series) := by
      rw [← gapless.mem_iff]
      constructor
      · rintro ⟨j, numbered⟩
        by_cases same : j = i
        · subst same
          rw [update_self, Option.some.injEq] at numbered
          obtain ⟨rfl, rfl⟩ := scheme _ _ _ _ numbered
          exact .inl ⟨rfl, rfl⟩
        · rw [update_of_ne same] at numbered
          exact .inr ⟨j, numbered⟩
      · rintro (⟨rfl, rfl⟩ | ⟨j, numbered⟩)
        · exact ⟨i, update_self ..⟩
        · have other : j ≠ i := by
            rintro rfl
            rw [blank] at numbered
            cases numbered
          exact ⟨j, (update_of_ne other ..).trans numbered⟩
    rw [Set.mem_ofPred_eq, carried, Set.mem_Icc]
    by_cases same : series = y
    · subst same
      rw [update_self]
      simp only [true_and]
      omega
    · rw [update_of_ne same]
      simp only [same, false_and, false_or]
  · by_cases firstNew : j = i
    · subst firstNew
      by_cases secondNew : l = j
      · exact secondNew.symm
      · rw [update_self, Option.some.injEq] at first
        rw [update_of_ne secondNew, ← first] at second
        exact absurd second (fresh l)
    · rw [update_of_ne firstNew] at first
      by_cases secondNew : l = i
      · subst secondNew
        rw [update_self, Option.some.injEq] at second
        exact absurd (second ▸ first) (fresh j)
      · rw [update_of_ne secondNew] at second
        exact gapless.once j l n first second

end Gapless

end RemudaRmm.Foundation
