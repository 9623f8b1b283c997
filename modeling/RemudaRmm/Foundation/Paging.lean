import Mathlib.Data.List.Sort

/-! Pages of rows in the order of their keys: a page is what comes past a cursor, up to a limit. -/
namespace RemudaRmm.Foundation
open List
variable {α κ : Type*} [LinearOrder κ] (key : α → κ)

def byKey (l : List α) : List α := l.insertionSort fun a b => key a ≤ key b

def selectPage (cursor : Option κ) (limit : ℕ) (l : List α) : List α :=
  (byKey key (l.filter fun a => cursor.all (· < key a))).take limit

section Order
variable {key} {l : List α}

@[simp] theorem mem_byKey {a : α} : a ∈ byKey key l ↔ a ∈ l := mem_insertionSort _

@[simp] theorem length_byKey : (byKey key l).length = l.length := length_insertionSort _ l

theorem byKey_perm : (byKey key l).Perm l := perm_insertionSort _ l

theorem byKey_sorted : (byKey key l).Pairwise fun a b => key a ≤ key b := by
  have : Std.Total fun a b : α => key a ≤ key b := ⟨fun a b => le_total (key a) (key b)⟩
  have : IsTrans α fun a b : α => key a ≤ key b := ⟨fun _ _ _ => le_trans⟩
  exact pairwise_insertionSort _ l

omit [LinearOrder κ] in
theorem eq_of_key (once : (l.map key).Nodup) {a b : α} (here : a ∈ l) (there : b ∈ l) (same : key a = key b) : a = b :=
  inj_on_of_nodup_map once here there same

theorem byKey_strict (once : (l.map key).Nodup) : (byKey key l).Pairwise fun a b => key a < key b := by
  have distinct : (byKey key l).Pairwise fun a b => key a ≠ key b :=
    pairwise_map.mp ((byKey_perm.map key).nodup_iff.mpr once)
  exact (byKey_sorted.and distinct).imp fun both => lt_of_le_of_ne both.1 both.2

theorem byKey_filter (once : (l.map key).Nodup) (p : α → Bool) : byKey key (l.filter p) = (byKey key l).filter p := by
  refine List.Perm.eq_of_pairwise (fun a b here there le ge => ?_) byKey_sorted (byKey_sorted.filter p)
    (byKey_perm.trans (byKey_perm.symm.filter p))
  have a_mem : a ∈ l := mem_of_mem_filter (mem_byKey.mp here)
  have b_mem : b ∈ l := mem_byKey.mp (mem_of_mem_filter there)
  exact eq_of_key once a_mem b_mem (le_antisymm le ge)

theorem map_byKey_congr {m : List α} (once : (l.map key).Nodup) (once' : (m.map key).Nodup)
    (same : ∀ k, k ∈ l.map key ↔ k ∈ m.map key) : (byKey key l).map key = (byKey key m).map key := by
  refine List.Pairwise.eq_of_mem_iff (r := (· < ·)) (pairwise_map.mpr (byKey_strict once))
    (pairwise_map.mpr (byKey_strict once')) fun k => ?_
  simpa only [List.mem_map, mem_byKey] using same k

/-- After the rows of some pages, the page past the last of them goes on where they end. -/
theorem selectPage_eq (once : (l.map key).Nodup) (k limit : ℕ) :
    selectPage key (((byKey key l).take k).getLast?.map key) limit l = ((byKey key l).drop k).take limit := by
  unfold selectPage
  rw [byKey_filter once]
  congr 1
  cases ends : ((byKey key l).take k).getLast? with
  | none =>
    rw [getLast?_eq_none_iff, take_eq_nil_iff] at ends
    have all : (byKey key l).drop k = byKey key l := by
      rcases ends with rfl | empty
      · rfl
      · rw [empty, drop_nil]
    simp [all]
  | some last =>
    obtain ⟨front, split⟩ := getLast?_eq_some_iff.mp ends
    have whole := (take_append_drop k (byKey key l)).symm
    have strict := byKey_strict once
    rw [whole, pairwise_append] at strict
    have passed : ∀ a ∈ (byKey key l).take k, ¬key last < key a := by
      intro a member
      rw [split] at member strict
      rcases mem_append.mp member with early | same
      · exact ((pairwise_append.mp strict.1).2.2 a early last mem_cons_self).not_gt
      · rw [mem_singleton.mp same]
        exact lt_irrefl _
    have coming : ∀ a ∈ (byKey key l).drop k, key last < key a :=
      strict.2.2 last (by rw [split]; exact mem_concat_self)
    rw [whole, filter_append, ← whole]
    rw [filter_eq_nil_iff.mpr fun a member => by simpa using passed a member]
    rw [filter_eq_self.mpr fun a member => by simpa using coming a member, nil_append]

end Order

end RemudaRmm.Foundation
