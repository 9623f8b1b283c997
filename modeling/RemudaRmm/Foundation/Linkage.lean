import Mathlib.Data.List.Chain
import Mathlib.Data.List.Infix
import Mathlib.Data.List.Nodup

/-! Lists in which every member but the first names the one in front of it, and which parts of such a list are still
linked. Nothing here names a program. -/
namespace RemudaRmm.Foundation
open List Option
variable {ε κ : Type*} {prev : ε → Option κ} {key : ε → κ} {a b : ε} {l s : List ε}

/-- Every member but the first names the key of the one in front of it. -/
def Linked (prev : ε → Option κ) (key : ε → κ) (l : List ε) : Prop := l.IsChain fun a b => prev b = some (key a)

theorem Linked.part (linked : Linked prev key l) (part : s <:+: l) : Linked prev key s := by
  obtain ⟨before, after, rfl⟩ := part
  exact (List.IsChain.left_of_append linked).right_of_append

theorem Linked.tail (linked : Linked prev key (a :: l)) : Linked prev key l :=
  linked.infix (suffix_cons a l).isInfix

theorem linked_concat (linked : Linked prev key l) (named : l ≠ [] → prev a = l.getLast?.map key) :
    Linked prev key (l ++ [a]) := by
  refine List.IsChain.append linked (isChain_singleton a) fun last found b first => ?_
  cases first
  rw [named (ne_nil_of_mem (mem_of_getLast? found)), mem_def.mp found]
  rfl

theorem Linked.named (linked : Linked prev key (a :: l)) (member : b ∈ l) : ∃ c ∈ a :: l, prev b = some (key c) := by
  induction l generalizing a with
  | nil => cases member
  | cons c l ih =>
    obtain ⟨head, rest⟩ := isChain_cons_cons.mp linked
    rcases mem_cons.mp member with rfl | later
    · exact ⟨a, mem_cons_self, head⟩
    · obtain ⟨d, among, name⟩ := ih rest later
      exact ⟨d, mem_cons_of_mem a among, name⟩

theorem Linked.prefix_of_sublist (linked : Linked prev key (a :: l)) (keys : ((a :: l).map key).Nodup)
    (part : s.Sublist l) (again : Linked prev key (a :: s)) : s <+: l := by
  induction l generalizing a s with
  | nil => exact sublist_nil.mp part ▸ List.nil_prefix
  | cons b l ih =>
    obtain ⟨-, rest⟩ := isChain_cons_cons.mp linked
    obtain ⟨apart, distinct⟩ := nodup_cons.mp keys
    cases part with
    | cons _ skipped =>
      cases s with
      | nil => exact List.nil_prefix
      | cons c s =>
        -- A member further on names a member behind the first, and keys are not repeated.
        obtain ⟨head, -⟩ := isChain_cons_cons.mp again
        obtain ⟨d, among, name⟩ := Linked.named rest (skipped.subset mem_cons_self)
        have same : key a = key d := some.inj (head.symm.trans name)
        exact absurd (same ▸ List.mem_map_of_mem among) apart
    | cons_cons _ kept => exact prefix_cons_inj b |>.mpr (ih rest distinct kept again.tail)

/-- A linked part of a linked list with distinct keys is a block of it. -/
theorem Linked.infix_of_sublist (linked : Linked prev key l) (keys : (l.map key).Nodup) (part : s.Sublist l)
    (again : Linked prev key s) : s <:+: l := by
  induction l generalizing s with
  | nil => exact sublist_nil.mp part ▸ infix_rfl
  | cons a l ih =>
    cases part with
    | cons _ skipped =>
      exact (ih linked.tail (nodup_cons.mp keys).2 skipped again).trans (suffix_cons a l).isInfix
    | cons_cons _ kept => exact ((prefix_cons_inj a).mpr (linked.prefix_of_sublist keys kept again)).isInfix

end RemudaRmm.Foundation
