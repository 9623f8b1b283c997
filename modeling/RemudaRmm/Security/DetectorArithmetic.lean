import RemudaRmm.Security.DlpDetectors

/-! The arithmetic of the detectors: the check digits of an IBAN, and the merging of spans. -/
namespace RemudaRmm.Security
open Foundation List

def Alphanumeric (t : Units) : Prop := ∀ u ∈ t, (isDigitUnit u || unitBetween 'A' 'Z' u) = true

/-- The integer that letters and digits spell, with a letter written as a number from 10 to 35. -/
def ibanInteger (t : Units) : ℕ :=
  t.foldl (fun n u => if unitBetween 'A' 'Z' u then 100 * n + (u.toNat - 55) else 10 * n + digitOf u) 0

theorem foldl_ibanDigits (t : Units) (remainder n : ℕ) (same : remainder = n % 97) :
    (t.flatMap ibanDigits).foldl (fun remainder digit => (remainder * 10 + digit) % 97) remainder =
      t.foldl (fun n u => if unitBetween 'A' 'Z' u then 100 * n + (u.toNat - 55) else 10 * n + digitOf u) n % 97 := by
  induction t generalizing remainder n with
  | nil => exact same
  | cons u t ih =>
    rw [flatMap_cons, foldl_append, foldl_cons, ibanDigits]
    split_ifs with letter
    · refine ih _ _ ?_
      simp only [foldl_cons, foldl_nil, same]
      omega
    · refine ih _ _ ?_
      simp only [foldl_cons, foldl_nil, same]
      omega

theorem ibanMod97_iff {t : Units} (plain : Alphanumeric t) :
    ibanMod97 t = true ↔ ibanInteger (t.drop 4 ++ t.take 4) % 97 = 1 := by
  have kept : (t.drop 4 ++ t.take 4).all (fun u => isDigitUnit u || unitBetween 'A' 'Z' u) = true := by
    rw [all_eq_true]
    intro u member
    rcases mem_append.mp member with back | front
    · exact plain u (mem_of_mem_drop back)
    · exact plain u (mem_of_mem_take front)
  simp only [ibanMod97, kept, if_true, beq_iff_eq]
  rw [foldl_ibanDigits _ 0 0 rfl, ibanInteger]

/-- The result is sorted and separated, and covers what the spans cover. -/
structure MergedExactly (spans merged : List Span) : Prop where
  sorted : merged.Pairwise fun a b => a.start ≤ b.start
  separated : merged.Pairwise fun a b => a.stop < b.start
  covers : ∀ p, (∃ m ∈ merged, m.Has p) ↔ ∃ s ∈ spans, s.Has p

theorem mergeMatches_exact (spans : List Span) : MergedExactly spans (mergeMatches spans) := by
  have unjoined := @mergeSpans_unjoined Unit true (spans.map fun s => ⟨s, ()⟩)
  constructor
  · rw [mergeMatches, pairwise_map]
    exact unjoined.imp And.left
  · rw [mergeMatches, pairwise_map]
    refine unjoined.imp fun {a b} apart => ?_
    simp only [joins, true_and] at apart
    omega
  · intro p
    have covered := @mergeSpans_has Unit true (spans.map fun s => ⟨s, ()⟩) p
    simp only [mem_map, exists_exists_and_eq_and] at covered
    simp only [mergeMatches, mem_map, exists_exists_and_eq_and]
    exact covered

/-- The remainder of an IBAN is that of the unbounded integer, and the merging of spans is exact. -/
theorem detector_arithmetic_exact {t : Units} (plain : Alphanumeric t) (spans : List Span) :
    (ibanMod97 t = true ↔ ibanInteger (t.drop 4 ++ t.take 4) % 97 = 1) ∧ MergedExactly spans (mergeMatches spans) :=
  ⟨ibanMod97_iff plain, mergeMatches_exact spans⟩

theorem detector_arithmetic_exact_sample : (ibanMod97 (unitsOf "GB82WEST12345698765432") = true ↔
    ibanInteger ((unitsOf "GB82WEST12345698765432").drop 4 ++ (unitsOf "GB82WEST12345698765432").take 4) % 97 = 1) ∧
      MergedExactly [⟨5, 9⟩, ⟨0, 5⟩] (mergeMatches [⟨5, 9⟩, ⟨0, 5⟩]) :=
  detector_arithmetic_exact (all_eq_true.mp (by decide +kernel)) _

end RemudaRmm.Security
