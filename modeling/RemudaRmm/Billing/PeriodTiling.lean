import Mathlib.Logic.Function.Iterate
import RemudaRmm.Billing.ContractMath

/-! The periods of a contract tile the calendar, and a term is extended by the least number of steps
(`contractMath.ts`). -/
namespace RemudaRmm.Billing
open Foundation
variable {c start asOf due : Civil} {interval term : ℕ}

/-- So many months from a date are in the years 1000 to 9999. -/
def WithinMonths (c : Civil) (months : ℤ) : Prop := 12000 ≤ c.monthIndex + months ∧ c.monthIndex + months < 120000
  deriving Decidable

theorem WithinMonths.fourDigit {months : ℤ} (h : c.Valid) (within : WithinMonths c months) :
    FourDigit (c.addMonths months) := by
  obtain ⟨low, high⟩ := within
  refine ⟨h.addMonths months, ?_, ?_⟩ <;> simp only [Civil.addMonths, Civil.year_inMonth] <;> omega

theorem FourDigit.addMonthsClamped (h : FourDigit c) {months : ℤ} (within : WithinMonths c months) :
    addMonthsClamped (iso c) months = iso (c.addMonths months) :=
  addMonthsClamped_iso h ((by decide : (1200 : ℤ) ≤ 12000).trans within.1)

theorem rank_addMonths_mono {a b : Civil} (ha : a.Valid) (hb : b.Valid) (dates : a.rank ≤ b.rank) {m n : ℤ}
    (months : m ≤ n) : (a.addMonths m).rank ≤ (b.addMonths n).rank := by
  have indices := monthIndex_le_of_rank ha hb dates
  rcases (add_le_add indices months).lt_or_eq with less | same
  · have left := ha.rank_addMonths_bounds m
    have right := hb.rank_addMonths_bounds n
    omega
  · have days : a.day ≤ b.day := by
      simp only [Civil.rank] at dates
      omega
    simp only [Civil.addMonths, Civil.rank_inMonth, same]
    omega

/-- The end of a term after so many steps. -/
def extended (c : Civil) (term n : ℕ) : Civil := (Civil.addMonths · term)^[n] c

theorem extended_succ (c : Civil) (term n : ℕ) : extended c term (n + 1) = extended (c.addMonths term) term n :=
  Function.iterate_succ_apply _ _ _

theorem monthIndex_extended (c : Civil) (term n : ℕ) : (extended c term n).monthIndex = c.monthIndex + n * term := by
  induction n generalizing c with
  | zero => rw [extended, Function.iterate_zero_apply, Nat.cast_zero, zero_mul, add_zero]
  | succ n ih =>
    rw [extended_succ, ih, Civil.monthIndex_addMonths]
    push_cast
    ring

theorem iterate_addMonthsClamped (h : FourDigit c) {n : ℕ} (room : c.monthIndex + n * term < 120000) :
    FourDigit (extended c term n) ∧ (addMonthsClamped · term)^[n] (iso c) = iso (extended c term n) := by
  induction n generalizing c with
  | zero => exact ⟨h, rfl⟩
  | succ n ih =>
    have split : c.monthIndex + (n + 1 : ℕ) * term = c.monthIndex + term + n * term := by
      push_cast
      ring
    have later : 0 ≤ (n : ℤ) * term := by positivity
    have next : FourDigit (c.addMonths term) := h.addMonths (by omega)
    rw [extended_succ, Function.iterate_succ_apply, addMonthsClamped_forward h]
    exact ih next (by rw [Civil.monthIndex_addMonths]; omega)

/-- The loop stops at the first step that is past the due period. -/
theorem extendTermLoop_eq (hd : FourDigit due) (h : FourDigit c) {n left : ℕ} {renewed : Bool}
    (room : c.monthIndex + n * term < 120000) (before : ∀ m < n, (extended c term m).rank ≤ due.rank)
    (past : due.rank < (extended c term n).rank) (guarded : n ≤ left) :
    extendTermLoop (iso due) term left (iso c) renewed = (iso (extended c term n), renewed || decide (0 < n)) := by
  induction n generalizing c left renewed with
  | zero =>
    have stops : isExpired (some (iso c)) (iso due) = false := by
      rw [isExpired, textLe_iso h hd]
      exact decide_eq_false past.not_ge
    cases left with
    | zero => exact Prod.ext rfl (Bool.or_false renewed).symm
    | succ left =>
      rw [extendTermLoop, stops]
      exact Prod.ext rfl (Bool.or_false renewed).symm
  | succ n ih =>
    cases left with
    | zero => exact absurd guarded (Nat.not_succ_le_zero n)
    | succ left =>
      have split : c.monthIndex + (n + 1 : ℕ) * term = c.monthIndex + term + n * term := by
        push_cast
        ring
      have later : 0 ≤ (n : ℤ) * term := by positivity
      have expired : isExpired (some (iso c)) (iso due) = true := by
        rw [isExpired, textLe_iso h hd]
        exact decide_eq_true (before 0 n.succ_pos)
      have next : FourDigit (c.addMonths term) := h.addMonths (by omega)
      rw [extended_succ] at past
      rw [extendTermLoop, if_pos expired, addMonthsClamped_forward h, extended_succ,
        ih next (by rw [Civil.monthIndex_addMonths]; omega)
          (fun m less => extended_succ c term m ▸ before (m + 1) (Nat.succ_lt_succ less)) past
          (Nat.le_of_succ_le_succ guarded)]
      simp

/-- The periods increase, adjoin, and every date from the start on is in exactly one of them, that of its index. -/
structure Tiles (start : Civil) (interval : ℕ) : Prop where
  increasing : ∀ i j, i < j → WithinMonths start (interval * j : ℕ) →
    textLt (computePeriod (iso start) interval i).periodStart (computePeriod (iso start) interval j).periodStart
  adjoining : ∀ i, (computePeriod (iso start) interval i).periodEnd =
    (computePeriod (iso start) interval (i + 1)).periodStart
  indexed : ∀ asOf, FourDigit asOf → textLe (iso start) (iso asOf) → ∀ k ≤ runawayGuard + 1,
    WithinMonths start (interval * k : ℕ) → textLt (iso asOf) (computePeriod (iso start) interval k).periodStart →
      let index := periodIndexFor (iso start) interval (iso asOf)
      index < k ∧ textLe (computePeriod (iso start) interval index).periodStart (iso asOf) ∧
        textLt (iso asOf) (computePeriod (iso start) interval (index + 1)).periodStart ∧
        ∀ i, WithinMonths start (interval * (i + 1) : ℕ) →
          textLe (computePeriod (iso start) interval i).periodStart (iso asOf) →
          textLt (iso asOf) (computePeriod (iso start) interval (i + 1)).periodStart → i = index

/-- Months are added to a valid date, and more months to a later date give a later date. -/
def StepsInOrder (a b : Civil) (m n : ℤ) : Prop :=
  WithinMonths a m → WithinMonths b n →
    (∃ d, FourDigit d ∧ addMonthsClamped (iso a) m = iso d) ∧
      (textLe (iso a) (iso b) → m ≤ n → textLe (addMonthsClamped (iso a) m) (addMonthsClamped (iso b) n))

/-- The term ends after the due period, after the least number of steps that gets there. -/
def ExtendedLeast (endDate due : Civil) (term : ℕ) : Prop :=
  1 ≤ term → due.monthIndex ≤ endDate.monthIndex + 90000 →
    (∃ k, WithinMonths endDate (k * term : ℕ) ∧
      textLt (iso due) ((addMonthsClamped · term)^[k] (iso endDate))) →
    ∃ n, extendTermPastDue (iso endDate) (iso due) term =
        ((addMonthsClamped · term)^[n] (iso endDate), decide (0 < n)) ∧
      textLt (iso due) (extendTermPastDue (iso endDate) (iso due) term).1 ∧
      ∀ m < n, textLe ((addMonthsClamped · term)^[m] (iso endDate)) (iso due)

theorem within_of_le (hs : FourDigit start) {i j : ℕ} (le : i ≤ j) (within : WithinMonths start (interval * j : ℕ)) :
    WithinMonths start (interval * i : ℕ) := by
  have low := hs.monthIndex_low
  have less := Nat.mul_le_mul_left interval le
  have high := within.2
  exact ⟨by omega, by omega⟩

theorem periodStart_eq (hs : FourDigit start) (interval i : ℕ) :
    (computePeriod (iso start) interval i).periodStart = iso (start.addMonths (interval * i : ℕ)) :=
  addMonthsClamped_forward hs _

theorem index_lt_of_textLt (hs : FourDigit start) (positive : 1 ≤ interval) (ha : FourDigit asOf) {i j : ℕ}
    (hi : WithinMonths start (interval * i : ℕ)) (hj : WithinMonths start (interval * j : ℕ))
    (started : textLe (computePeriod (iso start) interval i).periodStart (iso asOf))
    (next : textLt (iso asOf) (computePeriod (iso start) interval j).periodStart) : i < j := by
  rw [periodStart_eq hs, textLe_iso (hi.fourDigit hs.valid) ha, decide_eq_true_eq] at started
  rw [periodStart_eq hs, textLt_iso ha (hj.fourDigit hs.valid), decide_eq_true_eq] at next
  exact (rank_boundary_lt_iff hs.valid positive).mp (started.trans_lt next)

theorem tiles (hs : FourDigit start) (positive : 1 ≤ interval) : Tiles start interval where
  increasing i j less within := by
    rw [periodStart_eq hs, periodStart_eq hs, textLt_iso ((within_of_le hs less.le within).fourDigit hs.valid)
      (within.fourDigit hs.valid), decide_eq_true_eq]
    exact (rank_boundary_lt_iff hs.valid positive).mpr less
  adjoining _ := rfl
  indexed asOf ha after k guarded within later := by
    obtain ⟨-, reached, stopped⟩ := periodIndexFor_text (iso start) interval (iso asOf)
    have first : (computePeriod (iso start) interval 0).periodStart = iso start := by
      rw [computePeriod_eq hs, boundary_zero hs.valid]
    have started (j : ℕ) (below : j ≤ periodIndexFor (iso start) interval (iso asOf)) :
        textLe (computePeriod (iso start) interval j).periodStart (iso asOf) := by
      rcases Nat.eq_zero_or_pos j with rfl | up
      · rw [first]
        exact after
      · exact reached j up below
    have below : periodIndexFor (iso start) interval (iso asOf) < k := by
      by_contra notBelow
      have before := started k (not_lt.mp notBelow)
      rw [textLe, later] at before
      cases before
    have next : textLt (iso asOf)
        (computePeriod (iso start) interval (periodIndexFor (iso start) interval (iso asOf) + 1)).periodStart := by
      have notStarted := stopped (by omega)
      rwa [textLe, Bool.not_eq_false'] at notStarted
    refine ⟨below, started _ le_rfl, next, fun i room begun ended => ?_⟩
    have upTo (j : ℕ) (le : j ≤ k) := within_of_le hs le within
    have low := index_lt_of_textLt hs positive ha (within_of_le hs i.le_succ room) (upTo _ below) begun next
    have high := index_lt_of_textLt hs positive ha (upTo _ below.le) room (started _ le_rfl) ended
    omega

theorem stepsInOrder {a b : Civil} (ha : FourDigit a) (hb : FourDigit b) (m n : ℤ) : StepsInOrder a b m n := by
  intro left right
  refine ⟨⟨_, left.fourDigit ha.valid, ha.addMonthsClamped left⟩, fun dates months => ?_⟩
  rw [textLe_iso ha hb, decide_eq_true_eq] at dates
  rw [ha.addMonthsClamped left, hb.addMonthsClamped right,
    textLe_iso (left.fourDigit ha.valid) (right.fourDigit hb.valid), decide_eq_true_eq]
  exact rank_addMonths_mono ha.valid hb.valid dates months

theorem extendedLeast (h : FourDigit c) (hd : FourDigit due) (term : ℕ) : ExtendedLeast c due term := by
  rintro positive near ⟨k, within, later⟩
  have room (n : ℕ) (le : n ≤ k) : c.monthIndex + n * term < 120000 := by
    have less := Nat.mul_le_mul_right term le
    have high := within.2
    push_cast at high
    nlinarith
  have text (n : ℕ) (le : n ≤ k) := iterate_addMonthsClamped h (room n le)
  rw [(text k le_rfl).2, textLt_iso hd (text k le_rfl).1, decide_eq_true_eq] at later
  have reached : ∃ n, due.rank < (extended c term n).rank := ⟨k, later⟩
  have least := Nat.find_min' reached later
  have before (m : ℕ) (less : m < Nat.find reached) := not_lt.mp (Nat.find_min reached less)
  have guarded : Nat.find reached ≤ runawayGuard + 1 := by
    cases same : Nat.find reached with
    | zero => exact Nat.zero_le _
    | succ n =>
      have last := monthIndex_le_of_rank (text n (by omega)).1.valid hd.valid (before n (by omega))
      rw [monthIndex_extended] at last
      have steps : (n : ℤ) ≤ n * term := by nlinarith
      simp only [runawayGuard]
      omega
  have result : extendTermLoop _ _ _ _ false = _ :=
    extendTermLoop_eq hd h (room _ least) before (Nat.find_spec reached) guarded
  refine ⟨Nat.find reached, ?_, ?_, fun m less => ?_⟩
  · rw [extendTermPastDue, result, (text _ least).2, Bool.false_or]
  · rw [extendTermPastDue, result, textLt_iso hd (text _ least).1, decide_eq_true_eq]
    exact Nat.find_spec reached
  · rw [(text m (less.le.trans least)).2, textLe_iso (text m (less.le.trans least)).1 hd, decide_eq_true_eq]
    exact before m less

theorem contractMath_tiles (hs : FourDigit start) (positive : 1 ≤ interval) :
    Tiles start interval ∧
      (∀ a b, FourDigit a → FourDigit b → ∀ m n, StepsInOrder a b m n) ∧
      (∀ endDate due, FourDigit endDate → FourDigit due → ∀ term, ExtendedLeast endDate due term) :=
  ⟨tiles hs positive, fun _ _ ha hb m n => stepsInOrder ha hb m n, fun _ _ he hd term => extendedLeast he hd term⟩

theorem contractMath_tiles_endOfJanuary :
    textLt (computePeriod (iso ⟨2024, 1, 31⟩) 1 1).periodStart (computePeriod (iso ⟨2024, 1, 31⟩) 1 2).periodStart ∧
      textLe (addMonthsClamped (iso ⟨2024, 1, 30⟩) (-2)) (addMonthsClamped (iso ⟨2024, 1, 31⟩) 1) :=
  have law := contractMath_tiles (show FourDigit ⟨2024, 1, 31⟩ by decide +kernel) (le_refl 1)
  ⟨law.1.increasing 1 2 (by decide) (by decide +kernel),
    (law.2.1 ⟨2024, 1, 30⟩ ⟨2024, 1, 31⟩ (by decide +kernel) (by decide +kernel) (-2) 1
      (by decide +kernel) (by decide +kernel)).2 (by decide +kernel) (by decide)⟩

end RemudaRmm.Billing
