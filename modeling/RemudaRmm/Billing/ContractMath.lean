import RemudaRmm.Billing.IsoDate

/-! Period arithmetic of recurring contracts (`contractMath.ts`). Every function works on stored text; the lemmas give
its meaning on the calendar, inside the four-digit years. `periodIndexFor` is the inverse of `computePeriod` up to its
runaway guard. -/
namespace RemudaRmm.Billing
open Foundation
variable {c start : Civil} {interval : ℕ}

inductive BillingTiming where
  | advance
  | arrears
  deriving DecidableEq

structure Period where
  (periodStart periodEnd : Text)

/-- JavaScript's `%` truncates, hence the second remainder. -/
def addMonthsClamped (iso : Text) (months : ℤ) : Text :=
  let p := parts iso
  let zeroBased : ℤ := (p.m - 1) + months
  let ny := p.y + zeroBased / 12
  let nm1 := (((zeroBased.tmod 12) + 12).tmod 12 + 1).toNat
  let clampedDay := min p.d (daysInMonth ny nm1)
  fmt ny nm1 clampedDay

def computePeriod (startDate : Text) (intervalMonths periodIndex : ℕ) : Period where
  periodStart := addMonthsClamped startDate (intervalMonths * periodIndex : ℕ)
  periodEnd := addMonthsClamped startDate (intervalMonths * (periodIndex + 1) : ℕ)

def runawayGuard : ℕ := 100000

/-- The first argument is the number of increments left before the guard breaks the loop. -/
def periodIndexLoop (startDate : Text) (intervalMonths : ℕ) (asOf : Text) : ℕ → ℕ → ℕ
  | 0, idx => idx
  | left + 1, idx =>
    if textLe (computePeriod startDate intervalMonths (idx + 1)).periodStart asOf then
      periodIndexLoop startDate intervalMonths asOf left (idx + 1)
    else idx

def periodIndexFor (startDate : Text) (intervalMonths : ℕ) (asOf : Text) : ℕ :=
  periodIndexLoop startDate intervalMonths asOf (runawayGuard + 1) 0

def nextBillingDate (startDate : Text) (intervalMonths : ℕ) (billingTiming : BillingTiming) (periodIndex : ℕ) : Text :=
  let period := computePeriod startDate intervalMonths periodIndex
  match billingTiming with
  | .advance => period.periodStart
  | .arrears => period.periodEnd

def isExpired (endDate : Option Text) (periodStart : Text) : Bool :=
  match endDate with
  | none => false
  | some endDate => textLe endDate periodStart

def addDaysISO (iso : Text) (days : ℤ) : Text :=
  let p := parts iso
  let dt := dateUTC p.y (p.m - 1) (p.d + days)
  fmt dt.year dt.month dt.day

def duePeriodStartFor (billingTiming : BillingTiming) (nextBillingAt : Text) (intervalMonths : ℕ) :
    Text :=
  match billingTiming with
  | .advance => nextBillingAt
  | .arrears => addMonthsClamped nextBillingAt (-intervalMonths)

/-- True when `asOf` is in `[endDate - noticeDays, endDate)`. -/
def isWithinNoticeWindow (asOf endDate : Text) (noticeDays : ℕ) : Bool :=
  let windowStart := addDaysISO endDate (-noticeDays)
  textLe windowStart asOf && textLt asOf endDate

def extendTermLoop (duePeriodStart : Text) (termMonths : ℕ) : ℕ → Text → Bool → Text × Bool
  | 0, endDate, renewed => (endDate, renewed)
  | left + 1, endDate, renewed =>
    if isExpired (some endDate) duePeriodStart then
      extendTermLoop duePeriodStart termMonths left (addMonthsClamped endDate termMonths) true
    else (endDate, renewed)

/-- Roll the end date forward by whole terms until the due period no longer trips `isExpired`. -/
def extendTermPastDue (endDate duePeriodStart : Text) (termMonths : ℕ) : Text × Bool :=
  extendTermLoop duePeriodStart termMonths (runawayGuard + 1) endDate false

theorem addMonthsClamped_iso (h : FourDigit c) {months : ℤ} (modern : 1200 ≤ c.monthIndex + months) :
    addMonthsClamped (iso c) months = iso (c.addMonths months) := by
  have low := h.low
  have mlow := h.valid.month_pos
  have mhigh := h.valid.month_le
  have year : (c.year.toNat : ℤ) = c.year := Int.toNat_of_nonneg (by omega)
  have index : c.monthIndex + months = 12 * c.year + ((c.month - 1) + months) := by
    simp only [Civil.monthIndex]
    ring
  have quotient : c.year + ((c.month : ℤ) - 1 + months) / 12 = (c.monthIndex + months) / 12 := by omega
  have remainder : ((((c.month : ℤ) - 1 + months).tmod 12 + 12).tmod 12 + 1).toNat =
      ((c.monthIndex + months) % 12 + 1).toNat := by
    congr 2
    rw [index]
    generalize (c.month : ℤ) - 1 + months = zeroBased
    rcases le_total 0 zeroBased with nonneg | nonpos
    · rw [Int.tmod_eq_emod_of_nonneg nonneg, Int.tmod_eq_emod_of_nonneg (by omega)]
      omega
    · have negated : zeroBased.tmod 12 = -((-zeroBased) % 12) := by
        rw [← Int.tmod_eq_emod_of_nonneg (by omega), Int.neg_tmod, neg_neg]
      rw [negated, Int.tmod_eq_emod_of_nonneg (by omega)]
      omega
  simp only [addMonthsClamped, parts_iso h, year]
  rw [quotient, remainder, daysInMonth_eq (by omega) (by omega) (by omega)]
  rfl

def boundary (start : Civil) (interval index : ℕ) : Civil := start.addMonths (interval * index : ℕ)

/-- A date from which a whole further period still ends in a four-digit year. -/
structure WithinYears (interval : ℕ) (c : Civil) : Prop where
  date : FourDigit c
  room : c.monthIndex + interval < 120000

instance (interval : ℕ) (c : Civil) : Decidable (WithinYears interval c) :=
  decidable_of_iff (FourDigit c ∧ c.monthIndex + interval < 120000)
    ⟨fun h => ⟨h.1, h.2⟩, fun h => ⟨h.1, h.2⟩⟩

theorem FourDigit.monthIndex_low (h : FourDigit c) : 12000 ≤ c.monthIndex := by
  have low := h.low
  have month := h.valid.month_pos
  simp only [Civil.monthIndex]
  omega

theorem FourDigit.monthIndex_high (h : FourDigit c) : c.monthIndex < 120000 := by
  have high := h.high
  have month := h.valid.month_le
  simp only [Civil.monthIndex]
  omega

theorem FourDigit.addMonths (h : FourDigit c) {months : ℕ}
    (room : c.monthIndex + months < 120000) : FourDigit (c.addMonths months) := by
  have low := h.monthIndex_low
  refine ⟨h.valid.addMonths _, ?_, ?_⟩ <;> simp only [Civil.addMonths, Civil.year_inMonth] <;> omega

theorem addMonthsClamped_forward (h : FourDigit c) (months : ℕ) :
    addMonthsClamped (iso c) months = iso (c.addMonths months) :=
  addMonthsClamped_iso h (by have := h.monthIndex_low; omega)

theorem computePeriod_eq (h : FourDigit start) (interval index : ℕ) :
    computePeriod (iso start) interval index =
      ⟨iso (boundary start interval index), iso (boundary start interval (index + 1))⟩ := by
  rw [computePeriod, addMonthsClamped_forward h, addMonthsClamped_forward h]
  rfl

theorem boundary_zero (h : start.Valid) (interval : ℕ) : boundary start interval 0 = start := by
  rw [boundary, Nat.mul_zero]
  exact h.addMonths_zero

theorem monthIndex_boundary (start : Civil) (interval index : ℕ) :
    (boundary start interval index).monthIndex = start.monthIndex + interval * index := by
  rw [boundary, Civil.monthIndex_addMonths, Nat.cast_mul]

theorem rank_boundary_lt_iff (h : start.Valid) (positive : 1 ≤ interval) {i j : ℕ} :
    (boundary start interval i).rank < (boundary start interval j).rank ↔ i < j := by
  rw [boundary, boundary, h.rank_addMonths_lt_iff, Nat.cast_lt]
  exact Nat.mul_lt_mul_left (by omega)

theorem rank_boundary_le_iff (h : start.Valid) (positive : 1 ≤ interval) {i j : ℕ} :
    (boundary start interval i).rank ≤ (boundary start interval j).rank ↔ i ≤ j := by
  rw [← not_lt, rank_boundary_lt_iff h positive, not_lt]

theorem fourDigit_boundary (h : FourDigit start) {index : ℕ} (room : start.monthIndex + interval * index < 120000) :
    FourDigit (boundary start interval index) :=
  h.addMonths (by push_cast; exact room)

theorem monthIndex_le_of_rank {a b : Civil} (ha : a.Valid) (hb : b.Valid) (h : a.rank ≤ b.rank) :
    a.monthIndex ≤ b.monthIndex := by
  have left := ha.rank_bounds
  have right := hb.rank_bounds
  omega

theorem periodIndexLoop_spec (startDate : Text) (interval : ℕ) (asOf : Text) (left idx : ℕ) :
    let result := periodIndexLoop startDate interval asOf left idx
    idx ≤ result ∧ result ≤ idx + left ∧
      (∀ j, idx < j → j ≤ result → textLe (computePeriod startDate interval j).periodStart asOf) ∧
      (result < idx + left → textLe (computePeriod startDate interval (result + 1)).periodStart asOf = false) := by
  induction left generalizing idx with
  | zero =>
    refine ⟨le_rfl, le_rfl, ?_, ?_⟩
    · intro j above below
      exact absurd (above.trans_le below) (lt_irrefl _)
    · intro less
      exact absurd less (lt_irrefl _)
  | succ left ih =>
    simp only [periodIndexLoop]
    split_ifs with next
    · obtain ⟨low, high, reached, stopped⟩ := ih (idx + 1)
      refine ⟨by omega, by omega, ?_, ?_⟩
      · intro j above below
        rcases Nat.eq_or_lt_of_le (Nat.succ_le_of_lt above) with same | later
        · rw [← same]
          exact next
        · exact reached j later below
      · intro less
        exact stopped (by omega)
    · refine ⟨le_rfl, by omega, ?_, ?_⟩
      · intro j above below
        exact absurd (above.trans_le below) (lt_irrefl _)
      · intro _
        exact Bool.eq_false_iff.mpr next

section PeriodIndex
variable {start asOf : Civil} {interval : ℕ}

theorem textLe_periodStart (hs : FourDigit start) (ha : FourDigit asOf) {j : ℕ}
    (room : start.monthIndex + interval * j < 120000) :
    textLe (computePeriod (iso start) interval j).periodStart (iso asOf) =
      decide ((boundary start interval j).rank ≤ asOf.rank) := by
  rw [computePeriod_eq hs, textLe_iso (fourDigit_boundary hs room) ha]

theorem periodIndexFor_text (startDate : Text) (interval : ℕ) (asOf : Text) :
    periodIndexFor startDate interval asOf ≤ runawayGuard + 1 ∧
      (∀ j, 0 < j → j ≤ periodIndexFor startDate interval asOf →
        textLe (computePeriod startDate interval j).periodStart asOf) ∧
      (periodIndexFor startDate interval asOf ≤ runawayGuard →
        textLe (computePeriod startDate interval
          (periodIndexFor startDate interval asOf + 1)).periodStart asOf = false) := by
  obtain ⟨-, high, reached, stopped⟩ :=
    periodIndexLoop_spec startDate interval asOf (runawayGuard + 1) 0
  rw [Nat.zero_add] at high stopped
  exact ⟨high, reached, fun below => stopped (Nat.lt_succ_of_le below)⟩

theorem room_after_started (hs : WithinYears interval start) (ha : WithinYears interval asOf) {j : ℕ}
    (started : 0 < j → (boundary start interval j).rank ≤ asOf.rank) :
    start.monthIndex + interval * (j + 1 : ℕ) < 120000 := by
  have split : (interval : ℤ) * (j + 1 : ℕ) = interval * j + interval := by push_cast; ring
  have room := hs.room
  rcases Nat.eq_zero_or_pos j with zero | later
  · subst zero
    rw [split, Nat.cast_zero, mul_zero]
    omega
  · have month := monthIndex_le_of_rank (a := boundary start interval j)
      (hs.date.valid.addMonths _) ha.date.valid (started later)
    rw [monthIndex_boundary] at month
    have room' := ha.room
    omega

theorem started_of_textLe (hs : WithinYears interval start) (ha : WithinYears interval asOf) {r : ℕ}
    (reached : ∀ j, 0 < j → j ≤ r →
      textLe (computePeriod (iso start) interval j).periodStart (iso asOf)) :
    ∀ j, 0 < j → j ≤ r → (boundary start interval j).rank ≤ asOf.rank := by
  intro j
  induction j with
  | zero => intro positive; exact absurd positive (lt_irrefl _)
  | succ j ih =>
    intro _ below
    have room := room_after_started hs ha (j := j) fun positive => ih positive (by omega)
    have text := reached (j + 1) (by omega) below
    rw [textLe_periodStart hs.date ha.date (by omega), decide_eq_true_eq] at text
    exact text

theorem periodIndexFor_spec (hs : WithinYears interval start) (ha : WithinYears interval asOf) :
    let r := periodIndexFor (iso start) interval (iso asOf)
    r ≤ runawayGuard + 1 ∧ (0 < r → (boundary start interval r).rank ≤ asOf.rank) ∧
      (r ≤ runawayGuard → asOf.rank < (boundary start interval (r + 1)).rank) := by
  obtain ⟨high, reached, stopped⟩ := periodIndexFor_text (iso start) interval (iso asOf)
  have started := started_of_textLe hs ha reached
  refine ⟨high, fun positive => started _ positive le_rfl, ?_⟩
  intro below
  have room := room_after_started hs ha (started _ · le_rfl)
  have text := stopped below
  rw [textLe_periodStart hs.date ha.date (by omega), decide_eq_false_iff_not] at text
  exact not_le.mp text

theorem periodIndexFor_eq (positive : 1 ≤ interval) (hs : WithinYears interval start)
    (ha : WithinYears interval asOf) {k : ℕ} (guarded : k ≤ runawayGuard + 1)
    (started : 0 < k → (boundary start interval k).rank ≤ asOf.rank)
    (next : k ≤ runawayGuard → asOf.rank < (boundary start interval (k + 1)).rank) :
    periodIndexFor (iso start) interval (iso asOf) = k := by
  obtain ⟨high, reached, stopped⟩ := periodIndexFor_spec hs ha
  rcases lt_trichotomy (periodIndexFor (iso start) interval (iso asOf)) k with less | same | more
  · have order := (rank_boundary_le_iff hs.date.valid positive).mpr (Nat.succ_le_of_lt less)
    have past := stopped (by omega)
    have reachedK := started (by omega)
    exact absurd (order.trans reachedK) (not_le.mpr past)
  · exact same
  · have order := (rank_boundary_le_iff hs.date.valid positive).mpr (Nat.succ_le_of_lt more)
    have past := next (by omega)
    have reachedR := reached (by omega)
    exact absurd (order.trans reachedR) (not_le.mpr past)

theorem periodIndexFor_boundary (positive : 1 ≤ interval) (hs : WithinYears interval start) {k : ℕ}
    (hk : WithinYears interval (boundary start interval k)) :
    periodIndexFor (iso start) interval (iso (boundary start interval k)) = min k (runawayGuard + 1) := by
  apply periodIndexFor_eq positive hs hk (Nat.min_le_right _ _)
  · intro _
    exact (rank_boundary_le_iff hs.date.valid positive).mpr (Nat.min_le_left _ _)
  · intro below
    exact (rank_boundary_lt_iff hs.date.valid positive).mpr (by omega)

end PeriodIndex

end RemudaRmm.Billing
