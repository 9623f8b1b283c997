import RemudaRmm.Foundation.Text
import RemudaRmm.Foundation.Calendar

/-! Dates as the billing services handle them: `YYYY-MM-DD` text, split on the dashes, compared as text and computed
through `Date.UTC`. For four-digit years text comparison is comparison of ranks. -/
namespace RemudaRmm.Billing
open Foundation List
variable {c a b : Civil}

/-- `Date.UTC` reads the years 0 to 99 as 1900 to 1999. -/
def fullYear (year : ℤ) : ℤ := if 0 ≤ year ∧ year ≤ 99 then 1900 + year else year

/-- The UTC day of `new Date(Date.UTC(year, month0, date))`; month and date may overflow. -/
def dateUTC (year month0 date : ℤ) : Civil := Civil.normalize (12 * fullYear year + month0) date

def padded (width n : ℕ) : Text := padStart width (decimal n)

/-- `toISOString().slice(0, 10)`: years outside 0 to 9999 are written with a sign and six digits,
so that the slice loses the end of the date. -/
def isoDay (day : Civil) : Text :=
  let year :=
    if 0 ≤ day.year ∧ day.year ≤ 9999 then padded 4 day.year.toNat
    else (if day.year < 0 then '-' else '+') :: padded 6 day.year.natAbs
  (year ++ '-' :: (padded 2 day.month ++ '-' :: padded 2 day.day)).take 10

def interpolate (n : ℤ) : Text := if n < 0 then '-' :: decimal n.natAbs else decimal n.natAbs

structure Parts where
  (y m d : ℕ)

def parts (iso : Text) : Parts :=
  let segments := iso.splitOn '-'
  ⟨number (segments.getD 0 []), number (segments.getD 1 []), number (segments.getD 2 [])⟩

/-- Day zero of the next month is the last day of this one; `month1` counts from one. -/
def daysInMonth (year : ℤ) (month1 : ℕ) : ℕ := (dateUTC year month1 0).day

def fmt (y : ℤ) (m1 d : ℕ) : Text :=
  interpolate y ++ '-' :: (padded 2 m1 ++ '-' :: padded 2 d)

def iso (c : Civil) : Text := fmt c.year c.month c.day

/-- The dates whose text has the stored form. -/
structure FourDigit (c : Civil) : Prop where
  valid : c.Valid
  low : 1000 ≤ c.year
  high : c.year ≤ 9999

instance (c : Civil) : Decidable (FourDigit c) :=
  decidable_of_iff (c.Valid ∧ 1000 ≤ c.year ∧ c.year ≤ 9999)
    ⟨fun h => ⟨h.1, h.2.1, h.2.2⟩, fun h => ⟨h.1, h.2, h.3⟩⟩

theorem interpolate_of_nonneg {n : ℤ} (h : 0 ≤ n) : interpolate n = decimal n.toNat := by
  rw [interpolate, if_neg (not_lt.mpr h), show n.natAbs = n.toNat by omega]

theorem digits_padded (width n : ℕ) : Digits (padded width n) := digits_padStart width (digits_decimal n)

@[simp] theorem number_padded (width n : ℕ) : number (padded width n) = n := by
  rw [padded, number_padStart, number_decimal]

theorem parts_fmt {y : ℤ} (positive : 0 ≤ y) (m d : ℕ) : parts (fmt y m d) = ⟨y.toNat, m, d⟩ := by
  have dash : '-'.isDigit = false := rfl
  rw [fmt, interpolate_of_nonneg positive, parts,
    splitOn_digits dash (digits_decimal _), splitOn_digits dash (digits_padded 2 m),
    splitOn_last dash (digits_padded 2 d)]
  simp

theorem daysInMonth_eq {year : ℤ} {month : ℕ} (modern : 100 ≤ year) (low : 1 ≤ month)
    (high : month ≤ 12) : daysInMonth year month = monthLength year month := by
  rw [daysInMonth, dateUTC, fullYear, if_neg (by omega), Civil.normalize_zero, Civil.day_inMonth, Civil.lengthAt]
  congr 1 <;> omega

theorem FourDigit.fmt_eq (h : FourDigit c) :
    iso c = decimal c.year.toNat ++ '-' :: (padded 2 c.month ++ '-' :: padded 2 c.day) := by
  have low := h.low
  rw [iso, fmt, interpolate_of_nonneg (by omega)]

theorem FourDigit.length_year (h : FourDigit c) : (decimal c.year.toNat).length = 4 := by
  have low := h.low
  have high := h.high
  exact length_decimal_four (by omega) (by omega)

theorem FourDigit.length_month (h : FourDigit c) : (padded 2 c.month).length = 2 :=
  length_padStart (by decide) (by have := h.valid.month_le; omega)

theorem FourDigit.length_day (h : FourDigit c) : (padded 2 c.day).length = 2 :=
  length_padStart (by decide) (by have := h.valid.day_le_max; omega)

theorem textLt_iso (ha : FourDigit a) (hb : FourDigit b) : textLt (iso a) (iso b) = decide (a.rank < b.rank) := by
  have years : (decimal a.year.toNat).length = (decimal b.year.toNat).length := by
    rw [ha.length_year, hb.length_year]
  have months : (padded 2 a.month).length = (padded 2 b.month).length := by
    rw [ha.length_month, hb.length_month]
  have days : (padded 2 a.day).length = (padded 2 b.day).length := by
    rw [ha.length_day, hb.length_day]
  have lastDay : textLt (padded 2 a.day) (padded 2 b.day) = decide (a.day < b.day) := by
    have split := textLt_digits days (digits_padded 2 a.day) (digits_padded 2 b.day) [] []
    simp only [append_nil, number_padded] at split
    rw [split]
    split_ifs with same
    · simp [textLt, same]
    · rfl
  rw [ha.fmt_eq, hb.fmt_eq, textLt_digits years (digits_decimal _) (digits_decimal _)]
  simp only [number_decimal, textLt, if_true]
  rw [textLt_digits months (digits_padded 2 a.month) (digits_padded 2 b.month)]
  simp only [number_padded, textLt, if_true, lastDay]
  have la := ha.low
  have lb := hb.low
  have ma := ha.valid.month_le
  have mb := hb.valid.month_le
  have pa := ha.valid.month_pos
  have pb := hb.valid.month_pos
  have da := ha.valid.day_le_max
  have db := hb.valid.day_le_max
  have qa := ha.valid.day_pos
  have qb := hb.valid.day_pos
  split_ifs with sameYear sameMonth <;> apply decide_eq_decide.mpr <;>
    simp only [Civil.rank, Civil.monthIndex] <;> omega

theorem textLe_iso (ha : FourDigit a) (hb : FourDigit b) : textLe (iso a) (iso b) = decide (a.rank ≤ b.rank) := by
  rw [textLe, textLt_iso hb ha, ← decide_not, decide_eq_decide, not_lt]

theorem iso_injective (ha : FourDigit a) (hb : FourDigit b) (h : iso a = iso b) : a = b := by
  apply ha.valid.eq_of_rank hb.valid
  have left := textLe_iso ha hb
  have right := textLe_iso hb ha
  rw [h] at left right
  have same := textLe_iso hb hb
  rw [decide_eq_true le_rfl] at same
  rw [same] at left right
  exact le_antisymm (of_decide_eq_true left.symm) (of_decide_eq_true right.symm)

theorem parts_iso (h : FourDigit c) : parts (iso c) = ⟨c.year.toNat, c.month, c.day⟩ :=
  parts_fmt (by have := h.low; omega) _ _

theorem isoDay_eq_iso (h : FourDigit c) : isoDay c = iso c := by
  have low := h.low
  have high := h.high
  have year : padded 4 c.year.toNat = decimal c.year.toNat := by
    rw [padded, padStart, h.length_year]
    rfl
  have full : (decimal c.year.toNat ++ '-' :: (padded 2 c.month ++ '-' :: padded 2 c.day)).length = 10 := by
    simp only [length_append, length_cons, h.length_year, h.length_month, h.length_day]
  simp only [isoDay, if_pos (show 0 ≤ c.year ∧ c.year ≤ 9999 by omega), year]
  rw [h.fmt_eq, take_of_length_le (by omega)]

end RemudaRmm.Billing
