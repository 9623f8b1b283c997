import Mathlib.Tactic.Ring
import Mathlib.Tactic.Linarith

/-! Proleptic Gregorian dates, counted by month. The rank of a date is a strictly monotone integer image of its month
index and its day, so that every order question about dates becomes linear arithmetic. -/
namespace RemudaRmm.Foundation

def isLeap (year : ℤ) : Bool := year % 4 == 0 && (year % 100 != 0 || year % 400 == 0)

def monthLength (year : ℤ) : ℕ → ℕ
  | 2 => if isLeap year then 29 else 28
  | 4 | 6 | 9 | 11 => 30
  | _ => 31

structure Civil where
  year : ℤ
  (month day : ℕ)
  deriving DecidableEq

namespace Civil
variable {c : Civil} {index : ℤ} {day : ℕ}

structure Valid (c : Civil) : Prop where
  month_pos : 1 ≤ c.month
  month_le : c.month ≤ 12
  day_pos : 1 ≤ c.day
  day_le : c.day ≤ monthLength c.year c.month

instance (c : Civil) : Decidable c.Valid :=
  decidable_of_iff (1 ≤ c.month ∧ c.month ≤ 12 ∧ 1 ≤ c.day ∧ c.day ≤ monthLength c.year c.month)
    ⟨fun h => ⟨h.1, h.2.1, h.2.2.1, h.2.2.2⟩, fun h => ⟨h.1, h.2, h.3, h.4⟩⟩

def monthIndex (c : Civil) : ℤ := 12 * c.year + (c.month - 1)

/-- Strictly monotone in the date: a month has fewer than thirty-two days. -/
def rank (c : Civil) : ℤ := 32 * c.monthIndex + c.day

/-- The day `day` of the month with index `index`. -/
def inMonth (index : ℤ) (day : ℕ) : Civil := ⟨index / 12, (index % 12 + 1).toNat, day⟩

def lengthAt (index : ℤ) : ℕ := monthLength (index / 12) (index % 12 + 1).toNat

/-- Month addition that keeps the day of the month, or the last day of a shorter month. -/
def addMonths (c : Civil) (months : ℤ) : Civil :=
  inMonth (c.monthIndex + months) (min c.day (lengthAt (c.monthIndex + months)))

def rollForward : ℕ → ℤ → ℕ → Civil
  | 0, index, day => inMonth index day
  | fuel + 1, index, day =>
    if day ≤ lengthAt index then inMonth index day
    else rollForward fuel (index + 1) (day - lengthAt index)

def rollBack : ℕ → ℤ → ℕ → Civil
  | 0, index, _ => inMonth index 1
  | fuel + 1, index, before =>
    if before < lengthAt (index - 1) then inMonth (index - 1) (lengthAt (index - 1) - before)
    else rollBack fuel (index - 1) (before - lengthAt (index - 1))

/-- The date `day - 1` days after the first of the month: days past the end roll into later
months, day zero and negative days into earlier ones. -/
def normalize (index day : ℤ) : Civil :=
  if 1 ≤ day then rollForward day.toNat index day.toNat
  else rollBack ((-day).toNat + 1) index (-day).toNat

theorem monthLength_bounds (year : ℤ) (month : ℕ) : 28 ≤ monthLength year month ∧ monthLength year month ≤ 31 := by
  unfold monthLength
  split
  · split_ifs <;> omega
  all_goals omega

theorem lengthAt_bounds (index : ℤ) : 28 ≤ lengthAt index ∧ lengthAt index ≤ 31 :=
  monthLength_bounds _ _

@[simp] theorem day_inMonth (index : ℤ) (day : ℕ) : (inMonth index day).day = day := rfl

@[simp] theorem year_inMonth (index : ℤ) (day : ℕ) : (inMonth index day).year = index / 12 := rfl

@[simp] theorem monthIndex_inMonth (index : ℤ) (day : ℕ) : (inMonth index day).monthIndex = index := by
  simp only [monthIndex, inMonth]
  omega

theorem rank_inMonth (index : ℤ) (day : ℕ) : (inMonth index day).rank = 32 * index + day := by
  simp only [rank, monthIndex_inMonth, day_inMonth]

theorem Valid.lengthAt_monthIndex (h : c.Valid) : lengthAt c.monthIndex = monthLength c.year c.month := by
  have low := h.month_pos
  have high := h.month_le
  simp only [lengthAt, monthIndex]
  congr 1 <;> omega

theorem Valid.day_le_lengthAt (h : c.Valid) : c.day ≤ lengthAt c.monthIndex := by
  rw [h.lengthAt_monthIndex]
  exact h.day_le

theorem Valid.day_le_max (h : c.Valid) : c.day ≤ 31 :=
  h.day_le.trans (monthLength_bounds _ _).2

theorem Valid.inMonth_self (h : c.Valid) : inMonth c.monthIndex c.day = c := by
  have low := h.month_pos
  have high := h.month_le
  rcases c with ⟨year, month, day⟩
  simp only [inMonth, monthIndex, Civil.mk.injEq, and_true]
  simp only at low high
  omega

theorem valid_inMonth (low : 1 ≤ day) (high : day ≤ lengthAt index) : (inMonth index day).Valid := by
  refine ⟨?_, ?_, low, high⟩ <;> simp only [inMonth] <;> omega

theorem Valid.eq_of_rank {a b : Civil} (ha : a.Valid) (hb : b.Valid) (h : a.rank = b.rank) : a = b := by
  have da := ha.day_le_max
  have db := hb.day_le_max
  have la := ha.day_pos
  have lb := hb.day_pos
  simp only [rank] at h
  have index : a.monthIndex = b.monthIndex := by omega
  have days : a.day = b.day := by omega
  rw [← ha.inMonth_self, ← hb.inMonth_self, index, days]

@[simp] theorem monthIndex_addMonths (c : Civil) (months : ℤ) :
    (c.addMonths months).monthIndex = c.monthIndex + months := monthIndex_inMonth _ _

/-- Going back from a later month loses the day of the month exactly when that month is too short for it. -/
theorem addMonths_back_iff (c : Civil) (months back : ℤ) :
    (c.addMonths months).addMonths (-back) = c.addMonths (months - back) ↔
      (c.addMonths (months - back)).day ≤ lengthAt (c.monthIndex + months) := by
  have month : (c.addMonths months).monthIndex + -back = c.monthIndex + (months - back) := by
    rw [monthIndex_addMonths]
    ring
  have again : (c.addMonths months).addMonths (-back) = inMonth (c.monthIndex + (months - back))
      (min (min c.day (lengthAt (c.monthIndex + months))) (lengthAt (c.monthIndex + (months - back)))) := by
    rw [addMonths, month]
    rfl
  have direct : c.addMonths (months - back) = inMonth (c.monthIndex + (months - back))
      (min c.day (lengthAt (c.monthIndex + (months - back)))) := rfl
  rw [again, direct, day_inMonth]
  constructor
  · intro same
    have days := congrArg day same
    rw [day_inMonth, day_inMonth] at days
    omega
  · intro long
    congr 1
    omega

theorem Valid.addMonths (h : c.Valid) (months : ℤ) : (c.addMonths months).Valid :=
  valid_inMonth (by have := h.day_pos; have := lengthAt_bounds (c.monthIndex + months); omega)
    (Nat.min_le_right _ _)

theorem Valid.addMonths_zero (h : c.Valid) : c.addMonths 0 = c := by
  have within := h.day_le_lengthAt
  rw [Civil.addMonths, add_zero, Nat.min_eq_left within, h.inMonth_self]

theorem Valid.rank_bounds (h : c.Valid) : 32 * c.monthIndex + 1 ≤ c.rank ∧ c.rank ≤ 32 * c.monthIndex + 31 := by
  have low := h.day_pos
  have high := h.day_le_max
  simp only [rank]
  omega

theorem Valid.rank_addMonths_bounds (h : c.Valid) (months : ℤ) :
    32 * (c.monthIndex + months) + 1 ≤ (c.addMonths months).rank ∧
      (c.addMonths months).rank ≤ 32 * (c.monthIndex + months) + 31 := by
  simpa only [monthIndex_addMonths] using (h.addMonths months).rank_bounds

theorem Valid.rank_addMonths_lt (h : c.Valid) {m n : ℤ} (less : m < n) :
    (c.addMonths m).rank < (c.addMonths n).rank := by
  have left := h.rank_addMonths_bounds m
  have right := h.rank_addMonths_bounds n
  omega

theorem Valid.rank_addMonths_lt_iff (h : c.Valid) {m n : ℤ} : (c.addMonths m).rank < (c.addMonths n).rank ↔ m < n := by
  refine ⟨fun less => ?_, h.rank_addMonths_lt⟩
  by_contra notLess
  rcases (not_lt.mp notLess).eq_or_lt with same | more
  · exact absurd less (same ▸ lt_irrefl _)
  · exact absurd less (h.rank_addMonths_lt more).not_gt

theorem normalize_zero (index : ℤ) : normalize index 0 = inMonth (index - 1) (lengthAt (index - 1)) := by
  have bounds := lengthAt_bounds (index - 1)
  simp only [normalize, rollBack]
  rw [if_neg (by decide), if_pos (by simp only [neg_zero, Int.toNat_zero]; omega)]
  simp

theorem normalize_within (low : 1 ≤ day) (high : day ≤ lengthAt index) : normalize index day = inMonth index day := by
  obtain ⟨fuel, rfl⟩ := Nat.exists_eq_add_of_le' low
  rw [normalize, if_pos (by omega), Int.toNat_natCast, rollForward, if_pos high]

/-- A day that the month lacks falls in the first days of the next month. -/
theorem normalize_overflow (excess : lengthAt index < day) (high : day ≤ 31) :
    normalize index day = inMonth (index + 1) (day - lengthAt index) := by
  have here := lengthAt_bounds index
  have next := lengthAt_bounds (index + 1)
  obtain ⟨fuel, rfl⟩ := Nat.exists_eq_add_of_le' (show 2 ≤ day by omega)
  rw [normalize, if_pos (by omega), Int.toNat_natCast, rollForward, if_neg (by omega), rollForward, if_pos (by omega)]

end Civil
end RemudaRmm.Foundation
