import Mathlib.Algebra.EuclideanDomain.Basic
import Mathlib.Algebra.EuclideanDomain.Int
import RemudaRmm.Foundation.InternetAddress
import RemudaRmm.Policies.TimeWindows

/-! The cron expressions of automations (`automationRuntime.ts`) and the sets that their fields denote. -/
namespace RemudaRmm.Policies
open Foundation List

structure ZonedDateParts where
  (minute hour dayOfMonth month dayOfWeek : ℤ)

/-- Spaces, a sign and the digits up to the first other character. -/
def parseInt (t : Text) : Option ℤ :=
  let t := t.dropWhile isSpaceChar
  let digits := (if t.head? = some '-' ∨ t.head? = some '+' then t.tail else t).takeWhile Char.isDigit
  if digits = [] then none else some (if t.head? = some '-' then -number digits else number digits)

def rangeOf (base : Text) (min max : ℤ) : Option (ℤ × ℤ) :=
  if base = ['*'] then some (min, max)
  else if '-' ∈ base then
    let ends := base.splitOn '-'
    (parseInt (ends.getD 0 [])).bind fun start => (parseInt (ends.getD 1 [])).map fun stop => (start, stop)
  else (parseInt base).map fun single => (single, single)

def segmentMatches (value min max : ℤ) (segment : Text) : Bool :=
  let valueMatch := trimBy isSpaceChar segment
  let stepParts := valueMatch.splitOn '/'
  let step := parseInt (stepParts.getD 1 [])
  valueMatch ≠ [] && (rangeOf (stepParts.getD 0 []) min max).any fun (rangeStart, rangeEnd) =>
    rangeStart ≤ value && value ≤ rangeEnd && step.all fun step => step ≤ 0 || (value - rangeStart) % step = 0

def matchesCronField (field : Text) (value min max : ℤ) : Bool :=
  let normalized := trimBy isSpaceChar field
  normalized = ['*'] || (normalized.splitOn ',').any (segmentMatches value min max)

/-- The fields of an expression: what stands between its spaces. -/
def cronFields (cronExpression : Text) : List Text := (cronExpression.splitOnP isSpaceChar).filter (· ≠ [])

def isCronDue (cronExpression : Text) (zoned : ZonedDateParts) : Bool :=
  match cronFields cronExpression with
  | [minuteField, hourField, dayOfMonthField, monthField, dayOfWeekField] =>
    let dayOfMonthMatches := matchesCronField dayOfMonthField zoned.dayOfMonth 1 31
    let normalizedDowValue := if zoned.dayOfWeek = 0 then 7 else zoned.dayOfWeek
    let dayOfWeekMatches := matchesCronField dayOfWeekField zoned.dayOfWeek 0 7 ||
      matchesCronField dayOfWeekField normalizedDowValue 1 7
    matchesCronField minuteField zoned.minute 0 59 && matchesCronField hourField zoned.hour 0 23 &&
      matchesCronField monthField zoned.month 1 12 &&
      (if dayOfMonthField = ['*'] ∨ dayOfWeekField = ['*'] then dayOfMonthMatches && dayOfWeekMatches
        else dayOfMonthMatches || dayOfWeekMatches)
  | _ => false

/-- `*`, `n` and `n-m`, with a step after a slash. -/
inductive CronItem
  | all (step : Option Text)
  | single (n : Text)
  | range (n m : Text) (step : Option Text)

namespace CronItem

def base : CronItem → Text
  | all _ => ['*']
  | single n => n
  | range n m _ => n ++ '-' :: m

def step : CronItem → Option Text
  | all step | range _ _ step => step
  | single _ => none

def text (item : CronItem) : Text := item.base ++ item.step.elim [] ('/' :: ·)

def numbers : CronItem → List Text
  | all _ => []
  | single n => [n]
  | range n m _ => [n, m]

/-- The first value and the last one. -/
def span (min max : ℤ) : CronItem → ℤ × ℤ
  | all _ => (min, max)
  | single n => (number n, number n)
  | range n m _ => (number n, number m)

/-- A whole number of steps from the first value up to the last. -/
def Denotes (min max : ℤ) (item : CronItem) (value : ℤ) : Prop :=
  (item.span min max).1 ≤ value ∧ value ≤ (item.span min max).2 ∧
    ∀ s ∈ item.step, (number s : ℤ) ∣ value - (item.span min max).1
  deriving Decidable

def Numeral (t : Text) : Prop := t ≠ [] ∧ ∀ c ∈ t, c.isDigit

instance decidableNumeral (t : Text) : Decidable (Numeral t) :=
  decidable_of_iff (t ≠ [] ∧ t.all Char.isDigit) (by simp [Numeral])

def WellFormed (item : CronItem) : Prop :=
  (∀ n ∈ item.numbers, Numeral n) ∧ ∀ s ∈ item.step, Numeral s ∧ 1 ≤ number s
  deriving Decidable

end CronItem

structure CronField where
  items : List CronItem
  some_item : items ≠ []
  wellFormed : ∀ item ∈ items, item.WellFormed

namespace CronField

def text (field : CronField) : Text := [','].intercalate (field.items.map CronItem.text)

def Denotes (min max : ℤ) (field : CronField) (value : ℤ) : Prop := ∃ item ∈ field.items, item.Denotes min max value
  deriving Decidable

/-- Sunday is 0 and 7, and the steps of a star are counted over 0 to 6. -/
def DenotesDay (field : CronField) (dayOfWeek : ℤ) : Prop :=
  ∃ item ∈ field.items, item.Denotes 0 6 dayOfWeek ∨ dayOfWeek = 0 ∧ item.Denotes 0 6 7
  deriving Decidable

/-- A step of a star, counted from Monday, meets the day. -/
def StepsFromMonday (field : CronField) (dayOfWeek : ℤ) : Prop :=
  ∃ item ∈ field.items, item.base = ['*'] ∧ item.Denotes 1 7 (if dayOfWeek = 0 then 7 else dayOfWeek)
  deriving Decidable

end CronField

structure CronExpression where
  (minute hour dayOfMonth month dayOfWeek : CronField)

namespace CronExpression

def fields (e : CronExpression) : List Text :=
  [e.minute.text, e.hour.text, e.dayOfMonth.text, e.month.text, e.dayOfWeek.text]

def DenotesTime (e : CronExpression) (zoned : ZonedDateParts) : Prop :=
  e.minute.Denotes 0 59 zoned.minute ∧ e.hour.Denotes 0 23 zoned.hour ∧ e.month.Denotes 1 12 zoned.month
  deriving Decidable

def Due (e : CronExpression) (zoned : ZonedDateParts) : Prop :=
  e.DenotesTime zoned ∧ if e.dayOfMonth.text = ['*'] ∨ e.dayOfWeek.text = ['*'] then
      e.dayOfMonth.Denotes 1 31 zoned.dayOfMonth ∧ e.dayOfWeek.DenotesDay zoned.dayOfWeek
    else e.dayOfMonth.Denotes 1 31 zoned.dayOfMonth ∨ e.dayOfWeek.DenotesDay zoned.dayOfWeek
  deriving Decidable

/-- The time and the other fields leave the decision to the weekday, which the expression does not denote although
one of its steps meets it when counted from Monday. -/
def Strays (e : CronExpression) (zoned : ZonedDateParts) : Prop :=
  e.DenotesTime zoned ∧ (e.dayOfMonth.text = ['*'] ∨ ¬e.dayOfMonth.Denotes 1 31 zoned.dayOfMonth) ∧
    ¬e.dayOfWeek.DenotesDay zoned.dayOfWeek ∧ e.dayOfWeek.StepsFromMonday zoned.dayOfWeek
  deriving Decidable

end CronExpression

structure ZonedDateParts.Valid (zoned : ZonedDateParts) : Prop where
  minute : 0 ≤ zoned.minute ∧ zoned.minute ≤ 59
  hour : 0 ≤ zoned.hour ∧ zoned.hour ≤ 23
  dayOfMonth : 1 ≤ zoned.dayOfMonth ∧ zoned.dayOfMonth ≤ 31
  month : 1 ≤ zoned.month ∧ zoned.month ≤ 12
  dayOfWeek : 0 ≤ zoned.dayOfWeek ∧ zoned.dayOfWeek ≤ 6

section Reading
variable {n : Text} {lo hi value : ℤ} {item : CronItem} {field : CronField} {c : Char}

theorem digit_plain (digit : c.isDigit) : isSpaceChar c = false := by
  have bounds := digit_bounds digit
  simp [isSpaceChar, isSpaceCode]
  omega

theorem parseInt_numeral (numeral : CronItem.Numeral n) : parseInt n = some (number n : ℤ) := by
  obtain ⟨some_digit, digits⟩ := numeral
  cases n with
  | nil => exact absurd rfl some_digit
  | cons c n =>
    have digit := digits c mem_cons_self
    have unsigned (sign : Char) (other : sign.isDigit = false) : (c :: n).head? ≠ some sign := by
      intro same
      rw [head?_cons, Option.some.injEq] at same
      rw [same, other] at digit
      cases digit
    have whole : (c :: n).takeWhile Char.isDigit = c :: n := takeWhile_eq_self_iff.mpr digits
    simp only [parseInt, dropWhile_cons_of_neg (Bool.eq_false_iff.mp (digit_plain digit)), unsigned '-' rfl,
      unsigned '+' rfl, or_self, if_false, whole, cons_ne_nil]

namespace CronItem.WellFormed
variable (wellFormed : item.WellFormed)
include wellFormed

theorem base_char (mem : c ∈ item.base) : c.isDigit ∨ c ∈ ['*', '-'] := by
  cases item with
  | all step => exact .inr (mem_cons.mpr (.inl (mem_singleton.mp mem)))
  | single n => exact .inl ((wellFormed.1 n mem_cons_self).2 c mem)
  | range n m step =>
    rcases mem_append.mp mem with mem | mem
    · exact .inl ((wellFormed.1 n mem_cons_self).2 c mem)
    · rcases mem_cons.mp mem with rfl | mem
      · exact .inr (by decide)
      · exact .inl ((wellFormed.1 m (mem_cons_of_mem n mem_cons_self)).2 c mem)

theorem text_plain (mem : c ∈ item.text) : isSpaceChar c = false ∧ c ≠ ',' := by
  have kind : c.isDigit ∨ c ∈ ['*', '-', '/'] := by
    rcases mem_append.mp mem with mem | mem
    · exact (wellFormed.base_char mem).imp_right (mem_append_left ['/'])
    · cases step : item.step with
      | none =>
        rw [step] at mem
        cases mem
      | some s =>
        rw [step] at mem
        rcases mem_cons.mp mem with rfl | mem
        · exact .inr (by decide)
        · exact .inl ((wellFormed.2 s step).1.2 c mem)
  rcases kind with digit | mark
  · exact ⟨digit_plain digit, fun same => absurd digit (same ▸ by decide)⟩
  · simp only [mem_cons, not_mem_nil, or_false] at mark
    rcases mark with rfl | rfl | rfl <;> decide

theorem rangeOf_base : item.base ≠ [] ∧ rangeOf item.base lo hi = some (item.span lo hi) := by
  have notStar {n : Text} (digits : ∀ c ∈ n, c.isDigit) : '*' ∉ n ∧ '-' ∉ n :=
    ⟨fun mem => absurd (digits _ mem) (by decide), fun mem => absurd (digits _ mem) (by decide)⟩
  cases item with
  | all step => exact ⟨cons_ne_nil _ _, rfl⟩
  | single n =>
    have numeral := wellFormed.1 n mem_cons_self
    obtain ⟨star, dash⟩ := notStar numeral.2
    have notAll : n ≠ ['*'] := fun same => star (same ▸ mem_cons_self)
    exact ⟨numeral.1, by simp [rangeOf, base, span, notAll, dash, parseInt_numeral numeral]⟩
  | range n m step =>
    have first := wellFormed.1 n mem_cons_self
    have last := wellFormed.1 m (mem_cons_of_mem n mem_cons_self)
    have notAll : n ++ '-' :: m ≠ ['*'] := fun same =>
      absurd (same ▸ mem_append_right n mem_cons_self : '-' ∈ ['*']) (by decide)
    refine ⟨append_ne_nil_of_right_ne_nil n (cons_ne_nil _ _), ?_⟩
    simp [rangeOf, base, span, notAll, splitOn_append_cons_self_of_not_mem (notStar first.2).2,
      splitOn_eq_singleton (notStar last.2).2, parseInt_numeral first, parseInt_numeral last]

theorem segmentMatches_iff : segmentMatches value lo hi item.text = true ↔ item.Denotes lo hi value := by
  obtain ⟨some_base, range⟩ : _ ∧ rangeOf item.base lo hi = _ := wellFormed.rangeOf_base
  have plain : trimBy isSpaceChar item.text = item.text :=
    trimBy_of_forall fun c mem => (wellFormed.text_plain mem).1
  have single : '/' ∉ item.base := fun mem => (wellFormed.base_char mem).elim (by decide) (by decide)
  rw [segmentMatches, plain, Denotes, text]
  cases step : item.step with
  | none => simp [splitOn_eq_singleton single, some_base, parseInt, range]
  | some s =>
    obtain ⟨numeral, positive⟩ := wellFormed.2 s step
    have slash : '/' ∉ s := fun mem => absurd (numeral.2 _ mem) (by decide)
    have up : number s ≠ 0 := by omega
    simp [splitOn_append_cons_self_of_not_mem single, splitOn_eq_singleton slash, parseInt_numeral numeral, up, range,
      and_assoc]

end CronItem.WellFormed

theorem matchesCronField_iff (field : CronField) (within : lo ≤ value ∧ value ≤ hi) :
    matchesCronField field.text value lo hi = true ↔ field.Denotes lo hi value := by
  have plain {c : Char} {item : CronItem} (member : item ∈ field.items) (mem : c ∈ item.text) :=
    (field.wellFormed item member).text_plain mem
  have trimmed : trimBy isSpaceChar field.text = field.text := by
    refine trimBy_of_forall fun c mem => ?_
    rcases mem_intercalate mem with rfl | ⟨_, mem, inside⟩
    · rfl
    · obtain ⟨item, member, rfl⟩ := mem_map.mp mem
      exact (plain member inside).1
  have split : field.text.splitOn ',' = field.items.map CronItem.text := by
    refine splitOn_intercalate ',' (fun t mem comma => ?_) (by simp [field.some_item])
    obtain ⟨item, member, rfl⟩ := mem_map.mp mem
    exact (plain member comma).2 rfl
  have any : (field.text.splitOn ',').any (segmentMatches value lo hi) = true ↔ field.Denotes lo hi value := by
    rw [split, any_map, any_eq_true]
    exact exists_congr fun item => and_congr_right fun member => (field.wellFormed item member).segmentMatches_iff
  rw [matchesCronField, trimmed, Bool.or_eq_true, decide_eq_true_eq, any, or_iff_right_iff_imp]
  intro star
  have all : (CronItem.all none).WellFormed := by decide
  rw [← any, star]
  exact any_eq_true.mpr ⟨['*'], by decide, all.segmentMatches_iff.mpr ⟨within.1, within.2, by simp [CronItem.step]⟩⟩

end Reading

namespace CronExpression
variable {e : CronExpression} {zoned : ZonedDateParts} {expression : Text}

theorem denotesDay_of_first (field : CronField) (valid : zoned.Valid)
    (first : matchesCronField field.text zoned.dayOfWeek 0 7 = true) : field.DenotesDay zoned.dayOfWeek := by
  obtain ⟨low, high⟩ := valid.dayOfWeek
  obtain ⟨item, member, denotes⟩ := (matchesCronField_iff field ⟨low, by omega⟩).mp first
  refine ⟨item, member, .inl ?_⟩
  cases item with
  | all step => exact ⟨denotes.1, high, denotes.2.2⟩
  | single | range => exact denotes

/-- The two tests of the weekday: what it denotes, and what the steps of a star meet when counted from Monday. -/
theorem dayOfWeekMatches_iff (field : CronField) (valid : zoned.Valid) :
    (matchesCronField field.text zoned.dayOfWeek 0 7 ||
      matchesCronField field.text (if zoned.dayOfWeek = 0 then 7 else zoned.dayOfWeek) 1 7) = true ↔
    field.DenotesDay zoned.dayOfWeek ∨ field.StepsFromMonday zoned.dayOfWeek := by
  obtain ⟨low, high⟩ := valid.dayOfWeek
  rw [Bool.or_eq_true, matchesCronField_iff _ (show 1 ≤ _ ∧ _ by split_ifs <;> omega)]
  constructor
  · rintro (first | ⟨item, member, denotes⟩)
    · exact .inl (denotesDay_of_first field valid first)
    · cases item with
      | all step => exact .inr ⟨_, member, rfl, denotes⟩
      | single | range =>
        refine .inl ⟨_, member, ?_⟩
        split_ifs at denotes with sunday
        · exact .inr ⟨sunday, denotes⟩
        · exact .inl denotes
  · rintro (⟨item, member, denotes | ⟨sunday, denotes⟩⟩ | ⟨item, member, -, denotes⟩)
    · refine .inl ((matchesCronField_iff _ ⟨low, by omega⟩).mpr ⟨item, member, ?_⟩)
      cases item with
      | all step => exact ⟨denotes.1, high.trans (by decide : (6 : ℤ) ≤ 7), denotes.2.2⟩
      | single | range => exact denotes
    · refine .inr ⟨item, member, ?_⟩
      rw [if_pos sunday]
      cases item with
      | all step => exact absurd denotes.2.1 (by decide : ¬(7 : ℤ) ≤ 6)
      | single | range => exact denotes
    · exact .inr ⟨item, member, denotes⟩

/-- An expression is due when its fields denote the time, unless it strays. -/
theorem isCronDue_iff (e : CronExpression) (valid : zoned.Valid) (written : cronFields expression = e.fields) :
    (isCronDue expression zoned = true ↔ e.Due zoned) ↔ ¬e.Strays zoned := by
  have day := matchesCronField_iff e.dayOfMonth valid.dayOfMonth
  have star : e.dayOfMonth.text = ['*'] → e.dayOfMonth.Denotes 1 31 zoned.dayOfMonth := fun star =>
    day.mp (by rw [star]; rfl)
  have everyDay : e.dayOfWeek.text = ['*'] → e.dayOfWeek.DenotesDay zoned.dayOfWeek := fun star =>
    denotesDay_of_first _ valid (by rw [star]; rfl)
  have twice := dayOfWeekMatches_iff e.dayOfWeek valid
  have time : (matchesCronField e.minute.text zoned.minute 0 59 && matchesCronField e.hour.text zoned.hour 0 23 &&
      matchesCronField e.month.text zoned.month 1 12) = true ↔ e.DenotesTime zoned := by
    rw [Bool.and_eq_true, Bool.and_eq_true, matchesCronField_iff _ valid.minute, matchesCronField_iff _ valid.hour,
      matchesCronField_iff _ valid.month, and_assoc, DenotesTime]
  simp only [isCronDue, written, fields, Due, Strays]
  generalize (matchesCronField e.dayOfWeek.text zoned.dayOfWeek 0 7 || _) = dayOfWeekMatches at twice ⊢
  generalize (matchesCronField e.minute.text zoned.minute 0 59 && _ && _) = timeMatches at time ⊢
  by_cases starred : e.dayOfMonth.text = ['*'] ∨ e.dayOfWeek.text = ['*'] <;>
    simp only [starred, if_true, if_false, Bool.and_eq_true, Bool.or_eq_true, time, day, twice] <;>
    revert starred star everyDay <;>
    generalize e.DenotesTime zoned = T, (e.dayOfMonth.text = ['*']) = P, (e.dayOfWeek.text = ['*']) = Q,
      e.dayOfMonth.Denotes 1 31 zoned.dayOfMonth = D, e.dayOfWeek.DenotesDay zoned.dayOfWeek = W,
      e.dayOfWeek.StepsFromMonday zoned.dayOfWeek = S <;>
    clear time day twice <;> tauto

end CronExpression

/-- Ten o'clock on every other weekday. -/
def everyOtherDay : CronExpression where
  minute := ⟨[.single ['0']], by decide, by decide⟩
  hour := ⟨[.single ['1', '0']], by decide, by decide⟩
  dayOfMonth := ⟨[.all none], by decide, by decide⟩
  month := ⟨[.all none], by decide, by decide⟩
  dayOfWeek := ⟨[.all (some ['2'])], by decide, by decide⟩

theorem not_due_everyOtherDay :
    ¬(isCronDue "0 10 * * */2".toList ⟨0, 10, 16, 2, 1⟩ = true ↔ everyOtherDay.Due ⟨0, 10, 16, 2, 1⟩) := by
  decide +kernel

theorem isCronDue_everyOtherDay :
    isCronDue "0 10 * * */2".toList ⟨0, 10, 17, 2, 2⟩ = true ↔ everyOtherDay.Due ⟨0, 10, 17, 2, 2⟩ :=
  (everyOtherDay.isCronDue_iff ⟨by decide, by decide, by decide, by decide, by decide⟩ (by decide +kernel)).mpr
    (by decide +kernel)

end RemudaRmm.Policies
