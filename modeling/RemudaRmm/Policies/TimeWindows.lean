import Mathlib.Algebra.Group.Fin.Basic
import Mathlib.Data.List.DropRight
import Mathlib.Data.Nat.SuccPred
import RemudaRmm.Foundation.NumberText

/-! The time windows of PAM rules (`pamRuleEngine.ts`) and of agent updates (`agentUpdatePolicy.ts`). A weekday counts
from Sunday; what an instant is in a zone is a parameter. -/
namespace RemudaRmm.Policies
open Foundation

structure LocalInstant where
  weekday : Fin 7
  minutes : ℕ
  deriving DecidableEq

/-- The minutes of `h:mm` or `hh:mm`. -/
def parseTime (s : Text) : Option ℕ :=
  match s with
  | [h, ':', m, n] => clock [h] [m, n]
  | [g, h, ':', m, n] => clock [g, h] [m, n]
  | _ => none
where
  clock (hours minutes : Text) : Option ℕ :=
    if (hours ++ minutes).all Char.isDigit then
      if 23 < number hours ∨ 59 < number minutes then none else some (number hours * 60 + number minutes)
    else none

structure PamRuleTimeWindow where
  (start stop : Text)
  days : Option (List ℕ)
  timezone : Option Text
  deriving DecidableEq

/-- `localInstant` gives nothing for a zone that the platform does not know. -/
def isWithinTimeWindow (localInstant : Text → Option LocalInstant) (window : PamRuleTimeWindow) : Bool :=
  match parseTime window.start, parseTime window.stop, localInstant (window.timezone.getD ['U', 'T', 'C']) with
  | some start, some stop, some at_zone =>
    if window.days.any fun days => days ≠ [] ∧ (at_zone.weekday : ℕ) ∉ days then false
    else if start ≤ stop then start ≤ at_zone.minutes && at_zone.minutes ≤ stop
    else start ≤ at_zone.minutes || at_zone.minutes ≤ stop
  | _, _, _ => false

structure ParsedWindow where
  day : Option (Fin 7)
  (startMin endMin : ℕ)
  deriving DecidableEq

def DAY_OF_WEEK : List (Text × Fin 7) :=
  [("sun".toList, 0), ("mon".toList, 1), ("tue".toList, 2), ("wed".toList, 3), ("thu".toList, 4), ("fri".toList, 5),
    ("sat".toList, 6)]

def isSpaceChar (c : Char) : Bool := isSpaceCode c.toNat

/-- The three letters before a space, where the text has them, and what follows. -/
def splitDay : Text → Option Text × Text
  | a :: b :: c :: space :: rest =>
    if [a, b, c].all Char.isAlpha ∧ isSpaceChar space then (some [a, b, c], rest.dropWhile isSpaceChar)
    else (none, a :: b :: c :: space :: rest)
  | t => (none, t)

def parseRange (day : Option (Fin 7)) (t : Text) : Option ParsedWindow :=
  match t.splitOn '-' with
  | [left, right] =>
    match parseTime (left.rdropWhile isSpaceChar), parseTime (right.dropWhile isSpaceChar) with
    | some startMin, some endMin => if startMin = endMin then none else some ⟨day, startMin, endMin⟩
    | _, _ => none
  | _ => none

def parseMaintenanceWindow (raw : Option Text) : Option ParsedWindow :=
  raw.bind fun raw =>
    match splitDay (trimBy isSpaceChar raw) with
    | (none, range) => parseRange none range
    | (some name, range) => (DAY_OF_WEEK.lookup (name.map Char.toLower)).bind fun day => parseRange (some day) range

def isWithinMaintenanceWindow (raw : Option Text) (now : LocalInstant) : Bool :=
  match parseMaintenanceWindow raw with
  | none => true
  | some ⟨day, startMin, endMin⟩ =>
    if startMin < endMin then
      if ∃ d ∈ day, d ≠ now.weekday then false else startMin ≤ now.minutes && now.minutes < endMin
    else
      match day with
      | none => startMin ≤ now.minutes || now.minutes < endMin
      | some day =>
        if now.weekday = day then startMin ≤ now.minutes
        else if now.weekday = day + 1 then now.minutes < endMin
        else false

/-- The instant lies in the window that opens at `start` on a listed day, before it closes. -/
def InWindowOf (listed : Fin 7 → Prop) (start stop closing : ℕ) (now : LocalInstant) : Prop :=
  if start ≤ stop then listed now.weekday ∧ start ≤ now.minutes ∧ now.minutes < closing
  else (listed now.weekday ∧ start ≤ now.minutes) ∨ (listed (now.weekday - 1) ∧ now.minutes < closing)

/-- A window of a rule, with the times that its texts stand for. -/
structure ValidTimeWindow where
  window : PamRuleTimeWindow
  (start stop : ℕ)
  starts : parseTime window.start = some start
  stops : parseTime window.stop = some stop

/-- Every day is listed where none is. -/
def PamRuleTimeWindow.Lists (window : PamRuleTimeWindow) (day : Fin 7) : Prop :=
  ∀ days ∈ window.days, days ≠ [] → (day : ℕ) ∈ days

/-- A text that stands for a window of updates. -/
structure ValidMaintenanceWindow where
  raw : Text
  parsed : ParsedWindow
  parses : parseMaintenanceWindow (some raw) = some parsed

/-- A window that names no day is open on every day. -/
def ParsedWindow.Lists (window : ParsedWindow) (day : Fin 7) : Prop := ∀ d ∈ window.day, d = day

theorem parseRange_apart {day : Option (Fin 7)} {t : Text} {parsed : ParsedWindow}
    (parses : parseRange day t = some parsed) : parsed.startMin ≠ parsed.endMin := by
  unfold parseRange at parses
  split at parses
  · split at parses
    · split_ifs at parses with same
      cases parses
      exact same
    · cases parses
  · cases parses

theorem ValidMaintenanceWindow.apart (w : ValidMaintenanceWindow) : w.parsed.startMin ≠ w.parsed.endMin := by
  have parses := w.parses
  rw [parseMaintenanceWindow, Option.bind_some] at parses
  split at parses
  · exact parseRange_apart parses
  · obtain ⟨day, -, parses⟩ := Option.bind_eq_some_iff.mp parses
    exact parseRange_apart parses

theorem next_weekday_ne (day : Fin 7) : day + 1 ≠ day := by
  revert day
  decide

theorem isWithinMaintenanceWindow_iff (w : ValidMaintenanceWindow) (now : LocalInstant) :
    isWithinMaintenanceWindow (some w.raw) now = true ↔
      InWindowOf w.parsed.Lists w.parsed.startMin w.parsed.endMin w.parsed.endMin now := by
  have apart := w.apart
  obtain ⟨raw, ⟨day, startMin, endMin⟩, parses⟩ := w
  simp only [isWithinMaintenanceWindow, parses, InWindowOf, ParsedWindow.Lists]
  rcases Nat.lt_or_gt_of_ne apart with sameDay | wraps
  · rw [if_pos sameDay, if_pos (Nat.le_of_lt sameDay)]
    split_ifs with other
    · obtain ⟨d, named, differs⟩ := other
      simp only [false_iff, not_and]
      exact fun listed => absurd (listed d named) differs
    · simp only [not_exists, not_and, not_not] at other
      rw [and_iff_right other, Bool.and_eq_true, decide_eq_true_eq, decide_eq_true_eq]
  · rw [if_neg (Nat.lt_asymm wraps), if_neg (Nat.not_le_of_lt wraps)]
    cases day with
    | none => simp
    | some day =>
      simp only [Option.mem_def, Option.some.injEq, forall_eq']
      by_cases opens : now.weekday = day
      · have later : day ≠ now.weekday - 1 := by
          rw [← opens, Ne, eq_sub_iff_add_eq]
          exact next_weekday_ne _
        rw [if_pos opens]
        simp [opens, opens ▸ later]
      · rw [if_neg opens]
        have next : day = now.weekday - 1 ↔ now.weekday = day + 1 := by
          rw [eq_sub_iff_add_eq, eq_comm]
        simp only [Ne.symm opens, false_and, false_or, next]
        split_ifs with after
        · simp [after]
        · simp [after]

/-- Time windows mean whole windows: those of rules on the instant given, and those of updates. -/
structure WholeWindows (w : ValidTimeWindow) (m : ValidMaintenanceWindow) (now : LocalInstant) : Prop where
  rule : ∀ localInstant : Text → Option LocalInstant,
    localInstant (w.window.timezone.getD ['U', 'T', 'C']) = some now →
      (isWithinTimeWindow localInstant w.window = true ↔ InWindowOf w.window.Lists w.start w.stop (w.stop + 1) now)
  update : isWithinMaintenanceWindow (some m.raw) now = true ↔
    InWindowOf m.parsed.Lists m.parsed.startMin m.parsed.endMin m.parsed.endMin now

theorem isWithinTimeWindow_iff (w : ValidTimeWindow) {now : LocalInstant} {localInstant : Text → Option LocalInstant}
    (given : localInstant (w.window.timezone.getD ['U', 'T', 'C']) = some now) :
    isWithinTimeWindow localInstant w.window = true ↔ w.window.Lists now.weekday ∧
      if w.start ≤ w.stop then w.start ≤ now.minutes ∧ now.minutes ≤ w.stop
      else w.start ≤ now.minutes ∨ now.minutes ≤ w.stop := by
  simp only [isWithinTimeWindow, w.starts, w.stops, given]
  have lists : (w.window.days.any fun days => days ≠ [] ∧ (now.weekday : ℕ) ∉ days) = true ↔
      ¬w.window.Lists now.weekday := by
    simp [PamRuleTimeWindow.Lists, Option.any_eq_true]
  by_cases listed : w.window.Lists now.weekday
  · rw [if_neg fun unlisted => lists.mp unlisted listed]
    split_ifs <;> simp [listed]
  · rw [if_pos (lists.mpr listed)]
    simp [listed]

/-- A window of a rule goes wrong after midnight only: there the weekday of the instant is asked for and not the day on
which the window opened. -/
theorem wholeWindows_iff (w : ValidTimeWindow) (m : ValidMaintenanceWindow) (now : LocalInstant) :
    WholeWindows w m now ↔ w.start ≤ w.stop ∨ w.stop < now.minutes ∨
      (w.window.Lists now.weekday ↔ w.window.Lists (now.weekday - 1)) := by
  have rule : ∀ localInstant : Text → Option LocalInstant,
      localInstant (w.window.timezone.getD ['U', 'T', 'C']) = some now →
      ((isWithinTimeWindow localInstant w.window = true ↔
        InWindowOf w.window.Lists w.start w.stop (w.stop + 1) now) ↔
          w.start ≤ w.stop ∨ w.stop < now.minutes ∨
            (w.window.Lists now.weekday ↔ w.window.Lists (now.weekday - 1))) := by
    intro localInstant given
    rw [isWithinTimeWindow_iff w given, InWindowOf]
    split_ifs with sameDay
    · simp [sameDay]
    · rw [not_le] at sameDay
      by_cases early : now.minutes ≤ w.stop
      · have before : ¬w.start ≤ now.minutes := by omega
        simp [early, before, not_lt.mpr early, not_le.mpr sameDay]
      · simp [early, not_le.mp early]
  constructor
  · exact fun whole => (rule (fun _ => some now) rfl).mp (whole.rule _ rfl)
  · exact fun fits => ⟨fun localInstant given => (rule localInstant given).mpr fits,
      isWithinMaintenanceWindow_iff m now⟩

/-- A rule for the nights of Friday, on which Saturday at three is refused. -/
def fridayNight : ValidTimeWindow where
  window := ⟨"22:00".toList, "06:00".toList, some [5], none⟩
  start := 1320
  stop := 360
  starts := by decide
  stops := by decide

def sundayUpdates : ValidMaintenanceWindow where
  raw := "Sun 22:00-02:00".toList
  parsed := ⟨some 0, 1320, 120⟩
  parses := by decide +kernel

theorem not_wholeWindows_fridayNight : ¬WholeWindows fridayNight sundayUpdates ⟨6, 180⟩ := by
  intro whole
  have refused : isWithinTimeWindow (fun _ => some ⟨6, 180⟩) fridayNight.window = false := by decide
  have open_since : InWindowOf fridayNight.window.Lists fridayNight.start fridayNight.stop (fridayNight.stop + 1)
      ⟨6, 180⟩ := .inr ⟨by simp [PamRuleTimeWindow.Lists, fridayNight], by decide⟩
  rw [(whole.rule _ rfl).mpr open_since] at refused
  cases refused

end RemudaRmm.Policies
