import RemudaRmm.Foundation.JobQueue
import RemudaRmm.Foundation.Runs
import Mathlib.Algebra.Order.Group.Int
import Mathlib.Data.Rat.Defs

/-! The planner of baseline scans (`jobs/networkBaselineWorker.ts`), with the queue that it adds them to. -/
namespace RemudaRmm.Baselines
open Foundation List Function

def defaultScanIntervalHours : ℤ := 4

def maxScanIntervalHours : ℤ := 168

/-- `scanSchedule`, with the number of `intervalHours` where there is a finite one; times are in milliseconds. -/
structure ScanSchedule where
  enabled : Option Bool
  intervalHours : Option ℚ
  nextScanAt : Option ℤ

namespace ScanSchedule

def interval (schedule : ScanSchedule) : ℤ :=
  match schedule.intervalHours with
  | some rawInterval => min (max (rawInterval.num.tdiv rawInterval.den) 1) maxScanIntervalHours
  | none => defaultScanIntervalHours

def Due (now : ℤ) (schedule : ScanSchedule) : Prop :=
  schedule.enabled = some true ∧ ∀ nextScanAt ∈ schedule.nextScanAt, nextScanAt ≤ now
  deriving Decidable

def advanced (now : ℤ) (schedule : ScanSchedule) : ScanSchedule where
  enabled := some (schedule.enabled.getD true)
  intervalHours := some schedule.interval
  nextScanAt := some (now + schedule.interval * 60 * 60 * 1000)

theorem interval_pos (schedule : ScanSchedule) : 0 < schedule.interval := by
  unfold interval maxScanIntervalHours defaultScanIntervalHours
  split <;> omega

end ScanSchedule

inductive JobId (κ : Type*) where
  | baselineScan (baselineId : κ)
  | other (id : ℕ)
  deriving DecidableEq

/-- `pending` are the due baselines that a pass has still to go through, as it has read them. -/
structure Planner (κ : Type*) where
  clock : ℤ
  ids : List κ
  once : ids.Nodup
  schedule : κ → ScanSchedule
  pending : List (κ × ScanSchedule)
  queue : JobQueue (JobId κ)

/-- `scheduleNext` goes on with the next baseline of a pass, and `added` says whether the queue has taken the call. -/
inductive PlannerEvent (κ : Type*) where
  | selectDue
  | scheduleNext (added : Bool)
  | scanRequested (baselineId : κ)
  | scanEnds (baselineId : κ) (success : Bool)
  | otherAdded (id : ℕ)
  | otherEnds (id : ℕ) (success : Bool) (keep : ℕ)

section Steps
variable {κ : Type*} [DecidableEq κ]

def keepOf (success : Bool) : ℕ := if success then 50 else 100

/-- The planner looks for due baselines once it is through with the ones before. -/
def Planner.selectDue (w : Planner κ) : Planner κ :=
  match w.pending with
  | [] =>
    { w with
      pending := (w.ids.filter fun b => decide ((w.schedule b).Due w.clock)).map fun b => (b, w.schedule b) }
  | _ :: _ => w

/-- The add and, unless it throws, the update of the schedule; the job is there or not, the schedule moves on. -/
def Planner.scheduleNext (added : Bool) (w : Planner κ) : Planner κ :=
  match w.pending with
  | [] => w
  | (b, schedule) :: rest =>
    if added then
      { w with
        pending := rest
        queue := w.queue.add (.baselineScan b)
        schedule := update w.schedule b (schedule.advanced w.clock) }
    else { w with pending := rest }

def Planner.handle (w : Planner κ) : PlannerEvent κ → Planner κ
  | .selectDue => w.selectDue
  | .scheduleNext added => w.scheduleNext added
  | .scanRequested b => { w with queue := w.queue.add (.baselineScan b) }
  | .scanEnds b success => { w with queue := w.queue.finish (.baselineScan b) success (keepOf success) }
  | .otherAdded id => { w with queue := w.queue.add (.other id) }
  | .otherEnds id success keep => { w with queue := w.queue.finish (.other id) success keep }

def Planner.step (w : Planner κ) (e : ℕ × PlannerEvent κ) : Planner κ :=
  ({ w with clock := w.clock + e.1 } : Planner κ).handle e.2

def Planner.Advances (w : Planner κ) (e : ℕ × PlannerEvent κ) (b : κ) : Prop :=
  ∃ time, ((w.step e).schedule b).nextScanAt = some time ∧ ∀ before ∈ (w.schedule b).nextScanAt, before < time

/-- A scan of a baseline whose schedule moves on is waiting or under way. -/
def Planner.ScansQueued (w : Planner κ) (e : ℕ × PlannerEvent κ) : Prop :=
  ∀ b, w.Advances e b → .baselineScan b ∈ (w.step e).queue.live

/-- No finished scan is kept under the id of the baseline whose scan is added. -/
def Planner.NoneRetained (w : Planner κ) (e : ℕ × PlannerEvent κ) : Prop :=
  e.2 = .scheduleNext true → ∀ p ∈ w.pending.head?, ¬w.queue.Retained (.baselineScan p.1)

end Steps

section Runs
variable {κ : Type*} [DecidableEq κ] {w : Planner κ}
variable {schedule : ScanSchedule} {b : κ}

/-- The baselines that a pass has still to go through are distinct, and due as it has read them. -/
structure Planner.Sound (w : Planner κ) : Prop where
  distinct : (w.pending.map (·.1)).Nodup
  due : ∀ p ∈ w.pending, w.schedule p.1 = p.2 ∧ p.2.Due w.clock

theorem Due.later {now later : ℤ} (due : schedule.Due now) (order : now ≤ later) :
    schedule.Due later :=
  ⟨due.1, fun time scheduled => (due.2 time scheduled).trans order⟩

omit [DecidableEq κ] in
theorem Planner.Sound.wait (sound : w.Sound) (elapsed : ℕ) :
    ({ w with clock := w.clock + elapsed } : Planner κ).Sound where
  distinct := sound.distinct
  due p member := by
    obtain ⟨read, due⟩ := sound.due p member
    exact ⟨read, Due.later due (Int.le_add_of_nonneg_right (Int.natCast_nonneg elapsed))⟩

omit [DecidableEq κ] in
theorem Planner.Sound.selectDue (sound : w.Sound) : w.selectDue.Sound := by
  unfold Planner.selectDue
  split
  · constructor
    · simp only [List.map_map]
      exact (map_id'' (fun _ => rfl) _).symm ▸ w.once.filter _
    · intro p member
      obtain ⟨b, listed, rfl⟩ := List.mem_map.mp member
      exact ⟨rfl, of_decide_eq_true (mem_filter.mp listed).2⟩
  · exact sound

theorem Planner.Sound.scheduleNext (sound : w.Sound) (added : Bool) : (w.scheduleNext added).Sound := by
  obtain ⟨distinct, due⟩ := sound
  unfold Planner.scheduleNext
  split
  · exact ⟨distinct, due⟩
  · next b schedule rest first =>
    rw [first] at distinct due
    obtain ⟨notLater, restDistinct⟩ := nodup_cons.mp distinct
    have restDue := fun p member => due p (mem_cons_of_mem _ member)
    split_ifs
    · refine ⟨restDistinct, fun p member => ?_⟩
      have other : p.1 ≠ b := by
        rintro rfl
        exact notLater (List.mem_map_of_mem (f := (·.1)) member)
      simp only [update_of_ne other]
      exact restDue p member
    · exact ⟨restDistinct, restDue⟩

theorem Planner.Sound.step (sound : w.Sound) (e : ℕ × PlannerEvent κ) : (w.step e).Sound := by
  have waited := sound.wait e.1
  unfold Planner.step Planner.handle
  cases e.2 with
  | selectDue => exact waited.selectDue
  | scheduleNext added => exact waited.scheduleNext added
  | scanRequested | scanEnds | otherAdded | otherEnds => exact ⟨waited.distinct, waited.due⟩

theorem Planner.schedule_step {e : ℕ × PlannerEvent κ} (other : e.2 ≠ .scheduleNext true) :
    (w.step e).schedule = w.schedule := by
  unfold Planner.step Planner.handle Planner.selectDue Planner.scheduleNext
  cases signal : e.2 with
  | selectDue =>
    dsimp only
    split <;> rfl
  | scheduleNext added =>
    cases added with
    | true => exact absurd signal other
    | false =>
      dsimp only
      split <;> rfl
  | scanRequested | scanEnds | otherAdded | otherEnds => rfl

theorem Planner.not_advances {e : ℕ × PlannerEvent κ} (same : (w.step e).schedule b = w.schedule b) :
    ¬w.Advances e b := by
  rintro ⟨time, now, before⟩
  rw [same] at now
  exact lt_irrefl time (before time now)

theorem Planner.step_next {elapsed : ℕ} {rest : List (κ × ScanSchedule)}
    (first : w.pending = (b, schedule) :: rest) : w.step (elapsed, .scheduleNext true) =
      { w with
        clock := w.clock + elapsed
        pending := rest
        queue := w.queue.add (.baselineScan b)
        schedule := update w.schedule b (schedule.advanced (w.clock + elapsed)) } := by
  simp only [Planner.step, Planner.handle, Planner.scheduleNext, first, if_true]

theorem Planner.Sound.advances (sound : w.Sound) {elapsed : ℕ} {rest : List (κ × ScanSchedule)}
    (first : w.pending = (b, schedule) :: rest) : w.Advances (elapsed, .scheduleNext true) b := by
  obtain ⟨read, due⟩ := sound.due (b, schedule) (first ▸ mem_cons_self)
  refine ⟨w.clock + elapsed + schedule.interval * 60 * 60 * 1000, ?_, fun before scheduled => ?_⟩
  · simp [Planner.step_next first, ScanSchedule.advanced]
  · rw [read] at scheduled
    have passed := due.2 before scheduled
    have := schedule.interval_pos
    omega

theorem Planner.Sound.scansQueued_iff (sound : w.Sound) (e : ℕ × PlannerEvent κ) :
    w.ScansQueued e ↔ w.NoneRetained e := by
  obtain ⟨elapsed, signal⟩ := e
  by_cases next : signal = .scheduleNext true
  · subst next
    cases first : w.pending with
    | nil =>
      refine iff_of_true (fun b advances => ?_) (fun _ p pending => ?_)
      · refine absurd advances (Planner.not_advances ?_)
        simp [Planner.step, Planner.handle, Planner.scheduleNext, first]
      · rw [first] at pending
        cases pending
    | cons p rest =>
      obtain ⟨b, schedule⟩ := p
      have queued : JobId.baselineScan b ∈ (w.step (elapsed, .scheduleNext true)).queue.live ↔
          ¬w.queue.Retained (.baselineScan b) := by
        rw [Planner.step_next first]
        exact JobQueue.mem_live_add
      constructor
      · intro scans _ p pending
        rw [first] at pending
        cases pending
        exact queued.mp (scans b (sound.advances first))
      · intro fresh other advances
        by_cases same : other = b
        · rw [same]
          exact queued.mpr (fresh rfl (b, schedule) (by rw [first]; rfl))
        · refine absurd advances (Planner.not_advances ?_)
          simp [Planner.step_next first, update_of_ne same]
  · refine iff_of_true (fun b advances => ?_) fun same => absurd same next
    exact absurd advances (Planner.not_advances (by rw [Planner.schedule_step next]))

def Planner.resting (ids : List κ) (once : ids.Nodup) (schedule : κ → ScanSchedule) (queue : JobQueue (JobId κ))
    (clock : ℤ) : Planner κ := ⟨clock, ids, once, schedule, [], queue⟩

/-- The baselines go on being scanned in exactly the runs in which the planner never finds a finished scan kept under
the id of the one that it adds. -/
theorem scans_keep_running_iff (ids : List κ) (once : ids.Nodup) (schedule : κ → ScanSchedule)
    (queue : JobQueue (JobId κ)) (clock : ℤ) (es : List (ℕ × PlannerEvent κ)) :
    StepsMeet Planner.step Planner.ScansQueued (Planner.resting ids once schedule queue clock) es ↔
      StepsMeet Planner.step Planner.NoneRetained (Planner.resting ids once schedule queue clock) es :=
  stepsMeet_congr (fun _ e (sound : Planner.Sound _) _ => sound.step e) (fun _ e sound => sound.scansQueued_iff e)
    ⟨nodup_nil, nofun⟩

end Runs

def hourly : ScanSchedule := ⟨some true, some 1, none⟩

def hourlyPlanner : Planner ℕ := .resting [0] (nodup_singleton 0) (fun _ => hourly) .empty 0

/-- The first scan completes, and an hour later the second one is due. -/
def scanAndAgain : List (ℕ × PlannerEvent ℕ) :=
  [(0, .selectDue), (0, .scheduleNext true), (60000, .scanEnds 0 true), (3600000, .selectDue)]

theorem first_scan_queued :
    StepsMeet Planner.step Planner.ScansQueued hourlyPlanner [(0, .selectDue), (0, .scheduleNext true)] :=
  (scans_keep_running_iff [0] (nodup_singleton 0) (fun _ => hourly) .empty 0 _).mpr
    (StepsMeet.cons (by simp [Planner.NoneRetained]) (StepsMeet.cons (fun _ => by decide) StepsMeet.nil))

/-- The second scan is not queued, as the first one is still kept, but the schedule has moved on. -/
theorem second_scan_not_queued :
    ¬StepsMeet Planner.step Planner.ScansQueued hourlyPlanner (scanAndAgain ++ [(0, .scheduleNext true)]) := by
  intro scans
  have last := scans scanAndAgain (0, .scheduleNext true) [] rfl 0 ⟨7260000, by decide, by decide⟩
  revert last
  decide

end RemudaRmm.Baselines
