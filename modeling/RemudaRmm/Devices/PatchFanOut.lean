import Mathlib.Data.List.Perm.Subperm
import RemudaRmm.Devices.PatchJobRuns

/-! The fan-out of a patch job: its device jobs may start as soon as they are added, while the row still reads
'scheduled' to everyone else. Which devices are attempted before the job has a verdict. -/
namespace RemudaRmm.Devices
open Foundation List Function Option

def PatchJob.Terminal (job : PatchJob) : Prop :=
  job.status = .completed ∨ job.status = .failed ∨ job.status = .cancelled
  deriving Decidable

/-- A run, with the devices that an install command was queued for, those that have a row of `patch_job_results`, and
whether the completion check has found the job to be late. -/
structure FanOut (κ : Type*) where
  world : PatchWorld κ
  (commanded recorded : List κ)
  timedOut : Bool

namespace FanOut
variable {κ : Type*} [DecidableEq κ] (targets : List κ)

def job (s : FanOut κ) : PatchJob := s.world.db.row.committed.job

def commands (w : PatchWorld κ) : PatchProcess κ × PatchSignal → List κ
  | (.executeDevice device, .prepared .commandQueued) =>
    if w.proc (.executeDevice device) = .prepare then [device] else []
  | _ => []

/-- The device whose result rows a step commits, with the counters. -/
def records (w : PatchWorld κ) : PatchProcess κ × PatchSignal → List κ
  | (.executeDevice device, .exec) => if w.proc (.executeDevice device) = .ending then [device] else []
  | _ => []

def step (s : FanOut κ) (e : PatchProcess κ × PatchSignal) : FanOut κ where
  world := patchStep targets s.world e
  commanded := commands s.world e ++ s.commanded
  recorded := records s.world e ++ s.recorded
  timedOut := s.timedOut || decide (s.world.proc .checkCompletion = .timeOut)

def start : FanOut κ := ⟨patchStart targets, [], [], false⟩

def Starts (s : FanOut κ) (device : κ) (e : PatchProcess κ × PatchSignal) : Prop :=
  e = (.executeDevice device, .exec) ∧ s.world.proc (.executeDevice device) = .start ∧
    s.world.db.deviceJobs device = true

/-- No device job that starts before the job is over ends as 'Job not running'. -/
def NotDropped (s : FanOut κ) (e : PatchProcess κ × PatchSignal) : Prop :=
  ∀ device, s.Starts device e → ¬s.job.Terminal → (s.step targets e).world.proc (.executeDevice device) ≠ .finished

/-- When the job becomes terminal, but for the time-out, every target has a command or a result. -/
def AllAttempted (s : FanOut κ) (e : PatchProcess κ × PatchSignal) : Prop :=
  ¬s.job.Terminal → (s.step targets e).job.Terminal → ¬(e.1 = .checkCompletion ∧ s.timedOut = true) →
    ∀ device ∈ targets, device ∈ (s.step targets e).commanded ∨ device ∈ (s.step targets e).recorded

def AfterFanOut (s : FanOut κ) (e : PatchProcess κ × PatchSignal) : Prop :=
  ∀ device, s.Starts device e → s.job.status ≠ .scheduled

end FanOut

/-- Until the job is over, what is counted has its rows, and only a late check is about to commit. -/
structure FanOutLaw {κ : Type*} [DecidableEq κ] (targets : List κ) (s : FanOut κ) : Prop
    extends PatchLaw targets s.world where
  going : ¬s.job.Terminal
  recorded : s.world.db.row.committed.devices ⊆ s.recorded
  late : s.world.proc .checkCompletion = .ending → s.timedOut = true

/-- Once the job is over, every version of the row is, and the check writes no verdict of its own. -/
structure PatchOver {κ : Type*} (w : PatchWorld κ) : Prop where
  committed : w.db.row.committed.job.Terminal
  held : ∀ t v, w.db.row.held = some (t, v) → v.job.Terminal
  noVerdict : ∀ status, w.proc .checkCompletion ≠ .writeVerdict status

section Over
variable {κ : Type*} [DecidableEq κ] {targets : List κ} {w : PatchWorld κ} {db next : PatchDb κ}
  {t : PatchProcess κ} {stage after : PatchStage κ} {signal : PatchSignal}
variable {job : PatchJob}

theorem PatchJob.Terminal.not_running (terminal : job.Terminal) : job.status ≠ .running := by
  intro running
  rcases terminal with other | other | other <;> cases other.symm.trans running

theorem PatchJob.Terminal.not_scheduled (terminal : job.Terminal) : job.status ≠ .scheduled := by
  intro scheduled
  rcases terminal with other | other | other <;> cases other.symm.trans scheduled

theorem PatchJob.Terminal.count (terminal : job.Terminal) (success : Bool) : (job.count success).Terminal := by
  unfold PatchJob.Terminal
  rw [(job_count success job).1]
  exact terminal

theorem PatchJob.Terminal.finished (terminal : job.Terminal) (live : job.status ≠ .cancelled) :
    job.Finished :=
  terminal.imp_right fun rest => rest.resolve_right live

/-- What an action does once the job is over: at most a version that is over, too. -/
inductive OverMove (t : PatchProcess κ) (db next : PatchDb κ) (after : PatchStage κ) : Prop
  | works (row : next.row = db.row ∨ ∃ v : Tally κ, v.job.Terminal ∧ next.row = db.row.write t v)
      (noVerdict : ∀ status, t = .checkCompletion → after ≠ .writeVerdict status)
  | commits (committed : next = db.commit t) (ended : after = .finished)
  | rollsBack (rolled : next = db.rollback t) (ended : after = .finished)

theorem OverMove.of_update {change : Tally κ → Tally κ} (updated : db.update t change = some next)
    (terminal : (change (db.row.read t)).job.Terminal)
    (noVerdict : ∀ status, t = .checkCompletion → after ≠ .writeVerdict status) : OverMove t db next after := by
  obtain ⟨-, rfl⟩ := update_row updated
  exact .works (.inr ⟨_, terminal, rfl⟩) noVerdict

theorem over_executePatchJob (isOver : (db.row.read .executePatchJob).job.Terminal)
    (acted : processExecutePatchJob targets db stage = some (next, after)) :
    OverMove .executePatchJob db next after := by
  have claimed : (db.job .executePatchJob).status ≠ .scheduled := isOver.not_scheduled
  cases stage with
  | start =>
    exact of_some_eq acted (.works (.inl rfl) (by simp))
  | claimJob =>
    rw [processExecutePatchJob, if_neg claimed] at acted
    exact of_some_eq acted (.works (.inl rfl) (by simp))
  | completeEmpty =>
    obtain ⟨_, updated, same⟩ := map_eq_some_iff.mp acted
    cases same
    exact .of_update updated (.inl rfl) (by simp)
  | fanOut rest =>
    cases rest <;>
      (cases acted
       exact .works (.inl rfl) (by simp))
  | ending =>
    exact of_some_eq acted (.commits rfl rfl)
  | writeVerdict | timeOut | prepare | poll | countDevice | selectJob | finalize | finished => cases acted

theorem over_checkCompletion (isOver : (db.row.read .checkCompletion).job.Terminal)
    (noVerdict : ∀ status, stage ≠ .writeVerdict status)
    (acted : processCheckCompletion targets db stage = some (next, after)) :
    OverMove .checkCompletion db next after := by
  have stopped : (db.job .checkCompletion).status ≠ .running := isOver.not_running
  cases stage with
  | start =>
    unfold processCheckCompletion at acted
    split_ifs at acted with added
    simp only [if_pos stopped] at acted
    exact of_some_eq acted (.works (.inl rfl) (by simp))
  | writeVerdict status => exact absurd rfl (noVerdict status)
  | timeOut =>
    obtain ⟨_, updated, same⟩ := map_eq_some_iff.mp acted
    cases same
    exact .of_update updated (.inr (.inl rfl)) (by simp)
  | ending =>
    exact of_some_eq acted (.commits rfl rfl)
  | claimJob | completeEmpty | fanOut | prepare | poll | countDevice | selectJob | finalize | finished => cases acted

theorem over_executeDevice {device : κ} (isOver : (db.row.read (.executeDevice device)).job.Terminal)
    (acted : processExecuteDevice device db stage = some (next, after)) :
    OverMove (.executeDevice device) db next after := by
  have stopped : (db.job (.executeDevice device)).status ≠ .running := isOver.not_running
  cases stage with
  | start =>
    unfold processExecuteDevice at acted
    split_ifs at acted with added
    exact of_some_eq acted (.works (.inl rfl) (by simp))
  | countDevice success =>
    obtain ⟨_, updated, same⟩ := map_eq_some_iff.mp acted
    cases same
    exact .of_update updated (isOver.count success) (by simp)
  | selectJob =>
    exact of_some_eq acted (.works (.inl rfl) (by simp))
  | finalize status =>
    rw [processExecuteDevice, if_neg stopped] at acted
    exact of_some_eq acted (.works (.inl rfl) (by simp))
  | ending =>
    exact of_some_eq acted (.commits rfl rfl)
  | claimJob | completeEmpty | fanOut | writeVerdict | timeOut | prepare | poll | finished => cases acted

theorem over_patchAct (isOver : (db.row.read t).job.Terminal)
    (noVerdict : ∀ status, t = .checkCompletion → stage ≠ .writeVerdict status)
    (acted : patchAct targets t signal db stage = some (next, after)) : OverMove t db next after := by
  cases signal with
  | exec =>
    cases t with
    | executePatchJob => exact over_executePatchJob isOver acted
    | checkCompletion => exact over_checkCompletion isOver (fun status => noVerdict status rfl) acted
    | executeDevice device => exact over_executeDevice isOver acted
  | prepared outcome =>
    simp only [patchAct] at acted
    split_ifs at acted
    refine of_some_eq acted (.works (.inl rfl) fun status _ => ?_)
    cases outcome <;> simp [Preparation.next]
  | polled finalCommand =>
    simp only [patchAct] at acted
    split_ifs at acted
    exact of_some_eq acted (.works (.inl rfl) (by simp))
  | rollback =>
    simp only [patchAct] at acted
    split_ifs at acted
    exact of_some_eq acted (.rollsBack rfl rfl)

theorem PatchOver.read (isOver : PatchOver w) (t : PatchProcess κ) : (w.db.row.read t).job.Terminal :=
  Row.read_rule (P := fun v : Tally κ => v.job.Terminal) isOver.committed (isOver.held t)

theorem PatchOver.step (isOver : PatchOver w) (e : PatchProcess κ × PatchSignal) :
    PatchOver (patchStep targets w e) := by
  obtain ⟨t, signal⟩ := e
  unfold patchStep
  cases stepped : World.step (patchAct targets) w (t, signal) with
  | none => exact isOver
  | some next =>
    obtain ⟨db, after, acted, rfl⟩ := World.step_eq_some stepped
    have quiet : (∀ status, t = .checkCompletion → after ≠ .writeVerdict status) →
        ∀ status, update w.proc t after .checkCompletion ≠ .writeVerdict status := by
      intro own status
      by_cases same : .checkCompletion = t
      · rw [← same, update_self]
        exact own status same.symm
      · rw [update_of_ne same]
        exact isOver.noVerdict status
    cases over_patchAct (isOver.read t) (fun status same => same ▸ isOver.noVerdict status) acted with
    | works row noVerdict =>
      refine ⟨?_, fun u v held => ?_, quiet noVerdict⟩
      · rcases row with same | ⟨v, -, wrote⟩
        · simpa only [getD_some, same] using isOver.committed
        · simpa only [getD_some, wrote, Row.committed_write] using isOver.committed
      · rcases row with same | ⟨x, terminal, wrote⟩
        · simp only [getD_some, same] at held
          exact isOver.held u v held
        · simp only [getD_some, wrote, Row.held_write, Option.some.injEq, Prod.mk.injEq] at held
          exact held.2 ▸ terminal
    | commits committed ended =>
      subst committed ended
      refine ⟨isOver.read t, fun u v held => ?_, quiet (by simp)⟩
      exact isOver.held u v (Row.held_commit_iff.mp held).1
    | rollsBack rolled ended =>
      subst rolled ended
      refine ⟨isOver.committed, fun u v held => ?_, quiet (by simp)⟩
      exact isOver.held u v (Row.held_rollback_iff.mp held).1

end Over

section FanOuts
variable {κ : Type*} [DecidableEq κ] {targets : List κ} {s : FanOut κ}

omit [DecidableEq κ] in
theorem Tally.Lawful.all_counted {tally : Tally κ} (law : tally.Lawful targets) (finished : tally.job.Finished) :
    targets ⊆ tally.devices := by
  have counters := law.length_counted
  rw [law.settled finished, Int.sub_zero, Int.natCast_inj] at counters
  have all : targets.length ≤ tally.devices.length := by
    rw [Tally.devices, length_map]
    exact Nat.le_of_eq counters.symm
  exact ((subperm_of_subset law.once law.listed).perm_of_length_le all).symm.subset

theorem FanOutLaw.onTime (law : FanOutLaw targets s) (e : PatchProcess κ × PatchSignal) : OnTime s.world e := by
  have unfinished : ¬s.world.db.row.committed.job.Finished :=
    fun finished => law.going (finished.imp_right .inl)
  obtain ⟨t, signal⟩ := e
  cases signal with
  | exec =>
    cases t with
    | executePatchJob => trivial
    | checkCompletion => exact fun _ completed => unfinished (.inl completed)
    | executeDevice device => exact fun _ => unfinished
  | prepared | polled | rollback => cases t <;> trivial

theorem FanOutLaw.recorded_step (law : FanOutLaw targets s) (e : PatchProcess κ × PatchSignal)
    (checks : ¬(e = (.checkCompletion, .exec) ∧ s.world.proc .checkCompletion = .ending)) :
    (s.step targets e).world.db.row.committed.devices ⊆ (s.step targets e).recorded := by
  rcases law.committed_or_ending e with same | ⟨exec, ending⟩
  · simp only [FanOut.step, same]
    exact subset_append_of_subset_right _ law.recorded
  · obtain ⟨t, signal⟩ := e
    dsimp only at exec ending
    subst exec
    have draft := law.drafts t
    rw [ending] at draft
    simp only [FanOut.step, committed_patchStep ending]
    cases draft with
    | rests rests | works rests => cases rests
    | begins scheduled held =>
      rw [Row.read_of_held held]
      exact law.recorded
    | timesOut => exact absurd ⟨rfl, ending⟩ checks
    | @settles device success begun held =>
      have devices : (s.world.db.row.committed.count device success).settle.devices =
          device :: s.world.db.row.committed.devices := by
        unfold Tally.settle
        split_ifs <;> rfl
      rw [Row.read_of_held held, devices]
      simp only [FanOut.records, if_pos ending]
      exact cons_subset_cons device law.recorded

theorem check_ends {signal : PatchSignal} {db next : PatchDb κ} {stage : PatchStage κ}
    (acted : patchAct targets .checkCompletion signal db stage = some (next, .ending)) :
    stage = .timeOut ∨ ∃ status, stage = .writeVerdict status := by
  cases signal with
  | exec =>
    cases stage with
    | timeOut => exact .inl rfl
    | writeVerdict status => exact .inr ⟨status, rfl⟩
    | start =>
      simp only [patchAct, processCheckCompletion] at acted
      split_ifs at acted <;> cases acted
    | _ => cases acted
  | prepared outcome =>
    simp only [patchAct] at acted
    split_ifs at acted
    cases outcome <;> cases acted
  | polled finalCommand | rollback =>
    simp only [patchAct] at acted
    split_ifs at acted
    cases acted

omit [DecidableEq κ] in
theorem Draft.writes_none [DecidableEq κ] {row : Row (PatchProcess κ) (Tally κ)} {t : PatchProcess κ}
    {status : PatchJobStatus} (draft : Draft targets row t (.writeVerdict status)) : False := by
  cases draft with
  | rests rests | works rests => cases rests

theorem FanOutLaw.late_step (law : FanOutLaw targets s) (e : PatchProcess κ × PatchSignal)
    (ending : (s.step targets e).world.proc .checkCompletion = .ending) : (s.step targets e).timedOut = true := by
  by_cases before : s.world.proc .checkCompletion = .timeOut ∨ s.world.proc .checkCompletion = .ending
  · rcases before with timeOut | ended
    · simp [FanOut.step, timeOut]
    · simp [FanOut.step, law.late ended]
  · exfalso
    obtain ⟨t, signal⟩ := e
    simp only [FanOut.step, patchStep] at ending
    cases stepped : World.step (patchAct targets) s.world (t, signal) with
    | none =>
      rw [stepped] at ending
      exact before (.inr ending)
    | some next =>
      obtain ⟨db, after, acted, rfl⟩ := World.step_eq_some stepped
      rw [stepped] at ending
      simp only [getD_some] at ending
      by_cases same : t = .checkCompletion
      · subst same
        rw [update_self] at ending
        subst ending
        rcases check_ends acted with timeOut | ⟨status, verdict⟩
        · exact before (.inl timeOut)
        · exact (verdict ▸ law.drafts .checkCompletion).writes_none
      · rw [update_of_ne (Ne.symm same)] at ending
        exact before (.inr ending)

theorem FanOutLaw.step (law : FanOutLaw targets s) (e : PatchProcess κ × PatchSignal)
    (checks : ¬(e = (.checkCompletion, .exec) ∧ s.world.proc .checkCompletion = .ending)) :
    PatchLaw targets (s.step targets e).world :=
  law.step_of e (law.onTime e) fun same ending => absurd ⟨same, ending⟩ checks

theorem PatchOver.of_ending (law : FanOutLaw targets s) {t : PatchProcess κ} (ending : s.world.proc t = .ending)
    (terminal : (s.step targets (t, .exec)).job.Terminal) : PatchOver (s.step targets (t, .exec)).world := by
  have after : (s.step targets (t, .exec)).world = ⟨s.world.db.commit t, update s.world.proc t .finished⟩ := by
    cases t <;> simp only [FanOut.step, patchStep, World.step, patchAct, ending] <;> rfl
  have held : ∃ v, s.world.db.row.held = some (t, v) := by
    have draft := law.drafts t
    rw [ending] at draft
    cases draft with
    | rests rests | works rests => cases rests
    | begins _ held | timesOut _ held | settles _ held => exact ⟨_, held⟩
  obtain ⟨v, held⟩ := held
  refine ⟨terminal, fun u x other => ?_, fun status verdict => ?_⟩
  · rw [after] at other
    obtain ⟨before, distinct⟩ := Row.held_commit_iff.mp other
    exact absurd (Prod.mk.inj (some.inj (before.symm.trans held))).1 distinct
  · rw [after] at verdict
    by_cases same : .checkCompletion = t
    · simp only [← same, update_self] at verdict
      cases verdict
    · simp only [update_of_ne same] at verdict
      exact (verdict ▸ law.drafts .checkCompletion).writes_none

def FanOutSound (targets : List κ) (s : FanOut κ) : Prop := FanOutLaw targets s ∨ PatchOver s.world

theorem FanOutSound.step (sound : FanOutSound targets s) (e : PatchProcess κ × PatchSignal) :
    FanOutSound targets (s.step targets e) := by
  rcases sound with law | isOver
  · by_cases terminal : (s.step targets e).job.Terminal
    · refine .inr ?_
      rcases law.committed_or_ending e with same | ⟨exec, ending⟩
      · have before : s.job.Terminal := by
          rw [FanOut.job, ← same]
          exact terminal
        exact absurd before law.going
      · obtain ⟨t, signal⟩ := e
        dsimp only at exec ending
        subst exec
        exact .of_ending law ending terminal
    · have checks : ¬(e = (.checkCompletion, .exec) ∧ s.world.proc .checkCompletion = .ending) := by
        rintro ⟨rfl, ending⟩
        refine terminal (.inr (.inl ?_))
        have draft := law.drafts .checkCompletion
        rw [ending] at draft
        simp only [FanOut.job, FanOut.step, committed_patchStep ending]
        cases draft with
        | rests rests | works rests => cases rests
        | timesOut _ held =>
          rw [Row.read_of_held held]
          rfl
      exact .inl ⟨law.step e checks, terminal, law.recorded_step e checks, law.late_step e⟩
  · exact .inr (isOver.step e)

theorem FanOutSound.start : FanOutSound targets (FanOut.start targets) := by
  refine .inl ⟨law_patchStart targets, ?_, nil_subset _, nofun⟩
  rintro (other | other | other) <;> cases other

theorem FanOutSound.attempted (sound : FanOutSound targets s) (e : PatchProcess κ × PatchSignal) :
    s.AllAttempted targets e := by
  intro going terminal untimely device target
  rcases sound with law | isOver
  · have checks : ¬(e = (.checkCompletion, .exec) ∧ s.world.proc .checkCompletion = .ending) := by
      rintro ⟨rfl, ending⟩
      exact untimely ⟨rfl, law.late ending⟩
    have lawful := (law.step e checks).lawful
    have counted := lawful.all_counted (terminal.finished lawful.live) target
    exact .inr (law.recorded_step e checks counted)
  · exact absurd isOver.committed going

theorem FanOutSound.notDropped_iff (sound : FanOutSound targets s) (e : PatchProcess κ × PatchSignal) :
    s.NotDropped targets e ↔ s.AfterFanOut e := by
  refine forall_congr' fun device => forall_congr' fun starts => ?_
  obtain ⟨rfl, start, given⟩ := starts
  rcases sound with law | isOver
  · have idle : s.world.db.row.read (.executeDevice device) = s.world.db.row.committed := by
      have draft := law.drafts (.executeDevice device)
      rw [start] at draft
      cases draft with
      | rests _ idle => exact Row.read_of_not_held idle
      | works works => cases works
    have after : (s.step targets (.executeDevice device, .exec)).world.proc (.executeDevice device) =
        if s.job.status = .running then .prepare else .finished := by
      simp only [FanOut.step, patchStep, World.step, patchAct, start, processExecuteDevice, if_pos given, PatchDb.job,
        idle, map_some, getD_some, update_self]
      rfl
    rw [after]
    constructor
    · intro kept scheduled
      refine kept law.going ?_
      rw [scheduled]
      rfl
    · intro begun _
      have running := PatchJob.running_of _ law.lawful.live begun fun finished => law.going (finished.imp_right .inl)
      rw [FanOut.job, if_pos running]
      simp
  · exact ⟨fun _ => isOver.committed.not_scheduled, fun _ going => absurd isOver.committed going⟩

/-- Every target is attempted, and no device job is dropped before the verdict, exactly in the runs in which each device
job starts after the fan-out has committed. -/
theorem patch_targets_attempted_iff (targets : List κ) (es : List (PatchProcess κ × PatchSignal)) :
    (StepsMeet (FanOut.step targets) (FanOut.NotDropped targets) (FanOut.start targets) es ∧
      StepsMeet (FanOut.step targets) (FanOut.AllAttempted targets) (FanOut.start targets) es) ↔
    StepsMeet (FanOut.step targets) FanOut.AfterFanOut (FanOut.start targets) es := by
  have start : FanOutSound targets (FanOut.start targets) := .start
  have agree : StepsMeet (FanOut.step targets) (FanOut.NotDropped targets) (FanOut.start targets) es ↔
      StepsMeet (FanOut.step targets) FanOut.AfterFanOut (FanOut.start targets) es :=
    stepsMeet_congr (fun s e (sound : FanOutSound targets s) _ => sound.step e)
      (fun s e sound => sound.notDropped_iff e) start
  have attempted : StepsMeet (FanOut.step targets) (FanOut.AllAttempted targets) (FanOut.start targets) es := by
    intro pre e post split
    have throughout : Throughout (FanOut.step targets) (FanOutSound targets) (FanOut.start targets) es :=
      throughout_of_invariant (C := fun _ _ => True) (fun s e sound _ => sound.step e) start fun _ _ _ _ => trivial
    exact (throughout pre (e :: post) split).attempted e
  exact ⟨fun both => agree.mp both.1, fun later => ⟨agree.mpr later, attempted⟩⟩

def earlyRun : List (PatchProcess ℕ × PatchSignal) :=
  execs 3 .executePatchJob ++ execs 1 (.executeDevice 7) ++ execs 2 .executePatchJob

theorem early_device_dropped :
    let s := earlyRun.foldl (FanOut.step [7]) (FanOut.start [7])
    s.job = ⟨.running, 1, 0, 0, 1⟩ ∧ s.world.proc (.executeDevice 7) = .finished ∧ s.commanded = [] ∧ s.recorded = [] ∧
      ¬StepsMeet (FanOut.step [7]) (FanOut.NotDropped [7]) (FanOut.start [7]) earlyRun := by
  refine ⟨by decide, by decide, by decide, by decide, fun meets => ?_⟩
  exact meets (execs 3 .executePatchJob) (.executeDevice 7, .exec) (execs 2 .executePatchJob) rfl 7
    ⟨rfl, by decide, by decide⟩ (by decide) (by decide)

end FanOuts

end RemudaRmm.Devices
