import Mathlib.Data.Int.Notation
import Mathlib.Data.List.Nodup
import RemudaRmm.Foundation.ReadCommitted

/-! One patch job under READ COMMITTED (`patchJobExecutor.ts`), a statement at a time: the fan-out, the jobs of its
devices and the completion check. A device job has a transaction before it waits for its command and one after; the
others are one each. -/
namespace RemudaRmm.Devices
open Foundation List Function

inductive PatchJobStatus where
  | scheduled
  | running
  | completed
  | failed
  | cancelled
  deriving DecidableEq

structure PatchJob where
  status : PatchJobStatus
  (devicesTotal devicesCompleted devicesFailed devicesPending : ℤ)
  deriving DecidableEq

namespace PatchJob

def verdict (job : PatchJob) : PatchJobStatus := if 0 < job.devicesFailed then .failed else .completed

def Finished (job : PatchJob) : Prop := job.status = .completed ∨ job.status = .failed
  deriving Decidable

def count (success : Bool) (job : PatchJob) : PatchJob :=
  if success then
    { job with devicesCompleted := job.devicesCompleted + 1, devicesPending := job.devicesPending - 1 }
  else { job with devicesFailed := job.devicesFailed + 1, devicesPending := job.devicesPending - 1 }

def timeOut (job : PatchJob) : PatchJob :=
  { job with status := .failed, devicesFailed := job.devicesFailed + job.devicesPending, devicesPending := 0 }

end PatchJob

/-- The row, and which devices its counters have counted so far; `true` where as completed. -/
structure Tally (κ : Type*) where
  job : PatchJob
  counted : List (κ × Bool)
  deriving DecidableEq

inductive PatchProcess (κ : Type*) where
  | executePatchJob
  | checkCompletion
  | executeDevice (device : κ)
  deriving DecidableEq

inductive PatchStage (κ : Type*) where
  | start
  | claimJob
  | completeEmpty
  | fanOut (rest : List κ)
  | writeVerdict (status : PatchJobStatus)
  | timeOut
  | prepare
  | poll
  | countDevice (success : Bool)
  | selectJob
  | finalize (status : PatchJobStatus)
  | ending
  | finished
  deriving DecidableEq

inductive SkipReason where
  | invalidPatchSources
  | errorResolvingPatches
  | noApprovedPatches
  | deviceOffline
  | commandCreationFailed

/-- How `prepareDeviceExecution` ends for a job that it has found running. -/
inductive Preparation where
  | orgMismatch
  | notTargeted
  | deviceNotFound
  | skipped (reason : SkipReason)
  | commandQueued

/-- What counts of a command that has ended: its status, `success` of the parsed output and the exit code. -/
structure FinalCommand where
  completed : Bool
  success : Option Bool
  exitCode : Option ℤ

def overallSuccess : Option FinalCommand → Bool
  | none => false
  | some command => command.completed && command.success.getD true && command.exitCode.all (· = 0)

/-- What a step is told from outside; a transaction that throws is rolled back. -/
inductive PatchSignal where
  | exec
  | prepared (outcome : Preparation)
  | polled (finalCommand : Option FinalCommand)
  | rollback

/-- The row, and the jobs that the queues have been given. -/
structure PatchDb (κ : Type*) where
  row : Row (PatchProcess κ) (Tally κ)
  deviceJobs : κ → Bool
  completionJob : Bool

section Statements
variable {κ : Type*} [DecidableEq κ] (targets : List κ)

namespace Tally

def setStatus (status : PatchJobStatus) (tally : Tally κ) : Tally κ :=
  { tally with job := { tally.job with status := status } }

def devices (tally : Tally κ) : List κ := tally.counted.map Prod.fst

def count (device : κ) (success : Bool) (tally : Tally κ) : Tally κ :=
  ⟨tally.job.count success, (device, success) :: tally.counted⟩

def missing (tally : Tally κ) : List κ := targets.filter (· ∉ tally.devices)

def timeOut (tally : Tally κ) : Tally κ :=
  ⟨tally.job.timeOut, (tally.missing targets).map (·, false) ++ tally.counted⟩

end Tally

namespace PatchDb

/-- `UPDATE patch_jobs SET … WHERE id`; `none` while another transaction holds the row. -/
def update (t : PatchProcess κ) (change : Tally κ → Tally κ) (db : PatchDb κ) : Option (PatchDb κ) :=
  if db.row.Free t then some { db with row := db.row.write t (change (db.row.read t)) } else none

def commit (t : PatchProcess κ) (db : PatchDb κ) : PatchDb κ := { db with row := db.row.commit t }

def rollback (t : PatchProcess κ) (db : PatchDb κ) : PatchDb κ := { db with row := db.row.rollback t }

def job (t : PatchProcess κ) (db : PatchDb κ) : PatchJob := (db.row.read t).job

end PatchDb

def processExecutePatchJob (db : PatchDb κ) : PatchStage κ → Option (PatchDb κ × PatchStage κ)
  | .start => some (db, if (db.job .executePatchJob).status = .scheduled then .claimJob else .finished)
  | .claimJob =>
    if (db.job .executePatchJob).status = .scheduled then
      (db.update .executePatchJob (·.setStatus .running)).map
        (·, if targets = [] then .completeEmpty else .fanOut targets)
    else some (db, .finished)
  | .completeEmpty => (db.update .executePatchJob (·.setStatus .completed)).map (·, .ending)
  | .fanOut (device :: rest) =>
    some ({ db with deviceJobs := update db.deviceJobs device true }, .fanOut rest)
  | .fanOut [] => some ({ db with completionJob := true }, .ending)
  | .ending => some (db.commit .executePatchJob, .finished)
  | _ => none

def processCheckCompletion (db : PatchDb κ) : PatchStage κ → Option (PatchDb κ × PatchStage κ)
  | .start =>
    if db.completionJob then
      let job := db.job .checkCompletion
      some (db, if job.status ≠ .running then .finished
        else if job.devicesPending = 0 then .writeVerdict job.verdict else .timeOut)
    else none
  | .writeVerdict status => (db.update .checkCompletion (·.setStatus status)).map (·, .ending)
  | .timeOut => (db.update .checkCompletion (·.timeOut targets)).map (·, .ending)
  | .ending => some (db.commit .checkCompletion, .finished)
  | _ => none

/-- The statements of `processExecuteDevice`: the read of `prepareDeviceExecution`, the counter update of
`markDeviceSkipped` or `recordDeviceExecution`, and `checkAndFinalizeJob` after it. -/
def processExecuteDevice (device : κ) (db : PatchDb κ) : PatchStage κ → Option (PatchDb κ × PatchStage κ)
  | .start =>
    if db.deviceJobs device then
      some (db, if (db.job (.executeDevice device)).status = .running then .prepare else .finished)
    else none
  | .countDevice success =>
    (db.update (.executeDevice device) (·.count device success)).map (·, .selectJob)
  | .selectJob =>
    let job := db.job (.executeDevice device)
    some (db, if job.status = .running ∧ job.devicesPending ≤ 0 then .finalize job.verdict else .ending)
  | .finalize status =>
    if (db.job (.executeDevice device)).status = .running then
      (db.update (.executeDevice device) (·.setStatus status)).map (·, .ending)
    else some (db, .ending)
  | .ending => some (db.commit (.executeDevice device), .finished)
  | _ => none

/-- Where a device job goes on after `prepareDeviceExecution`; a skipped device counts as completed. -/
def Preparation.next : Preparation → PatchStage κ
  | .orgMismatch | .notTargeted | .deviceNotFound => .finished
  | .skipped _ => .countDevice true
  | .commandQueued => .poll

/-- One action of one job; `none` while it is blocked or not at it. -/
def patchAct (t : PatchProcess κ) (signal : PatchSignal) (db : PatchDb κ) (stage : PatchStage κ) :
    Option (PatchDb κ × PatchStage κ) :=
  match signal with
  | .exec =>
    match t with
    | .executePatchJob => processExecutePatchJob targets db stage
    | .checkCompletion => processCheckCompletion targets db stage
    | .executeDevice device => processExecuteDevice device db stage
  | .prepared outcome => if stage = .prepare then some (db, outcome.next) else none
  | .polled finalCommand => if stage = .poll then some (db, .countDevice (overallSuccess finalCommand)) else none
  | .rollback => if stage = .start ∨ stage = .finished then none else some (db.rollback t, .finished)

abbrev PatchWorld (κ : Type*) := World (PatchProcess κ) (PatchDb κ) (PatchStage κ)

def patchStep (w : PatchWorld κ) (e : PatchProcess κ × PatchSignal) : PatchWorld κ :=
  (World.step (patchAct targets) w e).getD w

def createdPatchJob : PatchJob := ⟨.scheduled, targets.length, 0, 0, targets.length⟩

def patchStart : PatchWorld κ :=
  ⟨⟨Row.unheld ⟨createdPatchJob targets, []⟩, fun _ => false, false⟩, fun _ => .start⟩

end Statements

/-- The counters count each target once at most, and the verdict is the one they give. -/
structure Tally.Exact {κ : Type*} (targets : List κ) (tally : Tally κ) : Prop where
  pending : 0 ≤ tally.job.devicesPending
  total : tally.job.devicesCompleted + tally.job.devicesFailed + tally.job.devicesPending = tally.job.devicesTotal
  targeted : tally.job.devicesTotal = targets.length
  completed : tally.job.devicesCompleted = tally.counted.countP fun c => c.2
  failed : tally.job.devicesFailed = tally.counted.countP fun c => !c.2
  once : tally.devices.Nodup
  listed : tally.devices ⊆ targets
  verdict : tally.job.Finished → (tally.job.status = .failed ↔ 0 < tally.job.devicesFailed)

/-- While the job runs devices are pending, before it nothing is counted, and after it no device is pending. -/
structure Tally.Lawful {κ : Type*} (targets : List κ) (tally : Tally κ) : Prop extends tally.Exact targets where
  waits : tally.job.status = .running → 0 < tally.job.devicesPending
  fresh : tally.job.status = .scheduled → tally.counted = []
  settled : tally.job.Finished → tally.job.devicesPending = 0
  live : tally.job.status ≠ .cancelled

section Tallies
variable {κ : Type*} [DecidableEq κ] {targets : List κ} {tally : Tally κ}

@[simp] theorem job_count (success : Bool) (job : PatchJob) : (job.count success).status = job.status ∧
    (job.count success).devicesTotal = job.devicesTotal ∧
    (job.count success).devicesPending = job.devicesPending - 1 := by
  cases success <;> exact ⟨rfl, rfl, rfl⟩

theorem PatchJob.running_of (job : PatchJob) (live : job.status ≠ .cancelled) (begun : job.status ≠ .scheduled)
    (unfinished : ¬job.Finished) : job.status = .running := by
  unfold PatchJob.Finished at unfinished
  cases status : job.status with
  | running => rfl
  | scheduled => exact absurd status begun
  | cancelled => exact absurd status live
  | completed => exact absurd (.inl status) unfinished
  | failed => exact absurd (.inr status) unfinished

omit [DecidableEq κ] in
theorem Tally.Exact.length_counted (exact : tally.Exact targets) :
    (tally.counted.length : ℤ) = targets.length - tally.job.devicesPending := by
  have parts := length_eq_countP_add_countP (fun c : κ × Bool => c.2) (l := tally.counted)
  have total := exact.total
  rw [exact.targeted, exact.completed, exact.failed] at total
  simp only [Bool.not_eq_true, Bool.decide_eq_false] at parts
  omega

theorem Tally.mem_missing {device : κ} :
    device ∈ tally.missing targets ↔ device ∈ targets ∧ device ∉ tally.devices := by
  simp only [Tally.missing, mem_filter, decide_eq_true_eq]

theorem Tally.Exact.length_missing (exact : tally.Exact targets) (distinct : targets.Nodup) :
    ((tally.missing targets).length : ℤ) = tally.job.devicesPending := by
  have counted : (targets.filter (· ∈ tally.devices)).Perm tally.devices := by
    rw [perm_ext_iff_of_nodup (distinct.filter _) exact.once]
    intro device
    simp only [mem_filter, decide_eq_true_eq]
    exact ⟨fun both => both.2, fun member => ⟨exact.listed member, member⟩⟩
  have lengths := length_eq_length_filter_add (l := targets) fun k => decide (k ∈ tally.devices)
  rw [counted.length_eq, Tally.devices, length_map] at lengths
  have counters := exact.length_counted
  simp only [Tally.missing, decide_not]
  unfold Tally.devices
  omega

omit [DecidableEq κ] in
theorem Tally.Lawful.begin (law : tally.Lawful targets) (scheduled : tally.job.status = .scheduled) :
    (tally.setStatus (if targets = [] then .completed else .running)).Lawful targets := by
  have counted := law.fresh scheduled
  have completed : tally.job.devicesCompleted = 0 := by rw [law.completed, counted]; rfl
  have failed : tally.job.devicesFailed = 0 := by rw [law.failed, counted]; rfl
  have pending : tally.job.devicesPending = targets.length := by
    have total := law.total
    rw [law.targeted] at total
    omega
  refine ⟨⟨law.pending, law.total, law.targeted, law.completed, law.failed, law.once, law.listed, fun finished => ?_⟩,
    fun running => ?_, fun again => ?_, fun finished => ?_, ?_⟩
  · simp only [Tally.setStatus, failed] at finished ⊢
    split_ifs <;> simp
  · simp only [Tally.setStatus, pending] at running ⊢
    split_ifs at running with empty
    exact Int.natCast_pos.mpr (length_pos_iff.mpr empty)
  · simp only [Tally.setStatus] at again
    split_ifs at again
  · simp only [Tally.setStatus, PatchJob.Finished] at finished ⊢
    split_ifs at finished with empty
    · rw [pending, empty]; rfl
    · simp at finished
  · simp only [Tally.setStatus]
    split_ifs <;> simp

theorem PatchJob.count_completed (success : Bool) (job : PatchJob) :
    (job.count success).devicesCompleted = job.devicesCompleted + if success then 1 else 0 := by
  cases success
  · exact (Int.add_zero _).symm
  · rfl

theorem PatchJob.count_failed (success : Bool) (job : PatchJob) :
    (job.count success).devicesFailed = job.devicesFailed + if success then 0 else 1 := by
  cases success
  · rfl
  · exact (Int.add_zero _).symm

omit [DecidableEq κ] in
theorem Tally.Lawful.counts (law : tally.Lawful targets) (running : tally.job.status = .running) {device : κ}
    (target : device ∈ targets) (uncounted : device ∉ tally.devices) (success : Bool) :
    (tally.count device success).Exact targets := by
  obtain ⟨status, devicesTotal, devicesPending⟩ := job_count success tally.job
  have waits := law.waits running
  refine ⟨?_, ?_, devicesTotal.trans law.targeted, ?_, ?_, ?_, ?_, fun finished => ?_⟩
  · rw [Tally.count, devicesPending]
    omega
  · have total := law.total
    simp only [Tally.count, PatchJob.count_completed, PatchJob.count_failed, devicesPending, devicesTotal]
    split_ifs <;> omega
  · have completed := law.completed
    simp only [Tally.count, PatchJob.count_completed, countP_cons]
    split_ifs <;> omega
  · have failed := law.failed
    simp only [Tally.count, PatchJob.count_failed, countP_cons]
    cases success <;> simp [failed]
  · exact nodup_cons.mpr ⟨uncounted, law.once⟩
  · exact cons_subset.mpr ⟨target, law.listed⟩
  · simp only [Tally.count, PatchJob.Finished, status, running] at finished
    simp at finished

/-- What `checkAndFinalizeJob` makes of a job. -/
def Tally.settle (tally : Tally κ) : Tally κ :=
  if tally.job.status = .running ∧ tally.job.devicesPending ≤ 0 then tally.setStatus tally.job.verdict else tally

theorem PatchJob.finished_verdict (job : PatchJob) : job.verdict = .completed ∨ job.verdict = .failed := by
  unfold PatchJob.verdict
  split_ifs
  · exact .inr rfl
  · exact .inl rfl

omit [DecidableEq κ] in
theorem Tally.Exact.settle (exact : tally.Exact targets) (running : tally.job.status = .running) :
    tally.settle.Lawful targets := by
  by_cases last : tally.job.devicesPending ≤ 0
  · have none_left : tally.job.devicesPending = 0 := Int.le_antisymm last exact.pending
    have unsettled : ∀ status, tally.job.verdict = status → status = .completed ∨ status = .failed :=
      fun status same => same ▸ tally.job.finished_verdict
    rw [Tally.settle, if_pos ⟨running, last⟩]
    refine ⟨⟨exact.pending, exact.total, exact.targeted, exact.completed, exact.failed, exact.once, exact.listed,
      fun _ => ?_⟩, fun again => ?_, fun again => ?_, fun _ => none_left, fun again => ?_⟩
    · simp only [Tally.setStatus, PatchJob.verdict]
      split_ifs with failed <;> simp [failed]
    · rcases unsettled _ again with other | other <;> cases other
    · rcases unsettled _ again with other | other <;> cases other
    · rcases unsettled _ again with other | other <;> cases other
  · have waits : 0 < tally.job.devicesPending := Int.not_le.mp last
    rw [Tally.settle, if_neg fun both => last both.2]
    refine ⟨exact, fun _ => waits, fun again => ?_, fun finished => ?_, fun again => ?_⟩
    · cases running.symm.trans again
    · rcases finished with again | again <;> cases running.symm.trans again
    · cases running.symm.trans again

theorem Tally.Lawful.timeOut (law : tally.Lawful targets) (distinct : targets.Nodup)
    (begun : tally.job.status ≠ .scheduled) (incomplete : tally.job.status ≠ .completed) :
    (tally.timeOut targets).Lawful targets := by
  have missing := law.toExact.length_missing distinct
  have failed := law.failed
  have failing : 0 < tally.job.devicesFailed + tally.job.devicesPending := by
    have some_failed := law.pending
    by_cases finished : tally.job.Finished
    · have verdict := (law.verdict finished).mp (finished.resolve_left incomplete)
      omega
    · have waits := law.waits (tally.job.running_of law.live begun finished)
      omega
  refine ⟨⟨Int.le_refl 0, ?_, law.targeted, ?_, ?_, ?_, ?_, fun _ => ⟨fun _ => failing, fun _ => rfl⟩⟩, nofun, nofun,
    fun _ => rfl, nofun⟩
  · have total := law.total
    simp only [Tally.timeOut, PatchJob.timeOut]
    omega
  · simp only [Tally.timeOut, PatchJob.timeOut, countP_append, countP_map, law.completed]
    simp [comp_def]
  · simp only [Tally.timeOut, PatchJob.timeOut, countP_append, countP_map, failed]
    simp [missing, Int.add_comm, comp_def]
  · simp only [Tally.timeOut, Tally.devices, map_append, List.map_map]
    refine List.Nodup.append ?_ law.once ?_
    · exact (distinct.filter _).map injective_id
    · intro device missed counted
      obtain ⟨k, uncounted, rfl⟩ := List.mem_map.mp missed
      exact (Tally.mem_missing.mp uncounted).2 counted
  · intro device member
    simp only [Tally.timeOut, Tally.devices, map_append, List.map_map, mem_append] at member
    rcases member with missed | counted
    · obtain ⟨k, uncounted, rfl⟩ := List.mem_map.mp missed
      exact (Tally.mem_missing.mp uncounted).1
    · exact law.listed counted

end Tallies

end RemudaRmm.Devices
