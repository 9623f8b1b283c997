import RemudaRmm.Deployments.DeploymentEngine
import RemudaRmm.Foundation.Runs

/-! The jobs of one deployment (`deploymentWorker.ts`): passes of the deployment job, under the ids that start it and
that follow up a batch, and device jobs, under the id of the first attempt and the deferred id. A queue holds one job
per id. -/
namespace RemudaRmm.Deployments
open Foundation Function Option DeploymentDevice

inductive PassId where
  | process
  | nextBatch (currentBatch : ℕ)
  deriving DecidableEq

/-- A deployment job: not in the queue or finished, waiting or delayed, taken by a worker, past its read with the batch
that it has chosen, past a read that found no pending device, or about to finish. -/
inductive PassStage (κ : Type*) where
  | absent
  | queued
  | active
  | queueing (currentBatch : ℕ) (devices : List κ)
  | counting
  | ending
  deriving DecidableEq

inductive DeviceJobId (κ : Type*) where
  | first (device : κ)
  | deferred (device : κ)
  deriving DecidableEq

def DeviceJobId.device {κ : Type*} : DeviceJobId κ → κ
  | .first device | .deferred device => device

/-- A device job, with the batch number of its data. -/
inductive DeviceStage where
  | absent
  | queued (batchNumber : ℕ)
  | active (batchNumber : ℕ)
  | executing (batchNumber : ℕ)
  | ending
  deriving DecidableEq

/-- `executions` counts the payloads that were started. -/
structure Rollout (κ : Type*) where
  status : DeploymentStatus
  rows : κ → DeploymentDevice
  passes : PassId → PassStage κ
  jobs : DeviceJobId κ → DeviceStage
  executions : κ → ℕ

inductive RolloutEvent (κ : Type*) where
  | startDeployment
  | takePass (id : PassId)
  | readPending (id : PassId) (batchDevices : List κ)
  | queueBatch (id : PassId) (inMaintenance : κ → Bool)
  | countProgress (id : PassId)
  | endPass (id : PassId)
  | takeDevice (id : DeviceJobId κ)
  | prepareDevice (id : DeviceJobId κ) (inOrg inMaintenance : Bool)
  | recordOutcome (id : DeviceJobId κ) (payload : Except Unit Bool)
  | endDevice (id : DeviceJobId κ)

section Steps
variable {κ : Type*} [DecidableEq κ] (targets : List κ) (config : RolloutConfig)

namespace Rollout

def setPass (id : PassId) (stage : PassStage κ) (w : Rollout κ) : Rollout κ :=
  { w with passes := update w.passes id stage }

def setJob (id : DeviceJobId κ) (stage : DeviceStage) (w : Rollout κ) : Rollout κ :=
  { w with jobs := update w.jobs id stage }

def setRow (device : κ) (row : DeploymentDevice) (w : Rollout κ) : Rollout κ :=
  { w with rows := update w.rows device row }

/-- An add for an id whose job is waiting, delayed or active has no effect. -/
def addPass (id : PassId) (w : Rollout κ) : Rollout κ :=
  if w.passes id = .absent then w.setPass id .queued else w

def addJob (id : DeviceJobId κ) (batchNumber : ℕ) (w : Rollout κ) : Rollout κ :=
  if w.jobs id = .absent then w.setJob id (.queued batchNumber) else w

/-- A pass adds the first job of a device unless that or a deferred one is there. -/
def addFirst (batchNumber : ℕ) (w : Rollout κ) (device : κ) : Rollout κ :=
  if w.jobs (.deferred device) = .absent then w.addJob (.first device) batchNumber else w

def pending (w : Rollout κ) : List κ := targets.filter fun k => (w.rows k).status = .pending

/-- The first hundred pending devices by batch number, in some order within a batch. -/
def FirstPending (w : Rollout κ) (batchDevices : List κ) : Prop :=
  batchDevices.Nodup ∧ (∀ k ∈ batchDevices, k ∈ w.pending targets) ∧
  batchDevices.length = min 100 (w.pending targets).length ∧
  batchDevices.Pairwise (fun j k => (w.rows j).batchNumber ≤ (w.rows k).batchNumber) ∧
  ∀ k ∈ w.pending targets, k ∈ batchDevices ∨ ∀ j ∈ batchDevices, (w.rows j).batchNumber ≤ (w.rows k).batchNumber

instance decidableFirstPending (w : Rollout κ) (batchDevices : List κ) :
    Decidable (w.FirstPending targets batchDevices) :=
  inferInstanceAs (Decidable (_ ∧ _ ∧ _ ∧ _ ∧ _))

def progress (w : Rollout κ) : DeploymentProgress := getDeploymentProgress (targets.map w.rows)

/-- The batch of the first of the devices; a batch number 0 counts as 1. -/
def currentBatch (w : Rollout κ) (first : κ) : ℕ :=
  if (w.rows first).batchNumber = 0 then 1 else (w.rows first).batchNumber

/-- What a pass does with the pending devices that it has read. -/
def readPending (id : PassId) (batchDevices : List κ) (w : Rollout κ) : Rollout κ :=
  let marked := { w with status := .running }
  match batchDevices with
  | [] => marked.setPass id .counting
  | first :: _ =>
    let batch := w.currentBatch first
    marked.setPass id (.queueing batch (batchDevices.filter fun k => (w.rows k).batchNumber = batch))

def queueBatch (id : PassId) (batch : ℕ) (devices : List κ) (inMaintenance : κ → Bool) (w : Rollout κ) : Rollout κ :=
  let eligible := if config.respectMaintenanceWindows then devices.filter inMaintenance else devices
  let added := eligible.foldl (addFirst batch) w
  let followed := if config.staggered.isSome then added.addPass (.nextBatch batch) else added
  followed.setPass id .ending

def countProgress (id : PassId) (w : Rollout κ) : Rollout κ :=
  let progress := w.progress targets
  let counted := if progress.pending = 0 ∧ progress.running = 0 then { w with status := .completed } else w
  counted.setPass id .ending

def prepareDevice (id : DeviceJobId κ) (batchNumber : ℕ) (inOrg inMaintenance : Bool) (w : Rollout κ) : Rollout κ :=
  let device := id.device
  if ¬w.status.Preparable then w.setJob id .ending
  else
    match (w.rows device).claim batchNumber inOrg with
    | none => w.setJob id .ending
    | some row =>
      if w.status.Stopped then (w.setRow device (row.withStatus .skipped)).setJob id .ending
      else if config.respectMaintenanceWindows && !inMaintenance then
        ((w.setRow device (row.withStatus .pending)).addJob (.deferred device) batchNumber).setJob id .ending
      else
        { (w.setRow device row).setJob id (.executing batchNumber) with
          executions := update w.executions device (w.executions device + 1) }

def pauseOnFailures (w : Rollout κ) : Rollout κ :=
  if shouldPauseDeployment (w.progress targets) config ∧ w.status = .running then { w with status := .paused } else w

def recordOutcome (id : DeviceJobId κ) (batchNumber : ℕ) (success : Bool) (w : Rollout κ) : Rollout κ :=
  let device := id.device
  let row := w.rows device
  if success then ((w.setRow device (row.withStatus .completed)).pauseOnFailures targets config).setJob id .ending
  else if row.CanRetry then
    ((w.setRow device row.incrementRetryCount).addJob (.deferred device) batchNumber).setJob id .ending
  else ((w.setRow device (row.withStatus .failed)).pauseOnFailures targets config).setJob id .ending

end Rollout

/-- One step; `none` when the job is not at it. -/
def rolloutStep (w : Rollout κ) : RolloutEvent κ → Option (Rollout κ)
  | .startDeployment => some (w.addPass .process)
  | .takePass id => if w.passes id = .queued then some (w.setPass id .active) else none
  | .readPending id batchDevices =>
    if w.passes id = .active then
      if ¬w.status.Processable then some (w.setPass id .ending)
      else if w.FirstPending targets batchDevices then some (w.readPending id batchDevices) else none
    else none
  | .queueBatch id inMaintenance =>
    match w.passes id with
    | .queueing batch devices => some (w.queueBatch config id batch devices inMaintenance)
    | _ => none
  | .countProgress id => if w.passes id = .counting then some (w.countProgress targets id) else none
  | .endPass id => if w.passes id = .ending then some (w.setPass id .absent) else none
  | .takeDevice id =>
    match w.jobs id with
    | .queued batchNumber => some (w.setJob id (.active batchNumber))
    | _ => none
  | .prepareDevice id inOrg inMaintenance =>
    match w.jobs id with
    | .active batchNumber => some (w.prepareDevice config id batchNumber inOrg inMaintenance)
    | _ => none
  | .recordOutcome id payload =>
    match w.jobs id with
    | .executing batchNumber =>
      some (w.recordOutcome targets config id batchNumber (executeDeploymentPayload payload))
    | _ => none
  | .endDevice id => if w.jobs id = .ending then some (w.setJob id .absent) else none

/-- `initializeDeployment` has made the rows, `startDeployment` has been called. -/
def startedRollout (batchNumber maxRetries : κ → ℕ) : Rollout κ :=
  Rollout.addPass .process ⟨.pending, fun k => ⟨batchNumber k, .pending, 0, maxRetries k⟩, fun _ => .absent,
    fun _ => .absent, fun _ => 0⟩

end Steps

def Rollout.Quiet {κ : Type*} (w : Rollout κ) : Prop := (∀ id, w.passes id = .absent) ∧ ∀ id, w.jobs id = .absent

/-- One job at most runs a payload of a device, over a running row; payloads are paid for by retries. `left` is a job
that is about to finish. -/
structure RowLaw {κ : Type*} (maxRetries : κ → ℕ) (left : Option (DeviceJobId κ)) (w : Rollout κ) : Prop where
  running : ∀ id b, some id ≠ left → w.jobs id = .executing b → (w.rows id.device).status = .running
  sole : ∀ i j b c, some i ≠ left → some j ≠ left → w.jobs i = .executing b → w.jobs j = .executing c →
    i.device = j.device → i = j
  tries : ∀ k, w.executions k ≤ (w.rows k).retryCount + if (w.rows k).status = .pending then 0 else 1
  limit : ∀ k, (w.rows k).retryCount ≤ (w.rows k).maxRetries ∧ (w.rows k).maxRetries = maxRetries k

section Rows
variable {κ : Type*} [DecidableEq κ] {w : Rollout κ} {maxRetries : κ → ℕ} {left : Option (DeviceJobId κ)}
  {id : DeviceJobId κ} {n : ℕ} {targets : List κ} {config : RolloutConfig}

theorem ending_idle (b : ℕ) : DeviceStage.ending ≠ .executing b := nofun

theorem executing_of_setJob {stage : DeviceStage} {j : DeviceJobId κ} {b : ℕ} (idle : ∀ c, stage ≠ .executing c)
    (executing : (w.setJob id stage).jobs j = .executing b) : j ≠ id ∧ w.jobs j = .executing b := by
  by_cases same : j = id
  · subst same
    exact absurd ((update_self ..).symm.trans executing) (idle b)
  · exact ⟨same, (update_of_ne same ..).symm.trans executing⟩

omit [DecidableEq κ] in
theorem RowLaw.weaken {next : Rollout κ} (law : RowLaw maxRetries left w) (rows : next.rows = w.rows)
    (executions : next.executions = w.executions)
    (jobs : ∀ j b, next.jobs j = .executing b → w.jobs j = .executing b) : RowLaw maxRetries left next where
  running := by
    intro j b other executing
    rw [rows]
    exact law.running j b other (jobs j b executing)
  sole := fun i j b c first second one two => law.sole i j b c first second (jobs i b one) (jobs j c two)
  tries := by
    rw [rows, executions]
    exact law.tries
  limit := by
    rw [rows]
    exact law.limit

theorem RowLaw.setJob (law : RowLaw maxRetries left w) {stage : DeviceStage} (idle : ∀ c, stage ≠ .executing c) :
    RowLaw maxRetries left (w.setJob id stage) :=
  law.weaken rfl rfl fun _ _ executing => (executing_of_setJob idle executing).2

theorem RowLaw.addJob (law : RowLaw maxRetries left w) : RowLaw maxRetries left (w.addJob id n) := by
  unfold Rollout.addJob
  split_ifs
  · exact law.setJob fun _ => nofun
  · exact law

theorem RowLaw.queueFirsts (law : RowLaw maxRetries left w) (devices : List κ) :
    RowLaw maxRetries left (devices.foldl (Rollout.addFirst n) w) := by
  induction devices generalizing w with
  | nil => exact law
  | cons device devices ih =>
    apply ih
    unfold Rollout.addFirst
    split_ifs
    · exact law.addJob
    · exact law

omit [DecidableEq κ] in
theorem RowLaw.pauseOnFailures (law : RowLaw maxRetries left w) : RowLaw maxRetries left
    (w.pauseOnFailures targets config) := by
  unfold Rollout.pauseOnFailures
  split_ifs
  · exact law.weaken rfl rfl fun _ _ => id
  · exact law

theorem RowLaw.finish (law : RowLaw maxRetries (some id) w) : RowLaw maxRetries none (w.setJob id .ending) where
  running := by
    intro j b _ executing
    obtain ⟨other, before⟩ := executing_of_setJob ending_idle executing
    exact law.running j b (fun same => other (some.inj same)) before
  sole := by
    intro i j b c _ _ one two
    obtain ⟨first, one⟩ := executing_of_setJob ending_idle one
    obtain ⟨second, two⟩ := executing_of_setJob ending_idle two
    exact law.sole i j b c (fun same => first (some.inj same)) (fun same => second
      (some.inj same)) one two
  tries := law.tries
  limit := law.limit

theorem RowLaw.setRow (law : RowLaw maxRetries none w) {k : κ} {row : DeploymentDevice}
    (alone : ∀ j b, some j ≠ left → w.jobs j = .executing b → j.device ≠ k)
    (tries : w.executions k ≤ row.retryCount + if row.status = .pending then 0 else 1)
    (limit : row.retryCount ≤ row.maxRetries ∧ row.maxRetries = maxRetries k) : RowLaw maxRetries left
      (w.setRow k row) where
  running := by
    intro j b other run
    have elsewhere := update_of_ne (alone j b other run) row w.rows
    exact (congrArg DeploymentDevice.status elsewhere).trans (law.running j b nofun run)
  sole := fun i j b c _ _ => law.sole i j b c nofun nofun
  tries := by
    intro j
    by_cases here : j = k
    · subst here
      simp only [Rollout.setRow, update_self]
      exact tries
    · simp only [Rollout.setRow, update_of_ne here]
      exact law.tries j
  limit := by
    intro j
    by_cases here : j = k
    · subst here
      simp only [Rollout.setRow, update_self]
      exact limit
    · simp only [Rollout.setRow, update_of_ne here]
      exact law.limit j

omit [DecidableEq κ] in
theorem RowLaw.alone_of_idle (law : RowLaw maxRetries none w) {k : κ} (idle : (w.rows k).status ≠ .running)
    {j : DeviceJobId κ} {b : ℕ} (run : w.jobs j = .executing b) : j.device ≠ k :=
  fun same => idle (same ▸ law.running j b nofun run)

omit [DecidableEq κ] in
theorem RowLaw.alone_of_own (law : RowLaw maxRetries none w) (executing : w.jobs id = .executing n)
    (j : DeviceJobId κ) (b : ℕ) (other : some j ≠ some id) (run : w.jobs j = .executing b) : j.device ≠ id.device :=
  fun same => other (congrArg some (law.sole j id b n nofun nofun run executing same))

theorem RowLaw.execute (law : RowLaw maxRetries none w) (pending : (w.rows id.device).status = .pending) :
    RowLaw maxRetries none { (w.setRow id.device ((w.rows id.device).withStatus .running)).setJob id (.executing n) with
      executions := update w.executions id.device (w.executions id.device + 1) } := by
  have idle : (w.rows id.device).status ≠ .running := by rw [pending]; nofun
  have paid := law.tries id.device
  rw [if_pos pending] at paid
  refine ⟨fun j b _ run => ?_, fun i j b c _ _ one two same => ?_, fun k => ?_, fun k => ?_⟩
  · by_cases own : j = id
    · subst own
      simp only [Rollout.setJob, Rollout.setRow, update_self]
      rfl
    · have before : w.jobs j = .executing b := (update_of_ne own ..).symm.trans run
      have apart := law.alone_of_idle idle before
      simp only [Rollout.setJob, Rollout.setRow, update_of_ne apart]
      exact law.running j b nofun before
  · -- no other job runs a payload of this device
    have other : ∀ l d, l ≠ id → (w.setJob id (.executing n)).jobs l = .executing d → l.device ≠ id.device :=
      fun l d apart run => law.alone_of_idle idle ((update_of_ne apart ..).symm.trans run)
    by_cases first : i = id
    · by_cases second : j = id
      · rw [first, second]
      · exact absurd (same.symm.trans (congrArg _ first)) (other j c second two)
    · by_cases second : j = id
      · exact absurd (same.trans (congrArg _ second)) (other i b first one)
      · exact law.sole i j b c nofun nofun ((update_of_ne first ..).symm.trans one)
          ((update_of_ne second ..).symm.trans two) same
  · by_cases here : k = id.device
    · subst here
      simp only [Rollout.setJob, Rollout.setRow, update_self]
      exact Nat.add_le_add_right paid 1
    · simp only [Rollout.setJob, Rollout.setRow, update_of_ne here]
      exact law.tries k
  · by_cases here : k = id.device
    · subst here
      simp only [Rollout.setJob, Rollout.setRow, update_self]
      exact law.limit id.device
    · simp only [Rollout.setJob, Rollout.setRow, update_of_ne here]
      exact law.limit k

theorem RowLaw.prepareDevice (law : RowLaw maxRetries none w) (inOrg inMaintenance : Bool) :
    RowLaw maxRetries none (w.prepareDevice config id n inOrg inMaintenance) := by
  unfold Rollout.prepareDevice
  by_cases preparable : w.status.Preparable
  · rw [if_neg (not_not_intro preparable)]
    cases claimed : (w.rows id.device).claim n inOrg with
    | none => exact law.setJob ending_idle
    | some row =>
      obtain ⟨pending, rfl⟩ := claim_eq_some claimed
      have idle : (w.rows id.device).status ≠ .running := by rw [pending]; nofun
      have paid := law.tries id.device
      rw [if_pos pending] at paid
      simp only
      have written : ∀ status, RowLaw maxRetries none
          (w.setRow id.device (((w.rows id.device).withStatus .running).withStatus status)) := by
        intro status
        refine law.setRow (fun _ _ _ run => law.alone_of_idle idle run) ?_ (law.limit id.device)
        exact paid.trans (Nat.add_le_add_left (Nat.zero_le _) _)
      split_ifs with stopped window
      · exact (written .skipped).setJob ending_idle
      · exact (written .pending).addJob.setJob ending_idle
      · exact law.execute pending
  · rw [if_pos preparable]
    exact law.setJob ending_idle

theorem RowLaw.recordOutcome (law : RowLaw maxRetries none w) (targets : List κ) (config : RolloutConfig)
    (executing : w.jobs id = .executing n) (success : Bool) :
    RowLaw maxRetries none (w.recordOutcome targets config id n success) := by
  have paid := law.tries id.device
  rw [if_neg (by rw [law.running id n nofun executing]; nofun)] at paid
  have written : ∀ status, status ≠ .pending →
      RowLaw maxRetries (some id) (w.setRow id.device ((w.rows id.device).withStatus status)) := by
    intro status done
    refine law.setRow (law.alone_of_own executing) ?_ (law.limit id.device)
    exact paid.trans (Nat.add_le_add_left (if_neg done).ge _)
  simp only [Rollout.recordOutcome]
  split_ifs with succeeded again
  · exact (written .completed nofun).pauseOnFailures.finish
  · have retried : RowLaw maxRetries (some id) (w.setRow id.device (w.rows id.device).incrementRetryCount) :=
      law.setRow (law.alone_of_own executing) paid ⟨again, (law.limit id.device).2⟩
    exact retried.addJob.finish
  · exact (written .failed nofun).pauseOnFailures.finish

end Rows

def PassStage.Waking {κ : Type*} : PassStage κ → Prop
  | .queued | .active | .queueing _ _ | .counting => True
  | .absent | .ending => False

section Passes
variable {κ : Type*} [DecidableEq κ] (targets : List κ) (config : RolloutConfig)

/-- What a pass has yet to add: the job that follows up its batch has its own pass yet to make. -/
def Rollout.Followed (w : Rollout κ) (id : PassId) : PassStage κ → Prop
  | .queueing batch _ =>
    config.staggered.isSome = true ∧ .nextBatch batch ≠ id ∧ w.passes (.nextBatch batch) ≠ .ending
  | _ => True

instance decidableFollowed (w : Rollout κ) (id : PassId) : (stage : PassStage κ) → Decidable
    (w.Followed config id stage)
  | .queueing _ _ => inferInstanceAs (Decidable (_ ∧ _ ∧ _))
  | .absent | .queued | .active | .counting | .ending => .isTrue trivial

/-- A pass that has found pending devices is followed up; one that has found none finds none pending or running when it
counts. -/
def FollowsUp (w : Rollout κ) : RolloutEvent κ → Prop
  | .queueBatch id _ => w.Followed config id (w.passes id)
  | .countProgress id => w.passes id = .counting → (w.progress targets).pending = 0 ∧ (w.progress targets).running = 0
  | _ => True

instance decidableFollowsUp (w : Rollout κ) : (e : RolloutEvent κ) → Decidable (FollowsUp targets config w e)
  | .queueBatch id _ => inferInstanceAs (Decidable (w.Followed config id (w.passes id)))
  | .countProgress _ => inferInstanceAs (Decidable (_ → _))
  | .startDeployment | .takePass _ | .readPending _ _ | .endPass _ | .takeDevice _ | .prepareDevice _ _ _
  | .recordOutcome _ _ | .endDevice _ => .isTrue trivial

def GoesOn (w : Rollout κ) (e : RolloutEvent κ) : Prop :=
  ∀ next ∈ rolloutStep targets config w e, next.status ≠ .paused

instance decidableGoesOn (w : Rollout κ) (e : RolloutEvent κ) : Decidable (GoesOn targets config w e) :=
  inferInstanceAs (Decidable (∀ next ∈ rolloutStep targets config w e, next.status ≠ .paused))

/-- Until the deployment is completed some deployment job has a pass to make; then every row is finished. -/
structure RolloutLaw (maxRetries : κ → ℕ) (w : Rollout κ) : Prop extends RowLaw maxRetries none w where
  status : w.status = .pending ∨ w.status = .running ∨ w.status = .completed
  awake : w.status ≠ .completed → ∃ id, (w.passes id).Waking
  finished : w.status = .completed → ∀ k ∈ targets, (w.rows k).Finished

variable {targets config} {maxRetries : κ → ℕ} {w next : Rollout κ} {pass : PassId} {job : DeviceJobId κ} {n : ℕ}

omit [DecidableEq κ] in
theorem waking_setPass {stage : PassStage κ} {other : PassId} (waking : (w.passes other).Waking)
    (kept : other = pass → stage.Waking) : ((w.setPass pass stage).passes other).Waking := by
  by_cases same : other = pass
  · subst same
    simp only [Rollout.setPass, update_self]
    exact kept rfl
  · simp only [Rollout.setPass, update_of_ne same]
    exact waking

theorem waking_of_addPass (going : w.passes pass ≠ .ending) : ((w.addPass pass).passes pass).Waking := by
  unfold Rollout.addPass
  split_ifs with absent
  · simp only [Rollout.setPass, update_self]
    trivial
  · cases stage : w.passes pass with
    | absent => exact absurd stage absent
    | ending => exact absurd stage going
    | _ => trivial

omit [DecidableEq κ] in
theorem RolloutLaw.setPass (law : RolloutLaw targets maxRetries w) {stage : PassStage κ}
    (kept : w.status = .completed ∨ stage.Waking ∨ ¬(w.passes pass).Waking) : RolloutLaw targets maxRetries
      (w.setPass pass stage) where
  toRowLaw := law.toRowLaw.weaken rfl rfl fun _ _ => id
  status := law.status
  awake := by
    intro going
    obtain ⟨other, waking⟩ := law.awake going
    refine ⟨other, waking_setPass waking ?_⟩
    rintro rfl
    rcases kept with completed | awake | asleep
    · exact absurd completed going
    · exact awake
    · exact absurd waking asleep
  finished := law.finished

theorem RolloutLaw.addPass (law : RolloutLaw targets maxRetries w) : RolloutLaw targets maxRetries
    (w.addPass pass) := by
  unfold Rollout.addPass
  split_ifs
  · exact law.setPass (.inr (.inl trivial))
  · exact law

omit [DecidableEq κ] in
theorem RolloutLaw.readPending (law : RolloutLaw targets maxRetries w) (batchDevices : List κ) :
    RolloutLaw targets maxRetries (w.readPending pass batchDevices) := by
  have marked : ∀ stage : PassStage κ, stage.Waking →
      RolloutLaw targets maxRetries (Rollout.setPass pass stage { w with status := .running }) := by
    intro stage waking
    refine ⟨law.toRowLaw.weaken rfl rfl fun _ _ run => run, .inr (.inl rfl), fun _ => ⟨pass, ?_⟩, nofun⟩
    simp only [Rollout.setPass, update_self]
    exact waking
  unfold Rollout.readPending
  cases batchDevices with
  | nil => exact marked .counting trivial
  | cons first rest => exact marked (.queueing _ _) trivial

omit [DecidableEq κ] in
theorem finished_of_progress (pending : (w.progress targets).pending = 0) (running : (w.progress targets).running = 0) :
    ∀ k ∈ targets, (w.rows k).Finished := by
  intro k member
  have listed : w.rows k ∈ targets.map w.rows := List.mem_map_of_mem member
  apply (finished_iff _).mpr
  refine ⟨fun is => ?_, fun is => ?_⟩
  · exact List.countP_eq_zero.mp pending _ listed (decide_eq_true is)
  · exact List.countP_eq_zero.mp running _ listed (decide_eq_true is)

omit [DecidableEq κ] in
theorem RolloutLaw.countProgress (law : RolloutLaw targets maxRetries w) (pending : (w.progress targets).pending = 0)
    (running : (w.progress targets).running = 0) : RolloutLaw targets maxRetries (w.countProgress targets pass) := by
  simp only [Rollout.countProgress, if_pos (And.intro pending running)]
  refine ⟨law.toRowLaw.weaken rfl rfl fun _ _ run => run, .inr
    (.inr rfl), fun going => absurd rfl going, fun _ => ?_⟩
  exact finished_of_progress pending running

@[simp] theorem rows_addJob (id : DeviceJobId κ) : (w.addJob id n).rows = w.rows := by
  unfold Rollout.addJob
  split_ifs <;> rfl

@[simp] theorem status_addJob (id : DeviceJobId κ) : (w.addJob id n).status = w.status := by
  unfold Rollout.addJob
  split_ifs <;> rfl

@[simp] theorem passes_addJob (id : DeviceJobId κ) : (w.addJob id n).passes = w.passes := by
  unfold Rollout.addJob
  split_ifs <;> rfl

theorem queueFirsts_frame (n : ℕ) (w : Rollout κ) (devices : List κ) :
    (devices.foldl (Rollout.addFirst n) w).rows = w.rows ∧ (devices.foldl (Rollout.addFirst n) w).status = w.status ∧
      (devices.foldl (Rollout.addFirst n) w).passes = w.passes := by
  induction devices generalizing w with
  | nil => exact ⟨rfl, rfl, rfl⟩
  | cons device devices ih =>
    have added : (w.addFirst n device).rows = w.rows ∧ (w.addFirst n device).status = w.status ∧
        (w.addFirst n device).passes = w.passes := by
      unfold Rollout.addFirst
      split_ifs
      · exact ⟨rows_addJob _, status_addJob _, passes_addJob _⟩
      · exact ⟨rfl, rfl, rfl⟩
    obtain ⟨rows, status, passes⟩ := ih (w.addFirst n device)
    exact ⟨rows.trans added.1, status.trans added.2.1, passes.trans added.2.2⟩

theorem RolloutLaw.queueFirsts (law : RolloutLaw targets maxRetries w) (devices : List κ) :
    RolloutLaw targets maxRetries (devices.foldl (Rollout.addFirst n) w) := by
  obtain ⟨rows, status, passes⟩ := queueFirsts_frame n w devices
  refine ⟨law.toRowLaw.queueFirsts devices, ?_, ?_, ?_⟩
  · rw [status]
    exact law.status
  · rw [status, passes]
    exact law.awake
  · rw [status, rows]
    exact law.finished

theorem RolloutLaw.queueBatch (law : RolloutLaw targets maxRetries w) {devices : List κ} {inMaintenance : κ → Bool}
    (staggered : config.staggered.isSome = true) (other : .nextBatch n ≠ pass)
    (going : w.passes (.nextBatch n) ≠ .ending) :
    RolloutLaw targets maxRetries (w.queueBatch config pass n devices inMaintenance) := by
  simp only [Rollout.queueBatch, if_pos staggered]
  generalize (if config.respectMaintenanceWindows then devices.filter inMaintenance else devices) = eligible
  have queued := law.queueFirsts (n := n) eligible
  have passes := (queueFirsts_frame n w eligible).2.2
  have followed : RolloutLaw targets maxRetries ((eligible.foldl (Rollout.addFirst n) w).addPass
    (.nextBatch n)) := queued.addPass
  refine ⟨followed.toRowLaw.weaken rfl rfl fun _ _ run => run, followed.status, fun _ => ⟨.nextBatch n, ?_⟩,
    followed.finished⟩
  refine waking_setPass (waking_of_addPass ?_) fun same => absurd same other
  rw [passes]
  exact going

theorem rows_setRow {device : κ} (unfinished : ¬(w.rows device).Finished) (row : DeploymentDevice) {k : κ}
    (finished : (w.rows k).Finished) : (w.setRow device row).rows k = w.rows k :=
  update_of_ne (fun same : k = device => unfinished (same ▸ finished)) ..

theorem prepareDevice_frame (config : RolloutConfig) (w : Rollout κ) (job : DeviceJobId κ) (n : ℕ)
    (inOrg inMaintenance : Bool) :
    (w.prepareDevice config job n inOrg inMaintenance).passes = w.passes ∧
    (w.prepareDevice config job n inOrg inMaintenance).status = w.status ∧
    ∀ k, (w.rows k).Finished → (w.prepareDevice config job n inOrg inMaintenance).rows k = w.rows k := by
  unfold Rollout.prepareDevice
  by_cases preparable : w.status.Preparable
  · rw [if_neg (not_not_intro preparable)]
    cases claimed : (w.rows job.device).claim n inOrg with
    | none => exact ⟨rfl, rfl, fun _ _ => rfl⟩
    | some row =>
      have unfinished : ¬(w.rows job.device).Finished := fun finished =>
        ((finished_iff _).mp finished).1 (claim_eq_some claimed).1
      simp only
      split_ifs with stopped window
      · exact ⟨rfl, rfl, fun _ => rows_setRow unfinished _⟩
      · refine ⟨passes_addJob _, status_addJob _, fun k finished => ?_⟩
        simp only [Rollout.setJob, rows_addJob]
        exact rows_setRow unfinished _ finished
      · exact ⟨rfl, rfl, fun _ => rows_setRow unfinished _⟩
  · rw [if_pos preparable]
    exact ⟨rfl, rfl, fun _ _ => rfl⟩

omit [DecidableEq κ] in
theorem pauseOnFailures_frame (targets : List κ) (config : RolloutConfig) (w : Rollout κ) :
    (w.pauseOnFailures targets config).passes = w.passes ∧ (w.pauseOnFailures targets config).rows = w.rows ∧
    ((w.pauseOnFailures targets config).status = w.status ∨ (w.pauseOnFailures targets config).status = .paused) := by
  unfold Rollout.pauseOnFailures
  split_ifs
  · exact ⟨rfl, rfl, .inr rfl⟩
  · exact ⟨rfl, rfl, .inl rfl⟩

theorem recordOutcome_frame (targets : List κ) (config : RolloutConfig) (n : ℕ) (running :
    (w.rows job.device).status = .running) (success : Bool) :
    (w.recordOutcome targets config job n success).passes = w.passes ∧
    ((w.recordOutcome targets config job n success).status = w.status ∨
      (w.recordOutcome targets config job n success).status = .paused) ∧
    ∀ k, (w.rows k).Finished → (w.recordOutcome targets config job n success).rows k = w.rows k := by
  have unfinished : ¬(w.rows job.device).Finished := fun finished =>
    ((finished_iff _).mp finished).2 running
  have written : ∀ row, let set := (w.setRow job.device row).pauseOnFailures targets config
      set.passes = w.passes ∧ (set.status = w.status ∨ set.status = .paused) ∧
        ∀ k, (w.rows k).Finished → set.rows k = w.rows k := by
    intro row
    obtain ⟨passes, rows, status⟩ := pauseOnFailures_frame targets config (w.setRow job.device row)
    exact ⟨passes, status, fun k finished => (congrFun rows k).trans (rows_setRow unfinished row finished)⟩
  simp only [Rollout.recordOutcome]
  split_ifs with succeeded again
  · exact written _
  · refine ⟨passes_addJob _, .inl (status_addJob _), fun k finished => ?_⟩
    simp only [Rollout.setJob, rows_addJob]
    exact rows_setRow unfinished _ finished
  · exact written _

omit [DecidableEq κ] in
theorem RolloutLaw.device (law : RolloutLaw targets maxRetries w) (rows : RowLaw maxRetries none next)
    (passes : next.passes = w.passes)
    (status : next.status = w.status) (kept : ∀ k, (w.rows k).Finished → next.rows k = w.rows k) :
    RolloutLaw targets maxRetries next where
  toRowLaw := rows
  status := by
    rw [status]
    exact law.status
  awake := by
    rw [status, passes]
    exact law.awake
  finished := by
    rw [status]
    intro completed k member
    rw [kept k (law.finished completed k member)]
    exact law.finished completed k member

theorem RolloutLaw.step (law : RolloutLaw targets maxRetries w) {e : RolloutEvent κ}
    (follows : FollowsUp targets config w e)
    (goes : GoesOn targets config w e) (stepped : rolloutStep targets config w e = some next) :
    RolloutLaw targets maxRetries next := by
  have going := goes next stepped
  cases e with
  | startDeployment =>
    cases stepped
    exact law.addPass
  | takePass id =>
    simp only [rolloutStep] at stepped
    split_ifs at stepped with queued
    cases stepped
    exact law.setPass (.inr (.inl trivial))
  | readPending id batchDevices =>
    simp only [rolloutStep] at stepped
    split_ifs at stepped with active processable first
    · cases stepped
      exact law.readPending batchDevices
    · cases stepped
      refine law.setPass (.inl ?_)
      rcases law.status with pending | running | completed
      · exact absurd (.inl pending) processable
      · exact absurd (.inr running) processable
      · exact completed
  | queueBatch id inMaintenance =>
    simp only [rolloutStep] at stepped
    split at stepped
    next batch devices stage =>
      cases stepped
      simp only [FollowsUp, stage] at follows
      exact law.queueBatch follows.1 follows.2.1 follows.2.2
    next => cases stepped
  | countProgress id =>
    simp only [rolloutStep] at stepped
    split_ifs at stepped with counting
    cases stepped
    exact law.countProgress (follows counting).1 (follows counting).2
  | endPass id =>
    simp only [rolloutStep] at stepped
    split_ifs at stepped with ending
    cases stepped
    refine law.setPass (.inr (.inr ?_))
    rw [ending]
    exact fun waking => waking
  | takeDevice id =>
    simp only [rolloutStep] at stepped
    split at stepped
    next batch stage =>
      cases stepped
      exact law.device (law.toRowLaw.setJob fun _ => nofun) rfl rfl fun _ _ => rfl
    next => cases stepped
  | prepareDevice id inOrg inMaintenance =>
    simp only [rolloutStep] at stepped
    split at stepped
    next batch stage =>
      cases stepped
      obtain ⟨passes, status, rows⟩ := prepareDevice_frame config w id batch inOrg inMaintenance
      exact law.device (law.toRowLaw.prepareDevice inOrg inMaintenance) passes status rows
    next => cases stepped
  | recordOutcome id payload =>
    simp only [rolloutStep] at stepped
    split at stepped
    next batch stage =>
      cases stepped
      obtain ⟨passes, status, rows⟩ := recordOutcome_frame targets config batch (law.running id batch nofun stage)
        (executeDeploymentPayload payload)
      have kept := law.toRowLaw.recordOutcome targets config stage (executeDeploymentPayload payload)
      exact law.device kept passes (status.resolve_right going) rows
    next => cases stepped
  | endDevice id =>
    simp only [rolloutStep] at stepped
    split_ifs at stepped with ending
    cases stepped
    exact law.device (law.toRowLaw.setJob fun _ => nofun) rfl rfl fun _ _ => rfl

theorem law_started (targets : List κ) (batchNumber maxRetries : κ → ℕ) :
    RolloutLaw targets maxRetries (startedRollout batchNumber maxRetries) where
  running := fun _ _ _ => nofun
  sole := fun _ _ _ _ _ _ => nofun
  tries := fun _ => Nat.le_refl 0
  limit := fun k => ⟨Nat.zero_le (maxRetries k), rfl⟩
  status := .inl rfl
  awake := fun _ => ⟨.process, by simp [startedRollout, Rollout.addPass, Rollout.setPass, PassStage.Waking]⟩
  finished := nofun

/-- In a run in which every pass of the deployment job follows up, a deployment that rests is completed and every device
finished; and no payload is run more often than the retries allow. -/
theorem rollout_never_strands (targets : List κ) (config : RolloutConfig) (batchNumber maxRetries : κ → ℕ)
    (es : List (RolloutEvent κ)) (w : Rollout κ)
    (meets : Meets (rolloutStep targets config) (fun w e => FollowsUp targets config w e ∧ GoesOn targets config w e)
      (startedRollout batchNumber maxRetries) es)
    (reach : run (rolloutStep targets config) (startedRollout batchNumber maxRetries) es = some w) :
    (w.Quiet → w.status = .completed ∧ ∀ k ∈ targets, (w.rows k).Finished) ∧
    ∀ k, w.executions k ≤ maxRetries k + 1 := by
  have law : RolloutLaw targets maxRetries w := run_invariant
    (fun s e next law both stepped => law.step both.1 both.2 stepped)
    (law_started targets batchNumber maxRetries) meets reach
  refine ⟨fun quiet => ?_, fun k => ?_⟩
  · have completed : w.status = .completed := by
      by_contra going
      obtain ⟨id, waking⟩ := law.awake going
      rw [quiet.1 id] at waking
      exact waking
    exact ⟨completed, law.finished completed⟩
  · apply (law.tries k).trans
    obtain ⟨limit, same⟩ := law.limit k
    rw [same] at limit
    split_ifs <;> omega

end Passes

/-- One device whose payload fails twice: the second retry is asked for by the job that has the deferred id. -/
def strandingRun : List (RolloutEvent Unit) :=
  [.takePass .process, .readPending .process [()], .queueBatch .process fun _ => true, .endPass .process,
    .takeDevice (.first ()), .prepareDevice (.first ()) true true, .recordOutcome (.first ()) (.ok false),
    .endDevice (.first ()), .takeDevice (.deferred ()), .prepareDevice (.deferred ()) true true,
    .recordOutcome (.deferred ()) (.ok false), .endDevice (.deferred ())]

theorem rollout_strands :
    ∃ w, run (rolloutStep [()] ⟨none, false⟩) (startedRollout (fun _ => 1) fun _ => 3) strandingRun = some w ∧
      w.Quiet ∧ w.status = .running ∧ (w.rows ()).status = .pending := by
  refine ⟨_, rfl, ⟨fun id => ?_, fun id => ?_⟩, rfl, rfl⟩ <;> cases id <;> rfl

/-- In a staggered rollout the job that follows up the only batch comes when its device is done. -/
def followedRun : List (RolloutEvent Unit) :=
  [.takePass .process, .readPending .process [()], .queueBatch .process fun _ => true, .endPass .process,
    .takeDevice (.first ()), .prepareDevice (.first ()) true true, .recordOutcome (.first ()) (.ok true),
    .endDevice (.first ()), .takePass (.nextBatch 1), .readPending (.nextBatch 1) [], .countProgress (.nextBatch 1),
    .endPass (.nextBatch 1)]

theorem followed_rollout_completes :
    ∃ w, run (rolloutStep [()] ⟨some ⟨none, none⟩, false⟩) (startedRollout
      (fun _ => 1) fun _ => 3) followedRun = some w ∧
      (w.Quiet → w.status = .completed ∧ ∀ k ∈ [()], (w.rows k).Finished) ∧ ∀ k, w.executions k ≤ 3 + 1 :=
  ⟨_, rfl, rollout_never_strands [()] ⟨some ⟨none, none⟩, false⟩ (fun _ => 1) (fun _ => 3) followedRun _
    (by decide) rfl⟩

end RemudaRmm.Deployments
