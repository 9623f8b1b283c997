import Mathlib.Algebra.Order.Field.Rat

/-! Deployments and their device rows (`deploymentEngine.ts`, `deploymentWorker.ts`): what a transaction decides from
the rows that it has read. -/
namespace RemudaRmm.Deployments

inductive DeploymentStatus where
  | draft
  | pending
  | running
  | paused
  | downloading
  | installing
  | completed
  | failed
  | cancelled
  | rollback
  deriving DecidableEq

inductive DeviceStatus where
  | pending
  | running
  | completed
  | failed
  | skipped
  deriving DecidableEq

structure DeploymentDevice where
  batchNumber : ℕ
  status : DeviceStatus
  (retryCount maxRetries : ℕ)

/-- `rolloutConfig.staggered`, as far as it decides anything. -/
structure StaggeredConfig where
  pauseOnFailureCount : Option ℕ
  pauseOnFailurePercent : Option ℚ

/-- `staggered` is there when the type is 'staggered' and its settings are. -/
structure RolloutConfig where
  staggered : Option StaggeredConfig
  respectMaintenanceWindows : Bool

structure DeploymentProgress where
  (total pending running failed : ℕ)

def getDeploymentProgress (rows : List DeploymentDevice) : DeploymentProgress where
  total := rows.length
  pending := rows.countP (·.status = .pending)
  running := rows.countP (·.status = .running)
  failed := rows.countP (·.status = .failed)

def shouldPauseDeployment (progress : DeploymentProgress) (config : RolloutConfig) : Bool :=
  match config.staggered with
  | none => false
  | some staggered =>
    (staggered.pauseOnFailureCount.any fun count => count ≠ 0 && count ≤ progress.failed) ||
      (staggered.pauseOnFailurePercent.any fun percent =>
        percent ≠ 0 && 0 < progress.total && percent ≤ (progress.failed : ℚ) / progress.total * 100)

def DeploymentStatus.Processable (status : DeploymentStatus) : Prop := status = .pending ∨ status = .running
  deriving Decidable

def DeploymentStatus.Preparable (status : DeploymentStatus) : Prop :=
  status = .pending ∨ status = .running ∨ status = .paused ∨ status = .cancelled
  deriving Decidable

/-- Having claimed its row under one of these, it skips the device. -/
def DeploymentStatus.Stopped (status : DeploymentStatus) : Prop := status = .paused ∨ status = .cancelled
  deriving Decidable

namespace DeploymentDevice

def withStatus (row : DeploymentDevice) (status : DeviceStatus) : DeploymentDevice := { row with status := status }

def claim (row : DeploymentDevice) (batchNumber : ℕ) (inOrg : Bool) : Option DeploymentDevice :=
  if row.batchNumber = batchNumber ∧ row.status = .pending ∧ inOrg = true then some (row.withStatus .running) else none

def CanRetry (row : DeploymentDevice) : Prop := row.retryCount + 1 ≤ row.maxRetries
  deriving Decidable

def incrementRetryCount (row : DeploymentDevice) : DeploymentDevice :=
  { row with retryCount := row.retryCount + 1, status := .pending }

def Finished (row : DeploymentDevice) : Prop :=
  row.status = .completed ∨ row.status = .failed ∨ row.status = .skipped
  deriving Decidable

theorem claim_eq_some {row next : DeploymentDevice} {batchNumber : ℕ} {inOrg : Bool}
    (claimed : row.claim batchNumber inOrg = some next) : row.status = .pending ∧ next = row.withStatus .running := by
  unfold claim at claimed
  split_ifs at claimed with all
  exact ⟨all.2.1, (Option.some.inj claimed).symm⟩

theorem finished_iff (row : DeploymentDevice) : row.Finished ↔ row.status ≠ .pending ∧ row.status ≠ .running := by
  unfold Finished
  cases row.status <;> decide

end DeploymentDevice

/-- `executeDeploymentPayload` gives a result in any case: it catches what the executors throw. -/
def executeDeploymentPayload (payload : Except Unit Bool) : Bool :=
  match payload with
  | .ok success => success
  | .error _ => false

end RemudaRmm.Deployments
