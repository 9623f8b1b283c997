import Mathlib.Data.List.Sort
import Mathlib.Data.Prod.Lex
import Mathlib.Order.WithBot
import RemudaRmm.Foundation.InsertionMap

/-! Which snapshots the retention of an organisation deletes (`backupRetention.ts`): the expired, and of each device and
configuration those beyond its newest `maxVersions`; a legal hold or an immutability window spares one. -/
namespace RemudaRmm.BackupServer
open Foundation

inductive BackupTarget where
  | files
  | systemImage
  | hyperv (vmName : String)
  | mssql (instanceName database : String)
  deriving DecidableEq

inductive Enforcement where
  | application
  | provider
  deriving DecidableEq

structure Snapshot where
  jobId : ℕ
  snapshotId : String
  deviceId : ℕ
  configId : Option ℕ
  target : BackupTarget
  timestamp : ℕ
  (expiresAt parentSnapshotId : Option ℕ)
  (legalHold isImmutable : Bool)
  immutableUntil : Option ℕ
  immutabilityEnforcement : Option Enforcement
  deriving DecidableEq

namespace Snapshot

def Expired (s : Snapshot) (now : ℕ) : Prop := ∃ expires ∈ s.expiresAt, expires < now
  deriving Decidable

def Skipped (s : Snapshot) (now : ℕ) : Prop :=
  s.legalHold = true ∨ (s.isImmutable = true ∧ ∃ date ∈ s.immutableUntil, now < date)
  deriving Decidable

def Protected (s : Snapshot) (now : ℕ) : Prop :=
  s.legalHold = true ∨ (s.isImmutable = true ∧ ¬∃ date ∈ s.immutableUntil, date ≤ now)
  deriving Decidable

/-- `ORDER BY device_id, config_id, timestamp DESC`; no configuration comes last. -/
def rank (s : Snapshot) : ℕ ×ₗ (WithTop ℕ ×ₗ ℕᵒᵈ) :=
  toLex (s.deviceId, toLex (s.configId, OrderDual.toDual s.timestamp))

def groupKey (s : Snapshot) : ℕ × Option ℕ := (s.deviceId, s.configId)

end Snapshot

abbrev Stored := ℕ × Snapshot

/-- The rows of a group beyond the newest that its first row's policy lets stay. -/
def beyondLimit (maxVersions : ℕ → Option ℕ) (groupRows : List Stored) : List Stored :=
  match groupRows.head?.bind fun row => maxVersions row.2.jobId with
  | some limit => if limit < 1 ∨ groupRows.length ≤ limit then [] else groupRows.drop limit
  | none => []

/-- The snapshots over the limit of their group; `versionBoundSnapshots` is in the order of its query. -/
def overLimit (maxVersions : ℕ → Option ℕ) (versionBoundSnapshots : List Stored) : List Stored :=
  (InsertionMap.groupBy (fun row : Stored => row.2.groupKey) versionBoundSnapshots).flatMap fun group =>
    beyondLimit maxVersions group.2

end RemudaRmm.BackupServer
