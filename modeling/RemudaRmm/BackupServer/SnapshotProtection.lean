import RemudaRmm.BackupServer.BackupDispatch
import RemudaRmm.BackupServer.Retention

/-! The rows of `backup_snapshots` under READ COMMITTED, a statement or a storage call at a time: the retention
(`backupRetention.ts`), the routes of legal holds and immutability windows (`routes/backup/snapshots.ts`) and the
protection by a policy while a result is persisted (`backupResultPersistence.ts`). Each call is one transaction. -/
namespace RemudaRmm.BackupServer
open Foundation

/-- The body of a request for immutability: a time, or days from now. -/
structure ImmutabilityRequest where
  extendUntil : Option ℕ
  immutableDays : ℕ
  enforcement : Enforcement
  deriving DecidableEq

def ImmutabilityRequest.immutableUntil (request : ImmutabilityRequest) (now : ℕ) : ℕ :=
  request.extendUntil.getD (now + request.immutableDays * 86400000)

/-- What the policy of a job asks for. -/
structure ProtectionSettings where
  (legalHold isImmutable : Bool)
  immutableUntil : Option ℕ
  immutabilityEnforcement : Option Enforcement
  deriving DecidableEq

/-- A completed result that names a snapshot; `providerLocks` when the storage can be told to lock its objects. -/
structure SnapshotResult where
  jobId : ℕ
  snapshotId : String
  deviceId : ℕ
  configId : Option ℕ
  target : BackupTarget
  timestamp : ℕ
  protection : ProtectionSettings
  providerLocks : Bool
  expiresAt : Option ℕ
  deriving DecidableEq

inductive SnapshotCall where
  | cleanupExpiredSnapshots
  | applyLegalHold (id : ℕ)
  | releaseLegalHold (id : ℕ)
  | applyImmutability (id : ℕ) (request : ImmutabilityRequest)
  | releaseImmutability (id : ℕ)
  | applyBackupCommandResultToJob (result : SnapshotResult)
  deriving DecidableEq

inductive ProtectionChange where
  | hold
  | releaseHold
  | extend (immutableUntil : ℕ) (enforcement : Enforcement)
  | releaseImmutability
  deriving DecidableEq

def Snapshot.change (s : Snapshot) : ProtectionChange → Snapshot
  | .hold => { s with legalHold := true }
  | .releaseHold => { s with legalHold := false }
  | .extend immutableUntil enforcement => { s with
      isImmutable := true
      immutableUntil := some immutableUntil
      immutabilityEnforcement := some enforcement }
  | .releaseImmutability => { s with
      isImmutable := false
      immutableUntil := none
      immutabilityEnforcement := none }

namespace SnapshotResult

def inserted (r : SnapshotResult) : Snapshot where
  jobId := r.jobId
  snapshotId := r.snapshotId
  deviceId := r.deviceId
  configId := r.configId
  target := r.target
  timestamp := r.timestamp
  expiresAt := none
  parentSnapshotId := none
  legalHold := false
  isImmutable := false
  immutableUntil := none
  immutabilityEnforcement := none

def update (r : SnapshotResult) (s : Snapshot) : Snapshot := { s with
  jobId := r.jobId
  snapshotId := r.snapshotId
  deviceId := r.deviceId
  configId := r.configId
  target := r.target
  timestamp := r.timestamp }

/-- A storage that cannot lock leaves the enforcement to the application. -/
def enforcement (r : SnapshotResult) : Option Enforcement :=
  let p := r.protection
  if p.immutabilityEnforcement = some .provider ∧ p.isImmutable = true ∧ p.immutableUntil.isSome ∧
      r.providerLocks = false then some .application
  else p.immutabilityEnforcement

/-- `protectionUpdate`. -/
def protect (r : SnapshotResult) (s : Snapshot) : Snapshot := { s with
  legalHold := r.protection.legalHold
  isImmutable := r.protection.isImmutable
  immutableUntil := r.protection.immutableUntil
  immutabilityEnforcement := r.enforcement }

def expire (r : SnapshotResult) (s : Snapshot) : Snapshot := { s with expiresAt := r.expiresAt.or s.expiresAt }

/-- The `WHERE` of the search for the row of an earlier result. -/
def Names (r : SnapshotResult) (s : Snapshot) : Prop := s.jobId = r.jobId ∧ s.snapshotId = r.snapshotId
  deriving Decidable

end SnapshotResult

inductive CleanupPhase where
  | expired
  | versions
  deriving DecidableEq

/-- `checking` and `updating` are of the routes, `finding` to `tagging` of a result, and the rest of the cleanup:
`deleting` before the storage calls for the first of the snapshots, `removing` before the `DELETE` of its row. -/
inductive SnapshotStage where
  | start
  | checking (before : Snapshot)
  | updating (id : ℕ) (change : ProtectionChange)
  | finding
  | storing (found : Option ℕ)
  | protecting (id : ℕ)
  | tagging (id : ℕ)
  | selecting (phase : CleanupPhase) (now : ℕ)
  | deleting (phase : CleanupPhase) (now : ℕ) (ids : List ℕ)
  | removing (phase : CleanupPhase) (now : ℕ) (id : ℕ) (ids : List ℕ)
  | ending
  | finished
  deriving DecidableEq

structure SnapshotProc where
  call : SnapshotCall
  stage : SnapshotStage

/-- The rows of one organisation go by the order of their `INSERT`s. `maxVersions` is what the policy behind a job
keeps. -/
structure SnapshotDb (τ : Type*) where
  rows : Table ℕ τ (Option Snapshot)
  jobs : Table ℕ τ BackupStatus
  maxVersions : ℕ → Option ℕ
  (count clock : ℕ)

/-- What happens next: time goes by, a call goes on, a query finds rows in some order, a storage call deletes a page of
objects and is not done; a statement in a `try` fails, a request is turned away, or a call is rolled back. -/
inductive SnapshotAction where
  | tick (elapsed : ℕ)
  | exec
  | select (ids : List ℕ)
  | page
  | skip
  | refuse
  | rollback

section Statements
variable {τ : Type*} [DecidableEq τ]

namespace SnapshotDb

/-- `UPDATE backup_snapshots … WHERE id`; `none` while another transaction holds the row. -/
def update (t : τ) (id : ℕ) (change : Snapshot → Snapshot) (won lost : SnapshotStage) (db : SnapshotDb τ) :
    Option (SnapshotDb τ × SnapshotStage) :=
  match (db.rows id).read t with
  | some s =>
    if (db.rows id).Free t then some ({ db with rows := db.rows.write t id (some (change s)) }, won) else none
  | none => some (db, lost)

/-- `DELETE FROM backup_snapshots WHERE id`. -/
def delete (t : τ) (id : ℕ) (next : SnapshotStage) (db : SnapshotDb τ) : Option (SnapshotDb τ × SnapshotStage) :=
  match (db.rows id).read t with
  | some _ => if (db.rows id).Free t then some ({ db with rows := db.rows.write t id none }, next) else none
  | none => some (db, next)

def insert (t : τ) (s : Snapshot) (db : SnapshotDb τ) : SnapshotDb τ :=
  { db with
    rows := db.rows.write t db.count (some s)
    count := db.count + 1 }

/-- The update of the job that lets only one result be applied. -/
def completeJob (t : τ) (jobId : ℕ) (db : SnapshotDb τ) : Option (SnapshotDb τ × SnapshotStage) :=
  if ((db.jobs jobId).read t).InFlight then
    if (db.jobs jobId).Free t then some ({ db with jobs := db.jobs.write t jobId .completed }, .finding) else none
  else some (db, .ending)

def visible (t : τ) (db : SnapshotDb τ) (ids : List ℕ) : List Stored :=
  ids.filterMap fun id => ((db.rows id).read t).map fun s => (id, s)

def all (t : τ) (db : SnapshotDb τ) : List Stored := db.visible t (List.range db.count)

def toDelete (t : τ) (phase : CleanupPhase) (now : ℕ) (ids : List ℕ) (db : SnapshotDb τ) : List ℕ :=
  let selected := db.visible t ids
  let due :=
    match phase with
    | .expired => selected
    | .versions => overLimit db.maxVersions selected
  (due.filter fun row => ¬row.2.Skipped now).map Prod.fst

/-- The rows that a query of the cleanup returns, in the order of the query. -/
def Selected (t : τ) (phase : CleanupPhase) (now : ℕ) (ids : List ℕ) (db : SnapshotDb τ) : Prop :=
  match phase with
  | .expired => ids.Perm (((db.all t).filter fun row => row.2.Expired now).map Prod.fst)
  | .versions =>
    ids.Perm ((db.all t).map Prod.fst) ∧ (db.visible t ids).Pairwise fun a b => a.2.rank ≤ b.2.rank

instance (t : τ) (phase : CleanupPhase) (now : ℕ) (ids : List ℕ) (db : SnapshotDb τ) :
    Decidable (db.Selected t phase now ids) :=
  match phase with
  | .expired => inferInstanceAs (Decidable (ids.Perm _))
  | .versions => inferInstanceAs (Decidable (ids.Perm _ ∧ _))

/-- What the search for the row of an earlier result returns; it asks for one row. -/
def Found (t : τ) (r : SnapshotResult) (ids : List ℕ) (db : SnapshotDb τ) : Prop :=
  let named := ((db.all t).filter fun row => r.Names row.2).map Prod.fst
  match ids with
  | [] => named = []
  | [id] => id ∈ named
  | _ => False

instance (t : τ) (r : SnapshotResult) (ids : List ℕ) (db : SnapshotDb τ) : Decidable (db.Found t r ids) :=
  match ids with
  | [] => inferInstanceAs (Decidable (_ = _))
  | [id] => inferInstanceAs (Decidable (id ∈ _))
  | _ :: _ :: _ => inferInstanceAs (Decidable False)

def commit (t : τ) (db : SnapshotDb τ) : SnapshotDb τ :=
  { db with
    rows := fun id => (db.rows id).commit t
    jobs := fun id => (db.jobs id).commit t }

def rollback (t : τ) (db : SnapshotDb τ) : SnapshotDb τ :=
  { db with
    rows := fun id => (db.rows id).rollback t
    jobs := fun id => (db.jobs id).rollback t }

end SnapshotDb

/-- The stage after a route has read the row it is asked about. -/
def afterRead (id : ℕ) (call : SnapshotCall) : Option Snapshot → SnapshotStage
  | none => .finished
  | some before =>
    match call with
    | .applyLegalHold _ => .updating id .hold
    | .releaseLegalHold _ => .updating id .releaseHold
    | .applyImmutability _ _ => .checking before
    | .releaseImmutability _ =>
      if before.immutabilityEnforcement = some .provider then .finished else .updating id .releaseImmutability
    | _ => .finished

/-- The checks of a request for immutability, after its second read. -/
def checkExtension (id : ℕ) (request : ImmutabilityRequest) (before : Snapshot) (updated : Option Snapshot) (now : ℕ) :
    SnapshotStage :=
  let date := request.immutableUntil now
  if updated = none ∨ date ≤ now ∨ ∃ earlier ∈ before.immutableUntil, date ≤ earlier then .finished
  else if before.immutabilityEnforcement = some .provider then .updating id (.extend date .provider)
  else .updating id (.extend date request.enforcement)

def startStatement (t : τ) (db : SnapshotDb τ) : SnapshotCall → Option (SnapshotDb τ × SnapshotStage)
  | .cleanupExpiredSnapshots => some (db, .selecting .expired db.clock)
  | .applyBackupCommandResultToJob result => db.completeJob t result.jobId
  | .applyLegalHold id => some (db, afterRead id (.applyLegalHold id) ((db.rows id).read t))
  | .releaseLegalHold id => some (db, afterRead id (.releaseLegalHold id) ((db.rows id).read t))
  | .applyImmutability id request => some (db, afterRead id (.applyImmutability id request) ((db.rows id).read t))
  | .releaseImmutability id => some (db, afterRead id (.releaseImmutability id) ((db.rows id).read t))

def resultStatement (t : τ) (db : SnapshotDb τ) (result : SnapshotResult) :
    SnapshotStage → Option (SnapshotDb τ × SnapshotStage)
  | .storing (some id) => db.update t id result.update (.protecting id) .ending
  | .storing none => some (db.insert t result.inserted, .protecting db.count)
  | .protecting id => db.update t id result.protect (.tagging id) (.tagging id)
  | .tagging id => db.update t id result.expire .ending .ending
  | _ => none

def cleanupStatement (t : τ) (db : SnapshotDb τ) : SnapshotStage → Option (SnapshotDb τ × SnapshotStage)
  | .deleting .expired now [] => some (db, .selecting .versions now)
  | .deleting .versions _ [] => some (db, .ending)
  | .deleting phase now (id :: ids) => some (db, .removing phase now id ids)
  | .removing phase now id ids => db.delete t id (.deleting phase now ids)
  | _ => none

def snapshotExec (t : τ) (db : SnapshotDb τ) (p : SnapshotProc) : Option (SnapshotDb τ × SnapshotStage) :=
  match p.stage, p.call with
  | .start, call => startStatement t db call
  | .checking before, .applyImmutability id request =>
    some (db, checkExtension id request before ((db.rows id).read t) db.clock)
  | .updating id change, _ => db.update t id (fun s => s.change change) .ending .finished
  | .ending, _ => some (db.commit t, .finished)
  | stage, .applyBackupCommandResultToJob result => resultStatement t db result stage
  | stage, .cleanupExpiredSnapshots => cleanupStatement t db stage
  | _, _ => none

def afterSkip : SnapshotStage → Option SnapshotStage
  | .protecting id => some (.tagging id)
  | .tagging _ => some .ending
  | _ => none

def snapshotAct (t : τ) (action : SnapshotAction) (db : SnapshotDb τ) (p : SnapshotProc) :
    Option (SnapshotDb τ × SnapshotProc) :=
  match action, p.stage, p.call with
  | .tick elapsed, _, _ => some ({ db with clock := db.clock + elapsed }, p)
  | .exec, _, _ => (snapshotExec t db p).map fun next => (next.1, { p with stage := next.2 })
  | .select ids, .selecting phase now, .cleanupExpiredSnapshots =>
    if db.Selected t phase now ids then
      some (db, { p with stage := .deleting phase now (db.toDelete t phase now ids) })
    else none
  | .select ids, .finding, .applyBackupCommandResultToJob result =>
    if db.Found t result ids then some (db, { p with stage := .storing ids.head? }) else none
  | .page, .deleting _ _ (_ :: _), _ => some (db, p)
  | .skip, stage, _ => (afterSkip stage).map fun next => (db, { p with stage := next })
  | .refuse, .updating _ _, _ => some (db, { p with stage := .finished })
  | .rollback, .start, _ | .rollback, .finished, _ => none
  | .rollback, _, _ => some (db.rollback t, { p with stage := .finished })
  | _, _, _ => none

abbrev SnapshotWorld (τ : Type*) := World τ (SnapshotDb τ) SnapshotProc

abbrev snapshotStep : SnapshotWorld τ → τ × SnapshotAction → Option (SnapshotWorld τ) := World.step snapshotAct

omit [DecidableEq τ] in
def snapshotStart (snapshots : List Snapshot) (jobs : ℕ → BackupStatus) (maxVersions : ℕ → Option ℕ) (clock : ℕ)
    (calls : τ → SnapshotCall) : SnapshotWorld τ where
  db := ⟨fun id => Row.unheld snapshots[id]?, fun id => Row.unheld (jobs id), maxVersions, snapshots.length, clock⟩
  proc t := ⟨calls t, .start⟩

end Statements

namespace SnapshotWorld
variable {τ : Type*} [DecidableEq τ]

/-- The snapshot whose objects or row the next action deletes. -/
def Deletes (p : SnapshotProc) (action : SnapshotAction) (id : ℕ) : Prop :=
  match p.stage, action with
  | .deleting _ _ (first :: _), .exec | .deleting _ _ (first :: _), .page => first = id
  | .removing _ _ first _, .exec => first = id
  | _, _ => False

/-- No snapshot is deleted whose stored row is protected; the rows deleted by a transaction are lost with its commit. -/
def Spares (w : SnapshotWorld τ) (e : τ × SnapshotAction) : Prop :=
  ∀ id s, (w.db.rows id).committed = some s →
    Deletes (w.proc e.1) e.2 id ∨ ((w.proc e.1).stage = .ending ∧ e.2 = .exec ∧ (w.db.rows id).read e.1 = none) →
    ¬s.Protected w.db.clock

/-- A hold is cleared by the release of a hold only, and a date is moved back or removed by the release of immutability
only. -/
def Keeps (w : SnapshotWorld τ) (e : τ × SnapshotAction) : Prop :=
  ∀ next, snapshotStep w e = some next → ∀ id s v, (w.db.rows id).committed = some s →
    (next.db.rows id).committed = some v →
    ((∀ n, (w.proc e.1).call ≠ .releaseLegalHold n) → s.legalHold = true → v.legalHold = true) ∧
    ((∀ n, (w.proc e.1).call ≠ .releaseImmutability n) →
      ∀ date ∈ s.immutableUntil, ∃ later ∈ v.immutableUntil, date ≤ later)

/-- The snapshots that a cleanup has selected and has still to delete. -/
def Pending (p : SnapshotProc) : List ℕ :=
  match p.stage with
  | .deleting _ _ ids => ids
  | .removing _ _ id ids => id :: ids
  | _ => []

/-- Every snapshot that is selected and is immutable has a date; an extension and the protection of a policy find no
stronger protection than they write; and no call commits a protection of a snapshot that a cleanup has still to
delete. -/
def Allows (w : SnapshotWorld τ) : τ × SnapshotAction → Prop
  | (t, .select ids) =>
    ∀ id ∈ ids, ∀ s ∈ (w.db.rows id).read t, s.isImmutable = true → s.immutableUntil.isSome
  | (t, .exec) =>
    match (w.proc t).stage, (w.proc t).call with
    | .updating id (.extend date _), _ =>
      ∀ s ∈ (w.db.rows id).read t, ∀ earlier ∈ s.immutableUntil, earlier ≤ date
    | .protecting id, .applyBackupCommandResultToJob r =>
      ∀ s ∈ (w.db.rows id).read t, (s.legalHold = true → r.protection.legalHold = true) ∧
        ∀ date ∈ s.immutableUntil, ∃ later ∈ r.protection.immutableUntil, date ≤ later
    | .ending, _ =>
      ∀ u, u ≠ t → ∀ id ∈ Pending (w.proc u), ∀ s ∈ (w.db.rows id).read t, ¬s.Protected w.db.clock
    | _, _ => True
  | _ => True

end SnapshotWorld

end RemudaRmm.BackupServer
