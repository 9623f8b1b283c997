import RemudaRmm.Foundation.ReadCommitted

/-! The dispatch of a backup job (`backupWorker.ts`), one transaction that sends a command for each target, and beside
it, under READ COMMITTED, cancels (`routes/backup/jobs.ts`) and the results of the commands sent
(`backupResultPersistence.ts`). -/
namespace RemudaRmm.BackupServer
open Foundation

inductive BackupStatus where
  | pending
  | running
  | completed
  | failed
  | cancelled
  | partly
  deriving DecidableEq

/-- `IN_FLIGHT_BACKUP_JOB_STATUSES`. -/
def BackupStatus.InFlight (status : BackupStatus) : Prop := status = .pending ∨ status = .running
  deriving Decidable

structure BackupJob where
  status : BackupStatus
  errorLog : Option String

inductive BackupProcess where
  | dispatch
  | call (n : ℕ)
  deriving DecidableEq

inductive BackupCall where
  | cancel (id : ℕ)
  | applyBackupCommandResultToJob (id : ℕ) (completed : Bool) (errorLog : Option String)
  | markBackupJobFailedIfInFlight (id : ℕ) (errorLog : String)
  deriving DecidableEq

/-- The next statement of a dispatch, or the next thing it asks of the world. A poll goes on with the first stage when
it finds the job cancelled. -/
inductive DispatchStage where
  | poll (cancelled next : DispatchStage)
  | loadConfig
  | findAgent
  | resolveTargets
  | markEmpty
  | checkEncryption
  | insertChild (i : ℕ)
  | send (i id : ℕ)
  | failChild (i id : ℕ)
  | cancelChild (id : ℕ)
  | sumUp
  | partialLog
  | markRunning
  | markFailed (error : String)
  | ending (dispatched : Bool)
  | returned (dispatched : Bool)
  | thrown
  deriving DecidableEq

/-- What a dispatch reads on its way: the mode, the types of the commands that the targets resolve to, and the reason
why an encryption is not supported. -/
structure DispatchInput where
  backupMode : String
  commandTypes : List String
  encryptionReason : String

structure Dispatch where
  stage : DispatchStage
  sentCount : ℕ
  failedTargets : List String
  deriving DecidableEq

inductive CallStage where
  | start
  | updating
  | ending
  | finished
  deriving DecidableEq

inductive BackupProc where
  | dispatch (d : Dispatch)
  | call (c : BackupCall) (stage : CallStage)
  deriving DecidableEq

/-- The job of the dispatch is row 0, its children follow. `sent` holds the jobs whose command has been sent, `late` the
number of commands sent after a cancel of the job had committed. -/
structure BackupDb where
  jobs : Table ℕ BackupProcess (Option BackupJob)
  count : ℕ
  sent : List ℕ
  late : ℕ

/-- `ok` is what the world answers where it is asked: a configuration, an agent, a supported encryption, a row from an
insert, a command that is sent. -/
inductive BackupAction where
  | exec (ok : Bool)
  | rollback

namespace BackupDb

/-- `UPDATE backup_jobs … WHERE id AND …`; `none` while another transaction holds a row that matches. -/
def update (t : BackupProcess) (id : ℕ) (matching : BackupJob → Prop) [DecidablePred matching]
    (change : BackupJob → BackupJob) (db : BackupDb) : Option BackupDb :=
  match (db.jobs id).read t with
  | some job =>
    if matching job then
      if (db.jobs id).Free t then some { db with jobs := db.jobs.write t id (some (change job)) } else none
    else some db
  | none => some db

def setStatus (status : BackupStatus) (errorLog : Option String) (_ : BackupJob) : BackupJob := ⟨status, errorLog⟩

def markInFlight (t : BackupProcess) (id : ℕ) (status : BackupStatus) (error : String) (db : BackupDb) :
    Option BackupDb :=
  db.update t id (fun job => job.status.InFlight) (setStatus status (some error))

def isBackupJobCancelled (t : BackupProcess) (db : BackupDb) : Bool :=
  ((db.jobs 0).read t).any fun job => decide (job.status = .cancelled)

def insertChild (t : BackupProcess) (db : BackupDb) : BackupDb :=
  { db with
    jobs := db.jobs.write t db.count (some ⟨.running, none⟩)
    count := db.count + 1 }

def Cancelled (db : BackupDb) : Prop := ∃ job ∈ (db.jobs 0).committed, job.status = .cancelled
  deriving Decidable

def sendCommand (id : ℕ) (db : BackupDb) : BackupDb :=
  { db with
    sent := db.sent ++ [id]
    late := if db.Cancelled then db.late + 1 else db.late }

def commit (t : BackupProcess) (db : BackupDb) : BackupDb := { db with jobs := fun id => (db.jobs id).commit t }

def rollback (t : BackupProcess) (db : BackupDb) : BackupDb := { db with jobs := fun id => (db.jobs id).rollback t }

end BackupDb

def targetStage (input : DispatchInput) (i : ℕ) : DispatchStage :=
  .poll (.ending false) (if input.commandTypes.length ≤ i then .sumUp else if i = 0 then .send 0 0 else .insertChild i)

def processDispatchBackup (input : DispatchInput) (ok : Bool) (db : BackupDb) (d : Dispatch) :
    Option (BackupDb × Dispatch) :=
  match d.stage with
  | .poll cancelled next =>
    some (db, { d with stage := if db.isBackupJobCancelled .dispatch then cancelled else next })
  | .loadConfig =>
    let stage := if ok then .poll (.ending false) .findAgent else .markFailed "Backup config not found"
    some (db, { d with stage })
  | .findAgent =>
    let stage := if ok then .poll (.ending false) .resolveTargets else .markFailed "Agent not connected"
    some (db, { d with stage })
  | .resolveTargets =>
    let next := if input.commandTypes = [] then .markEmpty else .checkEncryption
    some (db, { d with stage := .poll (.ending false) next })
  | .markEmpty =>
    -- the one update of the job that does not ask for its status
    let error := "No backup targets resolved (mode=" ++ input.backupMode ++
      "). Ensure discovery has been run for this device."
    (db.update .dispatch 0 (fun _ => True) (BackupDb.setStatus .failed (some error))).map
      (·, { d with stage := .ending false })
  | .checkEncryption =>
    let stage := if ok then targetStage input 0 else .markFailed input.encryptionReason
    some (db, { d with stage })
  | .insertChild i =>
    if ok then some (db.insertChild .dispatch, { d with stage := .poll (.cancelChild db.count) (.send i db.count) })
    else
      let failed := input.commandTypes.getD i "" ++ " (job creation failed)"
      some (db, { d with stage := targetStage input (i + 1), failedTargets := d.failedTargets ++ [failed] })
  | .send i id =>
    if ok then
      some (db.sendCommand id, { d with stage := targetStage input (i + 1), sentCount := d.sentCount + 1 })
    else
      let stage := if id ≠ 0 then .failChild i id else targetStage input (i + 1)
      some (db, { d with stage, failedTargets := d.failedTargets ++ [input.commandTypes.getD i ""] })
  | .failChild i id =>
    let error := "Failed to send " ++ input.commandTypes.getD i "" ++ " command to agent"
    (db.update .dispatch id (fun _ => True) (BackupDb.setStatus .failed (some error))).map
      (·, { d with stage := targetStage input (i + 1) })
  | .cancelChild id =>
    (db.markInFlight .dispatch id .cancelled "Cancelled before dispatch").map (·, { d with stage := .ending false })
  | .sumUp =>
    let stage :=
      if d.sentCount = 0 then .markFailed "Failed to send command to agent"
      else if d.failedTargets ≠ [] then .partialLog
      else .markRunning
    some (db, { d with stage })
  | .partialLog =>
    let error := "Partial dispatch: " ++ toString d.failedTargets.length ++ " target(s) failed to send (" ++
      ", ".intercalate d.failedTargets ++ ")"
    (db.update .dispatch 0 (fun _ => True) fun job => { job with errorLog := some error }).map
      (·, { d with stage := .markRunning })
  | .markRunning =>
    (db.update .dispatch 0 (fun job => job.status.InFlight) fun job => { job with status := .running }).map
      (·, { d with stage := .ending true })
  | .markFailed error => (db.markInFlight .dispatch 0 .failed error).map (·, { d with stage := .ending false })
  | .ending dispatched => some (db.commit .dispatch, { d with stage := .returned dispatched })
  | .returned _ | .thrown => none

/-- The next statement of a call. A cancel looks at the job first; a result comes only for a command that was sent. -/
def callExec (t : BackupProcess) (db : BackupDb) (c : BackupCall) (stage : CallStage) : Option (BackupDb × CallStage) :=
  match stage with
  | .start =>
    match c with
    | .cancel id =>
      let cancelable := ((db.jobs id).read t).any fun job => decide job.status.InFlight
      some (db, if cancelable then .updating else .finished)
    | .applyBackupCommandResultToJob id _ _ | .markBackupJobFailedIfInFlight id _ =>
      if id ∈ db.sent then some (db, .updating) else none
  | .updating =>
    match c with
    | .cancel id => (db.markInFlight t id .cancelled "Cancelled by user").map (·, .ending)
    | .applyBackupCommandResultToJob id completed errorLog =>
      (db.update t id (fun job => job.status.InFlight) fun job =>
        if completed then ⟨.completed, errorLog.or job.errorLog⟩
        else ⟨.failed, some (errorLog.getD "Unknown error")⟩).map (·, .ending)
    | .markBackupJobFailedIfInFlight id errorLog => (db.markInFlight t id .failed errorLog).map (·, .ending)
  | .ending => some (db.commit t, .finished)
  | .finished => none

/-- One action of one process; `none` while it is blocked or has ended. A process that throws is rolled back. -/
def backupAct (input : DispatchInput) (t : BackupProcess) (action : BackupAction) (db : BackupDb) (p : BackupProc) :
    Option (BackupDb × BackupProc) :=
  match action, p with
  | .exec ok, .dispatch d => (processDispatchBackup input ok db d).map fun next => (next.1, .dispatch next.2)
  | .exec _, .call c stage => (callExec t db c stage).map fun next => (next.1, .call c next.2)
  | .rollback, .dispatch d =>
    match d.stage with
    | .returned _ | .thrown => none
    | _ => some (db.rollback t, .dispatch { d with stage := .thrown })
  | .rollback, .call c stage => if stage = .finished then none else some (db.rollback t, .call c .finished)

abbrev BackupWorld := World BackupProcess BackupDb BackupProc

abbrev backupStep (input : DispatchInput) : BackupWorld → BackupProcess × BackupAction → Option BackupWorld :=
  World.step (backupAct input)

/-- A pending job that is dispatched, and the calls that will be made. -/
def backupStart (calls : ℕ → BackupCall) : BackupWorld where
  db := ⟨Function.update (fun _ => Row.unheld none) 0 (Row.unheld (some ⟨.pending, none⟩)), 1, [], 0⟩
  proc
    | .dispatch => .dispatch ⟨.poll (.ending false) .loadConfig, 0, []⟩
    | .call n => .call (calls n) .start

/-- The job is in flight when it is marked for want of targets; and its own command has been sent, or it has ended, when
it is marked as running. -/
def BackupDb.Allows (db : BackupDb) : DispatchStage → Prop
  | .markEmpty => ∀ job ∈ (db.jobs 0).read .dispatch, job.status.InFlight
  | .markRunning => ∀ job ∈ (db.jobs 0).read .dispatch, job.status.InFlight → 0 ∈ db.sent
  | _ => True

def BackupDb.AllowsProc (db : BackupDb) : BackupProc → Prop
  | .dispatch d => db.Allows d.stage
  | .call _ _ => True

namespace BackupWorld

/-- Once the dispatch has returned, the command of every job that is in flight has been sent. -/
def Served (w : BackupWorld) : Prop :=
  ∀ d dispatched, w.proc .dispatch = .dispatch d → d.stage = .returned dispatched →
    ∀ id job, (w.db.jobs id).committed = some job → job.status.InFlight → id ∈ w.db.sent

def EndsOnce (w next : BackupWorld) : Prop :=
  ∀ id job, (w.db.jobs id).committed = some job → ¬job.status.InFlight →
    ∃ after, (next.db.jobs id).committed = some after ∧ after.status = job.status

def Careful (w : BackupWorld) : BackupProcess × BackupAction → Prop
  | (.dispatch, .exec _) => w.db.AllowsProc (w.proc .dispatch)
  | _ => True

end BackupWorld

end RemudaRmm.BackupServer
