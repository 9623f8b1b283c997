import RemudaRmm.Agents.DeviceCommands

/-! One elevation request and its `actuate_elevation` commands under READ COMMITTED, a statement at a time: technicians
(`pam.ts`, `approvals.ts`), the actuation (`actuateElevation.ts`), the two jobs (`pamJobs.ts`) and the polls of the
device (`commandDispatch.ts`). Each call is one transaction. -/
namespace RemudaRmm.Approvals
open Foundation
open Agents (CommandStatus)

inductive ElevationStatus where
  | pending
  | approved
  | autoApproved
  | denied
  | expired
  | revoked
  | actuating
  deriving DecidableEq

/-- `ACTIVE_STATUSES`. -/
def ElevationStatus.Active (status : ElevationStatus) : Prop :=
  status = .approved ∨ status = .autoApproved ∨ status = .actuating
  deriving Decidable

def ElevationStatus.Ended (status : ElevationStatus) : Prop := status = .revoked ∨ status = .expired
  deriving Decidable

/-- The moves of a request. -/
inductive ElevationStatus.Follows : ElevationStatus → ElevationStatus → Prop
  | approve : Follows .pending .approved
  | deny : Follows .pending .denied
  | lapse : Follows .pending .expired
  | actuate : Follows .approved .actuating
  | revoke {status : ElevationStatus} (active : status.Active) : Follows status .revoked
  | expire {status : ElevationStatus} (active : status.Active) : Follows status .expired

/-- Times are in milliseconds. -/
structure Elevation where
  status : ElevationStatus
  requestedAt : ℕ
  expiresAt : Option ℕ

def Elevation.Lapsed (e : Elevation) (now : ℕ) : Prop := ∃ expires ∈ e.expiresAt, expires < now
  deriving Decidable

structure ActuateCommand where
  status : CommandStatus
  insertedAt : ℕ
  deriving DecidableEq

def DEFAULT_APPROVAL_DURATION_MINUTES : ℕ := 15

def PAM_ELEVATION_GRANT_MINUTES : ℕ := 15

inductive ElevationCall where
  | respond (approve : Bool) (durationMinutes : Option ℕ)
  | decideHandler (approve : Bool)
  | revoke
  | actuateElevation
  | enforceElevationExpiry
  | expireStaleRequests (ttlMinutes : ℕ)
  | claimPendingCommandsForDevice
  deriving DecidableEq

/-- `deciding` before the statement that changes the request, or after the `SELECT` of an actuation that has found it
approved; `claiming` with the locked commands that are still to be updated. -/
inductive ElevationStage where
  | start
  | deciding
  | inserting
  | claiming (ids : List ℕ)
  | ending
  | finished
  deriving DecidableEq

/-- A call, when it started, whether the request had ended by then, and the commands it has claimed. -/
structure ElevationProc where
  call : ElevationCall
  stage : ElevationStage
  startedAt : ℕ
  late : Bool
  claimed : List ℕ

/-- Commands go by the order of their `INSERT`s; `count` have been given a number. -/
structure ElevationDb (τ : Type*) where
  elevation : Row τ Elevation
  commands : Table ℕ τ (Option ActuateCommand)
  (count clock : ℕ)

/-- What happens next: time goes by, a call goes on with its next statement, or a poll of the device locks some of the
pending commands, as its `LIMIT` lets it. A call is turned away by a check that precedes its writes, or is rolled
back. -/
inductive ElevationAction where
  | tick (elapsed : ℕ)
  | exec
  | claim (ids : List ℕ)
  | refuse
  | rollback
  deriving DecidableEq

namespace Elevation

def approve (expiresAt : ℕ) (e : Elevation) : Elevation := { e with status := .approved, expiresAt := some expiresAt }

def moveTo (status : ElevationStatus) (e : Elevation) : Elevation := { e with status }

/-- The `WHERE` of the expiry job. -/
def Due (e : Elevation) (now : ℕ) : Prop := e.status.Active ∧ e.Lapsed now
  deriving Decidable

/-- The `WHERE` of the job for stale requests. -/
def Stale (e : Elevation) (ttlMinutes now : ℕ) : Prop :=
  e.status = .pending ∧ e.requestedAt + ttlMinutes * 60000 < now
  deriving Decidable

end Elevation

section Statements
variable {τ : Type*} [DecidableEq τ]

namespace ElevationDb

/-- `UPDATE elevation_requests … WHERE id AND status …`; `none` while another transaction holds a row that matches. -/
def update (t : τ) (matching : Elevation → Prop) [DecidablePred matching] (change : Elevation → Elevation)
    (won : ElevationStage) (db : ElevationDb τ) : Option (ElevationDb τ × ElevationStage) :=
  let e := db.elevation.read t
  if matching e then
    if db.elevation.Free t then some ({ db with elevation := db.elevation.write t (change e) }, won) else none
  else some (db, .ending)

/-- `UPDATE … FROM (SELECT … FOR UPDATE SKIP LOCKED)`. -/
def sweep (t : τ) (due : Elevation → Prop) [DecidablePred due] (db : ElevationDb τ) : ElevationDb τ :=
  let e := db.elevation.read t
  if db.elevation.Free t ∧ due e then { db with elevation := db.elevation.write t (e.moveTo .expired) } else db

def insertCommand (t : τ) (db : ElevationDb τ) : ElevationDb τ :=
  { db with
    commands := db.commands.write t db.count (some ⟨.pending, db.clock⟩)
    count := db.count + 1 }

/-- A command that `SELECT … FOR UPDATE SKIP LOCKED` of a poll can return. -/
def Claimable (t : τ) (db : ElevationDb τ) (id : ℕ) : Prop :=
  (db.commands id).Free t ∧ ∃ c ∈ (db.commands id).read t, c.status = .pending
  deriving Decidable

def lockCommands (t : τ) (ids : List ℕ) (db : ElevationDb τ) : ElevationDb τ :=
  { db with
    commands := fun id =>
      if id ∈ ids then (db.commands id).write t ((db.commands id).read t) else db.commands id }

/-- `UPDATE device_commands SET status = 'sent' WHERE id AND status = 'pending'` on a row that is locked already. -/
def sendCommand (t : τ) (id : ℕ) (db : ElevationDb τ) : ElevationDb τ × List ℕ :=
  match (db.commands id).read t with
  | some c =>
    if c.status = .pending then
      ({ db with commands := db.commands.write t id (some { c with status := .sent }) }, [id])
    else (db, [])
  | none => (db, [])

def commit (t : τ) (db : ElevationDb τ) : ElevationDb τ :=
  { db with
    elevation := db.elevation.commit t
    commands := fun id => (db.commands id).commit t }

def rollback (t : τ) (db : ElevationDb τ) : ElevationDb τ :=
  { db with
    elevation := db.elevation.rollback t
    commands := fun id => (db.commands id).rollback t }

end ElevationDb

def afterStart (e : Elevation) : ElevationCall → ElevationStage
  | .actuateElevation => if e.status = .approved then .deciding else .ending
  | .claimPendingCommandsForDevice => .ending
  | _ => .deciding

def decideStatement (t : τ) (db : ElevationDb τ) (startedAt : ℕ) :
    ElevationCall → Option (ElevationDb τ × ElevationStage)
  | .respond true durationMinutes =>
    db.update t (fun e => e.status = .pending)
      (.approve (startedAt + durationMinutes.getD DEFAULT_APPROVAL_DURATION_MINUTES * 60000)) .ending
  | .respond false _ => db.update t (fun e => e.status = .pending) (.moveTo .denied) .ending
  | .decideHandler true =>
    db.update t (fun e => e.status = .pending) (.approve (db.clock + PAM_ELEVATION_GRANT_MINUTES * 60000)) .ending
  | .decideHandler false => db.update t (fun e => e.status = .pending) (.moveTo .denied) .ending
  | .revoke => db.update t (fun e => e.status.Active) (.moveTo .revoked) .ending
  | .actuateElevation => db.update t (fun e => e.status = .approved) (.moveTo .actuating) .inserting
  | .enforceElevationExpiry => some (db.sweep t fun e => e.Due startedAt, .ending)
  | .expireStaleRequests ttlMinutes => some (db.sweep t fun e => e.Stale ttlMinutes startedAt, .ending)
  | .claimPendingCommandsForDevice => none

def elevationExec (t : τ) (db : ElevationDb τ) (p : ElevationProc) : Option (ElevationDb τ × ElevationProc) :=
  match p.stage with
  | .start => some (db, { p with
      stage := afterStart (db.elevation.read t) p.call
      startedAt := db.clock
      late := decide db.elevation.committed.status.Ended })
  | .deciding => (decideStatement t db p.startedAt p.call).map fun next => (next.1, { p with stage := next.2 })
  | .inserting => some (db.insertCommand t, { p with stage := .ending })
  | .claiming [] => some (db, { p with stage := .ending })
  | .claiming (id :: ids) =>
    let sent := db.sendCommand t id
    some (sent.1, { p with stage := .claiming ids, claimed := p.claimed ++ sent.2 })
  | .ending => some (db.commit t, { p with stage := .finished })
  | .finished => none

def elevationAct (t : τ) (action : ElevationAction) (db : ElevationDb τ) (p : ElevationProc) :
    Option (ElevationDb τ × ElevationProc) :=
  match action, p.stage with
  | .tick elapsed, _ => some ({ db with clock := db.clock + elapsed }, p)
  | .exec, _ => elevationExec t db p
  | .claim ids, .start =>
    if p.call = .claimPendingCommandsForDevice ∧ ∀ id ∈ ids, db.Claimable t id then
      some (db.lockCommands t ids, { p with
        stage := .claiming ids
        startedAt := db.clock
        late := decide db.elevation.committed.status.Ended })
    else none
  | .refuse, .start | .refuse, .deciding => some (db, { p with stage := .finished })
  | .rollback, .start | .rollback, .finished => none
  | .rollback, _ => some (db.rollback t, { p with stage := .finished, claimed := [] })
  | _, _ => none

abbrev ElevationWorld (τ : Type*) := World τ (ElevationDb τ) ElevationProc

abbrev elevationStep : ElevationWorld τ → τ × ElevationAction → Option (ElevationWorld τ) := World.step elevationAct

omit [DecidableEq τ] in
/-- A request without commands, and the calls that will be made. -/
def elevationStart (e : Elevation) (clock : ℕ) (calls : τ → ElevationCall) : ElevationWorld τ where
  db := ⟨Row.unheld e, fun _ => Row.unheld none, 0, clock⟩
  proc t := ⟨calls t, .start, 0, false, []⟩

end Statements

/-- An actuation finds the request approved while its window is open, and a request ends only while no command of it is
pending. -/
def ElevationDb.Allows {τ : Type*} [DecidableEq τ] (db : ElevationDb τ) (t : τ) (call : ElevationCall) :
    ElevationStage → Prop
  | .start => call = .actuateElevation → (db.elevation.read t).status = .approved →
      ¬(db.elevation.read t).Lapsed db.clock
  | .ending => (db.elevation.read t).status.Ended → db.elevation.committed.status.Ended ∨
      ∀ id < db.count, ∀ c ∈ (db.commands id).committed, c.status ≠ .pending
  | _ => True

namespace ElevationWorld
variable {τ : Type*}

def Moves (w next : ElevationWorld τ) : Prop :=
  next.db.elevation.committed.status = w.db.elevation.committed.status ∨
    w.db.elevation.committed.status.Follows next.db.elevation.committed.status

def OneCommand (w : ElevationWorld τ) : Prop :=
  ∀ i j c d, (w.db.commands i).committed = some c → (w.db.commands j).committed = some d → i = j

/-- Every command has been inserted inside the window of the request. -/
def InWindow (w : ElevationWorld τ) : Prop :=
  ∀ id c, (w.db.commands id).committed = some c → ¬w.db.elevation.committed.Lapsed c.insertedAt

/-- No poll that started after the end of the request has handed a command to the device. -/
def Withheld (w : ElevationWorld τ) : Prop :=
  ∀ t, (w.proc t).stage = .finished → (w.proc t).late = true → (w.proc t).claimed = []

variable [DecidableEq τ]

/-- An actuation that has found the request approved inserts its command before the window ends. -/
def Actuates (w : ElevationWorld τ) (t : τ) (now : ℕ) : Prop :=
  (w.proc t).call = .actuateElevation →
    (w.proc t).stage = .deciding ∧ (w.db.elevation.read t).status = .approved ∨ (w.proc t).stage = .inserting →
      ¬(w.db.elevation.read t).Lapsed now

/-- Every statement is allowed, and time does not run past the window while an actuation is under way. -/
def Punctual (w : ElevationWorld τ) : τ × ElevationAction → Prop
  | (_, .tick elapsed) => ∀ t, w.Actuates t (w.db.clock + elapsed)
  | (t, .exec) => w.db.Allows t (w.proc t).call (w.proc t).stage
  | _ => True

end ElevationWorld

end RemudaRmm.Approvals
