import RemudaRmm.Foundation.ReadCommitted

/-! One approval request and the tool execution that waits for it, under READ COMMITTED, a statement at a time: its user
(`approvals.ts`), the expiry reaper (`approvalExpiryReaper.ts`), and `handleApproval` and `waitForApproval`
(`aiAgent.ts`). All are one transaction each, but for `waitForApproval`, whose statements are transactions of their
own. -/
namespace RemudaRmm.Approvals
open Foundation

inductive ApprovalStatus where
  | pending
  | approved
  | denied
  | expired
  | reported
  deriving DecidableEq

inductive AiToolStatus where
  | pending
  | approved
  | executing
  | completed
  | failed
  | rejected
  deriving DecidableEq

def AiToolStatus.Settled (status : AiToolStatus) : Prop := status = .approved ∨ status = .rejected

inductive ApprovalCall where
  | approve
  | deny
  | reportSuspicious
  | reapExpiredApprovals
  | handleApproval (approved : Bool)
  deriving DecidableEq

inductive ApprovalProcess where
  | waitForApproval
  | call (n : ℕ)
  deriving DecidableEq

/-- `grants` in the end of a `handleApproval` that approves. -/
inductive ApprovalStage where
  | idle
  | decide (status : ApprovalStatus)
  | mirrorDecision (status : ApprovalStatus)
  | report
  | mirrorReport
  | mirrorExpiry
  | handle (approved : Bool)
  | ending (grants : Bool)
  | finished
  | poll
  | timeOut
  | returned (approved : Bool)
  deriving DecidableEq

/-- Times are in milliseconds; `handled` once a `handleApproval` has approved the execution. -/
structure ApprovalDb where
  approval : Row ApprovalProcess ApprovalStatus
  execution : Row ApprovalProcess AiToolStatus
  (expiresAt now : ℕ)
  handled : Bool

/-- What happens next: time goes by, a call begins, a process goes on, or a call ends without a write (`refuse`: the row
is not the user's, the assurance is not given, the session is not the caller's) or is rolled back. `timeOut` and `abort`
are those of `waitForApproval`. -/
inductive ApprovalSignal where
  | tick (elapsed : ℕ)
  | call (call : ApprovalCall)
  | exec
  | refuse
  | rollback
  | timeOut
  | abort
  deriving DecidableEq

namespace ApprovalDb

/-- `UPDATE approval_requests SET status … WHERE id`; `none` while another transaction holds the row. -/
def updateApproval (t : ApprovalProcess) (status : ApprovalStatus) (db : ApprovalDb) : Option ApprovalDb :=
  if db.approval.Free t then some { db with approval := db.approval.write t status } else none

def updateExecution (t : ApprovalProcess) (status : AiToolStatus) (db : ApprovalDb) : Option ApprovalDb :=
  if db.execution.Free t then some { db with execution := db.execution.write t status } else none

def commit (t : ApprovalProcess) (grants : Bool) (db : ApprovalDb) : ApprovalDb :=
  { db with
    approval := db.approval.commit t
    execution := db.execution.commit t
    handled := db.handled || grants }

def rollback (t : ApprovalProcess) (db : ApprovalDb) : ApprovalDb :=
  { db with
    approval := db.approval.rollback t
    execution := db.execution.rollback t }

end ApprovalDb

def beginCall (t : ApprovalProcess) (db : ApprovalDb) : ApprovalCall → ApprovalDb × ApprovalStage
  | .approve => (db, if db.approval.read t ≠ .pending ∨ db.expiresAt ≤ db.now then .finished else .decide .approved)
  | .deny => (db, if db.approval.read t ≠ .pending ∨ db.expiresAt ≤ db.now then .finished else .decide .denied)
  | .reportSuspicious => (db, if db.approval.read t = .pending then .report else .finished)
  | .reapExpiredApprovals =>
    -- a row that is locked is skipped
    if db.approval.Free t ∧ db.approval.read t = .pending ∧ db.expiresAt < db.now then
      ({ db with approval := db.approval.write t .expired }, .mirrorExpiry)
    else (db, .finished)
  | .handleApproval approved => (db, if db.execution.read t = .pending then .handle approved else .finished)

def nextStatement (t : ApprovalProcess) (db : ApprovalDb) : ApprovalStage → Option (ApprovalDb × ApprovalStage)
  | .decide status =>
    if db.approval.read t = .pending ∧ db.now < db.expiresAt then
      (db.updateApproval t status).map (·, .mirrorDecision status)
    else some (db, .finished)
  | .mirrorDecision status =>
    (db.updateExecution t (if status = .approved then .approved else .rejected)).map (·, .ending false)
  | .report => (db.updateApproval t .reported).map (·, .mirrorReport)
  | .mirrorReport => (db.updateExecution t .rejected).map (·, .ending false)
  | .mirrorExpiry =>
    if db.execution.read t = .pending then (db.updateExecution t .rejected).map (·, .ending false)
    else some (db, .ending false)
  | .handle approved =>
    (db.updateExecution t (if approved then .approved else .rejected)).map (·, .ending approved)
  | .ending grants => some (db.commit t grants, .finished)
  | .poll =>
    match db.execution.read t with
    | .approved => some (db, .returned true)
    | .rejected => some (db, .returned false)
    | _ => some (db, .poll)
  | .timeOut => (db.updateExecution t .rejected).map fun updated => (updated.commit t false, .returned false)
  | .idle | .finished | .returned _ => none

/-- One action of one process; `none` while it is blocked or not at it. -/
def approvalAct (t : ApprovalProcess) (signal : ApprovalSignal) (db : ApprovalDb) (stage : ApprovalStage) :
    Option (ApprovalDb × ApprovalStage) :=
  match signal, stage with
  | .tick elapsed, _ => some ({ db with now := db.now + elapsed }, stage)
  | .call call, .idle => some (beginCall t db call)
  | .refuse, .idle | .refuse, .decide _ | .refuse, .handle _ => some (db, .finished)
  | .timeOut, .poll => some (db, .timeOut)
  | .abort, .poll => some (db, .returned false)
  | .exec, _ => nextStatement t db stage
  | .rollback, .decide _ | .rollback, .mirrorDecision _ | .rollback, .report | .rollback, .mirrorReport
  | .rollback, .mirrorExpiry | .rollback, .handle _ | .rollback, .ending _ => some (db.rollback t, .finished)
  | _, _ => none

abbrev ApprovalWorld := World ApprovalProcess ApprovalDb ApprovalStage

/-- One step of a run; nothing happens where the process is blocked or not at it. -/
def approvalStep (w : ApprovalWorld) (e : ApprovalProcess × ApprovalSignal) : ApprovalWorld :=
  (World.step approvalAct w e).getD w

/-- A pending request with its pending execution, which one `waitForApproval` polls. -/
def approvalStart (expiresAt now : ℕ) : ApprovalWorld where
  db := ⟨Row.unheld .pending, Row.unheld .pending, expiresAt, now, false⟩
  proc
    | .waitForApproval => .poll
    | .call _ => .idle

namespace ApprovalWorld

/-- The waiter hears of an approval only where there is one, and none comes after it has given up. -/
structure Obeyed (w : ApprovalWorld) : Prop where
  heard : w.proc .waitForApproval = .returned true → w.db.approval.committed = .denied ∨
    w.db.approval.committed = .reported ∨ w.db.approval.committed = .expired → w.db.handled = true
  refused : w.proc .waitForApproval = .returned false → w.db.execution.committed ≠ .approved

/-- A decided request, and an execution that is approved or rejected, stay so. -/
structure DecidedOnce (w : ApprovalWorld) (e : ApprovalProcess × ApprovalSignal) : Prop where
  approval : w.db.approval.committed ≠ .pending → (approvalStep w e).db.approval.committed = w.db.approval.committed
  execution : w.db.execution.committed.Settled → (approvalStep w e).db.execution.committed = w.db.execution.committed

/-- A write commits over a row that is pending, or that it leaves as it is, and it approves the execution only while the
waiter has not given up; the waiter gives up, or writes that it does, while the execution is not approved. -/
def OnTime (w : ApprovalWorld) : ApprovalProcess × ApprovalSignal → Prop
  | (t, signal) =>
    match t, signal, w.proc t with
    | _, .exec, .ending _ =>
      (∀ status, w.db.approval.held = some (t, status) → w.db.approval.committed ≠ .pending →
        status = w.db.approval.committed) ∧
      (∀ status, w.db.execution.held = some (t, status) → w.db.execution.committed.Settled →
        status = w.db.execution.committed) ∧
      (w.db.execution.held = some (t, .approved) → w.proc .waitForApproval ≠ .returned false)
    | _, .exec, .timeOut => w.db.execution.Free t → w.db.execution.committed ≠ .approved
    | .waitForApproval, .abort, .poll => w.db.execution.committed ≠ .approved
    | _, _, _ => True

end ApprovalWorld

end RemudaRmm.Approvals
