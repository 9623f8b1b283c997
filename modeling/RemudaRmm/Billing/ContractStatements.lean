import RemudaRmm.Billing.ContractService
import RemudaRmm.Foundation.ReadCommitted

/-! The lifecycle calls and the billing of one contract under READ COMMITTED (`contractService.ts`), a statement at a
time. Each call is one transaction: it reads the contract, decides, and later updates it by id. -/
namespace RemudaRmm.Billing
open Foundation

inductive ContractCall where
  | activateContract (asOf : Civil)
  | pauseContract
  | resumeContract (asOf : Civil)
  | cancelContract
  | generateDueInvoice (asOf : Civil)

inductive ContractStage where
  | idle
  | countLines (c : Contract) (asOf : Civil)
  | update (status : ContractStatus) (nextBillingAt : Option Text)
  | selectLines (c : Contract) (idx : ℕ)
  | claim (c : Contract) (idx : ℕ)
  | advance (c : Contract) (idx : ℕ)
  | ending
  | finished
  deriving DecidableEq

/-- `refuse`: the organisation is not the caller's. A call that throws later is rolled back. -/
inductive ContractSignal where
  | call (call : ContractCall)
  | exec
  | refuse
  | rollback

/-- The contract, its lines, and the claimed periods by their start. -/
structure ContractDb where
  contract : Row ℕ Contract
  lines : List ContractLine
  periods : Table Text ℕ (Option Period)

def Contract.aim (status : ContractStatus) (nextBillingAt : Option Text) (c : Contract) : Contract :=
  { c with status, nextBillingAt }

/-- `UPDATE contracts SET … WHERE id`; `none` while another transaction holds the row. -/
def ContractDb.update (t : ℕ) (change : Contract → Contract) (db : ContractDb) : Option ContractDb :=
  if db.contract.Free t then some { db with contract := db.contract.write t (change (db.contract.read t)) } else none

def ContractDb.commit (t : ℕ) (db : ContractDb) : ContractDb :=
  { db with contract := db.contract.commit t, periods := fun start => (db.periods start).commit t }

def ContractDb.rollback (t : ℕ) (db : ContractDb) : ContractDb :=
  { db with contract := db.contract.rollback t, periods := fun start => (db.periods start).rollback t }

/-- What a call makes of the contract that its first statement reads. -/
def beginContractCall (c : Contract) : ContractCall → ContractStage
  | .activateContract asOf =>
    if c.status ≠ .draft ∧ c.status ≠ .paused then .finished else .countLines c asOf
  | .pauseContract => if c.status ≠ .active then .finished else .update .paused none
  | .resumeContract asOf =>
    if c.status ≠ .paused then .finished else .update .active (some (pointerAsOf c (isoDay asOf)))
  | .cancelContract => if c.status = .cancelled then .finished else .update .cancelled none
  | .generateDueInvoice asOf =>
    match c.status, c.nextBillingAt with
    | .active, some nextBillingAt =>
      if textLt (isoDay asOf) nextBillingAt then .finished
      else if isExpired c.endDate (computePeriod c.startDate c.intervalMonths (dueIndex c nextBillingAt)).periodStart
      then .update .expired none
      else .selectLines c (dueIndex c nextBillingAt)
    | _, _ => .finished

/-- The insert of the period; a conflict ends the call, which has only its own draft invoice to delete. -/
def ContractDb.claimPeriod (t : ℕ) (c : Contract) (idx : ℕ) (db : ContractDb) : Option (ContractDb × ContractStage) :=
  let period := computePeriod c.startDate c.intervalMonths idx
  if (db.periods period.periodStart).Free t then
    match (db.periods period.periodStart).read t with
    | none => some ({ db with periods := db.periods.write t period.periodStart (some period) }, .advance c idx)
    | some _ => some (db, .finished)
  else none

/-- The pointer of the next period, or the expiry of the contract. -/
def nextPointer (c : Contract) (idx : ℕ) (row : Contract) : Contract :=
  let nextPeriod := computePeriod c.startDate c.intervalMonths (idx + 1)
  if isExpired c.endDate nextPeriod.periodStart then row.aim .expired none
  else row.aim row.status (some (match c.billingTiming with
    | .advance => nextPeriod.periodStart
    | .arrears => nextPeriod.periodEnd))

def nextContractStatement (t : ℕ) (db : ContractDb) : ContractStage → Option (ContractDb × ContractStage)
  | .countLines c asOf =>
    some (db, if db.lines.length = 0 then .finished else .update .active (some (pointerAsOf c (isoDay asOf))))
  | .update status nextBillingAt => (db.update t (·.aim status nextBillingAt)).map (·, .ending)
  | .selectLines c idx => some (db, if db.lines.length = 0 then .finished else .claim c idx)
  | .claim c idx => db.claimPeriod t c idx
  | .advance c idx => (db.update t (nextPointer c idx)).map (·, .ending)
  | .ending => some (db.commit t, .finished)
  | .idle | .finished => none

def contractAct (t : ℕ) (signal : ContractSignal) (db : ContractDb) (stage : ContractStage) :
    Option (ContractDb × ContractStage) :=
  match signal with
  | .call call => if stage = .idle then some (db, beginContractCall (db.contract.read t) call) else none
  | .exec => nextContractStatement t db stage
  | .refuse => if stage = .idle then some (db, .finished) else none
  | .rollback => if stage = .idle ∨ stage = .finished then none else some (db.rollback t, .finished)

abbrev ContractWorld := World ℕ ContractDb ContractStage

def contractStep (w : ContractWorld) (e : ℕ × ContractSignal) : ContractWorld := (World.step contractAct w e).getD w

def contractStart (s : ContractRows) : ContractWorld where
  db.contract := Row.unheld s.contract
  db.lines := s.lines
  db.periods start := Row.unheld ((s.periods.find? (·.period.periodStart = start)).map (·.period))
  proc _ := .idle

def Contract.Linked (c : Contract) : Prop := c.nextBillingAt ≠ none ↔ c.status = .active
  deriving Decidable

namespace ContractWorld

def KeepsCancelled (w : ContractWorld) (e : ℕ × ContractSignal) : Prop :=
  w.db.contract.committed.status = .cancelled → (contractStep w e).db.contract.committed.status = .cancelled

def BillsActive (w : ContractWorld) (e : ℕ × ContractSignal) : Prop :=
  ∀ start, (w.db.periods start).committed = none → ((contractStep w e).db.periods start).committed ≠ none →
    w.db.contract.committed.status = .active

/-- An update that does not cancel the contract finds it not cancelled, and one that moves its pointer finds it active. -/
def StatusFound (db : ContractDb) : ContractStage → Prop
  | .update status _ => db.contract.committed.status = .cancelled → status = .cancelled
  | .advance _ _ => db.contract.committed.status = .active
  | _ => True

/-- Whenever a call updates the contract, the committed status still allows it. -/
def StatusStands (w : ContractWorld) : ℕ × ContractSignal → Prop
  | (t, .exec) => w.db.contract.Free t → StatusFound w.db (w.proc t)
  | _ => True

end ContractWorld

end RemudaRmm.Billing
