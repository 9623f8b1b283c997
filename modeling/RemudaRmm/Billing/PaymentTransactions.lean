import RemudaRmm.Billing.InvoiceMath
import RemudaRmm.Foundation.ReadCommitted
import RemudaRmm.Foundation.Text

/-! Payments on one invoice, statement by statement: `recordPayment`, `voidPayment` and `recomputeInvoiceStatus`
(`invoiceService.ts`) and `recordStripePayment` (`stripeReconcile.ts`). Every call is one transaction; amounts are whole
cents. There is one Stripe object with its mapping. -/
namespace RemudaRmm.Billing
open Foundation

structure MoneyRow where
  status : InvoiceStatus
  invoiceNumber : Option Text
  currencyCode : String
  (total amountPaid balance : ℤ)
  dueDate : Option Civil
  (voidedAt paidAt markedOverdueAt : Option Instant)
  deriving DecidableEq

inductive PaymentId where
  | existing (n : ℕ)
  | created (call : ℕ)
  deriving DecidableEq

structure Payment where
  amount : ℤ
  method : String
  reference : Option String
  deriving DecidableEq

inductive MappingStatus where
  | pending
  | succeeded
  | failed
  | refunded
  | partiallyRefunded
  deriving DecidableEq

structure Mapping where
  invoicePaymentId : Option PaymentId
  stripeAccountId : String
  stripePaymentIntentId : Option String
  status : MappingStatus
  deriving DecidableEq

abbrev PaymentRow := Row ℕ (Option Payment)

structure PaymentDb where
  invoice : Row ℕ MoneyRow
  payments : List (PaymentId × PaymentRow)
  mapping : Row ℕ (Option Mapping)

namespace PaymentDb

def amountOf (p : Option Payment) : ℤ := (p.map Payment.amount).getD 0

def paidSeenBy (t : ℕ) (db : PaymentDb) : ℤ := (db.payments.map fun p => amountOf (p.2.read t)).sum

def paid (db : PaymentDb) : ℤ := (db.payments.map fun p => amountOf p.2.committed).sum

def insertPayment (t : ℕ) (p : Payment) (db : PaymentDb) : PaymentDb :=
  { db with payments := db.payments ++ [(.created t, (Row.unheld none).write t (some p))] }

def deletePayment (t : ℕ) (id : PaymentId) (db : PaymentDb) : PaymentDb :=
  { db with payments := db.payments.map fun p => if p.1 = id then (p.1, p.2.write t none) else p }

def commit (t : ℕ) (db : PaymentDb) : PaymentDb where
  invoice := db.invoice.commit t
  payments := db.payments.map fun p => (p.1, p.2.commit t)
  mapping := db.mapping.commit t

def rollback (t : ℕ) (db : PaymentDb) : PaymentDb where
  invoice := db.invoice.rollback t
  payments := db.payments.map fun p => (p.1, p.2.rollback t)
  mapping := db.mapping.rollback t

end PaymentDb

structure RecordPaymentInput where
  amount : ℤ
  method : String
  reference : Option String

structure CaptureInput where
  (stripePaymentIntentId stripeAccountId : String)
  amount : ℤ
  currency : String

inductive PaymentCall where
  | recordPayment (input : RecordPaymentInput)
  | voidPayment (id : PaymentId)
  | recordStripePayment (input : CaptureInput)

inductive PaymentError where
  | draft
  | void
  | overpayment
  | paymentNotFound
  | noMapping
  | constraint
  | aborted
  deriving DecidableEq

/-- How far a call has come. The stages from `changed` on are the statements of
`recomputeInvoiceStatus`, which every call ends with. -/
inductive PaymentStage where
  | start
  | loaded
  | mapped (m : Mapping)
  | checked
  | refused
  | inserted
  | changed
  | invoiceRead (inv : MoneyRow)
  | summed (inv : MoneyRow) (amountPaid : ℤ)
  | written
  | returned
  | threw (e : PaymentError)
  deriving DecidableEq

structure PaymentProc where
  call : PaymentCall
  stage : PaymentStage

/-- The columns `recomputeInvoiceStatus` writes, from the invoice and the sum it has read. -/
def recomputed (inv : MoneyRow) (amountPaid : ℤ) (now : Instant) (row : MoneyRow) : MoneyRow :=
  let status := deriveInvoiceStatus inv.voidedAt.isSome inv.invoiceNumber.isSome inv.total amountPaid inv.dueDate now
  { row with
    amountPaid, balance := inv.total - amountPaid, status
    paidAt := if status = .paid ∧ inv.paidAt = none then some now else row.paidAt
    markedOverdueAt := if status = .overdue ∧ inv.markedOverdueAt = none then some now else row.markedOverdueAt }

def recomputeInvoiceStatus (t : ℕ) (now : Instant) (db : PaymentDb) : PaymentStage → Option (PaymentDb × PaymentStage)
  | .changed => some (db, .invoiceRead (db.invoice.read t))
  | .invoiceRead inv => some (db, .summed inv (db.paidSeenBy t))
  | .summed inv amountPaid =>
    if db.invoice.Free t then
      some ({ db with invoice := db.invoice.write t (recomputed inv amountPaid now (db.invoice.read t)) }, .written)
    else none
  | .written => some (db.commit t, .returned)
  | _ => none

def insertStep (t : ℕ) (p : Payment) (next : PaymentStage) (db : PaymentDb) : PaymentDb × PaymentStage :=
  if 0 < p.amount then (db.insertPayment t p, next) else (db.rollback t, .threw .constraint)

def recordPaymentStep (input : RecordPaymentInput) (t : ℕ) (now : Instant) (db : PaymentDb) :
    PaymentStage → Option (PaymentDb × PaymentStage)
  | .start =>
    let inv := db.invoice.read t
    if inv.status = .draft then some (db, .threw .draft)
    else if inv.status = .void then some (db, .threw .void)
    else if inv.balance < input.amount then some (db, .threw .overpayment)
    else some (db, .loaded)
  | .loaded => some (insertStep t ⟨input.amount, input.method, input.reference⟩ .changed db)
  | stage => recomputeInvoiceStatus t now db stage

/-- The link of a mapping to a deleted payment is set to null; a mapping that has succeeded must
keep its link, so that the delete fails. -/
def unlink (t : ℕ) (id : PaymentId) (db : PaymentDb) : Option (Except PaymentError PaymentDb) :=
  match db.mapping.read t with
  | some m =>
    if m.invoicePaymentId = some id then
      if db.mapping.Free t then
        if m.status = .succeeded then some (.error .constraint)
        else some (.ok { db with mapping := db.mapping.write t (some { m with invoicePaymentId := none }) })
      else none
    else some (.ok db)
  | none => some (.ok db)

def voidPaymentStep (id : PaymentId) (t : ℕ) (now : Instant) (db : PaymentDb) :
    PaymentStage → Option (PaymentDb × PaymentStage)
  | .start =>
    if db.payments.any (fun p => p.1 == id && (p.2.read t).isSome) then some (db, .loaded)
    else some (db, .threw .paymentNotFound)
  | .loaded =>
    if ∀ p ∈ db.payments, p.1 = id → p.2.Free t then
      match unlink t id db with
      | none => none
      | some (.error e) => some (db.rollback t, .threw e)
      | some (.ok next) => some (next.deletePayment t id, .changed)
    else none
  | stage => recomputeInvoiceStatus t now db stage

def refuses (input : CaptureInput) (inv : MoneyRow) (m : Mapping) : Bool :=
  inv.status == .draft || inv.status == .void ||
    input.currency.toUpper != inv.currencyCode.toUpper ||
    (input.stripeAccountId == "" || input.stripeAccountId != m.stripeAccountId) || decide (inv.balance < input.amount)

def updateMapping (t : ℕ) (f : Mapping → Mapping) (next : PaymentStage) (db : PaymentDb) :
    Option (PaymentDb × PaymentStage) :=
  if db.mapping.Free t then some ({ db with mapping := db.mapping.write t ((db.mapping.read t).map f) }, next)
  else none

/-- The mapping is read without a lock; only a call that finds it unlinked goes on. -/
def recordStripePaymentStep (input : CaptureInput) (t : ℕ) (now : Instant) (db : PaymentDb) :
    PaymentStage → Option (PaymentDb × PaymentStage)
  | .start =>
    match db.mapping.read t with
    | none => some (db, .threw .noMapping)
    | some m => some (db, if m.invoicePaymentId.isSome then .returned else .mapped m)
  | .mapped m => some (db, if refuses input (db.invoice.read t) m then .refused else .checked)
  | .checked => some (insertStep t ⟨input.amount, "card", some input.stripePaymentIntentId⟩ .inserted db)
  | .refused => updateMapping t (fun m => { m with status := .failed }) .written db
  | .inserted =>
    updateMapping t (fun m => { m with
      invoicePaymentId := some (.created t), status := .succeeded,
      stripePaymentIntentId := some input.stripePaymentIntentId }) .changed db
  | stage => recomputeInvoiceStatus t now db stage

inductive PaymentAction where
  | exec (now : Instant)
  | fail

def PaymentStage.Ended : PaymentStage → Prop
  | .returned | .threw _ => True
  | _ => False

instance PaymentStage.decidableEnded (stage : PaymentStage) : Decidable stage.Ended := by
  cases stage <;> first | exact isTrue trivial | exact isFalse id

def callStep : PaymentCall → ℕ → Instant → PaymentDb → PaymentStage → Option (PaymentDb × PaymentStage)
  | .recordPayment input => recordPaymentStep input
  | .voidPayment id => voidPaymentStep id
  | .recordStripePayment input => recordStripePaymentStep input

/-- The next statement of a call, or its failure at any point, which rolls it back. -/
def paymentAct (t : ℕ) (action : PaymentAction) (db : PaymentDb) (p : PaymentProc) :
    Option (PaymentDb × PaymentProc) :=
  match action with
  | .exec now => (callStep p.call t now db p.stage).map fun next => (next.1, ⟨p.call, next.2⟩)
  | .fail => if p.stage.Ended then none else some (db.rollback t, ⟨p.call, .threw .aborted⟩)

end RemudaRmm.Billing
