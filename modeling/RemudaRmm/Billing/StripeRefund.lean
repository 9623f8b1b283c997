import Mathlib
import RemudaRmm.Billing.PaymentRuns

/-! One captured Stripe charge and its refunds (`stripeReconcile.ts`, `stripeWebhook.ts`, `stripeMoney.ts`), every call
and event one atomic step that commits or leaves the rows as they were. A refund event carries the cumulative amount. -/
namespace RemudaRmm.Billing
open Foundation List Row List

def zeroDecimal : List String :=
  ["BIF", "CLP", "DJF", "GNF", "JPY", "KMF", "KRW", "MGA", "PYG", "RWF", "UGX", "VND", "VUV", "XAF", "XOF", "XPF"]

def fromMinorUnits (minor : ℤ) (currency : String) : ℤ :=
  if currency.toUpper ∈ zeroDecimal then minor * 100 else minor

/-- The rows of one invoice, its payments and one Stripe mapping, between transactions. -/
structure StripeRows where
  invoice : MoneyRow
  payments : List (PaymentId × Payment)
  mapping : Mapping

namespace StripeRows

def paid (s : StripeRows) : ℤ := (s.payments.map fun p => p.2.amount).sum

def recompute (now : Instant) (s : StripeRows) : StripeRows :=
  { s with invoice := recomputed s.invoice s.paid now s.invoice }

end StripeRows

def recordStripePayment (input : CaptureInput) (id : PaymentId) (now : Instant) (s : StripeRows) :
    Except PaymentError StripeRows :=
  if s.mapping.invoicePaymentId.isSome then .ok s
  else if refuses input s.invoice s.mapping then .ok { s with mapping := { s.mapping with status := .failed } }
  else if 0 < input.amount then
    .ok (StripeRows.recompute now { s with
      payments := s.payments ++ [(id, ⟨input.amount, "card", some input.stripePaymentIntentId⟩)]
      mapping := { s.mapping with
        invoicePaymentId := some id, status := .succeeded,
        stripePaymentIntentId := some input.stripePaymentIntentId } })
  else .error .constraint

structure RefundInput where
  stripePaymentIntentId : String
  (amountRefundedCents chargeAmountCents : ℤ)
  (currency stripeAccountId : String)

/-- A full refund deletes the payment first. The delete sets the link of the mapping to null, which a
mapping still marked succeeded may not have, so that the transaction fails. -/
def refundInFull (paymentId : PaymentId) (s : StripeRows) : Except PaymentError StripeRows :=
  if s.mapping.status = .succeeded then .error .constraint
  else .ok { s with
    payments := s.payments.filter fun p => p.1 ≠ paymentId
    mapping := { s.mapping with status := .refunded, invoicePaymentId := none } }

/-- A partial refund sets the amount of the payment from the event's own figures. -/
def refundInPart (input : RefundInput) (paymentId : PaymentId) (s : StripeRows) : StripeRows :=
  let remaining := fromMinorUnits (input.chargeAmountCents - input.amountRefundedCents) input.currency
  { s with
    payments := s.payments.map fun p => if p.1 = paymentId then (p.1, { p.2 with amount := remaining }) else p
    mapping := { s.mapping with status := .partiallyRefunded } }

def reflectStripeRefund (input : RefundInput) (now : Instant) (s : StripeRows) : Except PaymentError StripeRows :=
  if s.mapping.stripePaymentIntentId = some input.stripePaymentIntentId then
    match s.mapping.invoicePaymentId with
    | none => .ok s
    | some paymentId =>
      if input.stripeAccountId = "" ∨ input.stripeAccountId ≠ s.mapping.stripeAccountId then .ok s
      else if input.chargeAmountCents ≤ input.amountRefundedCents then
        (refundInFull paymentId s).map (StripeRows.recompute now)
      else .ok (StripeRows.recompute now (refundInPart input paymentId s))
  else .ok s

structure Charge where
  (stripePaymentIntentId stripeAccountId : String)
  amountCents : ℤ
  currency : String

/-- A delivery for one charge, at a time: the capture, with the id its payment would get, or a refund
with its cumulative amount. -/
inductive StripeEvent where
  | captured (call : ℕ) (now : Instant)
  | refunded (amountRefundedCents : ℤ) (now : Instant)

/-- What `handleStripeEvent` and `settleCheckoutSession` hand on. -/
def handleStripeEvent (charge : Charge) (s : StripeRows) : StripeEvent → Except PaymentError StripeRows
  | .captured call now =>
    let currency := charge.currency.toUpper
    recordStripePayment
      ⟨charge.stripePaymentIntentId, charge.stripeAccountId, fromMinorUnits charge.amountCents currency, currency⟩
      (.created call) now s
  | .refunded amountRefundedCents now =>
    reflectStripeRefund
      ⟨charge.stripePaymentIntentId, amountRefundedCents, charge.amountCents, charge.currency, charge.stripeAccountId⟩
      now s

def deliver (charge : Charge) (s : StripeRows) (e : StripeEvent) : StripeRows :=
  match handleStripeEvent charge s e with
  | .ok next => next
  | .error _ => s

def StripeRows.db (s : StripeRows) : PaymentDb :=
  ⟨.unheld s.invoice, s.payments.map fun p => (p.1, .unheld (some p.2)), .unheld (some s.mapping)⟩

def Alone (call : PaymentCall) (t : ℕ) (now : Instant) (x y : PaymentDb × PaymentStage) : Prop :=
  callStep call t now x.1 x.2 = some y

theorem StripeRows.payments_commit (s : StripeRows) (t : ℕ) :
    (s.db.payments.map fun p => (p.1, p.2.commit t)) = s.db.payments := by
  rw [StripeRows.db, map_map]
  exact map_congr_left fun p _ => Prod.ext rfl (commit_unheld t _)

theorem StripeRows.payments_insertPayment (s : StripeRows) (t : ℕ) (p : Payment) :
    ((s.db.insertPayment t p).payments.map fun q => (q.1, q.2.commit t)) =
      (s.payments ++ [(PaymentId.created t, p)]).map fun q => (q.1, .unheld (some q.2)) := by
  rw [PaymentDb.insertPayment, map_append, map_append, map_singleton, map_singleton, s.payments_commit t, commit_write]
  rfl

theorem StripeRows.payments_rollback (s : StripeRows) (t : ℕ) :
    (s.db.payments.map fun p => (p.1, p.2.rollback t)) = s.db.payments := by
  rw [StripeRows.db, map_map]
  exact map_congr_left fun p _ => Prod.ext rfl (rollback_unheld t _)

theorem StripeRows.paidSeenBy_insertPayment (s : StripeRows) (t : ℕ) (p : Payment) :
    (s.db.insertPayment t p).paidSeenBy t = s.paid + p.amount := by
  simp only [PaymentDb.paidSeenBy, PaymentDb.insertPayment, StripeRows.db, map_append, map_map,
    sum_append, map_singleton, sum_singleton, read_write, StripeRows.paid]
  rfl

section Alone
variable {input : CaptureInput} {t : ℕ} {now : Instant} {s : StripeRows}

theorem alone_unlinked (unlinked : s.mapping.invoicePaymentId.isSome = false) :
    Alone (.recordStripePayment input) t now (s.db, .start) (s.db, .mapped s.mapping) := by
  simp only [Alone, callStep, recordStripePaymentStep, StripeRows.db, read_unheld, unlinked, Bool.false_eq_true,
    if_false]

theorem alone_refused (refusal : refuses input s.invoice s.mapping = true) :
    Relation.ReflTransGen (Alone (.recordStripePayment input) t now) (s.db, .mapped s.mapping)
      ({ s with mapping := { s.mapping with status := .failed } : StripeRows }.db, .returned) := by
  have judged : Alone (.recordStripePayment input) t now (s.db, .mapped s.mapping) (s.db, .refused) := by
    simp only [Alone, callStep, recordStripePaymentStep, StripeRows.db, read_unheld, refusal, if_true]
  have marked : Alone (.recordStripePayment input) t now (s.db, .refused)
      ({ s.db with mapping := s.db.mapping.write t (some { s.mapping with status := .failed }) }, .written) := by
    rw [Alone, callStep, recordStripePaymentStep, updateMapping]
    exact if_pos (free_unheld t (some s.mapping))
  refine ((Relation.ReflTransGen.single judged).tail marked).tail ?_
  simp only [Alone, callStep, recordStripePaymentStep, recomputeInvoiceStatus, PaymentDb.commit, commit_write,
    s.payments_commit t]
  rfl

theorem alone_passed (passed : refuses input s.invoice s.mapping = false) :
    Alone (.recordStripePayment input) t now (s.db, .mapped s.mapping) (s.db, .checked) := by
  simp only [Alone, callStep, recordStripePaymentStep, StripeRows.db, read_unheld, passed, Bool.false_eq_true, if_false]

theorem alone_recorded (passed : refuses input s.invoice s.mapping = false) (positive : 0 < input.amount) :
    Relation.ReflTransGen (Alone (.recordStripePayment input) t now) (s.db, .mapped s.mapping)
      ((StripeRows.recompute now { s with
        payments := s.payments ++ [(.created t, ⟨input.amount, "card", some input.stripePaymentIntentId⟩)]
        mapping := { s.mapping with
          invoicePaymentId := some (.created t), status := .succeeded,
          stripePaymentIntentId := some input.stripePaymentIntentId } }).db, .returned) := by
  let p : Payment := ⟨input.amount, "card", some input.stripePaymentIntentId⟩
  let m : Mapping := { s.mapping with
    invoicePaymentId := some (.created t), status := .succeeded,
    stripePaymentIntentId := some input.stripePaymentIntentId }
  let inserted := s.db.insertPayment t p
  let linked := { inserted with mapping := inserted.mapping.write t (some m) }
  let row := recomputed s.invoice (s.paid + input.amount) now s.invoice
  let written := { linked with invoice := linked.invoice.write t row }
  have inserts : Alone (.recordStripePayment input) t now (s.db, .checked) (inserted, .inserted) := by
    rw [Alone, callStep, recordStripePaymentStep, insertStep]
    exact congrArg some (if_pos positive)
  have links : Alone (.recordStripePayment input) t now (inserted, .inserted) (linked, .changed) := by
    rw [Alone, callStep, recordStripePaymentStep, updateMapping]
    exact if_pos (free_unheld t (some s.mapping))
  have reads : Alone (.recordStripePayment input) t now (linked, .changed) (linked, .invoiceRead s.invoice) := rfl
  have sums : Alone (.recordStripePayment input) t now (linked, .invoiceRead s.invoice)
      (linked, .summed s.invoice (s.paid + input.amount)) :=
    congrArg (fun sum => some (linked, PaymentStage.summed s.invoice sum)) (s.paidSeenBy_insertPayment t p)
  have writes : Alone (.recordStripePayment input) t now (linked, .summed s.invoice (s.paid + input.amount))
      (written, .written) := by
    simp only [Alone, callStep, recordStripePaymentStep, recomputeInvoiceStatus]
    exact if_pos (free_unheld t s.invoice)
  have attached := ((Relation.ReflTransGen.single (alone_passed passed)).tail inserts).tail links
  refine (((attached.tail reads).tail sums).tail writes).tail ?_
  have invoice : written.invoice.commit t = .unheld row := commit_write t row _
  have mapping : written.mapping.commit t = .unheld (some m) := commit_write t (some m) _
  have payments : written.payments.map (fun q => (q.1, q.2.commit t)) =
      (s.payments ++ [(PaymentId.created t, p)]).map fun q => (q.1, .unheld (some q.2)) :=
    s.payments_insertPayment t p
  have total : StripeRows.paid { s with payments := s.payments ++ [(.created t, p)], mapping := m } =
      s.paid + input.amount := by
    rw [StripeRows.paid, StripeRows.paid, map_append, sum_append, map_singleton, sum_singleton]
  simp only [Alone, callStep, recordStripePaymentStep, recomputeInvoiceStatus, PaymentDb.commit, invoice, mapping,
    payments, StripeRows.db, StripeRows.recompute]
  exact total ▸ rfl

theorem alone_constraint (passed : refuses input s.invoice s.mapping = false) (nothing : ¬0 < input.amount) :
    Relation.ReflTransGen (Alone (.recordStripePayment input) t now) (s.db, .mapped s.mapping)
      (s.db, .threw .constraint) := by
  refine (Relation.ReflTransGen.single (alone_passed passed)).tail ?_
  have undone : s.db.rollback t = s.db := by
    rw [PaymentDb.rollback, s.payments_rollback t, rollback_of_quiet rfl, rollback_of_quiet rfl]
  rw [Alone, callStep, recordStripePaymentStep, insertStep, if_neg nothing, undone]

end Alone

theorem recordStripePayment_alone (input : CaptureInput) (t : ℕ) (now : Instant) (s : StripeRows) :
    Relation.ReflTransGen (Alone (.recordStripePayment input) t now) (s.db, .start)
      (match recordStripePayment input (.created t) now s with
      | .ok next => (next.db, .returned)
      | .error e => (s.db, .threw e)) := by
  unfold recordStripePayment
  split_ifs with linked refusal positive
  · refine Relation.ReflTransGen.single ?_
    simp only [Alone, callStep, recordStripePaymentStep, StripeRows.db, read_unheld, linked, if_true]
  · exact (alone_refused refusal).head (alone_unlinked (Bool.not_eq_true _ ▸ linked))
  · exact (alone_recorded (Bool.not_eq_true _ ▸ refusal) positive).head (alone_unlinked (Bool.not_eq_true _ ▸ linked))
  · refine (alone_constraint (Bool.not_eq_true _ ▸ refusal) positive).head
      (alone_unlinked (Bool.not_eq_true _ ▸ linked))

theorem toUpper_toUpper (s : String) : s.toUpper.toUpper = s.toUpper := by
  apply String.toList_injective
  rw [String.toUpper, String.toUpper, String.toList_map, String.toList_map, map_map]
  exact map_congr_left fun c _ => Char.toUpper_toUpper_eq_toUpper c

theorem fromMinorUnits_toUpper (minor : ℤ) (currency : String) :
    fromMinorUnits minor currency.toUpper = fromMinorUnits minor currency := by
  rw [fromMinorUnits, fromMinorUnits, toUpper_toUpper]

theorem fromMinorUnits_pos {minor : ℤ} (positive : 0 < minor) (currency : String) :
    0 < fromMinorUnits minor currency := by
  unfold fromMinorUnits
  split_ifs
  · exact Int.mul_pos positive (by decide)
  · exact positive

theorem fromMinorUnits_injective {a b : ℤ} {currency : String}
    (same : fromMinorUnits a currency = fromMinorUnits b currency) : a = b := by
  unfold fromMinorUnits at same
  split_ifs at same
  · exact Int.eq_of_mul_eq_mul_right (by decide) same
  · exact same

theorem deriveInvoiceStatus_issued (total amountPaid : ℤ) (dueDate : Option Civil) (now : Instant) :
    deriveInvoiceStatus false true total amountPaid dueDate now ≠ .draft ∧
      deriveInvoiceStatus false true total amountPaid dueDate now ≠ .void := by
  unfold deriveInvoiceStatus
  simp only [Bool.false_eq_true, if_false, Bool.not_true]
  split_ifs <;> exact ⟨nofun, nofun⟩

/-- An issued invoice that a charge can still be recorded on. -/
structure Chargeable (charge : Charge) (s : StripeRows) : Prop where
  issued : s.invoice.invoiceNumber.isSome = true
  live : s.invoice.voidedAt = none
  payable : s.invoice.status ≠ .draft ∧ s.invoice.status ≠ .void
  currency : s.invoice.currencyCode.toUpper = charge.currency.toUpper
  account : charge.stripeAccountId ≠ "" ∧ s.mapping.stripeAccountId = charge.stripeAccountId
  unlinked : s.mapping.invoicePaymentId = none
  fresh : ∀ p ∈ s.payments, ∀ call, p.1 ≠ .created call
  balance : s.invoice.balance = s.invoice.total - s.paid
  positive : 0 < charge.amountCents
  covered : fromMinorUnits charge.amountCents charge.currency ≤ s.invoice.balance

def refundedSoFar (r : ℤ) : StripeEvent → ℤ
  | .captured _ _ => r
  | .refunded amount _ => max r amount

def maxRefund (es : List StripeEvent) : ℤ := es.foldl refundedSoFar 0

/-- A delivery, with the greatest refund so far beside the rows. -/
def track (charge : Charge) (x : ℤ × StripeRows) (e : StripeEvent) : ℤ × StripeRows :=
  (refundedSoFar x.1 e, deliver charge x.2 e)

/-- What the rows are to be when `r` is the greatest refund: a linked payment of what is left, or no
payment and the balance from before the charge. -/
def Reflects (charge : Charge) (before : StripeRows) (r : ℤ) (s : StripeRows) : Prop :=
  if r < charge.amountCents then
    ∃ id p, s.mapping.invoicePaymentId = some id ∧ s.payments = before.payments ++ [(id, p)] ∧
      p.amount = fromMinorUnits (charge.amountCents - r) charge.currency ∧
      s.invoice.balance = before.invoice.balance - p.amount
  else s.mapping.invoicePaymentId = none ∧ s.payments = before.payments ∧ s.invoice.balance = before.invoice.balance

/-- An event the code takes in its right place: no capture after the full refund, no refund smaller
than an earlier one before it, and no full refund straight from the recorded charge. -/
def InOrder (charge : Charge) (r : ℤ) : StripeEvent → Prop
  | .captured _ _ => r < charge.amountCents
  | .refunded amount _ => r = charge.amountCents ∨ (r ≤ amount ∧ (amount = charge.amountCents → 0 < r))

section Position
variable (charge : Charge) (before : StripeRows)

/-- The invoice as every recomputation leaves it. -/
structure KeptInvoice (s : StripeRows) : Prop where
  total : s.invoice.total = before.invoice.total
  issued : s.invoice.invoiceNumber.isSome = true
  live : s.invoice.voidedAt = none
  payable : s.invoice.status ≠ .draft ∧ s.invoice.status ≠ .void
  currency : s.invoice.currencyCode = before.invoice.currencyCode
  balance : s.invoice.balance = s.invoice.total - s.paid

structure KeptMapping (s : StripeRows) : Prop where
  account : s.mapping.stripeAccountId = before.mapping.stripeAccountId
  intent : s.mapping.stripePaymentIntentId = some charge.stripePaymentIntentId

/-- Where the rows stand after refunds of at most `r`. -/
inductive Position (r : ℤ) (s : StripeRows) : Prop where
  | linked (nonneg : 0 ≤ r) (room : r < charge.amountCents) (call : ℕ) (p : Payment)
      (link : s.mapping.invoicePaymentId = some (.created call))
      (status : s.mapping.status = if r = 0 then .succeeded else .partiallyRefunded)
      (payments : s.payments = before.payments ++ [(.created call, p)])
      (amount : p.amount = fromMinorUnits (charge.amountCents - r) charge.currency)
      (invoice : KeptInvoice before s) (mapping : KeptMapping charge before s)
  | refunded (full : r = charge.amountCents) (link : s.mapping.invoicePaymentId = none)
      (payments : s.payments = before.payments) (invoice : KeptInvoice before s) (mapping : KeptMapping charge before s)

end Position

section Delivery
variable {charge : Charge} {before s : StripeRows} {r : ℤ}
variable {call : ℕ} {p : Payment}

theorem keptInvoice_recompute (now : Instant) (total : s.invoice.total = before.invoice.total)
    (issued : s.invoice.invoiceNumber.isSome = true) (live : s.invoice.voidedAt = none)
    (currency : s.invoice.currencyCode = before.invoice.currencyCode) : KeptInvoice before (s.recompute now) := by
  refine ⟨total, issued, live, ?_, currency, rfl⟩
  simp only [StripeRows.recompute, recomputed, live, issued, Option.isSome_none]
  exact deriveInvoiceStatus_issued _ _ _ _

theorem KeptInvoice.recompute (kept : KeptInvoice before s) (now : Instant) {next : StripeRows}
    (same : next.invoice = s.invoice) : KeptInvoice before (next.recompute now) :=
  keptInvoice_recompute now (same ▸ kept.total) (same ▸ kept.issued) (same ▸ kept.live) (same ▸ kept.currency)

theorem Position.reflects (chargeable : Chargeable charge before) (position : Position charge before r s) :
    Reflects charge before r s := by
  cases position with
  | linked nonneg room call p link status payments amount invoice mapping =>
    refine (if_pos room).mpr ⟨.created call, p, link, payments, amount, ?_⟩
    rw [invoice.balance, invoice.total, chargeable.balance, sub_sub, StripeRows.paid, payments, map_append,
      sum_append, StripeRows.paid, map_singleton, sum_singleton]
  | refunded full link payments invoice mapping =>
    refine (if_neg full.not_lt).mpr ⟨link, payments, ?_⟩
    rw [invoice.balance, invoice.total, chargeable.balance, StripeRows.paid, payments, StripeRows.paid]

theorem deliver_captured_linked (link : s.mapping.invoicePaymentId.isSome = true) (call : ℕ) (now : Instant) :
    deliver charge s (.captured call now) = s := by
  simp only [deliver, handleStripeEvent, recordStripePayment, link, if_true]

theorem deliver_captured_unlinked (positive : 0 < charge.amountCents) (link : s.mapping.invoicePaymentId = none)
    (payable : s.invoice.status ≠ .draft ∧ s.invoice.status ≠ .void)
    (currency : s.invoice.currencyCode.toUpper = charge.currency.toUpper)
    (account : charge.stripeAccountId ≠ "" ∧ s.mapping.stripeAccountId = charge.stripeAccountId)
    (covered : fromMinorUnits charge.amountCents charge.currency ≤ s.invoice.balance) (call : ℕ) (now : Instant) :
    deliver charge s (.captured call now) = StripeRows.recompute now { s with
      payments := s.payments ++ [(.created call,
        ⟨fromMinorUnits charge.amountCents charge.currency, "card", some charge.stripePaymentIntentId⟩)]
      mapping := { s.mapping with
        invoicePaymentId := some (.created call), status := .succeeded,
        stripePaymentIntentId := some charge.stripePaymentIntentId } } := by
  have unlinked : s.mapping.invoicePaymentId.isSome = false := by rw [link]; rfl
  have passed : ∀ amount, amount ≤ s.invoice.balance →
      refuses ⟨charge.stripePaymentIntentId, charge.stripeAccountId, amount, charge.currency.toUpper⟩ s.invoice
        s.mapping = false := by
    intro amount enough
    simp only [refuses, toUpper_toUpper, currency, account.2, bne_self_eq_false, Bool.or_false, Bool.or_eq_false_iff,
      beq_eq_false_iff_ne, decide_eq_false_iff_not, not_lt]
    exact ⟨⟨payable, account.1⟩, enough⟩
  simp only [deliver, handleStripeEvent, recordStripePayment, unlinked, Bool.false_eq_true, if_false,
    fromMinorUnits_toUpper, passed _ covered, fromMinorUnits_pos positive, if_true]

theorem deliver_refunded_unlinked (link : s.mapping.invoicePaymentId = none) (amount : ℤ) (now : Instant) :
    deliver charge s (.refunded amount now) = s := by
  simp only [deliver, handleStripeEvent, reflectStripeRefund, link, ite_self]

theorem deliver_refunded_linked {id : PaymentId} (link : s.mapping.invoicePaymentId = some id)
    (intent : s.mapping.stripePaymentIntentId = some charge.stripePaymentIntentId)
    (account : charge.stripeAccountId ≠ "" ∧ s.mapping.stripeAccountId = charge.stripeAccountId) (amount : ℤ)
    (now : Instant) : deliver charge s (.refunded amount now) = if charge.amountCents ≤ amount then
        if s.mapping.status = .succeeded then s
        else StripeRows.recompute now { s with
          payments := s.payments.filter fun p => p.1 ≠ id
          mapping := { s.mapping with status := .refunded, invoicePaymentId := none } }
      else StripeRows.recompute now (refundInPart
        ⟨charge.stripePaymentIntentId, amount, charge.amountCents, charge.currency, charge.stripeAccountId⟩ id s) := by
  have bound : ¬(charge.stripeAccountId = "" ∨ charge.stripeAccountId ≠ s.mapping.stripeAccountId) :=
    fun mismatch => mismatch.elim account.1 fun other => other account.2.symm
  unfold deliver handleStripeEvent reflectStripeRefund
  simp only [if_pos intent, link, if_neg bound]
  split_ifs with full succeeded
  · simp only [refundInFull, succeeded, if_true, Except.map]
  · simp only [refundInFull, succeeded, if_false, Except.map]
  · rfl

theorem filter_fresh (fresh : ∀ q ∈ before.payments, ∀ call, q.1 ≠ .created call) :
    ((before.payments ++ [(PaymentId.created call, p)]).filter fun q => q.1 ≠ PaymentId.created call) = before.payments := by
  rw [filter_append, filter_eq_self.mpr fun q listed => decide_eq_true (fresh q listed call)]
  simp only [ne_eq, not_true_eq_false, decide_false, filter_cons_of_neg, Bool.false_eq_true, not_false_eq_true,
    filter_nil, append_nil]

theorem map_fresh (f : Payment → Payment) (fresh : ∀ q ∈ before.payments, ∀ call, q.1 ≠ .created call) :
    ((before.payments ++ [(PaymentId.created call, p)]).map fun q =>
        if q.1 = PaymentId.created call then (q.1, f q.2) else q) =
      before.payments ++ [(.created call, f p)] := by
  rw [map_append, map_singleton, if_pos rfl]
  refine congrArg (· ++ _) ((map_congr_left fun q listed => ?_).trans (map_id _))
  rw [if_neg (fresh q listed call), id]

theorem Position.deliver_linked (chargeable : Chargeable charge before)
    (link : s.mapping.invoicePaymentId = some (.created call))
    (payments : s.payments = before.payments ++ [(.created call, p)]) (invoice : KeptInvoice before s)
    (mapping : KeptMapping charge before s) {amount : ℤ} (positive : 0 < amount) (part : amount < charge.amountCents)
    (now : Instant) : Position charge before amount (deliver charge s (.refunded amount now)) := by
  have account := And.intro chargeable.account.1 (mapping.account.trans chargeable.account.2)
  rw [deliver_refunded_linked link mapping.intent account, if_neg part.not_ge]
  refine .linked positive.le part call { p with amount := _ } link ?_ ?_ rfl (invoice.recompute now rfl)
    ⟨mapping.account, mapping.intent⟩
  · rw [if_neg positive.ne']
    rfl
  · simp only [StripeRows.recompute, refundInPart, payments]
    exact map_fresh (fun q => { q with amount := _ }) chargeable.fresh

theorem Position.keep (chargeable : Chargeable charge before) (position : Position charge before r s) {e : StripeEvent}
    (cumulative : ∀ amount now, e = .refunded amount now → 0 < amount ∧ amount ≤ charge.amountCents)
    (inOrder : InOrder charge r e) : Position charge before (refundedSoFar r e) (deliver charge s e) := by
  cases e with
  | captured call now =>
    cases position with
    | linked nonneg room call' p link status payments amount invoice mapping =>
      rw [deliver_captured_linked (by rw [link]; rfl)]
      exact .linked nonneg room call' p link status payments amount invoice mapping
    | refunded full link payments invoice mapping => exact absurd inOrder full.not_lt
  | refunded amount now =>
    obtain ⟨positive, most⟩ := cumulative amount now rfl
    cases position with
    | refunded full link payments invoice mapping =>
      rw [deliver_refunded_unlinked link, refundedSoFar, max_eq_left (full ▸ most)]
      exact .refunded full link payments invoice mapping
    | linked nonneg room call p link status payments left invoice mapping =>
      obtain ⟨greater, gradual⟩ := inOrder.resolve_left room.ne
      rw [refundedSoFar, max_eq_right greater]
      obtain full | part := most.eq_or_lt
      · have account := And.intro chargeable.account.1 (mapping.account.trans chargeable.account.2)
        rw [if_neg (gradual full).ne'] at status
        rw [deliver_refunded_linked link mapping.intent account, if_pos full.ge, status, if_neg nofun]
        refine .refunded full rfl ?_ (invoice.recompute now rfl) ⟨mapping.account, mapping.intent⟩
        simp only [StripeRows.recompute, payments]
        exact filter_fresh chargeable.fresh
      · exact Position.deliver_linked chargeable link payments invoice mapping positive part now

theorem not_reflects_of_payment {id : PaymentId} (full : r = charge.amountCents)
    (payments : s.payments = before.payments ++ [(id, p)]) : ¬Reflects charge before r s := by
  intro reflects
  obtain ⟨-, none, -⟩ := (if_neg full.not_lt).mp reflects
  have lengths := congrArg length (payments.symm.trans none)
  rw [length_append, length_singleton] at lengths
  exact absurd lengths (Nat.succ_ne_self _)

theorem Position.breaks (chargeable : Chargeable charge before) (position : Position charge before r s)
    {e : StripeEvent} (cumulative : ∀ amount now, e = .refunded amount now → 0 < amount ∧ amount ≤ charge.amountCents)
    (outOfOrder : ¬InOrder charge r e) : ¬Reflects charge before (refundedSoFar r e) (deliver charge s e) := by
  cases e with
  | captured call now =>
    cases position with
    | linked nonneg room call' p link status payments amount invoice mapping => exact absurd room outOfOrder
    | refunded full link payments invoice mapping =>
      have account := And.intro chargeable.account.1 (mapping.account.trans chargeable.account.2)
      have balance := (Position.refunded full link payments invoice mapping).reflects chargeable
      obtain ⟨-, -, balance⟩ := (if_neg full.not_lt).mp balance
      rw [deliver_captured_unlinked chargeable.positive link invoice.payable (invoice.currency ▸ chargeable.currency)
        account (balance ▸ chargeable.covered)]
      exact not_reflects_of_payment full (congrArg (· ++ _) payments)
  | refunded amount now =>
    obtain ⟨positive, most⟩ := cumulative amount now rfl
    cases position with
    | refunded full link payments invoice mapping => exact absurd (.inl full) outOfOrder
    | linked nonneg room call p link status payments left invoice mapping =>
      have account := And.intro chargeable.account.1 (mapping.account.trans chargeable.account.2)
      obtain full | part := most.eq_or_lt
      · have first : r = 0 := by
          by_contra later
          exact outOfOrder (.inr ⟨(room.trans_eq full.symm).le, fun _ => lt_of_le_of_ne nonneg (Ne.symm later)⟩)
        rw [if_pos first] at status
        rw [deliver_refunded_linked link mapping.intent account, if_pos full.ge, if_pos status, refundedSoFar,
          max_eq_right (room.trans_eq full.symm).le]
        exact not_reflects_of_payment full payments
      · have less : amount < r := by
          by_contra notLess
          exact outOfOrder (.inr ⟨not_lt.mp notLess, fun full => absurd full part.ne⟩)
        intro reflects
        rw [refundedSoFar, max_eq_left less.le] at reflects
        obtain ⟨id, q, -, rows, expected, -⟩ := (if_pos room).mp reflects
        have settled := (Position.deliver_linked chargeable link payments invoice mapping positive part now).reflects
          chargeable
        obtain ⟨id', q', -, rows', got, -⟩ := (if_pos part).mp settled
        obtain ⟨-, last⟩ := append_inj (rows.symm.trans rows') rfl
        obtain ⟨-, same⟩ := Prod.mk.inj (cons.inj last).1
        have amounts := fromMinorUnits_injective (expected.symm.trans ((congrArg Payment.amount same).trans got))
        exact less.ne (sub_right_injective amounts).symm

theorem Chargeable.position (chargeable : Chargeable charge before) (call : ℕ) (now : Instant) :
    Position charge before 0 (deliver charge before (.captured call now)) := by
  rw [deliver_captured_unlinked chargeable.positive chargeable.unlinked chargeable.payable chargeable.currency
    chargeable.account chargeable.covered]
  refine .linked le_rfl chargeable.positive call _ rfl rfl rfl ?_
    (keptInvoice_recompute now rfl chargeable.issued chargeable.live rfl) ⟨rfl, rfl⟩
  rw [sub_zero]

end Delivery

/-- The rows reflect the greatest refund after every part of a sequence of deliveries exactly when each
delivery comes in its place. -/
theorem reconciliation_converges_iff {charge : Charge} {before : StripeRows} (chargeable : Chargeable charge before)
    (call : ℕ) (now : Instant) (es : List StripeEvent)
    (cumulative : ∀ amount now, .refunded amount now ∈ es → 0 < amount ∧ amount ≤ charge.amountCents) :
    (∀ pre post, es = pre ++ post → Reflects charge before (maxRefund pre)
        (pre.foldl (deliver charge) (deliver charge before (.captured call now)))) ↔
      ∀ pre e post, es = pre ++ e :: post → InOrder charge (maxRefund pre) e := by
  have states : ∀ pre : List StripeEvent, pre.foldl (track charge) (0, deliver charge before (.captured call now)) =
      (pre.foldl refundedSoFar 0, pre.foldl (deliver charge) (deliver charge before (.captured call now))) :=
    foldl_pair refundedSoFar (deliver charge) 0 _
  have bounded : ∀ e ∈ es, ∀ amount now, e = .refunded amount now → 0 < amount ∧ amount ≤ charge.amountCents :=
    fun e member amount now same => cumulative amount now (same ▸ member)
  have holds : ∀ x : ℤ × StripeRows, Position charge before x.1 x.2 → Reflects charge before x.1 x.2 :=
    fun _ position => position.reflects chargeable
  have equivalence : Throughout (track charge) (fun x => Reflects charge before x.1 x.2)
        (0, deliver charge before (.captured call now)) es ↔
      StepsMeet (track charge) (fun x e => InOrder charge x.1 e) (0, deliver charge before (.captured call now)) es :=
    throughout_iff holds
      (fun _ e member position inOrder => position.keep chargeable (bounded e member) inOrder)
      (fun _ e member position outOfOrder => position.breaks chargeable (bounded e member) outOfOrder)
      (chargeable.position call now)
  simpa only [Throughout, StepsMeet, states, maxRefund] using equivalence

def dollars : Charge := ⟨"pi", "acct", 10000, "USD"⟩

def unpaid : StripeRows where
  invoice := ⟨.sent, some [], "USD", 10000, 0, 10000, none, none, none, none⟩
  payments := []
  mapping := ⟨none, "acct", none, .pending⟩

def midday : Instant := ⟨⟨2026, 6, 1⟩, 43200000⟩

theorem chargeable_unpaid : Chargeable dollars unpaid where
  issued := rfl
  live := rfl
  payable := ⟨nofun, nofun⟩
  currency := rfl
  account := ⟨by decide, rfl⟩
  unlinked := rfl
  fresh _ listed := absurd listed not_mem_nil
  balance := rfl
  positive := by decide
  covered := by decide +kernel

/-- A refund of 25.00, then one of all the rest. -/
theorem reconciliation_converges_gradual :
    Reflects dollars unpaid 10000 ([.refunded 2500 midday, .refunded 10000 midday].foldl
      (deliver dollars) (deliver dollars unpaid (.captured 0 midday))) := by
  refine (reconciliation_converges_iff chargeable_unpaid 0 midday
    [.refunded 2500 midday, .refunded 10000 midday] ?_).mpr ?_ _ [] (append_nil _).symm
  · intro amount now member
    simp only [mem_cons, not_mem_nil, or_false, StripeEvent.refunded.injEq] at member
    obtain ⟨rfl, -⟩ | ⟨rfl, -⟩ := member <;> decide
  · intro pre e post split
    match pre, split with
    | [], split =>
      obtain ⟨rfl, -⟩ := cons.inj split
      exact .inr ⟨by decide, by decide⟩
    | [_], split =>
      obtain ⟨rfl, tail⟩ := cons.inj split
      obtain ⟨rfl, -⟩ := cons.inj tail
      exact .inr ⟨by decide, by decide⟩
    | _ :: _ :: pre, split =>
      obtain ⟨-, tail⟩ := cons.inj split
      obtain ⟨-, rest⟩ := cons.inj tail
      exact absurd rest (by simp)

/-- A refund of 20.00 in all that arrives after the one of 50.00 in all raises the payment again. -/
theorem reconciliation_diverges :
    Chargeable dollars unpaid ∧ ¬Reflects dollars unpaid (maxRefund [.refunded 5000 midday, .refunded 2000 midday])
        ([.refunded 5000 midday, .refunded 2000 midday].foldl (deliver dollars)
          (deliver dollars unpaid (.captured 0 midday))) := by
  refine ⟨chargeable_unpaid, fun reflects => ?_⟩
  have rows : ([.refunded 5000 midday, .refunded 2000 midday].foldl (deliver dollars)
        (deliver dollars unpaid (.captured 0 midday))).payments = [(.created 0, ⟨8000, "card", some "pi"⟩)] := by
    decide +kernel
  obtain ⟨id, p, -, payments, amount, -⟩ := (if_pos (by decide)).mp reflects
  obtain ⟨-, rfl⟩ := Prod.mk.inj (cons.inj (payments.symm.trans rows)).1
  exact absurd amount (by decide +kernel)

end RemudaRmm.Billing
