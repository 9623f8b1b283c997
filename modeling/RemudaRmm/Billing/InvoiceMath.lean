import Mathlib.Data.Rat.Floor
import RemudaRmm.Foundation.Calendar

/-! Invoice money (`invoiceMath.ts`). `numeric(12,2)` columns are whole cents, on which `toCents` and `fromCents` are
inverse to each other; quantities, unit prices and rates are exact rationals, rounded half up once at the cent
boundary. -/
namespace RemudaRmm.Billing
open Foundation

inductive InvoiceStatus where
  | draft
  | sent
  | partiallyPaid
  | overdue
  | paid
  | void
  deriving DecidableEq

def roundHalfUp (n : ℚ) : ℤ := ⌊n + 1 / 2⌋

def computeLineTotal (quantity unitPrice : ℚ) : ℤ := roundHalfUp (quantity * unitPrice * 100)

structure TotalsLine where
  lineTotal : ℤ
  (taxable customerVisible : Bool)

structure InvoiceTotals where
  (subtotal taxTotal total : ℤ)

/-- Hidden lines count for nothing; the tax is rounded once, on the sum of the taxable lines. -/
def computeInvoiceTotals (lines : List TotalsLine) (taxRate : Option ℚ) : InvoiceTotals :=
  let visible := lines.filter (·.customerVisible)
  let subtotalCents := (visible.map (·.lineTotal)).sum
  let taxableCents := ((visible.filter (·.taxable)).map (·.lineTotal)).sum
  let rate := taxRate.getD 0
  let taxCents := roundHalfUp (taxableCents * rate)
  ⟨subtotalCents, taxCents, subtotalCents + taxCents⟩

/-- The rate columns carry three decimals, so that `toFixed(3)` keeps their value. -/
def resolveEffectiveTaxRate (taxExempt : Bool) (orgRate partnerRate : Option ℚ) : ℚ :=
  if taxExempt then 0 else (orgRate.or partnerRate).getD 0

/-- A clock reading: the UTC day and the milliseconds passed of it. -/
structure Instant where
  day : Civil
  milli : ℕ
  deriving DecidableEq

def pastDue (dueDate : Option Civil) (asOf : Instant) : Bool :=
  match dueDate with
  | none => false
  | some due => due.rank < asOf.day.rank || (due.rank == asOf.day.rank && 86399000 < asOf.milli)

def deriveInvoiceStatus (voided issued : Bool) (total amountPaid : ℤ) (dueDate : Option Civil)
    (asOf : Instant) : InvoiceStatus :=
  if voided then .void
  else if !issued then .draft
  else if total - amountPaid ≤ 0 then .paid
  else if pastDue dueDate asOf then .overdue
  else if 0 < amountPaid then .partiallyPaid
  else .sent

end RemudaRmm.Billing
