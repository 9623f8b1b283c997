import RemudaRmm.Billing.ContractMath
import RemudaRmm.Billing.InvoiceMath
import Mathlib.Data.List.Sort

/-! The contract lifecycle and the billing of one due period (`contractService.ts`). A contract's rows are its own
record, its lines, the claimed periods and the draft invoices made for it; a call is one transaction, so that one that
throws changes nothing. -/
namespace RemudaRmm.Billing
open Foundation

inductive ContractStatus where
  | draft
  | active
  | paused
  | cancelled
  | expired
  deriving DecidableEq

inductive ContractLineType where
  | flat
  | perDevice
  | perSeat
  | manual
  deriving DecidableEq

inductive ErrorCode where
  | orgDenied
  | contractNotFound
  | noLines
  | invalidState
  | invalidAmount
  | itemNotFound

structure ServiceError where
  message : String
  status : ℕ
  code : ErrorCode

structure ContractActor where
  userId : ℕ
  partnerId : Option ℕ
  accessibleOrgIds : Option (List ℕ)

structure Contract where
  (partnerId orgId : ℕ)
  name : String
  status : ContractStatus
  billingTiming : BillingTiming
  intervalMonths : ℕ
  startDate : Text
  (endDate nextBillingAt : Option Text)
  (autoIssue autoRenew : Bool)
  (renewalTermMonths renewalNoticeDays : Option ℕ)
  (notes terms : Option String)
  currencyCode : String
  createdBy : Option ℕ
  deriving DecidableEq

structure ContractLine where
  lineType : ContractLineType
  description : String
  catalogItemId : Option ℕ
  unitPrice : ℚ
  manualQuantity : Option ℚ
  siteId : Option ℕ
  taxable : Bool
  sortOrder : ℕ

structure BillingPeriod where
  period : Period
  invoiceId : ℕ

structure InvoiceLine where
  description : String
  (quantity unitPrice : ℚ)
  costBasis : Option ℚ
  taxable : Bool
  catalogItemId : Option ℕ
  lineTotal : ℤ

structure DraftInvoice where
  (id orgId : ℕ)
  notes : Option String
  lines : List InvoiceLine
  totals : InvoiceTotals

inductive NoticeKind where
  | advance
  | renewed
  deriving DecidableEq

/-- The rows that belong to one contract. Ids of new invoices are drawn from `nextInvoiceId`. -/
structure ContractRows where
  contract : Contract
  lines : List ContractLine
  periods : List BillingPeriod
  invoices : List DraftInvoice
  nextInvoiceId : ℕ
  notices : List (Text × NoticeKind)

structure CreateContractInput where
  orgId : ℕ
  name : String
  billingTiming : BillingTiming
  intervalMonths : ℕ
  startDate : Text
  endDate : Option Text
  autoIssue : Option Bool
  (currencyCode notes terms : Option String)
  autoRenew : Option Bool
  (renewalTermMonths renewalNoticeDays : Option ℕ)

structure ContractLineInput where
  lineType : ContractLineType
  description : String
  catalogItemId : Option ℕ
  unitPrice : ℚ
  manualQuantity : Option ℚ
  siteId : Option ℕ
  taxable : Bool
  sortOrder : Option ℕ

def requireOrgAccess (actor : ContractActor) (orgId : ℕ) : Except ServiceError Unit :=
  match actor.accessibleOrgIds with
  | none => .ok ()
  | some ids => if orgId ∈ ids then .ok () else .error ⟨"Organization access denied", 403, .orgDenied⟩

/-- `org` is the partner of the organisation's row, when the row exists. -/
def createContract (org : Option ℕ) (input : CreateContractInput) (actor : ContractActor) :
    Except ServiceError ContractRows := do
  requireOrgAccess actor input.orgId
  if actor.partnerId = none then throw ⟨"Partner scope required", 403, .orgDenied⟩
  match org with
  | none => throw ⟨"Organization not found", 404, .contractNotFound⟩
  | some partnerId =>
    return {
      contract := {
        partnerId, orgId := input.orgId, name := input.name, status := .draft,
        billingTiming := input.billingTiming, intervalMonths := input.intervalMonths,
        startDate := input.startDate, endDate := input.endDate, nextBillingAt := none,
        autoIssue := input.autoIssue.getD false, currencyCode := input.currencyCode.getD "USD",
        notes := input.notes, terms := input.terms, createdBy := some actor.userId,
        autoRenew := input.autoRenew.getD false, renewalTermMonths := input.renewalTermMonths,
        renewalNoticeDays := input.renewalNoticeDays }
      lines := [], periods := [], invoices := [], nextInvoiceId := 0, notices := [] }

def addContractLineToContract (input : ContractLineInput) (actor : ContractActor)
    (s : ContractRows) : Except ServiceError ContractRows := do
  requireOrgAccess actor s.contract.orgId
  if s.contract.status ≠ .draft ∧ s.contract.status ≠ .active then
    throw ⟨"Lines editable only on draft/active contracts", 409, .invalidState⟩
  return { s with lines := s.lines ++ [{
    lineType := input.lineType, description := input.description, catalogItemId := input.catalogItemId,
    unitPrice := input.unitPrice,
    manualQuantity := if input.lineType = .manual then some (input.manualQuantity.getD 0) else none,
    siteId := if input.lineType = .perDevice then input.siteId else none,
    taxable := input.taxable, sortOrder := input.sortOrder.getD 0 }] }

/-- Activation and resumption aim the pointer at the period that contains the given day. -/
def pointerAsOf (c : Contract) (asOf : Text) : Text :=
  let idx := periodIndexFor c.startDate c.intervalMonths asOf
  nextBillingDate c.startDate c.intervalMonths c.billingTiming idx

def activateContract (actor : ContractActor) (asOf : Civil) (s : ContractRows) : Except ServiceError ContractRows := do
  requireOrgAccess actor s.contract.orgId
  if s.contract.status ≠ .draft ∧ s.contract.status ≠ .paused then
    throw ⟨"Only draft/paused contracts can be activated", 409, .invalidState⟩
  if s.lines.length = 0 then throw ⟨"Contract needs at least one line", 409, .noLines⟩
  return { s with contract := { s.contract with
    status := .active, nextBillingAt := some (pointerAsOf s.contract (isoDay asOf)) } }

def pauseContract (actor : ContractActor) (s : ContractRows) : Except ServiceError ContractRows := do
  requireOrgAccess actor s.contract.orgId
  if s.contract.status ≠ .active then
    throw ⟨"Only active contracts can be paused", 409, .invalidState⟩
  return { s with contract := { s.contract with status := .paused, nextBillingAt := none } }

def resumeContract (actor : ContractActor) (asOf : Civil) (s : ContractRows) : Except ServiceError ContractRows := do
  requireOrgAccess actor s.contract.orgId
  if s.contract.status ≠ .paused then
    throw ⟨"Only paused contracts can be resumed", 409, .invalidState⟩
  return { s with contract := { s.contract with
    status := .active, nextBillingAt := some (pointerAsOf s.contract (isoDay asOf)) } }

def cancelContract (actor : ContractActor) (s : ContractRows) : Except ServiceError ContractRows := do
  requireOrgAccess actor s.contract.orgId
  if s.contract.status = .cancelled then return s
  return { s with contract := { s.contract with status := .cancelled, nextBillingAt := none } }

structure ResolvedPrice where
  unitPrice : ℚ
  costBasis : Option ℚ
  taxable : Bool

/-- What billing reads outside the contract's own rows: catalog prices (`none` when the item is not
the partner's), device and seat counts, and the organisation's draft-time tax rate. -/
structure BillingEnv where
  resolvePrice : ℕ → Option ResolvedPrice
  countContractDevices : Option ℕ → ℕ
  countContractSeats : ℕ
  taxRate : ℚ

def lineQuantity (env : BillingEnv) (l : ContractLine) : ℚ :=
  match l.lineType with
  | .flat => 1
  | .manual => l.manualQuantity.getD 0
  | .perDevice => env.countContractDevices l.siteId
  | .perSeat => env.countContractSeats

/-- A catalog line is priced by the catalog; any other line by its own price, never negative. -/
def addContractLine (env : BillingEnv) (l : ContractLine) : Except ServiceError InvoiceLine :=
  let quantity := lineQuantity env l
  match l.catalogItemId with
  | some item =>
    match env.resolvePrice item with
    | none => .error ⟨"Catalog item not found", 404, .itemNotFound⟩
    | some resolved => .ok {
        description := l.description, quantity, unitPrice := resolved.unitPrice,
        costBasis := resolved.costBasis, taxable := resolved.taxable, catalogItemId := some item,
        lineTotal := computeLineTotal quantity resolved.unitPrice }
  | none =>
    if quantity < 0 ∨ l.unitPrice < 0 then .error ⟨"Negative amounts not allowed", 400, .invalidAmount⟩
    else .ok {
      description := l.description, quantity, unitPrice := l.unitPrice, costBasis := none,
      taxable := l.taxable, catalogItemId := none, lineTotal := computeLineTotal quantity l.unitPrice }

def InvoiceLine.totalsLine (l : InvoiceLine) : TotalsLine := ⟨l.lineTotal, l.taxable, true⟩

/-- Notes and terms of the contract, both carried onto the invoice notes when present. -/
def invoiceNotes (c : Contract) : Option String :=
  match (([c.notes, c.terms].filterMap id).filter (· ≠ "")) with
  | [] => none
  | noteParts => some ("\n\n".intercalate noteParts)

/-- The draft invoice with every contract line added, in their sort order. -/
def assembleInvoice (env : BillingEnv) (s : ContractRows) : Except ServiceError DraftInvoice := do
  let lines ← (s.lines.insertionSort fun a b => a.sortOrder ≤ b.sortOrder).mapM (addContractLine env)
  return {
    id := s.nextInvoiceId, orgId := s.contract.orgId, notes := invoiceNotes s.contract, lines,
    totals := computeInvoiceTotals (lines.map InvoiceLine.totalsLine) (some env.taxRate) }

inductive Skipped where
  | alreadyBilled
  | expired
  | notDue

inductive GenerateResult where
  | generated (invoiceId : ℕ) (autoIssue : Bool)
  | skipped (reason : Skipped)

def expireContract (s : ContractRows) : ContractRows :=
  { s with contract := { s.contract with status := .expired, nextBillingAt := none } }

/-- The index of the period a billing run covers: advance bills the period that starts at the
pointer, arrears the one that ends there, one index back. -/
def dueIndex (c : Contract) (nextBillingAt : Text) : ℕ :=
  let idxAt := periodIndexFor c.startDate c.intervalMonths nextBillingAt
  match c.billingTiming with
  | .advance => idxAt
  | .arrears => idxAt - 1

/-- After a claim: aim at the next period, or expire when it starts on or after the end date. -/
def advancePointer (idx : ℕ) (s : ContractRows) : ContractRows :=
  let c := s.contract
  let nextPeriod := computePeriod c.startDate c.intervalMonths (idx + 1)
  if isExpired c.endDate nextPeriod.periodStart then expireContract s
  else
    let nextAt := match c.billingTiming with
      | .advance => nextPeriod.periodStart
      | .arrears => nextPeriod.periodEnd
    { s with contract := { c with nextBillingAt := some nextAt } }

def claimPeriod (period : Period) (invoice : DraftInvoice) (s : ContractRows) : ContractRows :=
  { s with
    periods := s.periods ++ [⟨period, invoice.id⟩]
    invoices := s.invoices ++ [invoice]
    nextInvoiceId := s.nextInvoiceId + 1 }

/-- A run that loses the claim deletes its own draft and skips, with the pointer as it was. -/
def generateDueInvoice (env : BillingEnv) (asOf : Civil) (s : ContractRows) :
    Except ServiceError (GenerateResult × ContractRows) :=
  let c := s.contract
  match c.status, c.nextBillingAt with
  | .active, some nextBillingAt =>
    if textLt (isoDay asOf) nextBillingAt then .ok (.skipped .notDue, s)
    else
      let idx := dueIndex c nextBillingAt
      let period := computePeriod c.startDate c.intervalMonths idx
      if isExpired c.endDate period.periodStart then .ok (.skipped .expired, expireContract s)
      else if s.lines.length = 0 then .ok (.skipped .notDue, s)
      else do
        let inv ← assembleInvoice env s
        if s.periods.any (fun p => p.period.periodStart == period.periodStart) then
          return (.skipped .alreadyBilled, { s with nextInvoiceId := s.nextInvoiceId + 1 })
        else
          return (.generated inv.id c.autoIssue, advancePointer idx (claimPeriod period inv s))
  | _, _ => .ok (.skipped .notDue, s)

end RemudaRmm.Billing
