import RemudaRmm.Billing.QuoteToContract
import RemudaRmm.Foundation.ReadCommitted

/-! Issuing and voiding invoices (`invoiceService.ts`, `invoiceNumbers.ts`) and the life of a quote
(`quoteLifecycle.ts`, `quoteAcceptService.ts`, `quoteExpiryReaper.ts`), statement by statement, for one partner.
Inserted rows are named by their call; a call that fails is rolled back. -/
namespace RemudaRmm.Billing
open Foundation

inductive SourceId where
  | timeEntry (n : ℕ)
  | part (n : ℕ)
  deriving DecidableEq

/-- `billing_status` of a time entry or a ticket part. -/
inductive BillingStatus where
  | notBilled
  | billed
  | noCharge
  | contract
  deriving DecidableEq

inductive InvoiceId where
  | existing (n : ℕ)
  | converted (call : ℕ)
  | reissued (call : ℕ)
  deriving DecidableEq

/-- A row of `invoice_lines`; a child belongs to a bundle line. -/
structure SourcedLine where
  source : Option SourceId
  child : Bool
  description : String
  (quantity unitPrice : ℚ)
  (taxable customerVisible : Bool)
  lineTotal : ℤ
  sortOrder : ℕ
  deriving DecidableEq

structure InvoiceRow where
  status : InvoiceStatus
  invoiceNumber : Option Text
  lines : List SourcedLine
  taxRate : Option ℚ
  totals : InvoiceTotals
  balance : ℤ
  notes : Option String
  voidedAt : Option Instant
  voidReason : Option String
  (replacesInvoiceId replacedByInvoiceId : Option InvoiceId)

inductive QuoteStatus where
  | draft
  | sent
  | viewed
  | accepted
  | declined
  | expired
  | converted
  deriving DecidableEq

structure QuoteRow where
  (orgId partnerId : ℕ)
  (quoteNumber currencyCode terms : Option String)
  lines : List QuoteLineForContract
  status : QuoteStatus
  taxRate : Option ℚ
  expiryDate : Option Text
  (firstViewedAt viewedAt acceptedAt convertedAt : Option Instant)
  convertedInvoiceId : Option InvoiceId
  declinedAt : Option Instant
  declineReason : Option String

structure QuoteContracts where
  quoteId : ℕ
  contracts : List ContractRows

/-- The tables. A sequence that has no row yet stands at zero; acceptances and contracts are keyed by
the call that made them. -/
structure BillingDb where
  quotes : Table ℕ ℕ QuoteRow
  acceptances : Table ℕ ℕ (Option ℕ)
  contracts : Table ℕ ℕ (Option QuoteContracts)
  invoices : Table InvoiceId ℕ (Option InvoiceRow)
  sources : Table SourceId ℕ BillingStatus
  sequences : Table ℤ ℕ ℕ

namespace BillingDb

def commit (t : ℕ) (db : BillingDb) : BillingDb where
  quotes k := (db.quotes k).commit t
  acceptances k := (db.acceptances k).commit t
  contracts k := (db.contracts k).commit t
  invoices k := (db.invoices k).commit t
  sources k := (db.sources k).commit t
  sequences k := (db.sequences k).commit t

def rollback (t : ℕ) (db : BillingDb) : BillingDb where
  quotes k := (db.quotes k).rollback t
  acceptances k := (db.acceptances k).rollback t
  contracts k := (db.contracts k).rollback t
  invoices k := (db.invoices k).rollback t
  sources k := (db.sources k).rollback t
  sequences k := (db.sequences k).rollback t

def setQuote (t k : ℕ) (row : QuoteRow) (db : BillingDb) : BillingDb :=
  { db with quotes := Table.write t k row db.quotes }

def setInvoice (t : ℕ) (id : InvoiceId) (row : InvoiceRow) (db : BillingDb) : BillingDb :=
  { db with invoices := Table.write t id (some row) db.invoices }

def setSources (t : ℕ) (ids : List SourceId) (status : BillingStatus) (db : BillingDb) : BillingDb :=
  { db with sources := Table.writeAll t ids status db.sources }

@[simp] theorem quotes_setQuote_self (t k : ℕ) (row : QuoteRow) (db : BillingDb) :
    (db.setQuote t k row).quotes k = (db.quotes k).write t row := Table.write_self ..

@[simp] theorem invoices_setInvoice_self (t : ℕ) (id : InvoiceId) (row : InvoiceRow) (db : BillingDb) :
    (db.setInvoice t id row).invoices id = (db.invoices id).write t (some row) := Table.write_self ..

theorem invoices_setInvoice_of_ne {t : ℕ} {id i : InvoiceId} {row : InvoiceRow} {db : BillingDb} (other : i ≠ id) :
    (db.setInvoice t id row).invoices i = db.invoices i := Table.write_of_ne other

end BillingDb

structure PartnerSettings where
  invoiceNumberPrefix : Option Text
  defaultTaxRate : Option ℚ
  taxExempt : Bool
  orgTaxRate : Option ℚ

inductive BillingCall where
  | issueInvoice (id : InvoiceId)
  | voidInvoice (id : InvoiceId) (reason : String) (reissue : Bool)
  | acceptQuote (quote : ℕ) (actorUserId : Option ℕ)
  | markQuoteViewed (quote orgId : ℕ)
  | declineQuoteByActor (quote : ℕ) (reason : Option String)
  | expireQuotes (batch : List ℕ)

inductive BillingError where
  | invoiceNotFound
  | notADraft
  | noVisibleLines
  | sourceAlreadyBilled
  | invalidState
  | quoteExpired
  | contractSpec
  | aborted

/-- How far a call has come, with what it keeps in its variables. -/
inductive BillingStage where
  | start
  | loaded
  | gathered (timeIds partIds : List ℕ)
  | timeChecked (timeIds partIds : List ℕ)
  | partsChecked (timeIds partIds : List ℕ)
  | numbered (timeIds partIds : List ℕ) (year : ℤ) (counter : ℕ)
  | totalled (timeIds partIds : List ℕ) (year : ℤ) (counter : ℕ) (totals : InvoiceTotals)
  | issued (timeIds partIds : List ℕ)
  | timeFlipped (partIds : List ℕ)
  | found (notes : Option String)
  | collected (timeIds partIds : List ℕ) (notes : Option String)
  | voided (timeIds partIds : List ℕ) (notes : Option String)
  | timeReleased (partIds : List ℕ) (notes : Option String)
  | released (notes : Option String)
  | drafted
  | linked
  | parentsCloned
  | locked
  | recorded (acceptedAt : Instant)
  | lining (acceptedAt : Instant) (rest : List QuoteLineForContract)
  | allocated (acceptedAt : Instant) (year : ℤ) (counter : ℕ)
  | invoiced (acceptedAt : Instant)
  | converted
  | viewing (seen : QuoteRow)
  | declining
  | committing
  | returned
  | threw (e : BillingError)

structure BillingProc where
  call : BillingCall
  stage : BillingStage

def timeIds (lines : List SourcedLine) : List ℕ :=
  lines.filterMap fun l => match l.source with
    | some (.timeEntry n) => some n
    | _ => none

def partIds (lines : List SourcedLine) : List ℕ :=
  lines.filterMap fun l => match l.source with
    | some (.part n) => some n
    | _ => none

def formatInvoiceNumber (stem : Text) (year : ℤ) (counter : ℕ) : Text :=
  stem ++ '-' :: interpolate year ++ '-' :: padStart 4 (decimal counter)

def PartnerSettings.number (cfg : PartnerSettings) (year : ℤ) (counter : ℕ) : Text :=
  formatInvoiceNumber (cfg.invoiceNumberPrefix.getD ['I', 'N', 'V']) year counter

section Statements
variable (t : ℕ) (db : BillingDb)

def fails (e : BillingError) : Option (BillingDb × BillingStage) := some (db.rollback t, .threw e)

def linesOf (id : InvoiceId) : List SourcedLine := (((db.invoices id).read t).map InvoiceRow.lines).getD []

def updateInvoice (id : InvoiceId) (f : InvoiceRow → InvoiceRow) (next : BillingStage) :
    Option (BillingDb × BillingStage) :=
  if (db.invoices id).Free t then
    match (db.invoices id).read t with
    | some row => some (db.setInvoice t id (f row), next)
    | none => some (db, next)
  else none

/-- The locking read of the double-bill guard. It returns, and waits for, only the rows that are not
`not_billed`; any of them ends the call, and the others are neither locked nor waited for. -/
def guardSources (ids : List SourceId) (next : BillingStage) : Option (BillingDb × BillingStage) :=
  let billed := ids.filter fun s => (db.sources s).read t ≠ .notBilled
  if ∀ s ∈ billed, (db.sources s).Free t then
    if billed = [] then some (db, next) else fails t db .sourceAlreadyBilled
  else none

def updateSources (ids : List SourceId) (status : BillingStatus) (next : BillingStage) :
    Option (BillingDb × BillingStage) :=
  if ∀ s ∈ ids, (db.sources s).Free t then some (db.setSources t ids status, next) else none

/-- The counter upsert: the row is locked, raised by one and kept locked. -/
def allocateCounter (year : ℤ) (next : ℕ → BillingStage) : Option (BillingDb × BillingStage) :=
  if (db.sequences year).Free t then
    let counter := (db.sequences year).read t + 1
    some ({ db with sequences := Table.write t year counter db.sequences }, next counter)
  else none

def updateQuote (k : ℕ) (f : QuoteRow → QuoteRow) (next : BillingStage) : Option (BillingDb × BillingStage) :=
  if (db.quotes k).Free t then some (db.setQuote t k (f ((db.quotes k).read t)), next) else none

end Statements

def SourcedLine.totalsLine (l : SourcedLine) : TotalsLine := ⟨l.lineTotal, l.taxable, l.customerVisible⟩

def issuedRow (cfg : PartnerSettings) (taxRate : ℚ) (year : ℤ) (counter : ℕ) (totals : InvoiceTotals)
    (row : InvoiceRow) : InvoiceRow :=
  { row with
    status := .sent, invoiceNumber := some (cfg.number year counter), taxRate := some taxRate, totals
    balance := totals.total }

/-- The draft check and the lines are read before the transaction opens. -/
def issueInvoiceStep (cfg : PartnerSettings) (id : InvoiceId) (t : ℕ) (now : Instant) (db : BillingDb) :
    BillingStage → Option (BillingDb × BillingStage)
  | .start =>
    match (db.invoices id).read t with
    | none => fails t db .invoiceNotFound
    | some inv => if inv.status = .draft then some (db, .loaded) else fails t db .notADraft
  | .loaded =>
    let lines := linesOf t db id
    if lines.any (·.customerVisible) then some (db, .gathered (timeIds lines) (partIds lines))
    else fails t db .noVisibleLines
  | .gathered times parts => guardSources t db (times.map .timeEntry) (.timeChecked times parts)
  | .timeChecked times parts => guardSources t db (parts.map .part) (.partsChecked times parts)
  | .partsChecked times parts => allocateCounter t db now.day.year (.numbered times parts now.day.year)
  | .numbered times parts year counter =>
    let taxRate := resolveEffectiveTaxRate cfg.taxExempt cfg.orgTaxRate cfg.defaultTaxRate
    some (db, .totalled times parts year counter
      (computeInvoiceTotals ((linesOf t db id).map SourcedLine.totalsLine) (some taxRate)))
  | .totalled times parts year counter totals =>
    let taxRate := resolveEffectiveTaxRate cfg.taxExempt cfg.orgTaxRate cfg.defaultTaxRate
    updateInvoice t db id (issuedRow cfg taxRate year counter totals) (.issued times parts)
  | .issued times parts => updateSources t db (times.map .timeEntry) .billed (.timeFlipped parts)
  | .timeFlipped parts => updateSources t db (parts.map .part) .billed .committing
  | _ => none

/-- A fresh draft in place of a voided invoice; its lines are copied afterwards. -/
def replacement (id : InvoiceId) (notes : Option String) : InvoiceRow where
  status := .draft
  invoiceNumber := none
  lines := []
  taxRate := none
  totals := ⟨0, 0, 0⟩
  balance := 0
  notes := notes
  voidedAt := none
  voidReason := none
  replacesInvoiceId := some id
  replacedByInvoiceId := none

/-- The status and the lines are read before the transaction opens. -/
def voidInvoiceStep (id : InvoiceId) (reason : String) (reissue : Bool) (t : ℕ) (now : Instant) (db : BillingDb) :
    BillingStage → Option (BillingDb × BillingStage)
  | .start =>
    match (db.invoices id).read t with
    | none => fails t db .invoiceNotFound
    | some inv =>
      if inv.status = .draft ∨ inv.status = .void then fails t db .invalidState else some (db, .found inv.notes)
  | .found notes => some (db, .collected (timeIds (linesOf t db id)) (partIds (linesOf t db id)) notes)
  | .collected times parts notes =>
    updateInvoice t db id (fun row => { row with status := .void, voidedAt := some now, voidReason := some reason })
      (.voided times parts notes)
  | .voided times parts notes => updateSources t db (times.map .timeEntry) .notBilled (.timeReleased parts notes)
  | .timeReleased parts notes =>
    updateSources t db (parts.map .part) .notBilled (if reissue then .released notes else .committing)
  | .released notes => some (db.setInvoice t (.reissued t) (replacement id notes), .drafted)
  | .drafted => updateInvoice t db id (fun row => { row with replacedByInvoiceId := some (.reissued t) }) .linked
  | .linked =>
    updateInvoice t db (.reissued t) (fun row => { row with
      lines := row.lines ++ (linesOf t db id).filter (!·.child) }) .parentsCloned
  | .parentsCloned =>
    updateInvoice t db (.reissued t) (fun row => { row with
      lines := row.lines ++ (linesOf t db id).filter (·.child) }) .committing
  | _ => none

def isQuoteExpired (expiryDate : Option Text) (asOf : Instant) : Bool :=
  match expiryDate with
  | none => false
  | some day => textLt day (isoDay asOf.day)

def QuoteRow.acceptable (q : QuoteRow) : Bool := q.status = .sent || q.status = .viewed

def oneTime (lines : List QuoteLineForContract) : List QuoteLineForContract :=
  lines.filter fun l => l.recurrence = .oneTime && l.customerVisible

def QuoteRow.forContract (k : ℕ) (q : QuoteRow) : QuoteForContract :=
  ⟨q.orgId, q.partnerId, q.quoteNumber.getD (toString k), q.currencyCode, q.terms⟩

def convertedNotes (quoteNumber : Option String) : String :=
  match quoteNumber with
  | none => "Converted from quote"
  | some number => if number = "" then "Converted from quote" else "Converted from quote " ++ number

def convertedDraft (q : QuoteRow) : InvoiceRow where
  status := .draft
  invoiceNumber := none
  lines := []
  taxRate := q.taxRate
  totals := ⟨0, 0, 0⟩
  balance := 0
  notes := some (convertedNotes q.quoteNumber)
  voidedAt := none
  voidReason := none
  replacesInvoiceId := none
  replacedByInvoiceId := none

def convertedLine (l : QuoteLineForContract) (sortOrder : ℕ) : SourcedLine where
  source := none
  child := false
  description := l.description
  quantity := l.quantity
  unitPrice := l.unitPrice
  taxable := l.taxable
  customerVisible := true
  lineTotal := computeLineTotal l.quantity l.unitPrice
  sortOrder := sortOrder

/-- The totals of the quote's one-time lines at the rate it was quoted with. -/
def quotedTotals (q : QuoteRow) : InvoiceTotals :=
  computeInvoiceTotals
    ((oneTime q.lines).map fun l => ⟨computeLineTotal l.quantity l.unitPrice, l.taxable, true⟩) q.taxRate

/-- The quote is locked first; everything else happens under its lock. -/
def acceptQuoteStep (cfg : PartnerSettings) (k : ℕ) (actorUserId : Option ℕ) (t : ℕ) (now : Instant) (db : BillingDb) :
    BillingStage → Option (BillingDb × BillingStage)
  | .start =>
    let quote := (db.quotes k).read t
    if (db.quotes k).Free t then
      if quote.acceptable = false then fails t db .invalidState
      else if isQuoteExpired quote.expiryDate now then fails t db .quoteExpired
      else some (db.setQuote t k quote, .locked)
    else none
  | .locked => some ({ db with acceptances := Table.write t t (some k) db.acceptances }, .recorded now)
  | .recorded acceptedAt =>
    let quote := (db.quotes k).read t
    some (db.setInvoice t (.converted t) (convertedDraft quote), .lining acceptedAt (oneTime quote.lines))
  | .lining acceptedAt (l :: rest) =>
    updateInvoice t db (.converted t) (fun row => { row with
      lines := row.lines ++ [convertedLine l row.lines.length] }) (.lining acceptedAt rest)
  | .lining acceptedAt [] =>
    let quote := (db.quotes k).read t
    if oneTime quote.lines = [] then
      updateInvoice t db (.converted t) (fun row => { row with
        totals := quotedTotals quote, balance := (quotedTotals quote).total }) (.invoiced acceptedAt)
    else allocateCounter t db acceptedAt.day.year (.allocated acceptedAt acceptedAt.day.year)
  | .allocated acceptedAt year counter =>
    let quote := (db.quotes k).read t
    updateInvoice t db (.converted t) (fun row => { row with
      totals := quotedTotals quote, balance := (quotedTotals quote).total,
      status := .sent, invoiceNumber := some (cfg.number year counter) }) (.invoiced acceptedAt)
  | .invoiced acceptedAt =>
    updateQuote t db k (fun q => { q with
      status := .converted, acceptedAt := some acceptedAt, convertedAt := some acceptedAt,
      convertedInvoiceId := some (.converted t) }) .converted
  | .converted =>
    let quote := (db.quotes k).read t
    match buildContractSpecsFromQuote (quote.forContract k) quote.lines (isoDay now.day) actorUserId with
    | .error _ => fails t db .contractSpec
    | .ok specs =>
      some ({ db with
        contracts := Table.write t t (some ⟨k, specs.map createContractWithLines⟩) db.contracts }, .committing)
  | _ => none

def markQuoteViewedStep (k orgId : ℕ) (t : ℕ) (now : Instant) (db : BillingDb) :
    BillingStage → Option (BillingDb × BillingStage)
  | .start =>
    let seen := (db.quotes k).read t
    some (db, if seen.orgId = orgId then .viewing seen else .returned)
  | .viewing seen =>
    updateQuote t db k (fun q => { q with
      viewedAt := some now
      firstViewedAt := if seen.firstViewedAt = none then some now else q.firstViewedAt
      status := if seen.status = .sent then .viewed else q.status }) .committing
  | _ => none

def declineQuoteByActorStep (k : ℕ) (reason : Option String) (t : ℕ) (now : Instant) (db : BillingDb) :
    BillingStage → Option (BillingDb × BillingStage)
  | .start =>
    let seen := (db.quotes k).read t
    if seen.acceptable = false then fails t db .invalidState
    else if isQuoteExpired seen.expiryDate now then fails t db .quoteExpired
    else some (db, .declining)
  | .declining =>
    updateQuote t db k (fun q => { q with
      status := .declined, declineReason := reason, declinedAt := some now }) .committing
  | _ => none

/-- The sweep takes the due quotes of its batch that nobody has locked, in one statement. -/
def expireQuotesStep (batch : List ℕ) (t : ℕ) (now : Instant) (db : BillingDb) :
    BillingStage → Option (BillingDb × BillingStage)
  | .start =>
    some ({ db with quotes := fun k =>
      let q := (db.quotes k).read t
      if k ∈ batch ∧ (db.quotes k).Free t ∧ q.acceptable = true ∧ isQuoteExpired q.expiryDate now = true then
        (db.quotes k).write t { q with status := .expired }
      else db.quotes k }, .committing)
  | _ => none

inductive BillingAction where
  | exec (now : Instant)
  | fail

def BillingStage.Ended : BillingStage → Prop
  | .returned | .threw _ => True
  | _ => False

instance BillingStage.decidableEnded (stage : BillingStage) : Decidable stage.Ended := by
  cases stage <;> first | exact isTrue trivial | exact isFalse id

def documentCallStep (cfg : PartnerSettings) : BillingCall → ℕ → Instant → BillingDb → BillingStage →
    Option (BillingDb × BillingStage)
  | .issueInvoice id => issueInvoiceStep cfg id
  | .voidInvoice id reason reissue => voidInvoiceStep id reason reissue
  | .acceptQuote k actorUserId => acceptQuoteStep cfg k actorUserId
  | .markQuoteViewed k orgId => markQuoteViewedStep k orgId
  | .declineQuoteByActor k reason => declineQuoteByActorStep k reason
  | .expireQuotes batch => expireQuotesStep batch

/-- The next statement of a call, its commit, or its failure at any point. -/
def documentAct (cfg : PartnerSettings) (t : ℕ) (action : BillingAction) (db : BillingDb) (p : BillingProc) :
    Option (BillingDb × BillingProc) :=
  match action with
  | .exec now =>
    match p.stage with
    | .committing => some (db.commit t, ⟨p.call, .returned⟩)
    | stage => (documentCallStep cfg p.call t now db stage).map fun next => (next.1, ⟨p.call, next.2⟩)
  | .fail => if p.stage.Ended then none else some (db.rollback t, ⟨p.call, .threw .aborted⟩)

abbrev DocumentWorld := World ℕ BillingDb BillingProc

def documentStep (cfg : PartnerSettings) : DocumentWorld → ℕ × BillingAction → Option DocumentWorld :=
  World.step (documentAct cfg)

end RemudaRmm.Billing
