import RemudaRmm.Billing.DoubleBilling
import RemudaRmm.Foundation.Encodings
import RemudaRmm.Tickets.TimeTracking

/-! Work and its invoices (`invoiceService.ts`, `invoiceAssembly.ts`, `timeEntryService.ts`): drafts are assembled from
time entries and parts, issued and voided, while those rows are edited. Each call is atomic, and one that is rejected
changes nothing. -/
namespace RemudaRmm.Tickets
open Foundation List Function Option
open Billing (BillingStatus SourceId SourcedLine InvoiceRow InvoiceTotals PartnerSettings computeLineTotal
  computeInvoiceTotals resolveEffectiveTaxRate roundHalfUp issuedRow replacement timeIds partIds Instant)

inductive InvoiceServiceErrorCode where
  | partnerUnresolvable
  | orgDenied
  | invoiceNotFound
  | notADraft
  | nothingToInvoice
  | noVisibleLines
  | sourceAlreadyBilled
  | invalidState

structure InvoiceServiceError where
  status : ℕ
  code : InvoiceServiceErrorCode

structure InvoiceActor where
  partnerId : Option ℕ
  accessibleOrgIds : Option (List ℕ)

structure WorkInvoice where
  (orgId partnerId : ℕ)
  row : InvoiceRow

/-- The tables; `entryIds` and `partIds` list the rows there have been, and the invoices from `nextInvoice` on have not
been drawn yet. -/
structure WorkDesk where
  entryIds : List ℕ
  entries : ℕ → Option TimeEntry
  partIds : List ℕ
  parts : ℕ → Option TicketPart
  invoices : ℕ → Option WorkInvoice
  nextInvoice : ℕ
  sequences : ℤ → ℕ

def hundredths (n : ℤ) : ℚ := n / 100

def timeEntryToLineSpec (id : ℕ) (e : TimeEntry) : SourcedLine :=
  let hours := hundredths (roundHalfUp (((e.durationMinutes.getD 0 : ℤ) : ℚ) / 60 * 100))
  let unitPrice := hundredths (e.hourlyRate.getD 0 : ℕ)
  let description := trimBy (fun c => isSpaceCode c.toNat) (e.description.getD [])
  { source := some (.timeEntry id)
    child := false
    description := if description = [] then "Labor" else String.ofList description
    quantity := hours
    unitPrice := unitPrice
    taxable := false
    customerVisible := true
    lineTotal := computeLineTotal hours unitPrice
    sortOrder := 0 }

def ticketPartToLineSpec (id : ℕ) (p : TicketPart) : SourcedLine where
  source := some (.part id)
  child := false
  description := String.ofList p.description
  quantity := hundredths p.quantity
  unitPrice := hundredths p.unitPrice
  taxable := true
  customerVisible := true
  lineTotal := computeLineTotal (hundredths p.quantity) (hundredths p.unitPrice)
  sortOrder := 0

namespace WorkDesk
variable (d : WorkDesk)

/-- The lines of the time entries that are billable, not billed and over, among those that are asked for. -/
def unbilledEntries (asked : TimeEntry → Bool) : List SourcedLine :=
  d.entryIds.filterMap fun id =>
    ((d.entries id).filter fun e => asked e && e.isBillable && e.billingStatus = .notBilled && e.endedAt.isSome).map
      (timeEntryToLineSpec id)

def unbilledParts (asked : TicketPart → Bool) : List SourcedLine :=
  d.partIds.filterMap fun id =>
    ((d.parts id).filter fun p => asked p && p.isBillable && p.billingStatus = .notBilled).map (ticketPartToLineSpec id)

def gatherOrgTimeEntries (orgId : ℕ) (start finish : ℤ) : List SourcedLine :=
  d.unbilledEntries fun e => e.orgId = some orgId && e.endedAt.any fun ended => start ≤ ended && ended ≤ finish

def gatherOrgParts (orgId : ℕ) (start finish : ℤ) : List SourcedLine :=
  d.unbilledParts fun p => p.orgId = orgId && start ≤ p.createdAt && p.createdAt ≤ finish

def gatherTicketBillables (ticketId : ℕ) : List SourcedLine :=
  d.unbilledEntries (·.ticketId = some ticketId) ++ d.unbilledParts (·.ticketId = ticketId)

end WorkDesk

def requirePartner (actor : InvoiceActor) : Except InvoiceServiceError ℕ :=
  orFail actor.partnerId ⟨400, .partnerUnresolvable⟩

def requireOrgAccess (actor : InvoiceActor) (orgId : ℕ) : Except InvoiceServiceError PUnit :=
  require (actor.accessibleOrgIds.all (orgId ∈ ·) = true) ⟨403, .orgDenied⟩

/-- The draft rate of an organisation leaves the rate of the partner out. -/
def draftTotals (cfg : PartnerSettings) (lines : List SourcedLine) : InvoiceTotals :=
  computeInvoiceTotals (lines.map SourcedLine.totalsLine)
    (some (resolveEffectiveTaxRate cfg.taxExempt cfg.orgTaxRate none))

/-- A draft with the given lines in their order, and its totals. -/
def draftInvoice (cfg : PartnerSettings) (orgId partnerId : ℕ) (specs : List SourcedLine) : WorkInvoice :=
  let lines := specs.mapIdx fun sort l => { l with sortOrder := sort }
  let totals := draftTotals cfg lines
  ⟨orgId, partnerId, ⟨.draft, none, lines, none, totals, totals.total, none, none, none, none, none⟩⟩

inductive WorkCall where
  | assembleDraftFromOrg (orgId : ℕ) (start finish : ℤ) (actor : InvoiceActor)
  | assembleDraftFromTicket (ticketId : ℕ) (ticketOrg : Option ℕ) (actor : InvoiceActor)
  | issueInvoice (id : ℕ) (now : Instant) (actor : InvoiceActor)
  | voidInvoice (id : ℕ) (reason : String) (reissue : Bool) (now : Instant) (actor : InvoiceActor)
  | updateTimeEntry (id : ℕ) (input : UpdateTimeEntryInput) (reads : TicketReads) (actor : TimeEntryActor)
  | deleteTimeEntry (id : ℕ) (actor : TimeEntryActor)
  | updateTicketPart (id : ℕ) (input : UpdateTicketPartInput)
  | deleteTicketPart (id : ℕ)

namespace WorkDesk

def insertDraft (inv : WorkInvoice) (d : WorkDesk) : WorkDesk :=
  { d with invoices := update d.invoices d.nextInvoice (some inv), nextInvoice := d.nextInvoice + 1 }

def setInvoice (id : ℕ) (inv : WorkInvoice) (d : WorkDesk) : WorkDesk :=
  { d with invoices := update d.invoices id (some inv) }

def setSources (lines : List SourcedLine) (status : BillingStatus) (d : WorkDesk) : WorkDesk :=
  { d with
    entries := fun k =>
      (d.entries k).map fun e => if k ∈ timeIds lines then { e with billingStatus := status } else e
    parts := fun k =>
      (d.parts k).map fun p => if k ∈ Billing.partIds lines then { p with billingStatus := status } else p }

def assemble (cfg : PartnerSettings) (orgId : ℕ) (specs : List SourcedLine) (actor : InvoiceActor) (d : WorkDesk) :
    Except InvoiceServiceError WorkDesk := do
  let partnerId ← requirePartner actor
  requireOrgAccess actor orgId
  require (specs ≠ []) ⟨409, .nothingToInvoice⟩
  .ok (d.insertDraft (draftInvoice cfg orgId partnerId specs))

def assembleDraftFromOrg (cfg : PartnerSettings) (orgId : ℕ) (start finish : ℤ) (actor : InvoiceActor) (d : WorkDesk) :
    Except InvoiceServiceError WorkDesk :=
  d.assemble cfg orgId (d.gatherOrgTimeEntries orgId start finish ++ d.gatherOrgParts orgId start finish) actor

def assembleDraftFromTicket (cfg : PartnerSettings) (ticketId : ℕ) (ticketOrg : Option ℕ) (actor : InvoiceActor)
    (d : WorkDesk) : Except InvoiceServiceError WorkDesk := do
  let _ ← requirePartner actor
  let orgId ← orFail ticketOrg ⟨404, .invoiceNotFound⟩
  d.assemble cfg orgId (d.gatherTicketBillables ticketId) actor

/-- The guard sees the rows that are there and are not `not_billed`; a row that is gone passes. -/
def issueInvoice (cfg : PartnerSettings) (id : ℕ) (now : Instant) (actor : InvoiceActor) (d : WorkDesk) :
    Except InvoiceServiceError WorkDesk := do
  let inv ← orFail (d.invoices id) ⟨404, .invoiceNotFound⟩
  require (inv.row.status = .draft) ⟨409, .notADraft⟩
  requireOrgAccess actor inv.orgId
  let lines := inv.row.lines
  require (lines.any (·.customerVisible) = true) ⟨409, .noVisibleLines⟩
  require (∀ k ∈ timeIds lines, ∀ e ∈ d.entries k, e.billingStatus = .notBilled) ⟨409, .sourceAlreadyBilled⟩
  require (∀ k ∈ Billing.partIds lines, ∀ p ∈ d.parts k, p.billingStatus = .notBilled) ⟨409, .sourceAlreadyBilled⟩
  let taxRate := resolveEffectiveTaxRate cfg.taxExempt cfg.orgTaxRate cfg.defaultTaxRate
  let year := now.day.year
  let counter := d.sequences year + 1
  let totals := computeInvoiceTotals (lines.map SourcedLine.totalsLine) (some taxRate)
  let issued := { inv with row := issuedRow cfg taxRate year counter totals inv.row }
  .ok { (d.setInvoice id issued).setSources lines .billed with sequences := update d.sequences year counter }

/-- A draft in place of the voided invoice, with its lines: bundles first, then what belongs to them. -/
def reissued (cfg : PartnerSettings) (id : ℕ) (inv : WorkInvoice) : WorkInvoice :=
  let lines := inv.row.lines.filter (!·.child) ++ inv.row.lines.filter (·.child)
  let totals := draftTotals cfg lines
  { inv with row := { replacement (.existing id) inv.row.notes with lines, totals, balance := totals.total } }

def voidInvoice (cfg : PartnerSettings) (id : ℕ) (reason : String) (reissue : Bool) (now : Instant)
    (actor : InvoiceActor) (d : WorkDesk) : Except InvoiceServiceError WorkDesk := do
  let inv ← orFail (d.invoices id) ⟨404, .invoiceNotFound⟩
  requireOrgAccess actor inv.orgId
  require (inv.row.status ≠ .draft ∧ inv.row.status ≠ .void) ⟨409, .invalidState⟩
  let replacedByInvoiceId := if reissue then some (.existing d.nextInvoice) else inv.row.replacedByInvoiceId
  let voided := { inv with row := { inv.row with
    status := .void, voidedAt := some now, voidReason := some reason, replacedByInvoiceId } }
  let released := (d.setInvoice id voided).setSources inv.row.lines .notBilled
  .ok (if reissue then released.insertDraft (reissued cfg id inv) else released)

def updateTimeEntry (id : ℕ) (input : UpdateTimeEntryInput) (reads : TicketReads) (actor : TimeEntryActor)
    (d : WorkDesk) : Except TimeEntryServiceError WorkDesk := do
  let e ← getEntryOr404 (d.entries id) actor
  let patch ← Tickets.updateTimeEntry reads e input actor
  .ok { d with entries := update d.entries id (some (patch.set e)) }

def deleteTimeEntry (id : ℕ) (actor : TimeEntryActor) (d : WorkDesk) : Except TimeEntryServiceError WorkDesk := do
  let e ← getEntryOr404 (d.entries id) actor
  assertCanMutate e actor
  .ok { d with entries := update d.entries id none }

def getPartOr404 (id : ℕ) (d : WorkDesk) : Except TimeEntryServiceError TicketPart :=
  orFail (d.parts id) ⟨404, some .partNotFound⟩

def updateTicketPart (id : ℕ) (input : UpdateTicketPartInput) (d : WorkDesk) :
    Except TimeEntryServiceError WorkDesk := do
  let part ← d.getPartOr404 id
  .ok { d with parts := update d.parts id (some (Tickets.updateTicketPart input part)) }

def deleteTicketPart (id : ℕ) (d : WorkDesk) : Except TimeEntryServiceError WorkDesk := do
  let _ ← d.getPartOr404 id
  .ok { d with parts := update d.parts id none }

end WorkDesk

/-- One call, with the settings it finds; `none` when it is rejected. -/
def workCall (cfg : PartnerSettings) (d : WorkDesk) : WorkCall → Option WorkDesk
  | .assembleDraftFromOrg orgId start finish actor => (d.assembleDraftFromOrg cfg orgId start finish actor).toOption
  | .assembleDraftFromTicket ticketId ticketOrg actor =>
    (d.assembleDraftFromTicket cfg ticketId ticketOrg actor).toOption
  | .issueInvoice id now actor => (d.issueInvoice cfg id now actor).toOption
  | .voidInvoice id reason reissue now actor => (d.voidInvoice cfg id reason reissue now actor).toOption
  | .updateTimeEntry id input reads actor => (d.updateTimeEntry id input reads actor).toOption
  | .deleteTimeEntry id actor => (d.deleteTimeEntry id actor).toOption
  | .updateTicketPart id input => (d.updateTicketPart id input).toOption
  | .deleteTicketPart id => (d.deleteTicketPart id).toOption

def workStep (d : WorkDesk) (e : PartnerSettings × WorkCall) : WorkDesk := (workCall e.1 d e.2).getD d

def uninvoiced (entryIds : List ℕ) (entries : ℕ → Option TimeEntry) (partIds : List ℕ) (parts : ℕ → Option TicketPart)
    (sequences : ℤ → ℕ) : WorkDesk :=
  ⟨entryIds, entries, partIds, parts, fun _ => none, 0, sequences⟩

namespace WorkDesk
variable (d : WorkDesk)

def statusOf : SourceId → Option BillingStatus
  | .timeEntry k => (d.entries k).map TimeEntry.billingStatus
  | .part k => (d.parts k).map TicketPart.billingStatus

end WorkDesk

def WorkInvoice.Live (inv : WorkInvoice) : Prop := inv.row.status ≠ .draft ∧ inv.row.status ≠ .void
  deriving Decidable

def WorkInvoice.Bills (inv : WorkInvoice) (s : SourceId) : Prop := ∃ l ∈ inv.row.lines, l.source = some s
  deriving Decidable

namespace WorkDesk
variable (d : WorkDesk)

/-- An issued invoice that is not void has a line from the row. -/
def BilledLive (s : SourceId) : Prop := ∃ i ∈ List.range d.nextInvoice, ∃ inv ∈ d.invoices i, inv.Live ∧ inv.Bills s
  deriving Decidable

/-- A gather function offers the row. -/
inductive Offered (s : SourceId) : Prop
  | entry (orgId : ℕ) (start finish : ℤ) (l : SourcedLine) (offered : l ∈ d.gatherOrgTimeEntries orgId start finish)
      (source : l.source = some s)
  | part (orgId : ℕ) (start finish : ℤ) (l : SourcedLine) (offered : l ∈ d.gatherOrgParts orgId start finish)
      (source : l.source = some s)
  | ticket (ticketId : ℕ) (l : SourcedLine) (offered : l ∈ d.gatherTicketBillables ticketId)
      (source : l.source = some s)

/-- A row on a live invoice is not offered again, and is on no other one. -/
structure Frozen : Prop where
  unoffered : ∀ i inv s, d.invoices i = some inv → inv.Live → inv.Bills s → ¬d.Offered s
  once : ∀ i j inv other s, d.invoices i = some inv → d.invoices j = some other → inv.Live → other.Live →
    inv.Bills s → other.Bills s → i = j

end WorkDesk

/-- No row on a live invoice is set back to `not_billed` by hand, and no invoice is issued for a row that is gone while
another live one has it. -/
def LeavesBilled (d : WorkDesk) (e : PartnerSettings × WorkCall) : Prop :=
  (workCall e.1 d e.2).isSome = true →
    match e.2 with
    | .updateTimeEntry id input _ _ => input.billingStatus = some .notBilled → ¬d.BilledLive (.timeEntry id)
    | .updateTicketPart id input => input.billingStatus = some .notBilled → ¬d.BilledLive (.part id)
    | .issueInvoice id _ _ => ∀ inv ∈ d.invoices id, ∀ l ∈ inv.row.lines, ∀ s ∈ l.source,
        d.BilledLive s → (d.statusOf s).isSome = true
    | _ => True

/-- A row on a live invoice is not `not_billed`, and is on no other live invoice. -/
structure WorkLaw (d : WorkDesk) : Prop where
  billed : ∀ i inv s, d.invoices i = some inv → inv.Live → inv.Bills s → d.statusOf s ≠ some .notBilled
  once : ∀ i j inv other s, d.invoices i = some inv → d.invoices j = some other → inv.Live → other.Live →
    inv.Bills s → other.Bills s → i = j
  drawn : ∀ i inv, d.invoices i = some inv → i < d.nextInvoice

section Law
variable {d next : WorkDesk} {cfg : PartnerSettings}
variable {s : SourceId} {inv : WorkInvoice} {id : ℕ} {actor : InvoiceActor}

theorem unbilledEntries_status {asked : TimeEntry → Bool} {l : SourcedLine} (offered : l ∈ d.unbilledEntries asked)
    (source : l.source = some s) : d.statusOf s = some .notBilled := by
  obtain ⟨k, -, spec⟩ := mem_filterMap.mp offered
  obtain ⟨e, kept, rfl⟩ := map_eq_some_iff.mp spec
  obtain ⟨stored, unbilled⟩ := filter_eq_some_iff.mp kept
  cases source
  simp only [Bool.and_eq_true, decide_eq_true_eq] at unbilled
  rw [WorkDesk.statusOf, stored, map_some, unbilled.1.2]

theorem unbilledParts_status {asked : TicketPart → Bool} {l : SourcedLine} (offered : l ∈ d.unbilledParts asked)
    (source : l.source = some s) : d.statusOf s = some .notBilled := by
  obtain ⟨k, -, spec⟩ := mem_filterMap.mp offered
  obtain ⟨p, kept, rfl⟩ := map_eq_some_iff.mp spec
  obtain ⟨stored, unbilled⟩ := filter_eq_some_iff.mp kept
  cases source
  simp only [Bool.and_eq_true, decide_eq_true_eq] at unbilled
  rw [WorkDesk.statusOf, stored, map_some, unbilled.2]

theorem WorkDesk.Offered.status (offered : d.Offered s) : d.statusOf s = some .notBilled := by
  cases offered with
  | entry orgId start finish l offered source => exact unbilledEntries_status offered source
  | part orgId start finish l offered source => exact unbilledParts_status offered source
  | ticket ticketId l offered source =>
    rcases mem_append.mp offered with entry | part
    · exact unbilledEntries_status entry source
    · exact unbilledParts_status part source

theorem WorkLaw.frozen (law : WorkLaw d) : d.Frozen where
  unoffered i inv s stored live bills offered := law.billed i inv s stored live bills offered.status
  once := law.once

theorem WorkLaw.billedLive (law : WorkLaw d) {i : ℕ} (stored : d.invoices i = some inv) (live : inv.Live)
    (bills : inv.Bills s) : d.BilledLive s :=
  ⟨i, mem_range.mpr (law.drawn i inv stored), inv, stored, live, bills⟩

theorem WorkLaw.edited (law : WorkLaw d) (same : next.invoices = d.invoices) (count : next.nextInvoice = d.nextInvoice)
    (kept : ∀ s, d.BilledLive s → next.statusOf s = some .notBilled → d.statusOf s = some .notBilled) :
    WorkLaw next where
  billed i inv s stored live bills unbilled := by
    rw [same] at stored
    exact law.billed i inv s stored live bills (kept s (law.billedLive stored live bills) unbilled)
  once i j inv other s := by
    rw [same]
    exact law.once i j inv other s
  drawn i inv stored := by
    rw [same] at stored
    rw [count]
    exact law.drawn i inv stored

theorem WorkLaw.drafted (law : WorkLaw d) (draft : inv.row.status = .draft) : WorkLaw (d.insertDraft inv) := by
  have old : ∀ i other, (d.insertDraft inv).invoices i = some other → other.Live → d.invoices i = some other := by
    intro i other stored live
    rcases update_some stored with ⟨-, rfl⟩ | before
    · exact absurd draft live.1
    · exact before
  refine ⟨fun i other s stored live bills => ?_, fun i j one two s first second live alive bills billed => ?_,
    fun i other stored => ?_⟩
  · exact law.billed i other s (old i other stored live) live bills
  · exact law.once i j one two s (old i one first live) (old j two second alive) live alive bills billed
  · rcases update_some stored with ⟨rfl, -⟩ | before
    · exact Nat.lt_succ_self _
    · exact (law.drawn i other before).trans (Nat.lt_succ_self _)

theorem statusOf_setSources (lines : List SourcedLine) (status : BillingStatus) (s : SourceId) :
    (d.setSources lines status).statusOf s =
      (d.statusOf s).map fun old => if ∃ l ∈ lines, l.source = some s then status else old := by
  cases s with
  | timeEntry k =>
    simp only [WorkDesk.statusOf, WorkDesk.setSources, Option.map_map, ← Billing.mem_timeIds]
    apply congrArg (Option.map · (d.entries k))
    funext e
    simp only [Function.comp]
    split_ifs <;> rfl
  | part k =>
    simp only [WorkDesk.statusOf, WorkDesk.setSources, Option.map_map, ← Billing.mem_partIds]
    apply congrArg (Option.map · (d.parts k))
    funext p
    simp only [Function.comp]
    split_ifs <;> rfl

theorem statusOf_other {lines : List SourcedLine} {status : BillingStatus}
    (elsewhere : ¬∃ l ∈ lines, l.source = some s) : (d.setSources lines status).statusOf s = d.statusOf s := by
  simp only [statusOf_setSources, if_neg elsewhere, Option.map_id']

theorem guarded_status {lines : List SourcedLine}
    (times : ∀ k ∈ timeIds lines, ∀ e ∈ d.entries k, e.billingStatus = .notBilled)
    (parts : ∀ k ∈ Billing.partIds lines, ∀ p ∈ d.parts k, p.billingStatus = .notBilled) (listed : ∃ l ∈ lines, l.source = some s) : ∀ status, d.statusOf s = some status → status = .notBilled := by
  intro status found
  cases s with
  | timeEntry k =>
    obtain ⟨e, stored, rfl⟩ := map_eq_some_iff.mp found
    exact times k (Billing.mem_timeIds.mpr listed) e stored
  | part k =>
    obtain ⟨p, stored, rfl⟩ := map_eq_some_iff.mp found
    exact parts k (Billing.mem_partIds.mpr listed) p stored

theorem law_issueInvoice (law : WorkLaw d) {now : Instant} (accepted : d.issueInvoice cfg id now actor = .ok next)
    (there : ∀ inv ∈ d.invoices id, ∀ l ∈ inv.row.lines, ∀ s ∈ l.source,
      d.BilledLive s → (d.statusOf s).isSome = true) : WorkLaw next := by
  obtain ⟨inv, found, accepted⟩ := except_bind_ok accepted
  obtain ⟨_, draft, accepted⟩ := except_bind_ok accepted
  obtain ⟨_, _, accepted⟩ := except_bind_ok accepted
  obtain ⟨_, _, accepted⟩ := except_bind_ok accepted
  obtain ⟨_, times, accepted⟩ := except_bind_ok accepted
  obtain ⟨_, parts, result⟩ := except_bind_ok accepted
  cases result
  have stored := orFail_ok found
  -- a row on another live invoice is neither `not_billed` nor gone, so the guard has refused it
  have alone : ∀ j other s, d.invoices j = some other → other.Live → other.Bills s → ¬inv.Bills s := by
    intro j other s second live bills ⟨l, member, source⟩
    obtain ⟨status, here⟩ :=
      isSome_iff_exists.mp (there inv stored l member s source (law.billedLive second live bills))
    have unbilled := guarded_status (require_ok times) (require_ok parts) ⟨l, member, source⟩ status here
    exact law.billed j other s second live bills (here.trans (congrArg some unbilled))
  refine ⟨fun i other s first live bills => ?_, fun i j one two s first second live alive bills billed => ?_,
    fun i other first => ?_⟩
  · by_cases listed : ∃ l ∈ inv.row.lines, l.source = some s
    · show (WorkDesk.setSources _ _ _).statusOf s ≠ _
      simp only [statusOf_setSources, if_pos listed]
      intro unbilled
      obtain ⟨-, -, same⟩ := map_eq_some_iff.mp unbilled
      cases same
    · show (WorkDesk.setSources _ _ _).statusOf s ≠ _
      rw [statusOf_other listed]
      rcases update_some first with ⟨-, rfl⟩ | before
      · exact absurd bills listed
      · exact law.billed i other s before live bills
  · rcases update_some first with ⟨rfl, rfl⟩ | before
    · rcases update_some second with ⟨rfl, -⟩ | after
      · rfl
      · exact absurd bills (alone j two s after alive billed)
    · rcases update_some second with ⟨rfl, rfl⟩ | after
      · exact absurd billed (alone i one s before live bills)
      · exact law.once i j one two s before after live alive bills billed
  · rcases update_some first with ⟨rfl, -⟩ | before
    · exact law.drawn i inv stored
    · exact law.drawn i other before

theorem law_assemble (law : WorkLaw d) {orgId : ℕ} {specs : List SourcedLine}
    (accepted : d.assemble cfg orgId specs actor = .ok next) : WorkLaw next := by
  obtain ⟨partnerId, _, accepted⟩ := except_bind_ok accepted
  obtain ⟨_, _, accepted⟩ := except_bind_ok accepted
  obtain ⟨_, _, result⟩ := except_bind_ok accepted
  cases result
  exact law.drafted rfl

theorem law_assembleDraftFromTicket (law : WorkLaw d) {ticketId : ℕ} {ticketOrg : Option ℕ}
    (accepted : d.assembleDraftFromTicket cfg ticketId ticketOrg actor = .ok next) : WorkLaw next := by
  obtain ⟨_, _, assembled⟩ := except_bind_ok accepted
  obtain ⟨orgId, _, assembled⟩ := except_bind_ok assembled
  exact law_assemble law assembled

theorem WorkLaw.released (law : WorkLaw d) {voided : WorkInvoice} (stored : d.invoices id = some inv)
    (alive : inv.Live) (void : ¬voided.Live) :
    WorkLaw ((d.setInvoice id voided).setSources inv.row.lines .notBilled) := by
  have old : ∀ i other, update d.invoices id (some voided) i = some other → other.Live →
      i ≠ id ∧ d.invoices i = some other := by
    intro i other first live
    by_cases same : i = id
    · subst same
      rw [update_self] at first
      exact absurd (Option.some.inj first ▸ live) void
    · rw [update_of_ne same] at first
      exact ⟨same, first⟩
  refine ⟨fun i other s first live bills => ?_, fun i j one two s first second live alive bills billed => ?_,
    fun i other first => ?_⟩
  · obtain ⟨elsewhere, before⟩ := old i other first live
    have free : ¬inv.Bills s := fun mine => elsewhere (law.once i id other inv s before stored live alive bills mine)
    rw [statusOf_other free]
    exact law.billed i other s before live bills
  · exact law.once i j one two s (old i one first live).2 (old j two second alive).2 live alive bills billed
  · rcases update_some first with ⟨rfl, -⟩ | before
    · exact law.drawn i inv stored
    · exact law.drawn i other before

theorem law_voidInvoice (law : WorkLaw d) {reason : String} {reissue : Bool} {now : Instant}
    (accepted : d.voidInvoice cfg id reason reissue now actor = .ok next) : WorkLaw next := by
  obtain ⟨inv, found, accepted⟩ := except_bind_ok accepted
  obtain ⟨_, _, accepted⟩ := except_bind_ok accepted
  obtain ⟨_, live, result⟩ := except_bind_ok accepted
  cases result
  split_ifs
  · exact (law.released (orFail_ok found) (require_ok live) fun live => live.2 rfl).drafted rfl
  · exact law.released (orFail_ok found) (require_ok live) fun live => live.2 rfl

theorem status_of_edited {α : Type} {rows : ℕ → Option α} {status : α → BillingStatus} {old edited : α}
    {chosen : Option BillingStatus} {k : ℕ} (stored : rows id = some old)
    (changed : status edited = chosen.getD (status old)) (kept : k = id → chosen ≠ some .notBilled)
    (unbilled : (update rows id (some edited) k).map status = some .notBilled) :
    (rows k).map status = some .notBilled := by
  by_cases same : k = id
  · subst same
    rw [update_self, map_some, changed] at unbilled
    cases given : chosen with
    | none =>
      rw [given] at unbilled
      rw [stored]
      exact unbilled
    | some value =>
      rw [given] at unbilled
      exact absurd (given.trans unbilled) (kept rfl)
  · rwa [update_of_ne same] at unbilled

theorem law_updateTimeEntry (law : WorkLaw d) {input : UpdateTimeEntryInput} {reads : TicketReads}
    {actor : TimeEntryActor} (accepted : d.updateTimeEntry id input reads actor = .ok next)
    (leaves : input.billingStatus = some .notBilled → ¬d.BilledLive (.timeEntry id)) : WorkLaw next := by
  obtain ⟨e, found, accepted⟩ := except_bind_ok accepted
  obtain ⟨patch, patched, result⟩ := except_bind_ok accepted
  cases result
  obtain ⟨rfl, -⟩ := updateTimeEntry_ok patched
  refine law.edited rfl rfl fun s live unbilled => ?_
  cases s with
  | part k => exact unbilled
  | timeEntry k =>
    exact status_of_edited (getEntryOr404_ok found) rfl (fun same given => leaves given (same ▸ live)) unbilled

theorem law_updateTicketPart (law : WorkLaw d) {input : UpdateTicketPartInput}
    (accepted : d.updateTicketPart id input = .ok next)
    (leaves : input.billingStatus = some .notBilled → ¬d.BilledLive (.part id)) : WorkLaw next := by
  obtain ⟨part, found, result⟩ := except_bind_ok accepted
  cases result
  refine law.edited rfl rfl fun s live unbilled => ?_
  cases s with
  | timeEntry k => exact unbilled
  | part k => exact status_of_edited (orFail_ok found) rfl (fun same given => leaves given (same ▸ live)) unbilled

theorem status_of_removed {α : Type} {rows : ℕ → Option α} {status : α → BillingStatus} {k : ℕ}
    (unbilled : (update rows id none k).map status = some .notBilled) : (rows k).map status = some .notBilled := by
  by_cases same : k = id
  · subst same
    rw [update_self] at unbilled
    cases unbilled
  · rwa [update_of_ne same] at unbilled

theorem law_deleteTimeEntry (law : WorkLaw d) {actor : TimeEntryActor}
    (accepted : d.deleteTimeEntry id actor = .ok next) : WorkLaw next := by
  obtain ⟨_, _, deleted⟩ := except_bind_ok accepted
  obtain ⟨_, _, result⟩ := except_bind_ok deleted
  cases result
  refine law.edited rfl rfl fun s live unbilled => ?_
  cases s with
  | part k => exact unbilled
  | timeEntry k => exact status_of_removed unbilled

theorem law_deleteTicketPart (law : WorkLaw d) (accepted : d.deleteTicketPart id = .ok next) : WorkLaw next := by
  obtain ⟨_, _, result⟩ := except_bind_ok accepted
  cases result
  refine law.edited rfl rfl fun s live unbilled => ?_
  cases s with
  | timeEntry k => exact unbilled
  | part k => exact status_of_removed unbilled

theorem WorkLaw.step (law : WorkLaw d) (e : PartnerSettings × WorkCall) (leaves : LeavesBilled d e) :
    WorkLaw (workStep d e) := by
  obtain ⟨cfg, call⟩ := e
  unfold workStep
  cases accepted : workCall cfg d call with
  | none => exact law
  | some next =>
    have leaves := leaves (by rw [accepted]; rfl)
    cases call with
    | assembleDraftFromOrg orgId start finish actor => exact law_assemble law (toOption_ok accepted)
    | assembleDraftFromTicket ticketId ticketOrg actor =>
      exact law_assembleDraftFromTicket law (toOption_ok accepted)
    | issueInvoice id now actor => exact law_issueInvoice law (toOption_ok accepted) leaves
    | voidInvoice id reason reissue now actor => exact law_voidInvoice law (toOption_ok accepted)
    | updateTimeEntry id input reads actor => exact law_updateTimeEntry law (toOption_ok accepted) leaves
    | updateTicketPart id input => exact law_updateTicketPart law (toOption_ok accepted) leaves
    | deleteTimeEntry id actor => exact law_deleteTimeEntry law (toOption_ok accepted)
    | deleteTicketPart id => exact law_deleteTicketPart law (toOption_ok accepted)

end Law

theorem law_uninvoiced (entryIds : List ℕ) (entries : ℕ → Option TimeEntry) (partIds : List ℕ)
    (parts : ℕ → Option TicketPart) (sequences : ℤ → ℕ) :
    WorkLaw (uninvoiced entryIds entries partIds parts sequences) where
  billed i inv s stored := by cases stored
  once i j inv other s stored := by cases stored
  drawn i inv stored := by cases stored

/-- In a run that leaves the rows on live invoices billed, they are frozen after every step. -/
theorem billed_work_frozen (entryIds : List ℕ) (entries : ℕ → Option TimeEntry) (partIds : List ℕ)
    (parts : ℕ → Option TicketPart) (sequences : ℤ → ℕ) (es : List (PartnerSettings × WorkCall))
    (leaves : StepsMeet workStep LeavesBilled (uninvoiced entryIds entries partIds parts sequences) es) :
    Throughout workStep WorkDesk.Frozen (uninvoiced entryIds entries partIds parts sequences) es := by
  have keep : ∀ d e, WorkLaw d → LeavesBilled d e → WorkLaw (workStep d e) := fun _ e law leaves => law.step e leaves
  have lawful := throughout_of_invariant keep (law_uninvoiced entryIds entries partIds parts sequences) leaves
  exact fun pre post split => (lawful pre post split).frozen

instance decidableLeavesBilled (d : WorkDesk) : (e : PartnerSettings × WorkCall) → Decidable (LeavesBilled d e)
  | (_, .updateTimeEntry _ _ _ _) | (_, .updateTicketPart _ _) => inferInstanceAs (Decidable (_ → _ → ¬_))
  | (_, .issueInvoice _ _ _) => inferInstanceAs (Decidable (_ → ∀ inv ∈ _, ∀ l ∈ _, ∀ s ∈ _, _ → _))
  | (_, .assembleDraftFromOrg _ _ _ _) | (_, .assembleDraftFromTicket _ _ _) | (_, .voidInvoice _ _ _ _ _)
  | (_, .deleteTimeEntry _ _) | (_, .deleteTicketPart _) => .isTrue fun _ => trivial

def sampleHour : TimeEntry :=
  ⟨1, some 20, none, 7, 0, some 3600000, some 60, none, true, some 10000, .notBilled, false, none, none⟩

def sampleWork : WorkDesk :=
  uninvoiced [0] (fun k => if k = 0 then some sampleHour else none) [] (fun _ => none) fun _ => 0

def sampleWorker : TimeEntryActor := ⟨7, some 1, false, none⟩

def sampleBiller : InvoiceActor := ⟨some 1, none⟩

def unchanged : UpdateTimeEntryInput := ⟨none, none, none, none, none, none, none⟩

def unread : TicketReads := ⟨fun _ => none, fun _ => none, fun _ => none, fun _ => none⟩

def onNoon (call : WorkCall) : PartnerSettings × WorkCall := (⟨none, none, false, none⟩, call)

def sampleNoon : Instant := ⟨⟨2026, 7, 1⟩, 43200000⟩

/-- The hour is billed, its technician sets it back to `not_billed`, and it is billed again. -/
def rebillingCalls : List (PartnerSettings × WorkCall) :=
  [.assembleDraftFromOrg 20 0 86400000 sampleBiller, .issueInvoice 0 sampleNoon sampleBiller,
    .updateTimeEntry 0 { unchanged with billingStatus := some .notBilled } unread sampleWorker,
    .assembleDraftFromOrg 20 0 86400000 sampleBiller, .issueInvoice 1 sampleNoon sampleBiller].map onNoon

theorem hour_billed_twice :
    ∃ inv other, (rebillingCalls.foldl workStep sampleWork).invoices 0 = some inv ∧
      (rebillingCalls.foldl workStep sampleWork).invoices 1 = some other ∧ inv.Live ∧ other.Live ∧
      inv.Bills (.timeEntry 0) ∧ other.Bills (.timeEntry 0) :=
  ⟨_, _, rfl, rfl, by decide, by decide, by decide, by decide⟩

/-- The hour is billed, described, released with a draft in its place, and billed on that one. -/
def keepingCalls : List (PartnerSettings × WorkCall) :=
  [.assembleDraftFromOrg 20 0 86400000 sampleBiller, .issueInvoice 0 sampleNoon sampleBiller,
    .updateTimeEntry 0 { unchanged with description := some (some ['x']) } unread sampleWorker,
    .voidInvoice 0 "wrong rate" true sampleNoon sampleBiller, .issueInvoice 1 sampleNoon sampleBiller].map onNoon

theorem kept_hour_frozen :
    (∃ inv, (keepingCalls.foldl workStep sampleWork).invoices 1 = some inv ∧ inv.Live ∧ inv.Bills (.timeEntry 0)) ∧
      Throughout workStep WorkDesk.Frozen sampleWork keepingCalls :=
  ⟨⟨_, rfl, by decide, by decide⟩, billed_work_frozen _ _ _ _ _ keepingCalls
    (.cons (by decide) (.cons (by decide) (.cons (by decide) (.cons (by decide) (.cons (by decide) .nil)))))⟩

end RemudaRmm.Tickets
