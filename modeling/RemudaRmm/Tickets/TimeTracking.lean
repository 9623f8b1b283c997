import RemudaRmm.Billing.InvoiceTransactions

/-! Time entries and parts of tickets (`timeEntryService.ts`): the rows, and what each call makes of what it has read.
Instants are milliseconds, rates and prices are hundredths. -/
namespace RemudaRmm.Tickets
open Foundation Function
open Billing (BillingStatus)

inductive TimeEntryServiceErrorCode where
  | ticketNotFound
  | ticketWrongPartner
  | ticketOrgDenied
  | entryNotFound
  | partNotFound
  | notOwnEntry
  | adminRequired
  | approvedImmutable
  | noRunningTimer
  | entryRunning
  | partnerUnresolvable
  | invalidRange

structure TimeEntryServiceError where
  status : ℕ
  code : Option TimeEntryServiceErrorCode

/-- Without a partner, or without a list of organisations, the actor is the system. -/
structure TimeEntryActor where
  userId : ℕ
  partnerId : Option ℕ
  manageAll : Bool
  accessibleOrgIds : Option (List ℕ)

def computeDurationMinutes (startedAt endedAt : ℤ) : ℤ := (endedAt - startedAt) / 60000

structure TimeEntry where
  partnerId : ℕ
  (orgId ticketId : Option ℕ)
  userId : ℕ
  startedAt : ℤ
  (endedAt durationMinutes : Option ℤ)
  description : Option Text
  isBillable : Bool
  hourlyRate : Option ℕ
  billingStatus : BillingStatus
  isApproved : Bool
  approvedBy : Option ℕ
  approvedAt : Option ℤ
  deriving DecidableEq

structure TicketPart where
  (ticketId orgId : ℕ)
  catalogItemId : Option ℕ
  description : Text
  (quantity unitPrice : ℕ)
  costBasis : Option ℕ
  isBillable : Bool
  billingStatus : BillingStatus
  createdAt : ℤ

theorem update_some {α : Type} {rows : ℕ → Option α} {i j : ℕ} {t u : α}
    (stored : update rows i (some t) j = some u) : (j = i ∧ u = t) ∨ rows j = some u := by
  by_cases same : j = i
  · subst same
    rw [update_self] at stored
    exact .inl ⟨rfl, (Option.some.inj stored).symm⟩
  · rw [update_of_ne same] at stored
    exact .inr stored

structure TicketForTimeTracking where
  partnerId : Option ℕ
  orgId : ℕ
  categoryId : Option ℕ

structure BillingDefaults where
  defaultBillable : Option Bool
  defaultHourlyRate : Option ℕ

/-- What a call finds when it looks up a ticket, the partner and the defaults of its organisation, and the defaults of
its category. -/
structure TicketReads where
  ticket : ℕ → Option TicketForTimeTracking
  orgPartner : ℕ → Option ℕ
  orgDefaults : ℕ → Option BillingDefaults
  categoryDefaults : ℕ → Option BillingDefaults

structure TicketLink where
  (partnerId orgId : ℕ)
  defaultBillable : Bool
  defaultHourlyRate : Option ℕ

def resolveTicketPartner (reads : TicketReads) (ticket : TicketForTimeTracking) : Option ℕ :=
  ticket.partnerId.or (reads.orgPartner ticket.orgId)

def resolveTicketLink (reads : TicketReads) (ticketId : ℕ) (actor : TimeEntryActor) :
    Except TimeEntryServiceError TicketLink :=
  match reads.ticket ticketId with
  | none => .error ⟨404, some .ticketNotFound⟩
  | some ticket =>
    match resolveTicketPartner reads ticket with
    | none => .error ⟨400, some .partnerUnresolvable⟩
    | some partnerId =>
      if actor.partnerId.any (· ≠ partnerId) then .error ⟨400, some .ticketWrongPartner⟩
      else if actor.accessibleOrgIds.any (ticket.orgId ∉ ·) then .error ⟨404, some .ticketOrgDenied⟩
      else
        let org := reads.orgDefaults ticket.orgId
        let category := ticket.categoryId.bind reads.categoryDefaults
        .ok {
          partnerId := partnerId
          orgId := ticket.orgId
          defaultBillable :=
            ((org.bind (·.defaultBillable)).or (category.bind (·.defaultBillable))).getD false
          defaultHourlyRate := (org.bind (·.defaultHourlyRate)).or (category.bind (·.defaultHourlyRate)) }

def entryLink (reads : TicketReads) (ticketId : Option ℕ) (actor : TimeEntryActor) :
    Except TimeEntryServiceError (ℕ × Option TicketLink) :=
  match ticketId with
  | none =>
    match actor.partnerId with
    | none => .error ⟨400, some .partnerUnresolvable⟩
    | some partnerId => .ok (partnerId, none)
  | some id =>
    match resolveTicketLink reads id actor with
    | .error error => .error error
    | .ok link => .ok (link.partnerId, some link)

structure CreateTimeEntryInput where
  ticketId : Option ℕ
  (startedAt endedAt : ℤ)
  description : Option Text
  isBillable : Option Bool
  hourlyRate : Option (Option ℕ)
  billingStatus : Option BillingStatus

def createTimeEntry (reads : TicketReads) (input : CreateTimeEntryInput) (actor : TimeEntryActor) :
    Except TimeEntryServiceError TimeEntry :=
  match entryLink reads input.ticketId actor with
  | .error error => .error error
  | .ok (partnerId, link) =>
    if input.endedAt ≤ input.startedAt then .error ⟨400, some .invalidRange⟩
    else .ok {
      partnerId := partnerId
      orgId := link.map TicketLink.orgId
      ticketId := input.ticketId
      userId := actor.userId
      startedAt := input.startedAt
      endedAt := some input.endedAt
      durationMinutes := some (computeDurationMinutes input.startedAt input.endedAt)
      description := input.description
      isBillable := input.isBillable.getD (link.any TicketLink.defaultBillable)
      hourlyRate := input.hourlyRate.getD (link.bind TicketLink.defaultHourlyRate)
      billingStatus := input.billingStatus.getD .notBilled
      isApproved := false
      approvedBy := none
      approvedAt := none }

/-- The row that `startTimer` inserts once it has stopped the timer before. -/
def startTimer (reads : TicketReads) (ticketId : Option ℕ) (description : Option Text) (actor : TimeEntryActor)
    (now : ℤ) : Except TimeEntryServiceError TimeEntry :=
  match entryLink reads ticketId actor with
  | .error error => .error error
  | .ok (partnerId, link) => .ok {
      partnerId := partnerId
      orgId := link.map TicketLink.orgId
      ticketId := ticketId
      userId := actor.userId
      startedAt := now
      endedAt := none
      durationMinutes := none
      description := description
      isBillable := link.any TicketLink.defaultBillable
      hourlyRate := link.bind TicketLink.defaultHourlyRate
      billingStatus := .notBilled
      isApproved := false
      approvedBy := none
      approvedAt := none }

/-- An absent field is left as it is. -/
structure UpdateTimeEntryInput where
  ticketId : Option (Option ℕ)
  (startedAt endedAt : Option ℤ)
  description : Option (Option Text)
  isBillable : Option Bool
  hourlyRate : Option (Option ℕ)
  billingStatus : Option BillingStatus

/-- What `updateTimeEntry` sets: the fields of its input, the organisation of a new ticket, and the minutes when an
instant is given and the entry has an end. -/
structure TimeEntryPatch where
  input : UpdateTimeEntryInput
  orgId : Option (Option ℕ)
  durationMinutes : Option ℤ

def TimeEntryPatch.set (patch : TimeEntryPatch) (e : TimeEntry) : TimeEntry where
  partnerId := e.partnerId
  orgId := patch.orgId.getD e.orgId
  ticketId := patch.input.ticketId.getD e.ticketId
  userId := e.userId
  startedAt := patch.input.startedAt.getD e.startedAt
  endedAt := patch.input.endedAt.or e.endedAt
  durationMinutes := patch.durationMinutes.or e.durationMinutes
  description := patch.input.description.getD e.description
  isBillable := patch.input.isBillable.getD e.isBillable
  hourlyRate := patch.input.hourlyRate.getD e.hourlyRate
  billingStatus := patch.input.billingStatus.getD e.billingStatus
  isApproved := false
  approvedBy := none
  approvedAt := none

def entryOrgAllowed (orgId : Option ℕ) (accessibleOrgIds : Option (List ℕ)) : Bool :=
  accessibleOrgIds.all fun ids => orgId.all (· ∈ ids)

/-- The row that an actor finds: row-level security shows the entries of its partner. -/
def getEntryOr404 (row : Option TimeEntry) (actor : TimeEntryActor) : Except TimeEntryServiceError TimeEntry :=
  match row.filter fun e => actor.partnerId.all (· = e.partnerId) with
  | none => .error ⟨404, some .entryNotFound⟩
  | some e => if entryOrgAllowed e.orgId actor.accessibleOrgIds then .ok e else .error ⟨404, some .entryNotFound⟩

theorem getEntryOr404_ok {row : Option TimeEntry} {actor : TimeEntryActor} {e : TimeEntry}
    (found : getEntryOr404 row actor = .ok e) : row = some e := by
  unfold getEntryOr404 at found
  split at found
  next => cases found
  next seen =>
    split_ifs at found
    cases found
    exact (Option.filter_eq_some_iff.mp seen).1

def assertCanMutate (e : TimeEntry) (actor : TimeEntryActor) : Except TimeEntryServiceError Unit :=
  if e.userId ≠ actor.userId ∧ actor.manageAll = false then .error ⟨403, some .notOwnEntry⟩
  else if e.isApproved = true ∧ actor.manageAll = false then .error ⟨403, some .approvedImmutable⟩
  else .ok ()

def patchOrg (reads : TicketReads) (e : TimeEntry) (ticketId : Option (Option ℕ)) (actor : TimeEntryActor) :
    Except TimeEntryServiceError (Option (Option ℕ)) :=
  match ticketId with
  | none => .ok none
  | some none => .ok (some none)
  | some (some id) =>
    match resolveTicketLink reads id actor with
    | .error error => .error error
    | .ok link =>
      if link.partnerId ≠ e.partnerId then .error ⟨400, some .ticketWrongPartner⟩ else .ok (some (some link.orgId))

/-- `updateTimeEntry` up to its update, on the row that it has found. -/
def updateTimeEntry (reads : TicketReads) (e : TimeEntry) (input : UpdateTimeEntryInput) (actor : TimeEntryActor) :
    Except TimeEntryServiceError TimeEntryPatch :=
  match assertCanMutate e actor with
  | .error error => .error error
  | .ok () =>
    let startedAt := input.startedAt.getD e.startedAt
    let endedAt := input.endedAt.or e.endedAt
    if endedAt.any (· ≤ startedAt) then .error ⟨400, some .invalidRange⟩
    else
      match patchOrg reads e input.ticketId actor with
      | .error error => .error error
      | .ok orgId =>
        let timed := input.startedAt.isSome || input.endedAt.isSome
        .ok ⟨input, orgId, if timed then endedAt.map (computeDurationMinutes startedAt) else none⟩

/-- What `updateTimeEntry` has made sure of. -/
structure TimeEntryPatch.Sound (reads : TicketReads) (actor : TimeEntryActor) (read : TimeEntry)
    (patch : TimeEntryPatch) : Prop where
  allowed : assertCanMutate read actor = .ok ()
  ordered : ∀ finish, patch.input.endedAt.or read.endedAt = some finish →
    patch.input.startedAt.getD read.startedAt < finish
  org : patchOrg reads read patch.input.ticketId actor = .ok patch.orgId
  minutes : patch.durationMinutes = if patch.input.startedAt.isSome || patch.input.endedAt.isSome then
      (patch.input.endedAt.or read.endedAt).map
        (computeDurationMinutes (patch.input.startedAt.getD read.startedAt))
    else none

theorem updateTimeEntry_ok {reads : TicketReads} {read : TimeEntry} {input : UpdateTimeEntryInput}
    {actor : TimeEntryActor} {patch : TimeEntryPatch} (accepted : updateTimeEntry reads read input actor = .ok patch) :
    patch.input = input ∧ patch.Sound reads actor read := by
  unfold updateTimeEntry at accepted
  split at accepted
  next => cases accepted
  next allowed =>
    simp only at accepted
    by_cases range : (input.endedAt.or read.endedAt).any (· ≤ input.startedAt.getD read.startedAt) = true
    · rw [if_pos range] at accepted
      cases accepted
    · rw [if_neg range] at accepted
      split at accepted
      next => cases accepted
      next orgId org =>
        cases accepted
        refine ⟨rfl, allowed, fun finish given => ?_, org, rfl⟩
        have inside : ¬finish ≤ input.startedAt.getD read.startedAt := by
          intro before
          simp only at given
          rw [given] at range
          exact range (decide_eq_true before)
        exact not_le.mp inside

/-- What stops a timer may also bring a description and whether the time is billable. -/
structure StopOverrides where
  description : Option Text
  isBillable : Option Bool

/-- The update of `stopRunningEntry`. -/
def TimeEntry.stop (e : TimeEntry) (now : ℤ) (overrides : StopOverrides) : TimeEntry :=
  { e with
    endedAt := some now
    durationMinutes := some (computeDurationMinutes e.startedAt now)
    description := overrides.description.or e.description
    isBillable := overrides.isBillable.getD e.isBillable }

/-- The update of `approveTimeEntries`. -/
def TimeEntry.approve (e : TimeEntry) (approve : Bool) (actor : TimeEntryActor) (now : ℤ) : TimeEntry :=
  if approve then { e with isApproved := true, approvedBy := some actor.userId, approvedAt := some now }
  else { e with isApproved := false, approvedBy := none, approvedAt := none }

structure TicketPartInput where
  catalogItemId : Option ℕ
  description : Text
  quantity : ℕ
  (unitPrice costBasis : Option ℕ)
  isBillable : Option Bool
  billingStatus : Option BillingStatus

def addTicketPart (reads : TicketReads) (ticketId : ℕ) (input : TicketPartInput) (actor : TimeEntryActor) (now : ℤ) :
    Except TimeEntryServiceError TicketPart :=
  (resolveTicketLink reads ticketId actor).map fun link => {
    ticketId := ticketId
    orgId := link.orgId
    catalogItemId := input.catalogItemId
    description := input.description
    quantity := input.quantity
    unitPrice := input.unitPrice.getD 0
    costBasis := input.costBasis
    isBillable := input.isBillable.getD link.defaultBillable
    billingStatus := input.billingStatus.getD .notBilled
    createdAt := now }

/-- An absent field is left as it is. -/
structure UpdateTicketPartInput where
  catalogItemId : Option (Option ℕ)
  description : Option Text
  (quantity unitPrice : Option ℕ)
  costBasis : Option (Option ℕ)
  isBillable : Option Bool
  billingStatus : Option BillingStatus

def updateTicketPart (input : UpdateTicketPartInput) (part : TicketPart) : TicketPart :=
  { part with
    catalogItemId := input.catalogItemId.getD part.catalogItemId
    description := input.description.getD part.description
    quantity := input.quantity.getD part.quantity
    unitPrice := input.unitPrice.getD part.unitPrice
    costBasis := input.costBasis.getD part.costBasis
    isBillable := input.isBillable.getD part.isBillable
    billingStatus := input.billingStatus.getD part.billingStatus }

end RemudaRmm.Tickets
