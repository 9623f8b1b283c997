import RemudaRmm.Tickets.TicketStatus
import RemudaRmm.Tickets.TimeTracking

/-! What is attached to a ticket and whose it is (`ticketService.ts`, `timeEntryService.ts`): each call is atomic, and
one that is rejected changes nothing. -/
namespace RemudaRmm.Tickets
open Foundation List Function Option

inductive TicketSource where
  | portal
  | email
  | alert
  | manual
  | api
  | ai
  deriving DecidableEq

def TicketSource.External (s : TicketSource) : Prop := s = .portal ∨ s = .email
  deriving Decidable

structure PortalUser where
  orgId : ℕ
  name : Option Text
  email : Text

/-- Who owns what; no owner ever changes. -/
structure Owners where
  orgPartner : ℕ → ℕ
  deviceOrg : ℕ → ℕ
  alertOrg : ℕ → ℕ
  categoryPartner : ℕ → ℕ
  userPartner : ℕ → ℕ
  portalUser : ℕ → PortalUser

inductive RowRef where
  | org (id : ℕ)
  | device (id : ℕ)
  | alert (id : ℕ)
  | category (id : ℕ)
  | user (id : ℕ)
  | portalUser (id : ℕ)
  | ticket (id : ℕ)
  | timeEntry (id : ℕ)

/-- What a call finds at its time: the rows that exist and that its actor may see, and the billing defaults. -/
structure TenantView where
  sees : RowRef → Bool
  orgDefaults : ℕ → Option BillingDefaults
  categoryDefaults : ℕ → Option BillingDefaults

structure TenantTicket where
  orgId : ℕ
  partnerId : Option ℕ
  source : TicketSource
  (deviceId categoryId assignedTo submittedBy : Option ℕ)
  (submitterName submitterEmail : Option Text)

structure TicketAlertLink where
  (ticketId orgId alertId : ℕ)

/-- The tables; the ids from the counters on have not been drawn yet. -/
structure Desk where
  tickets : ℕ → Option TenantTicket
  nextTicket : ℕ
  links : List TicketAlertLink
  entries : ℕ → Option TimeEntry
  nextEntry : ℕ
  parts : List TicketPart

def emptyDesk : Desk := ⟨fun _ => none, 0, [], fun _ => none, 0, []⟩

section Checks
variable (owners : Owners) (view : TenantView)

def TenantView.look {α : Type} (ref : RowRef) (row : α) : Option α := if view.sees ref then some row else none

def resolveTicketPartnerId (ticket : TenantTicket) : Option ℕ :=
  ticket.partnerId.or (view.look (.org ticket.orgId) (owners.orgPartner ticket.orgId))

def assertDeviceInOrg (orgId deviceId : ℕ) : Except TicketServiceError PUnit := do
  let deviceOrg ← orFail (view.look (.device deviceId) (owners.deviceOrg deviceId)) ⟨404, none⟩
  require (deviceOrg = orgId) ⟨400, none⟩

def assertUserInPartner (partnerId : Option ℕ) (assigneeId : ℕ) : Except TicketServiceError Unit :=
  assertAssigneeInPartner (view.look (.user assigneeId) (owners.userPartner assigneeId)) partnerId

def assertCategoryInPartner (partnerId : Option ℕ) (categoryId : ℕ) : Except TicketServiceError PUnit := do
  let category ← orFail (view.look (.category categoryId) (owners.categoryPartner categoryId))
    ⟨404, some .categoryNotFound⟩
  let partner ← orFail partnerId ⟨500, some .ticketPartnerUnresolvable⟩
  require (category = partner) ⟨400, some .categoryWrongPartner⟩

def assertRequesterInOrg (orgId portalUserId : ℕ) : Except TicketServiceError PortalUser := do
  let portalUser ← orFail (view.look (.portalUser portalUserId) (owners.portalUser portalUserId))
    ⟨404, some .requesterNotFound⟩
  require (portalUser.orgId = orgId) ⟨400, some .requesterWrongOrg⟩
  .ok portalUser

end Checks

structure CreateTicketInput where
  orgId : ℕ
  source : TicketSource
  (deviceId categoryId assigneeId submittedBy : Option ℕ)
  (submitterName submitterEmail : Option Text)

/-- `none` leaves a field as it is, `some none` clears it. -/
structure UpdateTicketFieldsInput where
  deviceId : Option (Option ℕ)
  categoryId : Option (Option ℕ)
  submittedBy : Option (Option ℕ)
  submitterName : Option (Option Text)
  submitterEmail : Option (Option Text)

inductive DeskCall where
  | createTicket (input : CreateTicketInput) (actorName : Option Text)
  | updateTicketFields (ticketId : ℕ) (fields : UpdateTicketFieldsInput)
  | assignTicket (ticketId : ℕ) (assigneeId : Option ℕ)
  | linkAlertToTicket (ticketId alertId : ℕ)
  | unlinkAlertFromTicket (ticketId alertId : ℕ)
  | moveTicketOrg (ticketId targetOrgId : ℕ)
  | createTimeEntry (input : CreateTimeEntryInput) (actor : TimeEntryActor)
  | updateTimeEntry (id : ℕ) (input : UpdateTimeEntryInput) (actor : TimeEntryActor)
  | addTicketPart (ticketId : ℕ) (input : TicketPartInput) (actor : TimeEntryActor) (now : ℤ)

section Calls
variable (owners : Owners) (view : TenantView)

/-- The requester of a new ticket: given from outside, picked among the portal users, free text, or the actor. -/
def requesterOf (input : CreateTicketInput) (actorName : Option Text) :
    Except TicketServiceError (Option ℕ × Option Text × Option Text) :=
  if input.source.External then .ok (input.submittedBy, input.submitterName, input.submitterEmail)
  else
    match input.submittedBy with
    | some portalUserId => do
        let portalUser ← assertRequesterInOrg owners view input.orgId portalUserId
        .ok (some portalUserId, input.submitterName.or portalUser.name,
          some (input.submitterEmail.getD portalUser.email))
    | none =>
      if input.submitterName.any (· ≠ []) ∨ input.submitterEmail.any (· ≠ []) then
        .ok (none, input.submitterName, input.submitterEmail)
      else .ok (none, actorName, none)

def openTicket (input : CreateTicketInput) (actorName : Option Text) : Except TicketServiceError TenantTicket := do
  let partnerId ← orFail (view.look (.org input.orgId) (owners.orgPartner input.orgId)) ⟨404, none⟩
  let _ ← checkGiven input.deviceId (assertDeviceInOrg owners view input.orgId)
  let _ ← checkGiven input.assigneeId (assertUserInPartner owners view (some partnerId))
  let _ ← checkGiven input.categoryId (assertCategoryInPartner owners view (some partnerId))
  let requester ← requesterOf owners view input actorName
  .ok ⟨input.orgId, some partnerId, input.source, input.deviceId, input.categoryId, input.assigneeId, requester.1,
    requester.2.1, requester.2.2⟩

/-- The ticket with its requester edited: a portal user brings name and email along. -/
def editRequester (fields : UpdateTicketFieldsInput) (ticket : TenantTicket) : Except TicketServiceError TenantTicket :=
  match fields.submittedBy with
  | some (some portalUserId) => do
      let portalUser ← assertRequesterInOrg owners view ticket.orgId portalUserId
      .ok { ticket with
        submittedBy := some portalUserId
        submitterName := fields.submitterName.getD portalUser.name
        submitterEmail := fields.submitterEmail.getD (some portalUser.email) }
  | cleared =>
    .ok { ticket with
      submittedBy := cleared.getD ticket.submittedBy
      submitterName := fields.submitterName.getD ticket.submitterName
      submitterEmail := fields.submitterEmail.getD ticket.submitterEmail }

/-- A field that is set to what it is already makes no difference to the row. -/
def editTicket (fields : UpdateTicketFieldsInput) (ticket : TenantTicket) : Except TicketServiceError TenantTicket := do
  let _ ← checkGiven (fields.deviceId.bind id) (assertDeviceInOrg owners view ticket.orgId)
  let _ ← checkGiven (fields.categoryId.bind id)
    (assertCategoryInPartner owners view (resolveTicketPartnerId owners view ticket))
  let edited ← editRequester owners view fields ticket
  .ok { edited with
    deviceId := fields.deviceId.getD ticket.deviceId
    categoryId := fields.categoryId.getD ticket.categoryId }

namespace Desk

def find (d : Desk) (ticketId : ℕ) : Option TenantTicket :=
  (d.tickets ticketId).filter fun _ => view.sees (.ticket ticketId)

def getTicketOrThrow (d : Desk) (ticketId : ℕ) : Except TicketServiceError TenantTicket :=
  orFail (d.find view ticketId) ⟨404, none⟩

def setTicket (ticketId : ℕ) (ticket : TenantTicket) (d : Desk) : Desk :=
  { d with tickets := update d.tickets ticketId (some ticket) }

def createTicket (input : CreateTicketInput) (actorName : Option Text) (d : Desk) : Except TicketServiceError Desk := do
  let ticket ← openTicket owners view input actorName
  .ok { d.setTicket d.nextTicket ticket with nextTicket := d.nextTicket + 1 }

def updateTicketFields (ticketId : ℕ) (fields : UpdateTicketFieldsInput) (d : Desk) :
    Except TicketServiceError Desk := do
  let ticket ← d.getTicketOrThrow view ticketId
  let edited ← editTicket owners view fields ticket
  .ok (d.setTicket ticketId edited)

def assignTicket (ticketId : ℕ) (assigneeId : Option ℕ) (d : Desk) : Except TicketServiceError Desk := do
  let ticket ← d.getTicketOrThrow view ticketId
  let _ ← checkGiven assigneeId (assertUserInPartner owners view (resolveTicketPartnerId owners view ticket))
  .ok (d.setTicket ticketId { ticket with assignedTo := assigneeId })

/-- The ticket leaves its device and takes the rows that carry its organisation along. -/
def move (ticketId targetOrgId : ℕ) (ticket : TenantTicket) (d : Desk) : Desk where
  tickets := update d.tickets ticketId (some { ticket with orgId := targetOrgId, deviceId := none })
  nextTicket := d.nextTicket
  links := d.links.map fun l => if l.ticketId = ticketId then { l with orgId := targetOrgId } else l
  entries := fun k =>
    (d.entries k).map fun e => if e.ticketId = some ticketId then { e with orgId := some targetOrgId } else e
  nextEntry := d.nextEntry
  parts := d.parts.map fun p => if p.ticketId = ticketId then { p with orgId := targetOrgId } else p

def linkAlertToTicket (ticketId alertId : ℕ) (d : Desk) : Except TicketServiceError Desk := do
  let ticket ← d.getTicketOrThrow view ticketId
  let alertOrg ← orFail (view.look (.alert alertId) (owners.alertOrg alertId)) ⟨404, none⟩
  require (alertOrg = ticket.orgId) ⟨400, none⟩
  require (∀ l ∈ d.links, ¬(l.ticketId = ticketId ∧ l.alertId = alertId)) ⟨409, none⟩
  .ok { d with links := d.links ++ [⟨ticketId, ticket.orgId, alertId⟩] }

def unlinkAlertFromTicket (ticketId alertId : ℕ) (d : Desk) : Except TicketServiceError Desk := do
  let _ ← d.getTicketOrThrow view ticketId
  require (∃ l ∈ d.links, l.ticketId = ticketId ∧ l.alertId = alertId) ⟨404, none⟩
  .ok { d with links := d.links.filter fun l => ¬(l.ticketId = ticketId ∧ l.alertId = alertId) }

def moveTicketOrg (ticketId targetOrgId : ℕ) (d : Desk) : Except TicketServiceError Desk := do
  let ticket ← d.getTicketOrThrow view ticketId
  if ticket.orgId = targetOrgId then .ok d
  else
    let target ← orFail (view.look (.org targetOrgId) (owners.orgPartner targetOrgId)) ⟨404, none⟩
    require (view.look (.org ticket.orgId) (owners.orgPartner ticket.orgId) = some target) ⟨400, none⟩
    .ok (d.move ticketId targetOrgId ticket)

def reads (d : Desk) : TicketReads where
  ticket := fun id => (d.find view id).map fun t => ⟨t.partnerId, t.orgId, t.categoryId⟩
  orgPartner := fun id => view.look (.org id) (owners.orgPartner id)
  orgDefaults := view.orgDefaults
  categoryDefaults := view.categoryDefaults

def setEntry (k : ℕ) (e : TimeEntry) (d : Desk) : Desk := { d with entries := update d.entries k (some e) }

def createTimeEntry (input : CreateTimeEntryInput) (actor : TimeEntryActor) (d : Desk) :
    Except TimeEntryServiceError Desk := do
  let e ← Tickets.createTimeEntry (d.reads owners view) input actor
  .ok { d.setEntry d.nextEntry e with nextEntry := d.nextEntry + 1 }

def updateTimeEntry (id : ℕ) (input : UpdateTimeEntryInput) (actor : TimeEntryActor) (d : Desk) :
    Except TimeEntryServiceError Desk := do
  let e ← getEntryOr404 ((d.entries id).filter fun _ => view.sees (.timeEntry id)) actor
  let patch ← Tickets.updateTimeEntry (d.reads owners view) e input actor
  .ok (d.setEntry id (patch.set e))

def addTicketPart (ticketId : ℕ) (input : TicketPartInput) (actor : TimeEntryActor) (now : ℤ) (d : Desk) :
    Except TimeEntryServiceError Desk := do
  let part ← Tickets.addTicketPart (d.reads owners view) ticketId input actor now
  .ok { d with parts := d.parts ++ [part] }

end Desk

/-- One call; `none` when it is rejected. -/
def deskCall (d : Desk) : DeskCall → Option Desk
  | .createTicket input actorName => (d.createTicket owners view input actorName).toOption
  | .updateTicketFields ticketId fields => (d.updateTicketFields owners view ticketId fields).toOption
  | .assignTicket ticketId assigneeId => (d.assignTicket owners view ticketId assigneeId).toOption
  | .linkAlertToTicket ticketId alertId => (d.linkAlertToTicket owners view ticketId alertId).toOption
  | .unlinkAlertFromTicket ticketId alertId => (d.unlinkAlertFromTicket view ticketId alertId).toOption
  | .moveTicketOrg ticketId targetOrgId => (d.moveTicketOrg owners view ticketId targetOrgId).toOption
  | .createTimeEntry input actor => (d.createTimeEntry owners view input actor).toOption
  | .updateTimeEntry id input actor => (d.updateTimeEntry owners view id input actor).toOption
  | .addTicketPart ticketId input actor now => (d.addTicketPart owners view ticketId input actor now).toOption

end Calls

def deskStep (owners : Owners) (d : Desk) (e : TenantView × DeskCall) : Desk := (deskCall owners e.1 d e.2).getD d

/-- What a ticket refers to is of its organisation or its partner. -/
structure TicketBelongs (owners : Owners) (t : TenantTicket) : Prop where
  device : ∀ deviceId, t.deviceId = some deviceId → owners.deviceOrg deviceId = t.orgId
  requester : ¬t.source.External → ∀ portalUserId, t.submittedBy = some portalUserId →
    (owners.portalUser portalUserId).orgId = t.orgId
  assignee : ∀ userId, t.assignedTo = some userId → t.partnerId = some (owners.userPartner userId)
  category : ∀ categoryId, t.categoryId = some categoryId → t.partnerId = some (owners.categoryPartner categoryId)

/-- Everything attached to a ticket belongs to its tenant. -/
structure DeskBelongs (owners : Owners) (d : Desk) : Prop where
  tickets : ∀ i t, d.tickets i = some t → TicketBelongs owners t
  alerts : ∀ l ∈ d.links, ∀ t, d.tickets l.ticketId = some t → owners.alertOrg l.alertId = t.orgId
  entries : ∀ k e i t, d.entries k = some e → e.ticketId = some i → d.tickets i = some t → e.orgId = some t.orgId
  parts : ∀ p ∈ d.parts, ∀ t, d.tickets p.ticketId = some t → p.orgId = t.orgId

def Desk.orgOf (d : Desk) (ticketId : ℕ) : Option ℕ := (d.tickets ticketId).map TenantTicket.orgId

/-- Each ticket is of the partner of its organisation, and what is attached to a ticket is of the organisation of a
ticket that is there. -/
structure DeskLaw (owners : Owners) (d : Desk) : Prop where
  tickets : ∀ i t, d.tickets i = some t → TicketBelongs owners t
  partner : ∀ i t, d.tickets i = some t → t.partnerId = some (owners.orgPartner t.orgId)
  drawn : ∀ i t, d.tickets i = some t → i < d.nextTicket
  alerts : ∀ l ∈ d.links, d.orgOf l.ticketId = some (owners.alertOrg l.alertId)
  entries : ∀ k e i, d.entries k = some e → e.ticketId = some i → ∃ orgId, e.orgId = some orgId ∧ d.orgOf i = some orgId
  parts : ∀ p ∈ d.parts, d.orgOf p.ticketId = some p.orgId

/-- Nothing hangs on the ticket that a move would leave behind: no alert, and no requester that is not from outside. -/
def Bare (d : Desk) (ticketId : ℕ) (t : TenantTicket) : Prop :=
  (∀ l ∈ d.links, l.ticketId ≠ ticketId) ∧ (t.source.External ∨ t.submittedBy = none)

/-- The ticket goes to another organisation of its partner. -/
structure Moves (owners : Owners) (view : TenantView) (d : Desk) (ticketId targetOrgId : ℕ) (t : TenantTicket) :
    Prop where
  found : d.find view ticketId = some t
  other : t.orgId ≠ targetOrgId
  target : view.sees (.org targetOrgId) = true
  source : view.sees (.org t.orgId) = true
  partner : owners.orgPartner t.orgId = owners.orgPartner targetOrgId

def MovesBare (owners : Owners) (d : Desk) (e : TenantView × DeskCall) : Prop :=
  ∀ ticketId targetOrgId t, e.2 = .moveTicketOrg ticketId targetOrgId → Moves owners e.1 d ticketId targetOrgId t →
    Bare d ticketId t

section Passed
variable {owners : Owners} {view : TenantView}
variable {partnerId : ℕ} {ticket : TenantTicket}

theorem look_some {α : Type} {ref : RowRef} {row found : α} (seen : view.look ref row = some found) :
    view.sees ref = true ∧ row = found := by
  unfold TenantView.look at seen
  split_ifs at seen with sees
  exact ⟨sees, some.inj seen⟩

theorem deviceInOrg {orgId deviceId : ℕ} {u : PUnit} (passed : assertDeviceInOrg owners view orgId deviceId = .ok u) :
    owners.deviceOrg deviceId = orgId := by
  obtain ⟨deviceOrg, found, same⟩ := except_bind_ok passed
  exact (look_some (orFail_ok found)).2.trans (require_ok same)

theorem userInPartner {assigneeId : ℕ} {u : Unit}
    (passed : assertUserInPartner owners view (some partnerId) assigneeId = .ok u) :
    owners.userPartner assigneeId = partnerId := by
  unfold assertUserInPartner at passed
  cases seen : view.look (.user assigneeId) (owners.userPartner assigneeId) with
  | none =>
    rw [seen] at passed
    cases passed
  | some partner =>
    rw [seen] at passed
    simp only [assertAssigneeInPartner] at passed
    split_ifs at passed with other
    exact (look_some seen).2.trans (not_not.mp other)

theorem categoryInPartner {categoryId : ℕ} {u : PUnit}
    (passed : assertCategoryInPartner owners view (some partnerId) categoryId = .ok u) :
    owners.categoryPartner categoryId = partnerId := by
  obtain ⟨category, found, rest⟩ := except_bind_ok passed
  obtain ⟨partner, given, same⟩ := except_bind_ok rest
  have seen := (look_some (orFail_ok found)).2
  exact seen.trans ((require_ok same).trans (some.inj (orFail_ok given)).symm)

theorem requesterInOrg {orgId portalUserId : ℕ} {portalUser : PortalUser}
    (passed : assertRequesterInOrg owners view orgId portalUserId = .ok portalUser) :
    (owners.portalUser portalUserId).orgId = orgId := by
  obtain ⟨requester, found, rest⟩ := except_bind_ok passed
  obtain ⟨_, same, _⟩ := except_bind_ok rest
  exact (congrArg PortalUser.orgId (look_some (orFail_ok found)).2).trans (require_ok same)

theorem requesterOf_ok {input : CreateTicketInput} {actorName : Option Text}
    {requester : Option ℕ × Option Text × Option Text}
    (resolved : requesterOf owners view input actorName = .ok requester) (inside : ¬input.source.External)
    {portalUserId : ℕ} (named : requester.1 = some portalUserId) :
    (owners.portalUser portalUserId).orgId = input.orgId := by
  unfold requesterOf at resolved
  rw [if_neg inside] at resolved
  split at resolved
  next picked _ =>
    obtain ⟨portalUser, passed, result⟩ := except_bind_ok resolved
    cases result
    cases named
    exact requesterInOrg passed
  next =>
    split_ifs at resolved
    all_goals
      cases resolved
      cases named

theorem openTicket_ok {input : CreateTicketInput} {actorName : Option Text}
    (opened : openTicket owners view input actorName = .ok ticket) :
    TicketBelongs owners ticket ∧ ticket.partnerId = some (owners.orgPartner ticket.orgId) := by
  obtain ⟨partnerId, found, opened⟩ := except_bind_ok opened
  obtain ⟨_, device, opened⟩ := except_bind_ok opened
  obtain ⟨_, assignee, opened⟩ := except_bind_ok opened
  obtain ⟨_, category, opened⟩ := except_bind_ok opened
  obtain ⟨requester, resolved, opened⟩ := except_bind_ok opened
  cases opened
  have partner := (look_some (orFail_ok found)).2
  refine ⟨⟨fun deviceId given => ?_, fun inside portalUserId named => ?_, fun userId given => ?_,
    fun categoryId given => ?_⟩, congrArg some partner.symm⟩
  · obtain ⟨_, passed, -⟩ := checkGiven_ok device given
    exact deviceInOrg passed
  · exact requesterOf_ok resolved inside named
  · obtain ⟨_, passed, -⟩ := checkGiven_ok assignee given
    exact congrArg some (userInPartner passed).symm
  · obtain ⟨_, passed, -⟩ := checkGiven_ok category given
    exact congrArg some (categoryInPartner passed).symm

theorem editRequester_ok {fields : UpdateTicketFieldsInput} {edited : TenantTicket}
    (passed : editRequester owners view fields ticket = .ok edited) :
    (∃ requester name email, edited =
      { ticket with submittedBy := requester, submitterName := name, submitterEmail := email }) ∧
    ∀ portalUserId, edited.submittedBy = some portalUserId →
      (owners.portalUser portalUserId).orgId = ticket.orgId ∨ ticket.submittedBy = some portalUserId := by
  unfold editRequester at passed
  split at passed
  next portalUserId _ =>
    obtain ⟨portalUser, checked, result⟩ := except_bind_ok passed
    cases result
    refine ⟨⟨_, _, _, rfl⟩, fun u same => .inl ?_⟩
    cases same
    exact requesterInOrg checked
  next cleared kept =>
    cases passed
    refine ⟨⟨_, _, _, rfl⟩, fun u same => .inr ?_⟩
    cases given : fields.submittedBy with
    | none =>
      rw [given] at same
      exact same
    | some requester =>
      cases requester with
      | none =>
        rw [given] at same
        cases same
      | some id => exact absurd given (kept id)

theorem resolveTicketPartnerId_some (partner : ticket.partnerId = some partnerId) :
    resolveTicketPartnerId owners view ticket = some partnerId := by
  rw [resolveTicketPartnerId, partner, some_or]

theorem editTicket_ok {fields : UpdateTicketFieldsInput} {edited : TenantTicket}
    (passed : editTicket owners view fields ticket = .ok edited) (belongs : TicketBelongs owners ticket)
    (partner : ticket.partnerId = some partnerId) :
    TicketBelongs owners edited ∧ edited.orgId = ticket.orgId ∧ edited.partnerId = ticket.partnerId := by
  obtain ⟨_, device, passed⟩ := except_bind_ok passed
  obtain ⟨_, category, passed⟩ := except_bind_ok passed
  obtain ⟨between, requester, passed⟩ := except_bind_ok passed
  cases passed
  obtain ⟨⟨requester', name, email, rfl⟩, named⟩ := editRequester_ok requester
  rw [resolveTicketPartnerId_some partner] at category
  refine ⟨⟨fun deviceId given => ?_, fun inside portalUserId given => ?_, belongs.assignee, fun categoryId given => ?_⟩,
    rfl, rfl⟩
  · cases asked : fields.deviceId with
    | none =>
      simp only [asked] at given
      exact belongs.device deviceId given
    | some target =>
      simp only [asked, getD_some] at given
      obtain ⟨_, checked, -⟩ := checkGiven_ok device (by rw [asked]; exact given)
      exact deviceInOrg checked
  · rcases named portalUserId given with own | before
    · exact own
    · exact belongs.requester inside portalUserId before
  · cases asked : fields.categoryId with
    | none =>
      simp only [asked] at given
      exact belongs.category categoryId given
    | some target =>
      simp only [asked, getD_some] at given
      obtain ⟨_, checked, -⟩ := checkGiven_ok category (by rw [asked]; exact given)
      exact partner.trans (congrArg some (categoryInPartner checked).symm)

theorem resolveTicketLink_ok {reads : TicketReads} {ticketId : ℕ} {actor : TimeEntryActor} {link : TicketLink}
    (linked : resolveTicketLink reads ticketId actor = .ok link) :
    ∃ ticket, reads.ticket ticketId = some ticket ∧ link.orgId = ticket.orgId := by
  unfold resolveTicketLink at linked
  split at linked
  next => cases linked
  next ticket found =>
    split at linked
    next => cases linked
    next =>
      split_ifs at linked
      cases linked
      exact ⟨ticket, found, rfl⟩

end Passed

/-- All that a call can do. -/
inductive DeskEffect (owners : Owners) (view : TenantView) (d : Desk) : DeskCall → Desk → Prop
  | stayed {call : DeskCall} : DeskEffect owners view d call d
  | opened {call : DeskCall} (t : TenantTicket) (belongs : TicketBelongs owners t)
      (partner : t.partnerId = some (owners.orgPartner t.orgId)) :
      DeskEffect owners view d call { d.setTicket d.nextTicket t with nextTicket := d.nextTicket + 1 }
  | edited {call : DeskCall} (i : ℕ) (t edited : TenantTicket) (found : d.tickets i = some t)
      (belongs : TicketBelongs owners edited) (org : edited.orgId = t.orgId)
      (partner : edited.partnerId = t.partnerId) : DeskEffect owners view d call (d.setTicket i edited)
  | linked {call : DeskCall} (l : TicketAlertLink) (own : d.orgOf l.ticketId = some (owners.alertOrg l.alertId)) :
      DeskEffect owners view d call { d with links := d.links ++ [l] }
  | unlinked {call : DeskCall} (keep : TicketAlertLink → Bool) :
      DeskEffect owners view d call { d with links := d.links.filter keep }
  | moved (i targetOrgId : ℕ) (t : TenantTicket) (moves : Moves owners view d i targetOrgId t) :
      DeskEffect owners view d (.moveTicketOrg i targetOrgId) (d.move i targetOrgId t)
  | entered {call : DeskCall} (k next : ℕ) (e : TimeEntry)
      (own : ∀ i, e.ticketId = some i → ∃ orgId, e.orgId = some orgId ∧ d.orgOf i = some orgId) :
      DeskEffect owners view d call { d.setEntry k e with nextEntry := next }
  | added {call : DeskCall} (p : TicketPart) (own : d.orgOf p.ticketId = some p.orgId) :
      DeskEffect owners view d call { d with parts := d.parts ++ [p] }

section Steps
variable {owners : Owners} {view : TenantView} {d next : Desk} {call : DeskCall}
variable {i ticketId targetOrgId : ℕ} {t : TenantTicket} {actor : TimeEntryActor}

theorem Desk.find_some (found : d.find view i = some t) : d.tickets i = some t :=
  (filter_eq_some_iff.mp found).1

theorem Desk.orgOf_some (found : d.tickets i = some t) : d.orgOf i = some t.orgId := by
  rw [Desk.orgOf, found, map_some]

theorem link_orgOf {link : TicketLink} (linked : resolveTicketLink (d.reads owners view) ticketId actor = .ok link) :
    d.orgOf ticketId = some link.orgId := by
  obtain ⟨ticket, read, same⟩ := resolveTicketLink_ok linked
  obtain ⟨t, found, rfl⟩ := map_eq_some_iff.mp read
  rw [same]
  exact Desk.orgOf_some (Desk.find_some found)

theorem effect_createTimeEntry {input : CreateTimeEntryInput}
    (accepted : d.createTimeEntry owners view input actor = .ok next) : DeskEffect owners view d call next := by
  obtain ⟨e, created, result⟩ := except_bind_ok accepted
  cases result
  refine .entered d.nextEntry (d.nextEntry + 1) e fun i attached => ?_
  unfold Tickets.createTimeEntry at created
  split at created
  next => cases created
  next partnerId link entered =>
    split_ifs at created
    cases created
    have given : input.ticketId = some i := attached
    rw [given] at entered
    simp only [entryLink] at entered
    split at entered
    next => cases entered
    next found linked =>
      obtain ⟨rfl, rfl⟩ := Prod.mk.inj (Except.ok.inj entered)
      exact ⟨found.orgId, rfl, link_orgOf linked⟩

theorem effect_updateTimeEntry (law : DeskLaw owners d) {id : ℕ} {input : UpdateTimeEntryInput}
    (accepted : d.updateTimeEntry owners view id input actor = .ok next) : DeskEffect owners view d call next := by
  obtain ⟨e, found, accepted⟩ := except_bind_ok accepted
  obtain ⟨patch, patched, result⟩ := except_bind_ok accepted
  cases result
  have stored := (filter_eq_some_iff.mp (getEntryOr404_ok found)).1
  obtain ⟨rfl, sound⟩ := updateTimeEntry_ok patched
  refine .entered id d.nextEntry (patch.set e) fun i attached => ?_
  have org := sound.org
  simp only [TimeEntryPatch.set] at attached ⊢
  cases asked : patch.input.ticketId with
  | none =>
    rw [asked] at attached org
    rw [← Except.ok.inj org]
    exact law.entries id e i stored attached
  | some target =>
    rw [asked] at attached org
    obtain rfl : target = some i := attached
    simp only [patchOrg] at org
    split at org
    next => cases org
    next link linked =>
      split_ifs at org
      rw [← Except.ok.inj org]
      exact ⟨link.orgId, rfl, link_orgOf linked⟩

theorem effect_addTicketPart {input : TicketPartInput} {now : ℤ}
    (accepted : d.addTicketPart owners view ticketId input actor now = .ok next) :
    DeskEffect owners view d call next := by
  obtain ⟨part, created, result⟩ := except_bind_ok accepted
  cases result
  refine .added part ?_
  unfold Tickets.addTicketPart at created
  obtain ⟨link, linked, created⟩ := except_bind_ok created
  cases created
  exact link_orgOf linked

theorem effect_createTicket {input : CreateTicketInput} {actorName : Option Text}
    (accepted : d.createTicket owners view input actorName = .ok next) : DeskEffect owners view d call next := by
  obtain ⟨ticket, opened, result⟩ := except_bind_ok accepted
  cases result
  obtain ⟨belongs, partner⟩ := openTicket_ok opened
  exact .opened ticket belongs partner

theorem effect_updateTicketFields (law : DeskLaw owners d) {fields : UpdateTicketFieldsInput}
    (accepted : d.updateTicketFields owners view ticketId fields = .ok next) : DeskEffect owners view d call next := by
  obtain ⟨ticket, seen, accepted⟩ := except_bind_ok accepted
  obtain ⟨edited, passed, result⟩ := except_bind_ok accepted
  cases result
  have found := Desk.find_some (orFail_ok seen)
  obtain ⟨belongs, org, partner⟩ :=
    editTicket_ok passed (law.tickets ticketId ticket found) (law.partner ticketId ticket found)
  exact .edited ticketId ticket edited found belongs org partner

theorem effect_assignTicket (law : DeskLaw owners d) {assigneeId : Option ℕ}
    (accepted : d.assignTicket owners view ticketId assigneeId = .ok next) : DeskEffect owners view d call next := by
  obtain ⟨ticket, seen, accepted⟩ := except_bind_ok accepted
  obtain ⟨_, passed, result⟩ := except_bind_ok accepted
  cases result
  have found := Desk.find_some (orFail_ok seen)
  have belongs := law.tickets ticketId ticket found
  have partner := law.partner ticketId ticket found
  rw [resolveTicketPartnerId_some partner] at passed
  refine .edited ticketId ticket _ found ⟨belongs.device, belongs.requester, fun userId given => ?_, belongs.category⟩
    rfl rfl
  obtain ⟨_, checked, -⟩ := checkGiven_ok passed given
  exact partner.trans (congrArg some (userInPartner checked).symm)

theorem effect_linkAlertToTicket {alertId : ℕ}
    (accepted : d.linkAlertToTicket owners view ticketId alertId = .ok next) : DeskEffect owners view d call next := by
  obtain ⟨ticket, seen, accepted⟩ := except_bind_ok accepted
  obtain ⟨alertOrg, found, accepted⟩ := except_bind_ok accepted
  obtain ⟨_, same, accepted⟩ := except_bind_ok accepted
  obtain ⟨_, _, result⟩ := except_bind_ok accepted
  cases result
  have own := (look_some (orFail_ok found)).2.trans (require_ok same)
  refine .linked ⟨ticketId, ticket.orgId, alertId⟩ ?_
  rw [own]
  exact Desk.orgOf_some (Desk.find_some (orFail_ok seen))

theorem effect_unlinkAlertFromTicket {alertId : ℕ}
    (accepted : d.unlinkAlertFromTicket view ticketId alertId = .ok next) : DeskEffect owners view d call next := by
  obtain ⟨ticket, _, accepted⟩ := except_bind_ok accepted
  obtain ⟨_, _, result⟩ := except_bind_ok accepted
  cases result
  exact .unlinked _

theorem effect_moveTicketOrg (accepted : d.moveTicketOrg owners view ticketId targetOrgId = .ok next) :
    DeskEffect owners view d (.moveTicketOrg ticketId targetOrgId) next := by
  obtain ⟨ticket, seen, accepted⟩ := except_bind_ok accepted
  split_ifs at accepted with same
  · cases accepted
    exact .stayed
  · obtain ⟨target, found, accepted⟩ := except_bind_ok accepted
    obtain ⟨_, partner, result⟩ := except_bind_ok accepted
    cases result
    obtain ⟨seesTarget, rfl⟩ := look_some (orFail_ok found)
    obtain ⟨seesSource, samePartner⟩ := look_some (require_ok partner)
    exact .moved ticketId targetOrgId ticket ⟨orFail_ok seen, same, seesTarget, seesSource, samePartner⟩

theorem deskCall_effect (law : DeskLaw owners d) (accepted : deskCall owners view d call = some next) :
    DeskEffect owners view d call next := by
  cases call with
  | createTicket input actorName => exact effect_createTicket (toOption_ok accepted)
  | updateTicketFields ticketId fields => exact effect_updateTicketFields law (toOption_ok accepted)
  | assignTicket ticketId assigneeId => exact effect_assignTicket law (toOption_ok accepted)
  | linkAlertToTicket ticketId alertId => exact effect_linkAlertToTicket (toOption_ok accepted)
  | unlinkAlertFromTicket ticketId alertId => exact effect_unlinkAlertFromTicket (toOption_ok accepted)
  | moveTicketOrg ticketId targetOrgId => exact effect_moveTicketOrg (toOption_ok accepted)
  | createTimeEntry input actor => exact effect_createTimeEntry (toOption_ok accepted)
  | updateTimeEntry id input actor => exact effect_updateTimeEntry law (toOption_ok accepted)
  | addTicketPart ticketId input actor now => exact effect_addTicketPart (toOption_ok accepted)

theorem deskStep_effect (law : DeskLaw owners d) (call : DeskCall) :
    DeskEffect owners view d call (deskStep owners d (view, call)) := by
  unfold deskStep
  cases accepted : deskCall owners view d call with
  | none => exact .stayed
  | some next => exact deskCall_effect law accepted

theorem DeskLaw.attached (law : DeskLaw owners d) {tickets : ℕ → Option TenantTicket}
    (kept : ∀ i orgId, d.orgOf i = some orgId → (tickets i).map TenantTicket.orgId = some orgId) (nextTicket : ℕ)
    (belongs : ∀ i t, tickets i = some t → TicketBelongs owners t)
    (partner : ∀ i t, tickets i = some t → t.partnerId = some (owners.orgPartner t.orgId))
    (drawn : ∀ i t, tickets i = some t → i < nextTicket) :
    DeskLaw owners { d with tickets := tickets, nextTicket := nextTicket } where
  tickets := belongs
  partner := partner
  drawn := drawn
  alerts l member := kept _ _ (law.alerts l member)
  entries k e i stored attached := by
    obtain ⟨orgId, own, there⟩ := law.entries k e i stored attached
    exact ⟨orgId, own, kept i orgId there⟩
  parts p member := kept _ _ (law.parts p member)

theorem DeskLaw.opened (law : DeskLaw owners d) (belongs : TicketBelongs owners t)
    (partner : t.partnerId = some (owners.orgPartner t.orgId)) :
    DeskLaw owners { d.setTicket d.nextTicket t with nextTicket := d.nextTicket + 1 } := by
  refine law.attached (fun i orgId there => ?_) _ (fun i u stored => ?_) (fun i u stored => ?_) (fun i u stored => ?_)
  · obtain ⟨u, stored, same⟩ := map_eq_some_iff.mp there
    have kept : update d.tickets d.nextTicket (some t) i = some u :=
      (update_of_ne (law.drawn i u stored).ne _ _).trans stored
    exact (congrArg (Option.map TenantTicket.orgId) kept).trans (congrArg some same)
  · rcases update_some stored with ⟨-, rfl⟩ | before
    · exact belongs
    · exact law.tickets i u before
  · rcases update_some stored with ⟨-, rfl⟩ | before
    · exact partner
    · exact law.partner i u before
  · rcases update_some stored with ⟨rfl, -⟩ | before
    · exact Nat.lt_succ_self _
    · exact (law.drawn i u before).trans (Nat.lt_succ_self _)

theorem DeskLaw.edited (law : DeskLaw owners d) {edited : TenantTicket} (found : d.tickets i = some t)
    (belongs : TicketBelongs owners edited) (org : edited.orgId = t.orgId) (partner : edited.partnerId = t.partnerId) :
    DeskLaw owners (d.setTicket i edited) := by
  refine law.attached (fun j orgId there => ?_) _ (fun j u stored => ?_) (fun j u stored => ?_) (fun j u stored => ?_)
  · by_cases same : j = i
    · subst same
      have stored : update d.tickets j (some edited) j = some edited := update_self ..
      refine (congrArg (Option.map TenantTicket.orgId) stored).trans ?_
      rw [Desk.orgOf_some found] at there
      exact (congrArg some org).trans there
    · exact (congrArg (Option.map TenantTicket.orgId) (update_of_ne same ..)).trans there
  · rcases update_some stored with ⟨-, rfl⟩ | before
    · exact belongs
    · exact law.tickets j u before
  · rcases update_some stored with ⟨-, rfl⟩ | before
    · rw [partner, org]
      exact law.partner i t found
    · exact law.partner j u before
  · rcases update_some stored with ⟨rfl, -⟩ | before
    · exact law.drawn j t found
    · exact law.drawn j u before

theorem orgOf_move (j : ℕ) : (d.move i targetOrgId t).orgOf j = if j = i then some targetOrgId else d.orgOf j := by
  simp only [Desk.orgOf, Desk.move, update_apply]
  split_ifs <;> rfl

theorem DeskLaw.moved (law : DeskLaw owners d) (moves : Moves owners view d i targetOrgId t) (bare : Bare d i t) :
    DeskLaw owners (d.move i targetOrgId t) where
  tickets j u stored := by
    rcases update_some stored with ⟨rfl, rfl⟩ | before
    · have belongs := law.tickets j t (Desk.find_some moves.found)
      refine ⟨nofun, fun inside portalUserId named => ?_, belongs.assignee, belongs.category⟩
      have nobody := bare.2.resolve_left inside
      cases nobody.symm.trans named
    · exact law.tickets j u before
  partner j u stored := by
    rcases update_some stored with ⟨rfl, rfl⟩ | before
    · exact (law.partner j t (Desk.find_some moves.found)).trans (congrArg some moves.partner)
    · exact law.partner j u before
  drawn j u stored := by
    rcases update_some stored with ⟨rfl, rfl⟩ | before
    · exact law.drawn j t (Desk.find_some moves.found)
    · exact law.drawn j u before
  alerts l member := by
    obtain ⟨old, listed, rfl⟩ := List.mem_map.mp member
    have elsewhere := bare.1 old listed
    rw [if_neg elsewhere, orgOf_move, if_neg elsewhere]
    exact law.alerts old listed
  entries k e j stored attached := by
    obtain ⟨old, before, rfl⟩ := map_eq_some_iff.mp stored
    rw [orgOf_move]
    split_ifs at attached ⊢ with mine same same
    · exact ⟨targetOrgId, rfl, rfl⟩
    · exact absurd (some.inj (attached.symm.trans mine)) same
    · exact absurd (same ▸ attached) mine
    · exact law.entries k old j before attached
  parts p member := by
    obtain ⟨old, listed, rfl⟩ := List.mem_map.mp member
    rw [orgOf_move]
    split_ifs with mine
    · rfl
    · exact law.parts old listed

theorem DeskEffect.law (effect : DeskEffect owners view d call next) (law : DeskLaw owners d)
    (bare : MovesBare owners d (view, call)) : DeskLaw owners next := by
  cases effect with
  | stayed => exact law
  | opened t belongs partner => exact law.opened belongs partner
  | edited i t edited found belongs org partner => exact law.edited found belongs org partner
  | linked l own =>
    refine ⟨law.tickets, law.partner, law.drawn, fun other member => ?_, law.entries, law.parts⟩
    rcases mem_append.mp member with before | new
    · exact law.alerts other before
    · exact mem_singleton.mp new ▸ own
  | unlinked keep =>
    refine ⟨law.tickets, law.partner, law.drawn, fun l member => ?_, law.entries, law.parts⟩
    exact law.alerts l (mem_filter.mp member).1
  | moved i targetOrgId t moves => exact law.moved moves (bare i targetOrgId t rfl moves)
  | entered k count e own =>
    refine ⟨law.tickets, law.partner, law.drawn, law.alerts, fun j other i stored attached => ?_, law.parts⟩
    rcases update_some stored with ⟨-, rfl⟩ | before
    · exact own i attached
    · exact law.entries j other i before attached
  | added p own =>
    refine ⟨law.tickets, law.partner, law.drawn, law.alerts, law.entries, fun other member => ?_⟩
    rcases mem_append.mp member with before | new
    · exact law.parts other before
    · exact mem_singleton.mp new ▸ own

theorem DeskLaw.belongs (law : DeskLaw owners d) : DeskBelongs owners d where
  tickets := law.tickets
  alerts l member t found := by
    have there := law.alerts l member
    rw [Desk.orgOf_some found] at there
    exact (some.inj there).symm
  entries k e i t stored attached found := by
    obtain ⟨orgId, own, there⟩ := law.entries k e i stored attached
    rw [Desk.orgOf_some found] at there
    exact own.trans there.symm
  parts p member t found := by
    have there := law.parts p member
    rw [Desk.orgOf_some found] at there
    exact (some.inj there).symm

theorem deskStep_moves (moves : Moves owners view d i targetOrgId t) :
    deskStep owners d (view, .moveTicketOrg i targetOrgId) = d.move i targetOrgId t := by
  have seen : d.getTicketOrThrow view i = .ok t := by rw [Desk.getTicketOrThrow, moves.found]; rfl
  have target : orFail (view.look (.org targetOrgId) (owners.orgPartner targetOrgId))
      (⟨404, none⟩ : TicketServiceError) = .ok (owners.orgPartner targetOrgId) := by
    rw [TenantView.look, if_pos moves.target]
    rfl
  have source : view.look (.org t.orgId) (owners.orgPartner t.orgId) = some (owners.orgPartner targetOrgId) := by
    rw [TenantView.look, if_pos moves.source, moves.partner]
  have accepted : d.moveTicketOrg owners view i targetOrgId = .ok (d.move i targetOrgId t) := by
    rw [Desk.moveTicketOrg, seen]
    show (if t.orgId = targetOrgId then _ else _) = _
    rw [if_neg moves.other, target]
    show (require _ _ >>= fun _ => _) = _
    rw [require, if_pos source]
    rfl
  rw [deskStep, deskCall, accepted]
  rfl

theorem DeskLaw.breaks (law : DeskLaw owners d) (moves : Moves owners view d i targetOrgId t) (loaded : ¬Bare d i t) :
    ¬DeskBelongs owners (d.move i targetOrgId t) := by
  intro belongs
  have found := Desk.find_some moves.found
  have stored : (d.move i targetOrgId t).tickets i = some { t with orgId := targetOrgId, deviceId := none } :=
    update_self ..
  apply loaded
  constructor
  · intro l member mine
    have before := law.alerts l member
    rw [mine, Desk.orgOf_some found] at before
    have listed : { l with orgId := targetOrgId } ∈ (d.move i targetOrgId t).links :=
      List.mem_map.mpr ⟨l, member, if_pos mine⟩
    have after := belongs.alerts _ listed _ (by rw [← stored, mine])
    exact moves.other ((some.inj before).trans after)
  · by_contra inside
    obtain ⟨inside, named⟩ := not_or.mp inside
    obtain ⟨portalUserId, named⟩ := ne_none_iff_exists'.mp named
    have before := (law.tickets i t found).requester inside portalUserId named
    have after := (belongs.tickets i _ stored).requester inside portalUserId named
    exact moves.other (before.symm.trans after)

end Steps

theorem law_emptyDesk (owners : Owners) : DeskLaw owners emptyDesk where
  tickets i t stored := by cases stored
  partner i t stored := by cases stored
  drawn i t stored := by cases stored
  alerts l member := absurd member not_mem_nil
  entries k e i stored := by cases stored
  parts p member := absurd member not_mem_nil

/-- Everything attached to a ticket belongs to its tenant after every step exactly when every ticket that goes to
another organisation is bare. -/
theorem tickets_keep_tenant_iff (owners : Owners) (es : List (TenantView × DeskCall)) :
    Throughout (deskStep owners) (DeskBelongs owners) emptyDesk es ↔
      StepsMeet (deskStep owners) (MovesBare owners) emptyDesk es := by
  refine throughout_iff (fun d (law : DeskLaw owners d) => law.belongs) (fun d e _ law bare => ?_)
    (fun d e _ law loaded => ?_) (law_emptyDesk owners)
  · exact (deskStep_effect law e.2).law law bare
  · obtain ⟨view, call⟩ := e
    simp only [MovesBare, not_forall] at loaded
    obtain ⟨i, targetOrgId, t, rfl, moves, loaded⟩ := loaded
    rw [deskStep_moves moves]
    exact law.breaks moves loaded

def sampleOwners : Owners := ⟨fun _ => 1, fun _ => 20, fun _ => 20, fun _ => 1, fun _ => 1, fun _ => ⟨20, none, ['x']⟩⟩

def openView : TenantView := ⟨fun _ => true, fun _ => none, fun _ => none⟩

/-- A ticket for a portal user, with an alert, goes to the other organisation. -/
def leakingCalls : List (TenantView × DeskCall) :=
  [(openView, .createTicket ⟨20, .manual, some 3, none, none, some 4, none, none⟩ none),
    (openView, .linkAlertToTicket 0 5), (openView, .moveTicketOrg 0 21)]

theorem moved_ticket_leaks :
    let d := leakingCalls.foldl (deskStep sampleOwners) emptyDesk
    (∃ t, d.tickets 0 = some t ∧ t.orgId = 21 ∧ t.source = .manual ∧ t.submittedBy = some 4) ∧
      d.links = [⟨0, 21, 5⟩] ∧ ¬DeskBelongs sampleOwners d := by
  refine ⟨⟨_, rfl, rfl, rfl, rfl⟩, rfl, fun belongs => ?_⟩
  have alert := belongs.alerts ⟨0, 21, 5⟩ mem_cons_self _ rfl
  exact absurd alert (by decide)

end RemudaRmm.Tickets
