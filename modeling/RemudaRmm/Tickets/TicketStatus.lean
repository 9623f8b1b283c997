import Mathlib.Data.List.Chain
import Mathlib.Data.List.Nodup
import RemudaRmm.Foundation.ReadCommitted
import RemudaRmm.Foundation.Text

/-! The status of one ticket (`ticketService.ts`): `changeTicketStatus` and `assignTicket` on a ticket that
`createTicket` made, statement by statement under READ COMMITTED. Instants are milliseconds. -/
namespace RemudaRmm.Tickets
open Foundation List Option

inductive TicketStatus where
  | new
  | opened
  | pending
  | onHold
  | resolved
  | closed
  deriving DecidableEq

def TICKET_STATUS_TRANSITIONS : TicketStatus → List TicketStatus
  | .new => [.opened, .pending, .onHold, .resolved, .closed]
  | .opened => [.pending, .onHold, .resolved, .closed]
  | .pending => [.opened, .onHold, .resolved, .closed]
  | .onHold => [.opened, .pending, .resolved, .closed]
  | .resolved => [.opened, .closed]
  | .closed => [.opened]

def TicketStatus.Paused (s : TicketStatus) : Prop := s = .pending ∨ s = .onHold
  deriving Decidable

def TicketStatus.Ended (s : TicketStatus) : Prop := s = .resolved ∨ s = .closed
  deriving Decidable

structure TicketStatusRow where
  (id partnerId : ℕ)
  coreStatus : TicketStatus
  (isActive isSystem : Bool)

/-- The rows of `ticket_statuses`; the id is their key. -/
structure StatusTable where
  rows : List TicketStatusRow
  unique : (rows.map TicketStatusRow.id).Nodup

def StatusTable.getTicketStatusById (table : StatusTable) (id : ℕ) : Option TicketStatusRow :=
  table.rows.find? fun row => row.id = id

def StatusTable.getSystemStatusId (table : StatusTable) (partnerId : ℕ) (coreStatus : TicketStatus) : Option ℕ :=
  (table.rows.find? fun row => row.partnerId = partnerId ∧ row.coreStatus = coreStatus ∧ row.isSystem = true).map
    TicketStatusRow.id

structure Ticket where
  status : TicketStatus
  (statusId assignedTo resolvedAt closedAt closedBy : Option ℕ)
  (resolutionNote pendingReason : Option Text)
  (slaPausedAt slaPausedMinutes : Option ℕ)

inductive TicketServiceErrorCode where
  | assigneeNotFound
  | assigneeWrongPartner
  | ticketPartnerUnresolvable
  | invalidTransition
  | concurrentModification
  | statusNotFound
  | statusInactive
  | invalidInput
  | categoryNotFound
  | categoryWrongPartner
  | requesterNotFound
  | requesterWrongOrg

structure TicketServiceError where
  status : ℕ
  code : Option TicketServiceErrorCode

/-- What the calls look up and none of them changes: the partner of the ticket, unless it cannot be resolved, the
partner of each user, and the statuses. -/
structure TicketTenant where
  partnerId : Option ℕ
  userPartner : ℕ → Option ℕ
  statuses : StatusTable

structure ChangeStatusTarget where
  status : Option TicketStatus
  statusId : Option ℕ

structure ChangeStatusOptions where
  (resolutionNote pendingReason : Option Text)

/-- The update that a call comes to: another label for the same status, a move to another status with what was read,
or an assignment, which opens a new ticket. -/
inductive TicketUpdate where
  | relabel (fromStatus : TicketStatus) (fromId statusId : Option ℕ) (now : ℕ)
  | move (read : Ticket) (toStatus : TicketStatus) (statusId : Option ℕ) (opts : ChangeStatusOptions) (userId now : ℕ)
  | assign (prevAssignedTo assigneeId : Option ℕ) (opens : Bool) (now : ℕ)

namespace Ticket

/-- The minutes of the ledger with the pause that ends now; `none` without a pause. -/
def foldedMinutes (now : ℕ) (t : Ticket) : Option ℕ :=
  t.slaPausedAt.map fun began => t.slaPausedMinutes.getD 0 + (now - began) / 60000

def stamp (read : Ticket) (toStatus : TicketStatus) (opts : ChangeStatusOptions) (userId now : ℕ)
    (t : Ticket) : Ticket :=
  match toStatus with
  | .resolved =>
    { t with
      resolvedAt := some (read.resolvedAt.getD now), resolutionNote := opts.resolutionNote, pendingReason := none }
  | .closed =>
    { t with
      closedAt := some now, closedBy := some userId, resolvedAt := some (read.resolvedAt.getD now)
      pendingReason := none }
  | .opened =>
    if read.status.Ended then
      { t with resolvedAt := none, closedAt := none, closedBy := none, pendingReason := none }
    else { t with pendingReason := none }
  | .pending | .onHold => { t with pendingReason := opts.pendingReason }
  | .new => { t with pendingReason := none }

/-- The SLA clock stops on the way into a pause, and the pause is folded into the ledger on the way out. -/
def runClock (read : Ticket) (toStatus : TicketStatus) (now : ℕ) (t : Ticket) : Ticket :=
  if ¬read.status.Paused ∧ toStatus.Paused then { t with slaPausedAt := some now }
  else if read.status.Paused ∧ ¬toStatus.Paused then
    { t with slaPausedMinutes := (read.foldedMinutes now).or t.slaPausedMinutes, slaPausedAt := none }
  else t

end Ticket

namespace TicketUpdate

def now : TicketUpdate → ℕ
  | .relabel _ _ _ now | .move _ _ _ _ _ now | .assign _ _ _ now => now

/-- The condition of the update, the compare of compare-and-swap. -/
def Applies (t : Ticket) : TicketUpdate → Prop
  | .relabel fromStatus fromId _ _ => t.status = fromStatus ∧ t.statusId = fromId
  | .move read _ _ _ _ _ => t.status = read.status
  | .assign prevAssignedTo _ _ _ => t.assignedTo = prevAssignedTo

instance decidableApplies (t : Ticket) : (u : TicketUpdate) → Decidable (u.Applies t)
  | .relabel _ _ _ _ => inferInstanceAs (Decidable (_ ∧ _))
  | .move _ _ _ _ _ _ | .assign _ _ _ _ => inferInstanceAs (Decidable (_ = _))

def set (t : Ticket) : TicketUpdate → Ticket
  | .relabel _ _ statusId _ => { t with statusId := statusId }
  | .move read toStatus statusId opts userId now =>
    Ticket.runClock read toStatus now
      (Ticket.stamp read toStatus opts userId now { t with status := toStatus, statusId := statusId })
  | .assign _ assigneeId opens _ =>
    { t with assignedTo := assigneeId, status := if opens then .opened else t.status }

end TicketUpdate

def targetStatus (tenant : TicketTenant) (target : ChangeStatusTarget) :
    Except TicketServiceError (TicketStatus × Option ℕ) :=
  match target.status, target.statusId with
  | none, some id =>
    match tenant.statuses.getTicketStatusById id with
    | none => .error ⟨404, some .statusNotFound⟩
    | some row =>
      if some row.partnerId ≠ tenant.partnerId then .error ⟨404, some .statusNotFound⟩
      else if row.isActive = false then .error ⟨400, some .statusInactive⟩
      else .ok (row.coreStatus, some id)
  | some status, none => .ok (status, tenant.partnerId.bind fun p => tenant.statuses.getSystemStatusId p status)
  | none, none | some _, some _ => .error ⟨400, some .invalidInput⟩

/-- `changeTicketStatus` up to its update; without one when there is nothing to change. -/
def changeTicketStatus (tenant : TicketTenant) (ticket : Ticket) (target : ChangeStatusTarget)
    (opts : ChangeStatusOptions) (userId now : ℕ) : Except TicketServiceError (Option TicketUpdate) :=
  match targetStatus tenant target with
  | .error error => .error error
  | .ok (toStatus, statusId) =>
    if toStatus = ticket.status ∧ statusId = ticket.statusId then .ok none
    else if toStatus = ticket.status then .ok (some (.relabel ticket.status ticket.statusId statusId now))
    else if toStatus ∉ TICKET_STATUS_TRANSITIONS ticket.status then .error ⟨409, some .invalidTransition⟩
    else if toStatus = .resolved ∧ opts.resolutionNote.all List.isEmpty = true then .error ⟨400, none⟩
    else .ok (some (.move ticket toStatus statusId opts userId now))

/-- The partner of the assignee, if it is found, against that of the ticket. -/
def assertAssigneeInPartner (assignee partnerId : Option ℕ) : Except TicketServiceError Unit :=
  match assignee, partnerId with
  | none, _ => .error ⟨404, some .assigneeNotFound⟩
  | some _, none => .error ⟨500, some .ticketPartnerUnresolvable⟩
  | some partner, some partnerId => if partner ≠ partnerId then .error ⟨400, some .assigneeWrongPartner⟩ else .ok ()

/-- `assignTicket` up to its update. -/
def assignTicket (tenant : TicketTenant) (ticket : Ticket) (assigneeId : Option ℕ) (now : ℕ) :
    Except TicketServiceError (Option TicketUpdate) :=
  match (assigneeId.map fun id => assertAssigneeInPartner (tenant.userPartner id) tenant.partnerId).getD (.ok ()) with
  | .error error => .error error
  | .ok () => .ok (some (.assign ticket.assignedTo assigneeId (assigneeId.isSome && ticket.status = .new) now))

/-- The row that `createTicket` inserts. -/
def createTicket (tenant : TicketTenant) (assigneeId : Option ℕ) : Ticket :=
  let status : TicketStatus := if assigneeId.isSome then .opened else .new
  let statusId := tenant.partnerId.bind fun p => tenant.statuses.getSystemStatusId p status
  ⟨status, statusId, assigneeId, none, none, none, none, none, none, some 0⟩

/-- The row with its history: the statuses it has had, when the pause that it is in began, and the pauses that are
over. -/
structure TicketRecord where
  ticket : Ticket
  statuses : List TicketStatus
  pauseBegan : Option ℕ
  pauses : List (ℕ × ℕ)

def TicketRecord.put (now : ℕ) (next : Ticket) (r : TicketRecord) : TicketRecord where
  ticket := next
  statuses := if next.status = r.ticket.status then r.statuses else r.statuses ++ [next.status]
  pauseBegan :=
    if next.status.Paused then if r.ticket.status.Paused then r.pauseBegan else some now else none
  pauses :=
    if r.ticket.status.Paused ∧ ¬next.status.Paused then r.pauses ++ [(r.pauseBegan.getD now, now)] else r.pauses

inductive TicketCall where
  | changeTicketStatus (target : ChangeStatusTarget) (opts : ChangeStatusOptions) (userId : ℕ)
  | assignTicket (assigneeId : Option ℕ)

inductive TicketStage where
  | start
  | updating (update : TicketUpdate)
  | committing
  | done (result : Except TicketServiceError Unit)

structure TicketProc where
  call : TicketCall
  stage : TicketStage

inductive TicketAction where
  | exec (now : ℕ)
  | rollback
  deriving DecidableEq

def TicketCall.decide (tenant : TicketTenant) (ticket : Ticket) (now : ℕ) :
    TicketCall → Except TicketServiceError (Option TicketUpdate)
  | .changeTicketStatus target opts userId => Tickets.changeTicketStatus tenant ticket target opts userId now
  | .assignTicket assigneeId => Tickets.assignTicket tenant ticket assigneeId now

/-- One statement of a call, or its commit; `none` while another call holds the row. -/
def ticketAct (tenant : TicketTenant) (t : ℕ) (action : TicketAction) (row : Row ℕ TicketRecord) (p : TicketProc) :
    Option (Row ℕ TicketRecord × TicketProc) :=
  match action, p.stage with
  | .exec now, .start =>
    let stage :=
      match p.call.decide tenant (row.read t).ticket now with
      | .error error => .done (.error error)
      | .ok none => .done (.ok ())
      | .ok (some update) => .updating update
    some (row, { p with stage := stage })
  | .exec _, .updating update =>
    if update.Applies (row.read t).ticket then
      if row.Free t then
        let next := (row.read t).put update.now (update.set (row.read t).ticket)
        some (row.write t next, { p with stage := .committing })
      else none
    else some (row, { p with stage := .done (.error ⟨409, some .concurrentModification⟩) })
  | .exec _, .committing => some (row.commit t, { p with stage := .done (.ok ()) })
  | .rollback, .start | .rollback, .updating _ | .rollback, .committing =>
    some (row.rollback t, { p with stage := .done (.error ⟨500, none⟩) })
  | _, .done _ => none

abbrev TicketWorld := World ℕ (Row ℕ TicketRecord) TicketProc

abbrev ticketStep (tenant : TicketTenant) : TicketWorld → ℕ × TicketAction → Option TicketWorld :=
  World.step (ticketAct tenant)

/-- `createTicket` has committed, and no call has begun. -/
def createdWorld (tenant : TicketTenant) (assigneeId : Option ℕ) (calls : ℕ → TicketCall) : TicketWorld where
  db :=
    let ticket := createTicket tenant assigneeId
    Row.unheld ⟨ticket, [ticket.status], none, []⟩
  proc := fun t => ⟨calls t, .start⟩

def TicketTenant.LabelOf (tenant : TicketTenant) (status : TicketStatus) (statusId : Option ℕ) : Prop :=
  ∀ id, statusId = some id → ∃ row, tenant.statuses.getTicketStatusById id = some row ∧ row.coreStatus = status

def TicketRecord.pausedMinutes (r : TicketRecord) : ℕ := (r.pauses.map fun p => (p.2 - p.1) / 60000).sum

/-- Status, label and clock of a ticket agree with each other and with its history. -/
structure Consistent (tenant : TicketTenant) (r : TicketRecord) : Prop where
  transitions : r.statuses.IsChain fun a b => b ∈ TICKET_STATUS_TRANSITIONS a
  label : tenant.LabelOf r.ticket.status r.ticket.statusId
  paused : r.ticket.slaPausedAt.isSome = true ↔ r.ticket.status.Paused
  ledger : r.ticket.slaPausedMinutes.getD 0 = r.pausedMinutes
  resolved : r.ticket.resolvedAt.isSome = true ↔ r.ticket.status.Ended

/-- The history goes on from where the ticket is. -/
structure TicketLaw (tenant : TicketTenant) (r : TicketRecord) : Prop extends Consistent tenant r where
  last : r.statuses.getLast? = some r.ticket.status
  began : r.ticket.slaPausedAt = r.pauseBegan

def TicketUpdate.Sound (tenant : TicketTenant) : TicketUpdate → Prop
  | .relabel fromStatus _ statusId _ => tenant.LabelOf fromStatus statusId
  | .move read toStatus statusId _ _ _ =>
    toStatus ∈ TICKET_STATUS_TRANSITIONS read.status ∧ tenant.LabelOf toStatus statusId
  | .assign _ _ _ _ => True

/-- The update fits the row that it finds: an assignment that opens finds the ticket open, or new and without a label; a
move out of a pause folds the minutes that the row itself comes to. -/
def TicketUpdate.Fits (t : Ticket) : TicketUpdate → Prop
  | .relabel _ _ _ _ => True
  | .move read toStatus _ _ _ now =>
    read.status.Paused → ¬toStatus.Paused → read.foldedMinutes now = t.foldedMinutes now
  | .assign _ _ opens _ => opens = true → t.status = .opened ∨ t.status = .new ∧ t.statusId = none

instance TicketUpdate.decidableFits (t : Ticket) : (u : TicketUpdate) → Decidable (u.Fits t)
  | .relabel _ _ _ _ => .isTrue trivial
  | .move _ _ _ _ _ _ => inferInstanceAs (Decidable (_ → _ → _))
  | .assign _ _ _ _ => inferInstanceAs (Decidable (_ → _))

theorem labelOf_none (tenant : TicketTenant) (status : TicketStatus) : tenant.LabelOf status none := nofun

theorem StatusTable.getTicketStatusById_of_mem (table : StatusTable) {row : TicketStatusRow}
    (member : row ∈ table.rows) : table.getTicketStatusById row.id = some row := by
  cases found : table.getTicketStatusById row.id with
  | none => exact absurd (decide_eq_true rfl) (find?_eq_none.mp found row member)
  | some other =>
    have same : other.id = row.id := by
      have matching := find?_some found
      exact of_decide_eq_true matching
    rw [inj_on_of_nodup_map table.unique (mem_of_find?_eq_some found) member same]

theorem labelOf_system (tenant : TicketTenant) (status : TicketStatus) :
    tenant.LabelOf status (tenant.partnerId.bind fun p => tenant.statuses.getSystemStatusId p status) := by
  intro id found
  obtain ⟨p, -, found⟩ := bind_eq_some_iff.mp found
  obtain ⟨row, first, rfl⟩ := map_eq_some_iff.mp found
  have matching := find?_some first
  rw [decide_eq_true_eq] at matching
  exact ⟨row, tenant.statuses.getTicketStatusById_of_mem (mem_of_find?_eq_some first), matching.2.1⟩

variable {tenant : TicketTenant} {r : TicketRecord} {u : TicketUpdate}

theorem labelOf_targetStatus {target : ChangeStatusTarget} {status : TicketStatus} {statusId : Option ℕ}
    (given : targetStatus tenant target = .ok (status, statusId)) : tenant.LabelOf status statusId := by
  unfold targetStatus at given
  split at given
  next id _ _ =>
    split at given
    next => cases given
    next row found =>
      split_ifs at given
      obtain ⟨rfl, rfl⟩ := Prod.mk.inj (Except.ok.inj given)
      rintro _ ⟨⟩
      exact ⟨row, found, rfl⟩
  next =>
    obtain ⟨rfl, rfl⟩ := Prod.mk.inj (Except.ok.inj given)
    exact labelOf_system tenant _
  next => cases given
  next => cases given

theorem sound_changeTicketStatus {ticket : Ticket} {target : ChangeStatusTarget} {opts : ChangeStatusOptions}
    {userId now : ℕ} (decided : changeTicketStatus tenant ticket target opts userId now = .ok (some u)) :
    u.Sound tenant := by
  unfold changeTicketStatus at decided
  split at decided
  next => cases decided
  next toStatus statusId given =>
    have label := labelOf_targetStatus given
    split_ifs at decided with same status stays note
    · cases decided
    · cases decided
      rw [status] at label
      exact label
    · cases decided
      exact ⟨stays, label⟩

theorem sound_assignTicket {ticket : Ticket} {assigneeId : Option ℕ} {now : ℕ}
    (decided : assignTicket tenant ticket assigneeId now = .ok (some u)) : u.Sound tenant := by
  unfold assignTicket at decided
  split at decided
  next => cases decided
  next =>
    cases decided
    trivial

theorem sound_decide {ticket : Ticket} {call : TicketCall} {now : ℕ}
    (decided : call.decide tenant ticket now = .ok (some u)) : u.Sound tenant := by
  cases call with
  | changeTicketStatus target opts userId => exact sound_changeTicketStatus decided
  | assignTicket assigneeId => exact sound_assignTicket decided

/-- The next row goes on from this one: a transition or none, its own label, the clock as the statuses say. -/
structure GoesOn (tenant : TicketTenant) (now : ℕ) (t next : Ticket) : Prop where
  step : next.status = t.status ∨ next.status ∈ TICKET_STATUS_TRANSITIONS t.status
  label : tenant.LabelOf next.status next.statusId
  pausedAt : next.slaPausedAt = if next.status.Paused then if t.status.Paused then t.slaPausedAt else some now else none
  minutes : next.slaPausedMinutes.getD 0 =
    if t.status.Paused ∧ ¬next.status.Paused then (t.foldedMinutes now).getD 0 else t.slaPausedMinutes.getD 0
  resolved : next.resolvedAt.isSome = true ↔ next.status.Ended

theorem TicketLaw.put (law : TicketLaw tenant r) {now : ℕ} {next : Ticket} (goes : GoesOn tenant now r.ticket next) :
    TicketLaw tenant (r.put now next) where
  transitions := by
    simp only [TicketRecord.put]
    split_ifs with same
    · exact law.transitions
    · apply isChain_append.mpr
      refine ⟨law.transitions, isChain_singleton _, ?_⟩
      intro last ended first starts
      rw [law.last] at ended
      cases ended
      cases starts
      exact goes.step.resolve_left same
  label := goes.label
  paused := by
    have before := law.paused
    simp only [TicketRecord.put, goes.pausedAt]
    split_ifs with paused was
    · exact iff_of_true (before.mpr was) paused
    · exact iff_of_true rfl paused
    · exact iff_of_false Bool.false_ne_true paused
  ledger := by
    have before := law.ledger
    simp only [TicketRecord.put, TicketRecord.pausedMinutes, goes.minutes] at before ⊢
    split_ifs with out
    · obtain ⟨began, stamped⟩ := isSome_iff_exists.mp (law.paused.mpr out.1)
      rw [map_append, sum_append, ← before, ← law.began, Ticket.foldedMinutes, stamped]
      rfl
    · exact before
  resolved := goes.resolved
  last := by
    simp only [TicketRecord.put]
    split_ifs with same
    · rw [same]
      exact law.last
    · exact getLast?_concat
  began := by
    simp only [TicketRecord.put, goes.pausedAt, law.began]

section Move
variable (read t : Ticket) (toStatus : TicketStatus) (opts : ChangeStatusOptions) (userId now : ℕ)

theorem stamp_frame :
    (Ticket.stamp read toStatus opts userId now t).status = t.status ∧
    (Ticket.stamp read toStatus opts userId now t).statusId = t.statusId ∧
    (Ticket.stamp read toStatus opts userId now t).slaPausedAt = t.slaPausedAt ∧
    (Ticket.stamp read toStatus opts userId now t).slaPausedMinutes = t.slaPausedMinutes := by
  unfold Ticket.stamp
  cases toStatus with
  | opened =>
    simp only
    split_ifs <;> exact ⟨rfl, rfl, rfl, rfl⟩
  | _ => exact ⟨rfl, rfl, rfl, rfl⟩

theorem runClock_frame :
    (Ticket.runClock read toStatus now t).status = t.status ∧
    (Ticket.runClock read toStatus now t).statusId = t.statusId ∧
    (Ticket.runClock read toStatus now t).resolvedAt = t.resolvedAt := by
  unfold Ticket.runClock
  split_ifs <;> exact ⟨rfl, rfl, rfl⟩

end Move

theorem resolved_stamp (law : Consistent tenant r) {read t : Ticket} {toStatus : TicketStatus}
    (opts : ChangeStatusOptions) (userId now : ℕ) (same : r.ticket.status = read.status)
    (kept : t.resolvedAt = r.ticket.resolvedAt) (step : toStatus ∈ TICKET_STATUS_TRANSITIONS read.status) :
    (Ticket.stamp read toStatus opts userId now t).resolvedAt.isSome = true ↔ toStatus.Ended := by
  have before := law.resolved
  rw [same, ← kept] at before
  cases toStatus with
  | resolved => exact iff_of_true rfl (.inl rfl)
  | closed => exact iff_of_true rfl (.inr rfl)
  | opened =>
    have going : ¬TicketStatus.opened.Ended := by decide
    unfold Ticket.stamp
    simp only
    split_ifs with ended
    · exact iff_of_false Bool.false_ne_true going
    · exact iff_of_false (fun resolved => ended (before.mp resolved)) going
  | pending | onHold | new =>
    refine iff_of_false (fun resolved => ?_) (by decide)
    rcases before.mp resolved with ended | ended
    · rw [ended] at step
      simp [TICKET_STATUS_TRANSITIONS] at step
    · rw [ended] at step
      simp [TICKET_STATUS_TRANSITIONS] at step

theorem Consistent.pausedAt_eq_none (law : Consistent tenant r) (running : ¬r.ticket.status.Paused) :
    r.ticket.slaPausedAt = none := by
  cases stamped : r.ticket.slaPausedAt with
  | none => rfl
  | some began => exact absurd (law.paused.mp (by rw [stamped]; rfl)) running

theorem Consistent.goesOn_same (law : Consistent tenant r) (now : ℕ) {next : Ticket}
    (status : next.status = r.ticket.status) (label : tenant.LabelOf r.ticket.status next.statusId)
    (pausedAt : next.slaPausedAt = r.ticket.slaPausedAt) (minutes : next.slaPausedMinutes = r.ticket.slaPausedMinutes)
    (resolved : next.resolvedAt = r.ticket.resolvedAt) : GoesOn tenant now r.ticket next where
  step := .inl status
  label := by
    rw [status]
    exact label
  pausedAt := by
    rw [status, pausedAt]
    split_ifs with paused
    · rfl
    · exact law.pausedAt_eq_none paused
  minutes := by rw [status, minutes, if_neg (not_and_not_right.mpr fun paused => paused)]
  resolved := by
    rw [status, resolved]
    exact law.resolved

theorem Consistent.goesOn_move (law : Consistent tenant r) {read : Ticket} {toStatus : TicketStatus}
    {statusId : Option ℕ} (opts : ChangeStatusOptions) (userId : ℕ) {now : ℕ}
    (same : r.ticket.status = read.status) (step : toStatus ∈ TICKET_STATUS_TRANSITIONS read.status)
    (label : tenant.LabelOf toStatus statusId)
    (fits : read.status.Paused → ¬toStatus.Paused → read.foldedMinutes now = r.ticket.foldedMinutes now) :
    GoesOn tenant now r.ticket ((TicketUpdate.move read toStatus statusId opts userId now).set r.ticket) := by
  simp only [TicketUpdate.set]
  generalize moved : Ticket.stamp read toStatus opts userId now { r.ticket with status := toStatus, statusId } = next
  obtain ⟨status, labelled, pausedAt, minutes⟩ := stamp_frame read { r.ticket with status := toStatus, statusId }
    toStatus opts userId now
  have resolved := resolved_stamp law
    (t := { r.ticket with status := toStatus, statusId }) opts userId now same rfl step
  rw [moved] at status labelled pausedAt minutes resolved
  obtain ⟨clockStatus, clockLabel, clockResolved⟩ := runClock_frame read next toStatus now
  refine ⟨.inr ?_, ?_, ?_, ?_, ?_⟩
  · rw [clockStatus, status, same]
    exact step
  · rw [clockStatus, clockLabel, status, labelled]
    exact label
  · rw [clockStatus, status, same]
    unfold Ticket.runClock
    by_cases was : read.status.Paused
    · by_cases paused : toStatus.Paused
      · rw [if_neg (fun both => both.1 was), if_neg (fun both => both.2 paused), if_pos paused, if_pos was]
        exact pausedAt
      · rw [if_neg (fun both => both.1 was), if_pos ⟨was, paused⟩, if_neg paused]
    · by_cases paused : toStatus.Paused
      · rw [if_pos ⟨was, paused⟩, if_pos paused, if_neg was]
      · rw [if_neg (fun both => paused both.2), if_neg (fun both => was both.1), if_neg paused, pausedAt]
        rw [← same] at was
        exact law.pausedAt_eq_none was
  · rw [clockStatus, status, same]
    unfold Ticket.runClock
    by_cases out : read.status.Paused ∧ ¬toStatus.Paused
    · obtain ⟨began, stamped⟩ := isSome_iff_exists.mp (law.paused.mpr (same ▸ out.1))
      rw [if_neg (fun both => both.1 out.1), if_pos out, if_pos out]
      simp only
      rw [fits out.1 out.2, Ticket.foldedMinutes, stamped]
      rfl
    · rw [if_neg out]
      split_ifs <;> exact congrArg (Option.getD · 0) minutes
  · rw [clockStatus, clockResolved, status]
    exact resolved

theorem Consistent.goesOn_open (law : Consistent tenant r) (now : ℕ) (assigneeId : Option ℕ)
    (new : r.ticket.status = .new) (unlabelled : r.ticket.statusId = none) :
    GoesOn tenant now r.ticket { r.ticket with assignedTo := assigneeId, status := .opened } where
  step := .inr (by rw [new]; exact mem_cons_self)
  label := by
    rw [unlabelled]
    exact labelOf_none tenant _
  pausedAt := law.pausedAt_eq_none (by rw [new]; decide)
  minutes := by rw [if_neg (fun both => absurd both.1 (by rw [new]; decide))]
  resolved := by
    have before := law.resolved
    rw [new] at before
    have going : ¬TicketStatus.opened.Ended := by decide
    exact iff_of_false (fun resolved => absurd (before.mp resolved) (by decide)) going

theorem Consistent.goesOn (law : Consistent tenant r) (sound : u.Sound tenant) (applies : u.Applies r.ticket)
    (fits : u.Fits r.ticket) : GoesOn tenant u.now r.ticket (u.set r.ticket) := by
  cases u with
  | relabel fromStatus fromId statusId now =>
    obtain ⟨rfl, -⟩ := applies
    exact law.goesOn_same now rfl sound rfl rfl rfl
  | move read toStatus statusId opts userId now =>
    exact law.goesOn_move opts userId applies sound.1 sound.2 fits
  | assign prevAssignedTo assigneeId opens now =>
    cases opens with
    | false => exact law.goesOn_same now rfl law.label rfl rfl rfl
    | true =>
      rcases fits rfl with opened | ⟨new, unlabelled⟩
      · exact law.goesOn_same now opened.symm law.label rfl rfl rfl
      · exact law.goesOn_open now assigneeId new unlabelled

def TicketStage.Fits (t : Ticket) : TicketStage → Prop
  | .updating u => u.Applies t → u.Fits t
  | _ => True

instance TicketStage.decidableFits (t : Ticket) : (stage : TicketStage) → Decidable (stage.Fits t)
  | .updating _ => inferInstanceAs (Decidable (_ → _))
  | .start | .committing | .done _ => .isTrue trivial

def FitsRow (w : TicketWorld) (e : ℕ × TicketAction) : Prop :=
  e.2 ≠ .rollback → (w.proc e.1).stage.Fits (w.db.read e.1).ticket
  deriving Decidable

structure WorldLaw (tenant : TicketTenant) (w : TicketWorld) : Prop where
  committed : TicketLaw tenant w.db.committed
  held : ∀ t v, w.db.held = some (t, v) → TicketLaw tenant v
  sound : ∀ t u, (w.proc t).stage = .updating u → u.Sound tenant

theorem WorldLaw.read {w : TicketWorld} (law : WorldLaw tenant w) (t : ℕ) : TicketLaw tenant (w.db.read t) :=
  Row.read_rule law.committed (law.held t)

theorem start_not_updating (u : TicketUpdate) : TicketStage.start ≠ .updating u := by simp

theorem committing_not_updating (u : TicketUpdate) : TicketStage.committing ≠ .updating u := by simp

theorem done_not_updating (result : Except TicketServiceError Unit) (u : TicketUpdate) :
    TicketStage.done result ≠ .updating u := by simp

theorem created_running (assigneeId : Option ℕ) :
    let status : TicketStatus := if assigneeId.isSome then .opened else .new
    ¬status.Paused ∧ ¬status.Ended := by
  cases assigneeId with
  | none => decide
  | some id => exact (by decide : ¬TicketStatus.opened.Paused ∧ ¬TicketStatus.opened.Ended)

theorem law_created (tenant : TicketTenant) (assigneeId : Option ℕ) (calls : ℕ → TicketCall) :
    WorldLaw tenant (createdWorld tenant assigneeId calls) where
  committed := by
    obtain ⟨running, going⟩ := created_running assigneeId
    refine ⟨⟨isChain_singleton _, labelOf_system tenant _, ?_, rfl, ?_⟩, rfl, rfl⟩
    · exact iff_of_false Bool.false_ne_true running
    · exact iff_of_false Bool.false_ne_true going
  held := fun t v held => absurd held (Row.not_held_of_none rfl t v)
  sound := fun _ u stage => absurd stage (start_not_updating u)

theorem ticketAct_law {t : ℕ} {action : TicketAction} {row next : Row ℕ TicketRecord} {p q : TicketProc}
    (acted : ticketAct tenant t action row p = some (next, q)) (read : TicketLaw tenant (row.read t))
    (fits : action ≠ .rollback → p.stage.Fits (row.read t).ticket)
    (sound : ∀ u, p.stage = .updating u → u.Sound tenant) :
    (next.committed = row.committed ∨ next.committed = row.read t) ∧
    (∀ u v, next.held = some (u, v) → row.held = some (u, v) ∨ TicketLaw tenant v) ∧
    ∀ u, q.stage = .updating u → u.Sound tenant := by
  obtain ⟨call, stage⟩ := p
  cases action with
  | rollback =>
    cases stage with
    | done result => cases acted
    | _ =>
      cases acted
      exact ⟨.inl rfl, fun u v held => .inl (Row.held_rollback_iff.mp held).1,
        fun u stage => absurd stage (done_not_updating _ u)⟩
  | exec now =>
    cases stage with
    | start =>
      cases acted
      refine ⟨.inl rfl, fun u v held => .inl held, fun u stage => ?_⟩
      simp only at stage
      split at stage
      next => cases stage
      next => cases stage
      next update decided =>
        obtain rfl := TicketStage.updating.inj stage
        exact sound_decide decided
    | updating update =>
      simp only [ticketAct] at acted
      split_ifs at acted with applies free
      · cases acted
        refine ⟨.inl rfl, fun u v held => .inr ?_, fun u stage => absurd stage (committing_not_updating u)⟩
        obtain ⟨-, rfl⟩ := Prod.mk.inj (some.inj held)
        exact read.put (read.goesOn (sound update rfl) applies (fits (by simp) applies))
      · cases acted
        exact ⟨.inl rfl, fun u v held => .inl held, fun u stage => absurd stage (done_not_updating _ u)⟩
    | committing =>
      cases acted
      exact ⟨.inr rfl, fun u v held => .inl (Row.held_commit_iff.mp held).1,
        fun u stage => absurd stage (done_not_updating _ u)⟩
    | done result => cases acted

theorem WorldLaw.step {w next : TicketWorld} {e : ℕ × TicketAction} (law : WorldLaw tenant w) (fits : FitsRow w e)
    (stepped : ticketStep tenant w e = some next) : WorldLaw tenant next := by
  obtain ⟨t, action⟩ := e
  obtain ⟨row, q, acted, rfl⟩ := World.step_eq_some stepped
  obtain ⟨committed, held, sound⟩ := ticketAct_law acted (law.read t) fits (law.sound t)
  refine ⟨?_, fun u v own => ?_, fun u update stage => ?_⟩
  · rcases committed with same | read
    · exact same ▸ law.committed
    · exact read ▸ law.read t
  · exact (held u v own).elim (law.held u v) fun kept => kept
  · by_cases same : u = t
    · subst same
      simp only [Function.update_self] at stage
      exact sound update stage
    · have before := Function.update_of_ne same q w.proc
      exact law.sound u update ((congrArg TicketProc.stage before).symm.trans stage)

/-- In a run whose updates fit the row they find, status, label and clock agree. -/
theorem ticket_stays_consistent (tenant : TicketTenant) (assigneeId : Option ℕ) (calls : ℕ → TicketCall)
    (es : List (ℕ × TicketAction)) (w : TicketWorld)
    (meets : Meets (ticketStep tenant) FitsRow (createdWorld tenant assigneeId calls) es)
    (reach : run (ticketStep tenant) (createdWorld tenant assigneeId calls) es = some w) :
    Consistent tenant w.db.committed :=
  (run_invariant (fun _ _ _ => WorldLaw.step) (law_created tenant assigneeId calls) meets reach).committed.toConsistent

def sampleTenant : TicketTenant where
  partnerId := some 1
  userPartner := fun _ => some 1
  statuses := ⟨[⟨10, 1, .new, true, true⟩, ⟨11, 1, .opened, true, true⟩, ⟨12, 1, .pending, true, true⟩,
    ⟨13, 1, .onHold, true, true⟩, ⟨14, 1, .resolved, true, true⟩, ⟨15, 1, .closed, true, true⟩], by decide⟩

def toStatus (status : TicketStatus) : TicketCall := .changeTicketStatus ⟨some status, none⟩ ⟨some ['x'], none⟩ 7

def execAt (t : ℕ) (instants : List ℕ) : List (ℕ × TicketAction) := instants.map fun now => (t, .exec now)

/-- A new ticket without an assignee gets one, alone: it is open and keeps the label of a new one. -/
theorem assigned_ticket_mislabelled :
    ∃ w, run (ticketStep sampleTenant) (createdWorld sampleTenant none fun _ => .assignTicket (some 7))
        (execAt 0 [5, 6, 7]) = some w ∧
      w.db.held = none ∧ (w.proc 0).stage = .done (.ok ()) ∧ w.db.committed.ticket.status = .opened ∧
      w.db.committed.ticket.statusId = some 10 ∧
      (sampleTenant.statuses.getTicketStatusById 10).map TicketStatusRow.coreStatus = some .new :=
  ⟨_, rfl, by decide, rfl, by decide, by decide, by decide⟩

/-- The ticket is pending for two minutes, and then resolved and handed to another user at once. -/
def sampleCalls : ℕ → TicketCall
  | 0 => toStatus .pending
  | 1 => toStatus .opened
  | 2 => toStatus .resolved
  | _ => .assignTicket (some 8)

def sampleRun : List (ℕ × TicketAction) :=
  execAt 0 [60000, 60000, 60000] ++ execAt 1 [180000, 180000, 180000] ++ execAt 2 [240000] ++ execAt 3 [240000] ++
    execAt 2 [240000, 240000] ++ execAt 3 [240000, 240000]

theorem sample_ticket_stays_consistent :
    ∃ w, run (ticketStep sampleTenant) (createdWorld sampleTenant (some 7) sampleCalls) sampleRun = some w ∧
      w.db.committed.ticket.slaPausedMinutes = some 2 ∧ Consistent sampleTenant w.db.committed :=
  ⟨_, rfl, by decide, ticket_stays_consistent sampleTenant (some 7) sampleCalls sampleRun _ (by decide) rfl⟩

end RemudaRmm.Tickets
