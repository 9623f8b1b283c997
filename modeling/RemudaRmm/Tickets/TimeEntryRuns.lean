import RemudaRmm.Tickets.TimeTracking

/-! Time entries under READ COMMITTED: timers, entries, edits and approvals, a statement at a time. A request is one
transaction; the index on running entries allows one for each user. -/
namespace RemudaRmm.Tickets
open Foundation Option Table

/-- What an approval vouches for. -/
structure ApprovedTerms where
  startedAt : ℤ
  endedAt : Option ℤ
  hourlyRate : Option ℕ
  isBillable : Bool
  ticketId : Option ℕ
  deriving DecidableEq

def TimeEntry.terms (e : TimeEntry) : ApprovedTerms := ⟨e.startedAt, e.endedAt, e.hourlyRate, e.isBillable, e.ticketId⟩

/-- The row with its history: whether its end is that of a stopped timer, and what was approved last. -/
structure EntryRecord where
  entry : TimeEntry
  timerStopped : Bool
  approvedTerms : Option ApprovedTerms
  deriving DecidableEq

namespace EntryRecord

def insert (e : TimeEntry) : EntryRecord := ⟨e, false, none⟩

def stop (now : ℤ) (overrides : StopOverrides) (r : EntryRecord) : EntryRecord :=
  { r with entry := r.entry.stop now overrides, timerStopped := true }

def update (patch : TimeEntryPatch) (r : EntryRecord) : EntryRecord where
  entry := patch.set r.entry
  timerStopped := r.timerStopped && patch.input.endedAt.isNone
  approvedTerms := r.approvedTerms

def approve (approve : Bool) (actor : TimeEntryActor) (now : ℤ) (r : EntryRecord) : EntryRecord :=
  { r with
    entry := r.entry.approve approve actor now
    approvedTerms := if approve then some r.entry.terms else r.approvedTerms }

end EntryRecord

/-- The ids from `nextId` on have not been drawn yet. -/
structure EntryDb where
  entries : Table ℕ ℕ (Option EntryRecord)
  nextId : ℕ

inductive EntryCall where
  | startTimer (ticketId : Option ℕ) (description : Option Text)
  | stopTimer (overrides : StopOverrides)
  | createTimeEntry (input : CreateTimeEntryInput)
  | updateTimeEntry (id : ℕ) (input : UpdateTimeEntryInput)
  | deleteTimeEntry (id : ℕ)
  | approveTimeEntries (ids : List ℕ) (approve : Bool)

/-- The next statement of a call. A stop has its snapshot and goes on, if it was made to start a timer, to the row of
that timer. -/
inductive EntryStage where
  | start
  | stopping (found : Option ℕ) (now : ℤ) (overrides : StopOverrides) (timer : Option TimeEntry)
  | inserting (row : TimeEntry)
  | updating (id : ℕ) (read : TimeEntry) (patch : TimeEntryPatch)
  | deleting (id : ℕ)
  | approving (rest : List ℕ) (approve : Bool) (now : ℤ)
  | committing
  | done (result : Except TimeEntryServiceError Unit)

structure EntryProc where
  call : EntryCall
  actor : TimeEntryActor
  reads : TicketReads
  stage : EntryStage

inductive EntryAction where
  | exec (now : ℤ)
  | rollback
  deriving DecidableEq

namespace EntryDb

def read (t k : ℕ) (db : EntryDb) : Option TimeEntry := ((db.entries k).read t).map EntryRecord.entry

/-- An update or delete by id; `none` while another transaction holds the row. -/
def change (t k : ℕ) (f : EntryRecord → Option EntryRecord) (db : EntryDb) : Option EntryDb :=
  match (db.entries k).read t with
  | none => some db
  | some r => if (db.entries k).Free t then some { db with entries := db.entries.write t k (f r) } else none

def rollback (t : ℕ) (db : EntryDb) : EntryDb := { db with entries := fun k => (db.entries k).rollback t }

def commit (t : ℕ) (db : EntryDb) : EntryDb := { db with entries := fun k => (db.entries k).commit t }

end EntryDb

/-- The running entry of a user, as `stopRunningEntry` and the index select it. -/
def RunsFor (userId : ℕ) (row : Option EntryRecord) : Prop :=
  ∃ r, row = some r ∧ r.entry.userId = userId ∧ r.entry.endedAt = none

instance RunsFor.decidable (userId : ℕ) (row : Option EntryRecord) : Decidable (RunsFor userId row) :=
  decidable_of_iff (row.any (fun r => r.entry.userId = userId ∧ r.entry.endedAt = none) = true) (by
    simp [RunsFor, Option.any_eq_true])

/-- The row that `stopRunningEntry` finds for its actor. -/
def StopsFor (actor : TimeEntryActor) (row : Option EntryRecord) : Prop :=
  RunsFor actor.userId row ∧ row.all (fun r => actor.partnerId.all (· = r.entry.partnerId)) = true
  deriving Decidable

namespace EntryDb

def running (t : ℕ) (actor : TimeEntryActor) (db : EntryDb) : Option ℕ :=
  (List.range db.nextId).find? fun k => StopsFor actor ((db.entries k).read t)

/-- Another transaction is about to add, stop or remove the running entry of the user. -/
def InDoubt (t userId : ℕ) (db : EntryDb) (k : ℕ) : Prop :=
  ¬(db.entries k).Free t ∧
    (RunsFor userId (db.entries k).committed ∨ ∃ p, (db.entries k).held = some p ∧ RunsFor userId p.2)

instance decidableInDoubt (t userId : ℕ) (db : EntryDb) (k : ℕ) : Decidable (db.InDoubt t userId k) :=
  decidable_of_iff (¬(db.entries k).Free t ∧ (RunsFor userId (db.entries k).committed ∨
    (db.entries k).held.any (fun p => RunsFor userId p.2) = true)) (by
      simp [InDoubt, Option.any_eq_true])

/-- The statement fails on the unique index, which leaves its transaction aborted: the second attempt of `startTimer`
fails too. -/
def insert (t : ℕ) (row : TimeEntry) (db : EntryDb) : Option (EntryDb × EntryStage) :=
  let inserted := { entries := db.entries.write t db.nextId (some (.insert row)), nextId := db.nextId + 1 }
  if row.endedAt.isSome then some (inserted, .committing)
  else if ∃ k ∈ List.range db.nextId, db.InDoubt t row.userId k then none
  else if ∃ k ∈ List.range db.nextId, RunsFor row.userId ((db.entries k).read t) then
    some (db.rollback t, .done (.error ⟨500, none⟩))
  else some (inserted, .committing)

/-- The ids that `approveTimeEntries` finds, with an end, among those that it is given. -/
def eligible (t : ℕ) (actor : TimeEntryActor) (ids : List ℕ) (db : EntryDb) : List ℕ :=
  ids.filter fun k => ((db.read t k).filter fun e =>
    actor.partnerId.all (· = e.partnerId) && entryOrgAllowed e.orgId actor.accessibleOrgIds).any (·.endedAt.isSome)

end EntryDb

/-- The reads and checks of a call, up to its first statement that writes. -/
def beginEntryCall (t : ℕ) (now : ℤ) (db : EntryDb) (p : EntryProc) : EntryStage :=
  match p.call with
  | .startTimer ticketId description =>
    match startTimer p.reads ticketId description p.actor now with
    | .error error => .done (.error error)
    | .ok timer => .stopping (db.running t p.actor) now ⟨none, none⟩ (some timer)
  | .stopTimer overrides => .stopping (db.running t p.actor) now overrides none
  | .createTimeEntry input =>
    match createTimeEntry p.reads input p.actor with
    | .error error => .done (.error error)
    | .ok row => .inserting row
  | .updateTimeEntry id input =>
    match getEntryOr404 (db.read t id) p.actor with
    | .error error => .done (.error error)
    | .ok read =>
      match updateTimeEntry p.reads read input p.actor with
      | .error error => .done (.error error)
      | .ok patch => .updating id read patch
  | .deleteTimeEntry id =>
    match getEntryOr404 (db.read t id) p.actor with
    | .error error => .done (.error error)
    | .ok read =>
      match assertCanMutate read p.actor with
      | .error error => .done (.error error)
      | .ok () => .deleting id
  | .approveTimeEntries ids approve =>
    if p.actor.manageAll = false then .done (.error ⟨403, some .adminRequired⟩)
    else .approving (db.eligible t p.actor ids) approve now

/-- What comes after a stop: the timer it was made for, or the answer of `stopTimer`. -/
def afterStop (later : ℤ) (timer : Option TimeEntry) (stopped : Bool) : EntryStage :=
  match timer with
  | some timer => .inserting { timer with startedAt := later }
  | none => if stopped then .committing else .done (.error ⟨404, some .noRunningTimer⟩)

def stopRunningEntry (t : ℕ) (later : ℤ) (found : Option ℕ) (now : ℤ) (overrides : StopOverrides)
    (timer : Option TimeEntry) (actor : TimeEntryActor) (db : EntryDb) : Option (EntryDb × EntryStage) :=
  match found with
  | none => some (db, afterStop later timer false)
  | some k =>
    if (db.entries k).Free t then
      if StopsFor actor ((db.entries k).read t) then
        (db.change t k fun r => some (r.stop now overrides)).map (·, afterStop later timer true)
      else some (db, afterStop later timer false)
    else none

/-- One statement of a call, one row of its bulk update, or its commit; `none` while it is blocked. -/
def entryAct (t : ℕ) (action : EntryAction) (db : EntryDb) (p : EntryProc) : Option (EntryDb × EntryProc) :=
  let go (next : Option (EntryDb × EntryStage)) := next.map fun n => (n.1, { p with stage := n.2 })
  match action, p.stage with
  | _, .done _ => none
  | .rollback, _ => go (some (db.rollback t, .done (.error ⟨500, none⟩)))
  | .exec now, .start => go (some (db, beginEntryCall t now db p))
  | .exec later, .stopping found now overrides timer =>
    go (stopRunningEntry t later found now overrides timer p.actor db)
  | .exec _, .inserting row => go (db.insert t row)
  | .exec _, .updating id _ patch => go ((db.change t id fun r => some (r.update patch)).map (·, .committing))
  | .exec _, .deleting id => go ((db.change t id fun _ => none).map (·, .committing))
  | .exec _, .approving [] _ _ => go (some (db, .committing))
  | .exec _, .approving (k :: rest) approve now =>
    go ((db.change t k fun r => some (r.approve approve p.actor now)).map (·, .approving rest approve now))
  | .exec _, .committing => go (some (db.commit t, .done (.ok ())))

abbrev EntryWorld := World ℕ EntryDb EntryProc

abbrev entryStep : EntryWorld → ℕ × EntryAction → Option EntryWorld := World.step entryAct

def noEntries (calls : ℕ → EntryCall) (actors : ℕ → TimeEntryActor) (reads : ℕ → TicketReads) : EntryWorld where
  db := ⟨fun _ => Row.unheld none, 0⟩
  proc := fun t => ⟨calls t, actors t, reads t, .start⟩

/-- The minutes are those of the instants, and what is approved is what was approved. -/
structure EntryConsistent (r : EntryRecord) : Prop where
  timed : ∀ finish, r.entry.endedAt = some finish →
    (r.entry.startedAt < finish ∨ r.timerStopped = true) ∧
      r.entry.durationMinutes = some (computeDurationMinutes r.entry.startedAt finish)
  approved : r.entry.isApproved = true → r.entry.endedAt.isSome = true ∧ r.approvedTerms = some r.entry.terms

/-- An entry that is approved when the transaction changes or deletes it is changed by an approver. -/
def WithinRights (t : ℕ) (w next : EntryWorld) : Prop :=
  ∀ k r v, (w.db.entries k).read t = some r → r.entry.isApproved = true →
    (next.db.entries k).held = some (t, v) → v ≠ some r → (w.proc t).actor.manageAll = true

/-- An edit that gives one of the instants alone finds the other one as it has read it. -/
def TimeEntryPatch.Fits (patch : TimeEntryPatch) (read e : TimeEntry) : Prop :=
  (patch.input.startedAt.isSome = true → patch.input.endedAt = none → e.endedAt = read.endedAt) ∧
  (patch.input.endedAt.isSome = true → patch.input.startedAt = none → e.startedAt = read.startedAt)
  deriving Decidable

def EntryStage.Fits (actor : TimeEntryActor) (row : ℕ → Option TimeEntry) : EntryStage → Prop
  | .updating id read patch => ∀ e ∈ row id, patch.Fits read e ∧ (e.isApproved = true → actor.manageAll = true)
  | .deleting id => ∀ e ∈ row id, e.isApproved = true → actor.manageAll = true
  | _ => True

instance EntryStage.decidableFits (actor : TimeEntryActor) (row : ℕ → Option TimeEntry) :
    (stage : EntryStage) → Decidable (stage.Fits actor row)
  | .updating _ _ _ | .deleting _ => inferInstanceAs (Decidable (∀ e ∈ _, _))
  | .start | .stopping _ _ _ _ | .inserting _ | .approving _ _ _ | .committing | .done _ => .isTrue trivial

/-- An edit fits the row it finds, and an actor who is no approver finds a row that is not approved. -/
def FitsEntry (w : EntryWorld) (e : ℕ × EntryAction) : Prop :=
  e.2 ≠ .rollback → (w.proc e.1).stage.Fits (w.proc e.1).actor (w.db.read e.1)
  deriving Decidable

section Rows
variable {r : EntryRecord} {reads : TicketReads} {actor : TimeEntryActor}

theorem EntryConsistent.update (law : EntryConsistent r) {patch : TimeEntryPatch} {read : TimeEntry}
    (sound : patch.Sound reads actor read) (fits : patch.Fits read r.entry) : EntryConsistent (r.update patch) where
  timed := by
    intro finish ended
    simp only [EntryRecord.update, TimeEntryPatch.set] at ended ⊢
    have ordered := sound.ordered
    have minutes := sound.minutes
    cases start : patch.input.startedAt with
    | none =>
      cases stop : patch.input.endedAt with
      | none =>
        simp only [start, stop, isSome_none, Bool.or_self, Bool.false_eq_true, if_false] at minutes
        simp only [stop, none_or] at ended
        simp only [minutes, none_or, getD_none, isNone_none, Bool.and_true]
        exact law.timed finish ended
      | some given =>
        have same := fits.2 (by rw [stop]; rfl) start
        simp only [stop, some_or, Option.some.injEq] at ended
        subst ended
        simp only [start, stop, some_or, getD_none, Option.some.injEq, forall_eq'] at ordered
        simp only [start, stop, isSome_none, isSome_some, Bool.or_true, if_true, some_or,
          getD_none, map_some] at minutes
        simp only [minutes, some_or, getD_none, same]
        exact ⟨.inl ordered, trivial⟩
    | some given =>
      have same : patch.input.endedAt.or r.entry.endedAt = patch.input.endedAt.or read.endedAt := by
        cases stop : patch.input.endedAt with
        | none => exact fits.1 (by rw [start]; rfl) stop
        | some _ => rfl
      rw [same] at ended
      have later := ordered finish ended
      simp only [start, getD_some] at later
      simp only [start, ended, isSome_some, Bool.true_or, if_true, getD_some, map_some] at minutes
      simp only [minutes, some_or, getD_some]
      exact ⟨.inl later, trivial⟩
  approved := by
    intro approved
    cases approved

theorem EntryConsistent.stop (law : EntryConsistent r) (running : r.entry.endedAt = none) (now : ℤ)
    (overrides : StopOverrides) : EntryConsistent (r.stop now overrides) where
  timed := by
    intro finish ended
    cases ended
    exact ⟨.inr rfl, rfl⟩
  approved := by
    intro approved
    have ended := (law.approved approved).1
    rw [running] at ended
    cases ended

theorem EntryConsistent.approve (law : EntryConsistent r) (ended : r.entry.endedAt.isSome = true) (approve : Bool)
    (actor : TimeEntryActor) (now : ℤ) : EntryConsistent (r.approve approve actor now) := by
  cases approve with
  | true => exact ⟨law.timed, fun _ => ⟨ended, rfl⟩⟩
  | false => exact ⟨law.timed, nofun⟩

theorem consistent_createTimeEntry {input : CreateTimeEntryInput} {row : TimeEntry}
    (accepted : createTimeEntry reads input actor = .ok row) : EntryConsistent (.insert row) := by
  unfold createTimeEntry at accepted
  split at accepted
  next => cases accepted
  next =>
    split_ifs at accepted with range
    cases accepted
    refine ⟨fun finish ended => ?_, nofun⟩
    cases ended
    exact ⟨.inl (not_le.mp range), rfl⟩

def TimeEntry.Fresh (row : TimeEntry) : Prop := row.endedAt = none ∧ row.isApproved = false

theorem fresh_startTimer {ticketId : Option ℕ} {description : Option Text} {now : ℤ} {row : TimeEntry}
    (accepted : startTimer reads ticketId description actor now = .ok row) : row.Fresh := by
  unfold startTimer at accepted
  split at accepted
  next => cases accepted
  next =>
    cases accepted
    exact ⟨rfl, rfl⟩

theorem TimeEntry.Fresh.consistent {row : TimeEntry} (fresh : row.Fresh) : EntryConsistent (.insert row) := by
  refine ⟨fun finish ended => ?_, fun approved => ?_⟩
  · rw [EntryRecord.insert, fresh.1] at ended
    cases ended
  · rw [EntryRecord.insert, fresh.2] at approved
    cases approved

end Rows

def EntryRecord.Ended (r : EntryRecord) : Prop := r.entry.endedAt.isSome = true

def Closed (row : Option EntryRecord) : Prop := ∀ r, row = some r → r.Ended

/-- Every version of the row has an end, or is gone, for good. -/
structure Settled (db : EntryDb) (k : ℕ) : Prop where
  drawn : k < db.nextId
  committed : Closed (db.entries k).committed
  held : ∀ t v, (db.entries k).held = some (t, v) → Closed v

/-- All that a step of transaction `t` can do to the table; an actor with the right to approve, or a row that is not
approved, stands behind what it writes. -/
inductive EntryEffect (t : ℕ) (actor : TimeEntryActor) (db : EntryDb) : EntryDb → Prop
  | same : EntryEffect t actor db db
  | rolledBack : EntryEffect t actor db (db.rollback t)
  | committed : EntryEffect t actor db (db.commit t)
  | wrote (k : ℕ) (r : EntryRecord) (v : Option EntryRecord) (free : (db.entries k).Free t)
      (seen : (db.entries k).read t = some r) (law : ∀ next, v = some next → EntryConsistent next)
      (ends : r.Ended → Closed v) (right : r.entry.isApproved = true → actor.manageAll = true) :
      EntryEffect t actor db { db with entries := db.entries.write t k v }
  | inserted (r : EntryRecord) (law : EntryConsistent r) :
      EntryEffect t actor db ⟨db.entries.write t db.nextId (some r), db.nextId + 1⟩

/-- The table in a run: rows are consistent in every version, and an end that has been committed stays. -/
structure TableLaw (db : EntryDb) : Prop where
  fresh : ∀ k, db.nextId ≤ k → db.entries k = Row.unheld none
  committed : ∀ k r, (db.entries k).committed = some r → EntryConsistent r
  held : ∀ k t r, (db.entries k).held = some (t, some r) → EntryConsistent r
  closed : ∀ k t v r, (db.entries k).committed = some r → r.Ended → (db.entries k).held = some (t, v) → Closed v

section Table
variable {db next : EntryDb} {t : ℕ} {actor : TimeEntryActor} {k : ℕ}

theorem TableLaw.read (law : TableLaw db) {r : EntryRecord} (seen : (db.entries k).read t = some r) :
    EntryConsistent r :=
  Row.read_rule (P := fun v => ∀ r, v = some r → EntryConsistent r) (law.committed k)
    (fun _ held r same => law.held k t r (held.trans (congrArg (fun v => some (t, v)) same))) r seen

theorem TableLaw.drawn (law : TableLaw db) {r : EntryRecord} (seen : (db.entries k).read t = some r) :
    k < db.nextId := by
  apply not_le.mp
  intro undrawn
  rw [law.fresh k undrawn] at seen
  cases seen

theorem TableLaw.ends (law : TableLaw db) {r old : EntryRecord} (seen : (db.entries k).read t = some r)
    (committed : (db.entries k).committed = some old) (ended : old.Ended) : r.Ended := by
  rcases (db.entries k).read_cases t with ⟨v, held, read⟩ | ⟨-, same⟩
  · exact law.closed k t v old committed ended held r (read.symm.trans seen)
  · exact some.inj ((same.trans committed).symm.trans seen) ▸ ended

theorem Settled.read (settled : Settled db k) (t : ℕ) : Closed ((db.entries k).read t) :=
  Row.read_rule settled.committed (settled.held t)

theorem EntryEffect.law (effect : EntryEffect t actor db next) (law : TableLaw db) : TableLaw next := by
  cases effect with
  | same => exact law
  | rolledBack =>
    refine ⟨fun k undrawn => ?_, law.committed, fun k u r held => ?_, fun k u v r committed ended held => ?_⟩
    · have quiet := law.fresh k undrawn
      simp only [EntryDb.rollback, quiet, Row.rollback_unheld]
    · exact law.held k u r (Row.held_rollback_iff.mp held).1
    · exact law.closed k u _ r committed ended (Row.held_rollback_iff.mp held).1
  | committed =>
    refine ⟨fun k undrawn => ?_, fun k r committed => law.read committed, fun k u r held => ?_,
      fun k u v r committed ended held => ?_⟩
    · have quiet := law.fresh k undrawn
      simp only [EntryDb.commit, quiet, Row.commit_unheld]
    · exact law.held k u r (Row.held_commit_iff.mp held).1
    · obtain ⟨held, other⟩ := Row.held_commit_iff.mp held
      have same : (db.entries k).read t = (db.entries k).committed :=
        Row.read_of_not_held fun x own => other (Prod.mk.inj (some.inj (held.symm.trans own))).1
      exact law.closed k u v r (same.symm.trans committed) ended held
  | wrote j old w free seen written ends right =>
    have drawn := law.drawn seen
    refine ⟨fun k undrawn => ?_, fun k r committed => ?_, fun k u r held => ?_, fun k u v r committed ended held => ?_⟩
    · exact (write_of_ne (drawn.trans_le undrawn).ne').trans (law.fresh k undrawn)
    · exact law.committed k r ((committed_write ..).symm.trans committed)
    · rcases held_write held with before | ⟨-, same⟩
      · exact law.held k u r before
      · exact written r same.symm
    · have before := (committed_write t j w db.entries k).symm.trans committed
      rcases held_write held with kept | ⟨rfl, rfl⟩
      · exact law.closed k u v r before ended kept
      · exact ends (law.ends seen before ended)
  | inserted row consistent =>
    refine ⟨fun k undrawn => ?_, fun k r committed => ?_, fun k u r held => ?_, fun k u v r committed ended held => ?_⟩
    · have later : db.nextId < k := undrawn
      exact (write_of_ne later.ne').trans (law.fresh k later.le)
    · exact law.committed k r ((committed_write ..).symm.trans committed)
    · rcases held_write held with before | ⟨-, same⟩
      · exact law.held k u r before
      · exact some.inj same ▸ consistent
    · have before := (committed_write t db.nextId (some row) db.entries k).symm.trans committed
      rcases held_write held with kept | ⟨rfl, -⟩
      · exact law.closed k u v r before ended kept
      · rw [law.fresh _ le_rfl] at before
        cases before

theorem EntryEffect.settled (effect : EntryEffect t actor db next) (settled : Settled db k) : Settled next k := by
  cases effect with
  | same => exact settled
  | rolledBack =>
    exact ⟨settled.drawn, settled.committed, fun u v held => settled.held u v (Row.held_rollback_iff.mp held).1⟩
  | committed =>
    exact ⟨settled.drawn, settled.read t, fun u v held => settled.held u v (Row.held_commit_iff.mp held).1⟩
  | wrote j old w free seen written ends right =>
    refine ⟨settled.drawn, fun r committed => ?_, fun u v held => ?_⟩
    · exact settled.committed r ((committed_write ..).symm.trans committed)
    · rcases held_write held with before | ⟨rfl, rfl⟩
      · exact settled.held u v before
      · exact ends (settled.read t old seen)
  | inserted row consistent =>
    have other := settled.drawn.ne
    refine ⟨settled.drawn.trans (Nat.lt_succ_self _), fun r committed => ?_, fun u v held => ?_⟩
    · exact settled.committed r ((committed_write ..).symm.trans committed)
    · rcases held_write held with before | ⟨same, -⟩
      · exact settled.held u v before
      · exact absurd same other

theorem EntryEffect.unheld (effect : EntryEffect t actor db next) {u : ℕ} (other : u ≠ t)
    (unheld : ∀ k v, (db.entries k).held ≠ some (u, v)) (k : ℕ) (v : Option EntryRecord) :
    (next.entries k).held ≠ some (u, v) := by
  intro held
  cases effect with
  | same => exact unheld k v held
  | rolledBack => exact unheld k v (Row.held_rollback_iff.mp held).1
  | committed => exact unheld k v (Row.held_commit_iff.mp held).1
  | wrote j old w free seen written ends right =>
    by_cases same : k = j
    · subst same
      exact unheld k v ((kept_write other free w k v).mp held)
    · exact unheld k v ((congrArg Row.held (write_of_ne same)).symm.trans held)
  | inserted row consistent =>
    by_cases same : k = db.nextId
    · subst same
      simp only [write_self, Row.held_write, Option.some.injEq, Prod.mk.injEq] at held
      exact other held.1.symm
    · exact unheld k v ((congrArg Row.held (write_of_ne same)).symm.trans held)

theorem EntryEffect.right (effect : EntryEffect t actor db next) (law : TableLaw db) {r : EntryRecord}
    {v : Option EntryRecord} (seen : (db.entries k).read t = some r) (approved : r.entry.isApproved = true)
    (held : (next.entries k).held = some (t, v)) (changed : v ≠ some r) : actor.manageAll = true := by
  have kept : (db.entries k).held ≠ some (t, v) := by
    intro own
    rw [Row.read_of_held own] at seen
    exact changed seen
  cases effect with
  | same => exact absurd held kept
  | rolledBack => exact absurd held (Row.not_held_rollback t v _)
  | committed => exact absurd held (Row.not_held_commit t v _)
  | wrote j old w free before written ends right =>
    rcases held_write held with own | ⟨rfl, -⟩
    · exact absurd own kept
    · exact right (some.inj (before.symm.trans seen) ▸ approved)
  | inserted row consistent =>
    rcases held_write held with own | ⟨rfl, -⟩
    · exact absurd own kept
    · exact absurd (law.drawn seen) (lt_irrefl _)

def EntryStage.Law (db : EntryDb) (t : ℕ) (actor : TimeEntryActor) : EntryStage → Prop
  | .start => ∀ k v, (db.entries k).held ≠ some (t, v)
  | .stopping _ _ _ timer => ∀ row, timer = some row → row.Fresh
  | .inserting row => EntryConsistent (.insert row)
  | .updating _ read patch => ∃ reads, patch.Sound reads actor read
  | .approving rest _ _ => actor.manageAll = true ∧ ∀ k ∈ rest, Settled db k
  | .deleting _ | .committing | .done _ => True

theorem EntryEffect.stage (effect : EntryEffect t actor db next) {u : ℕ} (other : u ≠ t) {owner : TimeEntryActor}
    {stage : EntryStage} (law : stage.Law db u owner) : stage.Law next u owner := by
  cases stage with
  | start => exact effect.unheld other law
  | approving rest approve now => exact ⟨law.1, fun k member => effect.settled (law.2 k member)⟩
  | _ => exact law

theorem effect_change {f : EntryRecord → Option EntryRecord} (changed : db.change t k f = some next)
    (written : ∀ r, (db.entries k).read t = some r →
      (∀ after, f r = some after → EntryConsistent after) ∧ (r.Ended → Closed (f r)) ∧
        (r.entry.isApproved = true → actor.manageAll = true)) : EntryEffect t actor db next := by
  unfold EntryDb.change at changed
  cases seen : (db.entries k).read t with
  | none =>
    rw [seen] at changed
    cases changed
    exact .same
  | some r =>
    rw [seen] at changed
    obtain ⟨consistent, ends, right⟩ := written r seen
    simp only at changed
    split_ifs at changed with free
    cases changed
    exact .wrote k r (f r) free seen consistent ends right

theorem settled_eligible (law : TableLaw db) (unheld : ∀ k v, (db.entries k).held ≠ some (t, v)) {ids : List ℕ}
    (member : k ∈ db.eligible t actor ids) : Settled db k := by
  have found := (List.mem_filter.mp member).2
  obtain ⟨e, visible, ended⟩ := (Option.any_eq_true _ _).mp found
  have read := (filter_eq_some_iff.mp visible).1
  obtain ⟨r, seen, rfl⟩ := map_eq_some_iff.mp read
  have committed := (Row.read_of_not_held (unheld k)).symm.trans seen
  refine ⟨law.drawn seen, fun old same => ?_, fun u v held => law.closed k u v r committed ended held⟩
  exact some.inj (same.symm.trans committed) ▸ ended

theorem law_begin (law : TableLaw db) (p : EntryProc) (now : ℤ) (unheld : ∀ k v, (db.entries k).held ≠ some (t, v)) :
    (beginEntryCall t now db p).Law db t p.actor := by
  unfold beginEntryCall
  split
  next =>
    split
    next => trivial
    next timer accepted =>
      rintro row ⟨⟩
      exact fresh_startTimer accepted
  next =>
    intro row given
    cases given
  next =>
    split
    next => trivial
    next row accepted => exact consistent_createTimeEntry accepted
  next =>
    split
    next => trivial
    next =>
      split
      next => trivial
      next patch accepted => exact ⟨p.reads, (updateTimeEntry_ok accepted).2⟩
  next =>
    split
    next => trivial
    next => split <;> trivial
  next =>
    split_ifs with admin
    · trivial
    · exact ⟨Bool.eq_true_of_not_eq_false admin, fun k member => settled_eligible law unheld member⟩

theorem law_afterStop {later : ℤ} {timer : Option TimeEntry} (fresh : ∀ row, timer = some row → row.Fresh)
    (stopped : Bool) : (afterStop later timer stopped).Law db t actor := by
  cases timer with
  | none => cases stopped <;> trivial
  | some row =>
    have same : TimeEntry.Fresh { row with startedAt := later } := fresh row rfl
    exact same.consistent

theorem law_stopRunningEntry (law : TableLaw db) {later now : ℤ} {found : Option ℕ} {overrides : StopOverrides}
    {timer : Option TimeEntry} (fresh : ∀ row, timer = some row → row.Fresh) {stage : EntryStage}
    (stopped : stopRunningEntry t later found now overrides timer actor db = some (next, stage)) :
    EntryEffect t actor db next ∧ stage.Law next t actor := by
  cases found with
  | none =>
    cases stopped
    exact ⟨.same, law_afterStop fresh false⟩
  | some k =>
    simp only [stopRunningEntry] at stopped
    split_ifs at stopped with free runs
    · obtain ⟨changed, written, reached⟩ := map_eq_some_iff.mp stopped
      cases reached
      refine ⟨effect_change written fun r seen => ?_, law_afterStop fresh true⟩
      obtain ⟨found, same, -, running⟩ := runs.1
      cases same.symm.trans seen
      have consistent := law.read seen
      refine ⟨fun next stopped => some.inj stopped ▸ consistent.stop running now overrides, fun _ r same => ?_,
        fun approved => ?_⟩
      · cases same
        exact rfl
      · have ended := (consistent.approved approved).1
        rw [running] at ended
        cases ended
    · cases stopped
      exact ⟨.same, law_afterStop fresh false⟩

theorem law_insert {row : TimeEntry} (consistent : EntryConsistent (.insert row)) {stage : EntryStage}
    (inserted : db.insert t row = some (next, stage)) : EntryEffect t actor db next ∧ stage.Law next t actor := by
  unfold EntryDb.insert at inserted
  split_ifs at inserted with ended doubt running
  · cases inserted
    exact ⟨.inserted _ consistent, trivial⟩
  · cases inserted
    exact ⟨.rolledBack, trivial⟩
  · cases inserted
    exact ⟨.inserted _ consistent, trivial⟩

theorem effect_update (law : TableLaw db) {id : ℕ} {read : TimeEntry} {patch : TimeEntryPatch}
    (sound : ∃ reads, patch.Sound reads actor read)
    (fits : ∀ e ∈ db.read t id, patch.Fits read e ∧ (e.isApproved = true → actor.manageAll = true))
    (changed : db.change t id (fun r => some (r.update patch)) = some next) : EntryEffect t actor db next := by
  obtain ⟨reads, sound⟩ := sound
  apply effect_change changed
  intro r seen
  obtain ⟨fitting, right⟩ := fits r.entry (congrArg (Option.map EntryRecord.entry) seen)
  refine ⟨fun after same => ?_, fun ended after same => ?_, right⟩
  · exact some.inj same ▸ (law.read seen).update sound fitting
  · cases same
    simp only [EntryRecord.Ended, EntryRecord.update, TimeEntryPatch.set, isSome_or]
    exact Bool.or_eq_true_iff.mpr (.inr ended)

theorem effect_delete {id : ℕ} (fits : ∀ e ∈ db.read t id, e.isApproved = true → actor.manageAll = true)
    (changed : db.change t id (fun _ => none) = some next) : EntryEffect t actor db next := by
  apply effect_change changed
  intro r seen
  refine ⟨fun after same => ?_, fun _ after same => ?_, ?_⟩
  · cases same
  · cases same
  · exact fits r.entry (congrArg (Option.map EntryRecord.entry) seen)

theorem effect_approve (law : TableLaw db) (admin : actor.manageAll = true) (settled : Settled db k)
    {approve : Bool} {now : ℤ} (changed : db.change t k (fun r => some (r.approve approve actor now)) = some next) :
    EntryEffect t actor db next := by
  apply effect_change changed
  intro r seen
  have ended := settled.read t r seen
  refine ⟨fun after same => ?_, fun _ after same => ?_, fun _ => admin⟩
  · exact some.inj same ▸ (law.read seen).approve ended approve actor now
  · cases same
    cases approve <;> exact ended

theorem entryAct_law {action : EntryAction} {p q : EntryProc} (acted : entryAct t action db p = some (next, q))
    (law : TableLaw db) (stage : p.stage.Law db t p.actor)
    (fits : action ≠ .rollback → p.stage.Fits p.actor (db.read t)) :
    EntryEffect t p.actor db next ∧ q.actor = p.actor ∧ q.stage.Law next t p.actor := by
  obtain ⟨call, actor, reads, current⟩ := p
  cases action with
  | rollback =>
    cases current with
    | done result => cases acted
    | _ =>
      cases acted
      exact ⟨.rolledBack, rfl, trivial⟩
  | exec now =>
    have fits := fits (by simp)
    cases current with
    | start =>
      cases acted
      exact ⟨.same, rfl, law_begin law _ now stage⟩
    | stopping found instant overrides timer =>
      obtain ⟨⟨_, after⟩, stopped, reached⟩ := map_eq_some_iff.mp acted
      cases reached
      obtain ⟨effect, goes⟩ := law_stopRunningEntry law stage stopped
      exact ⟨effect, rfl, goes⟩
    | inserting row =>
      obtain ⟨⟨_, after⟩, inserted, reached⟩ := map_eq_some_iff.mp acted
      cases reached
      obtain ⟨effect, goes⟩ := law_insert stage inserted
      exact ⟨effect, rfl, goes⟩
    | updating id read patch =>
      obtain ⟨_, staged, reached⟩ := map_eq_some_iff.mp acted
      obtain ⟨_, changed, rfl⟩ := map_eq_some_iff.mp staged
      cases reached
      exact ⟨effect_update law stage fits changed, rfl, trivial⟩
    | deleting id =>
      obtain ⟨_, staged, reached⟩ := map_eq_some_iff.mp acted
      obtain ⟨_, changed, rfl⟩ := map_eq_some_iff.mp staged
      cases reached
      exact ⟨effect_delete fits changed, rfl, trivial⟩
    | approving rest approve instant =>
      cases rest with
      | nil =>
        cases acted
        exact ⟨.same, rfl, trivial⟩
      | cons k rest =>
        obtain ⟨_, staged, reached⟩ := map_eq_some_iff.mp acted
        obtain ⟨_, changed, rfl⟩ := map_eq_some_iff.mp staged
        cases reached
        have effect := effect_approve law stage.1 (stage.2 k List.mem_cons_self) changed
        exact ⟨effect, rfl, stage.1, fun j member => effect.settled (stage.2 j (List.mem_cons_of_mem k member))⟩
    | committing =>
      cases acted
      exact ⟨.committed, rfl, trivial⟩
    | done result => cases acted

end Table

structure EntryWorldLaw (w : EntryWorld) : Prop where
  table : TableLaw w.db
  calls : ∀ t, (w.proc t).stage.Law w.db t (w.proc t).actor

theorem law_noEntries (calls : ℕ → EntryCall) (actors : ℕ → TimeEntryActor) (reads : ℕ → TicketReads) :
    EntryWorldLaw (noEntries calls actors reads) where
  table := by
    refine ⟨fun _ _ => rfl, fun k r committed => ?_, fun k t r held => ?_, fun k t v r committed => ?_⟩
    · cases committed
    · cases held
    · cases committed
  calls := by
    intro t k v held
    cases held

theorem EntryWorldLaw.step {w next : EntryWorld} {e : ℕ × EntryAction} (law : EntryWorldLaw w) (fits : FitsEntry w e)
    (stepped : entryStep w e = some next) : EntryWorldLaw next ∧ WithinRights e.1 w next := by
  obtain ⟨t, action⟩ := e
  obtain ⟨db, q, acted, rfl⟩ := World.step_eq_some stepped
  obtain ⟨effect, same, stage⟩ := entryAct_law acted law.table (law.calls t) fits
  refine ⟨⟨effect.law law.table, fun u => ?_⟩, fun k r v seen approved held => ?_⟩
  · by_cases own : u = t
    · subst own
      simp only [Function.update_self, same]
      exact stage
    · simp only [Function.update_of_ne own]
      exact effect.stage own (law.calls u)
  · exact effect.right law.table seen approved held

/-- In a run whose edits fit the rows they find, entries are consistent and approvals hold. -/
theorem entries_stay_consistent (calls : ℕ → EntryCall) (actors : ℕ → TimeEntryActor) (reads : ℕ → TicketReads)
    (es : List (ℕ × EntryAction)) (meets : Meets entryStep FitsEntry (noEntries calls actors reads) es) :
    Meets entryStep (fun w e => ∀ next, entryStep w e = some next →
      (∀ k r, (next.db.entries k).committed = some r → EntryConsistent r) ∧ WithinRights e.1 w next)
      (noEntries calls actors reads) es := by
  refine Meets.under (fun w e next law fits stepped => (law.step fits stepped).1) ?_ (law_noEntries calls actors reads)
    meets
  intro w e law fits next stepped
  obtain ⟨after, rights⟩ := law.step fits stepped
  exact ⟨after.table.committed, rights⟩

def noReads : TicketReads := ⟨fun _ => none, fun _ => none, fun _ => none, fun _ => none⟩

def noEdit : UpdateTimeEntryInput := ⟨none, none, none, none, none, none, none⟩

def technician : TimeEntryActor := ⟨7, some 1, false, none⟩

def approver : TimeEntryActor := ⟨8, some 1, true, none⟩

/-- Ten minutes are entered; one edit moves the start by a minute, the other one the end by ten, and the entry is
approved. -/
def sampleEntryCalls : ℕ → EntryCall
  | 0 => .createTimeEntry ⟨none, 0, 600000, none, none, none, none⟩
  | 1 => .updateTimeEntry 0 { noEdit with startedAt := some 60000 }
  | 2 => .updateTimeEntry 0 { noEdit with endedAt := some 1200000 }
  | _ => .approveTimeEntries [0] true

def sampleEntries : EntryWorld :=
  noEntries sampleEntryCalls (fun t => if t < 3 then technician else approver) fun _ => noReads

def execEntry (t n : ℕ) : List (ℕ × EntryAction) := List.replicate n (t, .exec 0)

/-- The first edit has read the entry before the second edit and the approval; it then changes an approved entry, and
leaves nine minutes where there are nineteen. -/
theorem approved_entry_overwritten :
    ∃ w next final,
      run entryStep sampleEntries (execEntry 0 3 ++ execEntry 1 1 ++ execEntry 2 3 ++ execEntry 3 4) = some w ∧
      run entryStep w (execEntry 1 1) = some next ∧ ¬WithinRights 1 w next ∧
      run entryStep next (execEntry 1 1) = some final ∧
      ∃ r, (final.db.entries 0).committed = some r ∧ ¬EntryConsistent r := by
  refine ⟨_, _, _, rfl, rfl, fun rights => ?_, rfl, _, rfl, fun law => ?_⟩
  · exact absurd (rights 0 _ _ rfl rfl rfl (by decide)) (by decide)
  · exact absurd (law.timed 1200000 rfl).2 (by decide)

def orderlyEntries : List (ℕ × EntryAction) := execEntry 0 3 ++ execEntry 1 3 ++ execEntry 2 3 ++ execEntry 3 4

theorem orderly_entries_stay_consistent :
    (∃ final, run entryStep sampleEntries orderlyEntries = some final ∧
      (final.db.read 9 0).map (fun e => (e.durationMinutes, e.isApproved)) = some (some 19, true)) ∧
    Meets entryStep (fun w e => ∀ next, entryStep w e = some next →
      (∀ k r, (next.db.entries k).committed = some r → EntryConsistent r) ∧ WithinRights e.1 w next)
      sampleEntries orderlyEntries :=
  ⟨⟨_, rfl, by decide⟩, entries_stay_consistent sampleEntryCalls _ _ orderlyEntries (by decide)⟩

end RemudaRmm.Tickets
