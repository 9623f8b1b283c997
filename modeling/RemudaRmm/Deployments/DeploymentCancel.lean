import RemudaRmm.Deployments.DeploymentEngine
import RemudaRmm.Foundation.ReadCommitted

/-! One deployment under READ COMMITTED: the deployment job, device jobs, pause, resume and cancel, a statement at a
time. The deployment job is one transaction; a device job has one before its payload and one after. -/
namespace RemudaRmm.Deployments
open Foundation Function Row Option

/-- `cancelled` once a `cancelDeployment` has committed. -/
structure DeploymentDb (κ : Type*) where
  status : Row ℕ DeploymentStatus
  devices : Table κ ℕ DeploymentDevice
  cancelled : Bool

inductive DeploymentCall (κ : Type*) where
  | processDeployment
  | processDevice (device : κ) (batchNumber : ℕ)
  | pauseDeployment
  | resumeDeployment
  | cancelDeployment

/-- What a transaction that has nothing left but its commit has done. -/
inductive Ending where
  | processed
  | claimed (late : Bool)
  | retried
  | settled
  | cancelled
  deriving DecidableEq

/-- The next statement of a call. `late` when the device job read the deployment after the cancel. -/
inductive Stage (κ : Type*) where
  | start
  | markRunning
  | selectPending
  | countProgress
  | markCompleted
  | claimRow (status : DeploymentStatus) (late : Bool)
  | claimed (status : DeploymentStatus) (late : Bool)
  | execute (late : Bool)
  | record (success : Bool)
  | updateRetry (retryCount : ℕ)
  | markFailed
  | checkPause
  | markPaused
  | selectSkipped
  | skipPending (rest : List κ)
  | ending (ending : Ending)
  | finished

structure DeploymentProc (κ : Type*) where
  call : DeploymentCall κ
  stage : Stage κ

/-- What a step is told from outside: the answer of the maintenance window, the organisation check or the payload, or
that the transaction is rolled back. -/
inductive Signal where
  | exec (answer : Bool)
  | rollback
  deriving DecidableEq

section Statements
variable {κ : Type*} [DecidableEq κ] (targets : List κ) (config : RolloutConfig)

namespace DeploymentDb

/-- `UPDATE deployments SET status WHERE id AND guard`; `none` while another transaction holds a row that matches. -/
def updateStatus (t : ℕ) (guard : DeploymentStatus → Bool) (status : DeploymentStatus) (db : DeploymentDb κ) :
    Option (DeploymentDb κ) :=
  if guard (db.status.read t) then
    if db.status.Free t then some { db with status := db.status.write t status } else none
  else some db

/-- `UPDATE deployment_devices WHERE deployment_id AND device_id`, without a look at the old status. -/
def updateDevice (t : ℕ) (device : κ) (change : DeploymentDevice → DeploymentDevice) (db : DeploymentDb κ) :
    Option (DeploymentDb κ) :=
  if (db.devices device).Free t then
    some { db with devices := db.devices.write t device (change ((db.devices device).read t)) }
  else none

def rows (t : ℕ) (db : DeploymentDb κ) : List DeploymentDevice := targets.map fun k => (db.devices k).read t

def pendingDevices (t : ℕ) (db : DeploymentDb κ) : List κ :=
  targets.filter fun k => ((db.devices k).read t).status = .pending

def commit (t : ℕ) (ending : Ending) (db : DeploymentDb κ) : DeploymentDb κ where
  status := db.status.commit t
  devices := fun k => (db.devices k).commit t
  cancelled := db.cancelled || ending = .cancelled

def rollback (t : ℕ) (db : DeploymentDb κ) : DeploymentDb κ where
  status := db.status.rollback t
  devices := fun k => (db.devices k).rollback t
  cancelled := db.cancelled

end DeploymentDb

def begin (t : ℕ) (db : DeploymentDb κ) : DeploymentCall κ → Option (DeploymentDb κ × Stage κ)
  | .processDeployment => some (db, if (db.status.read t).Processable then .markRunning else .finished)
  | .processDevice _ _ =>
    let status := db.status.read t
    some (db, if status.Preparable then .claimRow status db.cancelled else .finished)
  | .pauseDeployment => (db.updateStatus t (· = .running) .paused).map (·, .ending .settled)
  | .resumeDeployment => (db.updateStatus t (· = .paused) .running).map (·, .ending .settled)
  | .cancelDeployment => (db.updateStatus t (fun _ => true) .cancelled).map (·, .selectSkipped)

/-- `claimDeploymentDeviceJob`: blocked while another transaction holds a row that matches. -/
def claimRow (t : ℕ) (device : κ) (batchNumber : ℕ) (inOrg : Bool) (status : DeploymentStatus) (late : Bool)
    (db : DeploymentDb κ) : Option (DeploymentDb κ × Stage κ) :=
  match ((db.devices device).read t).claim batchNumber inOrg with
  | none => some (db, .finished)
  | some row =>
    if (db.devices device).Free t then
      some ({ db with devices := db.devices.write t device row }, .claimed status late)
    else none

/-- What `prepareDeploymentDevice` does with the row that it has claimed. -/
def afterClaim (t : ℕ) (device : κ) (inMaintenance : Bool) (status : DeploymentStatus) (late : Bool)
    (db : DeploymentDb κ) : Option (DeploymentDb κ × Stage κ) :=
  if status.Stopped then (db.updateDevice t device (·.withStatus .skipped)).map (·, .ending .settled)
  else if config.respectMaintenanceWindows && !inMaintenance then
    (db.updateDevice t device (·.withStatus .pending)).map (·, .ending .settled)
  else some (db, .ending (.claimed late))

def recordOutcome (t : ℕ) (device : κ) (db : DeploymentDb κ) : Stage κ → Option (DeploymentDb κ × Stage κ)
  | .record success =>
    if success then (db.updateDevice t device (·.withStatus .completed)).map (·, .checkPause)
    else
      let row := (db.devices device).read t
      some (db, if row.CanRetry then .updateRetry (row.retryCount + 1) else .markFailed)
  | .updateRetry retryCount =>
    (db.updateDevice t device fun row => { row with retryCount := retryCount, status := .pending }).map
      (·, .ending .retried)
  | .markFailed => (db.updateDevice t device (·.withStatus .failed)).map (·, .checkPause)
  | .checkPause =>
    let pause := shouldPauseDeployment (getDeploymentProgress (db.rows targets t)) config
    some (db, if pause then .markPaused else .ending .settled)
  | .markPaused => (db.updateStatus t (· = .running) .paused).map (·, .ending .settled)
  | _ => none

/-- One row of the second update of `cancelDeployment`: it waits for the row and looks at it again. -/
def skipRow (t : ℕ) (db : DeploymentDb κ) : List κ → Option (DeploymentDb κ × Stage κ)
  | [] => some (db, .ending .cancelled)
  | k :: rest =>
    if (db.devices k).Free t then
      if ((db.devices k).read t).status = .pending then
        some ({ db with devices := db.devices.write t k (((db.devices k).read t).withStatus .skipped) },
          .skipPending rest)
      else some (db, .skipPending rest)
    else none

def execStage (t : ℕ) (answer : Bool) (db : DeploymentDb κ) (p : DeploymentProc κ) :
    Option (DeploymentDb κ × Stage κ) :=
  match p.stage, p.call with
  | .start, call => begin t db call
  | .markRunning, .processDeployment => (db.updateStatus t (fun _ => true) .running).map (·, .selectPending)
  | .selectPending, .processDeployment =>
    some (db, if db.pendingDevices targets t = [] then .countProgress else .ending .processed)
  | .countProgress, .processDeployment =>
    let progress := getDeploymentProgress (db.rows targets t)
    some (db, if progress.pending = 0 ∧ progress.running = 0 then .markCompleted else .ending .processed)
  | .markCompleted, .processDeployment =>
    (db.updateStatus t (fun _ => true) .completed).map (·, .ending .processed)
  | .claimRow status late, .processDevice device batchNumber => claimRow t device batchNumber answer status late db
  | .claimed status late, .processDevice device _ => afterClaim config t device answer status late db
  | .execute _, .processDevice _ _ => some (db, .record answer)
  | .selectSkipped, .cancelDeployment => some (db, .skipPending (db.pendingDevices targets t))
  | .skipPending rest, .cancelDeployment => skipRow t db rest
  | .ending (.claimed late), .processDevice _ _ => some (db.commit t (.claimed late), .execute late)
  | .ending ending, _ => some (db.commit t ending, .finished)
  | stage, .processDevice device _ => recordOutcome targets config t device db stage
  | _, _ => none

def deploymentAct (t : ℕ) (signal : Signal) (db : DeploymentDb κ) (p : DeploymentProc κ) :
    Option (DeploymentDb κ × DeploymentProc κ) :=
  match signal with
  | .exec answer => (execStage targets config t answer db p).map fun next => (next.1, { p with stage := next.2 })
  | .rollback => some (db.rollback t, { p with stage := .finished })

end Statements

abbrev DeploymentWorld (κ : Type*) := World ℕ (DeploymentDb κ) (DeploymentProc κ)

namespace Stage
variable {κ : Type*}

def Marked : Stage κ → Prop
  | .selectPending | .countProgress | .markCompleted | .ending .processed => True
  | _ => False

/-- The row that the device job holds is about to become running or pending. -/
def Moving : Stage κ → Prop
  | .claimed _ _ | .ending (.claimed _) | .ending .retried => True
  | _ => False

def Cancelling : Stage κ → Prop
  | .selectSkipped | .skipPending _ | .ending .cancelled => True
  | _ => False

def Claimed : Stage κ → Prop
  | .claimed _ _ => True
  | _ => False

/-- A device job that read the deployment after the cancel has read that it is cancelled, and does not come to its
payload. -/
def Informed : Stage κ → Prop
  | .claimRow status late | .claimed status late => late = true → status = .cancelled
  | .ending (.claimed late) | .execute late => late = false
  | _ => True

/-- The commit that comes next undoes a cancel: of a deployment job that has written its status, of a device job that
has claimed its row for its payload, or of one that has put its row back for a retry. -/
def Undoes : Stage κ → Prop
  | .ending .processed | .ending (.claimed _) | .ending .retried => True
  | _ => False

instance decidableUndoes : (stage : Stage κ) → Decidable stage.Undoes
  | .ending .processed | .ending (.claimed _) | .ending .retried => .isTrue trivial
  | .ending .settled | .ending .cancelled | .start | .markRunning | .selectPending | .countProgress | .markCompleted
  | .claimRow _ _ | .claimed _ _ | .execute _ | .record _ | .updateRetry _ | .markFailed | .checkPause | .markPaused
  | .selectSkipped | .skipPending _ | .finished => .isFalse id

end Stage

section Statements
variable {κ : Type*} {t u : ℕ} {db next : DeploymentDb κ} {targets : List κ} {config : RolloutConfig} {stage : Stage κ}
  {device : κ} {p : DeploymentProc κ}
variable {guard : DeploymentStatus → Bool} {status : DeploymentStatus} {change : DeploymentDevice → DeploymentDevice}
    {late answer : Bool} {d : κ} {b : ℕ} {before : Stage κ}

/-- What other transactions hold stays as it is. -/
structure Apart (t : ℕ) (db next : DeploymentDb κ) : Prop where
  status : ∀ u ≠ t, db.status.Kept u next.status
  rows : ∀ u ≠ t, ∀ k, (db.devices k).Undisturbed u (next.devices k)

structure Statement (t : ℕ) (db next : DeploymentDb κ) : Prop extends Apart t db next where
  committed : next.status.committed = db.status.committed
  devices : ∀ k, (next.devices k).committed = (db.devices k).committed
  cancelled : next.cancelled = db.cancelled

theorem Statement.refl : Statement t db db where
  status := fun _ _ => Row.Kept.refl
  rows := fun _ _ _ => ⟨Row.Kept.refl, fun _ _ => rfl⟩
  committed := rfl
  devices := fun _ => rfl
  cancelled := rfl

theorem updateStatus_cases (updated : db.updateStatus t guard status = some next) :
    (guard (db.status.read t) = false ∧ next = db) ∨ guard (db.status.read t) = true ∧ db.status.Free t ∧
      next = { db with status := db.status.write t status } := by
  unfold DeploymentDb.updateStatus at updated
  split_ifs at updated with applies free
  · exact .inr ⟨applies, free, (Option.some.inj updated).symm⟩
  · exact .inl ⟨Bool.not_eq_true _ ▸ applies, (Option.some.inj updated).symm⟩

theorem Statement.writeStatus (free : db.status.Free t) (status : DeploymentStatus) :
    Statement t db { db with status := db.status.write t status } where
  status := fun _ other => kept_write other free status
  rows := fun _ _ _ => ⟨Row.Kept.refl, fun _ _ => rfl⟩
  committed := rfl
  devices := fun _ => rfl
  cancelled := rfl

theorem Statement.updateStatus (updated : db.updateStatus t guard status = some next) : Statement t db next := by
  rcases updateStatus_cases updated with ⟨-, rfl⟩ | ⟨-, free, rfl⟩
  · exact .refl
  · exact .writeStatus free status

theorem apart_commit (ending : Ending) : Apart t db (db.commit t ending) where
  status := fun _ other => kept_commit other
  rows := fun _ other _ => undisturbed_commit other

theorem apart_rollback : Apart t db (db.rollback t) where
  status := fun _ other => kept_rollback other
  rows := fun _ other _ => ⟨kept_rollback other, fun _ _ => rfl⟩

theorem begin_cases {call : DeploymentCall κ} (ran : begin t db call = some (next, stage)) : Statement t db next := by
  cases call with
  | processDeployment | processDevice => cases ran; exact .refl
  | pauseDeployment | resumeDeployment | cancelDeployment =>
    obtain ⟨_, updated, same⟩ := map_eq_some_iff.mp ran
    cases same
    exact .updateStatus updated

variable [DecidableEq κ]

theorem Statement.writeDevice {device : κ} (free : (db.devices device).Free t) (row : DeploymentDevice) :
    Statement t db { db with devices := db.devices.write t device row } where
  status := fun _ _ => Row.Kept.refl
  rows := fun _ other k => ⟨Table.kept_write other free row k, fun _ _ => Table.committed_write ..⟩
  committed := rfl
  devices := fun _ => Table.committed_write ..
  cancelled := rfl

theorem updateDevice_cases {device : κ} (updated : db.updateDevice t device change = some next) :
    (db.devices device).Free t ∧
      next = { db with devices := db.devices.write t device (change ((db.devices device).read t)) } := by
  unfold DeploymentDb.updateDevice at updated
  split_ifs at updated with free
  exact ⟨free, (Option.some.inj updated).symm⟩

theorem Statement.updateDevice {device : κ} (updated : db.updateDevice t device change = some next) :
    Statement t db next := by
  obtain ⟨free, rfl⟩ := updateDevice_cases updated
  exact .writeDevice free _

theorem claimRow_cases {batchNumber : ℕ} {inOrg : Bool}
    (ran : claimRow t device batchNumber inOrg status late db = some (next, stage)) :
    (next = db ∧ stage = .finished) ∨
    ((db.devices device).Free t ∧ ((db.devices device).read t).status = .pending ∧ stage = .claimed status late ∧
      next = { db with
        devices := db.devices.write t device (((db.devices device).read t).withStatus .running) }) := by
  unfold claimRow at ran
  cases claimed : ((db.devices device).read t).claim batchNumber inOrg with
  | none =>
    rw [claimed] at ran
    cases ran
    exact .inl ⟨rfl, rfl⟩
  | some row =>
    simp only [claimed] at ran
    split_ifs at ran with free
    cases ran
    obtain ⟨pending, rfl⟩ := DeploymentDevice.claim_eq_some claimed
    exact .inr ⟨free, pending, rfl, rfl⟩

theorem afterClaim_cases {inMaintenance : Bool}
    (ran : afterClaim config t device inMaintenance status late db = some (next, stage)) :
    (stage = .ending .settled ∧ ∃ given : DeviceStatus, (given = .skipped ∨ given = .pending) ∧
      db.updateDevice t device (·.withStatus given) = some next) ∨
    (next = db ∧ ¬status.Stopped ∧ stage = .ending (.claimed late)) := by
  unfold afterClaim at ran
  split_ifs at ran with stopped window
  · obtain ⟨_, updated, same⟩ := map_eq_some_iff.mp ran
    cases same
    exact .inl ⟨rfl, .skipped, .inl rfl, updated⟩
  · obtain ⟨_, updated, same⟩ := map_eq_some_iff.mp ran
    cases same
    exact .inl ⟨rfl, .pending, .inr rfl, updated⟩
  · cases ran
    exact .inr ⟨rfl, stopped, rfl⟩

/-- A version of the status that a transaction holds comes from the deployment job or a cancel, or from before the
cancel; a version of a row is finished, as committed, or about to move; a device job holds no row but its own. -/
structure Local (db : DeploymentDb κ) (t : ℕ) (p : DeploymentProc κ) : Prop where
  status : ∀ v, db.status.held = some (t, v) → p.stage.Marked ∨ v = .cancelled ∨ db.cancelled = false
  rows : ∀ k v, (db.devices k).held = some (t, v) →
    v.Finished ∨ v.status = (db.devices k).committed.status ∨ p.stage.Moving
  own : ∀ k v d b, (db.devices k).held = some (t, v) → p.call = .processDevice d b → k = d
  informed : p.stage.Informed
  cancelling : p.stage.Cancelling → db.status.held = some (t, .cancelled)
  claimed : p.stage.Claimed → ∀ d b, p.call = .processDevice d b →
    (db.devices d).committed.status = .pending ∧ ∃ v, (db.devices d).held = some (t, v)

omit [DecidableEq κ] in
theorem Local.frame (known : Local db u p) (other : u ≠ t) (apart : Apart t db next)
    (flag : next.cancelled = true → db.cancelled = true ∨ ∀ v, db.status.held ≠ some (u, v)) : Local next u p where
  status := by
    intro v held
    have before := (apart.status u other v).mp held
    rcases known.status v before with marked | same | early
    · exact .inl marked
    · exact .inr (.inl same)
    · right; right
      cases now : next.cancelled with
      | false => rfl
      | true =>
        rcases flag now with yes | free
        · rw [yes] at early
          cases early
        · exact absurd before (free v)
  rows := by
    intro k v held
    have undisturbed := apart.rows u other k
    have before := (undisturbed.kept v).mp held
    rw [undisturbed.committed v before]
    exact known.rows k v before
  own := fun k v d b held => known.own k v d b (((apart.rows u other k).kept v).mp held)
  informed := known.informed
  cancelling := fun stage => (apart.status u other _).mpr (known.cancelling stage)
  claimed := by
    intro stage d b call
    obtain ⟨pending, v, held⟩ := known.claimed stage d b call
    have undisturbed := apart.rows u other d
    rw [undisturbed.committed v held]
    exact ⟨pending, v, (undisturbed.kept v).mpr held⟩

omit [DecidableEq κ] in
theorem Local.restage (known : Local db t p) (marked : p.stage.Marked → stage.Marked)
    (moving : p.stage.Moving → stage.Moving) (informed : stage.Informed)
    (cancelling : stage.Cancelling → p.stage.Cancelling) (claimed : ¬stage.Claimed) : Local db t ⟨p.call, stage⟩ where
  status := fun v held => (known.status v held).imp_left marked
  rows := fun k v held => (known.rows k v held).imp_right fun rest => rest.imp_right moving
  own := known.own
  informed := informed
  cancelling := fun yes => known.cancelling (cancelling yes)
  claimed := fun yes => absurd yes claimed

omit [DecidableEq κ] in
theorem Local.writeStatus (known : Local db t p) (status : DeploymentStatus)
    (allowed : stage.Marked ∨ status = .cancelled ∨ db.cancelled = false) (moving : p.stage.Moving → stage.Moving)
    (informed : stage.Informed) (cancelling : stage.Cancelling → status = .cancelled) (claimed : ¬stage.Claimed) :
    Local { db with status := db.status.write t status } t ⟨p.call, stage⟩ where
  status := by
    intro v held
    obtain ⟨-, rfl⟩ := Prod.mk.inj (Option.some.inj held)
    exact allowed
  rows := fun k v held => (known.rows k v held).imp_right fun rest => rest.imp_right moving
  own := known.own
  informed := informed
  cancelling := fun yes => congrArg (fun v => some (t, v)) (cancelling yes)
  claimed := fun yes => absurd yes claimed

theorem Local.writeDevice (known : Local db t p) (row : DeploymentDevice)
    (allowed : row.Finished ∨ row.status = (db.devices device).committed.status ∨ stage.Moving)
    (alone : ∀ k v, k ≠ device → (db.devices k).held = some (t, v) → ¬p.stage.Moving)
    (owned : ∀ d b, p.call = .processDevice d b → device = d) (marked : p.stage.Marked → stage.Marked)
    (informed : stage.Informed) (cancelling : stage.Cancelling → p.stage.Cancelling)
    (claimed : stage.Claimed → (db.devices device).committed.status = .pending) :
    Local { db with devices := db.devices.write t device row } t ⟨p.call, stage⟩ where
  status := fun v held => (known.status v held).imp_left marked
  rows := by
    intro k v held
    simp only [Table.committed_write]
    by_cases here : k = device
    · subst here
      simp only [Table.write_self, held_write] at held
      obtain ⟨-, rfl⟩ := Prod.mk.inj (Option.some.inj held)
      exact allowed
    · simp only [Table.write_of_ne here] at held
      rcases known.rows k v held with finished | same | moving
      · exact .inl finished
      · exact .inr (.inl same)
      · exact absurd moving (alone k v here held)
  own := by
    intro k v d b held call
    rcases Table.held_write held with before | ⟨here, -⟩
    · exact known.own k v d b before call
    · exact here.trans (owned d b call)
  informed := informed
  cancelling := fun yes => known.cancelling (cancelling yes)
  claimed := by
    intro yes d b call
    obtain rfl := owned d b call
    refine ⟨?_, row, ?_⟩
    · exact (congrArg DeploymentDevice.status (Table.committed_write ..)).trans (claimed yes)
    · simp only [Table.write_self, held_write]

omit [DecidableEq κ] in
theorem Local.ended (status : ∀ v, next.status.held ≠ some (t, v)) (rows : ∀ k v, (next.devices k).held ≠ some (t, v))
    (informed : stage.Informed) (cancelling : ¬stage.Cancelling) (claimed : ¬stage.Claimed) :
    Local next t ⟨p.call, stage⟩ where
  status := fun v held => absurd held (status v)
  rows := fun k v held => absurd held (rows k v)
  own := fun k v _ _ held => absurd held (rows k v)
  informed := informed
  cancelling := fun yes => absurd yes cancelling
  claimed := fun yes => absurd yes claimed

omit [DecidableEq κ] in
theorem Local.read_status (known : Local db t p) (unmarked : ¬p.stage.Marked)
    (stays : db.cancelled = true → db.status.committed = .cancelled) (cancelled : db.cancelled = true) :
    db.status.read t = .cancelled := by
  refine read_rule (P := fun v : DeploymentStatus => v = .cancelled) (stays cancelled) fun v held => ?_
  rcases known.status v held with marked | same | early
  · exact absurd marked unmarked
  · exact same
  · rw [cancelled] at early
    cases early

omit [DecidableEq κ] in
theorem Local.updateStatus (known : Local db t p) (unmarked : ¬p.stage.Marked)
    (stays : db.cancelled = true → db.status.committed = .cancelled)
    (guarded : guard .cancelled = false) (updated : db.updateStatus t guard status = some next)
    (moving : ¬p.stage.Moving) : Local next t ⟨p.call, .ending .settled⟩ := by
  rcases updateStatus_cases updated with ⟨-, rfl⟩ | ⟨applies, free, rfl⟩
  · exact known.restage (fun yes => absurd yes unmarked) (fun yes => absurd yes moving) trivial False.elim id
  · refine known.writeStatus status (.inr (.inr ?_)) (fun yes => absurd yes moving) trivial False.elim id
    cases cancelled : db.cancelled with
    | false => rfl
    | true =>
      rw [known.read_status unmarked stays cancelled, guarded] at applies
      cases applies

omit [DecidableEq κ] in
theorem Local.begin (known : Local db t ⟨p.call, .start⟩)
    (stays : db.cancelled = true → db.status.committed = .cancelled)
    (ran : begin t db p.call = some (next, stage)) : Local next t ⟨p.call, stage⟩ := by
  cases call : p.call with
  | processDeployment =>
    rw [call] at ran known
    cases ran
    split_ifs <;> exact known.restage False.elim False.elim trivial False.elim id
  | processDevice d b =>
    rw [call] at ran known
    cases ran
    split_ifs
    · exact known.restage False.elim False.elim (known.read_status id stays) False.elim id
    · exact known.restage False.elim False.elim trivial False.elim id
  | pauseDeployment | resumeDeployment =>
    rw [call] at ran known
    obtain ⟨_, updated, same⟩ := map_eq_some_iff.mp ran
    cases same
    exact known.updateStatus id stays rfl updated id
  | cancelDeployment =>
    rw [call] at ran known
    obtain ⟨_, updated, same⟩ := map_eq_some_iff.mp ran
    cases same
    rcases updateStatus_cases updated with ⟨never, -⟩ | ⟨-, free, rfl⟩
    · cases never
    · exact known.writeStatus .cancelled (.inr (.inl rfl)) False.elim trivial (fun _ => rfl) id

theorem Local.claimRow {inOrg : Bool} (known : Local db t ⟨.processDevice d b, .claimRow status late⟩)
    (ran : claimRow t d b inOrg status late db = some (next, stage)) : Local next t ⟨.processDevice d b, stage⟩ := by
  rcases claimRow_cases ran with ⟨rfl, rfl⟩ | ⟨free, pending, rfl, rfl⟩
  · exact known.restage False.elim False.elim trivial False.elim id
  · refine known.writeDevice _ (.inr (.inr trivial)) (fun _ _ _ _ => id) ?_ False.elim known.informed False.elim ?_
    · rintro _ _ ⟨⟩
      rfl
    · intro _
      refine read_rule (P := fun row : DeploymentDevice => row.status = .pending →
        (db.devices d).committed.status = .pending)
        id (fun v held waiting => ?_) pending
      rcases known.rows d v held with finished | same | moving
      · exact absurd waiting (v.finished_iff.mp finished).1
      · exact same.symm.trans waiting
      · exact moving.elim

theorem Local.updateDevice (known : Local db t ⟨.processDevice d b, before⟩)
    (updated : db.updateDevice t d change = some next)
    (allowed : ∀ row, (change row).Finished ∨ (change row).status = (db.devices d).committed.status ∨ stage.Moving)
    (marked : before.Marked → stage.Marked) (informed : stage.Informed) (cancelling : ¬stage.Cancelling)
    (claimed : ¬stage.Claimed) : Local next t ⟨.processDevice d b, stage⟩ := by
  obtain ⟨free, rfl⟩ := updateDevice_cases updated
  refine known.writeDevice _ (allowed _) ?_ ?_ marked informed (absurd · cancelling) (absurd · claimed)
  · exact fun k v elsewhere held _ => elsewhere (known.own k v d b held rfl)
  · rintro _ _ ⟨⟩
    rfl

theorem Local.afterClaim {inMaintenance : Bool} (known : Local db t ⟨.processDevice d b, .claimed status late⟩)
    (ran : afterClaim config t d inMaintenance status late db = some (next, stage)) :
    Local next t ⟨.processDevice d b, stage⟩ := by
  rcases afterClaim_cases ran with ⟨rfl, given, which, updated⟩ | ⟨rfl, going, rfl⟩
  · refine known.updateDevice updated (fun row => ?_) False.elim trivial id id
    rcases which with rfl | rfl
    · exact .inl (.inr (.inr rfl))
    · exact .inr (.inl (known.claimed trivial d b rfl).1.symm)
  · refine known.restage False.elim (fun _ => trivial) ?_ False.elim id
    cases late with
    | false => exact rfl
    | true => exact absurd (.inr (known.informed rfl)) going

theorem Local.recordOutcome (known : Local db t ⟨.processDevice d b, before⟩)
    (stays : db.cancelled = true → db.status.committed = .cancelled)
    (ran : recordOutcome targets config t d db before = some (next, stage)) :
    Local next t ⟨.processDevice d b, stage⟩ := by
  cases before with
  | record success =>
    cases success with
    | true =>
      obtain ⟨_, updated, same⟩ := map_eq_some_iff.mp ran
      cases same
      exact known.updateDevice updated (fun _ => .inl (.inl rfl)) False.elim trivial id id
    | false =>
      cases ran
      split_ifs <;> exact known.restage False.elim False.elim trivial False.elim id
  | updateRetry retryCount =>
    obtain ⟨_, updated, same⟩ := map_eq_some_iff.mp ran
    cases same
    exact known.updateDevice updated (fun _ => .inr (.inr trivial)) False.elim trivial id id
  | markFailed =>
    obtain ⟨_, updated, same⟩ := map_eq_some_iff.mp ran
    cases same
    exact known.updateDevice updated (fun _ => .inl (.inr (.inl rfl))) False.elim trivial id id
  | checkPause =>
    cases ran
    split_ifs <;> exact known.restage False.elim False.elim trivial False.elim id
  | markPaused =>
    obtain ⟨_, updated, same⟩ := map_eq_some_iff.mp ran
    cases same
    exact known.updateStatus id stays rfl updated id
  | _ => cases ran

theorem Local.skipRow {rest : List κ} (known : Local db t ⟨.cancelDeployment, .skipPending rest⟩)
    (ran : skipRow t db rest = some (next, stage)) : Local next t ⟨.cancelDeployment, stage⟩ := by
  cases rest with
  | nil =>
    cases ran
    exact known.restage False.elim False.elim trivial id id
  | cons k rest =>
    simp only [RemudaRmm.Deployments.skipRow] at ran
    split_ifs at ran with free pending
    · cases ran
      exact known.writeDevice _ (.inl (.inr (.inr rfl))) (fun _ _ _ _ => id)
        (fun _ _ found => by cases found) False.elim trivial
        (fun _ => trivial) False.elim
    · cases ran
      exact known.restage False.elim False.elim trivial (fun _ => trivial) id

theorem statement_recordOutcome (ran : recordOutcome targets config t device db before = some (next, stage)) :
    Statement t db next := by
  cases before with
  | record success =>
    cases success with
    | true =>
      obtain ⟨_, updated, same⟩ := map_eq_some_iff.mp ran
      cases same
      exact .updateDevice updated
    | false =>
      cases ran
      exact .refl
  | updateRetry _ | markFailed =>
    obtain ⟨_, updated, same⟩ := map_eq_some_iff.mp ran
    cases same
    exact .updateDevice updated
  | markPaused =>
    obtain ⟨_, updated, same⟩ := map_eq_some_iff.mp ran
    cases same
    exact .updateStatus updated
  | checkPause =>
    cases ran
    exact .refl
  | _ => cases ran

theorem statement_skipRow {rest : List κ} (ran : skipRow t db rest = some (next, stage)) : Statement t db next := by
  cases rest with
  | nil => cases ran; exact .refl
  | cons k rest =>
    simp only [skipRow] at ran
    split_ifs at ran with free pending
    · cases ran
      exact .writeDevice free _
    · cases ran
      exact .refl

theorem exec_processDevice (known : Local db t ⟨.processDevice d b, before⟩)
    (stays : db.cancelled = true → db.status.committed = .cancelled)
    (begun : before ≠ .start) (unended : ∀ ending, before ≠ .ending ending)
    (ran : execStage targets config t answer db ⟨.processDevice d b, before⟩ = some (next, stage)) :
    Statement t db next ∧ Local next t ⟨.processDevice d b, stage⟩ := by
  cases before with
  | start => exact absurd rfl begun
  | ending ending => exact absurd rfl (unended ending)
  | claimRow status late =>
    refine ⟨?_, known.claimRow ran⟩
    rcases claimRow_cases ran with ⟨rfl, -⟩ | ⟨free, -, -, rfl⟩
    · exact .refl
    · exact .writeDevice free _
  | claimed status late =>
    refine ⟨?_, known.afterClaim ran⟩
    rcases afterClaim_cases ran with ⟨-, _, -, updated⟩ | ⟨rfl, -⟩
    · exact .updateDevice updated
    · exact .refl
  | execute late =>
    cases ran
    exact ⟨.refl, known.restage False.elim False.elim trivial False.elim id⟩
  | _ =>
    simp only [execStage] at ran
    exact ⟨statement_recordOutcome ran, known.recordOutcome stays ran⟩

theorem exec_processDeployment (known : Local db t ⟨.processDeployment, before⟩)
    (begun : before ≠ .start) (unended : ∀ ending, before ≠ .ending ending)
    (ran : execStage targets config t answer db ⟨.processDeployment, before⟩ = some (next, stage)) :
    Statement t db next ∧ Local next t ⟨.processDeployment, stage⟩ := by
  cases before with
  | start => exact absurd rfl begun
  | ending ending => exact absurd rfl (unended ending)
  | markRunning | markCompleted =>
    obtain ⟨_, updated, same⟩ := map_eq_some_iff.mp ran
    cases same
    refine ⟨.updateStatus updated, ?_⟩
    rcases updateStatus_cases updated with ⟨never, -⟩ | ⟨-, free, rfl⟩
    · cases never
    · exact known.writeStatus _ (.inl trivial) False.elim trivial False.elim id
  | selectPending | countProgress =>
    cases ran
    refine ⟨.refl, ?_⟩
    split_ifs <;> exact known.restage (fun _ => trivial) False.elim trivial False.elim id
  | _ => cases ran

theorem exec_cancelDeployment (known : Local db t ⟨.cancelDeployment, before⟩)
    (begun : before ≠ .start) (unended : ∀ ending, before ≠ .ending ending)
    (ran : execStage targets config t answer db ⟨.cancelDeployment, before⟩ = some (next, stage)) :
    Statement t db next ∧ Local next t ⟨.cancelDeployment, stage⟩ := by
  cases before with
  | start => exact absurd rfl begun
  | ending ending => exact absurd rfl (unended ending)
  | selectSkipped =>
    cases ran
    exact ⟨.refl, known.restage False.elim False.elim trivial (fun _ => trivial) id⟩
  | skipPending rest => exact ⟨statement_skipRow ran, known.skipRow ran⟩
  | _ => cases ran

theorem execStage_cases (known : Local db t p) (stays : db.cancelled = true → db.status.committed = .cancelled)
    (ran : execStage targets config t answer db p = some (next, stage)) :
    (Statement t db next ∧ Local next t ⟨p.call, stage⟩) ∨
    ∃ ending, p.stage = .ending ending ∧ next = db.commit t ending ∧
      (stage = .finished ∨ ∃ late, ending = .claimed late ∧ stage = .execute late) := by
  obtain ⟨call, before⟩ := p
  by_cases begun : before = .start
  · subst begun
    exact .inl ⟨begin_cases ran, known.begin stays ran⟩
  · by_cases ended : ∃ ending, before = .ending ending
    · obtain ⟨ending, rfl⟩ := ended
      refine .inr ⟨ending, rfl, ?_⟩
      cases ending with
      | claimed late =>
        cases call with
        | processDevice d b =>
          cases ran
          exact ⟨rfl, .inr ⟨late, rfl, rfl⟩⟩
        | _ => cases ran; exact ⟨rfl, .inl rfl⟩
      | _ => cases call <;> (cases ran; exact ⟨rfl, .inl rfl⟩)
    · have unended : ∀ ending, before ≠ .ending ending := fun ending same => ended ⟨ending, same⟩
      left
      cases call with
      | processDeployment => exact exec_processDeployment known begun unended ran
      | processDevice d b => exact exec_processDevice known stays begun unended ran
      | cancelDeployment => exact exec_cancelDeployment known begun unended ran
      | pauseDeployment | resumeDeployment =>
        cases before with
        | start => exact absurd rfl begun
        | ending ending => exact absurd rfl (unended ending)
        | _ => cases ran

end Statements

section Runs
variable {κ : Type*} [DecidableEq κ] (targets : List κ) (config : RolloutConfig)

abbrev deploymentStep : DeploymentWorld κ → ℕ × Signal → Option (DeploymentWorld κ) :=
  World.step (deploymentAct targets config)

def newDeployment (status : DeploymentStatus) (devices : κ → DeploymentDevice) (calls : ℕ → DeploymentCall κ) :
    DeploymentWorld κ where
  db := ⟨Row.unheld status, fun k => Row.unheld (devices k), false⟩
  proc := fun t => ⟨calls t, .start⟩

/-- After the cancel has committed: the status is 'cancelled', no row has become pending or running, and no payload runs
for a device job that read the deployment after the cancel. -/
structure StaysCancelled (w next : DeploymentWorld κ) : Prop where
  status : next.db.status.committed = .cancelled
  rows : w.db.cancelled = true → ∀ k, (next.db.devices k).committed.status ≠ (w.db.devices k).committed.status →
    (next.db.devices k).committed.status ≠ .pending ∧ (next.db.devices k).committed.status ≠ .running
  payload : ∀ t, (next.proc t).stage ≠ .execute true

def Heeds (w : DeploymentWorld κ) (e : ℕ × Signal) : Prop :=
  w.db.cancelled = true → e.2 ≠ .rollback → ¬(w.proc e.1).stage.Undoes
  deriving Decidable

structure DeploymentLaw (w : DeploymentWorld κ) : Prop where
  stays : w.db.cancelled = true → w.db.status.committed = .cancelled
  known : ∀ t, Local w.db t (w.proc t)

variable {targets config} {w next : DeploymentWorld κ} {e : ℕ × Signal}

omit [DecidableEq κ] in
theorem law_new (status : DeploymentStatus) (devices : κ → DeploymentDevice) (calls : ℕ → DeploymentCall κ) :
    DeploymentLaw (newDeployment status devices calls) where
  stays := nofun
  known := fun _ => Local.ended (p := ⟨_, .start⟩) (fun _ => nofun) (fun _ _ => nofun) trivial id id

omit [DecidableEq κ] in
theorem DeploymentLaw.status_commit (law : DeploymentLaw w) {t : ℕ} {ending : Ending}
    (stage : (w.proc t).stage = .ending ending) (heeded : w.db.cancelled = true → ¬(w.proc t).stage.Undoes)
    (cancelled : (w.db.commit t ending).cancelled = true) : (w.db.commit t ending).status.committed = .cancelled := by
  by_cases before : w.db.cancelled = true
  · refine (law.known t).read_status ?_ law.stays before
    have kept := heeded before
    rw [stage] at kept ⊢
    cases ending with
    | processed => exact absurd trivial kept
    | _ => exact id
  · have last : ending = .cancelled := by
      rcases Bool.or_eq_true_iff.mp cancelled with earlier | now
      · exact absurd earlier before
      · exact of_decide_eq_true now
    exact read_of_held ((law.known t).cancelling (by rw [stage, last]; trivial))

theorem DeploymentLaw.step (law : DeploymentLaw w) (heeds : Heeds w e)
    (stepped : deploymentStep targets config w e = some next) : DeploymentLaw next := by
  obtain ⟨t, signal⟩ := e
  obtain ⟨db, p, acted, rfl⟩ := World.step_eq_some stepped
  -- what the other transactions know stands; what this one knows is given
  have together : (db.cancelled = true → db.status.committed = .cancelled) → Apart t w.db db → Local db t p →
      (db.cancelled = true → w.db.cancelled = true ∨ ∀ u ≠ t, ∀ v, w.db.status.held ≠ some (u, v)) →
      DeploymentLaw ⟨db, update w.proc t p⟩ := by
    intro stays apart own flag
    refine ⟨stays, fun u => ?_⟩
    by_cases same : u = t
    · subst same
      simp only [update_self]
      exact own
    · simp only [update_of_ne same]
      exact (law.known u).frame same apart fun yes => (flag yes).imp_right fun free => free u same
  cases signal with
  | rollback =>
    cases acted
    refine together law.stays apart_rollback ?_ .inl
    exact Local.ended (not_held_rollback t · _) (fun k => (not_held_rollback t · _)) trivial id id
  | exec answer =>
    obtain ⟨⟨db', stage⟩, ran, made⟩ := map_eq_some_iff.mp acted
    cases made
    rcases execStage_cases (law.known t) law.stays ran with ⟨statement, own⟩ | ⟨ending, stage, rfl, after⟩
    · refine together ?_ statement.toApart own fun yes => .inl (statement.cancelled ▸ yes)
      rw [statement.cancelled, statement.committed]
      exact law.stays
    · have heeded : w.db.cancelled = true → ¬(w.proc t).stage.Undoes := fun yes => heeds yes nofun
      refine together (law.status_commit stage heeded) (apart_commit ending) ?_ ?_
      · have known := (law.known t).informed
        rw [stage] at known
        refine Local.ended (not_held_commit t · _) (fun k => (not_held_commit t · _)) ?_ ?_ ?_
        · rcases after with rfl | ⟨late, rfl, rfl⟩
          · trivial
          · exact known
        · rcases after with rfl | ⟨late, rfl, rfl⟩ <;> exact id
        · rcases after with rfl | ⟨late, rfl, rfl⟩ <;> exact id
      · intro yes
        rcases Bool.or_eq_true_iff.mp yes with earlier | now
        · exact .inl earlier
        · right
          intro u other v held
          have mine := (law.known t).cancelling (by rw [stage, of_decide_eq_true now]; trivial)
          exact other (Prod.mk.inj (Option.some.inj (held.symm.trans mine))).1

theorem DeploymentLaw.rows_step (law : DeploymentLaw w) (heeds : Heeds w e)
    (stepped : deploymentStep targets config w e = some next) (cancelled : w.db.cancelled = true) (k : κ)
    (changed : (next.db.devices k).committed.status ≠ (w.db.devices k).committed.status) :
    (next.db.devices k).committed.Finished := by
  obtain ⟨t, signal⟩ := e
  obtain ⟨db, p, acted, rfl⟩ := World.step_eq_some stepped
  cases signal with
  | rollback =>
    cases acted
    exact absurd rfl changed
  | exec answer =>
    obtain ⟨⟨db', stage⟩, ran, made⟩ := map_eq_some_iff.mp acted
    cases made
    rcases execStage_cases (law.known t) law.stays ran with ⟨statement, -⟩ | ⟨ending, stage, rfl, -⟩
    · exact absurd (congrArg DeploymentDevice.status (statement.devices k)) changed
    · have heeded := heeds cancelled nofun
      simp only [stage] at heeded
      revert changed
      refine read_rule (P := fun row : DeploymentDevice =>
        row.status ≠ (w.db.devices k).committed.status → row.Finished) (absurd rfl) fun v held changed => ?_
      rcases (law.known t).rows k v held with finished | same | moving
      · exact finished
      · exact absurd same changed
      · rw [stage] at moving
        cases ending with
        | claimed _ | retried => exact absurd trivial heeded
        | _ => exact moving.elim

/-- In a run in which every commit after the cancel heeds it, the deployment stays cancelled. -/
theorem cancelled_deployment_stays (targets : List κ) (config : RolloutConfig) (status : DeploymentStatus)
    (devices : κ → DeploymentDevice) (calls : ℕ → DeploymentCall κ) (es : List (ℕ × Signal))
    (heeded : Meets (deploymentStep targets config) Heeds (newDeployment status devices calls) es) :
    Meets (deploymentStep targets config) (fun w e => ∀ next, deploymentStep targets config w e = some next →
      next.db.cancelled = true → StaysCancelled w next) (newDeployment status devices calls) es := by
  refine Meets.under (fun w e next law heeds => law.step heeds) ?_ (law_new status devices calls) heeded
  intro w e law heeds next stepped cancelled
  have after := law.step heeds stepped
  refine ⟨after.stays cancelled, fun before k changed => ?_, fun t running => ?_⟩
  · exact (DeploymentDevice.finished_iff _).mp (law.rows_step heeds stepped before k changed)
  · have informed := (after.known t).informed
    rw [running] at informed
    cases informed

end Runs

/-- One device, with three retries, in a deployment without windows. -/
def sampleConfig : RolloutConfig := ⟨none, false⟩

def sampleWorld : DeploymentWorld ℕ :=
  newDeployment .running (fun _ => ⟨1, .pending, 0, 3⟩) fun t =>
    match t with
    | 0 => .processDeployment
    | 2 => .cancelDeployment
    | _ => .processDevice 0 1

def execs (t : ℕ) (answers : List Bool) : List (ℕ × Signal) := answers.map fun answer => (t, .exec answer)

/-- A payload is under way and the deployment job has read the status when the cancel runs and commits; then the
deployment job writes 'running', the payload fails and is put back for a retry, and a second device job runs it. -/
def undoingRun : List (ℕ × Signal) :=
  execs 1 [true, true, true, true] ++ execs 0 [true] ++ execs 2 [true, true, true, true] ++
    execs 0 [true, true, true, true] ++ execs 1 [false, false, true, true] ++ execs 3 [true, true, true, true]

theorem cancelled_deployment_runs_again :
    ∃ next, run (deploymentStep [0] sampleConfig) sampleWorld undoingRun = some next ∧ next.db.cancelled = true ∧
      next.db.status.committed = .running ∧ (next.db.devices 0).committed.status = .running ∧
      (next.proc 3).stage = .execute true :=
  ⟨_, rfl, by decide, by decide, by decide, rfl⟩

/-- The payload that is under way at the cancel succeeds, and a device job that comes later finds nothing to claim. -/
def heedingRun : List (ℕ × Signal) :=
  execs 1 [true, true, true, true] ++ execs 2 [true, true, true, true] ++ execs 1 [true, true, true, true] ++
    execs 0 [true] ++ execs 3 [true, true]

theorem heeded_cancel_stays :
    (∃ next, run (deploymentStep [0] sampleConfig) sampleWorld heedingRun = some next ∧ next.db.cancelled = true) ∧
    Meets (deploymentStep [0] sampleConfig) (fun w e => ∀ next, deploymentStep [0] sampleConfig w e = some next →
      next.db.cancelled = true → StaysCancelled w next) sampleWorld heedingRun :=
  ⟨⟨_, rfl, by decide⟩, cancelled_deployment_stays [0] sampleConfig .running _ _ heedingRun (by decide)⟩

end RemudaRmm.Deployments
