import RemudaRmm.Recovery.DrExecution

/-! One disaster-recovery execution under READ COMMITTED, a statement at a time: reconciles, one after the other, the
results of its commands and aborts. A reconcile is one transaction, which inserts the commands it queues; a result is
stored at once, and `handleDrCommandResult` after it is a transaction. -/
namespace RemudaRmm.Recovery
open Foundation List Option Function
open Agents (CommandStatus ResultStatus)

/-- A row of `device_commands`; `late` when it was queued by a reconcile that began after the execution had ended. -/
structure DrCommand (γ κ : Type*) where
  groupId : γ
  deviceId : κ
  status : CommandStatus
  late : Bool

def DrCommand.Open {γ κ : Type*} (c : DrCommand γ κ) : Prop := c.status = .pending ∨ c.status = .sent
  deriving Decidable

inductive DrProcess where
  | reconcile
  | request (n : ℕ)
  deriving DecidableEq

/-- `ended` once the execution has been completed, failed or aborted. -/
structure DrDb (γ κ : Type*) where
  execution : Row DrProcess (DrExecution γ κ)
  commands : Table ℕ DrProcess (Option (DrCommand γ κ))
  nextCommand : ℕ
  ended : Bool

inductive DrStage (γ κ : Type*) where
  | idle
  | readCommands (late : Bool) (current : DrExecutionResults γ κ)
  | dispatch (late : Bool) (commandMap : CommandMap) (group : DrPlanGroup γ κ) (rest : List κ)
      (results : DrExecutionResults γ κ)
  | write (status : DrExecutionStatus) (results : DrExecutionResults γ κ)
  | handleResult (groupId : γ) (deviceId : κ) (status : DrStatus)
  | settle (verdict : DrExecutionStatus)
  | abort
  | ending
  | finished

def DrStage.isEnding {γ κ : Type*} : DrStage γ κ → Bool
  | .ending => true
  | _ => false

/-- What a step is told: the result that comes in, an abort, what `queueCommandForExecution` returns, or that the
transaction is rolled back. -/
inductive DrSignal where
  | exec
  | result (commandId : ℕ) (status : ResultStatus)
  | abort
  | queued (error : Option String)
  | rollback

section Statements
variable {γ κ : Type*} [DecidableEq γ] [DecidableEq κ] (groups : List (DrPlanGroup γ κ))

namespace DrDb

/-- `UPDATE dr_executions SET … WHERE id`; `none` while another transaction holds the row. -/
def update (t : DrProcess) (change : DrExecution γ κ → DrExecution γ κ) (db : DrDb γ κ) : Option (DrDb γ κ) :=
  if db.execution.Free t then
    some { db with execution := db.execution.write t (change (db.execution.read t)) }
  else none

def commit (t : DrProcess) (db : DrDb γ κ) : DrDb γ κ where
  execution := db.execution.commit t
  commands := fun i => (db.commands i).commit t
  nextCommand := db.nextCommand
  ended := db.ended || (db.execution.read t).status.Terminal

def rollback (t : DrProcess) (db : DrDb γ κ) : DrDb γ κ where
  execution := db.execution.rollback t
  commands := fun i => (db.commands i).rollback t
  nextCommand := db.nextCommand
  ended := db.ended

def insertCommand (t : DrProcess) (command : DrCommand γ κ) (db : DrDb γ κ) : DrDb γ κ :=
  { db with
    commands := db.commands.write t db.nextCommand (some command)
    nextCommand := db.nextCommand + 1 }

def endCommand (i : ℕ) (command : DrCommand γ κ) (status : ResultStatus) (db : DrDb γ κ) : DrDb γ κ :=
  { db with
    commands := Function.update db.commands i (Row.unheld (some { command with status := status.stored })) }

def selectCommands (t : DrProcess) (results : DrExecutionResults γ κ) (db : DrDb γ κ) : CommandMap :=
  fun i => if i ∈ results.queuedCommands.map QueuedDrCommand.commandId then
    ((db.commands i).read t).map DrCommand.status else none

end DrDb

def Decision.next (late : Bool) (commandMap : CommandMap) : Decision γ κ → DrStage γ κ
  | .write status results => .write status results
  | .dispatch group current =>
    match beginDispatch group current with
    | .error results =>
      let written := afterDispatch groups commandMap results
      .write written.status written.results
    | .ok results => .dispatch late commandMap group (unqueued group current) results

/-- One statement of `reconcileDrExecution`. -/
def reconcileStep (signal : DrSignal) (db : DrDb γ κ) (stage : DrStage γ κ) : Option (DrDb γ κ × DrStage γ κ) :=
  match signal, stage with
  | .exec, .idle =>
    let execution := db.execution.read .reconcile
    some (db, if execution.status.Terminal then .idle else .readCommands db.ended execution.results)
  | .exec, .readCommands late current =>
    let commandMap := db.selectCommands .reconcile current
    some (db, (decideNext groups commandMap current).next groups late commandMap)
  | .queued none, .dispatch late commandMap group (device :: rest) results =>
    some (db.insertCommand .reconcile ⟨group.id, device, .pending, late⟩,
      .dispatch late commandMap group rest (dispatchDevice group device (.ok db.nextCommand) results))
  | .queued (some error), .dispatch late commandMap group (device :: rest) results =>
    some (db, .dispatch late commandMap group rest (dispatchDevice group device (.error error) results))
  | .exec, .dispatch _ commandMap group [] results =>
    let written := afterDispatch groups commandMap (endDispatch group results)
    some (db, .write written.status written.results)
  | .exec, .write status results => (db.update .reconcile fun _ => ⟨status, results⟩).map (·, .ending)
  | .exec, .ending => some (db.commit .reconcile, .idle)
  | .rollback, _ => some (db.rollback .reconcile, .idle)
  | _, _ => none

def requestStep (n : ℕ) (signal : DrSignal) (db : DrDb γ κ) (stage : DrStage γ κ) :
    Option (DrDb γ κ × DrStage γ κ) :=
  match signal, stage with
  | .result i status, .idle =>
    match (db.commands i).read (.request n) with
    | none => some (db, .finished)
    | some command =>
      if command.Open then
        if (db.commands i).Free (.request n) then
          some (db.endCommand i command status, .handleResult command.groupId command.deviceId (reported status))
        else none
      else some (db, .finished)
  | .exec, .handleResult groupId deviceId status =>
    (db.update (.request n) fun execution =>
      { execution with results := { execution.results with
        groupResults := mergeGroup groupId deviceId status execution.results.groupResults } }).map fun updated =>
      (updated, match reportedVerdict (updated.execution.read (.request n)).results with
        | some verdict => .settle verdict
        | none => .ending)
  | .exec, .settle verdict =>
    if (db.execution.read (.request n)).status = .pending then
      (db.update (.request n) fun execution => { execution with status := verdict }).map (·, .ending)
    else some (db, .ending)
  | .abort, .idle =>
    let status := (db.execution.read (.request n)).status
    some (db, if status = .completed ∨ status = .aborted then .finished else .abort)
  | .exec, .abort =>
    (db.update (.request n) fun execution => { execution with status := .aborted }).map (·, .ending)
  | .exec, .ending => some (db.commit (.request n), .finished)
  | .rollback, .handleResult _ _ _ | .rollback, .settle _ | .rollback, .abort | .rollback, .ending =>
    some (db.rollback (.request n), .finished)
  | _, _ => none

def drAct (t : DrProcess) (signal : DrSignal) (db : DrDb γ κ) (stage : DrStage γ κ) :
    Option (DrDb γ κ × DrStage γ κ) :=
  match t with
  | .reconcile => reconcileStep groups signal db stage
  | .request n => requestStep n signal db stage

abbrev DrWorld (γ κ : Type*) := World DrProcess (DrDb γ κ) (DrStage γ κ)

def drStep (w : DrWorld γ κ) (e : DrProcess × DrSignal) : DrWorld γ κ := (World.step (drAct groups) w e).getD w

/-- `createDrExecutionAndEnqueue` has inserted the execution. -/
def drStart : DrWorld γ κ :=
  ⟨⟨Row.unheld ⟨.pending, buildInitialResults groups⟩, fun _ => Row.unheld none, 0, false⟩, fun _ => .idle⟩

end Statements

section Commands
variable {γ κ : Type*}

def DrDb.view (t : DrProcess) (db : DrDb γ κ) (i : ℕ) : Option (DrCommand γ κ) := (db.commands i).read t

def statuses (commands : ℕ → Option (DrCommand γ κ)) : CommandMap := fun i => (commands i).map DrCommand.status

/-- The commands are those that the results name, one for a device of a group, in the order of the plan, and none was
queued late. -/
structure Sound (groups : List (DrPlanGroup γ κ)) (queued : List (QueuedDrCommand γ κ))
    (commands : ℕ → Option (DrCommand γ κ)) : Prop where
  named : ∀ q ∈ queued, ∃ c, commands q.commandId = some c ∧ c.groupId = q.groupId ∧ c.deviceId = q.deviceId
  naming : ∀ i c, commands i = some c → ∃ q ∈ queued, q.commandId = i
  sole : (queued.map fun q => (q.groupId, q.deviceId)).Nodup
  planned : ∀ q ∈ queued, ∃ g ∈ groups, g.id = q.groupId ∧ q.deviceId ∈ g.devices
  ordered : ∀ q ∈ queued, ∀ g ∈ groups, g.id = q.groupId → ∀ h ∈ groups, h.Before g → h.Done queued (statuses commands)
  punctual : ∀ i c, commands i = some c → c.late = false

def Advances (commands next : ℕ → Option (DrCommand γ κ)) : Prop :=
  ∀ i, next i = commands i ∨ ∃ c status, commands i = some c ∧ c.Open ∧ next i = some { c with status }

variable {groups : List (DrPlanGroup γ κ)} {queued later : List (QueuedDrCommand γ κ)}
  {commands next : ℕ → Option (DrCommand γ κ)}

theorem Advances.refl (commands : ℕ → Option (DrCommand γ κ)) : Advances commands commands := fun _ => .inl rfl

theorem Advances.completed (advances : Advances commands next) {i : ℕ}
    (completed : statuses commands i = some .completed) : statuses next i = some .completed := by
  rcases advances i with same | ⟨c, status, found, inFlight, -⟩
  · rw [statuses, same]
    exact completed
  · rw [statuses, found] at completed
    rcases inFlight with pending | sent
    · cases pending.symm.trans (some.inj completed)
    · cases sent.symm.trans (some.inj completed)

theorem DrPlanGroup.Done.mono {g : DrPlanGroup γ κ} {commandMap nextMap : CommandMap} (done : g.Done queued commandMap)
    (listed : queued ⊆ later) (stays : ∀ i, commandMap i = some .completed → nextMap i = some .completed) :
    g.Done later nextMap where
  some_device := done.some_device
  completed := by
    intro d member
    obtain ⟨q, found, group, device, completed⟩ := done.completed d member
    exact ⟨q, listed found, group, device, stays _ completed⟩

theorem Sound.advance (sound : Sound groups queued commands) (advances : Advances commands next) :
    Sound groups queued next where
  named := by
    intro q member
    obtain ⟨c, found, group, device⟩ := sound.named q member
    rcases advances q.commandId with same | ⟨d, status, before, -, after⟩
    · exact ⟨c, same.trans found, group, device⟩
    · cases found.symm.trans before
      exact ⟨_, after, group, device⟩
  naming := by
    intro i c found
    rcases advances i with same | ⟨d, status, before, -, -⟩
    · exact sound.naming i c (same.symm.trans found)
    · exact sound.naming i d before
  sole := sound.sole
  planned := sound.planned
  ordered := by
    intro q member g planned same h listed before
    exact (sound.ordered q member g planned same h listed before).mono (List.Subset.refl _)
      fun _ => advances.completed
  punctual := by
    intro i c found
    rcases advances i with same | ⟨d, status, before, -, after⟩
    · exact sound.punctual i c (same.symm.trans found)
    · cases after.symm.trans found
      exact sound.punctual i d before

theorem Sound.insert (sound : Sound groups queued commands) (distinct : (groups.map DrPlanGroup.id).Nodup) {i : ℕ}
    (fresh : commands i = none) {g : DrPlanGroup γ κ} (member : g ∈ groups) {d : κ} (device : d ∈ g.devices)
    (unqueued : ∀ q ∈ queued, ¬(q.groupId = g.id ∧ q.deviceId = d))
    (before : ∀ h ∈ groups, h.Before g → h.Done queued (statuses commands)) :
    Sound groups (queued ++ [⟨g.id, d, i⟩]) (update commands i (some ⟨g.id, d, .pending, false⟩)) := by
  have stays : ∀ j, statuses commands j = some .completed →
      statuses (update commands i (some ⟨g.id, d, .pending, false⟩)) j = some .completed := by
    intro j completed
    have other : j ≠ i := by
      rintro rfl
      rw [statuses, fresh] at completed
      cases completed
    rw [statuses, update_of_ne other]
    exact completed
  constructor
  · intro q listed
    rcases mem_append.mp listed with old | new
    · obtain ⟨c, found, keys⟩ := sound.named q old
      have other : q.commandId ≠ i := by
        intro same
        rw [same, fresh] at found
        cases found
      exact ⟨c, (update_of_ne other ..).trans found, keys⟩
    · obtain rfl := mem_singleton.mp new
      exact ⟨_, update_self .., rfl, rfl⟩
  · intro j c found
    by_cases same : j = i
    · exact ⟨_, mem_append_right _ (mem_singleton_self _), same.symm⟩
    · obtain ⟨q, listed, names⟩ := sound.naming j c ((update_of_ne same ..).symm.trans found)
      exact ⟨q, mem_append_left _ listed, names⟩
  · rw [map_append]
    refine List.Nodup.append sound.sole (nodup_singleton _) ?_
    intro key old new
    obtain ⟨q, listed, rfl⟩ := List.mem_map.mp old
    exact unqueued q listed (Prod.mk.inj (mem_singleton.mp new))
  · intro q listed
    rcases mem_append.mp listed with old | new
    · exact sound.planned q old
    · obtain rfl := mem_singleton.mp new
      exact ⟨g, member, rfl, device⟩
  · intro q listed k planned same h other sooner
    refine DrPlanGroup.Done.mono ?_ (subset_append_left ..) stays
    rcases mem_append.mp listed with old | new
    · exact sound.ordered q old k planned same h other sooner
    · obtain rfl := mem_singleton.mp new
      obtain rfl := inj_on_of_nodup_map distinct planned member same
      exact before h other sooner
  · intro j c found
    by_cases same : j = i
    · subst same
      rw [update_self] at found
      cases found
      rfl
    · exact sound.punctual j c ((update_of_ne same ..).symm.trans found)

end Commands

end RemudaRmm.Recovery
