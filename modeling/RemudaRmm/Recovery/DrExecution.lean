import Mathlib.Data.List.Nodup
import RemudaRmm.Agents.DeviceCommands

/-! Disaster-recovery executions (`drExecutionService.ts`, `drResultHandler.ts`): the groups of a plan, the results
document of an execution, what one reconcile makes of it and what the result of a command adds to it. -/
namespace RemudaRmm.Recovery
open List
open Agents (CommandStatus ResultStatus)

inductive DrExecutionStatus where
  | pending
  | running
  | completed
  | failed
  | aborted
  deriving DecidableEq

def DrExecutionStatus.Terminal (status : DrExecutionStatus) : Prop :=
  status = .completed ∨ status = .failed ∨ status = .aborted
  deriving Decidable

/-- The status of a group or of one device of it; `timeout` comes from agents only. -/
inductive DrStatus where
  | pending
  | running
  | completed
  | failed
  | timeout
  deriving DecidableEq

/-- `partly` is `partial`. -/
inductive DispatchStatus where
  | queued
  | running
  | partly
  | failed
  | completed
  deriving DecidableEq

/-- A group, with the command type of its restore configuration if that is a text. -/
structure DrPlanGroup (γ κ : Type*) where
  id : γ
  name : String
  sequence : ℤ
  dependsOnGroupId : Option γ
  devices : List κ
  commandType : Option String

structure DrPlan (γ κ : Type*) where
  groups : List (DrPlanGroup γ κ)
  distinct : (groups.map DrPlanGroup.id).Nodup
  unrepeated : ∀ g ∈ groups, g.devices.Nodup

structure QueuedDrCommand (γ κ : Type*) where
  groupId : γ
  deviceId : κ
  commandId : ℕ

structure FailedDispatch (γ κ : Type*) where
  groupId : γ
  deviceId : Option κ
  error : String

/-- The entry of a group; without a status where only results of commands have made it. -/
structure GroupResult (γ κ : Type*) where
  groupId : γ
  status : Option DrStatus
  devices : List (κ × DrStatus)

/-- `plannedGroups` keeps the id and the device count of each group. -/
structure DrExecutionResults (γ κ : Type*) where
  dispatchStatus : DispatchStatus
  plannedGroups : List (γ × ℕ)
  queuedCommands : List (QueuedDrCommand γ κ)
  failedDispatches : List (FailedDispatch γ κ)
  groupResults : List (GroupResult γ κ)
  activeGroupId : Option γ
  haltReason : Option String

structure DrExecution (γ κ : Type*) where
  status : DrExecutionStatus
  results : DrExecutionResults γ κ

def DR_ALLOWED_COMMAND_TYPES : List String :=
  ["vm_restore_from_backup", "vm_instant_boot", "hyperv_restore", "mssql_restore", "bmr_recover"]

/-- The statuses of the commands that a reconcile has read, by id. -/
abbrev CommandMap := ℕ → Option CommandStatus

section Groups
variable {γ κ : Type*} [DecidableEq γ] [DecidableEq κ]

def plannedGroups (groups : List (DrPlanGroup γ κ)) : List (γ × ℕ) := groups.map fun g => (g.id, g.devices.length)

def buildInitialResults (groups : List (DrPlanGroup γ κ)) : DrExecutionResults γ κ where
  dispatchStatus := .queued
  plannedGroups := plannedGroups groups
  queuedCommands := []
  failedDispatches := []
  groupResults := groups.map fun g => ⟨g.id, some .pending, g.devices.map (·, .pending)⟩
  activeGroupId := none
  haltReason := none

def normalizeCommandStatus : Option CommandStatus → DrStatus
  | some .completed => .completed
  | some .failed => .failed
  | _ => .running

/-- The group status that the statuses of its devices give, and whether a dispatch of it has failed. -/
def groupStatus (statuses : List DrStatus) (dispatchFailed : Bool) : DrStatus :=
  if dispatchFailed ∧ .running ∉ statuses then .failed
  else if .failed ∈ statuses then if .running ∈ statuses then .running else .failed
  else if statuses ≠ [] ∧ ∀ s ∈ statuses, s = .completed then .completed
  else if .running ∈ statuses ∨ .completed ∈ statuses then .running
  else .pending

variable (queued : List (QueuedDrCommand γ κ)) (failures : List (FailedDispatch γ κ)) (commandMap : CommandMap)

def deviceStatus (groupId : γ) (device : κ) : DrStatus :=
  if ∃ f ∈ failures, f.groupId = groupId ∧ f.deviceId = some device then .failed
  else
    match queued.find? fun q => q.groupId = groupId ∧ q.deviceId = device with
    | none => .pending
    | some q => normalizeCommandStatus (commandMap q.commandId)

def computeStatus (g : DrPlanGroup γ κ) : DrStatus :=
  groupStatus (g.devices.map (deviceStatus queued failures commandMap g.id)) (failures.any (·.groupId = g.id))

def computeGroupResults (groups : List (DrPlanGroup γ κ)) : List (GroupResult γ κ) :=
  groups.map fun g => ⟨g.id, some (computeStatus queued failures commandMap g),
    g.devices.map fun d => (d, deviceStatus queued failures commandMap g.id d)⟩

end Groups

section Reconcile
variable {γ κ : Type*} [DecidableEq γ] [DecidableEq κ] (groups : List (DrPlanGroup γ κ))

/-- `resultsByGroupId`. -/
def statusOfGroup (groupResults : List (GroupResult γ κ)) (id : γ) : Option (Option DrStatus) :=
  (groupResults.find? (·.groupId = id)).map GroupResult.status

/-- The first group that is pending, whose dependency, if it is a group of the plan, and all groups before it are
completed. -/
def pickNextGroup (groupResults : List (GroupResult γ κ)) : Option (DrPlanGroup γ κ) :=
  groups.find? fun g =>
    statusOfGroup groupResults g.id = some (some .pending) ∧
    (∀ status ∈ g.dependsOnGroupId.bind (statusOfGroup groupResults), status = some .completed) ∧
    ∀ h ∈ groups, h.sequence < g.sequence → statusOfGroup groupResults h.id = some (some .completed)

/-- The run so far, with the groups as the plan and the commands have them now. -/
def refreshed (commandMap : CommandMap) (results : DrExecutionResults γ κ) : DrExecutionResults γ κ :=
  { results with
    plannedGroups := plannedGroups groups
    groupResults := computeGroupResults results.queuedCommands results.failedDispatches commandMap groups }

inductive Decision (γ κ : Type*) where
  | write (status : DrExecutionStatus) (results : DrExecutionResults γ κ)
  | dispatch (group : DrPlanGroup γ κ) (results : DrExecutionResults γ κ)

/-- What `reconcileDrExecution` does with an execution that is not over. -/
def decideNext (commandMap : CommandMap) (current : DrExecutionResults γ κ) : Decision γ κ :=
  let results := refreshed groups commandMap current
  let status := computeStatus results.queuedCommands results.failedDispatches commandMap
  let hasRunningGroup := groups.any fun g => status g = .running
  if groups = [] then
    .write .failed { results with
      dispatchStatus := .failed, haltReason := some "DR plan has no recovery groups", activeGroupId := none }
  else
    match groups.find? fun g => status g = .failed, hasRunningGroup with
    | some failedGroup, false =>
      .write .failed { results with
        dispatchStatus := if results.failedDispatches = [] then .failed else .partly
        haltReason := results.haltReason.or (some ("Group " ++ failedGroup.name ++ " failed"))
        activeGroupId := some failedGroup.id }
    | _, _ =>
      if groups.all fun g => status g = .completed then
        .write .completed { results with dispatchStatus := .completed, activeGroupId := none, haltReason := none }
      else if hasRunningGroup then
        .write .running { results with
          dispatchStatus := if results.failedDispatches = [] then .running else .partly
          activeGroupId := (groups.find? fun g => status g = .running).map DrPlanGroup.id }
      else
        match pickNextGroup groups results.groupResults with
        | some group => .dispatch group results
        | none =>
          .write .failed { results with
            dispatchStatus := .failed
            haltReason := results.haltReason.or (some "No eligible DR group could be dispatched")
            activeGroupId := none }

def dispatchError (group : DrPlanGroup γ κ) (error haltReason : String) (results : DrExecutionResults γ κ) :
    DrExecutionResults γ κ :=
  { results with
    failedDispatches := results.failedDispatches ++ [⟨group.id, none, error⟩]
    dispatchStatus := .failed
    haltReason := some haltReason }

/-- The checks of `dispatchGroup` before it queues commands. -/
def beginDispatch (group : DrPlanGroup γ κ) (current : DrExecutionResults γ κ) :
    Except (DrExecutionResults γ κ) (DrExecutionResults γ κ) :=
  let results := { current with activeGroupId := some group.id, dispatchStatus := .running }
  match group.commandType with
  | none =>
    .error (dispatchError group "restoreConfig.commandType is required to dispatch this DR group"
      ("Group " ++ group.name ++ " is missing a command type") results)
  | some commandType =>
    if commandType ∉ DR_ALLOWED_COMMAND_TYPES then
      .error (dispatchError group ("Unsupported DR command type: " ++ commandType)
        ("Group " ++ group.name ++ " uses an unsupported command type") results)
    else if group.devices = [] then
      .error (dispatchError group "No devices are assigned to this DR group"
        ("Group " ++ group.name ++ " has no assigned devices") results)
    else .ok results

def unqueued (group : DrPlanGroup γ κ) (current : DrExecutionResults γ κ) : List κ :=
  group.devices.filter fun d => ¬∃ q ∈ current.queuedCommands, q.groupId = group.id ∧ q.deviceId = d

/-- One round of the loop, with what `queueCommandForExecution` returns: a command or an error. -/
def dispatchDevice (group : DrPlanGroup γ κ) (device : κ) (outcome : Except String ℕ)
    (results : DrExecutionResults γ κ) : DrExecutionResults γ κ :=
  match outcome with
  | .ok commandId => { results with queuedCommands := results.queuedCommands ++ [⟨group.id, device, commandId⟩] }
  | .error error =>
    { results with failedDispatches := results.failedDispatches ++ [⟨group.id, some device, error⟩] }

def endDispatch (group : DrPlanGroup γ κ) (results : DrExecutionResults γ κ) : DrExecutionResults γ κ :=
  if results.failedDispatches.any (·.groupId = group.id) then
    { results with
      dispatchStatus := if results.queuedCommands.any (·.groupId = group.id) then .partly else .failed
      haltReason := some ("Group " ++ group.name ++ " did not dispatch cleanly") }
  else results

/-- What `reconcileDrExecution` writes after a dispatch; it has not read the new commands. -/
def afterDispatch (commandMap : CommandMap) (results : DrExecutionResults γ κ) : DrExecution γ κ where
  status := if results.dispatchStatus = .failed then .failed else .running
  results := { results with
    groupResults := computeGroupResults results.queuedCommands results.failedDispatches commandMap groups }

end Reconcile

section Results
variable {γ κ : Type*} [DecidableEq γ] [DecidableEq κ]

def reported : ResultStatus → DrStatus
  | .completed => .completed
  | .failed => .failed
  | .timeout => .timeout

def mergeDevice (device : κ) (status : DrStatus) (devices : List (κ × DrStatus)) : List (κ × DrStatus) :=
  if ∃ entry ∈ devices, entry.1 = device then
    devices.map fun entry => if entry.1 = device then (device, status) else entry
  else devices ++ [(device, status)]

/-- `merged_group` in its place. -/
def mergeGroup (groupId : γ) (device : κ) (status : DrStatus) (groupResults : List (GroupResult γ κ)) :
    List (GroupResult γ κ) :=
  match groupResults.find? (·.groupId = groupId) with
  | some existing =>
    let merged := { existing with devices := mergeDevice device status existing.devices }
    groupResults.map fun group => if group.groupId = groupId then merged else group
  | none => groupResults ++ [⟨groupId, none, [(device, status)]⟩]

def isTerminalDeviceStatus (status : DrStatus) : Bool :=
  status = .completed || status = .failed || status = .timeout

/-- `latestByDeviceId`. -/
def latestByDevice (devices : List (κ × DrStatus)) : List (κ × DrStatus) :=
  (devices.map Prod.fst).eraseDups.filterMap fun device => devices.reverse.find? (·.1 = device)

/-- The planned device count of each planned group, and the latest entries of its devices if it is reported. -/
def reportedGroups (results : DrExecutionResults γ κ) : List (ℕ × Option (List (κ × DrStatus))) :=
  results.plannedGroups.map fun planned =>
    (planned.2, (results.groupResults.reverse.find? (·.groupId = planned.1)).map fun g => latestByDevice g.devices)

/-- The verdict of `handleDrCommandResult` once every device of every planned group has ended. -/
def reportedVerdict (results : DrExecutionResults γ κ) : Option DrExecutionStatus :=
  if results.plannedGroups ≠ [] ∧ ∀ group ∈ reportedGroups results, group.2.any fun devices =>
      group.1 ≤ devices.length && devices.all fun entry => isTerminalDeviceStatus entry.2 then
    some (if ∀ group ∈ reportedGroups results, group.2.all fun devices =>
        devices.all fun entry => entry.2 = .completed then .completed else .failed)
  else none

end Results

/-- A group that has to be done before another one is dispatched. -/
def DrPlanGroup.Before {γ κ : Type*} (h g : DrPlanGroup γ κ) : Prop :=
  h.sequence < g.sequence ∨ g.dependsOnGroupId = some h.id

/-- Every device of the group has a command that is completed, and there is one. -/
structure DrPlanGroup.Done {γ κ : Type*} (queued : List (QueuedDrCommand γ κ)) (commandMap : CommandMap)
    (g : DrPlanGroup γ κ) : Prop where
  some_device : g.devices ≠ []
  completed : ∀ d ∈ g.devices, ∃ q ∈ queued, q.groupId = g.id ∧ q.deviceId = d ∧
    commandMap q.commandId = some .completed

section Statuses
variable {γ κ : Type*} [DecidableEq γ] [DecidableEq κ] {groups : List (DrPlanGroup γ κ)}
  {queued : List (QueuedDrCommand γ κ)} {failures : List (FailedDispatch γ κ)} {commandMap : CommandMap}
variable {g : DrPlanGroup γ κ}

theorem groupStatus_completed {statuses : List DrStatus} {dispatchFailed : Bool}
    (completed : groupStatus statuses dispatchFailed = .completed) :
    statuses ≠ [] ∧ ∀ s ∈ statuses, s = .completed := by
  unfold groupStatus at completed
  split_ifs at completed with _ _ _ all
  exact all

theorem groupStatus_running {statuses : List DrStatus} {dispatchFailed : Bool}
    (running : groupStatus statuses dispatchFailed = .running) :
    .running ∈ statuses ∨ .failed ∉ statuses ∧ .completed ∈ statuses ∧ ∃ s ∈ statuses, s ≠ .completed := by
  unfold groupStatus at running
  split_ifs at running with _ failed runs all some_of
  · exact .inl runs
  · rcases some_of with runs | completed
    · exact .inl runs
    · refine .inr ⟨failed, completed, ?_⟩
      by_contra none_other
      push Not at none_other
      exact all ⟨ne_nil_of_mem completed, none_other⟩

theorem deviceStatus_of_queued {id : γ} {d : κ} {status : DrStatus}
    (given : deviceStatus queued failures commandMap id d = status) (assigned : status ≠ .pending)
    (unfailed : status ≠ .failed) :
    ∃ q ∈ queued, q.groupId = id ∧ q.deviceId = d ∧ normalizeCommandStatus (commandMap q.commandId) = status := by
  unfold deviceStatus at given
  split_ifs at given with failed
  · exact absurd given.symm unfailed
  · split at given
    next => exact absurd given.symm assigned
    next q found =>
      have member := mem_of_find?_eq_some found
      have keys := find?_some found
      simp only [decide_eq_true_eq] at keys
      exact ⟨q, member, keys.1, keys.2, given⟩

theorem normalizeCommandStatus_cases (status : Option CommandStatus) : normalizeCommandStatus status = .running ∨
    normalizeCommandStatus status = .completed ∨ normalizeCommandStatus status = .failed := by
  cases status with
  | none => exact .inl rfl
  | some s => cases s <;> simp [normalizeCommandStatus]

theorem deviceStatus_cases {id : γ} {d : κ} (dispatched : (∃ q ∈ queued, q.groupId = id ∧ q.deviceId = d) ∨
      ∃ f ∈ failures, f.groupId = id ∧ f.deviceId = some d) :
    deviceStatus queued failures commandMap id d = .running ∨
      deviceStatus queued failures commandMap id d = .completed ∨
      deviceStatus queued failures commandMap id d = .failed := by
  unfold deviceStatus
  split_ifs with failed
  · exact .inr (.inr rfl)
  · obtain ⟨q, listed, keys⟩ := dispatched.resolve_right failed
    split
    next unfound =>
      have missed := find?_eq_none.mp unfound q listed
      exact absurd keys (by simpa using missed)
    next q _ => exact normalizeCommandStatus_cases _

theorem normalizeCommandStatus_completed {status : Option CommandStatus}
    (completed : normalizeCommandStatus status = .completed) : status = some .completed := by
  cases status with
  | none => cases completed
  | some s => cases s <;> first | rfl | cases completed

theorem computeStatus_completed (completed : computeStatus queued failures commandMap g = .completed) :
    g.Done queued commandMap := by
  obtain ⟨some_status, all⟩ := groupStatus_completed completed
  refine ⟨fun empty => some_status (by rw [empty]; rfl), fun d member => ?_⟩
  have status := all _ (List.mem_map_of_mem member)
  obtain ⟨q, listed, group, device, normal⟩ := deviceStatus_of_queued status (by decide) (by decide)
  exact ⟨q, listed, group, device, normalizeCommandStatus_completed normal⟩

theorem statusOfGroup_compute (distinct : (groups.map DrPlanGroup.id).Nodup) (member : g ∈ groups) :
    statusOfGroup (computeGroupResults queued failures commandMap groups) g.id =
      some (some (computeStatus queued failures commandMap g)) := by
  unfold statusOfGroup computeGroupResults
  induction groups with
  | nil => cases member
  | cons h groups ih =>
    obtain ⟨unlisted, distinct⟩ := nodup_cons.mp distinct
    rcases mem_cons.mp member with rfl | later
    · simp only [map_cons, find?_cons, decide_true, Option.map_some]
    · have other : h.id ≠ g.id := fun same => unlisted (same ▸ List.mem_map_of_mem later)
      simp only [map_cons, find?_cons, other, decide_false]
      exact ih distinct later

theorem pickNextGroup_some (distinct : (groups.map DrPlanGroup.id).Nodup)
    (picked : pickNextGroup groups (computeGroupResults queued failures commandMap groups) = some g) :
    g ∈ groups ∧ computeStatus queued failures commandMap g = .pending ∧
      ∀ h ∈ groups, h.Before g → h.Done queued commandMap := by
  have member := mem_of_find?_eq_some picked
  have checks := find?_some picked
  simp only [decide_eq_true_eq] at checks
  obtain ⟨pending, dependency, earlier⟩ := checks
  rw [statusOfGroup_compute distinct member] at pending
  refine ⟨member, Option.some.inj (Option.some.inj pending), fun h listed before => ?_⟩
  have status : statusOfGroup (computeGroupResults queued failures commandMap groups) h.id =
      some (some (computeStatus queued failures commandMap h)) := statusOfGroup_compute distinct listed
  rcases before with sooner | depends
  · have completed := earlier h listed sooner
    rw [status] at completed
    exact computeStatus_completed (Option.some.inj (Option.some.inj completed))
  · have completed := dependency (some (computeStatus queued failures commandMap h))
    rw [depends] at completed
    exact computeStatus_completed (Option.some.inj (completed status))

theorem computeStatus_running (running : computeStatus queued failures commandMap g = .running)
    (dispatched : (∃ q ∈ queued, q.groupId = g.id) → ∀ d ∈ g.devices,
      (∃ q ∈ queued, q.groupId = g.id ∧ q.deviceId = d) ∨ ∃ f ∈ failures, f.groupId = g.id ∧ f.deviceId = some d) :
    ∃ q ∈ queued, normalizeCommandStatus (commandMap q.commandId) = .running := by
  have run_of : ∀ d, deviceStatus queued failures commandMap g.id d = .running →
      ∃ q ∈ queued, normalizeCommandStatus (commandMap q.commandId) = .running := by
    intro d status
    obtain ⟨q, listed, -, -, normal⟩ := deviceStatus_of_queued status (by decide) (by decide)
    exact ⟨q, listed, normal⟩
  rcases groupStatus_running running with runs | ⟨unfailed, completed, s, other, incomplete⟩
  · obtain ⟨d, -, status⟩ := List.mem_map.mp runs
    exact run_of d status
  · obtain ⟨d, -, status⟩ := List.mem_map.mp completed
    obtain ⟨q, listed, group, -⟩ := deviceStatus_of_queued status (by decide) (by decide)
    obtain ⟨k, member, rfl⟩ := List.mem_map.mp other
    rcases deviceStatus_cases (dispatched ⟨q, listed, group⟩ k member) with runs | done | failed
    · exact run_of k runs
    · exact absurd done incomplete
    · exact absurd (failed ▸ List.mem_map_of_mem member) unfailed

end Statuses

section Decisions
variable {γ κ : Type*} [DecidableEq γ] [DecidableEq κ] {groups : List (DrPlanGroup γ κ)} {commandMap : CommandMap}
  {current results : DrExecutionResults γ κ} {group : DrPlanGroup γ κ}

/-- What a reconcile writes when it dispatches nothing: the commands it has found, and `running` where a group runs. -/
structure Observed (groups : List (DrPlanGroup γ κ)) (commandMap : CommandMap) (current : DrExecutionResults γ κ)
    (status : DrExecutionStatus) (results : DrExecutionResults γ κ) : Prop where
  begun : status ≠ .pending
  queued : results.queuedCommands = current.queuedCommands
  failures : results.failedDispatches = current.failedDispatches
  running : ¬status.Terminal → ∃ g ∈ groups,
    computeStatus current.queuedCommands current.failedDispatches commandMap g = .running

theorem decideNext_write {status : DrExecutionStatus}
    (decided : decideNext groups commandMap current = .write status results) :
    Observed groups commandMap current status results := by
  have ended : ∀ s : DrExecutionStatus, s.Terminal → ¬s.Terminal → ∃ g ∈ groups,
      computeStatus current.queuedCommands current.failedDispatches commandMap g = .running :=
    fun _ ended going => absurd ended going
  dsimp only [decideNext] at decided
  by_cases empty : groups = []
  · rw [if_pos empty] at decided
    obtain ⟨rfl, rfl⟩ := Decision.write.inj decided
    exact ⟨by decide, rfl, rfl, ended _ (by decide)⟩
  · rw [if_neg empty] at decided
    split at decided
    next =>
      obtain ⟨rfl, rfl⟩ := Decision.write.inj decided
      exact ⟨by decide, rfl, rfl, ended _ (by decide)⟩
    next =>
      split at decided
      next =>
        obtain ⟨rfl, rfl⟩ := Decision.write.inj decided
        exact ⟨by decide, rfl, rfl, ended _ (by decide)⟩
      next =>
        split at decided
        next runs =>
          obtain ⟨rfl, rfl⟩ := Decision.write.inj decided
          obtain ⟨g, member, status⟩ := List.any_eq_true.mp runs
          exact ⟨by decide, rfl, rfl, fun _ => ⟨g, member, of_decide_eq_true status⟩⟩
        next =>
          split at decided
          next => cases decided
          next =>
            obtain ⟨rfl, rfl⟩ := Decision.write.inj decided
            exact ⟨by decide, rfl, rfl, ended _ (by decide)⟩

theorem decideNext_dispatch (decided : decideNext groups commandMap current = .dispatch group results) :
    pickNextGroup groups (computeGroupResults current.queuedCommands current.failedDispatches commandMap groups) =
      some group ∧ results = refreshed groups commandMap current := by
  dsimp only [decideNext] at decided
  by_cases empty : groups = []
  · rw [if_pos empty] at decided
    cases decided
  · rw [if_neg empty] at decided
    split at decided
    next => cases decided
    next =>
      split at decided
      next => cases decided
      next =>
        split at decided
        next => cases decided
        next =>
          split at decided
          next picked =>
            obtain ⟨rfl, rfl⟩ := Decision.dispatch.inj decided
            exact ⟨picked, rfl⟩
          next => cases decided

omit [DecidableEq γ] [DecidableEq κ] in
theorem beginDispatch_ok (begun : beginDispatch group current = .ok results) :
    results.queuedCommands = current.queuedCommands ∧ results.failedDispatches = current.failedDispatches ∧
      results.dispatchStatus = .running ∧ group.devices ≠ [] := by
  unfold beginDispatch at begun
  split at begun
  next => cases begun
  next =>
    split_ifs at begun with _ empty
    cases begun
    exact ⟨rfl, rfl, rfl, empty⟩

omit [DecidableEq γ] [DecidableEq κ] in
theorem beginDispatch_error (refused : beginDispatch group current = .error results) :
    results.queuedCommands = current.queuedCommands ∧ results.dispatchStatus = .failed := by
  unfold beginDispatch at refused
  split at refused
  next =>
    cases refused
    exact ⟨rfl, rfl⟩
  next =>
    split_ifs at refused <;>
      · cases refused
        exact ⟨rfl, rfl⟩

omit [DecidableEq κ] in
@[simp] theorem endDispatch_queued : (endDispatch group results).queuedCommands = results.queuedCommands := by
  unfold endDispatch
  split_ifs <;> rfl

omit [DecidableEq κ] in
@[simp] theorem endDispatch_failures : (endDispatch group results).failedDispatches = results.failedDispatches := by
  unfold endDispatch
  split_ifs <;> rfl

theorem mem_unqueued {d : κ} : d ∈ unqueued group current ↔
    d ∈ group.devices ∧ ¬∃ q ∈ current.queuedCommands, q.groupId = group.id ∧ q.deviceId = d := by
  simp only [unqueued, mem_filter, decide_eq_true_eq]

end Decisions

end RemudaRmm.Recovery
