import RemudaRmm.Recovery.DrInterleaving

/-! What wakes a disaster-recovery execution: its one job in the queue (`drExecutionWorker.ts`), the enqueue after the
result of a command, and the stale-command reaper (`staleCommandReaper.ts`), which enqueues before it commits. A
reconcile shows at its two reads and its commit. -/
namespace RemudaRmm.Recovery
open Agents (CommandStatus ResultStatus)

/-- Where the reconcile of an active job is. -/
inductive ReconcileStage (γ κ : Type*) where
  | readExecution
  | readCommands (current : DrExecutionResults γ κ)
  | dispatch (commandMap : CommandMap) (group : DrPlanGroup γ κ) (rest : List κ) (results : DrExecutionResults γ κ)
  | write (status : DrExecutionStatus) (results : DrExecutionResults γ κ)
  | ending

/-- The reconcile job of the execution. -/
inductive DrJob (γ κ : Type*) where
  | waiting
  | delayed
  | active (stage : ReconcileStage γ κ)
  | completed
  | failed

namespace DrJob
variable {γ κ : Type*}

def isReusableState : DrJob γ κ → Bool
  | .waiting | .delayed | .active _ => true
  | .completed | .failed => false

def enqueueDrExecutionReconcile (delayMs : ℕ) (job : DrJob γ κ) : DrJob γ κ :=
  if job.isReusableState then job else if delayMs = 0 then .waiting else .delayed

end DrJob

/-- `created` once the execution is committed. `reaping` are the commands that the reaper has timed out and not
committed; a result that is stored is `handling` until `handleDrCommandResult` has ended, and then its enqueue is
`owed`. -/
structure DrSystem (γ κ : Type*) where
  created : Bool
  execution : DrExecution γ κ
  commands : ℕ → Option (DrCommand γ κ)
  nextCommand : ℕ
  job : DrJob γ κ
  reaping : List ℕ
  handling : List (ℕ × ResultStatus)
  owed : List ℕ

/-- What happens next. `read` and `commit` are steps of the active job, with what `queueCommandForExecution` answers
for each device (`none` for a command that is queued); `fail again` ends its attempt, and `again` when there is another
one. A result is refused when it is not `valid`; `saved` when the transaction of `handleDrCommandResult` commits. -/
inductive DrEvent (κ : Type*) where
  | create
  | promote
  | take
  | read
  | commit (answers : κ → Option String)
  | finish
  | fail (again : Bool)
  | storeResult (commandId : ℕ) (status : ResultStatus) (valid : Bool)
  | handleResult (commandId : ℕ) (saved : Bool)
  | enqueue (commandId : ℕ)
  | reap (commandId : ℕ)
  | endReap (commits : Bool)

section Steps
variable {γ κ : Type*} [DecidableEq γ] [DecidableEq κ] (groups : List (DrPlanGroup γ κ))

/-- `commandMap`. -/
def selectCommands (commands : ℕ → Option (DrCommand γ κ)) (results : DrExecutionResults γ κ) : CommandMap :=
  fun i => if i ∈ results.queuedCommands.map QueuedDrCommand.commandId then statuses commands i else none

def Decision.stage (commandMap : CommandMap) : Decision γ κ → ReconcileStage γ κ
  | .write status results => .write status results
  | .dispatch group current =>
    match beginDispatch group current with
    | .error results =>
      let written := afterDispatch groups commandMap results
      .write written.status written.results
    | .ok results => .dispatch commandMap group (unqueued group current) results

/-- The results and the commands that a dispatch has made so far. -/
structure Dispatched (γ κ : Type*) where
  results : DrExecutionResults γ κ
  commands : ℕ → Option (DrCommand γ κ)
  nextCommand : ℕ

def queueDevice (group : DrPlanGroup γ κ) (answers : κ → Option String) (d : Dispatched γ κ) (device : κ) :
    Dispatched γ κ :=
  match answers device with
  | none =>
    { results := dispatchDevice group device (.ok d.nextCommand) d.results
      commands := Function.update d.commands d.nextCommand (some ⟨group.id, device, .pending, false⟩)
      nextCommand := d.nextCommand + 1 }
  | some error => { d with results := dispatchDevice group device (.error error) d.results }

def handleDrCommandResult (groupId : γ) (deviceId : κ) (status : DrStatus) (execution : DrExecution γ κ) :
    DrExecution γ κ :=
  let merged := { execution with results := { execution.results with
    groupResults := mergeGroup groupId deviceId status execution.results.groupResults } }
  match reportedVerdict merged.results with
  | some verdict => if merged.status = .pending then { merged with status := verdict } else merged
  | none => merged

namespace DrSystem

def readStep (s : DrSystem γ κ) : DrSystem γ κ :=
  match s.job with
  | .active .readExecution =>
    if s.created = false ∨ s.execution.status.Terminal then { s with job := .active .ending }
    else { s with job := .active (.readCommands s.execution.results) }
  | .active (.readCommands current) =>
    let commandMap := selectCommands s.commands current
    { s with job := .active ((decideNext groups commandMap current).stage groups commandMap) }
  | _ => s

/-- The transaction of a reconcile commits, after the enqueue of the next one from inside the job. -/
def commitStep (answers : κ → Option String) (s : DrSystem γ κ) : DrSystem γ κ :=
  let followUp := fun (status : DrExecutionStatus) (delayMs : ℕ) =>
    if status.Terminal then .active .ending
    else (DrJob.active .ending : DrJob γ κ).enqueueDrExecutionReconcile delayMs
  match s.job with
  | .active (.write status results) => { s with execution := ⟨status, results⟩, job := followUp status 10000 }
  | .active (.dispatch commandMap group rest results) =>
    let queued := rest.foldl (queueDevice group answers) ⟨results, s.commands, s.nextCommand⟩
    let written := afterDispatch groups commandMap (endDispatch group queued.results)
    { s with
      execution := written
      commands := queued.commands
      nextCommand := queued.nextCommand
      job := followUp written.status 2000 }
  | _ => s

/-- A result finds its command in flight and its row unlocked. -/
def Accepts (i : ℕ) (s : DrSystem γ κ) : Prop := (∃ c ∈ s.commands i, c.Open) ∧ i ∉ s.reaping
  deriving Decidable

def endCommands (ids : List ℕ) (status : CommandStatus) (commands : ℕ → Option (DrCommand γ κ)) (i : ℕ) :
    Option (DrCommand γ κ) :=
  if i ∈ ids then (commands i).map fun c => { c with status } else commands i

end DrSystem

open DrSystem in
def wakeStep (s : DrSystem γ κ) : DrEvent κ → DrSystem γ κ
  | .create => { s with created := true }
  | .promote => match s.job with
      | .delayed => { s with job := .waiting }
      | _ => s
  | .take => match s.job with
      | .waiting => { s with job := .active .readExecution }
      | _ => s
  | .read => s.readStep groups
  | .commit answers => s.commitStep groups answers
  | .finish => match s.job with
      | .active .ending => { s with job := .completed }
      | _ => s
  | .fail again => match s.job with
      | .active _ => { s with job := if again then .delayed else .failed }
      | _ => s
  | .storeResult i status valid =>
    if s.Accepts i then
      { s with
        commands := endCommands [i] (if valid then status.stored else .failed) s.commands
        handling := if valid then (i, status) :: s.handling else s.handling }
    else s
  | .handleResult i saved =>
    match s.handling.find? (·.1 = i), s.commands i with
    | some result, some command =>
      { s with
        execution := if saved then
          handleDrCommandResult command.groupId command.deviceId (reported result.2) s.execution else s.execution
        handling := s.handling.erase result
        owed := i :: s.owed }
    | _, _ => s
  | .enqueue i =>
    if i ∈ s.owed then { s with owed := s.owed.erase i, job := s.job.enqueueDrExecutionReconcile 0 } else s
  | .reap i =>
    if s.Accepts i then { s with reaping := i :: s.reaping, job := s.job.enqueueDrExecutionReconcile 0 } else s
  | .endReap commits =>
    { s with
      commands := if commits then endCommands s.reaping .failed s.commands else s.commands
      reaping := [] }

/-- `createDrExecutionAndEnqueue` has enqueued the first reconcile; its transaction is still to commit. -/
def wakeStart : DrSystem γ κ where
  created := false
  execution := ⟨.pending, buildInitialResults groups⟩
  commands := fun _ => none
  nextCommand := 0
  job := .waiting
  reaping := []
  handling := []
  owed := []

end Steps

section Awake
variable {γ κ : Type*}

def InFlight (commands : ℕ → Option (DrCommand γ κ)) (i : ℕ) : Prop :=
  statuses commands i = some .pending ∨ statuses commands i = some .sent
  deriving Decidable

def DrJob.isDue : DrJob γ κ → Bool
  | .waiting | .delayed | .active .readExecution | .active (.readCommands _) => true
  | _ => false

/-- The run under way dispatches a group or ends the execution. -/
def DrJob.isAhead : DrJob γ κ → Bool
  | .active (.dispatch ..) => true
  | .active (.write status _) => status.Terminal
  | _ => false

namespace DrSystem

/-- No job is waiting, delayed or active, and every result has had its enqueue and every queued command has ended. -/
structure Quiet (s : DrSystem γ κ) : Prop where
  idle : s.job.isReusableState = false
  handled : s.handling = []
  enqueued : s.owed = []
  ended : ∀ q ∈ s.execution.results.queuedCommands,
    statuses s.commands q.commandId = some .completed ∨ statuses s.commands q.commandId = some .failed

/-- Whatever the job in the queue, the execution is over or still to be woken: by the run under way, by a result, by an
enqueue of `owed` or by a command that is not of `ending`. -/
def Kept (ahead : Bool) (ending owed : List ℕ) (s : DrSystem γ κ) : Prop :=
  s.execution.status.Terminal ∨ ahead = true ∨ s.handling ≠ [] ∨ owed ≠ [] ∨
    ∃ q ∈ s.execution.results.queuedCommands, q.commandId ∉ ending ∧ InFlight s.commands q.commandId
  deriving Decidable

def Awake (s : DrSystem γ κ) : Prop := s.job.isDue = true ∨ s.Kept s.job.isAhead [] s.owed

/-- Where a wake-up can be lost, another one is left: an enqueue finds the job active, commands end without an enqueue
or after it, or the last attempt of a job fails. The first reconcile finds the execution committed. -/
def Watched (s : DrSystem γ κ) : DrEvent κ → Prop
  | .read => match s.job with
      | .active .readExecution => s.created = true
      | _ => True
  | .fail false => match s.job with
      | .active _ => s.Kept false [] s.owed
      | _ => True
  | .storeResult i _ false => s.Accepts i → s.job.isDue = true ∨ s.Kept s.job.isAhead [i] s.owed
  | .enqueue i => i ∈ s.owed → s.job.isReusableState = true → s.job.isDue = true ∨
      s.Kept s.job.isAhead [] (s.owed.erase i)
  | .endReap true => s.job.isDue = true ∨ s.Kept s.job.isAhead s.reaping s.owed
  | _ => True

instance (s : DrSystem γ κ) (e : DrEvent κ) : Decidable (s.Watched e) := by
  unfold Watched
  split
  · split <;> infer_instance
  · split <;> infer_instance
  all_goals infer_instance

end DrSystem

end Awake

end RemudaRmm.Recovery
