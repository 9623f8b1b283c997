import Mathlib.Data.Int.Notation
import RemudaRmm.Agents.AgentChannel
import RemudaRmm.Agents.CommandTimeouts

/-! One device command and everything that writes its row: claims, sends and releases (`commandDispatch.ts`),
`executeCommand` and `waitForCommandResult` (`commandQueue.ts`), polls, the reaper, and results over the socket or by
REST. Every update is one statement that tests the status it expects. Times are in milliseconds. -/
namespace RemudaRmm.Agents
open Foundation

inductive CommandStatus where
  | pending
  | sent
  | completed
  | failed
  deriving DecidableEq

inductive ResultStatus where
  | completed
  | failed
  | timeout
  deriving DecidableEq

def ResultStatus.stored (s : ResultStatus) : CommandStatus := if s = .completed then .completed else .failed

/-- What an agent submits; `data` is the text of the structured part and `payloadStatus` its `status` entry. -/
structure AgentCommandResult where
  status : ResultStatus
  exitCode : Option ℤ
  (stdout stderr : Option String)
  durationMs : Option ℕ
  (error data payloadStatus : Option String)
  deriving DecidableEq

structure StoredCommandResult where
  status : ResultStatus
  exitCode : Option ℤ
  (stdout stderr : Option String)
  durationMs : Option ℕ
  (error timedOutBy : Option String)
  deriving DecidableEq

structure DeviceCommand where
  type : String
  timeoutSeconds : Option ℕ
  targetRole : AgentCredentialRole
  createdAt : ℕ
  status : CommandStatus
  (executedAt completedAt : Option ℕ)
  result : Option StoredCommandResult

inductive RestoreJobStatus where
  | pending
  | running
  | completed
  | failed
  | partially
  deriving DecidableEq

def isMutableRestoreStatus (s : RestoreJobStatus) : Bool := s = .pending || s = .running

inductive RestoreType where
  | full
  | selective
  | bareMetal
  deriving DecidableEq

/-- A restore job; the last three fields are `result.commandType`, `mode` and `hypervisor` of its target
configuration, where they are texts. -/
structure RestoreJob where
  status : RestoreJobStatus
  restoreType : RestoreType
  (resultCommandType mode hypervisor : Option String)

def isTrimmed (c : Char) : Bool :=
  let n := c.toNat
  (9 ≤ n && n ≤ 13) || n = 0x20 || n = 0xA0 || n = 0x1680 || (0x2000 ≤ n && n ≤ 0x200A) ||
    n ∈ [0x2028, 0x2029, 0x202F, 0x205F, 0x3000, 0xFEFF]

def hasText (s : Option String) : Bool := s.any fun text => text.toList.any fun c => !isTrimmed c

def inferRestoreCommandType (job : RestoreJob) : String :=
  if hasText job.resultCommandType then job.resultCommandType.getD ""
  else if job.restoreType = .bareMetal then "bmr_recover"
  else if job.mode = some "instant_boot" then "vm_instant_boot"
  else if hasText job.hypervisor then "vm_restore_from_backup"
  else "backup_restore"

/-- The command, the restore job that names it, and the submissions whose result was written to that job. -/
structure CommandDb where
  command : Option DeviceCommand
  restoreJob : Option RestoreJob
  restoredFor : List ℕ

def DeviceCommand.Open (c : DeviceCommand) : Prop := c.status = .pending ∨ c.status = .sent
  deriving Decidable

def timeoutResult (error : String) (timedOutBy : Option String) : StoredCommandResult :=
  ⟨.timeout, none, none, none, none, some error, timedOutBy⟩

namespace DeviceCommand

def claimed (c : DeviceCommand) (executedAt : ℕ) : DeviceCommand :=
  { c with status := .sent, executedAt := some executedAt }

def released (c : DeviceCommand) : DeviceCommand := { c with status := .pending, executedAt := none }

def settled (c : DeviceCommand) (status : CommandStatus) (completedAt : ℕ) (result : StoredCommandResult) :
    DeviceCommand :=
  { c with status, completedAt := some completedAt, result := some result }

end DeviceCommand

def commandResultToStdout (r : AgentCommandResult) : Option String := r.stdout.or r.data

def buildStoredCommandResult (r : AgentCommandResult) (stdout : Option String) : StoredCommandResult :=
  ⟨r.status, r.exitCode, stdout, r.stderr, r.durationMs, r.error, none⟩

structure NormalizedResult where
  result : AgentCommandResult
  (stdout validationError : Option String)

/-- The validation of critical results, by command type: `ok none` where the type has none. -/
abbrev CriticalValidation := String → AgentCommandResult → Except String (Option (Option String))

def normalizeCriticalResultIfNeeded (validate : CriticalValidation) (commandType : String) (r : AgentCommandResult) :
    NormalizedResult :=
  match validate commandType r with
  | .ok none => ⟨r, commandResultToStdout r, none⟩
  | .ok (some normalizedStdout) =>
    let stdout := normalizedStdout.or r.stdout
    ⟨{ r with stdout }, stdout, none⟩
  | .error message =>
    let reason := "Rejected malformed " ++ commandType ++ " result: " ++ message
    ⟨{ r with status := .failed, error := some reason }, commandResultToStdout r, some reason⟩

def deriveRestoreStatus (r : AgentCommandResult) : RestoreJobStatus :=
  if r.status ≠ .completed then .failed
  else if r.payloadStatus = some "failed" then .failed
  else if r.payloadStatus = some "partial" ∨ r.payloadStatus = some "degraded" then .partially
  else .completed

/-- The command types whose result is written to a restore job. -/
def RESTORE_COMMAND_TYPES : List String := ["backup_restore", "vm_restore_from_backup", "vm_instant_boot", "bmr_recover"]

structure ExecuteOptions where
  type : String
  timeoutSeconds : Option ℕ
  timeoutMs : ℕ
  preferHeartbeat : Bool
  targetRole : AgentCredentialRole
  deriving DecidableEq

/-- What runs on the command: a claim with its send and release, `executeCommand` (which also inserts the
command), a poll, a wait, a run of the reaper, and results over the socket and by REST. -/
inductive CommandCall where
  | deliver
  | executeCommand (options : ExecuteOptions)
  | claimPendingCommandsForDevice (role : AgentCredentialRole)
  | waitForCommandResult (timeoutMs : ℕ)
  | reapStaleDeviceCommands
  | processCommandResult (r : AgentCommandResult)
  | postCommandResult (role : AgentCredentialRole) (r : AgentCommandResult)
  deriving DecidableEq

def DEVICE_UNREACHABLE_ERROR : String :=
  "Device is not currently reachable over the live connection. Please try again in a moment."

def SEND_RETRY_ATTEMPTS : ℕ := 3

/-- How `executeCommand` or `waitForCommandResult` ends. -/
inductive CommandReport where
  | refused (error : String)
  | unreachable
  | missing
  | finished (result : Option StoredCommandResult)
  | timedOut (wasPending : Bool) (result : Option StoredCommandResult)
  deriving DecidableEq

inductive CommandStage where
  | start
  | inserting (hasAgent : Bool)
  | claiming
  | sending (attempt : ℕ)
  | releasing
  | awaiting
  | waiting (startTime : ℕ)
  | expired (wasPending : Bool)
  | reaping (errorMsg : String)
  | propagating
  | submitting (type : String)
  | processing (type : String) (r : AgentCommandResult)
  | orphaned
  | restoring (type : String) (r : AgentCommandResult)
  | returned (report : CommandReport)
  | done
  deriving DecidableEq

/-- A writer: the stamp of a claim it has not released, and whether it has begun the post-processing of its
result. -/
structure CommandProc where
  call : CommandCall
  stage : CommandStage
  claim : Option ℕ
  postProcessed : Bool

/-- A statement at a time, the device lookup of `executeCommand`, the outcome of a send, or a batch that stops
short of the command. -/
inductive CommandAction where
  | exec (now : ℕ)
  | device (found : Option (DeviceStatus × Bool)) (connected : Bool)
  | send (ok : Bool)
  | skip
  deriving DecidableEq

def DeviceStatus.text : DeviceStatus → String
  | .online => "online"
  | .offline => "offline"
  | .maintenance => "maintenance"
  | .decommissioned => "decommissioned"
  | .quarantined => "quarantined"
  | .updating => "updating"
  | .pending => "pending"

namespace ExecuteOptions

def dispatchViaWs (o : ExecuteOptions) : Bool := o.targetRole = .agent && !o.preferHeartbeat

def interactive (o : ExecuteOptions) : Bool := o.type ∈ INTERACTIVE_COMMAND_TYPES

def precheck (o : ExecuteOptions) (found : Option (DeviceStatus × Bool)) (connected : Bool) : CommandStage :=
  match found with
  | none => .returned (.refused "Device not found")
  | some (status, hasAgent) =>
    if status ≠ .online then .returned (.refused ("Device is " ++ status.text ++ ", cannot execute command"))
    else if hasAgent && o.dispatchViaWs && o.interactive && !connected then .returned .unreachable
    else .inserting hasAgent

def inserted (o : ExecuteOptions) (now : ℕ) : DeviceCommand where
  type := o.type
  timeoutSeconds := o.timeoutSeconds
  targetRole := o.targetRole
  createdAt := now
  status := .pending
  executedAt := none
  completedAt := none
  result := none

end ExecuteOptions

def SHORTEST_TIMEOUT_MS : ℕ := minutes 5

/-- The message of the reaper for a command it selects and finds timed out. -/
def staleMessage (now : ℕ) (c : DeviceCommand) : Option String :=
  let timeoutMs := getCommandTimeoutMs c.type c.timeoutSeconds
  let referenceTime := if c.status = .sent then c.executedAt.getD c.createdAt else c.createdAt
  let rounded := toString ((timeoutMs + 30000) / 60000)
  if c.Open ∧ c.createdAt + SHORTEST_TIMEOUT_MS < now ∧ c.type ∉ EXCLUDED_COMMAND_TYPES ∧
      referenceTime + timeoutMs ≤ now then
    some (if c.status = .sent then
        "Server-side timeout: no response from agent after " ++ rounded ++ " minutes"
      else "Command expired: agent never received the command (" ++ rounded ++ " min timeout)")
  else none

section Statements
variable (d : CommandDb) (p : CommandProc)

/-- The guarded claim: only a pending command becomes `sent`, stamped with the time of the claim. -/
def claimStatement (role : Option AgentCredentialRole) (now : ℕ) (won lost : CommandStage) :
    CommandDb × CommandProc :=
  match d.command with
  | some c =>
    if c.status = .pending ∧ (role = none ∨ role = some c.targetRole) then
      ({ d with command := some (c.claimed now) }, { p with stage := won, claim := some now })
    else (d, { p with stage := lost })
  | none => (d, { p with stage := lost })

/-- The release finds the command by the stamp of the claim it gives back. -/
def releaseStatement (stage : CommandStage) : CommandDb × CommandProc :=
  match d.command, p.claim with
  | some c, some stamp =>
    if c.status = .sent ∧ c.executedAt = some stamp then
      ({ d with command := some c.released }, { p with stage, claim := none })
    else (d, { p with stage, claim := none })
  | _, _ => (d, { p with stage, claim := none })

/-- A timeout of the server fails the command unless it has ended. -/
def timeoutStatement (now : ℕ) (error : String) (timedOutBy : Option String) (hit : DeviceCommand → CommandStage)
    (miss : CommandStage) : CommandDb × CommandProc :=
  match d.command with
  | some c =>
    if c.Open then
      ({ d with command := some (c.settled .failed now (timeoutResult error timedOutBy)) }, { p with stage := hit c })
    else (d, { p with stage := miss })
  | none => (d, { p with stage := miss })

/-- A result is stored unless the command has ended; only then is it post-processed, if it is well formed. -/
def resultStatement (validate : CriticalValidation) (role : AgentCredentialRole) (now : ℕ) (type : String)
    (r : AgentCommandResult) : CommandDb × CommandProc :=
  let normalized := normalizeCriticalResultIfNeeded validate type r
  match d.command with
  | some c =>
    if c.targetRole = role ∧ c.Open then
      ({ d with command := some (c.settled normalized.result.status.stored now
          (buildStoredCommandResult normalized.result normalized.stdout)) },
        if normalized.validationError = none then
          { p with stage := .processing type normalized.result, postProcessed := true }
        else { p with stage := .done })
    else (d, { p with stage := .done })
  | none => (d, { p with stage := .done })

/-- The read of the restore job of the command, and what is to be written to it. -/
def restoreRead (submitted : RestoreJob → String × AgentCommandResult) : CommandDb × CommandProc :=
  match d.restoreJob with
  | some job =>
    if isMutableRestoreStatus job.status then
      (d, { p with stage := .restoring (submitted job).1 (submitted job).2 })
    else (d, { p with stage := .done })
  | none => (d, { p with stage := .done })

def restoreStatement (t : ℕ) (type : String) (r : AgentCommandResult) : CommandDb × CommandProc :=
  match d.restoreJob with
  | some job =>
    if isMutableRestoreStatus job.status then
      ({ d with
          restoreJob := some { job with status := deriveRestoreStatus r, resultCommandType := some type }
          restoredFor := t :: d.restoredFor },
        { p with stage := .done })
    else (d, { p with stage := .done })
  | none => (d, { p with stage := .done })

def waitStatement (timeoutMs startTime now : ℕ) : CommandDb × CommandProc :=
  if now - startTime < timeoutMs then
    match d.command with
    | none => (d, { p with stage := .returned .missing })
    | some c => (d, { p with stage := if c.Open then .waiting startTime else .returned (.finished c.result) })
  else timeoutStatement d p now ("Command timed out after " ++ toString timeoutMs ++ "ms") none
    (fun c => .expired (c.status = .pending)) (.expired false)

end Statements

def deliverAct (action : CommandAction) (d : CommandDb) (p : CommandProc) : Option (CommandDb × CommandProc) :=
  match p.stage, action with
  | .start, .exec now => some (claimStatement d p none now (.sending 0) .done)
  | .sending _, .send ok => some (d, { p with stage := if ok then .done else .releasing })
  | .releasing, .exec _ => some (releaseStatement d p .done)
  | _, _ => none

def executeCommandAct (o : ExecuteOptions) (action : CommandAction) (d : CommandDb) (p : CommandProc) :
    Option (CommandDb × CommandProc) :=
  match p.stage, action with
  | .start, .device found connected => some (d, { p with stage := o.precheck found connected })
  | .inserting hasAgent, .exec now =>
    if d.command = none then
      some ({ d with command := some (o.inserted now) },
        { p with stage := if hasAgent && o.dispatchViaWs then .claiming else .awaiting })
    else none
  | .claiming, .exec now => some (claimStatement d p none now (.sending 0) .awaiting)
  | .sending attempt, .send ok =>
    some (d, { p with stage :=
      if ok then .awaiting else if attempt + 1 < SEND_RETRY_ATTEMPTS then .sending (attempt + 1) else .releasing })
  | .releasing, .exec _ => some (releaseStatement d p (if o.interactive then .returned .unreachable else .awaiting))
  | .awaiting, .exec now => some (d, { p with stage := .waiting now })
  | .waiting startTime, .exec now => some (waitStatement d p o.timeoutMs startTime now)
  | .expired wasPending, .exec _ =>
    some (d, { p with stage := .returned (.timedOut wasPending (d.command.bind DeviceCommand.result)) })
  | _, _ => none

def waitAct (timeoutMs : ℕ) (action : CommandAction) (d : CommandDb) (p : CommandProc) :
    Option (CommandDb × CommandProc) :=
  match p.stage, action with
  | .start, .exec now => some (d, { p with stage := .waiting now })
  | .waiting startTime, .exec now => some (waitStatement d p timeoutMs startTime now)
  | .expired wasPending, .exec _ =>
    some (d, { p with stage := .returned (.timedOut wasPending (d.command.bind DeviceCommand.result)) })
  | _, _ => none

/-- The poll selects the command for update, skipping it while another transaction holds it, and claims it in the
same transaction. -/
def pollAct (role : AgentCredentialRole) (action : CommandAction) (d : CommandDb) (p : CommandProc) :
    Option (CommandDb × CommandProc) :=
  match p.stage, action with
  | .start, .exec now => some (claimStatement d p (some role) now .done .done)
  | .start, .skip => some (d, { p with stage := .done })
  | _, _ => none

def propagateTimedOut (job : RestoreJob) : RestoreJob :=
  if isMutableRestoreStatus job.status then { job with status := .failed, resultCommandType := none } else job

def reapAct (action : CommandAction) (d : CommandDb) (p : CommandProc) : Option (CommandDb × CommandProc) :=
  match p.stage, action with
  | .start, .exec now =>
    some (d, { p with stage := ((d.command.bind (staleMessage now)).map CommandStage.reaping).getD .done })
  | .start, .skip => some (d, { p with stage := .done })
  | .reaping errorMsg, .exec now =>
    some (timeoutStatement d p now errorMsg (some "server") (fun _ => .propagating) .done)
  | .propagating, .exec _ =>
    some ({ d with restoreJob := d.restoreJob.map propagateTimedOut }, { p with stage := .done })
  | _, _ => none

/-- A result over the socket. A command that is not found open is taken for one that was sent without a row. -/
def socketResultAct (validate : CriticalValidation) (t : ℕ) (r : AgentCommandResult) (action : CommandAction)
    (d : CommandDb) (p : CommandProc) : Option (CommandDb × CommandProc) :=
  match p.stage, action with
  | .start, .exec _ =>
    some (d, { p with stage :=
      match d.command with
      | some c => if c.targetRole = .agent ∧ c.Open then .submitting c.type else .orphaned
      | none => .orphaned })
  | .submitting type, .exec now => some (resultStatement d p validate .agent now type r)
  | .processing type result, .exec _ =>
    some (if type ∈ RESTORE_COMMAND_TYPES then restoreRead d p fun _ => (type, result)
      else (d, { p with stage := .done }))
  | .orphaned, .exec _ =>
    some (restoreRead d p fun job =>
      let type := inferRestoreCommandType job
      (type, (normalizeCriticalResultIfNeeded validate type r).result))
  | .restoring type result, .exec _ => some (restoreStatement d p t type result)
  | _, _ => none

def restResultAct (validate : CriticalValidation) (t : ℕ) (role : AgentCredentialRole) (r : AgentCommandResult)
    (action : CommandAction) (d : CommandDb) (p : CommandProc) : Option (CommandDb × CommandProc) :=
  match p.stage, action with
  | .start, .exec _ =>
    some (d, { p with stage :=
      match d.command with
      | some c => if c.targetRole = role ∧ c.Open then .submitting c.type else .done
      | none => .done })
  | .submitting type, .exec now => some (resultStatement d p validate role now type r)
  | .processing type result, .exec _ =>
    some (if type ∈ RESTORE_COMMAND_TYPES then restoreRead d p fun _ => (type, result)
      else (d, { p with stage := .done }))
  | .restoring type result, .exec _ => some (restoreStatement d p t type result)
  | _, _ => none

def commandAct (validate : CriticalValidation) (t : ℕ) (action : CommandAction) (d : CommandDb) (p : CommandProc) :
    Option (CommandDb × CommandProc) :=
  match p.call with
  | .deliver => deliverAct action d p
  | .executeCommand options => executeCommandAct options action d p
  | .claimPendingCommandsForDevice role => pollAct role action d p
  | .waitForCommandResult timeoutMs => waitAct timeoutMs action d p
  | .reapStaleDeviceCommands => reapAct action d p
  | .processCommandResult r => socketResultAct validate t r action d p
  | .postCommandResult role r => restResultAct validate t role r action d p

abbrev CommandWorld := World ℕ CommandDb CommandProc

def commandStep (validate : CriticalValidation) : CommandWorld → ℕ × CommandAction → Option CommandWorld :=
  World.step (commandAct validate)

end RemudaRmm.Agents
