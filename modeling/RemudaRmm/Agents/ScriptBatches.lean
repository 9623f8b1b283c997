import Mathlib.Data.List.Sort
import RemudaRmm.Agents.DeviceCommands

/-! A batch of script executions: the results of its commands over the socket (`handleScriptResult`) and by REST, and
the two reapers that concern it. The socket handler and the reaper of executions each write an execution and the
counters in one transaction; a command is updated by a statement of its own. -/
namespace RemudaRmm.Agents
open Foundation List Option

inductive ExecutionStatus where
  | pending
  | queued
  | running
  | completed
  | failed
  | timeout
  | cancelled
  deriving DecidableEq

def ExecutionStatus.isOpen (s : ExecutionStatus) : Bool := s ∈ [.pending, .queued, .running]

structure ScriptExecution where
  scriptId : ℕ
  status : ExecutionStatus
  createdAt : ℕ
  (startedAt completedAt : Option ℕ)
  exitCode : Option ℤ
  (stdout stderr errorMessage : Option String)

/-- An execution with the command whose payload names it and its batch. -/
structure ScriptRun where
  execution : ScriptExecution
  command : DeviceCommand

structure ScriptExecutionBatch where
  (scriptId devicesTargeted devicesCompleted devicesFailed : ℕ)
  status : ExecutionStatus
  completedAt : Option ℕ

/-- The rows of the batch, and the results accepted over the socket that their handler has not yet committed. -/
structure BatchDb where
  batch : ScriptExecutionBatch
  runs : List ScriptRun
  accepted : List (ℕ × AgentCommandResult)

/-- The status of the execution that a result reports; a completed script with an exit code other than zero has
failed. -/
def scriptStatus (r : AgentCommandResult) : ExecutionStatus :=
  match r.status with
  | .completed => if r.exitCode.any (· ≠ 0) then .failed else .completed
  | .timeout => .timeout
  | .failed => .failed

def ScriptExecution.settled (x : ScriptExecution) (now : ℕ) (r : AgentCommandResult) : ScriptExecution :=
  { x with
    status := scriptStatus r
    completedAt := some now
    exitCode := r.exitCode
    stdout := commandResultToStdout r
    stderr := r.stderr
    errorMessage := r.error }

def ScriptExecutionBatch.counted (b : ScriptExecutionBatch) (status : ExecutionStatus) : ScriptExecutionBatch :=
  if status = .completed then { b with devicesCompleted := b.devicesCompleted + 1 }
  else { b with devicesFailed := b.devicesFailed + 1 }

/-- The guarded update of the command; the results of scripts are not validated. -/
def acceptResult (role : AgentCredentialRole) (now : ℕ) (r : AgentCommandResult) (c : DeviceCommand) :
    Option DeviceCommand :=
  if c.targetRole = role ∧ c.Open then
    some (c.settled r.status.stored now (buildStoredCommandResult r (commandResultToStdout r)))
  else none

def BatchDb.setCommand (d : BatchDb) (i : ℕ) (x : ScriptRun) (command : DeviceCommand) : BatchDb :=
  { d with runs := d.runs.set i { x with command } }

/-- The update of the command by `processCommandResult`; a result that is accepted goes on to the handler. -/
def processScriptResult (d : BatchDb) (i : ℕ) (r : AgentCommandResult) (now : ℕ) : BatchDb :=
  match d.runs[i]? with
  | some x =>
    match acceptResult .agent now r x.command with
    | some command => { d.setCommand i x command with accepted := d.accepted ++ [(i, r)] }
    | none => d
  | none => d

/-- The REST route updates the command; it has no handler for scripts. -/
def postScriptResult (d : BatchDb) (i : ℕ) (role : AgentCredentialRole) (r : AgentCommandResult) (now : ℕ) : BatchDb :=
  match d.runs[i]? with
  | some x =>
    match acceptResult role now r x.command with
    | some command => d.setCommand i x command
    | none => d
  | none => d

def handleScriptResult (d : BatchDb) (i : ℕ) (r : AgentCommandResult) (now : ℕ) : BatchDb :=
  match d.runs[i]? with
  | some x =>
    if x.execution.status.isOpen then
      { d with
        runs := d.runs.set i { x with execution := x.execution.settled now r }
        batch := if d.batch.scriptId = x.execution.scriptId then d.batch.counted (scriptStatus r) else d.batch }
    else d
  | none => d

/-- The rows a reaper selects: oldest first, at most `cap` of them. -/
def selectStale (d : BatchDb) (cap : ℕ) (stale : ScriptRun → Bool) (createdAt : ScriptRun → ℕ) : List ℕ :=
  let rows := (List.range d.runs.length).filter fun i => d.runs[i]?.any stale
  (rows.insertionSort fun i j => (d.runs[i]?.elim 0 createdAt) ≤ (d.runs[j]?.elim 0 createdAt)).take cap

def reapCommand (now : ℕ) (d : BatchDb) (i : ℕ) : BatchDb :=
  match d.runs[i]? with
  | some x =>
    match staleMessage now x.command with
    | some errorMsg => d.setCommand i x (x.command.settled .failed now (timeoutResult errorMsg (some "server")))
    | none => d
  | none => d

def reapStaleScriptCommands (d : BatchDb) (now cap : ℕ) : BatchDb :=
  (selectStale d cap (fun x => decide (x.command.Open ∧ x.command.createdAt + SHORTEST_TIMEOUT_MS < now))
    fun x => x.command.createdAt).foldl (reapCommand now) d

def defaultTimeoutMs : ℕ := 300 * 1000 + minutes 5

def ScriptExecution.referenceTime (x : ScriptExecution) : ℕ :=
  if x.status = .running then x.startedAt.getD x.createdAt else x.createdAt

def ScriptExecution.timedOut (x : ScriptExecution) (now : ℕ) : ScriptExecution :=
  { x with
    status := .timeout
    completedAt := some now
    errorMessage := some "Server-side timeout: no response from agent" }

/-- The transaction on the batch: count the failure, and close the batch when every device is accounted for. -/
def ScriptExecutionBatch.failOne (b : ScriptExecutionBatch) (now : ℕ) : ScriptExecutionBatch :=
  let b := b.counted .timeout
  if b.devicesTargeted ≤ b.devicesCompleted + b.devicesFailed then
    { b with status := if 0 < b.devicesFailed then .failed else .completed, completedAt := some now }
  else b

def reapExecution (now : ℕ) (d : BatchDb) (i : ℕ) : BatchDb :=
  match d.runs[i]? with
  | some x =>
    if now < x.execution.referenceTime + defaultTimeoutMs then d
    else if x.execution.status.isOpen then
      { d with
        runs := d.runs.set i { x with execution := x.execution.timedOut now }
        batch := d.batch.failOne now }
    else d
  | none => d

def staleExecutions (d : BatchDb) (queriedAt cap : ℕ) : List ℕ :=
  selectStale d cap
    (fun x => x.execution.status.isOpen && decide (x.execution.createdAt + defaultTimeoutMs < queriedAt))
    fun x => x.execution.createdAt

def reapStaleScriptExecutions (d : BatchDb) (queriedAt now cap : ℕ) : BatchDb :=
  (staleExecutions d queriedAt cap).foldl (reapExecution now) d

/-- A claim or release of a command, a result over the socket or by REST, the commit of the handler of an accepted
result, and a run of either reaper. -/
inductive BatchEvent where
  | claim (i now : ℕ)
  | release (i : ℕ)
  | socketResult (i : ℕ) (r : AgentCommandResult) (now : ℕ)
  | restResult (i : ℕ) (role : AgentCredentialRole) (r : AgentCommandResult) (now : ℕ)
  | handle (k now : ℕ)
  | reapCommands (now cap : ℕ)
  | reapExecutions (queriedAt now cap : ℕ)

def BatchDb.updateCommand (d : BatchDb) (i : ℕ) (guard : DeviceCommand → Bool) (f : DeviceCommand → DeviceCommand) :
    BatchDb :=
  match d.runs[i]? with
  | some x => if guard x.command then d.setCommand i x (f x.command) else d
  | none => d

def batchStep (d : BatchDb) : BatchEvent → Option BatchDb
  | .claim i now => some (d.updateCommand i (·.status = .pending) (·.claimed now))
  | .release i => some (d.updateCommand i (·.status = .sent) (·.released))
  | .socketResult i r now => some (processScriptResult d i r now)
  | .restResult i role r now => some (postScriptResult d i role r now)
  | .handle k now =>
    d.accepted[k]?.map fun p => handleScriptResult { d with accepted := d.accepted.eraseIdx k } p.1 p.2 now
  | .reapCommands now cap => some (reapStaleScriptCommands d now cap)
  | .reapExecutions queriedAt now cap => some (reapStaleScriptExecutions d queriedAt now cap)

def BatchDb.executions (d : BatchDb) : List ScriptExecution := d.runs.map ScriptRun.execution

namespace ScriptExecution

def isCompleted (x : ScriptExecution) : Bool := x.status = .completed

def isFailed (x : ScriptExecution) : Bool := !x.status.isOpen && !x.isCompleted

end ScriptExecution

def BatchDb.Ended (d : BatchDb) : Prop := ∀ x ∈ d.executions, x.status.isOpen = false
  deriving Decidable

def ScriptExecutionBatch.Closed (b : ScriptExecutionBatch) : Prop := b.status = .completed ∨ b.status = .failed
  deriving Decidable

def ScriptRun.timeoutMs (x : ScriptRun) : ℕ := getCommandTimeoutMs x.command.type x.command.timeoutSeconds

/-- Execution `i` was open and has ended as the result says. -/
def EndedBy (d next : BatchDb) (i : ℕ) (r : AgentCommandResult) : Prop :=
  ∃ x y, d.executions[i]? = some x ∧ x.status.isOpen = true ∧ next.executions[i]? = some y ∧ y.status = scriptStatus r

/-- After the step the counters are exact and a batch that has ended is closed; the reaper times an execution out
only when its command has timed out; and a result that was accepted ends its execution, by the commit of its handler
or by the REST route itself. -/
structure ExactStep (d : BatchDb) (e : BatchEvent) (next : BatchDb) : Prop where
  completed : next.batch.devicesCompleted = next.executions.countP ScriptExecution.isCompleted
  failed : next.batch.devicesFailed = next.executions.countP ScriptExecution.isFailed
  closed : next.Ended → next.batch.Closed
  patient : ∀ queriedAt now cap, e = .reapExecutions queriedAt now cap → ∀ (i : ℕ) (x y : ScriptRun), d.runs[i]? = some x →
    x.execution.status.isOpen = true → next.runs[i]? = some y → y.execution.status = .timeout →
    x.execution.referenceTime + x.timeoutMs ≤ now
  socket : ∀ k now i r, e = .handle k now → d.accepted[k]? = some (i, r) → EndedBy d next i r
  rest : ∀ i role r now (x : ScriptRun), e = .restResult i role r now → d.runs[i]? = some x → x.command.targetRole = role →
    x.command.Open → EndedBy d next i r

/-- No REST result is accepted; a handler finds its execution open, and leaves another one open; and an execution
that the reaper selects and finds overdue is overdue by the timeout of its own command. -/
def Agrees (d : BatchDb) : BatchEvent → Prop
  | .restResult i role _ _ => ∀ x, d.runs[i]? = some x → x.command.targetRole = role → ¬x.command.Open
  | .handle k _ => ∀ i r, d.accepted[k]? = some (i, r) →
      (∃ x, d.executions[i]? = some x ∧ x.status.isOpen = true) ∧
        ∃ j y, j ≠ i ∧ d.executions[j]? = some y ∧ y.status.isOpen = true
  | .reapExecutions queriedAt now cap => ∀ i ∈ staleExecutions d queriedAt cap, ∀ x, d.runs[i]? = some x →
      x.execution.referenceTime + defaultTimeoutMs ≤ now → x.execution.referenceTime + x.timeoutMs ≤ now
  | _ => True

/-- What holds of the rows of a batch whatever happens to it. -/
structure Kept (d : BatchDb) : Prop where
  targeted : d.batch.devicesTargeted = d.executions.length
  scripts : ∀ x ∈ d.executions, x.scriptId = d.batch.scriptId
  completed : d.batch.devicesCompleted = d.executions.countP ScriptExecution.isCompleted
  failed : d.batch.devicesFailed = d.executions.countP ScriptExecution.isFailed
  ended : d.batch.Closed → d.Ended
  accepted : ∀ p ∈ d.accepted, p.1 < d.executions.length

theorem countP_isCompleted_add_isFailed (xs : List ScriptExecution) :
    xs.countP ScriptExecution.isCompleted + xs.countP ScriptExecution.isFailed =
      xs.countP fun x => !x.status.isOpen := by
  induction xs with
  | nil => rfl
  | cons x xs ih =>
    have split : (if x.isCompleted then 1 else 0) + (if x.isFailed then 1 else 0) =
        if !x.status.isOpen then 1 else 0 := by
      unfold ScriptExecution.isFailed ScriptExecution.isCompleted
      cases x.status <;> rfl
    simp only [countP_cons]
    omega

section Rows
variable {d d' : BatchDb}
variable {i now : ℕ} {x : ScriptRun} {next : BatchDb} {e : BatchEvent}

theorem Kept.ended_iff (kept : Kept d) :
    d.Ended ↔ d.batch.devicesTargeted ≤ d.batch.devicesCompleted + d.batch.devicesFailed := by
  have bound := countP_le_length (p := fun x : ScriptExecution => !x.status.isOpen) (l := d.executions)
  have all : d.executions.countP (fun x => !x.status.isOpen) = d.executions.length ↔ d.Ended := by
    simp only [countP_eq_length, BatchDb.Ended, Bool.not_eq_true']
  rw [kept.targeted, kept.completed, kept.failed, countP_isCompleted_add_isFailed, ← all]
  omega

theorem getElem?_executions (found : d.runs[i]? = some x) : d.executions[i]? = some x.execution := by
  simp only [BatchDb.executions, getElem?_map, found, map_some]

theorem exists_of_executions {x : ScriptExecution} (found : d.executions[i]? = some x) :
    ∃ run, d.runs[i]? = some run ∧ run.execution = x := by
  simp only [BatchDb.executions, getElem?_map, map_eq_some_iff] at found
  exact found

theorem executions_set (x : ScriptRun) (changed : d'.runs = d.runs.set i x) :
    d'.executions = d.executions.set i x.execution := by
  simp only [BatchDb.executions, changed, map_set]

theorem executions_setCommand (found : d.runs[i]? = some x) (command : DeviceCommand) :
    (d.setCommand i x command).executions = d.executions := by
  rw [executions_set { x with command } rfl]
  obtain ⟨bound, same⟩ := List.getElem?_eq_some_iff.mp (getElem?_executions found)
  rw [← same, set_getElem_self]

theorem Kept.of_same (kept : Kept d) (executions : d'.executions = d.executions) (batch : d'.batch = d.batch)
    (accepted : ∀ p ∈ d'.accepted, p.1 < d.executions.length) : Kept d' where
  targeted := by rw [executions, batch]; exact kept.targeted
  scripts := by rw [executions, batch]; exact kept.scripts
  completed := by rw [executions, batch]; exact kept.completed
  failed := by rw [executions, batch]; exact kept.failed
  ended := by
    rw [BatchDb.Ended, executions, batch]
    exact kept.ended
  accepted := by rw [executions]; exact accepted

theorem countP_set_open {p : ScriptExecution → Bool} {xs : List ScriptExecution} {x : ScriptExecution}
    (found : xs[i]? = some x) (out : p x = false) (y : ScriptExecution) :
    (xs.set i y).countP p = xs.countP p + if p y then 1 else 0 := by
  obtain ⟨bound, rfl⟩ := List.getElem?_eq_some_iff.mp found
  rw [countP_set bound, out]
  rfl

theorem Kept.settle (kept : Kept d) {x y : ScriptExecution} (found : d.executions[i]? = some x)
    (was_open : x.status.isOpen = true) (over_now : y.status.isOpen = false) (script : y.scriptId = x.scriptId)
    (executions : d'.executions = d.executions.set i y) (accepted : ∀ p ∈ d'.accepted, p ∈ d.accepted)
    (targeted : d'.batch.devicesTargeted = d.batch.devicesTargeted) (same : d'.batch.scriptId = d.batch.scriptId)
    (completed : d'.batch.devicesCompleted = (d.batch.counted y.status).devicesCompleted)
    (failed : d'.batch.devicesFailed = (d.batch.counted y.status).devicesFailed)
    (ended : d'.batch.Closed → d'.Ended) : Kept d' := by
  have length : d'.executions.length = d.executions.length := by rw [executions, length_set]
  have uncounted : x.isCompleted = false ∧ x.isFailed = false := by
    unfold ScriptExecution.isFailed ScriptExecution.isCompleted
    cases status : x.status <;> rw [status] at was_open <;> first | exact ⟨rfl, rfl⟩ | cases was_open
  refine ⟨?_, ?_, ?_, ?_, ended, ?_⟩
  · rw [targeted, length, kept.targeted]
  · intro z member
    rw [same]
    rw [executions] at member
    rcases mem_or_eq_of_mem_set member with old | rfl
    · exact kept.scripts z old
    · rw [script]
      exact kept.scripts x (mem_of_getElem? found)
  · rw [completed, executions, countP_set_open found uncounted.1, ← kept.completed]
    unfold ScriptExecutionBatch.counted ScriptExecution.isCompleted
    by_cases done : y.status = .completed <;> simp [done]
  · rw [failed, executions, countP_set_open found uncounted.2, ← kept.failed]
    unfold ScriptExecutionBatch.counted ScriptExecution.isFailed ScriptExecution.isCompleted
    rw [over_now]
    by_cases done : y.status = .completed <;> simp [done]
  · intro p member
    rw [length]
    exact kept.accepted p (accepted p member)

theorem not_ended_of_open {x : ScriptExecution} (found : d.executions[i]? = some x)
    (was_open : x.status.isOpen = true) : ¬d.Ended := by
  intro ended
  rw [ended x (mem_of_getElem? found)] at was_open
  cases was_open

theorem isOpen_scriptStatus (r : AgentCommandResult) : (scriptStatus r).isOpen = false := by
  unfold scriptStatus
  split
  · split_ifs <;> rfl
  · rfl
  · rfl

theorem counted_scriptId (b : ScriptExecutionBatch) (status : ExecutionStatus) :
    (b.counted status).scriptId = b.scriptId ∧ (b.counted status).devicesTargeted = b.devicesTargeted ∧
      (b.counted status).status = b.status := by
  unfold ScriptExecutionBatch.counted
  split_ifs <;> exact ⟨rfl, rfl, rfl⟩

theorem handleScriptResult_open (kept : Kept d) (found : d.runs[i]? = some x)
    (was_open : x.execution.status.isOpen = true) (r : AgentCommandResult) (now : ℕ) :
    handleScriptResult d i r now =
      { d with
        runs := d.runs.set i { x with execution := x.execution.settled now r }
        batch := d.batch.counted (scriptStatus r) } := by
  have script := kept.scripts x.execution (mem_of_getElem? (getElem?_executions found))
  simp only [handleScriptResult, found, was_open, script, if_true]

theorem handleScriptResult_ended (found : d.runs[i]? = some x)
    (ended : x.execution.status.isOpen = false) (r : AgentCommandResult) (now : ℕ) :
    handleScriptResult d i r now = d := by
  simp only [handleScriptResult, found, ended, Bool.false_eq_true, if_false]

theorem Kept.handle (kept : Kept d) (i : ℕ) (r : AgentCommandResult) (now : ℕ) :
    Kept (handleScriptResult d i r now) := by
  cases found : d.runs[i]? with
  | none =>
    simp only [handleScriptResult, found]
    exact kept
  | some x =>
    cases was_open : x.execution.status.isOpen with
    | false =>
      rw [handleScriptResult_ended found was_open]
      exact kept
    | true =>
      rw [handleScriptResult_open kept found was_open]
      obtain ⟨script, targeted, status⟩ := counted_scriptId d.batch (scriptStatus r)
      refine kept.settle (y := x.execution.settled now r) (getElem?_executions found) was_open
        (isOpen_scriptStatus r) rfl (executions_set { x with execution := x.execution.settled now r } rfl)
        (fun p member => member) targeted script rfl rfl fun closed => ?_
      have before : d.batch.Closed := by rwa [ScriptExecutionBatch.Closed, status] at closed
      exact absurd (kept.ended before) (not_ended_of_open (getElem?_executions found) was_open)

def ScriptRun.Due (x : ScriptRun) (now : ℕ) : Prop :=
  x.execution.status.isOpen = true ∧ x.execution.referenceTime + defaultTimeoutMs ≤ now
  deriving Decidable

def ScriptRun.reaped (x : ScriptRun) (now : ℕ) : ScriptRun := { x with execution := x.execution.timedOut now }

theorem reapExecution_due (found : d.runs[i]? = some x) (due : x.Due now) :
    reapExecution now d i = { d with runs := d.runs.set i (x.reaped now), batch := d.batch.failOne now } := by
  simp only [reapExecution, found, due.1, if_neg (Nat.not_lt.mpr due.2), if_true]
  rfl

theorem reapExecution_rest (rest : ∀ x, d.runs[i]? = some x → ¬x.Due now) : reapExecution now d i = d := by
  unfold reapExecution
  split
  case h_1 x found =>
    have rest := rest x found
    split_ifs with early was_open
    · rfl
    · exact absurd ⟨was_open, Nat.not_lt.mp early⟩ rest
    · rfl
  case h_2 => rfl

theorem failOne_counts (b : ScriptExecutionBatch) (now : ℕ) :
    (b.failOne now).scriptId = b.scriptId ∧ (b.failOne now).devicesTargeted = b.devicesTargeted ∧
      (b.failOne now).devicesCompleted = (b.counted .timeout).devicesCompleted ∧
      (b.failOne now).devicesFailed = (b.counted .timeout).devicesFailed := by
  unfold ScriptExecutionBatch.failOne
  dsimp only
  split_ifs <;> exact ⟨rfl, rfl, rfl, rfl⟩

theorem failOne_closed_iff {b : ScriptExecutionBatch} (now : ℕ) (before : ¬b.Closed) :
    (b.failOne now).Closed ↔
      (b.failOne now).devicesTargeted ≤ (b.failOne now).devicesCompleted + (b.failOne now).devicesFailed := by
  unfold ScriptExecutionBatch.failOne
  dsimp only
  split_ifs with full
  · exact ⟨fun _ => full, fun _ => .inr rfl⟩
  · exact ⟨fun _ => full, fun _ => .inl rfl⟩
  · exact ⟨fun closed => absurd closed before, fun reached => absurd reached full⟩

/-- The rows agree, and a batch that has ended is closed. -/
structure Books (d : BatchDb) : Prop where
  kept : Kept d
  closed : d.Ended → d.batch.Closed

theorem Books.reapExecution (books : Books d) (now i : ℕ) : Books (reapExecution now d i) := by
  by_cases due : ∃ x, d.runs[i]? = some x ∧ x.Due now
  · obtain ⟨x, found, due⟩ := due
    have execution := getElem?_executions found
    have before : ¬d.batch.Closed := fun closed =>
      not_ended_of_open execution due.1 (books.kept.ended closed)
    obtain ⟨script, targeted, completed, failed⟩ := failOne_counts d.batch now
    have full := failOne_closed_iff now before
    rw [reapExecution_due found due]
    have rows : (d.runs.set i (x.reaped now)).map ScriptRun.execution = d.executions.set i (x.execution.timedOut now) :=
      map_set ..
    -- the counters add up exactly when every execution has ended, also before the status is known to be right
    have draft : Kept { d with
        runs := d.runs.set i (x.reaped now)
        batch := { d.batch.failOne now with status := d.batch.status } } :=
      books.kept.settle (y := x.execution.timedOut now) execution due.1 rfl rfl rows (fun p member => member) targeted
        script completed failed fun closed => absurd closed before
    have ended : BatchDb.Ended { d with runs := d.runs.set i (x.reaped now), batch := d.batch.failOne now } ↔
        (d.batch.failOne now).Closed := draft.ended_iff.trans full.symm
    refine ⟨?_, ended.mp⟩
    exact books.kept.settle (y := x.execution.timedOut now) execution due.1 rfl rfl rows (fun p member => member)
      targeted script completed failed ended.mpr
  · rw [reapExecution_rest fun x found overdue => due ⟨x, found, overdue⟩]
    exact books

theorem Books.reapExecutions (books : Books d) (now : ℕ) (ids : List ℕ) :
    Books (ids.foldl (RemudaRmm.Agents.reapExecution now) d) := by
  induction ids generalizing d with
  | nil => exact books
  | cons i ids ih => exact ih (books.reapExecution now i)

theorem getElem?_reapExecution (now : ℕ) (found : d.runs[i]? = some x) (j : ℕ) :
    (reapExecution now d j).runs[i]? = some (if i = j ∧ x.Due now then x.reaped now else x) := by
  by_cases due : ∃ y, d.runs[j]? = some y ∧ y.Due now
  · obtain ⟨y, row, due⟩ := due
    rw [reapExecution_due row due]
    by_cases same : i = j
    · subst same
      cases found.symm.trans row
      rw [if_pos ⟨rfl, due⟩]
      exact getElem?_set_self (List.getElem?_eq_some_iff.mp found).1
    · rw [if_neg fun both => same both.1]
      exact (getElem?_set_ne (Ne.symm same)).trans found
  · rw [reapExecution_rest fun y row overdue => due ⟨y, row, overdue⟩]
    rw [if_neg, found]
    rintro ⟨rfl, overdue⟩
    exact due ⟨x, found, overdue⟩

theorem not_due_reaped (x : ScriptRun) (now : ℕ) : ¬(x.reaped now).Due now := fun due => Bool.false_ne_true due.1

theorem getElem?_reapExecutions (now : ℕ) (found : d.runs[i]? = some x) (ids : List ℕ) :
    (ids.foldl (reapExecution now) d).runs[i]? = some (if i ∈ ids ∧ x.Due now then x.reaped now else x) := by
  induction ids generalizing d x with
  | nil =>
    rw [if_neg fun both => not_mem_nil both.1]
    exact found
  | cons j ids ih =>
    have first := getElem?_reapExecution now found j
    by_cases hit : i = j ∧ x.Due now
    · rw [if_pos hit] at first
      rw [foldl_cons, ih first, if_neg fun both => not_due_reaped x now both.2,
        if_pos ⟨mem_cons.mpr (.inl hit.1), hit.2⟩]
    · rw [if_neg hit] at first
      have same : i ∈ j :: ids ∧ x.Due now ↔ i ∈ ids ∧ x.Due now := by
        rw [mem_cons]
        exact ⟨fun both => ⟨both.1.resolve_left fun here => hit ⟨here, both.2⟩, both.2⟩,
          fun both => ⟨.inr both.1, both.2⟩⟩
      rw [foldl_cons, ih first]
      simp only [same]

theorem Books.of_same (books : Books d) (executions : d'.executions = d.executions) (batch : d'.batch = d.batch)
    (accepted : ∀ p ∈ d'.accepted, p.1 < d.executions.length) : Books d' := by
  refine ⟨books.kept.of_same executions batch accepted, ?_⟩
  rw [BatchDb.Ended, executions, batch]
  exact books.closed

theorem Books.setCommand (books : Books d) (found : d.runs[i]? = some x)
    (command : DeviceCommand) : Books (d.setCommand i x command) :=
  books.of_same (executions_setCommand found command) rfl books.kept.accepted

theorem Books.updateCommand (books : Books d) (i : ℕ) (guard : DeviceCommand → Bool)
    (f : DeviceCommand → DeviceCommand) : Books (d.updateCommand i guard f) := by
  unfold BatchDb.updateCommand
  split
  case h_1 x found =>
    split_ifs
    · exact books.setCommand found _
    · exact books
  case h_2 => exact books

theorem Books.reapCommands (books : Books d) (now : ℕ) (ids : List ℕ) : Books (ids.foldl (reapCommand now) d) := by
  induction ids generalizing d with
  | nil => exact books
  | cons i ids ih =>
    apply ih
    unfold reapCommand
    split
    case h_1 x found =>
      split
      · exact books.setCommand found _
      · exact books
    case h_2 => exact books

theorem Books.processScriptResult (books : Books d) (i : ℕ) (r : AgentCommandResult) (now : ℕ) :
    Books (processScriptResult d i r now) := by
  unfold RemudaRmm.Agents.processScriptResult
  split
  case h_1 x found =>
    split
    case h_1 command accepted =>
      refine books.of_same (executions_setCommand found command) rfl fun p member => ?_
      rcases mem_append.mp member with old | new
      · exact books.kept.accepted p old
      · obtain rfl := mem_singleton.mp new
        exact (List.getElem?_eq_some_iff.mp (getElem?_executions found)).1
    case h_2 => exact books
  case h_2 => exact books

theorem postScriptResult_same (d : BatchDb) (i : ℕ) (role : AgentCredentialRole) (r : AgentCommandResult) (now : ℕ) :
    (postScriptResult d i role r now).executions = d.executions ∧ (postScriptResult d i role r now).batch = d.batch ∧
      (postScriptResult d i role r now).accepted = d.accepted := by
  unfold postScriptResult
  split
  case h_1 x found =>
    split
    · exact ⟨executions_setCommand found _, rfl, rfl⟩
    · exact ⟨rfl, rfl, rfl⟩
  case h_2 => exact ⟨rfl, rfl, rfl⟩

theorem Kept.eraseAccepted (kept : Kept d) (k : ℕ) : Kept { d with accepted := d.accepted.eraseIdx k } :=
  kept.of_same rfl rfl fun p member => kept.accepted p (mem_of_mem_eraseIdx member)

theorem Books.exactStep (books : Books next)
    (patient : ∀ queriedAt now cap, e = .reapExecutions queriedAt now cap → ∀ (i : ℕ) (x y : ScriptRun),
      d.runs[i]? = some x → x.execution.status.isOpen = true → next.runs[i]? = some y →
      y.execution.status = .timeout → x.execution.referenceTime + x.timeoutMs ≤ now)
    (socket : ∀ k now i r, e = .handle k now → d.accepted[k]? = some (i, r) → EndedBy d next i r)
    (rest : ∀ i role r now (x : ScriptRun), e = .restResult i role r now → d.runs[i]? = some x →
      x.command.targetRole = role → x.command.Open → EndedBy d next i r) : ExactStep d e next :=
  ⟨books.kept.completed, books.kept.failed, books.closed, patient, socket, rest⟩

theorem Books.exactStep_of (books : Books next)
    (reaper : ∀ queriedAt now cap, e ≠ .reapExecutions queriedAt now cap) (handler : ∀ k now, e ≠ .handle k now)
    (route : ∀ i role r now, e ≠ .restResult i role r now) : ExactStep d e next := by
  refine books.exactStep ?_ ?_ ?_
  · intro queriedAt now cap same
    exact absurd same (reaper queriedAt now cap)
  · intro k now i r same
    exact absurd same (handler k now)
  · intro i role r now x same
    exact absurd same (route i role r now)

theorem handle_open (kept : Kept d) {x : ScriptExecution} (found : d.executions[i]? = some x)
    (was_open : x.status.isOpen = true) (r : AgentCommandResult) (now : ℕ) :
    (handleScriptResult d i r now).executions = d.executions.set i (x.settled now r) ∧
      ((handleScriptResult d i r now).batch.Closed ↔ d.batch.Closed) := by
  obtain ⟨run, row, rfl⟩ := exists_of_executions found
  rw [handleScriptResult_open kept row was_open]
  refine ⟨executions_set { run with execution := run.execution.settled now r } rfl, ?_⟩
  unfold ScriptExecutionBatch.Closed
  rw [(counted_scriptId d.batch (scriptStatus r)).2.2]

theorem ended_set_iff {x y : ScriptExecution} (found : d.executions[i]? = some x)
    (over_now : y.status.isOpen = false) (rows : d'.executions = d.executions.set i y) :
    d'.Ended ↔ ¬∃ (j : ℕ) (z : ScriptExecution), j ≠ i ∧ d.executions[j]? = some z ∧ z.status.isOpen = true := by
  have bound := (List.getElem?_eq_some_iff.mp found).1
  rw [BatchDb.Ended, rows]
  constructor
  · rintro ended ⟨j, z, distinct, other, was_open⟩
    have member : z ∈ d.executions.set i y := by
      apply mem_of_getElem? (i := j)
      rw [getElem?_set_ne (Ne.symm distinct), other]
    rw [ended z member] at was_open
    cases was_open
  · intro none_left z member
    obtain ⟨j, row⟩ := mem_iff_getElem?.mp member
    by_cases same : j = i
    · subst same
      rw [getElem?_set_self bound] at row
      cases row
      exact over_now
    · rw [getElem?_set_ne (Ne.symm same)] at row
      by_contra was_open
      exact none_left ⟨j, z, same, row, (Bool.not_eq_false _).mp was_open⟩

theorem exact_handle_iff (books : Books d) {k : ℕ} {r : AgentCommandResult} (listed : d.accepted[k]? = some (i, r)) :
    ExactStep d (.handle k now) (handleScriptResult { d with accepted := d.accepted.eraseIdx k } i r now) ↔
      Agrees d (.handle k now) := by
  have kept := books.kept.eraseAccepted k
  constructor
  · intro exact_step j s same
    obtain ⟨rfl, rfl⟩ := Prod.mk.inj (some.inj (listed.symm.trans same))
    obtain ⟨x, y, found, was_open, -, -⟩ := exact_step.socket k now i r rfl listed
    obtain ⟨rows, status⟩ := handle_open kept found was_open r now
    refine ⟨⟨x, found, was_open⟩, ?_⟩
    by_contra none_left
    have ended := (ended_set_iff found (isOpen_scriptStatus r) rows).mpr none_left
    have closed := status.mp (exact_step.closed ended)
    exact not_ended_of_open found was_open (books.kept.ended closed)
  · intro agrees
    obtain ⟨⟨x, found, was_open⟩, another⟩ := agrees i r listed
    obtain ⟨rows, -⟩ := handle_open kept found was_open r now
    have later : Books (handleScriptResult { d with accepted := d.accepted.eraseIdx k } i r now) :=
      ⟨kept.handle i r now, fun ended =>
        absurd another ((ended_set_iff found (isOpen_scriptStatus r) rows).mp ended)⟩
    refine later.exactStep ?_ ?_ ?_
    · intro queriedAt now cap same
      cases same
    · intro k' now' j s same row
      obtain ⟨rfl, rfl⟩ := BatchEvent.handle.inj same
      obtain ⟨rfl, rfl⟩ := Prod.mk.inj (some.inj (listed.symm.trans row))
      refine ⟨x, x.settled now r, found, was_open, ?_, rfl⟩
      rw [rows]
      exact getElem?_set_self (List.getElem?_eq_some_iff.mp found).1
    · intro i role r now x same
      cases same

theorem exact_rest_iff (books : Books d) (i : ℕ) (role : AgentCredentialRole) (r : AgentCommandResult) (now : ℕ) :
    ExactStep d (.restResult i role r now) (postScriptResult d i role r now) ↔ Agrees d (.restResult i role r now) := by
  obtain ⟨executions, batch, accepted⟩ := postScriptResult_same d i role r now
  constructor
  · intro exact_step x row matches_role accepted
    obtain ⟨before, after, found, was_open, later, status⟩ :=
      exact_step.rest i role r now x rfl row matches_role accepted
    rw [executions] at later
    cases found.symm.trans later
    rw [status, isOpen_scriptStatus] at was_open
    cases was_open
  · intro agrees
    have later : Books (postScriptResult d i role r now) :=
      books.of_same executions batch (by rw [accepted]; exact books.kept.accepted)
    refine later.exactStep ?_ ?_ ?_
    · intro queriedAt now cap same
      cases same
    · intro k now i r same
      cases same
    · intro i' role' r' now' x same row matches_role accepted
      obtain ⟨rfl, rfl, rfl, rfl⟩ := BatchEvent.restResult.inj same
      exact absurd accepted (agrees x row matches_role)

theorem mem_selectStale {cap : ℕ} {stale : ScriptRun → Bool} {createdAt : ScriptRun → ℕ}
    (listed : i ∈ selectStale d cap stale createdAt) : d.runs[i]?.any stale = true := by
  have member := mem_of_mem_take listed
  rw [mem_insertionSort, mem_filter] at member
  exact member.2

theorem exact_reap_iff (books : Books d) (queriedAt now cap : ℕ) :
    ExactStep d (.reapExecutions queriedAt now cap) (reapStaleScriptExecutions d queriedAt now cap) ↔
      Agrees d (.reapExecutions queriedAt now cap) := by
  constructor
  · intro exact_step i listed x row overdue
    have was_open : x.execution.status.isOpen = true := by
      have stale := mem_selectStale listed
      rw [row, any_some, Bool.and_eq_true] at stale
      exact stale.1
    have after := getElem?_reapExecutions now row (staleExecutions d queriedAt cap)
    rw [if_pos ⟨listed, was_open, overdue⟩] at after
    exact exact_step.patient queriedAt now cap rfl i x _ row was_open after rfl
  · intro agrees
    have later : Books (reapStaleScriptExecutions d queriedAt now cap) := books.reapExecutions now _
    refine later.exactStep ?_ ?_ ?_
    · intro queriedAt' now' cap' same i x y row was_open after timed_out
      obtain ⟨rfl, rfl, rfl⟩ := BatchEvent.reapExecutions.inj same
      rw [reapStaleScriptExecutions, getElem?_reapExecutions _ row] at after
      split_ifs at after with hit
      · exact agrees i hit.1 x row hit.2.2
      · cases after
        rw [timed_out] at was_open
        cases was_open
    · intro k now i r same
      cases same
    · intro i role r now x same
      cases same

theorem exact_iff_agrees (books : Books d) (e : BatchEvent) :
    (∀ next, batchStep d e = some next → ExactStep d e next) ↔ Agrees d e := by
  cases e with
  | handle k now =>
    cases listed : d.accepted[k]? with
    | none =>
      refine ⟨fun _ i r row => ?_, fun _ next stepped => ?_⟩
      · rw [listed] at row
        cases row
      · simp only [batchStep, listed, map_none] at stepped
        cases stepped
    | some p =>
      have same : batchStep d (.handle k now) =
          some (handleScriptResult { d with accepted := d.accepted.eraseIdx k } p.1 p.2 now) := by
        simp only [batchStep, listed, map_some]
      rw [same, ← exact_handle_iff books listed]
      exact ⟨fun all => all _ rfl, fun once next stepped => some.inj stepped ▸ once⟩
  | restResult i role r now =>
    rw [← exact_rest_iff books]
    exact ⟨fun all => all _ rfl, fun once next stepped => some.inj stepped ▸ once⟩
  | reapExecutions queriedAt now cap =>
    rw [← exact_reap_iff books]
    exact ⟨fun all => all _ rfl, fun once next stepped => some.inj stepped ▸ once⟩
  | claim i now | release i =>
    refine ⟨fun _ => trivial, fun _ next stepped => ?_⟩
    cases stepped
    exact (books.updateCommand i _ _).exactStep_of (by simp) (by simp) (by simp)
  | socketResult i r now =>
    refine ⟨fun _ => trivial, fun _ next stepped => ?_⟩
    cases stepped
    exact (books.processScriptResult i r now).exactStep_of (by simp) (by simp) (by simp)
  | reapCommands now cap =>
    refine ⟨fun _ => trivial, fun _ next stepped => ?_⟩
    cases stepped
    exact (books.reapCommands now _).exactStep_of (by simp) (by simp) (by simp)

theorem Books.kept_step (books : Books d) (stepped : batchStep d e = some next) : Kept next := by
  cases e with
  | claim i now | release i =>
    cases stepped
    exact (books.updateCommand i _ _).kept
  | socketResult i r now =>
    cases stepped
    exact (books.processScriptResult i r now).kept
  | restResult i role r now =>
    cases stepped
    obtain ⟨executions, batch, accepted⟩ := postScriptResult_same d i role r now
    exact books.kept.of_same executions batch (by rw [accepted]; exact books.kept.accepted)
  | handle k now =>
    obtain ⟨p, -, rfl⟩ := map_eq_some_iff.mp stepped
    exact (books.kept.eraseAccepted k).handle p.1 p.2 now
  | reapCommands now cap =>
    cases stepped
    exact (books.reapCommands now _).kept
  | reapExecutions queriedAt now cap =>
    cases stepped
    exact (books.reapExecutions now _).kept

end Rows

/-- A batch as it is created: several devices, an open execution and a script command for each. -/
structure FreshBatch (d : BatchDb) : Prop where
  several : 1 < d.runs.length
  targeted : d.batch.devicesTargeted = d.runs.length
  uncounted : d.batch.devicesCompleted = 0 ∧ d.batch.devicesFailed = 0
  queued : d.batch.status = .queued
  opened : ∀ x ∈ d.runs, x.execution.status.isOpen = true
  scripts : ∀ x ∈ d.runs, x.execution.scriptId = d.batch.scriptId ∧ x.command.type = "script"
  accepted : d.accepted = []

theorem FreshBatch.books {d : BatchDb} (fresh : FreshBatch d) : Books d := by
  have opened : ∀ x ∈ d.executions, x.status.isOpen = true := by
    intro x member
    obtain ⟨run, listed, rfl⟩ := List.mem_map.mp member
    exact fresh.opened run listed
  have queued : ¬d.batch.Closed := by
    rw [ScriptExecutionBatch.Closed, fresh.queued]
    decide
  refine ⟨⟨?_, ?_, ?_, ?_, fun closed => absurd closed queued, ?_⟩, fun ended => ?_⟩
  · rw [fresh.targeted, BatchDb.executions, length_map]
  · intro x member
    obtain ⟨run, listed, rfl⟩ := List.mem_map.mp member
    exact (fresh.scripts run listed).1
  · rw [fresh.uncounted.1, eq_comm, countP_eq_zero]
    intro x member completed
    have was_open := opened x member
    rw [of_decide_eq_true completed] at was_open
    cases was_open
  · rw [fresh.uncounted.2, eq_comm, countP_eq_zero]
    intro x member failed
    rw [ScriptExecution.isFailed, opened x member] at failed
    cases failed
  · rw [fresh.accepted]
    exact fun p member => absurd member not_mem_nil
  · have bound := fresh.several
    have member : (d.runs.get ⟨0, by omega⟩).execution ∈ d.executions :=
      List.mem_map.mpr ⟨_, List.get_mem _ _, rfl⟩
    have still := opened _ member
    rw [ended _ member] at still
    cases still

/-- The books of a batch are exact throughout a run exactly when every step of the run agrees. -/
theorem batch_exact_iff {d : BatchDb} (fresh : FreshBatch d) (es : List BatchEvent) :
    Meets batchStep (fun d e => ∀ next, batchStep d e = some next → ExactStep d e next) d es ↔
      Meets batchStep Agrees d es := by
  refine meets_congr (fun d e next books exact_step stepped => ?_) (fun d e books => exact_iff_agrees books e)
    fresh.books
  exact ⟨books.kept_step stepped, (exact_step next stepped).closed⟩

def scriptRun (timeoutSeconds : ℕ) : ScriptRun where
  execution := ⟨7, .running, 0, some 0, none, none, none, none, none⟩
  command := ⟨"script", some timeoutSeconds, .agent, 0, .sent, some 0, none, none⟩

def twoDevices (timeoutSeconds : ℕ) : BatchDb :=
  ⟨⟨7, 2, 0, 0, .queued, none⟩, [scriptRun timeoutSeconds, scriptRun timeoutSeconds], []⟩

theorem freshBatch_twoDevices (timeoutSeconds : ℕ) : FreshBatch (twoDevices timeoutSeconds) := by
  have both : ∀ x ∈ (twoDevices timeoutSeconds).runs, x = scriptRun timeoutSeconds := by
    intro x member
    simpa [twoDevices] using member
  refine ⟨Nat.lt_add_one 1, rfl, ⟨rfl, rfl⟩, rfl, fun x member => ?_, fun x member => ?_, rfl⟩
  · rw [both x member]
    rfl
  · rw [both x member]
    exact ⟨rfl, rfl⟩

def succeeded : AgentCommandResult := ⟨.completed, some 0, some "ok", none, none, none, none, none⟩

/-- A device answers over the socket, and the handler commits. -/
def answered (i : ℕ) : List BatchEvent := [.socketResult i succeeded 1000, .handle 0 1001]

/-- One device answers and the other is reaped after ten minutes. -/
theorem batch_exact_reaped :
    Meets batchStep (fun d e => ∀ next, batchStep d e = some next → ExactStep d e next) (twoDevices 300)
      (answered 0 ++ [.reapExecutions 600002 600002 5000]) := by
  refine (batch_exact_iff (freshBatch_twoDevices 300) _).mpr ?_
  refine .cons trivial rfl (.cons (fun i r row => ?_) rfl ?_)
  · cases row
    exact ⟨⟨_, rfl, rfl⟩, 1, _, Nat.one_ne_zero, rfl, rfl⟩
  refine ⟨fun i listed x row overdue => ?_, fun _ _ => trivial⟩
  have limit : x.timeoutMs = defaultTimeoutMs := by
    match i, row with
    | 0, row =>
      cases row
      rfl
    | 1, row =>
      cases row
      rfl
  rw [limit]
  exact overdue

/-- A batch that the socket has ended is never closed, a script that may run for an hour is reaped after ten
minutes, and a result by REST leaves its execution running. -/
theorem batch_inexact :
    ¬Meets batchStep (fun d e => ∀ next, batchStep d e = some next → ExactStep d e next) (twoDevices 300)
        (answered 0 ++ answered 1) ∧
      ¬Meets batchStep (fun d e => ∀ next, batchStep d e = some next → ExactStep d e next) (twoDevices 3600)
        [.reapExecutions 600002 600002 5000] ∧
      ¬Meets batchStep (fun d e => ∀ next, batchStep d e = some next → ExactStep d e next) (twoDevices 300)
        [.restResult 0 .agent succeeded 1000] := by
  refine ⟨fun meets => ?_, fun meets => ?_, fun meets => ?_⟩
  · have last := (meets.2 _ rfl).2 _ rfl
    have closed := ((last.2 _ rfl).1 _ rfl).closed (by decide)
    exact absurd closed (by decide)
  · have early := (meets.1 _ rfl).patient 600002 600002 5000 rfl 0 _ _ rfl rfl rfl rfl
    exact absurd early (by decide)
  · obtain ⟨x, y, found, was_open, later, status⟩ :=
      (meets.1 _ rfl).rest 0 .agent succeeded 1000 _ rfl rfl rfl (.inr rfl)
    cases later
    cases status

end RemudaRmm.Agents
