import RemudaRmm.Recovery.DrInterleaving

/-! Runs of one disaster-recovery execution: what each process holds at every stage, that commands are queued once and
in the order of the plan, and when an execution that has ended stays so. -/
namespace RemudaRmm.Recovery
open Foundation List Function Row DrDb DrProcess
open Agents (CommandStatus ResultStatus)

section Drafts
variable {γ κ : Type*}

/-- The version of the execution that a request holds at a stage. -/
inductive RequestDraft (row : Row DrProcess (DrExecution γ κ)) (n : ℕ) : DrStage γ κ → Prop
  | idle (idle : ∀ v, row.held ≠ some (.request n, v)) : RequestDraft row n .idle
  | finished (idle : ∀ v, row.held ≠ some (.request n, v)) : RequestDraft row n .finished
  | aborts (idle : ∀ v, row.held ≠ some (.request n, v)) : RequestDraft row n .abort
  | handles {groupId : γ} {deviceId : κ} {status : DrStatus} (idle : ∀ v, row.held ≠ some (.request n, v))
      (begun : row.committed.status ≠ .pending) : RequestDraft row n (.handleResult groupId deviceId status)
  | settles {verdict : DrExecutionStatus} {groupResults : List (GroupResult γ κ)}
      (held : row.held = some (.request n,
        { row.committed with results := { row.committed.results with groupResults } }))
      (begun : row.committed.status ≠ .pending) : RequestDraft row n (.settle verdict)
  | merged {groupResults : List (GroupResult γ κ)}
      (held : row.held = some (.request n,
        { row.committed with results := { row.committed.results with groupResults } })) : RequestDraft row n .ending
  | aborted (held : row.held = some (.request n, { row.committed with status := .aborted })) :
      RequestDraft row n .ending

/-- What the reconcile has read and written at a stage. -/
inductive ReconcileDraft (groups : List (DrPlanGroup γ κ)) (db : DrDb γ κ) : DrStage γ κ → Prop
  | idle (unwritten : ∀ v, db.execution.held ≠ some (.reconcile, v))
      (uninserted : ∀ i v, (db.commands i).held ≠ some (.reconcile, v)) : ReconcileDraft groups db .idle
  | reads {current : DrExecutionResults γ κ} (unwritten : ∀ v, db.execution.held ≠ some (.reconcile, v))
      (uninserted : ∀ i v, (db.commands i).held ≠ some (.reconcile, v))
      (same : current.queuedCommands = db.execution.committed.results.queuedCommands) :
      ReconcileDraft groups db (.readCommands false current)
  | dispatches {commandMap : CommandMap} {group : DrPlanGroup γ κ} {rest : List κ} {results : DrExecutionResults γ κ}
      (unwritten : ∀ v, db.execution.held ≠ some (.reconcile, v))
      (sound : Sound groups results.queuedCommands (db.view .reconcile)) (member : group ∈ groups)
      (before : ∀ h ∈ groups, h.Before group → h.Done results.queuedCommands (statuses (db.view .reconcile)))
      (devices : rest ⊆ group.devices) (unrepeated : rest.Nodup)
      (unqueued : ∀ d ∈ rest, ∀ q ∈ results.queuedCommands, ¬(q.groupId = group.id ∧ q.deviceId = d)) :
      ReconcileDraft groups db (.dispatch false commandMap group rest results)
  | writes {status : DrExecutionStatus} {results : DrExecutionResults γ κ}
      (unwritten : ∀ v, db.execution.held ≠ some (.reconcile, v))
      (sound : Sound groups results.queuedCommands (db.view .reconcile)) (begun : status ≠ .pending) :
      ReconcileDraft groups db (.write status results)
  | ends {status : DrExecutionStatus} {results : DrExecutionResults γ κ}
      (held : db.execution.held = some (.reconcile, ⟨status, results⟩))
      (sound : Sound groups results.queuedCommands (db.view .reconcile)) (begun : status ≠ .pending) :
      ReconcileDraft groups db .ending

/-- The execution, its commands and its processes, at any time of a run. -/
structure DrLaw (groups : List (DrPlanGroup γ κ)) (w : DrWorld γ κ) : Prop where
  sound : Sound groups w.db.execution.committed.results.queuedCommands fun i => (w.db.commands i).committed
  fresh : ∀ i, w.db.nextCommand ≤ i → w.db.commands i = Row.unheld none
  begun : w.db.execution.committed.status = .pending → w.db.execution.committed.results.queuedCommands = []
  ended : w.db.ended = true ↔ w.db.execution.committed.status.Terminal
  inserted : ∀ i n v, (w.db.commands i).held ≠ some (.request n, v)
  drawn : ∀ i v, (w.db.commands i).held = some (.reconcile, v) → (w.db.commands i).committed = none
  reconcile : ReconcileDraft groups w.db (w.proc .reconcile)
  requests : ∀ n, RequestDraft w.db.execution n (w.proc (.request n))

variable {groups : List (DrPlanGroup γ κ)} {row later : Row DrProcess (DrExecution γ κ)} {db next : DrDb γ κ}
  {stage : DrStage γ κ} {n : ℕ}

theorem RequestDraft.frame (draft : RequestDraft row n stage) (undisturbed : row.Undisturbed (.request n) later)
    (begun : row.committed.status ≠ .pending → later.committed.status ≠ .pending) : RequestDraft later n stage := by
  have idle : (∀ v, row.held ≠ some (.request n, v)) → ∀ v, later.held ≠ some (.request n, v) :=
    fun none v held => none v ((undisturbed.kept v).mp held)
  have held : ∀ v, row.held = some (.request n, v) →
      later.held = some (.request n, v) ∧ later.committed = row.committed :=
    fun v own => ⟨(undisturbed.kept v).mpr own, undisturbed.committed v own⟩
  cases draft with
  | idle none => exact .idle (idle none)
  | finished none => exact .finished (idle none)
  | aborts none => exact .aborts (idle none)
  | handles none started => exact .handles (idle none) (begun started)
  | settles own started =>
    obtain ⟨own, same⟩ := held _ own
    rw [← same] at own
    exact .settles own (begun started)
  | merged own =>
    obtain ⟨own, same⟩ := held _ own
    rw [← same] at own
    exact .merged own
  | aborted own =>
    obtain ⟨own, same⟩ := held _ own
    rw [← same] at own
    exact .aborted own

theorem ReconcileDraft.frame (draft : ReconcileDraft groups db stage)
    (execution : db.execution.Kept .reconcile next.execution)
    (commands : ∀ i, (db.commands i).Kept .reconcile (next.commands i))
    (same : next.execution.committed.results.queuedCommands = db.execution.committed.results.queuedCommands)
    (advances : Advances (db.view .reconcile) (next.view .reconcile)) : ReconcileDraft groups next stage := by
  have unwritten : (∀ v, db.execution.held ≠ some (.reconcile, v)) → ∀ v, next.execution.held ≠ some (.reconcile, v) :=
    fun none v held => none v ((execution v).mp held)
  have uninserted : (∀ i v, (db.commands i).held ≠ some (.reconcile, v)) →
      ∀ i v, (next.commands i).held ≠ some (.reconcile, v) :=
    fun none i v held => none i v ((commands i v).mp held)
  cases draft with
  | idle unwrote uninsert => exact .idle (unwritten unwrote) (uninserted uninsert)
  | reads unwrote uninsert read => exact .reads (unwritten unwrote) (uninserted uninsert) (read.trans same.symm)
  | dispatches unwrote sound member before devices unrepeated unqueued =>
    refine .dispatches (unwritten unwrote) (sound.advance advances) member (fun h listed sooner => ?_) devices
      unrepeated unqueued
    exact (before h listed sooner).mono (List.Subset.refl _) fun _ => advances.completed
  | writes unwrote sound begun => exact .writes (unwritten unwrote) (sound.advance advances) begun
  | ends held sound begun => exact .ends ((execution _).mpr held) (sound.advance advances) begun

end Drafts

section Steps
variable {γ κ : Type*} {groups : List (DrPlanGroup γ κ)} {w : DrWorld γ κ}
variable {t : DrProcess} {row : Row DrProcess (DrExecution γ κ)} {n : ℕ} {after : DrStage γ κ} {db : DrDb γ κ}

/-- A process reads or writes the execution. -/
structure Touches (t : DrProcess) (row later : Row DrProcess (DrExecution γ κ)) : Prop where
  committed : later.committed = row.committed
  others : ∀ u ≠ t, row.Undisturbed u later

theorem touches_read (t : DrProcess) (row : Row DrProcess (DrExecution γ κ)) : Touches t row row :=
  ⟨rfl, fun _ _ => ⟨.refl, fun _ _ => rfl⟩⟩

theorem touches_write (free : row.Free t) (v : DrExecution γ κ) : Touches t row (row.write t v) :=
  ⟨rfl, fun _ other => ⟨kept_write other free v, fun _ _ => rfl⟩⟩

theorem touches_rollback (t : DrProcess) (row : Row DrProcess (DrExecution γ κ)) : Touches t row (row.rollback t) :=
  ⟨rfl, fun _ other => ⟨kept_rollback other, fun _ _ => rfl⟩⟩

theorem requests_update (requests : ∀ m, RequestDraft w.db.execution m (w.proc (.request m)))
    (others : ∀ u ≠ .request n, w.db.execution.Undisturbed u row)
    (begun : w.db.execution.committed.status ≠ .pending → row.committed.status ≠ .pending)
    (own : RequestDraft row n after) (m : ℕ) : RequestDraft row m (update w.proc (.request n) after (.request m)) := by
  by_cases same : m = n
  · subst same
    rw [update_self]
    exact own
  · have other : request m ≠ .request n := fun h => same (request.inj h)
    rw [update_of_ne other]
    exact (requests m).frame (others _ other) begun

theorem DrLaw.request_touches (law : DrLaw groups w) (touches : Touches (.request n) w.db.execution row)
    (own : RequestDraft row n after) :
    DrLaw groups ⟨{ w.db with execution := row }, update w.proc (.request n) after⟩ where
  sound := by
    simp only [touches.committed]
    exact law.sound
  fresh := law.fresh
  begun := by
    simp only [touches.committed]
    exact law.begun
  ended := by
    simp only [touches.committed]
    exact law.ended
  inserted := law.inserted
  drawn := law.drawn
  reconcile := by
    simp only [update_of_ne (show DrProcess.reconcile ≠ .request n by simp)]
    refine law.reconcile.frame (touches.others _ (by simp)).kept (fun _ => .refl) ?_ (Advances.refl _)
    simp only [touches.committed]
  requests := by
    refine requests_update law.requests touches.others ?_ own
    rw [touches.committed]
    exact id

theorem DrLaw.reconcile_touches (law : DrLaw groups w) (touches : Touches .reconcile w.db.execution row)
    (own : ReconcileDraft groups { w.db with execution := row } after) :
    DrLaw groups ⟨{ w.db with execution := row }, update w.proc .reconcile after⟩ where
  sound := by
    simp only [touches.committed]
    exact law.sound
  fresh := law.fresh
  begun := by
    simp only [touches.committed]
    exact law.begun
  ended := by
    simp only [touches.committed]
    exact law.ended
  inserted := law.inserted
  drawn := law.drawn
  reconcile := by
    simp only [update_self]
    exact own
  requests := by
    intro n
    simp only [update_of_ne (show request n ≠ .reconcile by simp)]
    refine (law.requests n).frame (touches.others _ (by simp)) ?_
    rw [touches.committed]
    exact id

theorem DrLaw.commands_commit (law : DrLaw groups w) (n : ℕ) :
    (fun i => (w.db.commands i).commit (.request n)) = w.db.commands :=
  funext fun i => commit_of_not_held (law.inserted i n)

theorem DrLaw.commands_rollback (law : DrLaw groups w) (n : ℕ) :
    (fun i => (w.db.commands i).rollback (.request n)) = w.db.commands :=
  funext fun i => rollback_of_not_held (law.inserted i n)

theorem DrLaw.request_commits (law : DrLaw groups w)
    (queued : (w.db.execution.read (.request n)).results.queuedCommands =
      w.db.execution.committed.results.queuedCommands)
    (status : (w.db.execution.read (.request n)).status = w.db.execution.committed.status ∨
      (w.db.execution.read (.request n)).status = .aborted) :
    DrLaw groups ⟨w.db.commit (.request n), update w.proc (.request n) .finished⟩ where
  sound := by
    simp only [DrDb.commit, law.commands_commit, committed_commit, queued]
    exact law.sound
  fresh := by
    simp only [DrDb.commit, law.commands_commit]
    exact law.fresh
  begun := by
    simp only [DrDb.commit, committed_commit, queued]
    intro pending
    rcases status with same | aborted
    · exact law.begun (same.symm.trans pending)
    · cases aborted.symm.trans pending
  ended := by
    simp only [DrDb.commit, committed_commit, Bool.or_eq_true, decide_eq_true_eq, law.ended]
    rcases status with same | aborted
    · rw [same, or_self]
    · rw [aborted]
      exact ⟨fun _ => by decide, .inr⟩
  inserted := by
    simp only [DrDb.commit, law.commands_commit]
    exact law.inserted
  drawn := by
    simp only [DrDb.commit, law.commands_commit]
    exact law.drawn
  reconcile := by
    simp only [update_of_ne (show DrProcess.reconcile ≠ .request n by simp)]
    refine law.reconcile.frame (kept_commit (by simp)) (fun i => kept_commit (by simp)) queued ?_
    intro i
    left
    simp only [DrDb.view, DrDb.commit, commit_of_not_held (law.inserted i n)]
  requests := by
    refine requests_update law.requests (fun u other => undisturbed_commit other) ?_
      (.finished fun v => not_held_commit _ v _)
    intro begun pending
    rcases status with same | aborted
    · exact begun (same.symm.trans pending)
    · cases aborted.symm.trans pending

theorem DrLaw.endCommand (law : DrLaw groups w) {i : ℕ} {command : DrCommand γ κ}
    (found : (w.db.commands i).committed = some command) (inFlight : command.Open)
    (unheld : (w.db.commands i).held = none) (status : ResultStatus)
    (idle : ∀ v, w.db.execution.held ≠ some (.request n, v)) :
    DrLaw groups ⟨w.db.endCommand i command status, update w.proc (.request n)
      (.handleResult command.groupId command.deviceId (reported status))⟩ := by
  have committed : (fun j => ((w.db.endCommand i command status).commands j).committed) =
      update (fun j => (w.db.commands j).committed) i (some { command with status := status.stored }) := by
    funext j
    by_cases same : j = i
    · subst same
      simp only [DrDb.endCommand, update_self, committed_unheld]
    · simp only [DrDb.endCommand, update_of_ne same]
  have view : (w.db.endCommand i command status).view .reconcile =
      update (w.db.view .reconcile) i (some { command with status := status.stored }) := by
    funext j
    by_cases same : j = i
    · subst same
      simp only [DrDb.view, DrDb.endCommand, update_self, read_unheld]
    · simp only [DrDb.view, DrDb.endCommand, update_of_ne same]
  have advances : ∀ commands : ℕ → Option (DrCommand γ κ), commands i = some command →
      Advances commands (update commands i (some { command with status := status.stored })) := by
    intro commands seen j
    by_cases same : j = i
    · subst same
      exact .inr ⟨command, _, seen, inFlight, update_self ..⟩
    · exact .inl (update_of_ne same ..)
  have held : ∀ j u v, ((w.db.endCommand i command status).commands j).held = some (u, v) ↔
      (w.db.commands j).held = some (u, v) := by
    intro j u v
    by_cases same : j = i
    · subst same
      simp only [DrDb.endCommand, update_self, unheld]
      rfl
    · simp only [DrDb.endCommand, update_of_ne same]
  constructor
  · simp only [committed]
    exact law.sound.advance (advances _ found)
  · intro j drawn
    have other : j ≠ i := by
      rintro rfl
      rw [law.fresh j drawn] at found
      cases found
    exact (update_of_ne other ..).trans (law.fresh j drawn)
  · exact law.begun
  · exact law.ended
  · exact fun j m v own => law.inserted j m v ((held j _ v).mp own)
  · intro j v own
    have before := (held j _ v).mp own
    have other : j ≠ i := by
      rintro rfl
      rw [unheld] at before
      cases before
    exact (congrArg Row.committed (update_of_ne other ..)).trans (law.drawn j v before)
  · simp only [update_of_ne (show DrProcess.reconcile ≠ .request n by simp)]
    refine law.reconcile.frame .refl (fun j v => held j _ v) rfl ?_
    rw [view]
    exact advances _ ((read_of_quiet unheld _).trans found)
  · refine requests_update law.requests (fun u _ => ⟨.refl, fun _ _ => rfl⟩) id (.handles idle fun pending => ?_)
    obtain ⟨q, listed, -⟩ := law.sound.naming i command found
    rw [law.begun pending] at listed
    cases listed

theorem view_insertCommand (db : DrDb γ κ) (t : DrProcess) (command : DrCommand γ κ) :
    (db.insertCommand t command).view t = update (db.view t) db.nextCommand (some command) := by
  funext i
  by_cases same : i = db.nextCommand
  · subst same
    simp only [view, insertCommand, Table.write_self, read_write, update_self]
  · simp only [view, insertCommand, Table.write_of_ne same, update_of_ne same]

theorem DrLaw.reconcile_inserts (law : DrLaw groups w) {command : DrCommand γ κ}
    (own : ReconcileDraft groups (w.db.insertCommand .reconcile command) after) :
    DrLaw groups ⟨w.db.insertCommand .reconcile command, update w.proc .reconcile after⟩ where
  sound := by
    simp only [insertCommand, Table.committed_write]
    exact law.sound
  fresh := by
    intro i drawn
    have later : w.db.nextCommand + 1 ≤ i := drawn
    exact (Table.write_of_ne (by omega)).trans (law.fresh i (by omega))
  begun := law.begun
  ended := law.ended
  inserted := by
    intro i n v held
    by_cases same : i = w.db.nextCommand
    · subst same
      simp only [insertCommand, Table.write_self, held_write] at held
      cases held
    · simp only [insertCommand, Table.write_of_ne same] at held
      exact law.inserted i n v held
  drawn := by
    intro i v held
    simp only [insertCommand, Table.committed_write]
    rcases Table.held_write held with before | ⟨rfl, -⟩
    · exact law.drawn i v before
    · rw [law.fresh _ (Nat.le_refl _), committed_unheld]
  reconcile := by
    simp only [update_self]
    exact own
  requests := by
    intro n
    simp only [update_of_ne (show request n ≠ .reconcile by simp)]
    exact law.requests n

theorem DrLaw.reconcile_commits (law : DrLaw groups w) {status : DrExecutionStatus} {results : DrExecutionResults γ κ}
    (held : w.db.execution.held = some (.reconcile, ⟨status, results⟩))
    (sound : Sound groups results.queuedCommands (w.db.view .reconcile)) (begun : status ≠ .pending)
    (onTime : w.db.execution.committed.status.Terminal → status.Terminal) :
    DrLaw groups ⟨w.db.commit .reconcile, update w.proc .reconcile .idle⟩ where
  sound := by
    simp only [DrDb.commit, committed_commit, read_of_held held]
    exact sound
  fresh := by
    intro i drawn
    simp only [DrDb.commit, law.fresh i drawn, commit_unheld]
  begun := by
    simp only [DrDb.commit, committed_commit, read_of_held held]
    exact fun pending => absurd pending begun
  ended := by
    simp only [DrDb.commit, committed_commit, read_of_held held, Bool.or_eq_true, decide_eq_true_eq, law.ended]
    exact ⟨fun either => either.elim onTime id, .inr⟩
  inserted := fun i n v own => law.inserted i n v (held_commit_iff.mp own).1
  drawn := fun i v own => absurd own (not_held_commit _ v _)
  reconcile := by
    simp only [update_self]
    exact .idle (fun v => not_held_commit _ v _) fun i v => not_held_commit _ v _
  requests := by
    intro n
    simp only [update_of_ne (show request n ≠ .reconcile by simp)]
    refine (law.requests n).frame (undisturbed_commit (by simp)) fun _ pending => begun ?_
    simp only [DrDb.commit, committed_commit, read_of_held held] at pending
    exact pending

theorem DrLaw.reconcile_rollsBack (law : DrLaw groups w) :
    DrLaw groups ⟨w.db.rollback .reconcile, update w.proc .reconcile .idle⟩ where
  sound := law.sound
  fresh := by
    intro i drawn
    simp only [DrDb.rollback, law.fresh i drawn, rollback_unheld]
  begun := law.begun
  ended := law.ended
  inserted := fun i n v own => law.inserted i n v (held_rollback_iff.mp own).1
  drawn := fun i v own => absurd own (not_held_rollback _ v _)
  reconcile := by
    simp only [update_self]
    exact .idle (fun v => not_held_rollback _ v _) fun i v => not_held_rollback _ v _
  requests := by
    intro n
    simp only [update_of_ne (show request n ≠ .reconcile by simp)]
    exact (law.requests n).frame ((touches_rollback .reconcile w.db.execution).others _ (by simp)) id

theorem update_touches {change : DrExecution γ κ → DrExecution γ κ} {next : DrDb γ κ}
    (updated : db.update t change = some next) :
    next = { db with execution := db.execution.write t (change (db.execution.read t)) } ∧
      Touches t db.execution next.execution := by
  unfold DrDb.update at updated
  split_ifs at updated with free
  cases updated
  exact ⟨rfl, touches_write free _⟩

theorem DrLaw.request_rollsBack (law : DrLaw groups w) (n : ℕ) :
    DrLaw groups ⟨w.db.rollback (.request n), update w.proc (.request n) .finished⟩ := by
  have same : w.db.rollback (.request n) = { w.db with execution := w.db.execution.rollback (.request n) } := by
    simp only [DrDb.rollback, law.commands_rollback]
  rw [same]
  exact law.request_touches (touches_rollback _ _) (.finished fun v => not_held_rollback _ v _)

variable [DecidableEq γ] [DecidableEq κ]

theorem DrLaw.request_exec (law : DrLaw groups w)
    (acted : requestStep n .exec w.db (w.proc (.request n)) = some (db, after)) :
    DrLaw groups ⟨db, update w.proc (.request n) after⟩ := by
  have draft := law.requests n
  generalize stage : w.proc (.request n) = s at acted draft
  cases draft with
  | idle | finished => cases acted
  | aborts idle =>
    obtain ⟨_, updated, same⟩ := Option.map_eq_some_iff.mp acted
    cases same
    obtain ⟨rfl, touches⟩ := update_touches updated
    refine law.request_touches touches (.aborted ?_)
    rw [held_write, read_of_not_held idle, committed_write]
  | handles idle begun =>
    obtain ⟨_, updated, same⟩ := Option.map_eq_some_iff.mp acted
    cases same
    obtain ⟨rfl, touches⟩ := update_touches updated
    refine law.request_touches touches ?_
    simp only [read_of_not_held idle, read_write]
    split
    next => exact .settles (by rw [held_write, committed_write]) begun
    next => exact .merged (by rw [held_write, committed_write])
  | settles held begun =>
    simp only [requestStep, read_of_held held, if_neg begun] at acted
    cases acted
    exact law.request_touches (touches_read _ _) (.merged held)
  | merged held =>
    cases acted
    refine law.request_commits ?_ (.inl ?_) <;> rw [read_of_held held]
  | aborted held =>
    cases acted
    refine law.request_commits ?_ (.inr ?_) <;> rw [read_of_held held]

theorem DrLaw.request_step (law : DrLaw groups w) {signal : DrSignal}
    (acted : requestStep n signal w.db (w.proc (.request n)) = some (db, after)) :
    DrLaw groups ⟨db, update w.proc (.request n) after⟩ := by
  cases signal with
  | exec => exact law.request_exec acted
  | queued error => cases acted
  | result i status =>
    have draft := law.requests n
    generalize stage : w.proc (.request n) = s at acted draft
    cases draft with
    | idle idle =>
      have read : (w.db.commands i).read (.request n) = (w.db.commands i).committed :=
        read_of_not_held (law.inserted i n)
      simp only [requestStep, read] at acted
      split at acted
      next =>
        cases acted
        exact law.request_touches (touches_read _ _) (.finished idle)
      next command found =>
        split_ifs at acted with inFlight free
        · cases acted
          refine law.endCommand found inFlight ?_ status idle
          cases held : (w.db.commands i).held with
          | none => rfl
          | some holder =>
            obtain ⟨u, v⟩ := holder
            obtain rfl := free u v held
            exact absurd held (law.inserted i n v)
        · cases acted
          exact law.request_touches (touches_read _ _) (.finished idle)
    | _ => cases acted
  | abort =>
    have draft := law.requests n
    generalize stage : w.proc (.request n) = s at acted draft
    cases draft with
    | idle idle =>
      cases acted
      refine law.request_touches (touches_read _ _) ?_
      split_ifs
      · exact .finished idle
      · exact .aborts idle
    | _ => cases acted
  | rollback =>
    have draft := law.requests n
    generalize stage : w.proc (.request n) = s at acted draft
    cases draft with
    | idle | finished => cases acted
    | _ =>
      cases acted
      exact law.request_rollsBack n

omit [DecidableEq γ] [DecidableEq κ] in
theorem selectCommands_completed {results : DrExecutionResults γ κ} {i : ℕ}
    (completed : db.selectCommands t results i = some .completed) : statuses (db.view t) i = some .completed := by
  unfold selectCommands at completed
  split_ifs at completed
  exact completed

theorem DrLaw.reconcile_decides {plan : DrPlan γ κ} (law : DrLaw plan.groups w) {current : DrExecutionResults γ κ}
    (unwritten : ∀ v, w.db.execution.held ≠ some (.reconcile, v))
    (uninserted : ∀ i v, (w.db.commands i).held ≠ some (.reconcile, v))
    (same : current.queuedCommands = w.db.execution.committed.results.queuedCommands) :
    ReconcileDraft plan.groups w.db ((decideNext plan.groups (w.db.selectCommands .reconcile current) current).next
      plan.groups false (w.db.selectCommands .reconcile current)) := by
  have view : w.db.view .reconcile = fun i => (w.db.commands i).committed :=
    funext fun i => read_of_not_held (uninserted i)
  have sound : Sound plan.groups current.queuedCommands (w.db.view .reconcile) := by
    rw [view, same]
    exact law.sound
  generalize map : w.db.selectCommands .reconcile current = commandMap
  cases decided : decideNext plan.groups commandMap current with
  | write status results =>
    have observed := decideNext_write decided
    refine .writes unwritten ?_ observed.begun
    rw [observed.queued]
    exact sound
  | dispatch group refreshed =>
    obtain ⟨picked, rfl⟩ := decideNext_dispatch decided
    obtain ⟨member, -, before⟩ := pickNextGroup_some plan.distinct picked
    simp only [Decision.next]
    split
    next results refused =>
      obtain ⟨queued, -⟩ := beginDispatch_error refused
      refine .writes unwritten ?_ ?_
      · rw [show (afterDispatch plan.groups commandMap results).results.queuedCommands = current.queuedCommands
          from queued]
        exact sound
      · simp only [afterDispatch]
        split_ifs <;> decide
    next results begun =>
      obtain ⟨queued, -, -, -⟩ := beginDispatch_ok begun
      have queued : results.queuedCommands = current.queuedCommands := queued
      refine .dispatches unwritten ?_ member (fun h listed sooner => ?_) (fun d rest => (mem_unqueued.mp rest).1)
        ((plan.unrepeated group member).filter _) fun d rest q listed keys => ?_
      · rw [queued]
        exact sound
      · refine (before h listed sooner).mono ?_ fun i completed => ?_
        · rw [queued]
          exact List.Subset.refl _
        · rw [← map] at completed
          exact selectCommands_completed completed
      · rw [queued] at listed
        exact (mem_unqueued.mp rest).2 ⟨q, listed, keys⟩

theorem DrLaw.reconcile_step {plan : DrPlan γ κ} (law : DrLaw plan.groups w) {signal : DrSignal}
    (acted : reconcileStep plan.groups signal w.db (w.proc .reconcile) = some (db, after))
    (onTime : signal = .exec → (w.proc .reconcile).isEnding = true → w.db.execution.committed.status.Terminal →
      (w.db.execution.read .reconcile).status.Terminal) :
    DrLaw plan.groups ⟨db, update w.proc .reconcile after⟩ := by
  have draft := law.reconcile
  generalize stage : w.proc .reconcile = s at acted draft onTime
  cases signal with
  | abort | result => cases draft <;> cases acted
  | rollback =>
    cases draft <;>
      · cases acted
        exact law.reconcile_rollsBack
  | queued error =>
    cases draft with
    | idle | reads | writes | ends => cases error <;> cases acted
    | @dispatches commandMap group rest results unwritten sound member before devices unrepeated unqueued =>
      cases rest with
      | nil => cases error <;> cases acted
      | cons device rest =>
        obtain ⟨target, others⟩ := cons_subset.mp devices
        obtain ⟨fresh, distinct⟩ := nodup_cons.mp unrepeated
        cases error with
        | some error =>
          cases acted
          refine law.reconcile_touches (touches_read _ _) (.dispatches unwritten sound member before others
            distinct ?_)
          exact fun d listed => unqueued d (mem_cons_of_mem device listed)
        | none =>
          cases acted
          have undrawn : w.db.view .reconcile w.db.nextCommand = none := by
            rw [view, law.fresh _ (Nat.le_refl _), read_unheld]
          have inserted := sound.insert plan.distinct undrawn member target
            (unqueued device mem_cons_self) before
          refine law.reconcile_inserts (.dispatches unwritten ?_ member (fun h listed sooner => ?_) others
            distinct fun d listed q queued keys => ?_)
          · rw [view_insertCommand]
            exact inserted
          · have queued : (⟨group.id, device, w.db.nextCommand⟩ : QueuedDrCommand γ κ) ∈
                results.queuedCommands ++ [⟨group.id, device, w.db.nextCommand⟩] :=
              mem_append_right _ (mem_singleton_self _)
            rw [view_insertCommand]
            exact inserted.ordered _ queued group member rfl h listed sooner
          · rcases mem_append.mp queued with old | new
            · exact unqueued d (mem_cons_of_mem device listed) q old keys
            · obtain rfl := mem_singleton.mp new
              have again : device = d := keys.2
              exact fresh (again ▸ listed)
  | exec =>
    cases draft with
    | idle unwritten uninserted =>
      simp only [reconcileStep, read_of_not_held unwritten] at acted
      cases acted
      refine law.reconcile_touches (touches_read _ _) ?_
      split_ifs with terminal
      · exact .idle unwritten uninserted
      · have going : w.db.ended = false := Bool.eq_false_iff.mpr fun ended => terminal (law.ended.mp ended)
        rw [going]
        exact .reads unwritten uninserted rfl
    | reads unwritten uninserted same =>
      cases acted
      exact law.reconcile_touches (touches_read _ _) (law.reconcile_decides unwritten uninserted same)
    | @dispatches commandMap group rest results unwritten sound =>
      cases rest with
      | cons => cases acted
      | nil =>
        cases acted
        refine law.reconcile_touches (touches_read _ _) (.writes unwritten ?_ ?_)
        · rw [show (afterDispatch plan.groups commandMap (endDispatch group results)).results.queuedCommands =
            results.queuedCommands from endDispatch_queued]
          exact sound
        · simp only [afterDispatch]
          split_ifs <;> decide
    | writes unwritten sound begun =>
      obtain ⟨_, updated, same⟩ := Option.map_eq_some_iff.mp acted
      cases same
      obtain ⟨rfl, touches⟩ := update_touches updated
      exact law.reconcile_touches touches (.ends rfl sound begun)
    | ends held sound begun =>
      cases acted
      refine law.reconcile_commits held sound begun fun terminal => ?_
      have ended := onTime rfl rfl terminal
      rw [read_of_held held] at ended
      exact ended

end Steps

section Order
variable {γ κ : Type*}

/-- One command at most is queued for a device of a group, all groups before it are done by then, and none is queued by
a reconcile that began after the execution had ended. The commands are those that the reconcile sees, its own too. -/
structure Orderly (groups : List (DrPlanGroup γ κ)) (db : DrDb γ κ) : Prop where
  once : ∀ i j c d, db.view .reconcile i = some c → db.view .reconcile j = some d → c.groupId = d.groupId →
    c.deviceId = d.deviceId → i = j
  ordered : ∀ i c, db.view .reconcile i = some c → ∀ g ∈ groups, g.id = c.groupId → ∀ h ∈ groups, h.Before g →
    (∀ device ∈ h.devices, ∃ j d, db.view .reconcile j = some d ∧ d.groupId = h.id ∧ d.deviceId = device) ∧
      ∀ j d, db.view .reconcile j = some d → d.groupId = h.id → d.status = .completed
  punctual : ∀ i c, db.view .reconcile i = some c → c.late = false

theorem Sound.eq_of_key {groups : List (DrPlanGroup γ κ)} {queued : List (QueuedDrCommand γ κ)}
    {commands : ℕ → Option (DrCommand γ κ)} (sound : Sound groups queued commands) {q r : QueuedDrCommand γ κ}
    (first : q ∈ queued) (second : r ∈ queued) (group : q.groupId = r.groupId) (device : q.deviceId = r.deviceId) :
    q = r :=
  inj_on_of_nodup_map sound.sole first second (Prod.ext group device)

theorem Sound.orderly {plan : DrPlan γ κ} {queued : List (QueuedDrCommand γ κ)} {db : DrDb γ κ}
    (sound : Sound plan.groups queued (db.view .reconcile)) : Orderly plan.groups db := by
  have key : ∀ i c, db.view .reconcile i = some c →
      ∃ q ∈ queued, q.commandId = i ∧ c.groupId = q.groupId ∧ c.deviceId = q.deviceId := by
    intro i c found
    obtain ⟨q, listed, rfl⟩ := sound.naming i c found
    obtain ⟨d, named, group, device⟩ := sound.named q listed
    cases found.symm.trans named
    exact ⟨q, listed, rfl, group, device⟩
  constructor
  · intro i j c d first second group device
    obtain ⟨q, one, rfl, group_q, device_q⟩ := key i c first
    obtain ⟨r, two, rfl, group_r, device_r⟩ := key j d second
    have same := sound.eq_of_key one two (group_q.symm.trans (group.trans group_r))
      (device_q.symm.trans (device.trans device_r))
    rw [same]
  · intro i c found g member same h listed before
    obtain ⟨q, queued_q, -, group_q, -⟩ := key i c found
    have done := sound.ordered q queued_q g member (same.trans group_q) h listed before
    constructor
    · intro device target
      obtain ⟨r, queued_r, group, dev, -⟩ := done.completed device target
      obtain ⟨d, named, group_d, device_d⟩ := sound.named r queued_r
      exact ⟨_, d, named, group_d.trans group, device_d.trans dev⟩
    · intro j d other group
      obtain ⟨r, queued_r, rfl, group_r, device_r⟩ := key j d other
      obtain ⟨k, planned, id, target⟩ := sound.planned r queued_r
      obtain rfl := inj_on_of_nodup_map plan.distinct planned listed (id.trans (group_r.symm.trans group))
      obtain ⟨s, queued_s, group_s, device_s, completed⟩ := done.completed r.deviceId target
      obtain rfl := sound.eq_of_key queued_s queued_r (group_s.trans id) device_s
      rw [statuses, other] at completed
      exact Option.some.inj completed
  · exact sound.punctual

theorem DrLaw.orderly {plan : DrPlan γ κ} {w : DrWorld γ κ} (law : DrLaw plan.groups w) : Orderly plan.groups w.db := by
  have resting : (∀ i v, (w.db.commands i).held ≠ some (.reconcile, v)) → Orderly plan.groups w.db := by
    intro uninserted
    have view : w.db.view .reconcile = fun i => (w.db.commands i).committed :=
      funext fun i => read_of_not_held (uninserted i)
    have sound := law.sound
    rw [← view] at sound
    exact sound.orderly
  have draft := law.reconcile
  generalize w.proc .reconcile = stage at draft
  cases draft with
  | idle _ uninserted | reads _ uninserted => exact resting uninserted
  | dispatches _ sound | writes _ sound | ends _ sound => exact sound.orderly

variable [DecidableEq γ] [DecidableEq κ]

/-- An execution that has ended is not pending or running again. -/
def StaysEnded (groups : List (DrPlanGroup γ κ)) (w : DrWorld γ κ) (e : DrProcess × DrSignal) : Prop :=
  w.db.execution.committed.status.Terminal → (drStep groups w e).db.execution.committed.status.Terminal

/-- A reconcile that goes on with an execution commits this before the execution ends. -/
def OnTime (w : DrWorld γ κ) : DrProcess × DrSignal → Prop
  | (.reconcile, .exec) => (w.proc .reconcile).isEnding = true → w.db.execution.committed.status.Terminal →
      (w.db.execution.read .reconcile).status.Terminal
  | _ => True

variable {plan : DrPlan γ κ} {w : DrWorld γ κ}

theorem DrLaw.step (law : DrLaw plan.groups w) (e : DrProcess × DrSignal) (onTime : OnTime w e) :
    DrLaw plan.groups (drStep plan.groups w e) := by
  obtain ⟨t, signal⟩ := e
  unfold drStep
  cases stepped : World.step (drAct plan.groups) w (t, signal) with
  | none => exact law
  | some next =>
    obtain ⟨db, after, acted, rfl⟩ := World.step_eq_some stepped
    cases t with
    | request n => exact law.request_step acted
    | reconcile => exact law.reconcile_step acted fun exec => by subst exec; exact onTime

theorem committed_reconcileStep {signal : DrSignal} {db next : DrDb γ κ} {stage after : DrStage γ κ}
    (acted : reconcileStep plan.groups signal db stage = some (next, after)) :
    next.execution.committed = db.execution.committed ∨
      signal = .exec ∧ stage.isEnding = true ∧ next.execution.committed = db.execution.read .reconcile := by
  unfold reconcileStep at acted
  split at acted
  case h_6 =>
    obtain ⟨_, updated, same⟩ := Option.map_eq_some_iff.mp acted
    cases same
    exact .inl (update_touches updated).2.committed
  case h_7 =>
    cases acted
    exact .inr ⟨rfl, rfl, rfl⟩
  case h_9 => cases acted
  all_goals
    cases acted
    exact .inl rfl

theorem committed_requestStep {n : ℕ} {signal : DrSignal} {db next : DrDb γ κ} {stage after : DrStage γ κ}
    (acted : requestStep n signal db stage = some (next, after)) :
    next.execution.committed = db.execution.committed ∨
      stage.isEnding = true ∧ next.execution.committed = db.execution.read (.request n) := by
  have updates : ∀ {change : DrExecution γ κ → DrExecution γ κ} {following : DrDb γ κ → DrStage γ κ},
      ((db.update (.request n) change).map fun updated => (updated, following updated)) = some (next, after) →
      next.execution.committed = db.execution.committed := by
    intro change following written
    obtain ⟨_, updated, same⟩ := Option.map_eq_some_iff.mp written
    cases same
    exact (update_touches updated).2.committed
  unfold requestStep at acted
  split at acted
  case h_1 =>
    split at acted
    next =>
      cases acted
      exact .inl rfl
    next =>
      split_ifs at acted
      · cases acted
        exact .inl rfl
      · cases acted
        exact .inl rfl
  case h_2 => exact .inl (updates acted)
  case h_3 =>
    split_ifs at acted
    · exact .inl (updates acted)
    · cases acted
      exact .inl rfl
  case h_5 => exact .inl (updates acted)
  case h_6 =>
    cases acted
    exact .inr ⟨rfl, rfl⟩
  case h_11 => cases acted
  all_goals
    cases acted
    exact .inl rfl

theorem DrLaw.onTime_iff (law : DrLaw plan.groups w) (e : DrProcess × DrSignal) :
    OnTime w e ↔ StaysEnded plan.groups w e := by
  obtain ⟨t, signal⟩ := e
  constructor
  · intro onTime terminal
    unfold drStep
    cases stepped : World.step (drAct plan.groups) w (t, signal) with
    | none => exact terminal
    | some next =>
      obtain ⟨db, after, acted, rfl⟩ := World.step_eq_some stepped
      cases t with
      | reconcile =>
        rcases committed_reconcileStep acted with same | ⟨exec, ending, committed⟩
        · simp only [Option.getD_some, same]
          exact terminal
        · subst exec
          simp only [Option.getD_some, committed]
          exact onTime ending terminal
      | request n =>
        rcases committed_requestStep acted with same | ⟨ending, committed⟩
        · simp only [Option.getD_some, same]
          exact terminal
        · simp only [Option.getD_some, committed]
          have draft := law.requests n
          generalize w.proc (.request n) = stage at ending draft
          cases draft with
          | merged held =>
            rw [read_of_held held]
            exact terminal
          | aborted held =>
            rw [read_of_held held]
            exact .inr (.inr rfl)
          | _ => cases ending
  · intro stays
    cases t with
    | request n => trivial
    | reconcile =>
      cases signal with
      | exec =>
        intro ending terminal
        have after := stays terminal
        have stage : w.proc .reconcile = .ending := by
          generalize w.proc .reconcile = stage at ending
          cases stage <;> first | rfl | cases ending
        simp only [drStep, World.step, drAct, stage, reconcileStep] at after
        exact after
      | _ => trivial

omit [DecidableEq γ] [DecidableEq κ] in
theorem law_drStart (groups : List (DrPlanGroup γ κ)) : DrLaw groups (drStart groups) where
  sound := ⟨nofun, nofun, nodup_nil, nofun, nofun, nofun⟩
  fresh := fun _ _ => rfl
  begun := fun _ => rfl
  ended := ⟨nofun, fun terminal => absurd terminal (by decide : ¬DrExecutionStatus.pending.Terminal)⟩
  inserted := nofun
  drawn := nofun
  reconcile := .idle nofun nofun
  requests := fun _ => .idle nofun

/-- A device of a group has one command at most, in the order of the plan, and an execution that has ended stays so
and queues no more, exactly in the runs in which no reconcile goes on with an execution that has ended since its
read. -/
theorem dr_execution_orderly_iff (plan : DrPlan γ κ) (es : List (DrProcess × DrSignal)) :
    (Throughout (drStep plan.groups) (fun w => Orderly plan.groups w.db) (drStart plan.groups) es ∧
      StepsMeet (drStep plan.groups) (StaysEnded plan.groups) (drStart plan.groups) es) ↔
    StepsMeet (drStep plan.groups) OnTime (drStart plan.groups) es := by
  have keep : ∀ w e, DrLaw plan.groups w → OnTime w e → DrLaw plan.groups (drStep plan.groups w e) :=
    fun w e law onTime => law.step e onTime
  have agree : StepsMeet (drStep plan.groups) OnTime (drStart plan.groups) es ↔
      StepsMeet (drStep plan.groups) (StaysEnded plan.groups) (drStart plan.groups) es :=
    stepsMeet_congr keep (fun w e law => law.onTime_iff e) (law_drStart plan.groups)
  constructor
  · exact fun both => agree.mpr both.2
  · intro onTime
    refine ⟨fun pre post split => ?_, agree.mp onTime⟩
    exact (throughout_of_invariant keep (law_drStart plan.groups) onTime pre post split).orderly

end Order

def samplePlan : DrPlan ℕ ℕ where
  groups := [⟨1, "directory", 1, none, [7], some "bmr_recover"⟩, ⟨2, "files", 2, some 1, [8], some "bmr_recover"⟩]
  distinct := by decide
  unrepeated := by decide

/-- The first reconcile has read the execution when the abort comes. -/
def abortRun : List (DrProcess × DrSignal) :=
  [(.reconcile, .exec), (.reconcile, .exec), (.request 0, .abort), (.request 0, .exec), (.request 0, .exec)]

/-- It goes on; the result of its command comes in, and the next reconcile dispatches the second group. -/
def resumedRun : List (DrProcess × DrSignal) :=
  [(.reconcile, .queued none), (.reconcile, .exec), (.reconcile, .exec), (.reconcile, .exec),
    (.request 1, .result 0 .completed), (.request 1, .exec), (.request 1, .exec),
    (.reconcile, .exec), (.reconcile, .exec), (.reconcile, .queued none), (.reconcile, .exec), (.reconcile, .exec),
    (.reconcile, .exec)]

theorem aborted_execution_goes_on :
    let aborted := abortRun.foldl (drStep samplePlan.groups) (drStart samplePlan.groups)
    let resumed := resumedRun.foldl (drStep samplePlan.groups) aborted
    aborted.db.execution.committed.status = .aborted ∧ resumed.db.execution.committed.status = .running ∧
      (resumed.db.commands 1).committed = some ⟨2, 8, .pending, true⟩ :=
  ⟨rfl, rfl, rfl⟩

end RemudaRmm.Recovery
