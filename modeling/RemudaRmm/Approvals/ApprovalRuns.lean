import RemudaRmm.Approvals.ApprovalRequests

/-! Runs around one approval request: what each process holds at every stage, and when the request is decided once and
obeyed. -/
namespace RemudaRmm.Approvals
open Foundation Function Option Row ApprovalProcess

/-- A process that has written nothing. -/
inductive ApprovalStage.Rests : ApprovalStage → Prop
  | idle : Rests .idle
  | decide (status : ApprovalStatus) : Rests (.decide status)
  | report : Rests .report
  | handle (approved : Bool) : Rests (.handle approved)
  | finished : Rests .finished
  | poll : Rests .poll
  | timeOut : Rests .timeOut
  | returned (approved : Bool) : Rests (.returned approved)

/-- The versions of the two rows that a process holds at a stage; one that approves the execution has approved the
request with it, or is a `handleApproval`. -/
inductive Draft (approval : Row ApprovalProcess ApprovalStatus) (execution : Row ApprovalProcess AiToolStatus)
    (t : ApprovalProcess) : ApprovalStage → Prop
  | rests {stage : ApprovalStage} (rests : stage.Rests) (undecided : ∀ v, approval.held ≠ some (t, v))
      (unwritten : ∀ v, execution.held ≠ some (t, v)) : Draft approval execution t stage
  | decided {status : ApprovalStatus} (held : approval.held = some (t, status))
      (unwritten : ∀ v, execution.held ≠ some (t, v)) : Draft approval execution t (.mirrorDecision status)
  | reported (unwritten : ∀ v, execution.held ≠ some (t, v)) : Draft approval execution t .mirrorReport
  | expired (unwritten : ∀ v, execution.held ≠ some (t, v)) : Draft approval execution t .mirrorExpiry
  | ends {grants : Bool} (backed : execution.held = some (t, .approved) →
      grants = true ∨ approval.held = some (t, .approved)) : Draft approval execution t (.ending grants)

/-- The two rows and the processes, at any time of a run. -/
structure ApprovalLaw (w : ApprovalWorld) : Prop where
  drafts : ∀ t, Draft w.db.approval w.db.execution t (w.proc t)
  backed : w.db.execution.committed = .approved → w.db.handled = true ∨ w.db.approval.committed = .approved
  heard : w.proc .waitForApproval = .returned true → w.db.handled = true ∨ w.db.approval.committed = .approved
  refused : w.proc .waitForApproval = .returned false → w.db.execution.committed ≠ .approved

/-- What one action does: it reads or writes rows, or ends the transaction. -/
inductive ApprovalMove (t : ApprovalProcess) (signal : ApprovalSignal) (db : ApprovalDb) (stage : ApprovalStage)
    (next : ApprovalDb) (after : ApprovalStage) : Prop
  | works (approval : next.approval = db.approval ∨ ∃ v, db.approval.Free t ∧ next.approval = db.approval.write t v)
      (execution : next.execution = db.execution ∨ ∃ v, db.execution.Free t ∧ next.execution = db.execution.write t v)
      (handled : next.handled = db.handled) (draft : Draft next.approval next.execution t after)
      (heard : after = .returned true → stage = .returned true ∨ db.execution.committed = .approved)
      (refused : after = .returned false → stage = .returned false ∨ db.execution.committed = .rejected ∨
        signal = .abort ∧ stage = .poll)
  | commits (grants : Bool) (exec : signal = .exec) (ending : stage = .ending grants)
      (committed : next = db.commit t grants) (ended : after = .finished)
  | gaveUp (exec : signal = .exec) (ending : stage = .timeOut) (free : db.execution.Free t)
      (committed : next.approval = db.approval ∧ next.execution = Row.unheld .rejected ∧ next.handled = db.handled)
      (ended : after = .returned false)
  | rollsBack (rolled : next = db.rollback t) (ended : after = .finished)

section Moves
variable {db next : ApprovalDb} {stage after : ApprovalStage} {t : ApprovalProcess} {signal : ApprovalSignal}

theorem updateApproval_some {status : ApprovalStatus} (updated : db.updateApproval t status = some next) :
    db.approval.Free t ∧ next = { db with approval := db.approval.write t status } := by
  unfold ApprovalDb.updateApproval at updated
  split_ifs at updated with free
  exact ⟨free, (some.inj updated).symm⟩

theorem updateExecution_some {status : AiToolStatus} (updated : db.updateExecution t status = some next) :
    db.execution.Free t ∧ next = { db with execution := db.execution.write t status } := by
  unfold ApprovalDb.updateExecution at updated
  split_ifs at updated with free
  exact ⟨free, (some.inj updated).symm⟩

theorem ApprovalMove.of_read (draft : Draft db.approval db.execution t after)
    (silent : ∀ approved, after ≠ .returned approved) : ApprovalMove t signal db stage db after :=
  .works (.inl rfl) (.inl rfl) rfl draft (fun same => absurd same (silent true))
    (fun same => absurd same (silent false))

theorem ApprovalMove.of_updateApproval {status : ApprovalStatus} (updated : db.updateApproval t status = some next)
    (draft : Draft (db.approval.write t status) db.execution t after)
    (silent : ∀ approved, after ≠ .returned approved) : ApprovalMove t signal db stage next after := by
  obtain ⟨free, rfl⟩ := updateApproval_some updated
  exact .works (.inr ⟨status, free, rfl⟩) (.inl rfl) rfl draft (fun same => absurd same (silent true))
    (fun same => absurd same (silent false))

theorem ApprovalMove.of_updateExecution {status : AiToolStatus} (updated : db.updateExecution t status = some next)
    (draft : Draft db.approval (db.execution.write t status) t after)
    (silent : ∀ approved, after ≠ .returned approved) : ApprovalMove t signal db stage next after := by
  obtain ⟨free, rfl⟩ := updateExecution_some updated
  exact .works (.inl rfl) (.inr ⟨status, free, rfl⟩) rfl draft (fun same => absurd same (silent true))
    (fun same => absurd same (silent false))

theorem move_beginCall (draft : Draft db.approval db.execution t .idle) (call : ApprovalCall)
    (begun : beginCall t db call = (next, after)) : ApprovalMove t signal db .idle next after := by
  cases draft with
  | rests rests undecided unwritten =>
    have reads : ∀ after, ApprovalStage.Rests after → (∀ approved, after ≠ .returned approved) →
        ApprovalMove t signal db .idle db after := fun after rests silent =>
      .of_read (.rests rests undecided unwritten) silent
    cases call with
    | approve | deny =>
      cases begun
      split_ifs
      · exact reads _ .finished (by simp)
      · exact reads _ (.decide _) (by simp)
    | reportSuspicious =>
      cases begun
      split_ifs
      · exact reads _ .report (by simp)
      · exact reads _ .finished (by simp)
    | reapExpiredApprovals =>
      simp only [beginCall] at begun
      split_ifs at begun with due
      · cases begun
        exact .works (.inr ⟨_, due.1, rfl⟩) (.inl rfl) rfl (.expired unwritten) (by simp) (by simp)
      · cases begun
        exact reads _ .finished (by simp)
    | handleApproval approved =>
      cases begun
      split_ifs
      · exact reads _ (.handle approved) (by simp)
      · exact reads _ .finished (by simp)

theorem move_nextStatement (draft : Draft db.approval db.execution t stage)
    (acted : nextStatement t db stage = some (next, after)) : ApprovalMove t .exec db stage next after := by
  cases draft with
  | rests rests undecided unwritten =>
    have reads : db.execution.read t = db.execution.committed := read_of_not_held unwritten
    cases rests with
    | idle | finished | returned => cases acted
    | decide status =>
      simp only [nextStatement] at acted
      split_ifs at acted
      · obtain ⟨_, updated, same⟩ := map_eq_some_iff.mp acted
        cases same
        exact .of_updateApproval updated (.decided rfl unwritten) (by simp)
      · exact of_some_eq acted (.of_read (.rests .finished undecided unwritten) (by simp))
    | report =>
      obtain ⟨_, updated, same⟩ := map_eq_some_iff.mp acted
      cases same
      exact .of_updateApproval updated (.reported unwritten) (by simp)
    | handle approved =>
      obtain ⟨_, updated, same⟩ := map_eq_some_iff.mp acted
      cases same
      refine .of_updateExecution updated (.ends fun held => .inl ?_) (by simp)
      have status := (Prod.mk.inj (some.inj held)).2
      cases approved with
      | true => rfl
      | false => cases status
    | poll =>
      simp only [nextStatement, reads] at acted
      split at acted
      next approved =>
        exact of_some_eq acted (.works (.inl rfl) (.inl rfl) rfl (.rests (.returned true) undecided unwritten)
          (fun _ => .inr approved) (by simp))
      next rejected =>
        cases acted
        exact .works (.inl rfl) (.inl rfl) rfl (.rests (.returned false) undecided unwritten) (by simp)
          (fun _ => .inr (.inl rejected))
      next =>
        exact of_some_eq acted (.of_read (.rests .poll undecided unwritten) (by simp))
    | timeOut =>
      obtain ⟨updated, written, same⟩ := map_eq_some_iff.mp acted
      obtain ⟨free, rfl⟩ := updateExecution_some written
      cases same
      refine .gaveUp rfl rfl free ⟨commit_of_not_held undecided, commit_write t _ _, ?_⟩ rfl
      simp only [ApprovalDb.commit, Bool.or_false]
  | decided held unwritten =>
    obtain ⟨_, updated, same⟩ := map_eq_some_iff.mp acted
    cases same
    refine .of_updateExecution updated (.ends fun approved => .inr ?_) (by simp)
    have status := (Prod.mk.inj (some.inj approved)).2
    split_ifs at status with same
    exact same ▸ held
  | reported unwritten =>
    obtain ⟨_, updated, same⟩ := map_eq_some_iff.mp acted
    cases same
    exact .of_updateExecution updated (.ends fun approved => by simp at approved) (by simp)
  | expired unwritten =>
    simp only [nextStatement] at acted
    split_ifs at acted
    · obtain ⟨_, updated, same⟩ := map_eq_some_iff.mp acted
      cases same
      exact .of_updateExecution updated (.ends fun approved => by simp at approved) (by simp)
    · exact of_some_eq acted (.of_read (.ends fun approved => absurd approved (unwritten _)) (by simp))
  | @ends grants _ =>
    exact of_some_eq acted (.commits grants rfl rfl rfl rfl)

theorem Draft.rest (draft : Draft db.approval db.execution t stage) (before : stage.Rests) (rests : after.Rests) :
    Draft db.approval db.execution t after := by
  cases draft with
  | rests _ undecided unwritten => exact .rests rests undecided unwritten
  | decided | reported | expired | ends => cases before

theorem move_read (draft : Draft db.approval db.execution t stage) (before : stage.Rests) (rests : after.Rests)
    (silent : ∀ approved, after ≠ .returned approved) : ApprovalMove t signal db stage db after :=
  .of_read (draft.rest before rests) silent

theorem move_approvalAct (draft : Draft db.approval db.execution t stage)
    (acted : approvalAct t signal db stage = some (next, after)) : ApprovalMove t signal db stage next after := by
  unfold approvalAct at acted
  split at acted
  next elapsed stage =>
    exact of_some_eq acted (.works (.inl rfl) (.inl rfl) rfl draft .inl .inl)
  next call => exact move_beginCall draft call (some.inj acted)
  next =>
    exact of_some_eq acted (move_read draft .idle .finished (by simp))
  next =>
    exact of_some_eq acted (move_read draft (.decide _) .finished (by simp))
  next =>
    exact of_some_eq acted (move_read draft (.handle _) .finished (by simp))
  next =>
    exact of_some_eq acted (move_read draft .poll .timeOut (by simp))
  next =>
    exact of_some_eq acted (.works (.inl rfl) (.inl rfl) rfl (draft.rest .poll (.returned false)) (by simp)
      (fun _ => .inr (.inr ⟨rfl, rfl⟩)))
  next => exact move_nextStatement draft acted
  all_goals
    first
    | cases acted
      exact .rollsBack rfl rfl
    | cases acted

theorem Draft.frame {approval later : Row ApprovalProcess ApprovalStatus}
    {execution after : Row ApprovalProcess AiToolStatus} (draft : Draft approval execution t stage)
    (approvals : approval.Kept t later) (executions : execution.Kept t after) : Draft later after t stage := by
  have undecided : (∀ v, approval.held ≠ some (t, v)) → ∀ v, later.held ≠ some (t, v) :=
    fun none v held => none v ((approvals v).mp held)
  have unwritten : (∀ v, execution.held ≠ some (t, v)) → ∀ v, after.held ≠ some (t, v) :=
    fun none v held => none v ((executions v).mp held)
  cases draft with
  | rests rests decides writes => exact .rests rests (undecided decides) (unwritten writes)
  | decided held writes => exact .decided ((approvals _).mpr held) (unwritten writes)
  | reported writes => exact .reported (unwritten writes)
  | expired writes => exact .expired (unwritten writes)
  | ends backed =>
    refine .ends fun held => ?_
    exact (backed ((executions _).mp held)).imp_right (approvals _).mpr

end Moves

section Runs
variable {w : ApprovalWorld} {t : ApprovalProcess} {signal : ApprovalSignal}

theorem drafts_update {approval : Row ApprovalProcess ApprovalStatus} {execution : Row ApprovalProcess AiToolStatus}
    {after : ApprovalStage} (law : ApprovalLaw w) (own : Draft approval execution t after)
    (approvals : ∀ u ≠ t, w.db.approval.Kept u approval) (executions : ∀ u ≠ t, w.db.execution.Kept u execution)
    (u : ApprovalProcess) : Draft approval execution u (update w.proc t after u) := by
  by_cases same : u = t
  · subst same
    rw [update_self]
    exact own
  · rw [update_of_ne same]
    exact (law.drafts u).frame (approvals u same) (executions u same)

theorem ApprovalLaw.commits (law : ApprovalLaw w) {grants : Bool} (ending : w.proc t = .ending grants)
    (onTime : w.OnTime (t, .exec)) : ApprovalLaw ⟨w.db.commit t grants, update w.proc t .finished⟩ := by
  simp only [ApprovalWorld.OnTime, ending] at onTime
  obtain ⟨decides, settles, waits⟩ := onTime
  have draft := law.drafts t
  rw [ending] at draft
  have backed : w.db.execution.held = some (t, .approved) →
      grants = true ∨ w.db.approval.held = some (t, .approved) := by
    cases draft with
    | rests rests => cases rests
    | ends backed => exact backed
  have stands : w.db.handled = true ∨ w.db.approval.committed = .approved →
      (w.db.handled || grants) = true ∨ w.db.approval.read t = .approved := by
    rintro (handled | approved)
    · exact .inl (by rw [handled, Bool.true_or])
    · refine .inr (read_rule (P := fun status : ApprovalStatus => status = .approved) approved fun v held => ?_)
      exact (decides v held (by simp [approved])).trans approved
  have proc : ∀ approved, update w.proc t .finished .waitForApproval = .returned approved →
      w.proc .waitForApproval = .returned approved := by
    intro approved returned
    by_cases same : waitForApproval = t
    · subst same
      rw [update_self] at returned
      cases returned
    · rwa [update_of_ne same] at returned
  constructor
  · refine drafts_update law (.rests .finished ?_ ?_) (fun u other => kept_commit other)
      (fun u other => kept_commit other)
    · exact fun v => not_held_commit t v _
    · exact fun v => not_held_commit t v _
  · intro approved
    by_cases held : w.db.execution.held = some (t, .approved)
    · rcases backed held with granted | decided
      · exact .inl (by simp only [ApprovalDb.commit, granted, Bool.or_true])
      · exact .inr (read_of_held decided)
    · refine stands (law.backed ?_)
      by_contra other
      refine absurd approved (read_rule (P := fun status : AiToolStatus => status ≠ .approved) other ?_)
      exact fun v own same => held (own.trans (by rw [same]))
  · exact fun returned => stands (law.heard (proc true returned))
  · intro returned
    have gaveUp := proc false returned
    refine read_rule (P := fun status : AiToolStatus => status ≠ .approved) (law.refused gaveUp) ?_
    exact fun v held same => waits (held.trans (by rw [same])) gaveUp

theorem ApprovalLaw.works (law : ApprovalLaw w) {next : ApprovalDb} {after : ApprovalStage}
    (approval : next.approval = w.db.approval ∨ ∃ v, w.db.approval.Free t ∧ next.approval = w.db.approval.write t v)
    (execution : next.execution = w.db.execution ∨
      ∃ v, w.db.execution.Free t ∧ next.execution = w.db.execution.write t v)
    (handled : next.handled = w.db.handled) (draft : Draft next.approval next.execution t after)
    (heard : after = .returned true → w.proc t = .returned true ∨ w.db.execution.committed = .approved)
    (refused : after = .returned false → w.proc t = .returned false ∨ w.db.execution.committed = .rejected ∨
      signal = .abort ∧ w.proc t = .poll) (onTime : w.OnTime (t, signal)) :
    ApprovalLaw ⟨next, update w.proc t after⟩ := by
  have approvals : next.approval.committed = w.db.approval.committed ∧ ∀ u ≠ t, w.db.approval.Kept u next.approval := by
    rcases approval with same | ⟨v, free, same⟩
    · exact ⟨congrArg Row.committed same, fun u other => same ▸ .refl⟩
    · rw [same]
      exact ⟨rfl, fun u other => kept_write other free v⟩
  have executions : next.execution.committed = w.db.execution.committed ∧
      ∀ u ≠ t, w.db.execution.Kept u next.execution := by
    rcases execution with same | ⟨v, free, same⟩
    · exact ⟨congrArg Row.committed same, fun u other => same ▸ .refl⟩
    · rw [same]
      exact ⟨rfl, fun u other => kept_write other free v⟩
  constructor
  · exact drafts_update law draft approvals.2 executions.2
  · simp only [approvals.1, executions.1, handled]
    exact law.backed
  · simp only [approvals.1, handled]
    intro returned
    by_cases same : waitForApproval = t
    · subst same
      rw [update_self] at returned
      rcases heard returned with before | approved
      · exact law.heard before
      · exact law.backed approved
    · rw [update_of_ne same] at returned
      exact law.heard returned
  · simp only [executions.1]
    intro returned
    by_cases same : waitForApproval = t
    · subst same
      rw [update_self] at returned
      rcases refused returned with before | rejected | ⟨rfl, polls⟩
      · exact law.refused before
      · simp [rejected]
      · simpa only [ApprovalWorld.OnTime, polls] using onTime
    · rw [update_of_ne same] at returned
      exact law.refused returned

theorem ApprovalLaw.gaveUp (law : ApprovalLaw w) {next : ApprovalDb} (ending : w.proc t = .timeOut)
    (free : w.db.execution.Free t)
    (committed : next.approval = w.db.approval ∧ next.execution = Row.unheld .rejected ∧ next.handled = w.db.handled) :
    ApprovalLaw ⟨next, update w.proc t (.returned false)⟩ := by
  obtain ⟨approval, execution, handled⟩ := committed
  have draft := law.drafts t
  rw [ending] at draft
  cases draft with
  | rests _ undecided unwritten =>
    constructor
    · intro u
      simp only [approval, execution]
      refine drafts_update law (.rests (.returned false) undecided (by simp [Row.unheld])) (fun _ _ => .refl)
        (fun u other v => ?_) u
      constructor
      · intro held
        cases held
      · intro held
        exact absurd (free u v held) other
    · simp [execution, committed_unheld]
    · simp only [approval, handled]
      intro returned
      by_cases same : waitForApproval = t
      · subst same
        simp at returned
      · rw [update_of_ne same] at returned
        exact law.heard returned
    · simp [execution, committed_unheld]

theorem ApprovalLaw.rollsBack (law : ApprovalLaw w) (t : ApprovalProcess) :
    ApprovalLaw ⟨w.db.rollback t, update w.proc t .finished⟩ := by
  have proc : ∀ approved, update w.proc t .finished .waitForApproval = .returned approved →
      w.proc .waitForApproval = .returned approved := by
    intro approved returned
    by_cases same : waitForApproval = t
    · subst same
      rw [update_self] at returned
      cases returned
    · rwa [update_of_ne same] at returned
  constructor
  · refine drafts_update law (.rests .finished ?_ ?_) (fun u other => kept_rollback other)
      (fun u other => kept_rollback other)
    · exact fun v => not_held_rollback t v _
    · exact fun v => not_held_rollback t v _
  · exact law.backed
  · exact fun returned => law.heard (proc true returned)
  · exact fun returned => law.refused (proc false returned)

theorem ApprovalLaw.step (law : ApprovalLaw w) (e : ApprovalProcess × ApprovalSignal) (onTime : w.OnTime e) :
    ApprovalLaw (approvalStep w e) := by
  obtain ⟨t, signal⟩ := e
  unfold approvalStep
  cases stepped : World.step approvalAct w (t, signal) with
  | none => exact law
  | some next =>
    obtain ⟨db, after, acted, rfl⟩ := World.step_eq_some stepped
    rw [getD_some]
    cases move_approvalAct (law.drafts t) acted with
    | commits grants exec ending committed ended =>
      subst exec committed ended
      exact law.commits ending onTime
    | works approval execution handled draft heard refused =>
      exact law.works approval execution handled draft heard refused onTime
    | gaveUp exec ending free committed ended =>
      subst exec ended
      exact law.gaveUp ending free committed
    | rollsBack rolled ended =>
      subst rolled ended
      exact law.rollsBack t

theorem ApprovalLaw.committed (law : ApprovalLaw w) (t : ApprovalProcess) (signal : ApprovalSignal) :
    ((approvalStep w (t, signal)).db.approval.committed = w.db.approval.committed ∧
      (approvalStep w (t, signal)).db.execution.committed = w.db.execution.committed) ∨
    (∃ grants, signal = .exec ∧ w.proc t = .ending grants ∧
      (approvalStep w (t, signal)).db.approval.committed = w.db.approval.read t ∧
      (approvalStep w (t, signal)).db.execution.committed = w.db.execution.read t) ∨
    (signal = .exec ∧ w.proc t = .timeOut ∧ w.db.execution.Free t ∧
      (approvalStep w (t, signal)).db.approval.committed = w.db.approval.committed ∧
      (approvalStep w (t, signal)).db.execution.committed = .rejected) := by
  unfold approvalStep
  cases stepped : World.step approvalAct w (t, signal) with
  | none => exact .inl ⟨rfl, rfl⟩
  | some next =>
    obtain ⟨db, after, acted, rfl⟩ := World.step_eq_some stepped
    rw [getD_some]
    cases move_approvalAct (law.drafts t) acted with
    | works approval execution =>
      left
      constructor
      · rcases approval with same | ⟨v, -, same⟩ <;> simp only [same, committed_write]
      · rcases execution with same | ⟨v, -, same⟩ <;> simp only [same, committed_write]
    | commits grants exec ending committed =>
      exact .inr (.inl ⟨grants, exec, ending, by rw [committed]; exact ⟨rfl, rfl⟩⟩)
    | gaveUp exec ending free committed =>
      obtain ⟨approval, execution, -⟩ := committed
      exact .inr (.inr ⟨exec, ending, free, congrArg Row.committed approval, congrArg Row.committed execution⟩)
    | rollsBack rolled => exact .inl (by rw [rolled]; exact ⟨rfl, rfl⟩)

theorem ApprovalLaw.decidedOnce (law : ApprovalLaw w) {e : ApprovalProcess × ApprovalSignal} (onTime : w.OnTime e) :
    w.DecidedOnce e := by
  obtain ⟨t, signal⟩ := e
  rcases law.committed t signal with ⟨approval, execution⟩ | ⟨grants, rfl, ending, approval, execution⟩ |
    ⟨rfl, ending, free, approval, execution⟩
  · exact ⟨fun _ => approval, fun _ => execution⟩
  · simp only [ApprovalWorld.OnTime, ending] at onTime
    constructor
    · intro decided
      rw [approval]
      exact read_rule (P := fun status => status = w.db.approval.committed) rfl
        fun v held => onTime.1 v held decided
    · intro settled
      rw [execution]
      exact read_rule (P := fun status => status = w.db.execution.committed) rfl
        fun v held => onTime.2.1 v held settled
  · refine ⟨fun _ => approval, fun settled => ?_⟩
    simp only [ApprovalWorld.OnTime, ending] at onTime
    exact execution.trans (settled.resolve_left (onTime free)).symm

theorem ApprovalLaw.obeyed (law : ApprovalLaw w) : w.Obeyed where
  heard := by
    intro returned ended
    rcases law.heard returned with handled | approved
    · exact handled
    · rw [approved] at ended
      rcases ended with other | other | other <;> cases other
  refused := law.refused

theorem step_commits {grants : Bool} (ending : w.proc t = .ending grants) :
    approvalStep w (t, .exec) = ⟨w.db.commit t grants, update w.proc t .finished⟩ := by
  simp only [approvalStep, World.step, approvalAct, nextStatement, ending, map_some, getD_some]

theorem step_timeOut (ending : w.proc t = .timeOut) (free : w.db.execution.Free t) :
    (approvalStep w (t, .exec)).db.execution.committed = .rejected := by
  simp only [approvalStep, World.step, approvalAct, nextStatement, ending, ApprovalDb.updateExecution, if_pos free,
    map_some, getD_some, ApprovalDb.commit, commit_write, committed_unheld]

theorem onTime_of_commit {grants : Bool} (ending : w.proc t = .ending grants) (once : w.DecidedOnce (t, .exec))
    (obeyed : (approvalStep w (t, .exec)).Obeyed) :
    (∀ status, w.db.approval.held = some (t, status) → w.db.approval.committed ≠ .pending →
      status = w.db.approval.committed) ∧
    (∀ status, w.db.execution.held = some (t, status) → w.db.execution.committed.Settled →
      status = w.db.execution.committed) ∧
    (w.db.execution.held = some (t, .approved) → w.proc .waitForApproval ≠ .returned false) := by
  have acted := step_commits ending
  refine ⟨fun status held decided => ?_, fun status held settled => ?_, fun held gaveUp => ?_⟩
  · have same := once.approval decided
    rw [acted] at same
    exact (read_of_held held).symm.trans same
  · have same := once.execution settled
    rw [acted] at same
    exact (read_of_held held).symm.trans same
  · have other : waitForApproval ≠ t := by
      rintro rfl
      cases ending.symm.trans gaveUp
    rw [acted] at obeyed
    exact obeyed.refused ((update_of_ne other ..).trans gaveUp) (read_of_held held)

theorem onTime_of_abort (polls : w.proc .waitForApproval = .poll)
    (obeyed : (approvalStep w (.waitForApproval, .abort)).Obeyed) : w.db.execution.committed ≠ .approved := by
  have acted : approvalStep w (.waitForApproval, .abort) =
      ⟨w.db, update w.proc .waitForApproval (.returned false)⟩ := by
    simp only [approvalStep, World.step, approvalAct, polls, map_some, getD_some]
  rw [acted] at obeyed
  refine obeyed.refused ?_
  simp only [update_self]

theorem ApprovalLaw.onTime_iff (law : ApprovalLaw w) (e : ApprovalProcess × ApprovalSignal) :
    w.OnTime e ↔ w.DecidedOnce e ∧ (approvalStep w e).Obeyed := by
  constructor
  · intro onTime
    exact ⟨law.decidedOnce onTime, (law.step e onTime).obeyed⟩
  · rintro ⟨once, obeyed⟩
    obtain ⟨t, signal⟩ := e
    simp only [ApprovalWorld.OnTime]
    split
    next ending => exact onTime_of_commit ending once obeyed
    next ending =>
      intro free approved
      have same := once.execution (.inl approved)
      rw [step_timeOut ending free, approved] at same
      cases same
    next polls => exact onTime_of_abort polls obeyed
    next => trivial

theorem law_approvalStart (expiresAt now : ℕ) : ApprovalLaw (approvalStart expiresAt now) where
  drafts := by
    intro t
    cases t with
    | waitForApproval => exact .rests .poll (by simp [approvalStart, Row.unheld]) (by simp [approvalStart, Row.unheld])
    | call => exact .rests .idle (by simp [approvalStart, Row.unheld]) (by simp [approvalStart, Row.unheld])
  backed := by simp [approvalStart, Row.unheld]
  heard := by simp [approvalStart]
  refused := by simp [approvalStart]

/-- A request is decided once and its waiter obeyed exactly in the runs in which every write comes in time. -/
theorem approval_decided_once_iff (expiresAt now : ℕ) (es : List (ApprovalProcess × ApprovalSignal)) :
    (StepsMeet approvalStep ApprovalWorld.DecidedOnce (approvalStart expiresAt now) es ∧
      Throughout approvalStep ApprovalWorld.Obeyed (approvalStart expiresAt now) es) ↔
    StepsMeet approvalStep ApprovalWorld.OnTime (approvalStart expiresAt now) es := by
  have start := law_approvalStart expiresAt now
  have keep : ∀ w e, ApprovalLaw w → w.OnTime e → ApprovalLaw (approvalStep w e) :=
    fun w e law onTime => law.step e onTime
  have agree : StepsMeet approvalStep ApprovalWorld.OnTime (approvalStart expiresAt now) es ↔
      StepsMeet approvalStep (fun w e => w.DecidedOnce e ∧ (approvalStep w e).Obeyed)
        (approvalStart expiresAt now) es :=
    stepsMeet_congr keep (fun w e law => law.onTime_iff e) start
  rw [agree, throughout_iff_steps]
  constructor
  · rintro ⟨once, -, obeyed⟩ pre e post split
    exact ⟨once pre e post split, obeyed pre e post split⟩
  · intro both
    exact ⟨fun pre e post split => (both pre e post split).1, start.obeyed,
      fun pre e post split => (both pre e post split).2⟩

end Runs

/-- The user approves while a report of the request, which has read it pending, is under way. -/
def reportedRun : List (ApprovalProcess × ApprovalSignal) :=
  [(.call 0, .call .reportSuspicious), (.call 1, .call .approve), (.call 1, .exec), (.call 1, .exec), (.call 1, .exec),
    (.waitForApproval, .exec), (.call 0, .exec), (.call 0, .exec), (.call 0, .exec)]

theorem reported_request_executed :
    let approved := (reportedRun.take 6).foldl approvalStep (approvalStart 60000 0)
    let reported := reportedRun.foldl approvalStep (approvalStart 60000 0)
    approved.db.approval.committed = .approved ∧ approved.db.execution.committed = .approved ∧
      reported.db.approval.committed = .reported ∧ reported.db.execution.committed = .rejected ∧
      reported.proc .waitForApproval = .returned true ∧ reported.db.handled = false :=
  ⟨rfl, rfl, rfl, rfl, rfl, rfl⟩

end RemudaRmm.Approvals
