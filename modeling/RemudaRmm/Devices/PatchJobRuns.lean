import RemudaRmm.Devices.PatchJobs

/-! Runs of the jobs of one patch job: what each of them holds at every stage, and when the counters stay exact. -/
namespace RemudaRmm.Devices
open Foundation List Function Option Row

/-- Before its counter update a device job holds nothing, and nor does the check before its time-out. -/
inductive PatchStage.Works {κ : Type*} : PatchStage κ → Prop
  | timeOut : Works .timeOut
  | prepare : Works .prepare
  | poll : Works .poll
  | countDevice (success : Bool) : Works (.countDevice success)

inductive PatchStage.Rests {κ : Type*} : PatchStage κ → Prop
  | start : Rests .start
  | claimJob : Rests .claimJob
  | finished : Rests .finished

/-- The version of the row that a job holds at a stage, over the committed one. -/
inductive Draft {κ : Type*} [DecidableEq κ] (targets : List κ) (row : Row (PatchProcess κ) (Tally κ)) :
    PatchProcess κ → PatchStage κ → Prop
  | rests {t : PatchProcess κ} {stage : PatchStage κ} (rests : stage.Rests) (idle : ∀ v, row.held ≠ some (t, v)) :
      Draft targets row t stage
  | works {t : PatchProcess κ} {stage : PatchStage κ} (works : stage.Works) (idle : ∀ v, row.held ≠ some (t, v))
      (begun : row.committed.job.status ≠ .scheduled) : Draft targets row t stage
  | completesEmpty (empty : targets = []) (scheduled : row.committed.job.status = .scheduled)
      (held : row.held = some (.executePatchJob, row.committed.setStatus .running)) :
      Draft targets row .executePatchJob .completeEmpty
  | fansOut {rest : List κ} (listed : rest ⊆ targets) (some_target : targets ≠ [])
      (scheduled : row.committed.job.status = .scheduled)
      (held : row.held = some (.executePatchJob, row.committed.setStatus .running)) :
      Draft targets row .executePatchJob (.fanOut rest)
  | begins (scheduled : row.committed.job.status = .scheduled)
      (held : row.held =
        some (.executePatchJob, row.committed.setStatus (if targets = [] then .completed else .running))) :
      Draft targets row .executePatchJob .ending
  | timesOut (begun : row.committed.job.status ≠ .scheduled)
      (held : row.held = some (.checkCompletion, row.committed.timeOut targets)) :
      Draft targets row .checkCompletion .ending
  | counts {device : κ} {success : Bool} (begun : row.committed.job.status ≠ .scheduled)
      (held : row.held = some (.executeDevice device, row.committed.count device success)) :
      Draft targets row (.executeDevice device) .selectJob
  | finalizes {device : κ} {success : Bool} (begun : row.committed.job.status ≠ .scheduled)
      (held : row.held = some (.executeDevice device, row.committed.count device success))
      (settles : (row.committed.count device success).settle =
        (row.committed.count device success).setStatus (row.committed.count device success).job.verdict)
      (running : row.committed.job.status = .running) :
      Draft targets row (.executeDevice device) (.finalize (row.committed.count device success).job.verdict)
  | settles {device : κ} {success : Bool} (begun : row.committed.job.status ≠ .scheduled)
      (held : row.held = some (.executeDevice device, (row.committed.count device success).settle)) :
      Draft targets row (.executeDevice device) .ending

inductive PatchMove {κ : Type*} [DecidableEq κ] (targets : List κ) (t : PatchProcess κ) (signal : PatchSignal)
    (db : PatchDb κ) (stage : PatchStage κ) (next : PatchDb κ) (after : PatchStage κ) : Prop
  | works (row : next.row = db.row ∨ ∃ v, db.row.Free t ∧ next.row = db.row.write t v)
      (given : ∀ device, next.deviceJobs device = true → db.deviceJobs device = true ∨ device ∈ targets)
      (draft : Draft targets next.row t after) (begins : ∀ device, t = .executeDevice device → stage = .start →
        db.deviceJobs device = true)
      (unfinished : stage ≠ .finished)
  | commits (exec : signal = .exec) (ending : stage = .ending) (committed : next = db.commit t)
      (ended : after = .finished)
  | rollsBack (rolled : next = db.rollback t) (begun : stage ≠ .start) (unfinished : stage ≠ .finished)
      (ended : after = .finished)

structure PatchLaw {κ : Type*} [DecidableEq κ] (targets : List κ) (w : PatchWorld κ) : Prop where
  lawful : w.db.row.committed.Lawful targets
  drafts : ∀ t, Draft targets w.db.row t (w.proc t)
  given : ∀ device, w.db.deviceJobs device = true → device ∈ targets
  targeted : ∀ device, w.proc (.executeDevice device) ≠ .start → device ∈ targets
  spent : w.db.row.committed.job.status = .running → ∀ device ∈ w.db.row.committed.devices,
    w.proc (.executeDevice device) = .finished

section Moves
variable {κ : Type*} [DecidableEq κ] {targets : List κ} {db next : PatchDb κ} {stage after : PatchStage κ}
  {t : PatchProcess κ} {signal : PatchSignal}

theorem update_row {change : Tally κ → Tally κ} (updated : db.update t change = some next) :
    db.row.Free t ∧ next = { db with row := db.row.write t (change (db.row.read t)) } := by
  unfold PatchDb.update at updated
  split_ifs at updated with free
  exact ⟨free, (some.inj updated).symm⟩

theorem PatchMove.of_update {change : Tally κ → Tally κ} (updated : db.update t change = some next)
    (draft : Draft targets (db.row.write t (change (db.row.read t))) t after) (begun : stage ≠ .start)
    (unfinished : stage ≠ .finished) : PatchMove targets t signal db stage next after := by
  obtain ⟨free, rfl⟩ := update_row updated
  exact .works (.inr ⟨_, free, rfl⟩) (fun _ given => .inl given) draft (fun _ _ start => absurd start begun)
    unfinished

theorem PatchMove.of_read (draft : Draft targets db.row t after) (begun : stage ≠ .start)
    (unfinished : stage ≠ .finished) : PatchMove targets t signal db stage db after :=
  .works (.inl rfl) (fun _ given => .inl given) draft (fun _ _ start => absurd start begun) unfinished

theorem move_executePatchJob (draft : Draft targets db.row .executePatchJob stage)
    (acted : processExecutePatchJob targets db stage = some (next, after)) :
    PatchMove targets .executePatchJob .exec db stage next after := by
  cases draft with
  | rests rests idle =>
    have reads : db.row.read .executePatchJob = db.row.committed := read_of_not_held idle
    cases rests with
    | start =>
      cases acted
      refine .works (.inl rfl) (fun _ given => .inl given) (.rests ?_ idle) (by simp) (by simp)
      split_ifs
      · exact .claimJob
      · exact .finished
    | claimJob =>
      simp only [processExecutePatchJob, PatchDb.job, reads] at acted
      split_ifs at acted with scheduled empty
      · obtain ⟨_, updated, same⟩ := map_eq_some_iff.mp acted
        cases same
        refine .of_update updated ?_ (by simp) (by simp)
        rw [reads]
        exact .completesEmpty empty scheduled rfl
      · obtain ⟨_, updated, same⟩ := map_eq_some_iff.mp acted
        cases same
        refine .of_update updated ?_ (by simp) (by simp)
        rw [reads]
        exact .fansOut (List.Subset.refl targets) empty scheduled rfl
      · exact of_some_eq acted (.of_read (.rests .finished idle) (by simp) (by simp))
    | finished => cases acted
  | works works => cases works <;> cases acted
  | completesEmpty empty scheduled held =>
    obtain ⟨_, updated, same⟩ := map_eq_some_iff.mp acted
    cases same
    refine .of_update updated (.begins scheduled ?_) (by simp) (by simp)
    rw [read_of_held held, if_pos empty]
    rfl
  | @fansOut rest listed some_target scheduled held =>
    cases rest with
    | nil =>
      cases acted
      refine .works (.inl rfl) (fun _ given => .inl given) (.begins scheduled ?_) (by simp) (by simp)
      rw [if_neg some_target]
      exact held
    | cons device rest =>
      cases acted
      obtain ⟨target, others⟩ := cons_subset.mp listed
      refine .works (.inl rfl) (fun k given => ?_) (.fansOut others some_target scheduled held) (by simp) (by simp)
      by_cases same : k = device
      · exact .inr (same ▸ target)
      · exact .inl ((update_of_ne same ..).symm.trans given)
  | begins =>
    exact of_some_eq acted (.commits rfl rfl rfl rfl)

theorem move_checkCompletion (law : db.row.committed.Lawful targets)
    (draft : Draft targets db.row .checkCompletion stage)
    (acted : processCheckCompletion targets db stage = some (next, after)) :
    PatchMove targets .checkCompletion .exec db stage next after := by
  cases draft with
  | rests rests idle =>
    cases rests with
    | start =>
      by_cases added : db.completionJob = true
      · simp only [processCheckCompletion, if_pos added, PatchDb.job, read_of_not_held idle] at acted
        refine of_some_eq acted (.works (.inl rfl) (fun _ given => .inl given) ?_ (by simp) (by simp))
        by_cases running : db.row.committed.job.status = .running
        · have waits := law.waits running
          rw [if_neg (not_not_intro running), if_neg (by omega)]
          exact .works .timeOut idle (by simp [running])
        · rw [if_pos running]
          exact .rests .finished idle
      · rw [processCheckCompletion, if_neg added] at acted
        cases acted
    | claimJob | finished => cases acted
  | works works idle begun =>
    cases works with
    | timeOut =>
      obtain ⟨_, updated, same⟩ := map_eq_some_iff.mp acted
      cases same
      refine .of_update updated (.timesOut begun ?_) (by simp) (by simp)
      rw [read_of_not_held idle]
      rfl
    | prepare | poll | countDevice success => cases acted
  | timesOut =>
    exact of_some_eq acted (.commits rfl rfl rfl rfl)

theorem move_executeDevice {device : κ} (draft : Draft targets db.row (.executeDevice device) stage)
    (acted : processExecuteDevice device db stage = some (next, after)) :
    PatchMove targets (.executeDevice device) .exec db stage next after := by
  cases draft with
  | rests rests idle =>
    cases rests with
    | start =>
      by_cases added : db.deviceJobs device = true
      · simp only [processExecuteDevice, if_pos added, PatchDb.job, read_of_not_held idle] at acted
        cases acted
        refine .works (.inl rfl) (fun _ given => .inl given) ?_ (fun k same _ => ?_) (by simp)
        · by_cases running : db.row.committed.job.status = .running
          · rw [if_pos running]
            exact .works .prepare idle (by simp [running])
          · rw [if_neg running]
            exact .rests .finished idle
        · exact PatchProcess.executeDevice.inj same ▸ added
      · rw [processExecuteDevice, if_neg added] at acted
        cases acted
    | claimJob | finished => cases acted
  | works works idle begun =>
    cases works with
    | timeOut | prepare | poll => cases acted
    | countDevice success =>
      obtain ⟨_, updated, same⟩ := map_eq_some_iff.mp acted
      cases same
      refine .of_update updated (@Draft.counts _ _ _ _ _ success begun ?_) (by simp) (by simp)
      rw [read_of_not_held idle]
      rfl
  | @counts _ success begun held =>
    refine of_some_eq acted (.of_read ?_ (by simp) (by simp))
    simp only [PatchDb.job, read_of_held held]
    by_cases last : (db.row.committed.count device success).job.status = .running ∧
        (db.row.committed.count device success).job.devicesPending ≤ 0
    · rw [if_pos last]
      exact .finalizes begun held (if_pos last) ((job_count success _).1.symm.trans last.1)
    · rw [if_neg last]
      refine @Draft.settles _ _ _ _ _ success begun ?_
      rw [Tally.settle, if_neg last]
      exact held
  | @finalizes _ success begun held settles running =>
    have counted : ((db.row.read (.executeDevice device)).job).status = .running := by
      rw [read_of_held held]
      exact (job_count success _).1.trans running
    rw [processExecuteDevice, PatchDb.job, if_pos counted] at acted
    obtain ⟨_, updated, same⟩ := map_eq_some_iff.mp acted
    cases same
    refine .of_update updated (@Draft.settles _ _ _ _ _ success begun ?_) (by simp) (by simp)
    rw [read_of_held held, held_write]
    exact congrArg (fun v => some (_, v)) settles.symm
  | settles =>
    exact of_some_eq acted (.commits rfl rfl rfl rfl)

theorem move_patchAct (law : db.row.committed.Lawful targets) (draft : Draft targets db.row t stage)
    (acted : patchAct targets t signal db stage = some (next, after)) :
    PatchMove targets t signal db stage next after := by
  cases signal with
  | exec =>
    cases t with
    | executePatchJob => exact move_executePatchJob draft acted
    | checkCompletion => exact move_checkCompletion law draft acted
    | executeDevice device => exact move_executeDevice draft acted
  | prepared outcome =>
    simp only [patchAct] at acted
    split_ifs at acted with prepares
    cases acted
    subst prepares
    cases draft with
    | rests rests => cases rests
    | works _ idle begun =>
      refine .of_read ?_ (by simp) (by simp)
      cases outcome with
      | skipped => exact .works (.countDevice true) idle begun
      | commandQueued => exact .works .poll idle begun
      | orgMismatch | notTargeted | deviceNotFound => exact .rests .finished idle
  | polled finalCommand =>
    simp only [patchAct] at acted
    split_ifs at acted with polls
    cases acted
    subst polls
    cases draft with
    | rests rests => cases rests
    | works _ idle begun => exact .of_read (.works (.countDevice _) idle begun) (by simp) (by simp)
  | rollback =>
    simp only [patchAct] at acted
    split_ifs at acted with idle
    exact of_some_eq acted (.rollsBack rfl (fun same => idle (.inl same)) (fun same => idle (.inr same)) rfl)

theorem Draft.frame {row later : Row (PatchProcess κ) (Tally κ)} (draft : Draft targets row t stage)
    (undisturbed : row.Undisturbed t later)
    (begun : row.committed.job.status ≠ .scheduled → later.committed.job.status ≠ .scheduled) :
    Draft targets later t stage := by
  have idle : (∀ v, row.held ≠ some (t, v)) → ∀ v, later.held ≠ some (t, v) :=
    fun none v held => none v ((undisturbed.kept v).mp held)
  have held : ∀ v, row.held = some (t, v) → later.held = some (t, v) ∧ later.committed = row.committed :=
    fun v own => ⟨(undisturbed.kept v).mpr own, undisturbed.committed v own⟩
  cases draft with
  | rests rests none => exact .rests rests (idle none)
  | works works none started => exact .works works (idle none) (begun started)
  | completesEmpty empty scheduled own =>
    obtain ⟨own, same⟩ := held _ own
    rw [← same] at scheduled own
    exact .completesEmpty empty scheduled own
  | fansOut listed some_target scheduled own =>
    obtain ⟨own, same⟩ := held _ own
    rw [← same] at scheduled own
    exact .fansOut listed some_target scheduled own
  | begins scheduled own =>
    obtain ⟨own, same⟩ := held _ own
    rw [← same] at scheduled own
    exact .begins scheduled own
  | timesOut started own =>
    obtain ⟨own, same⟩ := held _ own
    rw [← same] at own
    exact .timesOut (begun started) own
  | counts started own =>
    obtain ⟨own, same⟩ := held _ own
    rw [← same] at own
    exact .counts (begun started) own
  | finalizes started own settles running =>
    obtain ⟨own, same⟩ := held _ own
    rw [← same] at own settles running ⊢
    exact .finalizes (begun started) own settles running
  | settles started own =>
    obtain ⟨own, same⟩ := held _ own
    rw [← same] at own
    exact .settles (begun started) own

end Moves

section Runs
variable {κ : Type*} [DecidableEq κ] {targets : List κ} {w next : PatchWorld κ}

/-- A device is counted, and the job timed out, only while there is no verdict that this would change. -/
def OnTime (w : PatchWorld κ) : PatchProcess κ × PatchSignal → Prop
  | (.executeDevice device, .exec) =>
    w.proc (.executeDevice device) = .ending → ¬w.db.row.committed.job.Finished
  | (.checkCompletion, .exec) =>
    w.proc .checkCompletion = .ending → w.db.row.committed.job.status ≠ .completed
  | _ => True

def KeepsVerdict (targets : List κ) (w : PatchWorld κ) (e : PatchProcess κ × PatchSignal) : Prop :=
  w.db.row.committed.job.Finished → (patchStep targets w e).db.row.committed.job = w.db.row.committed.job

variable {t : PatchProcess κ}

theorem PatchLaw.works (law : PatchLaw targets w) {db : PatchDb κ} {after : PatchStage κ}
    (committed : db.row.committed = w.db.row.committed) (own : Draft targets db.row t after)
    (others : ∀ u ≠ t, w.db.row.Undisturbed u db.row) (given : ∀ device, db.deviceJobs device = true → device ∈ targets)
    (targeted : ∀ device, t = .executeDevice device → after ≠ .start → device ∈ targets)
    (unfinished : w.proc t ≠ .finished) : PatchLaw targets ⟨db, update w.proc t after⟩ where
  lawful := by
    rw [committed]
    exact law.lawful
  drafts := by
    intro u
    by_cases same : u = t
    · subst same
      simp only [update_self]
      exact own
    · simp only [update_of_ne same]
      refine (law.drafts u).frame (others u same) ?_
      rw [committed]
      exact id
  given := given
  targeted := by
    intro device begun
    by_cases same : t = .executeDevice device
    · subst same
      simp only [update_self] at begun
      exact targeted device rfl begun
    · simp only [update_of_ne (Ne.symm same)] at begun
      exact law.targeted device begun
  spent := by
    rw [committed]
    intro running device counted
    have finished := law.spent running device counted
    have other : .executeDevice device ≠ t := fun same => unfinished (same ▸ finished)
    simp only [update_of_ne other]
    exact finished

theorem PatchLaw.commits (law : PatchLaw targets w) (ending : w.proc t = .ending)
    (lawful : (w.db.row.read t).Lawful targets)
    (begun : w.db.row.committed.job.status ≠ .scheduled → (w.db.row.read t).job.status ≠ .scheduled)
    (spent : (w.db.row.read t).job.status = .running → ∀ device ∈ (w.db.row.read t).devices,
      device ∈ w.db.row.committed.devices ∧ w.db.row.committed.job.status = .running ∨ t = .executeDevice device) :
    PatchLaw targets ⟨w.db.commit t, update w.proc t .finished⟩ where
  lawful := lawful
  drafts := by
    intro u
    by_cases same : u = t
    · subst same
      simp only [update_self]
      exact .rests .finished fun v => not_held_commit u v _
    · simp only [update_of_ne same]
      exact (law.drafts u).frame (undisturbed_commit same) begun
  given := law.given
  targeted := by
    intro device started
    refine law.targeted device fun start => ?_
    by_cases same : .executeDevice device = t
    · rw [same, ending] at start
      cases start
    · simp only [update_of_ne same] at started
      exact started start
  spent := by
    intro running device counted
    by_cases same : .executeDevice device = t
    · simp only [same, update_self]
    · simp only [update_of_ne same]
      obtain ⟨before, ran⟩ := (spent running device counted).resolve_right (Ne.symm same)
      exact law.spent ran device before

theorem PatchLaw.step_of (law : PatchLaw targets w) (e : PatchProcess κ × PatchSignal) (onTime : OnTime w e)
    (timesOut : e = (.checkCompletion, .exec) → w.proc .checkCompletion = .ending →
      w.db.row.committed.job.status ≠ .scheduled → (w.db.row.committed.timeOut targets).Lawful targets) :
    PatchLaw targets (patchStep targets w e) := by
  obtain ⟨t, signal⟩ := e
  unfold patchStep
  cases stepped : World.step (patchAct targets) w (t, signal) with
  | none => exact law
  | some next =>
    obtain ⟨db, after, acted, rfl⟩ := World.step_eq_some stepped
    have draft := law.drafts t
    cases move_patchAct law.lawful draft acted with
    | works row given own begins unfinished =>
      refine law.works ?_ own (fun u other => ?_) (fun device added => ?_) (fun device same _ => ?_) unfinished
      · rcases row with same | ⟨v, free, wrote⟩
        · rw [same]
        · rw [wrote, committed_write]
      · rcases row with same | ⟨v, free, wrote⟩
        · rw [same]
          exact ⟨.refl, fun _ _ => rfl⟩
        · rw [wrote]
          exact ⟨kept_write other free v, fun _ _ => rfl⟩
      · exact (given device added).elim (law.given device) id
      · by_cases start : w.proc t = .start
        · exact law.given device (begins device same start)
        · exact law.targeted device (same ▸ start)
    | rollsBack rolled begun unfinished ended =>
      subst rolled ended
      refine law.works rfl (.rests .finished fun v => not_held_rollback t v _) (fun u other => ?_) law.given
        (fun device same _ => law.targeted device (same ▸ begun)) unfinished
      exact ⟨kept_rollback other, fun _ _ => rfl⟩
    | commits exec ending committed ended =>
      subst exec committed ended
      rw [ending] at draft
      cases draft with
      | rests rests | works rests => cases rests
      | begins scheduled held =>
        have fresh := law.lawful.fresh scheduled
        refine law.commits ending ?_ (fun begun => absurd scheduled begun) ?_
        · rw [read_of_held held]
          exact law.lawful.begin scheduled
        · rw [read_of_held held]
          intro running device counted
          simp only [Tally.devices, Tally.setStatus, fresh] at counted
          cases counted
      | timesOut begun held =>
        refine law.commits ending ?_ (fun _ => ?_) ?_
        · rw [read_of_held held]
          exact timesOut rfl ending begun
        · rw [read_of_held held]
          intro impossible
          cases impossible
        · rw [read_of_held held]
          intro impossible
          cases impossible
      | @settles device success begun held =>
        have running := PatchJob.running_of _ law.lawful.live begun (onTime ending)
        have target : device ∈ targets := law.targeted device (by simp [ending])
        have uncounted : device ∉ w.db.row.committed.devices := by
          intro counted
          have finished := law.spent running device counted
          rw [ending] at finished
          cases finished
        have exact := law.lawful.counts running target uncounted success
        have settled := exact.settle ((job_count success _).1.trans running)
        refine law.commits ending ?_ (fun _ again => ?_) ?_
        · rw [read_of_held held]
          exact settled
        · rw [read_of_held held] at again
          have fresh := settled.fresh again
          unfold Tally.settle at fresh
          split_ifs at fresh <;> cases fresh
        · rw [read_of_held held]
          intro _ k counted
          have devices : k ∈ device :: w.db.row.committed.devices := by
            unfold Tally.settle at counted
            split_ifs at counted <;> exact counted
          rcases mem_cons.mp devices with rfl | before
          · exact .inr rfl
          · exact .inl ⟨before, running⟩

theorem PatchLaw.step (law : PatchLaw targets w) (distinct : targets.Nodup) (e : PatchProcess κ × PatchSignal)
    (onTime : OnTime w e) : PatchLaw targets (patchStep targets w e) := by
  refine law.step_of e onTime fun same ending begun => ?_
  subst same
  exact law.lawful.timeOut distinct begun (onTime ending)

theorem committed_patchStep (ending : w.proc t = .ending) :
    (patchStep targets w (t, .exec)).db.row.committed = w.db.row.read t := by
  cases t <;> simp only [patchStep, World.step, patchAct, ending] <;> rfl

theorem PatchLaw.committed_or_ending (law : PatchLaw targets w) (e : PatchProcess κ × PatchSignal) :
    (patchStep targets w e).db.row.committed = w.db.row.committed ∨ e.2 = .exec ∧ w.proc e.1 = .ending := by
  unfold patchStep
  cases stepped : World.step (patchAct targets) w e with
  | none => exact .inl rfl
  | some next =>
    obtain ⟨db, after, acted, rfl⟩ := World.step_eq_some stepped
    cases move_patchAct law.lawful (law.drafts e.1) acted with
    | commits exec ending => exact .inr ⟨exec, ending⟩
    | rollsBack rolled =>
      subst rolled
      exact .inl rfl
    | works row =>
      rcases row with same | ⟨v, -, wrote⟩
      · exact .inl (congrArg Row.committed same)
      · exact .inl (by simp only [getD_some, wrote, committed_write])

theorem PatchLaw.onTime_iff (law : PatchLaw targets w) (e : PatchProcess κ × PatchSignal) :
    OnTime w e ↔ KeepsVerdict targets w e := by
  constructor
  · intro onTime finished
    rcases law.committed_or_ending e with same | ⟨exec, ending⟩
    · rw [same]
    · obtain ⟨t, signal⟩ := e
      dsimp only at exec ending
      subst exec
      rw [committed_patchStep ending]
      have draft := law.drafts t
      rw [ending] at draft
      cases draft with
      | rests rests | works rests => cases rests
      | begins scheduled => rcases finished with other | other <;> cases scheduled.symm.trans other
      | timesOut begun held =>
        have failed := finished.resolve_left (onTime ending)
        have settled := law.lawful.settled finished
        rw [read_of_held held]
        simp only [Tally.timeOut, PatchJob.timeOut, settled, Int.add_zero, ← failed]
        rw [← settled]
      | settles => exact absurd finished (onTime ending)
  · intro keeps
    obtain ⟨t, signal⟩ := e
    cases signal with
    | prepared | polled | rollback => cases t <;> trivial
    | exec =>
      cases t with
      | executePatchJob => trivial
      | checkCompletion =>
        intro ending completed
        have same := keeps (.inl completed)
        have draft := law.drafts .checkCompletion
        rw [committed_patchStep ending] at same
        rw [ending] at draft
        cases draft with
        | rests rests | works rests => cases rests
        | timesOut begun held =>
          rw [read_of_held held] at same
          have status : PatchJobStatus.failed = w.db.row.committed.job.status := congrArg PatchJob.status same
          cases status.trans completed
      | executeDevice device =>
        intro ending finished
        have same := keeps finished
        have draft := law.drafts (.executeDevice device)
        rw [committed_patchStep ending] at same
        rw [ending] at draft
        cases draft with
        | rests rests | works rests => cases rests
        | @settles _ success begun held =>
          obtain ⟨status, -, pending⟩ := job_count success w.db.row.committed.job
          rw [read_of_held held, Tally.settle, if_neg] at same
          · have counted := pending.symm.trans (congrArg PatchJob.devicesPending same)
            omega
          · rintro ⟨running, -⟩
            rcases finished with other | other <;> cases (status.symm.trans running).symm.trans other

omit [DecidableEq κ] in
theorem lawful_created (targets : List κ) : (⟨createdPatchJob targets, []⟩ : Tally κ).Lawful targets := by
  refine ⟨⟨?_, ?_, rfl, rfl, rfl, nodup_nil, nil_subset _, ?_⟩, nofun, fun _ => rfl, ?_, nofun⟩
  · exact Int.natCast_nonneg _
  · simp only [createdPatchJob]
    omega
  · rintro (other | other) <;> cases other
  · rintro (other | other) <;> cases other

theorem law_patchStart (targets : List κ) : PatchLaw targets (patchStart targets) where
  lawful := lawful_created targets
  drafts := fun _ => .rests .start nofun
  given := nofun
  targeted := fun _ begun => absurd rfl begun
  spent := nofun

/-- The counters are exact and no verdict changes, exactly in the runs in which no device is counted after the verdict
and no job that was completed is timed out. -/
theorem patch_counters_exact_iff (targets : List κ) (distinct : targets.Nodup)
    (es : List (PatchProcess κ × PatchSignal)) :
    (Throughout (patchStep targets) (fun w => w.db.row.committed.Exact targets) (patchStart targets) es ∧
      StepsMeet (patchStep targets) (KeepsVerdict targets) (patchStart targets) es) ↔
    StepsMeet (patchStep targets) OnTime (patchStart targets) es := by
  have keep : ∀ w e, PatchLaw targets w → OnTime w e → PatchLaw targets (patchStep targets w e) :=
    fun w e law onTime => law.step distinct e onTime
  have agree : StepsMeet (patchStep targets) OnTime (patchStart targets) es ↔
      StepsMeet (patchStep targets) (KeepsVerdict targets) (patchStart targets) es :=
    stepsMeet_congr keep (fun w e law => law.onTime_iff e) (law_patchStart targets)
  constructor
  · exact fun both => agree.mpr both.2
  · intro onTime
    refine ⟨fun pre post split => ?_, agree.mp onTime⟩
    exact (throughout_of_invariant keep (law_patchStart targets) onTime pre post split).lawful.toExact

end Runs

instance decidableOnTime {κ : Type*} [DecidableEq κ] (w : PatchWorld κ) :
    (e : PatchProcess κ × PatchSignal) → Decidable (OnTime w e)
  | (.executeDevice _, .exec) => inferInstanceAs (Decidable (_ → ¬_))
  | (.checkCompletion, .exec) => inferInstanceAs (Decidable (_ → _))
  | (.executePatchJob, .exec) => .isTrue trivial
  | (t, .prepared _) | (t, .polled _) | (t, .rollback) => .isTrue (by cases t <;> trivial)

def execs (n : ℕ) (t : PatchProcess ℕ) : List (PatchProcess ℕ × PatchSignal) := List.replicate n (t, .exec)

/-- The only device is still waiting for its command when the check times the job out. -/
def lateRun : List (PatchProcess ℕ × PatchSignal) :=
  execs 5 .executePatchJob ++ [(.executeDevice 7, .exec), (.executeDevice 7, .prepared .commandQueued)] ++
    execs 3 .checkCompletion ++ [(.executeDevice 7, .polled (some ⟨true, some true, some 0⟩))] ++
    execs 3 (.executeDevice 7)

theorem late_device_counted_twice :
    let w := lateRun.foldl (patchStep [7]) (patchStart [7])
    w.db.row.committed = ⟨⟨.failed, 1, 1, 1, -1⟩, [(7, true), (7, false)]⟩ ∧ ¬w.db.row.committed.Exact [7] :=
  ⟨by decide, fun exact => absurd exact.pending (by decide)⟩

/-- One device is skipped, the other reports before the check. -/
def punctualRun : List (PatchProcess ℕ × PatchSignal) :=
  execs 6 .executePatchJob ++ [(.executeDevice 7, .exec), (.executeDevice 7, .prepared (.skipped .deviceOffline))] ++
    execs 3 (.executeDevice 7) ++ [(.executeDevice 8, .exec), (.executeDevice 8, .prepared .commandQueued),
    (.executeDevice 8, .polled none)] ++ execs 4 (.executeDevice 8) ++ execs 3 .checkCompletion

theorem punctual_run_exact :
    (punctualRun.foldl (patchStep [7, 8]) (patchStart [7, 8])).db.row.committed.job = ⟨.failed, 2, 1, 1, 0⟩ ∧
      Throughout (patchStep [7, 8]) (fun w => w.db.row.committed.Exact [7, 8]) (patchStart [7, 8]) punctualRun :=
  ⟨by decide, ((patch_counters_exact_iff [7, 8] (by decide) punctualRun).mpr (by decide)).1⟩

end RemudaRmm.Devices
