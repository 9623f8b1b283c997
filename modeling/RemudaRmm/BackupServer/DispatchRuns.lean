import Mathlib.Data.Nat.Basic
import RemudaRmm.BackupServer.BackupDispatch

/-! Runs of a dispatch beside cancels and results: what the dispatch holds and still owes at every stage, and when every
job it leaves in flight has had its command sent. -/
namespace RemudaRmm.BackupServer
open Foundation Function Option Row Table Option
variable {db next : BackupDb} {w : BackupWorld} {input : DispatchInput}

def BackupJob.Onto (job after : BackupJob) : Prop := ¬job.status.InFlight → after.status = job.status

theorem BackupJob.Onto.inFlight {job after : BackupJob} (onto : job.Onto after) (inFlight : after.status.InFlight) :
    job.status.InFlight := by
  by_contra ended
  exact ended (onto ended ▸ inFlight)

namespace BackupDb

/-- Versions of a job go on from the committed one, and only the dispatch has jobs that nobody else can see. -/
structure RowsLaw (db : BackupDb) : Prop where
  versions : ∀ t id v, (db.jobs id).held = some (t, v) →
    ∃ after, v = some after ∧ ∀ job, (db.jobs id).committed = some job → job.Onto after
  absent : ∀ id, db.count ≤ id → db.jobs id = .unheld none
  unborn : ∀ t id v, (db.jobs id).committed = none → (db.jobs id).held = some (t, v) → t = .dispatch
  parent : ∃ job, (db.jobs 0).committed = some job

variable {db next : BackupDb} {t u : BackupProcess} {id k : ℕ}

theorem update_some {matching : BackupJob → Prop} [DecidablePred matching] {change : BackupJob → BackupJob}
    (updated : db.update t id matching change = some next) :
    (next = db ∧ ∀ job, (db.jobs id).read t = some job → ¬matching job) ∨
    ∃ job, (db.jobs id).read t = some job ∧ matching job ∧ (db.jobs id).Free t ∧
      next = { db with jobs := db.jobs.write t id (some (change job)) } := by
  unfold update at updated
  split at updated
  next job found =>
    split_ifs at updated with matched free
    · exact .inr ⟨job, found, matched, free, (some.inj updated).symm⟩
    · refine .inl ⟨(some.inj updated).symm, fun other read => ?_⟩
      rwa [← some.inj (found.symm.trans read)]
  next none =>
    refine .inl ⟨(some.inj updated).symm, fun job read => ?_⟩
    rw [none] at read
    cases read

namespace RowsLaw

theorem count_pos (law : db.RowsLaw) : 0 < db.count := by
  obtain ⟨job, there⟩ := law.parent
  by_contra zero
  rw [law.absent 0 (by omega)] at there
  cases there

theorem read_onto (law : db.RowsLaw) (t : BackupProcess) {job : BackupJob} (there : (db.jobs id).committed = some job) :
    ∃ after, (db.jobs id).read t = some after ∧ job.Onto after := by
  rcases (db.jobs id).read_cases t with ⟨v, held, read⟩ | ⟨-, same⟩
  · obtain ⟨after, rfl, onto⟩ := law.versions t id v held
    exact ⟨after, read, onto job there⟩
  · exact ⟨job, same.trans there, fun _ => rfl⟩

theorem write (law : db.RowsLaw) {after : BackupJob} (inside : id < db.count)
    (onto : ∀ job, (db.jobs id).committed = some job → job.Onto after)
    (own : (db.jobs id).committed = none → t = .dispatch) :
    ({ db with jobs := db.jobs.write t id (some after) } : BackupDb).RowsLaw where
  versions u k v held := by
    by_cases same : k = id
    · subst same
      simp only [write_self, held_write, some.injEq, Prod.mk.injEq, committed_write] at held ⊢
      exact ⟨after, held.2.symm, onto⟩
    · simp only [write_of_ne same] at held ⊢
      exact law.versions u k v held
  absent k beyond := by
    simp only at beyond ⊢
    rw [write_of_ne (by omega)]
    exact law.absent k beyond
  unborn u k v unseen held := by
    by_cases same : k = id
    · subst same
      simp only [write_self, held_write, some.injEq, Prod.mk.injEq, committed_write] at held unseen
      exact held.1 ▸ own unseen
    · simp only [write_of_ne same] at held unseen
      exact law.unborn u k v unseen held
  parent := by
    simp only [Table.committed_write]
    exact law.parent

theorem insertChild (law : db.RowsLaw) : (db.insertChild .dispatch).RowsLaw where
  versions u k v held := by
    by_cases same : k = db.count
    · subst same
      simp only [BackupDb.insertChild, write_self, held_write, some.injEq, Prod.mk.injEq,
        committed_write, law.absent db.count (Nat.le_refl _)] at held ⊢
      refine ⟨_, held.2.symm, fun job there => ?_⟩
      cases there
    · simp only [BackupDb.insertChild, write_of_ne same] at held ⊢
      exact law.versions u k v held
  absent k beyond := by
    simp only [BackupDb.insertChild] at beyond ⊢
    rw [write_of_ne (by omega)]
    exact law.absent k (by omega)
  unborn u k v unseen held := by
    by_cases same : k = db.count
    · subst same
      simp only [BackupDb.insertChild, write_self, held_write, some.injEq, Prod.mk.injEq] at held
      exact held.1.symm
    · simp only [BackupDb.insertChild, write_of_ne same] at held unseen
      exact law.unborn u k v unseen held
  parent := by
    simp only [BackupDb.insertChild, Table.committed_write]
    exact law.parent

theorem sendCommand (law : db.RowsLaw) (id : ℕ) : (db.sendCommand id).RowsLaw :=
  ⟨law.versions, law.absent, law.unborn, law.parent⟩

theorem commit (law : db.RowsLaw) (t : BackupProcess) : (db.commit t).RowsLaw where
  versions u k v held := by
    obtain ⟨kept, other⟩ := held_commit_iff.mp held
    have same := (undisturbed_commit other).committed v kept
    simp only [BackupDb.commit, same]
    exact law.versions u k v kept
  absent k beyond := by
    simp only [BackupDb.commit, law.absent k beyond, commit_unheld]
  unborn u k v unseen held := by
    obtain ⟨kept, other⟩ := held_commit_iff.mp held
    exact law.unborn u k v (((undisturbed_commit other).committed v kept).symm.trans unseen) kept
  parent := by
    obtain ⟨job, there⟩ := law.parent
    obtain ⟨after, read, -⟩ := law.read_onto t there
    exact ⟨after, read⟩

theorem rollback (law : db.RowsLaw) (t : BackupProcess) : (db.rollback t).RowsLaw where
  versions u k v held := law.versions u k v (held_rollback_iff.mp held).1
  absent k beyond := by
    simp only [BackupDb.rollback, law.absent k beyond, rollback_unheld]
  unborn u k v unseen held := law.unborn u k v unseen (held_rollback_iff.mp held).1
  parent := law.parent

end RowsLaw

structure Onward (db next : BackupDb) : Prop where
  rows : ∀ id after, (next.jobs id).read .dispatch = some after →
    ∃ job, (db.jobs id).read .dispatch = some job ∧ job.Onto after
  held : ∀ id, (db.jobs id).Kept .dispatch (next.jobs id)
  unborn : ∀ id, (db.jobs id).committed = none → (next.jobs id).committed = none
  cancelled : db.Cancelled → next.Cancelled
  sent : next.sent = db.sent
  late : next.late = db.late
  count : next.count = db.count

theorem Onward.refl (db : BackupDb) : db.Onward db where
  rows _ after read := ⟨after, read, fun _ => rfl⟩
  held _ := .refl
  unborn _ := id
  cancelled := id
  sent := rfl
  late := rfl
  count := rfl

theorem onward_write {after : Option BackupJob} (other : t ≠ .dispatch) (free : (db.jobs id).Free t) :
    db.Onward { db with jobs := db.jobs.write t id after } where
  rows k job read := by
    have kept : (db.jobs k).Kept .dispatch (db.jobs.write t id after k) := kept_write other.symm free _ k
    have same := kept.read (committed_write ..)
    exact ⟨job, same.symm.trans read, fun _ => rfl⟩
  held := kept_write other.symm free _
  unborn k unseen := (Table.committed_write ..).trans unseen
  cancelled := by
    rintro ⟨job, there, cancelled⟩
    exact ⟨job, (Table.committed_write ..).trans there, cancelled⟩
  sent := rfl
  late := rfl
  count := rfl

theorem cancelled_of_onto {job after : BackupJob} (onto : job.Onto after) (cancelled : job.status = .cancelled) :
    after.status = .cancelled := (onto (by simp [cancelled, BackupStatus.InFlight])).trans cancelled

theorem onward_commit (law : db.RowsLaw) (other : t ≠ .dispatch) : db.Onward (db.commit t) where
  rows k after read := by
    have kept : (db.jobs k).Kept .dispatch ((db.jobs k).commit t) := kept_commit other.symm
    rcases (db.jobs k).read_cases .dispatch with ⟨v, held, own⟩ | ⟨unheld, same⟩
    · simp only [BackupDb.commit, read_of_held ((kept v).mpr held)] at read
      exact ⟨after, own.trans read, fun _ => rfl⟩
    · have free : ∀ v, ((db.jobs k).commit t).held ≠ some (.dispatch, v) := fun v held => unheld v ((kept v).mp held)
      simp only [BackupDb.commit, read_of_not_held free, committed_commit] at read
      rw [same]
      cases there : (db.jobs k).committed with
      | some job =>
        obtain ⟨version, read', onto⟩ := law.read_onto t there
        cases read.symm.trans read'
        exact ⟨job, rfl, onto⟩
      | none =>
        have quiet : ∀ v, (db.jobs k).held ≠ some (t, v) := fun v held => other (law.unborn t k v there held)
        rw [read_of_not_held quiet, there] at read
        cases read
  held _ := kept_commit other.symm
  unborn k unseen := by
    have quiet : ∀ v, (db.jobs k).held ≠ some (t, v) := fun v held => other (law.unborn t k v unseen held)
    exact (read_of_not_held quiet).trans unseen
  cancelled := by
    rintro ⟨job, there, cancelled⟩
    obtain ⟨after, read, onto⟩ := law.read_onto t there
    exact ⟨after, read, cancelled_of_onto onto cancelled⟩
  sent := rfl
  late := rfl
  count := rfl

theorem onward_rollback (other : t ≠ .dispatch) : db.Onward (db.rollback t) where
  rows k job read := by
    have kept : (db.jobs k).Kept .dispatch ((db.jobs k).rollback t) := kept_rollback other.symm
    exact ⟨job, (kept.read rfl).symm.trans read, fun _ => rfl⟩
  held _ := kept_rollback other.symm
  unborn _ := id
  cancelled := id
  sent := rfl
  late := rfl
  count := rfl

end BackupDb

namespace DispatchStage

inductive Plain : DispatchStage → Prop
  | loadConfig : Plain .loadConfig
  | findAgent : Plain .findAgent
  | resolveTargets : Plain .resolveTargets
  | markEmpty : Plain .markEmpty
  | checkEncryption : Plain .checkEncryption
  | sumUp : Plain .sumUp
  | send : Plain (.send 0 0)
  | insertChild (i : ℕ) : Plain (.insertChild i)

/-- The stages that a dispatch reaches, with the child whose command is still to be sent, and whether the job can have
been written by now. -/
inductive Reached : DispatchStage → Option ℕ → Bool → Prop
  | poll {next : DispatchStage} (plain : next.Plain) : Reached (.poll (.ending false) next) none false
  | pollChild (i : ℕ) {id : ℕ} (child : id ≠ 0) : Reached (.poll (.cancelChild id) (.send i id)) (some id) false
  | plain {stage : DispatchStage} (plain : stage.Plain) : Reached stage none false
  | send (i : ℕ) {id : ℕ} (child : id ≠ 0) : Reached (.send i id) (some id) false
  | failChild (i : ℕ) {id : ℕ} (child : id ≠ 0) : Reached (.failChild i id) (some id) false
  | cancelChild {id : ℕ} (child : id ≠ 0) : Reached (.cancelChild id) (some id) false
  | markFailed (error : String) : Reached (.markFailed error) none false
  | partialLog : Reached .partialLog none false
  | markRunning : Reached .markRunning none true
  | ending (dispatched : Bool) : Reached (.ending dispatched) none true

theorem reached_target (input : DispatchInput) (i : ℕ) : (targetStage input i).Reached none false := by
  refine .poll ?_
  split_ifs
  · exact .sumUp
  · exact .send
  · exact .insertChild i

def Last : DispatchStage → Prop
  | .cancelChild _ | .ending _ | .returned _ => True
  | _ => False

end DispatchStage

/-- Which jobs the dispatch owes a command. -/
structure DispatchDraft (db : BackupDb) (stage : DispatchStage) (owed : Option ℕ) (written : Bool) : Prop where
  children : ∀ id ≠ 0, ∀ job, (db.jobs id).read .dispatch = some job → job.status.InFlight →
    id ∈ db.sent ∨ owed = some id
  unseen : ∀ id ≠ 0, (db.jobs id).committed = none
  unwritten : written = false → ∀ v, (db.jobs 0).held ≠ some (.dispatch, v)
  last : stage.Last → ∀ job, (db.jobs 0).read .dispatch = some job → job.status.InFlight → 0 ∈ db.sent
  late : db.late = 0 ∨ db.late = 1 ∧ db.Cancelled ∧ ∀ i id, stage ≠ .send i id

inductive DispatchLaw (db : BackupDb) : DispatchStage → Prop
  | works {stage : DispatchStage} {owed : Option ℕ} {written : Bool} (reached : stage.Reached owed written)
      (draft : DispatchDraft db stage owed written) : DispatchLaw db stage
  | returned (dispatched : Bool) (rests : ∀ id v, (db.jobs id).held ≠ some (.dispatch, v))
      (served : ∀ id job, (db.jobs id).read .dispatch = some job → job.status.InFlight → id ∈ db.sent)
      (late : db.late ≤ 1) : DispatchLaw db (.returned dispatched)
  | thrown (rests : ∀ id v, (db.jobs id).held ≠ some (.dispatch, v)) (late : db.late ≤ 1) : DispatchLaw db .thrown

section Laws
variable {db next : BackupDb} {stage : DispatchStage} {owed : Option ℕ} {written : Bool} {t : BackupProcess} {n : ℕ}
  {failed : List String}
variable {to_stage : DispatchStage} {id : ℕ} {change : BackupJob → BackupJob}

theorem DispatchDraft.onward (draft : DispatchDraft db stage owed written) (onward : db.Onward next) :
    DispatchDraft next stage owed written where
  children id child after read inFlight := by
    obtain ⟨job, before, onto⟩ := onward.rows id after read
    rw [onward.sent]
    exact draft.children id child job before (onto.inFlight inFlight)
  unseen id child := onward.unborn id (draft.unseen id child)
  unwritten quiet v held := draft.unwritten quiet v ((onward.held 0 v).mp held)
  last lasts after read inFlight := by
    obtain ⟨job, before, onto⟩ := onward.rows 0 after read
    rw [onward.sent]
    exact draft.last lasts job before (onto.inFlight inFlight)
  late := by
    rw [onward.late]
    exact draft.late.imp_right fun one => ⟨one.1, onward.cancelled one.2.1, one.2.2⟩

theorem DispatchLaw.onward (law : DispatchLaw db stage) (onward : db.Onward next) : DispatchLaw next stage := by
  cases law with
  | works reached draft => exact .works reached (draft.onward onward)
  | returned dispatched rests served late =>
    refine .returned dispatched (fun id v held => rests id v ((onward.held id v).mp held)) ?_ (onward.late ▸ late)
    intro id after read inFlight
    obtain ⟨job, before, onto⟩ := onward.rows id after read
    rw [onward.sent]
    exact served id job before (onto.inFlight inFlight)
  | thrown rests late =>
    exact .thrown (fun id v held => rests id v ((onward.held id v).mp held)) (onward.late ▸ late)

theorem DispatchLaw.late (law : DispatchLaw db stage) : db.late ≤ 1 := by
  cases law with
  | works _ draft => rcases draft.late with zero | ⟨one, -⟩ <;> omega
  | returned _ _ _ late | thrown _ late => exact late

theorem DispatchDraft.moved {after : DispatchStage} {still : Option ℕ} {wrote : Bool}
    (draft : DispatchDraft db stage owed written) (owes : ∀ id, owed = some id → still = some id)
    (same : wrote = false → written = false) (settled : after.Last → ∀ job, (db.jobs 0).read .dispatch = some job →
      job.status.InFlight → 0 ∈ db.sent) (polls : db.Cancelled → ∀ i id, after ≠ .send i id) :
    DispatchDraft db after still wrote where
  children id child job read inFlight := (draft.children id child job read inFlight).imp_right (owes id)
  unseen := draft.unseen
  unwritten quiet := draft.unwritten (same quiet)
  last := settled
  late := draft.late.imp_right fun one => ⟨one.1, one.2.1, polls one.2.1⟩

theorem DispatchDraft.writeParent {after : BackupJob} (draft : DispatchDraft db stage none written)
    (settled : to_stage.Last → after.status.InFlight → 0 ∈ db.sent) (polls : ∀ i id, to_stage ≠ .send i id) :
    DispatchDraft { db with jobs := db.jobs.write .dispatch 0 (some after) } to_stage none true where
  children id child job read inFlight := by
    simp only [write_of_ne child] at read
    exact draft.children id child job read inFlight
  unseen id child := (Table.committed_write ..).trans (draft.unseen id child)
  unwritten never := by cases never
  last lasts job read inFlight := by
    simp only [write_self, read_write, some.injEq] at read
    exact settled lasts (read ▸ inFlight)
  late := by
    refine draft.late.imp_right fun one => ⟨one.1, ?_, polls⟩
    obtain ⟨job, there, cancelled⟩ := one.2.1
    exact ⟨job, (Table.committed_write ..).trans there, cancelled⟩

theorem DispatchDraft.writeChild {after : BackupJob} (draft : DispatchDraft db stage (some id) written)
    (child : id ≠ 0) (ended : ¬after.status.InFlight)
    (settled : to_stage.Last → ∀ job, (db.jobs 0).read .dispatch = some job → job.status.InFlight → 0 ∈ db.sent)
    (polls : ∀ i k, to_stage ≠ .send i k) :
    DispatchDraft { db with jobs := db.jobs.write .dispatch id (some after) } to_stage none written where
  children k other job read inFlight := by
    by_cases same : k = id
    · subst same
      simp only [write_self, read_write, some.injEq] at read
      exact absurd (read ▸ inFlight) ended
    · simp only [write_of_ne same] at read
      exact (draft.children k other job read inFlight).imp_right fun owed =>
        absurd (some.inj owed).symm same
  unseen k other := (Table.committed_write ..).trans (draft.unseen k other)
  unwritten quiet v held := by
    simp only [write_of_ne child.symm] at held
    exact draft.unwritten quiet v held
  last lasts job read inFlight := by
    simp only [write_of_ne child.symm] at read
    exact settled lasts job read inFlight
  late := by
    refine draft.late.imp_right fun one => ⟨one.1, ?_, polls⟩
    obtain ⟨job, there, cancelled⟩ := one.2.1
    exact ⟨job, (Table.committed_write ..).trans there, cancelled⟩

theorem DispatchDraft.insertChild (draft : DispatchDraft db stage none written) (rows : db.RowsLaw) (i : ℕ) :
    DispatchDraft (db.insertChild .dispatch) (.poll (.cancelChild db.count) (.send i db.count)) (some db.count)
      written where
  children id child job read inFlight := by
    by_cases same : id = db.count
    · exact .inr (congrArg some same.symm)
    · simp only [BackupDb.insertChild, write_of_ne same] at read
      exact (draft.children id child job read inFlight).imp_right fun owed => by cases owed
  unseen id child := (Table.committed_write ..).trans (draft.unseen id child)
  unwritten quiet v held := by
    have first : (0 : ℕ) ≠ db.count := Nat.ne_of_lt rows.count_pos
    simp only [BackupDb.insertChild, write_of_ne first] at held
    exact draft.unwritten quiet v held
  last lasts := lasts.elim
  late := by
    refine draft.late.imp_right fun one => ⟨one.1, ?_, by simp⟩
    obtain ⟨job, there, cancelled⟩ := one.2.1
    exact ⟨job, (Table.committed_write ..).trans there, cancelled⟩

theorem DispatchDraft.sendCommand {i : ℕ} (draft : DispatchDraft db (.send i id) owed written)
    (owes : ∀ k, owed = some k → k = id) (works : ¬to_stage.Last) (polls : ∀ j k, to_stage ≠ .send j k) :
    DispatchDraft (db.sendCommand id) to_stage none written where
  children k child job read inFlight := by
    refine .inl ?_
    simp only [BackupDb.sendCommand, List.mem_append, List.mem_singleton]
    exact (draft.children k child job read inFlight).imp_right (owes k)
  unseen := draft.unseen
  unwritten := draft.unwritten
  last lasts := absurd lasts works
  late := by
    have none : db.late = 0 := by
      rcases draft.late with zero | ⟨-, -, polled⟩
      · exact zero
      · exact absurd rfl (polled i id)
    by_cases cancelled : db.Cancelled
    · refine .inr ⟨?_, cancelled, polls⟩
      simp only [BackupDb.sendCommand, if_pos cancelled, none]
    · refine .inl ?_
      simp only [BackupDb.sendCommand, if_neg cancelled, none]

theorem DispatchDraft.commit {dispatched : Bool} (draft : DispatchDraft db (.ending dispatched) none written) :
    DispatchLaw (db.commit .dispatch) (.returned dispatched) := by
  refine .returned dispatched (fun id v => not_held_commit _ v _) (fun id job read inFlight => ?_) ?_
  · have seen : (db.jobs id).read .dispatch = some job := by
      rw [← read]
      exact (read_of_not_held fun v => not_held_commit _ v _).symm
    by_cases first : id = 0
    · subst first
      exact draft.last trivial job seen inFlight
    · rcases draft.children id first job seen inFlight with sent | owed
      · exact sent
      · cases owed
  · rcases draft.late with zero | ⟨one, -⟩
    · exact zero ▸ Nat.zero_le 1
    · exact Nat.le_of_eq one

theorem polls_cancelled (draft : DispatchDraft db stage owed false) :
    db.isBackupJobCancelled .dispatch = true ↔ db.Cancelled := by
  unfold BackupDb.isBackupJobCancelled BackupDb.Cancelled
  rw [read_of_not_held (draft.unwritten rfl), any_eq_true]
  exact exists_congr fun job => and_congr_right fun _ => decide_eq_true_iff

theorem DispatchDraft.update {matching : BackupJob → Prop} [DecidablePred matching] (to_stage : DispatchStage)
    (rows : db.RowsLaw) (draft : DispatchDraft db stage none written)
    (updated : db.update .dispatch 0 matching change = some next)
    (keeps : ∀ job, (db.jobs 0).read .dispatch = some job → matching job → job.Onto (change job))
    (changed : to_stage.Last → ∀ job, (db.jobs 0).read .dispatch = some job → matching job →
      (change job).status.InFlight → 0 ∈ db.sent)
    (unchanged : to_stage.Last → ∀ job, (db.jobs 0).read .dispatch = some job → ¬matching job →
      job.status.InFlight → 0 ∈ db.sent) (polls : ∀ i id, to_stage ≠ .send i id) :
    next.RowsLaw ∧ DispatchDraft next to_stage none true ∧
      ∀ id u, u ≠ .dispatch → (db.jobs id).Kept u (next.jobs id) := by
  rcases BackupDb.update_some updated with ⟨rfl, none⟩ | ⟨job, read, matched, free, rfl⟩
  · refine ⟨rows, draft.moved (fun _ => id) (fun never => by cases never) (fun lasts job read inFlight => ?_)
      (fun _ => polls), fun _ _ _ => .refl⟩
    exact unchanged lasts job read (none job read) inFlight
  · refine ⟨rows.write rows.count_pos (fun old there => ?_) fun _ => rfl, draft.writeParent
      (fun lasts => changed lasts job read matched) polls, fun id u other => kept_write other free _ id⟩
    obtain ⟨version, also, onto⟩ := rows.read_onto .dispatch there
    obtain rfl := some.inj (also.symm.trans read)
    intro ended
    have same := onto ended
    exact (keeps version read matched (same ▸ ended)).trans same

theorem DispatchDraft.updateChild {matching : BackupJob → Prop} [DecidablePred matching]
    (to_stage : DispatchStage) (rows : db.RowsLaw) (draft : DispatchDraft db stage (some id) written) (child : id ≠ 0)
    (updated : db.update .dispatch id matching change = some next) (ends : ∀ job, ¬(change job).status.InFlight)
    (all : ∀ job : BackupJob, job.status.InFlight → matching job)
    (settled : to_stage.Last → ∀ job, (db.jobs 0).read .dispatch = some job → job.status.InFlight → 0 ∈ db.sent)
    (polls : ∀ i k, to_stage ≠ .send i k) :
    next.RowsLaw ∧ DispatchDraft next to_stage none written ∧
      ∀ k u, u ≠ .dispatch → (db.jobs k).Kept u (next.jobs k) := by
  rcases BackupDb.update_some updated with ⟨rfl, none⟩ | ⟨job, read, matched, free, rfl⟩
  · refine ⟨rows, ⟨fun k other job read inFlight => ?_, draft.unseen, draft.unwritten, settled, ?_⟩, fun _ _ _ => .refl⟩
    · refine .inl ((draft.children k other job read inFlight).resolve_right fun owed => ?_)
      cases owed
      exact none job read (all job inFlight)
    · exact draft.late.imp_right fun one => ⟨one.1, one.2.1, polls⟩
  · have inside : id < db.count := by
      by_contra beyond
      rw [rows.absent id (by omega)] at read
      cases read
    refine ⟨rows.write inside (fun old there => ?_) fun _ => rfl, draft.writeChild child (ends job) settled polls,
      fun k u other => kept_write other free _ k⟩
    rw [draft.unseen id child] at there
    cases there

def Keeps (db : BackupDb) (d : Dispatch) (next : BackupDb) : Prop :=
  next.RowsLaw ∧ DispatchLaw next d.stage ∧ ∀ id u, u ≠ .dispatch → (db.jobs id).Kept u (next.jobs id)

theorem DispatchDraft.goes {wrote : Bool} (draft : DispatchDraft db stage none false)
    (rows : db.RowsLaw) (reached : to_stage.Reached none wrote) (works : ¬to_stage.Last)
    (polls : ∀ i id, to_stage ≠ .send i id) : next = db → Keeps db ⟨to_stage, n, failed⟩ next := by
  rintro rfl
  exact ⟨rows, .works reached (draft.moved (fun _ => id) (fun _ => rfl) (fun lasts => absurd lasts works)
    fun _ => polls), fun _ _ _ => .refl⟩

theorem keeps_plain {input : DispatchInput} {ok : Bool} {d after : Dispatch} (rows : db.RowsLaw)
    (plain : d.stage.Plain) (draft : DispatchDraft db d.stage none false) (careful : db.Allows d.stage)
    (acted : processDispatchBackup input ok db d = some (next, after)) : Keeps db after next := by
  obtain ⟨stage, sentCount, failedTargets⟩ := d
  simp only at plain draft careful
  cases plain with
  | loadConfig =>
    cases acted
    cases ok with
    | true => exact draft.goes rows (.poll .findAgent) id (by simp) rfl
    | false => exact draft.goes rows (.markFailed _) id (by simp) rfl
  | findAgent =>
    cases acted
    cases ok with
    | true => exact draft.goes rows (.poll .resolveTargets) id (by simp) rfl
    | false => exact draft.goes rows (.markFailed _) id (by simp) rfl
  | resolveTargets =>
    cases acted
    refine draft.goes rows (.poll ?_) id (by simp) rfl
    split_ifs
    · exact .markEmpty
    · exact .checkEncryption
  | checkEncryption =>
    cases acted
    cases ok with
    | true => exact draft.goes rows (DispatchStage.reached_target input 0) id (by simp [targetStage]) rfl
    | false => exact draft.goes rows (.markFailed _) id (by simp) rfl
  | sumUp =>
    cases acted
    split_ifs
    · exact draft.goes rows (.markFailed _) id (by simp) rfl
    · exact draft.goes rows .partialLog id (by simp) rfl
    · exact draft.goes rows .markRunning id (by simp) rfl
  | markEmpty =>
    obtain ⟨changed, updated, same⟩ := map_eq_some_iff.mp acted
    cases same
    obtain ⟨law, drafted, kept⟩ := DispatchDraft.update (.ending false) rows draft updated
      (fun job read _ ended => absurd (careful job read) ended)
      (fun _ _ _ _ failed => by simp [BackupDb.setStatus, BackupStatus.InFlight] at failed)
      (fun _ _ _ no => absurd trivial no) (by simp)
    exact ⟨law, .works (.ending false) drafted, kept⟩
  | send =>
    cases ok with
    | true =>
      cases acted
      exact ⟨rows.sendCommand 0, .works (DispatchStage.reached_target input 1)
        (draft.sendCommand (by simp) id (by simp [targetStage])), fun _ _ _ => .refl⟩
    | false =>
      cases acted
      exact draft.goes rows (DispatchStage.reached_target input 1) id (by simp [targetStage]) rfl
  | insertChild i =>
    cases ok with
    | true =>
      cases acted
      have free : (db.jobs db.count).Free .dispatch := by
        rw [rows.absent db.count (Nat.le_refl _)]
        exact free_unheld _ _
      exact ⟨rows.insertChild, .works (.pollChild i (Nat.ne_of_gt rows.count_pos)) (draft.insertChild rows i),
        fun k u other => kept_write other free _ k⟩
    | false =>
      cases acted
      exact draft.goes rows (DispatchStage.reached_target input (i + 1)) id (by simp [targetStage]) rfl

theorem keeps_dispatch {input : DispatchInput} {ok : Bool} {d after : Dispatch} (rows : db.RowsLaw)
    (law : DispatchLaw db d.stage) (careful : db.Allows d.stage)
    (acted : processDispatchBackup input ok db d = some (next, after)) : Keeps db after next := by
  obtain ⟨stage, sentCount, failedTargets⟩ := d
  simp only at law careful
  cases law with
  | returned | thrown => cases acted
  | works reached draft =>
    cases reached with
    | plain plain => exact keeps_plain rows plain draft careful acted
    | poll plain =>
      cases acted
      refine ⟨rows, ?_, fun _ _ _ => .refl⟩
      split_ifs with cancelled
      · obtain ⟨job, there, status⟩ := (polls_cancelled draft).mp cancelled
        refine .works (.ending false) (draft.moved (fun _ => id) (fun never => by cases never)
          (fun _ other read inFlight => ?_) (by simp))
        rw [read_of_not_held (draft.unwritten rfl), there] at read
        rw [← some.inj read, status] at inFlight
        simp [BackupStatus.InFlight] at inFlight
      · refine .works (.plain plain) (draft.moved (fun _ => id) (fun _ => rfl) (fun lasts => ?_) fun seen => ?_)
        · cases plain <;> cases lasts
        · exact absurd ((polls_cancelled draft).mpr seen) cancelled
    | @pollChild i id child =>
      cases acted
      refine ⟨rows, ?_, fun _ _ _ => .refl⟩
      split_ifs with cancelled
      · obtain ⟨job, there, status⟩ := (polls_cancelled draft).mp cancelled
        refine .works (.cancelChild child) (draft.moved (fun _ => fun same => same) (fun _ => rfl)
          (fun _ other read inFlight => ?_) (by simp))
        rw [read_of_not_held (draft.unwritten rfl), there] at read
        rw [← some.inj read, status] at inFlight
        simp [BackupStatus.InFlight] at inFlight
      · refine .works (.send i child) (draft.moved (fun _ => fun same => same) (fun _ => rfl)
          (fun lasts => lasts.elim) fun seen => ?_)
        exact absurd ((polls_cancelled draft).mpr seen) cancelled
    | @send i id child =>
      cases ok with
      | true =>
        cases acted
        exact ⟨rows.sendCommand id, .works (DispatchStage.reached_target input (i + 1))
          (draft.sendCommand (fun k owed => (some.inj owed).symm) (fun lasts => lasts)
            (by simp [targetStage])), fun _ _ _ => .refl⟩
      | false =>
        cases acted
        rw [if_pos child]
        exact ⟨rows, .works (.failChild i child) (draft.moved (fun _ => fun same => same) (fun _ => rfl)
          (fun lasts => lasts.elim) (by simp)), fun _ _ _ => .refl⟩
    | @failChild i id child =>
      obtain ⟨changed, updated, same⟩ := map_eq_some_iff.mp acted
      cases same
      obtain ⟨law, drafted, kept⟩ := DispatchDraft.updateChild (targetStage input (i + 1)) rows draft child updated
        (fun _ => by simp [BackupDb.setStatus, BackupStatus.InFlight]) (fun _ _ => trivial)
        (fun lasts => lasts.elim) (by simp [targetStage])
      exact ⟨law, .works (DispatchStage.reached_target input (i + 1)) drafted, kept⟩
    | @cancelChild id child =>
      obtain ⟨changed, updated, same⟩ := map_eq_some_iff.mp acted
      cases same
      obtain ⟨law, drafted, kept⟩ := DispatchDraft.updateChild (.ending false) rows draft child updated
        (fun _ => by simp [BackupDb.setStatus, BackupStatus.InFlight]) (fun _ inFlight => inFlight)
        (fun _ => draft.last trivial) (by simp)
      exact ⟨law, .works (.ending false) (drafted.moved (fun _ same => same) (fun never => by cases never)
        drafted.last (by simp)), kept⟩
    | markFailed error =>
      obtain ⟨changed, updated, same⟩ := map_eq_some_iff.mp acted
      cases same
      obtain ⟨law, drafted, kept⟩ := DispatchDraft.update (.ending false) rows draft updated
        (fun _ _ inFlight ended => absurd inFlight ended)
        (fun _ _ _ _ failed => by simp [BackupDb.setStatus, BackupStatus.InFlight] at failed)
        (fun _ _ _ ended inFlight => absurd inFlight ended) (by simp)
      exact ⟨law, .works (.ending false) drafted, kept⟩
    | partialLog =>
      obtain ⟨changed, updated, same⟩ := map_eq_some_iff.mp acted
      cases same
      obtain ⟨law, drafted, kept⟩ := DispatchDraft.update .markRunning rows draft updated (fun _ _ _ _ => rfl)
        (fun lasts => lasts.elim) (fun lasts => lasts.elim) (by simp)
      exact ⟨law, .works .markRunning drafted, kept⟩
    | markRunning =>
      obtain ⟨changed, updated, same⟩ := map_eq_some_iff.mp acted
      cases same
      obtain ⟨law, drafted, kept⟩ := DispatchDraft.update (.ending true) rows draft updated
        (fun _ _ inFlight ended => absurd inFlight ended)
        (fun _ job read inFlight _ => careful job read inFlight)
        (fun _ _ _ ended inFlight => absurd inFlight ended) (by simp)
      exact ⟨law, .works (.ending true) drafted, kept⟩
    | ending dispatched =>
      cases acted
      exact ⟨rows.commit _, draft.commit, fun _ _ other => kept_commit other⟩

theorem update_call (rows : db.RowsLaw) (other : t ≠ .dispatch) (rests : ∀ k v, (db.jobs k).held ≠ some (t, v))
    (updated : db.update t id (fun job => job.status.InFlight) change = some next) :
    next.RowsLaw ∧ db.Onward next ∧ ∀ k u, u ≠ t → (db.jobs k).Kept u (next.jobs k) := by
  rcases BackupDb.update_some updated with ⟨rfl, -⟩ | ⟨job, read, inFlight, free, rfl⟩
  · exact ⟨rows, .refl next, fun _ _ _ => .refl⟩
  · rw [read_of_not_held (rests id)] at read
    have inside : id < db.count := by
      by_contra beyond
      rw [rows.absent id (by omega)] at read
      cases read
    refine ⟨rows.write inside (fun old there ended => ?_) fun unseen => ?_, BackupDb.onward_write other free,
      fun k u different => kept_write different free _ k⟩
    · cases there.symm.trans read
      exact absurd inFlight ended
    · rw [unseen] at read
      cases read

theorem keeps_call {c : BackupCall} {stage after : CallStage} (rows : db.RowsLaw) (other : t ≠ .dispatch)
    (rests : stage ≠ .ending → ∀ k v, (db.jobs k).held ≠ some (t, v))
    (acted : callExec t db c stage = some (next, after)) :
    next.RowsLaw ∧ db.Onward next ∧ (∀ k u, u ≠ t → (db.jobs k).Kept u (next.jobs k)) ∧
      (after ≠ .ending → ∀ k v, (next.jobs k).held ≠ some (t, v)) := by
  cases stage with
  | start =>
    have quiet := rests (by simp)
    have same : next = db := by
      cases c with
      | cancel id => exact (Prod.mk.inj (some.inj acted)).1.symm
      | applyBackupCommandResultToJob id | markBackupJobFailedIfInFlight id =>
        simp only [callExec] at acted
        split_ifs at acted
        exact (Prod.mk.inj (some.inj acted)).1.symm
    subst same
    exact ⟨rows, .refl next, fun _ _ _ => .refl, fun _ => quiet⟩
  | updating =>
    have quiet := rests (by simp)
    cases c with
    | cancel id | applyBackupCommandResultToJob id | markBackupJobFailedIfInFlight id =>
      obtain ⟨changed, updated, same⟩ := map_eq_some_iff.mp acted
      cases same
      obtain ⟨law, onward, kept⟩ := update_call rows other quiet updated
      exact ⟨law, onward, kept, fun never => absurd rfl never⟩
  | ending =>
    cases acted
    exact ⟨rows.commit t, BackupDb.onward_commit rows other, fun _ _ different => kept_commit different,
      fun _ _ v => not_held_commit t v _⟩
  | finished => cases acted

end Laws

structure BackupLaw (w : BackupWorld) : Prop where
  rows : w.db.RowsLaw
  dispatch : ∃ d, w.proc .dispatch = .dispatch d ∧ DispatchLaw w.db d.stage
  calls : ∀ n, ∃ c stage, w.proc (.call n) = .call c stage ∧
    (stage ≠ .ending → ∀ id v, (w.db.jobs id).held ≠ some (.call n, v))

theorem backupLaw_start (calls : ℕ → BackupCall) : BackupLaw (backupStart calls) := by
  have quiet : ∀ id, ((backupStart calls).db.jobs id).held = none := by
    intro id
    by_cases first : id = 0
    · subst first
      rfl
    · simp only [backupStart, update_of_ne first]
      rfl
  have others : ∀ id ≠ 0, (backupStart calls).db.jobs id = .unheld none := by
    intro id other
    simp only [backupStart, update_of_ne other]
  have rests : ∀ id t v, ((backupStart calls).db.jobs id).held ≠ some (t, v) := fun id t v =>
    not_held_of_none (quiet id) t v
  refine ⟨⟨fun t id v held => absurd held (rests id t v), fun id beyond => others id (Nat.ne_of_gt beyond),
    fun t id v _ held => absurd held (rests id t v), ⟨_, rfl⟩⟩, ⟨_, rfl, ?_⟩,
    fun n => ⟨_, _, rfl, fun _ id v => rests id _ v⟩⟩
  refine .works (.poll .loadConfig) ⟨fun id other job read => ?_, fun id other => ?_, fun _ v => rests 0 _ v,
    fun lasts => lasts.elim, .inl rfl⟩
  · rw [others id other] at read
    cases read
  · rw [others id other]
    rfl

theorem calls_kept {n : ℕ} {p : BackupProc} (kept : ∀ id, (db.jobs id).Kept (.call n) (next.jobs id))
    (calls : ∃ c stage, p = .call c stage ∧ (stage ≠ .ending → ∀ id v, (db.jobs id).held ≠ some (.call n, v))) :
    ∃ c stage, p = .call c stage ∧ (stage ≠ .ending → ∀ id v, (next.jobs id).held ≠ some (.call n, v)) := by
  obtain ⟨c, stage, same, rests⟩ := calls
  exact ⟨c, stage, same, fun early id v held => rests early id v ((kept id v).mp held)⟩

theorem law_of_dispatch {d : Dispatch} (law : BackupLaw w)
    (kept : Keeps w.db d next) : BackupLaw ⟨next, update w.proc .dispatch (.dispatch d)⟩ where
  rows := kept.1
  dispatch := ⟨d, by simp only [update_self], kept.2.1⟩
  calls n := by
    simp only [update_of_ne (show BackupProcess.call n ≠ .dispatch by simp)]
    exact calls_kept (fun id => kept.2.2 id _ (by simp)) (law.calls n)

theorem law_of_call {n : ℕ} {c : BackupCall} {stage : CallStage} (law : BackupLaw w)
    (rows : next.RowsLaw) (onward : w.db.Onward next) (kept : ∀ k u, u ≠ .call n → (w.db.jobs k).Kept u (next.jobs k))
    (rests : stage ≠ .ending → ∀ k v, (next.jobs k).held ≠ some (.call n, v)) :
    BackupLaw ⟨next, update w.proc (.call n) (.call c stage)⟩ where
  rows := rows
  dispatch := by
    obtain ⟨d, own, drafted⟩ := law.dispatch
    have different : BackupProcess.dispatch ≠ .call n := by simp
    exact ⟨d, by simp only [update_of_ne different, own], drafted.onward onward⟩
  calls k := by
    by_cases same : k = n
    · subst same
      exact ⟨c, stage, by simp only [update_self], rests⟩
    · have different : BackupProcess.call k ≠ .call n := fun equal => same (BackupProcess.call.inj equal)
      simp only [update_of_ne different]
      exact calls_kept (fun id => kept id _ different) (law.calls k)

theorem BackupLaw.step {next : BackupWorld} {e : BackupProcess × BackupAction}
    (law : BackupLaw w) (careful : w.Careful e) (stepped : backupStep input w e = some next) : BackupLaw next := by
  obtain ⟨db, p, acted, rfl⟩ := World.step_eq_some stepped
  obtain ⟨t, action⟩ := e
  cases t with
  | dispatch =>
    obtain ⟨d, own, drafted⟩ := law.dispatch
    simp only [own] at acted
    cases action with
    | exec ok =>
      obtain ⟨⟨_, after⟩, worked, same⟩ := map_eq_some_iff.mp acted
      cases same
      simp only [BackupWorld.Careful, own] at careful
      exact law_of_dispatch law (keeps_dispatch law.rows drafted careful worked)
    | rollback =>
      simp only [backupAct] at acted
      split at acted
      · cases acted
      · cases acted
      · cases acted
        refine law_of_dispatch law ⟨law.rows.rollback _, .thrown (fun _ v => ?_) drafted.late,
          fun _ _ other => kept_rollback other⟩
        exact not_held_rollback _ v _
  | call n =>
    obtain ⟨c, stage, own, rests⟩ := law.calls n
    simp only [own] at acted
    cases action with
    | exec ok =>
      obtain ⟨⟨_, after⟩, worked, same⟩ := map_eq_some_iff.mp acted
      cases same
      obtain ⟨rows, onward, kept, quiet⟩ := keeps_call law.rows (by simp) rests worked
      exact law_of_call law rows onward kept quiet
    | rollback =>
      simp only [backupAct] at acted
      split_ifs at acted
      cases acted
      exact law_of_call law (law.rows.rollback _) (BackupDb.onward_rollback (by simp))
        (fun _ _ other => kept_rollback other) fun _ _ v => not_held_rollback _ v _

theorem committed_update {t : BackupProcess} {id : ℕ} {matching : BackupJob → Prop}
    [DecidablePred matching] {change : BackupJob → BackupJob} (updated : db.update t id matching change = some next)
    (k : ℕ) : (next.jobs k).committed = (db.jobs k).committed := by
  rcases BackupDb.update_some updated with ⟨rfl, -⟩ | ⟨job, -, -, -, rfl⟩
  · rfl
  · exact committed_write ..

theorem committed_dispatch {ok : Bool} {d after : Dispatch}
    (acted : processDispatchBackup input ok db d = some (next, after)) :
    (∀ k, (next.jobs k).committed = (db.jobs k).committed) ∨ next = db.commit .dispatch := by
  unfold processDispatchBackup at acted
  split at acted
  case h_5 | h_9 | h_10 | h_12 | h_13 | h_14 =>
    obtain ⟨_, updated, same⟩ := map_eq_some_iff.mp acted
    obtain ⟨rfl, -⟩ := Prod.mk.inj same
    exact .inl (committed_update updated)
  case h_7 =>
    split_ifs at acted
    · obtain ⟨rfl, -⟩ := Prod.mk.inj (some.inj acted)
      exact .inl fun k => committed_write ..
    · obtain ⟨rfl, -⟩ := Prod.mk.inj (some.inj acted)
      exact .inl fun _ => rfl
  case h_8 =>
    split_ifs at acted
    all_goals
      obtain ⟨rfl, -⟩ := Prod.mk.inj (some.inj acted)
      exact .inl fun _ => rfl
  case h_15 =>
    obtain ⟨rfl, -⟩ := Prod.mk.inj (some.inj acted)
    exact .inr rfl
  case h_16 | h_17 => cases acted
  all_goals
    obtain ⟨rfl, -⟩ := Prod.mk.inj (some.inj acted)
    exact .inl fun _ => rfl

theorem committed_call {t : BackupProcess} {c : BackupCall} {stage after : CallStage}
    (acted : callExec t db c stage = some (next, after)) :
    (∀ k, (next.jobs k).committed = (db.jobs k).committed) ∨ next = db.commit t := by
  cases stage with
  | start =>
    cases c with
    | cancel id => exact .inl fun _ => by rw [(Prod.mk.inj (some.inj acted)).1]
    | applyBackupCommandResultToJob id | markBackupJobFailedIfInFlight id =>
      simp only [callExec] at acted
      split_ifs at acted
      exact .inl fun _ => by rw [(Prod.mk.inj (some.inj acted)).1]
  | updating =>
    cases c with
    | cancel id | applyBackupCommandResultToJob id | markBackupJobFailedIfInFlight id =>
      obtain ⟨_, updated, same⟩ := map_eq_some_iff.mp acted
      obtain ⟨rfl, -⟩ := Prod.mk.inj same
      exact .inl (committed_update updated)
  | ending => exact .inr (Prod.mk.inj (some.inj acted)).1.symm
  | finished => cases acted

theorem BackupLaw.endsOnce {next : BackupWorld} {e : BackupProcess × BackupAction}
    (law : BackupLaw w) (stepped : backupStep input w e = some next) : w.EndsOnce next := by
  have cases_on : (∀ k, (next.db.jobs k).committed = (w.db.jobs k).committed) ∨ ∃ t, next.db = w.db.commit t := by
    obtain ⟨db, p, acted, rfl⟩ := World.step_eq_some stepped
    obtain ⟨t, action⟩ := e
    simp only [backupAct] at acted
    split at acted
    next ok d own =>
      obtain ⟨_, worked, same⟩ := map_eq_some_iff.mp acted
      obtain ⟨rfl, -⟩ := Prod.mk.inj same
      exact (committed_dispatch worked).imp_right fun commits => ⟨.dispatch, commits⟩
    next ok c stage own =>
      obtain ⟨_, worked, same⟩ := map_eq_some_iff.mp acted
      obtain ⟨rfl, -⟩ := Prod.mk.inj same
      exact (committed_call worked).imp_right fun commits => ⟨t, commits⟩
    next d own =>
      split at acted
      · cases acted
      · cases acted
      · obtain ⟨rfl, -⟩ := Prod.mk.inj (some.inj acted)
        exact .inl fun _ => rfl
    next c stage own =>
      split_ifs at acted
      obtain ⟨rfl, -⟩ := Prod.mk.inj (some.inj acted)
      exact .inl fun _ => rfl
  intro id job there ended
  rcases cases_on with same | ⟨t, commits⟩
  · exact ⟨job, (same id).trans there, rfl⟩
  · obtain ⟨after, read, onto⟩ := law.rows.read_onto t there
    rw [commits]
    exact ⟨after, read, onto ended⟩

theorem BackupLaw.served (law : BackupLaw w) : w.Served := by
  intro d dispatched own returned id job there inFlight
  obtain ⟨_, same, drafted⟩ := law.dispatch
  obtain rfl := BackupProc.dispatch.inj (own.symm.trans same)
  rw [returned] at drafted
  cases drafted with
  | works reached => cases reached with
    | plain plain => cases plain
  | returned _ rests served => exact served id job ((read_of_not_held (rests id)).trans there) inFlight

/-- In every run whose statements are allowed, a dispatch that has returned has sent the command of every job that is in
flight, a job ends once, and at most one command is sent after a cancel. -/
theorem dispatch_serves (input : DispatchInput) (calls : ℕ → BackupCall) {es : List (BackupProcess × BackupAction)}
    {last : BackupWorld} (careful : Meets (backupStep input) BackupWorld.Careful (backupStart calls) es)
    (reach : run (backupStep input) (backupStart calls) es = some last) :
    last.Served ∧
    (∀ pre x post mid next, es = pre ++ x :: post → run (backupStep input) (backupStart calls) pre = some mid →
      backupStep input mid x = some next → mid.EndsOnce next) ∧
    last.db.late ≤ 1 := by
  have keep : ∀ (w : BackupWorld) e next, BackupLaw w → w.Careful e → backupStep input w e = some next →
      BackupLaw next := fun w e next law allowed stepped => law.step allowed stepped
  have law := run_invariant keep (backupLaw_start calls) careful reach
  refine ⟨law.served, fun pre x post mid next split reached stepped => ?_, ?_⟩
  · rw [split] at careful
    exact (run_invariant keep (backupLaw_start calls) careful.take reached).endsOnce stepped
  · obtain ⟨d, -, drafted⟩ := law.dispatch
    exact drafted.late

def twoTargets : DispatchInput := ⟨"file", ["backup_run", "system_image"], ""⟩

def noTargets : DispatchInput := ⟨"hyperv", [], ""⟩

def cancelCall (_ : ℕ) : BackupCall := .cancel 0

def execs (t : BackupProcess) (answers : List Bool) : List (BackupProcess × BackupAction) :=
  answers.map fun ok => (t, .exec ok)

/-- The dispatch of two targets, whose first command is sent or not. -/
def twoSends (first : Bool) (rest : ℕ) : List (BackupProcess × BackupAction) :=
  execs .dispatch (List.replicate 9 true ++ [first] ++ List.replicate rest true)

instance (db : BackupDb) : (stage : DispatchStage) → Decidable (db.Allows stage)
  | .markEmpty => inferInstanceAs (Decidable (∀ job ∈ (db.jobs 0).read .dispatch, job.status.InFlight))
  | .markRunning => inferInstanceAs (Decidable (∀ job ∈ (db.jobs 0).read .dispatch, job.status.InFlight → 0 ∈ db.sent))
  | .poll _ _ | .loadConfig | .findAgent | .resolveTargets | .checkEncryption | .insertChild _ | .send _ _
  | .failChild _ _ | .cancelChild _ | .sumUp | .partialLog | .markFailed _ | .ending _ | .returned _ | .thrown =>
    isTrue trivial

instance (db : BackupDb) : (p : BackupProc) → Decidable (db.AllowsProc p)
  | .dispatch d => inferInstanceAs (Decidable (db.Allows d.stage))
  | .call _ _ => isTrue trivial

instance (w : BackupWorld) : (e : BackupProcess × BackupAction) → Decidable (w.Careful e)
  | (.dispatch, .exec _) => inferInstanceAs (Decidable (w.db.AllowsProc (w.proc .dispatch)))
  | (.dispatch, .rollback) | (.call _, _) => isTrue trivial

/-- Both commands are sent, and the job is cancelled afterwards. -/
def bothSent : List (BackupProcess × BackupAction) := twoSends true 8 ++ execs (.call 0) [true, true, true]

theorem dispatch_serves_both : ∃ last, run (backupStep twoTargets) (backupStart cancelCall) bothSent = some last ∧
    last.Served ∧ last.db.late ≤ 1 := by
  have careful : Meets (backupStep twoTargets) BackupWorld.Careful (backupStart cancelCall) bothSent := by
    decide +kernel
  obtain ⟨last, reach, -⟩ := (any_eq_true (fun _ => true)
    (run (backupStep twoTargets) (backupStart cancelCall) bothSent)).mp (by decide +kernel)
  obtain ⟨served, -, late⟩ := dispatch_serves twoTargets cancelCall careful reach
  exact ⟨last, reach, served, late⟩

/-- The dispatch has found no targets when the job is cancelled. -/
def cancelledEmpty : List (BackupProcess × BackupAction) :=
  execs .dispatch (List.replicate 7 true) ++ execs (.call 0) [true, true, true] ++ execs .dispatch [true]

def leftRunning (w : BackupWorld) : Bool :=
  decide (w.proc .dispatch = .dispatch ⟨.returned true, 1, ["backup_run"]⟩ ∧ w.db.sent = [1]) &&
    (w.db.jobs 0).committed.any fun job => decide (job.status = .running)

def statusOf (w : BackupWorld) : Option BackupStatus := (w.db.jobs 0).committed.map BackupJob.status

def endsTwice (w : BackupWorld) : Bool :=
  decide (statusOf w = some .cancelled) && (backupStep noTargets w (.dispatch, .exec true)).any fun next =>
    decide (statusOf next = some .failed)

/-- A job is left running whose command was not sent, and a cancelled one fails. -/
theorem dispatch_leaves_running :
    (∃ last, run (backupStep twoTargets) (backupStart cancelCall) (twoSends false 9) = some last ∧ ¬last.Served) ∧
    ∃ mid last, run (backupStep noTargets) (backupStart cancelCall) cancelledEmpty = some mid ∧
      backupStep noTargets mid (.dispatch, .exec true) = some last ∧ ¬mid.EndsOnce last := by
  constructor
  · obtain ⟨last, reach, seen⟩ := (any_eq_true leftRunning
      (run (backupStep twoTargets) (backupStart cancelCall) (twoSends false 9))).mp (by decide +kernel)
    obtain ⟨first, second⟩ := Bool.and_eq_true_iff.mp seen
    obtain ⟨own, sent⟩ := of_decide_eq_true first
    obtain ⟨job, there, running⟩ := (any_eq_true ..).mp second
    refine ⟨last, reach, fun served => ?_⟩
    have listed := served _ true own rfl 0 job there (.inr (of_decide_eq_true running))
    rw [sent] at listed
    simp at listed
  · obtain ⟨mid, reach, seen⟩ := (any_eq_true endsTwice
      (run (backupStep noTargets) (backupStart cancelCall) cancelledEmpty)).mp (by decide +kernel)
    obtain ⟨first, second⟩ := Bool.and_eq_true_iff.mp seen
    obtain ⟨last, stepped, failed⟩ := (any_eq_true ..).mp second
    obtain ⟨job, there, cancelled⟩ := map_eq_some_iff.mp (of_decide_eq_true first)
    obtain ⟨after, also, status⟩ := map_eq_some_iff.mp (of_decide_eq_true failed)
    refine ⟨mid, last, reach, stepped, fun once => ?_⟩
    obtain ⟨_, kept, same⟩ := once 0 job there (by simp [cancelled, BackupStatus.InFlight])
    cases also.symm.trans kept
    rw [status, cancelled] at same
    cases same

end RemudaRmm.BackupServer
