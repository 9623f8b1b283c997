import Mathlib.Data.Fintype.Basic
import RemudaRmm.BackupServer.SnapshotProtection

/-! What every run over the snapshots keeps whose statements are allowed: a snapshot that a cleanup has still to delete
is not protected, and the version of a row that a call has written is no weaker than the row. -/
namespace RemudaRmm.BackupServer
open Foundation List Function Option Row Option
open SnapshotWorld
variable {call : SnapshotCall} {s : Snapshot}

/-- What a call may make of a row: only a release clears a hold, only a release moves a date back. -/
structure SnapshotCall.Strengthens (call : SnapshotCall) (s v : Snapshot) : Prop where
  hold : (∀ n, call ≠ .releaseLegalHold n) → s.legalHold = true → v.legalHold = true
  date : (∀ n, call ≠ .releaseImmutability n) → ∀ date ∈ s.immutableUntil, ∃ later ∈ v.immutableUntil, date ≤ later

theorem SnapshotCall.Strengthens.refl (call : SnapshotCall) (s : Snapshot) : call.Strengthens s s where
  hold _ held := held
  date _ date due := ⟨date, due, le_rfl⟩

theorem SnapshotCall.Strengthens.trans {v x : Snapshot} (first : call.Strengthens s v)
    (rest : call.Strengthens v x) : call.Strengthens s x where
  hold plain held := rest.hold plain (first.hold plain held)
  date plain date due := by
    obtain ⟨mid, between, earlier⟩ := first.date plain date due
    obtain ⟨last, found, later⟩ := rest.date plain mid between
    exact ⟨last, found, earlier.trans later⟩

theorem SnapshotCall.strengthens_of_same {v : Snapshot} (hold : v.legalHold = s.legalHold)
    (date : v.immutableUntil = s.immutableUntil) : call.Strengthens s v where
  hold _ held := hold.trans held
  date _ d due := ⟨d, by rwa [date], le_rfl⟩

def SnapshotCall.Fits (call : SnapshotCall) : SnapshotStage → Prop
  | .updating _ .hold | .updating _ (.extend _ _) => call ≠ .cleanupExpiredSnapshots
  | .updating _ .releaseHold => ∃ n, call = .releaseLegalHold n
  | .updating _ .releaseImmutability => ∃ n, call = .releaseImmutability n
  | _ => True

theorem strengthens_change {id : ℕ} {change : ProtectionChange} (fits : call.Fits (.updating id change))
    (forward : ∀ date enforcement, change = .extend date enforcement → ∀ earlier ∈ s.immutableUntil, earlier ≤ date) :
    call.Strengthens s (s.change change) := by
  cases change with
  | hold => exact ⟨fun _ _ => rfl, fun _ date due => ⟨date, due, le_rfl⟩⟩
  | releaseHold =>
    obtain ⟨n, rfl⟩ := fits
    exact ⟨fun plain => absurd rfl (plain n), fun _ date due => ⟨date, due, le_rfl⟩⟩
  | extend date enforcement =>
    exact ⟨fun _ held => held, fun _ earlier due => ⟨date, rfl, forward date enforcement rfl earlier due⟩⟩
  | releaseImmutability =>
    obtain ⟨n, rfl⟩ := fits
    exact ⟨fun _ held => held, fun plain => absurd rfl (plain n)⟩

theorem changing_of_fits {id : ℕ} {change : ProtectionChange}
    (fits : call.Fits (.updating id change)) : call ≠ .cleanupExpiredSnapshots := by
  cases change with
  | hold | extend date enforcement => exact fits
  | releaseHold | releaseImmutability =>
    obtain ⟨n, rfl⟩ := fits
    simp

theorem not_protected_of_later {now later : ℕ} (le : now ≤ later) (free : ¬s.Protected now) : ¬s.Protected later := by
  rintro (held | ⟨immutable, still⟩)
  · exact free (.inl held)
  · refine free (.inr ⟨immutable, ?_⟩)
    rintro ⟨date, due, reached⟩
    exact still ⟨date, due, reached.trans le⟩

theorem not_protected_of_not_skipped {now : ℕ} (spared : ¬s.Skipped now)
    (dated : s.isImmutable = true → s.immutableUntil.isSome) : ¬s.Protected now := by
  rintro (held | ⟨immutable, still⟩)
  · exact spared (.inl held)
  · obtain ⟨date, due⟩ := isSome_iff_exists.mp (dated immutable)
    refine spared (.inr ⟨immutable, date, due, ?_⟩)
    exact Nat.lt_of_not_le fun reached => still ⟨date, due, reached⟩

section Laws
variable {τ : Type*} [DecidableEq τ]
variable {t : τ} {p : SnapshotProc} {db next : SnapshotDb τ} {stage : SnapshotStage} {id : ℕ} {w : SnapshotWorld τ}
    {calls : τ → SnapshotCall} {row : Stored} {ids : List ℕ}

def SnapshotStage.now : SnapshotStage → Option ℕ
  | .selecting _ now | .deleting _ now _ | .removing _ now _ _ => some now
  | _ => none

omit [DecidableEq τ] in
structure RowsLaw (db : SnapshotDb τ) (calls : τ → SnapshotCall) : Prop where
  fresh : ∀ id, db.count ≤ id → db.rows id = Row.unheld none
  deleted : ∀ t id, (db.rows id).held = some (t, none) → ∀ s, (db.rows id).committed = some s → ¬s.Protected db.clock
  strengthened : ∀ t id v, (db.rows id).held = some (t, some v) →
    ∀ s, (db.rows id).committed = some s → (calls t).Strengthens s v
  cleaning : ∀ t id v, (db.rows id).held = some (t, some v) → calls t ≠ .cleanupExpiredSnapshots

structure ProcLaw (db : SnapshotDb τ) (p : SnapshotProc) : Prop where
  since : ∀ now ∈ p.stage.now, now ≤ db.clock
  pending : ∀ id ∈ Pending p, ∀ s, (db.rows id).committed = some s → ¬s.Protected db.clock
  fits : p.call.Fits p.stage

inductive RowsMove (t : τ) (p : SnapshotProc) (db : SnapshotDb τ) : SnapshotDb τ → Prop
  | same : RowsMove t p db db
  | wait (elapsed : ℕ) : RowsMove t p db { db with clock := db.clock + elapsed }
  | job (jobs : Table ℕ τ BackupStatus) : RowsMove t p db { db with jobs }
  | alter {id : ℕ} {s v : Snapshot} (free : (db.rows id).Free t) (seen : (db.rows id).read t = some s)
      (stronger : p.call.Strengthens s v) (changing : p.call ≠ .cleanupExpiredSnapshots) :
      RowsMove t p db { db with rows := db.rows.write t id (some v) }
  | remove {id : ℕ} {s : Snapshot} (free : (db.rows id).Free t) (seen : (db.rows id).read t = some s)
      (pending : id ∈ Pending p) : RowsMove t p db { db with rows := db.rows.write t id none }
  | insert (s : Snapshot) (changing : p.call ≠ .cleanupExpiredSnapshots) : RowsMove t p db (db.insert t s)
  | commit (stage : p.stage = .ending) : RowsMove t p db (db.commit t)
  | rollback : RowsMove t p db (db.rollback t)

structure Goes (t : τ) (p : SnapshotProc) (db next : SnapshotDb τ) (stage : SnapshotStage) : Prop where
  move : RowsMove t p db next
  pending : ∀ id ∈ Pending { p with stage }, id ∈ Pending p
  since : ∀ now ∈ stage.now, now ∈ p.stage.now ∨ now = db.clock
  fits : p.call.Fits stage

structure SnapshotStage.Plain (stage : SnapshotStage) (call : SnapshotCall) : Prop where
  pending : ∀ p : SnapshotProc, Pending { p with stage } = []
  now : stage.now = none
  fits : call.Fits stage

theorem Goes.of_plain (move : RowsMove t p db next) (plain : stage.Plain p.call) : Goes t p db next stage where
  move := move
  pending id member := absurd member (plain.pending p ▸ not_mem_nil)
  since now known := absurd known (by rw [plain.now]; simp)
  fits := plain.fits

theorem update_goes {change : Snapshot → Snapshot}
    {won lost : SnapshotStage} (updated : db.update t id change won lost = some (next, stage))
    (stronger : ∀ s, (db.rows id).read t = some s → p.call.Strengthens s (change s))
    (changing : p.call ≠ .cleanupExpiredSnapshots) (plain : won.Plain p.call ∧ lost.Plain p.call) :
    Goes t p db next stage := by
  unfold SnapshotDb.update at updated
  cases seen : (db.rows id).read t with
  | none =>
    rw [seen] at updated
    exact of_some_eq updated (.of_plain .same plain.2)
  | some s =>
    simp only [seen, ite_none_right_eq_some, some.injEq, Prod.mk.injEq] at updated
    obtain ⟨free, rfl, rfl⟩ := updated
    exact .of_plain (.alter free seen (stronger s seen) changing) plain.1

theorem plain_afterRead (id : ℕ) (call : SnapshotCall) (before : Option Snapshot)
    (asked : call = .applyLegalHold id ∨ call = .releaseLegalHold id ∨
      (∃ request, call = .applyImmutability id request) ∨ call = .releaseImmutability id) : (afterRead id call before).Plain call := by
  cases before with
  | none => exact ⟨fun _ => rfl, rfl, trivial⟩
  | some before =>
    obtain rfl | rfl | ⟨request, rfl⟩ | rfl := asked
    · exact ⟨fun _ => rfl, rfl, by simp [SnapshotCall.Fits, afterRead]⟩
    · exact ⟨fun _ => rfl, rfl, id, rfl⟩
    · exact ⟨fun _ => rfl, rfl, trivial⟩
    · unfold afterRead
      dsimp only
      split_ifs
      · exact ⟨fun _ => rfl, rfl, trivial⟩
      · exact ⟨fun _ => rfl, rfl, id, rfl⟩

theorem plain_checkExtension (id : ℕ) (request : ImmutabilityRequest) (before : Snapshot) (updated : Option Snapshot)
    (now : ℕ) {call : SnapshotCall} (changing : call ≠ .cleanupExpiredSnapshots) :
    (checkExtension id request before updated now).Plain call := by
  unfold checkExtension
  dsimp only
  split_ifs
  · exact ⟨fun _ => rfl, rfl, trivial⟩
  · exact ⟨fun _ => rfl, rfl, changing⟩
  · exact ⟨fun _ => rfl, rfl, changing⟩

theorem completeJob_goes {jobId : ℕ} (completed : db.completeJob t jobId = some (next, stage)) :
    Goes t p db next stage := by
  unfold SnapshotDb.completeJob at completed
  split_ifs at completed with inFlight free
  · exact of_some_eq completed (.of_plain (.job _) ⟨fun _ => rfl, rfl, trivial⟩)
  · exact of_some_eq completed (.of_plain .same ⟨fun _ => rfl, rfl, trivial⟩)

theorem start_goes (started : startStatement t db p.call = some (next, stage)) : Goes t p db next stage := by
  cases call : p.call with
  | cleanupExpiredSnapshots =>
    rw [call] at started
    exact of_some_eq started (⟨.same, fun id member => absurd member not_mem_nil,
      fun now known => .inr (some.inj known).symm, trivial⟩)
  | applyBackupCommandResultToJob result =>
    rw [call] at started
    exact completeJob_goes started
  | applyLegalHold id | releaseLegalHold id | applyImmutability id request | releaseImmutability id =>
    rw [call] at started
    refine of_some_eq started (.of_plain .same ?_)
    rw [call]
    exact plain_afterRead id _ _ (by simp)

/-- What the protection of a policy finds is no stronger than what it writes. -/
def SnapshotResult.Covers (r : SnapshotResult) (s : Snapshot) : Prop :=
  (s.legalHold = true → r.protection.legalHold = true) ∧
    ∀ date ∈ s.immutableUntil, ∃ later ∈ r.protection.immutableUntil, date ≤ later

theorem result_goes {r : SnapshotResult} {before : SnapshotStage} (changing : p.call ≠ .cleanupExpiredSnapshots)
    (stepped : resultStatement t db r before = some (next, stage))
    (covers : ∀ id, before = .protecting id → ∀ s, (db.rows id).read t = some s → r.Covers s) :
    Goes t p db next stage := by
  have plain : ∀ id, (SnapshotStage.protecting id).Plain p.call ∧ (SnapshotStage.tagging id).Plain p.call :=
    fun id => ⟨⟨fun _ => rfl, rfl, trivial⟩, ⟨fun _ => rfl, rfl, trivial⟩⟩
  have ending : SnapshotStage.ending.Plain p.call := ⟨fun _ => rfl, rfl, trivial⟩
  cases before with
  | storing found =>
    cases found with
    | none =>
      exact of_some_eq stepped (.of_plain (.insert _ changing) (plain db.count).1)
    | some id =>
      exact update_goes stepped (fun s _ => SnapshotCall.strengthens_of_same rfl rfl) changing
        ⟨(plain id).1, ending⟩
  | protecting id =>
    refine update_goes stepped (fun s seen => ?_) changing ⟨(plain id).2, (plain id).2⟩
    obtain ⟨hold, date⟩ := covers id rfl s seen
    exact ⟨fun _ => hold, fun _ => date⟩
  | tagging id =>
    exact update_goes stepped (fun s _ => SnapshotCall.strengthens_of_same rfl rfl) changing ⟨ending, ending⟩
  | _ => exact absurd stepped (by simp [resultStatement])

theorem cleanup_goes (stepped : cleanupStatement t db p.stage = some (next, stage)) : Goes t p db next stage := by
  obtain ⟨call, before⟩ := p
  cases before with
  | deleting phase now ids =>
    cases ids with
    | nil =>
      cases phase with
      | expired =>
        cases stepped
        exact ⟨.same, fun id member => absurd member not_mem_nil, fun now known => .inl known, trivial⟩
      | versions =>
        exact of_some_eq stepped (.of_plain .same ⟨fun _ => rfl, rfl, trivial⟩)
    | cons id ids =>
      have same : cleanupStatement t db (.deleting phase now (id :: ids)) =
          some (db, .removing phase now id ids) := by cases phase <;> rfl
      rw [same] at stepped
      exact of_some_eq stepped ⟨.same, fun x member => member, fun now known => .inl known, trivial⟩
  | removing phase now id ids =>
    have later : ∀ x ∈ Pending ⟨call, .deleting phase now ids⟩, x ∈ Pending ⟨call, .removing phase now id ids⟩ :=
      fun x member => mem_cons_of_mem id member
    change db.delete t id (.deleting phase now ids) = some (next, stage) at stepped
    unfold SnapshotDb.delete at stepped
    split at stepped
    case h_1 s seen =>
      simp only [ite_none_right_eq_some, some.injEq, Prod.mk.injEq] at stepped
      obtain ⟨free, rfl, rfl⟩ := stepped
      exact ⟨.remove free seen mem_cons_self, later, fun now known => .inl known, trivial⟩
    case h_2 =>
      exact of_some_eq stepped ⟨.same, later, fun now known => .inl known, trivial⟩
  | _ => exact absurd stepped (by simp [cleanupStatement])

theorem exec_goes (allowed : Allows w (t, .exec)) (fits : (w.proc t).call.Fits (w.proc t).stage)
    (stepped : snapshotExec t w.db (w.proc t) = some (next, stage)) : Goes t (w.proc t) w.db next stage := by
  obtain ⟨db, proc⟩ := w
  simp only [Allows] at allowed fits stepped ⊢
  generalize same : proc t = p at *
  obtain ⟨call, before⟩ := p
  cases before with
  | start => exact start_goes stepped
  | checking before =>
    cases call with
    | applyImmutability id request =>
      exact of_some_eq stepped (.of_plain .same (plain_checkExtension id request before _ db.clock (by simp)))
    | _ => exact absurd stepped (by simp [snapshotExec, resultStatement, cleanupStatement])
  | updating id change =>
    refine update_goes stepped (fun s seen => strengthens_change fits ?_) (changing_of_fits fits)
      ⟨⟨fun _ => rfl, rfl, trivial⟩, fun _ => rfl, rfl, trivial⟩
    rintro date enforcement rfl
    exact allowed s seen
  | ending =>
    exact of_some_eq stepped (.of_plain (.commit rfl) ⟨fun _ => rfl, rfl, trivial⟩)
  | finding | selecting phase now | finished =>
    cases call <;> exact absurd stepped (by simp [snapshotExec, resultStatement, cleanupStatement])
  | storing found =>
    cases call with
    | applyBackupCommandResultToJob r => exact result_goes (by simp) stepped (by simp)
    | _ => exact absurd stepped (by simp [snapshotExec, cleanupStatement])
  | protecting id =>
    cases call with
    | applyBackupCommandResultToJob r =>
      have stepped : resultStatement t db r (.protecting id) = some (next, stage) := stepped
      refine result_goes (by simp) stepped fun x known s seen => ?_
      obtain rfl := SnapshotStage.protecting.inj known
      exact allowed s seen
    | _ => exact absurd stepped (by simp [snapshotExec, cleanupStatement])
  | tagging id =>
    cases call with
    | applyBackupCommandResultToJob r =>
      have stepped : resultStatement t db r (.tagging id) = some (next, stage) := stepped
      exact result_goes (by simp) stepped (by simp)
    | _ => exact absurd stepped (by simp [snapshotExec, cleanupStatement])
  | deleting phase now ids =>
    cases call with
    | cleanupExpiredSnapshots =>
      have stepped : cleanupStatement t db (.deleting phase now ids) = some (next, stage) := stepped
      exact cleanup_goes stepped
    | _ => exact absurd stepped (by simp [snapshotExec, resultStatement])
  | removing phase now id ids =>
    cases call with
    | cleanupExpiredSnapshots => exact cleanup_goes stepped
    | _ => exact absurd stepped (by simp [snapshotExec, resultStatement])

theorem RowsMove.committed (move : RowsMove t p db next) (id : ℕ) : (next.rows id).committed = (db.rows id).committed ∨
      (p.stage = .ending ∧ (next.rows id).committed = (db.rows id).read t) := by
  cases move with
  | same | wait elapsed | job jobs | rollback => exact .inl rfl
  | alter free seen stronger changing | remove free seen pending | insert s changing =>
    exact .inl (Table.committed_write ..)
  | commit ended => exact .inr ⟨ended, rfl⟩

theorem RowsMove.clock (move : RowsMove t p db next) : db.clock ≤ next.clock := by
  cases move with
  | wait elapsed => exact Nat.le_add_right db.clock elapsed
  | _ => exact le_rfl

omit [DecidableEq τ] in
theorem RowsLaw.later (law : RowsLaw db calls) (elapsed : ℕ) :
    RowsLaw { db with clock := db.clock + elapsed } calls where
  fresh := law.fresh
  deleted t id held s stored := not_protected_of_later (Nat.le_add_right _ elapsed) (law.deleted t id held s stored)
  strengthened := law.strengthened
  cleaning := law.cleaning

theorem RowsLaw.seen (law : RowsLaw db calls) {s v : Snapshot} (seen : (db.rows id).read t = some v)
    (stored : (db.rows id).committed = some s) : (calls t).Strengthens s v := by
  rcases (db.rows id).read_cases t with ⟨x, held, read⟩ | ⟨-, same⟩
  · obtain rfl := read.symm.trans seen
    exact law.strengthened t id v held s stored
  · cases (same.trans stored).symm.trans seen
    exact .refl ..

omit [DecidableEq τ] in
theorem held_after_write {u : τ} {rows : Table ℕ τ (Option Snapshot)} {n : ℕ} {v x : Option Snapshot}
    (held : (rows.write t id v n).held = some (u, x)) : (rows n).held = some (u, x) ∨ (n = id ∧ u = t ∧ x = v) := by
  by_cases same : n = id
  · rw [same, Table.write_self, held_write, some.injEq, Prod.mk.injEq] at held
    exact .inr ⟨same, held.1.symm, held.2.symm⟩
  · rw [Table.write_of_ne same] at held
    exact .inl held

omit [DecidableEq τ] in
theorem RowsLaw.write (law : RowsLaw db calls) {v : Option Snapshot}
    (deleted : v = none → ∀ s, (db.rows id).committed = some s → ¬s.Protected db.clock)
    (stronger : ∀ x, v = some x → ∀ s, (db.rows id).committed = some s → (calls t).Strengthens s x)
    (changing : ∀ x, v = some x → calls t ≠ .cleanupExpiredSnapshots) {count : ℕ} (more : db.count ≤ count)
    (known : id < count) : RowsLaw { db with rows := db.rows.write t id v, count } calls where
  fresh n le := (Table.write_of_ne (known.trans_le le).ne').trans (law.fresh n (more.trans le))
  deleted u n held s stored := by
    rw [Table.committed_write] at stored
    obtain before | ⟨rfl, rfl, none⟩ := held_after_write held
    · exact law.deleted u n before s stored
    · exact deleted none.symm s stored
  strengthened u n x held s stored := by
    rw [Table.committed_write] at stored
    obtain before | ⟨rfl, rfl, same⟩ := held_after_write held
    · exact law.strengthened u n x before s stored
    · exact stronger x same.symm s stored
  cleaning u n x held := by
    obtain before | ⟨rfl, rfl, same⟩ := held_after_write held
    · exact law.cleaning u n x before
    · exact changing x same.symm

theorem RowsLaw.known (law : RowsLaw db calls) {s : Snapshot} (seen : (db.rows id).read t = some s) :
    id < db.count := by
  by_contra beyond
  rw [law.fresh id (Nat.le_of_not_lt beyond), read_unheld] at seen
  exact absurd seen (by simp)

theorem RowsLaw.commit (law : RowsLaw db calls) (t : τ) : RowsLaw (db.commit t) calls where
  fresh id le := (congrArg (Row.commit t) (law.fresh id le)).trans (commit_unheld t _)
  deleted u id held s stored := by
    obtain ⟨before, other⟩ := held_commit_iff.mp held
    change ((db.rows id).commit t).committed = some s at stored
    rw [(undisturbed_commit other).committed none before] at stored
    exact law.deleted u id before s stored
  strengthened u id v held s stored := by
    obtain ⟨before, other⟩ := held_commit_iff.mp held
    change ((db.rows id).commit t).committed = some s at stored
    rw [(undisturbed_commit other).committed (some v) before] at stored
    exact law.strengthened u id v before s stored
  cleaning u id v held := law.cleaning u id v (held_commit_iff.mp held).1

theorem RowsLaw.rollback (law : RowsLaw db calls) (t : τ) : RowsLaw (db.rollback t) calls where
  fresh id le := (congrArg (Row.rollback t) (law.fresh id le)).trans (rollback_unheld t _)
  deleted u id held := law.deleted u id (held_rollback_iff.mp held).1
  strengthened u id v held := law.strengthened u id v (held_rollback_iff.mp held).1
  cleaning u id v held := law.cleaning u id v (held_rollback_iff.mp held).1

theorem rows_step (law : RowsLaw db calls) (own : ProcLaw db p) (call : p.call = calls t)
    (move : RowsMove t p db next) : RowsLaw next calls := by
  cases move with
  | same => exact law
  | wait elapsed => exact law.later elapsed
  | job jobs => exact ⟨law.fresh, law.deleted, law.strengthened, law.cleaning⟩
  | alter free seen stronger changing =>
    rw [call] at stronger changing
    refine law.write (by simp) ?_ (fun x _ => changing) le_rfl (law.known seen)
    intro x same s stored
    cases same
    exact (law.seen seen stored).trans stronger
  | remove free seen pending =>
    exact law.write (fun _ s stored => own.pending _ pending s stored) (by simp) (by simp) le_rfl (law.known seen)
  | insert s changing =>
    rw [call] at changing
    have absent : (db.rows db.count).committed = none := by rw [law.fresh db.count le_rfl]; rfl
    refine law.write (by simp) ?_ (fun x _ => changing) (Nat.le_succ db.count) (Nat.lt_succ_self db.count)
    intro x _ c stored
    exact absurd (absent.symm.trans stored) (by simp)
  | commit ended => exact law.commit t
  | rollback => exact law.rollback t

omit [DecidableEq τ] in
theorem others_step {q : SnapshotProc} (law : ProcLaw db q) (later : db.clock ≤ next.clock)
    (spared : ∀ id ∈ Pending q, (next.rows id).committed = (db.rows id).committed ∨
      ∀ s ∈ (next.rows id).committed, ¬s.Protected db.clock) : ProcLaw next q where
  since now known := (law.since now known).trans later
  pending id member s stored := by
    refine not_protected_of_later later ?_
    obtain same | free := spared id member
    · exact law.pending id member s (same.symm.trans stored)
    · exact free s stored
  fits := law.fits

theorem own_step (law : ProcLaw db p) (goes : Goes t p db next stage) : ProcLaw next { p with stage } where
  since now known := by
    obtain before | rfl := goes.since now known
    · exact (law.since now before).trans goes.move.clock
    · exact goes.move.clock
  pending id member s stored := by
    have before := goes.pending id member
    refine not_protected_of_later goes.move.clock ?_
    obtain same | ⟨ended, -⟩ := goes.move.committed id
    · exact law.pending id before s (same.symm.trans stored)
    · exact absurd before (by simp [Pending, ended])
  fits := goes.fits

theorem mem_of_mem_beyondLimit {maxVersions : ℕ → Option ℕ} {rows : List Stored}
    (member : row ∈ beyondLimit maxVersions rows) : row ∈ rows := by
  unfold beyondLimit at member
  split at member
  · split_ifs at member
    · exact absurd member not_mem_nil
    · exact mem_of_mem_drop member
  · exact absurd member not_mem_nil

theorem mem_of_mem_overLimit {maxVersions : ℕ → Option ℕ} {rows : List Stored}
    (member : row ∈ overLimit maxVersions rows) : row ∈ rows := by
  obtain ⟨⟨key, group⟩, grouped, beyond⟩ := mem_flatMap.mp member
  obtain ⟨rfl, -⟩ := InsertionMap.mem_groupBy_iff.mp grouped
  exact mem_of_mem_filter (mem_of_mem_beyondLimit beyond)

theorem mem_visible_iff : row ∈ db.visible t ids ↔ row.1 ∈ ids ∧ (db.rows row.1).read t = some row.2 := by
  unfold SnapshotDb.visible
  rw [mem_filterMap]
  constructor
  · rintro ⟨id, member, found⟩
    obtain ⟨s, seen, rfl⟩ := map_eq_some_iff.mp found
    exact ⟨member, seen⟩
  · rintro ⟨member, seen⟩
    exact ⟨row.1, member, by rw [seen]; rfl⟩

theorem seen_of_mem_toDelete {phase : CleanupPhase} {now : ℕ} (member : id ∈ db.toDelete t phase now ids) :
    id ∈ ids ∧ ∃ s, (db.rows id).read t = some s ∧ ¬s.Skipped now := by
  obtain ⟨row, due, rfl⟩ := List.mem_map.mp member
  obtain ⟨due, spared⟩ := mem_filter.mp due
  have seen : row ∈ db.visible t ids := by
    cases phase with
    | expired => exact due
    | versions => exact mem_of_mem_overLimit due
  obtain ⟨member, seen⟩ := mem_visible_iff.mp seen
  exact ⟨member, row.2, seen, of_decide_eq_true spared⟩

structure SnapshotsLaw (calls : τ → SnapshotCall) (w : SnapshotWorld τ) : Prop where
  same : ∀ t, (w.proc t).call = calls t
  rows : RowsLaw w.db calls
  procs : ∀ t, ProcLaw w.db (w.proc t)

theorem select_law {phase : CleanupPhase}
    {now : ℕ} (rows : RowsLaw db calls) (law : ProcLaw db p) (stage : p.stage = .selecting phase now)
    (cleanup : calls t = .cleanupExpiredSnapshots)
    (dated : ∀ id ∈ ids, ∀ s ∈ (db.rows id).read t, s.isImmutable = true → s.immutableUntil.isSome) :
    ProcLaw db { p with stage := .deleting phase now (db.toDelete t phase now ids) } where
  since n known := law.since n (by rw [stage]; exact known)
  pending id member s stored := by
    obtain ⟨found, v, seen, spared⟩ := seen_of_mem_toDelete member
    have committed : (db.rows id).read t = (db.rows id).committed := by
      refine read_of_not_held fun x held => ?_
      cases x with
      | none => exact absurd ((read_of_held held).symm.trans seen) (by simp)
      | some x => exact rows.cleaning t id x held cleanup
    obtain rfl := some.inj (seen.symm.trans (committed.trans stored))
    have since : now ≤ db.clock := law.since now (by rw [stage]; rfl)
    exact not_protected_of_later since (not_protected_of_not_skipped spared (dated id found v seen))
  fits := trivial

structure ActLaw (calls : τ → SnapshotCall) (w : SnapshotWorld τ) (t : τ) (next : SnapshotDb τ) (p : SnapshotProc) :
    Prop where
  same : p.call = calls t
  rows : RowsLaw next calls
  own : ProcLaw next p
  later : w.db.clock ≤ next.clock
  committed : ∀ id, (next.rows id).committed = (w.db.rows id).committed ∨
    (next.rows id).committed = (w.db.rows id).read t
  spared : ∀ u ≠ t, ∀ id ∈ Pending (w.proc u), (next.rows id).committed = (w.db.rows id).committed ∨
    ∀ s ∈ (next.rows id).committed, ¬s.Protected w.db.clock

theorem exec_law (law : SnapshotsLaw calls w) (allowed : Allows w (t, .exec))
    (stepped : snapshotExec t w.db (w.proc t) = some (next, stage)) :
    ActLaw calls w t next { w.proc t with stage } := by
  have goes := exec_goes allowed (law.procs t).fits stepped
  refine ⟨law.same t, rows_step law.rows (law.procs t) (law.same t) goes.move, own_step (law.procs t) goes,
    goes.move.clock, fun id => (goes.move.committed id).imp_right And.right, fun u other id member => ?_⟩
  obtain same | ⟨ended, same⟩ := goes.move.committed id
  · exact .inl same
  · simp only [Allows, ended] at allowed
    rw [same]
    exact .inr (allowed u other id member)

theorem quiet_law (law : SnapshotsLaw calls w) (move : RowsMove t (w.proc t) w.db next)
    (same : ∀ id, (next.rows id).committed = (w.db.rows id).committed)
    (plain : stage.Plain (w.proc t).call ∨ stage = (w.proc t).stage) :
    ActLaw calls w t next { w.proc t with stage } := by
  refine ⟨law.same t, rows_step law.rows (law.procs t) (law.same t) move, ?_, move.clock,
    fun id => .inl (same id), fun u other id member => .inl (same id)⟩
  obtain plain | rfl := plain
  · exact own_step (law.procs t) (.of_plain move plain)
  · exact others_step (law.procs t) move.clock fun id member => .inl (same id)

theorem act_law (law : SnapshotsLaw calls w) {action : SnapshotAction} (allowed : Allows w (t, action))
    (acted : snapshotAct t action w.db (w.proc t) = some (next, p)) : ActLaw calls w t next p := by
  have finished : SnapshotStage.finished.Plain (w.proc t).call := ⟨fun _ => rfl, rfl, trivial⟩
  cases action with
  | tick elapsed =>
    exact of_some_eq acted (quiet_law law (.wait elapsed) (fun _ => rfl) (.inr rfl))
  | exec =>
    obtain ⟨⟨db, stage⟩, stepped, same⟩ := map_eq_some_iff.mp acted
    cases same
    exact exec_law law allowed stepped
  | select ids =>
    cases stage : (w.proc t).stage with
    | selecting phase now =>
      cases call : (w.proc t).call with
      | cleanupExpiredSnapshots =>
        simp only [snapshotAct, stage, call, ite_none_right_eq_some, some.injEq, Prod.mk.injEq]
          at acted
        obtain ⟨selected, rfl, rfl⟩ := acted
        have own := select_law law.rows (law.procs t) stage ((law.same t).symm.trans call) allowed
        rw [call] at own
        exact ⟨call.symm.trans (law.same t), law.rows, own, le_rfl, fun id => .inl rfl,
          fun u other id member => .inl rfl⟩
      | _ => exact absurd acted (by simp [snapshotAct, stage, call])
    | finding =>
      cases call : (w.proc t).call with
      | applyBackupCommandResultToJob r =>
        simp only [snapshotAct, stage, call, ite_none_right_eq_some, some.injEq, Prod.mk.injEq]
          at acted
        obtain ⟨found, rfl, rfl⟩ := acted
        have plain : (SnapshotStage.storing ids.head?).Plain (w.proc t).call := ⟨fun _ => rfl, rfl, trivial⟩
        have acts : ActLaw calls w t w.db ⟨(w.proc t).call, .storing ids.head?⟩ :=
          quiet_law law .same (fun _ => rfl) (.inl plain)
        rwa [call] at acts
      | _ => exact absurd acted (by simp [snapshotAct, stage, call])
    | _ => exact absurd acted (by simp [snapshotAct, stage])
  | page =>
    cases stage : (w.proc t).stage with
    | deleting phase now ids =>
      cases ids with
      | nil => exact absurd acted (by simp [snapshotAct, stage])
      | cons id ids =>
        simp only [snapshotAct, stage, some.injEq, Prod.mk.injEq] at acted
        obtain ⟨rfl, rfl⟩ := acted
        exact quiet_law law .same (fun _ => rfl) (.inr rfl)
    | _ => exact absurd acted (by simp [snapshotAct, stage])
  | skip =>
    obtain ⟨stage, skipped, same⟩ := map_eq_some_iff.mp acted
    cases same
    refine quiet_law law .same (fun _ => rfl) (.inl ?_)
    unfold afterSkip at skipped
    split at skipped
    · cases skipped
      exact ⟨fun _ => rfl, rfl, trivial⟩
    · cases skipped
      exact ⟨fun _ => rfl, rfl, trivial⟩
    · exact absurd skipped (by simp)
  | refuse =>
    cases stage : (w.proc t).stage with
    | updating id change =>
      simp only [snapshotAct, stage, some.injEq, Prod.mk.injEq] at acted
      obtain ⟨rfl, rfl⟩ := acted
      exact quiet_law law .same (fun _ => rfl) (.inl finished)
    | _ => exact absurd acted (by simp [snapshotAct, stage])
  | rollback =>
    have rolled : (next, p) = (w.db.rollback t, { w.proc t with stage := .finished }) := by
      cases stage : (w.proc t).stage <;> simp only [snapshotAct, stage, some.injEq, reduceCtorEq] at acted <;>
        exact acted.symm
    cases rolled
    exact quiet_law law .rollback (fun _ => rfl) (.inl finished)

theorem snapshots_step {next : SnapshotWorld τ} {e : τ × SnapshotAction}
    (law : SnapshotsLaw calls w) (allowed : Allows w e) (stepped : snapshotStep w e = some next) :
    SnapshotsLaw calls next := by
  obtain ⟨t, action⟩ := e
  obtain ⟨db, p, acted, rfl⟩ := World.step_eq_some stepped
  have acts := act_law law allowed acted
  refine ⟨fun u => ?_, acts.rows, fun u => ?_⟩
  · by_cases own : u = t
    · subst own
      simpa only [update_self] using acts.same
    · simpa only [update_of_ne own] using law.same u
  · by_cases own : u = t
    · subst own
      simpa only [update_self] using acts.own
    · simp only [update_of_ne own]
      exact others_step (law.procs u) acts.later (acts.spared u own)

omit [DecidableEq τ] in
theorem snapshotStart_law [DecidableEq τ] (snapshots : List Snapshot) (jobs : ℕ → BackupStatus)
    (maxVersions : ℕ → Option ℕ) (clock : ℕ) (calls : τ → SnapshotCall) :
    SnapshotsLaw calls (snapshotStart snapshots jobs maxVersions clock calls) where
  same _ := rfl
  rows := by
    refine ⟨fun id beyond => ?_, fun t id held => absurd held (by simp [snapshotStart, Row.unheld]),
      fun t id v held => absurd held (by simp [snapshotStart, Row.unheld]),
      fun t id v held => absurd held (by simp [snapshotStart, Row.unheld])⟩
    exact congrArg Row.unheld (getElem?_eq_none beyond)
  procs _ := ⟨by simp [snapshotStart, SnapshotStage.now], by simp [snapshotStart, Pending], trivial⟩

theorem spares_of_law (law : SnapshotsLaw calls w) (e : τ × SnapshotAction) : Spares w e := by
  rintro id s stored (deletes | ⟨ended, -, gone⟩)
  · have pending : id ∈ Pending (w.proc e.1) := by
      unfold Deletes at deletes
      split at deletes
      case h_1 first rest stage _ => simp [Pending, stage, deletes]
      case h_2 first rest stage _ => simp [Pending, stage, deletes]
      case h_3 first rest stage _ => simp [Pending, stage, deletes]
      case h_4 => exact deletes.elim
    exact (law.procs e.1).pending id pending s stored
  · rcases (w.db.rows id).read_cases e.1 with ⟨v, held, read⟩ | ⟨-, same⟩
    · obtain rfl := read.symm.trans gone
      exact law.rows.deleted e.1 id held s stored
    · cases (same.trans stored).symm.trans gone

theorem keeps_of_law (law : SnapshotsLaw calls w) {e : τ × SnapshotAction} (allowed : Allows w e) :
    SnapshotWorld.Keeps w e := by
  obtain ⟨t, action⟩ := e
  intro next stepped id s v stored after
  obtain ⟨db, p, acted, rfl⟩ := World.step_eq_some stepped
  have stronger : (w.proc t).call.Strengthens s v := by
    obtain same | same := (act_law law allowed acted).committed id
    · obtain rfl := some.inj (stored.symm.trans (same.symm.trans after))
      exact .refl ..
    · rw [law.same t]
      exact law.rows.seen (same.symm.trans after) stored
  exact ⟨stronger.hold, stronger.date⟩

/-- In every run from any snapshots whose statements are allowed no snapshot is deleted while its stored row is
protected, and protection is weakened by releases only. -/
theorem retention_spares_protected (snapshots : List Snapshot) (jobs : ℕ → BackupStatus) (maxVersions : ℕ → Option ℕ)
    (clock : ℕ) (calls : τ → SnapshotCall) (es : List (τ × SnapshotAction))
    (allowed : Meets snapshotStep Allows (snapshotStart snapshots jobs maxVersions clock calls) es) :
    Meets snapshotStep (fun w e => Spares w e ∧ SnapshotWorld.Keeps w e)
      (snapshotStart snapshots jobs maxVersions clock calls)
      es := by
  refine Meets.under (fun w e next law meets stepped => snapshots_step law meets stepped) (fun w e law meets => ?_)
    (snapshotStart_law snapshots jobs maxVersions clock calls) allowed
  exact ⟨spares_of_law law e, keeps_of_law law meets⟩

end Laws

instance {τ : Type} [DecidableEq τ] [Fintype τ] (w : SnapshotWorld τ) (e : τ × SnapshotAction) :
    Decidable (Allows w e) :=
  match e with
  | (t, .select ids) =>
    inferInstanceAs (Decidable (∀ id ∈ ids, ∀ s ∈ (w.db.rows id).read t, s.isImmutable = true →
      s.immutableUntil.isSome))
  | (t, .exec) =>
    match same : w.proc t with
    | ⟨.applyBackupCommandResultToJob r, .protecting id⟩ =>
      decidable_of_iff (∀ s ∈ (w.db.rows id).read t, (s.legalHold = true → r.protection.legalHold = true) ∧
        ∀ date ∈ s.immutableUntil, ∃ later ∈ r.protection.immutableUntil, date ≤ later) (by simp [Allows, same])
    | ⟨_, .updating id (.extend date _)⟩ =>
      decidable_of_iff (∀ s ∈ (w.db.rows id).read t, ∀ earlier ∈ s.immutableUntil, earlier ≤ date)
        (by simp [Allows, same])
    | ⟨_, .ending⟩ =>
      decidable_of_iff (∀ u, u ≠ t → ∀ id ∈ Pending (w.proc u), ∀ s ∈ (w.db.rows id).read t,
        ¬s.Protected w.db.clock) (by simp [Allows, same])
    | ⟨.cleanupExpiredSnapshots, .protecting _⟩ | ⟨.applyLegalHold _, .protecting _⟩
    | ⟨.releaseLegalHold _, .protecting _⟩ | ⟨.applyImmutability _ _, .protecting _⟩
    | ⟨.releaseImmutability _, .protecting _⟩ | ⟨_, .updating _ .hold⟩ | ⟨_, .updating _ .releaseHold⟩
    | ⟨_, .updating _ .releaseImmutability⟩ | ⟨_, .start⟩ | ⟨_, .checking _⟩ | ⟨_, .finding⟩ | ⟨_, .storing _⟩
    | ⟨_, .tagging _⟩ | ⟨_, .selecting _ _⟩ | ⟨_, .deleting _ _ _⟩ | ⟨_, .removing _ _ _ _⟩ | ⟨_, .finished⟩ =>
      isTrue (by simp [Allows, same])
  | (_, .tick _) | (_, .page) | (_, .skip) | (_, .refuse) | (_, .rollback) => isTrue trivial

/-- A snapshot that has expired, unless it is held or immutable. -/
def oldSnapshot : Snapshot where
  jobId := 0
  snapshotId := "snapshot-1"
  deviceId := 0
  configId := some 0
  target := .files
  timestamp := 10
  expiresAt := some 20
  parentSnapshotId := none
  legalHold := false
  isImmutable := false
  immutableUntil := none
  immutabilityEnforcement := none

def cleanupAnd (call : SnapshotCall) (t : Fin 2) : SnapshotCall :=
  if t = 0 then .cleanupExpiredSnapshots else call

def besideCleanup (snapshots : List Snapshot) (call : SnapshotCall) : SnapshotWorld (Fin 2) :=
  snapshotStart snapshots (fun _ => .completed) (fun _ => none) 100 (cleanupAnd call)

def turns (t : Fin 2) (n : ℕ) : List (Fin 2 × SnapshotAction) := List.replicate n (t, .exec)

def twoOld : List Snapshot := [oldSnapshot, { oldSnapshot with snapshotId := "snapshot-2" }]

/-- One of two old snapshots is held before the cleanup begins, which deletes the other. -/
def heldBefore : List (Fin 2 × SnapshotAction) :=
  turns 1 3 ++ turns 0 1 ++ [(0, .select [0, 1])] ++ turns 0 3 ++ [(0, .select [0])] ++ turns 0 2

def otherDeleted (w : SnapshotWorld (Fin 2)) : Bool :=
  (w.db.rows 0).committed.isSome && (w.db.rows 1).committed.isNone

theorem retention_spares_held :
    (run snapshotStep (besideCleanup twoOld (.applyLegalHold 0)) heldBefore).any otherDeleted = true ∧
    Meets snapshotStep (fun w e => Spares w e ∧ SnapshotWorld.Keeps w e)
      (besideCleanup twoOld (.applyLegalHold 0)) heldBefore :=
  ⟨by decide +kernel, retention_spares_protected twoOld _ _ 100 _ heldBefore (by decide +kernel)⟩

/-- The hold is committed after the cleanup has selected the snapshot. -/
def heldTooLate : List (Fin 2 × SnapshotAction) := turns 0 1 ++ [(0, .select [0])] ++ turns 1 3

def deletesHeld (w : SnapshotWorld (Fin 2)) : Bool :=
  decide ((w.proc 0).stage = .deleting .expired 100 [0] ∧ (w.db.rows 0).committed = some (oldSnapshot.change .hold))

def twoExtensions (t : Fin 2) : SnapshotCall :=
  .applyImmutability 0 ⟨some (if t = 0 then 300 else 200), 0, .application⟩

def extendedTwice : List (Fin 2 × SnapshotAction) := turns 0 2 ++ turns 1 2 ++ turns 0 2 ++ turns 1 1

def untilOf (w : SnapshotWorld (Fin 2)) : Option ℕ := (w.db.rows 0).committed.bind Snapshot.immutableUntil

def movesBack (w : SnapshotWorld (Fin 2)) : Bool :=
  decide (untilOf w = some 300 ∧ (w.proc 1).call = twoExtensions 1) &&
    (snapshotStep w (1, .exec)).any fun next => decide (untilOf next = some 200)

/-- The objects of a held snapshot are deleted, and the earlier of two dates takes the place of the later. -/
theorem retention_deletes_held :
    (∃ mid, run snapshotStep (besideCleanup [oldSnapshot] (.applyLegalHold 0)) heldTooLate = some mid ∧
      ¬Spares mid (0, .exec)) ∧
    ∃ mid, run snapshotStep (snapshotStart [oldSnapshot] (fun _ => .completed) (fun _ => none) 100 twoExtensions)
      extendedTwice = some mid ∧ ¬SnapshotWorld.Keeps mid (1, .exec) := by
  constructor
  · obtain ⟨mid, reach, seen⟩ := (any_eq_true deletesHeld
      (run snapshotStep (besideCleanup [oldSnapshot] (.applyLegalHold 0)) heldTooLate)).mp (by decide +kernel)
    obtain ⟨stage, stored⟩ := of_decide_eq_true seen
    refine ⟨mid, reach, fun spares => ?_⟩
    refine spares 0 _ stored (.inl ?_) (.inl rfl)
    simp [Deletes, stage]
  · obtain ⟨mid, reach, seen⟩ := (any_eq_true movesBack
      (run snapshotStep (snapshotStart [oldSnapshot] (fun _ => .completed) (fun _ => none) 100 twoExtensions)
        extendedTwice)).mp (by decide +kernel)
    obtain ⟨first, second⟩ := Bool.and_eq_true_iff.mp seen
    obtain ⟨before, call⟩ := of_decide_eq_true first
    obtain ⟨next, stepped, after⟩ := (Option.any_eq_true ..).mp second
    obtain ⟨s, stored, date⟩ := bind_eq_some_iff.mp before
    obtain ⟨v, kept, moved⟩ := bind_eq_some_iff.mp (of_decide_eq_true after)
    refine ⟨mid, reach, fun keeps => ?_⟩
    obtain ⟨-, dates⟩ := keeps next stepped 0 s v stored kept
    obtain ⟨later, same, le⟩ := dates (by simp [call, twoExtensions]) 300 date
    cases moved.symm.trans same
    exact absurd le (by decide)

end RemudaRmm.BackupServer
