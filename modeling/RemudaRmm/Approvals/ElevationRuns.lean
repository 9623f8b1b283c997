import RemudaRmm.Approvals.Elevations

/-! Runs around one elevation request: it moves along its statuses and gets one command in every run, and it is used
inside its window, and not after its end, in the runs that are punctual. -/
namespace RemudaRmm.Approvals
open Foundation List Function Option Row Table

namespace Elevation

/-- What one change of the request can do. -/
structure Moves (e next : Elevation) : Prop where
  follows : e.status.Follows next.status
  window : e.status ≠ .pending → next.expiresAt = e.expiresAt

theorem Moves.lapsed_iff {e next : Elevation} (moves : e.Moves next) (decided : e.status ≠ .pending) (now : ℕ) :
    next.Lapsed now ↔ e.Lapsed now := by
  simp only [Lapsed, moves.window decided]

theorem moves_approve {e : Elevation} (pending : e.status = .pending) (expiresAt : ℕ) :
    e.Moves (e.approve expiresAt) where
  follows := by
    rw [pending]
    exact .approve
  window decided := absurd pending decided

theorem moves_moveTo {e : Elevation} {status : ElevationStatus} (follows : e.status.Follows status) :
    e.Moves (e.moveTo status) := ⟨follows, fun _ => rfl⟩

end Elevation

namespace ElevationStatus
variable {status next : ElevationStatus}

def Spent (status : ElevationStatus) : Prop := status = .actuating ∨ status.Ended

theorem Follows.spent (follows : status.Follows next) (spent : status.Spent) : next.Spent := by
  cases follows with
  | revoke => exact .inr (.inl rfl)
  | expire => exact .inr (.inr rfl)
  | approve | deny | lapse | actuate => simp [Spent, Ended] at spent

theorem Follows.not_ended (follows : status.Follows next) : ¬status.Ended := by
  cases follows with
  | revoke active | expire active => rcases active with rfl | rfl | rfl <;> simp [Ended]
  | approve | deny | lapse | actuate => simp [Ended]

theorem Follows.of_actuating (follows : status.Follows .actuating) : status = .approved := by
  cases follows
  rfl

theorem Follows.of_approved (follows : status.Follows .approved) : status = .pending := by
  cases follows
  rfl

theorem Follows.not_pending (follows : status.Follows next) : next ≠ .pending := by
  cases follows <;> simp

theorem Spent.not_pending (spent : status.Spent) : status ≠ .pending := by
  rintro rfl
  simp [Spent, Ended] at spent

end ElevationStatus

section Law
variable {τ : Type*} [DecidableEq τ]
variable {next w : ElevationWorld τ} {e : τ × ElevationAction}

/-- The transaction has written nothing. -/
structure ElevationDb.Rests (db : ElevationDb τ) (t : τ) : Prop where
  elevation : ∀ e, db.elevation.held ≠ some (t, e)
  commands : ∀ id c, (db.commands id).held ≠ some (t, c)

def ElevationDb.Draft (db : ElevationDb τ) (t : τ) (p : ElevationProc) : Prop :=
  match p.stage with
  | .start | .deciding | .finished => db.Rests t
  | .inserting => (∃ e, db.elevation.held = some (t, e) ∧ e.status = .actuating) ∧ p.call = .actuateElevation ∧
      ∀ id, db.commands id = .unheld none
  | .claiming ids => (∀ e, db.elevation.held ≠ some (t, e)) ∧ ∀ id ∈ ids, ∃ c, (db.commands id).held = some (t, c)
  | .ending => True

/-- The rows at any time of a run. -/
structure ElevationDb.Sound (db : ElevationDb τ) : Prop where
  moves : ∀ t e, db.elevation.held = some (t, e) → db.elevation.committed.Moves e
  absent : ∀ id, db.count ≤ id → db.commands id = .unheld none
  fresh : ∀ id t c, (db.commands id).committed = none → (db.commands id).held = some (t, c) →
    ∃ e, db.elevation.held = some (t, e) ∧ e.status = .actuating
  spent : ∀ id c, (db.commands id).committed = some c → db.elevation.committed.status.Spent
  one : ∀ i j, db.commands i ≠ .unheld none → db.commands j ≠ .unheld none → i = j

/-- What one action of a call does. -/
inductive ElevationMove (t : τ) (action : ElevationAction) (db : ElevationDb τ) (p : ElevationProc) :
    ElevationDb τ → ElevationProc → Prop
  | ticks (elapsed : ℕ) (tick : action = .tick elapsed) :
      ElevationMove t action db p { db with clock := db.clock + elapsed } p
  | starts (exec : action = .exec) (fresh : p.stage = .start) : ElevationMove t action db p db { p with
      stage := afterStart (db.elevation.read t) p.call
      startedAt := db.clock
      late := decide db.elevation.committed.status.Ended }
  | changes (e : Elevation) (stage : ElevationStage) (deciding : p.stage = .deciding) (free : db.elevation.Free t)
      (moves : (db.elevation.read t).Moves e)
      (after : stage = .ending ∨ stage = .inserting ∧ p.call = .actuateElevation ∧
        e = (db.elevation.read t).moveTo .actuating) :
      ElevationMove t action db p { db with elevation := db.elevation.write t e } { p with stage }
  | passes (stage : ElevationStage)
      (ends : stage = .ending ∨ stage = .finished ∧ (p.stage = .start ∨ p.stage = .deciding)) :
      ElevationMove t action db p db { p with stage }
  | inserts (inserting : p.stage = .inserting) :
      ElevationMove t action db p (db.insertCommand t) { p with stage := .ending }
  | locks (ids : List ℕ) (fresh : p.stage = .start) (claimable : ∀ id ∈ ids, db.Claimable t id) :
      ElevationMove t action db p (db.lockCommands t ids) { p with
        stage := .claiming ids
        startedAt := db.clock
        late := decide db.elevation.committed.status.Ended }
  | sends (id : ℕ) (ids : List ℕ) (claiming : p.stage = .claiming (id :: ids)) :
      ElevationMove t action db p (db.sendCommand t id).1
        { p with stage := .claiming ids, claimed := p.claimed ++ (db.sendCommand t id).2 }
  | commits (exec : action = .exec) (ending : p.stage = .ending) :
      ElevationMove t action db p (db.commit t) { p with stage := .finished }
  | rollsBack : ElevationMove t action db p (db.rollback t) { p with stage := .finished, claimed := [] }

section Moves
variable {t : τ} {action : ElevationAction} {db next : ElevationDb τ} {p after : ElevationProc}

theorem move_of_update {matching : Elevation → Prop} [DecidablePred matching] {change : Elevation → Elevation}
    {won : ElevationStage} {stage : ElevationStage} (deciding : p.stage = .deciding)
    (moves : ∀ e, matching e → e.Moves (change e))
    (wins : won = .ending ∨ won = .inserting ∧ p.call = .actuateElevation ∧ change = .moveTo .actuating)
    (updated : db.update t matching change won = some (next, stage)) :
    ElevationMove t action db p next { p with stage } := by
  simp only [ElevationDb.update] at updated
  split_ifs at updated with found free
  · cases updated
    refine .changes _ won deciding free (moves _ found) ?_
    rcases wins with ending | ⟨inserting, actuates, rfl⟩
    · exact .inl ending
    · exact .inr ⟨inserting, actuates, rfl⟩
  · cases updated
    exact .passes .ending (.inl rfl)

theorem move_of_sweep {due : Elevation → Prop} [DecidablePred due] (deciding : p.stage = .deciding)
    (follows : ∀ e, due e → e.status.Follows .expired) :
    ElevationMove t action db p (db.sweep t due) { p with stage := .ending } := by
  simp only [ElevationDb.sweep]
  split_ifs with found
  · exact .changes _ .ending deciding found.1 (Elevation.moves_moveTo (follows _ found.2)) (.inl rfl)
  · exact .passes .ending (.inl rfl)

theorem move_decideStatement {stage : ElevationStage} {call : ElevationCall} (deciding : p.stage = .deciding)
    (called : p.call = call) (decided : decideStatement t db p.startedAt call = some (next, stage)) :
    ElevationMove t action db p next { p with stage } := by
  have approves : ∀ (expiresAt : ℕ) (e : Elevation), e.status = .pending → e.Moves (e.approve expiresAt) :=
    fun expiresAt e pending => Elevation.moves_approve pending expiresAt
  have denies : ∀ e : Elevation, e.status = .pending → e.Moves (e.moveTo .denied) := fun e pending =>
    Elevation.moves_moveTo (by rw [pending]; exact .deny)
  cases call with
  | respond approve durationMinutes | decideHandler approve =>
    cases approve with
    | true => exact move_of_update deciding (approves _) (.inl rfl) decided
    | false => exact move_of_update deciding denies (.inl rfl) decided
  | revoke =>
    exact move_of_update deciding (fun e active => Elevation.moves_moveTo (.revoke active)) (.inl rfl) decided
  | actuateElevation =>
    have actuates : ∀ e : Elevation, e.status = .approved → e.Moves (e.moveTo .actuating) := fun e approved =>
      Elevation.moves_moveTo (by rw [approved]; exact .actuate)
    exact move_of_update deciding actuates (.inr ⟨rfl, called, rfl⟩) decided
  | enforceElevationExpiry =>
    cases decided
    exact move_of_sweep deciding fun e due => .expire due.1
  | expireStaleRequests ttlMinutes =>
    cases decided
    refine move_of_sweep deciding fun e stale => ?_
    rw [stale.1]
    exact .lapse
  | claimPendingCommandsForDevice =>
    cases decided

theorem move_elevationExec (acted : elevationExec t db p = some (next, after)) :
    ElevationMove t .exec db p next after := by
  unfold elevationExec at acted
  split at acted
  case h_1 fresh =>
    exact of_some_eq acted (.starts rfl fresh)
  case h_2 deciding =>
    obtain ⟨⟨_, stage⟩, decided, same⟩ := map_eq_some_iff.mp acted
    cases same
    exact move_decideStatement deciding rfl decided
  case h_3 inserting =>
    exact of_some_eq acted (.inserts inserting)
  case h_4 =>
    exact of_some_eq acted (.passes .ending (.inl rfl))
  case h_5 id ids claiming =>
    exact of_some_eq acted (.sends id ids claiming)
  case h_6 ending =>
    exact of_some_eq acted (.commits rfl ending)
  case h_7 => cases acted

theorem move_elevationAct (acted : elevationAct t action db p = some (next, after)) :
    ElevationMove t action db p next after := by
  unfold elevationAct at acted
  split at acted
  case h_1 elapsed =>
    exact of_some_eq acted (.ticks elapsed rfl)
  case h_2 => exact move_elevationExec acted
  case h_3 ids fresh =>
    split_ifs at acted with allowed
    exact of_some_eq acted (.locks ids fresh allowed.2)
  case h_4 fresh =>
    exact of_some_eq acted (.passes .finished (.inr ⟨rfl, .inl fresh⟩))
  case h_5 deciding =>
    exact of_some_eq acted (.passes .finished (.inr ⟨rfl, .inr deciding⟩))
  case h_6 => cases acted
  case h_7 => cases acted
  case h_8 =>
    exact of_some_eq acted .rollsBack
  case h_9 => cases acted

end Moves

section Sound
variable {t u : τ} {db : ElevationDb τ}

namespace ElevationDb

omit [DecidableEq τ] in
theorem Draft.rests {p : ElevationProc} (draft : db.Draft t p)
    (resting : p.stage = .start ∨ p.stage = .deciding ∨ p.stage = .finished) : db.Rests t := by
  unfold ElevationDb.Draft at draft
  rcases resting with stage | stage | stage <;> simpa only [stage] using draft

theorem Rests.read (rests : db.Rests t) : db.elevation.read t = db.elevation.committed :=
  read_of_not_held rests.elevation

theorem rests_commit : (db.commit t).Rests t :=
  ⟨fun e => not_held_commit t e _, fun _ c => not_held_commit t c _⟩

theorem rests_rollback : (db.rollback t).Rests t :=
  ⟨fun e => not_held_rollback t e _, fun _ c => not_held_rollback t c _⟩

/-- What another transaction holds stands as before. -/
structure Spares (db : ElevationDb τ) (u : τ) (next : ElevationDb τ) : Prop where
  elevation : db.elevation.Kept u next.elevation
  commands : ∀ id, (db.commands id).Kept u (next.commands id)

omit [DecidableEq τ] in
theorem Rests.spared {next : ElevationDb τ} (rests : db.Rests u) (spares : db.Spares u next) : next.Rests u where
  elevation e held := rests.elevation e ((spares.elevation e).mp held)
  commands id c held := rests.commands id c ((spares.commands id c).mp held)

omit [DecidableEq τ] in
theorem Draft.spared {next : ElevationDb τ} {p : ElevationProc} (draft : db.Draft u p) (spares : db.Spares u next)
    (absent : p.stage = .inserting → ∀ id, db.commands id = .unheld none → next.commands id = .unheld none) :
    next.Draft u p := by
  unfold Draft at draft ⊢
  split at draft
  · exact draft.spared spares
  · exact draft.spared spares
  · exact draft.spared spares
  next inserting =>
    obtain ⟨⟨e, held, actuating⟩, actuates, none⟩ := draft
    exact ⟨⟨e, (spares.elevation e).mpr held, actuating⟩, actuates, fun id => absent inserting id (none id)⟩
  · refine ⟨fun e held => draft.1 e ((spares.elevation e).mp held), fun id listed => ?_⟩
    obtain ⟨c, held⟩ := draft.2 id listed
    exact ⟨c, (spares.commands id c).mpr held⟩
  · trivial

theorem spares_commit (other : u ≠ t) : db.Spares u (db.commit t) :=
  ⟨kept_commit other, fun _ => kept_commit other⟩

theorem spares_rollback (other : u ≠ t) : db.Spares u (db.rollback t) :=
  ⟨kept_rollback other, fun _ => kept_rollback other⟩

omit [DecidableEq τ] in
theorem spares_refl : db.Spares u db := ⟨.refl, fun _ => .refl⟩

omit [DecidableEq τ] in
theorem spares_change (other : u ≠ t) (free : db.elevation.Free t) (e : Elevation) :
    db.Spares u { db with elevation := db.elevation.write t e } := ⟨kept_write other free e, fun _ => .refl⟩

omit [DecidableEq τ] in
theorem spares_insertCommand (other : u ≠ t) (free : (db.commands db.count).Free t) :
    db.Spares u (db.insertCommand t) := ⟨.refl, kept_write other free _⟩

theorem spares_lockCommands (other : u ≠ t) {ids : List ℕ} (claimable : ∀ id ∈ ids, db.Claimable t id) :
    db.Spares u (db.lockCommands t ids) := by
  refine ⟨.refl, fun id => ?_⟩
  simp only [lockCommands]
  split_ifs with listed
  · exact kept_write other (claimable id listed).1 _
  · exact .refl

theorem spares_sendCommand (other : u ≠ t) {id : ℕ} (free : (db.commands id).Free t) :
    db.Spares u (db.sendCommand t id).1 := by
  unfold sendCommand
  split
  · split_ifs
    · exact ⟨.refl, kept_write other free _⟩
    · exact spares_refl
  · exact spares_refl

@[simp] theorem elevation_sendCommand (t : τ) (id : ℕ) (db : ElevationDb τ) :
    (db.sendCommand t id).1.elevation = db.elevation := by
  unfold sendCommand
  split
  · split_ifs <;> rfl
  · rfl

@[simp] theorem clock_sendCommand (t : τ) (id : ℕ) (db : ElevationDb τ) : (db.sendCommand t id).1.clock = db.clock := by
  unfold sendCommand
  split
  · split_ifs <;> rfl
  · rfl

theorem commands_sendCommand {id j : ℕ} (other : j ≠ id) : (db.sendCommand t id).1.commands j = db.commands j := by
  unfold sendCommand
  split
  · split_ifs
    · exact write_of_ne other
    · rfl
  · rfl

theorem held_sendCommand {id j : ℕ} (locked : ∃ c, (db.commands j).held = some (t, c)) :
    ∃ c, ((db.sendCommand t id).1.commands j).held = some (t, c) := by
  by_cases same : j = id
  · subst same
    unfold sendCommand
    split
    · split_ifs
      · simp only [write_self]
        exact ⟨_, held_write ..⟩
      · exact locked
    · exact locked
  · rwa [commands_sendCommand same]

end ElevationDb

namespace ElevationDb.Sound

theorem read_moves (sound : db.Sound) (t : τ) :
    db.elevation.read t = db.elevation.committed ∨ db.elevation.committed.Moves (db.elevation.read t) := by
  rcases db.elevation.read_cases t with ⟨e, held, read⟩ | ⟨-, same⟩
  · exact .inr (read ▸ sound.moves t e held)
  · exact .inl same

theorem commit (sound : db.Sound) (t : τ) : (db.commit t).Sound where
  moves u e held := by
    obtain ⟨kept, other⟩ := held_commit_iff.mp held
    have same : (db.elevation.commit t).committed = db.elevation.committed :=
      (undisturbed_commit other).committed e kept
    simp only [ElevationDb.commit, same]
    exact sound.moves u e kept
  absent id beyond := by
    simp only [ElevationDb.commit, sound.absent id beyond, commit_unheld]
  fresh id u c unborn held := by
    obtain ⟨kept, other⟩ := held_commit_iff.mp held
    have same := (undisturbed_commit other).committed c kept
    obtain ⟨e, mine, actuating⟩ := sound.fresh id u c (same.symm.trans unborn) kept
    exact ⟨e, held_commit_iff.mpr ⟨mine, other⟩, actuating⟩
  spent id c committed := by
    simp only [ElevationDb.commit, committed_commit] at committed ⊢
    cases old : (db.commands id).committed with
    | some c =>
      have before := sound.spent id c old
      rcases sound.read_moves t with same | moves
      · exact same.symm ▸ before
      · exact moves.follows.spent before
    | none =>
      rcases (db.commands id).read_cases t with ⟨v, held, -⟩ | ⟨-, same⟩
      · obtain ⟨e, mine, actuating⟩ := sound.fresh id t v old held
        rw [read_of_held mine]
        exact .inl actuating
      · cases committed.symm.trans (same.trans old)
  one i j first second := by
    refine sound.one i j (fun absent => first ?_) (fun absent => second ?_) <;>
      simp only [ElevationDb.commit, absent, commit_unheld]

theorem rollback (sound : db.Sound) (t : τ) : (db.rollback t).Sound where
  moves u e held := sound.moves u e (held_rollback_iff.mp held).1
  absent id beyond := by
    simp only [ElevationDb.rollback, sound.absent id beyond, rollback_unheld]
  fresh id u c unborn held := by
    obtain ⟨kept, other⟩ := held_rollback_iff.mp held
    obtain ⟨e, mine, actuating⟩ := sound.fresh id u c unborn kept
    exact ⟨e, held_rollback_iff.mpr ⟨mine, other⟩, actuating⟩
  spent := sound.spent
  one i j first second := by
    refine sound.one i j (fun absent => first ?_) (fun absent => second ?_) <;>
      simp only [ElevationDb.rollback, absent, rollback_unheld]

omit [DecidableEq τ] in
theorem change (sound : db.Sound) {e : Elevation} (rests : db.Rests t)
    (moves : db.elevation.committed.Moves e) (free : db.elevation.Free t) :
    ({ db with elevation := db.elevation.write t e } : ElevationDb τ).Sound where
  moves u x held := by
    obtain ⟨-, rfl⟩ := Prod.mk.inj (some.inj held)
    exact moves
  absent := sound.absent
  fresh id u c unborn held := by
    obtain ⟨x, mine, -⟩ := sound.fresh id u c unborn held
    obtain rfl := free u x mine
    exact absurd held (rests.commands id c)
  spent := sound.spent
  one := sound.one

omit [DecidableEq τ] in
theorem insertCommand (sound : db.Sound) (mine : ∃ e, db.elevation.held = some (t, e) ∧ e.status = .actuating)
    (none : ∀ id, db.commands id = .unheld none) : (db.insertCommand t).Sound where
  moves := sound.moves
  absent id beyond := by
    simp only [ElevationDb.insertCommand] at beyond ⊢
    rw [write_of_ne (by omega)]
    exact none id
  fresh id u c unborn held := by
    by_cases same : id = db.count
    · subst same
      simp only [ElevationDb.insertCommand, write_self, held_write, Option.some.injEq, Prod.mk.injEq] at held
      exact held.1 ▸ mine
    · simp only [ElevationDb.insertCommand, write_of_ne same] at unborn held
      exact sound.fresh id u c unborn held
  spent id c committed := by
    simp only [ElevationDb.insertCommand, Table.committed_write] at committed
    exact sound.spent id c committed
  one i j first second := by
    have only : ∀ id, (db.insertCommand t).commands id ≠ .unheld .none → id = db.count := by
      intro id present
      by_contra other
      exact present ((write_of_ne other).trans (none id))
    exact (only i first).trans (only j second).symm

theorem lockCommands (sound : db.Sound) (rests : db.Rests t) {ids : List ℕ}
    (claimable : ∀ id ∈ ids, db.Claimable t id) : (db.lockCommands t ids).Sound where
  moves := sound.moves
  absent id beyond := by
    have unlisted : id ∉ ids := by
      intro listed
      obtain ⟨-, c, found, -⟩ := claimable id listed
      rw [sound.absent id beyond] at found
      cases found
    simp only [ElevationDb.lockCommands, if_neg unlisted, sound.absent id beyond]
  fresh id u c unborn held := by
    by_cases listed : id ∈ ids
    · obtain ⟨-, c, found, -⟩ := claimable id listed
      simp only [ElevationDb.lockCommands, if_pos listed, committed_write] at unborn
      rw [read_of_not_held (rests.commands id), unborn] at found
      cases found
    · simp only [ElevationDb.lockCommands, if_neg listed] at unborn held
      exact sound.fresh id u c unborn held
  spent id c committed := by
    refine sound.spent id c ?_
    simp only [ElevationDb.lockCommands] at committed
    split_ifs at committed <;> exact committed
  one i j first second := by
    have present : ∀ id, (db.lockCommands t ids).commands id ≠ .unheld none → db.commands id ≠ .unheld none := by
      intro id there absent
      by_cases listed : id ∈ ids
      · obtain ⟨-, c, found, -⟩ := claimable id listed
        rw [absent] at found
        cases found
      · exact there (by simp only [ElevationDb.lockCommands, if_neg listed, absent])
    exact sound.one i j (present i first) (present j second)

omit [DecidableEq τ] in
theorem born (sound : db.Sound) (unheld : ∀ e, db.elevation.held ≠ some (t, e)) {id : ℕ} {v : Option ActuateCommand}
    (locked : (db.commands id).held = some (t, v)) : ∃ c, (db.commands id).committed = some c := by
  cases committed : (db.commands id).committed with
  | some c => exact ⟨c, rfl⟩
  | none =>
    obtain ⟨e, held, -⟩ := sound.fresh id t v committed locked
    exact absurd held (unheld e)

theorem sendCommand (sound : db.Sound) (unheld : ∀ e, db.elevation.held ≠ some (t, e)) {id : ℕ}
    {v : Option ActuateCommand} (locked : (db.commands id).held = some (t, v)) : (db.sendCommand t id).1.Sound := by
  obtain ⟨old, committed⟩ := sound.born unheld locked
  unfold ElevationDb.sendCommand
  split
  next c found =>
    split_ifs
    · refine ⟨sound.moves, fun j beyond => ?_, fun j u x unborn held => ?_, fun j x there => ?_, fun i j => ?_⟩
      · have other : j ≠ id := by
          rintro rfl
          rw [sound.absent j beyond] at locked
          cases locked
        simp only [write_of_ne other, sound.absent j beyond]
      · by_cases same : j = id
        · subst same
          simp only [Table.committed_write, committed] at unborn
          cases unborn
        · simp only [Table.write_of_ne same] at unborn held
          exact sound.fresh j u x unborn held
      · simp only [Table.committed_write] at there
        exact sound.spent j x there
      · have present : ∀ k, db.commands.write t id (some { c with status := .sent }) k ≠ .unheld none →
            db.commands k ≠ .unheld none := by
          intro k there absent
          by_cases same : k = id
          · rw [same] at absent
            rw [absent] at locked
            cases locked
          · exact there ((write_of_ne same).trans absent)
        exact fun first second => sound.one i j (present i first) (present j second)
    · exact sound
  next => exact sound

omit [DecidableEq τ] in
theorem no_command (sound : db.Sound) (rests : db.Rests t) (free : db.elevation.Free t)
    (approved : db.elevation.committed.status = .approved) (id : ℕ) : db.commands id = .unheld none := by
  cases committed : (db.commands id).committed with
  | some c =>
    have spent := sound.spent id c committed
    rw [approved] at spent
    simp [ElevationStatus.Spent, ElevationStatus.Ended] at spent
  | none =>
    cases held : (db.commands id).held with
    | none => exact Row.ext committed held
    | some pair =>
      obtain ⟨u, v⟩ := pair
      obtain ⟨e, taken, -⟩ := sound.fresh id u v committed held
      obtain rfl := free u e taken
      exact absurd taken (rests.elevation e)

end ElevationDb.Sound

end Sound

/-- The rows are sound, and every call holds what belongs to its stage. -/
structure ElevationLaw (w : ElevationWorld τ) : Prop where
  sound : w.db.Sound
  draft : ∀ t, w.db.Draft t (w.proc t)

omit [DecidableEq τ] in
theorem elevationLaw_start (e : Elevation) (clock : ℕ) (calls : τ → ElevationCall) :
    ElevationLaw (elevationStart e clock calls) where
  sound := by
    refine ⟨fun t x held => ?_, fun _ _ => rfl, fun id t c _ held => ?_, fun id c committed => ?_,
      fun i j first _ => absurd rfl first⟩
    · cases held
    · cases held
    · cases committed
  draft t := by
    refine ⟨fun x held => ?_, fun id c held => ?_⟩ <;> cases held

theorem law_of_move {t : τ} {action : ElevationAction} {db next : ElevationDb τ} {p after : ElevationProc}
    (sound : db.Sound) (draft : db.Draft t p) (moved : ElevationMove t action db p next after) :
    next.Sound ∧ next.Draft t after ∧ ∀ u ≠ t, ∀ q, db.Draft u q → next.Draft u q := by
  cases moved with
  | ticks elapsed =>
    refine ⟨⟨sound.moves, sound.absent, sound.fresh, sound.spent, sound.one⟩, ?_, fun u _ q kept => ?_⟩
    · exact draft.spared ⟨.refl, fun _ => .refl⟩ fun _ _ => id
    · exact kept.spared ⟨.refl, fun _ => .refl⟩ fun _ _ => id
  | starts _ fresh =>
    have rests := draft.rests (.inl fresh)
    refine ⟨sound, ?_, fun _ _ _ => id⟩
    cases call : p.call with
    | actuateElevation =>
      simp only [ElevationDb.Draft, afterStart]
      split_ifs
      · exact rests
      · trivial
    | claimPendingCommandsForDevice => trivial
    | respond | decideHandler | revoke | enforceElevationExpiry | expireStaleRequests => exact rests
  | changes e stage deciding free moves after =>
    have rests := draft.rests (.inr (.inl deciding))
    rw [rests.read] at moves after
    refine ⟨sound.change rests moves free, ?_, fun u other q kept => ?_⟩
    · rcases after with rfl | ⟨rfl, actuates, rfl⟩
      · trivial
      · have approved : db.elevation.committed.status = .approved := moves.follows.of_actuating
        exact ⟨⟨_, rfl, rfl⟩, actuates, sound.no_command rests free approved⟩
    · exact kept.spared (ElevationDb.spares_change other free e) fun _ _ => id
  | passes stage ends =>
    refine ⟨sound, ?_, fun _ _ _ => id⟩
    rcases ends with rfl | ⟨rfl, fresh | deciding⟩
    · trivial
    · exact draft.rests (.inl fresh)
    · exact draft.rests (.inr (.inl deciding))
  | inserts inserting =>
    simp only [ElevationDb.Draft, inserting] at draft
    obtain ⟨mine, -, none⟩ := draft
    refine ⟨sound.insertCommand mine none, trivial, fun u other q kept => ?_⟩
    have free : (db.commands db.count).Free t := by
      rw [none]
      exact free_unheld t _
    refine kept.spared (ElevationDb.spares_insertCommand other free) fun also => ?_
    simp only [ElevationDb.Draft, also] at kept
    obtain ⟨⟨x, taken, -⟩, -, -⟩ := kept
    obtain ⟨e, held, -⟩ := mine
    exact absurd (Prod.mk.inj (some.inj (taken.symm.trans held))).1 other
  | locks ids fresh claimable =>
    have rests := draft.rests (.inl fresh)
    refine ⟨sound.lockCommands rests claimable, ⟨rests.elevation, fun id listed => ?_⟩, fun u other q kept => ?_⟩
    · simp only [ElevationDb.lockCommands, if_pos listed]
      exact ⟨_, held_write ..⟩
    · refine kept.spared (ElevationDb.spares_lockCommands other claimable) fun _ id absent => ?_
      have unlisted : id ∉ ids := by
        intro listed
        obtain ⟨-, c, found, -⟩ := claimable id listed
        rw [absent] at found
        cases found
      simp only [ElevationDb.lockCommands, if_neg unlisted, absent]
  | sends id ids claiming =>
    simp only [ElevationDb.Draft, claiming] at draft
    obtain ⟨unheld, locked⟩ := draft
    obtain ⟨c, held⟩ := locked id mem_cons_self
    have free := free_of_held held
    refine ⟨sound.sendCommand unheld held, ⟨fun e => ?_, fun j listed => ?_⟩, fun u other q kept => ?_⟩
    · rw [ElevationDb.elevation_sendCommand]
      exact unheld e
    · exact ElevationDb.held_sendCommand (locked j (mem_cons_of_mem id listed))
    · refine kept.spared (ElevationDb.spares_sendCommand other free) fun _ j absent => ?_
      have different : j ≠ id := by
        rintro rfl
        rw [absent] at held
        cases held
      exact (ElevationDb.commands_sendCommand different).trans absent
  | commits _ ending =>
    refine ⟨sound.commit t, ElevationDb.rests_commit, fun u other q kept => ?_⟩
    refine kept.spared (ElevationDb.spares_commit other) fun _ id absent => ?_
    simp only [ElevationDb.commit, absent, commit_unheld]
  | rollsBack =>
    refine ⟨sound.rollback t, ElevationDb.rests_rollback, fun u other q kept => ?_⟩
    refine kept.spared (ElevationDb.spares_rollback other) fun _ id absent => ?_
    simp only [ElevationDb.rollback, absent, rollback_unheld]

theorem ElevationLaw.step (law : ElevationLaw w) (stepped : elevationStep w e = some next) : ElevationLaw next := by
  obtain ⟨db, p, acted, rfl⟩ := World.step_eq_some stepped
  obtain ⟨sound, draft, others⟩ := law_of_move law.sound (law.draft e.1) (move_elevationAct acted)
  refine ⟨sound, fun u => ?_⟩
  by_cases same : u = e.1
  · subst same
    simpa only [update_self] using draft
  · simp only [update_of_ne same]
    exact others u same _ (law.draft u)

theorem ElevationLaw.moves (law : ElevationLaw w) (stepped : elevationStep w e = some next) : w.Moves next := by
  obtain ⟨db, p, acted, rfl⟩ := World.step_eq_some stepped
  cases move_elevationAct acted with
  | commits _ ending =>
    rcases law.sound.read_moves e.1 with same | moves
    · exact .inl (congrArg Elevation.status same)
    · exact .inr moves.follows
  | sends id ids claiming => exact .inl (by simp only [ElevationDb.elevation_sendCommand])
  | ticks | starts | changes | passes | inserts | locks | rollsBack => exact .inl rfl

omit [DecidableEq τ] in
theorem ElevationLaw.oneCommand (law : ElevationLaw w) : w.OneCommand := by
  intro i j c d first second
  refine law.sound.one i j (fun absent => ?_) (fun absent => ?_)
  · rw [absent] at first
    cases first
  · rw [absent] at second
    cases second

theorem elevationLaw_run {last : ElevationWorld τ} {es : List (τ × ElevationAction)} (law : ElevationLaw w)
    (reach : run elevationStep w es = some last) : ElevationLaw last :=
  run_invariant (fun _ _ _ law _ stepped => law.step stepped) law (Meets.of_invariant ElevationLaw
    (fun _ _ _ _ law stepped => law.step stepped) (fun _ _ _ _ => trivial) law) reach

/-- The commands lie inside the window of the request, and none is pending once it has ended. -/
structure ElevationDb.Timely (db : ElevationDb τ) : Prop where
  window : ∀ id c, (db.commands id).committed = some c → ¬db.elevation.committed.Lapsed c.insertedAt
  versions : ∀ id t c, (db.commands id).held = some (t, some c) → ¬(db.elevation.read t).Lapsed c.insertedAt
  pending : ∀ id t c, (db.commands id).held = some (t, some c) → c.status = .pending →
    ∀ old, (db.commands id).committed = some old → old.status = .pending
  handled : db.elevation.committed.status.Ended → ∀ id c, (db.commands id).committed = some c → c.status ≠ .pending

/-- An actuation under way is inside the window, and a late poll has no command. -/
structure ElevationDb.OnTime (db : ElevationDb τ) (t : τ) (p : ElevationProc) : Prop where
  actuates : p.call = .actuateElevation →
    p.stage = .deciding ∧ (db.elevation.read t).status = .approved ∨ p.stage = .inserting →
      ¬(db.elevation.read t).Lapsed db.clock
  seen : p.call = .actuateElevation → p.stage = .deciding → db.elevation.committed.status ≠ .pending
  fresh : p.stage = .start → p.claimed = []
  late : p.late = true →
    db.elevation.committed.status.Ended ∧ p.claimed = [] ∧ ∀ ids, p.stage = .claiming ids → ids = []

section Punctual
variable {t u : τ} {db next : ElevationDb τ} {p q : ElevationProc}
variable {action : ElevationAction} {after : ElevationProc}

theorem resting_stage {stage : ElevationStage} (rests : stage = .ending ∨ stage = .finished) :
    stage ≠ .start ∧ stage ≠ .deciding ∧ stage ≠ .inserting ∧ ∀ ids, stage ≠ .claiming ids := by
  rcases rests with rfl | rfl <;> simp

theorem ElevationDb.OnTime.of_rests (rests : p.stage = .ending ∨ p.stage = .finished)
    (late : p.late = true → db.elevation.committed.status.Ended ∧ p.claimed = []) : db.OnTime t p := by
  obtain ⟨started, decided, inserted, claimed⟩ := resting_stage rests
  refine ⟨fun _ stages => ?_, fun _ deciding => absurd deciding decided, fun start => absurd start started,
    fun isLate => ⟨(late isLate).1, (late isLate).2, fun ids claiming => absurd claiming (claimed ids)⟩⟩
  rcases stages with ⟨deciding, -⟩ | inserting
  · exact absurd deciding decided
  · exact absurd inserting inserted

theorem ElevationDb.OnTime.of_claiming {ids : List ℕ} (claiming : p.stage = .claiming ids)
    (late : p.late = true → db.elevation.committed.status.Ended ∧ p.claimed = [] ∧ ids = []) : db.OnTime t p := by
  refine ⟨fun _ stages => ?_, fun _ deciding => ?_, fun start => ?_, fun isLate => ?_⟩
  · simp [claiming] at stages
  · simp [claiming] at deciding
  · simp [claiming] at start
  · obtain ⟨ended, none, empty⟩ := late isLate
    refine ⟨ended, none, fun others also => ?_⟩
    rw [claiming] at also
    exact (ElevationStage.claiming.inj also).symm.trans empty

theorem ElevationDb.OnTime.same (onTime : db.OnTime t p) (read : next.elevation.read t = db.elevation.read t)
    (committed : next.elevation.committed = db.elevation.committed) (clock : next.clock = db.clock) :
    next.OnTime t p := by
  refine ⟨?_, ?_, onTime.fresh, ?_⟩
  · rw [read, clock]
    exact onTime.actuates
  · rw [committed]
    exact onTime.seen
  · rw [committed]
    exact onTime.late

namespace ElevationDb.Sound

theorem ended_of_commit (sound : db.Sound) (ended : db.elevation.committed.status.Ended) :
    db.elevation.read t = db.elevation.committed := by
  rcases sound.read_moves t with same | moves
  · exact same
  · exact absurd ended moves.follows.not_ended

theorem onTime_commit (sound : db.Sound) (other : u ≠ t) (draft : db.Draft u q) (onTime : db.OnTime u q) :
    (db.commit t).OnTime u q := by
  have kept : db.elevation.Kept u (db.elevation.commit t) := kept_commit other
  refine ⟨fun actuates stage => ?_, fun actuates deciding => ?_, onTime.fresh, fun late => ?_⟩
  · rcases db.elevation.read_cases u with ⟨e, held, read⟩ | ⟨unheld, before⟩
    · have same : (db.elevation.commit t).read u = db.elevation.read u := by
        rw [read, read_of_held ((kept e).mpr held)]
      simp only [ElevationDb.commit, same] at stage ⊢
      exact onTime.actuates actuates stage
    · rcases stage with ⟨deciding, approved⟩ | inserting
      · have free : ∀ e, (db.elevation.commit t).held ≠ some (u, e) := fun e held => unheld e ((kept e).mp held)
        simp only [ElevationDb.commit, read_of_not_held free, committed_commit] at approved ⊢
        rcases sound.read_moves t with same | moves
        · rw [same] at approved ⊢
          rw [← before] at approved ⊢
          exact onTime.actuates actuates (.inl ⟨deciding, approved⟩)
        · have follows := moves.follows
          rw [approved] at follows
          exact absurd follows.of_approved (onTime.seen actuates deciding)
      · simp only [ElevationDb.Draft, inserting] at draft
        obtain ⟨⟨e, held, -⟩, -⟩ := draft
        exact absurd held (unheld e)
  · rcases sound.read_moves t with same | moves
    · simp only [ElevationDb.commit, committed_commit, same]
      exact onTime.seen actuates deciding
    · exact moves.follows.not_pending
  · obtain ⟨ended, rest⟩ := onTime.late late
    refine ⟨?_, rest⟩
    simp only [ElevationDb.commit, committed_commit, sound.ended_of_commit ended]
    exact ended

theorem lapsed_read (sound : db.Sound) {id : ℕ} {c : ActuateCommand} (there : (db.commands id).committed = some c)
    (now : ℕ) : (db.elevation.read t).Lapsed now ↔ db.elevation.committed.Lapsed now := by
  rcases sound.read_moves t with same | moves
  · rw [same]
  · exact moves.lapsed_iff (sound.spent id c there).not_pending now

theorem timely_commit (sound : db.Sound) (timely : db.Timely)
    (handled : (db.elevation.read t).status.Ended → db.elevation.committed.status.Ended ∨
      ∀ id < db.count, ∀ c ∈ (db.commands id).committed, c.status ≠ .pending) : (db.commit t).Timely where
  window id c committed := by
    simp only [ElevationDb.commit, committed_commit] at committed ⊢
    rcases (db.commands id).read_cases t with ⟨v, held, read⟩ | ⟨-, same⟩
    · obtain rfl := read.symm.trans committed
      exact timely.versions id t c held
    · rw [same] at committed
      rw [sound.lapsed_read committed]
      exact timely.window id c committed
  versions id u c held := by
    obtain ⟨held, other⟩ := held_commit_iff.mp held
    have kept : db.elevation.Kept u (db.elevation.commit t) := kept_commit other
    rcases db.elevation.read_cases u with ⟨e, mine, read⟩ | ⟨unheld, before⟩
    · simp only [ElevationDb.commit, read_of_held ((kept e).mpr mine)]
      rw [← read]
      exact timely.versions id u c held
    · obtain ⟨old, there⟩ := sound.born unheld held
      have after : (db.elevation.commit t).read u = db.elevation.read t :=
        read_of_not_held fun e mine => unheld e ((kept e).mp mine)
      simp only [ElevationDb.commit, after]
      rw [sound.lapsed_read there, ← before]
      exact timely.versions id u c held
  pending id u c held pending old committed := by
    obtain ⟨held, other⟩ := held_commit_iff.mp held
    have same : ((db.commands id).commit t).committed = (db.commands id).committed :=
      (undisturbed_commit other).committed _ held
    exact timely.pending id u c held pending old (same.symm.trans committed)
  handled ended id c committed := by
    simp only [ElevationDb.commit, committed_commit] at ended committed
    have before : ∀ id c, (db.commands id).committed = some c → c.status ≠ .pending := by
      intro id c there
      rcases handled ended with already | none
      · exact timely.handled already id c there
      · refine none id ?_ c there
        by_contra beyond
        rw [sound.absent id (by omega)] at there
        cases there
    rcases (db.commands id).read_cases t with ⟨v, held, read⟩ | ⟨-, same⟩
    · obtain rfl := read.symm.trans committed
      cases there : (db.commands id).committed with
      | some old => exact fun pending => before id old there (timely.pending id t c held pending old there)
      | none =>
        obtain ⟨e, mine, actuating⟩ := sound.fresh id t _ there held
        rw [read_of_held mine, actuating] at ended
        simp [ElevationStatus.Ended] at ended
    · exact before id c (same.symm.trans committed)

end ElevationDb.Sound

theorem afterStart_ne {e : Elevation} {call : ElevationCall} {stage : ElevationStage} (deciding : stage ≠ .deciding)
    (ending : stage ≠ .ending) : afterStart e call ≠ stage := by
  cases call with
  | actuateElevation =>
    simp only [afterStart]
    split_ifs
    · exact deciding.symm
    · exact ending.symm
  | claimPendingCommandsForDevice => exact ending.symm
  | respond | decideHandler | revoke | enforceElevationExpiry | expireStaleRequests => exact deciding.symm

theorem approved_of_afterStart {e : Elevation} (deciding : afterStart e .actuateElevation = .deciding) :
    e.status = .approved := by
  simp only [afterStart] at deciding
  split_ifs at deciding with approved
  exact approved

theorem timely_of_move (sound : db.Sound) (draft : db.Draft t p)
    (timely : db.Timely) (onTime : db.OnTime t p) (allowed : action = .exec → db.Allows t p.call p.stage)
    (moved : ElevationMove t action db p next after) : next.Timely := by
  cases moved with
  | ticks => exact ⟨timely.window, timely.versions, timely.pending, timely.handled⟩
  | starts | passes => exact timely
  | changes e stage deciding free =>
    have rests := draft.rests (.inr (.inl deciding))
    refine ⟨timely.window, fun id u c held => ?_, timely.pending, timely.handled⟩
    have other : u ≠ t := by
      rintro rfl
      exact rests.commands id _ held
    have same : (db.elevation.write t e).read u = db.elevation.read u := (kept_write other free e).read rfl
    simp only [same]
    exact timely.versions id u c held
  | inserts inserting =>
    simp only [ElevationDb.Draft, inserting] at draft
    obtain ⟨-, actuates, none⟩ := draft
    refine ⟨fun id c committed => ?_, fun id u c held => ?_, fun id u c _ _ old committed => ?_,
      fun _ id c committed => ?_⟩
    · simp only [ElevationDb.insertCommand, Table.committed_write, none] at committed
      cases committed
    · by_cases same : id = db.count
      · subst same
        simp only [ElevationDb.insertCommand, Table.write_self, held_write, Option.some.injEq, Prod.mk.injEq] at held
        obtain ⟨rfl, rfl⟩ := held
        exact onTime.actuates actuates (.inr inserting)
      · simp only [ElevationDb.insertCommand, Table.write_of_ne same, none] at held
        cases held
    · simp only [ElevationDb.insertCommand, Table.committed_write, none] at committed
      cases committed
    · simp only [ElevationDb.insertCommand, Table.committed_write, none] at committed
      cases committed
  | locks ids fresh claimable =>
    have rests := draft.rests (.inl fresh)
    have committed : ∀ id, ((db.lockCommands t ids).commands id).committed = (db.commands id).committed := by
      intro id
      simp only [ElevationDb.lockCommands]
      split_ifs <;> rfl
    refine ⟨fun id c there => timely.window id c ((committed id).symm.trans there), fun id u c held => ?_,
      fun id u c held pending old there => ?_, fun ended id c there =>
        timely.handled ended id c ((committed id).symm.trans there)⟩
    · simp only [ElevationDb.lockCommands] at held
      split_ifs at held with listed
      · simp only [held_write, Option.some.injEq, Prod.mk.injEq] at held
        obtain ⟨rfl, read⟩ := held
        rw [read_of_not_held (rests.commands id)] at read
        change ¬(db.elevation.read t).Lapsed c.insertedAt
        rw [rests.read]
        exact timely.window id c read
      · exact timely.versions id u c held
    · rw [committed id] at there
      simp only [ElevationDb.lockCommands] at held
      split_ifs at held with listed
      · simp only [held_write, Option.some.injEq, Prod.mk.injEq] at held
        rw [read_of_not_held (rests.commands id), there, Option.some.injEq] at held
        rw [held.2]
        exact pending
      · exact timely.pending id u c held pending old there
  | sends id ids claiming =>
    simp only [ElevationDb.Draft, claiming] at draft
    obtain ⟨v, locked⟩ := draft.2 id mem_cons_self
    unfold ElevationDb.sendCommand
    split
    next c found =>
      rw [read_of_held locked] at found
      subst found
      have versions : ∀ j u x,
          (db.commands.write t id (some { c with status := .sent }) j).held = some (u, some x) →
          (db.commands j).held = some (u, some x) ∨ u = t ∧ x = { c with status := .sent } := by
        intro j u x held
        by_cases same : j = id
        · subst same
          simp only [Table.write_self, held_write, Option.some.injEq, Prod.mk.injEq] at held
          exact .inr ⟨held.1.symm, held.2.symm⟩
        · rw [Table.write_of_ne same] at held
          exact .inl held
      split_ifs
      · refine ⟨fun j x there => ?_, fun j u x held => ?_, fun j u x held pending old there => ?_,
          fun ended j x there => ?_⟩
        · exact timely.window j x ((Table.committed_write ..).symm.trans there)
        · rcases versions j u x held with before | ⟨rfl, rfl⟩
          · exact timely.versions j u x before
          · exact timely.versions id u c locked
        · rw [Table.committed_write] at there
          rcases versions j u x held with before | ⟨rfl, rfl⟩
          · exact timely.pending j u x before pending old there
          · cases pending
        · exact timely.handled ended j x ((Table.committed_write ..).symm.trans there)
      · exact timely
    next => exact timely
  | commits exec ending =>
    have handled := allowed exec
    rw [ending] at handled
    exact sound.timely_commit timely handled
  | rollsBack =>
    refine ⟨timely.window, fun id u c held => ?_, fun id u c held => ?_, timely.handled⟩
    · obtain ⟨held, other⟩ := held_rollback_iff.mp held
      have same : (db.elevation.rollback t).read u = db.elevation.read u := (kept_rollback other).read rfl
      simp only [ElevationDb.rollback, same]
      exact timely.versions id u c held
    · exact timely.pending id u c (held_rollback_iff.mp held).1

theorem onTime_of_move (sound : db.Sound) (draft : db.Draft t p)
    (timely : db.Timely) (onTime : db.OnTime t p) (allowed : action = .exec → db.Allows t p.call p.stage)
    (moved : ElevationMove t action db p next after) (later : ∀ elapsed, action = .tick elapsed →
      ElevationDb.OnTime { db with clock := db.clock + elapsed } t p) : next.OnTime t after := by
  cases moved with
  | ticks elapsed tick => exact later elapsed tick
  | starts exec fresh =>
    have inside := allowed exec
    rw [fresh] at inside
    have rests := draft.rests (.inl fresh)
    refine ⟨fun actuates stage => ?_, fun actuates deciding => ?_, fun start => ?_, fun late => ?_⟩
    · rcases stage with ⟨-, approved⟩ | inserting
      · exact inside actuates approved
      · exact absurd inserting (afterStart_ne (by simp) (by simp))
    · change p.call = _ at actuates
      rw [actuates] at deciding
      rw [← rests.read, approved_of_afterStart deciding]
      simp
    · exact absurd start (afterStart_ne (by simp) (by simp))
    · exact ⟨of_decide_eq_true late, onTime.fresh fresh, fun ids claiming =>
        absurd claiming (afterStart_ne (by simp) (by simp))⟩
  | changes e stage deciding free moves after =>
    have late : p.late = true → db.elevation.committed.status.Ended ∧ p.claimed = [] := fun isLate =>
      ⟨(onTime.late isLate).1, (onTime.late isLate).2.1⟩
    rcases after with rfl | ⟨rfl, actuates, rfl⟩
    · exact .of_rests (.inl rfl) late
    · refine ⟨fun _ _ => ?_, fun _ again => ?_, fun start => ?_, fun isLate => ?_⟩
      · simp only [read_write]
        exact onTime.actuates actuates (.inl ⟨deciding, moves.follows.of_actuating⟩)
      · cases again
      · cases start
      · refine ⟨(late isLate).1, (late isLate).2, fun ids claiming => ?_⟩
        cases claiming
  | passes stage ends =>
    exact .of_rests (ends.imp_right And.left) fun isLate => ⟨(onTime.late isLate).1, (onTime.late isLate).2.1⟩
  | inserts inserting =>
    exact .of_rests (.inl rfl) fun isLate => ⟨(onTime.late isLate).1, (onTime.late isLate).2.1⟩
  | locks ids fresh claimable =>
    have rests := draft.rests (.inl fresh)
    refine .of_claiming rfl fun isLate => ?_
    have ended := of_decide_eq_true isLate
    refine ⟨ended, onTime.fresh fresh, eq_nil_iff_forall_not_mem.mpr fun id member => ?_⟩
    obtain ⟨-, c, found, pending⟩ := claimable id member
    rw [read_of_not_held (rests.commands id)] at found
    exact timely.handled ended id c found pending
  | sends id ids claiming =>
    refine .of_claiming rfl fun isLate => ?_
    cases (onTime.late isLate).2.2 _ claiming
  | commits exec ending =>
    refine .of_rests (.inr rfl) fun isLate => ⟨?_, (onTime.late isLate).2.1⟩
    have ended := (onTime.late isLate).1
    simp only [ElevationDb.commit, committed_commit, sound.ended_of_commit ended]
    exact ended
  | rollsBack => exact .of_rests (.inr rfl) fun isLate => ⟨(onTime.late isLate).1, rfl⟩

theorem onTime_of_other (sound : db.Sound) (other : u ≠ t) (draft : db.Draft u q) (onTime : db.OnTime u q)
    (moved : ElevationMove t action db p next after) (later : ∀ elapsed, action = .tick elapsed →
      ElevationDb.OnTime { db with clock := db.clock + elapsed } u q) : next.OnTime u q := by
  cases moved with
  | ticks elapsed tick => exact later elapsed tick
  | starts | passes => exact onTime
  | changes e stage deciding free => exact onTime.same ((kept_write other free e).read rfl) rfl rfl
  | inserts | locks => exact onTime.same rfl rfl rfl
  | sends id ids =>
    refine onTime.same ?_ ?_ ?_
    · rw [ElevationDb.elevation_sendCommand]
    · rw [ElevationDb.elevation_sendCommand]
    · exact ElevationDb.clock_sendCommand t id db
  | commits => exact sound.onTime_commit other draft onTime
  | rollsBack => exact onTime.same ((kept_rollback other).read rfl) rfl rfl

end Punctual

/-- The rows and the calls of a punctual run. -/
structure PunctualLaw (w : ElevationWorld τ) : Prop where
  law : ElevationLaw w
  timely : w.db.Timely
  onTime : ∀ t, w.db.OnTime t (w.proc t)

omit [DecidableEq τ] in
theorem punctualLaw_start (e : Elevation) (clock : ℕ) (calls : τ → ElevationCall) [DecidableEq τ] :
    PunctualLaw (elevationStart e clock calls) where
  law := elevationLaw_start e clock calls
  timely := by
    refine ⟨fun id c there => ?_, fun id t c held => ?_, fun id t c held => ?_, fun _ id c there => ?_⟩
    · cases there
    · cases held
    · cases held
    · cases there
  onTime t := by
    refine ⟨fun _ stages => ?_, fun _ deciding => ?_, fun _ => rfl, fun late => ?_⟩
    · simp [elevationStart] at stages
    · cases deciding
    · cases late

theorem PunctualLaw.step (good : PunctualLaw w)
    (punctual : w.Punctual e) (stepped : elevationStep w e = some next) : PunctualLaw next := by
  have law := good.law.step stepped
  have later : ∀ u elapsed, e.2 = .tick elapsed →
      ElevationDb.OnTime { w.db with clock := w.db.clock + elapsed } u (w.proc u) := by
    intro u elapsed tick
    obtain ⟨t, action⟩ := e
    subst tick
    exact ⟨punctual u, (good.onTime u).seen, (good.onTime u).fresh, (good.onTime u).late⟩
  obtain ⟨db, p, acted, rfl⟩ := World.step_eq_some stepped
  have moved := move_elevationAct acted
  have allowed : e.2 = .exec → w.db.Allows e.1 (w.proc e.1).call (w.proc e.1).stage := by
    intro exec
    obtain ⟨t, action⟩ := e
    subst exec
    exact punctual
  refine ⟨law, ?_, fun u => ?_⟩
  · exact timely_of_move good.law.sound (good.law.draft e.1) good.timely (good.onTime e.1) allowed moved
  · by_cases same : u = e.1
    · subst same
      simp only [update_self]
      exact onTime_of_move good.law.sound (good.law.draft e.1) good.timely (good.onTime e.1) allowed moved (later e.1)
    · simp only [update_of_ne same]
      exact onTime_of_other good.law.sound same (good.law.draft u) (good.onTime u) moved (later u)

omit [DecidableEq τ] in
theorem PunctualLaw.withheld [DecidableEq τ] (good : PunctualLaw w) : w.Withheld :=
  fun t _ late => ((good.onTime t).late late).2.1

/-- In every run the request moves along its statuses and gets one command at most; in the punctual ones the command
is inserted inside the window of the request, and no poll that starts after its end hands it to the device. -/
theorem elevation_used_in_time (e : Elevation) (clock : ℕ) (calls : τ → ElevationCall)
    {es : List (τ × ElevationAction)} {last : ElevationWorld τ}
    (reach : run elevationStep (elevationStart e clock calls) es = some last) :
    (∀ pre x post mid next, es = pre ++ x :: post → run elevationStep (elevationStart e clock calls) pre = some mid →
      elevationStep mid x = some next → mid.Moves next) ∧
    last.OneCommand ∧
    (Meets elevationStep ElevationWorld.Punctual (elevationStart e clock calls) es →
      last.InWindow ∧ last.Withheld) := by
  have start := elevationLaw_start e clock calls
  have one := (elevationLaw_run start reach).oneCommand
  refine ⟨fun pre x post mid next _ reached stepped => ?_, one, fun punctual => ?_⟩
  · exact (elevationLaw_run start reached).moves stepped
  · have good : PunctualLaw last := run_invariant (fun _ _ _ good punctual stepped => good.step punctual stepped)
      (punctualLaw_start e clock calls) punctual reach
    exact ⟨good.timely.window, good.withheld⟩

end Law

/-- A technician approves for a minute, another actuates, a third revokes, and the device polls. -/
def fourCalls : Fin 4 → ElevationCall
  | 0 => .respond true (some 1)
  | 1 => .actuateElevation
  | 2 => .revoke
  | 3 => .claimPendingCommandsForDevice

def fourCallsStart : ElevationWorld (Fin 4) := elevationStart ⟨.pending, 0, none⟩ 0 fourCalls

def execs (t : Fin 4) (n : ℕ) : List (Fin 4 × ElevationAction) := List.replicate n (t, .exec)

def usedInTime : List (Fin 4 × ElevationAction) :=
  execs 0 3 ++ [(0, .tick 1000)] ++ execs 1 4 ++ [(3, .claim [0])] ++ execs 3 3 ++ execs 2 3

instance (w : ElevationWorld (Fin 4)) (t : Fin 4) (now : ℕ) : Decidable (w.Actuates t now) :=
  inferInstanceAs (Decidable (_ → _ → _))

instance (db : ElevationDb (Fin 4)) (t : Fin 4) (call : ElevationCall) :
    (stage : ElevationStage) → Decidable (db.Allows t call stage)
  | .start => inferInstanceAs (Decidable (_ → _ → _))
  | .ending => inferInstanceAs (Decidable (_ → _ ∨ ∀ id < db.count, ∀ c ∈ (db.commands id).committed, _))
  | .deciding | .inserting | .claiming _ | .finished => isTrue trivial

instance (w : ElevationWorld (Fin 4)) : (e : Fin 4 × ElevationAction) → Decidable (w.Punctual e)
  | (_, .tick elapsed) => inferInstanceAs (Decidable (∀ t, w.Actuates t (w.db.clock + elapsed)))
  | (t, .exec) => inferInstanceAs (Decidable (w.db.Allows t (w.proc t).call (w.proc t).stage))
  | (_, .claim _) | (_, .refuse) | (_, .rollback) => isTrue trivial

/-- The window of the request, and the command with the number zero. -/
def ElevationWorld.commandSeen (w : ElevationWorld (Fin 4)) : Option ℕ × Option ActuateCommand :=
  (w.db.elevation.committed.expiresAt, (w.db.commands 0).committed)

theorem elevation_used_in_time_once : ∃ last, run elevationStep fourCallsStart usedInTime = some last ∧
    last.OneCommand ∧ last.InWindow ∧ last.Withheld := by
  obtain ⟨last, reach, -⟩ := (Option.any_eq_true (fun _ => true) (run elevationStep fourCallsStart usedInTime)).mp
    (by decide +kernel)
  obtain ⟨-, one, rest⟩ := elevation_used_in_time ⟨.pending, 0, none⟩ 0 fourCalls reach
  have punctual : Meets elevationStep ElevationWorld.Punctual fourCallsStart usedInTime := by decide +kernel
  exact ⟨last, reach, one, rest punctual⟩

/-- The actuation comes a minute and a millisecond after the approval. -/
def actuatedLate : List (Fin 4 × ElevationAction) := execs 0 3 ++ [(0, .tick 60001)] ++ execs 1 4

def revokedThenPolled : List (Fin 4 × ElevationAction) :=
  execs 0 3 ++ execs 1 4 ++ execs 2 3 ++ [(3, .claim [0])] ++ execs 3 3

def insertedLate (w : ElevationWorld (Fin 4)) : Bool := decide (w.commandSeen = (some 60000, some ⟨.pending, 60001⟩))

def handedOver (w : ElevationWorld (Fin 4)) : Bool :=
  decide ((w.proc 3).stage = .finished ∧ (w.proc 3).late = true ∧ (w.proc 3).claimed = [0])

/-- A command is inserted after the window, and one is handed out after the revocation. -/
theorem elevation_used_late :
    (∃ last, run elevationStep fourCallsStart actuatedLate = some last ∧ ¬last.InWindow) ∧
    ∃ last, run elevationStep fourCallsStart revokedThenPolled = some last ∧ ¬last.Withheld := by
  constructor
  · obtain ⟨last, reach, seen⟩ := (Option.any_eq_true insertedLate (run elevationStep fourCallsStart actuatedLate)).mp
      (by decide +kernel)
    obtain ⟨expires, command⟩ := Prod.mk.inj (of_decide_eq_true seen)
    exact ⟨last, reach, fun inside => inside 0 _ command ⟨60000, expires, by decide⟩⟩
  · obtain ⟨last, reach, seen⟩ :=
      (Option.any_eq_true handedOver (run elevationStep fourCallsStart revokedThenPolled)).mp (by decide +kernel)
    obtain ⟨finished, late, claimed⟩ := of_decide_eq_true seen
    refine ⟨last, reach, fun withheld => ?_⟩
    rw [withheld 3 finished late] at claimed
    cases claimed

end RemudaRmm.Approvals
