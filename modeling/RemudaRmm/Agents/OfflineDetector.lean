import RemudaRmm.Agents.AgentChannel
import Mathlib.Algebra.Order.Group.Int
import Mathlib.Data.List.Nodup

/-! The offline detector on one device (`jobs/offlineDetector.ts`), a statement at a time under READ COMMITTED, among
heartbeats and administrators. A `mark-offline` job is one transaction; its event is published outside of it. -/
namespace RemudaRmm.Agents.OfflineDetector
open Foundation List Function Option

structure Device where
  status : DeviceStatus
  lastSeenAt : Option ℤ
  deriving DecidableEq

structure MarkOfflineJob where
  lastSeenAt : Option ℤ
  deriving DecidableEq

/-- `published`, `triggered` and `transitions` have the jobs that have published the event, that have triggered the
offline alerts, and whose commits have taken the device from online or updating to offline. -/
structure OfflineDb where
  now : ℤ
  device : Row ℕ (Option Device)
  queue : List MarkOfflineJob
  published : List (ℕ × MarkOfflineJob)
  (triggered transitions : List ℕ)

/-- The next statement of a job. -/
inductive Stage where
  | idle
  | selectDevice (job : MarkOfflineJob)
  | updateDevice (job : MarkOfflineJob) (device : Device)
  | publishEvent (job : MarkOfflineJob)
  | triggerAlerts
  | commit
  | skipped
  | failed
  | done
  deriving DecidableEq

/-- Administrators contain a device by quarantining or decommissioning it. -/
inductive Containment where
  | quarantine
  | decommission
  deriving DecidableEq

def Containment.status : Containment → DeviceStatus
  | .quarantine => .quarantined
  | .decommission => .decommissioned

/-- `fail` is a statement, a publication or an evaluation that throws. -/
inductive Signal where
  | wait (elapsed : ℕ)
  | detect (thresholdMinutes : ℕ)
  | heartbeat
  | contain (containment : Containment)
  | start
  | exec
  | fail
  deriving DecidableEq

def defaultOfflineThresholdMinutes : ℕ := 5

def Device.Live (d : Device) : Prop := d.status = .online ∨ d.status = .updating
  deriving Decidable

def thresholdTime (now : ℤ) (thresholdMinutes : ℕ) : ℤ := now - thresholdMinutes * 60 * 1000

/-- Not seen since the threshold; a device that was never seen is stale too. -/
def Device.Stale (now : ℤ) (d : Device) : Prop :=
  ∀ seen ∈ d.lastSeenAt, seen < thresholdTime now defaultOfflineThresholdMinutes
  deriving Decidable

def selected (now : ℤ) (thresholdMinutes : ℕ) (d : Device) : Bool :=
  decide d.Live && d.lastSeenAt.any fun seen => decide (seen <
    thresholdTime now (if thresholdMinutes = 0 then defaultOfflineThresholdMinutes else thresholdMinutes))

def processDetectOffline (t thresholdMinutes : ℕ) (db : OfflineDb) : OfflineDb :=
  match (db.device.read t).filter (selected db.now thresholdMinutes) with
  | some d => { db with queue := db.queue ++ [⟨d.lastSeenAt⟩] }
  | none => db

/-- One update by id that commits by itself; nothing while a job holds the row. -/
def updateAlone (t : ℕ) (f : Device → Device) (db : OfflineDb) : Option OfflineDb :=
  if db.device.Free t then some { db with device := .unheld (db.device.committed.map f) } else none

def OfflineDb.rollback (t : ℕ) (db : OfflineDb) : OfflineDb := { db with device := db.device.rollback t }

def OfflineDb.commit (t : ℕ) (db : OfflineDb) : OfflineDb :=
  { db with
    device := db.device.commit t
    transitions :=
      if (∃ d ∈ db.device.committed, d.Live) ∧ ∃ d ∈ db.device.read t, d.status = .offline then db.transitions ++ [t]
      else db.transitions }

def processMarkOffline (t : ℕ) (db : OfflineDb) : Stage → Option (OfflineDb × Stage)
  | .idle | .skipped | .failed | .done => none
  | .selectDevice job =>
    match db.device.read t with
    | none => some (db, .skipped)
    | some d => some (db, if d.Live ∧ d.Stale db.now then .updateDevice job d else .skipped)
  | .updateDevice job _ =>
    if db.device.Free t then
      some ({ db with
        device := db.device.write t ((db.device.read t).map fun d => { d with status := .offline }) },
        .publishEvent job)
    else none
  | .publishEvent job => some ({ db with published := db.published ++ [(t, job)] }, .triggerAlerts)
  | .triggerAlerts => some ({ db with triggered := db.triggered ++ [t] }, .commit)
  | .commit => some (db.commit t, .done)

def offlineAct (t : ℕ) (signal : Signal) (db : OfflineDb) (stage : Stage) : Option (OfflineDb × Stage) :=
  match signal, stage with
  | .wait elapsed, stage => some ({ db with now := db.now + elapsed }, stage)
  | .detect thresholdMinutes, .idle => some (processDetectOffline t thresholdMinutes db, .idle)
  | .heartbeat, .idle =>
    (updateAlone t (fun d => { d with status := .online, lastSeenAt := some db.now }) db).map (·, .idle)
  | .contain containment, .idle =>
    (updateAlone t (fun d => { d with status := containment.status }) db).map (·, .idle)
  | .start, .idle => db.queue.head?.map fun job => ({ db with queue := db.queue.tail }, .selectDevice job)
  | .exec, stage => processMarkOffline t db stage
  | .fail, .idle | .fail, .skipped | .fail, .failed | .fail, .done => none
  | .fail, _ => some (db.rollback t, .failed)
  | _, _ => none

abbrev OfflineWorld := World ℕ OfflineDb Stage

def offlineStep (w : OfflineWorld) (e : ℕ × Signal) : OfflineWorld := (World.step offlineAct w e).getD w

def Stage.deviceRead : Stage → Option Device
  | .updateDevice _ d => some d
  | _ => none

/-- The device that a job writes offline is online or updating and stale, as it is committed. -/
def MarksStale (w : OfflineWorld) (e : ℕ × Signal) : Prop :=
  (w.proc e.1).deviceRead ≠ none → e.2 = .exec → w.db.device.Free e.1 →
    ∃ current ∈ w.db.device.committed, current.Live ∧ current.Stale w.db.now

/-- The job has told others that the device is offline, but has not committed it. -/
def Stage.Announcing : Stage → Prop
  | .triggerAlerts | .commit => True
  | _ => False

instance : ∀ stage : Stage, Decidable stage.Announcing
  | .triggerAlerts | .commit => .isTrue trivial
  | .idle | .selectDevice _ | .updateDevice _ _ | .publishEvent _ | .skipped | .failed | .done => .isFalse id

/-- Every transition has its event and its alerts, once, and there are no others except those of a job under way. -/
structure OncePerTransition (w : OfflineWorld) : Prop where
  once : w.db.transitions.Nodup
  published : ∀ t ∈ w.db.transitions, (w.db.published.map (·.1)).count t = 1
  triggered : ∀ t ∈ w.db.transitions, w.db.triggered.count t = 1
  nothingElse : ∀ t, t ∈ w.db.published.map (·.1) ∨ t ∈ w.db.triggered → t ∈ w.db.transitions ∨ (w.proc t).Announcing

/-- A job that writes finds the row as it has read it, and none fails once it has published its event. -/
structure Undisturbed (w : OfflineWorld) (e : ℕ × Signal) : Prop where
  unchanged : ∀ d ∈ (w.proc e.1).deviceRead, e.2 = .exec → w.db.device.committed = some d
  finishes : e.2 = .fail → ¬(w.proc e.1).Announcing

instance (w : OfflineWorld) (e : ℕ × Signal) : Decidable (Undisturbed w e) :=
  decidable_of_iff ((∀ d ∈ (w.proc e.1).deviceRead, e.2 = .exec → w.db.device.committed = some d) ∧
    (e.2 = .fail → ¬(w.proc e.1).Announcing))
    ⟨fun both => ⟨both.1, both.2⟩, fun undisturbed => ⟨undisturbed.unchanged, undisturbed.finishes⟩⟩

/-- How far a job has come. -/
inductive Phase where
  | quiet | marked | announced | alerted | done
  deriving DecidableEq

def Stage.phase : Stage → Phase
  | .idle | .selectDevice _ | .updateDevice _ _ | .skipped | .failed => .quiet
  | .publishEvent _ => .marked
  | .triggerAlerts => .announced
  | .commit => .alerted
  | .done => .done

def Phase.Holds (p : Phase) : Prop := p = .marked ∨ p = .announced ∨ p = .alerted

def Phase.Published (p : Phase) : Prop := p = .announced ∨ p = .alerted ∨ p = .done

def Phase.Triggered (p : Phase) : Prop := p = .alerted ∨ p = .done

instance (p : Phase) : Decidable p.Holds := inferInstanceAs (Decidable (_ ∨ _))
instance (p : Phase) : Decidable p.Published := inferInstanceAs (Decidable (_ ∨ _))
instance (p : Phase) : Decidable p.Triggered := inferInstanceAs (Decidable (_ ∨ _))

/-- The logs of the jobs stand as they were. -/
structure SameLogs (db next : OfflineDb) : Prop where
  published : next.published = db.published
  triggered : next.triggered = db.triggered
  transitions : next.transitions = db.transitions

/-- What one step makes of the database and of the stage of its job. -/
inductive OfflineMove (t : ℕ) (db : OfflineDb) : Signal → Stage → OfflineDb → Stage → Prop where
  | rests {signal : Signal} {stage stage' : Stage} {next : OfflineDb} (row : next.device = db.device)
      (logs : SameLogs db next) (phase : stage'.phase = stage.phase) (order : db.now ≤ next.now)
      (chosen : ∀ job d, stage' = .updateDevice job d → stage = stage' ∨ (d.Live ∧ d.Stale next.now)) :
      OfflineMove t db signal stage next stage'
  | updates {signal : Signal} (v : Option Device) (free : db.device.Free t) :
      OfflineMove t db signal .idle { db with device := .unheld v } .idle
  | marks (job : MarkOfflineJob) (d : Device) (free : db.device.Free t) : OfflineMove t db .exec (.updateDevice job d)
        { db with device := db.device.write t ((db.device.read t).map fun d => { d with status := .offline }) }
        (.publishEvent job)
  | publishes (job : MarkOfflineJob) : OfflineMove t db .exec (.publishEvent job)
      { db with published := db.published ++ [(t, job)] } .triggerAlerts
  | triggers : OfflineMove t db .exec .triggerAlerts { db with triggered := db.triggered ++ [t] } .commit
  | commits : OfflineMove t db .exec .commit (db.commit t) .done
  | fails {stage : Stage} (going : stage.phase ≠ .done) : OfflineMove t db .fail stage (db.rollback t) .failed

section Moves
variable {t : ℕ} {db next : OfflineDb} {stage stage' : Stage} {signal : Signal} {w : OfflineWorld}

theorem SameLogs.refl : SameLogs db db := ⟨rfl, rfl, rfl⟩

theorem processMarkOffline_move (done : processMarkOffline t db stage = some (next, stage')) :
    OfflineMove t db .exec stage next stage' := by
  unfold processMarkOffline at done
  cases stage with
  | idle | skipped | failed | done => cases done
  | selectDevice job =>
    dsimp only at done
    split at done
    · exact of_some_eq done (.rests rfl .refl rfl le_rfl (by simp))
    · cases done
      by_cases stale : ‹Device›.Live ∧ ‹Device›.Stale db.now
      · rw [if_pos stale]
        refine .rests rfl .refl rfl le_rfl fun _ _ same => ?_
        obtain ⟨-, rfl⟩ := Stage.updateDevice.inj same
        exact .inr stale
      · rw [if_neg stale]
        exact .rests rfl .refl rfl le_rfl (by simp)
  | updateDevice job d =>
    dsimp only at done
    split at done
    · next free =>
      exact of_some_eq done (.marks job d free)
    · cases done
  | publishEvent job =>
    exact of_some_eq done (.publishes job)
  | triggerAlerts =>
    exact of_some_eq done .triggers
  | commit =>
    exact of_some_eq done .commits

theorem updateAlone_move {f : Device → Device} (done : (updateAlone t f db).map (·, Stage.idle) = some (next, stage')) :
    OfflineMove t db signal .idle next stage' := by
  obtain ⟨written, updated, same⟩ := map_eq_some_iff.mp done
  unfold updateAlone at updated
  split at updated
  · cases updated
    cases same
    exact .updates _ ‹_›
  · cases updated

theorem offline_move (done : offlineAct t signal db stage = some (next, stage')) :
    OfflineMove t db signal stage next stage' := by
  unfold offlineAct at done
  split at done
  · cases done
    exact .rests rfl ⟨rfl, rfl, rfl⟩ rfl (Int.le_add_of_nonneg_right (Int.natCast_nonneg _)) fun _ _ _ => .inl rfl
  · cases done
    unfold processDetectOffline
    split <;> exact .rests rfl ⟨rfl, rfl, rfl⟩ rfl le_rfl (by simp)
  · exact updateAlone_move done
  · exact updateAlone_move done
  · obtain ⟨job, -, same⟩ := map_eq_some_iff.mp done
    cases same
    exact .rests rfl ⟨rfl, rfl, rfl⟩ rfl le_rfl (by simp)
  · exact processMarkOffline_move done
  · cases done
  · cases done
  · cases done
  · cases done
  · next idle skipped failed finished =>
    refine of_some_eq done (.fails ?_)
    cases stage with
    | done => exact absurd rfl finished
    | _ => simp [Stage.phase]
  · cases done

end Moves

def Tallied (log : List ℕ) (P : Phase → Prop) [DecidablePred P] (proc : ℕ → Stage) : Prop :=
  ∀ t, log.count t = if P (proc t).phase then 1 else 0

/-- A job holds the row from its write on, with the device offline that is committed as online or updating. -/
structure RowHeld (w : OfflineWorld) : Prop where
  holder : ∀ t v, w.db.device.held = some (t, v) → (w.proc t).phase.Holds ∧
    ∃ d, w.db.device.committed = some d ∧ d.Live ∧ v = some { d with status := .offline }
  holds : ∀ t, (w.proc t).phase.Holds → ∃ v, w.db.device.held = some (t, v)

/-- A job that is about to write has read a device that is online or updating and stale. -/
def Chosen (w : OfflineWorld) : Prop :=
  ∀ t job d, w.proc t = .updateDevice job d → d.Live ∧ d.Stale w.db.now

structure Sound (w : OfflineWorld) : Prop where
  row : RowHeld w
  published : Tallied (w.db.published.map (·.1)) Phase.Published w.proc
  triggered : Tallied w.db.triggered Phase.Triggered w.proc
  transitions : Tallied w.db.transitions (· = .done) w.proc
  chosen : Chosen w

section Runs
variable {w : OfflineWorld} {e : ℕ × Signal} {t : ℕ} {db : OfflineDb} {stage : Stage} {signal : Signal}
  {proc : ℕ → Stage} {P : Phase → Prop}

theorem Tallied.keep {log : List ℕ} [DecidablePred P]
    (tallied : Tallied log P proc) (same : P stage.phase ↔ P (proc t).phase) : Tallied log P (update proc t stage) := by
  intro u
  rw [tallied u]
  by_cases mine : u = t
  · subst mine
    simp only [update_self, same]
  · rw [update_of_ne mine]

theorem Tallied.log {log : List ℕ} [DecidablePred P]
    (tallied : Tallied log P proc) (before : ¬P (proc t).phase) (after : P stage.phase) :
    Tallied (log ++ [t]) P (update proc t stage) := by
  intro u
  rw [count_append, tallied u]
  by_cases mine : u = t
  · subst mine
    simp [before, after]
  · simp [update_of_ne mine, Ne.symm mine]

theorem Stale.later {d : Device} {now later : ℤ} (stale : d.Stale now) (order : now ≤ later) : d.Stale later := by
  intro seen known
  have old := stale seen known
  unfold thresholdTime at *
  omega

theorem Chosen.move (chosen : Chosen w) (move : OfflineMove t w.db signal (w.proc t) db stage) :
    Chosen ⟨db, update w.proc t stage⟩ := by
  intro u job d pending
  simp only at pending ⊢
  generalize old : w.proc t = before at move
  by_cases mine : u = t
  · subst mine
    rw [update_self] at pending
    cases move with
    | rests row logs phase order fresh =>
      rcases fresh job d pending with same | stale
      · have earlier := chosen u job d ((old.trans same).trans pending)
        exact ⟨earlier.1, Stale.later earlier.2 order⟩
      · exact stale
    | updates | marks | publishes | triggers | commits | fails => cases pending
  · rw [update_of_ne mine] at pending
    have earlier := chosen u job d pending
    cases move with
    | rests row logs phase order fresh => exact ⟨earlier.1, Stale.later earlier.2 order⟩
    | updates | marks | publishes | triggers | commits | fails => exact earlier

theorem RowHeld.unique (held : RowHeld w) {u : ℕ} (one : (w.proc t).phase.Holds) (other : (w.proc u).phase.Holds) :
    u = t := by
  obtain ⟨x, first⟩ := held.holds t one
  obtain ⟨y, second⟩ := held.holds u other
  exact (Prod.mk.inj (some.inj (second.symm.trans first))).1

theorem RowHeld.free (held : RowHeld w) (free : w.db.device.Free t) {u : ℕ} (holds : (w.proc u).phase.Holds) :
    u = t := by
  obtain ⟨v, rowHeld⟩ := held.holds u holds
  exact free u v rowHeld

theorem RowHeld.keep (held : RowHeld w) (row : db.device = w.db.device)
    (same : stage.phase.Holds ↔ (w.proc t).phase.Holds) : RowHeld ⟨db, update w.proc t stage⟩ := by
  have phase (u : ℕ) : (update w.proc t stage u).phase.Holds ↔ (w.proc u).phase.Holds := by
    by_cases mine : u = t
    · subst mine
      rw [update_self, same]
    · rw [update_of_ne mine]
  constructor
  · intro u v rowHeld
    simp only [row, phase] at rowHeld ⊢
    exact held.holder u v rowHeld
  · intro u holds
    simp only [row, phase] at holds ⊢
    exact held.holds u holds

theorem RowHeld.released (nobody : db.device.held = none) (mine : ¬stage.phase.Holds)
    (others : ∀ u, (w.proc u).phase.Holds → u = t) : RowHeld ⟨db, update w.proc t stage⟩ := by
  refine ⟨fun u v rowHeld => absurd rowHeld (Row.not_held_of_none nobody u v), fun u holds => ?_⟩
  simp only at holds
  by_cases own : u = t
  · rw [own, update_self] at holds
    exact absurd holds mine
  · rw [update_of_ne own] at holds
    exact absurd (others u holds) own

theorem RowHeld.move (held : RowHeld w) (chosen : Chosen w)
    (move : OfflineMove t w.db signal (w.proc t) db stage) (undisturbed : Undisturbed w (t, signal)) :
    RowHeld ⟨db, update w.proc t stage⟩ := by
  generalize old : w.proc t = before at move
  cases move with
  | rests row logs phase order fresh => exact held.keep row (by rw [phase, old])
  | updates v free => exact .released rfl (by decide) fun u holds => held.free free holds
  | marks job d free =>
    have committed := undisturbed.unchanged d (by rw [old]; rfl) rfl
    have live := (chosen t job d old).1
    have mine : ¬(w.proc t).phase.Holds := by simp [old, Stage.phase, Phase.Holds]
    have own (v : Option Device) : w.db.device.held ≠ some (t, v) := fun rowHeld => mine (held.holder t v rowHeld).1
    rw [Row.read_of_not_held own, committed]
    constructor
    · intro u v rowHeld
      cases rowHeld
      simp only [update_self]
      exact ⟨by simp [Stage.phase, Phase.Holds], d, committed, live, rfl⟩
    · intro u holds
      simp only [Row.held_write] at holds ⊢
      by_cases same : u = t
      · exact ⟨_, by rw [same]⟩
      · rw [update_of_ne same] at holds
        exact absurd (held.free free holds) same
  | publishes job | triggers => exact held.keep rfl (by simp [old, Stage.phase, Phase.Holds])
  | commits =>
    have mine : (w.proc t).phase.Holds := by simp [old, Stage.phase, Phase.Holds]
    obtain ⟨v, rowHeld⟩ := held.holds t mine
    exact .released (Row.release_of_held rowHeld) (by decide) fun u holds => held.unique mine holds
  | fails going =>
    by_cases mine : (w.proc t).phase.Holds
    · obtain ⟨v, rowHeld⟩ := held.holds t mine
      exact .released (Row.release_of_held rowHeld) (by decide) fun u holds => held.unique mine holds
    · have own (v : Option Device) : w.db.device.held ≠ some (t, v) :=
        fun rowHeld => mine (held.holder t v rowHeld).1
      exact held.keep (Row.rollback_of_not_held own) (iff_of_false (by decide) mine)

theorem RowHeld.commits (held : RowHeld w) (stage : w.proc t = .commit) :
    (w.db.commit t).transitions = w.db.transitions ++ [t] := by
  obtain ⟨v, rowHeld⟩ := held.holds t (by simp [stage, Stage.phase, Phase.Holds])
  obtain ⟨-, d, committed, live, rfl⟩ := held.holder t v rowHeld
  refine if_pos ⟨⟨d, committed, live⟩, { d with status := .offline }, ?_, rfl⟩
  exact Row.read_of_held rowHeld

theorem Sound.move (sound : Sound w) (move : OfflineMove t w.db signal (w.proc t) db stage)
    (undisturbed : Undisturbed w (t, signal)) : Sound ⟨db, update w.proc t stage⟩ := by
  refine ⟨sound.row.move sound.chosen move undisturbed, ?_, ?_, ?_, sound.chosen.move move⟩ <;>
  generalize old : w.proc t = before at move
  · have counts := sound.published
    cases move with
    | rests row logs phase order fresh =>
      rw [logs.published]
      exact counts.keep (by rw [old, phase])
    | updates | marks | triggers | commits => exact counts.keep (by simp [old, Stage.phase, Phase.Published])
    | publishes job =>
      simp only [map_append, map_cons, map_nil]
      exact counts.log (by simp [old, Stage.phase, Phase.Published]) (by decide)
    | fails going =>
      refine counts.keep (iff_of_false (by decide) fun done => undisturbed.finishes rfl ?_)
      cases before <;> simp_all [Stage.phase, Phase.Published, Stage.Announcing]
  · have counts := sound.triggered
    cases move with
    | rests row logs phase order fresh =>
      rw [logs.triggered]
      exact counts.keep (by rw [old, phase])
    | updates | marks | publishes | commits => exact counts.keep (by simp [old, Stage.phase, Phase.Triggered])
    | triggers => exact counts.log (by simp [old, Stage.phase, Phase.Triggered]) (by decide)
    | fails going =>
      refine counts.keep (iff_of_false (by decide) fun done => undisturbed.finishes rfl ?_)
      cases before <;> simp_all [Stage.phase, Phase.Triggered, Stage.Announcing]
  · have counts := sound.transitions
    cases move with
    | rests row logs phase order fresh =>
      rw [logs.transitions]
      exact counts.keep (by rw [old, phase])
    | updates | marks | publishes | triggers => exact counts.keep (by simp [old, Stage.phase])
    | commits =>
      simp only [sound.row.commits old]
      exact counts.log (by simp [old, Stage.phase]) rfl
    | fails going => exact counts.keep (iff_of_false (by decide) (by rw [old]; exact going))

theorem Sound.step (sound : Sound w) (undisturbed : Undisturbed w e) : Sound (offlineStep w e) := by
  unfold offlineStep
  cases stepped : World.step offlineAct w e with
  | none => exact sound
  | some next =>
    obtain ⟨db, stage, acted, rfl⟩ := World.step_eq_some stepped
    exact sound.move (offline_move acted) undisturbed

theorem Sound.marksStale (sound : Sound w) (undisturbed : Undisturbed w e) : MarksStale w e := by
  intro writes executes _
  cases stage : w.proc e.1 with
  | updateDevice job d => exact ⟨d, undisturbed.unchanged d (by rw [stage]; rfl) executes, sound.chosen e.1 job d stage⟩
  | _ => exact absurd (by rw [stage]; rfl) writes

theorem mem_iff_of_tallied {log : List ℕ} [DecidablePred P]
    (tallied : Tallied log P proc) : t ∈ log ↔ P (proc t).phase := by
  rw [← count_pos_iff, tallied t]
  split_ifs with far <;> simp [far]

theorem Sound.oncePerTransition (sound : Sound w) : OncePerTransition w := by
  have done (t : ℕ) : t ∈ w.db.transitions ↔ (w.proc t).phase = .done := mem_iff_of_tallied sound.transitions
  constructor
  · refine nodup_iff_count_le_one.mpr fun t => ?_
    rw [sound.transitions t]
    split_ifs <;> omega
  · intro t transition
    rw [sound.published t, if_pos (show (w.proc t).phase.Published from .inr (.inr ((done t).mp transition)))]
  · intro t transition
    rw [sound.triggered t, if_pos (show (w.proc t).phase.Triggered from .inr ((done t).mp transition))]
  · intro t logged
    rw [done t]
    rw [mem_iff_of_tallied sound.published, mem_iff_of_tallied sound.triggered] at logged
    cases stage : w.proc t <;> simp_all [Stage.phase, Phase.Published, Phase.Triggered, Stage.Announcing]

/-- A device, with the jobs that are queued for it and none under way. -/
def quietWorld (now : ℤ) (device : Option Device) (queue : List MarkOfflineJob) : OfflineWorld where
  db := ⟨now, .unheld device, queue, [], [], []⟩
  proc := fun _ => .idle

theorem quietWorld_sound (now : ℤ) (device : Option Device) (queue : List MarkOfflineJob) :
    Sound (quietWorld now device queue) where
  row := ⟨nofun, fun t holds => absurd holds (by simp [quietWorld, Stage.phase, Phase.Holds])⟩
  published _ := rfl
  triggered _ := rfl
  transitions _ := rfl
  chosen := nofun

/-- Where each job that writes finds the row as it has read it, and none fails after its event, only devices that are
online or updating and stale are marked, each transition with one event and one evaluation of the alerts. -/
theorem offline_marks (now : ℤ) (device : Option Device) (queue : List MarkOfflineJob) (es : List (ℕ × Signal))
    (undisturbed : StepsMeet offlineStep Undisturbed (quietWorld now device queue) es) :
    StepsMeet offlineStep MarksStale (quietWorld now device queue) es ∧
      Throughout offlineStep OncePerTransition (quietWorld now device queue) es := by
  have sound : Throughout offlineStep Sound (quietWorld now device queue) es :=
    throughout_of_invariant (fun _ _ sound => sound.step) (quietWorld_sound now device queue) undisturbed
  constructor
  · intro pre e post split
    exact (sound pre (e :: post) split).marksStale (undisturbed pre e post split)
  · intro pre post split
    exact (sound pre post split).oncePerTransition

end Runs

def staleWorld : OfflineWorld := quietWorld 600000 (some ⟨.online, some 0⟩) [⟨some 0⟩]

def markRun : List (ℕ × Signal) := [(1, .start), (1, .exec), (1, .exec), (1, .exec), (1, .exec), (1, .exec)]

theorem stale_device_marked : StepsMeet offlineStep MarksStale staleWorld markRun ∧
    Throughout offlineStep OncePerTransition staleWorld markRun :=
  offline_marks 600000 (some ⟨.online, some 0⟩) [⟨some 0⟩] markRun (by decide)

/-- The device has been seen again when the job writes it offline. -/
theorem live_device_marked : ¬StepsMeet offlineStep MarksStale staleWorld
    [(1, .start), (1, .exec), (2, .heartbeat), (1, .exec)] := by
  intro marks
  obtain ⟨current, committed, -, stale⟩ := marks [(1, .start), (1, .exec), (2, .heartbeat)] (1, .exec) [] rfl
    (by decide) rfl (by decide)
  obtain rfl : (⟨.online, some 600000⟩ : Device) = current := some.inj committed
  exact absurd (stale 600000 rfl) (by decide)

end RemudaRmm.Agents.OfflineDetector
