import RemudaRmm.Enrollment.EnrollmentMoves

/-! What holds in every state of a run of enrolments: who holds a row and what is in it, and that a key counts the calls
that have succeeded with it. -/
namespace RemudaRmm.Enrollment
open Foundation List Function Option Row

def Stage.committing : Stage → Option Admission
  | .commit a _ => some a
  | _ => none

def Stage.success : Stage → Option ℕ
  | .succeeded keyId _ => some keyId
  | _ => none

def DevicesHeld (s : Settings) (w : EnrollWorld) : Prop := ∀ i t v, (w.db.devices i).held = some (t, v) →
  ∃ a written, (w.proc t).writing = some (a, written) ∧ Pending s a written i (w.db.devices i).committed v

structure Listed (db : EnrollDb) : Prop where
  committed : ∀ i d, (db.devices i).committed = some d → i ∈ db.deviceIds
  held : ∀ i t v, (db.devices i).held = some (t, v) → i ∈ db.deviceIds

/-- A key is held by the calls that are about to commit, with one use more than it had. -/
structure KeysHeld (w : EnrollWorld) : Prop where
  holder : ∀ k t v, (w.db.keys k).held = some (t, v) → ∃ a key, (w.proc t).committing = some a ∧ a.keyId = k ∧
    (w.db.keys k).committed = some key ∧ key.exhausted = false ∧ v = some key.used
  claimed : ∀ t a, (w.proc t).committing = some a → ∃ v, (w.db.keys a.keyId).held = some (t, v)

def successes (db : EnrollDb) (keyId : ℕ) : ℕ := (db.granted.filter (·.2 = keyId)).length

/-- `granted` lists the calls that have succeeded, each once, and a key's count is the number of those that used it,
within its maximum. -/
structure UsageCounted (w : EnrollWorld) : Prop where
  once : (w.db.granted.map (·.1)).Nodup
  succeeded : ∀ t k, (t, k) ∈ w.db.granted ↔ (w.proc t).success = some k
  counted : ∀ k key, (w.db.keys k).committed = some key → key.usageCount = successes w.db k
  bounded : ∀ k key m, (w.db.keys k).committed = some key → key.maxUsage = some m → key.usageCount ≤ m

structure Sound (s : Settings) (w : EnrollWorld) : Prop where
  devices : DevicesHeld s w
  listed : Listed w.db
  keys : KeysHeld w
  usage : UsageCounted w

structure Quiet (w : EnrollWorld) : Prop where
  resting : ∀ t, ¬(w.proc t).Active
  devices : ∀ i, (w.db.devices i).held = none
  keys : ∀ k, (w.db.keys k).held = none
  listed : ∀ i d, (w.db.devices i).committed = some d → i ∈ w.db.deviceIds

section Stages
variable {stage : Stage}

theorem Stage.Opening.committing (opening : stage.Opening) : stage.committing = none := by
  cases stage <;> first | rfl | exact opening.elim

theorem Stage.Opening.success (opening : stage.Opening) : stage.success = none := by
  cases stage <;> first | rfl | exact opening.elim

theorem Stage.Active.success (active : stage.Active) : stage.success = none := by
  cases stage <;> first | rfl | exact active.elim

theorem committing_none (resting : ¬stage.Active) : stage.committing = none := by
  cases stage <;> first | rfl | exact absurd trivial resting

end Stages

theorem Quiet.sound {s : Settings} {w : EnrollWorld} (quiet : Quiet w) (usage : UsageCounted w) : Sound s w where
  devices i t v held := absurd held (not_held_of_none (quiet.devices i) t v)
  listed := ⟨quiet.listed, fun i t v held => absurd held (not_held_of_none (quiet.devices i) t v)⟩
  keys := by
    refine ⟨fun k t v held => absurd held (not_held_of_none (quiet.keys k) t v), fun t a commits => ?_⟩
    rw [committing_none (quiet.resting t)] at commits
    cases commits
  usage := usage

section Devices
variable {s : Settings} {w : EnrollWorld} {t : ℕ} {db : EnrollDb} {signal : Signal} {stage : Stage}
variable {a : Admission} {i : ℕ} {v : Option Device} {next : EnrollDb}

theorem Pending.onward {j : ℕ} {old new : Option Device} (pending : Pending s a none i old new) :
    Pending s a (some j) i old new := by
  cases pending with
  | renamed d placed => exact .renamed d placed
  | reenrolled d placed done | created placed done => cases done

theorem Pending.early {old new : Option Device} (pending : Pending s a none i old new) :
    a.placement = .replace i ∧ new ≠ none := by
  cases pending with
  | renamed d placed => exact ⟨placed, nofun⟩
  | reenrolled d placed done | created placed done => cases done

theorem DevicesHeld.reads (held : DevicesHeld s w) (before : (w.proc t).writing = none) (i : ℕ) :
    (w.db.devices i).read t = (w.db.devices i).committed := by
  refine read_of_not_held fun v mine => ?_
  obtain ⟨a, written, writes, -⟩ := held i t v mine
  rw [before] at writes
  cases writes

theorem DevicesHeld.reads_early (held : DevicesHeld s w) (before : (w.proc t).writing = some (a, none))
    (fits : a.placement ≠ .replace i ∨ (w.db.devices i).read t = none) : ∀ v, (w.db.devices i).held ≠ some (t, v) := by
  intro v mine
  obtain ⟨b, written, writes, pending⟩ := held i t v mine
  obtain ⟨rfl, rfl⟩ := Prod.mk.inj (some.inj (before.symm.trans writes))
  rcases fits with other | nothing
  · exact other pending.early.1
  · rw [read_of_held mine] at nothing
    exact pending.early.2 nothing

theorem DevicesHeld.write (held : DevicesHeld s w)
    (devices : db.devices = w.db.devices.write t i v) {written : Option ℕ}
    (writes : stage.writing = some (a, written)) (own : Pending s a written i (w.db.devices i).committed v)
    (onward : ∀ j x, j ≠ i → (w.db.devices j).held = some (t, x) →
      Pending s a written j (w.db.devices j).committed x) :
    DevicesHeld s ⟨db, update w.proc t stage⟩ := by
  intro j u x rowHeld
  simp only [devices, Table.committed_write] at rowHeld ⊢
  by_cases same : j = i
  · subst same
    rw [Table.write_self, held_write] at rowHeld
    cases rowHeld
    rw [update_self]
    exact ⟨a, written, writes, own⟩
  · rw [Table.write_of_ne same] at rowHeld
    by_cases mine : u = t
    · subst mine
      rw [update_self]
      exact ⟨a, written, writes, onward j x same rowHeld⟩
    · rw [update_of_ne mine]
      exact held j u x rowHeld

theorem DevicesHeld.keep (held : DevicesHeld s w) (devices : db.devices = w.db.devices)
    (writes : ∀ p, (w.proc t).writing = some p → stage.writing = some p) :
    DevicesHeld s ⟨db, update w.proc t stage⟩ := by
  intro j u x rowHeld
  simp only [devices] at rowHeld ⊢
  obtain ⟨a, written, old, pending⟩ := held j u x rowHeld
  refine ⟨a, written, ?_, pending⟩
  by_cases mine : u = t
  · subst mine
    rw [update_self]
    exact writes _ old
  · rw [update_of_ne mine]
    exact old

theorem DevicesHeld.move (held : DevicesHeld s w) (move : EnrollMove s t w.db (w.proc t) signal db stage) :
    DevicesHeld s ⟨db, update w.proc t stage⟩ := by
  generalize old : w.proc t = before at move
  cases move with
  | reads enrolling early under after =>
    refine held.keep rfl fun p writes => ?_
    rw [old, early] at writes
    cases writes
  | refuses refusal enrolling under =>
    intro j u x rowHeld
    obtain ⟨rowHeld, other⟩ := held_rollback_iff.mp rowHeld
    simp only [update_of_ne other]
    exact held j u x rowHeld
  | renames a i d placed free found =>
    have committed := (held.reads (by rw [old]; rfl) i).symm.trans found
    refine held.write rfl rfl (committed ▸ .renamed d placed) fun j x _ mine => ?_
    obtain ⟨b, written, writes, -⟩ := held j t x mine
    rw [old] at writes
    cases writes
  | reenrolls a i d placed free found =>
    have none := held.reads_early (i := i) (by rw [old]; rfl) (.inl (by simp [placed]))
    have committed := (read_of_not_held none).symm.trans found
    refine held.write rfl rfl (committed ▸ .reenrolled d placed rfl) fun j x _ mine => ?_
    obtain ⟨b, written, writes, pending⟩ := held j t x mine
    rw [old] at writes
    cases writes
    exact pending.onward
  | creates a i placed free found =>
    have none := held.reads_early (i := i) (by rw [old]; rfl) (.inr found)
    have committed := (read_of_not_held none).symm.trans found
    refine held.write rfl rfl (committed ▸ .created placed rfl) fun j x _ mine => ?_
    obtain ⟨b, written, writes, pending⟩ := held j t x mine
    rw [old] at writes
    cases writes
    exact pending.onward
  | claims a i key free found room =>
    refine held.keep rfl fun p writes => ?_
    rw [old] at writes
    exact writes
  | commits a i =>
    intro j u x rowHeld
    obtain ⟨rowHeld, other⟩ := held_commit_iff.mp rowHeld
    simp only [update_of_ne other, EnrollDb.commit, committed_commit]
    rw [read_of_not_held fun v mine =>
      other (Prod.mk.inj (some.inj (rowHeld.symm.trans mine))).1]
    exact held j u x rowHeld
  | administers admin i f free =>
    intro j u x rowHeld
    simp only at rowHeld ⊢
    by_cases same : j = i
    · rw [same, update_self] at rowHeld
      cases rowHeld
    · rw [update_of_ne same] at rowHeld ⊢
      obtain ⟨a, written, writes, pending⟩ := held j u x rowHeld
      have other : u ≠ t := by
        rintro rfl
        rw [old] at writes
        cases writes
      rw [update_of_ne other]
      exact ⟨a, written, writes, pending⟩

theorem Listed.insert (listed : Listed db)
    (devices : next.devices = db.devices.write t i v) (ids : next.deviceIds = db.deviceIds.insert i) : Listed next where
  committed j d found := by
    rw [devices, Table.committed_write] at found
    rw [ids]
    exact mem_insert_of_mem (listed.committed j d found)
  held j u x rowHeld := by
    rw [devices] at rowHeld
    rw [ids]
    rcases Table.held_write rowHeld with before | ⟨rfl, -⟩
    · exact mem_insert_of_mem (listed.held j u x before)
    · exact mem_insert_self

theorem Listed.write (listed : Listed db)
    (devices : next.devices = db.devices.write t i v) (ids : next.deviceIds = db.deviceIds) {d : Device}
    (found : (db.devices i).read t = some d) : Listed next := by
  have member : i ∈ db.deviceIds := by
    refine read_rule (P := fun v => v = some d → i ∈ db.deviceIds) (listed.committed i d) ?_ found
    exact fun v held _ => listed.held i t v held
  refine listed.insert devices ?_
  rw [ids, insert_of_mem member]

theorem Listed.move {before : Stage} (listed : Listed db)
    (move : EnrollMove s t db before signal next stage) : Listed next := by
  cases move with
  | reads | claims => exact ⟨listed.committed, listed.held⟩
  | refuses refusal enrolling under =>
    exact ⟨listed.committed, fun j u x rowHeld => listed.held j u x (held_rollback_iff.mp rowHeld).1⟩
  | renames a i d placed free found | reenrolls a i d placed free found => exact listed.write rfl rfl found
  | creates a i placed free found => exact listed.insert rfl rfl
  | commits a i =>
    refine ⟨fun j d found => ?_, fun j u x rowHeld => listed.held j u x (held_commit_iff.mp rowHeld).1⟩
    refine read_rule (P := fun v => v = some d → j ∈ db.deviceIds) (listed.committed j d) ?_ found
    exact fun v held _ => listed.held j t v held
  | administers admin i f free =>
    constructor
    · intro j d found
      simp only at found ⊢
      by_cases same : j = i
      · subst same
        rw [update_self] at found
        obtain ⟨e, was, -⟩ := map_eq_some_iff.mp found
        exact listed.committed j e was
      · rw [update_of_ne same] at found
        exact listed.committed j d found
    · intro j u x rowHeld
      simp only at rowHeld ⊢
      by_cases same : j = i
      · rw [same, update_self] at rowHeld
        cases rowHeld
      · rw [update_of_ne same] at rowHeld
        exact listed.held j u x rowHeld

end Devices

section Keys
variable {s : Settings} {w : EnrollWorld} {t : ℕ} {db : EnrollDb} {signal : Signal} {stage : Stage}

theorem KeysHeld.keep (held : KeysHeld w) (keys : db.keys = w.db.keys) (before : (w.proc t).committing = none)
    (after : stage.committing = none) : KeysHeld ⟨db, update w.proc t stage⟩ := by
  constructor
  · intro k u v rowHeld
    simp only [keys] at rowHeld ⊢
    obtain ⟨a, key, commits, rest⟩ := held.holder k u v rowHeld
    have other : u ≠ t := by
      rintro rfl
      rw [before] at commits
      cases commits
    rw [update_of_ne other]
    exact ⟨a, key, commits, rest⟩
  · intro u a commits
    simp only [keys] at commits ⊢
    by_cases mine : u = t
    · rw [mine, update_self, after] at commits
      cases commits
    · rw [update_of_ne mine] at commits
      exact held.claimed u a commits

theorem KeysHeld.reads (held : KeysHeld w) (before : (w.proc t).committing = none) (k : ℕ) :
    (w.db.keys k).read t = (w.db.keys k).committed := by
  refine read_of_not_held fun v mine => ?_
  obtain ⟨a, key, commits, -⟩ := held.holder k t v mine
  rw [before] at commits
  cases commits

theorem KeysHeld.reads_claimed {a : Admission} (held : KeysHeld w) (commits : (w.proc t).committing = some a) :
    ∃ key, (w.db.keys a.keyId).committed = some key ∧ key.exhausted = false ∧
      (w.db.keys a.keyId).read t = some key.used := by
  obtain ⟨v, rowHeld⟩ := held.claimed t a commits
  obtain ⟨b, key, -, -, committed, room, rfl⟩ := held.holder a.keyId t v rowHeld
  exact ⟨key, committed, room, read_of_held rowHeld⟩

theorem KeysHeld.reads_other {a : Admission} (held : KeysHeld w) (commits : (w.proc t).committing = some a) {k : ℕ}
    (other : k ≠ a.keyId) : (w.db.keys k).read t = (w.db.keys k).committed := by
  refine read_of_not_held fun v mine => ?_
  obtain ⟨b, key, same, rfl, -⟩ := held.holder k t v mine
  cases commits.symm.trans same
  exact other rfl

theorem KeysHeld.move (held : KeysHeld w) (move : EnrollMove s t w.db (w.proc t) signal db stage) :
    KeysHeld ⟨db, update w.proc t stage⟩ := by
  generalize old : w.proc t = before at move
  have ending (next : Row ℕ (Option EnrollmentKey) → Row ℕ (Option EnrollmentKey))
      (keeps : ∀ r : Row ℕ (Option EnrollmentKey), ∀ u v, (next r).held = some (u, v) ↔ r.held = some (u, v) ∧ u ≠ t)
      (stands : ∀ r : Row ℕ (Option EnrollmentKey), ∀ u v, u ≠ t → r.held = some (u, v) →
        (next r).committed = r.committed) (keys : db.keys = fun k => next (w.db.keys k))
      (after : stage.committing = none) : KeysHeld ⟨db, update w.proc t stage⟩ := by
    constructor
    · intro k u v rowHeld
      simp only [keys] at rowHeld ⊢
      obtain ⟨rowHeld, other⟩ := (keeps _ u v).mp rowHeld
      rw [update_of_ne other, stands _ u v other rowHeld]
      exact held.holder k u v rowHeld
    · intro u a commits
      simp only [keys] at commits ⊢
      by_cases mine : u = t
      · rw [mine, update_self, after] at commits
        cases commits
      · rw [update_of_ne mine] at commits
        obtain ⟨v, rowHeld⟩ := held.claimed u a commits
        exact ⟨v, (keeps _ u v).mpr ⟨rowHeld, mine⟩⟩
  cases move with
  | reads enrolling early under after =>
    refine held.keep rfl ?_ after.committing
    rw [old]
    exact under.committing
  | refuses refusal enrolling under =>
    exact ending (·.rollback t) (fun r u v => held_rollback_iff) (fun r u v _ _ => rfl) rfl rfl
  | renames | reenrolls | creates | administers => exact held.keep rfl (by rw [old]; rfl) rfl
  | claims a i key free found room =>
    have idle : (w.proc t).committing = none := by rw [old]; rfl
    have committed := (held.reads idle a.keyId).symm.trans found
    constructor
    · intro k u v rowHeld
      simp only [Table.committed_write] at rowHeld ⊢
      by_cases same : k = a.keyId
      · subst same
        rw [Table.write_self, held_write] at rowHeld
        cases rowHeld
        rw [update_self]
        exact ⟨a, key, rfl, rfl, committed, room, rfl⟩
      · rw [Table.write_of_ne same] at rowHeld
        obtain ⟨b, other, commits, rest⟩ := held.holder k u v rowHeld
        have elsewhere : u ≠ t := by
          rintro rfl
          rw [idle] at commits
          cases commits
        rw [update_of_ne elsewhere]
        exact ⟨b, other, commits, rest⟩
    · intro u b commits
      simp only at commits ⊢
      by_cases mine : u = t
      · subst mine
        rw [update_self] at commits
        cases commits
        exact ⟨_, by rw [Table.write_self, held_write]⟩
      · rw [update_of_ne mine] at commits
        obtain ⟨v, rowHeld⟩ := held.claimed u b commits
        exact ⟨v, ((Table.kept_write mine free _ b.keyId) v).mpr rowHeld⟩
  | commits a i =>
    refine ending (·.commit t) (fun r u v => held_commit_iff) (fun r u v other rowHeld => ?_) rfl rfl
    exact (undisturbed_commit other).committed v rowHeld

end Keys

section Counts
variable {s : Settings} {w : EnrollWorld} {t : ℕ} {db : EnrollDb} {signal : Signal} {stage : Stage}

theorem EnrollMove.settles {before : Stage} (move : EnrollMove s t w.db before signal db stage) :
    (signal.Executes ∧ ∃ a i, before = .commit a i ∧
      db = { w.db.commit t with granted := w.db.granted ++ [(t, a.keyId)] } ∧ stage = .succeeded a.keyId i) ∨
    (db.granted = w.db.granted ∧ (∀ k, (db.keys k).committed = (w.db.keys k).committed) ∧ before.success = none ∧
      stage.success = none ∧
      (signal.Enrolling → ∀ i, (db.devices i).committed = (w.db.devices i).committed)) := by
  cases move with
  | reads enrolling early under after => exact .inr ⟨rfl, fun _ => rfl, under.success, after.success, fun _ _ => rfl⟩
  | refuses refusal enrolling under => exact .inr ⟨rfl, fun _ => rfl, under.success, rfl, fun _ _ => rfl⟩
  | renames | reenrolls | creates =>
    exact .inr ⟨rfl, fun _ => rfl, rfl, rfl, fun _ i => Table.committed_write ..⟩
  | claims a i key free found room =>
    exact .inr ⟨rfl, fun k => Table.committed_write .., rfl, rfl, fun _ _ => rfl⟩
  | commits a i => exact .inl ⟨trivial, a, i, rfl, rfl, rfl⟩
  | administers admin i f free => exact .inr ⟨rfl, fun _ => rfl, rfl, rfl, fun enrolling => absurd enrolling admin⟩

theorem room_of_not_exhausted {key : EnrollmentKey} {m : ℕ} (room : key.exhausted = false)
    (max : key.maxUsage = some m) : key.usageCount < m := by
  simpa [EnrollmentKey.exhausted, max] using room

theorem UsageCounted.move (usage : UsageCounted w) (keys : KeysHeld w)
    (move : EnrollMove s t w.db (w.proc t) signal db stage) : UsageCounted ⟨db, update w.proc t stage⟩ := by
  rcases move.settles with ⟨-, a, i, old, rfl, rfl⟩ | ⟨granted, committed, before, after, -⟩
  · have commits : (w.proc t).committing = some a := by rw [old]; rfl
    obtain ⟨key, found, room, claimed⟩ := keys.reads_claimed commits
    have unlisted (k : ℕ) : (t, k) ∉ w.db.granted := by
      rw [usage.succeeded, old]
      nofun
    constructor
    · simp only [map_append, map_cons, map_nil]
      refine List.Nodup.append usage.once (nodup_singleton t) ?_
      rw [disjoint_singleton]
      intro member
      obtain ⟨⟨u, k⟩, listed, rfl⟩ := List.mem_map.mp member
      exact unlisted k listed
    · intro u k
      simp only [mem_append, mem_singleton]
      by_cases mine : u = t
      · subst mine
        simp [unlisted k, Stage.success, eq_comm]
      · simp [usage.succeeded u k, mine]
    · intro k later
      simp only [EnrollDb.commit, committed_commit, successes, filter_append, length_append]
      by_cases same : k = a.keyId
      · subst same
        intro reads
        cases claimed.symm.trans reads
        simpa [EnrollmentKey.used, successes] using usage.counted _ key found
      · intro reads
        rw [keys.reads_other commits same] at reads
        simpa [successes, Ne.symm same] using usage.counted k later reads
    · intro k later m
      simp only [EnrollDb.commit, committed_commit]
      by_cases same : k = a.keyId
      · subst same
        intro reads max
        cases claimed.symm.trans reads
        exact room_of_not_exhausted room max
      · intro reads
        rw [keys.reads_other commits same] at reads
        exact usage.bounded k later m reads
  · constructor
    · rw [granted]
      exact usage.once
    · intro u k
      simp only [granted]
      by_cases mine : u = t
      · subst mine
        rw [update_self, after, ← before]
        exact usage.succeeded u k
      · rw [update_of_ne mine]
        exact usage.succeeded u k
    · intro k key
      simp only [committed, successes, granted]
      exact usage.counted k key
    · intro k key m
      simp only [committed]
      exact usage.bounded k key m

end Counts

section Runs
variable {s : Settings} {dir : Directory} {w : EnrollWorld} {e : ℕ × Signal}

theorem enrollStep_cases (s : Settings) (dir : Directory) (w : EnrollWorld) (e : ℕ × Signal) :
    enrollStep s dir w e = w ∨ ∃ db stage, EnrollMove s e.1 w.db (w.proc e.1) e.2 db stage ∧
    enrollStep s dir w e = ⟨db, update w.proc e.1 stage⟩ := by
  unfold enrollStep
  cases stepped : World.step (enrollAct s dir) w e with
  | none => exact .inl rfl
  | some next =>
    obtain ⟨db, stage, acted, rfl⟩ := World.step_eq_some stepped
    exact .inr ⟨db, stage, enroll_move acted, rfl⟩

theorem Sound.step (dir : Directory) (sound : Sound s w) (e : ℕ × Signal) : Sound s (enrollStep s dir w e) := by
  rcases enrollStep_cases s dir w e with same | ⟨db, stage, move, eq⟩
  · rw [same]
    exact sound
  · rw [eq]
    exact ⟨sound.devices.move move, sound.listed.move move, sound.keys.move move, sound.usage.move sound.keys move⟩

theorem Sound.throughout (dir : Directory) (sound : Sound s w) (es : List (ℕ × Signal)) :
    Throughout (enrollStep s dir) (Sound s) w es :=
  throughout_of_invariant (C := fun _ _ => True) (fun _ e sound _ => sound.step dir e) sound fun _ _ _ _ => trivial

/-- An enrolling step after which its call has not succeeded leaves the devices and the keys as they were. -/
def LeavesRows (s : Settings) (dir : Directory) (w : EnrollWorld) (e : ℕ × Signal) : Prop :=
  e.2.Enrolling → ((enrollStep s dir w e).proc e.1).success = none →
    (∀ i, ((enrollStep s dir w e).db.devices i).committed = (w.db.devices i).committed) ∧
      ∀ k, ((enrollStep s dir w e).db.keys k).committed = (w.db.keys k).committed

theorem leavesRows : LeavesRows s dir w e := by
  intro enrolling unsuccessful
  rcases enrollStep_cases s dir w e with same | ⟨db, stage, move, eq⟩
  · rw [same]
    exact ⟨fun _ => rfl, fun _ => rfl⟩
  · rw [eq] at unsuccessful ⊢
    rcases move.settles with ⟨-, a, i, -, -, rfl⟩ | ⟨-, keys, -, -, devices⟩
    · simp [Stage.success] at unsuccessful
    · exact ⟨devices enrolling, keys⟩

end Runs

end RemudaRmm.Enrollment
