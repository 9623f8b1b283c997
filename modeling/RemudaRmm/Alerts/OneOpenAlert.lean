import RemudaRmm.Alerts.AlertInterleaving

/-! What holds of the alerts of one rule on one device in every interleaving of calls whose statements take their turn:
one alert is open at most, resolutions are final, and none is created while a resolution cools down. -/
namespace RemudaRmm.Alerts
open Foundation List Option Row AlertDb Command
open Foundation.Program (Obeys)

section Tables
variable {τ : Type*} [DecidableEq τ]
variable {r : Row τ (Option Alert)} {a : Alert}

def Version (r : Row τ (Option Alert)) (a : Alert) : Prop :=
  r.committed = some a ∨ ∃ t, r.held = some (t, some a)

theorem Version.of_read {t : τ} (read : r.read t = some a) : Version r a := by
  rcases r.read_cases t with ⟨v, held, own⟩ | ⟨-, same⟩
  · exact .inr ⟨t, own.symm.trans read ▸ held⟩
  · exact .inl (same.symm.trans read)

theorem Version.of_commit {t : τ} (version : Version (r.commit t) a) : Version r a := by
  rcases version with committed | ⟨u, held⟩
  · exact .of_read committed
  · exact .inr ⟨u, (held_commit_iff.mp held).1⟩

theorem Version.of_rollback {t : τ} (version : Version (r.rollback t) a) : Version r a := by
  rcases version with committed | ⟨u, held⟩
  · exact .inl committed
  · exact .inr ⟨u, (held_rollback_iff.mp held).1⟩

omit [DecidableEq τ] in
theorem Version.of_write {t : τ} {b : Alert} (version : Version (r.write t (some b)) a) : Version r a ∨ a = b := by
  rcases version with committed | ⟨u, held⟩
  · exact .inl (.inl committed)
  · rw [held_write, Option.some.injEq, Prod.mk.injEq, Option.some.injEq] at held
    exact .inr held.2.symm

omit [DecidableEq τ] in
theorem not_version_unheld (a : Alert) : ¬Version (.unheld none : Row τ (Option Alert)) a := by
  rintro (committed | ⟨u, held⟩)
  · cases committed
  · cases held

/-- Ids are given out in order, at most one alert has an open version, nobody writes a resolved alert, and every alert
carries the cooldown of the pair. -/
structure TableSound (cooldownMinutes : ℕ) (alerts : Table ℕ τ (Option Alert)) (count : ℕ) : Prop where
  absent : ∀ id, count ≤ id → alerts id = .unheld none
  one : ∀ i j a b, Version (alerts i) a → a.IsOpen → Version (alerts j) b → b.IsOpen → i = j
  final : ∀ id a, (alerts id).committed = some a → ¬a.IsOpen → (alerts id).held = none
  carries : ∀ id a, Version (alerts id) a → a.cooldownMinutes = some cooldownMinutes

variable {c count : ℕ} {alerts : Table ℕ τ (Option Alert)} {t : τ}

theorem TableSound.commit (sound : TableSound c alerts count) :
    TableSound c (fun id => (alerts id).commit t) count where
  absent id beyond := by
    rw [sound.absent id beyond, commit_unheld]
  one i j a b first opened second also := sound.one i j a b first.of_commit opened second.of_commit also
  final id a committed closed := by
    rcases (alerts id).read_cases t with ⟨v, held, -⟩ | ⟨free, -⟩
    · exact release_of_held held
    · simp only [commit_of_not_held free] at committed ⊢
      exact sound.final id a committed closed
  carries id a version := sound.carries id a version.of_commit

theorem TableSound.rollback (sound : TableSound c alerts count) :
    TableSound c (fun id => (alerts id).rollback t) count where
  absent id beyond := by
    rw [sound.absent id beyond, rollback_unheld]
  one i j a b first opened second also := sound.one i j a b first.of_rollback opened second.of_rollback also
  final id a committed closed := by
    have quiet := sound.final id a committed closed
    rw [rollback_of_quiet quiet t]
    exact quiet
  carries id a version := sound.carries id a version.of_rollback

omit [DecidableEq τ] in
theorem version_write {id i : ℕ} {b : Alert} (version : Version (alerts.write t id (some b) i) a) :
    Version (alerts i) a ∨ i = id ∧ a = b := by
  by_cases same : i = id
  · subst same
    rw [Table.write_self] at version
    exact version.of_write.imp_right fun equal => ⟨rfl, equal⟩
  · rw [Table.write_of_ne same] at version
    exact .inl version

omit [DecidableEq τ] in
theorem TableSound.insert (sound : TableSound c alerts count) (carried : a.cooldownMinutes = some c)
    (alone : ∀ id b, Version (alerts id) b → ¬b.IsOpen) : TableSound c (alerts.write t count (some a)) (count + 1) where
  absent id beyond := by
    rw [Table.write_of_ne (by omega)]
    exact sound.absent id (by omega)
  one i j x y first opened second also := by
    rcases version_write first with old | ⟨here, -⟩
    · exact absurd opened (alone i x old)
    · rcases version_write second with old | ⟨too, -⟩
      · exact absurd also (alone j y old)
      · exact here.trans too.symm
  final id x committed closed := by
    rw [Table.committed_write] at committed
    have other : id ≠ count := by
      rintro rfl
      rw [sound.absent id le_rfl] at committed
      cases committed
    rw [Table.write_of_ne other]
    exact sound.final id x committed closed
  carries id x version := by
    rcases version_write version with old | ⟨-, rfl⟩
    · exact sound.carries id x old
    · exact carried

theorem TableSound.update (sound : TableSound c alerts count) {id : ℕ} (seen : (alerts id).read t = some a)
    (opened : a.IsOpen) (changes : AlertChanges) : TableSound c (alerts.write t id (some (a.set changes))) count where
  absent i beyond := by
    have other : i ≠ id := by
      rintro rfl
      rw [sound.absent i beyond] at seen
      cases seen
    rw [Table.write_of_ne other]
    exact sound.absent i beyond
  one i j x y first openFirst second openSecond := by
    have unique : ∀ k z, Version (alerts.write t id (some (a.set changes)) k) z → z.IsOpen → k = id := by
      intro k z version openZ
      rcases version_write version with old | ⟨here, -⟩
      · exact sound.one k id z a old openZ (.of_read seen) opened
      · exact here
    exact (unique i x first openFirst).trans (unique j y second openSecond).symm
  final i x committed closed := by
    rw [Table.committed_write] at committed
    have other : i ≠ id := by
      rintro rfl
      have quiet := sound.final i x committed closed
      rw [read_of_quiet quiet, committed] at seen
      exact closed (some.inj seen ▸ opened)
    rw [Table.write_of_ne other]
    exact sound.final i x committed closed
  carries i x version := by
    rcases version_write version with old | ⟨-, rfl⟩
    · exact sound.carries i x old
    · exact sound.carries id a (.of_read seen)

def Closed (r : Row τ (Option Alert)) : Prop :=
  (∀ a ∈ r.committed, ¬a.IsOpen) ∧ ∀ v ∈ r.held, ∀ a ∈ v.2, ¬a.IsOpen
  deriving Decidable

omit [DecidableEq τ] in
theorem Closed.version (closed : Closed r) (version : Version r a) : ¬a.IsOpen := by
  rcases version with committed | ⟨u, held⟩
  · exact closed.1 a committed
  · exact closed.2 (u, some a) held a rfl

end Tables

def Redis.lasts (til : ℕ) (redis : Redis) : Prop := ∃ expires ∈ redis.cooldown, til ≤ expires

instance (til : ℕ) (redis : Redis) : Decidable (redis.lasts til) :=
  match found : redis.cooldown with
  | none => .isFalse (by simp [Redis.lasts, found])
  | some expires => decidable_of_iff (til ≤ expires) (by simp [Redis.lasts, found])

section Turns
variable {τ : Type*} [DecidableEq τ]
variable {phase : Phase} {command : Command}

/-- An alert is inserted while none has an open version; an update finds its alert open, and a bulk resolution comes
while a cooldown still runs for the time of the pair; an evaluation that started before the end of the time after a
resolution comes to its cooldown check before it too. -/
def Orderly (cooldownMinutes : ℕ) (t : τ) (db : AlertDb τ) (p : AlertProc) : Command → Prop
  | .insertAlert _ => ∀ id < db.count, Closed (db.alerts id)
  | .updateAlert id changes => (∀ a ∈ (db.alerts id).read t, a.IsOpen) ∧
      (p.call.isBulk = true → changes.status = .resolved → db.redis.lasts (db.clock + cooldownMinutes * 60000))
  | .existsCooldown => ∀ r ∈ p.known, p.startedAt < r + cooldownMinutes * 60000 → db.clock < r + cooldownMinutes * 60000
  | _ => True

instance (cooldownMinutes : ℕ) (t : τ) (db : AlertDb τ) (p : AlertProc) (command : Command) :
    Decidable (Orderly cooldownMinutes t db p command) :=
  match command with
  | .insertAlert _ => inferInstanceAs (Decidable (∀ id < db.count, Closed (db.alerts id)))
  | .updateAlert .. => inferInstanceAs (Decidable (_ ∧ _))
  | .existsCooldown => inferInstanceAs (Decidable (∀ r ∈ p.known, _))
  | .selectAlert _ | .selectAlerts _ | .selectOpenAlert | .selectActiveAlerts | .now | .evaluateConditions
  | .evaluateAutoResolveConditions | .maintenanceWindow | .getAdaptive | .setexCooldown _ | .setexAdaptive .. | .rpush _
  | .ltrim _ | .expire _ | .lrange => .isTrue trivial

def AlertWorld.InTurn (rule : Rule) (w : AlertWorld τ) (e : τ × AlertAction) : Prop :=
  match e.2, (w.proc e.1).program with
  | .step _, some (.call c _) => Orderly rule.cooldownMinutes e.1 w.db (w.proc e.1) c
  | _, _ => True

instance (rule : Rule) (w : AlertWorld τ) (e : τ × AlertAction) : Decidable (w.InTurn rule e) :=
  match e with
  | (t, .step _) =>
    match found : (w.proc t).program with
    | some (.call c _) => decidable_of_iff (Orderly rule.cooldownMinutes t w.db (w.proc t) c) (by
        simp [AlertWorld.InTurn, found])
    | some (.done _) => .isTrue (by simp [AlertWorld.InTurn, found])
    | none => .isTrue (by simp [AlertWorld.InTurn, found])
  | (_, .wait _) | (_, .start _) | (_, .finish) | (_, .commit) | (_, .rollback) => .isTrue trivial

/-- The call started when the time after every resolution that had returned was over. -/
def AlertProc.Late (cooldownMinutes : ℕ) (p : AlertProc) : Prop :=
  ∀ r ∈ p.known, r + cooldownMinutes * 60000 ≤ p.startedAt

structure CallSound (c : ℕ) (db : AlertDb τ) (p : AlertProc) : Prop where
  known : ∀ r ∈ p.known, r ∈ db.returned
  past : ∀ r ∈ p.resolvedAt, r ≤ db.clock
  late : p.created = true → p.Late c
  runs : ∀ rest, p.program = some rest → ∃ phase, Obeys (callProtocol c) (fun next _ => p.call.Ends next) phase rest ∧
    (phase.check = .passed → p.Late c) ∧ (p.call.Ends phase → ∀ r ∈ p.resolvedAt, db.redis.lasts (r + c * 60000))

structure AlertWorld.Sound (c : ℕ) (w : AlertWorld τ) : Prop where
  table : TableSound c w.db.alerts w.db.count
  past : ∀ r ∈ w.db.returned, r ≤ w.db.clock
  cooled : ∀ r ∈ w.db.returned, w.db.redis.lasts (r + c * 60000)
  calls : ∀ t, CallSound c w.db (w.proc t)

variable {c : ℕ} {db after : AlertDb τ} {p : AlertProc} {w next : AlertWorld τ} {t : τ}

omit [DecidableEq τ] in
theorem CallSound.later (sound : CallSound c db p) (returned : ∀ r ∈ db.returned, r ∈ after.returned)
    (clock : db.clock ≤ after.clock)
    (lasts : ∀ r ≤ db.clock, db.redis.lasts (r + c * 60000) → after.redis.lasts (r + c * 60000)) :
    CallSound c after p where
  known r member := returned r (sound.known r member)
  past r member := (sound.past r member).trans clock
  late := sound.late
  runs rest running := by
    obtain ⟨phase, obeys, passed, covered⟩ := sound.runs rest running
    exact ⟨phase, obeys, passed, fun ends r member => lasts r (sound.past r member) (covered ends r member)⟩

theorem lasts_outcome {view : View} {redis : Redis} {clock r : ℕ} {around : Surroundings}
    (admitted : (callProtocol c).admits phase command) (order : r ≤ clock)
    (lasts : redis.lasts (r + c * 60000)) : (command.outcome view redis clock around).redis.lasts (r + c * 60000) := by
  cases command with
  | setexCooldown seconds =>
    have long : c * 60 ≤ seconds := admitted
    exact ⟨_, rfl, by omega⟩
  | _ => exact lasts

omit [DecidableEq τ] in
omit [DecidableEq τ] in
@[simp] theorem AlertDb.clock_write (db : AlertDb τ) (t : τ) (row : Option (ℕ × Alert)) :
    (db.write t row).clock = db.clock := by
  cases row <;> rfl

omit [DecidableEq τ] in
@[simp] theorem AlertDb.returned_write (db : AlertDb τ) (t : τ) (row : Option (ℕ × Alert)) :
    (db.write t row).returned = db.returned := by
  cases row <;> rfl

theorem TableSound.outcome (sound : TableSound c db.alerts db.count)
    (around : Surroundings) (admitted : (callProtocol c).admits phase command) (orderly : Orderly c t db p command) :
    (callProtocol c).answers command (command.outcome (db.view t) db.redis db.clock around).answer ∧
      TableSound c (db.write t (command.outcome (db.view t) db.redis db.clock around).write).alerts
        (db.write t (command.outcome (db.view t) db.redis db.clock around).write).count := by
  cases command with
  | selectAlert id =>
    refine ⟨fun a found => ?_, sound⟩
    exact sound.carries id a (.of_read found)
  | insertAlert a =>
    refine ⟨trivial, ?_⟩
    have inserted := sound.insert (t := t) admitted.2 fun id b version opened => ?_
    · have counted : max db.count (db.count + 1) = db.count + 1 := by omega
      simpa only [outcome, AlertDb.write, AlertDb.view, counted] using inserted
    · by_cases inside : id < db.count
      · exact (orderly id inside).version version opened
      · rw [sound.absent id (not_lt.mp inside)] at version
        exact not_version_unheld b version
  | updateAlert id changes =>
    refine ⟨trivial, ?_⟩
    cases seen : (db.alerts id).read t with
    | none =>
      have nothing : (outcome (db.view t) db.redis db.clock around (.updateAlert id changes)).write = none := by
        simp [outcome, view, seen]
      rw [nothing]
      exact sound
    | some a =>
      have row : (outcome (db.view t) db.redis db.clock around (.updateAlert id changes)).write =
          some (id, a.set changes) := by
        simp [outcome, view, seen]
      have inside : id < db.count := by
        by_contra beyond
        rw [sound.absent id (not_lt.mp beyond)] at seen
        cases seen
      rw [row]
      have counted : max db.count (id + 1) = db.count := by omega
      simpa only [AlertDb.write, counted] using sound.update seen (orderly.1 a seen) changes
  | _ => exact ⟨trivial, sound⟩

theorem AlertProc.noted_same (clock : ℕ) (written : Bool) (command : Command) (p : AlertProc) :
    (p.noted clock written command).known = p.known ∧ (p.noted clock written command).startedAt = p.startedAt ∧
      (p.noted clock written command).call = p.call := by
  cases written with
  | false => exact ⟨rfl, rfl, rfl⟩
  | true =>
    cases command with
    | updateAlert id changes =>
      simp only [noted, if_true, note]
      split <;> exact ⟨rfl, rfl, rfl⟩
    | _ => exact ⟨rfl, rfl, rfl⟩

theorem CallSound.issued (call : CallSound c db p)
    (cooled : ∀ r ∈ db.returned, db.redis.lasts (r + c * 60000)) (around : Surroundings)
    (admitted : (callProtocol c).admits phase command) (orderly : Orderly c t db p command)
    (passed : phase.check = .passed → p.Late c)
    (covered : p.call.Ends phase → ∀ r ∈ p.resolvedAt, db.redis.lasts (r + c * 60000)) :
    let outcome := command.outcome (db.view t) db.redis db.clock around
    let next := (callProtocol c).next phase command outcome.answer
    let noted := p.noted db.clock outcome.write.isSome command
    (next.check = .passed → p.Late c) ∧ (noted.created = true → p.Late c) ∧ (∀ r ∈ noted.resolvedAt, r ≤ db.clock) ∧
      (p.call.Ends next → ∀ r ∈ noted.resolvedAt, outcome.redis.lasts (r + c * 60000)) := by
  cases command with
  | existsCooldown =>
    refine ⟨fun check r known => ?_, call.late, call.past, covered⟩
    have free : db.redis.cooling db.clock = false := by
      cases cooling : db.redis.cooling db.clock with
      | false => rfl
      | true => simp [callProtocol, outcome, cooling] at check
    obtain ⟨expires, there, long⟩ := cooled r (call.known r known)
    have expired : expires ≤ db.clock := by
      by_contra running
      rw [Redis.cooling, mem_def.mp there, any_some, decide_eq_false_iff_not] at free
      omega
    by_contra early
    have := orderly r known (by omega)
    omega
  | setexCooldown seconds =>
    refine ⟨passed, call.late, call.past, fun _ r member => ⟨_, rfl, ?_⟩⟩
    have long : c * 60 ≤ seconds := admitted
    have := call.past r member
    omega
  | insertAlert a => exact ⟨passed, fun _ => passed admitted.1, call.past, covered⟩
  | updateAlert id changes =>
    cases seen : (db.alerts id).read t with
    | none =>
      have ends : p.call.Ends ((callProtocol c).next phase (.updateAlert id changes) false) → p.call.Ends phase := by
        simp [callProtocol, Call.Ends]
      simp only [outcome, view, seen, map_none, isSome_none, AlertProc.noted, Bool.false_eq_true, if_false]
      exact ⟨passed, call.late, call.past, fun done => covered (ends done)⟩
    | some a =>
      simp only [outcome, view, seen, map_some, isSome_some, AlertProc.noted, if_true]
      by_cases resolves : changes.status = .resolved
      · have ends : p.call.Ends ((callProtocol c).next phase (.updateAlert id changes) true) →
            p.call.isBulk = true := by
          simp [callProtocol, Call.Ends, resolves]
        rw [AlertProc.note, if_pos resolves]
        refine ⟨passed, call.late, fun r member => ?_, fun done r member => ?_⟩
        · rcases mem_cons.mp member with rfl | old
          · exact le_rfl
          · exact call.past r old
        · rcases mem_cons.mp member with rfl | old
          · exact orderly.2 (ends done) resolves
          · exact covered (.inl (ends done)) r old
      · have ends : p.call.Ends ((callProtocol c).next phase (.updateAlert id changes) true) → p.call.Ends phase := by
          simp [callProtocol, Call.Ends, resolves]
        rw [AlertProc.note, if_neg resolves]
        exact ⟨passed, call.late, call.past, fun done => covered (ends done)⟩
  | _ => exact ⟨passed, call.late, call.past, covered⟩

theorem AlertWorld.Sound.update {q : AlertProc} (table : TableSound c after.alerts after.count)
    (past : ∀ r ∈ after.returned, r ≤ after.clock) (cooled : ∀ r ∈ after.returned, after.redis.lasts (r + c * 60000))
    (others : ∀ u, CallSound c after (w.proc u)) (own : CallSound c after q) :
    AlertWorld.Sound c ⟨after, Function.update w.proc t q⟩ where
  table := table
  past := past
  cooled := cooled
  calls u := by
    dsimp only
    by_cases same : u = t
    · rw [same, Function.update_self]
      exact own
    · rw [Function.update_of_ne same]
      exact others u

theorem AlertWorld.Sound.issueStep {rest : command.Answer → AlertProgram Unit} {q : AlertProc}
    (sound : w.Sound c) (running : (w.proc t).program = some (.call command rest))
    (orderly : Orderly c t w.db (w.proc t) command) {around : Surroundings}
    (stepped : issueStep t around w.db (w.proc t) command rest = some (after, q)) :
    AlertWorld.Sound c ⟨after, Function.update w.proc t q⟩ := by
  obtain ⟨phase, obeys, passed, covered⟩ := (sound.calls t).runs _ running
  unfold Alerts.issueStep at stepped
  dsimp only at stepped
  split at stepped
  · cases stepped
    obtain ⟨possible, table⟩ := sound.table.outcome around obeys.1 orderly
    obtain ⟨check, late, past, settled⟩ := (sound.calls t).issued sound.cooled around obeys.1 orderly passed covered
    set outcome := command.outcome (w.db.view t) w.db.redis w.db.clock around
    obtain ⟨known, started, called⟩ := (w.proc t).noted_same w.db.clock outcome.write.isSome command
    have lasts : ∀ r ≤ w.db.clock, w.db.redis.lasts (r + c * 60000) → outcome.redis.lasts (r + c * 60000) :=
      fun r order => lasts_outcome obeys.1 order
    have before : ∀ u, CallSound c ((w.db.write t outcome.write).withRedis outcome.redis) (w.proc u) := fun u =>
      (sound.calls u).later (by simp [withRedis]) (by simp [withRedis]) lasts
    refine .update table ?_ ?_ before ?_
    · simpa [withRedis] using sound.past
    · simp only [withRedis, returned_write]
      exact fun r member => lasts r (sound.past r member) (sound.cooled r member)
    · refine ⟨fun r member => ?_, fun r member => ?_, fun created => ?_, fun next running => ?_⟩
      · exact (before t).known r (known ▸ member)
      · simpa [withRedis] using past r member
      · have ended := late created
        rw [AlertProc.Late, ← known, ← started] at ended
        exact ended
      · cases running
        simp only [AlertProc.running, called]
        refine ⟨_, obeys.2 _ possible, fun passes => ?_, settled⟩
        have ended := check passes
        rw [AlertProc.Late, ← known, ← started] at ended
        exact ended
  · cases stepped

theorem AlertWorld.Sound.step {rule : Rule} {e : τ × AlertAction} (sound : w.Sound rule.cooldownMinutes)
    (inTurn : w.InTurn rule e) (stepped : AlertWorld.step rule w e = some next) : next.Sound rule.cooldownMinutes := by
  obtain ⟨after, q, acted, rfl⟩ := World.step_eq_some stepped
  obtain ⟨t, action⟩ := e
  have same : ∀ u, CallSound rule.cooldownMinutes w.db (w.proc u) := sound.calls
  cases action with
  | wait elapsed =>
    cases acted
    have later : ∀ u, CallSound rule.cooldownMinutes { w.db with clock := w.db.clock + elapsed } (w.proc u) :=
      fun u => (sound.calls u).later (fun _ => id) (Nat.le_add_right ..) fun _ _ => id
    exact .update sound.table (fun r member => (sound.past r member).trans (Nat.le_add_right ..)) sound.cooled later
      (later t)
  | start call =>
    simp only [act] at acted
    split at acted
    · cases acted
    · cases acted
      refine .update sound.table sound.past sound.cooled same ⟨fun _ => id, by simp, by simp, fun rest running => ?_⟩
      cases running
      exact ⟨_, call.program_obeys rule, by simp, by simp⟩
  | step around =>
    simp only [act] at acted
    split at acted
    · rename_i command rest running
      simp only [AlertWorld.InTurn, running] at inTurn
      exact sound.issueStep running inTurn acted
    · cases acted
  | finish =>
    simp only [act] at acted
    split at acted
    · rename_i running
      cases acted
      obtain ⟨phase, ends, -, covered⟩ := (sound.calls t).runs _ running
      have later : ∀ u, CallSound rule.cooldownMinutes
          { w.db with returned := (w.proc t).resolvedAt ++ w.db.returned } (w.proc u) := fun u =>
        (sound.calls u).later (fun r member => mem_append_right _ member) le_rfl fun _ _ => id
      refine .update sound.table (fun r member => ?_) (fun r member => ?_) later ?_
      · exact (mem_append.mp member).elim ((sound.calls t).past r) (sound.past r)
      · exact (mem_append.mp member).elim (covered ends r) (sound.cooled r)
      · exact ⟨(later t).known, (later t).past, (later t).late, by simp⟩
    · cases acted
  | commit =>
    simp only [act] at acted
    split at acted
    · cases acted
    · cases acted
      have later : ∀ u, CallSound rule.cooldownMinutes
          { w.db with alerts := fun id => (w.db.alerts id).commit t } (w.proc u) := fun u =>
        (sound.calls u).later (fun _ => id) le_rfl fun _ _ => id
      exact .update sound.table.commit sound.past sound.cooled later (later t)
  | rollback =>
    cases acted
    have later : ∀ u, CallSound rule.cooldownMinutes
        { w.db with alerts := fun id => (w.db.alerts id).rollback t } (w.proc u) := fun u =>
      (sound.calls u).later (fun _ => id) le_rfl fun _ _ => id
    exact .update sound.table.rollback sound.past sound.cooled later
      ⟨(later t).known, (later t).past, (later t).late, by simp⟩

omit [DecidableEq τ] in
theorem AlertWorld.sound_start (redis : Redis) (clock : ℕ) : (AlertWorld.start redis clock : AlertWorld τ).Sound c where
  table := {
    absent := fun _ _ => rfl
    one := fun _ _ a _ version => absurd version (not_version_unheld a)
    final := fun _ _ _ _ => rfl
    carries := fun _ a version => absurd version (not_version_unheld a) }
  past := by simp [start]
  cooled := by simp [start]
  calls _ := ⟨by simp [start], by simp [start], by simp [start], by simp [start]⟩

/-- At most one alert of the pair is active, acknowledged or suppressed. -/
def AlertWorld.OneOpen (w : AlertWorld τ) : Prop :=
  ∀ i j a b, (w.db.alerts i).committed = some a → a.IsOpen → (w.db.alerts j).committed = some b → b.IsOpen → i = j

def AlertWorld.KeepsResolutions (w last : AlertWorld τ) : Prop :=
  ∀ id a, (w.db.alerts id).committed = some a → a.status = .resolved →
    ∃ b, (last.db.alerts id).committed = some b ∧ b.status = .resolved ∧ b.resolvedAt = a.resolvedAt ∧
      b.resolvedBy = a.resolvedBy ∧ b.resolutionNote = a.resolutionNote

/-- A call that has created an alert started when the time after every resolution was over whose call had returned. -/
def AlertWorld.CreatesLate (cooldownMinutes : ℕ) (w : AlertWorld τ) : Prop :=
  ∀ t, (w.proc t).created = true → ∀ r ∈ (w.proc t).known, r + cooldownMinutes * 60000 ≤ (w.proc t).startedAt

theorem TableSound.resolved_outcome {id : ℕ} {a : Alert} (sound : TableSound c db.alerts db.count)
    (closed : ¬a.IsOpen) (resolved : db.alerts id = .unheld (some a)) (orderly : Orderly c t db p command)
    (around : Surroundings) :
    (db.write t (command.outcome (db.view t) db.redis db.clock around).write).alerts id = .unheld (some a) := by
  cases command with
  | insertAlert b =>
    have other : id ≠ db.count := by
      rintro rfl
      rw [sound.absent db.count le_rfl] at resolved
      cases resolved
    exact (Table.write_of_ne other).trans resolved
  | updateAlert i changes =>
    cases seen : (db.alerts i).read t with
    | none => simpa [Command.outcome, AlertDb.view, seen, AlertDb.write] using resolved
    | some b =>
      have other : id ≠ i := by
        rintro rfl
        rw [resolved, read_unheld] at seen
        exact closed (orderly.1 a (by rw [resolved]; rfl))
      simpa [Command.outcome, AlertDb.view, seen, AlertDb.write, Table.write_of_ne other] using resolved
  | _ => exact resolved

theorem AlertWorld.resolved_step {rule : Rule} {e : τ × AlertAction} {id : ℕ} {a : Alert}
    (sound : w.Sound rule.cooldownMinutes) (closed : ¬a.IsOpen)
    (resolved : w.db.alerts id = .unheld (some a)) (inTurn : w.InTurn rule e)
    (stepped : AlertWorld.step rule w e = some next) : next.db.alerts id = .unheld (some a) := by
  obtain ⟨after, q, acted, rfl⟩ := World.step_eq_some stepped
  obtain ⟨t, action⟩ := e
  cases action with
  | wait elapsed =>
    obtain ⟨rfl, -⟩ := Prod.mk.inj (some.inj acted)
    exact resolved
  | start call =>
    simp only [act] at acted
    split at acted
    · cases acted
    · obtain ⟨rfl, -⟩ := Prod.mk.inj (some.inj acted)
      exact resolved
  | step around =>
    simp only [act] at acted
    split at acted
    · rename_i command rest running
      simp only [AlertWorld.InTurn, running] at inTurn
      unfold Alerts.issueStep at acted
      dsimp only at acted
      split at acted
      · obtain ⟨rfl, -⟩ := Prod.mk.inj (some.inj acted)
        exact sound.table.resolved_outcome closed resolved inTurn around
      · cases acted
    · cases acted
  | finish =>
    simp only [act] at acted
    split at acted
    · obtain ⟨rfl, -⟩ := Prod.mk.inj (some.inj acted)
      exact resolved
    · cases acted
  | commit =>
    simp only [act] at acted
    split at acted
    · cases acted
    · obtain ⟨rfl, -⟩ := Prod.mk.inj (some.inj acted)
      exact (congrArg (commit t) resolved).trans (commit_unheld t _)
  | rollback =>
    obtain ⟨rfl, -⟩ := Prod.mk.inj (some.inj acted)
    exact (congrArg (rollback t) resolved).trans (rollback_unheld t _)

/-- In every interleaving of calls whose statements take their turn, at most one alert is open, resolutions are final,
and no call creates an alert that started before the time after a resolution was over. -/
theorem one_open_alert (rule : Rule) (redis : Redis) (clock : ℕ) {pre post : List (τ × AlertAction)}
    {mid last : AlertWorld τ}
    (inTurn : Meets (AlertWorld.step rule) (AlertWorld.InTurn rule) (.start redis clock) (pre ++ post))
    (reach : run (AlertWorld.step rule) (.start redis clock) pre = some mid)
    (later : run (AlertWorld.step rule) mid post = some last) :
    last.OneOpen ∧ mid.KeepsResolutions last ∧ last.CreatesLate rule.cooldownMinutes := by
  have keep : ∀ (w : AlertWorld τ) e next, w.Sound rule.cooldownMinutes → w.InTurn rule e →
      AlertWorld.step rule w e = some next → next.Sound rule.cooldownMinutes :=
    fun w e next sound turn stepped => sound.step turn stepped
  have middle := run_invariant keep (AlertWorld.sound_start redis clock) inTurn.take reach
  have sound := run_invariant keep middle (inTurn.drop reach) later
  refine ⟨fun i j a b first opened second also => ?_, fun id a committed resolved => ?_, fun t created => ?_⟩
  · exact sound.table.one i j a b (.inl first) opened (.inl second) also
  · have closed : ¬a.IsOpen := by simp [Alert.isOpen_iff, resolved]
    have unheld : mid.db.alerts id = .unheld (some a) := Row.ext committed (middle.table.final id a committed closed)
    have stays : ∀ (w : AlertWorld τ) e next,
        (w.Sound rule.cooldownMinutes ∧ w.db.alerts id = .unheld (some a)) → w.InTurn rule e →
        AlertWorld.step rule w e = some next → next.Sound rule.cooldownMinutes ∧ next.db.alerts id = .unheld (some a) :=
      fun w e next both turn stepped =>
        ⟨both.1.step turn stepped, AlertWorld.resolved_step both.1 closed both.2 turn stepped⟩
    have still := run_invariant stays ⟨middle, unheld⟩ (inTurn.drop reach) later
    exact ⟨a, congrArg Row.committed still.2, resolved, rfl, rfl, rfl⟩
  · exact (sound.calls t).late created

end Turns

def minuteRule : Rule := .standalone ⟨⟨none, none, none⟩, ⟨1, true, false⟩⟩

def quietWorld : AlertWorld ℕ := .start ⟨none, none, [], none⟩ 0

def conditionsMet : Surroundings := ⟨true, none, false⟩

def steps (t n : ℕ) : List (ℕ × AlertAction) := List.replicate n (t, .step conditionsMet)

def wholeCall (t : ℕ) (call : Call) (n : ℕ) : List (ℕ × AlertAction) :=
  (t, .start call) :: steps t n ++ [(t, .finish), (t, .commit)]

def raised : List (ℕ × AlertAction) := wholeCall 0 .evaluateDeviceAlerts 14

def raisedAndResolved : List (ℕ × AlertAction) := raised ++ wholeCall 1 (.resolve 7 0 none) 8

/-- After a resolution another evaluation meets the cooldown. -/
theorem resolved_stays_quiet : ∃ mid last : AlertWorld ℕ,
    run (AlertWorld.step minuteRule) quietWorld raisedAndResolved = some mid ∧
      run (AlertWorld.step minuteRule) mid ((0, .wait 30000) :: wholeCall 2 .evaluateDeviceAlerts 2) = some last ∧
      last.OneOpen ∧ mid.KeepsResolutions last ∧ last.CreatesLate 1 := by
  have meets : Meets (AlertWorld.step minuteRule) (AlertWorld.InTurn minuteRule) quietWorld
      (raisedAndResolved ++ (0, .wait 30000) :: wholeCall 2 .evaluateDeviceAlerts 2) := by decide +kernel
  have runs : ((run (AlertWorld.step minuteRule) quietWorld raisedAndResolved).bind fun mid =>
      run (AlertWorld.step minuteRule) mid ((0, .wait 30000) :: wholeCall 2 .evaluateDeviceAlerts 2)).isSome := by
    decide +kernel
  obtain ⟨last, reach⟩ := isSome_iff_exists.mp runs
  obtain ⟨mid, first, rest⟩ := bind_eq_some_iff.mp reach
  exact ⟨mid, last, first, rest, one_open_alert minuteRule _ _ meets first rest⟩

/-- Two evaluations pass the deduplication before either inserts its alert. -/
def twoEvaluations : List (ℕ × AlertAction) :=
  [(0, .start .evaluateDeviceAlerts)] ++ steps 0 3 ++ [(1, .start .evaluateDeviceAlerts)] ++ steps 1 3 ++ steps 0 11 ++
    [(0, .finish), (0, .commit)] ++ steps 1 12 ++ [(1, .finish), (1, .commit)]

/-- An acknowledgement has read the active alert; a resolution comes first. -/
def lateAcknowledgement : List (ℕ × AlertAction) :=
  raised ++ [(2, .start (.acknowledge 8 0))] ++ steps 2 1 ++ wholeCall 1 (.resolve 7 0 none) 8

/-- An alert is resolved in bulk after its cooldown has run out. -/
def bulkResolved : List (ℕ × AlertAction) :=
  raised ++ [(0, .wait 120000)] ++ wholeCall 1 (.bulk .resolve 7 [0]) 3 ++ [(0, .wait 1000)] ++
    wholeCall 2 .evaluateDeviceAlerts 15

def AlertWorld.statusOf (w : AlertWorld ℕ) (id : ℕ) : Option AlertStatus := (w.db.alerts id).committed.map Alert.status

theorem AlertWorld.of_statusOf {w : AlertWorld ℕ} {id : ℕ} {status : AlertStatus} (seen : w.statusOf id = some status) :
    ∃ a, (w.db.alerts id).committed = some a ∧ a.status = status := map_eq_some_iff.mp seen

theorem ends_of_any (w : AlertWorld ℕ) (es : List (ℕ × AlertAction)) (seen : AlertWorld ℕ → Bool)
    (ends : (run (AlertWorld.step minuteRule) w es).any seen = true) :
    ∃ last, run (AlertWorld.step minuteRule) w es = some last ∧ seen last = true :=
  (Option.any_eq_true ..).mp ends

def twoActive (w : AlertWorld ℕ) : Bool := decide (w.statusOf 0 = some .active ∧ w.statusOf 1 = some .active)

def lateUpdate : List (ℕ × AlertAction) := steps 2 2 ++ [(2, .finish), (2, .commit)]

def acknowledged (w : AlertWorld ℕ) : Bool := decide (w.statusOf 0 = some .acknowledged)

def reopened (w : AlertWorld ℕ) : Bool :=
  decide (w.statusOf 0 = some .resolved) && (run (AlertWorld.step minuteRule) w lateUpdate).any acknowledged

def createdSoonAfter (w : AlertWorld ℕ) : Bool :=
  decide ((w.proc 2).created = true ∧ (w.proc 2).known = [120000] ∧ (w.proc 2).startedAt = 121000)

/-- Two evaluations leave two open alerts, a late acknowledgement reopens a resolved one, and an evaluation creates one
a second after a resolution in bulk. -/
theorem two_open_alerts :
    (∃ last, run (AlertWorld.step minuteRule) quietWorld twoEvaluations = some last ∧ ¬last.OneOpen) ∧
    (∃ mid last, run (AlertWorld.step minuteRule) quietWorld lateAcknowledgement = some mid ∧
      run (AlertWorld.step minuteRule) mid lateUpdate = some last ∧
      ¬mid.KeepsResolutions last) ∧
    ∃ last, run (AlertWorld.step minuteRule) quietWorld bulkResolved = some last ∧ ¬last.CreatesLate 1 := by
  refine ⟨?_, ?_, ?_⟩
  · obtain ⟨last, reach, seen⟩ := ends_of_any quietWorld twoEvaluations twoActive (by decide +kernel)
    obtain ⟨first, second⟩ := of_decide_eq_true seen
    obtain ⟨a, there, active⟩ := AlertWorld.of_statusOf first
    obtain ⟨b, too, also⟩ := AlertWorld.of_statusOf second
    refine ⟨last, reach, fun one => ?_⟩
    have same := one 0 1 a b there (by simp [Alert.isOpen_iff, active]) too (by simp [Alert.isOpen_iff, also])
    cases same
  · obtain ⟨mid, reach, seen⟩ := ends_of_any quietWorld lateAcknowledgement reopened (by decide +kernel)
    obtain ⟨first, rest⟩ := Bool.and_eq_true_iff.mp seen
    obtain ⟨last, later, second⟩ := ends_of_any mid lateUpdate acknowledged rest
    obtain ⟨a, there, resolved⟩ := AlertWorld.of_statusOf (of_decide_eq_true first)
    obtain ⟨b, after, overwritten⟩ := AlertWorld.of_statusOf (of_decide_eq_true second)
    refine ⟨mid, last, reach, later, fun keeps => ?_⟩
    obtain ⟨b, still, kept, -⟩ := keeps 0 a there resolved
    cases after.symm.trans still
    rw [kept] at overwritten
    cases overwritten
  · obtain ⟨last, reach, seen⟩ := ends_of_any quietWorld bulkResolved createdSoonAfter (by decide +kernel)
    obtain ⟨created, known, started⟩ := of_decide_eq_true seen
    refine ⟨last, reach, fun late => ?_⟩
    have ended := late 2 created 120000 (by simp [known])
    omega

end RemudaRmm.Alerts
