import RemudaRmm.Alerts.AlertService
import RemudaRmm.Foundation.Runs

/-! Calls about one rule on one device, one after another, and what is left of a suppression when the chosen time has
passed (`routes/alerts/alerts.ts`, `services/alertService.ts`). -/
namespace RemudaRmm.Alerts
open Foundation List Function Option
open Program (exec_call exec_discard exec_pure perform_bind)
open Foundation.Program (exec exec_bind)

@[ext] structure Store where
  alert : ℕ → Option Alert
  count : ℕ
  redis : Redis
  clock : ℕ

namespace Store

def view (s : Store) : View := ⟨s.alert, s.count⟩

def empty (redis : Redis) (clock : ℕ) : Store := ⟨fun _ => none, 0, redis, clock⟩

def write (s : Store) : Option (ℕ × Alert) → Store
  | none => s
  | some (id, a) => ⟨update s.alert id (some a), max s.count (id + 1), s.redis, s.clock⟩

def withRedis (s : Store) (redis : Redis) : Store := ⟨s.alert, s.count, redis, s.clock⟩

def perform (around : Surroundings) (c : Command) (s : Store) : c.Answer × Store :=
  ((c.outcome s.view s.redis s.clock around).answer,
    (s.write (c.outcome s.view s.redis s.clock around).write).withRedis
      (c.outcome s.view s.redis s.clock around).redis)

end Store

/-- A call with what it finds outside, or time that passes between calls. -/
inductive Event where
  | call (call : Call) (around : Surroundings)
  | wait (elapsed : ℕ)

def Store.step (rule : Rule) (s : Store) : Event → Store
  | .call call around => (exec (Store.perform around) (call.program rule) s).2
  | .wait elapsed => ⟨s.alert, s.count, s.redis, s.clock + elapsed⟩

def Redis.flapping (now : ℕ) (redis : Redis) : Bool :=
  decide (4 ≤ ((redis.transitionsAt now).filter fun entry => decide (now - 10 * 60 * 1000 ≤ entry.timestamp)).length)

section Effects
variable {around : Surroundings} {s : Store}

namespace Store

@[simp] theorem withRedis_withRedis (s : Store) (first second : Redis) :
    (s.withRedis first).withRedis second = s.withRedis second := rfl

@[simp] theorem count_withRedis (s : Store) (redis : Redis) : (s.withRedis redis).count = s.count := rfl

@[simp] theorem clock_withRedis (s : Store) (redis : Redis) : (s.withRedis redis).clock = s.clock := rfl

@[simp] theorem clock_write (s : Store) (row : Option (ℕ × Alert)) : (s.write row).clock = s.clock := by
  cases row <;> rfl

@[simp] theorem perform_selectAlert (id : ℕ) : s.perform around (.selectAlert id) = (s.alert id, s) := (rfl)

@[simp] theorem perform_selectAlerts (ids : List ℕ) : s.perform around (.selectAlerts ids) =
    (s.view.rows.filter fun row => decide (row.1 ∈ ids), s) := (rfl)

@[simp] theorem perform_selectOpenAlert : s.perform around .selectOpenAlert =
    ((s.view.rows.find? fun row => decide row.2.IsOpen).map (·.2), s) := (rfl)

@[simp] theorem perform_selectActiveAlerts : s.perform around .selectActiveAlerts = (s.view.activeAlerts, s) := (rfl)

@[simp] theorem perform_now : s.perform around .now = (s.clock, s) := (rfl)

@[simp] theorem perform_evaluateConditions : s.perform around .evaluateConditions = (around.triggered, s) := (rfl)

@[simp] theorem perform_maintenanceWindow : s.perform around .maintenanceWindow = (around.suppressAlerts, s) := (rfl)

@[simp] theorem perform_existsCooldown : s.perform around .existsCooldown = (s.redis.cooling s.clock, s) := (rfl)

@[simp] theorem perform_insertAlert (a : Alert) :
    s.perform around (.insertAlert a) = (s.count, s.write (some (s.count, a))) := (rfl)

@[simp] theorem perform_updateAlert (id : ℕ) (changes : AlertChanges) : s.perform around (.updateAlert id changes) =
    ((s.alert id).isSome, s.write ((s.alert id).map fun a => (id, a.set changes))) := by
  cases found : s.alert id <;> simp [perform, Command.outcome, view, found, write, withRedis]

end Store

theorem exec_isFlapping : exec (Store.perform around) isFlapping s = (s.redis.flapping s.clock, s) := by
  change exec (Store.perform around) (if (s.redis.transitionsAt s.clock).length < 4 then pure false else _) s = _
  split
  · rename_i few
    have short := (length_filter_le (fun entry => decide (s.clock - 10 * 60 * 1000 ≤ entry.timestamp))
      (s.redis.transitionsAt s.clock)).trans_lt few
    rw [exec_pure, Redis.flapping, decide_eq_false (by omega)]
  · rfl

/-- The calls of `alertCooldown.ts` write no alert. -/
def Steady (p : AlertProgram Unit) : Prop :=
  ∀ around s, ∃ redis, (exec (Store.perform around) p s).2 = s.withRedis redis

theorem steady_setCooldown (cooldownMinutes : ℕ) : Steady (setCooldown cooldownMinutes) := by
  intro around s
  unfold setCooldown issue
  cases existing : s.redis.adaptiveAt s.clock with
  | none => exact ⟨_, by simp [existing, Store.perform, Command.outcome, adaptiveMultiplier]; rfl⟩
  | some parsed => exact ⟨_, by simp [existing, Store.perform, Command.outcome, adaptiveMultiplier, issue]; rfl⟩

theorem steady_markConfigPolicyRuleCooldown (cooldownMinutes : ℕ) :
    Steady (markConfigPolicyRuleCooldown cooldownMinutes) :=
  fun _ _ => ⟨_, rfl⟩

theorem steady_recordStateTransition (state : AlertState) : Steady (recordStateTransition state) :=
  fun _ _ => ⟨_, rfl⟩

@[simp] theorem Store.write_withRedis (s : Store) (redis : Redis) (row : Option (ℕ × Alert)) :
    (s.withRedis redis).write row = (s.write row).withRedis redis := by
  cases row <;> rfl

def Store.openAlert (s : Store) : Option Alert := (s.view.rows.find? fun row => decide row.2.IsOpen).map (·.2)

def Store.raise (s : Store) (cooldownMinutes : ℕ) : Store :=
  s.write (some (s.count, .triggered cooldownMinutes s.clock))

theorem exec_raise {cool : AlertProgram Unit} (steady : Steady cool) (cooldownMinutes : ℕ) (around : Surroundings)
    (s : Store) :
    ∃ redis, (exec (Store.perform around) (recordStateTransition .triggered >>= fun _ => .call .now fun triggeredAt =>
      .call (.insertAlert (.triggered cooldownMinutes triggeredAt)) fun newAlert => do
        cool
        return some newAlert) s).2 = (s.raise cooldownMinutes).withRedis redis := by
  obtain ⟨recorded, left⟩ := steady_recordStateTransition .triggered around s
  obtain ⟨cooled, last⟩ := steady around ((s.raise cooldownMinutes).withRedis recorded)
  refine ⟨cooled, ?_⟩
  rw [exec_bind, left]
  simp only [exec_call, Store.perform_now, Store.perform_insertAlert, exec_bind, Store.clock_withRedis,
    Store.count_withRedis, Store.write_withRedis, exec_pure]
  rw [← Store.raise, last, Store.withRedis_withRedis]

def Call.evaluates : Rule → Call → Bool
  | .standalone _, evaluateDeviceAlerts => true
  | .configPolicy _, evaluateDeviceAlertsFromPolicy => true
  | _, _ => false

/-- The trigger conditions are met, and no cooldown, flapping or maintenance window keeps the alert back. -/
structure Due (around : Surroundings) (s : Store) : Prop where
  triggered : around.triggered = true
  calm : s.redis.cooling s.clock = false
  steady : s.redis.flapping s.clock = false
  maintained : around.suppressAlerts = false

/-- An evaluation leaves the alerts as they are, or it raises one while none is open; when the rule is due, only an
open alert keeps it from that. -/
inductive Evaluated (cooldownMinutes : ℕ) (around : Surroundings) (s : Store) : Store → Prop where
  | kept (redis : Redis) (because : Due around s → s.openAlert.isSome) :
      Evaluated cooldownMinutes around s (s.withRedis redis)
  | raised (redis : Redis) (closed : s.openAlert = none) :
      Evaluated cooldownMinutes around s ((s.raise cooldownMinutes).withRedis redis)

theorem Evaluated.same {cooldownMinutes : ℕ} (because : ¬Due around s) : Evaluated cooldownMinutes around s s :=
  .kept s.redis fun due => absurd due because

theorem evaluated_createAlert (cooldownMinutes : ℕ) :
    Evaluated cooldownMinutes around s (exec (Store.perform around) (createAlert cooldownMinutes) s).2 := by
  unfold createAlert isCooldownActive
  simp only [issue, perform_bind, exec_call, Store.perform_existsCooldown]
  split
  · rename_i cooling
    exact .same fun due => by simp [due.calm] at cooling
  · simp only [exec_call, Store.perform_selectOpenAlert]
    split
    · rename_i found
      exact .kept s.redis fun _ => found
    · rename_i closed
      rw [exec_bind, exec_isFlapping]
      split
      · rename_i flapping
        obtain ⟨cooled, left⟩ := steady_setCooldown cooldownMinutes around s
        rw [exec_bind, left]
        exact .kept cooled fun due => by simp [due.steady] at flapping
      · obtain ⟨redis, left⟩ := exec_raise (steady_setCooldown cooldownMinutes) cooldownMinutes around s
        rw [left]
        exact .raised redis (by simpa [Store.openAlert] using closed)

theorem evaluated_evaluateDeviceAlertsFromPolicy (rule : ConfigPolicyAlertRule) :
    Evaluated rule.cooldownMinutes around s
      (exec (Store.perform around) (evaluateDeviceAlertsFromPolicy (.configPolicy rule)) s).2 := by
  unfold evaluateDeviceAlertsFromPolicy isConfigPolicyRuleCooling
  simp only [issue, perform_bind, exec_call, Store.perform_maintenanceWindow]
  split
  · rename_i maintained
    exact .same fun due => by simp [due.maintained] at maintained
  · simp only [exec_call, Store.perform_existsCooldown]
    split
    · rename_i cooling
      exact .same fun due => by simp [due.calm] at cooling
    · simp only [exec_call, Store.perform_selectOpenAlert]
      split
      · rename_i found
        exact .kept s.redis fun _ => found
      · rename_i closed
        simp only [exec_call, Store.perform_evaluateConditions]
        split
        · rename_i cleared
          exact .same fun due => by simp [due.triggered] at cleared
        · rw [exec_bind, exec_isFlapping]
          split
          · rename_i flapping
            exact .kept _ fun due => by simp [due.steady] at flapping
          · obtain ⟨redis, left⟩ := exec_raise (steady_markConfigPolicyRuleCooldown rule.cooldownMinutes)
              rule.cooldownMinutes around s
            rw [left]
            exact .raised redis (by simpa [Store.openAlert] using closed)

theorem evaluated_of_evaluates {rule : Rule} {call : Call} (evaluates : call.evaluates rule = true) :
    Evaluated rule.cooldownMinutes around s (s.step rule (.call call around)) := by
  cases rule with
  | standalone rule =>
    cases call <;> simp only [Call.evaluates, Bool.false_eq_true] at evaluates
    rw [Store.step, Call.program, exec_discard, evaluateDeviceAlerts]
    simp only [issue, perform_bind, exec_call, Store.perform_evaluateConditions]
    split
    · exact evaluated_createAlert rule.cooldownMinutes
    · rename_i cleared
      exact .same fun due => cleared due.triggered
  | configPolicy rule =>
    cases call <;> simp only [Call.evaluates, Bool.false_eq_true] at evaluates
    rw [Store.step, Call.program, exec_discard]
    exact evaluated_evaluateDeviceAlertsFromPolicy rule

end Effects

/-- The alerts with some ids change in one way, and the others stay. -/
structure Swept (touched : ℕ → Prop) (change : Alert → Alert) (s after : Store) : Prop where
  inside : ∀ id, touched id → after.alert id = (s.alert id).map change
  outside : ∀ id, ¬touched id → after.alert id = s.alert id
  clock : after.clock = s.clock
  count : s.count ≤ after.count

section Sweeps
variable {around : Surroundings} {s after last : Store} {touched : ℕ → Prop} {change : Alert → Alert}
variable {id : ℕ} {a : Alert}

theorem Swept.same (redis : Redis) : Swept (fun _ => False) change s (s.withRedis redis) where
  inside _ touched := touched.elim
  outside _ _ := rfl
  clock := rfl
  count := le_rfl

theorem Swept.missing (missing : s.alert id = none) (redis : Redis) : Swept (· = id) change s (s.withRedis redis) where
  inside other same := by
    subst same
    exact missing.trans (by rw [missing, map_none])
  outside _ _ := rfl
  clock := rfl
  count := le_rfl

theorem Swept.keep (found : s.alert id = some a) (fixed : change a = a) (redis : Redis) :
    Swept (· = id) change s (s.withRedis redis) where
  inside other same := by
    subst same
    exact found.trans (by rw [found, map_some, fixed])
  outside _ _ := rfl
  clock := rfl
  count := le_rfl

theorem Swept.write {b : Alert} (found : s.alert id = some a) (changed : change a = b) (redis : Redis) :
    Swept (· = id) change s ((s.write (some (id, b))).withRedis redis) where
  inside other same := by
    subst same
    rw [found, map_some, changed]
    exact update_self ..
  outside other distinct := update_of_ne distinct ..
  clock := rfl
  count := le_max_left ..

theorem Swept.foldlM {β ι : Type} {body : β → ι → AlertProgram β} {key : ι → ℕ} {xs : List ι}
    (distinct : (xs.map key).Nodup)
    (round : ∀ x ∈ xs, ∀ b mid, mid.alert (key x) = s.alert (key x) → mid.clock = s.clock →
      Swept (· = key x) change mid (exec (Store.perform around) (body b x) mid).2) (b : β) :
    Swept (· ∈ xs.map key) change s (exec (Store.perform around) (xs.foldlM body b) s).2 := by
  induction xs generalizing s b with
  | nil => exact ⟨by simp, fun _ _ => rfl, rfl, le_rfl⟩
  | cons x xs ih =>
    obtain ⟨fresh, distinct⟩ := nodup_cons.mp distinct
    have first := round x mem_cons_self b s rfl rfl
    rw [foldlM_cons, exec_bind]
    set mid := (exec (Store.perform around) (body b x) s).2
    have kept : ∀ y ∈ xs, mid.alert (key y) = s.alert (key y) := fun y member =>
      first.outside _ fun same => fresh (same ▸ List.mem_map_of_mem member)
    have rest := ih (s := mid) distinct (fun y member b later same clock =>
      round y (mem_cons_of_mem x member) b later (same.trans (kept y member)) (clock.trans first.clock))
      (exec (Store.perform around) (body b x) s).1
    refine ⟨fun id touched => ?_, fun id spared => ?_, rest.clock.trans first.clock, first.count.trans rest.count⟩
    · rcases mem_cons.mp touched with here | later
      · rw [rest.outside id (here ▸ fresh), first.inside id here]
      · rw [rest.inside id later, first.outside id fun same => fresh (same ▸ later)]
    · obtain ⟨other, later⟩ := not_or.mp (mt mem_cons.mpr spared)
      rw [rest.outside id later, first.outside id other]

theorem exec_resolveAlert (rule : Rule) (around : Surroundings) (found : s.alert id = some a)
    (note : Option String) (resolvedBy : Option ℕ) : ∃ redis,
      (exec (Store.perform around) (resolveAlert rule id note resolvedBy) s).2 =
        (s.write (some (id, a.set (.resolution s.clock note resolvedBy)))).withRedis redis := by
  unfold resolveAlert
  simp only [issue, perform_bind, exec_call, Store.perform_selectAlert, found, isNone_some,
    Bool.false_eq_true, if_false, Store.perform_now, Store.perform_updateAlert, map_some]
  set written := s.write _
  obtain ⟨recorded, left⟩ := steady_recordStateTransition .resolved around written
  rw [exec_bind, left]
  cases rule with
  | standalone rule =>
    obtain ⟨cooled, last⟩ := steady_setCooldown rule.cooldownMinutes around (written.withRedis recorded)
    exact ⟨cooled, last⟩
  | configPolicy rule => exact ⟨_, rfl⟩

def Surroundings.resolution (around : Surroundings) (autoResolveConditions : Bool) : Option String :=
  if autoResolveConditions then around.shouldResolve.map ("Auto-resolved: " ++ ·)
  else if around.triggered then none else some "Auto-resolved: conditions cleared"

theorem exec_autoResolution (autoResolveConditions : Bool) :
    exec (Store.perform around) (autoResolution autoResolveConditions) s =
      (around.resolution autoResolveConditions, s) := by
  cases autoResolveConditions <;> rfl

def Alert.autoResolve (resolution : Option String) (now : ℕ) (a : Alert) : Alert :=
  if a.status = .active then
    match resolution with
    | some note => a.set (.resolution now (some note) none)
    | none => a
  else a

def Rule.resolution (rule : Rule) (around : Surroundings) : Option String :=
  if rule.autoResolve then around.resolution rule.autoResolveConditions else none

theorem Alert.autoResolve_none (now : ℕ) (a : Alert) : a.autoResolve none now = a := by
  unfold autoResolve
  split <;> rfl

theorem Alert.autoResolve_of_ne (passive : a.status ≠ .active) (resolution : Option String) (now : ℕ) :
    a.autoResolve resolution now = a := if_neg passive

theorem swept_checkAutoResolve (rule : StandaloneRule) (id : ℕ) :
    Swept (· = id) (Alert.autoResolve ((Rule.standalone rule).resolution around) s.clock) s
      (exec (Store.perform around) (checkAutoResolve (.standalone rule) id) s).2 := by
  unfold checkAutoResolve
  simp only [issue, perform_bind, exec_call, Store.perform_selectAlert]
  cases found : s.alert id with
  | none => exact .missing found s.redis
  | some a =>
    by_cases active : a.status = .active
    · simp only [any_some, active, decide_true, if_true]
      cases enabled : rule.autoResolve with
      | false =>
        have verdict : (Rule.standalone rule).resolution around = none := by
          simp [Rule.resolution, Rule.autoResolve, enabled]
        exact .keep found (by rw [verdict, Alert.autoResolve_none]) s.redis
      | true =>
        simp only [Bool.not_true, Bool.false_eq_true, if_false, exec_bind, exec_autoResolution]
        have verdict : (Rule.standalone rule).resolution around = around.resolution rule.autoResolveConditions := by
          simp [Rule.resolution, Rule.autoResolve, enabled, Rule.autoResolveConditions]
        rw [verdict]
        cases decided : around.resolution rule.autoResolveConditions with
        | none => exact .keep found (Alert.autoResolve_none s.clock a) s.redis
        | some note =>
          obtain ⟨redis, left⟩ := exec_resolveAlert (.standalone rule) around found (some note) none
          simp only [exec_bind, left, exec_pure]
          refine .write found ?_ redis
          exact if_pos active
    · simp only [any_some, active, decide_false, Bool.false_eq_true, if_false]
      exact .keep found (Alert.autoResolve_of_ne active _ _) s.redis

theorem swept_autoResolveFromConfigPolicy (rule : ConfigPolicyAlertRule) (found : s.alert id = some a)
    (active : a.status = .active) (resolvedCount : ℕ) :
    Swept (· = id) (Alert.autoResolve ((Rule.configPolicy rule).resolution around) s.clock) s
      (exec (Store.perform around) (autoResolveFromConfigPolicy rule resolvedCount id) s).2 := by
  unfold autoResolveFromConfigPolicy
  cases enabled : rule.autoResolve with
  | false =>
    have verdict : (Rule.configPolicy rule).resolution around = none := by
      simp [Rule.resolution, Rule.autoResolve, enabled]
    exact .keep found (by rw [verdict, Alert.autoResolve_none]) s.redis
  | true =>
    simp only [Bool.not_true, Bool.false_eq_true, if_false, exec_bind, exec_autoResolution]
    have verdict : (Rule.configPolicy rule).resolution around = around.resolution rule.autoResolveConditions := by
      simp [Rule.resolution, Rule.autoResolve, enabled, Rule.autoResolveConditions]
    rw [verdict]
    cases decided : around.resolution rule.autoResolveConditions with
    | none => exact .keep found (Alert.autoResolve_none s.clock a) s.redis
    | some note =>
      obtain ⟨redis, left⟩ := exec_resolveAlert (.configPolicy rule) around found (some note) none
      simp only [exec_bind, left, exec_pure]
      obtain ⟨cooled, last⟩ := steady_markConfigPolicyRuleCooldown rule.cooldownMinutes around
        ((s.write (some (id, a.set (.resolution s.clock (some note) none)))).withRedis redis)
      rw [last, Store.withRedis_withRedis]
      refine .write found ?_ cooled
      exact if_pos active

theorem Swept.foldlM_ids {β : Type} {body : β → ℕ → AlertProgram β} {ids : List ℕ} (distinct : ids.Nodup)
    (round : ∀ id ∈ ids, ∀ b mid, mid.alert id = s.alert id → mid.clock = s.clock →
      Swept (· = id) change mid (exec (Store.perform around) (body b id) mid).2) (b : β) :
    Swept (· ∈ ids) change s (exec (Store.perform around) (ids.foldlM body b) s).2 := by
  have same : ids.map (fun id => id) = ids := List.map_id ids
  rw [← same] at distinct
  have swept : Swept (· ∈ ids.map fun id => id) change s (exec (Store.perform around) (ids.foldlM body b) s).2 :=
    .foldlM distinct round b
  rwa [same] at swept

theorem Swept.of_active (bounded : ∀ id, s.count ≤ id → s.alert id = none)
    (passive : ∀ a, a.status ≠ .active → change a = a) (swept : Swept (· ∈ s.view.activeAlerts) change s after) :
    Swept (fun _ => True) change s after where
  inside id _ := by
    by_cases listed : id ∈ s.view.activeAlerts
    · exact swept.inside id listed
    · rw [swept.outside id listed]
      cases found : s.alert id with
      | none => rfl
      | some a =>
        have inside : id < s.count := by
          by_contra beyond
          simp [bounded id (not_lt.mp beyond)] at found
        rw [map_some, passive a fun active => listed (View.mem_activeAlerts.mpr ⟨inside, a, found, active⟩)]
  outside id untouched := absurd trivial untouched
  clock := swept.clock
  count := swept.count

theorem swept_checkAllAutoResolve (rule : StandaloneRule) :
    Swept (· ∈ s.view.activeAlerts) (Alert.autoResolve ((Rule.standalone rule).resolution around) s.clock) s
      (exec (Store.perform around) (checkAllAutoResolve (.standalone rule)) s).2 := by
  unfold checkAllAutoResolve
  simp only [issue, perform_bind, exec_call, Store.perform_selectActiveAlerts]
  refine Swept.foldlM_ids s.view.nodup_activeAlerts (fun id _ resolvedCount mid _ clock => ?_) 0
  rw [exec_bind, ← clock]
  exact swept_checkAutoResolve rule id

theorem swept_checkAutoResolveFromConfigPolicy (rule : ConfigPolicyAlertRule) :
    Swept (· ∈ s.view.activeAlerts) (Alert.autoResolve ((Rule.configPolicy rule).resolution around) s.clock) s
      (exec (Store.perform around) (checkAutoResolveFromConfigPolicy (.configPolicy rule)) s).2 := by
  unfold checkAutoResolveFromConfigPolicy
  simp only [issue, perform_bind, exec_call, Store.perform_selectActiveAlerts]
  refine Swept.foldlM_ids s.view.nodup_activeAlerts (fun id listed resolvedCount mid same clock => ?_) 0
  obtain ⟨-, a, found, active⟩ := View.mem_activeAlerts.mp listed
  rw [← clock]
  exact swept_autoResolveFromConfigPolicy rule (same.trans found) active resolvedCount

theorem exec_checkAutoResolve_configPolicy (rule : ConfigPolicyAlertRule) (id : ℕ) :
    (exec (Store.perform around) (checkAutoResolve (.configPolicy rule) id) s).2 = s := by
  unfold checkAutoResolve
  simp only [issue, perform_bind, exec_call, Store.perform_selectAlert]
  split <;> rfl

theorem exec_checkAllAutoResolve_configPolicy (rule : ConfigPolicyAlertRule) :
    (exec (Store.perform around) (checkAllAutoResolve (.configPolicy rule)) s).2 = s := by
  unfold checkAllAutoResolve
  simp only [issue, perform_bind, exec_call, Store.perform_selectActiveAlerts]
  refine Program.exec_foldlM_of_idle (fun resolvedCount id => ?_) _ _
  rw [exec_bind, exec_checkAutoResolve_configPolicy]
  rfl

theorem swept_processAutoResolve (rule : Rule) (bounded : ∀ id, s.count ≤ id → s.alert id = none) :
    Swept (fun _ => True) (Alert.autoResolve (rule.resolution around) s.clock) s
      (exec (Store.perform around) (processAutoResolve rule) s).2 := by
  refine .of_active bounded (fun a passive => Alert.autoResolve_of_ne passive _ _) ?_
  unfold processAutoResolve
  rw [exec_bind]
  cases rule with
  | standalone rule => exact swept_checkAllAutoResolve rule
  | configPolicy rule =>
    rw [exec_checkAllAutoResolve_configPolicy]
    simp only [issue, perform_bind, exec_call, Store.perform_selectActiveAlerts]
    split
    · rename_i none_active
      rw [List.isEmpty_iff.mp none_active]
      exact ⟨by simp, fun _ _ => rfl, rfl, le_rfl⟩
    · rw [exec_bind]
      exact swept_checkAutoResolveFromConfigPolicy rule

def Alert.acknowledge (user now : ℕ) (a : Alert) : Alert :=
  if a.status = .active then
    a.set { status := .acknowledged, acknowledgedAt := some now, acknowledgedBy := some user }
  else a

def Alert.resolve (user now : ℕ) (note : Option String) (a : Alert) : Alert :=
  if a.status = .resolved then a
  else a.set {
    status := .resolved
    resolvedAt := some now
    resolvedBy := some (some user)
    resolutionNote := note.map some }

def Alert.suppress (til now : ℕ) (a : Alert) : Alert :=
  if a.status = .resolved ∨ til ≤ now then a else a.set { status := .suppressed, suppressedUntil := some til }

theorem swept_acknowledgeRoute (user id : ℕ) :
    Swept (· = id) (Alert.acknowledge user s.clock) s (exec (Store.perform around) (acknowledgeRoute user id) s).2 := by
  unfold acknowledgeRoute
  simp only [issue, perform_bind, exec_call, Store.perform_selectAlert]
  cases found : s.alert id with
  | none => exact .missing found s.redis
  | some a =>
    dsimp only
    split
    · rename_i passive
      refine .keep found ?_ s.redis
      exact if_neg passive
    · rename_i active
      simp only [exec_call, Store.perform_now, Store.perform_updateAlert, found, map_some, exec_pure]
      refine .write found ?_ s.redis
      exact if_pos (not_not.mp active)

theorem swept_resolveRoute (rule : Rule) (user id : ℕ) (note : Option String) :
    Swept (· = id) (Alert.resolve user s.clock note) s
      (exec (Store.perform around) (resolveRoute rule user id note) s).2 := by
  unfold resolveRoute
  simp only [issue, perform_bind, exec_call, Store.perform_selectAlert]
  cases found : s.alert id with
  | none => exact .missing found s.redis
  | some a =>
    dsimp only
    split
    · rename_i resolved
      refine .keep found ?_ s.redis
      exact if_pos resolved
    · rename_i unresolved
      simp only [exec_call, Store.perform_now, Store.perform_updateAlert, found, map_some,
        isSome_some, Bool.not_true, Bool.false_eq_true, if_false]
      set written := s.write _
      cases rule with
      | standalone rule =>
        obtain ⟨redis, left⟩ := steady_setCooldown rule.cooldownMinutes around written
        simp only [exec_bind, left, exec_pure]
        refine .write found ?_ redis
        exact if_neg unresolved
      | configPolicy rule =>
        refine .write found ?_ _
        exact if_neg unresolved

theorem swept_suppressRoute (id til : ℕ) :
    Swept (· = id) (Alert.suppress til s.clock) s (exec (Store.perform around) (suppressRoute id til) s).2 := by
  unfold suppressRoute
  simp only [issue, perform_bind, exec_call, Store.perform_selectAlert]
  cases found : s.alert id with
  | none => exact .missing found s.redis
  | some a =>
    dsimp only
    split
    · rename_i resolved
      refine .keep found ?_ s.redis
      exact if_pos (.inl resolved)
    · rename_i unresolved
      simp only [exec_call, Store.perform_now]
      split
      · rename_i past
        refine .keep found ?_ s.redis
        exact if_pos (.inr past)
      · rename_i future
        simp only [exec_call, Store.perform_updateAlert, found, map_some, exec_pure]
        refine .write found ?_ s.redis
        exact if_neg (not_or.mpr ⟨unresolved, future⟩)

def Alert.bulk : BulkAction → ℕ → ℕ → Alert → Alert
  | .acknowledge, user, now => Alert.acknowledge user now
  | .resolve, user, now => Alert.resolve user now none

theorem swept_bulkRound (action : BulkAction) (user : ℕ) (results : BulkResults) {row : ℕ × Alert}
    (found : s.alert row.1 = some row.2) : Swept (· = row.1) (Alert.bulk action user s.clock) s
      (exec (Store.perform around) (bulkRound action user s.clock results row) s).2 := by
  unfold bulkRound
  cases action with
  | acknowledge =>
    dsimp only
    split
    · rename_i passive
      refine .keep found ?_ s.redis
      exact if_neg passive
    · rename_i active
      simp only [issue, perform_bind, exec_call, Store.perform_updateAlert, found, map_some, exec_pure]
      refine .write found ?_ s.redis
      exact if_pos (not_not.mp active)
  | resolve =>
    dsimp only
    split
    · rename_i resolved
      refine .keep found ?_ s.redis
      exact if_pos resolved
    · rename_i unresolved
      simp only [issue, perform_bind, exec_call, Store.perform_updateAlert, found, map_some, exec_pure]
      refine .write found ?_ s.redis
      exact if_neg unresolved

theorem swept_bulkRoute (around : Surroundings) (s : Store) (action : BulkAction) (user : ℕ) (ids : List ℕ) :
    ∃ touched, Swept touched (Alert.bulk action user s.clock) s
      (exec (Store.perform around) (bulkRoute action user ids) s).2 := by
  unfold bulkRoute
  simp only [issue, perform_bind, exec_call, Store.perform_selectAlerts]
  split
  · exact ⟨_, .same s.redis⟩
  · simp only [exec_call, Store.perform_now, exec_bind]
    have swept : Swept _ (Alert.bulk action user s.clock) s (exec (Store.perform around)
        ((s.view.rows.filter fun row => decide (row.1 ∈ ids)).foldlM (bulkRound action user s.clock) ⟨0, 0⟩) s).2 :=
      .foldlM (s.view.nodup_filter _) (fun row listed results mid same clock => by
        rw [← clock]
        have found := (View.mem_rows.mp (mem_of_mem_filter listed)).2
        exact swept_bulkRound action user results (same.trans found)) _
    exact ⟨_, swept⟩

end Sweeps

/-- An alert that was suppressed is suppressed still, or resolved. -/
def Alert.Lasting (a : Alert) : Prop := a.suppressedUntil.isSome → a.status = .suppressed ∨ a.status = .resolved

structure Store.Sound (s : Store) : Prop where
  bounded : ∀ id, s.count ≤ id → s.alert id = none
  one : ∀ i j a b, s.alert i = some a → a.IsOpen → s.alert j = some b → b.IsOpen → i = j
  lasting : ∀ id a, s.alert id = some a → a.Lasting

/-- The change opens no alert, and takes none out of suppression but by resolving it. -/
structure Tame (change : Alert → Alert) : Prop where
  closed : ∀ a, (change a).IsOpen → a.IsOpen
  lasting : ∀ a, a.Lasting → (change a).Lasting

section Runs
variable {around : Surroundings} {s after : Store} {touched : ℕ → Prop} {change : Alert → Alert}

theorem Swept.trace (swept : Swept touched change s after) {id : ℕ} {b : Alert} (found : after.alert id = some b) :
    ∃ a, s.alert id = some a ∧ (b = a ∨ b = change a) := by
  by_cases inside : touched id
  · rw [swept.inside id inside] at found
    obtain ⟨a, there, rfl⟩ := map_eq_some_iff.mp found
    exact ⟨a, there, .inr rfl⟩
  · rw [swept.outside id inside] at found
    exact ⟨b, found, .inl rfl⟩

theorem Store.Sound.swept (sound : s.Sound) (tame : Tame change) (swept : Swept touched change s after) :
    after.Sound where
  bounded id beyond := by
    cases found : after.alert id with
    | none => rfl
    | some b =>
      obtain ⟨a, there, -⟩ := swept.trace found
      rw [sound.bounded id (swept.count.trans beyond)] at there
      cases there
  one i j a b first opened second also := by
    obtain ⟨x, there, fromFirst⟩ := swept.trace first
    obtain ⟨y, too, fromSecond⟩ := swept.trace second
    refine sound.one i j x y there ?_ too ?_
    · rcases fromFirst with rfl | rfl
      · exact opened
      · exact tame.closed x opened
    · rcases fromSecond with rfl | rfl
      · exact also
      · exact tame.closed y also
  lasting id b found := by
    obtain ⟨a, there, rfl | rfl⟩ := swept.trace found
    · exact sound.lasting id b there
    · exact tame.lasting a (sound.lasting id a there)

theorem openAlert_eq_none_iff (bounded : ∀ id, s.count ≤ id → s.alert id = none) :
    s.openAlert = none ↔ ∀ id a, s.alert id = some a → ¬a.IsOpen := by
  simp only [Store.openAlert, map_eq_none_iff, find?_eq_none, decide_eq_true_eq]
  constructor
  · intro closed id a found
    refine closed (id, a) (View.mem_rows.mpr ⟨?_, found⟩)
    by_contra beyond
    have missing := bounded id (not_lt.mp beyond)
    rw [found] at missing
    cases missing
  · rintro closed ⟨id, a⟩ listed
    exact closed id a (View.mem_rows.mp listed).2

theorem Store.Sound.evaluated {cooldownMinutes : ℕ} (sound : s.Sound)
    (evaluated : Evaluated cooldownMinutes around s after) : after.Sound := by
  cases evaluated with
  | kept redis => exact ⟨sound.bounded, sound.one, sound.lasting⟩
  | raised redis closed =>
    have closed := (openAlert_eq_none_iff sound.bounded).mp closed
    have trace : ∀ id a, (s.raise cooldownMinutes).alert id = some a →
        id = s.count ∧ a = .triggered cooldownMinutes s.clock ∨ s.alert id = some a := by
      intro id a found
      by_cases raised : id = s.count
      · subst raised
        exact .inl ⟨rfl, some.inj (found.symm.trans (update_self ..))⟩
      · exact .inr ((update_of_ne raised ..).symm.trans found)
    refine ⟨fun id beyond => ?_, fun i j a b first opened second also => ?_, fun id a found => ?_⟩
    · have past : s.count + 1 ≤ id := (le_max_right ..).trans beyond
      exact (update_of_ne (by omega) ..).trans (sound.bounded id (by omega))
    · rcases trace i a first with ⟨here, -⟩ | there
      · rcases trace j b second with ⟨too, -⟩ | there
        · exact here.trans too.symm
        · exact absurd also (closed j b there)
      · exact absurd opened (closed i a there)
    · rcases trace id a found with ⟨-, rfl⟩ | there
      · intro stamped
        cases stamped
      · exact sound.lasting id a there

theorem tame_autoResolve (resolution : Option String) (now : ℕ) : Tame (Alert.autoResolve resolution now) := by
  constructor <;> intro a
  · unfold Alert.autoResolve
    split
    · cases resolution <;> simp [Alert.isOpen_iff, AlertChanges.resolution]
    · exact id
  · intro lasting
    unfold Alert.autoResolve
    split
    · cases resolution with
      | none => exact lasting
      | some note => exact fun _ => .inr rfl
    · exact lasting

theorem tame_acknowledge (user now : ℕ) : Tame (Alert.acknowledge user now) := by
  constructor <;> intro a
  · unfold Alert.acknowledge
    split
    · rename_i active
      simp [Alert.isOpen_iff, active]
    · exact id
  · intro lasting
    unfold Alert.acknowledge
    split
    · rename_i active
      intro stamped
      simpa [active] using lasting stamped
    · exact lasting

theorem tame_resolve (user now : ℕ) (note : Option String) : Tame (Alert.resolve user now note) := by
  constructor <;> intro a
  · unfold Alert.resolve
    split <;> simp [Alert.isOpen_iff]
  · intro lasting
    unfold Alert.resolve
    split
    · exact lasting
    · exact fun _ => .inr rfl

theorem tame_suppress (til now : ℕ) : Tame (Alert.suppress til now) := by
  constructor <;> intro a
  · unfold Alert.suppress
    split
    · exact id
    · rename_i unresolved
      exact fun _ => Alert.isOpen_iff.mpr (not_or.mp unresolved).1
  · intro lasting
    unfold Alert.suppress
    split
    · exact lasting
    · exact fun _ => .inl rfl

theorem tame_bulk (action : BulkAction) (user now : ℕ) : Tame (Alert.bulk action user now) := by
  cases action with
  | acknowledge => exact tame_acknowledge user now
  | resolve => exact tame_resolve user now none

theorem Store.Sound.step (sound : s.Sound) (rule : Rule) (e : Event) : (s.step rule e).Sound := by
  cases e with
  | wait elapsed => exact ⟨sound.bounded, sound.one, sound.lasting⟩
  | call call around =>
    by_cases evaluates : call.evaluates rule = true
    · exact sound.evaluated (evaluated_of_evaluates evaluates)
    · rw [Store.step]
      cases call <;> rw [Call.program, exec_discard]
      case evaluateDeviceAlerts =>
        cases rule with
        | standalone rule => exact absurd rfl evaluates
        | configPolicy rule => exact sound
      case evaluateDeviceAlertsFromPolicy =>
        cases rule with
        | standalone rule => exact sound
        | configPolicy rule => exact absurd rfl evaluates
      case checkAutoResolve id =>
        cases rule with
        | standalone rule => exact sound.swept (tame_autoResolve _ _) (swept_checkAutoResolve rule id)
        | configPolicy rule => rwa [exec_checkAutoResolve_configPolicy]
      case checkAutoResolveFromConfigPolicy =>
        cases rule with
        | standalone rule => exact sound
        | configPolicy rule => exact sound.swept (tame_autoResolve _ _) (swept_checkAutoResolveFromConfigPolicy rule)
      case processAutoResolve =>
        exact sound.swept (tame_autoResolve _ _) (swept_processAutoResolve rule sound.bounded)
      case acknowledge user id => exact sound.swept (tame_acknowledge _ _) (swept_acknowledgeRoute user id)
      case resolve user id note => exact sound.swept (tame_resolve _ _ _) (swept_resolveRoute rule user id note)
      case suppress id til => exact sound.swept (tame_suppress _ _) (swept_suppressRoute id til)
      case bulk action user ids =>
        obtain ⟨touched, swept⟩ := swept_bulkRoute around s action user ids
        exact sound.swept (tame_bulk action user s.clock) swept

def Store.Past (s : Store) : Prop :=
  ∀ id a, s.alert id = some a → a.status = .suppressed → ∀ til ∈ a.suppressedUntil, til < s.clock

def DueEvaluation (rule : Rule) (s : Store) : Event → Prop
  | .call call around => call.evaluates rule = true ∧ Due around s
  | .wait _ => False

def ClearingPass (rule : Rule) : Event → Prop
  | .call .processAutoResolve around => (rule.resolution around).isSome
  | _ => False

/-- What is promised once every chosen time has passed: after an evaluation of a rule that is due, an alert is open and
not suppressed; after a pass that finds a reason to resolve, every alert is resolved, unless it was acknowledged
without having been suppressed. -/
structure Store.Wakes (rule : Rule) (s : Store) (e : Event) : Prop where
  heard : s.Past → DueEvaluation rule s e →
    ∃ id a, (s.step rule e).alert id = some a ∧ a.IsOpen ∧ a.status ≠ .suppressed
  cleared : s.Past → ClearingPass rule e → ∀ id a, s.alert id = some a →
    (a.status = .acknowledged → a.suppressedUntil.isSome) →
    ∃ b, (s.step rule e).alert id = some b ∧ b.status = .resolved

/-- No alert is still in status `suppressed`. -/
def Store.Unmuted (rule : Rule) (s : Store) (e : Event) : Prop :=
  s.Past → DueEvaluation rule s e ∨ ClearingPass rule e → ∀ id a, s.alert id = some a → a.status ≠ .suppressed

theorem openAlert_isSome_iff (bounded : ∀ id, s.count ≤ id → s.alert id = none) :
    s.openAlert.isSome ↔ ∃ id a, s.alert id = some a ∧ a.IsOpen := by
  rw [isSome_iff_ne_none, Ne, openAlert_eq_none_iff bounded]
  push Not
  exact Iff.rfl

theorem Evaluated.heard_iff {cooldownMinutes : ℕ} (evaluated : Evaluated cooldownMinutes around s after)
    (sound : s.Sound) (due : Due around s) :
    (∃ id a, after.alert id = some a ∧ a.IsOpen ∧ a.status ≠ .suppressed) ↔
      ∀ id a, s.alert id = some a → a.status ≠ .suppressed := by
  have suppressed_open : ∀ a : Alert, a.status = .suppressed → a.IsOpen := fun a status => by
    rw [Alert.isOpen_iff, status]
    decide
  cases evaluated with
  | kept redis because =>
    constructor
    · rintro ⟨other, b, there, opened, audible⟩ id a found suppressed
      obtain rfl := sound.one other id b a there opened found (suppressed_open a suppressed)
      exact audible (some.inj (there.symm.trans found) ▸ suppressed)
    · intro audible
      obtain ⟨id, a, found, opened⟩ := (openAlert_isSome_iff sound.bounded).mp (because due)
      exact ⟨id, a, found, opened, audible id a found⟩
  | raised redis closed =>
    have closed := (openAlert_eq_none_iff sound.bounded).mp closed
    refine iff_of_true ⟨s.count, .triggered cooldownMinutes s.clock, update_self .., ?_⟩ ?_
    · exact ⟨mem_cons_self, by simp [Alert.triggered]⟩
    · exact fun id a found suppressed => closed id a found (suppressed_open a suppressed)

theorem status_autoResolve_eq_resolved_iff {resolution : Option String} (reason : resolution.isSome) (now : ℕ)
    (a : Alert) :
    (a.autoResolve resolution now).status = .resolved ↔ a.status ≠ .suppressed ∧ a.status ≠ .acknowledged := by
  obtain ⟨note, rfl⟩ := isSome_iff_exists.mp reason
  unfold Alert.autoResolve
  split
  · rename_i active
    simp [active, AlertChanges.resolution]
  · rename_i passive
    cases status : a.status <;> simp_all

theorem Store.Sound.cleared_iff (sound : s.Sound) {rule : Rule} {e : Event} (clearing : ClearingPass rule e) :
    (∀ id a, s.alert id = some a → (a.status = .acknowledged → a.suppressedUntil.isSome) →
      ∃ b, (s.step rule e).alert id = some b ∧ b.status = .resolved) ↔
      ∀ id a, s.alert id = some a → a.status ≠ .suppressed := by
  obtain ⟨around, rfl⟩ : ∃ around, e = .call .processAutoResolve around := by
    cases e with
    | wait elapsed => exact clearing.elim
    | call call around =>
      cases call <;> first | exact ⟨around, rfl⟩ | exact clearing.elim
  have passed : ∀ id a, s.alert id = some a →
      (s.step rule (.call .processAutoResolve around)).alert id =
        some (a.autoResolve (rule.resolution around) s.clock) := by
    intro id a found
    rw [Store.step, Call.program, exec_discard,
      (swept_processAutoResolve rule sound.bounded).inside id trivial, found, map_some]
  constructor
  · intro cleared id a found suppressed
    obtain ⟨b, there, resolved⟩ := cleared id a found (by simp [suppressed])
    obtain rfl := some.inj ((passed id a found).symm.trans there)
    exact ((status_autoResolve_eq_resolved_iff clearing s.clock a).mp resolved).1 suppressed
  · intro audible id a found acknowledged
    refine ⟨_, passed id a found, (status_autoResolve_eq_resolved_iff clearing s.clock a).mpr ⟨audible id a found, ?_⟩⟩
    intro status
    rcases sound.lasting id a found (acknowledged status) with suppressed | resolved
    · exact audible id a found suppressed
    · simp [status] at resolved

theorem Store.Sound.wakes_iff (sound : s.Sound) (rule : Rule) (e : Event) : s.Wakes rule e ↔ s.Unmuted rule e := by
  have heard_iff : DueEvaluation rule s e → ((∃ id a, (s.step rule e).alert id = some a ∧ a.IsOpen ∧
      a.status ≠ .suppressed) ↔ ∀ id a, s.alert id = some a → a.status ≠ .suppressed) := by
    intro due
    cases e with
    | wait elapsed => exact due.elim
    | call call around => exact (evaluated_of_evaluates due.1).heard_iff sound due.2
  constructor
  · rintro wakes past (due | clearing)
    · exact (heard_iff due).mp (wakes.heard past due)
    · exact (sound.cleared_iff clearing).mp (wakes.cleared past clearing)
  · intro unmuted
    refine ⟨fun past due => ?_, fun past clearing => ?_⟩
    · exact (heard_iff due).mpr (unmuted past (.inl due))
    · exact (sound.cleared_iff clearing).mpr (unmuted past (.inr clearing))

/-- A suppression ends with the chosen time in exactly the runs in which, at every evaluation and every pass after it,
no alert is in status `suppressed` any more. -/
theorem suppression_ends_iff (rule : Rule) (redis : Redis) (clock : ℕ) (es : List Event) :
    StepsMeet (Store.step rule) (Store.Wakes rule) (.empty redis clock) es ↔
      StepsMeet (Store.step rule) (Store.Unmuted rule) (.empty redis clock) es :=
  stepsMeet_congr (fun _ e (sound : Store.Sound _) _ => sound.step rule e) (fun _ e sound => sound.wakes_iff rule e)
    ⟨fun _ _ => rfl, by simp [Store.empty], by simp [Store.empty]⟩

/-- With whole calls at most one alert is open, and a suppressed one stays suppressed until it is resolved. -/
theorem alerts_sound (rule : Rule) (redis : Redis) (clock : ℕ) (es : List Event) :
    Throughout (Store.step rule) Store.Sound (.empty redis clock) es :=
  throughout_of_kept (fun _ => id) (fun _ e sound => sound.step rule e)
    ⟨fun _ _ => rfl, by simp [Store.empty], by simp [Store.empty]⟩ es

end Runs

/-- A rule with a cooldown of a minute whose alerts resolve by themselves. -/
def shortRule : Rule := .standalone ⟨⟨none, none, none⟩, ⟨1, true, false⟩⟩

def met : Surroundings := ⟨true, none, false⟩

def mutedAlert : List Event := [.call .evaluateDeviceAlerts met, .call (.suppress 0 1000) met, .wait 3600000]

def mutedStore : Store := mutedAlert.foldl (Store.step shortRule) (.empty ⟨none, none, [], none⟩ 0)

theorem muted_of_found {id : ℕ} {a : Alert} (found : mutedStore.alert id = some a) :
    a.status = .suppressed ∧ a.suppressedUntil = some 1000 := by
  by_cases first : id = 0
  · subst first
    obtain rfl := some.inj (Eq.trans (by rfl : some _ = mutedStore.alert 0) found)
    exact ⟨rfl, rfl⟩
  · have none_else : mutedStore.alert id = none := by
      change update (update (fun _ => none) 0 _) 0 _ id = none
      rw [update_of_ne first, update_of_ne first]
    rw [none_else] at found
    cases found

/-- An hour later the conditions are met, nothing keeps an alert back, and the rule stays silent. -/
theorem rule_muted_forever : ¬StepsMeet (Store.step shortRule) (Store.Wakes shortRule) (.empty ⟨none, none, [], none⟩ 0)
      (mutedAlert ++ [.call .evaluateDeviceAlerts met]) := by
  intro meets
  have wakes : mutedStore.Wakes shortRule (.call .evaluateDeviceAlerts met) := meets mutedAlert _ [] rfl
  have past : mutedStore.Past := by
    intro id a found _ til chosen
    rw [(muted_of_found found).2] at chosen
    cases chosen
    decide
  obtain ⟨id, a, found, -, audible⟩ := wakes.heard past ⟨rfl, rfl, by decide, by decide, rfl⟩
  have same : (mutedStore.step shortRule (.call .evaluateDeviceAlerts met)).alert = mutedStore.alert := rfl
  rw [same] at found
  exact audible (muted_of_found found).1

end RemudaRmm.Alerts
