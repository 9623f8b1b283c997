import RemudaRmm.Alerts.AlertService
import RemudaRmm.Foundation.ReadCommitted

/-! Any number of calls about one rule on one device, statement by statement (`services/alertService.ts`,
`routes/alerts/alerts.ts`). A job or a request runs its calls in one transaction; Redis is not part of it. -/
namespace RemudaRmm.Alerts
open Foundation
open Program (perform_bind)
open Foundation.Program (Obeys)

/-- The alerts of the pair, Redis and the clock. `returned` has the instants of the resolutions whose call has
returned. -/
structure AlertDb (τ : Type*) where
  alerts : Table ℕ τ (Option Alert)
  count : ℕ
  redis : Redis
  clock : ℕ
  returned : List ℕ

/-- What a transaction is doing: its last call, what is left of it, when it started and what had returned by then, the
instants at which it has resolved alerts, and whether it has created one. -/
structure AlertProc where
  call : Call
  program : Option (AlertProgram Unit)
  startedAt : ℕ
  (known resolvedAt : List ℕ)
  created : Bool

inductive AlertAction where
  | wait (elapsed : ℕ)
  | start (call : Call)
  | step (around : Surroundings)
  | finish
  | commit
  | rollback

section Machine
variable {τ : Type*} [DecidableEq τ]

def AlertDb.view (t : τ) (db : AlertDb τ) : View := ⟨fun id => (db.alerts id).read t, db.count⟩

def AlertDb.write (t : τ) (db : AlertDb τ) : Option (ℕ × Alert) → AlertDb τ
  | none => db
  | some (id, a) => { db with alerts := db.alerts.write t id (some a), count := max db.count (id + 1) }

/-- What a command that has written a row adds to the record of its call. -/
def AlertProc.note (clock : ℕ) (p : AlertProc) : Command → AlertProc
  | .insertAlert _ => { p with created := true }
  | .updateAlert _ changes => if changes.status = .resolved then { p with resolvedAt := clock :: p.resolvedAt } else p
  | _ => p

def AlertProc.noted (clock : ℕ) (written : Bool) (command : Command) (p : AlertProc) : AlertProc :=
  if written then p.note clock command else p

def AlertProc.running (program : AlertProgram Unit) (p : AlertProc) : AlertProc := { p with program := some program }

def AlertDb.withRedis (redis : Redis) (db : AlertDb τ) : AlertDb τ := { db with redis := redis }

/-- One command of a call. An update waits while another transaction holds the row. -/
def issueStep (t : τ) (around : Surroundings) (db : AlertDb τ) (p : AlertProc) (c : Command)
    (rest : c.Answer → AlertProgram Unit) : Option (AlertDb τ × AlertProc) :=
  let outcome := c.outcome (db.view t) db.redis db.clock around
  if ∀ row ∈ outcome.write, (db.alerts row.1).Free t then
    some ((db.write t outcome.write).withRedis outcome.redis,
      (p.noted db.clock outcome.write.isSome c).running (rest outcome.answer))
  else none

def act (rule : Rule) (t : τ) : AlertAction → AlertDb τ → AlertProc → Option (AlertDb τ × AlertProc)
  | .wait elapsed, db, p => some ({ db with clock := db.clock + elapsed }, p)
  | .start call, db, p =>
    match p.program with
    | some _ => none
    | none => some (db, ⟨call, some (call.program rule), db.clock, db.returned, [], false⟩)
  | .step around, db, p =>
    match p.program with
    | some (.call c rest) => issueStep t around db p c rest
    | _ => none
  | .finish, db, p =>
    match p.program with
    | some (.done _) => some ({ db with returned := p.resolvedAt ++ db.returned }, { p with program := none })
    | _ => none
  | .commit, db, p =>
    match p.program with
    | some _ => none
    | none => some ({ db with alerts := fun id => (db.alerts id).commit t }, p)
  | .rollback, db, p => some ({ db with alerts := fun id => (db.alerts id).rollback t }, { p with program := none })

abbrev AlertWorld (τ : Type*) := World τ (AlertDb τ) AlertProc

abbrev AlertWorld.step (rule : Rule) : AlertWorld τ → τ × AlertAction → Option (AlertWorld τ) := World.step (act rule)

def AlertWorld.start (redis : Redis) (clock : ℕ) : AlertWorld τ where
  db := ⟨fun _ => .unheld none, 0, redis, clock, []⟩
  proc _ := ⟨.processAutoResolve, none, 0, [], [], false⟩

end Machine

inductive Check where
  | unchecked | refused | passed

/-- Whether a resolution waits for its cooldown to be set, and what the call knows of the cooldown. -/
structure Phase where
  owed : Bool
  check : Check

/-- The alerts of the pair carry its cooldown, and every cooldown that is set is at least as long. A call inserts an
alert only after it has found no cooldown. -/
def callProtocol (cooldownMinutes : ℕ) : Program.Protocol Command Command.Answer Phase where
  admits phase
    | .insertAlert a => phase.check = .passed ∧ a.cooldownMinutes = some cooldownMinutes
    | .setexCooldown seconds => cooldownMinutes * 60 ≤ seconds
    | _ => True
  answers
    | .selectAlert _, found => ∀ a ∈ found, a.cooldownMinutes = some cooldownMinutes
    | _, _ => True
  next phase
    | .updateAlert _ changes, written =>
      { phase with owed := phase.owed || written && decide (changes.status = .resolved) }
    | .setexCooldown _, _ => { phase with owed := false }
    | .existsCooldown, cooling => { phase with check := if cooling then .refused else .passed }
    | _, _ => phase

/-- Where a call ends: no cooldown is owed, unless the call is the bulk route, which sets none. -/
def Call.Ends (call : Call) (phase : Phase) : Prop := call.isBulk = true ∨ phase.owed = false

section Calls
variable {phase : Phase} {c : ℕ}

theorem adaptiveMultiplier_obeys (existing : Option Adaptive) :
    Obeys (callProtocol c) (fun next multiplier => next = phase ∧ 1 ≤ multiplier) phase
      (adaptiveMultiplier existing) := by
  cases existing with
  | none => exact ⟨rfl, le_rfl⟩
  | some parsed =>
    refine ⟨trivial, fun now _ => ⟨rfl, ?_⟩⟩
    split
    · rename_i recent
      have := recent.1
      omega
    · exact le_rfl

theorem setCooldown_obeys {cooldownMinutes : ℕ} (long : c ≤ cooldownMinutes) :
    Obeys (callProtocol c) (fun next _ => next = { phase with owed := false }) phase (setCooldown cooldownMinutes) := by
  refine .call trivial fun existing _ => ?_
  refine (adaptiveMultiplier_obeys existing).bind ?_
  rintro next multiplier ⟨rfl, positive⟩
  refine ⟨?_, fun _ _ => ⟨trivial, fun _ _ => ⟨trivial, fun _ _ => rfl⟩⟩⟩
  exact Nat.mul_le_mul_right 60 (long.trans (Nat.le_mul_of_pos_right cooldownMinutes positive))

theorem markConfigPolicyRuleCooldown_obeys {cooldownMinutes : ℕ} (long : c ≤ cooldownMinutes) :
    Obeys (callProtocol c) (fun next _ => next = { phase with owed := false }) phase
      (markConfigPolicyRuleCooldown cooldownMinutes) :=
  ⟨Nat.mul_le_mul_right 60 long, fun _ _ => rfl⟩

theorem recordStateTransition_obeys (state : AlertState) :
    Obeys (callProtocol c) (fun next _ => next = phase) phase (recordStateTransition state) :=
  ⟨trivial, fun _ _ => ⟨trivial, fun _ _ => ⟨trivial, fun _ _ => ⟨trivial, fun _ _ => rfl⟩⟩⟩⟩

theorem isFlapping_obeys : Obeys (callProtocol c) (fun next _ => next = phase) phase isFlapping := by
  unfold isFlapping
  simp only [issue, perform_bind]
  refine .call trivial fun entries _ => ?_
  split
  · rfl
  · exact ⟨trivial, fun _ _ => rfl⟩

/-- Wherever it ends, the program owes no cooldown. -/
abbrev Settles (c : ℕ) (phase : Phase) {α : Type} (p : AlertProgram α) : Prop :=
  Obeys (callProtocol c) (fun next _ => next.owed = false) phase p

theorem raise_obeys {cool : AlertProgram Unit} (passed : phase.check = .passed)
    (cools : ∀ phase, Settles c phase cool) :
    Settles c phase (recordStateTransition .triggered >>= fun _ =>
      .call .now fun triggeredAt => .call (.insertAlert (.triggered c triggeredAt)) fun newAlert => do
        cool
        return some newAlert) := by
  refine (recordStateTransition_obeys .triggered).bind ?_
  rintro next _ rfl
  exact ⟨trivial, fun now _ => ⟨⟨passed, rfl⟩, fun newAlert _ => (cools _).bind fun next _ cooled => cooled⟩⟩

theorem createAlert_obeys (settled : phase.owed = false) :
    Settles c phase (createAlert c) := by
  have cools : ∀ phase, Settles c phase (setCooldown c) :=
    fun phase => (setCooldown_obeys le_rfl).mono fun next _ same => by rw [same]
  unfold createAlert isCooldownActive
  simp only [issue, perform_bind]
  refine .call trivial fun cooling _ => ?_
  cases cooling with
  | true => exact settled
  | false =>
    refine .call trivial fun existing _ => ?_
    split
    · exact settled
    · refine isFlapping_obeys.bind ?_
      rintro next flapping rfl
      split
      · exact (cools _).bind fun next _ cooled => cooled
      · exact raise_obeys rfl cools

theorem evaluateDeviceAlertsFromPolicy_obeys (rule : ConfigPolicyAlertRule) (settled : phase.owed = false) :
    Settles rule.cooldownMinutes phase (evaluateDeviceAlertsFromPolicy (.configPolicy rule)) := by
  have cools : ∀ phase, Settles rule.cooldownMinutes phase (markConfigPolicyRuleCooldown rule.cooldownMinutes) :=
    fun phase => (markConfigPolicyRuleCooldown_obeys le_rfl).mono fun next _ same => by rw [same]
  unfold evaluateDeviceAlertsFromPolicy isConfigPolicyRuleCooling
  simp only [issue, perform_bind]
  refine .call trivial fun suppressAlerts _ => ?_
  split
  · exact settled
  · refine .call trivial fun cooling _ => ?_
    cases cooling with
    | true => exact settled
    | false =>
      refine .call trivial fun existing _ => ?_
      split
      · exact settled
      · refine .call trivial fun triggered _ => ?_
        split
        · exact settled
        · refine isFlapping_obeys.bind ?_
          rintro next flapping rfl
          split
          · exact (cools _).bind fun next _ cooled => cooled
          · exact raise_obeys rfl cools

theorem resolveAlert_obeys (rule : Rule) (id : ℕ) (note : Option String) (resolvedBy : Option ℕ)
    (settled : phase.owed = false) : Settles rule.cooldownMinutes phase (resolveAlert rule id note resolvedBy) := by
  unfold resolveAlert
  simp only [issue, perform_bind]
  refine .call trivial fun alert _ => ?_
  split
  · exact settled
  · refine .call trivial fun resolvedAt _ => .call trivial fun written _ => ?_
    refine (recordStateTransition_obeys .resolved).bind ?_
    rintro next _ rfl
    cases rule with
    | standalone rule => exact (setCooldown_obeys le_rfl).mono fun next _ same => by rw [same]
    | configPolicy rule => exact (markConfigPolicyRuleCooldown_obeys le_rfl).mono fun next _ same => by rw [same]

theorem autoResolution_obeys (conditions : Bool) :
    Obeys (callProtocol c) (fun next _ => next = phase) phase (autoResolution conditions) := by
  cases conditions with
  | true | false => exact ⟨trivial, fun _ _ => rfl⟩

theorem checkAutoResolve_obeys (rule : Rule) (id : ℕ) (settled : phase.owed = false) :
    Settles rule.cooldownMinutes phase (checkAutoResolve rule id) := by
  unfold checkAutoResolve
  simp only [issue, perform_bind]
  refine .call trivial fun alert _ => ?_
  split
  · cases rule with
    | configPolicy rule => exact settled
    | standalone legacy =>
      dsimp only
      split
      · exact settled
      · refine (autoResolution_obeys _).bind ?_
        rintro next verdict rfl
        cases verdict with
        | none => exact settled
        | some note => exact (resolveAlert_obeys (.standalone legacy) id _ _ settled).bind fun next _ kept => kept
  · exact settled

theorem autoResolveFromConfigPolicy_obeys (rule : ConfigPolicyAlertRule) (count id : ℕ) (settled : phase.owed = false) :
    Settles rule.cooldownMinutes phase (autoResolveFromConfigPolicy rule count id) := by
  unfold autoResolveFromConfigPolicy
  split
  · exact settled
  · refine (autoResolution_obeys _).bind ?_
    rintro next verdict rfl
    cases verdict with
    | none => exact settled
    | some note =>
      refine (resolveAlert_obeys (.configPolicy rule) id _ _ settled).bind fun next _ kept => ?_
      exact (markConfigPolicyRuleCooldown_obeys le_rfl).bind fun next _ same => by rw [same]; rfl

theorem checkAutoResolveFromConfigPolicy_obeys (rule : Rule) (settled : phase.owed = false) :
    Settles rule.cooldownMinutes phase (checkAutoResolveFromConfigPolicy rule) := by
  cases rule with
  | standalone rule => exact settled
  | configPolicy rule =>
    unfold checkAutoResolveFromConfigPolicy
    simp only [issue, perform_bind]
    refine .call trivial fun active _ => ?_
    exact .foldlM (fun _ count id settled => autoResolveFromConfigPolicy_obeys rule count id settled) settled active

theorem processAutoResolve_obeys (rule : Rule) (settled : phase.owed = false) :
    Settles rule.cooldownMinutes phase (processAutoResolve rule) := by
  have all : Settles rule.cooldownMinutes phase (checkAllAutoResolve rule) := by
    unfold checkAllAutoResolve
    simp only [issue, perform_bind]
    refine .call trivial fun active _ => ?_
    have round : ∀ phase (count id : ℕ), phase.owed = false → Settles rule.cooldownMinutes phase (do
          let resolved ← checkAutoResolve rule id
          return if resolved then count + 1 else count) :=
      fun phase count id settled => (checkAutoResolve_obeys rule id settled).bind fun next _ kept => kept
    exact .foldlM round settled active
  refine all.bind fun next legacyResolvedCount settled => ?_
  cases rule with
  | standalone rule => exact settled
  | configPolicy rule =>
    simp only [issue, perform_bind]
    refine .call trivial fun active _ => ?_
    split
    · exact settled
    · exact (checkAutoResolveFromConfigPolicy_obeys (.configPolicy rule) settled).bind fun next _ kept => kept

theorem acknowledgeRoute_obeys (user id : ℕ) (settled : phase.owed = false) :
    Settles c phase (acknowledgeRoute user id) := by
  unfold acknowledgeRoute
  simp only [issue, perform_bind]
  refine .call trivial fun alert _ => ?_
  cases alert with
  | none => exact settled
  | some a =>
    dsimp only
    split
    · exact settled
    · refine .call trivial fun now _ => .call trivial fun updated _ => ?_
      change (phase.owed || updated && _) = false
      simp [settled]

theorem suppressRoute_obeys (id til : ℕ) (settled : phase.owed = false) :
    Settles c phase (suppressRoute id til) := by
  unfold suppressRoute
  simp only [issue, perform_bind]
  refine .call trivial fun alert _ => ?_
  cases alert with
  | none => exact settled
  | some a =>
    dsimp only
    split
    · exact settled
    · refine .call trivial fun now _ => ?_
      split
      · exact settled
      · refine .call trivial fun updated _ => ?_
        change (phase.owed || updated && _) = false
        simp [settled]

theorem resolveRoute_obeys (rule : Rule) (user id : ℕ) (note : Option String) (settled : phase.owed = false) :
    Settles rule.cooldownMinutes phase (resolveRoute rule user id note) := by
  unfold resolveRoute
  simp only [issue, perform_bind]
  refine .call trivial fun alert carries => ?_
  cases alert with
  | none => exact settled
  | some a =>
    dsimp only
    split
    · exact settled
    · refine .call trivial fun now _ => .call trivial fun updated _ => ?_
      cases updated with
      | false =>
        change (phase.owed || false && _) = false
        simp [settled]
      | true =>
        cases rule with
        | standalone rule => exact (setCooldown_obeys le_rfl).bind fun next _ same => by rw [same]; rfl
        | configPolicy rule =>
          have long : rule.cooldownMinutes ≤ a.cooldownMinutes.getD 5 := by
            rw [carries a rfl]
            exact le_rfl
          exact (markConfigPolicyRuleCooldown_obeys long).bind fun next _ same => by rw [same]; rfl

theorem bulkRound_obeys (action : BulkAction) (user now : ℕ) (results : BulkResults) (row : ℕ × Alert) :
    Obeys (callProtocol c) (fun _ _ => True) phase (bulkRound action user now results row) := by
  unfold bulkRound
  cases action with
  | acknowledge | resolve =>
    dsimp only
    split
    · exact trivial
    · exact .call trivial fun _ _ => trivial

theorem bulkRoute_obeys (action : BulkAction) (user : ℕ) (ids : List ℕ) :
    Obeys (callProtocol c) (fun _ _ => True) phase (bulkRoute action user ids) := by
  unfold bulkRoute
  simp only [issue, perform_bind]
  refine .call trivial fun accessible _ => ?_
  split
  · exact trivial
  · refine .call trivial fun now _ => ?_
    have rounds : Obeys (callProtocol c) (fun _ _ => True) phase
        (accessible.foldlM (bulkRound action user now) ⟨0, 0⟩) :=
      .foldlM (fun _ results row _ => bulkRound_obeys action user now results row) trivial accessible
    exact rounds.bind fun _ _ _ => trivial

theorem Call.program_obeys (rule : Rule) (call : Call) : Obeys (callProtocol rule.cooldownMinutes)
    (fun next _ => call.Ends next) ⟨false, .unchecked⟩ (call.program rule) := by
  have settled {α : Type} {p : AlertProgram α} (obeys : Obeys (callProtocol rule.cooldownMinutes)
      (fun next _ => next.owed = false) ⟨false, .unchecked⟩ p) :
      Obeys (callProtocol rule.cooldownMinutes) (fun next _ => call.Ends next) ⟨false, .unchecked⟩ (discard p) :=
    .discard (obeys.mono fun _ _ => .inr)
  cases call with
  | evaluateDeviceAlerts =>
    refine settled ?_
    cases rule with
    | configPolicy rule => exact rfl
    | standalone rule =>
      unfold Alerts.evaluateDeviceAlerts
      simp only [issue, perform_bind]
      refine .call trivial fun triggered _ => ?_
      split
      · exact createAlert_obeys rfl
      · exact rfl
  | evaluateDeviceAlertsFromPolicy =>
    refine settled ?_
    cases rule with
    | standalone rule => exact rfl
    | configPolicy rule => exact evaluateDeviceAlertsFromPolicy_obeys rule rfl
  | checkAutoResolve id => exact settled (checkAutoResolve_obeys rule id rfl)
  | checkAutoResolveFromConfigPolicy => exact settled (checkAutoResolveFromConfigPolicy_obeys rule rfl)
  | processAutoResolve => exact settled (processAutoResolve_obeys rule rfl)
  | acknowledge user id => exact settled (acknowledgeRoute_obeys user id rfl)
  | resolve user id note => exact settled (resolveRoute_obeys rule user id note rfl)
  | suppress id til => exact settled (suppressRoute_obeys id til rfl)
  | bulk action user ids =>
    exact .discard ((bulkRoute_obeys action user ids).mono fun _ _ _ => .inl rfl)

end Calls

end RemudaRmm.Alerts
