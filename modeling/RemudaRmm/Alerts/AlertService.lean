import RemudaRmm.Alerts.AlertCommands

/-! The calls that create and change the alerts of one rule on one device, as programs (`services/alertCooldown.ts`,
`services/alertService.ts`, `jobs/alertWorker.ts`, `routes/alerts/alerts.ts`). The rows of the rule and its template
stay the same. -/
namespace RemudaRmm.Alerts
open Foundation

def isCooldownActive : AlertProgram Bool := issue .existsCooldown

/-- The multiplier doubles, up to four, when the last cooldown was set within the hour. -/
def adaptiveMultiplier : Option Adaptive → AlertProgram ℕ
  | none => pure 1
  | some parsed => do
      let now ← issue .now
      pure (if parsed.multiplier ≠ 0 ∧ now - parsed.setAt < 3600000 then min (parsed.multiplier * 2) 4 else 1)

def setCooldown (cooldownMinutes : ℕ) : AlertProgram Unit := do
  let existing ← issue .getAdaptive
  let multiplier ← adaptiveMultiplier existing
  issue (.setexCooldown (cooldownMinutes * multiplier * 60))
  let setAt ← issue .now
  issue (.setexAdaptive 3600 ⟨setAt, multiplier⟩)

def isConfigPolicyRuleCooling : AlertProgram Bool := issue .existsCooldown

def markConfigPolicyRuleCooldown (cooldownMinutes : ℕ) : AlertProgram Unit :=
  issue (.setexCooldown (cooldownMinutes * 60))

def recordStateTransition (state : AlertState) : AlertProgram Unit := do
  let timestamp ← issue .now
  issue (.rpush ⟨state, timestamp⟩)
  issue (.ltrim 20)
  issue (.expire 1800)

def isFlapping : AlertProgram Bool := do
  let entries ← issue .lrange
  if entries.length < 4 then pure false
  else do
    let now ← issue .now
    pure (decide (4 ≤ (entries.filter fun entry => decide (now - 10 * 60 * 1000 ≤ entry.timestamp)).length))

structure Template where
  cooldownMinutes : ℕ
  (autoResolve autoResolveConditions : Bool)

/-- The entries of `overrideSettings` that come before the template's. -/
structure Overrides where
  cooldownMinutes : Option ℕ
  (autoResolve autoResolveConditions : Option Bool)

structure StandaloneRule where
  overrides : Overrides
  template : Template

namespace StandaloneRule

/-- The template's row exists by its foreign key, so the last default of the code is never taken. -/
def cooldownMinutes (rule : StandaloneRule) : ℕ := rule.overrides.cooldownMinutes.getD rule.template.cooldownMinutes

def autoResolve (rule : StandaloneRule) : Bool := rule.overrides.autoResolve.getD rule.template.autoResolve

def autoResolveConditions (rule : StandaloneRule) : Bool :=
  rule.overrides.autoResolveConditions.getD rule.template.autoResolveConditions

end StandaloneRule

structure ConfigPolicyAlertRule where
  cooldownMinutes : ℕ
  (autoResolve autoResolveConditions : Bool)

/-- The rule of the pair: an alert names its rule in `ruleId` or in `configPolicyId`. -/
inductive Rule where
  | standalone (rule : StandaloneRule)
  | configPolicy (rule : ConfigPolicyAlertRule)

namespace Rule

def cooldownMinutes : Rule → ℕ
  | standalone rule => rule.cooldownMinutes
  | configPolicy rule => rule.cooldownMinutes

def autoResolve : Rule → Bool
  | standalone rule => rule.autoResolve
  | configPolicy rule => rule.autoResolve

def autoResolveConditions : Rule → Bool
  | standalone rule => rule.autoResolveConditions
  | configPolicy rule => rule.autoResolveConditions

end Rule

def createAlert (cooldownMinutes : ℕ) : AlertProgram (Option ℕ) := do
  let cooldownActive ← isCooldownActive
  if cooldownActive then return none
  let existingAlert ← issue .selectOpenAlert
  if existingAlert.isSome then return none
  let flapping ← isFlapping
  if flapping then
    setCooldown cooldownMinutes
    return none
  recordStateTransition .triggered
  let triggeredAt ← issue .now
  let newAlert ← issue (.insertAlert (.triggered cooldownMinutes triggeredAt))
  setCooldown cooldownMinutes
  return some newAlert

def evaluateDeviceAlerts : Rule → AlertProgram (Option ℕ)
  | .configPolicy _ => pure none
  | .standalone rule => do
      let triggered ← issue .evaluateConditions
      if triggered then createAlert rule.cooldownMinutes else return none

def evaluateDeviceAlertsFromPolicy : Rule → AlertProgram (Option ℕ)
  | .standalone _ => pure none
  | .configPolicy rule => do
      let suppressAlerts ← issue .maintenanceWindow
      if suppressAlerts then return none
      let cooling ← isConfigPolicyRuleCooling
      if cooling then return none
      let existingAlert ← issue .selectOpenAlert
      if existingAlert.isSome then return none
      let triggered ← issue .evaluateConditions
      if !triggered then return none
      let flapping ← isFlapping
      if flapping then
        markConfigPolicyRuleCooldown rule.cooldownMinutes
        return none
      recordStateTransition .triggered
      let triggeredAt ← issue .now
      let newAlert ← issue (.insertAlert (.triggered rule.cooldownMinutes triggeredAt))
      markConfigPolicyRuleCooldown rule.cooldownMinutes
      return some newAlert

def resolveAlert (rule : Rule) (id : ℕ) (resolutionNote : Option String) (resolvedBy : Option ℕ) :
    AlertProgram Unit := do
  let alert ← issue (.selectAlert id)
  if alert.isNone then return
  let resolvedAt ← issue .now
  let _ ← issue (.updateAlert id (.resolution resolvedAt resolutionNote resolvedBy))
  recordStateTransition .resolved
  match rule with
  | .configPolicy cpRule => markConfigPolicyRuleCooldown cpRule.cooldownMinutes
  | .standalone rule => setCooldown rule.cooldownMinutes

/-- Whether the alert is due to be resolved, and with which note. -/
def autoResolution (autoResolveConditions : Bool) : AlertProgram (Option String) :=
  if autoResolveConditions then do
    let reason ← issue .evaluateAutoResolveConditions
    return reason.map ("Auto-resolved: " ++ ·)
  else do
    let triggered ← issue .evaluateConditions
    return if triggered then none else some "Auto-resolved: conditions cleared"

def checkAutoResolve (rule : Rule) (id : ℕ) : AlertProgram Bool := do
  let alert ← issue (.selectAlert id)
  if alert.any fun a => decide (a.status = .active) then
    match rule with
    | .configPolicy _ => return false
    | .standalone legacy =>
      if !legacy.autoResolve then return false
      match ← autoResolution legacy.autoResolveConditions with
      | some note =>
        resolveAlert rule id (some note) none
        return true
      | none => return false
  else return false

def autoResolveFromConfigPolicy (rule : ConfigPolicyAlertRule) (resolvedCount id : ℕ) : AlertProgram ℕ := do
  if !rule.autoResolve then return resolvedCount
  match ← autoResolution rule.autoResolveConditions with
  | some note =>
    resolveAlert (.configPolicy rule) id (some note) none
    markConfigPolicyRuleCooldown rule.cooldownMinutes
    return resolvedCount + 1
  | none => return resolvedCount

def checkAutoResolveFromConfigPolicy : Rule → AlertProgram ℕ
  | .standalone _ => pure 0
  | .configPolicy rule => do
      let activeAlerts ← issue .selectActiveAlerts
      activeAlerts.foldlM (autoResolveFromConfigPolicy rule) 0

def checkAllAutoResolve (rule : Rule) : AlertProgram ℕ := do
  let activeAlerts ← issue .selectActiveAlerts
  activeAlerts.foldlM (fun resolvedCount id => do
    let resolved ← checkAutoResolve rule id
    return if resolved then resolvedCount + 1 else resolvedCount) 0

def processAutoResolve (rule : Rule) : AlertProgram ℕ := do
  let legacyResolvedCount ← checkAllAutoResolve rule
  match rule with
  | .standalone _ => return legacyResolvedCount
  | .configPolicy _ => do
      let configPolicyAlerts ← issue .selectActiveAlerts
      if configPolicyAlerts.isEmpty then return legacyResolvedCount
      let configPolicyResolvedCount ← checkAutoResolveFromConfigPolicy rule
      return legacyResolvedCount + configPolicyResolvedCount

inductive Reply where
  | ok
  | error (code : ℕ) (message : String)

def acknowledgeRoute (user id : ℕ) : AlertProgram Reply := do
  match ← issue (.selectAlert id) with
  | none => return .error 404 "Alert not found"
  | some alert =>
    if alert.status ≠ .active then
      return .error 400 ("Cannot acknowledge alert with status: " ++ alert.status.text)
    let acknowledgedAt ← issue .now
    let updated ← issue (.updateAlert id {
      status := .acknowledged
      acknowledgedAt := some acknowledgedAt
      acknowledgedBy := some user })
    return if updated then .ok else .error 500 "Failed to acknowledge alert"

def resolveRoute (rule : Rule) (user id : ℕ) (note : Option String) : AlertProgram Reply := do
  match ← issue (.selectAlert id) with
  | none => return .error 404 "Alert not found"
  | some alert =>
    if alert.status = .resolved then return .error 400 "Alert is already resolved"
    let resolvedAt ← issue .now
    let updated ← issue (.updateAlert id {
      status := .resolved
      resolvedAt := some resolvedAt
      resolvedBy := some (some user)
      resolutionNote := note.map some })
    if !updated then return .error 500 "Failed to resolve alert"
    match rule with
    | .standalone rule => setCooldown rule.cooldownMinutes
    | .configPolicy _ => markConfigPolicyRuleCooldown (alert.cooldownMinutes.getD 5)
    return .ok

/-- `til` is the chosen time. -/
def suppressRoute (id til : ℕ) : AlertProgram Reply := do
  match ← issue (.selectAlert id) with
  | none => return .error 404 "Alert not found"
  | some alert =>
    if alert.status = .resolved then return .error 400 "Cannot suppress a resolved alert"
    let now ← issue .now
    if til ≤ now then return .error 400 "Suppression time must be in the future"
    let updated ← issue (.updateAlert id { status := .suppressed, suppressedUntil := some til })
    return if updated then .ok else .error 500 "Failed to suppress alert"

inductive BulkAction where
  | acknowledge | resolve

structure BulkResults where
  (updated skipped : ℕ)

def bulkRound (action : BulkAction) (user now : ℕ) (results : BulkResults) (row : ℕ × Alert) :
    AlertProgram BulkResults := do
  match action with
  | .acknowledge =>
    if row.2.status ≠ .active then return { results with skipped := results.skipped + 1 }
    let _ ← issue (.updateAlert row.1 {
      status := .acknowledged
      acknowledgedAt := some now
      acknowledgedBy := some user })
    return { results with updated := results.updated + 1 }
  | .resolve =>
    if row.2.status = .resolved then return { results with skipped := results.skipped + 1 }
    let _ ← issue (.updateAlert row.1 {
      status := .resolved
      resolvedAt := some now
      resolvedBy := some (some user) })
    return { results with updated := results.updated + 1 }

def bulkRoute (action : BulkAction) (user : ℕ) (ids : List ℕ) : AlertProgram (Reply × BulkResults) := do
  let accessible ← issue (.selectAlerts ids)
  if accessible.isEmpty then return (.error 404 "No accessible alerts found", ⟨0, 0⟩)
  let now ← issue .now
  let results ← accessible.foldlM (bulkRound action user now) ⟨0, 0⟩
  return (.ok, results)

inductive Call where
  | evaluateDeviceAlerts
  | evaluateDeviceAlertsFromPolicy
  | checkAutoResolve (id : ℕ)
  | checkAutoResolveFromConfigPolicy
  | processAutoResolve
  | acknowledge (user id : ℕ)
  | resolve (user id : ℕ) (note : Option String)
  | suppress (id til : ℕ)
  | bulk (action : BulkAction) (user : ℕ) (ids : List ℕ)

def Call.program (rule : Rule) : Call → AlertProgram Unit
  | evaluateDeviceAlerts => discard (Alerts.evaluateDeviceAlerts rule)
  | evaluateDeviceAlertsFromPolicy => discard (Alerts.evaluateDeviceAlertsFromPolicy rule)
  | checkAutoResolve id => discard (Alerts.checkAutoResolve rule id)
  | checkAutoResolveFromConfigPolicy => discard (Alerts.checkAutoResolveFromConfigPolicy rule)
  | processAutoResolve => discard (Alerts.processAutoResolve rule)
  | acknowledge user id => discard (acknowledgeRoute user id)
  | resolve user id note => discard (resolveRoute rule user id note)
  | suppress id til => discard (suppressRoute id til)
  | bulk action user ids => discard (bulkRoute action user ids)

def Call.isEvaluation : Call → Bool
  | evaluateDeviceAlerts | evaluateDeviceAlertsFromPolicy => true
  | _ => false

def Call.isBulk : Call → Bool
  | bulk .. => true
  | _ => false

end RemudaRmm.Alerts
