import RemudaRmm.Alerts.AlertCommands
import RemudaRmm.Foundation.NumberText
import RemudaRmm.Foundation.Runs

/-! Network monitors and their alerts (`jobs/monitorWorker.ts`): the device that an alert hangs on, the conditions of
the rules, and the checks of one monitor, one after another, while the devices of its organisation change. -/
namespace RemudaRmm.Alerts
open Foundation

inductive MonitorStatus where
  | online | offline | degraded
  deriving DecidableEq

structure MonitorCheckResult where
  status : MonitorStatus
  responseMs : ℚ

inductive MonitorCondition where
  | offline
  | degraded
  | responseTimeGt
  | consecutiveFailuresGt
  | unsupported (condition : String)

structure MonitorAlertRule where
  id : ℕ
  condition : MonitorCondition
  threshold : Option String
  isActive : Bool

/-- The alert rules of a monitor. -/
structure MonitorRules where
  rules : List MonitorAlertRule
  distinct : (rules.map MonitorAlertRule.id).Nodup

structure MonitorDevice where
  (id siteId : ℕ)
  lastSeenAt : Option ℕ
  enrolledAt : ℕ
  deriving DecidableEq

structure MonitorAsset where
  linkedDeviceId : Option ℕ
  siteId : ℕ

/-- An alert whose context names the monitor and the rule. -/
structure MonitorAlert where
  (deviceId alertRuleId : ℕ)
  status : AlertStatus

/-- Instants are milliseconds; a cooldown goes by rule and device, and holds the instant at which it expires. -/
structure MonitorState where
  consecutiveFailures : ℕ
  alerts : List MonitorAlert
  cooldown : ℕ → ℕ → Option ℕ
  devices : List MonitorDevice
  asset : Option MonitorAsset
  clock : ℕ

def MONITOR_ALERT_COOLDOWN_MINUTES : ℕ := 5

def parseNumericThreshold (threshold : Option String) : Option ℚ :=
  threshold.bind fun text =>
    if trimBy (fun c => isSpaceCode c.toNat) text.toList = [] then none else toNumber text.toList

/-- `ORDER BY last_seen_at DESC, enrolled_at DESC`, where a device that has never been seen comes first. -/
def MonitorDevice.precedes (d e : MonitorDevice) : Bool :=
  match d.lastSeenAt, e.lastSeenAt with
  | none, some _ => true
  | some _, none => false
  | none, none => decide (e.enrolledAt < d.enrolledAt)
  | some a, some b => decide (b < a ∨ a = b ∧ e.enrolledAt < d.enrolledAt)

/-- The first row of the order; of equals, the one that is stored first. -/
def firstDevice (devices : List MonitorDevice) : Option ℕ :=
  (devices.find? fun d => devices.all fun e => !e.precedes d).map MonitorDevice.id

def resolveMonitorAlertDevice (s : MonitorState) : Option ℕ :=
  match s.asset with
  | none => firstDevice s.devices
  | some asset =>
    match asset.linkedDeviceId with
    | some id => some id
    | none => (firstDevice (s.devices.filter fun d => d.siteId = asset.siteId)).or (firstDevice s.devices)

def conditionMatched (rule : MonitorAlertRule) (result : MonitorCheckResult) (consecutiveFailures : ℕ) : Bool :=
  match rule.condition with
  | .offline => decide (result.status = .offline)
  | .degraded => decide (result.status = .degraded)
  | .responseTimeGt =>
    (parseNumericThreshold rule.threshold).any fun threshold => decide (threshold < result.responseMs)
  | .consecutiveFailuresGt =>
    (parseNumericThreshold rule.threshold).any fun threshold => decide (threshold < (consecutiveFailures : ℚ))
  | .unsupported _ => false

namespace MonitorAlert

/-- `status in ('active', 'acknowledged')`, with the rule in the context. -/
def openFor (rule : ℕ) (a : MonitorAlert) : Bool :=
  decide (a.alertRuleId = rule ∧ (a.status = .active ∨ a.status = .acknowledged))

end MonitorAlert

namespace MonitorState

def isCooldownActive (s : MonitorState) (rule device : ℕ) : Bool :=
  (s.cooldown rule device).any fun expires => decide (s.clock < expires)

/-- The rows that `resolveAlert` is called for. -/
def resolveAlerts (rule device : ℕ) (s : MonitorState) : MonitorState :=
  { s with
    alerts := s.alerts.map fun a => if a.openFor rule ∧ a.deviceId = device then { a with status := .resolved } else a }

def raiseAlert (rule device : ℕ) (s : MonitorState) : MonitorState :=
  { s with
    alerts := s.alerts ++ [⟨device, rule, .active⟩]
    cooldown := Function.update s.cooldown rule
      (Function.update (s.cooldown rule) device (some (s.clock + MONITOR_ALERT_COOLDOWN_MINUTES * 60000))) }

def evaluateRule (result : MonitorCheckResult) (device : ℕ) (s : MonitorState) (rule : MonitorAlertRule) :
    MonitorState :=
  let matched := conditionMatched rule result s.consecutiveFailures
  let matchingAlerts := s.alerts.filter fun a => a.openFor rule.id ∧ a.deviceId = device
  if matched ∧ matchingAlerts ≠ [] then s
  else if ¬matched then s.resolveAlerts rule.id device
  else if s.isCooldownActive rule.id device then s
  else s.raiseAlert rule.id device

def evaluateMonitorAlertRules (rules : List MonitorAlertRule) (result : MonitorCheckResult) (s : MonitorState) :
    MonitorState :=
  match resolveMonitorAlertDevice s with
  | none => s
  | some device => (rules.filter (·.isActive)).foldl (evaluateRule result device) s

def recordMonitorCheckResult (rules : List MonitorAlertRule) (result : MonitorCheckResult) (s : MonitorState) :
    MonitorState :=
  let consecutiveFailures := if result.status = .offline then s.consecutiveFailures + 1 else 0
  evaluateMonitorAlertRules rules result { s with consecutiveFailures }

/-- A user acknowledges, resolves or suppresses the alert with the given place in the table. -/
def setStatus (i : ℕ) (ok : AlertStatus → Bool) (status : AlertStatus) (s : MonitorState) : MonitorState :=
  { s with alerts := s.alerts.modify i fun a => if ok a.status then { a with status } else a }

end MonitorState

/-- A check, or something that goes on between the checks. `store` lays the rows of the devices down in another order,
as updates of them do. -/
inductive MonitorEvent where
  | check (result : MonitorCheckResult)
  | tick (elapsed : ℕ)
  | deviceSeen (id : ℕ)
  | enroll (id siteId : ℕ) (lastSeenAt : Option ℕ)
  | linkAsset (deviceId : Option ℕ)
  | store (devices : List MonitorDevice)
  | acknowledge (i : ℕ)
  | resolve (i : ℕ)
  | suppress (i : ℕ)

namespace MonitorState

def step (monitor : MonitorRules) (s : MonitorState) : MonitorEvent → MonitorState
  | .check result => s.recordMonitorCheckResult monitor.rules result
  | .tick elapsed => { s with clock := s.clock + elapsed }
  | .deviceSeen id =>
    { s with devices := s.devices.map fun d => if d.id = id then { d with lastSeenAt := some s.clock } else d }
  | .enroll id siteId lastSeenAt => { s with devices := s.devices ++ [⟨id, siteId, lastSeenAt, s.clock⟩] }
  | .linkAsset deviceId => { s with asset := s.asset.map fun asset => { asset with linkedDeviceId := deviceId } }
  | .store devices => if devices.isPerm s.devices then { s with devices } else s
  | .acknowledge i => s.setStatus i (fun status => status = .active) .acknowledged
  | .resolve i => s.setStatus i (fun status => status ≠ .resolved) .resolved
  | .suppress i => s.setStatus i (fun status => status ≠ .resolved) .suppressed

def start (devices : List MonitorDevice) (asset : Option MonitorAsset) (clock : ℕ) : MonitorState where
  consecutiveFailures := 0
  alerts := []
  cooldown _ _ := none
  devices := devices
  asset := asset
  clock := clock

def openAlerts (s : MonitorState) (rule : ℕ) : List MonitorAlert := s.alerts.filter (·.openFor rule)

/-- One open alert for each active rule at most, and none where the rule does not match the result. -/
def Follows (monitor : MonitorRules) (result : MonitorCheckResult) (s : MonitorState) : Prop :=
  ∀ rule ∈ monitor.rules, rule.isActive →
    (s.openAlerts rule.id).length ≤ 1 ∧
    (conditionMatched rule result s.consecutiveFailures = false → s.openAlerts rule.id = [])

def FollowsAfter (monitor : MonitorRules) (s : MonitorState) : MonitorEvent → Prop
  | .check result => (s.step monitor (.check result)).Follows monitor result
  | _ => True

end MonitorState

end RemudaRmm.Alerts
