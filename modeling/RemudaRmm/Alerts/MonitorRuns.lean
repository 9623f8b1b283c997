import RemudaRmm.Alerts.MonitorAlerts

/-! Runs of checks of one monitor: what a check does to the open alerts of each rule, and when the alerts follow the
state of the monitor. -/
namespace RemudaRmm.Alerts
open Foundation List

namespace MonitorAlert

end MonitorAlert

namespace MonitorState
variable {s : MonitorState} {result : MonitorCheckResult} {rule : MonitorAlertRule} {device k : ℕ}

/-- The turn of a rule touches the alerts and the cooldowns of that rule alone. -/
structure SameFor (k : ℕ) (s next : MonitorState) : Prop where
  alerts : next.openAlerts k = s.openAlerts k
  cooldown : ∀ device, next.isCooldownActive k device = s.isCooldownActive k device
  failures : next.consecutiveFailures = s.consecutiveFailures

theorem SameFor.trans {a b c : MonitorState} (first : SameFor k a b) (second : SameFor k b c) : SameFor k a c where
  alerts := second.alerts.trans first.alerts
  cooldown device := (second.cooldown device).trans (first.cooldown device)
  failures := second.failures.trans first.failures

def AtMostOne (monitor : MonitorRules) (s : MonitorState) : Prop :=
  ∀ rule ∈ monitor.rules, rule.isActive → (s.openAlerts rule.id).length ≤ 1

theorem length_setStatus_le (i : ℕ) {ok : AlertStatus → Bool} {status : AlertStatus} (s : MonitorState) (k : ℕ)
    (quiet : ∀ a : MonitorAlert, ok a.status = true → MonitorAlert.openFor k { a with status } = true →
      a.openFor k = true) :
    ((s.setStatus i ok status).openAlerts k).length ≤ (s.openAlerts k).length := by
  simp only [setStatus, openAlerts]
  induction s.alerts generalizing i with
  | nil => simp
  | cons a alerts ih =>
    cases i with
    | zero =>
      simp only [modify_zero_cons, filter_cons]
      by_cases allowed : ok a.status = true
      · rw [if_pos allowed]
        by_cases isOpen : MonitorAlert.openFor k { a with status } = true
        · rw [if_pos isOpen, if_pos (quiet a allowed isOpen), length_cons, length_cons]
        · rw [if_neg isOpen]
          split_ifs
          · exact Nat.le_succ _
          · exact le_rfl
      · rw [if_neg allowed]
    | succ i =>
      simp only [modify_succ_cons, filter_cons]
      split_ifs
      · exact Nat.succ_le_succ (ih i)
      · exact ih i

theorem AtMostOne.step {monitor : MonitorRules} {event : MonitorEvent} (one : s.AtMostOne monitor)
    (right : s.FollowsAfter monitor event) : (s.step monitor event).AtMostOne monitor := by
  cases event with
  | check result => exact fun rule member active => (right rule member active).1
  | tick | deviceSeen | enroll | linkAsset => exact one
  | store devices =>
    simp only [MonitorState.step]
    split_ifs <;> exact one
  | acknowledge i =>
    refine fun rule member active => le_trans (length_setStatus_le i s rule.id fun a allowed isOpen => ?_)
      (one rule member active)
    obtain ⟨mine, -⟩ := of_decide_eq_true isOpen
    exact decide_eq_true ⟨mine, .inl (of_decide_eq_true allowed)⟩
  | resolve i | suppress i =>
    refine fun rule member active => le_trans (length_setStatus_le i s rule.id fun a _ isOpen => ?_)
      (one rule member active)
    simp [MonitorAlert.openFor] at isOpen

end MonitorState

def twoDevices : List MonitorDevice := [⟨0, 0, some 1, 0⟩, ⟨1, 0, some 2, 0⟩]

/-- The monitor is offline, another device comes online, and the monitor recovers. -/
def recovered : List MonitorEvent := [.check ⟨.offline, 0⟩, .tick 10, .deviceSeen 0, .check ⟨.online, 20⟩]

end RemudaRmm.Alerts
