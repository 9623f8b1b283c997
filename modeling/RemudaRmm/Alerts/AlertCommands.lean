import Mathlib.Data.List.DropRight
import Mathlib.Data.List.Nodup
import RemudaRmm.Foundation.Programs

/-! The statements and Redis commands that decide about the alerts of one rule on one device, with their answers and
writes (`services/alertService.ts`, `services/alertCooldown.ts`, `routes/alerts/alerts.ts`). Instants are
milliseconds. -/
namespace RemudaRmm.Alerts
open Foundation List

inductive AlertStatus where
  | active | acknowledged | resolved | suppressed
  deriving DecidableEq

def AlertStatus.text : AlertStatus → String
  | active => "active"
  | acknowledged => "acknowledged"
  | resolved => "resolved"
  | suppressed => "suppressed"

/-- A row of `alerts`; `cooldownMinutes` is the entry of its context. -/
structure Alert where
  status : AlertStatus
  cooldownMinutes : Option ℕ
  triggeredAt : ℕ
  (acknowledgedAt acknowledgedBy resolvedAt resolvedBy : Option ℕ)
  resolutionNote : Option String
  suppressedUntil : Option ℕ

/-- `status in ('active', 'acknowledged', 'suppressed')` -/
def Alert.IsOpen (a : Alert) : Prop := a.status ∈ [AlertStatus.active, .acknowledged, .suppressed]
  deriving Decidable

theorem Alert.isOpen_iff {a : Alert} : a.IsOpen ↔ a.status ≠ .resolved := by
  cases h : a.status <;> simp [IsOpen, h]

def Alert.triggered (cooldownMinutes now : ℕ) : Alert :=
  ⟨.active, some cooldownMinutes, now, none, none, none, none, none, none⟩

/-- The columns that an UPDATE sets; `none` where it leaves the column. -/
structure AlertChanges where
  status : AlertStatus
  acknowledgedAt : Option ℕ := none
  acknowledgedBy : Option ℕ := none
  resolvedAt : Option ℕ := none
  resolvedBy : Option (Option ℕ) := none
  resolutionNote : Option (Option String) := none
  suppressedUntil : Option ℕ := none

/-- `resolveAlert` sets every column of the resolution, to null where it is given nothing. -/
def AlertChanges.resolution (resolvedAt : ℕ) (resolutionNote : Option String) (resolvedBy : Option ℕ) :
    AlertChanges where
  status := .resolved
  resolvedAt := some resolvedAt
  resolvedBy := some resolvedBy
  resolutionNote := some resolutionNote

def Alert.set (changes : AlertChanges) (a : Alert) : Alert where
  status := changes.status
  cooldownMinutes := a.cooldownMinutes
  triggeredAt := a.triggeredAt
  acknowledgedAt := changes.acknowledgedAt <|> a.acknowledgedAt
  acknowledgedBy := changes.acknowledgedBy <|> a.acknowledgedBy
  resolvedAt := changes.resolvedAt <|> a.resolvedAt
  resolvedBy := changes.resolvedBy.getD a.resolvedBy
  resolutionNote := changes.resolutionNote.getD a.resolutionNote
  suppressedUntil := changes.suppressedUntil <|> a.suppressedUntil

@[simp] theorem Alert.status_set (changes : AlertChanges) (a : Alert) : (a.set changes).status = changes.status := rfl

/-- What the adaptive key holds. -/
structure Adaptive where
  (setAt multiplier : ℕ)

inductive AlertState where
  | triggered | resolved

structure Transition where
  state : AlertState
  timestamp : ℕ

/-- The keys of the pair: the instant the cooldown expires, the adaptive state with the instant it expires, and the
list of transitions with its own. -/
structure Redis where
  cooldown : Option ℕ
  adaptive : Option (Adaptive × ℕ)
  transitions : List Transition
  transitionsExpire : Option ℕ

namespace Redis

def cooling (now : ℕ) (redis : Redis) : Bool := redis.cooldown.any fun expires => decide (now < expires)

def adaptiveAt (now : ℕ) (redis : Redis) : Option Adaptive :=
  (redis.adaptive.filter fun entry => decide (now < entry.2)).map (·.1)

def transitionsAt (now : ℕ) (redis : Redis) : List Transition :=
  if redis.transitionsExpire.all fun expires => decide (now < expires) then redis.transitions else []

/-- A list that has expired is gone, and the next push starts one that does not expire. -/
def setTransitions (now : ℕ) (entries : List Transition) (redis : Redis) : Redis where
  cooldown := redis.cooldown
  adaptive := redis.adaptive
  transitions := entries
  transitionsExpire := redis.transitionsExpire.filter fun expires => decide (now < expires)

end Redis

inductive Command where
  | selectAlert (id : ℕ)
  | selectAlerts (ids : List ℕ)
  | selectOpenAlert
  | selectActiveAlerts
  | insertAlert (alert : Alert)
  | updateAlert (id : ℕ) (changes : AlertChanges)
  | now
  | evaluateConditions
  | evaluateAutoResolveConditions
  | maintenanceWindow
  | existsCooldown
  | getAdaptive
  | setexCooldown (seconds : ℕ)
  | setexAdaptive (seconds : ℕ) (value : Adaptive)
  | rpush (entry : Transition)
  | ltrim (keep : ℕ)
  | expire (seconds : ℕ)
  | lrange

abbrev Command.Answer : Command → Type
  | selectAlert _ => Option Alert
  | selectAlerts _ => List (ℕ × Alert)
  | selectOpenAlert => Option Alert
  | selectActiveAlerts => List ℕ
  | insertAlert _ => ℕ
  | updateAlert .. => Bool
  | now => ℕ
  | evaluateConditions => Bool
  | evaluateAutoResolveConditions => Option String
  | maintenanceWindow => Bool
  | existsCooldown => Bool
  | getAdaptive => Option Adaptive
  | setexCooldown _ => Unit
  | setexAdaptive .. => Unit
  | rpush _ => Unit
  | ltrim _ => Unit
  | expire _ => Unit
  | lrange => List Transition

abbrev AlertProgram := Program Command Command.Answer

abbrev issue (c : Command) : AlertProgram c.Answer := Program.perform c

/-- What the code finds outside these tables: whether the trigger conditions are met, the reason to resolve that
specific auto-resolve conditions give, and whether a maintenance window suppresses alerts. -/
structure Surroundings where
  triggered : Bool
  shouldResolve : Option String
  suppressAlerts : Bool

/-- The answer to a command, the row it writes, and Redis after it. -/
structure Outcome (c : Command) where
  answer : c.Answer
  write : Option (ℕ × Alert)
  redis : Redis

/-- The alerts that a statement sees, by id; ids are given out in order. -/
structure View where
  alert : ℕ → Option Alert
  count : ℕ

def View.rows (view : View) : List (ℕ × Alert) :=
  (List.range view.count).filterMap fun id => (view.alert id).map (id, ·)

theorem View.mem_rows {view : View} {id : ℕ} {a : Alert} :
    (id, a) ∈ view.rows ↔ id < view.count ∧ view.alert id = some a := by
  simp [View.rows, mem_filterMap]

theorem View.nodup_filter (view : View) (selects : ℕ × Alert → Bool) :
    ((view.rows.filter selects).map (·.1)).Nodup := by
  refine (filter_sublist.map _).nodup ?_
  rw [View.rows, map_filterMap]
  refine List.Nodup.filterMap (fun first second id => ?_) nodup_range
  simp only [Option.map_map, Option.mem_def, Option.map_eq_some_iff, Function.comp_apply]
  rintro ⟨_, _, rfl⟩ ⟨_, _, same⟩
  exact same.symm

/-- The ids where `status = 'active'`. -/
def View.activeAlerts (view : View) : List ℕ :=
  (view.rows.filter fun row => decide (row.2.status = .active)).map (·.1)

theorem View.nodup_activeAlerts (view : View) : view.activeAlerts.Nodup := view.nodup_filter _

theorem View.mem_activeAlerts {view : View} {id : ℕ} :
    id ∈ view.activeAlerts ↔ id < view.count ∧ ∃ a, view.alert id = some a ∧ a.status = .active := by
  constructor
  · intro active
    obtain ⟨row, member, rfl⟩ := List.mem_map.mp active
    obtain ⟨member, active⟩ := mem_filter.mp member
    obtain ⟨inside, found⟩ := View.mem_rows.mp member
    exact ⟨inside, row.2, found, of_decide_eq_true active⟩
  · rintro ⟨inside, a, found, active⟩
    have member := View.mem_rows.mpr ⟨inside, found⟩
    exact List.mem_map.mpr ⟨(id, a), mem_filter.mpr ⟨member, decide_eq_true active⟩, rfl⟩

def Command.outcome (view : View) (redis : Redis) (clock : ℕ) (around : Surroundings) : (c : Command) → Outcome c
  | selectAlert id => ⟨view.alert id, none, redis⟩
  | selectAlerts ids => ⟨view.rows.filter fun row => decide (row.1 ∈ ids), none, redis⟩
  | selectOpenAlert => ⟨(view.rows.find? fun row => decide row.2.IsOpen).map (·.2), none, redis⟩
  | selectActiveAlerts => ⟨view.activeAlerts, none, redis⟩
  | insertAlert alert => ⟨view.count, some (view.count, alert), redis⟩
  | updateAlert id changes => ⟨(view.alert id).isSome, (view.alert id).map fun a => (id, a.set changes), redis⟩
  | now => ⟨clock, none, redis⟩
  | evaluateConditions => ⟨around.triggered, none, redis⟩
  | evaluateAutoResolveConditions => ⟨around.shouldResolve, none, redis⟩
  | maintenanceWindow => ⟨around.suppressAlerts, none, redis⟩
  | existsCooldown => ⟨redis.cooling clock, none, redis⟩
  | getAdaptive => ⟨redis.adaptiveAt clock, none, redis⟩
  | setexCooldown seconds => ⟨(), none, { redis with cooldown := some (clock + seconds * 1000) }⟩
  | setexAdaptive seconds value => ⟨(), none, { redis with adaptive := some (value, clock + seconds * 1000) }⟩
  | rpush entry => ⟨(), none, redis.setTransitions clock (redis.transitionsAt clock ++ [entry])⟩
  | ltrim keep => ⟨(), none, redis.setTransitions clock ((redis.transitionsAt clock).rtake keep)⟩
  | expire seconds => ⟨(), none, { redis with
      transitions := redis.transitionsAt clock
      transitionsExpire := if redis.transitionsAt clock = [] then none else some (clock + seconds * 1000) }⟩
  | lrange => ⟨redis.transitionsAt clock, none, redis⟩

end RemudaRmm.Alerts
