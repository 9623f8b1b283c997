import Mathlib.Order.Basic
import RemudaRmm.Foundation.ReadCommitted

/-! The agent channel of one device: the WebSocket handlers of `agentWs.ts`, the REST heartbeat, and the certificate
renewal and approval routes of `mtls.ts`. A handler runs to its next `await` in one action, where the handlers of all
connections interleave. Every write of the status is an unconditional update by id, taken at its commit. -/
namespace RemudaRmm.Agents
open Foundation Function Option

inductive DeviceStatus where
  | online
  | offline
  | maintenance
  | decommissioned
  | quarantined
  | updating
  | pending
  deriving DecidableEq

/-- The statuses that `validateAgentToken`, `agentAuthMiddleware` and `renew-cert` refuse. -/
def DeviceStatus.Contained (s : DeviceStatus) : Prop := s = .quarantined ∨ s = .decommissioned
  deriving Decidable

inductive AgentCredentialRole where
  | agent
  | watchdog
  deriving DecidableEq

inductive SocketPhase where
  | unknown
  | validated
  | opened
  | errored
  | closed
  deriving DecidableEq

/-- One WebSocket connection. `ready` once `onOpen` has run to its end; `epoch` counts the
containments of the device that came before the token was validated. -/
structure Socket where
  phase : SocketPhase
  ready : Bool
  epoch : ℕ

inductive ChannelCall where
  | connect (ws : ℕ)
  | heartbeat (ws : ℕ)
  | updateStatus (ws : ℕ)
  | onClose (ws : ℕ)
  | onError (ws : ℕ)
  | restHeartbeat (role : AgentCredentialRole)
  | renewCert (certExpired quarantinePolicy : Bool)
  | approve
  | deny

inductive ChannelStage where
  | start
  | validated
  | selecting
  | updating
  | welcoming
  | done
  | refused
  deriving DecidableEq

/-- A handler, and the containments before the check that admitted it. -/
structure ChannelProc where
  call : ChannelCall
  stage : ChannelStage
  epoch : ℕ

/-- What the handlers share: the status column, the entries of `activeConnections` and
`agentPingStates` for the agent, the intervals that have not been cleared, and the history of the
connections. A ping interval goes by the connection whose `onOpen` set it. -/
structure AgentChannel where
  status : DeviceStatus
  (active pingState : Option ℕ)
  running : ℕ → Bool
  sockets : ℕ → Socket
  newest : Option ℕ
  containments : ℕ

def ChannelCall.writes : ChannelCall → DeviceStatus
  | .connect _ => .online
  | .heartbeat _ => .online
  | .updateStatus _ => .updating
  | .onClose _ => .offline
  | .onError _ => .offline
  | .restHeartbeat _ => .online
  | .renewCert _ _ => .quarantined
  | .approve => .online
  | .deny => .decommissioned

/-- `onOpen` goes on to welcome the agent; the other handlers end with their update. -/
def ChannelCall.afterUpdate : ChannelCall → ChannelStage
  | .connect _ => .welcoming
  | _ => .done

def ChannelCall.Admin : ChannelCall → Prop
  | .approve | .deny => True
  | _ => False

instance ChannelCall.decidableAdmin (call : ChannelCall) : Decidable call.Admin := by
  cases call <;> first | exact isTrue trivial | exact isFalse id

namespace AgentChannel

def setStatus (status : DeviceStatus) (d : AgentChannel) : AgentChannel :=
  { d with status, containments := if status.Contained then d.containments + 1 else d.containments }

def setSocket (ws : ℕ) (socket : Socket) (d : AgentChannel) : AgentChannel :=
  { d with sockets := update d.sockets ws socket }

/-- Clear the interval of the ping state, whichever connection set it, and drop the state. -/
def clearPing (d : AgentChannel) : AgentChannel :=
  match d.pingState with
  | some owner => { d with running := update d.running owner false, pingState := none }
  | none => d

/-- The part of `onOpen` before its first `await`. -/
def openSocket (ws : ℕ) (d : AgentChannel) : AgentChannel :=
  let cleared := d.clearPing
  { cleared with
    active := some ws, newest := some ws
    sockets := update cleared.sockets ws { cleared.sockets ws with phase := .opened, ready := false } }

/-- The part of `onOpen` after its last `await`. -/
def startPing (ws : ℕ) (d : AgentChannel) : AgentChannel :=
  { d with
    running := update d.running ws true, pingState := some ws
    sockets := update d.sockets ws { d.sockets ws with ready := true } }

/-- The part of `onClose` and `onError` before the first `await`. -/
def endSocket (ws : ℕ) (phase : SocketPhase) (d : AgentChannel) : AgentChannel :=
  let cleared := d.clearPing
  { cleared with
    active := if cleared.active = some ws then none else cleared.active
    sockets := update cleared.sockets ws { cleared.sockets ws with phase } }

end AgentChannel

inductive ChannelAction where
  | exec
  | fail
  deriving DecidableEq

/-- The first action of a handler: the check that admits it, or the delivery of the socket's event. -/
def beginHandler (d : AgentChannel) : ChannelCall → Option (AgentChannel × ChannelStage × ℕ)
  | .connect ws =>
    if (d.sockets ws).phase ≠ .unknown then none
    else if d.status.Contained then some (d, .refused, 0)
    else some (d.setSocket ws ⟨.validated, false, d.containments⟩, .validated, d.containments)
  | .heartbeat ws | .updateStatus ws =>
    if (d.sockets ws).phase = .opened then some (d, .updating, (d.sockets ws).epoch) else none
  | .onClose ws =>
    if (d.sockets ws).phase = .opened ∨ (d.sockets ws).phase = .errored then
      some (d.endSocket ws .closed, if d.active = some ws then .selecting else .done, (d.sockets ws).epoch)
    else none
  | .onError ws =>
    if (d.sockets ws).phase = .opened ∨ (d.sockets ws).phase = .errored then
      some (d.endSocket ws .errored, .selecting, (d.sockets ws).epoch)
    else none
  | .restHeartbeat role =>
    if d.status.Contained then some (d, .refused, 0)
    else some (d, if role = .watchdog then .done else .updating, d.containments)
  | .renewCert certExpired quarantinePolicy =>
    if d.status.Contained then some (d, .refused, 0)
    else some (d, if certExpired && quarantinePolicy then .updating else .done, d.containments)
  | .approve | .deny =>
    some (d, if d.status = .quarantined then .updating else .refused, d.containments)

/-- An update that fails is logged and swallowed; the read before an `offline` falls back to writing it. -/
def channelAct (_ : ℕ) (action : ChannelAction) (d : AgentChannel) (p : ChannelProc) :
    Option (AgentChannel × ChannelProc) :=
  match p.stage, action with
  | .start, .exec => (beginHandler d p.call).map fun s => (s.1, ⟨p.call, s.2.1, s.2.2⟩)
  | .validated, .exec =>
    match p.call with
    | .connect ws => some (d.openSocket ws, { p with stage := .updating })
    | _ => none
  | .selecting, .exec => some (d, { p with stage := if d.status = .updating then .done else .updating })
  | .selecting, .fail => some (d, { p with stage := .updating })
  | .updating, .exec => some (d.setStatus p.call.writes, { p with stage := p.call.afterUpdate })
  | .updating, .fail => some (d, { p with stage := p.call.afterUpdate })
  | .welcoming, .exec =>
    match p.call with
    | .connect ws => some (d.startPing ws, { p with stage := .done })
    | _ => none
  | _, _ => none

abbrev ChannelWorld := World ℕ AgentChannel ChannelProc

def channelStep : ChannelWorld → ℕ × ChannelAction → Option ChannelWorld := World.step channelAct

/-- Everything one action of a handler can do. -/
inductive ChannelMove (d : AgentChannel) (p : ChannelProc) : ChannelAction → AgentChannel → ChannelProc → Prop where
  | begun {d' : AgentChannel} {stage : ChannelStage} {epoch : ℕ} (fresh : p.stage = .start)
      (began : beginHandler d p.call = some (d', stage, epoch)) : ChannelMove d p .exec d' ⟨p.call, stage, epoch⟩
  | opened {ws : ℕ} (admitted : p.stage = .validated) (called : p.call = .connect ws) :
      ChannelMove d p .exec (d.openSocket ws) { p with stage := .updating }
  | selected {action : ChannelAction} {stage : ChannelStage} (reading : p.stage = .selecting)
      (outcome : stage = .done ∨ stage = .updating) : ChannelMove d p action d { p with stage }
  | updated (writing : p.stage = .updating) :
      ChannelMove d p .exec (d.setStatus p.call.writes) { p with stage := p.call.afterUpdate }
  | swallowed (writing : p.stage = .updating) : ChannelMove d p .fail d { p with stage := p.call.afterUpdate }
  | welcomed {ws : ℕ} (marked : p.stage = .welcoming) (called : p.call = .connect ws) :
      ChannelMove d p .exec (d.startPing ws) { p with stage := .done }

theorem channelAct_moves {t : ℕ} {action : ChannelAction} {d d' : AgentChannel} {p p' : ChannelProc}
    (acted : channelAct t action d p = some (d', p')) : ChannelMove d p action d' p' := by
  unfold channelAct at acted
  split at acted
  next fresh =>
    obtain ⟨⟨d'', stage, epoch⟩, began, same⟩ := map_eq_some_iff.mp acted
    cases same
    exact .begun fresh began
  next admitted =>
    split at acted
    next ws called =>
      exact of_some_eq acted (.opened admitted called)
    next => cases acted
  next reading =>
    exact of_some_eq acted (.selected reading (by split_ifs <;> simp))
  next reading =>
    exact of_some_eq acted (.selected reading (.inr rfl))
  next writing =>
    exact of_some_eq acted (.updated writing)
  next writing =>
    exact of_some_eq acted (.swallowed writing)
  next marked =>
    split at acted
    next ws called =>
      exact of_some_eq acted (.welcomed marked called)
    next => cases acted
  next => cases acted

theorem channelStep_moves {w next : ChannelWorld} {e : ℕ × ChannelAction} (stepped : channelStep w e = some next) :
    ∃ d p, ChannelMove w.db (w.proc e.1) e.2 d p ∧ next = ⟨d, update w.proc e.1 p⟩ := by
  obtain ⟨d, p, acted, rfl⟩ := World.step_eq_some stepped
  exact ⟨d, p, channelAct_moves acted, rfl⟩

/-- Nothing has happened on the channel yet; a device that is contained already counts as contained once. -/
structure Unopened (w : ChannelWorld) : Prop where
  begun : ∀ t, (w.proc t).stage = .start ∧ (w.proc t).epoch = 0
  sockets : ∀ ws, w.db.sockets ws = ⟨.unknown, false, 0⟩
  newest : w.db.newest = none
  counted : w.db.status.Contained → 0 < w.db.containments

/-- A step other than an administrator's leaves a contained status as it is. -/
def Sticky (w : ChannelWorld) (e : ℕ × ChannelAction) : Prop :=
  ∀ next, channelStep w e = some next → ¬(w.proc e.1).call.Admin → w.db.status.Contained → next.db.status = w.db.status

/-- No handler that was admitted before the device was contained changes the status of the contained device. -/
def NoneOutlives (w : ChannelWorld) (e : ℕ × ChannelAction) : Prop :=
  (w.proc e.1).stage = .updating → e.2 = .exec → ¬(w.proc e.1).call.Admin → (w.proc e.1).call.writes ≠ w.db.status →
    w.db.status.Contained → ¬(w.proc e.1).epoch < w.db.containments

/-- A check at this epoch was made before the device was contained, if it is. -/
structure AgentChannel.Behind (d : AgentChannel) (epoch : ℕ) : Prop where
  le : epoch ≤ d.containments
  lt : d.status.Contained → epoch < d.containments

/-- Whatever was admitted was admitted before the device was contained, if it is. -/
structure AdmittedBefore (w : ChannelWorld) : Prop where
  handlers : ∀ t, ¬(w.proc t).call.Admin → w.db.Behind (w.proc t).epoch
  sockets : ∀ ws, w.db.Behind (w.db.sockets ws).epoch

namespace AgentChannel
variable {d : AgentChannel} {epoch : ℕ}

theorem behind_now (free : ¬d.status.Contained) : d.Behind d.containments :=
  ⟨Nat.le_refl _, fun contained => absurd contained free⟩

theorem Behind.setStatus (behind : d.Behind epoch) (status : DeviceStatus) : (d.setStatus status).Behind epoch := by
  have le := behind.le
  unfold AgentChannel.setStatus
  by_cases contained : status.Contained
  · refine ⟨?_, fun _ => ?_⟩ <;> simp only [if_pos contained] <;> omega
  · refine ⟨?_, fun also => absurd also contained⟩
    simp only [if_neg contained]
    exact le

@[simp] theorem status_clearPing (d : AgentChannel) : d.clearPing.status = d.status := by
  unfold clearPing
  split <;> rfl

@[simp] theorem containments_clearPing (d : AgentChannel) : d.clearPing.containments = d.containments := by
  unfold clearPing
  split <;> rfl

@[simp] theorem sockets_clearPing (d : AgentChannel) : d.clearPing.sockets = d.sockets := by
  unfold clearPing
  split <;> rfl

@[simp] theorem active_clearPing (d : AgentChannel) : d.clearPing.active = d.active := by
  unfold clearPing
  split <;> rfl

@[simp] theorem newest_clearPing (d : AgentChannel) : d.clearPing.newest = d.newest := by
  unfold clearPing
  split <;> rfl

@[simp] theorem pingState_clearPing (d : AgentChannel) : d.clearPing.pingState = none := by
  unfold clearPing
  split
  · rfl
  next absent => exact absent

theorem Behind.of_same {next : AgentChannel} (behind : d.Behind epoch) (status : next.status = d.status)
    (containments : next.containments = d.containments) : next.Behind epoch := by
  refine ⟨containments ▸ behind.le, fun contained => ?_⟩
  rw [containments]
  exact behind.lt (status ▸ contained)

end AgentChannel

/-- What an action does to the checks behind the containment: those that stood behind it still do, and so does
the socket or the handler it admits. -/
structure KeepsBehind (d : AgentChannel) (d' : AgentChannel) (p' : ChannelProc) : Prop where
  stands : ∀ epoch, d.Behind epoch → d'.Behind epoch
  sockets : ∀ ws, d'.Behind (d'.sockets ws).epoch
  handler : ¬p'.call.Admin → d'.Behind p'.epoch

section Admission
variable {d d' : AgentChannel} {p p' : ChannelProc}

theorem keepsBehind_same (sockets : ∀ ws, d.Behind (d.sockets ws).epoch)
    (handler : ¬p'.call.Admin → d.Behind p'.epoch) : KeepsBehind d d p' :=
  ⟨fun _ behind => behind, sockets, handler⟩

theorem keepsBehind_socket (ws : ℕ) (socket : Socket) (sockets : ∀ ws, d.Behind (d.sockets ws).epoch)
    (status : d'.status = d.status) (containments : d'.containments = d.containments)
    (changed : d'.sockets = update d.sockets ws socket) (behind : d.Behind socket.epoch)
    (handler : ¬p'.call.Admin → d.Behind p'.epoch) : KeepsBehind d d' p' := by
  refine ⟨fun _ before => before.of_same status containments, fun other => ?_, fun agent => ?_⟩
  · rw [changed]
    by_cases same : other = ws
    · subst same
      rw [update_self]
      exact behind.of_same status containments
    · rw [update_of_ne same]
      exact (sockets other).of_same status containments
  · exact (handler agent).of_same status containments

theorem keepsBehind_begun {stage : ChannelStage} {epoch : ℕ} (sockets : ∀ ws, d.Behind (d.sockets ws).epoch)
    {call : ChannelCall} (began : beginHandler d call = some (d', stage, epoch)) :
    KeepsBehind d d' ⟨call, stage, epoch⟩ := by
  have zero : d.Behind 0 := ⟨Nat.zero_le _, fun contained => Nat.zero_lt_of_lt ((sockets 0).lt contained)⟩
  have delivered : ∀ ws phase, KeepsBehind d (d.endSocket ws phase) ⟨call, stage, (d.sockets ws).epoch⟩ := by
    intro ws phase
    refine keepsBehind_socket ws { d.sockets ws with phase } sockets ?_ ?_ ?_ (sockets ws) fun _ => sockets ws
    · simp [AgentChannel.endSocket]
    · simp [AgentChannel.endSocket]
    · simp [AgentChannel.endSocket]
  cases call with
  | connect ws =>
    simp only [beginHandler] at began
    split_ifs at began with known contained <;> cases began
    · exact keepsBehind_same sockets fun _ => zero
    · exact keepsBehind_socket ws _ sockets rfl rfl rfl (AgentChannel.behind_now contained)
        fun _ => AgentChannel.behind_now contained
  | heartbeat ws | updateStatus ws =>
    simp only [beginHandler] at began
    split_ifs at began with live
    cases began
    exact keepsBehind_same sockets fun _ => sockets ws
  | onClose ws =>
    simp only [beginHandler] at began
    split_ifs at began with live <;> cases began <;> exact delivered ws .closed
  | onError ws =>
    simp only [beginHandler] at began
    split_ifs at began with live
    cases began
    exact delivered ws .errored
  | restHeartbeat role | renewCert certExpired quarantinePolicy =>
    simp only [beginHandler] at began
    split_ifs at began with contained <;> cases began
    · exact keepsBehind_same sockets fun _ => zero
    · exact keepsBehind_same sockets fun _ => AgentChannel.behind_now contained
    · exact keepsBehind_same sockets fun _ => AgentChannel.behind_now contained
  | approve | deny =>
    obtain ⟨rfl, -⟩ := Prod.mk.inj (some.inj began)
    exact keepsBehind_same sockets fun agent => absurd trivial agent

theorem ChannelMove.keepsBehind {action : ChannelAction} (move : ChannelMove d p action d' p')
    (sockets : ∀ ws, d.Behind (d.sockets ws).epoch) (handler : ¬p.call.Admin → d.Behind p.epoch) :
    KeepsBehind d d' p' := by
  cases move with
  | begun fresh began => exact keepsBehind_begun sockets began
  | @opened ws admitted called =>
    refine keepsBehind_socket ws { d.sockets ws with phase := .opened, ready := false } sockets ?_ ?_ ?_ (sockets ws)
      handler
    · simp [AgentChannel.openSocket]
    · simp [AgentChannel.openSocket]
    · simp [AgentChannel.openSocket]
  | selected reading outcome | swallowed writing => exact keepsBehind_same sockets handler
  | updated writing =>
    refine ⟨fun _ before => before.setStatus _, fun ws => (sockets ws).setStatus _, fun agent => ?_⟩
    exact (handler agent).setStatus _
  | @welcomed ws marked called =>
    exact keepsBehind_socket ws { d.sockets ws with ready := true } sockets rfl rfl rfl (sockets ws) handler

theorem AdmittedBefore.step {w next : ChannelWorld} {e : ℕ × ChannelAction} (before : AdmittedBefore w)
    (stepped : channelStep w e = some next) : AdmittedBefore next := by
  obtain ⟨d, p, move, rfl⟩ := channelStep_moves stepped
  have kept := move.keepsBehind before.sockets (before.handlers e.1)
  refine ⟨?_, kept.sockets⟩
  apply (forall_update_iff w.proc (p := fun _ q => ¬q.call.Admin → d.Behind q.epoch)).mpr
  exact ⟨kept.handler, fun t _ agent => kept.stands _ (before.handlers t agent)⟩

theorem Unopened.admittedBefore {w : ChannelWorld} (unopened : Unopened w) : AdmittedBefore w := by
  have zero : w.db.Behind 0 := ⟨Nat.zero_le _, unopened.counted⟩
  refine ⟨fun t _ => ?_, fun ws => ?_⟩
  · rw [(unopened.begun t).2]
    exact zero
  · rw [unopened.sockets ws]
    exact zero

theorem ChannelMove.status {action : ChannelAction} (move : ChannelMove d p action d' p') :
    d'.status = d.status ∨ (p.stage = .updating ∧ action = .exec ∧ d'.status = p.call.writes) := by
  cases move with
  | begun fresh began =>
    left
    generalize p.call = call at began
    cases call <;> simp only [beginHandler] at began <;> split_ifs at began <;> cases began <;>
      simp [AgentChannel.endSocket, AgentChannel.setSocket]
  | opened admitted called => simp [AgentChannel.openSocket]
  | selected reading outcome | swallowed writing | welcomed marked called => exact .inl rfl
  | updated writing => exact .inr ⟨writing, rfl, rfl⟩

theorem sticky_iff_noneOutlives {w : ChannelWorld} (before : AdmittedBefore w) (e : ℕ × ChannelAction) :
    Sticky w e ↔ NoneOutlives w e := by
  constructor
  · intro sticky writing executed agent changes contained _
    have stepped : channelStep w e = some
        ⟨w.db.setStatus (w.proc e.1).call.writes, update w.proc e.1
          { w.proc e.1 with stage := (w.proc e.1).call.afterUpdate }⟩ := by
      simp [channelStep, World.step, channelAct, writing, executed]
    exact changes (sticky _ stepped agent contained)
  · intro none_outlives next stepped agent contained
    obtain ⟨d, p, move, rfl⟩ := channelStep_moves stepped
    rcases move.status with same | ⟨writing, executed, written⟩
    · exact same
    · by_contra changed
      have changes : (w.proc e.1).call.writes ≠ w.db.status := fun same => changed (written.trans same)
      exact none_outlives writing executed agent changes contained ((before.handlers e.1 agent).lt contained)

end Admission

/-- In any interleaving, only an administrator changes the status of a contained device, exactly when no handler
of a connection or request that was let in before the device was contained writes the status while it is. -/
theorem containment_sticky_iff {w : ChannelWorld} (unopened : Unopened w) (es : List (ℕ × ChannelAction)) :
    Meets channelStep Sticky w es ↔ Meets channelStep NoneOutlives w es :=
  meets_congr (fun _ _ _ before _ stepped => before.step stepped) (fun _ e before => sticky_iff_noneOutlives before e)
    unopened.admittedBefore

/-- An online device on whose channel nothing has happened, and the handlers to come. -/
def onlineChannel (calls : ℕ → ChannelCall) : ChannelWorld where
  db := {
    status := .online, active := none, pingState := none, running := fun _ => false
    sockets := fun _ => ⟨.unknown, false, 0⟩, newest := none, containments := 0 }
  proc t := ⟨calls t, .start, 0⟩

theorem unopened_onlineChannel (calls : ℕ → ChannelCall) : Unopened (onlineChannel calls) where
  begun _ := ⟨rfl, rfl⟩
  sockets _ := rfl
  newest := rfl
  counted contained := by rcases contained with never | never <;> cases never

def actionsOf (t n : ℕ) : List (ℕ × ChannelAction) := List.replicate n (t, .exec)

/-- A connection, a renewal with an expired certificate, and a heartbeat on the connection. -/
def quarantineCalls : ℕ → ChannelCall
  | 0 => .connect 0
  | 1 => .renewCert true true
  | _ => .heartbeat 0

/-- The device is quarantined while nothing is connected, and then refuses the connection. -/
theorem containment_sticky_refused :
    Meets channelStep Sticky (onlineChannel quarantineCalls) (actionsOf 1 2 ++ actionsOf 0 1) := by
  refine (containment_sticky_iff (unopened_onlineChannel _) _).mpr ⟨?_, fun quarantining first => ⟨?_, ?_⟩⟩
  · intro writing
    cases writing
  · cases first
    intro _ _ _ _ contained
    exact absurd contained (by decide)
  · intro quarantined second
    cases first
    cases second
    refine ⟨?_, fun _ _ => trivial⟩
    intro writing
    cases writing

/-- A heartbeat on a connection that outlives the quarantine puts the device back online. -/
theorem heartbeat_lifts_quarantine : ¬Meets channelStep Sticky (onlineChannel quarantineCalls)
      ((actionsOf 0 4 ++ actionsOf 1 2 ++ actionsOf 2 1) ++ actionsOf 2 1) := by
  intro meets
  have last := meets.drop rfl
  exact absurd (last.1 _ rfl (by decide) (by decide)) (by decide)

end RemudaRmm.Agents
