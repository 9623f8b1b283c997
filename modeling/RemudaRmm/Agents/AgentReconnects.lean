import RemudaRmm.Agents.AgentChannel

/-! An agent that reconnects before its old connection has ended. The maps of the socket server are keyed by
agent, so that the handlers of the old connection act on what the new one has stored there. -/
namespace RemudaRmm.Agents
open Foundation Function Option AgentChannel

/-- The newest connection, while it has neither closed nor errored, is the one commands go to, and once its
`onOpen` has ended its ping state is stored and its interval runs. -/
structure Intact (d : AgentChannel) : Prop where
  active : ∀ ws, d.newest = some ws → (d.sockets ws).phase = .opened → d.active = some ws
  ping : ∀ ws, d.newest = some ws → (d.sockets ws).phase = .opened → (d.sockets ws).ready = true →
    d.pingState = some ws ∧ d.running ws = true

def ChannelCall.ends : ChannelCall → Option ℕ
  | .onClose ws | .onError ws => some ws
  | _ => none

/-- The action writes `offline` for the end of a connection that the newest one has superseded. -/
def OfflineByEarlier (w : ChannelWorld) (e : ℕ × ChannelAction) : Prop :=
  ∃ ws earlier, w.db.newest = some ws ∧ (w.db.sockets ws).phase = .opened ∧ earlier ≠ ws ∧
    (w.proc e.1).call.ends = some earlier ∧ (w.proc e.1).stage = .updating ∧ e.2 = .exec

def Harmless (w : ChannelWorld) (e : ℕ × ChannelAction) : Prop :=
  ∀ next, channelStep w e = some next → Intact next.db ∧ ¬OfflineByEarlier w e

/-- While the newest connection is open, no earlier one writes `offline`; and once its `onOpen` has ended, no
close or error of an earlier one is delivered and no earlier `onOpen` ends. -/
def Apart (w : ChannelWorld) (e : ℕ × ChannelAction) : Prop :=
  ∀ next, channelStep w e = some next → ∀ ws, w.db.newest = some ws → (w.db.sockets ws).phase = .opened →
    (∀ earlier, (w.proc e.1).call.ends = some earlier → earlier ≠ ws →
      ((w.proc e.1).stage = .start → (w.db.sockets ws).ready = false) ∧
        ((w.proc e.1).stage = .updating → e.2 = .fail)) ∧
    (∀ earlier, (w.proc e.1).call = .connect earlier → earlier ≠ ws → (w.proc e.1).stage = .welcoming →
      (w.db.sockets ws).ready = false)

section Steps
variable {d d' : AgentChannel} {p p' : ChannelProc} {action : ChannelAction}

theorem Intact.of_same (intact : Intact d) (active : d'.active = d.active) (pingState : d'.pingState = d.pingState)
    (running : d'.running = d.running) (sockets : d'.sockets = d.sockets) (newest : d'.newest = d.newest) :
    Intact d' := by
  obtain ⟨mapped, ping⟩ := intact
  rw [← active, ← newest, ← sockets] at mapped
  rw [← pingState, ← running, ← newest, ← sockets] at ping
  exact ⟨mapped, ping⟩

theorem Intact.endSocket (intact : Intact d) (earlier : ℕ) {phase : SocketPhase} (ended : phase ≠ .opened)
    (apart : ∀ ws, d.newest = some ws → (d.sockets ws).phase = .opened → earlier ≠ ws →
      (d.sockets ws).ready = false) : Intact (d.endSocket earlier phase) := by
  have newest : (d.endSocket earlier phase).newest = d.newest := by simp [AgentChannel.endSocket]
  have other : ∀ ws, ((d.endSocket earlier phase).sockets ws).phase = .opened →
      earlier ≠ ws ∧ (d.endSocket earlier phase).sockets ws = d.sockets ws := by
    intro ws opened
    by_cases same : earlier = ws
    · subst same
      simp only [AgentChannel.endSocket, update_self] at opened
      exact absurd opened ended
    · refine ⟨same, ?_⟩
      simp only [AgentChannel.endSocket, AgentChannel.sockets_clearPing]
      exact update_of_ne (Ne.symm same) _ _
  refine ⟨fun ws last opened => ?_, fun ws last opened ready => ?_⟩
  · rw [newest] at last
    obtain ⟨distinct, same⟩ := other ws opened
    rw [same] at opened
    have mapped := intact.active ws last opened
    simp only [AgentChannel.endSocket, AgentChannel.active_clearPing, mapped]
    rw [if_neg fun back => distinct (some.inj back).symm]
  · rw [newest] at last
    obtain ⟨distinct, same⟩ := other ws opened
    rw [same] at opened ready
    rw [apart ws last opened distinct] at ready
    cases ready

theorem Intact.startPing (intact : Intact d) (ws : ℕ)
    (apart : ∀ last, d.newest = some last → (d.sockets last).phase = .opened → ws ≠ last →
      (d.sockets last).ready = false) : Intact (d.startPing ws) := by
  refine ⟨fun last newest opened => ?_, fun last newest opened ready => ?_⟩
  · refine intact.active last newest ?_
    by_cases same : last = ws
    · subst same
      simpa [AgentChannel.startPing] using opened
    · simpa [AgentChannel.startPing, update_of_ne same] using opened
  · by_cases same : last = ws
    · subst same
      exact ⟨rfl, by simp [AgentChannel.startPing]⟩
    · simp only [AgentChannel.startPing, update_of_ne same] at opened ready
      rw [apart last newest opened (Ne.symm same)] at ready
      cases ready

theorem Intact.setSocket (intact : Intact d) {ws : ℕ} {socket : Socket} (unopened : socket.phase ≠ .opened) :
    Intact (d.setSocket ws socket) := by
  have other : ∀ last, ((d.setSocket ws socket).sockets last).phase = .opened →
      (d.setSocket ws socket).sockets last = d.sockets last := by
    intro last opened
    by_cases same : last = ws
    · subst same
      simp only [AgentChannel.setSocket, update_self] at opened
      exact absurd opened unopened
    · exact update_of_ne same _ _
  refine ⟨fun last newest opened => ?_, fun last newest opened ready => ?_⟩
  · have same := other last opened
    rw [same] at opened
    exact intact.active last newest opened
  · have same := other last opened
    rw [same] at opened ready
    exact intact.ping last newest opened ready

theorem Intact.begun (intact : Intact d) {call : ChannelCall} {stage : ChannelStage} {epoch : ℕ}
    (began : beginHandler d call = some (d', stage, epoch))
    (apart : ∀ ws, d.newest = some ws → (d.sockets ws).phase = .opened → ∀ earlier, call.ends = some earlier →
      earlier ≠ ws → (d.sockets ws).ready = false) : Intact d' := by
  cases call with
  | connect ws =>
    simp only [beginHandler] at began
    split_ifs at began <;> cases began
    · exact intact
    · exact intact.setSocket fun opened => by cases opened
  | heartbeat ws | updateStatus ws | restHeartbeat role | renewCert certExpired quarantinePolicy =>
    simp only [beginHandler] at began
    split_ifs at began <;> cases began <;> exact intact
  | onClose ws | onError ws =>
    simp only [beginHandler] at began
    split_ifs at began <;> cases began <;>
      exact intact.endSocket ws (by decide) fun last newest opened => apart last newest opened ws rfl
  | approve | deny =>
    obtain ⟨rfl, -⟩ := Prod.mk.inj (some.inj began)
    exact intact

end Steps

end RemudaRmm.Agents
