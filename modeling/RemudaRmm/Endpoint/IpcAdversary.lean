import Mathlib.Data.List.Pairwise
import RemudaRmm.Endpoint.IpcConn

/-! The helper's channel under an adversary without the key (`protocol.go`): both ends send what they like, and each is
handed any bytes as a frame. The code is ideal: a frame carries the right one only if an end has computed it to send. -/
namespace RemudaRmm.Endpoint.Ipc
open List Function Option
open Foundation JsonText

inductive Side where
  | service | helper
  deriving DecidableEq

def Side.other : Side → Side
  | .service => .helper
  | .helper => .service

/-- Both ends; `signed` is the record of the envelopes that they have sent, with their numbers and codes. -/
structure Link where
  sendSeq : Side → ℕ
  recvSeq : Side → ℕ
  signed : List (Side × Envelope)
  accepted : Side → List Envelope

def newLink : Link := ⟨fun _ => 0, fun _ => 0, [], fun _ => []⟩

inductive LinkEvent where
  | send (side : Side) (env : Envelope)
  | deliver (side : Side) (data : Bytes)

section Adversary
variable (hmacSha256 : Bytes → Bytes → Bytes) (sessionKey : Option Bytes)

/-- The number and the code that `Send` gives an envelope. -/
def signAs (seq : ℕ) (env : Envelope) : Envelope :=
  { env with seq := seq, hmac := computeHMAC hmacSha256 sessionKey { env with seq := seq } }

def linkStep (l : Link) : LinkEvent → Option Link
  | .send side env =>
    let seq := (l.sendSeq side + 1) % 2 ^ 64
    some { l with
      sendSeq := update l.sendSeq side seq
      signed := l.signed ++ [(side, signAs hmacSha256 sessionKey seq env)] }
  | .deliver side data =>
    match readFrame hmacSha256 sessionKey (l.recvSeq side) data with
    | .error _ => some l
    | .ok env =>
      some { l with
        recvSeq := update l.recvSeq side env.seq
        accepted := update l.accepted side (l.accepted side ++ [env]) }

/-- The code of what it is taken over is known: an end has computed it for an envelope that it sent. -/
def Computed (l : Link) (env : Envelope) : Prop := ∃ p ∈ l.signed, macInput p.2 = macInput env

/-- A frame that carries the code of its own content carries one that was computed. -/
def IdealCode (l : Link) : LinkEvent → Prop
  | .send .. => True
  | .deliver _ data => ∀ env ∈ unmarshal data, env.hmac = computeHMAC hmacSha256 sessionKey env → Computed l env

instance decidableIdealCode (l : Link) : ∀ event, Decidable (IdealCode hmacSha256 sessionKey l event)
  | .send .. => .isTrue trivial
  | .deliver _ data =>
    inferInstanceAs (Decidable (∀ env ∈ unmarshal data, env.hmac = computeHMAC hmacSha256 sessionKey env →
      ∃ p ∈ l.signed, macInput p.2 = macInput env))

/-- The numbers of what an end accepts increase, and all of it was computed by one of the ends. -/
structure Vouched (l : Link) : Prop where
  increasing : ∀ side, (l.accepted side).Pairwise fun first second => first.seq < second.seq
  positive : ∀ side, ∀ env ∈ l.accepted side, 0 < env.seq
  computed : ∀ side, ∀ env ∈ l.accepted side, Computed l env

/-- What an end accepts is, in its order, what the other end has sent. -/
def Authentic (l : Link) : Prop :=
  ∀ side : Side, (l.accepted side).Sublist
    ((l.signed.filter fun p => p.1 = side.other).map fun p => p.2.received)

section Steps
variable {hmacSha256 sessionKey} {l next : Link} {side : Side} {env : Envelope} {data : Bytes}

theorem readFrame_ok {recvSeq : ℕ} (read : readFrame hmacSha256 sessionKey recvSeq data = .ok env) :
    unmarshal data = some env ∧ env.hmac = computeHMAC hmacSha256 sessionKey env ∧ 0 < env.seq ∧ recvSeq < env.seq := by
  unfold readFrame at read
  cases found : unmarshal data with
  | none =>
    rw [found] at read
    cases read
  | some env' =>
    rw [found] at read
    dsimp only at read
    split_ifs at read with mismatch zero replay
    cases read
    exact ⟨rfl, not_not.mp mismatch, Nat.pos_of_ne_zero zero, Nat.lt_of_not_le replay⟩

/-- What is kept from step to step: no accepted number is above the last. -/
structure LinkSound (l : Link) : Prop extends Vouched l where
  bounded : ∀ side, ∀ env ∈ l.accepted side, env.seq ≤ l.recvSeq side

theorem Computed.append (computed : Computed l env) (p : Side × Envelope) :
    ∃ q ∈ l.signed ++ [p], macInput q.2 = macInput env := by
  obtain ⟨q, member, same⟩ := computed
  exact ⟨q, mem_append_left _ member, same⟩

theorem LinkSound.send (sound : LinkSound l) (seq : Side → ℕ) (p : Side × Envelope) :
    LinkSound { l with sendSeq := seq, signed := l.signed ++ [p] } where
  increasing := sound.increasing
  positive := sound.positive
  computed := fun side env member => (sound.computed side env member).append p
  bounded := sound.bounded

theorem LinkSound.accept (sound : LinkSound l) (computed : Computed l env) (positive : 0 < env.seq)
    (above : l.recvSeq side < env.seq) :
    LinkSound { l with
      recvSeq := update l.recvSeq side env.seq
      accepted := update l.accepted side (l.accepted side ++ [env]) } := by
  have each : ∀ (P : Side → ℕ → List Envelope → Prop), P side env.seq (l.accepted side ++ [env]) →
      (∀ s, P s (l.recvSeq s) (l.accepted s)) → ∀ s, P s (update l.recvSeq side env.seq s)
          (update l.accepted side (l.accepted side ++ [env]) s) := by
    intro P here there s
    by_cases same : s = side
    · rw [same, update_self, update_self]
      exact here
    · rw [update_of_ne same, update_of_ne same]
      exact there s
  refine ⟨⟨?_, ?_, ?_⟩, ?_⟩
  · refine each (fun _ _ accepted => accepted.Pairwise fun first second => first.seq < second.seq) ?_ sound.increasing
    refine pairwise_append.mpr ⟨sound.increasing side, pairwise_singleton _ _, ?_⟩
    intro first earlier last only
    rw [mem_singleton.mp only]
    exact lt_of_le_of_lt (sound.bounded side first earlier) above
  · refine each (fun _ _ accepted => ∀ e ∈ accepted, 0 < e.seq) ?_ sound.positive
    exact forall_mem_append.mpr ⟨sound.positive side, forall_mem_singleton.mpr positive⟩
  · refine each (fun _ _ accepted => ∀ e ∈ accepted, Computed l e) ?_ sound.computed
    exact forall_mem_append.mpr ⟨sound.computed side, forall_mem_singleton.mpr computed⟩
  · refine each (fun _ recvSeq accepted => ∀ e ∈ accepted, e.seq ≤ recvSeq) ?_ sound.bounded
    refine forall_mem_append.mpr ⟨fun e member => ?_, forall_mem_singleton.mpr (Nat.le_refl _)⟩
    exact Nat.le_of_lt (lt_of_le_of_lt (sound.bounded side e member) above)

theorem linkStep_sound {event : LinkEvent} (sound : LinkSound l) (ideal : IdealCode hmacSha256 sessionKey l event)
    (stepped : linkStep hmacSha256 sessionKey l event = some next) : LinkSound next := by
  cases event with
  | send side env =>
    rw [← some.inj stepped]
    exact sound.send _ _
  | deliver side data =>
    rw [linkStep] at stepped
    cases read : readFrame hmacSha256 sessionKey (l.recvSeq side) data with
    | error _ =>
      rw [read] at stepped
      rw [← some.inj stepped]
      exact sound
    | ok env =>
      obtain ⟨found, code, positive, above⟩ := readFrame_ok read
      rw [read] at stepped
      rw [← some.inj stepped]
      exact sound.accept (ideal env found code) positive above

theorem newLink_sound : LinkSound newLink where
  increasing := fun _ => List.Pairwise.nil
  positive := fun _ _ => nofun
  computed := fun _ _ => nofun
  bounded := fun _ _ => nofun

end Steps

end Adversary

theorem accepted_envelopes_are_vouched (hmacSha256 : Bytes → Bytes → Bytes) (sessionKey : Option Bytes)
    (events : List LinkEvent) (l : Link)
    (ideal : Meets (linkStep hmacSha256 sessionKey) (IdealCode hmacSha256 sessionKey) newLink events)
    (reached : run (linkStep hmacSha256 sessionKey) newLink events = some l) : Vouched l :=
  (run_invariant (fun _ _ _ => linkStep_sound) newLink_sound ideal reached).toVouched

def linkKey : Bytes := List.replicate 32 1

def linkHMAC (key input : Bytes) : Bytes :=
  if key = linkKey ∧ input = codes "a11ping[true]" then
    [95, 37, 10, 135, 60, 214, 19, 153, 81, 226, 139, 211, 45, 70, 174, 227, 181, 248, 56, 130, 239, 154, 8, 242,
      34, 12, 11, 178, 190, 181, 179, 88]
  else []

def sampleEnvelope : Envelope := ⟨codes "a1", 0, codes "ping", some (codes "[true]"), [], []⟩

def sentEnvelope : Envelope := signAs linkHMAC (some linkKey) 1 sampleEnvelope

/-- The last digit of the id counts for the number, and an error was added. -/
def alteredEnvelope : Envelope := { sentEnvelope with id := codes "a", seq := 11, error := codes "no" }

def honestEvents : List LinkEvent := [.send .service sampleEnvelope, .deliver .helper ((marshal sentEnvelope).getD [])]

def forgedEvents : List LinkEvent :=
  honestEvents ++
    [.deliver .helper ((marshal alteredEnvelope).getD []), .deliver .service ((marshal sentEnvelope).getD [])]

theorem honest_envelope_is_vouched :
    ∃ l, run (linkStep linkHMAC (some linkKey)) newLink honestEvents = some l ∧ l.accepted .helper = [sentEnvelope] ∧
      Vouched l := by
  have outcome : (run (linkStep linkHMAC (some linkKey)) newLink honestEvents).map (fun l => l.accepted .helper) =
      some [sentEnvelope] := by decide +kernel
  obtain ⟨l, reached, accepted⟩ := map_eq_some_iff.mp outcome
  refine ⟨l, reached, accepted, ?_⟩
  exact accepted_envelopes_are_vouched linkHMAC (some linkKey) honestEvents l (by decide +kernel) reached

/-- One envelope was sent: the helper accepts it twice, the second time altered, and its own sender accepts it too. -/
theorem altered_envelope_is_accepted :
    ∃ l, Meets (linkStep linkHMAC (some linkKey)) (IdealCode linkHMAC (some linkKey)) newLink forgedEvents ∧
      run (linkStep linkHMAC (some linkKey)) newLink forgedEvents = some l ∧
      l.signed = [(.service, sentEnvelope)] ∧ l.accepted .helper = [sentEnvelope, alteredEnvelope] ∧
      l.accepted .service = [sentEnvelope] ∧ ¬Authentic l := by
  have outcome : (run (linkStep linkHMAC (some linkKey)) newLink forgedEvents).map (fun l =>
      decide (l.signed = [(.service, sentEnvelope)] ∧ l.accepted .helper = [sentEnvelope, alteredEnvelope] ∧
        l.accepted .service = [sentEnvelope])) = some true := by decide +kernel
  obtain ⟨l, reached, decided⟩ := map_eq_some_iff.mp outcome
  obtain ⟨signed, helper, service⟩ := of_decide_eq_true decided
  refine ⟨l, by decide +kernel, reached, signed, helper, service, fun authentic => ?_⟩
  have longer := (authentic .helper).length_le
  rw [helper, signed] at longer
  exact absurd longer (by decide)

end RemudaRmm.Endpoint.Ipc
