import Mathlib.Data.List.Pairwise
import Mathlib.Data.List.Nodup
import RemudaRmm.Endpoint.IpcConn

/-! Delivery on the helper's channel: what holds of the frames on their way, one lemma for each step, and what arrives in
runs whose steps are safe. -/
namespace RemudaRmm.Endpoint.Ipc
open List Option
open Foundation JsonText

namespace Stage

def inside : Stage → Bool
  | locked .. | headed .. | written .. => true
  | _ => false

/-- The envelope of which the bytes are still to be written, by a call that has the mutex. -/
def owed : Stage → Option Envelope
  | locked env _ | headed env _ => some env
  | _ => none

def frame : Stage → Option (Envelope × Bytes)
  | written env data | returned env data => some (env, data)
  | _ => none

def pending : Stage → Bytes
  | headed _ data => header data.length
  | _ => []

theorem owed_inside {s : Stage} {env : Envelope} (owed : s.owed = some env) : s.inside = true := by
  cases s <;> first | rfl | cases owed

end Stage

def Channel.pending (c : Channel) : Bytes :=
  match c.mutex with
  | some i => (c.stage i).pending
  | none => []

section Delivery
variable (hmacSha256 : Bytes → Bytes → Bytes) (sessionKey : Option Bytes) (requests : ℕ → Request)

def Stage.Sound (i : ℕ) : Stage → Prop
  | .waiting | .failed => True
  | .numbered env => ∃ seq < 2 ^ 64, env = { (requests i).envelope with seq := seq }
  | .signed env => ∃ seq < 2 ^ 64, env = signedEnvelope hmacSha256 sessionKey requests i seq
  | .marshalled env data | .locked env data | .headed env data | .written env data | .returned env data =>
    Prepared hmacSha256 sessionKey requests i env data

/-- The number is above those of all frames written, and the payload leaves room. -/
def Above (c : Channel) (i : ℕ) (env : Envelope) : Prop :=
  0 < env.seq ∧ (∀ f ∈ c.sent, f.env.seq < env.seq) ∧ Roomy requests i

/-- The frames written are those that have arrived and those on their way. -/
structure Transit (c : Channel) (delivered coming : List Frame) : Prop where
  sent : c.sent = delivered ++ coming
  received : c.received = delivered.map fun f => .ok f.env.received
  wire : c.wire = coming.flatMap Frame.bytes ++ c.pending
  fresh : ∀ f ∈ coming, c.recvSeq < f.env.seq

structure ConnSound (c : Channel) : Prop where
  stages : ∀ i, (c.stage i).Sound hmacSha256 sessionKey requests i
  mutex : ∀ i, (c.stage i).inside = true ↔ c.mutex = some i
  next : ∀ i env, (c.stage i).owed = some env → Above requests c i env
  linked : ∀ f, f ∈ c.sent ↔ (c.stage f.call).frame = some (f.env, f.data)
  ordered : c.sent.Pairwise fun f g => f.env.seq < g.env.seq
  roomy : ∀ f ∈ c.sent, Roomy requests f.call
  last : c.recvSeq = 0 ∨ ∃ f ∈ c.sent, f.env.seq = c.recvSeq
  transit : ∃ delivered coming, Transit c delivered coming

section Become
variable {c : Channel} {i j : ℕ} {stage : Stage}

theorem become_same : (c.become i stage).stage i = stage := by simp only [Channel.become, Function.update_self]

theorem become_other (other : j ≠ i) : (c.become i stage).stage j = c.stage j := by
  simp only [Channel.become, Function.update_of_ne other]

theorem become_forall {P : ℕ → Stage → Prop} (here : P i stage) (there : ∀ j, P j (c.stage j)) :
    ∀ j, P j ((c.become i stage).stage j) := by
  intro j
  by_cases same : j = i
  · rw [same, become_same]
    exact here
  · rw [become_other same]
    exact there j

end Become

section Steps
variable {hmacSha256 sessionKey requests} {c : Channel} {i : ℕ} {stage : Stage} {env : Envelope} {data : Bytes}

theorem Stage.Sound.prepared {s : Stage} (sound : s.Sound hmacSha256 sessionKey requests i)
    (written : s.frame = some (env, data)) : Prepared hmacSha256 sessionKey requests i env data := by
  cases s <;> cases written <;> exact sound

theorem ConnSound.pending_of_ne (sound : ConnSound hmacSha256 sessionKey requests c)
    (outside : (c.stage i).inside = false) (stage : Stage) : (c.become i stage).pending = c.pending := by
  unfold Channel.pending
  change (match c.mutex with
    | some j => ((c.become i stage).stage j).pending
    | none => []) = _
  cases held : c.mutex with
  | none => rfl
  | some j =>
    have other : j ≠ i := by
      rintro rfl
      rw [(sound.mutex j).mpr held] at outside
      cases outside
    dsimp only
    rw [become_other other]

theorem ConnSound.linked_become (sound : ConnSound hmacSha256 sessionKey requests c)
    (same : (c.stage i).frame = stage.frame) (f : Frame) :
    f ∈ c.sent ↔ ((c.become i stage).stage f.call).frame = some (f.env, f.data) := by
  refine (sound.linked f).trans ?_
  by_cases own : f.call = i
  · rw [own, become_same, same]
  · rw [become_other own]

theorem ConnSound.next_become (sound : ConnSound hmacSha256 sessionKey requests c)
    (above : ∀ env, stage.owed = some env → Above requests c i env) :
    ∀ j env, ((c.become i stage).stage j).owed = some env → Above requests c j env := by
  apply become_forall (P := fun j s => ∀ env, s.owed = some env → Above requests c j env)
  · exact above
  · exact sound.next

theorem ConnSound.quiet (sound : ConnSound hmacSha256 sessionKey requests c) (seq : ℕ)
    (outside : (c.stage i).inside = false) (unwritten : (c.stage i).frame = none) (still : stage.inside = false)
    (nothing : stage.frame = none) (ready : stage.Sound hmacSha256 sessionKey requests i) :
    ConnSound hmacSha256 sessionKey requests (Channel.become { c with sendSeq := seq } i stage) where
  stages := become_forall ready sound.stages
  mutex := by
    refine become_forall (P := fun j s => s.inside = true ↔ c.mutex = some j) ?_ sound.mutex
    rw [still, ← sound.mutex i, outside]
  next := by
    apply sound.next_become
    intro env owed
    rw [Stage.owed_inside owed] at still
    cases still
  linked := sound.linked_become (unwritten.trans nothing.symm)
  ordered := sound.ordered
  roomy := sound.roomy
  last := sound.last
  transit := by
    obtain ⟨delivered, coming, transit⟩ := sound.transit
    have pending : (Channel.become { c with sendSeq := seq } i stage).pending = c.pending :=
      sound.pending_of_ne outside stage
    refine ⟨delivered, coming, transit.sent, transit.received, ?_, transit.fresh⟩
    rw [pending]
    exact transit.wire

theorem ConnSound.assign (sound : ConnSound hmacSha256 sessionKey requests c) (before : c.stage i = .waiting) {seq : ℕ}
    (small : seq < 2 ^ 64) : ConnSound hmacSha256 sessionKey requests
      (Channel.become { c with sendSeq := seq } i (.numbered { (requests i).envelope with seq := seq })) := by
  refine sound.quiet seq ?_ ?_ rfl rfl ⟨seq, small, rfl⟩ <;>
    · rw [before]
      rfl

theorem ConnSound.sign (sound : ConnSound hmacSha256 sessionKey requests c) (before : c.stage i = .numbered env) :
    ConnSound hmacSha256 sessionKey requests
      (c.become i (.signed { env with hmac := computeHMAC hmacSha256 sessionKey env })) := by
  have numbered := sound.stages i
  rw [before] at numbered
  obtain ⟨seq, small, rfl⟩ := numbered
  refine sound.quiet c.sendSeq ?_ ?_ rfl rfl ⟨seq, small, rfl⟩ <;>
    · rw [before]
      rfl

theorem ConnSound.fail (sound : ConnSound hmacSha256 sessionKey requests c) (before : c.stage i = .signed env) :
    ConnSound hmacSha256 sessionKey requests (c.become i .failed) := by
  refine sound.quiet c.sendSeq ?_ ?_ rfl rfl trivial <;>
    · rw [before]
      rfl

theorem ConnSound.marshal (sound : ConnSound hmacSha256 sessionKey requests c) (before : c.stage i = .signed env)
    (written : marshal env = some data) (fits : data.length ≤ maxMessageSize) :
    ConnSound hmacSha256 sessionKey requests (c.become i (.marshalled env data)) := by
  have signed := sound.stages i
  rw [before] at signed
  refine sound.quiet c.sendSeq ?_ ?_ rfl rfl ⟨signed, written, fits⟩ <;>
    · rw [before]
      rfl

theorem ConnSound.lock (sound : ConnSound hmacSha256 sessionKey requests c) (before : c.stage i = .marshalled env data)
    (free : c.mutex = none) (above : Above requests c i env) :
    ConnSound hmacSha256 sessionKey requests (Channel.become { c with mutex := some i } i (.locked env data)) where
  stages := by
    refine become_forall ?_ sound.stages
    have marshalled := sound.stages i
    rw [before] at marshalled
    exact marshalled
  mutex := by
    intro j
    by_cases same : j = i
    · rw [same, become_same]
      exact ⟨fun _ => rfl, fun _ => rfl⟩
    · have outside : ¬(c.stage j).inside = true := by
        rw [sound.mutex j, free]
        exact some_ne_none j ∘ Eq.symm
      rw [become_other same]
      exact ⟨fun inside => absurd inside outside, fun held => absurd (some.inj held).symm same⟩
  next := by
    apply sound.next_become
    intro owed found
    rw [← some.inj found]
    exact above
  linked := sound.linked_become (by rw [before]; rfl)
  ordered := sound.ordered
  roomy := sound.roomy
  last := sound.last
  transit := by
    obtain ⟨delivered, coming, transit⟩ := sound.transit
    refine ⟨delivered, coming, transit.sent, transit.received, ?_, transit.fresh⟩
    have nothing : c.pending = [] := by
      rw [Channel.pending, free]
    have still : (Channel.become { c with mutex := some i } i (.locked env data)).pending = [] := by
      rw [Channel.pending]
      change ((Channel.become { c with mutex := some i } i (.locked env data)).stage i).pending = []
      rw [become_same]
      rfl
    rw [still, ← nothing]
    exact transit.wire

theorem ConnSound.holder (sound : ConnSound hmacSha256 sessionKey requests c) (inside : (c.stage i).inside = true) :
    c.mutex = some i ∧ c.pending = (c.stage i).pending := by
  have held := (sound.mutex i).mp inside
  refine ⟨held, ?_⟩
  rw [Channel.pending, held]

theorem pending_become (held : c.mutex = some i) : (c.become i stage).pending = stage.pending := by
  have kept : (c.become i stage).mutex = some i := held
  rw [Channel.pending, kept]
  dsimp only
  rw [become_same]

theorem ConnSound.mutex_become (sound : ConnSound hmacSha256 sessionKey requests c) (held : c.mutex = some i)
    (inside : stage.inside = true) : ∀ j, ((c.become i stage).stage j).inside = true ↔ c.mutex = some j := by
  refine become_forall (P := fun j s => s.inside = true ↔ c.mutex = some j) ?_ sound.mutex
  exact ⟨fun _ => held, fun _ => inside⟩

theorem ConnSound.writeHeader (sound : ConnSound hmacSha256 sessionKey requests c)
    (before : c.stage i = .locked env data) : ConnSound hmacSha256 sessionKey requests
      (Channel.become { c with wire := c.wire ++ header data.length } i (.headed env data)) := by
  obtain ⟨held, pending⟩ := sound.holder (i := i) (by rw [before]; rfl)
  have prepared := sound.stages i
  have above := sound.next i env (by rw [before]; rfl)
  rw [before] at prepared pending
  exact {
    stages := become_forall (c := c) prepared sound.stages
    mutex := sound.mutex_become held rfl
    next := by
      apply sound.next_become
      intro owed found
      rw [← some.inj found]
      exact above
    linked := sound.linked_become (by rw [before]; rfl)
    ordered := sound.ordered
    roomy := sound.roomy
    last := sound.last
    transit := by
      obtain ⟨delivered, coming, transit⟩ := sound.transit
      refine ⟨delivered, coming, transit.sent, transit.received, ?_, transit.fresh⟩
      have wire := transit.wire
      have nothing : (Stage.locked env data).pending = [] := rfl
      rw [pending, nothing, append_nil] at wire
      rw [pending_become (c := { c with wire := c.wire ++ header data.length }) held]
      exact congrArg (· ++ header data.length) wire }

theorem ConnSound.writeData (sound : ConnSound hmacSha256 sessionKey requests c)
    (before : c.stage i = .headed env data) : ConnSound hmacSha256 sessionKey requests
      (Channel.become { c with wire := c.wire ++ data, sent := c.sent ++ [⟨i, env, data⟩] } i (.written env data)) := by
  obtain ⟨held, pending⟩ := sound.holder (i := i) (by rw [before]; rfl)
  have prepared := sound.stages i
  obtain ⟨positive, above, roomy⟩ := sound.next i env (by rw [before]; rfl)
  rw [before] at prepared pending
  exact {
    stages := become_forall (c := c) prepared sound.stages
    mutex := sound.mutex_become held rfl
    next := by
      intro j owing owed
      by_cases same : j = i
      · rw [same, become_same] at owed
        cases owed
      · rw [become_other same] at owed
        have alsoHeld := (sound.mutex j).mp (Stage.owed_inside owed)
        exact absurd (some.inj (alsoHeld.symm.trans held)) same
    linked := by
      intro f
      change f ∈ c.sent ++ [_] ↔ _
      rw [mem_append, mem_singleton, sound.linked f]
      by_cases same : f.call = i
      · rw [same, become_same, before]
        constructor
        · rintro (none | rfl)
          · cases none
          · rfl
        · intro written
          cases f
          cases written
          exact .inr (by rw [← same])
      · rw [become_other same]
        refine ⟨?_, .inl⟩
        rintro (written | rfl)
        · exact written
        · exact absurd rfl same
    ordered := by
      refine pairwise_append.mpr ⟨sound.ordered, pairwise_singleton _ _, ?_⟩
      intro f earlier g last
      rw [mem_singleton.mp last]
      exact above f earlier
    roomy := by
      intro f member
      rcases mem_append.mp member with earlier | last
      · exact sound.roomy f earlier
      · rw [mem_singleton.mp last]
        exact roomy
    last := by
      refine sound.last.imp id ?_
      rintro ⟨f, member, same⟩
      exact ⟨f, mem_append_left _ member, same⟩
    transit := by
      obtain ⟨delivered, coming, transit⟩ := sound.transit
      have fresh : c.recvSeq < env.seq := by
        rcases sound.last with zero | ⟨f, member, same⟩
        · rw [zero]
          exact positive
        · rw [← same]
          exact above f member
      refine ⟨delivered, coming ++ [⟨i, env, data⟩], ?_, transit.received, ?_, ?_⟩
      · exact (congrArg (· ++ [_]) transit.sent).trans (append_assoc _ _ _)
      · have wire := transit.wire
        have nothing : (Stage.written env data).pending = [] := rfl
        rw [pending, Stage.pending] at wire
        rw [pending_become (c := { c with wire := c.wire ++ data, sent := c.sent ++ [⟨i, env, data⟩] }) held, nothing,
          append_nil, flatMap_append, flatMap_singleton, Frame.bytes, ← append_assoc]
        exact congrArg (· ++ data) wire
      · intro f member
        rcases mem_append.mp member with earlier | last
        · exact transit.fresh f earlier
        · rw [mem_singleton.mp last]
          exact fresh }

theorem ConnSound.unlock (sound : ConnSound hmacSha256 sessionKey requests c) (before : c.stage i = .written env data) :
    ConnSound hmacSha256 sessionKey requests (Channel.become { c with mutex := none } i (.returned env data)) := by
  obtain ⟨held, pending⟩ := sound.holder (i := i) (by rw [before]; rfl)
  have prepared := sound.stages i
  rw [before] at prepared pending
  exact {
    stages := become_forall (c := c) prepared sound.stages
    mutex := by
      intro j
      by_cases same : j = i
      · rw [same, become_same]
        exact ⟨nofun, nofun⟩
      · rw [become_other same]
        refine ⟨fun inside => absurd ?_ same, nofun⟩
        exact some.inj (((sound.mutex j).mp inside).symm.trans held)
    next := sound.next_become fun _ => nofun
    linked := sound.linked_become (by rw [before]; rfl)
    ordered := sound.ordered
    roomy := sound.roomy
    last := sound.last
    transit := by
      obtain ⟨delivered, coming, transit⟩ := sound.transit
      refine ⟨delivered, coming, transit.sent, transit.received, ?_, transit.fresh⟩
      have wire := transit.wire
      rw [pending] at wire
      exact wire }

theorem ConnSound.recv_pending (sound : ConnSound hmacSha256 sessionKey requests c) :
    recv hmacSha256 sessionKey c.recvSeq c.pending = none := by
  unfold Channel.pending
  cases c.mutex with
  | none => rfl
  | some i =>
    have prepared := sound.stages i
    have above := sound.next i
    dsimp only
    cases before : c.stage i with
    | headed env data =>
      rw [before] at prepared above
      obtain ⟨-, -, roomy⟩ := above env rfl
      exact recv_header (prepared.unmarshal_data roomy).2 prepared.fits
    | _ => rfl

theorem Transit.mem {delivered rest : List Frame} {f : Frame} (transit : Transit c delivered (f :: rest)) :
    f ∈ c.sent := by
  rw [transit.sent]
  exact mem_append_right _ mem_cons_self

theorem ConnSound.recv_coming (sound : ConnSound hmacSha256 sessionKey requests c) {delivered rest : List Frame}
    {f : Frame} (transit : Transit c delivered (f :: rest)) :
    recv hmacSha256 sessionKey c.recvSeq c.wire =
      some (.ok f.env.received, f.env.seq, rest.flatMap Frame.bytes ++ c.pending) := by
  have member := transit.mem
  have prepared := (sound.stages f.call).prepared ((sound.linked f).mp member)
  rw [transit.wire, flatMap_cons, append_assoc, Frame.bytes]
  exact prepared.recv_frame (sound.roomy f member) (transit.fresh f mem_cons_self) _

theorem ConnSound.recv (sound : ConnSound hmacSha256 sessionKey requests c)
    {outcome : Except RecvError Envelope × ℕ × Bytes}
    (read : recv hmacSha256 sessionKey c.recvSeq c.wire = some outcome) : ConnSound hmacSha256 sessionKey requests
      { c with recvSeq := outcome.2.1, wire := outcome.2.2, received := c.received ++ [outcome.1] } := by
  obtain ⟨delivered, coming, transit⟩ := sound.transit
  cases coming with
  | nil =>
    have waits := sound.recv_pending
    rw [transit.wire, flatMap_nil, nil_append, waits] at read
    cases read
  | cons f rest =>
    rw [sound.recv_coming transit] at read
    cases read
    refine ⟨sound.stages, sound.mutex, sound.next, sound.linked, sound.ordered, sound.roomy,
      .inr ⟨f, transit.mem, rfl⟩, delivered ++ [f], rest, ?_, ?_, rfl, ?_⟩
    · exact transit.sent.trans (append_cons delivered f rest)
    · rw [map_append, transit.received]
      rfl
    · have ordered := sound.ordered
      rw [transit.sent] at ordered
      exact fun g later => rel_of_pairwise_cons (pairwise_append.mp ordered).2.1 later

theorem connStep_sound {next : Channel} {event : Event} (sound : ConnSound hmacSha256 sessionKey requests c)
    (safe : SafeConnEvent requests c event) (stepped : connStep hmacSha256 sessionKey requests c event = some next) :
    ConnSound hmacSha256 sessionKey requests next := by
  cases event with
  | assign i =>
    cases before : c.stage i with
    | waiting =>
      simp only [connStep, before] at stepped
      rw [← some.inj stepped]
      exact sound.assign before (Nat.mod_lt _ (by decide))
    | _ => simp [connStep, before] at stepped
  | sign i =>
    cases before : c.stage i with
    | numbered env =>
      simp only [connStep, before] at stepped
      rw [← some.inj stepped]
      exact sound.sign before
    | _ => simp [connStep, before] at stepped
  | marshal i =>
    cases before : c.stage i with
    | signed env =>
      simp only [connStep, before] at stepped
      cases written : marshal env with
      | none =>
        rw [written] at stepped
        rw [← some.inj stepped]
        exact sound.fail before
      | some data =>
        rw [written] at stepped
        dsimp only at stepped
        split_ifs at stepped with large
        · rw [← some.inj stepped]
          exact sound.fail before
        · rw [← some.inj stepped]
          exact sound.marshal before written (Nat.le_of_not_lt large)
    | _ => simp [connStep, before] at stepped
  | lock i =>
    cases before : c.stage i with
    | marshalled env data =>
      simp only [connStep, before] at stepped
      have above := safe env (by rw [before]; rfl)
      split_ifs at stepped with free
      rw [← some.inj stepped]
      exact sound.lock before free above
    | _ => simp [connStep, before] at stepped
  | writeHeader i =>
    cases before : c.stage i with
    | locked env data =>
      simp only [connStep, before] at stepped
      rw [← some.inj stepped]
      exact sound.writeHeader before
    | _ => simp [connStep, before] at stepped
  | writeData i =>
    cases before : c.stage i with
    | headed env data =>
      simp only [connStep, before] at stepped
      rw [← some.inj stepped]
      exact sound.writeData before
    | _ => simp [connStep, before] at stepped
  | unlock i =>
    cases before : c.stage i with
    | written env data =>
      simp only [connStep, before] at stepped
      rw [← some.inj stepped]
      exact sound.unlock before
    | _ => simp [connStep, before] at stepped
  | recv =>
    obtain ⟨outcome, read, rfl⟩ := map_eq_some_iff.mp stepped
    exact sound.recv read

theorem newConn_sound : ConnSound hmacSha256 sessionKey requests newConn where
  stages := fun _ => trivial
  mutex := fun _ => ⟨nofun, nofun⟩
  next := fun _ _ => nofun
  linked := fun _ => ⟨nofun, nofun⟩
  ordered := List.Pairwise.nil
  roomy := fun _ => nofun
  last := .inl rfl
  transit := ⟨[], [], rfl, rfl, rfl, fun _ => nofun⟩

end Steps

/-- No read failed, what has arrived is what was written first, in its order, and the rest can be read; each call has
written its own envelope once. -/
structure InOrder (c : Channel) : Prop where
  arrived : ∃ delivered coming, c.sent = delivered ++ coming ∧
    c.received = delivered.map (fun f => .ok f.env.received) ∧ (c.wire = [] → coming = []) ∧
    (coming ≠ [] → (recv hmacSha256 sessionKey c.recvSeq c.wire).isSome)
  once : (c.sent.map Frame.call).Nodup
  all : ∀ i env data, c.stage i = .returned env data → ⟨i, env, data⟩ ∈ c.sent
  own : ∀ f ∈ c.sent, f.env.id = (requests f.call).envelope.id ∧ f.env.type = (requests f.call).envelope.type ∧
    f.env.payload = (requests f.call).envelope.payload ∧ f.env.error = (requests f.call).envelope.error

theorem ConnSound.inOrder {c : Channel} (sound : ConnSound hmacSha256 sessionKey requests c) :
    InOrder hmacSha256 sessionKey requests c where
  arrived := by
    obtain ⟨delivered, coming, transit⟩ := sound.transit
    refine ⟨delivered, coming, transit.sent, transit.received, ?_, ?_⟩
    · intro empty
      cases coming with
      | nil => rfl
      | cons f rest =>
        have read := sound.recv_coming transit
        rw [empty] at read
        cases read
    · intro some_frame
      cases coming with
      | nil => exact absurd rfl some_frame
      | cons f rest =>
        rw [sound.recv_coming transit]
        rfl
  once := by
    refine List.Nodup.map_on ?_ (sound.ordered.imp fun less same => ?_)
    · intro f member g other same
      have first := (sound.linked f).mp member
      rw [same, (sound.linked g).mp other] at first
      cases f
      cases g
      cases first
      cases same
      rfl
    · rw [same] at less
      exact Nat.lt_irrefl _ less
  all := by
    intro i env data returned
    refine (sound.linked _).mpr ?_
    rw [returned]
    rfl
  own := by
    intro f member
    obtain ⟨seq, -, same⟩ := ((sound.stages f.call).prepared ((sound.linked f).mp member)).signed
    rw [same]
    exact ⟨rfl, rfl, rfl, rfl⟩

end Delivery

theorem safe_sends_arrive_in_order (hmacSha256 : Bytes → Bytes → Bytes) (sessionKey : Option Bytes)
    (requests : ℕ → Request) (events : List Event) (c : Channel)
    (safe : Meets (connStep hmacSha256 sessionKey requests) (SafeConnEvent requests) newConn events)
    (reached : run (connStep hmacSha256 sessionKey requests) newConn events = some c) :
    InOrder hmacSha256 sessionKey requests c := by
  have keep : ∀ c event next, ConnSound hmacSha256 sessionKey requests c → SafeConnEvent requests c event →
      connStep hmacSha256 sessionKey requests c event = some next → ConnSound hmacSha256 sessionKey requests next :=
    fun _ _ _ sound safe stepped => connStep_sound sound safe stepped
  exact (run_invariant keep newConn_sound safe reached).inOrder

def sampleKey : Bytes := List.replicate 32 1

def sampleHMAC (key input : Bytes) : Bytes :=
  if key = sampleKey ∧ input = codes "a1ping[true]" then
    [99, 178, 4, 67, 125, 250, 78, 40, 180, 64, 60, 64, 225, 99, 226, 179, 186, 37, 204, 52, 13, 84, 176, 90, 39, 30, 13,
      83, 121, 102, 223, 32]
  else if key = sampleKey ∧ input = codes "b2pingnull" then
    [156, 99, 96, 96, 196, 164, 41, 14, 1, 140, 0, 245, 212, 76, 236, 211, 247, 105, 194, 197, 232, 74, 125, 87, 200,
      227, 181, 47, 14, 119, 210, 127]
  else []

def samplePayload : Marshalled where
  tree := .array [.bool true]
  valid := by simp only [Compact.Valid, Compact.ItemsValid, and_self]
  plain := ⟨by decide, by decide, by decide, by decide, by decide, by decide, by decide, by decide, by decide, by decide,
    by decide, by decide, trivial⟩

def sampleRequests : ℕ → Request
  | 0 => .typed "a".toList "ping".toList samplePayload
  | _ + 1 => .error "b".toList "ping".toList "no".toList

/-- Two calls that take the mutex in the order of their numbers. -/
def orderlySends : List Event :=
  [.assign 0, .assign 1, .sign 1, .sign 0, .marshal 0, .lock 0, .marshal 1, .writeHeader 0, .writeData 0, .recv,
    .unlock 0, .lock 1, .writeHeader 1, .writeData 1, .unlock 1, .recv]

def crossedSends : List Event :=
  [.assign 0, .assign 1, .sign 0, .sign 1, .marshal 0, .marshal 1, .lock 1, .writeHeader 1, .writeData 1, .unlock 1,
    .lock 0, .writeHeader 0, .writeData 0, .unlock 0, .recv, .recv]

theorem orderly_sends_arrive :
    ∃ c, run (connStep sampleHMAC (some sampleKey) sampleRequests) newConn orderlySends = some c ∧
      c.received.length = 2 ∧ InOrder sampleHMAC (some sampleKey) sampleRequests c := by
  have outcome : (run (connStep sampleHMAC (some sampleKey) sampleRequests) newConn orderlySends).map (fun c =>
      c.received.length) = some 2 := by decide +kernel
  obtain ⟨c, reached, two⟩ := map_eq_some_iff.mp outcome
  refine ⟨c, reached, two, ?_⟩
  exact safe_sends_arrive_in_order sampleHMAC (some sampleKey) sampleRequests orderlySends c (by decide +kernel) reached

/-- The frame that was numbered first is refused as a replay. -/
theorem crossed_sends_are_refused :
    ∃ c, run (connStep sampleHMAC (some sampleKey) sampleRequests) newConn crossedSends = some c ∧
      c.sent.map Frame.call = [1, 0] ∧ c.received.getLast? = some (.error (.replay 1 2)) ∧
      ¬InOrder sampleHMAC (some sampleKey) sampleRequests c := by
  have outcome : (run (connStep sampleHMAC (some sampleKey) sampleRequests) newConn crossedSends).map (fun c =>
      decide (c.sent.map Frame.call = [1, 0] ∧ c.received.getLast? = some (.error (.replay 1 2)))) = some true := by
    decide +kernel
  obtain ⟨c, reached, decided⟩ := map_eq_some_iff.mp outcome
  obtain ⟨written, refused⟩ := of_decide_eq_true decided
  refine ⟨c, reached, written, refused, fun order => ?_⟩
  obtain ⟨delivered, coming, -, received, -⟩ := order.arrived
  have member := mem_of_getLast? refused
  rw [received] at member
  obtain ⟨f, -, accepted⟩ := List.mem_map.mp member
  cases accepted

end RemudaRmm.Endpoint.Ipc
