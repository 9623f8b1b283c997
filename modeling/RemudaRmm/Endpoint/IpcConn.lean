import RemudaRmm.Endpoint.IpcEnvelope
import RemudaRmm.Foundation.Runs

/-! The helper's channel (`protocol.go`): any number of calls that send on one connection, step by step, and the reads on
the other end. Call number `i` sends `requests i`. -/
namespace RemudaRmm.Endpoint.Ipc
open List
open Foundation JsonText

inductive Request where
  | typed (id msgType : Text) (payload : Marshalled)
  | error (id msgType errMsg : Text)

namespace Request

def payload : Request → Option Marshalled
  | typed _ _ payload => some payload
  | error .. => none

def envelope : Request → Envelope
  | typed id msgType payload => ⟨utf8Text id, 0, utf8Text msgType, some payload.tree.text, [], []⟩
  | error id msgType errMsg => ⟨utf8Text id, 0, utf8Text msgType, none, utf8Text errMsg, []⟩

end Request

def header (length : ℕ) : Bytes :=
  [UInt8.ofNat (length / 2 ^ 24), UInt8.ofNat (length / 2 ^ 16), UInt8.ofNat (length / 2 ^ 8), UInt8.ofNat length]

def headerLength (bytes : Bytes) : ℕ := bytes.foldl (fun n b => 256 * n + b.toNat) 0

inductive RecvError where
  | tooLarge (length : ℕ)
  | zeroLength
  | unmarshal
  | hmacMismatch
  | sequenceZero
  | replay (seq last : ℕ)
  deriving DecidableEq

section Sending
variable (hmacSha256 : Bytes → Bytes → Bytes) (sessionKey : Option Bytes)

/-- What `Recv` says of the bytes of a frame. -/
def readFrame (recvSeq : ℕ) (data : Bytes) : Except RecvError Envelope :=
  match unmarshal data with
  | none => .error .unmarshal
  | some env =>
    if env.hmac ≠ computeHMAC hmacSha256 sessionKey env then .error .hmacMismatch
    else if env.seq = 0 then .error .sequenceZero
    else if env.seq ≤ recvSeq then .error (.replay env.seq recvSeq)
    else .ok env

/-- The last number that was accepted, after a call of `Recv`. -/
def nextSeq (recvSeq : ℕ) : Except RecvError Envelope → ℕ
  | .ok env => env.seq
  | .error _ => recvSeq

/-- A call of `Recv`: its outcome, the number it leaves and the bytes it leaves. While bytes are missing, it waits. -/
def recv (recvSeq : ℕ) (wire : Bytes) : Option (Except RecvError Envelope × ℕ × Bytes) :=
  let length := headerLength (wire.take 4)
  let behind := wire.drop 4
  if wire.length < 4 then none
  else if maxMessageSize < length then some (.error (.tooLarge length), recvSeq, behind)
  else if length = 0 then some (.error .zeroLength, recvSeq, behind)
  else if behind.length < length then none
  else
    let outcome := readFrame hmacSha256 sessionKey recvSeq (behind.take length)
    some (outcome, nextSeq recvSeq outcome, behind.drop length)

inductive Stage where
  | waiting
  | numbered (env : Envelope)
  | signed (env : Envelope)
  | marshalled (env : Envelope) (data : Bytes)
  | locked (env : Envelope) (data : Bytes)
  | headed (env : Envelope) (data : Bytes)
  | written (env : Envelope) (data : Bytes)
  | returned (env : Envelope) (data : Bytes)
  | failed

structure Frame where
  call : ℕ
  env : Envelope
  data : Bytes

/-- Both ends of a connection; `sent` is the record of the frames, in the order in which they were written. -/
structure Channel where
  sendSeq : ℕ
  stage : ℕ → Stage
  mutex : Option ℕ
  wire : Bytes
  recvSeq : ℕ
  received : List (Except RecvError Envelope)
  sent : List Frame

def newConn : Channel := ⟨0, fun _ => .waiting, none, [], 0, [], []⟩

inductive Event where
  | assign (i : ℕ)
  | sign (i : ℕ)
  | marshal (i : ℕ)
  | lock (i : ℕ)
  | writeHeader (i : ℕ)
  | writeData (i : ℕ)
  | unlock (i : ℕ)
  | recv

def Channel.become (c : Channel) (i : ℕ) (stage : Stage) : Channel := { c with stage := Function.update c.stage i stage }

variable (requests : ℕ → Request)

/-- The counter has 64 bits; each end of the connection has the same session key. -/
def connStep (c : Channel) : Event → Option Channel
  | .assign i =>
    match c.stage i with
    | .waiting =>
      let seq := (c.sendSeq + 1) % 2 ^ 64
      some (Channel.become { c with sendSeq := seq } i (.numbered { (requests i).envelope with seq := seq }))
    | _ => none
  | .sign i =>
    match c.stage i with
    | .numbered env => some (c.become i (.signed { env with hmac := computeHMAC hmacSha256 sessionKey env }))
    | _ => none
  | .marshal i =>
    match c.stage i with
    | .signed env =>
      match marshal env with
      | none => some (c.become i .failed)
      | some data =>
        if maxMessageSize < data.length then some (c.become i .failed)
        else some (c.become i (.marshalled env data))
    | _ => none
  | .lock i =>
    match c.stage i with
    | .marshalled env data =>
      if c.mutex = none then some (Channel.become { c with mutex := some i } i (.locked env data)) else none
    | _ => none
  | .writeHeader i =>
    match c.stage i with
    | .locked env data =>
      some (Channel.become { c with wire := c.wire ++ header data.length } i (.headed env data))
    | _ => none
  | .writeData i =>
    match c.stage i with
    | .headed env data =>
      let sent := c.sent ++ [⟨i, env, data⟩]
      some (Channel.become { c with wire := c.wire ++ data, sent := sent } i (.written env data))
    | _ => none
  | .unlock i =>
    match c.stage i with
    | .written env data => some (Channel.become { c with mutex := none } i (.returned env data))
    | _ => none
  | .recv =>
    (recv hmacSha256 sessionKey c.recvSeq c.wire).map fun r =>
      { c with recvSeq := r.2.1, wire := r.2.2, received := c.received ++ [r.1] }

def Stage.ready : Stage → Option Envelope
  | .marshalled env _ => some env
  | _ => none

/-- A call takes the mutex only with a number above those of all frames written before, and with a payload that leaves
room for the envelope around it. -/
def SafeConnEvent (c : Channel) : Event → Prop
  | .lock i =>
    ∀ env ∈ (c.stage i).ready, 0 < env.seq ∧ (∀ f ∈ c.sent, f.env.seq < env.seq) ∧
      ∀ p ∈ (requests i).payload, p.tree.depth < maxNestingDepth
  | _ => True

instance decidableSafeConnEvent (c : Channel) : ∀ event, Decidable (SafeConnEvent requests c event)
  | .lock i =>
    inferInstanceAs (Decidable (∀ env ∈ (c.stage i).ready, 0 < env.seq ∧ (∀ f ∈ c.sent, f.env.seq < env.seq) ∧
      ∀ p ∈ (requests i).payload, p.tree.depth < maxNestingDepth))
  | .assign _ | .sign _ | .marshal _ | .writeHeader _ | .writeData _ | .unlock _ | .recv => .isTrue trivial

def signedEnvelope (i seq : ℕ) : Envelope :=
  { (requests i).envelope with
    seq := seq
    hmac := computeHMAC hmacSha256 sessionKey { (requests i).envelope with seq := seq } }

/-- The envelope as it arrives: a payload that was not there is `null`. -/
def Envelope.received (env : Envelope) : Envelope := { env with payload := some env.payloadText }

structure Prepared (i : ℕ) (env : Envelope) (data : Bytes) : Prop where
  signed : ∃ seq < 2 ^ 64, env = signedEnvelope hmacSha256 sessionKey requests i seq
  written : marshal env = some data
  fits : data.length ≤ maxMessageSize

def Roomy (i : ℕ) : Prop := ∀ p ∈ (requests i).payload, p.tree.depth < maxNestingDepth

def Frame.bytes (f : Frame) : Bytes := header f.data.length ++ f.data

theorem signedEnvelope_eq (i seq : ℕ) :
    ∃ id type error hmac, signedEnvelope hmacSha256 sessionKey requests i seq =
      envelopeOf id type error hmac seq (requests i).payload := by
  obtain ⟨hmac, written⟩ := hexEncode_text (hmacSha256 (sessionKey.getD zeroKey)
    (macInput { (requests i).envelope with seq := seq }))
  cases found : requests i with
  | typed id msgType payload =>
    refine ⟨id, msgType, [], hmac, ?_⟩
    rw [found] at written
    simp only [signedEnvelope, computeHMAC, found, written]
    rfl
  | error id msgType errMsg =>
    refine ⟨id, msgType, errMsg, hmac, ?_⟩
    rw [found] at written
    simp only [signedEnvelope, computeHMAC, found, written]
    rfl

section Reading
variable {hmacSha256 sessionKey requests} {i recvSeq : ℕ} {env : Envelope} {data : Bytes}

theorem headerLength_header {n : ℕ} (small : n ≤ maxMessageSize) : headerLength (header n) = n := by
  have bound : n < 2 ^ 32 := lt_of_le_of_lt small (by decide)
  simp only [headerLength, header, foldl_cons, foldl_nil, UInt8.toNat_ofNat']
  omega

theorem Prepared.unmarshal_data (prepared : Prepared hmacSha256 sessionKey requests i env data)
    (roomy : Roomy requests i) : unmarshal data = some env.received ∧ 0 < data.length := by
  obtain ⟨seq, small, same⟩ := prepared.signed
  obtain ⟨id, type, error, hmac, spelled⟩ := signedEnvelope_eq hmacSha256 sessionKey requests i seq
  have written := prepared.written
  rw [same, spelled, marshal_envelope id type error hmac seq _ roomy] at written
  rw [same, spelled, ← Option.some.inj written]
  refine ⟨unmarshal_members id type error hmac seq _ small roomy, ?_⟩
  rw [membersOf, member, Compact.text]
  exact Nat.succ_pos _

theorem Prepared.hmac_received (prepared : Prepared hmacSha256 sessionKey requests i env data) :
    env.received.hmac = computeHMAC hmacSha256 sessionKey env.received := by
  obtain ⟨seq, -, rfl⟩ := prepared.signed
  rfl

theorem Prepared.recv_frame (prepared : Prepared hmacSha256 sessionKey requests i env data) (roomy : Roomy requests i)
    (fresh : recvSeq < env.seq) (rest : Bytes) :
    recv hmacSha256 sessionKey recvSeq (header data.length ++ data ++ rest) =
      some (.ok env.received, env.seq, rest) := by
  obtain ⟨read, filled⟩ := prepared.unmarshal_data roomy
  have accepted : readFrame hmacSha256 sessionKey recvSeq data = .ok env.received := by
    have positive : ¬env.received.seq = 0 := Nat.ne_of_gt (Nat.zero_lt_of_lt fresh)
    have above : ¬env.received.seq ≤ recvSeq := Nat.not_le_of_lt fresh
    simp only [readFrame, read, ne_eq, prepared.hmac_received, not_true_eq_false, if_false, positive, above]
  have front : (header data.length ++ data ++ rest).take 4 = header data.length := rfl
  have behind : (header data.length ++ data ++ rest).drop 4 = data ++ rest := rfl
  have long : ¬(header data.length ++ data ++ rest).length < 4 := by
    rw [append_assoc, length_append]
    exact Nat.not_lt_of_le (Nat.le_add_right 4 _)
  simp only [recv, front, behind, headerLength_header prepared.fits]
  rw [if_neg long, if_neg (Nat.not_lt_of_le prepared.fits), if_neg (Nat.ne_of_gt filled),
    if_neg (by rw [length_append]; omega), take_left, drop_left, accepted]
  rfl

theorem recv_header {n : ℕ} (filled : 0 < n) (small : n ≤ maxMessageSize) :
    recv hmacSha256 sessionKey recvSeq (header n) = none := by
  have front : (header n).take 4 = header n := rfl
  have behind : (header n).drop 4 = [] := rfl
  simp only [recv, front, behind, headerLength_header small]
  rw [length_nil, if_neg (by exact Nat.lt_irrefl 4), if_neg (Nat.not_lt_of_le small), if_neg (Nat.ne_of_gt filled),
    if_pos filled]

end Reading

end Sending

end RemudaRmm.Endpoint.Ipc
