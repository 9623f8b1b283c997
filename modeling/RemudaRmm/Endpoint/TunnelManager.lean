import RemudaRmm.Foundation.Runs
import RemudaRmm.Foundation.Text

/-! The tunnel manager of the agent (`manager.go`, `tunnel.go`), step by step: each critical section, each dial, each
close of a connection and each callback is a step of its own. A session is named by the call that opens it. -/
namespace RemudaRmm.Endpoint
open Foundation Function

/-- An entry of the session map; it is `nil` until the call that has reserved it publishes its session. -/
structure Slot where
  id : Text
  call : ℕ
  published : Bool

/-- Where a call of `OpenTunnel` stands: called, with a reserved slot, with a connection that is not published yet, or
with a dial that has failed and the slot not yet released. -/
inductive OpenStage where
  | idle
  | called
  | dialing
  | dialed
  | failed
  | returned (opened : Bool)
  deriving DecidableEq

/-- Where a call of `CloseTunnel` stands, with the calls of `OpenTunnel` that were there before it, and the session
that it has taken out of the map. -/
inductive CloseStage where
  | idle
  | called (before : List ℕ)
  | closing (before : List ℕ) (session : Option ℕ)
  | returned (before : List ℕ)
  deriving DecidableEq

/-- The read loop of a session; it has closed the connection once it has ended, and then calls back. -/
inductive ReaderStage where
  | absent
  | reading
  | ended
  | calledBack
  deriving DecidableEq

/-- `opened` are the sessions whose connection is open, and `pending` the pairs of a call of `CloseTunnel` and the
session that it is about to close. -/
structure TunnelManager where
  maxSessions : ℕ
  slots : List Slot
  stopped : Bool
  begun : List ℕ
  opens : ℕ → OpenStage
  closes : ℕ → CloseStage
  pending : List (ℕ × ℕ)
  opened : List ℕ
  readers : ℕ → ReaderStage

def newManagerOf (maxSessions : ℕ) : TunnelManager where
  maxSessions := maxSessions
  slots := []
  stopped := false
  begun := []
  opens := fun _ => .idle
  closes := fun _ => .idle
  pending := []
  opened := []
  readers := fun _ => .absent

inductive TunnelEvent where
  | openTunnel (c : ℕ)
  | reserve (c : ℕ)
  | dial (c : ℕ) (connects : Bool)
  | release (c : ℕ)
  | publish (c : ℕ)
  | readEnd (c : ℕ)
  | callback (c : ℕ)
  | closeTunnel (k : ℕ)
  | takeOut (k : ℕ)
  | closeSession (k : ℕ)
  | stop

def TunnelManager.setOpen (s : TunnelManager) (c : ℕ) (stage : OpenStage) : TunnelManager :=
  { s with opens := update s.opens c stage }

def TunnelManager.setClose (s : TunnelManager) (k : ℕ) (stage : CloseStage) : TunnelManager :=
  { s with closes := update s.closes k stage }

def TunnelManager.setReader (s : TunnelManager) (c : ℕ) (stage : ReaderStage) : TunnelManager :=
  { s with readers := update s.readers c stage }

/-- `delete(m.sessions, id)`. -/
def deleteSlot (slots : List Slot) (id : Text) : List Slot := slots.filter fun slot => slot.id ≠ id

def lookup (s : TunnelManager) (id : Text) : Option Slot := s.slots.find? fun slot => slot.id = id

def writeTunnel (s : TunnelManager) (id : Text) : Option ℕ :=
  match lookup s id with
  | some slot => if slot.published then some slot.call else none
  | none => none

def publishedCalls (slots : List Slot) : List ℕ := (slots.filter Slot.published).map Slot.call

section Manager
variable (openId closeId : ℕ → Text)

/-- The first critical section of `OpenTunnel`. -/
def reserveSlot (s : TunnelManager) (c : ℕ) : TunnelManager :=
  if s.stopped then s.setOpen c (.returned false)
  else if s.maxSessions ≤ s.slots.length then s.setOpen c (.returned false)
  else if (lookup s (openId c)).isSome then s.setOpen c (.returned false)
  else { s.setOpen c .dialing with slots := s.slots ++ [⟨openId c, c, false⟩] }

/-- The critical section of `CloseTunnel`. -/
def takeOutSlot (s : TunnelManager) (k : ℕ) (before : List ℕ) : TunnelManager :=
  let session := writeTunnel s (closeId k)
  { s.setClose k (.closing before session) with
    slots := deleteSlot s.slots (closeId k)
    pending := (session.toList.map fun c => (k, c)) ++ s.pending }

def tunnelStep (s : TunnelManager) : TunnelEvent → Option TunnelManager
  | .openTunnel c => if s.opens c = .idle then some { s.setOpen c .called with begun := c :: s.begun } else none
  | .reserve c => if s.opens c = .called then some (reserveSlot openId s c) else none
  | .dial c connects =>
    if s.opens c = .dialing then
      if connects then some { (s.setOpen c .dialed).setReader c .reading with opened := c :: s.opened }
      else some (s.setOpen c .failed)
    else none
  | .release c =>
    if s.opens c = .failed then
      some { s.setOpen c (.returned false) with slots := deleteSlot s.slots (openId c) }
    else none
  | .publish c =>
    if s.opens c = .dialed then
      some { s.setOpen c (.returned true) with slots := deleteSlot s.slots (openId c) ++ [⟨openId c, c, true⟩] }
    else none
  | .readEnd c =>
    if s.readers c = .reading then some { s.setReader c .ended with opened := s.opened.erase c } else none
  | .callback c =>
    if s.readers c = .ended then
      some { s.setReader c .calledBack with slots := deleteSlot s.slots (openId c) }
    else none
  | .closeTunnel k =>
    if s.closes k = .idle then some (s.setClose k (.called (s.begun.filter fun c => openId c = closeId k))) else none
  | .takeOut k =>
    match s.closes k with
    | .called before => some (takeOutSlot closeId s k before)
    | _ => none
  | .closeSession k =>
    match s.closes k with
    | .closing before session =>
      some { s.setClose k (.returned before) with
        opened := s.opened.filter fun c => session ≠ some c
        pending := s.pending.filter fun p => p.1 ≠ k }
    | _ => none
  | .stop =>
    if s.stopped then some s
    else
      some { s with
        stopped := true
        opened := s.opened.filter fun c => c ∉ publishedCalls s.slots
        slots := [] }

end Manager

/-- A call of `OpenTunnel` that holds a slot it has not published. -/
def OpenStage.Holding : OpenStage → Prop
  | .dialing | .dialed | .failed => True
  | _ => False

def OpenStage.Returned : OpenStage → Prop
  | .returned _ => True
  | _ => False

instance decidableReturned : ∀ stage : OpenStage, Decidable stage.Returned
  | .returned _ => .isTrue trivial
  | .idle | .called | .dialing | .dialed | .failed => .isFalse id

def Reachable (s : TunnelManager) (c : ℕ) : Prop := ∃ id, writeTunnel s id = some c

structure Quiet (s : TunnelManager) : Prop where
  opens : ∀ c ∈ s.begun, (s.opens c).Returned
  closes : s.pending = []
  readers : ∀ c, s.readers c ≠ .ended

/-- What the manager promises: a tunnel that has been closed stays closed, nothing is open after a stop, no more
connections are open than there may be, and the map holds the open sessions when nothing is under way. -/
structure StaysClosed (s : TunnelManager) : Prop where
  closed : ∀ k before, s.closes k = .returned before → (∀ c ∈ before, (s.opens c).Returned) →
    ∀ c ∈ before, c ∉ s.opened ∧ ¬Reachable s c
  stopped : s.stopped = true → (∀ c ∈ s.begun, (s.opens c).Returned) → s.opened = []
  bounded : s.opened.length ≤ s.maxSessions
  exact : Quiet s → (∀ slot ∈ s.slots, slot.published = true) ∧ ∀ c, Reachable s c ↔ c ∈ s.opened

/-- A slot is reserved only while the sessions that are about to be closed leave room for it; a slot is taken out only
when no call for its identifier is under way; the manager is stopped only when no slot is held by a dial and no session
is about to be closed; and a callback finds the entry of its own session or none. -/
def SafeTunnelEvent (openId closeId : ℕ → Text) (s : TunnelManager) : TunnelEvent → Prop
  | .reserve _ => s.slots.length + s.pending.length < s.maxSessions ∨ s.maxSessions ≤ s.slots.length
  | .takeOut k => (∀ c ∈ s.begun, openId c = closeId k → (s.opens c).Returned) ∧ ∀ p ∈ s.pending, openId p.2 ≠ closeId k
  | .stop => (∀ slot ∈ s.slots, slot.published = true) ∧ s.pending = []
  | .callback c => ∀ slot ∈ s.slots, slot.id = openId c → slot.call = c ∧ slot.published = true
  | _ => True

instance decidableSafeTunnelEvent (openId closeId : ℕ → Text) (s : TunnelManager) :
    ∀ event, Decidable (SafeTunnelEvent openId closeId s event)
  | .reserve _ =>
    inferInstanceAs (Decidable (s.slots.length + s.pending.length < s.maxSessions ∨ s.maxSessions ≤ s.slots.length))
  | .takeOut k =>
    inferInstanceAs (Decidable ((∀ c ∈ s.begun, openId c = closeId k → (s.opens c).Returned) ∧
      ∀ p ∈ s.pending, openId p.2 ≠ closeId k))
  | .stop => inferInstanceAs (Decidable ((∀ slot ∈ s.slots, slot.published = true) ∧ s.pending = []))
  | .callback c =>
    inferInstanceAs (Decidable (∀ slot ∈ s.slots, slot.id = openId c → slot.call = c ∧ slot.published = true))
  | .openTunnel _ | .dial _ _ | .release _ | .publish _ | .readEnd _ | .closeTunnel _ | .closeSession _ =>
    .isTrue trivial

end RemudaRmm.Endpoint
