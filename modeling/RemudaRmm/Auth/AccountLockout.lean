import RemudaRmm.Foundation.CounterKey
import RemudaRmm.Foundation.Runs

/-! The lockout of an account after failed logins (`rate-limit.ts`), for the calls on one email address. Each Redis
command is a step, which may fail or have its caller die after it. -/
namespace RemudaRmm.Auth
open Foundation Function CounterKey

structure AccountFailureResult where
  count : ℕ
  (locked newlyLocked : Bool)
  deriving DecidableEq

/-- How a command ends: its reply arrives, it fails whether or not it was applied, or its caller dies after it. -/
inductive CommandOutcome where
  | answered
  | failed (applied : Bool)
  | died
  deriving DecidableEq

def CommandOutcome.applied : CommandOutcome → Bool
  | .failed applied => applied
  | _ => true

/-- An increment of a call: the lifetime of the counter, and the value that was returned. -/
structure Increment where
  (lifetime count : ℕ)
  deriving DecidableEq

/-- A call of `recordAccountFailure`: before its increment, between the increment that created the counter and the
expiry, returned, or dead. -/
inductive FailureCall where
  | idle
  | creator (lifetime : ℕ)
  | returned (result : AccountFailureResult) (increment : Option Increment)
  | dead
  deriving DecidableEq

/-- `lastFailure` is when a call of `recordAccountFailure` last did something. -/
structure LockoutWorld where
  clock : ℕ
  key : CounterKey
  (lifetimes lastFailure : ℕ)
  calls : ℕ → FailureCall

inductive LockoutEvent where
  | incr (c now : ℕ) (outcome : CommandOutcome)
  | expire (c now : ℕ) (outcome : CommandOutcome)
  | clear (now : ℕ) (applied : Bool)

section Lockout
variable (maxAttempts windowSeconds : ℕ)

def failureResult (count : ℕ) : AccountFailureResult := ⟨count, decide (maxAttempts ≤ count), count = maxAttempts⟩

def LockoutWorld.setCall (s : LockoutWorld) (c : ℕ) (call : FailureCall) : LockoutWorld :=
  { s with calls := update s.calls c call }

def incrKey (s : LockoutWorld) (now : ℕ) : LockoutWorld :=
  let counter := s.key.incr now s.lifetimes
  { s with
    key := some counter
    lifetimes := if counter.lifetime = s.lifetimes then s.lifetimes + 1 else s.lifetimes }

def countedCall (counter : Counter) : FailureCall :=
  if counter.value = 1 then .creator counter.lifetime
  else .returned (failureResult maxAttempts counter.value) (some ⟨counter.lifetime, counter.value⟩)

end Lockout

def FailureCall.increment : FailureCall → Option Increment
  | .creator lifetime => some ⟨lifetime, 1⟩
  | .returned _ increment => increment
  | _ => none

def unlimited (s : LockoutWorld) (lifetime : ℕ) : Bool :=
  s.key.any fun counter => counter.lifetime = lifetime ∧ counter.expiry = none

/-- The call that creates the counter gets the reply to its increment, and its second command succeeds: where that
fails, the limit is not 1, and the counter is gone or has an expiry all the same. -/
def SafeLockoutEvent (maxAttempts : ℕ) (s : LockoutWorld) : LockoutEvent → Prop
  | .incr _ now outcome => outcome = .answered ∨ outcome.applied = false ∨ (s.key.live now).isSome = true
  | .expire c _ (.failed applied) =>
    maxAttempts ≠ 1 ∧ (applied = true ∨
      match s.calls c with
      | .creator lifetime => unlimited s lifetime = false
      | _ => True)
  | _ => True

structure Tracked (maxAttempts windowSeconds : ℕ) (s : LockoutWorld) : Prop where
  past : s.lastFailure ≤ s.clock
  positive : ∀ counter, s.key = some counter → 1 ≤ counter.value
  current : ∀ counter, s.key = some counter → counter.lifetime < s.lifetimes
  earlier : ∀ c i, (s.calls c).increment = some i → i.lifetime < s.lifetimes ∧
    ∀ counter, s.key = some counter → counter.lifetime = i.lifetime → i.count ≤ counter.value
  unique : ∀ c d i, (s.calls c).increment = some i → (s.calls d).increment = some i → c = d
  exact : ∀ c result i, s.calls c = .returned result (some i) → (result.newlyLocked = true ↔ i.count = maxAttempts)
  counted : ∀ c result, s.calls c = .returned result none → result.newlyLocked = false
  bounded : ∀ counter e, s.key = some counter → counter.expiry = some e → e ≤ s.lastFailure + windowSeconds

/-- The call that is to set the expiry of a counter without one is there. -/
def Owned (key : CounterKey) (calls : ℕ → FailureCall) : Prop :=
  ∀ counter, key = some counter → counter.expiry = none → ∃ c, calls c = .creator counter.lifetime

instance decidableSafeLockoutEvent (maxAttempts : ℕ) (s : LockoutWorld) :
    ∀ event, Decidable (SafeLockoutEvent maxAttempts s event)
  | .incr _ now outcome =>
    inferInstanceAs (Decidable (outcome = .answered ∨ outcome.applied = false ∨ (s.key.live now).isSome = true))
  | .expire c _ (.failed applied) =>
    match called : s.calls c with
    | .creator lifetime =>
      decidable_of_iff (maxAttempts ≠ 1 ∧ (applied = true ∨ unlimited s lifetime = false))
        (by simp only [SafeLockoutEvent, called])
    | .idle | .returned _ _ | .dead =>
      decidable_of_iff (maxAttempts ≠ 1) (by simp only [SafeLockoutEvent, called, or_true, and_true])
  | .expire _ _ .answered | .expire _ _ .died | .clear _ _ => .isTrue trivial

section Steps
variable {maxAttempts windowSeconds : ℕ} {s next : LockoutWorld} {event : LockoutEvent}
variable {c now : ℕ} {call : FailureCall}

theorem Tracked.setCall (tracked : Tracked maxAttempts windowSeconds s) (increment : ∀ i, call.increment = some i →
      (i.lifetime < s.lifetimes ∧ ∀ counter, s.key = some counter → counter.lifetime = i.lifetime →
        i.count ≤ counter.value) ∧ ∀ d, d ≠ c → (s.calls d).increment ≠ some i)
    (exact : ∀ result i, call = .returned result (some i) → (result.newlyLocked = true ↔ i.count = maxAttempts))
    (counted : ∀ result, call = .returned result none → result.newlyLocked = false) :
    Tracked maxAttempts windowSeconds (s.setCall c call) where
  past := tracked.past
  positive := tracked.positive
  current := tracked.current
  earlier := by
    intro d i
    by_cases same : d = c
    · subst same
      simp only [LockoutWorld.setCall, update_self]
      exact fun found => (increment i found).1
    · simp only [LockoutWorld.setCall, update_of_ne same]
      exact tracked.earlier d i
  unique := by
    intro d e i
    by_cases first : d = c
    · subst first
      by_cases second : e = d
      · exact fun _ _ => second.symm
      · simp only [LockoutWorld.setCall, update_self, update_of_ne second]
        exact fun found other => absurd other ((increment i found).2 e second)
    · by_cases second : e = c
      · subst second
        simp only [LockoutWorld.setCall, update_self, update_of_ne first]
        exact fun other found => absurd other ((increment i found).2 d first)
      · simp only [LockoutWorld.setCall, update_of_ne first, update_of_ne second]
        exact tracked.unique d e i
  exact := by
    intro d
    by_cases same : d = c
    · subst same
      simpa only [LockoutWorld.setCall, update_self] using exact
    · simpa only [LockoutWorld.setCall, update_of_ne same] using tracked.exact d
  counted := by
    intro d
    by_cases same : d = c
    · subst same
      simpa only [LockoutWorld.setCall, update_self] using counted
    · simpa only [LockoutWorld.setCall, update_of_ne same] using tracked.counted d
  bounded := tracked.bounded

theorem Owned.update {key : CounterKey} {calls : ℕ → FailureCall}
    (owned : ∀ counter, key = some counter → counter.expiry = none →
      call = .creator counter.lifetime ∨ ∃ d, d ≠ c ∧ calls d = .creator counter.lifetime) :
    Owned key (update calls c call) := by
  intro counter found limit
  rcases owned counter found limit with rfl | ⟨d, other, creator⟩
  · exact ⟨c, update_self c _ calls⟩
  · exact ⟨d, (update_of_ne other _ calls).trans creator⟩

theorem Tracked.incremented (tracked : Tracked maxAttempts windowSeconds s) (now : ℕ) :
    Tracked maxAttempts windowSeconds (incrKey s now) := by
  rcases incr_cases now s.lifetimes s.key with ⟨-, created⟩ | ⟨before, stored, -, counted⟩
  · have key : incrKey s now = { s with key := some ⟨1, none, s.lifetimes⟩, lifetimes := s.lifetimes + 1 } := by
      simp only [incrKey, created, if_true]
    rw [key]
    exact
      { past := tracked.past
        positive := by
          rintro counter ⟨⟩
          exact Nat.le_refl 1
        current := by
          rintro counter ⟨⟩
          exact Nat.lt_succ_self s.lifetimes
        earlier := by
          intro c i found
          have known := (tracked.earlier c i found).1
          refine ⟨Nat.lt_succ_of_lt known, ?_⟩
          rintro counter ⟨⟩ same
          dsimp only at same
          omega
        unique := tracked.unique
        exact := tracked.exact
        counted := tracked.counted
        bounded := by
          rintro counter e ⟨⟩ ⟨⟩ }
  · have current := tracked.current before stored
    have key : incrKey s now = { s with key := some { before with value := before.value + 1 } } := by
      simp only [incrKey, counted, if_neg (Nat.ne_of_lt current)]
    rw [key]
    exact
      { past := tracked.past
        positive := by
          rintro counter ⟨⟩
          exact Nat.succ_pos _
        current := by
          rintro counter ⟨⟩
          exact current
        earlier := by
          intro c i found
          refine ⟨(tracked.earlier c i found).1, ?_⟩
          rintro counter ⟨⟩ same
          exact Nat.le_succ_of_le ((tracked.earlier c i found).2 before stored same)
        unique := tracked.unique
        exact := tracked.exact
        counted := tracked.counted
        bounded := by
          rintro counter e ⟨⟩ limit
          exact tracked.bounded before e stored limit }

theorem Tracked.increment_fresh (tracked : Tracked maxAttempts windowSeconds s) (now d : ℕ) :
    (s.calls d).increment ≠ some ⟨(s.key.incr now s.lifetimes).lifetime, (s.key.incr now s.lifetimes).value⟩ := by
  intro found
  obtain ⟨known, bound⟩ := tracked.earlier d _ found
  rcases incr_cases now s.lifetimes s.key with ⟨-, created⟩ | ⟨before, stored, -, counted⟩
  · rw [created] at known
    exact absurd known (Nat.lt_irrefl _)
  · rw [counted] at bound
    exact absurd (bound before stored rfl) (Nat.not_succ_le_self _)

theorem Tracked.counting (tracked : Tracked maxAttempts windowSeconds s) (c now : ℕ) : Tracked maxAttempts windowSeconds
      ((incrKey s now).setCall c (countedCall maxAttempts (s.key.incr now s.lifetimes))) := by
  have key := tracked.incremented now
  have increment : (countedCall maxAttempts (s.key.incr now s.lifetimes)).increment =
      some ⟨(s.key.incr now s.lifetimes).lifetime, (s.key.incr now s.lifetimes).value⟩ := by
    unfold countedCall
    split_ifs with first
    · rw [first]
      rfl
    · rfl
  apply key.setCall
  · intro i found
    cases increment.symm.trans found
    refine ⟨⟨key.current _ rfl, ?_⟩, fun d _ => tracked.increment_fresh now d⟩
    rintro counter ⟨⟩ -
    exact Nat.le_refl _
  · intro result i called
    unfold countedCall at called
    split_ifs at called
    cases called
    simp only [failureResult, decide_eq_true_eq]
  · intro result called
    unfold countedCall at called
    split_ifs at called
    cases called

theorem Tracked.advance (tracked : Tracked maxAttempts windowSeconds s) (later : s.clock ≤ now) :
    Tracked maxAttempts windowSeconds { s with clock := now } :=
  { tracked with past := Nat.le_trans tracked.past later }

theorem Tracked.expired (tracked : Tracked maxAttempts windowSeconds s) (now : ℕ) : Tracked maxAttempts windowSeconds
      { s with key := s.key.expire now windowSeconds, lastFailure := now, clock := now } where
  past := Nat.le_refl now
  positive := by
    intro counter found
    obtain ⟨before, stored, rfl⟩ := mem_expire found
    exact tracked.positive before stored
  current := by
    intro counter found
    obtain ⟨before, stored, rfl⟩ := mem_expire found
    exact tracked.current before stored
  earlier := by
    intro c i called
    refine ⟨(tracked.earlier c i called).1, fun counter found => ?_⟩
    obtain ⟨before, stored, rfl⟩ := mem_expire found
    exact (tracked.earlier c i called).2 before stored
  unique := tracked.unique
  exact := tracked.exact
  counted := tracked.counted
  bounded := by
    intro counter e found limit
    obtain ⟨before, -, rfl⟩ := mem_expire found
    cases limit
    exact Nat.le_refl _

theorem Tracked.settle (tracked : Tracked maxAttempts windowSeconds s) {lifetime : ℕ}
    (creator : s.calls c = .creator lifetime) {result : AccountFailureResult}
    (exact : result.newlyLocked = true ↔ 1 = maxAttempts) :
    Tracked maxAttempts windowSeconds (s.setCall c (.returned result (some ⟨lifetime, 1⟩))) := by
  have increment : (s.calls c).increment = some ⟨lifetime, 1⟩ := by
    rw [creator]
    rfl
  apply tracked.setCall
  · rintro i ⟨⟩
    refine ⟨tracked.earlier c _ increment, fun d other found => other ?_⟩
    exact tracked.unique d c _ found increment
  · rintro r i ⟨⟩
    exact exact
  · intro r called
    cases called

end Steps

end RemudaRmm.Auth
