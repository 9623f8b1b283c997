import Mathlib.Data.Option.Basic
import Mathlib.Order.Basic

/-! A counter under one key of a store that forgets. It lives from the increment that finds no counter until it expires
or is deleted; without an expiry it lives for ever. Its lifetimes are numbered. -/
namespace RemudaRmm.Foundation
open Option

structure Counter where
  value : ℕ
  expiry : Option ℕ
  lifetime : ℕ

abbrev CounterKey := Option Counter

namespace CounterKey

def live (now : ℕ) (key : CounterKey) : CounterKey := key.filter fun c => c.expiry.all (now ≤ ·)

/-- The counter after an increment; `fresh` numbers the lifetime that begins when there is none. -/
def incr (now fresh : ℕ) (key : CounterKey) : Counter :=
  match key.live now with
  | none => ⟨1, none, fresh⟩
  | some c => { c with value := c.value + 1 }

def expire (now ttl : ℕ) (key : CounterKey) : CounterKey :=
  (key.live now).map fun c => { c with expiry := some (now + ttl) }

variable {now ttl fresh : ℕ} {key : CounterKey} {c : Counter}

theorem mem_of_live (found : key.live now = some c) : key = some c := by
  unfold live at found
  exact (filter_eq_some_iff.mp found).1

/-- An increment begins a lifetime with 1, or goes on in the one that is there. -/
theorem incr_cases (now fresh : ℕ) (key : CounterKey) :
    (key.live now = none ∧ key.incr now fresh = ⟨1, none, fresh⟩) ∨
    ∃ c, key = some c ∧ key.live now = some c ∧ key.incr now fresh = { c with value := c.value + 1 } := by
  unfold incr
  cases found : key.live now with
  | none => exact .inl ⟨rfl, rfl⟩
  | some c => exact .inr ⟨c, mem_of_live found, rfl, rfl⟩

theorem mem_expire (found : key.expire now ttl = some c) :
    ∃ before, key = some before ∧ c = { before with expiry := some (now + ttl) } := by
  obtain ⟨before, alive, rfl⟩ := map_eq_some_iff.mp found
  exact ⟨before, mem_of_live alive, rfl⟩

end CounterKey

end RemudaRmm.Foundation
