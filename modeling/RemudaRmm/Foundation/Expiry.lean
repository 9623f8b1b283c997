import Mathlib.Order.Basic

/-! A key of a store that forgets: what is written to it is gone once its time to live is over. An expired entry
stays in the slot, where no read finds it. -/
namespace RemudaRmm.Foundation

structure Entry (α : Type*) where
  value : α
  expiry : ℕ

abbrev Slot (α : Type*) := Option (Entry α)

namespace Slot
variable {α : Type*}

def get (now : ℕ) (s : Slot α) : Option α := s.bind fun entry => if now < entry.expiry then some entry.value else none

def setex (now ttl : ℕ) (value : α) : Slot α := some ⟨value, now + ttl⟩

/-- The write that leaves an entry alone while it is there; it tells whether it wrote. -/
def setnx (now ttl : ℕ) (value : α) (s : Slot α) : Slot α × Bool :=
  if (s.get now).isSome then (s, false) else (setex now ttl value, true)

def Held (now : ℕ) (s : Slot α) : Prop := ∀ entry, s = some entry → now < entry.expiry

theorem get_of_held {now : ℕ} {s : Slot α} {entry : Entry α} (held : s.Held now) (found : s = some entry) :
    s.get now = some entry.value := by
  rw [get, found, Option.bind_some, if_pos (held entry found)]

/-- While the last write is there, `setnx` writes only to a slot that nothing was written to. -/
theorem setnx_eq {now ttl : ℕ} {value : α} {s : Slot α} (held : s.Held now) :
    s.setnx now ttl value = if s = none then (setex now ttl value, true) else (s, false) := by
  unfold setnx
  cases found : s with
  | none => rfl
  | some entry =>
    rw [found] at held
    rw [get_of_held held rfl]
    rfl

theorem setnx_ne_none (now ttl : ℕ) (value : α) (s : Slot α) : (s.setnx now ttl value).1 ≠ none := by
  unfold setnx
  split_ifs with live
  · intro empty
    obtain rfl : s = none := empty
    cases live
  · exact Option.some_ne_none _

end Slot

end RemudaRmm.Foundation
