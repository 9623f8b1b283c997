import Mathlib.Data.List.Nodup

/-! A queue of jobs by id. A finished job is kept among the last of its kind, as many as its own options say, and while
an id is held, by a job that goes on or by one that is kept, adding it again has no effect. -/
namespace RemudaRmm.Foundation
open List

structure JobQueue (κ : Type*) where
  (live completed failed : List κ)
  once : live.Nodup
  apart : ∀ id ∈ live, id ∉ completed ∧ id ∉ failed

namespace JobQueue
variable {κ : Type*}

def Retained (q : JobQueue κ) (id : κ) : Prop := id ∈ q.completed ∨ id ∈ q.failed

def empty : JobQueue κ := ⟨[], [], [], nodup_nil, nofun⟩

variable [DecidableEq κ]

instance (q : JobQueue κ) (id : κ) : Decidable (q.Retained id) := inferInstanceAs (Decidable (_ ∨ _))

def add (id : κ) (q : JobQueue κ) : JobQueue κ :=
  if held : id ∈ q.live ∨ q.Retained id then q
  else
    { q with
      live := id :: q.live
      once := nodup_cons.mpr ⟨fun live => held (.inl live), q.once⟩
      apart := by
        obtain ⟨-, fresh⟩ := not_or.mp held
        exact forall_mem_cons.mpr ⟨not_or.mp fresh, q.apart⟩ }

omit [DecidableEq κ] in
theorem not_mem_take_cons {l : List κ} {id other : κ} (keep : ℕ) (distinct : other ≠ id) (fresh : other ∉ l) :
    other ∉ (id :: l).take keep := by
  intro kept
  rcases mem_cons.mp (mem_of_mem_take kept) with same | old
  · exact distinct same
  · exact fresh old

/-- A live job ends, and as many finished ones as it says are kept of its kind. -/
def finish (id : κ) (success : Bool) (keep : ℕ) (q : JobQueue κ) : JobQueue κ :=
  if id ∈ q.live then
    { live := q.live.erase id
      completed := if success then (id :: q.completed).take keep else q.completed
      failed := if success then q.failed else (id :: q.failed).take keep
      once := q.once.erase id
      apart := by
        intro other member
        obtain ⟨distinct, live⟩ := q.once.mem_erase_iff.mp member
        obtain ⟨notCompleted, notFailed⟩ := q.apart other live
        split_ifs
        · exact ⟨not_mem_take_cons keep distinct notCompleted, notFailed⟩
        · exact ⟨notCompleted, not_mem_take_cons keep distinct notFailed⟩ }
  else q

/-- After it is added an id is live exactly where no finished job was kept under it. -/
theorem mem_live_add {id : κ} {q : JobQueue κ} : id ∈ (q.add id).live ↔ ¬q.Retained id := by
  unfold add
  split_ifs with held
  · constructor
    · intro live
      exact not_or.mpr (q.apart id live)
    · exact held.resolve_right
  · exact iff_of_true mem_cons_self (not_or.mp held).2

end JobQueue

end RemudaRmm.Foundation
