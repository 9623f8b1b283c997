import Mathlib.Tactic.TypeStar

/-! Programs that issue one command at a time and go on with its answer: how they compose, what one of them does to a
state when it runs alone, and rules for the order of its commands. -/
namespace RemudaRmm.Foundation

/-- A program ends with a value, or it issues a command and goes on with the answer. -/
inductive Program (C : Type) (R : C → Type) (α : Type) : Type where
  | done (a : α)
  | call (c : C) (rest : R c → Program C R α)

namespace Program
variable {C : Type} {R : C → Type} {α β ι : Type}

def bind : Program C R α → (α → Program C R β) → Program C R β
  | done a, next => next a
  | call c rest, next => call c fun r => (rest r).bind next

instance : Monad (Program C R) where
  pure := done
  bind := bind

def perform (c : C) : Program C R (R c) := call c done

theorem pure_eq (a : α) : (pure a : Program C R α) = done a := rfl

@[simp] theorem done_bind (a : α) (next : α → Program C R β) : (done a : Program C R α) >>= next = next a := rfl

@[simp] theorem pure_bind (a : α) (next : α → Program C R β) : (pure a : Program C R α) >>= next = next a := rfl

@[simp] theorem call_bind (c : C) (rest : R c → Program C R α) (next : α → Program C R β) :
    call c rest >>= next = call c fun r => rest r >>= next := rfl

@[simp] theorem perform_bind (c : C) (next : R c → Program C R β) : perform c >>= next = call c next := rfl

section Alone
variable {σ : Type*} {answer : (c : C) → σ → R c × σ}

/-- The value a program ends with and the state it leaves, when nothing else runs. -/
def exec (answer : (c : C) → σ → R c × σ) : Program C R α → σ → α × σ
  | done a, s => (a, s)
  | call c rest, s => exec answer (rest (answer c s).1) (answer c s).2

@[simp] theorem exec_done (a : α) (s : σ) : exec answer (done a : Program C R α) s = (a, s) := rfl

@[simp] theorem exec_pure (a : α) (s : σ) : exec answer (pure a : Program C R α) s = (a, s) := rfl

@[simp] theorem exec_call (c : C) (rest : R c → Program C R α) (s : σ) :
    exec answer (call c rest) s = exec answer (rest (answer c s).1) (answer c s).2 := rfl

@[simp] theorem exec_perform (c : C) (s : σ) : exec answer (perform c) s = answer c s := rfl

theorem exec_bind (p : Program C R α) (next : α → Program C R β) (s : σ) :
    exec answer (p >>= next) s = exec answer (next (exec answer p s).1) (exec answer p s).2 := by
  induction p generalizing s with
  | done a => rfl
  | call c rest ih => exact ih (answer c s).1 (answer c s).2

theorem exec_discard (p : Program C R α) (s : σ) : (exec answer (discard p) s).2 = (exec answer p s).2 :=
  congrArg Prod.snd (exec_bind p _ s)

theorem exec_foldlM_of_idle {body : α → ι → Program C R α} {s : σ} (idle : ∀ a x, (exec answer (body a x) s).2 = s)
    (xs : List ι) (a : α) : (exec answer (xs.foldlM body a) s).2 = s := by
  induction xs generalizing a with
  | nil => rfl
  | cons x xs ih => rw [List.foldlM_cons, exec_bind, idle, ih]

end Alone

/-- The commands a phase admits, the answers that can come back, and the phase after each. -/
structure Protocol (C : Type) (R : C → Type) (S : Type) where
  admits : S → C → Prop
  answers : (c : C) → R c → Prop
  next : S → (c : C) → R c → S

variable {S : Type} {K : Protocol C R S} {ends final : S → α → Prop}

/-- The program keeps to the protocol from the phase on, whatever is answered, and ends as stated. -/
def Obeys (K : Protocol C R S) (ends : S → α → Prop) : S → Program C R α → Prop
  | s, done a => ends s a
  | s, call c rest => K.admits s c ∧ ∀ r, K.answers c r → Obeys K ends (K.next s c r) (rest r)

theorem Obeys.call {s : S} {c : C} {rest : R c → Program C R α} (admitted : K.admits s c)
    (later : ∀ r, K.answers c r → Obeys K ends (K.next s c r) (rest r)) : Obeys K ends s (call c rest) :=
  ⟨admitted, later⟩

variable {p : Program C R α}

theorem Obeys.mono {s : S} (obeys : Obeys K ends s p) (gives : ∀ s a, ends s a → final s a) : Obeys K final s p := by
  induction p generalizing s with
  | done a => exact gives s a obeys
  | call c rest ih => exact ⟨obeys.1, fun r possible => ih r (obeys.2 r possible)⟩

theorem Obeys.bind {ends : S → α → Prop} {final : S → β → Prop} {s : S}
    {next : α → Program C R β} (obeys : Obeys K ends s p) (later : ∀ s a, ends s a → Obeys K final s (next a)) :
    Obeys K final s (p >>= next) := by
  induction p generalizing s with
  | done a => exact later s a obeys
  | call c rest ih => exact ⟨obeys.1, fun r possible => ih r (obeys.2 r possible)⟩

theorem Obeys.foldlM {body : α → ι → Program C R α} (round : ∀ s a x, ends s a → Obeys K ends s (body a x))
    {s : S} {a : α} (start : ends s a) (xs : List ι) : Obeys K ends s (xs.foldlM body a) := by
  induction xs generalizing s a with
  | nil => exact start
  | cons x xs ih =>
    rw [List.foldlM_cons]
    exact (round s a x start).bind fun s a kept => ih kept

theorem Obeys.discard {ends : S → Prop} {s : S} (obeys : Obeys K (fun s _ => ends s) s p) :
    Obeys K (fun s _ => ends s) s (discard p) :=
  obeys.bind fun _ _ kept => kept

end Program

end RemudaRmm.Foundation
