import Mathlib.Tactic.SplitIfs

/-! Checks that end a computation with an error. -/
namespace RemudaRmm.Foundation
universe u v
variable {ε : Type u} {α β : Type v}

def require (P : Prop) [Decidable P] (e : ε) : Except ε PUnit.{v + 1} := if P then .ok ⟨⟩ else .error e

def orFail (found : Option α) (e : ε) : Except ε α := found.elim (.error e) .ok

def checkGiven (given : Option α) (check : α → Except ε β) : Except ε (Option β) :=
  match given with
  | none => .ok none
  | some a => (check a).map some

theorem except_bind_ok {x : Except ε α} {f : α → Except ε β} {r : β} (bound : x >>= f = .ok r) :
    ∃ a, x = .ok a ∧ f a = .ok r := by
  cases x with
  | error e => cases bound
  | ok a => exact ⟨a, rfl, bound⟩

theorem except_map_ok {x : Except ε α} {f : α → β} {r : β} (mapped : x.map f = .ok r) : ∃ a, x = .ok a ∧ f a = r := by
  cases x with
  | error e => cases mapped
  | ok a => exact ⟨a, rfl, Except.ok.inj mapped⟩

theorem toOption_ok {x : Except ε α} {a : α} (accepted : x.toOption = some a) : x = .ok a := by
  cases x with
  | error e => cases accepted
  | ok b => exact congrArg Except.ok (Option.some.inj accepted)

theorem require_ok {P : Prop} [Decidable P] {e : ε} {u : PUnit.{v + 1}} (passed : require P e = .ok u) : P := by
  unfold require at passed
  split_ifs at passed with holds
  exact holds

theorem orFail_ok {found : Option α} {e : ε} {a : α} (passed : orFail found e = .ok a) : found = some a := by
  cases found with
  | none => cases passed
  | some b => exact congrArg some (Except.ok.inj passed)

theorem checkGiven_ok {given : Option α} {check : α → Except ε β} {result : Option β}
    (passed : checkGiven given check = .ok result) {a : α} (here : given = some a) :
    ∃ b, check a = .ok b ∧ result = some b := by
  subst here
  obtain ⟨b, checked, same⟩ := except_map_ok passed
  exact ⟨b, checked, same.symm⟩

end RemudaRmm.Foundation
