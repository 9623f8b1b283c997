import RemudaRmm.Security.DlpDetectors

/-! Which card numbers the card detector finds: its expression is matched greedily from the left, one match after
another, and what is matched is validated only then. -/
namespace RemudaRmm.Security
open Foundation List

def isSeparatorUnit (u : UInt16) : Bool := u == 32 || u == 45

def startsWithDigit (t : Units) : Bool := t.head?.any isDigitUnit

/-- The text begins with a number of so many digits, with at most one separator between two of them and no digit after
it; the last argument is its length. -/
inductive CardNumber : ℕ → Units → ℕ → Prop
  | last {u : UInt16} {rest : Units} (digit : isDigitUnit u = true) (ends : startsWithDigit rest = false) :
    CardNumber 1 (u :: rest) 1
  | digit {u : UInt16} {rest : Units} {digits length : ℕ} (digit : isDigitUnit u = true)
    (later : CardNumber digits rest length) : CardNumber (digits + 1) (u :: rest) (length + 1)
  | separated {u s : UInt16} {rest : Units} {digits length : ℕ} (digit : isDigitUnit u = true)
    (separator : isSeparatorUnit s = true) (later : CardNumber digits rest length) :
    CardNumber (digits + 1) (u :: s :: rest) (length + 2)

section Number
variable {t rest : Units} {u : UInt16} {digits length left k : ℕ}

theorem CardNumber.bounds (number : CardNumber digits t length) :
    0 < digits ∧ 0 < length ∧ length ≤ t.length ∧ startsWithDigit t = true := by
  induction number with
  | last digit ends => exact ⟨Nat.one_pos, Nat.one_pos, by simp, digit⟩
  | digit digit later ih => exact ⟨Nat.succ_pos _, Nat.succ_pos _, Nat.succ_le_succ ih.2.2.1, digit⟩
  | separated digit separator later ih =>
    exact ⟨Nat.succ_pos _, Nat.succ_pos _, Nat.succ_le_succ (Nat.succ_le_succ ih.2.2.1), digit⟩

end Number

section Scan
variable {t front rest : Units} {c m : Span} {skip k : ℕ} {u : UInt16}

end Scan

section Detect
variable {engine : RegExpEngine} {t : Units} {c : Span}

end Detect

end RemudaRmm.Security
