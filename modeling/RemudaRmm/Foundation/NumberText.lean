import Mathlib.Data.Rat.Floor
import Mathlib.Data.Int.Log
import Mathlib.Data.List.TakeWhile
import RemudaRmm.Foundation.Encodings

/-! Text that is read as a number: decimal with an exponent, or an integer in base two, eight or sixteen, rounded to the
next double. What is not a number, or too large for one, is `none`. -/
namespace RemudaRmm.Foundation
open List

def roundEven (q : ℚ) : ℤ :=
  if Int.fract q < 1 / 2 then ⌊q⌋
  else if 1 / 2 < Int.fract q then ⌊q⌋ + 1
  else if ⌊q⌋ % 2 = 0 then ⌊q⌋
  else ⌊q⌋ + 1

def doubleUnit (q : ℚ) : ℚ := 2 ^ (max (Int.log 2 |q|) (-1022) - 52)

def toDouble (q : ℚ) : Option ℚ :=
  let rounded := roundEven (q / doubleUnit q) * doubleUnit q
  if |rounded| < 2 ^ 1024 then some rounded else none

def digitsOf (t : Text) : Option ℕ := if t ≠ [] ∧ t.all Char.isDigit then some (number t) else none

def exponentOf : Text → Option ℤ
  | [] => some 0
  | c :: rest =>
    if c = 'e' ∨ c = 'E' then
      match rest with
      | '+' :: digits => (digitsOf digits).map fun n => (n : ℤ)
      | '-' :: digits => (digitsOf digits).map fun n => -(n : ℤ)
      | digits => (digitsOf digits).map fun n => (n : ℤ)
    else none

def unsignedDecimal (t : Text) : Option ℚ :=
  let whole := t.takeWhile Char.isDigit
  let rest := t.dropWhile Char.isDigit
  let fraction := if rest.head? = some '.' then rest.tail.takeWhile Char.isDigit else []
  let tail := if rest.head? = some '.' then rest.tail.dropWhile Char.isDigit else rest
  if whole = [] ∧ fraction = [] then none
  else (exponentOf tail).map fun e => (number (whole ++ fraction) : ℚ) * 10 ^ (e - (fraction.length : ℤ))

def decimalNumber : Text → Option ℚ
  | '+' :: t => unsignedDecimal t
  | '-' :: t => (unsignedDecimal t).map fun q => -q
  | t => unsignedDecimal t

def ofBase (base : ℕ) (t : Text) : ℕ := t.foldl (fun n c => base * n + "0123456789abcdef".toList.idxOf c.toLower) 0

def baseNumber (base : ℕ) (t : Text) : Option ℚ :=
  if t ≠ [] ∧ t.all (fun c => "0123456789abcdef".toList.idxOf c.toLower < base) then some (ofBase base t) else none

def writtenBase : Text → Option ℕ
  | '0' :: c :: _ =>
    if c.toLower = 'x' then some 16 else if c.toLower = 'o' then some 8 else if c.toLower = 'b' then some 2 else none
  | _ => none

def toNumber (t : Text) : Option ℚ :=
  let trimmed := trimBy (fun c => isSpaceCode c.toNat) t
  if trimmed = [] then some 0
  else
    match writtenBase trimmed with
    | some base => (baseNumber base (trimmed.drop 2)).bind toDouble
    | none => (decimalNumber trimmed).bind toDouble

theorem roundEven_intCast (k : ℤ) : roundEven (k : ℚ) = k := by
  rw [roundEven, Int.fract_intCast, Int.floor_intCast, if_pos (by norm_num)]

theorem toDouble_natCast {n : ℕ} (small : n < 2 ^ 53) : toDouble (n : ℚ) = some (n : ℚ) := by
  have magnitude : |(n : ℚ)| = n := abs_of_nonneg (Nat.cast_nonneg n)
  have log : Int.log 2 (n : ℚ) = (Nat.log 2 n : ℤ) := Int.log_natCast 2 n
  have bound : Nat.log 2 n ≤ 52 := by
    have less := Nat.log_lt_of_lt_pow' (b := 2) (by decide : (53 : ℕ) ≠ 0) small
    omega
  have unit : doubleUnit (n : ℚ) = (2 ^ (52 - Nat.log 2 n) : ℚ)⁻¹ := by
    rw [doubleUnit, magnitude, log, max_eq_left (by omega)]
    rw [← zpow_natCast, ← zpow_neg]
    congr 1
    omega
  have scaled : (n : ℚ) / doubleUnit n = ((n * 2 ^ (52 - Nat.log 2 n) : ℕ) : ℤ) := by
    rw [unit, div_inv_eq_mul]
    push_cast
    rfl
  have rounded : (roundEven ((n : ℚ) / doubleUnit n) : ℚ) * doubleUnit n = n := by
    rw [scaled, roundEven_intCast, unit]
    push_cast
    exact mul_inv_cancel_right₀ (by positivity) _
  have finite : |(n : ℚ)| < 2 ^ 1024 := by
    rw [magnitude]
    calc (n : ℚ) < 2 ^ 53 := by exact_mod_cast small
      _ ≤ 2 ^ 1024 := pow_le_pow_right₀ (by norm_num) (by norm_num)
  simp only [toDouble, rounded, finite, if_true]

theorem trimBy_of_forall {α : Type} {kind : α → Bool} {t : List α} (none : ∀ c ∈ t, kind c = false) :
    trimBy kind t = t := by
  have front : ∀ l : List α, (∀ c ∈ l, kind c = false) → l.dropWhile kind = l := by
    intro l plain
    cases l with
    | nil => rfl
    | cons c l => exact dropWhile_cons_of_neg (by rw [plain c mem_cons_self]; decide)
  rw [trimBy, front t none, front t.reverse fun c member => none c (mem_reverse.mp member), reverse_reverse]

theorem writtenBase_digits {t : Text} (digits : Digits t) : writtenBase t = none := by
  unfold writtenBase
  split
  next c rest =>
    have bounds := digit_bounds (digits c (mem_cons_of_mem _ mem_cons_self))
    have ten : ∀ k < 10, (Char.ofNat (48 + k)).toLower ∉ ['x', 'o', 'b'] := by decide
    have other := ten (c.toNat - 48) (by omega)
    rw [Nat.add_sub_cancel' bounds.1, Char.ofNat_toNat] at other
    simp only [mem_cons, not_mem_nil, or_false, not_or] at other
    rw [if_neg other.1, if_neg other.2.1, if_neg other.2.2]
  · rfl

theorem toNumber_decimal {n : ℕ} (small : n < 2 ^ 53) : toNumber (decimal n) = some (n : ℚ) := by
  have digits := digits_decimal n
  have filled : decimal n ≠ [] := Nat.toDigits_ne_nil
  have trimmed : trimBy (fun c => isSpaceCode c.toNat) (decimal n) = decimal n := by
    refine trimBy_of_forall fun c member => ?_
    have bounds := digit_bounds (digits c member)
    have ten : ∀ k < 58, 48 ≤ k → isSpaceCode k = false := by decide
    exact ten c.toNat (by omega) bounds.1
  have read : unsignedDecimal (decimal n) = some (n : ℚ) := by
    have whole : (decimal n).takeWhile Char.isDigit = decimal n := takeWhile_eq_self_iff.mpr digits
    have rest : (decimal n).dropWhile Char.isDigit = [] := dropWhile_eq_nil_iff.mpr digits
    simp [unsignedDecimal, whole, rest, filled, exponentOf]
  have unsigned : decimalNumber (decimal n) = unsignedDecimal (decimal n) := by
    unfold decimalNumber
    split
    next same => exact absurd (digits '+' (same ▸ mem_cons_self)) (by decide)
    next same => exact absurd (digits '-' (same ▸ mem_cons_self)) (by decide)
    · rfl
  rw [toNumber, trimmed, if_neg filled, writtenBase_digits digits, unsigned, read]
  exact toDouble_natCast small

theorem ofBase_toDigits (n : ℕ) : ofBase 16 (Nat.toDigits 16 n) = n := by
  have digit : ∀ d < 16, "0123456789abcdef".toList.idxOf (Nat.digitChar d).toLower = d := by decide
  induction n using Nat.strong_induction_on with
  | _ n ih =>
    rw [Nat.toDigits_eq_if (by decide)]
    split_ifs with small
    · rw [ofBase, foldl_cons, foldl_nil, digit n small]
      omega
    · have front := ih (n / 16) (by omega)
      rw [ofBase] at front
      rw [ofBase, foldl_append, front, foldl_cons, foldl_nil, digit _ (by omega)]
      omega

end RemudaRmm.Foundation
