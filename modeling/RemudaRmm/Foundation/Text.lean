import Mathlib.Tactic.Ring
import Mathlib.Tactic.Linarith

/-! Text as a list of characters: comparison by code unit from the left, and decimal numerals
written, padded and read back. Nothing here names a program. -/
namespace RemudaRmm.Foundation
open List
variable {a b c t : Text} {n : Nat} {sep : Char}

abbrev Text := List Char

/-- Membership of texts is decided by one instance in every module. -/
instance lawfulBEqText : LawfulBEq Text := inferInstance

/-- Left-to-right comparison by code unit; a proper beginning is the smaller text. -/
def textLt : Text → Text → Bool
  | [], [] => false
  | [], _ :: _ => true
  | _ :: _, [] => false
  | a :: as, b :: bs => if a = b then textLt as bs else decide (a.toNat < b.toNat)

def textLe (a b : Text) : Bool := !textLt b a

theorem textLt_of_lt_of_le (less : textLt c a = true) (le : textLt b a = false) : textLt c b = true := by
  induction a generalizing b c with
  | nil => cases c <;> cases less
  | cons x a ih =>
    cases b with
    | nil => cases le
    | cons y b =>
      cases c with
      | nil => rfl
      | cons z c =>
        simp only [textLt] at less le ⊢
        by_cases front : y = x
        · subst front
          rw [if_pos rfl] at le
          split_ifs at less ⊢ with head
          · exact ih less le
          · exact less
        · rw [if_neg front, decide_eq_false_iff_not, not_lt] at le
          have apart : y.toNat ≠ x.toNat := fun same => front (Char.toNat_inj.mp same)
          have order : z.toNat ≤ x.toNat := by
            split_ifs at less with head
            · rw [head]
            · exact (of_decide_eq_true less).le
          have strict : z.toNat < y.toNat := by omega
          rw [if_neg (fun same => by rw [same] at strict; exact lt_irrefl _ strict)]
          exact decide_eq_true strict

theorem textLe_trans (first : textLe a b = true) (second : textLe b c = true) : textLe a c = true := by
  cases back : textLt c a with
  | false => rw [textLe, back, Bool.not_false]
  | true =>
    rw [textLe, Bool.not_eq_true'] at first second
    rw [textLt_of_lt_of_le back first] at second
    cases second

def decimal (n : Nat) : Text := Nat.toDigits 10 n

def padStart (width : Nat) (t : Text) : Text := List.replicate (width - t.length) '0' ++ t

def number (t : Text) : Nat := Nat.ofDigitChars 10 t 0

def Digits (t : Text) : Prop := ∀ c ∈ t, c.isDigit

theorem digits_decimal (n : Nat) : Digits (decimal n) := fun _ member =>
  Nat.isDigit_of_mem_toDigits (by decide) (by decide) member

theorem digits_padStart (width : Nat) (h : Digits t) : Digits (padStart width t) := by
  intro c member
  rcases mem_append.mp member with zero | tail
  · rw [eq_of_mem_replicate zero]
    rfl
  · exact h c tail

@[simp] theorem number_decimal (n : Nat) : number (decimal n) = n := Nat.ofDigitChars_ten_toDigits

@[simp] theorem number_padStart (width : Nat) (t : Text) : number (padStart width t) = number t := by
  simp only [number, padStart, Nat.ofDigitChars_append, Nat.ofDigitChars_replicate_zero, Nat.mul_zero]

theorem padStart_injective {width m : Nat} (h : padStart width (decimal m) = padStart width (decimal n)) : m = n := by
  simpa only [number_padStart, number_decimal] using congrArg number h

theorem length_padStart {width : Nat} (positive : 0 < width) (small : n < 10 ^ width) :
    (padStart width (decimal n)).length = width := by
  have bound := (Nat.length_toDigits_le_iff (b := 10) (by decide) positive).mpr small
  simp only [padStart, length_append, length_replicate]
  simp only [decimal]
  omega

theorem length_decimal_four (low : 1000 ≤ n) (high : n ≤ 9999) : (decimal n).length = 4 := by
  have upper := (Nat.length_toDigits_le_iff (n := n) (k := 4) (b := 10) (by decide) (by decide)).mpr
    (by omega)
  have lower := mt (Nat.length_toDigits_le_iff (n := n) (k := 3) (b := 10) (by decide) (by decide)).mp
    (by omega)
  simp only [decimal]
  omega

theorem number_cons (c : Char) (t : Text) : number (c :: t) = 10 ^ t.length * (c.toNat - 48) + number t := by
  rw [number, Nat.ofDigitChars_cons, Nat.ofDigitChars_eq_ofDigitChars_zero]
  simp [number]

theorem digit_bounds {c : Char} (h : c.isDigit) : 48 ≤ c.toNat ∧ c.toNat ≤ 57 := by
  simp only [Char.isDigit, Bool.and_eq_true, decide_eq_true_eq] at h
  exact ⟨h.1, h.2⟩

theorem number_lt (h : Digits t) : number t < 10 ^ t.length := by
  induction t with
  | nil => simp [number]
  | cons c t ih =>
    have tail := ih fun d member => h d (mem_cons_of_mem c member)
    have head := digit_bounds (h c mem_cons_self)
    rw [number_cons, length_cons, Nat.pow_succ]
    calc 10 ^ t.length * (c.toNat - 48) + number t
        < 10 ^ t.length * (c.toNat - 48) + 10 ^ t.length := by omega
      _ = 10 ^ t.length * (c.toNat - 48 + 1) := by ring
      _ ≤ 10 ^ t.length * 10 := Nat.mul_le_mul_left _ (by omega)

/-- Numerals of one width compare as numbers, and equal numerals defer to what follows them. -/
theorem textLt_digits (same : a.length = b.length) (ha : Digits a) (hb : Digits b) (s t : Text) :
    textLt (a ++ s) (b ++ t) = if number a = number b then textLt s t else decide (number a < number b) := by
  induction a generalizing b with
  | nil =>
    have empty : b = [] := length_eq_zero_iff.mp same.symm
    simp [empty]
  | cons c a ih =>
    cases b with
    | nil => simp at same
    | cons d b =>
      have width : a.length = b.length := by simpa using same
      have ha' : Digits a := fun x member => ha x (mem_cons_of_mem c member)
      have hb' : Digits b := fun x member => hb x (mem_cons_of_mem d member)
      have hc := digit_bounds (ha c mem_cons_self)
      have hd := digit_bounds (hb d mem_cons_self)
      have la := number_lt ha'
      have lb := number_lt hb'
      simp only [cons_append, textLt, number_cons]
      rw [width] at la ⊢
      by_cases heads : c = d
      · subst heads
        simp only [if_true, ih width ha' hb', Nat.add_left_cancel_iff, Nat.add_lt_add_iff_left]
      · have apart : c.toNat ≠ d.toNat := fun h => heads (Char.toNat_inj.mp h)
        rw [if_neg heads]
        rcases Nat.lt_or_gt_of_ne apart with less | more
        · have gap := Nat.mul_le_mul_left (10 ^ b.length)
            (show c.toNat - 48 + 1 ≤ d.toNat - 48 by omega)
          rw [Nat.mul_add, Nat.mul_one] at gap
          rw [if_neg (by omega), decide_eq_true less, decide_eq_true (by omega)]
        · have gap := Nat.mul_le_mul_left (10 ^ b.length)
            (show d.toNat - 48 + 1 ≤ c.toNat - 48 by omega)
          rw [Nat.mul_add, Nat.mul_one] at gap
          rw [if_neg (by omega), decide_eq_false (by omega), decide_eq_false (by omega)]

theorem digits_beq_false (notDigit : sep.isDigit = false) (h : Digits t) : ∀ c ∈ t, (c == sep) = false := by
  intro c member
  rw [beq_eq_false_iff_ne]
  rintro rfl
  rw [h c member] at notDigit
  cases notDigit

/-- Splitting off the digits in front of a separator that is not one. -/
theorem splitOn_digits (notDigit : sep.isDigit = false) (h : Digits t)
    (rest : Text) : (t ++ sep :: rest).splitOn sep = t :: rest.splitOn sep :=
  splitOnP_append_cons_of_forall_mem (digits_beq_false notDigit h) sep (beq_self_eq_true sep) rest

theorem splitOn_last (notDigit : sep.isDigit = false) (h : Digits t) :
    t.splitOn sep = [t] :=
  splitOnP_eq_singleton (digits_beq_false notDigit h)

theorem intercalate_append {α : Type} {sep : α} {front back : List (List α)} (some_front : front ≠ [])
    (some_back : back ≠ []) :
    [sep].intercalate (front ++ back) = [sep].intercalate front ++ sep :: [sep].intercalate back := by
  induction front with
  | nil => exact absurd rfl some_front
  | cons t front ih =>
    cases front with
    | nil =>
      obtain ⟨u, rest, rfl⟩ := exists_cons_of_ne_nil some_back
      rw [singleton_append, intercalate_cons_cons, intercalate_singleton, append_assoc, singleton_append]
    | cons u front =>
      rw [cons_append, cons_append, intercalate_cons_cons, intercalate_cons_cons,
        ← cons_append, ih (cons_ne_nil _ _), append_assoc, append_assoc, append_assoc]

theorem append_sep_inj {α : Type} {a b c d : List α} {sep : α} (first : sep ∉ a) (second : sep ∉ c)
    (same : a ++ sep :: b = c ++ sep :: d) : a = c ∧ b = d := by
  induction a generalizing c with
  | nil =>
    cases c with
    | nil => exact ⟨rfl, (List.cons.inj same).2⟩
    | cons y c => exact absurd ((List.cons.inj same).1 ▸ mem_cons_self) second
  | cons x a ih =>
    cases c with
    | nil => exact absurd ((List.cons.inj same).1 ▸ mem_cons_self) first
    | cons y c =>
      obtain ⟨rfl, rest⟩ := List.cons.inj same
      obtain ⟨rfl, after⟩ := ih (fun member => first (mem_cons_of_mem x member))
        (fun member => second (mem_cons_of_mem x member)) rest
      exact ⟨rfl, after⟩

theorem append_last_sep_inj {d : Text} (first : sep ∉ b) (second : sep ∉ d)
    (same : a ++ sep :: b = c ++ sep :: d) : a = c ∧ b = d := by
  have mirrored : b.reverse ++ sep :: a.reverse = d.reverse ++ sep :: c.reverse := by
    simpa only [reverse_append, reverse_cons, append_assoc, singleton_append]
      using congrArg List.reverse same
  obtain ⟨after, front⟩ := append_sep_inj (mt mem_reverse.mp first) (mt mem_reverse.mp second) mirrored
  exact ⟨reverse_inj.mp front, reverse_inj.mp after⟩

theorem forall_mem_of_all {p : Char → Prop} [DecidablePred p]
    (checked : t.all (fun c => decide (p c)) = true) : ∀ c ∈ t, p c :=
  fun c member => of_decide_eq_true (List.all_eq_true.mp checked c member)

def startsWith (front : String) (t : Text) : Bool := front.toList.isPrefixOf t

def isHexDigit (c : Char) : Bool := c.isDigit || ('a' ≤ c && c ≤ 'f') || ('A' ≤ c && c ≤ 'F')

def oneOf (chars : String) (c : Char) : Bool := chars.toList.contains c.toLower

def literal (chars : String) : List (Char → Bool) := chars.toList.map fun c d => d.toLower == c.toLower

def matchesFront : List (Char → Bool) → Text → Bool
  | [], _ => true
  | _ :: _, [] => false
  | kind :: rest, c :: t => kind c && matchesFront rest t

def numberAfter (front : String) (t : Text) : Option ℕ :=
  let rest := t.drop front.length
  let digits := rest.takeWhile Char.isDigit
  if startsWith front t ∧ digits ≠ [] ∧ (rest.dropWhile Char.isDigit).head? = some '.' then some (number digits)
  else none

theorem startsWith_append (front : String) (t : Text) : startsWith front (front.toList ++ t) = true :=
  List.isPrefixOf_iff_prefix.mpr (prefix_append _ t)

theorem matchesFront_literal (chars : String) (rest : List (Char → Bool)) (t : Text) :
    matchesFront (literal chars ++ rest) (chars.toList ++ t) = matchesFront rest t := by
  unfold literal
  induction chars.toList with
  | nil => rfl
  | cons c cs ih =>
    simp only [map_cons, cons_append, matchesFront, beq_self_eq_true, Bool.true_and]
    exact ih

theorem matchesFront_classes (front sep : String) {classes : List (Char → Bool)} (rest : Text)
    (matched : List.Forall₂ (fun kind c => kind c = true) classes t) :
    matchesFront (literal front ++ classes ++ literal sep) (front.toList ++ (t ++ (sep.toList ++ rest))) = true := by
  have classed : matchesFront (classes ++ literal sep) (t ++ (sep.toList ++ rest)) = true := by
    induction matched with
    | nil =>
      have closed := matchesFront_literal sep [] rest
      rw [append_nil] at closed
      exact closed
    | cons member _ ih =>
      simp only [cons_append, matchesFront, member, Bool.true_and]
      exact ih
  rw [append_assoc, matchesFront_literal]
  exact classed

theorem numberAfter_decimal (front : String) (n : ℕ) (t : Text) :
    numberAfter front (front.toList ++ (decimal n ++ '.' :: t)) = some n := by
  have digits : (decimal n ++ '.' :: t).takeWhile Char.isDigit = decimal n := by
    rw [takeWhile_append_of_pos (digits_decimal n), takeWhile_cons_of_neg (by decide), append_nil]
  have rest : (decimal n ++ '.' :: t).dropWhile Char.isDigit = '.' :: t := by
    rw [dropWhile_append_of_pos (digits_decimal n), dropWhile_cons_of_neg (by decide)]
  have dropped : (front.toList ++ (decimal n ++ '.' :: t)).drop front.length = decimal n ++ '.' :: t := by
    rw [← String.length_toList, drop_left]
  unfold numberAfter
  simp only [dropped, digits, rest, number_decimal]
  exact if_pos ⟨startsWith_append front _, Nat.toDigits_ne_nil, rfl⟩

end RemudaRmm.Foundation
