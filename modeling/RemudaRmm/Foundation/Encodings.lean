import Mathlib.Data.List.Basic
import RemudaRmm.Foundation.Text

/-! Text as code units of sixteen bits, in which half of a pair may stand alone; its bytes in UTF-8, where such a half
is replaced; and bytes written as text with six bits to a symbol. -/
namespace RemudaRmm.Foundation
open List

abbrev Bytes := List UInt8

abbrev Units := List UInt16

def charUnits (c : Char) : Units :=
  if c.toNat < 0x10000 then [UInt16.ofNat c.toNat]
  else [UInt16.ofNat (0xd800 + (c.toNat - 0x10000) / 0x400), UInt16.ofNat (0xdc00 + (c.toNat - 0x10000) % 0x400)]

def units (t : Text) : Units := t.flatMap charUnits

def isHighHalf (u : UInt16) : Bool := 0xd800 ≤ u.toNat && u.toNat < 0xdc00

def isLowHalf (u : UInt16) : Bool := 0xdc00 ≤ u.toNat && u.toNat < 0xe000

def replacement : Char := Char.ofNat 0xfffd

/-- The characters of the text, where a half that stands alone is replaced. -/
def scalars : Units → Text
  | [] => []
  | [u] => if isHighHalf u || isLowHalf u then [replacement] else [Char.ofNat u.toNat]
  | u :: v :: rest =>
    if isHighHalf u then
      if isLowHalf v then
        Char.ofNat (0x10000 + (u.toNat - 0xd800) * 0x400 + (v.toNat - 0xdc00)) :: scalars rest
      else replacement :: scalars (v :: rest)
    else if isLowHalf u then replacement :: scalars (v :: rest)
    else Char.ofNat u.toNat :: scalars (v :: rest)

def WellFormed (u : Units) : Prop := units (scalars u) = u
  deriving Decidable

def isSpaceCode (n : ℕ) : Bool :=
  (9 ≤ n && n ≤ 13) || n == 32 || n == 0xa0 || n == 0x1680 || (0x2000 ≤ n && n ≤ 0x200a) || n == 0x2028 ||
    n == 0x2029 || n == 0x202f || n == 0x205f || n == 0x3000 || n == 0xfeff

def trimBy {α : Type} (kind : α → Bool) (t : List α) : List α := ((t.dropWhile kind).reverse.dropWhile kind).reverse

def trimUnits (u : Units) : Units := trimBy (fun c => isSpaceCode c.toNat) u

theorem char_scalar (c : Char) : c.toNat < 0xd800 ∨ (0xdfff < c.toNat ∧ c.toNat < 0x110000) := c.valid

def utf8 (u : Units) : Bytes := (String.ofList (scalars u)).toByteArray.data.toList

/-- The text of bytes. What is made of bytes that are not one is a parameter. -/
def ofUtf8 (replaced : Bytes → Text) (bytes : Bytes) : Units :=
  match (ByteArray.mk bytes.toArray).utf8Decode? with
  | some chars => units chars.toList
  | none => units (replaced bytes)

theorem ofUtf8_utf8 (replaced : Bytes → Text) (u : Units) : ofUtf8 replaced (utf8 u) = units (scalars u) := by
  have whole : ByteArray.mk (utf8 u).toArray = (scalars u).utf8Encode := by
    rw [utf8, Array.toArray_toList, String.toByteArray_ofList]
  rw [ofUtf8, whole, utf8Decode?_utf8Encode]

theorem scalars_ne_nil {u : Units} (some_unit : u ≠ []) : scalars u ≠ [] := by
  fun_cases scalars u
  case case1 => exact absurd rfl some_unit
  all_goals exact cons_ne_nil _ _

theorem utf8_ne_nil {u : Units} (some_unit : u ≠ []) : utf8 u ≠ [] := by
  intro empty
  obtain ⟨c, t, chars⟩ := exists_cons_of_ne_nil (scalars_ne_nil some_unit)
  have size := congrArg List.length empty
  rw [utf8, chars, String.toByteArray_ofList, utf8Encode_cons] at size
  simp at size

def base64Symbols : Units := units "ABCDEFGHIJKLMNOPQRSTUVWXYZabcdefghijklmnopqrstuvwxyz0123456789-_".toList

def base64Symbol (n : ℕ) : UInt16 := base64Symbols.getD n 0

def base64Value (u : UInt16) : Option ℕ :=
  if u = 43 then some 62 else if u = 47 then some 63 else base64Symbols.idxOf? u

def sextets : Bytes → List ℕ
  | [] => []
  | [a] => [a.toNat / 4, a.toNat % 4 * 16]
  | [a, b] => [a.toNat / 4, a.toNat % 4 * 16 + b.toNat / 16, b.toNat % 16 * 4]
  | a :: b :: c :: rest =>
    a.toNat / 4 :: (a.toNat % 4 * 16 + b.toNat / 16) :: (b.toNat % 16 * 4 + c.toNat / 64) :: (c.toNat % 64) ::
      sextets rest

/-- The bytes of the groups; bits that do not fill a byte are dropped. -/
def ofSextets : List ℕ → Bytes
  | [] | [_] => []
  | [w, x] => [UInt8.ofNat (w * 4 + x / 16)]
  | [w, x, y] => [UInt8.ofNat (w * 4 + x / 16), UInt8.ofNat (x % 16 * 16 + y / 4)]
  | w :: x :: y :: z :: rest =>
    UInt8.ofNat (w * 4 + x / 16) :: UInt8.ofNat (x % 16 * 16 + y / 4) :: UInt8.ofNat (y % 4 * 64 + z) :: ofSextets rest

def base64url (bytes : Bytes) : Units := (sextets bytes).map base64Symbol

def ofBase64url (u : Units) : Bytes := ofSextets (u.filterMap base64Value)

theorem sextets_lt (bytes : Bytes) : ∀ n ∈ sextets bytes, n < 64 := by
  fun_induction sextets bytes with
  | case1 => simp
  | case2 a =>
    have bound := a.toNat_lt
    simp only [forall_mem_cons, not_mem_nil, false_imp_iff, implies_true, and_true]
    omega
  | case3 a b =>
    have first := a.toNat_lt
    have second := b.toNat_lt
    simp only [forall_mem_cons, not_mem_nil, false_imp_iff, implies_true, and_true]
    omega
  | case4 a b c rest ih =>
    have first := a.toNat_lt
    have second := b.toNat_lt
    have third := c.toNat_lt
    simp only [forall_mem_cons]
    exact ⟨by omega, by omega, by omega, by omega, ih⟩

theorem ofSextets_sextets (bytes : Bytes) : ofSextets (sextets bytes) = bytes := by
  fun_induction sextets bytes with
  | case1 => rfl
  | case2 a =>
    have bound := a.toNat_lt
    have value : a.toNat / 4 * 4 + a.toNat % 4 * 16 / 16 = a.toNat := by omega
    rw [ofSextets, value, UInt8.ofNat_toNat]
  | case3 a b =>
    have second := b.toNat_lt
    have value : a.toNat / 4 * 4 + (a.toNat % 4 * 16 + b.toNat / 16) / 16 = a.toNat := by omega
    have next : (a.toNat % 4 * 16 + b.toNat / 16) % 16 * 16 + b.toNat % 16 * 4 / 4 = b.toNat := by omega
    rw [ofSextets, value, next, UInt8.ofNat_toNat, UInt8.ofNat_toNat]
  | case4 a b c rest ih =>
    have second := b.toNat_lt
    have third := c.toNat_lt
    have value : a.toNat / 4 * 4 + (a.toNat % 4 * 16 + b.toNat / 16) / 16 = a.toNat := by omega
    have next : (a.toNat % 4 * 16 + b.toNat / 16) % 16 * 16 + (b.toNat % 16 * 4 + c.toNat / 64) / 4 = b.toNat := by
      omega
    have last : (b.toNat % 16 * 4 + c.toNat / 64) % 4 * 64 + c.toNat % 64 = c.toNat := by omega
    rw [ofSextets, value, next, last, UInt8.ofNat_toNat, UInt8.ofNat_toNat, UInt8.ofNat_toNat, ih]

theorem base64Value_symbol : ∀ n < 64, base64Value (base64Symbol n) = some n := by decide +kernel

theorem ofBase64url_base64url (bytes : Bytes) : ofBase64url (base64url bytes) = bytes := by
  have read : (base64url bytes).filterMap base64Value = sextets bytes := by
    have each : ∀ n ∈ sextets bytes, (base64Value ∘ base64Symbol) n = some n :=
      fun n member => base64Value_symbol n (sextets_lt bytes n member)
    rw [base64url, filterMap_map, filterMap_congr each, filterMap_some]
  rw [ofBase64url, read, ofSextets_sextets]

theorem base64Symbol_plain : ∀ n < 64, base64Symbol n ≠ 46 := by decide +kernel

theorem dot_not_mem_base64url (bytes : Bytes) : (46 : UInt16) ∉ base64url bytes := by
  intro member
  obtain ⟨n, listed, same⟩ := List.mem_map.mp member
  exact base64Symbol_plain n (sextets_lt bytes n listed) same

theorem base64url_ne_nil {bytes : Bytes} (some_byte : bytes ≠ []) : base64url bytes ≠ [] := by
  intro empty
  apply some_byte
  rw [← ofBase64url_base64url bytes, empty]
  rfl

end RemudaRmm.Foundation
