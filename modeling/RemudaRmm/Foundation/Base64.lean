import RemudaRmm.Foundation.JsonScanner

/-! The standard base64 text of bytes, filled up with `=` to whole groups of four. -/
namespace RemudaRmm.Foundation.Base64
open List
open Foundation JsonText

def alphabet : Bytes := codes "ABCDEFGHIJKLMNOPQRSTUVWXYZabcdefghijklmnopqrstuvwxyz0123456789+/"

def padding : UInt8 := code '='

def symbol (n : ℕ) : UInt8 := alphabet.getD n 0

def value (b : UInt8) : Option ℕ := alphabet.idxOf? b

def symbols (bytes : Bytes) : Bytes := (sextets bytes).map symbol

def encodeToString : Bytes → Bytes
  | [] => []
  | [a] => symbols [a] ++ [padding, padding]
  | [a, b] => symbols [a, b] ++ [padding]
  | a :: b :: c :: rest => symbols [a, b, c] ++ encodeToString rest

def decodeGroup (group : Bytes) : Option Bytes := (group.mapM value).map ofSextets

def decodeGroups : Bytes → Option Bytes
  | [] => some []
  | [w, x, y, z] =>
    if y = padding ∧ z = padding then decodeGroup [w, x]
    else if z = padding then decodeGroup [w, x, y]
    else decodeGroup [w, x, y, z]
  | w :: x :: y :: z :: rest => (decodeGroup [w, x, y, z]).bind fun first => (decodeGroups rest).map (first ++ ·)
  | _ => none

def decodeString (text : Bytes) : Option Bytes := decodeGroups (text.filter fun b => b ≠ 10 ∧ b ≠ 13)

theorem value_symbol : ∀ n < 64, value (symbol n) = some n := by decide +kernel

theorem symbol_plain : ∀ n < 64, symbol n ≠ padding ∧ symbol n ≠ 10 ∧ symbol n ≠ 13 ∧ (symbol n).toNat < 0x80 := by
  decide +kernel

theorem mapM_symbols {ns : List ℕ} (small : ∀ n ∈ ns, n < 64) : (ns.map symbol).mapM value = some ns := by
  induction ns with
  | nil => rfl
  | cons n ns ih =>
    have rest := ih fun m member => small m (mem_cons_of_mem n member)
    rw [map_cons, mapM_cons, value_symbol n (small n mem_cons_self), rest]
    rfl

theorem decodeGroup_symbols (bytes : Bytes) : decodeGroup (symbols bytes) = some bytes := by
  rw [decodeGroup, symbols, mapM_symbols (sextets_lt bytes), Option.map_some, ofSextets_sextets]

theorem mem_encodeToString {bytes : Bytes} {b : UInt8} (member : b ∈ encodeToString bytes) :
    b = padding ∨ ∃ n < 64, b = symbol n := by
  have listed : ∀ group : Bytes, b ∈ symbols group → ∃ n < 64, b = symbol n := by
    intro group inside
    obtain ⟨n, sextet, rfl⟩ := List.mem_map.mp inside
    exact ⟨n, sextets_lt group n sextet, rfl⟩
  fun_induction encodeToString bytes with
  | case1 => simp at member
  | case2 a =>
    rcases mem_append.mp member with inside | filled
    · exact .inr (listed _ inside)
    · exact .inl (by simpa using filled)
  | case3 a c =>
    rcases mem_append.mp member with inside | filled
    · exact .inr (listed _ inside)
    · exact .inl (by simpa using filled)
  | case4 a c d rest ih =>
    rcases mem_append.mp member with inside | later
    · exact .inr (listed _ inside)
    · exact ih later

theorem encodeToString_ascii {bytes : Bytes} : ∀ b ∈ encodeToString bytes, b.toNat < 0x80 := by
  intro b member
  rcases mem_encodeToString member with rfl | ⟨n, small, rfl⟩
  · decide
  · exact (symbol_plain n small).2.2.2

theorem length_encodeToString (bytes : Bytes) : (encodeToString bytes).length = (bytes.length + 2) / 3 * 4 := by
  fun_induction encodeToString bytes with
  | case1 => rfl
  | case2 a => simp [symbols, sextets]
  | case3 a b => simp [symbols, sextets]
  | case4 a b c rest ih =>
    simp only [symbols, sextets, length_append, length_map, length_cons, length_nil, ih]
    omega

theorem decodeGroups_encoded (bytes : Bytes) : decodeGroups (encodeToString bytes) = some bytes := by
  fun_induction encodeToString bytes with
  | case1 => rfl
  | case2 a => exact decodeGroup_symbols [a]
  | case3 a b =>
    have group := decodeGroup_symbols [a, b]
    have last := (symbol_plain _ (sextets_lt [a, b] _ (getLast_mem (by simp [sextets])))).1
    simp only [symbols, sextets, map_cons, map_nil, getLast_cons_cons, getLast_singleton]
      at group last
    simp only [symbols, sextets, map_cons, map_nil, cons_append, nil_append, decodeGroups, last,
      false_and, if_false, if_true, group]
  | case4 a b c rest ih =>
    have group := decodeGroup_symbols [a, b, c]
    have last := (symbol_plain _ (sextets_lt [a, b, c] _ (getLast_mem (by simp [sextets])))).1
    simp only [symbols, sextets, map_cons, map_nil, getLast_cons_cons, getLast_singleton]
      at group last
    simp only [symbols, sextets, map_cons, map_nil, cons_append, nil_append]
    cases others : encodeToString rest with
    | nil =>
      rw [others, decodeGroups] at ih
      cases ih
      simp only [decodeGroups, last, and_false, if_false, group]
    | cons w tail =>
      rw [decodeGroups, group, ← others, ih]
      · rfl
      · simp

theorem decodeString_encodeToString (bytes : Bytes) : decodeString (encodeToString bytes) = some bytes := by
  rw [decodeString, filter_eq_self.mpr, decodeGroups_encoded]
  intro b member
  rcases mem_encodeToString member with rfl | ⟨n, small, rfl⟩
  · decide
  · have plain := symbol_plain n small
    simp [plain.2.1, plain.2.2.1]

end RemudaRmm.Foundation.Base64
