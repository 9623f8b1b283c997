import RemudaRmm.Foundation.JsonCodec

/-! Strings of any bytes through JSON: a byte that begins no character comes back as the sign of replacement. -/
namespace RemudaRmm.Foundation.JsonText
open List Option

/-- The characters of bytes; a byte that begins none counts for one that is replaced. -/
def runes : ℕ → Bytes → Text
  | _, [] => []
  | 0, _ :: _ => []
  | n + 1, b :: rest =>
    match decodeRune (b :: rest) with
    | none => replacement :: runes n rest
    | some c => c :: runes n ((b :: rest).drop (String.utf8EncodeChar c).length)

def replaced (s : Bytes) : Bytes := utf8Text (runes s.length s)

theorem decodeRune_some {bytes : Bytes} {c : Char} (decoded : decodeRune bytes = some c) :
    ∃ rest, bytes = String.utf8EncodeChar c ++ rest := by
  obtain ⟨rest, same⟩ := ByteArray.exists_of_utf8DecodeChar?_eq_some decoded
  refine ⟨rest.data.toList, ?_⟩
  have lists := congrArg (fun b : ByteArray => b.data.toList) same
  simpa [ByteArray.data_append] using lists

theorem decodeRune_ascii {b : UInt8} (small : b < 0x80) (rest : Bytes) :
    decodeRune (b :: rest) = some (Char.ofNat b.toNat) := by
  have each : ∀ n < 0x80, (Char.ofNat n).toNat = n := by decide
  have bound : b.toNat < 0x80 := UInt8.lt_iff_toNat_lt.mp small
  have encoded : String.utf8EncodeChar (Char.ofNat b.toNat) = [b] := by
    rw [encodeChar_ascii (by rw [each _ bound]; exact bound), each _ bound, UInt8.ofNat_toNat]
  have decoded := decodeRune_encoded (Char.ofNat b.toNat) rest
  rwa [encoded] at decoded

theorem quotePieces_cons (n : ℕ) (b : UInt8) (rest : Bytes) :
    (∃ c tail, b :: rest = String.utf8EncodeChar c ++ tail ∧
      quotePieces (n + 1) (b :: rest) = charPieces c ++ quotePieces n tail ∧
      runes (n + 1) (b :: rest) = c :: runes n tail) ∨
    (quotePieces (n + 1) (b :: rest) = replacementPiece :: quotePieces n rest ∧
      runes (n + 1) (b :: rest) = replacement :: runes n rest) := by
  cases decoded : decodeRune (b :: rest) with
  | some c =>
    obtain ⟨tail, same⟩ := decodeRune_some decoded
    refine .inl ⟨c, tail, same, ?_, ?_⟩
    · rw [same, quotePieces_char]
    · rw [runes, decoded]
      dsimp only
      rw [same, drop_left]
  | none =>
    have large : ¬b < 0x80 := by
      intro small
      rw [decodeRune_ascii small] at decoded
      cases decoded
    refine .inr ⟨?_, ?_⟩
    · rw [quotePieces, if_neg large, decoded]
    · rw [runes, decoded]

theorem quotePieces_valid (n : ℕ) (s : Bytes) : ∀ p ∈ quotePieces n s, p.Valid := by
  induction n generalizing s with
  | zero => cases s <;> simp [quotePieces]
  | succ n ih =>
    cases s with
    | nil => simp [quotePieces]
    | cons b rest =>
      rcases quotePieces_cons n b rest with ⟨c, tail, -, pieces, -⟩ | ⟨pieces, -⟩
      · rw [pieces]
        intro p member
        exact (mem_append.mp member).elim (charPieces_valid c p) (ih tail p)
      · rw [pieces, forall_mem_cons]
        refine ⟨?_, ih rest⟩
        rw [replacementPiece, StringPiece.Valid]
        decide

theorem unquoteBody_replacement {n : ℕ} (rest : Bytes) :
    unquoteBody (n + 1) (replacementPiece.text ++ rest) =
      (unquoteBody n rest).map (String.utf8EncodeChar replacement ++ ·) := by
  refine unquoteBody_escape rfl (readEscape_plain ?_ rfl)
  have f : hexValue (code 'f') = some 15 := rfl
  have digits := getu4_hex (code 'f') (code 'f') f f (show 253 < 256 by decide) rest
  exact digits

theorem unquoteBody_pieces {n m : ℕ} {s : Bytes} (whole : s.length ≤ n) (enough : (runes n s).length ≤ m) :
    unquoteBody m ((quotePieces n s).flatMap StringPiece.text) = some (utf8Text (runes n s)) := by
  induction n generalizing m s with
  | zero =>
    obtain rfl := length_eq_zero_iff.mp (Nat.le_zero.mp whole)
    cases m <;> rfl
  | succ n ih =>
    cases s with
    | nil => cases m <;> rfl
    | cons b rest =>
      have short : rest.length ≤ n := Nat.le_of_succ_le_succ whole
      rcases quotePieces_cons n b rest with ⟨c, tail, same, pieces, chars⟩ | ⟨pieces, chars⟩
      · rw [chars, length_cons] at enough
        obtain ⟨m, rfl⟩ := Nat.exists_eq_add_of_le' (le_trans (Nat.le_add_left 1 _) enough)
        have size := congrArg List.length same
        have some_byte := length_pos_of_ne_nil (String.utf8EncodeChar_ne_nil (c := c))
        rw [length_cons, length_append] at size
        rw [pieces, chars, flatMap_append, unquoteBody_char, ih (by omega) (Nat.le_of_succ_le_succ enough),
          map_some, utf8Text, utf8Text, flatMap_cons]
      · rw [chars, length_cons] at enough
        obtain ⟨m, rfl⟩ := Nat.exists_eq_add_of_le' (le_trans (Nat.le_add_left 1 _) enough)
        rw [pieces, chars, flatMap_cons, unquoteBody_replacement, ih short (Nat.le_of_succ_le_succ enough),
          map_some, utf8Text, utf8Text, flatMap_cons]

theorem length_runes_le {n : ℕ} (s : Bytes) :
    (runes n s).length ≤ ((quotePieces n s).flatMap StringPiece.text).length := by
  induction n generalizing s with
  | zero => cases s <;> exact Nat.zero_le _
  | succ n ih =>
    cases s with
    | nil => exact Nat.zero_le _
    | cons b rest =>
      rcases quotePieces_cons n b rest with ⟨c, tail, -, pieces, chars⟩ | ⟨pieces, chars⟩
      · obtain ⟨p, others, piece⟩ := exists_cons_of_ne_nil (charPieces_ne_nil c)
        have some_byte := length_pos_of_ne_nil (piece_text_ne_nil p)
        have later := ih tail
        rw [pieces, chars, flatMap_append, length_append, piece, flatMap_cons, length_append, length_cons]
        omega
      · have some_byte := length_pos_of_ne_nil (piece_text_ne_nil replacementPiece)
        have later := ih rest
        rw [pieces, chars, flatMap_cons, length_append, length_cons]
        omega

/-- What is read back of a quoted string is the string with its stray bytes replaced. -/
theorem unquote_quote_bytes (s : Bytes) : unquote (quote s) = some (replaced s) := by
  rw [quote, stringText, unquote_body, replaced, unquoteBody_pieces (Nat.le_refl _)]
  refine le_trans (length_runes_le s) ?_
  rw [length_cons, length_append]
  omega

theorem replaced_text (t : Text) : replaced (utf8Text t) = utf8Text t :=
  some.inj ((unquote_quote_bytes (utf8Text t)).symm.trans (unquote_quote t))

/-- What stands in no byte of the string stands in none of what is read back. -/
theorem mem_runes {n : ℕ} {s : Bytes} {c : Char} (member : c ∈ runes n s) :
    c = replacement ∨ ∀ b ∈ String.utf8EncodeChar c, b ∈ s := by
  induction n generalizing s with
  | zero => cases s <;> simp [runes] at member
  | succ n ih =>
    cases s with
    | nil => simp [runes] at member
    | cons b rest =>
      rcases quotePieces_cons n b rest with ⟨d, tail, same, -, chars⟩ | ⟨-, chars⟩
      · rw [chars, mem_cons] at member
        rw [same]
        rcases member with rfl | later
        · exact .inr fun x inside => mem_append_left _ inside
        · exact (ih later).imp_right fun all x inside => mem_append_right _ (all x inside)
      · rw [chars, mem_cons] at member
        rcases member with rfl | later
        · exact .inl rfl
        · exact (ih later).imp_right fun all x inside => mem_cons_of_mem b (all x inside)

end RemudaRmm.Foundation.JsonText
