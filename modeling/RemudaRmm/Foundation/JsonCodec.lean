import RemudaRmm.Foundation.JsonScanner

/-! Texts of JSON written and read as Go does it: strings quoted with the signs of HTML escaped, compact texts left as
they are, strings read back, and the members of an object. -/
namespace RemudaRmm.Foundation.JsonText
open List
variable {c : Char} {n : ℕ} {b letter : UInt8} {bytes : Bytes}

def utf8Text (t : Text) : Bytes := t.flatMap String.utf8EncodeChar

/-- The character that the bytes begin with, where they begin with one. -/
def decodeRune (bytes : Bytes) : Option Char := bytes.toByteArray.utf8DecodeChar? 0

theorem decodeRune_encoded (c : Char) (rest : Bytes) : decodeRune (String.utf8EncodeChar c ++ rest) = some c := by
  rw [decodeRune, toByteArray_append]
  exact ByteArray.utf8DecodeChar?_utf8EncodeChar_append

theorem encodeChar_ascii (small : c.toNat < 0x80) : String.utf8EncodeChar c = [UInt8.ofNat c.toNat] := by
  have le : c.val.toNat ≤ 0x7f := Nat.le_of_lt_succ small
  simp only [String.utf8EncodeChar, le, if_true]
  rfl

theorem encodeChar_large (large : ¬c.toNat < 0x80) : ∀ b ∈ String.utf8EncodeChar c, ¬b < 0x80 := by
  have above : ¬c.val.toNat ≤ 0x7f := fun le => large (Nat.lt_succ_of_le le)
  have bound : c.val.toNat < 0x110000 := by
    have range := char_scalar c
    have same : c.toNat = c.val.toNat := rfl
    omega
  intro b member
  rw [UInt8.lt_iff_toNat_lt]
  simp only [String.utf8EncodeChar, above, if_false] at member
  split_ifs at member
  all_goals
    simp only [mem_cons, not_mem_nil, or_false] at member
    rcases member with rfl | rfl | rfl | rfl
  all_goals
    simp
    omega

def hexDigit (n : ℕ) : UInt8 := UInt8.ofNat (if n < 10 then 48 + n else 87 + n)

def htmlSigns : Bytes := codes "<>&"

def escapeLetter (b : UInt8) : Option UInt8 :=
  if b = 8 then some (code 'b')
  else if b = 12 then some (code 'f')
  else if b = 10 then some (code 'n')
  else if b = 13 then some (code 'r')
  else if b = 9 then some (code 't')
  else if b = code '"' then some (code '"')
  else if b = code '\\' then some (code '\\')
  else none

def asciiPiece (b : UInt8) : StringPiece :=
  match escapeLetter b with
  | some letter => .escaped letter
  | none =>
    if b < 0x20 ∨ b ∈ htmlSigns then .unicode (code '0') (code '0') (hexDigit (b.toNat / 16)) (hexDigit (b.toNat % 16))
    else .plain b

def isSeparator (c : Char) : Bool := c.toNat = 0x2028 || c.toNat = 0x2029

def separatorPiece (c : Char) : StringPiece := .unicode (code '2') (code '0') (code '2') (hexDigit (c.toNat % 16))

def replacementPiece : StringPiece := .unicode (code 'f') (code 'f') (code 'f') (code 'd')

def quotePieces : ℕ → Bytes → List StringPiece
  | _, [] => []
  | 0, _ :: _ => []
  | n + 1, b :: rest =>
    if b < 0x80 then asciiPiece b :: quotePieces n rest
    else
      match decodeRune (b :: rest) with
      | none => replacementPiece :: quotePieces n rest
      | some c =>
        let size := (String.utf8EncodeChar c).length
        (if isSeparator c then [separatorPiece c] else ((b :: rest).take size).map .plain) ++
          quotePieces n ((b :: rest).drop size)

def quote (s : Bytes) : Bytes := stringText (quotePieces s.length s)

def charPieces (c : Char) : List StringPiece :=
  if c.toNat < 0x80 then [asciiPiece (UInt8.ofNat c.toNat)]
  else if isSeparator c then [separatorPiece c]
  else (String.utf8EncodeChar c).map .plain

theorem quotePieces_char (c : Char) (rest : Bytes) :
    quotePieces (n + 1) (String.utf8EncodeChar c ++ rest) = charPieces c ++ quotePieces n rest := by
  by_cases small : c.toNat < 0x80
  · have below : UInt8.ofNat c.toNat < 0x80 := by
      rw [UInt8.lt_iff_toNat_lt, UInt8.toNat_ofNat_of_lt' (lt_trans small (by decide))]
      exact small
    rw [encodeChar_ascii small, singleton_append, quotePieces, if_pos below, charPieces, if_pos small, singleton_append]
  · have decoded := decodeRune_encoded c rest
    obtain ⟨b, others, encoded⟩ := exists_cons_of_ne_nil (String.utf8EncodeChar_ne_nil (c := c))
    have large : ¬b < 0x80 := encodeChar_large small b (by rw [encoded]; exact mem_cons_self)
    rw [encoded, cons_append] at decoded
    rw [encoded, cons_append, quotePieces, if_neg large, decoded, charPieces, if_neg small]
    dsimp only
    rw [encoded, ← cons_append, take_left, drop_left]

def textPieces (t : Text) : List StringPiece := t.flatMap charPieces

theorem quotePieces_text {t : Text} (enough : t.length ≤ n) : quotePieces n (utf8Text t) = textPieces t := by
  induction t generalizing n with
  | nil => cases n <;> rfl
  | cons c t ih =>
    cases n with
    | zero => cases enough
    | succ n =>
      rw [utf8Text, flatMap_cons, quotePieces_char, ← utf8Text, ih (Nat.le_of_succ_le_succ enough), textPieces,
        textPieces, flatMap_cons]

theorem length_le_utf8Text (t : Text) : t.length ≤ (utf8Text t).length := by
  induction t with
  | nil => exact Nat.le_refl 0
  | cons c t ih =>
    have some_byte : 0 < (String.utf8EncodeChar c).length :=
      length_pos_of_ne_nil (String.utf8EncodeChar_ne_nil (c := c))
    rw [utf8Text, flatMap_cons, length_append, length_cons, ← utf8Text]
    omega

theorem quote_text (t : Text) : quote (utf8Text t) = stringText (textPieces t) := by
  rw [quote, quotePieces_text (length_le_utf8Text t)]

theorem hexDigit_isHex : ∀ n < 16, isHexDigit (hexDigit n) = true := by decide

theorem escapeLetter_simple (escaped : escapeLetter b = some letter) : letter ∈ simpleEscapes := by
  unfold escapeLetter at escaped
  split_ifs at escaped <;> cases escaped <;> decide

theorem asciiPiece_valid (b : UInt8) : (asciiPiece b).Valid := by
  unfold asciiPiece
  cases letter : escapeLetter b with
  | some c => exact escapeLetter_simple letter
  | none =>
    dsimp only
    split_ifs with special
    · exact ⟨by decide, by decide, hexDigit_isHex _ (by have := b.toNat_lt; omega), hexDigit_isHex _ (by omega)⟩
    · refine ⟨fun small => special (.inl small), ?_, ?_⟩
      · rintro rfl
        cases letter
      · rintro rfl
        cases letter

theorem charPieces_valid (c : Char) : ∀ p ∈ charPieces c, p.Valid := by
  intro p member
  unfold charPieces at member
  split_ifs at member with small separator
  · rw [mem_singleton.mp member]
    exact asciiPiece_valid _
  · rw [mem_singleton.mp member]
    exact ⟨by decide, by decide, by decide, hexDigit_isHex _ (by omega)⟩
  · obtain ⟨b, byte, rfl⟩ := List.mem_map.mp member
    have large := encodeChar_large small b byte
    refine ⟨fun less => large (UInt8.lt_trans less (by decide)), ?_, ?_⟩
    · rintro rfl
      exact large (by decide)
    · rintro rfl
      exact large (by decide)

theorem textPieces_valid (t : Text) : ∀ p ∈ textPieces t, p.Valid := by
  intro p member
  obtain ⟨c, -, there⟩ := mem_flatMap.mp member
  exact charPieces_valid c p there

def separatorAhead (bytes : Bytes) : Bool := bytes.take 3 = [0xe2, 0x80, 0xa8] || bytes.take 3 = [0xe2, 0x80, 0xa9]

/-- The bytes from a state on, without white space and with the signs of HTML escaped; of a separator that has been
escaped, `skipped` bytes are still to come. -/
def compactFrom (s : Scanner) : ℕ → Bytes → Option Bytes
  | _, [] => if s.complete then some [] else none
  | skipped, c :: rest =>
    if (step s c).1 = .error then none
    else if 0 < skipped then compactFrom (step s c).2 (skipped - 1) rest
    else if c ∈ htmlSigns then
      (compactFrom (step s c).2 0 rest).map fun tail =>
        codes "\\u00" ++ hexDigit (c.toNat / 16) :: hexDigit (c.toNat % 16) :: tail
    else if separatorAhead (c :: rest) then
      (compactFrom (step s c).2 2 rest).map fun tail =>
        codes "\\u202" ++ hexDigit (((c :: rest).getD 2 0).toNat % 16) :: tail
    else if (step s c).1 = .skipSpace ∨ (step s c).1 = .atEnd then compactFrom (step s c).2 0 rest
    else (compactFrom (step s c).2 0 rest).map (c :: ·)

def compact (bytes : Bytes) : Option Bytes := compactFrom begin 0 bytes

def HtmlPlain : Bytes → Prop
  | [] => True
  | c :: rest => c ∉ htmlSigns ∧ separatorAhead (c :: rest) = false ∧ HtmlPlain rest

theorem behind_complete {s : Scanner} (behind : Behind s []) : s.complete = true := by
  have ended := behind.follows (code ' ') (by decide)
  have last : (stepEndValue [] (code ' ')).2.place = .endTop := rfl
  simp only [Scanner.complete, ended, last, decide_true, Bool.or_true]

theorem compactFrom_scan {s s' : Scanner} (plain : HtmlPlain bytes) (there : scan 0 s bytes = some s')
    (complete : s'.complete = true) : compactFrom s 0 bytes = some bytes := by
  induction bytes generalizing s with
  | nil =>
    cases there
    rw [compactFrom, if_pos complete]
  | cons c rest ih =>
    obtain ⟨noSign, noSeparator, plainRest⟩ := plain
    obtain ⟨next, moved, onward⟩ := scan_uncons there
    simp only [advance] at moved
    split_ifs at moved with inside
    cases moved
    have kept : (step s c).1 ≠ .error ∧ ¬((step s c).1 = .skipSpace ∨ (step s c).1 = .atEnd) := by
      refine ⟨?_, ?_⟩
      · intro failed
        rw [failed] at inside
        cases inside
      · rintro (skipped | skipped) <;>
          · rw [skipped] at inside
            cases inside
    rw [compactFrom, if_neg kept.1, if_neg (Nat.lt_irrefl 0), if_neg noSign, noSeparator,
      if_neg Bool.false_ne_true, if_neg kept.2, ih plainRest onward]
    rfl

theorem compact_text {v : Compact} (valid : v.Valid) (room : v.depth ≤ maxNestingDepth) (plain : HtmlPlain v.text) :
    compact v.text = some v.text := by
  obtain ⟨s, scanned, behind⟩ := scans_value v valid [] (by simpa using room)
  exact compactFrom_scan plain scanned (behind_complete behind)

def hexValue (c : UInt8) : Option ℕ :=
  if isDigit c then some (c.toNat - 48)
  else if code 'a' ≤ c ∧ c ≤ code 'f' then some (c.toNat - 87)
  else if code 'A' ≤ c ∧ c ≤ code 'F' then some (c.toNat - 55)
  else none

/-- The number of an escape by four digits, where the bytes begin with one. -/
def getu4 : Bytes → Option ℕ
  | b :: u :: a₁ :: a₂ :: a₃ :: a₄ :: _ =>
    if b = code '\\' ∧ u = code 'u' then do
      let d₁ ← hexValue a₁
      let d₂ ← hexValue a₂
      let d₃ ← hexValue a₃
      let d₄ ← hexValue a₄
      some (((d₁ * 16 + d₂) * 16 + d₃) * 16 + d₄)
    else none
  | _ => none

def isSurrogate (n : ℕ) : Bool := 0xd800 ≤ n && n < 0xe000

def decodePair (high low : ℕ) : Option Char :=
  if 0xd800 ≤ high ∧ high < 0xdc00 ∧ 0xdc00 ≤ low ∧ low < 0xe000 then
    some (Char.ofNat ((high - 0xd800) * 0x400 + (low - 0xdc00) + 0x10000))
  else none

def unescape (letter : UInt8) : Option UInt8 :=
  if letter ∈ codes "\"\\/'" then some letter
  else if letter = code 'b' then some 8
  else if letter = code 'f' then some 12
  else if letter = code 'n' then some 10
  else if letter = code 'r' then some 13
  else if letter = code 't' then some 9
  else none

def readEscape (bytes : Bytes) : Option (Bytes × Bytes) :=
  match bytes with
  | _ :: letter :: rest =>
    if letter = code 'u' then
      match getu4 bytes with
      | none => none
      | some n =>
        if isSurrogate n then
          match (getu4 (bytes.drop 6)).bind (decodePair n) with
          | some c => some (String.utf8EncodeChar c, bytes.drop 12)
          | none => some (String.utf8EncodeChar replacement, bytes.drop 6)
        else some (String.utf8EncodeChar (Char.ofNat n), bytes.drop 6)
    else (unescape letter).map fun b => ([b], rest)
  | _ => none

def unquoteBody : ℕ → Bytes → Option Bytes
  | _, [] => some []
  | 0, _ :: _ => none
  | n + 1, c :: rest =>
    if c = code '\\' then
      match readEscape (c :: rest) with
      | none => none
      | some (written, behind) => (unquoteBody n behind).map (written ++ ·)
    else if c = code '"' ∨ c < 0x20 then none
    else if c < 0x80 then (unquoteBody n rest).map (c :: ·)
    else
      match decodeRune (c :: rest) with
      | none => (unquoteBody n rest).map (String.utf8EncodeChar replacement ++ ·)
      | some rune =>
        (unquoteBody n ((c :: rest).drop (String.utf8EncodeChar rune).length)).map (String.utf8EncodeChar rune ++ ·)

def unquote (literal : Bytes) : Option Bytes :=
  if 2 ≤ literal.length ∧ literal.head? = some (code '"') ∧ literal.getLast? = some (code '"') then
    unquoteBody literal.length (literal.tail.dropLast)
  else none

theorem hexValue_hexDigit : ∀ n < 16, hexValue (hexDigit n) = some n := by decide

theorem getu4_hex (a₁ a₂ : UInt8) {d₁ d₂ : ℕ} (first : hexValue a₁ = some d₁) (second : hexValue a₂ = some d₂)
    (small : n < 256) (rest : Bytes) :
    getu4 (code '\\' :: code 'u' :: a₁ :: a₂ :: hexDigit (n / 16) :: hexDigit (n % 16) :: rest) =
      some ((d₁ * 16 + d₂) * 256 + n) := by
  have value : ((d₁ * 16 + d₂) * 16 + n / 16) * 16 + n % 16 = (d₁ * 16 + d₂) * 256 + n := by omega
  simp only [getu4, and_self, if_true, first, second, hexValue_hexDigit (n / 16) (by omega),
    hexValue_hexDigit (n % 16) (by omega), Option.bind_eq_bind, Option.bind_some, value]

theorem readEscape_plain {rest : Bytes}
    (four : getu4 (b :: code 'u' :: bytes) = some c.toNat) (behind : bytes.drop 4 = rest) :
    readEscape (b :: code 'u' :: bytes) = some (String.utf8EncodeChar c, rest) := by
  have whole : isSurrogate c.toNat = false := by
    have range := char_scalar c
    simp only [isSurrogate, Bool.and_eq_false_iff, decide_eq_false_iff_not]
    omega
  simp only [readEscape, if_true, four, whole, Bool.false_eq_true, if_false, Char.ofNat_toNat]
  rw [← behind]
  rfl

theorem readEscape_letter {c : UInt8} (notFour : letter ≠ code 'u') (read : unescape letter = some c)
    (rest : Bytes) : readEscape (b :: letter :: rest) = some ([c], rest) := by
  rw [readEscape, if_neg notFour, read]
  rfl

theorem unescape_escapeLetter (escaped : escapeLetter b = some letter) :
    letter ≠ code 'u' ∧ unescape letter = some b := by
  unfold escapeLetter at escaped
  split_ifs at escaped <;> cases escaped <;> subst b <;> decide

theorem unquoteBody_escape {c : UInt8} {written behind : Bytes} (escape : c = code '\\')
    (read : readEscape (c :: bytes) = some (written, behind)) :
    unquoteBody (n + 1) (c :: bytes) = (unquoteBody n behind).map (written ++ ·) := by
  rw [unquoteBody, if_pos escape, read]

theorem unquoteBody_ascii (small : c.toNat < 0x80) (rest : Bytes) :
    unquoteBody (n + 1) ((asciiPiece (UInt8.ofNat c.toNat)).text ++ rest) =
      (unquoteBody n rest).map (String.utf8EncodeChar c ++ ·) := by
  have same : (UInt8.ofNat c.toNat).toNat = c.toNat := UInt8.toNat_ofNat_of_lt' (lt_trans small (by decide))
  have encoded := encodeChar_ascii small
  unfold asciiPiece
  cases letter : escapeLetter (UInt8.ofNat c.toNat) with
  | some l =>
    obtain ⟨notFour, read⟩ := unescape_escapeLetter letter
    rw [encoded]
    exact unquoteBody_escape rfl (readEscape_letter notFour read rest)
  | none =>
    dsimp only
    split_ifs with special
    · refine unquoteBody_escape rfl (readEscape_plain ?_ rfl)
      have zero : hexValue (code '0') = some 0 := rfl
      rw [same]
      exact (getu4_hex (code '0') (code '0') zero zero (lt_trans small (by decide)) rest).trans (by simp)
    · rw [not_or] at special
      have noEscape : UInt8.ofNat c.toNat ≠ code '\\' := by
        intro backslash
        rw [backslash] at letter
        cases letter
      have noQuote : UInt8.ofNat c.toNat ≠ code '"' := by
        intro quoted
        rw [quoted] at letter
        cases letter
      have below : UInt8.ofNat c.toNat < 0x80 := by
        rw [UInt8.lt_iff_toNat_lt, same]
        exact small
      rw [StringPiece.text, singleton_append, unquoteBody, if_neg noEscape,
        if_neg (not_or.mpr ⟨noQuote, special.1⟩), if_pos below, encoded]
      rfl

theorem unquoteBody_char (c : Char) (rest : Bytes) :
    unquoteBody (n + 1) ((charPieces c).flatMap StringPiece.text ++ rest) =
      (unquoteBody n rest).map (String.utf8EncodeChar c ++ ·) := by
  unfold charPieces
  split_ifs with small separator
  · rw [flatMap_singleton, unquoteBody_ascii small]
  · rw [flatMap_singleton]
    have value : c.toNat = 0x2020 + c.toNat % 16 := by
      simp only [isSeparator, Bool.or_eq_true, decide_eq_true_eq] at separator
      omega
    refine unquoteBody_escape rfl (readEscape_plain ?_ rfl)
    have two : hexValue (code '2') = some 2 := rfl
    have zero : hexValue (code '0') = some 0 := rfl
    have digits := getu4_hex (code '2') (code '0') two zero (show 0x20 + c.toNat % 16 < 256 by omega) rest
    rw [show (0x20 + c.toNat % 16) / 16 = 2 by omega, show (0x20 + c.toNat % 16) % 16 = c.toNat % 16 by omega] at digits
    refine Eq.trans digits ?_
    rw [value]
    congr 1
    omega
  · have spelled : ((String.utf8EncodeChar c).map StringPiece.plain).flatMap StringPiece.text =
        String.utf8EncodeChar c := by
      rw [flatMap_map]
      exact flatMap_singleton' _
    have decoded := decodeRune_encoded c rest
    obtain ⟨b, others, encoded⟩ := exists_cons_of_ne_nil (String.utf8EncodeChar_ne_nil (c := c))
    have large : ¬b < 0x80 := encodeChar_large small b (by rw [encoded]; exact mem_cons_self)
    have noEscape : b ≠ code '\\' := by
      rintro rfl
      exact large (by decide)
    have noEnd : ¬(b = code '"' ∨ b < 0x20) := by
      rintro (rfl | control)
      · exact large (by decide)
      · exact large (UInt8.lt_trans control (by decide))
    rw [encoded, List.cons_append] at decoded
    rw [spelled, encoded, List.cons_append, unquoteBody, if_neg noEscape, if_neg noEnd, if_neg large, decoded]
    dsimp only
    rw [encoded, ← List.cons_append, List.drop_left]

theorem unquoteBody_text {t : Text} (enough : t.length ≤ n) :
    unquoteBody n ((textPieces t).flatMap StringPiece.text) = some (utf8Text t) := by
  induction t generalizing n with
  | nil => cases n <;> rfl
  | cons c t ih =>
    cases n with
    | zero => cases enough
    | succ n =>
      rw [textPieces, List.flatMap_cons, List.flatMap_append, unquoteBody_char, ← textPieces,
        ih (Nat.le_of_succ_le_succ enough)]
      rfl

theorem piece_text_ne_nil (p : StringPiece) : p.text ≠ [] := by
  cases p <;> exact List.cons_ne_nil _ _

theorem charPieces_ne_nil (c : Char) : charPieces c ≠ [] := by
  unfold charPieces
  split_ifs
  · exact List.cons_ne_nil _ _
  · exact List.cons_ne_nil _ _
  · exact fun none => String.utf8EncodeChar_ne_nil (List.map_eq_nil_iff.mp none)

theorem length_le_piecesText (t : Text) : t.length ≤ ((textPieces t).flatMap StringPiece.text).length := by
  induction t with
  | nil => exact Nat.le_refl 0
  | cons c t ih =>
    have some_byte : 0 < ((charPieces c).flatMap StringPiece.text).length := by
      obtain ⟨p, others, pieces⟩ := List.exists_cons_of_ne_nil (charPieces_ne_nil c)
      rw [pieces, List.flatMap_cons, List.length_append]
      exact Nat.add_pos_left (List.length_pos_of_ne_nil (piece_text_ne_nil p)) _
    rw [textPieces, List.flatMap_cons, List.flatMap_append, List.length_append, List.length_cons, ← textPieces]
    omega

theorem unquote_body (body : Bytes) :
    unquote (code '"' :: (body ++ [code '"'])) = unquoteBody (code '"' :: (body ++ [code '"'])).length body := by
  have quoted : 2 ≤ (code '"' :: (body ++ [code '"'])).length ∧
      (code '"' :: (body ++ [code '"'])).head? = some (code '"') ∧
      (code '"' :: (body ++ [code '"'])).getLast? = some (code '"') := by
    refine ⟨?_, rfl, ?_⟩
    · rw [List.length_cons, List.length_append, List.length_singleton]
      omega
    · rw [← List.cons_append, List.getLast?_concat]
  rw [unquote, if_pos quoted, List.tail_cons, List.dropLast_concat]

theorem unquote_quote (t : Text) : unquote (quote (utf8Text t)) = some (utf8Text t) := by
  rw [quote_text, stringText, unquote_body]
  refine unquoteBody_text (le_trans (length_le_piecesText t) ?_)
  rw [List.length_cons, List.length_append]
  omega

/-- The scanner in an object, with the bytes of the key or value that it is in. -/
structure ObjectReader where
  scanner : Scanner
  key : Option Bytes
  piece : Bytes
  members : List (Bytes × Bytes)

namespace ObjectReader

def keep (r : ObjectReader) (s : Scanner) (c : UInt8) : ObjectReader := { r with scanner := s, piece := r.piece ++ [c] }

def endValue (r : ObjectReader) (s : Scanner) : ObjectReader :=
  ⟨s, none, [], r.members ++ r.key.toList.map fun key => (key, r.piece)⟩

/-- In a value, the bytes of members and white space belong to the value. -/
def read (r : ObjectReader) (c : UInt8) : Option ObjectReader :=
  let s := (step r.scanner c).2
  let outside : Bool := r.scanner.nesting.length ≤ 1
  match (step r.scanner c).1 with
  | .error => none
  | .atEnd => some { r with scanner := s }
  | .skipSpace => some (if outside then { r with scanner := s } else r.keep s c)
  | .objectKey => some (if outside then ⟨s, some r.piece, [], r.members⟩ else r.keep s c)
  | .objectValue | .endObject => some (if outside then r.endValue s else r.keep s c)
  | _ => some (r.keep s c)

def readAll (r : ObjectReader) (bytes : Bytes) : Option ObjectReader := bytes.foldlM read r

end ObjectReader

/-- The keys and values of the text of an object, as they are spelled. -/
def readObject (bytes : Bytes) : Option (List (Bytes × Bytes)) :=
  match bytes.dropWhile isSpace with
  | c :: rest =>
    if c = code '\x7b' then
      match ObjectReader.readAll ⟨⟨.beginStringOrEmpty, [.objectKey]⟩, none, [], []⟩ rest with
      | some r => if r.scanner.complete then some r.members else none
      | none => none
    else none
  | [] => none

section Reading
variable {s s' : Scanner} {key : Option Bytes} {piece : Bytes}

theorem readAll_cons {r r' : ObjectReader} {c : UInt8} (moved : r.read c = some r') (bytes : Bytes) :
    r.readAll (c :: bytes) = r'.readAll bytes := by
  rw [ObjectReader.readAll, List.foldlM_cons, moved]
  rfl

theorem readAll_append {r r' : ObjectReader} {first : Bytes} (there : r.readAll first = some r') (second : Bytes) :
    r.readAll (first ++ second) = r'.readAll second := by
  rw [ObjectReader.readAll] at there ⊢
  rw [List.foldlM_append, there]
  rfl

theorem read_advance {c : UInt8} (members : List (Bytes × Bytes)) (moved : advance 1 s c = some s') :
    ObjectReader.read ⟨s, key, piece, members⟩ c = some ⟨s', key, piece ++ [c], members⟩ := by
  simp only [advance] at moved
  split_ifs at moved with inside
  cases moved
  have deeper : 1 < s.nesting.length → decide (s.nesting.length ≤ 1) = false := by
    intro deep
    exact decide_eq_false (Nat.not_le_of_lt deep)
  unfold ObjectReader.read
  revert inside
  cases op : (step s c).1 <;> intro inside <;> simp only [insideOf, decide_eq_true_eq, Bool.false_eq_true] at inside
  all_goals first
    | rfl
    | rw [deeper inside]
      rfl

theorem readAll_scan {bytes : Bytes} (members : List (Bytes × Bytes)) (there : scan 1 s bytes = some s') :
    ObjectReader.readAll ⟨s, key, piece, members⟩ bytes = some ⟨s', key, piece ++ bytes, members⟩ := by
  induction bytes generalizing s piece with
  | nil =>
    cases there
    rw [List.append_nil]
    rfl
  | cons c rest ih =>
    obtain ⟨next, moved, onward⟩ := scan_uncons there
    rw [readAll_cons (read_advance members moved), ih onward, List.append_assoc]
    rfl

theorem readAll_member {pieces : List StringPiece} {v : Compact} (members : List (Bytes × Bytes))
    (keyValid : ∀ p ∈ pieces, p.Valid) (valid : v.Valid) (room : v.depth < maxNestingDepth) :
    ∃ s', Behind s' [.objectValue] ∧
      ObjectReader.readAll ⟨⟨.beginString, [.objectKey]⟩, none, [], members⟩ (stringText pieces ++ code ':' :: v.text) =
        some ⟨s', some (stringText pieces), v.text, members⟩ := by
  obtain ⟨s', scanned, behind⟩ := scans_value v valid [.objectValue] (by rw [List.length_singleton]; omega)
  have first : ObjectReader.readAll ⟨⟨.beginString, [.objectKey]⟩, none, [], members⟩ (stringText pieces) =
      some ⟨⟨.endValue, [.objectKey]⟩, none, stringText pieces, members⟩ :=
    readAll_scan members (scan_stringText (.inr rfl) keyValid)
  have colon : ObjectReader.read ⟨⟨.endValue, [.objectKey]⟩, none, stringText pieces, members⟩ (code ':') =
      some ⟨⟨.beginValue, [.objectValue]⟩, some (stringText pieces), [], members⟩ := rfl
  refine ⟨s', behind, ?_⟩
  rw [readAll_append first, readAll_cons colon]
  exact readAll_scan members scanned

theorem read_behind {c : UInt8} {op : Op} (members : List (Bytes × Bytes)) (behind : Behind s [.objectValue])
    (follows : c ∈ followers) (ended : op = .objectValue ∨ op = .endObject)
    (stepped : stepEndValue [.objectValue] c = (op, s')) :
    ObjectReader.read ⟨s, key, piece, members⟩ c =
      some ⟨s', none, [], members ++ key.toList.map fun name => (name, piece)⟩ := by
  have moved : step s c = (op, s') := (behind.follows c follows).trans stepped
  have outside : s.nesting.length ≤ 1 := by
    rw [behind.same]
    exact Nat.le_refl 1
  unfold ObjectReader.read
  rcases ended with rfl | rfl <;>
    · simp only [moved, outside, decide_true, if_true]
      rfl

def spelled (members : List (List StringPiece × Compact)) : List (Bytes × Bytes) :=
  members.map fun m => (stringText m.1, m.2.text)

theorem readAll_members {rest : List (List StringPiece × Compact)} (valid : Compact.MembersValid rest)
    (room : Compact.membersDepth rest < maxNestingDepth) (behind : Behind s [.objectValue])
    (members : List (Bytes × Bytes)) (name piece : Bytes) :
    ObjectReader.readAll ⟨s, some name, piece, members⟩ (Compact.membersText rest ++ [code '\x7d']) =
      some ⟨⟨.endTop, []⟩, none, [], members ++ [(name, piece)] ++ spelled rest⟩ := by
  induction rest generalizing s name piece members with
  | nil =>
    rw [Compact.membersText, List.nil_append,
      readAll_cons (read_behind members behind (by decide) (.inr rfl) rfl), spelled, List.map_nil, List.append_nil]
    rfl
  | cons member rest ih =>
    obtain ⟨pieces, v⟩ := member
    rw [Compact.MembersValid] at valid
    rw [Compact.membersDepth] at room
    have comma : ObjectReader.read ⟨s, some name, piece, members⟩ (code ',') =
        some ⟨⟨.beginString, [.objectKey]⟩, none, [], members ++ [(name, piece)]⟩ :=
      read_behind members behind (by decide) (.inl rfl) rfl
    obtain ⟨s', after, next⟩ := readAll_member (members ++ [(name, piece)]) valid.1 valid.2.1 (by omega)
    have grouped : stringText pieces ++ code ':' :: (v.text ++ Compact.membersText rest) ++ [code '\x7d'] =
        (stringText pieces ++ code ':' :: v.text) ++ (Compact.membersText rest ++ [code '\x7d']) := by
      simp only [List.append_assoc, List.cons_append]
    rw [Compact.membersText, List.cons_append, readAll_cons comma, grouped, readAll_append next,
      ih valid.2.2 (by omega) after, spelled, spelled, List.map_cons, List.append_assoc _ [_], List.singleton_append]

theorem readObject_text {rest : List (List StringPiece × Compact)} (valid : (Compact.object rest).Valid)
    (room : (Compact.object rest).depth ≤ maxNestingDepth) :
    readObject (Compact.object rest).text = some (spelled rest) := by
  rw [Compact.Valid] at valid
  rw [Compact.depth] at room
  have trimmed : ∀ tail : Bytes, (code '\x7b' :: tail).dropWhile isSpace = code '\x7b' :: tail := fun _ => rfl
  cases rest with
  | nil =>
    rw [Compact.text]
    rfl
  | cons member rest =>
    obtain ⟨pieces, v⟩ := member
    rw [Compact.MembersValid] at valid
    rw [Compact.membersDepth] at room
    obtain ⟨s', after, first⟩ := readAll_member [] valid.1 valid.2.1 (by omega)
    have opened : ∀ tail : Bytes,
        ObjectReader.readAll ⟨⟨.beginStringOrEmpty, [.objectKey]⟩, none, [], []⟩ (stringText pieces ++ tail) =
          ObjectReader.readAll ⟨⟨.beginString, [.objectKey]⟩, none, [], []⟩ (stringText pieces ++ tail) := by
      intro tail
      have same : ObjectReader.read ⟨⟨.beginStringOrEmpty, [.objectKey]⟩, none, [], []⟩ (code '"') =
          ObjectReader.read ⟨⟨.beginString, [.objectKey]⟩, none, [], []⟩ (code '"') := rfl
      rw [stringText, cons_append, ObjectReader.readAll, ObjectReader.readAll, foldlM_cons, same, ← foldlM_cons]
    have grouped : stringText pieces ++ code ':' :: (v.text ++ (Compact.membersText rest ++ [code '\x7d'])) =
        (stringText pieces ++ code ':' :: v.text) ++ (Compact.membersText rest ++ [code '\x7d']) := by
      rw [append_assoc, cons_append]
    have whole := readAll_members valid.2.2 (by omega) after [] (stringText pieces) v.text
    rw [Compact.text, readObject, trimmed]
    dsimp only
    rw [if_pos rfl, opened, grouped, readAll_append first, whole]
    rfl

end Reading

end RemudaRmm.Foundation.JsonText
