import RemudaRmm.Foundation.JsonCodec

/-! Envelopes of the helper's channel (`message.go`, `protocol.go`): how they are written and read as JSON, and what
their code is taken over. -/
namespace RemudaRmm.Endpoint.Ipc
open List Option
open Foundation JsonText

def maxMessageSize : ℕ := 16 * 1024 * 1024

structure Envelope where
  id : Bytes
  seq : ℕ
  type : Bytes
  payload : Option Bytes
  (error hmac : Bytes)
  deriving DecidableEq

def Envelope.empty : Envelope := ⟨[], 0, [], none, [], []⟩

def formatUint (n : ℕ) : Bytes := (decimal n).map code

def jsonNull : Bytes := codes "null"

/-- The text of the payload; without one it is `null`. -/
def Envelope.payloadText (env : Envelope) : Bytes := env.payload.getD jsonNull

def hexEncode (bytes : Bytes) : Bytes := bytes.flatMap fun b => [hexDigit (b.toNat / 16), hexDigit (b.toNat % 16)]

def zeroKey : Bytes := List.replicate 32 0

def macInput (env : Envelope) : Bytes := env.id ++ formatUint env.seq ++ env.type ++ env.payloadText

/-- `hmacSha256` takes the key and the input. -/
def computeHMAC (hmacSha256 : Bytes → Bytes → Bytes) (sessionKey : Option Bytes) (env : Envelope) : Bytes :=
  hexEncode (hmacSha256 (sessionKey.getD zeroKey) (macInput env))

def errorMember (error : Bytes) : Bytes := if error = [] then [] else codes ",\"error\":" ++ quote error

def marshal (env : Envelope) : Option Bytes :=
  (match env.payload with
    | none => some jsonNull
    | some raw => compact raw).map fun payload =>
      codes "\x7b\"id\":" ++ quote env.id ++ codes ",\"seq\":" ++ formatUint env.seq ++ codes ",\"type\":" ++
        quote env.type ++ codes ",\"payload\":" ++ payload ++ errorMember env.error ++ codes ",\"hmac\":" ++
        quote env.hmac ++ codes "\x7d"

inductive EnvelopeField where
  | id | seq | type | payload | error | hmac

def EnvelopeField.name : EnvelopeField → Text
  | id => "id".toList
  | seq => "seq".toList
  | type => "type".toList
  | payload => "payload".toList
  | error => "error".toList
  | hmac => "hmac".toList

/-- A key that is a name but for the case of its letters; two signs beyond ASCII are cases of `s` and of `k`. -/
def matchesName : Text → Bytes → Bool
  | [], key => key = []
  | c :: name, key =>
    if key.head? = some (code c) ∨ key.head? = some (code c.toUpper) then matchesName name key.tail
    else if c = 's' ∧ key.take 2 = [0xc5, 0xbf] then matchesName name (key.drop 2)
    else if c = 'k' ∧ key.take 3 = [0xe2, 0x84, 0xaa] then matchesName name (key.drop 3)
    else false

def fieldOf (key : Bytes) : Option EnvelopeField :=
  [EnvelopeField.id, .seq, .type, .payload, .error, .hmac].find? fun f => matchesName f.name key

/-- A string, or `null`, which leaves what was there. -/
def readString (old item : Bytes) : Option Bytes :=
  if item.head? = some (code '"') then unquote item else if item = jsonNull then some old else none

def parseUint (item : Bytes) : Option ℕ :=
  let digits : Text := item.map fun b => Char.ofNat b.toNat
  if digits ≠ [] ∧ digits.all Char.isDigit ∧ number digits < 2 ^ 64 then some (number digits) else none

def readUint (old : ℕ) (item : Bytes) : Option ℕ := if item = jsonNull then some old else parseUint item

/-- A field takes the last of its members; what names no field is passed by. -/
def readMember (env : Envelope) (member : Bytes × Bytes) : Option Envelope :=
  match unquote member.1 with
  | none => none
  | some key =>
    match fieldOf key with
    | none => some env
    | some .id => (readString env.id member.2).map fun s => { env with id := s }
    | some .seq => (readUint env.seq member.2).map fun n => { env with seq := n }
    | some .type => (readString env.type member.2).map fun s => { env with type := s }
    | some .payload => some { env with payload := some member.2 }
    | some .error => (readString env.error member.2).map fun s => { env with error := s }
    | some .hmac => (readString env.hmac member.2).map fun s => { env with hmac := s }

def unmarshal (data : Bytes) : Option Envelope :=
  match readObject data with
  | some members => members.foldlM readMember .empty
  | none => if trimBy JsonText.isSpace data = jsonNull then some .empty else none

/-- What `json.Marshal` gives: a compact text in which nothing is left to escape for HTML. -/
structure Marshalled where
  tree : Compact
  valid : tree.Valid
  plain : HtmlPlain tree.text

theorem utf8Text_ascii {bytes : Bytes} (small : ∀ b ∈ bytes, b.toNat < 0x80) :
    utf8Text (bytes.map fun b => Char.ofNat b.toNat) = bytes := by
  have each : ∀ n < 0x80, (Char.ofNat n).toNat = n := by decide
  induction bytes with
  | nil => rfl
  | cons b bytes ih =>
    have less := small b List.mem_cons_self
    have encoded : String.utf8EncodeChar (Char.ofNat b.toNat) = [b] := by
      rw [encodeChar_ascii (by rw [each _ less]; exact less), each _ less, UInt8.ofNat_toNat]
    rw [List.map_cons, utf8Text, List.flatMap_cons, encoded, ← utf8Text,
      ih fun d member => small d (List.mem_cons_of_mem b member)]
    rfl

theorem hexDigit_small : ∀ n < 16, (hexDigit n).toNat < 0x80 := by decide

theorem hexEncode_text (bytes : Bytes) : ∃ t, hexEncode bytes = utf8Text t := by
  refine ⟨_, (utf8Text_ascii ?_).symm⟩
  intro d member
  obtain ⟨b, -, digit⟩ := List.mem_flatMap.mp member
  have bound := b.toNat_lt
  rcases List.mem_cons.mp digit with rfl | digit
  · exact hexDigit_small _ (by omega)
  · rw [List.mem_singleton.mp digit]
    exact hexDigit_small _ (by omega)

theorem code_toNat {c : Char} (small : c.toNat < 0x80) : (code c).toNat = c.toNat :=
  UInt8.toNat_ofNat_of_lt' (lt_trans small (by decide))

theorem formatUint_back (n : ℕ) : ((formatUint n).map fun b => Char.ofNat b.toNat) = decimal n := by
  rw [formatUint, List.map_map]
  refine (List.map_congr_left fun c member => ?_).trans (List.map_id _)
  have bounds := digit_bounds (digits_decimal n c member)
  rw [Function.comp_apply, code_toNat (by omega), Char.ofNat_toNat, id]

theorem parseUint_formatUint {n : ℕ} (small : n < 2 ^ 64) : parseUint (formatUint n) = some n := by
  have filled : decimal n ≠ [] := Nat.toDigits_ne_nil
  have digits : (decimal n).all Char.isDigit = true := List.all_eq_true.mpr (digits_decimal n)
  simp only [parseUint, formatUint_back, number_decimal]
  rw [if_pos ⟨filled, digits, small⟩]

theorem readUint_formatUint {n : ℕ} (small : n < 2 ^ 64) (old : ℕ) : readUint old (formatUint n) = some n := by
  have read := parseUint_formatUint small
  rw [readUint, if_neg ?_, read]
  intro same
  rw [same] at read
  cases read

theorem decimal_head {n : ℕ} (zero : (decimal n).head? = some '0') : n = 0 := by
  induction n using Nat.strong_induction_on with
  | _ n ih =>
    rw [decimal, Nat.toDigits_eq_if (by decide)] at zero
    split_ifs at zero with small
    · have ten : ∀ d < 10, Nat.digitChar d = '0' → d = 0 := by decide
      exact ten n small (Option.some.inj zero)
    · have front := ih (n / 10) (by omega)
      rw [List.head?_append_of_ne_nil _ Nat.toDigits_ne_nil] at zero
      have none := front zero
      omega

theorem formatUint_whole (n : ℕ) : Numeral.WholeDigits (formatUint n) := by
  refine ⟨?_, ?_, ?_⟩
  · exact fun none => Nat.toDigits_ne_nil (List.map_eq_nil_iff.mp none)
  · intro zero
    have first : ((formatUint n).map fun b => Char.ofNat b.toNat).head? = some '0' := by
      rw [List.head?_map, zero]
      rfl
    rw [formatUint_back] at first
    rw [decimal_head first]
    rfl
  · intro b member
    obtain ⟨c, digit, rfl⟩ := List.mem_map.mp member
    have bounds := digit_bounds (digits_decimal n c digit)
    simp only [isDigit, UInt8.le_iff_toNat_le, code_toNat (show c.toNat < 0x80 by omega), Bool.and_eq_true,
      decide_eq_true_eq]
    exact ⟨bounds.1, by have := bounds.2; show c.toNat ≤ 57; omega⟩

theorem readString_quote (old : Bytes) (t : Text) : readString old (quote (utf8Text t)) = some (utf8Text t) := by
  have head : (quote (utf8Text t)).head? = some (code '"') := rfl
  rw [readString, if_pos head, unquote_quote]

theorem stringText_textPieces (t : Text) : stringText (textPieces t) = quote (utf8Text t) := (quote_text t).symm

def member (name : EnvelopeField) (v : Compact) : List StringPiece × Compact := (textPieces name.name, v)

def payloadTree : Option Marshalled → Compact
  | none => .null
  | some p => p.tree

def errorMembers (error : Text) : List (List StringPiece × Compact) :=
  if error = [] then [] else [member .error (.string (textPieces error))]

section Trees
variable (id type error hmac : Text) (seq : ℕ) (payload : Option Marshalled)

def envelopeOf : Envelope :=
  ⟨utf8Text id, seq, utf8Text type, payload.map fun p => p.tree.text, utf8Text error, utf8Text hmac⟩

def membersOf : List (List StringPiece × Compact) :=
  member .id (.string (textPieces id)) :: member .seq (.number ⟨false, formatUint seq, [], none⟩) ::
    member .type (.string (textPieces type)) :: member .payload (payloadTree payload) ::
      (errorMembers error ++ [member .hmac (.string (textPieces hmac))])

theorem member_text (name : EnvelopeField) (v : Compact) (rest : List (List StringPiece × Compact)) :
    Compact.membersText (member name v :: rest) =
      code ',' :: (quote (utf8Text name.name) ++ code ':' :: (v.text ++ Compact.membersText rest)) := by
  rw [member, Compact.membersText, stringText_textPieces]

theorem payloadTree_text : (payloadTree payload).text = (envelopeOf id type error hmac seq payload).payloadText := by
  cases payload with
  | none => rw [payloadTree, Compact.text]; rfl
  | some p => rfl

theorem utf8Text_eq_nil {t : Text} (none : utf8Text t = []) : t = [] := by
  cases t with
  | nil => rfl
  | cons c t =>
    rw [utf8Text, flatMap_cons, append_eq_nil_iff] at none
    exact absurd none.1 (String.utf8EncodeChar_ne_nil (c := c))

theorem errorMembers_text (rest : List (List StringPiece × Compact)) :
    Compact.membersText (errorMembers error ++ rest) = errorMember (utf8Text error) ++ Compact.membersText rest := by
  unfold errorMembers errorMember
  by_cases none : error = []
  · rw [if_pos none, none]
    rfl
  · rw [if_neg none, if_neg fun empty => none (utf8Text_eq_nil empty), singleton_append, member_text, Compact.text,
      stringText_textPieces]
    have spelled : codes ",\"error\":" = code ',' :: (quote (utf8Text EnvelopeField.error.name) ++ [code ':']) := rfl
    rw [spelled]
    simp only [cons_append, append_assoc, nil_append]

theorem compact_payload (room : ∀ p ∈ payload, p.tree.depth < maxNestingDepth) :
    (match payload.map fun p => p.tree.text with
      | none => some jsonNull
      | some raw => compact raw) = some (payloadTree payload).text := by
  cases payload with
  | none => rw [payloadTree, Compact.text]; rfl
  | some p => exact compact_text p.valid (Nat.le_of_lt (room p rfl)) p.plain

theorem marshal_envelope (room : ∀ p ∈ payload, p.tree.depth < maxNestingDepth) :
    marshal (envelopeOf id type error hmac seq payload) =
      some (Compact.object (membersOf id type error hmac seq payload)).text := by
  have opening : codes "\x7b\"id\":" = code '\x7b' :: (quote (utf8Text EnvelopeField.id.name) ++ [code ':']) := rfl
  have seqKey : codes ",\"seq\":" = code ',' :: (quote (utf8Text EnvelopeField.seq.name) ++ [code ':']) := rfl
  have typeKey : codes ",\"type\":" = code ',' :: (quote (utf8Text EnvelopeField.type.name) ++ [code ':']) := rfl
  have payloadKey : codes ",\"payload\":" =
      code ',' :: (quote (utf8Text EnvelopeField.payload.name) ++ [code ':']) := rfl
  have hmacKey : codes ",\"hmac\":" = code ',' :: (quote (utf8Text EnvelopeField.hmac.name) ++ [code ':']) := rfl
  have closing : codes "\x7d" = [code '\x7d'] := rfl
  have number : Numeral.text ⟨false, formatUint seq, [], none⟩ = formatUint seq := by
    simp [Numeral.text, Numeral.fractionText, Numeral.exponentText]
  rw [marshal, envelopeOf, compact_payload payload room, membersOf, member, Compact.text, member_text, member_text,
    member_text, errorMembers_text, member_text, Compact.membersText, stringText_textPieces, opening, seqKey, typeKey,
    payloadKey, hmacKey, closing]
  simp only [map_some, Compact.text, stringText_textPieces, number, cons_append, append_assoc, nil_append]

theorem membersOf_valid : Compact.MembersValid (membersOf id type error hmac seq payload) := by
  have number : Numeral.Valid ⟨false, formatUint seq, [], none⟩ :=
    ⟨formatUint_whole seq, fun c none => absurd none not_mem_nil, fun _ _ _ none => nomatch none⟩
  have tree : (payloadTree payload).Valid := by
    cases payload with
    | none => rw [payloadTree, Compact.Valid]; trivial
    | some p => exact p.valid
  unfold membersOf errorMembers member
  split_ifs <;>
    simp only [nil_append, cons_append, Compact.MembersValid, Compact.Valid, and_true]
  · exact ⟨textPieces_valid _, textPieces_valid _, textPieces_valid _, number, textPieces_valid _, textPieces_valid _,
      textPieces_valid _, tree, textPieces_valid _, textPieces_valid _⟩
  · exact ⟨textPieces_valid _, textPieces_valid _, textPieces_valid _, number, textPieces_valid _, textPieces_valid _,
      textPieces_valid _, tree, textPieces_valid _, textPieces_valid _, textPieces_valid _, textPieces_valid _⟩

theorem membersOf_depth (room : ∀ p ∈ payload, p.tree.depth < maxNestingDepth) :
    (Compact.object (membersOf id type error hmac seq payload)).depth ≤ maxNestingDepth := by
  have tree : (payloadTree payload).depth < maxNestingDepth := by
    cases payload with
    | none => simp [payloadTree, Compact.depth, maxNestingDepth]
    | some p => exact room p rfl
  rw [Compact.depth]
  unfold membersOf errorMembers member
  split_ifs <;>
    simp only [nil_append, cons_append, Compact.membersDepth, Compact.depth] <;> omega

theorem unmarshal_members (small : seq < 2 ^ 64) (room : ∀ p ∈ payload, p.tree.depth < maxNestingDepth) :
    unmarshal (Compact.object (membersOf id type error hmac seq payload)).text =
      some { envelopeOf id type error hmac seq payload with
        payload := some (envelopeOf id type error hmac seq payload).payloadText } := by
  have valid : (Compact.object (membersOf id type error hmac seq payload)).Valid := by
    rw [Compact.Valid]
    exact membersOf_valid id type error hmac seq payload
  have keys : ∀ name : EnvelopeField, unquote (stringText (textPieces name.name)) = some (utf8Text name.name) := by
    intro name
    rw [stringText_textPieces, unquote_quote]
  have named : ∀ name : EnvelopeField, fieldOf (utf8Text name.name) = some name := by
    intro name
    cases name <;> rfl
  have number : (Compact.number ⟨false, formatUint seq, [], none⟩).text = formatUint seq := by
    simp [Compact.text, Numeral.text, Numeral.fractionText, Numeral.exponentText]
  have string : ∀ t : Text, (Compact.string (textPieces t)).text = quote (utf8Text t) := by
    intro t
    rw [Compact.text, stringText_textPieces]
  have read : unmarshal (Compact.object (membersOf id type error hmac seq payload)).text =
      (spelled (membersOf id type error hmac seq payload)).foldlM readMember .empty := by
    rw [unmarshal, readObject_text valid (membersOf_depth id type error hmac seq payload room)]
  rw [read, membersOf, errorMembers]
  by_cases none : error = []
  · simp only [none, if_true, nil_append, spelled, map_cons, map_nil, foldlM_cons, foldlM_nil,
      member, readMember, keys, named, number, string, readString_quote, readUint_formatUint small, map_some,
      bind_eq_bind, bind_some, payloadTree_text id type error hmac seq payload]
    rfl
  · simp only [none, if_false, cons_append, nil_append, spelled, map_cons, map_nil, foldlM_cons,
      foldlM_nil, member, readMember, keys, named, number, string, readString_quote, readUint_formatUint small,
      map_some, bind_eq_bind, bind_some, payloadTree_text id type error hmac seq payload]
    rfl

end Trees

end RemudaRmm.Endpoint.Ipc
