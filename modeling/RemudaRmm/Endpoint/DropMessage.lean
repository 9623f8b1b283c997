import RemudaRmm.Foundation.Base64
import RemudaRmm.Foundation.JsonBytes
import RemudaRmm.Endpoint.IpcEnvelope

/-! Messages of a file drop (`protocol.go`): how they are written and read as JSON. -/
namespace RemudaRmm.Endpoint.FileDrop
open List Option
open Foundation JsonText
open Endpoint.Ipc (formatUint jsonNull matchesName readString parseUint parseUint_formatUint formatUint_whole)

def dropStart : Bytes := codes "DROP_START"

def dropChunk : Bytes := codes "DROP_CHUNK"

def dropComplete : Bytes := codes "DROP_COMPLETE"

structure Message where
  (type transferID name : Bytes)
  (size offset : ℤ)
  data : Bytes

def Message.empty : Message := ⟨[], [], [], 0, 0, []⟩

inductive MessageField where
  | type | transferID | name | size | offset | data

def MessageField.key : MessageField → Text
  | type => "type".toList
  | transferID => "transfer_id".toList
  | name => "name".toList
  | size => "size".toList
  | offset => "offset".toList
  | data => "data".toList

def stringTree (s : Bytes) : Compact := .string (quotePieces s.length s)

def intTree (z : ℤ) : Compact := .number ⟨z < 0, formatUint z.natAbs, [], none⟩

def Message.value (m : Message) : MessageField → Compact
  | .type => stringTree m.type
  | .transferID => stringTree m.transferID
  | .name => stringTree m.name
  | .size => intTree m.size
  | .offset => intTree m.offset
  | .data => stringTree m.data

def Message.omitted (m : Message) : MessageField → Bool
  | .type | .transferID => false
  | .name => m.name = []
  | .size => m.size = 0
  | .offset => m.offset = 0
  | .data => m.data = []

def Message.fields (m : Message) : List MessageField :=
  [MessageField.type, .transferID, .name, .size, .offset, .data].filter fun f => ¬m.omitted f

def Message.members (m : Message) : List (List StringPiece × Compact) :=
  m.fields.map fun f => (textPieces f.key, m.value f)

def encodeMessage (message : Message) : Bytes := (Compact.object message.members).text

def fieldOf (key : Bytes) : Option MessageField :=
  [MessageField.type, .transferID, .name, .size, .offset, .data].find? fun f => matchesName f.key key

def parseInt (item : Bytes) : Option ℤ :=
  if item.head? = some (code '-') then
    (parseUint item.tail).bind fun n => if n ≤ 2 ^ 63 then some (-(n : ℤ)) else none
  else (parseUint item).bind fun n => if n < 2 ^ 63 then some (n : ℤ) else none

def readInt (old : ℤ) (item : Bytes) : Option ℤ := if item = jsonNull then some old else parseInt item

/-- A field takes the last of its members; what names no field is passed by. -/
def readMember (m : Message) (member : Bytes × Bytes) : Option Message :=
  match unquote member.1 with
  | none => none
  | some key =>
    match fieldOf key with
    | none => some m
    | some .type => (readString m.type member.2).map fun s => { m with type := s }
    | some .transferID => (readString m.transferID member.2).map fun s => { m with transferID := s }
    | some .name => (readString m.name member.2).map fun s => { m with name := s }
    | some .size => (readInt m.size member.2).map fun z => { m with size := z }
    | some .offset => (readInt m.offset member.2).map fun z => { m with offset := z }
    | some .data => (readString m.data member.2).map fun s => { m with data := s }

def decodeMessage (data : Bytes) : Option Message :=
  match readObject data with
  | some members => members.foldlM readMember .empty
  | none => if trimBy JsonText.isSpace data = jsonNull then some .empty else none

def Message.readBack (m : Message) : Message :=
  { m with
    type := replaced m.type, transferID := replaced m.transferID, name := replaced m.name, data := replaced m.data }

def int64 (z : ℤ) : Prop := -2 ^ 63 ≤ z ∧ z < 2 ^ 63

theorem intTree_text (z : ℤ) : (intTree z).text = (if z < 0 then [code '-'] else []) ++ formatUint z.natAbs := by
  simp [intTree, Compact.text, Numeral.text, Numeral.fractionText, Numeral.exponentText]

theorem formatUint_head (n : ℕ) : (formatUint n).head? ≠ some (code '-') := by
  intro head
  have digit := (formatUint_whole n).2.2 (code '-') (mem_of_mem_head? head)
  exact absurd digit (by decide)

theorem parseInt_intTree {z : ℤ} (bounds : int64 z) : parseInt (intTree z).text = some z := by
  obtain ⟨least, most⟩ := bounds
  rw [intTree_text]
  split_ifs with negative
  · have small : z.natAbs < 2 ^ 64 := by omega
    have magnitude : z.natAbs ≤ 2 ^ 63 := by omega
    rw [singleton_append, parseInt, head?_cons, if_pos rfl, tail_cons, parseUint_formatUint small,
      bind_some, if_pos magnitude]
    congr 1
    omega
  · have small : z.natAbs < 2 ^ 64 := by omega
    have magnitude : z.natAbs < 2 ^ 63 := by omega
    rw [nil_append, parseInt, if_neg (formatUint_head _), parseUint_formatUint small, bind_some, if_pos magnitude]
    congr 1
    omega

theorem readInt_intTree {z : ℤ} (bounds : int64 z) (old : ℤ) : readInt old (intTree z).text = some z := by
  have read := parseInt_intTree bounds
  rw [readInt, if_neg ?_, read]
  intro same
  rw [same] at read
  cases read

theorem readString_stringTree (old s : Bytes) : readString old (stringTree s).text = some (replaced s) := by
  have quoted : (stringTree s).text = quote s := by rw [stringTree, Compact.text, quote]
  have head : (quote s).head? = some (code '"') := rfl
  rw [quoted, readString, if_pos head, unquote_quote_bytes]

theorem intTree_valid (z : ℤ) : (intTree z).Valid := by
  rw [intTree, Compact.Valid]
  exact ⟨formatUint_whole _, by simp, by simp⟩

theorem stringTree_valid (s : Bytes) : (stringTree s).Valid := by
  rw [stringTree, Compact.Valid]
  exact quotePieces_valid _ s

theorem Message.value_valid (m : Message) (f : MessageField) : (m.value f).Valid ∧ (m.value f).depth = 0 := by
  cases f <;> simp only [Message.value, stringTree_valid, intTree_valid, true_and] <;>
    simp [stringTree, intTree, Compact.depth]

theorem Message.members_valid (m : Message) : Compact.MembersValid m.members ∧ Compact.membersDepth m.members = 0 := by
  rw [Message.members]
  induction m.fields with
  | nil => simp [Compact.MembersValid, Compact.membersDepth]
  | cons f fields ih =>
    obtain ⟨valid, flat⟩ := m.value_valid f
    rw [map_cons, Compact.MembersValid, Compact.membersDepth, flat, ih.2]
    exact ⟨⟨textPieces_valid _, valid, ih.1⟩, rfl⟩

def Message.copy (source : Message) (m : Message) : MessageField → Message
  | .type => { m with type := source.type }
  | .transferID => { m with transferID := source.transferID }
  | .name => { m with name := source.name }
  | .size => { m with size := source.size }
  | .offset => { m with offset := source.offset }
  | .data => { m with data := source.data }

theorem readMember_value {m : Message} (size : int64 m.size) (offset : int64 m.offset) (old : Message)
    (f : MessageField) :
    readMember old (stringText (textPieces f.key), (m.value f).text) = some (m.readBack.copy old f) := by
  have key : unquote (stringText (textPieces f.key)) = some (utf8Text f.key) := by
    rw [← quote_text, unquote_quote]
  have named : fieldOf (utf8Text f.key) = some f := by cases f <;> rfl
  simp only [readMember, key, named]
  cases f <;>
    simp only [Message.value, readString_stringTree, readInt_intTree size, readInt_intTree offset, map_some,
      Message.copy, Message.readBack]

theorem decodeMessage_encodeMessage {m : Message} (size : int64 m.size) (offset : int64 m.offset) :
    decodeMessage (encodeMessage m) = some m.readBack := by
  have valid : (Compact.object m.members).Valid := by
    rw [Compact.Valid]
    exact m.members_valid.1
  have room : (Compact.object m.members).depth ≤ maxNestingDepth := by
    rw [Compact.depth, m.members_valid.2]
    decide
  have copied : ∀ (fields : List MessageField) (old : Message),
      (spelled (fields.map fun f => (textPieces f.key, m.value f))).foldlM readMember old =
        some (fields.foldl m.readBack.copy old) := by
    intro fields
    induction fields with
    | nil => exact fun _ => rfl
    | cons f fields ih =>
      intro old
      rw [map_cons, spelled, map_cons, foldlM_cons, readMember_value size offset, bind_eq_bind, bind_some, foldl_cons]
      exact ih _
  have empty : replaced [] = [] := rfl
  rw [decodeMessage, encodeMessage, readObject_text valid room]
  dsimp only
  rw [Message.members, copied]
  congr 1
  obtain ⟨type, id, name, z, y, data⟩ := m
  by_cases noName : name = [] <;> by_cases noSize : z = 0 <;> by_cases noOffset : y = 0 <;>
    by_cases noData : data = [] <;>
      simp [Message.fields, Message.omitted, Message.copy, Message.readBack, Message.empty, noName, noSize, noOffset,
        noData, empty]

end RemudaRmm.Endpoint.FileDrop
