import RemudaRmm.Foundation.Encodings

/-! The output of a terminal in chunks that end where characters end (`utf8stream.go`), and a decoder that puts one
replacement character for every maximal invalid part. -/
namespace RemudaRmm.Endpoint
open Foundation List

/-- How many continuation bytes follow a lead byte, and between which bounds the first of them is. -/
def leadInfo (b : UInt8) : Option (ℕ × UInt8 × UInt8) :=
  if 0xc2 ≤ b ∧ b ≤ 0xdf then some (1, 0x80, 0xbf)
  else if b = 0xe0 then some (2, 0xa0, 0xbf)
  else if b = 0xed then some (2, 0x80, 0x9f)
  else if 0xe1 ≤ b ∧ b ≤ 0xef then some (2, 0x80, 0xbf)
  else if b = 0xf0 then some (3, 0x90, 0xbf)
  else if 0xf1 ≤ b ∧ b ≤ 0xf3 then some (3, 0x80, 0xbf)
  else if b = 0xf4 then some (3, 0x80, 0x8f)
  else none

def runeStart (b : UInt8) : Bool := b < 0x80 || 0xbf < b

/-- A character, or what is none, stands in front; only an unfinished character does not. -/
def fullRune : Bytes → Bool
  | [] => false
  | b :: rest => (leadInfo b).all fun (more, low, high) =>
    more ≤ rest.length || (rest[0]?.any fun c => c < low || high < c) || rest[1]?.any runeStart

/-- The search for the last lead byte, before an index and so many bytes back. -/
def scanBack (b : Bytes) : ℕ → ℕ → Bytes × Bytes
  | left + 1, i + 1 =>
    if b[i]?.any runeStart then if fullRune (b.drop i) then (b, []) else (b.take i, b.drop i) else scanBack b left i
  | _, _ => (b, [])

def splitUTF8Boundary (b : Bytes) : Bytes × Bytes := scanBack b 3 b.length

structure OutputStream where
  sent : List Bytes
  pending : Bytes

/-- A read hands out what is complete of it and of what was held before, if there is any. -/
def OutputStream.read (s : OutputStream) (bytes : Bytes) : OutputStream :=
  if bytes = [] then s
  else
    let (emit, hold) := splitUTF8Boundary (s.pending ++ bytes)
    ⟨if emit = [] then s.sent else s.sent ++ [emit], hold⟩

/-- A byte where a character begins: the characters that it ends, and what it leaves unfinished. -/
def decodeFirst (b : UInt8) : List Char × Bytes :=
  if b < 0x80 then ([Char.ofNat b.toNat], []) else if leadInfo b = none then ([replacement], []) else ([], [b])

/-- Whether a byte is the next of a character of which this is the front. -/
def Continues (lead : UInt8) (rest : Bytes) (b : UInt8) : Prop :=
  if rest = [] then ∃ info ∈ leadInfo lead, info.2.1 ≤ b ∧ b ≤ info.2.2 else runeStart b = false
  deriving Decidable

/-- A byte after an unfinished character, which it continues, ends or leaves invalid. -/
def decodeStep : Bytes → UInt8 → List Char × Bytes
  | [], b => decodeFirst b
  | lead :: rest, b =>
    let more := ((leadInfo lead).map Prod.fst).getD 0
    if Continues lead rest b then
      if rest.length + 1 < more then ([], lead :: (rest ++ [b]))
      else
        ([Char.ofNat ((rest ++ [b]).foldl (fun code c => 64 * code + c.toNat % 64) (lead.toNat % 2 ^ (6 - more)))], [])
    else (replacement :: (decodeFirst b).1, (decodeFirst b).2)

/-- Decoding goes on with an unfinished character, for which there is a replacement at the end. -/
def decodeFrom : Bytes → Bytes → List Char
  | unfinished, [] => if unfinished = [] then [] else [replacement]
  | unfinished, b :: bytes => (decodeStep unfinished b).1 ++ decodeFrom (decodeStep unfinished b).2 bytes

def decode (bytes : Bytes) : List Char := decodeFrom [] bytes

/-- What the decoder leaves unfinished. -/
def unfinished (before bytes : Bytes) : Bytes := bytes.foldl (fun before b => (decodeStep before b).2) before

inductive Unfinished : Bytes → Prop where
  | nil : Unfinished []
  | lead {b low high : UInt8} {more : ℕ} {rest : Bytes} (info : leadInfo b = some (more, low, high))
      (few : rest.length < more) (first : ∀ c ∈ rest[0]?, low ≤ c ∧ c ≤ high)
      (plain : ∀ c ∈ rest, runeStart c = false) : Unfinished (b :: rest)

section Decoder
variable {b low high : UInt8} {more left i j : ℕ} {bytes rest before front : Bytes}

theorem leadInfo_bounds (info : leadInfo b = some (more, low, high)) :
    runeStart b = true ∧ (1 ≤ more ∧ more ≤ 3) ∧ 0x80 ≤ low ∧ high ≤ 0xbf := by
  simp only [leadInfo] at info
  simp only [runeStart, Bool.or_eq_true, decide_eq_true_eq, UInt8.lt_iff_toNat_lt, UInt8.le_iff_toNat_le,
    ← UInt8.toNat_inj] at info ⊢
  split_ifs at info <;> cases info <;> refine ⟨.inr ?_, by decide, by decide, by decide⟩ <;> simp_all <;> omega

theorem Continues.plain {lead : UInt8} (continues : Continues lead rest b) : runeStart b = false := by
  unfold Continues at continues
  split_ifs at continues
  · obtain ⟨⟨more, low, high⟩, info, within⟩ := continues
    obtain ⟨-, -, least, most⟩ := leadInfo_bounds info
    simp only [runeStart, Bool.or_eq_false_iff, decide_eq_false_iff_not, UInt8.not_lt]
    exact ⟨UInt8.le_trans least within.1, UInt8.le_trans within.2 most⟩
  · exact continues

theorem decodeFirst_unfinished (b : UInt8) : Unfinished (decodeFirst b).2 ∧ (decodeFirst b).2 <:+ [b] := by
  unfold decodeFirst
  split_ifs with small lead
  · exact ⟨.nil, nil_suffix⟩
  · exact ⟨.nil, nil_suffix⟩
  · obtain ⟨⟨more, low, high⟩, info⟩ := Option.ne_none_iff_exists'.mp lead
    exact ⟨.lead info (leadInfo_bounds info).2.1.1 (by simp) (by simp), suffix_rfl⟩

theorem decodeStep_unfinished (b : UInt8) (held : Unfinished before) :
    Unfinished (decodeStep before b).2 ∧ (decodeStep before b).2 <:+ before ++ [b] := by
  cases held with
  | nil => exact decodeFirst_unfinished b
  | @lead lead low high more rest info few first plain =>
    rw [decodeStep, info]
    dsimp only [Option.map_some, Option.getD_some]
    split_ifs with continues further
    · refine ⟨.lead info (by simpa using further) ?_ ?_, suffix_rfl⟩
      · cases rest with
        | nil => simpa [Continues, info] using continues
        | cons c rest => simpa using first
      · simpa [or_imp, forall_and] using ⟨plain, continues.plain⟩
    · exact ⟨.nil, nil_suffix⟩
    · obtain ⟨next, suffix⟩ := decodeFirst_unfinished b
      exact ⟨next, suffix.trans (suffix_append _ _)⟩

theorem unfinished_spec (held : Unfinished before) (bytes : Bytes) :
    Unfinished (unfinished before bytes) ∧ unfinished before bytes <:+ before ++ bytes := by
  induction bytes generalizing before with
  | nil => exact ⟨held, (append_nil before).symm ▸ suffix_rfl⟩
  | cons b bytes ih =>
    obtain ⟨next, gone, same⟩ := decodeStep_unfinished b held
    obtain ⟨last, later⟩ := ih next
    refine ⟨last, later.trans ⟨gone, ?_⟩⟩
    rw [← append_assoc, same, append_cons before b bytes]

/-- Texts are decoded apart where nothing is unfinished or a character begins. -/
theorem decodeFrom_append (apart : unfinished before bytes = [] ∨ rest[0]?.any runeStart) :
    decodeFrom before (bytes ++ rest) = decodeFrom before bytes ++ decode rest := by
  induction bytes generalizing before with
  | nil =>
    by_cases none : before = []
    · subst none
      rfl
    · obtain ⟨lead, held, rfl⟩ := exists_cons_of_ne_nil none
      cases rest with
      | nil => simp [unfinished] at apart
      | cons b rest =>
        have start : runeStart b = true := by simpa [unfinished] using apart
        have ends : ¬Continues lead held b := fun continues => by simp [continues.plain] at start
        simp [decodeFrom, decode, decodeStep, ends]
  | cons b bytes ih => simp only [cons_append, decodeFrom, ih apart, append_assoc]

theorem fullRune_eq_false (held : Unfinished (b :: rest)) : fullRune (b :: rest) = false := by
  cases held with
  | @lead _ low high _ _ info few first plain =>
    have outside : (rest[0]?.any fun c => c < low || high < c) = false := by
      rw [Option.any_eq_false]
      exact fun c there => by simp [first c there]
    have second : rest[1]?.any runeStart = false := by
      rw [Option.any_eq_false]
      exact fun c there => by simp [plain c (mem_of_getElem? there)]
    simp [fullRune, info, few, outside, second]

theorem scanBack_cases (b : Bytes) (left i : ℕ) : scanBack b left i = (b, []) ∨
    ∃ j, j < i ∧ i ≤ j + left ∧ b[j]?.any runeStart ∧ scanBack b left i = (b.take j, b.drop j) := by
  induction left generalizing i with
  | zero => exact .inl rfl
  | succ left ih =>
    cases i with
    | zero => exact .inl rfl
    | succ i =>
      rw [scanBack]
      split_ifs with start full
      · exact .inl rfl
      · exact .inr ⟨i, i.lt_succ_self, by omega, start, rfl⟩
      · refine (ih i).imp_right fun ⟨j, before, near, found⟩ => ⟨j, by omega, by omega, found⟩

theorem scanBack_unfinished (held : Unfinished (b :: rest)) (i : ℕ) (within : i ≤ rest.length) (enough : i < left) :
    scanBack (front ++ b :: rest) left (front.length + i + 1) = (front, b :: rest) := by
  have ⟨start, plain⟩ : runeStart b = true ∧ ∀ c ∈ rest, runeStart c = false := by
    cases held with
    | lead info few first plain => exact ⟨(leadInfo_bounds info).1, plain⟩
  induction i generalizing left with
  | zero =>
    cases left with
    | zero => cases enough
    | succ left => simp [scanBack, start, fullRune_eq_false held]
  | succ i ih =>
    cases left with
    | zero => cases enough
    | succ left =>
      rw [scanBack, getElem?_append_right (Nat.le_add_right _ _), Nat.add_sub_cancel_left, getElem?_cons_succ,
        getElem?_eq_getElem within]
      simp only [Option.any_some, plain _ (getElem_mem within), Bool.false_eq_true, if_false]
      exact ih (Nat.le_of_succ_le within) (Nat.lt_of_succ_lt_succ enough)

theorem splitUTF8Boundary_spec (b : Bytes) : (splitUTF8Boundary b).1 ++ (splitUTF8Boundary b).2 = b ∧
    (splitUTF8Boundary b).2.length ≤ 3 ∧
      (unfinished [] (splitUTF8Boundary b).1 = [] ∨ (splitUTF8Boundary b).2[0]?.any runeStart) := by
  unfold splitUTF8Boundary
  rcases scanBack_cases b 3 b.length with whole | ⟨j, -, near, start, cut⟩
  · rw [whole]
    refine ⟨append_nil b, by simp, .inl ?_⟩
    obtain ⟨held, front, same⟩ := unfinished_spec .nil b
    cases last : unfinished [] b with
    | nil => rfl
    | cons lead rest =>
      rw [last] at held same
      cases held with
      | lead info few first plain =>
        have more := (leadInfo_bounds info).2.1.2
        have found : scanBack (front ++ lead :: rest) 3 (front.length + rest.length + 1) = (front, lead :: rest) :=
          scanBack_unfinished (.lead info few first plain) rest.length le_rfl (by omega)
        rw [same, nil_append] at found
        have length := congrArg length same
        rw [length_append, length_cons, nil_append, ← add_assoc] at length
        rw [length, whole] at found
        cases found
  · rw [cut]
    refine ⟨take_append_drop j b, ?_, .inr ?_⟩
    · rw [length_drop]
      omega
    · simpa using start

end Decoder

structure OutputStream.Sound (stream : Bytes) (s : OutputStream) : Prop where
  whole : s.sent.flatten ++ s.pending = stream
  filled : [] ∉ s.sent
  short : s.pending.length ≤ 3
  decoded : ∀ rest, decode (stream ++ rest) = s.sent.flatMap decode ++ decode (s.pending ++ rest)

theorem OutputStream.Sound.read {stream : Bytes} {s : OutputStream} (sound : s.Sound stream) (bytes : Bytes) :
    (s.read bytes).Sound (stream ++ bytes) := by
  unfold OutputStream.read
  split_ifs with none
  · rwa [none, append_nil]
  · obtain ⟨whole, short, apart⟩ := splitUTF8Boundary_spec (s.pending ++ bytes)
    generalize splitUTF8Boundary (s.pending ++ bytes) = split at whole short apart
    obtain ⟨emit, hold⟩ := split
    dsimp only at whole short apart ⊢
    have apart (rest : Bytes) : unfinished [] emit = [] ∨ (hold ++ rest)[0]?.any runeStart :=
      apart.imp_right fun start => by
        cases hold with
        | nil => cases start
        | cons b hold => exact start
    refine ⟨?_, ?_, short, fun rest => ?_⟩
    · rw [← sound.whole, append_assoc, ← whole]
      split_ifs with empty <;> simp [empty]
    · split_ifs with empty
      · exact sound.filled
      · simp [sound.filled, Ne.symm empty]
    · rw [append_assoc, sound.decoded, ← append_assoc, ← whole, append_assoc, decode, decodeFrom_append (apart rest)]
      split_ifs with empty <;> simp [empty, decode, decodeFrom]

end RemudaRmm.Endpoint
