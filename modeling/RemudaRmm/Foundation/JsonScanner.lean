import RemudaRmm.Foundation.Encodings

/-! A scanner of JSON texts that takes one byte at a time and keeps the nesting it is in; the texts without white space,
as trees whose leaves keep their own spelling; and what the scanner does on such a text. -/
namespace RemudaRmm.Foundation.JsonText
open List

def code (c : Char) : UInt8 := c.toUInt8

def codes (s : String) : Bytes := s.toList.map code

inductive Nesting where
  | objectKey
  | objectValue
  | arrayValue

/-- What the scanner expects next; a word still expects the bytes that are left of it. -/
inductive Place where
  | beginValueOrEmpty | beginValue | beginStringOrEmpty | beginString | endValue | endTop
  | inString | inStringEsc | inStringEscU (left : ℕ)
  | neg | one | zero | dot | dot0 | exp | expSign | exp0
  | word (rest : Bytes)
  | failed
  deriving DecidableEq

structure Scanner where
  place : Place
  nesting : List Nesting

inductive Op where
  | goOn | beginLiteral | beginObject | objectKey | objectValue | endObject | beginArray | arrayValue | endArray
  | skipSpace | atEnd | error
  deriving DecidableEq

def maxNestingDepth : ℕ := 10000

def isSpace (c : UInt8) : Bool := c = code ' ' || c = code '\t' || c = code '\r' || c = code '\n'

def isDigit (c : UInt8) : Bool := code '0' ≤ c && c ≤ code '9'

def isHexDigit (c : UInt8) : Bool :=
  isDigit c || (code 'a' ≤ c && c ≤ code 'f') || (code 'A' ≤ c && c ≤ code 'F')

/-- The letters that may follow a backslash, but for the one that begins four digits. -/
def simpleEscapes : Bytes := codes "bfnrt\\/\""

section Steps
variable (nesting : List Nesting) (c : UInt8)

def reject : Op × Scanner := (.error, ⟨.failed, nesting⟩)

def push (op : Op) (place : Place) (inner : Nesting) : Op × Scanner :=
  if nesting.length + 1 ≤ maxNestingDepth then (op, ⟨place, inner :: nesting⟩) else reject (inner :: nesting)

def pop (op : Op) : Op × Scanner := (op, ⟨if nesting = [] then .endTop else .endValue, nesting⟩)

def stepEndTop : Op × Scanner := if isSpace c then (.atEnd, ⟨.endTop, []⟩) else reject []

def stepEndValue : Op × Scanner :=
  match nesting with
  | [] => stepEndTop c
  | inner :: outer =>
    if isSpace c then (.skipSpace, ⟨.endValue, inner :: outer⟩)
    else
      match inner with
      | .objectKey =>
        if c = code ':' then (.objectKey, ⟨.beginValue, .objectValue :: outer⟩) else reject (inner :: outer)
      | .objectValue =>
        if c = code ',' then (.objectValue, ⟨.beginString, .objectKey :: outer⟩)
        else if c = code '\x7d' then pop outer .endObject
        else reject (inner :: outer)
      | .arrayValue =>
        if c = code ',' then (.arrayValue, ⟨.beginValue, inner :: outer⟩)
        else if c = code ']' then pop outer .endArray
        else reject (inner :: outer)

def stepBeginValue : Op × Scanner :=
  if isSpace c then (.skipSpace, ⟨.beginValue, nesting⟩)
  else if c = code '\x7b' then push nesting .beginObject .beginStringOrEmpty .objectKey
  else if c = code '[' then push nesting .beginArray .beginValueOrEmpty .arrayValue
  else if c = code '"' then (.beginLiteral, ⟨.inString, nesting⟩)
  else if c = code '-' then (.beginLiteral, ⟨.neg, nesting⟩)
  else if c = code '0' then (.beginLiteral, ⟨.zero, nesting⟩)
  else if c = code 't' then (.beginLiteral, ⟨.word (codes "rue"), nesting⟩)
  else if c = code 'f' then (.beginLiteral, ⟨.word (codes "alse"), nesting⟩)
  else if c = code 'n' then (.beginLiteral, ⟨.word (codes "ull"), nesting⟩)
  else if isDigit c then (.beginLiteral, ⟨.one, nesting⟩)
  else reject nesting

def stepBeginString : Op × Scanner :=
  if isSpace c then (.skipSpace, ⟨.beginString, nesting⟩)
  else if c = code '"' then (.beginLiteral, ⟨.inString, nesting⟩)
  else reject nesting

def stepZero : Op × Scanner :=
  if c = code '.' then (.goOn, ⟨.dot, nesting⟩)
  else if c = code 'e' ∨ c = code 'E' then (.goOn, ⟨.exp, nesting⟩)
  else stepEndValue nesting c

end Steps

def emptied : List Nesting → List Nesting
  | _ :: outer => .objectValue :: outer
  | [] => []

def step (s : Scanner) (c : UInt8) : Op × Scanner :=
  match s.place with
  | .beginValueOrEmpty =>
    if isSpace c then (.skipSpace, s)
    else if c = code ']' then stepEndValue s.nesting c
    else stepBeginValue s.nesting c
  | .beginValue => stepBeginValue s.nesting c
  | .beginStringOrEmpty =>
    if isSpace c then (.skipSpace, s)
    else if c = code '\x7d' then stepEndValue (emptied s.nesting) c
    else stepBeginString s.nesting c
  | .beginString => stepBeginString s.nesting c
  | .endValue => stepEndValue s.nesting c
  | .endTop => stepEndTop c
  | .inString =>
    if c = code '"' then (.goOn, ⟨.endValue, s.nesting⟩)
    else if c = code '\\' then (.goOn, ⟨.inStringEsc, s.nesting⟩)
    else if c < 0x20 then reject s.nesting
    else (.goOn, s)
  | .inStringEsc =>
    if c ∈ simpleEscapes then (.goOn, ⟨.inString, s.nesting⟩)
    else if c = code 'u' then (.goOn, ⟨.inStringEscU 3, s.nesting⟩)
    else reject s.nesting
  | .inStringEscU left =>
    if isHexDigit c then (.goOn, ⟨if left = 0 then .inString else .inStringEscU (left - 1), s.nesting⟩)
    else reject s.nesting
  | .neg =>
    if c = code '0' then (.goOn, ⟨.zero, s.nesting⟩)
    else if isDigit c then (.goOn, ⟨.one, s.nesting⟩)
    else reject s.nesting
  | .one => if isDigit c then (.goOn, s) else stepZero s.nesting c
  | .zero => stepZero s.nesting c
  | .dot => if isDigit c then (.goOn, ⟨.dot0, s.nesting⟩) else reject s.nesting
  | .dot0 =>
    if isDigit c then (.goOn, s)
    else if c = code 'e' ∨ c = code 'E' then (.goOn, ⟨.exp, s.nesting⟩)
    else stepEndValue s.nesting c
  | .exp =>
    if c = code '+' ∨ c = code '-' then (.goOn, ⟨.expSign, s.nesting⟩)
    else if isDigit c then (.goOn, ⟨.exp0, s.nesting⟩)
    else reject s.nesting
  | .expSign => if isDigit c then (.goOn, ⟨.exp0, s.nesting⟩) else reject s.nesting
  | .exp0 => if isDigit c then (.goOn, s) else stepEndValue s.nesting c
  | .word [] => reject s.nesting
  | .word (d :: rest) =>
    if c = d then (.goOn, ⟨if rest = [] then .endValue else .word rest, s.nesting⟩) else reject s.nesting
  | .failed => (.error, s)

def begin : Scanner := ⟨.beginValue, []⟩

def Scanner.complete (s : Scanner) : Bool := s.place = .endTop || (step s (code ' ')).2.place = .endTop

inductive StringPiece where
  | plain (b : UInt8)
  | escaped (b : UInt8)
  | unicode (a b c d : UInt8)

namespace StringPiece

def text : StringPiece → Bytes
  | plain b => [b]
  | escaped b => [code '\\', b]
  | unicode a b c d => [code '\\', code 'u', a, b, c, d]

def Valid : StringPiece → Prop
  | plain b => ¬b < 0x20 ∧ b ≠ code '"' ∧ b ≠ code '\\'
  | escaped b => b ∈ simpleEscapes
  | unicode a b c d => isHexDigit a ∧ isHexDigit b ∧ isHexDigit c ∧ isHexDigit d

end StringPiece

def stringText (pieces : List StringPiece) : Bytes := code '"' :: (pieces.flatMap StringPiece.text ++ [code '"'])

/-- A numeral by its parts; without digits there is no fraction. -/
structure Numeral where
  negative : Bool
  (whole fraction : Bytes)
  exponent : Option (UInt8 × Option UInt8 × Bytes)

namespace Numeral

def fractionText (fraction : Bytes) : Bytes := if fraction = [] then [] else code '.' :: fraction

def exponentText : Option (UInt8 × Option UInt8 × Bytes) → Bytes
  | none => []
  | some (mark, sign, digits) => mark :: (sign.toList ++ digits)

def text (n : Numeral) : Bytes :=
  (if n.negative then [code '-'] else []) ++ n.whole ++ fractionText n.fraction ++ exponentText n.exponent

def WholeDigits (digits : Bytes) : Prop :=
  digits ≠ [] ∧ (digits.head? = some (code '0') → digits.length = 1) ∧ ∀ c ∈ digits, isDigit c

structure Valid (n : Numeral) : Prop where
  whole : WholeDigits n.whole
  fraction : ∀ c ∈ n.fraction, isDigit c
  exponent : ∀ mark sign digits, n.exponent = some (mark, sign, digits) →
    (mark = code 'e' ∨ mark = code 'E') ∧ (∀ c ∈ sign, c = code '+' ∨ c = code '-') ∧ digits ≠ [] ∧
      ∀ c ∈ digits, isDigit c

end Numeral

/-- A text without white space. -/
inductive Compact where
  | null
  | bool (b : Bool)
  | number (n : Numeral)
  | string (pieces : List StringPiece)
  | array (items : List Compact)
  | object (members : List (List StringPiece × Compact))

namespace Compact

mutual

def text : Compact → Bytes
  | null => codes "null"
  | bool b => if b then codes "true" else codes "false"
  | number n => n.text
  | string pieces => stringText pieces
  | array [] => [code '[', code ']']
  | array (x :: rest) => code '[' :: (x.text ++ (itemsText rest ++ [code ']']))
  | object [] => [code '\x7b', code '\x7d']
  | object ((key, v) :: rest) =>
    code '\x7b' :: (stringText key ++ code ':' :: (v.text ++ (membersText rest ++ [code '\x7d'])))

def itemsText : List Compact → Bytes
  | [] => []
  | x :: rest => code ',' :: (x.text ++ itemsText rest)

def membersText : List (List StringPiece × Compact) → Bytes
  | [] => []
  | (key, v) :: rest => code ',' :: (stringText key ++ code ':' :: (v.text ++ membersText rest))

end

mutual

def depth : Compact → ℕ
  | array items => itemsDepth items + 1
  | object members => membersDepth members + 1
  | _ => 0

def itemsDepth : List Compact → ℕ
  | [] => 0
  | x :: rest => max x.depth (itemsDepth rest)

def membersDepth : List (List StringPiece × Compact) → ℕ
  | [] => 0
  | (_, v) :: rest => max v.depth (membersDepth rest)

end

mutual

def Valid : Compact → Prop
  | null => True
  | bool _ => True
  | number n => n.Valid
  | string pieces => ∀ p ∈ pieces, p.Valid
  | array items => ItemsValid items
  | object members => MembersValid members

def ItemsValid : List Compact → Prop
  | [] => True
  | x :: rest => x.Valid ∧ ItemsValid rest

def MembersValid : List (List StringPiece × Compact) → Prop
  | [] => True
  | (key, v) :: rest => (∀ p ∈ key, p.Valid) ∧ v.Valid ∧ MembersValid rest

end

end Compact

/-- The operation is one inside of a value that is nested in `floor` others. -/
def insideOf (floor : ℕ) (s : Scanner) : Op → Bool
  | .goOn | .beginLiteral | .beginObject | .beginArray => true
  | .objectKey | .objectValue | .endObject | .arrayValue | .endArray => floor < s.nesting.length
  | .skipSpace | .atEnd | .error => false

def advance (floor : ℕ) (s : Scanner) (c : UInt8) : Option Scanner :=
  if insideOf floor s (step s c).1 then some (step s c).2 else none

variable {s s' : Scanner} {floor : ℕ}

theorem advance_of_step {c : UInt8} {op : Op} (stepped : step s c = (op, s'))
    (inside : insideOf floor s op = true) : advance floor s c = some s' := by
  simp only [advance, stepped, inside, if_true]

/-- The state after bytes of which none leaves the value or is skipped. -/
def scan (floor : ℕ) (s : Scanner) (bytes : Bytes) : Option Scanner := bytes.foldlM (advance floor) s

theorem scan_nil (floor : ℕ) (s : Scanner) : scan floor s [] = some s := rfl

theorem scan_cons {c : UInt8} (moved : advance floor s c = some s') (bytes : Bytes) :
    scan floor s (c :: bytes) = scan floor s' bytes := by
  rw [scan, foldlM_cons, moved]
  rfl

theorem scan_uncons {c : UInt8} {bytes : Bytes} (there : scan floor s (c :: bytes) = some s') :
    ∃ next, advance floor s c = some next ∧ scan floor next bytes = some s' := by
  rw [scan, foldlM_cons] at there
  exact Option.bind_eq_some_iff.mp there

theorem scan_append {first : Bytes} (there : scan floor s first = some s')
    (second : Bytes) : scan floor s (first ++ second) = scan floor s' second := by
  rw [scan] at there ⊢
  rw [foldlM_append, there]
  rfl

theorem advance_mono {low high : ℕ} (le : low ≤ high) {c : UInt8}
    (moved : advance high s c = some s') : advance low s c = some s' := by
  have weaker : insideOf high s (step s c).1 → insideOf low s (step s c).1 := by
    cases (step s c).1 <;> simp only [insideOf, decide_eq_true_eq, imp_self]
    all_goals exact fun less => lt_of_le_of_lt le less
  rw [advance] at moved ⊢
  split_ifs at moved with inside
  rw [if_pos (weaker inside), moved]

theorem scan_mono {low high : ℕ} (le : low ≤ high) {bytes : Bytes}
    (there : scan high s bytes = some s') : scan low s bytes = some s' := by
  induction bytes generalizing s with
  | nil => exact there
  | cons c bytes ih =>
    obtain ⟨next, moved, rest⟩ := scan_uncons there
    rw [scan_cons (advance_mono le moved)]
    exact ih rest

def followers : Bytes := codes " :,]\x7d"

/-- Behind a value: what may follow is taken as the end of the value. -/
structure Behind (s : Scanner) (nesting : List Nesting) : Prop where
  same : s.nesting = nesting
  follows : ∀ c ∈ followers, step s c = stepEndValue nesting c

section Leaves
variable {floor : ℕ} {nesting : List Nesting}
variable {place : Place}

theorem behind_endValue (nesting : List Nesting) : Behind ⟨.endValue, nesting⟩ nesting := ⟨rfl, fun _ _ => rfl⟩

theorem follower_notDigit : ∀ c ∈ followers, isDigit c = false := by decide +kernel

theorem follower_notMark : ∀ c ∈ followers, ¬(c = code 'e' ∨ c = code 'E') := by decide +kernel

theorem follower_notPoint : ∀ c ∈ followers, c ≠ code '.' := by decide +kernel

theorem behind_zero (nesting : List Nesting) : Behind ⟨.zero, nesting⟩ nesting := by
  refine ⟨rfl, fun c follows => ?_⟩
  simp only [step, stepZero]
  rw [if_neg (follower_notPoint c follows), if_neg (follower_notMark c follows)]

theorem behind_one (nesting : List Nesting) : Behind ⟨.one, nesting⟩ nesting := by
  refine ⟨rfl, fun c follows => ?_⟩
  simp only [step, follower_notDigit c follows, Bool.false_eq_true, if_false]
  exact (behind_zero nesting).follows c follows

theorem behind_dot0 (nesting : List Nesting) : Behind ⟨.dot0, nesting⟩ nesting := by
  refine ⟨rfl, fun c follows => ?_⟩
  simp only [step, follower_notDigit c follows, Bool.false_eq_true, if_false]
  rw [if_neg (follower_notMark c follows)]

theorem behind_exp0 (nesting : List Nesting) : Behind ⟨.exp0, nesting⟩ nesting := by
  refine ⟨rfl, fun c follows => ?_⟩
  simp only [step, follower_notDigit c follows, Bool.false_eq_true, if_false]

/-! Words and strings -/

theorem scan_piece {p : StringPiece} (valid : p.Valid) :
    scan floor ⟨.inString, nesting⟩ p.text = some ⟨.inString, nesting⟩ := by
  have backslash : advance floor ⟨.inString, nesting⟩ (code '\\') = some ⟨.inStringEsc, nesting⟩ := by
    simp only [advance, step, insideOf]
    rfl
  cases p with
  | plain b =>
    obtain ⟨large, quote, slash⟩ := valid
    have moved : advance floor ⟨.inString, nesting⟩ b = some ⟨.inString, nesting⟩ := by
      simp [advance, step, insideOf, large, quote, slash]
    rw [StringPiece.text, scan_cons moved, scan_nil]
  | escaped b =>
    have moved : advance floor ⟨.inStringEsc, nesting⟩ b = some ⟨.inString, nesting⟩ := by
      have simple : b ∈ simpleEscapes := valid
      simp [advance, step, insideOf, simple]
    rw [StringPiece.text, scan_cons backslash, scan_cons moved, scan_nil]
  | unicode a b c d =>
    have digits : advance floor ⟨.inStringEsc, nesting⟩ (code 'u') = some ⟨.inStringEscU 3, nesting⟩ := by
      simp only [advance, step, insideOf]
      rfl
    have more (left : ℕ) {x : UInt8} (hex : isHexDigit x = true) :
        advance floor ⟨.inStringEscU (left + 1), nesting⟩ x = some ⟨.inStringEscU left, nesting⟩ := by
      simp [advance, step, insideOf, hex]
    have last : advance floor ⟨.inStringEscU 0, nesting⟩ d = some ⟨.inString, nesting⟩ := by
      simp [advance, step, insideOf, valid.2.2.2]
    rw [StringPiece.text, scan_cons backslash, scan_cons digits, scan_cons (more 2 valid.1),
      scan_cons (more 1 valid.2.1), scan_cons (more 0 valid.2.2.1), scan_cons last, scan_nil]

theorem scan_pieces {pieces : List StringPiece} (valid : ∀ p ∈ pieces, p.Valid) :
    scan floor ⟨.inString, nesting⟩ (pieces.flatMap StringPiece.text) = some ⟨.inString, nesting⟩ := by
  induction pieces with
  | nil => rfl
  | cons p pieces ih =>
    rw [flatMap_cons, scan_append (scan_piece (valid p mem_cons_self))]
    exact ih fun q member => valid q (mem_cons_of_mem p member)

theorem scan_stringText (opens : place = .beginValue ∨ place = .beginString) {pieces : List StringPiece}
    (valid : ∀ p ∈ pieces, p.Valid) : scan floor ⟨place, nesting⟩ (stringText pieces) = some ⟨.endValue, nesting⟩ := by
  have first : advance floor ⟨place, nesting⟩ (code '"') = some ⟨.inString, nesting⟩ := by
    cases opens with
    | inl value | inr value =>
      rw [value]
      rfl
  have last : advance floor ⟨.inString, nesting⟩ (code '"') = some ⟨.endValue, nesting⟩ := rfl
  rw [stringText, scan_cons first, scan_append (scan_pieces valid), scan_cons last, scan_nil]

/-! Numerals -/

theorem digit_ne {c d : UInt8} (digit : isDigit c = true) (other : isDigit d = false) : c ≠ d := by
  intro same
  rw [same, other] at digit
  cases digit

theorem scan_digits (loops : place = .one ∨ place = .dot0 ∨ place = .exp0) {digits : Bytes}
    (all : ∀ c ∈ digits, isDigit c) : scan floor ⟨place, nesting⟩ digits = some ⟨place, nesting⟩ := by
  induction digits with
  | nil => rfl
  | cons c digits ih =>
    have digit := all c mem_cons_self
    have moved : advance floor ⟨place, nesting⟩ c = some ⟨place, nesting⟩ := by
      rcases loops with rfl | rfl | rfl
      all_goals simp [advance, step, insideOf, digit]
    rw [scan_cons moved]
    exact ih fun d member => all d (mem_cons_of_mem c member)

theorem advance_firstDigit (opens : place = .beginValue ∨ place = .neg) {c : UInt8}
    (digit : isDigit c = true) : advance floor ⟨place, nesting⟩ c =
      some ⟨if c = code '0' then .zero else .one, nesting⟩ := by
  have apart (d : UInt8) (other : isDigit d = false) : c ≠ d := digit_ne digit other
  have notSpace : isSpace c = false := by
    simp [isSpace, apart (code ' ') (by decide), apart (code '\t') (by decide), apart (code '\r') (by decide),
      apart (code '\n') (by decide)]
  cases opens with
  | inl value =>
    by_cases zero : c = code '0'
    · rw [value, zero]
      rfl
    · simp [value, advance, step, stepBeginValue, insideOf, notSpace, digit, zero, apart (code '\x7b') (by decide),
        apart (code '[') (by decide), apart (code '"') (by decide), apart (code '-') (by decide),
        apart (code 't') (by decide), apart (code 'f') (by decide), apart (code 'n') (by decide)]
  | inr neg =>
    by_cases zero : c = code '0'
    · rw [neg, zero]
      rfl
    · simp [neg, advance, step, insideOf, zero, digit]

theorem scan_whole (floor : ℕ) (nesting : List Nesting) (opens : place = .beginValue ∨ place = .neg)
    {digits : Bytes} (whole : Numeral.WholeDigits digits) : ∃ ended, (ended = .zero ∨ ended = .one) ∧
      scan floor ⟨place, nesting⟩ digits = some ⟨ended, nesting⟩ := by
  obtain ⟨some_digit, leading, all⟩ := whole
  cases digits with
  | nil => exact absurd rfl some_digit
  | cons c digits =>
    rw [scan_cons (advance_firstDigit opens (all c List.mem_cons_self))]
    split_ifs with zero
    · have alone : digits = [] := by
        have single := leading (congrArg some zero)
        exact List.eq_nil_of_length_eq_zero (Nat.succ.inj single)
      exact ⟨.zero, .inl rfl, by rw [alone, scan_nil]⟩
    · exact ⟨.one, .inr rfl, scan_digits (.inl rfl) fun d member => all d (List.mem_cons_of_mem c member)⟩

theorem scan_fraction (floor : ℕ) (nesting : List Nesting) (opens : place = .zero ∨ place = .one)
    {fraction : Bytes} (all : ∀ c ∈ fraction, isDigit c) : ∃ ended, (ended = .zero ∨ ended = .one ∨ ended = .dot0) ∧
      scan floor ⟨place, nesting⟩ (Numeral.fractionText fraction) = some ⟨ended, nesting⟩ := by
  cases fraction with
  | nil => exact ⟨place, opens.imp id .inl, rfl⟩
  | cons c fraction =>
    have point : advance floor ⟨place, nesting⟩ (code '.') = some ⟨.dot, nesting⟩ := by
      rcases opens with rfl | rfl <;> rfl
    have first : advance floor ⟨.dot, nesting⟩ c = some ⟨.dot0, nesting⟩ := by
      simp [advance, step, insideOf, all c List.mem_cons_self]
    refine ⟨.dot0, .inr (.inr rfl), ?_⟩
    rw [Numeral.fractionText, if_neg (List.cons_ne_nil _ _), scan_cons point, scan_cons first]
    exact scan_digits (.inr (.inl rfl)) fun d member => all d (List.mem_cons_of_mem c member)

theorem scan_exponent (floor : ℕ) (nesting : List Nesting) (opens : place = .zero ∨ place = .one ∨ place = .dot0)
    {exponent : Option (UInt8 × Option UInt8 × Bytes)}
    (valid : ∀ mark sign digits, exponent = some (mark, sign, digits) →
      (mark = code 'e' ∨ mark = code 'E') ∧ (∀ c ∈ sign, c = code '+' ∨ c = code '-') ∧ digits ≠ [] ∧
        ∀ c ∈ digits, isDigit c) :
    ∃ ended, (ended = .zero ∨ ended = .one ∨ ended = .dot0 ∨ ended = .exp0) ∧
      scan floor ⟨place, nesting⟩ (Numeral.exponentText exponent) = some ⟨ended, nesting⟩ := by
  rcases exponent with _ | ⟨mark, sign, digits⟩
  · exact ⟨place, opens.imp id fun rest => rest.imp id .inl, rfl⟩
  · obtain ⟨marks, signs, some_digit, all⟩ := valid mark sign digits rfl
    have marked : advance floor ⟨place, nesting⟩ mark = some ⟨.exp, nesting⟩ := by
      rcases opens with rfl | rfl | rfl <;> rcases marks with rfl | rfl <;> rfl
    refine ⟨.exp0, .inr (.inr (.inr rfl)), ?_⟩
    rw [Numeral.exponentText, scan_cons marked]
    cases digits with
    | nil => exact absurd rfl some_digit
    | cons c digits =>
      have digit := all c List.mem_cons_self
      have rest : scan floor ⟨.exp0, nesting⟩ digits = some ⟨.exp0, nesting⟩ :=
        scan_digits (.inr (.inr rfl)) fun d member => all d (List.mem_cons_of_mem c member)
      cases sign with
      | none =>
        have first : advance floor ⟨.exp, nesting⟩ c = some ⟨.exp0, nesting⟩ := by
          simp [advance, step, insideOf, digit, digit_ne digit (show isDigit (code '+') = false by decide),
            digit_ne digit (show isDigit (code '-') = false by decide)]
        exact (scan_cons first digits).trans rest
      | some c' =>
        have signed : advance floor ⟨.exp, nesting⟩ c' = some ⟨.expSign, nesting⟩ := by
          rcases signs c' rfl with rfl | rfl <;> rfl
        have first : advance floor ⟨.expSign, nesting⟩ c = some ⟨.exp0, nesting⟩ := by
          simp [advance, step, insideOf, digit]
        exact (scan_cons signed (c :: digits)).trans ((scan_cons first digits).trans rest)

theorem scan_numeral {n : Numeral} (valid : n.Valid) :
    ∃ s, scan floor ⟨.beginValue, nesting⟩ n.text = some s ∧ Behind s nesting := by
  have started : ∃ place, (place = .beginValue ∨ place = .neg) ∧
      scan floor ⟨.beginValue, nesting⟩ (if n.negative then [code '-'] else []) = some ⟨place, nesting⟩ := by
    split_ifs
    · exact ⟨.neg, .inr rfl, rfl⟩
    · exact ⟨.beginValue, .inl rfl, rfl⟩
  obtain ⟨start, opens, begun⟩ := started
  obtain ⟨whole, wholes, scannedWhole⟩ := scan_whole floor nesting opens valid.whole
  obtain ⟨fraction, fractions, scannedFraction⟩ := scan_fraction floor nesting wholes valid.fraction
  obtain ⟨ended, ends, scannedExponent⟩ := scan_exponent floor nesting fractions valid.exponent
  refine ⟨⟨ended, nesting⟩, ?_, ?_⟩
  · rw [Numeral.text, List.append_assoc, List.append_assoc, scan_append begun, scan_append scannedWhole,
      scan_append scannedFraction, scannedExponent]
  · rcases ends with rfl | rfl | rfl | rfl
    · exact behind_zero nesting
    · exact behind_one nesting
    · exact behind_dot0 nesting
    · exact behind_exp0 nesting

end Leaves

/-! Composites -/

section Composites
variable {floor : ℕ} {outer : List Nesting} {s : Scanner}

theorem behind_pop (outer : List Nesting) : Behind ⟨if outer = [] then .endTop else .endValue, outer⟩ outer := by
  split_ifs with empty
  · rw [empty]
    exact ⟨rfl, fun _ _ => rfl⟩
  · exact behind_endValue outer

theorem advance_behind {nesting : List Nesting} (behind : Behind s nesting) {c : UInt8} (follows : c ∈ followers)
    (inside : floor < nesting.length) {op : Op} {s' : Scanner} (stepped : stepEndValue nesting c = (op, s'))
    (among : op ∈ [Op.objectKey, .objectValue, .endObject, .arrayValue, .endArray]) : advance floor s c = some s' := by
  refine advance_of_step ((behind.follows c follows).trans stepped) ?_
  rw [← behind.same] at inside
  simp only [List.mem_cons, List.not_mem_nil, or_false] at among
  rcases among with rfl | rfl | rfl | rfl | rfl
  all_goals exact decide_eq_true inside

theorem text_head {v : Compact} (valid : v.Valid) :
    ∃ c rest, v.text = c :: rest ∧ isSpace c = false ∧ c ≠ code ']' := by
  cases v with
  | null => exact ⟨_, _, rfl, by decide, by decide⟩
  | bool b => cases b <;> exact ⟨_, _, rfl, by decide, by decide⟩
  | string pieces =>
    rw [Compact.text, stringText]
    exact ⟨_, _, rfl, by decide, by decide⟩
  | array items | object items => cases items <;> rw [Compact.text] <;> exact ⟨_, _, rfl, by decide, by decide⟩
  | number n =>
    rw [Compact.Valid] at valid
    obtain ⟨some_digit, -, all⟩ := valid.whole
    rw [Compact.text, Numeral.text]
    split_ifs with negative
    · exact ⟨_, _, rfl, by decide, by decide⟩
    · obtain ⟨c, digits, whole⟩ := List.exists_cons_of_ne_nil some_digit
      have digit : isDigit c = true := all c (by rw [whole]; exact List.mem_cons_self)
      refine ⟨c, digits ++ Numeral.fractionText n.fraction ++ Numeral.exponentText n.exponent, by rw [whole]; rfl, ?_,
        digit_ne digit (by decide)⟩
      simp [isSpace, digit_ne digit (show isDigit (code ' ') = false by decide),
        digit_ne digit (show isDigit (code '\t') = false by decide),
        digit_ne digit (show isDigit (code '\r') = false by decide),
        digit_ne digit (show isDigit (code '\n') = false by decide)]

theorem scan_orEmpty {v : Compact} (valid : v.Valid) (nesting : List Nesting) :
    scan floor ⟨.beginValueOrEmpty, nesting⟩ v.text = scan floor ⟨.beginValue, nesting⟩ v.text := by
  obtain ⟨c, rest, head, notSpace, notClose⟩ := text_head valid
  have same : advance floor ⟨.beginValueOrEmpty, nesting⟩ c = advance floor ⟨.beginValue, nesting⟩ c := by
    have stepped : step ⟨.beginValueOrEmpty, nesting⟩ c = step ⟨.beginValue, nesting⟩ c := by
      simp only [step, notSpace, notClose, Bool.false_eq_true, if_false]
    have inside : insideOf floor ⟨.beginValueOrEmpty, nesting⟩ = insideOf floor ⟨.beginValue, nesting⟩ := by
      funext op
      cases op <;> rfl
    simp only [advance, stepped, inside]
  rw [head, scan, List.foldlM_cons, same, ← List.foldlM_cons, ← scan]

theorem scan_keyOrEmpty (pieces : List StringPiece) (nesting : List Nesting) (rest : Bytes) :
    scan floor ⟨.beginStringOrEmpty, nesting⟩ (stringText pieces ++ rest) =
      scan floor ⟨.beginString, nesting⟩ (stringText pieces ++ rest) := by
  have same : advance floor ⟨.beginStringOrEmpty, nesting⟩ (code '"') =
      advance floor ⟨.beginString, nesting⟩ (code '"') := rfl
  rw [stringText, cons_append, scan, foldlM_cons, same, ← foldlM_cons, ← scan]

theorem advance_open (op : Op) {place : Place} {inner : Nesting} {c : UInt8}
    (opens : stepBeginValue outer c = push outer op place inner) (inside : op = .beginObject ∨ op = .beginArray)
    (room : outer.length + 1 ≤ maxNestingDepth) :
    advance floor ⟨.beginValue, outer⟩ c = some ⟨place, inner :: outer⟩ := by
  have stepped : step ⟨.beginValue, outer⟩ c = (op, ⟨place, inner :: outer⟩) := by
    rw [step, opens, push, if_pos room]
  exact advance_of_step stepped (by rcases inside with rfl | rfl <;> rfl)

theorem scan_closeArray (behind : Behind s (.arrayValue :: outer)) :
    ∃ s', scan outer.length s [code ']'] = some s' ∧ Behind s' outer := by
  have moved : advance outer.length s (code ']') = some ⟨if outer = [] then .endTop else .endValue, outer⟩ :=
    advance_behind behind (by decide) (Nat.lt_succ_self _) rfl (by decide)
  exact ⟨_, by rw [scan_cons moved, scan_nil], behind_pop outer⟩

theorem scan_closeObject (behind : Behind s (.objectValue :: outer)) :
    ∃ s', scan outer.length s [code '\x7d'] = some s' ∧ Behind s' outer := by
  have moved : advance outer.length s (code '\x7d') = some ⟨if outer = [] then .endTop else .endValue, outer⟩ :=
    advance_behind behind (by decide) (Nat.lt_succ_self _) rfl (by decide)
  exact ⟨_, by rw [scan_cons moved, scan_nil], behind_pop outer⟩

end Composites

/-- What is shown of a value at every nesting that leaves room for it. -/
def Scans (v : Compact) : Prop :=
  ∀ nesting : List Nesting, nesting.length + v.depth ≤ maxNestingDepth →
    ∃ s, scan nesting.length ⟨.beginValue, nesting⟩ v.text = some s ∧ Behind s nesting

theorem scan_member {key : List StringPiece} {v : Compact} (outer : List Nesting) (valid : ∀ p ∈ key, p.Valid)
    (scans : Scans v) (room : outer.length + 1 + v.depth ≤ maxNestingDepth) :
    ∃ s, scan outer.length ⟨.beginString, .objectKey :: outer⟩ (stringText key ++ code ':' :: v.text) = some s ∧
      Behind s (.objectValue :: outer) := by
  obtain ⟨s, scanned, behind⟩ := scans (.objectValue :: outer) room
  have colon : advance outer.length ⟨.endValue, .objectKey :: outer⟩ (code ':') =
      some ⟨.beginValue, .objectValue :: outer⟩ :=
    advance_behind (behind_endValue _) (by decide) (Nat.lt_succ_self _) rfl (by decide)
  refine ⟨s, ?_, behind⟩
  rw [scan_append (scan_stringText (.inr rfl) valid), scan_cons colon]
  exact scan_mono (Nat.le_succ _) scanned

mutual

theorem scans_value : (v : Compact) → v.Valid → Scans v
  | .null, _ => fun nesting _ => ⟨⟨.endValue, nesting⟩, rfl, behind_endValue nesting⟩
  | .bool true, _ => fun nesting _ => ⟨⟨.endValue, nesting⟩, rfl, behind_endValue nesting⟩
  | .bool false, _ => fun nesting _ => ⟨⟨.endValue, nesting⟩, rfl, behind_endValue nesting⟩
  | .number n, valid => fun nesting _ => by
      rw [Compact.Valid] at valid
      rw [Compact.text]
      exact scan_numeral valid
  | .string pieces, valid => fun nesting _ => by
      rw [Compact.Valid] at valid
      rw [Compact.text]
      exact ⟨_, scan_stringText (.inl rfl) valid, behind_endValue nesting⟩
  | .array [], _ => fun nesting room => by
      rw [Compact.depth, Compact.itemsDepth] at room
      have opened : advance nesting.length ⟨.beginValue, nesting⟩ (code '[') =
          some ⟨.beginValueOrEmpty, .arrayValue :: nesting⟩ := advance_open .beginArray rfl (.inr rfl) room
      have closed : advance nesting.length ⟨.beginValueOrEmpty, .arrayValue :: nesting⟩ (code ']') =
          some ⟨if nesting = [] then .endTop else .endValue, nesting⟩ :=
        advance_of_step rfl (decide_eq_true (Nat.lt_succ_self _))
      exact ⟨_, by rw [Compact.text, scan_cons opened, scan_cons closed, scan_nil], behind_pop nesting⟩
  | .array (x :: rest), valid => fun nesting room => by
      rw [Compact.Valid, Compact.ItemsValid] at valid
      rw [Compact.depth, Compact.itemsDepth] at room
      have opened : advance nesting.length ⟨.beginValue, nesting⟩ (code '[') =
          some ⟨.beginValueOrEmpty, .arrayValue :: nesting⟩ := advance_open .beginArray rfl (.inr rfl) (by omega)
      obtain ⟨s, first, behind⟩ := scans_value x valid.1 (.arrayValue :: nesting) (by rw [length_cons]; omega)
      obtain ⟨s', others, behindAll⟩ := scans_items rest valid.2 nesting s behind (by omega)
      obtain ⟨s'', closed, after⟩ := scan_closeArray behindAll
      refine ⟨s'', ?_, after⟩
      rw [Compact.text, scan_cons opened, scan_append ((scan_orEmpty valid.1 _).trans (scan_mono (Nat.le_succ _) first)),
        scan_append others, closed]
  | .object [], _ => fun nesting room => by
      rw [Compact.depth, Compact.membersDepth] at room
      have opened : advance nesting.length ⟨.beginValue, nesting⟩ (code '\x7b') =
          some ⟨.beginStringOrEmpty, .objectKey :: nesting⟩ := advance_open .beginObject rfl (.inl rfl) room
      have closed : advance nesting.length ⟨.beginStringOrEmpty, .objectKey :: nesting⟩ (code '\x7d') =
          some ⟨if nesting = [] then .endTop else .endValue, nesting⟩ :=
        advance_of_step rfl (decide_eq_true (Nat.lt_succ_self _))
      refine ⟨_, ?_, behind_pop nesting⟩
      rw [Compact.text]
      exact (scan_cons opened _).trans (scan_cons closed _)
  | .object ((key, v) :: rest), valid => fun nesting room => by
      rw [Compact.Valid, Compact.MembersValid] at valid
      rw [Compact.depth, Compact.membersDepth] at room
      have opened : advance nesting.length ⟨.beginValue, nesting⟩ (code '\x7b') =
          some ⟨.beginStringOrEmpty, .objectKey :: nesting⟩ := advance_open .beginObject rfl (.inl rfl) (by omega)
      obtain ⟨s, first, behind⟩ := scan_member nesting valid.1 (scans_value v valid.2.1) (by omega)
      obtain ⟨s', others, behindAll⟩ := scans_members rest valid.2.2 nesting s behind (by omega)
      obtain ⟨s'', closed, after⟩ := scan_closeObject behindAll
      refine ⟨s'', ?_, after⟩
      have grouped : stringText key ++ code ':' :: (v.text ++ (Compact.membersText rest ++ [code '\x7d'])) =
          (stringText key ++ code ':' :: v.text) ++ (Compact.membersText rest ++ [code '\x7d']) := by
        rw [append_assoc, cons_append]
      rw [Compact.text]
      refine (scan_cons opened _).trans ((scan_keyOrEmpty _ _ _).trans ?_)
      rw [grouped, scan_append first, scan_append others, closed]

theorem scans_items : (items : List Compact) → Compact.ItemsValid items → ∀ (outer : List Nesting) (s : Scanner),
    Behind s (.arrayValue :: outer) → outer.length + 1 + Compact.itemsDepth items ≤ maxNestingDepth →
      ∃ s', scan outer.length s (Compact.itemsText items) = some s' ∧ Behind s' (.arrayValue :: outer)
  | [], _ => fun outer s behind _ => ⟨s, by rw [Compact.itemsText, scan_nil], behind⟩
  | x :: rest, valid => fun outer s behind room => by
      rw [Compact.ItemsValid] at valid
      rw [Compact.itemsDepth] at room
      have comma : advance outer.length s (code ',') = some ⟨.beginValue, .arrayValue :: outer⟩ :=
        advance_behind behind (by decide) (Nat.lt_succ_self _) rfl (by decide)
      obtain ⟨s', next, behindNext⟩ := scans_value x valid.1 (.arrayValue :: outer) (by rw [length_cons]; omega)
      obtain ⟨s'', others, behindAll⟩ := scans_items rest valid.2 outer s' behindNext (by omega)
      refine ⟨s'', ?_, behindAll⟩
      rw [Compact.itemsText, scan_cons comma, scan_append (scan_mono (Nat.le_succ _) next), others]

theorem scans_members : (members : List (List StringPiece × Compact)) → Compact.MembersValid members →
    ∀ (outer : List Nesting) (s : Scanner), Behind s (.objectValue :: outer) →
      outer.length + 1 + Compact.membersDepth members ≤ maxNestingDepth →
        ∃ s', scan outer.length s (Compact.membersText members) = some s' ∧ Behind s' (.objectValue :: outer)
  | [], _ => fun outer s behind _ => ⟨s, by rw [Compact.membersText, scan_nil], behind⟩
  | (key, v) :: rest, valid => fun outer s behind room => by
      rw [Compact.MembersValid] at valid
      rw [Compact.membersDepth] at room
      have comma : advance outer.length s (code ',') = some ⟨.beginString, .objectKey :: outer⟩ :=
        advance_behind behind (by decide) (Nat.lt_succ_self _) rfl (by decide)
      obtain ⟨s', next, behindNext⟩ := scan_member outer valid.1 (scans_value v valid.2.1) (by omega)
      obtain ⟨s'', others, behindAll⟩ := scans_members rest valid.2.2 outer s' behindNext (by omega)
      refine ⟨s'', ?_, behindAll⟩
      have grouped : stringText key ++ code ':' :: (v.text ++ Compact.membersText rest) =
          (stringText key ++ code ':' :: v.text) ++ Compact.membersText rest := by
        rw [append_assoc, cons_append]
      rw [Compact.membersText, scan_cons comma, grouped, scan_append next, others]
end

end RemudaRmm.Foundation.JsonText
