import Mathlib.Data.List.TakeWhile
import RemudaRmm.Foundation.Text

/-! Internet addresses: their networks, the text of an address that has been read, which is four decimal octets or
eight hexadecimal groups of which the first longest run of zeros is left out, and the test that a text is one. -/
namespace RemudaRmm.Foundation
open List Option
variable {n : ℕ} {c : Char} {x : IPv6} {y : IPv4}

abbrev IPv4 := BitVec 32

abbrev IPv6 := BitVec 128

inductive IpAddress where
  | v4 (x : IPv4)
  | v6 (x : IPv6)
  deriving DecidableEq

def ipv4 (a b c d : ℕ) : IPv4 := BitVec.ofNat 32 (a * 2 ^ 24 + b * 2 ^ 16 + c * 2 ^ 8 + d)

/-- The address whose first group is given, and the others zero. -/
def ipv6Front (piece : ℕ) : IPv6 := BitVec.ofNat 128 (piece * 2 ^ 112)

def InNetwork {w : ℕ} (network : BitVec w) (bits : ℕ) (x : BitVec w) : Prop :=
  x.toNat / 2 ^ (w - bits) = network.toNat / 2 ^ (w - bits)
  deriving Decidable

/-- The address that is carried in the last two groups of `::ffff:0:0/96`. -/
def IPv6.mapped (x : IPv6) : Option IPv4 := if x.toNat / 2 ^ 32 = 0xffff then some (x.setWidth 32) else none

def IpAddress.denoted : IpAddress → IpAddress
  | .v4 x => .v4 x
  | .v6 x => match IPv6.mapped x with
      | some y => .v4 y
      | none => .v6 x

def IPv4.octets (x : IPv4) : List ℕ :=
  [x.toNat / 2 ^ 24, x.toNat / 2 ^ 16 % 256, x.toNat / 2 ^ 8 % 256, x.toNat % 256]

def IPv6.pieces (x : IPv6) : List ℕ :=
  [x.toNat / 2 ^ 112, x.toNat / 2 ^ 96 % 65536, x.toNat / 2 ^ 80 % 65536, x.toNat / 2 ^ 64 % 65536,
    x.toNat / 2 ^ 48 % 65536, x.toNat / 2 ^ 32 % 65536, x.toNat / 2 ^ 16 % 65536, x.toNat % 65536]

def dotted (octets : List ℕ) : Text := ['.'].intercalate (octets.map decimal)

def hexadecimal (n : ℕ) : Text := Nat.toDigits 16 n

def colons (pieces : List ℕ) : Text := [':'].intercalate (pieces.map hexadecimal)

def zeroRun (pieces : List ℕ) : ℕ := (pieces.takeWhile (· = 0)).length

/-- The start and the length of the first longest run of zeros. -/
def longestZeroRun : List ℕ → ℕ × ℕ
  | [] => (0, 0)
  | piece :: pieces =>
    let here := zeroRun (piece :: pieces)
    let later := longestZeroRun pieces
    if later.2 ≤ here then (0, here) else (later.1 + 1, later.2)

def compressed (pieces : List ℕ) : Text :=
  let zeros := longestZeroRun pieces
  if 1 < zeros.2 then colons (pieces.take zeros.1) ++ ':' :: ':' :: colons (pieces.drop (zeros.1 + zeros.2))
  else colons pieces

def IpAddress.text : IpAddress → Text
  | .v4 x => dotted (IPv4.octets x)
  | .v6 x => compressed (IPv6.pieces x)

/-- The text that a resolver prints: the last two groups are octets behind six groups of zeros and in an address that
carries another. -/
def IpAddress.resolverText : IpAddress → Text
  | .v4 x => dotted (IPv4.octets x)
  | .v6 x =>
    if longestZeroRun (IPv6.pieces x) = (0, 6) then "::".toList ++ dotted (IPv4.octets (x.setWidth 32))
    else if longestZeroRun (IPv6.pieces x) = (0, 5) ∧ x.toNat / 2 ^ 32 % 65536 = 0xffff then
      "::ffff:".toList ++ dotted (IPv4.octets (x.setWidth 32))
    else compressed (IPv6.pieces x)

def isOctet (t : Text) : Bool := t == decimal (number t) && number t < 256

def isIPv4 (t : Text) : Bool := (t.splitOn '.').length == 4 && (t.splitOn '.').all isOctet

def isHexGroup (t : Text) : Bool := 1 ≤ t.length && t.length ≤ 4 && t.all isHexDigit

/-- The number of groups, of which an IPv4 address at the end makes two. -/
def groupCount : List Text → Option ℕ
  | [] => some 0
  | [t] => if isHexGroup t then some 1 else if isIPv4 t then some 2 else none
  | t :: rest => if isHexGroup t then (groupCount rest).map (· + 1) else none

/-- The parts in front of and behind the first `::`. -/
def splitDouble : Text → Option (Text × Text)
  | [] => none
  | ':' :: ':' :: rest => some ([], rest)
  | c :: rest => (splitDouble rest).map fun parts => (c :: parts.1, parts.2)

def groupsOf (t : Text) : List Text := if t = [] then [] else t.splitOn ':'

/-- Eight groups, or fewer around one `::`; an IPv4 address only at the very end. -/
def isGroups (t : Text) : Bool :=
  match splitDouble t with
  | none => groupCount (groupsOf t) == some 8
  | some (front, back) =>
    (groupsOf front).all isHexGroup && (groupCount (groupsOf back)).any fun count => (groupsOf front).length + count ≤ 7

def isZone (t : Text) : Bool :=
  match t with
  | [] => true
  | _ :: zone => !zone.isEmpty && zone.all fun c => c.isAlphanum || c == '-' || c == '.' || c == ':'

def isIPv6 (t : Text) : Bool := isGroups (t.takeWhile (· ≠ '%')) && isZone (t.dropWhile (· ≠ '%'))

def isIP (t : Text) : ℕ := if isIPv4 t then 4 else if isIPv6 t then 6 else 0

def hexDigits : Text := "0123456789abcdef".toList

theorem mem_hexDigits_digitChar : ∀ d < 16, Nat.digitChar d ∈ hexDigits := by decide

theorem mem_hexDigits (member : c ∈ hexadecimal n) : c ∈ hexDigits := by
  induction n using Nat.strong_induction_on with
  | _ n ih =>
    rw [hexadecimal, Nat.toDigits_eq_if (by decide)] at member
    split_ifs at member with small
    · rw [mem_singleton.mp member]
      exact mem_hexDigits_digitChar n small
    · rcases mem_append.mp member with front | last
      · exact ih (n / 16) (by omega) front
      · rw [mem_singleton.mp last]
        exact mem_hexDigits_digitChar _ (by omega)

theorem isHexDigit_digitChar : ∀ d < 16, isHexDigit (Nat.digitChar d) = true := by decide

theorem isHexGroup_hexadecimal (small : n < 65536) : isHexGroup (hexadecimal n) = true := by
  have short : (hexadecimal n).length ≤ 4 := (Nat.length_toDigits_le_iff (by decide) (by decide)).mpr small
  have digits : ∀ c ∈ hexDigits, isHexDigit c = true := forall_mem_of_all (by decide)
  simp only [isHexGroup, Bool.and_eq_true, decide_eq_true_eq, List.all_eq_true]
  exact ⟨⟨Nat.length_toDigits_pos, short⟩, fun c member => digits c (mem_hexDigits member)⟩

/-- What stands in a list of texts with a separator between them. -/
theorem mem_intercalate {sep : Char} {parts : List Text} (member : c ∈ [sep].intercalate parts) :
    c = sep ∨ ∃ t ∈ parts, c ∈ t := by
  induction parts with
  | nil => cases member
  | cons t rest ih =>
    cases rest with
    | nil =>
      rw [intercalate_singleton] at member
      exact .inr ⟨t, mem_singleton_self t, member⟩
    | cons u rest =>
      rw [intercalate_cons_cons] at member
      rcases mem_append.mp member with front | back
      · rcases mem_append.mp front with here | between
        · exact .inr ⟨t, mem_cons_self, here⟩
        · exact .inl (mem_singleton.mp between)
      · refine (ih back).imp id fun ⟨v, listed, inside⟩ => ⟨v, mem_cons_of_mem t listed, inside⟩

theorem mem_colons {pieces : List ℕ} (member : c ∈ colons pieces) : c ∈ ':' :: hexDigits := by
  rcases mem_intercalate member with rfl | ⟨t, listed, inside⟩
  · exact mem_cons_self
  · obtain ⟨n, -, rfl⟩ := List.mem_map.mp listed
    exact mem_cons_of_mem _ (mem_hexDigits inside)

theorem mem_compressed {pieces : List ℕ} (member : c ∈ compressed pieces) : c ∈ ':' :: hexDigits := by
  unfold compressed at member
  dsimp only at member
  split_ifs at member
  · rcases mem_append.mp member with front | back
    · exact mem_colons front
    · rcases mem_cons.mp back with rfl | back
      · exact mem_cons_self
      · rcases mem_cons.mp back with rfl | back
        · exact mem_cons_self
        · exact mem_colons back
  · exact mem_colons member

theorem mem_hexDigits_of_isDigit (digit : c.isDigit) : c ∈ hexDigits := by
  have bounds := digit_bounds digit
  have ten : ∀ k < 10, Char.ofNat (48 + k) ∈ hexDigits := by decide
  have member := ten (c.toNat - 48) (by omega)
  rw [Nat.add_sub_cancel' bounds.1, Char.ofNat_toNat] at member
  exact member

theorem mem_dotted {octets : List ℕ} (member : c ∈ dotted octets) : c ∈ '.' :: hexDigits := by
  rcases mem_intercalate member with rfl | ⟨t, listed, inside⟩
  · exact mem_cons_self
  · obtain ⟨n, -, rfl⟩ := List.mem_map.mp listed
    exact mem_cons_of_mem _ (mem_hexDigits_of_isDigit (digits_decimal n c inside))

theorem IpAddress.mem_text {a : IpAddress} (member : c ∈ a.text) : c ∈ '.' :: ':' :: hexDigits := by
  cases a with
  | v4 x =>
    rw [IpAddress.text] at member
    rcases mem_cons.mp (mem_dotted member) with rfl | digit
    · exact mem_cons_self
    · exact mem_cons_of_mem _ (mem_cons_of_mem _ digit)
  | v6 x =>
    rw [IpAddress.text] at member
    exact mem_cons_of_mem _ (mem_compressed member)

theorem isOctet_decimal (small : n < 256) : isOctet (decimal n) = true := by
  simp only [isOctet, number_decimal, beq_self_eq_true, Bool.true_and, decide_eq_true_eq]
  exact small

theorem isIPv4_dotted {octets : List ℕ} (four : octets.length = 4) (small : ∀ n ∈ octets, n < 256) :
    isIPv4 (dotted octets) = true := by
  have parts : (dotted octets).splitOn '.' = octets.map decimal := by
    refine splitOn_intercalate '.' (fun t listed inside => ?_) (fun none => ?_)
    · obtain ⟨n, -, rfl⟩ := List.mem_map.mp listed
      exact absurd (digits_decimal n '.' inside) (by decide)
    · rw [map_eq_nil_iff.mp none] at four
      cases four
  simp only [isIPv4, parts, length_map, four, beq_self_eq_true, Bool.true_and, List.all_eq_true]
  intro t listed
  obtain ⟨n, member, rfl⟩ := List.mem_map.mp listed
  exact isOctet_decimal (small n member)

section Groups
variable {pieces : List ℕ}

theorem colon_not_mem_hexadecimal (n : ℕ) : ':' ∉ hexadecimal n :=
  fun member => absurd (mem_hexDigits member) (by decide)

theorem colons_singleton (n : ℕ) : colons [n] = hexadecimal n := intercalate_singleton

theorem colons_cons_cons (n m : ℕ) (rest : List ℕ) :
    colons (n :: m :: rest) = hexadecimal n ++ ':' :: colons (m :: rest) := by
  simp only [colons, map_cons, intercalate_cons_cons, append_assoc, singleton_append]

theorem colons_ne_nil (some_piece : pieces ≠ []) : colons pieces ≠ [] := by
  cases pieces with
  | nil => exact absurd rfl some_piece
  | cons n rest =>
    cases rest with
    | nil =>
      rw [colons_singleton]
      exact Nat.toDigits_ne_nil
    | cons m rest =>
      rw [colons_cons_cons]
      exact append_ne_nil_of_left_ne_nil Nat.toDigits_ne_nil _

theorem groupsOf_colons (pieces : List ℕ) : groupsOf (colons pieces) = pieces.map hexadecimal := by
  by_cases none : pieces = []
  · rw [none]
    rfl
  · rw [groupsOf, if_neg (colons_ne_nil none)]
    refine splitOn_intercalate ':' (fun t listed => ?_) (fun empty => none (map_eq_nil_iff.mp empty))
    obtain ⟨n, -, rfl⟩ := List.mem_map.mp listed
    exact colon_not_mem_hexadecimal n

theorem groupCount_hexadecimal (small : ∀ n ∈ pieces, n < 65536) :
    groupCount (pieces.map hexadecimal) = some pieces.length := by
  induction pieces with
  | nil => rfl
  | cons n rest ih =>
    have group := isHexGroup_hexadecimal (small n mem_cons_self)
    have count := ih fun m member => small m (mem_cons_of_mem n member)
    cases rest with
    | nil => simp only [map_cons, map_nil, groupCount, group, if_true, length_singleton]
    | cons m rest =>
      rw [map_cons] at count
      simp only [map_cons, groupCount, group, if_true, count, map_some, length_cons]

theorem splitDouble_append {t : Text} (plain : ':' ∉ t) (rest : Text) :
    splitDouble (t ++ rest) = (splitDouble rest).map fun parts => (t ++ parts.1, parts.2) := by
  induction t with
  | nil => simp
  | cons c t ih =>
    have other : c ≠ ':' := fun same => plain (same ▸ mem_cons_self)
    rw [cons_append, splitDouble]
    · rw [ih fun member => plain (mem_cons_of_mem c member), Option.map_map]
      rfl
    · exact fun _ same => absurd same other

theorem splitDouble_colon {t : Text} (single : t.head? ≠ some ':') :
    splitDouble (':' :: t) = (splitDouble t).map fun parts => (':' :: parts.1, parts.2) := by
  rw [splitDouble]
  intro rest _ same
  rw [same] at single
  exact single rfl

theorem head_colons (n : ℕ) (rest : List ℕ) (t : Text) : (colons (n :: rest) ++ t).head? ≠ some ':' := by
  have front : ∀ u : Text, (hexadecimal n ++ u).head? ≠ some ':' := by
    intro u head
    obtain ⟨c, digits, same⟩ := exists_cons_of_ne_nil (Nat.toDigits_ne_nil (n := n) (b := 16))
    rw [hexadecimal, same, cons_append, head?_cons] at head
    apply colon_not_mem_hexadecimal n
    rw [hexadecimal, same, some.inj head]
    exact mem_cons_self
  cases rest with
  | nil =>
    rw [colons_singleton]
    exact front t
  | cons m rest =>
    rw [colons_cons_cons, append_assoc]
    exact front _

theorem splitDouble_colons (pieces : List ℕ) (t : Text) :
    splitDouble (colons pieces ++ t) = (splitDouble t).map fun parts => (colons pieces ++ parts.1, parts.2) := by
  induction pieces with
  | nil => simp [colons]
  | cons n rest ih =>
    cases rest with
    | nil =>
      rw [colons_singleton]
      exact splitDouble_append (colon_not_mem_hexadecimal n) t
    | cons m rest =>
      rw [colons_cons_cons, append_assoc, splitDouble_append (colon_not_mem_hexadecimal n), cons_append,
        splitDouble_colon (head_colons m rest t), ih, Option.map_map, Option.map_map]
      simp only [Function.comp_def, append_assoc, cons_append]

theorem longestZeroRun_le (pieces : List ℕ) :
    (longestZeroRun pieces).1 + (longestZeroRun pieces).2 ≤ pieces.length := by
  induction pieces with
  | nil => exact Nat.le_refl 0
  | cons n rest ih =>
    have here : zeroRun (n :: rest) ≤ (n :: rest).length := (takeWhile_sublist _).length_le
    simp only [longestZeroRun]
    split_ifs
    · simpa using here
    · simp only [length_cons]
      omega

theorem isGroups_compressed (eight : pieces.length = 8) (small : ∀ n ∈ pieces, n < 65536) :
    isGroups (compressed pieces) = true := by
  have bound := longestZeroRun_le pieces
  unfold compressed
  dsimp only
  split_ifs with run
  · have split : ∀ back, splitDouble (':' :: ':' :: back) = some ([], back) := fun _ => rfl
    have behind : ∀ n ∈ pieces.drop ((longestZeroRun pieces).1 + (longestZeroRun pieces).2), n < 65536 :=
      fun n member => small n (mem_of_mem_drop member)
    rw [isGroups, splitDouble_colons, split]
    simp only [map_some, append_nil, groupsOf_colons, groupCount_hexadecimal behind, any_some,
      length_map, length_take, length_drop, Bool.and_eq_true, decide_eq_true_eq, List.all_eq_true]
    refine ⟨fun t listed => ?_, by omega⟩
    obtain ⟨n, member, rfl⟩ := List.mem_map.mp listed
    exact isHexGroup_hexadecimal (small n (mem_of_mem_take member))
  · have whole : splitDouble (colons pieces) = none := by simpa [splitDouble] using splitDouble_colons pieces []
    rw [isGroups, whole]
    simp only [groupsOf_colons, groupCount_hexadecimal small, eight, beq_self_eq_true]

theorem isIPv6_compressed (eight : pieces.length = 8) (small : ∀ n ∈ pieces, n < 65536) :
    isIPv6 (compressed pieces) = true := by
  have unzoned : ∀ c ∈ compressed pieces, decide (c ≠ '%') = true := by
    intro c member
    have others : ∀ c ∈ ':' :: hexDigits, decide (c ≠ '%') = true := forall_mem_of_all (by decide)
    exact others c (mem_compressed member)
  rw [isIPv6, takeWhile_eq_self_iff.mpr unzoned, dropWhile_eq_nil_iff.mpr unzoned, isGroups_compressed eight small]
  rfl

end Groups

theorem IPv4.octets_lt (x : IPv4) : ∀ n ∈ IPv4.octets x, n < 256 := by
  have bound := x.isLt
  simp only [IPv4.octets, forall_mem_cons, not_mem_nil, false_imp_iff, implies_true, and_true]
  omega

theorem IPv6.pieces_lt (x : IPv6) : ∀ n ∈ IPv6.pieces x, n < 65536 := by
  have bound := x.isLt
  simp only [IPv6.pieces, forall_mem_cons, not_mem_nil, false_imp_iff, implies_true, and_true]
  omega

theorem colon_mem_text (x : IPv6) : ':' ∈ (IpAddress.v6 x).text := by
  rw [IpAddress.text, compressed]
  split_ifs
  · exact mem_append_right _ mem_cons_self
  · rw [IPv6.pieces, colons_cons_cons]
    exact mem_append_right _ mem_cons_self

theorem isIP_text (a : IpAddress) : 0 < isIP a.text := by
  unfold isIP
  cases a with
  | v4 x =>
    rw [IpAddress.text, if_pos (isIPv4_dotted rfl (IPv4.octets_lt x))]
    decide
  | v6 x =>
    rw [IpAddress.text, if_pos (isIPv6_compressed rfl (IPv6.pieces_lt x))]
    split_ifs <;> decide

theorem dotted_cons_cons (n m : ℕ) (rest : List ℕ) :
    dotted (n :: m :: rest) = decimal n ++ '.' :: dotted (m :: rest) := by
  simp only [dotted, map_cons, intercalate_cons_cons, append_assoc, singleton_append]

/-- Two octets make a group, in which the second is written with both its digits. -/
theorem hexadecimal_octets {a b : ℕ} (positive : 0 < a) (small : b < 256) :
    hexadecimal (a * 256 + b) = hexadecimal a ++ [Nat.digitChar (b / 16), Nat.digitChar (b % 16)] := by
  have first : (a * 256 + b) / 16 = 16 * a + b / 16 := by omega
  have last : (a * 256 + b) % 16 = b % 16 := by omega
  have digit : b / 16 < 16 := by omega
  rw [hexadecimal, Nat.toDigits_of_base_le (by decide) (by omega), first, last,
    ← Nat.toDigits_append_toDigits (by decide) positive digit, Nat.toDigits_of_lt_base digit, append_assoc]
  rfl

theorem longestZeroRun_front (nonzero : n ≠ 0) (rest : List ℕ) :
    longestZeroRun (n :: rest) =
      if (longestZeroRun rest).2 ≤ 0 then (0, 0) else ((longestZeroRun rest).1 + 1, (longestZeroRun rest).2) := by
  have empty : zeroRun (n :: rest) = 0 := by
    rw [zeroRun, takeWhile_cons_of_neg (by simpa using nonzero)]
    rfl
  rw [longestZeroRun, empty]

theorem compressed_front {m : ℕ} (nonzero : n ≠ 0) (rest : List ℕ) :
    ∃ t, compressed (n :: m :: rest) = hexadecimal n ++ ':' :: t := by
  unfold compressed
  rw [longestZeroRun_front nonzero]
  split_ifs with none
  · rw [if_neg (by decide), colons_cons_cons]
    exact ⟨_, rfl⟩
  · dsimp only
    split_ifs
    · rw [take_succ_cons]
      cases (m :: rest).take (longestZeroRun (m :: rest)).1 with
      | nil =>
        rw [colons_singleton]
        exact ⟨_, rfl⟩
      | cons k front =>
        rw [colons_cons_cons, append_assoc, cons_append]
        exact ⟨_, rfl⟩
    · rw [colons_cons_cons]
      exact ⟨_, rfl⟩

theorem longestZeroRun_mapped (high low : ℕ) : longestZeroRun [0, 0, 0, 0, 0, 0xffff, high, low] = (0, 5) := by
  by_cases first : high = 0 <;> by_cases second : low = 0 <;> simp [longestZeroRun, zeroRun, first, second]

theorem compressed_mapped (high low : ℕ) :
    compressed [0, 0, 0, 0, 0, 0xffff, high, low] =
      "::ffff:".toList ++ (hexadecimal high ++ ':' :: hexadecimal low) := by
  rw [compressed, longestZeroRun_mapped]
  dsimp only
  rw [if_pos (by decide), take_zero, drop_succ_cons, drop_succ_cons, drop_succ_cons,
    drop_succ_cons, drop_succ_cons, drop_zero, colons_cons_cons, colons_cons_cons, colons_singleton]
  rfl

theorem IPv6.mapped_some (carried : IPv6.mapped x = some y) : x.toNat / 2 ^ 32 = 0xffff ∧ y = x.setWidth 32 := by
  unfold IPv6.mapped at carried
  split_ifs at carried with front
  exact ⟨front, (some.inj carried).symm⟩

theorem IPv6.pieces_mapped (carried : IPv6.mapped x = some y) :
    IPv6.pieces x = [0, 0, 0, 0, 0, 0xffff, y.toNat / 2 ^ 16, y.toNat % 65536] := by
  obtain ⟨front, rfl⟩ := IPv6.mapped_some carried
  rw [BitVec.toNat_setWidth]
  simp only [IPv6.pieces, List.cons.injEq, and_true]
  omega

theorem text_mapped (carried : IPv6.mapped x = some y) : (IpAddress.v6 x).text =
      "::ffff:".toList ++ (hexadecimal (y.toNat / 2 ^ 16) ++ ':' :: hexadecimal (y.toNat % 65536)) := by
  rw [IpAddress.text, IPv6.pieces_mapped carried, compressed_mapped]

theorem resolverText_mapped (carried : IPv6.mapped x = some y) :
    (IpAddress.v6 x).resolverText = "::ffff:".toList ++ dotted (IPv4.octets y) := by
  obtain ⟨front, rfl⟩ := IPv6.mapped_some carried
  rw [IpAddress.resolverText, IPv6.pieces_mapped carried, longestZeroRun_mapped, if_neg (by decide), if_pos]
  exact ⟨rfl, by rw [front]⟩

theorem resolverText_front (nonzero : x.toNat / 2 ^ 112 ≠ 0) :
    (IpAddress.v6 x).resolverText = (IpAddress.v6 x).text := by
  have late : ∀ k, 0 < k → longestZeroRun (IPv6.pieces x) ≠ (0, k) := by
    intro k positive same
    rw [IPv6.pieces, longestZeroRun_front nonzero] at same
    split_ifs at same
    · exact absurd (Prod.mk.inj same).2 (by omega)
    · exact absurd (Prod.mk.inj same).1 (Nat.succ_ne_zero _)
  rw [IpAddress.resolverText, if_neg (late 6 (by decide)), if_neg fun five => late 5 (by decide) five.1]
  rfl

end RemudaRmm.Foundation
