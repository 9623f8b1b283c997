import RemudaRmm.Foundation.InternetAddress
import RemudaRmm.Foundation.NumberText

/-! Reading the text of an address, with a zone behind an IPv6 address, and of a network in CIDR form; and the text of a
host with its port. -/
namespace RemudaRmm.Foundation
open List

def parseIPv4 (t : Text) : Option IPv4 :=
  if isIPv4 t then some (BitVec.ofNat 32 ((t.splitOn '.').foldl (fun n octet => n * 256 + number octet) 0)) else none

/-- The values of the groups, of which an IPv4 address at the end makes two. -/
def groupValues : List Text → List ℕ
  | [] => []
  | t :: rest =>
    if isHexGroup t then ofBase 16 t :: groupValues rest
    else
      match parseIPv4 t with
      | some x => [x.toNat / 65536, x.toNat % 65536]
      | none => []

/-- A `::` stands for the groups that are missing. -/
def groupsValue (t : Text) : List ℕ :=
  match splitDouble t with
  | none => groupValues (groupsOf t)
  | some (front, back) =>
    let before := groupValues (groupsOf front)
    let after := groupValues (groupsOf back)
    before ++ List.replicate (8 - before.length - after.length) 0 ++ after

def parseIPv6 (t : Text) : Option IPv6 :=
  if isGroups t then some (BitVec.ofNat 128 ((groupsValue t).foldl (fun n piece => n * 65536 + piece) 0)) else none

structure ScopedAddress where
  address : IpAddress
  zone : Text
  deriving DecidableEq

/-- The first of the three characters that an address is told by. -/
def addressMark (t : Text) : Option Char := t.find? fun c => c = '.' || c = ':' || c = '%'

def parseAddr (t : Text) : Option ScopedAddress :=
  match addressMark t with
  | some '.' => (parseIPv4 t).map fun x => ⟨.v4 x, []⟩
  | some ':' =>
    let zone := t.dropWhile (· ≠ '%')
    if zone = ['%'] then none else (parseIPv6 (t.takeWhile (· ≠ '%'))).map fun x => ⟨.v6 x, zone.drop 1⟩
  | _ => none

def parseIP (t : Text) : Option IpAddress :=
  match parseAddr t with
  | some ⟨a, []⟩ => some a
  | _ => none

structure Subnet where
  network : IpAddress
  bits : ℕ
  deriving DecidableEq

def IpAddress.width : IpAddress → ℕ
  | .v4 _ => 32
  | .v6 _ => 128

def maskBits {w : ℕ} (bits : ℕ) (x : BitVec w) : BitVec w := BitVec.ofNat w (x.toNat / 2 ^ (w - bits) * 2 ^ (w - bits))

def IpAddress.mask (bits : ℕ) : IpAddress → IpAddress
  | .v4 x => .v4 (maskBits bits x)
  | .v6 x => .v6 (maskBits bits x)

def parsePrefixed (t : Text) : Option (IpAddress × ℕ) :=
  match t.dropWhile (· ≠ '/'), parseIP (t.takeWhile (· ≠ '/')) with
  | _ :: digits, some a =>
    if digits ≠ [] ∧ digits.all Char.isDigit ∧ number digits ≤ a.width then some (a, number digits) else none
  | _, _ => none

def parseCIDR (t : Text) : Option Subnet := (parsePrefixed t).map fun pair => ⟨pair.1.mask pair.2, pair.2⟩

/-- A network of addresses that carry others is a network of those. -/
def Subnet.denoted (n : Subnet) : Subnet :=
  match n.network with
  | .v4 x => ⟨.v4 x, n.bits⟩
  | .v6 x => match IPv6.mapped x with
      | some y => ⟨.v4 y, n.bits - 96⟩
      | none => ⟨.v6 x, n.bits⟩

def Subnet.contains (n : Subnet) (a : IpAddress) : Bool :=
  match n.denoted, a.denoted with
  | ⟨.v4 x, bits⟩, .v4 y => InNetwork x bits y
  | ⟨.v6 x, bits⟩, .v6 y => InNetwork x bits y
  | _, _ => false

theorem inNetwork_maskBits {w : ℕ} (bits : ℕ) (x y : BitVec w) :
    InNetwork (maskBits bits x) bits y ↔ InNetwork x bits y := by
  have below : x.toNat / 2 ^ (w - bits) * 2 ^ (w - bits) < 2 ^ w :=
    Nat.lt_of_le_of_lt (Nat.div_mul_le_self _ _) x.isLt
  rw [InNetwork, InNetwork, maskBits, BitVec.toNat_ofNat, Nat.mod_eq_of_lt below,
    Nat.mul_div_cancel _ (Nat.two_pow_pos _)]

theorem mem_of_parseIPv4 {t : Text} {x : IPv4} (parsed : parseIPv4 t = some x) : ∀ c ∈ t, c = '.' ∨ c.isDigit := by
  intro c member
  unfold parseIPv4 at parsed
  split at parsed
  next valid =>
    rw [← show ['.'].intercalate (t.splitOn '.') = t from intercalate_splitOn '.'] at member
    rcases mem_intercalate member with rfl | ⟨octet, listed, inside⟩
    · exact .inl rfl
    · have octets := (Bool.and_eq_true _ _ ▸ valid : _ ∧ _).2
      have own := List.all_eq_true.mp octets octet listed
      have same : octet = decimal (number octet) := eq_of_beq (Bool.and_eq_true _ _ ▸ own : _ ∧ _).1
      rw [same] at inside
      exact .inr (digits_decimal _ c inside)
  · cases parsed

theorem not_mem_of_parseIPv4 {t : Text} {x : IPv4} {c : Char} (parsed : parseIPv4 t = some x) (other : c ≠ '.')
    (notDigit : c.isDigit = false) : c ∉ t := by
  intro member
  rcases mem_of_parseIPv4 parsed c member with same | digit
  · exact other same
  · rw [notDigit] at digit
    cases digit

/-- An address without a colon is an IPv4 address, and one with a colon is told by it. -/
theorem parseAddr_cases {t : Text} {a : ScopedAddress} (parsed : parseAddr t = some a) :
    (':' ∉ t ∧ ∃ x, parseIPv4 t = some x ∧ a = ⟨.v4 x, []⟩) ∨
      (':' ∈ t ∧ (∃ x, a.address = .v6 x) ∧ addressMark (t.takeWhile (· ≠ ':')) = none) := by
  unfold parseAddr at parsed
  split at parsed
  next =>
    obtain ⟨x, read, same⟩ := Option.map_eq_some_iff.mp parsed
    exact Or.inl ⟨not_mem_of_parseIPv4 read (by decide) (by decide), x, read, same.symm⟩
  next mark =>
    dsimp only at parsed
    split at parsed
    · cases parsed
    · obtain ⟨x, -, rfl⟩ := Option.map_eq_some_iff.mp parsed
      obtain ⟨-, before, after, rfl, plain⟩ := find?_eq_some_iff_append.mp mark
      have uncoloned : ∀ c ∈ before, decide (c ≠ ':') = true := by
        intro c member
        have other := plain c member
        simp only [Bool.not_eq_true', Bool.or_eq_false_iff, decide_eq_false_iff_not] at other
        exact decide_eq_true other.1.2
      refine Or.inr ⟨mem_append_right _ mem_cons_self, ⟨x, rfl⟩, ?_⟩
      rw [takeWhile_append_of_pos uncoloned, takeWhile_cons_of_neg (by simp), append_nil]
      refine find?_eq_none.mpr fun c member => ?_
      simpa using plain c member
  next => cases parsed

def joinHostPort (host port : Text) : Text :=
  if ':' ∈ host then '[' :: host ++ ']' :: ':' :: port else host ++ ':' :: port

/-- The text in front of the last colon, and the text behind it. -/
def splitLast (t : Text) : Option (Text × Text) :=
  match t.reverse.dropWhile (· ≠ ':') with
  | [] => none
  | _ :: front => some (front.reverse, (t.reverse.takeWhile (· ≠ ':')).reverse)

/-- The host and the port; brackets stand only around the whole host. -/
def splitHostPort (t : Text) : Option (Text × Text) :=
  match splitLast t with
  | none => none
  | some (front, port) =>
    if '[' ∈ port ∨ ']' ∈ port then none
    else if front.head? = some '[' then
      let host := front.tail.takeWhile (· ≠ ']')
      if front.tail = host ++ [']'] ∧ '[' ∉ host then some (host, port) else none
    else if ':' ∉ front ∧ '[' ∉ front ∧ ']' ∉ front then some (front, port)
    else none

theorem splitLast_append {front port : Text} (plain : ':' ∉ port) :
    splitLast (front ++ ':' :: port) = some (front, port) := by
  have uncoloned : ∀ c ∈ port.reverse, decide (c ≠ ':') = true := fun c member =>
    decide_eq_true fun same => plain (same ▸ mem_reverse.mp member)
  unfold splitLast
  rw [reverse_append, reverse_cons, append_assoc, dropWhile_append_of_pos uncoloned, takeWhile_append_of_pos uncoloned]
  simp

def PlainPort (port : Text) : Prop := ':' ∉ port ∧ '[' ∉ port ∧ ']' ∉ port

theorem takeWhile_append_of_mem {t u : Text} {c : Char} (member : c ∈ t) :
    (t ++ u).takeWhile (· ≠ c) = t.takeWhile (· ≠ c) := by
  induction t with
  | nil => cases member
  | cons d t ih =>
    by_cases same : d = c
    · rw [cons_append, takeWhile_cons_of_neg (by simpa using same), takeWhile_cons_of_neg (by simpa using same)]
    · rw [cons_append, takeWhile_cons_of_pos (by simpa using same),
        takeWhile_cons_of_pos (by simpa using same), ih ((mem_cons.mp member).resolve_left (Ne.symm same))]

/-- The brackets around a host with a colon are taken off again, if it has none itself. -/
theorem splitHostPort_colon {host port : Text} (plain : PlainPort port) (colon : ':' ∈ host) :
    splitHostPort (joinHostPort host port) = if '[' ∈ host ∨ ']' ∈ host then none else some (host, port) := by
  have last : splitLast (joinHostPort host port) = some ('[' :: (host ++ [']']), port) := by
    rw [joinHostPort, if_pos colon]
    have same : '[' :: host ++ ']' :: ':' :: port = ('[' :: (host ++ [']'])) ++ ':' :: port := by simp
    rw [same]
    exact splitLast_append plain.1
  rw [splitHostPort, last]
  dsimp only
  rw [if_neg (not_or.mpr plain.2), if_pos head?_cons, tail_cons]
  by_cases closing : ']' ∈ host
  · rw [if_pos (Or.inr closing)]
    refine if_neg fun whole => ?_
    obtain ⟨same, -⟩ := whole
    have short := append_cancel_right same
    rw [takeWhile_append_of_mem closing] at short
    exact absurd (short ▸ closing : ']' ∈ host.takeWhile (· ≠ ']')) fun member => by
      simpa using mem_takeWhile_imp member
  · have unclosed : ∀ c ∈ host, decide (c ≠ ']') = true := fun c member =>
      decide_eq_true fun same => closing (same ▸ member)
    rw [takeWhile_append_of_pos unclosed, takeWhile_cons_of_neg (by simp), append_nil]
    by_cases opening : '[' ∈ host
    · rw [if_pos (Or.inl opening), if_neg fun whole => whole.2 opening]
    · rw [if_neg (not_or.mpr ⟨opening, closing⟩), if_pos ⟨rfl, opening⟩]

theorem splitHostPort_plain {host port : Text} (plain : PlainPort port) (colon : ':' ∉ host) (opening : '[' ∉ host)
    (closing : ']' ∉ host) : splitHostPort (joinHostPort host port) = some (host, port) := by
  have unbracketed : host.head? ≠ some '[' := fun same => opening (mem_of_mem_head? same)
  rw [joinHostPort, if_neg colon, splitHostPort, splitLast_append plain.1]
  dsimp only
  rw [if_neg (not_or.mpr plain.2), if_neg unbracketed, if_pos ⟨colon, opening, closing⟩]

end RemudaRmm.Foundation
