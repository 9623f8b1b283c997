import RemudaRmm.Foundation.AddressParsing

/-! The gate in front of a tunnel (`allowlist.go`): the deny list, the allowlist rules and what is then dialed. What the
resolver answers is a parameter, at each of the three lookups anew. -/
namespace RemudaRmm.Endpoint
open Foundation List Option

structure AllowlistRule where
  network : Subnet
  (portMin portMax : ℤ)
  allPorts : Bool
  deriving DecidableEq

inductive RuleError where
  | invalidPattern (pattern : Text)
  | invalidCIDR (cidr : Text)
  | invalidPortMin (t : Text)
  | invalidPortMax (t : Text)
  | invalidPortRange (low high : ℤ)
  | invalidPort (t : Text)
  | portOutOfRange (port : ℤ)
  deriving DecidableEq

/-- `strconv.Atoi`: digits, with a sign or without, of a number of 64 bits. -/
def atoi (t : Text) : Option ℤ :=
  let digits := if t.head? = some '-' ∨ t.head? = some '+' then t.tail else t
  let value : ℤ := if t.head? = some '-' then -number digits else number digits
  if digits ≠ [] ∧ digits.all Char.isDigit ∧ -2 ^ 63 ≤ value ∧ value < 2 ^ 63 then some value else none

/-- The text in front of the first separator and the text behind it. -/
def cut (sep : Char) (t : Text) : Option (Text × Text) :=
  match t.dropWhile (· ≠ sep) with
  | [] => none
  | _ :: rest => some (t.takeWhile (· ≠ sep), rest)

def withMask (cidr : Text) : Text :=
  if '/' ∈ cidr then cidr else if ':' ∈ cidr then cidr ++ "/128".toList else cidr ++ "/32".toList

def parsePorts (network : Subnet) (portPart : Text) : Except RuleError AllowlistRule :=
  if portPart = ['*'] then .ok ⟨network, 0, 0, true⟩
  else
    match cut '-' portPart with
    | some (low, high) =>
      match atoi low, atoi high with
      | none, _ => .error (.invalidPortMin low)
      | some _, none => .error (.invalidPortMax high)
      | some low, some high =>
        if high < low ∨ low < 1 ∨ 65535 < high then .error (.invalidPortRange low high)
        else .ok ⟨network, low, high, false⟩
    | none =>
      match atoi portPart with
      | none => .error (.invalidPort portPart)
      | some port =>
        if port < 1 ∨ 65535 < port then .error (.portOutOfRange port) else .ok ⟨network, port, port, false⟩

def parseAllowlistRule (pattern : Text) : Except RuleError AllowlistRule :=
  match cut ':' pattern with
  | none => .error (.invalidPattern pattern)
  | some (cidr, portPart) =>
    match parseCIDR (withMask cidr) with
    | none => .error (.invalidCIDR (withMask cidr))
    | some network => parsePorts network portPart

def AllowlistRule.permits (rule : AllowlistRule) (ip : IpAddress) (port : ℤ) : Bool :=
  rule.network.contains ip && (rule.allPorts || (rule.portMin ≤ port && port ≤ rule.portMax))

/-- `net.LookupIP`: the text of an address is not looked up, and no answer is none. -/
def lookupIP (host : Text) (answer : Option (List IpAddress)) : Option (List IpAddress) :=
  if host = [] then none
  else
    match parseAddr host with
    | some a => some [a.address]
    | none => answer

def judged (host : Text) (answer : Option (List IpAddress)) : Option IpAddress :=
  match parseIP host with
  | some ip => some ip
  | none => (lookupIP host answer).bind List.head?

def localhost : Subnet := ⟨.v4 (ipv4 127 0 0 0), 8⟩

def blockedNetworks : List (Subnet × String) :=
  [(localhost, "localhost"), (⟨.v4 (ipv4 169 254 0 0), 16⟩, "link-local / cloud metadata (SSRF)"),
    (⟨.v4 (ipv4 0 0 0 0), 32⟩, "wildcard bind")]

def isVNCTarget (network : Subnet) (ip : IpAddress) (port : ℤ) (isVNC : Bool) : Bool :=
  isVNC && network == localhost && ip.denoted == .v4 (ipv4 127 0 0 1) && port == 5900

def blockReason (ip : IpAddress) (port : ℤ) (isVNC : Bool) : Option String :=
  if ip.denoted = .v6 0 then some "wildcard bind address"
  else (blockedNetworks.find? fun b => b.1.contains ip && !isVNCTarget b.1 ip port isVNC).map Prod.snd

def isBlocked (host : Text) (port : ℤ) (isVNC : Bool) (answer : Option (List IpAddress)) : Bool × String :=
  match judged host answer with
  | none => (true, "unresolvable hostname")
  | some ip =>
    match blockReason ip port isVNC with
    | some reason => (true, reason)
    | none => (false, "")

def permitted (ip : IpAddress) (port : ℤ) (rules : List AllowlistRule) : Bool := rules.any fun rule => rule.permits ip port

def isAllowed (host : Text) (port : ℤ) (rules : List AllowlistRule) (answer : Option (List IpAddress)) : Bool :=
  match judged host answer with
  | none => false
  | some ip => permitted ip port rules

def portText (port : ℤ) : Text := if port < 0 then '-' :: decimal port.natAbs else decimal port.natAbs

/-- The host that `Dial` finds in the address that `Open` gives it. -/
def dialHost (host : Text) (port : ℤ) : Option Text :=
  if 0 ≤ port ∧ port ≤ 65535 then (splitHostPort (joinHostPort host (portText port))).map Prod.fst else none

def hostAddresses (host : Text) (answer : Option (List IpAddress)) : List IpAddress :=
  if host = [] then [.v6 0]
  else
    let found := (lookupIP host answer).getD []
    if found = [.v6 0] then [.v6 0, .v4 0] else found

/-- The addresses that `Open` may connect to. -/
def dialAddresses (host : Text) (port : ℤ) (answer : Option (List IpAddress)) : List IpAddress :=
  match dialHost host port with
  | none => []
  | some target => hostAddresses target answer

/-- A loopback, link-local or unspecified address, but for VNC on this machine. -/
def ForbiddenAddress (port : ℤ) (isVNC : Bool) : IpAddress → Prop
  | .v4 x => (InNetwork (ipv4 127 0 0 0) 8 x ∧ ¬(x = ipv4 127 0 0 1 ∧ port = 5900 ∧ isVNC = true)) ∨
      InNetwork (ipv4 169 254 0 0) 16 x ∨ x = 0
  | .v6 x => x = 1 ∨ InNetwork (ipv6Front 0xfe80) 10 x ∨ x = 0

instance decidableForbiddenAddress (port : ℤ) (isVNC : Bool) : ∀ ip, Decidable (ForbiddenAddress port isVNC ip)
  | .v4 _ => inferInstanceAs (Decidable (_ ∨ _ ∨ _))
  | .v6 _ => inferInstanceAs (Decidable (_ ∨ _ ∨ _))

def Forbidden (ip : IpAddress) (port : ℤ) (isVNC : Bool) : Prop := ForbiddenAddress port isVNC ip.denoted

instance decidableForbidden (ip : IpAddress) (port : ℤ) (isVNC : Bool) : Decidable (Forbidden ip port isVNC) :=
  decidableForbiddenAddress port isVNC ip.denoted

/-- Whatever the lookups find, what is dialed behind the gate is not forbidden and is permitted by a rule. -/
def NeverForbidden (host : Text) (port : ℤ) (isVNC : Bool) (rules : List AllowlistRule) : Prop :=
  ∀ first second third : List IpAddress, first ≠ [] → second ≠ [] → third ≠ [] →
    (isBlocked host port isVNC (some first)).1 = false → isAllowed host port rules (some second) = true →
      ∀ ip ∈ dialAddresses host port (some third), ¬Forbidden ip port isVNC ∧ ∃ rule ∈ rules, rule.permits ip port = true

/-- The documented forms of the ports. -/
inductive PortForm where
  | any
  | single (n : ℕ)
  | range (n m : ℕ)

def PortForm.text : PortForm → Text
  | .any => ['*']
  | .single n => decimal n
  | .range n m => decimal n ++ '-' :: decimal m

def PortForm.Valid : PortForm → Prop
  | .any => True
  | .single n => 1 ≤ n ∧ n ≤ 65535
  | .range n m => 1 ≤ n ∧ n ≤ m ∧ m ≤ 65535

def PortForm.Covers (port : ℤ) : PortForm → Prop
  | .any => True
  | .single n => port = n
  | .range n m => n ≤ port ∧ port ≤ m

/-- The address with the IPv4 addresses carried as IPv6 addresses. -/
def IpAddress.bits128 : IpAddress → IPv6
  | .v4 x => BitVec.ofNat 128 (0xffff * 2 ^ 32 + x.toNat)
  | .v6 x => x

/-- The addresses that begin with the first bits of an address. -/
def InPrefix (a : IpAddress) (bits : ℕ) (ip : IpAddress) : Prop :=
  match a with
  | .v4 x => ∃ y, ip.denoted = .v4 y ∧ InNetwork x bits y
  | .v6 x => InNetwork x bits (IpAddress.bits128 ip)

/-- The text is that of an address, or of an address and the number of its bits that count. -/
def Names (c : Text) (a : IpAddress) (bits : ℕ) : Prop :=
  (parseIP c = some a ∧ bits = a.width) ∨ parsePrefixed c = some (a, bits)

def RuleReadsBack (c : Text) (a : IpAddress) (bits : ℕ) (p : PortForm) : Prop :=
  ∃ rule, parseAllowlistRule (c ++ ':' :: p.text) = .ok rule ∧
    ∀ ip port, rule.permits ip port = true ↔ InPrefix a bits ip ∧ p.Covers port

def literalTarget (target : Text) : Option IpAddress :=
  if target = [] then some (.v6 0) else (parseAddr target).map ScopedAddress.address

/-- The text of an address does not pass both checks if the address is forbidden. A name is not dialed, or no rule
permits any address at the port, or what stands in brackets is a good address. -/
structure GateSafe (host : Text) (port : ℤ) (isVNC : Bool) (rules : List AllowlistRule) : Prop where
  address : ∀ a, parseAddr host = some a → dialHost host port ≠ none → blockReason a.address port isVNC = none →
    permitted a.address port rules = true → ¬Forbidden a.address port isVNC
  name : host ≠ [] → parseAddr host = none → ∀ target, dialHost host port = some target →
    (∀ ip, permitted ip port rules = false) ∨
      ∃ ip, literalTarget target = some ip ∧ ¬Forbidden ip port isVNC ∧ permitted ip port rules = true

section Gate
variable {host target : Text} {port : ℤ} {isVNC : Bool} {rules : List AllowlistRule} {a : ScopedAddress}
  {answer : Option (List IpAddress)} {ip : IpAddress}

theorem plainPort_portText (port : ℤ) : PlainPort (portText port) := by
  have digits : ∀ c, c.isDigit = false → c ∉ decimal port.natAbs := by
    intro c notDigit member
    have digit := digits_decimal _ c member
    rw [notDigit] at digit
    cases digit
  have all : ∀ c, c.isDigit = false → c ≠ '-' → c ∉ portText port := by
    intro c notDigit other
    unfold portText
    split
    · exact not_mem_cons_of_ne_of_not_mem other (digits c notDigit)
    · exact digits c notDigit
  exact ⟨all _ (by decide) (by decide), all _ (by decide) (by decide), all _ (by decide) (by decide)⟩

theorem dialHost_address (parsed : parseAddr host = some a) (dialed : dialHost host port = some target) :
    target = host := by
  unfold dialHost at dialed
  split at dialed
  · obtain ⟨⟨found, text⟩, split, rfl⟩ := map_eq_some_iff.mp dialed
    rcases parseAddr_cases parsed with ⟨colon, x, read, -⟩ | ⟨colon, -⟩
    · rw [splitHostPort_plain (plainPort_portText port) colon (not_mem_of_parseIPv4 read (by decide) (by decide))
        (not_mem_of_parseIPv4 read (by decide) (by decide))] at split
      exact (congrArg Prod.fst (some.inj split)).symm
    · rw [splitHostPort_colon (plainPort_portText port) colon] at split
      split at split
      · cases split
      · exact (congrArg Prod.fst (some.inj split)).symm
  · cases dialed

theorem host_ne_nil (parsed : parseAddr host = some a) : host ≠ [] := by
  rintro rfl
  cases parsed

theorem lookupIP_address (parsed : parseAddr host = some a) : lookupIP host answer = some [a.address] := by
  rw [lookupIP, if_neg (host_ne_nil parsed), parsed]

theorem lookupIP_name (some_char : host ≠ []) (unparsed : parseAddr host = none) : lookupIP host answer = answer := by
  rw [lookupIP, if_neg some_char, unparsed]

theorem judged_address (parsed : parseAddr host = some a) : judged host answer = some a.address := by
  unfold judged
  cases read : parseIP host with
  | some ip =>
    unfold parseIP at read
    rw [parsed] at read
    obtain ⟨address, zone⟩ := a
    cases zone with
    | nil => exact read.symm
    | cons c zone => cases read
  | none =>
    dsimp only
    rw [lookupIP_address parsed]
    rfl

theorem judged_name (some_char : host ≠ []) (unparsed : parseAddr host = none) (first : IpAddress)
    (others : List IpAddress) : judged host (some (first :: others)) = some first := by
  unfold judged parseIP
  rw [unparsed]
  dsimp only
  rw [lookupIP_name some_char unparsed]
  rfl

theorem isBlocked_eq_false (found : judged host answer = some ip) :
    (isBlocked host port isVNC answer).1 = false ↔ blockReason ip port isVNC = none := by
  unfold isBlocked
  rw [found]
  dsimp only
  cases blockReason ip port isVNC with
  | some reason | none => simp

theorem isAllowed_eq (found : judged host answer = some ip) :
    isAllowed host port rules answer = permitted ip port rules := by
  rw [isAllowed, found]

theorem permitted_iff : permitted ip port rules = true ↔ ∃ rule ∈ rules, rule.permits ip port = true :=
  List.any_eq_true

theorem hostAddresses_literal (literal : literalTarget target = some ip) (specified : ip ≠ .v6 0) :
    hostAddresses target answer = [ip] := by
  unfold literalTarget at literal
  split at literal
  · exact absurd (some.inj literal).symm specified
  next some_char =>
    obtain ⟨a, parsed, rfl⟩ := map_eq_some_iff.mp literal
    rw [hostAddresses, if_neg some_char, lookupIP_address parsed]
    exact if_neg fun same => specified (List.cons.inj same).1

theorem mem_hostAddresses_literal (literal : literalTarget target = some ip) : ip ∈ hostAddresses target answer := by
  by_cases specified : ip = .v6 0
  · subst specified
    unfold literalTarget at literal
    unfold hostAddresses
    split at literal
    next empty =>
      rw [if_pos empty]
      exact mem_singleton_self _
    next some_char =>
      obtain ⟨a, parsed, same⟩ := map_eq_some_iff.mp literal
      rw [if_neg some_char, lookupIP_address parsed, same]
      exact mem_cons_self
  · rw [hostAddresses_literal literal specified]
    exact mem_singleton_self _

theorem hostAddresses_name (literal : literalTarget target = none) (specified : ip ≠ .v6 0) :
    hostAddresses target (some [ip]) = [ip] := by
  unfold literalTarget at literal
  split at literal
  · cases literal
  next some_char =>
    rw [hostAddresses, if_neg some_char, lookupIP_name some_char (map_eq_none_iff.mp literal)]
    exact if_neg fun same => specified (List.cons.inj same).1

theorem blockReason_unspecified : blockReason (.v6 0) port isVNC ≠ none := by
  have unspecified : (IpAddress.v6 0).denoted = .v6 0 := by decide
  rw [blockReason, if_pos unspecified]
  exact some_ne_none _

theorem blockReason_public : blockReason (.v4 (ipv4 8 8 8 8)) port isVNC = none := by
  have apart : ∀ b ∈ blockedNetworks, b.1.contains (.v4 (ipv4 8 8 8 8)) = false := by decide
  rw [blockReason, if_neg (by decide), find?_eq_none.mpr]
  · rfl
  · intro b listed
    rw [apart b listed]
    exact Bool.false_ne_true

theorem forbidden_loopback : Forbidden (.v4 (ipv4 127 0 0 2)) port isVNC := by
  refine .inl ⟨by decide, fun vnc => ?_⟩
  exact absurd vnc.1 (by decide)

theorem NeverForbidden.address (never : NeverForbidden host port isVNC rules) (parsed : parseAddr host = some a)
    (dialed : dialHost host port ≠ none) (unblocked : blockReason a.address port isVNC = none)
    (allowed : permitted a.address port rules = true) : ¬Forbidden a.address port isVNC := by
  obtain ⟨target, found⟩ := ne_none_iff_exists'.mp dialed
  obtain rfl := dialHost_address parsed found
  have literal : literalTarget target = some a.address := by
    rw [literalTarget, if_neg (host_ne_nil parsed), parsed]
    rfl
  have specified : a.address ≠ .v6 0 := fun same => blockReason_unspecified (same ▸ unblocked)
  have connects : a.address ∈ dialAddresses target port (some [a.address]) := by
    rw [dialAddresses, found]
    dsimp only
    rw [hostAddresses_literal literal specified]
    exact mem_singleton_self _
  refine (never [a.address] [a.address] [a.address] (cons_ne_nil _ _) (cons_ne_nil _ _) (cons_ne_nil _ _)
    ?_ ?_ _ connects).1
  · exact (isBlocked_eq_false (judged_address parsed)).mpr unblocked
  · rw [isAllowed_eq (judged_address parsed)]
    exact allowed

theorem NeverForbidden.name (never : NeverForbidden host port isVNC rules) (some_char : host ≠ [])
    (unparsed : parseAddr host = none) (dialed : dialHost host port = some target) :
    (∀ ip, permitted ip port rules = false) ∨
      ∃ ip, literalTarget target = some ip ∧ ¬Forbidden ip port isVNC ∧ permitted ip port rules = true := by
  by_cases nothing : ∀ ip, permitted ip port rules = false
  · exact .inl nothing
  · simp only [not_forall, Bool.not_eq_false] at nothing
    obtain ⟨allowed, permits⟩ := nothing
    have outcome := never [.v4 (ipv4 8 8 8 8)] [allowed] [.v4 (ipv4 127 0 0 2)] (cons_ne_nil _ _)
      (cons_ne_nil _ _) (cons_ne_nil _ _)
      ((isBlocked_eq_false (judged_name some_char unparsed _ _)).mpr blockReason_public)
      (by rw [isAllowed_eq (judged_name some_char unparsed _ _)]; exact permits)
    rw [dialAddresses, dialed] at outcome
    dsimp only at outcome
    cases literal : literalTarget target with
    | some ip =>
      obtain ⟨good, rule⟩ := outcome ip (mem_hostAddresses_literal literal)
      exact .inr ⟨ip, rfl, good, permitted_iff.mpr rule⟩
    | none =>
      rw [hostAddresses_name literal (by decide)] at outcome
      exact absurd forbidden_loopback (outcome _ (mem_singleton_self _)).1

theorem neverForbidden_iff : NeverForbidden host port isVNC rules ↔ GateSafe host port isVNC rules := by
  constructor
  · intro never
    exact ⟨fun a => never.address, fun some_char unparsed target => never.name some_char unparsed⟩
  · intro safe first second third some_first some_second some_third unblocked allowed ip connects
    unfold dialAddresses at connects
    cases dialed : dialHost host port with
    | none =>
      rw [dialed] at connects
      cases connects
    | some target =>
      rw [dialed] at connects
      dsimp only at connects
      cases parsed : parseAddr host with
      | some a =>
        have passed := (isBlocked_eq_false (judged_address parsed)).mp unblocked
        rw [isAllowed_eq (judged_address parsed)] at allowed
        have dials : dialHost host port ≠ none := by
          rw [dialed]
          exact some_ne_none _
        have good := safe.address a parsed dials passed allowed
        obtain rfl := dialHost_address parsed dialed
        have literal : literalTarget target = some a.address := by
          rw [literalTarget, if_neg (host_ne_nil parsed), parsed]
          rfl
        have specified : a.address ≠ .v6 0 := fun same => blockReason_unspecified (same ▸ passed)
        rw [hostAddresses_literal literal specified] at connects
        rw [mem_singleton.mp connects]
        exact ⟨good, permitted_iff.mp allowed⟩
      | none =>
        by_cases some_char : host = []
        · subst some_char
          cases unblocked
        · obtain ⟨judge, others, rfl⟩ := exists_cons_of_ne_nil some_second
          rw [isAllowed_eq (judged_name some_char parsed _ _)] at allowed
          rcases safe.name some_char parsed target dialed with nothing | ⟨only, literal, good, permits⟩
          · rw [nothing judge] at allowed
            cases allowed
          · have specified : only ≠ .v6 0 := by
              rintro rfl
              exact good (.inr (.inr rfl))
            rw [hostAddresses_literal literal specified] at connects
            rw [mem_singleton.mp connects]
            exact ⟨good, permitted_iff.mp permits⟩

end Gate

section Rules
variable {c : Text} {a : IpAddress} {bits : ℕ} {p : PortForm}
variable {sep : Char} {t : Text}

theorem cut_append {front : Text} (plain : sep ∉ front) (rest : Text) :
    cut sep (front ++ sep :: rest) = some (front, rest) := by
  have other : ∀ d ∈ front, decide (d ≠ sep) = true := fun d member => decide_eq_true fun same => plain (same ▸ member)
  rw [cut, dropWhile_append_of_pos other, takeWhile_append_of_pos other,
    dropWhile_cons_of_neg (by simp), takeWhile_cons_of_neg (by simp), append_nil]

theorem cut_none (plain : sep ∉ t) : cut sep t = none := by
  have other : ∀ d ∈ t, decide (d ≠ sep) = true := fun d member => decide_eq_true fun same => plain (same ▸ member)
  rw [cut, dropWhile_eq_nil_iff.mpr other]

theorem cut_of_mem (member : sep ∈ t) (more : Text) :
    ∃ rest, cut sep (t ++ more) = some (t.takeWhile (· ≠ sep), rest) := by
  unfold cut
  split
  next none_left =>
    have absent := dropWhile_eq_nil_iff.mp none_left sep (mem_append_left _ member)
    exact absurd rfl (of_decide_eq_true absent)
  next rest _ => exact ⟨rest, by rw [takeWhile_append_of_mem member]⟩

theorem not_mem_decimal {d : Char} (notDigit : d.isDigit = false) (n : ℕ) : d ∉ decimal n := by
  intro member
  have digit := digits_decimal n d member
  rw [notDigit] at digit
  cases digit

theorem atoi_decimal {n : ℕ} (small : n ≤ 65535) : atoi (decimal n) = some (n : ℤ) := by
  have unsigned : ∀ d, d.isDigit = false → (decimal n).head? ≠ some d := fun d notDigit head =>
    not_mem_decimal notDigit n (mem_of_mem_head? head)
  have filled : decimal n ≠ [] := Nat.toDigits_ne_nil
  have digits : (decimal n).all Char.isDigit = true := List.all_eq_true.mpr (digits_decimal n)
  unfold atoi
  dsimp only
  rw [if_neg (not_or.mpr ⟨unsigned '-' (by decide), unsigned '+' (by decide)⟩), if_neg (unsigned '-' (by decide)),
    number_decimal, if_pos ⟨filled, digits, by omega, by omega⟩]

theorem parsePorts_text (network : Subnet) (valid : p.Valid) :
    ∃ rule, parsePorts network p.text = .ok rule ∧ ∀ ip port,
      rule.permits ip port = true ↔ network.contains ip = true ∧ p.Covers port := by
  have unstarred : ∀ n rest, decimal n ++ rest ≠ ['*'] := by
    intro n rest same
    obtain ⟨d, digits, first⟩ := exists_cons_of_ne_nil (Nat.toDigits_ne_nil (n := n) (b := 10))
    rw [decimal, first] at same
    refine not_mem_decimal (by decide) n (?_ : '*' ∈ decimal n)
    rw [decimal, first, (List.cons.inj same).1]
    exact mem_cons_self
  unfold parsePorts
  cases p with
  | any =>
    refine ⟨_, if_pos rfl, fun ip port => ?_⟩
    simp [AllowlistRule.permits, PortForm.Covers]
  | single n =>
    have star := unstarred n []
    rw [append_nil] at star
    refine ⟨⟨network, n, n, false⟩, ?_, fun ip port => ?_⟩
    · rw [PortForm.text, if_neg star, cut_none (not_mem_decimal (by decide) n), atoi_decimal valid.2]
      have first := valid.1
      have last := valid.2
      exact if_neg (by omega)
    · simp only [AllowlistRule.permits, PortForm.Covers, Bool.false_or, Bool.and_eq_true, decide_eq_true_eq]
      refine and_congr_right fun _ => ?_
      omega
  | range n m =>
    obtain ⟨first, ordered, last⟩ := valid
    refine ⟨⟨network, n, m, false⟩, ?_, fun ip port => ?_⟩
    · rw [PortForm.text, if_neg (unstarred n _), cut_append (not_mem_decimal (by decide) n)]
      dsimp only
      rw [atoi_decimal (by omega), atoi_decimal last]
      exact if_neg (by omega)
    · simp only [AllowlistRule.permits, PortForm.Covers, Bool.false_or, Bool.and_eq_true, decide_eq_true_eq]

theorem parseIP_parseAddr (read : parseIP t = some a) : parseAddr t = some ⟨a, []⟩ := by
  unfold parseIP at read
  split at read
  next parsed =>
    rw [parsed, some.inj read]
  · cases read

theorem parsePrefixed_some (read : parsePrefixed t = some (a, bits)) :
    parseIP (t.takeWhile (· ≠ '/')) = some a ∧ '/' ∈ t ∧
      ∃ digits, t.dropWhile (· ≠ '/') = '/' :: digits ∧ Digits digits := by
  unfold parsePrefixed at read
  split at read
  next mark digits x behind front =>
    split at read
    next good =>
      obtain ⟨rfl, -⟩ := Prod.mk.inj (some.inj read)
      have slash : mark = '/' := by
        have head := head?_dropWhile_not (fun d => decide (d ≠ '/')) t
        rw [behind] at head
        simpa using head
      subst slash
      refine ⟨front, ?_, digits, behind, List.all_eq_true.mp good.2.1⟩
      rw [← takeWhile_append_dropWhile (p := fun d => decide (d ≠ '/')) (l := t), behind]
      exact mem_append_right _ mem_cons_self
    · cases read
  · cases read

theorem parseCIDR_withMask (named : Names c a bits) (colon : ':' ∉ c) :
    parseCIDR (withMask c) = some ⟨a.mask bits, bits⟩ ∧ ∃ x, a = .v4 x := by
  rcases named with ⟨read, rfl⟩ | read
  · rcases parseAddr_cases (parseIP_parseAddr read) with ⟨-, x, octets, same⟩ | ⟨marked, -⟩
    · obtain rfl : a = .v4 x := congrArg ScopedAddress.address same
      refine ⟨?_, x, rfl⟩
      have slash : '/' ∉ c := not_mem_of_parseIPv4 octets (by decide) (by decide)
      have other : ∀ d ∈ c, decide (d ≠ '/') = true := fun d member => decide_eq_true fun same => slash (same ▸ member)
      have mask : c ++ "/32".toList = c ++ '/' :: "32".toList := rfl
      have front : (c ++ "/32".toList).takeWhile (· ≠ '/') = c := by
        rw [mask, takeWhile_append_of_pos other, takeWhile_cons_of_neg (by simp), append_nil]
      have back : (c ++ "/32".toList).dropWhile (· ≠ '/') = '/' :: "32".toList := by
        rw [mask, dropWhile_append_of_pos other, dropWhile_cons_of_neg (by simp)]
      rw [withMask, if_neg slash, if_neg colon, parseCIDR, parsePrefixed, front, back, read]
      dsimp only
      have whole : "32".toList ≠ [] ∧ "32".toList.all Char.isDigit = true ∧ number "32".toList ≤ 32 := by decide
      rw [IpAddress.width, if_pos whole]
      rfl
    · exact absurd marked colon
  · obtain ⟨front, slash, -⟩ := parsePrefixed_some read
    rw [withMask, if_pos slash, parseCIDR, read]
    refine ⟨rfl, ?_⟩
    rcases parseAddr_cases (parseIP_parseAddr front) with ⟨-, x, -, same⟩ | ⟨marked, -⟩
    · exact ⟨x, congrArg ScopedAddress.address same⟩
    · exact absurd (takeWhile_subset _ marked) colon

theorem contains_mask (x : IPv4) (bits : ℕ) (ip : IpAddress) :
    Subnet.contains ⟨IpAddress.mask bits (.v4 x), bits⟩ ip = true ↔ InPrefix (.v4 x) bits ip := by
  simp only [Subnet.contains, Subnet.denoted, IpAddress.mask, InPrefix]
  cases ip.denoted with
  | v4 y =>
    simp only [decide_eq_true_eq, IpAddress.v4.injEq, exists_eq_left']
    exact inNetwork_maskBits bits x y
  | v6 y => simp

theorem parseIP_unmarked (unmarked : addressMark t = none) : parseIP t = none := by
  rw [parseIP, parseAddr, unmarked]

theorem addressMark_takeWhile (unmarked : addressMark t = none) (q : Char → Bool) :
    addressMark (t.takeWhile q) = none :=
  find?_eq_none.mpr fun d member => find?_eq_none.mp unmarked d (takeWhile_subset _ member)

theorem addressMark_front (named : Names c a bits) (colon : ':' ∈ c) :
    addressMark ((c.takeWhile (· ≠ ':')).takeWhile (· ≠ '/')) = none := by
  rcases named with ⟨read, -⟩ | read
  · rcases parseAddr_cases (parseIP_parseAddr read) with ⟨plain, -⟩ | ⟨-, -, unmarked⟩
    · exact absurd colon plain
    · exact addressMark_takeWhile unmarked _
  · obtain ⟨front, -, digits, behind, plain⟩ := parsePrefixed_some read
    have marked : ':' ∈ c.takeWhile (· ≠ '/') := by
      rw [← takeWhile_append_dropWhile (p := fun d => decide (d ≠ '/')) (l := c), behind] at colon
      rcases mem_append.mp colon with inside | outside
      · exact inside
      · rcases mem_cons.mp outside with same | digit
        · cases same
        · exact absurd (plain ':' digit) (by decide)
    rcases parseAddr_cases (parseIP_parseAddr front) with ⟨unmarked, -⟩ | ⟨-, -, unmarked⟩
    · exact absurd marked unmarked
    · rw [takeWhile_takeWhile] at unmarked ⊢
      rw [← unmarked]
      refine congrArg (fun q => addressMark (c.takeWhile q)) (funext fun d => ?_)
      exact decide_eq_decide.mpr and_comm

theorem parseCIDR_colon (named : Names c a bits) (colon : ':' ∈ c) :
    parseCIDR (withMask (c.takeWhile (· ≠ ':'))) = none := by
  have unmarked := addressMark_front named colon
  generalize front_is : c.takeWhile (· ≠ ':') = front at unmarked ⊢
  have plain : ':' ∉ front := by
    intro member
    rw [← front_is] at member
    simpa using mem_takeWhile_imp member
  have same : (withMask front).takeWhile (· ≠ '/') = front.takeWhile (· ≠ '/') := by
    by_cases slash : '/' ∈ front
    · rw [withMask, if_pos slash]
    · have other : ∀ d ∈ front, decide (d ≠ '/') = true := fun d member =>
        decide_eq_true fun same => slash (same ▸ member)
      have mask : front ++ "/32".toList = front ++ '/' :: "32".toList := rfl
      rw [withMask, if_neg slash, if_neg plain, mask, takeWhile_append_of_pos other,
        takeWhile_cons_of_neg (by simp), append_nil, takeWhile_eq_self_iff.mpr other]
  rw [parseCIDR, parsePrefixed, same, parseIP_unmarked unmarked]
  cases (withMask front).dropWhile (· ≠ '/') <;> rfl

theorem ruleReadsBack_iff (named : Names c a bits) (valid : p.Valid) : RuleReadsBack c a bits p ↔ ':' ∉ c := by
  constructor
  · rintro ⟨rule, read, -⟩ colon
    obtain ⟨rest, split⟩ := cut_of_mem colon (':' :: p.text)
    rw [parseAllowlistRule, split] at read
    dsimp only at read
    rw [parseCIDR_colon named colon] at read
    cases read
  · intro colon
    obtain ⟨network, x, rfl⟩ := parseCIDR_withMask named colon
    obtain ⟨rule, read, permits⟩ := parsePorts_text ⟨IpAddress.mask bits (.v4 x), bits⟩ valid
    refine ⟨rule, ?_, fun ip port => ?_⟩
    · rw [parseAllowlistRule, cut_append colon]
      dsimp only
      rw [network]
      exact read
    · rw [permits, contains_mask]

end Rules

/-- What is dialed behind the gate is good exactly for the hosts described, and a rule is read as what its text says
exactly when its address is written without colons. -/
theorem gate_iff (host : Text) (port : ℤ) (isVNC : Bool) (rules : List AllowlistRule) (c : Text) (a : IpAddress)
    (bits : ℕ) (p : PortForm) :
    (NeverForbidden host port isVNC rules ↔ GateSafe host port isVNC rules) ∧
      (Names c a bits → p.Valid → (RuleReadsBack c a bits p ↔ ':' ∉ c)) :=
  ⟨neverForbidden_iff, ruleReadsBack_iff⟩

/-- `10.0.0.0/8:*`. -/
def officeRule : AllowlistRule := ⟨⟨.v4 (ipv4 10 0 0 0), 8⟩, 0, 0, true⟩

def printerAddress : IpAddress := .v4 (ipv4 10 0 0 5)

def documentationPrefix : IpAddress := .v6 (BitVec.ofNat 128 (0x20010db8 * 2 ^ 96))

theorem office_gate :
    NeverForbidden "10.0.0.5".toList 443 false [officeRule] ∧
      RuleReadsBack "10.0.0.5/8".toList printerAddress 8 (.range 80 443) := by
  obtain ⟨gate, rule⟩ := gate_iff "10.0.0.5".toList 443 false [officeRule] "10.0.0.5/8".toList printerAddress 8
    (.range 80 443)
  constructor
  · refine gate.mpr ⟨?_, ?_⟩
    · intro a parsed _ _ _
      have read : parseAddr "10.0.0.5".toList = some ⟨printerAddress, []⟩ := by decide +kernel
      rw [some.inj (parsed.symm.trans read)]
      decide
    · intro _ unparsed
      exact absurd unparsed (by decide +kernel)
  · have valid : PortForm.Valid (.range 80 443) := ⟨by decide, by decide, by decide⟩
    exact (rule (.inr (by decide +kernel)) valid).mpr (by decide)

/-- A name whose answers change leads to this machine, and a rule for an IPv6 network is not read. -/
theorem gate_open :
    parseAllowlistRule "10.0.0.0/8:*".toList = .ok officeRule ∧
      ¬NeverForbidden "intranet".toList 443 false [officeRule] ∧
      Names "2001:db8::/32".toList documentationPrefix 32 ∧
      ¬RuleReadsBack "2001:db8::/32".toList documentationPrefix 32 (.single 443) := by
  refine ⟨by decide +kernel, fun never => ?_, .inr (by decide +kernel), ?_⟩
  · have local_target := never [.v4 (ipv4 8 8 8 8)] [printerAddress] [.v4 (ipv4 127 0 0 2)] (cons_ne_nil _ _)
      (cons_ne_nil _ _) (cons_ne_nil _ _) (by decide +kernel) (by decide +kernel) (.v4 (ipv4 127 0 0 2))
      (by decide +kernel)
    exact local_target.1 (by decide)
  · rintro ⟨rule, read, -⟩
    have refused : parseAllowlistRule ("2001:db8::/32".toList ++ ':' :: PortForm.text (.single 443)) =
        .error (.invalidCIDR "2001/32".toList) := by decide +kernel
    rw [refused] at read
    cases read

end RemudaRmm.Endpoint
