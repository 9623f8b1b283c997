import RemudaRmm.Foundation.InternetAddress

/-! The static check of a URL that a tenant has configured (`ssrfGuard.ts`): which hosts it refuses, and the internal
addresses it lets through. The parser of the platform is a parameter; `Url.hostname` is the text of the host it has
read. -/
namespace RemudaRmm.Security
open Foundation List IpAddress
variable {mode : SsrfMode} {a b : ℕ} {x : IPv6} {y : IPv4}

inductive SsrfMode where
  | strictHttps
  | onPremHttp
  | onPremStrict
  deriving DecidableEq

structure SsrfGuardOptions where
  mode : SsrfMode
  hostnameAllowlist : Option (List Text)

structure SsrfGuardResult where
  ok : Bool
  reason : Option String

/-- A host is an address, or else a domain or an opaque text. -/
inductive Host where
  | name (t : Text)
  | ip (a : IpAddress)

structure Url where
  protocol : String
  host : Host

def Url.hostname (url : Url) : Text :=
  match url.host with
  | .name t => t
  | .ip (.v4 x) => (v4 x).text
  | .ip (.v6 x) => '[' :: (v6 x).text ++ [']']

def METADATA_HOSTS : List Text :=
  ["169.254.169.254".toList, "169.254.170.2".toList, "100.100.100.200".toList, "metadata.google.internal".toList,
    "metadata.azure.com".toList]

def LOOPBACK_HOSTNAMES : List Text := ["localhost".toList, "ip6-localhost".toList, "ip6-loopback".toList]

def isLoopbackIp (addr : Text) : Bool :=
  startsWith "127." addr || addr == "::1".toList || addr == "0:0:0:0:0:0:0:1".toList ||
    matchesFront (literal "::ffff:127.") addr ||
    matchesFront (literal "::ffff:7f" ++ [isHexDigit, isHexDigit] ++ literal ":") addr

def isLinkLocalIp (addr : Text) : Bool :=
  startsWith "169.254." addr || matchesFront (literal "fe" ++ [oneOf "89ab", isHexDigit] ++ literal ":") addr ||
    matchesFront (literal "fe" ++ [oneOf "89ab"] ++ literal ":") addr

def mappedPrivate : List (List (Char → Bool)) :=
  [literal "::ffff:10.", literal "::ffff:192.168.", literal "::ffff:172.1" ++ [oneOf "6789"] ++ literal ".",
    literal "::ffff:172.2" ++ [Char.isDigit] ++ literal ".", literal "::ffff:172.3" ++ [oneOf "01"] ++ literal "."]

def isPrivateIp (addr : Text) : Bool :=
  startsWith "10." addr || startsWith "192.168." addr ||
    (numberAfter "172." addr).any (fun o => 16 ≤ o && o ≤ 31) ||
    (numberAfter "100." addr).any (fun o => 64 ≤ o && o ≤ 127) ||
    matchesFront (literal "f" ++ [oneOf "cd", isHexDigit, isHexDigit] ++ literal ":") addr ||
    mappedPrivate.any (matchesFront · addr) ||
    matchesFront (literal "::ffff:0a" ++ [isHexDigit, isHexDigit] ++ literal ":") addr ||
    matchesFront (literal "::ffff:c0a8:") addr ||
    matchesFront (literal "::ffff:ac1" ++ [isHexDigit] ++ literal ":") addr

def isUnspecifiedIp (addr : Text) : Bool :=
  addr == "0.0.0.0".toList || addr == "::".toList || addr == "0:0:0:0:0:0:0:0".toList

def stripBrackets (t : Text) : Text :=
  let t := if t.head? = some '[' then t.tail else t
  if t.getLast? = some ']' then t.dropLast else t

def SsrfMode.refusesPrivate : SsrfMode → Bool
  | .strictHttps | .onPremStrict => true
  | .onPremHttp => false

def refused (reason : String) : SsrfGuardResult := ⟨false, some reason⟩

def refusedHost (hostname : Text) (verdict : String) : SsrfGuardResult :=
  refused ("hostname " ++ String.ofList hostname ++ verdict)

def refusedIp (mode : SsrfMode) (addr : Text) : Option SsrfGuardResult :=
  if isLoopbackIp addr then some (refusedHost addr " is a loopback IP")
  else if isLinkLocalIp addr then some (refusedHost addr " is a link-local IP (cloud metadata range)")
  else if isUnspecifiedIp addr then some (refusedHost addr " is the unspecified address")
  else if mode.refusesPrivate ∧ isPrivateIp addr then some (refusedHost addr " is a private/RFC1918 IP")
  else none

/-- The list, when it is there and not empty, has an end of the host. -/
def allowlisted (allowlist : Option (List Text)) (hostname : Text) : Bool :=
  match allowlist with
  | none => true
  | some list => list.isEmpty || list.any fun suffix => (suffix.map Char.toLower).isSuffixOf hostname

def Url.hostnameLower (url : Url) : Text := stripBrackets (url.hostname.map Char.toLower)

def checkSsrfSafe (parseUrl : Text → Option Url) (rawUrl : Text) (opts : SsrfGuardOptions) : SsrfGuardResult :=
  match parseUrl rawUrl with
  | none => refused "URL is malformed"
  | some parsed =>
    if opts.mode = .strictHttps ∧ parsed.protocol ≠ "https:" then refused "URL must use https://"
    else if parsed.protocol ≠ "http:" ∧ parsed.protocol ≠ "https:" then
      refused ("URL protocol " ++ parsed.protocol ++ " is not allowed (must be http or https)")
    else if parsed.hostnameLower = [] then refused "URL has no hostname"
    else if parsed.hostnameLower ∈ LOOPBACK_HOSTNAMES then
      refusedHost parsed.hostnameLower " is a loopback alias"
    else if parsed.hostnameLower ∈ METADATA_HOSTS then
      refusedHost parsed.hostnameLower " is a cloud-metadata address"
    else
      match if 0 < isIP parsed.hostnameLower then refusedIp opts.mode parsed.hostnameLower else none with
      | some result => result
      | none =>
        if allowlisted opts.hostnameAllowlist parsed.hostnameLower then ⟨true, none⟩
        else refused ("hostname must end with one of: " ++
          ", ".intercalate ((opts.hostnameAllowlist.getD []).map String.ofList))

def isSsrfSafe (parseUrl : Text → Option Url) (rawUrl : Text) (opts : SsrfGuardOptions) : Bool :=
  (checkSsrfSafe parseUrl rawUrl opts).ok

def schemeAllowed (mode : SsrfMode) (protocol : String) : Prop :=
  protocol = "https:" ∨ (protocol = "http:" ∧ mode ≠ .strictHttps)

/-- No check of an address refuses it. -/
structure AdmittedIp (mode : SsrfMode) (addr : Text) : Prop where
  loopback : isLoopbackIp addr = false
  linkLocal : isLinkLocalIp addr = false
  unspecified : isUnspecifiedIp addr = false
  privateIp : mode.refusesPrivate = true → isPrivateIp addr = false

theorem refusedIp_eq_none {addr : Text} : refusedIp mode addr = none ↔ AdmittedIp mode addr := by
  constructor
  · intro none
    unfold refusedIp at none
    split_ifs at none with loopback linkLocal unspecified privateIp
    refine ⟨?_, ?_, ?_, fun strict => ?_⟩
    · exact Bool.eq_false_of_not_eq_true loopback
    · exact Bool.eq_false_of_not_eq_true linkLocal
    · exact Bool.eq_false_of_not_eq_true unspecified
    · exact Bool.eq_false_of_not_eq_true fun matched => privateIp ⟨strict, matched⟩
  · intro admitted
    unfold refusedIp
    rw [if_neg (by rw [admitted.loopback]; decide), if_neg (by rw [admitted.linkLocal]; decide),
      if_neg (by rw [admitted.unspecified]; decide), if_neg]
    rintro ⟨strict, matched⟩
    rw [admitted.privateIp strict] at matched
    cases matched

theorem refusedIp_ok {addr : Text} {result : SsrfGuardResult}
    (found : refusedIp mode addr = some result) : result.ok = false := by
  unfold refusedIp at found
  split_ifs at found <;> cases found <;> rfl

theorem text_ne_nil (a : IpAddress) : a.text ≠ [] := by
  intro empty
  have valid := isIP_text a
  rw [empty] at valid
  exact absurd valid (by decide)

theorem text_map_toLower (a : IpAddress) : a.text.map Char.toLower = a.text := by
  have lower : ∀ c ∈ '.' :: ':' :: hexDigits, c.toLower = c := forall_mem_of_all (by decide)
  rw [map_congr_left (g := id) fun c member => lower c (mem_text member), List.map_id]

theorem text_not_mem_loopback (a : IpAddress) : a.text ∉ LOOPBACK_HOSTNAMES := by
  intro listed
  have foreign : ∀ t ∈ LOOPBACK_HOSTNAMES, t.all ('.' :: ':' :: hexDigits).contains = false := by decide
  have own : a.text.all ('.' :: ':' :: hexDigits).contains = true :=
    List.all_eq_true.mpr fun c member => contains_iff_mem.mpr (mem_text member)
  exact absurd (own.symm.trans (foreign _ listed)) (by decide)

theorem hostnameLower_ip {url : Url} {a : IpAddress} (host : url.host = .ip a) : url.hostnameLower = a.text := by
  have unbracketed : ∀ c ∈ '.' :: ':' :: hexDigits, c ≠ '[' ∧ c ≠ ']' := forall_mem_of_all (by decide)
  have head : a.text.head? ≠ some '[' :=
    fun same => (unbracketed _ (mem_text (mem_of_mem_head? same))).1 rfl
  have last : a.text.getLast? ≠ some ']' :=
    fun same => (unbracketed _ (mem_text (mem_of_mem_getLast? same))).2 rfl
  unfold Url.hostnameLower Url.hostname
  rw [host]
  cases a with
  | v4 x =>
    dsimp only
    rw [text_map_toLower, stripBrackets, if_neg head]
    exact if_neg last
  | v6 x =>
    dsimp only
    rw [map_append, map_cons, text_map_toLower]
    simp [stripBrackets]

theorem checkSsrfSafe_ip {parseUrl : Text → Option Url} {rawUrl : Text} (opts : SsrfGuardOptions) {url : Url}
    {a : IpAddress} (parsed : parseUrl rawUrl = some url) (host : url.host = .ip a) :
    (checkSsrfSafe parseUrl rawUrl opts).ok = true ↔
      schemeAllowed opts.mode url.protocol ∧ a.text ∉ METADATA_HOSTS ∧ AdmittedIp opts.mode a.text ∧
        allowlisted opts.hostnameAllowlist a.text = true := by
  unfold checkSsrfSafe schemeAllowed
  rw [parsed]
  dsimp only
  rw [hostnameLower_ip host, if_neg (text_ne_nil a), if_neg (text_not_mem_loopback a), if_pos (isIP_text a),
    ← refusedIp_eq_none]
  cases found : refusedIp opts.mode a.text with
  | some result =>
    simp only [reduceCtorEq, false_and, and_false, iff_false, Bool.not_eq_true]
    split_ifs
    · rfl
    · rfl
    · rfl
    · exact refusedIp_ok found
  | none =>
    dsimp only
    split_ifs with https scheme metadata listed
    · simp only [refused, Bool.false_eq_true, false_iff, not_and]
      rintro (secure | plain)
      · exact absurd secure https.2
      · exact absurd https.1 plain.2
    · simp only [refused, Bool.false_eq_true, false_iff, not_and]
      rintro (secure | plain)
      · exact absurd secure scheme.2
      · exact absurd plain.1 scheme.1
    · simp [refusedHost, refused, metadata]
    · have allowed : url.protocol = "https:" ∨ (url.protocol = "http:" ∧ opts.mode ≠ .strictHttps) := by
        by_cases secure : url.protocol = "https:"
        · exact .inl secure
        · refine .inr ⟨?_, fun strict => https ⟨strict, secure⟩⟩
          by_contra plain
          exact scheme ⟨plain, secure⟩
      simp [allowed, metadata, listed]
    · simp [refused, listed]

def metadataAddresses : List IPv4 := [ipv4 169 254 169 254, ipv4 169 254 170 2, ipv4 100 100 100 200]

/-- The addresses that no mode may reach, and those that the strict modes may not. -/
def InternalIn (mode : SsrfMode) : IpAddress → Prop
  | .v4 x =>
    InNetwork (ipv4 127 0 0 0) 8 x ∨ InNetwork (ipv4 169 254 0 0) 16 x ∨ x = ipv4 0 0 0 0 ∨ x ∈ metadataAddresses ∨
      (mode.refusesPrivate = true ∧
        (InNetwork (ipv4 10 0 0 0) 8 x ∨ InNetwork (ipv4 172 16 0 0) 12 x ∨ InNetwork (ipv4 192 168 0 0) 16 x ∨
          InNetwork (ipv4 100 64 0 0) 10 x))
  | .v6 x =>
    x = 0 ∨ x = 1 ∨ InNetwork (ipv6Front 0xfe80) 10 x ∨ (mode.refusesPrivate = true ∧ InNetwork (ipv6Front 0xfc00) 7 x)

def Internal (mode : SsrfMode) (a : IpAddress) : Prop := InternalIn mode a.denoted

/-- The internal addresses that no pattern of the guard finds when they are carried in an IPv6 address: the
patterns for them are missing, and that for `10.0.0.0/8` expects a zero which the text does not have. -/
def Unmatched (mode : SsrfMode) (y : IPv4) : Prop :=
  InNetwork (ipv4 169 254 0 0) 16 y ∨ y = ipv4 0 0 0 0 ∨ y ∈ metadataAddresses ∨
    (mode.refusesPrivate = true ∧ (InNetwork (ipv4 10 0 0 0) 8 y ∨ InNetwork (ipv4 100 64 0 0) 10 y))

def Missed (mode : SsrfMode) (a : IpAddress) : Prop :=
  ∃ x y, a = .v6 x ∧ IPv6.mapped x = some y ∧ Unmatched mode y

theorem text_v4_one (front : String) {x : IPv4} (first : x.toNat / 2 ^ 24 = a)
    (same : front.toList = decimal a ++ ['.']) :
    ∃ rest, (v4 x).text = front.toList ++ (decimal (x.toNat / 2 ^ 16 % 256) ++ '.' :: rest) := by
  refine ⟨dotted [x.toNat / 2 ^ 8 % 256, x.toNat % 256], ?_⟩
  rw [text, IPv4.octets, dotted_cons_cons, dotted_cons_cons, same, first, append_assoc]
  rfl

theorem text_v4_two (front : String) {x : IPv4} (octets : x.toNat / 2 ^ 16 = a * 256 + b)
    (small : b < 256) (same : front.toList = decimal a ++ '.' :: (decimal b ++ ['.'])) :
    ∃ rest, (v4 x).text = front.toList ++ rest := by
  have first : x.toNat / 2 ^ 24 = a := by omega
  have second : x.toNat / 2 ^ 16 % 256 = b := by omega
  refine ⟨dotted [x.toNat / 2 ^ 8 % 256, x.toNat % 256], ?_⟩
  rw [text, IPv4.octets, dotted_cons_cons, dotted_cons_cons, same, first, second]
  simp only [append_assoc, cons_append, nil_append]

theorem text_mem_metadata {x : IPv4} (metadata : x ∈ metadataAddresses) : (v4 x).text ∈ METADATA_HOSTS := by
  simp only [metadataAddresses, mem_cons, not_mem_nil, or_false] at metadata
  rcases metadata with rfl | rfl | rfl
  · exact mem_cons_self
  · exact mem_cons_of_mem _ mem_cons_self
  · exact mem_cons_of_mem _ (mem_cons_of_mem _ mem_cons_self)

theorem refused_v4 {x : IPv4} (internal : InternalIn mode (.v4 x)) :
    (v4 x).text ∈ METADATA_HOSTS ∨ ¬AdmittedIp mode (v4 x).text := by
  rcases internal with loopback | linkLocal | rfl | metadata | ⟨strict, network⟩
  · obtain ⟨rest, text⟩ := text_v4_one "127." (show x.toNat / 2 ^ 24 = 127 from loopback) rfl
    have found : isLoopbackIp (v4 x).text = true := by rw [text, isLoopbackIp, startsWith_append]; rfl
    exact .inr fun admitted => absurd (found.symm.trans admitted.loopback) (by decide)
  · obtain ⟨rest, text⟩ :=
      text_v4_two "169.254." (show x.toNat / 2 ^ 16 = 169 * 256 + 254 from linkLocal) (by decide) rfl
    have found : isLinkLocalIp (v4 x).text = true := by rw [text, isLinkLocalIp, startsWith_append]; rfl
    exact .inr fun admitted => absurd (found.symm.trans admitted.linkLocal) (by decide)
  · exact .inr fun admitted => absurd admitted.unspecified (by decide)
  · exact .inl (text_mem_metadata metadata)
  · have found : isPrivateIp (v4 x).text = true := by
      rcases network with ten | middle | homely | shared
      · obtain ⟨rest, text⟩ := text_v4_one "10." (show x.toNat / 2 ^ 24 = 10 from ten) rfl
        simp only [text, isPrivateIp, startsWith_append, Bool.true_or]
      · have network : x.toNat / 2 ^ 20 = 172 * 16 + 1 := middle
        have second : 16 ≤ x.toNat / 2 ^ 16 % 256 ∧ x.toNat / 2 ^ 16 % 256 ≤ 31 := by omega
        obtain ⟨rest, text⟩ := text_v4_one "172." (show x.toNat / 2 ^ 24 = 172 by omega) rfl
        simp only [text, isPrivateIp, numberAfter_decimal, Option.any_some, second, decide_true, Bool.and_self,
          Bool.or_true, Bool.true_or]
      · obtain ⟨rest, text⟩ :=
          text_v4_two "192.168." (show x.toNat / 2 ^ 16 = 192 * 256 + 168 from homely) (by decide) rfl
        simp only [text, isPrivateIp, startsWith_append, Bool.or_true, Bool.true_or]
      · have network : x.toNat / 2 ^ 22 = 100 * 4 + 1 := shared
        have second : 64 ≤ x.toNat / 2 ^ 16 % 256 ∧ x.toNat / 2 ^ 16 % 256 ≤ 127 := by omega
        obtain ⟨rest, text⟩ := text_v4_one "100." (show x.toNat / 2 ^ 24 = 100 by omega) rfl
        simp only [text, isPrivateIp, numberAfter_decimal, Option.any_some, second, decide_true, Bool.and_self,
          Bool.or_true, Bool.true_or]
    exact .inr fun admitted => absurd (found.symm.trans (admitted.privateIp strict)) (by decide)

theorem text_v6_front (group : x.toNat / 2 ^ 112 = a * 256 + b) (positive : 0 < a) (small : b < 256) :
    ∃ rest, (v6 x).text = hexadecimal a ++ (Nat.digitChar (b / 16) :: Nat.digitChar (b % 16) :: ':' :: rest) := by
  have nonzero : x.toNat / 2 ^ 112 ≠ 0 := by omega
  obtain ⟨rest, text⟩ := compressed_front (m := x.toNat / 2 ^ 96 % 65536) nonzero
    [x.toNat / 2 ^ 80 % 65536, x.toNat / 2 ^ 64 % 65536, x.toNat / 2 ^ 48 % 65536, x.toNat / 2 ^ 32 % 65536,
      x.toNat / 2 ^ 16 % 65536, x.toNat % 65536]
  refine ⟨rest, ?_⟩
  rw [IpAddress.text, IPv6.pieces, text, group, hexadecimal_octets positive small, append_assoc]
  rfl

theorem refused_v6 (internal : InternalIn mode (.v6 x)) : ¬AdmittedIp mode (v6 x).text := by
  intro admitted
  rcases internal with rfl | rfl | linkLocal | ⟨strict, unique⟩
  · exact absurd admitted.unspecified (by decide)
  · exact absurd admitted.loopback (by decide)
  · have network : x.toNat / 2 ^ 118 = 254 * 4 + 2 := linkLocal
    obtain ⟨b, bounds, group⟩ : ∃ b, (128 ≤ b ∧ b < 192) ∧ x.toNat / 2 ^ 112 = 254 * 256 + b :=
      ⟨x.toNat / 2 ^ 112 % 256, by omega, by omega⟩
    obtain ⟨rest, text⟩ := text_v6_front group (by decide) (by omega)
    have third : ∀ d < 12, 8 ≤ d → oneOf "89ab" (Nat.digitChar d) = true := by decide
    have matched := matchesFront_classes "fe" ":" rest (.cons (third (b / 16) (by omega) (by omega))
      (.cons (isHexDigit_digitChar (b % 16) (by omega)) .nil))
    have found : isLinkLocalIp (v6 x).text = true := by
      rw [text, isLinkLocalIp]
      simp only [Bool.or_eq_true]
      exact .inl (.inr matched)
    exact absurd (found.symm.trans admitted.linkLocal) (by decide)
  · have network : x.toNat / 2 ^ 121 = 126 := unique
    obtain ⟨a, b, sort, small, group⟩ : ∃ a b, (a = 252 ∨ a = 253) ∧ b < 256 ∧ x.toNat / 2 ^ 112 = a * 256 + b :=
      ⟨x.toNat / 2 ^ 120, x.toNat / 2 ^ 112 % 256, by omega, by omega, by omega⟩
    obtain ⟨rest, text⟩ := text_v6_front group (by omega) small
    have front : ∃ c, oneOf "cd" c = true ∧ hexadecimal a = 'f' :: [c] := by
      rcases sort with rfl | rfl
      · exact ⟨'c', by decide, rfl⟩
      · exact ⟨'d', by decide, rfl⟩
    obtain ⟨c, second, digits⟩ := front
    have matched := matchesFront_classes "f" ":" rest (.cons second (.cons (isHexDigit_digitChar (b / 16) (by omega))
      (.cons (isHexDigit_digitChar (b % 16) (by omega)) .nil)))
    have found : isPrivateIp (v6 x).text = true := by
      rw [text, digits, isPrivateIp]
      simp only [Bool.or_eq_true]
      exact .inl (.inl (.inl (.inl (.inr matched))))
    exact absurd (found.symm.trans (admitted.privateIp strict)) (by decide)

theorem text_mapped_octets (carried : IPv6.mapped x = some y)
    (group : y.toNat / 2 ^ 16 = a * 256 + b) (positive : 0 < a) (small : b < 256) :
    ∃ rest, (v6 x).text = "::ffff:".toList ++
      (hexadecimal a ++ (Nat.digitChar (b / 16) :: Nat.digitChar (b % 16) :: ':' :: rest)) := by
  refine ⟨hexadecimal (y.toNat % 65536), ?_⟩
  rw [text_mapped carried, group, hexadecimal_octets positive small, append_assoc]
  rfl

theorem refused_mapped (carried : IPv6.mapped x = some y)
    (internal : InternalIn mode (.v4 y)) (matched : ¬Unmatched mode y) : ¬AdmittedIp mode (v6 x).text := by
  intro admitted
  rcases internal with loopback | linkLocal | zero | metadata | ⟨strict, ten | middle | homely | shared⟩
  · have network : y.toNat / 2 ^ 24 = 127 := loopback
    obtain ⟨b, small, group⟩ : ∃ b < 256, y.toNat / 2 ^ 16 = 127 * 256 + b :=
      ⟨y.toNat / 2 ^ 16 % 256, by omega, by omega⟩
    obtain ⟨rest, text⟩ := text_mapped_octets carried group (by decide) small
    have found : isLoopbackIp (v6 x).text = true := by
      have hex := matchesFront_classes "::ffff:7f" ":" rest (.cons (isHexDigit_digitChar (b / 16) (by omega))
        (.cons (isHexDigit_digitChar (b % 16) (by omega)) .nil))
      rw [text, isLoopbackIp]
      simp only [Bool.or_eq_true]
      exact .inr hex
    exact absurd (found.symm.trans admitted.loopback) (by decide)
  · exact matched (.inl linkLocal)
  · exact matched (.inr (.inl zero))
  · exact matched (.inr (.inr (.inl metadata)))
  · exact matched (.inr (.inr (.inr ⟨strict, .inl ten⟩)))
  · have network : y.toNat / 2 ^ 20 = 172 * 16 + 1 := middle
    obtain ⟨b, bounds, group⟩ : ∃ b, b / 16 = 1 ∧ y.toNat / 2 ^ 16 = 172 * 256 + b :=
      ⟨y.toNat / 2 ^ 16 % 256, by omega, by omega⟩
    obtain ⟨rest, text⟩ := text_mapped_octets carried group (by decide) (by omega)
    have found : isPrivateIp (v6 x).text = true := by
      have hex := matchesFront_classes "::ffff:ac1" ":" rest (.cons (isHexDigit_digitChar (b % 16) (by omega)) .nil)
      rw [text, bounds, isPrivateIp]
      simp only [Bool.or_eq_true]
      exact .inr hex
    exact absurd (found.symm.trans (admitted.privateIp strict)) (by decide)
  · obtain ⟨rest, text⟩ := text_mapped_octets carried
      (show y.toNat / 2 ^ 16 = 192 * 256 + 168 from homely) (by decide) (by decide)
    have found : isPrivateIp (v6 x).text = true := by
      have hex := matchesFront_literal "::ffff:c0a8:" [] rest
      rw [append_nil] at hex
      rw [text, isPrivateIp]
      simp only [Bool.or_eq_true]
      exact .inl (.inr hex)
    exact absurd (found.symm.trans (admitted.privateIp strict)) (by decide)
  · exact matched (.inr (.inr (.inr ⟨strict, .inr shared⟩)))

theorem admitted_of_unseen {t : Text} (loopback : isLoopbackIp ("::ffff:".toList ++ t) = false)
    (privateIp : isPrivateIp ("::ffff:".toList ++ t) = false) :
    "::ffff:".toList ++ t ∉ METADATA_HOSTS ∧ AdmittedIp mode ("::ffff:".toList ++ t) := by
  refine ⟨?_, loopback, rfl, rfl, fun _ => privateIp⟩
  intro listed
  have foreign : ∀ host ∈ METADATA_HOSTS, host.head? ≠ some ':' := by decide
  exact foreign _ listed rfl

theorem isPrivateIp_ten (c d : Char) (rest : Text) :
    isPrivateIp ("::ffff:".toList ++ ('a' :: c :: d :: ':' :: rest)) = false := by
  have last : matchesFront (literal "::ffff:ac1" ++ [isHexDigit] ++ literal ":")
      ("::ffff:".toList ++ ('a' :: c :: d :: ':' :: rest)) = (c.toLower == 'c' && (d.toLower == '1' && false)) := rfl
  rw [isPrivateIp, last, Bool.and_false, Bool.and_false, Bool.or_false]
  rfl

theorem admitted_mapped (carried : IPv6.mapped x = some y) (unmatched : Unmatched mode y) :
    (v6 x).text ∉ METADATA_HOSTS ∧ AdmittedIp mode (v6 x).text := by
  rcases unmatched with linkLocal | rfl | metadata | ⟨strict, ten | shared⟩
  · obtain ⟨rest, text⟩ := text_mapped_octets carried
      (show y.toNat / 2 ^ 16 = 169 * 256 + 254 from linkLocal) (by decide) (by decide)
    rw [text]
    exact admitted_of_unseen rfl rfl
  · rw [text_mapped carried]
    exact admitted_of_unseen rfl rfl
  · rw [text_mapped carried]
    simp only [metadataAddresses, mem_cons, not_mem_nil, or_false] at metadata
    rcases metadata with rfl | rfl | rfl <;> exact admitted_of_unseen rfl rfl
  · have network : y.toNat / 2 ^ 24 = 10 := ten
    obtain ⟨b, small, group⟩ : ∃ b < 256, y.toNat / 2 ^ 16 = 10 * 256 + b :=
      ⟨y.toNat / 2 ^ 16 % 256, by omega, by omega⟩
    obtain ⟨rest, text⟩ := text_mapped_octets carried group (by decide) small
    rw [text]
    exact admitted_of_unseen rfl (isPrivateIp_ten _ _ rest)
  · have network : y.toNat / 2 ^ 22 = 100 * 4 + 1 := shared
    obtain ⟨b, small, group⟩ : ∃ b < 256, y.toNat / 2 ^ 16 = 100 * 256 + b :=
      ⟨y.toNat / 2 ^ 16 % 256, by omega, by omega⟩
    obtain ⟨rest, text⟩ := text_mapped_octets carried group (by decide) small
    rw [text]
    exact admitted_of_unseen rfl rfl

theorem admitted_iff_missed {a : IpAddress} (internal : Internal mode a) :
    (a.text ∉ METADATA_HOSTS ∧ AdmittedIp mode a.text) ↔ Missed mode a := by
  constructor
  · rintro ⟨unlisted, admitted⟩
    unfold Internal at internal
    cases a with
    | v4 x => exact absurd (refused_v4 internal) (not_or.mpr ⟨unlisted, not_not_intro admitted⟩)
    | v6 x =>
      cases carried : IPv6.mapped x with
      | none =>
        simp only [denoted, carried] at internal
        exact absurd admitted (refused_v6 internal)
      | some y =>
        simp only [denoted, carried] at internal
        refine ⟨x, y, rfl, carried, ?_⟩
        by_contra matched
        exact refused_mapped carried internal matched admitted
  · rintro ⟨x, y, rfl, carried, unmatched⟩
    exact admitted_mapped carried unmatched

theorem Missed.internal {a : IpAddress} (missed : Missed mode a) : Internal mode a := by
  obtain ⟨x, y, rfl, carried, unmatched⟩ := missed
  simp only [Internal, denoted, carried]
  rcases unmatched with linkLocal | zero | metadata | ⟨strict, ten | shared⟩
  · exact .inr (.inl linkLocal)
  · exact .inr (.inr (.inl zero))
  · exact .inr (.inr (.inr (.inl metadata)))
  · exact .inr (.inr (.inr (.inr ⟨strict, .inl ten⟩)))
  · exact .inr (.inr (.inr (.inr ⟨strict, .inr (.inr (.inr shared))⟩)))

/-- A URL whose host is internal is refused, unless the guard misses the host and both the scheme and the allowlist
let it through. -/
theorem checkSsrfSafe_refuses_iff (parseUrl : Text → Option Url) (rawUrl : Text) (opts : SsrfGuardOptions) :
    (∀ url a, parseUrl rawUrl = some url → url.host = .ip a → Internal opts.mode a →
      (checkSsrfSafe parseUrl rawUrl opts).ok = false) ↔
    ∀ url a, parseUrl rawUrl = some url → url.host = .ip a → Missed opts.mode a →
      ¬schemeAllowed opts.mode url.protocol ∨ allowlisted opts.hostnameAllowlist a.text = false := by
  constructor
  · intro refuses url a parsed host missed
    have refusal := refuses url a parsed host missed.internal
    by_contra through
    rw [not_or, not_not, Bool.not_eq_false] at through
    obtain ⟨unlisted, admitted⟩ := (admitted_iff_missed missed.internal).mpr missed
    have safe := (checkSsrfSafe_ip opts parsed host).mpr ⟨through.1, unlisted, admitted, through.2⟩
    exact absurd (safe.symm.trans refusal) (by decide)
  · intro stopped url a parsed host internal
    apply Bool.eq_false_of_not_eq_true
    intro safe
    obtain ⟨scheme, unlisted, admitted, listed⟩ := (checkSsrfSafe_ip opts parsed host).mp safe
    have missed := (admitted_iff_missed internal).mp ⟨unlisted, admitted⟩
    rcases stopped url a parsed host missed with other | unlisted
    · exact other scheme
    · exact absurd (listed.symm.trans unlisted) (by decide)

/-- The URL of the metadata service, with its address written as a mapped one. -/
def mappedMetadata : Text := "https://[::ffff:169.254.169.254]/".toList

def parseMapped (rawUrl : Text) : Option Url :=
  if rawUrl = mappedMetadata then some ⟨"https:", .ip (.v6 0xffffa9fea9fe)⟩ else none

/-- The strictest mode lets the metadata service through. -/
theorem mapped_metadata_admitted :
    ¬∀ url a, parseMapped mappedMetadata = some url → url.host = .ip a → Internal .strictHttps a →
      (checkSsrfSafe parseMapped mappedMetadata ⟨.strictHttps, none⟩).ok = false := by
  intro refuses
  have carried : Internal .strictHttps (.v6 0xffffa9fea9fe) :=
    show InternalIn .strictHttps (.v4 (ipv4 169 254 169 254)) from .inr (.inl rfl)
  have refusal := refuses ⟨"https:", .ip (.v6 0xffffa9fea9fe)⟩ (.v6 0xffffa9fea9fe) (if_pos rfl) rfl carried
  exact absurd refusal (by decide)

end RemudaRmm.Security
