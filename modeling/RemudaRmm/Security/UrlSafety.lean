import RemudaRmm.Foundation.NumberText
import RemudaRmm.Security.SsrfGuard

/-! The address that a request to a tenant's URL is pinned to (`urlSafety.ts`). The parser of the platform and the
resolver are parameters; letters outside ASCII play no part in an address, and are not lowered. -/
namespace RemudaRmm.Security.UrlSafety
open Foundation List IPv4 IpAddress
variable {t : Text} {x : IPv6} {a : IpAddress}

def PRIVATE_V4_MATCHERS : List (ℕ → ℕ → ℕ → Bool) :=
  [fun a _ _ => a == 10,
    fun a _ _ => a == 127,
    fun a b _ => a == 192 && b == 168,
    fun a b _ => a == 172 && 16 ≤ b && b ≤ 31,
    fun a b _ => a == 169 && b == 254,
    fun a b _ => a == 100 && 64 ≤ b && b ≤ 127,
    fun a _ _ => a == 0,
    fun a _ _ => 224 ≤ a,
    fun a b c => a == 192 && b == 0 && c == 0,
    fun a b c => a == 192 && b == 0 && c == 2,
    fun a b _ => a == 198 && (b == 18 || b == 19),
    fun a b c => a == 198 && b == 51 && c == 100,
    fun a b c => a == 203 && b == 0 && c == 113]

def octetOf (t : Text) : Option ℕ :=
  match toNumber t with
  | some q => if q.den = 1 ∧ 0 ≤ q ∧ q ≤ 255 then some q.num.toNat else none
  | none => none

def parseV4 (ip : Text) : Option (List ℕ) :=
  let parts := ip.splitOn '.'
  if parts.length ≠ 4 then none else parts.mapM octetOf

def octetsMatch (matcher : ℕ → ℕ → ℕ → Bool) : List ℕ → Bool
  | a :: b :: c :: _ => matcher a b c
  | _ => false

def isPrivateV4 (ip : Text) : Bool :=
  match parseV4 ip with
  | none => false
  | some octets => PRIVATE_V4_MATCHERS.any (octetsMatch · octets)

def toLowerCase (t : Text) : Text := t.map Char.toLower

def isLowerHexGroup (t : Text) : Bool :=
  1 ≤ t.length && t.length ≤ 4 && t.all fun c => c.isDigit || ('a' ≤ c && c ≤ 'f')

/-- The octets behind `::ffff:`, which are written in decimal or as two groups. -/
def embeddedV4 (rest : Text) : Option Text :=
  if rest.contains '.' then (if (parseV4 rest).isSome then some rest else none)
  else
    match rest.splitOn ':' with
    | [high, low] =>
      if isLowerHexGroup high && isLowerHexGroup low then
        some (dotted [ofBase 16 high / 256 % 256, ofBase 16 high % 256, ofBase 16 low / 256 % 256, ofBase 16 low % 256])
      else none
    | _ => none

def mappedV4 (ip : Text) : Option Text :=
  let lower := toLowerCase ip
  if startsWith "::ffff:" lower then embeddedV4 (lower.drop 7) else none

def isPrivateV6 (ip : Text) : Bool :=
  let lower := toLowerCase ip
  if lower = "::".toList ∨ lower = "::1".toList then true
  else
    match mappedV4 lower with
    | some mapped => isPrivateV4 mapped
    | none =>
      startsWith "fc" lower || startsWith "fd" lower ||
        (startsWith "fe8" lower || startsWith "fe9" lower || startsWith "fea" lower || startsWith "feb" lower) ||
        startsWith "ff" lower

def isPrivateIp (ip : Text) : Bool :=
  if ip = [] then true
  else
    match mappedV4 ip with
    | some mapped => isPrivateV4 mapped
    | none => if ip.contains ':' then isPrivateV6 ip else isPrivateV4 ip

def isRfc1918V4 (ip : Text) : Bool :=
  match parseV4 ip with
  | none => false
  | some octets =>
    octetsMatch (fun a b _ => a == 10 || (a == 192 && b == 168) || (a == 172 && 16 ≤ b && b ≤ 31)) octets

def isRfc1918OrUla (ip : Text) : Bool :=
  if ip = [] then false
  else
    let lower := toLowerCase ip
    match mappedV4 lower with
    | some mapped => isRfc1918V4 mapped
    | none =>
      if lower.contains ':' then startsWith "fc" lower || startsWith "fd" lower else isRfc1918V4 lower

def isAlwaysBlockedIp (ip : Text) : Bool := if isPrivateIp ip then !isRfc1918OrUla ip else false

structure LookupAddress where
  address : Text
  family : ℕ
  deriving DecidableEq

inductive FetchError where
  | invalidUrl
  | ssrfBlocked (message : String) (hostname : Option Text) (resolvedIps : Option (List Text))
  | lookupFailed (error : String)
  | noCallback (message : String)
  deriving DecidableEq

def blockOf (allowPrivateNetwork : Bool) : Text → Bool := if allowPrivateNetwork then isAlwaysBlockedIp else isPrivateIp

def isLiteral (hostname : Text) : Bool :=
  (!hostname.isEmpty && hostname.all fun c => c.isDigit || c == '.') || hostname.contains ':'

def resolveRecords (lookup : Text → Except String (List LookupAddress)) (hostname : Text) :
    Except FetchError (List LookupAddress) :=
  if isLiteral hostname then .ok [⟨hostname, if hostname.contains ':' then 6 else 4⟩]
  else
    match lookup hostname with
    | .error e => .error (.lookupFailed e)
    | .ok [] => .error (.ssrfBlocked ("no DNS records for " ++ String.ofList hostname) (some hostname) none)
    | .ok records => .ok records

/-- The record that every lookup of the request will answer with. -/
def safeRecord (parseUrl : Text → Option Url) (lookup : Text → Except String (List LookupAddress)) (urlStr : Text)
    (allowPrivateNetwork : Bool) : Except FetchError LookupAddress :=
  match parseUrl urlStr with
  | none => .error .invalidUrl
  | some u =>
    let hostname := stripBrackets u.hostname
    let block := blockOf allowPrivateNetwork
    if u.protocol ≠ "https:" ∧ u.protocol ≠ "http:" then
      .error (.ssrfBlocked ("unsupported URL scheme: " ++ u.protocol) none none)
    else if isLiteral hostname ∧ block hostname then
      .error (.ssrfBlocked ("URL points to blocked address: " ++ String.ofList hostname) (some hostname)
        (some [hostname]))
    else
      match resolveRecords lookup hostname with
      | .error e => .error e
      | .ok records =>
        match records.find? fun r => !block r.address with
        | some record => .ok record
        | none =>
          .error (.ssrfBlocked
            ("all resolved IPs for " ++ String.ofList hostname ++ " are private/loopback/link-local")
            (some hostname) (some (records.map LookupAddress.address)))

/-- What stands in the second place of a lookup: the callback itself, or options, with the callback behind them or not. -/
inductive LookupOpts where
  | callback
  | options (all callbackGiven : Bool)

/-- The answer to the callback: one address and its family, or a list. -/
inductive LookupAnswer where
  | one (address : Text) (family : ℕ)
  | all (addresses : List LookupAddress)
  deriving DecidableEq

def LookupAnswer.addresses : LookupAnswer → List Text
  | .one address _ => [address]
  | .all addresses => addresses.map LookupAddress.address

def pinnedLookup (record : LookupAddress) : LookupOpts → Except FetchError LookupAnswer
  | .callback => .ok (.one record.address record.family)
  | .options true true => .ok (.all [record])
  | .options false true => .ok (.one record.address record.family)
  | .options _ false => .error (.noCallback "pinnedLookup invoked without a callback")

/-- The request up to the point where the socket asks for the address. -/
def safeFetch (parseUrl : Text → Option Url) (lookup : Text → Except String (List LookupAddress)) (urlStr : Text)
    (allowPrivateNetwork : Bool) (opts : LookupOpts) : Except FetchError LookupAnswer :=
  (safeRecord parseUrl lookup urlStr allowPrivateNetwork).bind (pinnedLookup · opts)

def declaredV4 : List (IPv4 × ℕ) :=
  [(ipv4 10 0 0 0, 8), (ipv4 127 0 0 0, 8), (ipv4 192 168 0 0, 16), (ipv4 172 16 0 0, 12), (ipv4 169 254 0 0, 16),
    (ipv4 100 64 0 0, 10), (ipv4 0 0 0 0, 8), (ipv4 224 0 0 0, 3), (ipv4 192 0 0 0, 24), (ipv4 192 0 2 0, 24),
    (ipv4 198 18 0 0, 15), (ipv4 198 51 100 0, 24), (ipv4 203 0 113 0, 24)]

def DeclaredV4 (x : IPv4) : Prop := ∃ network ∈ declaredV4, InNetwork network.1 network.2 x

/-- The address lies in a declared range; one that carries another is judged by that. -/
def Declared (a : IpAddress) : Prop :=
  match a.denoted with
  | .v4 x => DeclaredV4 x
  | .v6 x =>
    x = 0 ∨ x = 1 ∨ InNetwork (ipv6Front 0xfc00) 7 x ∨ InNetwork (ipv6Front 0xfe80) 10 x ∨
      InNetwork (ipv6Front 0xff00) 8 x

def Appliance (a : IpAddress) : Prop :=
  match a.denoted with
  | .v4 x => InNetwork (ipv4 10 0 0 0) 8 x ∨ InNetwork (ipv4 192 168 0 0) 16 x ∨ InNetwork (ipv4 172 16 0 0) 12 x
  | .v6 x => InNetwork (ipv6Front 0xfc00) 7 x

theorem octetOf_decimal {n : ℕ} (small : n < 256) : octetOf (decimal n) = some n := by
  have bound : (n : ℚ) ≤ 255 := by exact_mod_cast Nat.le_of_lt_succ small
  rw [octetOf, toNumber_decimal (by omega)]
  simp [bound]

theorem parseV4_dotted {octets : List ℕ} (four : octets.length = 4) (small : ∀ n ∈ octets, n < 256) :
    parseV4 (dotted octets) = some octets := by
  have parts : (dotted octets).splitOn '.' = octets.map decimal := by
    refine splitOn_intercalate '.' (fun t listed inside => ?_) (fun none => ?_)
    · obtain ⟨n, -, rfl⟩ := List.mem_map.mp listed
      exact absurd (digits_decimal n '.' inside) (by decide)
    · rw [map_eq_nil_iff.mp none] at four
      cases four
  have read : ∀ l : List ℕ, (∀ n ∈ l, n < 256) → (l.map decimal).mapM octetOf = some l := by
    intro l bounded
    induction l with
    | nil => rfl
    | cons n l ih =>
      rw [forall_mem_cons] at bounded
      rw [map_cons, mapM_cons, octetOf_decimal bounded.1, ih bounded.2]
      rfl
  rw [parseV4, parts, if_neg (by rw [length_map, four]; decide), read octets small]

theorem isPrivateV4_iff (x : IPv4) : isPrivateV4 (dotted (octets x)) = true ↔ DeclaredV4 x := by
  have bound := x.isLt
  rw [isPrivateV4, parseV4_dotted rfl (octets_lt x)]
  simp only [PRIVATE_V4_MATCHERS, octets, octetsMatch, any_cons, any_nil, Bool.or_false, Bool.or_eq_true,
    Bool.and_eq_true, beq_iff_eq, decide_eq_true_eq]
  simp only [DeclaredV4, declaredV4, exists_mem_cons_iff, not_mem_nil, false_and, exists_false, or_false]
  refine or_congr ?_ (or_congr ?_ (or_congr ?_ (or_congr ?_ (or_congr ?_ (or_congr ?_ (or_congr ?_ (or_congr ?_
    (or_congr ?_ (or_congr ?_ (or_congr ?_ (or_congr ?_ ?_)))))))))))
  · exact Iff.rfl
  · exact Iff.rfl
  · show _ ↔ x.toNat / 2 ^ 16 = 192 * 256 + 168
    omega
  · show _ ↔ x.toNat / 2 ^ 20 = 172 * 16 + 1
    omega
  · show _ ↔ x.toNat / 2 ^ 16 = 169 * 256 + 254
    omega
  · show _ ↔ x.toNat / 2 ^ 22 = 100 * 4 + 1
    omega
  · exact Iff.rfl
  · show _ ↔ x.toNat / 2 ^ 29 = 7
    omega
  · show _ ↔ x.toNat / 2 ^ 8 = 192 * 65536
    omega
  · show _ ↔ x.toNat / 2 ^ 8 = 192 * 65536 + 2
    omega
  · show _ ↔ x.toNat / 2 ^ 17 = 198 * 128 + 9
    omega
  · show _ ↔ x.toNat / 2 ^ 8 = 198 * 65536 + 51 * 256 + 100
    omega
  · show _ ↔ x.toNat / 2 ^ 8 = 203 * 65536 + 113
    omega

theorem isRfc1918V4_iff (x : IPv4) :
    isRfc1918V4 (dotted (octets x)) = true ↔
      InNetwork (ipv4 10 0 0 0) 8 x ∨ InNetwork (ipv4 192 168 0 0) 16 x ∨ InNetwork (ipv4 172 16 0 0) 12 x := by
  have bound := x.isLt
  rw [isRfc1918V4, parseV4_dotted rfl (octets_lt x)]
  simp only [octets, octetsMatch, Bool.or_eq_true, Bool.and_eq_true, beq_iff_eq, decide_eq_true_eq, or_assoc]
  refine or_congr Iff.rfl (or_congr ?_ ?_)
  · show _ ↔ x.toNat / 2 ^ 16 = 192 * 256 + 168
    omega
  · show _ ↔ x.toNat / 2 ^ 20 = 172 * 16 + 1
    omega

theorem toLowerCase_spelled (plain : ∀ c ∈ t, c ∈ '.' :: ':' :: hexDigits) : toLowerCase t = t := by
  have lower : ∀ c ∈ '.' :: ':' :: hexDigits, c.toLower = c := forall_mem_of_all (by decide)
  exact (map_congr_left fun c member => lower c (plain c member)).trans (List.map_id t)

theorem plain_dotted (octets : List ℕ) : ∀ c ∈ dotted octets, c ∈ '.' :: ':' :: hexDigits := by
  intro c member
  rcases mem_cons.mp (mem_dotted member) with rfl | digit
  · exact mem_cons_self
  · exact mem_cons_of_mem _ (mem_cons_of_mem _ digit)

theorem mappedV4_carrying {rest : Text} (lower : toLowerCase t = t) (carrying : t = "::ffff:".toList ++ rest) :
    mappedV4 t = embeddedV4 rest := by
  have front : startsWith "::ffff:" t = true := carrying ▸ startsWith_append "::ffff:" rest
  have back : t.drop 7 = rest := by
    rw [carrying]
    rfl
  rw [mappedV4, lower, if_pos front, back]

theorem mappedV4_text {y : IPv4} (carried : IPv6.mapped x = some y) :
    mappedV4 (v6 x).text = some (dotted (octets y)) := by
  have lower : toLowerCase (v6 x).text = (v6 x).text :=
    toLowerCase_spelled fun c => mem_text
  have bound := y.isLt
  have group : ∀ n < 65536, isLowerHexGroup (hexadecimal n) = true := by
    intro n small
    have short : (hexadecimal n).length ≤ 4 := (Nat.length_toDigits_le_iff (by decide) (by decide)).mpr small
    have digits : ∀ c ∈ hexDigits, (c.isDigit || ('a' ≤ c && c ≤ 'f')) = true := forall_mem_of_all (by decide)
    simp only [isLowerHexGroup, Bool.and_eq_true, decide_eq_true_eq, List.all_eq_true]
    exact ⟨⟨Nat.length_toDigits_pos, short⟩, fun c member => digits c (mem_hexDigits member)⟩
  have parts : (hexadecimal (y.toNat / 2 ^ 16) ++ ':' :: hexadecimal (y.toNat % 65536)).splitOn ':' =
      [hexadecimal (y.toNat / 2 ^ 16), hexadecimal (y.toNat % 65536)] := by
    rw [splitOn_append_cons_self, splitOn_eq_singleton (colon_not_mem_hexadecimal _),
      splitOn_eq_singleton (colon_not_mem_hexadecimal _)]
    rfl
  have undotted : (hexadecimal (y.toNat / 2 ^ 16) ++ ':' :: hexadecimal (y.toNat % 65536)).contains '.' = false := by
    rw [contains_eq_mem, decide_eq_false_iff_not]
    intro member
    rcases mem_append.mp member with front | back
    · exact absurd (mem_hexDigits front) (by decide)
    · rcases mem_cons.mp back with same | back
      · exact absurd same (by decide)
      · exact absurd (mem_hexDigits back) (by decide)
  have octets : [y.toNat / 2 ^ 16 / 256 % 256, y.toNat / 2 ^ 16 % 256, y.toNat % 65536 / 256 % 256,
      y.toNat % 65536 % 256] = octets y := by
    simp only [octets, List.cons.injEq, and_true, true_and]
    omega
  rw [mappedV4_carrying lower (text_mapped carried), embeddedV4, undotted, parts, if_neg (by decide)]
  dsimp only
  rw [group _ (by omega), group _ (by omega), hexadecimal, hexadecimal, ofBase_toDigits, ofBase_toDigits, octets]
  rfl

theorem mappedV4_resolverText {y : IPv4} (carried : IPv6.mapped x = some y) :
    mappedV4 (v6 x).resolverText = some (dotted (octets y)) := by
  have front : ∀ c ∈ "::ffff:".toList, c ∈ '.' :: ':' :: hexDigits := forall_mem_of_all (by decide)
  have lower : toLowerCase ("::ffff:".toList ++ dotted (octets y)) = "::ffff:".toList ++ dotted (octets y) :=
    toLowerCase_spelled fun c member => (mem_append.mp member).elim (front c) (plain_dotted _ c)
  have point : (dotted (octets y)).contains '.' = true := by
    rw [contains_eq_mem, decide_eq_true_eq, octets, dotted_cons_cons]
    exact mem_append_right _ mem_cons_self
  rw [resolverText_mapped carried, mappedV4_carrying lower rfl, embeddedV4, if_pos point, parseV4_dotted rfl (octets_lt y)]
  rfl

theorem mappedV4_none {c : Char} (first : c.toLower ≠ ':') : mappedV4 (c :: t) = none := by
  have front : startsWith "::ffff:" (toLowerCase (c :: t)) = false := by
    refine Bool.eq_false_of_not_eq_true fun same => first ?_
    obtain ⟨rest, whole⟩ := List.isPrefixOf_iff_prefix.mp same
    exact (List.cons.inj whole).1.symm
  rw [mappedV4, front, if_neg (by decide)]

section Judgement
variable {t : Text}

theorem judged_mapped {mapped : Text} (lower : toLowerCase t = t) (filled : t ≠ []) (found : mappedV4 t = some mapped) :
    isPrivateIp t = isPrivateV4 mapped ∧ isRfc1918OrUla t = isRfc1918V4 mapped := by
  simp only [isPrivateIp, isRfc1918OrUla, if_neg filled, lower, found, and_self]

theorem judged_unmapped (lower : toLowerCase t = t) (filled : t ≠ []) (unmapped : mappedV4 t = none) :
    isPrivateIp t = (if t.contains ':' then isPrivateV6 t else isPrivateV4 t) ∧
      isRfc1918OrUla t = if t.contains ':' then startsWith "fc" t || startsWith "fd" t else isRfc1918V4 t := by
  simp only [isPrivateIp, isRfc1918OrUla, if_neg filled, lower, unmapped, and_self]

theorem judged_by_octets {a : IpAddress} {y : IPv4} (denoted : a.denoted = .v4 y)
    (spelled : t = a.text ∨ t = a.resolverText) :
    isPrivateIp t = isPrivateV4 (dotted (octets y)) ∧ isRfc1918OrUla t = isRfc1918V4 (dotted (octets y)) := by
  have front : ∀ c ∈ "::ffff:".toList, c ∈ '.' :: ':' :: hexDigits := forall_mem_of_all (by decide)
  cases a with
  | v4 x =>
    cases denoted
    have same : t = dotted (octets y) := spelled.elim id id
    have uncoloned : t.contains ':' = false := by
      rw [same, contains_eq_mem, decide_eq_false_iff_not]
      exact fun member => absurd (mem_dotted member) (by decide)
    have filled : t ≠ [] := fun empty => text_ne_nil (.v4 y) (same.symm.trans empty)
    obtain ⟨c, rest, first⟩ := exists_cons_of_ne_nil filled
    have digit : ∀ c ∈ '.' :: hexDigits, c.toLower ≠ ':' := forall_mem_of_all (by decide)
    have unmapped : mappedV4 t = none := by
      rw [first]
      refine mappedV4_none (digit c (mem_dotted (?_ : c ∈ dotted (octets y))))
      rw [← same, first]
      exact mem_cons_self
    have judged := judged_unmapped (toLowerCase_spelled (same ▸ plain_dotted _)) filled unmapped
    rw [uncoloned] at judged
    rw [← same]
    exact judged
  | v6 x =>
    cases carried : IPv6.mapped x with
    | none =>
      rw [IpAddress.denoted, carried] at denoted
      cases denoted
    | some z =>
      rw [IpAddress.denoted, carried] at denoted
      cases denoted
      rcases spelled with same | same
      · rw [same]
        exact judged_mapped (toLowerCase_spelled fun c => mem_text) (text_ne_nil _) (mappedV4_text carried)
      · have found := mappedV4_resolverText carried
        rw [← same] at found
        rw [resolverText_mapped carried] at same
        refine judged_mapped (toLowerCase_spelled fun c member => ?_) ?_ found
        · rw [same] at member
          exact (mem_append.mp member).elim (front c) (plain_dotted _ c)
        · rw [same]
          exact cons_ne_nil _ _

theorem judged_by_front {rest : Text} (lower : toLowerCase t = t) (colon : ':' ∈ t) (front : t = 'f' :: rest) :
    isPrivateIp t =
        (startsWith "fc" t || startsWith "fd" t ||
          (startsWith "fe8" t || startsWith "fe9" t || startsWith "fea" t || startsWith "feb" t) ||
          startsWith "ff" t) ∧
      isRfc1918OrUla t = (startsWith "fc" t || startsWith "fd" t) := by
  have unmapped : mappedV4 t = none := by
    rw [front]
    exact mappedV4_none (by decide)
  have coloned : t.contains ':' = true := by
    rw [contains_eq_mem, decide_eq_true_eq]
    exact colon
  have loopback : ¬(t = "::".toList ∨ t = "::1".toList) := by
    rw [front]
    rintro (same | same) <;> exact absurd (List.cons.inj same).1 (by decide)
  have filled : t ≠ [] := fun empty => cons_ne_nil _ _ (front.symm.trans empty)
  obtain ⟨judged, appliance⟩ := judged_unmapped lower filled unmapped
  rw [coloned, if_pos rfl] at judged appliance
  refine ⟨judged.trans ?_, appliance⟩
  simp only [isPrivateV6, lower, unmapped, if_neg loopback]

end Judgement

theorem spelled_front {a b : ℕ} (group : x.toNat / 2 ^ 112 = a * 256 + b) (positive : 0 < a)
    (small : b < 256) (spelled : t = (v6 x).text ∨ t = (v6 x).resolverText) :
    toLowerCase t = t ∧ ':' ∈ t ∧
      ∃ rest, t = hexadecimal a ++ (Nat.digitChar (b / 16) :: Nat.digitChar (b % 16) :: ':' :: rest) := by
  have same : t = (v6 x).text := spelled.elim id fun resolved => by
    rw [resolved, resolverText_front (by omega)]
  obtain ⟨rest, text⟩ := text_v6_front group positive small
  rw [same]
  refine ⟨toLowerCase_spelled fun c => mem_text, ?_, rest, text⟩
  rw [text]
  exact mem_append_right _ (mem_cons_of_mem _ (mem_cons_of_mem _ mem_cons_self))

theorem denoted_v6 (denoted : a.denoted = .v6 x) : a = .v6 x := by
  cases a with
  | v4 y => cases denoted
  | v6 z =>
    cases carried : IPv6.mapped z with
    | none => simpa only [IpAddress.denoted, carried] using denoted
    | some y => simp only [IpAddress.denoted, carried, reduceCtorEq] at denoted

theorem declared_private (declared : Declared a) (spelled : t = a.text ∨ t = a.resolverText) :
    isPrivateIp t = true ∧ (isRfc1918OrUla t = true → Appliance a) := by
  unfold Declared at declared
  unfold Appliance
  cases denoted : a.denoted with
  | v4 y =>
    obtain ⟨judged, appliance⟩ := judged_by_octets denoted spelled
    rw [denoted] at declared
    rw [judged, appliance]
    exact ⟨(isPrivateV4_iff y).mpr declared, (isRfc1918V4_iff y).mp⟩
  | v6 z =>
    have same : a = .v6 z := denoted_v6 denoted
    subst same
    rw [denoted] at declared
    dsimp only at declared ⊢
    rcases declared with rfl | rfl | unique | linkLocal | multicast
    · rcases spelled with rfl | rfl <;> exact ⟨by decide, fun taken => absurd taken (by decide)⟩
    · rcases spelled with rfl | rfl <;> exact ⟨by decide, fun taken => absurd taken (by decide)⟩
    · refine ⟨?_, fun _ => unique⟩
      have network : z.toNat / 2 ^ 121 = 126 := unique
      obtain ⟨a, b, sort, small, group⟩ : ∃ a b, (a = 252 ∨ a = 253) ∧ b < 256 ∧ z.toNat / 2 ^ 112 = a * 256 + b :=
        ⟨z.toNat / 2 ^ 120, z.toNat / 2 ^ 112 % 256, by omega, by omega, by omega⟩
      obtain ⟨lower, colon, rest, text⟩ := spelled_front group (by omega) small spelled
      rcases sort with rfl | rfl
      · rw [(judged_by_front lower colon text).1, text]
        rfl
      · rw [(judged_by_front lower colon text).1, text]
        rfl
    · have network : z.toNat / 2 ^ 118 = 254 * 4 + 2 := linkLocal
      obtain ⟨b, bounds, group⟩ : ∃ b, (128 ≤ b ∧ b < 192) ∧ z.toNat / 2 ^ 112 = 254 * 256 + b :=
        ⟨z.toNat / 2 ^ 112 % 256, by omega, by omega⟩
      obtain ⟨lower, colon, rest, text⟩ := spelled_front group (by decide) (by omega) spelled
      have third : ∀ d < 12, 8 ≤ d → ∀ rest : Text,
          (startsWith "fe8" ('f' :: 'e' :: Nat.digitChar d :: rest) ||
            startsWith "fe9" ('f' :: 'e' :: Nat.digitChar d :: rest) ||
            startsWith "fea" ('f' :: 'e' :: Nat.digitChar d :: rest) ||
            startsWith "feb" ('f' :: 'e' :: Nat.digitChar d :: rest)) = true := by
        intro d less least rest
        have four : d = 8 ∨ d = 9 ∨ d = 10 ∨ d = 11 := by omega
        rcases four with rfl | rfl | rfl | rfl <;> rfl
      obtain ⟨judged, appliance⟩ := judged_by_front lower colon text
      rw [judged, appliance, text]
      refine ⟨?_, fun taken => absurd (show false = true from taken) (by decide)⟩
      have found := third (b / 16) (by omega) (by omega) (Nat.digitChar (b % 16) :: ':' :: rest)
      exact (congrArg (· || _) (congrArg (_ || ·) found)).trans rfl
    · have network : z.toNat / 2 ^ 120 = 255 := multicast
      obtain ⟨b, small, group⟩ : ∃ b < 256, z.toNat / 2 ^ 112 = 255 * 256 + b :=
        ⟨z.toNat / 2 ^ 112 % 256, by omega, by omega⟩
      obtain ⟨lower, colon, rest, text⟩ := spelled_front group (by decide) small spelled
      obtain ⟨judged, appliance⟩ := judged_by_front lower colon text
      rw [judged, appliance, text]
      exact ⟨rfl, fun taken => absurd (show false = true from taken) (by decide)⟩

section Pinned
variable {parseUrl : Text → Option Url} {lookup : Text → Except String (List LookupAddress)} {urlStr : Text}
  {allowPrivateNetwork : Bool} {record : LookupAddress}

theorem safeRecord_ok (found : safeRecord parseUrl lookup urlStr allowPrivateNetwork = .ok record) :
    ∃ u records, parseUrl urlStr = some u ∧ resolveRecords lookup (stripBrackets u.hostname) = .ok records ∧
      record ∈ records ∧ blockOf allowPrivateNetwork record.address = false := by
  unfold safeRecord at found
  cases parsed : parseUrl urlStr with
  | none =>
    rw [parsed] at found
    cases found
  | some u =>
    rw [parsed] at found
    dsimp only at found
    cases resolved : resolveRecords lookup (stripBrackets u.hostname) with
    | error e =>
      rw [resolved] at found
      split_ifs at found
    | ok records =>
      rw [resolved] at found
      dsimp only at found
      cases first : records.find? fun r => !blockOf allowPrivateNetwork r.address with
      | none =>
        rw [first] at found
        split_ifs at found
      | some safe =>
        rw [first] at found
        split_ifs at found
        cases found
        refine ⟨u, records, rfl, resolved, mem_of_find?_eq_some first, ?_⟩
        have safe := find?_some first
        rwa [Bool.not_eq_true'] at safe

theorem pinnedLookup_addresses {opts : LookupOpts} {answer : LookupAnswer}
    (answered : pinnedLookup record opts = .ok answer) : answer.addresses = [record.address] := by
  unfold pinnedLookup at answered
  split at answered
  · cases answered
    rfl
  · cases answered
    rfl
  · cases answered
    rfl
  · cases answered

theorem safeFetch_ok {opts : LookupOpts} {answer : LookupAnswer}
    (answered : safeFetch parseUrl lookup urlStr allowPrivateNetwork opts = .ok answer) :
    ∃ record, safeRecord parseUrl lookup urlStr allowPrivateNetwork = .ok record ∧
      answer.addresses = [record.address] := by
  unfold safeFetch at answered
  cases found : safeRecord parseUrl lookup urlStr allowPrivateNetwork with
  | error e =>
    rw [found] at answered
    cases answered
  | ok record =>
    rw [found] at answered
    refine ⟨record, rfl, ?_⟩
    exact pinnedLookup_addresses answered

theorem isLiteral_text (a : IpAddress) : isLiteral a.text = true := by
  cases a with
  | v4 x =>
    have digits : (v4 x).text.all (fun c => c.isDigit || c == '.') = true := by
      rw [List.all_eq_true]
      intro c member
      rcases mem_intercalate member with rfl | ⟨t, listed, inside⟩
      · decide
      · obtain ⟨n, -, rfl⟩ := List.mem_map.mp listed
        rw [digits_decimal n c inside]
        rfl
    rw [isLiteral, digits, Bool.and_true, Bool.or_eq_true]
    refine .inl ?_
    rw [Bool.not_eq_true', isEmpty_eq_false_iff]
    exact text_ne_nil _
  | v6 x =>
    rw [isLiteral, Bool.or_eq_true]
    refine .inr ?_
    rw [contains_eq_mem, decide_eq_true_eq]
    exact colon_mem_text x

theorem stripBrackets_hostname {u : Url} {a : IpAddress} (host : u.host = .ip a) :
    stripBrackets u.hostname = a.text := by
  have stripped := hostnameLower_ip host
  have lower : u.hostname.map Char.toLower = u.hostname := by
    unfold Url.hostname
    rw [host]
    cases a with
    | v4 x => exact text_map_toLower _
    | v6 x =>
      dsimp only
      rw [map_append, map_cons, text_map_toLower]
      rfl
  rwa [Url.hostnameLower, lower] at stripped

theorem safeRecord_literal {u : Url} {a : IpAddress} (parsed : parseUrl urlStr = some u) (host : u.host = .ip a)
    (found : safeRecord parseUrl lookup urlStr allowPrivateNetwork = .ok record) : record.address = a.text := by
  obtain ⟨own, records, read, resolved, member, -⟩ := safeRecord_ok found
  cases parsed.symm.trans read
  rw [stripBrackets_hostname host, resolveRecords, if_pos (isLiteral_text a)] at resolved
  cases resolved
  rw [mem_singleton.mp member]

end Pinned

/-- The address is outside the declared ranges, or the request may reach the network of appliances that it is in. -/
def Permitted (allowPrivateNetwork : Bool) (a : IpAddress) : Prop :=
  ¬Declared a ∨ (allowPrivateNetwork = true ∧ Appliance a)

theorem permitted_of_unblocked {allowPrivateNetwork : Bool} (unblocked : blockOf allowPrivateNetwork t = false)
    (spelled : t = a.text ∨ t = a.resolverText) : Permitted allowPrivateNetwork a := by
  by_cases declared : Declared a
  · obtain ⟨judged, appliance⟩ := declared_private declared spelled
    cases allowPrivateNetwork with
    | false => exact absurd (judged.symm.trans unblocked) (by decide)
    | true =>
      refine .inr ⟨rfl, appliance ?_⟩
      have taken : isAlwaysBlockedIp t = false := unblocked
      rw [isAlwaysBlockedIp, if_pos judged, Bool.not_eq_false'] at taken
      exact taken
  · exact .inl declared

/-- An address of a declared range is private in both its texts, and one that carries another exactly when that is. For
every URL, every option, every answer of the resolver and every way to ask, what the pinned lookup hands out is no
address that the request may not reach; a host that is itself an address is handed out as it is. -/
theorem safeFetch_pins_permitted :
    (∀ a t, (t = a.text ∨ t = a.resolverText) → (Declared a → isPrivateIp t = true) ∧
      ∀ y, a.denoted = .v4 y → (isPrivateIp t = true ↔ DeclaredV4 y)) ∧
    ∀ parseUrl lookup urlStr allowPrivateNetwork opts answer,
      safeFetch parseUrl lookup urlStr allowPrivateNetwork opts = .ok answer →
        (∀ t ∈ answer.addresses, ∀ a, (t = a.text ∨ t = a.resolverText) → Permitted allowPrivateNetwork a) ∧
        ∀ u a, parseUrl urlStr = some u → u.host = .ip a →
          answer.addresses = [a.text] ∧ Permitted allowPrivateNetwork a := by
  refine ⟨fun a t spelled => ⟨fun declared => (declared_private declared spelled).1, fun y denoted => ?_⟩, ?_⟩
  · rw [(judged_by_octets denoted spelled).1]
    exact isPrivateV4_iff y
  · intro parseUrl lookup urlStr allowPrivateNetwork opts answer answered
    obtain ⟨record, found, addresses⟩ := safeFetch_ok answered
    obtain ⟨-, -, -, -, -, unblocked⟩ := safeRecord_ok found
    rw [addresses]
    refine ⟨fun t member a spelled => ?_, fun u a parsed host => ?_⟩
    · rw [mem_singleton.mp member] at spelled
      exact permitted_of_unblocked unblocked spelled
    · have same := safeRecord_literal parsed host found
      rw [same] at unblocked ⊢
      exact ⟨rfl, permitted_of_unblocked unblocked (.inl rfl)⟩

def applianceUrl : Text := "http://pihole.example/".toList

def parseAppliance (urlStr : Text) : Option Url :=
  if urlStr = applianceUrl then some ⟨"http:", .name "pihole.example".toList⟩ else none

/-- The metadata service comes first, written as a resolver writes it, and then the appliance. -/
def lookupAppliance (_ : Text) : Except String (List LookupAddress) :=
  .ok [⟨(v6 0xffffa9fea9fe).resolverText, 6⟩, ⟨(v4 (ipv4 192 168 1 2)).resolverText, 4⟩]

theorem appliance_pinned :
    safeFetch parseAppliance lookupAppliance applianceUrl true (.options true true) =
        .ok (.all [⟨(v4 (ipv4 192 168 1 2)).resolverText, 4⟩]) ∧ Permitted true (.v4 (ipv4 192 168 1 2)) := by
  have pinned : safeFetch parseAppliance lookupAppliance applianceUrl true (.options true true) =
      .ok (.all [⟨(v4 (ipv4 192 168 1 2)).resolverText, 4⟩]) := by decide +kernel
  exact ⟨pinned, (safeFetch_pins_permitted.2 _ _ _ _ _ _ pinned).1 _ mem_cons_self _ (.inr rfl)⟩

end RemudaRmm.Security.UrlSafety
