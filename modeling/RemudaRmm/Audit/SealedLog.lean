import RemudaRmm.Audit.AuditChain

/-! An audit log as sealing and retention leave it: every row has its entry, every entry its row, and the entries of an
organisation are linked in the order of their sequence numbers. The verifier finds nothing in such a log. -/
namespace RemudaRmm.Audit
open Foundation List Option

def ofOrg (chain : List ChainEntry) (org : Option Uuid) : List ChainEntry := chain.filter (·.orgId = org)

theorem mem_ofOrg {chain : List ChainEntry} {org : Option Uuid} {c : ChainEntry} :
    c ∈ ofOrg chain org ↔ c ∈ chain ∧ c.orgId = org := by
  rw [ofOrg, mem_filter, decide_eq_true_eq]

theorem ofOrg_append (chain more : List ChainEntry) (org : Option Uuid) :
    ofOrg (chain ++ more) org = ofOrg chain org ++ ofOrg more org := filter_append _ _

theorem ofOrg_filter (chain : List ChainEntry) (keep : ChainEntry → Bool) (org : Option Uuid) :
    ofOrg (chain.filter keep) org = (ofOrg chain org).filter keep := by
  rw [ofOrg, ofOrg, List.filter_filter, List.filter_filter]
  exact filter_congr fun c _ => Bool.and_comm _ _

abbrev Ascending (l : List ChainEntry) : Prop := l.Pairwise fun a b => a.chainSeq < b.chainSeq

theorem walk_eq_ofOrg {chain : List ChainEntry} {org : Option Uuid} (ascending : Ascending (ofOrg chain org)) :
    walk chain org = ofOrg chain org :=
  List.Pairwise.insertionSort_eq (ascending.imp fun less => less.le)

section Hashed
variable (hash : IdealHash) (zone : Moment → Moment)

structure Seals (c : ChainEntry) (a : AuditRow) : Prop where
  auditId : c.auditId = a.id
  orgId : c.orgId = a.orgId
  content : contentHash hash zone a = some c.contentChecksum
  chained : c.chainChecksum = linkHash hash c.prevChainChecksum c.contentChecksum

inductive Height : Option Text → ℕ → Prop
  | genesis : Height none 0
  | entry {prev : Option Text} {n : ℕ} (t : Text) (below : Height prev n) :
      Height (some (linkHash hash prev (hash.hex t))) (n + 1)

structure Sealed (t : Tables) : Prop where
  ids : (t.auditLogs.map AuditRow.id).Nodup
  sealedOnce : (t.auditLogChain.map ChainEntry.auditId).Nodup
  entries : ∀ c ∈ t.auditLogChain, ∃ a ∈ t.auditLogs, Seals hash zone c a
  rows : ∀ a ∈ t.auditLogs, ∃ c ∈ t.auditLogChain, Seals hash zone c a
  ascending : ∀ org, Ascending (ofOrg t.auditLogChain org)
  linked : ∀ org, EntriesLinked (ofOrg t.auditLogChain org)
  rooted : ∀ c ∈ t.auditLogChain, ∃ n, Height hash c.prevChainChecksum n

variable {hash zone} {t : Tables} {c d : ChainEntry} {a b : AuditRow}

theorem sealed_empty : Sealed hash zone ⟨[], []⟩ where
  ids := nodup_nil
  sealedOnce := nodup_nil
  entries := fun _ member => absurd member not_mem_nil
  rows := fun _ member => absurd member not_mem_nil
  ascending := fun _ => List.Pairwise.nil
  linked := fun _ => isChain_nil
  rooted := fun _ member => absurd member not_mem_nil

theorem bar_notin_hex (t : Text) : '|' ∉ hash.hex t := by
  intro member
  exact absurd (hash.digits t _ member) (by decide)

theorem linkHash_inj {p q : Option Text} {t u : Text}
    (same : linkHash hash p (hash.hex t) = linkHash hash q (hash.hex u)) :
    p.getD [] = q.getD [] ∧ hash.hex t = hash.hex u :=
  append_last_sep_inj (bar_notin_hex t) (bar_notin_hex u) (hash.injective same)

theorem getD_injective {p q : Option Text} (first : ∀ t, p = some t → t ≠ []) (second : ∀ t, q = some t → t ≠ [])
    (same : p.getD [] = q.getD []) : p = q := by
  cases p with
  | none =>
    cases q with
    | none => rfl
    | some t => exact absurd same.symm (second t rfl)
  | some t =>
    cases q with
    | none => exact absurd same (first t rfl)
    | some u => exact congrArg some same

theorem Height.ne_nil {p : Option Text} {n : ℕ} (height : Height hash p n) : ∀ t, p = some t → t ≠ [] := by
  intro t same
  cases height with
  | genesis => cases same
  | entry u below => exact some.inj same ▸ hash.some_digit _

theorem Height.unique {p : Option Text} {m n : ℕ} (first : Height hash p m) (second : Height hash p n) : m = n := by
  induction first generalizing n with
  | genesis => cases second; rfl
  | @entry prev m t below ih =>
    generalize same : some (linkHash hash prev (hash.hex t)) = q at second
    cases second with
    | genesis => cases same
    | @entry other n u under =>
      have values := (linkHash_inj (some.inj same)).1
      obtain rfl := getD_injective below.ne_nil under.ne_nil values
      rw [ih under]

theorem contentHash_eq_some {content : Text} (found : contentHash hash zone a = some content) :
    ∃ t, auditLogCanonicalPayload zone a none = some t ∧ content = hash.hex t := by
  obtain ⟨t, printed, rfl⟩ := map_eq_some_iff.mp found
  exact ⟨t, printed, rfl⟩

theorem contentHash_eq_iff {content : Text} (found : contentHash hash zone b = some content) :
    contentHash hash zone a = some content ↔ Alike zone a b := by
  obtain ⟨t, printed, rfl⟩ := contentHash_eq_some found
  rw [← canonicalPayload_eq_iff printed, contentHash, map_eq_some_iff]
  constructor
  · rintro ⟨u, other, same⟩
    rw [other, hash.injective same]
  · intro other
    exact ⟨t, other, rfl⟩

theorem insertEntry_eq_some {chain more : List ChainEntry} {e : ChainEntry}
    (inserted : insertEntry chain e = some more) : more = chain ++ [e] := by
  unfold insertEntry at inserted
  split at inserted
  · exact (some.inj inserted).symm
  · cases inserted

namespace Sealed

theorem eq_of_id (log : Sealed hash zone t) (first : a ∈ t.auditLogs) (second : b ∈ t.auditLogs) (same : a.id = b.id) :
    a = b := inj_on_of_nodup_map log.ids first second same

theorem eq_of_auditId (log : Sealed hash zone t) (first : c ∈ t.auditLogChain) (second : d ∈ t.auditLogChain)
    (same : c.auditId = d.auditId) : c = d := inj_on_of_nodup_map log.sealedOnce first second same

theorem find_row (log : Sealed hash zone t) (member : a ∈ t.auditLogs) : t.auditLogs.find? (·.id = a.id) = some a := by
  cases found : t.auditLogs.find? (·.id = a.id) with
  | none => exact absurd rfl (of_decide_eq_false (Bool.eq_false_iff.mpr (find?_eq_none.mp found a member)))
  | some b =>
    have same : b.id = a.id := by simpa using find?_some found
    rw [log.eq_of_id (mem_of_find?_eq_some found) member same]

theorem chainChecksums (log : Sealed hash zone t) : (t.auditLogChain.map ChainEntry.chainChecksum).Nodup := by
  refine (List.Nodup.of_map _ log.sealedOnce).map_on fun c first d second same => ?_
  obtain ⟨a, rowA, sealsA⟩ := log.entries c first
  obtain ⟨b, rowB, sealsB⟩ := log.entries d second
  obtain ⟨t, -, contentA⟩ := contentHash_eq_some sealsA.content
  obtain ⟨u, -, contentB⟩ := contentHash_eq_some sealsB.content
  rw [sealsA.chained, sealsB.chained, contentA, contentB] at same
  have content := (linkHash_inj same).2
  rw [← contentA, ← contentB] at content
  have alike := (contentHash_eq_iff sealsB.content).mp (content ▸ sealsA.content)
  exact log.eq_of_auditId first second (sealsA.auditId.trans (alike.id.trans sealsB.auditId.symm))

theorem walk_eq (log : Sealed hash zone t) (org : Option Uuid) : walk t.auditLogChain org = ofOrg t.auditLogChain org :=
  walk_eq_ofOrg (log.ascending org)

theorem keys (log : Sealed hash zone t) (org : Option Uuid) :
    ((ofOrg t.auditLogChain org).map ChainEntry.chainChecksum).Nodup :=
  log.chainChecksums.sublist (filter_sublist.map _)

theorem verifyChain (log : Sealed hash zone t) (org : Option Uuid) : auditLogVerifyChain hash zone t org = [] := by
  rw [auditLogVerifyChain_eq_nil, log.walk_eq]
  refine ⟨log.linked org, fun c member => ?_, fun a member _ => ?_⟩
  · obtain ⟨a, row, made⟩ := log.entries c (mem_ofOrg.mp member).1
    exact ⟨made.chained, a, made.auditId ▸ log.find_row row, made.content⟩
  · obtain ⟨c, entry, made⟩ := log.rows a member
    exact ⟨c, entry, made.auditId⟩

theorem height_succ (log : Sealed hash zone t) (member : c ∈ t.auditLogChain) {n : ℕ}
    (below : Height hash c.prevChainChecksum n) : Height hash (some c.chainChecksum) (n + 1) := by
  obtain ⟨a, -, made⟩ := log.entries c member
  obtain ⟨t, -, content⟩ := contentHash_eq_some made.content
  rw [made.chained, content]
  exact .entry t below

theorem rooted_head (log : Sealed hash zone t) (org : Option Uuid) :
    ∃ n, Height hash (headChecksum t.auditLogChain org) n := by
  rw [headChecksum, log.walk_eq]
  cases last : (ofOrg t.auditLogChain org).getLast? with
  | none => exact ⟨0, .genesis⟩
  | some c =>
    have member := (mem_ofOrg.mp (mem_of_getLast? last)).1
    obtain ⟨n, below⟩ := log.rooted c member
    exact ⟨n + 1, log.height_succ member below⟩

theorem height_lt (log : Sealed hash zone t) {l : List ChainEntry} (part : ∀ d ∈ c :: l, d ∈ t.auditLogChain)
    (linked : EntriesLinked (c :: l)) {m : ℕ} (first : Height hash c.prevChainChecksum m) :
    ∀ d ∈ l, ∀ n, Height hash d.prevChainChecksum n → m < n := by
  induction l generalizing c m with
  | nil => exact fun d member => absurd member not_mem_nil
  | cons e l ih =>
    obtain ⟨link, rest⟩ := isChain_cons_cons.mp linked
    have second : Height hash e.prevChainChecksum (m + 1) :=
      link ▸ log.height_succ (part c mem_cons_self) first
    intro d member n height
    rcases mem_cons.mp member with rfl | later
    · exact height.unique second ▸ Nat.lt_succ_self m
    · have above := ih (fun d member => part d (mem_cons_of_mem c member)) rest second d later n height
      omega

theorem linear (log : Sealed hash zone t) (org : Option Uuid) :
    ((ofOrg t.auditLogChain org).map ChainEntry.prevChainChecksum).Nodup := by
  have part : ∀ d ∈ ofOrg t.auditLogChain org, d ∈ t.auditLogChain := fun d member => (mem_ofOrg.mp member).1
  have linked := log.linked org
  generalize ofOrg t.auditLogChain org = l at part linked
  induction l with
  | nil => exact nodup_nil
  | cons c l ih =>
    refine nodup_cons.mpr
      ⟨fun again => ?_, ih (fun d member => part d (mem_cons_of_mem c member)) linked.tail⟩
    obtain ⟨d, member, same⟩ := List.mem_map.mp again
    obtain ⟨m, height⟩ := log.rooted c (part c mem_cons_self)
    exact lt_irrefl m (log.height_lt part linked height d member m (same ▸ height))

theorem append (log : Sealed hash zone t) (fresh : ∀ b ∈ t.auditLogs, b.id ≠ a.id) (made : Seals hash zone c a)
    (later : ∀ d ∈ ofOrg t.auditLogChain a.orgId, d.chainSeq < c.chainSeq) (link : ofOrg t.auditLogChain a.orgId ≠ [] →
      c.prevChainChecksum = (ofOrg t.auditLogChain a.orgId).getLast?.map ChainEntry.chainChecksum)
    (below : ∃ n, Height hash c.prevChainChecksum n) :
    Sealed hash zone ⟨t.auditLogs ++ [a], t.auditLogChain ++ [c]⟩ where
  ids := by
    rw [map_append, map_singleton]
    refine log.ids.append (nodup_singleton _) fun id first second => ?_
    obtain ⟨b, member, rfl⟩ := List.mem_map.mp first
    exact fresh b member (mem_singleton.mp second)
  sealedOnce := by
    rw [map_append, map_singleton]
    refine log.sealedOnce.append (nodup_singleton _) fun id first second => ?_
    obtain ⟨d, member, rfl⟩ := List.mem_map.mp first
    obtain ⟨b, row, old⟩ := log.entries d member
    exact fresh b row (old.auditId.symm.trans ((mem_singleton.mp second).trans made.auditId))
  entries := by
    intro d member
    rcases mem_append.mp member with old | new
    · obtain ⟨b, row, seals⟩ := log.entries d old
      exact ⟨b, mem_append_left _ row, seals⟩
    · obtain rfl := mem_singleton.mp new
      exact ⟨a, mem_append_right _ mem_cons_self, made⟩
  rows := by
    intro b member
    rcases mem_append.mp member with old | new
    · obtain ⟨d, entry, seals⟩ := log.rows b old
      exact ⟨d, mem_append_left _ entry, seals⟩
    · obtain rfl := mem_singleton.mp new
      exact ⟨c, mem_append_right _ mem_cons_self, made⟩
  ascending := by
    intro org
    rw [ofOrg_append]
    refine pairwise_append.mpr ⟨log.ascending org, (pairwise_singleton _ c).sublist filter_sublist, ?_⟩
    intro d old e new
    obtain ⟨among, home⟩ := mem_ofOrg.mp new
    obtain rfl := mem_singleton.mp among
    exact later d (made.orgId ▸ home ▸ old)
  linked := by
    intro org
    rw [ofOrg_append]
    by_cases home : c.orgId = org
    · subst home
      rw [show ofOrg [c] c.orgId = [c] from filter_cons_of_pos (decide_eq_true rfl)]
      rw [made.orgId]
      exact linked_concat (log.linked _) link
    · rw [show ofOrg [c] org = [] from filter_cons_of_neg (by simpa using home), append_nil]
      exact log.linked org
  rooted := by
    intro d member
    rcases mem_append.mp member with old | new
    · exact log.rooted d old
    · exact mem_singleton.mp new ▸ below

theorem sealOne (log : Sealed hash zone t) (a : AuditRow) (seq : ℕ) (fresh : ∀ b ∈ t.auditLogs, b.id ≠ a.id)
    (later : ∀ d ∈ ofOrg t.auditLogChain a.orgId, d.chainSeq < seq) {chain : List ChainEntry}
    (done : auditLogSealOne hash zone t.auditLogChain seq a = some chain) :
    Sealed hash zone ⟨t.auditLogs ++ [a], chain⟩ := by
  obtain ⟨e, made, inserted⟩ := bind_eq_some_iff.mp done
  obtain ⟨content, hashed, rfl⟩ := map_eq_some_iff.mp made
  obtain rfl := insertEntry_eq_some inserted
  refine log.append fresh ⟨rfl, rfl, hashed, rfl⟩ later (fun _ => ?_) (log.rooted_head _)
  rw [← log.walk_eq, headChecksum]

theorem remove (log : Sealed hash zone t) (keep : Uuid → Bool)
    (block : ∀ org, (ofOrg t.auditLogChain org).filter (keep ·.auditId) <:+: ofOrg t.auditLogChain org) :
    Sealed hash zone ⟨t.auditLogs.filter (keep ·.id), t.auditLogChain.filter (keep ·.auditId)⟩ where
  ids := log.ids.sublist (filter_sublist.map _)
  sealedOnce := log.sealedOnce.sublist (filter_sublist.map _)
  entries := by
    intro c member
    obtain ⟨old, kept⟩ := mem_filter.mp member
    obtain ⟨a, row, seals⟩ := log.entries c old
    exact ⟨a, mem_filter.mpr ⟨row, seals.auditId ▸ kept⟩, seals⟩
  rows := by
    intro a member
    obtain ⟨old, kept⟩ := mem_filter.mp member
    obtain ⟨c, entry, seals⟩ := log.rows a old
    exact ⟨c, mem_filter.mpr ⟨entry, seals.auditId.symm ▸ kept⟩, seals⟩
  ascending := by
    intro org
    rw [ofOrg_filter]
    exact (log.ascending org).sublist filter_sublist
  linked := by
    intro org
    rw [ofOrg_filter]
    exact (log.linked org).part (block org)
  rooted := fun c member => log.rooted c (mem_filter.mp member).1

end Sealed

end Hashed

/-- Digests of given texts, none of which begins with an `f`. -/
structure Digests where
  table : List (Text × Text)
  distinct : ∀ p ∈ table, ∀ q ∈ table, p.2 = q.2 → p.1 = q.1
  hex : ∀ p ∈ table, p.2.all isHexDigit = true ∧ p.2 ≠ [] ∧ p.2.head? ≠ some 'f'

/-- The code points of a text behind an `f`, each in decimal digits and closed by an `a`. -/
def spelledOut (t : Text) : Text := 'f' :: t.flatMap fun c => decimal c.toNat ++ ['a']

theorem notin_decimal {sep : Char} (notDigit : sep.isDigit = false) (n : ℕ) : sep ∉ decimal n := by
  intro member
  have digit := digits_decimal n sep member
  rw [notDigit] at digit
  cases digit

theorem spelledOut_injective : Function.Injective spelledOut := by
  intro t u same
  have codes := (List.cons.inj same).2
  clear same
  induction t generalizing u with
  | nil =>
    cases u with
    | nil => rfl
    | cons d u => simp at codes
  | cons c t ih =>
    cases u with
    | nil => simp at codes
    | cons d u =>
      simp only [flatMap_cons, append_assoc, singleton_append] at codes
      obtain ⟨code, rest⟩ := append_sep_inj (notin_decimal (by decide) _) (notin_decimal (by decide) _) codes
      have same : c.toNat = d.toNat := by simpa only [number_decimal] using congrArg number code
      rw [Char.toNat_inj.mp same, ih rest]

theorem hex_spelledOut (t : Text) : ∀ c ∈ spelledOut t, isHexDigit c = true := by
  intro c member
  rcases mem_cons.mp member with rfl | later
  · decide
  · obtain ⟨d, -, among⟩ := mem_flatMap.mp later
    rcases mem_append.mp among with digit | close
    · simp [isHexDigit, digits_decimal _ c digit]
    · obtain rfl := mem_singleton.mp close
      decide

namespace Digests
variable (d : Digests)

def value (t : Text) : Text := ((d.table.find? (·.1 = t)).map Prod.snd).getD (spelledOut t)

theorem value_cases (t : Text) : (∃ p ∈ d.table, p.1 = t ∧ d.value t = p.2) ∨ d.value t = spelledOut t := by
  unfold value
  cases found : d.table.find? (·.1 = t) with
  | none => exact .inr rfl
  | some p => exact .inl ⟨p, mem_of_find?_eq_some found, by simpa using find?_some found, rfl⟩

def hash : IdealHash where
  hex := d.value
  injective := by
    intro t u same
    rcases d.value_cases t with ⟨p, first, rfl, valued⟩ | spelled
    · rcases d.value_cases u with ⟨q, second, rfl, valued'⟩ | spelled'
      · exact d.distinct p first q second (valued.symm.trans (same.trans valued'))
      · exact absurd (congrArg List.head? (valued.symm.trans (same.trans spelled'))) (d.hex p first).2.2
    · rcases d.value_cases u with ⟨q, second, rfl, valued'⟩ | spelled'
      · exact absurd (congrArg List.head? (valued'.symm.trans (same.symm.trans spelled))) (d.hex q second).2.2
      · exact spelledOut_injective (spelled.symm.trans (same.trans spelled'))
  digits := by
    intro t c member
    rcases d.value_cases t with ⟨p, among, -, valued⟩ | spelled
    · exact List.all_eq_true.mp (d.hex p among).1 c (valued ▸ member)
    · exact hex_spelledOut t c (spelled ▸ member)
  some_digit := by
    intro t
    rcases d.value_cases t with ⟨p, among, -, valued⟩ | spelled
    · exact valued ▸ (d.hex p among).2.1
    · exact spelled ▸ cons_ne_nil _ _

end Digests

def sampleMoment (day : ℕ) (valid : (⟨2026, 6, day⟩ : Civil).Valid) (minute second : Fin 60) (micros : Fin 1000000) :
    Timestamp := .finite ⟨⟨2026, 6, day⟩, valid, 8, minute, second, micros⟩

def loginId : Uuid := ⟨"2b1f0c9a-6d3e-4f7b-9c55-0a1b2c3d4e5f".toList, by decide, by decide⟩

def removalId : Uuid := ⟨"9d2c4e10-8a5b-4c3d-b7e6-112233445566".toList, by decide, by decide⟩

def actorUuid : Uuid := ⟨"7c9e6679-7425-40de-944b-e07fc1f90ae7".toList, by decide, by decide⟩

def deviceUuid : Uuid := ⟨"3f333df6-90a4-4fda-8dd3-9485d27cee36".toList, by decide, by decide⟩

def loginDetails : Jsonb := ⟨"\x7b\"method\": \"password | totp\"\x7d".toList, by decide, by decide⟩

def loginRow (address : Varchar 45) : AuditRow where
  id := loginId
  orgId := some deviceUuid
  timestamp := sampleMoment 15 (by decide) 30 0 0
  actorType := .user
  actorId := actorUuid
  actorEmail := none
  action := ⟨"user.login".toList, by decide⟩
  resourceType := ⟨"user".toList, by decide⟩
  resourceId := some actorUuid
  resourceName := none
  details := some loginDetails
  ipAddress := some address
  userAgent := none
  result := .success
  errorMessage := none
  initiatedBy := some .manual

def removalRow : AuditRow where
  id := removalId
  orgId := some deviceUuid
  timestamp := sampleMoment 15 (by decide) 31 12 250000
  actorType := .user
  actorId := actorUuid
  actorEmail := none
  action := ⟨"device.delete".toList, by decide⟩
  resourceType := ⟨"device".toList, by decide⟩
  resourceId := some deviceUuid
  resourceName := none
  details := none
  ipAddress := none
  userAgent := none
  result := .success
  errorMessage := none
  initiatedBy := some .manual

def betweenRows : Timestamp := sampleMoment 15 (by decide) 31 0 0

def loginContent : Text := "10c4d325d57b979d97c39a870acd2ab8f74d7088e2b1a30950d7d2057971f47c".toList

def removalContent : Text := "c48e4f20396b96d1098b69899329a312f4cb2a167ca13291861cf718b1d669e3".toList

def loginChecksum : Text := "69c6f657f3cd37208e1b4d22153c86fe0e8895109afcbe69bfe10c10fb12d90d".toList

def removalChecksum : Text := "61237c1ce7a0865b333172eaa4ad6b7045ba45386faa7cc4e5b0d026b43130f2".toList

def sampleDigests : Digests where
  table := [
    ("|2b1f0c9a-6d3e-4f7b-9c55-0a1b2c3d4e5f|user|7c9e6679-7425-40de-944b-e07fc1f90ae7|user.login|user|".toList ++
      "7c9e6679-7425-40de-944b-e07fc1f90ae7|success|\x7b\"method\": \"password | totp\"\x7d|".toList ++
      "2026-06-15T08:30:00.000000Z".toList, loginContent),
    ('|' :: loginContent, loginChecksum),
    ("|9d2c4e10-8a5b-4c3d-b7e6-112233445566|user|7c9e6679-7425-40de-944b-e07fc1f90ae7|device.delete|device|".toList ++
      "3f333df6-90a4-4fda-8dd3-9485d27cee36|success||2026-06-15T08:31:12.250000Z".toList, removalContent),
    (loginChecksum ++ '|' :: removalContent, removalChecksum)]
  distinct := by decide +kernel
  hex := by decide +kernel

def homeAddress : Varchar 45 := ⟨"203.0.113.7".toList, by decide⟩

def otherAddress : Varchar 45 := ⟨"198.51.100.23".toList, by decide⟩

def sampleChain : List ChainEntry :=
  [⟨1, loginId, some deviceUuid, loginContent, none, loginChecksum⟩,
    ⟨2, removalId, some deviceUuid, removalContent, some loginChecksum, removalChecksum⟩]

end RemudaRmm.Audit
