import Mathlib.Data.List.Sort
import RemudaRmm.Foundation.Linkage
import RemudaRmm.Audit.AuditPayload

/-! The tamper-evidence chain of `audit_logs`: one entry for each row, linked by hashes in the order of `chain_seq`
within an organisation, and appended when the row is committed. The verifier walks the entries and then looks for rows
without one. -/
namespace RemudaRmm.Audit
open Foundation List

/-- `encode(sha256(convert_to(…, 'UTF8')), 'hex')`, with the hash taken to be injective. -/
structure IdealHash where
  hex : Text → Text
  injective : Function.Injective hex
  digits : ∀ t, ∀ c ∈ hex t, isHexDigit c = true
  some_digit : ∀ t, hex t ≠ []

structure ChainEntry where
  chainSeq : ℕ
  auditId : Uuid
  orgId : Option Uuid
  contentChecksum : Text
  prevChainChecksum : Option Text
  chainChecksum : Text
  deriving DecidableEq

structure Tables where
  auditLogs : List AuditRow
  auditLogChain : List ChainEntry

/-- `WHERE org_id IS NOT DISTINCT FROM p_org_id ORDER BY chain_seq`. -/
def walk (chain : List ChainEntry) (org : Option Uuid) : List ChainEntry :=
  (chain.filter (·.orgId = org)).insertionSort fun a b => a.chainSeq ≤ b.chainSeq

/-- `chain_checksum` at the greatest `chain_seq`. -/
def headChecksum (chain : List ChainEntry) (org : Option Uuid) : Option Text :=
  (walk chain org).getLast?.map ChainEntry.chainChecksum

section Hashed
variable (hash : IdealHash) (zone : Moment → Moment)
variable {c : ChainEntry} {rows : List AuditRow} {org : Option Uuid}

def contentHash (a : AuditRow) : Option Text := (auditLogCanonicalPayload zone a none).map hash.hex

def linkHash (prev : Option Text) (content : Text) : Text := hash.hex (prev.getD [] ++ '|' :: content)

/-- The entry of a row behind a given predecessor; a row without a payload violates the `NOT NULL` of the column. -/
def entryOf (seq : ℕ) (a : AuditRow) (prev : Option Text) : Option ChainEntry :=
  (contentHash hash zone a).map fun content => ⟨seq, a.id, a.orgId, content, prev, linkHash hash prev content⟩

/-- `audit_log_chain_audit_id_uniq`, `audit_log_chain_prev_uniq` and `audit_log_chain_genesis_uniq`. -/
def Admits (chain : List ChainEntry) (e : ChainEntry) : Prop :=
  ∀ d ∈ chain, d.auditId ≠ e.auditId ∧ (e.prevChainChecksum ≠ none → d.prevChainChecksum ≠ e.prevChainChecksum) ∧
    (e.prevChainChecksum = none → d.orgId = e.orgId → d.prevChainChecksum ≠ none)
  deriving Decidable

def insertEntry (chain : List ChainEntry) (e : ChainEntry) : Option (List ChainEntry) :=
  if Admits chain e then some (chain ++ [e]) else none

def auditLogSealOne (chain : List ChainEntry) (seq : ℕ) (a : AuditRow) : Option (List ChainEntry) :=
  (entryOf hash zone seq a (headChecksum chain a.orgId)).bind (insertEntry chain)

structure Broken where
  brokenId : Uuid
  (expected actual : Option Text)

def linkBreak (isFirst : Bool) (prev : Option Text) (c : ChainEntry) : List Broken :=
  if isFirst = false ∧ c.prevChainChecksum ≠ prev then [⟨c.auditId, prev, c.prevChainChecksum⟩] else []

def hashBreak (c : ChainEntry) : List Broken :=
  if c.chainChecksum = linkHash hash c.prevChainChecksum c.contentChecksum then []
  else [⟨c.auditId, some (linkHash hash c.prevChainChecksum c.contentChecksum), some c.chainChecksum⟩]

def contentBreak (rows : List AuditRow) (c : ChainEntry) : List Broken :=
  match rows.find? (·.id = c.auditId) with
  | none => [⟨c.auditId, some c.contentChecksum, none⟩]
  | some a =>
    if contentHash hash zone a = some c.contentChecksum then []
    else [⟨c.auditId, contentHash hash zone a, some c.contentChecksum⟩]

def walkBreaks (rows : List AuditRow) : Bool → Option Text → List ChainEntry → List Broken
  | _, _, [] => []
  | isFirst, prev, c :: rest =>
    linkBreak isFirst prev c ++ hashBreak hash c ++ contentBreak hash zone rows c ++
      walkBreaks rows false (some c.chainChecksum) rest

def earlier (a b : AuditRow) : Bool :=
  a.timestamp.le b.timestamp && (!b.timestamp.le a.timestamp || textLe a.id.text b.id.text)

def unsealedRows (t : Tables) (org : Option Uuid) : List AuditRow :=
  (t.auditLogs.filter fun a => a.orgId = org ∧ ∀ c ∈ t.auditLogChain, c.auditId ≠ a.id).insertionSort (earlier · ·)

def auditLogVerifyChain (t : Tables) (org : Option Uuid) : List Broken :=
  walkBreaks hash zone t.auditLogs true none (walk t.auditLogChain org) ++
    (unsealedRows t org).map fun a => ⟨a.id, some "sealed".toList, none⟩

theorem linkBreak_eq_nil {isFirst : Bool} {prev : Option Text} :
    linkBreak isFirst prev c = [] ↔ (isFirst = false → c.prevChainChecksum = prev) := by
  unfold linkBreak
  split
  · rename_i broken
    exact iff_of_false (cons_ne_nil _ _) fun fine => broken.2 (fine broken.1)
  · rename_i fine
    exact iff_of_true rfl fun notFirst => by_contra fun apart => fine ⟨notFirst, apart⟩

theorem hashBreak_eq_nil :
    hashBreak hash c = [] ↔ c.chainChecksum = linkHash hash c.prevChainChecksum c.contentChecksum := by
  unfold hashBreak
  split
  · rename_i same
    exact iff_of_true rfl same
  · rename_i apart
    exact iff_of_false (cons_ne_nil _ _) apart

theorem contentBreak_eq_nil :
    contentBreak hash zone rows c = [] ↔
      ∃ a, rows.find? (·.id = c.auditId) = some a ∧ contentHash hash zone a = some c.contentChecksum := by
  unfold contentBreak
  split
  · rename_i missing
    exact iff_of_false (cons_ne_nil _ _) fun ⟨a, found, _⟩ => by rw [missing] at found; cases found
  · rename_i a found
    rw [found]
    split
    · rename_i same
      exact iff_of_true rfl ⟨a, rfl, same⟩
    · rename_i apart
      refine iff_of_false (cons_ne_nil _ _) ?_
      rintro ⟨b, same, content⟩
      cases same
      exact apart content

/-- An entry whose own hash is right and whose row still has the content it was sealed with. -/
def Intact (rows : List AuditRow) (c : ChainEntry) : Prop :=
  c.chainChecksum = linkHash hash c.prevChainChecksum c.contentChecksum ∧
    ∃ a, rows.find? (·.id = c.auditId) = some a ∧ contentHash hash zone a = some c.contentChecksum

abbrev EntriesLinked (l : List ChainEntry) : Prop := Linked ChainEntry.prevChainChecksum ChainEntry.chainChecksum l

theorem walkBreaks_rest_eq_nil {l : List ChainEntry} {first : ChainEntry} :
    walkBreaks hash zone rows false (some first.chainChecksum) l = [] ↔
      EntriesLinked (first :: l) ∧ ∀ c ∈ l, Intact hash zone rows c := by
  induction l generalizing first with
  | nil => exact iff_of_true rfl ⟨isChain_singleton first, fun c member => absurd member not_mem_nil⟩
  | cons c l ih =>
    rw [walkBreaks, append_eq_nil_iff, append_eq_nil_iff, append_eq_nil_iff, linkBreak_eq_nil,
      hashBreak_eq_nil, contentBreak_eq_nil, ih, EntriesLinked, EntriesLinked, Linked, Linked, isChain_cons_cons,
      forall_mem_cons]
    constructor
    · rintro ⟨⟨⟨link, chained⟩, content⟩, rest, intact⟩
      exact ⟨⟨link rfl, rest⟩, ⟨chained, content⟩, intact⟩
    · rintro ⟨⟨link, rest⟩, ⟨chained, content⟩, intact⟩
      exact ⟨⟨⟨fun _ => link, chained⟩, content⟩, rest, intact⟩

theorem walkBreaks_eq_nil {l : List ChainEntry} :
    walkBreaks hash zone rows true none l = [] ↔ EntriesLinked l ∧ ∀ c ∈ l, Intact hash zone rows c := by
  cases l with
  | nil => exact iff_of_true rfl ⟨isChain_nil, fun c member => absurd member not_mem_nil⟩
  | cons c l =>
    rw [walkBreaks, append_eq_nil_iff, append_eq_nil_iff, append_eq_nil_iff, linkBreak_eq_nil,
      hashBreak_eq_nil, contentBreak_eq_nil, walkBreaks_rest_eq_nil, forall_mem_cons]
    constructor
    · rintro ⟨⟨⟨-, chained⟩, content⟩, linked, intact⟩
      exact ⟨linked, ⟨chained, content⟩, intact⟩
    · rintro ⟨linked, ⟨chained, content⟩, intact⟩
      exact ⟨⟨⟨fun wrong => absurd wrong (by decide), chained⟩, content⟩, linked, intact⟩

theorem mem_walk {chain : List ChainEntry} : c ∈ walk chain org ↔ c ∈ chain ∧ c.orgId = org := by
  rw [walk, mem_insertionSort, mem_filter, decide_eq_true_eq]

theorem unsealedRows_eq_nil {t : Tables} :
    unsealedRows t org = [] ↔ ∀ a ∈ t.auditLogs, a.orgId = org → ∃ c ∈ t.auditLogChain, c.auditId = a.id := by
  rw [unsealedRows, ← length_eq_zero_iff, length_insertionSort, length_eq_zero_iff, filter_eq_nil_iff]
  refine forall₂_congr fun a _ => ?_
  rw [decide_eq_true_eq, not_and]
  refine forall_congr' fun _ => ?_
  simp only [ne_eq, not_forall, not_not, exists_prop]

theorem auditLogVerifyChain_eq_nil {t : Tables} :
    auditLogVerifyChain hash zone t org = [] ↔
      EntriesLinked (walk t.auditLogChain org) ∧ (∀ c ∈ walk t.auditLogChain org, Intact hash zone t.auditLogs c) ∧
        ∀ a ∈ t.auditLogs, a.orgId = org → ∃ c ∈ t.auditLogChain, c.auditId = a.id := by
  rw [auditLogVerifyChain, append_eq_nil_iff, map_eq_nil_iff, walkBreaks_eq_nil, unsealedRows_eq_nil, and_assoc]

end Hashed

end RemudaRmm.Audit
