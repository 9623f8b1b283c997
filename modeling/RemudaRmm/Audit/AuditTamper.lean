import RemudaRmm.Audit.SealedLog

/-! What an empty answer of the verifier says of an audit log that was altered behind its back. The columns that the
payload leaves out can be rewritten unnoticed, and so can the place where the action ends. -/
namespace RemudaRmm.Audit
open Foundation List
variable (hash : IdealHash) (zone : Moment → Moment)

structure SealedLog where
  tables : Tables
  honest : Sealed hash zone tables

variable {hash zone} (log : SealedLog hash zone)

/-- Rows are rewritten, removed with their entries and added without one; the entries left stay as they were. -/
structure Alteration where
  keep : ChainEntry → Bool
  rows : List AuditRow
  ids : (rows.map AuditRow.id).Nodup
  cascade : ∀ c ∈ log.tables.auditLogChain, keep c = true → ∃ a ∈ rows, a.id = c.auditId

namespace Alteration
variable {log} (alteration : Alteration log) (org : Option Uuid)

def tables : Tables := ⟨alteration.rows, log.tables.auditLogChain.filter alteration.keep⟩

def survivors : List ChainEntry := (walk log.tables.auditLogChain org).filter alteration.keep

/-- If the verifier reports nothing, the surviving entries are a block and every surviving row is as it was sealed. -/
def Evident : Prop :=
  auditLogVerifyChain hash zone alteration.tables org = [] →
    alteration.survivors org <:+: walk log.tables.auditLogChain org ∧
      ∀ c ∈ alteration.survivors org, ∀ a ∈ alteration.rows, a.id = c.auditId → a ∈ log.tables.auditLogs

/-- The alteration changes surviving rows only where the payload does not tell; there is no gap and no unsealed row. -/
structure Hidden : Prop where
  block : alteration.survivors org <:+: walk log.tables.auditLogChain org
  alike : ∀ c ∈ alteration.survivors org, ∀ a ∈ alteration.rows, a.id = c.auditId →
    ∀ b ∈ log.tables.auditLogs, b.id = a.id → Alike zone a b
  noneAdded : ∀ a ∈ alteration.rows, a.orgId = org →
    ∃ c ∈ log.tables.auditLogChain, alteration.keep c ∧ c.auditId = a.id
  changed : ∃ c ∈ alteration.survivors org, ∃ a ∈ alteration.rows, a.id = c.auditId ∧ a ∉ log.tables.auditLogs

variable {alteration org}

theorem mem_survivors {c : ChainEntry} :
    c ∈ alteration.survivors org ↔ (c ∈ log.tables.auditLogChain ∧ c.orgId = org) ∧ alteration.keep c = true := by
  rw [survivors, mem_filter, mem_walk]

theorem walk_tables : walk alteration.tables.auditLogChain org = alteration.survivors org := by
  rw [survivors, log.honest.walk_eq, tables, ← ofOrg_filter]
  refine walk_eq_ofOrg ?_
  rw [ofOrg_filter]
  exact (log.honest.ascending org).sublist filter_sublist

theorem linked_survivors_iff :
    EntriesLinked (alteration.survivors org) ↔ alteration.survivors org <:+: walk log.tables.auditLogChain org := by
  have linked := log.honest.linked org
  rw [← log.honest.walk_eq] at linked
  constructor
  · refine fun again => linked.infix_of_sublist ?_ filter_sublist again
    rw [log.honest.walk_eq]
    exact log.honest.keys org
  · exact linked.part

theorem find_row {a : AuditRow} (member : a ∈ alteration.rows) : alteration.rows.find? (·.id = a.id) = some a := by
  cases found : alteration.rows.find? (·.id = a.id) with
  | none => exact absurd rfl (of_decide_eq_false (Bool.eq_false_iff.mpr (find?_eq_none.mp found a member)))
  | some b =>
    have same : b.id = a.id := by simpa using find?_some found
    rw [inj_on_of_nodup_map alteration.ids (mem_of_find?_eq_some found) member same]

theorem intact_iff {c : ChainEntry} (member : c ∈ alteration.survivors org) :
    Intact hash zone alteration.rows c ↔
      ∀ a ∈ alteration.rows, a.id = c.auditId → ∀ b ∈ log.tables.auditLogs, b.id = a.id → Alike zone a b := by
  obtain ⟨⟨entry, -⟩, kept⟩ := mem_survivors.mp member
  obtain ⟨b, row, made⟩ := log.honest.entries c entry
  obtain ⟨a, present, home⟩ := alteration.cascade c entry kept
  constructor
  · rintro ⟨-, found, there, content⟩ a' present' home' b' row' home''
    rw [← home', find_row present'] at there
    cases there
    obtain rfl := log.honest.eq_of_id row' row (home''.trans (home'.trans made.auditId))
    exact (contentHash_eq_iff made.content).mp content
  · intro alike
    have same := alike a present home b row (made.auditId.symm.trans home.symm)
    exact ⟨made.chained, a, home ▸ find_row present, (contentHash_eq_iff made.content).mpr same⟩

theorem verifyChain_eq_nil_iff :
    auditLogVerifyChain hash zone alteration.tables org = [] ↔
      alteration.survivors org <:+: walk log.tables.auditLogChain org ∧
      (∀ c ∈ alteration.survivors org, ∀ a ∈ alteration.rows, a.id = c.auditId →
        ∀ b ∈ log.tables.auditLogs, b.id = a.id → Alike zone a b) ∧
      ∀ a ∈ alteration.rows, a.orgId = org → ∃ c ∈ log.tables.auditLogChain, alteration.keep c ∧ c.auditId = a.id := by
  rw [auditLogVerifyChain_eq_nil, walk_tables, linked_survivors_iff]
  refine and_congr_right fun _ => and_congr (forall₂_congr fun c member => intact_iff member) ?_
  refine forall₃_congr fun a _ _ => ?_
  simp only [tables, mem_filter, and_assoc]

end Alteration

/-- The chain makes an alteration evident exactly when it is none that hides in the columns left out of the payload. -/
theorem tamper_evident_iff (alteration : Alteration log) (org : Option Uuid) :
    alteration.Evident org ↔ ¬alteration.Hidden org := by
  rw [Alteration.Evident, Alteration.verifyChain_eq_nil_iff]
  constructor
  · rintro evident ⟨block, alike, noneAdded, c, member, a, present, home, changed⟩
    exact changed ((evident ⟨block, alike, noneAdded⟩).2 c member a present home)
  · rintro shown ⟨block, alike, noneAdded⟩
    refine ⟨block, fun c member a present home => ?_⟩
    by_contra changed
    exact shown ⟨block, alike, noneAdded, c, member, a, present, home, changed⟩

/-- Two rows of an organisation, sealed one after the other by a session at UTC. -/
def sampleLog : SealedLog sampleDigests.hash id where
  tables := ⟨[loginRow homeAddress, removalRow], sampleChain⟩
  honest := by
    have first : Sealed sampleDigests.hash id ⟨[loginRow homeAddress], sampleChain.take 1⟩ :=
      sealed_empty.sealOne (loginRow homeAddress) 1 (by decide) (by decide) (by decide +kernel)
    exact first.sealOne removalRow 2 (by decide +kernel) (by decide +kernel) (by decide +kernel)

def rewrittenAddress : Alteration sampleLog where
  keep _ := true
  rows := [loginRow otherAddress, removalRow]
  ids := by decide +kernel
  cascade := by decide +kernel

theorem rewritten_address_unnoticed :
    auditLogVerifyChain sampleDigests.hash id rewrittenAddress.tables (some deviceUuid) = [] ∧
      ¬rewrittenAddress.Evident (some deviceUuid) := by
  have silent : auditLogVerifyChain sampleDigests.hash id rewrittenAddress.tables (some deviceUuid) = [] := by
    decide +kernel
  refine ⟨silent, fun evident => ?_⟩
  have kept := (evident silent).2 ⟨1, loginId, some deviceUuid, loginContent, none, loginChecksum⟩ (by decide +kernel)
    (loginRow otherAddress) mem_cons_self rfl
  exact absurd kept (by decide +kernel)

end RemudaRmm.Audit
