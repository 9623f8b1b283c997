import RemudaRmm.Audit.AuditStatements
import RemudaRmm.Audit.SealedLog

/-! What every interleaving keeps of the audit log: what is committed, and what each transaction sees of it and of its
own rows, are sealed logs. A lock keeps the chain of an organisation from growing beside the one that seals. -/
namespace RemudaRmm.Audit
open Foundation List Option List Tables

section Parts
variable {hash : IdealHash} {zone : Moment → Moment} {t : Tables}
variable {ids : List Uuid} {org : Option Uuid} {rows : List (AuditRow × ChainEntry)}

theorem ascending_cut {l : List ChainEntry} (ascending : Ascending l) (bound : ℕ) :
    l.filter (fun c => decide ¬c.chainSeq < bound) <:+ l := by
  induction l with
  | nil => exact suffix_rfl
  | cons c l ih =>
    obtain ⟨above, rest⟩ := pairwise_cons.mp ascending
    by_cases below : c.chainSeq < bound
    · rw [filter_cons_of_neg (by simpa using below)]
      exact (ih rest).trans (suffix_cons c l)
    · have all : ∀ d ∈ c :: l, decide (¬d.chainSeq < bound) = true := by
        intro d member
        rcases mem_cons.mp member with rfl | later
        · exact decide_eq_true below
        · exact decide_eq_true (fun small => below ((above d later).trans small))
      rw [filter_eq_self.mpr all]

/-- The ids are those of the entries of an organisation below a bound. -/
def Cut (chain : List ChainEntry) (ids : List Uuid) (org : Option Uuid) (bound : ℕ) : Prop :=
  ∀ c ∈ chain, c.auditId ∈ ids ↔ c.orgId = org ∧ c.chainSeq < bound

theorem ofOrg_cut (log : Sealed hash zone t) {bound : ℕ}
    (cut : Cut t.auditLogChain ids org bound) (home : Option Uuid) :
    ofOrg (t.deleteRows ids).auditLogChain home <:+ ofOrg t.auditLogChain home := by
  rw [deleteRows, ofOrg_filter]
  by_cases same : home = org
  · subst same
    have congr : (ofOrg t.auditLogChain home).filter (fun c => decide (c.auditId ∉ ids)) =
        (ofOrg t.auditLogChain home).filter (fun c => decide ¬c.chainSeq < bound) := by
      refine filter_congr fun c member => ?_
      obtain ⟨among, own⟩ := mem_ofOrg.mp member
      rw [decide_eq_decide, cut c among, own]
      simp only [true_and]
    rw [congr]
    exact ascending_cut (log.ascending home) bound
  · have all : ∀ c ∈ ofOrg t.auditLogChain home, decide (c.auditId ∉ ids) = true := by
      intro c member
      obtain ⟨among, own⟩ := mem_ofOrg.mp member
      exact decide_eq_true fun gone => same (own.symm.trans ((cut c among).mp gone).1)
    rw [filter_eq_self.mpr all]

theorem Sealed.deleteRows (log : Sealed hash zone t) {bound : ℕ}
    (cut : Cut t.auditLogChain ids org bound) : Sealed hash zone (t.deleteRows ids) := by
  refine log.remove (fun id => decide (id ∉ ids)) fun home => ?_
  rw [← ofOrg_filter]
  exact (ofOrg_cut log cut home).isInfix

theorem unsealedOld_eq_nil (log : Sealed hash zone t) (org : Option Uuid) (cutoff : Timestamp) :
    unsealedOld t org cutoff = [] := by
  rw [unsealedOld, map_eq_nil_iff, filter_eq_nil_iff]
  intro a row unsealed
  obtain ⟨-, -, none⟩ := of_decide_eq_true unsealed
  obtain ⟨c, entry, made⟩ := log.rows a row
  exact none c entry made.auditId

theorem deleteRows_adding (apart : ∀ p ∈ rows, p.1.id ∉ ids ∧ p.2.auditId ∉ ids) :
    (t.adding rows).deleteRows ids = (t.deleteRows ids).adding rows := by
  have firsts : (rows.map Prod.fst).filter (fun a => decide (a.id ∉ ids)) = rows.map Prod.fst := by
    refine filter_eq_self.mpr fun a member => ?_
    obtain ⟨p, among, rfl⟩ := mem_map.mp member
    exact decide_eq_true (apart p among).1
  have seconds : (rows.map Prod.snd).filter (fun c => decide (c.auditId ∉ ids)) = rows.map Prod.snd := by
    refine filter_eq_self.mpr fun c member => ?_
    obtain ⟨p, among, rfl⟩ := mem_map.mp member
    exact decide_eq_true (apart p among).2
  simp only [deleteRows, adding, filter_append, firsts, seconds]

theorem adding_append (more rows : List (AuditRow × ChainEntry)) :
    t.adding (more ++ rows) = (t.adding more).adding rows := by
  simp only [adding, map_append, append_assoc]

theorem mem_adding_logs {a : AuditRow} : a ∈ (t.adding rows).auditLogs ↔ a ∈ t.auditLogs ∨ ∃ p ∈ rows, p.1 = a := by
  simp only [adding, mem_append, List.mem_map]

theorem mem_adding_chain {c : ChainEntry} :
    c ∈ (t.adding rows).auditLogChain ↔ c ∈ t.auditLogChain ∨ ∃ p ∈ rows, p.2 = c := by
  simp only [adding, mem_append, List.mem_map]

theorem ofOrg_eq_nil {l : List ChainEntry} (foreign : ∀ c ∈ l, c.orgId ≠ org) : ofOrg l org = [] :=
  filter_eq_nil_iff.mpr fun c member same => foreign c member (of_decide_eq_true same)

theorem Sealed.merge {x y : List (AuditRow × ChainEntry)} (first : Sealed hash zone (t.adding x))
    (second : Sealed hash zone (t.adding y)) (madeX : ∀ p ∈ x, Seals hash zone p.2 p.1)
    (madeY : ∀ p ∈ y, Seals hash zone p.2 p.1)
    (apart : ∀ p ∈ x, ∀ q ∈ y, p.1.id ≠ q.1.id ∧ p.1.orgId ≠ q.1.orgId) : Sealed hash zone ((t.adding x).adding y) := by
  have split : ∀ org, ofOrg ((t.adding x).adding y).auditLogChain org = ofOrg (t.adding x).auditLogChain org ∨
      ofOrg ((t.adding x).adding y).auditLogChain org = ofOrg (t.adding y).auditLogChain org := by
    intro org
    by_cases own : ∃ q ∈ y, q.2.orgId = org
    · obtain ⟨q, member, rfl⟩ := own
      refine .inr ?_
      have none : ofOrg (x.map Prod.snd) q.2.orgId = [] := by
        refine ofOrg_eq_nil fun c sealed => ?_
        obtain ⟨p, among, rfl⟩ := mem_map.mp sealed
        rw [(madeX p among).orgId, (madeY q member).orgId]
        exact (apart p among q member).2
      simp only [adding, ofOrg_append, none, append_nil]
    · refine .inl ?_
      have none : ofOrg (y.map Prod.snd) org = [] := by
        refine ofOrg_eq_nil fun c sealed same => ?_
        obtain ⟨q, among, rfl⟩ := mem_map.mp sealed
        exact own ⟨q, among, same⟩
      rw [adding, ofOrg_append, none, append_nil]
  constructor
  · rw [adding, map_append, List.map_map]
    have tail := second.ids
    rw [adding, map_append, List.map_map] at tail
    refine first.ids.append tail.of_append_right fun id left right => ?_
    obtain ⟨q, member, rfl⟩ := mem_map.mp right
    obtain ⟨a, old, same⟩ := mem_map.mp left
    rcases mem_adding_logs.mp old with among | ⟨p, among, rfl⟩
    · exact disjoint_of_nodup_append tail (mem_map.mpr ⟨a, among, same⟩) (mem_map.mpr ⟨q, member, rfl⟩)
    · exact (apart p among q member).1 same
  · rw [adding, map_append, List.map_map]
    have tail := second.sealedOnce
    rw [adding, map_append, List.map_map] at tail
    refine first.sealedOnce.append tail.of_append_right fun id left right => ?_
    obtain ⟨q, member, rfl⟩ := mem_map.mp right
    obtain ⟨c, old, same⟩ := mem_map.mp left
    rcases mem_adding_chain.mp old with among | ⟨p, among, rfl⟩
    · exact disjoint_of_nodup_append tail (mem_map.mpr ⟨c, among, same⟩) (mem_map.mpr ⟨q, member, rfl⟩)
    · exact (apart p among q member).1 ((madeX p among).auditId.symm.trans (same.trans (madeY q member).auditId))
  · intro c member
    rcases mem_adding_chain.mp member with old | ⟨q, among, rfl⟩
    · obtain ⟨a, row, seals⟩ := first.entries c old
      exact ⟨a, mem_adding_logs.mpr (.inl row), seals⟩
    · exact ⟨q.1, mem_adding_logs.mpr (.inr ⟨q, among, rfl⟩), madeY q among⟩
  · intro a member
    rcases mem_adding_logs.mp member with old | ⟨q, among, rfl⟩
    · obtain ⟨c, entry, seals⟩ := first.rows a old
      exact ⟨c, mem_adding_chain.mpr (.inl entry), seals⟩
    · exact ⟨q.2, mem_adding_chain.mpr (.inr ⟨q, among, rfl⟩), madeY q among⟩
  · intro org
    rcases split org with same | same
    · exact same ▸ first.ascending org
    · exact same ▸ second.ascending org
  · intro org
    rcases split org with same | same
    · exact same ▸ first.linked org
    · exact same ▸ second.linked org
  · intro c member
    rcases mem_adding_chain.mp member with old | ⟨q, among, rfl⟩
    · exact first.rooted c old
    · exact second.rooted q.2 (mem_adding_chain.mpr (.inr ⟨q, among, rfl⟩))

end Parts

section Transactions
variable (platform : AuditPlatform)

def Writer.heldIds (x : Writer) : List Uuid := x.done.map (·.1.id) ++ x.rows.map AuditRow.id

/-- The row whose turn it is has the lock of its organisation, and the head that was read is still the head if there is
one. -/
def Stage.Fits (view : Tables) (locks : ℤ → Option ℕ) (i : ℕ) (rows : List AuditRow) : Stage → Prop
  | .writing => True
  | .sealing => True
  | .locked => ∀ a ∈ rows.head?, locks (platform.lockKey a.orgId) = some i
  | .headRead prev => ∀ a ∈ rows.head?, locks (platform.lockKey a.orgId) = some i ∧
      (ofOrg view.auditLogChain a.orgId ≠ [] →
        prev = (ofOrg view.auditLogChain a.orgId).getLast?.map ChainEntry.chainChecksum) ∧
      ∃ n, Height platform.hash prev n

structure Writer.Fits (t : Tables) (idIndex : Uuid → Option Holder) (locks : ℤ → Option ℕ) (last i : ℕ) (x : Writer) :
    Prop where
  view : Sealed platform.hash platform.zone (t.adding x.done)
  made : ∀ p ∈ x.done, Seals platform.hash platform.zone p.2 p.1
  ids : x.heldIds.Nodup
  held : ∀ id ∈ x.heldIds, idIndex id = some (.writer i)
  locked : ∀ p ∈ x.done, locks (platform.lockKey p.1.orgId) = some i
  seqs : ∀ p ∈ x.done, 1 ≤ p.2.chainSeq ∧ p.2.chainSeq ≤ last
  stage : x.stage.Fits platform (t.adding x.done) locks i x.rows

/-- The entries that a prune is about to delete are those of its organisation below a bound that no entry under way is
below, and all their rows are old. -/
structure Selected (t : Tables) (pending : ChainEntry → Prop) (last : ℕ) (org : Uuid) (cutoff : Timestamp)
    (doomed : List ChainEntry) : Prop where
  bounded : ∃ bound ≤ last + 1, (∀ c ∈ t.auditLogChain, c ∈ doomed ↔ c.orgId = some org ∧ c.chainSeq < bound) ∧
    ∀ c, pending c → c.orgId = some org → bound ≤ c.chainSeq
  apart : ∀ c, pending c → c ∉ doomed
  past : ∀ c ∈ doomed, c.chainSeq ≤ last
  old : ∀ c ∈ t.auditLogChain, c ∈ doomed → ∀ a ∈ t.auditLogs, a.id = c.auditId → cutoff.le a.timestamp = false

def Prune.Fits (t : Tables) (pending : ChainEntry → Prop) (last : ℕ) : Prune → Prop
  | .idle => True
  | .selected org cutoff doomed => Selected t pending last org cutoff doomed
  | .swept org cutoff doomed unsealed => Selected t pending last org cutoff doomed ∧ unsealed = []

def World.Pending (w : World) (c : ChainEntry) : Prop := ∃ i, ∃ p ∈ (w.writers i).done, p.2 = c

structure Steady (w : World) : Prop where
  log : Sealed platform.hash platform.zone w.tables
  held : ∀ a ∈ w.tables.auditLogs, w.idIndex a.id = some .committed
  seqs : ∀ c ∈ w.tables.auditLogChain, 1 ≤ c.chainSeq ∧ c.chainSeq ≤ w.lastChainSeq
  writers : ∀ i, (w.writers i).Fits platform w.tables w.idIndex w.locks w.lastChainSeq i
  prunes : ∀ i, (w.prunes i).Fits w.tables w.Pending w.lastChainSeq
  old : ∀ p ∈ w.pruned, p.2.le p.1.timestamp = false

variable {platform} {t : Tables} {idIndex idIndex' : Uuid → Option Holder} {locks locks' : ℤ → Option ℕ}
  {last last' i j : ℕ} {x y : Writer} {pending pending' : ChainEntry → Prop}

theorem adding_nil : t.adding [] = t := by simp only [adding, map_nil, append_nil]

theorem fits_fresh (log : Sealed platform.hash platform.zone t) : Writer.Fits platform t idIndex locks last i {} where
  view := adding_nil.symm ▸ log
  made := fun _ member => absurd member not_mem_nil
  ids := nodup_nil
  held := fun _ member => absurd member not_mem_nil
  locked := fun _ member => absurd member not_mem_nil
  seqs := fun _ member => absurd member not_mem_nil
  stage := trivial

namespace Writer.Fits

theorem mono (fits : x.Fits platform t idIndex locks last i)
    (index : ∀ id, idIndex id = some (.writer i) → idIndex' id = some (.writer i))
    (lock : ∀ key, locks key = some i → locks' key = some i) (le : last ≤ last') :
    x.Fits platform t idIndex' locks' last' i where
  view := fits.view
  made := fits.made
  ids := fits.ids
  held := fun id member => index id (fits.held id member)
  locked := fun p member => lock _ (fits.locked p member)
  seqs := fun p member => ⟨(fits.seqs p member).1, (fits.seqs p member).2.trans le⟩
  stage := by
    have stage := fits.stage
    cases at_stage : x.stage with
    | writing | sealing => trivial
    | locked =>
      rw [at_stage] at stage
      exact fun a head => lock _ (stage a head)
    | headRead prev =>
      rw [at_stage] at stage
      exact fun a head => ⟨lock _ (stage a head).1, (stage a head).2⟩

theorem doneId_mem {p : AuditRow × ChainEntry} (member : p ∈ x.done) : p.1.id ∈ x.heldIds :=
  mem_append_left _ (mem_map.mpr ⟨p, member, rfl⟩)

theorem publish (fits : x.Fits platform t idIndex locks last i) (other : y.Fits platform t idIndex locks last j)
    (apart : j ≠ i) : x.Fits platform (t.adding y.done) idIndex locks last i := by
  have strangers : ∀ p ∈ y.done, ∀ q ∈ x.done, p.1.id ≠ q.1.id ∧ p.1.orgId ≠ q.1.orgId := by
    intro p first q second
    refine ⟨fun same => ?_, fun same => ?_⟩
    · have both := (other.held _ (doneId_mem first)).symm.trans (same ▸ fits.held _ (doneId_mem second))
      exact apart (Holder.writer.inj (some.inj both))
    · have both := (other.locked p first).symm.trans (same ▸ fits.locked q second)
      exact apart (some.inj both)
  have unseen : ∀ org, locks (platform.lockKey org) = some i →
      ofOrg ((t.adding y.done).adding x.done).auditLogChain org = ofOrg (t.adding x.done).auditLogChain org := by
    intro org mine
    have none : ofOrg (y.done.map Prod.snd) org = [] := by
      refine ofOrg_eq_nil fun c sealed same => ?_
      obtain ⟨p, member, rfl⟩ := mem_map.mp sealed
      have theirs := other.locked p member
      rw [← (other.made p member).orgId, same, mine] at theirs
      exact apart (some.inj theirs).symm
    simp only [adding, ofOrg_append, none, append_nil]
  exact {
    view := other.view.merge fits.view other.made fits.made strangers
    made := fits.made
    ids := fits.ids
    held := fits.held
    locked := fits.locked
    seqs := fits.seqs
    stage := by
      have stage := fits.stage
      cases at_stage : x.stage with
      | writing | sealing => trivial
      | locked =>
        rw [at_stage] at stage
        exact stage
      | headRead prev =>
        rw [at_stage] at stage
        intro a head
        obtain ⟨mine, current, height⟩ := stage a head
        exact ⟨mine, by rw [unseen _ mine]; exact current, height⟩ }

theorem deleteRows (fits : x.Fits platform t idIndex locks last i) {ids : List Uuid} {org : Option Uuid} {bound : ℕ}
    (cut : Cut (t.adding x.done).auditLogChain ids org bound) (apart : ∀ p ∈ x.done, p.1.id ∉ ids) :
    x.Fits platform (t.deleteRows ids) idIndex locks last i := by
  have move : (t.adding x.done).deleteRows ids = (t.deleteRows ids).adding x.done :=
    deleteRows_adding fun p member => ⟨apart p member, (fits.made p member).auditId.symm ▸ apart p member⟩
  exact {
    view := move ▸ fits.view.deleteRows cut
    made := fits.made
    ids := fits.ids
    held := fits.held
    locked := fits.locked
    seqs := fits.seqs
    stage := by
      have stage := fits.stage
      cases at_stage : x.stage with
      | writing | sealing => trivial
      | locked =>
        rw [at_stage] at stage
        exact stage
      | headRead prev =>
        rw [at_stage] at stage
        intro a head
        obtain ⟨mine, current, height⟩ := stage a head
        refine ⟨mine, fun left => ?_, height⟩
        rw [← move] at left ⊢
        obtain ⟨gone, split⟩ := ofOrg_cut fits.view cut a.orgId
        have whole : ofOrg (t.adding x.done).auditLogChain a.orgId ≠ [] := by
          rw [← split]
          exact append_ne_nil_of_right_ne_nil gone left
        rw [current whole, ← split, getLast?_append_of_ne_nil gone left] }

end Writer.Fits

namespace Prune.Fits

theorem mono {p : Prune} (fits : p.Fits t pending last) (le : last ≤ last')
    (later : ∀ c, pending' c → pending c ∨ last < c.chainSeq) : p.Fits t pending' last' := by
  have step : ∀ {org cutoff doomed}, Selected t pending last org cutoff doomed →
      Selected t pending' last' org cutoff doomed := by
    intro org cutoff doomed selected
    obtain ⟨bound, low, exact_part, above⟩ := selected.bounded
    refine ⟨⟨bound, by omega, exact_part, fun c under home => ?_⟩, fun c under => ?_, fun c member => ?_, selected.old⟩
    · rcases later c under with old | new
      · exact above c old home
      · omega
    · rcases later c under with old | new
      · exact selected.apart c old
      · exact fun member => absurd (selected.past c member) (not_le.mpr new)
    · exact (selected.past c member).trans le
  cases p with
  | idle => trivial
  | selected org cutoff doomed => exact step fits
  | swept org cutoff doomed unsealed => exact ⟨step fits.1, fits.2⟩

theorem publish {p : Prune} (fits : p.Fits t pending last) {rows : List (AuditRow × ChainEntry)}
    (under : ∀ r ∈ rows, pending r.2) (fresh : ∀ r ∈ rows, ∀ c ∈ t.auditLogChain, r.1.id ≠ c.auditId)
    (less : ∀ c, pending' c → pending c) : p.Fits (t.adding rows) pending' last := by
  have step : ∀ {org cutoff doomed}, Selected t pending last org cutoff doomed →
      Selected (t.adding rows) pending' last org cutoff doomed := by
    intro org cutoff doomed selected
    obtain ⟨bound, low, exact_part, above⟩ := selected.bounded
    refine ⟨⟨bound, low, fun c member => ?_, fun c still => above c (less c still)⟩, fun c still =>
      selected.apart c (less c still), selected.past, fun c member gone a row home => ?_⟩
    · rcases mem_adding_chain.mp member with old | ⟨r, among, rfl⟩
      · exact exact_part c old
      · refine iff_of_false (selected.apart _ (under r among)) fun ⟨own, small⟩ => ?_
        have bounded := above _ (under r among) own
        omega
    · rcases mem_adding_chain.mp member with old | ⟨r, among, rfl⟩
      · rcases mem_adding_logs.mp row with present | ⟨r, among, rfl⟩
        · exact selected.old c old gone a present home
        · exact absurd home (fresh r among c old)
      · exact absurd gone (selected.apart _ (under r among))
  cases p with
  | idle => trivial
  | selected org cutoff doomed => exact step fits
  | swept org cutoff doomed unsealed => exact ⟨step fits.1, fits.2⟩

theorem deleteRows {p : Prune} (fits : p.Fits t pending last) (ids : List Uuid) :
    p.Fits (t.deleteRows ids) pending last := by
  have step : ∀ {org cutoff doomed}, Selected t pending last org cutoff doomed →
      Selected (t.deleteRows ids) pending last org cutoff doomed := by
    intro org cutoff doomed selected
    obtain ⟨bound, low, exact_part, above⟩ := selected.bounded
    exact ⟨⟨bound, low, fun c member => exact_part c (mem_of_mem_filter member), above⟩, selected.apart,
      selected.past, fun c member gone a row home =>
        selected.old c (mem_of_mem_filter member) gone a (mem_of_mem_filter row) home⟩
  cases p with
  | idle => trivial
  | selected org cutoff doomed => exact step fits
  | swept org cutoff doomed unsealed => exact ⟨step fits.1, fits.2⟩

end Prune.Fits

end Transactions

end RemudaRmm.Audit
