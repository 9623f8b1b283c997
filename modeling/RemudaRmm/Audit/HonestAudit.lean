import RemudaRmm.Audit.AuditSteps

/-! An honest audit log is linear and verifies at every moment, and retention deletes old rows only. It is reported as
tampered when retention deletes the entry at which the last anchor stands and the chain goes on. -/
namespace RemudaRmm.Audit
open Foundation List Option

/-- The head that a sweep has read, of an anchor or of the chain, and still relies on. -/
def SweepStage.headSeq : SweepStage → Option ℕ
  | .verifyHead a => some a.head.chainSeq
  | .verifyCount a _ => some a.head.chainSeq
  | .verifySeq a _ _ => some a.head.chainSeq
  | .anchorCount _ head => some head.chainSeq
  | .anchorInsert _ head _ => some head.chainSeq
  | .anchorCommit a => some a.head.chainSeq
  | _ => none

/-- `audit_chain_verify_anchor` has read the head of the chain and will read on. -/
def SweepStage.comparing : SweepStage → Bool
  | .verifyCount _ _ => true
  | .verifySeq _ _ _ => true
  | _ => false

/-- Where the latest anchor of the organisation stands, and the heads its sweeps rely on. -/
def World.headsInUse (w : World) (org : Option Uuid) : List ℕ :=
  ((latestAnchor w.anchors org).map (·.head.chainSeq)).toList ++
    (w.sweeps.filter (·.org = org)).filterMap (·.stage.headSeq)

/-- A prune deletes no head in use, unless it deletes the whole chain while no sweep compares it. -/
def PruneSpares (w : World) (org : Option Uuid) (doomed : List ChainEntry) : Prop :=
  (∀ c ∈ ofOrg w.tables.auditLogChain org, c ∈ doomed → c.chainSeq ∉ w.headsInUse org) ∨
    ((∀ c ∈ ofOrg w.tables.auditLogChain org, c ∈ doomed) ∧ ∀ s ∈ w.sweeps, s.org = org → s.stage.comparing = false)
  deriving Decidable

/-- A commit begins a chain anew only where no head of the old one is in use. -/
def CommitSpares (w : World) (rows : List (AuditRow × ChainEntry)) : Prop :=
  ∀ p ∈ rows, ofOrg w.tables.auditLogChain p.2.orgId = [] → ∀ seq ∈ w.headsInUse p.2.orgId, seq = 0

def SparesHeads (w : World) : AuditEvent → Prop
  | .advancePrune i =>
    match w.prunes i with
    | .swept org _ doomed _ => PruneSpares w (some org) doomed
    | _ => True
  | .advanceWriter i => (w.writers i).stage = .sealing → (w.writers i).rows = [] → CommitSpares w (w.writers i).done
  | _ => True

instance (w : World) (rows : List (AuditRow × ChainEntry)) : Decidable (CommitSpares w rows) :=
  inferInstanceAs (Decidable (∀ p ∈ rows, _))

instance (w : World) (e : AuditEvent) : Decidable (SparesHeads w e) :=
  match e with
  | .advancePrune i => by
      unfold SparesHeads
      dsimp only
      split <;> infer_instance
  | .advanceWriter _ => inferInstanceAs (Decidable (_ → _ → _))
  | .insertRow _ _ | .rollback _ | .startPrune _ _ _ | .rollbackPrune _ | .startSweep _ | .advanceSweep _
  | .failSweep _ => inferInstanceAs (Decidable True)

/-- Each chain is linear and verifies, deleted rows were old, and no report is one of tampering. -/
structure Honest (platform : AuditPlatform) (w : World) : Prop where
  linear : ∀ org, ((ofOrg w.tables.auditLogChain org).map ChainEntry.prevChainChecksum).Nodup
  intact : ∀ org, auditLogVerifyChain platform.hash platform.zone w.tables org = []
  old : ∀ p ∈ w.pruned, p.2.le p.1.timestamp = false
  quiet : ∀ d ∈ w.reports, d.reason ∉ TAMPER_REASONS

section Heads
variable {hash : IdealHash} {zone : Moment → Moment} {t t' : Tables} {org : Option Uuid} {h : Head} {seqs : List ℕ}

def Present (t : Tables) (org : Option Uuid) (h : Head) : Prop :=
  ∃ c ∈ ofOrg t.auditLogChain org, c.chainSeq = h.chainSeq ∧ h.chainChecksum = some c.chainChecksum

/-- The head of an empty chain, or of one that is empty now, or an entry that is still there. -/
def Stands (t : Tables) (org : Option Uuid) (h : Head) : Prop :=
  h.chainSeq = 0 ∨ ofOrg t.auditLogChain org = [] ∨ Present t org h

def SweepStage.Fits (t : Tables) (org : Option Uuid) : SweepStage → Prop
  | .verifyHead a => Stands t org a.head
  | .verifyCount a live => a.head.chainSeq = 0 ∨ (live.chainSeq = 0 ∧ ofOrg t.auditLogChain org = []) ∨
      (a.head.chainSeq ≤ live.chainSeq ∧ Present t org a.head)
  | .verifySeq a live count => a.head.chainSeq = 0 ∨ (live.chainSeq = 0 ∧ count = 0) ∨
      (a.head.chainSeq ≤ live.chainSeq ∧ Present t org a.head)
  | .anchorCount _ head => Stands t org head
  | .anchorInsert _ head _ => Stands t org head
  | .anchorCommit a => a.orgId = org ∧ Stands t org a.head
  | _ => True

structure KeepsHeads (t t' : Tables) (org : Option Uuid) (seqs : List ℕ) (comparing : Prop) : Prop where
  keep : ∀ h, h.chainSeq ∈ seqs → Present t org h → Present t' org h ∨ (ofOrg t'.auditLogChain org = [] ∧ ¬comparing)
  empty : ofOrg t.auditLogChain org = [] → ofOrg t'.auditLogChain org = [] ∨ ∀ seq ∈ seqs, seq = 0

theorem KeepsHeads.stands {comparing : Prop} (keeps : KeepsHeads t t' org seqs comparing) (used : h.chainSeq ∈ seqs)
    (stands : Stands t org h) : Stands t' org h := by
  rcases stands with zero | empty | present
  · exact .inl zero
  · rcases keeps.empty empty with still | zero
    · exact .inr (.inl still)
    · exact .inl (zero _ used)
  · rcases keeps.keep h used present with still | gone
    · exact .inr (.inr still)
    · exact .inr (.inl gone.1)

theorem KeepsHeads.fits {stage : SweepStage} (keeps : KeepsHeads t t' org seqs (stage.comparing = true))
    (used : ∀ seq, stage.headSeq = some seq → seq ∈ seqs) (fits : stage.Fits t org) : stage.Fits t' org := by
  cases stage with
  | verifyHead a | anchorCount expected head | anchorInsert expected head count => exact keeps.stands (used _ rfl) fits
  | verifyCount a live =>
    rcases fits with zero | ⟨zero, empty⟩ | ⟨le, present⟩
    · exact .inl zero
    · rcases keeps.empty empty with still | none
      · exact .inr (.inl ⟨zero, still⟩)
      · exact .inl (none _ (used _ rfl))
    · rcases keeps.keep a.head (used _ rfl) present with still | gone
      · exact .inr (.inr ⟨le, still⟩)
      · exact absurd rfl gone.2
  | verifySeq a live count =>
    rcases fits with zero | none | ⟨le, present⟩
    · exact .inl zero
    · exact .inr (.inl none)
    · rcases keeps.keep a.head (used _ rfl) present with still | gone
      · exact .inr (.inr ⟨le, still⟩)
      · exact absurd rfl gone.2
  | anchorCommit a => exact ⟨fits.1, keeps.stands (used _ rfl) fits.2⟩
  | verifyAnchor | readHead | readCount read | anchorHead expected | finished => trivial

theorem liveHead_of_nil (log : Sealed hash zone t) (empty : ofOrg t.auditLogChain org = []) :
    liveHead t.auditLogChain org = ⟨0, none⟩ := by
  rw [liveHead, log.walk_eq, empty]
  rfl

theorem le_liveHead (log : Sealed hash zone t) {c : ChainEntry} (member : c ∈ ofOrg t.auditLogChain org) :
    c.chainSeq ≤ (liveHead t.auditLogChain org).chainSeq := by
  rw [liveHead, log.walk_eq]
  obtain ⟨front, last, split⟩ := (eq_nil_or_concat' _).resolve_left (ne_nil_of_mem member)
  have ascending := log.ascending org
  rw [split] at member ascending ⊢
  rw [getLast?_concat]
  rcases mem_append.mp member with before | same
  · exact ((pairwise_append.mp ascending).2.2 c before last mem_cons_self).le
  · exact (mem_singleton.mp same) ▸ le_rfl

theorem stands_liveHead (log : Sealed hash zone t) (org : Option Uuid) :
    Stands t org (liveHead t.auditLogChain org) := by
  cases last : (ofOrg t.auditLogChain org).getLast? with
  | none => exact .inr (.inl (getLast?_eq_none_iff.mp last))
  | some c =>
    refine .inr (.inr ⟨c, mem_of_getLast? last, ?_, ?_⟩) <;> rw [liveHead, log.walk_eq, last] <;> rfl

theorem eq_of_chainSeq (log : Sealed hash zone t) {c d : ChainEntry} (first : c ∈ ofOrg t.auditLogChain org)
    (second : d ∈ ofOrg t.auditLogChain org) (same : c.chainSeq = d.chainSeq) : c = d :=
  inj_on_of_nodup_map (pairwise_map.mpr ((log.ascending org).imp ne_of_lt)) first second same

theorem checksumAt_present (log : Sealed hash zone t) {c : ChainEntry} (member : c ∈ ofOrg t.auditLogChain org) :
    checksumAt t.auditLogChain org c.chainSeq = some c.chainChecksum := by
  obtain ⟨entry, home⟩ := mem_ofOrg.mp member
  rw [checksumAt]
  cases found : t.auditLogChain.find? fun d => decide (d.chainSeq = c.chainSeq ∧ d.orgId = org) with
  | none =>
    have absent := find?_eq_none.mp found c entry
    exact absurd (decide_eq_true ⟨rfl, home⟩) absent
  | some d =>
    have place : d.chainSeq = c.chainSeq ∧ d.orgId = org := by simpa using find?_some found
    have present := mem_ofOrg.mpr ⟨mem_of_find?_eq_some found, place.2⟩
    rw [eq_of_chainSeq log present member place.1]
    rfl

theorem checksumAt_zero (positive : ∀ c ∈ t.auditLogChain, 1 ≤ c.chainSeq) :
    checksumAt t.auditLogChain org 0 = none := by
  refine map_eq_none_iff.mpr (find?_eq_none.mpr fun c entry zero => ?_)
  have place := of_decide_eq_true zero
  exact absurd (positive c entry) (by omega)

theorem divergence_benign (log : Sealed hash zone t) (positive : ∀ c ∈ t.auditLogChain, 1 ≤ c.chainSeq) {a : Anchor}
    {live : Head} {count : ℕ} (fits : (SweepStage.verifySeq a live count).Fits t org) {reason : Reason}
    (given : divergence a live count (checksumAt t.auditLogChain org a.head.chainSeq) = some reason) :
    reason ∉ TAMPER_REASONS := by
  by_cases zero : a.head.chainSeq = 0
  · rw [zero, checksumAt_zero positive] at given
    unfold divergence at given
    rw [zero] at given
    split_ifs at given with shrank regressed missing diverged less
    · exact some.inj given ▸ by decide
    · exact absurd regressed (Nat.not_lt_zero _)
    · exact absurd missing.1 (lt_irrefl 0)
    · exact absurd rfl diverged.1
    · exact absurd rfl less.2
  · rcases fits with none | ⟨empty, nothing⟩ | ⟨le, c, member, same, stamp⟩
    · exact absurd none zero
    · unfold divergence at given
      rw [if_pos ⟨empty, nothing, .inl (Nat.pos_of_ne_zero zero)⟩] at given
      exact some.inj given ▸ by decide
    · rw [← same, checksumAt_present log member, ← stamp] at given
      unfold divergence at given
      split_ifs at given with shrank regressed missing diverged less
      · exact some.inj given ▸ by decide
      · exact absurd regressed (not_lt.mpr le)
      · rw [stamp] at missing
        cases missing.2
      · exact absurd rfl diverged.2.2
      · exact some.inj given ▸ by decide

end Heads

structure Anchored (w : World) : Prop where
  latest : ∀ org a, latestAnchor w.anchors org = some a → Stands w.tables org a.head
  sweeps : ∀ s ∈ w.sweeps, s.stage.Fits w.tables s.org
  quiet : ∀ d ∈ w.reports, d.reason ∉ TAMPER_REASONS

structure SameHeads (w w' : World) : Prop where
  tables : w'.tables = w.tables
  anchors : w'.anchors = w.anchors
  sweeps : w'.sweeps = w.sweeps
  reports : w'.reports = w.reports

section Statements
variable {platform : AuditPlatform} {w w' : World}

theorem Anchored.same (anchored : Anchored w) (same : SameHeads w w') : Anchored w' where
  latest := by
    rw [same.anchors, same.tables]
    exact anchored.latest
  sweeps := by
    rw [same.sweeps, same.tables]
    exact anchored.sweeps
  quiet := by
    rw [same.reports]
    exact anchored.quiet

theorem mem_headsInUse {s : Sweep} (member : s ∈ w.sweeps) {seq : ℕ} (relies : s.stage.headSeq = some seq) :
    seq ∈ w.headsInUse s.org :=
  mem_append_right _ (mem_filterMap.mpr ⟨s, mem_filter.mpr ⟨member, decide_eq_true rfl⟩, relies⟩)

theorem Anchored.keeps (anchored : Anchored w) (anchors : w'.anchors = w.anchors) (sweeps : w'.sweeps = w.sweeps)
    (reports : w'.reports = w.reports) (keeps : ∀ org, KeepsHeads w.tables w'.tables org (w.headsInUse org)
      (∃ s ∈ w.sweeps, s.org = org ∧ s.stage.comparing = true)) : Anchored w' where
  latest := by
    rw [anchors]
    intro org a found
    refine (keeps org).stands ?_ (anchored.latest org a found)
    rw [World.headsInUse, found]
    exact mem_append_left _ mem_cons_self
  sweeps := by
    rw [sweeps]
    intro s member
    have own := keeps s.org
    have narrowed : KeepsHeads w.tables w'.tables s.org (w.headsInUse s.org) (s.stage.comparing = true) :=
      ⟨fun h used present => (own.keep h used present).imp_right fun gone =>
        ⟨gone.1, fun comparing => gone.2 ⟨s, member, rfl, comparing⟩⟩, own.empty⟩
    exact narrowed.fits (fun seq relies => mem_headsInUse member relies) (anchored.sweeps s member)
  quiet := by
    rw [reports]
    exact anchored.quiet

theorem commit_keeps {i : ℕ} (spares : CommitSpares w (w.writers i).done) (org : Option Uuid) {comparing : Prop} :
    KeepsHeads w.tables (w.view i) org (w.headsInUse org) comparing where
  keep := by
    rintro h - ⟨c, member, same⟩
    obtain ⟨entry, home⟩ := mem_ofOrg.mp member
    exact .inl ⟨c, mem_ofOrg.mpr ⟨mem_adding_chain.mpr (.inl entry), home⟩, same⟩
  empty := by
    intro empty
    by_cases own : ∃ p ∈ (w.writers i).done, p.2.orgId = org
    · obtain ⟨p, member, rfl⟩ := own
      exact .inr (spares p member empty)
    · refine .inl ?_
      rw [World.view, Tables.adding, ofOrg_append, empty, nil_append]
      refine ofOrg_eq_nil fun c sealed same => ?_
      obtain ⟨p, among, rfl⟩ := List.mem_map.mp sealed
      exact own ⟨p, among, same⟩

theorem prune_keeps (steady : Steady platform w) {org : Uuid} {cutoff : Timestamp} {doomed : List ChainEntry}
    (selected : Selected w.tables w.Pending w.lastChainSeq org cutoff doomed) (spares : PruneSpares w (some org) doomed)
    (home : Option Uuid) :
    KeepsHeads w.tables (w.tables.deleteRows (doomedIds w.tables doomed)) home (w.headsInUse home)
      (∃ s ∈ w.sweeps, s.org = home ∧ s.stage.comparing = true) where
  keep := by
    rintro h used ⟨c, member, same, stamp⟩
    obtain ⟨entry, own⟩ := mem_ofOrg.mp member
    have spared : c ∉ doomed → Present (w.tables.deleteRows (doomedIds w.tables doomed)) home h := by
      intro kept
      refine ⟨c, mem_ofOrg.mpr ⟨mem_filter.mpr ⟨entry, decide_eq_true fun gone => ?_⟩, own⟩, same, stamp⟩
      obtain ⟨d, chosen, twin⟩ := List.mem_map.mp gone
      obtain ⟨there, doom⟩ := mem_filter.mp chosen
      exact kept (steady.log.eq_of_auditId there entry twin ▸ of_decide_eq_true doom)
    by_cases doom : c ∈ doomed
    · obtain ⟨bound, -, exact_part, -⟩ := selected.bounded
      obtain rfl : home = some org := own.symm.trans ((exact_part c entry).mp doom).1
      rcases spares with unused | ⟨whole, idle⟩
      · exact absurd (same ▸ used) (unused c member doom)
      · refine .inr ⟨?_, fun ⟨s, among, org_eq, comparing⟩ => ?_⟩
        · rw [Tables.deleteRows, ofOrg_filter]
          refine filter_eq_nil_iff.mpr fun d present kept => of_decide_eq_true kept ?_
          have entry' := (mem_ofOrg.mp present).1
          exact List.mem_map.mpr ⟨d, mem_filter.mpr ⟨entry', decide_eq_true (whole d present)⟩, rfl⟩
        · rw [idle s among org_eq] at comparing
          cases comparing
    · exact .inl (spared doom)
  empty := by
    intro empty
    rw [Tables.deleteRows, ofOrg_filter, empty]
    exact .inl rfl

theorem advanceWriter_cases (platform : AuditPlatform) (i : ℕ) :
    ((w.writers i).stage = .sealing ∧ (w.writers i).rows = [] ∧ w.advanceWriter platform i = w.commitWriter i) ∨
      SameHeads w (w.advanceWriter platform i) := by
  unfold World.advanceWriter
  split
  · exact .inr ⟨rfl, rfl, rfl, rfl⟩
  · rename_i stage rows
    exact .inl ⟨stage, rows, rfl⟩
  · split <;> exact .inr ⟨rfl, rfl, rfl, rfl⟩
  · exact .inr ⟨rfl, rfl, rfl, rfl⟩
  · split
    · split <;> exact .inr ⟨rfl, rfl, rfl, rfl⟩
    · exact .inr ⟨rfl, rfl, rfl, rfl⟩
  · exact .inr ⟨rfl, rfl, rfl, rfl⟩

theorem Anchored.advanceWriter (anchored : Anchored w) {i : ℕ}
    (spares : SparesHeads w (.advanceWriter i)) : Anchored (w.advanceWriter platform i) := by
  rcases advanceWriter_cases platform i with ⟨stage, rows, commits⟩ | same
  · rw [commits]
    exact anchored.keeps rfl rfl rfl fun org => commit_keeps (spares stage rows) org
  · exact anchored.same same

theorem Anchored.advancePrune (anchored : Anchored w) (steady : Steady platform w) {i : ℕ}
    (spares : SparesHeads w (.advancePrune i)) : Anchored (w.advancePrune i) := by
  have fits := steady.prunes i
  simp only [SparesHeads] at spares
  unfold World.advancePrune
  cases stage : w.prunes i with
  | idle => exact anchored
  | selected org cutoff doomed => exact anchored.same ⟨rfl, rfl, rfl, rfl⟩
  | swept org cutoff doomed unsealed =>
    rw [stage] at fits spares
    obtain ⟨selected, rfl⟩ := fits
    simp only [append_nil]
    exact anchored.keeps rfl rfl rfl (prune_keeps steady selected spares)

theorem Anchored.setSweep (anchored : Anchored w) (n : ℕ) (org : Option Uuid) (stage : SweepStage)
    (fits : stage.Fits w.tables org) : Anchored (w.setSweep n org stage) where
  latest := anchored.latest
  sweeps := by
    intro s member
    rcases mem_or_eq_of_mem_set member with old | rfl
    · exact anchored.sweeps s old
    · exact fits
  quiet := anchored.quiet

theorem Anchored.report (anchored : Anchored w) {reason : Option Reason} {a : Option Anchor} {live : Option (Head × ℕ)}
    (benign : ∀ r, reason = some r → r ∉ TAMPER_REASONS) : Anchored (w.report reason a live) where
  latest := anchored.latest
  sweeps := anchored.sweeps
  quiet := by
    intro d member
    rcases mem_append.mp member with old | new
    · exact anchored.quiet d old
    · obtain ⟨r, given, rfl⟩ := List.mem_map.mp new
      exact benign r (mem_toList.mp given)

theorem latestAnchor_append {anchors : List Anchor} {a b : Anchor} {org : Option Uuid}
    (found : latestAnchor (anchors ++ [a]) org = some b) :
    latestAnchor anchors org = some b ∨ (a = b ∧ a.orgId = org) := by
  rw [latestAnchor, filter_append, foldl_append] at found
  by_cases own : a.orgId = org
  · have among : [a].filter (fun x => decide (x.orgId = org)) = [a] := filter_cons_of_pos (decide_eq_true own)
    rw [among, foldl_cons, foldl_nil] at found
    split at found
    · exact .inr ⟨some.inj found, own⟩
    · exact .inl found
  · have foreign : [a].filter (fun x => decide (x.orgId = org)) = [] := filter_cons_of_neg (by simpa using own)
    rw [foreign] at found
    exact .inl found

theorem Anchored.advanceSweep (anchored : Anchored w) (steady : Steady platform w) (n : ℕ) :
    Anchored (w.advanceSweep platform n) := by
  unfold World.advanceSweep
  cases there : w.sweeps[n]? with
  | none => exact anchored
  | some s =>
    obtain ⟨org, stage⟩ := s
    have fits := anchored.sweeps _ (mem_of_getElem? there)
    cases stage with
    | verifyAnchor =>
      dsimp only
      split
      · refine (anchored.setSweep n org .readHead trivial).report fun r given => ?_
        exact some.inj given ▸ by decide
      · rename_i a found
        exact anchored.setSweep n org (.verifyHead a) (anchored.latest org a found)
    | verifyHead a =>
      refine anchored.setSweep n org (.verifyCount a _) ?_
      rcases fits with zero | empty | ⟨c, member, same, stamp⟩
      · exact .inl zero
      · exact .inr (.inl ⟨by rw [liveHead_of_nil steady.log empty], empty⟩)
      · exact .inr (.inr ⟨same ▸ le_liveHead steady.log member, c, member, same, stamp⟩)
    | verifyCount a live =>
      refine anchored.setSweep n org (.verifySeq a live _) ?_
      rcases fits with zero | ⟨zero, empty⟩ | present
      · exact .inl zero
      · refine .inr (.inl ⟨zero, ?_⟩)
        rw [liveCount, steady.log.walk_eq, empty]
        rfl
      · exact .inr (.inr present)
    | verifySeq a live count =>
      refine (anchored.setSweep n org .readHead trivial).report fun r given => ?_
      exact divergence_benign steady.log (fun c entry => (steady.seqs c entry).1) fits given
    | readHead => exact anchored.setSweep n org (.readCount _) trivial
    | readCount read => exact anchored.setSweep n org (.anchorHead _) trivial
    | anchorHead expected =>
      exact anchored.setSweep n org (.anchorCount expected _) (stands_liveHead steady.log org)
    | anchorCount expected head => exact anchored.setSweep n org (.anchorInsert expected head _) fits
    | anchorInsert expected head count =>
      have next := anchored.setSweep n org (.anchorCommit ⟨w.lastAnchorSeq + 1, org, head, count,
        platform.signing && (head.chainSeq, count) = expected⟩) ⟨rfl, fits⟩
      exact next.same ⟨rfl, rfl, rfl, rfl⟩
    | anchorCommit a =>
      have next := anchored.setSweep n org .finished trivial
      refine ⟨fun home b found => ?_, next.sweeps, next.quiet⟩
      rcases latestAnchor_append found with old | ⟨rfl, own⟩
      · exact anchored.latest home b old
      · exact own ▸ fits.1.symm ▸ fits.2
    | finished => exact anchored

theorem Steady.step (steady : Steady platform w) (e : AuditEvent) : Steady platform (auditStep platform w e) := by
  cases e with
  | insertRow i a => exact steady.insertRow i a
  | advanceWriter i => exact steady.advanceWriter i
  | rollback i => exact steady.rollback i
  | startPrune i org cutoff => exact steady.startPrune i org cutoff
  | advancePrune i => exact steady.advancePrune i
  | rollbackPrune i => exact steady.setPrune (p := .idle) trivial i
  | startSweep org => exact steady.sweep rfl rfl rfl rfl rfl rfl rfl
  | advanceSweep n =>
    unfold auditStep World.advanceSweep
    dsimp only
    split
    · exact steady
    · split
      · split <;> exact steady.sweep rfl rfl rfl rfl rfl rfl rfl
      all_goals exact steady.sweep rfl rfl rfl rfl rfl rfl rfl
  | failSweep n =>
    unfold auditStep World.failSweep
    dsimp only
    cases w.sweeps[n]? with
    | none => exact steady
    | some s => exact steady.sweep rfl rfl rfl rfl rfl rfl rfl

theorem Anchored.step (anchored : Anchored w) (steady : Steady platform w) {e : AuditEvent} (spares : SparesHeads w e) :
    Anchored (auditStep platform w e) := by
  cases e with
  | insertRow i a =>
    refine anchored.same ?_
    unfold auditStep World.insertRow
    dsimp only
    split <;> exact ⟨rfl, rfl, rfl, rfl⟩
  | advanceWriter i => exact anchored.advanceWriter spares
  | rollback i | rollbackPrune i => exact anchored.same ⟨rfl, rfl, rfl, rfl⟩
  | startPrune i org cutoff =>
    refine anchored.same ?_
    unfold auditStep World.startPrune
    dsimp only
    split <;> exact ⟨rfl, rfl, rfl, rfl⟩
  | advancePrune i => exact anchored.advancePrune steady spares
  | startSweep org =>
    refine ⟨anchored.latest, fun s member => ?_, anchored.quiet⟩
    rcases mem_append.mp member with old | new
    · exact anchored.sweeps s old
    · rw [mem_singleton.mp new]
      trivial
  | advanceSweep n => exact anchored.advanceSweep steady n
  | failSweep n =>
    unfold auditStep World.failSweep
    dsimp only
    cases w.sweeps[n]? with
    | none => exact anchored
    | some s => exact anchored.setSweep n s.org .finished trivial

theorem steady_start (platform : AuditPlatform) : Steady platform {} where
  log := sealed_empty
  held := fun _ member => absurd member not_mem_nil
  seqs := fun _ member => absurd member not_mem_nil
  writers := fun _ => fits_fresh sealed_empty
  prunes := fun _ => trivial
  old := fun _ member => absurd member not_mem_nil

theorem anchored_start : Anchored {} where
  latest := by
    intro org a found
    cases found
  sweeps := fun _ member => absurd member not_mem_nil
  quiet := fun _ member => absurd member not_mem_nil

theorem Steady.honest (steady : Steady platform w) (anchored : Anchored w) : Honest platform w where
  linear := steady.log.linear
  intact := steady.log.verifyChain
  old := steady.old
  quiet := anchored.quiet

end Statements

/-- In any interleaving in which no head in use is lost the audit log stays honest. -/
theorem audit_log_honest (platform : AuditPlatform) (es : List AuditEvent)
    (spared : StepsMeet (auditStep platform) SparesHeads {} es) :
    Throughout (auditStep platform) (Honest platform) {} es := by
  have kept : Throughout (auditStep platform) (fun w => Steady platform w ∧ Anchored w) {} es :=
    throughout_of_invariant (fun w e both spares => ⟨both.1.step e, both.2.step both.1 spares⟩)
      ⟨steady_start platform, anchored_start⟩ spared
  intro pre post split
  obtain ⟨steady, anchored⟩ := kept pre post split
  exact steady.honest anchored

/-- Whatever heads are lost, each chain stays linear and verifies, and the deleted rows were old. -/
theorem audit_chains_verify (platform : AuditPlatform) (es : List AuditEvent) :
    Throughout (auditStep platform) (fun w =>
      (∀ org, ((ofOrg w.tables.auditLogChain org).map ChainEntry.prevChainChecksum).Nodup ∧
        auditLogVerifyChain platform.hash platform.zone w.tables org = []) ∧
      ∀ p ∈ w.pruned, p.2.le p.1.timestamp = false) {} es :=
  throughout_of_kept (fun _ steady => ⟨fun org => ⟨steady.log.linear org, steady.log.verifyChain org⟩, steady.old⟩)
    (fun _ e steady => steady.step e) (steady_start platform) es

def samplePlatform : AuditPlatform := ⟨sampleDigests.hash, id, fun _ => 0, false⟩

def writes (i : ℕ) (a : AuditRow) : List AuditEvent := .insertRow i a :: List.replicate 5 (.advanceWriter i)

def prunes (cutoff : Timestamp) : List AuditEvent :=
  [.startPrune 0 deviceUuid cutoff, .advancePrune 0, .advancePrune 0]

def sweeps (n statements : ℕ) : List AuditEvent :=
  .startSweep (some deviceUuid) :: List.replicate statements (.advanceSweep n)

/-- The login is anchored and pruned, after a removal was logged. -/
theorem anchored_head_pruned : ¬Throughout (auditStep samplePlatform) (Honest samplePlatform) {}
      (writes 0 (loginRow homeAddress) ++ sweeps 0 7 ++ writes 1 removalRow ++ prunes betweenRows ++ sweeps 1 4) := by
  intro honest
  have reported : ∃ d ∈ ((writes 0 (loginRow homeAddress) ++ sweeps 0 7 ++ writes 1 removalRow ++ prunes betweenRows ++
      sweeps 1 4).foldl (auditStep samplePlatform) {}).reports, d.reason = .anchoredHeadMissing := by
    decide +kernel
  obtain ⟨d, member, reason⟩ := reported
  exact honest.last.quiet d member (reason ▸ by decide)

/-- The removal is anchored before the login is pruned. -/
theorem anchored_head_kept :
    Honest samplePlatform ((writes 0 (loginRow homeAddress) ++ writes 1 removalRow ++ sweeps 0 7 ++
      prunes betweenRows ++ sweeps 1 4).foldl (auditStep samplePlatform) {}) :=
  (audit_log_honest samplePlatform (writes 0 (loginRow homeAddress) ++ writes 1 removalRow ++ sweeps 0 7 ++
    prunes betweenRows ++ sweeps 1 4) (by decide +kernel)).last

end RemudaRmm.Audit
