import RemudaRmm.Audit.AuditRuns

/-! Every statement of a writing transaction, of retention and of a sweep keeps what the transactions hold: the log that
is committed and the log that each transaction sees stay sealed. -/
namespace RemudaRmm.Audit
open Foundation List Function Option
variable {platform : AuditPlatform} {i j : ℕ} {x : Writer}

namespace Steady
variable {w w' : World} (steady : Steady platform w)
variable {org : Uuid} {cutoff : Timestamp} {doomed : List ChainEntry}

include steady

theorem id_ne {id : Uuid} (mine : id ∈ (w.writers i).heldIds) {a : AuditRow} (row : a ∈ w.tables.auditLogs) :
    id ≠ a.id := by
  rintro rfl
  have both := ((steady.writers i).held _ mine).symm.trans (steady.held a row)
  cases both

theorem id_ne_auditId {id : Uuid} (mine : id ∈ (w.writers i).heldIds) {c : ChainEntry}
    (entry : c ∈ w.tables.auditLogChain) : id ≠ c.auditId := by
  obtain ⟨a, row, made⟩ := steady.log.entries c entry
  exact made.auditId ▸ steady.id_ne mine row

theorem setWriter (tables : w'.tables = w.tables) (writers : w'.writers = update w.writers i x)
    (prunes : w'.prunes = w.prunes) (pruned : w'.pruned = w.pruned) (le : w.lastChainSeq ≤ w'.lastChainSeq)
    (index : ∀ id holder, holder ≠ .writer i → w.idIndex id = some holder → w'.idIndex id = some holder)
    (lock : ∀ j ≠ i, ∀ key, w.locks key = some j → w'.locks key = some j)
    (fits : x.Fits platform w.tables w'.idIndex w'.locks w'.lastChainSeq i)
    (done : ∀ p ∈ x.done, p ∈ (w.writers i).done ∨ w.lastChainSeq < p.2.chainSeq) : Steady platform w' where
  log := tables ▸ steady.log
  held := by
    rw [tables]
    exact fun a row => index _ _ (fun wrong => by cases wrong) (steady.held a row)
  seqs := by
    rw [tables]
    exact fun c entry => ⟨(steady.seqs c entry).1, (steady.seqs c entry).2.trans le⟩
  writers := by
    intro j
    rw [tables, writers]
    by_cases same : j = i
    · subst same
      rw [update_self]
      exact fits
    · rw [update_of_ne same]
      refine (steady.writers j).mono (fun id mine => index id _ ?_ mine) (lock j same) le
      exact fun wrong => same (Holder.writer.inj wrong)
  prunes := by
    intro k
    rw [tables, prunes]
    refine (steady.prunes k).mono le ?_
    rintro c ⟨j, p, member, rfl⟩
    rw [writers] at member
    by_cases same : j = i
    · subst same
      rw [update_self] at member
      exact (done p member).imp_left fun old => ⟨j, p, old, rfl⟩
    · rw [update_of_ne same] at member
      exact .inl ⟨j, p, member, rfl⟩
  old := pruned ▸ steady.old

theorem insertRow (i : ℕ) (a : AuditRow) : Steady platform (w.insertRow i a) := by
  unfold World.insertRow
  split
  · rename_i free
    obtain ⟨writing, free⟩ := free
    have fits := steady.writers i
    have unheld : ∀ id ∈ (w.writers i).heldIds, id ≠ a.id := by
      rintro id mine rfl
      have holder := fits.held _ mine
      rw [free] at holder
      cases holder
    have ids : ({ w.writers i with rows := (w.writers i).rows ++ [a] } : Writer).heldIds =
        (w.writers i).heldIds ++ [a.id] := by
      simp only [Writer.heldIds, map_append, map_singleton, append_assoc]
    have index : ∀ id, w.idIndex id ≠ none → update w.idIndex a.id (some (.writer i)) id = w.idIndex id := by
      intro id taken
      refine update_of_ne (fun same => taken ?_) _ _
      rw [same]
      exact free
    refine steady.setWriter (i := i) rfl rfl rfl rfl le_rfl (fun id holder _ taken => ?_) (fun _ _ _ taken => taken) ?_
      (fun p member => .inl member)
    · exact (index id (by rw [taken]; exact some_ne_none _)).trans taken
    · exact {
        view := fits.view
        made := fits.made
        ids := by
          rw [ids]
          refine fits.ids.append (nodup_singleton _) fun id mine new => ?_
          exact unheld id mine (mem_singleton.mp new)
        held := by
          rw [ids]
          intro id mine
          rcases mem_append.mp mine with old | new
          · have taken := fits.held id old
            exact (index id (by rw [taken]; exact some_ne_none _)).trans taken
          · rw [mem_singleton.mp new]
            exact update_self _ _ _
        locked := fits.locked
        seqs := fits.seqs
        stage := by
          rw [writing]
          trivial }
  · exact steady

theorem rollback (i : ℕ) : Steady platform (w.rollback i) := by
  refine steady.setWriter (i := i) (x := {}) rfl rfl rfl rfl le_rfl (fun id holder other taken => ?_)
    (fun j apart key taken => ?_) (fits_fresh steady.log) (fun p member => absurd member not_mem_nil)
  · exact (if_neg fun mine => other (some.inj (taken.symm.trans mine))).trans taken
  · exact (if_neg fun mine => apart (some.inj (taken.symm.trans mine))).trans taken

theorem setStage {stage : Stage} (locks : ℤ → Option ℕ) (lock : ∀ j, ∀ key, w.locks key = some j → locks key = some j)
    (fits : stage.Fits platform (w.view i) locks i (w.writers i).rows) :
    Steady platform { w.setWriter i { w.writers i with stage } with locks } := by
  have own := (steady.writers i).mono (fun _ held => held) (lock i) le_rfl
  exact steady.setWriter (i := i) rfl rfl rfl rfl le_rfl (fun _ _ _ taken => taken) (fun j _ => lock j)
    ⟨own.view, own.made, own.ids, own.held, own.locked, own.seqs, fits⟩ (fun p member => .inl member)

theorem sealRow {a : AuditRow} {rest : List AuditRow} {prev : Option Text} {e : ChainEntry}
    (stage : (w.writers i).stage = .headRead prev) (rows : (w.writers i).rows = a :: rest)
    (made : entryOf platform.hash platform.zone (w.lastChainSeq + 1) a prev = some e) :
    Steady platform { w.setWriter i ⟨.sealing, (w.writers i).done ++ [(a, e)], rest⟩ with
      lastChainSeq := w.lastChainSeq + 1 } := by
  obtain ⟨content, hashed, rfl⟩ := map_eq_some_iff.mp made
  have fits := steady.writers i
  have turn := fits.stage
  rw [stage, rows] at turn
  obtain ⟨mine, current, height⟩ := turn a rfl
  have ids : ∀ e : ChainEntry, (⟨.sealing, (w.writers i).done ++ [(a, e)], rest⟩ : Writer).heldIds =
      (w.writers i).heldIds := by
    intro e
    simp only [Writer.heldIds, rows, map_append, map_cons, map_nil, append_assoc, singleton_append]
  have mineId : a.id ∈ (w.writers i).heldIds := by
    rw [Writer.heldIds, rows]
    exact mem_append_right _ mem_cons_self
  have fresh : ∀ b ∈ (w.tables.adding (w.writers i).done).auditLogs, b.id ≠ a.id := by
    intro b row
    rcases mem_adding_logs.mp row with old | ⟨p, member, rfl⟩
    · exact (steady.id_ne mineId old).symm
    · have distinct := fits.ids
      rw [Writer.heldIds, rows] at distinct
      exact fun same => disjoint_of_nodup_append distinct (List.mem_map.mpr ⟨p, member, rfl⟩)
        (same ▸ mem_cons_self)
  have later : ∀ d ∈ ofOrg (w.tables.adding (w.writers i).done).auditLogChain a.orgId,
      d.chainSeq < w.lastChainSeq + 1 := by
    intro d member
    rcases mem_adding_chain.mp (mem_ofOrg.mp member).1 with old | ⟨p, among, rfl⟩
    · exact Nat.lt_succ_of_le (steady.seqs d old).2
    · exact Nat.lt_succ_of_le (fits.seqs p among).2
  have view := fits.view.append (a := a) (c := ⟨w.lastChainSeq + 1, a.id, a.orgId, content, prev,
    linkHash platform.hash prev content⟩) fresh ⟨rfl, rfl, hashed, rfl⟩ later current height
  refine steady.setWriter (i := i) rfl rfl rfl rfl (Nat.le_succ _) (fun _ _ _ taken => taken)
    (fun _ _ _ taken => taken) ?_ (fun p member => ?_)
  · exact {
      view := by
        rw [adding_append]
        exact view
      made := by
        intro p member
        rcases mem_append.mp member with old | new
        · exact fits.made p old
        · obtain rfl := mem_singleton.mp new
          exact ⟨rfl, rfl, hashed, rfl⟩
      ids := by
        rw [ids]
        exact fits.ids
      held := by
        rw [ids]
        exact fits.held
      locked := by
        intro p member
        rcases mem_append.mp member with old | new
        · exact fits.locked p old
        · obtain rfl := mem_singleton.mp new
          exact mine
      seqs := by
        intro p member
        rcases mem_append.mp member with old | new
        · exact ⟨(fits.seqs p old).1, (fits.seqs p old).2.trans (Nat.le_succ _)⟩
        · obtain rfl := mem_singleton.mp new
          exact ⟨Nat.succ_pos _, le_rfl⟩
      stage := trivial }
  · rcases mem_append.mp member with old | new
    · exact .inl old
    · obtain rfl := mem_singleton.mp new
      exact .inr (Nat.lt_succ_self _)

theorem commitWriter (i : ℕ) : Steady platform (w.commitWriter i) := by
  have fits := steady.writers i
  have others : ∀ j, j ≠ i → ((w.commitWriter i).writers j) = w.writers j :=
    fun j apart => update_of_ne apart _ _
  have own : (w.commitWriter i).writers i = {} := update_self _ _ _
  constructor
  · exact fits.view
  · intro a row
    rcases mem_adding_logs.mp row with old | ⟨p, member, rfl⟩
    · have taken := steady.held a old
      exact (if_neg (fun mine => by rw [taken] at mine; cases mine)).trans taken
    · exact if_pos (fits.held _ (Writer.Fits.doneId_mem member))
  · intro c entry
    rcases mem_adding_chain.mp entry with old | ⟨p, member, rfl⟩
    · exact steady.seqs c old
    · exact fits.seqs p member
  · intro j
    by_cases same : j = i
    · subst same
      rw [own]
      exact fits_fresh fits.view
    · rw [others j same]
      refine ((steady.writers j).publish fits (Ne.symm same)).mono (fun id mine => ?_) (fun key mine => ?_) le_rfl
      · exact (if_neg fun wrong => same (Holder.writer.inj (some.inj (mine.symm.trans wrong)))).trans mine
      · exact (if_neg fun wrong => same (some.inj (mine.symm.trans wrong))).trans mine
  · intro k
    refine (steady.prunes k).publish (fun r member => ⟨i, r, member, rfl⟩)
      (fun r member c entry => steady.id_ne_auditId (Writer.Fits.doneId_mem member) entry) ?_
    rintro c ⟨j, p, member, rfl⟩
    by_cases same : j = i
    · subst same
      rw [own] at member
      cases member
    · rw [others j same] at member
      exact ⟨j, p, member, rfl⟩
  · exact steady.old

theorem advanceWriter (i : ℕ) : Steady platform (w.advanceWriter platform i) := by
  unfold World.advanceWriter
  split
  · exact steady.setStage w.locks (fun _ _ taken => taken) trivial
  · exact steady.commitWriter i
  · rename_i a rest stage rows
    split
    · rename_i free
      have lock : ∀ j, ∀ key, w.locks key = some j →
          update w.locks (platform.lockKey a.orgId) (some i) key = some j := by
        intro j key taken
        by_cases same : key = platform.lockKey a.orgId
        · subst same
          rw [update_self]
          rcases free with none | mine
          · rw [none] at taken
            cases taken
          · exact mine.symm.trans taken
        · rw [update_of_ne same]
          exact taken
      refine steady.setStage _ lock fun b head => ?_
      rw [rows] at head
      cases head
      exact update_self _ _ _
    · exact steady
  · rename_i a rest stage rows
    have fits := steady.writers i
    refine steady.setStage w.locks (fun _ _ taken => taken) fun b head => ?_
    have turn := fits.stage
    rw [stage] at turn
    refine ⟨turn b head, fun _ => ?_, ?_⟩
    · rw [rows] at head
      cases head
      rw [headChecksum, World.view, fits.view.walk_eq]
    · exact fits.view.rooted_head a.orgId
  · rename_i prev a rest stage rows
    split
    · rename_i e made
      split
      · exact steady.sealRow stage rows made
      · exact steady.rollback i
    · exact steady.rollback i
  · exact steady

theorem below_pending {c d : ChainEntry} (entry : c ∈ w.tables.auditLogChain) (under : w.Pending d)
    (home : c.orgId = d.orgId) : c.chainSeq < d.chainSeq := by
  obtain ⟨i, p, member, rfl⟩ := under
  have ascending := (steady.writers i).view.ascending p.2.orgId
  rw [Tables.adding, ofOrg_append] at ascending
  exact (pairwise_append.mp ascending).2.2 c (mem_ofOrg.mpr ⟨entry, home⟩) p.2
    (mem_ofOrg.mpr ⟨List.mem_map.mpr ⟨p, member, rfl⟩, rfl⟩)

theorem selected_chainPrefix (org : Uuid) (cutoff : Timestamp) :
    Selected w.tables w.Pending w.lastChainSeq org cutoff (chainPrefix w.tables (some org) cutoff) := by
  have part : ∀ c ∈ chainPrefix w.tables (some org) cutoff,
      c ∈ w.tables.auditLogChain ∧ c.orgId = some org ∧
        ∃ bound, pruneBound w.tables (some org) cutoff = some bound ∧ c.chainSeq < bound := by
    intro c member
    unfold chainPrefix at member
    cases found : pruneBound w.tables (some org) cutoff with
    | none =>
      rw [found] at member
      cases member
    | some bound =>
      rw [found] at member
      obtain ⟨among, small⟩ := mem_filter.mp member
      obtain ⟨entry, home⟩ := mem_walk.mp among
      exact ⟨entry, home, bound, rfl, of_decide_eq_true small⟩
  have limit : ∀ bound, pruneBound w.tables (some org) cutoff = some bound →
      (∀ c ∈ w.tables.auditLogChain, ∀ a ∈ w.tables.auditLogs, c.orgId = some org → a.id = c.auditId →
        c.chainSeq < bound → cutoff.le a.timestamp = false) ∧
      ∃ d ∈ w.tables.auditLogChain, d.orgId = some org ∧ bound ≤ d.chainSeq + 1 := by
    intro bound found
    have young : ∀ c ∈ w.tables.auditLogChain, ∀ a ∈ w.tables.auditLogs, c.orgId = some org → a.id = c.auditId →
        cutoff.le a.timestamp = true → c.chainSeq ∈ youngSeqs w.tables (some org) cutoff := by
      intro c entry a row home same fresh
      exact List.mem_map.mpr ⟨c, mem_filter.mpr ⟨mem_walk.mpr ⟨entry, home⟩, decide_eq_true ⟨a, row, same, fresh⟩⟩, rfl⟩
    cases least : (youngSeqs w.tables (some org) cutoff).min? with
    | some m =>
      rw [pruneBound, least, some_or] at found
      cases found
      obtain ⟨member, smallest⟩ := min?_eq_some_iff.mp least
      refine ⟨fun c entry a row home same small => ?_, ?_⟩
      · by_contra fresh
        exact absurd (smallest _ (young c entry a row home same (Bool.eq_true_of_not_eq_false fresh)))
          (not_le.mpr small)
      · obtain ⟨d, among, rfl⟩ := List.mem_map.mp member
        obtain ⟨entry, home⟩ := mem_walk.mp (mem_of_mem_filter among)
        exact ⟨d, entry, home, Nat.le_succ _⟩
    | none =>
      rw [pruneBound, least, none_or] at found
      obtain ⟨m, greatest, rfl⟩ := map_eq_some_iff.mp found
      refine ⟨fun c entry a row home same small => ?_, ?_⟩
      · by_contra fresh
        have member := young c entry a row home same (Bool.eq_true_of_not_eq_false fresh)
        rw [min?_eq_none_iff.mp least] at member
        cases member
      · obtain ⟨d, among, same⟩ := List.mem_map.mp (max?_eq_some_iff.mp greatest).1
        obtain ⟨entry, home⟩ := mem_walk.mp among
        exact ⟨d, entry, home, by rw [same]⟩
  refine ⟨?_, ?_, ?_, ?_⟩
  · cases found : pruneBound w.tables (some org) cutoff with
    | none =>
      refine ⟨0, Nat.zero_le _, fun c _ => iff_of_false (fun member => ?_)
        (fun both => absurd both.2 (Nat.not_lt_zero _)), fun _ _ _ => Nat.zero_le _⟩
      obtain ⟨-, -, bound, again, -⟩ := part c member
      rw [found] at again
      cases again
    | some bound =>
      obtain ⟨-, d, entry, home, low⟩ := limit bound found
      refine ⟨bound, low.trans (Nat.succ_le_succ (steady.seqs d entry).2), fun c among => ?_, fun c under own => ?_⟩
      · constructor
        · intro member
          obtain ⟨-, own, bound', again, small⟩ := part c member
          cases found.symm.trans again
          exact ⟨own, small⟩
        · rintro ⟨own, small⟩
          rw [chainPrefix, found]
          exact mem_filter.mpr ⟨mem_walk.mpr ⟨among, own⟩, decide_eq_true small⟩
      · have above := steady.below_pending entry under (home.trans own.symm)
        omega
  · intro c under member
    obtain ⟨entry, -, -⟩ := part c member
    exact lt_irrefl _ (steady.below_pending entry under rfl)
  · intro c member
    exact (steady.seqs c (part c member).1).2
  · intro c entry member a row same
    obtain ⟨-, home, bound, found, small⟩ := part c member
    exact (limit bound found).1 c entry a row home same small

theorem setPrune {p : Prune} (fits : p.Fits w.tables w.Pending w.lastChainSeq) (i : ℕ) :
    Steady platform (w.setPrune i p) where
  log := steady.log
  held := steady.held
  seqs := steady.seqs
  writers := steady.writers
  prunes := by
    intro k
    by_cases same : k = i
    · subst same
      simp only [World.setPrune, update_self]
      exact fits
    · simp only [World.setPrune, update_of_ne same]
      exact steady.prunes k
  old := steady.old

theorem startPrune (i : ℕ) (org : Uuid) (cutoff : Timestamp) : Steady platform (w.startPrune i org cutoff) := by
  unfold World.startPrune
  split
  · exact steady.setPrune (p := .selected org cutoff _) (steady.selected_chainPrefix org cutoff) i
  · exact steady

theorem cut_doomed (selected : Selected w.tables w.Pending w.lastChainSeq org cutoff doomed) :
    ∃ bound, ∀ i, Cut (w.view i).auditLogChain (doomedIds w.tables doomed) (some org) bound := by
  obtain ⟨bound, -, exact_part, above⟩ := selected.bounded
  refine ⟨bound, fun i c member => ?_⟩
  rcases mem_adding_chain.mp member with old | ⟨p, among, rfl⟩
  · rw [← exact_part c old]
    constructor
    · intro gone
      obtain ⟨d, kept, same⟩ := List.mem_map.mp gone
      obtain ⟨entry, chosen⟩ := mem_filter.mp kept
      exact steady.log.eq_of_auditId entry old same ▸ of_decide_eq_true chosen
    · exact fun chosen => List.mem_map.mpr ⟨c, mem_filter.mpr ⟨old, decide_eq_true chosen⟩, rfl⟩
  · refine iff_of_false (fun gone => ?_) (fun both => ?_)
    · obtain ⟨d, kept, same⟩ := List.mem_map.mp gone
      have apart := steady.id_ne_auditId (Writer.Fits.doneId_mem among) (mem_of_mem_filter kept)
      exact apart (((steady.writers i).made p among).auditId.symm.trans same.symm)
    · exact absurd (above _ ⟨i, p, among, rfl⟩ both.1) (not_le.mpr both.2)

theorem tables_cut (selected : Selected w.tables w.Pending w.lastChainSeq org cutoff doomed) :
    ∃ bound, Cut w.tables.auditLogChain (doomedIds w.tables doomed) (some org) bound := by
  obtain ⟨bound, cut⟩ := steady.cut_doomed selected
  exact ⟨bound, fun c member => cut 0 c (mem_adding_chain.mpr (.inl member))⟩

theorem commitPrune (selected : Selected w.tables w.Pending w.lastChainSeq org cutoff doomed) (i : ℕ) :
    Steady platform (w.commitPrune i cutoff (doomedIds w.tables doomed)) := by
  obtain ⟨bound, cut⟩ := steady.cut_doomed selected
  obtain ⟨low, cutTables⟩ := steady.tables_cut selected
  constructor
  · exact steady.log.deleteRows cutTables
  · intro a row
    obtain ⟨old, kept⟩ := mem_filter.mp row
    exact (if_neg fun gone => of_decide_eq_true kept gone.1).trans (steady.held a old)
  · exact fun c entry => steady.seqs c (mem_of_mem_filter entry)
  · intro j
    have mine : ∀ p ∈ (w.writers j).done, p.1.id ∉ doomedIds w.tables doomed := by
      intro p member gone
      obtain ⟨d, kept, same⟩ := List.mem_map.mp gone
      exact steady.id_ne_auditId (Writer.Fits.doneId_mem member) (mem_of_mem_filter kept) same.symm
    refine ((steady.writers j).deleteRows (cut j) mine).mono (fun id held => ?_) (fun _ taken => taken) le_rfl
    exact (if_neg fun gone => by rw [held] at gone; cases gone.2).trans held
  · intro k
    by_cases same : k = i
    · subst same
      simp only [World.commitPrune, World.setPrune, update_self]
      trivial
    · simp only [World.commitPrune, World.setPrune, update_of_ne same]
      exact (steady.prunes k).deleteRows _
  · intro p member
    rcases mem_append.mp member with before | now
    · exact steady.old p before
    · obtain ⟨a, gone, rfl⟩ := List.mem_map.mp now
      obtain ⟨row, doom⟩ := mem_filter.mp gone
      obtain ⟨c, kept, same⟩ := List.mem_map.mp (of_decide_eq_true doom)
      obtain ⟨entry, chosen⟩ := mem_filter.mp kept
      exact selected.old c entry (of_decide_eq_true chosen) a row same.symm

theorem advancePrune (i : ℕ) : Steady platform (w.advancePrune i) := by
  have fits := steady.prunes i
  unfold World.advancePrune
  cases stage : w.prunes i with
  | idle => exact steady
  | selected org cutoff doomed =>
    rw [stage] at fits
    obtain ⟨bound, cut⟩ := steady.tables_cut fits
    exact steady.setPrune (p := .swept org cutoff doomed _)
      ⟨fits, unsealedOld_eq_nil (steady.log.deleteRows cut) _ _⟩ i
  | swept org cutoff doomed unsealed =>
    rw [stage] at fits
    obtain ⟨selected, rfl⟩ := fits
    simp only [append_nil]
    exact steady.commitPrune selected i

theorem sweep (tables : w'.tables = w.tables) (idIndex : w'.idIndex = w.idIndex) (locks : w'.locks = w.locks)
    (last : w'.lastChainSeq = w.lastChainSeq) (writers : w'.writers = w.writers) (prunes : w'.prunes = w.prunes)
    (pruned : w'.pruned = w.pruned) : Steady platform w' := by
  have pending : w'.Pending = w.Pending := by
    unfold World.Pending
    rw [writers]
  constructor
  · rw [tables]
    exact steady.log
  · rw [tables, idIndex]
    exact steady.held
  · rw [tables, last]
    exact steady.seqs
  · rw [tables, idIndex, locks, last, writers]
    exact steady.writers
  · rw [tables, last, prunes, pending]
    exact steady.prunes
  · rw [pruned]
    exact steady.old

end Steady

end RemudaRmm.Audit
