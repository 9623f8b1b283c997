import RemudaRmm.Billing.ContractRuns
import RemudaRmm.Billing.ContractStatements

/-! Runs of the calls on one contract: what each call holds at every stage, and that a cancelled contract stays so, and
only an active one is billed, while the status that a call has found stands until its update. -/
namespace RemudaRmm.Billing
open Foundation List Function Option Row

def ContractStage.Rests : ContractStage → Prop
  | .update _ _ | .advance _ _ | .ending => False
  | _ => True

inductive ContractDraft (db : ContractDb) (t : ℕ) : ContractStage → Prop
  | rests {stage : ContractStage} (rests : stage.Rests) (idle : ∀ v, db.contract.held ≠ some (t, v))
      (unclaimed : ∀ start v, (db.periods start).held ≠ some (t, v)) : ContractDraft db t stage
  | updates {status : ContractStatus} {next : Option Text} (aims : next ≠ none ↔ status = .active)
      (idle : ∀ v, db.contract.held ≠ some (t, v)) (unclaimed : ∀ start v, (db.periods start).held ≠ some (t, v)) :
      ContractDraft db t (.update status next)
  | claimed {c : Contract} {idx : ℕ} (idle : ∀ v, db.contract.held ≠ some (t, v)) : ContractDraft db t (.advance c idx)
  | wrote {v : Contract} (held : db.contract.held = some (t, v)) (linked : v.Linked)
      (cancelled : db.contract.committed.status = .cancelled → v.status = .cancelled)
      (bills : ∀ start p, (db.periods start).held = some (t, p) → db.contract.committed.status = .active) :
      ContractDraft db t .ending

inductive ContractMove (t : ℕ) (signal : ContractSignal) (db : ContractDb) (stage : ContractStage) (next : ContractDb)
    (after : ContractStage) : Prop
  | reads (same : next = db) (draft : ContractDraft db t after)
  | claims (start : Text) (p : Option Period) (free : (db.periods start).Free t)
      (claimed : next = { db with periods := db.periods.write t start p }) (draft : ContractDraft next t after)
  | writes (v : Contract) (free : db.contract.Free t) (wrote : next = { db with contract := db.contract.write t v })
      (draft : ContractDraft next t after)
  | commits (exec : signal = .exec) (ending : stage = .ending) (committed : next = db.commit t)
      (ended : after = .finished)
  | rollsBack (rolled : next = db.rollback t) (ended : after = .finished)

structure ContractLaw (w : ContractWorld) : Prop where
  linked : w.db.contract.committed.Linked
  drafts : ∀ t, ContractDraft w.db t (w.proc t)

section Moves
variable {db next : ContractDb} {t u : ℕ} {stage after : ContractStage} {signal : ContractSignal} {w : ContractWorld}
variable {e : ℕ × ContractSignal}

theorem update_contract {change : Contract → Contract} (updated : db.update t change = some next) :
    db.contract.Free t ∧ next = { db with contract := db.contract.write t (change (db.contract.read t)) } := by
  unfold ContractDb.update at updated
  split_ifs at updated with free
  exact ⟨free, (some.inj updated).symm⟩

theorem draft_begin (idle : ∀ v, db.contract.held ≠ some (t, v))
    (unclaimed : ∀ start v, (db.periods start).held ≠ some (t, v)) (c : Contract) (call : ContractCall) :
    ContractDraft db t (beginContractCall c call) := by
  have finished : ContractDraft db t .finished := .rests trivial idle unclaimed
  unfold beginContractCall
  cases call with
  | activateContract asOf =>
    dsimp only
    split_ifs
    · exact finished
    · exact .rests trivial idle unclaimed
  | pauseContract | resumeContract asOf | cancelContract =>
    dsimp only
    split_ifs
    · exact finished
    · exact .updates (by simp) idle unclaimed
  | generateDueInvoice asOf =>
    dsimp only
    split
    · split_ifs
      · exact finished
      · exact .updates (by simp) idle unclaimed
      · exact .rests trivial idle unclaimed
    · exact finished

theorem Contract.linked_aim {status : ContractStatus} {next : Option Text} (aims : next ≠ none ↔ status = .active)
    (c : Contract) : (c.aim status next).Linked := aims

theorem linked_nextPointer {row : Contract} (active : row.status = .active) (c : Contract) (idx : ℕ) :
    (nextPointer c idx row).Linked := by
  unfold nextPointer
  dsimp only
  split_ifs
  · exact Contract.linked_aim (by simp) row
  · exact Contract.linked_aim (by simp [active]) row

theorem move_contractAct (draft : ContractDraft db t stage)
    (stands : signal = .exec → db.contract.Free t → ContractWorld.StatusFound db stage)
    (acted : contractAct t signal db stage = some (next, after)) : ContractMove t signal db stage next after := by
  cases signal with
  | call call =>
    simp only [contractAct] at acted
    split_ifs at acted with begins
    cases acted
    subst begins
    cases draft with
    | rests _ idle unclaimed => exact .reads rfl (draft_begin idle unclaimed _ call)
  | refuse =>
    simp only [contractAct] at acted
    split_ifs at acted with begins
    cases acted
    subst begins
    cases draft with
    | rests _ idle unclaimed => exact .reads rfl (.rests trivial idle unclaimed)
  | rollback =>
    simp only [contractAct] at acted
    split_ifs at acted
    exact of_some_eq acted (.rollsBack rfl rfl)
  | exec =>
    simp only [contractAct] at acted
    cases draft with
    | @rests _ rests idle unclaimed =>
      cases stage with
      | countLines c asOf =>
        refine of_some_eq acted (.reads rfl ?_)
        split_ifs
        · exact .rests trivial idle unclaimed
        · exact .updates (by simp) idle unclaimed
      | selectLines c idx =>
        refine of_some_eq acted (.reads rfl (.rests ?_ idle unclaimed))
        split_ifs <;> trivial
      | claim c idx =>
        simp only [nextContractStatement, ContractDb.claimPeriod] at acted
        split_ifs at acted with free
        split at acted
        · exact of_some_eq acted (.claims _ _ free rfl (.claimed idle))
        · exact of_some_eq acted (.reads rfl (.rests trivial idle unclaimed))
      | idle | finished => cases acted
      | update | advance | ending => exact absurd rests id
    | @updates status next aims idle unclaimed =>
      obtain ⟨_, updated, same⟩ := map_eq_some_iff.mp acted
      cases same
      obtain ⟨free, rfl⟩ := update_contract updated
      refine .writes _ free rfl (.wrote rfl (Contract.linked_aim aims _) (stands rfl free) fun start p held => ?_)
      exact absurd held (unclaimed start p)
    | @claimed c idx idle =>
      obtain ⟨_, updated, same⟩ := map_eq_some_iff.mp acted
      cases same
      obtain ⟨free, rfl⟩ := update_contract updated
      have active : db.contract.committed.status = .active := stands rfl free
      have reads : db.contract.read t = db.contract.committed := read_of_not_held idle
      refine .writes _ free rfl (.wrote rfl ?_ (fun cancelled => ?_) fun _ _ _ => active)
      · rw [reads]
        exact linked_nextPointer active c idx
      · cases active.symm.trans cancelled
    | wrote =>
      exact of_some_eq acted (.commits rfl rfl rfl rfl)

theorem ContractDraft.frame (draft : ContractDraft db u stage) (contract : db.contract.Undisturbed u next.contract)
    (periods : ∀ start, (db.periods start).Kept u (next.periods start)) : ContractDraft next u stage := by
  have idle : (∀ v, db.contract.held ≠ some (u, v)) → ∀ v, next.contract.held ≠ some (u, v) :=
    fun none v held => none v ((contract.kept v).mp held)
  have unclaimed : (∀ start v, (db.periods start).held ≠ some (u, v)) →
      ∀ start v, (next.periods start).held ≠ some (u, v) :=
    fun none start v held => none start v ((periods start v).mp held)
  cases draft with
  | rests rests none no_period => exact .rests rests (idle none) (unclaimed no_period)
  | updates aims none no_period => exact .updates aims (idle none) (unclaimed no_period)
  | claimed none => exact .claimed (idle none)
  | wrote held linked cancelled bills =>
    have same := contract.committed _ held
    refine .wrote ((contract.kept _).mpr held) linked (same ▸ cancelled) fun start p claimed => ?_
    rw [same]
    exact bills start p ((periods start p).mp claimed)

theorem ContractLaw.works (law : ContractLaw w) {db : ContractDb}
    (committed : db.contract.committed = w.db.contract.committed) (own : ContractDraft db t after)
    (contract : ∀ u ≠ t, w.db.contract.Kept u db.contract)
    (periods : ∀ u ≠ t, ∀ start, (w.db.periods start).Kept u (db.periods start)) :
    ContractLaw ⟨db, update w.proc t after⟩ where
  linked := committed ▸ law.linked
  drafts := by
    intro u
    by_cases same : u = t
    · subst same
      simp only [update_self]
      exact own
    · simp only [update_of_ne same]
      exact (law.drafts u).frame ⟨contract u same, fun _ _ => committed⟩ (periods u same)

theorem ContractLaw.commits (law : ContractLaw w) (ending : w.proc t = .ending) :
    ContractLaw ⟨w.db.commit t, update w.proc t .finished⟩ where
  linked := by
    have draft := law.drafts t
    rw [ending] at draft
    cases draft with
    | rests rests => exact absurd rests id
    | wrote held linked =>
      simp only [ContractDb.commit, committed_commit, read_of_held held]
      exact linked
  drafts := by
    intro u
    by_cases same : u = t
    · subst same
      simp only [update_self]
      exact .rests trivial (fun v => not_held_commit u v _) fun start v => not_held_commit u v _
    · simp only [update_of_ne same]
      exact (law.drafts u).frame (undisturbed_commit same) fun start => kept_commit same

theorem ContractLaw.step (law : ContractLaw w) (e : ℕ × ContractSignal) (stands : w.StatusStands e) :
    ContractLaw (contractStep w e) := by
  obtain ⟨t, signal⟩ := e
  unfold contractStep
  cases stepped : World.step contractAct w (t, signal) with
  | none => exact law
  | some next =>
    obtain ⟨db, after, acted, rfl⟩ := World.step_eq_some stepped
    cases move_contractAct (law.drafts t) (fun exec => by subst exec; exact stands) acted with
    | reads same draft =>
      subst same
      exact law.works rfl draft (fun _ _ => .refl) fun _ _ _ => .refl
    | claims start p free claimed draft =>
      subst claimed
      exact law.works rfl draft (fun _ _ => .refl) fun u other => Table.kept_write other free p
    | writes v free wrote draft =>
      subst wrote
      exact law.works rfl draft (fun u other => kept_write other free v) fun _ _ _ => .refl
    | commits _ ending committed ended =>
      subst committed ended
      exact law.commits ending
    | rollsBack rolled ended =>
      subst rolled ended
      refine law.works rfl ?_ (fun u other => kept_rollback other) fun u other _ => kept_rollback other
      exact .rests trivial (fun v => not_held_rollback t v _) fun start v => not_held_rollback t v _

theorem ContractLaw.committed_or_ending (law : ContractLaw w) (stands : w.StatusStands e) :
    ((contractStep w e).db.contract.committed = w.db.contract.committed ∧
      ∀ start, ((contractStep w e).db.periods start).committed = (w.db.periods start).committed) ∨
    w.proc e.1 = .ending ∧ (contractStep w e).db = w.db.commit e.1 := by
  obtain ⟨t, signal⟩ := e
  unfold contractStep
  cases stepped : World.step contractAct w (t, signal) with
  | none => exact .inl ⟨rfl, fun _ => rfl⟩
  | some next =>
    obtain ⟨db, after, acted, rfl⟩ := World.step_eq_some stepped
    cases move_contractAct (law.drafts t) (fun exec => by subst exec; exact stands) acted with
    | reads same | writes v _ same | rollsBack same =>
      subst same
      exact .inl ⟨rfl, fun _ => rfl⟩
    | claims start p _ claimed =>
      subst claimed
      exact .inl ⟨rfl, fun k => Table.committed_write t start p _ k⟩
    | commits _ ending committed =>
      subst committed
      exact .inr ⟨ending, rfl⟩

theorem ContractLaw.keepsCancelled (law : ContractLaw w) (stands : w.StatusStands e) : w.KeepsCancelled e := by
  intro cancelled
  rcases law.committed_or_ending stands with ⟨same, -⟩ | ⟨ending, committed⟩
  · rw [same]
    exact cancelled
  · have draft := law.drafts e.1
    rw [ending] at draft
    cases draft with
    | rests rests => exact absurd rests id
    | wrote held _ keeps =>
      rw [committed, ContractDb.commit, committed_commit, read_of_held held]
      exact keeps cancelled

theorem ContractLaw.billsActive (law : ContractLaw w) (stands : w.StatusStands e) : w.BillsActive e := by
  intro start absent added
  rcases law.committed_or_ending stands with ⟨-, same⟩ | ⟨ending, committed⟩
  · exact absurd ((same start).trans absent) added
  · have draft := law.drafts e.1
    rw [ending] at draft
    cases draft with
    | rests rests => exact absurd rests id
    | wrote _ _ _ bills =>
      rcases (w.db.periods start).read_cases e.1 with ⟨p, held, -⟩ | ⟨-, same⟩
      · exact bills start p held
      · rw [committed, ContractDb.commit, committed_commit, same] at added
        exact absurd absent added

theorem law_contractStart (s : ContractRows) (linked : s.contract.Linked) : ContractLaw (contractStart s) :=
  ⟨linked, fun t => .rests trivial (not_held_of_none rfl t) fun _ => not_held_of_none rfl t⟩

/-- Where the status that each call has found stands until its update, a cancelled contract stays cancelled, its pointer
is set exactly while it is active, and each period is committed while it is active. -/
theorem contract_stands (s : ContractRows) (linked : s.contract.Linked) (es : List (ℕ × ContractSignal))
    (stands : StepsMeet contractStep ContractWorld.StatusStands (contractStart s) es) :
    StepsMeet contractStep ContractWorld.KeepsCancelled (contractStart s) es ∧
      Throughout contractStep (fun w => w.db.contract.committed.Linked) (contractStart s) es ∧
      StepsMeet contractStep ContractWorld.BillsActive (contractStart s) es := by
  have throughout : Throughout contractStep ContractLaw (contractStart s) es :=
    throughout_of_invariant (fun w e law stands => law.step e stands) (law_contractStart s linked) stands
  refine ⟨fun pre e post split => ?_, fun pre post split => (throughout pre post split).linked,
    fun pre e post split => ?_⟩
  · exact (throughout pre (e :: post) split).keepsCancelled (stands pre e post split)
  · exact (throughout pre (e :: post) split).billsActive (stands pre e post split)

instance decidableStatusFound (db : ContractDb) : (stage : ContractStage) → Decidable (ContractWorld.StatusFound db stage)
  | .update _ _ => inferInstanceAs (Decidable (_ → _))
  | .advance _ _ => inferInstanceAs (Decidable (_ = _))
  | .idle | .countLines _ _ | .selectLines _ _ | .claim _ _ | .ending | .finished => .isTrue trivial

instance decidableStatusStands (w : ContractWorld) : (e : ℕ × ContractSignal) → Decidable (w.StatusStands e)
  | (_, .exec) => inferInstanceAs (Decidable (_ → _))
  | (_, .call _) | (_, .refuse) | (_, .rollback) => .isTrue trivial

theorem linked_createContract {org : Option ℕ} {input : CreateContractInput} {actor : ContractActor} {s : ContractRows}
    (created : createContract org input actor = .ok s) : s.contract.Linked := by
  unfold createContract at created
  have rest := requireOrgAccess_bind created
  split_ifs at rest
  · cases rest
  · cases org with
    | none => cases rest
    | some partnerId =>
      cases rest
      simp [Contract.Linked]

end Moves

def contractCall (t : ℕ) (call : ContractCall) (statements : ℕ) : List (ℕ × ContractSignal) :=
  (t, .call call) :: List.replicate statements (t, .exec)

def serveContract (env : BillingEnv) (actor : ContractActor) (s : ContractRows) :
    ContractCall → Except ServiceError ContractRows
  | .activateContract asOf => activateContract actor asOf s
  | .pauseContract => pauseContract actor s
  | .resumeContract asOf => resumeContract actor asOf s
  | .cancelContract => cancelContract actor s
  | .generateDueInvoice asOf => (generateDueInvoice env asOf s).map (·.2)

def callAlone (call : ContractCall) (s : ContractRows) : ContractDb :=
  ((contractCall 0 call 4).foldl contractStep (contractStart s)).db

section Alone
variable {s t : ContractRows} {call : ContractCall}

theorem alone_finished (begins : beginContractCall s.contract call = .finished) :
    (callAlone call s).contract.committed = s.contract := by
  simp [callAlone, contractCall, contractStep, World.step, contractAct, List.replicate, contractStart, begins,
    nextContractStatement, Row.unheld, read_of_quiet]

theorem alone_update {status : ContractStatus} {next : Option Text}
    (begins : beginContractCall s.contract call = .update status next) :
    (callAlone call s).contract.committed = s.contract.aim status next := by
  simp [callAlone, contractCall, contractStep, World.step, contractAct, List.replicate, contractStart, begins,
    nextContractStatement, ContractDb.update, ContractDb.commit, Row.unheld, read_of_quiet, free_of_quiet]

theorem alone_countLines {asOf : Civil} (begins : beginContractCall s.contract call = .countLines s.contract asOf)
    (lines : s.lines.length ≠ 0) : (callAlone call s).contract.committed =
      s.contract.aim .active (some (pointerAsOf s.contract (isoDay asOf))) := by
  simp [callAlone, contractCall, contractStep, World.step, contractAct, List.replicate, contractStart, begins, lines,
    nextContractStatement, ContractDb.update, ContractDb.commit, Row.unheld, read_of_quiet, free_of_quiet]

theorem alone_unbilled {idx : ℕ} (begins : beginContractCall s.contract call = .selectLines s.contract idx)
    (idle : s.lines = [] ∨ (computePeriod s.contract.startDate s.contract.intervalMonths idx).periodStart ∈
      claimedStarts s) : (callAlone call s).contract.committed = s.contract := by
  rcases idle with empty | claimed
  · simp [callAlone, contractCall, contractStep, World.step, contractAct, List.replicate, contractStart, begins, empty,
      nextContractStatement, Row.unheld, read_of_quiet]
  · by_cases empty : s.lines = []
    · simp [callAlone, contractCall, contractStep, World.step, contractAct, List.replicate, contractStart, begins,
        empty, nextContractStatement, Row.unheld, read_of_quiet]
    · obtain ⟨p, member, same⟩ := List.mem_map.mp claimed
      have some_row : (s.periods.find? fun p => decide (p.period.periodStart =
          (computePeriod s.contract.startDate s.contract.intervalMonths idx).periodStart)).isSome = true :=
        find?_isSome.mpr ⟨p, member, decide_eq_true same⟩
      obtain ⟨q, found⟩ := isSome_iff_exists.mp some_row
      simp [callAlone, contractCall, contractStep, World.step, contractAct, List.replicate, contractStart, begins,
        empty, ContractDb.claimPeriod, found, nextContractStatement, Row.unheld, read_of_quiet, free_of_quiet]

theorem alone_billed {idx : ℕ} (begins : beginContractCall s.contract call = .selectLines s.contract idx)
    (lines : s.lines ≠ []) (unclaimed : (computePeriod s.contract.startDate s.contract.intervalMonths idx).periodStart ∉
      claimedStarts s) : (callAlone call s).contract.committed = nextPointer s.contract idx s.contract := by
  have absent : s.periods.find? (fun p => decide (p.period.periodStart =
      (computePeriod s.contract.startDate s.contract.intervalMonths idx).periodStart)) = none :=
    find?_eq_none.mpr fun p member same => unclaimed (List.mem_map.mpr ⟨p, member, of_decide_eq_true same⟩)
  simp [callAlone, contractCall, contractStep, World.step, contractAct, List.replicate, contractStart, begins, lines,
    ContractDb.claimPeriod, absent, nextContractStatement, ContractDb.update, ContractDb.commit, Row.unheld,
    read_of_quiet, free_of_quiet]

theorem contract_advancePointer (idx : ℕ) (s : ContractRows) :
    (advancePointer idx s).contract = nextPointer s.contract idx s.contract := by
  simp only [advancePointer, nextPointer]
  split_ifs <;> rfl

theorem begin_selectLines {asOf : Civil} {pointer : Text} (active : s.contract.status = .active)
    (stored : s.contract.nextBillingAt = some pointer) (reached : ¬textLt (isoDay asOf) pointer = true)
    (live : ¬isExpired s.contract.endDate (computePeriod s.contract.startDate s.contract.intervalMonths
      (dueIndex s.contract pointer)).periodStart = true) :
    beginContractCall s.contract (.generateDueInvoice asOf) =
      .selectLines s.contract (dueIndex s.contract pointer) := by
  simp only [beginContractCall, active, stored, if_neg reached, if_neg live]

theorem callAlone_contract {env : BillingEnv} {actor : ContractActor}
    (served : serveContract env actor s call = .ok t) : (callAlone call s).contract.committed = t.contract := by
  cases call with
  | activateContract asOf =>
    have lines : s.lines.length ≠ 0 := by
      intro empty
      have checked := requireOrgAccess_bind served
      simp only [bind, Except.bind, pure, Except.pure, empty] at checked
      split_ifs at checked
    obtain ⟨status, rfl⟩ := activateContract_ok served
    refine alone_countLines ?_ lines
    rcases status with draft | paused
    · simp [beginContractCall, draft]
    · simp [beginContractCall, paused]
  | pauseContract | resumeContract asOf =>
    have checked := requireOrgAccess_bind served
    simp only [bind, Except.bind, pure, Except.pure] at checked
    split_ifs at checked with status
    cases checked
    exact alone_update (if_neg status)
  | cancelContract =>
    have checked := requireOrgAccess_bind served
    simp only [pure, Except.pure] at checked
    split_ifs at checked with status
    · cases checked
      exact alone_finished (if_pos status)
    · cases checked
      exact alone_update (if_neg status)
  | generateDueInvoice asOf =>
    unfold serveContract generateDueInvoice at served
    simp only [any_eq_claimed, decide_eq_true_eq] at served
    split at served
    case h_2 unmatched =>
      cases served
      refine alone_finished ?_
      unfold beginContractCall
      dsimp only
      split
      case h_1 pointer active stored => exact absurd stored (unmatched pointer active)
      case h_2 => rfl
    case h_1 pointer active stored =>
      split_ifs at served with early past empty claimed
      · cases served
        exact alone_finished (by simp only [beginContractCall, active, stored, if_pos early])
      · cases served
        exact alone_update (by simp only [beginContractCall, active, stored, if_neg early, if_pos past])
      all_goals have begins := begin_selectLines active stored early past
      · cases served
        exact alone_unbilled begins (.inl (length_eq_zero_iff.mp empty))
      · cases priced : assembleInvoice env s with
        | error e =>
          rw [priced] at served
          cases served
        | ok inv =>
          rw [priced] at served
          cases served
          exact alone_unbilled begins (.inr claimed)
      · cases priced : assembleInvoice env s with
        | error e =>
          rw [priced] at served
          cases served
        | ok inv =>
          rw [priced] at served
          cases served
          rw [alone_billed begins (fun none => empty (length_eq_zero_iff.mpr none)) claimed]
          exact (contract_advancePointer (dueIndex s.contract pointer) (claimPeriod _ inv s)).symm

end Alone

def januaryRows : ContractRows := draftRows .advance 1 ⟨2026, 1, 31⟩ none none

theorem callAlone_contract_cancel :
    (callAlone .cancelContract januaryRows).contract.committed = januaryRows.contract.aim .cancelled none :=
  @callAlone_contract _ { januaryRows with contract := januaryRows.contract.aim .cancelled none } .cancelContract
    ⟨fun _ => none, fun _ => 0, 0, 0⟩ ⟨1, none, none⟩ rfl

/-- Another call has read the active contract when it is cancelled. -/
def cancelledRun (late : ContractCall) : List (ℕ × ContractSignal) :=
  contractCall 0 (.activateContract ⟨2026, 1, 31⟩) 3 ++ contractCall 1 late 0 ++ contractCall 2 .cancelContract 2

def pausedLate : List (ℕ × ContractSignal) := cancelledRun .pauseContract ++ List.replicate 2 (1, .exec)

def claimedLate : List (ℕ × ContractSignal) :=
  cancelledRun (.generateDueInvoice ⟨2026, 1, 31⟩) ++ List.replicate 3 (1, .exec)

def billedLate : List (ℕ × ContractSignal) := claimedLate ++ [(1, .exec)]

/-- A cancelled contract becomes a paused one, or is billed and has a pointer once every call is over. -/
theorem cancelled_contract_billed :
    let paused := pausedLate.foldl contractStep (contractStart januaryRows)
    let billed := billedLate.foldl contractStep (contractStart januaryRows)
    (¬StepsMeet contractStep ContractWorld.KeepsCancelled (contractStart januaryRows) pausedLate ∧
        paused.db.contract.committed.status = .paused) ∧
      (∀ e ∈ billedLate, billed.proc e.1 = .finished) ∧ ¬billed.db.contract.committed.Linked ∧
      ¬StepsMeet contractStep ContractWorld.BillsActive (contractStart januaryRows) billedLate := by
  refine ⟨⟨?_, by decide⟩, by decide, by decide, fun meets => ?_⟩
  · intro meets
    have kept := meets (cancelledRun .pauseContract ++ [(1, .exec)]) (1, .exec) [] rfl (by decide)
    exact absurd kept (by decide)
  · have active := meets claimedLate (1, .exec) [] rfl (iso ⟨2026, 1, 31⟩) (by decide) (by decide)
    exact absurd active (by decide)

/-- The contract is activated, billed and cancelled, one call after the other. -/
def orderlyRun : List (ℕ × ContractSignal) :=
  contractCall 0 (.activateContract ⟨2026, 1, 31⟩) 3 ++ contractCall 1 (.generateDueInvoice ⟨2026, 1, 31⟩) 4 ++
    contractCall 2 .cancelContract 2

theorem orderly_run_stands :
    Throughout contractStep (fun w => w.db.contract.committed.Linked) (contractStart januaryRows) orderlyRun := by
  exact (contract_stands januaryRows (by decide) orderlyRun (by decide)).2.1

end RemudaRmm.Billing
