import RemudaRmm.Billing.ContractRuns

/-! Lifecycle calls mixed with billing calls, on days that never go back. A pause keeps the ledger and drops the
pointer; an activation aims at the period of its day, and the pointer then moves forward at every due billing call
unless that period was billed before the pause. -/
namespace RemudaRmm.Billing
open Foundation List
variable {day : Civil} {sch : Schedule} {w : Timeline}

inductive LifecycleCall where
  | activate (actor : ContractActor)
  | pause (actor : ContractActor)
  | resume (actor : ContractActor)
  | addLine (input : ContractLineInput) (actor : ContractActor)
  | cancel (actor : ContractActor)
  | generate (env : BillingEnv)

def perform (day : Civil) (s : ContractRows) : LifecycleCall → Except ServiceError ContractRows
  | .activate actor => activateContract actor day s
  | .pause actor => pauseContract actor s
  | .resume actor => resumeContract actor day s
  | .addLine input actor => addContractLineToContract input actor s
  | .cancel actor => cancelContract actor s
  | .generate env => (generateDueInvoice env day s).map Prod.snd

structure Timeline where
  rows : ContractRows
  today : Civil

def lifecycleStep (w : Timeline) (e : Civil × LifecycleCall) : Timeline where
  rows := match perform e.1 w.rows e.2 with
    | .ok t => t
    | .error _ => w.rows
  today := e.1

inductive CallEffect (day : Civil) (s : ContractRows) : LifecycleCall → ContractRows → Prop where
  | kept {call : LifecycleCall} {t : ContractRows} (contract : t.contract = s.contract)
      (periods : t.periods = s.periods) : CallEffect day s call t
  | activated {call : LifecycleCall} (from_ : s.contract.status = .draft ∨ s.contract.status = .paused)
      (turnsOn : (∃ actor, call = .activate actor) ∨ ∃ actor, call = .resume actor) :
      CallEffect day s call (activeFrom day s)
  | halted {call : LifecycleCall} {status : ContractStatus} (ended : status = .paused ∨ status = .cancelled) :
      CallEffect day s call { s with contract := { s.contract with status, nextBillingAt := none } }
  | generated (env : BillingEnv) : CallEffect day s (.generate env) (billed env day s)

theorem perform_effect {s t : ContractRows} {call : LifecycleCall}
    (done : perform day s call = .ok t) : CallEffect day s call t := by
  cases call with
  | activate actor =>
    obtain ⟨from_, rfl⟩ := activateContract_ok done
    exact .activated from_ (.inl ⟨actor, rfl⟩)
  | pause actor =>
    have checked := requireOrgAccess_bind done
    simp only [bind, Except.bind, pure, Except.pure] at checked
    split_ifs at checked
    cases checked
    exact .halted (.inl rfl)
  | resume actor =>
    have checked := requireOrgAccess_bind done
    simp only [bind, Except.bind, pure, Except.pure] at checked
    split_ifs at checked with status
    cases checked
    exact .activated (.inr (not_not.mp status)) (.inr ⟨actor, rfl⟩)
  | addLine input actor =>
    have checked := requireOrgAccess_bind done
    simp only [bind, Except.bind, pure, Except.pure] at checked
    split at checked
    · cases checked
    · cases checked
      exact .kept rfl rfl
  | cancel actor =>
    have checked := requireOrgAccess_bind done
    simp only [pure, Except.pure] at checked
    split_ifs at checked
    · cases checked
      exact .kept rfl rfl
    · cases checked
      exact .halted (.inr rfl)
  | generate env =>
    cases result : generateDueInvoice env day s with
    | error e =>
      simp only [perform, result] at done
      cases done
    | ok pair =>
      have same : billed env day s = t := by
        simp only [perform, result] at done
        simp only [billed, result]
        exact Except.ok.inj done
      rw [← same]
      exact .generated env

theorem lifecycleStep_generate (w : Timeline) (day : Civil) (env : BillingEnv) :
    (lifecycleStep w (day, .generate env)).rows = billed env day w.rows := by
  cases result : generateDueInvoice env day w.rows with
  | error e | ok pair => simp only [lifecycleStep, perform, billed, result, Except.map]

theorem lifecycleStep_effect (w : Timeline) (day : Civil) (call : LifecycleCall) :
    CallEffect day w.rows call (lifecycleStep w (day, call)).rows := by
  unfold lifecycleStep
  cases result : perform day w.rows call with
  | error e => exact .kept rfl rfl
  | ok t => exact perform_effect result

/-- A due billing call on a contract with a line moves the pointer on or ends the contract. -/
def Progress (day : Civil) (s t : ContractRows) : Prop :=
  ∀ pointer, Due day s pointer → s.lines ≠ [] →
    t.contract.status ≠ .active ∨ ∃ later, t.contract.nextBillingAt = some later ∧ textLt pointer later = true

/-- The condition on one call, in the state before it: the days do not go back and stay within the
years and the guard, a paused contract is made active only in a period it was not billed for, and
every line has a price when the contract is billed. -/
def Unstuck (start : Civil) (w : Timeline) (e : Civil × LifecycleCall) : Prop :=
  let c := w.rows.contract
  w.today.rank ≤ e.1.rank ∧ WithinYears c.intervalMonths e.1 ∧
    e.1.rank < (boundary start c.intervalMonths (runawayGuard + 2)).rank ∧
    match e.2 with
    | .activate _ | .resume _ => c.status = .paused →
        (computePeriod c.startDate c.intervalMonths
          (periodIndexFor c.startDate c.intervalMonths (isoDay e.1))).periodStart ∉ claimedStarts w.rows
    | .generate env => Priced env w.rows
    | _ => True

/-- Every billed period has begun, and an active contract aims past all of them. -/
structure Forward (sch : Schedule) (w : Timeline) : Prop where
  governs : sch.Governs w.rows.contract
  draft : w.rows.contract.status = .draft → claimedStarts w.rows = []
  ledger : ∃ (indices : List ℕ) (index : ℕ),
    claimedStarts w.rows = indices.map (fun i => iso (sch.begins i)) ∧
    (∀ i ∈ indices, (sch.begins i).rank ≤ w.today.rank) ∧
    (w.rows.contract.status = .active → sch.Aims w.rows.contract index ∧ ∀ i ∈ indices, i < index)

namespace Schedule
variable {sch : Schedule}

theorem lt_begins_succ_current {day : Civil} (years : WithinYears sch.interval day)
    (guarded : day.rank < (sch.begins (runawayGuard + 2)).rank) :
    day.rank < (sch.begins (sch.current day + 1)).rank := by
  obtain ⟨high, -, stopped⟩ := periodIndexFor_spec sch.years years
  rcases Nat.eq_or_lt_of_le high with edge | below
  · unfold current
    rw [edge]
    exact guarded
  · exact stopped (Nat.le_of_lt_succ below)

theorem le_cap_of_reached {day : Civil} {index : ℕ} (reached : (sch.dueDay index).rank ≤ day.rank)
    (guarded : day.rank < (sch.begins (runawayGuard + 2)).rank) : index ≤ sch.cap := by
  have below : index + sch.shift < runawayGuard + 2 := begins_lt_iff.mp (reached.trans_lt guarded)
  unfold cap
  omega

end Schedule

theorem Forward.progress (h : Forward sch w) {env : BillingEnv} (years : WithinYears sch.interval day)
    (guarded : day.rank < (sch.begins (runawayGuard + 2)).rank) (priced : Priced env w.rows) :
    Progress day w.rows (billed env day w.rows) := by
  intro pointer due lines
  obtain ⟨indices, index, claimed, -, aimed⟩ := h.ledger
  obtain ⟨aims, later⟩ := aimed due.active
  obtain ⟨rfl, reached⟩ := Schedule.due_reads due aims years.date
  have within := Schedule.le_cap_of_reached reached guarded
  have search := Schedule.dueIndex_dueDay h.governs aims.date years reached
  have period := Schedule.duePeriod_begins h.governs aims.date years reached
  rw [Nat.min_eq_left within] at search period
  have fresh : (duePeriod w.rows.contract (iso (sch.dueDay index))).periodStart ∉ claimedStarts w.rows := by
    rw [period, claimed]
    exact Schedule.begins_not_claimed aims.fourDigit_begins later
  rcases billed_due due lines priced fresh with ⟨-, expired⟩ | ⟨-, inv, result⟩
  · rw [expired]
    exact .inl (not_active_expireContract _)
  · rw [result, search]
    rcases Schedule.advancePointer_cases (s := claimPeriod _ inv w.rows) h.governs index with
      ⟨-, same⟩ | ⟨-, same⟩
    · rw [same]
      exact .inl (not_active_expireContract _)
    · rw [same]
      refine .inr ⟨_, rfl, ?_⟩
      have next : FourDigit (sch.dueDay (index + 1)) := by
        rw [Schedule.dueDay, Nat.add_right_comm]
        exact Schedule.fourDigit_succ years reached
      rw [textLt_iso aims.date next, decide_eq_true_eq]
      exact Schedule.begins_lt_iff.mpr (Nat.add_lt_add_right (Nat.lt_succ_self index) _)

theorem Forward.activeFrom (h : Forward sch w) (forward : w.today.rank ≤ day.rank)
    (years : WithinYears sch.interval day) (guarded : day.rank < (sch.begins (runawayGuard + 2)).rank)
    (fresh : iso (sch.begins (sch.current day)) ∉ claimedStarts w.rows) : Forward sch ⟨activeFrom day w.rows, day⟩ := by
  obtain ⟨indices, -, claimed, begun, -⟩ := h.ledger
  refine ⟨⟨h.governs.1, h.governs.2, h.governs.3⟩, nofun, indices, sch.current day, claimed, ?_, ?_⟩
  · intro i member
    exact (begun i member).trans forward
  · intro _
    refine ⟨⟨congrArg some (Schedule.pointerAsOf_current h.governs years), Schedule.fourDigit_dueDay_current years⟩, ?_⟩
    intro i member
    have upper : i < sch.current day + 1 := Schedule.begins_lt_iff.mp
      (((begun i member).trans forward).trans_lt (Schedule.lt_begins_succ_current years guarded))
    refine lt_of_le_of_ne (Nat.le_of_lt_succ upper) ?_
    rintro rfl
    apply fresh
    rw [claimed]
    exact List.mem_map_of_mem member

theorem Forward.billed (h : Forward sch w) (forward : w.today.rank ≤ day.rank) (years : WithinYears sch.interval day)
    (guarded : day.rank < (sch.begins (runawayGuard + 2)).rank) (env : BillingEnv) :
    Forward sch ⟨billed env day w.rows, day⟩ := by
  obtain ⟨indices, index, claimed, begun, aimed⟩ := h.ledger
  have begun' : ∀ i ∈ indices, (sch.begins i).rank ≤ day.rank :=
    fun i member => (begun i member).trans forward
  have effect := billed_effect h.governs (fun active => (aimed active).1) years env
  generalize RemudaRmm.Billing.billed env day w.rows = t at effect
  cases effect with
  | kept contract lines periods =>
    have starts : claimedStarts t = claimedStarts w.rows := congrArg (List.map _) periods
    refine ⟨contract ▸ h.governs, ?_, indices, index, starts ▸ claimed, begun', contract ▸ aimed⟩
    rw [contract, starts]
    exact h.draft
  | expired active reached past =>
    exact ⟨⟨h.governs.1, h.governs.2, h.governs.3⟩, nofun, indices, index, claimed, begun', nofun⟩
  | @claimed inv active reached live unclaimed =>
    obtain ⟨aims, later⟩ := aimed active
    rw [Nat.min_eq_left (Schedule.le_cap_of_reached reached guarded)]
    refine ⟨governs_advancePointer h.governs, ?_, indices ++ [index], index + 1, ?_, ?_, ?_⟩
    · intro draft
      rcases Schedule.advancePointer_cases (s := claimPeriod _ inv w.rows) h.governs index with
        ⟨-, same⟩ | ⟨-, same⟩
      · rw [same] at draft
        cases draft
      · rw [same] at draft
        cases active.symm.trans draft
    · rw [claimedStarts, periods_advancePointer, ← claimedStarts, claimedStarts_claimPeriod, claimed,
        map_append, map_singleton]
    · intro i member
      rcases mem_append.mp member with old | new
      · exact begun' i old
      · rw [mem_singleton.mp new]
        exact (Schedule.begins_le_dueDay index).trans reached
    · intro still
      refine ⟨aims_advancePointer h.governs years reached still, ?_⟩
      intro i member
      rcases mem_append.mp member with old | new
      · exact Nat.lt_succ_of_lt (later i old)
      · rw [mem_singleton.mp new]
        exact Nat.lt_succ_self index

theorem Forward.step (h : Forward sch w) (day : Civil) (call : LifecycleCall)
    (unstuck : Unstuck sch.start w (day, call)) : Forward sch (lifecycleStep w (day, call)) := by
  obtain ⟨forward, years, guarded, allowed⟩ := unstuck
  rw [h.governs.intervalMonths] at years guarded
  obtain ⟨indices, index, claimed, begun, aimed⟩ := h.ledger
  have begun' : ∀ i ∈ indices, (sch.begins i).rank ≤ day.rank :=
    fun i member => (begun i member).trans forward
  have effect := lifecycleStep_effect w day call
  have shape : lifecycleStep w (day, call) = ⟨(lifecycleStep w (day, call)).rows, day⟩ := rfl
  rw [shape]
  generalize (lifecycleStep w (day, call)).rows = t at effect
  cases effect with
  | kept contract periods =>
    have starts : claimedStarts t = claimedStarts w.rows := congrArg (List.map _) periods
    refine ⟨contract ▸ h.governs, ?_, indices, index, starts ▸ claimed, begun', contract ▸ aimed⟩
    rw [contract, starts]
    exact h.draft
  | activated from_ turnsOn =>
    refine h.activeFrom forward years guarded ?_
    rcases from_ with draft | paused
    · rw [h.draft draft]
      exact not_mem_nil
    · have fresh : (computePeriod w.rows.contract.startDate w.rows.contract.intervalMonths
          (periodIndexFor w.rows.contract.startDate w.rows.contract.intervalMonths (isoDay day))).periodStart ∉
            claimedStarts w.rows := by
        rcases turnsOn with ⟨actor, rfl⟩ | ⟨actor, rfl⟩ <;> exact allowed paused
      rw [Schedule.computePeriod_begins h.governs, isoDay_eq_iso years.date, h.governs.startDate,
        h.governs.intervalMonths] at fresh
      exact fresh
  | halted ended =>
    refine ⟨⟨h.governs.1, h.governs.2, h.governs.3⟩, ?_, indices, index, claimed, begun', ?_⟩
    · intro draft
      rcases ended with rfl | rfl <;> cases draft
    · intro active
      rcases ended with rfl | rfl <;> cases active
  | generated env => exact h.billed forward years guarded env

theorem createContract_ok {org : Option ℕ} {input : CreateContractInput} {actor : ContractActor} {s : ContractRows}
    (created : createContract org input actor = .ok s) :
    s.periods = [] ∧ s.contract.status = .draft ∧ s.contract.startDate = input.startDate ∧
      s.contract.intervalMonths = input.intervalMonths := by
  have checked := requireOrgAccess_bind created
  simp only [bind, Except.bind, pure, Except.pure] at checked
  split at checked
  · cases checked
  · cases org with
    | none => cases checked
    | some partnerId =>
      cases checked
      exact ⟨rfl, rfl, rfl, rfl⟩

/-- In a run of lifecycle and billing calls that all meet the condition, every due billing call
moves the pointer strictly forward or ends the contract. -/
theorem pointer_progresses {org : Option ℕ} {input : CreateContractInput} {actor : ContractActor}
    {s : ContractRows} {start creation : Civil} (created : createContract org input actor = .ok s)
    (dated : input.startDate = iso start) (positive : 1 ≤ input.intervalMonths)
    (years : WithinYears input.intervalMonths start) (calls : List (Civil × LifecycleCall))
    (meet : StepsMeet lifecycleStep (Unstuck start) ⟨s, creation⟩ calls) :
    ∀ before day env after, calls = before ++ (day, .generate env) :: after →
      Progress day (before.foldl lifecycleStep ⟨s, creation⟩).rows
        (lifecycleStep (before.foldl lifecycleStep ⟨s, creation⟩) (day, .generate env)).rows := by
  obtain ⟨periods, draft, startDate, intervalMonths⟩ := createContract_ok created
  let sch : Schedule := ⟨start, input.intervalMonths, s.contract.billingTiming, positive, years⟩
  have initial : Forward sch ⟨s, creation⟩ := by
    refine ⟨⟨startDate.trans dated, intervalMonths, rfl⟩, ?_, [], 0, ?_, nofun, ?_⟩
    · intro _
      simp only [claimedStarts, periods, map_nil]
    · simp only [claimedStarts, periods, map_nil]
    · intro active
      cases draft.symm.trans active
  have always : Throughout lifecycleStep (Forward sch) ⟨s, creation⟩ calls :=
    throughout_of_invariant (fun w e holds unstuck => holds.step e.1 e.2 unstuck) initial meet
  rintro before day env after rfl
  have holds := always before _ rfl
  obtain ⟨-, within, guarded, priced⟩ := meet before (day, .generate env) after rfl
  rw [holds.governs.intervalMonths] at within guarded
  rw [lifecycleStep_generate]
  exact holds.progress within guarded priced

def supportInput : CreateContractInput where
  orgId := 1
  name := "Support"
  billingTiming := .advance
  intervalMonths := 1
  startDate := iso ⟨2026, 1, 1⟩
  endDate := none
  autoIssue := none
  currencyCode := none
  notes := none
  terms := none
  autoRenew := none
  renewalTermMonths := none
  renewalNoticeDays := none

def supportLine : ContractLineInput := ⟨.flat, "Managed services", none, 100, none, none, false, none⟩

def supportRows : ContractRows := { draftRows .advance 1 ⟨2026, 1, 1⟩ none none with lines := [] }

/-- The line is added, and the contract is activated on its first day. -/
def opening : List (Civil × LifecycleCall) :=
  [(⟨2026, 1, 1⟩, .addLine supportLine operator), (⟨2026, 1, 1⟩, .activate operator)]

theorem created_support : createContract (some 1) supportInput operator = .ok supportRows := rfl

theorem pointer_progresses_opening :
    Progress ⟨2026, 1, 1⟩ (opening.foldl lifecycleStep ⟨supportRows, ⟨2026, 1, 1⟩⟩).rows
      (lifecycleStep (opening.foldl lifecycleStep ⟨supportRows, ⟨2026, 1, 1⟩⟩)
        (⟨2026, 1, 1⟩, .generate flatEnv)).rows := by
  have years : WithinYears 1 ⟨2026, 1, 1⟩ := by decide
  have guarded : (⟨2026, 1, 1⟩ : Civil).rank < (boundary ⟨2026, 1, 1⟩ 1 (runawayGuard + 2)).rank := by decide
  refine pointer_progresses created_support rfl le_rfl years (opening ++ [(⟨2026, 1, 1⟩, .generate flatEnv)])
    ?_ opening _ flatEnv [] rfl
  refine .cons ⟨le_rfl, years, guarded, trivial⟩ (.cons ⟨le_rfl, years, guarded, nofun⟩
    (.cons ⟨le_rfl, years, guarded, priced_flat rfl⟩ .nil))

/-- January is billed, and the contract is paused and resumed within it. -/
def pauseWithin : List (Civil × LifecycleCall) :=
  opening ++ [(⟨2026, 1, 1⟩, .generate flatEnv), (⟨2026, 1, 10⟩, .pause operator), (⟨2026, 1, 15⟩, .resume operator)]

/-- Paused and resumed within the month that is billed already, the contract is aimed at that month
again and the next billing call loses the claim. -/
theorem pointer_stuck_after_resume :
    createContract (some 1) supportInput operator = .ok supportRows ∧
      (pauseWithin.map fun e => e.1.rank).Pairwise (· ≤ ·) ∧
      ¬ Progress ⟨2026, 1, 15⟩ (pauseWithin.foldl lifecycleStep ⟨supportRows, ⟨2026, 1, 1⟩⟩).rows
        (lifecycleStep (pauseWithin.foldl lifecycleStep ⟨supportRows, ⟨2026, 1, 1⟩⟩)
          (⟨2026, 1, 15⟩, .generate flatEnv)).rows := by
  refine ⟨rfl, by decide, fun progress => ?_⟩
  have due : Due ⟨2026, 1, 15⟩ (pauseWithin.foldl lifecycleStep ⟨supportRows, ⟨2026, 1, 1⟩⟩).rows
      (iso ⟨2026, 1, 1⟩) := ⟨by decide, by decide, by decide⟩
  rcases progress _ due (by decide) with ended | ⟨later, stored, moved⟩
  · exact ended (by decide)
  · have same : some later = some (iso ⟨2026, 1, 1⟩) := stored.symm.trans (by decide)
    cases same
    exact absurd moved (by decide)

end RemudaRmm.Billing
