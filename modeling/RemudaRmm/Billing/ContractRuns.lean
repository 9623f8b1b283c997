import Mathlib.Data.List.Range
import RemudaRmm.Billing.ContractSchedule
import RemudaRmm.Foundation.Checks
import RemudaRmm.Foundation.Runs

/-! Runs of billing calls on one contract. A call on a contract whose pointer is aimed at a period keeps the ledger,
expires the contract or claims exactly that period and moves on; over a run the ledger is a row of consecutive
periods. -/
namespace RemudaRmm.Billing
open Foundation List Schedule

/-- The effect of one billing call on a contract aimed at the period `index`. -/
inductive BillingEffect (sch : Schedule) (index : ℕ) (day : Civil) (s : ContractRows) : ContractRows → Prop where
  | kept {t : ContractRows} (contract : t.contract = s.contract) (lines : t.lines = s.lines)
      (periods : t.periods = s.periods) : BillingEffect sch index day s t
  | expired (active : s.contract.status = .active) (reached : (sch.dueDay index).rank ≤ day.rank)
      (past : isExpired s.contract.endDate (iso (sch.begins (min index sch.cap))) = true) :
      BillingEffect sch index day s (expireContract s)
  | claimed {inv : DraftInvoice} (active : s.contract.status = .active)
      (reached : (sch.dueDay index).rank ≤ day.rank)
      (live : isExpired s.contract.endDate (iso (sch.begins (min index sch.cap))) = false)
      (unclaimed : iso (sch.begins (min index sch.cap)) ∉ claimedStarts s) :
      BillingEffect sch index day s (advancePointer (min index sch.cap)
        (claimPeriod ⟨iso (sch.begins (min index sch.cap)), iso (sch.begins (min index sch.cap + 1))⟩ inv s))

section Step
variable {sch : Schedule} {index : ℕ} {day : Civil} {s : ContractRows}

theorem billed_effect (governs : sch.Governs s.contract)
    (aims : s.contract.status = .active → sch.Aims s.contract index)
    (years : WithinYears sch.interval day) (env : BillingEnv) : BillingEffect sch index day s (billed env day s) := by
  have outcome := generateDueInvoice_outcome env day s
  unfold billed
  generalize generateDueInvoice env day s = result at outcome
  cases outcome with
  | notDue idle | noLines due empty | unpriced due failed | alreadyBilled due claimed => exact .kept rfl rfl rfl
  | expired due past =>
    obtain ⟨rfl, reached⟩ := due_reads due (aims due.active) years.date
    rw [duePeriod_begins governs (aims due.active).date years reached] at past
    exact .expired due.active reached past
  | generated due live priced unclaimed =>
    obtain ⟨rfl, reached⟩ := due_reads due (aims due.active) years.date
    have period := duePeriod_begins governs (aims due.active).date years reached
    have search := dueIndex_dueDay governs (aims due.active).date years reached
    rw [period] at live unclaimed ⊢
    rw [search]
    exact .claimed due.active reached live unclaimed

theorem claimedStarts_claimPeriod (period : Period) (inv : DraftInvoice) (s : ContractRows) :
    claimedStarts (claimPeriod period inv s) = claimedStarts s ++ [period.periodStart] := by
  simp only [claimedStarts, claimPeriod, map_append, map_cons, map_nil]

@[simp] theorem periods_advancePointer (index : ℕ) (s : ContractRows) :
    (advancePointer index s).periods = s.periods := by
  unfold advancePointer
  simp only
  split_ifs <;> rfl

@[simp] theorem lines_advancePointer (index : ℕ) (s : ContractRows) : (advancePointer index s).lines = s.lines := by
  unfold advancePointer
  simp only
  split_ifs <;> rfl

@[simp] theorem endDate_advancePointer (index : ℕ) (s : ContractRows) :
    (advancePointer index s).contract.endDate = s.contract.endDate := by
  unfold advancePointer
  simp only
  split_ifs <;> rfl

theorem aims_advancePointer (governs : sch.Governs s.contract)
    (years : WithinYears sch.interval day) (reached : (sch.dueDay index).rank ≤ day.rank)
    (active : (advancePointer index s).contract.status = .active) :
    sch.Aims (advancePointer index s).contract (index + 1) := by
  rcases advancePointer_cases governs index with ⟨-, same⟩ | ⟨-, same⟩
  · rw [same] at active
    cases active
  · rw [same]
    refine ⟨rfl, ?_⟩
    have next := fourDigit_succ years reached
    rwa [Schedule.dueDay, Nat.add_right_comm]

theorem governs_advancePointer (governs : sch.Governs s.contract) : sch.Governs (advancePointer index s).contract := by
  rcases advancePointer_cases governs index with ⟨-, same⟩ | ⟨-, same⟩
  · rw [same]
    exact ⟨governs.1, governs.2, governs.3⟩
  · rw [same]
    exact ⟨governs.1, governs.2, governs.3⟩

end Step

/-- The ledger is the row of `count` consecutive periods from `first` on, and an active contract
aims at the one after them. -/
structure Contiguous (sch : Schedule) (first count : ℕ) (s : ContractRows) : Prop where
  governs : sch.Governs s.contract
  ledger : s.periods.map (·.period) =
    (List.range count).map fun j => computePeriod (iso sch.start) sch.interval (first + j)
  aims : s.contract.status = .active → sch.Aims s.contract (first + count)

namespace Contiguous
variable {sch : Schedule} {first count : ℕ} {s : ContractRows}

theorem claimedStarts_eq (h : Contiguous sch first count s) :
    claimedStarts s = (List.range count).map fun j => iso (sch.begins (first + j)) := by
  have starts := congrArg (List.map Period.periodStart) h.ledger
  rw [List.map_map, List.map_map] at starts
  refine starts.trans (map_congr_left fun j _ => ?_)
  simp only [Function.comp_apply, computePeriod_eq sch.years.date]
  rfl

theorem index_of_unclaimed (h : Contiguous sch first count s) (guarded : first ≤ sch.cap)
    (unclaimed : iso (sch.begins (min (first + count) sch.cap)) ∉ claimedStarts s) :
    min (first + count) sch.cap = first + count := by
  by_contra cut
  apply unclaimed
  rw [h.claimedStarts_eq, List.mem_map]
  refine ⟨sch.cap - first, ?_, ?_⟩
  · rw [mem_range]
    omega
  · rw [show first + (sch.cap - first) = min (first + count) sch.cap by omega]

theorem claim (h : Contiguous sch first count s) {day : Civil} (years : WithinYears sch.interval day)
    (reached : (sch.dueDay (first + count)).rank ≤ day.rank) (inv : DraftInvoice) :
    Contiguous sch first (count + 1) (advancePointer (first + count)
      (claimPeriod ⟨iso (sch.begins (first + count)), iso (sch.begins (first + count + 1))⟩ inv s)) := by
  refine ⟨governs_advancePointer h.governs, ?_, aims_advancePointer h.governs years reached⟩
  rw [periods_advancePointer, claimPeriod, map_append, h.ledger, range_succ, map_append,
    map_singleton, map_singleton, computePeriod_eq sch.years.date]
  rfl

theorem billed (h : Contiguous sch first count s) (guarded : first ≤ sch.cap) {day : Civil}
    (years : WithinYears sch.interval day) (env : BillingEnv) :
    ∃ more, Contiguous sch first more (billed env day s) := by
  have effect := billed_effect h.governs h.aims years env
  generalize RemudaRmm.Billing.billed env day s = t at effect
  cases effect with
  | kept contract lines periods =>
    refine ⟨count, ?_, ?_, ?_⟩
    · rw [contract]
      exact h.governs
    · rw [periods]
      exact h.ledger
    · rw [contract]
      exact h.aims
  | expired active reached past =>
    exact ⟨count, ⟨h.governs.1, h.governs.2, h.governs.3⟩, h.ledger, nofun⟩
  | claimed active reached live unclaimed =>
    rw [h.index_of_unclaimed guarded unclaimed]
    exact ⟨count + 1, h.claim years reached _⟩

theorem consecutive (h : Contiguous sch first count s) :
    (s.periods.map (·.period)).IsChain fun earlier later => earlier.periodEnd = later.periodStart := by
  rw [h.ledger, isChain_map, isChain_range]
  intro j _
  rfl

end Contiguous

/-- The claimed periods are the consecutive ones from `first` on, each claimed once, each ending
where the next begins, and none of them begins on or after the end date. -/
structure GapFree (c : Contract) (first : ℕ) (periods : List BillingPeriod) : Prop where
  contiguous : ∃ count, periods.map (·.period) =
    (List.range count).map fun j => computePeriod c.startDate c.intervalMonths (first + j)
  once : (periods.map (·.period.periodStart)).Nodup
  adjoining : (periods.map (·.period)).IsChain fun earlier later => earlier.periodEnd = later.periodStart
  inTerm : ∀ p ∈ periods, ∀ endDate, c.endDate = some endDate → textLt p.period.periodStart endDate = true

/-- What a run of billing calls keeps. -/
structure Sequential (sch : Schedule) (first : ℕ) (endDate : Option Text) (s : ContractRows) : Prop where
  row : ∃ count, Contiguous sch first count s
  once : (claimedStarts s).Nodup
  term : s.contract.endDate = endDate
  inTerm : ∀ start ∈ claimedStarts s, isExpired endDate start = false

def billingStep (s : ContractRows) (call : BillingEnv × Civil) : ContractRows := billed call.1 call.2 s

theorem Sequential.billed {sch : Schedule} {first : ℕ} {endDate : Option Text} {s : ContractRows}
    (h : Sequential sch first endDate s) (guarded : first ≤ sch.cap) {day : Civil}
    (years : WithinYears sch.interval day) (env : BillingEnv) : Sequential sch first endDate (billed env day s) := by
  obtain ⟨count, row⟩ := h.row
  have next := row.billed guarded years env
  have effect := billed_effect row.governs row.aims years env
  generalize RemudaRmm.Billing.billed env day s = t at next effect
  cases effect with
  | kept contract lines periods =>
    have starts : claimedStarts t = claimedStarts s := congrArg (List.map _) periods
    exact ⟨next, starts ▸ h.once, contract ▸ h.term, starts ▸ h.inTerm⟩
  | expired active reached past => exact ⟨next, h.once, h.term, h.inTerm⟩
  | claimed active reached live unclaimed =>
    refine ⟨next, ?_, (endDate_advancePointer _ _).trans h.term, ?_⟩ <;>
      rw [claimedStarts, periods_advancePointer, ← claimedStarts, claimedStarts_claimPeriod]
    · rw [← concat_eq_append]
      exact List.Nodup.concat unclaimed h.once
    · intro start member
      rcases mem_append.mp member with old | new
      · exact h.inTerm start old
      · rw [mem_singleton.mp new, ← h.term]
        exact live

theorem Sequential.gapFree {sch : Schedule} {first : ℕ} {s : ContractRows} {c : Contract}
    (h : Sequential sch first c.endDate s) (governs : sch.Governs c) : GapFree c first s.periods := by
  obtain ⟨count, row⟩ := h.row
  refine ⟨⟨count, ?_⟩, h.once, row.consecutive, ?_⟩
  · rw [governs.startDate, governs.intervalMonths]
    exact row.ledger
  · intro p member endDate ends
    have live := h.inTerm p.period.periodStart (List.mem_map_of_mem member)
    rw [ends, isExpired, textLe, Bool.not_eq_false'] at live
    exact live

def activeFrom (day : Civil) (s : ContractRows) : ContractRows :=
  { s with contract := { s.contract with
    status := .active, nextBillingAt := some (pointerAsOf s.contract (isoDay day)) } }

theorem requireOrgAccess_bind {α : Type} {actor : ContractActor} {orgId : ℕ} {next : Except ServiceError α} {t : α}
    (done : (requireOrgAccess actor orgId >>= fun _ => next) = .ok t) : next = .ok t := by
  obtain ⟨_, access, done⟩ := except_bind_ok done
  exact done

theorem activateContract_ok {actor : ContractActor} {day : Civil} {s t : ContractRows}
    (activated : activateContract actor day s = .ok t) :
    (s.contract.status = .draft ∨ s.contract.status = .paused) ∧ t = activeFrom day s := by
  have checked := requireOrgAccess_bind activated
  simp only [bind, Except.bind, pure, Except.pure] at checked
  split_ifs at checked with status lines
  exact ⟨by tauto, (Except.ok.inj checked).symm⟩

/-- A contract on its way through a term of `total` periods, of which `count` are billed. -/
structure CatchUp (sch : Schedule) (total count : ℕ) (s : ContractRows) : Prop where
  row : Contiguous sch 0 count s
  bound : count ≤ total
  status : s.contract.status = if count < total then .active else .expired
  term : ∀ j ≤ total, isExpired s.contract.endDate (iso (sch.begins j)) = decide (total ≤ j)
  lines : s.lines ≠ []
  priced : ∀ env, Priced env s

namespace CatchUp
variable {sch : Schedule} {total count : ℕ} {s : ContractRows} {day : Civil}

theorem idle_of_complete (h : CatchUp sch total count s) (complete : ¬ count < total) :
    ∀ pointer, ¬ Due day s pointer := by
  intro pointer due
  have status := h.status
  rw [if_neg complete, due.active] at status
  cases status

theorem billed_reached (h : CatchUp sch total count s) (guarded : total ≤ sch.cap + 1)
    (open_ : count < total) (years : WithinYears sch.interval day)
    (reached : (sch.dueDay count).rank ≤ day.rank) (env : BillingEnv) :
    CatchUp sch total (count + 1) (billed env day s) := by
  have active : s.contract.status = .active := by rw [h.status, if_pos open_]
  have aims : sch.Aims s.contract count := Nat.zero_add count ▸ h.row.aims active
  have within : count ≤ sch.cap := by omega
  have due := due_of_reached active aims years.date reached
  have search := dueIndex_dueDay h.row.governs aims.date years reached
  have period := duePeriod_begins h.row.governs aims.date years reached
  rw [Nat.min_eq_left within] at search period
  have fresh : (duePeriod s.contract (iso (sch.dueDay count))).periodStart ∉ claimedStarts s := by
    rw [period, h.row.claimedStarts_eq]
    simp only [Nat.zero_add]
    exact begins_not_claimed aims.fourDigit_begins fun i member => mem_range.mp member
  rcases billed_due due h.lines (h.priced env) fresh with ⟨past, -⟩ | ⟨-, inv, result⟩
  · rw [period, h.term count h.bound, decide_eq_true_eq] at past
    exact absurd open_ (not_lt.mpr past)
  · have row := h.row.claim years (by rwa [Nat.zero_add]) inv
    rw [Nat.zero_add] at row
    rw [result, search, period]
    refine ⟨row, open_, ?_, ?_, ?_, ?_⟩
    · rcases advancePointer_cases (s := claimPeriod _ inv s) h.row.governs count with
        ⟨past, same⟩ | ⟨live, same⟩
      · have last := (h.term (count + 1) open_).symm.trans past
        rw [same, if_neg (not_lt.mpr (of_decide_eq_true last))]
        rfl
      · have more := (h.term (count + 1) open_).symm.trans live
        rw [same, if_pos (not_le.mp (of_decide_eq_false more))]
        exact active
    · rw [endDate_advancePointer]
      exact h.term
    · rw [lines_advancePointer]
      exact h.lines
    · intro env
      unfold Priced
      rw [lines_advancePointer]
      exact h.priced env

def Late (sch : Schedule) (total : ℕ) (day : Civil) : Prop := (sch.dueDay (total - 1)).rank ≤ day.rank
  deriving Decidable

theorem billed (h : CatchUp sch total count s) (guarded : total ≤ sch.cap + 1)
    (years : WithinYears sch.interval day) (env : BillingEnv) :
    ∃ more, CatchUp sch total more (billed env day s) ∧ count ≤ more ∧
      (Late sch total day → count < total → count < more) := by
  by_cases open_ : count < total
  · by_cases reached : (sch.dueDay count).rank ≤ day.rank
    · exact ⟨count + 1, h.billed_reached guarded open_ years reached env, Nat.le_succ _, fun _ _ => Nat.lt_succ_self _⟩
    · have idle : ∀ pointer, ¬ Due day s pointer := by
        intro pointer due
        have aims : sch.Aims s.contract count := Nat.zero_add count ▸ h.row.aims due.active
        exact reached (due_reads due aims years.date).2
      refine ⟨count, (billed_idle idle).symm ▸ h, le_rfl, fun late _ => absurd ?_ reached⟩
      exact (begins_le_iff.mpr (by omega)).trans late
  · exact ⟨count, (billed_idle (h.idle_of_complete open_)).symm ▸ h, le_rfl, fun _ also => absurd also open_⟩

theorem run (h : CatchUp sch total count s) (guarded : total ≤ sch.cap + 1)
    (calls : List (BillingEnv × Civil)) (years : ∀ call ∈ calls, WithinYears sch.interval call.2) :
    ∃ more, CatchUp sch total more (calls.foldl billingStep s) ∧
      min total (count + calls.countP fun call => Late sch total call.2) ≤ more := by
  induction calls generalizing count s with
  | nil => exact ⟨count, h, Nat.min_le_right _ _⟩
  | cons call calls ih =>
    obtain ⟨next, holds, grows, late⟩ := h.billed guarded (years call mem_cons_self) call.1
    obtain ⟨more, final, counted⟩ := ih holds fun other member => years other (mem_cons_of_mem _ member)
    refine ⟨more, final, ?_⟩
    have bound := final.bound
    rw [countP_cons]
    by_cases isLate : Late sch total call.2
    · have step := late isLate
      simp only [isLate, decide_true, if_true]
      omega
    · simp only [isLate, decide_false, Bool.false_eq_true, if_false]
      omega

end CatchUp

def flatLine : ContractLine := ⟨.flat, "Managed services", none, 100, none, none, false, 0⟩

def flatEnv : BillingEnv := ⟨fun _ => none, fun _ => 0, 0, 0⟩

def operator : ContractActor := ⟨1, some 1, none⟩

def draftRows (timing : BillingTiming) (interval : ℕ) (start : Civil) (endDate : Option Civil)
    (renewal : Option ℕ) : ContractRows where
  contract := {
    partnerId := 1, orgId := 1, name := "Support", status := .draft, billingTiming := timing,
    intervalMonths := interval, startDate := iso start, endDate := endDate.map iso,
    nextBillingAt := none, autoIssue := false, autoRenew := renewal.isSome,
    renewalTermMonths := renewal, renewalNoticeDays := none, notes := none, terms := none,
    currencyCode := "USD", createdBy := some 1 }
  lines := [flatLine]
  periods := []
  invoices := []
  nextInvoiceId := 0
  notices := []

theorem priced_flat {s : ContractRows} (lines : s.lines = [flatLine]) : Priced flatEnv s := by
  intro l member
  rw [lines, mem_singleton] at member
  subst member
  unfold addContractLine
  exact ⟨_, if_neg (by decide)⟩

/-- Activated once and then only billed, at any days, a contract is billed without a gap, an
overlap or a repetition from the period of its activation on. In arrears the activation must not
have been cut off by the guard of the search. -/
theorem billing_gapFree {actor : ContractActor} {start activation : Civil} {s t : ContractRows}
    (unbilled : s.periods = []) (dated : s.contract.startDate = iso start) (positive : 1 ≤ s.contract.intervalMonths)
    (startYears : WithinYears s.contract.intervalMonths start)
    (activationYears : WithinYears s.contract.intervalMonths activation)
    (activated : activateContract actor activation s = .ok t) (guarded : s.contract.billingTiming = .arrears →
      periodIndexFor s.contract.startDate s.contract.intervalMonths (isoDay activation) ≤ runawayGuard)
    (calls : List (BillingEnv × Civil)) (years : ∀ call ∈ calls, WithinYears s.contract.intervalMonths call.2) :
    GapFree s.contract (periodIndexFor s.contract.startDate s.contract.intervalMonths (isoDay activation))
      (calls.foldl billingStep t).periods := by
  let sch : Schedule := ⟨start, s.contract.intervalMonths, s.contract.billingTiming, positive, startYears⟩
  have governs : sch.Governs s.contract := ⟨dated, rfl, rfl⟩
  have first : periodIndexFor s.contract.startDate s.contract.intervalMonths (isoDay activation) =
      sch.current activation := by
    rw [dated, isoDay_eq_iso activationYears.date]
    rfl
  have capped : sch.current activation ≤ sch.cap :=
    current_le_cap activationYears (first ▸ guarded)
  obtain ⟨-, rfl⟩ := activateContract_ok activated
  rw [first]
  refine Sequential.gapFree ?_ governs
  have meet : StepsMeet billingStep (fun _ call => WithinYears s.contract.intervalMonths call.2)
      (activeFrom activation s) calls := StepsMeet.of_forall fun call member _ => years call member
  refine (throughout_of_invariant ?_ ?_ meet).last
  · intro rows call holds within
    exact holds.billed capped within call.1
  · refine ⟨⟨0, ⟨dated, rfl, rfl⟩, ?_, fun _ => ⟨?_, ?_⟩⟩, ?_, rfl, ?_⟩
    · simp only [activeFrom, unbilled, map_nil, range_zero]
    · exact congrArg some (pointerAsOf_current governs activationYears)
    · exact fourDigit_dueDay_current activationYears
    · simp only [claimedStarts, activeFrom, unbilled, map_nil, nodup_nil]
    · simp only [claimedStarts, activeFrom, unbilled, map_nil, not_mem_nil, false_imp_iff, implies_true]

theorem billing_gapFree_january :
    ∃ t, activateContract operator ⟨2026, 1, 31⟩ (draftRows .advance 1 ⟨2026, 1, 31⟩ none none) = .ok t ∧
      GapFree (draftRows .advance 1 ⟨2026, 1, 31⟩ none none).contract
        (periodIndexFor (iso ⟨2026, 1, 31⟩) 1 (isoDay ⟨2026, 1, 31⟩))
        (([(flatEnv, ⟨2026, 3, 1⟩), (flatEnv, ⟨2026, 3, 1⟩)] : List (BillingEnv × Civil)).foldl
          billingStep t).periods := by
  have years : WithinYears 1 ⟨2026, 1, 31⟩ := by decide
  have activated : activateContract operator ⟨2026, 1, 31⟩ (draftRows .advance 1 ⟨2026, 1, 31⟩ none none) =
    .ok (activeFrom ⟨2026, 1, 31⟩ (draftRows .advance 1 ⟨2026, 1, 31⟩ none none)) := rfl
  refine ⟨_, activated, billing_gapFree rfl rfl le_rfl years years activated ?_ _ ?_⟩
  · intro arrears
    cases arrears
  · decide

/-- In arrears the search that activation uses reaches one index further than the one billing
uses: an activation at the guard is first billed for the period before its own. -/
theorem billing_before_activation :
    ∃ t, activateContract operator ⟨9333, 6, 1⟩ (draftRows .arrears 1 ⟨1000, 1, 1⟩ none none) = .ok t ∧
      ¬ GapFree (draftRows .arrears 1 ⟨1000, 1, 1⟩ none none).contract
        (periodIndexFor (iso ⟨1000, 1, 1⟩) 1 (isoDay ⟨9333, 6, 1⟩))
        (billed flatEnv ⟨9333, 7, 1⟩ t).periods := by
  let sch : Schedule := ⟨⟨1000, 1, 1⟩, 1, .arrears, le_rfl, by decide⟩
  let rows := draftRows .arrears 1 ⟨1000, 1, 1⟩ none none
  have governs : sch.Governs rows.contract := ⟨rfl, rfl, rfl⟩
  have june : WithinYears sch.interval ⟨9333, 6, 1⟩ := by decide
  have july : WithinYears sch.interval ⟨9333, 7, 1⟩ := by decide
  have first : sch.current ⟨9333, 6, 1⟩ = runawayGuard + 1 :=
    periodIndexFor_eq le_rfl sch.years june le_rfl (fun _ => by decide) (by decide)
  have dueDay : sch.dueDay (runawayGuard + 1) = ⟨9333, 7, 1⟩ := by decide
  have pointer := pointerAsOf_current governs june
  rw [first, dueDay] at pointer
  refine ⟨activeFrom ⟨9333, 6, 1⟩ rows, rfl, fun gapFree => ?_⟩
  have due : Due ⟨9333, 7, 1⟩ (activeFrom ⟨9333, 6, 1⟩ rows) (iso ⟨9333, 7, 1⟩) :=
    ⟨rfl, congrArg some pointer, by decide⟩
  have period : duePeriod rows.contract (iso ⟨9333, 7, 1⟩) = _ :=
    dueDay ▸ duePeriod_begins governs (dueDay ▸ july.date) july (dueDay ▸ le_rfl)
  rcases billed_due due (cons_ne_nil _ _) (priced_flat rfl) not_mem_nil with
    ⟨expired, -⟩ | ⟨-, inv, result⟩
  · cases expired
  · obtain ⟨count, ledger⟩ := gapFree.contiguous
    rw [result, periods_advancePointer] at ledger
    cases count with
    | zero => cases ledger
    | succ count =>
      have index : periodIndexFor (iso ⟨1000, 1, 1⟩) 1 (isoDay ⟨9333, 6, 1⟩) = runawayGuard + 1 := by
        rw [isoDay_eq_iso june.date]
        exact first
      rw [range_succ_eq_map, index] at ledger
      have head : duePeriod rows.contract (iso ⟨9333, 7, 1⟩) = _ := (List.cons.inj ledger).1
      have later : _ = Period.mk _ _ := computePeriod_begins governs (runawayGuard + 1)
      have same := congrArg Period.periodStart (period.symm.trans (head.trans later))
      have dates : sch.begins (min (runawayGuard + 1) sch.cap) = sch.begins (runawayGuard + 1) :=
        iso_injective (by decide) (by decide) same
      exact absurd dates (by decide)

end RemudaRmm.Billing
