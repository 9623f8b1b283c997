import RemudaRmm.Billing.ContractRuns

/-! The daily contract job (`contractRenewal.ts`, `contractWorker.ts`): the renewal sweep extends the term of auto-renew
contracts, then the billing sweep bills what is due. Both decide expiry for themselves, and billing also looks one
period ahead. -/
namespace RemudaRmm.Billing
open Foundation
variable {day : Civil} {s : ContractRows} {sch : Schedule}

/-- One notice for each end date and kind; true for the caller that made it. -/
def claimNotice (endDate : Text) (kind : NoticeKind) (s : ContractRows) : Bool × ContractRows :=
  if (endDate, kind) ∈ s.notices then (false, s)
  else (true, { s with notices := s.notices ++ [(endDate, kind)] })

structure SweepResult where
  (noticed renewed : ℕ)

def noticePass (today endDate : Text) (s : ContractRows) : Bool × ContractRows :=
  let noticeDays := s.contract.renewalNoticeDays.getD 30
  if isWithinNoticeWindow today endDate noticeDays then claimNotice endDate .advance s else (false, s)

/-- Extend the term when the period that falls due would expire. -/
def extendPass (today endDate : Text) (termMonths : ℕ) (s : ContractRows) : Bool × ContractRows :=
  let c := s.contract
  match c.nextBillingAt with
  | none => (false, s)
  | some nextBillingAt =>
    if textLe nextBillingAt today then
      let duePeriodStart := duePeriodStartFor c.billingTiming nextBillingAt c.intervalMonths
      let (newEndDate, renewed) := extendTermPastDue endDate duePeriodStart termMonths
      if renewed then
        (true, (claimNotice newEndDate .renewed { s with contract := { c with endDate := some newEndDate } }).2)
      else (false, s)
    else (false, s)

def renewalSweep (day : Civil) (s : ContractRows) : SweepResult × ContractRows :=
  let today := isoDay day
  let c := s.contract
  if c.status = .active ∧ c.autoRenew = true then
    match c.endDate, c.renewalTermMonths with
    | some endDate, some termMonths =>
      let (noticed, afterNotice) := noticePass today endDate s
      let (renewed, afterRenewal) := extendPass today endDate termMonths afterNotice
      (⟨noticed.toNat, renewed.toNat⟩, afterRenewal)
    | _, _ => (⟨0, 0⟩, s)
  else (⟨0, 0⟩, s)

def billingSweep (env : BillingEnv) (day : Civil) (s : ContractRows) : ContractRows :=
  match s.contract.status, s.contract.nextBillingAt with
  | .active, some nextBillingAt => if textLe nextBillingAt (isoDay day) then billed env day s else s
  | _, _ => s

/-- A day of the job: its date and what billing reads outside each contract. -/
structure JobDay where
  date : Civil
  env : Contract → BillingEnv

def contractDay (s : ContractRows) (d : JobDay) : ContractRows :=
  let renewed := (renewalSweep d.date s).2
  billingSweep (d.env renewed.contract) d.date renewed

/-- The daily job over all contracts: the whole renewal sweep, then the whole billing sweep. -/
def dailyJob (contracts : List ContractRows) (d : JobDay) : List ContractRows :=
  let renewed := contracts.map fun s => (renewalSweep d.date s).2
  renewed.map fun s => billingSweep (d.env s.contract) d.date s

theorem dailyJob_eq_map (contracts : List ContractRows) (d : JobDay) :
    dailyJob contracts d = contracts.map (contractDay · d) := by
  simp only [dailyJob, List.map_map]
  rfl

theorem foldl_dailyJob (contracts : List ContractRows) (days : List JobDay) :
    days.foldl dailyJob contracts = contracts.map fun s => days.foldl contractDay s := by
  induction days generalizing contracts with
  | nil => exact (List.map_id contracts).symm
  | cons d days ih =>
    rw [List.foldl_cons, ih, dailyJob_eq_map, List.map_map]
    rfl

theorem billingSweep_eq_billed (env : BillingEnv) (day : Civil) (s : ContractRows) :
    billingSweep env day s = billed env day s ∨ billingSweep env day s = s := by
  unfold billingSweep
  split
  · split_ifs
    · exact .inl rfl
    · exact .inr rfl
  · exact .inr rfl

/-- The end date the renewal sweep leaves on a contract that is due. -/
def renewedEnd (c : Contract) (pointer : Text) : Option Text :=
  match c.autoRenew, c.endDate, c.renewalTermMonths with
  | true, some endDate, some termMonths =>
    some (extendTermPastDue endDate (duePeriodStartFor c.billingTiming pointer c.intervalMonths) termMonths).1
  | _, endDate, _ => endDate

/-- Only the term and the notices of the contract have changed. -/
structure SameButTerm (s t : ContractRows) : Prop where
  contract : t.contract = { s.contract with endDate := t.contract.endDate }
  lines : t.lines = s.lines
  periods : t.periods = s.periods

theorem SameButTerm.refl (s : ContractRows) : SameButTerm s s := ⟨rfl, rfl, rfl⟩

theorem claimNotice_kept (endDate : Text) (kind : NoticeKind) (s : ContractRows) :
    (claimNotice endDate kind s).2.contract = s.contract ∧ (claimNotice endDate kind s).2.lines = s.lines ∧
      (claimNotice endDate kind s).2.periods = s.periods := by
  unfold claimNotice
  split_ifs <;> exact ⟨rfl, rfl, rfl⟩

theorem noticePass_kept (today endDate : Text) (s : ContractRows) :
    (noticePass today endDate s).2.contract = s.contract ∧ (noticePass today endDate s).2.lines = s.lines ∧
      (noticePass today endDate s).2.periods = s.periods := by
  unfold noticePass
  simp only
  split_ifs
  · exact claimNotice_kept _ _ _
  · exact ⟨rfl, rfl, rfl⟩

theorem extendTermPastDue_unrenewed {endDate duePeriodStart : Text} {termMonths : ℕ}
    (unrenewed : (extendTermPastDue endDate duePeriodStart termMonths).2 = false) :
    (extendTermPastDue endDate duePeriodStart termMonths).1 = endDate := by
  have renewed : ∀ left e, (extendTermLoop duePeriodStart termMonths left e true).2 = true := by
    intro left
    induction left with
    | zero => exact fun _ => rfl
    | succ left ih =>
      intro e
      unfold extendTermLoop
      split_ifs
      · exact ih _
      · rfl
  unfold extendTermPastDue extendTermLoop at unrenewed ⊢
  split_ifs at unrenewed ⊢
  · rw [renewed] at unrenewed
    cases unrenewed
  · rfl

theorem extendPass_kept (today endDate : Text) (termMonths : ℕ) (s : ContractRows) :
    SameButTerm s (extendPass today endDate termMonths s).2 := by
  unfold extendPass
  simp only
  split
  · exact .refl s
  · split_ifs
    · obtain ⟨contract, lines, periods⟩ := claimNotice_kept _ .renewed { s with contract := _ }
      exact ⟨by rw [contract], lines, periods⟩
    · exact .refl s
    · exact .refl s

theorem extendPass_due {pointer endDate : Text} (due : Due day s pointer)
    (ends : s.contract.endDate = some endDate) (termMonths : ℕ) :
    (extendPass (isoDay day) endDate termMonths s).2.contract.endDate = some (extendTermPastDue endDate
      (duePeriodStartFor s.contract.billingTiming pointer s.contract.intervalMonths) termMonths).1 := by
  unfold extendPass
  simp only [due.stored, due.reached, if_true]
  split_ifs with renewed
  · rw [(claimNotice_kept _ _ _).1]
  · rw [ends, extendTermPastDue_unrenewed (Bool.eq_false_iff.mpr renewed)]

theorem renewalSweep_kept (day : Civil) (s : ContractRows) : SameButTerm s (renewalSweep day s).2 := by
  unfold renewalSweep
  simp only
  split_ifs
  · split
    · rename_i endDate termMonths _ _
      obtain ⟨contract, lines, periods⟩ := noticePass_kept (isoDay day) endDate s
      obtain ⟨contract', lines', periods'⟩ :=
        extendPass_kept (isoDay day) endDate termMonths (noticePass (isoDay day) endDate s).2
      exact ⟨by rw [contract', contract], lines'.trans lines, periods'.trans periods⟩
    · exact .refl s
  · exact .refl s

theorem renewalSweep_due {pointer : Text} (due : Due day s pointer) :
    (renewalSweep day s).2.contract.endDate = renewedEnd s.contract pointer := by
  unfold renewalSweep renewedEnd
  simp only [due.active, true_and]
  cases renews : s.contract.autoRenew with
  | false => rfl
  | true =>
    rw [if_pos rfl]
    cases ends : s.contract.endDate with
    | none => exact ends
    | some endDate =>
      cases term : s.contract.renewalTermMonths with
      | none => exact ends
      | some termMonths =>
        obtain ⟨contract, -, -⟩ := noticePass_kept (isoDay day) endDate s
        have still : Due day (noticePass (isoDay day) endDate s).2 pointer :=
          ⟨contract ▸ due.active, contract ▸ due.stored, due.reached⟩
        have extended := extendPass_due still (contract ▸ ends) termMonths
        rw [contract] at extended
        exact extended

structure Aimed (sch : Schedule) (s : ContractRows) : Prop where
  governs : sch.Governs s.contract
  aims : ∃ index, s.contract.status = .active → sch.Aims s.contract index

theorem Aimed.sweep {t : ContractRows} (h : Aimed sch s) (same : SameButTerm s t) : Aimed sch t := by
  obtain ⟨index, aims⟩ := h.aims
  refine ⟨?_, index, ?_⟩ <;> rw [same.contract]
  · exact ⟨h.governs.1, h.governs.2, h.governs.3⟩
  · intro active
    exact ⟨(aims active).stored, (aims active).date⟩

/-- The period after the one that falls due begins before the end date. -/
def AheadInTerm (endDate : Option Text) (c : Contract) (pointer : Text) : Prop :=
  isExpired endDate
    (computePeriod c.startDate c.intervalMonths (dueIndex c pointer + 1)).periodStart = false

theorem isExpired_mono {endDate : Option Text} {a b : Text} (later : textLe a b = true)
    (past : isExpired endDate a = true) : isExpired endDate b = true := by
  cases endDate with
  | none => cases past
  | some e => exact textLe_trans past later

theorem aheadInTerm_dueDay {index : ℕ} (governs : sch.Governs s.contract) (aims : sch.Aims s.contract index)
    (years : WithinYears sch.interval day) (reached : (sch.dueDay index).rank ≤ day.rank)
    (ahead : AheadInTerm s.contract.endDate s.contract (iso (sch.dueDay index))) :
    isExpired s.contract.endDate (iso (sch.begins (min index sch.cap))) = false ∧
      isExpired s.contract.endDate (iso (sch.begins (min index sch.cap + 1))) = false := by
  unfold AheadInTerm at ahead
  rw [Schedule.dueIndex_dueDay governs aims.date years reached, Schedule.computePeriod_begins governs] at ahead
  refine ⟨?_, ahead⟩
  have begun : (sch.begins (min index sch.cap)).rank ≤ day.rank :=
    ((Schedule.begins_le_iff.mpr (Nat.min_le_left _ _)).trans (Schedule.begins_le_dueDay index)).trans reached
  have next := Schedule.fourDigit_succ years begun
  have here := Schedule.fourDigit_of_le (Nat.le_succ _) next
  have order : textLe (iso (sch.begins (min index sch.cap))) (iso (sch.begins (min index sch.cap + 1))) = true := by
    rw [textLe_iso here next, decide_eq_true_eq]
    exact Schedule.begins_le_iff.mpr (Nat.le_succ _)
  cases past : isExpired s.contract.endDate (iso (sch.begins (min index sch.cap))) with
  | false => rfl
  | true =>
    rw [isExpired_mono order past] at ahead
    cases ahead

theorem Aimed.billed (h : Aimed sch s) (years : WithinYears sch.interval day) (env : BillingEnv)
    (ahead : ∀ pointer, Due day s pointer → AheadInTerm s.contract.endDate s.contract pointer)
    (live : s.contract.status ≠ .expired) :
    Aimed sch (billed env day s) ∧ (billed env day s).contract.status ≠ .expired := by
  obtain ⟨index, aims⟩ := h.aims
  have due : s.contract.status = .active → (sch.dueDay index).rank ≤ day.rank →
      Due day s (iso (sch.dueDay index)) :=
    fun active reached => Schedule.due_of_reached active (aims active) years.date reached
  have effect := billed_effect h.governs aims years env
  generalize RemudaRmm.Billing.billed env day s = t at effect
  cases effect with
  | kept contract lines periods =>
    rw [contract]
    exact ⟨⟨contract ▸ h.governs, index, contract ▸ aims⟩, live⟩
  | expired active reached past =>
    obtain ⟨inTerm, -⟩ := aheadInTerm_dueDay h.governs (aims active) years reached
      (ahead _ (due active reached))
    rw [inTerm] at past
    cases past
  | @claimed inv active reached _ unclaimed =>
    obtain ⟨-, next⟩ := aheadInTerm_dueDay h.governs (aims active) years reached
      (ahead _ (due active reached))
    have begun : (sch.dueDay (min index sch.cap)).rank ≤ day.rank :=
      (Schedule.begins_le_iff.mpr (Nat.add_le_add_right (Nat.min_le_left _ _) _)).trans reached
    refine ⟨⟨governs_advancePointer h.governs, min index sch.cap + 1, aims_advancePointer h.governs years begun⟩, ?_⟩
    rcases Schedule.advancePointer_cases (s := claimPeriod _ inv s) h.governs (min index sch.cap) with
      ⟨past, -⟩ | ⟨-, same⟩
    · cases next.symm.trans past
    · rw [same]
      exact live

/-- The condition on one day: when the contract is due, the period after the due one begins before
the end date that the renewal sweep leaves. -/
def RenewsAhead (s : ContractRows) (d : JobDay) : Prop :=
  WithinYears s.contract.intervalMonths d.date ∧
    ∀ pointer, Due d.date s pointer → AheadInTerm (renewedEnd s.contract pointer) s.contract pointer

theorem Aimed.contractDay (h : Aimed sch s) (d : JobDay)
    (renews : RenewsAhead s d) (live : s.contract.status ≠ .expired) :
    Aimed sch (contractDay s d) ∧ (contractDay s d).contract.status ≠ .expired := by
  obtain ⟨years, ahead⟩ := renews
  rw [h.governs.intervalMonths] at years
  have same := renewalSweep_kept d.date s
  have swept : Aimed sch (renewalSweep d.date s).2 := h.sweep same
  have alive : (renewalSweep d.date s).2.contract.status ≠ .expired := by
    rw [same.contract]
    exact live
  unfold RemudaRmm.Billing.contractDay
  simp only
  rcases billingSweep_eq_billed (d.env (renewalSweep d.date s).2.contract) d.date (renewalSweep d.date s).2 with
    ran | idle
  · rw [ran]
    refine swept.billed years _ ?_ alive
    intro pointer due
    have before : Due d.date s pointer := by
      have active := due.active
      have stored := due.stored
      rw [same.contract] at active stored
      exact ⟨active, stored, due.reached⟩
    have inTerm := ahead pointer before
    rw [← renewalSweep_due before] at inTerm
    rw [same.contract]
    exact inTerm
  · rw [idle]
    exact ⟨swept, alive⟩

/-- Whatever the days of the job, an activated contract is never expired by it while on each of
those days the period after the due one begins before the renewed end date. -/
theorem renewed_never_expires {actor : ContractActor} {start activation : Civil} {s t : ContractRows}
    (dated : s.contract.startDate = iso start) (positive : 1 ≤ s.contract.intervalMonths)
    (startYears : WithinYears s.contract.intervalMonths start)
    (activationYears : WithinYears s.contract.intervalMonths activation)
    (activated : activateContract actor activation s = .ok t)
    (contracts : List ContractRows) (i : ℕ) (listed : contracts[i]? = some t) (days : List JobDay)
    (meet : StepsMeet contractDay RenewsAhead t days) :
    Throughout dailyJob (fun rows => ∀ r, rows[i]? = some r → r.contract.status ≠ .expired) contracts days := by
  let sch : Schedule := ⟨start, s.contract.intervalMonths, s.contract.billingTiming, positive, startYears⟩
  have governs : sch.Governs s.contract := ⟨dated, rfl, rfl⟩
  obtain ⟨-, rfl⟩ := activateContract_ok activated
  have initial : Aimed sch (activeFrom activation s) ∧ (activeFrom activation s).contract.status ≠ .expired := by
    refine ⟨⟨⟨dated, rfl, rfl⟩, sch.current activation, fun _ => ⟨?_, ?_⟩⟩, nofun⟩
    · exact congrArg some (Schedule.pointerAsOf_current governs activationYears)
    · exact Schedule.fourDigit_dueDay_current activationYears
  have always : Throughout contractDay (fun r => Aimed sch r ∧ r.contract.status ≠ .expired)
      (activeFrom activation s) days :=
    throughout_of_invariant (fun r d holds ahead => holds.1.contractDay d ahead holds.2) initial meet
  rintro before after rfl r found
  rw [foldl_dailyJob, List.getElem?_map, listed] at found
  cases found
  exact (always before after rfl).2

/-- The sweep and the billing run take the same period as due, the one the pointer was stored for. -/
def DuePeriodsAgree (c : Contract) (index : ℕ) : Prop :=
  let pointer := nextBillingDate c.startDate c.intervalMonths c.billingTiming index
  duePeriodStartFor c.billingTiming pointer c.intervalMonths = (duePeriod c pointer).periodStart ∧
    (duePeriod c pointer).periodStart = (computePeriod c.startDate c.intervalMonths index).periodStart

namespace Schedule
variable {sch : Schedule} {c : Contract} {index : ℕ}

/-- The month in which the period ends has the day on which the period begins. -/
def KeepsDay (sch : Schedule) (index : ℕ) : Prop :=
  (sch.begins index).day ≤ Civil.lengthAt (sch.start.monthIndex + sch.interval * (index + 1 : ℕ))

theorem duePeriodStartFor_dueDay (h : sch.Governs c) (date : FourDigit (sch.dueDay index)) :
    duePeriodStartFor c.billingTiming (iso (sch.dueDay index)) c.intervalMonths = iso (sch.begins index) ↔
      (sch.timing = .arrears → sch.KeepsDay index) := by
  have first : FourDigit (sch.begins index) := fourDigit_of_le (Nat.le_add_right _ _) date
  rw [h.billingTiming, h.intervalMonths]
  unfold dueDay shift at date ⊢
  cases timing : sch.timing with
  | advance =>
    refine iff_of_true rfl fun arrears => ?_
    cases arrears
  | arrears =>
    rw [timing] at date
    have offset : ((sch.interval * (index + 1) : ℕ) : ℤ) - sch.interval = (sch.interval * index : ℕ) := by
      push_cast
      ring
    have back : ((sch.begins (index + 1)).addMonths (-sch.interval) = sch.begins index) ↔ sch.KeepsDay index := by
      have calendar := Civil.addMonths_back_iff sch.start (sch.interval * (index + 1) : ℕ) sch.interval
      rw [offset] at calendar
      unfold KeepsDay
      rw [← Nat.cast_mul]
      exact calendar
    have month : (sch.begins (index + 1)).monthIndex + -(sch.interval : ℤ) = (sch.begins index).monthIndex := by
      rw [monthIndex_begins, monthIndex_begins]
      push_cast
      ring
    have last : FourDigit (sch.begins (index + 1)) := date
    have low := first.monthIndex_low
    have text : duePeriodStartFor .arrears (iso (sch.begins (index + 1))) sch.interval =
        iso ((sch.begins (index + 1)).addMonths (-sch.interval)) := addMonthsClamped_iso last (by omega)
    have returned : FourDigit ((sch.begins (index + 1)).addMonths (-sch.interval)) := by
      have high := first.monthIndex_high
      refine ⟨last.valid.addMonths _, ?_, ?_⟩ <;> rw [Civil.addMonths, month, Civil.year_inMonth] <;> omega
    simp only [text, forall_const]
    rw [← back]
    exact ⟨fun same => iso_injective returned first same, fun same => congrArg iso same⟩

end Schedule

/-- The renewal sweep looks at the period that billing is about to bill, and that is the one the
pointer was stored for, exactly below the runaway guard and, in arrears, where the month the period
ends in has the day the period begins on. -/
theorem duePeriods_agree_iff {sch : Schedule} {c : Contract} (h : sch.Governs c) {index : ℕ}
    (years : WithinYears sch.interval (sch.dueDay index)) :
    DuePeriodsAgree c index ↔ index ≤ sch.cap ∧ (sch.timing = .arrears → sch.KeepsDay index) := by
  have first : FourDigit (sch.begins index) := Schedule.fourDigit_of_le (Nat.le_add_right _ _) years.date
  have billing : (duePeriod c (iso (sch.dueDay index))).periodStart = iso (sch.begins (min index sch.cap)) := by
    rw [Schedule.duePeriod_begins h years.date years le_rfl]
  have recovered : iso (sch.begins (min index sch.cap)) = iso (sch.begins index) ↔ index ≤ sch.cap := by
    constructor
    · intro same
      have dates := iso_injective (Schedule.fourDigit_of_le (Nat.min_le_left _ _) first) first same
      have order : (sch.begins index).rank ≤ (sch.begins (min index sch.cap)).rank := by rw [dates]
      exact (Schedule.begins_le_iff.mp order).trans (Nat.min_le_right _ _)
    · intro below
      rw [Nat.min_eq_left below]
  unfold DuePeriodsAgree
  simp only [Schedule.nextBillingDate_dueDay h, billing, Schedule.computePeriod_begins h, recovered]
  constructor
  · rintro ⟨same, below⟩
    rw [recovered.mpr below] at same
    exact ⟨below, (Schedule.duePeriodStartFor_dueDay h years.date).mp same⟩
  · rintro ⟨below, keeps⟩
    rw [recovered.mpr below]
    exact ⟨(Schedule.duePeriodStartFor_dueDay h years.date).mpr keeps, below⟩

theorem duePeriods_agree_march : DuePeriodsAgree (draftRows .arrears 1 ⟨2026, 3, 15⟩ none none).contract 4 := by
  let sch : Schedule := ⟨⟨2026, 3, 15⟩, 1, .arrears, le_rfl, by decide⟩
  have governs : sch.Governs (draftRows .arrears 1 ⟨2026, 3, 15⟩ none none).contract := ⟨rfl, rfl, rfl⟩
  refine (duePeriods_agree_iff governs (by decide)).mpr ⟨?_, fun _ => ?_⟩
  · decide
  · unfold Schedule.KeepsDay
    decide

/-- In arrears from the last day of January the sweep takes the first period to begin on the 28th. -/
theorem january_sweep_misses : ¬DuePeriodsAgree (draftRows .arrears 1 ⟨2026, 1, 31⟩ none none).contract 0 := by
  rintro ⟨same, -⟩
  exact absurd same (by decide)

/-- A monthly contract from January 2026 that renews for a year at a time. -/
def renewingRows (endDate : Civil) : ContractRows :=
  draftRows .advance 1 ⟨2026, 1, 1⟩ (some endDate) (some 12)

def flatDay (date : Civil) : JobDay := ⟨date, fun _ => flatEnv⟩

theorem activated_renewing (endDate : Civil) : activateContract operator ⟨2026, 1, 1⟩ (renewingRows endDate) =
    .ok (activeFrom ⟨2026, 1, 1⟩ (renewingRows endDate)) := rfl

theorem renewed_never_expires_first_day :
    Throughout dailyJob (fun rows => ∀ r, rows[0]? = some r → r.contract.status ≠ .expired)
      [activeFrom ⟨2026, 1, 1⟩ (renewingRows ⟨2027, 1, 1⟩)] [flatDay ⟨2026, 1, 1⟩] := by
  have years : WithinYears 1 ⟨2026, 1, 1⟩ := by decide
  refine renewed_never_expires rfl le_rfl years years (activated_renewing _) _ 0 rfl _
    (.cons ⟨years, ?_⟩ .nil)
  intro pointer due
  have stored : (activeFrom ⟨2026, 1, 1⟩ (renewingRows ⟨2027, 1, 1⟩)).contract.nextBillingAt =
      some (iso ⟨2026, 1, 1⟩) := by decide
  cases due.stored.symm.trans stored
  unfold AheadInTerm
  decide

/-- Billing February looks ahead to March, where the term ends, and expires the contract before a
renewal sweep ever sees March fall due. -/
theorem renewing_contract_expires :
    activateContract operator ⟨2026, 1, 1⟩ (renewingRows ⟨2026, 3, 1⟩) =
        .ok (activeFrom ⟨2026, 1, 1⟩ (renewingRows ⟨2026, 3, 1⟩)) ∧
      (([flatDay ⟨2026, 1, 1⟩, flatDay ⟨2026, 2, 1⟩].foldl dailyJob
        [activeFrom ⟨2026, 1, 1⟩ (renewingRows ⟨2026, 3, 1⟩)]).map (·.contract.status)) = [.expired] :=
  ⟨rfl, by decide⟩

end RemudaRmm.Billing
