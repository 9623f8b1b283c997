import RemudaRmm.Billing.ContractLifecycle

/-! Recurring lines of an accepted quote become draft contracts (`quoteToContract.ts`, `createContractWithLines`). The
end of the term is computed with rolling months, the billed periods with clamped ones; what is billed depends on where
the two differ. -/
namespace RemudaRmm.Billing
open Foundation List Civil
variable {quote : QuoteForContract} {lines : List QuoteLineForContract} {createdBy : Option ℕ}
    {spec : NewContractSpec} {cadence : Cadence}

inductive Recurrence where
  | oneTime
  | monthly
  | annual
  deriving DecidableEq

structure QuoteForContract where
  (orgId partnerId : ℕ)
  quoteNumber : String
  (currencyCode terms : Option String)

structure QuoteLineForContract where
  recurrence : Recurrence
  customerVisible : Bool
  description : String
  (unitPrice quantity : ℚ)
  taxable : Bool
  (catalogItemId termMonths : Option ℕ)
  deriving DecidableEq

structure NewContractLineSpec where
  lineType : ContractLineType
  description : String
  unitPrice : ℚ
  taxable : Bool
  catalogItemId : Option ℕ
  manualQuantity : Option ℚ
  (siteId sortOrder : Option ℕ)

structure NewContractSpec where
  (orgId partnerId : ℕ)
  name : String
  billingTiming : BillingTiming
  intervalMonths : ℕ
  startDate : Text
  endDate : Option Text
  (currencyCode notes terms : Option String)
  createdBy : Option ℕ
  lines : List NewContractLineSpec

/-- The shape `YYYY-MM-DD`. -/
def isDateText : Text → Bool
  | [a, b, c, d, s, e, f, t, g, h] =>
    ([a, b, c, d, e, f, g, h].all Char.isDigit) && s == '-' && t == '-'
  | _ => false

/-- Month overflow rolls forward: the day of the month is kept and carried into the next month when
the month it lands in is too short. -/
def addMonthsToDate (dateStr : Text) (months : ℕ) : Except String Text :=
  if isDateText dateStr = false then
    .error ("addMonthsToDate: expected YYYY-MM-DD, got \"" ++ String.ofList dateStr ++ "\"")
  else if months < 1 then
    .error ("addMonthsToDate: months must be a positive integer, got " ++ toString months)
  else
    let p := parts dateStr
    let base := dateUTC p.y (p.m - 1) p.d
    .ok (isoDay (Civil.normalize (base.monthIndex + months) base.day))

structure Cadence where
  key : Recurrence
  intervalMonths : ℕ
  label : String

def cadences : List Cadence := [⟨.monthly, 1, "Monthly"⟩, ⟨.annual, 12, "Annual"⟩]

def cadenceGroup (lines : List QuoteLineForContract) (cadence : Cadence) : List QuoteLineForContract :=
  lines.filter fun l => l.recurrence == cadence.key && l.customerVisible

/-- An end date only when the lines of the group agree on a single term. -/
def groupEndDate (startDate : Text) (group : List QuoteLineForContract) : Except String (Option Text) :=
  match (group.filterMap (·.termMonths)).eraseDups with
  | [term] => (addMonthsToDate startDate term).map some
  | _ => .ok none

/-- The line keeps the quoted price: its catalog link is dropped. -/
def lineSpec (l : QuoteLineForContract) (i : ℕ) : NewContractLineSpec where
  lineType := .manual
  description := l.description
  unitPrice := l.unitPrice
  manualQuantity := some l.quantity
  taxable := l.taxable
  catalogItemId := none
  siteId := none
  sortOrder := some i

def cadenceSpec (quote : QuoteForContract) (lines : List QuoteLineForContract) (startDate : Text)
    (createdBy : Option ℕ) (cadence : Cadence) : Except String (Option NewContractSpec) :=
  let group := cadenceGroup lines cadence
  if group.length = 0 then .ok none
  else do
    let endDate ← groupEndDate startDate group
    return some {
      orgId := quote.orgId, partnerId := quote.partnerId,
      name := quote.quoteNumber ++ " — " ++ cadence.label, billingTiming := .advance,
      intervalMonths := cadence.intervalMonths, startDate, endDate,
      currencyCode := some (quote.currencyCode.getD "USD"),
      notes := some ("Auto-created from accepted quote " ++ quote.quoteNumber), terms := quote.terms,
      createdBy, lines := group.mapIdx fun i l => lineSpec l i }

def buildContractSpecsFromQuote (quote : QuoteForContract) (lines : List QuoteLineForContract)
    (startDate : Text) (createdBy : Option ℕ) : Except String (List NewContractSpec) := do
  let specs ← cadences.mapM (cadenceSpec quote lines startDate createdBy)
  return specs.reduceOption

def insertedLine (i : ℕ) (l : NewContractLineSpec) : ContractLine where
  lineType := l.lineType
  description := l.description
  catalogItemId := l.catalogItemId
  unitPrice := l.unitPrice
  manualQuantity := if l.lineType = .manual then some (l.manualQuantity.getD 0) else none
  siteId := if l.lineType = .perDevice then l.siteId else none
  taxable := l.taxable
  sortOrder := l.sortOrder.getD i

/-- A draft with its lines; the columns the insert leaves out take their defaults. -/
def createContractWithLines (spec : NewContractSpec) : ContractRows where
  contract := {
    partnerId := spec.partnerId, orgId := spec.orgId, name := spec.name, status := .draft,
    billingTiming := spec.billingTiming, intervalMonths := spec.intervalMonths,
    startDate := spec.startDate, endDate := spec.endDate, nextBillingAt := none, autoIssue := false,
    autoRenew := false, renewalTermMonths := none, renewalNoticeDays := none, notes := spec.notes,
    terms := spec.terms, currencyCode := spec.currencyCode.getD "USD", createdBy := spec.createdBy }
  lines := spec.lines.mapIdx insertedLine
  periods := []
  invoices := []
  nextInvoiceId := 0
  notices := []

section EndDate
variable {start : Civil}
variable {months interval i : ℕ}

theorem isDateText_iso (h : FourDigit start) : isDateText (iso start) = true := by
  have year := digits_decimal start.year.toNat
  have month := digits_padded 2 start.month
  have day := digits_padded 2 start.day
  rw [h.fmt_eq]
  obtain ⟨a, b, c, d, years⟩ := length_eq_four.mp h.length_year
  obtain ⟨e, f, months⟩ := length_eq_two.mp h.length_month
  obtain ⟨g, i, days⟩ := length_eq_two.mp h.length_day
  rw [years] at year ⊢
  rw [months] at month ⊢
  rw [days] at day ⊢
  simp only [Digits, mem_cons, not_mem_nil, or_false, forall_eq_or_imp, forall_eq] at year month day
  simp only [isDateText, cons_append, nil_append, all_cons, all_nil, year, month, day, beq_self_eq_true, Bool.and_self]

/-- The end of a term of `months` months: the calendar meaning of `addMonthsToDate`. -/
def termEnd (start : Civil) (months : ℕ) : Civil := Civil.normalize (start.monthIndex + months) start.day

theorem addMonthsToDate_iso (h : FourDigit start) (positive : 1 ≤ months) (date : FourDigit (termEnd start months)) :
    addMonthsToDate (iso start) months = .ok (iso (termEnd start months)) := by
  have low := h.low
  have base : dateUTC start.year.toNat (start.month - 1) start.day = start := by
    have index : 12 * fullYear (start.year.toNat : ℤ) + ((start.month : ℤ) - 1) = start.monthIndex := by
      rw [fullYear, if_neg (by omega), Civil.monthIndex]
      omega
    rw [dateUTC, index, normalize_within h.valid.day_pos h.valid.day_le_lengthAt, h.valid.inMonth_self]
  rw [addMonthsToDate, isDateText_iso h, if_neg (by decide), if_neg (by omega)]
  simp only [parts_iso h, base]
  rw [← termEnd, isoDay_eq_iso date]

/-- The periods a term of so many months pays for, the last one begun counted in full. -/
def soldPeriods (interval months : ℕ) : ℕ := (months + (interval - 1)) / interval

/-- One more period when the term is whole periods long and its end date rolled into the next month. -/
def rolledPeriods (start : Civil) (interval months : ℕ) : ℕ :=
  if interval ∣ months ∧ Civil.lengthAt (start.monthIndex + months) < start.day then 1 else 0

theorem lt_soldPeriods_iff (positive : 1 ≤ interval) : i < soldPeriods interval months ↔ interval * i < months := by
  rw [soldPeriods, Nat.lt_div_iff_mul_lt positive, Nat.add_sub_cancel, Nat.mul_comm]

theorem soldPeriods_mul (positive : 1 ≤ interval) (count : ℕ) : soldPeriods interval (interval * count) = count := by
  rw [soldPeriods, Nat.mul_add_div positive, Nat.div_eq_of_lt (by omega), Nat.add_zero]

theorem lt_sold_rolled_iff (positive : 1 ≤ interval) :
    i < soldPeriods interval months + rolledPeriods start interval months ↔
      if Civil.lengthAt (start.monthIndex + months) < start.day then interval * i ≤ months
      else interval * i < months := by
  unfold rolledPeriods
  by_cases rolled : Civil.lengthAt (start.monthIndex + months) < start.day
  · simp only [rolled, and_true, if_true]
    split_ifs with whole
    · obtain ⟨count, rfl⟩ := whole
      rw [soldPeriods_mul positive, Nat.lt_succ_iff, Nat.mul_le_mul_left_iff positive]
    · have apart : interval * i ≠ months := fun same => whole ⟨i, same.symm⟩
      rw [Nat.add_zero, lt_soldPeriods_iff positive]
      omega
  · simp only [rolled, and_false, if_false, Nat.add_zero]
    exact lt_soldPeriods_iff positive

theorem rank_boundary (start : Civil) (interval i : ℕ) :
    (boundary start interval i).rank = 32 * (start.monthIndex + (interval * i : ℕ)) +
      (min start.day (Civil.lengthAt (start.monthIndex + (interval * i : ℕ))) : ℕ) :=
  rank_inMonth _ _

theorem boundary_lt_termEnd_iff (h : start.Valid) (positive : 1 ≤ interval) :
    (boundary start interval i).rank < (termEnd start months).rank ↔
      i < soldPeriods interval months + rolledPeriods start interval months := by
  have low := h.day_pos
  have high := h.day_le_max
  have bounds := lengthAt_bounds (start.monthIndex + (interval * i : ℕ))
  have ends := lengthAt_bounds (start.monthIndex + months)
  rw [lt_sold_rolled_iff positive, rank_boundary, termEnd]
  split_ifs with rolled
  · rw [normalize_overflow rolled high, rank_inMonth]
    omega
  · rw [normalize_within low (not_lt.mp rolled), rank_inMonth]
    rcases Nat.lt_trichotomy (interval * i) months with less | same | more
    · omega
    · rw [same]
      omega
    · omega

theorem fourDigit_termEnd (h : FourDigit start) (room : start.monthIndex + months + 1 < 120000) :
    FourDigit (termEnd start months) := by
  have modern := h.monthIndex_low
  have low := h.valid.day_pos
  have high := h.valid.day_le_max
  unfold termEnd
  by_cases rolled : Civil.lengthAt (start.monthIndex + months) < start.day
  · have next := lengthAt_bounds (start.monthIndex + months + 1)
    have here := lengthAt_bounds (start.monthIndex + months)
    rw [normalize_overflow rolled high]
    refine ⟨valid_inMonth (by omega) (by omega), ?_, ?_⟩ <;> rw [year_inMonth] <;> omega
  · rw [normalize_within low (not_lt.mp rolled)]
    refine ⟨valid_inMonth low (not_lt.mp rolled), ?_, ?_⟩ <;> rw [year_inMonth] <;> omega

end EndDate

theorem mapM_forall₂ {α β ε : Type} {f : α → Except ε β} {l : List α} {bs : List β} (mapped : l.mapM f = .ok bs) :
    List.Forall₂ (fun a b => f a = .ok b) l bs := by
  induction l generalizing bs with
  | nil =>
    cases mapped
    exact .nil
  | cons a l ih =>
    rw [mapM_cons] at mapped
    obtain ⟨b, head, mapped⟩ := except_bind_ok mapped
    obtain ⟨bs, tail, mapped⟩ := except_bind_ok mapped
    cases mapped
    exact .cons head (ih tail)

theorem mapM_mem {α β ε : Type} {f : α → Except ε β} {l : List α} {bs : List β} (mapped : l.mapM f = .ok bs)
    {b : β} (member : b ∈ bs) : ∃ a ∈ l, f a = .ok b := by
  have each := mapM_forall₂ mapped
  clear mapped
  induction each with
  | nil => cases member
  | cons head _ ih =>
    rcases mem_cons.mp member with rfl | later
    · exact ⟨_, mem_cons_self, head⟩
    · obtain ⟨a, found, value⟩ := ih later
      exact ⟨a, mem_cons_of_mem _ found, value⟩

theorem built_cadenceSpec {startDate : Text}
    {specs : List NewContractSpec} (built : buildContractSpecsFromQuote quote lines startDate createdBy = .ok specs)
    (member : spec ∈ specs) :
    ∃ cadence ∈ cadences, cadenceSpec quote lines startDate createdBy cadence = .ok (some spec) := by
  unfold buildContractSpecsFromQuote at built
  obtain ⟨each, mapped, built⟩ := except_bind_ok built
  cases built
  exact mapM_mem mapped (mem_filterMap.mp member |>.elim fun x found => found.2 ▸ found.1)

def AgreedTerm (lines : List QuoteLineForContract) (cadence : Cadence) (months : ℕ) : Prop :=
  ((cadenceGroup lines cadence).filterMap (·.termMonths)).eraseDups = [months]

/-- What a contract built from a quote with one term inherits. -/
structure QuotedSpec (lines : List QuoteLineForContract) (start : Civil) (cadence : Cadence) (months : ℕ)
    (spec : NewContractSpec) : Prop where
  startDate : spec.startDate = iso start
  endDate : spec.endDate = some (iso (termEnd start months))
  intervalMonths : spec.intervalMonths = cadence.intervalMonths
  billingTiming : spec.billingTiming = .advance
  nonempty : spec.lines ≠ []
  fromQuote : ∀ row ∈ spec.lines, ∃ l ∈ lines, ∃ i, row = lineSpec l i

theorem quotedSpec {start : Civil} {months : ℕ}
    (made : cadenceSpec quote lines (iso start) createdBy cadence = .ok (some spec))
    (agreed : AgreedTerm lines cadence months) (positive : 1 ≤ months) (date : FourDigit start)
    (ends : FourDigit (termEnd start months)) : QuotedSpec lines start cadence months spec := by
  have endDate : groupEndDate (iso start) (cadenceGroup lines cadence) = .ok (some (iso (termEnd start months))) := by
    rw [groupEndDate, agreed]
    simp only [addMonthsToDate_iso date positive ends]
    rfl
  unfold cadenceSpec at made
  simp only [endDate] at made
  split at made
  · cases Except.ok.inj made
  next nonempty =>
    cases Except.ok.inj made
    refine ⟨rfl, rfl, rfl, rfl, ?_, ?_⟩
    · intro empty
      exact nonempty (congrArg List.length (mapIdx_eq_nil_iff.mp empty))
    · intro row member
      obtain ⟨i, inRange, same⟩ := mem_mapIdx.mp member
      exact ⟨_, mem_of_mem_filter (getElem_mem inRange), i, same.symm⟩

theorem interval_of_made {startDate : Text}
    (made : cadenceSpec quote lines startDate createdBy cadence = .ok (some spec)) :
    spec.intervalMonths = cadence.intervalMonths := by
  unfold cadenceSpec at made
  simp only at made
  split at made
  · cases Except.ok.inj made
  · obtain ⟨endDate, ended, made⟩ := except_bind_ok made
    cases Except.ok.inj made
    rfl

theorem cadence_of_interval {a b : Cadence} (ha : a ∈ cadences) (hb : b ∈ cadences)
    (same : a.intervalMonths = b.intervalMonths) : a = b := by
  simp only [cadences, mem_cons, not_mem_nil, or_false] at ha hb
  rcases ha with rfl | rfl <;> rcases hb with rfl | rfl
  · rfl
  · cases same
  · cases same
  · rfl

theorem interval_of_cadence (listed : cadence ∈ cadences) :
    1 ≤ cadence.intervalMonths ∧ cadence.intervalMonths ≤ 12 := by
  simp only [cadences, mem_cons, not_mem_nil, or_false] at listed
  rcases listed with rfl | rfl
  · exact ⟨le_rfl, by decide⟩
  · exact ⟨by decide, le_rfl⟩

theorem QuotedSpec.priced {start : Civil} {months : ℕ} (h : QuotedSpec lines start cadence months spec)
    (amounts : ∀ l ∈ lines, 0 ≤ l.quantity ∧ 0 ≤ l.unitPrice) (env : BillingEnv) :
    Priced env (createContractWithLines spec) := by
  intro row member
  obtain ⟨i, inRange, rfl⟩ := mem_mapIdx.mp member
  obtain ⟨l, quoted, j, same⟩ := h.fromQuote _ (getElem_mem inRange)
  obtain ⟨quantity, unitPrice⟩ := amounts l quoted
  rw [same]
  refine ⟨_, if_neg ?_⟩
  rintro (negative | negative)
  · exact absurd quantity (not_le.mpr negative)
  · exact absurd unitPrice (not_le.mpr negative)

/-- The contract is billed for exactly `total` periods: they are the ones that begin before its end
date, and a run of billing calls after its activation on the start date claims them in order, no
others, and all of them once as many calls as there are periods come on or after the last one. -/
structure BilledExactly (spec : NewContractSpec) (actor : ContractActor) (start : Civil) (total : ℕ) : Prop where
  indices : ∃ endDate, spec.endDate = some endDate ∧
    ∀ i, FourDigit (boundary start spec.intervalMonths i) →
      (textLt (computePeriod spec.startDate spec.intervalMonths i).periodStart endDate = true ↔ i < total)
  ledger : ∀ active, activateContract actor start (createContractWithLines spec) = .ok active →
    ∀ calls : List (BillingEnv × Civil), (∀ call ∈ calls, WithinYears spec.intervalMonths call.2) →
      ∃ count ≤ total, (calls.foldl billingStep active).periods.map (·.period) =
          (List.range count).map (fun i => computePeriod spec.startDate spec.intervalMonths i) ∧
        (total ≤ calls.countP (fun call =>
          (boundary start spec.intervalMonths (total - 1)).rank ≤ call.2.rank) → count = total)

section Billed
variable {lines : List QuoteLineForContract} {start : Civil} {cadence : Cadence} {months : ℕ}
  {spec : NewContractSpec}

theorem months_of_le_total {interval j : ℕ} (positive : 1 ≤ interval) (year : interval ≤ 12)
    (within : j ≤ soldPeriods interval months + rolledPeriods start interval months) : interval * j ≤ months + 12 := by
  cases j with
  | zero => exact Nat.zero_le _
  | succ j =>
    have counted := (lt_sold_rolled_iff positive).mp (Nat.lt_of_succ_le within)
    rw [Nat.mul_succ]
    split_ifs at counted <;> omega

theorem textLt_termEnd (date : FourDigit start) {interval i : ℕ} (positive : 1 ≤ interval)
    (ends : FourDigit (termEnd start months)) (begun : FourDigit (boundary start interval i)) :
    textLt (iso (boundary start interval i)) (iso (termEnd start months)) =
      decide (i < soldPeriods interval months + rolledPeriods start interval months) := by
  rw [textLt_iso begun ends, decide_eq_decide]
  exact boundary_lt_termEnd_iff date.valid positive

theorem Schedule.current_start {sch : Schedule} : sch.current sch.start = 0 := by
  have zero : sch.begins 0 = sch.start := boundary_zero sch.years.date.valid _
  refine periodIndexFor_eq sch.positive sch.years sch.years (Nat.zero_le _) nofun fun _ => ?_
  have later : (sch.begins 0).rank < (sch.begins 1).rank := Schedule.begins_lt_iff.mpr Nat.zero_lt_one
  rw [zero] at later
  exact later

theorem QuotedSpec.catchUp {sch : Schedule} (h : QuotedSpec lines sch.start cadence months spec)
    (paced : sch.interval = cadence.intervalMonths) (advance : sch.timing = .advance) (year : sch.interval ≤ 12)
    (positive : 1 ≤ months) (room : sch.start.monthIndex + months + 12 < 120000)
    (amounts : ∀ l ∈ lines, 0 ≤ l.quantity ∧ 0 ≤ l.unitPrice) :
    CatchUp sch (soldPeriods sch.interval months + rolledPeriods sch.start sch.interval months) 0
      (activeFrom sch.start (createContractWithLines spec)) := by
  have governs : sch.Governs (createContractWithLines spec).contract :=
    ⟨h.startDate, h.intervalMonths.trans paced.symm, h.billingTiming.trans advance.symm⟩
  have ends : FourDigit (termEnd sch.start months) := fourDigit_termEnd sch.years.date (by omega)
  have some_sold : 0 < soldPeriods sch.interval months := (lt_soldPeriods_iff sch.positive).mpr (by omega)
  refine ⟨⟨⟨governs.1, governs.2, governs.3⟩, rfl, fun _ => ⟨?_, ?_⟩⟩, Nat.zero_le _, ?_, ?_, ?_, ?_⟩
  · have pointer := Schedule.pointerAsOf_current governs sch.years
    rw [Schedule.current_start] at pointer
    exact congrArg some pointer
  · have date : FourDigit (sch.dueDay (sch.current sch.start)) := Schedule.fourDigit_dueDay_current sch.years
    rw [Schedule.current_start] at date
    exact date
  · rw [if_pos (Nat.add_pos_left some_sold _)]
    rfl
  · intro j within
    have months_le := months_of_le_total sch.positive year within
    have begun : FourDigit (sch.begins j) := Schedule.fourDigit_begins (by
      have cast : (sch.interval : ℤ) * j ≤ months + 12 := by exact_mod_cast months_le
      omega)
    have text := textLt_termEnd sch.years.date sch.positive ends begun
    have stored : (activeFrom sch.start (createContractWithLines spec)).contract.endDate =
        some (iso (termEnd sch.start months)) := h.endDate
    rw [stored, isExpired, textLe]
    refine (congrArg Bool.not text).trans ?_
    rw [← decide_not, decide_eq_decide, not_lt]
  · intro empty
    exact h.nonempty (mapIdx_eq_nil_iff.mp empty)
  · exact h.priced amounts

end Billed

/-- A term sold on a quote is billed for the periods it pays for, and for one more when the term is
whole periods long and the start date has no counterpart in the month where it ends. -/
theorem quoted_term_billed {quote : QuoteForContract} {lines : List QuoteLineForContract} {start : Civil}
    {createdBy : Option ℕ} {specs : List NewContractSpec} {spec : NewContractSpec} {cadence : Cadence}
    {months : ℕ} (built : buildContractSpecsFromQuote quote lines (iso start) createdBy = .ok specs)
    (member : spec ∈ specs) (listed : cadence ∈ cadences)
    (paced : spec.intervalMonths = cadence.intervalMonths) (agreed : AgreedTerm lines cadence months)
    (positive : 1 ≤ months) (amounts : ∀ l ∈ lines, 0 ≤ l.quantity ∧ 0 ≤ l.unitPrice)
    (date : FourDigit start) (room : start.monthIndex + months + 12 < 120000)
    (guarded : months ≤ runawayGuard) (actor : ContractActor) : BilledExactly spec actor start
      (soldPeriods cadence.intervalMonths months + rolledPeriods start cadence.intervalMonths months) := by
  obtain ⟨one, year⟩ := interval_of_cadence listed
  have ends : FourDigit (termEnd start months) := fourDigit_termEnd date (by omega)
  obtain ⟨source, found, made⟩ := built_cadenceSpec built member
  have quoted : QuotedSpec lines start cadence months spec := by
    obtain rfl := cadence_of_interval found listed ((interval_of_made made).symm.trans paced)
    exact quotedSpec made agreed positive date ends
  let sch : Schedule := ⟨start, cadence.intervalMonths, .advance, one, date, by omega⟩
  refine ⟨⟨_, quoted.endDate, ?_⟩, ?_⟩
  · intro i begun
    rw [quoted.startDate, computePeriod_eq date]
    rw [paced] at begun ⊢
    rw [textLt_termEnd date one ends begun, decide_eq_true_eq]
  · intro active activated calls years
    obtain ⟨-, rfl⟩ := activateContract_ok activated
    rw [paced] at years ⊢
    have begun : CatchUp sch _ 0 _ := quoted.catchUp rfl rfl year positive room amounts
    have capped : soldPeriods sch.interval months + rolledPeriods start sch.interval months ≤ sch.cap + 1 := by
      by_contra excess
      have counted := (lt_sold_rolled_iff one).mp (not_le.mp excess)
      have scaled := Nat.le_mul_of_pos_left (sch.cap + 1) one
      have cap : sch.cap = runawayGuard + 1 := rfl
      split_ifs at counted <;> omega
    obtain ⟨count, final, counted⟩ := begun.run capped calls years
    refine ⟨count, final.bound, ?_, fun late => ?_⟩
    · have ledger := final.row.ledger
      simp only [Nat.zero_add] at ledger
      rw [quoted.startDate]
      exact ledger
    · have reached := counted.trans' (le_min le_rfl ((Nat.zero_add _).symm ▸ late))
      exact le_antisymm final.bound reached

def supportQuote : QuoteForContract := ⟨1, 1, "Q-1001", none, none⟩

def monthlyLine (months : ℕ) : QuoteLineForContract :=
  ⟨.monthly, true, "Managed services", 100, 1, false, none, some months⟩

theorem quoted_term_billed_june :
    ∃ spec, buildContractSpecsFromQuote supportQuote [monthlyLine 2] (iso ⟨2026, 6, 15⟩) none = .ok [spec] ∧
      BilledExactly spec operator ⟨2026, 6, 15⟩ (soldPeriods 1 2 + rolledPeriods ⟨2026, 6, 15⟩ 1 2) := by
  have built : buildContractSpecsFromQuote supportQuote [monthlyLine 2] (iso ⟨2026, 6, 15⟩) none = .ok [_] := rfl
  have agreed : AgreedTerm [monthlyLine 2] ⟨.monthly, 1, "Monthly"⟩ 2 := rfl
  refine ⟨_, built, quoted_term_billed built (mem_singleton.mpr rfl) mem_cons_self rfl agreed
    (by decide) ?_ (by decide) (by decide) (by decide) operator⟩
  intro l member
  rw [mem_singleton.mp member]
  exact ⟨by decide, by decide⟩

/-- One month sold on the last day of January ends on the third of March, after the period of
February has begun. -/
theorem january_term_billed_twice :
    ∃ spec, buildContractSpecsFromQuote supportQuote [monthlyLine 1] (iso ⟨2026, 1, 31⟩) none = .ok [spec] ∧
      ¬ BilledExactly spec operator ⟨2026, 1, 31⟩ (soldPeriods 1 1) := by
  refine ⟨_, rfl, fun exactly => ?_⟩
  obtain ⟨endDate, stored, counted⟩ := exactly.indices
  cases stored
  have second := (counted 1 (by decide)).mp (by decide)
  exact absurd second (by decide)

end RemudaRmm.Billing
