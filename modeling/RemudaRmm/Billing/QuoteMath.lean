import Mathlib.Data.List.ReduceOption
import RemudaRmm.Billing.InvoiceStatements

/-! Totals of a quote (`quoteMath.ts`), and what accepting the quote bills: its one-time lines on an
invoice, its recurring lines on one contract for each cadence. -/
namespace RemudaRmm.Billing
open Foundation List Option
variable {quote : QuoteForContract} {lines : List QuoteLineForContract} {startDate : Text} {createdBy : Option ℕ}
    {cadence : Cadence} {specs : List NewContractSpec}

structure QuoteLineForMath where
  (quantity unitPrice : ℚ)
  (taxable customerVisible : Bool)
  recurrence : Recurrence

structure QuoteTotals where
  (subtotal taxTotal total oneTimeTotal monthlyRecurringTotal annualRecurringTotal : ℤ)
  dueOnAcceptanceTotal : ℤ

structure QuoteSums where
  (oneTime monthly annual taxableBasis oneTimeTaxableBasis : ℤ)

def QuoteLineForMath.cents (l : QuoteLineForMath) : ℤ := computeLineTotal l.quantity l.unitPrice

def QuoteSums.byRecurrence (s : QuoteSums) (lineCents : ℤ) : Recurrence → QuoteSums
  | .monthly => { s with monthly := s.monthly + lineCents }
  | .annual => { s with annual := s.annual + lineCents }
  | .oneTime => { s with oneTime := s.oneTime + lineCents }

def QuoteSums.taxed (s : QuoteSums) (lineCents : ℤ) (recurrence : Recurrence) : QuoteSums :=
  let basis := { s with taxableBasis := s.taxableBasis + lineCents }
  if recurrence = .oneTime then { basis with oneTimeTaxableBasis := basis.oneTimeTaxableBasis + lineCents } else basis

def QuoteSums.addLine (s : QuoteSums) (l : QuoteLineForMath) : QuoteSums :=
  if l.customerVisible = false then s
  else
    let counted := s.byRecurrence l.cents l.recurrence
    if l.taxable then counted.taxed l.cents l.recurrence else counted

def quoteSums (lines : List QuoteLineForMath) : QuoteSums := lines.foldl QuoteSums.addLine ⟨0, 0, 0, 0, 0⟩

def computeQuoteTotals (lines : List QuoteLineForMath) (taxRate : Option ℚ) : QuoteTotals :=
  let s := quoteSums lines
  let subtotal := s.oneTime + s.monthly + s.annual
  let rate := taxRate.getD 0
  let taxCents := roundHalfUp (s.taxableBasis * rate)
  let oneTimeTaxCents := roundHalfUp (s.oneTimeTaxableBasis * rate)
  { subtotal
    taxTotal := taxCents
    total := subtotal + taxCents
    oneTimeTotal := s.oneTime
    monthlyRecurringTotal := s.monthly
    annualRecurringTotal := s.annual
    dueOnAcceptanceTotal := s.oneTime + oneTimeTaxCents }

def QuoteLineForContract.forMath (l : QuoteLineForContract) : QuoteLineForMath :=
  ⟨l.quantity, l.unitPrice, l.taxable, l.customerVisible, l.recurrence⟩

def QuoteLineForMath.counts (recurrence : Recurrence) (l : QuoteLineForMath) : Bool :=
  l.recurrence = recurrence && l.customerVisible

def centsOf (p : QuoteLineForMath → Bool) (lines : List QuoteLineForMath) : ℤ :=
  ((lines.filter p).map QuoteLineForMath.cents).sum

theorem centsOf_cons (p : QuoteLineForMath → Bool) (l : QuoteLineForMath) (lines : List QuoteLineForMath) :
    centsOf p (l :: lines) = (if p l then l.cents else 0) + centsOf p lines := by
  unfold centsOf
  by_cases kept : p l = true <;> simp [kept]

theorem addLine_eq (s : QuoteSums) (l : QuoteLineForMath) :
    s.addLine l = {
      oneTime := s.oneTime + if l.counts .oneTime then l.cents else 0
      monthly := s.monthly + if l.counts .monthly then l.cents else 0
      annual := s.annual + if l.counts .annual then l.cents else 0
      taxableBasis := s.taxableBasis + if l.customerVisible && l.taxable then l.cents else 0
      oneTimeTaxableBasis := s.oneTimeTaxableBasis + if l.counts .oneTime && l.taxable then l.cents else 0 } := by
  obtain ⟨quantity, unitPrice, taxable, customerVisible, recurrence⟩ := l
  cases recurrence <;> cases customerVisible <;> cases taxable <;>
    simp [QuoteSums.addLine, QuoteSums.byRecurrence, QuoteSums.taxed, QuoteLineForMath.counts]

theorem foldl_addLine (lines : List QuoteLineForMath) (s : QuoteSums) :
    lines.foldl QuoteSums.addLine s = {
      oneTime := s.oneTime + centsOf (·.counts .oneTime) lines
      monthly := s.monthly + centsOf (·.counts .monthly) lines
      annual := s.annual + centsOf (·.counts .annual) lines
      taxableBasis := s.taxableBasis + centsOf (fun l => l.customerVisible && l.taxable) lines
      oneTimeTaxableBasis := s.oneTimeTaxableBasis + centsOf (fun l => l.counts .oneTime && l.taxable) lines } := by
  induction lines generalizing s with
  | nil => simp [centsOf]
  | cons l lines ih =>
    rw [foldl_cons, ih, addLine_eq]
    simp only [centsOf_cons, add_assoc]

theorem quotedTotals_eq (quote : QuoteRow) :
    (quotedTotals quote).total =
      (computeQuoteTotals (quote.lines.map QuoteLineForContract.forMath) quote.taxRate).dueOnAcceptanceTotal := by
  have subtotal : ∀ lines : List QuoteLineForContract,
      ((oneTime lines).map fun l => computeLineTotal l.quantity l.unitPrice).sum =
        centsOf (·.counts .oneTime) (lines.map QuoteLineForContract.forMath) := by
    intro lines
    rw [centsOf, List.filter_map, List.map_map]
    rfl
  have basis : ∀ lines : List QuoteLineForContract,
      (((oneTime lines).filter (·.taxable)).map fun l => computeLineTotal l.quantity l.unitPrice).sum =
        centsOf (fun l => l.counts .oneTime && l.taxable) (lines.map QuoteLineForContract.forMath) := by
    intro lines
    rw [centsOf, List.filter_map, List.map_map, oneTime, List.filter_filter]
    congr 3
    funext l
    exact Bool.and_comm _ _
  simp only [computeQuoteTotals, quoteSums, foldl_addLine, zero_add, ← subtotal, ← basis]
  simp [quotedTotals, computeInvoiceTotals, List.filter_map, List.map_map, Function.comp_def]

structure BilledLine where
  description : String
  quantity : Option ℚ
  unitPrice : ℚ
  taxable : Bool

def QuoteLineForContract.billed (l : QuoteLineForContract) : BilledLine :=
  ⟨l.description, some l.quantity, l.unitPrice, l.taxable⟩

def SourcedLine.billed (l : SourcedLine) : BilledLine := ⟨l.description, some l.quantity, l.unitPrice, l.taxable⟩

def NewContractLineSpec.billed (l : NewContractLineSpec) : BilledLine :=
  ⟨l.description, l.manualQuantity, l.unitPrice, l.taxable⟩

/-- The lines the loop of `acceptQuote` puts on the invoice. -/
def acceptedLines (quote : QuoteRow) : List SourcedLine := (oneTime quote.lines).mapIdx fun i l => convertedLine l i

/-- The visible lines are dealt out to the invoice and the contracts, each to one of them, in the
order of the quote and with what was agreed. -/
def BilledOnce (lines : List QuoteLineForContract) (invoice : List SourcedLine) (specs : List NewContractSpec) : Prop :=
  ∃ (invoiced : List QuoteLineForContract) (contracted : List (List QuoteLineForContract)),
    (invoiced ++ contracted.flatten).Perm (lines.filter (·.customerVisible)) ∧
      (∀ group ∈ invoiced :: contracted, group.Sublist lines) ∧
      invoice.map SourcedLine.billed = invoiced.map QuoteLineForContract.billed ∧
      specs.map (fun spec => spec.lines.map NewContractLineSpec.billed) =
        contracted.map fun group => group.map QuoteLineForContract.billed

structure AcceptanceBilled (quote : QuoteRow) (invoice : List SourcedLine) (total : ℤ)
    (specs : List NewContractSpec) : Prop where
  once : BilledOnce quote.lines invoice specs
  advertised : total =
    (computeQuoteTotals (quote.lines.map QuoteLineForContract.forMath) quote.taxRate).dueOnAcceptanceTotal
  subtotal : ∀ totals, totals = computeQuoteTotals (quote.lines.map QuoteLineForContract.forMath) quote.taxRate →
    totals.subtotal = totals.oneTimeTotal + totals.monthlyRecurringTotal + totals.annualRecurringTotal
  endDates : ∀ spec ∈ specs, ∀ cadence ∈ cadences, spec.intervalMonths = cadence.intervalMonths →
    spec.endDate ≠ none → ∃ months, ∀ l ∈ cadenceGroup quote.lines cadence, l.termMonths = some months

/-- Lines without a term do not stand beside lines that all have the same one. -/
def TermsUnmixed (group : List QuoteLineForContract) : Prop :=
  ∀ months, (∃ l ∈ group, l.termMonths = some months) →
    (∀ l ∈ group, l.termMonths = none ∨ l.termMonths = some months) → ∀ l ∈ group, l.termMonths ≠ none

theorem cadenceSpec_ok {made : Option NewContractSpec}
    (built : cadenceSpec quote lines startDate createdBy cadence = .ok made) :
    (cadenceGroup lines cadence = [] ∧ made = none) ∨
      (cadenceGroup lines cadence ≠ [] ∧ ∃ spec endDate, made = some spec ∧ spec.endDate = endDate ∧
        groupEndDate startDate (cadenceGroup lines cadence) = .ok endDate ∧
        spec.intervalMonths = cadence.intervalMonths ∧
        spec.lines = (cadenceGroup lines cadence).mapIdx fun i l => lineSpec l i) := by
  unfold cadenceSpec at built
  simp only at built
  split at built
  next empty => exact .inl ⟨length_eq_zero_iff.mp empty, (Except.ok.inj built).symm⟩
  next nonempty =>
    cases ended : groupEndDate startDate (cadenceGroup lines cadence) with
    | error e =>
      rw [ended] at built
      cases built
    | ok endDate =>
      rw [ended] at built
      cases built
      exact .inr ⟨fun empty => nonempty (congrArg List.length empty), _, _, rfl, rfl, rfl, rfl, rfl⟩

theorem buildContractSpecsFromQuote_ok
    (built : buildContractSpecsFromQuote quote lines startDate createdBy = .ok specs) :
    ∃ made : List (Option NewContractSpec), specs = made.reduceOption ∧
      List.Forall₂ (fun cadence spec => cadenceSpec quote lines startDate createdBy cadence = .ok spec) cadences made := by
  unfold buildContractSpecsFromQuote at built
  obtain ⟨made, mapped, built⟩ := except_bind_ok built
  exact ⟨made, (Except.ok.inj built).symm, mapM_forall₂ mapped⟩

theorem map_mapIdx_eq {α β γ : Type} {f : ℕ → α → β} {g : β → γ} {h : α → γ} (same : ∀ i a, g (f i a) = h a)
    (l : List α) : (l.mapIdx f).map g = l.map h := by
  apply ext_getElem?
  intro i
  rw [getElem?_map, getElem?_mapIdx, Option.map_map, getElem?_map]
  congr 1
  funext a
  exact same i a

theorem made_lines {listed : List Cadence} {made : List (Option NewContractSpec)}
    (each : List.Forall₂ (fun cadence spec => cadenceSpec quote lines startDate createdBy cadence = .ok spec)
      listed made) :
    made.reduceOption.map (fun spec => spec.lines.map NewContractLineSpec.billed) =
      ((listed.map (cadenceGroup lines)).filter (· ≠ [])).map fun group =>
        group.map QuoteLineForContract.billed := by
  induction each with
  | nil => rfl
  | cons built _ ih =>
    rcases cadenceSpec_ok built with ⟨empty, rfl⟩ | ⟨nonempty, spec, endDate, rfl, -, -, -, copied⟩
    · rw [reduceOption_cons_of_none, map_cons, filter_cons_of_neg (by simp [empty]), ih]
    · rw [reduceOption_cons_of_some, map_cons, map_cons, filter_cons_of_pos (by simp [nonempty]), map_cons, ih, copied]
      exact congrArg (· :: _) (map_mapIdx_eq (by intro i l; rfl) _)

theorem visible_perm (lines : List QuoteLineForContract) :
    (oneTime lines ++ ((cadences.map (cadenceGroup lines)).filter (· ≠ [])).flatten).Perm
      (lines.filter (·.customerVisible)) := by
  rw [flatten_filter_ne_nil]
  simp only [cadences, map_cons, map_nil, flatten_cons, flatten_nil, append_nil]
  induction lines with
  | nil => exact .nil
  | cons l lines ih =>
    cases visible : l.customerVisible with
    | false => simpa [oneTime, cadenceGroup, visible] using ih
    | true =>
      rw [filter_cons_of_pos visible]
      cases kind : l.recurrence with
      | oneTime => simpa [oneTime, cadenceGroup, visible, kind] using ih
      | monthly =>
        refine List.Perm.trans ?_ (ih.cons l)
        simp [oneTime, cadenceGroup, visible, kind]
      | annual =>
        refine List.Perm.trans ?_ (ih.cons l)
        simp only [oneTime, cadenceGroup, visible, kind, ← append_assoc, filter_cons]
        exact perm_middle

theorem billedOnce {row : QuoteRow}
    (built : buildContractSpecsFromQuote quote row.lines startDate createdBy = .ok specs) :
    BilledOnce row.lines (acceptedLines row) specs := by
  obtain ⟨made, rfl, each⟩ := buildContractSpecsFromQuote_ok built
  refine ⟨oneTime row.lines, (cadences.map (cadenceGroup row.lines)).filter (· ≠ []), visible_perm row.lines, ?_, ?_,
    made_lines each⟩
  · intro group member
    rcases mem_cons.mp member with rfl | later
    · exact filter_sublist
    · obtain ⟨cadence, -, rfl⟩ := List.mem_map.mp (mem_of_mem_filter later)
      exact filter_sublist
  · rw [acceptedLines]
    exact map_mapIdx_eq (by intro i l; rfl) _

theorem eraseDups_eq_singleton_iff {α : Type} [DecidableEq α] {l : List α} {a : α} :
    l.eraseDups = [a] ↔ a ∈ l ∧ ∀ b ∈ l, b = a := by
  constructor
  · intro single
    have members : ∀ b, b ∈ l ↔ b = a := by
      intro b
      rw [← mem_eraseDups, single, mem_singleton]
    exact ⟨(members a).mpr rfl, fun b member => (members b).mp member⟩
  · rintro ⟨member, same⟩
    cases l with
    | nil => cases member
    | cons b l =>
      obtain rfl := same b mem_cons_self
      have none_left : l.filter (fun c => !c == b) = [] := by
        apply filter_eq_nil_iff.mpr
        intro c later
        simp [same c (mem_cons_of_mem b later)]
      rw [eraseDups_cons, none_left]
      rfl

theorem agreedTerm_iff {months : ℕ} :
    AgreedTerm lines cadence months ↔ (∃ l ∈ cadenceGroup lines cadence, l.termMonths = some months) ∧
      ∀ l ∈ cadenceGroup lines cadence, l.termMonths = none ∨ l.termMonths = some months := by
  rw [AgreedTerm, eraseDups_eq_singleton_iff]
  simp only [mem_filterMap]
  apply and_congr_right
  intro _
  constructor
  · intro same l member
    cases term : l.termMonths with
    | none => exact .inl rfl
    | some other => rw [same other ⟨l, member, term⟩]; exact .inr rfl
  · rintro each other ⟨l, member, term⟩
    rcases each l member with absent | agreed
    · rw [term] at absent
      cases absent
    · exact some.inj (term.symm.trans agreed)

theorem groupEndDate_ne_none_iff {endDate : Option Text}
    (ended : groupEndDate startDate (cadenceGroup lines cadence) = .ok endDate) :
    endDate ≠ none ↔ ∃ months, AgreedTerm lines cadence months := by
  unfold groupEndDate at ended
  unfold AgreedTerm
  split at ended
  next term single =>
    rw [single]
    refine iff_of_true ?_ ⟨term, rfl⟩
    obtain ⟨text, added, ended⟩ := except_bind_ok ended
    rw [← Except.ok.inj ended]
    exact some_ne_none text
  next several =>
    rw [← Except.ok.inj ended]
    exact iff_of_false (fun set => set rfl) fun ⟨months, single⟩ => several months single

theorem specOf_cadence {listed : List Cadence} {made : List (Option NewContractSpec)}
    (each : List.Forall₂ (fun cadence spec => cadenceSpec quote lines startDate createdBy cadence = .ok spec)
      listed made) (member : cadence ∈ listed) :
    ∃ spec ∈ made, cadenceSpec quote lines startDate createdBy cadence = .ok spec := by
  induction each with
  | nil => cases member
  | cons built _ ih =>
    rcases mem_cons.mp member with rfl | later
    · exact ⟨_, mem_cons_self, built⟩
    · obtain ⟨spec, found, value⟩ := ih later
      exact ⟨spec, mem_cons_of_mem _ found, value⟩

theorem built_endDate_iff (built : buildContractSpecsFromQuote quote lines startDate createdBy = .ok specs)
    (listed : cadence ∈ cadences) :
    (∃ spec ∈ specs, spec.intervalMonths = cadence.intervalMonths ∧ spec.endDate ≠ none) ↔
      ∃ months, AgreedTerm lines cadence months := by
  constructor
  · rintro ⟨spec, member, paced, set⟩
    obtain ⟨source, found, made⟩ := built_cadenceSpec built member
    rcases cadenceSpec_ok made with ⟨-, absent⟩ | ⟨-, _, endDate, same, rfl, ended, interval, -⟩
    · cases absent
    · cases same
      obtain rfl := cadence_of_interval found listed (interval.symm.trans paced)
      exact (groupEndDate_ne_none_iff ended).mp set
  · rintro ⟨months, agreed⟩
    obtain ⟨made, rfl, each⟩ := buildContractSpecsFromQuote_ok built
    obtain ⟨found, member, value⟩ := specOf_cadence each listed
    rcases cadenceSpec_ok value with ⟨empty, -⟩ | ⟨-, spec, endDate, rfl, rfl, ended, interval, -⟩
    · obtain ⟨⟨l, listed, -⟩, -⟩ := agreedTerm_iff.mp agreed
      rw [empty] at listed
      cases listed
    · exact ⟨spec, reduceOption_mem_iff.mpr member, interval, (groupEndDate_ne_none_iff ended).mpr ⟨months, agreed⟩⟩

theorem addMonthsToDate_ok (date : isDateText startDate = true) {months : ℕ} (positive : 1 ≤ months) :
    ∃ text, addMonthsToDate startDate months = .ok text := by
  rw [addMonthsToDate, if_neg (by simp [date]), if_neg (by omega)]
  exact ⟨_, rfl⟩

theorem cadenceSpec_returns (date : isDateText startDate = true)
    (positive : ∀ l ∈ lines, ∀ months, l.termMonths = some months → 1 ≤ months) (quote : QuoteForContract)
    (createdBy : Option ℕ) (cadence : Cadence) :
    ∃ made, cadenceSpec quote lines startDate createdBy cadence = .ok made := by
  have ended : ∃ endDate, groupEndDate startDate (cadenceGroup lines cadence) = .ok endDate := by
    unfold groupEndDate
    split
    next term single =>
      obtain ⟨⟨l, member, carried⟩, -⟩ := agreedTerm_iff.mp (show AgreedTerm lines cadence term from single)
      obtain ⟨text, added⟩ := addMonthsToDate_ok date (positive l (mem_of_mem_filter member) term carried)
      rw [added]
      exact ⟨_, rfl⟩
    next => exact ⟨_, rfl⟩
  obtain ⟨endDate, ended⟩ := ended
  unfold cadenceSpec
  simp only [ended]
  split
  next => exact ⟨_, rfl⟩
  next => exact ⟨_, rfl⟩

theorem buildContractSpecsFromQuote_returns (date : isDateText startDate = true)
    (positive : ∀ l ∈ lines, ∀ months, l.termMonths = some months → 1 ≤ months) (quote : QuoteForContract)
    (createdBy : Option ℕ) : ∃ specs, buildContractSpecsFromQuote quote lines startDate createdBy = .ok specs := by
  obtain ⟨monthly, first⟩ := cadenceSpec_returns date positive quote createdBy ⟨.monthly, 1, "Monthly"⟩
  obtain ⟨annual, second⟩ := cadenceSpec_returns date positive quote createdBy ⟨.annual, 12, "Annual"⟩
  refine ⟨[monthly, annual].reduceOption, ?_⟩
  simp only [buildContractSpecsFromQuote, cadences, mapM_cons, mapM_nil, first, second]
  rfl

section Statements
variable {cfg : PartnerSettings} {k : ℕ} {actorUserId : Option ℕ} {t : ℕ} {quote : QuoteRow}

/-- The next statement of an acceptance that no other call disturbs. -/
def acceptStatement (cfg : PartnerSettings) (k : ℕ) (actorUserId : Option ℕ) (t : ℕ) (s : BillingDb × BillingStage)
    (now : Instant) : Option (BillingDb × BillingStage) := acceptQuoteStep cfg k actorUserId t now s.1 s.2

/-- The invoice of the acceptance is complete: its lines and its totals. -/
def InvoiceWritten (t : ℕ) (quote : QuoteRow) (db : BillingDb) : Prop :=
  ∃ row, (db.invoices (.converted t)).read t = some row ∧ row.lines = acceptedLines quote ∧
    row.totals = quotedTotals quote

def AcceptedSoFar (k : ℕ) (actorUserId : Option ℕ) (t : ℕ) (quote : QuoteRow) : BillingDb × BillingStage → Prop
  | (db, .start) | (db, .locked) | (db, .recorded _) => (db.quotes k).read t = quote
  | (db, .lining _ rest) => (db.quotes k).read t = quote ∧
      ∃ done, oneTime quote.lines = done ++ rest ∧ ∃ row, (db.invoices (.converted t)).read t = some row ∧
        row.lines = done.mapIdx fun i l => convertedLine l i
  | (db, .allocated _ _ _) => (db.quotes k).read t = quote ∧
      ∃ row, (db.invoices (.converted t)).read t = some row ∧ row.lines = acceptedLines quote
  | (db, .invoiced _) => (db.quotes k).read t = quote ∧ InvoiceWritten t quote db
  | (db, .converted) => ((db.quotes k).read t).forContract k = quote.forContract k ∧
      ((db.quotes k).read t).lines = quote.lines ∧ InvoiceWritten t quote db
  | (db, .committing) => InvoiceWritten t quote db ∧ ∃ startDate specs,
      buildContractSpecsFromQuote (quote.forContract k) quote.lines startDate actorUserId = .ok specs ∧
        (db.contracts t).read t = some ⟨k, specs.map createContractWithLines⟩
  | _ => True

variable {db next : BillingDb}

theorem updatedInvoice_read {id : InvoiceId} {f : InvoiceRow → InvoiceRow} {row : InvoiceRow}
    (updated : UpdatedInvoice t db id f next) (present : (db.invoices id).read t = some row) :
    (next.invoices id).read t = some (f row) ∧ next.quotes = db.quotes := by
  rcases updated.2 with ⟨seen, read, rfl⟩ | ⟨absent, -⟩
  · cases present.symm.trans read
    exact ⟨by rw [BillingDb.invoices_setInvoice_self, Row.read_write], rfl⟩
  · rw [present] at absent
    cases absent

theorem acceptedSoFar_lining {stage : BillingStage} {acceptedAt now : Instant}
    {rest : List QuoteLineForContract} (sofar : AcceptedSoFar k actorUserId t quote (db, .lining acceptedAt rest))
    (stepped : acceptQuoteStep cfg k actorUserId t now db (.lining acceptedAt rest) = some (next, stage)) :
    AcceptedSoFar k actorUserId t quote (next, stage) := by
  obtain ⟨read, done, split, row, present, lines⟩ := sofar
  cases rest with
  | cons l rest =>
    obtain ⟨updated, rfl⟩ := updateInvoice_cases stepped
    obtain ⟨now_present, same⟩ := updatedInvoice_read updated present
    refine ⟨same ▸ read, done ++ [l], by rw [split, append_assoc]; rfl, _, now_present, ?_⟩
    simp [lines]
  | nil =>
    have complete : row.lines = acceptedLines quote := by
      rw [lines, acceptedLines, split, append_nil]
    simp only [acceptQuoteStep, read] at stepped
    split at stepped
    · obtain ⟨updated, rfl⟩ := updateInvoice_cases stepped
      obtain ⟨now_present, same⟩ := updatedInvoice_read updated present
      exact ⟨same ▸ read, _, now_present, complete, rfl⟩
    · obtain ⟨-, rfl, rfl⟩ := allocateCounter_cases stepped
      exact ⟨read, row, present, complete⟩

theorem acceptedSoFar_step {s next : BillingDb × BillingStage} {now : Instant}
    (sofar : AcceptedSoFar k actorUserId t quote s) (stepped : acceptStatement cfg k actorUserId t s now = some next) :
    AcceptedSoFar k actorUserId t quote next := by
  obtain ⟨db, stage⟩ := s
  obtain ⟨db', stage'⟩ := next
  cases stage with
  | start =>
    simp only [acceptStatement, acceptQuoteStep] at stepped
    split_ifs at stepped with free refused expired
    · cases stepped
      trivial
    · cases stepped
      trivial
    · cases stepped
      show ((db.setQuote t k _).quotes k).read t = quote
      rw [BillingDb.quotes_setQuote_self, Row.read_write]
      exact sofar
  | locked =>
    cases stepped
    exact sofar
  | recorded acceptedAt =>
    cases stepped
    have read : (db.quotes k).read t = quote := sofar
    refine ⟨read, [], by rw [read]; rfl, convertedDraft ((db.quotes k).read t), ?_, rfl⟩
    rw [BillingDb.invoices_setInvoice_self, Row.read_write]
  | lining acceptedAt rest => exact acceptedSoFar_lining sofar stepped
  | allocated acceptedAt year counter =>
    obtain ⟨read, row, present, complete⟩ := sofar
    obtain ⟨updated, rfl⟩ := updateInvoice_cases stepped
    obtain ⟨now_present, same⟩ := updatedInvoice_read updated present
    exact ⟨same ▸ read, _, now_present, complete, by rw [read]⟩
  | invoiced acceptedAt =>
    obtain ⟨read, written⟩ := sofar
    simp only [acceptStatement, acceptQuoteStep] at stepped
    obtain ⟨-, rfl, rfl⟩ := updateQuote_cases stepped
    refine ⟨?_, ?_, written⟩
    · rw [BillingDb.quotes_setQuote_self, Row.read_write, read]
      rfl
    · rw [BillingDb.quotes_setQuote_self, Row.read_write, read]
  | converted =>
    obtain ⟨columns, lines, written⟩ := sofar
    simp only [acceptStatement, acceptQuoteStep, columns, lines] at stepped
    split at stepped
    · cases stepped
      trivial
    next specs built =>
      cases stepped
      refine ⟨written, _, specs, built, ?_⟩
      simp only [Table.write_self, Row.read_write]
  | _ => cases stepped

theorem acceptQuote_writes {nows : List Instant}
    (accepted : run (acceptStatement cfg k actorUserId t) (db, .start) nows = some (next, .committing)) :
    InvoiceWritten t ((db.quotes k).read t) next ∧ ∃ startDate specs,
      buildContractSpecsFromQuote (((db.quotes k).read t).forContract k) ((db.quotes k).read t).lines startDate
          actorUserId = .ok specs ∧ (next.contracts t).read t = some ⟨k, specs.map createContractWithLines⟩ := by
  have begun : AcceptedSoFar k actorUserId t ((db.quotes k).read t) (db, .start) := rfl
  exact run_invariant (C := fun _ _ => True) (fun _ _ _ sofar _ stepped => acceptedSoFar_step sofar stepped) begun
    (Meets.of_invariant (fun _ => True) (fun _ _ _ _ _ _ => trivial) (fun _ _ _ _ => trivial) trivial) accepted

end Statements

/-- Accepting a quote bills each visible line once, at the advertised amount; the end dates are the
agreed ones exactly when no group mixes lines without a term with lines of a single term. The
contracts are built for every well-formed start date and positive terms. -/
theorem acceptance_billed_iff (quote : QuoteRow) (k : ℕ) (startDate : Text) (createdBy : Option ℕ) :
    (isDateText startDate = true → (∀ l ∈ quote.lines, ∀ months, l.termMonths = some months → 1 ≤ months) →
      ∃ specs, buildContractSpecsFromQuote (quote.forContract k) quote.lines startDate createdBy = .ok specs) ∧
    ∀ specs, buildContractSpecsFromQuote (quote.forContract k) quote.lines startDate createdBy = .ok specs →
      (AcceptanceBilled quote (acceptedLines quote) (quotedTotals quote).total specs ↔
        ∀ cadence ∈ cadences, TermsUnmixed (cadenceGroup quote.lines cadence)) := by
  refine ⟨fun date positive => buildContractSpecsFromQuote_returns date positive _ _, fun specs built => ?_⟩
  constructor
  · intro billed cadence listed months carried single l member absent
    have agreed : AgreedTerm quote.lines cadence months := agreedTerm_iff.mpr ⟨carried, single⟩
    obtain ⟨spec, found, paced, set⟩ := (built_endDate_iff built listed).mpr ⟨months, agreed⟩
    obtain ⟨term, every⟩ := billed.endDates spec found cadence listed paced set
    rw [every l member] at absent
    cases absent
  · intro unmixed
    refine ⟨billedOnce built, quotedTotals_eq quote, fun totals computed => computed ▸ rfl, ?_⟩
    intro spec found cadence listed paced set
    obtain ⟨months, agreed⟩ := (built_endDate_iff built listed).mp ⟨spec, found, paced, set⟩
    obtain ⟨carried, single⟩ := agreedTerm_iff.mp agreed
    refine ⟨months, fun l member => ?_⟩
    exact (single l member).resolve_left (unmixed cadence listed months carried single l member)

/-- A quote in `sent` for the given lines, at a rate of 8.25 percent. -/
def taxedQuote (lines : List QuoteLineForContract) : QuoteRow where
  orgId := 1
  partnerId := 1
  quoteNumber := some "Q-1001"
  currencyCode := none
  terms := none
  lines := lines
  status := .sent
  taxRate := some (33 / 400)
  expiryDate := none
  firstViewedAt := none
  viewedAt := none
  acceptedAt := none
  convertedAt := none
  convertedInvoiceId := none
  declinedAt := none
  declineReason := none

/-- A monthly line of the given term beside one without a term. -/
def mixedLines : List QuoteLineForContract :=
  [monthlyLine 12, ⟨.monthly, true, "Backup", 40, 1, false, none, none⟩]

theorem acceptQuote_writes_mixed : ∃ next, InvoiceWritten 0 (taxedQuote mixedLines) next :=
  ⟨_, (@acceptQuote_writes ⟨none, none, false, none⟩ 1 none 0
    (beforeCalls (taxedQuote mixedLines) (fun _ => none) fun _ => .acceptQuote 1 none).db _
    (replicate 6 ⟨⟨2026, 6, 15⟩, 0⟩) rfl).1⟩

theorem acceptance_billed_setup :
    ∃ specs, buildContractSpecsFromQuote ((taxedQuote [monthlyLine 12]).forContract 1) [monthlyLine 12]
        (iso ⟨2026, 6, 15⟩) none = .ok specs ∧
      AcceptanceBilled (taxedQuote [monthlyLine 12]) (acceptedLines (taxedQuote [monthlyLine 12]))
        (quotedTotals (taxedQuote [monthlyLine 12])).total specs := by
  obtain ⟨returns, billed⟩ := acceptance_billed_iff (taxedQuote [monthlyLine 12]) 1 (iso ⟨2026, 6, 15⟩) none
  obtain ⟨specs, built⟩ := returns (by decide) (by decide)
  refine ⟨specs, built, (billed specs built).mpr ?_⟩
  intro cadence listed months carried single l member
  obtain rfl := mem_singleton.mp (mem_of_mem_filter member)
  exact some_ne_none 12

/-- A line without a term beside one of twelve months: the contract ends after twelve months for both. -/
theorem unlimited_line_ends :
    ∃ specs, buildContractSpecsFromQuote ((taxedQuote mixedLines).forContract 1) mixedLines (iso ⟨2026, 6, 15⟩) none =
        .ok specs ∧ ¬AcceptanceBilled (taxedQuote mixedLines) (acceptedLines (taxedQuote mixedLines))
        (quotedTotals (taxedQuote mixedLines)).total specs := by
  refine ⟨_, rfl, fun billed => ?_⟩
  obtain ⟨months, every⟩ := billed.endDates _ mem_cons_self ⟨.monthly, 1, "Monthly"⟩ mem_cons_self rfl nofun
  have carried := every ⟨.monthly, true, "Backup", 40, 1, false, none, none⟩ (by decide)
  cases carried

end RemudaRmm.Billing
