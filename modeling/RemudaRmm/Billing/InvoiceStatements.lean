import RemudaRmm.Billing.InvoiceTransactions

/-! Everything one statement of an invoice or quote call can do, and what it leaves to the other calls:
their own versions stand, and only a commit changes what is committed. -/
namespace RemudaRmm.Billing
open Foundation Function Option Row Table

/-- An update by id of an invoice row, which may have no row to meet. -/
def UpdatedInvoice (t : ℕ) (db : BillingDb) (id : InvoiceId) (f : InvoiceRow → InvoiceRow) (next : BillingDb) : Prop :=
  (db.invoices id).Free t ∧
    ((∃ row, (db.invoices id).read t = some row ∧ next = db.setInvoice t id (f row)) ∨
      ((db.invoices id).read t = none ∧ next = db))

inductive DocumentStatement (cfg : PartnerSettings) (t : ℕ) (now : Instant) (db : BillingDb) :
    BillingCall → BillingStage → BillingDb → BillingStage → Prop where
  | failed {call : BillingCall} {stage : BillingStage} (running : ¬stage.Ended) (e : BillingError) :
      DocumentStatement cfg t now db call stage (db.rollback t) (.threw e)
  | committed {call : BillingCall} : DocumentStatement cfg t now db call .committing (db.commit t) .returned
  | draftLoaded {id : InvoiceId} {inv : InvoiceRow} (seen : (db.invoices id).read t = some inv)
      (draft : inv.status = .draft) : DocumentStatement cfg t now db (.issueInvoice id) .start db .loaded
  | draftGathered {id : InvoiceId} : DocumentStatement cfg t now db (.issueInvoice id) .loaded db
        (.gathered (timeIds (linesOf t db id)) (partIds (linesOf t db id)))
  | timeChecked {id : InvoiceId} {times parts : List ℕ}
      (unbilled : ∀ s ∈ times.map SourceId.timeEntry, (db.sources s).read t = .notBilled) :
      DocumentStatement cfg t now db (.issueInvoice id) (.gathered times parts) db (.timeChecked times parts)
  | partsChecked {id : InvoiceId} {times parts : List ℕ}
      (unbilled : ∀ s ∈ parts.map SourceId.part, (db.sources s).read t = .notBilled) :
      DocumentStatement cfg t now db (.issueInvoice id) (.timeChecked times parts) db (.partsChecked times parts)
  | numbered {id : InvoiceId} {times parts : List ℕ} (free : (db.sequences now.day.year).Free t) :
      DocumentStatement cfg t now db (.issueInvoice id) (.partsChecked times parts)
        { db with sequences := Table.write t now.day.year ((db.sequences now.day.year).read t + 1) db.sequences }
        (.numbered times parts now.day.year ((db.sequences now.day.year).read t + 1))
  | totalled {id : InvoiceId} {times parts : List ℕ} {year : ℤ} {counter : ℕ} (totals : InvoiceTotals) :
      DocumentStatement cfg t now db (.issueInvoice id) (.numbered times parts year counter) db
        (.totalled times parts year counter totals)
  | issued {id : InvoiceId} {times parts : List ℕ} {year : ℤ} {counter : ℕ} {totals : InvoiceTotals}
      {next : BillingDb} (taxRate : ℚ)
      (updated : UpdatedInvoice t db id (issuedRow cfg taxRate year counter totals) next) :
      DocumentStatement cfg t now db (.issueInvoice id) (.totalled times parts year counter totals) next
        (.issued times parts)
  | timeFlipped {id : InvoiceId} {times parts : List ℕ}
      (free : ∀ s ∈ times.map SourceId.timeEntry, (db.sources s).Free t) :
      DocumentStatement cfg t now db (.issueInvoice id) (.issued times parts)
        (db.setSources t (times.map .timeEntry) .billed) (.timeFlipped parts)
  | partsFlipped {id : InvoiceId} {parts : List ℕ} (free : ∀ s ∈ parts.map SourceId.part, (db.sources s).Free t) :
      DocumentStatement cfg t now db (.issueInvoice id) (.timeFlipped parts)
        (db.setSources t (parts.map .part) .billed) .committing
  | liveLoaded {id : InvoiceId} {reason : String} {reissue : Bool} {inv : InvoiceRow}
      (seen : (db.invoices id).read t = some inv) (live : ¬(inv.status = .draft ∨ inv.status = .void)) :
      DocumentStatement cfg t now db (.voidInvoice id reason reissue) .start db (.found inv.notes)
  | liveGathered {id : InvoiceId} {reason : String} {reissue : Bool} {notes : Option String} :
      DocumentStatement cfg t now db (.voidInvoice id reason reissue) (.found notes) db
        (.collected (timeIds (linesOf t db id)) (partIds (linesOf t db id)) notes)
  | voided {id : InvoiceId} {reason : String} {reissue : Bool} {times parts : List ℕ} {notes : Option String}
      {next : BillingDb}
      (updated : UpdatedInvoice t db id
        (fun row => { row with status := .void, voidedAt := some now, voidReason := some reason }) next) :
      DocumentStatement cfg t now db (.voidInvoice id reason reissue) (.collected times parts notes) next
        (.voided times parts notes)
  | timeReleased {id : InvoiceId} {reason : String} {reissue : Bool} {times parts : List ℕ} {notes : Option String}
      (free : ∀ s ∈ times.map SourceId.timeEntry, (db.sources s).Free t) :
      DocumentStatement cfg t now db (.voidInvoice id reason reissue) (.voided times parts notes)
        (db.setSources t (times.map .timeEntry) .notBilled) (.timeReleased parts notes)
  | partsReleased {id : InvoiceId} {reason : String} {reissue : Bool} {parts : List ℕ} {notes : Option String}
      (free : ∀ s ∈ parts.map SourceId.part, (db.sources s).Free t) :
      DocumentStatement cfg t now db (.voidInvoice id reason reissue) (.timeReleased parts notes)
        (db.setSources t (parts.map .part) .notBilled) (if reissue then .released notes else .committing)
  | drafted {id : InvoiceId} {reason : String} {reissue : Bool} {notes : Option String} :
      DocumentStatement cfg t now db (.voidInvoice id reason reissue) (.released notes)
        (db.setInvoice t (.reissued t) (replacement id notes)) .drafted
  | linked {id : InvoiceId} {reason : String} {reissue : Bool} {next : BillingDb}
      (updated : UpdatedInvoice t db id (fun row => { row with replacedByInvoiceId := some (.reissued t) }) next) :
      DocumentStatement cfg t now db (.voidInvoice id reason reissue) .drafted next .linked
  | parentsCloned {id : InvoiceId} {reason : String} {reissue : Bool} {next : BillingDb}
      (updated : UpdatedInvoice t db (.reissued t) (fun row => { row with
        lines := row.lines ++ (linesOf t db id).filter (!·.child) }) next) :
      DocumentStatement cfg t now db (.voidInvoice id reason reissue) .linked next .parentsCloned
  | childrenCloned {id : InvoiceId} {reason : String} {reissue : Bool} {next : BillingDb}
      (updated : UpdatedInvoice t db (.reissued t) (fun row => { row with
        lines := row.lines ++ (linesOf t db id).filter (·.child) }) next) :
      DocumentStatement cfg t now db (.voidInvoice id reason reissue) .parentsCloned next .committing
  | locked {k : ℕ} {actorUserId : Option ℕ} (free : (db.quotes k).Free t)
      (acceptable : ((db.quotes k).read t).acceptable = true) :
      DocumentStatement cfg t now db (.acceptQuote k actorUserId) .start
        (db.setQuote t k ((db.quotes k).read t)) .locked
  | recorded {k : ℕ} {actorUserId : Option ℕ} : DocumentStatement cfg t now db (.acceptQuote k actorUserId) .locked
        { db with acceptances := Table.write t t (some k) db.acceptances } (.recorded now)
  | invoiceDrafted {k : ℕ} {actorUserId : Option ℕ} {acceptedAt : Instant} (quote : QuoteRow)
      (rest : List QuoteLineForContract) :
      DocumentStatement cfg t now db (.acceptQuote k actorUserId) (.recorded acceptedAt)
        (db.setInvoice t (.converted t) (convertedDraft quote)) (.lining acceptedAt rest)
  | lined {k : ℕ} {actorUserId : Option ℕ} {acceptedAt : Instant} {l : QuoteLineForContract}
      {rest : List QuoteLineForContract} {next : BillingDb}
      (updated : UpdatedInvoice t db (.converted t) (fun row => { row with
        lines := row.lines ++ [convertedLine l row.lines.length] }) next) :
      DocumentStatement cfg t now db (.acceptQuote k actorUserId) (.lining acceptedAt (l :: rest)) next
        (.lining acceptedAt rest)
  | leftDraft {k : ℕ} {actorUserId : Option ℕ} {acceptedAt : Instant} {next : BillingDb} (totals : InvoiceTotals)
      (updated : UpdatedInvoice t db (.converted t) (fun row => { row with totals, balance := totals.total }) next) :
      DocumentStatement cfg t now db (.acceptQuote k actorUserId) (.lining acceptedAt []) next (.invoiced acceptedAt)
  | allocated {k : ℕ} {actorUserId : Option ℕ} {acceptedAt : Instant} {year : ℤ} (free : (db.sequences year).Free t) :
      DocumentStatement cfg t now db (.acceptQuote k actorUserId) (.lining acceptedAt [])
        { db with sequences := Table.write t year ((db.sequences year).read t + 1) db.sequences }
        (.allocated acceptedAt year ((db.sequences year).read t + 1))
  | autoIssued {k : ℕ} {actorUserId : Option ℕ} {acceptedAt : Instant} {year : ℤ} {counter : ℕ} {next : BillingDb}
      (totals : InvoiceTotals)
      (updated : UpdatedInvoice t db (.converted t) (fun row => { row with
        totals, balance := totals.total, status := .sent, invoiceNumber := some (cfg.number year counter) }) next) :
      DocumentStatement cfg t now db (.acceptQuote k actorUserId) (.allocated acceptedAt year counter) next
        (.invoiced acceptedAt)
  | converted {k : ℕ} {actorUserId : Option ℕ} {acceptedAt : Instant} (free : (db.quotes k).Free t) :
      DocumentStatement cfg t now db (.acceptQuote k actorUserId) (.invoiced acceptedAt)
        (db.setQuote t k { (db.quotes k).read t with
          status := .converted, acceptedAt := some acceptedAt, convertedAt := some acceptedAt,
          convertedInvoiceId := some (.converted t) }) .converted
  | contracted {k : ℕ} {actorUserId : Option ℕ} (contracts : List ContractRows) :
      DocumentStatement cfg t now db (.acceptQuote k actorUserId) .converted
        { db with contracts := Table.write t t (some ⟨k, contracts⟩) db.contracts } .committing
  | quoteSeen {k orgId : ℕ} : DocumentStatement cfg t now db (.markQuoteViewed k orgId) .start db
        (.viewing ((db.quotes k).read t))
  | notOurs {k orgId : ℕ} : DocumentStatement cfg t now db (.markQuoteViewed k orgId) .start db .returned
  | viewed {k orgId : ℕ} {seen : QuoteRow} (free : (db.quotes k).Free t) (firstViewedAt : Option Instant) :
      DocumentStatement cfg t now db (.markQuoteViewed k orgId) (.viewing seen)
        (db.setQuote t k { (db.quotes k).read t with
          viewedAt := some now, firstViewedAt
          status := if seen.status = .sent then .viewed else ((db.quotes k).read t).status }) .committing
  | declineSeen {k : ℕ} {reason : Option String} :
      DocumentStatement cfg t now db (.declineQuoteByActor k reason) .start db .declining
  | declined {k : ℕ} {reason : Option String} (free : (db.quotes k).Free t) :
      DocumentStatement cfg t now db (.declineQuoteByActor k reason) .declining
        (db.setQuote t k { (db.quotes k).read t with
          status := .declined, declineReason := reason, declinedAt := some now }) .committing
  | swept {batch : List ℕ} {quotes : Table ℕ ℕ QuoteRow}
      (each : ∀ k, quotes k = db.quotes k ∨ ((db.quotes k).Free t ∧ ((db.quotes k).read t).acceptable = true ∧
        quotes k = (db.quotes k).write t { (db.quotes k).read t with status := .expired })) :
      DocumentStatement cfg t now db (.expireQuotes batch) .start { db with quotes } .committing

section Inversion
variable {cfg : PartnerSettings} {t : ℕ} {now : Instant} {db next : BillingDb} {stage stage' : BillingStage}
variable {id : InvoiceId} {done : BillingStage} {k : ℕ}

theorem fails_cases {call : BillingCall} {e : BillingError} (running : ¬stage.Ended)
    (acted : fails t db e = some (next, stage')) : DocumentStatement cfg t now db call stage next stage' := by
  exact of_some_eq acted (.failed running e)

theorem updateInvoice_cases {f : InvoiceRow → InvoiceRow} (acted : updateInvoice t db id f done = some (next, stage')) :
    UpdatedInvoice t db id f next ∧ stage' = done := by
  unfold updateInvoice at acted
  split_ifs at acted with free
  split at acted
  · next row seen =>
      cases acted
      exact ⟨⟨free, .inl ⟨row, seen, rfl⟩⟩, rfl⟩
  · next gone =>
      cases acted
      exact ⟨⟨free, .inr ⟨gone, rfl⟩⟩, rfl⟩

theorem guardSources_cases {ids : List SourceId} (acted : guardSources t db ids done = some (next, stage')) :
    ((∀ s ∈ ids, (db.sources s).read t = .notBilled) ∧ next = db ∧ stage' = done) ∨
      fails t db .sourceAlreadyBilled = some (next, stage') := by
  unfold guardSources at acted
  simp only at acted
  split_ifs at acted with free clear
  · cases acted
    refine .inl ⟨fun s member => ?_, rfl, rfl⟩
    by_contra billed
    exact List.filter_eq_nil_iff.mp clear s member (decide_eq_true billed)
  · exact .inr acted

theorem updateSources_cases {ids : List SourceId} {status : BillingStatus}
    (acted : updateSources t db ids status done = some (next, stage')) :
    (∀ s ∈ ids, (db.sources s).Free t) ∧ next = db.setSources t ids status ∧ stage' = done := by
  obtain ⟨free, acted⟩ := ite_none_right_eq_some.mp acted
  cases acted
  exact ⟨free, rfl, rfl⟩

theorem allocateCounter_cases {year : ℤ} {done : ℕ → BillingStage}
    (acted : allocateCounter t db year done = some (next, stage')) :
    (db.sequences year).Free t ∧
      next = { db with sequences := Table.write t year ((db.sequences year).read t + 1) db.sequences } ∧
      stage' = done ((db.sequences year).read t + 1) := by
  obtain ⟨free, acted⟩ := ite_none_right_eq_some.mp acted
  cases acted
  exact ⟨free, rfl, rfl⟩

theorem updateQuote_cases {f : QuoteRow → QuoteRow} (acted : updateQuote t db k f done = some (next, stage')) :
    (db.quotes k).Free t ∧ next = db.setQuote t k (f ((db.quotes k).read t)) ∧ stage' = done := by
  obtain ⟨free, acted⟩ := ite_none_right_eq_some.mp acted
  cases acted
  exact ⟨free, rfl, rfl⟩

theorem issueInvoiceStep_cases (acted : issueInvoiceStep cfg id t now db stage = some (next, stage')) :
    DocumentStatement cfg t now db (.issueInvoice id) stage next stage' := by
  unfold issueInvoiceStep at acted
  split at acted
  · split at acted
    · exact fails_cases (fun ended => ended) acted
    · next inv seen =>
        split_ifs at acted with draft
        · exact of_some_eq acted (.draftLoaded seen draft)
        · exact fails_cases (fun ended => ended) acted
  · simp only at acted
    split_ifs at acted
    · exact of_some_eq acted .draftGathered
    · exact fails_cases (fun ended => ended) acted
  · obtain ⟨unbilled, rfl, rfl⟩ | failed := guardSources_cases acted
    · exact .timeChecked unbilled
    · exact fails_cases (fun ended => ended) failed
  · obtain ⟨unbilled, rfl, rfl⟩ | failed := guardSources_cases acted
    · exact .partsChecked unbilled
    · exact fails_cases (fun ended => ended) failed
  · obtain ⟨free, rfl, rfl⟩ := allocateCounter_cases acted
    exact .numbered free
  · exact of_some_eq acted (.totalled _)
  · obtain ⟨updated, rfl⟩ := updateInvoice_cases acted
    exact .issued _ updated
  · obtain ⟨free, rfl, rfl⟩ := updateSources_cases acted
    exact .timeFlipped free
  · obtain ⟨free, rfl, rfl⟩ := updateSources_cases acted
    exact .partsFlipped free
  · cases acted

theorem voidInvoiceStep_cases {reason : String} {reissue : Bool}
    (acted : voidInvoiceStep id reason reissue t now db stage = some (next, stage')) :
    DocumentStatement cfg t now db (.voidInvoice id reason reissue) stage next stage' := by
  unfold voidInvoiceStep at acted
  split at acted
  · split at acted
    · exact fails_cases (fun ended => ended) acted
    · next inv seen =>
        split_ifs at acted with ended
        · exact fails_cases (fun ended => ended) acted
        · exact of_some_eq acted (.liveLoaded seen ended)
  · exact of_some_eq acted .liveGathered
  · obtain ⟨updated, rfl⟩ := updateInvoice_cases acted
    exact .voided updated
  · obtain ⟨free, rfl, rfl⟩ := updateSources_cases acted
    exact .timeReleased free
  · obtain ⟨free, rfl, rfl⟩ := updateSources_cases acted
    exact .partsReleased free
  · exact of_some_eq acted .drafted
  · obtain ⟨updated, rfl⟩ := updateInvoice_cases acted
    exact .linked updated
  · obtain ⟨updated, rfl⟩ := updateInvoice_cases acted
    exact .parentsCloned updated
  · obtain ⟨updated, rfl⟩ := updateInvoice_cases acted
    exact .childrenCloned updated
  · cases acted

theorem acceptQuoteStep_cases {actorUserId : Option ℕ}
    (acted : acceptQuoteStep cfg k actorUserId t now db stage = some (next, stage')) :
    DocumentStatement cfg t now db (.acceptQuote k actorUserId) stage next stage' := by
  unfold acceptQuoteStep at acted
  split at acted
  · simp only at acted
    split_ifs at acted with free refused expired
    · exact fails_cases (fun ended => ended) acted
    · exact fails_cases (fun ended => ended) acted
    · exact of_some_eq acted (.locked free (Bool.not_eq_false _ ▸ refused))
  · exact of_some_eq acted .recorded
  · exact of_some_eq acted (.invoiceDrafted _ _)
  · obtain ⟨updated, rfl⟩ := updateInvoice_cases acted
    exact .lined updated
  · simp only at acted
    split_ifs at acted
    · obtain ⟨updated, rfl⟩ := updateInvoice_cases acted
      exact .leftDraft _ updated
    · obtain ⟨free, rfl, rfl⟩ := allocateCounter_cases acted
      exact .allocated free
  · obtain ⟨updated, rfl⟩ := updateInvoice_cases acted
    exact .autoIssued _ updated
  · obtain ⟨free, rfl, rfl⟩ := updateQuote_cases acted
    exact .converted free
  · simp only at acted
    split at acted
    · exact fails_cases (fun ended => ended) acted
    · exact of_some_eq acted (.contracted _)
  · cases acted

theorem markQuoteViewedStep_cases {orgId : ℕ}
    (acted : markQuoteViewedStep k orgId t now db stage = some (next, stage')) :
    DocumentStatement cfg t now db (.markQuoteViewed k orgId) stage next stage' := by
  unfold markQuoteViewedStep at acted
  split at acted
  · simp only at acted
    cases acted
    split_ifs
    · exact .quoteSeen
    · exact .notOurs
  · obtain ⟨free, rfl, rfl⟩ := updateQuote_cases acted
    exact .viewed free _
  · cases acted

theorem declineQuoteByActorStep_cases {reason : Option String}
    (acted : declineQuoteByActorStep k reason t now db stage = some (next, stage')) :
    DocumentStatement cfg t now db (.declineQuoteByActor k reason) stage next stage' := by
  unfold declineQuoteByActorStep at acted
  split at acted
  · simp only at acted
    split_ifs at acted
    · exact fails_cases (fun ended => ended) acted
    · exact fails_cases (fun ended => ended) acted
    · exact of_some_eq acted .declineSeen
  · obtain ⟨free, rfl, rfl⟩ := updateQuote_cases acted
    exact .declined free
  · cases acted

theorem expireQuotesStep_cases {batch : List ℕ} (acted : expireQuotesStep batch t now db stage = some (next, stage')) :
    DocumentStatement cfg t now db (.expireQuotes batch) stage next stage' := by
  unfold expireQuotesStep at acted
  split at acted
  · refine of_some_eq acted (.swept fun k => ?_)
    simp only
    split_ifs with due
    · exact .inr ⟨due.2.1, due.2.2.1, rfl⟩
    · exact .inl rfl
  · cases acted

theorem documentCallStep_cases {call : BillingCall}
    (acted : documentCallStep cfg call t now db stage = some (next, stage')) :
    DocumentStatement cfg t now db call stage next stage' := by
  cases call with
  | issueInvoice id => exact issueInvoiceStep_cases acted
  | voidInvoice id reason reissue => exact voidInvoiceStep_cases acted
  | acceptQuote k actorUserId => exact acceptQuoteStep_cases acted
  | markQuoteViewed k orgId => exact markQuoteViewedStep_cases acted
  | declineQuoteByActor k reason => exact declineQuoteByActorStep_cases acted
  | expireQuotes batch => exact expireQuotesStep_cases acted

theorem documentStep_cases {w next : DocumentWorld} {t : ℕ} {action : BillingAction}
    (stepped : documentStep cfg w (t, action) = some next) :
    ∃ now db stage, DocumentStatement cfg t now w.db (w.proc t).call (w.proc t).stage db stage ∧
      (action = .exec now ∨ stage = .threw .aborted) ∧ next = ⟨db, update w.proc t ⟨(w.proc t).call, stage⟩⟩ := by
  obtain ⟨db, p, acted, rfl⟩ := World.step_eq_some stepped
  cases action with
  | exec now =>
    simp only [documentAct] at acted
    split at acted
    · next last =>
        cases acted
        exact ⟨now, _, .returned, last ▸ .committed, .inl rfl, rfl⟩
    · obtain ⟨⟨db', stage⟩, called, same⟩ := map_eq_some_iff.mp acted
      cases same
      exact ⟨now, db', stage, documentCallStep_cases called, .inl rfl, rfl⟩
  | fail =>
    obtain ⟨running, same⟩ := ite_none_left_eq_some.mp acted
    cases same
    exact ⟨⟨⟨2000, 1, 1⟩, 0⟩, _, _, .failed running .aborted, .inr rfl, rfl⟩

end Inversion

structure BillingDb.Quiet (t : ℕ) (db next : BillingDb) : Prop where
  quotes : ∀ k, (next.quotes k).committed = (db.quotes k).committed
  acceptances : ∀ k, (next.acceptances k).committed = (db.acceptances k).committed
  contracts : ∀ k, (next.contracts k).committed = (db.contracts k).committed
  invoices : ∀ k, (next.invoices k).committed = (db.invoices k).committed
  sources : ∀ k, (next.sources k).committed = (db.sources k).committed
  sequences : ∀ k, (next.sequences k).committed = (db.sequences k).committed
  keptQuotes : ∀ u ≠ t, ∀ k, (db.quotes k).Kept u (next.quotes k)
  keptAcceptances : ∀ u ≠ t, ∀ k, (db.acceptances k).Kept u (next.acceptances k)
  keptContracts : ∀ u ≠ t, ∀ k, (db.contracts k).Kept u (next.contracts k)
  keptInvoices : ∀ u ≠ t, ∀ k, (db.invoices k).Kept u (next.invoices k)
  keptSources : ∀ u ≠ t, ∀ k, (db.sources k).Kept u (next.sources k)
  keptSequences : ∀ u ≠ t, ∀ k, (db.sequences k).Kept u (next.sequences k)

structure BillingDb.Undisturbed (u : ℕ) (db next : BillingDb) : Prop where
  quotes : ∀ k, (db.quotes k).Undisturbed u (next.quotes k)
  acceptances : ∀ k, (db.acceptances k).Undisturbed u (next.acceptances k)
  invoices : ∀ k, (db.invoices k).Undisturbed u (next.invoices k)
  sources : ∀ k, (db.sources k).Undisturbed u (next.sources k)
  sequences : ∀ k, (db.sequences k).Undisturbed u (next.sequences k)

def InvoiceId.MadeBy (t : ℕ) : InvoiceId → Prop
  | .existing _ => False
  | .converted call | .reissued call => call = t

/-- Rows that a call is to insert are known to nobody else before it commits. -/
structure Fresh (w : DocumentWorld) : Prop where
  acceptances : ∀ t, (w.db.acceptances t).Free t
  contracts : ∀ t, (w.db.contracts t).Free t
  invoices : ∀ t i, i.MadeBy t → (w.db.invoices i).committed = none → (w.db.invoices i).Free t
  unmade : ∀ t i, i.MadeBy t → (w.proc t).stage ≠ .returned → (w.db.invoices i).committed = none

namespace BillingDb
variable {t : ℕ} {db : BillingDb}

theorem Quiet.refl : Quiet t db db :=
  ⟨fun _ => rfl, fun _ => rfl, fun _ => rfl, fun _ => rfl, fun _ => rfl, fun _ => rfl, fun _ _ _ => .refl,
    fun _ _ _ => .refl, fun _ _ _ => .refl, fun _ _ _ => .refl, fun _ _ _ => .refl, fun _ _ _ => .refl⟩

theorem Quiet.undisturbed {u : ℕ} {next : BillingDb} (quiet : Quiet t db next) (other : u ≠ t) :
    Undisturbed u db next where
  quotes k := ⟨quiet.keptQuotes u other k, fun _ _ => quiet.quotes k⟩
  acceptances k := ⟨quiet.keptAcceptances u other k, fun _ _ => quiet.acceptances k⟩
  invoices k := ⟨quiet.keptInvoices u other k, fun _ _ => quiet.invoices k⟩
  sources k := ⟨quiet.keptSources u other k, fun _ _ => quiet.sources k⟩
  sequences k := ⟨quiet.keptSequences u other k, fun _ _ => quiet.sequences k⟩

theorem undisturbed_commit {u : ℕ} (other : u ≠ t) : Undisturbed u db (db.commit t) where
  quotes _ := Row.undisturbed_commit other
  acceptances _ := Row.undisturbed_commit other
  invoices _ := Row.undisturbed_commit other
  sources _ := Row.undisturbed_commit other
  sequences _ := Row.undisturbed_commit other

theorem quiet_rollback : Quiet t db (db.rollback t) :=
  ⟨fun _ => rfl, fun _ => rfl, fun _ => rfl, fun _ => rfl, fun _ => rfl, fun _ => rfl,
    fun _ other _ => kept_rollback other, fun _ other _ => kept_rollback other,
    fun _ other _ => kept_rollback other, fun _ other _ => kept_rollback other,
    fun _ other _ => kept_rollback other, fun _ other _ => kept_rollback other⟩

theorem quiet_setQuote {k : ℕ} (free : (db.quotes k).Free t) (row : QuoteRow) : Quiet t db (db.setQuote t k row) :=
  { Quiet.refl with
    quotes := fun j => committed_write t k row db.quotes j
    keptQuotes := fun _ other j => kept_write other free row j }

theorem quiet_quotes {quotes : Table ℕ ℕ QuoteRow} (committed : ∀ k, (quotes k).committed = (db.quotes k).committed)
    (kept : ∀ u ≠ t, ∀ k, (db.quotes k).Kept u (quotes k)) : Quiet t db { db with quotes } :=
  { Quiet.refl with quotes := committed, keptQuotes := kept }

theorem quiet_acceptances (free : (db.acceptances t).Free t) (v : Option ℕ) :
    Quiet t db { db with acceptances := Table.write t t v db.acceptances } :=
  { Quiet.refl with
    acceptances := fun j => committed_write t t v db.acceptances j
    keptAcceptances := fun _ other j => kept_write other free v j }

theorem quiet_contracts (free : (db.contracts t).Free t) (v : Option QuoteContracts) :
    Quiet t db { db with contracts := Table.write t t v db.contracts } :=
  { Quiet.refl with
    contracts := fun j => committed_write t t v db.contracts j
    keptContracts := fun _ other j => kept_write other free v j }

theorem quiet_setInvoice {id : InvoiceId} (free : (db.invoices id).Free t) (row : InvoiceRow) :
    Quiet t db (db.setInvoice t id row) :=
  { Quiet.refl with
    invoices := fun j => committed_write t id (some row) db.invoices j
    keptInvoices := fun _ other j => kept_write other free (some row) j }

theorem quiet_updated {id : InvoiceId} {f : InvoiceRow → InvoiceRow} {next : BillingDb}
    (updated : UpdatedInvoice t db id f next) : Quiet t db next := by
  obtain ⟨free, ⟨row, -, rfl⟩ | ⟨-, rfl⟩⟩ := updated
  · exact quiet_setInvoice free (f row)
  · exact .refl

theorem quiet_setSources {ids : List SourceId} (free : ∀ s ∈ ids, (db.sources s).Free t) (status : BillingStatus) :
    Quiet t db (db.setSources t ids status) :=
  { Quiet.refl with
    sources := fun j => committed_writeAll t ids status db.sources j
    keptSources := fun _ other j => kept_writeAll other free status j }

theorem quiet_sequences {year : ℤ} (free : (db.sequences year).Free t) (counter : ℕ) :
    Quiet t db { db with sequences := Table.write t year counter db.sequences } :=
  { Quiet.refl with
    sequences := fun j => committed_write t year counter db.sequences j
    keptSequences := fun _ other j => kept_write other free counter j }

end BillingDb

namespace UpdatedInvoice
variable {t : ℕ} {db next : BillingDb} {id : InvoiceId} {f : InvoiceRow → InvoiceRow}

theorem quotes (updated : UpdatedInvoice t db id f next) : next.quotes = db.quotes := by
  obtain ⟨-, ⟨row, -, rfl⟩ | ⟨-, rfl⟩⟩ := updated <;> rfl

theorem acceptances (updated : UpdatedInvoice t db id f next) : next.acceptances = db.acceptances := by
  obtain ⟨-, ⟨row, -, rfl⟩ | ⟨-, rfl⟩⟩ := updated <;> rfl

theorem contracts (updated : UpdatedInvoice t db id f next) : next.contracts = db.contracts := by
  obtain ⟨-, ⟨row, -, rfl⟩ | ⟨-, rfl⟩⟩ := updated <;> rfl

theorem holds_set (id : InvoiceId) {row : InvoiceRow} {i : InvoiceId} {v : Option InvoiceRow} (made : id.MadeBy t)
    (holds : ((db.setInvoice t id row).invoices i).held = some (t, v)) :
    (∃ v, (db.invoices i).held = some (t, v)) ∨ i.MadeBy t ∨ (db.invoices i).committed ≠ none := by
  by_cases same : i = id
  · exact .inr (.inl (same ▸ made))
  · rw [BillingDb.invoices_setInvoice_of_ne same] at holds
    exact .inl ⟨v, holds⟩

theorem holds (updated : UpdatedInvoice t db id f next) {i : InvoiceId} {v : Option InvoiceRow}
    (holds : (next.invoices i).held = some (t, v)) :
    (∃ v, (db.invoices i).held = some (t, v)) ∨ i.MadeBy t ∨ (db.invoices i).committed ≠ none := by
  obtain ⟨-, ⟨row, seen, rfl⟩ | ⟨-, rfl⟩⟩ := updated
  · by_cases same : i = id
    · subst same
      rcases (db.invoices i).read_cases t with ⟨v, held, -⟩ | ⟨-, same⟩
      · exact .inl ⟨v, held⟩
      · rw [same] at seen
        exact .inr (.inr (seen ▸ nofun))
    · rw [BillingDb.invoices_setInvoice_of_ne same] at holds
      exact .inl ⟨v, holds⟩
  · exact .inl ⟨v, holds⟩

end UpdatedInvoice

section Frame
variable {cfg : PartnerSettings} {w : DocumentWorld} {t : ℕ} {now : Instant} {next : BillingDb} {stage : BillingStage}
variable {db : BillingDb} {call : BillingCall} {before : BillingStage} {j : ℕ}

theorem Fresh.effect (fresh : Fresh w)
    (statement : DocumentStatement cfg t now w.db (w.proc t).call (w.proc t).stage next stage) :
    w.db.Quiet t next ∨ ((w.proc t).stage = .committing ∧ next = w.db.commit t ∧ stage = .returned) := by
  have unmade := fresh.unmade t
  generalize w.proc t = p at statement unmade
  obtain ⟨call, before⟩ := p
  simp only at statement
  cases statement with
  | failed running e => exact .inl BillingDb.quiet_rollback
  | committed => exact .inr ⟨rfl, rfl, rfl⟩
  | draftLoaded seen draft | draftGathered | timeChecked unbilled | partsChecked unbilled | totalled totals
  | liveLoaded seen live | liveGathered | quoteSeen | notOurs | declineSeen => exact .inl .refl
  | numbered free | allocated free => exact .inl (BillingDb.quiet_sequences free _)
  | issued taxRate updated | voided updated | linked updated | parentsCloned updated | childrenCloned updated
  | lined updated | leftDraft totals updated | autoIssued totals updated => exact .inl (BillingDb.quiet_updated updated)
  | timeFlipped free | partsFlipped free | timeReleased free | partsReleased free =>
    exact .inl (BillingDb.quiet_setSources free _)
  | drafted =>
    exact .inl (BillingDb.quiet_setInvoice (fresh.invoices t (.reissued t) rfl (unmade (.reissued t) rfl nofun)) _)
  | locked free acceptable | converted free | viewed free firstViewedAt | declined free =>
    exact .inl (BillingDb.quiet_setQuote free _)
  | recorded => exact .inl (BillingDb.quiet_acceptances (fresh.acceptances t) _)
  | invoiceDrafted quote rest =>
    exact .inl (BillingDb.quiet_setInvoice (fresh.invoices t (.converted t) rfl (unmade (.converted t) rfl nofun)) _)
  | contracted contracts => exact .inl (BillingDb.quiet_contracts (fresh.contracts t) _)
  | swept each =>
    refine .inl (BillingDb.quiet_quotes (fun k => ?_) fun u other k => ?_)
    · obtain same | ⟨-, -, written⟩ := each k
      · rw [same]
      · rw [written, committed_write]
    · obtain same | ⟨free, -, written⟩ := each k
      · rw [same]
        exact .refl
      · rw [written]
        exact kept_write other free _

theorem Fresh.undisturbed (fresh : Fresh w)
    (statement : DocumentStatement cfg t now w.db (w.proc t).call (w.proc t).stage next stage) {u : ℕ} (other : u ≠ t) :
    w.db.Undisturbed u next := by
  obtain quiet | ⟨-, rfl, -⟩ := fresh.effect statement
  · exact quiet.undisturbed other
  · exact BillingDb.undisturbed_commit other

theorem DocumentStatement.acceptance_of_ne (statement : DocumentStatement cfg t now db call before next stage)
    (other : j ≠ t) :
    next.acceptances j = db.acceptances j ∨ next.acceptances j = (db.acceptances j).commit t ∨
      next.acceptances j = (db.acceptances j).rollback t := by
  cases statement with
  | failed running e => exact .inr (.inr rfl)
  | committed => exact .inr (.inl rfl)
  | recorded => exact .inl (write_of_ne other)
  | _ => first | exact .inl rfl | exact .inl (congrFun (UpdatedInvoice.acceptances (by assumption)) j)

theorem DocumentStatement.contracts_of_ne (statement : DocumentStatement cfg t now db call before next stage)
    (other : j ≠ t) :
    next.contracts j = db.contracts j ∨ next.contracts j = (db.contracts j).commit t ∨
      next.contracts j = (db.contracts j).rollback t := by
  cases statement with
  | failed running e => exact .inr (.inr rfl)
  | committed => exact .inr (.inl rfl)
  | contracted contracts => exact .inl (write_of_ne other)
  | _ => first | exact .inl rfl | exact .inl (congrFun (UpdatedInvoice.contracts (by assumption)) j)

theorem DocumentStatement.holdsInvoice (statement : DocumentStatement cfg t now db call before next stage)
    {i : InvoiceId} {v : Option InvoiceRow} (holds : (next.invoices i).held = some (t, v)) :
    (∃ v, (db.invoices i).held = some (t, v)) ∨ i.MadeBy t ∨ (db.invoices i).committed ≠ none := by
  cases statement with
  | failed running e => exact .inl ⟨v, (held_rollback_iff.mp holds).1⟩
  | committed => exact .inl ⟨v, (held_commit_iff.mp holds).1⟩
  | drafted => exact UpdatedInvoice.holds_set (.reissued t) rfl holds
  | invoiceDrafted quote rest => exact UpdatedInvoice.holds_set (.converted t) rfl holds
  | _ => first | exact .inl ⟨v, holds⟩ | exact UpdatedInvoice.holds (by assumption) holds

theorem DocumentStatement.running (statement : DocumentStatement cfg t now db call before next stage) :
    ¬before.Ended := by
  cases statement with
  | failed running e => exact running
  | _ => exact id

theorem free_of_settled {α : Type} {r next : Row ℕ α} (free : r.Free j)
    (settled : next = r ∨ next = r.commit t ∨ next = r.rollback t) : next.Free j := by
  obtain rfl | rfl | rfl := settled
  · exact free
  · exact free_commit free
  · exact free_rollback free

theorem InvoiceId.madeBy_unique {i : InvoiceId} (first : i.MadeBy t) (second : i.MadeBy j) : t = j := by
  cases i with
  | existing n => exact first.elim
  | converted call | reissued call => exact first.symm.trans second

theorem Fresh.step (fresh : Fresh w)
    (statement : DocumentStatement cfg t now w.db (w.proc t).call (w.proc t).stage next stage) :
    Fresh ⟨next, update w.proc t ⟨(w.proc t).call, stage⟩⟩ := by
  have running : ∀ j, j ≠ t → (update w.proc t ⟨(w.proc t).call, stage⟩ j) = w.proc j :=
    fun j other => update_of_ne other ..
  obtain quiet | ⟨-, rfl, rfl⟩ := fresh.effect statement
  · refine ⟨fun j => ?_, fun j => ?_, fun j i made none => ?_, fun j i made unreturned => ?_⟩
    · by_cases mine : j = t
      · subst mine
        intro holder v held
        by_contra other
        exact other (fresh.acceptances j holder v ((quiet.keptAcceptances holder other j v).mp held))
      · exact free_of_settled (fresh.acceptances j) (statement.acceptance_of_ne mine)
    · by_cases mine : j = t
      · subst mine
        intro holder v held
        by_contra other
        exact other (fresh.contracts j holder v ((quiet.keptContracts holder other j v).mp held))
      · exact free_of_settled (fresh.contracts j) (statement.contracts_of_ne mine)
    · have before : (w.db.invoices i).committed = Option.none := (quiet.invoices i).symm.trans none
      intro holder v held
      by_cases mine : holder = t
      · subst mine
        obtain ⟨v', earlier⟩ | own | committed := statement.holdsInvoice held
        · exact fresh.invoices j i made before holder v' earlier
        · exact InvoiceId.madeBy_unique own made
        · exact absurd before committed
      · exact fresh.invoices j i made before holder v ((quiet.keptInvoices holder mine i v).mp held)
    · rw [quiet.invoices i]
      by_cases mine : j = t
      · subst mine
        exact fresh.unmade j i made fun returned => statement.running (returned ▸ trivial)
      · simp only [running j mine] at unreturned
        exact fresh.unmade j i made unreturned
  · refine ⟨fun j => free_commit (fresh.acceptances j), fun j => free_commit (fresh.contracts j),
      fun j i made none holder v held => ?_, fun j i made unreturned => ?_⟩
    · obtain ⟨held, other⟩ := held_commit_iff.mp held
      have notMine : ∀ x, (w.db.invoices i).held ≠ some (t, x) := by
        intro x mine
        exact other (Prod.mk.inj (some.inj (held.symm.trans mine))).1
      exact fresh.invoices j i made ((read_of_not_held notMine).symm.trans none) holder v held
    · have other : j ≠ t := by
        rintro rfl
        simp only [update_self] at unreturned
        exact unreturned rfl
      simp only [running j other] at unreturned
      have before := fresh.unmade j i made unreturned
      have notMine : ∀ x, (w.db.invoices i).held ≠ some (t, x) :=
        fun x mine => other (fresh.invoices j i made before t x mine).symm
      exact (read_of_not_held notMine).trans before

end Frame

/-- Any number of calls, none begun, no row locked and nothing inserted by them. -/
structure Unstarted (w : DocumentWorld) : Prop where
  begun : ∀ t, (w.proc t).stage = .start
  quotes : ∀ k, (w.db.quotes k).held = none
  acceptances : ∀ t, w.db.acceptances t = .unheld none
  contracts : ∀ t, w.db.contracts t = .unheld none
  invoices : ∀ i, (w.db.invoices i).held = none
  unmade : ∀ t i, i.MadeBy t → (w.db.invoices i).committed = none
  sources : ∀ s, (w.db.sources s).held = none
  sequences : ∀ y, (w.db.sequences y).held = none

theorem Unstarted.fresh {w : DocumentWorld} (unstarted : Unstarted w) : Fresh w where
  acceptances t := by
    rw [unstarted.acceptances t]
    exact free_unheld t none
  contracts t := by
    rw [unstarted.contracts t]
    exact free_unheld t none
  invoices t i _ _ := free_of_quiet (unstarted.invoices i) t
  unmade t i made _ := unstarted.unmade t i made

theorem Fresh.meets_alone {cfg : PartnerSettings} {C : DocumentWorld → ℕ × BillingAction → Prop} {t : ℕ}
    {call : BillingCall} (P : BillingDb → Prop) (quiet : ∀ {db next : BillingDb}, db.Quiet t next → P db → P next)
    (holds : ∀ {w : DocumentWorld} (now : Instant), (w.proc t).call = call → ((w.proc t).stage ≠ .returned → P w.db) →
      C w (t, .exec now))
    {w : DocumentWorld} (fresh : Fresh w) (same : (w.proc t).call = call) (start : P w.db) (times : List Instant) :
    Meets (documentStep cfg) C w (times.map fun now => (t, .exec now)) := by
  refine Meets.of_invariant (fun w => Fresh w ∧ (w.proc t).call = call ∧ ((w.proc t).stage ≠ .returned → P w.db))
    (fun w e member next alone stepped => ?_) (fun w e member alone => ?_) ⟨fresh, same, fun _ => start⟩
  · obtain ⟨now, -, rfl⟩ := List.mem_map.mp member
    obtain ⟨now, db, stage, statement, -, rfl⟩ := documentStep_cases stepped
    simp only [update_self]
    refine ⟨alone.1.step statement, alone.2.1, fun running => ?_⟩
    obtain still | ⟨-, -, rfl⟩ := alone.1.effect statement
    · exact quiet still (alone.2.2 fun returned => statement.running (returned ▸ trivial))
    · exact absurd rfl running
  · obtain ⟨now, -, rfl⟩ := List.mem_map.mp member
    exact holds now alone.2.1 alone.2.2

def plainSettings : PartnerSettings := ⟨none, none, false, none⟩

def workQuote (status : QuoteStatus) : QuoteRow where
  orgId := 1
  partnerId := 1
  quoteNumber := some "Q-1001"
  currencyCode := none
  terms := none
  lines := [⟨.oneTime, true, "Setup", 100, 1, false, none, none⟩]
  status := status
  taxRate := none
  expiryDate := none
  firstViewedAt := none
  viewedAt := none
  acceptedAt := none
  convertedAt := none
  convertedInvoiceId := none
  declinedAt := none
  declineReason := none

def workDraft (source : Option SourceId) : InvoiceRow where
  status := .draft
  invoiceNumber := none
  lines := [⟨source, false, "Labour", 1, 100, false, true, 10000, 0⟩]
  taxRate := none
  totals := ⟨10000, 0, 10000⟩
  balance := 10000
  notes := none
  voidedAt := none
  voidReason := none
  replacesInvoiceId := none
  replacedByInvoiceId := none

/-- The given quote and drafts, nothing numbered or billed, and calls that have not begun. -/
def beforeCalls (quote : QuoteRow) (drafts : ℕ → Option InvoiceRow) (calls : ℕ → BillingCall) : DocumentWorld where
  db := {
    quotes := fun _ => .unheld quote
    acceptances := fun _ => .unheld none
    contracts := fun _ => .unheld none
    invoices := fun
      | .existing n => .unheld (drafts n)
      | _ => .unheld none
    sources := fun _ => .unheld .notBilled
    sequences := fun _ => .unheld 0 }
  proc t := ⟨calls t, .start⟩

theorem unstarted_beforeCalls (quote : QuoteRow) (drafts : ℕ → Option InvoiceRow) (calls : ℕ → BillingCall) :
    Unstarted (beforeCalls quote drafts calls) where
  begun _ := rfl
  quotes _ := rfl
  acceptances _ := rfl
  contracts _ := rfl
  invoices i := by cases i <;> rfl
  unmade t i made := by
    cases i with
    | existing n => exact made.elim
    | _ => rfl
  sources _ := rfl
  sequences _ := rfl

def januaryNoon : Instant := ⟨⟨2026, 1, 15⟩, 43200000⟩

def statementsOf (t n : ℕ) : List (ℕ × BillingAction) := (List.replicate n januaryNoon).map fun now => (t, .exec now)

end RemudaRmm.Billing
