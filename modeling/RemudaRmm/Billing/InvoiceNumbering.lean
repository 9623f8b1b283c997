import RemudaRmm.Foundation.Numbering
import RemudaRmm.Billing.InvoiceStatements

/-! The numbers of a partner's invoices. `issueInvoice` and `acceptQuote` raise the counter of the year and write the
number in one transaction, but `issueInvoice` looks for a draft before it. Where it never writes over a number, the
numbers stay unique and gapless. -/
namespace RemudaRmm.Billing
open Foundation Function Option Row

theorem dash_notMem {t : Text} (digits : Digits t) : '-' ∉ t := by
  intro member
  exact absurd (digits '-' member) (by decide)

theorem interpolate_injective {a b : ℤ} (same : interpolate a = interpolate b) : a = b := by
  have plain : ∀ {m n : ℕ}, decimal m ≠ '-' :: decimal n :=
    fun {m n} clash => dash_notMem (digits_decimal m) (clash ▸ List.mem_cons_self)
  unfold interpolate at same
  split_ifs at same with first second
  · have sizes := congrArg number (List.cons.inj same).2
    simp only [number_decimal] at sizes
    omega
  · exact absurd same.symm plain
  · exact absurd same plain
  · have sizes := congrArg number same
    simp only [number_decimal] at sizes
    omega

theorem number_scheme (cfg : PartnerSettings) : Scheme cfg.number := by
  intro y k y' k' same
  have noDash : ∀ n, '-' ∉ padStart 4 (decimal n) := fun n => dash_notMem (digits_padStart 4 (digits_decimal n))
  obtain ⟨front, counter⟩ := append_last_sep_inj (noDash k) (noDash k') same
  have year := (List.cons.inj (List.append_cancel_left front)).2
  exact ⟨interpolate_injective year, padStart_injective counter⟩

def numberOf (v : Option InvoiceRow) : Option Text := v.bind InvoiceRow.invoiceNumber

def BillingDb.numbers (db : BillingDb) (i : InvoiceId) : Option Text := numberOf (db.invoices i).committed

def BillingDb.counters (db : BillingDb) (year : ℤ) : ℕ := (db.sequences year).committed

/-- The next statement of the call puts no number over another. -/
def Unnumbered (db : BillingDb) : BillingProc → Prop
  | ⟨.issueInvoice id, .totalled _ _ _ _ _⟩ => db.numbers id = none
  | _ => True

/-- Whenever `issueInvoice` writes a number, the invoice has none. -/
def IssuesUnnumbered (w : DocumentWorld) : ℕ × BillingAction → Prop
  | (_, .fail) => True
  | (t, .exec _) => Unnumbered w.db (w.proc t)

/-- The transaction's version of an invoice, if it has one, carries the committed number. -/
def KeepsNumber (t : ℕ) (r : Row ℕ (Option InvoiceRow)) : Prop :=
  ∀ v, r.held = some (t, v) → ∃ row, v = some row ∧ row.invoiceNumber = numberOf r.committed

/-- The transaction has raised the counter of the year, and no other. -/
structure Counting (sequences : Table ℤ ℕ ℕ) (t : ℕ) (year : ℤ) (counter : ℕ) : Prop where
  held : (sequences year).held = some (t, counter)
  next : counter = (sequences year).committed + 1
  only : ∀ y c, (sequences y).held = some (t, c) → y = year

section Phases
variable (cfg : PartnerSettings) (invoices : Table InvoiceId ℕ (Option InvoiceRow)) (sequences : Table ℤ ℕ ℕ) (t : ℕ)

structure Uncounted : Prop where
  unheld : ∀ y c, (sequences y).held ≠ some (t, c)
  keeps : ∀ i, KeepsNumber t (invoices i)

structure Allocated (year : ℤ) (counter : ℕ) : Prop where
  counting : Counting sequences t year counter
  keeps : ∀ i, KeepsNumber t (invoices i)

/-- The counter is raised and its number stands on one invoice that had none. -/
structure Renumbers (year : ℤ) (counter : ℕ) (id : InvoiceId) : Prop where
  counting : Counting sequences t year counter
  keeps : ∀ i ≠ id, KeepsNumber t (invoices i)
  row : ∃ row, (invoices id).held = some (t, some row) ∧ row.invoiceNumber = some (cfg.number year counter)
  blank : numberOf (invoices id).committed = none

def HoldsConverted : Prop := ∃ v, (invoices (.converted t)).held = some (t, v)

def Numbers : BillingStage → Prop
  | .numbered _ _ year counter | .totalled _ _ year counter _ => Allocated invoices sequences t year counter
  | .allocated _ year counter => Allocated invoices sequences t year counter ∧ HoldsConverted invoices t
  | .lining _ _ => Uncounted invoices sequences t ∧ HoldsConverted invoices t
  | .issued _ _ | .timeFlipped _ | .invoiced _ | .converted | .committing =>
    Uncounted invoices sequences t ∨ ∃ year counter id, Renumbers cfg invoices sequences t year counter id
  | _ => Uncounted invoices sequences t

end Phases

def BillingStage.Issuing : BillingStage → Prop
  | .loaded | .gathered _ _ | .timeChecked _ _ | .partsChecked _ _ | .numbered _ _ _ _ | .totalled _ _ _ _ _ => True
  | _ => False

structure Numbering (cfg : PartnerSettings) (w : DocumentWorld) : Prop where
  fresh : Fresh w
  calls : ∀ t, Numbers cfg w.db.invoices w.db.sequences t (w.proc t).stage
  present : ∀ t id, (w.proc t).call = .issueInvoice id → (w.proc t).stage.Issuing → (w.db.invoices id).read t ≠ none
  gapless : Gapless cfg.number w.db.numbers w.db.counters

section Rows
variable {t u : ℕ} {r next : Row ℕ (Option InvoiceRow)}

theorem KeepsNumber.read (keeps : KeepsNumber t r) : numberOf (r.read t) = numberOf r.committed := by
  refine read_rule (P := fun v => numberOf v = numberOf r.committed) rfl fun v held => ?_
  obtain ⟨row, rfl, number⟩ := keeps v held
  exact number

theorem KeepsNumber.write {row : InvoiceRow} (number : row.invoiceNumber = numberOf r.committed) :
    KeepsNumber t (r.write t (some row)) := by
  intro v held
  rw [held_write, Option.some.injEq, Prod.mk.injEq] at held
  exact ⟨row, held.2.symm, number⟩

theorem KeepsNumber.transfer (keeps : KeepsNumber u r) (still : r.Undisturbed u next) : KeepsNumber u next := by
  intro v held
  have before := (still.kept v).mp held
  rw [still.committed v before]
  exact keeps v before

end Rows

section Transfer
variable {cfg : PartnerSettings} {db next : BillingDb} {u : ℕ} (still : db.Undisturbed u next)
variable {year : ℤ} {counter : ℕ}

include still

theorem Counting.transfer (counting : Counting db.sequences u year counter) :
    Counting next.sequences u year counter where
  held := ((still.sequences year).kept counter).mpr counting.held
  next := by
    rw [(still.sequences year).committed counter counting.held]
    exact counting.next
  only y c held := counting.only y c (((still.sequences y).kept c).mp held)

theorem Uncounted.transfer (uncounted : Uncounted db.invoices db.sequences u) :
    Uncounted next.invoices next.sequences u where
  unheld y c held := uncounted.unheld y c (((still.sequences y).kept c).mp held)
  keeps i := (uncounted.keeps i).transfer (still.invoices i)

theorem Allocated.transfer (allocated : Allocated db.invoices db.sequences u year counter) :
    Allocated next.invoices next.sequences u year counter where
  counting := allocated.counting.transfer still
  keeps i := (allocated.keeps i).transfer (still.invoices i)

theorem Renumbers.transfer {id : InvoiceId} (renumbers : Renumbers cfg db.invoices db.sequences u year counter id) :
    Renumbers cfg next.invoices next.sequences u year counter id where
  counting := renumbers.counting.transfer still
  keeps i other := (renumbers.keeps i other).transfer (still.invoices i)
  row := by
    obtain ⟨row, held, number⟩ := renumbers.row
    exact ⟨row, ((still.invoices id).kept _).mpr held, number⟩
  blank := by
    obtain ⟨row, held, -⟩ := renumbers.row
    rw [(still.invoices id).committed _ held]
    exact renumbers.blank

theorem HoldsConverted.transfer (holds : HoldsConverted db.invoices u) : HoldsConverted next.invoices u := by
  obtain ⟨v, held⟩ := holds
  exact ⟨v, ((still.invoices _).kept v).mpr held⟩

theorem Numbers.transfer {stage : BillingStage} (numbers : Numbers cfg db.invoices db.sequences u stage) :
    Numbers cfg next.invoices next.sequences u stage := by
  have settled : (Uncounted db.invoices db.sequences u ∨
        ∃ year counter id, Renumbers cfg db.invoices db.sequences u year counter id) →
      Uncounted next.invoices next.sequences u ∨
        ∃ year counter id, Renumbers cfg next.invoices next.sequences u year counter id := by
    rintro (uncounted | ⟨year, counter, id, renumbers⟩)
    · exact .inl (uncounted.transfer still)
    · exact .inr ⟨year, counter, id, renumbers.transfer still⟩
  cases stage with
  | numbered times parts year counter | totalled times parts year counter totals =>
    exact Allocated.transfer still numbers
  | allocated acceptedAt year counter | lining acceptedAt rest =>
    exact ⟨numbers.1.transfer still, numbers.2.transfer still⟩
  | issued times parts | timeFlipped parts | invoiced acceptedAt | converted | committing => exact settled numbers
  | _ => exact Uncounted.transfer still numbers

end Transfer

section Own
variable {cfg : PartnerSettings} {db next : BillingDb} {t : ℕ} {now : Instant} {call : BillingCall}
variable {before stage : BillingStage} {id : InvoiceId}
variable {f : InvoiceRow → InvoiceRow}

theorem Uncounted.of_released (sequences : ∀ y c, (db.sequences y).held ≠ some (t, c))
    (invoices : ∀ i v, (db.invoices i).held ≠ some (t, v)) : Uncounted db.invoices db.sequences t :=
  ⟨sequences, fun i v held => absurd held (invoices i v)⟩

theorem keeps_setInvoice (keeps : ∀ i, KeepsNumber t (db.invoices i)) {row : InvoiceRow}
    (number : row.invoiceNumber = db.numbers id) (i : InvoiceId) :
    KeepsNumber t ((db.setInvoice t id row).invoices i) := by
  by_cases same : i = id
  · subst same
    rw [BillingDb.invoices_setInvoice_self]
    exact KeepsNumber.write number
  · rw [BillingDb.invoices_setInvoice_of_ne same]
    exact keeps i

theorem Uncounted.updated (uncounted : Uncounted db.invoices db.sequences t) (updated : UpdatedInvoice t db id f next)
    (same : ∀ row, (f row).invoiceNumber = row.invoiceNumber) : Uncounted next.invoices next.sequences t := by
  obtain ⟨free, ⟨row, seen, rfl⟩ | ⟨-, rfl⟩⟩ := updated
  · refine ⟨uncounted.unheld, keeps_setInvoice uncounted.keeps ?_⟩
    have number := (uncounted.keeps id).read
    rw [seen] at number
    exact (same row).trans number
  · exact uncounted

theorem HoldsConverted.updated (holds : HoldsConverted db.invoices t)
    (updated : UpdatedInvoice t db (.converted t) f next) : HoldsConverted next.invoices t := by
  obtain ⟨free, ⟨row, -, rfl⟩ | ⟨-, rfl⟩⟩ := updated
  · exact ⟨some (f row), by rw [BillingDb.invoices_setInvoice_self, held_write]⟩
  · exact holds

theorem Uncounted.allocate (uncounted : Uncounted db.invoices db.sequences t) (year : ℤ) :
    Allocated db.invoices (Table.write t year ((db.sequences year).read t + 1) db.sequences) t year
      ((db.sequences year).read t + 1) where
  counting := {
    held := by rw [Table.write_self, held_write]
    next := by rw [Table.committed_write, read_of_not_held (uncounted.unheld year)]
    only := by
      intro y c held
      by_contra other
      rw [Table.write_of_ne other] at held
      exact uncounted.unheld y c held }
  keeps := uncounted.keeps

theorem Allocated.renumber {year : ℤ} {counter : ℕ} (allocated : Allocated db.invoices db.sequences t year counter)
    (blank : db.numbers id = none) (present : (db.invoices id).read t ≠ none) (updated : UpdatedInvoice t db id f next)
    (number : ∀ row, (f row).invoiceNumber = some (cfg.number year counter)) :
    Renumbers cfg next.invoices next.sequences t year counter id := by
  obtain ⟨free, ⟨row, seen, rfl⟩ | ⟨gone, rfl⟩⟩ := updated
  · refine ⟨allocated.counting, fun i other => ?_, ⟨f row, ?_, number row⟩, ?_⟩
    · rw [BillingDb.invoices_setInvoice_of_ne other]
      exact allocated.keeps i
    · rw [BillingDb.invoices_setInvoice_self, held_write]
    · rw [BillingDb.invoices_setInvoice_self, committed_write]
      exact blank
  · exact absurd gone present

theorem Uncounted.rollback : Uncounted (db.rollback t).invoices (db.rollback t).sequences t :=
  .of_released (fun _ v => not_held_rollback t v _) fun _ v => not_held_rollback t v _

theorem Uncounted.commit : Uncounted (db.commit t).invoices (db.commit t).sequences t :=
  .of_released (fun _ v => not_held_commit t v _) fun _ v => not_held_commit t v _

theorem Numbers.own (numbers : Numbers cfg db.invoices db.sequences t before)
    (blank : ¬stage.Ended → Unnumbered db ⟨call, before⟩)
    (unmade : ∀ i : InvoiceId, i.MadeBy t → before ≠ .returned → (db.invoices i).committed = none)
    (present : ∀ id, call = .issueInvoice id → before.Issuing → (db.invoices id).read t ≠ none)
    (statement : DocumentStatement cfg t now db call before next stage) :
    Numbers cfg next.invoices next.sequences t stage := by
  cases statement with
  | failed running e => exact Uncounted.rollback
  | committed => exact Uncounted.commit
  | numbered free => exact Uncounted.allocate numbers _
  | issued taxRate updated =>
    exact .inr ⟨_, _, _, Allocated.renumber numbers (blank id) (present _ rfl trivial) updated fun _ => rfl⟩
  | voided updated | linked updated | parentsCloned updated => exact Uncounted.updated numbers updated fun _ => rfl
  | partsReleased free =>
    split_ifs
    · exact numbers
    · exact .inl numbers
  | drafted =>
    refine ⟨Uncounted.unheld numbers, keeps_setInvoice (Uncounted.keeps numbers) ?_⟩
    rw [BillingDb.numbers, unmade (.reissued t) rfl nofun]
    rfl
  | childrenCloned updated => exact .inl (Uncounted.updated numbers updated fun _ => rfl)
  | invoiceDrafted quote rest =>
    refine ⟨⟨Uncounted.unheld numbers, keeps_setInvoice (Uncounted.keeps numbers) ?_⟩, ?_⟩
    · rw [BillingDb.numbers, unmade (.converted t) rfl nofun]
      rfl
    · exact ⟨_, by rw [BillingDb.invoices_setInvoice_self, held_write]⟩
  | lined updated => exact ⟨numbers.1.updated updated fun _ => rfl, numbers.2.updated updated⟩
  | leftDraft totals updated => exact .inl (numbers.1.updated updated fun _ => rfl)
  | allocated free => exact ⟨numbers.1.allocate _, numbers.2⟩
  | autoIssued totals updated =>
    have blank : db.numbers (.converted t) = none := by
      rw [BillingDb.numbers, unmade (.converted t) rfl nofun]
      rfl
    obtain ⟨v, held⟩ := numbers.2
    obtain ⟨row, rfl, -⟩ := numbers.1.keeps _ v held
    exact .inr ⟨_, _, _, numbers.1.renumber blank (read_of_held held ▸ nofun) updated fun _ => rfl⟩
  | viewed free firstViewedAt | declined free | swept each => exact .inl numbers
  | _ => exact numbers

theorem present_own (present : ∀ id, call = .issueInvoice id → before.Issuing → (db.invoices id).read t ≠ none)
    (statement : DocumentStatement cfg t now db call before next stage) (issues : call = .issueInvoice id)
    (inside : stage.Issuing) : (next.invoices id).read t ≠ none := by
  subst issues
  cases statement with
  | draftLoaded seen draft => exact seen ▸ nofun
  | _ => first | exact inside.elim | exact present id rfl trivial

end Own

section Step
variable {cfg : PartnerSettings} {w : DocumentWorld} {t : ℕ} {now : Instant} {next : BillingDb} {stage : BillingStage}

theorem Counting.commit {year : ℤ} {counter : ℕ} (counting : Counting w.db.sequences t year counter) :
    (w.db.commit t).counters = update w.db.counters year (w.db.counters year + 1) := by
  funext y
  by_cases same : y = year
  · subst same
    rw [update_self]
    exact (read_of_held counting.held).trans counting.next
  · rw [update_of_ne same]
    exact read_of_not_held fun c held => same (counting.only y c held)

theorem Renumbers.commit {year : ℤ} {counter : ℕ} {id : InvoiceId}
    (renumbers : Renumbers cfg w.db.invoices w.db.sequences t year counter id) :
    (w.db.commit t).numbers = update w.db.numbers id (some (cfg.number year counter)) := by
  funext i
  by_cases same : i = id
  · subst same
    obtain ⟨row, held, number⟩ := renumbers.row
    rw [update_self]
    exact (congrArg numberOf (read_of_held held)).trans number
  · rw [update_of_ne same]
    exact (renumbers.keeps i same).read

theorem Numbering.gapless_commit (numbering : Numbering cfg w) (last : (w.proc t).stage = .committing) :
    Gapless cfg.number (w.db.commit t).numbers (w.db.commit t).counters := by
  have numbers := numbering.calls t
  rw [last] at numbers
  obtain uncounted | ⟨year, counter, id, renumbers⟩ := numbers
  · have counters : (w.db.commit t).counters = w.db.counters :=
      funext fun y => read_of_not_held (uncounted.unheld y)
    have same : (w.db.commit t).numbers = w.db.numbers := funext fun i => (uncounted.keeps i).read
    rw [counters, same]
    exact numbering.gapless
  · rw [renumbers.commit, renumbers.counting.commit, renumbers.counting.next]
    exact numbering.gapless.issue (number_scheme cfg) renumbers.blank

theorem Numbering.present_commit (numbering : Numbering cfg w) (last : (w.proc t).stage = .committing)
    {i : InvoiceId} (present : (w.db.invoices i).committed ≠ none) : (w.db.invoices i).read t ≠ none := by
  have numbers := numbering.calls t
  rw [last] at numbers
  refine read_rule (P := fun v => v ≠ none) present fun v held => ?_
  have row : ∃ row, v = some row := by
    obtain uncounted | ⟨year, counter, id, renumbers⟩ := numbers
    · exact (uncounted.keeps i v held).imp fun _ both => both.1
    · by_cases same : i = id
      · subst same
        obtain ⟨row, mine, -⟩ := renumbers.row
        exact ⟨row, (Prod.mk.inj (some.inj (held.symm.trans mine))).2⟩
      · exact (renumbers.keeps i same v held).imp fun _ both => both.1
  obtain ⟨row, rfl⟩ := row
  exact nofun

theorem Numbering.present_other (numbering : Numbering cfg w)
    (statement : DocumentStatement cfg t now w.db (w.proc t).call (w.proc t).stage next stage) {u : ℕ} (other : u ≠ t)
    {i : InvoiceId} (present : (w.db.invoices i).read u ≠ none) : (next.invoices i).read u ≠ none := by
  obtain quiet | ⟨last, rfl, -⟩ := numbering.fresh.effect statement
  · rw [(quiet.keptInvoices u other i).read (quiet.invoices i)]
    exact present
  · rcases (w.db.invoices i).read_cases u with ⟨v, held, -⟩ | ⟨unheld, same⟩
    · have still := undisturbed_commit (t := t) (r := w.db.invoices i) other
      exact still.kept.read (still.committed v held) ▸ present
    · rw [same] at present
      have after : ((w.db.commit t).invoices i).read u = (w.db.invoices i).read t :=
        read_of_not_held fun v held => unheld v (held_commit_iff.mp held).1
      exact after ▸ numbering.present_commit last present

theorem Numbering.step {next : DocumentWorld} {e : ℕ × BillingAction} (numbering : Numbering cfg w)
    (unnumbered : IssuesUnnumbered w e) (stepped : documentStep cfg w e = some next) : Numbering cfg next := by
  obtain ⟨t, action⟩ := e
  obtain ⟨now, db, stage, statement, acts, rfl⟩ := documentStep_cases stepped
  have blank : ¬stage.Ended → Unnumbered w.db (w.proc t) := by
    intro goesOn
    obtain rfl | aborted := acts
    · exact unnumbered
    · exact absurd (aborted ▸ trivial) goesOn
  refine ⟨numbering.fresh.step statement, ?_, ?_, ?_⟩
  · refine (forall_update_iff _ fun u (p : BillingProc) => Numbers cfg db.invoices db.sequences u p.stage).mpr
      ⟨?_, fun u other => ?_⟩
    · exact (numbering.calls t).own blank (numbering.fresh.unmade t) (numbering.present t) statement
    · exact (numbering.calls u).transfer (numbering.fresh.undisturbed statement other)
  · refine (forall_update_iff _ fun u (p : BillingProc) => ∀ id, p.call = .issueInvoice id → p.stage.Issuing →
      (db.invoices id).read u ≠ none).mpr ⟨fun id => ?_, fun u other id issues inside => ?_⟩
    · exact present_own (numbering.present t) statement
    · exact numbering.present_other statement other (numbering.present u id issues inside)
  · obtain quiet | ⟨last, rfl, -⟩ := numbering.fresh.effect statement
    · have numbers : db.numbers = w.db.numbers := funext fun i => congrArg numberOf (quiet.invoices i)
      have counters : db.counters = w.db.counters := funext quiet.sequences
      simp only [numbers, counters]
      exact numbering.gapless
    · exact numbering.gapless_commit last

end Step

theorem Unstarted.numbering {cfg : PartnerSettings} {w : DocumentWorld} (unstarted : Unstarted w)
    (gapless : Gapless cfg.number w.db.numbers w.db.counters) : Numbering cfg w where
  fresh := unstarted.fresh
  calls t := by
    rw [unstarted.begun t]
    exact .of_released (fun y => not_held_of_none (unstarted.sequences y) t)
      fun i => not_held_of_none (unstarted.invoices i) t
  present t id _ inside := by
    rw [unstarted.begun t] at inside
    exact inside.elim
  gapless := gapless

/-- In every run in which `issueInvoice` writes its number only on invoices that have none, the numbers
of every year are one up to its counter, each on one invoice, in whatever state the run stops. -/
theorem numbering_gapless {cfg : PartnerSettings} {w next : DocumentWorld} {es : List (ℕ × BillingAction)}
    (unstarted : Unstarted w) (gapless : Gapless cfg.number w.db.numbers w.db.counters)
    (unnumbered : Meets (documentStep cfg) IssuesUnnumbered w es) (reach : run (documentStep cfg) w es = some next) :
    Gapless cfg.number next.db.numbers next.db.counters :=
  (run_invariant (fun _ _ _ numbering meets stepped => numbering.step meets stepped) (unstarted.numbering gapless)
    unnumbered reach).gapless

/-- Any number of issues of one draft, no invoice being numbered yet. -/
def oneDraft : DocumentWorld :=
  beforeCalls (workQuote .draft) (fun n => if n = 0 then some (workDraft none) else none)
    fun _ => .issueInvoice (.existing 0)

theorem unstarted_oneDraft : Unstarted oneDraft := unstarted_beforeCalls ..

theorem gapless_oneDraft : Gapless plainSettings.number oneDraft.db.numbers oneDraft.db.counters := by
  have blank : oneDraft.db.numbers = fun _ => none := by
    funext i
    cases i with
    | existing n =>
      cases n with
      | zero | succ n => rfl
    | _ => rfl
  rw [blank]
  exact .blank

/-- Both issues see the draft, and one then runs to its end before the other. -/
def bothSeeDraft : List (ℕ × BillingAction) := statementsOf 1 1 ++ statementsOf 0 10 ++ statementsOf 1 9

theorem unnumbered_issueInvoice {db : BillingDb} {p : BillingProc} {id : InvoiceId}
    (issues : p.call = .issueInvoice id) (blank : p.stage ≠ .returned → db.numbers id = none) : Unnumbered db p := by
  obtain ⟨_, stage⟩ := p
  obtain rfl := issues
  cases stage with
  | totalled times parts year counter totals => exact blank nofun
  | _ => trivial

theorem others_untouched {cfg : PartnerSettings} {w next : DocumentWorld} {es : List (ℕ × BillingAction)}
    {id i : InvoiceId} (issues : ∀ t, (w.proc t).call = .issueInvoice id) (other : i ≠ id)
    (unheld : (w.db.invoices i).held = none) (reach : run (documentStep cfg) w es = some next) :
    next.db.invoices i = w.db.invoices i := by
  have keep : ∀ s e s', ((∀ t, (s.proc t).call = .issueInvoice id) ∧ s.db.invoices i = w.db.invoices i) → True →
      documentStep cfg s e = some s' →
      (∀ t, (s'.proc t).call = .issueInvoice id) ∧ s'.db.invoices i = w.db.invoices i := by
    rintro s ⟨t, action⟩ s' ⟨issues, same⟩ - stepped
    obtain ⟨now, db, stage, statement, -, rfl⟩ := documentStep_cases stepped
    refine ⟨(forall_update_iff _ fun _ (p : BillingProc) => p.call = .issueInvoice id).mpr
      ⟨issues t, fun u _ => issues u⟩, ?_⟩
    rw [issues t] at statement
    have quiet : (s.db.invoices i).held = none := same ▸ unheld
    generalize (s.proc t).stage = before at statement
    cases statement with
    | failed running e => exact (rollback_of_quiet quiet t).trans same
    | committed => exact (commit_of_quiet quiet t).trans same
    | issued taxRate updated =>
      obtain ⟨-, ⟨row, -, rfl⟩ | ⟨-, rfl⟩⟩ := updated
      · exact (BillingDb.invoices_setInvoice_of_ne other).trans same
      · exact same
    | _ => exact same
  have idle : Meets (documentStep cfg) (fun _ _ => True) w es :=
    Meets.of_invariant (fun _ => True) (fun _ _ _ _ _ _ => trivial) (fun _ _ _ _ => trivial) trivial
  exact (run_invariant keep ⟨issues, rfl⟩ idle reach).2

theorem numbering_gapless_single : ∃ next, run (documentStep plainSettings) oneDraft (statementsOf 0 10) = some next ∧
    next.db.counters 2026 = 1 ∧ Gapless plainSettings.number next.db.numbers next.db.counters := by
  have outcome : (run (documentStep plainSettings) oneDraft (statementsOf 0 10)).map
      (fun next => next.db.counters 2026) = some 1 := by decide +kernel
  obtain ⟨next, reach, counter⟩ := map_eq_some_iff.mp outcome
  have unnumbered : Meets (documentStep plainSettings) IssuesUnnumbered oneDraft (statementsOf 0 10) :=
    unstarted_oneDraft.fresh.meets_alone (fun db => db.numbers (.existing 0) = none)
      (fun quiet blank => (congrArg numberOf (quiet.invoices _)).trans blank)
      (fun _ issues blank => unnumbered_issueInvoice issues blank) rfl rfl _
  exact ⟨next, reach, counter, numbering_gapless unstarted_oneDraft gapless_oneDraft unnumbered reach⟩

/-- Two issues of one draft use up two counters, and the first number is on no invoice. -/
theorem numbering_gap : ∃ next, Unstarted oneDraft ∧
    Gapless plainSettings.number oneDraft.db.numbers oneDraft.db.counters ∧
    run (documentStep plainSettings) oneDraft bothSeeDraft = some next ∧
    (∀ t, (next.proc t).stage = .start ∨ (next.proc t).stage = .returned) ∧
    next.db.counters 2026 = 2 ∧ (∀ i, next.db.numbers i ≠ some (plainSettings.number 2026 1)) ∧
    ¬Gapless plainSettings.number next.db.numbers next.db.counters := by
  have outcome : (run (documentStep plainSettings) oneDraft bothSeeDraft).map (fun next =>
      (next.db.counters 2026, next.db.numbers (.existing 0), (next.proc 0).stage, (next.proc 1).stage)) =
      some (2, some (plainSettings.number 2026 2), .returned, .returned) := by rfl
  obtain ⟨next, reach, seen⟩ := map_eq_some_iff.mp outcome
  simp only [Prod.mk.injEq] at seen
  obtain ⟨counter, number, first, second⟩ := seen
  have missing : ∀ i, next.db.numbers i ≠ some (plainSettings.number 2026 1) := by
    intro i
    by_cases drafted : i = .existing 0
    · rw [drafted, number]
      decide +kernel
    · have blank : (oneDraft.db.invoices i).committed = none := by
        cases i with
        | existing n => exact if_neg fun zero => drafted (congrArg InvoiceId.existing zero)
        | _ => rfl
      rw [BillingDb.numbers, others_untouched (fun _ => rfl) drafted (unstarted_oneDraft.invoices i) reach, blank]
      exact nofun
  refine ⟨next, unstarted_oneDraft, gapless_oneDraft, reach, fun t => ?_, counter, missing, fun gapless => ?_⟩
  · by_cases zero : t = 0
    · exact .inr (zero ▸ first)
    · by_cases one : t = 1
      · exact .inr (one ▸ second)
      · refine .inl (congrArg BillingProc.stage (World.proc_run reach fun e member same => ?_))
        have two : ∀ e ∈ bothSeeDraft, e.1 = 0 ∨ e.1 = 1 := by decide
        obtain zeroth | oneth := two e member
        · exact zero (same.symm.trans zeroth)
        · exact one (same.symm.trans oneth)
  · obtain ⟨i, carried⟩ := gapless.mem_iff.mpr ⟨le_refl 1, by rw [counter]; decide⟩
    exact missing i carried

end RemudaRmm.Billing
