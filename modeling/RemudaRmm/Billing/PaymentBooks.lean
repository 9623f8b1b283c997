import RemudaRmm.Billing.PaymentRuns

/-! The cached money fields of an issued invoice against its payments, over any interleaving of `recordPayment` and
`voidPayment` calls whose plain reads do not overlap with another call between the same read and its end. -/
namespace RemudaRmm.Billing
open Foundation List Function PaymentDb

def PaymentProc.Paying (p : PaymentProc) : Prop :=
  (∃ input, p.call = .recordPayment input) ∧ p.stage ≠ .start ∧ ¬p.stage.Ended

def PaymentProc.Recomputing (p : PaymentProc) : Prop :=
  (∃ inv amountPaid, p.stage = .summed inv amountPaid) ∨ p.stage = .written

/-- No balance check while another payment stands between its own and its end, and no sum while
another call stands between its own and its end. -/
def SerialReads (w : PaymentWorld) : ℕ × PaymentAction → Prop
  | (_, .fail) => True
  | (t, .exec _) =>
    ((∃ input, (w.proc t).call = .recordPayment input) → (w.proc t).stage = .start →
      ∀ u ≠ t, ¬(w.proc u).Paying) ∧
    ((∃ inv, (w.proc t).stage = .invoiceRead inv) → ∀ u ≠ t, ¬(w.proc u).Recomputing)

structure SameHead (head row : MoneyRow) : Prop where
  total : row.total = head.total
  invoiceNumber : row.invoiceNumber = head.invoiceNumber
  dueDate : row.dueDate = head.dueDate
  voidedAt : row.voidedAt = head.voidedAt

/-- The cached columns are those of a paid sum, with the status it had at one of the times. -/
structure Agrees (times : Set Instant) (paid : ℤ) (row : MoneyRow) : Prop where
  amountPaid : row.amountPaid = paid
  balance : row.balance = row.total - row.amountPaid
  status : ∃ now ∈ times, row.status =
    deriveInvoiceStatus row.voidedAt.isSome row.invoiceNumber.isSome row.total row.amountPaid row.dueDate now

theorem sameHead_recomputed {head row : MoneyRow} (same : SameHead head row) (inv : MoneyRow) (amountPaid : ℤ)
    (now : Instant) : SameHead head (recomputed inv amountPaid now row) :=
  ⟨same.total, same.invoiceNumber, same.dueDate, same.voidedAt⟩

theorem agrees_recomputed {times : Set Instant} {head inv row : MoneyRow} {now : Instant} (read : SameHead head inv)
    (same : SameHead head row) (inside : now ∈ times) (amountPaid : ℤ) :
    Agrees times amountPaid (recomputed inv amountPaid now row) := by
  refine ⟨rfl, ?_, now, inside, ?_⟩
  · simp only [recomputed, read.total, same.total]
  · simp only [recomputed, read.total, read.invoiceNumber, read.dueDate, read.voidedAt, same.total,
      same.invoiceNumber, same.dueDate, same.voidedAt]

section Invariant
variable (head : MoneyRow) (times : Set Instant)

/-- What a call on its way to change the payments may rely on. -/
def Ready (db : PaymentDb) : PaymentCall → Prop
  | .recordPayment input => db.paid + input.amount ≤ head.total
  | .voidPayment _ => True
  | .recordStripePayment _ => False

def Owes (db : PaymentDb) (t : ℕ) : PaymentCall → Prop
  | .recordPayment input => db.pending t = input.amount
  | .voidPayment _ => db.pending t ≤ 0
  | .recordStripePayment _ => False

def CallBooks (db : PaymentDb) (t : ℕ) (p : PaymentProc) : Prop :=
  match p.stage with
  | .start => db.Untouched t ∧ ∀ input, p.call ≠ .recordStripePayment input
  | .returned | .threw _ => db.Untouched t
  | .loaded => db.Untouched t ∧ Ready head db p.call
  | .changed => Owes db t p.call ∧ Ready head db p.call ∧ ∀ v, db.invoice.held ≠ some (t, v)
  | .invoiceRead inv =>
    Owes db t p.call ∧ Ready head db p.call ∧ (∀ v, db.invoice.held ≠ some (t, v)) ∧ SameHead head inv
  | .summed inv amountPaid =>
    Owes db t p.call ∧ Ready head db p.call ∧ (∀ v, db.invoice.held ≠ some (t, v)) ∧ SameHead head inv ∧
      amountPaid = db.paid + db.pending t
  | .written =>
    Owes db t p.call ∧ Ready head db p.call ∧ ∃ v, db.invoice.held = some (t, v) ∧ SameHead head v ∧
      Agrees times (db.paid + db.pending t) v
  | _ => False

/-- The payments that are recorded or about to be are worth something. -/
def PositiveRow (r : PaymentRow) : Prop :=
  (∀ p, r.committed = some p → 0 < p.amount) ∧ ∀ t p, r.held = some (t, some p) → 0 < p.amount

structure Books (w : PaymentWorld) : Prop where
  header : SameHead head w.db.invoice.committed
  agrees : Agrees times w.db.paid w.db.invoice.committed
  within : w.db.paid ≤ head.total
  positive : ∀ p ∈ w.db.payments, PositiveRow p.2
  calls : ∀ t, CallBooks head times w.db t (w.proc t)
  paying : World.Exclusive PaymentProc.Paying w.proc
  recomputing : World.Exclusive PaymentProc.Recomputing w.proc

end Invariant

section Step
variable {head : MoneyRow} {times : Set Instant}
variable {t : ℕ} {db next : PaymentDb} {now : Instant} {stage : PaymentStage} {w : PaymentWorld}

theorem PositiveRow.read {r : PaymentRow} (positive : PositiveRow r) {p : Payment}
    (seen : r.read t = some p) : 0 < p.amount := by
  refine Row.read_rule (P := fun v => v = some p → 0 < p.amount) (positive.1 p) ?_ seen
  rintro v mine rfl
  exact positive.2 t p mine

theorem PositiveRow.nonneg {r : PaymentRow} (positive : PositiveRow r) : 0 ≤ PaymentDb.amountOf r.committed := by
  cases row : r.committed with
  | none => exact le_rfl
  | some p => exact (positive.1 p row).le

theorem positive_insertPayment {q : Payment} (positive : ∀ p ∈ db.payments, PositiveRow p.2)
    (amount : 0 < q.amount) : ∀ p ∈ (db.insertPayment t q).payments, PositiveRow p.2 := by
  intro p listed
  obtain listed | listed := mem_append.mp listed
  · exact positive p listed
  · obtain rfl := mem_singleton.mp listed
    refine ⟨nofun, fun u v held => ?_⟩
    rw [Row.held_write, Option.some.injEq, Prod.mk.injEq, Option.some.injEq] at held
    exact held.2 ▸ amount

theorem positive_deletePayment {id : PaymentId} (positive : ∀ p ∈ db.payments, PositiveRow p.2) :
    ∀ p ∈ (db.deletePayment t id).payments, PositiveRow p.2 := by
  intro p listed
  obtain ⟨q, member, rfl⟩ := List.mem_map.mp listed
  by_cases named : q.1 = id
  · rw [if_pos named]
    exact ⟨(positive q member).1, fun u v held => nomatch (Prod.mk.inj (Option.some.inj held)).2⟩
  · rw [if_neg named]
    exact positive q member

theorem positive_commit (positive : ∀ p ∈ db.payments, PositiveRow p.2) :
    ∀ p ∈ (db.commit t).payments, PositiveRow p.2 := by
  intro p listed
  obtain ⟨q, member, rfl⟩ := List.mem_map.mp listed
  exact ⟨fun v seen => (positive q member).read seen,
    fun u v held => (positive q member).2 u v (Row.held_commit_iff.mp held).1⟩

theorem positive_rollback (positive : ∀ p ∈ db.payments, PositiveRow p.2) :
    ∀ p ∈ (db.rollback t).payments, PositiveRow p.2 := by
  intro p listed
  obtain ⟨q, member, rfl⟩ := List.mem_map.mp listed
  exact ⟨(positive q member).1, fun u v held => (positive q member).2 u v (Row.held_rollback_iff.mp held).1⟩

theorem PaymentStatement.positive {call : PaymentCall}
    {stage' : PaymentStage} (statement : PaymentStatement t now db call stage next stage')
    (positive : ∀ p ∈ db.payments, PositiveRow p.2) : ∀ p ∈ next.payments, PositiveRow p.2 := by
  cases statement with
  | undone early e => exact positive_rollback positive
  | inserted amount | captured amount => exact positive_insertPayment positive amount
  | deleted mapping free => exact positive_deletePayment positive
  | committed => exact positive_commit positive
  | _ => exact positive

theorem CallBooks.transfer {p : PaymentProc} (books : CallBooks head times db t p)
    (same : PaymentDb.Undisturbed t db next) (fits : p.Paying → next.paid ≤ db.paid)
    (sum : p.Recomputing → next.paid = db.paid) : CallBooks head times next t p := by
  obtain ⟨call, stage⟩ := p
  have owes : Owes db t call → Owes next t call := by
    cases call with
    | recordPayment input => exact same.pending.trans
    | voidPayment paymentId => exact same.pending.trans_le
    | recordStripePayment input => exact id
  have ready : stage ≠ .start → ¬stage.Ended → Ready head db call → Ready head next call := by
    intro begun running
    cases call with
    | recordPayment input => exact (add_le_add_left (fits ⟨⟨input, rfl⟩, begun, running⟩) _).trans
    | voidPayment paymentId | recordStripePayment input => exact id
  have unheld : (∀ v, db.invoice.held ≠ some (t, v)) → ∀ v, next.invoice.held ≠ some (t, v) :=
    fun free v mine => free v ((same.invoice v).mp mine)
  cases stage with
  | start => exact ⟨same.untouched books.1, books.2⟩
  | loaded => exact ⟨same.untouched books.1, ready nofun id books.2⟩
  | changed => exact ⟨owes books.1, ready nofun id books.2.1, unheld books.2.2⟩
  | invoiceRead inv => exact ⟨owes books.1, ready nofun id books.2.1, unheld books.2.2.1, books.2.2.2⟩
  | summed inv amountPaid =>
    obtain ⟨owed, fit, free, read, total⟩ := books
    refine ⟨owes owed, ready nofun id fit, unheld free, read, ?_⟩
    rw [total, same.pending, sum (.inl ⟨inv, amountPaid, rfl⟩)]
  | written =>
    obtain ⟨owed, fit, v, held, head, agrees⟩ := books
    refine ⟨owes owed, ready nofun id fit, v, (same.invoice v).mpr held, head, ?_⟩
    rw [same.pending, sum (.inr rfl)]
    exact agrees
  | returned | threw e => exact same.untouched books
  | mapped m | checked | refused | inserted => exact books

theorem Books.own (books : Books head times w) (inside : now ∈ times)
    (statement : PaymentStatement t now w.db (w.proc t).call (w.proc t).stage next stage) :
    CallBooks head times next t ⟨(w.proc t).call, stage⟩ := by
  have mine := books.calls t
  have agrees := books.agrees
  have header := books.header
  have positive := books.positive
  generalize w.proc t = p at statement mine
  obtain ⟨call, before⟩ := p
  simp only at statement
  cases statement with
  | rejected e | alreadyLinked seen linked => exact mine.1
  | undone early e => exact untouched_rollback
  | admitted within =>
    refine ⟨mine.1, ?_⟩
    rw [Row.read_of_not_held mine.1.invoice, agrees.balance, agrees.amountPaid, header.total] at within
    exact le_sub_iff_add_le'.mp within
  | inserted amount =>
    refine ⟨?_, ?_, mine.1.invoice⟩
    · rw [Owes, pending_insertPayment_self, mine.1.pending, zero_add]
    · rw [Ready, paid_insertPayment]
      exact mine.2
  | found => exact ⟨mine.1, trivial⟩
  | deleted mapping free =>
    refine ⟨?_, trivial, mine.1.invoice⟩
    exact pending_deletePayment_self (fun p listed => (positive p listed).nonneg) mine.1.payments
  | unlinked seen none => exact mine.2 _ rfl
  | refused refusal | accepted passed | captured amount => exact mine
  | markedFailed free | linked free => exact mine.elim
  | invoiceRead =>
    refine ⟨mine.1, mine.2.1, mine.2.2, ?_⟩
    rw [Row.read_of_not_held mine.2.2]
    exact header
  | summed => exact ⟨mine.1, mine.2.1, mine.2.2.1, mine.2.2.2, paidSeenBy_eq⟩
  | updated free =>
    obtain ⟨owed, fit, unheld, read, rfl⟩ := mine
    rw [Row.read_of_not_held unheld]
    exact ⟨owed, fit, _, rfl, sameHead_recomputed header _ _ _, agrees_recomputed read header inside _⟩
  | committed => exact untouched_commit

theorem PaymentStatement.paying {call : PaymentCall}
    {stage' : PaymentStage} (statement : PaymentStatement t now db call stage next stage')
    (pays : PaymentProc.Paying ⟨call, stage'⟩) :
    PaymentProc.Paying ⟨call, stage⟩ ∨ ((∃ input, call = .recordPayment input) ∧ stage = .start) := by
  obtain ⟨isPayment, -, running⟩ := pays
  by_cases begins : stage = .start
  · exact .inr ⟨isPayment, begins⟩
  · refine .inl ⟨isPayment, begins, ?_⟩
    cases statement <;> first | exact id | exact absurd trivial running

theorem Books.recomputes (books : Books head times w)
    (statement : PaymentStatement t now w.db (w.proc t).call (w.proc t).stage next stage)
    (sums : PaymentProc.Recomputing ⟨(w.proc t).call, stage⟩) :
    (w.proc t).Recomputing ∨ ∃ inv, (w.proc t).stage = .invoiceRead inv := by
  have mine := books.calls t
  unfold PaymentProc.Recomputing at sums ⊢
  generalize w.proc t = p at statement mine sums ⊢
  obtain ⟨call, before⟩ := p
  simp only at statement sums ⊢
  cases statement with
  | summed => exact .inr ⟨_, rfl⟩
  | updated free => exact .inl (.inl ⟨_, _, rfl⟩)
  | markedFailed free => exact mine.elim
  | _ => simp only [reduceCtorEq, exists_false, or_self] at sums

theorem Books.settlement (books : Books head times w) (last : (w.proc t).stage = .written) :
    SameHead head (w.db.commit t).invoice.committed ∧
      Agrees times (w.db.commit t).paid (w.db.commit t).invoice.committed ∧ (w.db.commit t).paid ≤ head.total ∧
      ((w.proc t).Paying ∨ (w.db.commit t).paid ≤ w.db.paid) := by
  have mine := books.calls t
  have within := books.within
  generalize w.proc t = p at mine last ⊢
  obtain ⟨call, stage⟩ := p
  obtain rfl : stage = .written := last
  obtain ⟨owed, fits, v, held, header, agrees⟩ := mine
  have committed : (w.db.commit t).invoice.committed = v := Row.read_of_held held
  rw [committed, paid_commit]
  refine ⟨header, agrees, ?_⟩
  cases call with
  | recordPayment input => exact ⟨owed ▸ fits, .inl ⟨⟨input, rfl⟩, nofun, id⟩⟩
  | voidPayment paymentId =>
    have less : w.db.paid + w.db.pending t ≤ w.db.paid := add_le_of_nonpos_right owed
    exact ⟨less.trans within, .inr less⟩
  | recordStripePayment input => exact owed.elim

theorem Books.exec (books : Books head times w) (inside : now ∈ times) (serial : SerialReads w (t, .exec now))
    (statement : PaymentStatement t now w.db (w.proc t).call (w.proc t).stage db stage) :
    Books head times ⟨db, update w.proc t ⟨(w.proc t).call, stage⟩⟩ := by
  have own := books.own inside statement
  have positive := statement.positive books.positive
  have paying := books.paying.update fun pays u other => by
    obtain before | ⟨isPayment, begins⟩ := statement.paying pays
    · exact books.paying t u other.symm before
    · exact serial.1 isPayment begins u other
  have recomputing := books.recomputing.update fun sums u other => by
    obtain before | reads := books.recomputes statement sums
    · exact books.recomputing t u other.symm before
    · exact serial.2 reads u other
  obtain ⟨paid, invoice⟩ | ⟨last, rfl, rfl⟩ := statement.settles
  · refine ⟨invoice ▸ books.header, ?_, paid ▸ books.within, positive, ?_, paying, recomputing⟩
    · simp only [paid, invoice]
      exact books.agrees
    · refine (forall_update_iff _ fun u p => CallBooks head times db u p).mpr ⟨own, fun u other => ?_⟩
      exact (books.calls u).transfer (statement.undisturbed other) (fun _ => paid.le) fun _ => paid
  · obtain ⟨header, agrees, within, pays⟩ := books.settlement last
    refine ⟨header, agrees, within, positive, ?_, paying, recomputing⟩
    refine (forall_update_iff _ fun u p => CallBooks head times (w.db.commit t) u p).mpr ⟨own, fun u other => ?_⟩
    refine (books.calls u).transfer (statement.undisturbed other) (fun alsoPays => ?_) fun sums => ?_
    · exact pays.resolve_left fun mine => books.paying t u other.symm mine alsoPays
    · exact absurd sums (books.recomputing t u other.symm (.inr last))

theorem Books.fail (books : Books head times w) :
    Books head times ⟨w.db.rollback t, update w.proc t ⟨(w.proc t).call, .threw .aborted⟩⟩ := by
  have paid : (w.db.rollback t).paid = w.db.paid := paid_rollback
  refine ⟨books.header, ?_, ?_, positive_rollback books.positive, ?_, ?_, ?_⟩
  · exact paid.symm ▸ books.agrees
  · exact paid.symm ▸ books.within
  · refine (forall_update_iff _ fun u p => CallBooks head times (w.db.rollback t) u p).mpr
      ⟨untouched_rollback, fun u other => ?_⟩
    exact (books.calls u).transfer (undisturbed_rollback other) (fun _ => paid.le) fun _ => paid
  · exact books.paying.update fun pays => absurd trivial pays.2.2
  · refine books.recomputing.update fun sums => ?_
    simp only [PaymentProc.Recomputing, reduceCtorEq, exists_false, or_self] at sums

theorem Books.step {next : PaymentWorld} {e : ℕ × PaymentAction} (books : Books head times w)
    (serial : SerialReads w e) (inside : ∀ now, e.2 = .exec now → now ∈ times)
    (stepped : paymentStep w e = some next) : Books head times next := by
  obtain ⟨t, action⟩ := e
  obtain ⟨now, db, stage, rfl, statement, rfl⟩ | ⟨rfl, -, rfl⟩ := paymentStep_cases stepped
  · exact books.exec (inside now rfl) serial statement
  · exact books.fail

end Step

/-- The start of a run and the clock readings of its statements. -/
def runTimes (start : Instant) (es : List (ℕ × PaymentAction)) : Set Instant :=
  { now | now = start ∨ ∃ t, (t, PaymentAction.exec now) ∈ es }

/-- The cached columns of the committed invoice against its committed payments. -/
structure MoneyAgrees (times : Set Instant) (db : PaymentDb) : Prop where
  agrees : Agrees times db.paid db.invoice.committed
  nonneg : 0 ≤ db.invoice.committed.balance

/-- Any number of `recordPayment` and `voidPayment` calls, none begun and no row locked. -/
structure AboutToPay (w : PaymentWorld) : Prop where
  begun : ∀ t, (w.proc t).stage = .start
  manual : ∀ t input, (w.proc t).call ≠ .recordStripePayment input
  unlocked : ∀ t, w.db.Untouched t
  positive : ∀ p ∈ w.db.payments, ∀ payment, p.2.committed = some payment → 0 < payment.amount

theorem AboutToPay.books {w : PaymentWorld} {times : Set Instant} (ready : AboutToPay w)
    (before : MoneyAgrees times w.db) : Books w.db.invoice.committed times w where
  header := ⟨rfl, rfl, rfl, rfl⟩
  agrees := before.agrees
  within := by
    have room := before.nonneg
    rw [before.agrees.balance, before.agrees.amountPaid] at room
    exact sub_nonneg.mp room
  positive p listed := ⟨ready.positive p listed, fun t v held => absurd held ((ready.unlocked t).payments p listed _)⟩
  calls t := by
    rw [CallBooks, ready.begun t]
    exact ⟨ready.unlocked t, ready.manual t⟩
  paying t _ _ pays := absurd (ready.begun t) pays.2.1
  recomputing t _ _ sums := by
    simp only [PaymentProc.Recomputing, ready.begun t, reduceCtorEq, exists_false, or_self] at sums

/-- In every state of every run with serial reads the cached money fields of the invoice agree with
its payments, nothing is overpaid, and the status was derived at some time of the run. -/
theorem payments_agree {w next : PaymentWorld} {es : List (ℕ × PaymentAction)} (start : Instant)
    (ready : AboutToPay w) (before : MoneyAgrees {start} w.db) (serial : Meets paymentStep SerialReads w es)
    (reach : run paymentStep w es = some next) :
    next.db.invoice.committed.total = w.db.invoice.committed.total ∧ MoneyAgrees (runTimes start es) next.db := by
  have begin : MoneyAgrees (runTimes start es) w.db := by
    obtain ⟨⟨amountPaid, balance, now, here, status⟩, nonneg⟩ := before
    exact ⟨⟨amountPaid, balance, now, .inl here, status⟩, nonneg⟩
  have keep : ∀ s e next, Books w.db.invoice.committed (runTimes start es) s → SerialReads s e ∧ e ∈ es →
      paymentStep s e = some next → Books w.db.invoice.committed (runTimes start es) next := by
    intro s e next books meets stepped
    exact books.step meets.1 (fun now acts => .inr ⟨e.1, acts ▸ meets.2⟩) stepped
  have books := run_invariant keep (ready.books begin) (serial.and_mem fun _ member => member) reach
  refine ⟨books.header.total, books.agrees, ?_⟩
  rw [books.agrees.balance, books.agrees.amountPaid, books.header.total]
  exact sub_nonneg.mpr books.within

def PaymentProc.InFlight (p : PaymentProc) : Prop := p.stage ≠ .start ∧ ¬p.stage.Ended

def noon : Instant := ⟨⟨2026, 6, 1⟩, 43200000⟩

def sentInvoice : MoneyRow := ⟨.sent, some [], "USD", 10000, 0, 10000, none, none, none, none⟩

def eightyEach : PaymentWorld where
  db := ⟨.unheld sentInvoice, [], .unheld none⟩
  proc _ := ⟨.recordPayment ⟨8000, "check", none⟩, .start⟩

theorem aboutToPay_eightyEach : AboutToPay eightyEach where
  begun _ := rfl
  manual _ _ same := by cases same
  unlocked _ := ⟨fun _ listed => absurd listed not_mem_nil, fun _ held => by cases held⟩
  positive _ listed := absurd listed not_mem_nil

theorem moneyAgrees_eightyEach : MoneyAgrees {noon} eightyEach.db :=
  ⟨⟨rfl, rfl, noon, rfl, rfl⟩, by decide⟩

/-- Both calls check the balance before either has inserted its payment. -/
def bothCheckFirst : List (ℕ × PaymentAction) := [0, 1, 0, 1, 0, 0, 0, 0, 1, 1, 1, 1].map fun t => (t, .exec noon)

theorem serialReads_alone {w : PaymentWorld} {t : ℕ} (action : PaymentAction)
    (rest : ∀ u ≠ t, (w.proc u).stage = .start) : SerialReads w (t, action) := by
  cases action with
  | fail => trivial
  | exec now =>
    refine ⟨fun _ _ u other pays => pays.2.1 (rest u other), fun _ u other sums => ?_⟩
    simp only [PaymentProc.Recomputing, rest u other, reduceCtorEq, exists_false, or_self] at sums

theorem rest_of_two {w next : PaymentWorld} {ts : List ℕ} (begun : ∀ t, (w.proc t).stage = .start)
    (reach : run paymentStep w (ts.map fun t => (t, .exec noon)) = some next)
    (first : (next.proc 0).stage = .returned) (second : (next.proc 1).stage = .returned)
    (two : ∀ t ∈ ts, t = 0 ∨ t = 1) (t : ℕ) : ¬(next.proc t).InFlight := by
  intro flight
  by_cases moves : t ∈ ts
  · obtain rfl | rfl := two t moves
    · exact flight.2 (first ▸ trivial)
    · exact flight.2 (second ▸ trivial)
  · refine flight.1 ((congrArg PaymentProc.stage (World.proc_run reach fun e member same => ?_)).trans (begun t))
    obtain ⟨u, listed, rfl⟩ := List.mem_map.mp member
    exact moves (same ▸ listed)

theorem payments_agree_single : ∃ next,
    run paymentStep eightyEach ((List.replicate 6 (.exec noon)).map fun a => (0, a)) = some next ∧
    next.db.paid = 8000 ∧
    MoneyAgrees (runTimes noon ((List.replicate 6 (.exec noon)).map fun a => (0, a))) next.db := by
  have outcome : (run paymentStep eightyEach ((List.replicate 6 (.exec noon)).map fun a => (0, a))).map
      (fun next => next.db.paid) = some 8000 := by decide
  obtain ⟨next, reach, paid⟩ := Option.map_eq_some_iff.mp outcome
  have serial : Meets paymentStep SerialReads eightyEach ((List.replicate 6 (.exec noon)).map fun a => (0, a)) :=
    World.meets_alone (fun p => p.stage = .start) (fun _ a rest => serialReads_alone a rest)
      (fun u _ => aboutToPay_eightyEach.begun u) _
  exact ⟨next, reach, paid, (payments_agree noon aboutToPay_eightyEach moneyAgrees_eightyEach serial reach).2⟩

/-- Two payments of 80.00 that both pass the check on a balance of 100.00 leave it at -60.00. -/
theorem payments_overpay : ∃ next, AboutToPay eightyEach ∧ MoneyAgrees {noon} eightyEach.db ∧
    run paymentStep eightyEach bothCheckFirst = some next ∧ (∀ t, ¬(next.proc t).InFlight) ∧
    next.db.paid = 16000 ∧ next.db.invoice.committed.balance = -6000 := by
  have outcome : (run paymentStep eightyEach bothCheckFirst).map (fun next =>
      (next.db.paid, next.db.invoice.committed.balance, (next.proc 0).stage, (next.proc 1).stage)) =
      some (16000, -6000, .returned, .returned) := by decide
  obtain ⟨next, reach, seen⟩ := Option.map_eq_some_iff.mp outcome
  simp only [Prod.mk.injEq] at seen
  obtain ⟨paid, balance, first, second⟩ := seen
  exact ⟨next, aboutToPay_eightyEach, moneyAgrees_eightyEach, reach,
    rest_of_two (fun _ => rfl) reach first second (by decide), paid, balance⟩

end RemudaRmm.Billing
