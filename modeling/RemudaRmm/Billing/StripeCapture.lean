import RemudaRmm.Billing.PaymentBooks

/-! Runs of `recordStripePayment` calls for one Stripe object: webhook redelivery, verify-on-return and the reconcile
sweep. The mapping is read without a lock; where no other call stands between that read and its end, the charge is
recorded at most once. -/
namespace RemudaRmm.Billing
open Foundation List Function Row
variable {charge : ℤ} {w : PaymentWorld}

/-- A call reads the mapping only while no other call is in flight. -/
def MappingReadAlone (w : PaymentWorld) : ℕ × PaymentAction → Prop
  | (_, .fail) => True
  | (t, .exec _) => (w.proc t).stage = .start → ∀ u ≠ t, ¬(w.proc u).InFlight

def PaymentId.isCreated : PaymentId → Bool
  | .existing _ => false
  | .created _ => true

def liveRow (r : PaymentRow) : Bool := r.committed.isSome || r.held.any fun v => v.2.isSome

/-- The payments inserted for the object, committed or not, that have not been rolled back. -/
def captures (db : PaymentDb) : ℕ := db.payments.countP fun p => p.1.isCreated && liveRow p.2

/-- Any number of calls for one charge, none begun, no row locked and nothing inserted yet; the
balance of an invoice that can be paid is its total less its payments. -/
structure AboutToCapture (charge : ℤ) (w : PaymentWorld) : Prop where
  begun : ∀ t, (w.proc t).stage = .start
  calls : ∀ t, ∃ input, (w.proc t).call = .recordStripePayment input ∧ input.amount = charge
  invoice : w.db.invoice.held = none
  mapping : w.db.mapping.held = none
  payments : ∀ p ∈ w.db.payments, p.1.isCreated = false ∧ p.2.held = none
  balance : w.db.invoice.committed.status ≠ .draft → w.db.invoice.committed.status ≠ .void →
    w.db.invoice.committed.balance = w.db.invoice.committed.total - w.db.paid

section Invariant
variable (before : PaymentDb) (charge : ℤ)

/-- The payments as they were, with nothing in the place of the charge. -/
structure Clean (rows : List (PaymentId × PaymentRow)) : Prop where
  quiet : ∀ p ∈ rows, p.2.held = none
  vacant : ∀ p ∈ rows, p.1.isCreated = true → p.2.committed = none
  sum : (rows.map fun p => PaymentDb.amountOf p.2.committed).sum = before.paid

/-- Nothing is recorded and nothing is locked. -/
structure Unrecorded (db : PaymentDb) : Prop where
  rows : Clean before db.payments
  invoice : db.invoice = .unheld before.invoice.committed
  mapping : db.mapping.held = none
  link : db.mapping.committed.map Mapping.invoicePaymentId = before.mapping.committed.map Mapping.invoicePaymentId

/-- The charge is one payment, the mapping is linked and nothing is locked. -/
structure Recorded (db : PaymentDb) : Prop where
  rows : ∃ rows u p, db.payments = rows ++ [(.created u, .unheld (some p))] ∧ p.amount = charge ∧ Clean before rows
  invoice : db.invoice.held = none
  balance : db.invoice.committed.balance = before.invoice.committed.balance - charge
  mapping : db.mapping.held = none
  linked : ∃ m, db.mapping.committed = some m ∧ m.invoicePaymentId.isSome = true

/-- One call has inserted the payment and holds it. -/
structure Inserted (db : PaymentDb) (t : ℕ) : Prop where
  rows : ∃ rows p, db.payments = rows ++ [(.created t, (Row.unheld none).write t (some p))] ∧
    p.amount = charge ∧ Clean before rows
  link : db.mapping.committed.map Mapping.invoicePaymentId = before.mapping.committed.map Mapping.invoicePaymentId
  payable : before.invoice.committed.balance = before.invoice.committed.total - before.paid

def Unlinked (r : Row ℕ (Option Mapping)) : Prop := ∃ m, r.committed = some m ∧ m.invoicePaymentId = none

def LinkedBy (t : ℕ) (r : Row ℕ (Option Mapping)) : Prop :=
  ∃ m, r.held = some (t, some m) ∧ m.invoicePaymentId.isSome = true

def Flight (db : PaymentDb) (t : ℕ) : PaymentStage → Prop
  | .mapped _ | .refused => Unrecorded before db ∧ Unlinked db.mapping
  | .checked =>
    Unrecorded before db ∧ Unlinked db.mapping ∧
      before.invoice.committed.balance = before.invoice.committed.total - before.paid
  | .inserted =>
    Inserted before charge db t ∧ db.invoice = .unheld before.invoice.committed ∧ db.mapping.held = none ∧
      Unlinked db.mapping
  | .changed =>
    Inserted before charge db t ∧ db.invoice = .unheld before.invoice.committed ∧ LinkedBy t db.mapping
  | .invoiceRead inv =>
    Inserted before charge db t ∧ db.invoice = .unheld before.invoice.committed ∧ LinkedBy t db.mapping ∧
      inv = before.invoice.committed
  | .summed inv amountPaid =>
    Inserted before charge db t ∧ db.invoice = .unheld before.invoice.committed ∧ LinkedBy t db.mapping ∧
      inv = before.invoice.committed ∧ amountPaid = before.paid + charge
  | .written =>
    (Inserted before charge db t ∧ LinkedBy t db.mapping ∧ ∃ v, db.invoice = ⟨before.invoice.committed, some (t, v)⟩ ∧
      v.balance = before.invoice.committed.balance - charge) ∨
    (Clean before db.payments ∧ db.invoice = .unheld before.invoice.committed ∧
      db.mapping.committed.map Mapping.invoicePaymentId = before.mapping.committed.map Mapping.invoicePaymentId ∧
      ∃ m, db.mapping.held = some (t, some m) ∧ db.mapping.committed.map Mapping.invoicePaymentId =
        some m.invoicePaymentId ∧ m.status = .failed)
  | _ => False

/-- The mapping says that the charge is recorded or was refused. -/
def Marked (r : Row ℕ (Option Mapping)) : Prop :=
  ∃ m, r.committed = some m ∧ (m.invoicePaymentId.isSome = true ∨ m.status = .failed)

inductive Account (w : PaymentWorld) : Prop where
  | idle (rest : ∀ t, ¬(w.proc t).InFlight) (settled : Unrecorded before w.db ∨ Recorded before charge w.db)
  | busy (t : ℕ) (others : ∀ u ≠ t, ¬(w.proc u).InFlight) (flight : Flight before charge w.db t (w.proc t).stage)

/-- The account, with what the calls are and what those that returned leave on the mapping. -/
structure CaptureBooks (w : PaymentWorld) : Prop where
  account : Account before charge w
  calls : ∀ t, ∃ input, (w.proc t).call = .recordStripePayment input ∧ input.amount = charge
  told : ∀ t, (w.proc t).stage = .returned → Marked w.db.mapping

end Invariant

section Rows
variable {before : PaymentDb} {charge : ℤ} {rows : List (PaymentId × PaymentRow)} {t : ℕ}
variable {db : PaymentDb}

theorem Clean.commit (clean : Clean before rows) : rows.map (fun p => (p.1, p.2.commit t)) = rows := by
  refine (map_congr_left fun p listed => ?_).trans (List.map_id rows)
  rw [commit_of_quiet (clean.quiet p listed), id]

theorem Clean.rollback (clean : Clean before rows) : rows.map (fun p => (p.1, p.2.rollback t)) = rows := by
  refine (map_congr_left fun p listed => ?_).trans (List.map_id rows)
  rw [rollback_of_quiet (clean.quiet p listed), id]

theorem Clean.seen (clean : Clean before rows) :
    (rows.map fun p => PaymentDb.amountOf (p.2.read t)).sum = before.paid := by
  rw [← clean.sum]
  refine congrArg List.sum (map_congr_left fun p listed => ?_)
  rw [read_of_quiet (clean.quiet p listed)]

theorem Clean.concat (clean : Clean before rows) (id : PaymentId) : Clean before (rows ++ [(id, .unheld none)]) where
  quiet p listed := by
    obtain listed | listed := mem_append.mp listed
    · exact clean.quiet p listed
    · obtain rfl := mem_singleton.mp listed
      rfl
  vacant p listed created := by
    obtain listed | listed := mem_append.mp listed
    · exact clean.vacant p listed created
    · obtain rfl := mem_singleton.mp listed
      rfl
  sum := by
    rw [map_append, sum_append, clean.sum]
    exact add_zero before.paid

theorem Clean.countP (clean : Clean before rows) : (rows.countP fun p => p.1.isCreated && liveRow p.2) = 0 := by
  refine countP_eq_zero.mpr fun p listed live => ?_
  obtain ⟨created, live⟩ := Bool.and_eq_true_iff.mp live
  rw [liveRow, clean.quiet p listed, clean.vacant p listed created] at live
  cases live

theorem Unrecorded.captures (state : Unrecorded before db) : captures db = 0 := state.rows.countP

theorem Recorded.captures (state : Recorded before charge db) : captures db = 1 := by
  obtain ⟨rows, u, p, payments, -, clean⟩ := state.rows
  rw [Billing.captures, payments, countP_append, clean.countP]
  rfl

theorem Inserted.captures (state : Inserted before charge db t) : captures db = 1 := by
  obtain ⟨rows, p, payments, -, clean⟩ := state.rows
  rw [Billing.captures, payments, countP_append, clean.countP]
  rfl

theorem Inserted.paidSeenBy (state : Inserted before charge db t) : db.paidSeenBy t = before.paid + charge := by
  obtain ⟨rows, p, payments, amount, clean⟩ := state.rows
  rw [PaymentDb.paidSeenBy, payments, map_append, sum_append, clean.seen, map_singleton, sum_singleton, read_write]
  exact congrArg (before.paid + ·) amount

theorem Inserted.rollback (state : Inserted before charge db t) : Clean before (db.rollback t).payments := by
  obtain ⟨rows, p, payments, -, clean⟩ := state.rows
  have undone : (db.rollback t).payments = rows ++ [(.created t, .unheld none)] := by
    rw [PaymentDb.rollback, payments, map_append, clean.rollback, map_singleton, rollback_write, committed_unheld]
  rw [undone]
  exact clean.concat _

theorem Inserted.commit (state : Inserted before charge db t) :
    ∃ rows u p, (db.commit t).payments = rows ++ [(.created u, .unheld (some p))] ∧ p.amount = charge ∧
      Clean before rows := by
  obtain ⟨rows, p, payments, amount, clean⟩ := state.rows
  refine ⟨rows, t, p, ?_, amount, clean⟩
  rw [PaymentDb.commit, payments, map_append, clean.commit, map_singleton, commit_write]

end Rows

section Step
variable {before : PaymentDb} {charge : ℤ} {db next : PaymentDb} {t : ℕ} {stage stage' : PaymentStage}

theorem Unrecorded.rollback (state : Unrecorded before db) (t : ℕ) : db.rollback t = db := by
  rw [PaymentDb.rollback, state.rows.rollback, rollback_of_quiet state.mapping,
    rollback_of_quiet (congrArg Row.held state.invoice)]

theorem Recorded.rollback (state : Recorded before charge db) (t : ℕ) : db.rollback t = db := by
  obtain ⟨rows, u, p, payments, -, clean⟩ := state.rows
  rw [PaymentDb.rollback, rollback_of_quiet state.mapping, rollback_of_quiet state.invoice, payments,
    map_append, clean.rollback, map_singleton, rollback_unheld, ← payments]

theorem payable_of_accepted {input : CaptureInput} {inv : MoneyRow} {m : Mapping}
    (passed : refuses input inv m = false) : inv.status ≠ .draft ∧ inv.status ≠ .void := by
  simp only [refuses, Bool.or_eq_false_iff, beq_eq_false_iff_ne] at passed
  exact ⟨passed.1.1.1.1, passed.1.1.1.2⟩

theorem Flight.exec {now : Instant} {input : CaptureInput} (amount : input.amount = charge)
    (payable : before.invoice.committed.status ≠ .draft → before.invoice.committed.status ≠ .void →
      before.invoice.committed.balance = before.invoice.committed.total - before.paid)
    (flight : Flight before charge db t stage)
    (statement : PaymentStatement t now db (.recordStripePayment input) stage next stage') :
    (Flight before charge next t stage' ∧ next.mapping.committed = db.mapping.committed) ∨
      (stage'.Ended ∧ (Unrecorded before next ∨ Recorded before charge next) ∧
        (Marked next.mapping ∨ next.mapping.committed = db.mapping.committed ∧ stage' ≠ .returned)) := by
  cases statement with
  | rejected e | alreadyLinked seen linked | unlinked seen none => exact flight.elim
  | undone early e =>
    obtain rfl | rfl := early
    · exact flight.elim
    · rw [flight.1.rollback]
      exact .inr ⟨trivial, .inl flight.1, .inr ⟨rfl, nofun⟩⟩
  | refused refusal => exact .inl ⟨flight, rfl⟩
  | accepted passed =>
    rw [flight.1.invoice, read_of_quiet rfl] at passed
    obtain ⟨draft, void⟩ := payable_of_accepted passed
    exact .inl ⟨⟨flight.1, flight.2, payable draft void⟩, rfl⟩
  | captured positive =>
    obtain ⟨state, unlinked, balance⟩ := flight
    refine .inl ⟨⟨⟨⟨db.payments, _, rfl, amount, state.rows⟩, state.link, balance⟩, state.invoice, state.mapping,
      unlinked⟩, rfl⟩
  | markedFailed free =>
    obtain ⟨state, m, mapping, -⟩ := flight
    refine .inl ⟨.inr ⟨state.rows, state.invoice, state.link, { m with status := .failed }, ?_, ?_, rfl⟩, rfl⟩
    · rw [held_write, read_of_quiet state.mapping, mapping]
      rfl
    · rw [committed_write, mapping]
      rfl
  | linked free =>
    obtain ⟨inserted, invoice, quiet, m, mapping, -⟩ := flight
    refine .inl ⟨⟨⟨inserted.rows, inserted.link, inserted.payable⟩, invoice, { m with
      invoicePaymentId := some (.created t), status := .succeeded,
      stripePaymentIntentId := some input.stripePaymentIntentId }, ?_, rfl⟩, rfl⟩
    rw [held_write, read_of_quiet quiet, mapping]
    rfl
  | invoiceRead =>
    obtain ⟨inserted, invoice, linked⟩ := flight
    refine .inl ⟨⟨inserted, invoice, linked, ?_⟩, rfl⟩
    rw [invoice, read_of_quiet rfl, committed_unheld]
  | summed =>
    obtain ⟨inserted, invoice, linked, read⟩ := flight
    exact .inl ⟨⟨inserted, invoice, linked, read, inserted.paidSeenBy⟩, rfl⟩
  | updated free =>
    obtain ⟨inserted, invoice, linked, rfl, rfl⟩ := flight
    refine .inl ⟨.inl ⟨⟨inserted.rows, inserted.link, inserted.payable⟩, linked,
      recomputed before.invoice.committed (before.paid + charge) now (db.invoice.read t), ?_, ?_⟩, rfl⟩
    · rw [invoice]
      rfl
    · rw [recomputed, inserted.payable, sub_sub]
  | committed =>
    obtain ⟨inserted, ⟨m, held, linked⟩, v, invoice, balance⟩ | ⟨clean, invoice, link, m, held, same, failed⟩ := flight
    · have mapping : (db.commit t).mapping.committed = some m := read_of_held held
      refine .inr ⟨trivial, .inr ⟨inserted.commit, ?_, ?_, ?_, m, mapping, linked⟩, .inl ⟨m, mapping, .inl linked⟩⟩
      · rw [PaymentDb.commit, invoice]
        exact release_of_held (held_write t v (.unheld before.invoice.committed))
      · rw [PaymentDb.commit, invoice]
        exact (congrArg MoneyRow.balance (read_write t v (.unheld _))).trans balance
      · exact release_of_held held
    · have mapping : (db.commit t).mapping.committed = some m := read_of_held held
      refine .inr ⟨trivial, .inl ⟨?_, ?_, ?_, ?_⟩, .inl ⟨m, mapping, .inr failed⟩⟩
      · rw [PaymentDb.commit, clean.commit]
        exact clean
      · rw [PaymentDb.commit, invoice, commit_unheld]
      · exact release_of_held held
      · rw [mapping, ← link, same, Option.map_some]

theorem Inserted.unrecorded (inserted : Inserted before charge db t)
    (invoice : (db.rollback t).invoice = .unheld before.invoice.committed)
    (mapping : (db.rollback t).mapping.held = none) : Unrecorded before (db.rollback t) :=
  ⟨inserted.rollback, invoice, mapping, inserted.link⟩

theorem Inserted.free (inserted : Inserted before charge db t) : ∀ p ∈ db.payments, p.2.Free t := by
  obtain ⟨rows, p, payments, -, clean⟩ := inserted.rows
  rw [payments]
  intro q listed
  obtain listed | listed := mem_append.mp listed
  · exact free_of_quiet (clean.quiet q listed) t
  · obtain rfl := mem_singleton.mp listed
    exact free_of_held (held_write t (some p) (.unheld none))

theorem Flight.free (flight : Flight before charge db t stage) :
    db.invoice.Free t ∧ db.mapping.Free t ∧ ∀ p ∈ db.payments, p.2.Free t := by
  have unheld : ∀ {row : Row ℕ MoneyRow} {v : MoneyRow}, row = .unheld v → row.Free t :=
    fun same => free_of_quiet (congrArg Row.held same) t
  have unrecorded : Unrecorded before db → db.invoice.Free t ∧ db.mapping.Free t ∧ ∀ p ∈ db.payments, p.2.Free t :=
    fun state => ⟨unheld state.invoice, free_of_quiet state.mapping t,
      fun p listed => free_of_quiet (state.rows.quiet p listed) t⟩
  cases stage with
  | mapped m | refused | checked => exact unrecorded flight.1
  | inserted =>
    obtain ⟨inserted, invoice, quiet, -⟩ := flight
    exact ⟨unheld invoice, free_of_quiet quiet t, inserted.free⟩
  | changed =>
    obtain ⟨inserted, invoice, m, held, -⟩ := flight
    exact ⟨unheld invoice, free_of_held held, inserted.free⟩
  | invoiceRead inv | summed inv amountPaid =>
    obtain ⟨inserted, invoice, ⟨m, held, -⟩, -⟩ := flight
    exact ⟨unheld invoice, free_of_held held, inserted.free⟩
  | written =>
    obtain ⟨inserted, ⟨m, held, -⟩, v, invoice, -⟩ | ⟨clean, invoice, link, m, held, -, -⟩ := flight
    · exact ⟨free_of_held (congrArg Row.held invoice), free_of_held held, inserted.free⟩
    · exact ⟨unheld invoice, free_of_held held, fun p listed => free_of_quiet (clean.quiet p listed) t⟩
  | start | loaded | returned | threw e => exact flight.elim

theorem Flight.rollback_other {u : ℕ} (flight : Flight before charge db t stage) (other : u ≠ t) :
    db.rollback u = db := by
  obtain ⟨invoice, mapping, payments⟩ := flight.free
  have rows : db.payments.map (fun p => (p.1, p.2.rollback u)) = db.payments := by
    refine (map_congr_left fun p listed => ?_).trans (List.map_id db.payments)
    rw [rollback_of_free (payments p listed) other, id]
  rw [PaymentDb.rollback, rows, rollback_of_free invoice other, rollback_of_free mapping other]

theorem Flight.captures (flight : Flight before charge db t stage) : captures db ≤ 1 := by
  cases stage with
  | mapped m | refused | checked => exact flight.1.captures.trans_le zero_le_one
  | inserted | changed | invoiceRead inv | summed inv amountPaid => exact flight.1.captures.le
  | written =>
    obtain ⟨inserted, -⟩ | ⟨clean, -⟩ := flight
    · exact inserted.captures.le
    · exact clean.countP.trans_le zero_le_one
  | start | loaded | returned | threw e => exact flight.elim

theorem Flight.running (flight : Flight before charge db t stage) : stage ≠ .start ∧ ¬stage.Ended := by
  cases stage <;> first | exact flight.elim | exact ⟨nofun, id⟩

theorem Flight.fail (flight : Flight before charge db t stage) : Unrecorded before (db.rollback t) := by
  cases stage with
  | mapped m | refused | checked => exact (flight.1.rollback t).symm ▸ flight.1
  | inserted =>
    obtain ⟨inserted, invoice, quiet, -⟩ := flight
    refine inserted.unrecorded ?_ ?_
    · rw [PaymentDb.rollback, invoice, rollback_unheld]
    · rw [PaymentDb.rollback, rollback_of_quiet quiet, quiet]
  | changed =>
    obtain ⟨inserted, invoice, m, held, -⟩ := flight
    refine inserted.unrecorded ?_ (release_of_held held)
    rw [PaymentDb.rollback, invoice, rollback_unheld]
  | invoiceRead inv | summed inv amountPaid =>
    obtain ⟨inserted, invoice, ⟨m, held, -⟩, -⟩ := flight
    refine inserted.unrecorded ?_ (release_of_held held)
    rw [PaymentDb.rollback, invoice, rollback_unheld]
  | written =>
    obtain ⟨inserted, ⟨m, held, -⟩, v, invoice, -⟩ | ⟨clean, invoice, link, m, held, -, -⟩ := flight
    · refine inserted.unrecorded ?_ (release_of_held held)
      rw [PaymentDb.rollback, invoice]
      exact rollback_write t v (.unheld _)
    · refine ⟨?_, ?_, release_of_held held, link⟩
      · rw [PaymentDb.rollback, clean.rollback]
        exact clean
      · rw [PaymentDb.rollback, invoice, rollback_unheld]
  | start | loaded | returned | threw e => exact flight.elim

end Step

section System
variable {before : PaymentDb} {charge : ℤ} {w : PaymentWorld} {t : ℕ}
variable {stage : PaymentStage} {db : PaymentDb} {p : PaymentProc}

theorem calls_update (calls : ∀ t, ∃ input, (w.proc t).call = .recordStripePayment input ∧ input.amount = charge)
    (u : ℕ) :
    ∃ input, (update w.proc t ⟨(w.proc t).call, stage⟩ u).call = .recordStripePayment input ∧
      input.amount = charge := by
  by_cases moved : u = t
  · rw [moved, update_self]
    exact calls t
  · rw [update_of_ne moved]
    exact calls u

theorem told_update (told : ∀ t, (w.proc t).stage = .returned → Marked w.db.mapping)
    (effect : Marked db.mapping ∨ db.mapping.committed = w.db.mapping.committed ∧ p.stage ≠ .returned) (u : ℕ)
    (returned : (update w.proc t p u).stage = .returned) : Marked db.mapping := by
  obtain marked | ⟨same, unreturned⟩ := effect
  · exact marked
  · have other : u ≠ t := by
      rintro rfl
      rw [update_self] at returned
      exact unreturned returned
    rw [update_of_ne other] at returned
    rw [Marked, same]
    exact told u returned

theorem rest_update (others : ∀ u ≠ t, ¬(w.proc u).InFlight) (ended : p.stage.Ended) (u : ℕ) :
    ¬(update w.proc t p u).InFlight := by
  by_cases moved : u = t
  · rw [moved, update_self]
    exact fun flight => flight.2 ended
  · rw [update_of_ne moved]
    exact others u moved

theorem busy_update (others : ∀ u ≠ t, ¬(w.proc u).InFlight)
    (flight : Flight before charge db t p.stage) : Account before charge ⟨db, update w.proc t p⟩ := by
  refine .busy t (fun u other => ?_) ?_
  · simp only [update_of_ne other]
    exact others u other
  · simp only [update_self]
    exact flight

theorem opening_account {now : Instant} (others : ∀ u ≠ t, ¬(w.proc u).InFlight)
    (settled : Unrecorded before w.db ∨ Recorded before charge w.db) {input : CaptureInput}
    (statement : PaymentStatement t now w.db (.recordStripePayment input) .start db stage) :
    Account before charge ⟨db, update w.proc t ⟨(w.proc t).call, stage⟩⟩ ∧
      (Marked db.mapping ∨ db.mapping.committed = w.db.mapping.committed ∧ stage ≠ .returned) := by
  have quiet : w.db.mapping.held = none := settled.elim Unrecorded.mapping Recorded.mapping
  cases statement with
  | rejected e => exact ⟨.idle (rest_update others trivial) settled, .inr ⟨rfl, nofun⟩⟩
  | undone early e => exact absurd early (by simp only [reduceCtorEq, or_self, not_false_eq_true])
  | alreadyLinked seen linked =>
    rw [read_of_quiet quiet] at seen
    exact ⟨.idle (rest_update others trivial) settled, .inl ⟨_, seen, .inl linked⟩⟩
  | unlinked seen none =>
    rw [read_of_quiet quiet] at seen
    obtain unrecorded | recorded := settled
    · exact ⟨busy_update others ⟨unrecorded, _, seen, none⟩, .inr ⟨rfl, nofun⟩⟩
    · obtain ⟨m, committed, linked⟩ := recorded.linked
      cases committed.symm.trans seen
      rw [none] at linked
      cases linked

theorem CaptureBooks.exec {now : Instant} (books : CaptureBooks before charge w)
    (payable : before.invoice.committed.status ≠ .draft → before.invoice.committed.status ≠ .void →
      before.invoice.committed.balance = before.invoice.committed.total - before.paid)
    (alone : MappingReadAlone w (t, .exec now))
    (statement : PaymentStatement t now w.db (w.proc t).call (w.proc t).stage db stage) :
    Account before charge ⟨db, update w.proc t ⟨(w.proc t).call, stage⟩⟩ ∧
      (Marked db.mapping ∨ db.mapping.committed = w.db.mapping.committed ∧ stage ≠ .returned) := by
  obtain ⟨input, call, amount⟩ := books.calls t
  have running := statement.running
  have begins : ¬(w.proc t).InFlight → (w.proc t).stage = .start := fun rest => by
    by_contra begun
    exact rest ⟨begun, running⟩
  cases books.account with
  | idle rest settled =>
    rw [call, begins (rest t)] at statement
    exact opening_account (fun u _ => rest u) settled statement
  | busy s others flight =>
    by_cases mine : t = s
    · subst mine
      rw [call] at statement
      obtain ⟨onward, mapping⟩ | ⟨ended, settled, effect⟩ := flight.exec amount payable statement
      · refine ⟨busy_update others onward, .inr ⟨mapping, ?_⟩⟩
        rintro rfl
        exact onward.running.2 trivial
      · exact ⟨.idle (rest_update others ended) settled, effect⟩
    · exact absurd flight.running (alone (begins (others t mine)) s (Ne.symm mine))

theorem CaptureBooks.fail (books : CaptureBooks before charge w) :
    Account before charge ⟨w.db.rollback t, update w.proc t ⟨(w.proc t).call, .threw .aborted⟩⟩ := by
  cases books.account with
  | idle rest settled =>
    refine .idle (rest_update (fun u _ => rest u) trivial) ?_
    obtain unrecorded | recorded := settled
    · exact .inl ((unrecorded.rollback t).symm ▸ unrecorded)
    · exact .inr ((recorded.rollback t).symm ▸ recorded)
  | busy s others flight =>
    by_cases mine : t = s
    · subst mine
      exact .idle (rest_update others trivial) (.inl flight.fail)
    · rw [flight.rollback_other mine]
      refine .busy s (fun u other => ?_) ?_
      · by_cases moved : u = t
        · simp only [moved, update_self]
          exact fun flying => flying.2 trivial
        · simp only [update_of_ne moved]
          exact others u other
      · simp only [update_of_ne (Ne.symm mine)]
        exact flight

theorem CaptureBooks.step {next : PaymentWorld} {e : ℕ × PaymentAction} (books : CaptureBooks before charge w)
    (payable : before.invoice.committed.status ≠ .draft → before.invoice.committed.status ≠ .void →
      before.invoice.committed.balance = before.invoice.committed.total - before.paid)
    (alone : MappingReadAlone w e) (stepped : paymentStep w e = some next) : CaptureBooks before charge next := by
  obtain ⟨t, action⟩ := e
  obtain ⟨now, db, stage, rfl, statement, rfl⟩ | ⟨rfl, -, rfl⟩ := paymentStep_cases stepped
  · obtain ⟨account, effect⟩ := books.exec payable alone statement
    exact ⟨account, calls_update books.calls, told_update books.told effect⟩
  · exact ⟨books.fail, calls_update books.calls, told_update books.told (.inr ⟨rfl, nofun⟩)⟩

end System

theorem AboutToCapture.books (ready : AboutToCapture charge w) : CaptureBooks w.db charge w where
  account := by
    refine .idle (fun t flight => flight.1 (ready.begun t)) (.inl ⟨⟨?_, ?_, rfl⟩, ?_, ready.mapping, rfl⟩)
    · exact fun p listed => (ready.payments p listed).2
    · intro p listed created
      rw [(ready.payments p listed).1] at created
      cases created
    · exact Row.ext rfl ready.invoice
  calls := ready.calls
  told t returned := by cases (ready.begun t).symm.trans returned

/-- What becomes of one charge: one payment, or none when it was refused or linked before. -/
def ChargedOnce (charge : ℤ) (before after : PaymentWorld) : Prop :=
  (captures after.db = 1 ∧
    after.db.invoice.committed.balance = before.db.invoice.committed.balance - charge) ∨
  (captures after.db = 0 ∧ after.db.invoice.committed.balance = before.db.invoice.committed.balance ∧
    ∀ t, (after.proc t).stage = .returned →
      (∃ m, before.db.mapping.committed = some m ∧ m.invoicePaymentId.isSome = true) ∨
      ∃ m, after.db.mapping.committed = some m ∧ m.status = .failed)

theorem CaptureBooks.outcome {next : PaymentWorld} (books : CaptureBooks w.db charge next)
    (rest : ∀ t, ¬(next.proc t).InFlight) : ChargedOnce charge w next := by
  cases books.account with
  | busy t others flight => exact absurd flight.running (rest t)
  | idle _ settled =>
    obtain unrecorded | recorded := settled
    · refine .inr ⟨unrecorded.captures, by rw [unrecorded.invoice, committed_unheld], fun t returned => ?_⟩
      obtain ⟨m, committed, linked | failed⟩ := books.told t returned
      · have link := unrecorded.link
        rw [committed, Option.map_some] at link
        obtain ⟨m', earlier, same⟩ := Option.map_eq_some_iff.mp link.symm
        exact .inl ⟨m', earlier, same ▸ linked⟩
      · exact .inr ⟨m, committed, failed⟩
    · exact .inl ⟨recorded.captures, recorded.balance⟩

theorem CaptureBooks.atMostOne {before : PaymentDb} (books : CaptureBooks before charge w) : captures w.db ≤ 1 := by
  cases books.account with
  | idle rest settled =>
    obtain unrecorded | recorded := settled
    · exact unrecorded.captures.trans_le zero_le_one
    · exact recorded.captures.le
  | busy t others flight => exact flight.captures

/-- In every run whose mapping reads stand alone, at most one payment is ever inserted for the
charge, and once no call is in flight the balance has gone down by the charge or, when it was refused
or linked before, not at all. -/
theorem charge_recorded_once {charge : ℤ} {w next : PaymentWorld} {es : List (ℕ × PaymentAction)}
    (ready : AboutToCapture charge w) (alone : Meets paymentStep MappingReadAlone w es)
    (reach : run paymentStep w es = some next) :
    captures next.db ≤ 1 ∧ ((∀ t, ¬(next.proc t).InFlight) → ChargedOnce charge w next) := by
  have keep : ∀ s e next, CaptureBooks w.db charge s → MappingReadAlone s e → paymentStep s e = some next →
      CaptureBooks w.db charge next := fun _ _ _ books meets stepped => books.step ready.balance meets stepped
  have books := run_invariant keep ready.books alone reach
  exact ⟨books.atMostOne, books.outcome⟩

/-- Any number of deliveries of one charge of 40.00 on an invoice of 100.00. -/
def deliveries : PaymentWorld where
  db := ⟨.unheld sentInvoice, [], .unheld (some ⟨none, "acct", none, .pending⟩)⟩
  proc _ := ⟨.recordStripePayment ⟨"pi", "acct", 4000, "USD"⟩, .start⟩

theorem aboutToCapture_deliveries : AboutToCapture 4000 deliveries where
  begun _ := rfl
  calls _ := ⟨_, rfl, rfl⟩
  invoice := rfl
  mapping := rfl
  payments _ listed := absurd listed not_mem_nil
  balance _ _ := rfl

def bothReadFirst : List (ℕ × PaymentAction) :=
  [0, 1, 0, 1, 0, 1, 0, 0, 0, 0, 0, 1, 1, 1, 1, 1].map fun t => (t, .exec noon)

theorem charge_recorded_once_single : ∃ next,
    run paymentStep deliveries ((List.replicate 8 (.exec noon)).map fun a => (0, a)) = some next ∧
    captures next.db = 1 ∧ ChargedOnce 4000 deliveries next := by
  have outcome : (run paymentStep deliveries ((List.replicate 8 (.exec noon)).map fun a => (0, a))).map
      (fun next => (captures next.db, (next.proc 0).stage)) = some (1, .returned) := by decide +kernel
  obtain ⟨next, reach, seen⟩ := Option.map_eq_some_iff.mp outcome
  obtain ⟨count, returned⟩ := Prod.mk.inj seen
  have alone : Meets paymentStep MappingReadAlone deliveries ((List.replicate 8 (.exec noon)).map fun a => (0, a)) := by
    refine World.meets_alone (fun p => p.stage = .start) (fun w a rest => ?_)
      (fun u _ => aboutToCapture_deliveries.begun u) _
    cases a with
    | fail => trivial
    | exec now => exact fun _ u other flight => flight.1 (rest u other)
  refine ⟨next, reach, count, (charge_recorded_once aboutToCapture_deliveries alone reach).2 fun t flight => ?_⟩
  by_cases zero : t = 0
  · exact flight.2 (zero ▸ returned ▸ trivial)
  · refine flight.1 (congrArg PaymentProc.stage (World.proc_run reach fun e member same => ?_))
    obtain ⟨a, -, rfl⟩ := List.mem_map.mp member
    exact zero same.symm

/-- Two overlapping deliveries of one charge both insert it, and the balance goes down twice. -/
theorem charge_recorded_twice : ∃ next, AboutToCapture 4000 deliveries ∧
    run paymentStep deliveries bothReadFirst = some next ∧ (∀ t, ¬(next.proc t).InFlight) ∧
    captures next.db = 2 ∧ next.db.invoice.committed.balance = 10000 - 2 * 4000 := by
  have outcome : (run paymentStep deliveries bothReadFirst).map (fun next =>
      (captures next.db, next.db.invoice.committed.balance, (next.proc 0).stage, (next.proc 1).stage)) =
      some (2, 2000, .returned, .returned) := by decide +kernel
  obtain ⟨next, reach, seen⟩ := Option.map_eq_some_iff.mp outcome
  simp only [Prod.mk.injEq] at seen
  obtain ⟨count, balance, first, second⟩ := seen
  exact ⟨next, aboutToCapture_deliveries, reach,
    rest_of_two (fun _ => rfl) reach first second (by decide), count, balance⟩

end RemudaRmm.Billing
