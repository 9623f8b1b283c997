import RemudaRmm.Billing.PaymentLedger

/-! Runs of `recordPayment` and `voidPayment` calls on one issued invoice, one statement at a time. The balance check
and the sum of the payments are plain reads; where neither is taken while another call stands between the same read and
its end, the cached money fields agree with the payments in every state. -/
namespace RemudaRmm.Billing
open Foundation Option
variable {t : ℕ} {now : Instant} {db next : PaymentDb} {call : PaymentCall} {stage stage' : PaymentStage}

abbrev PaymentWorld := World ℕ PaymentDb PaymentProc

def paymentStep : PaymentWorld → ℕ × PaymentAction → Option PaymentWorld := World.step paymentAct

inductive PaymentStatement (t : ℕ) (now : Instant) (db : PaymentDb) :
    PaymentCall → PaymentStage → PaymentDb → PaymentStage → Prop where
  | rejected {call : PaymentCall} (e : PaymentError) : PaymentStatement t now db call .start db (.threw e)
  | undone {call : PaymentCall} {stage : PaymentStage} (early : stage = .loaded ∨ stage = .checked) (e : PaymentError) :
      PaymentStatement t now db call stage (db.rollback t) (.threw e)
  | admitted {input : RecordPaymentInput} (within : input.amount ≤ (db.invoice.read t).balance) :
      PaymentStatement t now db (.recordPayment input) .start db .loaded
  | inserted {input : RecordPaymentInput} (positive : 0 < input.amount) :
      PaymentStatement t now db (.recordPayment input) .loaded
        (db.insertPayment t ⟨input.amount, input.method, input.reference⟩) .changed
  | found {id : PaymentId} : PaymentStatement t now db (.voidPayment id) .start db .loaded
  | deleted {id : PaymentId} (mapping : Row ℕ (Option Mapping)) (free : ∀ p ∈ db.payments, p.1 = id → p.2.Free t) :
      PaymentStatement t now db (.voidPayment id) .loaded ({ db with mapping }.deletePayment t id) .changed
  | alreadyLinked {input : CaptureInput} {m : Mapping} (seen : db.mapping.read t = some m)
      (linked : m.invoicePaymentId.isSome = true) :
      PaymentStatement t now db (.recordStripePayment input) .start db .returned
  | unlinked {input : CaptureInput} {m : Mapping} (seen : db.mapping.read t = some m)
      (none : m.invoicePaymentId = none) : PaymentStatement t now db (.recordStripePayment input) .start db (.mapped m)
  | refused {input : CaptureInput} {m : Mapping} (refusal : refuses input (db.invoice.read t) m = true) :
      PaymentStatement t now db (.recordStripePayment input) (.mapped m) db .refused
  | accepted {input : CaptureInput} {m : Mapping} (passed : refuses input (db.invoice.read t) m = false) :
      PaymentStatement t now db (.recordStripePayment input) (.mapped m) db .checked
  | captured {input : CaptureInput} (positive : 0 < input.amount) :
      PaymentStatement t now db (.recordStripePayment input) .checked
        (db.insertPayment t ⟨input.amount, "card", some input.stripePaymentIntentId⟩) .inserted
  | markedFailed {input : CaptureInput} (free : db.mapping.Free t) :
      PaymentStatement t now db (.recordStripePayment input) .refused
        { db with mapping := db.mapping.write t ((db.mapping.read t).map fun m => { m with status := .failed }) } .written
  | linked {input : CaptureInput} (free : db.mapping.Free t) :
      PaymentStatement t now db (.recordStripePayment input) .inserted
        { db with mapping := db.mapping.write t ((db.mapping.read t).map fun m => { m with
            invoicePaymentId := some (.created t), status := .succeeded,
            stripePaymentIntentId := some input.stripePaymentIntentId }) } .changed
  | invoiceRead {call : PaymentCall} : PaymentStatement t now db call .changed db (.invoiceRead (db.invoice.read t))
  | summed {call : PaymentCall} {inv : MoneyRow} :
      PaymentStatement t now db call (.invoiceRead inv) db (.summed inv (db.paidSeenBy t))
  | updated {call : PaymentCall} {inv : MoneyRow} {amountPaid : ℤ} (free : db.invoice.Free t) :
      PaymentStatement t now db call (.summed inv amountPaid)
        { db with invoice := db.invoice.write t (recomputed inv amountPaid now (db.invoice.read t)) } .written
  | committed {call : PaymentCall} : PaymentStatement t now db call .written (db.commit t) .returned

section Inversion
variable {t : ℕ} {now : Instant} {db next : PaymentDb} {stage stage' : PaymentStage}

theorem recomputeInvoiceStatus_cases (call : PaymentCall)
    (acted : recomputeInvoiceStatus t now db stage = some (next, stage')) :
    PaymentStatement t now db call stage next stage' := by
  cases stage with
  | changed =>
    exact of_some_eq acted .invoiceRead
  | invoiceRead inv =>
    exact of_some_eq acted .summed
  | summed inv amountPaid =>
    obtain ⟨free, acted⟩ := ite_none_right_eq_some.mp acted
    exact of_some_eq acted (.updated free)
  | written =>
    exact of_some_eq acted .committed
  | start | loaded | mapped m | checked | refused | inserted | returned | threw e => cases acted

theorem insertStep_cases {p : Payment} {done : PaymentStage} (acted : insertStep t p done db = (next, stage')) :
    (0 < p.amount ∧ next = db.insertPayment t p ∧ stage' = done) ∨
      (next = db.rollback t ∧ stage' = .threw .constraint) := by
  unfold insertStep at acted
  split_ifs at acted with positive
  · cases acted
    exact .inl ⟨positive, rfl, rfl⟩
  · cases acted
    exact .inr ⟨rfl, rfl⟩

theorem recordPaymentStep_cases {input : RecordPaymentInput}
    (acted : recordPaymentStep input t now db stage = some (next, stage')) :
    PaymentStatement t now db (.recordPayment input) stage next stage' := by
  unfold recordPaymentStep at acted
  split at acted
  · simp only at acted
    split_ifs at acted with draft void more
    · exact of_some_eq acted (.rejected _)
    · exact of_some_eq acted (.rejected _)
    · exact of_some_eq acted (.rejected _)
    · exact of_some_eq acted (.admitted (not_lt.mp more))
  · obtain ⟨positive, rfl, rfl⟩ | ⟨rfl, rfl⟩ := insertStep_cases (some.inj acted)
    · exact .inserted positive
    · exact .undone (.inl rfl) _
  · exact recomputeInvoiceStatus_cases _ acted

theorem unlink_cases {id : PaymentId} {db next : PaymentDb} (acted : unlink t id db = some (.ok next)) :
    ∃ mapping, next = { db with mapping } := by
  unfold unlink at acted
  split at acted
  · split_ifs at acted
    · cases some.inj acted
    · exact ⟨_, (Except.ok.inj (some.inj acted)).symm⟩
    · exact ⟨db.mapping, (Except.ok.inj (some.inj acted)).symm⟩
  · exact ⟨db.mapping, (Except.ok.inj (some.inj acted)).symm⟩

theorem voidPaymentStep_cases {id : PaymentId} (acted : voidPaymentStep id t now db stage = some (next, stage')) :
    PaymentStatement t now db (.voidPayment id) stage next stage' := by
  unfold voidPaymentStep at acted
  split at acted
  · split_ifs at acted
    · exact of_some_eq acted .found
    · exact of_some_eq acted (.rejected _)
  · split_ifs at acted with free
    split at acted
    · cases acted
    · exact of_some_eq acted (.undone (.inl rfl) _)
    · next unlinked =>
        cases acted
        obtain ⟨mapping, rfl⟩ := unlink_cases unlinked
        exact .deleted mapping free
  · exact recomputeInvoiceStatus_cases _ acted

theorem recordStripePaymentStep_cases {input : CaptureInput}
    (acted : recordStripePaymentStep input t now db stage = some (next, stage')) :
    PaymentStatement t now db (.recordStripePayment input) stage next stage' := by
  unfold recordStripePaymentStep at acted
  split at acted
  · split at acted
    · exact of_some_eq acted (.rejected _)
    · next m seen =>
        split_ifs at acted with linked
        · exact of_some_eq acted (.alreadyLinked seen linked)
        · exact of_some_eq acted (.unlinked seen (not_isSome_iff_eq_none.mp linked))
  · split_ifs at acted with refusal
    · exact of_some_eq acted (.refused refusal)
    · exact of_some_eq acted (.accepted (Bool.not_eq_true _ ▸ refusal))
  · obtain ⟨positive, rfl, rfl⟩ | ⟨rfl, rfl⟩ := insertStep_cases (some.inj acted)
    · exact .captured positive
    · exact .undone (.inr rfl) _
  · obtain ⟨free, acted⟩ := ite_none_right_eq_some.mp acted
    exact of_some_eq acted (.markedFailed free)
  · obtain ⟨free, acted⟩ := ite_none_right_eq_some.mp acted
    exact of_some_eq acted (.linked free)
  · exact recomputeInvoiceStatus_cases _ acted

theorem callStep_cases {call : PaymentCall} (acted : callStep call t now db stage = some (next, stage')) :
    PaymentStatement t now db call stage next stage' := by
  cases call with
  | recordPayment input => exact recordPaymentStep_cases acted
  | voidPayment id => exact voidPaymentStep_cases acted
  | recordStripePayment input => exact recordStripePaymentStep_cases acted

theorem paymentStep_cases {w next : PaymentWorld} {t : ℕ} {action : PaymentAction}
    (stepped : paymentStep w (t, action) = some next) :
    (∃ now db stage, action = .exec now ∧ PaymentStatement t now w.db (w.proc t).call (w.proc t).stage db stage ∧
        next = ⟨db, Function.update w.proc t ⟨(w.proc t).call, stage⟩⟩) ∨
      (action = .fail ∧ ¬(w.proc t).stage.Ended ∧
        next = ⟨w.db.rollback t, Function.update w.proc t ⟨(w.proc t).call, .threw .aborted⟩⟩) := by
  obtain ⟨db, p, acted, rfl⟩ := World.step_eq_some stepped
  cases action with
  | exec now =>
    obtain ⟨⟨db', stage⟩, called, same⟩ := map_eq_some_iff.mp acted
    cases same
    exact .inl ⟨now, db', stage, rfl, callStep_cases called, rfl⟩
  | fail =>
    obtain ⟨running, same⟩ := ite_none_left_eq_some.mp acted
    cases same
    exact .inr ⟨rfl, running, rfl⟩

end Inversion

/-- The transaction has written no payment and does not hold the invoice. -/
structure PaymentDb.Untouched (t : ℕ) (db : PaymentDb) : Prop where
  payments : ∀ p ∈ db.payments, ∀ v, p.2.held ≠ some (t, v)
  invoice : ∀ v, db.invoice.held ≠ some (t, v)

/-- What a transaction has written stands as before. -/
structure PaymentDb.Undisturbed (t : ℕ) (db next : PaymentDb) : Prop where
  pending : next.pending t = db.pending t
  invoice : ∀ v, next.invoice.held = some (t, v) ↔ db.invoice.held = some (t, v)
  payments : (∀ p ∈ db.payments, ∀ v, p.2.held ≠ some (t, v)) → ∀ p ∈ next.payments, ∀ v, p.2.held ≠ some (t, v)

namespace PaymentDb
variable {t u : ℕ} {db : PaymentDb}

theorem Undisturbed.refl : Undisturbed t db db := ⟨rfl, fun _ => Iff.rfl, id⟩

theorem Undisturbed.trans {mid next : PaymentDb} (first : Undisturbed t db mid) (second : Undisturbed t mid next) :
    Undisturbed t db next :=
  ⟨second.pending.trans first.pending, fun v => (second.invoice v).trans (first.invoice v),
    second.payments ∘ first.payments⟩

theorem Undisturbed.untouched {next : PaymentDb} (same : Undisturbed t db next) (idle : Untouched t db) :
    Untouched t next :=
  ⟨same.payments idle.payments, fun v mine => idle.invoice v ((same.invoice v).mp mine)⟩

theorem Untouched.pending (idle : Untouched t db) : db.pending t = 0 := pending_of_not_held idle.payments

theorem undisturbed_mapping (mapping : Row ℕ (Option Mapping)) : Undisturbed t db { db with mapping } :=
  ⟨rfl, fun _ => Iff.rfl, id⟩

theorem undisturbed_insertPayment (other : t ≠ u) (p : Payment) : Undisturbed t db (db.insertPayment u p) := by
  refine ⟨pending_insertPayment_other other p, fun _ => Iff.rfl, ?_⟩
  intro idle q listed v mine
  obtain listed | listed := List.mem_append.mp listed
  · exact idle q listed v mine
  · obtain rfl := List.mem_singleton.mp listed
    rw [Row.held_write, Option.some.injEq, Prod.mk.injEq] at mine
    exact other mine.1.symm

theorem undisturbed_deletePayment {id : PaymentId} (other : t ≠ u)
    (free : ∀ p ∈ db.payments, p.1 = id → p.2.Free u) : Undisturbed t db (db.deletePayment u id) := by
  refine ⟨pending_deletePayment_other other free, fun _ => Iff.rfl, ?_⟩
  intro idle q listed v mine
  obtain ⟨p, member, rfl⟩ := List.mem_map.mp listed
  by_cases named : p.1 = id
  · rw [if_pos named, Row.held_write, Option.some.injEq, Prod.mk.injEq] at mine
    exact other mine.1.symm
  · rw [if_neg named] at mine
    exact idle p member v mine

theorem undisturbed_invoice (other : t ≠ u) (free : db.invoice.Free u) (row : MoneyRow) :
    Undisturbed t db { db with invoice := db.invoice.write u row } := by
  refine ⟨rfl, fun v => ?_, id⟩
  constructor
  · intro mine
    rw [Row.held_write, Option.some.injEq, Prod.mk.injEq] at mine
    exact absurd mine.1.symm other
  · intro mine
    exact absurd (free t v mine) other

theorem undisturbed_commit (other : t ≠ u) : Undisturbed t db (db.commit u) := by
  refine ⟨pending_commit_other other, fun v => Row.held_commit_iff.trans (and_iff_left other), ?_⟩
  intro idle q listed v mine
  obtain ⟨p, member, rfl⟩ := List.mem_map.mp listed
  exact idle p member v (Row.held_commit_iff.mp mine).1

theorem undisturbed_rollback (other : t ≠ u) : Undisturbed t db (db.rollback u) := by
  refine ⟨pending_rollback_other other, fun v => Row.held_rollback_iff.trans (and_iff_left other), ?_⟩
  intro idle q listed v mine
  obtain ⟨p, member, rfl⟩ := List.mem_map.mp listed
  exact idle p member v (Row.held_rollback_iff.mp mine).1

theorem untouched_commit : Untouched t (db.commit t) := by
  refine ⟨fun q listed v => ?_, fun v => Row.not_held_commit t v _⟩
  obtain ⟨p, -, rfl⟩ := List.mem_map.mp listed
  exact Row.not_held_commit t v p.2

theorem untouched_rollback : Untouched t (db.rollback t) := by
  refine ⟨fun q listed v => ?_, fun v => Row.not_held_rollback t v _⟩
  obtain ⟨p, -, rfl⟩ := List.mem_map.mp listed
  exact Row.not_held_rollback t v p.2

end PaymentDb

theorem PaymentStatement.undisturbed {u : ℕ} (statement : PaymentStatement t now db call stage next stage')
    (other : u ≠ t) : PaymentDb.Undisturbed u db next := by
  cases statement with
  | rejected e | admitted within | found | alreadyLinked seen linked | unlinked seen none | refused refusal
  | accepted passed | invoiceRead | summed => exact .refl
  | undone early e => exact PaymentDb.undisturbed_rollback other
  | inserted positive | captured positive => exact PaymentDb.undisturbed_insertPayment other _
  | deleted mapping free =>
    exact (PaymentDb.undisturbed_mapping mapping).trans (PaymentDb.undisturbed_deletePayment other free)
  | markedFailed free | linked free => exact PaymentDb.undisturbed_mapping _
  | updated free => exact PaymentDb.undisturbed_invoice other free _
  | committed => exact PaymentDb.undisturbed_commit other

theorem PaymentStatement.running (statement : PaymentStatement t now db call stage next stage') : ¬stage.Ended := by
  cases statement with
  | undone early e => obtain rfl | rfl := early <;> exact id
  | _ => exact id

theorem PaymentStatement.settles (statement : PaymentStatement t now db call stage next stage') :
    (next.paid = db.paid ∧ next.invoice.committed = db.invoice.committed) ∨
      (stage = .written ∧ next = db.commit t ∧ stage' = .returned) := by
  cases statement with
  | undone early e => exact .inl ⟨PaymentDb.paid_rollback, rfl⟩
  | inserted positive | captured positive => exact .inl ⟨PaymentDb.paid_insertPayment _, rfl⟩
  | deleted mapping free => exact .inl ⟨PaymentDb.paid_deletePayment _, rfl⟩
  | committed => exact .inr ⟨rfl, rfl, rfl⟩
  | _ => exact .inl ⟨rfl, rfl⟩

end RemudaRmm.Billing
