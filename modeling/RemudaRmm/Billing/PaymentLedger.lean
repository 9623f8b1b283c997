import Mathlib.Algebra.Order.BigOperators.Group.List
import RemudaRmm.Billing.PaymentTransactions

/-! What a transaction on the payments is about to change. `pending t` is the difference between the payments `t` sees
and the committed ones: its own statements move it, its end settles it, and no other transaction touches it. -/
namespace RemudaRmm.Billing
open Foundation List Function List

namespace PaymentDb

def shift (t : ℕ) (r : PaymentRow) : ℤ := amountOf (r.read t) - amountOf r.committed

def pending (t : ℕ) (db : PaymentDb) : ℤ := (db.payments.map fun p => shift t p.2).sum

section Row
variable {t u : ℕ} {r : PaymentRow}

theorem shift_of_not_held (free : ∀ v, r.held ≠ some (t, v)) : shift t r = 0 := by
  rw [shift, Row.read_of_not_held free, sub_self]

theorem shift_congr {s : PaymentRow} (committed : s.committed = r.committed)
    (held : ∀ v, s.held = some (t, v) ↔ r.held = some (t, v)) : shift t s = shift t r := by
  have kept : r.Kept t s := held
  rw [shift, shift, kept.read committed, committed]

theorem shift_write_other (other : t ≠ u) (free : r.Free u) (v : Option Payment) :
    shift t (r.write u v) = shift t r := by
  have before : ∀ x, r.held ≠ some (t, x) := fun x mine => other (free t x mine)
  have after : ∀ x, (r.write u v).held ≠ some (t, x) := by
    intro x mine
    rw [Row.held_write, Option.some.injEq, Prod.mk.injEq] at mine
    exact other mine.1.symm
  rw [shift_of_not_held before, shift_of_not_held after]

theorem shift_rollback_other (other : t ≠ u) : shift t (r.rollback u) = shift t r :=
  shift_congr rfl fun _ => Row.held_rollback_iff.trans (and_iff_left other)

theorem shift_commit_other (other : t ≠ u) : shift t (r.commit u) = shift t r := by
  rcases r.read_cases u with ⟨v, holds, -⟩ | ⟨free, -⟩
  · have before : ∀ x, r.held ≠ some (t, x) := by
      intro x mine
      rw [holds, Option.some.injEq, Prod.mk.injEq] at mine
      exact other mine.1.symm
    rw [shift_of_not_held before, shift_of_not_held fun x mine => before x (Row.held_commit_iff.mp mine).1]
  · rw [Row.commit_of_not_held free]

theorem amountOf_commit : amountOf (r.commit t).committed = amountOf r.committed + shift t r := by
  rw [Row.committed_commit, shift, add_sub_cancel]

end Row

section Table
variable {t u : ℕ} {db : PaymentDb}

theorem paidSeenBy_eq : db.paidSeenBy t = db.paid + db.pending t := by
  rw [paidSeenBy, paid, pending, ← sum_map_add]
  refine congrArg sum (map_congr_left fun p _ => ?_)
  rw [shift, add_sub_cancel]

theorem pending_of_not_held (free : ∀ p ∈ db.payments, ∀ v, p.2.held ≠ some (t, v)) : db.pending t = 0 := by
  refine sum_eq_zero fun x member => ?_
  obtain ⟨p, listed, rfl⟩ := mem_map.mp member
  exact shift_of_not_held (free p listed)

theorem paid_insertPayment (p : Payment) : (db.insertPayment t p).paid = db.paid := by
  simp only [paid, insertPayment, map_append, sum_append, map_cons, map_nil, sum_cons, sum_nil, add_zero]
  exact add_eq_left.mpr rfl

theorem pending_insertPayment_self (p : Payment) : (db.insertPayment t p).pending t = db.pending t + p.amount := by
  simp only [pending, insertPayment, map_append, sum_append, map_cons, map_nil,
    sum_cons, sum_nil, add_zero, add_right_inj]
  rw [shift, Row.read_write]
  exact sub_zero p.amount

theorem pending_insertPayment_other (other : t ≠ u) (p : Payment) :
    (db.insertPayment u p).pending t = db.pending t := by
  simp only [pending, insertPayment, map_append, sum_append, map_cons, map_nil, sum_cons, sum_nil, add_zero]
  have free : (Row.unheld none : PaymentRow).Free u := fun _ _ held => nomatch held
  rw [shift_write_other other free]
  exact add_eq_left.mpr (shift_of_not_held fun _ held => nomatch held)

theorem paid_deletePayment (id : PaymentId) : (db.deletePayment t id).paid = db.paid := by
  simp only [paid, deletePayment, map_map]
  refine congrArg sum (map_congr_left fun p _ => ?_)
  simp only [comp_apply]
  split_ifs <;> rfl

theorem pending_deletePayment_other {id : PaymentId} (other : t ≠ u)
    (free : ∀ p ∈ db.payments, p.1 = id → p.2.Free u) : (db.deletePayment u id).pending t = db.pending t := by
  simp only [pending, deletePayment, map_map]
  refine congrArg sum (map_congr_left fun p listed => ?_)
  simp only [comp_apply]
  by_cases named : p.1 = id
  · rw [if_pos named]
    exact shift_write_other other (free p listed named) none
  · rw [if_neg named]

theorem pending_deletePayment_self {id : PaymentId} (nonneg : ∀ p ∈ db.payments, 0 ≤ amountOf p.2.committed)
    (free : ∀ p ∈ db.payments, ∀ v, p.2.held ≠ some (t, v)) : (db.deletePayment t id).pending t ≤ 0 := by
  simp only [pending, deletePayment, map_map]
  refine (sum_le_card_nsmul _ 0 fun x member => ?_).trans_eq (nsmul_zero _)
  obtain ⟨p, listed, rfl⟩ := mem_map.mp member
  simp only [comp_apply]
  by_cases named : p.1 = id
  · rw [if_pos named, shift, Row.read_write, Row.committed_write]
    exact (zero_sub (amountOf p.2.committed)).le.trans (neg_nonpos.mpr (nonneg p listed))
  · rw [if_neg named]
    exact (shift_of_not_held (free p listed)).le

theorem paid_commit : (db.commit t).paid = db.paid + db.pending t := by
  rw [paid, paid, pending, ← sum_map_add, commit, map_map]
  exact congrArg sum (map_congr_left fun p _ => amountOf_commit)

theorem pending_commit_other (other : t ≠ u) : (db.commit u).pending t = db.pending t := by
  rw [pending, pending, commit, map_map]
  exact congrArg sum (map_congr_left fun p _ => shift_commit_other other)

theorem paid_rollback : (db.rollback t).paid = db.paid := by
  rw [paid, paid, rollback, map_map]
  rfl

theorem pending_rollback_other (other : t ≠ u) : (db.rollback u).pending t = db.pending t := by
  rw [pending, pending, rollback, map_map]
  exact congrArg sum (map_congr_left fun p _ => shift_rollback_other other)

end Table

end PaymentDb

end RemudaRmm.Billing
