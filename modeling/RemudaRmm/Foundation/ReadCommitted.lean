import RemudaRmm.Foundation.Runs

/-! Rows under READ COMMITTED, and systems of transactions that run one statement at a time. A row has a committed value
and, while a transaction holds its lock, that transaction's own version, which its statements read. A statement is
blocked while another transaction holds a row it needs; commit and rollback end every version of the transaction at
once. -/
namespace RemudaRmm.Foundation
open Function Option

@[ext] structure Row (τ α : Type*) where
  committed : α
  held : Option (τ × α)

namespace Row
variable {τ α : Type*}
variable {r : Row τ α} {t u : τ} {v : α}

def unheld (a : α) : Row τ α := ⟨a, none⟩

def write (t : τ) (v : α) (r : Row τ α) : Row τ α := ⟨r.committed, some (t, v)⟩

def Free (t : τ) (r : Row τ α) : Prop := ∀ holder v, r.held = some (holder, v) → holder = t

@[simp] theorem committed_unheld (a : α) : (unheld a : Row τ α).committed = a := rfl

@[simp] theorem committed_write (t : τ) (v : α) (r : Row τ α) : (r.write t v).committed = r.committed := rfl

@[simp] theorem held_write (t : τ) (v : α) (r : Row τ α) : (r.write t v).held = some (t, v) := rfl

theorem not_held_of_none (quiet : r.held = none) (t : τ) (v : α) : r.held ≠ some (t, v) := by
  rw [quiet]
  exact nofun

theorem free_unheld (t : τ) (a : α) : (unheld a : Row τ α).Free t := nofun

theorem free_of_quiet (quiet : r.held = none) (t : τ) : r.Free t :=
  fun holder v held => absurd held (not_held_of_none quiet holder v)

theorem free_of_held (held : r.held = some (t, v)) : r.Free t := by
  intro holder x other
  exact (Prod.mk.inj (some.inj (other.symm.trans held))).1

variable [DecidableEq τ]

instance (t : τ) (r : Row τ α) : Decidable (r.Free t) :=
  decidable_of_iff (∀ p ∈ r.held, p.1 = t)
    ⟨fun h holder v held => h (holder, v) held, fun h p member => h p.1 p.2 member⟩

def read (t : τ) (r : Row τ α) : α :=
  match r.held with
  | some (holder, v) => if holder = t then v else r.committed
  | none => r.committed

@[simp] theorem read_unheld (t : τ) (a : α) : (unheld a).read t = a := rfl

def release (t : τ) (r : Row τ α) : Option (τ × α) := r.held.filter fun p => p.1 ≠ t

/-- A commit makes the transaction's own view the committed one. -/
def commit (t : τ) (r : Row τ α) : Row τ α := ⟨r.read t, r.release t⟩

def rollback (t : τ) (r : Row τ α) : Row τ α := ⟨r.committed, r.release t⟩

@[simp] theorem read_write (t : τ) (v : α) (r : Row τ α) : (r.write t v).read t = v := by
  simp only [read, held_write, if_true]

@[simp] theorem committed_commit (t : τ) (r : Row τ α) : (r.commit t).committed = r.read t := rfl

theorem read_of_held (held : r.held = some (t, v)) : r.read t = v := by
  simp only [read, held, if_true]

theorem read_of_not_held (free : ∀ v, r.held ≠ some (t, v)) : r.read t = r.committed := by
  unfold read
  cases held : r.held with
  | none => rfl
  | some pair =>
    have other : pair.1 ≠ t := fun same => free pair.2 (by rw [held, ← same])
    exact if_neg other

/-- A transaction reads its own version of the row, or without one the committed value. -/
theorem read_cases (t : τ) (r : Row τ α) :
    (∃ v, r.held = some (t, v) ∧ r.read t = v) ∨ (∀ v, r.held ≠ some (t, v)) ∧ r.read t = r.committed := by
  by_cases own : ∃ v, r.held = some (t, v)
  · obtain ⟨v, held⟩ := own
    exact .inl ⟨v, held, read_of_held held⟩
  · have free : ∀ v, r.held ≠ some (t, v) := fun v held => own ⟨v, held⟩
    exact .inr ⟨free, read_of_not_held free⟩

theorem read_rule {P : α → Prop} (committed : P r.committed)
    (own : ∀ v, r.held = some (t, v) → P v) : P (r.read t) := by
  rcases r.read_cases t with ⟨v, held, read⟩ | ⟨-, read⟩
  · rw [read]
    exact own v held
  · rw [read]
    exact committed

theorem held_release_iff : r.release t = some (u, v) ↔ r.held = some (u, v) ∧ u ≠ t := by
  simp only [release, filter_eq_some_iff, decide_eq_true_eq]

@[simp] theorem held_commit_iff : (r.commit t).held = some (u, v) ↔ r.held = some (u, v) ∧ u ≠ t := held_release_iff

@[simp] theorem held_rollback_iff : (r.rollback t).held = some (u, v) ↔ r.held = some (u, v) ∧ u ≠ t := held_release_iff

theorem not_held_commit (t : τ) (v : α) (r : Row τ α) : (r.commit t).held ≠ some (t, v) :=
  fun held => (held_commit_iff.mp held).2 rfl

theorem not_held_rollback (t : τ) (v : α) (r : Row τ α) : (r.rollback t).held ≠ some (t, v) :=
  fun held => (held_rollback_iff.mp held).2 rfl

theorem release_of_not_held (free : ∀ v, r.held ≠ some (t, v)) : r.release t = r.held := by
  unfold release
  cases held : r.held with
  | none => rfl
  | some pair =>
    have other : pair.1 ≠ t := fun same => free pair.2 (by rw [held, ← same])
    simp only [Option.filter, other, ne_eq, not_false_eq_true, decide_true, if_true]

theorem commit_of_not_held (free : ∀ v, r.held ≠ some (t, v)) : r.commit t = r :=
  Row.ext (read_of_not_held free) (release_of_not_held free)

theorem rollback_of_not_held (free : ∀ v, r.held ≠ some (t, v)) : r.rollback t = r :=
  Row.ext rfl (release_of_not_held free)

theorem read_of_quiet (quiet : r.held = none) (t : τ) : r.read t = r.committed :=
  read_of_not_held (not_held_of_none quiet t)

theorem commit_of_quiet (quiet : r.held = none) (t : τ) : r.commit t = r :=
  commit_of_not_held (not_held_of_none quiet t)

theorem rollback_of_quiet (quiet : r.held = none) (t : τ) : r.rollback t = r :=
  rollback_of_not_held (not_held_of_none quiet t)

theorem rollback_of_free (free : r.Free u) (other : t ≠ u) : r.rollback t = r :=
  rollback_of_not_held fun v held => other (free t v held)

theorem release_of_held (held : r.held = some (t, v)) : r.release t = none := by
  simp only [release, held, Option.filter, ne_eq, not_true_eq_false, decide_false, Bool.false_eq_true, if_false]

@[simp] theorem commit_unheld (t : τ) (a : α) : (unheld a).commit t = unheld a := commit_of_quiet rfl t

@[simp] theorem rollback_unheld (t : τ) (a : α) : (unheld a).rollback t = unheld a := rollback_of_quiet rfl t

@[simp] theorem commit_write (t : τ) (v : α) (r : Row τ α) : (r.write t v).commit t = unheld v :=
  Row.ext (read_write t v r) (release_of_held (held_write t v r))

@[simp] theorem rollback_write (t : τ) (v : α) (r : Row τ α) : (r.write t v).rollback t = unheld r.committed :=
  Row.ext rfl (release_of_held (held_write t v r))

theorem free_commit (free : r.Free u) : (r.commit t).Free u :=
  fun holder v held => free holder v (held_commit_iff.mp held).1

theorem free_rollback (free : r.Free u) : (r.rollback t).Free u :=
  fun holder v held => free holder v (held_rollback_iff.mp held).1

def Kept (u : τ) (r next : Row τ α) : Prop := ∀ v, next.held = some (u, v) ↔ r.held = some (u, v)

omit [DecidableEq τ] in
theorem Kept.refl : r.Kept u r := fun _ => Iff.rfl

omit [DecidableEq τ] in
theorem kept_write (other : u ≠ t) (free : r.Free t) (v : α) : r.Kept u (r.write t v) := by
  intro x
  constructor
  · intro held
    exact absurd (Prod.mk.inj (some.inj held)).1.symm other
  · intro held
    exact absurd (free u x held) other

/-- A transaction sees a row as before while its version and the committed value stand. -/
theorem Kept.read {next : Row τ α} (kept : r.Kept u next) (same : next.committed = r.committed) :
    next.read u = r.read u := by
  rcases r.read_cases u with ⟨v, held, read⟩ | ⟨free, read⟩
  · rw [read, read_of_held ((kept v).mpr held)]
  · rw [read, read_of_not_held fun v held => free v ((kept v).mp held), same]

theorem kept_commit (other : u ≠ t) : r.Kept u (r.commit t) :=
  fun _ => held_commit_iff.trans (and_iff_left other)

theorem kept_rollback (other : u ≠ t) : r.Kept u (r.rollback t) :=
  fun _ => held_rollback_iff.trans (and_iff_left other)

/-- A transaction's own version of a row, and the committed value under it, stand as before. -/
structure Undisturbed (u : τ) (r next : Row τ α) : Prop where
  kept : r.Kept u next
  committed : ∀ v, r.held = some (u, v) → next.committed = r.committed

theorem undisturbed_commit (other : u ≠ t) : r.Undisturbed u (r.commit t) where
  kept := kept_commit other
  committed _ held :=
    read_of_not_held fun _ mine => other (Prod.mk.inj (some.inj (held.symm.trans mine))).1

end Row

/-- Rows by key. -/
abbrev Table (κ τ α : Type*) := κ → Row τ α

namespace Table
variable {κ τ α : Type*} [DecidableEq κ]
variable {t u : τ} {k j : κ} {v : α} {rows : Table κ τ α}

def write (t : τ) (k : κ) (v : α) (rows : Table κ τ α) : Table κ τ α := update rows k ((rows k).write t v)

def writeAll (t : τ) (ks : List κ) (v : α) (rows : Table κ τ α) : Table κ τ α :=
  fun k => if k ∈ ks then (rows k).write t v else rows k

@[simp] theorem write_self (t : τ) (k : κ) (v : α) (rows : Table κ τ α) : write t k v rows k = (rows k).write t v :=
  update_self ..

theorem write_of_ne (other : j ≠ k) : write t k v rows j = rows j :=
  update_of_ne other ..

@[simp] theorem committed_write (t : τ) (k : κ) (v : α) (rows : Table κ τ α) (j : κ) :
    (write t k v rows j).committed = (rows j).committed := by
  by_cases same : j = k
  · rw [same, write_self, Row.committed_write]
  · rw [write_of_ne same]

@[simp] theorem committed_writeAll (t : τ) (ks : List κ) (v : α) (rows : Table κ τ α) (j : κ) :
    (writeAll t ks v rows j).committed = (rows j).committed := by
  unfold writeAll
  split_ifs <;> rfl

theorem held_write {x : α} (held : (write t k v rows j).held = some (u, x)) :
    (rows j).held = some (u, x) ∨ (j = k ∧ x = v) := by
  by_cases same : j = k
  · rw [same, write_self, Row.held_write, Option.some.injEq, Prod.mk.injEq] at held
    exact .inr ⟨same, held.2.symm⟩
  · rw [write_of_ne same] at held
    exact .inl held

theorem held_writeAll {ks : List κ} {x : α} (held : (writeAll t ks v rows j).held = some (u, x)) :
    (rows j).held = some (u, x) ∨ (j ∈ ks ∧ x = v) := by
  unfold writeAll at held
  split_ifs at held with member
  · rw [Row.held_write, Option.some.injEq, Prod.mk.injEq] at held
    exact .inr ⟨member, held.2.symm⟩
  · exact .inl held

theorem kept_write (other : u ≠ t) (free : (rows k).Free t) (v : α) (j : κ) : (rows j).Kept u (write t k v rows j) := by
  by_cases same : j = k
  · rw [same, write_self]
    exact Row.kept_write other free v
  · rw [write_of_ne same]
    exact .refl

theorem kept_writeAll {ks : List κ} (other : u ≠ t)
    (free : ∀ k ∈ ks, (rows k).Free t) (v : α) (j : κ) : (rows j).Kept u (writeAll t ks v rows j) := by
  unfold writeAll
  split_ifs with member
  · exact Row.kept_write other (free j member) v
  · exact .refl

end Table

/-- A database and the state of every transaction that may run on it. -/
structure World (τ D P : Type*) where
  db : D
  proc : τ → P

namespace World
variable {τ A D P : Type*} [DecidableEq τ]
variable {act : τ → A → D → P → Option (D × P)} {w : World τ D P} {t : τ}

/-- One action of one transaction; `none` while it is blocked or when it has nothing left to do. -/
def step (act : τ → A → D → P → Option (D × P)) (w : World τ D P) (e : τ × A) : Option (World τ D P) :=
  (act e.1 e.2 w.db (w.proc e.1)).map fun next => ⟨next.1, update w.proc e.1 next.2⟩

theorem step_eq_some {next : World τ D P} {e : τ × A} (stepped : step act w e = some next) :
    ∃ db p, act e.1 e.2 w.db (w.proc e.1) = some (db, p) ∧ next = ⟨db, update w.proc e.1 p⟩ := by
  obtain ⟨⟨db, p⟩, acted, rfl⟩ := map_eq_some_iff.mp stepped
  exact ⟨db, p, acted, rfl⟩

theorem proc_run {next : World τ D P} {es : List (τ × A)} (reach : run (step act) w es = some next)
    (idle : ∀ e ∈ es, e.1 ≠ t) : next.proc t = w.proc t := by
  induction es generalizing w with
  | nil =>
    cases reach
    rfl
  | cons e es ih =>
    obtain ⟨mid, first, rest⟩ := run_cons reach
    obtain ⟨db, p, -, rfl⟩ := step_eq_some first
    rw [ih rest fun x member => idle x (List.mem_cons_of_mem e member)]
    exact update_of_ne (idle e List.mem_cons_self).symm p w.proc

/-- One transaction runs alone: a condition that holds while all others rest is met. -/
theorem meets_alone {C : World τ D P → τ × A → Prop} (Rest : P → Prop)
    (alone : ∀ w a, (∀ u ≠ t, Rest (w.proc u)) → C w (t, a)) (rest : ∀ u ≠ t, Rest (w.proc u)) (actions : List A) :
    Meets (step act) C w (actions.map fun a => (t, a)) := by
  refine Meets.of_invariant (fun w => ∀ u ≠ t, Rest (w.proc u)) (fun w e member next rest stepped u other => ?_)
    (fun w e member rest => ?_) rest
  · obtain ⟨a, -, rfl⟩ := List.mem_map.mp member
    obtain ⟨db, p, -, rfl⟩ := step_eq_some stepped
    simp only [update_of_ne other]
    exact rest u other
  · obtain ⟨a, -, rfl⟩ := List.mem_map.mp member
    exact alone w a rest

def Exclusive (Q : P → Prop) (proc : τ → P) : Prop := ∀ t u, t ≠ u → Q (proc t) → ¬Q (proc u)

theorem Exclusive.update {Q : P → Prop} {proc : τ → P} {p : P} (exclusive : Exclusive Q proc)
    (enters : Q p → ∀ u ≠ t, ¬Q (proc u)) : Exclusive Q (update proc t p) := by
  intro a b distinct
  by_cases moved : a = t
  · subst moved
    rw [update_self, update_of_ne distinct.symm]
    exact fun inside => enters inside b distinct.symm
  · rw [update_of_ne moved]
    by_cases other : b = t
    · subst other
      rw [update_self]
      exact fun inside entered => enters entered a moved inside
    · rw [update_of_ne other]
      exact exclusive a b distinct

end World

end RemudaRmm.Foundation
