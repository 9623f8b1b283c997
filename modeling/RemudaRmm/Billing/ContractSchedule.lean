import RemudaRmm.Billing.ContractService

/-! What one billing call does to a contract. `Outcome` lists everything `generateDueInvoice` can return; a `Schedule`
reads the stored pointer as a calendar date and says which period that pointer bills. -/
namespace RemudaRmm.Billing
open Foundation List
variable {env : BillingEnv} {s : ContractRows}

structure Due (asOf : Civil) (s : ContractRows) (pointer : Text) : Prop where
  active : s.contract.status = .active
  stored : s.contract.nextBillingAt = some pointer
  reached : textLe pointer (isoDay asOf) = true

def duePeriod (c : Contract) (pointer : Text) : Period :=
  computePeriod c.startDate c.intervalMonths (dueIndex c pointer)

def claimedStarts (s : ContractRows) : List Text := s.periods.map (·.period.periodStart)

/-- Every way a billing call can end, with what decided it. -/
inductive Outcome (env : BillingEnv) (asOf : Civil) (s : ContractRows) :
    Except ServiceError (GenerateResult × ContractRows) → Prop where
  | notDue (idle : ∀ pointer, ¬ Due asOf s pointer) : Outcome env asOf s (.ok (.skipped .notDue, s))
  | expired {pointer : Text} (due : Due asOf s pointer)
      (past : isExpired s.contract.endDate (duePeriod s.contract pointer).periodStart = true) :
      Outcome env asOf s (.ok (.skipped .expired, expireContract s))
  | noLines {pointer : Text} (due : Due asOf s pointer) (empty : s.lines = []) :
      Outcome env asOf s (.ok (.skipped .notDue, s))
  | unpriced {pointer : Text} {e : ServiceError} (due : Due asOf s pointer)
      (failed : assembleInvoice env s = .error e) : Outcome env asOf s (.error e)
  | alreadyBilled {pointer : Text} (due : Due asOf s pointer)
      (claimed : (duePeriod s.contract pointer).periodStart ∈ claimedStarts s) :
      Outcome env asOf s (.ok (.skipped .alreadyBilled, { s with nextInvoiceId := s.nextInvoiceId + 1 }))
  | generated {pointer : Text} {inv : DraftInvoice} (due : Due asOf s pointer)
      (live : isExpired s.contract.endDate (duePeriod s.contract pointer).periodStart = false)
      (priced : assembleInvoice env s = .ok inv)
      (unclaimed : (duePeriod s.contract pointer).periodStart ∉ claimedStarts s) :
      Outcome env asOf s (.ok (.generated inv.id s.contract.autoIssue,
        advancePointer (dueIndex s.contract pointer)
          (claimPeriod (duePeriod s.contract pointer) inv s)))

theorem any_eq_claimed (s : ContractRows) (start : Text) :
    s.periods.any (fun p => p.period.periodStart == start) = decide (start ∈ claimedStarts s) := by
  rw [Bool.eq_iff_iff, List.any_eq_true, decide_eq_true_eq, claimedStarts, List.mem_map]
  simp only [beq_iff_eq]

theorem generateDueInvoice_outcome (env : BillingEnv) (asOf : Civil) (s : ContractRows) :
    Outcome env asOf s (generateDueInvoice env asOf s) := by
  unfold generateDueInvoice
  simp only [any_eq_claimed, decide_eq_true_eq]
  split
  case h_2 unmatched =>
    exact .notDue fun pointer due => unmatched pointer due.active due.stored
  case h_1 pointer active stored =>
    split_ifs with early past empty claimed
    · apply Outcome.notDue
      intro other due
      obtain rfl : pointer = other := Option.some.inj (stored.symm.trans due.stored)
      have reached := due.reached
      rw [textLe, early] at reached
      cases reached
    all_goals have due : Due asOf s pointer := ⟨active, stored, by simp [textLe, early]⟩
    · exact .expired due past
    · exact .noLines due (length_eq_zero_iff.mp empty)
    · cases priced : assembleInvoice env s with
      | error e => exact .unpriced due priced
      | ok inv => exact .alreadyBilled due claimed
    · cases priced : assembleInvoice env s with
      | error e => exact .unpriced due priced
      | ok inv => exact .generated due (Bool.eq_false_iff.mpr past) priced claimed

/-- The rows once the call's transaction has ended: a call that throws is rolled back. -/
def billed (env : BillingEnv) (asOf : Civil) (s : ContractRows) : ContractRows :=
  match generateDueInvoice env asOf s with
  | .ok (_, t) => t
  | .error _ => s

theorem billed_idle {asOf : Civil} (idle : ∀ pointer, ¬ Due asOf s pointer) : billed env asOf s = s := by
  have outcome := generateDueInvoice_outcome env asOf s
  unfold billed
  generalize generateDueInvoice env asOf s = result at outcome
  cases outcome with
  | notDue _ => rfl
  | expired due _ | noLines due _ | unpriced due _ | alreadyBilled due _ | generated due _ _ _ =>
    exact absurd due (idle _)

theorem not_active_expireContract (s : ContractRows) : (expireContract s).contract.status ≠ .active := by
  intro active
  cases active

theorem mapM_ok {α β ε : Type} {f : α → Except ε β} {l : List α} (each : ∀ a ∈ l, ∃ b, f a = .ok b) :
    ∃ bs, l.mapM f = .ok bs := by
  induction l with
  | nil => exact ⟨[], rfl⟩
  | cons a l ih =>
    obtain ⟨b, head⟩ := each a mem_cons_self
    obtain ⟨bs, tail⟩ := ih fun x member => each x (mem_cons_of_mem a member)
    exact ⟨b :: bs, by rw [mapM_cons, head, tail]; rfl⟩

def Priced (env : BillingEnv) (s : ContractRows) : Prop :=
  ∀ l ∈ s.lines, ∃ line, addContractLine env l = .ok line

theorem Priced.assembled (h : Priced env s) : ∃ inv, assembleInvoice env s = .ok inv := by
  obtain ⟨lines, added⟩ := mapM_ok (f := addContractLine env)
    (l := s.lines.insertionSort fun a b => a.sortOrder ≤ b.sortOrder)
    fun l member => h l ((mem_insertionSort _).mp member)
  unfold assembleInvoice
  rw [added]
  exact ⟨_, rfl⟩

theorem billed_due {asOf : Civil} {pointer : Text}
    (due : Due asOf s pointer) (lines : s.lines ≠ []) (priced : Priced env s)
    (unclaimed : (duePeriod s.contract pointer).periodStart ∉ claimedStarts s) :
    isExpired s.contract.endDate (duePeriod s.contract pointer).periodStart = true ∧
        billed env asOf s = expireContract s ∨
      isExpired s.contract.endDate (duePeriod s.contract pointer).periodStart = false ∧
        ∃ inv, billed env asOf s = advancePointer (dueIndex s.contract pointer)
          (claimPeriod (duePeriod s.contract pointer) inv s) := by
  obtain ⟨inv, assembled⟩ := priced.assembled
  have pointers : ∀ other, Due asOf s other → other = pointer := fun other also =>
    Option.some.inj (also.stored.symm.trans due.stored)
  have outcome := generateDueInvoice_outcome env asOf s
  unfold billed
  generalize generateDueInvoice env asOf s = result at outcome
  cases outcome with
  | notDue idle => exact absurd due (idle pointer)
  | expired also past =>
    obtain rfl := pointers _ also
    exact .inl ⟨past, rfl⟩
  | noLines also empty => exact absurd empty lines
  | unpriced also failed =>
    rw [assembled] at failed
    cases failed
  | alreadyBilled also claimed =>
    obtain rfl := pointers _ also
    exact absurd claimed unclaimed
  | generated also live priced fresh =>
    obtain rfl := pointers _ also
    exact .inr ⟨live, _, rfl⟩

structure Schedule where
  start : Civil
  interval : ℕ
  timing : BillingTiming
  positive : 1 ≤ interval
  years : WithinYears interval start

namespace Schedule
variable (sch : Schedule)
variable {i j index : ℕ} {day : Civil} {s : ContractRows}

structure Governs (c : Contract) : Prop where
  startDate : c.startDate = iso sch.start
  intervalMonths : c.intervalMonths = sch.interval
  billingTiming : c.billingTiming = sch.timing

def begins (index : ℕ) : Civil := boundary sch.start sch.interval index

def shift : ℕ :=
  match sch.timing with
  | .advance => 0
  | .arrears => 1

def dueDay (index : ℕ) : Civil := sch.begins (index + sch.shift)

def cap : ℕ := runawayGuard + 1 - sch.shift

/-- The stored pointer is that of the period with this index. -/
structure Aims (c : Contract) (index : ℕ) : Prop where
  stored : c.nextBillingAt = some (iso (sch.dueDay index))
  date : FourDigit (sch.dueDay index)

def current (asOf : Civil) : ℕ := periodIndexFor (iso sch.start) sch.interval (iso asOf)

variable {sch} {c : Contract}

theorem valid_begins (index : ℕ) : (sch.begins index).Valid := sch.years.date.valid.addMonths _

theorem begins_lt_iff : (sch.begins i).rank < (sch.begins j).rank ↔ i < j :=
  rank_boundary_lt_iff sch.years.date.valid sch.positive

theorem begins_le_iff : (sch.begins i).rank ≤ (sch.begins j).rank ↔ i ≤ j :=
  rank_boundary_le_iff sch.years.date.valid sch.positive

theorem monthIndex_begins (index : ℕ) :
    (sch.begins index).monthIndex = sch.start.monthIndex + sch.interval * index :=
  monthIndex_boundary _ _ _

theorem fourDigit_begins (room : sch.start.monthIndex + sch.interval * index < 120000) :
    FourDigit (sch.begins index) := fourDigit_boundary sch.years.date room

theorem fourDigit_of_le (below : i ≤ j) (date : FourDigit (sch.begins j)) : FourDigit (sch.begins i) := by
  have month := date.monthIndex_high
  rw [monthIndex_begins] at month
  apply fourDigit_begins
  have scaled : (sch.interval : ℤ) * i ≤ sch.interval * j := by
    exact_mod_cast Nat.mul_le_mul_left sch.interval below
  omega

theorem fourDigit_succ (years : WithinYears sch.interval day)
    (begun : (sch.begins index).rank ≤ day.rank) : FourDigit (sch.begins (index + 1)) := by
  have month := monthIndex_le_of_rank (sch.valid_begins index) years.date.valid begun
  have room := years.room
  rw [monthIndex_begins] at month
  apply fourDigit_begins
  push_cast
  rw [mul_add, mul_one]
  omega

theorem computePeriod_begins (h : sch.Governs c) (index : ℕ) :
    computePeriod c.startDate c.intervalMonths index = ⟨iso (sch.begins index), iso (sch.begins (index + 1))⟩ := by
  rw [h.startDate, h.intervalMonths, computePeriod_eq sch.years.date]
  rfl

theorem nextBillingDate_dueDay (h : sch.Governs c) (index : ℕ) :
    nextBillingDate c.startDate c.intervalMonths c.billingTiming index = iso (sch.dueDay index) := by
  unfold nextBillingDate
  rw [computePeriod_begins h, h.billingTiming]
  unfold dueDay shift
  cases sch.timing with
  | advance | arrears => rfl

theorem dueIndex_dueDay (h : sch.Governs c) (date : FourDigit (sch.dueDay index))
    (years : WithinYears sch.interval day) (reached : (sch.dueDay index).rank ≤ day.rank) :
    dueIndex c (iso (sch.dueDay index)) = min index sch.cap := by
  have month := monthIndex_le_of_rank date.valid years.date.valid reached
  have room := years.room
  have within : WithinYears sch.interval (sch.dueDay index) := ⟨date, by omega⟩
  have found := periodIndexFor_boundary sch.positive sch.years within
  unfold dueIndex
  rw [h.startDate, h.intervalMonths, h.billingTiming, dueDay, begins, found]
  unfold cap shift
  generalize runawayGuard = guard
  cases sch.timing with
  | advance => rfl
  | arrears => exact Nat.add_min_add_right index guard 1 ▸ rfl

theorem fourDigit_current (years : WithinYears sch.interval day) : FourDigit (sch.begins (sch.current day + 1)) := by
  obtain ⟨-, reached, -⟩ := periodIndexFor_spec sch.years years
  exact fourDigit_begins (room_after_started sch.years years reached)

theorem current_le_cap (years : WithinYears sch.interval day)
    (guarded : sch.timing = .arrears → sch.current day ≤ runawayGuard) : sch.current day ≤ sch.cap := by
  obtain ⟨high, -, -⟩ := periodIndexFor_spec sch.years years
  unfold cap shift
  cases timing : sch.timing with
  | advance => exact high
  | arrears => exact guarded timing

theorem pointerAsOf_current (h : sch.Governs c) (years : WithinYears sch.interval day) :
    pointerAsOf c (isoDay day) = iso (sch.dueDay (sch.current day)) := by
  unfold pointerAsOf current
  rw [nextBillingDate_dueDay h, isoDay_eq_iso years.date, h.startDate, h.intervalMonths]

theorem fourDigit_dueDay_current (years : WithinYears sch.interval day) : FourDigit (sch.dueDay (sch.current day)) := by
  have next : FourDigit (sch.begins (sch.current day + 1)) := fourDigit_current years
  unfold dueDay shift
  cases sch.timing with
  | advance => exact fourDigit_of_le (Nat.le_succ _) next
  | arrears => exact next

theorem begins_le_dueDay (index : ℕ) : (sch.begins index).rank ≤ (sch.dueDay index).rank :=
  begins_le_iff.mpr (Nat.le_add_right _ _)

theorem Aims.fourDigit_begins (aims : sch.Aims c index) : FourDigit (sch.begins index) :=
  fourDigit_of_le (Nat.le_add_right _ _) aims.date

theorem due_reads {pointer : Text} (due : Due day s pointer) (aims : sch.Aims s.contract index) (date : FourDigit day) :
    pointer = iso (sch.dueDay index) ∧ (sch.dueDay index).rank ≤ day.rank := by
  have same : pointer = iso (sch.dueDay index) := Option.some.inj (due.stored.symm.trans aims.stored)
  have reached := due.reached
  rw [same, isoDay_eq_iso date, textLe_iso aims.date date, decide_eq_true_eq] at reached
  exact ⟨same, reached⟩

theorem due_of_reached (active : s.contract.status = .active) (aims : sch.Aims s.contract index) (date : FourDigit day)
    (reached : (sch.dueDay index).rank ≤ day.rank) : Due day s (iso (sch.dueDay index)) := by
  refine ⟨active, aims.stored, ?_⟩
  rw [isoDay_eq_iso date, textLe_iso aims.date date, decide_eq_true_eq]
  exact reached

theorem begins_not_claimed {indices : List ℕ} (date : FourDigit (sch.begins index)) (later : ∀ i ∈ indices, i < index) :
    iso (sch.begins index) ∉ indices.map fun i => iso (sch.begins i) := by
  intro member
  obtain ⟨i, found, same⟩ := List.mem_map.mp member
  have below := later i found
  have dates := iso_injective (fourDigit_of_le below.le date) date same
  have less : (sch.begins i).rank < (sch.begins index).rank := begins_lt_iff.mpr below
  rw [dates] at less
  exact lt_irrefl _ less

theorem duePeriod_begins (h : sch.Governs c)
    (date : FourDigit (sch.dueDay index)) (years : WithinYears sch.interval day)
    (reached : (sch.dueDay index).rank ≤ day.rank) :
    duePeriod c (iso (sch.dueDay index)) =
      ⟨iso (sch.begins (min index sch.cap)), iso (sch.begins (min index sch.cap + 1))⟩ := by
  rw [duePeriod, dueIndex_dueDay h date years reached, computePeriod_begins h]

theorem advancePointer_cases (h : sch.Governs s.contract) (index : ℕ) :
    isExpired s.contract.endDate (iso (sch.begins (index + 1))) = true ∧
        advancePointer index s = expireContract s ∨
      isExpired s.contract.endDate (iso (sch.begins (index + 1))) = false ∧
        advancePointer index s =
          { s with contract := { s.contract with nextBillingAt := some (iso (sch.dueDay (index + 1))) } } := by
  have target := nextBillingDate_dueDay h (index + 1)
  unfold nextBillingDate at target
  unfold advancePointer
  simp only [computePeriod_begins h] at target ⊢
  cases expired : isExpired s.contract.endDate (iso (sch.begins (index + 1))) with
  | true => exact .inl ⟨rfl, rfl⟩
  | false =>
    refine .inr ⟨rfl, ?_⟩
    rw [if_neg Bool.false_ne_true]
    exact congrArg (fun date => { s with contract := { s.contract with nextBillingAt := some date } }) target

end Schedule
end RemudaRmm.Billing
