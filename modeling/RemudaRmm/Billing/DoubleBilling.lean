import RemudaRmm.Billing.InvoiceStatements

/-! Time entries and parts on invoices. `issueInvoice` locks only the source rows it finds billed, which does not hold
off another issue of the same rows, and `voidInvoice` checks its invoice before its transaction opens. Where the rows
are still not billed when flipped, and the invoice still issued when voided, no source row is billed on two live
invoices. -/
namespace RemudaRmm.Billing
open Foundation List Option Row Table

def InvoiceRow.Live (row : InvoiceRow) : Prop := row.status ≠ .draft ∧ row.status ≠ .void

namespace BillingDb

def lines (db : BillingDb) (i : InvoiceId) : List SourcedLine :=
  ((db.invoices i).committed.map InvoiceRow.lines).getD []

def Bills (db : BillingDb) (i : InvoiceId) (s : SourceId) : Prop := ∃ l ∈ db.lines i, l.source = some s

def Live (db : BillingDb) (i : InvoiceId) : Prop := ∃ row, (db.invoices i).committed = some row ∧ row.Live

/-- No source row is on two live invoices, and none on a live invoice is up for billing. -/
structure BilledOnce (db : BillingDb) : Prop where
  once : ∀ i j s, db.Live i → db.Live j → db.Bills i s → db.Bills j s → i = j
  billed : ∀ i s, db.Live i → db.Bills i s → (db.sources s).committed ≠ .notBilled

end BillingDb

/-- What the call checked when it began still holds for its next statement. -/
def Rechecks (db : BillingDb) : BillingProc → Prop
  | ⟨.issueInvoice id, .issued times _⟩ =>
    ∀ n ∈ times, (db.sources (.timeEntry n)).committed = .notBilled ∨ db.Live id
  | ⟨.issueInvoice id, .timeFlipped parts⟩ =>
    ∀ n ∈ parts, (db.sources (.part n)).committed = .notBilled ∨ db.Live id
  | ⟨.voidInvoice id _ _, .collected _ _ _⟩ => db.Live id
  | _ => True

/-- Whenever `issueInvoice` marks a source row billed, the row is still not billed or the invoice is
issued already; whenever `voidInvoice` writes, its invoice is still issued and not void. -/
def ChecksStand (w : DocumentWorld) : ℕ × BillingAction → Prop
  | (_, .fail) => True
  | (t, .exec _) => Rechecks w.db (w.proc t)

def BillingStage.Found : BillingStage → Prop
  | .start | .returned | .threw _ => False
  | _ => True

/-- The source rows a call has read off its invoice and still keeps. -/
def BillingStage.Gathers (times parts : List ℕ) : BillingStage → Prop
  | .gathered ts ps | .timeChecked ts ps | .partsChecked ts ps | .numbered ts ps _ _ | .totalled ts ps _ _ _
  | .issued ts ps | .collected ts ps _ | .voided ts ps _ => ts = times ∧ ps = parts
  | .timeFlipped ps | .timeReleased ps _ => ps = parts
  | _ => True

def BillingStage.Sent : BillingStage → Prop
  | .issued _ _ | .timeFlipped _ | .committing => True
  | _ => False

def BillingStage.Flipped (s : SourceId) : BillingStage → Prop
  | .timeFlipped _ => ∃ n, s = .timeEntry n
  | .committing => True
  | _ => False

def BillingStage.Voiding : BillingStage → Prop
  | .voided _ _ _ | .timeReleased _ _ | .released _ | .drafted | .linked | .parentsCloned | .committing => True
  | _ => False

/-- What an issue under way relies on. -/
structure Issues (db : BillingDb) (t : ℕ) (id : InvoiceId) (stage : BillingStage) : Prop where
  found : stage.Found → (db.invoices id).committed ≠ none
  gathers : stage.Found → stage.Gathers (timeIds (db.lines id)) (partIds (db.lines id))
  unsent : ¬stage.Sent → ∀ i v, (db.invoices i).held ≠ some (t, v)
  sent : stage.Sent → ∃ v, (db.invoices id).held = some (t, v)
  only : ∀ i v, (db.invoices i).held = some (t, v) → i = id
  sources : ∀ s v, (db.sources s).held = some (t, v) →
    v = .billed ∧ stage.Sent ∧ ((db.sources s).committed = .notBilled ∨ db.Live id)
  flipped : ∀ s, stage.Flipped s → db.Bills id s → (db.sources s).held = some (t, .billed)

/-- What a void under way relies on. -/
structure Voids (db : BillingDb) (t : ℕ) (id : InvoiceId) (stage : BillingStage) : Prop where
  found : stage.Found → (db.invoices id).committed ≠ none
  gathers : stage.Found → stage.Gathers (timeIds (db.lines id)) (partIds (db.lines id))
  unheld : ¬stage.Voiding → ∀ i v, (db.invoices i).held ≠ some (t, v)
  voided : stage.Voiding → db.Live id ∧ ∃ v, (db.invoices id).held = some (t, v)
  dead : ∀ i row, (db.invoices i).held = some (t, some row) → ¬row.Live
  sources : ∀ s v, (db.sources s).held = some (t, v) → v = .notBilled ∧ stage.Voiding ∧ db.Bills id s

/-- What the other calls write: invoices without source rows, if any. -/
structure Sourceless (db : BillingDb) (t : ℕ) : Prop where
  invoices : ∀ i row, (db.invoices i).held = some (t, some row) → ∀ l ∈ row.lines, l.source = none
  sources : ∀ s v, (db.sources s).held ≠ some (t, v)

def CallBilling (db : BillingDb) (t : ℕ) (p : BillingProc) : Prop :=
  match p.call with
  | .issueInvoice id => Issues db t id p.stage
  | .voidInvoice id _ _ => Voids db t id p.stage
  | _ => Sourceless db t

def KeepsLines (r : Row ℕ (Option InvoiceRow)) (v : Option InvoiceRow) : Prop :=
  ∃ row, v = some row ∧ ∀ old, r.committed = some old → row.lines = old.lines

structure SourceBilling (w : DocumentWorld) : Prop where
  fresh : Fresh w
  versions : ∀ i t v, (w.db.invoices i).held = some (t, v) → KeepsLines (w.db.invoices i) v
  calls : ∀ t, CallBilling w.db t (w.proc t)
  billedOnce : w.db.BilledOnce

section Lines
variable {db next : BillingDb} {i : InvoiceId}

theorem BillingDb.Live.present (live : db.Live i) : (db.invoices i).committed ≠ none := by
  obtain ⟨row, committed, -⟩ := live
  exact committed ▸ nofun

theorem BillingDb.Live.congr (live : db.Live i) (same : (next.invoices i).committed = (db.invoices i).committed) :
    next.Live i := by
  obtain ⟨row, committed, alive⟩ := live
  exact ⟨row, same.trans committed, alive⟩

theorem BillingDb.lines_congr (same : (next.invoices i).committed = (db.invoices i).committed) :
    next.lines i = db.lines i := by
  rw [BillingDb.lines, BillingDb.lines, same]

theorem mem_timeIds {lines : List SourcedLine} {n : ℕ} :
    n ∈ timeIds lines ↔ ∃ l ∈ lines, l.source = some (.timeEntry n) := by
  unfold timeIds
  rw [mem_filterMap]
  refine exists_congr fun l => and_congr_right fun _ => ?_
  cases source : l.source with
  | none => simp only [reduceCtorEq]
  | some s => cases s <;> simp only [Option.some.injEq, SourceId.timeEntry.injEq, reduceCtorEq]

theorem mem_partIds {lines : List SourcedLine} {n : ℕ} :
    n ∈ partIds lines ↔ ∃ l ∈ lines, l.source = some (.part n) := by
  unfold partIds
  rw [mem_filterMap]
  refine exists_congr fun l => and_congr_right fun _ => ?_
  cases source : l.source with
  | none => simp only [reduceCtorEq]
  | some s => cases s <;> simp only [Option.some.injEq, SourceId.part.injEq, reduceCtorEq]

theorem linesOf_of_not_held {t : ℕ} (free : ∀ v, (db.invoices i).held ≠ some (t, v)) : linesOf t db i = db.lines i := by
  rw [linesOf, BillingDb.lines, read_of_not_held free]

def LinesStand (db next : BillingDb) : Prop :=
  ∀ i, (db.invoices i).committed ≠ none → (next.invoices i).committed ≠ none ∧ next.lines i = db.lines i

theorem LinesStand.bills (stand : LinesStand db next) (present : (db.invoices i).committed ≠ none) {s : SourceId} :
    next.Bills i s ↔ db.Bills i s := by
  rw [BillingDb.Bills, BillingDb.Bills, (stand i present).2]

end Lines

section Transfer
variable {db next : BillingDb} {u : ℕ} {id : InvoiceId} {stage : BillingStage}

theorem Issues.transfer (issues : Issues db u id stage) (still : db.Undisturbed u next) (stand : LinesStand db next) :
    Issues next u id stage where
  found inside := (stand id (issues.found inside)).1
  gathers inside := by
    rw [(stand id (issues.found inside)).2]
    exact issues.gathers inside
  unsent outside i v held := issues.unsent outside i v (((still.invoices i).kept v).mp held)
  sent inside := by
    obtain ⟨v, held⟩ := issues.sent inside
    exact ⟨v, ((still.invoices id).kept v).mpr held⟩
  only i v held := issues.only i v (((still.invoices i).kept v).mp held)
  sources s v held := by
    have before := ((still.sources s).kept v).mp held
    obtain ⟨billed, inside, clear⟩ := issues.sources s v before
    refine ⟨billed, inside, ?_⟩
    obtain unbilled | live := clear
    · exact .inl (((still.sources s).committed v before).trans unbilled)
    · obtain ⟨row, mine⟩ := issues.sent inside
      exact .inr (live.congr ((still.invoices id).committed row mine))
  flipped s late bills := by
    have inside : stage.Found := by
      cases stage <;> first | exact late.elim | exact trivial
    exact ((still.sources s).kept _).mpr (issues.flipped s late ((stand.bills (issues.found inside)).mp bills))

theorem Voids.transfer (voids : Voids db u id stage) (still : db.Undisturbed u next) (stand : LinesStand db next) :
    Voids next u id stage where
  found inside := (stand id (voids.found inside)).1
  gathers inside := by
    rw [(stand id (voids.found inside)).2]
    exact voids.gathers inside
  unheld outside i v held := voids.unheld outside i v (((still.invoices i).kept v).mp held)
  voided inside := by
    obtain ⟨live, v, held⟩ := voids.voided inside
    exact ⟨live.congr ((still.invoices id).committed v held), v, ((still.invoices id).kept v).mpr held⟩
  dead i row held := voids.dead i row (((still.invoices i).kept _).mp held)
  sources s v held := by
    obtain ⟨released, inside, bills⟩ := voids.sources s v (((still.sources s).kept v).mp held)
    exact ⟨released, inside, (stand.bills (voids.voided inside).1.present).mpr bills⟩

theorem Sourceless.transfer (sourceless : Sourceless db u) (still : db.Undisturbed u next) : Sourceless next u where
  invoices i row held := sourceless.invoices i row (((still.invoices i).kept _).mp held)
  sources s v held := sourceless.sources s v (((still.sources s).kept v).mp held)

theorem CallBilling.transfer {p : BillingProc} (billing : CallBilling db u p) (still : db.Undisturbed u next)
    (stand : LinesStand db next) : CallBilling next u p := by
  obtain ⟨call, stage⟩ := p
  cases call with
  | issueInvoice id => exact Issues.transfer billing still stand
  | voidInvoice id reason reissue => exact Voids.transfer billing still stand
  | _ => exact Sourceless.transfer billing still

end Transfer

section Own
variable {cfg : PartnerSettings} {db next : BillingDb} {t : ℕ} {now : Instant} {id : InvoiceId}
variable {before stage : BillingStage}
variable {f : InvoiceRow → InvoiceRow} {i : InvoiceId} {row : InvoiceRow} {call : BillingCall} {v : Option InvoiceRow}

theorem BillingStage.Ended.not_found (ended : stage.Ended) : ¬stage.Found := by
  cases stage <;> first | exact ended.elim | exact fun found => found

theorem Issues.of_released (ended : stage.Ended) (invoices : ∀ i v, (db.invoices i).held ≠ some (t, v))
    (sources : ∀ s v, (db.sources s).held ≠ some (t, v)) : Issues db t id stage where
  found inside := absurd inside ended.not_found
  gathers inside := absurd inside ended.not_found
  unsent _ := invoices
  sent inside := by cases stage <;> first | exact inside.elim | exact ended.elim
  only i v held := absurd held (invoices i v)
  sources s v held := absurd held (sources s v)
  flipped s late := by cases stage <;> first | exact late.elim | exact ended.elim

theorem Issues.onward (issues : Issues db t id before) (invoices : next.invoices = db.invoices)
    (sources : next.sources = db.sources) (early : ¬before.Sent) (unsent : ¬stage.Sent)
    (unflipped : ∀ s, ¬stage.Flipped s) (found : (db.invoices id).committed ≠ none)
    (gathers : stage.Gathers (timeIds (db.lines id)) (partIds (db.lines id))) : Issues next t id stage where
  found _ := by
    rw [invoices]
    exact found
  gathers _ := by
    rw [BillingDb.lines_congr (congrArg Row.committed (congrFun invoices id))]
    exact gathers
  unsent _ i v := by
    rw [invoices]
    exact issues.unsent early i v
  sent inside := absurd inside unsent
  only i v held := by
    rw [invoices] at held
    exact issues.only i v held
  sources s v held := by
    rw [sources] at held
    exact absurd (issues.sources s v held).2.1 early
  flipped s late := absurd late (unflipped s)

theorem Issues.send (issues : Issues db t id before) (early : ¬before.Sent) (found : (db.invoices id).committed ≠ none)
    {times parts : List ℕ} (gathers : timeIds (db.lines id) = times ∧ partIds (db.lines id) = parts)
    (updated : UpdatedInvoice t db id f next) : Issues next t id (.issued times parts) := by
  obtain ⟨-, ⟨row, -, rfl⟩ | ⟨gone, rfl⟩⟩ := updated
  · have same : ((db.setInvoice t id (f row)).invoices id).committed = (db.invoices id).committed :=
      committed_write ..
    exact {
      found := fun _ => same ▸ found
      gathers := fun _ => by
        rw [BillingDb.lines_congr same]
        exact ⟨gathers.1.symm, gathers.2.symm⟩
      unsent := fun outside => absurd trivial outside
      sent := fun _ => ⟨some (f row), by rw [BillingDb.invoices_setInvoice_self, held_write]⟩
      only := fun i v held => by
        obtain earlier | ⟨mine, -⟩ := held_write held
        · exact absurd earlier (issues.unsent early i v)
        · exact mine
      sources := fun s v held => absurd (issues.sources s v held).2.1 early
      flipped := fun s late => late.elim }
  · rw [read_of_not_held (issues.unsent early id)] at gone
    exact absurd gone found

theorem Issues.flip (issues : Issues db t id before) (sent : before.Sent) (found : (db.invoices id).committed ≠ none)
    {ids : List SourceId} (clear : ∀ s ∈ ids, (db.sources s).committed = .notBilled ∨ db.Live id)
    (onward : stage.Sent) (gathers : stage.Gathers (timeIds (db.lines id)) (partIds (db.lines id)))
    (flips : ∀ s, stage.Flipped s → db.Bills id s → s ∈ ids ∨ before.Flipped s) :
    Issues (db.setSources t ids .billed) t id stage where
  found _ := found
  gathers _ := gathers
  unsent outside := absurd onward outside
  sent _ := issues.sent sent
  only := issues.only
  sources s v held := by
    have same : ((db.setSources t ids .billed).sources s).committed = (db.sources s).committed :=
      committed_writeAll ..
    rw [same]
    obtain earlier | ⟨member, billed⟩ := held_writeAll held
    · obtain ⟨billed, -, clear⟩ := issues.sources s v earlier
      exact ⟨billed, onward, clear⟩
    · exact ⟨billed, onward, clear s member⟩
  flipped s late bills := by
    simp only [BillingDb.setSources, writeAll]
    split_ifs with member
    · exact held_write ..
    · obtain inside | earlier := flips s late bills
      · exact absurd inside member
      · exact issues.flipped s earlier bills

theorem Issues.own (issues : Issues db t id before) (stands : ¬stage.Ended → Rechecks db ⟨.issueInvoice id, before⟩)
    (statement : DocumentStatement cfg t now db (.issueInvoice id) before next stage) : Issues next t id stage := by
  cases statement with
  | failed running e =>
    exact .of_released trivial (fun _ v => not_held_rollback t v _) fun _ v => not_held_rollback t v _
  | committed =>
    exact .of_released trivial (fun _ v => not_held_commit t v _) fun _ v => not_held_commit t v _
  | draftLoaded seen draft =>
    rw [read_of_not_held (issues.unsent (fun inside => inside) id)] at seen
    exact issues.onward rfl rfl (fun inside => inside) (fun inside => inside) (fun _ inside => inside) (seen ▸ nofun)
      trivial
  | draftGathered =>
    rw [linesOf_of_not_held (issues.unsent (fun inside => inside) id)]
    exact issues.onward rfl rfl (fun inside => inside) (fun inside => inside) (fun _ inside => inside)
      (issues.found trivial) ⟨rfl, rfl⟩
  | issued taxRate updated =>
    obtain ⟨times, parts⟩ := issues.gathers trivial
    exact issues.send (fun inside => inside) (issues.found trivial) ⟨times.symm, parts.symm⟩ updated
  | timeFlipped free =>
    obtain ⟨times, parts⟩ := issues.gathers trivial
    have clear := stands fun ended => ended
    refine issues.flip trivial (issues.found trivial) (fun s member => ?_) trivial parts
      fun s late bills => ?_
    · obtain ⟨n, listed, rfl⟩ := List.mem_map.mp member
      exact clear n listed
    · obtain ⟨n, rfl⟩ := late
      exact .inl (List.mem_map_of_mem (times ▸ mem_timeIds.mpr bills))
  | partsFlipped free =>
    have parts := issues.gathers trivial
    have clear := stands fun ended => ended
    refine issues.flip trivial (issues.found trivial) (fun s member => ?_) trivial trivial
      fun s late bills => ?_
    · obtain ⟨n, listed, rfl⟩ := List.mem_map.mp member
      exact clear n listed
    · cases s with
      | timeEntry n => exact .inr ⟨n, rfl⟩
      | part n => exact .inl (List.mem_map_of_mem (parts ▸ mem_partIds.mpr bills))
  | _ =>
    exact issues.onward rfl rfl (fun inside => inside) (fun inside => inside) (fun _ inside => inside)
      (issues.found trivial) (issues.gathers trivial)

theorem Voids.of_released (ended : stage.Ended) (invoices : ∀ i v, (db.invoices i).held ≠ some (t, v))
    (sources : ∀ s v, (db.sources s).held ≠ some (t, v)) : Voids db t id stage where
  found inside := absurd inside ended.not_found
  gathers inside := absurd inside ended.not_found
  unheld _ := invoices
  voided inside := by cases stage <;> first | exact inside.elim | exact ended.elim
  dead i row held := absurd held (invoices i (some row))
  sources s v held := absurd held (sources s v)

theorem Voids.onward (voids : Voids db t id before) (early : ¬before.Voiding) (unvoided : ¬stage.Voiding)
    (found : (db.invoices id).committed ≠ none)
    (gathers : stage.Gathers (timeIds (db.lines id)) (partIds (db.lines id))) : Voids db t id stage where
  found _ := found
  gathers _ := gathers
  unheld _ := voids.unheld early
  voided inside := absurd inside unvoided
  dead := voids.dead
  sources s v held := absurd (voids.sources s v held).2.1 early

theorem Voids.write (voids : Voids db t id before) (live : db.Live id)
    (holds : i = id ∨ ∃ v, (db.invoices id).held = some (t, v)) (dead : ¬row.Live)
    (onward : stage.Voiding) (gathers : stage.Gathers (timeIds (db.lines id)) (partIds (db.lines id))) :
    Voids (db.setInvoice t i row) t id stage := by
  have same : ((db.setInvoice t i row).invoices id).committed = (db.invoices id).committed := committed_write ..
  have lines : (db.setInvoice t i row).lines id = db.lines id := BillingDb.lines_congr same
  exact {
    found := fun _ => same ▸ live.present
    gathers := fun _ => by
      rw [lines]
      exact gathers
    unheld := fun outside => absurd onward outside
    voided := fun _ => by
      refine ⟨live.congr same, ?_⟩
      by_cases mine : id = i
      · subst mine
        exact ⟨some row, by rw [BillingDb.invoices_setInvoice_self, held_write]⟩
      · rw [BillingDb.invoices_setInvoice_of_ne mine]
        exact holds.resolve_left fun other => mine other.symm
    dead := fun j other held => by
      obtain earlier | ⟨-, written⟩ := held_write held
      · exact voids.dead j other earlier
      · exact some.inj written ▸ dead
    sources := fun s v held => by
      obtain ⟨released, -, bills⟩ := voids.sources s v held
      refine ⟨released, onward, ?_⟩
      rw [BillingDb.Bills, lines]
      exact bills }

theorem Voids.update (voids : Voids db t id before) (inside : before.Voiding) (updated : UpdatedInvoice t db i f next)
    (own : (∃ v, (db.invoices i).held = some (t, v)) ∨ (db.invoices i).committed = none)
    (status : ∀ row, (f row).status = row.status) (onward : stage.Voiding)
    (gathers : stage.Gathers (timeIds (db.lines id)) (partIds (db.lines id))) : Voids next t id stage := by
  obtain ⟨live, held⟩ := voids.voided inside
  obtain ⟨-, ⟨row, seen, rfl⟩ | ⟨-, rfl⟩⟩ := updated
  · have dead : ¬row.Live := by
      rcases (db.invoices i).read_cases t with ⟨v, mine, read⟩ | ⟨unheld, same⟩
      · exact voids.dead i row (read.symm.trans seen ▸ mine)
      · rw [same, own.resolve_left fun ⟨v, mine⟩ => unheld v mine] at seen
        cases seen
    refine voids.write live (.inr held) (fun alive => dead ?_) onward gathers
    rw [InvoiceRow.Live, status] at alive
    exact alive
  · exact {
      found := fun _ => live.present
      gathers := fun _ => gathers
      unheld := fun outside => absurd onward outside
      voided := fun _ => ⟨live, held⟩
      dead := voids.dead
      sources := fun s v held => ⟨(voids.sources s v held).1, onward, (voids.sources s v held).2.2⟩ }

theorem Voids.release (voids : Voids db t id before) (inside : before.Voiding) {ids : List SourceId}
    (bills : ∀ s ∈ ids, db.Bills id s) (onward : stage.Voiding)
    (gathers : stage.Gathers (timeIds (db.lines id)) (partIds (db.lines id))) :
    Voids (db.setSources t ids .notBilled) t id stage where
  found _ := (voids.voided inside).1.present
  gathers _ := gathers
  unheld outside := absurd onward outside
  voided _ := voids.voided inside
  dead := voids.dead
  sources s v held := by
    obtain earlier | ⟨member, released⟩ := held_writeAll held
    · obtain ⟨released, -, listed⟩ := voids.sources s v earlier
      exact ⟨released, onward, listed⟩
    · exact ⟨released, onward, bills s member⟩

theorem Voids.own {reason : String} {reissue : Bool} (voids : Voids db t id before)
    (stands : ¬stage.Ended → Rechecks db ⟨.voidInvoice id reason reissue, before⟩)
    (unmade : ∀ i : InvoiceId, i.MadeBy t → before ≠ .returned → (db.invoices i).committed = none)
    (statement : DocumentStatement cfg t now db (.voidInvoice id reason reissue) before next stage) :
    Voids next t id stage := by
  cases statement with
  | failed running e =>
    exact .of_released trivial (fun _ v => not_held_rollback t v _) fun _ v => not_held_rollback t v _
  | committed =>
    exact .of_released trivial (fun _ v => not_held_commit t v _) fun _ v => not_held_commit t v _
  | liveLoaded seen live =>
    rw [read_of_not_held (voids.unheld (fun inside => inside) id)] at seen
    exact voids.onward (fun inside => inside) (fun inside => inside) (seen ▸ nofun) trivial
  | liveGathered =>
    rw [linesOf_of_not_held (voids.unheld (fun inside => inside) id)]
    exact voids.onward (fun inside => inside) (fun inside => inside) (voids.found trivial)
      ⟨rfl, rfl⟩
  | voided updated =>
    have live : db.Live id := stands fun ended => ended
    have gathers := voids.gathers trivial
    obtain ⟨-, ⟨row, -, rfl⟩ | ⟨gone, rfl⟩⟩ := updated
    · exact voids.write live (.inl rfl) (fun alive => alive.2 rfl) trivial gathers
    · rw [read_of_not_held (voids.unheld (fun inside => inside) id)] at gone
      exact absurd gone live.present
  | timeReleased free =>
    obtain ⟨times, parts⟩ := voids.gathers trivial
    refine voids.release trivial (fun s member => ?_) trivial parts
    obtain ⟨n, listed, rfl⟩ := List.mem_map.mp member
    exact mem_timeIds.mp (times ▸ listed)
  | partsReleased free =>
    have parts := voids.gathers trivial
    refine voids.release trivial (fun s member => ?_) ?_ ?_
    · obtain ⟨n, listed, rfl⟩ := List.mem_map.mp member
      exact mem_partIds.mp (parts ▸ listed)
    · split_ifs <;> trivial
    · split_ifs <;> trivial
  | drafted =>
    obtain ⟨live, held⟩ := voids.voided trivial
    exact voids.write live (.inr held) (fun alive => alive.1 rfl) trivial trivial
  | linked updated =>
    exact voids.update trivial updated (.inl (voids.voided trivial).2) (fun _ => rfl) trivial trivial
  | parentsCloned updated | childrenCloned updated =>
    exact voids.update trivial updated (.inr (unmade (.reissued t) rfl nofun)) (fun _ => rfl) trivial trivial

theorem Sourceless.of_released (invoices : ∀ i v, (db.invoices i).held ≠ some (t, v))
    (sources : ∀ s v, (db.sources s).held ≠ some (t, v)) : Sourceless db t :=
  ⟨fun i row held => absurd held (invoices i (some row)), sources⟩

theorem Sourceless.write (sourceless : Sourceless db t) (i : InvoiceId) (plain : ∀ l ∈ row.lines, l.source = none) :
    Sourceless (db.setInvoice t i row) t where
  invoices j other held := by
    obtain earlier | ⟨-, written⟩ := held_write held
    · exact sourceless.invoices j other earlier
    · exact some.inj written ▸ plain
  sources := sourceless.sources

theorem Sourceless.update (sourceless : Sourceless db t) (updated : UpdatedInvoice t db i f next)
    (fresh : (db.invoices i).committed = none)
    (plain : ∀ row, (∀ l ∈ row.lines, l.source = none) → ∀ l ∈ (f row).lines, l.source = none) : Sourceless next t := by
  obtain ⟨-, ⟨row, seen, rfl⟩ | ⟨-, rfl⟩⟩ := updated
  · refine sourceless.write i (plain row ?_)
    refine read_rule (P := fun v => v = some row → ∀ l ∈ row.lines, l.source = none) ?_ ?_ seen
    · intro committed
      exact absurd (fresh.symm.trans committed) nofun
    · rintro v mine rfl
      exact sourceless.invoices i row mine
  · exact sourceless

theorem Sourceless.own (sourceless : Sourceless db t) (issue : ∀ id, call ≠ .issueInvoice id)
    (void : ∀ id reason reissue, call ≠ .voidInvoice id reason reissue)
    (unmade : ∀ i : InvoiceId, i.MadeBy t → before ≠ .returned → (db.invoices i).committed = none)
    (statement : DocumentStatement cfg t now db call before next stage) : Sourceless next t := by
  cases statement with
  | failed running e =>
    exact .of_released (fun _ v => not_held_rollback t v _) fun _ v => not_held_rollback t v _
  | committed =>
    exact .of_released (fun _ v => not_held_commit t v _) fun _ v => not_held_commit t v _
  | invoiceDrafted quote rest => exact sourceless.write (.converted t) fun _ listed => absurd listed not_mem_nil
  | lined updated =>
    refine sourceless.update updated (unmade (.converted t) rfl nofun) fun row plain l listed => ?_
    obtain old | new := mem_append.mp listed
    · exact plain l old
    · rw [mem_singleton.mp new]
      rfl
  | leftDraft totals updated | autoIssued totals updated =>
    exact sourceless.update updated (unmade (.converted t) rfl nofun) fun _ plain => plain
  | _ =>
    first
      | exact absurd rfl (issue _)
      | exact absurd rfl (void _ _ _)
      | exact ⟨sourceless.invoices, sourceless.sources⟩

theorem CallBilling.own (billing : CallBilling db t ⟨call, before⟩) (stands : ¬stage.Ended → Rechecks db ⟨call, before⟩)
    (unmade : ∀ i : InvoiceId, i.MadeBy t → before ≠ .returned → (db.invoices i).committed = none)
    (statement : DocumentStatement cfg t now db call before next stage) : CallBilling next t ⟨call, stage⟩ := by
  cases call with
  | issueInvoice id => exact Issues.own billing stands statement
  | voidInvoice id reason reissue => exact Voids.own billing stands unmade statement
  | _ =>
    refine Sourceless.own billing ?_ ?_ unmade statement
    · exact fun _ => nofun
    · exact fun _ _ _ => nofun

theorem keepsLines_read {r : Row ℕ (Option InvoiceRow)} {old : InvoiceRow}
    (keeps : ∀ v, r.held = some (t, v) → KeepsLines r v) (seen : r.read t = some row)
    (committed : r.committed = some old) : row.lines = old.lines := by
  refine read_rule (P := fun v => v = some row → row.lines = old.lines) ?_ ?_ seen
  · intro same
    exact congrArg InvoiceRow.lines (some.inj (same.symm.trans committed))
  · rintro v mine rfl
    obtain ⟨_, same, lines⟩ := keeps _ mine
    exact some.inj same ▸ lines old committed

theorem keepsLines_updated (updated : UpdatedInvoice t db id f next)
    (keeps : ∀ i v, (db.invoices i).held = some (t, v) → KeepsLines (db.invoices i) v)
    (same : (db.invoices id).committed ≠ none → ∀ row, (f row).lines = row.lines) (held : (next.invoices i).held = some (t, v)) :
    KeepsLines (db.invoices i) v := by
  obtain ⟨-, ⟨row, seen, rfl⟩ | ⟨-, rfl⟩⟩ := updated
  · obtain earlier | ⟨rfl, rfl⟩ := held_write held
    · exact keeps i v earlier
    · refine ⟨f row, rfl, fun old committed => ?_⟩
      exact (same (committed ▸ nofun) row).trans (keepsLines_read (keeps i) seen committed)
  · exact keeps i v held

theorem keepsLines_made (made : (db.invoices id).committed = none)
    (keeps : ∀ i v, (db.invoices i).held = some (t, v) → KeepsLines (db.invoices i) v)
    (held : ((db.setInvoice t id row).invoices i).held = some (t, v)) : KeepsLines (db.invoices i) v := by
  obtain earlier | ⟨rfl, rfl⟩ := held_write held
  · exact keeps i v earlier
  · exact ⟨row, rfl, fun old committed => absurd (made.symm.trans committed) nofun⟩

theorem keepsLines_own (keeps : ∀ i v, (db.invoices i).held = some (t, v) → KeepsLines (db.invoices i) v)
    (unmade : ∀ i : InvoiceId, i.MadeBy t → before ≠ .returned → (db.invoices i).committed = none)
    (statement : DocumentStatement cfg t now db call before next stage) (held : (next.invoices i).held = some (t, v)) : KeepsLines (db.invoices i) v := by
  cases statement with
  | failed running e => exact keeps i v (held_rollback_iff.mp held).1
  | committed => exact keeps i v (held_commit_iff.mp held).1
  | issued taxRate updated | voided updated | linked updated | leftDraft totals updated | autoIssued totals updated =>
    exact keepsLines_updated updated keeps (fun _ _ => rfl) held
  | drafted => exact keepsLines_made (unmade (.reissued t) rfl nofun) keeps held
  | parentsCloned updated | childrenCloned updated =>
    exact keepsLines_updated updated keeps (fun made => absurd (unmade (.reissued t) rfl nofun) made) held
  | invoiceDrafted quote rest => exact keepsLines_made (unmade (.converted t) rfl nofun) keeps held
  | lined updated =>
    exact keepsLines_updated updated keeps (fun made => absurd (unmade (.converted t) rfl nofun) made) held
  | _ => exact keeps i v held

end Own

section Step
variable {cfg : PartnerSettings} {w : DocumentWorld} {t : ℕ} {now : Instant} {next : BillingDb} {stage : BillingStage}
variable {i : InvoiceId} {s : SourceId}

theorem linesStand_commit (keeps : ∀ i v, (w.db.invoices i).held = some (t, v) → KeepsLines (w.db.invoices i) v) :
    LinesStand w.db (w.db.commit t) := by
  intro i present
  obtain ⟨old, committed⟩ := ne_none_iff_exists'.mp present
  have view : ∃ row, (w.db.invoices i).read t = some row := by
    refine read_rule (P := fun v => ∃ row, v = some row) ⟨old, committed⟩ fun v mine => ?_
    exact (keeps i v mine).imp fun _ both => both.1
  obtain ⟨row, seen⟩ := view
  have after : ((w.db.commit t).invoices i).committed = some row := seen
  refine ⟨after ▸ nofun, ?_⟩
  rw [BillingDb.lines, BillingDb.lines, after, committed]
  exact keepsLines_read (keeps i) seen committed

theorem SourceBilling.linesStand (billing : SourceBilling w)
    (statement : DocumentStatement cfg t now w.db (w.proc t).call (w.proc t).stage next stage) :
    LinesStand w.db next := by
  obtain quiet | ⟨-, rfl, -⟩ := billing.fresh.effect statement
  · intro i present
    exact ⟨quiet.invoices i ▸ present, BillingDb.lines_congr (quiet.invoices i)⟩
  · exact linesStand_commit fun i => billing.versions i t

theorem SourceBilling.live_commit (billing : SourceBilling w) (live : (w.db.commit t).Live i)
    (bills : (w.db.commit t).Bills i s) :
    (w.db.Live i ∧ w.db.Bills i s ∧ ∀ v, (w.db.invoices i).held ≠ some (t, v)) ∨
      ((w.proc t).call = .issueInvoice i ∧ w.db.Bills i s) := by
  have calls := billing.calls t
  unfold CallBilling at calls
  obtain ⟨v, mine, after⟩ | ⟨unheld, same⟩ := (w.db.invoices i).read_cases t
  · right
    obtain ⟨row, rfl, -⟩ := billing.versions i t v mine
    change ((w.db.commit t).invoices i).committed = some row at after
    obtain ⟨_, committed, alive⟩ := live
    cases after.symm.trans committed
    have listed : ∃ l ∈ row.lines, l.source = some s := by
      rw [BillingDb.Bills, BillingDb.lines, after] at bills
      exact bills
    split at calls
    · next id call =>
        obtain rfl := calls.only i _ mine
        have sent : (w.proc t).stage.Sent := Classical.byContradiction fun early => calls.unsent early i _ mine
        have found : (w.proc t).stage.Found := by
          generalize (w.proc t).stage = before at sent
          cases before <;> first | exact sent.elim | exact trivial
        have stand := linesStand_commit (w := w) fun i => billing.versions i t
        exact ⟨call, (stand.bills (calls.found found)).mp bills⟩
    · exact absurd alive (calls.dead i row mine)
    · obtain ⟨l, member, source⟩ := listed
      exact absurd ((calls.invoices i row mine l member).symm.trans source) nofun
  · change ((w.db.commit t).invoices i).committed = (w.db.invoices i).committed at same
    refine .inl ⟨live.congr same.symm, ?_, unheld⟩
    rw [BillingDb.Bills, BillingDb.lines_congr same] at bills
    exact bills

theorem SourceBilling.source_commit (billing : SourceBilling w) (live : w.db.Live i)
    (bills : w.db.Bills i s) (unheld : ∀ v, (w.db.invoices i).held ≠ some (t, v)) :
    ((w.db.commit t).sources s).committed ≠ .notBilled := by
  have calls := billing.calls t
  unfold CallBilling at calls
  have before := billing.billedOnce.billed i s live bills
  change (w.db.sources s).read t ≠ .notBilled
  rcases (w.db.sources s).read_cases t with ⟨v, mine, read⟩ | ⟨-, read⟩
  · rw [read]
    split at calls
    · rw [(calls.sources s v mine).1]
      exact nofun
    · next id reason reissue call =>
        obtain ⟨-, inside, same⟩ := calls.sources s v mine
        obtain ⟨alive, version, held⟩ := calls.voided inside
        obtain rfl := billing.billedOnce.once i id s live alive bills same
        exact absurd held (unheld version)
    · exact absurd mine (calls.sources s v)
  · rw [read]
    exact before

theorem SourceBilling.issued_commit (billing : SourceBilling w) (last : (w.proc t).stage = .committing)
    (issues : (w.proc t).call = .issueInvoice i) (bills : w.db.Bills i s) :
    ((w.db.commit t).sources s).committed = .billed ∧ ((w.db.sources s).committed = .notBilled ∨ w.db.Live i) := by
  have calls := billing.calls t
  unfold CallBilling at calls
  rw [issues, last] at calls
  have mine := Issues.flipped calls s trivial bills
  exact ⟨read_of_held mine, (Issues.sources calls s _ mine).2.2⟩

theorem SourceBilling.billedOnce_commit (billing : SourceBilling w) (last : (w.proc t).stage = .committing) :
    (w.db.commit t).BilledOnce where
  once i j s firstLive secondLive first second := by
    -- an invoice issued by the commit against one that was live before it
    have apart : ∀ {i j}, (w.proc t).call = .issueInvoice i → w.db.Bills i s → w.db.Live j → w.db.Bills j s →
        i = j := by
      intro i j issues bills live billed
      obtain unbilled | alive := (billing.issued_commit last issues bills).2
      · exact absurd unbilled (billing.billedOnce.billed j s live billed)
      · exact billing.billedOnce.once i j s alive live bills billed
    obtain ⟨live, bills, -⟩ | ⟨issues, bills⟩ := billing.live_commit firstLive first
    · obtain ⟨alsoLive, alsoBills, -⟩ | ⟨issues, alsoBills⟩ := billing.live_commit secondLive second
      · exact billing.billedOnce.once i j s live alsoLive bills alsoBills
      · exact (apart issues alsoBills live bills).symm
    · obtain ⟨live, alsoBills, -⟩ | ⟨alsoIssues, -⟩ := billing.live_commit secondLive second
      · exact apart issues bills live alsoBills
      · exact BillingCall.issueInvoice.inj (issues.symm.trans alsoIssues)
  billed i s live bills := by
    obtain ⟨before, billed, unheld⟩ | ⟨issues, billed⟩ := billing.live_commit live bills
    · exact billing.source_commit before billed unheld
    · rw [(billing.issued_commit last issues billed).1]
      exact nofun

theorem billedOnce_quiet {db : BillingDb} (quiet : db.Quiet t next) (billed : db.BilledOnce) : next.BilledOnce := by
  have live : ∀ {i}, next.Live i → db.Live i := fun live => live.congr (quiet.invoices _).symm
  have bills : ∀ {i s}, next.Bills i s → db.Bills i s := by
    intro i s bills
    rw [BillingDb.Bills, BillingDb.lines_congr (quiet.invoices i)] at bills
    exact bills
  refine ⟨fun i j s first second a b => billed.once i j s (live first) (live second) (bills a) (bills b), ?_⟩
  intro i s alive listed
  rw [quiet.sources s]
  exact billed.billed i s (live alive) (bills listed)

theorem SourceBilling.versions_step (billing : SourceBilling w)
    (statement : DocumentStatement cfg t now w.db (w.proc t).call (w.proc t).stage next stage)
    (i : InvoiceId) (u : ℕ) (v : Option InvoiceRow) (held : (next.invoices i).held = some (u, v)) :
    KeepsLines (next.invoices i) v := by
  have before : KeepsLines (w.db.invoices i) v := by
    by_cases mine : u = t
    · subst mine
      exact keepsLines_own (fun i => billing.versions i u) (billing.fresh.unmade u) statement held
    · exact billing.versions i u v ((((billing.fresh.undisturbed statement mine).invoices i).kept v).mp held)
  have same : (next.invoices i).committed = (w.db.invoices i).committed := by
    obtain quiet | ⟨-, rfl, -⟩ := billing.fresh.effect statement
    · exact quiet.invoices i
    · obtain ⟨held, other⟩ := held_commit_iff.mp held
      exact ((BillingDb.undisturbed_commit other).invoices i).committed v held
  obtain ⟨row, rfl, lines⟩ := before
  exact ⟨row, rfl, fun old committed => lines old (same.symm.trans committed)⟩

theorem SourceBilling.step {next : DocumentWorld} {e : ℕ × BillingAction} (billing : SourceBilling w)
    (stands : ChecksStand w e) (stepped : documentStep cfg w e = some next) : SourceBilling next := by
  obtain ⟨t, action⟩ := e
  obtain ⟨now, db, stage, statement, acts, rfl⟩ := documentStep_cases stepped
  have rechecks : ¬stage.Ended → Rechecks w.db (w.proc t) := by
    intro goesOn
    obtain rfl | aborted := acts
    · exact stands
    · exact absurd (aborted ▸ trivial) goesOn
  refine ⟨billing.fresh.step statement, billing.versions_step statement, ?_, ?_⟩
  · refine (Function.forall_update_iff _ fun u (p : BillingProc) => CallBilling db u p).mpr ⟨?_, fun u other => ?_⟩
    · exact CallBilling.own (billing.calls t) rechecks (billing.fresh.unmade t) statement
    · exact (billing.calls u).transfer (billing.fresh.undisturbed statement other) (billing.linesStand statement)
  · obtain quiet | ⟨last, rfl, -⟩ := billing.fresh.effect statement
    · exact billedOnce_quiet quiet billing.billedOnce
    · exact billing.billedOnce_commit last

end Step

theorem Unstarted.sourceBilling {w : DocumentWorld} (unstarted : Unstarted w) (billed : w.db.BilledOnce) :
    SourceBilling w where
  fresh := unstarted.fresh
  versions i t v held := absurd held (not_held_of_none (unstarted.invoices i) t v)
  calls t := by
    have invoices : ∀ i v, (w.db.invoices i).held ≠ some (t, v) :=
      fun i => not_held_of_none (unstarted.invoices i) t
    have sources : ∀ s v, (w.db.sources s).held ≠ some (t, v) :=
      fun s => not_held_of_none (unstarted.sources s) t
    unfold CallBilling
    rw [unstarted.begun t]
    split
    · exact ⟨False.elim, False.elim, fun _ => invoices, False.elim,
        fun i v held => absurd held (invoices i v), fun s v held => absurd held (sources s v), nofun⟩
    · exact ⟨False.elim, False.elim, fun _ => invoices, False.elim,
        fun i row held => absurd held (invoices i (some row)), fun s v held => absurd held (sources s v)⟩
    · exact .of_released invoices sources
  billedOnce := billed

/-- In every run in which the checks of `issueInvoice` and `voidInvoice` still stand when they write,
no time entry or part is on the lines of two live invoices, in whatever state the run stops. -/
theorem sources_billed_once {cfg : PartnerSettings} {w next : DocumentWorld} {es : List (ℕ × BillingAction)}
    (unstarted : Unstarted w) (billed : w.db.BilledOnce) (stands : Meets (documentStep cfg) ChecksStand w es)
    (reach : run (documentStep cfg) w es = some next) : next.db.BilledOnce :=
  (run_invariant (fun _ _ _ billing meets stepped => billing.step meets stepped) (unstarted.sourceBilling billed)
    stands reach).billedOnce

def hourDraft : InvoiceRow := workDraft (some (.timeEntry 7))

/-- Drafts made from the same time entry, each issued by a call of its own. -/
def sharedHour : DocumentWorld :=
  beforeCalls (workQuote .draft) (fun _ => some hourDraft) fun t => .issueInvoice (.existing t)

theorem unstarted_sharedHour : Unstarted sharedHour := unstarted_beforeCalls ..

theorem billedOnce_sharedHour : sharedHour.db.BilledOnce := by
  have dead : ∀ i, ¬sharedHour.db.Live i := by
    rintro i ⟨row, committed, alive⟩
    cases i with
    | existing n => exact alive.1 (some.inj committed ▸ rfl)
    | _ => cases committed
  exact ⟨fun i _ _ live => absurd live (dead i), fun i _ live => absurd live (dead i)⟩

/-- Both issues pass the guard before either flips the time entry. -/
def bothPassGuard : List (ℕ × BillingAction) :=
  statementsOf 0 4 ++ statementsOf 1 4 ++ statementsOf 0 6 ++ statementsOf 1 6

theorem rechecks_issueInvoice {db : BillingDb} {p : BillingProc} {id : InvoiceId} (issues : p.call = .issueInvoice id)
    (unbilled : p.stage ≠ .returned → ∀ s, (db.sources s).committed = .notBilled) : Rechecks db p := by
  obtain ⟨_, stage⟩ := p
  obtain rfl := issues
  cases stage with
  | issued times parts | timeFlipped parts => exact fun n _ => .inl (unbilled nofun _)
  | _ => trivial

theorem sources_billed_once_single : ∃ next,
    run (documentStep plainSettings) sharedHour (statementsOf 0 10) = some next ∧
    (next.db.sources (.timeEntry 7)).committed = .billed ∧ next.db.BilledOnce := by
  have outcome : (run (documentStep plainSettings) sharedHour (statementsOf 0 10)).map
      (fun next => (next.db.sources (.timeEntry 7)).committed) = some .billed := by decide +kernel
  obtain ⟨next, reach, billed⟩ := map_eq_some_iff.mp outcome
  have stands : Meets (documentStep plainSettings) ChecksStand sharedHour (statementsOf 0 10) :=
    unstarted_sharedHour.fresh.meets_alone (fun db => ∀ s, (db.sources s).committed = .notBilled)
      (fun quiet unbilled s => (quiet.sources s).trans (unbilled s))
      (fun _ issues unbilled => rechecks_issueInvoice issues unbilled) rfl (fun _ => rfl) _
  exact ⟨next, reach, billed, sources_billed_once unstarted_sharedHour billedOnce_sharedHour stands reach⟩

/-- Two drafts made from one time entry are both issued. -/
theorem source_billed_twice : ∃ next, Unstarted sharedHour ∧ sharedHour.db.BilledOnce ∧
    run (documentStep plainSettings) sharedHour bothPassGuard = some next ∧
    next.db.Live (.existing 0) ∧ next.db.Live (.existing 1) ∧
    next.db.Bills (.existing 0) (.timeEntry 7) ∧ next.db.Bills (.existing 1) (.timeEntry 7) := by
  have outcome : (run (documentStep plainSettings) sharedHour bothPassGuard).map (fun next =>
      [InvoiceId.existing 0, .existing 1].map fun i =>
        ((next.db.invoices i).committed.map InvoiceRow.status, next.db.lines i)) =
      some [(some .sent, hourDraft.lines), (some .sent, hourDraft.lines)] := by decide +kernel
  obtain ⟨next, reach, seen⟩ := map_eq_some_iff.mp outcome
  simp only [map_cons, map_nil, List.cons.injEq, Prod.mk.injEq, and_true] at seen
  obtain ⟨⟨first, firstLines⟩, second, secondLines⟩ := seen
  have live : ∀ {i}, (next.db.invoices i).committed.map InvoiceRow.status = some .sent → next.db.Live i := by
    intro i sent
    obtain ⟨row, committed, status⟩ := map_eq_some_iff.mp sent
    refine ⟨row, committed, ?_, ?_⟩
    · rw [status]
      exact nofun
    · rw [status]
      exact nofun
  have bills : ∀ {i}, next.db.lines i = hourDraft.lines → next.db.Bills i (.timeEntry 7) := by
    intro i lines
    rw [BillingDb.Bills, lines]
    exact ⟨_, mem_singleton_self _, rfl⟩
  exact ⟨next, unstarted_sharedHour, billedOnce_sharedHour, reach, live first, live second, bills firstLines,
    bills secondLines⟩

end RemudaRmm.Billing
