import RemudaRmm.Billing.InvoiceStatements

/-! Any number of views, acceptances, declines and expiry sweeps of quotes, one statement at a time. `acceptQuote` locks
the quote before it reads it; `markQuoteViewed` and `declineQuoteByActor` write its status by id after their read. Where
no such write meets a converted quote, a quote is converted at most once and stays converted. -/
namespace RemudaRmm.Billing
open Foundation Function Row

/-- The next statement of the call writes no new status over a converted quote. -/
def Spares (db : BillingDb) : BillingProc → Prop
  | ⟨.markQuoteViewed k _, .viewing seen⟩ => seen.status = .sent → (db.quotes k).committed.status ≠ .converted
  | ⟨.declineQuoteByActor k _, .declining⟩ => (db.quotes k).committed.status ≠ .converted
  | _ => True

/-- No view or decline writes a new status over a converted quote. -/
def SparesConverted (w : DocumentWorld) : ℕ × BillingAction → Prop
  | (_, .fail) => True
  | (t, .exec _) => Spares w.db (w.proc t)

def BillingStage.Recorded : BillingStage → Prop
  | .recorded _ | .lining _ _ | .allocated _ _ _ | .invoiced _ | .converted | .committing => True
  | _ => False

def BillingStage.Accepting : BillingStage → Prop
  | .locked => True
  | stage => stage.Recorded

/-- The quote is marked converted and the acceptance not yet committed. -/
def BillingStage.Converting : BillingStage → Prop
  | .converted | .committing => True
  | _ => False

structure Accepts (db : BillingDb) (t k : ℕ) (stage : BillingStage) : Prop where
  lock : stage.Accepting → ∃ q, (db.quotes k).held = some (t, q) ∧ (stage.Converting → q.status = .converted)
  unlocked : ¬stage.Accepting → ∀ v, (db.quotes k).held ≠ some (t, v)
  guard : stage.Accepting → (db.quotes k).committed.status ≠ .converted
  pending : stage.Recorded → (db.acceptances t).held = some (t, some k)
  idle : ¬stage.Recorded → ∀ v, (db.acceptances t).held ≠ some (t, v)
  before : stage ≠ .returned → (db.acceptances t).committed = none
  after : stage = .returned → (db.acceptances t).committed = some k

def CallConversion (db : BillingDb) (t : ℕ) (p : BillingProc) : Prop :=
  match p.call with
  | .acceptQuote k _ => Accepts db t k p.stage
  | _ => (db.acceptances t).committed = none ∧ ∀ v, (db.acceptances t).held ≠ some (t, v)

structure Conversion (w : DocumentWorld) : Prop where
  fresh : Fresh w
  calls : ∀ t, CallConversion w.db t (w.proc t)
  contracts : ∀ t, (w.proc t).stage ≠ .returned → (w.db.contracts t).committed = none
  versions : ∀ k u q, (w.db.quotes k).held = some (u, q) → (w.db.quotes k).committed.status = .converted →
    q.status = .converted
  converted : ∀ t k, (w.db.acceptances t).committed = some k → (w.db.quotes k).committed.status = .converted
  once : ∀ t u k, (w.db.acceptances t).committed = some k → (w.db.acceptances u).committed = some k → t = u

section Transfer
variable {db next : BillingDb} {t u : ℕ}

theorem Accepts.transfer {k : ℕ} {stage : BillingStage} (accepts : Accepts db u k stage)
    (still : db.Undisturbed u next) (committed : (next.acceptances u).committed = (db.acceptances u).committed) :
    Accepts next u k stage where
  lock inside := by
    obtain ⟨q, held, late⟩ := accepts.lock inside
    exact ⟨q, ((still.quotes k).kept q).mpr held, late⟩
  unlocked outside v mine := accepts.unlocked outside v (((still.quotes k).kept v).mp mine)
  guard inside := by
    obtain ⟨q, held, -⟩ := accepts.lock inside
    rw [(still.quotes k).committed q held]
    exact accepts.guard inside
  pending inside := ((still.acceptances u).kept _).mpr (accepts.pending inside)
  idle outside v mine := accepts.idle outside v (((still.acceptances u).kept v).mp mine)
  before unended := committed.trans (accepts.before unended)
  after ended := committed.trans (accepts.after ended)

theorem CallConversion.transfer {p : BillingProc} (conversion : CallConversion db u p) (still : db.Undisturbed u next)
    (committed : (next.acceptances u).committed = (db.acceptances u).committed) : CallConversion next u p := by
  obtain ⟨call, stage⟩ := p
  cases call with
  | acceptQuote k actorUserId => exact Accepts.transfer conversion still committed
  | _ => exact ⟨committed.trans conversion.1, fun v mine => conversion.2 v (((still.acceptances u).kept v).mp mine)⟩

end Transfer

section Own
variable {cfg : PartnerSettings} {db next : BillingDb} {t k : ℕ} {now : Instant} {actorUserId : Option ℕ}
variable {before stage : BillingStage}

theorem Accepts.onward (accepts : Accepts db t k before) (quotes : next.quotes = db.quotes)
    (acceptances : next.acceptances = db.acceptances) (inside : before.Recorded) (onward : stage.Recorded)
    (early : ¬stage.Converting) : Accepts next t k stage := by
  have accepting : ∀ {s : BillingStage}, s.Recorded → s.Accepting := by
    intro s recorded
    cases s <;> first | exact recorded | exact recorded.elim
  have notReturned : ∀ {s : BillingStage}, s.Recorded → s ≠ .returned := by
    rintro s recorded rfl
    exact recorded
  obtain ⟨q, held, -⟩ := accepts.lock (accepting inside)
  exact {
    lock := fun _ => ⟨q, by rw [quotes]; exact held, fun late => absurd late early⟩
    unlocked := fun outside => absurd (accepting onward) outside
    guard := fun _ => by rw [quotes]; exact accepts.guard (accepting inside)
    pending := fun _ => by rw [acceptances]; exact accepts.pending inside
    idle := fun outside => absurd onward outside
    before := fun _ => by rw [acceptances]; exact accepts.before (notReturned inside)
    after := fun ended => absurd ended (notReturned onward) }

theorem acceptable_not_converted {q : QuoteRow} (acceptable : q.acceptable = true) : q.status ≠ .converted := by
  intro converted
  rw [QuoteRow.acceptable, converted] at acceptable
  cases acceptable

theorem Accepts.own (accepts : Accepts db t k before)
    (statement : DocumentStatement cfg t now db (.acceptQuote k actorUserId) before next stage) :
    Accepts next t k stage := by
  have running : ∀ {s : BillingStage}, ¬s.Ended → s ≠ .returned := by
    rintro s unended rfl
    exact unended trivial
  cases statement with
  | failed unended e =>
    constructor
    · exact False.elim
    · exact fun _ v => not_held_rollback t v _
    · exact False.elim
    · exact False.elim
    · exact fun _ v => not_held_rollback t v _
    · exact fun _ => accepts.before (running unended)
    · intro returned
      cases returned
  | committed =>
    constructor
    · exact False.elim
    · exact fun _ v => not_held_commit t v _
    · exact False.elim
    · exact False.elim
    · exact fun _ v => not_held_commit t v _
    · exact fun unended => absurd rfl unended
    · exact fun _ => read_of_held (accepts.pending trivial)
  | locked notHeld acceptable =>
    have guard : (db.quotes k).committed.status ≠ .converted := by
      rw [← read_of_not_held (accepts.unlocked id)]
      exact acceptable_not_converted acceptable
    constructor
    · exact fun _ => ⟨_, by rw [BillingDb.quotes_setQuote_self, held_write], False.elim⟩
    · exact fun outside => absurd trivial outside
    · intro _
      rw [BillingDb.quotes_setQuote_self, committed_write]
      exact guard
    · exact False.elim
    · exact fun _ => accepts.idle id
    · exact fun _ => accepts.before (running id)
    · intro returned
      cases returned
  | recorded =>
    obtain ⟨q, held, -⟩ := accepts.lock trivial
    constructor
    · exact fun _ => ⟨q, held, False.elim⟩
    · exact fun outside => absurd trivial outside
    · exact fun _ => accepts.guard trivial
    · intro _
      simp only [Table.write_self, held_write]
    · exact fun outside => absurd trivial outside
    · intro _
      simp only [Table.write_self, committed_write]
      exact accepts.before (running id)
    · intro returned
      cases returned
  | invoiceDrafted quote rest | allocated notHeld => exact accepts.onward rfl rfl trivial trivial id
  | lined updated | leftDraft totals updated | autoIssued totals updated =>
    exact accepts.onward updated.quotes updated.acceptances trivial trivial id
  | converted notHeld =>
    constructor
    · exact fun _ => ⟨_, by rw [BillingDb.quotes_setQuote_self, held_write], fun _ => rfl⟩
    · exact fun outside => absurd trivial outside
    · intro _
      rw [BillingDb.quotes_setQuote_self, committed_write]
      exact accepts.guard trivial
    · exact fun _ => accepts.pending trivial
    · exact fun outside => absurd trivial outside
    · exact fun _ => accepts.before (running id)
    · intro returned
      cases returned
  | contracted contracts =>
    obtain ⟨q, held, late⟩ := accepts.lock trivial
    constructor
    · exact fun _ => ⟨q, held, fun _ => late trivial⟩
    · exact fun outside => absurd trivial outside
    · exact fun _ => accepts.guard trivial
    · exact fun _ => accepts.pending trivial
    · exact fun outside => absurd trivial outside
    · exact fun _ => accepts.before (running id)
    · intro returned
      cases returned

theorem CallConversion.own {call : BillingCall} (conversion : CallConversion db t ⟨call, before⟩)
    (statement : DocumentStatement cfg t now db call before next stage) : CallConversion next t ⟨call, stage⟩ := by
  by_cases accepts : ∃ k actorUserId, call = .acceptQuote k actorUserId
  · obtain ⟨k, actorUserId, rfl⟩ := accepts
    exact Accepts.own conversion statement
  · have idle : (db.acceptances t).committed = none ∧ ∀ v, (db.acceptances t).held ≠ some (t, v) := by
      cases call with
      | acceptQuote k actorUserId => exact absurd ⟨k, actorUserId, rfl⟩ accepts
      | _ => exact conversion
    have after : (next.acceptances t).committed = none ∧ ∀ v, (next.acceptances t).held ≠ some (t, v) := by
      cases statement with
      | failed running e => exact ⟨idle.1, fun v mine => idle.2 v (held_rollback_iff.mp mine).1⟩
      | committed =>
        exact ⟨(read_of_not_held idle.2).trans idle.1, fun v mine => idle.2 v (held_commit_iff.mp mine).1⟩
      | recorded => exact absurd ⟨_, _, rfl⟩ accepts
      | _ => first | exact idle | exact (UpdatedInvoice.acceptances (by assumption)).symm ▸ idle
    cases call with
    | acceptQuote k actorUserId => exact absurd ⟨k, actorUserId, rfl⟩ accepts
    | _ => exact after

end Own

section Step
variable {cfg : PartnerSettings} {w : DocumentWorld} {t : ℕ} {now : Instant} {next : BillingDb} {stage : BillingStage}

theorem Conversion.read_converted (conversion : Conversion w) {k : ℕ}
    (converted : (w.db.quotes k).committed.status = .converted) (t : ℕ) :
    ((w.db.quotes k).read t).status = .converted :=
  read_rule (P := fun q => q.status = .converted) converted fun q held => conversion.versions k t q held converted

theorem Conversion.version (conversion : Conversion w) (spares : stage = .committing → Spares w.db (w.proc t))
    (statement : DocumentStatement cfg t now w.db (w.proc t).call (w.proc t).stage next stage) {k : ℕ} {q : QuoteRow}
    (held : (next.quotes k).held = some (t, q)) (converted : (w.db.quotes k).committed.status = .converted) :
    q.status = .converted := by
  have earlier : ∀ q, (w.db.quotes k).held = some (t, q) → q.status = .converted :=
    fun q held => conversion.versions k t q held converted
  have read := conversion.read_converted converted t
  generalize w.proc t = p at statement spares
  obtain ⟨call, before⟩ := p
  simp only at statement
  cases statement with
  | failed running e => exact earlier q (held_rollback_iff.mp held).1
  | committed => exact earlier q (held_commit_iff.mp held).1
  | locked free acceptable =>
    obtain held | ⟨rfl, rfl⟩ := Table.held_write held
    · exact earlier q held
    · exact absurd read (acceptable_not_converted acceptable)
  | converted free =>
    obtain held | ⟨rfl, rfl⟩ := Table.held_write held
    · exact earlier q held
    · rfl
  | viewed free firstViewedAt =>
    obtain held | ⟨rfl, rfl⟩ := Table.held_write held
    · exact earlier q held
    · simp only
      split_ifs with sent
      · exact absurd converted (spares rfl sent)
      · exact read
  | declined free =>
    obtain held | ⟨rfl, rfl⟩ := Table.held_write held
    · exact earlier q held
    · exact absurd converted (spares rfl)
  | swept each =>
    obtain same | ⟨-, acceptable, -⟩ := each k
    · exact earlier q (same ▸ held)
    · exact absurd read (acceptable_not_converted acceptable)
  | _ => first | exact earlier q held | exact earlier q (UpdatedInvoice.quotes (by assumption) ▸ held)

theorem Conversion.quiet (conversion : Conversion w) (spares : stage = .committing → Spares w.db (w.proc t))
    (statement : DocumentStatement cfg t now w.db (w.proc t).call (w.proc t).stage next stage)
    (quiet : w.db.Quiet t next) : Conversion ⟨next, update w.proc t ⟨(w.proc t).call, stage⟩⟩ where
  fresh := conversion.fresh.step statement
  calls := by
    refine (forall_update_iff _ fun u p => CallConversion next u p).mpr
      ⟨(conversion.calls t).own statement, fun u other => ?_⟩
    exact (conversion.calls u).transfer (quiet.undisturbed other) (quiet.acceptances u)
  contracts u unended := by
    rw [quiet.contracts u]
    by_cases mine : u = t
    · exact conversion.contracts u fun returned => statement.running (mine ▸ returned ▸ trivial)
    · simp only [update_of_ne mine] at unended
      exact conversion.contracts u unended
  versions k u q held converted := by
    rw [quiet.quotes k] at converted
    by_cases mine : u = t
    · subst mine
      exact conversion.version spares statement held converted
    · exact conversion.versions k u q ((quiet.keptQuotes u mine k q).mp held) converted
  converted u k accepted := by
    rw [quiet.acceptances u] at accepted
    rw [quiet.quotes k]
    exact conversion.converted u k accepted
  once u v k first second := by
    rw [quiet.acceptances u] at first
    rw [quiet.acceptances v] at second
    exact conversion.once u v k first second

theorem Conversion.acceptance_commit (conversion : Conversion w) {u : ℕ} (other : u ≠ t) :
    ((w.db.commit t).acceptances u).committed = (w.db.acceptances u).committed :=
  read_of_not_held fun v held => other (conversion.fresh.acceptances u t v held).symm

theorem Conversion.commit (conversion : Conversion w) (last : (w.proc t).stage = .committing)
    (statement : DocumentStatement cfg t now w.db (w.proc t).call (w.proc t).stage (w.db.commit t) .returned) :
    Conversion ⟨w.db.commit t, update w.proc t ⟨(w.proc t).call, .returned⟩⟩ := by
  have own : CallConversion (w.db.commit t) t ⟨(w.proc t).call, .returned⟩ := (conversion.calls t).own statement
  have stays : ∀ k, (w.db.quotes k).committed.status = .converted →
      ((w.db.commit t).quotes k).committed.status = .converted :=
    fun k converted => conversion.read_converted converted t
  have mine : ∀ k, ((w.db.commit t).acceptances t).committed = some k →
      (w.db.quotes k).committed.status ≠ .converted ∧ ((w.db.commit t).quotes k).committed.status = .converted := by
    intro k accepted
    have before := conversion.calls t
    unfold CallConversion at own before
    generalize w.proc t = p at own before last
    obtain ⟨call, stage⟩ := p
    obtain rfl : stage = .committing := last
    cases call with
    | acceptQuote j actorUserId =>
      obtain rfl := Option.some.inj (accepted.symm.trans (Accepts.after own rfl))
      obtain ⟨q, held, late⟩ := Accepts.lock before trivial
      exact ⟨Accepts.guard before trivial, (congrArg QuoteRow.status (read_of_held held)).trans (late trivial)⟩
    | _ => exact absurd (own.1.symm.trans accepted) nofun
  refine ⟨conversion.fresh.step statement, ?_, fun u unended => ?_, fun k u q held converted => ?_,
    fun u k accepted => ?_, fun u v k first second => ?_⟩
  · refine (forall_update_iff _ fun u p => CallConversion (w.db.commit t) u p).mpr ⟨own, fun u other => ?_⟩
    exact (conversion.calls u).transfer (BillingDb.undisturbed_commit other) (conversion.acceptance_commit other)
  · have other : u ≠ t := by
      rintro rfl
      simp only [update_self] at unended
      exact unended rfl
    simp only [update_of_ne other] at unended
    exact (read_of_not_held fun v held => other (conversion.fresh.contracts u t v held).symm).trans
      (conversion.contracts u unended)
  · obtain ⟨held, other⟩ := held_commit_iff.mp held
    rw [((BillingDb.undisturbed_commit other).quotes k).committed q held] at converted
    exact conversion.versions k u q held converted
  · by_cases own : u = t
    · subst own
      exact (mine k accepted).2
    · rw [conversion.acceptance_commit own] at accepted
      exact stays k (conversion.converted u k accepted)
  · by_cases own : u = t
    · by_cases alsoOwn : v = t
      · exact own.trans alsoOwn.symm
      · subst own
        rw [conversion.acceptance_commit alsoOwn] at second
        exact absurd (conversion.converted v k second) (mine k first).1
    · rw [conversion.acceptance_commit own] at first
      by_cases alsoOwn : v = t
      · subst alsoOwn
        exact absurd (conversion.converted u k first) (mine k second).1
      · rw [conversion.acceptance_commit alsoOwn] at second
        exact conversion.once u v k first second

theorem Conversion.step {next : DocumentWorld} {e : ℕ × BillingAction} (conversion : Conversion w)
    (spares : SparesConverted w e) (stepped : documentStep cfg w e = some next) :
    Conversion next ∧ ∀ k, (w.db.quotes k).committed.status = .converted →
      (next.db.quotes k).committed.status = .converted := by
  obtain ⟨t, action⟩ := e
  obtain ⟨now, db, stage, statement, acts, rfl⟩ := documentStep_cases stepped
  obtain quiet | ⟨last, rfl, rfl⟩ := conversion.fresh.effect statement
  · refine ⟨conversion.quiet (fun commits => ?_) statement quiet, fun k converted => ?_⟩
    · obtain rfl | aborted := acts
      · exact spares
      · exact absurd (commits.symm.trans aborted) nofun
    · simp only [quiet.quotes k]
      exact converted
  · exact ⟨conversion.commit last statement, fun k converted => conversion.read_converted converted t⟩

end Step

theorem Unstarted.conversion {w : DocumentWorld} (unstarted : Unstarted w) : Conversion w where
  fresh := unstarted.fresh
  calls t := by
    have begun := unstarted.begun t
    unfold CallConversion
    generalize w.proc t = p at begun
    obtain ⟨call, stage⟩ := p
    obtain rfl : stage = .start := begun
    cases call with
    | acceptQuote k actorUserId =>
      refine ⟨nofun, fun _ v => not_held_of_none (unstarted.quotes k) t v, nofun, nofun, fun _ v => ?_,
        fun _ => ?_, nofun⟩
      · exact not_held_of_none (congrArg Row.held (unstarted.acceptances t)) t v
      · rw [unstarted.acceptances t, committed_unheld]
    | _ =>
      rw [unstarted.acceptances t]
      exact ⟨rfl, fun v => not_held_of_none rfl t v⟩
  contracts t _ := by rw [unstarted.contracts t, committed_unheld]
  versions k u q held _ := absurd held (not_held_of_none (unstarted.quotes k) u q)
  converted t k accepted := by
    rw [unstarted.acceptances t] at accepted
    cases accepted
  once t u k accepted _ := by
    rw [unstarted.acceptances t] at accepted
    cases accepted

def BillingProc.AcceptsQuote (k : ℕ) (p : BillingProc) : Prop := ∃ actorUserId, p.call = .acceptQuote k actorUserId

/-- At most one acceptance of the quote has committed: one returned call, one row, one converted
invoice and one set of contracts. -/
structure ConvertedOnce (w : DocumentWorld) (k : ℕ) : Prop where
  calls : ∀ t u, (w.proc t).AcceptsQuote k → (w.proc u).AcceptsQuote k → (w.proc t).stage = .returned →
    (w.proc u).stage = .returned → t = u
  acceptances : ∀ t u, (w.db.acceptances t).committed = some k → (w.db.acceptances u).committed = some k → t = u
  invoices : ∀ t u, (w.proc t).AcceptsQuote k → (w.proc u).AcceptsQuote k →
    (w.db.invoices (.converted t)).committed ≠ none → (w.db.invoices (.converted u)).committed ≠ none → t = u
  contracts : ∀ t u, (w.proc t).AcceptsQuote k → (w.proc u).AcceptsQuote k →
    (w.db.contracts t).committed ≠ none → (w.db.contracts u).committed ≠ none → t = u

theorem Conversion.convertedOnce {w : DocumentWorld} (conversion : Conversion w) (k : ℕ) : ConvertedOnce w k := by
  have accepted : ∀ t, (w.proc t).AcceptsQuote k → (w.proc t).stage = .returned →
      (w.db.acceptances t).committed = some k := by
    rintro t ⟨actorUserId, call⟩ returned
    have own := conversion.calls t
    unfold CallConversion at own
    rw [call] at own
    exact Accepts.after own returned
  have calls : ∀ t u, (w.proc t).AcceptsQuote k → (w.proc u).AcceptsQuote k → (w.proc t).stage = .returned →
      (w.proc u).stage = .returned → t = u := fun t u first second ended alsoEnded =>
    conversion.once t u k (accepted t first ended) (accepted u second alsoEnded)
  refine ⟨calls, fun t u => conversion.once t u k, fun t u first second made alsoMade => ?_,
    fun t u first second made alsoMade => ?_⟩
  · refine calls t u first second ?_ ?_
    · exact Classical.byContradiction fun unended => made (conversion.fresh.unmade t (.converted t) rfl unended)
    · exact Classical.byContradiction fun unended => alsoMade (conversion.fresh.unmade u (.converted u) rfl unended)
  · refine calls t u first second ?_ ?_
    · exact Classical.byContradiction fun unended => made (conversion.contracts t unended)
    · exact Classical.byContradiction fun unended => alsoMade (conversion.contracts u unended)

/-- In every run in which no view or decline writes over a converted quote, every quote is converted
at most once, and from the moment it is converted it stays converted. -/
theorem quote_converted_once {cfg : PartnerSettings} {w mid next : DocumentWorld}
    {pre post : List (ℕ × BillingAction)} (unstarted : Unstarted w)
    (spares : Meets (documentStep cfg) SparesConverted w (pre ++ post))
    (reach : run (documentStep cfg) w pre = some mid) (onward : run (documentStep cfg) mid post = some next) (k : ℕ) :
    ConvertedOnce next k ∧
      ((mid.db.quotes k).committed.status = .converted → (next.db.quotes k).committed.status = .converted) := by
  have keep : ∀ s e s', Conversion s → SparesConverted s e → documentStep cfg s e = some s' → Conversion s' :=
    fun s e s' conversion meets stepped => (conversion.step meets stepped).1
  have conversion := run_invariant keep unstarted.conversion spares.take reach
  refine ⟨(run_invariant keep conversion (spares.drop reach) onward).convertedOnce k, fun converted => ?_⟩
  have stays : ∀ s e s', (Conversion s ∧ (s.db.quotes k).committed.status = .converted) → SparesConverted s e →
      documentStep cfg s e = some s' → Conversion s' ∧ (s'.db.quotes k).committed.status = .converted :=
    fun s e s' both meets stepped => ⟨(both.1.step meets stepped).1, (both.1.step meets stepped).2 k both.2⟩
  exact (run_invariant stays ⟨conversion, converted⟩ (spares.drop reach) onward).2

def viewedOnce : DocumentWorld :=
  beforeCalls (workQuote .sent) (fun _ => none) fun t => if t = 1 then .markQuoteViewed 0 1 else .acceptQuote 0 none

theorem unstarted_viewedOnce : Unstarted viewedOnce := unstarted_beforeCalls ..

/-- The view reads the quote, and the first acceptance runs to its end. -/
def acceptedMeanwhile : List (ℕ × BillingAction) := statementsOf 1 1 ++ statementsOf 0 9

/-- The view writes what it read, and a second acceptance runs to its end. -/
def viewedLate : List (ℕ × BillingAction) := statementsOf 1 2 ++ statementsOf 2 9

theorem spares_acceptQuote {db : BillingDb} {p : BillingProc} {k : ℕ} (accepts : p.AcceptsQuote k) : Spares db p := by
  obtain ⟨actorUserId, call⟩ := accepts
  obtain ⟨_, stage⟩ := p
  obtain rfl := call
  trivial

theorem quote_converted_once_single : ∃ next,
    run (documentStep plainSettings) viewedOnce (statementsOf 0 9) = some next ∧
    (next.db.acceptances 0).committed = some 0 ∧ ConvertedOnce next 0 := by
  have outcome : (run (documentStep plainSettings) viewedOnce (statementsOf 0 9)).map
      (fun next => (next.db.acceptances 0).committed) = some (some 0) := by decide +kernel
  obtain ⟨next, reach, accepted⟩ := Option.map_eq_some_iff.mp outcome
  have spares : Meets (documentStep plainSettings) SparesConverted viewedOnce (statementsOf 0 9) :=
    unstarted_viewedOnce.fresh.meets_alone (fun _ => True) (fun _ _ => trivial)
      (fun _ call _ => spares_acceptQuote ⟨none, call⟩) rfl trivial _
  rw [← List.append_nil (statementsOf 0 9)] at spares
  exact ⟨next, reach, accepted, (quote_converted_once unstarted_viewedOnce spares reach rfl 0).1⟩

/-- A view that read the quote while it was sent marks it viewed after it was converted, and a second
acceptance then goes through. -/
theorem quote_converted_twice : ∃ mid next, Unstarted viewedOnce ∧
    (viewedOnce.db.quotes 0).committed.status = .sent ∧
    run (documentStep plainSettings) viewedOnce acceptedMeanwhile = some mid ∧
    (mid.db.quotes 0).committed.status = .converted ∧
    (∃ late, run (documentStep plainSettings) mid (statementsOf 1 2) = some late ∧
      (late.db.quotes 0).committed.status = .viewed) ∧
    run (documentStep plainSettings) mid viewedLate = some next ∧
    (next.db.acceptances 0).committed = some 0 ∧ (next.db.acceptances 2).committed = some 0 ∧
    ¬ConvertedOnce next 0 := by
  have outcome : ((run (documentStep plainSettings) viewedOnce acceptedMeanwhile).bind fun mid =>
      (run (documentStep plainSettings) mid (statementsOf 1 2)).bind fun late =>
      (run (documentStep plainSettings) mid viewedLate).map fun next =>
        ((mid.db.quotes 0).committed.status, (late.db.quotes 0).committed.status,
          (next.db.acceptances 0).committed, (next.db.acceptances 2).committed)) =
      some (.converted, .viewed, some 0, some 0) := by decide +kernel
  obtain ⟨mid, reach, outcome⟩ := Option.bind_eq_some_iff.mp outcome
  obtain ⟨late, onward, outcome⟩ := Option.bind_eq_some_iff.mp outcome
  obtain ⟨next, last, seen⟩ := Option.map_eq_some_iff.mp outcome
  simp only [Prod.mk.injEq] at seen
  obtain ⟨converted, viewed, first, second⟩ := seen
  refine ⟨mid, next, unstarted_viewedOnce, rfl, reach, converted, ⟨late, onward, viewed⟩, last, first, second, ?_⟩
  intro once
  exact absurd (once.acceptances 0 2 first second) (by decide)

end RemudaRmm.Billing
