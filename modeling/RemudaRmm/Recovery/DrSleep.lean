import RemudaRmm.Recovery.DrVigil

/-! The runs in which a disaster-recovery execution never falls asleep, and how it does where a wake-up is lost. -/
namespace RemudaRmm.Recovery
open Foundation List DrSystem
open Agents (CommandStatus ResultStatus)

section Sleep
variable {γ κ : Type*} [DecidableEq γ] [DecidableEq κ] {groups : List (DrPlanGroup γ κ)} {s : DrSystem γ κ}

def DrJob.isOpening : DrJob γ κ → Bool
  | .waiting | .delayed | .active .readExecution => true
  | _ => false

structure Uncreated (s : DrSystem γ κ) : Prop where
  pending : s.execution.status = .pending
  unqueued : s.execution.results.queuedCommands = []
  unowed : s.owed = []
  empty : ∀ i, s.commands i = none
  opening : s.job.isOpening = true

omit [DecidableEq γ] [DecidableEq κ] in
theorem Uncreated.not_accepts (uncreated : Uncreated s) (i : ℕ) : ¬s.Accepts i := by
  rintro ⟨⟨c, found, -⟩, -⟩
  cases (uncreated.empty i).symm.trans found

omit [DecidableEq γ] [DecidableEq κ] in
theorem Uncreated.not_kept (uncreated : Uncreated s) (handling : s.handling = []) : ¬s.Kept false [] s.owed := by
  rintro (terminal | ahead | answers | owed | ⟨q, listed, -⟩)
  · rw [uncreated.pending] at terminal
    exact absurd terminal (by decide)
  · cases ahead
  · exact answers handling
  · exact owed uncreated.unowed
  · rw [uncreated.unqueued] at listed
    cases listed

theorem Uncreated.step (uncreated : Uncreated s) (law : WakeLaw groups s) (created : s.created = false) {e : DrEvent κ}
    (watched : s.Watched e) (other : (wakeStep groups s e).created = false) : Uncreated (wakeStep groups s e) := by
  have withJob : ∀ job : DrJob γ κ, job.isOpening = true → Uncreated { s with job } := fun job opening =>
    ⟨uncreated.pending, uncreated.unqueued, uncreated.unowed, uncreated.empty, opening⟩
  have handled := (law.begun uncreated.pending).2
  have opening := uncreated.opening
  cases e with
  | create => cases other
  | promote | take =>
    simp only [wakeStep]
    split
    next => exact withJob _ rfl
    next => exact uncreated
  | read =>
    simp only [wakeStep, readStep]
    split
    next job =>
      simp only [DrSystem.Watched, job] at watched
      cases created.symm.trans watched
    next job => cases job ▸ opening
    next => exact uncreated
  | commit answers =>
    simp only [wakeStep, commitStep]
    split
    next job => cases job ▸ opening
    next job => cases job ▸ opening
    next => exact uncreated
  | finish =>
    simp only [wakeStep]
    split
    next job => cases job ▸ opening
    next => exact uncreated
  | fail again =>
    simp only [wakeStep]
    split
    next stage job =>
      cases again with
      | true => exact withJob _ rfl
      | false =>
        simp only [DrSystem.Watched, job] at watched
        exact absurd watched (uncreated.not_kept handled)
    next => exact uncreated
  | storeResult i status valid | reap i => simpa only [wakeStep, if_neg (uncreated.not_accepts i)] using uncreated
  | handleResult i saved => simpa only [wakeStep, handled, find?_nil] using uncreated
  | enqueue i => simpa only [wakeStep, uncreated.unowed, not_mem_nil, if_false] using uncreated
  | endReap commits =>
    refine ⟨uncreated.pending, uncreated.unqueued, uncreated.unowed, fun i => ?_, uncreated.opening⟩
    cases commits with
    | true => simp [wakeStep, endCommands, uncreated.empty i]
    | false => exact uncreated.empty i

theorem wakeStep_created (e : DrEvent κ) (created : s.created = true) : (wakeStep groups s e).created = true := by
  cases e with
  | create => rfl
  | endReap commits => exact created
  | read =>
    simp only [wakeStep, readStep]
    split
    · split_ifs <;> exact created
    · exact created
    · exact created
  | commit answers =>
    simp only [wakeStep, commitStep]
    split <;> exact created
  | promote | take | finish | fail | storeResult | handleResult | enqueue | reap =>
    simp only [wakeStep]
    split <;> exact created

omit [DecidableEq γ] [DecidableEq κ] in
theorem uncreated_wakeStart (groups : List (DrPlanGroup γ κ)) : Uncreated (wakeStart groups) :=
  ⟨rfl, rfl, rfl, fun _ => rfl, rfl⟩

/-- The execution is not over, and nothing but the run under way, which does not go on with it, is left. -/
structure Lost (groups : List (DrPlanGroup γ κ)) (s : DrSystem γ κ) : Prop where
  named : ∀ q ∈ s.execution.results.queuedCommands, ∃ c, s.commands q.commandId = some c
  draft : JobDraft groups s.execution s.job
  asleep : ¬s.Awake

omit [DecidableEq γ] [DecidableEq κ] in
theorem Lost.ended (lost : Lost groups s) (q : QueuedDrCommand γ κ) (listed : q ∈ s.execution.results.queuedCommands) :
    statuses s.commands q.commandId = some .completed ∨ statuses s.commands q.commandId = some .failed := by
  obtain ⟨c, found⟩ := lost.named q listed
  have rest : ¬InFlight s.commands q.commandId := fun inFlight =>
    lost.asleep (.inr (.inr (.inr (.inr (.inr ⟨q, listed, by simp, inFlight⟩)))))
  unfold InFlight at rest
  rw [statuses, found] at rest ⊢
  cases status : c.status with
  | pending => exact absurd (.inl (congrArg some status)) rest
  | sent => exact absurd (.inr (congrArg some status)) rest
  | completed => exact .inl (congrArg some status)
  | failed => exact .inr (congrArg some status)

omit [DecidableEq γ] [DecidableEq κ] in
theorem Lost.quiet (lost : Lost groups s) (idle : s.job.isReusableState = false) :
    s.Quiet ∧ ¬s.execution.status.Terminal where
  left := {
    idle := idle
    handled := by
      by_contra answers
      exact lost.asleep (.inr (.inr (.inr (.inl answers))))
    enqueued := by
      by_contra owed
      exact lost.asleep (.inr (.inr (.inr (.inr (.inl owed)))))
    ended := lost.ended }
  right := fun terminal => lost.asleep (.inr (.inl terminal))

omit [DecidableEq γ] [DecidableEq κ] in
theorem Lost.withJob (lost : Lost groups s) {job : DrJob γ κ} (draft : JobDraft groups s.execution job)
    (undue : job.isDue = false) (behind : job.isAhead = false) : Lost groups { s with job } where
  named := lost.named
  draft := draft
  asleep := by
    rintro (due | terminal | ahead | left)
    · cases undue.symm.trans due
    · exact lost.asleep (.inr (.inl terminal))
    · cases behind.symm.trans ahead
    · exact lost.asleep (.inr (.inr (.inr left)))

theorem Lost.sleeps (lost : Lost groups s) : ∃ more : List (DrEvent κ),
    (more.foldl (wakeStep groups) s).Quiet ∧ ¬(more.foldl (wakeStep groups) s).execution.status.Terminal := by
  have awake := lost.asleep
  have draft := lost.draft
  cases job : s.job with
  | waiting | delayed => exact absurd (.inl (job ▸ rfl)) awake
  | completed | failed => exact ⟨[], lost.quiet (job ▸ rfl)⟩
  | active stage =>
    cases stage with
    | readExecution | readCommands current => exact absurd (.inl (job ▸ rfl)) awake
    | dispatch commandMap group rest results => exact absurd (.inr (.inr (.inl (job ▸ rfl)))) awake
    | ending =>
      refine ⟨[.finish], ?_⟩
      simp only [foldl_cons, foldl_nil, wakeStep, job]
      exact (lost.withJob .completed rfl rfl).quiet rfl
    | write status results =>
      refine ⟨[.commit fun _ => none, .finish], ?_⟩
      simp only [foldl_cons, foldl_nil, wakeStep, commitStep, job, followUp_ending]
      rw [job] at draft
      cases draft with
      | writes going begun queued failures =>
        have committed : Lost groups { s with execution := ⟨status, results⟩, job := .completed } := by
          refine ⟨queued.symm ▸ lost.named, .completed, ?_⟩
          rintro (due | terminal | ahead | handling | owed | ⟨q, listed, left⟩)
          · cases due
          · have ahead : s.job.isAhead = true := job ▸ decide_eq_true terminal
            exact awake (.inr (.inr (.inl ahead)))
          · cases ahead
          · exact awake (.inr (.inr (.inr (.inl handling))))
          · exact awake (.inr (.inr (.inr (.inr (.inl owed)))))
          · exact awake (.inr (.inr (.inr (.inr (.inr ⟨q, queued ▸ listed, left⟩)))))
        exact committed.quiet rfl

omit [DecidableEq γ] [DecidableEq κ] in
theorem WakeLaw.lost_endCommands (law : WakeLaw groups s) {ids reaping : List ℕ}
    (missed : ¬(s.job.isDue = true ∨ s.Kept s.job.isAhead ids s.owed)) :
    Lost groups { s with commands := DrSystem.endCommands ids .failed s.commands, reaping } where
  named := by
    intro q listed
    obtain ⟨c, found⟩ := law.named q listed
    exact endCommands_some ids _ found
  draft := law.draft
  asleep := by
    rintro (due | terminal | ahead | handling | owed | ⟨q, listed, -, inFlight⟩)
    · exact missed (.inl due)
    · exact missed (.inr (.inl terminal))
    · exact missed (.inr (.inr (.inl ahead)))
    · exact missed (.inr (.inr (.inr (.inl handling))))
    · exact missed (.inr (.inr (.inr (.inr (.inl owed)))))
    · exact missed (.inr (.inr (.inr (.inr (.inr ⟨q, listed, inFlight_endCommands inFlight⟩)))))

theorem WakeLaw.lost (law : WakeLaw groups s) (uncreated : s.created = false → Uncreated s) {e : DrEvent κ}
    (missed : ¬s.Watched e) : Lost groups (wakeStep groups s e) := by
  cases e with
  | read =>
    cases job : s.job with
    | active stage =>
      cases stage with
      | readExecution =>
        simp only [DrSystem.Watched, job, Bool.not_eq_true] at missed
        have fresh := uncreated missed
        simp only [wakeStep, readStep, job, missed, true_or, if_true]
        refine ⟨law.named, .ends, ?_⟩
        rintro (due | kept)
        · cases due
        · exact fresh.not_kept (law.begun fresh.pending).2 kept
      | _ => simp [DrSystem.Watched, job] at missed
    | _ => simp [DrSystem.Watched, job] at missed
  | fail again =>
    cases again with
    | true => exact absurd trivial missed
    | false =>
      cases job : s.job with
      | active stage =>
        simp only [DrSystem.Watched, job] at missed
        simp only [wakeStep, job]
        refine ⟨law.named, .failed, ?_⟩
        rintro (due | kept)
        · cases due
        · exact missed kept
      | _ => simp [DrSystem.Watched, job] at missed
  | storeResult i status valid =>
    cases valid with
    | true => exact absurd trivial missed
    | false =>
      have both := Classical.not_imp.mp missed
      simp only [wakeStep, if_pos both.1, Bool.false_eq_true, if_false]
      exact law.lost_endCommands both.2
  | enqueue i =>
    have owing := Classical.not_imp.mp missed
    have reused := Classical.not_imp.mp owing.2
    simp only [wakeStep, if_pos owing.1, DrJob.enqueueDrExecutionReconcile, if_pos reused.1]
    exact ⟨law.named, law.draft, reused.2⟩
  | endReap commits =>
    cases commits with
    | true => exact law.lost_endCommands missed
    | false => exact absurd trivial missed
  | create | promote | take | commit answers | finish | handleResult i saved | reap i => exact absurd trivial missed

/-- Where no wake-up is lost, an execution for which nothing is queued or in flight is over; and a step that loses one
can be followed by steps after which it sleeps. -/
theorem dr_execution_never_sleeps (plan : DrPlan γ κ) (es : List (DrEvent κ))
    (watched : StepsMeet (wakeStep plan.groups) DrSystem.Watched (wakeStart plan.groups) es) :
    Throughout (wakeStep plan.groups) (fun s => s.Quiet → s.execution.status.Terminal) (wakeStart plan.groups) es ∧
      ∀ e, ¬(es.foldl (wakeStep plan.groups) (wakeStart plan.groups)).Watched e → ∃ more,
        let asleep := (es ++ e :: more).foldl (wakeStep plan.groups) (wakeStart plan.groups)
        asleep.Quiet ∧ ¬asleep.execution.status.Terminal := by
  have keep : ∀ s e, (WakeLaw plan.groups s ∧ (s.created = false → Uncreated s)) → s.Watched e →
      WakeLaw plan.groups (wakeStep plan.groups s e) ∧
        ((wakeStep plan.groups s e).created = false → Uncreated (wakeStep plan.groups s e)) := by
    rintro s e ⟨law, uncreated⟩ watched
    refine ⟨law.step plan.distinct e watched, fun other => ?_⟩
    have created : s.created = false := by
      by_contra already
      cases other.symm.trans (wakeStep_created e (by simpa using already))
    exact (uncreated created).step law created watched other
  have laws := throughout_of_invariant keep ⟨law_wakeStart plan.groups, fun _ => uncreated_wakeStart plan.groups⟩
    watched
  constructor
  · intro pre post split quiet
    exact (laws pre post split).1.awake.terminal quiet
  · intro e missed
    obtain ⟨law, uncreated⟩ := laws.last
    obtain ⟨more, sleeps⟩ := (law.lost uncreated missed).sleeps
    refine ⟨more, ?_⟩
    simp only [foldl_append, foldl_cons]
    exact sleeps

end Sleep

def pairPlan : DrPlan ℕ ℕ where
  groups := [⟨1, "directory", 1, none, [7, 8], some "bmr_recover"⟩]
  distinct := by decide
  unrepeated := by decide

/-- Both restores are queued; the result of the first has come in, and the reconcile after it has read the commands. -/
def firstRestored : List (DrEvent ℕ) :=
  [.create, .take, .read, .read, .commit fun _ => none, .finish, .storeResult 0 .completed true, .handleResult 0 true,
    .enqueue 0, .take, .read, .read]

def patientRun : List (DrEvent ℕ) :=
  firstRestored ++ [.commit fun _ => none, .finish, .storeResult 1 .completed true, .handleResult 1 true, .enqueue 1,
    .take, .read, .read, .commit fun _ => none, .finish]

def hastyRun : List (DrEvent ℕ) :=
  firstRestored ++ [.storeResult 1 .completed true, .handleResult 1 true, .enqueue 1, .commit fun _ => none, .finish]

theorem patient_run_completes :
    let restored := patientRun.foldl (wakeStep pairPlan.groups) (wakeStart pairPlan.groups)
    restored.execution.status = .completed ∧
      Throughout (wakeStep pairPlan.groups) (fun s => s.Quiet → s.execution.status.Terminal)
        (wakeStart pairPlan.groups) patientRun :=
  ⟨rfl, (dr_execution_never_sleeps pairPlan patientRun (by decide)).1⟩

theorem execution_falls_asleep :
    let asleep := hastyRun.foldl (wakeStep pairPlan.groups) (wakeStart pairPlan.groups)
    asleep.Quiet ∧ asleep.execution.status = .running ∧ ¬asleep.execution.status.Terminal :=
  ⟨⟨rfl, rfl, rfl, by decide⟩, rfl, by decide⟩

end RemudaRmm.Recovery
