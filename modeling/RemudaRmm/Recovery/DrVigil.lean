import RemudaRmm.Recovery.DrWakeups

/-! The law of a run of the one job of a disaster-recovery execution: while no wake-up is lost, every step leaves the
execution awake. -/
namespace RemudaRmm.Recovery
open Foundation List Function Option DrSystem
open Agents (CommandStatus ResultStatus)

/-- A group that has a command was dispatched to all of its devices. -/
def Whole {γ κ : Type*} (groups : List (DrPlanGroup γ κ)) (results : DrExecutionResults γ κ) : Prop :=
  ∀ g ∈ groups, (∃ q ∈ results.queuedCommands, q.groupId = g.id) → ∀ d ∈ g.devices,
    (∃ q ∈ results.queuedCommands, q.groupId = g.id ∧ q.deviceId = d) ∨
      ∃ f ∈ results.failedDispatches, f.groupId = g.id ∧ f.deviceId = some d

section Groups
variable {γ κ : Type*} {groups : List (DrPlanGroup γ κ)}

theorem Whole.mono {results later : DrExecutionResults γ κ} (whole : Whole groups results)
    (queued : later.queuedCommands = results.queuedCommands)
    (failures : results.failedDispatches ⊆ later.failedDispatches) : Whole groups later := by
  unfold Whole
  rw [queued]
  intro g member begun d device
  rcases whole g member begun d device with listed | ⟨f, failed, keys⟩
  · exact .inl listed
  · exact .inr ⟨f, failures failed, keys⟩

theorem beginDispatch_failures {group : DrPlanGroup γ κ} {current results : DrExecutionResults γ κ}
    (refused : beginDispatch group current = .error results) : current.failedDispatches ⊆ results.failedDispatches := by
  unfold beginDispatch at refused
  split at refused
  next =>
    cases refused
    exact subset_append_left ..
  next =>
    split_ifs at refused <;>
      · cases refused
        exact subset_append_left ..

theorem groupStatus_pending {statuses : List DrStatus} {dispatchFailed : Bool}
    (pending : groupStatus statuses dispatchFailed = .pending) :
    .running ∉ statuses ∧ .completed ∉ statuses ∧ .failed ∉ statuses := by
  unfold groupStatus at pending
  split_ifs at pending with _ unfailed _ _ none_of
  push Not at none_of
  exact ⟨none_of.1, none_of.2, unfailed⟩

variable [DecidableEq γ] [DecidableEq κ]

theorem computeStatus_pending {results : DrExecutionResults γ κ} {commandMap : CommandMap} {g : DrPlanGroup γ κ}
    (whole : Whole groups results) (member : g ∈ groups) (assigned : g.devices ≠ [])
    (pending : computeStatus results.queuedCommands results.failedDispatches commandMap g = .pending) :
    ∀ q ∈ results.queuedCommands, q.groupId ≠ g.id := by
  intro q listed same
  obtain ⟨unrun, uncompleted, unfailed⟩ := groupStatus_pending pending
  obtain ⟨d, device⟩ := exists_mem_of_ne_nil _ assigned
  have found := List.mem_map_of_mem (f := deviceStatus results.queuedCommands results.failedDispatches commandMap g.id)
    device
  rcases deviceStatus_cases (whole g member ⟨q, listed, same⟩ d device) with runs | done | failed
  · exact unrun (runs ▸ found)
  · exact uncompleted (done ▸ found)
  · exact unfailed (failed ▸ found)

end Groups

section Flight
variable {γ κ : Type*} {commands : ℕ → Option (DrCommand γ κ)} {i : ℕ} {c : DrCommand γ κ}

theorem inFlight_of_running (found : commands i = some c)
    (running : normalizeCommandStatus (statuses commands i) = .running) : InFlight commands i := by
  unfold InFlight
  rw [statuses, found] at running ⊢
  cases status : c.status with
  | pending => exact .inl (congrArg some status)
  | sent => exact .inr (congrArg some status)
  | completed | failed => simp [status, normalizeCommandStatus] at running

theorem inFlight_of_open (found : commands i = some c) (inFlight : c.Open) : InFlight commands i := by
  unfold InFlight
  rw [statuses, found]
  exact inFlight.imp (congrArg some) (congrArg some)

theorem endCommands_some (ids : List ℕ) (status : CommandStatus) (found : commands i = some c) :
    ∃ d, endCommands ids status commands i = some d := by
  simp only [endCommands, found, map_some]
  split_ifs <;> exact ⟨_, rfl⟩

theorem inFlight_endCommands {ids : List ℕ} (inFlight : InFlight (endCommands ids .failed commands) i) :
    i ∉ ids ∧ InFlight commands i := by
  by_cases ended : i ∈ ids
  · simp [InFlight, statuses, endCommands, ended] at inFlight
  · simp only [InFlight, statuses, endCommands, ended, if_false] at inFlight
    exact ⟨ended, inFlight⟩

theorem statuses_selectCommands {results : DrExecutionResults γ κ} {q : QueuedDrCommand γ κ}
    (listed : q ∈ results.queuedCommands) :
    selectCommands commands results q.commandId = statuses commands q.commandId :=
  if_pos (List.mem_map_of_mem listed)

end Flight

section Dispatches
variable {γ κ : Type*} {group : DrPlanGroup γ κ}

/-- Every command that the results name has its row. -/
structure Dispatched.Rowed (d : Dispatched γ κ) : Prop where
  named : ∀ q ∈ d.results.queuedCommands, ∃ c, d.commands q.commandId = some c
  fresh : ∀ i, d.nextCommand ≤ i → d.commands i = none

/-- What the dispatch of a group adds: commands of the group, in flight, and failures. -/
structure Dispatched.Extends (group : DrPlanGroup γ κ) (d later : Dispatched γ κ) : Prop where
  queued : d.results.queuedCommands ⊆ later.results.queuedCommands
  failures : d.results.failedDispatches ⊆ later.results.failedDispatches
  added : ∀ q ∈ later.results.queuedCommands, q ∈ d.results.queuedCommands ∨
    q.groupId = group.id ∧ InFlight later.commands q.commandId
  rows : ∀ i c, d.commands i = some c → later.commands i = some c
  dispatchStatus : later.results.dispatchStatus = d.results.dispatchStatus

theorem Dispatched.Extends.refl (d : Dispatched γ κ) : d.Extends group d :=
  ⟨List.Subset.refl _, List.Subset.refl _, fun _ => .inl, fun _ _ => id, rfl⟩

theorem inFlight_rows {commands next : ℕ → Option (DrCommand γ κ)} {i : ℕ}
    (rows : ∀ i c, commands i = some c → next i = some c) (inFlight : InFlight commands i) : InFlight next i := by
  have keep : ∀ status, statuses commands i = some status → statuses next i = some status := by
    intro status given
    obtain ⟨c, found, same⟩ := map_eq_some_iff.mp given
    exact map_eq_some_iff.mpr ⟨c, rows i c found, same⟩
  exact inFlight.imp (keep _) (keep _)

theorem Dispatched.Extends.trans {d mid later : Dispatched γ κ} (first : d.Extends group mid)
    (rest : mid.Extends group later) : d.Extends group later where
  queued := List.Subset.trans first.queued rest.queued
  failures := List.Subset.trans first.failures rest.failures
  added := by
    intro q listed
    rcases rest.added q listed with old | new
    · rcases first.added q old with older | ⟨own, inFlight⟩
      · exact .inl older
      · exact .inr ⟨own, inFlight_rows rest.rows inFlight⟩
    · exact .inr new
  rows := fun i c found => rest.rows i c (first.rows i c found)
  dispatchStatus := rest.dispatchStatus.trans first.dispatchStatus

def Dispatched.Reached (group : DrPlanGroup γ κ) (device : κ) (d : Dispatched γ κ) : Prop :=
  (∃ q ∈ d.results.queuedCommands, q.groupId = group.id ∧ q.deviceId = device) ∨
    ∃ f ∈ d.results.failedDispatches, f.groupId = group.id ∧ f.deviceId = some device

theorem Dispatched.Reached.extend {device : κ} {d later : Dispatched γ κ} (reached : d.Reached group device)
    (grows : d.Extends group later) : later.Reached group device := by
  rcases reached with ⟨q, listed, keys⟩ | ⟨f, failed, keys⟩
  · exact .inl ⟨q, grows.queued listed, keys⟩
  · exact .inr ⟨f, grows.failures failed, keys⟩

theorem queueDevice_spec (group : DrPlanGroup γ κ) (answers : κ → Option String) {d : Dispatched γ κ}
    (rowed : d.Rowed) (device : κ) :
    (queueDevice group answers d device).Rowed ∧ d.Extends group (queueDevice group answers d device) ∧
      (queueDevice group answers d device).Reached group device := by
  unfold queueDevice
  cases answers device with
  | some error =>
    refine ⟨⟨rowed.named, rowed.fresh⟩, ?_, .inr ⟨_, mem_append_right _ (mem_singleton_self _), rfl, rfl⟩⟩
    exact ⟨List.Subset.refl _, subset_append_left .., fun _ => .inl, fun _ _ => id, rfl⟩
  | none =>
    have rows : ∀ i c, d.commands i = some c →
        update d.commands d.nextCommand (some ⟨group.id, device, .pending, false⟩) i = some c := by
      intro i c found
      have other : i ≠ d.nextCommand := by
        rintro rfl
        cases found.symm.trans (rowed.fresh _ (Nat.le_refl _))
      rw [update_of_ne other]
      exact found
    refine ⟨⟨?_, ?_⟩, ⟨subset_append_left .., List.Subset.refl _, ?_, rows, rfl⟩,
      .inl ⟨_, mem_append_right _ (mem_singleton_self _), rfl, rfl⟩⟩
    · intro q listed
      rcases mem_append.mp listed with old | new
      · obtain ⟨c, found⟩ := rowed.named q old
        exact ⟨c, rows _ c found⟩
      · obtain rfl := mem_singleton.mp new
        exact ⟨_, update_self ..⟩
    · intro i later
      have other : i ≠ d.nextCommand := Nat.ne_of_gt later
      exact (update_of_ne other ..).trans (rowed.fresh i (Nat.le_of_succ_le later))
    · intro q listed
      rcases mem_append.mp listed with old | new
      · exact .inl old
      · obtain rfl := mem_singleton.mp new
        exact .inr ⟨rfl, inFlight_of_open (update_self ..) (.inl rfl)⟩

theorem queueDevices_spec (group : DrPlanGroup γ κ) (answers : κ → Option String) (rest : List κ)
    {d : Dispatched γ κ} (rowed : d.Rowed) :
    let queued := rest.foldl (queueDevice group answers) d
    queued.Rowed ∧ d.Extends group queued ∧ ∀ device ∈ rest, queued.Reached group device := by
  induction rest generalizing d with
  | nil => exact ⟨rowed, .refl d, fun device member => absurd member (by simp)⟩
  | cons first rest ih =>
    obtain ⟨next, step, reached⟩ := queueDevice_spec group answers rowed first
    obtain ⟨last, onward, others⟩ := ih next
    refine ⟨last, step.trans onward, fun device member => ?_⟩
    rcases mem_cons.mp member with rfl | later
    · exact reached.extend onward
    · exact others device later

end Dispatches

section Law
variable {γ κ : Type*}

/-- What the reconcile of the job has read of the execution, and what it is about to write. -/
inductive JobDraft (groups : List (DrPlanGroup γ κ)) (execution : DrExecution γ κ) : DrJob γ κ → Prop
  | waiting : JobDraft groups execution .waiting
  | delayed : JobDraft groups execution .delayed
  | completed : JobDraft groups execution .completed
  | failed : JobDraft groups execution .failed
  | opens : JobDraft groups execution (.active .readExecution)
  | ends : JobDraft groups execution (.active .ending)
  | reads {current : DrExecutionResults γ κ} (going : ¬execution.status.Terminal)
      (queued : current.queuedCommands = execution.results.queuedCommands)
      (failures : current.failedDispatches = execution.results.failedDispatches) :
      JobDraft groups execution (.active (.readCommands current))
  | dispatches {commandMap : CommandMap} {group : DrPlanGroup γ κ} {rest : List κ} {results : DrExecutionResults γ κ}
      (going : ¬execution.status.Terminal) (queued : results.queuedCommands = execution.results.queuedCommands)
      (failures : results.failedDispatches = execution.results.failedDispatches) (member : group ∈ groups)
      (assigned : group.devices ≠ []) (devices : group.devices ⊆ rest)
      (unbegun : ∀ q ∈ execution.results.queuedCommands, q.groupId ≠ group.id) :
      JobDraft groups execution (.active (.dispatch commandMap group rest results))
  | writes {status : DrExecutionStatus} {results : DrExecutionResults γ κ} (going : ¬execution.status.Terminal)
      (begun : status ≠ .pending) (queued : results.queuedCommands = execution.results.queuedCommands)
      (failures : execution.results.failedDispatches ⊆ results.failedDispatches) :
      JobDraft groups execution (.active (.write status results))

structure WakeLaw (groups : List (DrPlanGroup γ κ)) (s : DrSystem γ κ) : Prop where
  named : ∀ q ∈ s.execution.results.queuedCommands, ∃ c, s.commands q.commandId = some c
  fresh : ∀ i, s.nextCommand ≤ i → s.commands i = none
  whole : Whole groups s.execution.results
  begun : s.execution.status = .pending → s.nextCommand = 0 ∧ s.handling = []
  draft : JobDraft groups s.execution s.job
  awake : s.Awake

variable {groups : List (DrPlanGroup γ κ)} {s : DrSystem γ κ} {job : DrJob γ κ}

theorem JobDraft.frame {execution later : DrExecution γ κ} (draft : JobDraft groups execution job)
    (status : later.status = execution.status)
    (queued : later.results.queuedCommands = execution.results.queuedCommands)
    (failures : later.results.failedDispatches = execution.results.failedDispatches) : JobDraft groups later job := by
  cases draft with
  | waiting => exact .waiting
  | delayed => exact .delayed
  | completed => exact .completed
  | failed => exact .failed
  | opens => exact .opens
  | ends => exact .ends
  | reads going same failed =>
    exact .reads (status ▸ going) (same.trans queued.symm) (failed.trans failures.symm)
  | dispatches going same failed member assigned devices unbegun =>
    exact .dispatches (status ▸ going) (same.trans queued.symm) (failed.trans failures.symm) member assigned devices
      (queued ▸ unbegun)
  | writes going begun same failed =>
    exact .writes (status ▸ going) begun (same.trans queued.symm) (failures ▸ failed)

theorem enqueue_cases (job : DrJob γ κ) :
    job.isReusableState = true ∧ job.enqueueDrExecutionReconcile 0 = job ∨
      job.isReusableState = false ∧ job.enqueueDrExecutionReconcile 0 = .waiting := by
  cases job with
  | waiting | delayed | active stage => exact .inl ⟨rfl, rfl⟩
  | completed | failed => exact .inr ⟨rfl, rfl⟩

theorem JobDraft.enqueue {execution : DrExecution γ κ} (draft : JobDraft groups execution job) :
    JobDraft groups execution (job.enqueueDrExecutionReconcile 0) := by
  rcases enqueue_cases job with ⟨-, same⟩ | ⟨-, added⟩
  · exact same.symm ▸ draft
  · exact added.symm ▸ .waiting

theorem DrSystem.Awake.terminal (awake : s.Awake) (quiet : s.Quiet) : s.execution.status.Terminal := by
  have idle : s.job.isDue = false ∧ s.job.isAhead = false := by
    have unused := quiet.idle
    cases job : s.job with
    | waiting | delayed | active stage => cases job ▸ unused
    | completed | failed => exact ⟨rfl, rfl⟩
  rcases awake with due | terminal | ahead | handling | owed | ⟨q, listed, -, inFlight⟩
  · cases idle.1.symm.trans due
  · exact terminal
  · cases idle.2.symm.trans ahead
  · exact absurd quiet.handled handling
  · exact absurd quiet.enqueued owed
  · have ended := quiet.ended q listed
    rcases inFlight with pending | sent
    · simp [pending] at ended
    · simp [sent] at ended

theorem WakeLaw.withJob (law : WakeLaw groups s) (draft : JobDraft groups s.execution job)
    (awake : job.isDue = true ∨ s.Kept job.isAhead [] s.owed) : WakeLaw groups { s with job } where
  named := law.named
  fresh := law.fresh
  whole := law.whole
  begun := law.begun
  draft := draft
  awake := awake

theorem WakeLaw.endCommands (law : WakeLaw groups s) {ids reaping : List ℕ} {status : CommandStatus}
    {handling : List (ℕ × ResultStatus)} (handled : handling ≠ s.handling → s.execution.status ≠ .pending)
    (awake : s.job.isDue = true ∨ handling ≠ [] ∨ s.Kept s.job.isAhead ids s.owed)
    (more : s.handling ≠ [] → handling ≠ []) :
    WakeLaw groups { s with commands := endCommands ids status s.commands, reaping, handling } where
  named := by
    intro q listed
    obtain ⟨c, found⟩ := law.named q listed
    exact endCommands_some ids _ found
  fresh := by
    intro i later
    simp only [DrSystem.endCommands, law.fresh i later, map_none, ite_self]
  whole := law.whole
  begun := by
    intro pending
    by_cases same : handling = s.handling
    · exact same ▸ law.begun pending
    · exact absurd pending (handled same)
  draft := law.draft
  awake := by
    rcases awake with due | answers | terminal | ahead | answers | owed | ⟨q, listed, spared, inFlight⟩
    · exact .inl due
    · exact .inr (.inr (.inr (.inl answers)))
    · exact .inr (.inl terminal)
    · exact .inr (.inr (.inl ahead))
    · exact .inr (.inr (.inr (.inl (more answers))))
    · exact .inr (.inr (.inr (.inr (.inl owed))))
    · refine .inr (.inr (.inr (.inr (.inr ⟨q, listed, by simp, ?_⟩))))
      simp only [InFlight, statuses, DrSystem.endCommands, spared, if_false]
      exact inFlight

end Law

section Steps
variable {γ κ : Type*} [DecidableEq γ] [DecidableEq κ] {groups : List (DrPlanGroup γ κ)} {s : DrSystem γ κ}

theorem WakeLaw.decide (law : WakeLaw groups s) (distinct : (groups.map DrPlanGroup.id).Nodup)
    {current : DrExecutionResults γ κ} (job : s.job = .active (.readCommands current)) :
    WakeLaw groups (s.readStep groups) := by
  have draft := law.draft
  rw [job] at draft
  cases draft with
  | reads going queued failures =>
    simp only [readStep, job]
    cases decided : decideNext groups (selectCommands s.commands current) current with
    | write status results =>
      have observed := decideNext_write decided
      refine law.withJob (.writes going observed.begun (observed.queued.trans queued) ?_) ?_
      · rw [observed.failures, failures]
        exact List.Subset.refl _
      · by_cases ended : status.Terminal
        · exact .inr (.inr (.inl (decide_eq_true ended)))
        · obtain ⟨g, member, running⟩ := observed.running ended
          rw [queued, failures] at running
          obtain ⟨q, listed, runs⟩ := computeStatus_running running (law.whole g member)
          obtain ⟨c, found⟩ := law.named q listed
          rw [statuses_selectCommands (queued.symm ▸ listed)] at runs
          exact .inr (.inr (.inr (.inr (.inr ⟨q, listed, by simp, inFlight_of_running found runs⟩))))
    | dispatch group results =>
      obtain ⟨picked, rfl⟩ := decideNext_dispatch decided
      obtain ⟨member, pending, -⟩ := pickNextGroup_some distinct picked
      simp only [Decision.stage]
      cases begun : beginDispatch group (refreshed groups (selectCommands s.commands current) current) with
      | error results =>
        obtain ⟨same, refused⟩ := beginDispatch_error begun
        have status : (afterDispatch groups (selectCommands s.commands current) results).status = .failed :=
          if_pos refused
        simp only [status]
        refine law.withJob (.writes going (by decide) (same.trans queued) ?_) (.inr (.inr (.inl rfl)))
        have kept := beginDispatch_failures begun
        rw [← failures]
        exact kept
      | ok results =>
        obtain ⟨same, failed, -, assigned⟩ := beginDispatch_ok begun
        rw [queued, failures] at pending
        have unbegun := computeStatus_pending law.whole member assigned pending
        refine law.withJob (.dispatches going (same.trans queued) (failed.trans failures) member assigned ?_
          unbegun) (.inr (.inr (.inl rfl)))
        intro d device
        refine mem_unqueued.mpr ⟨device, ?_⟩
        rintro ⟨q, listed, own, -⟩
        exact unbegun q (queued ▸ listed) own

theorem WakeLaw.read (law : WakeLaw groups s) (distinct : (groups.map DrPlanGroup.id).Nodup)
    (watched : s.Watched .read) : WakeLaw groups (s.readStep groups) := by
  cases job : s.job with
  | waiting | delayed | completed | failed => simpa only [readStep, job] using law
  | active stage =>
    cases stage with
    | readExecution =>
      have created : s.created = true := by simpa only [DrSystem.Watched, job] using watched
      simp only [readStep, job]
      by_cases ended : s.execution.status.Terminal
      · rw [if_pos (.inr ended)]
        exact law.withJob .ends (.inr (.inl ended))
      · rw [if_neg (not_or.mpr ⟨by simp [created], ended⟩)]
        exact law.withJob (.reads ended rfl rfl) (.inl rfl)
    | readCommands current => exact law.decide distinct job
    | dispatch commandMap group rest results | write status results | ending =>
      simpa only [readStep, job] using law

theorem dispatch_keeps (groups : List (DrPlanGroup γ κ)) (commandMap : CommandMap) {group : DrPlanGroup γ κ}
    {d queued : Dispatched γ κ} (grows : d.Extends group queued)
    (unbegun : ∀ q ∈ d.results.queuedCommands, q.groupId ≠ group.id) {device : κ}
    (reached : queued.Reached group device) :
    (afterDispatch groups commandMap (endDispatch group queued.results)).status.Terminal ∨
      ∃ q ∈ queued.results.queuedCommands, InFlight queued.commands q.commandId := by
  have own : ∀ q ∈ queued.results.queuedCommands, q.groupId = group.id → InFlight queued.commands q.commandId := by
    intro q listed same
    rcases grows.added q listed with old | ⟨-, inFlight⟩
    · exact absurd same (unbegun q old)
    · exact inFlight
  by_cases begun : ∃ q ∈ queued.results.queuedCommands, q.groupId = group.id
  · obtain ⟨q, listed, same⟩ := begun
    exact .inr ⟨q, listed, own q listed same⟩
  · refine .inl (.inr (.inl (if_pos ?_)))
    rcases reached with ⟨q, listed, same, -⟩ | ⟨f, failed, same, -⟩
    · exact absurd ⟨q, listed, same⟩ begun
    · have failures : queued.results.failedDispatches.any (·.groupId = group.id) = true :=
        List.any_eq_true.mpr ⟨f, failed, decide_eq_true same⟩
      have none_queued : queued.results.queuedCommands.any (·.groupId = group.id) = false :=
        List.any_eq_false.mpr fun q listed => by
          simpa using fun same => begun ⟨q, listed, same⟩
      simp only [endDispatch, failures, none_queued, if_true]
      rfl

omit [DecidableEq κ] in
theorem Dispatched.Extends.whole {group : DrPlanGroup γ κ} {d later : Dispatched γ κ} (grows : d.Extends group later)
    (distinct : (groups.map DrPlanGroup.id).Nodup) (member : group ∈ groups) (whole : Whole groups d.results)
    (reached : ∀ device ∈ group.devices, later.Reached group device) : Whole groups later.results := by
  intro g planned begun device assigned
  by_cases same : g.id = group.id
  · obtain rfl := inj_on_of_nodup_map distinct planned member same
    exact reached device assigned
  · obtain ⟨q, listed, own⟩ := begun
    rcases grows.added q listed with old | ⟨new, -⟩
    · rcases whole g planned ⟨q, old, own⟩ device assigned with ⟨k, found, keys⟩ | ⟨f, failed, keys⟩
      · exact .inl ⟨k, grows.queued found, keys⟩
      · exact .inr ⟨f, grows.failures failed, keys⟩
    · exact absurd (own.symm.trans new) same

theorem afterDispatch_begun {commandMap : CommandMap} {results : DrExecutionResults γ κ} :
    (afterDispatch groups commandMap results).status ≠ .pending := by
  unfold afterDispatch
  split_ifs <;> simp

omit [DecidableEq γ] [DecidableEq κ] in
theorem followUp_ending (status : DrExecutionStatus) (delayMs : ℕ) :
    (if status.Terminal then .active .ending
      else (DrJob.active .ending : DrJob γ κ).enqueueDrExecutionReconcile delayMs) = .active .ending := by
  split_ifs <;> rfl

theorem WakeLaw.commit (law : WakeLaw groups s) (distinct : (groups.map DrPlanGroup.id).Nodup)
    (answers : κ → Option String) : WakeLaw groups (s.commitStep groups answers) := by
  have draft := law.draft
  have awake := law.awake
  cases job : s.job with
  | waiting | delayed | completed | failed => simpa only [commitStep, job] using law
  | active stage =>
    cases stage with
    | readExecution | readCommands current | ending => simpa only [commitStep, job] using law
    | write status results =>
      rw [job] at draft
      cases draft with
      | writes going begun queued failures =>
        simp only [commitStep, job, followUp_ending]
        refine ⟨queued.symm ▸ law.named, law.fresh, law.whole.mono queued failures,
          fun pending => absurd pending begun, .ends, .inr ?_⟩
        by_cases ended : status.Terminal
        · exact .inl ended
        · rcases awake with due | terminal | ahead | handling | owed | ⟨q, listed, -, inFlight⟩
          · cases job ▸ due
          · exact absurd terminal going
          · rw [job] at ahead
            exact absurd (of_decide_eq_true ahead) ended
          · exact .inr (.inr (.inl handling))
          · exact .inr (.inr (.inr (.inl owed)))
          · exact .inr (.inr (.inr (.inr ⟨q, queued.symm ▸ listed, by simp, inFlight⟩)))
    | dispatch commandMap group rest results =>
      rw [job] at draft
      cases draft with
      | dispatches going queued failures member assigned devices unbegun =>
        simp only [commitStep, job, followUp_ending]
        have rowed : Dispatched.Rowed ⟨results, s.commands, s.nextCommand⟩ :=
          ⟨queued.symm ▸ law.named, law.fresh⟩
        obtain ⟨later, grows, reached⟩ := queueDevices_spec group answers rest rowed
        obtain ⟨device, assigned⟩ := exists_mem_of_ne_nil _ assigned
        have unbegun : ∀ q ∈ results.queuedCommands, q.groupId ≠ group.id := queued.symm ▸ unbegun
        refine ⟨?_, later.fresh, ?_, ?_, .ends, .inr ?_⟩
        · simpa only [afterDispatch, endDispatch_queued] using later.named
        · have whole := grows.whole distinct member
            (law.whole.mono queued (failures ▸ List.Subset.refl _))
            fun d device => reached d (devices device)
          exact whole.mono endDispatch_queued fun f failed => (congrArg (f ∈ ·) endDispatch_failures).mpr failed
        · intro pending
          exact absurd pending afterDispatch_begun
        · rcases dispatch_keeps groups commandMap grows unbegun
              (reached device (devices assigned)) with ended | ⟨q, listed, inFlight⟩
          · exact .inl ended
          · refine .inr (.inr (.inr (.inr ⟨q, ?_, by simp, inFlight⟩)))
            simpa only [afterDispatch, endDispatch_queued] using listed

theorem handleDrCommandResult_keeps (groupId : γ) (deviceId : κ) (status : DrStatus)
    {execution : DrExecution γ κ} (begun : execution.status ≠ .pending) :
    ∃ groupResults, handleDrCommandResult groupId deviceId status execution =
      { execution with results := { execution.results with groupResults } } := by
  refine ⟨mergeGroup groupId deviceId status execution.results.groupResults, ?_⟩
  dsimp only [handleDrCommandResult]
  split
  · exact if_neg begun
  · rfl

theorem WakeLaw.handleResult (law : WakeLaw groups s) (i : ℕ) (saved : Bool) :
    WakeLaw groups (wakeStep groups s (.handleResult i saved)) := by
  simp only [wakeStep]
  split
  next result command found _ =>
    have begun : s.execution.status ≠ .pending := by
      intro pending
      have listed := mem_of_find?_eq_some found
      rw [(law.begun pending).2] at listed
      exact absurd listed (by simp)
    obtain ⟨groupResults, handled⟩ := handleDrCommandResult_keeps command.groupId command.deviceId (reported result.2)
      begun
    have same : ∃ results : DrExecutionResults γ κ, results.queuedCommands = s.execution.results.queuedCommands ∧
        results.failedDispatches = s.execution.results.failedDispatches ∧
        (if saved then handleDrCommandResult command.groupId command.deviceId (reported result.2) s.execution
          else s.execution) = { s.execution with results } := by
      cases saved with
      | false => exact ⟨s.execution.results, rfl, rfl, if_neg (by simp)⟩
      | true => exact ⟨{ s.execution.results with groupResults }, rfl, rfl, (if_pos rfl).trans handled⟩
    obtain ⟨results, queued, failures, same⟩ := same
    rw [same]
    exact {
      named := queued.symm ▸ law.named
      fresh := law.fresh
      whole := law.whole.mono queued (failures ▸ List.Subset.refl _)
      begun := fun pending => absurd pending begun
      draft := law.draft.frame rfl queued failures
      awake := .inr (.inr (.inr (.inr (.inl (by simp))))) }
  next => exact law

theorem WakeLaw.storeResult (law : WakeLaw groups s) (i : ℕ) (status : ResultStatus) (valid : Bool)
    (watched : s.Watched (.storeResult i status valid)) :
    WakeLaw groups (wakeStep groups s (.storeResult i status valid)) := by
  by_cases accepts : s.Accepts i
  · cases valid with
    | true =>
      simp only [wakeStep, if_pos accepts, if_true]
      refine law.endCommands (fun _ pending => ?_) (.inr (.inl (by simp))) (fun _ => by simp)
      obtain ⟨c, found, -⟩ := accepts.1
      have missing := law.fresh i ((law.begun pending).1 ▸ Nat.zero_le i)
      cases missing.symm.trans found
    | false =>
      simp only [wakeStep, if_pos accepts, Bool.false_eq_true, if_false]
      exact law.endCommands (fun other => absurd rfl other) ((watched accepts).imp_right .inr) id
  · simp only [wakeStep, if_neg accepts]
    exact law

theorem WakeLaw.fail (law : WakeLaw groups s) (again : Bool) (watched : s.Watched (.fail again)) :
    WakeLaw groups (wakeStep groups s (.fail again)) := by
  cases job : s.job with
  | waiting | delayed | completed | failed => simpa only [wakeStep, job] using law
  | active stage =>
    simp only [wakeStep, job]
    cases again with
    | true => exact law.withJob .delayed (.inl rfl)
    | false =>
      have kept : s.Kept false [] s.owed := by simpa only [DrSystem.Watched, job] using watched
      exact law.withJob .failed (.inr kept)

theorem WakeLaw.finish (law : WakeLaw groups s) : WakeLaw groups (wakeStep groups s .finish) := by
  simp only [wakeStep]
  split
  next job =>
    refine law.withJob .completed (.inr ?_)
    rcases law.awake with due | kept
    · cases job ▸ due
    · rw [job] at kept
      exact kept
  next => exact law

theorem WakeLaw.enqueue (law : WakeLaw groups s) (i : ℕ) (watched : s.Watched (.enqueue i)) :
    WakeLaw groups (wakeStep groups s (.enqueue i)) := by
  by_cases owing : i ∈ s.owed
  · simp only [wakeStep, if_pos owing]
    refine ⟨law.named, law.fresh, law.whole, law.begun, law.draft.enqueue, ?_⟩
    rcases enqueue_cases s.job with ⟨reused, same⟩ | ⟨-, added⟩
    · have awake := watched owing reused
      simp only [DrSystem.Awake, same]
      exact awake
    · exact .inl (added.symm ▸ rfl)
  · simpa only [wakeStep, if_neg owing] using law

theorem WakeLaw.reap (law : WakeLaw groups s) (i : ℕ) : WakeLaw groups (wakeStep groups s (.reap i)) := by
  by_cases accepts : s.Accepts i
  · simp only [wakeStep, if_pos accepts]
    refine ⟨law.named, law.fresh, law.whole, law.begun, law.draft.enqueue, ?_⟩
    rcases enqueue_cases s.job with ⟨-, same⟩ | ⟨-, added⟩
    · have awake := law.awake
      simp only [DrSystem.Awake, same]
      exact awake
    · exact .inl (added.symm ▸ rfl)
  · simpa only [wakeStep, if_neg accepts] using law

theorem WakeLaw.step (law : WakeLaw groups s) (distinct : (groups.map DrPlanGroup.id).Nodup) (e : DrEvent κ)
    (watched : s.Watched e) : WakeLaw groups (wakeStep groups s e) := by
  cases e with
  | create => exact ⟨law.named, law.fresh, law.whole, law.begun, law.draft, law.awake⟩
  | promote =>
    simp only [wakeStep]
    split
    next => exact law.withJob .waiting (.inl rfl)
    next => exact law
  | take =>
    simp only [wakeStep]
    split
    next => exact law.withJob .opens (.inl rfl)
    next => exact law
  | read => exact law.read distinct watched
  | commit answers => exact law.commit distinct answers
  | finish => exact law.finish
  | fail again => exact law.fail again watched
  | storeResult i status valid => exact law.storeResult i status valid watched
  | handleResult i saved => exact law.handleResult i saved
  | enqueue i => exact law.enqueue i watched
  | reap i => exact law.reap i
  | endReap commits =>
    cases commits with
    | true => exact law.endCommands (fun other => absurd rfl other) (watched.imp_right .inr) id
    | false => exact ⟨law.named, law.fresh, law.whole, law.begun, law.draft, law.awake⟩

omit [DecidableEq γ] [DecidableEq κ] in
theorem law_wakeStart (groups : List (DrPlanGroup γ κ)) : WakeLaw groups (wakeStart groups) where
  named := fun q listed => absurd listed (by simp [wakeStart, buildInitialResults])
  fresh := fun _ _ => rfl
  whole := fun _ _ begun => absurd begun (by simp [wakeStart, buildInitialResults])
  begun := fun _ => ⟨rfl, rfl⟩
  draft := .waiting
  awake := .inl rfl

end Steps

end RemudaRmm.Recovery
