import Mathlib.Data.List.Nodup
import RemudaRmm.Foundation.Runs

/-! The worker pool of the agent (`pool.go`): each load, store, channel operation and counter change of a call or a
worker is a step. A task is named by the call that submits it, and the calls at one point of `Submit` are kept in one
list. -/
namespace RemudaRmm.Endpoint
open Foundation List Function Option

abbrev Task := ℕ

/-- Where a call of `Drain` stands. Its goroutine has seen the counter at zero once `done` holds, and it leaves its
`select` drained or at the end of its context. -/
inductive DrainStage where
  | idle
  | sawAccepting
  | checked
  | waiting (done : Bool)
  | selected (drained : Bool)
  | returned (drained : Bool)
  deriving DecidableEq

structure Job where
  task : Task
  ranging : Bool
  deriving DecidableEq

structure Pool where
  queueSize : ℕ
  (accepting stopped closed cancelled : Bool)
  queue : List Task
  wg : ℕ
  (called loaded added full accepted rejected : List Task)
  panicked : Bool
  (selecting ranging : ℕ)
  (running leaving : List Job)
  exited : ℕ
  finished : List Task
  drains : ℕ → DrainStage

def newPool (maxWorkers queueSize : ℕ) : Pool where
  queueSize := max 1 queueSize
  accepting := true
  stopped := false
  closed := false
  cancelled := false
  queue := []
  wg := 0
  called := []
  loaded := []
  added := []
  full := []
  accepted := []
  rejected := []
  panicked := false
  selecting := max 1 maxWorkers
  ranging := 0
  running := []
  leaving := []
  exited := 0
  finished := []
  drains := fun _ => .idle

inductive PoolEvent where
  | submit (t : Task)
  | add (t : Task)
  | send (t : Task)
  | undo (t : Task)
  | stopAccepting
  | drain (d : ℕ)
  | storeFlag (d : ℕ)
  | closeStop (d : ℕ)
  | waitDone (d : ℕ)
  | select (d : ℕ) (drained : Bool)
  | closeQueue (d : ℕ)
  | range
  | take (ranging : Bool)
  | exit (ranging : Bool)
  | finish (j : Job)
  | release (j : Job)

def Pool.setDrain (s : Pool) (d : ℕ) (stage : DrainStage) : Pool :=
  { s with drains := update s.drains d stage }

/-- The send of `Submit`: it panics on a closed queue, and gives up on a full one. -/
def sendTask (s : Pool) (t : Task) : Pool :=
  if s.closed then { s with added := s.added.erase t, panicked := true }
  else if s.queue.length < s.queueSize then
    { s with added := s.added.erase t, queue := s.queue ++ [t], accepted := t :: s.accepted }
  else { s with added := s.added.erase t, full := t :: s.full }

def Pool.waitingIn (s : Pool) (ranging : Bool) : ℕ := if ranging then s.ranging else s.selecting

def Pool.setWaiting (s : Pool) (ranging : Bool) (n : ℕ) : Pool :=
  { s with
    selecting := if ranging then s.selecting else n
    ranging := if ranging then n else s.ranging }

def takeTask (s : Pool) (ranging : Bool) : Option Pool :=
  match s.queue with
  | [] => none
  | t :: rest =>
    if 0 < s.waitingIn ranging then
      some { s.setWaiting ranging (s.waitingIn ranging - 1) with queue := rest, running := ⟨t, ranging⟩ :: s.running }
    else none

def poolAct (s : Pool) : PoolEvent → Option Pool
  | .submit t =>
    if t ∈ s.called then none
    else if s.accepting then some { s with called := t :: s.called, loaded := t :: s.loaded }
    else some { s with called := t :: s.called, rejected := t :: s.rejected }
  | .add t =>
    if t ∈ s.loaded then
      some { s with loaded := s.loaded.erase t, added := t :: s.added, wg := s.wg + 1 }
    else none
  | .send t => if t ∈ s.added then some (sendTask s t) else none
  | .undo t =>
    if t ∈ s.full then
      some { s with full := s.full.erase t, rejected := t :: s.rejected, wg := s.wg - 1 }
    else none
  | .stopAccepting => some { s with accepting := false }
  | .drain d =>
    if s.drains d = .idle then some (s.setDrain d (if s.accepting then .sawAccepting else .checked)) else none
  | .storeFlag d =>
    if s.drains d = .sawAccepting then some { s.setDrain d .checked with accepting := false } else none
  | .closeStop d =>
    if s.drains d = .checked then some { s.setDrain d (.waiting false) with stopped := true } else none
  | .waitDone d =>
    if s.drains d = .waiting false ∧ s.wg = 0 then some (s.setDrain d (.waiting true)) else none
  | .select d drained =>
    if s.drains d = .waiting true ∨ s.drains d = .waiting false ∧ drained = false then
      some (s.setDrain d (.selected drained))
    else none
  | .closeQueue d =>
    match s.drains d with
    | .selected drained => some { s.setDrain d (.returned drained) with closed := true, cancelled := true }
    | _ => none
  | .range =>
    if s.stopped ∧ 0 < s.selecting then
      some { s with selecting := s.selecting - 1, ranging := s.ranging + 1 }
    else none
  | .take ranging => takeTask s ranging
  | .exit ranging =>
    if s.closed ∧ s.queue = [] ∧ 0 < s.waitingIn ranging then
      some { s.setWaiting ranging (s.waitingIn ranging - 1) with exited := s.exited + 1 }
    else none
  | .finish j =>
    if j ∈ s.running then
      some { s with running := s.running.erase j, leaving := j :: s.leaving, finished := j.task :: s.finished }
    else none
  | .release j =>
    if j ∈ s.leaving then
      some { s.setWaiting j.ranging (s.waitingIn j.ranging + 1) with leaving := s.leaving.erase j, wg := s.wg - 1 }
    else none

def poolStep (s : Pool) (event : PoolEvent) : Option Pool := if s.panicked then none else poolAct s event

/-- The calls and the tasks add up, and the counter of the wait group is the number of those that hold it. -/
structure Accounted (s : Pool) : Prop where
  counter : s.wg = s.added.length + s.full.length + s.queue.length + s.running.length + s.leaving.length
  calls : ∀ t, s.called.count t =
    s.loaded.count t + s.added.count t + s.full.count t + s.accepted.count t + s.rejected.count t
  distinct : s.called.Nodup
  tasks : ∀ t, s.accepted.count t = s.queue.count t + (s.running.map Job.task).count t + s.finished.count t

structure AllExited (s : Pool) : Prop where
  selecting : s.selecting = 0
  ranging : s.ranging = 0
  running : s.running = []
  leaving : s.leaving = []

def DrainStage.Drained : DrainStage → Prop
  | .waiting done => done = true
  | .selected drained => drained = true
  | .returned drained => drained = true
  | _ => False

def DrainStage.Stopping : DrainStage → Prop
  | .idle | .sawAccepting => False
  | _ => True

/-- What the flags tell of the calls under way. -/
structure Ordered (s : Pool) : Prop where
  stopping : ∀ d, (s.drains d).Stopping → s.accepting = false
  drained : ∀ d, (s.drains d).Drained → s.loaded = [] ∧ s.wg = 0
  shut : s.closed = true → s.accepting = false ∧ s.loaded = [] ∧ s.added = []
  gone : 0 < s.exited → s.closed = true ∧ s.queue = []

/-- No call of `Submit` has read the flag and not yet counted its task when a wait finishes, or not yet sent it when the
queue is closed. -/
def SafePoolEvent (s : Pool) : PoolEvent → Prop
  | .waitDone _ => s.loaded = []
  | .closeQueue _ => s.loaded = [] ∧ s.added = []
  | _ => True

instance decidableSafePoolEvent (s : Pool) : ∀ event, Decidable (SafePoolEvent s event)
  | .waitDone _ => inferInstanceAs (Decidable (s.loaded = []))
  | .closeQueue _ => inferInstanceAs (Decidable (s.loaded = [] ∧ s.added = []))
  | .submit _ | .add _ | .send _ | .undo _ | .stopAccepting | .drain _ | .storeFlag _ | .closeStop _ | .select _ _
  | .range | .take _ | .exit _ | .finish _ | .release _ => .isTrue trivial

def Staffed (workers : ℕ) (s : Pool) : Prop :=
  s.selecting + s.ranging + s.running.length + s.leaving.length + s.exited = workers

structure PoolSound (workers : ℕ) (s : Pool) : Prop where
  accounted : Accounted s
  ordered : Ordered s
  staffed : Staffed workers s
  calm : s.panicked = false

section Steps
variable {s next : Pool} {event : PoolEvent} {workers : ℕ} {t : Task}

theorem count_erase_add {l : List Task} (member : t ∈ l) (u : Task) :
    (l.erase t).count u + (if t = u then 1 else 0) = l.count u := by
  have positive := count_pos_iff.mpr member
  rw [count_erase]
  by_cases same : t = u
  · subst same
    simp
    omega
  · simp [same]

theorem count_cons_add (l : List Task) (t u : Task) : (t :: l).count u = l.count u + if t = u then 1 else 0 := by
  rw [count_cons]
  simp only [beq_iff_eq]

theorem count_map_erase_add {l : List Job} {j : Job} (member : j ∈ l) (u : Task) :
    ((l.erase j).map Job.task).count u + (if j.task = u then 1 else 0) = (l.map Job.task).count u := by
  have moved := (perm_cons_erase member).map Job.task
  rw [moved.count_eq, map_cons, count_cons_add]

theorem length_erase_add {α : Type*} [BEq α] [LawfulBEq α] {l : List α} {a : α} (member : a ∈ l) :
    (l.erase a).length + 1 = l.length := by
  have positive := length_pos_of_mem member
  rw [length_erase_of_mem member]
  omega

theorem sendTask_accounted (accounted : Accounted s) (member : t ∈ s.added) (opened : s.closed = false) :
    Accounted (sendTask s t) := by
  have shorter := length_erase_add member
  have fewer := count_erase_add member
  have counter := accounted.counter
  unfold sendTask
  rw [opened, if_neg Bool.false_ne_true]
  split_ifs
  · refine ⟨?_, fun u => ?_, accounted.distinct, fun u => ?_⟩
    · simp only [length_append, length_singleton]
      omega
    · have calls := accounted.calls u
      have count := fewer u
      simp only [count_cons_add]
      omega
    · have tasks := accounted.tasks u
      simp only [count_cons_add, count_append, count_nil]
      omega
  · refine ⟨?_, fun u => ?_, accounted.distinct, accounted.tasks⟩
    · simp only [length_cons]
      omega
    · have calls := accounted.calls u
      have count := fewer u
      simp only [count_cons_add]
      omega

theorem poolAct_accounted (accounted : Accounted s) (opened : s.closed → s.added = [])
    (stepped : poolAct s event = some next) : Accounted next := by
  have counter := accounted.counter
  cases event with
  | submit t =>
    dsimp only [poolAct] at stepped
    split_ifs at stepped with known
    all_goals
      cases stepped
      refine ⟨counter, fun u => ?_, nodup_cons.mpr ⟨known, accounted.distinct⟩, accounted.tasks⟩
      have calls := accounted.calls u
      simp only [count_cons_add]
      omega
  | add t =>
    dsimp only [poolAct] at stepped
    split_ifs at stepped with member
    cases stepped
    refine ⟨?_, fun u => ?_, accounted.distinct, accounted.tasks⟩
    · simp only [length_cons]
      omega
    · have calls := accounted.calls u
      have count := count_erase_add member u
      simp only [count_cons_add]
      omega
  | send t =>
    dsimp only [poolAct] at stepped
    split_ifs at stepped with member
    cases stepped
    refine sendTask_accounted accounted member ?_
    cases closed : s.closed with
    | false => rfl
    | true =>
      rw [opened closed] at member
      cases member
  | undo t =>
    dsimp only [poolAct] at stepped
    split_ifs at stepped with member
    cases stepped
    have shorter := length_erase_add member
    refine ⟨?_, fun u => ?_, accounted.distinct, accounted.tasks⟩
    · dsimp only
      omega
    · have calls := accounted.calls u
      have count := count_erase_add member u
      simp only [count_cons_add]
      omega
  | take ranging =>
    dsimp only [poolAct, takeTask] at stepped
    split at stepped
    · cases stepped
    next t rest queued =>
      split_ifs at stepped
      cases stepped
      rw [queued] at counter
      refine ⟨?_, accounted.calls, accounted.distinct, fun u => ?_⟩
      · simp only [Pool.setWaiting, length_cons] at counter ⊢
        omega
      · have tasks := accounted.tasks u
        rw [queued] at tasks
        simp only [Pool.setWaiting, map_cons, count_cons_add] at tasks ⊢
        omega
  | finish j =>
    dsimp only [poolAct] at stepped
    split_ifs at stepped with member
    cases stepped
    have shorter := length_erase_add member
    refine ⟨?_, accounted.calls, accounted.distinct, fun u => ?_⟩
    · simp only [length_cons]
      omega
    · have tasks := accounted.tasks u
      have count := count_map_erase_add member u
      simp only [count_cons_add]
      omega
  | release j =>
    dsimp only [poolAct] at stepped
    split_ifs at stepped with member
    cases stepped
    have shorter := length_erase_add member
    refine ⟨?_, accounted.calls, accounted.distinct, accounted.tasks⟩
    simp only [Pool.setWaiting]
    omega
  | closeQueue d | drain | storeFlag | closeStop | waitDone | select | range | exit =>
    dsimp only [poolAct] at stepped
    split at stepped
    · cases stepped
      exact ⟨counter, accounted.calls, accounted.distinct, accounted.tasks⟩
    · cases stepped
  | stopAccepting =>
    cases stepped
    exact ⟨counter, accounted.calls, accounted.distinct, accounted.tasks⟩

theorem Accounted.quiet (accounted : Accounted s) (zero : s.wg = 0) :
    s.added = [] ∧ s.full = [] ∧ s.queue = [] ∧ s.running = [] ∧ s.leaving = [] := by
  have counter := accounted.counter
  simp only [← length_eq_zero_iff]
  omega

theorem DrainStage.Drained.stopping {stage : DrainStage} (drained : stage.Drained) : stage.Stopping := by
  cases stage with
  | idle | sawAccepting => exact drained
  | checked | waiting | selected | returned => trivial

theorem Ordered.setDrain (ordered : Ordered s) {d : ℕ} {stage : DrainStage}
    (stopping : stage.Stopping → s.accepting = false) (drained : stage.Drained → s.loaded = [] ∧ s.wg = 0) :
    Ordered (s.setDrain d stage) where
  stopping := by
    intro other
    by_cases same : other = d
    · subst same
      simpa only [Pool.setDrain, update_self] using stopping
    · simpa only [Pool.setDrain, update_of_ne same] using ordered.stopping other
  drained := by
    intro other
    by_cases same : other = d
    · subst same
      simpa only [Pool.setDrain, update_self] using drained
    · simpa only [Pool.setDrain, update_of_ne same] using ordered.drained other
  shut := ordered.shut
  gone := ordered.gone

theorem poolAct_ordered (accounted : Accounted s) (ordered : Ordered s) (safe : SafePoolEvent s event)
    (stepped : poolAct s event = some next) : Ordered next := by
  have quiet : ∀ d, (s.drains d).Drained → _ := fun d drained => accounted.quiet (ordered.drained d drained).2
  cases event with
  | submit t =>
    dsimp only [poolAct] at stepped
    split_ifs at stepped with known accepting
    · cases stepped
      refine ⟨ordered.stopping, fun d drained => ?_, fun closed => ?_, ordered.gone⟩
      · exact absurd accepting (Bool.eq_false_iff.mp (ordered.stopping d drained.stopping))
      · exact absurd accepting (Bool.eq_false_iff.mp (ordered.shut closed).1)
    · cases stepped
      exact ⟨ordered.stopping, ordered.drained, ordered.shut, ordered.gone⟩
  | add t =>
    dsimp only [poolAct] at stepped
    split_ifs at stepped with member
    cases stepped
    refine ⟨ordered.stopping, fun d drained => ?_, fun closed => ?_, ordered.gone⟩
    · rw [(ordered.drained d drained).1] at member
      cases member
    · rw [(ordered.shut closed).2.1] at member
      cases member
  | send t =>
    dsimp only [poolAct] at stepped
    split_ifs at stepped with member
    cases stepped
    have opened : s.closed = false := by
      apply Bool.eq_false_iff.mpr
      intro closed
      rw [(ordered.shut closed).2.2] at member
      cases member
    have still : ¬0 < s.exited := by
      intro gone
      rw [(ordered.gone gone).1] at opened
      cases opened
    unfold sendTask
    rw [opened, if_neg Bool.false_ne_true]
    split_ifs
    · exact ⟨ordered.stopping, ordered.drained, fun closed => absurd (opened ▸ closed) Bool.false_ne_true,
        fun gone => absurd gone still⟩
    · exact ⟨ordered.stopping, ordered.drained, fun closed => absurd (opened ▸ closed) Bool.false_ne_true,
        fun gone => absurd gone still⟩
  | undo t =>
    dsimp only [poolAct] at stepped
    split_ifs at stepped with member
    cases stepped
    refine ⟨ordered.stopping, fun d drained => ?_, ordered.shut, ordered.gone⟩
    rw [(quiet d drained).2.1] at member
    cases member
  | stopAccepting =>
    cases stepped
    exact ⟨fun _ _ => rfl, ordered.drained, fun closed => ⟨rfl, (ordered.shut closed).2⟩, ordered.gone⟩
  | drain d =>
    dsimp only [poolAct] at stepped
    split_ifs at stepped with idle accepting
    · cases stepped
      exact ordered.setDrain False.elim False.elim
    · cases stepped
      exact ordered.setDrain (fun _ => Bool.eq_false_iff.mpr accepting) False.elim
  | storeFlag d =>
    dsimp only [poolAct] at stepped
    split_ifs at stepped
    cases stepped
    have stored : Ordered { s with accepting := false } :=
      ⟨fun _ _ => rfl, ordered.drained, fun closed => ⟨rfl, (ordered.shut closed).2⟩, ordered.gone⟩
    exact stored.setDrain (fun _ => rfl) False.elim
  | closeStop d =>
    dsimp only [poolAct] at stepped
    split_ifs at stepped with checked
    cases stepped
    have stopped : Ordered { s with stopped := true } :=
      ⟨ordered.stopping, ordered.drained, ordered.shut, ordered.gone⟩
    refine stopped.setDrain (fun _ => ordered.stopping d ?_) fun drained => absurd drained Bool.false_ne_true
    rw [checked]
    trivial
  | waitDone d =>
    dsimp only [poolAct] at stepped
    split_ifs at stepped with waits
    cases stepped
    refine ordered.setDrain (fun _ => ordered.stopping d ?_) fun _ => ⟨safe, waits.2⟩
    rw [waits.1]
    trivial
  | select d drained =>
    dsimp only [poolAct] at stepped
    split_ifs at stepped with waits
    cases stepped
    refine ordered.setDrain (fun _ => ordered.stopping d ?_) fun finished => ?_
    · rcases waits with done | ⟨early, -⟩
      · rw [done]
        trivial
      · rw [early]
        trivial
    · rcases waits with done | ⟨-, timeout⟩
      · apply ordered.drained d
        rw [done]
        rfl
      · exact absurd (timeout ▸ finished) Bool.false_ne_true
  | closeQueue d =>
    dsimp only [poolAct] at stepped
    split at stepped
    next drained selected =>
      cases stepped
      have stopping : s.accepting = false := by
        apply ordered.stopping d
        rw [selected]
        trivial
      have closed : Ordered { s with closed := true, cancelled := true } :=
        ⟨ordered.stopping, ordered.drained, fun _ => ⟨stopping, safe⟩, fun gone => ⟨rfl, (ordered.gone gone).2⟩⟩
      refine closed.setDrain (fun _ => stopping) fun finished => ordered.drained d ?_
      rw [selected]
      exact finished
    · cases stepped
  | take ranging =>
    dsimp only [poolAct, takeTask] at stepped
    split at stepped
    · cases stepped
    next t rest queued =>
      split_ifs at stepped
      cases stepped
      refine ⟨ordered.stopping, ordered.drained, ordered.shut, fun gone => ?_⟩
      rw [(ordered.gone gone).2] at queued
      cases queued
  | exit ranging =>
    dsimp only [poolAct] at stepped
    split_ifs at stepped with left
    cases stepped
    exact ⟨ordered.stopping, ordered.drained, ordered.shut, fun _ => ⟨left.1, left.2.1⟩⟩
  | release j =>
    dsimp only [poolAct] at stepped
    split_ifs at stepped with member
    cases stepped
    refine ⟨ordered.stopping, fun d drained => ?_, ordered.shut, ordered.gone⟩
    rw [(quiet d drained).2.2.2.2] at member
    cases member
  | range | finish =>
    dsimp only [poolAct] at stepped
    split_ifs at stepped
    cases stepped
    exact ⟨ordered.stopping, ordered.drained, ordered.shut, ordered.gone⟩

theorem setWaiting_staff (s : Pool) (ranging : Bool) (n : ℕ) :
    (s.setWaiting ranging n).selecting + (s.setWaiting ranging n).ranging + s.waitingIn ranging =
      s.selecting + s.ranging + n := by
  cases ranging with
  | false =>
    simp only [Pool.setWaiting, Pool.waitingIn, Bool.false_eq_true, if_false]
    omega
  | true =>
    simp only [Pool.setWaiting, Pool.waitingIn, if_true]
    omega

theorem poolAct_staffed (ordered : Ordered s) (staffed : Staffed workers s) (calm : s.panicked = false)
    (stepped : poolAct s event = some next) : Staffed workers next ∧ next.panicked = false := by
  unfold Staffed at staffed ⊢
  cases event with
  | send t =>
    dsimp only [poolAct] at stepped
    split_ifs at stepped with member
    cases stepped
    unfold sendTask
    split_ifs with closed
    · rw [(ordered.shut closed).2.2] at member
      cases member
    · exact ⟨staffed, calm⟩
    · exact ⟨staffed, calm⟩
  | range =>
    dsimp only [poolAct] at stepped
    split_ifs at stepped with stopped
    cases stepped
    refine ⟨?_, calm⟩
    dsimp only
    omega
  | take ranging =>
    dsimp only [poolAct, takeTask] at stepped
    split at stepped
    · cases stepped
    next t rest queued =>
      split_ifs at stepped with free
      cases stepped
      have staff := setWaiting_staff s ranging (s.waitingIn ranging - 1)
      refine ⟨?_, calm⟩
      rw [length_cons]
      change (s.setWaiting ranging _).selecting + (s.setWaiting ranging _).ranging +
        (s.running.length + 1) + s.leaving.length + s.exited = workers
      omega
  | exit ranging =>
    dsimp only [poolAct] at stepped
    split_ifs at stepped with left
    cases stepped
    have staff := setWaiting_staff s ranging (s.waitingIn ranging - 1)
    have free := left.2.2
    refine ⟨?_, calm⟩
    change (s.setWaiting ranging _).selecting + (s.setWaiting ranging _).ranging + s.running.length +
      s.leaving.length + (s.exited + 1) = workers
    omega
  | finish j =>
    dsimp only [poolAct] at stepped
    split_ifs at stepped with member
    cases stepped
    have shorter := length_erase_add member
    refine ⟨?_, calm⟩
    simp only [length_cons]
    omega
  | release j =>
    dsimp only [poolAct] at stepped
    split_ifs at stepped with member
    cases stepped
    have shorter := length_erase_add member
    have staff := setWaiting_staff s j.ranging (s.waitingIn j.ranging + 1)
    refine ⟨?_, calm⟩
    change (s.setWaiting j.ranging _).selecting + (s.setWaiting j.ranging _).ranging + s.running.length +
      (s.leaving.erase j).length + s.exited = workers
    omega
  | submit t =>
    dsimp only [poolAct] at stepped
    split_ifs at stepped
    all_goals
      cases stepped
      exact ⟨staffed, calm⟩
  | stopAccepting =>
    cases stepped
    exact ⟨staffed, calm⟩
  | closeQueue d | add | undo | drain | storeFlag | closeStop | waitDone | select =>
    dsimp only [poolAct] at stepped
    split at stepped
    · cases stepped
      exact ⟨staffed, calm⟩
    · cases stepped

theorem poolStep_sound (sound : PoolSound workers s) (safe : SafePoolEvent s event)
    (stepped : poolStep s event = some next) : PoolSound workers next := by
  unfold poolStep at stepped
  rw [sound.calm, if_neg Bool.false_ne_true] at stepped
  obtain ⟨staffed, calm⟩ := poolAct_staffed sound.ordered sound.staffed sound.calm stepped
  exact
    { accounted := poolAct_accounted sound.accounted (fun closed => (sound.ordered.shut closed).2.2) stepped
      ordered := poolAct_ordered sound.accounted sound.ordered safe stepped
      staffed, calm }

theorem newPool_sound (maxWorkers queueSize : ℕ) : PoolSound (max 1 maxWorkers) (newPool maxWorkers queueSize) where
  accounted := ⟨rfl, fun _ => rfl, nodup_nil, fun _ => rfl⟩
  ordered :=
    { stopping := fun _ idle => idle.elim
      drained := fun _ idle => idle.elim
      shut := fun opened => absurd opened Bool.false_ne_true
      gone := fun none => absurd none (Nat.lt_irrefl 0) }
  staffed := rfl
  calm := rfl

theorem PoolSound.once (sound : PoolSound workers s) (t : Task) : s.called.count t ≤ 1 :=
  nodup_iff_count_le_one.mp sound.accounted.distinct t

theorem PoolSound.finished_of_exited (sound : PoolSound workers s) (positive : 0 < workers) (exited : AllExited s) (member : t ∈ s.accepted) : s.finished.count t = 1 := by
  have staffed := sound.staffed
  rw [Staffed, exited.selecting, exited.ranging, exited.running, exited.leaving] at staffed
  have gone : 0 < s.exited := by
    simp only [length_nil] at staffed
    omega
  have calls := sound.accounted.calls t
  have tasks := sound.accounted.tasks t
  rw [(sound.ordered.gone gone).2, exited.running] at tasks
  simp only [count_nil, map_nil, Nat.zero_add] at tasks
  have once := sound.once t
  have accepted := count_pos_iff.mpr member
  omega

theorem PoolSound.rejected_unrun (sound : PoolSound workers s) (member : t ∈ s.rejected) :
    t ∉ s.finished ∧ t ∉ s.running.map Job.task := by
  have calls := sound.accounted.calls t
  have tasks := sound.accounted.tasks t
  have once := sound.once t
  have rejected := count_pos_iff.mpr member
  simp only [← count_eq_zero]
  omega

theorem PoolSound.finished_of_drained (sound : PoolSound workers s) {d : ℕ} (drained : (s.drains d).Drained)
    (member : t ∈ s.accepted) : t ∈ s.finished := by
  obtain ⟨-, -, queue, running, -⟩ := sound.accounted.quiet (sound.ordered.drained d drained).2
  have tasks := sound.accounted.tasks t
  rw [queue, running] at tasks
  simp only [count_nil, map_nil, Nat.zero_add] at tasks
  rw [← count_pos_iff, ← tasks]
  exact count_pos_iff.mpr member

end Steps

/-- What the pool promises: no send on a closed queue; once no worker is left, every accepted task has been run once;
a rejected task is never run; and with a call of `Drain` that returns since its wait has finished, every accepted task
has finished. -/
structure KeepsWork (s : Pool) : Prop where
  calm : s.panicked = false
  once : AllExited s → ∀ t ∈ s.accepted, s.finished.count t = 1
  never : ∀ t ∈ s.rejected, t ∉ s.finished ∧ t ∉ s.running.map Job.task
  drained : ∀ d, s.drains d = .returned true → ∀ t ∈ s.accepted, t ∈ s.finished

theorem safe_run_keeps_work (maxWorkers queueSize : ℕ) (events : List PoolEvent) (s : Pool)
    (safe : Meets poolStep SafePoolEvent (newPool maxWorkers queueSize) events)
    (reached : run poolStep (newPool maxWorkers queueSize) events = some s) : KeepsWork s := by
  have sound : PoolSound (max 1 maxWorkers) s :=
    run_invariant (fun _ _ _ => poolStep_sound) (newPool_sound maxWorkers queueSize) safe reached
  refine ⟨sound.calm, fun exited t member => ?_, fun t member => sound.rejected_unrun member,
    fun d returned t member => ?_⟩
  · exact sound.finished_of_exited (Nat.lt_of_lt_of_le Nat.one_pos (Nat.le_max_left 1 _)) exited member
  · apply sound.finished_of_drained (d := d)
    · rw [returned]
      rfl
    · exact member

def drainEvents : List PoolEvent := [.drain 0, .storeFlag 0, .closeStop 0, .waitDone 0, .select 0 true, .closeQueue 0]

/-- One task is run before the pool is drained, and the worker leaves. -/
def orderlyEvents : List PoolEvent :=
  [.submit 7, .add 7, .send 7, .take false, .finish ⟨7, false⟩, .release ⟨7, false⟩] ++ drainEvents ++ [.exit false]

/-- The call reads the flag before the pool is drained, and goes on afterwards. -/
def lateSend : List PoolEvent := .submit 7 :: drainEvents ++ [.add 7, .send 7]

/-- The call goes on between the end of the wait and the close of the queue. -/
def lateTask : List PoolEvent :=
  [.submit 7, .drain 0, .storeFlag 0, .closeStop 0, .waitDone 0, .add 7, .send 7, .select 0 true, .closeQueue 0]

theorem orderly_run_keeps_work :
    ∃ s, run poolStep (newPool 1 1) orderlyEvents = some s ∧ 7 ∈ s.accepted ∧ KeepsWork s := by
  have outcome : (run poolStep (newPool 1 1) orderlyEvents).map (fun s => decide (7 ∈ s.accepted)) = some true := by
    decide +kernel
  obtain ⟨s, reached, accepted⟩ := map_eq_some_iff.mp outcome
  exact ⟨s, reached, of_decide_eq_true accepted, safe_run_keeps_work 1 1 orderlyEvents s (by decide +kernel) reached⟩

/-- A send on the closed queue, and a task that a finished wait has not waited for. -/
theorem late_submit_escapes :
    (∃ s, run poolStep (newPool 1 1) lateSend = some s ∧ ¬KeepsWork s) ∧
    ∃ s, run poolStep (newPool 1 1) lateTask = some s ∧ s.drains 0 = .returned true ∧ 7 ∈ s.accepted ∧
      7 ∉ s.finished := by
  have sent : (run poolStep (newPool 1 1) lateSend).map Pool.panicked = some true := by decide +kernel
  have left : (run poolStep (newPool 1 1) lateTask).map
      (fun s => decide (s.drains 0 = .returned true ∧ 7 ∈ s.accepted ∧ 7 ∉ s.finished)) = some true := by decide +kernel
  obtain ⟨s, reached, panicked⟩ := map_eq_some_iff.mp sent
  obtain ⟨t, done, escaped⟩ := map_eq_some_iff.mp left
  refine ⟨⟨s, reached, fun kept => ?_⟩, t, done, of_decide_eq_true escaped⟩
  rw [kept.calm] at panicked
  cases panicked

end RemudaRmm.Endpoint
