import RemudaRmm.Foundation.Runs
import Mathlib.Data.List.Count
import Mathlib.Data.List.Perm.Basic

/-! The log shipper of the agent (`internal/logging/shipper.go`): its buffer, the loop that ships batches, and the
counter of dropped entries that heartbeats read and commit. -/
namespace RemudaRmm.Logging
open Foundation List Function

def defaultMaxBatchSize : ℕ := 500

def defaultBufferSize : ℕ := 500

def shipRetryCount : ℕ := 2

/-- Where the loop goes on when a batch has been shipped. -/
inductive Resume where
  | select | drain | finish
  deriving DecidableEq

/-- The point that the loop has come to, with the entries that it has in hand. -/
inductive Loop (ε : Type*) where
  | select (batch : List ε)
  | drain (batch : List ε)
  | checkAuth (batch : List ε) (resume : Resume)
  | checkStop (entry : ε) (rest : List ε) (resume : Resume)
  | rebuffer (entry : ε) (rest : List ε) (resume : Resume)
  | attempt (batch : List ε) (n : ℕ) (resume : Resume)
  | ended
  deriving DecidableEq

/-- The server's answer to an attempt, or why there is none. -/
inductive Answer where
  | requestError
  | networkError
  | status (code : ℕ)

inductive Outcome where
  | retry | giveUp | accepted

/-- What the loop meets: the case that the `select` takes, whether authentication is dead, an error of the encoding, or
an answer; `proceed` where it meets nothing. -/
inductive LoopInput where
  | stop
  | entry
  | tick
  | proceed
  | auth (skip : Bool)
  | encodeError
  | answer (a : Answer)

inductive Event (ε : Type*) where
  | enqueue (entry : ε)
  | stop
  | loop (input : LoopInput)
  | droppedLogCount (heartbeat : ℕ)
  | commitDroppedLogCount (heartbeat : ℕ)
  | heartbeatFails (heartbeat : ℕ)

/-- `enqueued`, `shipped` and `dropped` have the entries of all calls so far, `reported` the sum of the counts in the
heartbeats that have succeeded, and `readings` the count that a heartbeat under way has read. -/
structure Shipper (ε : Type*) where
  buffer : List ε
  stopped : Bool
  loop : Loop ε
  droppedCount : ℕ
  (enqueued shipped dropped : List ε)
  reported : ℕ
  readings : ℕ → Option ℕ

section Steps
variable {ε : Type*}

def Loop.batch : Loop ε → List ε
  | .select batch | .drain batch | .checkAuth batch _ | .attempt batch _ _ => batch
  | .checkStop entry rest _ | .rebuffer entry rest _ => entry :: rest
  | .ended => []

def Resume.loop : Resume → Loop ε
  | .select => .select []
  | .drain => .drain []
  | .finish => .ended

def Shipper.new : Shipper ε := ⟨[], false, .select [], 0, [], [], [], 0, fun _ => none⟩

def Shipper.drop (entries : List ε) (s : Shipper ε) : Shipper ε :=
  { s with dropped := s.dropped ++ entries, droppedCount := s.droppedCount + entries.length }

/-- A send that does not block: the entry is dropped where the buffer is full. -/
def Shipper.send (entry : ε) (s : Shipper ε) : Shipper ε :=
  if s.buffer.length < defaultBufferSize then { s with buffer := s.buffer ++ [entry] } else s.drop [entry]

def Shipper.goTo (loop : Loop ε) (s : Shipper ε) : Shipper ε := { s with loop }

def collected (entry : ε) (batch : List ε) (goOn : List ε → Loop ε) (resume : Resume) : Loop ε :=
  if defaultMaxBatchSize ≤ (batch ++ [entry]).length then .checkAuth (batch ++ [entry]) resume
  else goOn (batch ++ [entry])

def outcome (n : ℕ) : Answer → Outcome
  | .requestError => .giveUp
  | .networkError => if n < shipRetryCount then .retry else .giveUp
  | .status code =>
    if code = 429 ∨ code = 503 ∨ 500 ≤ code then if n < shipRetryCount then .retry else .giveUp
    else if 400 ≤ code then .giveUp
    else .accepted

def nextRebuffer (rest : List ε) (resume : Resume) : Loop ε :=
  match rest with
  | [] => resume.loop
  | entry :: rest => .checkStop entry rest resume

/-- One step of `shipLoop` and `shipBatch`; nothing where the loop is not at the input. -/
def Shipper.advance (s : Shipper ε) (input : LoopInput) : Shipper ε :=
  match s.loop, input with
  | .select batch, .stop => if s.stopped then s.goTo (.drain batch) else s
  | .select batch, .entry =>
    match s.buffer with
    | [] => s
    | entry :: rest => { s with buffer := rest, loop := collected entry batch .select .select }
  | .select (entry :: batch), .tick => s.goTo (.checkAuth (entry :: batch) .select)
  | .drain batch, .proceed =>
    match s.buffer, batch with
    | entry :: rest, batch => { s with buffer := rest, loop := collected entry batch .drain .drain }
    | [], [] => s.goTo .ended
    | [], entry :: batch => s.goTo (.checkAuth (entry :: batch) .finish)
  | .checkAuth batch resume, .auth skip =>
    if skip then s.goTo (nextRebuffer batch resume) else s.goTo (.attempt batch 0 resume)
  | .checkStop entry rest resume, .proceed =>
    if s.stopped then (s.drop (entry :: rest)).goTo resume.loop else s.goTo (.rebuffer entry rest resume)
  | .rebuffer entry rest resume, .proceed => (s.send entry).goTo (nextRebuffer rest resume)
  | .attempt batch 0 resume, .encodeError => (s.drop batch).goTo resume.loop
  | .attempt batch n resume, .answer a =>
    match outcome n a with
    | .retry => s.goTo (.attempt batch (n + 1) resume)
    | .giveUp => (s.drop batch).goTo resume.loop
    | .accepted => { s with shipped := s.shipped ++ batch, loop := resume.loop }
  | _, _ => s

def Shipper.step (s : Shipper ε) : Event ε → Shipper ε
  | .enqueue entry => ({ s with enqueued := s.enqueued ++ [entry] } : Shipper ε).send entry
  | .stop => { s with stopped := true }
  | .loop input => s.advance input
  | .droppedLogCount heartbeat =>
    { s with readings := update s.readings heartbeat (some s.droppedCount) }
  | .commitDroppedLogCount heartbeat =>
    match s.readings heartbeat with
    | some count =>
      { s with
        reported := s.reported + count
        droppedCount := 0
        readings := update s.readings heartbeat none }
    | none => s
  | .heartbeatFails heartbeat => { s with readings := update s.readings heartbeat none }

end Steps

section Entries
variable {ε : Type*}
variable {entry : ε} {resume : Resume}

/-- Every entry is in the buffer, in the hands of the loop, shipped or dropped, and only there. -/
def Shipper.InOnePlace (s : Shipper ε) : Prop := (s.buffer ++ s.loop.batch ++ s.shipped ++ s.dropped).Perm s.enqueued

/-- How many entries have been dropped is what heartbeats have reported and what is still counted. -/
def Shipper.Accounted (s : Shipper ε) : Prop := s.dropped.length = s.reported + s.droppedCount

def Shipper.CountStands (s : Shipper ε) (e : Event ε) : Prop :=
  ∀ heartbeat, e = .commitDroppedLogCount heartbeat → ∀ count ∈ s.readings heartbeat, s.droppedCount = count

/-- What moves entries from place to place: each drop is counted, and nothing else is touched. -/
structure Moves (s next : Shipper ε) : Prop where
  enqueued : next.enqueued = s.enqueued
  entries : (next.buffer ++ next.loop.batch ++ next.shipped ++ next.dropped).Perm
    (s.buffer ++ s.loop.batch ++ s.shipped ++ s.dropped)
  counted : next.dropped.length + s.droppedCount = s.dropped.length + next.droppedCount
  reported : next.reported = s.reported
  stopped : next.stopped = s.stopped

variable {s next : Shipper ε}

theorem Moves.refl (s : Shipper ε) : Moves s s := ⟨rfl, .refl _, rfl, rfl, rfl⟩

theorem Moves.goTo {loop : Loop ε} (same : loop.batch = s.loop.batch) : Moves s (s.goTo loop) where
  enqueued := rfl
  entries := by
    simp only [Shipper.goTo, same]
    exact .refl _
  counted := rfl
  reported := rfl
  stopped := rfl

@[simp] theorem batch_select (batch : List ε) : (Loop.select batch).batch = batch := rfl

@[simp] theorem batch_drain (batch : List ε) : (Loop.drain batch).batch = batch := rfl

@[simp] theorem batch_checkAuth (batch : List ε) (resume : Resume) : (Loop.checkAuth batch resume).batch = batch := rfl

@[simp] theorem batch_checkStop (entry : ε) (rest : List ε) (resume : Resume) :
    (Loop.checkStop entry rest resume).batch = entry :: rest := rfl

@[simp] theorem batch_rebuffer (entry : ε) (rest : List ε) (resume : Resume) :
    (Loop.rebuffer entry rest resume).batch = entry :: rest := rfl

@[simp] theorem batch_attempt (batch : List ε) (n : ℕ) (resume : Resume) :
    (Loop.attempt batch n resume).batch = batch := rfl

@[simp] theorem batch_ended : (Loop.ended : Loop ε).batch = [] := rfl

@[simp] theorem batch_resume (resume : Resume) : (resume.loop : Loop ε).batch = [] := by
  cases resume <;> rfl

@[simp] theorem batch_nextRebuffer (rest : List ε) (resume : Resume) : (nextRebuffer rest resume).batch = rest := by
  unfold nextRebuffer
  split
  · exact batch_resume resume
  · rfl

theorem batch_collected {batch : List ε} {goOn : List ε → Loop ε} (keeps : ∀ entries, (goOn entries).batch = entries) :
    (collected entry batch goOn resume).batch = batch ++ [entry] := by
  unfold collected
  split_ifs
  · rfl
  · exact keeps _

theorem Moves.take {rest : List ε} {loop : Loop ε} (first : s.buffer = entry :: rest)
    (taken : loop.batch = s.loop.batch ++ [entry]) : Moves s { s with buffer := rest, loop } where
  enqueued := rfl
  entries := by
    classical
    refine perm_iff_count.mpr fun a => ?_
    simp only [first, taken, count_append, count_cons, count_nil]
    omega
  counted := rfl
  reported := rfl
  stopped := rfl

theorem Moves.drop {entries : List ε} (held : s.loop.batch = entries) :
    Moves s ((s.drop entries).goTo resume.loop) where
  enqueued := rfl
  entries := by
    classical
    refine perm_iff_count.mpr fun a => ?_
    simp only [Shipper.drop, Shipper.goTo, held, batch_resume, count_append, count_nil]
    omega
  counted := by
    simp only [Shipper.drop, Shipper.goTo, length_append]
    omega
  reported := rfl
  stopped := rfl

theorem Moves.send {rest : List ε} (held : s.loop.batch = entry :: rest) :
    Moves s ((s.send entry).goTo (nextRebuffer rest resume)) := by
  unfold Shipper.send
  split_ifs with room
  · refine ⟨rfl, ?_, rfl, rfl, rfl⟩
    classical
    refine perm_iff_count.mpr fun a => ?_
    simp only [Shipper.goTo, held, batch_nextRebuffer, count_append, count_cons, count_nil]
    omega
  · refine ⟨rfl, ?_, ?_, rfl, rfl⟩
    · classical
      refine perm_iff_count.mpr fun a => ?_
      simp only [Shipper.goTo, Shipper.drop, held, batch_nextRebuffer, count_append, count_cons, count_nil]
      omega
    · simp only [Shipper.goTo, Shipper.drop, length_append]
      omega

theorem Moves.ship {batch : List ε} (held : s.loop.batch = batch) :
    Moves s { s with shipped := s.shipped ++ batch, loop := resume.loop } where
  enqueued := rfl
  entries := by
    classical
    refine perm_iff_count.mpr fun a => ?_
    simp only [held, batch_resume, count_append, count_nil]
    omega
  counted := rfl
  reported := rfl
  stopped := rfl

theorem moves_advance (s : Shipper ε) (input : LoopInput) : Moves s (s.advance input) := by
  unfold Shipper.advance
  split
  · next batch point =>
    split_ifs
    · exact .goTo (by rw [point]; rfl)
    · exact .refl s
  · next batch point =>
    split
    · exact .refl s
    · next entry rest first =>
      refine .take first ?_
      rw [point]
      exact batch_collected fun _ => rfl
  · next entry batch point => exact .goTo (by rw [point]; rfl)
  · next batch point =>
    split
    · next entry rest batch first =>
      refine .take first ?_
      rw [point]
      exact batch_collected fun _ => rfl
    · exact .goTo (by rw [point]; rfl)
    · exact .goTo (by rw [point]; rfl)
  · next batch resume skip point =>
    split_ifs
    · exact .goTo (by rw [point, batch_nextRebuffer]; rfl)
    · exact .goTo (by rw [point]; rfl)
  · next entry rest resume point =>
    split_ifs
    · exact .drop (by rw [point]; rfl)
    · exact .goTo (by rw [point]; rfl)
  · next entry rest resume point => exact .send (by rw [point]; rfl)
  · next batch resume point => exact .drop (by rw [point]; rfl)
  · next batch n resume a point =>
    split
    · exact .goTo (by rw [point]; rfl)
    · exact .drop (by rw [point]; rfl)
    · exact .ship (by rw [point]; rfl)
  · exact .refl s

theorem Shipper.InOnePlace.moves (inOnePlace : s.InOnePlace) (moves : Moves s next) : next.InOnePlace := by
  unfold Shipper.InOnePlace at *
  rw [moves.enqueued]
  exact moves.entries.trans inOnePlace

theorem Shipper.InOnePlace.enqueue (inOnePlace : s.InOnePlace) (entry : ε) : (s.step (.enqueue entry)).InOnePlace := by
  classical
  refine perm_iff_count.mpr fun a => ?_
  have before := perm_iff_count.mp inOnePlace a
  simp only [count_append] at before
  by_cases room : s.buffer.length < defaultBufferSize
  · simp only [Shipper.step, Shipper.send, room, if_true, count_append]
    omega
  · simp only [Shipper.step, Shipper.send, room, if_false, Shipper.drop, count_append]
    omega

theorem Shipper.InOnePlace.step (inOnePlace : s.InOnePlace) (e : Event ε) : (s.step e).InOnePlace := by
  cases e with
  | enqueue entry => exact inOnePlace.enqueue entry
  | loop input => exact inOnePlace.moves (moves_advance s input)
  | stop | droppedLogCount | heartbeatFails => exact inOnePlace
  | commitDroppedLogCount heartbeat =>
    cases reading : s.readings heartbeat with
    | none | some count =>
      simp only [Shipper.step, reading]
      exact inOnePlace

theorem accounted_step {e : Event ε} (other : ∀ heartbeat, e ≠ .commitDroppedLogCount heartbeat) :
    (s.step e).Accounted ↔ s.Accounted := by
  unfold Shipper.Accounted
  cases e with
  | enqueue entry =>
    by_cases room : s.buffer.length < defaultBufferSize
    · simp only [Shipper.step, Shipper.send, room, if_true]
    · simp only [Shipper.step, Shipper.send, room, if_false, Shipper.drop, length_append, length_singleton]
      omega
  | loop input =>
    have moves := moves_advance s input
    have counted := moves.counted
    simp only [Shipper.step, moves.reported]
    omega
  | stop | droppedLogCount | heartbeatFails => rfl
  | commitDroppedLogCount heartbeat => exact absurd rfl (other heartbeat)

theorem Shipper.Accounted.step_iff (accounted : s.Accounted) (e : Event ε) :
    (s.step e).Accounted ↔ s.CountStands e := by
  by_cases commits : ∃ heartbeat, e = .commitDroppedLogCount heartbeat
  · obtain ⟨heartbeat, rfl⟩ := commits
    unfold Shipper.Accounted Shipper.CountStands Shipper.step at *
    cases reading : s.readings heartbeat with
    | none => simp [reading, accounted]
    | some count =>
      simp only [reading, Event.commitDroppedLogCount.injEq, forall_eq', Option.mem_def, Option.some.injEq]
      omega
  · have other (heartbeat : ℕ) : e ≠ .commitDroppedLogCount heartbeat := fun same => commits ⟨heartbeat, same⟩
    rw [accounted_step other]
    exact iff_of_true accounted fun heartbeat same => absurd same (other heartbeat)

end Entries

section Ending
variable {ε : Type*} {s : Shipper ε}
variable {goOn : List ε → Loop ε} {resume : Resume}

def Shipper.Works (s : Shipper ε) (e : Event ε) : Prop := (s.step e).loop ≠ s.loop

def Loop.Filled : Loop ε → Prop
  | .checkAuth batch _ | .attempt batch _ _ => batch ≠ []
  | .select _ | .drain _ | .checkStop _ _ _ | .rebuffer _ _ _ | .ended => True

/-- The most steps that the loop may still take with the entries that it has in hand now. -/
def Loop.rank : Loop ε → ℕ
  | .ended => 0
  | .attempt _ n _ => 5 - n
  | .checkStop _ _ _ => 6
  | .checkAuth _ _ => 7
  | .drain _ => 8
  | .select _ => 10
  | .rebuffer _ _ _ => 13

/-- A bound on the steps that the loop takes once it is stopped. -/
def Shipper.effort (s : Shipper ε) : ℕ := 20 * (s.buffer.length + s.loop.batch.length) + s.buffer.length + s.loop.rank

def Event.Enqueues : Event ε → Prop
  | .enqueue _ => True
  | _ => False

@[simp] theorem filled_resume (resume : Resume) : (resume.loop : Loop ε).Filled := by
  cases resume <;> trivial

@[simp] theorem filled_nextRebuffer (rest : List ε) (resume : Resume) : (nextRebuffer rest resume).Filled := by
  unfold nextRebuffer
  split
  · exact filled_resume resume
  · trivial

theorem filled_collected {entry : ε} {batch : List ε} (keeps : ∀ entries, (goOn entries).Filled) :
    (collected entry batch goOn resume).Filled := by
  unfold collected
  split_ifs
  · simp [Loop.Filled]
  · exact keeps _

theorem filled_advance (filled : s.loop.Filled) (input : LoopInput) : (s.advance input).loop.Filled := by
  unfold Shipper.advance
  split
  · split_ifs
    · trivial
    · exact filled
  · split
    · exact filled
    · exact filled_collected fun _ => trivial
  · simp [Shipper.goTo, Loop.Filled]
  · split
    · exact filled_collected fun _ => trivial
    · trivial
    · simp [Shipper.goTo, Loop.Filled]
  · next batch resume skip point =>
    rw [point] at filled
    split_ifs
    · exact filled_nextRebuffer batch resume
    · exact filled
  · split_ifs
    · exact filled_resume _
    · trivial
  · exact filled_nextRebuffer _ _
  · exact filled_resume _
  · next batch n resume a point =>
    rw [point] at filled
    split
    · exact filled
    · exact filled_resume resume
    · exact filled_resume resume
  · exact filled

theorem effort_lt {next : Shipper ε} {waiting held rank : ℕ}
    (before : s.effort = 20 * (waiting + held) + waiting + rank)
    {waiting' held' : ℕ} (buffer : next.buffer.length = waiting') (batch : next.loop.batch.length = held')
    (less : 20 * (waiting' + held') + waiting' + next.loop.rank < 20 * (waiting + held) + waiting + rank) :
    next.effort < s.effort := by
  rw [before, Shipper.effort, buffer, batch]
  exact less

theorem effort_at {loop : Loop ε} (point : s.loop = loop) :
    s.effort = 20 * (s.buffer.length + loop.batch.length) + s.buffer.length + loop.rank := by
  rw [← point]
  rfl

theorem rank_resume (resume : Resume) : (resume.loop : Loop ε).rank ≤ 10 := by
  cases resume <;> simp [Resume.loop, Loop.rank]

theorem rank_nextRebuffer (rest : List ε) (resume : Resume) : (nextRebuffer rest resume).rank ≤ 10 := by
  unfold nextRebuffer
  split
  · exact rank_resume resume
  · simp [Loop.rank]

theorem rank_collected (entry : ε) (batch : List ε) (resume : Resume) {r : ℕ}
    (ranked : ∀ entries, (goOn entries).rank = r) (least : 7 ≤ r) : (collected entry batch goOn resume).rank ≤ r := by
  unfold collected
  split_ifs
  · exact least
  · exact Nat.le_of_eq (ranked _)

theorem effort_take {entry : ε} {rest batch : List ε} {r : ℕ}
    (keeps : ∀ entries, (goOn entries).batch = entries) (ranked : ∀ entries, (goOn entries).rank = r) (least : 7 ≤ r)
    (point : s.loop = goOn batch) (first : s.buffer = entry :: rest) :
    ({ s with buffer := rest, loop := collected entry batch goOn resume } : Shipper ε).effort < s.effort := by
  refine effort_lt (effort_at point) rfl (by rw [batch_collected keeps, length_append]) ?_
  have next := rank_collected entry batch resume ranked least
  simp only [first, keeps, ranked, length_cons, length_nil]
  omega

theorem effort_done {next : Shipper ε} (held : s.loop.batch ≠ []) (buffer : next.buffer = s.buffer)
    (loop : next.loop = resume.loop) : next.effort < s.effort := by
  have ranked := rank_resume (ε := ε) resume
  have some_entry := length_pos_of_ne_nil held
  refine effort_lt (effort_at rfl) (by rw [buffer]) (by rw [loop, batch_resume]) ?_
  rw [loop, length_nil]
  omega

theorem early_of_retry {n : ℕ} {a : Answer} (again : outcome n a = .retry) : n < 2 := by
  unfold outcome shipRetryCount at again
  cases a with
  | requestError => cases again
  | networkError | status code =>
    dsimp only at again
    split_ifs at again
    assumption

theorem effort_advance (filled : s.loop.Filled) (stopped : s.stopped = true) (input : LoopInput) :
    s.advance input = s ∨ (s.advance input).effort < s.effort := by
  unfold Shipper.advance
  split
  · next batch point =>
    rw [if_pos stopped]
    exact .inr (effort_lt (effort_at point) rfl rfl (by simp [Shipper.goTo, Loop.rank]))
  · next batch point =>
    split
    · exact .inl rfl
    · next entry rest first =>
      exact .inr (effort_take (fun _ => rfl) (fun _ => rfl) (by decide) point first)
  · next entry batch point => exact .inr (effort_lt (effort_at point) rfl rfl (by simp [Shipper.goTo, Loop.rank]))
  · next batch point =>
    split
    · next entry rest batch first =>
      exact .inr (effort_take (fun _ => rfl) (fun _ => rfl) (by decide) point first)
    · exact .inr (effort_lt (effort_at point) rfl rfl (by simp [Shipper.goTo, Loop.rank]))
    · exact .inr (effort_lt (effort_at point) rfl rfl (by simp [Shipper.goTo, Loop.rank]))
  · next batch resume skip point =>
    rw [point] at filled
    split_ifs
    · cases batch with
      | nil => exact absurd rfl filled
      | cons entry rest =>
        exact .inr (effort_lt (effort_at point) rfl rfl (by simp [Shipper.goTo, nextRebuffer, Loop.rank]))
    · exact .inr (effort_lt (effort_at point) rfl rfl (by simp [Shipper.goTo, Loop.rank]))
  · next entry rest resume point =>
    rw [if_pos stopped]
    exact .inr (effort_done (by simp [point]) rfl rfl)
  · next entry rest resume point =>
    have ranked := rank_nextRebuffer rest resume
    have own : (Loop.rebuffer entry rest resume).rank = 13 := rfl
    right
    unfold Shipper.send
    split_ifs
    · refine effort_lt (effort_at point) length_append (congrArg List.length (batch_nextRebuffer rest resume)) ?_
      simp only [Shipper.goTo, batch_rebuffer, length_cons, length_nil, own]
      omega
    · refine effort_lt (effort_at point) rfl (congrArg List.length (batch_nextRebuffer rest resume)) ?_
      simp only [Shipper.goTo, Shipper.drop, batch_rebuffer, length_cons, own]
      omega
  · next batch resume point =>
    rw [point] at filled
    exact .inr (effort_done (by rw [point]; exact filled) rfl rfl)
  · next batch n resume a point =>
    rw [point] at filled
    split
    · next again =>
      have early := early_of_retry again
      refine .inr (effort_lt (effort_at point) rfl rfl ?_)
      simp only [Shipper.goTo, batch_attempt, Loop.rank]
      omega
    · exact .inr (effort_done (by rw [point]; exact filled) rfl rfl)
    · exact .inr (effort_done (by rw [point]; exact filled) rfl rfl)
  · exact .inl rfl

theorem works_until_ended (going : s.loop ≠ .ended) (stopped : s.stopped = true) : ∃ input, s.Works (.loop input) := by
  unfold Shipper.Works Shipper.step Shipper.advance
  cases point : s.loop with
  | select batch => exact ⟨.stop, by simp [stopped, Shipper.goTo]⟩
  | drain batch =>
    refine ⟨.proceed, ?_⟩
    cases s.buffer with
    | nil => cases batch <;> simp [Shipper.goTo]
    | cons entry rest =>
      dsimp only
      unfold collected
      split_ifs <;> simp
  | checkAuth batch resume => exact ⟨.auth false, by simp [Shipper.goTo]⟩
  | checkStop entry rest resume => exact ⟨.proceed, by cases resume <;> simp [stopped, Shipper.goTo, Resume.loop]⟩
  | rebuffer entry rest resume =>
    refine ⟨.proceed, ?_⟩
    cases rest <;> cases resume <;> simp [Shipper.goTo, nextRebuffer, Resume.loop]
  | attempt batch n resume =>
    refine ⟨.answer .requestError, ?_⟩
    cases n <;> cases resume <;> simp [outcome, Shipper.goTo, Resume.loop]
  | ended => exact absurd point going

variable [DecidableEq ε]

instance (s : Shipper ε) (e : Event ε) : Decidable (s.Works e) := inferInstanceAs (Decidable (_ ≠ _))

def worked (s : Shipper ε) : List (Event ε) → ℕ
  | [] => 0
  | e :: es => worked (s.step e) es + if s.Works e then 1 else 0

/-- Once it is stopped the loop takes a bounded number of steps without new entries, and can go on until it has ended
with nothing in hand. -/
structure Shipper.Ends (s : Shipper ε) : Prop where
  bounded : ∀ later : List (Event ε), (∀ e ∈ later, ¬e.Enqueues) → worked s later ≤ s.effort
  goesOn : s.loop ≠ .ended → ∃ input, s.Works (.loop input)
  empty : s.loop = .ended → s.loop.batch = []

omit [DecidableEq ε] in
theorem filled_step (filled : s.loop.Filled) (e : Event ε) : (s.step e).loop.Filled := by
  cases e with
  | enqueue entry =>
    unfold Shipper.step Shipper.send
    by_cases room : s.buffer.length < defaultBufferSize <;> simpa [room, Shipper.drop] using filled
  | loop input => exact filled_advance filled input
  | stop | droppedLogCount | heartbeatFails => exact filled
  | commitDroppedLogCount heartbeat =>
    cases reading : s.readings heartbeat <;> simpa [Shipper.step, reading] using filled

omit [DecidableEq ε] in
theorem stopped_step (stopped : s.stopped = true) {e : Event ε} (old : ¬e.Enqueues) : (s.step e).stopped = true := by
  cases e with
  | enqueue entry => exact absurd trivial old
  | loop input => exact (moves_advance s input).stopped.trans stopped
  | stop => rfl
  | droppedLogCount | heartbeatFails => exact stopped
  | commitDroppedLogCount heartbeat =>
    cases reading : s.readings heartbeat <;> simpa [Shipper.step, reading] using stopped

theorem effort_step (filled : s.loop.Filled) (stopped : s.stopped = true) {e : Event ε} (old : ¬e.Enqueues) :
    (s.step e).effort + (if s.Works e then 1 else 0) ≤ s.effort := by
  cases e with
  | enqueue entry => exact absurd trivial old
  | loop input =>
    rcases effort_advance filled stopped input with same | less
    · simp [Shipper.Works, Shipper.step, same]
    · simp only [Shipper.step]
      split_ifs <;> omega
  | stop | droppedLogCount | heartbeatFails => simp [Shipper.Works, Shipper.step, Shipper.effort]
  | commitDroppedLogCount heartbeat =>
    cases reading : s.readings heartbeat <;> simp [Shipper.Works, Shipper.step, Shipper.effort, reading]

theorem worked_le_effort (filled : s.loop.Filled) (stopped : s.stopped = true) (later : List (Event ε))
    (old : ∀ e ∈ later, ¬e.Enqueues) : worked s later ≤ s.effort := by
  induction later generalizing s with
  | nil => exact Nat.zero_le _
  | cons e later ih =>
    have first := old e mem_cons_self
    have rest := ih (filled_step filled e) (stopped_step stopped first) fun x member =>
      old x (mem_cons_of_mem e member)
    have cost := effort_step filled stopped first
    rw [worked]
    omega

theorem ends_of_stopped (filled : s.loop.Filled) (stopped : s.stopped = true) : s.Ends where
  bounded := worked_le_effort filled stopped
  goesOn going := works_until_ended going stopped
  empty ended := by rw [ended, batch_ended]

end Ending

section Runs
variable {ε : Type*} [DecidableEq ε]

/-- The shipper accounts for every entry, and comes to its end when it is stopped. -/
structure Shipper.AccountsForAll (s : Shipper ε) : Prop where
  inOnePlace : s.InOnePlace
  accounted : s.Accounted
  ends : s.stopped = true → s.Ends

structure Shipper.Sound (s : Shipper ε) : Prop where
  inOnePlace : s.InOnePlace
  accounted : s.Accounted
  filled : s.loop.Filled

/-- The shipper accounts for every entry throughout exactly the runs in which each heartbeat that commits the counter
has read it as it then is. -/
theorem shipper_accounts_iff (es : List (Event ε)) :
    Throughout Shipper.step Shipper.AccountsForAll (Shipper.new : Shipper ε) es ↔
      StepsMeet Shipper.step Shipper.CountStands (Shipper.new : Shipper ε) es := by
  have holds (s : Shipper ε) (sound : s.Sound) : s.AccountsForAll :=
    ⟨sound.inOnePlace, sound.accounted, ends_of_stopped sound.filled⟩
  refine throughout_iff holds (fun s e _ sound stands => ?_) (fun s e _ sound moved accounts => ?_)
    ⟨.refl _, rfl, trivial⟩
  · exact ⟨sound.inOnePlace.step e, (sound.accounted.step_iff e).mpr stands, filled_step sound.filled e⟩
  · exact moved ((sound.accounted.step_iff e).mp accounts.accounted)

/-- However the counter is committed, no entry is lost or doubled, and the loop can be stopped. -/
theorem shipper_keeps_entries (es : List (Event ε)) :
    Throughout Shipper.step (fun s => s.InOnePlace ∧ (s.stopped = true → s.Ends)) (Shipper.new : Shipper ε) es :=
  throughout_of_kept (fun s (kept : s.InOnePlace ∧ s.loop.Filled) => ⟨kept.1, ends_of_stopped kept.2⟩)
    (fun _ e kept => ⟨kept.1.step e, filled_step kept.2 e⟩) ⟨.refl _, trivial⟩ es

end Runs

/-- While a heartbeat is under way that has read 0, the server refuses a batch of one entry. -/
def refusedMeanwhile : List (Event ℕ) :=
  [.enqueue 0, .loop .entry, .loop .tick, .loop (.auth false), .droppedLogCount 0, .loop (.answer (.status 400)),
    .commitDroppedLogCount 0]

/-- One entry is dropped, none is reported, and none is counted any more. -/
theorem dropped_entry_forgotten :
    ¬Throughout Shipper.step Shipper.AccountsForAll (Shipper.new : Shipper ℕ) refusedMeanwhile := by
  intro accounts
  have accounted := accounts.last.accounted
  unfold Shipper.Accounted at accounted
  revert accounted
  decide

end RemudaRmm.Logging
