import RemudaRmm.Agents.AgentChannel
import RemudaRmm.Foundation.Paging

/-! Which devices a run of `evaluate-all` queues for evaluation (`jobs/alertWorker.ts`). A run remembers nothing of the
one before it. -/
namespace RemudaRmm.Alerts
open Foundation List
open Agents (DeviceStatus)

inductive OrgStatus where
  | active | suspended | trial | churned
  deriving DecidableEq

variable {κ : Type*} [LinearOrder κ]

/-- The columns of a device that the query reads. -/
structure FleetDevice (κ : Type*) where
  id : κ
  orgId : ℕ
  status : DeviceStatus
  lastSeenAt : Option ℤ
  deriving DecidableEq

structure Fleet (κ : Type*) where
  organizations : List (ℕ × OrgStatus)
  devices : List (FleetDevice κ)
  once : (devices.map (·.id)).Nodup

structure EvaluateDeviceJob (κ : Type*) where
  deviceId : κ
  orgId : ℕ
  deriving DecidableEq

/-- `ALERT_WORKER_MAX_DEVICES_PER_RUN`, with 0 for no cap, and `ALERT_WORKER_CHUNK_SIZE`. -/
structure WorkerSettings where
  (maxDevicesPerRun alertWorkerChunkSize : ℕ)

def WorkerSettings.chunkSize (settings : WorkerSettings) : ℕ := max 1 settings.alertWorkerChunkSize

/-- A caller's `batchSize` comes before the setting. -/
def WorkerSettings.cap (settings : WorkerSettings) (batchSize : Option ℕ) : ℕ :=
  batchSize.getD settings.maxDevicesPerRun

def Fleet.activeOrgIds (fleet : Fleet κ) : List ℕ :=
  (fleet.organizations.filter fun org => decide (org.2 = .active)).map (·.1)

/-- Online devices of active organisations that were seen in the last five minutes. -/
def eligible (now : ℤ) (fleet : Fleet κ) : List (FleetDevice κ) :=
  fleet.devices.filter fun d => fleet.activeOrgIds.contains d.orgId && decide (d.status = .online) &&
    d.lastSeenAt.any fun seen => decide (now - 5 * 60 * 1000 ≤ seen)

def jobFor (d : FleetDevice κ) : EvaluateDeviceJob κ := ⟨d.id, d.orgId⟩

def remainingOf (cap chunkSize totalQueued : ℕ) : ℕ := if 0 < cap then cap - totalQueued else chunkSize

def limitOf (chunkSize remaining : ℕ) : ℕ := min chunkSize (if remaining = 0 then chunkSize else remaining)

/-- The loop over the pages, for at most so many of them; `none` when that is not enough. -/
def evaluateLoop (cap chunkSize : ℕ) (rows : List (FleetDevice κ)) :
    ℕ → ℕ → Option κ → Option (List (EvaluateDeviceJob κ))
  | 0, _, _ => none
  | fuel + 1, totalQueued, cursor =>
    if 0 < cap ∧ remainingOf cap chunkSize totalQueued = 0 then some []
    else
      have limit := limitOf chunkSize (remainingOf cap chunkSize totalQueued)
      have chunk := selectPage (·.id) cursor limit rows
      match chunk.getLast? with
      | none => some []
      | some last =>
        if chunk.length < limit then some (chunk.map jobFor)
        else (evaluateLoop cap chunkSize rows fuel (totalQueued + chunk.length) (some last.id)).map
          (chunk.map jobFor ++ ·)

def processEvaluateAll (settings : WorkerSettings) (batchSize : Option ℕ) (now : ℤ) (fleet : Fleet κ) :
    Option (List (EvaluateDeviceJob κ)) :=
  if fleet.activeOrgIds = [] then some []
  else evaluateLoop (settings.cap batchSize) settings.chunkSize (eligible now fleet)
    ((eligible now fleet).length + 1) 0 none

section OneRun
variable {cap chunkSize : ℕ} {rows : List (FleetDevice κ)}

def quota (cap n : ℕ) : ℕ := if cap = 0 then n else min cap n

theorem limitOf_bounds (positive : 0 < chunkSize) {k : ℕ} (room : ¬(0 < cap ∧ remainingOf cap chunkSize k = 0)) :
    0 < limitOf chunkSize (remainingOf cap chunkSize k) ∧
      (cap ≠ 0 → k + limitOf chunkSize (remainingOf cap chunkSize k) ≤ cap) := by
  unfold limitOf remainingOf at *
  split_ifs at * <;> omega

theorem quota_le (cap n : ℕ) : quota cap n ≤ n := by
  unfold quota
  split_ifs <;> omega

theorem evaluateLoop_eq (once : (rows.map (·.id)).Nodup) (positive : 0 < chunkSize) (fuel k : ℕ)
    (enough : rows.length < fuel + k) (within : k ≤ quota cap rows.length) :
    evaluateLoop cap chunkSize rows fuel k (((byKey (·.id) rows).take k).getLast?.map (·.id)) =
      some ((((byKey (·.id) rows).take (quota cap rows.length)).drop k).map jobFor) := by
  induction fuel generalizing k with
  | zero =>
    have := quota_le cap rows.length
    omega
  | succ fuel ih =>
    rw [evaluateLoop]
    by_cases full : 0 < cap ∧ remainingOf cap chunkSize k = 0
    · have done : quota cap rows.length ≤ k := by
        unfold quota
        unfold remainingOf at full
        split_ifs at * <;> omega
      rw [if_pos full, drop_eq_nil_iff.mpr (by simp; omega), map_nil]
    · rw [if_neg full]
      obtain ⟨some_room, capped⟩ := limitOf_bounds positive full
      dsimp only
      rw [selectPage_eq once]
      have total : (byKey (·.id) rows).length = rows.length := length_byKey
      generalize limitOf chunkSize (remainingOf cap chunkSize k) = limit at *
      generalize byKey (·.id) rows = sorted at *
      have size : ((sorted.drop k).take limit).length = min limit (rows.length - k) := by simp [total]
      rw [drop_take]
      cases ends : ((sorted.drop k).take limit).getLast? with
      | none =>
        rw [getLast?_eq_none_iff] at ends
        rw [ends, length_nil] at size
        simp [drop_eq_nil_iff.mpr (show sorted.length ≤ k by omega)]
      | some last =>
        dsimp only
        by_cases short : ((sorted.drop k).take limit).length < limit
        · have rest : quota cap rows.length = rows.length := by
            unfold quota
            split_ifs with unlimited
            · rfl
            · have := capped unlimited
              omega
          rw [if_pos short, rest, take_of_length_le (by simp [total]; omega), take_of_length_le (by simp [total])]
        · have reaches : k + limit ≤ quota cap rows.length := by
            unfold quota
            split_ifs with unlimited
            · omega
            · have := capped unlimited
              omega
          have cursor : (sorted.take (k + limit)).getLast? = some last := by
            rw [take_add, getLast?_append, ends]
            rfl
          have onward := ih (k + limit) (by omega) reaches
          rw [cursor, Option.map_some, drop_take] at onward
          have full : ((sorted.drop k).take limit).length = limit := by omega
          rw [if_neg short, full, onward, Option.map_some, ← map_append]
          have parts : quota cap rows.length - k = limit + (quota cap rows.length - (k + limit)) := by omega
          rw [parts, take_add, drop_drop]

end OneRun

omit [LinearOrder κ] in
theorem eligible_once (now : ℤ) (fleet : Fleet κ) : ((eligible now fleet).map (·.id)).Nodup :=
  fleet.once.sublist (filter_sublist.map _)

theorem processEvaluateAll_eq (settings : WorkerSettings) (batchSize : Option ℕ) (now : ℤ) (fleet : Fleet κ) :
    processEvaluateAll settings batchSize now fleet =
      some (((byKey (·.id) (eligible now fleet)).take
        (quota (settings.cap batchSize) (eligible now fleet).length)).map jobFor) := by
  unfold processEvaluateAll
  split_ifs with inactive
  · have nobody : eligible now fleet = [] := by
      apply filter_eq_nil_iff.mpr
      simp [inactive]
    simp [nobody, byKey]
  · have positive : 0 < settings.chunkSize := lt_of_lt_of_le one_pos (le_max_left 1 _)
    exact evaluateLoop_eq (eligible_once now fleet) positive _ 0 (by omega) (Nat.zero_le _)

def Queues (settings : WorkerSettings) (batchSize : Option ℕ) (run : ℤ × Fleet κ) (id : κ) : Prop :=
  ∃ jobs, processEvaluateAll settings batchSize run.1 run.2 = some jobs ∧ id ∈ jobs.map (·.deviceId)

def SameEligible (run other : ℤ × Fleet κ) : Prop :=
  ∀ id, id ∈ (eligible run.1 run.2).map (·.id) ↔ id ∈ (eligible other.1 other.2).map (·.id)

/-- Every device is evaluated in turn: a run queues as many devices as it may, none twice, and the runs that have room
for all of them reach each. -/
structure InTurn (settings : WorkerSettings) (batchSize : Option ℕ) (now : ℤ) (fleet : Fleet κ) : Prop where
  oneRun : ∃ jobs, processEvaluateAll settings batchSize now fleet = some jobs ∧ (jobs.map (·.deviceId)).Nodup ∧
    (∀ job ∈ jobs, ∃ d ∈ eligible now fleet, job = jobFor d) ∧
    (0 < settings.cap batchSize → jobs.length = min (settings.cap batchSize) (eligible now fleet).length)
  reached : 0 < settings.cap batchSize → ∀ runs : List (ℤ × Fleet κ), (∀ run ∈ runs, SameEligible run (now, fleet)) →
    runs.length = ((eligible now fleet).length + settings.cap batchSize - 1) / settings.cap batchSize →
    ∀ d ∈ eligible now fleet, ∃ run ∈ runs, Queues settings batchSize run d.id
  uncapped : settings.cap batchSize = 0 → ∀ d ∈ eligible now fleet, Queues settings batchSize (now, fleet) d.id

section Turns
variable {settings : WorkerSettings} {batchSize : Option ℕ} {now : ℤ} {fleet : Fleet κ}

theorem queues_iff {run : ℤ × Fleet κ} (same : SameEligible run (now, fleet)) {id : κ} :
    Queues settings batchSize run id ↔ id ∈ ((byKey (·.id) (eligible now fleet)).map (·.id)).take
      (quota (settings.cap batchSize) (eligible now fleet).length) := by
  have order : (byKey (·.id) (eligible run.1 run.2)).map (·.id) = (byKey (·.id) (eligible now fleet)).map (·.id) :=
    map_byKey_congr (eligible_once _ _) (eligible_once _ _) same
  have count : (eligible run.1 run.2).length = (eligible now fleet).length := by
    simpa using congrArg List.length order
  unfold Queues
  rw [processEvaluateAll_eq, count]
  simp only [Option.some.injEq, exists_eq_left', List.map_map]
  rw [← order, ← map_take]
  rfl

theorem oneRun (settings : WorkerSettings) (batchSize : Option ℕ) (now : ℤ) (fleet : Fleet κ) :
    ∃ jobs, processEvaluateAll settings batchSize now fleet = some jobs ∧ (jobs.map (·.deviceId)).Nodup ∧
      (∀ job ∈ jobs, ∃ d ∈ eligible now fleet, job = jobFor d) ∧
      (0 < settings.cap batchSize → jobs.length = min (settings.cap batchSize) (eligible now fleet).length) := by
  refine ⟨_, processEvaluateAll_eq settings batchSize now fleet, ?_, ?_, ?_⟩
  · rw [List.map_map]
    exact ((byKey_perm.map _).nodup_iff.mpr (eligible_once now fleet)).sublist ((take_sublist _ _).map _)
  · intro job member
    obtain ⟨d, queued, rfl⟩ := List.mem_map.mp member
    exact ⟨d, mem_byKey.mp (mem_of_mem_take queued), rfl⟩
  · intro capped
    simp [quota, capped.ne', length_byKey]

theorem queues_of_room (room : settings.cap batchSize = 0 ∨ (eligible now fleet).length ≤ settings.cap batchSize)
    {run : ℤ × Fleet κ} (same : SameEligible run (now, fleet)) {d : FleetDevice κ} (member : d ∈ eligible now fleet) :
    Queues settings batchSize run d.id := by
  have all : quota (settings.cap batchSize) (eligible now fleet).length = (eligible now fleet).length := by
    unfold quota
    split_ifs with uncapped
    · rfl
    · exact min_eq_right (room.resolve_left uncapped)
  rw [queues_iff same, all, take_of_length_le (by simp)]
  exact List.mem_map_of_mem (mem_byKey.mpr member)

/-- Every device gets its turn exactly where a single run has room for all: the next run starts at the front again. -/
theorem inTurn_iff (settings : WorkerSettings) (batchSize : Option ℕ) (now : ℤ) (fleet : Fleet κ) :
    InTurn settings batchSize now fleet ↔
      settings.cap batchSize = 0 ∨ (eligible now fleet).length ≤ settings.cap batchSize := by
  constructor
  · intro inTurn
    by_contra outside
    obtain ⟨capped, few⟩ := not_or.mp outside
    have first : quota (settings.cap batchSize) (eligible now fleet).length = settings.cap batchSize := by
      rw [quota, if_neg capped]
      omega
    have last : ((byKey (·.id) (eligible now fleet)).map (·.id)).drop (settings.cap batchSize) ≠ [] := by
      rw [Ne, drop_eq_nil_iff]
      simpa using few
    obtain ⟨id, behind⟩ := exists_mem_of_ne_nil _ last
    obtain ⟨d, listed, rfl⟩ := List.mem_map.mp (mem_of_mem_drop behind)
    obtain ⟨run, member, queued⟩ := inTurn.reached (by omega)
      (List.replicate (((eligible now fleet).length + settings.cap batchSize - 1) / settings.cap batchSize)
        (now, fleet))
      (fun run member id => by rw [eq_of_mem_replicate member]) (by simp) d (mem_byKey.mp listed)
    rw [eq_of_mem_replicate member, queues_iff fun _ => Iff.rfl, first] at queued
    have once : ((byKey (·.id) (eligible now fleet)).map (·.id)).Nodup :=
      (byKey_perm.map _).nodup_iff.mpr (eligible_once now fleet)
    exact disjoint_take_drop once le_rfl queued behind
  · intro room
    refine ⟨oneRun settings batchSize now fleet, fun capped runs same rounds d member => ?_, fun _ d member => ?_⟩
    · have some_run : 0 < runs.length := by
        rw [rounds]
        have := length_pos_of_mem member
        exact Nat.div_pos (by omega) capped
      obtain ⟨run, among⟩ := exists_mem_of_length_pos some_run
      exact ⟨run, among, queues_of_room room (same run among) member⟩
    · exact queues_of_room room (fun _ => Iff.rfl) member

end Turns

def onlineDevice (id : ℕ) : FleetDevice ℕ := ⟨id, 0, .online, some 0⟩

def twoOnline : Fleet ℕ where
  organizations := [(0, .active)]
  devices := [onlineDevice 1, onlineDevice 2]
  once := by decide

def oneAtATime : WorkerSettings := ⟨1, 500⟩

/-- Two runs with room for one device each both queue the first. -/
theorem second_device_never_queued : ¬InTurn oneAtATime none 0 twoOnline := by
  intro inTurn
  obtain ⟨run, member, jobs, ran, queued⟩ := inTurn.reached (by decide) [(0, twoOnline), (0, twoOnline)]
    (by simp [SameEligible]) (by decide) (onlineDevice 2) (by decide)
  have same : run = (0, twoOnline) := by simpa using member
  subst same
  have first : processEvaluateAll oneAtATime none 0 twoOnline = some [⟨1, 0⟩] := by decide
  rw [first] at ran
  cases ran
  revert queued
  decide

end RemudaRmm.Alerts
