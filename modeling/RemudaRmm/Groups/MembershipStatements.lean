import Mathlib.Data.List.Chain
import RemudaRmm.Foundation.Runs
import RemudaRmm.Groups.GroupMembership

/-! The calls on one group under READ COMMITTED, a statement at a time. Each statement commits by itself; a call inside
a transaction is a run in which its writes come at its commit. -/
namespace RemudaRmm.Groups
open Foundation Function
open Devices (Filter)

/-- What `evaluateGroupMembership` and `evaluateDeviceMembershipForGroup` look at. -/
inductive Evaluation where
  | wholeGroup
  | oneDevice (deviceId : ℕ)

/-- The next statement of a call, with what the statements before it have read. -/
inductive Stage where
  | returned
  | selectGroup (evaluation : Evaluation)
  | ensureFields (evaluation : Evaluation) (group : DeviceGroup) (filter : Filter)
  | matchFilter (evaluation : Evaluation) (orgId : ℕ) (filter : Filter)
  | selectMemberships (evaluation : Evaluation) (orgId : ℕ) (matching : List ℕ)
  | insertMatching (orgId : ℕ) (toAdd toRemove : List ℕ)
  | logMatching (orgId : ℕ) (unlogged toRemove : List ℕ)
  | deleteUnmatched (orgId : ℕ) (toRemove : List ℕ)
  | logUnmatched (orgId : ℕ) (unlogged : List ℕ)
  | selectMembership (deviceId : ℕ) (pinned : Bool) (orgId : ℕ)
  | updatePinned (deviceId orgId : ℕ)
  | insertPinned (deviceId orgId : ℕ)
  | logPinned (deviceId orgId : ℕ)
  | updateUnpinned (deviceId orgId : ℕ)
  | selectUnpinnedGroup (deviceId orgId : ℕ)
  | matchUnpinned (deviceId orgId : ℕ) (filter : Filter)
  | deleteUnpinned (deviceId orgId : ℕ)
  | logUnpinned (deviceId orgId : ℕ)

/-- The row of the group, its memberships and its log, the calls on it, and what the last call to return made of the pin
of a device. -/
structure World where
  group : Option DeviceGroup
  deviceIds : List ℕ
  once : deviceIds.Nodup
  members : Members
  log : List LogEntry
  calls : ℕ → Stage
  lastPin : ℕ → Option Bool

/-- `answer` is what the query of the filter selects, or that it throws; `log` inserts one of the entries that a call
inserts together. -/
inductive Event where
  | evaluate (i : ℕ) (evaluation : Evaluation)
  | pinDeviceToGroup (i deviceId : ℕ) (pinned : Bool) (orgId : ℕ)
  | statement (i : ℕ)
  | answer (i : ℕ) (selected : Option (List ℕ))
  | log (i deviceId : ℕ)
  | changeGroup (group : Option DeviceGroup)

def World.proceed (w : World) (i : ℕ) (stage : Stage) : World := { w with calls := update w.calls i stage }

def World.finishPin (w : World) (i deviceId : ℕ) (pinned : Bool) : World :=
  { w with calls := update w.calls i .returned
           lastPin := update w.lastPin deviceId (some pinned) }

def deleteStage (orgId : ℕ) (toRemove : List ℕ) : Stage :=
  if toRemove = [] then .returned else .deleteUnmatched orgId toRemove

def insertStage (orgId : ℕ) (toAdd toRemove : List ℕ) : Stage :=
  if toAdd = [] then deleteStage orgId toRemove else .insertMatching orgId toAdd toRemove

def logMatchingStage (orgId : ℕ) (unlogged toRemove : List ℕ) : Stage :=
  if unlogged = [] then deleteStage orgId toRemove else .logMatching orgId unlogged toRemove

def logUnmatchedStage (orgId : ℕ) (unlogged : List ℕ) : Stage :=
  if unlogged = [] then .returned else .logUnmatched orgId unlogged

def evaluatedStage (w : World) (orgId : ℕ) (matching : List ℕ) : Evaluation → Stage
  | .wholeGroup => insertStage orgId (toAdd w.members matching) (toRemove w.members w.deviceIds matching)
  | .oneDevice d =>
    insertStage orgId (toAdd w.members ([d].filter (· ∈ matching))) (toRemove w.members [d] matching)

/-- The update of `ensureFilterFieldsUsed`, decided by the fields that were read and made by the key. -/
def ensureFieldsOf (filter : Filter) (read row : DeviceGroup) : DeviceGroup :=
  if uniqueFields (extractFieldsFromFilter filter) ≠ [] ∧
      sameFieldSet (uniqueFields (extractFieldsFromFilter filter)) (read.filterFieldsUsed.getD []) = false then
    { row with filterFieldsUsed := some (uniqueFields (extractFieldsFromFilter filter)) }
  else row

def pinnedMembership (orgId : ℕ) : Membership := ⟨orgId, true, .manual⟩

/-- The statements other than the query of a filter and the log entries that are inserted together. -/
def statement (w : World) (i : ℕ) : World :=
  match w.calls i with
  | .selectGroup evaluation =>
    match w.group with
    | none => w.proceed i .returned
    | some group =>
      match group.dynamicFilter with
      | none => w.proceed i .returned
      | some filter => w.proceed i (.ensureFields evaluation group filter)
  | .ensureFields evaluation group filter =>
    { w with group := w.group.map (ensureFieldsOf filter group)
             calls := update w.calls i (.matchFilter evaluation group.orgId filter) }
  | .selectMemberships evaluation orgId matching => w.proceed i (evaluatedStage w orgId matching evaluation)
  | .insertMatching orgId toAdd toRemove =>
    { w with members := w.members.insert toAdd (dynamicMembership orgId)
             calls := update w.calls i (.logMatching orgId toAdd toRemove) }
  | .deleteUnmatched orgId toRemove =>
    { w with members := w.members.delete toRemove
             calls := update w.calls i (.logUnmatched orgId toRemove) }
  | .selectMembership d true orgId =>
    match w.members d with
    | none => w.proceed i (.insertPinned d orgId)
    | some membership => if membership.isPinned then w.finishPin i d true else w.proceed i (.updatePinned d orgId)
  | .selectMembership d false orgId =>
    if (w.members d).any (·.isPinned) then w.proceed i (.updateUnpinned d orgId) else w.finishPin i d false
  | .updatePinned d orgId =>
    { w with members := w.members.update d fun membership => { membership with isPinned := true, addedBy := .manual }
             calls := update w.calls i (.logPinned d orgId) }
  | .insertPinned d orgId =>
    { w with members := w.members.insert [d] (pinnedMembership orgId)
             calls := update w.calls i (.logPinned d orgId) }
  | .logPinned d orgId => { w.finishPin i d true with log := w.log ++ [⟨d, orgId, .added, .pinned⟩] }
  | .updateUnpinned d orgId =>
    { w with members := w.members.update d fun membership => { membership with isPinned := false }
             calls := update w.calls i (.selectUnpinnedGroup d orgId) }
  | .selectUnpinnedGroup d orgId =>
    match w.group.bind (·.dynamicFilter) with
    | none => w.finishPin i d false
    | some filter => w.proceed i (.matchUnpinned d orgId filter)
  | .deleteUnpinned d orgId =>
    { w with members := w.members.delete [d]
             calls := update w.calls i (.logUnpinned d orgId) }
  | .logUnpinned d orgId => { w.finishPin i d false with log := w.log ++ [⟨d, orgId, .removed, .unpinned⟩] }
  | .returned | .matchFilter .. | .logMatching .. | .logUnmatched .. | .matchUnpinned .. => w

def answer (w : World) (i : ℕ) (selected : Option (List ℕ)) : World :=
  match w.calls i, selected with
  | .matchFilter evaluation orgId _, some ids => w.proceed i (.selectMemberships evaluation orgId (firstOfEach id ids))
  | .matchFilter .., none => w.proceed i .returned
  | .matchUnpinned d orgId _, some ids =>
    if d ∈ ids then w.finishPin i d false else w.proceed i (.deleteUnpinned d orgId)
  | .matchUnpinned d _ _, none => w.finishPin i d false
  | _, _ => w

/-- `logMembershipChange` for one of the devices of an evaluation. -/
def logOne (w : World) (i deviceId : ℕ) : World :=
  match w.calls i with
  | .logMatching orgId unlogged toRemove =>
    if deviceId ∈ unlogged then
      { w with log := w.log ++ [⟨deviceId, orgId, .added, .filterMatch⟩]
               calls := update w.calls i (logMatchingStage orgId (unlogged.erase deviceId) toRemove) }
    else w
  | .logUnmatched orgId unlogged =>
    if deviceId ∈ unlogged then
      { w with log := w.log ++ [⟨deviceId, orgId, .removed, .filterUnmatch⟩]
               calls := update w.calls i (logUnmatchedStage orgId (unlogged.erase deviceId)) }
    else w
  | _ => w

def start (w : World) (i : ℕ) (stage : Stage) : World :=
  match w.calls i with
  | .returned => w.proceed i stage
  | _ => w

def step (w : World) : Event → World
  | .evaluate i evaluation => start w i (.selectGroup evaluation)
  | .pinDeviceToGroup i d pinned orgId => start w i (.selectMembership d pinned orgId)
  | .statement i => statement w i
  | .answer i selected => answer w i selected
  | .log i d => logOne w i d
  | .changeGroup group => { w with group }

def Stage.unlogged : Stage → ℕ → Option (MembershipAction × MembershipReason)
  | .logMatching _ unlogged _, d => if d ∈ unlogged then some (.added, .filterMatch) else none
  | .logUnmatched _ unlogged, d => if d ∈ unlogged then some (.removed, .filterUnmatch) else none
  | .logPinned x _, d => if d = x then some (.added, .pinned) else none
  | .logUnpinned x _, d => if d = x then some (.removed, .unpinned) else none
  | _, _ => none

/-- The devices whose memberships the next statement writes, each with the pin of the row as the call has read it, or
left it. -/
def Stage.writes : Stage → List (ℕ × Option Bool)
  | .insertMatching _ toAdd _ => toAdd.map (·, none)
  | .deleteUnmatched _ toRemove => toRemove.map (·, some false)
  | .updatePinned d _ => [(d, some false)]
  | .insertPinned d _ => [(d, none)]
  | .updateUnpinned d _ => [(d, some true)]
  | .deleteUnpinned d _ => [(d, some false)]
  | _ => []

def Stage.deletes : Stage → List ℕ
  | .deleteUnmatched _ toRemove => toRemove
  | .deleteUnpinned d _ => [d]
  | _ => []

def Stage.unpins : Stage → Option ℕ
  | .selectMembership d false _ => some d
  | .updateUnpinned d _ | .selectUnpinnedGroup d _ | .matchUnpinned d _ _ => some d
  | .deleteUnpinned d _ | .logUnpinned d _ => some d
  | _ => none

/-- The entries of a device in the log other than `pinned` ones. -/
def changesOf (log : List LogEntry) (deviceId : ℕ) : List MembershipAction :=
  (log.filter fun entry => entry.deviceId = deviceId && decide (entry.reason ≠ .pinned)).map (·.action)

/-- No call but `i` has written the membership of the device and not logged that. -/
def AllLogged (w : World) (i deviceId : ℕ) : Prop := ∀ j, j ≠ i → (w.calls j).unlogged deviceId = none

/-- Since its last removal only a pin has put the device back. -/
def PutBackByPin (w : World) (deviceId : ℕ) : Prop := (changesOf w.log deviceId).getLast? = some .removed

/-- A write finds the membership as the call has read it, with the changes of the others logged; and no device is
removed that only a pin has put back. -/
def Careful (w : World) : Event → Prop
  | .statement i =>
    (∀ write ∈ (w.calls i).writes,
      (w.members write.1).map (·.isPinned) = write.2 ∧ AllLogged w i write.1) ∧
    ∀ d ∈ (w.calls i).deletes, ¬PutBackByPin w d
  | _ => True

/-- A device that the last call left pinned is a pinned member. -/
def PinsHold (w : World) : Prop :=
  ∀ d, w.lastPin d = some true → (∀ i, (w.calls i).unpins ≠ some d) → (w.members d).any (·.isPinned) = true

def LogAlternates (w : World) : Prop := ∀ d, (changesOf w.log d).IsChain (· ≠ ·)

/-- No call is under way, and the log fits the memberships. -/
structure Quiet (w : World) : Prop where
  returned : ∀ i, w.calls i = .returned
  pins : ∀ d, w.lastPin d = some true → (w.members d).any (·.isPinned) = true
  alternates : LogAlternates w
  absent : ∀ d, w.members d = none → (changesOf w.log d).getLast? ≠ some .added

end RemudaRmm.Groups
