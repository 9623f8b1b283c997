import RemudaRmm.Devices.FilterMeaning
import RemudaRmm.Devices.FilterValidation
import RemudaRmm.Foundation.FirstWins

/-! The members of a device group (`groupMembership.ts`): the evaluation of a group, of one device for a group, and of
the groups that a change of a device may touch. -/
namespace RemudaRmm.Groups
open Foundation
open Devices (Filter FilterCondition FilterOperator leaves leavesOf)

mutual
/-- The value of a filter by the values of its conditions; an empty group is true. -/
def filterTruth (holds : FilterCondition → Truth) : Filter → Truth
  | .condition c => holds c
  | .group .and conditions => .all (partTruths holds conditions)
  | .group .or conditions => if conditions.isEmpty then .yes else .any (partTruths holds conditions)

def partTruths (holds : FilterCondition → Truth) : List Filter → List Truth
  | [] => []
  | f :: rest => filterTruth holds f :: partTruths holds rest
end

mutual
def extractFieldsFromFilter : Filter → List Text
  | .condition c => [c.field]
  | .group _ conditions => firstOfEach id (extractFieldsFromAll conditions)

def extractFieldsFromAll : List Filter → List Text
  | [] => []
  | f :: rest => extractFieldsFromFilter f ++ extractFieldsFromAll rest
end

def isFilterConditionGroup : Filter → Bool
  | .group _ _ => true
  | .condition _ => false

def uniqueFields (fields : List Text) : List Text := (firstOfEach id fields).filter (· ≠ [])

def sameFieldSet (left right : List Text) : Bool := left.length = right.length && left.all (· ∈ right)

def hasFieldOverlap (filterFields changedFields : List Text) : Bool := filterFields.any (· ∈ changedFields)

def groupIdField : Text := "groupId".toList

def ClockRelative (c : FilterCondition) : Prop :=
  c.operator = .withinLast ∨ c.operator = .notWithinLast ∨ c.field = "daysSinceLastSeen".toList ∨
    c.field = "daysSinceEnrolled".toList

/-- What the filter engine and the database make of a condition: whether its SQL can be built, and its value by the
clock and the value of its field. `Devices.conditionMeaning` is the value of the SQL. -/
structure FilterSemantics (V : Type) where
  builds : FilterCondition → Bool
  holds : ℤ → FilterCondition → V → Truth
  ofGroups : List ℕ → V
  timeless : ∀ c, ¬ClockRelative c → ∀ now now' v, holds now c v = holds now' c v
  named : ∀ c, c.field = [] → builds c = false

/-- Rows by their identifiers. -/
structure Registry (α : Type) where
  find : ℕ → Option α
  ids : List ℕ
  once : ids.Nodup
  listed : ∀ {i a}, find i = some a → i ∈ ids

/-- An `UPDATE` of one row. -/
def Registry.modify {α : Type} (rows : Registry α) (i : ℕ) (f : α → α) : Registry α where
  find j := if j = i then (rows.find j).map f else rows.find j
  ids := rows.ids
  once := rows.once
  listed := by
    intro j a found
    split at found
    · obtain ⟨b, stored, -⟩ := Option.map_eq_some_iff.mp found
      exact rows.listed stored
    · exact rows.listed found

structure DeviceRow (V : Type) where
  orgId : ℕ
  values : Text → V

inductive DeviceGroupType
  | static | dynamic
  deriving DecidableEq

/-- `filter_conditions` is a group, or something else. -/
structure DeviceGroup where
  orgId : ℕ
  type : DeviceGroupType
  filterConditions : Option Filter
  filterFieldsUsed : Option (List Text)

inductive MembershipSource
  | manual | dynamicRule | policy

structure Membership where
  orgId : ℕ
  isPinned : Bool
  addedBy : MembershipSource

inductive MembershipAction
  | added | removed
  deriving DecidableEq

inductive MembershipReason
  | manual | filterMatch | filterUnmatch | pinned | unpinned
  deriving DecidableEq

structure LogEntry where
  (deviceId orgId : ℕ)
  action : MembershipAction
  reason : MembershipReason

/-- The memberships of a group by their devices. -/
abbrev Members := ℕ → Option Membership

/-- A group with the rows that refer to it. -/
structure Group where
  row : DeviceGroup
  members : Members
  log : List LogEntry

structure Estate (V : Type) where
  devices : Registry (DeviceRow V)
  groups : Registry Group

structure MembershipUpdateSummary where
  evaluatedGroups : ℕ := 0
  added : ℕ := 0
  removed : ℕ := 0

def MembershipUpdateSummary.plus (a b : MembershipUpdateSummary) : MembershipUpdateSummary :=
  ⟨a.evaluatedGroups + b.evaluatedGroups, a.added + b.added, a.removed + b.removed⟩

/-- `INSERT ... ON CONFLICT DO NOTHING`. -/
def Members.insert (members : Members) (ids : List ℕ) (row : Membership) : Members :=
  fun d => if d ∈ ids then (members d).or (some row) else members d

def Members.delete (members : Members) (ids : List ℕ) : Members := fun d => if d ∈ ids then none else members d

def Members.update (members : Members) (deviceId : ℕ) (f : Membership → Membership) : Members :=
  fun d => if d = deviceId then (members d).map f else members d

def DeviceGroup.dynamicFilter (row : DeviceGroup) : Option Filter :=
  if row.type = .dynamic then row.filterConditions.filter isFilterConditionGroup else none

def ensureFilterFieldsUsed (filter : Filter) (row : DeviceGroup) : DeviceGroup :=
  if uniqueFields (extractFieldsFromFilter filter) ≠ [] ∧
      sameFieldSet (uniqueFields (extractFieldsFromFilter filter)) (row.filterFieldsUsed.getD []) = false then
    { row with filterFieldsUsed := some (uniqueFields (extractFieldsFromFilter filter)) }
  else row

def Group.ensured (filter : Filter) (group : Group) : Group :=
  { group with row := ensureFilterFieldsUsed filter group.row }

section Evaluation
variable {V : Type} (sem : FilterSemantics V) (now : ℤ) (estate : Estate V)

def fieldValue (deviceId : ℕ) (device : DeviceRow V) (field : Text) : V :=
  if field = groupIdField then
    sem.ofGroups (estate.groups.ids.filter fun g => (estate.groups.find g).any fun group =>
      (group.members deviceId).isSome)
  else device.values field

def matchesFilter (deviceId : ℕ) (device : DeviceRow V) (filter : Filter) : Bool :=
  filterTruth (fun c => sem.holds now c (fieldValue sem estate deviceId device c.field)) filter = .yes

def evaluateFilter (filter : Filter) (orgId : ℕ) : Option (List ℕ) :=
  if (leaves filter).all sem.builds then
    some (estate.devices.ids.filter fun d => (estate.devices.find d).any fun device =>
      device.orgId = orgId && matchesFilter sem now estate d device filter)
  else none

def deviceMatchesFilter (deviceId : ℕ) (filter : Filter) : Option Bool :=
  if (leaves filter).all sem.builds then
    some ((estate.devices.find deviceId).any fun device => matchesFilter sem now estate deviceId device filter)
  else none

end Evaluation

def dynamicMembership (orgId : ℕ) : Membership := ⟨orgId, false, .dynamicRule⟩

def settleDevice (group : Group) (deviceId : ℕ) (matching : Bool) : Group × MembershipUpdateSummary :=
  match matching, group.members deviceId with
  | true, none =>
    ({ group with members := group.members.insert [deviceId] (dynamicMembership group.row.orgId)
                  log := group.log ++ [⟨deviceId, group.row.orgId, .added, .filterMatch⟩] }, ⟨1, 1, 0⟩)
  | true, some _ => (group, ⟨1, 0, 0⟩)
  | false, none => (group, ⟨1, 0, 0⟩)
  | false, some membership =>
    if membership.isPinned then (group, ⟨1, 0, 0⟩)
    else
      ({ group with members := group.members.delete [deviceId]
                    log := group.log ++ [⟨deviceId, group.row.orgId, .removed, .filterUnmatch⟩] }, ⟨1, 0, 1⟩)

def toAdd (members : Members) (matching : List ℕ) : List ℕ := matching.filter fun d => (members d).isNone

def toRemove (members : Members) (deviceIds matching : List ℕ) : List ℕ :=
  deviceIds.filter fun d => (members d).any (fun membership => !membership.isPinned) && !decide (d ∈ matching)

def settleGroup (group : Group) (deviceIds matching : List ℕ) : Group × MembershipUpdateSummary :=
  ({ group with
      members := (group.members.insert (toAdd group.members matching) (dynamicMembership group.row.orgId)).delete
        (toRemove group.members deviceIds matching)
      log := group.log ++ (toAdd group.members matching).map (⟨·, group.row.orgId, .added, .filterMatch⟩) ++
        (toRemove group.members deviceIds matching).map (⟨·, group.row.orgId, .removed, .filterUnmatch⟩) },
    ⟨1, (toAdd group.members matching).length, (toRemove group.members deviceIds matching).length⟩)

section Membership
variable {V : Type} (sem : FilterSemantics V) (now : ℤ)

def evaluateDeviceMembershipForGroup (estate : Estate V) (groupId deviceId : ℕ) :
    Option (Estate V × MembershipUpdateSummary) :=
  match estate.groups.find groupId with
  | none => some (estate, {})
  | some group =>
    match group.row.dynamicFilter with
    | none => some (estate, {})
    | some filter =>
      (deviceMatchesFilter sem now estate deviceId filter).map fun matching =>
        ({ estate with
            groups := estate.groups.modify groupId fun _ =>
              (settleDevice (group.ensured filter) deviceId matching).1 },
          (settleDevice (group.ensured filter) deviceId matching).2)

def evaluateGroupMembership (estate : Estate V) (groupId : ℕ) : Option (Estate V × MembershipUpdateSummary) :=
  match estate.groups.find groupId with
  | none => some (estate, {})
  | some group =>
    match group.row.dynamicFilter with
    | none => some (estate, {})
    | some filter =>
      (evaluateFilter sem now estate filter group.row.orgId).map fun matching =>
        ({ estate with
            groups := estate.groups.modify groupId fun _ =>
              (settleGroup (group.ensured filter) estate.devices.ids matching).1 },
          (settleGroup (group.ensured filter) estate.devices.ids matching).2)

/-- The body of the loop of `updateDeviceMembership`. -/
def visitGroup (deviceId : ℕ) (changedFields : List Text) (state : Estate V × MembershipUpdateSummary) (groupId : ℕ) :
    Option (Estate V × MembershipUpdateSummary) :=
  match state.1.groups.find groupId with
  | none => some state
  | some group =>
    match group.row.filterConditions.filter isFilterConditionGroup with
    | none => some state
    | some filter =>
      if group.row.filterFieldsUsed.getD [] ≠ [] then
        if hasFieldOverlap (group.row.filterFieldsUsed.getD []) changedFields then
          (evaluateDeviceMembershipForGroup sem now state.1 groupId deviceId).map fun result =>
            (result.1, state.2.plus result.2)
        else some state
      else if hasFieldOverlap (uniqueFields (extractFieldsFromFilter filter)) changedFields then
        (evaluateDeviceMembershipForGroup sem now
          { state.1 with groups := state.1.groups.modify groupId (·.ensured filter) } groupId deviceId).map
            fun result => (result.1, state.2.plus result.2)
      else some ({ state.1 with groups := state.1.groups.modify groupId (·.ensured filter) }, state.2)

def dynamicGroups (estate : Estate V) (orgId : ℕ) : List ℕ :=
  estate.groups.ids.filter fun g => (estate.groups.find g).any fun group =>
    group.row.orgId = orgId && group.row.type = .dynamic && group.row.filterConditions.isSome

def updateDeviceMembership (estate : Estate V) (deviceId : ℕ) (changedFields : List Text) (orgId : Option ℕ) :
    Option (Estate V × MembershipUpdateSummary) :=
  if changedFields = [] then some (estate, {})
  else
    match orgId.or ((estate.devices.find deviceId).map (·.orgId)) with
    | none => some (estate, {})
    | some resolvedOrgId =>
      (dynamicGroups estate resolvedOrgId).foldlM (visitGroup sem now deviceId changedFields) (estate, {})

end Membership

end RemudaRmm.Groups
