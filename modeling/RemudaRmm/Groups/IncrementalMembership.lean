import RemudaRmm.Foundation.Runs
import RemudaRmm.Groups.GroupMembership

/-! The members of a dynamic group while devices change: a group that is evaluated for the changed device, whenever a
field of its filter has changed, has the members that an evaluation of the whole group would give it. -/
namespace RemudaRmm.Groups
open Foundation List Registry Devices
open Option (any_none any_some isSome_none isSome_some map_eq_some_iff map_some none_or some)
open Devices (Filter FilterCondition FilterOperator leaves leavesOf)

mutual
theorem filterTruth_congr {one two : FilterCondition → Truth} : ∀ {f : Filter}, (∀ c ∈ leaves f, one c = two c) →
    filterTruth one f = filterTruth two f
  | .condition c, same => same c mem_cons_self
  | .group .and conditions, same => congrArg Truth.all (partTruths_congr same)
  | .group .or conditions, same => by rw [filterTruth, filterTruth, partTruths_congr same]

theorem partTruths_congr {one two : FilterCondition → Truth} : ∀ {fs : List Filter},
    (∀ c ∈ leavesOf fs, one c = two c) → partTruths one fs = partTruths two fs
  | [], _ => rfl
  | f :: rest, same => by
      rw [partTruths, partTruths, filterTruth_congr fun c member => same c (mem_append_left _ member),
        partTruths_congr fun c member => same c (mem_append_right _ member)]
end

mutual
theorem filterMeaning_eq (columnOf : Devices.Table → Text → Option Devices.Word)
    (stringOf : Devices.FilterValue → Text) (predicate : Devices.SQL → Truth) : ∀ f : Filter,
    filterMeaning columnOf stringOf predicate f = filterTruth (conditionMeaning columnOf stringOf predicate) f
  | .condition _ => rfl
  | .group .and conditions => congrArg Truth.all (partMeanings_eq columnOf stringOf predicate conditions)
  | .group .or conditions => by
      rw [filterMeaning, filterTruth, partMeanings_eq columnOf stringOf predicate conditions]

theorem partMeanings_eq (columnOf : Devices.Table → Text → Option Devices.Word)
    (stringOf : Devices.FilterValue → Text) (predicate : Devices.SQL → Truth) : ∀ fs : List Filter,
    partMeanings columnOf stringOf predicate fs = partTruths (conditionMeaning columnOf stringOf predicate) fs
  | [] => rfl
  | f :: rest => by
      rw [partMeanings, partTruths, filterMeaning_eq columnOf stringOf predicate f,
        partMeanings_eq columnOf stringOf predicate rest]
end

theorem query_selects {columnOf : Devices.Table → Text → Option Devices.Word} {stringOf : Devices.FilterValue → Text}
    {operator : Devices.GroupOperator} {conditions : List Filter} {filterSQL : Devices.SQL}
    (built : buildGroupSQL columnOf stringOf operator conditions = .ok filterSQL)
    (other : Devices.Device → Devices.SQL → Truth) (orgId : Text) (rows : List Devices.Device) :
    ∃ ids, Devices.evaluateFilter columnOf stringOf other operator conditions orgId none rows = .ok ids ∧
      ∀ id, id ∈ ids ↔ ∃ device ∈ rows, device.id = id ∧ device.orgId = orgId ∧
        filterTruth (conditionMeaning columnOf stringOf (rowPredicate other device))
          (.group operator conditions) = .yes := by
  obtain ⟨-, ids, selected, members⟩ := evaluateFilter_meaning built other orgId none rows
  refine ⟨ids, selected, fun id => ?_⟩
  rw [members]
  simp only [filterMeaning_eq, reduceCtorEq, false_implies, implies_true, true_and]

mutual
theorem mem_extractFieldsFromFilter {field : Text} : ∀ {f : Filter},
    field ∈ extractFieldsFromFilter f ↔ ∃ c ∈ leaves f, c.field = field
  | .condition c => by
      rw [extractFieldsFromFilter, leaves, mem_singleton]
      simp only [mem_singleton, exists_eq_left]
      exact eq_comm
  | .group _ conditions => by
      rw [extractFieldsFromFilter, leaves, mem_firstOfEach_id, mem_extractFieldsFromAll]

theorem mem_extractFieldsFromAll {field : Text} : ∀ {fs : List Filter},
    field ∈ extractFieldsFromAll fs ↔ ∃ c ∈ leavesOf fs, c.field = field
  | [] => by simp only [extractFieldsFromAll, leavesOf, not_mem_nil, false_and, exists_false]
  | f :: rest => by
      rw [extractFieldsFromAll, leavesOf, mem_append, mem_extractFieldsFromFilter, mem_extractFieldsFromAll]
      simp only [mem_append, or_and_right, exists_or]
end

theorem mem_uniqueFields {fields : List Text} {field : Text} :
    field ∈ uniqueFields fields ↔ field ∈ fields ∧ field ≠ [] := by
  rw [uniqueFields, mem_filter, mem_firstOfEach_id, decide_eq_true_eq]

variable {V : Type} {sem : FilterSemantics V} {filter : Filter}

theorem field_used (built : (leaves filter).all sem.builds = true) {c : FilterCondition} (member : c ∈ leaves filter) :
    c.field ∈ uniqueFields (extractFieldsFromFilter filter) := by
  refine mem_uniqueFields.mpr ⟨mem_extractFieldsFromFilter.mpr ⟨c, member, rfl⟩, fun empty => ?_⟩
  have builds := List.all_eq_true.mp built c member
  rw [sem.named c empty] at builds
  cases builds

def Covers (filter : Filter) (row : DeviceGroup) : Prop :=
  ∀ field ∈ uniqueFields (extractFieldsFromFilter filter), field ∈ row.filterFieldsUsed.getD []

theorem covers_ensured (row : DeviceGroup) : Covers filter (ensureFilterFieldsUsed filter row) := by
  intro field member
  unfold ensureFilterFieldsUsed
  split
  · exact member
  · next kept =>
    rw [not_and, Bool.not_eq_false] at kept
    have same := kept (ne_nil_of_mem member)
    rw [sameFieldSet, Bool.and_eq_true] at same
    exact of_decide_eq_true (List.all_eq_true.mp same.2 field member)

theorem hasFieldOverlap_iff {filterFields changedFields : List Text} :
    hasFieldOverlap filterFields changedFields = true ↔ ∃ field ∈ filterFields, field ∈ changedFields := by
  simp only [hasFieldOverlap, List.any_eq_true, decide_eq_true_eq]

def Timeless (filter : Filter) : Prop := ∀ c ∈ leaves filter, ¬ClockRelative c ∧ c.field ≠ groupIdField

theorem matchesFilter_congr (timeless : Timeless filter) {now now' : ℤ} {estate estate' : Estate V} {d : ℕ}
    {device device' : DeviceRow V} (same : ∀ c ∈ leaves filter, device.values c.field = device'.values c.field) :
    matchesFilter sem now estate d device filter = matchesFilter sem now' estate' d device' filter := by
  have truth : filterTruth (fun c => sem.holds now c (fieldValue sem estate d device c.field)) filter =
      filterTruth (fun c => sem.holds now' c (fieldValue sem estate' d device' c.field)) filter := by
    refine filterTruth_congr fun c member => ?_
    obtain ⟨clock, own⟩ := timeless c member
    rw [fieldValue, if_neg own, fieldValue, if_neg own, same c member]
    exact sem.timeless c clock now now' _
  rw [matchesFilter, matchesFilter, truth]

section Settle
variable {group : Group} {d x : ℕ} {matching : Bool} {deviceIds ids : List ℕ}

def Member (group : Group) (d : ℕ) : Prop := (group.members d).isSome = true

def Pinned (group : Group) (d : ℕ) : Prop := (group.members d).any (·.isPinned) = true

theorem Pinned.member (pinned : Pinned group d) : Member group d := by
  unfold Pinned at pinned
  unfold Member
  cases stored : group.members d with
  | none =>
    rw [stored] at pinned
    cases pinned
  | some m => rfl

theorem settleDevice_row : (settleDevice group x matching).1.row = group.row := by
  unfold settleDevice
  split
  · rfl
  · rfl
  · rfl
  · split <;> rfl

theorem settleDevice_other (other : d ≠ x) : (settleDevice group x matching).1.members d = group.members d := by
  have outside : d ∉ [x] := fun member => other (mem_singleton.mp member)
  unfold settleDevice
  split
  · exact if_neg outside
  · rfl
  · rfl
  · split
    · rfl
    · exact if_neg outside

theorem settleDevice_self :
    (Member (settleDevice group x matching).1 x ↔ matching = true ∨ Pinned group x) ∧
      (Pinned (settleDevice group x matching).1 x ↔ Pinned group x) := by
  unfold settleDevice Member Pinned
  split
  · next absent =>
    simp only [Members.insert, dynamicMembership, mem_singleton, if_true, absent, none_or,
      isSome_some, true_or, any_some, any_none, and_self]
  · next present => simp only [present, isSome_some, true_or, and_self]
  · next absent => simp only [absent, isSome_none, Bool.false_eq_true, any_none, or_self, and_self]
  · next m present =>
    cases pinned : m.isPinned with
    | true => simp only [if_true, present, isSome_some, any_some, pinned, or_true, and_self]
    | false =>
      simp only [Bool.false_eq_true, if_false, Members.delete, mem_singleton, if_true, isSome_none,
        any_none, present, any_some, pinned, or_self, and_self]

theorem mem_toAdd : d ∈ toAdd group.members ids ↔ d ∈ ids ∧ ¬Member group d := by
  rw [toAdd, mem_filter, Member, Option.isNone_iff_eq_none, Bool.not_eq_true, Option.isSome_eq_false_iff,
    Option.isNone_iff_eq_none]

theorem mem_toRemove : d ∈ toRemove group.members deviceIds ids ↔
    d ∈ deviceIds ∧ Member group d ∧ ¬Pinned group d ∧ d ∉ ids := by
  rw [toRemove, mem_filter, Bool.and_eq_true, Bool.not_eq_true', decide_eq_false_iff_not, Member, Pinned]
  cases group.members d with
  | none => simp only [any_none, isSome_none, Bool.false_eq_true, false_and]
  | some m => simp only [any_some, isSome_some, Bool.not_eq_true', Bool.not_eq_true, true_and]

theorem settleGroup_member (listed : d ∈ deviceIds) :
    (Member (settleGroup group deviceIds ids).1 d ↔ d ∈ ids ∨ Pinned group d) ∧
      (Pinned (settleGroup group deviceIds ids).1 d ↔ Pinned group d) := by
  have added : d ∈ toAdd group.members ids ↔ d ∈ ids ∧ ¬Member group d := mem_toAdd
  have removed : d ∈ toRemove group.members deviceIds ids ↔
      d ∈ deviceIds ∧ Member group d ∧ ¬Pinned group d ∧ d ∉ ids := mem_toRemove
  unfold settleGroup Member Pinned Members.insert Members.delete
  by_cases gone : d ∈ toRemove group.members deviceIds ids
  · obtain ⟨-, -, free, unmatched⟩ := removed.mp gone
    simp only [gone, if_true, isSome_none, Bool.false_eq_true, any_none, unmatched, false_or, false_iff]
    exact ⟨free, free⟩
  · by_cases fresh : d ∈ toAdd group.members ids
    · obtain ⟨matched, absent⟩ := added.mp fresh
      have empty : group.members d = none := Option.not_isSome_iff_eq_none.mp absent
      simp only [gone, if_false, fresh, if_true, empty, none_or, isSome_some, matched, true_or,
        dynamicMembership, any_some, any_none, Bool.false_eq_true, and_self]
    · simp only [gone, if_false, fresh, and_true]
      constructor
      · intro member
        by_contra neither
        rw [not_or] at neither
        exact gone (removed.mpr ⟨listed, member, neither.2, neither.1⟩)
      · rintro (matched | pinned)
        · by_contra absent
          exact fresh (added.mpr ⟨matched, absent⟩)
        · exact Pinned.member pinned

theorem settleGroup_settled (settled : Member group d ↔ d ∈ ids ∨ Pinned group d) :
    (settleGroup group deviceIds ids).1.members d = group.members d := by
  have kept : d ∉ toRemove group.members deviceIds ids := by
    intro gone
    obtain ⟨-, member, free, unmatched⟩ := mem_toRemove.mp gone
    exact (settled.mp member).elim unmatched free
  have old : d ∉ toAdd group.members ids := by
    intro fresh
    obtain ⟨matched, absent⟩ := mem_toAdd.mp fresh
    exact absent (settled.mpr (.inl matched))
  show (if d ∈ toRemove group.members deviceIds ids then none
    else if d ∈ toAdd group.members ids then (group.members d).or (some (dynamicMembership group.row.orgId))
    else group.members d) = _
  rw [if_neg kept, if_neg old]

end Settle

section Estates
variable {V : Type} {sem : FilterSemantics V} {now : ℤ} {estate next : Estate V} {groupId other deviceId : ℕ}
  {filter : Filter} {group : Group} {summary : MembershipUpdateSummary} {changedFields : List Text} {orgId : ℕ}

theorem Registry.modify_self {α : Type} {rows : Registry α} {i : ℕ} {a : α} (found : rows.find i = some a) (f : α → α) :
    (rows.modify i f).find i = some (f a) := by
  show (if i = i then (rows.find i).map f else rows.find i) = _
  rw [if_pos rfl, found, map_some]

theorem Registry.modify_other {α : Type} {rows : Registry α} {i j : ℕ} (apart : j ≠ i) (f : α → α) :
    (rows.modify i f).find j = rows.find j := if_neg apart

theorem dynamicFilter_eq_some_iff {row : DeviceGroup} : row.dynamicFilter = some filter ↔
    row.type = .dynamic ∧ row.filterConditions.filter isFilterConditionGroup = some filter := by
  unfold DeviceGroup.dynamicFilter
  by_cases dynamic : row.type = .dynamic
  · rw [if_pos dynamic, and_iff_right dynamic]
  · rw [if_neg dynamic]
    exact iff_of_false (fun absent => by cases absent) fun both => dynamic both.1

@[simp] theorem ensureFilterFieldsUsed_orgId (row : DeviceGroup) :
    (ensureFilterFieldsUsed filter row).orgId = row.orgId := by
  unfold ensureFilterFieldsUsed
  split <;> rfl

@[simp] theorem ensureFilterFieldsUsed_type (row : DeviceGroup) :
    (ensureFilterFieldsUsed filter row).type = row.type := by
  unfold ensureFilterFieldsUsed
  split <;> rfl

@[simp] theorem ensureFilterFieldsUsed_filterConditions (row : DeviceGroup) :
    (ensureFilterFieldsUsed filter row).filterConditions = row.filterConditions := by
  unfold ensureFilterFieldsUsed
  split <;> rfl

theorem dynamicFilter_ensured (row : DeviceGroup) :
    (ensureFilterFieldsUsed filter row).dynamicFilter = row.dynamicFilter := by
  rw [DeviceGroup.dynamicFilter, DeviceGroup.dynamicFilter, ensureFilterFieldsUsed_type,
    ensureFilterFieldsUsed_filterConditions]

/-- A call for one group leaves the devices and the other groups as they are. -/
structure Untouched (groupId : ℕ) (estate next : Estate V) : Prop where
  devices : next.devices = estate.devices
  groups : ∀ other, other ≠ groupId → next.groups.find other = estate.groups.find other

theorem evaluateDevice_untouched
    (done : evaluateDeviceMembershipForGroup sem now estate groupId deviceId = some (next, summary)) :
    Untouched groupId estate next := by
  unfold evaluateDeviceMembershipForGroup at done
  split at done
  · obtain ⟨rfl, -⟩ := Prod.mk.inj (some.inj done)
    exact ⟨rfl, fun _ _ => rfl⟩
  · split at done
    · obtain ⟨rfl, -⟩ := Prod.mk.inj (some.inj done)
      exact ⟨rfl, fun _ _ => rfl⟩
    · obtain ⟨matching, -, same⟩ := map_eq_some_iff.mp done
      obtain ⟨rfl, -⟩ := Prod.mk.inj same
      exact ⟨rfl, fun other apart => modify_other apart _⟩

theorem evaluateDevice_self (found : estate.groups.find groupId = some group)
    (dynamic : group.row.dynamicFilter = some filter)
    (done : evaluateDeviceMembershipForGroup sem now estate groupId deviceId = some (next, summary)) :
    next.groups.find groupId = some (settleDevice (group.ensured filter) deviceId
      ((estate.devices.find deviceId).any fun device => matchesFilter sem now estate deviceId device filter)).1 := by
  unfold evaluateDeviceMembershipForGroup deviceMatchesFilter at done
  simp only [found, dynamic] at done
  split at done
  · obtain ⟨rfl, -⟩ := Prod.mk.inj (some.inj done)
    exact modify_self found _
  · cases done

theorem visitGroup_untouched {state result : Estate V × MembershipUpdateSummary}
    (done : visitGroup sem now deviceId changedFields state groupId = some result) :
    Untouched groupId state.1 result.1 := by
  unfold visitGroup at done
  split at done
  · cases done
    exact ⟨rfl, fun _ _ => rfl⟩
  · split at done
    · cases done
      exact ⟨rfl, fun _ _ => rfl⟩
    · split at done
      · split at done
        · obtain ⟨⟨estate, summary⟩, evaluated, rfl⟩ := map_eq_some_iff.mp done
          exact evaluateDevice_untouched evaluated
        · cases done
          exact ⟨rfl, fun _ _ => rfl⟩
      · split at done
        · obtain ⟨⟨estate, summary⟩, evaluated, rfl⟩ := map_eq_some_iff.mp done
          have after := evaluateDevice_untouched evaluated
          exact ⟨after.devices, fun other apart => (after.groups other apart).trans (modify_other apart _)⟩
        · cases done
          exact ⟨rfl, fun other apart => modify_other apart _⟩

theorem visitGroup_self {state result : Estate V × MembershipUpdateSummary}
    (found : state.1.groups.find groupId = some group) (dynamic : group.row.dynamicFilter = some filter)
    (covers : Covers filter group.row) (done : visitGroup sem now deviceId changedFields state groupId = some result) :
    result.1.groups.find groupId = some (if hasFieldOverlap (group.row.filterFieldsUsed.getD []) changedFields then
      (settleDevice (group.ensured filter) deviceId ((state.1.devices.find deviceId).any fun device =>
        matchesFilter sem now state.1 deviceId device filter)).1 else group) := by
  have given := (dynamicFilter_eq_some_iff.mp dynamic).2
  unfold visitGroup at done
  simp only [found, given] at done
  split at done
  · split at done
    · next overlap =>
      obtain ⟨⟨estate, summary⟩, evaluated, rfl⟩ := map_eq_some_iff.mp done
      rw [if_pos overlap]
      exact evaluateDevice_self found dynamic evaluated
    · next apart =>
      cases done
      rw [if_neg apart]
      exact found
  · next empty =>
    rw [ne_eq, not_not] at empty
    have bare : uniqueFields (extractFieldsFromFilter filter) = [] := by
      refine eq_nil_iff_forall_not_mem.mpr fun field member => ?_
      have used := covers field member
      rw [empty] at used
      cases used
    have alone : hasFieldOverlap [] changedFields = false := rfl
    have still : group.ensured filter = group := by
      have kept : ensureFilterFieldsUsed filter group.row = group.row := if_neg fun both => both.1 bare
      rw [Group.ensured, kept]
    rw [bare, alone] at done
    cases done
    rw [empty, alone]
    exact (modify_self found _).trans (congrArg some still)

end Estates

section Changes
variable {V : Type} {sem : FilterSemantics V} {now : ℤ} {estate next : Estate V} {groupId deviceId orgId : ℕ}
  {filter : Filter} {group : Group} {changedFields : List Text} {gs : List ℕ}
  {state result : Estate V × MembershipUpdateSummary}

theorem foldlM_untouched (outside : groupId ∉ gs)
    (done : gs.foldlM (visitGroup sem now deviceId changedFields) state = some result) :
    result.1.devices = state.1.devices ∧ result.1.groups.find groupId = state.1.groups.find groupId := by
  induction gs generalizing state with
  | nil =>
    cases done
    exact ⟨rfl, rfl⟩
  | cons g gs ih =>
    rw [foldlM_cons] at done
    obtain ⟨middle, visited, rest⟩ := Option.bind_eq_some_iff.mp done
    obtain ⟨apart, later⟩ := not_or.mp (mt mem_cons.mpr outside)
    have first := visitGroup_untouched visited
    obtain ⟨devices, groups⟩ := ih later rest
    exact ⟨devices.trans first.devices, groups.trans (first.groups groupId apart)⟩

theorem foldlM_visits (once : gs.Nodup) (member : groupId ∈ gs) (timeless : Timeless filter)
    (found : state.1.groups.find groupId = some group) (dynamic : group.row.dynamicFilter = some filter)
    (covers : Covers filter group.row)
    (done : gs.foldlM (visitGroup sem now deviceId changedFields) state = some result) :
    result.1.devices = state.1.devices ∧
      result.1.groups.find groupId = some (if hasFieldOverlap (group.row.filterFieldsUsed.getD []) changedFields then
        (settleDevice (group.ensured filter) deviceId ((state.1.devices.find deviceId).any fun device =>
          matchesFilter sem now state.1 deviceId device filter)).1 else group) := by
  induction gs generalizing state with
  | nil => cases member
  | cons g gs ih =>
    rw [foldlM_cons] at done
    obtain ⟨middle, visited, rest⟩ := Option.bind_eq_some_iff.mp done
    obtain ⟨fresh, once'⟩ := nodup_cons.mp once
    have first := visitGroup_untouched visited
    rcases mem_cons.mp member with rfl | later
    · obtain ⟨devices, groups⟩ := foldlM_untouched fresh rest
      exact ⟨devices.trans first.devices, groups.trans (visitGroup_self found dynamic covers visited)⟩
    · have apart : groupId ≠ g := fun same => fresh (same ▸ later)
      obtain ⟨devices, groups⟩ := ih once' later ((first.groups groupId apart).trans found) rest
      refine ⟨devices.trans first.devices, groups.trans ?_⟩
      have matching : ∀ device, matchesFilter sem now middle.1 deviceId device filter =
          matchesFilter sem now state.1 deviceId device filter :=
        fun device => matchesFilter_congr timeless fun _ _ => rfl
      simp only [first.devices, matching]

/-- A new row for a device, and the call that follows. -/
structure DeviceChange (V : Type) where
  deviceId : ℕ
  device : DeviceRow V
  changedFields : List Text
  orgId : Option ℕ
  now : ℤ

def Estate.change (estate : Estate V) (c : DeviceChange V) : Estate V :=
  { estate with devices := estate.devices.modify c.deviceId fun _ => c.device }

/-- The change and the call, each whole; a call that throws leaves nothing behind. -/
def changeDevice (sem : FilterSemantics V) (estate : Estate V) (c : DeviceChange V) : Estate V :=
  (updateDeviceMembership sem c.now (estate.change c) c.deviceId c.changedFields c.orgId).elim (estate.change c)
    Prod.fst

/-- The call is told of every field of the filter whose value changes. -/
def Reports (filter : Filter) (estate : Estate V) (c : DeviceChange V) : Prop :=
  ∀ old, estate.devices.find c.deviceId = some old → ∀ field ∈ extractFieldsFromFilter filter,
    old.values field ≠ c.device.values field → field ∈ c.changedFields

/-- The fields by which the call decides whether to look at a group. -/
def consulted (row : DeviceGroup) (filter : Filter) : List Text :=
  if row.filterFieldsUsed.getD [] ≠ [] then row.filterFieldsUsed.getD [] else
    uniqueFields (extractFieldsFromFilter filter)

/-- The change keeps the device in the organisation or out of it, the call is for the device's own organisation, and the
filters of the groups that the call looks at can be built. -/
structure Harmless (sem : FilterSemantics V) (orgId : ℕ) (estate : Estate V) (c : DeviceChange V) : Prop where
  stays : ∀ old, estate.devices.find c.deviceId = some old → (old.orgId = orgId ↔ c.device.orgId = orgId)
  own : ∀ given, c.orgId = some given → given = c.device.orgId
  builds : ∀ g group filter, estate.groups.find g = some group → group.row.orgId = c.device.orgId →
    group.row.dynamicFilter = some filter → hasFieldOverlap (consulted group.row filter) c.changedFields = true →
    (leaves filter).all sem.builds = true

theorem evaluateDevice_isSome (found : estate.groups.find groupId = some group)
    (dynamic : group.row.dynamicFilter = some filter) (built : (leaves filter).all sem.builds = true) :
    (evaluateDeviceMembershipForGroup sem now estate groupId deviceId).isSome = true := by
  unfold evaluateDeviceMembershipForGroup deviceMatchesFilter
  simp only [found, dynamic, built, if_true, map_some, isSome_some]

theorem visitGroup_isSome (found : state.1.groups.find groupId = some group) (dynamic : group.row.type = .dynamic)
    (built : ∀ filter, group.row.dynamicFilter = some filter →
      hasFieldOverlap (consulted group.row filter) changedFields = true → (leaves filter).all sem.builds = true) :
    (visitGroup sem now deviceId changedFields state groupId).isSome = true := by
  unfold visitGroup
  simp only [found]
  split
  · rfl
  · next filter given =>
    have own : group.row.dynamicFilter = some filter := dynamicFilter_eq_some_iff.mpr ⟨dynamic, given⟩
    split
    · next used =>
      split
      · next overlap =>
        rw [Option.isSome_map]
        refine evaluateDevice_isSome found own (built filter own ?_)
        rw [consulted, if_pos used]
        exact overlap
      · rfl
    · next bare =>
      split
      · next overlap =>
        rw [Option.isSome_map]
        refine evaluateDevice_isSome (modify_self found _) ((dynamicFilter_ensured _).trans own)
          (built filter own ?_)
        rw [consulted, if_neg bare]
        exact overlap
      · rfl

theorem foldlM_isSome (once : gs.Nodup)
    (each : ∀ g ∈ gs, ∃ group, state.1.groups.find g = some group ∧ group.row.type = .dynamic ∧
      ∀ filter, group.row.dynamicFilter = some filter →
        hasFieldOverlap (consulted group.row filter) changedFields = true → (leaves filter).all sem.builds = true) :
    (gs.foldlM (visitGroup sem now deviceId changedFields) state).isSome = true := by
  induction gs generalizing state with
  | nil => rfl
  | cons g gs ih =>
    obtain ⟨fresh, once'⟩ := nodup_cons.mp once
    obtain ⟨group, found, dynamic, built⟩ := each g mem_cons_self
    have goes : (visitGroup sem now deviceId changedFields state g).isSome = true :=
      visitGroup_isSome found dynamic built
    obtain ⟨middle, visited⟩ := Option.isSome_iff_exists.mp goes
    rw [foldlM_cons, visited]
    refine ih once' fun g' later => ?_
    have apart : g' ≠ g := fun same => fresh (same ▸ later)
    obtain ⟨group', found', rest⟩ := each g' (mem_cons_of_mem g later)
    exact ⟨group', ((visitGroup_untouched visited).groups g' apart).trans found', rest⟩

theorem mem_dynamicGroups : groupId ∈ dynamicGroups estate orgId ↔ ∃ group, estate.groups.find groupId = some group ∧
    group.row.orgId = orgId ∧ group.row.type = .dynamic ∧ group.row.filterConditions.isSome = true := by
  rw [dynamicGroups, mem_filter]
  cases found : estate.groups.find groupId with
  | none => simp only [any_none, Bool.false_eq_true, and_false, reduceCtorEq, false_and, exists_false]
  | some group =>
    simp only [any_some, Bool.and_eq_true, decide_eq_true_eq, some.injEq, exists_eq_left', and_assoc]
    exact and_iff_right (estate.groups.listed found)

end Changes

section Runs
variable {V : Type} {sem : FilterSemantics V} {estate : Estate V} {groupId orgId : ℕ} {filter : Filter} {group : Group}
  {c : DeviceChange V}
variable {now : ℤ} {next : Estate V}

def Fits (sem : FilterSemantics V) (now : ℤ) (estate : Estate V) (orgId : ℕ) (filter : Filter) (d : ℕ)
    (device : DeviceRow V) : Prop :=
  device.orgId = orgId ∧ matchesFilter sem now estate d device filter = true

/-- The group has its filter, remembers the fields of it, and has the members that it should have. -/
structure Settled (sem : FilterSemantics V) (estate : Estate V) (groupId orgId : ℕ) (filter : Filter) (group : Group) :
    Prop where
  found : estate.groups.find groupId = some group
  home : group.row.orgId = orgId
  dynamic : group.row.dynamicFilter = some filter
  covers : Covers filter group.row
  members : ∀ d device now, estate.devices.find d = some device →
    (Member group d ↔ Fits sem now estate orgId filter d device ∨ Pinned group d)

theorem ensured_dynamicFilter (group : Group) (f : Filter) :
    (group.ensured f).row.dynamicFilter = group.row.dynamicFilter := dynamicFilter_ensured group.row

theorem change_find_self {device : DeviceRow V} : (estate.change c).devices.find c.deviceId = some device ↔
    device = c.device ∧ ∃ old, estate.devices.find c.deviceId = some old := by
  show (if c.deviceId = c.deviceId then (estate.devices.find c.deviceId).map (fun _ => c.device) else _) = _ ↔ _
  rw [if_pos rfl, map_eq_some_iff]
  constructor
  · rintro ⟨old, stored, rfl⟩
    exact ⟨rfl, old, stored⟩
  · rintro ⟨rfl, old, stored⟩
    exact ⟨old, stored, rfl⟩

theorem change_find_other {d : ℕ} (apart : d ≠ c.deviceId) :
    (estate.change c).devices.find d = estate.devices.find d := modify_other apart _

theorem fits_congr (timeless : Timeless filter) {now' : ℤ} {estate' : Estate V} {d : ℕ} {device device' : DeviceRow V}
    (org : device.orgId = orgId ↔ device'.orgId = orgId)
    (same : ∀ x ∈ leaves filter, device.values x.field = device'.values x.field) :
    Fits sem now estate orgId filter d device ↔ Fits sem now' estate' orgId filter d device' := by
  rw [Fits, Fits, matchesFilter_congr timeless same, org]

theorem Settled.unseen (settled : Settled sem estate groupId orgId filter group) (timeless : Timeless filter)
    (devices : next.devices = (estate.change c).devices) (found : next.groups.find groupId = some group)
    (alike : ∀ old, estate.devices.find c.deviceId = some old → ∀ now now',
      Fits sem now estate orgId filter c.deviceId old ↔ Fits sem now' next orgId filter c.deviceId c.device) :
    Settled sem next groupId orgId filter group where
  found := found
  home := settled.home
  dynamic := settled.dynamic
  covers := settled.covers
  members := by
    intro d device now stored
    rw [devices] at stored
    by_cases here : d = c.deviceId
    · subst here
      obtain ⟨rfl, old, known⟩ := change_find_self.mp stored
      rw [settled.members _ old now known, alike old known now now]
    · rw [change_find_other here] at stored
      rw [settled.members d device now stored, fits_congr timeless Iff.rfl fun _ _ => rfl]

theorem Settled.evaluated (settled : Settled sem estate groupId orgId filter group) (timeless : Timeless filter)
    (devices : next.devices = (estate.change c).devices) {state : Estate V} (home : c.device.orgId = orgId)
    (found : next.groups.find groupId = some (settleDevice (group.ensured filter) c.deviceId
      (((estate.change c).devices.find c.deviceId).any fun device =>
        matchesFilter sem now state c.deviceId device filter)).1) :
    ∃ after, Settled sem next groupId orgId filter after := by
  refine ⟨_, found, ?_, ?_, ?_, ?_⟩
  · rw [settleDevice_row]
    exact (ensureFilterFieldsUsed_orgId group.row).trans settled.home
  · rw [settleDevice_row, ensured_dynamicFilter]
    exact settled.dynamic
  · rw [settleDevice_row]
    exact covers_ensured group.row
  · intro d device now' stored
    rw [devices] at stored
    by_cases here : d = c.deviceId
    · subst here
      obtain ⟨rfl, -⟩ := change_find_self.mp stored
      rw [settleDevice_self.1, settleDevice_self.2, stored, any_some, Fits, and_iff_right home,
        matchesFilter_congr timeless fun _ _ => rfl]
    · rw [change_find_other here] at stored
      rw [Member, Pinned, settleDevice_other here]
      exact (settled.members d device now' stored).trans (or_congr_left (fits_congr timeless Iff.rfl fun _ _ => rfl))

theorem fits_unchanged (timeless : Timeless filter) (reports : Reports filter estate c)
    (harmless : Harmless sem orgId estate c)
    (apart : ∀ field ∈ extractFieldsFromFilter filter, field ∉ c.changedFields) (old : DeviceRow V)
    (known : estate.devices.find c.deviceId = some old) (now now' : ℤ) :
    Fits sem now estate orgId filter c.deviceId old ↔ Fits sem now' next orgId filter c.deviceId c.device := by
  refine fits_congr timeless (harmless.stays old known) fun x member => ?_
  by_contra changed
  have field : x.field ∈ extractFieldsFromFilter filter := mem_extractFieldsFromFilter.mpr ⟨x, member, rfl⟩
  exact apart x.field field (reports old known x.field field changed)

theorem resolved_org (harmless : Harmless sem orgId estate c) {resolved : ℕ}
    (found : c.orgId.or (((estate.change c).devices.find c.deviceId).map (·.orgId)) = some resolved) :
    resolved = c.device.orgId := by
  cases given : c.orgId with
  | some org =>
    rw [given, Option.some_or] at found
    rw [← harmless.own org given]
    exact (some.inj found).symm
  | none =>
    rw [given, none_or, map_eq_some_iff] at found
    obtain ⟨device, stored, rfl⟩ := found
    rw [(change_find_self.mp stored).1]

theorem Settled.change (settled : Settled sem estate groupId orgId filter group) (timeless : Timeless filter)
    (built : (leaves filter).all sem.builds = true) (reports : Reports filter estate c)
    (harmless : Harmless sem orgId estate c) :
    ∃ after, Settled sem (changeDevice sem estate c) groupId orgId filter after := by
  have found : (estate.change c).groups.find groupId = some group := settled.found
  unfold changeDevice updateDeviceMembership
  split
  · next empty =>
    refine ⟨group, settled.unseen timeless rfl found (fits_unchanged timeless reports harmless fun field _ => ?_)⟩
    rw [empty]
    exact not_mem_nil
  · split
    · next unresolved =>
      -- the device is not there, so that the change is none
      refine ⟨group, settled.unseen timeless rfl found fun old known => ?_⟩
      have stored : (estate.change c).devices.find c.deviceId = some c.device := change_find_self.mpr ⟨rfl, old, known⟩
      rw [stored, map_some, Option.or_eq_none_iff] at unresolved
      cases unresolved.2
    · next resolved given =>
      obtain rfl := resolved_org harmless given
      have goes : ((dynamicGroups (estate.change c) c.device.orgId).foldlM (visitGroup sem c.now c.deviceId
          c.changedFields) (estate.change c, {})).isSome = true := by
        refine foldlM_isSome ((estate.change c).groups.once.filter _) fun g member => ?_
        obtain ⟨other, stored, org, dynamic, -⟩ := mem_dynamicGroups.mp member
        exact ⟨other, stored, dynamic, fun f own overlap => harmless.builds g other f stored org own overlap⟩
      obtain ⟨result, done⟩ := Option.isSome_iff_exists.mp goes
      rw [done, Option.elim_some]
      by_cases home : c.device.orgId = orgId
      · have member : groupId ∈ dynamicGroups (estate.change c) c.device.orgId := by
          obtain ⟨dynamic, conditions⟩ := dynamicFilter_eq_some_iff.mp settled.dynamic
          refine mem_dynamicGroups.mpr ⟨group, found, settled.home.trans home.symm, dynamic, ?_⟩
          exact Option.isSome_of_mem (Option.filter_eq_some_iff.mp conditions).1
        obtain ⟨devices, groups⟩ := foldlM_visits ((estate.change c).groups.once.filter _) member timeless found
          settled.dynamic settled.covers done
        by_cases overlap : hasFieldOverlap (group.row.filterFieldsUsed.getD []) c.changedFields = true
        · rw [if_pos overlap] at groups
          exact settled.evaluated timeless devices home groups
        · rw [if_neg overlap] at groups
          refine ⟨group, settled.unseen timeless devices groups (fits_unchanged timeless reports harmless ?_)⟩
          intro field used changed
          obtain ⟨x, leaf, rfl⟩ := mem_extractFieldsFromFilter.mp used
          exact overlap (hasFieldOverlap_iff.mpr ⟨x.field, settled.covers _ (field_used built leaf), changed⟩)
      · have outside : groupId ∉ dynamicGroups (estate.change c) c.device.orgId := by
          intro member
          obtain ⟨other, stored, org, -⟩ := mem_dynamicGroups.mp member
          cases found.symm.trans stored
          exact home (org.symm.trans settled.home)
        obtain ⟨devices, groups⟩ := foldlM_untouched outside done
        refine ⟨group, settled.unseen timeless devices (groups.trans found) fun old known now now' => ?_⟩
        exact iff_of_false (fun fits => home ((harmless.stays old known).mp fits.1)) fun fits => home fits.1

theorem settled_evaluateGroup (timeless : Timeless filter) {summary : MembershipUpdateSummary}
    (found : estate.groups.find groupId = some group) (dynamic : group.row.dynamicFilter = some filter)
    (done : evaluateGroupMembership sem now estate groupId = some (next, summary)) :
    (leaves filter).all sem.builds = true ∧ ∃ after, Settled sem next groupId group.row.orgId filter after := by
  unfold evaluateGroupMembership evaluateFilter at done
  simp only [found, dynamic] at done
  split at done
  · next built =>
    obtain ⟨rfl, -⟩ := Prod.mk.inj (some.inj done)
    refine ⟨built, _, modify_self found _, ensureFilterFieldsUsed_orgId group.row,
      (dynamicFilter_ensured group.row).trans dynamic, covers_ensured group.row, ?_⟩
    intro d device now' stored
    have listed := estate.devices.listed stored
    rw [(settleGroup_member listed).1, (settleGroup_member listed).2, mem_filter, and_iff_right listed, stored,
      any_some, Bool.and_eq_true, decide_eq_true_eq, Fits, matchesFilter_congr timeless fun _ _ => rfl]
  · cases done

theorem evaluateGroup_self {matching : List ℕ} (found : estate.groups.find groupId = some group)
    (dynamic : group.row.dynamicFilter = some filter)
    (answer : evaluateFilter sem now estate filter group.row.orgId = some matching) :
    ∃ next summary, evaluateGroupMembership sem now estate groupId = some (next, summary) ∧
      next.groups.find groupId = some (settleGroup (group.ensured filter) estate.devices.ids matching).1 := by
  refine ⟨{ estate with groups := estate.groups.modify groupId fun _ =>
    (settleGroup (group.ensured filter) estate.devices.ids matching).1 },
    (settleGroup (group.ensured filter) estate.devices.ids matching).2, ?_, modify_self found _⟩
  unfold evaluateGroupMembership
  simp only [found, dynamic, answer, map_some]

/-- The members are what an evaluation of the whole group would leave. -/
structure MatchingAndPinned (sem : FilterSemantics V) (groupId orgId : ℕ) (filter : Filter) (estate : Estate V) :
    Prop where
  members : ∃ group, estate.groups.find groupId = some group ∧ ∀ d device now, estate.devices.find d = some device →
    (Member group d ↔ Fits sem now estate orgId filter d device ∨ Pinned group d)
  evaluated : ∀ now, ∃ next summary group after, evaluateGroupMembership sem now estate groupId = some (next, summary) ∧
    estate.groups.find groupId = some group ∧ next.groups.find groupId = some after ∧
    ∀ d device, estate.devices.find d = some device → after.members d = group.members d

theorem Settled.matchingAndPinned (settled : Settled sem estate groupId orgId filter group)
    (built : (leaves filter).all sem.builds = true) : MatchingAndPinned sem groupId orgId filter estate where
  members := ⟨group, settled.found, settled.members⟩
  evaluated := by
    intro now
    have answer : evaluateFilter sem now estate filter group.row.orgId = some (estate.devices.ids.filter fun d =>
        (estate.devices.find d).any fun device =>
          device.orgId = group.row.orgId && matchesFilter sem now estate d device filter) := if_pos built
    obtain ⟨next, summary, done, stored⟩ := evaluateGroup_self settled.found settled.dynamic answer
    refine ⟨next, summary, group, _, done, settled.found, stored, fun d device known => ?_⟩
    have listed := estate.devices.listed known
    refine settleGroup_settled ?_
    show Member group d ↔ _ ∨ Pinned group d
    rw [settled.members d device now known, mem_filter, and_iff_right listed, known, any_some,
      Bool.and_eq_true, decide_eq_true_eq, settled.home, Fits]

theorem matchingAndPinned_throughout (timeless : Timeless filter) {start : Estate V}
    {summary : MembershipUpdateSummary} (found : estate.groups.find groupId = some group)
    (dynamic : group.row.dynamicFilter = some filter)
    (done : evaluateGroupMembership sem now estate groupId = some (start, summary)) (changes : List (DeviceChange V))
    (meets : StepsMeet (changeDevice sem) (fun e c => Reports filter e c ∧ Harmless sem group.row.orgId e c) start
      changes) :
    Throughout (changeDevice sem) (MatchingAndPinned sem groupId group.row.orgId filter) start changes := by
  obtain ⟨built, settled⟩ := settled_evaluateGroup timeless found dynamic done
  have kept : Throughout (changeDevice sem)
      (fun e => ∃ after, Settled sem e groupId group.row.orgId filter after) start changes := by
    refine throughout_of_invariant (fun e c ⟨_, settled⟩ meets => ?_) settled meets
    exact settled.change timeless built meets.1 meets.2
  intro pre post split
  obtain ⟨after, settled⟩ := kept pre post split
  exact settled.matchingAndPinned built

end Runs

end RemudaRmm.Groups
