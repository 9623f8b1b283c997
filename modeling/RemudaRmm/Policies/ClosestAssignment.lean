import RemudaRmm.Policies.FeatureConfigResolver

/-! Which assignment wins: the closest that applies to a device, and the closest that a batch expands to it. -/
namespace RemudaRmm.Policies
open Foundation List Option

section Order
variable {a b c : ConfigPolicyAssignment}

/-- The first assignment is closer to the device than the second. -/
def Before (a b : ConfigPolicyAssignment) : Prop := compareByHierarchy a b < 0

theorem compareByHierarchy_swap : compareByHierarchy b a = -compareByHierarchy a b := by
  unfold compareByHierarchy
  split_ifs <;> omega

theorem compareByHierarchy_le_iff : compareByHierarchy a b ≤ 0 ↔ ¬Before b a := by
  rw [Before, compareByHierarchy_swap (a := a)]
  omega

theorem Before.trans (first : Before a b) (second : Before b c) : Before a c := by
  unfold Before compareByHierarchy at *
  split_ifs at * <;> omega

theorem compareByHierarchy_trans (first : compareByHierarchy a b ≤ 0) (second : compareByHierarchy b c ≤ 0) :
    compareByHierarchy a c ≤ 0 := by
  unfold compareByHierarchy at *
  split_ifs at * <;> omega

theorem createdAt_eq (first : compareByHierarchy a b ≤ 0) (second : compareByHierarchy b a ≤ 0) :
    a.createdAt = b.createdAt := by
  unfold compareByHierarchy at *
  split_ifs at * <;> omega

instance : Std.Total rowLe where
  total r s := by
    have swap := compareByHierarchy_swap (a := r.assignment) (b := s.assignment)
    unfold rowLe
    omega

instance : IsTrans Row rowLe where
  trans _ _ _ := compareByHierarchy_trans

end Order

section Closest
variable {db : Database} {a b c : ConfigPolicyAssignment} {Q : ConfigPolicyAssignment → Prop}

theorem Database.assignment_eq (db : Database) (first : a ∈ db.configPolicyAssignments)
    (second : b ∈ db.configPolicyAssignments) (same : a.createdAt = b.createdAt) : a = b :=
  inj_on_of_nodup_map db.createdApart first second same

theorem before_or_before (first : a ∈ db.configPolicyAssignments) (second : b ∈ db.configPolicyAssignments)
    (apart : a ≠ b) : Before a b ∨ Before b a := by
  by_contra level
  rw [not_or, ← compareByHierarchy_le_iff, ← compareByHierarchy_le_iff] at level
  exact apart (db.assignment_eq first second (createdAt_eq level.2 level.1))

def Closest (Q : ConfigPolicyAssignment → Prop) (a : ConfigPolicyAssignment) : Prop := Q a ∧ ∀ b, Q b → ¬Before b a

theorem Closest.unique (stored : ∀ x, Q x → x ∈ db.configPolicyAssignments) (first : Closest Q a)
    (second : Closest Q b) : a = b := by
  by_contra apart
  rcases before_or_before (stored a first.1) (stored b second.1) apart with before | before
  · exact second.2 a first.1 before
  · exact first.2 b second.1 before

theorem exists_closest (stored : ∀ x, Q x → x ∈ db.configPolicyAssignments) (some : Q a) : ∃ c, Closest Q c := by
  classical
  let rows := db.configPolicyAssignments.map fun x : ConfigPolicyAssignment =>
    (⟨x, ⟨0, 0, .patch, none, none⟩, none⟩ : Row)
  cases found : (rows.insertionSort rowLe).find? fun r => decide (Q r.assignment) with
  | none =>
    refine absurd ?_ (find?_insertionSort_eq_none.mp found _ (List.mem_map_of_mem (stored a some)))
    exact decide_eq_true some
  | some r =>
    obtain ⟨-, fits, least⟩ := find?_insertionSort found
    refine ⟨r.assignment, of_decide_eq_true fits, fun b holds => ?_⟩
    exact compareByHierarchy_le_iff.mp (least _ (List.mem_map_of_mem (stored b holds)) (decide_eq_true holds))

end Closest

section Joined
variable {db : Database} {row other : Row} {a : ConfigPolicyAssignment} {l : ConfigPolicyFeatureLink}
  {hierarchy : DeviceHierarchy} {orgId : ℕ} {owned : ConfigurationPolicy → Bool}

def JoinedSettings (db : Database) (l : ConfigPolicyFeatureLink) : Option ConfigPolicyBackupSettings → Prop
  | none => ∀ t ∈ db.configPolicyBackupSettings, t.featureLinkId ≠ l.id
  | some t => t ∈ db.configPolicyBackupSettings ∧ t.featureLinkId = l.id

/-- The row joins a backup link of the assignment's policy with the settings of the link. -/
structure Row.Joined (db : Database) (row : Row) : Prop where
  link : row.link ∈ db.configPolicyFeatureLinks
  policy : row.link.configPolicyId = row.assignment.configPolicyId
  backup : row.link.featureType = .backup
  settings : JoinedSettings db row.link row.backupSettings

def AssignedBy (db : Database) (owned : ConfigurationPolicy → Bool) (a : ConfigPolicyAssignment) : Prop :=
  a ∈ db.configPolicyAssignments ∧
    ∃ p ∈ db.configurationPolicies, a.configPolicyId = p.id ∧ p.status = .active ∧ owned p = true

/-- The assignment is one of an active policy of such an owner, and the policy has a backup feature. -/
def Backs (db : Database) (owned : ConfigurationPolicy → Bool) (a : ConfigPolicyAssignment) : Prop :=
  AssignedBy db owned a ∧
    ∃ l ∈ db.configPolicyFeatureLinks, l.configPolicyId = a.configPolicyId ∧ l.featureType = .backup

theorem mem_joinBackupSettings : row ∈ joinBackupSettings db ⟨a, l, none⟩ ↔
    row.assignment = a ∧ row.link = l ∧ JoinedSettings db l row.backupSettings := by
  unfold joinBackupSettings
  obtain ⟨a', l', s⟩ := row
  split
  · next found =>
    rw [filter_eq_nil_iff] at found
    simp only [decide_eq_true_eq] at found
    constructor
    · intro member
      obtain ⟨rfl, rfl, rfl⟩ := Row.mk.inj (mem_singleton.mp member)
      exact ⟨rfl, rfl, found⟩
    · rintro ⟨rfl, rfl, joined⟩
      cases s with
      | none => exact mem_singleton_self _
      | some t => exact absurd joined.2 (found t joined.1)
  · next some =>
    constructor
    · intro member
      obtain ⟨t, among, same⟩ := List.mem_map.mp member
      obtain ⟨rfl, rfl, rfl⟩ := Row.mk.inj same
      obtain ⟨stored, own⟩ := mem_filter.mp among
      exact ⟨rfl, rfl, stored, of_decide_eq_true own⟩
    · rintro ⟨rfl, rfl, joined⟩
      cases s with
      | none =>
        refine absurd ?_ some
        exact filter_eq_nil_iff.mpr fun t stored own => joined t stored (of_decide_eq_true own)
      | some t => exact List.mem_map.mpr ⟨t, mem_filter.mpr ⟨joined.1, decide_eq_true joined.2⟩, rfl⟩

theorem mem_orgBackupRows : row ∈ orgBackupRows db orgId ↔
    row.Joined db ∧ AssignedBy db (fun p => p.orgId = some orgId) row.assignment := by
  unfold orgBackupRows
  simp only [mem_flatMap, mem_filter, Bool.and_eq_true, decide_eq_true_eq, mem_joinBackupSettings]
  constructor
  · rintro ⟨l, ⟨stored, backup⟩, p, ⟨policy, ⟨own, active⟩, owner⟩, a, ⟨assigned, same⟩, rfl, rfl, joined⟩
    exact ⟨⟨stored, own.trans same.symm, backup, joined⟩, assigned, p, policy, same, active, decide_eq_true owner⟩
  · rintro ⟨⟨stored, own, backup, joined⟩, assigned, p, policy, same, active, owner⟩
    exact ⟨row.link, ⟨stored, backup⟩, p, ⟨policy, ⟨own.trans same, active⟩, of_decide_eq_true owner⟩,
      row.assignment, ⟨assigned, same⟩, rfl, rfl, joined⟩

theorem mem_applicableRows {featureType : ConfigFeatureType} : row ∈ applicableRows db hierarchy featureType ↔
    row.link ∈ db.configPolicyFeatureLinks ∧ row.link.configPolicyId = row.assignment.configPolicyId ∧
      row.link.featureType = featureType ∧ row.backupSettings = none ∧
      AssignedBy db (policyOwnershipCondition hierarchy) row.assignment ∧
      buildTargetConditions hierarchy row.assignment = true ∧
      buildRoleOsFilterConditions hierarchy row.assignment = true := by
  unfold applicableRows
  simp only [mem_flatMap, List.mem_map, mem_filter, Bool.and_eq_true, decide_eq_true_eq]
  constructor
  · rintro ⟨a, ⟨assigned, target, admits⟩, p, ⟨policy, ⟨same, active⟩, owner⟩, l, ⟨stored, own, type⟩, rfl⟩
    exact ⟨stored, own.trans same.symm, type, rfl, ⟨assigned, p, policy, same, active, owner⟩, target, admits⟩
  · rintro ⟨stored, own, type, bare, ⟨assigned, p, policy, same, active, owner⟩, target, admits⟩
    refine ⟨row.assignment, ⟨assigned, target, admits⟩, p, ⟨policy, ⟨same, active⟩, owner⟩, row.link,
      ⟨stored, own.trans same, type⟩, ?_⟩
    rw [← bare]

theorem mem_applicableBackupRows : row ∈ (applicableRows db hierarchy .backup).flatMap (joinBackupSettings db) ↔
    row.Joined db ∧ AssignedBy db (policyOwnershipCondition hierarchy) row.assignment ∧
      buildTargetConditions hierarchy row.assignment = true ∧
      buildRoleOsFilterConditions hierarchy row.assignment = true := by
  rw [mem_flatMap]
  constructor
  · rintro ⟨r, member, joined⟩
    obtain ⟨stored, own, backup, bare, rest⟩ := mem_applicableRows.mp member
    obtain ⟨a, l, s⟩ := r
    obtain rfl : s = none := bare
    obtain ⟨rfl, rfl, settings⟩ := mem_joinBackupSettings.mp joined
    exact ⟨⟨stored, own, backup, settings⟩, rest⟩
  · rintro ⟨⟨stored, own, backup, settings⟩, rest⟩
    exact ⟨⟨row.assignment, row.link, none⟩, mem_applicableRows.mpr ⟨stored, own, backup, rfl, rest⟩,
      mem_joinBackupSettings.mpr ⟨rfl, rfl, settings⟩⟩

theorem Row.Joined.same (joined : row.Joined db) (joined' : other.Joined db)
    (policy : row.assignment.configPolicyId = other.assignment.configPolicyId) :
    row.link = other.link ∧ row.backupSettings = other.backupSettings := by
  have link : row.link = other.link := by
    refine inj_on_of_nodup_map db.linkOfType joined.link joined'.link (Prod.ext ?_ ?_)
    · exact joined.policy.trans (policy.trans joined'.policy.symm)
    · exact joined.backup.trans joined'.backup.symm
  refine ⟨link, ?_⟩
  have settings := joined.settings
  have settings' := joined'.settings
  rw [link] at settings
  cases given : row.backupSettings with
  | none =>
    rw [given] at settings
    cases given' : other.backupSettings with
    | none => rfl
    | some t =>
      rw [given'] at settings'
      exact absurd settings'.2 (settings t settings'.1)
  | some t =>
    rw [given] at settings
    cases given' : other.backupSettings with
    | none =>
      rw [given'] at settings'
      exact absurd settings.2 (settings' t settings.1)
    | some t' =>
      rw [given'] at settings'
      exact congrArg some (inj_on_of_nodup_map db.settingsOfLink settings.1 settings'.1
        (settings.2.trans settings'.2.symm))

theorem Row.Joined.eq (joined : row.Joined db) (joined' : other.Joined db)
    (assignment : row.assignment = other.assignment) : row = other := by
  obtain ⟨link, settings⟩ := joined.same joined' (congrArg _ assignment)
  obtain ⟨a, l, s⟩ := row
  obtain ⟨a', l', s'⟩ := other
  exact Row.mk.injEq .. ▸ ⟨assignment, link, settings⟩

theorem Backs.exists_row (backs : Backs db owned a) : ∃ row : Row, row.Joined db ∧ row.assignment = a := by
  obtain ⟨-, l, stored, own, backup⟩ := backs
  cases found : db.configPolicyBackupSettings.find? (·.featureLinkId = l.id) with
  | none =>
    refine ⟨⟨a, l, none⟩, ⟨stored, own, backup, fun t member same => ?_⟩, rfl⟩
    exact find?_eq_none.mp found t member (decide_eq_true same)
  | some t =>
    have own' := find?_some found
    exact ⟨⟨a, l, some t⟩, ⟨stored, own, backup, mem_of_find?_eq_some found, of_decide_eq_true own'⟩, rfl⟩

theorem Row.Joined.backs (joined : row.Joined db) (assigned : AssignedBy db owned row.assignment) :
    Backs db owned row.assignment := ⟨assigned, row.link, joined.link, joined.policy, joined.backup⟩

end Joined

section Winners
variable {db : Database} {hierarchy : DeviceHierarchy} {orgId deviceId : ℕ} {rows : List Row} {row : Row}
  {Q : ConfigPolicyAssignment → Prop}

def resolved (row : Row) : ResolvedBackupConfig :=
  ⟨row.backupSettings, row.link.id, row.link.featurePolicyId, row.link.inlineSettings⟩

def Applies (db : Database) (hierarchy : DeviceHierarchy) (a : ConfigPolicyAssignment) : Prop :=
  Backs db (policyOwnershipCondition hierarchy) a ∧ buildTargetConditions hierarchy a = true ∧
    buildRoleOsFilterConditions hierarchy a = true

/-- The organisation's own backup assignments that expand to a device. -/
def Expands (db : Database) (orgId deviceId : ℕ) (a : ConfigPolicyAssignment) : Prop :=
  Backs db (fun p => p.orgId = some orgId) a ∧ deviceId ∈ assignedDeviceIds db orgId a

theorem joined_strict (joined : ∀ r ∈ rows, r.Joined db ∧ r.assignment ∈ db.configPolicyAssignments) :
    ∀ r ∈ rows, ∀ s ∈ rows, rowLe r s → rowLe s r → r = s := by
  intro r first s second le ge
  obtain ⟨joined₁, stored₁⟩ := joined r first
  obtain ⟨joined₂, stored₂⟩ := joined s second
  exact joined₁.eq joined₂ (db.assignment_eq stored₁ stored₂ (createdAt_eq le ge))

theorem least_iff_closest (kind : ∀ r : Row, r ∈ rows ↔ r.Joined db ∧ Q r.assignment)
    (joins : ∀ a, Q a → ∃ r : Row, r.Joined db ∧ r.assignment = a) :
    (row ∈ rows ∧ ∀ r ∈ rows, rowLe row r) ↔ row.Joined db ∧ Closest Q row.assignment := by
  constructor
  · rintro ⟨member, least⟩
    obtain ⟨joined, fits⟩ := (kind row).mp member
    refine ⟨joined, fits, fun b holds => ?_⟩
    obtain ⟨r, joined', rfl⟩ := joins b holds
    exact compareByHierarchy_le_iff.mp (least r ((kind r).mpr ⟨joined', holds⟩))
  · rintro ⟨joined, fits, closest⟩
    refine ⟨(kind row).mpr ⟨joined, fits⟩, fun r member => compareByHierarchy_le_iff.mpr ?_⟩
    exact closest _ ((kind r).mp member).2

theorem mem_rows_applies : row ∈ (applicableRows db hierarchy .backup).flatMap (joinBackupSettings db) ↔
    row.Joined db ∧ Applies db hierarchy row.assignment := by
  rw [mem_applicableBackupRows]
  constructor
  · rintro ⟨joined, assigned, target, admits⟩
    exact ⟨joined, joined.backs assigned, target, admits⟩
  · rintro ⟨joined, backs, target, admits⟩
    exact ⟨joined, backs.1, target, admits⟩

theorem resolveBackupConfigForDevice_eq_some_iff {c : ResolvedBackupConfig} :
    resolveBackupConfigForDevice db deviceId = some c ↔ ∃ hierarchy, loadDeviceHierarchy db deviceId = some hierarchy ∧
      ∃ row : Row, (row.Joined db ∧ Closest (Applies db hierarchy) row.assignment) ∧ resolved row = c := by
  rw [resolveBackupConfigForDevice, bind_eq_some_iff]
  refine exists_congr fun hierarchy => and_congr_right fun _ => ?_
  rw [map_eq_some_iff]
  refine exists_congr fun row => and_congr_left fun _ => ?_
  have kind : ∀ r : Row, r ∈ ((applicableRows db hierarchy .backup).flatMap (joinBackupSettings db)).insertionSort
      queryLe ↔ r.Joined db ∧ Applies db hierarchy r.assignment := by
    intro r
    rw [mem_insertionSort, mem_rows_applies]
  rw [sortByHierarchy, head?_insertionSort_eq_some_iff, least_iff_closest kind fun a applies => applies.1.exists_row]
  exact joined_strict fun r member => ((kind r).mp member).imp id fun applies => applies.1.1.1

/-- A device has the configuration of the closest assignment that applies to it, and none if none applies. -/
theorem resolveBackupConfigForDevice_closest :
    match resolveBackupConfigForDevice db deviceId with
    | some c => ∃ hierarchy, ∃ row : Row, loadDeviceHierarchy db deviceId = some hierarchy ∧ row.Joined db ∧
        Closest (Applies db hierarchy) row.assignment ∧ resolved row = c
    | none => ∀ hierarchy a, loadDeviceHierarchy db deviceId = some hierarchy → ¬Applies db hierarchy a := by
  split
  · next c found =>
    obtain ⟨hierarchy, loaded, row, ⟨joined, closest⟩, same⟩ := resolveBackupConfigForDevice_eq_some_iff.mp found
    exact ⟨hierarchy, row, loaded, joined, closest, same⟩
  · next missing =>
    intro hierarchy a loaded applies
    obtain ⟨c, closest⟩ := exists_closest (fun _ applies => applies.1.1.1) applies
    obtain ⟨row, joined, rfl⟩ := closest.1.1.exists_row
    have found := resolveBackupConfigForDevice_eq_some_iff.mpr ⟨hierarchy, loaded, row, ⟨joined, closest⟩, rfl⟩
    cases missing.symm.trans found

theorem mem_resolveAllBackupAssignedDevices {entry : BackupAssignedDevice} :
    entry ∈ resolveAllBackupAssignedDevices db orgId ↔
      ∃ row : Row, (row.Joined db ∧ Closest (Expands db orgId entry.deviceId) row.assignment) ∧
        assignedDevice row entry.deviceId = entry := by
  rw [resolveAllBackupAssignedDevices, mem_firstOfEach, find?_flatMap_map fun _ _ => rfl, map_eq_some_iff]
  refine exists_congr fun row => and_congr_left fun _ => ?_
  have kind : ∀ r : Row, r ∈ orgBackupRows db orgId ↔
      r.Joined db ∧ Backs db (fun p => p.orgId = some orgId) r.assignment := by
    intro r
    rw [mem_orgBackupRows]
    exact and_congr_right fun joined => ⟨joined.backs, And.left⟩
  have strict := joined_strict fun r member => ((kind r).mp member).imp id fun backs => backs.1.1
  rw [sortByHierarchy, find?_insertionSort_eq_some_iff strict]
  have kind' : ∀ r : Row, r ∈ (orgBackupRows db orgId).filter
      (fun r => entry.deviceId ∈ assignedDeviceIds db orgId r.assignment) ↔
        r.Joined db ∧ Expands db orgId entry.deviceId r.assignment := by
    intro r
    rw [mem_filter, kind, decide_eq_true_eq, and_assoc]
    rfl
  rw [← least_iff_closest kind' fun a expands => expands.1.exists_row]
  simp only [mem_filter, and_imp, and_assoc, decide_eq_true_eq]

end Winners

section Reach
variable {db : Database} {hierarchy : DeviceHierarchy} {orgId deviceId : ℕ} {a : ConfigPolicyAssignment}

def InOrg (db : Database) (orgId deviceId : ℕ) : Prop := ∃ d ∈ db.devices, d.id = deviceId ∧ d.orgId = orgId

theorem Database.device_eq (db : Database) {d e : Device} (first : d ∈ db.devices) (second : e ∈ db.devices)
    (same : d.id = e.id) : d = e := inj_on_of_nodup_map db.deviceKey first second same

theorem loadDeviceHierarchy_eq_some_iff : loadDeviceHierarchy db deviceId = some hierarchy ↔
    ∃ d ∈ db.devices, d.id = deviceId ∧ hierarchy =
      { deviceId := d.id
        orgId := d.orgId
        siteId := d.siteId
        partnerId := (db.organizations.find? (·.id = d.orgId)).map (·.partnerId)
        groupIds := (db.deviceGroupMemberships.filter (·.deviceId = deviceId)).map (·.groupId)
        deviceRole := d.deviceRole
        osType := d.osType } := by
  rw [loadDeviceHierarchy, map_eq_some_iff]
  simp only [find?_key_eq_some_iff db.deviceKey, and_assoc, eq_comm (b := hierarchy)]

theorem inOrg_iff : InOrg db orgId deviceId ↔
    ∃ hierarchy, loadDeviceHierarchy db deviceId = some hierarchy ∧ hierarchy.orgId = orgId := by
  constructor
  · rintro ⟨d, member, same, own⟩
    exact ⟨_, loadDeviceHierarchy_eq_some_iff.mpr ⟨d, member, same, rfl⟩, own⟩
  · rintro ⟨hierarchy, loaded, own⟩
    obtain ⟨d, member, same, rfl⟩ := loadDeviceHierarchy_eq_some_iff.mp loaded
    exact ⟨d, member, same, own⟩

theorem partnerId_eq_some_iff {t : ℕ} : (db.organizations.find? (·.id = orgId)).map (·.partnerId) = some t ↔
    ∃ o ∈ db.organizations, o.id = orgId ∧ o.partnerId = t := by
  simp only [map_eq_some_iff, find?_key_eq_some_iff db.organizationKey, and_assoc]

theorem mem_groupIds : a.targetId ∈ (db.deviceGroupMemberships.filter (·.deviceId = deviceId)).map (·.groupId) ↔
    deviceId ∈ (db.deviceGroupMemberships.filter (·.groupId = a.targetId)).map (·.deviceId) := by
  simp only [List.mem_map, mem_filter, decide_eq_true_eq]
  exact exists_congr fun m => by rw [and_assoc, and_assoc, and_comm (a := m.deviceId = deviceId)]

theorem mem_assignedDeviceIds (loaded : loadDeviceHierarchy db deviceId = some hierarchy)
    (own : hierarchy.orgId = orgId) :
    deviceId ∈ assignedDeviceIds db orgId a ↔ buildTargetConditions hierarchy a = true := by
  obtain ⟨d, member, rfl, rfl⟩ := loadDeviceHierarchy_eq_some_iff.mp loaded
  obtain rfl : d.orgId = orgId := own
  unfold assignedDeviceIds buildTargetConditions
  cases a.level with
  | device =>
    rw [mem_singleton, decide_eq_true_eq]
    exact eq_comm
  | deviceGroup => rw [decide_eq_true_eq, mem_groupIds]
  | site =>
    simp only [List.mem_map, mem_filter, Bool.and_eq_true, decide_eq_true_eq]
    constructor
    · rintro ⟨e, ⟨stored, site, -⟩, same⟩
      rw [← site, db.device_eq stored member same]
    · exact fun site => ⟨d, ⟨member, site.symm, rfl⟩, rfl⟩
  | organization =>
    simp only [List.mem_map, mem_filter, decide_eq_true_eq]
    constructor
    · rintro ⟨e, ⟨stored, org⟩, same⟩
      rw [← org, db.device_eq stored member same]
    · exact fun org => ⟨d, ⟨member, org.symm⟩, rfl⟩
  | partner =>
    simp only [mem_flatMap, List.mem_map, mem_filter, Bool.and_eq_true, decide_eq_true_eq, partnerId_eq_some_iff]
    constructor
    · rintro ⟨e, stored, o, ⟨organization, ⟨home, partner⟩, -⟩, same⟩
      rw [db.device_eq stored member same] at home
      exact ⟨o, organization, home.symm, partner⟩
    · rintro ⟨o, organization, home, partner⟩
      exact ⟨d, member, o, ⟨organization, ⟨home.symm, partner⟩, rfl⟩, rfl⟩

theorem mem_candidateDeviceIds (loaded : loadDeviceHierarchy db deviceId = some hierarchy)
    (target : buildTargetConditions hierarchy a = true) : deviceId ∈ candidateDeviceIds db a := by
  obtain ⟨d, member, rfl, rfl⟩ := loadDeviceHierarchy_eq_some_iff.mp loaded
  unfold buildTargetConditions at target
  unfold candidateDeviceIds
  cases level : a.level with
  | device =>
    rw [level] at target
    exact mem_singleton.mpr (of_decide_eq_true target).symm
  | deviceGroup =>
    rw [level] at target
    exact mem_groupIds.mp (of_decide_eq_true target)
  | site | organization =>
    rw [level] at target
    exact List.mem_map.mpr ⟨d, mem_filter.mpr ⟨member, decide_eq_true (of_decide_eq_true target).symm⟩, rfl⟩
  | partner =>
    rw [level] at target
    obtain ⟨o, organization, home, partner⟩ := partnerId_eq_some_iff.mp (of_decide_eq_true target)
    refine List.mem_map.mpr ⟨d, mem_filter.mpr ⟨member, decide_eq_true (List.mem_map.mpr ?_)⟩, rfl⟩
    exact ⟨o, mem_filter.mpr ⟨organization, decide_eq_true partner⟩, home⟩

/-- The assignment expands to devices of the organisation only. -/
def StaysIn (db : Database) (orgId : ℕ) (a : ConfigPolicyAssignment) : Prop :=
  match a.level with
  | .device => InOrg db orgId a.targetId
  | .deviceGroup => ∀ m ∈ db.deviceGroupMemberships, m.groupId = a.targetId → InOrg db orgId m.deviceId
  | .organization => ∀ d ∈ db.devices, d.orgId = a.targetId → d.orgId = orgId
  | .site | .partner => True

theorem staysIn_iff : StaysIn db orgId a ↔ ∀ id ∈ assignedDeviceIds db orgId a, InOrg db orgId id := by
  unfold StaysIn assignedDeviceIds
  cases a.level with
  | device => simp only [mem_singleton, forall_eq]
  | deviceGroup =>
    simp only [List.mem_map, mem_filter, decide_eq_true_eq]
    constructor
    · rintro stays id ⟨m, ⟨stored, group⟩, rfl⟩
      exact stays m stored group
    · intro stays m stored group
      exact stays _ ⟨m, ⟨stored, group⟩, rfl⟩
  | site =>
    simp only [List.mem_map, mem_filter, Bool.and_eq_true, decide_eq_true_eq, true_iff]
    rintro id ⟨d, ⟨stored, -, own⟩, same⟩
    exact ⟨d, stored, same, own⟩
  | organization =>
    simp only [List.mem_map, mem_filter, decide_eq_true_eq]
    constructor
    · rintro stays id ⟨d, ⟨stored, org⟩, same⟩
      exact ⟨d, stored, same, stays d stored org⟩
    · intro stays d stored org
      obtain ⟨e, stored', same, own⟩ := stays d.id ⟨d, ⟨stored, org⟩, rfl⟩
      rw [← own, db.device_eq stored' stored same]
  | partner =>
    simp only [mem_flatMap, List.mem_map, mem_filter, Bool.and_eq_true, decide_eq_true_eq, true_iff]
    rintro id ⟨d, stored, -, ⟨-, -, own⟩, same⟩
    exact ⟨d, stored, same, own⟩

end Reach

end RemudaRmm.Policies
