import RemudaRmm.Policies.ClosestAssignment

/-! Where the batch resolvers agree with the resolvers for one device. That of software policies asks the resolver for
one device and always agrees; that of backups reads the organisation's own policies and none of the filters. -/
namespace RemudaRmm.Policies
open Foundation List Option

section Backups
variable {db : Database} {hierarchy : DeviceHierarchy} {orgId deviceId : ℕ} {a b s w : ConfigPolicyAssignment}

/-- The batch lists each device of the organisation that is given a backup configuration, with that configuration. -/
structure BackupsAgree (db : Database) (orgId : ℕ) : Prop where
  listed : ∀ entry, entry ∈ resolveAllBackupAssignedDevices db orgId ↔ InOrg db orgId entry.deviceId ∧
    ∃ c, resolveBackupConfigForDevice db entry.deviceId = some c ∧ c.featureLinkId = entry.featureLinkId ∧
      c.configId = entry.configId ∧ c.settings = entry.settings
  once : ((resolveAllBackupAssignedDevices db orgId).map BackupAssignedDevice.deviceId).Nodup

def SamePolicy (db : Database) (orgId deviceId : ℕ) (hierarchy : DeviceHierarchy) : Prop :=
  (∀ w, Closest (Expands db orgId deviceId) w →
      ∃ s, Closest (Applies db hierarchy) s ∧ s.configPolicyId = w.configPolicyId) ∧
    ∀ s, Closest (Applies db hierarchy) s →
      ∃ w, Closest (Expands db orgId deviceId) w ∧ s.configPolicyId = w.configPolicyId

theorem Row.Joined.policy_eq {row other : Row} (joined : row.Joined db) (joined' : other.Joined db)
    (link : row.link.id = other.link.id) : row.assignment.configPolicyId = other.assignment.configPolicyId := by
  have same : row.link = other.link := inj_on_of_nodup_map db.linkKey joined.link joined'.link link
  exact joined.policy.symm.trans ((congrArg _ same).trans joined'.policy)

theorem backupsAgree_iff : BackupsAgree db orgId ↔
    (∀ deviceId a, Expands db orgId deviceId a → InOrg db orgId deviceId) ∧
      ∀ deviceId hierarchy, loadDeviceHierarchy db deviceId = some hierarchy → hierarchy.orgId = orgId →
        SamePolicy db orgId deviceId hierarchy := by
  constructor
  · intro agree
    constructor
    · intro deviceId a expands
      obtain ⟨w, closest⟩ := exists_closest (fun x holds => holds.1.1.1) expands
      obtain ⟨row, joined, rfl⟩ := closest.1.1.exists_row
      exact ((agree.listed (assignedDevice row deviceId)).mp
        (mem_resolveAllBackupAssignedDevices.mpr ⟨row, ⟨joined, closest⟩, rfl⟩)).1
    · intro deviceId hierarchy loaded own
      constructor
      · intro w closest
        obtain ⟨row, joined, rfl⟩ := closest.1.1.exists_row
        obtain ⟨-, c, given, link, -⟩ := (agree.listed (assignedDevice row deviceId)).mp
          (mem_resolveAllBackupAssignedDevices.mpr ⟨row, ⟨joined, closest⟩, rfl⟩)
        obtain ⟨hierarchy', loaded', other, ⟨joined', closest'⟩, rfl⟩ :=
          resolveBackupConfigForDevice_eq_some_iff.mp given
        cases loaded.symm.trans loaded'
        exact ⟨other.assignment, closest', joined'.policy_eq joined link⟩
      · intro s closest
        obtain ⟨row, joined, rfl⟩ := closest.1.1.exists_row
        have member : assignedDevice row deviceId ∈ resolveAllBackupAssignedDevices db orgId := by
          refine (agree.listed _).mpr ⟨inOrg_iff.mpr ⟨hierarchy, loaded, own⟩, resolved row, ?_, rfl, rfl, rfl⟩
          exact resolveBackupConfigForDevice_eq_some_iff.mpr ⟨hierarchy, loaded, row, ⟨joined, closest⟩, rfl⟩
        obtain ⟨other, ⟨joined', closest'⟩, same⟩ := mem_resolveAllBackupAssignedDevices.mp member
        refine ⟨other.assignment, closest', joined.policy_eq joined' ?_⟩
        exact congrArg BackupAssignedDevice.featureLinkId same.symm
  · rintro ⟨ours, policies⟩
    refine ⟨fun entry => ?_, nodup_firstOfEach _⟩
    rw [mem_resolveAllBackupAssignedDevices]
    constructor
    · rintro ⟨row, ⟨joined, closest⟩, same⟩
      have home := ours _ _ closest.1
      refine ⟨home, ?_⟩
      obtain ⟨hierarchy, loaded, own⟩ := inOrg_iff.mp home
      obtain ⟨s, closest', policy⟩ := (policies _ hierarchy loaded own).1 _ closest
      obtain ⟨other, joined', rfl⟩ := closest'.1.1.exists_row
      obtain ⟨link, settings⟩ := joined'.same joined policy
      refine ⟨resolved other, resolveBackupConfigForDevice_eq_some_iff.mpr
        ⟨hierarchy, loaded, other, ⟨joined', closest'⟩, rfl⟩, ?_⟩
      rw [← same]
      exact ⟨congrArg ConfigPolicyFeatureLink.id link, congrArg ConfigPolicyFeatureLink.featurePolicyId link, settings⟩
    · rintro ⟨home, c, given, link, config, settings⟩
      obtain ⟨hierarchy, loaded, row, ⟨joined, closest⟩, rfl⟩ := resolveBackupConfigForDevice_eq_some_iff.mp given
      obtain ⟨hierarchy', loaded', own⟩ := inOrg_iff.mp home
      cases loaded.symm.trans loaded'
      obtain ⟨w, closest', policy⟩ := (policies _ hierarchy loaded own).2 _ closest
      obtain ⟨other, joined', rfl⟩ := closest'.1.1.exists_row
      obtain ⟨link', settings'⟩ := joined.same joined' policy
      refine ⟨other, ⟨joined', closest'⟩, ?_⟩
      obtain ⟨id, linkId, configId, given⟩ := entry
      rw [assignedDevice, ← link', ← settings']
      exact BackupAssignedDevice.mk.injEq .. ▸ ⟨rfl, link, config, settings⟩

/-- A policy of the device's partner for all of its organisations. -/
def partnerWide (hierarchy : DeviceHierarchy) (p : ConfigurationPolicy) : Bool :=
  p.orgId = none && hierarchy.partnerId.isSome && p.partnerId = hierarchy.partnerId

theorem policyOwnershipCondition_iff {p : ConfigurationPolicy} : policyOwnershipCondition hierarchy p = true ↔
    p.orgId = some hierarchy.orgId ∨ partnerWide hierarchy p = true := by
  unfold policyOwnershipCondition partnerWide
  cases hierarchy.partnerId with
  | none =>
    simp only [decide_eq_true_eq, isSome_none, Bool.and_false, Bool.false_and, Bool.false_eq_true, or_false]
  | some partnerId => simp only [Bool.or_eq_true, Bool.and_eq_true, decide_eq_true_eq, isSome_some, and_true]

theorem backs_ownership : Backs db (policyOwnershipCondition hierarchy) a ↔
    Backs db (fun p => p.orgId = some hierarchy.orgId) a ∨ Backs db (partnerWide hierarchy) a := by
  constructor
  · rintro ⟨⟨stored, p, policy, same, active, owner⟩, link⟩
    rcases policyOwnershipCondition_iff.mp owner with own | partner
    · exact .inl ⟨⟨stored, p, policy, same, active, decide_eq_true own⟩, link⟩
    · exact .inr ⟨⟨stored, p, policy, same, active, partner⟩, link⟩
  · rintro (⟨⟨stored, p, policy, same, active, own⟩, link⟩ | ⟨⟨stored, p, policy, same, active, partner⟩, link⟩)
    · exact ⟨⟨stored, p, policy, same, active, policyOwnershipCondition_iff.mpr (.inl (of_decide_eq_true own))⟩, link⟩
    · exact ⟨⟨stored, p, policy, same, active, policyOwnershipCondition_iff.mpr (.inr partner)⟩, link⟩

theorem Backs.owner {owned owned' : ConfigurationPolicy → Bool} (backs : Backs db owned a) (backs' : Backs db owned' b)
    (policy : a.configPolicyId = b.configPolicyId) : ∃ p, owned p = true ∧ owned' p = true := by
  obtain ⟨⟨-, p, stored, same, -, owner⟩, -⟩ := backs
  obtain ⟨⟨-, q, stored', same', -, owner'⟩, -⟩ := backs'
  have one : p = q := inj_on_of_nodup_map db.policyKey stored stored'
    (same.symm.trans (policy.trans same'))
  exact ⟨p, owner, one ▸ owner'⟩

theorem not_partnerWide {p : ConfigurationPolicy} (own : p.orgId = some orgId) : partnerWide hierarchy p = false := by
  rw [partnerWide, own]
  rfl

end Backups

section Suffices
variable {db : Database} {hierarchy : DeviceHierarchy} {orgId deviceId : ℕ} {a b s w : ConfigPolicyAssignment}

/-- The organisation's own backup assignments that name the device or something it belongs to. -/
def Reaches (db : Database) (hierarchy : DeviceHierarchy) (a : ConfigPolicyAssignment) : Prop :=
  Backs db (fun p => p.orgId = some hierarchy.orgId) a ∧ buildTargetConditions hierarchy a = true

def Admits (db : Database) (hierarchy : DeviceHierarchy) (a : ConfigPolicyAssignment) : Prop :=
  Reaches db hierarchy a ∧ buildRoleOsFilterConditions hierarchy a = true

/-- What the batch passes over makes no difference: devices of other organisations, policies of the partner, filters. -/
structure BatchSuffices (db : Database) (orgId : ℕ) : Prop where
  ours : ∀ a, Backs db (fun p => p.orgId = some orgId) a → StaysIn db orgId a
  partner : ∀ deviceId hierarchy, loadDeviceHierarchy db deviceId = some hierarchy → hierarchy.orgId = orgId →
    ∀ a, Backs db (partnerWide hierarchy) a → buildTargetConditions hierarchy a = true →
      buildRoleOsFilterConditions hierarchy a = true → ∃ s, Admits db hierarchy s ∧ Before s a
  filters : ∀ deviceId hierarchy, loadDeviceHierarchy db deviceId = some hierarchy → hierarchy.orgId = orgId →
    ∀ w, Closest (Reaches db hierarchy) w → buildRoleOsFilterConditions hierarchy w = false →
      ∃ s, Closest (Admits db hierarchy) s ∧ s.configPolicyId = w.configPolicyId

theorem expands_iff_reaches (loaded : loadDeviceHierarchy db deviceId = some hierarchy) :
    Expands db hierarchy.orgId deviceId a ↔ Reaches db hierarchy a := by
  rw [Expands, mem_assignedDeviceIds loaded rfl]
  rfl

theorem closest_expands (loaded : loadDeviceHierarchy db deviceId = some hierarchy) :
    Closest (Expands db hierarchy.orgId deviceId) a ↔ Closest (Reaches db hierarchy) a := by
  unfold Closest
  simp only [expands_iff_reaches loaded]

theorem applies_iff : Applies db hierarchy a ↔ Admits db hierarchy a ∨
    Backs db (partnerWide hierarchy) a ∧ buildTargetConditions hierarchy a = true ∧
      buildRoleOsFilterConditions hierarchy a = true := by
  rw [Applies, backs_ownership, or_and_right, Admits, Reaches, and_assoc]

theorem Reaches.stored (reaches : Reaches db hierarchy a) : a ∈ db.configPolicyAssignments := reaches.1.1.1

theorem not_partner_of_reaches (reaches : Reaches db hierarchy a) (policy : b.configPolicyId = a.configPolicyId) :
    ¬Backs db (partnerWide hierarchy) b := by
  intro wide
  obtain ⟨p, wide', own⟩ := wide.owner reaches.1 policy
  rw [not_partnerWide (of_decide_eq_true own)] at wide'
  cases wide'

theorem samePolicy_iff (loaded : loadDeviceHierarchy db deviceId = some hierarchy) :
    SamePolicy db hierarchy.orgId deviceId hierarchy ↔
      (∀ a, Backs db (partnerWide hierarchy) a → buildTargetConditions hierarchy a = true →
        buildRoleOsFilterConditions hierarchy a = true → ∃ s, Admits db hierarchy s ∧ Before s a) ∧
      ∀ w, Closest (Reaches db hierarchy) w → buildRoleOsFilterConditions hierarchy w = false →
        ∃ s, Closest (Admits db hierarchy) s ∧ s.configPolicyId = w.configPolicyId := by
  unfold SamePolicy
  simp only [closest_expands loaded]
  constructor
  · rintro ⟨given, listed⟩
    constructor
    · intro a wide target admits
      obtain ⟨s, closest⟩ := exists_closest (fun x holds => holds.1.1.1) (applies_iff.mpr (.inr ⟨wide, target, admits⟩))
      obtain ⟨w, reaches, policy⟩ := listed s closest
      rcases applies_iff.mp closest.1 with own | ⟨partner, -⟩
      · refine ⟨s, own, (before_or_before own.1.stored wide.1.1 fun same => ?_).resolve_right ?_⟩
        · exact not_partner_of_reaches own.1 (congrArg _ same.symm) wide
        · exact closest.2 a (applies_iff.mpr (.inr ⟨wide, target, admits⟩))
      · exact absurd partner (not_partner_of_reaches reaches.1 policy)
    · intro w closest _
      obtain ⟨s, closest', policy⟩ := given w closest
      refine ⟨s, ⟨?_, fun b admits => closest'.2 b (applies_iff.mpr (.inl admits))⟩, policy⟩
      exact (applies_iff.mp closest'.1).resolve_right fun partner =>
        not_partner_of_reaches closest.1 policy partner.1
  · rintro ⟨partner, filters⟩
    have closest_of : ∀ s, Closest (Admits db hierarchy) s → Closest (Applies db hierarchy) s := by
      intro s closest
      refine ⟨applies_iff.mpr (.inl closest.1), fun b applies before => ?_⟩
      rcases applies_iff.mp applies with own | ⟨wide, target, admits⟩
      · exact closest.2 b own before
      · obtain ⟨c, own, earlier⟩ := partner b wide target admits
        exact closest.2 c own (earlier.trans before)
    constructor
    · intro w closest
      cases admits : buildRoleOsFilterConditions hierarchy w with
      | true =>
        exact ⟨w, closest_of w ⟨⟨closest.1, admits⟩, fun b own => closest.2 b own.1⟩, rfl⟩
      | false =>
        obtain ⟨s, closest', policy⟩ := filters w closest admits
        exact ⟨s, closest_of s closest', policy⟩
    · intro s closest
      have own : Admits db hierarchy s := by
        rcases applies_iff.mp closest.1 with own | ⟨wide, target, admits⟩
        · exact own
        · obtain ⟨c, own, earlier⟩ := partner s wide target admits
          exact absurd earlier (closest.2 c (applies_iff.mpr (.inl own)))
      obtain ⟨w, closest'⟩ := exists_closest (fun x holds => Reaches.stored holds) own.1
      refine ⟨w, closest', ?_⟩
      cases admits : buildRoleOsFilterConditions hierarchy w with
      | true =>
        have same : s = w := by
          by_contra apart
          rcases before_or_before own.1.stored closest'.1.stored apart with before | before
          · exact closest'.2 s own.1 before
          · exact closest.2 w (applies_iff.mpr (.inl ⟨closest'.1, admits⟩)) before
        rw [same]
      | false =>
        obtain ⟨t, closest'', policy⟩ := filters w closest' admits
        have same : s = t := by
          have closest_own : Closest (Admits db hierarchy) s :=
            ⟨own, fun b own' => closest.2 b (applies_iff.mpr (.inl own'))⟩
          exact closest_own.unique (fun x holds => holds.1.stored) closest''
        rw [same, policy]

theorem backupsAgree_iff_suffices : BackupsAgree db orgId ↔ BatchSuffices db orgId := by
  rw [backupsAgree_iff]
  constructor
  · rintro ⟨ours, policies⟩
    constructor
    case ours => exact fun a backs => staysIn_iff.mpr fun id expands => ours id a ⟨backs, expands⟩
    case partner =>
      rintro deviceId hierarchy loaded rfl
      exact ((samePolicy_iff loaded).mp (policies deviceId hierarchy loaded rfl)).1
    case filters =>
      rintro deviceId hierarchy loaded rfl
      exact ((samePolicy_iff loaded).mp (policies deviceId hierarchy loaded rfl)).2
  · rintro ⟨ours, partner, filters⟩
    refine ⟨fun deviceId a expands => staysIn_iff.mp (ours a expands.1) deviceId expands.2, ?_⟩
    rintro deviceId hierarchy loaded rfl
    exact (samePolicy_iff loaded).mpr ⟨partner deviceId hierarchy loaded rfl, filters deviceId hierarchy loaded rfl⟩

end Suffices

section Both
variable {db : Database} {orgId softwarePolicyId : ℕ}

/-- The batch lists each device that is given the software policy. -/
structure SoftwareAgrees (db : Database) (softwarePolicyId : ℕ) : Prop where
  listed : ∀ deviceId, deviceId ∈ resolveDeviceIdsForSoftwarePolicy db softwarePolicyId ↔
    resolveSoftwarePolicyForDevice db deviceId = some softwarePolicyId
  once : (resolveDeviceIdsForSoftwarePolicy db softwarePolicyId).Nodup

theorem softwareAgrees : SoftwareAgrees db softwarePolicyId where
  once := (nodup_firstOfEach_id _).filter _
  listed := by
    intro deviceId
    unfold resolveDeviceIdsForSoftwarePolicy
    rw [mem_filter, decide_eq_true_eq, mem_firstOfEach_id]
    refine ⟨And.right, fun given => ⟨?_, given⟩⟩
    -- the assignment that wins for the device is among those that the candidates come from
    obtain ⟨hierarchy, loaded, won⟩ := bind_eq_some_iff.mp given
    obtain ⟨row, head, policy⟩ := bind_eq_some_iff.mp won
    have member : row ∈ applicableRows db hierarchy .softwarePolicy := by
      have first := mem_of_mem_head? head
      rwa [sortByHierarchy, mem_insertionSort, mem_insertionSort] at first
    obtain ⟨stored, own, type, -, ⟨assigned, p, known, same, active, -⟩, target, -⟩ := mem_applicableRows.mp member
    refine mem_flatMap.mpr ⟨row.assignment, mem_filter.mpr ⟨assigned, decide_eq_true ?_⟩,
      mem_candidateDeviceIds loaded target⟩
    refine List.mem_map.mpr ⟨row.link, mem_filter.mpr ⟨stored, ?_⟩, own⟩
    have linked : db.configurationPolicies.any
        (fun p => row.link.configPolicyId = p.id && p.status = .active) = true :=
      List.any_eq_true.mpr ⟨p, known, by
        rw [decide_eq_true (own.trans same), decide_eq_true active, Bool.and_self]⟩
    rw [decide_eq_true type, decide_eq_true policy, linked]
    rfl

theorem batches_agree_iff (db : Database) (orgId softwarePolicyId : ℕ) :
    BackupsAgree db orgId ∧ SoftwareAgrees db softwarePolicyId ↔ BatchSuffices db orgId := by
  rw [and_iff_left softwareAgrees, backupsAgree_iff_suffices]

/-- A policy for the Windows devices of an organisation, which has a device with another system. -/
def sampleDatabase : Database where
  devices := [⟨1, 1, 1, "workstation".toList, "macos".toList⟩]
  organizations := [⟨1, 1⟩]
  deviceGroupMemberships := []
  configurationPolicies := [⟨1, some 1, none, .active⟩]
  configPolicyFeatureLinks := [⟨1, 1, .backup, some 1, none⟩]
  configPolicyBackupSettings := []
  configPolicyAssignments := [⟨1, 1, .organization, 1, 0, none, some ["windows".toList], 0⟩]
  deviceKey := by decide
  organizationKey := by decide
  policyKey := by decide
  linkKey := by decide
  linkOfType := by decide
  settingsOfLink := by decide
  createdApart := by decide

theorem filtered_device_listed :
    ¬∀ orgId softwarePolicyId, BackupsAgree sampleDatabase orgId ∧ SoftwareAgrees sampleDatabase softwarePolicyId := by
  intro agree
  have listed : (⟨1, 1, some 1, none⟩ : BackupAssignedDevice) ∈ resolveAllBackupAssignedDevices sampleDatabase 1 := by
    decide
  obtain ⟨-, c, given, -⟩ := ((agree 1 1).1.listed _).mp listed
  have nothing : resolveBackupConfigForDevice sampleDatabase 1 = none := by decide
  cases nothing.symm.trans given

end Both

end RemudaRmm.Policies
