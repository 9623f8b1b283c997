import RemudaRmm.Foundation.FirstWins
import RemudaRmm.Foundation.Text

/-! Which configuration policy governs a device (`featureConfigResolver.ts`): the resolvers of backup and software
policies for one device, and their batch resolvers. -/
namespace RemudaRmm.Policies
open Foundation

inductive ConfigAssignmentLevel
  | partner | organization | site | deviceGroup | device
  deriving DecidableEq

inductive ConfigPolicyStatus
  | active | inactive | archived
  deriving DecidableEq

inductive ConfigFeatureType
  | patch | alertRule | backup | security | monitoring | maintenance | compliance | automation | eventLog
  | softwarePolicy | sensitiveData | peripheralControl | warranty | helper | remoteAccess | pam | onedriveHelper
  deriving DecidableEq

inductive BackupMode
  | file | hyperv | mssql | systemImage
  deriving DecidableEq

structure Device where
  (id orgId siteId : ℕ)
  (deviceRole osType : Text)

structure Organization where
  (id partnerId : ℕ)

structure DeviceGroupMembership where
  (deviceId groupId : ℕ)

structure ConfigurationPolicy where
  id : ℕ
  (orgId partnerId : Option ℕ)
  status : ConfigPolicyStatus

structure ConfigPolicyFeatureLink where
  (id configPolicyId : ℕ)
  featureType : ConfigFeatureType
  featurePolicyId : Option ℕ
  inlineSettings : Option Text

structure ConfigPolicyBackupSettings where
  (id featureLinkId orgId : ℕ)
  (schedule retention paths : Text)
  backupMode : BackupMode
  targets : Text
  deriving DecidableEq

structure ConfigPolicyAssignment where
  (id configPolicyId : ℕ)
  level : ConfigAssignmentLevel
  targetId : ℕ
  priority : ℤ
  roleFilter : Option (List Text)
  osFilter : Option (List Text)
  createdAt : ℤ
  deriving DecidableEq

/-- The tables, with the unique indexes that the resolvers rely on; no two assignments are as old as each other. -/
structure Database where
  devices : List Device
  organizations : List Organization
  deviceGroupMemberships : List DeviceGroupMembership
  configurationPolicies : List ConfigurationPolicy
  configPolicyFeatureLinks : List ConfigPolicyFeatureLink
  configPolicyBackupSettings : List ConfigPolicyBackupSettings
  configPolicyAssignments : List ConfigPolicyAssignment
  deviceKey : (devices.map (·.id)).Nodup
  organizationKey : (organizations.map (·.id)).Nodup
  policyKey : (configurationPolicies.map (·.id)).Nodup
  linkKey : (configPolicyFeatureLinks.map (·.id)).Nodup
  linkOfType : (configPolicyFeatureLinks.map fun l => (l.configPolicyId, l.featureType)).Nodup
  settingsOfLink : (configPolicyBackupSettings.map (·.featureLinkId)).Nodup
  createdApart : (configPolicyAssignments.map (·.createdAt)).Nodup

structure DeviceHierarchy where
  (deviceId orgId siteId : ℕ)
  partnerId : Option ℕ
  groupIds : List ℕ
  (deviceRole osType : Text)

section Conditions
variable (hierarchy : DeviceHierarchy)

def buildRoleOsFilterConditions (assignment : ConfigPolicyAssignment) : Bool :=
  assignment.roleFilter.all (hierarchy.deviceRole ∈ ·) && assignment.osFilter.all (hierarchy.osType ∈ ·)

def policyOwnershipCondition (policy : ConfigurationPolicy) : Bool :=
  match hierarchy.partnerId with
  | some partnerId =>
    policy.orgId = some hierarchy.orgId || (policy.orgId = none && policy.partnerId = some partnerId)
  | none => policy.orgId = some hierarchy.orgId

def buildTargetConditions (assignment : ConfigPolicyAssignment) : Bool :=
  match assignment.level with
  | .device => assignment.targetId = hierarchy.deviceId
  | .deviceGroup => assignment.targetId ∈ hierarchy.groupIds
  | .site => assignment.targetId = hierarchy.siteId
  | .organization => assignment.targetId = hierarchy.orgId
  | .partner => hierarchy.partnerId = some assignment.targetId

end Conditions

/-- A row of the joined tables. -/
structure Row where
  assignment : ConfigPolicyAssignment
  link : ConfigPolicyFeatureLink
  backupSettings : Option ConfigPolicyBackupSettings

def LEVEL_PRIORITY : ConfigAssignmentLevel → ℤ
  | .device => 5
  | .deviceGroup => 4
  | .site => 3
  | .organization => 2
  | .partner => 1

def compareByHierarchy (a b : ConfigPolicyAssignment) : ℤ :=
  if LEVEL_PRIORITY b.level - LEVEL_PRIORITY a.level ≠ 0 then LEVEL_PRIORITY b.level - LEVEL_PRIORITY a.level
  else if a.priority - b.priority ≠ 0 then a.priority - b.priority
  else a.createdAt - b.createdAt

def rowLe (r s : Row) : Prop := compareByHierarchy r.assignment s.assignment ≤ 0

instance : DecidableRel rowLe := fun _ _ => inferInstanceAs (Decidable (_ ≤ _))

def sortByHierarchy (rows : List Row) : List Row := rows.insertionSort rowLe

/-- `ORDER BY level, priority, createdAt`; the enumeration lists the levels by their priority. -/
def queryLe (r s : Row) : Prop :=
  LEVEL_PRIORITY r.assignment.level < LEVEL_PRIORITY s.assignment.level ∨
    r.assignment.level = s.assignment.level ∧ (r.assignment.priority < s.assignment.priority ∨
      r.assignment.priority = s.assignment.priority ∧ r.assignment.createdAt ≤ s.assignment.createdAt)

instance : DecidableRel queryLe := fun _ _ => inferInstanceAs (Decidable (_ ∨ _))

section Resolvers
variable (db : Database)

def loadDeviceHierarchy (deviceId : ℕ) : Option DeviceHierarchy :=
  (db.devices.find? (·.id = deviceId)).map fun device =>
    { deviceId := device.id
      orgId := device.orgId
      siteId := device.siteId
      partnerId := (db.organizations.find? (·.id = device.orgId)).map (·.partnerId)
      groupIds := (db.deviceGroupMemberships.filter (·.deviceId = deviceId)).map (·.groupId)
      deviceRole := device.deviceRole
      osType := device.osType }

/-- The joined rows of the assignments that apply to a device. -/
def applicableRows (hierarchy : DeviceHierarchy) (featureType : ConfigFeatureType) : List Row :=
  (db.configPolicyAssignments.filter fun a =>
    buildTargetConditions hierarchy a && buildRoleOsFilterConditions hierarchy a).flatMap fun a =>
    (db.configurationPolicies.filter fun p =>
      a.configPolicyId = p.id && p.status = .active && policyOwnershipCondition hierarchy p).flatMap fun p =>
      (db.configPolicyFeatureLinks.filter fun l => l.configPolicyId = p.id && l.featureType = featureType).map
        fun l => ⟨a, l, none⟩

def joinBackupSettings (row : Row) : List Row :=
  match db.configPolicyBackupSettings.filter (·.featureLinkId = row.link.id) with
  | [] => [row]
  | found => found.map fun settings => { row with backupSettings := some settings }

structure ResolvedBackupConfig where
  settings : Option ConfigPolicyBackupSettings
  featureLinkId : ℕ
  configId : Option ℕ
  inlineSettings : Option Text

def resolveBackupConfigForDevice (deviceId : ℕ) : Option ResolvedBackupConfig :=
  (loadDeviceHierarchy db deviceId).bind fun hierarchy =>
    (sortByHierarchy (((applicableRows db hierarchy .backup).flatMap (joinBackupSettings db)).insertionSort
      queryLe)).head?.map fun winner =>
        ⟨winner.backupSettings, winner.link.id, winner.link.featurePolicyId, winner.link.inlineSettings⟩

def resolveSoftwarePolicyForDevice (deviceId : ℕ) : Option ℕ :=
  (loadDeviceHierarchy db deviceId).bind fun hierarchy =>
    (sortByHierarchy ((applicableRows db hierarchy .softwarePolicy).insertionSort queryLe)).head?.bind fun winner =>
      winner.link.featurePolicyId

/-- The devices that an assignment of any organisation expands to. -/
def candidateDeviceIds (assignment : ConfigPolicyAssignment) : List ℕ :=
  match assignment.level with
  | .device => [assignment.targetId]
  | .deviceGroup => (db.deviceGroupMemberships.filter (·.groupId = assignment.targetId)).map (·.deviceId)
  | .site => (db.devices.filter (·.siteId = assignment.targetId)).map (·.id)
  | .organization => (db.devices.filter (·.orgId = assignment.targetId)).map (·.id)
  | .partner =>
    let orgs := (db.organizations.filter (·.partnerId = assignment.targetId)).map (·.id)
    (db.devices.filter (·.orgId ∈ orgs)).map (·.id)

/-- The batches in which the candidates are verified do not matter. -/
def resolveDeviceIdsForSoftwarePolicy (softwarePolicyId : ℕ) : List ℕ :=
  let links := db.configPolicyFeatureLinks.filter fun l =>
    l.featureType = .softwarePolicy && l.featurePolicyId = some softwarePolicyId &&
      db.configurationPolicies.any fun p => l.configPolicyId = p.id && p.status = .active
  let configPolicyIds := links.map (·.configPolicyId)
  let assignments := db.configPolicyAssignments.filter (·.configPolicyId ∈ configPolicyIds)
  (firstOfEach id (assignments.flatMap (candidateDeviceIds db))).filter fun deviceId =>
    resolveSoftwarePolicyForDevice db deviceId = some softwarePolicyId

structure BackupAssignedDevice where
  (deviceId featureLinkId : ℕ)
  configId : Option ℕ
  settings : Option ConfigPolicyBackupSettings
  deriving DecidableEq

/-- The joined rows of the assignments of an organisation's own policies. -/
def orgBackupRows (orgId : ℕ) : List Row :=
  (db.configPolicyFeatureLinks.filter (·.featureType = .backup)).flatMap fun l =>
    (db.configurationPolicies.filter fun p =>
      l.configPolicyId = p.id && p.status = .active && p.orgId = some orgId).flatMap fun p =>
      (db.configPolicyAssignments.filter (·.configPolicyId = p.id)).flatMap fun a => joinBackupSettings db ⟨a, l, none⟩

def assignedDeviceIds (orgId : ℕ) (assignment : ConfigPolicyAssignment) : List ℕ :=
  match assignment.level with
  | .device => [assignment.targetId]
  | .deviceGroup => (db.deviceGroupMemberships.filter (·.groupId = assignment.targetId)).map (·.deviceId)
  | .site => (db.devices.filter fun d => d.siteId = assignment.targetId && d.orgId = orgId).map (·.id)
  | .organization => (db.devices.filter (·.orgId = assignment.targetId)).map (·.id)
  | .partner => db.devices.flatMap fun d =>
    (db.organizations.filter fun o =>
      d.orgId = o.id && o.partnerId = assignment.targetId && d.orgId = orgId).map fun _ => d.id

def assignedDevice (row : Row) (deviceId : ℕ) : BackupAssignedDevice :=
  ⟨deviceId, row.link.id, row.link.featurePolicyId, row.backupSettings⟩

def resolveAllBackupAssignedDevices (orgId : ℕ) : List BackupAssignedDevice :=
  firstOfEach BackupAssignedDevice.deviceId
    ((sortByHierarchy (orgBackupRows db orgId)).flatMap fun row =>
      (assignedDeviceIds db orgId row.assignment).map (assignedDevice row))

end Resolvers

end RemudaRmm.Policies
