import RemudaRmm.Agents.AgentChannel
import RemudaRmm.Foundation.FirstWins
import RemudaRmm.Foundation.Text

/-! What `POST /enroll` checks (`enrollment.ts`): the key and its secret, the tenant, and the device that has the
hostname already. -/
namespace RemudaRmm.Enrollment
open Foundation
open Agents (DeviceStatus)

inductive OrgStatus where
  | active | suspended | trial | churned
  deriving DecidableEq

inductive PartnerStatus where
  | pending | active | suspended | churned
  deriving DecidableEq

structure Organization where
  partnerId : ℕ
  status : OrgStatus
  deleted : Bool

structure Partner where
  status : PartnerStatus
  deleted : Bool
  maxDevices : Option ℕ

/-- The tenants, which nothing here writes. -/
structure Directory where
  organizations : ℕ → Option Organization
  partners : ℕ → Option Partner

structure EnrollmentKey where
  orgId : ℕ
  siteId : Option ℕ
  key : Text
  keySecretHash : Option Text
  usageCount : ℕ
  maxUsage : Option ℕ
  expiresAt : Option ℤ

structure Device where
  (orgId siteId : ℕ)
  hostname : Text
  status : DeviceStatus
  (agentTokenHash watchdogTokenHash helperTokenHash previousTokenHash : Option Text)
  (previousTokenExpiresAt agentTokenSuspendedAt : Option ℤ)

def Device.tokens (d : Device) : List (Option Text) := [d.agentTokenHash, d.watchdogTokenHash, d.helperTokenHash]

def Device.Active (d : Device) : Prop := d.status ≠ .decommissioned
  deriving Decidable

structure Settings where
  sha256 : Text → Text
  peppers : List Text
  agentEnrollmentSecret : Option Text
  (production warnOnly : Bool)
  idText : ℕ → Text

/-- The body of the request with the secret and the token that are found in it or in its headers, and the tokens that
are generated for it. -/
structure EnrollRequest where
  (enrollmentKey providedSecret existingDeviceToken hostname apiKey watchdogApiKey helperApiKey : Text)

inductive Refusal where
  | enrollmentKeyNotFound
  | enrollmentKeyExpired
  | enrollmentKeyExhausted
  | enrollmentSecretRequired
  | invalidEnrollmentSecret
  | noSite
  | tenantInactive
  | deviceQuarantined
  | existingDecommissionedRowHasSuspendedToken
  | hostnameCollisionRequiresExistingDeviceToken
  | deviceLimitReached
  | enrollmentKeyRaceLost
  | internalError
  deriving DecidableEq

def Refusal.status : Refusal → ℕ
  | .enrollmentKeyNotFound | .enrollmentKeyExpired | .enrollmentKeyExhausted | .enrollmentKeyRaceLost => 401
  | .enrollmentSecretRequired | .invalidEnrollmentSecret | .tenantInactive | .deviceQuarantined
  | .deviceLimitReached => 403
  | .existingDecommissionedRowHasSuspendedToken | .hostnameCollisionRequiresExistingDeviceToken => 409
  | .noSite => 400
  | .internalError => 500

/-- The `reason` of the response, or its `code`. -/
def Refusal.reason : Refusal → Option String
  | .enrollmentKeyNotFound => some "enrollment_key_not_found"
  | .enrollmentKeyExpired => some "enrollment_key_expired"
  | .enrollmentKeyExhausted => some "enrollment_key_exhausted"
  | .enrollmentKeyRaceLost => some "enrollment_key_race_lost"
  | .tenantInactive => some "tenant_inactive"
  | .deviceQuarantined => some "device_quarantined"
  | .existingDecommissionedRowHasSuspendedToken => some "existing_decommissioned_row_has_suspended_token"
  | .hostnameCollisionRequiresExistingDeviceToken => some "hostname_collision_requires_existing_device_token"
  | .deviceLimitReached => some "DEVICE_LIMIT_REACHED"
  | .enrollmentSecretRequired | .invalidEnrollmentSecret | .noSite | .internalError => none

section Checks
variable (s : Settings) (dir : Directory)

def hashEnrollmentKeyCandidates (enrollmentKey : Text) : List Text :=
  firstOfEach id (s.peppers.map fun pepper => s.sha256 (pepper ++ ":".toList ++ enrollmentKey))

def EnrollmentKey.expired (now : ℤ) (key : EnrollmentKey) : Bool := key.expiresAt.any (· ≤ now)

def EnrollmentKey.exhausted (key : EnrollmentKey) : Bool := key.maxUsage.any (· ≤ key.usageCount)

/-- The key's own secret, or else that of the deployment, or else none outside of production. -/
def secretRefusal (key : EnrollmentKey) (providedSecret : Text) : Option Refusal :=
  match key.keySecretHash.filter (· ≠ []), s.agentEnrollmentSecret with
  | some keySecretHash, _ =>
    if providedSecret = [] then some .enrollmentSecretRequired
    else if s.sha256 providedSecret ≠ keySecretHash then some .invalidEnrollmentSecret
    else none
  | none, some configuredSecret =>
    if providedSecret = [] then some .enrollmentSecretRequired
    else if s.sha256 providedSecret ≠ s.sha256 configuredSecret then some .invalidEnrollmentSecret
    else none
  | none, none => if s.production = true ∧ s.warnOnly = false then some .enrollmentSecretRequired else none

def checkKey (now : ℤ) (key : EnrollmentKey) (providedSecret : Text) : Except Refusal ℕ :=
  if key.expired now then .error .enrollmentKeyExpired
  else if key.exhausted then .error .enrollmentKeyExhausted
  else
    match secretRefusal s key providedSecret, key.siteId with
    | some refusal, _ => .error refusal
    | none, none => .error .noSite
    | none, some siteId => .ok siteId

def getActivePartner (partnerId : ℕ) : Bool :=
  (dir.partners partnerId).any fun partner => !partner.deleted && decide (partner.status = .active)

def getActiveOrgTenant (orgId : ℕ) : Bool :=
  (dir.organizations orgId).any fun org =>
    !org.deleted && decide (org.status = .active ∨ org.status = .trial) && getActivePartner dir org.partnerId

/-- The partner whose devices are counted, and the most that it may have. -/
def deviceLimit (orgId : ℕ) : Option (ℕ × ℕ) :=
  (dir.organizations orgId).bind fun org =>
    (dir.partners org.partnerId).bind fun partner => partner.maxDevices.map (org.partnerId, ·)

def tokenHashMatches (storedHash : Option Text) (presentedToken : Text) (now : ℤ) (expiresAt : Option ℤ) : Bool :=
  storedHash.any fun hash =>
    decide (hash ≠ []) && decide (presentedToken ≠ []) && expiresAt.all (fun time => decide (now < time)) &&
      decide (hash = s.sha256 presentedToken)

/-- The presented token is the device's current token or its unexpired previous one. -/
def proves (presentedToken : Text) (now : ℤ) (d : Device) : Bool :=
  tokenHashMatches s d.agentTokenHash presentedToken now none ||
    tokenHashMatches s d.previousTokenHash presentedToken now d.previousTokenExpiresAt

/-- Where the enrolled device goes: a new row, a new row in the place of a decommissioned one, or a row that is there
already. -/
inductive Placement where
  | fresh
  | replace (priorId : ℕ)
  | inPlace (deviceId : ℕ)
  deriving DecidableEq

def checkExisting (presentedToken : Text) (now : ℤ) (deviceId : ℕ) (d : Device) : Except Refusal Placement :=
  if d.status = .quarantined then .error .deviceQuarantined
  else if d.agentTokenSuspendedAt ≠ none then
    .error (if d.status = .decommissioned then .existingDecommissionedRowHasSuspendedToken
      else .hostnameCollisionRequiresExistingDeviceToken)
  else if d.status = .decommissioned then .ok (.replace deviceId)
  else if proves s presentedToken now d then .ok (.inPlace deviceId)
  else .error .hostnameCollisionRequiresExistingDeviceToken

end Checks

section Facts
variable {s : Settings} {presentedToken : Text} {now : ℤ} {i j : ℕ} {d : Device}

theorem checkExisting_inPlace : checkExisting s presentedToken now i d = .ok (.inPlace j) ↔
    i = j ∧ d.status ≠ .quarantined ∧ d.agentTokenSuspendedAt = none ∧ d.status ≠ .decommissioned ∧
      proves s presentedToken now d = true := by
  unfold checkExisting
  split_ifs <;> simp_all

theorem checkExisting_replace : checkExisting s presentedToken now i d = .ok (.replace j) ↔
    i = j ∧ d.status = .decommissioned ∧ d.agentTokenSuspendedAt = none := by
  unfold checkExisting
  split_ifs <;> simp_all

theorem checkExisting_ok {placement : Placement} (accepted : checkExisting s presentedToken now i d = .ok placement) :
    d.status ≠ .quarantined ∧ d.agentTokenSuspendedAt = none := by
  unfold checkExisting at accepted
  split_ifs at accepted with quarantined suspended <;> simp_all

end Facts

end RemudaRmm.Enrollment
