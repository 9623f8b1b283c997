import RemudaRmm.Enrollment.EnrollmentChecks

/-! `POST /enroll` under READ COMMITTED, a statement at a time, with the statements of administrators on devices. A call
is one transaction; organisations and partners are read together, as nothing here writes them. -/
namespace RemudaRmm.Enrollment
open Foundation

/-- `granted` has the calls that have succeeded with the keys that they have used. -/
structure EnrollDb where
  devices : Table ℕ ℕ (Option Device)
  deviceIds : List ℕ
  once : deviceIds.Nodup
  keys : Table ℕ ℕ (Option EnrollmentKey)
  keyIds : List ℕ
  granted : List (ℕ × ℕ)

/-- What a call has decided before it writes; `checkedAt` is the clock of the check of the device's tokens. -/
structure Admission where
  request : EnrollRequest
  (keyId orgId siteId : ℕ)
  placement : Placement
  checkedAt : ℤ

inductive Stage where
  | idle
  | selectKey (r : EnrollRequest)
  | selectTenant (r : EnrollRequest) (keyId orgId siteId : ℕ)
  | selectDevice (r : EnrollRequest) (keyId orgId siteId : ℕ)
  | countDevices (a : Admission) (partnerId maxDevices : ℕ)
  | renameDevice (a : Admission)
  | writeDevice (a : Admission)
  | claimKey (a : Admission) (deviceId : ℕ)
  | commit (a : Admission) (deviceId : ℕ)
  | refused (refusal : Refusal)
  | succeeded (keyId deviceId : ℕ)

/-- `now` is the clock, and `pick` what the database is free to choose: the row of a `LIMIT 1` without an order, and the
id of a new row. A call that throws is rolled back. -/
inductive Signal where
  | enroll (r : EnrollRequest)
  | exec (now : ℤ) (pick : ℕ)
  | rollback
  | decommission (deviceId : ℕ)
  | quarantine (deviceId : ℕ)
  | suspendAgentToken (deviceId : ℕ) (now : ℤ)

def Signal.Enrolling : Signal → Prop
  | .enroll _ | .exec _ _ | .rollback => True
  | .decommission _ | .quarantine _ | .suspendAgentToken _ _ => False

def Signal.Executes : Signal → Prop
  | .exec _ _ => True
  | _ => False

instance : ∀ signal : Signal, Decidable signal.Executes
  | .exec _ _ => .isTrue trivial
  | .enroll _ | .rollback | .decommission _ | .quarantine _ | .suspendAgentToken _ _ => .isFalse id

def EnrollDb.commit (t : ℕ) (db : EnrollDb) : EnrollDb :=
  { db with devices := fun i => (db.devices i).commit t, keys := fun k => (db.keys k).commit t }

def EnrollDb.rollback (t : ℕ) (db : EnrollDb) : EnrollDb :=
  { db with devices := fun i => (db.devices i).rollback t, keys := fun k => (db.keys k).rollback t }

def pickOf (pick : ℕ) (matching : List ℕ) : Option ℕ := matching[pick]?.or matching.head?

section Calls
variable (s : Settings) (dir : Directory)

def Device.OfPartner (partnerId : ℕ) (d : Device) : Prop :=
  ((dir.organizations d.orgId).any fun org => decide (org.partnerId = partnerId)) = true
  deriving Decidable

/-- The devices of a partner that are not decommissioned, among the versions of the rows that are given. -/
def countActive (db : EnrollDb) (version : ℕ → Option Device) (partnerId : ℕ) : ℕ :=
  (db.deviceIds.filter fun i => (version i).any fun d => decide (d.OfPartner dir partnerId ∧ d.Active)).length

def Admission.renamed (priorId : ℕ) (a : Admission) (d : Device) : Device :=
  { d with hostname := a.request.hostname ++ ".decom-".toList ++ (s.idText priorId).take 8 }

def Admission.reenrolled (a : Admission) (d : Device) : Device :=
  { d with
    agentTokenHash := some (s.sha256 a.request.apiKey)
    watchdogTokenHash := some (s.sha256 a.request.watchdogApiKey)
    helperTokenHash := some (s.sha256 a.request.helperApiKey)
    previousTokenHash := none
    previousTokenExpiresAt := none
    status := .online }

def Admission.newDevice (a : Admission) : Device where
  orgId := a.orgId
  siteId := a.siteId
  hostname := a.request.hostname
  status := .online
  agentTokenHash := some (s.sha256 a.request.apiKey)
  watchdogTokenHash := some (s.sha256 a.request.watchdogApiKey)
  helperTokenHash := some (s.sha256 a.request.helperApiKey)
  previousTokenHash := none
  previousTokenExpiresAt := none
  agentTokenSuspendedAt := none

def EnrollmentKey.used (key : EnrollmentKey) : EnrollmentKey := { key with usageCount := key.usageCount + 1 }

def Admission.proceed (a : Admission) : Stage :=
  match a.placement with
  | .replace _ => .renameDevice a
  | .fresh | .inPlace _ => .writeDevice a

def Admission.enter (a : Admission) : Stage :=
  match a.placement, deviceLimit dir a.orgId with
  | .inPlace _, _ | _, none => a.proceed
  | _, some (partnerId, maxDevices) => .countDevices a partnerId maxDevices

def selectKey (t : ℕ) (now : ℤ) (pick : ℕ) (r : EnrollRequest) (db : EnrollDb) : Stage :=
  match (pickOf pick (db.keyIds.filter fun k => ((db.keys k).read t).any fun key =>
      decide (key.key ∈ hashEnrollmentKeyCandidates s r.enrollmentKey))).bind fun k =>
        ((db.keys k).read t).map (k, ·) with
  | none => .refused .enrollmentKeyNotFound
  | some (keyId, key) =>
    match checkKey s now key r.providedSecret with
    | .error refusal => .refused refusal
    | .ok siteId => .selectTenant r keyId key.orgId siteId

def selectDevice (t : ℕ) (now : ℤ) (pick : ℕ) (r : EnrollRequest) (keyId orgId siteId : ℕ) (db : EnrollDb) : Stage :=
  match (pickOf pick (db.deviceIds.filter fun i => ((db.devices i).read t).any fun d =>
      decide (d.hostname = r.hostname ∧ d.orgId = orgId ∧ d.siteId = siteId))).bind fun i =>
        ((db.devices i).read t).map (i, ·) with
  | none => Admission.enter dir ⟨r, keyId, orgId, siteId, .fresh, now⟩
  | some (deviceId, d) =>
    match checkExisting s r.existingDeviceToken now deviceId d with
    | .error refusal => .refused refusal
    | .ok placement => Admission.enter dir ⟨r, keyId, orgId, siteId, placement, now⟩

/-- The update by id; nothing while another transaction holds the row. -/
def reenroll (t : ℕ) (a : Admission) (deviceId : ℕ) (db : EnrollDb) : Option (EnrollDb × Stage) :=
  if (db.devices deviceId).Free t then
    match (db.devices deviceId).read t with
    | none => some (db.rollback t, .refused .internalError)
    | some d =>
      some ({ db with devices := db.devices.write t deviceId (some (a.reenrolled s d)) }, .claimKey a deviceId)
  else none

def insertDevice (t : ℕ) (a : Admission) (newId : ℕ) (db : EnrollDb) : Option (EnrollDb × Stage) :=
  if (db.devices newId).Free t then
    match (db.devices newId).read t with
    | some _ => some (db.rollback t, .refused .internalError)
    | none => some ({ db with
        devices := db.devices.write t newId (some (a.newDevice s))
        deviceIds := db.deviceIds.insert newId
        once := db.once.insert }, .claimKey a newId)
  else none

/-- The claim of the key, which makes the checks of the key again; where it fails everything is undone. -/
def claimKey (t : ℕ) (now : ℤ) (a : Admission) (deviceId : ℕ) (db : EnrollDb) : Option (EnrollDb × Stage) :=
  match (db.keys a.keyId).read t with
  | none => some (db.rollback t, .refused .enrollmentKeyRaceLost)
  | some key =>
    if key.key ∈ hashEnrollmentKeyCandidates s a.request.enrollmentKey ∧ key.expired now = false ∧
        key.exhausted = false then
      if (db.keys a.keyId).Free t then
        some ({ db with keys := db.keys.write t a.keyId (some key.used) }, .commit a deviceId)
      else none
    else some (db.rollback t, .refused .enrollmentKeyRaceLost)

def execute (t : ℕ) (now : ℤ) (pick : ℕ) (db : EnrollDb) : Stage → Option (EnrollDb × Stage)
  | .idle | .refused _ | .succeeded _ _ => none
  | .selectKey r => some (db, selectKey s t now pick r db)
  | .selectTenant r keyId orgId siteId =>
    some (db, if getActiveOrgTenant dir orgId then .selectDevice r keyId orgId siteId else .refused .tenantInactive)
  | .selectDevice r keyId orgId siteId => some (db, selectDevice s dir t now pick r keyId orgId siteId db)
  | .countDevices a partnerId maxDevices =>
    if maxDevices ≤ countActive dir db (fun i => (db.devices i).read t) partnerId then
      some (db.rollback t, .refused .deviceLimitReached)
    else some (db, a.proceed)
  | .renameDevice a =>
    match a.placement with
    | .replace priorId =>
      if (db.devices priorId).Free t then
        match (db.devices priorId).read t with
        | none => some (db, .writeDevice a)
        | some d =>
          some ({ db with devices := db.devices.write t priorId (some (a.renamed s priorId d)) }, .writeDevice a)
      else none
    | .fresh | .inPlace _ => some (db, .writeDevice a)
  | .writeDevice a =>
    match a.placement with
    | .inPlace deviceId => reenroll s t a deviceId db
    | .fresh | .replace _ => insertDevice s t a pick db
  | .claimKey a deviceId => claimKey s t now a deviceId db
  | .commit a deviceId =>
    some ({ db.commit t with granted := db.granted ++ [(t, a.keyId)] }, .succeeded a.keyId deviceId)

def updateDevice (t deviceId : ℕ) (f : Device → Device) (db : EnrollDb) : Option EnrollDb :=
  if (db.devices deviceId).Free t then
    some { db with devices := Function.update db.devices deviceId (Row.unheld ((db.devices deviceId).committed.map f)) }
  else none

def Device.suspended (now : ℤ) (d : Device) : Device :=
  if d.agentTokenSuspendedAt = none then { d with agentTokenSuspendedAt := some now } else d

def enrollAct (t : ℕ) (signal : Signal) (db : EnrollDb) (stage : Stage) : Option (EnrollDb × Stage) :=
  match signal, stage with
  | .enroll r, .idle => some (db, .selectKey r)
  | .exec now pick, stage => execute s dir t now pick db stage
  | .rollback, .idle | .rollback, .refused _ | .rollback, .succeeded _ _ => none
  | .rollback, _ => some (db.rollback t, .refused .internalError)
  | .decommission i, .idle => (updateDevice t i (fun d => { d with status := .decommissioned }) db).map (·, .idle)
  | .quarantine i, .idle => (updateDevice t i (fun d => { d with status := .quarantined }) db).map (·, .idle)
  | .suspendAgentToken i now, .idle => (updateDevice t i (·.suspended now) db).map (·, .idle)
  | _, _ => none

abbrev EnrollWorld := World ℕ EnrollDb Stage

def enrollStep (w : EnrollWorld) (e : ℕ × Signal) : EnrollWorld := (World.step (enrollAct s dir) w e).getD w

end Calls

end RemudaRmm.Enrollment
