import Mathlib.Data.Rat.Floor
import RemudaRmm.Agents.ScriptBatches
import RemudaRmm.Foundation.Effects

/-! What follows the result of a device command on its two ways in: the socket (`processCommandResult` with its map of
handlers) and `POST /agents/:id/commands/:commandId/result` (a chain of tests of the type). A follow-up is one write to
one area of the database and its queues; what it does to the rows is left open. JSON, numerals, dates and the validation
of critical results are parameters. -/
namespace RemudaRmm.Agents
open Foundation

inductive JsonNumber where
  | finite (q : ℚ)
  | infinite (negative : Bool)
  deriving DecidableEq

inductive Json where
  | null
  | bool (b : Bool)
  | number (n : JsonNumber)
  | string (s : String)
  | array (items : List Json)
  | object (fields : List (String × Json))

namespace Json

/-- `value?.key`. -/
def member (key : String) : Json → Option Json
  | object fields => fields.lookup key
  | _ => none

def fields : Json → List (String × Json)
  | object fields => fields
  | _ => []

def truthy : Json → Bool
  | null => false
  | bool b => b
  | number n => n ≠ .finite 0
  | string s => s ≠ ""
  | _ => true

def isNull : Json → Bool
  | null => true
  | _ => false

def isObject : Json → Bool
  | object _ => true
  | _ => false

/-- `typeof value === 'object'` of a value that is not null. -/
def isComposite : Json → Bool
  | object _ => true
  | array _ => true
  | _ => false

def items : Json → List Json
  | array items => items
  | _ => []

def asString : Json → Option String
  | string s => some s
  | _ => none

def asBool : Json → Option Bool
  | bool b => some b
  | _ => none

def asFinite : Json → Option ℚ
  | number (.finite q) => some q
  | _ => none

def text (key : String) (v : Json) : Option String := (v.member key).bind asString

def present (key : String) (v : Json) : Option Json := (v.member key).filter fun x => !x.isNull

end Json

/-- What the code takes from its platform; `exceedsZero` is `value > 0`, `percentage` the rounded share of the first
number in the second. -/
structure Platform where
  parseJson : String → Except String Json
  stringify : Json → String
  toNumber : String → Option ℚ
  exceedsZero : Json → Bool
  parseDate : String → Option ℤ
  percentage : ℕ → ℕ → ℤ

def trimmed (s : String) : String :=
  String.ofList (((s.toList.dropWhile isTrimmed).reverse.dropWhile isTrimmed).reverse)

def readTrimmedString (v : Option Json) : Option String :=
  ((v.bind Json.asString).map trimmed).filter fun s => s ≠ ""

def toLowerCase (s : String) : String := String.ofList (s.toList.map Char.toLower)

def isHex (c : Char) : Bool := ('0' ≤ c && c ≤ '9') || ('a' ≤ c && c ≤ 'f') || ('A' ≤ c && c ≤ 'F')

/-- `uuidRegex`, one class of characters for each place. -/
def isUuid (s : String) : Bool :=
  s.toList.length = 36 && s.toList.zipIdx.all fun (c, i) =>
    if i ∈ [8, 13, 18, 23] then c = '-'
    else if i = 14 then '1' ≤ c && c ≤ '5'
    else if i = 19 then c ∈ ['8', '9', 'a', 'b', 'A', 'B']
    else isHex c

structure QueuedCommand where
  (id deviceId type : String)
  payload : Json
  status : CommandStatus
  targetRole : AgentCredentialRole
  createdBy : Option String

structure SubmittedResult where
  status : ResultStatus
  exitCode : Option ℤ
  (stdout stderr : Option String)
  durationMs : Option ℤ
  error : Option String
  result : Option Json

def QueuedCommand.Open (c : QueuedCommand) : Prop := c.status = .pending ∨ c.status = .sent
  deriving Decidable

structure SensitiveFinding where
  (filePath dataType patternId : String)
  matchCount : ℤ
  risk : String
  confidence : ℚ
  fileOwner : Option String
  fileModifiedAt : Option ℤ

structure CisFinding where
  (checkId title severity status : String)
  (evidence remediation : Option Json)
  message : Option String

/-- What is read from a collector of CIS findings; without a time it was checked now. -/
structure CisCollectorOutput where
  checkedAt : Option ℤ
  findings : List CisFinding
  (totalChecks passedChecks failedChecks score : ℤ)
  rawSummary : Json

inductive FollowUpArea where
  | scripts | discovery | snmp | backup | verification | restore | vault | disasterRecovery
  | security | filesystem | sensitiveData | cis | software | auditPolicy
  deriving DecidableEq

inductive FollowUp where
  | scriptExecution (executionId : Json) (batchId : Option Json) (deviceId : String) (status : ExecutionStatus)
      (exitCode : Option ℤ) (stdout stderr error : Option String)
  | discoveryResults (jobId agentId : String) (hosts hostsScanned hostsDiscovered adjacency : Json)
  | snmpPollResults (deviceId : String) (metrics : Json)
  | backupJobResult (backupJobId deviceId : String) (status : ResultStatus) (result : Json) (error : Option String)
  | backupVerification (commandId : String) (status : ResultStatus) (stdout error : Option String)
  | restoreJob (commandId deviceId commandType : String) (status : ResultStatus) (stderr : Option String)
      (durationMs : Option ℤ) (error : Option String) (result : Option Json)
  | vaultSync (deviceId : String) (payload : Json) (status : ResultStatus) (stdout stderr error : Option String)
  | drCommandResult (drExecutionId drGroupId : String) (groupName : Option String) (commandId commandType deviceId : String)
      (status : ResultStatus)
  | drExecutionReconcile (drExecutionId : String)
  | securityStatus (deviceId : String) (status : Json)
  | securityScan (deviceId scanType : String) (scanRecordId : Option String) (status : ResultStatus)
      (threatsFound provider : Option Json) (threats : List Json) (durationMs : Option ℤ)
  | threatStatus (deviceId commandType : String) (threatId threatPath : Option String)
  | filesystemSnapshot (deviceId : String) (threshold incremental : Bool) (parsed payload : Json)
      (createdBy : Option String)
  | sensitiveDataScan (scanId deviceId commandId : String) (status : ResultStatus) (summary : Json)
      (findings : List SensitiveFinding)
  | sensitiveDataRemediation (findingId deviceId commandId action : String) (status : ResultStatus)
      (keyRef keyVersion provider : Option String)
  | softwareRemediation (policyId deviceId commandId softwareName : String) (softwareVersion : Option String)
      (status : ResultStatus) (message : String) (exitCode : Option ℤ) (error : Option String)
  | auditPolicyState (deviceId : String) (payload : Json)
  | auditPolicyCollection (deviceId : String)
  | cisBaselineResult (baselineId deviceId commandId : String) (status : ResultStatus) (output : CisCollectorOutput)
  | cisRemediation (actionId deviceId commandId : String) (status : ResultStatus) (exitCode : Option ℤ)
      (error stderr : Option String) (details : List (String × Json)) (beforeState afterState : Option Json)
      (rollbackHint : Option (Option String))

def FollowUp.area : FollowUp → FollowUpArea
  | scriptExecution .. => .scripts
  | discoveryResults .. => .discovery
  | snmpPollResults .. => .snmp
  | backupJobResult .. => .backup
  | backupVerification .. => .verification
  | restoreJob .. => .restore
  | vaultSync .. => .vault
  | drCommandResult .. => .disasterRecovery
  | drExecutionReconcile .. => .disasterRecovery
  | securityStatus .. => .security
  | securityScan .. => .security
  | threatStatus .. => .security
  | filesystemSnapshot .. => .filesystem
  | sensitiveDataScan .. => .sensitiveData
  | sensitiveDataRemediation .. => .sensitiveData
  | softwareRemediation .. => .software
  | auditPolicyState .. => .auditPolicy
  | auditPolicyCollection .. => .auditPolicy
  | cisBaselineResult .. => .cis
  | cisRemediation .. => .cis

section Handlers
variable (platform : Platform) (c : QueuedCommand) (r : SubmittedResult)

/-- `parseResultJson`: the object a text holds. -/
def parseResultJson (stdout : Option String) : Option Json :=
  match stdout.filter fun s => s ≠ "" with
  | none => none
  | some s =>
    match platform.parseJson s with
    | .ok parsed => if parsed.isObject then some parsed else none
    | .error _ => none

def normalizeSensitiveDataType (v : Option Json) : Option String :=
  ((v.bind Json.asString).map fun s => toLowerCase (trimmed s)).filter
    fun s => s ∈ ["pii", "pci", "phi", "credential", "financial"]

def normalizeSensitiveRisk (v : Option Json) (dataType : String) : String :=
  (((v.bind Json.asString).map fun s => toLowerCase (trimmed s)).filter
    fun s => s ∈ ["low", "medium", "high", "critical"]).getD <|
    if dataType = "credential" ∨ dataType = "pci" then "critical"
    else if dataType = "phi" ∨ dataType = "financial" then "high"
    else if dataType = "pii" then "medium"
    else "low"

def normalizeSensitiveConfidence (v : Option Json) (dataType : String) : ℚ :=
  match v.bind Json.asFinite with
  | some q => max 0 (min 1 q)
  | none =>
    if dataType = "credential" then 95 / 100
    else if dataType = "pci" then 9 / 10
    else if dataType = "phi" then 8 / 10
    else if dataType = "financial" then 78 / 100
    else if dataType = "pii" then 72 / 100
    else 1 / 2

def truncate (q : ℚ) : ℤ := q.num.tdiv q.den

def asInt (v : Option Json) (defaultValue : ℤ) : ℤ :=
  match v with
  | some (.number (.finite q)) => truncate q
  | some (.string s) => if trimmed s = "" then defaultValue else ((platform.toNumber s).map truncate).getD defaultValue
  | _ => defaultValue

def parseDate (v : Option Json) : Option ℤ :=
  ((v.bind Json.asString).filter fun s => trimmed s ≠ "").bind platform.parseDate

def normalizeSensitiveFinding (rawFinding : Json) : Option SensitiveFinding :=
  match readTrimmedString (rawFinding.member "filePath"), normalizeSensitiveDataType (rawFinding.member "dataType") with
  | some filePath, some dataType =>
    some {
      filePath, dataType
      patternId := (readTrimmedString (rawFinding.member "patternId")).getD "unknown"
      matchCount := max 1 (asInt platform (rawFinding.member "matchCount") 1)
      risk := normalizeSensitiveRisk (rawFinding.member "risk") dataType
      confidence := normalizeSensitiveConfidence (rawFinding.member "confidence") dataType
      fileOwner := readTrimmedString (rawFinding.member "fileOwner")
      fileModifiedAt := parseDate platform (rawFinding.member "fileModifiedAt") }
  | _, _ => none

def SensitiveFinding.key (f : SensitiveFinding) : String := f.filePath ++ "::" ++ f.dataType ++ "::" ++ f.patternId

/-- A later finding of one key takes the place of the earlier. -/
def dedupeFindings (findings : List SensitiveFinding) : List SensitiveFinding :=
  findings.foldl (fun deduped f =>
    if deduped.any fun g => g.key = f.key then deduped.map fun g => if g.key = f.key then f else g
    else deduped ++ [f]) []

def dedupedFindings (resultJson : Option Json) : List SensitiveFinding :=
  dedupeFindings (((resultJson.bind (Json.member "findings")).elim [] Json.items).filterMap
    (normalizeSensitiveFinding platform))

def sensitiveScanId (resultJson : Option Json) : Option String :=
  (((resultJson.bind (Json.text "scanId")).or (c.payload.text "scanId"))).filter isUuid

/-- `resultJson.summary`, where it is an object. -/
def sensitiveSummary (resultJson : Option Json) : Json :=
  ((resultJson.bind (Json.member "summary")).filter Json.isObject).getD (.object [])

def sensitiveDataCommandTypes : List String :=
  ["sensitive_data_scan", "encrypt_file", "secure_delete_file", "quarantine_file"]

def mapRemediationActionFromCommandType (commandType : String) : Option String :=
  if commandType = "encrypt_file" then some "encrypt"
  else if commandType = "secure_delete_file" then some "secure_delete"
  else if commandType = "quarantine_file" then some "quarantine"
  else none

def handleSensitiveDataCommandResult : Option FollowUp :=
  if c.type = "sensitive_data_scan" then
    let resultJson := parseResultJson platform r.stdout
    (sensitiveScanId c resultJson).map fun scanId =>
      .sensitiveDataScan scanId c.deviceId c.id r.status (sensitiveSummary resultJson)
        (dedupedFindings platform resultJson)
  else
    match (c.payload.text "findingId").filter isUuid, mapRemediationActionFromCommandType c.type with
    | some findingId, some action =>
      some (.sensitiveDataRemediation findingId c.deviceId c.id action r.status
        (readTrimmedString (c.payload.member "encryptionKeyRef"))
        (readTrimmedString (c.payload.member "encryptionKeyVersion"))
        (readTrimmedString (c.payload.member "encryptionProvider")))
    | _, _ => none

def textOrNull (s : Option String) : Json := s.elim .null .string

def ResultStatus.text : ResultStatus → String
  | .completed => "completed"
  | .failed => "failed"
  | .timeout => "timeout"

def clampInteger (v : Option Json) (min max fallback : ℤ) : ℤ :=
  match v.bind Json.asFinite with
  | some q => Min.min max (Max.max min (truncate q))
  | none => fallback

def normalizeCisFinding (item : Json) : Option CisFinding :=
  let read (key : String) := readTrimmedString (item.member key)
  match ((read "checkId").or (read "id")).or (read "ruleId") with
  | none => none
  | some checkId =>
    let status := toLowerCase (((read "status").or (read "result")).getD "error")
    let severity := toLowerCase ((read "severity").getD "medium")
    some {
      checkId
      title := ((read "title").or (read "description")).getD ("CIS check " ++ checkId)
      severity := if severity ∈ ["low", "medium", "high", "critical"] then severity else "medium"
      status := if status ∈ ["pass", "fail", "not_applicable", "error"] then status else "error"
      evidence := (item.member "evidence").filter Json.isComposite
      remediation := (item.member "remediation").filter Json.isComposite
      message := read "message" }

def normalizeCisFindings (raw : Option Json) : List CisFinding := (raw.elim [] Json.items).filterMap normalizeCisFinding

/-- The finding that stands for an output that cannot be read. -/
def parseFinding (parseError : String) : CisFinding :=
  ⟨"collector.parse", "CIS collector output parsing", "high", "fail", none, none, some parseError⟩

def readCollectorOutput (stdout : Option String) : Json × Option String :=
  match stdout.filter fun s => s ≠ "" with
  | none => (.object [], some "Collector output was empty")
  | some s =>
    match platform.parseJson s with
    | .ok parsed =>
      if parsed.isObject then (parsed, none) else (.object [], some "Collector output JSON must be an object")
    | .error detail => (.object [], some ("Collector output was not valid JSON: " ++ detail))

def parseCisCollectorOutput (stdout : Option String) : CisCollectorOutput :=
  let (parsed, parseError) := readCollectorOutput platform stdout
  let read := normalizeCisFindings ((parsed.present "findings").or (parsed.member "checks"))
  let findings := if read = [] then (parseError.map parseFinding).toList else read
  let passed := findings.countP fun f => f.status = "pass"
  let failed := findings.countP fun f => f.status = "fail"
  { checkedAt := (readTrimmedString (parsed.member "checkedAt")).bind platform.parseDate
    findings
    totalChecks := clampInteger (parsed.member "totalChecks") 0 100000 (passed + failed : ℕ)
    passedChecks := clampInteger (parsed.member "passedChecks") 0 100000 passed
    failedChecks := clampInteger (parsed.member "failedChecks") 0 100000 failed
    score := clampInteger (parsed.member "score") 0 100
      (if 0 < passed + failed then platform.percentage passed (passed + failed) else 100)
    rawSummary := ((parsed.member "summary").filter Json.isComposite).getD
      (.object (parseError.map fun e => ("parseError", .string e)).toList) }

/-- The output that stands for a collector that did not complete. -/
def failedCollectorOutput : CisCollectorOutput where
  checkedAt := none
  findings := [⟨"collector.runtime", "CIS collector execution", "high", "fail", none, none,
    some ((r.error.or r.stderr).getD "CIS collector execution failed")⟩]
  totalChecks := 1
  passedChecks := 0
  failedChecks := 1
  score := 0
  rawSummary := .object [("error", textOrNull r.error), ("stderr", textOrNull r.stderr), ("status", .string r.status.text)]

/-- `{ ...first, ...second }`. -/
def spread (first second : List (String × Json)) : List (String × Json) :=
  first.map (fun (key, v) => (key, (second.lookup key).getD v)) ++
    second.filter fun (key, _) => (first.lookup key).isNone

/-- The details of a remediation that its own entries replace in every case. -/
def OWN_DETAILS : List String := ["commandId", "commandStatus", "exitCode", "error", "stderr", "completedAt"]

def stateFromResult (resultPayload : Option Json) (key snakeKey : String) : Option Json :=
  ((resultPayload.bind (Json.member key)).filter Json.isObject).or
    ((resultPayload.bind (Json.member snakeKey)).filter Json.isObject)

def hintFrom (source : Option Json) : Option Json :=
  (source.bind (Json.present "rollbackHint")).or (source.bind (Json.present "rollback_hint"))

def remediationDetails (resultPayload : Option Json) : List (String × Json) :=
  let payloadDetails := ((c.payload.member "details").elim [] Json.fields)
  let resultDetails := (resultPayload.bind (Json.member "details")).elim [] Json.fields
  (spread payloadDetails resultDetails).filter fun (key, _) => key ∉ OWN_DETAILS

/-- The text of the hint that is given; without one the action keeps its own. -/
def remediationHint (resultPayload : Option Json) : Option (Option String) :=
  let resultDetails := (resultPayload.bind (Json.member "details")).filter Json.isObject
  let payloadDetails := (c.payload.member "details").filter Json.isObject
  (((hintFrom resultPayload).or (hintFrom resultDetails)).or (hintFrom payloadDetails)).map fun hint =>
    readTrimmedString (some hint)

def uuidMember (key : String) : Option String := (readTrimmedString (c.payload.member key)).filter isUuid

def cisOutput (stdout : Option String) : CisCollectorOutput :=
  if r.status = .completed then parseCisCollectorOutput platform stdout else failedCollectorOutput r

def handleCisCommandResult : Option FollowUp :=
  if c.type = "cis_benchmark" then
    (uuidMember c "baselineId").map fun baselineId =>
      .cisBaselineResult baselineId c.deviceId c.id r.status (cisOutput platform r r.stdout)
  else
    (uuidMember c "actionId").map fun actionId =>
      let resultPayload := parseResultJson platform r.stdout
      .cisRemediation actionId c.deviceId c.id r.status r.exitCode r.error r.stderr (remediationDetails c resultPayload)
        (stateFromResult resultPayload "beforeState" "before_state")
        (stateFromResult resultPayload "afterState" "after_state") (remediationHint c resultPayload)

def securityCommandTypes : List String :=
  ["security_collect_status", "security_scan", "security_threat_quarantine", "security_threat_remove",
    "security_threat_restore"]

def isSafeInteger (v : Json) : Bool := v.asFinite.any fun q => q.den = 1 && decide (q.num.natAbs < 2 ^ 53)

def isSmallRecord (v : Json) : Bool :=
  v.isObject && decide (((platform.stringify v).toList.map fun ch => if ch.toNat < 0x10000 then 1 else 2).sum ≤ 65536)

def optionalField (key : String) (check : Json → Bool) (v : Json) : Bool := (v.member key).all check

def isSecurityProduct (v : Json) : Bool :=
  v.isObject && (["displayName", "provider"].all fun key => optionalField key (fun x => x.asString.isSome) v) &&
    (["realTimeProtection", "definitionsUpToDate"].all fun key => optionalField key (fun x => x.asBool.isSome) v) &&
    optionalField "productState" isSafeInteger v

def isSecurityStatus (v : Json) : Bool :=
  v.isObject &&
    (["provider", "providerVersion", "definitionsVersion", "definitionsDate", "lastScan", "lastScanType",
      "encryptionStatus"].all fun key => optionalField key (fun x => x.asString.isSome) v) &&
    (["realTimeProtection", "firewallEnabled", "gatekeeperEnabled", "guardianEnabled",
      "windowsSecurityCenterAvailable"].all fun key => optionalField key (fun x => x.asBool.isSome) v) &&
    optionalField "threatCount" (fun x => isSafeInteger x && x.asFinite.any fun q => decide (0 ≤ q)) v &&
    (["encryptionDetails", "localAdminSummary", "passwordPolicySummary"].all fun key =>
      optionalField key (isSmallRecord platform) v) &&
    optionalField "avProducts" (fun x => match x with
      | .array items => decide (items.length ≤ 50) && items.all isSecurityProduct
      | _ => false) v

def getSecurityStatusFromResult (resultJson : Option Json) : Option Json :=
  (resultJson.map fun v => ((v.member "status").filter Json.isObject).getD v).filter (isSecurityStatus platform)

def updateThreatStatusForAction : Option FollowUp :=
  let threatId := (c.payload.text "threatId").filter isUuid
  let threatPath := (c.payload.text "path").filter fun s => s ≠ ""
  if threatId.isSome ∨ threatPath.isSome then some (.threatStatus c.deviceId c.type threatId threatPath) else none

def handleSecurityCommandResult : List FollowUp :=
  let resultJson := parseResultJson platform r.stdout
  let parsedStatus := getSecurityStatusFromResult platform resultJson
  (parsedStatus.map (FollowUp.securityStatus c.deviceId)).toList ++
    if c.type = "security_collect_status" then []
    else if c.type = "security_scan" then
      [.securityScan c.deviceId
        (((resultJson.bind (Json.text "scanType")).or (c.payload.text "scanType")).getD "quick")
        ((resultJson.bind (Json.text "scanRecordId")).or (c.payload.text "scanRecordId")) r.status
        (resultJson.bind (Json.member "threatsFound")) (parsedStatus.bind (Json.member "provider"))
        ((resultJson.bind (Json.member "threats")).elim [] Json.items) r.durationMs]
    else if r.status = .completed then (updateThreatStatusForAction c).toList
    else []

def parseFilesystemAnalysisStdout (stdout : String) : List (String × Json) :=
  match platform.parseJson stdout with
  | .ok parsed => parsed.fields
  | .error _ => []

def handleFilesystemAnalysisCommandResult : Option FollowUp :=
  if r.status = .completed then
    let parsed := parseFilesystemAnalysisStdout platform (r.stdout.getD "")
    if parsed = [] then none
    else some (.filesystemSnapshot c.deviceId (c.payload.text "trigger" = some "threshold")
      (c.payload.text "scanMode" = some "incremental") (.object parsed) c.payload c.createdBy)
  else none

def handleSoftwareRemediationCommandResult : Option FollowUp :=
  (uuidMember c "policyId").map fun policyId =>
    .softwareRemediation policyId c.deviceId c.id ((readTrimmedString (c.payload.member "name")).getD "unknown")
      (readTrimmedString (c.payload.member "version")) r.status
      ((r.error.or r.stderr).getD "Uninstall command failed") r.exitCode r.error

def processCollectedAuditPolicyCommandResult (stdout : Option String) : Option FollowUp :=
  (parseResultJson platform stdout).map (FollowUp.auditPolicyState c.deviceId)

def queueAuditPolicyCollection : FollowUp := .auditPolicyCollection c.deviceId

def processBackupVerificationResult (stdout : Option String) : FollowUp :=
  .backupVerification c.id r.status stdout r.error

def updateRestoreJobByCommandId : FollowUp :=
  .restoreJob c.id c.deviceId c.type r.status r.stderr r.durationMs r.error r.result

def applyVaultSyncCommandResult (stdout : Option String) : FollowUp :=
  .vaultSync c.deviceId (.object c.payload.fields) r.status stdout r.stderr r.error

/-- The update of the execution, and whether it was attempted. -/
def handleDrCommandResult (drExecutionId : String) : Option FollowUp :=
  ((c.payload.text "drGroupId").filter fun s => s ≠ "" ∧ drExecutionId ≠ "").map fun drGroupId =>
    .drCommandResult drExecutionId drGroupId (c.payload.text "groupName") c.id c.type c.deviceId r.status

def enqueueDrExecutionReconcile (drExecutionId : String) : Option FollowUp :=
  if drExecutionId = "" then none else some (.drExecutionReconcile drExecutionId)

end Handlers

inductive CriticalResultFamily where
  | restore
  | verification
  | vault
  | dr

def VERIFICATION_COMMAND_TYPES : List String := ["backup_verify", "backup_test_restore"]

def VAULT_COMMAND_TYPES : List String := ["vault_sync"]

def DR_COMMAND_TYPES : List String :=
  ["vm_restore_from_backup", "vm_instant_boot", "hyperv_restore", "mssql_restore", "bmr_recover"]

def RESTORE_RESULT_TYPES : List String := ["backup_restore", "vm_restore_from_backup", "vm_instant_boot"]

def detectCriticalFamily (commandType : String) : Option CriticalResultFamily :=
  if commandType ∈ VERIFICATION_COMMAND_TYPES then some .verification
  else if commandType ∈ VAULT_COMMAND_TYPES then some .vault
  else if commandType ∈ DR_COMMAND_TYPES then some .dr
  else if commandType ∈ RESTORE_RESULT_TYPES then some .restore
  else none

structure ValidatedResult where
  structuredResult : Json
  normalizedStdout : Option String

abbrev ResultValidation := String → SubmittedResult → Except String (Option ValidatedResult)

def SubmittedResult.toStdout (platform : Platform) (r : SubmittedResult) : Option String :=
  r.stdout.or (r.result.map platform.stringify)

structure NormalizedSubmission where
  result : SubmittedResult
  (stdout validationError : Option String)

/-- What the two ways are given besides the command and its result: `drRaises` tells whether the update of the
execution of a disaster recovery throws. -/
structure ResultContext where
  platform : Platform
  validate : ResultValidation
  agentId : String
  drRaises : Bool

namespace Socket

def rejectMalformedCriticalResult (platform : Platform) (commandType : String) (r : SubmittedResult) (message : String) :
    NormalizedSubmission :=
  let reason := "Rejected malformed " ++ commandType ++ " result: " ++ message
  ⟨{ r with status := .failed, error := some reason }, r.toStdout platform, some reason⟩

def normalizeCriticalResultIfNeeded (platform : Platform) (validate : ResultValidation) (commandType : String)
    (r : SubmittedResult) : NormalizedSubmission :=
  if (detectCriticalFamily commandType).isNone then ⟨r, r.toStdout platform, none⟩
  else
    match validate commandType r with
    | .ok none => ⟨r, r.toStdout platform, none⟩
    | .ok (some validated) =>
      let stdout := validated.normalizedStdout.or r.stdout
      ⟨{ r with stdout, result := some validated.structuredResult }, stdout, none⟩
    | .error message => rejectMalformedCriticalResult platform commandType r message

section Handlers
variable (x : ResultContext) (c : QueuedCommand) (r : SubmittedResult) (stdout : Option String)

/-- The job and the hosts of a discovery result that its command expects. -/
def expectedDiscovery : Option (String × Json) :=
  match (r.result.bind (Json.member "hosts")).filter Json.truthy, (c.payload.text "jobId").filter fun s => s ≠ "" with
  | some hosts, some expectedJobId =>
    if r.result.bind (Json.text "jobId") = some expectedJobId then some (expectedJobId, hosts) else none
  | _, _ => none

def handleDiscoveryResult : Option FollowUp :=
  (expectedDiscovery c r).map fun (jobId, hosts) =>
    .discoveryResults jobId x.agentId hosts ((r.result.bind (Json.present "hostsScanned")).getD (.number (.finite 0)))
      ((r.result.bind (Json.present "hostsDiscovered")).getD (.number (.finite 0)))
      ((r.result.bind (Json.present "adjacency")).getD (.array []))

def handleBackupVerificationResult : Option FollowUp := some (processBackupVerificationResult c r stdout)

def handleVmRestoreResult : Option FollowUp := some (updateRestoreJobByCommandId c r)

def providerBackupJobId : Option String :=
  ((c.payload.text "backupJobId").or ((c.payload.text "jobId").filter isUuid)).filter fun s => s ≠ ""

def handleProviderBackedBackupResult : Option FollowUp :=
  (providerBackupJobId c).map fun backupJobId =>
    .backupJobResult backupJobId c.deviceId r.status ((r.result.filter fun v => !v.isNull).getD (.object []))
      ((r.error.filter fun s => s ≠ "").or r.stderr)

def handleVaultSyncResult : Option FollowUp := some (applyVaultSyncCommandResult c r stdout)

def hasMetrics (platform : Platform) : Json → Bool
  | .array items => items ≠ []
  | .string s => s ≠ ""
  | .object fields => (fields.lookup "length").any platform.exceedsZero
  | _ => false

/-- The device and the metrics of a poll that its command expects. -/
def expectedSnmpPoll (platform : Platform) : Option (String × Json) :=
  match c.payload.text "deviceId", (r.result.bind (Json.member "metrics")).filter (hasMetrics platform) with
  | some expectedDeviceId, some metrics =>
    if expectedDeviceId ≠ "" ∧ r.result.bind (Json.text "deviceId") = some expectedDeviceId then
      some (expectedDeviceId, metrics)
    else none
  | _, _ => none

def handleSnmpPollResult : Option FollowUp :=
  (expectedSnmpPoll c r x.platform).map fun (deviceId, metrics) => .snmpPollResults deviceId metrics

def scriptStatus : ExecutionStatus :=
  match r.status with
  | .completed => if r.exitCode.any (· ≠ 0) then .failed else .completed
  | .timeout => .timeout
  | .failed => .failed

def namedExecution : Option Json := (c.payload.member "executionId").filter Json.truthy

def handleScriptResult : Option FollowUp :=
  (namedExecution c).map fun executionId =>
    .scriptExecution executionId ((c.payload.member "batchId").filter Json.truthy) c.deviceId (scriptStatus r)
      r.exitCode stdout r.stderr r.error

/-- The result as the handlers hand it on, without its structured part. -/
def flattened : SubmittedResult := { r with stdout, result := none }

def handleSensitiveDataResult : Option FollowUp :=
  if c.type ∈ sensitiveDataCommandTypes then handleSensitiveDataCommandResult x.platform c (flattened r stdout) else none

def handleCisResult : Option FollowUp :=
  if c.type ∈ ["cis_benchmark", "apply_cis_remediation"] then handleCisCommandResult x.platform c (flattened r stdout)
  else none

def commandResultHandlers : List (String × Option FollowUp) :=
  [("network_discovery", handleDiscoveryResult x c r),
    ("backup_verify", handleBackupVerificationResult c r stdout),
    ("backup_test_restore", handleBackupVerificationResult c r stdout),
    ("backup_restore", handleVmRestoreResult c r),
    ("vm_restore_from_backup", handleVmRestoreResult c r),
    ("vm_instant_boot", handleVmRestoreResult c r),
    ("bmr_recover", handleVmRestoreResult c r),
    ("hyperv_backup", handleProviderBackedBackupResult c r),
    ("mssql_backup", handleProviderBackedBackupResult c r),
    ("vault_sync", handleVaultSyncResult c r stdout),
    ("snmp_poll", handleSnmpPollResult x c r),
    ("script", handleScriptResult c r stdout),
    ("sensitive_data_scan", handleSensitiveDataResult x c r stdout),
    ("encrypt_file", handleSensitiveDataResult x c r stdout),
    ("secure_delete_file", handleSensitiveDataResult x c r stdout),
    ("quarantine_file", handleSensitiveDataResult x c r stdout),
    ("cis_benchmark", handleCisResult x c r stdout),
    ("apply_cis_remediation", handleCisResult x c r stdout)]

/-- The update of the execution and, whether it throws or not, the job that reconciles it. -/
def disasterRecovery : List FollowUp :=
  match if c.type ∈ DR_COMMAND_TYPES then c.payload.text "drExecutionId" else none with
  | some drExecutionId =>
    (handleDrCommandResult c r drExecutionId).toList ++ (enqueueDrExecutionReconcile drExecutionId).toList
  | none => []

end Handlers

def afterStored (x : ResultContext) (c : QueuedCommand) (r : SubmittedResult) : List FollowUp :=
  let normalized := normalizeCriticalResultIfNeeded x.platform x.validate c.type r
  if normalized.validationError.isSome then []
  else
    disasterRecovery c normalized.result ++
      (((commandResultHandlers x c normalized.result normalized.stdout).lookup c.type).getD none).toList

/-- The result is stored for a command of the agent that is in flight. -/
def processCommandResult (x : ResultContext) (c : QueuedCommand) (r : SubmittedResult) : List FollowUp :=
  if c.targetRole = .agent ∧ c.Open then afterStored x c r else []

end Socket

namespace Post

def normalizeCriticalResultIfNeeded (platform : Platform) (validate : ResultValidation) (commandType : String)
    (data : SubmittedResult) : NormalizedSubmission :=
  if (detectCriticalFamily commandType).isNone then ⟨data, data.toStdout platform, none⟩
  else
    match validate commandType data with
    | .ok none => ⟨data, data.toStdout platform, none⟩
    | .ok (some validated) =>
      let stdout := validated.normalizedStdout.or data.stdout
      ⟨{ data with stdout, result := some validated.structuredResult }, stdout, none⟩
    | .error message =>
      ⟨{ data with status := .failed, error := some ("Rejected malformed " ++ commandType ++ " result: " ++ message) },
        data.toStdout platform, some ("Rejected malformed " ++ commandType ++ " result: " ++ message)⟩

section Chain
variable (x : ResultContext) (c : QueuedCommand) (data : SubmittedResult) (stdout : Option String)

def disasterRecovery : List FollowUp :=
  match if c.type ∈ DR_COMMAND_TYPES then c.payload.text "drExecutionId" else none with
  | some drExecutionId =>
    let update := handleDrCommandResult c data drExecutionId
    -- One `try` holds both steps: an update that throws leaves out the job.
    update.toList ++ if update.isSome ∧ x.drRaises then [] else (enqueueDrExecutionReconcile drExecutionId).toList
  | none => []

def followUps : List FollowUp :=
  (if c.type ∈ securityCommandTypes then handleSecurityCommandResult x.platform c data else []) ++
  (if c.type = "filesystem_analysis" then (handleFilesystemAnalysisCommandResult x.platform c data).toList else []) ++
  (if c.type ∈ sensitiveDataCommandTypes then (handleSensitiveDataCommandResult x.platform c data).toList else []) ++
  (if c.type = "software_uninstall" then (handleSoftwareRemediationCommandResult c data).toList else []) ++
  (if c.type = "collect_audit_policy" ∧ data.status = .completed then
    (processCollectedAuditPolicyCommandResult x.platform c stdout).toList else []) ++
  (if c.type = "apply_audit_policy_baseline" ∧ data.status = .completed then [queueAuditPolicyCollection c] else []) ++
  (if c.type ∈ ["cis_benchmark", "apply_cis_remediation"] then (handleCisCommandResult x.platform c data).toList
    else []) ++
  (if c.type ∈ ["backup_verify", "backup_test_restore"] then [processBackupVerificationResult c data stdout] else []) ++
  (if c.type ∈ ["backup_restore", "bmr_recover", "vm_restore_from_backup", "vm_instant_boot"] then
    [updateRestoreJobByCommandId c data] else []) ++
  (if c.type = "vault_sync" then [applyVaultSyncCommandResult c data stdout] else []) ++ disasterRecovery x c data

end Chain

def afterStored (x : ResultContext) (c : QueuedCommand) (data : SubmittedResult) : List FollowUp :=
  let normalized := normalizeCriticalResultIfNeeded x.platform x.validate c.type data
  if normalized.validationError.isSome then [] else followUps x c normalized.result normalized.stdout

/-- The result is stored for a command in flight of the role that posts it. -/
def postCommandResult (x : ResultContext) (role : AgentCredentialRole) (c : QueuedCommand) (data : SubmittedResult) :
    List FollowUp :=
  if c.targetRole = role ∧ c.Open then afterStored x c data else []

end Post

end RemudaRmm.Agents
