import RemudaRmm.Foundation.NumberText

/-! Which of the outstanding patches of a device a job may install (`patchApprovalEvaluator.ts`). Lower case and the
reading of dates are parameters; a time is in milliseconds, and one out of the platform's range is no time. -/
namespace RemudaRmm.Devices
open Foundation

inductive PatchSource where
  | microsoft
  | apple
  | linux
  | thirdParty
  | custom
  deriving DecidableEq

def PatchSource.name : PatchSource → Text
  | .microsoft => "microsoft".toList
  | .apple => "apple".toList
  | .linux => "linux".toList
  | .thirdParty => "third_party".toList
  | .custom => "custom".toList

inductive PatchSeverity where
  | critical
  | important
  | moderate
  | low
  | unknown
  deriving DecidableEq

def PatchSeverity.name : PatchSeverity → Text
  | .critical => "critical".toList
  | .important => "important".toList
  | .moderate => "moderate".toList
  | .low => "low".toList
  | .unknown => "unknown".toList

inductive PatchApprovalStatus where
  | pending
  | approved
  | rejected
  | deferred
  deriving DecidableEq

inductive DevicePatchStatus where
  | pending
  | installed
  | failed
  | skipped
  | missing
  deriving DecidableEq

def outstandingDevicePatchStatuses : List DevicePatchStatus := [.pending]

structure PatchRow where
  id : Text
  source : PatchSource
  externalId : Text
  (packageId version : Option Text)
  title : Text
  severity : Option PatchSeverity
  (category releaseDate : Option Text)
  requiresReboot : Bool

structure DevicePatchRow where
  (id deviceId patchId : Text)
  status : DevicePatchStatus

structure ApprovalRow where
  (partnerId patchId : Text)
  ringId : Option Text
  status : PatchApprovalStatus

structure OrganizationRow where
  id : Text
  partnerId : Option Text

structure PatchStore where
  organizations : List OrganizationRow
  patches : List PatchRow
  devicePatches : List DevicePatchRow
  patchApprovals : List ApprovalRow

inductive Json where
  | null
  | bool (b : Bool)
  | number (q : ℚ)
  | string (t : Text)
  | array (items : List Json)
  | object (fields : List (Text × Json))

structure CategoryRule where
  category : Text
  autoApprove : Bool
  severityFilter : Option (List Text)
  deferralDaysOverride : Option ℤ

inductive AppRuleAction where
  | block
  | pin (pinnedVersion : Text)

structure PolicyAppRule where
  (source packageId : Text)
  action : AppRuleAction

structure ApprovalEvaluationConfig where
  (ringId ringPartnerId : Option Text)
  categoryRules : List CategoryRule
  autoApprove : Json
  deferralDays : ℤ
  sources : Option (List Text)
  apps : Option (List PolicyAppRule)

structure RingAutoApproveConfig where
  enabled : Bool
  severities : List Text
  deferralDays : ℤ

def Json.member (key : String) : Json → Option Json
  | .object fields => (fields.find? fun f => f.1 = key.toList).map Prod.snd
  | _ => none

def Json.texts : Option Json → List Text
  | some (.array items) => items.filterMap fun item =>
    match item with
    | .string t => some t
    | _ => none
  | _ => []

def Json.days : Option Json → ℤ
  | some (.number q) => if q.isInt ∧ 0 < q then q.num else 0
  | _ => 0

def parseRingAutoApprove (autoApprove : Json) : RingAutoApproveConfig :=
  match autoApprove with
  | .bool true => ⟨true, [], 0⟩
  | stored =>
    match stored.member "enabled" with
    | some (.bool true) => ⟨true, Json.texts (stored.member "severities"), Json.days (stored.member "deferralDays")⟩
    | _ => ⟨false, [], 0⟩

def truthy : Option Text → Bool
  | some t => !t.isEmpty
  | none => false

def osPatchSources : List PatchSource := [.microsoft, .apple, .linux]

def thirdPartyPatchSources : List PatchSource := [.thirdParty, .custom]

def expandSource (source : Text) : List PatchSource :=
  if source = "os".toList then osPatchSources
  else if source = "third_party".toList then thirdPartyPatchSources
  else if source = "microsoft".toList then [.microsoft]
  else if source = "apple".toList then [.apple]
  else if source = "linux".toList then [.linux]
  else if source = "custom".toList then [.custom]
  else []

def buildAllowedPatchSources (sources : Option (List Text)) : Option (List PatchSource) :=
  match sources with
  | none => none
  | some [] => none
  | some listed => some (listed.flatMap expandSource)

def isThirdPartyPatchSource (source : Text) : Bool := (thirdPartyPatchSources.map PatchSource.name).contains source

def versionParts (t : Text) : List Text := t.splitOnP fun c => c ∈ ['.', '-', '+', '_']

/-- Numerals are compared as the numbers that the platform reads, which are infinite beyond its range. -/
def compareNumerals (x y : Text) : Ordering :=
  match toDouble (number x), toDouble (number y) with
  | some a, some b => compare a b
  | some _, none => .lt
  | none, _ => .gt

def comparePart (x y : Text) : Ordering :=
  if (x ≠ [] ∧ x.all Char.isDigit) ∧ (y ≠ [] ∧ y.all Char.isDigit) then compareNumerals x y
  else if x = y then .eq
  else if units x < units y then .lt
  else .gt

def padParts (n : ℕ) (parts : List Text) : List Text := parts ++ List.replicate (n - parts.length) ['0']

def comparePatchVersions (a b : Option Text) : Option Ordering :=
  let av := trimBy (fun c => isSpaceCode c.toNat) (a.getD [])
  let bv := trimBy (fun c => isSpaceCode c.toNat) (b.getD [])
  if av = [] ∨ bv = [] then none
  else
    let n := max (versionParts av).length (versionParts bv).length
    some (((padParts n (versionParts av)).zip (padParts n (versionParts bv))).foldr
      (fun p later => (comparePart p.1 p.2).then later) .eq)

inductive AppRuleVerdict where
  | allowed
  | blocked
  | held
  deriving DecidableEq

section Evaluate
variable (toLowerCase : Text → Text) (parseDate : Text → Option ℤ)

def appRuleKey (source packageId : Text) : Text :=
  (if isThirdPartyPatchSource source then "third_party".toList else source) ++ '|' :: toLowerCase packageId

/-- A map in which a later entry replaces an earlier one of the same key: the newest entry is the first. -/
def buildAppRuleMap (apps : Option (List PolicyAppRule)) : List (Text × PolicyAppRule) :=
  (apps.getD []).foldl (fun map rule => (appRuleKey toLowerCase rule.source rule.packageId, rule) :: map) []

def mapGet {β : Type} (map : List (Text × β)) (key : Text) : Option β :=
  (map.find? fun entry => entry.1 = key).map Prod.snd

/-- The rule for the package of a patch, where the patch names one. -/
def appRuleFor (patch : PatchRow) (rules : List (Text × PolicyAppRule)) : Option PolicyAppRule :=
  match patch.packageId with
  | some packageId => if packageId = [] then none else mapGet rules (appRuleKey toLowerCase patch.source.name packageId)
  | none => none

def evaluateAppRule (patch : PatchRow) (rules : List (Text × PolicyAppRule)) : AppRuleVerdict :=
  match appRuleFor toLowerCase patch rules with
  | none => .allowed
  | some rule =>
    match rule.action with
    | .block => .blocked
    | .pin pinnedVersion =>
      match comparePatchVersions patch.version (some pinnedVersion) with
      | none => .held
      | some .gt => .held
      | some _ => .allowed

/-- A third-party patch without a package is let through, whatever rules there are. -/
def passesAppRules (apps : Option (List PolicyAppRule)) (patch : PatchRow) : Bool :=
  let rules := buildAppRuleMap toLowerCase apps
  if rules.isEmpty then true
  else if !truthy patch.packageId && isThirdPartyPatchSource patch.source.name then true
  else evaluateAppRule toLowerCase patch rules == .allowed

inductive ApprovalReason where
  | manual
  | categoryRule
  | ringAutoApprove
  deriving DecidableEq

def dayMs : ℤ := 24 * 60 * 60 * 1000

def timeClip (ms : ℤ) : Option ℤ := if |ms| ≤ 8640000000000000 then some ms else none

/-- The end of a deferral; a comparison with what is no time is false. -/
def isHeldByDeferral (releaseDate : Option Text) (deferralDays now : ℤ) : Bool :=
  if deferralDays ≤ 0 then false
  else if !truthy releaseDate then true
  else
    match (parseDate (releaseDate.getD [])).bind fun start => timeClip (start + deferralDays * dayMs) with
    | some deferralEnd => now < deferralEnd
    | none => false

def buildCategoryRuleMap (rules : List CategoryRule) : List (Text × CategoryRule) :=
  rules.foldl (fun map rule => if rule.category = [] then map else (toLowerCase rule.category, rule) :: map) []

/-- The rule of the category itself, else the one for applications of third parties. -/
def categoryRuleFor (patch : PatchRow) (rules : List (Text × CategoryRule)) : Option CategoryRule :=
  let exact_rule :=
    match patch.category with
    | some category => if category = [] then none else mapGet rules (toLowerCase category)
    | none => none
  match exact_rule with
  | some rule => some rule
  | none => if isThirdPartyPatchSource patch.source.name then mapGet rules "third_party_app".toList else none

def severityIn (severity : Option PatchSeverity) (listed : List Text) : Bool :=
  match severity with
  | some s => listed.contains s.name
  | none => false

def evaluateCategoryRule (patch : PatchRow) (rule : CategoryRule) (deferralDays now : ℤ) : Option ApprovalReason :=
  let filter := rule.severityFilter.getD []
  if !filter.isEmpty && !severityIn patch.severity filter then none
  else if isHeldByDeferral parseDate patch.releaseDate (rule.deferralDaysOverride.getD deferralDays) now then none
  else some .categoryRule

def evaluateRing (patch : PatchRow) (ring : RingAutoApproveConfig) (now : ℤ) : Option ApprovalReason :=
  if !ring.enabled then none
  else if ring.severities.isEmpty then none
  else if !severityIn patch.severity ring.severities then none
  else if isHeldByDeferral parseDate patch.releaseDate ring.deferralDays now then none
  else some .ringAutoApprove

def evaluatePatchApproval (patch : PatchRow) (ringId : Option Text) (config : ApprovalEvaluationConfig)
    (manualApprovalSet : List Text) (now : ℤ) : Option ApprovalReason :=
  if manualApprovalSet.contains patch.id then some .manual
  else if !truthy ringId then none
  else
    match categoryRuleFor toLowerCase patch (buildCategoryRuleMap toLowerCase config.categoryRules) with
    | some rule =>
      if rule.autoApprove then evaluateCategoryRule parseDate patch rule config.deferralDays now
      else evaluateRing parseDate patch (parseRingAutoApprove config.autoApprove) now
    | none => evaluateRing parseDate patch (parseRingAutoApprove config.autoApprove) now

structure Candidate where
  devicePatchId : Text
  patch : PatchRow

structure ApprovedPatch where
  (patchId devicePatchId externalId title : Text)
  category : Option Text
  severity : Option PatchSeverity
  requiresReboot : Bool
  approvalReason : ApprovalReason
  deriving DecidableEq

def pendingPatches (store : PatchStore) (deviceId : Text) : List Candidate :=
  (store.devicePatches.filter fun row => row.deviceId = deviceId ∧ row.status ∈ outstandingDevicePatchStatuses).flatMap
    fun row => (store.patches.filter fun patch => patch.id = row.patchId).map fun patch => ⟨row.id, patch⟩

/-- The ring, unless it is known to belong to another partner. -/
def effectiveRing (config : ApprovalEvaluationConfig) (partnerId : Text) : Option Text :=
  if truthy config.ringId && truthy config.ringPartnerId && config.ringPartnerId != some partnerId then none
  else config.ringId

def manualApprovalSet (store : PatchStore) (partnerId : Text) (ringId : Option Text) (patchIds : List Text) : List Text :=
  (store.patchApprovals.filter fun row => (row.partnerId = partnerId ∧ row.patchId ∈ patchIds ∧ row.status = .approved) ∧
    (row.ringId = ringId ∨ row.ringId = none)).map ApprovalRow.patchId

def approvedPatch (c : Candidate) (reason : ApprovalReason) : ApprovedPatch :=
  ⟨c.patch.id, c.devicePatchId, c.patch.externalId, c.patch.title, c.patch.category, c.patch.severity,
    c.patch.requiresReboot, reason⟩

def sourceAllowed (config : ApprovalEvaluationConfig) (patch : PatchRow) : Bool :=
  match buildAllowedPatchSources config.sources with
  | some allowed => allowed.contains patch.source
  | none => true

def finalCandidates (store : PatchStore) (deviceId : Text) (config : ApprovalEvaluationConfig) : List Candidate :=
  ((pendingPatches store deviceId).filter fun c => sourceAllowed config c.patch).filter fun c =>
    passesAppRules toLowerCase config.apps c.patch

def partnerOf (store : PatchStore) (orgId : Text) : Option Text :=
  (store.organizations.find? fun row => row.id = orgId).bind OrganizationRow.partnerId

def resolveApprovedPatchesForDevice (store : PatchStore) (now : ℤ) (deviceId orgId : Text)
    (config : ApprovalEvaluationConfig) : List ApprovedPatch :=
  match partnerOf store orgId with
  | none => []
  | some partnerId =>
    if partnerId = [] then []
    else
      let ringId := effectiveRing config partnerId
      let candidates := finalCandidates toLowerCase store deviceId config
      let manual := manualApprovalSet store partnerId ringId (candidates.map fun c => c.patch.id)
      candidates.filterMap fun c =>
        (evaluatePatchApproval toLowerCase parseDate c.patch ringId config manual now).map (approvedPatch c)

end Evaluate

end RemudaRmm.Devices
