import RemudaRmm.Agents.ResultFollowUps

/-! When a result has the same consequences over the socket and by the route. -/
namespace RemudaRmm.Agents
open Foundation List Option FollowUp

section Agreement
variable (x : ResultContext) (c : QueuedCommand) (r : SubmittedResult)

/-- Every area is left with the same rows, whatever the follow-ups do to them. -/
def FollowUpsAgree : Prop :=
  ∀ (Rows : Type) (apply : FollowUp → Rows → Rows) (state : FollowUpArea → Rows),
    performAll area apply state (Socket.processCommandResult x c r) =
      performAll area apply state (Post.postCommandResult x .agent c r)

/-- Each area receives the same follow-ups once the result is stored. -/
def SameFollowUps : Prop :=
  ∀ a, effectsOn area a (Socket.afterStored x c r) = effectsOn area a (Post.afterStored x c r)

theorem followUpsAgree_iff (agents : c.targetRole = .agent) (inFlight : c.Open) :
    FollowUpsAgree x c r ↔ SameFollowUps x c r := by
  rw [FollowUpsAgree, Socket.processCommandResult, Post.postCommandResult, if_pos ⟨agents, inFlight⟩,
    if_pos ⟨agents, inFlight⟩]
  exact performAll_agree_iff area _ _

theorem normalize_same (platform : Platform) (validate : ResultValidation) (commandType : String)
    (r : SubmittedResult) :
    Socket.normalizeCriticalResultIfNeeded platform validate commandType r =
      Post.normalizeCriticalResultIfNeeded platform validate commandType r := rfl

def Socket.handledTypes : List String :=
  ["network_discovery", "backup_verify", "backup_test_restore", "backup_restore", "vm_restore_from_backup",
    "vm_instant_boot", "bmr_recover", "hyperv_backup", "mssql_backup", "vault_sync", "snmp_poll", "script",
    "sensitive_data_scan", "encrypt_file", "secure_delete_file", "quarantine_file", "cis_benchmark",
    "apply_cis_remediation"]

def Post.testedTypes : List String :=
  securityCommandTypes ++ sensitiveDataCommandTypes ++ DR_COMMAND_TYPES ++
    ["filesystem_analysis", "software_uninstall", "collect_audit_policy", "apply_audit_policy_baseline", "cis_benchmark",
      "apply_cis_remediation", "backup_verify", "backup_test_restore", "backup_restore", "vault_sync"]

variable {x c r} {stdout : Option String}

theorem lookup_unhandled (other : c.type ∉ Socket.handledTypes) :
    (Socket.commandResultHandlers x c r stdout).lookup c.type = none := by
  rw [lookup_eq_none_iff]
  intro entry member
  have among : entry.1 ∈ Socket.handledTypes := List.mem_map_of_mem (f := Prod.fst) member
  exact bne_iff_ne.mpr fun same => other (same ▸ among)

theorem followUps_untested (other : c.type ∉ Post.testedTypes) : Post.followUps x c r stdout = [] := by
  simp only [Post.testedTypes, mem_append, not_or] at other
  obtain ⟨⟨⟨security, sensitive⟩, recovery⟩, rest⟩ := other
  simp only [mem_cons, not_mem_nil, or_false, not_or] at rest
  simp only [DR_COMMAND_TYPES, mem_cons, not_mem_nil, or_false, not_or] at recovery
  simp [Post.followUps, Post.disasterRecovery, DR_COMMAND_TYPES, security, sensitive, rest, recovery]

theorem socket_uncritical (plain : detectCriticalFamily c.type = none) :
    Socket.afterStored x c r =
      (((Socket.commandResultHandlers x c r (r.toStdout x.platform)).lookup c.type).getD none).toList := by
  have other : c.type ∉ DR_COMMAND_TYPES := by
    intro recovery
    rw [detectCriticalFamily] at plain
    split_ifs at plain
  simp [Socket.afterStored, Socket.normalizeCriticalResultIfNeeded, Socket.disasterRecovery, plain, other]

theorem post_uncritical (plain : detectCriticalFamily c.type = none) :
    Post.afterStored x c r = Post.followUps x c r (r.toStdout x.platform) := by
  simp [Post.afterStored, Post.normalizeCriticalResultIfNeeded, plain]

theorem agree_of_options (socket post : Option FollowUp) (bySocket : Socket.afterStored x c r = socket.toList)
    (byPost : Post.afterStored x c r = post.toList) : SameFollowUps x c r ↔ socket = post := by
  rw [SameFollowUps, bySocket, byPost, effectsOn_toList_iff]

theorem agree_untested (handler : Option FollowUp) (plain : detectCriticalFamily c.type = none)
    (other : c.type ∉ Post.testedTypes)
    (handled : (Socket.commandResultHandlers x c r (r.toStdout x.platform)).lookup c.type = some handler) :
    SameFollowUps x c r ↔ handler = none := by
  refine agree_of_options _ _ ?_ ?_
  · rw [socket_uncritical plain, handled, getD_some]
  · rw [post_uncritical plain, followUps_untested other, toList_none]

theorem agree_script (named : c.type = "script") : SameFollowUps x c r ↔ Socket.namedExecution c = none := by
  rw [agree_untested (Socket.handleScriptResult c r (r.toStdout x.platform)) (by rw [named]; decide)
    (by rw [named]; decide) (by rw [named]; rfl), Socket.handleScriptResult, map_eq_none_iff]

theorem agree_discovery (named : c.type = "network_discovery") :
    SameFollowUps x c r ↔ Socket.expectedDiscovery c r = none := by
  rw [agree_untested (Socket.handleDiscoveryResult x c r) (by rw [named]; decide) (by rw [named]; decide)
    (by rw [named]; rfl), Socket.handleDiscoveryResult, map_eq_none_iff]

theorem agree_snmpPoll (named : c.type = "snmp_poll") :
    SameFollowUps x c r ↔ Socket.expectedSnmpPoll c r x.platform = none := by
  rw [agree_untested (Socket.handleSnmpPollResult x c r) (by rw [named]; decide) (by rw [named]; decide)
    (by rw [named]; rfl), Socket.handleSnmpPollResult, map_eq_none_iff]

theorem agree_providerBackup (named : c.type = "hyperv_backup" ∨ c.type = "mssql_backup") :
    SameFollowUps x c r ↔ Socket.providerBackupJobId c = none := by
  have handler : SameFollowUps x c r ↔ Socket.handleProviderBackedBackupResult c r = none := by
    cases named with
    | inl named | inr named =>
      exact agree_untested _ (by rw [named]; decide) (by rw [named]; decide) (by rw [named]; rfl)
  rw [handler, Socket.handleProviderBackedBackupResult, map_eq_none_iff]

theorem agree_unhandled (plain : detectCriticalFamily c.type = none) (other : c.type ∉ Socket.handledTypes) :
    SameFollowUps x c r ↔ Post.followUps x c r (r.toStdout x.platform) = [] := by
  rw [SameFollowUps, socket_uncritical plain, lookup_unhandled other, getD_none, toList_none, post_uncritical plain]
  simp only [effectsOn_nil]
  exact (forall_congr' fun _ => eq_comm).trans (effectsOn_nil_iff area _)

def namesThreat (c : QueuedCommand) : Prop :=
  ((c.payload.text "threatId").filter isUuid).isSome ∨ ((c.payload.text "path").filter fun s => s ≠ "").isSome

theorem updateThreatStatus_none_iff : updateThreatStatusForAction c = none ↔ ¬namesThreat c := by
  simp only [updateThreatStatusForAction, namesThreat]
  split_ifs with named
  · exact iff_of_false not_false (not_not.mpr named)
  · exact iff_of_true rfl named

theorem handleSecurity_nil_iff :
    handleSecurityCommandResult x.platform c r = [] ↔
      getSecurityStatusFromResult x.platform (parseResultJson x.platform r.stdout) = none ∧
        c.type ≠ "security_scan" ∧ (c.type ≠ "security_collect_status" → r.status = .completed → ¬namesThreat c) := by
  rw [handleSecurityCommandResult, append_eq_nil_iff, toList_eq_nil_iff, map_eq_none_iff]
  refine and_congr_right fun _ => ?_
  split_ifs with collect scan completed
  · rw [collect]
    exact iff_of_true rfl ⟨by decide, fun apart => absurd rfl apart⟩
  · exact iff_of_false not_false fun both => both.1 scan
  · rw [toList_eq_nil_iff, updateThreatStatus_none_iff]
    exact ⟨fun none => ⟨scan, fun _ _ => none⟩, fun both => both.2 collect completed⟩
  · exact iff_of_true rfl ⟨scan, fun _ ended => absurd ended completed⟩

theorem agree_security (named : c.type ∈ securityCommandTypes) :
    SameFollowUps x c r ↔
      getSecurityStatusFromResult x.platform (parseResultJson x.platform r.stdout) = none ∧
        c.type ≠ "security_scan" ∧ (c.type ≠ "security_collect_status" → r.status = .completed → ¬namesThreat c) := by
  rw [← handleSecurity_nil_iff, agree_unhandled]
  · suffices Post.followUps x c r (r.toStdout x.platform) = handleSecurityCommandResult x.platform c r by rw [this]
    simp only [securityCommandTypes, mem_cons, not_mem_nil, or_false] at named
    rcases named with named | named | named | named | named
    all_goals
      simp [Post.followUps, Post.disasterRecovery, named, securityCommandTypes, sensitiveDataCommandTypes,
        DR_COMMAND_TYPES]
  · have plain : ∀ type ∈ securityCommandTypes, detectCriticalFamily type = none := by decide
    exact plain _ named
  · have unhandled : ∀ type ∈ securityCommandTypes, type ∉ Socket.handledTypes := by decide
    exact unhandled _ named

theorem followUps_named :
    (c.type = "filesystem_analysis" →
        Post.followUps x c r stdout = (handleFilesystemAnalysisCommandResult x.platform c r).toList) ∧
      (c.type = "software_uninstall" →
        Post.followUps x c r stdout = (handleSoftwareRemediationCommandResult c r).toList) ∧
      (c.type = "collect_audit_policy" →
        Post.followUps x c r stdout = if r.status = .completed then
          (processCollectedAuditPolicyCommandResult x.platform c stdout).toList else []) ∧
      (c.type = "apply_audit_policy_baseline" →
        Post.followUps x c r stdout = if r.status = .completed then [queueAuditPolicyCollection c] else []) := by
  refine ⟨fun named => ?_, fun named => ?_, fun named => ?_, fun named => ?_⟩
  all_goals
    simp [Post.followUps, Post.disasterRecovery, named, securityCommandTypes, sensitiveDataCommandTypes, DR_COMMAND_TYPES]

theorem agree_filesystem (named : c.type = "filesystem_analysis") :
    SameFollowUps x c r ↔
      (r.status = .completed → parseFilesystemAnalysisStdout x.platform (r.stdout.getD "") = []) := by
  rw [agree_unhandled (by rw [named]; decide) (by rw [named]; decide), followUps_named.1 named, toList_eq_nil_iff,
    handleFilesystemAnalysisCommandResult]
  split_ifs with completed
  · simp [completed]
  · simp [completed]

theorem agree_software (named : c.type = "software_uninstall") :
    SameFollowUps x c r ↔ uuidMember c "policyId" = none := by
  rw [agree_unhandled (by rw [named]; decide) (by rw [named]; decide), followUps_named.2.1 named,
    toList_eq_nil_iff, handleSoftwareRemediationCommandResult, map_eq_none_iff]

theorem agree_collectAuditPolicy (named : c.type = "collect_audit_policy") :
    SameFollowUps x c r ↔ (r.status = .completed → parseResultJson x.platform (r.toStdout x.platform) = none) := by
  rw [agree_unhandled (by rw [named]; decide) (by rw [named]; decide), followUps_named.2.2.1 named]
  split_ifs with completed
  · rw [toList_eq_nil_iff, processCollectedAuditPolicyCommandResult, map_eq_none_iff]
    exact ⟨fun none _ => none, fun none => none completed⟩
  · exact iff_of_true rfl fun ended => absurd ended completed

theorem agree_applyAuditPolicy (named : c.type = "apply_audit_policy_baseline") :
    SameFollowUps x c r ↔ r.status ≠ .completed := by
  rw [agree_unhandled (by rw [named]; decide) (by rw [named]; decide), followUps_named.2.2.2 named]
  split_ifs with completed
  · exact iff_of_false not_false (not_not.mpr completed)
  · exact iff_of_true rfl completed

def scanReads (x : ResultContext) (c : QueuedCommand) (stdout : Option String) :
    Option (String × Json × List SensitiveFinding) :=
  let resultJson := parseResultJson x.platform stdout
  (sensitiveScanId c resultJson).map fun scanId =>
    (scanId, sensitiveSummary resultJson, dedupedFindings x.platform resultJson)

def remediationReads (x : ResultContext) (c : QueuedCommand) (stdout : Option String) :
    List (String × Json) × Option Json × Option Json × Option (Option String) :=
  let resultPayload := parseResultJson x.platform stdout
  (remediationDetails c resultPayload, stateFromResult resultPayload "beforeState" "before_state",
    stateFromResult resultPayload "afterState" "after_state", remediationHint c resultPayload)

theorem agree_sensitive (named : c.type ∈ sensitiveDataCommandTypes) :
    SameFollowUps x c r ↔
      handleSensitiveDataCommandResult x.platform c (Socket.flattened r (r.toStdout x.platform)) =
        handleSensitiveDataCommandResult x.platform c r := by
  refine agree_of_options _ _ ?_ ?_
  all_goals
    simp only [sensitiveDataCommandTypes, mem_cons, not_mem_nil, or_false] at named
    rcases named with named | named | named | named
  all_goals
    have plain : detectCriticalFamily c.type = none := by rw [named]; decide
    simp [socket_uncritical plain, post_uncritical plain, Socket.commandResultHandlers, Socket.handleSensitiveDataResult,
      Post.followUps, Post.disasterRecovery, named, DR_COMMAND_TYPES, securityCommandTypes, sensitiveDataCommandTypes,
      lookup_cons]

theorem agree_sensitiveScan (named : c.type = "sensitive_data_scan") :
    SameFollowUps x c r ↔ scanReads x c (r.toStdout x.platform) = scanReads x c r.stdout := by
  rw [agree_sensitive (by rw [named]; decide)]
  simp only [handleSensitiveDataCommandResult, named, if_true, Socket.flattened, scanReads]
  cases sensitiveScanId c (parseResultJson x.platform (r.toStdout x.platform)) with
  | none =>
    cases sensitiveScanId c (parseResultJson x.platform r.stdout) with
    | none | some scanId => simp
  | some scanId =>
    cases sensitiveScanId c (parseResultJson x.platform r.stdout) with
    | none | some scanId => simp

theorem agree_sensitiveRemediation (named : c.type ∈ sensitiveDataCommandTypes)
    (other : c.type ≠ "sensitive_data_scan") : SameFollowUps x c r := by
  rw [agree_sensitive named, handleSensitiveDataCommandResult, handleSensitiveDataCommandResult, if_neg other,
    if_neg other]
  rfl

theorem agree_cis (named : c.type = "cis_benchmark" ∨ c.type = "apply_cis_remediation") :
    SameFollowUps x c r ↔
      handleCisCommandResult x.platform c (Socket.flattened r (r.toStdout x.platform)) =
        handleCisCommandResult x.platform c r := by
  refine agree_of_options _ _ ?_ ?_
  all_goals
    cases named with
    | inl named | inr named =>
      have plain : detectCriticalFamily c.type = none := by rw [named]; decide
      simp [socket_uncritical plain, post_uncritical plain, Socket.commandResultHandlers, Socket.handleCisResult,
        Post.followUps, Post.disasterRecovery, named, DR_COMMAND_TYPES, securityCommandTypes,
        sensitiveDataCommandTypes, lookup_cons]

theorem agree_cisBenchmark (named : c.type = "cis_benchmark") :
    SameFollowUps x c r ↔
      (uuidMember c "baselineId" = none ∨ r.status ≠ .completed ∨
        parseCisCollectorOutput x.platform (r.toStdout x.platform) = parseCisCollectorOutput x.platform r.stdout) := by
  rw [agree_cis (.inl named)]
  simp only [handleCisCommandResult, named, if_true, Socket.flattened, cisOutput]
  cases uuidMember c "baselineId" with
  | none => simp
  | some baselineId =>
    split_ifs with completed
    · simp [completed]
    · simp [completed, failedCollectorOutput]

theorem agree_cisRemediation (named : c.type = "apply_cis_remediation") :
    SameFollowUps x c r ↔
      (uuidMember c "actionId" = none ∨
        remediationReads x c (r.toStdout x.platform) = remediationReads x c r.stdout) := by
  have other : c.type ≠ "cis_benchmark" := by rw [named]; decide
  rw [agree_cis (.inr named), handleCisCommandResult, handleCisCommandResult, if_neg other, if_neg other]
  simp only [Socket.flattened, remediationReads]
  cases uuidMember c "actionId" with
  | none | some actionId => simp

theorem agree_refused
    (refused : (Post.normalizeCriticalResultIfNeeded x.platform x.validate c.type r).validationError.isSome) :
    SameFollowUps x c r := by
  rw [SameFollowUps]
  intro a
  simp [Socket.afterStored, Post.afterStored, normalize_same, refused]

theorem validation_refused_iff (critical : (detectCriticalFamily c.type).isSome) :
    (Post.normalizeCriticalResultIfNeeded x.platform x.validate c.type r).validationError.isSome ↔
      ∃ message, x.validate c.type r = .error message := by
  rw [Post.normalizeCriticalResultIfNeeded, if_neg (by rw [isNone_iff_eq_none]; exact isSome_iff_ne_none.mp critical)]
  cases x.validate c.type r with
  | ok validated => cases validated <;> simp
  | error message => simp

theorem agree_critical (named : c.type ∈ ["backup_verify", "backup_test_restore", "vault_sync", "backup_restore"]) :
    SameFollowUps x c r := by
  by_cases refused : (Post.normalizeCriticalResultIfNeeded x.platform x.validate c.type r).validationError.isSome
  · exact agree_refused refused
  · rw [SameFollowUps]
    intro a
    simp only [Socket.afterStored, Post.afterStored, normalize_same, refused, if_false, Bool.false_eq_true]
    simp only [mem_cons, not_mem_nil, or_false] at named
    rcases named with named | named | named | named
    all_goals
      simp [Socket.disasterRecovery, Socket.commandResultHandlers, Post.followUps, Post.disasterRecovery, named,
        DR_COMMAND_TYPES, securityCommandTypes, sensitiveDataCommandTypes, lookup_cons,
        Socket.handleBackupVerificationResult, Socket.handleVaultSyncResult, Socket.handleVmRestoreResult]

/-- The command of a disaster recovery names its execution and its group. -/
def namesRecovery (c : QueuedCommand) : Prop :=
  (c.payload.text "drExecutionId").any (fun s => s ≠ "") ∧ (c.payload.text "drGroupId").any fun s => s ≠ ""

def recoveryRestore (c : QueuedCommand) (r : SubmittedResult) : List FollowUp :=
  if c.type ∈ ["vm_restore_from_backup", "vm_instant_boot", "bmr_recover"] then [updateRestoreJobByCommandId c r] else []

theorem socket_recovery_area : ∀ e ∈ Socket.disasterRecovery c r, e.area = .disasterRecovery := by
  intro e member
  simp only [Socket.disasterRecovery, handleDrCommandResult, enqueueDrExecutionReconcile] at member
  split at member
  · simp only [mem_append, mem_toList, map_eq_some_iff] at member
    cases member with
    | inl updated =>
      obtain ⟨group, -, rfl⟩ := updated
      rfl
    | inr queued =>
      split_ifs at queued
      cases queued
      rfl
  · cases member

theorem post_recovery_sub : ∀ e ∈ Post.disasterRecovery x c r, e ∈ Socket.disasterRecovery c r := by
  intro e member
  simp only [Post.disasterRecovery, Socket.disasterRecovery] at member ⊢
  split at member
  · split_ifs at member with raised
    · rw [append_nil] at member
      exact mem_append_left _ member
    · exact member
  · cases member

theorem handleDr_isSome_iff (drExecutionId : String) :
    (handleDrCommandResult c r drExecutionId).isSome ↔
      drExecutionId ≠ "" ∧ (c.payload.text "drGroupId").any fun s => s ≠ "" := by
  rw [handleDrCommandResult, isSome_map]
  cases c.payload.text "drGroupId" with
  | none => simp
  | some drGroupId => by_cases empty : drExecutionId = "" <;> simp [Option.filter, empty]

theorem recovery_same_iff (named : c.type ∈ DR_COMMAND_TYPES) :
    Socket.disasterRecovery c r = Post.disasterRecovery x c r ↔ ¬(namesRecovery c ∧ x.drRaises) := by
  rw [Socket.disasterRecovery, Post.disasterRecovery, if_pos named, namesRecovery]
  cases c.payload.text "drExecutionId" with
  | none => simp
  | some drExecutionId =>
    rw [append_right_inj]
    split_ifs with raised
    · have both := (handleDr_isSome_iff drExecutionId).mp raised.1
      rw [enqueueDrExecutionReconcile, if_neg both.1]
      exact iff_of_false (cons_ne_nil _ _)
        (not_not.mpr ⟨⟨decide_eq_true both.1, both.2⟩, raised.2⟩)
    · exact iff_of_true rfl fun both => raised
        ⟨(handleDr_isSome_iff drExecutionId).mpr ⟨of_decide_eq_true both.1.1, both.1.2⟩, both.2⟩

theorem agree_recovery (named : c.type ∈ DR_COMMAND_TYPES) :
    SameFollowUps x c r ↔ ((∃ message, x.validate c.type r = .error message) ∨ ¬(namesRecovery c ∧ x.drRaises)) := by
  have critical : ∀ type ∈ DR_COMMAND_TYPES, (detectCriticalFamily type).isSome := by decide
  rw [← validation_refused_iff (critical _ named)]
  by_cases refused : (Post.normalizeCriticalResultIfNeeded x.platform x.validate c.type r).validationError.isSome
  · exact iff_of_true (agree_refused refused) (.inl refused)
  · have socket : Socket.afterStored x c r = Socket.disasterRecovery c
        (Post.normalizeCriticalResultIfNeeded x.platform x.validate c.type r).result ++
          recoveryRestore c (Post.normalizeCriticalResultIfNeeded x.platform x.validate c.type r).result := by
      simp only [Socket.afterStored, normalize_same, refused, if_false, Bool.false_eq_true]
      simp only [DR_COMMAND_TYPES, mem_cons, not_mem_nil, or_false] at named
      rcases named with named | named | named | named | named
      all_goals
        simp [recoveryRestore, named, Socket.commandResultHandlers, lookup_cons, Socket.handleVmRestoreResult]
    have post : Post.afterStored x c r = recoveryRestore c
        (Post.normalizeCriticalResultIfNeeded x.platform x.validate c.type r).result ++ Post.disasterRecovery x c
          (Post.normalizeCriticalResultIfNeeded x.platform x.validate c.type r).result := by
      simp only [Post.afterStored, refused, if_false, Bool.false_eq_true]
      simp only [DR_COMMAND_TYPES, mem_cons, not_mem_nil, or_false] at named
      rcases named with named | named | named | named | named
      all_goals
        simp [recoveryRestore, Post.followUps, named, securityCommandTypes, sensitiveDataCommandTypes]
    rw [SameFollowUps, socket, post, effectsOn_swap_iff area socket_recovery_area
      (fun e member => socket_recovery_area e (post_recovery_sub e member)), recovery_same_iff named]
    · exact (or_iff_right refused).symm
    · intro e member
      rw [recoveryRestore] at member
      split_ifs at member
      · rw [mem_singleton.mp member]
        intro same
        cases same
      · cases member

theorem same_otherwise (unhandled : c.type ∉ Socket.handledTypes) (untested : c.type ∉ Post.testedTypes) :
    SameFollowUps x c r := by
  have plain : detectCriticalFamily c.type = none := by
    simp only [Post.testedTypes, mem_append, mem_cons, not_mem_nil, or_false, not_or] at untested
    simp [detectCriticalFamily, VERIFICATION_COMMAND_TYPES, VAULT_COMMAND_TYPES, RESTORE_RESULT_TYPES, untested]
    simp [Socket.handledTypes] at unhandled
    simp [unhandled]
  rw [agree_unhandled plain unhandled, followUps_untested untested]

/-- Where a result has the same consequences on both ways: what one way alone acts on is missing, what only one way
hands on makes no difference, and the update of a recovery does not throw. -/
structure WaysAgree (x : ResultContext) (c : QueuedCommand) (r : SubmittedResult) : Prop where
  script : c.type = "script" → Socket.namedExecution c = none
  discovery : c.type = "network_discovery" → Socket.expectedDiscovery c r = none
  snmpPoll : c.type = "snmp_poll" → Socket.expectedSnmpPoll c r x.platform = none
  providerBackup : c.type = "hyperv_backup" ∨ c.type = "mssql_backup" → Socket.providerBackupJobId c = none
  security : c.type ∈ securityCommandTypes →
    getSecurityStatusFromResult x.platform (parseResultJson x.platform r.stdout) = none ∧ c.type ≠ "security_scan" ∧
      (c.type ≠ "security_collect_status" → r.status = .completed → ¬namesThreat c)
  filesystem : c.type = "filesystem_analysis" →
    r.status = .completed → parseFilesystemAnalysisStdout x.platform (r.stdout.getD "") = []
  software : c.type = "software_uninstall" → uuidMember c "policyId" = none
  collectAuditPolicy : c.type = "collect_audit_policy" →
    r.status = .completed → parseResultJson x.platform (r.toStdout x.platform) = none
  applyAuditPolicy : c.type = "apply_audit_policy_baseline" → r.status ≠ .completed
  sensitiveScan : c.type = "sensitive_data_scan" → scanReads x c (r.toStdout x.platform) = scanReads x c r.stdout
  cisBenchmark : c.type = "cis_benchmark" →
    uuidMember c "baselineId" = none ∨ r.status ≠ .completed ∨
      parseCisCollectorOutput x.platform (r.toStdout x.platform) = parseCisCollectorOutput x.platform r.stdout
  cisRemediation : c.type = "apply_cis_remediation" →
    uuidMember c "actionId" = none ∨ remediationReads x c (r.toStdout x.platform) = remediationReads x c r.stdout
  recovery : c.type ∈ DR_COMMAND_TYPES →
    (∃ message, x.validate c.type r = .error message) ∨ ¬(namesRecovery c ∧ x.drRaises)

theorem ways_of_same (same : SameFollowUps x c r) : WaysAgree x c r where
  script named := (agree_script named).mp same
  discovery named := (agree_discovery named).mp same
  snmpPoll named := (agree_snmpPoll named).mp same
  providerBackup named := (agree_providerBackup named).mp same
  security named := (agree_security named).mp same
  filesystem named := (agree_filesystem named).mp same
  software named := (agree_software named).mp same
  collectAuditPolicy named := (agree_collectAuditPolicy named).mp same
  applyAuditPolicy named := (agree_applyAuditPolicy named).mp same
  sensitiveScan named := (agree_sensitiveScan named).mp same
  cisBenchmark named := (agree_cisBenchmark named).mp same
  cisRemediation named := (agree_cisRemediation named).mp same
  recovery named := (agree_recovery named).mp same

theorem same_handled (ways : WaysAgree x c r) (handled : c.type ∈ Socket.handledTypes) : SameFollowUps x c r := by
  simp only [Socket.handledTypes, mem_cons, not_mem_nil, or_false] at handled
  rcases handled with t | t | t | t | t | t | t | t | t | t | t | t | t | t | t | t | t | t
  · exact (agree_discovery t).mpr (ways.discovery t)
  · exact agree_critical (by rw [t]; decide)
  · exact agree_critical (by rw [t]; decide)
  · exact agree_critical (by rw [t]; decide)
  · exact (agree_recovery (by rw [t]; decide)).mpr (ways.recovery (by rw [t]; decide))
  · exact (agree_recovery (by rw [t]; decide)).mpr (ways.recovery (by rw [t]; decide))
  · exact (agree_recovery (by rw [t]; decide)).mpr (ways.recovery (by rw [t]; decide))
  · exact (agree_providerBackup (.inl t)).mpr (ways.providerBackup (.inl t))
  · exact (agree_providerBackup (.inr t)).mpr (ways.providerBackup (.inr t))
  · exact agree_critical (by rw [t]; decide)
  · exact (agree_snmpPoll t).mpr (ways.snmpPoll t)
  · exact (agree_script t).mpr (ways.script t)
  · exact (agree_sensitiveScan t).mpr (ways.sensitiveScan t)
  · exact agree_sensitiveRemediation (by rw [t]; decide) (by rw [t]; decide)
  · exact agree_sensitiveRemediation (by rw [t]; decide) (by rw [t]; decide)
  · exact agree_sensitiveRemediation (by rw [t]; decide) (by rw [t]; decide)
  · exact (agree_cisBenchmark t).mpr (ways.cisBenchmark t)
  · exact (agree_cisRemediation t).mpr (ways.cisRemediation t)

theorem same_of_ways (ways : WaysAgree x c r) : SameFollowUps x c r := by
  by_cases handled : c.type ∈ Socket.handledTypes
  · exact same_handled ways handled
  · by_cases tested : c.type ∈ Post.testedTypes
    · by_cases recovery : c.type ∈ DR_COMMAND_TYPES
      · exact (agree_recovery recovery).mpr (ways.recovery recovery)
      · by_cases security : c.type ∈ securityCommandTypes
        · exact (agree_security security).mpr (ways.security security)
        · have alone : c.type ∈ ["filesystem_analysis", "software_uninstall", "collect_audit_policy",
              "apply_audit_policy_baseline"] := by
            simp only [Post.testedTypes, mem_append, security, recovery, or_false, false_or] at tested
            simp only [Socket.handledTypes, sensitiveDataCommandTypes, mem_cons, not_mem_nil, or_false,
              not_or] at handled tested ⊢
            simpa [handled] using tested
          simp only [mem_cons, not_mem_nil, or_false] at alone
          rcases alone with t | t | t | t
          · exact (agree_filesystem t).mpr (ways.filesystem t)
          · exact (agree_software t).mpr (ways.software t)
          · exact (agree_collectAuditPolicy t).mpr (ways.collectAuditPolicy t)
          · exact (agree_applyAuditPolicy t).mpr (ways.applyAuditPolicy t)
    · exact same_otherwise handled tested

end Agreement

/-- A result stored for a command in flight of the agent changes the same rows on both ways exactly when the ways
agree on it. -/
theorem same_consequences_iff (x : ResultContext) (c : QueuedCommand) (r : SubmittedResult)
    (agents : c.targetRole = .agent) (inFlight : c.Open) : FollowUpsAgree x c r ↔ WaysAgree x c r :=
  (followUpsAgree_iff x c r agents inFlight).trans ⟨ways_of_same, same_of_ways⟩

def sampleContext : ResultContext where
  platform := {
    parseJson := fun s => if s = "\x7b\x7d" then .ok (.object []) else .error "Unexpected token"
    stringify := fun _ => "null"
    toNumber := fun _ => none
    exceedsZero := fun _ => false
    parseDate := fun _ => none
    percentage := fun _ _ => 100 }
  validate := fun _ _ => .ok none
  agentId := "agent"
  drRaises := false

def sampleCommand (type : String) (payload : Json) : QueuedCommand :=
  ⟨"7d444840-9dc0-41d1-b245-5ffdce74fad2", "device", type, payload, .sent, .agent, none⟩

def completedResult (stdout : Option String) : SubmittedResult := ⟨.completed, some 0, stdout, none, none, none, none⟩

def runningScript : BatchDb where
  batch := ⟨1, 1, 0, 0, .running, none⟩
  runs := [⟨⟨1, .running, 0, some 1, none, none, none, none, none⟩,
    ⟨"script", none, .agent, 0, .sent, some 1, none, none⟩⟩]
  accepted := []

/-- The handler of scripts on the rows of one batch, whose execution is the one named. -/
def settleScript (e : FollowUp) (d : BatchDb) : BatchDb :=
  if e.area = .scripts then handleScriptResult d 0 ⟨.completed, some 0, some "done", none, none, none, none, none⟩ 2 else d

theorem empty_scan_agrees :
    FollowUpsAgree sampleContext (sampleCommand "sensitive_data_scan" .null) (completedResult (some "\x7b\x7d")) := by
  refine (same_consequences_iff sampleContext (sampleCommand "sensitive_data_scan" .null)
    (completedResult (some "\x7b\x7d")) rfl (.inr rfl)).mpr ?_
  constructor
  case sensitiveScan => exact fun _ => rfl
  all_goals exact fun named => absurd named (by decide)

/-- A script that has run stays running where its result is posted, and software that is removed is noted only there. -/
theorem ways_differ :
    let script := sampleCommand "script" (.object [("executionId", .string "7d444840-9dc0-41d1-b245-5ffdce74fad3")])
    let removal := sampleCommand "software_uninstall"
      (.object [("policyId", .string "7d444840-9dc0-41d1-b245-5ffdce74fad4")])
    let ended := completedResult (some "done")
    (performAll area settleScript (fun _ => runningScript)
        (Socket.processCommandResult sampleContext script ended) .scripts).runs.map
          (fun run => run.execution.status) = [.completed] ∧
      (performAll area settleScript (fun _ => runningScript)
        (Post.postCommandResult sampleContext .agent script ended) .scripts).runs.map
          (fun run => run.execution.status) = [.running] ∧
      Socket.processCommandResult sampleContext removal ended = [] ∧
      Post.postCommandResult sampleContext .agent removal ended ≠ [] ∧ ¬FollowUpsAgree sampleContext script ended := by
  refine ⟨by decide, by decide, rfl, cons_ne_nil _ _, fun agree => ?_⟩
  have rows := congrFun (agree BatchDb settleScript fun _ => runningScript) .scripts
  exact absurd (congrArg (fun d => d.runs.map fun run => run.execution.status) rows) (by decide)

end RemudaRmm.Agents
