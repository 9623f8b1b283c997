import RemudaRmm.Devices.FilterEngine

/-! The check that a device filter passes before it is stored (`validateFilter`), and which of the filters that pass it
the builder can turn into SQL. A definition of a field is its key and its operators. -/
namespace RemudaRmm.Devices
open Foundation List

inductive FilterFieldType where
  | string
  | number
  | boolean
  | date
  | datetime
  | array
  | enum

def operatorsByType : FilterFieldType → List FilterOperator
  | .string => [.equals, .notEquals, .contains, .notContains, .startsWith, .endsWith, .matches, .inList, .notIn, .isNull,
      .isNotNull]
  | .number => [.equals, .notEquals, .greaterThan, .greaterThanOrEquals, .lessThan, .lessThanOrEquals, .between, .isNull,
      .isNotNull]
  | .boolean => [.equals, .notEquals, .isNull, .isNotNull]
  | .date => [.equals, .notEquals, .before, .after, .between, .withinLast, .notWithinLast, .isNull, .isNotNull]
  | .datetime => [.equals, .notEquals, .before, .after, .between, .withinLast, .notWithinLast, .isNull, .isNotNull]
  | .array => [.hasAny, .hasAll, .isEmpty, .isNotEmpty, .contains]
  | .enum => [.equals, .notEquals, .inList, .notIn]

structure FilterFieldDefinition where
  key : Text
  operators : List FilterOperator

def filterFields : List FilterFieldDefinition :=
  [⟨"hostname".toList, operatorsByType .string⟩, ⟨"displayName".toList, operatorsByType .string⟩,
   ⟨"status".toList, operatorsByType .enum⟩, ⟨"agentVersion".toList, operatorsByType .string⟩,
   ⟨"enrolledAt".toList, operatorsByType .datetime⟩, ⟨"lastSeenAt".toList, operatorsByType .datetime⟩,
   ⟨"tags".toList, operatorsByType .array⟩, ⟨"deviceRole".toList, operatorsByType .enum⟩,
   ⟨"lastUser".toList, operatorsByType .string⟩, ⟨"isHeadless".toList, operatorsByType .boolean⟩,
   ⟨"uptimeSeconds".toList, operatorsByType .number⟩, ⟨"watchdogStatus".toList, operatorsByType .enum⟩,
   ⟨"quarantinedAt".toList, operatorsByType .datetime⟩, ⟨"lastSeenIp".toList, operatorsByType .string⟩,
   ⟨"osType".toList, operatorsByType .enum⟩, ⟨"osVersion".toList, operatorsByType .string⟩,
   ⟨"osBuild".toList, operatorsByType .string⟩, ⟨"architecture".toList, operatorsByType .enum⟩,
   ⟨"hardware.manufacturer".toList, operatorsByType .string⟩, ⟨"hardware.model".toList, operatorsByType .string⟩,
   ⟨"hardware.serialNumber".toList, operatorsByType .string⟩, ⟨"hardware.cpuModel".toList, operatorsByType .string⟩,
   ⟨"hardware.cpuCores".toList, operatorsByType .number⟩, ⟨"hardware.ramTotalMb".toList, operatorsByType .number⟩,
   ⟨"hardware.diskTotalGb".toList, operatorsByType .number⟩, ⟨"hardware.gpuModel".toList, operatorsByType .string⟩,
   ⟨"network.ipAddress".toList, operatorsByType .string⟩, ⟨"network.publicIp".toList, operatorsByType .string⟩,
   ⟨"network.macAddress".toList, operatorsByType .string⟩, ⟨"metrics.cpuPercent".toList, operatorsByType .number⟩,
   ⟨"metrics.ramPercent".toList, operatorsByType .number⟩, ⟨"metrics.diskPercent".toList, operatorsByType .number⟩,
   ⟨"software.installed".toList, [.contains, .notContains, .equals, .inList, .hasAny, .hasAll]⟩,
   ⟨"software.notInstalled".toList, [.contains, .equals, .inList, .hasAny]⟩,
   ⟨"patches.pending".toList, [.equals, .notEquals]⟩, ⟨"alerts.critical".toList, [.equals, .notEquals]⟩,
   ⟨"system.rebootRequired".toList, [.equals, .notEquals]⟩, ⟨"orgId".toList, [.equals, .inList]⟩,
   ⟨"siteId".toList, [.equals, .inList]⟩, ⟨"groupId".toList, [.equals, .inList]⟩,
   ⟨"daysSinceLastSeen".toList, operatorsByType .number⟩, ⟨"daysSinceEnrolled".toList, operatorsByType .number⟩]

def getFieldDefinition (fieldKey : Text) : Option FilterFieldDefinition :=
  match getCustomFieldKey fieldKey with
  | some _ => some ⟨fieldKey, operatorsByType .string⟩
  | none => filterFields.find? fun f => f.key = fieldKey

def maxRegexPatternLength : ℕ := 250

/-- The length of a string of the platform, in which a character outside the basic plane counts twice. -/
def unitLength (t : Text) : ℕ := (t.map fun c => if c.toNat < 65536 then 1 else 2).sum

def validateCondition (c : FilterCondition) : List String :=
  let fieldDef := getFieldDefinition c.field
  let custom := startsWith "custom." c.field
  (if custom ∧ getCustomFieldKey c.field = none then ["Invalid custom field key: " ++ String.ofList c.field] else []) ++
  (if fieldDef = none ∧ ¬custom then ["Unknown field: " ++ String.ofList c.field] else []) ++
  (match fieldDef with
    | some d =>
      if c.operator ∈ d.operators then []
      else ["Operator " ++ c.operator.name ++ " not valid for field " ++ String.ofList c.field]
    | none => []) ++
  (match c.operator, c.value with
    | .matches, .string t =>
      if maxRegexPatternLength < unitLength t then
        ["Regex pattern too long for field " ++ String.ofList c.field ++ " (max 250 characters)"]
      else []
    | _, _ => [])

mutual
def validateFilter : Filter → List String
  | .condition c => validateCondition c
  | .group _ conditions =>
    (if conditions.isEmpty then ["Group must have at least one condition"] else []) ++ validateAll conditions

def validateAll : List Filter → List String
  | [] => []
  | f :: rest => validateFilter f ++ validateAll rest
end

/-- The columns of the tables that a filter can name, by the names they have in the code. -/
def schemaColumns : Table → List (String × String)
  | .devices =>
    [("id", "id"), ("orgId", "org_id"), ("siteId", "site_id"), ("agentId", "agent_id"),
     ("agentTokenHash", "agent_token_hash"), ("tokenIssuedAt", "token_issued_at"),
     ("previousTokenHash", "previous_token_hash"), ("previousTokenExpiresAt", "previous_token_expires_at"),
     ("watchdogTokenHash", "watchdog_token_hash"), ("watchdogTokenIssuedAt", "watchdog_token_issued_at"),
     ("previousWatchdogTokenHash", "previous_watchdog_token_hash"),
     ("previousWatchdogTokenExpiresAt", "previous_watchdog_token_expires_at"),
     ("helperTokenHash", "helper_token_hash"), ("helperTokenIssuedAt", "helper_token_issued_at"),
     ("previousHelperTokenHash", "previous_helper_token_hash"),
     ("previousHelperTokenExpiresAt", "previous_helper_token_expires_at"),
     ("mtlsCertSerialNumber", "mtls_cert_serial_number"), ("mtlsCertExpiresAt", "mtls_cert_expires_at"),
     ("mtlsCertIssuedAt", "mtls_cert_issued_at"), ("mtlsCertCfId", "mtls_cert_cf_id"),
     ("quarantinedAt", "quarantined_at"), ("quarantinedReason", "quarantined_reason"),
     ("agentTokenSuspendedAt", "agent_token_suspended_at"),
     ("agentTokenSuspendedReason", "agent_token_suspended_reason"), ("lastSeenIp", "last_seen_ip"),
     ("hostname", "hostname"), ("displayName", "display_name"), ("osType", "os_type"),
     ("deviceRole", "device_role"), ("deviceRoleSource", "device_role_source"), ("isVirtual", "is_virtual"),
     ("virtualizationPlatform", "virtualization_platform"), ("osVersion", "os_version"), ("osBuild", "os_build"),
     ("architecture", "architecture"), ("agentVersion", "agent_version"), ("status", "status"),
     ("lastSeenAt", "last_seen_at"), ("enrolledAt", "enrolled_at"), ("enrolledBy", "enrolled_by"),
     ("tags", "tags"), ("customFields", "custom_fields"), ("managementPosture", "management_posture"),
     ("tccPermissions", "tcc_permissions"), ("desktopAccess", "desktop_access"), ("lastUser", "last_user"),
     ("uptimeSeconds", "uptime_seconds"), ("isHeadless", "is_headless"), ("pendingReboot", "pending_reboot"),
     ("watchdogStatus", "watchdog_status"), ("watchdogLastSeen", "watchdog_last_seen"),
     ("watchdogVersion", "watchdog_version"), ("mainAgentSilentSince", "main_agent_silent_since"),
     ("createdAt", "created_at"), ("updatedAt", "updated_at")]
  | .hardware =>
    [("deviceId", "device_id"), ("orgId", "org_id"), ("cpuModel", "cpu_model"), ("cpuCores", "cpu_cores"),
     ("cpuThreads", "cpu_threads"), ("ramTotalMb", "ram_total_mb"), ("diskTotalGb", "disk_total_gb"),
     ("gpuModel", "gpu_model"), ("serialNumber", "serial_number"), ("manufacturer", "manufacturer"),
     ("model", "model"), ("motherboardManufacturer", "motherboard_manufacturer"),
     ("motherboardProduct", "motherboard_product"), ("motherboardVersion", "motherboard_version"),
     ("biosVersion", "bios_version"), ("updatedAt", "updated_at")]
  | .network =>
    [("id", "id"), ("deviceId", "device_id"), ("orgId", "org_id"), ("interfaceName", "interface_name"),
     ("macAddress", "mac_address"), ("ipAddress", "ip_address"), ("ipType", "ip_type"),
     ("isPrimary", "is_primary"), ("publicIp", "public_ip"), ("updatedAt", "updated_at")]
  | .metrics =>
    [("deviceId", "device_id"), ("orgId", "org_id"), ("timestamp", "timestamp"), ("cpuPercent", "cpu_percent"),
     ("ramPercent", "ram_percent"), ("ramUsedMb", "ram_used_mb"), ("diskPercent", "disk_percent"),
     ("diskUsedGb", "disk_used_gb"), ("diskActivityAvailable", "disk_activity_available"),
     ("diskReadBytes", "disk_read_bytes"), ("diskWriteBytes", "disk_write_bytes"),
     ("diskReadBps", "disk_read_bps"), ("diskWriteBps", "disk_write_bps"), ("diskReadOps", "disk_read_ops"),
     ("diskWriteOps", "disk_write_ops"), ("networkInBytes", "network_in_bytes"),
     ("networkOutBytes", "network_out_bytes"), ("bandwidthInBps", "bandwidth_in_bps"),
     ("bandwidthOutBps", "bandwidth_out_bps"), ("interfaceStats", "interface_stats"),
     ("processCount", "process_count"), ("customMetrics", "custom_metrics")]
  | .software => []
  | .groups => []

/-- What a table object has under a name: a column, or something that the library puts there. -/
def tableProperty (other : Table → Text → Option Word) (table : Table) (name : Text) : Option Word :=
  match (schemaColumns table).find? fun c => c.1.toList = name with
  | some c => some (.column (tableName table) c.2)
  | none => other table name

def intervalUnits : List String := ["minutes", "hours", "days", "weeks", "months"]

def FilterValue.isRange : FilterValue → Bool
  | .range _ _ => true
  | _ => false

def FilterValue.isInterval : FilterValue → Bool
  | .span (.finite q) unit => 0 < q && intervalUnits.contains unit
  | _ => false

/-- The value has the form that the operator takes: an array, a range, or a positive span of time. -/
def takesValue (operator : FilterOperator) (value : FilterValue) : Bool :=
  match operator with
  | .inList | .notIn | .hasAny | .hasAll => value.items.isSome
  | .between => value.isRange
  | .withinLast | .notWithinLast => value.isInterval
  | _ => true

def buildable (c : FilterCondition) : Bool := startsWith "software." c.field || takesValue c.operator c.value

mutual
def leaves : Filter → List FilterCondition
  | .condition c => [c]
  | .group _ conditions => leavesOf conditions

def leavesOf : List Filter → List FilterCondition
  | [] => []
  | f :: rest => leaves f ++ leavesOf rest
end

section Builds
variable {other : Table → Text → Option Word} {stringOf : FilterValue → Text}

theorem isOk_map {α β : Type} (f : α → β) (e : Except String α) : (e.map f).isOk = e.isOk := by
  cases e with
  | error _ | ok _ => rfl

theorem getIntervalSQL_isOk (amount : Number) (unit : String) :
    (getIntervalSQL stringOf amount unit).isOk = (FilterValue.span amount unit).isInterval := by
  cases amount with
  | finite q =>
    unfold getIntervalSQL FilterValue.isInterval
    dsimp only
    split_ifs with small minutes hours days weeks months
    · simp [Except.isOk, Except.toBool, not_lt.mpr small]
    all_goals simp_all [Except.isOk, Except.toBool, intervalUnits]
  | infinite negative | nan => rfl

theorem sinceSQL_isOk (column : SQL) (sign refusal : String) (value : FilterValue) :
    (sinceSQL stringOf column sign value refusal).isOk = value.isInterval := by
  cases value with
  | span amount unit =>
    unfold sinceSQL
    rw [isOk_map, getIntervalSQL_isOk]
  | _ => rfl

theorem applyOperator_isOk (column : SQL) (operator : FilterOperator) (value : FilterValue) :
    (applyOperator stringOf column operator value).isOk = takesValue operator value := by
  unfold applyOperator
  cases operator with
  | inList | notIn =>
    unfold takesValue
    cases value.items with
    | none => rfl
    | some items =>
      cases items with
      | nil | cons v items => rfl
  | hasAny | hasAll =>
    unfold takesValue
    cases value.items with
    | none | some items => rfl
  | between =>
    cases value with
    | range lower upper => rfl
    | _ => rfl
  | withinLast | notWithinLast => exact sinceSQL_isOk _ _ _ _
  | _ => rfl

theorem groupSQL_isOk {operator : FilterOperator} (value : FilterValue) (offered : operator ∈ [.equals, .inList]) :
    (groupSQL operator value).isOk = takesValue operator value := by
  rcases mem_cons.mp offered with rfl | second
  · rfl
  · rcases mem_singleton.mp second with rfl
    unfold groupSQL takesValue
    dsimp only
    cases value.items with
    | none | some items => rfl

def softwareOperators : List FilterOperator := [.contains, .notContains, .equals, .inList, .hasAny, .hasAll]

theorem softwareSQL_isOk {operator : FilterOperator} (field : Text) (value : FilterValue)
    (offered : operator ∈ softwareOperators) : (softwareSQL stringOf field operator value).isOk = true := by
  unfold softwareSQL
  dsimp only
  split_ifs with none all
  · rfl
  · rfl
  · rfl
  all_goals
    have matched : (softwareMatch stringOf operator value).isOk = true := by
      cases operator with
      | contains | notContains | equals | inList | hasAny => rfl
      | hasAll => exact absurd rfl all
      | _ => simp [softwareOperators] at offered
    rw [isOk_map, matched]

/-- The route of a field: the operators that its table supports, and a column where one is needed. -/
def routed (d : FilterFieldDefinition) : Bool :=
  match virtualSQL d.key, getColumnForField d.key with
  | some _, _ => d.operators.all ([.equals, .notEquals].contains ·)
  | none, .error _ => false
  | none, .ok info =>
    match info.table, info.computed with
    | .software, _ => startsWith "software." d.key && d.operators.all (softwareOperators.contains ·)
    | _, some _ => true
    | .groups, none => d.operators.all ([.equals, .inList].contains ·)
    | table, none => ((schemaColumns table).find? fun c => c.1.toList = info.column).isSome

theorem filterFields_routed : ∀ d ∈ filterFields, routed d = true := by
  decide +kernel

theorem custom_routed {field : Text} {key : Text} (found : getCustomFieldKey field = some key)
    (operators : List FilterOperator) : routed ⟨field, operators⟩ = true := by
  have starts : startsWith "custom." field = true := by
    unfold getCustomFieldKey at found
    split_ifs at found with shape
    exact (Bool.and_eq_true_iff.mp shape).1
  obtain ⟨rest, rfl⟩ := List.isPrefixOf_iff_prefix.mp starts
  have plain : virtualSQL ("custom.".toList ++ rest) = none := rfl
  unfold routed
  rw [getColumnForField_custom starts found, plain]

theorem tableProperty_some {table : Table} {name : Text}
    (found : ((schemaColumns table).find? fun c => c.1.toList = name).isSome = true) :
    ∃ column, tableProperty other table name = some column := by
  obtain ⟨c, column⟩ := Option.isSome_iff_exists.mp found
  unfold tableProperty
  rw [column]
  exact ⟨_, rfl⟩

theorem buildConditionSQL_isOk {d : FilterFieldDefinition} (route : routed d = true) {operator : FilterOperator}
    (offered : operator ∈ d.operators) (value : FilterValue) :
    (buildConditionSQL (tableProperty other) stringOf ⟨d.key, operator, value⟩).isOk =
      buildable ⟨d.key, operator, value⟩ := by
  unfold routed at route
  unfold buildConditionSQL buildable
  dsimp only
  cases isVirtual : virtualSQL d.key with
  | some inner =>
    rw [isVirtual] at route
    have known := contains_iff_mem.mp (List.all_eq_true.mp route operator offered)
    have taken : takesValue operator value = true := by
      rcases mem_cons.mp known with rfl | second
      · rfl
      · rcases mem_singleton.mp second with rfl
        rfl
    rw [taken, Bool.or_true]
    rfl
  | none =>
    rw [isVirtual] at route
    dsimp only
    unfold fieldSQL
    by_cases starts : startsWith "software." d.key = true
    · rw [getColumnForField_software starts] at route ⊢
      have known := List.all_eq_true.mp (Bool.and_eq_true_iff.mp route).2 operator offered
      rw [starts, Bool.true_or]
      exact softwareSQL_isOk _ _ (contains_iff_mem.mp known)
    · rw [Bool.not_eq_true] at starts
      rw [starts, Bool.false_or]
      cases found : getColumnForField d.key with
      | error e =>
        rw [found] at route
        cases route
      | ok info =>
        rw [found] at route
        obtain ⟨table, column, computed⟩ := info
        cases computed with
        | some computed =>
          cases table with
          | software => simp [starts] at route
          | _ => exact applyOperator_isOk _ _ _
        | none =>
          cases table with
          | software => simp [starts] at route
          | devices | metrics =>
            obtain ⟨a, property⟩ := @tableProperty_some other _ _ route
            dsimp only
            rw [property]
            exact applyOperator_isOk _ _ _
          | hardware | network =>
            obtain ⟨a, property⟩ := @tableProperty_some other _ _ route
            dsimp only
            rw [property]
            exact (isOk_map _ _).trans (applyOperator_isOk _ _ _)
          | groups =>
            have known := List.all_eq_true.mp route operator offered
            exact groupSQL_isOk value (contains_iff_mem.mp known)

theorem getFieldDefinition_routed {field : Text} {d : FilterFieldDefinition}
    (found : getFieldDefinition field = some d) : d.key = field ∧ routed d = true := by
  unfold getFieldDefinition at found
  split at found
  next custom =>
    cases found
    exact ⟨rfl, custom_routed custom _⟩
  · have member := mem_of_find?_eq_some found
    have same := find?_some found
    exact ⟨of_decide_eq_true same, filterFields_routed d member⟩

theorem validateCondition_definition {c : FilterCondition} (valid : validateCondition c = []) :
    ∃ d, getFieldDefinition c.field = some d ∧ c.operator ∈ d.operators := by
  unfold validateCondition at valid
  dsimp only at valid
  rw [append_eq_nil_iff, append_eq_nil_iff, append_eq_nil_iff] at valid
  obtain ⟨⟨⟨key, known⟩, offered⟩, -⟩ := valid
  cases found : getFieldDefinition c.field with
  | none =>
    have noCustom : getCustomFieldKey c.field = none := by
      unfold getFieldDefinition at found
      split at found
      · cases found
      · assumption
    rw [found] at known
    split_ifs at key with bad
    split_ifs at known with unknown
    simp_all
  | some d =>
    rw [found] at offered
    dsimp only at offered
    split_ifs at offered with member
    exact ⟨d, rfl, member⟩

theorem validCondition_isOk {c : FilterCondition} (valid : validateCondition c = []) :
    (buildConditionSQL (tableProperty other) stringOf c).isOk = buildable c := by
  obtain ⟨d, found, offered⟩ := validateCondition_definition valid
  obtain ⟨same, route⟩ := getFieldDefinition_routed found
  have built := @buildConditionSQL_isOk other stringOf d route c.operator offered c.value
  rw [same] at built
  exact built

mutual
theorem buildSQL_isOk {f : Filter} (valid : validateFilter f = []) :
    (buildSQL (tableProperty other) stringOf f).isOk = (leaves f).all buildable := by
  match f with
  | .condition c =>
    unfold validateFilter at valid
    unfold buildSQL leaves
    rw [validCondition_isOk valid]
    simp
  | .group operator conditions =>
    unfold validateFilter at valid
    unfold buildSQL leaves
    rw [isOk_map]
    exact buildParts_isOk (append_eq_nil_iff.mp valid).2

theorem buildParts_isOk {fs : List Filter} (valid : validateAll fs = []) :
    (buildParts (tableProperty other) stringOf fs).isOk = (leavesOf fs).all buildable := by
  match fs with
  | [] =>
    unfold buildParts leavesOf
    rfl
  | f :: rest =>
    unfold validateAll at valid
    obtain ⟨first, second⟩ := append_eq_nil_iff.mp valid
    have one := @buildSQL_isOk f first
    have others := @buildParts_isOk rest second
    unfold buildParts leavesOf
    rw [List.all_append, ← one, ← others]
    cases buildSQL (tableProperty other) stringOf f with
    | error e => rfl
    | ok part =>
      cases buildParts (tableProperty other) stringOf rest with
      | error e | ok parts => rfl
end

/-- A valid filter is built without an error exactly when each of its conditions has a value of the form that its
operator takes. The check looks at the length of a regular expression only, and at no other value. -/
theorem valid_builds_iff (other : Table → Text → Option Word) (stringOf : FilterValue → Text)
    {operator : GroupOperator} {conditions : List Filter} (valid : validateFilter (.group operator conditions) = []) :
    (∃ t, buildGroupSQL (tableProperty other) stringOf operator conditions = .ok t) ↔
      ∀ c ∈ leavesOf conditions, buildable c = true := by
  have same := @buildSQL_isOk other stringOf _ valid
  have ok : ∀ e : Except String SQL, (∃ t, e = .ok t) ↔ e.isOk = true := by
    intro e
    cases e with
    | error _ | ok _ => simp [Except.isOk, Except.toBool]
  rw [ok, buildGroupSQL, same, leaves, List.all_eq_true]

theorem valid_builds_iff_names :
    validateFilter (.group .and [.condition ⟨"hostname".toList, .inList, .strings ["abc".toList]⟩]) = [] ∧
      ∃ t, buildGroupSQL (tableProperty fun _ _ => none) (fun v => match v with | .string t => t | _ => []) .and
        [.condition ⟨"hostname".toList, .inList, .strings ["abc".toList]⟩] = .ok t := by
  have valid : validateFilter (.group .and [.condition ⟨"hostname".toList, .inList, .strings ["abc".toList]⟩]) = [] := by
    decide +kernel
  refine ⟨valid, (valid_builds_iff _ _ valid).mpr ?_⟩
  intro c member
  rcases mem_singleton.mp member with rfl
  rfl

/-- A single name passes the check too, and the builder refuses it. -/
theorem valid_not_built :
    validateFilter (.group .and [.condition ⟨"hostname".toList, .inList, .string "abc".toList⟩]) = [] ∧
      buildGroupSQL (tableProperty fun _ _ => none) (fun v => match v with | .string t => t | _ => []) .and
        [.condition ⟨"hostname".toList, .inList, .string "abc".toList⟩] =
          .error "Value must be array for \"in\" operator" := by
  refine ⟨?_, rfl⟩
  decide +kernel

end Builds

end RemudaRmm.Devices
