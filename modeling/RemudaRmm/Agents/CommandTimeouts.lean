import Mathlib.Data.Nat.Notation

/-! Command types and their server-side timeouts (`commandTimeouts.ts`, `commandQueue.ts`), in milliseconds. -/
namespace RemudaRmm.Agents

def minutes (n : ℕ) : ℕ := n * 60 * 1000

def DEFAULT_TIMEOUT_MS : ℕ := minutes 30

def SCRIPT_GRACE_BUFFER_MS : ℕ := minutes 5

def DEFAULT_SCRIPT_TIMEOUT_S : ℕ := 300

def EXCLUDED_COMMAND_TYPES : List String := ["terminal_start", "terminal_data", "terminal_resize", "terminal_stop"]

def SHORT_TIMEOUT_TYPES : List String :=
  ["list_processes", "get_process", "kill_process", "list_services", "get_service", "start_service", "stop_service",
    "restart_service", "event_logs_list", "event_logs_query", "event_log_get", "tasks_list", "task_get", "task_run",
    "task_enable", "task_disable", "task_history", "registry_keys", "registry_values", "registry_get", "registry_set",
    "registry_delete", "registry_key_create", "registry_key_delete", "file_list", "file_read", "file_write",
    "file_delete", "file_mkdir", "file_rename", "file_copy", "file_trash_list", "file_trash_restore",
    "file_trash_purge", "file_list_drives", "take_screenshot", "computer_action", "set_log_level",
    "peripheral_policy_sync", "collect_boot_performance", "manage_startup_item", "collect_audit_policy",
    "security_collect_status"]

def MEDIUM_TIMEOUT_TYPES : List String :=
  ["security_scan", "patch_scan", "software_uninstall", "filesystem_analysis", "reboot_safe_mode", "self_uninstall",
    "collect_evidence", "execute_containment", "rollback_patches", "collect_reliability_metrics",
    "apply_cis_remediation", "apply_audit_policy_baseline", "security_threat_quarantine", "security_threat_remove",
    "security_threat_restore", "backup_restore"]

def RESTORE_TIMEOUT_TYPES : List String :=
  ["vm_restore_from_backup", "vm_instant_boot", "bmr_recover", "mssql_restore", "hyperv_restore"]

def LONG_TIMEOUT_TYPES : List String :=
  ["install_patches", "backup_verify", "backup_test_restore", "backup_cleanup", "mssql_backup", "hyperv_backup",
    "cis_benchmark", "sensitive_data_scan", "encrypt_file", "secure_delete_file", "quarantine_file"]

def INTERACTIVE_COMMAND_TYPES : List String :=
  ["file_list", "file_list_drives", "file_read", "file_write", "file_delete", "file_mkdir", "file_rename", "file_copy",
    "file_trash_list", "file_trash_restore", "file_trash_purge", "terminal_start", "terminal_data", "terminal_resize",
    "terminal_stop", "take_screenshot", "computer_action"]

/-- A script may run for its own timeout and a grace buffer, so that the agent's timeout fires first. -/
def getCommandTimeoutMs (commandType : String) (timeoutSeconds : Option ℕ) : ℕ :=
  if commandType = "script" then timeoutSeconds.getD DEFAULT_SCRIPT_TIMEOUT_S * 1000 + SCRIPT_GRACE_BUFFER_MS
  else if commandType ∈ SHORT_TIMEOUT_TYPES then minutes 5
  else if commandType ∈ MEDIUM_TIMEOUT_TYPES then minutes 30
  else if commandType ∈ RESTORE_TIMEOUT_TYPES then minutes 60
  else if commandType ∈ LONG_TIMEOUT_TYPES then minutes 120
  else DEFAULT_TIMEOUT_MS

end RemudaRmm.Agents
