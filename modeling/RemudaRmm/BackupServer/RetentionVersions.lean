import RemudaRmm.BackupServer.RetentionCleanup

/-! When a run of the retention keeps what can be restored: of every target the newest snapshots up to the limit, and
the full snapshot of every active chain. A limit counts the snapshots of a device and a configuration together. -/
namespace RemudaRmm.BackupServer
open Foundation List

/-- The targets of a policy (`backupWorker.ts`): the mode, and what it leaves out. -/
inductive BackupMode where
  | file
  | systemImage
  | hyperv (excludeVms : List String)
  | mssql (excludeDatabases : List String)

/-- What a device has: the names of its virtual machines and of the databases of its instances. -/
def resolveBackupTargets (vms : List String) (instances : List (String × List String)) : BackupMode → List BackupTarget
  | .file => [.files]
  | .systemImage => [.systemImage]
  | .hyperv excludeVms => (vms.filter fun vmName => vmName ∉ excludeVms).map .hyperv
  | .mssql excludeDatabases => instances.flatMap fun inst =>
    (inst.2.filter fun database => database ≠ "" ∧ database ∉ excludeDatabases).map (.mssql inst.1)

theorem mem_take_filter_iff {α : Type*} [DecidableEq α] {l : List α} (distinct : l.Nodup) {p : α → Bool} {x : α}
    (member : x ∈ l) (good : p x = true) (m : ℕ) :
    x ∈ (l.filter p).take m ↔ ((l.takeWhile (· ≠ x)).filter p).length < m := by
  induction l generalizing m with
  | nil => exact absurd member not_mem_nil
  | cons a l ih =>
    rw [nodup_cons] at distinct
    by_cases same : a = x
    · subst same
      rw [filter_cons_of_pos good, takeWhile_cons_of_neg (by simp), filter_nil, length_nil]
      cases m with
      | zero | succ m => simp
    · have later : x ∈ l := (mem_cons.mp member).resolve_left fun equal => same equal.symm
      rw [takeWhile_cons_of_pos (by simpa using same)]
      by_cases counted : p a = true
      · rw [filter_cons_of_pos counted, filter_cons_of_pos counted, length_cons]
        cases m with
        | zero => simp
        | succ m =>
          rw [take_succ_cons, mem_cons, or_iff_right fun equal => same equal.symm, ih distinct.2 later,
            Nat.add_lt_add_iff_right]
      · rw [filter_cons_of_neg counted, filter_cons_of_neg counted]
        exact ih distinct.2 later m

def Snapshot.SameTarget (a b : Snapshot) : Prop := a.groupKey = b.groupKey ∧ a.target = b.target
  deriving Decidable

namespace RetentionInput

def Counts (input : RetentionInput) (row other : Stored) : Prop :=
  other.2.SameTarget row.2 ∧ ¬other.2.Expired input.now
  deriving Decidable

/-- The unexpired snapshots of the target of one, the newest first, as the second query has them. -/
def versionsOf (input : RetentionInput) (row : Stored) : List Stored :=
  (versionBound input.unexpired).filter fun other => input.Counts row other

def Spared (input : RetentionInput) (row : Stored) : Prop :=
  row ∈ input.afterCleanup.rows ∧ input.afterCleanup.objects row.1 = input.start.objects row.1

def IsBase (input : RetentionInput) (row : Stored) : Prop :=
  ∃ chain ∈ input.references.backupChains, chain.isActive = true ∧ chain.fullSnapshotId = some row.1
  deriving Decidable

structure KeepsRestorable (input : RetentionInput) (limit : ℕ) : Prop where
  versions : ∀ row ∈ input.start.rows, ¬row.2.Expired input.now → row ∈ (input.versionsOf row).take limit →
    input.Spared row
  bases : ∀ row ∈ input.start.rows, input.IsBase row → input.Spared row

/-- Expired, or behind enough newer snapshots of its own target. -/
def Surplus (input : RetentionInput) (limit : ℕ) (row : Stored) : Prop :=
  row.2.Expired input.now ∨
    limit ≤ (((versionBound input.unexpired).takeWhile (· ≠ row)).filter fun other => input.Counts row other).length
  deriving Decidable

/-- Every snapshot that the run comes to is surplus and no base of an active chain; or the run is stopped, and the
storage call of the snapshot has deleted nothing. -/
def SparesTargets (input : RetentionInput) (limit : ℕ) : Prop :=
  ∀ row ∈ input.reach input.due input.start.rows, (input.Surplus limit row ∧ ¬input.IsBase row) ∨
    (input.Stopped input.due input.start.rows ∧ input.leaves row.1 = input.start.objects row.1)

theorem spared_iff {input : RetentionInput} {row : Stored} (there : row ∈ input.start.rows) :
    input.Spared row ↔ row ∉ input.reach input.due input.start.rows ∨
      (input.Stopped input.due input.start.rows ∧ input.leaves row.1 = input.start.objects row.1) := by
  unfold Spared
  rw [afterCleanup_eq]
  by_cases stopped : input.Stopped input.due input.start.rows
  · rw [if_pos stopped]
    dsimp only
    by_cases reached : row ∈ input.reach input.due input.start.rows
    · rw [input.objectsAfter_of_mem reached]
      simp only [there, true_and, reached, not_true_eq_false, false_or, stopped]
    · rw [input.objectsAfter_of_not_mem input.reach_due_subset there reached]
      simp only [there, and_self, reached, not_false_eq_true, true_or]
  · rw [if_neg stopped, reach_of_not_stopped stopped]
    dsimp only
    by_cases reached : row ∈ input.due
    · simp only [mem_filter, reached, not_true_eq_false, decide_false, Bool.false_eq_true, and_false, false_and,
        stopped, or_self]
    · rw [input.objectsAfter_of_not_mem input.due_subset there reached]
      simp only [mem_filter, there, reached, not_false_eq_true, decide_true, and_self, true_or]

theorem surplus_iff {input : RetentionInput} {limit : ℕ} {row : Stored} (there : row ∈ input.start.rows) :
    input.Surplus limit row ↔ ¬(¬row.2.Expired input.now ∧ row ∈ (input.versionsOf row).take limit) := by
  by_cases expired : row.2.Expired input.now
  · simp only [Surplus, expired, true_or, not_true_eq_false, false_and, not_false_eq_true]
  · have kept : row ∈ input.unexpired := by
      refine mem_unexpired_iff.mpr ⟨there, fun due => expired ?_⟩
      exact (of_decide_eq_true (mem_filter.mp due).2).1
    have distinct : (versionBound input.unexpired).Nodup :=
      (versionBound_perm _).nodup_iff.mpr (input.keys.of_map.filter _)
    have counts : decide (input.Counts row row) = true := decide_eq_true ⟨⟨rfl, rfl⟩, expired⟩
    unfold versionsOf
    rw [mem_take_filter_iff distinct ((versionBound_perm _).mem_iff.mpr kept) counts]
    simp only [Surplus, expired, false_or, not_false_eq_true, true_and, not_lt]

/-- A run keeps what can be restored just when all that it comes to is surplus of its own target and no base. -/
theorem keepsRestorable_iff (input : RetentionInput) (limit : ℕ) :
    input.KeepsRestorable limit ↔ input.SparesTargets limit := by
  constructor
  · rintro ⟨versions, bases⟩ row reached
    have there := input.reach_due_subset reached
    by_cases needed : input.Surplus limit row ∧ ¬input.IsBase row
    · exact .inl needed
    · refine .inr (((spared_iff there).mp ?_).resolve_left (not_not.mpr reached))
      rcases not_and_or.mp needed with newest | base
      · rw [surplus_iff there, not_not] at newest
        exact versions row there newest.1 newest.2
      · exact bases row there (not_not.mp base)
  · intro spares
    have spared : ∀ row ∈ input.start.rows, ¬(input.Surplus limit row ∧ ¬input.IsBase row) → input.Spared row := by
      intro row there needed
      refine (spared_iff there).mpr ?_
      by_cases reached : row ∈ input.reach input.due input.start.rows
      · exact .inr ((spares row reached).resolve_left needed)
      · exact .inl reached
    constructor
    · intro row there fresh newest
      refine spared row there fun needed => ?_
      exact (surplus_iff there).mp needed.1 ⟨fresh, newest⟩
    · intro row there base
      exact spared row there fun needed => needed.2 base

def twoMachines : List BackupTarget := resolveBackupTargets ["vm-a", "vm-b"] [] (.hyperv [])

def machineRows : List Stored := twoMachines.zipIdx.map fun entry => (entry.2, {
  jobId := entry.2
  snapshotId := "snapshot"
  deviceId := 0
  configId := some 0
  target := entry.1
  timestamp := entry.2
  expiresAt := none
  parentSnapshotId := none
  legalHold := false
  isImmutable := false
  immutableUntil := none
  immutabilityEnforcement := none })

/-- A limit of one version, and a store that deletes what it is asked to. -/
def hostInput : RetentionInput where
  start := ⟨machineRows, fun _ => ["manifest.json".toList]⟩
  keys := by decide
  references := ⟨[], [], [], []⟩
  maxVersions _ := some 1
  storage _ _ := ⟨[], false⟩
  now := 100

/-- The only snapshot of the first machine is deleted. -/
theorem only_version_deleted : ¬hostInput.KeepsRestorable 1 := by
  intro keeps
  obtain ⟨row, there, fresh, newest, gone⟩ : ∃ row ∈ hostInput.start.rows, ¬row.2.Expired hostInput.now ∧
      row ∈ (hostInput.versionsOf row).take 1 ∧ row ∉ hostInput.afterCleanup.rows := by decide +kernel
  exact gone (keeps.versions row there fresh newest).1

end RetentionInput

end RemudaRmm.BackupServer
