import RemudaRmm.BackupServer.RetentionCleanup

/-! When a run of the retention leaves no ghosts and is not blocked: a snapshot that something refers to keeps its
objects, a row that goes leaves none, and every other snapshot that is due goes. -/
namespace RemudaRmm.BackupServer.RetentionInput
open Foundation

def Referenced (input : RetentionInput) (id : ℕ) : Prop := input.references.Refer input.start.rows id
  deriving Decidable

/-- The storage call of the snapshot neither throws nor leaves an object. -/
def CallSucceeds (input : RetentionInput) (id : ℕ) : Prop :=
  (input.storage id (input.start.objects id)).threw = false ∧ input.leaves id = []
  deriving Decidable

structure NoGhosts (input : RetentionInput) : Prop where
  kept : ∀ row ∈ input.start.rows, input.Referenced row.1 → row ∈ input.afterCleanup.rows →
    input.afterCleanup.objects row.1 = input.start.objects row.1
  gone : ∀ row ∈ input.start.rows, row ∉ input.afterCleanup.rows → input.afterCleanup.objects row.1 = []
  deleted : ∀ row ∈ input.due, ¬input.Referenced row.1 → input.CallSucceeds row.1 → row ∉ input.afterCleanup.rows

/-- No deletion stops the run, and no storage call leaves an object. -/
def Clean (input : RetentionInput) : Prop :=
  ¬input.Stopped input.due input.start.rows ∧ ∀ row ∈ input.due, input.leaves row.1 = []

/-- A deletion stops the run, none that is due could have gone through, and until then no referenced snapshot has lost
an object. -/
def Idle (input : RetentionInput) : Prop :=
  input.Stopped input.due input.start.rows ∧
    (∀ row ∈ input.due, input.Referenced row.1 ∨ ¬input.CallSucceeds row.1) ∧
    ∀ row ∈ input.reach input.due input.start.rows, input.Referenced row.1 →
      input.leaves row.1 = input.start.objects row.1

theorem noGhosts_of_stopped {input : RetentionInput} (stopped : input.Stopped input.due input.start.rows) :
    input.NoGhosts ↔ (∀ row ∈ input.due, input.Referenced row.1 ∨ ¬input.CallSucceeds row.1) ∧
      ∀ row ∈ input.reach input.due input.start.rows, input.Referenced row.1 →
        input.leaves row.1 = input.start.objects row.1 := by
  have after := input.afterCleanup_eq
  rw [if_pos stopped] at after
  constructor
  · rintro ⟨kept, gone, deleted⟩
    rw [after] at kept deleted
    constructor
    · intro row member
      by_contra could
      obtain ⟨free, succeeds⟩ := not_or.mp could
      exact deleted row member free (not_not.mp succeeds) (input.due_subset member)
    · intro row member referenced
      have there := input.reach_due_subset member
      exact (input.objectsAfter_of_mem member _).symm.trans (kept row there referenced there)
  · rintro ⟨blocked, spared⟩
    constructor
    · intro row there referenced _
      rw [after]
      by_cases member : row ∈ input.reach input.due input.start.rows
      · exact (input.objectsAfter_of_mem member _).trans (spared row member referenced)
      · exact input.objectsAfter_of_not_mem input.reach_due_subset there member _
    · intro row there gone
      rw [after] at gone
      exact absurd there gone
    · intro row member free succeeds
      exact absurd (blocked row member) (not_or.mpr ⟨free, not_not.mpr succeeds⟩)

theorem noGhosts_of_through {input : RetentionInput} (through : ¬input.Stopped input.due input.start.rows) :
    input.NoGhosts ↔ ∀ row ∈ input.due, input.leaves row.1 = [] := by
  have after := input.afterCleanup_eq
  rw [if_neg through] at after
  have rows : ∀ row ∈ input.start.rows, row ∈ input.afterCleanup.rows ↔ row ∉ input.due := by
    intro row there
    rw [after]
    simp [there]
  constructor
  · intro promised row member
    have there := input.due_subset member
    have gone := promised.gone row there (by rw [rows row there]; exact not_not.mpr member)
    rw [after] at gone
    exact (input.objectsAfter_of_mem member _).symm.trans gone
  · intro empty
    constructor
    · intro row there _ stays
      rw [after]
      exact input.objectsAfter_of_not_mem input.due_subset there ((rows row there).mp stays) _
    · intro row there gone
      rw [rows row there, not_not] at gone
      rw [after]
      exact (input.objectsAfter_of_mem gone _).trans (empty row gone)
    · intro row member _ _
      rw [rows row (input.due_subset member)]
      exact not_not.mpr member

/-- A run leaves no ghosts and is not blocked just when every deletion goes through and leaves nothing, or when it is
stopped although nothing could have been deleted. -/
theorem noGhosts_iff (input : RetentionInput) : input.NoGhosts ↔ input.Clean ∨ input.Idle := by
  by_cases stopped : input.Stopped input.due input.start.rows
  · rw [noGhosts_of_stopped stopped, Clean, Idle]
    simp only [stopped, not_true_eq_false, false_and, false_or, true_and]
  · rw [noGhosts_of_through stopped, Clean, Idle]
    simp only [stopped, not_false_eq_true, true_and, false_and, or_false]

def oldRow (id : ℕ) : Stored := (id, {
  jobId := id
  snapshotId := if id = 0 then "snapshot-1" else "snapshot-2"
  deviceId := 0
  configId := some 0
  target := .files
  timestamp := 10
  expiresAt := some 20
  parentSnapshotId := none
  legalHold := false
  isImmutable := false
  immutableUntil := none
  immutabilityEnforcement := none })

def objectOf (id : ℕ) : Text := ("snapshots/" ++ (oldRow id).2.snapshotId ++ "/manifest.json").toList

def bucketOf (id : ℕ) : SnapshotStorageInput :=
  ⟨.s3 "bucket".toList "region".toList [], (oldRow id).2.snapshotId.toList, none⟩

/-- Two expired snapshots, one of which a restore has used; the store answers without errors. -/
def restoredOnce : RetentionInput where
  start := ⟨[oldRow 0, oldRow 1], fun id => [objectOf id]⟩
  keys := by decide
  references := ⟨[0], [], [], []⟩
  maxVersions _ := none
  storage id := deleteBackupSnapshotArtifacts (bucketOf id) promptAnswers
  now := 100

/-- The restored snapshot stays without its objects, and the other one is not deleted. -/
theorem restored_snapshot_blocks : ¬restoredOnce.NoGhosts := by
  intro promised
  have referenced : restoredOnce.Referenced (oldRow 0).1 := by decide +kernel
  have lost := promised.kept (oldRow 0) List.mem_cons_self referenced (by decide +kernel)
  revert lost
  decide +kernel

end RemudaRmm.BackupServer.RetentionInput
