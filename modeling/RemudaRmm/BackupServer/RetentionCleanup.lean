import RemudaRmm.BackupServer.Retention
import RemudaRmm.BackupServer.SnapshotStorage

/-! A whole run of the retention of an organisation (`backupRetention.ts`), in the transaction of its worker: objects
are deleted before rows, a row stays while something refers to it, and what throws ends the run and brings back the
rows. -/
namespace RemudaRmm.BackupServer
open Foundation List Function

structure BackupChain where
  isActive : Bool
  fullSnapshotId : Option ℕ

/-- The rows of other tables that refer to snapshots and do not go with them. -/
structure SnapshotReferences where
  restoreJobs : List ℕ
  backupChains : List BackupChain
  (backupVerifications recoveryTokens : List ℕ)

/-- A `DELETE` of the row is rejected. -/
def SnapshotReferences.Refer (references : SnapshotReferences) (rows : List Stored) (id : ℕ) : Prop :=
  id ∈ references.restoreJobs ∨ (∃ chain ∈ references.backupChains, chain.fullSnapshotId = some id) ∨
    id ∈ references.backupVerifications ∨ id ∈ references.recoveryTokens ∨
    ∃ row ∈ rows, row.1 ≠ id ∧ row.2.parentSnapshotId = some id
  deriving Decidable

/-- The rows of the snapshots and the objects stored for each. -/
structure RetentionState where
  rows : List Stored
  objects : ℕ → List Text

/-- What a run starts from: rows with distinct keys, and how the storage call of each snapshot will end. -/
structure RetentionInput where
  start : RetentionState
  keys : (start.rows.map Prod.fst).Nodup
  references : SnapshotReferences
  maxVersions : ℕ → Option ℕ
  storage : ℕ → List Text → StorageResult
  now : ℕ

structure RetentionCleanupResult where
  (deleted skippedLegalHold skippedImmutable prunedByMaxVersions : ℕ)

def Snapshot.ImmutableAt (s : Snapshot) (now : ℕ) : Prop := s.isImmutable = true ∧ ∃ date ∈ s.immutableUntil, now < date
  deriving Decidable

namespace RetentionInput
variable {input : RetentionInput} {todo rows : List Stored} {row : Stored} {s : RetentionState}

/-- The objects first, then the row. An error holds the state at the throw. -/
def deleteSnapshotRow (input : RetentionInput) (row : Stored) (s : RetentionState) :
    Except RetentionState RetentionState :=
  let result := input.storage row.1 (s.objects row.1)
  let objects := update s.objects row.1 result.left
  if result.threw = true ∨ input.references.Refer s.rows row.1 then .error ⟨s.rows, objects⟩
  else .ok ⟨s.rows.filter fun other => other.1 ≠ row.1, objects⟩

def cleanupLoop (input : RetentionInput) (pruned : ℕ) :
    List Stored → RetentionState × RetentionCleanupResult →
      Except RetentionState (RetentionState × RetentionCleanupResult)
  | [], done => .ok done
  | row :: rows, (s, result) =>
    if row.2.legalHold = true then
      cleanupLoop input pruned rows (s, { result with skippedLegalHold := result.skippedLegalHold + 1 })
    else if row.2.ImmutableAt input.now then
      cleanupLoop input pruned rows (s, { result with skippedImmutable := result.skippedImmutable + 1 })
    else
      (input.deleteSnapshotRow row s).bind fun next => cleanupLoop input pruned rows (next, { result with
        deleted := result.deleted + 1
        prunedByMaxVersions := result.prunedByMaxVersions + pruned })

def versionBound (rows : List Stored) : List Stored := rows.insertionSort fun a b => a.2.rank ≤ b.2.rank

def cleanupExpiredSnapshots (input : RetentionInput) :
    Except RetentionState (RetentionState × RetentionCleanupResult) :=
  (input.cleanupLoop 0 (input.start.rows.filter fun row => row.2.Expired input.now) (input.start, ⟨0, 0, 0, 0⟩)).bind
    fun done => input.cleanupLoop 1 (overLimit input.maxVersions (versionBound done.1.rows)) done

/-- The state after the transaction of the run: an error brings back the rows, and not the objects. -/
def afterCleanup (input : RetentionInput) : RetentionState :=
  match input.cleanupExpiredSnapshots with
  | .ok done => done.1
  | .error s => ⟨input.start.rows, s.objects⟩

def expiredDue (input : RetentionInput) : List Stored :=
  input.start.rows.filter fun row => row.2.Expired input.now ∧ ¬row.2.Skipped input.now

def unexpired (input : RetentionInput) : List Stored :=
  input.start.rows.filter fun row => ¬(row.2.Expired input.now ∧ ¬row.2.Skipped input.now)

def overDue (input : RetentionInput) : List Stored :=
  (overLimit input.maxVersions (versionBound input.unexpired)).filter fun row => ¬row.2.Skipped input.now

def due (input : RetentionInput) : List Stored := input.expiredDue ++ input.overDue

def deleteAll (input : RetentionInput) : List Stored → RetentionState → Except RetentionState RetentionState
  | [], s => .ok s
  | row :: rows, s => (input.deleteSnapshotRow row s).bind (deleteAll input rows)

theorem deleteAll_append (input : RetentionInput) (front back : List Stored) (s : RetentionState) :
    input.deleteAll (front ++ back) s = (input.deleteAll front s).bind (input.deleteAll back) := by
  induction front generalizing s with
  | nil => rfl
  | cons row front ih =>
    rw [cons_append, deleteAll, deleteAll]
    cases input.deleteSnapshotRow row s with
    | error stopped => rfl
    | ok next => exact ih next

theorem skipped_iff (s : Snapshot) (now : ℕ) : s.Skipped now ↔ s.legalHold = true ∨ s.ImmutableAt now := Iff.rfl

theorem cleanupLoop_state (input : RetentionInput) (pruned : ℕ) (rows : List Stored) (s : RetentionState)
    (result : RetentionCleanupResult) :
    (input.cleanupLoop pruned rows (s, result)).map Prod.fst =
      input.deleteAll (rows.filter fun row => ¬row.2.Skipped input.now) s := by
  induction rows generalizing s result with
  | nil => rfl
  | cons row rows ih =>
    rw [cleanupLoop]
    by_cases skipped : row.2.Skipped input.now
    · rw [filter_cons_of_neg (by simpa using skipped)]
      split_ifs with held immutable
      · exact ih s _
      · exact ih s _
      · exact absurd ((skipped_iff row.2 input.now).mp skipped) (not_or.mpr ⟨held, immutable⟩)
    · obtain ⟨free, later⟩ := not_or.mp ((skipped_iff row.2 input.now).not.mp skipped)
      rw [if_neg free, if_neg later, filter_cons_of_pos (by simpa using skipped), deleteAll]
      cases input.deleteSnapshotRow row s with
      | error stopped => rfl
      | ok next => exact ih next _

/-- The deletion of a row goes through, while the given rows are there. -/
def Passes (input : RetentionInput) (rows : List Stored) (row : Stored) : Prop :=
  (input.storage row.1 (input.start.objects row.1)).threw = false ∧ ¬input.references.Refer rows row.1
  deriving Decidable

def without (row : Stored) (rows : List Stored) : List Stored := rows.filter fun other => other.1 ≠ row.1

/-- The snapshots that the run comes to: up to the first whose deletion does not go through. -/
def reach (input : RetentionInput) : List Stored → List Stored → List Stored
  | [], _ => []
  | row :: todo, rows => if input.Passes rows row then row :: reach input todo (without row rows) else [row]

def Stopped (input : RetentionInput) : List Stored → List Stored → Prop
  | [], _ => False
  | row :: todo, rows => input.Passes rows row → Stopped input todo (without row rows)

instance decidableStopped (input : RetentionInput) : (todo rows : List Stored) → Decidable (input.Stopped todo rows)
  | [], _ => inferInstanceAs (Decidable False)
  | row :: todo, rows =>
    have := decidableStopped input todo (without row rows)
    inferInstanceAs (Decidable (input.Passes rows row → _))

def leaves (input : RetentionInput) (id : ℕ) : List Text := (input.storage id (input.start.objects id)).left

/-- The objects when the storage calls for some snapshots have been made. -/
def objectsAfter (input : RetentionInput) (rows : List Stored) (objects : ℕ → List Text) (id : ℕ) : List Text :=
  if id ∈ rows.map Prod.fst then input.leaves id else objects id

@[simp] theorem objectsAfter_nil (input : RetentionInput) (objects : ℕ → List Text) :
    input.objectsAfter [] objects = objects := funext fun _ => if_neg not_mem_nil

theorem objectsAfter_cons (input : RetentionInput) (row : Stored) (rows : List Stored) (objects : ℕ → List Text)
    (apart : row.1 ∉ rows.map Prod.fst) :
    input.objectsAfter rows (update objects row.1 (input.leaves row.1)) = input.objectsAfter (row :: rows) objects := by
  funext id
  unfold objectsAfter
  rw [map_cons]
  by_cases same : id = row.1
  · subst same
    rw [if_neg apart, if_pos mem_cons_self, update_self]
  · simp only [mem_cons, same, false_or, update_of_ne same]

theorem reach_subset (input : RetentionInput) (todo rows : List Stored) : input.reach todo rows ⊆ todo := by
  induction todo generalizing rows with
  | nil => exact List.Subset.refl _
  | cons row todo ih =>
    rw [reach]
    split_ifs
    · exact cons_subset_cons row (ih _)
    · exact cons_subset_cons row (nil_subset todo)

theorem reach_of_not_stopped (through : ¬input.Stopped todo rows) : input.reach todo rows = todo := by
  induction todo generalizing rows with
  | nil => rfl
  | cons row todo ih =>
    obtain ⟨passes, rest⟩ := Classical.not_imp.mp through
    rw [reach, if_pos passes, ih rest]

theorem deleteSnapshotRow_eq (same : s.objects row.1 = input.start.objects row.1) :
    input.deleteSnapshotRow row s = if input.Passes s.rows row then
        .ok ⟨without row s.rows, update s.objects row.1 (input.leaves row.1)⟩
      else .error ⟨s.rows, update s.objects row.1 (input.leaves row.1)⟩ := by
  have fails_iff : (input.storage row.1 (input.start.objects row.1)).threw = true ∨
      input.references.Refer s.rows row.1 ↔ ¬input.Passes s.rows row := by
    rw [Passes, not_and_not_right, ← Bool.not_eq_true, ← or_iff_not_imp_left]
  unfold deleteSnapshotRow leaves
  rw [same]
  dsimp only
  by_cases passes : input.Passes s.rows row
  · rw [if_neg (fails_iff.not.mpr (not_not.mpr passes)), if_pos passes]
    rfl
  · rw [if_pos (fails_iff.mpr passes), if_neg passes]

theorem deleteAll_through (keys : (todo.map Prod.fst).Nodup)
    (same : ∀ row ∈ todo, s.objects row.1 = input.start.objects row.1) (through : ¬input.Stopped todo s.rows) :
    input.deleteAll todo s =
      .ok ⟨s.rows.filter fun row => row.1 ∉ todo.map Prod.fst, input.objectsAfter todo s.objects⟩ := by
  induction todo generalizing s with
  | nil =>
    rw [objectsAfter_nil, filter_eq_self.mpr (by simp)]
    rfl
  | cons row todo ih =>
    obtain ⟨passes, rest⟩ := Classical.not_imp.mp through
    rw [map_cons, nodup_cons] at keys
    rw [deleteAll, deleteSnapshotRow_eq (same row mem_cons_self), if_pos passes]
    have others : ∀ other ∈ todo, update s.objects row.1 (input.leaves row.1) other.1 =
        input.start.objects other.1 := by
      intro other member
      have apart : other.1 ≠ row.1 := fun equal => keys.1 (equal ▸ List.mem_map_of_mem member)
      rw [update_of_ne apart]
      exact same other (mem_cons_of_mem row member)
    refine (ih (s := ⟨without row s.rows, _⟩) keys.2 others rest).trans ?_
    rw [objectsAfter_cons input row todo s.objects keys.1]
    simp only [without, List.filter_filter, map_cons, mem_cons, not_or, Bool.decide_and, Bool.and_comm, ne_eq]

theorem deleteAll_stopped (keys : (todo.map Prod.fst).Nodup)
    (same : ∀ row ∈ todo, s.objects row.1 = input.start.objects row.1) (stopped : input.Stopped todo s.rows) :
    ∃ rows, input.deleteAll todo s = .error ⟨rows, input.objectsAfter (input.reach todo s.rows) s.objects⟩ := by
  induction todo generalizing s with
  | nil => exact stopped.elim
  | cons row todo ih =>
    rw [map_cons, nodup_cons] at keys
    rw [deleteAll, deleteSnapshotRow_eq (same row mem_cons_self), reach]
    by_cases passes : input.Passes s.rows row
    · rw [if_pos passes, if_pos passes]
      have others : ∀ other ∈ todo, update s.objects row.1 (input.leaves row.1) other.1 =
          input.start.objects other.1 := by
        intro other member
        have apart : other.1 ≠ row.1 := fun equal => keys.1 (equal ▸ List.mem_map_of_mem member)
        rw [update_of_ne apart]
        exact same other (mem_cons_of_mem row member)
      obtain ⟨rows, ended⟩ := @ih ⟨without row s.rows, update s.objects row.1 (input.leaves row.1)⟩ keys.2
        others (stopped passes)
      refine ⟨rows, ended.trans ?_⟩
      rw [objectsAfter_cons input row _ s.objects]
      intro there
      obtain ⟨other, member, equal⟩ := List.mem_map.mp there
      exact keys.1 (equal ▸ List.mem_map_of_mem (reach_subset input todo _ member))
    · rw [if_neg passes, if_neg passes]
      refine ⟨s.rows, ?_⟩
      rw [← objectsAfter_cons input row [] s.objects not_mem_nil, objectsAfter_nil]
      rfl

theorem keys_sublist {some : List Stored} (keys : (rows.map Prod.fst).Nodup) (part : some.Sublist rows) :
    (some.map Prod.fst).Nodup := keys.sublist (part.map Prod.fst)

theorem beyondLimit_sublist (maxVersions : ℕ → Option ℕ) (rows : List Stored) :
    (beyondLimit maxVersions rows).Sublist rows := by
  unfold beyondLimit
  split
  · split_ifs
    · exact nil_sublist rows
    · exact drop_sublist ..
  · exact nil_sublist rows

theorem mem_beyondLimit_group {maxVersions : ℕ → Option ℕ} {group : (ℕ × Option ℕ) × List Stored}
    (grouped : group ∈ InsertionMap.groupBy (fun row : Stored => row.2.groupKey) rows)
    (beyond : row ∈ beyondLimit maxVersions group.2) : row ∈ rows ∧ row.2.groupKey = group.1 := by
  obtain ⟨same, -⟩ := InsertionMap.mem_groupBy_iff.mp grouped
  have member := (beyondLimit_sublist maxVersions group.2).subset beyond
  rw [same, mem_filter] at member
  exact ⟨member.1, of_decide_eq_true member.2⟩

theorem overLimit_subset (maxVersions : ℕ → Option ℕ) (rows : List Stored) : overLimit maxVersions rows ⊆ rows := by
  intro row member
  obtain ⟨group, grouped, beyond⟩ := mem_flatMap.mp member
  exact (mem_beyondLimit_group grouped beyond).1

theorem overLimit_nodup {maxVersions : ℕ → Option ℕ} (distinct : rows.Nodup) : (overLimit maxVersions rows).Nodup := by
  refine nodup_flatMap.mpr ⟨fun group grouped => ?_, ?_⟩
  · obtain ⟨same, -⟩ := InsertionMap.mem_groupBy_iff.mp grouped
    refine List.Nodup.sublist (beyondLimit_sublist ..) ?_
    rw [same]
    exact distinct.filter _
  · have keys := pairwise_map.mp (InsertionMap.keys_groupBy (fun row : Stored => row.2.groupKey) rows)
    refine keys.imp_of_mem fun first second apart row one other => ?_
    exact apart ((mem_beyondLimit_group first one).2.symm.trans (mem_beyondLimit_group second other).2)

theorem versionBound_perm (rows : List Stored) : (versionBound rows).Perm rows := perm_insertionSort ..

theorem mem_unexpired_iff : row ∈ input.unexpired ↔ row ∈ input.start.rows ∧ row ∉ input.expiredDue := by
  unfold unexpired expiredDue
  simp only [mem_filter, decide_eq_true_eq]
  exact and_congr_right fun there => by rw [and_iff_right there]

theorem mem_of_mem_overDue (member : row ∈ input.overDue) : row ∈ input.unexpired ∧ ¬row.2.Skipped input.now := by
  obtain ⟨beyond, spared⟩ := mem_filter.mp member
  exact ⟨(versionBound_perm _).subset (overLimit_subset _ _ beyond), of_decide_eq_true spared⟩

theorem due_subset (input : RetentionInput) : input.due ⊆ input.start.rows := by
  intro row member
  rcases mem_append.mp member with expired | beyond
  · exact mem_of_mem_filter expired
  · exact (mem_unexpired_iff.mp (mem_of_mem_overDue beyond).1).1

theorem row_eq_of_key (input : RetentionInput) {a b : Stored} (first : a ∈ input.start.rows)
    (second : b ∈ input.start.rows) (same : a.1 = b.1) : a = b :=
  inj_on_of_nodup_map input.keys first second same

theorem due_keys (input : RetentionInput) : (input.due.map Prod.fst).Nodup := by
  have rows : input.start.rows.Nodup := input.keys.of_map
  have distinct : input.due.Nodup := by
    refine List.Nodup.append (rows.filter _) ?_ fun row expired beyond => ?_
    · exact (overLimit_nodup ((versionBound_perm _).nodup_iff.mpr (rows.filter _))).filter _
    · exact (mem_unexpired_iff.mp (mem_of_mem_overDue beyond).1).2 expired
  exact distinct.map_on fun a first b second same =>
    row_eq_of_key input (due_subset input first) (due_subset input second) same

theorem mem_keys_iff (input : RetentionInput) (part : rows ⊆ input.start.rows) (there : row ∈ input.start.rows) :
    row.1 ∈ rows.map Prod.fst ↔ row ∈ rows := by
  constructor
  · intro member
    obtain ⟨other, listed, same⟩ := List.mem_map.mp member
    exact row_eq_of_key input (part listed) there same ▸ listed
  · exact fun member => List.mem_map_of_mem member

theorem rows_after_expired (input : RetentionInput) :
    (input.start.rows.filter fun row => row.1 ∉ input.expiredDue.map Prod.fst) = input.unexpired := by
  refine filter_congr fun row there => ?_
  have expired : input.expiredDue ⊆ input.start.rows := filter_subset_self ..
  rw [decide_eq_decide, mem_keys_iff input expired there, expiredDue, mem_filter, decide_eq_true_eq,
    and_iff_right there]

theorem cleanup_state (input : RetentionInput) :
    input.cleanupExpiredSnapshots.map Prod.fst = input.deleteAll input.due input.start := by
  have first : (input.start.rows.filter fun row => row.2.Expired input.now).filter
      (fun row => ¬row.2.Skipped input.now) = input.expiredDue := by
    rw [List.filter_filter, expiredDue]
    exact filter_congr fun row _ => by simp [Bool.and_comm]
  have loop := input.cleanupLoop_state 0 (input.start.rows.filter fun row => row.2.Expired input.now) input.start
    ⟨0, 0, 0, 0⟩
  rw [first] at loop
  have expiredKeys : (input.expiredDue.map Prod.fst).Nodup := keys_sublist input.keys filter_sublist
  rw [due, deleteAll_append, cleanupExpiredSnapshots]
  cases ended : input.cleanupLoop 0 (input.start.rows.filter fun row => row.2.Expired input.now)
      (input.start, ⟨0, 0, 0, 0⟩) with
  | error s =>
    rw [ended] at loop
    rw [← loop]
    rfl
  | ok done =>
    obtain ⟨s, result⟩ := done
    rw [ended] at loop
    rw [← loop]
    have rows : s.rows = input.unexpired := by
      by_cases stopped : input.Stopped input.expiredDue input.start.rows
      · obtain ⟨rows, thrown⟩ := deleteAll_stopped expiredKeys (fun row _ => rfl) stopped
        exact absurd (loop.trans thrown) (by simp [Except.map])
      · have same := loop.trans (deleteAll_through expiredKeys (fun row _ => rfl) stopped)
        rw [← rows_after_expired]
        exact congrArg RetentionState.rows (Except.ok.inj same)
    refine (input.cleanupLoop_state 1 _ s result).trans ?_
    rw [rows]
    rfl

theorem afterCleanup_eq (input : RetentionInput) : input.afterCleanup = if input.Stopped input.due input.start.rows then
        ⟨input.start.rows, input.objectsAfter (input.reach input.due input.start.rows) input.start.objects⟩
      else
        ⟨input.start.rows.filter fun row => row ∉ input.due, input.objectsAfter input.due input.start.objects⟩ := by
  have state := input.cleanup_state
  unfold afterCleanup
  split_ifs with stopped
  · obtain ⟨rows, thrown⟩ := deleteAll_stopped input.due_keys (fun row _ => rfl) stopped
    rw [thrown] at state
    cases ended : input.cleanupExpiredSnapshots with
    | error s =>
      rw [ended] at state
      have same : s = ⟨rows, _⟩ := Except.error.inj state
      rw [same]
    | ok done =>
      rw [ended] at state
      exact absurd state (by simp [Except.map])
  · rw [deleteAll_through input.due_keys (fun row _ => rfl) stopped] at state
    cases ended : input.cleanupExpiredSnapshots with
    | error s =>
      rw [ended] at state
      exact absurd state (by simp [Except.map])
    | ok done =>
      rw [ended] at state
      have same : done.1 = ⟨_, _⟩ := Except.ok.inj state
      refine same.trans ?_
      congr 1
      refine filter_congr fun row there => ?_
      rw [decide_eq_decide, mem_keys_iff input input.due_subset there]

theorem objectsAfter_of_mem (input : RetentionInput) (member : row ∈ rows)
    (objects : ℕ → List Text) : input.objectsAfter rows objects row.1 = input.leaves row.1 :=
  if_pos (List.mem_map_of_mem member)

theorem objectsAfter_of_not_mem (input : RetentionInput) (part : rows ⊆ input.start.rows)
    (there : row ∈ input.start.rows) (other : row ∉ rows)
    (objects : ℕ → List Text) : input.objectsAfter rows objects row.1 = objects row.1 :=
  if_neg ((mem_keys_iff input part there).not.mpr other)

theorem reach_due_subset (input : RetentionInput) : input.reach input.due input.start.rows ⊆ input.start.rows :=
  fun _ member => input.due_subset (reach_subset input _ _ member)

end RetentionInput

end RemudaRmm.BackupServer
