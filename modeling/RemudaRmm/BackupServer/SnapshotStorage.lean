import Mathlib.Data.List.DropRight
import RemudaRmm.Foundation.SlashPath

/-! The deletion of the objects of one snapshot (`backupSnapshotStorage.ts`): the prefix that is derived from what the
agent has reported, the pages of an S3 listing, and the directory of a local store. -/
namespace RemudaRmm.BackupServer
open Foundation List
variable {p t key : Text} {objects : List Text}

/-- `replace(/^\/+|\/+$/g, '')`. -/
def trimSlashes (t : Text) : Text := (t.dropWhile (· = '/')).rdropWhile (· = '/')

/-- `replace(/^s3:\/\/[^/]+\//, '')`. -/
def stripBucket (t : Text) : Text :=
  if "s3://".toList <+: t then
    let rest := t.drop 5
    match rest.takeWhile (· ≠ '/'), rest.dropWhile (· ≠ '/') with
    | _ :: _, _ :: key => key
    | _, _ => t
  else t

/-- The configuration of a store; empty texts stand for what is not configured. A local store has the directory in
which the process runs. -/
inductive StorageConfig where
  | s3 (bucket region configuredPrefix : Text)
  | localDisk (workingDirectory rootPath configuredPrefix : Text)
  | other

/-- What the deletion knows of a snapshot: `storagePrefix` of its metadata, when it is a string. -/
structure SnapshotStorageInput where
  config : StorageConfig
  snapshotId : Text
  storagePrefix : Option Text

def StorageConfig.configuredPrefix : StorageConfig → Text
  | .s3 _ _ configured | .localDisk _ _ configured => configured
  | .other => []

def StorageConfig.withoutBucket (config : StorageConfig) (raw : Text) : Text :=
  match config with
  | .s3 _ _ _ => stripBucket raw
  | _ => raw

def SnapshotStorageInput.ownPrefix (input : SnapshotStorageInput) : Text :=
  let snapshotPrefix := "snapshots/".toList ++ input.snapshotId
  if input.config.configuredPrefix = [] then snapshotPrefix
  else trimSlashes input.config.configuredPrefix ++ '/' :: snapshotPrefix

def normalizeStoragePrefix (input : SnapshotStorageInput) : Text :=
  match input.storagePrefix with
  | some raw =>
    let normalized := trimSlashes (input.config.withoutBucket raw)
    if raw ≠ [] ∧ normalized ≠ [] then normalized else input.ownPrefix
  | none => input.ownPrefix

/-- `path.posix.normalize`. -/
def posixNormalize (p : Text) : Text :=
  let rooted := decide (p.head? = some '/')
  let trailing := decide (p.getLast? = some '/')
  let body := slashed (cleanElements rooted (p.splitOn '/'))
  let filled := if body = [] ∧ rooted = false then ['.'] else body
  let ended := if trailing = true ∧ filled ≠ [] then filled ++ ['/'] else filled
  if rooted then '/' :: ended else ended

/-- `path.resolve` with one path below an absolute one. -/
def resolvePath (base p : Text) : Text := if p.head? = some '/' then cleanPath p else cleanPath (base ++ '/' :: p)

/-- `none` when the path leaves the base. -/
def ensureContainedLocalPath (workingDirectory rootPath relativePath : Text) : Option Text :=
  let base := resolvePath workingDirectory rootPath
  let resolved := resolvePath base relativePath
  if Within base resolved then some resolved else none

/-- The objects that are there after a call, and whether it throws. -/
structure StorageResult where
  left : List Text
  threw : Bool

/-- A page of a listing and what becomes of it: a request may throw, and the deletion may leave objects, for which the
response then has an error. -/
structure S3Page where
  contents : List Text
  (listThrows deleteThrows : Bool)
  undeleted : List Text

/-- What the store answers. A listing has the keys with its prefix, in any pages; `rm` may throw and leave a part. -/
structure StorageAnswers where
  pages : Text → List Text → List S3Page
  listed : ∀ namePrefix objects key,
    key ∈ (pages namePrefix objects).flatMap S3Page.contents ↔ key ∈ objects ∧ namePrefix <+: key
  rmLeaves : Option (List Text)

/-- One round of the loop: a listing and the deletion of what matches. `keyMatchesSnapshotPrefix` is `Within`. -/
def deleteS3Page (normalizedPrefix : Text) (page : S3Page) (objects : List Text) : StorageResult :=
  if page.listThrows then ⟨objects, true⟩
  else
    let found := page.contents.filter fun key => key ≠ [] ∧ Within normalizedPrefix key
    if found = [] then ⟨objects, false⟩
    else ⟨objects.filter fun key => key ∉ found ∨ key ∈ page.undeleted, page.deleteThrows⟩

def deleteS3Pages (normalizedPrefix : Text) : List S3Page → List Text → StorageResult
  | [], objects => ⟨objects, false⟩
  | page :: pages, objects =>
    let result := deleteS3Page normalizedPrefix page objects
    if result.threw then result else deleteS3Pages normalizedPrefix pages result.left

def deleteS3Prefix (storagePrefix : Text) (answers : StorageAnswers) (objects : List Text) : StorageResult :=
  let normalizedPrefix := trimSlashes storagePrefix
  deleteS3Pages normalizedPrefix (answers.pages normalizedPrefix objects) objects

/-- `rm` of a path, recursively. -/
def removePath (targetPath : Text) (answers : StorageAnswers) (objects : List Text) : StorageResult :=
  match answers.rmLeaves with
  | none => ⟨objects.filter fun file => ¬Below targetPath file, false⟩
  | some leaves => ⟨objects.filter fun file => ¬Below targetPath file ∨ file ∈ leaves, true⟩

def localTarget (workingDirectory rootPath storagePrefix : Text) : Option Text :=
  if rootPath = [] then none
  else
    ensureContainedLocalPath workingDirectory rootPath ((posixNormalize storagePrefix).dropWhile (· = '/'))

def deleteLocalPrefix (workingDirectory rootPath storagePrefix : Text) (answers : StorageAnswers)
    (objects : List Text) : StorageResult :=
  match localTarget workingDirectory rootPath storagePrefix with
  | some targetPath => removePath targetPath answers objects
  | none => ⟨objects, true⟩

def deleteBackupSnapshotArtifacts (input : SnapshotStorageInput) (answers : StorageAnswers) (objects : List Text) :
    StorageResult :=
  match input.config with
  | .s3 bucket region _ =>
    if bucket = [] ∨ region = [] then ⟨objects, true⟩
    else deleteS3Prefix (normalizeStoragePrefix input) answers objects
  | .localDisk workingDirectory rootPath _ =>
    deleteLocalPrefix workingDirectory rootPath (normalizeStoragePrefix input) answers objects
  | .other => ⟨objects, false⟩

def StorageConfig.Lies : StorageConfig → Text → Text → Prop
  | .localDisk _ _ _ => Below
  | _ => Within

instance (config : StorageConfig) (directory key : Text) : Decidable (config.Lies directory key) :=
  match config with
  | .localDisk _ _ _ => inferInstanceAs (Decidable (Below directory key))
  | .s3 _ _ _ | .other => inferInstanceAs (Decidable (Within directory key))

/-- Whatever is stored and however the store answers, only objects under the snapshot's own prefix are removed, and none
of another snapshot. -/
def TouchesOnlyOwn (input : SnapshotStorageInput) (written : Text) (others : List Text) : Prop :=
  ∀ (answers : StorageAnswers) (objects : List Text), ∀ key ∈ objects,
    key ∉ (deleteBackupSnapshotArtifacts input answers objects).left →
      input.config.Lies written key ∧ ∀ other ∈ others, ¬input.config.Lies other key

def SnapshotStorageInput.deletedPrefix (input : SnapshotStorageInput) : Option Text :=
  match input.config with
  | .s3 bucket region _ =>
    if bucket = [] ∨ region = [] then none else some (trimSlashes (normalizeStoragePrefix input))
  | .localDisk workingDirectory rootPath _ => localTarget workingDirectory rootPath (normalizeStoragePrefix input)
  | .other => none

/-- The prefix that is deleted lies under the one that the backup was written to, and apart from every other. -/
def SnapshotStorageInput.Apart (input : SnapshotStorageInput) (written : Text) (others : List Text) : Prop :=
  ∀ deleted ∈ input.deletedPrefix, input.config.Lies written deleted ∧
    ∀ other ∈ others, ¬input.config.Lies other deleted ∧ ¬input.config.Lies deleted other

theorem StorageConfig.lies_refl (config : StorageConfig) (p : Text) : config.Lies p p := by
  cases config with
  | localDisk workingDirectory rootPath configured => exact .inr (.inl rfl)
  | s3 bucket region configured | other => exact .inl rfl

theorem StorageConfig.Lies.trans {config : StorageConfig} {a b : Text} (outer : config.Lies a b)
    (inner : config.Lies b p) : config.Lies a p := by
  cases config with
  | localDisk workingDirectory rootPath configured => exact Below.trans outer inner
  | s3 bucket region configured | other => exact Within.trans outer inner

theorem StorageConfig.Lies.nested {config : StorageConfig} {a b : Text} (first : config.Lies a p)
    (second : config.Lies b p) : config.Lies a b ∨ config.Lies b a := by
  cases config with
  | localDisk workingDirectory rootPath configured => exact Below.nested first second
  | s3 bucket region configured | other => exact Within.nested first second

theorem mem_dropWhile_slash {c : Char} (member : c ∈ t) (plain : c ≠ '/') : c ∈ t.dropWhile (· = '/') := by
  rw [← takeWhile_append_dropWhile (p := (· = '/')) (l := t), mem_append] at member
  refine member.resolve_left fun front => plain ?_
  simpa using mem_takeWhile_imp front

theorem trimSlashes_ne_nil {c : Char} (member : c ∈ t) (plain : c ≠ '/') : trimSlashes t ≠ [] := by
  have kept := mem_dropWhile_slash (mem_reverse.mpr (mem_dropWhile_slash member plain)) plain
  exact ne_nil_of_mem (mem_reverse.mpr kept)

theorem exists_plain_of_trimSlashes (filled : trimSlashes t ≠ []) : ∃ c ∈ trimSlashes t, c ≠ '/' := by
  have last := rdropWhile_last_not (· = '/') (t.dropWhile (· = '/')) filled
  exact ⟨_, getLast_mem filled, fun same => last (decide_eq_true same)⟩

theorem exists_plain_ownPrefix (input : SnapshotStorageInput) : ∃ c ∈ input.ownPrefix, c ≠ '/' := by
  have listed : 's' ∈ "snapshots/".toList ++ input.snapshotId := mem_append_left _ (by decide)
  refine ⟨'s', ?_, by decide⟩
  unfold SnapshotStorageInput.ownPrefix
  dsimp only
  split_ifs
  · exact listed
  · exact mem_append_right _ (mem_cons_of_mem _ listed)

theorem exists_plain_prefix (input : SnapshotStorageInput) : ∃ c ∈ normalizeStoragePrefix input, c ≠ '/' := by
  unfold normalizeStoragePrefix
  split
  · dsimp only
    split_ifs with filled
    · exact exists_plain_of_trimSlashes filled.2
    · exact exists_plain_ownPrefix input
  · exact exists_plain_ownPrefix input

theorem removed_by_page {page : S3Page} (member : key ∈ objects)
    (removed : key ∉ (deleteS3Page p page objects).left) : Within p key := by
  unfold deleteS3Page at removed
  dsimp only at removed
  split_ifs at removed
  · exact absurd member removed
  · exact absurd member removed
  · rw [mem_filter, not_and] at removed
    have listed := removed member
    simp only [decide_eq_true_eq, not_or, not_not] at listed
    exact (of_decide_eq_true (mem_filter.mp listed.1).2).2

theorem removed_by_pages {pages : List S3Page} (member : key ∈ objects)
    (removed : key ∉ (deleteS3Pages p pages objects).left) : Within p key := by
  induction pages generalizing objects with
  | nil => exact absurd member removed
  | cons page pages ih =>
    by_cases first : key ∈ (deleteS3Page p page objects).left
    · rw [deleteS3Pages] at removed
      split_ifs at removed
      · exact absurd first removed
      · exact ih first removed
    · exact removed_by_page member first

theorem removed_lies {input : SnapshotStorageInput} {answers : StorageAnswers} (member : key ∈ objects)
    (removed : key ∉ (deleteBackupSnapshotArtifacts input answers objects).left) :
    ∃ deleted ∈ input.deletedPrefix, input.config.Lies deleted key := by
  unfold deleteBackupSnapshotArtifacts at removed
  unfold SnapshotStorageInput.deletedPrefix
  cases config : input.config with
  | s3 bucket region configured =>
    rw [config] at removed
    dsimp only at removed ⊢
    split_ifs at removed ⊢
    · exact absurd member removed
    · exact ⟨_, rfl, removed_by_pages member removed⟩
  | localDisk workingDirectory rootPath configured =>
    rw [config] at removed
    dsimp only at removed ⊢
    unfold deleteLocalPrefix at removed
    split at removed
    case h_1 target aimed =>
      refine ⟨target, aimed, ?_⟩
      unfold removePath at removed
      split at removed <;>
        simp only [mem_filter, member, true_and, decide_eq_true_eq, not_or, not_not] at removed
      · exact removed
      · exact removed.1
    case h_2 => exact absurd member removed
  | other =>
    rw [config] at removed
    exact absurd member removed

def promptAnswers : StorageAnswers where
  pages namePrefix objects := [⟨objects.filter fun key => namePrefix <+: key, false, false, []⟩]
  listed namePrefix objects key := by simp
  rmLeaves := none

theorem page_removes (filled : key ≠ []) (lies : Within p key) :
    key ∉ (deleteS3Page p ⟨objects.filter fun key => p <+: key, false, false, []⟩ objects).left := by
  intro left
  have front : p <+: key := by
    rcases lies with rfl | longer
    · exact prefix_refl _
    · exact (prefix_append p ['/']).trans longer
  unfold deleteS3Page at left
  simp only [Bool.false_eq_true, if_false] at left
  split_ifs at left with empty
  · refine absurd empty (ne_nil_of_mem (a := key) ?_)
    simpa [mem_filter, front, filled, lies] using left
  · simp only [mem_filter, decide_eq_true_eq, not_mem_nil, or_false] at left
    exact left.2 ⟨⟨left.1, front⟩, filled, lies⟩

theorem removes_all {input : SnapshotStorageInput} {deleted : Text}
    (aimed : deleted ∈ input.deletedPrefix) (lies : input.config.Lies deleted key) :
    key ∉ (deleteBackupSnapshotArtifacts input promptAnswers objects).left := by
  unfold SnapshotStorageInput.deletedPrefix at aimed
  unfold deleteBackupSnapshotArtifacts
  cases config : input.config with
  | s3 bucket region configured =>
    rw [config] at aimed lies
    dsimp only at aimed ⊢
    split_ifs at aimed ⊢ with missing
    · exact absurd aimed (by simp)
    · cases aimed
      obtain ⟨c, member, plain⟩ := exists_plain_prefix input
      have filled : key ≠ [] := by
        rintro rfl
        rcases lies with same | longer
        · exact trimSlashes_ne_nil member plain same.symm
        · exact absurd longer (by simp)
      have gone := @page_removes (trimSlashes (normalizeStoragePrefix input)) key objects filled lies
      unfold deleteS3Prefix
      dsimp only [promptAnswers]
      rw [deleteS3Pages]
      split_ifs <;> exact gone
  | localDisk workingDirectory rootPath configured =>
    rw [config] at aimed lies
    dsimp only at aimed ⊢
    unfold deleteLocalPrefix
    rw [aimed]
    dsimp only [removePath, promptAnswers]
    intro left
    exact of_decide_eq_true (mem_filter.mp left).2 lies
  | other =>
    rw [config] at aimed
    exact absurd aimed (by simp)

/-- Deleting a snapshot touches only its own objects just when the prefix that is deleted lies under the one that its
backup was written to, and apart from those of all others. -/
theorem touches_only_own_iff (input : SnapshotStorageInput) (written : Text) (others : List Text) :
    TouchesOnlyOwn input written others ↔ input.Apart written others := by
  constructor
  · intro touches deleted aimed
    have own := touches promptAnswers [deleted] deleted mem_cons_self
      (removes_all aimed (input.config.lies_refl deleted))
    refine ⟨own.1, fun other listed => ⟨own.2 other listed, fun inside => ?_⟩⟩
    have taken := touches promptAnswers [other] other mem_cons_self (removes_all aimed inside)
    exact taken.2 other listed (input.config.lies_refl other)
  · intro apart answers objects key member removed
    obtain ⟨deleted, aimed, lies⟩ := removed_lies member removed
    obtain ⟨own, others⟩ := apart deleted aimed
    refine ⟨own.trans lies, fun other listed inside => ?_⟩
    rcases lies.nested inside with below | above
    · exact (others other listed).2 below
    · exact (others other listed).1 above

/-- An agent reports the directory of all its snapshots as the prefix of one. -/
def sharedPrefix : SnapshotStorageInput where
  config := .s3 "bucket".toList "region".toList []
  snapshotId := "snapshot-1".toList
  storagePrefix := some "snapshots/".toList

theorem shared_prefix_deletes_others :
    ¬TouchesOnlyOwn sharedPrefix "snapshots/snapshot-1".toList ["snapshots/snapshot-2".toList] := by
  intro touches
  have taken := touches promptAnswers ["snapshots/snapshot-2/manifest.json".toList]
    "snapshots/snapshot-2/manifest.json".toList mem_cons_self (by decide +kernel)
  exact taken.2 _ mem_cons_self (by decide +kernel)

end RemudaRmm.BackupServer
