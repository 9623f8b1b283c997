import Mathlib.Data.List.Sort
import RemudaRmm.Foundation.Encodings
import RemudaRmm.Foundation.SlashPath

/-! Snapshots in an object store (`snapshot.go`): how one is written, how they are listed by their manifests, and how
those beyond the retention count are pruned. Which operations fail is a parameter; a key is listed under every text it
begins with. -/
namespace RemudaRmm.Backup
open Foundation List

structure SnapshotFile where
  (sourcePath backupPath : Text)
  size : ℕ
  modTime : ℤ
  deriving DecidableEq

structure Snapshot where
  id : Text
  timestamp : ℤ
  files : List SnapshotFile
  size : ℕ
  deriving DecidableEq

structure BackupFile where
  (sourcePath snapshotPath : Text)
  size : ℕ
  modTime : ℤ
  deriving DecidableEq

/-- What an object holds: bytes, bytes that are compressed, or the JSON of a snapshot. -/
inductive Content where
  | plain (bytes : Bytes)
  | gzip (bytes : Bytes)
  | manifest (snapshot : Snapshot)
  deriving DecidableEq

structure Object where
  key : Text
  content : Content
  deriving DecidableEq

abbrev Store := List Object

def Store.get (store : Store) (key : Text) : Option Content :=
  (store.find? fun object => object.key = key).map Object.content

def Store.put (store : Store) (key : Text) (content : Content) : Store :=
  store.filter (fun object => object.key ≠ key) ++ [⟨key, content⟩]

def Store.list (store : Store) (front : Text) : List Text := (store.map Object.key).filter front.isPrefixOf

def Store.delete (store : Store) (key : Text) : Store := store.filter fun object => object.key ≠ key

/-- The operations that fail, with the error of each. -/
structure Provider where
  uploadError : Text → Option String := fun _ => none
  downloadError : Text → Option String := fun _ => none
  listError : Text → Option String := fun _ => none
  deleteError : Text → Option String := fun _ => none

def snapshotRootDir : Text := "snapshots".toList

def snapshotFilesDir : Text := "files".toList

def snapshotManifestKey : Text := "manifest.json".toList

def shown (t : Text) : String := String.ofList t

def ensureGzipExtension (p : Text) : Text := if ".gz".toList.isSuffixOf p then p else p ++ ".gz".toList

def backupPathOf (id snapshotPath : Text) : Text :=
  ensureGzipExtension (joinPath [joinPath [snapshotRootDir, id], snapshotFilesDir, snapshotPath])

def manifestKeyOf (id : Text) : Text := joinPath [joinPath [snapshotRootDir, id], snapshotManifestKey]

/-- Bytes are compressed on their way to a key that ends in `.gz`. -/
def uploaded (remotePath : Text) (bytes : Bytes) : Content :=
  if ".gz".toList.isSuffixOf remotePath then .gzip bytes else .plain bytes

structure Creation where
  snapshot : Snapshot
  errors : List String
  store : Store

def uploadFile (provider : Provider) (read : BackupFile → Bytes) (c : Creation) (file : BackupFile) : Creation :=
  let backupPath := backupPathOf c.snapshot.id file.snapshotPath
  match provider.uploadError backupPath with
  | some e => { c with errors := c.errors ++ ["failed to upload " ++ shown file.sourcePath ++ ": " ++ e] }
  | none =>
    { c with
      snapshot :=
        { c.snapshot with
          files := c.snapshot.files ++ [⟨file.sourcePath, backupPath, file.size, file.modTime⟩]
          size := c.snapshot.size + file.size }
      store := c.store.put backupPath (uploaded backupPath (read file)) }

structure CreateResult where
  snapshot : Option Snapshot
  errors : List String
  store : Store

/-- The identifier and the time are those the call has drawn; the source files are read as they are uploaded. -/
def createSnapshotContext (provider : Provider) (read : BackupFile → Bytes) (files : List BackupFile) (id : Text)
    (now : ℤ) (store : Store) : CreateResult :=
  if files = [] then ⟨none, ["no files provided for snapshot"], store⟩
  else
    let c := files.foldl (uploadFile provider read) ⟨⟨id, now, [], 0⟩, [], store⟩
    if c.snapshot.files = [] then ⟨none, c.errors, c.store⟩
    else
      match provider.uploadError (manifestKeyOf id) with
      | some e => ⟨some c.snapshot, ["failed to upload snapshot manifest: " ++ e], c.store⟩
      | none => ⟨some c.snapshot, [], c.store.put (manifestKeyOf id) (.manifest c.snapshot)⟩

def entryOf (id : Text) (file : BackupFile) : SnapshotFile :=
  ⟨file.sourcePath, backupPathOf id file.snapshotPath, file.size, file.modTime⟩

def objectOf (read : BackupFile → Bytes) (id : Text) (file : BackupFile) : Object :=
  ⟨backupPathOf id file.snapshotPath, .gzip (read file)⟩

section Creation
variable {store : Store} {object : Object} {read : BackupFile → Bytes} {files : List BackupFile} {id : Text}

theorem mem_put {key : Text} {content : Content} :
    object ∈ store.put key content ↔ (object ∈ store ∧ object.key ≠ key) ∨ object = ⟨key, content⟩ := by
  simp [Store.put]

theorem nodup_put (distinct : (store.map Object.key).Nodup) (key : Text) (content : Content) :
    ((store.put key content).map Object.key).Nodup := by
  rw [Store.put, map_append, map_singleton]
  refine nodup_append.mpr ⟨distinct.sublist (filter_sublist.map _), nodup_singleton _, ?_⟩
  intro earlier before last only
  obtain ⟨object, kept, rfl⟩ := List.mem_map.mp before
  rw [mem_singleton.mp only]
  exact of_decide_eq_true (mem_filter.mp kept).2

theorem gz_suffix_backupPathOf (id snapshotPath : Text) : ".gz".toList <:+ backupPathOf id snapshotPath := by
  unfold backupPathOf ensureGzipExtension
  split_ifs with ends
  · exact List.isSuffixOf_iff_suffix.mp ends
  · exact suffix_append _ _

theorem uploaded_backupPathOf (id snapshotPath : Text) (bytes : Bytes) :
    uploaded (backupPathOf id snapshotPath) bytes = .gzip bytes :=
  if_pos (List.isSuffixOf_iff_suffix.mpr (gz_suffix_backupPathOf id snapshotPath))

def snapshotOf (files : List BackupFile) (id : Text) (now : ℤ) : Snapshot :=
  ⟨id, now, files.map (entryOf id), (files.map BackupFile.size).sum⟩

def storeFiles (read : BackupFile → Bytes) (files : List BackupFile) (id : Text) (store : Store) : Store :=
  files.foldl (fun store file => store.put (objectOf read id file).key (objectOf read id file).content) store

theorem foldl_uploadFile {provider : Provider} (succeeds : ∀ key, provider.uploadError key = none) (c : Creation) :
    files.foldl (uploadFile provider read) c =
      { snapshot :=
          { c.snapshot with
            files := c.snapshot.files ++ files.map (entryOf c.snapshot.id)
            size := c.snapshot.size + (files.map BackupFile.size).sum }
        errors := c.errors
        store := storeFiles read files c.snapshot.id c.store } := by
  induction files generalizing c with
  | nil => simp [storeFiles]
  | cons file files ih =>
    rw [foldl_cons, ih]
    simp only [uploadFile, succeeds, uploaded_backupPathOf, map_cons, sum_cons, append_assoc,
      singleton_append, Nat.add_assoc]
    rfl

theorem createSnapshotContext_eq {provider : Provider} (succeeds : ∀ key, provider.uploadError key = none)
    (some_file : files ≠ []) (now : ℤ) :
    createSnapshotContext provider read files id now store =
      ⟨some (snapshotOf files id now), [],
        (storeFiles read files id store).put (manifestKeyOf id) (.manifest (snapshotOf files id now))⟩ := by
  have listed : files.map (entryOf id) ≠ [] := by simpa using some_file
  unfold createSnapshotContext
  rw [if_neg some_file, foldl_uploadFile succeeds]
  simp only [nil_append, Nat.zero_add, if_neg listed, succeeds]
  rfl

theorem mem_storeFiles (distinct : (files.map fun file => (objectOf read id file).key).Nodup) :
    object ∈ storeFiles read files id store ↔
      (object ∈ store ∧ ∀ file ∈ files, object.key ≠ (objectOf read id file).key) ∨
        ∃ file ∈ files, object = objectOf read id file := by
  induction files generalizing store with
  | nil => simp [storeFiles]
  | cons file files ih =>
    rw [map_cons, nodup_cons] at distinct
    have rest := @ih (store.put (objectOf read id file).key (objectOf read id file).content) distinct.2
    rw [storeFiles] at rest ⊢
    rw [foldl_cons, rest, mem_put, forall_mem_cons, exists_mem_cons_iff]
    constructor
    · rintro (⟨⟨member, other⟩ | same, others⟩ | later)
      · exact .inl ⟨member, other, others⟩
      · exact .inr (.inl same)
      · exact .inr (.inr later)
    · rintro (⟨member, other, others⟩ | same | later)
      · exact .inl ⟨.inl ⟨member, other⟩, others⟩
      · refine .inl ⟨.inr same, fun earlier listed clash => distinct.1 ?_⟩
        rw [same] at clash
        exact List.mem_map.mpr ⟨earlier, listed, clash.symm⟩
      · exact .inr later

theorem nodup_storeFiles (distinct : (store.map Object.key).Nodup) :
    ((storeFiles read files id store).map Object.key).Nodup := by
  induction files generalizing store with
  | nil => exact distinct
  | cons file files ih => exact ih (nodup_put distinct _ _)

end Creation

def isManifestPath (item : Text) : Bool :=
  ('/' :: snapshotManifestKey).isSuffixOf (cleanPath item) || cleanPath item == snapshotManifestKey

/-- A snapshot, with the key of the manifest it was read from. -/
structure Listed where
  key : Text
  snapshot : Snapshot

/-- Some order by time; which of two snapshots of one time comes first is left open. -/
structure TimeSort where
  sort : List Listed → List Listed
  perm : ∀ l, (sort l).Perm l
  sorted : ∀ l, (sort l).Pairwise fun a b => a.snapshot.timestamp ≤ b.snapshot.timestamp

def readManifest (provider : Provider) (object : Object) : Option Listed :=
  if isManifestPath object.key then
    match provider.downloadError object.key, object.content with
    | none, .manifest snapshot => some ⟨object.key, snapshot⟩
    | _, _ => none
  else none

def manifestError (provider : Provider) (object : Object) : Option String :=
  if isManifestPath object.key then
    match provider.downloadError object.key, object.content with
    | some e, _ => some ("failed to download manifest " ++ shown object.key ++ ": " ++ e)
    | none, .manifest _ => none
    | none, _ => some ("failed to decode manifest " ++ shown object.key)
  else none

def listedUnder (store : Store) (front : Text) : Store := store.filter fun object => front.isPrefixOf object.key

structure ListResult where
  snapshots : List Listed
  errors : List String

def listSnapshots (sorter : TimeSort) (provider : Provider) (store : Store) : ListResult :=
  match provider.listError snapshotRootDir with
  | some e => ⟨[], [e]⟩
  | none =>
    let items := listedUnder store snapshotRootDir
    ⟨sorter.sort (items.filterMap (readManifest provider)), items.filterMap (manifestError provider)⟩

def snapshotDir (id : Text) : Text := joinPath [snapshotRootDir, id]

def listSnapshotPrefixItems (provider : Provider) (store : Store) (id : Text) : Except String (List Text) :=
  match provider.listError (snapshotDir id ++ ['/']) with
  | some e => .error e
  | none => .ok ((store.list (snapshotDir id ++ ['/'])).filter fun item => Within (snapshotDir id) (cleanPath item))

structure PruneResult where
  store : Store
  errors : List String

def deleteItem (provider : Provider) (result : PruneResult) (item : Text) : PruneResult :=
  match provider.deleteError item with
  | some e => { result with errors := result.errors ++ ["failed to delete " ++ shown item ++ ": " ++ e] }
  | none => { result with store := result.store.delete item }

def deleteListed (provider : Provider) (result : PruneResult) (listed : Listed) : PruneResult :=
  match listSnapshotPrefixItems provider result.store listed.snapshot.id with
  | .error e =>
    { result with errors := result.errors ++ ["failed to list snapshot " ++ shown listed.snapshot.id ++ ": " ++ e] }
  | .ok items => items.foldl (deleteItem provider) result

def deleteSnapshotContext (sorter : TimeSort) (provider : Provider) (retention : ℤ) (store : Store) : PruneResult :=
  if retention ≤ 0 then ⟨store, []⟩
  else
    let listing := listSnapshots sorter provider store
    if (listing.snapshots.length : ℤ) ≤ retention then ⟨store, listing.errors⟩
    else
      let toDelete := listing.snapshots.take (listing.snapshots.length - retention.toNat)
      toDelete.foldl (deleteListed provider) ⟨store, listing.errors⟩

/-- The listed snapshots beyond the retention count, and those within it. -/
def outdated (sorter : TimeSort) (provider : Provider) (retention : ℤ) (store : Store) : List Listed :=
  let listed := (listSnapshots sorter provider store).snapshots
  listed.take (listed.length - retention.toNat)

def newest (sorter : TimeSort) (provider : Provider) (retention : ℤ) (store : Store) : List Listed :=
  let listed := (listSnapshots sorter provider store).snapshots
  listed.drop (listed.length - retention.toNat)

def Scoped (id key : Text) : Prop := snapshotDir id ++ ['/'] <+: key ∧ Within (snapshotDir id) (cleanPath key)

section Deletion
variable {provider : Provider} {result : PruneResult} {object : Object}

theorem mem_deleteItem (item : Text) :
    object ∈ (deleteItem provider result item).store ↔
      object ∈ result.store ∧ (object.key = item → provider.deleteError object.key ≠ none) := by
  unfold deleteItem
  cases failed : provider.deleteError item with
  | some e =>
    refine ⟨fun member => ⟨member, ?_⟩, And.left⟩
    rintro rfl
    rw [failed]
    exact Option.some_ne_none e
  | none =>
    simp only [Store.delete, mem_filter, decide_eq_true_eq]
    refine and_congr_right fun _ => ⟨fun other same => absurd same other, ?_⟩
    rintro spared rfl
    exact spared rfl failed

theorem mem_deleteItems (items : List Text) :
    object ∈ (items.foldl (deleteItem provider) result).store ↔
      object ∈ result.store ∧ (object.key ∈ items → provider.deleteError object.key ≠ none) := by
  induction items generalizing result with
  | nil => simp
  | cons item items ih =>
    rw [foldl_cons, ih, mem_deleteItem, mem_cons, or_imp, and_assoc]

theorem mem_deleteListed (listed : Listed) :
    object ∈ (deleteListed provider result listed).store ↔
      object ∈ result.store ∧ (Scoped listed.snapshot.id object.key →
        provider.listError (snapshotDir listed.snapshot.id ++ ['/']) ≠ none ∨
          provider.deleteError object.key ≠ none) := by
  unfold deleteListed listSnapshotPrefixItems
  cases failed : provider.listError (snapshotDir listed.snapshot.id ++ ['/']) with
  | some e => simp
  | none =>
    simp only [mem_deleteItems, ne_eq, not_true, false_or]
    refine and_congr_right fun member => imp_congr_left ?_
    rw [mem_filter, Store.list, mem_filter, decide_eq_true_eq, List.isPrefixOf_iff_prefix, Scoped]
    exact and_congr_left fun _ => and_iff_right (List.mem_map_of_mem member)

theorem mem_deleteAll (toDelete : List Listed) :
    object ∈ (toDelete.foldl (deleteListed provider) result).store ↔
      object ∈ result.store ∧ ∀ listed ∈ toDelete, Scoped listed.snapshot.id object.key →
        provider.listError (snapshotDir listed.snapshot.id ++ ['/']) ≠ none ∨
          provider.deleteError object.key ≠ none := by
  induction toDelete generalizing result with
  | nil => simp
  | cons listed toDelete ih => rw [foldl_cons, ih, mem_deleteListed, forall_mem_cons, and_assoc]

theorem mem_deleteSnapshotContext {sorter : TimeSort} {retention : ℤ} {store : Store} (positive : 1 ≤ retention) :
    object ∈ (deleteSnapshotContext sorter provider retention store).store ↔
      object ∈ store ∧ ∀ listed ∈ outdated sorter provider retention store, Scoped listed.snapshot.id object.key →
        provider.listError (snapshotDir listed.snapshot.id ++ ['/']) ≠ none ∨
          provider.deleteError object.key ≠ none := by
  unfold deleteSnapshotContext outdated
  rw [if_neg (by omega)]
  dsimp only
  split_ifs with few
  · have none : (listSnapshots sorter provider store).snapshots.length - retention.toNat = 0 := by omega
    rw [none, take_zero]
    simp
  · exact mem_deleteAll _

theorem deleteItems_sublist (items : List Text) :
    (items.foldl (deleteItem provider) result).store.Sublist result.store := by
  induction items generalizing result with
  | nil => exact List.Sublist.refl _
  | cons item items ih =>
    refine ih.trans ?_
    unfold deleteItem
    split
    · exact List.Sublist.refl _
    · exact filter_sublist

theorem deleteAll_sublist (toDelete : List Listed) :
    (toDelete.foldl (deleteListed provider) result).store.Sublist result.store := by
  induction toDelete generalizing result with
  | nil => exact List.Sublist.refl _
  | cons listed toDelete ih =>
    refine ih.trans ?_
    unfold deleteListed
    split
    · exact List.Sublist.refl _
    · exact deleteItems_sublist _

theorem deleteSnapshotContext_sublist (sorter : TimeSort) (provider : Provider) (retention : ℤ) (store : Store) :
    (deleteSnapshotContext sorter provider retention store).store.Sublist store := by
  unfold deleteSnapshotContext
  dsimp only
  split_ifs
  · exact List.Sublist.refl _
  · exact List.Sublist.refl _
  · exact deleteAll_sublist _

end Deletion

/-- No object of the store is in both directories: they are apart, or the inner one of the two is empty as far as the
first one is listed. -/
def Clear (store : Store) (pruned kept : Text) : Prop :=
  (Within pruned kept → ∀ object ∈ store, pruned ++ ['/'] <+: object.key → ¬Within kept (cleanPath object.key)) ∧
  (Within kept pruned → ∀ object ∈ store, pruned ++ ['/'] <+: object.key → ¬Within pruned (cleanPath object.key))
  deriving Decidable

theorem clear_iff {store : Store} {pruned kept : Text} :
    Clear store pruned kept ↔ ∀ object ∈ store, pruned ++ ['/'] <+: object.key →
      Within pruned (cleanPath object.key) → ¬Within kept (cleanPath object.key) := by
  constructor
  · rintro ⟨inner, outer⟩ object member front first second
    rcases first.nested second with within | within
    · exact inner within object member front second
    · exact outer within object member front first
  · intro apart
    refine ⟨fun within object member front inside => ?_, fun within object member front inside => ?_⟩
    · exact apart object member front (within.trans inside) inside
    · exact apart object member front inside (within.trans inside)

theorem outdated_congr (sorter : TimeSort) {one two : Provider} (retention : ℤ) (store : Store)
    (downloads : one.downloadError = two.downloadError) (first : one.listError snapshotRootDir = none)
    (second : two.listError snapshotRootDir = none) :
    outdated sorter one retention store = outdated sorter two retention store ∧
      newest sorter one retention store = newest sorter two retention store := by
  have read : readManifest one = readManifest two := by
    funext object
    simp only [readManifest, downloads]
  have listed : (listSnapshots sorter one store).snapshots = (listSnapshots sorter two store).snapshots := by
    simp only [listSnapshots, first, second, read]
  simp only [outdated, newest, listed, and_self]

/-- Whatever fails, pruning deletes nothing in the directory of a manifest that is kept exactly when the directory that
the identifier of a pruned manifest names is clear of it. -/
theorem prune_spares_newest_iff (sorter : TimeSort) (store : Store) (retention : ℤ) (positive : 1 ≤ retention)
    (downloadError : Text → Option String) :
    (∀ provider : Provider, provider.downloadError = downloadError →
      ∀ object ∈ store, object ∉ (deleteSnapshotContext sorter provider retention store).store →
        ∀ kept ∈ newest sorter provider retention store, ¬Within (pathDir kept.key) (cleanPath object.key)) ↔
    ∀ pruned ∈ outdated sorter { downloadError } retention store,
      ∀ kept ∈ newest sorter { downloadError } retention store,
        Clear store (snapshotDir pruned.snapshot.id) (pathDir kept.key) := by
  constructor
  · intro spares pruned listed kept keep
    rw [clear_iff]
    intro object member front inside
    refine spares { downloadError } rfl object member (fun left => ?_) kept keep
    have failed := ((mem_deleteSnapshotContext positive).mp left).2 pruned listed ⟨front, inside⟩
    exact failed.elim (fun list => list rfl) (fun delete => delete rfl)
  · intro clear provider downloads object member gone kept keep
    have reached : ∃ pruned ∈ outdated sorter provider retention store, Scoped pruned.snapshot.id object.key := by
      by_contra unscoped
      push Not at unscoped
      exact gone ((mem_deleteSnapshotContext positive).mpr
        ⟨member, fun pruned listed scope => absurd scope (unscoped pruned listed)⟩)
    obtain ⟨pruned, listed, front, inside⟩ := reached
    have listing : provider.listError snapshotRootDir = none := by
      by_contra failed
      obtain ⟨e, error⟩ := Option.ne_none_iff_exists'.mp failed
      simp only [outdated, listSnapshots, error, take_nil, not_mem_nil] at listed
    have second : ({ downloadError } : Provider).listError snapshotRootDir = none := rfl
    obtain ⟨same_old, same_new⟩ := outdated_congr sorter retention store downloads listing second
    rw [same_old] at listed
    rw [same_new] at keep
    exact clear_iff.mp (clear pruned listed kept keep) object member front inside

/-- Snapshots of one time stay in the order in which they were listed. -/
def stableSort : TimeSort where
  sort := List.insertionSort fun a b => a.snapshot.timestamp ≤ b.snapshot.timestamp
  perm := perm_insertionSort _
  sorted :=
    haveI : Std.Total fun a b : Listed => a.snapshot.timestamp ≤ b.snapshot.timestamp := ⟨fun _ _ => le_total _ _⟩
    haveI : IsTrans Listed fun a b => a.snapshot.timestamp ≤ b.snapshot.timestamp := ⟨fun _ _ _ => le_trans⟩
    pairwise_insertionSort _

def manifestIn (directory id : String) (timestamp : ℤ) : Object :=
  ⟨manifestKeyOf directory.toList, .manifest ⟨id.toList, timestamp, [], 0⟩⟩

def healthyStore : Store := [manifestIn "monday" "monday" 1, manifestIn "tuesday" "tuesday" 2]

def damagedStore : Store := [manifestIn "monday" "" 1, manifestIn "tuesday" "tuesday" 2]

/-- Pruning deletes from the healthy store, and never in the directory of the newest manifest. -/
theorem healthy_store_spared :
    (∃ object ∈ healthyStore, object ∉ (deleteSnapshotContext stableSort {} 1 healthyStore).store) ∧
    ∀ provider : Provider, provider.downloadError = (fun _ => none) →
      ∀ object ∈ healthyStore, object ∉ (deleteSnapshotContext stableSort provider 1 healthyStore).store →
        ∀ kept ∈ newest stableSort provider 1 healthyStore, ¬Within (pathDir kept.key) (cleanPath object.key) :=
  ⟨by decide +kernel,
    (prune_spares_newest_iff stableSort healthyStore 1 (by decide) fun _ => none).mpr (by decide +kernel)⟩

/-- One manifest without an identifier, and pruning empties the store. -/
theorem damaged_manifest_deletes_newest :
    ∃ object ∈ damagedStore, object ∉ (deleteSnapshotContext stableSort {} 1 damagedStore).store ∧
      ∃ kept ∈ newest stableSort {} 1 damagedStore, Within (pathDir kept.key) (cleanPath object.key) := by
  decide +kernel

end RemudaRmm.Backup
