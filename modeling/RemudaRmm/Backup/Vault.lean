import RemudaRmm.Backup.LocalProvider

/-! The local vault (`vault.go`): a directory that mirrors the snapshots of a primary provider. The primary lists a key
under every text it begins with, the vault under its directories; which operations fail is a parameter. -/
namespace RemudaRmm.Backup
open Foundation List Option List

/-- The vault's directory by its names, and how many snapshots it keeps. -/
structure VaultManager where
  vaultPath : List Text
  names : ∀ t ∈ vaultPath, IsName t
  retentionCount : ℤ
  positive : 1 ≤ retentionCount

def newVaultManager (vaultPath : List Text) (names : ∀ t ∈ vaultPath, IsName t) (retentionCount : ℤ) : VaultManager :=
  if positive : 1 ≤ retentionCount then ⟨vaultPath, names, retentionCount, positive⟩
  else ⟨vaultPath, names, 3, by decide⟩

structure VaultSyncResult where
  (snapshotID vaultPath : Text)
  (fileCount totalBytes : ℕ)
  manifestVerified : Bool

/-- The operations of one synchronisation that fail; the manifest is downloaded before the files and uploaded after
them. -/
structure SyncFaults where
  manifestDownload : Option String := none
  primaryList : Option String := none
  vaultList : Option String := none
  download : Text → Option String := fun _ => none
  upload : Text → Option String := fun _ => none
  manifestUpload : Option String := none
  delete : Text → Option String := fun _ => none

structure Syncing where
  store : Store
  errors : List String

structure SyncOutcome where
  result : Option VaultSyncResult
  error : Option String
  store : Store

def fetched (fault : Option String) (primary : Store) (key : Text) : Except String Content :=
  match fault, primary.get key with
  | some e, _ => .error e
  | none, some (.manifest snapshot) =>
    if ".gz".toList.isSuffixOf key then .error "failed to create gzip reader" else .ok (.manifest snapshot)
  | none, _ =>
    match download {} primary key with
    | some bytes => .ok (uploaded key bytes)
    | none => .error noSuchFile

section Vault
variable (env : LocalEnv) (m : VaultManager)

def vaultDir : Text := '/' :: slashed m.vaultPath

def traversalError : String := "path traversal detected"

def placeIn (key : Text) : Option Text :=
  match containedPath env (vaultDir m) key with
  | .ok path =>
    if path = absPath env (vaultDir m) then none else some (path.drop ((absPath env (vaultDir m)).length + 1))
  | .error _ => none

def vaultUnder (vault : Store) (front : Text) : Option Store :=
  match containedPath env (vaultDir m) front with
  | .ok root => some (vault.filter fun object => Within root (absPath env (vaultDir m) ++ '/' :: object.key))
  | .error _ => none

def vaultList (fault : Option String) (vault : Store) (front : Text) : Except String (List Text) :=
  match fault, vaultUnder env m vault front with
  | some e, _ => .error e
  | none, some objects => .ok (objects.map Object.key)
  | none, none => .error traversalError

def vaultUpload (fault : Option String) (vault : Store) (key : Text) (content : Content) : Option String × Store :=
  match placeIn env m key, fault with
  | none, _ => (some traversalError, vault)
  | some place, some e => (some e, vault.delete place)
  | some place, none => (none, vault.put place content)

def vaultDelete (fault : Option String) (vault : Store) (key : Text) : Option String × Store :=
  match placeIn env m key, fault with
  | none, _ => (some traversalError, vault)
  | some _, some e => (some e, vault)
  | some place, none => (none, vault.delete place)

def syncFile (faults : SyncFaults) (primary : Store) (vaultSet : List Text) (r : Syncing) (file : Text) : Syncing :=
  if file ∈ vaultSet then r
  else
    match fetched (faults.download file) primary file with
    | .error e => { r with errors := r.errors ++ ["download " ++ shown file ++ ": " ++ e] }
    | .ok content =>
      match vaultUpload env m (faults.upload file) r.store file content with
      | (some e, store) => ⟨store, r.errors ++ ["upload " ++ shown file ++ " to vault: " ++ e]⟩
      | (none, store) => ⟨store, r.errors⟩

/-- What the vault holds of the snapshot already; a listing that fails finds nothing. -/
def vaultSetOf (faults : SyncFaults) (vault : Store) (id : Text) : List Text :=
  match vaultList env m faults.vaultList vault (snapshotDir id) with
  | .ok files => files
  | .error _ => []

def syncFiles (faults : SyncFaults) (primary vault : Store) (id : Text) : Syncing :=
  (primary.list (snapshotDir id)).foldl (syncFile env m faults primary (vaultSetOf env m faults vault id)) ⟨vault, []⟩

def cleanUp (faults : SyncFaults) (primaryFiles : List Text) (vault : Store) : Store :=
  primaryFiles.foldl (fun store file => (vaultDelete env m (faults.delete file) store file).2) vault

def totalBytes (fileSize : Content → ℕ) (vault : Store) (id : Text) : ℕ :=
  (((vaultUnder env m vault (snapshotDir id)).getD []).map fun object => fileSize object.content).sum

def syncError (errors : List String) : Option String :=
  if errors = [] then none else some ("vault sync completed with errors: " ++ "\n".intercalate errors)

def syncSnapshot (fileSize : Content → ℕ) (faults : SyncFaults) (primary vault : Store) (id : Text) : SyncOutcome :=
  match fetched faults.manifestDownload primary (manifestKeyOf id), faults.primaryList with
  | .error e, _ => ⟨none, some ("failed to download manifest from primary: " ++ e), vault⟩
  | .ok _, some e => ⟨none, some ("failed to list primary snapshot files: " ++ e), vault⟩
  | .ok manifest, none =>
    let primaryFiles := primary.list (snapshotDir id)
    let r := syncFiles env m faults primary vault id
    match vaultUpload env m faults.manifestUpload r.store (manifestKeyOf id) manifest with
    | (some e, store) =>
      ⟨none, some ("vault sync failed at manifest upload: " ++ e), cleanUp env m faults primaryFiles store⟩
    | (none, store) =>
      ⟨some ⟨id, vaultDir m, primaryFiles.length, totalBytes env m fileSize store id, true⟩, syncError r.errors, store⟩

def pruneItem (vault : Provider) (result : PruneResult) (item : Text) : PruneResult :=
  match vaultDelete env m (vault.deleteError item) result.store item with
  | (some e, store) => ⟨store, result.errors ++ ["delete " ++ shown item ++ ": " ++ e]⟩
  | (none, store) => ⟨store, result.errors⟩

def pruneListed (vault : Provider) (result : PruneResult) (listed : Listed) : PruneResult :=
  let front := snapshotDir listed.snapshot.id
  match vaultList env m (vault.listError front) result.store front with
  | .error e => { result with errors := result.errors ++ ["list snapshot " ++ shown listed.snapshot.id ++ ": " ++ e] }
  | .ok items => items.foldl (pruneItem env m vault) result

def vaultSnapshots (sorter : TimeSort) (vault : Provider) (store : Store) : ListResult :=
  match vaultUnder env m store snapshotRootDir with
  | none => ⟨[], [traversalError]⟩
  | some objects => listSnapshots sorter vault objects

def enforceVaultRetention (sorter : TimeSort) (vault : Provider) (store : Store) : PruneResult :=
  let listing := vaultSnapshots env m sorter vault store
  if listing.errors ≠ [] ∧ listing.snapshots = [] then ⟨store, listing.errors⟩
  else if (listing.snapshots.length : ℤ) ≤ m.retentionCount then ⟨store, []⟩
  else
    (listing.snapshots.take (listing.snapshots.length - m.retentionCount.toNat)).foldl (pruneListed env m vault)
      ⟨store, []⟩

def syncAfterBackup (fileSize : Content → ℕ) (sorter : TimeSort) (faults : SyncFaults) (vault : Provider)
    (primary store : Store) (id : Text) : SyncOutcome :=
  let synced := syncSnapshot env m fileSize faults primary store id
  match synced.error with
  | some _ => synced
  | none =>
    let pruned := enforceVaultRetention env m sorter vault synced.store
    ⟨synced.result, if pruned.errors = [] then none else some ("\n".intercalate pruned.errors), pruned.store⟩

/-- The primary is as it stands at the call. -/
inductive VaultEvent where
  | syncSnapshot (id : Text) (primary : Store) (faults : SyncFaults)
  | syncAfterBackup (id : Text) (primary : Store) (faults : SyncFaults) (vault : Provider)
  | enforceRetention (vault : Provider)

def vaultStep (fileSize : Content → ℕ) (sorter : TimeSort) (store : Store) : VaultEvent → Store
  | .syncSnapshot id primary faults => (syncSnapshot env m fileSize faults primary store id).store
  | .syncAfterBackup id primary faults vault =>
    (syncAfterBackup env m fileSize sorter faults vault primary store id).store
  | .enforceRetention vault => (enforceVaultRetention env m sorter vault store).store

/-- The objects of a snapshot: its manifest and what that lists. -/
def listedBy (object : Object) : List Text :=
  match object.content with
  | .manifest snapshot => object.key :: snapshot.files.map SnapshotFile.backupPath
  | _ => []

def VaultHas (vault : Store) (key : Text) : Prop := ∃ place ∈ vault.map Object.key, placeIn env m key = some place
  deriving Decidable

/-- A snapshot whose manifest is there is there with all it lists. -/
def VaultComplete (vault : Store) : Prop := ∀ object ∈ vault, ∀ key ∈ listedBy object, VaultHas env m vault key
  deriving Decidable

/-- A synchronisation that fails leaves the snapshots that were complete. -/
def FailedSyncKeeps (fileSize : Content → ℕ) (store : Store) : VaultEvent → Prop
  | .syncSnapshot id primary faults | .syncAfterBackup id primary faults _ =>
    (syncSnapshot env m fileSize faults primary store id).error ≠ none →
      ∀ object ∈ store, (∀ key ∈ listedBy object, VaultHas env m store key) →
        ∀ key ∈ listedBy object, VaultHas env m (syncSnapshot env m fileSize faults primary store id).store key
  | .enforceRetention _ => True

end Vault

def CleanKey (key : Text) : Prop := ∀ t ∈ key.splitOn '/', IsName t
  deriving Decidable

/-- A manifest stands in the directory of its identifier and lists what lies there. -/
def OwnObject (object : Object) : Prop :=
  CleanKey object.key ∧ ∀ snapshot, object.content = .manifest snapshot →
    IsName snapshot.id ∧ object.key = manifestKeyOf snapshot.id ∧ ∀ entry ∈ snapshot.files,
      CleanKey entry.backupPath ∧ snapshotDir snapshot.id ++ ['/'] <+: entry.backupPath

instance decidableOwnObject : ∀ object : Object, Decidable (OwnObject object)
  | ⟨key, .manifest snapshot⟩ =>
    decidable_of_iff (CleanKey key ∧ IsName snapshot.id ∧ key = manifestKeyOf snapshot.id ∧
      ∀ entry ∈ snapshot.files, CleanKey entry.backupPath ∧ snapshotDir snapshot.id ++ ['/'] <+: entry.backupPath)
      (by simp [OwnObject])
  | ⟨key, .plain _⟩ => decidable_of_iff (CleanKey key) (by simp [OwnObject])
  | ⟨key, .gzip _⟩ => decidable_of_iff (CleanKey key) (by simp [OwnObject])

def Needed (vault : Store) (key : Text) : Prop := ∃ object ∈ vault, key ∈ listedBy object
  deriving Decidable

section Condition
variable (env : LocalEnv) (m : VaultManager) (vault : Store) (id : Text) (primary : Store) (faults : SyncFaults)

def Sent (key : Text) : Prop :=
  key ∈ primary.list (snapshotDir id) ∧ key ∉ vaultSetOf env m faults vault id ∧
    (fetched (faults.download key) primary key).isOk = true
  deriving Decidable

/-- After the files the vault has the object: it is uploaded now or stays as it was. -/
def Delivered (key : Text) : Prop :=
  if Sent env m vault id primary faults key then faults.upload key = none else key ∈ vault.map Object.key

instance decidableDelivered (key : Text) : Decidable (Delivered env m vault id primary faults key) :=
  decidable_of_iff ((Sent env m vault id primary faults key ∧ faults.upload key = none) ∨
    (¬Sent env m vault id primary faults key ∧ key ∈ vault.map Object.key)) (by unfold Delivered; split_ifs <;> simp_all)

/-- An upload that fails takes nothing that a snapshot in the vault needs, nor does the clean-up, and the manifests that
are uploaded list what is delivered. -/
structure SafeSync : Prop where
  own : ∀ object ∈ primary, object.key = manifestKeyOf id ∨ snapshotDir id <+: object.key → OwnObject object
  kept : ∀ key ∈ primary.list (snapshotDir id), Sent env m vault id primary faults key → faults.upload key ≠ none →
    ¬Needed vault key
  cleaned : faults.manifestUpload ≠ none → ∀ key ∈ manifestKeyOf id :: primary.list (snapshotDir id),
    ¬Needed vault key ∧ faults.delete key = none
  delivered : faults.manifestUpload = none → ∀ object ∈ primary, object.key = manifestKeyOf id ∨
    (Sent env m vault id primary faults object.key ∧ faults.upload object.key = none) → ∀ key ∈ listedBy object,
      key = manifestKeyOf id ∨ Delivered env m vault id primary faults key

/-- Only a synchronisation that has found the manifest and the files does anything. -/
def SafeSyncCall : Prop :=
  (fetched faults.manifestDownload primary (manifestKeyOf id)).isOk = true → faults.primaryList = none →
    SafeSync env m vault id primary faults

end Condition

def SafeVaultEvent (env : LocalEnv) (m : VaultManager) (store : Store) : VaultEvent → Prop
  | .syncSnapshot id primary faults => SafeSyncCall env m store id primary faults
  | .syncAfterBackup id primary faults vault =>
    SafeSyncCall env m store id primary faults ∧ ∀ key, vault.deleteError key = none
  | .enforceRetention vault => ∀ key, vault.deleteError key = none

section Keys
variable {env : LocalEnv} {m : VaultManager} {vault : Store} {key : Text}

theorem CleanKey.parts (clean : CleanKey key) :
    ∃ parts, slashed parts = key ∧ parts ≠ [] ∧ ∀ t ∈ parts, IsName t :=
  ⟨key.splitOn '/', intercalate_splitOn '/', splitOn_ne_nil _ _, clean⟩

theorem cleanKey_slashed {parts : List Text} (names : ∀ t ∈ parts, IsName t) (some_part : parts ≠ []) :
    CleanKey (slashed parts) := by
  rw [CleanKey, splitOn_slashed names some_part]
  exact names

theorem absPath_vaultDir : absPath env (vaultDir m) = vaultDir m := by
  rw [absPath, vaultDir, if_pos head?_cons, cleanPath_rooted m.names]

theorem containedPath_clean (clean : CleanKey key) :
    containedPath env (vaultDir m) key =
      if m.vaultPath = [] then .error (.pathTraversal key ['/']) else .ok (vaultDir m ++ '/' :: key) := by
  obtain ⟨parts, rfl, some_part, names⟩ := clean.parts
  have all : ∀ t ∈ m.vaultPath ++ parts, IsName t := by
    intro t member
    rcases mem_append.mp member with front | back
    · exact m.names t front
    · exact names t back
  have joined : absPath env (joinPath [vaultDir m, slashed parts]) = '/' :: slashed (m.vaultPath ++ parts) := by
    rw [vaultDir, joinPath_rooted_slashed all some_part, absPath, if_pos head?_cons, cleanPath_rooted all]
  rw [containedPath, absPath_vaultDir, joined]
  by_cases root : m.vaultPath = []
  · obtain ⟨filled, unrooted⟩ := slashed_head names some_part
    have outside : ¬Within (vaultDir m) ('/' :: slashed (m.vaultPath ++ parts)) := by
      rw [vaultDir, root, nil_append]
      rintro (same | ⟨rest, same⟩)
      · exact filled (List.cons.inj same).2
      · exact unrooted (by rw [← (List.cons.inj same).2]; rfl)
    rw [if_neg outside, if_pos root, vaultDir, root]
    rfl
  · have below : '/' :: slashed (m.vaultPath ++ parts) = vaultDir m ++ '/' :: slashed parts := by
      rw [slashed_append root some_part]
      rfl
    have inside : Within (vaultDir m) (vaultDir m ++ '/' :: slashed parts) :=
      .inr ⟨slashed parts, by rw [append_assoc, singleton_append]⟩
    rw [below, if_pos inside, if_neg root]

theorem placeIn_clean (clean : CleanKey key) : placeIn env m key = if m.vaultPath = [] then none else some key := by
  rw [placeIn, containedPath_clean clean, absPath_vaultDir]
  by_cases root : m.vaultPath = []
  · rw [if_pos root, if_pos root]
  · rw [if_neg root, if_neg root]
    dsimp only
    have longer : vaultDir m ++ '/' :: key ≠ vaultDir m := fun same =>
      cons_ne_nil '/' key (append_right_eq_self.mp same)
    have after : (vaultDir m ++ '/' :: key).drop ((vaultDir m).length + 1) = key := by
      rw [← drop_drop, drop_left, drop_one, tail_cons]
    rw [if_neg longer, after]

theorem keys_put {content : Content} {other : Text} :
    other ∈ (vault.put key content).map Object.key ↔ other = key ∨ other ∈ vault.map Object.key := by
  constructor
  · intro member
    obtain ⟨object, inside, rfl⟩ := mem_map.mp member
    rcases mem_put.mp inside with ⟨old, -⟩ | rfl
    · exact .inr (mem_map_of_mem old)
    · exact .inl rfl
  · intro either
    by_cases same : other = key
    · exact mem_map.mpr ⟨⟨key, content⟩, mem_put.mpr (.inr rfl), same.symm⟩
    · obtain ⟨object, inside, rfl⟩ := mem_map.mp (either.resolve_left same)
      exact mem_map_of_mem (mem_put.mpr (.inl ⟨inside, same⟩))

theorem mem_delete {object : Object} : object ∈ vault.delete key ↔ object ∈ vault ∧ object.key ≠ key := by
  rw [Store.delete, mem_filter, decide_eq_true_iff]

theorem keys_delete {other : Text} :
    other ∈ (vault.delete key).map Object.key ↔ other ≠ key ∧ other ∈ vault.map Object.key := by
  constructor
  · intro member
    obtain ⟨object, inside, rfl⟩ := mem_map.mp member
    obtain ⟨old, different⟩ := mem_delete.mp inside
    exact ⟨different, mem_map_of_mem old⟩
  · rintro ⟨different, member⟩
    obtain ⟨object, inside, rfl⟩ := mem_map.mp member
    exact mem_map_of_mem (mem_delete.mpr ⟨inside, different⟩)

theorem vaultUpload_stored (clean : CleanKey key) (below : m.vaultPath ≠ []) (content : Content) :
    vaultUpload env m none vault key content = (none, vault.put key content) := by
  unfold vaultUpload
  rw [placeIn_clean clean, if_neg below]

theorem vaultDelete_clean (clean : CleanKey key) (fault : Option String) :
    (vaultDelete env m fault vault key).2 = if m.vaultPath = [] ∨ fault ≠ none then vault else vault.delete key := by
  unfold vaultDelete
  rw [placeIn_clean clean]
  by_cases root : m.vaultPath = []
  · rw [if_pos root, if_pos (.inl root)]
  · rw [if_neg root]
    cases fault with
    | some e => exact (if_pos (.inr (some_ne_none e))).symm
    | none => exact (if_neg (not_or.mpr ⟨root, fun some_fault => some_fault rfl⟩)).symm

theorem keys_vaultDelete {other : Text} (clean : CleanKey key) (fault : Option String) (different : other ≠ key)
    (held : other ∈ vault.map Object.key) : other ∈ (vaultDelete env m fault vault key).2.map Object.key := by
  rw [vaultDelete_clean clean]
  split
  · exact held
  · exact keys_delete.mpr ⟨different, held⟩

end Keys

section Fetched
variable {fault : Option String} {primary : Store} {key : Text} {content : Content}

theorem mem_of_get (found : primary.get key = some content) : ⟨key, content⟩ ∈ primary := by
  obtain ⟨object, first, rfl⟩ := map_eq_some_iff.mp found
  obtain rfl : object.key = key := by simpa using find?_some first
  exact mem_of_find?_eq_some first

theorem fetched_manifest {snapshot : Snapshot} (got : fetched fault primary key = .ok (.manifest snapshot)) :
    ⟨key, .manifest snapshot⟩ ∈ primary := by
  unfold fetched at got
  split at got
  · cases got
  next found =>
    split at got
    · cases got
    · obtain rfl := Content.manifest.inj (Except.ok.inj got)
      exact mem_of_get found
  · split at got
    next bytes _ =>
      have same := Except.ok.inj got
      unfold uploaded at same
      split at same <;> cases same
    · cases got

theorem fetched_mem (got : fetched fault primary key = .ok content) : ∃ stored, ⟨key, stored⟩ ∈ primary := by
  unfold fetched at got
  split at got
  · cases got
  next found => exact ⟨_, mem_of_get found⟩
  next =>
    cases found : primary.get key with
    | none => simp [download, found] at got
    | some stored => exact ⟨stored, mem_of_get found⟩

end Fetched

section Sync
variable {env : LocalEnv} {m : VaultManager} {faults : SyncFaults} {primary vault : Store} {id key : Text}
  {vaultSet : List Text} {r : Syncing} {object : Object}
variable {files : List Text}

theorem mem_syncFile (clean : CleanKey key) (member : object ∈ (syncFile env m faults primary vaultSet r key).store) :
    object ∈ r.store ∨ (m.vaultPath ≠ [] ∧ object.key = key ∧ key ∉ vaultSet ∧ faults.upload key = none ∧
      fetched (faults.download key) primary key = .ok object.content) := by
  unfold syncFile at member
  split at member
  · exact .inl member
  next missing =>
    split at member
    · exact .inl member
    next content got =>
      unfold vaultUpload at member
      rw [placeIn_clean clean] at member
      by_cases root : m.vaultPath = []
      · rw [if_pos root] at member
        exact .inl member
      · rw [if_neg root] at member
        cases fault : faults.upload key with
        | some e =>
          rw [fault] at member
          exact .inl (mem_delete.mp member).1
        | none =>
          rw [fault] at member
          rcases mem_put.mp member with ⟨old, -⟩ | rfl
          · exact .inl old
          · exact .inr ⟨root, rfl, missing, rfl, got⟩

theorem syncFile_keeps {file : Text} (clean : CleanKey file)
    (spared : key = file → file ∉ vaultSet → (fetched (faults.download file) primary file).isOk = true →
      faults.upload file = none)
    (held : key ∈ r.store.map Object.key) :
    key ∈ (syncFile env m faults primary vaultSet r file).store.map Object.key := by
  unfold syncFile
  split
  · exact held
  next missing =>
    split
    · exact held
    next content got =>
      unfold vaultUpload
      rw [placeIn_clean clean]
      by_cases root : m.vaultPath = []
      · rw [if_pos root]
        exact held
      · rw [if_neg root]
        cases fault : faults.upload file with
        | some e =>
          refine keys_delete.mpr ⟨fun same => ?_, held⟩
          have success := spared same missing (by rw [got]; rfl)
          rw [fault] at success
          cases success
        | none => exact keys_put.mpr (.inr held)

theorem syncFile_stores (clean : CleanKey key) (below : m.vaultPath ≠ []) (missing : key ∉ vaultSet)
    (got : (fetched (faults.download key) primary key).isOk = true) (success : faults.upload key = none) :
    key ∈ (syncFile env m faults primary vaultSet r key).store.map Object.key := by
  unfold syncFile
  rw [if_neg missing]
  cases result : fetched (faults.download key) primary key with
  | error e =>
    rw [result] at got
    cases got
  | ok content =>
    dsimp only
    rw [success, vaultUpload_stored clean below]
    exact keys_put.mpr (.inl rfl)

theorem mem_syncLoop (clean : ∀ file ∈ files, CleanKey file)
    (member : object ∈ (files.foldl (syncFile env m faults primary vaultSet) r).store) :
    object ∈ r.store ∨ (m.vaultPath ≠ [] ∧ object.key ∈ files ∧ object.key ∉ vaultSet ∧
      faults.upload object.key = none ∧ fetched (faults.download object.key) primary object.key = .ok object.content) := by
  induction files generalizing r with
  | nil => exact .inl member
  | cons file files ih =>
    rw [forall_mem_cons] at clean
    rcases ih clean.2 member with earlier | ⟨below, inside, rest⟩
    · rcases mem_syncFile clean.1 earlier with old | ⟨below, rfl, missing, success, got⟩
      · exact .inl old
      · exact .inr ⟨below, mem_cons_self, missing, success, got⟩
    · exact .inr ⟨below, mem_cons_of_mem _ inside, rest⟩

theorem syncLoop_keeps (clean : ∀ file ∈ files, CleanKey file)
    (spared : key ∈ files → key ∉ vaultSet → (fetched (faults.download key) primary key).isOk = true →
      faults.upload key = none)
    (held : key ∈ r.store.map Object.key) :
    key ∈ (files.foldl (syncFile env m faults primary vaultSet) r).store.map Object.key := by
  induction files generalizing r with
  | nil => exact held
  | cons file files ih =>
    rw [forall_mem_cons] at clean
    apply ih clean.2 fun inside => spared (mem_cons_of_mem _ inside)
    refine syncFile_keeps clean.1 (fun same => ?_) held
    subst same
    exact spared mem_cons_self

theorem syncLoop_stores (clean : ∀ file ∈ files, CleanKey file) (below : m.vaultPath ≠ [])
    (listed : key ∈ files) (missing : key ∉ vaultSet) (got : (fetched (faults.download key) primary key).isOk = true)
    (success : faults.upload key = none) :
    key ∈ (files.foldl (syncFile env m faults primary vaultSet) r).store.map Object.key := by
  induction files generalizing r with
  | nil => cases listed
  | cons file files ih =>
    rw [forall_mem_cons] at clean
    rcases mem_cons.mp listed with rfl | later
    · rw [foldl_cons]
      exact syncLoop_keeps clean.2 (fun _ _ _ => success) (syncFile_stores clean.1 below missing got success)
    · exact ih clean.2 later

theorem mem_cleanUp (clean : ∀ file ∈ files, CleanKey file) (member : object ∈ cleanUp env m faults files vault) :
    object ∈ vault ∧ (m.vaultPath ≠ [] → object.key ∈ files → faults.delete object.key ≠ none) := by
  induction files generalizing vault with
  | nil => exact ⟨member, fun _ inside => by cases inside⟩
  | cons file files ih =>
    rw [forall_mem_cons] at clean
    obtain ⟨kept, spared⟩ := ih clean.2 member
    dsimp only at kept
    rw [vaultDelete_clean clean.1] at kept
    split at kept
    next fails =>
      refine ⟨kept, fun below inside => ?_⟩
      rcases mem_cons.mp inside with same | later
      · rw [same]
        exact fails.resolve_left below
      · exact spared below later
    next =>
      obtain ⟨old, different⟩ := mem_delete.mp kept
      exact ⟨old, fun below inside => spared below ((mem_cons.mp inside).resolve_left different)⟩

theorem cleanUp_keeps (clean : ∀ file ∈ files, CleanKey file) (other : key ∉ files)
    (held : key ∈ vault.map Object.key) : key ∈ (cleanUp env m faults files vault).map Object.key := by
  induction files generalizing vault with
  | nil => exact held
  | cons file files ih =>
    rw [forall_mem_cons] at clean
    rw [mem_cons, not_or] at other
    apply ih clean.2 other.2
    exact keys_vaultDelete clean.1 _ other.1 held

end Sync

/-- Each object is at home and what the manifests list is there. -/
structure VaultIntact (m : VaultManager) (vault : Store) : Prop where
  own : ∀ object ∈ vault, OwnObject object
  complete : ∀ key, Needed vault key → key ∈ vault.map Object.key
  below : m.vaultPath = [] → vault = []

section Intact
variable {env : LocalEnv} {m : VaultManager} {fileSize : Content → ℕ} {faults : SyncFaults} {primary vault : Store}
  {id key : Text} {object : Object}

theorem OwnObject.listed_clean (own : OwnObject object) (listed : key ∈ listedBy object) : CleanKey key := by
  unfold listedBy at listed
  split at listed
  next snapshot content =>
    rcases mem_cons.mp listed with rfl | inside
    · exact own.1
    · obtain ⟨entry, member, rfl⟩ := mem_map.mp inside
      exact ((own.2 snapshot content).2.2 entry member).1
  · cases listed

theorem vaultHas_clean (below : m.vaultPath ≠ []) (clean : CleanKey key) :
    VaultHas env m vault key ↔ key ∈ vault.map Object.key := by
  unfold VaultHas
  rw [placeIn_clean clean, if_neg below]
  constructor
  · rintro ⟨place, held, same⟩
    rw [some.inj same]
    exact held
  · exact fun held => ⟨key, held, rfl⟩

theorem VaultIntact.not_root (intact : VaultIntact m vault) (member : object ∈ vault) : m.vaultPath ≠ [] := by
  intro root
  rw [intact.below root] at member
  cases member

theorem VaultIntact.vaultComplete (intact : VaultIntact m vault) : VaultComplete env m vault := by
  intro object member key listed
  have clean := (intact.own object member).listed_clean listed
  exact (vaultHas_clean (intact.not_root member) clean).mpr (intact.complete key ⟨object, member, listed⟩)

theorem syncSnapshot_found {manifest : Content} (clean : CleanKey (manifestKeyOf id))
    (got : fetched faults.manifestDownload primary (manifestKeyOf id) = .ok manifest)
    (list : faults.primaryList = none) :
    (m.vaultPath = [] ∧ (syncSnapshot env m fileSize faults primary vault id).store =
      cleanUp env m faults (primary.list (snapshotDir id)) (syncFiles env m faults primary vault id).store) ∨
    (m.vaultPath ≠ [] ∧ faults.manifestUpload ≠ none ∧ (syncSnapshot env m fileSize faults primary vault id).store =
      cleanUp env m faults (primary.list (snapshotDir id))
        ((syncFiles env m faults primary vault id).store.delete (manifestKeyOf id))) ∨
    (m.vaultPath ≠ [] ∧ faults.manifestUpload = none ∧ (syncSnapshot env m fileSize faults primary vault id).store =
      (syncFiles env m faults primary vault id).store.put (manifestKeyOf id) manifest) := by
  unfold syncSnapshot
  rw [got, list]
  dsimp only
  unfold vaultUpload
  rw [placeIn_clean clean]
  by_cases root : m.vaultPath = []
  · rw [if_pos root]
    exact .inl ⟨root, rfl⟩
  · rw [if_neg root]
    cases fault : faults.manifestUpload with
    | some e => exact .inr (.inl ⟨root, some_ne_none e, rfl⟩)
    | none => exact .inr (.inr ⟨root, rfl, rfl⟩)

theorem syncSnapshot_lost (lost : ¬((fetched faults.manifestDownload primary (manifestKeyOf id)).isOk = true ∧
    faults.primaryList = none)) : (syncSnapshot env m fileSize faults primary vault id).store = vault := by
  unfold syncSnapshot
  cases got : fetched faults.manifestDownload primary (manifestKeyOf id) with
  | error e => rfl
  | ok manifest =>
    cases list : faults.primaryList with
    | some e => rfl
    | none => exact absurd ⟨by rw [got]; rfl, list⟩ lost

theorem SafeSync.clean (safe : SafeSync env m vault id primary faults) :
    ∀ file ∈ primary.list (snapshotDir id), CleanKey file := by
  intro file listed
  obtain ⟨inside, front⟩ := mem_filter.mp listed
  obtain ⟨object, member, rfl⟩ := mem_map.mp inside
  exact (safe.own object member (.inr (List.isPrefixOf_iff_prefix.mp front))).1

theorem SafeSync.own_fetched {fault : Option String} {content : Content}
    (safe : SafeSync env m vault id primary faults) (listed : key = manifestKeyOf id ∨ snapshotDir id <+: key)
    (got : fetched fault primary key = .ok content) : OwnObject ⟨key, content⟩ := by
  obtain ⟨stored, member⟩ := fetched_mem got
  refine ⟨(safe.own _ member listed).1, fun snapshot manifest => ?_⟩
  obtain rfl : content = .manifest snapshot := manifest
  exact (safe.own _ (fetched_manifest got) listed).2 snapshot rfl

theorem front_of_listed (listed : key ∈ primary.list (snapshotDir id)) : snapshotDir id <+: key :=
  isPrefixOf_iff_prefix.mp (mem_filter.mp listed).2

theorem SafeSync.loop_stores (safe : SafeSync env m vault id primary faults) (below : m.vaultPath ≠ [])
    (delivered : Delivered env m vault id primary faults key) :
    key ∈ (syncFiles env m faults primary vault id).store.map Object.key := by
  unfold Delivered at delivered
  split at delivered
  next sent => exact syncLoop_stores safe.clean below sent.1 sent.2.1 sent.2.2 delivered
  next unsent =>
    apply syncLoop_keeps safe.clean ?_ delivered
    intro listed missing got
    exact absurd ⟨listed, missing, got⟩ unsent

theorem SafeSync.loop_keeps (safe : SafeSync env m vault id primary faults) (needed : Needed vault key)
    (held : key ∈ vault.map Object.key) : key ∈ (syncFiles env m faults primary vault id).store.map Object.key := by
  apply syncLoop_keeps safe.clean ?_ held
  intro listed missing got
  by_contra fails
  exact safe.kept key listed ⟨listed, missing, got⟩ fails needed

theorem SafeSync.mem_loop (safe : SafeSync env m vault id primary faults)
    (member : object ∈ (syncFiles env m faults primary vault id).store) :
    object ∈ vault ∨ (m.vaultPath ≠ [] ∧ Sent env m vault id primary faults object.key ∧
      faults.upload object.key = none ∧ fetched (faults.download object.key) primary object.key = .ok object.content) := by
  refine (mem_syncLoop safe.clean member).imp_right ?_
  rintro ⟨below, listed, missing, success, got⟩
  exact ⟨below, ⟨listed, missing, by rw [got]; rfl⟩, success, got⟩

theorem VaultIntact.of_vault {after : Store} (intact : VaultIntact m vault) (old : ∀ object ∈ after, object ∈ vault)
    (kept : ∀ key, Needed vault key → key ∈ after.map Object.key) : VaultIntact m after := by
  refine ⟨fun object member => intact.own object (old object member), ?_, fun root => ?_⟩
  · rintro key ⟨object, member, listed⟩
    exact kept key ⟨object, old object member, listed⟩
  · refine eq_nil_iff_forall_not_mem.mpr fun object member => ?_
    exact intact.not_root (old object member) root

theorem sync_in_root (intact : VaultIntact m vault) (safe : SafeSync env m vault id primary faults)
    (root : m.vaultPath = []) :
    cleanUp env m faults (primary.list (snapshotDir id)) (syncFiles env m faults primary vault id).store = vault := by
  rw [intact.below root]
  refine eq_nil_iff_forall_not_mem.mpr fun object member => ?_
  rw [← intact.below root] at member
  rcases safe.mem_loop (mem_cleanUp safe.clean member).1 with old | ⟨below, -⟩
  · exact intact.not_root old root
  · exact below root

theorem failed_sync_intact (intact : VaultIntact m vault) (safe : SafeSync env m vault id primary faults)
    (below : m.vaultPath ≠ []) (fails : faults.manifestUpload ≠ none) :
    let after := cleanUp env m faults (primary.list (snapshotDir id))
      ((syncFiles env m faults primary vault id).store.delete (manifestKeyOf id))
    VaultIntact m after ∧ ∀ key, Needed vault key → key ∈ after.map Object.key := by
  intro after
  have kept : ∀ key, Needed vault key → key ∈ after.map Object.key := by
    intro key needed
    have other : key ∉ manifestKeyOf id :: primary.list (snapshotDir id) := fun listed =>
      (safe.cleaned fails key listed).1 needed
    rw [mem_cons, not_or] at other
    exact cleanUp_keeps safe.clean other.2
      (keys_delete.mpr ⟨other.1, safe.loop_keeps needed (intact.complete key needed)⟩)
  refine ⟨intact.of_vault (fun object member => ?_) kept, kept⟩
  obtain ⟨inside, deleted⟩ := mem_cleanUp safe.clean member
  rcases safe.mem_loop (mem_delete.mp inside).1 with old | ⟨-, sent, -⟩
  · exact old
  · exact absurd (safe.cleaned fails _ (mem_cons_of_mem _ sent.1)).2 (deleted below sent.1)

theorem stored_sync_intact {manifest : Content} (intact : VaultIntact m vault)
    (safe : SafeSync env m vault id primary faults) (below : m.vaultPath ≠ []) (success : faults.manifestUpload = none)
    (got : fetched faults.manifestDownload primary (manifestKeyOf id) = .ok manifest) :
    let after := (syncFiles env m faults primary vault id).store.put (manifestKeyOf id) manifest
    VaultIntact m after ∧ ∀ key, Needed vault key → key ∈ after.map Object.key := by
  intro after
  have kept : ∀ key, Needed vault key → key ∈ after.map Object.key := fun key needed =>
    keys_put.mpr (.inr (safe.loop_keeps needed (intact.complete key needed)))
  have delivered : ∀ key, key = manifestKeyOf id ∨ Delivered env m vault id primary faults key →
      key ∈ after.map Object.key := fun key either => keys_put.mpr (either.imp_right (safe.loop_stores below))
  have arrived : ∀ {key content fault}, fetched fault primary key = .ok content → key = manifestKeyOf id ∨
      (Sent env m vault id primary faults key ∧ faults.upload key = none) →
        ∀ listed ∈ listedBy ⟨key, content⟩, listed ∈ after.map Object.key := by
    intro key content fault came place listed member
    cases content with
    | plain bytes | gzip bytes => cases member
    | manifest snapshot =>
      exact delivered listed (safe.delivered success _ (fetched_manifest came) place listed member)
  refine ⟨⟨?_, ?_, fun root => absurd root below⟩, kept⟩
  · intro object member
    rcases mem_put.mp member with ⟨inside, -⟩ | rfl
    · rcases safe.mem_loop inside with old | ⟨-, sent, -, came⟩
      · exact intact.own object old
      · exact safe.own_fetched (.inr (front_of_listed sent.1)) came
    · exact safe.own_fetched (.inl rfl) got
  · rintro key ⟨object, member, listed⟩
    rcases mem_put.mp member with ⟨inside, -⟩ | rfl
    · rcases safe.mem_loop inside with old | ⟨-, sent, uploads, came⟩
      · exact kept key ⟨object, old, listed⟩
      · exact arrived came (.inr ⟨sent, uploads⟩) key listed
    · exact arrived got (.inl rfl) key listed

theorem syncSnapshot_intact (intact : VaultIntact m vault) (safe : SafeSyncCall env m vault id primary faults) :
    VaultIntact m (syncSnapshot env m fileSize faults primary vault id).store ∧
      ∀ key, Needed vault key → key ∈ (syncSnapshot env m fileSize faults primary vault id).store.map Object.key := by
  by_cases found : (fetched faults.manifestDownload primary (manifestKeyOf id)).isOk = true ∧ faults.primaryList = none
  · have held := safe found.1 found.2
    cases got : fetched faults.manifestDownload primary (manifestKeyOf id) with
    | error e =>
      rw [got] at found
      exact absurd found.1 Bool.false_ne_true
    | ok manifest =>
      have clean := (held.own_fetched (.inl rfl) got).1
      rcases syncSnapshot_found clean got found.2 with ⟨root, same⟩ | ⟨below, fails, same⟩ | ⟨below, success, same⟩
      · rw [same, sync_in_root intact held root]
        exact ⟨intact, intact.complete⟩
      · rw [same]
        exact failed_sync_intact intact held below fails
      · rw [same]
        exact stored_sync_intact intact held below success got
  · rw [syncSnapshot_lost found]
    exact ⟨intact, intact.complete⟩

end Intact

section Retention
variable {env : LocalEnv} {m : VaultManager} {vault : Provider} {store : Store} {result : PruneResult} {object : Object}

theorem within_append_left (front : Text) {directory p : Text} :
    Within (front ++ directory) (front ++ p) ↔ Within directory p := by
  unfold Within
  rw [append_cancel_left_eq, append_assoc, prefix_append_right_inj]

theorem vaultUnder_clean {front : Text} (clean : CleanKey front) (below : m.vaultPath ≠ []) :
    vaultUnder env m store front = some (store.filter fun object => Within front object.key) := by
  rw [vaultUnder, containedPath_clean clean, if_neg below, absPath_vaultDir]
  refine congrArg some (filter_congr fun object _ => decide_eq_decide.mpr ?_)
  have same : ∀ t : Text, vaultDir m ++ '/' :: t = (vaultDir m ++ ['/']) ++ t := fun t => by simp
  rw [same front, same object.key]
  exact within_append_left _

theorem cleanKey_snapshotDir {id : Text} (name : IsName id) : CleanKey (snapshotDir id) := by
  rw [snapshotDir_name name]
  refine cleanKey_slashed ?_ (cons_ne_nil _ _)
  simp only [forall_mem_cons, not_mem_nil, false_imp_iff, implies_true, and_true]
  exact ⟨isName_snapshots, name⟩

theorem within_own {id other key : Text} (name : IsName id) (second : IsName other)
    (own : snapshotDir id ++ ['/'] <+: key) (within : Within (snapshotDir other) key) : other = id := by
  obtain ⟨rest, rfl⟩ := own
  rw [append_assoc, singleton_append] at within
  rcases within with same | inside
  · rw [snapshotDir_name name, snapshotDir_name second, slashed_cons_cons, slashed_cons_cons, slashed_singleton,
      slashed_singleton, append_assoc] at same
    have tail : id ++ '/' :: rest = other := (List.cons.inj (append_cancel_left same)).2
    exact absurd (tail ▸ mem_append_right id mem_cons_self) second.plain
  · exact snapshotDir_unique name second inside

theorem OwnObject.listed_below {snapshot : Snapshot} {key : Text} (own : OwnObject object)
    (content : object.content = .manifest snapshot) (listed : key ∈ listedBy object) :
    snapshotDir snapshot.id ++ ['/'] <+: key := by
  obtain ⟨name, place, entries⟩ := own.2 snapshot content
  rw [listedBy, content] at listed
  rcases mem_cons.mp listed with rfl | inside
  · rw [place, manifestKeyOf_below name]
    exact ⟨snapshotManifestKey, by simp⟩
  · obtain ⟨entry, member, rfl⟩ := mem_map.mp inside
    exact (entries entry member).2

theorem prune_directory_intact {id : Text} {after : Store} (intact : VaultIntact m store) (name : IsName id)
    (old : ∀ object ∈ after, object ∈ store ∧ ¬Within (snapshotDir id) object.key)
    (kept : ∀ key ∈ store.map Object.key, ¬Within (snapshotDir id) key → key ∈ after.map Object.key) :
    VaultIntact m after := by
  refine ⟨fun object member => intact.own object (old object member).1, ?_, fun root => ?_⟩
  · rintro key ⟨object, member, listed⟩
    obtain ⟨inside, apart⟩ := old object member
    refine kept key (intact.complete key ⟨object, inside, listed⟩) fun within => apart ?_
    have own := intact.own object inside
    cases content : object.content with
    | plain bytes | gzip bytes =>
      rw [listedBy, content] at listed
      cases listed
    | manifest snapshot =>
      have second := (own.2 snapshot content).1
      obtain rfl := within_own second name (own.listed_below content listed) within
      refine .inr (own.listed_below content ?_)
      rw [listedBy, content]
      exact mem_cons_self
  · refine eq_nil_iff_forall_not_mem.mpr fun object member => ?_
    exact intact.not_root (old object member).1 root

theorem foldl_pruneItem_store (items : List Text) :
    (items.foldl (pruneItem env m vault) result).store =
      cleanUp env m ⟨none, none, none, fun _ => none, fun _ => none, none, vault.deleteError⟩ items result.store := by
  induction items generalizing result with
  | nil => rfl
  | cons item items ih =>
    rw [foldl_cons, ih, cleanUp, cleanUp, foldl_cons]
    refine congrArg (fun start => List.foldl _ start items) ?_
    unfold pruneItem
    generalize vaultDelete env m (vault.deleteError item) result.store item = outcome
    obtain ⟨fault, after⟩ := outcome
    cases fault <;> rfl

theorem pruneListed_intact {listed : Listed} (intact : VaultIntact m result.store) (name : IsName listed.snapshot.id)
    (deletes : ∀ key, vault.deleteError key = none) : VaultIntact m (pruneListed env m vault result listed).store := by
  by_cases root : m.vaultPath = []
  · unfold pruneListed vaultList vaultUnder
    dsimp only
    rw [containedPath_clean (cleanKey_snapshotDir name), if_pos root]
    cases fault : vault.listError (snapshotDir listed.snapshot.id) with
    | some e | none => exact intact
  · unfold pruneListed
    dsimp only
    unfold vaultList
    rw [vaultUnder_clean (cleanKey_snapshotDir name) root]
    cases fault : vault.listError (snapshotDir listed.snapshot.id) with
    | some e => exact intact
    | none =>
      dsimp only
      rw [foldl_pruneItem_store]
      have clean : ∀ item ∈ (result.store.filter fun object =>
          Within (snapshotDir listed.snapshot.id) object.key).map Object.key, CleanKey item := by
        intro item member
        obtain ⟨object, inside, rfl⟩ := mem_map.mp member
        exact (intact.own object (mem_filter.mp inside).1).1
      apply prune_directory_intact intact name
      · intro object member
        obtain ⟨old, deleted⟩ := mem_cleanUp clean member
        refine ⟨old, fun within => deleted root ?_ (deletes _)⟩
        exact mem_map_of_mem (mem_filter.mpr ⟨old, decide_eq_true within⟩)
      · intro key held apart
        refine cleanUp_keeps clean (fun member => apart ?_) held
        obtain ⟨object, inside, rfl⟩ := mem_map.mp member
        exact of_decide_eq_true (mem_filter.mp inside).2

theorem pruneAll_intact {toDelete : List Listed} (intact : VaultIntact m result.store)
    (names : ∀ listed ∈ toDelete, IsName listed.snapshot.id) (deletes : ∀ key, vault.deleteError key = none) :
    VaultIntact m (toDelete.foldl (pruneListed env m vault) result).store := by
  induction toDelete generalizing result with
  | nil => exact intact
  | cons listed toDelete ih =>
    rw [forall_mem_cons] at names
    exact ih (pruneListed_intact intact names.1 deletes) names.2

theorem mem_vaultSnapshots {sorter : TimeSort} {listed : Listed}
    (member : listed ∈ (vaultSnapshots env m sorter vault store).snapshots) :
    ⟨listed.key, .manifest listed.snapshot⟩ ∈ store := by
  unfold vaultSnapshots at member
  split at member
  · cases member
  next objects under =>
    have inside := mem_listSnapshots member
    unfold vaultUnder at under
    split at under
    · cases under
      exact (mem_filter.mp inside).1
    · cases under

theorem enforceVaultRetention_intact (sorter : TimeSort) (intact : VaultIntact m store)
    (deletes : ∀ key, vault.deleteError key = none) :
    VaultIntact m (enforceVaultRetention env m sorter vault store).store := by
  unfold enforceVaultRetention
  dsimp only
  split
  · exact intact
  split
  · exact intact
  · apply pruneAll_intact intact ?_ deletes
    intro listed member
    exact ((intact.own _ (mem_vaultSnapshots (mem_of_mem_take member))).2 _ rfl).1

end Retention

section Runs
variable {env : LocalEnv} {m : VaultManager} {fileSize : Content → ℕ} {sorter : TimeSort} {store : Store}

theorem syncAfterBackup_store (faults : SyncFaults) (vault : Provider) (primary : Store) (id : Text) :
    (syncAfterBackup env m fileSize sorter faults vault primary store id).store =
      if (syncSnapshot env m fileSize faults primary store id).error.isSome then
        (syncSnapshot env m fileSize faults primary store id).store
      else (enforceVaultRetention env m sorter vault (syncSnapshot env m fileSize faults primary store id).store).store := by
  unfold syncAfterBackup
  dsimp only
  cases (syncSnapshot env m fileSize faults primary store id).error with
  | some e => simp only [isSome_some, if_true]
  | none => simp only [isSome_none, Bool.false_eq_true, if_false]

theorem vaultStep_intact {event : VaultEvent} (intact : VaultIntact m store)
    (safe : SafeVaultEvent env m store event) : VaultIntact m (vaultStep env m fileSize sorter store event) := by
  cases event with
  | syncSnapshot id primary faults => exact (syncSnapshot_intact intact safe).1
  | syncAfterBackup id primary faults vault =>
    obtain ⟨call, deletes⟩ := safe
    have synced : VaultIntact m (syncSnapshot env m fileSize faults primary store id).store :=
      (syncSnapshot_intact intact call).1
    change VaultIntact m (syncAfterBackup env m fileSize sorter faults vault primary store id).store
    rw [syncAfterBackup_store]
    split
    · exact synced
    · exact enforceVaultRetention_intact sorter synced deletes
  | enforceRetention vault => exact enforceVaultRetention_intact sorter intact safe

theorem failedSyncKeeps_of_safe {event : VaultEvent} (intact : VaultIntact m store)
    (safe : SafeVaultEvent env m store event) : FailedSyncKeeps env m fileSize store event := by
  have keeps : ∀ id primary faults, SafeSyncCall env m store id primary faults →
      ∀ object ∈ store, ∀ key ∈ listedBy object,
        VaultHas env m (syncSnapshot env m fileSize faults primary store id).store key := by
    intro id primary faults call object member key listed
    have clean := (intact.own object member).listed_clean listed
    refine (vaultHas_clean (intact.not_root member) clean).mpr ?_
    exact (syncSnapshot_intact intact call).2 key ⟨object, member, listed⟩
  cases event with
  | syncSnapshot id primary faults => exact fun _ object member _ => keeps id primary faults safe object member
  | syncAfterBackup id primary faults vault =>
    exact fun _ object member _ => keeps id primary faults safe.1 object member
  | enforceRetention vault => exact trivial

theorem emptyVault_intact (m : VaultManager) : VaultIntact m [] := by
  refine ⟨fun _ member => absurd member not_mem_nil, ?_, fun _ => rfl⟩
  rintro key ⟨object, member, -⟩
  exact absurd member not_mem_nil

/-- Between the calls every snapshot with a manifest is whole, and a synchronisation that fails takes nothing away. -/
theorem safe_syncs_complete (env : LocalEnv) (m : VaultManager) (fileSize : Content → ℕ) (sorter : TimeSort)
    (events : List VaultEvent) (safe : StepsMeet (vaultStep env m fileSize sorter) (SafeVaultEvent env m) [] events) :
    Throughout (vaultStep env m fileSize sorter) (VaultComplete env m) [] events ∧
      StepsMeet (vaultStep env m fileSize sorter) (FailedSyncKeeps env m fileSize) [] events := by
  have intact := throughout_of_invariant (fun _ _ => vaultStep_intact) (emptyVault_intact m) safe
  refine ⟨fun pre post split => (intact pre post split).vaultComplete, fun pre event post split => ?_⟩
  exact failedSyncKeeps_of_safe (intact pre (event :: post) split) (safe pre event post split)

end Runs

/-- A vault in `/vault` that keeps one snapshot. -/
def usbVault : VaultManager := newVaultManager ["vault".toList] (by decide) 1

def nightlyEntry (id name : String) : SnapshotFile :=
  ⟨("/data/" ++ name).toList, backupPathOf id.toList ("path_0/" ++ name).toList, 1, 0⟩

def nightly (id : String) (timestamp : ℤ) : Store :=
  let entries := [nightlyEntry id "ledger", nightlyEntry id "letter"]
  ⟨manifestKeyOf id.toList, .manifest ⟨id.toList, timestamp, entries, 2⟩⟩ ::
    entries.map fun entry => ⟨entry.backupPath, .gzip [1]⟩

def oneDownloadFails : SyncFaults where
  download key := if key = (nightlyEntry "monday" "letter").backupPath then some "timeout" else none

def manifestUploadFails : SyncFaults where
  manifestUpload := some "disk full"

def contentSize (_ : Content) : ℕ := 1

def quietWeek : List VaultEvent :=
  [.syncSnapshot "monday".toList (nightly "monday" 1) {}, .syncAfterBackup "tuesday".toList (nightly "tuesday" 2) {} {}]

def fullStick : List VaultEvent :=
  [.syncSnapshot "monday".toList (nightly "monday" 1) {},
    .syncSnapshot "monday".toList (nightly "monday" 1) manifestUploadFails]

theorem quiet_week_complete :
    Throughout (vaultStep rootEnv usbVault contentSize stableSort) (VaultComplete rootEnv usbVault) [] quietWeek ∧
      StepsMeet (vaultStep rootEnv usbVault contentSize stableSort) (FailedSyncKeeps rootEnv usbVault contentSize) []
        quietWeek := by
  refine safe_syncs_complete rootEnv usbVault contentSize stableSort quietWeek ?_
  refine StepsMeet.cons ?_ (StepsMeet.cons ?_ StepsMeet.nil)
  · exact fun _ _ => ⟨by decide +kernel, by decide +kernel, by decide +kernel, by decide +kernel⟩
  · refine ⟨fun _ _ => ⟨by decide +kernel, by decide +kernel, by decide +kernel, by decide +kernel⟩, fun _ => rfl⟩

/-- A manifest without one of its files, and a complete snapshot that a failed synchronisation deletes. -/
theorem vault_incomplete :
    ¬Throughout (vaultStep rootEnv usbVault contentSize stableSort) (VaultComplete rootEnv usbVault) []
        [.syncSnapshot "monday".toList (nightly "monday" 1) oneDownloadFails] ∧
      ¬StepsMeet (vaultStep rootEnv usbVault contentSize stableSort) (FailedSyncKeeps rootEnv usbVault contentSize) []
        fullStick := by
  constructor
  · intro throughout
    have complete := throughout.last
    revert complete
    decide +kernel
  · intro meets
    have keeps := meets [.syncSnapshot "monday".toList (nightly "monday" 1) {}]
      (.syncSnapshot "monday".toList (nightly "monday" 1) manifestUploadFails) [] rfl
    have kept := keeps (by decide +kernel)
    revert kept
    decide +kernel

end RemudaRmm.Backup
