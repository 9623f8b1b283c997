import RemudaRmm.Backup.BackupRuns

/-! Restoring a snapshot (`restore.go`): each file is downloaded to a staging directory and moved to the place that its
source path has below the target. The machine's own file operations succeed; it lies apart from the store. -/
namespace RemudaRmm.Backup
open Foundation List Function Option List

structure RestoreConfig where
  (snapshotID targetPath : Text)
  selectedPaths : List Text

structure RestoreResult where
  status : String
  (filesRestored bytesRestored filesFailed : ℕ)
  failedFiles : List Text
  warnings : List String

/-- The temporary directory, and the key under which a restore is staged. -/
structure RestoreEnv where
  tempDir : List Text
  stagingKey : RestoreConfig → Text
  tempNames : ∀ t ∈ tempDir, IsName t
  keyName : ∀ config, IsName (stagingKey config)

/-- The files of the machine, and the files that a staging directory records as done. -/
structure Machine where
  disk : Text → Option Bytes
  resume : Text → Option (List Text)

def maxDecompressSize : ℕ := 2 * 1024 * 1024 * 1024

def download (provider : Provider) (store : Store) (key : Text) : Option Bytes :=
  match provider.downloadError key, store.get key with
  | none, some (.gzip bytes) => if ".gz".toList.isSuffixOf key then some (bytes.take maxDecompressSize) else none
  | none, some (.plain bytes) => if ".gz".toList.isSuffixOf key then none else some bytes
  | _, _ => none

def downloadManifest (provider : Provider) (store : Store) (id : Text) : Except String Snapshot :=
  let manifestKey := joinPath [snapshotRootDir, id, snapshotManifestKey]
  match provider.downloadError manifestKey, store.get manifestKey with
  | some e, _ => .error ("download manifest: " ++ e)
  | none, some (.manifest snapshot) => .ok snapshot
  | none, some _ => .error "decode manifest"
  | none, none => .error "download manifest"

def filterFiles (files : List SnapshotFile) (selectedPaths : List Text) : List SnapshotFile :=
  if selectedPaths = [] then files else files.filter fun file => selectedPaths.any (·.isPrefixOf file.sourcePath)

section Restore
variable (env : RestoreEnv)

def tempPath : Text := '/' :: slashed env.tempDir

def restoreBase (targetBase : Text) : Text :=
  if targetBase = [] then joinPath [tempPath env, "breeze-restore".toList] else targetBase

def resolveTargetPath (targetBase sourcePath : Text) : Text :=
  if targetBase = [] then joinPath [tempPath env, "breeze-restore".toList, sourcePath]
  else joinPath [targetBase, sourcePath]

def restoreStagingDir (config : RestoreConfig) : Text :=
  joinPath [tempPath env, "breeze-restore-staging".toList, config.snapshotID, env.stagingKey config]

/-- Separators become underscores, and dots at the front are dropped. -/
def sanitizeFileName (backupPath : Text) : Text :=
  let safe := (backupPath.map fun c => if c = '/' ∨ c = '\\' then '_' else c).dropWhile (· = '.')
  if safe = [] then "unnamed".toList else safe

def Contained (config : RestoreConfig) (file : SnapshotFile) : Prop :=
  Within (cleanPath (restoreBase env config.targetPath))
    (cleanPath (resolveTargetPath env config.targetPath file.sourcePath))
  deriving Decidable

/-- The disk, the files recorded as done, and the result so far. -/
structure Restoring where
  disk : Text → Option Bytes
  completed : List Text
  result : RestoreResult

def failFile (r : Restoring) (file : SnapshotFile) : Restoring :=
  { r with
    result :=
      { r.result with
        filesFailed := r.result.filesFailed + 1
        failedFiles := r.result.failedFiles ++ [file.sourcePath] } }

def countFile (r : Restoring) (file : SnapshotFile) : Restoring :=
  { r with
    result :=
      { r.result with
        filesRestored := r.result.filesRestored + 1
        bytesRestored := r.result.bytesRestored + file.size } }

/-- A file that is recorded as done and is there in its size is skipped; any other is downloaded, checked and moved. -/
def restoreFile (provider : Provider) (store : Store) (config : RestoreConfig) (r : Restoring) (file : SnapshotFile) :
    Restoring :=
  let targetPath := resolveTargetPath env config.targetPath file.sourcePath
  if file.backupPath ∈ r.completed ∧ (r.disk targetPath).map length = some file.size then countFile r file
  else
    let completed := r.completed.filter (· ≠ file.backupPath)
    let stagingFile := joinPath [restoreStagingDir env config, sanitizeFileName file.backupPath]
    match download provider store file.backupPath with
    | none => failFile { r with completed } file
    | some bytes =>
      if Contained env config file then
        countFile
          { r with
            disk := update (update r.disk stagingFile none) targetPath (some bytes)
            completed := file.backupPath :: completed } file
      else
        { disk := update r.disk stagingFile none
          completed := completed
          result :=
            { r.result with
              filesFailed := r.result.filesFailed + 1
              warnings := r.result.warnings ++ ["path traversal blocked: " ++ shown file.sourcePath] } }

def finalStatus (result : RestoreResult) : String :=
  if result.filesFailed = 0 ∧ 0 < result.filesRestored then "completed"
  else if result.filesRestored = 0 then "failed"
  else "partial"

def emptyResult : RestoreResult := ⟨"", 0, 0, 0, [], []⟩

/-- The staging directory is removed once everything is restored. -/
def finishRestore (config : RestoreConfig) (machine : Machine) (r : Restoring) : RestoreResult × Machine :=
  let status := finalStatus r.result
  let staging := restoreStagingDir env config
  if status = "completed" then
    ({ r.result with status },
      ⟨fun p => if Within staging p then none else r.disk p, update machine.resume staging none⟩)
  else ({ r.result with status }, ⟨r.disk, update machine.resume staging (some r.completed)⟩)

def restoreFromSnapshotContext (provider : Provider) (config : RestoreConfig) (store : Store) (machine : Machine) :
    Except String (RestoreResult × Machine) :=
  if config.snapshotID = [] then .error "snapshot ID is required"
  else
    match downloadManifest provider store config.snapshotID with
    | .error e => .error ("download manifest: " ++ e)
    | .ok snapshot =>
      let files := filterFiles snapshot.files config.selectedPaths
      if files = [] then
        .ok ({ emptyResult with
          status := "completed"
          warnings := if config.selectedPaths = [] then [] else ["no files matched the selected paths"] }, machine)
      else
        let completed := (machine.resume (restoreStagingDir env config)).getD []
        .ok (finishRestore env config machine
          (files.foldl (restoreFile env provider store config) ⟨machine.disk, completed, emptyResult⟩))

end Restore

section Stored
variable {store : Store} {key other : Text} {content : Content} {read : BackupFile → Bytes} {files : List BackupFile}
  {id : Text}

theorem get_put_self : (store.put key content).get key = some content := by
  have gone : (store.filter fun object => object.key ≠ key).find? (fun object => object.key = key) = none := by
    rw [find?_eq_none]
    intro object member
    simpa using (mem_filter.mp member).2
  rw [Store.get, Store.put, find?_append, gone, find?_singleton, if_pos (decide_eq_true rfl)]
  rfl

theorem get_put_other (different : other ≠ key) : (store.put key content).get other = store.get other := by
  have kept : (store.filter fun object => object.key ≠ key).find? (fun object => object.key = other) =
      store.find? fun object => object.key = other := by
    rw [find?_filter]
    congr
    funext object
    by_cases same : object.key = other
    · simp [same, different]
    · simp [same]
  have unlike : ¬decide (key = other) = true := fun same => different (of_decide_eq_true same).symm
  rw [Store.get, Store.put, find?_append, kept, find?_singleton, if_neg unlike, or_none, Store.get]

theorem get_storeFiles_other (different : ∀ file ∈ files, key ≠ backupPathOf id file.snapshotPath) :
    (storeFiles read files id store).get key = store.get key := by
  induction files generalizing store with
  | nil => rfl
  | cons file files ih =>
    calc (storeFiles read (file :: files) id store).get key
        = (store.put (objectOf read id file).key (objectOf read id file).content).get key :=
          ih fun later member => different later (mem_cons_of_mem file member)
      _ = store.get key := get_put_other (different file mem_cons_self)

theorem get_storeFiles (distinct : (files.map fun file => backupPathOf id file.snapshotPath).Nodup) {file : BackupFile}
    (member : file ∈ files) :
    (storeFiles read files id store).get (backupPathOf id file.snapshotPath) = some (.gzip (read file)) := by
  induction files generalizing store with
  | nil => exact absurd member not_mem_nil
  | cons first files ih =>
    rw [map_cons, nodup_cons] at distinct
    rcases mem_cons.mp member with rfl | later
    · calc (storeFiles read (file :: files) id store).get (backupPathOf id file.snapshotPath)
          = (store.put (objectOf read id file).key (objectOf read id file).content).get
              (backupPathOf id file.snapshotPath) :=
            get_storeFiles_other fun other listed same => distinct.1 (mem_map.mpr ⟨other, listed, same.symm⟩)
        _ = some (.gzip (read file)) := get_put_self
    · exact ih distinct.2 later

theorem manifestKeyOf_eq (name : IsName id) :
    joinPath [snapshotRootDir, id, snapshotManifestKey] = manifestKeyOf id := by
  have names : ∀ t ∈ [snapshotRootDir, id, snapshotManifestKey], IsName t := by
    simp only [forall_mem_cons, not_mem_nil, false_imp_iff, implies_true, and_true]
    exact ⟨isName_snapshots, name, by decide⟩
  rw [joinPath_names names (cons_ne_nil _ _), manifestKeyOf_below name, snapshotDir_name name,
    slashed_cons_cons, slashed_cons_cons, slashed_singleton, slashed_cons_cons, slashed_singleton, append_assoc]
  rfl

theorem backupPathOf_ne (name : IsName id) (snapshotPath : Text) : backupPathOf id snapshotPath ≠ manifestKeyOf id :=
  fun same => not_gz_manifestKeyOf name (same ▸ gz_suffix_backupPathOf id snapshotPath)

end Stored

section Loop
variable {env : RestoreEnv} {provider : Provider} {store : Store} {config : RestoreConfig} {r : Restoring}
  {file : SnapshotFile} {files : List SnapshotFile} {bytes : Bytes}

theorem isName_sanitizeFileName (backupPath : Text) : IsName (sanitizeFileName backupPath) := by
  unfold sanitizeFileName
  generalize flat : backupPath.map (fun c => if c = '/' ∨ c = '\\' then '_' else c) = flattened
  have plain : '/' ∉ flattened := by
    rw [← flat]
    intro member
    obtain ⟨c, -, same⟩ := mem_map.mp member
    split_ifs at same with separator
    · exact absurd same (by decide)
    · exact separator (.inl same)
  dsimp only
  split_ifs with empty
  · decide
  · have undotted : ∀ rest, flattened.dropWhile (· = '.') ≠ '.' :: rest := by
      intro rest dotted
      have first := head_dropWhile_not (fun c => decide (c = '.')) empty
      simp only [dotted, head_cons, decide_true, Bool.true_eq_false] at first
    exact ⟨empty, fun member => plain ((dropWhile_sublist _).subset member), undotted _, undotted _⟩

theorem restoreStagingDir_eq (named : IsName config.snapshotID) :
    ∃ names, (∀ t ∈ names, IsName t) ∧ names ≠ [] ∧ restoreStagingDir env config = '/' :: slashed names := by
  have names : ∀ t ∈ env.tempDir ++ ["breeze-restore-staging".toList, config.snapshotID, env.stagingKey config],
      IsName t := by
    intro t member
    rcases mem_append.mp member with temporary | own
    · exact env.tempNames t temporary
    · simp only [mem_cons, not_mem_nil, or_false] at own
      rcases own with rfl | rfl | rfl
      · decide
      · exact named
      · exact env.keyName config
  exact ⟨_, names, append_ne_nil_of_right_ne_nil _ (cons_ne_nil _ _), joinPath_rooted names (cons_ne_nil _ _)⟩

theorem within_restoreStagingDir (named : IsName config.snapshotID) (backupPath : Text) :
    Within (restoreStagingDir env config) (joinPath [restoreStagingDir env config, sanitizeFileName backupPath]) := by
  obtain ⟨names, proper, some_name, staging⟩ := @restoreStagingDir_eq env config named
  have all : ∀ t ∈ names ++ [sanitizeFileName backupPath], IsName t := by
    intro t member
    rcases mem_append.mp member with front | last
    · exact proper t front
    · rw [mem_singleton.mp last]
      exact isName_sanitizeFileName backupPath
  rw [staging, joinPath_rooted all (cons_ne_nil _ _), slashed_append some_name (cons_ne_nil _ _)]
  refine .inr ⟨slashed [sanitizeFileName backupPath], ?_⟩
  simp only [cons_append, append_assoc, nil_append]

theorem restoreFile_fresh (fresh : file.backupPath ∉ r.completed) (contained : Contained env config file)
    (downloaded : download provider store file.backupPath = some bytes) :
    restoreFile env provider store config r file = countFile
        { r with
          disk := update
            (update r.disk (joinPath [restoreStagingDir env config, sanitizeFileName file.backupPath]) none)
            (resolveTargetPath env config.targetPath file.sourcePath) (some bytes)
          completed := file.backupPath :: r.completed } file := by
  have kept : r.completed.filter (· ≠ file.backupPath) = r.completed := by
    rw [filter_eq_self]
    exact fun key member => decide_eq_true fun same => fresh (same ▸ member)
  simp only [restoreFile, fresh, false_and, if_false, downloaded, contained, if_true, kept]

theorem restoreFiles_fresh (named : IsName config.snapshotID)
    (fresh : ∀ file ∈ files, file.backupPath ∉ r.completed) (keys : (files.map SnapshotFile.backupPath).Nodup)
    (targets : (files.map fun file => resolveTargetPath env config.targetPath file.sourcePath).Nodup)
    (contained : ∀ file ∈ files, Contained env config file) (apart : ∀ file ∈ files,
      ¬Within (restoreStagingDir env config) (resolveTargetPath env config.targetPath file.sourcePath))
    (downloads : ∀ file ∈ files, download provider store file.backupPath ≠ none) :
    let after := files.foldl (restoreFile env provider store config) r
    after.result.filesFailed = r.result.filesFailed ∧
      after.result.filesRestored = r.result.filesRestored + files.length ∧
      (∀ file ∈ files, after.disk (resolveTargetPath env config.targetPath file.sourcePath) =
        download provider store file.backupPath) ∧
      ∀ p, ¬Within (restoreStagingDir env config) p →
        (∀ file ∈ files, p ≠ resolveTargetPath env config.targetPath file.sourcePath) → after.disk p = r.disk p := by
  induction files generalizing r with
  | nil => exact ⟨rfl, rfl, fun file member => absurd member not_mem_nil, fun p _ _ => rfl⟩
  | cons file files ih =>
    rw [map_cons, nodup_cons] at keys targets
    rw [forall_mem_cons] at fresh contained apart downloads
    obtain ⟨bytes, downloaded⟩ := ne_none_iff_exists'.mp downloads.1
    have step := restoreFile_fresh fresh.1 contained.1 downloaded
    have away : ∀ p, ¬Within (restoreStagingDir env config) p →
        p ≠ resolveTargetPath env config.targetPath file.sourcePath →
        (restoreFile env provider store config r file).disk p = r.disk p := by
      intro p outside different
      rw [step]
      refine (update_of_ne different _ _).trans (update_of_ne (fun same => outside ?_) _ _)
      rw [same]
      exact within_restoreStagingDir named file.backupPath
    have done : (restoreFile env provider store config r file).completed = file.backupPath :: r.completed := by
      rw [step]
      rfl
    have unrecorded : ∀ later ∈ files, later.backupPath ∉ (restoreFile env provider store config r file).completed := by
      intro later member recorded
      rw [done] at recorded
      rcases mem_cons.mp recorded with same | before
      · exact keys.1 (mem_map.mpr ⟨later, member, same⟩)
      · exact fresh.2 later member before
    obtain ⟨failed, restored, written, untouched⟩ :=
      ih unrecorded keys.2 targets.2 contained.2 apart.2 downloads.2
    have own : ∀ later ∈ files, resolveTargetPath env config.targetPath file.sourcePath ≠
        resolveTargetPath env config.targetPath later.sourcePath :=
      fun later member same => targets.1 (mem_map.mpr ⟨later, member, same.symm⟩)
    rw [foldl_cons]
    refine ⟨failed.trans (by rw [step]; rfl), ?_, ?_, ?_⟩
    · rw [restored, step, length_cons]
      exact Nat.add_right_comm _ _ _
    · rw [forall_mem_cons]
      refine ⟨(untouched _ apart.1 own).trans ?_, written⟩
      rw [step, downloaded]
      exact update_self _ _ _
    · intro p outside different
      rw [forall_mem_cons] at different
      rw [untouched p outside different.2, away p outside different.1]

/-- Everything on the disk was downloaded for a file with that target. -/
def Provided (env : RestoreEnv) (provider : Provider) (store : Store) (config : RestoreConfig)
    (files : List SnapshotFile) (disk : Text → Option Bytes) : Prop :=
  ∀ p bytes, disk p = some bytes → ∃ file ∈ files, resolveTargetPath env config.targetPath file.sourcePath = p ∧
    Contained env config file ∧ download provider store file.backupPath = some bytes

theorem restoreFile_provided (member : file ∈ files) (provided : Provided env provider store config files r.disk) :
    Provided env provider store config files (restoreFile env provider store config r file).disk := by
  have cleared : ∀ p, Provided env provider store config files (update r.disk p none) := by
    intro p q bytes found
    by_cases same : q = p
    · rw [same, update_self] at found
      cases found
    · rw [update_of_ne same] at found
      exact provided q bytes found
  unfold restoreFile
  dsimp only
  split
  · exact provided
  · cases downloaded : download provider store file.backupPath with
    | none => exact provided
    | some bytes =>
      by_cases contained : Contained env config file
      · simp only [if_pos contained, countFile]
        intro q written found
        by_cases same : q = resolveTargetPath env config.targetPath file.sourcePath
        · rw [same, update_self] at found
          exact ⟨file, member, same.symm, contained, downloaded.trans found⟩
        · rw [update_of_ne same] at found
          exact cleared _ q written found
      · simp only [if_neg contained]
        exact cleared _

theorem restoreFiles_provided {some_files : List SnapshotFile} (inside : ∀ file ∈ some_files, file ∈ files)
    (provided : Provided env provider store config files r.disk) : Provided env provider store config files
      (some_files.foldl (restoreFile env provider store config) r).disk := by
  induction some_files generalizing r with
  | nil => exact provided
  | cons file some_files ih =>
    rw [forall_mem_cons] at inside
    exact ih inside.2 (restoreFile_provided inside.1 provided)

theorem length_download {key : Text} (downloaded : download provider store key = some bytes)
    (compressed : ".gz".toList <:+ key) : bytes.length ≤ maxDecompressSize := by
  have ends := isSuffixOf_iff_suffix.mpr compressed
  unfold download at downloaded
  split at downloaded
  · rw [if_pos ends] at downloaded
    rw [← some.inj downloaded]
    exact length_take_le _ _
  · rw [if_pos ends] at downloaded
    cases downloaded
  · cases downloaded

theorem download_gzip {key : Text} (succeeds : provider.downloadError key = none)
    (stored : store.get key = some (.gzip bytes)) (compressed : ".gz".toList <:+ key)
    (small : bytes.length ≤ maxDecompressSize) : download provider store key = some bytes := by
  simp only [download, succeeds, stored, isSuffixOf_iff_suffix.mpr compressed, if_true, take_of_length_le small]

end Loop

/-- A snapshot of the files is made and restored: all of them end at their targets as they were read. -/
def RestoresAll (env : RestoreEnv) (provider : Provider) (read : BackupFile → Bytes) (files : List BackupFile)
    (id : Text) (now : ℤ) (store : Store) (targetPath : Text) (machine : Machine) : Prop :=
  let created := createSnapshotContext provider read files id now store
  ∃ snapshot, created.snapshot = some snapshot ∧
    ∃ result after,
      restoreFromSnapshotContext env provider ⟨snapshot.id, targetPath, []⟩ created.store machine =
        .ok (result, after) ∧
      result.status = "completed" ∧ result.filesRestored = files.length ∧
      ∀ file ∈ files, after.disk (resolveTargetPath env targetPath file.sourcePath) = some (read file)

section RoundTrip
variable {env : RestoreEnv} {provider : Provider} {read : BackupFile → Bytes} {files : List BackupFile} {id : Text}
  {now : ℤ} {store : Store} {targetPath : Text} {machine : Machine}

/-- The store with the files and the manifest of a new snapshot. -/
def storeSnapshot (read : BackupFile → Bytes) (files : List BackupFile) (id : Text) (now : ℤ) (store : Store) : Store :=
  (storeFiles read files id store).put (manifestKeyOf id) (.manifest (snapshotOf files id now))

def restoring (env : RestoreEnv) (provider : Provider) (read : BackupFile → Bytes) (files : List BackupFile)
    (id : Text) (now : ℤ) (store : Store) (targetPath : Text) (disk : Text → Option Bytes) : Restoring :=
  (files.map (entryOf id)).foldl
    (restoreFile env provider (storeSnapshot read files id now store) ⟨id, targetPath, []⟩) ⟨disk, [], emptyResult⟩

theorem restore_created (uploads : ∀ key, provider.uploadError key = none)
    (downloads : ∀ key, provider.downloadError key = none) (some_file : files ≠ []) (name : IsName id)
    (unstarted : machine.resume (restoreStagingDir env ⟨id, targetPath, []⟩) = none) :
    RestoresAll env provider read files id now store targetPath machine ↔
      let done := finishRestore env ⟨id, targetPath, []⟩ machine
        (restoring env provider read files id now store targetPath machine.disk)
      done.1.status = "completed" ∧ done.1.filesRestored = files.length ∧
        ∀ file ∈ files, done.2.disk (resolveTargetPath env targetPath file.sourcePath) = some (read file) := by
  have manifest : downloadManifest provider (storeSnapshot read files id now store) id =
      .ok (snapshotOf files id now) := by
    simp only [downloadManifest, manifestKeyOf_eq name, downloads, storeSnapshot, get_put_self]
  have listed : (snapshotOf files id now).files ≠ [] := by simpa [snapshotOf] using some_file
  have restored : restoreFromSnapshotContext env provider ⟨id, targetPath, []⟩
      (storeSnapshot read files id now store) machine =
        .ok (finishRestore env ⟨id, targetPath, []⟩ machine
          (restoring env provider read files id now store targetPath machine.disk)) := by
    simp only [restoreFromSnapshotContext, name.filled, if_false, manifest, filterFiles, if_true, listed, unstarted,
      getD_none]
    rfl
  unfold RestoresAll
  rw [createSnapshotContext_eq uploads some_file]
  constructor
  · rintro ⟨snapshot, same, result, after, finished, completed, count, contents⟩
    cases same
    have pair := Except.ok.inj (restored.symm.trans finished)
    rw [pair]
    exact ⟨completed, count, contents⟩
  · rintro ⟨completed, count, contents⟩
    exact ⟨_, rfl, _, _, restored, completed, count, contents⟩

theorem finalStatus_completed (result : RestoreResult) :
    finalStatus result = "completed" ↔ result.filesFailed = 0 ∧ 0 < result.filesRestored := by
  unfold finalStatus
  split_ifs with all none
  · exact iff_of_true rfl all
  · exact iff_of_false (by decide) all
  · exact iff_of_false (by decide) all

theorem finishRestore_result (config : RestoreConfig) (r : Restoring) :
    (finishRestore env config machine r).1 = { r.result with status := finalStatus r.result } := by
  unfold finishRestore
  dsimp only
  split_ifs <;> rfl

theorem finishRestore_disk {config : RestoreConfig} {r : Restoring} (completed : finalStatus r.result = "completed") :
    (finishRestore env config machine r).2.disk =
      fun p => if Within (restoreStagingDir env config) p then none else r.disk p := by
  unfold finishRestore
  dsimp only
  rw [if_pos completed]

/-- The files are apart: no two share an object key or a target, and every target is in its directory and outside the
staging directory. -/
structure Separate (env : RestoreEnv) (files : List BackupFile) (id targetPath : Text) : Prop where
  keys : (files.map fun file => backupPathOf id file.snapshotPath).Nodup
  targets : (files.map fun file => resolveTargetPath env targetPath file.sourcePath).Nodup
  contained : ∀ file ∈ files, Contained env ⟨id, targetPath, []⟩ (entryOf id file)
  outside : ∀ file ∈ files, ¬Within (restoreStagingDir env ⟨id, targetPath, []⟩)
    (resolveTargetPath env targetPath file.sourcePath)

theorem restoresAll_of_separate (uploads : ∀ key, provider.uploadError key = none)
    (downloads : ∀ key, provider.downloadError key = none) (some_file : files ≠ []) (name : IsName id)
    (unstarted : machine.resume (restoreStagingDir env ⟨id, targetPath, []⟩) = none)
    (separate : Separate env files id targetPath) (small : ∀ file ∈ files, (read file).length ≤ maxDecompressSize) :
    RestoresAll env provider read files id now store targetPath machine := by
  have download_of : ∀ file ∈ files, download provider (storeSnapshot read files id now store)
      (backupPathOf id file.snapshotPath) = some (read file) := by
    intro file member
    refine download_gzip (downloads _) ?_ (gz_suffix_backupPathOf id _) (small file member)
    exact (get_put_other (backupPathOf_ne name _)).trans (get_storeFiles separate.keys member)
  have entries : ∀ P : SnapshotFile → Prop, (∀ file ∈ files, P (entryOf id file)) →
      ∀ entry ∈ files.map (entryOf id), P entry := fun P all entry listed => by
    obtain ⟨file, member, rfl⟩ := mem_map.mp listed
    exact all file member
  have keys : ((files.map (entryOf id)).map SnapshotFile.backupPath).Nodup := by
    rw [List.map_map]
    exact separate.keys
  have targets : ((files.map (entryOf id)).map fun entry =>
      resolveTargetPath env targetPath entry.sourcePath).Nodup := by
    rw [List.map_map]
    exact separate.targets
  have some_bytes : ∀ entry ∈ files.map (entryOf id),
      download provider (storeSnapshot read files id now store) entry.backupPath ≠ none :=
    entries _ fun file member missing => some_ne_none _ ((download_of file member).symm.trans missing)
  have fresh : ∀ entry ∈ files.map (entryOf id),
      entry.backupPath ∉ (⟨machine.disk, [], emptyResult⟩ : Restoring).completed := fun _ _ => not_mem_nil
  have named : IsName (⟨id, targetPath, []⟩ : RestoreConfig).snapshotID := name
  obtain ⟨failed, restored, written, -⟩ := restoreFiles_fresh named fresh keys targets
    (entries _ separate.contained) (entries _ separate.outside) some_bytes
  have count : (restoring env provider read files id now store targetPath machine.disk).result.filesRestored =
      files.length := by
    refine restored.trans ?_
    rw [length_map]
    exact Nat.zero_add _
  have completed : finalStatus (restoring env provider read files id now store targetPath machine.disk).result =
      "completed" := by
    rw [finalStatus_completed, count]
    exact ⟨failed, length_pos_of_ne_nil some_file⟩
  rw [restore_created uploads downloads some_file name unstarted]
  dsimp only
  rw [finishRestore_result, finishRestore_disk completed]
  refine ⟨completed, count, fun file member => ?_⟩
  refine (if_neg (separate.outside file member)).trans ?_
  exact (written (entryOf id file) (mem_map_of_mem member)).trans (download_of file member)

theorem RestoresAll.provided (uploads : ∀ key, provider.uploadError key = none)
    (downloads : ∀ key, provider.downloadError key = none) (some_file : files ≠ []) (name : IsName id)
    (restores : RestoresAll env provider read files id now store targetPath ⟨fun _ => none, fun _ => none⟩) :
    ∀ file ∈ files,
      ¬Within (restoreStagingDir env ⟨id, targetPath, []⟩) (resolveTargetPath env targetPath file.sourcePath) ∧
      ∃ other ∈ files,
        resolveTargetPath env targetPath other.sourcePath = resolveTargetPath env targetPath file.sourcePath ∧
        Contained env ⟨id, targetPath, []⟩ (entryOf id other) ∧
        download provider (storeSnapshot read files id now store) (backupPathOf id other.snapshotPath) =
          some (read file) := by
  rw [restore_created uploads downloads some_file name rfl] at restores
  dsimp only at restores
  obtain ⟨completed, -, contents⟩ := restores
  rw [finishRestore_result] at completed
  rw [finishRestore_disk completed] at contents
  have provided : Provided env provider (storeSnapshot read files id now store) ⟨id, targetPath, []⟩
      (files.map (entryOf id)) (restoring env provider read files id now store targetPath fun _ => none).disk :=
    restoreFiles_provided (fun _ member => member) fun _ _ found => absurd found (some_ne_none _).symm
  intro file member
  have found := contents file member
  dsimp only at found
  split_ifs at found with inside
  refine ⟨inside, ?_⟩
  obtain ⟨entry, listed, target, contained, downloaded⟩ := provided _ _ found
  obtain ⟨other, known, rfl⟩ := mem_map.mp listed
  exact ⟨other, known, target, contained, downloaded⟩

end RoundTrip

def marking (marked file : BackupFile) : Bytes := if file = marked then [1] else [0]

theorem length_marking (marked file : BackupFile) : (marking marked file).length = 1 := by
  unfold marking
  split_ifs <;> rfl

theorem eq_of_marking {marked file : BackupFile} (same : marking marked file = marking marked marked) :
    file = marked := by
  by_contra different
  rw [marking, if_neg different, marking, if_pos rfl] at same
  exact absurd same (by decide)

/-- A snapshot under a new identifier, with operations that succeed and contents up to a limit: it is restored as it was
read, whatever the contents and whatever the machine holds, exactly when there is a file, the limit is not beyond what a
download decompresses, and the files are apart. -/
theorem restore_returns_files_iff (env : RestoreEnv) (provider : Provider)
    (uploads : ∀ key, provider.uploadError key = none) (downloads : ∀ key, provider.downloadError key = none)
    (files : List BackupFile) (distinct : (files.map BackupFile.snapshotPath).Nodup) (drawn : Text)
    (plain : '/' ∉ drawn) (now : ℤ) (store : Store) (targetPath : Text) (limit : ℕ) (positive : 0 < limit) :
    (∀ read : BackupFile → Bytes, (∀ file ∈ files, (read file).length ≤ limit) →
      ∀ machine : Machine, machine.resume (restoreStagingDir env ⟨newSnapshotID drawn, targetPath, []⟩) = none →
        RestoresAll env provider read files (newSnapshotID drawn) now store targetPath machine) ↔
    files ≠ [] ∧ limit ≤ maxDecompressSize ∧ Separate env files (newSnapshotID drawn) targetPath := by
  have name := isName_newSnapshotID plain
  constructor
  · intro restores
    have some_file : files ≠ [] := by
      rintro rfl
      obtain ⟨snapshot, missing, -⟩ := restores (fun _ => []) (by simp) ⟨fun _ => none, fun _ => none⟩ rfl
      exact some_ne_none _ missing.symm
    have provided : ∀ read : BackupFile → Bytes, (∀ file ∈ files, (read file).length ≤ limit) → _ :=
      fun read small =>
        (restores read small ⟨fun _ => none, fun _ => none⟩ rfl).provided uploads downloads some_file name
    have small : ∀ marked, ∀ file ∈ files, (marking marked file).length ≤ limit :=
      fun marked file _ => (length_marking marked file).trans_le positive
    have targets : ∀ a ∈ files, ∀ b ∈ files, resolveTargetPath env targetPath a.sourcePath =
        resolveTargetPath env targetPath b.sourcePath → a = b := by
      intro a first b second same
      obtain ⟨-, -, -, after, -, -, -, contents⟩ :=
        restores (marking b) (small b) ⟨fun _ => none, fun _ => none⟩ rfl
      have written := contents a first
      rw [same, contents b second] at written
      exact eq_of_marking (some.inj written).symm
    have own : ∀ read : BackupFile → Bytes, (∀ file ∈ files, (read file).length ≤ limit) → ∀ file ∈ files,
        Contained env ⟨newSnapshotID drawn, targetPath, []⟩ (entryOf (newSnapshotID drawn) file) ∧
        download provider (storeSnapshot read files (newSnapshotID drawn) now store)
          (backupPathOf (newSnapshotID drawn) file.snapshotPath) = some (read file) := by
      intro read within_limit file member
      obtain ⟨-, other, known, target, contained, downloaded⟩ := provided read within_limit file member
      cases targets other known file member target
      exact ⟨contained, downloaded⟩
    have keys : ∀ a ∈ files, ∀ b ∈ files, backupPathOf (newSnapshotID drawn) a.snapshotPath =
        backupPathOf (newSnapshotID drawn) b.snapshotPath → a = b := by
      intro a first b second same
      have one := (own (marking b) (small b) a first).2
      rw [same, (own (marking b) (small b) b second).2] at one
      exact eq_of_marking (some.inj one).symm
    refine ⟨some_file, ?_, ?_⟩
    · obtain ⟨file, member⟩ := exists_mem_of_ne_nil files some_file
      have full : ∀ file ∈ files, (replicate limit (0 : UInt8)).length ≤ limit :=
        fun _ _ => (length_replicate).le
      have bound := length_download (own (fun _ => replicate limit 0) full file member).2
        (gz_suffix_backupPathOf _ _)
      rwa [length_replicate] at bound
    · have once : files.Nodup := distinct.of_map _
      exact
        { keys := once.map_on keys
          targets := once.map_on targets
          contained := fun file member => (own (marking file) (small file) file member).1
          outside := fun file member => (provided (marking file) (small file) file member).1 }
  · rintro ⟨some_file, bound, separate⟩ read small machine unstarted
    exact restoresAll_of_separate uploads downloads some_file name unstarted separate fun file member =>
      (small file member).trans bound

def sampleEnv : RestoreEnv where
  tempDir := ["tmp".toList]
  stagingKey := fun _ => "5c1f".toList
  tempNames := by decide
  keyName := fun _ => by decide

def collectedFile (path : String) : BackupFile := ⟨("/data/" ++ path).toList, ("path_0/" ++ path).toList, 1, 0⟩

def restoreTarget : Text := "/restored".toList

def archivedTwice : List BackupFile := [collectedFile "log", collectedFile "log.gz"]

def logContent (file : BackupFile) : Bytes := if file = collectedFile "log" then [1] else [2]

theorem plain_files_restored :
    ([collectedFile "log", collectedFile "notes"].map BackupFile.snapshotPath).Nodup ∧
    ∀ read : BackupFile → Bytes, (∀ file ∈ [collectedFile "log", collectedFile "notes"], (read file).length ≤ 4096) →
      ∀ machine : Machine,
        machine.resume (restoreStagingDir sampleEnv ⟨newSnapshotID "7".toList, restoreTarget, []⟩) = none →
          RestoresAll sampleEnv {} read [collectedFile "log", collectedFile "notes"] (newSnapshotID "7".toList) 0 []
            restoreTarget machine :=
  ⟨by decide,
    (restore_returns_files_iff sampleEnv {} (fun _ => rfl) (fun _ => rfl) [collectedFile "log", collectedFile "notes"]
      (by decide) "7".toList (by decide) 0 [] restoreTarget 4096 (by decide)).mpr
        ⟨by decide, by decide,
          { keys := by decide +kernel
            targets := by decide +kernel
            contained := by decide +kernel
            outside := by decide +kernel }⟩⟩

/-- The second upload replaces the object of the first, and the first file is restored with the other contents. -/
theorem archived_twice_lost :
    (archivedTwice.map BackupFile.snapshotPath).Nodup ∧
      ¬RestoresAll sampleEnv {} logContent archivedTwice (newSnapshotID "7".toList) 0 [] restoreTarget
        ⟨fun _ => none, fun _ => none⟩ := by
  refine ⟨by decide, fun restores => ?_⟩
  have provided := restores.provided (fun _ => rfl) (fun _ => rfl) (cons_ne_nil _ _)
    (isName_newSnapshotID (by decide)) (collectedFile "log") mem_cons_self
  revert provided
  decide +kernel

end RemudaRmm.Backup
