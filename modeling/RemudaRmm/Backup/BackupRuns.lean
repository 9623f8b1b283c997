import RemudaRmm.Backup.Snapshots
import RemudaRmm.Foundation.Runs

/-! A backup manager over many runs (`backup.go`): a run stores the files that have changed since the last snapshot, and
prunes the oldest snapshots as if each were complete. The source tree is a list of files by path; an edit gives a file a
new modification time. -/
namespace RemudaRmm.Backup
open Foundation List Object List

/-- A file of the source tree; its path is the list of the names on it. -/
structure SourceFile where
  path : List Text
  content : Bytes
  modTime : ℤ
  deriving DecidableEq

def sourcePathOf (path : List Text) : Text := '/' :: slashed path

def shouldIncludeFile (modTime cutoff : ℤ) : Bool := cutoff = 0 || cutoff < modTime

def rootLabel (idx : ℕ) : Text := "path_".toList ++ decimal idx

def relativePath (root path : List Text) : List Text :=
  if path = root then root.drop (root.length - 1) else path.drop root.length

def snapshotPathOf (idx : ℕ) (root path : List Text) : Text := slashed (rootLabel idx :: relativePath root path)

def collectFile (cutoff : ℤ) (root : List Text × ℕ) (file : SourceFile) : Option BackupFile :=
  if root.1 <+: file.path ∧ shouldIncludeFile file.modTime cutoff then
    some ⟨sourcePathOf file.path, snapshotPathOf root.2 root.1 file.path, file.content.length, file.modTime⟩
  else none

def skipSeen : List Text → List BackupFile → List BackupFile
  | _, [] => []
  | seen, file :: rest =>
    if file.snapshotPath ∈ seen then skipSeen seen rest else file :: skipSeen (file.snapshotPath :: seen) rest

def collectBackupFilesFromPaths (roots : List (List Text)) (tree : List SourceFile) (cutoff : ℤ) : List BackupFile :=
  (skipSeen [] (roots.zipIdx.flatMap fun root => tree.filterMap (collectFile cutoff root))).insertionSort
    fun a b => textLe a.snapshotPath b.snapshotPath = true

def readTree (tree : List SourceFile) (file : BackupFile) : Bytes :=
  ((tree.find? fun f => sourcePathOf f.path = file.sourcePath).map SourceFile.content).getD []

inductive JobStatus where
  | completed
  | failed
  | skipped
  deriving DecidableEq

structure BackupConfig where
  paths : List (List Text)
  retention : ℤ

/-- The manager with its source and its store. The last run has found the tree as `scanned`. -/
structure ManagerState where
  tree : List SourceFile
  store : Store
  (lastSnapshotTime clock edited : ℤ)
  status : Option JobStatus
  scanned : List SourceFile

section Manager
variable (sorter : TimeSort) (config : BackupConfig)

def enforceRetention (provider : Provider) (store : Store) : Store :=
  if 0 < config.retention then (deleteSnapshotContext sorter provider config.retention store).store else store

def runBackup (provider : Provider) (id : Text) (now : ℤ) (s : ManagerState) : ManagerState :=
  if config.paths = [] then s
  else
    let files := collectBackupFilesFromPaths config.paths s.tree s.lastSnapshotTime
    if files = [] then { s with status := some .skipped, scanned := s.tree }
    else
      let created := createSnapshotContext provider (readTree s.tree) files id now s.store
      match created.snapshot with
      | none => { s with store := created.store, status := some .failed, scanned := s.tree }
      | some snapshot =>
        { s with
          store := enforceRetention sorter config provider created.store
          lastSnapshotTime := max s.lastSnapshotTime snapshot.timestamp
          status := some (if created.errors = [] then .completed else .failed)
          scanned := s.tree }

/-- Paths are made of proper names, and no file lies below another. -/
def ValidTree (tree : List SourceFile) : Prop :=
  (∀ f ∈ tree, f.path ≠ [] ∧ ∀ t ∈ f.path, IsName t) ∧ ∀ f ∈ tree, ∀ g ∈ tree, f.path <+: g.path → f = g
  deriving Decidable

/-- An edit leaves a new tree behind, and a run draws an identifier and meets the errors of its provider. -/
inductive BackupEvent where
  | edit (tree : List SourceFile) (time : ℤ)
  | backup (provider : Provider) (drawn : Text) (now : ℤ)

def newSnapshotID (drawn : Text) : Text := "snapshot-".toList ++ drawn

/-- Modification times increase, the clock does not go back, and every upload succeeds. -/
def backupStep (s : ManagerState) : BackupEvent → Option ManagerState
  | .edit tree time =>
    if s.edited < time ∧ s.clock ≤ time ∧ ValidTree tree ∧ ∀ f ∈ tree, f ∈ s.tree ∨ f.modTime = time then
      some { s with tree := tree, edited := time, clock := time }
    else none
  | .backup provider drawn now =>
    if '/' ∉ drawn ∧ s.clock ≤ now then
      some { runBackup sorter config { provider with uploadError := fun _ => none } (newSnapshotID drawn) now s with
        clock := now }
    else none

def newManager : ManagerState := ⟨[], [], 0, 0, 0, none, []⟩

end Manager

def Covered (roots : List (List Text)) (file : SourceFile) : Prop := ∃ root ∈ roots, root <+: file.path
  deriving Decidable

def HasCopy (store : Store) (file : SourceFile) : Prop :=
  ∃ snapshot entry, ⟨manifestKeyOf snapshot.id, .manifest snapshot⟩ ∈ store ∧ entry ∈ snapshot.files ∧
    entry.sourcePath = sourcePathOf file.path ∧ ⟨entry.backupPath, .gzip file.content⟩ ∈ store

/-- The last run has not failed, and every file it has found has a copy. -/
def CopiesKept (roots : List (List Text)) (s : ManagerState) : Prop :=
  ∀ status, s.status = some status → status ≠ .failed → ∀ file ∈ s.scanned, Covered roots file → HasCopy s.store file

def Lists (snapshot : Snapshot) (file : SourceFile) : Prop :=
  ∃ entry ∈ snapshot.files, entry.sourcePath = sourcePathOf file.path ∧ entry.modTime = file.modTime
  deriving Decidable

def manifestOf (object : Object) : Option Snapshot :=
  match object.content with
  | .manifest snapshot => some snapshot
  | _ => none

def manifestsIn (store : Store) : List Snapshot := store.filterMap manifestOf

def asRecent (store : Store) (snapshot : Snapshot) : List Snapshot :=
  (manifestsIn store).filter fun other => snapshot.timestamp ≤ other.timestamp ∧ other.id ≠ snapshot.id

def filesOf (config : BackupConfig) (s : ManagerState) : List BackupFile :=
  collectBackupFilesFromPaths config.paths s.tree s.lastSnapshotTime

/-- What a run may store and prune: under an identifier of its own and with a key for each file; with fewer than
`retention` snapshots as recent as the new one; and with every snapshot beyond `retention` listing only files that
have changed since or are gone. -/
structure SafeRun (config : BackupConfig) (s : ManagerState) (id : Text) (now : ℤ) : Prop where
  fresh : ∀ object ∈ s.store, ¬Within (snapshotDir id) object.key
  distinct : ((filesOf config s).map fun file => backupPathOf id file.snapshotPath).Nodup
  latest : (((manifestsIn s.store).filter fun other => now ≤ other.timestamp).length : ℤ) < config.retention
  superseded : ∀ snapshot ∈ manifestsIn s.store, config.retention ≤ (asRecent s.store snapshot).length + 1 →
    ∀ file ∈ s.tree, Covered config.paths file → ¬Lists snapshot file

theorem safeRun_iff {config : BackupConfig} {s : ManagerState} {id : Text} {now : ℤ} :
    SafeRun config s id now ↔
      (∀ object ∈ s.store, ¬Within (snapshotDir id) object.key) ∧
      ((filesOf config s).map fun file => backupPathOf id file.snapshotPath).Nodup ∧
      (((manifestsIn s.store).filter fun other => now ≤ other.timestamp).length : ℤ) < config.retention ∧
      ∀ snapshot ∈ manifestsIn s.store, config.retention ≤ (asRecent s.store snapshot).length + 1 →
        ∀ file ∈ s.tree, Covered config.paths file → ¬Lists snapshot file :=
  ⟨fun safe => ⟨safe.fresh, safe.distinct, safe.latest, safe.superseded⟩, fun ⟨a, b, c, d⟩ => ⟨a, b, c, d⟩⟩

instance decidableSafeRun (config : BackupConfig) (s : ManagerState) (id : Text) (now : ℤ) :
    Decidable (SafeRun config s id now) := decidable_of_iff _ safeRun_iff.symm

/-- An edit is later than the last snapshot, and a run that stores something is safe. -/
def SafeEvent (config : BackupConfig) (s : ManagerState) : BackupEvent → Prop
  | .edit _ time => s.lastSnapshotTime < time
  | .backup _ drawn now => filesOf config s ≠ [] → SafeRun config s (newSnapshotID drawn) now

instance decidableSafeEvent (config : BackupConfig) (s : ManagerState) : ∀ event, Decidable (SafeEvent config s event)
  | .edit _ time => inferInstanceAs (Decidable (s.lastSnapshotTime < time))
  | .backup _ drawn now => inferInstanceAs (Decidable (filesOf config s ≠ [] → SafeRun config s (newSnapshotID drawn) now))

theorem isName_snapshots : IsName snapshotRootDir := by decide

theorem isName_rootLabel (idx : ℕ) : IsName (rootLabel idx) := by
  have plain : '/' ∉ rootLabel idx := by
    intro member
    rcases mem_append.mp member with front | digits
    · exact absurd front (by decide)
    · exact absurd (digits_decimal idx '/' digits) (by decide)
  exact ⟨cons_ne_nil _ _, plain, fun same => absurd (cons.inj same).1 (by decide),
    fun same => absurd (cons.inj same).1 (by decide)⟩

theorem isName_newSnapshotID {drawn : Text} (plain : '/' ∉ drawn) : IsName (newSnapshotID drawn) := by
  have unslashed : '/' ∉ newSnapshotID drawn := by
    intro member
    rcases mem_append.mp member with front | rest
    · exact absurd front (by decide)
    · exact plain rest
  exact ⟨cons_ne_nil _ _, unslashed, fun same => absurd (cons.inj same).1 (by decide),
    fun same => absurd (cons.inj same).1 (by decide)⟩

section Keys
variable {id : Text}

theorem snapshotDir_name (name : IsName id) : snapshotDir id = slashed [snapshotRootDir, id] := by
  refine joinPath_names ?_ (cons_ne_nil _ _)
  simp only [forall_mem_cons, not_mem_nil, false_imp_iff, implies_true, and_true]
  exact ⟨isName_snapshots, name⟩

theorem joinPath_below (name : IsName id) (groups : List (List Text)) (some_group : groups ≠ [])
    (names : ∀ g ∈ groups, g ≠ [] ∧ ∀ t ∈ g, IsName t) :
    joinPath (joinPath [snapshotRootDir, id] :: groups.map slashed) =
      snapshotDir id ++ '/' :: slashed groups.flatten := by
  have own : ∀ t ∈ [snapshotRootDir, id], IsName t := by
    simp only [forall_mem_cons, not_mem_nil, false_imp_iff, implies_true, and_true]
    exact ⟨isName_snapshots, name⟩
  have some_name : groups.flatten ≠ [] := by
    obtain ⟨g, rest, rfl⟩ := exists_cons_of_ne_nil some_group
    rw [flatten_cons]
    exact append_ne_nil_of_left_ne_nil (names g mem_cons_self).1 _
  have joined := joinPath_slashed ([snapshotRootDir, id] :: groups) (cons_ne_nil _ _)
    (forall_mem_cons.mpr ⟨⟨cons_ne_nil _ _, own⟩, names⟩)
  rw [map_cons, flatten_cons, slashed_append (cons_ne_nil _ _) some_name] at joined
  rw [← snapshotDir_name name] at joined
  exact joined

theorem manifestKeyOf_below (name : IsName id) : manifestKeyOf id = snapshotDir id ++ '/' :: snapshotManifestKey := by
  have joined := joinPath_below name [[snapshotManifestKey]] (cons_ne_nil _ _) (by decide)
  simp only [map_cons, map_nil, slashed_singleton, flatten_cons, flatten_nil, append_nil]
    at joined
  exact joined

theorem backupPathOf_below (name : IsName id) {parts : List Text} (some_part : parts ≠ [])
    (names : ∀ t ∈ parts, IsName t) : ∃ rest, backupPathOf id (slashed parts) = snapshotDir id ++ '/' :: rest := by
  have files : ∀ t ∈ [snapshotFilesDir], IsName t := by decide
  have joined := joinPath_below name [[snapshotFilesDir], parts] (cons_ne_nil _ _)
    (forall_mem_cons.mpr ⟨⟨cons_ne_nil _ _, files⟩, forall_mem_singleton.mpr ⟨some_part, names⟩⟩)
  simp only [map_cons, map_nil, slashed_singleton] at joined
  unfold backupPathOf ensureGzipExtension
  rw [joined]
  split_ifs
  · exact ⟨_, rfl⟩
  · rw [append_assoc, cons_append]
    exact ⟨_, rfl⟩

theorem snapshotDir_unique {other rest : Text} (name : IsName id) (second : IsName other)
    (inside : snapshotDir other ++ ['/'] <+: snapshotDir id ++ '/' :: rest) : other = id := by
  obtain ⟨after, same⟩ := inside
  rw [snapshotDir_name name, snapshotDir_name second, slashed_cons_cons, slashed_cons_cons, slashed_singleton,
    slashed_singleton, append_assoc, append_assoc, append_assoc] at same
  have tail : other ++ '/' :: after = id ++ '/' :: rest := (cons.inj (append_cancel_left same)).2
  exact (append_sep_inj second.plain name.plain tail).1

end Keys

section Collection
variable {tree : List SourceFile} {roots : List (List Text)} {cutoff : ℤ}
variable {f g : SourceFile} {b : BackupFile}

theorem ValidTree.eq_of_path (valid : ValidTree tree) (first : f ∈ tree) (second : g ∈ tree)
    (same : f.path = g.path) : f = g := by
  apply valid.2 f first g second
  simp only [same, prefix_rfl]

theorem mem_of_mem_skipSeen {seen : List Text} {l : List BackupFile} (member : b ∈ skipSeen seen l) : b ∈ l := by
  induction l generalizing seen with
  | nil => exact member
  | cons c l ih =>
    rw [skipSeen] at member
    split_ifs at member
    · exact mem_cons_of_mem c (ih member)
    · rcases mem_cons.mp member with rfl | later
      · exact mem_cons_self
      · exact mem_cons_of_mem c (ih later)

theorem skipSeen_path (seen : List Text) {l : List BackupFile} (member : b ∈ l) :
    b.snapshotPath ∈ seen ∨ ∃ kept ∈ skipSeen seen l, kept.snapshotPath = b.snapshotPath := by
  induction l generalizing seen with
  | nil => cases member
  | cons c l ih =>
    rw [skipSeen]
    rcases mem_cons.mp member with rfl | later
    · split_ifs with before
      · exact .inl before
      · exact .inr ⟨b, mem_cons_self, rfl⟩
    · split_ifs with before
      · exact ih seen later
      · rcases ih (c.snapshotPath :: seen) later with earlier | ⟨kept, listed, same⟩
        · rcases mem_cons.mp earlier with same | earlier
          · exact .inr ⟨c, mem_cons_self, same.symm⟩
          · exact .inl earlier
        · exact .inr ⟨kept, mem_cons_of_mem c listed, same⟩

theorem relativePath_names {root path : List Text} (below : root <+: path) (some_name : path ≠ [])
    (names : ∀ t ∈ path, IsName t) : relativePath root path ≠ [] ∧ ∀ t ∈ relativePath root path, IsName t := by
  unfold relativePath
  split_ifs with same
  · subst same
    refine ⟨fun empty => ?_, fun t member => names t (mem_of_mem_drop member)⟩
    have size := length_pos_of_ne_nil some_name
    have short := drop_eq_nil_iff.mp empty
    omega
  · refine ⟨fun empty => same ?_, fun t member => names t (mem_of_mem_drop member)⟩
    exact (below.eq_of_length_le (drop_eq_nil_iff.mp empty)).symm

theorem rootLabel_injective {i j : ℕ} (same : rootLabel i = rootLabel j) : i = j := by
  have digits : decimal i = decimal j := append_cancel_left same
  rw [← number_decimal i, digits, number_decimal]

theorem relativePath_injective (valid : ValidTree tree) {root : List Text} (first : f ∈ tree)
    (second : g ∈ tree) (below_f : root <+: f.path) (below_g : root <+: g.path)
    (same : relativePath root f.path = relativePath root g.path) : f = g := by
  unfold relativePath at same
  split_ifs at same with whole_f whole_g whole_g
  · exact valid.eq_of_path first second (whole_f.trans whole_g.symm)
  · exact valid.2 f first g second (by rw [whole_f]; exact below_g)
  · exact (valid.2 g second f first (by rw [whole_g]; exact below_f)).symm
  · apply valid.eq_of_path first second
    rw [← prefix_iff_eq_append.mp below_f, ← prefix_iff_eq_append.mp below_g, same]

theorem mem_collect (member : b ∈ collectBackupFilesFromPaths roots tree cutoff) :
    ∃ root idx f, (root, idx) ∈ roots.zipIdx ∧ f ∈ tree ∧ root <+: f.path ∧
      b = ⟨sourcePathOf f.path, snapshotPathOf idx root f.path, f.content.length, f.modTime⟩ := by
  have listed := mem_of_mem_skipSeen ((mem_insertionSort _).mp member)
  obtain ⟨⟨root, idx⟩, indexed, found⟩ := mem_flatMap.mp listed
  obtain ⟨f, inside, made⟩ := mem_filterMap.mp found
  unfold collectFile at made
  split_ifs at made with taken
  exact ⟨root, idx, f, indexed, inside, taken.1, (Option.some.inj made).symm⟩

theorem sourcePathOf_injective (valid : ValidTree tree) (first : f ∈ tree) (second : g ∈ tree)
    (same : sourcePathOf f.path = sourcePathOf g.path) : f = g := by
  have names_f := valid.1 f first
  have names_g := valid.1 g second
  exact valid.eq_of_path first second
    (slashed_injective names_f.2 names_g.2 names_f.1 names_g.1 (cons.inj same).2)

theorem readTree_eq (valid : ValidTree tree) (member : f ∈ tree) (source : b.sourcePath = sourcePathOf f.path) :
    readTree tree b = f.content := by
  unfold readTree
  cases found : tree.find? (fun f => sourcePathOf f.path = b.sourcePath) with
  | none => exact absurd source.symm (by simpa using find?_eq_none.mp found f member)
  | some g =>
    have same := find?_some found
    rw [decide_eq_true_eq, source] at same
    rw [sourcePathOf_injective valid (mem_of_find?_eq_some found) member same]
    rfl

theorem collected (valid : ValidTree tree) (member : f ∈ tree) (covered : Covered roots f)
    (included : shouldIncludeFile f.modTime cutoff = true) :
    ∃ b ∈ collectBackupFilesFromPaths roots tree cutoff, b.sourcePath = sourcePathOf f.path ∧ b.modTime = f.modTime := by
  obtain ⟨root, listed, below⟩ := covered
  obtain ⟨idx, bound, at_idx⟩ := getElem_of_mem listed
  have indexed : (root, idx) ∈ roots.zipIdx := by
    rw [mk_mem_zipIdx_iff_getElem?, getElem?_eq_getElem bound, at_idx]
  let b : BackupFile := ⟨sourcePathOf f.path, snapshotPathOf idx root f.path, f.content.length, f.modTime⟩
  have found : b ∈ roots.zipIdx.flatMap fun root => tree.filterMap (collectFile cutoff root) := by
    refine mem_flatMap.mpr ⟨(root, idx), indexed, mem_filterMap.mpr ⟨f, member, ?_⟩⟩
    exact if_pos ⟨below, included⟩
  rcases skipSeen_path [] found with earlier | ⟨kept, listed, same⟩
  · cases earlier
  · have taken : kept ∈ collectBackupFilesFromPaths roots tree cutoff := (mem_insertionSort _).mpr listed
    obtain ⟨root', idx', g, indexed', inside, below', rfl⟩ := mem_collect taken
    have names_f := valid.1 f member
    have names_g := valid.1 g inside
    have relative_f := relativePath_names below names_f.1 names_f.2
    have relative_g := relativePath_names below' names_g.1 names_g.2
    have parts := slashed_injective
      (forall_mem_cons.mpr ⟨isName_rootLabel idx', relative_g.2⟩)
      (forall_mem_cons.mpr ⟨isName_rootLabel idx, relative_f.2⟩) (cons_ne_nil _ _) (cons_ne_nil _ _) same
    obtain ⟨labels, relative⟩ := cons.inj parts
    obtain rfl := rootLabel_injective labels
    rw [mk_mem_zipIdx_iff_getElem?] at indexed indexed'
    cases indexed.symm.trans indexed'
    obtain rfl := relativePath_injective valid inside member below' below relative
    exact ⟨_, taken, rfl, rfl⟩

theorem collect_below (valid : ValidTree tree) {id : Text} (name : IsName id)
    (member : b ∈ collectBackupFilesFromPaths roots tree cutoff) :
    ∃ rest, backupPathOf id b.snapshotPath = snapshotDir id ++ '/' :: rest := by
  obtain ⟨root, idx, f, -, inside, below, rfl⟩ := mem_collect member
  have names := valid.1 f inside
  have relative := relativePath_names below names.1 names.2
  exact backupPathOf_below name (cons_ne_nil _ _)
    (forall_mem_cons.mpr ⟨isName_rootLabel idx, relative.2⟩)

end Collection

/-- A copy with the modification time of the file, in the directory of its snapshot. -/
def Backed (store : Store) (file : SourceFile) : Prop :=
  ∃ snapshot entry rest, ⟨manifestKeyOf snapshot.id, .manifest snapshot⟩ ∈ store ∧ entry ∈ snapshot.files ∧
    entry.sourcePath = sourcePathOf file.path ∧ entry.modTime = file.modTime ∧
    entry.backupPath = snapshotDir snapshot.id ++ '/' :: rest ∧ ⟨entry.backupPath, .gzip file.content⟩ ∈ store

theorem Backed.hasCopy {store : Store} {file : SourceFile} (backed : Backed store file) : HasCopy store file := by
  obtain ⟨snapshot, entry, rest, manifest, listed, source, -, -, copy⟩ := backed
  exact ⟨snapshot, entry, manifest, listed, source, copy⟩

/-- An object lies in the directory of a snapshot, and a manifest is that of the directory. -/
def Owned (object : Object) : Prop :=
  ∃ id rest, IsName id ∧ object.key = snapshotDir id ++ '/' :: rest ∧
    ∀ snapshot, object.content = .manifest snapshot → snapshot.id = id ∧ object.key = manifestKeyOf id

theorem Owned.manifest {object : Object} (owned : Owned object) {snapshot : Snapshot}
    (content : object.content = .manifest snapshot) : IsName snapshot.id ∧ object.key = manifestKeyOf snapshot.id := by
  obtain ⟨id, rest, name, -, manifest⟩ := owned
  obtain ⟨rfl, key⟩ := manifest snapshot content
  exact ⟨name, key⟩

structure Intact (config : BackupConfig) (s : ManagerState) : Prop where
  valid : ValidTree s.tree
  keys : (s.store.map key).Nodup
  owned : ∀ object ∈ s.store, Owned object
  backed : ∀ file ∈ s.tree, Covered config.paths file →
    shouldIncludeFile file.modTime s.lastSnapshotTime = true ∨ Backed s.store file
  kept : CopiesKept config.paths s

theorem object_eq_of_key {store : Store} (keys : (store.map key).Nodup) {a b : Object} (first : a ∈ store)
    (second : b ∈ store) (same : a.key = b.key) : a = b :=
  inj_on_of_nodup_map keys first second same

section Pruned
variable {sorter : TimeSort} {provider : Provider} {store : Store}

theorem readManifest_some {object : Object} {listed : Listed} (read : readManifest provider object = some listed) :
    listed.key = object.key ∧ object.content = .manifest listed.snapshot := by
  unfold readManifest at read
  split_ifs at read
  split at read
  next snapshot _ content =>
    cases read
    exact ⟨rfl, content⟩
  next => cases read

theorem mem_listSnapshots {listed : Listed} (member : listed ∈ (listSnapshots sorter provider store).snapshots) :
    ⟨listed.key, .manifest listed.snapshot⟩ ∈ store := by
  unfold listSnapshots at member
  split at member
  · cases member
  · obtain ⟨object, inside, read⟩ := mem_filterMap.mp ((sorter.perm _).mem_iff.mp member)
    obtain ⟨key, content⟩ := readManifest_some read
    rw [key, ← content]
    exact (mem_filter.mp inside).1

theorem keys_readManifest (items : Store) :
    ((items.filterMap (readManifest provider)).map Listed.key).Sublist (items.map key) := by
  induction items with
  | nil => exact List.Sublist.refl _
  | cons object items ih =>
    rw [filterMap_cons, map_cons]
    split
    · exact ih.cons object.key
    next listed read =>
      rw [map_cons, (readManifest_some read).1]
      exact ih.cons_cons object.key

theorem nodup_listSnapshots (keys : (store.map key).Nodup) (owned : ∀ object ∈ store, Owned object) :
    ((listSnapshots sorter provider store).snapshots.map Listed.snapshot).Nodup := by
  have listedKeys : ((listSnapshots sorter provider store).snapshots.map Listed.key).Nodup := by
    unfold listSnapshots
    split
    · exact nodup_nil
    · have under : ((listedUnder store snapshotRootDir).map key).Sublist (store.map key) :=
        filter_sublist.map key
      exact (((sorter.perm _).map Listed.key).nodup_iff).mpr (keys.sublist ((keys_readManifest _).trans under))
  refine (nodup_map_iff_inj_on (List.Nodup.of_map Listed.key listedKeys)).mpr fun a first b second same => ?_
  refine inj_on_of_nodup_map listedKeys first second ?_
  have key_a := ((owned _ (mem_listSnapshots first)).manifest rfl).2
  have key_b := ((owned _ (mem_listSnapshots second)).manifest rfl).2
  rw [← same] at key_b
  exact key_a.trans key_b.symm

theorem outdated_outnumbered {retention : ℤ} (positive : 1 ≤ retention) (keys : (store.map key).Nodup)
    (owned : ∀ object ∈ store, Owned object) {pruned : Listed} (old : pruned ∈ outdated sorter provider retention store)
    (others : List Snapshot) (all : ∀ listed ∈ (listSnapshots sorter provider store).snapshots,
      pruned.snapshot.timestamp ≤ listed.snapshot.timestamp → listed.snapshot ≠ pruned.snapshot →
        listed.snapshot ∈ others) : retention ≤ others.length := by
  have distinct : ((listSnapshots sorter provider store).snapshots.map Listed.snapshot).Nodup :=
    nodup_listSnapshots keys owned
  unfold outdated at old
  generalize listing : (listSnapshots sorter provider store).snapshots = listed at *
  have sorted : listed.Pairwise fun a b => a.snapshot.timestamp ≤ b.snapshot.timestamp := by
    rw [← listing]
    unfold listSnapshots
    split
    · exact List.Pairwise.nil
    · exact sorter.sorted _
  dsimp only at old
  have parts := take_append_drop (listed.length - retention.toNat) listed
  have count : ((listed.drop (listed.length - retention.toNat)).map Listed.snapshot).length = retention.toNat := by
    have some_old := length_pos_of_mem old
    rw [length_take] at some_old
    rw [length_map, length_drop]
    omega
  rw [← parts] at sorted distinct
  rw [map_append] at distinct
  obtain ⟨-, later, apart⟩ := nodup_append.mp distinct
  have subset : (listed.drop (listed.length - retention.toNat)).map Listed.snapshot ⊆ others := by
    intro snapshot member
    obtain ⟨kept, inside, rfl⟩ := mem_map.mp member
    have order := (pairwise_append.mp sorted).2.2 pruned old kept inside
    refine all kept (mem_of_mem_drop inside) order fun same => ?_
    exact apart _ (mem_map_of_mem old) _ (mem_map_of_mem inside) same.symm
  have bound := (subperm_of_subset later subset).length_le
  rw [count] at bound
  omega

theorem kept_of_other_pruned {retention : ℤ} (positive : 1 ≤ retention) (owned : ∀ object ∈ store, Owned object)
    {object : Object} (member : object ∈ store) {id rest : Text} (name : IsName id)
    (key : object.key = snapshotDir id ++ '/' :: rest)
    (others : ∀ pruned ∈ outdated sorter provider retention store, pruned.snapshot.id ≠ id) :
    object ∈ (deleteSnapshotContext sorter provider retention store).store := by
  refine (mem_deleteSnapshotContext positive).mpr ⟨member, fun pruned old within => ?_⟩
  have listed := mem_listSnapshots (mem_of_mem_take old)
  have second := ((owned _ listed).manifest rfl).1
  have inside := within.1
  rw [key] at inside
  exact absurd (snapshotDir_unique name second inside) (others pruned old)

end Pruned

section Run
variable {sorter : TimeSort} {config : BackupConfig} {provider : Provider} {s : ManagerState} {id : Text} {now : ℤ}

def storedBy (config : BackupConfig) (s : ManagerState) (id : Text) (now : ℤ) : Store :=
  (storeFiles (readTree s.tree) (filesOf config s) id s.store).put (manifestKeyOf id)
    (.manifest (snapshotOf (filesOf config s) id now))

theorem not_gz_manifestKeyOf (name : IsName id) : ¬".gz".toList <:+ manifestKeyOf id := by
  rw [manifestKeyOf_below name]
  rintro ⟨front, same⟩
  have last := congrArg getLast? same
  rw [getLast?_append, getLast?_append] at last
  have letters : some 'z' = some 'n' := last
  exact absurd letters (by decide)

theorem within_below (id rest : Text) : Within (snapshotDir id) (snapshotDir id ++ '/' :: rest) := by
  refine .inr ⟨rest, ?_⟩
  rw [append_assoc]
  rfl

theorem mem_storedBy (valid : ValidTree s.tree) (name : IsName id) (safe : SafeRun config s id now) {object : Object} :
    object ∈ storedBy config s id now ↔
      object ∈ s.store ∨ (∃ b ∈ filesOf config s, object = objectOf (readTree s.tree) id b) ∨
        object = ⟨manifestKeyOf id, .manifest (snapshotOf (filesOf config s) id now)⟩ := by
  have own : ∀ b ∈ filesOf config s, Within (snapshotDir id) (objectOf (readTree s.tree) id b).key := by
    intro b member
    obtain ⟨rest, key⟩ := collect_below valid name member
    rw [objectOf, key]
    exact within_below id rest
  have manifest : Within (snapshotDir id) (manifestKeyOf id) := by
    rw [manifestKeyOf_below name]
    exact within_below id _
  rw [storedBy, mem_put, mem_storeFiles safe.distinct]
  constructor
  · rintro (⟨⟨member, -⟩ | filed, -⟩ | last)
    · exact .inl member
    · exact .inr (.inl filed)
    · exact .inr (.inr last)
  · rintro (member | ⟨b, listed, rfl⟩ | last)
    · have outside := safe.fresh object member
      refine .inl ⟨.inl ⟨member, fun b listed same => outside ?_⟩, fun same => outside ?_⟩
      · rw [same]
        exact own b listed
      · rw [same]
        exact manifest
    · refine .inl ⟨.inr ⟨b, listed, rfl⟩, fun same => not_gz_manifestKeyOf name ?_⟩
      rw [← same]
      exact gz_suffix_backupPathOf id b.snapshotPath
    · exact .inr last

theorem keys_storedBy (keys : (s.store.map key).Nodup) :
    ((storedBy config s id now).map key).Nodup := nodup_put (nodup_storeFiles keys) _ _

theorem owned_storedBy (intact : Intact config s) (name : IsName id) (safe : SafeRun config s id now) :
    ∀ object ∈ storedBy config s id now, Owned object := by
  intro object member
  rcases (mem_storedBy intact.valid name safe).mp member with before | ⟨b, listed, rfl⟩ | rfl
  · exact intact.owned object before
  · obtain ⟨rest, key⟩ := collect_below intact.valid name listed
    exact ⟨id, rest, name, key, fun snapshot content => by cases content⟩
  · refine ⟨id, snapshotManifestKey, name, manifestKeyOf_below name, fun snapshot content => ?_⟩
    cases content
    exact ⟨rfl, rfl⟩

theorem mem_listed_storedBy (intact : Intact config s) (name : IsName id) (safe : SafeRun config s id now)
    {listed : Listed} (member : listed ∈ (listSnapshots sorter provider (storedBy config s id now)).snapshots) :
    listed.snapshot ∈ manifestsIn s.store ∨ listed.snapshot = snapshotOf (filesOf config s) id now := by
  rcases (mem_storedBy intact.valid name safe).mp (mem_listSnapshots member) with before | ⟨b, -, same⟩ | same
  · exact .inl (mem_filterMap.mpr ⟨_, before, rfl⟩)
  · cases (mk.inj same).2
  · exact .inr (Content.manifest.inj (mk.inj same).2)

variable {file : SourceFile}

theorem pruned_superseded (intact : Intact config s) (positive : 1 ≤ config.retention) (name : IsName id)
    (safe : SafeRun config s id now) {pruned : Listed}
    (old : pruned ∈ outdated sorter provider config.retention (storedBy config s id now))
    (member : file ∈ s.tree) (covered : Covered config.paths file) : ¬Lists pruned.snapshot file := by
  have keys : ((storedBy config s id now).map key).Nodup := keys_storedBy intact.keys
  have owned := owned_storedBy intact name safe
  have listedOld := mem_of_mem_take old
  have outnumbered := outdated_outnumbered positive keys owned old
  rcases mem_listed_storedBy intact name safe listedOld with before | new
  · refine safe.superseded pruned.snapshot before ?_ file member covered
    have bound := outnumbered (snapshotOf (filesOf config s) id now :: asRecent s.store pruned.snapshot) ?_
    · rw [length_cons] at bound
      exact_mod_cast bound
    · intro listed inside order other
      rcases mem_listed_storedBy intact name safe inside with earlier | new
      · refine mem_cons_of_mem _ (mem_filter.mpr ⟨earlier, decide_eq_true ⟨order, fun same => other ?_⟩⟩)
        have first := mem_listSnapshots inside
        have second := mem_listSnapshots listedOld
        have key_a := ((owned _ first).manifest rfl).2
        have key_b := ((owned _ second).manifest rfl).2
        rw [same] at key_a
        have objects := object_eq_of_key keys first second (key_a.trans key_b.symm)
        exact Content.manifest.inj (mk.inj objects).2
      · exact mem_cons.mpr (.inl new)
  · have bound := outnumbered ((manifestsIn s.store).filter fun other => now ≤ other.timestamp) ?_
    · exact absurd safe.latest (not_lt.mpr bound)
    · intro listed inside order other
      rw [new] at order other
      rcases mem_listed_storedBy intact name safe inside with earlier | same
      · exact mem_filter.mpr ⟨earlier, decide_eq_true order⟩
      · exact absurd same other

theorem backed_storedBy (intact : Intact config s) (name : IsName id) (safe : SafeRun config s id now) (member : file ∈ s.tree) (covered : Covered config.paths file) :
    Backed (storedBy config s id now) file := by
  have into {object : Object} := (@mem_storedBy _ _ _ _ intact.valid name safe object).mpr
  rcases intact.backed file member covered with new | ⟨snapshot, entry, rest, manifest, listed, source, time, key, copy⟩
  · obtain ⟨b, taken, source, time⟩ := collected intact.valid member covered new
    obtain ⟨rest, key⟩ := collect_below intact.valid name taken
    refine ⟨snapshotOf (filesOf config s) id now, entryOf id b, rest, into (.inr (.inr rfl)),
      mem_map_of_mem taken, source, time, key, into (.inr (.inl ⟨b, taken, ?_⟩))⟩
    rw [objectOf, readTree_eq intact.valid member source]
    rfl
  · exact ⟨snapshot, entry, rest, into (.inl manifest), listed, source, time, key, into (.inl copy)⟩

theorem backed_after_pruning (intact : Intact config s) (positive : 1 ≤ config.retention) (name : IsName id)
    (safe : SafeRun config s id now) (member : file ∈ s.tree) (covered : Covered config.paths file) :
    Backed (deleteSnapshotContext sorter provider config.retention (storedBy config s id now)).store file := by
  obtain ⟨snapshot, entry, rest, manifest, listed, source, time, key, copy⟩ :=
    backed_storedBy intact name safe member covered
  have keys : ((storedBy config s id now).map Object.key).Nodup := keys_storedBy intact.keys
  have owned := owned_storedBy intact name safe
  have own := ((owned _ manifest).manifest rfl).1
  have others : ∀ pruned ∈ outdated sorter provider config.retention (storedBy config s id now),
      pruned.snapshot.id ≠ snapshot.id := by
    intro pruned old same
    have first := mem_listSnapshots (mem_of_mem_take old)
    have key_a := ((owned _ first).manifest rfl).2
    rw [same] at key_a
    have objects := object_eq_of_key keys first manifest key_a
    rw [← Content.manifest.inj (mk.inj objects).2] at listed
    exact pruned_superseded intact positive name safe old member covered ⟨entry, listed, source, time⟩
  refine ⟨snapshot, entry, rest, ?_, listed, source, time, key, ?_⟩
  · exact kept_of_other_pruned positive owned manifest own (manifestKeyOf_below own) others
  · exact kept_of_other_pruned positive owned copy own key others

end Run

section Steps
variable {sorter : TimeSort} {config : BackupConfig} {s next : ManagerState}

theorem edit_intact {tree : List SourceFile} {time : ℤ} (intact : Intact config s)
    (later : s.lastSnapshotTime < time) (valid : ValidTree tree) (edits : ∀ f ∈ tree, f ∈ s.tree ∨ f.modTime = time) :
    Intact config { s with tree := tree, edited := time, clock := time } where
  valid := valid
  keys := intact.keys
  owned := intact.owned
  backed := by
    intro file member covered
    rcases edits file member with before | touched
    · exact intact.backed file before covered
    · left
      rw [shouldIncludeFile, touched, Bool.or_eq_true, decide_eq_true_eq, decide_eq_true_eq]
      exact .inr later
  kept := intact.kept

theorem skipped_intact (intact : Intact config s) (nothing : filesOf config s = []) (now : ℤ) :
    Intact config { s with status := some .skipped, scanned := s.tree, clock := now } where
  valid := intact.valid
  keys := intact.keys
  owned := intact.owned
  backed := intact.backed
  kept := by
    intro status _ _ file member covered
    rcases intact.backed file member covered with new | backed
    · obtain ⟨b, taken, -⟩ := collected intact.valid member covered new
      rw [← filesOf, nothing] at taken
      cases taken
    · exact backed.hasCopy

theorem runBackup_intact {provider : Provider} {id : Text} {now : ℤ} (intact : Intact config s)
    (positive : 1 ≤ config.retention) (succeeds : ∀ key, provider.uploadError key = none) (name : IsName id)
    (safe : filesOf config s ≠ [] → SafeRun config s id now) :
    Intact config { runBackup sorter config provider id now s with clock := now } := by
  unfold runBackup
  by_cases none : config.paths = []
  · rw [if_pos none]
    exact ⟨intact.valid, intact.keys, intact.owned, intact.backed, intact.kept⟩
  · rw [if_neg none]
    by_cases nothing : filesOf config s = []
    · dsimp only
      rw [← filesOf, if_pos nothing]
      exact skipped_intact intact nothing now
    · have safely := safe nothing
      dsimp only
      rw [← filesOf, if_neg nothing, createSnapshotContext_eq succeeds nothing]
      dsimp only [enforceRetention]
      rw [if_pos (show 0 < config.retention by omega)]
      have backed : ∀ file ∈ s.tree, Covered config.paths file →
          Backed (deleteSnapshotContext sorter provider config.retention (storedBy config s id now)).store file :=
        fun file member covered => backed_after_pruning intact positive name safely member covered
      have sublist := deleteSnapshotContext_sublist sorter provider config.retention (storedBy config s id now)
      exact {
        valid := intact.valid
        keys := (keys_storedBy intact.keys).sublist (sublist.map _)
        owned := fun object member => owned_storedBy intact name safely object (sublist.subset member)
        backed := fun file member covered => .inr (backed file member covered)
        kept := fun _ _ _ file member covered => (backed file member covered).hasCopy }

theorem backupStep_intact (positive : 1 ≤ config.retention) {event : BackupEvent} (intact : Intact config s)
    (safe : SafeEvent config s event) (stepped : backupStep sorter config s event = some next) :
    Intact config next := by
  cases event with
  | edit tree time =>
    simp only [backupStep] at stepped
    split_ifs at stepped with guard
    cases stepped
    exact edit_intact intact safe guard.2.2.1 guard.2.2.2
  | backup provider drawn now =>
    simp only [backupStep] at stepped
    split_ifs at stepped with guard
    cases stepped
    exact runBackup_intact intact positive (fun _ => rfl) (isName_newSnapshotID guard.1) safe

theorem newManager_intact (config : BackupConfig) : Intact config newManager := by
  refine ⟨⟨?_, ?_⟩, nodup_nil, ?_, ?_, ?_⟩
  · exact fun _ member => absurd member not_mem_nil
  · exact fun _ member => absurd member not_mem_nil
  · exact fun _ member => absurd member not_mem_nil
  · exact fun _ member => absurd member not_mem_nil
  · exact fun _ same => by cases same

end Steps

/-- In a history whose edits are later than the last snapshot and whose runs are safe, each file that a run has found
keeps a copy of what it held. -/
theorem safe_history_keeps_copies (sorter : TimeSort) (config : BackupConfig) (positive : 1 ≤ config.retention)
    (events : List BackupEvent) (s : ManagerState)
    (safe : Meets (backupStep sorter config) (SafeEvent config) newManager events)
    (reached : run (backupStep sorter config) newManager events = some s) : CopiesKept config.paths s :=
  (run_invariant (fun _ _ _ => backupStep_intact positive) (newManager_intact config) safe reached).kept

def keepOne : BackupConfig := ⟨[["data".toList]], 1⟩

def fileAt (name : String) (content : Bytes) (modTime : ℤ) : SourceFile :=
  ⟨["data".toList, name.toList], content, modTime⟩

def changedHistory : List BackupEvent :=
  [.edit [fileAt "ledger" [1] 1] 1, .backup {} "one".toList 2, .edit [fileAt "ledger" [2] 3] 3,
    .backup {} "two".toList 4]

/-- A second file appears between the two runs, and the first stays as it is. -/
def growingHistory : List BackupEvent :=
  [.edit [fileAt "ledger" [1] 1] 1, .backup {} "one".toList 2,
    .edit [fileAt "ledger" [1] 1, fileAt "letter" [2] 3] 3, .backup {} "two".toList 4]

theorem changed_history_keeps_copies :
    ∃ s, run (backupStep stableSort keepOne) newManager changedHistory = some s ∧ s.status = some .completed ∧
      CopiesKept keepOne.paths s := by
  have status : (run (backupStep stableSort keepOne) newManager changedHistory).map ManagerState.status =
      some (some .completed) := by decide +kernel
  obtain ⟨s, reached, completed⟩ := Option.map_eq_some_iff.mp status
  refine ⟨s, reached, completed, ?_⟩
  exact safe_history_keeps_copies stableSort keepOne (by decide) changedHistory s (by decide +kernel) reached

/-- The second run prunes the snapshot that alone holds the first file. -/
theorem growing_history_loses_copy :
    ∃ s, run (backupStep stableSort keepOne) newManager growingHistory = some s ∧ ¬CopiesKept keepOne.paths s := by
  have outcome : (run (backupStep stableSort keepOne) newManager growingHistory).map
      (fun s => (s.status, s.scanned.contains (fileAt "ledger" [1] 1), s.store.all (·.content ≠ .gzip [1]))) =
        some (some .completed, true, true) := by decide +kernel
  obtain ⟨s, reached, same⟩ := Option.map_eq_some_iff.mp outcome
  obtain ⟨status, found, gone⟩ := Prod.mk.inj same |>.imp_right Prod.mk.inj
  refine ⟨s, reached, fun kept => ?_⟩
  obtain ⟨snapshot, entry, -, -, -, copy⟩ := kept .completed status (by decide) (fileAt "ledger" [1] 1)
    (contains_iff_mem.mp found) ⟨["data".toList], mem_cons_self, by decide⟩
  exact absurd rfl (of_decide_eq_true (all_eq_true.mp gone _ copy))

end RemudaRmm.Backup
