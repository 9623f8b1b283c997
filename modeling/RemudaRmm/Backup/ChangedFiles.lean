import RemudaRmm.Backup.BackupRuns

/-! The steps of a backup run and the edits between them (`backup.go`), for a manager without retention. The scan takes
the files that are new since the last snapshot, the snapshot draws its own time, and each file is read as it is
uploaded. -/
namespace RemudaRmm.Backup
open Foundation List Option

/-- What a scan has found; `unchanged` are the files that are still as they were. -/
structure Scan where
  unreadable : List (List Text)
  files : List BackupFile
  unchanged : List SourceFile

structure Uploads where
  scan : Scan
  snapshot : Snapshot
  rest : List BackupFile
  failed : List Text
  errors : List String

inductive RunPhase where
  | idle
  | started
  | scanned (scan : Scan)
  | uploading (uploads : Uploads)

/-- The status and the errors of `job.Error`. -/
structure JobReport where
  status : JobStatus
  errors : List String
  deriving DecidableEq

/-- `steady` are the files whose content has stayed since the last call began, and until it returned. -/
structure LiveManager where
  tree : List SourceFile
  store : Store
  lastSnapshotTime : ℤ
  phase : RunPhase
  steady : List SourceFile
  job : Option JobReport

inductive LiveEvent where
  | edit (tree : List SourceFile)
  | begin
  | scan (unreadable : List (List Text))
  | stamp (drawn : Text) (now : ℤ)
  | upload (fault : Option String)
  | finish (fault : Option String)

def Unreadable (unreadable : List (List Text)) (file : SourceFile) : Prop := ∃ p ∈ unreadable, p <+: file.path
  deriving Decidable

def scanErrors (unreadable : List (List Text)) : List String :=
  unreadable.map fun p => "failed to read info for " ++ shown (sourcePathOf p)

def StillHas (tree : List SourceFile) (file : SourceFile) : Prop :=
  ∃ g ∈ tree, g.path = file.path ∧ g.content = file.content
  deriving Decidable

def Scan.edited (scan : Scan) (tree : List SourceFile) : Scan :=
  { scan with unchanged := scan.unchanged.filter fun file => file ∈ tree }

def RunPhase.edited (tree : List SourceFile) : RunPhase → RunPhase
  | .idle => .idle
  | .started => .started
  | .scanned scan => .scanned (scan.edited tree)
  | .uploading uploads => .uploading { uploads with scan := uploads.scan.edited tree }

def edited (s : LiveManager) (tree : List SourceFile) : LiveManager :=
  { s with
    tree := tree
    phase := s.phase.edited tree
    steady :=
      match s.phase with
      | .idle => s.steady
      | _ => s.steady.filter fun file => StillHas tree file }

def uploadFault (tree : List SourceFile) (file : BackupFile) (fault : Option String) : Option String :=
  if ∃ f ∈ tree, sourcePathOf f.path = file.sourcePath then fault else some "no such file or directory"

def uploadNext (s : LiveManager) (uploads : Uploads) (file : BackupFile) (rest : List BackupFile)
    (fault : Option String) : LiveManager :=
  let outcome := uploadFault s.tree file fault
  let c := uploadFile { uploadError := fun _ => outcome } (readTree s.tree)
    ⟨uploads.snapshot, uploads.errors, s.store⟩ file
  { s with
    store := c.store
    phase := .uploading
      { uploads with
        snapshot := c.snapshot
        rest := rest
        failed := if outcome = none then uploads.failed else uploads.failed ++ [file.sourcePath]
        errors := c.errors } }

/-- The manifest and the end of `RunBackup`: the errors of single files count only when nothing was uploaded. -/
def finishRun (s : LiveManager) (uploads : Uploads) (fault : Option String) : LiveManager :=
  let scanErr := scanErrors uploads.scan.unreadable
  if uploads.snapshot.files = [] then
    { s with phase := .idle, job := some ⟨.failed, scanErr ++ uploads.errors⟩ }
  else
    match fault with
    | some e =>
      { s with
        lastSnapshotTime := max s.lastSnapshotTime uploads.snapshot.timestamp
        phase := .idle
        job := some ⟨.failed, scanErr ++ ["failed to upload snapshot manifest: " ++ e]⟩ }
    | none =>
      { s with
        store := s.store.put (manifestKeyOf uploads.snapshot.id) (.manifest uploads.snapshot)
        lastSnapshotTime := max s.lastSnapshotTime uploads.snapshot.timestamp
        phase := .idle
        job := some ⟨.completed, scanErr⟩ }

def scanRun (roots : List (List Text)) (s : LiveManager) (unreadable : List (List Text)) : LiveManager :=
  let readable := s.tree.filter fun file => ¬Unreadable unreadable file
  let files := collectBackupFilesFromPaths roots readable s.lastSnapshotTime
  if files = [] then { s with phase := .idle, job := some ⟨.skipped, scanErrors unreadable⟩ }
  else { s with phase := .scanned ⟨unreadable, files, s.tree⟩ }

def liveStep (roots : List (List Text)) (s : LiveManager) (event : LiveEvent) : Option LiveManager :=
  match event, s.phase with
  | .edit tree, _ => if ValidTree tree then some (edited s tree) else none
  | .begin, .idle => if roots = [] then none else some { s with phase := .started, steady := s.tree, job := none }
  | .scan unreadable, .started => some (scanRun roots s unreadable)
  | .stamp drawn now, .scanned scan =>
    if '/' ∈ drawn then none
    else some { s with phase := .uploading ⟨scan, ⟨newSnapshotID drawn, now, [], 0⟩, scan.files, [], []⟩ }
  | .upload fault, .uploading uploads =>
    match uploads.rest with
    | [] => none
    | file :: rest => some (uploadNext s uploads file rest fault)
  | .finish fault, .uploading uploads => if uploads.rest = [] then some (finishRun s uploads fault) else none
  | _, _ => none

def newLiveManager : LiveManager := ⟨[], [], 0, .idle, [], none⟩

/-- The last call has reported success, and every file that stayed during the call is stored. -/
def NothingSkipped (roots : List (List Text)) (s : LiveManager) : Prop :=
  s.job = some ⟨.completed, []⟩ → ∀ file ∈ s.steady, Covered roots file → HasCopy s.store file

instance decidableHasCopy (store : Store) (file : SourceFile) : Decidable (HasCopy store file) :=
  decidable_of_iff (∃ snapshot ∈ manifestsIn store, ⟨manifestKeyOf snapshot.id, .manifest snapshot⟩ ∈ store ∧
    ∃ entry ∈ snapshot.files, entry.sourcePath = sourcePathOf file.path ∧ ⟨entry.backupPath, .gzip file.content⟩ ∈ store)
    (by
      constructor
      · rintro ⟨snapshot, -, manifest, entry, listed, source, copy⟩
        exact ⟨snapshot, entry, manifest, listed, source, copy⟩
      · rintro ⟨snapshot, entry, manifest, listed, source, copy⟩
        exact ⟨snapshot, mem_filterMap.mpr ⟨_, manifest, rfl⟩, manifest, entry, listed, source, copy⟩)

/-- A scan with the cutoff takes the file, or it has a copy already. -/
def FoundAgain (cutoff : ℤ) (store : Store) (file : SourceFile) : Prop :=
  shouldIncludeFile file.modTime cutoff = true ∨ HasCopy store file
  deriving Decidable

def UploadFailed (uploads : Uploads) (file : SourceFile) : Prop :=
  sourcePathOf file.path ∈ uploads.failed ∧ sourcePathOf file.path ∉ uploads.snapshot.files.map SnapshotFile.sourcePath
  deriving Decidable

def nextCutoff (s : LiveManager) (uploads : Uploads) : ℤ :=
  if uploads.snapshot.files = [] then s.lastSnapshotTime else max s.lastSnapshotTime uploads.snapshot.timestamp

/-- What may have gone wrong by the end of a run that has uploaded something: a file that the scan could not read or
whose upload failed is found again, and so is every file when the manifest fails; and when success is reported no file
that stayed has failed. -/
structure SafeFinish (roots : List (List Text)) (s : LiveManager) (uploads : Uploads) (fault : Option String) :
    Prop where
  unreadable : ∀ file ∈ uploads.scan.unchanged, Covered roots file → Unreadable uploads.scan.unreadable file →
    FoundAgain (nextCutoff s uploads) s.store file
  failed : ∀ file ∈ uploads.scan.unchanged, Covered roots file → UploadFailed uploads file →
    FoundAgain (nextCutoff s uploads) s.store file
  manifest : fault ≠ none → ∀ file ∈ uploads.scan.unchanged, Covered roots file →
    FoundAgain (nextCutoff s uploads) s.store file
  reported : fault = none → uploads.scan.unreadable = [] → ∀ file ∈ s.steady, Covered roots file →
    UploadFailed uploads file → HasCopy s.store file
  unused : fault = none → manifestKeyOf uploads.snapshot.id ∉ s.store.map Object.key

/-- Files that change are found again, those that change after the scan by the cutoff that the run leaves; and an upload
that succeeds goes to a key that is not in use. -/
def SafeLiveEvent (roots : List (List Text)) (s : LiveManager) (event : LiveEvent) : Prop :=
  match event, s.phase with
  | .edit tree, .idle | .edit tree, .started =>
    ∀ file ∈ tree, Covered roots file → file ∉ s.tree → FoundAgain s.lastSnapshotTime s.store file
  | .upload fault, .uploading uploads =>
    ∀ file ∈ uploads.rest.head?, uploadFault s.tree file fault = none →
      backupPathOf uploads.snapshot.id file.snapshotPath ∉ s.store.map Object.key
  | .finish fault, .uploading uploads =>
    (∀ file ∈ s.tree, Covered roots file → file ∉ uploads.scan.unchanged →
      FoundAgain (nextCutoff s uploads) s.store file) ∧
    (uploads.snapshot.files ≠ [] → SafeFinish roots s uploads fault)
  | _, _ => True

def AllFound (roots : List (List Text)) (s : LiveManager) : Prop :=
  ∀ file ∈ s.tree, Covered roots file → FoundAgain s.lastSnapshotTime s.store file

/-- The run has taken the file, or need not take it, or could not read it. -/
def InHand (s : LiveManager) (scan : Scan) (file : SourceFile) : Prop :=
  HasCopy s.store file ∨ Unreadable scan.unreadable file ∨ ∃ b ∈ scan.files, b.sourcePath = sourcePathOf file.path

structure ScanSound (roots : List (List Text)) (s : LiveManager) (scan : Scan) : Prop where
  present : ∀ file ∈ scan.unchanged, file ∈ s.tree
  stays : ∀ file ∈ s.steady, StillHas s.tree file
  found : ∀ file ∈ scan.unchanged, Covered roots file → FoundAgain s.lastSnapshotTime s.store file
  inHand : ∀ file, file ∈ scan.unchanged ∨ file ∈ s.steady → Covered roots file → InHand s scan file

/-- Each collected file is still to come, has failed or is stored, with the content that it has kept. -/
structure UploadsSound (roots : List (List Text)) (s : LiveManager) (uploads : Uploads) : Prop where
  scan : ScanSound roots s uploads.scan
  done : ∀ b ∈ uploads.scan.files, b ∈ uploads.rest ∨ b.sourcePath ∈ uploads.failed ∨
    b.sourcePath ∈ uploads.snapshot.files.map SnapshotFile.sourcePath
  stored : ∀ entry ∈ uploads.snapshot.files, ∀ file, file ∈ uploads.scan.unchanged ∨ file ∈ s.steady →
    entry.sourcePath = sourcePathOf file.path → ⟨entry.backupPath, .gzip file.content⟩ ∈ s.store

def PhaseSound (roots : List (List Text)) (s : LiveManager) : RunPhase → Prop
  | .idle => AllFound roots s
  | .started => AllFound roots s ∧ ∀ file ∈ s.steady, StillHas s.tree file
  | .scanned scan => ScanSound roots s scan
  | .uploading uploads => UploadsSound roots s uploads

structure LiveSound (roots : List (List Text)) (s : LiveManager) : Prop where
  valid : ValidTree s.tree
  phase : PhaseSound roots s s.phase
  job : s.phase = .idle ∨ s.job = none
  reported : NothingSkipped roots s

section Copies
variable {store after : Store} {file : SourceFile}

theorem HasCopy.mono (kept : ∀ object ∈ store, object ∈ after) (copy : HasCopy store file) : HasCopy after file := by
  obtain ⟨snapshot, entry, manifest, listed, source, stored⟩ := copy
  exact ⟨snapshot, entry, kept _ manifest, listed, source, kept _ stored⟩

theorem FoundAgain.mono {cutoff : ℤ} (kept : ∀ object ∈ store, object ∈ after) (found : FoundAgain cutoff store file) :
    FoundAgain cutoff after file := found.imp_right (HasCopy.mono kept)

theorem mem_put_unused {key : Text} (content : Content) (unused : key ∉ store.map Object.key) :
    ∀ object ∈ store, object ∈ store.put key content := by
  intro object member
  refine mem_put.mpr (.inl ⟨member, fun same => unused ?_⟩)
  rw [← same]
  exact List.mem_map_of_mem member

end Copies

section Steps
variable {roots : List (List Text)} {s next : LiveManager}
variable {scan : Scan} {tree : List SourceFile} {phase : RunPhase} {uploads : Uploads} {file : SourceFile}
    {rest : List BackupFile}

theorem ScanSound.edited (sound : ScanSound roots s scan) :
    ScanSound roots ⟨tree, s.store, s.lastSnapshotTime, phase, s.steady.filter fun file => StillHas tree file, s.job⟩
      (scan.edited tree) := by
  constructor
  · intro file member
    exact of_decide_eq_true (mem_filter.mp member).2
  · intro file member
    exact of_decide_eq_true (mem_filter.mp member).2
  · intro file member
    exact sound.found file (mem_filter.mp member).1
  · rintro file (member | member) covered
    · exact sound.inHand file (.inl (mem_filter.mp member).1) covered
    · exact sound.inHand file (.inr (mem_filter.mp member).1) covered

theorem UploadsSound.edited (sound : UploadsSound roots s uploads) :
    UploadsSound roots ⟨tree, s.store, s.lastSnapshotTime, phase, s.steady.filter fun file => StillHas tree file, s.job⟩
      { uploads with scan := uploads.scan.edited tree } := by
  constructor
  · exact sound.scan.edited
  · exact sound.done
  · rintro entry listed file (member | member) source
    · exact sound.stored entry listed file (.inl (mem_filter.mp member).1) source
    · exact sound.stored entry listed file (.inr (mem_filter.mp member).1) source

theorem allFound_edited (found : AllFound roots s)
    (safe : ∀ file ∈ tree, Covered roots file → file ∉ s.tree → FoundAgain s.lastSnapshotTime s.store file) :
    ∀ file ∈ tree, Covered roots file → FoundAgain s.lastSnapshotTime s.store file := by
  intro file member covered
  by_cases before : file ∈ s.tree
  · exact found file before covered
  · exact safe file member covered before

theorem edit_sound (sound : LiveSound roots s) (valid : ValidTree tree)
    (safe : SafeLiveEvent roots s (.edit tree)) : LiveSound roots (edited s tree) := by
  obtain ⟨old, store, last, phase, steady, job⟩ := s
  cases phase with
  | idle =>
    have again := allFound_edited (s := ⟨old, store, last, .idle, steady, job⟩) sound.phase safe
    exact ⟨valid, again, .inl rfl, sound.reported⟩
  | started =>
    have none_yet := sound.job.resolve_left (by simp)
    have again := allFound_edited (s := ⟨old, store, last, .started, steady, job⟩) sound.phase.1 safe
    refine ⟨valid, ⟨again, ?_⟩, .inr none_yet, ?_⟩
    · intro file member
      exact of_decide_eq_true (mem_filter.mp member).2
    · intro completed
      exact absurd (none_yet.symm.trans completed) (by simp)
  | scanned scan =>
    have none_yet := sound.job.resolve_left (by simp)
    refine ⟨valid, ScanSound.edited sound.phase, .inr none_yet, ?_⟩
    intro completed
    exact absurd (none_yet.symm.trans completed) (by simp)
  | uploading uploads =>
    have none_yet := sound.job.resolve_left (by simp)
    refine ⟨valid, UploadsSound.edited sound.phase, .inr none_yet, ?_⟩
    intro completed
    exact absurd (none_yet.symm.trans completed) (by simp)

theorem validTree_filter (valid : ValidTree tree) (p : SourceFile → Bool) : ValidTree (tree.filter p) := by
  refine ⟨fun f member => valid.1 f (mem_filter.mp member).1, fun f first g second => ?_⟩
  exact valid.2 f (mem_filter.mp first).1 g (mem_filter.mp second).1

theorem scan_takes {unreadable : List (List Text)} (valid : ValidTree s.tree) (member : file ∈ s.tree)
    (covered : Covered roots file) (found : FoundAgain s.lastSnapshotTime s.store file) :
    HasCopy s.store file ∨ Unreadable unreadable file ∨ ∃ b ∈ collectBackupFilesFromPaths roots
      (s.tree.filter fun file => ¬Unreadable unreadable file) s.lastSnapshotTime,
        b.sourcePath = sourcePathOf file.path := by
  rcases found with included | copy
  · by_cases hidden : Unreadable unreadable file
    · exact .inr (.inl hidden)
    · have readable : file ∈ s.tree.filter fun file => ¬Unreadable unreadable file :=
        mem_filter.mpr ⟨member, decide_eq_true hidden⟩
      obtain ⟨b, taken, source, -⟩ := collected (validTree_filter valid _) readable covered included
      exact .inr (.inr ⟨b, taken, source⟩)
  · exact .inl copy

theorem StillHas.hasCopy {store : Store} (still : StillHas tree file) :
    ∃ g ∈ tree, (Covered roots file → Covered roots g) ∧ sourcePathOf g.path = sourcePathOf file.path ∧
      (∀ unreadable, Unreadable unreadable g → Unreadable unreadable file) ∧ (HasCopy store g → HasCopy store file) := by
  obtain ⟨g, member, path, content⟩ := still
  refine ⟨g, member, fun covered => ?_, congrArg sourcePathOf path, fun unreadable hidden => ?_, fun copy => ?_⟩
  · rw [Covered, path]
    exact covered
  · rw [Unreadable, ← path]
    exact hidden
  · rw [HasCopy, ← path, ← content]
    exact copy

theorem scan_sound {unreadable : List (List Text)} (sound : LiveSound roots s) (phase : s.phase = .started) :
    LiveSound roots (scanRun roots s unreadable) := by
  have started : AllFound roots s ∧ ∀ file ∈ s.steady, StillHas s.tree file := by
    have held := sound.phase
    rw [phase] at held
    exact held
  have none_yet : s.job = none := sound.job.resolve_left (by simp [phase])
  unfold scanRun
  dsimp only
  split
  · refine ⟨sound.valid, started.1, .inl rfl, fun completed => ?_⟩
    cases completed
  · refine ⟨sound.valid, ⟨fun _ member => member, started.2, started.1, ?_⟩, .inr none_yet, fun completed => ?_⟩
    · rintro file (member | member) covered
      · exact scan_takes sound.valid member covered (started.1 file member covered)
      · obtain ⟨g, present, covers, source, hides, copies⟩ := StillHas.hasCopy (started.2 file member)
        rcases scan_takes sound.valid present (covers covered) (started.1 g present (covers covered)) with
          copy | hidden | ⟨b, taken, same⟩
        · exact .inl (copies copy)
        · exact .inr (.inl (hides unreadable hidden))
        · exact .inr (.inr ⟨b, taken, same.trans source⟩)
    · exact absurd (none_yet.symm.trans completed) (by simp)

theorem readTree_still (valid : ValidTree tree) (still : StillHas tree file)
    {b : BackupFile} (source : b.sourcePath = sourcePathOf file.path) : readTree tree b = file.content := by
  obtain ⟨g, member, path, content⟩ := still
  rw [← content]
  refine readTree_eq valid member ?_
  rw [source, path]

theorem uploadNext_cases (uploads : Uploads) (file : BackupFile) (rest : List BackupFile) (fault : Option String) :
    (uploadFault s.tree file fault = none ∧ uploadNext s uploads file rest fault =
      { s with
        store := s.store.put (backupPathOf uploads.snapshot.id file.snapshotPath) (.gzip (readTree s.tree file))
        phase := .uploading
          { uploads with
            snapshot :=
              { uploads.snapshot with
                files := uploads.snapshot.files ++ [entryOf uploads.snapshot.id file]
                size := uploads.snapshot.size + file.size }
            rest := rest } }) ∨
    (∃ e, uploadFault s.tree file fault = some e ∧ uploadNext s uploads file rest fault =
      { s with
        phase := .uploading
          { uploads with
            rest := rest
            failed := uploads.failed ++ [file.sourcePath]
            errors := uploads.errors ++ ["failed to upload " ++ shown file.sourcePath ++ ": " ++ e] } }) := by
  unfold uploadNext
  cases outcome : uploadFault s.tree file fault with
  | none =>
    refine .inl ⟨rfl, ?_⟩
    simp only [uploadFile, uploaded_backupPathOf, if_true]
    rfl
  | some e =>
    refine .inr ⟨e, rfl, ?_⟩
    simp only [uploadFile, reduceCtorEq, if_false]

theorem ScanSound.mono {after : Store} (sound : ScanSound roots s scan) (kept : ∀ object ∈ s.store, object ∈ after) :
    ScanSound roots ⟨s.tree, after, s.lastSnapshotTime, phase, s.steady, s.job⟩ scan := by
  refine ⟨sound.present, sound.stays, ?_, ?_⟩
  · intro file member covered
    exact (sound.found file member covered).mono kept
  · intro file member covered
    exact (sound.inHand file member covered).imp_left (HasCopy.mono kept)

theorem ScanSound.still (sound : ScanSound roots s scan)
    (member : file ∈ scan.unchanged ∨ file ∈ s.steady) : StillHas s.tree file := by
  rcases member with unchanged | steady
  · exact ⟨file, sound.present file unchanged, rfl, rfl⟩
  · exact sound.stays file steady

theorem failed_upload_sound {file : BackupFile} {errors : List String}
    (sound : UploadsSound roots s uploads) (head : uploads.rest = file :: rest) :
    UploadsSound roots ⟨s.tree, s.store, s.lastSnapshotTime, phase, s.steady, s.job⟩
      { uploads with rest := rest, failed := uploads.failed ++ [file.sourcePath], errors := errors } := by
  refine ⟨sound.scan.mono fun _ member => member, ?_, sound.stored⟩
  intro b taken
  rcases sound.done b taken with waiting | failed | listed
  · rw [head] at waiting
    rcases mem_cons.mp waiting with rfl | later
    · exact .inr (.inl (mem_append_right _ mem_cons_self))
    · exact .inl later
  · exact .inr (.inl (mem_append_left _ failed))
  · exact .inr (.inr listed)

theorem stored_upload_sound {file : BackupFile} {size : ℕ}
    (valid : ValidTree s.tree) (sound : UploadsSound roots s uploads) (head : uploads.rest = file :: rest)
    (unused : backupPathOf uploads.snapshot.id file.snapshotPath ∉ s.store.map Object.key) : UploadsSound roots
      ⟨s.tree, s.store.put (backupPathOf uploads.snapshot.id file.snapshotPath) (.gzip (readTree s.tree file)),
        s.lastSnapshotTime, phase, s.steady, s.job⟩
      { uploads with
        snapshot :=
          { uploads.snapshot with files := uploads.snapshot.files ++ [entryOf uploads.snapshot.id file], size := size }
        rest := rest } := by
  have kept := mem_put_unused (.gzip (readTree s.tree file)) unused
  refine ⟨sound.scan.mono kept, ?_, ?_⟩
  · intro b taken
    rw [map_append]
    rcases sound.done b taken with waiting | failed | listed
    · rw [head] at waiting
      rcases mem_cons.mp waiting with rfl | later
      · exact .inr (.inr (mem_append_right _ mem_cons_self))
      · exact .inl later
    · exact .inr (.inl failed)
    · exact .inr (.inr (mem_append_left _ listed))
  · intro entry listed f member source
    rcases mem_append.mp listed with before | last
    · exact kept _ (sound.stored entry before f member source)
    · obtain rfl := mem_singleton.mp last
      rw [← readTree_still valid (sound.scan.still member) source]
      exact mem_put.mpr (.inr rfl)

theorem upload_sound {file : BackupFile} {fault : Option String}
    (sound : LiveSound roots s) (phase : s.phase = .uploading uploads) (head : uploads.rest = file :: rest)
    (safe : SafeLiveEvent roots s (.upload fault)) : LiveSound roots (uploadNext s uploads file rest fault) := by
  have held : UploadsSound roots s uploads := by
    have held := sound.phase
    rw [phase] at held
    exact held
  have none_yet : s.job = none := sound.job.resolve_left (by simp [phase])
  rcases uploadNext_cases uploads file rest fault with ⟨success, same⟩ | ⟨e, fails, same⟩
  · have unused : backupPathOf uploads.snapshot.id file.snapshotPath ∉ s.store.map Object.key := by
      simp only [SafeLiveEvent, phase, head, head?_cons, mem_some_iff] at safe
      exact safe file rfl success
    rw [same]
    refine ⟨sound.valid, stored_upload_sound sound.valid held head unused, .inr none_yet, fun completed => ?_⟩
    exact absurd (none_yet.symm.trans completed) (by simp)
  · rw [same]
    refine ⟨sound.valid, failed_upload_sound held head, .inr none_yet, fun completed => ?_⟩
    exact absurd (none_yet.symm.trans completed) (by simp)

theorem copy_of_entry (sound : UploadsSound roots s uploads)
    (unused : manifestKeyOf uploads.snapshot.id ∉ s.store.map Object.key)
    (member : file ∈ uploads.scan.unchanged ∨ file ∈ s.steady)
    (listed : sourcePathOf file.path ∈ uploads.snapshot.files.map SnapshotFile.sourcePath) :
    HasCopy (s.store.put (manifestKeyOf uploads.snapshot.id) (.manifest uploads.snapshot)) file := by
  obtain ⟨entry, inside, source⟩ := List.mem_map.mp listed
  refine ⟨uploads.snapshot, entry, mem_put.mpr (.inr rfl), inside, source, ?_⟩
  exact mem_put_unused _ unused _ (sound.stored entry inside file member source)

theorem copy_or_fault (sound : UploadsSound roots s uploads)
    (ended : uploads.rest = []) (unused : manifestKeyOf uploads.snapshot.id ∉ s.store.map Object.key)
    (member : file ∈ uploads.scan.unchanged ∨ file ∈ s.steady) (covered : Covered roots file) :
    HasCopy (s.store.put (manifestKeyOf uploads.snapshot.id) (.manifest uploads.snapshot)) file ∨
      Unreadable uploads.scan.unreadable file ∨ UploadFailed uploads file := by
  rcases sound.scan.inHand file member covered with copy | hidden | ⟨b, taken, source⟩
  · exact .inl (copy.mono (mem_put_unused _ unused))
  · exact .inr (.inl hidden)
  · by_cases listed : sourcePathOf file.path ∈ uploads.snapshot.files.map SnapshotFile.sourcePath
    · exact .inl (copy_of_entry sound unused member listed)
    · have done := sound.done b taken
      rw [ended, source] at done
      rcases done with waiting | failed | uploaded
      · cases waiting
      · exact .inr (.inr ⟨failed, listed⟩)
      · exact absurd uploaded listed

theorem finish_sound {fault : Option String} (sound : LiveSound roots s)
    (phase : s.phase = .uploading uploads) (ended : uploads.rest = [])
    (safe : SafeLiveEvent roots s (.finish fault)) : LiveSound roots (finishRun s uploads fault) := by
  have held : UploadsSound roots s uploads := by
    have held := sound.phase
    rw [phase] at held
    exact held
  simp only [SafeLiveEvent, phase] at safe
  obtain ⟨changed, safe⟩ := safe
  unfold nextCutoff at changed
  unfold finishRun
  dsimp only
  by_cases nothing : uploads.snapshot.files = []
  · rw [if_pos nothing] at changed ⊢
    refine ⟨sound.valid, fun file member covered => ?_, .inl rfl, fun completed => by cases completed⟩
    by_cases unchanged : file ∈ uploads.scan.unchanged
    · exact held.scan.found file unchanged covered
    · exact changed file member covered unchanged
  · have safe := safe nothing
    have cutoff : nextCutoff s uploads = max s.lastSnapshotTime uploads.snapshot.timestamp := if_neg nothing
    rw [if_neg nothing] at changed ⊢
    cases fault with
    | some e =>
      refine ⟨sound.valid, fun file member covered => ?_, .inl rfl, fun completed => by cases completed⟩
      by_cases unchanged : file ∈ uploads.scan.unchanged
      · have again := safe.manifest (some_ne_none e) file unchanged covered
        rw [cutoff] at again
        exact again
      · exact changed file member covered unchanged
    | none =>
      have unused := safe.unused rfl
      have kept := mem_put_unused (.manifest uploads.snapshot) unused
      refine ⟨sound.valid, fun file member covered => ?_, .inl rfl, fun completed file member covered => ?_⟩
      · by_cases unchanged : file ∈ uploads.scan.unchanged
        · rcases copy_or_fault held ended unused (.inl unchanged) covered with copy | hidden | failed
          · exact .inr copy
          · have again := safe.unreadable file unchanged covered hidden
            rw [cutoff] at again
            exact again.mono kept
          · have again := safe.failed file unchanged covered failed
            rw [cutoff] at again
            exact again.mono kept
        · exact (changed file member covered unchanged).mono kept
      · have readable : uploads.scan.unreadable = [] :=
          map_eq_nil_iff.mp (congrArg JobReport.errors (some.inj completed))
        rcases copy_or_fault held ended unused (.inr member) covered with copy | ⟨p, hidden, -⟩ | failed
        · exact copy
        · rw [readable] at hidden
          cases hidden
        · exact (safe.reported rfl readable file member covered failed).mono kept

theorem begin_sound (sound : LiveSound roots s) (phase : s.phase = .idle) :
    LiveSound roots { s with phase := .started, steady := s.tree, job := none } := by
  have found : AllFound roots s := by
    have held := sound.phase
    rw [phase] at held
    exact held
  refine ⟨sound.valid, ⟨found, fun file member => ⟨file, member, rfl, rfl⟩⟩, .inr rfl, fun completed => ?_⟩
  cases completed

theorem stamp_sound (sound : LiveSound roots s) (phase : s.phase = .scanned scan) (snapshot : Snapshot)
    (new : snapshot.files = []) :
    LiveSound roots { s with phase := .uploading ⟨scan, snapshot, scan.files, [], []⟩ } := by
  have held : ScanSound roots s scan := by
    have held := sound.phase
    rw [phase] at held
    exact held
  refine ⟨sound.valid, ⟨held.mono fun _ member => member, fun b taken => .inl taken, ?_⟩, ?_, sound.reported⟩
  · intro entry listed
    rw [new] at listed
    cases listed
  · exact .inr (sound.job.resolve_left (by simp [phase]))

theorem liveStep_sound {event : LiveEvent} (sound : LiveSound roots s) (safe : SafeLiveEvent roots s event)
    (stepped : liveStep roots s event = some next) : LiveSound roots next := by
  unfold liveStep at stepped
  split at stepped
  · split_ifs at stepped with valid
    cases stepped
    exact edit_sound sound valid safe
  next phase =>
    split_ifs at stepped
    cases stepped
    exact begin_sound sound phase
  next phase =>
    cases stepped
    exact scan_sound sound phase
  next phase =>
    split_ifs at stepped
    cases stepped
    exact stamp_sound sound phase _ rfl
  next phase =>
    split at stepped
    · cases stepped
    next head =>
      cases stepped
      exact upload_sound sound phase head safe
  next phase =>
    split_ifs at stepped with ended
    cases stepped
    exact finish_sound sound phase ended safe
  · cases stepped

theorem newLiveManager_sound (roots : List (List Text)) : LiveSound roots newLiveManager := by
  refine ⟨⟨?_, ?_⟩, ?_, .inl rfl, fun completed => by cases completed⟩
  · exact fun _ member => absurd member not_mem_nil
  · exact fun _ member => absurd member not_mem_nil
  · exact fun _ member => absurd member not_mem_nil

end Steps

/-- In a run of safe steps, whenever a call has reported success every file that stayed during it is stored. -/
theorem safe_calls_skip_nothing (roots : List (List Text)) (events : List LiveEvent) (s : LiveManager)
    (safe : Meets (liveStep roots) (SafeLiveEvent roots) newLiveManager events)
    (reached : run (liveStep roots) newLiveManager events = some s) : NothingSkipped roots s :=
  (run_invariant (fun _ _ _ => liveStep_sound) (newLiveManager_sound roots) safe reached).reported

section Whole
variable {roots : List (List Text)} {provider : Provider}

def uploadEvent (provider : Provider) (id : Text) (file : BackupFile) : LiveEvent :=
  .upload (provider.uploadError (backupPathOf id file.snapshotPath))

def wholeRun (provider : Provider) (drawn : Text) (now : ℤ) (files : List BackupFile) : List LiveEvent :=
  [.begin, .scan [], .stamp drawn now] ++ files.map (uploadEvent provider (newSnapshotID drawn)) ++
    [.finish (provider.uploadError (manifestKeyOf (newSnapshotID drawn)))]

theorem uploadFile_id (read : BackupFile → Bytes) (c : Creation) (file : BackupFile) :
    (uploadFile provider read c file).snapshot.id = c.snapshot.id := by
  unfold uploadFile
  dsimp only
  split <;> rfl

theorem foldl_uploadFile_id (read : BackupFile → Bytes) (files : List BackupFile) (c : Creation) :
    (files.foldl (uploadFile provider read) c).snapshot.id = c.snapshot.id := by
  induction files generalizing c with
  | nil => rfl
  | cons file files ih => exact (ih _).trans (uploadFile_id read c file)

theorem run_uploads (roots : List (List Text)) (provider : Provider) (files : List BackupFile) (s : LiveManager)
    (scan : Scan) (failed : List Text) (snapshot : Snapshot) (errors : List String) (events : List LiveEvent)
    (present : ∀ file ∈ files, ∃ f ∈ s.tree, sourcePathOf f.path = file.sourcePath) :
    let c := files.foldl (uploadFile provider (readTree s.tree)) ⟨snapshot, errors, s.store⟩
    ∃ failed', run (liveStep roots) { s with phase := .uploading ⟨scan, snapshot, files, failed, errors⟩ }
        (files.map (uploadEvent provider snapshot.id) ++ events) = run (liveStep roots)
        { s with store := c.store, phase := .uploading ⟨scan, c.snapshot, [], failed', c.errors⟩ } events := by
  induction files generalizing s failed snapshot errors with
  | nil => exact ⟨failed, rfl⟩
  | cons file files ih =>
    rw [forall_mem_cons] at present
    have opened : ∀ fault, uploadFault s.tree file fault = fault := fun fault => if_pos present.1
    let c := uploadFile provider (readTree s.tree) ⟨snapshot, errors, s.store⟩ file
    obtain ⟨failed', rest⟩ := ih ⟨s.tree, c.store, s.lastSnapshotTime, s.phase, s.steady, s.job⟩
      (if provider.uploadError (backupPathOf snapshot.id file.snapshotPath) = none then failed
        else failed ++ [file.sourcePath]) c.snapshot c.errors present.2
    refine ⟨failed', ?_⟩
    have same : c.snapshot.id = snapshot.id := uploadFile_id (readTree s.tree) ⟨snapshot, errors, s.store⟩ file
    rw [same] at rest
    have stepped : liveStep roots { s with phase := .uploading ⟨scan, snapshot, file :: files, failed, errors⟩ }
        (uploadEvent provider snapshot.id file) =
          some ⟨s.tree, c.store, s.lastSnapshotTime, .uploading ⟨scan, c.snapshot, files,
            if provider.uploadError (backupPathOf snapshot.id file.snapshotPath) = none then failed
              else failed ++ [file.sourcePath], c.errors⟩, s.steady, s.job⟩ := by
      simp only [liveStep, uploadEvent, uploadNext, opened, c]
      rfl
    rw [map_cons, cons_append, run, stepped, bind_some]
    exact rest

theorem scanRun_all (roots : List (List Text)) (s : LiveManager)
    (some_file : collectBackupFilesFromPaths roots s.tree s.lastSnapshotTime ≠ []) :
    scanRun roots s [] = { s with
      phase := .scanned ⟨[], collectBackupFilesFromPaths roots s.tree s.lastSnapshotTime, s.tree⟩ } := by
  have readable : (s.tree.filter fun file => ¬Unreadable [] file) = s.tree := by
    refine filter_eq_self.mpr fun file _ => decide_eq_true ?_
    rintro ⟨p, listed, -⟩
    cases listed
  unfold scanRun
  dsimp only
  rw [readable, if_neg some_file]

theorem runBackup_found (sorter : TimeSort) (config : BackupConfig) (off : config.retention ≤ 0) (id : Text) (now : ℤ)
    (m : ManagerState) (some_root : config.paths ≠ []) (some_file : filesOf config m ≠ []) {c : Creation}
    (created : (filesOf config m).foldl (uploadFile provider (readTree m.tree)) ⟨⟨id, now, [], 0⟩, [], m.store⟩ = c) :
    runBackup sorter config provider id now m =
      if c.snapshot.files = [] then { m with store := c.store, status := some .failed, scanned := m.tree }
      else
        { m with
          store :=
            if provider.uploadError (manifestKeyOf id) = none then c.store.put (manifestKeyOf id) (.manifest c.snapshot)
            else c.store
          lastSnapshotTime := max m.lastSnapshotTime c.snapshot.timestamp
          status := some (if provider.uploadError (manifestKeyOf id) = none then .completed else .failed)
          scanned := m.tree } := by
  have collects : collectBackupFilesFromPaths config.paths m.tree m.lastSnapshotTime = filesOf config m := rfl
  have kept : ∀ store, enforceRetention sorter config provider store = store := fun store => if_neg (by omega)
  unfold runBackup createSnapshotContext
  rw [if_neg some_root, collects]
  dsimp only
  rw [if_neg some_file, if_neg some_file, created]
  by_cases nothing : c.snapshot.files = []
  · rw [if_pos nothing, if_pos nothing]
  · rw [if_neg nothing, if_neg nothing]
    cases fault : provider.uploadError (manifestKeyOf id) with
    | none => simp only [kept, if_true]
    | some e => simp only [kept, reduceCtorEq, if_false, cons_ne_nil]

theorem run_wholeRun (sorter : TimeSort) (config : BackupConfig) (off : config.retention ≤ 0) (drawn : Text)
    (plain : '/' ∉ drawn) (now : ℤ) (m : ManagerState) (some_root : config.paths ≠ [])
    (some_file : filesOf config m ≠ []) (steady : List SourceFile) (job : Option JobReport) :
    ∃ s, run (liveStep config.paths) ⟨m.tree, m.store, m.lastSnapshotTime, .idle, steady, job⟩
        (wholeRun provider drawn now (filesOf config m)) = some s ∧
      s.store = (runBackup sorter config provider (newSnapshotID drawn) now m).store ∧
      s.lastSnapshotTime = (runBackup sorter config provider (newSnapshotID drawn) now m).lastSnapshotTime ∧
      s.job.map JobReport.status = (runBackup sorter config provider (newSnapshotID drawn) now m).status := by
  have present : ∀ file ∈ filesOf config m, ∃ f ∈ m.tree, sourcePathOf f.path = file.sourcePath := by
    intro file member
    obtain ⟨root, idx, f, -, inside, -, rfl⟩ := mem_collect member
    exact ⟨f, inside, rfl⟩
  have scanned := scanRun_all config.paths ⟨m.tree, m.store, m.lastSnapshotTime, .started, m.tree, none⟩ some_file
  have started : run (liveStep config.paths) ⟨m.tree, m.store, m.lastSnapshotTime, .idle, steady, job⟩
      (wholeRun provider drawn now (filesOf config m)) = run (liveStep config.paths)
      ⟨m.tree, m.store, m.lastSnapshotTime,
        .uploading ⟨⟨[], filesOf config m, m.tree⟩, ⟨newSnapshotID drawn, now, [], 0⟩, filesOf config m, [], []⟩,
        m.tree, none⟩
      ((filesOf config m).map (uploadEvent provider (newSnapshotID drawn)) ++
        [.finish (provider.uploadError (manifestKeyOf (newSnapshotID drawn)))]) := by
    simp only [wholeRun, cons_append, nil_append, run, liveStep, if_neg some_root, bind_some, scanned, if_neg plain]
    rfl
  obtain ⟨failed, uploaded⟩ := run_uploads config.paths provider (filesOf config m)
    ⟨m.tree, m.store, m.lastSnapshotTime, .started, m.tree, none⟩ ⟨[], filesOf config m, m.tree⟩ []
    ⟨newSnapshotID drawn, now, [], 0⟩ [] [.finish (provider.uploadError (manifestKeyOf (newSnapshotID drawn)))] present
  let c := (filesOf config m).foldl (uploadFile provider (readTree m.tree))
    ⟨⟨newSnapshotID drawn, now, [], 0⟩, [], m.store⟩
  have same : c.snapshot.id = newSnapshotID drawn := foldl_uploadFile_id _ _ _
  refine ⟨finishRun ⟨m.tree, c.store, m.lastSnapshotTime, .uploading ⟨⟨[], filesOf config m, m.tree⟩, c.snapshot, [],
    failed, c.errors⟩, m.tree, none⟩ ⟨⟨[], filesOf config m, m.tree⟩, c.snapshot, [], failed, c.errors⟩
    (provider.uploadError (manifestKeyOf (newSnapshotID drawn))), started.trans uploaded, ?_⟩
  rw [runBackup_found sorter config off _ now m some_root some_file (c := c) rfl]
  unfold finishRun
  dsimp only
  by_cases nothing : c.snapshot.files = []
  · rw [if_pos nothing, if_pos nothing]
    exact ⟨rfl, rfl, rfl⟩
  · rw [if_neg nothing, if_neg nothing]
    cases fault : provider.uploadError (manifestKeyOf (newSnapshotID drawn)) with
    | none =>
      refine ⟨?_, rfl, rfl⟩
      dsimp only
      rw [same, if_pos rfl]
    | some e =>
      refine ⟨?_, rfl, rfl⟩
      dsimp only
      rw [if_neg (some_ne_none e)]

end Whole

def dataRoot : List (List Text) := [["data".toList]]

def oneFile : ManagerState := ⟨[fileAt "ledger" [1] 1], [], 0, 0, 0, none, []⟩

theorem run_wholeRun_ledger : ∃ s, run (liveStep dataRoot) ⟨oneFile.tree, [], 0, .idle, [], none⟩
      (wholeRun {} "one".toList 2 (filesOf ⟨dataRoot, 0⟩ oneFile)) = some s ∧
    s.store = (runBackup stableSort ⟨dataRoot, 0⟩ {} (newSnapshotID "one".toList) 2 oneFile).store := by
  obtain ⟨s, reached, stored, -⟩ := @run_wholeRun {} stableSort ⟨dataRoot, 0⟩ (by decide) "one".toList (by decide) 2
    oneFile (by decide) (by decide) [] none
  exact ⟨s, reached, stored⟩

/-- Both files are uploaded, and one of them changes while the run goes on. -/
def busyCalls : List LiveEvent :=
  [.edit [fileAt "ledger" [1] 1, fileAt "letter" [2] 1], .begin, .scan [], .stamp "one".toList 2, .upload none,
    .edit [fileAt "ledger" [1] 1, fileAt "letter" [3] 3], .upload none, .finish none,
    .begin, .scan [], .stamp "two".toList 4, .upload none, .finish none]

def lostUpload : List LiveEvent :=
  [.edit [fileAt "ledger" [1] 1, fileAt "letter" [2] 1], .begin, .scan [], .stamp "one".toList 2,
    .upload (some "timeout"), .upload none, .finish none]

/-- A file appears after the scan and before the snapshot draws its time; the next run takes a later one. -/
def lateFile : List LiveEvent :=
  [.edit [fileAt "ledger" [1] 1], .begin, .scan [], .edit [fileAt "ledger" [1] 1, fileAt "letter" [2] 2],
    .stamp "one".toList 3, .upload none, .finish none,
    .edit [fileAt "ledger" [4] 4, fileAt "letter" [2] 2], .begin, .scan [], .stamp "two".toList 5, .upload none,
    .finish none]

instance decidableSafeFinish (roots : List (List Text)) (s : LiveManager) (uploads : Uploads) (fault : Option String) :
    Decidable (SafeFinish roots s uploads fault) :=
  decidable_of_iff
    ((∀ file ∈ uploads.scan.unchanged, Covered roots file → Unreadable uploads.scan.unreadable file →
        FoundAgain (nextCutoff s uploads) s.store file) ∧
      (∀ file ∈ uploads.scan.unchanged, Covered roots file → UploadFailed uploads file →
        FoundAgain (nextCutoff s uploads) s.store file) ∧
      (fault ≠ none → ∀ file ∈ uploads.scan.unchanged, Covered roots file →
        FoundAgain (nextCutoff s uploads) s.store file) ∧
      (fault = none → uploads.scan.unreadable = [] → ∀ file ∈ s.steady, Covered roots file →
        UploadFailed uploads file → HasCopy s.store file) ∧
      (fault = none → manifestKeyOf uploads.snapshot.id ∉ s.store.map Object.key))
    ⟨fun ⟨a, b, c, d, e⟩ => ⟨a, b, c, d, e⟩, fun safe =>
      ⟨safe.unreadable, safe.failed, safe.manifest, safe.reported, safe.unused⟩⟩

instance decidableSafeLiveEvent (roots : List (List Text)) (s : LiveManager) (event : LiveEvent) :
    Decidable (SafeLiveEvent roots s event) := by
  unfold SafeLiveEvent
  split <;> infer_instance

theorem busy_calls_skip_nothing :
    ∃ s, run (liveStep dataRoot) newLiveManager busyCalls = some s ∧ s.job = some ⟨.completed, []⟩ ∧
      NothingSkipped dataRoot s := by
  have job : (run (liveStep dataRoot) newLiveManager busyCalls).map LiveManager.job = some (some ⟨.completed, []⟩) := by
    decide +kernel
  obtain ⟨s, reached, completed⟩ := map_eq_some_iff.mp job
  refine ⟨s, reached, completed, ?_⟩
  exact safe_calls_skip_nothing dataRoot busyCalls s (by decide +kernel) reached

instance decidableNothingSkipped (roots : List (List Text)) (s : LiveManager) : Decidable (NothingSkipped roots s) :=
  inferInstanceAs (Decidable (_ → ∀ file ∈ s.steady, Covered roots file → HasCopy s.store file))

/-- Success is reported although a file was not uploaded, and although a file was passed over by two runs. -/
theorem changed_files_skipped :
    (∃ s, run (liveStep dataRoot) newLiveManager lostUpload = some s ∧ ¬NothingSkipped dataRoot s) ∧
      ∃ s, run (liveStep dataRoot) newLiveManager lateFile = some s ∧ ¬NothingSkipped dataRoot s := by
  have outcome : ∀ events ∈ [lostUpload, lateFile], (run (liveStep dataRoot) newLiveManager events).map
      (fun s => decide (NothingSkipped dataRoot s)) = some false := by decide +kernel
  have reached : ∀ events ∈ [lostUpload, lateFile], ∃ s, run (liveStep dataRoot) newLiveManager events = some s ∧
      ¬NothingSkipped dataRoot s := by
    intro events listed
    obtain ⟨s, found, skipped⟩ := map_eq_some_iff.mp (outcome events listed)
    exact ⟨s, found, of_decide_eq_false skipped⟩
  exact ⟨reached lostUpload (by simp), reached lateFile (by simp)⟩

end RemudaRmm.Backup
