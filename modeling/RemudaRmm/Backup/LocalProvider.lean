import RemudaRmm.Backup.Restore

/-! The provider that keeps a backup in a directory (`local.go`). A disk gives the bytes of each file; any operation on
it may fail, and then its text is that of the error. The gzip codec is a parameter. -/
namespace RemudaRmm.Backup
open Foundation List Function Option

/-- What is read through a gzip reader: the bytes that come before the end or an error. -/
structure Unzipped where
  bytes : Bytes
  error : Option String

/-- `header` is the check of the first bytes; `overlapping` is what a reader makes of a file that is written while it is
being read. -/
structure GzipCodec where
  zip : (name : Text) → Bytes → Bytes
  header : Bytes → Option String
  unzip : Bytes → Unzipped
  overlapping : Bytes → Unzipped

structure GzipCodec.Lossless (codec : GzipCodec) : Prop where
  unzip : ∀ name bytes, codec.unzip (codec.zip name bytes) = ⟨bytes, none⟩

abbrev Disk := Text → Option Bytes

/-- The operations of one call that fail; a copy may fail after some bytes. -/
structure Faults where
  mkdir : Option String := none
  openFile : Option String := none
  stat : Option String := none
  create : Option String := none
  copy : Option (ℕ × String) := none
  close : Option String := none
  chtimes : Option String := none

inductive LocalError where
  | basePathRequired
  | localSourceRequired
  | localDestinationRequired
  | remotePathRequired
  | pathTraversal (untrusted base : Text)
  | createBackupDirectory (e : String)
  | createDestinationDirectory (e : String)
  | openSource (e : String)
  | statSource (e : String)
  | createDestination (e : String)
  | createGzipReader (e : String)
  | copyFile (e : String)
  | compressFile (e : String)
  | decompressFile (e : String)
  deriving DecidableEq

/-- The working directory, by its names. -/
structure LocalEnv where
  workDir : List Text
  names : ∀ t ∈ workDir, IsName t

/-- `filepath.Abs`. -/
def absPath (env : LocalEnv) (p : Text) : Text :=
  if p.head? = some '/' then cleanPath p else joinPath ['/' :: slashed env.workDir, p]

def containedPath (env : LocalEnv) (basePath untrustedPath : Text) : Except LocalError Text :=
  let absBase := absPath env basePath
  let absJoined := absPath env (joinPath [absBase, untrustedPath])
  if Within absBase absJoined then .ok absJoined else .error (.pathTraversal untrustedPath absBase)

def baseName (p : Text) : Text := (p.splitOn '/').getLastD []

def noSuchFile : String := "no such file or directory"

section Copy
variable (codec : GzipCodec) (faults : Faults)

/-- The file that is copied has been truncated when it is also the destination. -/
def readThrough (srcPath destPath : Text) (bytes : Bytes) : Bytes := if srcPath = destPath then [] else bytes

def copyError (times : Bool) : Option String :=
  (faults.copy.map Prod.snd).or (faults.close.or (if times then faults.chtimes else none))

def copyFileContext (disk : Disk) (srcPath destPath : Text) : Except LocalError Unit × Disk :=
  match faults.openFile, disk srcPath with
  | some e, _ => (.error (.openSource e), disk)
  | none, none => (.error (.openSource noSuchFile), disk)
  | none, some bytes =>
    match faults.stat, faults.mkdir, faults.create with
    | some e, _, _ => (.error (.statSource e), disk)
    | none, some e, _ => (.error (.createDestinationDirectory e), disk)
    | none, none, some e => (.error (.createDestination e), disk)
    | none, none, none =>
      match copyError faults true with
      | some e => (.error (.copyFile e), update disk destPath none)
      | none => (.ok (), update disk destPath (some (readThrough srcPath destPath bytes)))

def compressFileContext (disk : Disk) (srcPath destPath : Text) : Except LocalError Unit × Disk :=
  match faults.openFile, disk srcPath with
  | some e, _ => (.error (.openSource e), disk)
  | none, none => (.error (.openSource noSuchFile), disk)
  | none, some bytes =>
    match faults.stat, faults.mkdir, faults.create with
    | some e, _, _ => (.error (.statSource e), disk)
    | none, some e, _ => (.error (.createDestinationDirectory e), disk)
    | none, none, some e => (.error (.createDestination e), disk)
    | none, none, none =>
      match copyError faults false with
      | some e => (.error (.compressFile e), update disk destPath none)
      | none =>
        (.ok (), update disk destPath
          (some (codec.zip (baseName srcPath) (readThrough srcPath destPath bytes))))

/-- What is left of the bytes behind the limit, which hides an error that comes after it. -/
def limitReader (limit : ℕ) (read : Unzipped) : Unzipped :=
  if limit ≤ read.bytes.length then ⟨read.bytes.take limit, none⟩ else read

def decompressFile (disk : Disk) (srcPath destPath : Text) : Except LocalError Unit × Disk :=
  match faults.openFile, disk srcPath with
  | some e, _ => (.error (.openSource e), disk)
  | none, none => (.error (.openSource noSuchFile), disk)
  | none, some bytes =>
    match codec.header bytes, faults.mkdir, faults.create with
    | some e, _, _ => (.error (.createGzipReader e), disk)
    | none, some e, _ => (.error (.createDestinationDirectory e), disk)
    | none, none, some e => (.error (.createDestination e), disk)
    | none, none, none =>
      let read := limitReader maxDecompressSize
        (if srcPath = destPath then codec.overlapping bytes else codec.unzip bytes)
      match faults.copy, (read.error.or faults.close) with
      | some (written, e), _ =>
        (.error (.decompressFile e), update disk destPath (some (read.bytes.take written)))
      | none, some e => (.error (.decompressFile e), update disk destPath (some read.bytes))
      | none, none => (.ok (), update disk destPath (some read.bytes))

end Copy

section Provider
variable (env : LocalEnv) (codec : GzipCodec) (faults : Faults) (basePath : Text)

def localUpload (disk : Disk) (localPath remotePath : Text) : Except LocalError Unit × Disk :=
  if basePath = [] then (.error .basePathRequired, disk)
  else if localPath = [] then (.error .localSourceRequired, disk)
  else if remotePath = [] then (.error .remotePathRequired, disk)
  else
    match containedPath env basePath remotePath, faults.mkdir with
    | .error e, _ => (.error e, disk)
    | .ok _, some e => (.error (.createBackupDirectory e), disk)
    | .ok destPath, none =>
      if ".gz".toList.isSuffixOf remotePath then
        compressFileContext codec faults disk (absPath env localPath) destPath
      else copyFileContext faults disk (absPath env localPath) destPath

def localDownload (disk : Disk) (remotePath localPath : Text) : Except LocalError Unit × Disk :=
  if basePath = [] then (.error .basePathRequired, disk)
  else if remotePath = [] then (.error .remotePathRequired, disk)
  else if localPath = [] then (.error .localDestinationRequired, disk)
  else
    match containedPath env basePath remotePath, faults.mkdir with
    | .error e, _ => (.error e, disk)
    | .ok _, some e => (.error (.createDestinationDirectory e), disk)
    | .ok srcPath, none =>
      if ".gz".toList.isSuffixOf remotePath then
        decompressFile codec faults disk srcPath (absPath env localPath)
      else copyFileContext faults disk srcPath (absPath env localPath)

end Provider

section Copied
variable {codec : GzipCodec} {faults : Faults} {disk after : Disk} {srcPath destPath : Text}

theorem copyFileContext_ok (copied : copyFileContext faults disk srcPath destPath = (.ok (), after)) :
    ∃ bytes, disk srcPath = some bytes ∧ after = update disk destPath (some (readThrough srcPath destPath bytes)) := by
  unfold copyFileContext at copied
  split at copied
  · cases copied
  · cases copied
  next bytes ready held =>
    refine ⟨bytes, held, ?_⟩
    split at copied
    · cases copied
    · cases copied
    · cases copied
    · split at copied
      · cases copied
      · exact (congrArg Prod.snd copied).symm

theorem compressFileContext_ok (compressed : compressFileContext codec faults disk srcPath destPath = (.ok (), after)) :
    ∃ bytes, disk srcPath = some bytes ∧ after = update disk destPath
        (some (codec.zip (baseName srcPath) (readThrough srcPath destPath bytes))) := by
  unfold compressFileContext at compressed
  split at compressed
  · cases compressed
  · cases compressed
  next bytes ready held =>
    refine ⟨bytes, held, ?_⟩
    split at compressed
    · cases compressed
    · cases compressed
    · cases compressed
    · split at compressed
      · cases compressed
      · exact (congrArg Prod.snd compressed).symm

def unzipped (codec : GzipCodec) (srcPath destPath : Text) (bytes : Bytes) : Unzipped :=
  limitReader maxDecompressSize (if srcPath = destPath then codec.overlapping bytes else codec.unzip bytes)

theorem decompressFile_ok (decompressed : decompressFile codec faults disk srcPath destPath = (.ok (), after)) :
    ∃ bytes, disk srcPath = some bytes ∧
      after = update disk destPath (some (unzipped codec srcPath destPath bytes).bytes) := by
  unfold decompressFile at decompressed
  split at decompressed
  · cases decompressed
  · cases decompressed
  next bytes ready held =>
    refine ⟨bytes, held, ?_⟩
    split at decompressed
    · cases decompressed
    · cases decompressed
    · cases decompressed
    · dsimp only at decompressed
      split at decompressed
      · cases decompressed
      · cases decompressed
      · exact (congrArg Prod.snd decompressed).symm

end Copied

section RoundTrip
variable {env : LocalEnv} {codec : GzipCodec} {up down : Faults} {basePath : Text} {disk stored fetched : Disk}
  {f p g : Text} {bytes : Bytes}
variable {destPath srcPath : Text}

def storedPath (env : LocalEnv) (basePath remotePath : Text) : Text :=
  absPath env (joinPath [absPath env basePath, remotePath])

theorem containedPath_ok (contained : containedPath env basePath p = .ok destPath) :
    destPath = storedPath env basePath p := by
  unfold containedPath at contained
  dsimp only at contained
  split at contained
  · exact (Except.ok.inj contained).symm
  · cases contained

def kept (env : LocalEnv) (codec : GzipCodec) (basePath f p : Text) (bytes : Bytes) : Bytes :=
  let through := readThrough (absPath env f) (storedPath env basePath p) bytes
  if ".gz".toList.isSuffixOf p then codec.zip (baseName (absPath env f)) through else through

theorem localUpload_ok (sent : localUpload env codec up basePath disk f p = (.ok (), stored)) :
    ∃ bytes, disk (absPath env f) = some bytes ∧
      stored = update disk (storedPath env basePath p) (some (kept env codec basePath f p bytes)) := by
  unfold localUpload at sent
  split at sent
  · cases sent
  split at sent
  · cases sent
  split at sent
  · cases sent
  split at sent
  · cases sent
  · cases sent
  next destPath contained made =>
    rw [containedPath_ok contained] at sent
    unfold kept
    dsimp only
    split at sent
    next ends =>
      simp only [if_pos ends]
      exact compressFileContext_ok sent
    next ends =>
      simp only [if_neg ends]
      exact copyFileContext_ok sent

def opened (env : LocalEnv) (codec : GzipCodec) (basePath p g : Text) (bytes : Bytes) : Bytes :=
  if ".gz".toList.isSuffixOf p then (unzipped codec (storedPath env basePath p) (absPath env g) bytes).bytes
  else readThrough (storedPath env basePath p) (absPath env g) bytes

theorem localDownload_ok (received : localDownload env codec down basePath stored p g = (.ok (), fetched)) :
    ∃ bytes, stored (storedPath env basePath p) = some bytes ∧
      fetched = update stored (absPath env g) (some (opened env codec basePath p g bytes)) := by
  unfold localDownload at received
  split at received
  · cases received
  split at received
  · cases received
  split at received
  · cases received
  split at received
  · cases received
  · cases received
  next srcPath contained made =>
    rw [containedPath_ok contained] at received
    unfold opened
    split at received
    next ends =>
      simp only [if_pos ends]
      exact decompressFile_ok received
    next ends =>
      simp only [if_neg ends]
      exact copyFileContext_ok received

/-- A download that is written over the stored file itself gets what the codec reads of a file that is being
overwritten. -/
structure KeepsBytes (env : LocalEnv) (codec : GzipCodec) (basePath f p g : Text) (bytes : Bytes) : Prop where
  small : ".gz".toList <:+ p → bytes.length ≤ maxDecompressSize
  source : storedPath env basePath p ≠ absPath env g → absPath env f = storedPath env basePath p → bytes = []
  plain : storedPath env basePath p = absPath env g → ¬".gz".toList <:+ p → bytes = []
  overwritten : storedPath env basePath p = absPath env g → ".gz".toList <:+ p →
    (limitReader maxDecompressSize (codec.overlapping
      (codec.zip (baseName (absPath env f)) (readThrough (absPath env f) (storedPath env basePath p) bytes)))).bytes =
        bytes

theorem readThrough_eq_iff : readThrough srcPath destPath bytes = bytes ↔ (srcPath = destPath → bytes = []) := by
  unfold readThrough
  by_cases same : srcPath = destPath
  · rw [if_pos same]
    exact ⟨fun h _ => h.symm, fun h => (h same).symm⟩
  · rw [if_neg same]
    exact ⟨fun _ h => absurd h same, fun _ => rfl⟩

theorem limitReader_bytes (limit : ℕ) (read : Unzipped) : (limitReader limit read).bytes = read.bytes.take limit := by
  unfold limitReader
  split
  · rfl
  next short => exact (take_of_length_le (by omega)).symm

theorem readThrough_readThrough {middle : Text} (apart : middle ≠ destPath) :
    readThrough middle destPath (readThrough srcPath middle bytes) = readThrough srcPath middle bytes := by
  rw [readThrough, if_neg apart]

theorem opened_apart (lossless : codec.Lossless) (apart : storedPath env basePath p ≠ absPath env g) :
    opened env codec basePath p g (kept env codec basePath f p bytes) = if ".gz".toList.isSuffixOf p then
        (readThrough (absPath env f) (storedPath env basePath p) bytes).take maxDecompressSize
      else readThrough (absPath env f) (storedPath env basePath p) bytes := by
  unfold opened kept
  dsimp only
  split
  · rw [unzipped, if_neg apart, limitReader_bytes, lossless.unzip]
  · exact readThrough_readThrough apart

theorem take_readThrough_eq_iff (limit : ℕ) : (readThrough srcPath destPath bytes).take limit = bytes ↔
      bytes.length ≤ limit ∧ (srcPath = destPath → bytes = []) := by
  rw [← readThrough_eq_iff]
  constructor
  · intro same
    have short : bytes.length ≤ limit := by
      rw [← same]
      exact length_take_le _ _
    refine ⟨short, ?_⟩
    unfold readThrough at same ⊢
    split at same
    next equal =>
      rw [if_pos equal]
      simpa using same
    next different => exact if_neg different
  · rintro ⟨short, same⟩
    rw [same]
    exact take_of_length_le short

theorem opened_kept_iff (lossless : codec.Lossless) :
    opened env codec basePath p g (kept env codec basePath f p bytes) = bytes ↔
      KeepsBytes env codec basePath f p g bytes := by
  by_cases same : storedPath env basePath p = absPath env g
  · by_cases ends : ".gz".toList <:+ p
    · have compressed := List.isSuffixOf_iff_suffix.mpr ends
      rw [opened, if_pos compressed, unzipped, if_pos same, kept]
      simp only [if_pos compressed]
      constructor
      · intro whole
        refine ⟨fun _ => ?_, fun apart => absurd same apart, fun _ plain => absurd ends plain, fun _ _ => whole⟩
        rw [← whole, limitReader_bytes]
        exact length_take_le _ _
      · intro keeps
        exact keeps.overwritten same ends
    · have plain : ¬".gz".toList.isSuffixOf p := fun h => ends (List.isSuffixOf_iff_suffix.mp h)
      rw [opened, if_neg plain, readThrough, if_pos same]
      constructor
      · intro empty
        exact ⟨fun h => absurd h ends, fun apart => absurd same apart, fun _ _ => empty.symm, fun _ h => absurd h ends⟩
      · intro keeps
        exact (keeps.plain same ends).symm
  · rw [opened_apart lossless same]
    split
    next compressed =>
      have ends := List.isSuffixOf_iff_suffix.mp compressed
      rw [take_readThrough_eq_iff]
      exact ⟨fun h => ⟨fun _ => h.1, fun _ => h.2, fun equal => absurd equal same, fun equal => absurd equal same⟩,
        fun keeps => ⟨keeps.small ends, keeps.source same⟩⟩
    next plain =>
      have ends : ¬".gz".toList <:+ p := fun h => plain (List.isSuffixOf_iff_suffix.mpr h)
      rw [readThrough_eq_iff]
      exact ⟨fun h => ⟨fun h => absurd h ends, fun _ => h, fun equal => absurd equal same,
        fun equal => absurd equal same⟩, fun keeps => keeps.source same⟩

theorem round_trip_bytes (had : disk (absPath env f) = some bytes)
    (sent : localUpload env codec up basePath disk f p = (.ok (), stored))
    (received : localDownload env codec down basePath stored p g = (.ok (), fetched)) :
    fetched (absPath env g) = some (opened env codec basePath p g (kept env codec basePath f p bytes)) := by
  obtain ⟨read, held, rfl⟩ := localUpload_ok sent
  obtain rfl : bytes = read := some.inj (had.symm.trans held)
  obtain ⟨archived, there, rfl⟩ := localDownload_ok received
  rw [update_self] at there
  rw [update_self, ← some.inj there]

theorem round_trip_download (lossless : codec.Lossless) (provider : Provider) (store : Store)
    (succeeds : provider.downloadError p = none) (had : disk (absPath env f) = some bytes)
    (sent : localUpload env codec up basePath disk f p = (.ok (), stored))
    (received : localDownload env codec down basePath stored p g = (.ok (), fetched))
    (from_elsewhere : absPath env f ≠ storedPath env basePath p)
    (to_elsewhere : storedPath env basePath p ≠ absPath env g) :
    fetched (absPath env g) = download provider (store.put p (uploaded p bytes)) p := by
  rw [round_trip_bytes had sent received, opened_apart lossless to_elsewhere, readThrough, if_neg from_elsewhere,
    download, succeeds, get_put_self, uploaded]
  by_cases compressed : ".gz".toList.isSuffixOf p
  · simp only [if_pos compressed]
  · simp only [if_neg compressed]

/-- Two calls that succeed bring the bytes back exactly when nothing is cut off or truncated. -/
theorem local_round_trip_iff (lossless : codec.Lossless) (had : disk (absPath env f) = some bytes)
    (sent : localUpload env codec up basePath disk f p = (.ok (), stored))
    (received : localDownload env codec down basePath stored p g = (.ok (), fetched)) :
    fetched (absPath env g) = some bytes ↔ KeepsBytes env codec basePath f p g bytes := by
  rw [round_trip_bytes had sent received, Option.some.injEq]
  exact opened_kept_iff lossless

end RoundTrip

def storing : GzipCodec where
  zip _ bytes := bytes
  header _ := none
  unzip bytes := ⟨bytes, none⟩
  overlapping bytes := ⟨bytes, none⟩

theorem storing_lossless : storing.Lossless := ⟨fun _ _ => rfl⟩

def rootEnv : LocalEnv := ⟨[], fun _ member => absurd member not_mem_nil⟩

def vaultPath : Text := "/vault".toList

def mailPath : Text := "/mail".toList

def returnedPath : Text := "/back".toList

def mailKey : Text := "mail.gz".toList

def mailDisk (bytes : Bytes) : Disk := fun path => if path = mailPath then some bytes else none

theorem mail_contained : containedPath rootEnv vaultPath mailKey = .ok (storedPath rootEnv vaultPath mailKey) := by
  decide

theorem mail_apart : mailPath ≠ storedPath rootEnv vaultPath mailKey := by decide

theorem returned_apart : storedPath rootEnv vaultPath mailKey ≠ returnedPath := by decide

theorem absPath_mail : absPath rootEnv mailPath = mailPath := by decide

theorem absPath_returned : absPath rootEnv returnedPath = returnedPath := by decide

theorem mail_given : vaultPath ≠ [] ∧ mailPath ≠ [] ∧ returnedPath ≠ [] ∧ mailKey ≠ [] := by decide

theorem gz_mailKey : ".gz".toList.isSuffixOf mailKey = true := by decide

def sentDisk (bytes : Bytes) : Disk :=
  update (mailDisk bytes) (storedPath rootEnv vaultPath mailKey) (some bytes)

theorem mail_uploaded (bytes : Bytes) :
    localUpload rootEnv storing {} vaultPath (mailDisk bytes) mailPath mailKey = (.ok (), sentDisk bytes) := by
  have had : mailDisk bytes mailPath = some bytes := if_pos rfl
  obtain ⟨vault, mail, -, key⟩ := mail_given
  simp only [localUpload, if_neg vault, if_neg mail, if_neg key, mail_contained, gz_mailKey, if_true, absPath_mail,
    compressFileContext, had, copyError, readThrough, if_neg mail_apart, storing, map_none, none_or,
    Bool.false_eq_true, if_false]
  rfl

theorem mail_downloaded (bytes : Bytes) :
    localDownload rootEnv storing {} vaultPath (sentDisk bytes) mailKey returnedPath =
      (.ok (), update (sentDisk bytes) returnedPath
        (some (limitReader maxDecompressSize ⟨bytes, none⟩).bytes)) := by
  have had : sentDisk bytes (storedPath rootEnv vaultPath mailKey) = some bytes := update_self ..
  have whole : (limitReader maxDecompressSize ⟨bytes, none⟩).error = none := by
    unfold limitReader
    split <;> rfl
  obtain ⟨vault, -, back, key⟩ := mail_given
  simp only [localDownload, if_neg vault, if_neg back, if_neg key, mail_contained, gz_mailKey, if_true,
    absPath_returned, decompressFile, had, if_neg returned_apart, storing, whole, none_or]

theorem round_trip_download_mail : update (sentDisk [104, 105]) returnedPath
      (some (limitReader maxDecompressSize ⟨[104, 105], none⟩).bytes) (absPath rootEnv returnedPath) =
    download {} (Store.put [] mailKey (uploaded mailKey [104, 105])) mailKey :=
  round_trip_download storing_lossless {} [] rfl (if_pos absPath_mail) (mail_uploaded _) (mail_downloaded _)
    (by decide) (by decide)

/-- A short file is stored and returned. -/
theorem short_mail_returned : update (sentDisk [104, 105]) returnedPath
      (some (limitReader maxDecompressSize ⟨[104, 105], none⟩).bytes) (absPath rootEnv returnedPath) = some [104, 105] :=
  (local_round_trip_iff storing_lossless (if_pos absPath_mail) (mail_uploaded _) (mail_downloaded _)).mpr
    ⟨fun _ => by decide, fun _ => by decide, by decide, by decide⟩

/-- One byte above the limit: the download succeeds and what it wrote is a proper prefix. -/
theorem long_mail_cut :
    ∃ (bytes written : Bytes) (stored fetched : Disk),
      localUpload rootEnv storing {} vaultPath (mailDisk bytes) mailPath mailKey = (.ok (), stored) ∧
      localDownload rootEnv storing {} vaultPath stored mailKey returnedPath = (.ok (), fetched) ∧
      storing.Lossless ∧ mailDisk bytes (absPath rootEnv mailPath) = some bytes ∧
      fetched (absPath rootEnv returnedPath) = some written ∧ written <+: bytes ∧ written ≠ bytes := by
  let bytes : Bytes := List.replicate (maxDecompressSize + 1) 0
  have long : bytes.length = maxDecompressSize + 1 := length_replicate
  refine ⟨bytes, bytes.take maxDecompressSize, _, _, mail_uploaded bytes, mail_downloaded bytes, storing_lossless,
    if_pos absPath_mail, ?_, List.take_prefix _ _, ?_⟩
  · rw [absPath_returned, update_self, limitReader_bytes]
  · intro same
    have cut := congrArg List.length same
    rw [length_take, long] at cut
    omega

end RemudaRmm.Backup
