import RemudaRmm.Endpoint.UpdateManifest

/-! The update of the agent on Linux (`updater.go`): the download, the backup of the old binary, its replacement and the
rollback, over the three files they touch. Any operation may fail, and a copy after any of its bytes. -/
namespace RemudaRmm.Endpoint
open Foundation Function

inductive UpdateFile where
  | binaryPath
  | backupPath
  | tempPath
  deriving DecidableEq

abbrev UpdateDisk := UpdateFile → Option Bytes

inductive Errno where
  | erofs
  | eacces
  | eperm
  | etxtbsy
  | enoent
  | other (n : ℕ)
  deriving DecidableEq

structure CopyFaults where
  openSource : Option Errno := none
  create : Option Errno := none
  copy : Option (Errno × ℕ) := none
  chmod : Option Errno := none

structure UpdateFaults where
  openForWrite : Option Errno := none
  closeForWrite : Option Errno := none
  createTemp : Option Errno := none
  copyTemp : Option (Errno × ℕ) := none
  statTemp : Option Errno := none
  openTemp : Option Errno := none
  hashTemp : Option Errno := none
  removeTemp : Option Errno := none
  removeBackup : Option Errno := none
  backup : CopyFaults := {}
  statBinary : Option Errno := none
  removeBinary : Option Errno := none
  replace : CopyFaults := {}
  restart : Option String := none
  statBackup : Option Errno := none
  rollbackRemove : Option Errno := none
  rollback : CopyFaults := {}

/-- What the server answers; the body of the first answer is decoded, the second one may break off (`copyTemp`). -/
structure InfoResponse where
  statusCode : ℕ
  decoded : Except String DownloadInfo
  location : Except String Text

structure BinaryResponse where
  statusCode : ℕ
  body : Bytes

structure ServerAnswers where
  info : Except String InfoResponse
  binary : Except String BinaryResponse

inductive DownloadError where
  | noAuthToken
  | request (e : String)
  | downloadInfo (e : String)
  | missingUrlOrChecksum
  | missingManifest
  | redirectLocation (e : String)
  | redirect (location : Text)
  | infoStatus (n : ℕ)
  | manifest (e : ManifestError)
  | downloadURL (e : String)
  | serverURL (e : String)
  | downloadScheme (scheme : Text)
  | serverScheme (scheme : Text)
  | host (got server : Text)
  | insecureScheme (scheme : Text)
  | schemeMismatch (got server : Text)
  | binaryStatus (n : ℕ)
  | file (e : Errno)
  | sizeMismatch (expected : ℤ) (got : ℕ)
  deriving DecidableEq

inductive ChecksumError where
  | file (e : Errno)
  | mismatch (expected got : Text)
  deriving DecidableEq

inductive RollbackError where
  | noBackup
  | file (e : Errno)
  deriving DecidableEq

/-- `rollback` in an error after the old binary may be gone: what became of the rollback, `none` where it succeeded. -/
inductive UpdateError where
  | readOnlyFS (e : Errno)
  | preflight (e : Errno)
  | download (e : DownloadError)
  | checksum (e : ChecksumError)
  | backup (e : Errno)
  | replace (e : Errno) (rollback : Option RollbackError)
  | restart (e : String) (rollback : Option RollbackError)
  deriving DecidableEq

def openFile (fault : Option Errno) (f : UpdateFile) (disk : UpdateDisk) : Except Errno Bytes :=
  match fault with
  | some e => .error e
  | none => orFail (disk f) .enoent

/-- `os.Remove` with its error ignored, and `removeCleanup`. -/
def removeFile (fault : Option Errno) (f : UpdateFile) (disk : UpdateDisk) : UpdateDisk :=
  match fault with
  | some _ => disk
  | none => update disk f none

/-- Opens the source, creates the destination, copies and sets the permissions. -/
def copyFile (faults : CopyFaults) (src dst : UpdateFile) (disk : UpdateDisk) : Except Errno Unit × UpdateDisk :=
  match openFile faults.openSource src disk with
  | .error e => (.error e, disk)
  | .ok bytes =>
    match faults.create, faults.copy, faults.chmod with
    | some e, _, _ => (.error e, disk)
    | none, some (e, n), _ => (.error e, update disk dst (some (bytes.take n)))
    | none, none, some e => (.error e, update disk dst (some bytes))
    | none, none, none => (.ok (), update disk dst (some bytes))

def ReadOnlyErr (e : Errno) : Prop := e = .erofs ∨ e = .eacces
  deriving Decidable

def normalizePreflightErr (e : Errno) : UpdateError :=
  if e = .erofs ∨ e = .eacces ∨ e = .eperm then .readOnlyFS e else .preflight e

def hexEncodeToString (bytes : Bytes) : Text :=
  bytes.flatMap fun b => [Nat.digitChar (b.toNat / 16), Nat.digitChar (b.toNat % 16)]

section Update
variable (lib : UpdateLibrary) (config : UpdateConfig) (answers : ServerAnswers) (faults : UpdateFaults)

def checkWritable (disk : UpdateDisk) : Except Errno Unit :=
  match openFile faults.openForWrite .binaryPath disk with
  | .error e => if e = .etxtbsy then .ok () else .error e
  | .ok _ => faults.closeForWrite.elim (.ok ()) .error

def parseDownloadInfo (resp : InfoResponse) : Except DownloadError DownloadInfo := do
  if resp.statusCode = 200 then
    let info ← resp.decoded.mapError .downloadInfo
    require (info.url ≠ [] ∧ info.checksum ≠ []) .missingUrlOrChecksum
    require (info.manifest ≠ [] ∧ info.manifestSignature ≠ []) .missingManifest
    return info
  else if resp.statusCode ∈ [301, 302, 303, 307, 308] then
    let location ← resp.location.mapError .redirectLocation
    throw (.redirect location)
  else throw (.infoStatus resp.statusCode)

def http : Text := "http".toList

def https : Text := "https".toList

def checkDownloadURL (rawURL : Text) : Except DownloadError Unit := do
  let parsed ← (lib.parseURL rawURL).mapError .downloadURL
  let server ← (lib.parseURL config.serverURL).mapError .serverURL
  require (parsed.scheme = https ∨ parsed.scheme = http) (.downloadScheme parsed.scheme)
  require (server.scheme = https ∨ server.scheme = http) (.serverScheme server.scheme)
  require (parsed.host = server.host) (.host parsed.host server.host)
  require (server.scheme = https → parsed.scheme = https) (.insecureScheme parsed.scheme)
  require (parsed.scheme = server.scheme ∨ (server.scheme = http ∧ parsed.scheme = https))
    (.schemeMismatch parsed.scheme server.scheme)

def downloadFromURL (rawURL : Text) (disk : UpdateDisk) : Except DownloadError Unit × UpdateDisk :=
  match checkDownloadURL lib config rawURL, answers.binary with
  | .error e, _ => (.error e, disk)
  | .ok (), .error e => (.error (.request e), disk)
  | .ok (), .ok resp =>
    if resp.statusCode ≠ 200 then (.error (.binaryStatus resp.statusCode), disk)
    else
      match faults.createTemp, faults.copyTemp with
      | some e, _ => (.error (.file e), disk)
      | none, some (e, n) =>
        (.error (.file e), removeFile faults.removeTemp .tempPath
          (update disk .tempPath (some (resp.body.take n))))
      | none, none => (.ok (), update disk .tempPath (some resp.body))

def requestManifest (version : Text) : Except DownloadError (DownloadInfo × UpdateManifest) := do
  require (config.authToken ≠ none) .noAuthToken
  let resp ← answers.info.mapError .request
  let info ← parseDownloadInfo resp
  let manifest ← (verifyUpdateManifest lib config info version).mapError .manifest
  return (info, manifest)

def downloadBinary (version : Text) (disk : UpdateDisk) : Except DownloadError UpdateManifest × UpdateDisk :=
  match requestManifest lib config answers version with
  | .error e => (.error e, disk)
  | .ok (info, manifest) =>
    match downloadFromURL lib config answers faults info.url disk with
    | (.error e, disk) => (.error e, disk)
    | (.ok (), disk) =>
      if 0 < manifest.size then
        match openFile faults.statTemp .tempPath disk with
        | .error e => (.error (.file e), removeFile faults.removeTemp .tempPath disk)
        | .ok bytes =>
          if (bytes.length : ℤ) ≠ manifest.size then
            (.error (.sizeMismatch manifest.size bytes.length), removeFile faults.removeTemp .tempPath disk)
          else (.ok manifest, disk)
      else (.ok manifest, disk)

def verifyChecksum (expectedChecksum : Text) (disk : UpdateDisk) : Except ChecksumError Unit := do
  let bytes ← (openFile faults.openTemp .tempPath disk).mapError .file
  require (faults.hashTemp = none) (.file (faults.hashTemp.getD .enoent))
  let actualChecksum := hexEncodeToString (lib.sha256 bytes)
  require (actualChecksum = expectedChecksum) (.mismatch expectedChecksum actualChecksum)

/-- The permissions are those of the binary, which is asked for them after the copy. -/
def backupCurrentBinary (disk : UpdateDisk) : Except Errno Unit × UpdateDisk :=
  copyFile { faults.backup with chmod := faults.statBinary.or faults.backup.chmod } .binaryPath .backupPath
    (removeFile faults.removeBackup .backupPath disk)

def replaceBinary (disk : UpdateDisk) : Except Errno Unit × UpdateDisk :=
  copyFile faults.replace .tempPath .binaryPath (removeFile faults.removeBinary .binaryPath disk)

def rollback (disk : UpdateDisk) : Except RollbackError Unit × UpdateDisk :=
  match openFile faults.statBackup .backupPath disk with
  | .error .enoent => (.error .noBackup, disk)
  | _ =>
    match copyFile faults.rollback .backupPath .binaryPath (removeFile faults.rollbackRemove .binaryPath disk) with
    | (.error e, disk) => (.error (.file e), disk)
    | (.ok (), disk) => (.ok (), disk)

def rolledBack (failed : Option RollbackError → UpdateError) (disk : UpdateDisk) : Except UpdateError Unit × UpdateDisk :=
  match rollback faults disk with
  | (.error e, disk) => (.error (failed (some e)), disk)
  | (.ok (), disk) => (.error (failed none), disk)

def prepareUpdate (version : Text) (disk : UpdateDisk) : Except UpdateError Unit × UpdateDisk :=
  match checkWritable faults disk with
  | .error e => (.error (normalizePreflightErr e), disk)
  | .ok () =>
    match downloadBinary lib config answers faults version disk with
    | (.error e, disk) => (.error (.download e), disk)
    | (.ok manifest, disk) =>
      match verifyChecksum lib faults manifest.checksum disk with
      | .error e => (.error (.checksum e), removeFile faults.removeTemp .tempPath disk)
      | .ok () =>
        match backupCurrentBinary faults disk with
        | (.error e, disk) => (.error (.backup e), removeFile faults.removeTemp .tempPath disk)
        | (.ok (), disk) => (.ok (), disk)

def installUpdate (disk : UpdateDisk) : Except UpdateError Unit × UpdateDisk :=
  match replaceBinary faults disk with
  | (.error e, disk) => if ReadOnlyErr e then (.error (.readOnlyFS e), disk) else rolledBack faults (.replace e) disk
  | (.ok (), disk) =>
    match faults.restart with
    | some e => rolledBack faults (.restart e) disk
    | none => (.ok (), disk)

def updateTo (version : Text) (disk : UpdateDisk) : Except UpdateError Unit × UpdateDisk :=
  match prepareUpdate lib config answers faults version disk with
  | (.error e, disk) => (.error e, disk)
  | (.ok (), disk) =>
    let installed := installUpdate faults disk
    (installed.1, removeFile faults.removeTemp .tempPath installed.2)

end Update

end RemudaRmm.Endpoint
