import RemudaRmm.Foundation.OffsetWrites
import RemudaRmm.Foundation.SlashPath
import RemudaRmm.Endpoint.DropMessage

/-! The handler of file drops (`handler.go`): files are received by chunks, and the calls that handle messages go on at
the same time, one critical section after another. -/
namespace RemudaRmm.Endpoint.FileDrop
open Function
open Foundation JsonText

def defaultChunkSize : ℕ := 64 * 1024

def maxChunkPayloadSize : ℕ := 1 * 1024 * 1024

def maxTransferSize : ℤ := 500 * 1024 * 1024

def maxConcurrentTransfers : ℕ := 8

def completedRoom : ℕ := 8

def maxBase64EncodedLen (decodedLen : ℕ) : ℕ := (decodedLen + 2) / 3 * 4

structure ReceivedFile where
  (transferID name : Bytes)
  path : Text
  size : ℤ
  deriving DecidableEq

/-- A transfer, with all that was written to its file and what of it was accepted, the newest first. -/
structure IncomingTransfer where
  name : Bytes
  path : Text
  size : ℤ
  received : ℕ
  writes : List (Write UInt8)
  accepted : List (Write UInt8)
  deriving DecidableEq

def IncomingTransfer.content (t : IncomingTransfer) : Bytes := written 0 t.writes

inductive DropError where
  | notText | malformed | unknownType | missingTransferID | missingName | invalidName | tooLarge | noDirectory
  | unresolved | outside | notOpened | closed | duplicate | tooMany | chunkTooLarge | notBase64 | unknownTransfer
  | invalidOffset | tooMuch | notWritten | notClosed | incomplete

inductive Call where
  | returned (error : Option DropError)
  | opening (message : Message) (safeName : Bytes) (dir : Text)
  | starting (message : Message) (safeName : Bytes) (path : Text)
  | completing (transferID : Bytes) (transfer : IncomingTransfer)
  | reporting (result : ReceivedFile) (transfer : IncomingTransfer)

structure FileDropHandler where
  receiveDir : Text
  transfers : List (Bytes × IncomingTransfer)
  completed : List ReceivedFile
  closed : Bool
  files : Text → Option Bytes
  calls : ℕ → Call
  reported : List (ReceivedFile × IncomingTransfer)
  sentOnClosed : Bool

structure Host where
  cwd : Option Text
  tempDir : Text

structure Os where
  makesDir : Bool
  random : Text
  opens : Bool
  /-- How many bytes are written before a write fails; all of them without a failure. -/
  fails : Option ℕ
  closes : Bool
  removes : Text → Bool

def byteText (bytes : Bytes) : Text := bytes.map fun b => Char.ofNat b.toNat

/-- `filepath.Base`. -/
def base (path : Bytes) : Bytes :=
  if path = [] then [code '.']
  else
    let last := ((path.reverse.dropWhile (· = code '/')).takeWhile (· ≠ code '/')).reverse
    if last = [] then [code '/'] else last

def safeNameOf (name : Bytes) : Option Bytes :=
  let safeName := base name
  if safeName = [code '.'] ∨ safeName = [code '.', code '.'] ∨ safeName = [code '/'] then none
  else if safeName.any (fun b => b = code '/' ∨ b = code '\\') ∨ safeName.head? = some (code '.') then none
  else some safeName

/-- `filepath.Abs`. -/
def absPath (host : Host) (path : Text) : Option Text :=
  if path.head? = some '/' then some (cleanPath path) else host.cwd.map fun dir => joinPath [dir, path]

/-- `os.MkdirTemp` of the pattern. -/
def mkdirTemp (host : Host) (os : Os) : Text :=
  (if host.tempDir.getLast? = some '/' then host.tempDir else host.tempDir ++ ['/']) ++
    ("breeze-filedrop-".toList ++ os.random)

namespace FileDropHandler

def lookup (h : FileDropHandler) (id : Bytes) : Option IncomingTransfer := h.transfers.lookup id

def erase (h : FileDropHandler) (id : Bytes) : FileDropHandler :=
  { h with transfers := h.transfers.filter fun entry => entry.1 ≠ id }

def put (h : FileDropHandler) (id : Bytes) (t : IncomingTransfer) : FileDropHandler :=
  { h with transfers := (id, t) :: h.transfers.filter fun entry => entry.1 ≠ id }

def goesTo (h : FileDropHandler) (c : ℕ) (call : Call) : FileDropHandler :=
  { h with calls := update h.calls c call }

def returns (h : FileDropHandler) (c : ℕ) (error : Option DropError) : FileDropHandler := h.goesTo c (.returned error)

def createFile (h : FileDropHandler) (path : Text) : FileDropHandler :=
  { h with files := update h.files path (some []) }

/-- `WriteAt` on the file of a path. -/
def writeFileAt (h : FileDropHandler) (path : Text) (w : Write UInt8) : FileDropHandler :=
  { h with files := update h.files path ((h.files path).map (writeAt 0 w.start w.data)) }

/-- `os.Remove`, whose failure is passed over. -/
def removeFile (h : FileDropHandler) (os : Os) (path : Text) : FileDropHandler :=
  if os.removes path then { h with files := update h.files path none } else h

def ensureReceiveDir (host : Host) (os : Os) (h : FileDropHandler) : Option FileDropHandler :=
  if ¬os.makesDir then none
  else if h.receiveDir ≠ [] then some h
  else some { h with receiveDir := mkdirTemp host os }

def handleStart (host : Host) (os : Os) (h : FileDropHandler) (c : ℕ) (message : Message) : FileDropHandler :=
  if message.transferID = [] then h.returns c (some .missingTransferID)
  else if message.name = [] then h.returns c (some .missingName)
  else
    match safeNameOf message.name with
    | none => h.returns c (some .invalidName)
    | some safeName =>
      if message.size > maxTransferSize then h.returns c (some .tooLarge)
      else
        match ensureReceiveDir host os h with
        | none => h.returns c (some .noDirectory)
        | some ensured => ensured.goesTo c (.opening message safeName ensured.receiveDir)

def openFile (host : Host) (os : Os) (h : FileDropHandler) (c : ℕ) (message : Message) (safeName : Bytes)
    (receiveDir : Text) : FileDropHandler :=
  let filePath := joinPath [receiveDir, byteText safeName]
  match absPath host receiveDir, absPath host filePath with
  | some absReceiveDir, some absFilePath =>
    if ¬(absReceiveDir ++ ['/']).isPrefixOf absFilePath then h.returns c (some .outside)
    else if ¬os.opens ∨ h.files filePath ≠ none then h.returns c (some .notOpened)
    else (h.createFile filePath).goesTo c (.starting message safeName filePath)
  | _, _ => h.returns c (some .unresolved)

def register (os : Os) (h : FileDropHandler) (c : ℕ) (message : Message) (safeName : Bytes) (filePath : Text) :
    FileDropHandler :=
  if h.closed then (h.removeFile os filePath).returns c (some .closed)
  else if (h.lookup message.transferID).isSome then (h.removeFile os filePath).returns c (some .duplicate)
  else if h.transfers.length ≥ maxConcurrentTransfers then (h.removeFile os filePath).returns c (some .tooMany)
  else (h.put message.transferID ⟨safeName, filePath, message.size, 0, [], []⟩).returns c none

def writeChunk (os : Os) (h : FileDropHandler) (c : ℕ) (id : Bytes) (t : IncomingTransfer) (w : Write UInt8) :
    FileDropHandler :=
  match os.fails with
  | some count =>
    let torn : Write UInt8 := ⟨w.start, w.data.take count⟩
    ((h.writeFileAt t.path torn).put id { t with writes := torn :: t.writes }).returns c (some .notWritten)
  | none =>
    ((h.writeFileAt t.path w).put id
      { t with
        received := t.received + w.data.length, writes := w :: t.writes, accepted := w :: t.accepted }).returns c none

def handleChunk (os : Os) (h : FileDropHandler) (c : ℕ) (message : Message) : FileDropHandler :=
  if message.transferID = [] then h.returns c (some .missingTransferID)
  else if message.data.length > maxBase64EncodedLen maxChunkPayloadSize then h.returns c (some .chunkTooLarge)
  else
    match Base64.decodeString message.data with
    | none => h.returns c (some .notBase64)
    | some data =>
      if data.length > maxChunkPayloadSize then h.returns c (some .chunkTooLarge)
      else
        match h.lookup message.transferID with
        | none => h.returns c (some .unknownTransfer)
        | some t =>
          if message.offset < 0 ∨ message.offset > t.size then h.returns c (some .invalidOffset)
          else if ((t.received + data.length : ℕ) : ℤ) > t.size then h.returns c (some .tooMuch)
          else h.writeChunk os c message.transferID t ⟨message.offset.toNat, data⟩

def handleComplete (h : FileDropHandler) (c : ℕ) (message : Message) : FileDropHandler :=
  if message.transferID = [] then h.returns c (some .missingTransferID)
  else
    match h.lookup message.transferID with
    | none => h.returns c (some .unknownTransfer)
    | some t => (h.erase message.transferID).goesTo c (.completing message.transferID t)

def closeFile (os : Os) (h : FileDropHandler) (c : ℕ) (id : Bytes) (t : IncomingTransfer) : FileDropHandler :=
  if ¬os.closes then h.returns c (some .notClosed)
  else if (t.received : ℤ) ≠ t.size then (h.removeFile os t.path).returns c (some .incomplete)
  else h.goesTo c (.reporting ⟨id, t.name, t.path, t.size⟩ t)

/-- The channel takes the result where it has room; one that is closed takes nothing. -/
def report (h : FileDropHandler) (c : ℕ) (result : ReceivedFile) (t : IncomingTransfer) : FileDropHandler :=
  { h.returns c none with
    completed := if h.completed.length < completedRoom ∧ ¬h.closed then h.completed ++ [result] else h.completed
    reported := (result, t) :: h.reported
    sentOnClosed := h.sentOnClosed || h.closed }

/-- `HandleDrop` up to the end of its first critical section. -/
def handleDrop (host : Host) (os : Os) (h : FileDropHandler) (c : ℕ) (isString : Bool) (payload : Bytes) :
    FileDropHandler :=
  if ¬isString then h.returns c (some .notText)
  else
    match decodeMessage payload with
    | none => h.returns c (some .malformed)
    | some message =>
      if message.type = dropStart then h.handleStart host os c message
      else if message.type = dropChunk then h.handleChunk os c message
      else if message.type = dropComplete then h.handleComplete c message
      else h.returns c (some .unknownType)

def goOn (host : Host) (os : Os) (h : FileDropHandler) (c : ℕ) : FileDropHandler :=
  match h.calls c with
  | .returned _ => h
  | .opening message safeName dir => h.openFile host os c message safeName dir
  | .starting message safeName path => h.register os c message safeName path
  | .completing id t => h.closeFile os c id t
  | .reporting result t => h.report c result t

def close (os : Os) (h : FileDropHandler) : FileDropHandler :=
  if h.closed then h
  else
    { h.transfers.foldl (fun h entry => if entry.2.path ≠ [] then h.removeFile os entry.2.path else h) h with
      closed := true, transfers := [] }

def receiveFile (h : FileDropHandler) : FileDropHandler := { h with completed := h.completed.tail }

end FileDropHandler

inductive Step where
  | drop (c : ℕ) (isString : Bool) (payload : Bytes)
  | goOn (c : ℕ)
  | close
  | receiveFile

def Call.idle : Call → Bool
  | .returned _ => true
  | _ => false

def step (host : Host) (h : FileDropHandler) : Os × Step → FileDropHandler
  | (os, .drop c isString payload) => if (h.calls c).idle then h.handleDrop host os c isString payload else h
  | (os, .goOn c) => h.goOn host os c
  | (os, .close) => h.close os
  | (_, .receiveFile) => h.receiveFile

/-- A handler that has received nothing, among the files that are there. -/
def newFileDropHandler (receiveDir : Text) (files : Text → Option Bytes) : FileDropHandler :=
  ⟨receiveDir, [], [], false, files, fun _ => .returned none, [], false⟩

def run (host : Host) (h : FileDropHandler) (steps : List (Os × Step)) : FileDropHandler := steps.foldl (step host) h

def randomID (buf : Bytes) : Bytes := Ipc.hexEncode buf

def chunkSizeOf (configured : ℤ) : ℕ :=
  if configured ≤ 0 then defaultChunkSize
  else if configured > maxChunkPayloadSize then maxChunkPayloadSize
  else configured.toNat

/-- What the reads of a file give, one after another. -/
structure FileReads (content : Bytes) (chunkSize : ℕ) where
  parts : List Bytes
  whole : parts.flatten = content
  filled : ∀ part ∈ parts, part ≠ []
  short : ∀ part ∈ parts, part.length ≤ chunkSize

def sendChunks (id : Bytes) (offset : ℕ) : List Bytes → List Bytes
  | [] => []
  | part :: parts =>
    encodeMessage ⟨dropChunk, id, [], 0, offset, Base64.encodeToString part⟩ ::
      sendChunks id (offset + part.length) parts

def sendFile (id path : Bytes) (size : ℕ) (parts : List Bytes) : List Bytes :=
  encodeMessage ⟨dropStart, id, base path, size, 0, []⟩ ::
    (sendChunks id 0 parts ++ [encodeMessage ⟨dropComplete, id, [], 0, 0, []⟩])

end RemudaRmm.Endpoint.FileDrop
