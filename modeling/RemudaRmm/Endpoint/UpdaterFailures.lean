import RemudaRmm.Endpoint.Updater

/-! What a failed update leaves in the place of the agent, and what a successful one has put there. -/
namespace RemudaRmm.Endpoint
open Foundation Function

/-- The rollback's own operations succeed; whether its unlink does makes no difference. -/
structure UpdateFaults.RollbackSucceeds (faults : UpdateFaults) : Prop where
  stat : faults.statBackup = none
  openSource : faults.rollback.openSource = none
  create : faults.rollback.create = none
  copy : faults.rollback.copy = none
  chmod : faults.rollback.chmod = none

/-- The replacement ends at a read-only error once the old binary is gone, or while other bytes are in its place. -/
def StopsShort (faults : UpdateFaults) (old new : Bytes) : Prop :=
  match faults.replace.openSource, faults.replace.create, faults.replace.copy, faults.replace.chmod with
  | some e, _, _, _ => ReadOnlyErr e ∧ faults.removeBinary = none
  | none, some e, _, _ => ReadOnlyErr e ∧ faults.removeBinary = none
  | none, none, some (e, n), _ => ReadOnlyErr e ∧ new.take n ≠ old
  | none, none, none, some e => ReadOnlyErr e ∧ new ≠ old
  | none, none, none, none => False

section Files
variable {disk : UpdateDisk} {fault : Option Errno} {f g src dst : UpdateFile} {faults : CopyFaults} {bytes : Bytes}

theorem openFile_ok (opened : openFile fault f disk = .ok bytes) : disk f = some bytes := by
  cases fault with
  | none => exact orFail_ok opened
  | some e => cases opened

theorem openFile_none (there : disk f = some bytes) : openFile none f disk = .ok bytes := by
  simp only [openFile, there]
  rfl

theorem removeFile_other (other : g ≠ f) : removeFile fault f disk g = disk g := by
  cases fault with
  | none => exact update_of_ne other ..
  | some e => rfl

theorem copyFile_other (other : g ≠ dst) : (copyFile faults src dst disk).2 g = disk g := by
  unfold copyFile
  split
  · rfl
  · split <;> first | rfl | exact update_of_ne other ..

theorem copyFile_ok (copied : (copyFile faults src dst disk).1 = .ok ()) :
    ∃ bytes, disk src = some bytes ∧ (copyFile faults src dst disk).2 dst = some bytes := by
  unfold copyFile at copied ⊢
  cases opened : openFile faults.openSource src disk with
  | error e =>
    rw [opened] at copied
    cases copied
  | ok bytes =>
    rw [opened] at copied
    refine ⟨bytes, openFile_ok opened, ?_⟩
    dsimp only at copied ⊢
    split at copied
    · cases copied
    · cases copied
    · cases copied
    · exact update_self ..

end Files

section Prepare
variable {lib : UpdateLibrary} {config : UpdateConfig} {answers : ServerAnswers} {faults : UpdateFaults}
  {version : Text} {disk : UpdateDisk} {g : UpdateFile} {m : UpdateManifest}

theorem downloadFromURL_other (rawURL : Text) (other : g ≠ .tempPath) :
    (downloadFromURL lib config answers faults rawURL disk).2 g = disk g := by
  unfold downloadFromURL
  split
  · rfl
  · rfl
  · split_ifs
    · rfl
    · split
      · rfl
      · exact (removeFile_other other).trans (update_of_ne other ..)
      · exact update_of_ne other ..

theorem downloadFromURL_ok {rawURL : Text}
    (downloaded : (downloadFromURL lib config answers faults rawURL disk).1 = .ok ()) :
    ∃ resp, answers.binary = .ok resp ∧
      (downloadFromURL lib config answers faults rawURL disk).2 .tempPath = some resp.body := by
  unfold downloadFromURL at downloaded ⊢
  cases checked : checkDownloadURL lib config rawURL with
  | error e => simp only [checked, reduceCtorEq] at downloaded
  | ok _ =>
    cases answered : answers.binary with
    | error e => simp only [checked, answered, reduceCtorEq] at downloaded
    | ok resp =>
      simp only [checked, answered] at downloaded ⊢
      split_ifs at downloaded ⊢
      cases created : faults.createTemp with
      | some e => simp only [created, reduceCtorEq] at downloaded
      | none =>
        cases copied : faults.copyTemp with
        | some pair => simp only [created, copied, reduceCtorEq] at downloaded
        | none =>
          refine ⟨resp, rfl, ?_⟩
          simp only [update_self]

theorem downloadBinary_other (other : g ≠ .tempPath) :
    (downloadBinary lib config answers faults version disk).2 g = disk g := by
  unfold downloadBinary
  split
  · rfl
  · rename_i info manifest requested
    have kept : (downloadFromURL lib config answers faults info.url disk).2 g = disk g :=
      downloadFromURL_other info.url other
    split
    · rename_i downloaded
      rw [downloaded] at kept
      exact kept
    · rename_i downloaded
      rw [downloaded] at kept
      split_ifs
      · split
        · exact (removeFile_other other).trans kept
        · split_ifs
          · exact (removeFile_other other).trans kept
          · exact kept
      · exact kept

theorem downloadBinary_ok (downloaded : (downloadBinary lib config answers faults version disk).1 = .ok m) :
    SignedChecksum lib config version m.checksum ∧ ∃ resp, answers.binary = .ok resp ∧
      (downloadBinary lib config answers faults version disk).2 .tempPath = some resp.body := by
  unfold downloadBinary at downloaded ⊢
  cases requested : requestManifest lib config answers version with
  | error e => simp only [requested, reduceCtorEq] at downloaded
  | ok pair =>
    obtain ⟨info, manifest⟩ := pair
    simp only [requested] at downloaded ⊢
    have signed : SignedChecksum lib config version manifest.checksum := by
      unfold requestManifest at requested
      obtain ⟨_, -, rest⟩ := except_bind_ok requested
      obtain ⟨_, -, rest⟩ := except_bind_ok rest
      obtain ⟨_, -, rest⟩ := except_bind_ok rest
      obtain ⟨_, verified, rest⟩ := except_bind_ok rest
      obtain ⟨rfl, rfl⟩ := Prod.mk.inj (Except.ok.inj rest)
      exact signed_verifyUpdateManifest (mapError_ok verified)
    have fetch : (downloadFromURL lib config answers faults info.url disk).1 = .ok () → ∃ resp,
        answers.binary = .ok resp ∧ (downloadFromURL lib config answers faults info.url disk).2 .tempPath =
          some resp.body := downloadFromURL_ok
    generalize downloadFromURL lib config answers faults info.url disk = fetched at downloaded fetch ⊢
    obtain ⟨result, after⟩ := fetched
    cases result with
    | error e => simp only [reduceCtorEq] at downloaded
    | ok _ =>
      obtain ⟨resp, answered, there⟩ := fetch rfl
      simp only at downloaded there ⊢
      split_ifs at downloaded ⊢
      · cases opened : openFile faults.statTemp .tempPath after with
        | error e => simp only [opened, reduceCtorEq] at downloaded
        | ok bytes =>
          simp only [opened] at downloaded ⊢
          split_ifs at downloaded ⊢
          cases downloaded
          exact ⟨signed, resp, answered, there⟩
      · cases downloaded
        exact ⟨signed, resp, answered, there⟩

theorem verifyChecksum_ok {expected : Text} (verified : verifyChecksum lib faults expected disk = .ok ()) :
    ∃ bytes, disk .tempPath = some bytes ∧ hexEncodeToString (lib.sha256 bytes) = expected := by
  unfold verifyChecksum at verified
  obtain ⟨bytes, opened, rest⟩ := except_bind_ok verified
  obtain ⟨_, -, rest⟩ := except_bind_ok rest
  exact ⟨bytes, openFile_ok (mapError_ok opened), require_ok rest⟩

theorem backupCurrentBinary_binary :
    (backupCurrentBinary faults disk).2 .binaryPath = disk .binaryPath :=
  (copyFile_other (by decide)).trans (removeFile_other (by decide))

theorem prepareUpdate_binary :
    (prepareUpdate lib config answers faults version disk).2 .binaryPath = disk .binaryPath := by
  have fetched : (downloadBinary lib config answers faults version disk).2 .binaryPath = disk .binaryPath :=
    downloadBinary_other (by decide)
  unfold prepareUpdate
  split
  · rfl
  · split
    · rename_i downloaded
      rw [downloaded] at fetched
      exact fetched
    · rename_i manifest after downloaded
      rw [downloaded] at fetched
      have backed : (backupCurrentBinary faults after).2 .binaryPath = after .binaryPath := backupCurrentBinary_binary
      split
      · exact (removeFile_other (by decide)).trans fetched
      · split
        · rename_i saved
          rw [saved] at backed
          exact (removeFile_other (by decide)).trans (backed.trans fetched)
        · rename_i saved
          rw [saved] at backed
          exact backed.trans fetched

theorem prepareUpdate_ok {ready : UpdateDisk}
    (prepared : prepareUpdate lib config answers faults version disk = (.ok (), ready)) :
    ∃ old resp, disk .binaryPath = some old ∧ ready .binaryPath = some old ∧ ready .backupPath = some old ∧
      answers.binary = .ok resp ∧ ready .tempPath = some resp.body ∧
      SignedChecksum lib config version (hexEncodeToString (lib.sha256 resp.body)) := by
  have kept : (prepareUpdate lib config answers faults version disk).2 .binaryPath = disk .binaryPath :=
    prepareUpdate_binary
  rw [prepared] at kept
  unfold prepareUpdate at prepared
  split at prepared
  · cases prepared
  · split at prepared
    · cases prepared
    · rename_i manifest after downloaded
      have first : (downloadBinary lib config answers faults version disk).1 = .ok manifest := by rw [downloaded]
      obtain ⟨signed, resp, answered, there⟩ := downloadBinary_ok first
      rw [downloaded] at there
      split at prepared
      · cases prepared
      · rename_i verified
        obtain ⟨bytes, temp, sum⟩ := verifyChecksum_ok verified
        obtain rfl : resp.body = bytes := Option.some.inj (there.symm.trans temp)
        split at prepared
        · cases prepared
        · rename_i saved backed
          obtain ⟨-, rfl⟩ := Prod.mk.inj prepared
          have done : (backupCurrentBinary faults after).1 = .ok () := by rw [backed]
          obtain ⟨old, source, copy⟩ := copyFile_ok done
          have copied : (backupCurrentBinary faults after).2 .backupPath = some old := copy
          have still : (backupCurrentBinary faults after).2 .tempPath = after .tempPath :=
            (copyFile_other (by decide)).trans (removeFile_other (by decide))
          have same : (backupCurrentBinary faults after).2 .binaryPath = after .binaryPath :=
            backupCurrentBinary_binary
          rw [backed] at same still copied
          have binary : after .binaryPath = some old := (removeFile_other (by decide)).symm.trans source
          exact ⟨old, resp, kept.symm.trans (same.trans binary), same.trans binary, copied, answered, still.trans there,
            sum ▸ signed⟩

end Prepare

section Install
variable {faults : UpdateFaults} {disk : UpdateDisk} {old new : Bytes}

theorem rolledBack_binary (succeeds : faults.RollbackSucceeds) (backup : disk .backupPath = some old)
    (failed : Option RollbackError → UpdateError) :
    ∃ after, rolledBack faults failed disk = (.error (failed none), after) ∧ after .binaryPath = some old := by
  have saved : removeFile faults.rollbackRemove .binaryPath disk .backupPath = some old :=
    (removeFile_other (by decide)).trans backup
  refine ⟨update (removeFile faults.rollbackRemove .binaryPath disk) .binaryPath (some old), ?_, update_self ..⟩
  simp only [rolledBack, rollback, succeeds.stat, openFile_none backup, copyFile, succeeds.openSource,
    openFile_none saved, succeeds.create, succeeds.copy, succeeds.chmod]

theorem replaceBinary_cases (binary : disk .binaryPath = some old) (temp : disk .tempPath = some new) :
    (∃ after, replaceBinary faults disk = (.ok (), after) ∧ after .binaryPath = some new ∧ ¬StopsShort faults old new) ∨
    (∃ e after, replaceBinary faults disk = (.error e, after) ∧
      (StopsShort faults old new ↔ ReadOnlyErr e ∧ after .binaryPath ≠ some old)) := by
  have there : removeFile faults.removeBinary .binaryPath disk .tempPath = some new :=
    (removeFile_other (by decide)).trans temp
  have unlinked : ∀ e, (ReadOnlyErr e ∧ faults.removeBinary = none) ↔
      ReadOnlyErr e ∧ removeFile faults.removeBinary .binaryPath disk .binaryPath ≠ some old := by
    intro e
    cases removed : faults.removeBinary with
    | none => simp [removeFile]
    | some e => simp [removeFile, binary]
  unfold replaceBinary copyFile StopsShort
  cases faults.replace.openSource with
  | some e => exact .inr ⟨e, _, rfl, unlinked e⟩
  | none =>
    rw [openFile_none there]
    cases faults.replace.create with
    | some e => exact .inr ⟨e, _, rfl, unlinked e⟩
    | none =>
      cases faults.replace.copy with
      | some pair => exact .inr ⟨pair.1, _, rfl, by simp⟩
      | none =>
        cases faults.replace.chmod with
        | some e => exact .inr ⟨e, _, rfl, by simp⟩
        | none => exact .inl ⟨_, rfl, update_self .., id⟩

theorem installUpdate_binary (succeeds : faults.RollbackSucceeds) (binary : disk .binaryPath = some old)
    (backup : disk .backupPath = some old) (temp : disk .tempPath = some new) :
    (∃ after, installUpdate faults disk = (.ok (), after) ∧ after .binaryPath = some new ∧ ¬StopsShort faults old new) ∨
    (∃ e after, installUpdate faults disk = (.error e, after) ∧
      (StopsShort faults old new ↔ after .binaryPath ≠ some old)) := by
  have saved : ∀ result after, replaceBinary faults disk = (result, after) → after .backupPath = some old := by
    intro result after replaced
    have kept : (replaceBinary faults disk).2 .backupPath = disk .backupPath :=
      (copyFile_other (by decide)).trans (removeFile_other (by decide))
    rw [replaced] at kept
    exact kept.trans backup
  unfold installUpdate
  rcases @replaceBinary_cases faults disk old new binary temp with
    ⟨after, replaced, installed, whole⟩ | ⟨e, after, replaced, short⟩
  · rw [replaced]
    dsimp only
    cases faults.restart with
    | none => exact .inl ⟨after, rfl, installed, whole⟩
    | some e =>
      obtain ⟨again, rolled, restored⟩ := rolledBack_binary succeeds (saved _ _ replaced) (.restart e)
      exact .inr ⟨_, again, rolled, iff_of_false whole (not_not_intro restored)⟩
  · rw [replaced]
    dsimp only
    split_ifs with readOnly
    · exact .inr ⟨_, after, rfl, short.trans (and_iff_right readOnly)⟩
    · obtain ⟨again, rolled, restored⟩ := rolledBack_binary succeeds (saved _ _ replaced) (.replace e)
      refine .inr ⟨_, again, rolled, iff_of_false (fun stops => readOnly (short.mp stops).1) (not_not_intro restored)⟩

end Install

section Update
variable (lib : UpdateLibrary) (config : UpdateConfig) (answers : ServerAnswers) (faults : UpdateFaults)
  (version : Text) (disk : UpdateDisk)

/-- A failed update leaves the binary as it was, and a successful one has put a file in its place whose SHA-256 a signed
manifest gives, exactly where no update that gets to the replacement stops short in it. -/
theorem update_leaves_agent_iff (succeeds : faults.RollbackSucceeds) :
    ((∀ e, (updateTo lib config answers faults version disk).1 = .error e →
        (updateTo lib config answers faults version disk).2 .binaryPath = disk .binaryPath) ∧
      ((updateTo lib config answers faults version disk).1 = .ok () → ∃ new,
        (updateTo lib config answers faults version disk).2 .binaryPath = some new ∧
          SignedChecksum lib config version (hexEncodeToString (lib.sha256 new)))) ↔
    ∀ old resp, (prepareUpdate lib config answers faults version disk).1 = .ok () → disk .binaryPath = some old →
      answers.binary = .ok resp → ¬StopsShort faults old resp.body := by
  cases prepared : prepareUpdate lib config answers faults version disk with
  | mk result ready =>
    cases result with
    | error e =>
      have kept : (prepareUpdate lib config answers faults version disk).2 .binaryPath = disk .binaryPath :=
        prepareUpdate_binary
      rw [prepared] at kept
      refine iff_of_true ⟨fun _ _ => ?_, fun ok => ?_⟩ nofun
      · simpa only [updateTo, prepared] using kept
      · simp only [updateTo, prepared, reduceCtorEq] at ok
    | ok _ =>
      obtain ⟨old, resp, binary, now, backup, answered, temp, signed⟩ := prepareUpdate_ok prepared
      have cleaned : ∀ after : UpdateDisk, removeFile faults.removeTemp .tempPath after .binaryPath =
          after .binaryPath := fun after => removeFile_other (by decide)
      have whole : (∀ old resp, (Except.ok () : Except UpdateError Unit) = .ok () → disk .binaryPath = some old →
          answers.binary = .ok resp → ¬StopsShort faults old resp.body) ↔ ¬StopsShort faults old resp.body := by
        refine ⟨fun none => none old resp rfl binary answered, fun none other answer _ same again => ?_⟩
        cases same.symm.trans binary
        cases again.symm.trans answered
        exact none
      refine Iff.trans ?_ whole.symm
      simp only [updateTo, prepared, cleaned, binary]
      rcases installUpdate_binary succeeds now backup temp with
        ⟨after, installed, replaced, none⟩ | ⟨e, after, failed, short⟩
      · simp only [installed]
        exact iff_of_true ⟨nofun, fun _ => ⟨resp.body, replaced, signed⟩⟩ none
      · simp only [failed]
        rw [short, not_not]
        exact ⟨fun both => both.1 e rfl, fun same => ⟨fun _ _ => same, nofun⟩⟩

end Update

def sampleSum : Text := "11507a0e2f5e69d5dfa40a62a1bd7b6ee57e6bcd85c67c9b8431b36fff21c437".toList

def samplePayload : Bytes :=
  ("\x7b\"version\":\"2\",\"component\":\"agent\",\"platform\":\"linux\",\"arch\":\"amd64\",\"checksum\":\"".toList ++
    sampleSum ++ "\"\x7d".toList).map Char.toUInt8

def pinnedKey : Bytes :=
  [3, 161, 7, 191, 243, 206, 16, 190, 29, 112, 221, 24, 231, 75, 192, 153, 103, 228, 214, 48, 155, 165, 13, 95, 29, 220,
    134, 100, 18, 85, 49, 184]

def embeddedKey : Bytes :=
  [203, 60, 124, 126, 217, 156, 150, 206, 174, 5, 235, 69, 11, 148, 152, 157, 152, 65, 163, 231, 27, 186, 189, 200, 95,
    157, 19, 108, 27, 97, 78, 202]

def sampleSignature : Bytes :=
  [81, 161, 166, 168, 230, 168, 230, 40, 73, 15, 225, 5, 218, 253, 245, 52, 192, 184, 236, 251, 36, 93, 66, 232, 210, 27,
    228, 165, 139, 187, 193, 28, 145, 71, 109, 103, 184, 245, 14, 141, 174, 91, 124, 61, 173, 120, 249, 251, 117, 69,
    244, 29, 63, 121, 10, 171, 207, 185, 30, 198, 178, 160, 221, 9]

def signatureText : Text := "UaGmqOao5ihJD+EF2v31NMC47PskXULo0hvkpYu7wRyRR21nuPUOja5bfD2tePn7dUX0HT95CqvPuR7GsqDdCQ==".toList

def pinnedText : Text := "A6EHv/POEL4dcN0Y50vAmWfk1jCbpQ1fHdyGZBJVMbg=".toList

def newBinary : Bytes := [110, 101, 119]

def oldBinary : Bytes := [111, 108, 100]

def updateServer : Text := "https://rmm.example".toList

def downloadPath : Text := updateServer ++ "/agent".toList

def sampleLibrary : UpdateLibrary where
  verify key payload signature := key = pinnedKey ∧ payload = samplePayload ∧ signature = sampleSignature
  sha256 bytes :=
    if bytes = newBinary then
      [17, 80, 122, 14, 47, 94, 105, 213, 223, 164, 10, 98, 161, 189, 123, 110, 229, 126, 107, 205, 133, 198, 124, 155,
        132, 49, 179, 111, 255, 33, 196, 55]
    else []
  decodeBase64 t :=
    if t = pinnedText then some pinnedKey
    else if t = signatureText then some sampleSignature
    else if t ∈ trustedUpdateManifestPublicKeys then some embeddedKey
    else none
  unmarshalManifest payload :=
    if payload = samplePayload then
      .ok ⟨['2'], "agent".toList, "linux".toList, "amd64".toList, [], sampleSum, 0⟩
    else .error "unexpected end of JSON input"
  unmarshalRelease _ := .error "unexpected end of JSON input"
  parseURL t :=
    if t = updateServer ∨ t = downloadPath then .ok ⟨https, "rmm.example".toList⟩ else .error "invalid URL"

def updateConfig : UpdateConfig :=
  ⟨updateServer, some ['t'], [], "amd64".toList, [], ["k1:".toList ++ pinnedText]⟩

def serverAnswers : ServerAnswers where
  info := .ok ⟨200, .ok ⟨downloadPath, sampleSum, samplePayload, signatureText⟩, .error "no location"⟩
  binary := .ok ⟨200, newBinary⟩

def oldDisk : UpdateDisk := fun f => if f = .binaryPath then some oldBinary else none

/-- After the old binary is unlinked, the new file cannot be created. -/
def unwritable (e : Errno) : UpdateFaults := { replace := { create := some e } }

theorem agent_missing_after_update :
    (unwritable .eacces).RollbackSucceeds ∧
      (updateTo sampleLibrary updateConfig serverAnswers (unwritable .eacces) ['2'] oldDisk).1 =
        .error (.readOnlyFS .eacces) ∧
      oldDisk .binaryPath = some oldBinary ∧
      (updateTo sampleLibrary updateConfig serverAnswers (unwritable .eacces) ['2'] oldDisk).2 .binaryPath = none :=
  ⟨⟨rfl, rfl, rfl, rfl, rfl⟩, by decide +kernel, rfl, by decide +kernel⟩

/-- A disk that is full is no read-only one. -/
theorem agent_restored_when_full :
    (updateTo sampleLibrary updateConfig serverAnswers (unwritable (.other 28)) ['2'] oldDisk).1 =
        .error (.replace (.other 28) none) ∧
      ∀ e, (updateTo sampleLibrary updateConfig serverAnswers (unwritable (.other 28)) ['2'] oldDisk).1 = .error e →
        (updateTo sampleLibrary updateConfig serverAnswers (unwritable (.other 28)) ['2'] oldDisk).2 .binaryPath =
          oldDisk .binaryPath := by
  refine ⟨by decide +kernel, ((update_leaves_agent_iff sampleLibrary updateConfig serverAnswers (unwritable (.other 28))
    ['2'] oldDisk ⟨rfl, rfl, rfl, rfl, rfl⟩).mpr fun old resp _ _ _ stops => ?_).1⟩
  have readOnly : ReadOnlyErr (.other 28) := stops.1
  exact absurd readOnly (by decide)

end RemudaRmm.Endpoint
