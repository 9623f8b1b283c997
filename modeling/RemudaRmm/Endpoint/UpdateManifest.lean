import RemudaRmm.Foundation.Checks
import RemudaRmm.Foundation.Encodings

/-! The manifest of an agent update on Linux (`updater.go`): who may sign it, and the checksum that it gives for the
agent's own component, architecture and version, in either of its two formats. -/
namespace RemudaRmm.Endpoint
open Foundation

structure UpdateManifest where
  (version component platform arch url checksum : Text)
  size : ℤ

structure ReleaseArtifactAsset where
  (name sha256 : Text)
  size : ℤ

structure ReleaseArtifactManifest where
  schemaVersion : ℤ
  release : Text
  assets : List ReleaseArtifactAsset

/-- The answer of the download endpoint; the manifest is what is signed. -/
structure DownloadInfo where
  (url checksum : Text)
  manifest : Bytes
  manifestSignature : Text

structure ParsedUrl where
  (scheme host : Text)

/-- The packages that the updater calls: `ed25519.Verify`, SHA-256, base64, JSON and URLs. -/
structure UpdateLibrary where
  verify : (key payload signature : Bytes) → Bool
  sha256 : Bytes → Bytes
  decodeBase64 : Text → Option Bytes
  unmarshalManifest : Bytes → Except String UpdateManifest
  unmarshalRelease : Bytes → Except String ReleaseArtifactManifest
  parseURL : Text → Except String ParsedUrl

/-- What an updater is configured with; `environmentKeys` is `BREEZE_UPDATE_MANIFEST_PUBLIC_KEYS`. -/
structure UpdateConfig where
  serverURL : Text
  authToken : Option Text
  (component arch environmentKeys : Text)
  pinnedManifestPubKeys : List Text

inductive ManifestError where
  | signatureEncoding
  | noTrustedKeys
  | signature
  | json (e : String)
  | versionMismatch (expected got : Text)
  | componentMismatch (expected got : Text)
  | platformMismatch (expected got : Text)
  | architectureMismatch (expected got : Text)
  | downloadMetadata
  | checksumLength
  | checksumHex
  | size (n : ℤ)
  | releaseJson (e : String)
  | schemaVersion (n : ℤ)
  | releaseMismatch (expected got : Text)
  | noAssetNames (component : Text)
  | assetMissing (name : Text)
  deriving DecidableEq

def maxUpdateBinaryBytes : ℤ := 500 * 1024 * 1024

def signatureSize : ℕ := 64

def publicKeySize : ℕ := 32

def trustedUpdateManifestPublicKeys : List Text := ["yzx8ftmcls6uBetFC5SYnZhBo+cbur3IX50TbBthTso=".toList]

def isSpace (c : Char) : Bool :=
  (9 ≤ c.toNat && c.toNat ≤ 13) || (0x2000 ≤ c.toNat && c.toNat ≤ 0x200a) ||
    [0x20, 0x85, 0xa0, 0x1680, 0x2028, 0x2029, 0x202f, 0x205f, 0x3000].contains c.toNat

def trimSpace (t : Text) : Text := trimBy isSpace t

/-- `strings.SplitN(entry, ":", 2)[1]`, where there is one. -/
def afterColon (entry : Text) : Option Text :=
  match entry.dropWhile (· ≠ ':') with
  | _ :: rest => some rest
  | [] => none

section Verify
variable (lib : UpdateLibrary) (config : UpdateConfig)

def UpdateConfig.componentName : Text :=
  if trimSpace config.component ≠ [] then trimSpace config.component else "agent".toList

def rawManifestKeys : List Text :=
  trustedUpdateManifestPublicKeys ++
    (if trimSpace config.environmentKeys ≠ [] then (trimSpace config.environmentKeys).splitOn ',' else []) ++
    (config.pinnedManifestPubKeys.filterMap afterColon).filter (· ≠ [])

def trustedManifestKeys : List Bytes :=
  (rawManifestKeys config).filterMap fun raw =>
    (lib.decodeBase64 (trimSpace raw)).filter fun decoded => decoded.length = publicKeySize

def manifestPlatform : Text := "linux".toList

def releaseTagMatchesVersion (tag version : Text) : Prop := tag = version ∨ tag = 'v' :: version

instance (tag version : Text) : Decidable (releaseTagMatchesVersion tag version) := inferInstanceAs (Decidable (_ ∨ _))

def expectedReleaseAssetNames : List Text :=
  if config.componentName = "agent".toList then ["breeze-agent-linux-".toList ++ config.arch]
  else if config.componentName = "helper".toList then ["breeze-helper-linux.AppImage".toList]
  else if config.componentName = "viewer".toList then ["breeze-viewer-linux.AppImage".toList]
  else if config.componentName = "watchdog".toList then ["breeze-watchdog-linux-".toList ++ config.arch]
  else []

def byteLength (t : Text) : ℕ := (t.map Char.utf8Size).sum

/-- `hex.DecodeString` takes it. -/
def IsHex (t : Text) : Prop := byteLength t % 2 = 0 ∧ t.all isHexDigit

instance (t : Text) : Decidable (IsHex t) := inferInstanceAs (Decidable (_ ∧ _))

def verifyReleaseArtifactManifest (payload : Bytes) (info : DownloadInfo) (version : Text) :
    Except ManifestError UpdateManifest := do
  let manifest ← (lib.unmarshalRelease payload).mapError .releaseJson
  require (manifest.schemaVersion = 1) (.schemaVersion manifest.schemaVersion)
  require (releaseTagMatchesVersion manifest.release version) (.releaseMismatch version manifest.release)
  let assetName ← orFail (expectedReleaseAssetNames config).head? (.noAssetNames config.componentName)
  let selected ← orFail (manifest.assets.find? (·.name = assetName)) (.assetMissing assetName)
  require (byteLength selected.sha256 = 64) .checksumLength
  require (IsHex selected.sha256) .checksumHex
  require (selected.sha256 = info.checksum) .downloadMetadata
  require (0 ≤ selected.size ∧ selected.size ≤ maxUpdateBinaryBytes) (.size selected.size)
  return ⟨version, config.componentName, manifestPlatform, config.arch, info.url, selected.sha256, selected.size⟩

def verifyUpdateManifest (info : DownloadInfo) (version : Text) : Except ManifestError UpdateManifest := do
  let signature ← orFail ((lib.decodeBase64 info.manifestSignature).filter fun s => s.length = signatureSize)
    .signatureEncoding
  require (trustedManifestKeys lib config ≠ []) .noTrustedKeys
  require ((trustedManifestKeys lib config).any (lib.verify · info.manifest signature)) .signature
  let manifest ← (lib.unmarshalManifest info.manifest).mapError .json
  if manifest.version = [] ∧ manifest.checksum = [] then
    verifyReleaseArtifactManifest lib config info.manifest info version
  else
    require (manifest.version = version) (.versionMismatch version manifest.version)
    require (manifest.component = config.componentName) (.componentMismatch config.componentName manifest.component)
    require (manifest.platform = manifestPlatform) (.platformMismatch manifestPlatform manifest.platform)
    require (manifest.arch = config.arch) (.architectureMismatch config.arch manifest.arch)
    require (manifest.checksum = info.checksum) .downloadMetadata
    require (byteLength manifest.checksum = 64) .checksumLength
    require (IsHex manifest.checksum) .checksumHex
    require (0 ≤ manifest.size ∧ manifest.size ≤ maxUpdateBinaryBytes) (.size manifest.size)
    return manifest

/-- The payload gives the checksum for the component, the platform, the architecture and the version: as that of its only
file, or as that of the asset that has their name. -/
inductive Gives (payload : Bytes) (version checksum : Text) : Prop
  | single {m : UpdateManifest} (parsed : lib.unmarshalManifest payload = .ok m) (same : m.version = version)
      (component : m.component = config.componentName) (platform : m.platform = manifestPlatform)
      (arch : m.arch = config.arch) (sum : m.checksum = checksum)
  | release {m : ReleaseArtifactManifest} {name : Text} {asset : ReleaseArtifactAsset}
      (parsed : lib.unmarshalRelease payload = .ok m) (schema : m.schemaVersion = 1)
      (tag : releaseTagMatchesVersion m.release version) (expected : name ∈ expectedReleaseAssetNames config)
      (found : m.assets.find? (·.name = name) = some asset) (sum : asset.sha256 = checksum)

/-- A trusted key has signed a manifest that gives the checksum. -/
def SignedChecksum (version checksum : Text) : Prop :=
  ∃ payload signature, (∃ key ∈ trustedManifestKeys lib config, lib.verify key payload signature = true) ∧
    signature.length = signatureSize ∧ Gives lib config payload version checksum

end Verify

section Verified
variable {lib : UpdateLibrary} {config : UpdateConfig} {info : DownloadInfo} {version : Text} {m : UpdateManifest}

theorem mapError_ok {ε ε' α : Type} {f : ε → ε'} {x : Except ε α} {a : α} (mapped : x.mapError f = .ok a) :
    x = .ok a := by
  cases x with
  | error e => cases mapped
  | ok b =>
    cases mapped
    rfl

theorem gives_release {payload : Bytes}
    (verified : verifyReleaseArtifactManifest lib config payload info version = .ok m) :
    Gives lib config payload version m.checksum := by
  unfold verifyReleaseArtifactManifest at verified
  obtain ⟨release, parsed, rest⟩ := except_bind_ok verified
  obtain ⟨_, schema, rest⟩ := except_bind_ok rest
  obtain ⟨_, tag, rest⟩ := except_bind_ok rest
  obtain ⟨name, expected, rest⟩ := except_bind_ok rest
  obtain ⟨asset, found, rest⟩ := except_bind_ok rest
  obtain ⟨_, -, rest⟩ := except_bind_ok rest
  obtain ⟨_, -, rest⟩ := except_bind_ok rest
  obtain ⟨_, -, rest⟩ := except_bind_ok rest
  obtain ⟨_, -, rest⟩ := except_bind_ok rest
  cases rest
  exact .release (mapError_ok parsed) (require_ok schema) (require_ok tag) (List.mem_of_head? (orFail_ok expected))
    (orFail_ok found) rfl

theorem signed_verifyUpdateManifest (verified : verifyUpdateManifest lib config info version = .ok m) :
    SignedChecksum lib config version m.checksum := by
  unfold verifyUpdateManifest at verified
  obtain ⟨signature, decoded, rest⟩ := except_bind_ok verified
  obtain ⟨_, -, rest⟩ := except_bind_ok rest
  obtain ⟨_, signed, rest⟩ := except_bind_ok rest
  obtain ⟨manifest, parsed, rest⟩ := except_bind_ok rest
  have size := (Option.filter_eq_some_iff.mp (orFail_ok decoded)).2
  refine ⟨info.manifest, signature, List.any_eq_true.mp (require_ok signed), of_decide_eq_true size, ?_⟩
  split_ifs at rest with empty
  · exact gives_release rest
  · obtain ⟨_, same, rest⟩ := except_bind_ok rest
    obtain ⟨_, component, rest⟩ := except_bind_ok rest
    obtain ⟨_, platform, rest⟩ := except_bind_ok rest
    obtain ⟨_, arch, rest⟩ := except_bind_ok rest
    obtain ⟨_, -, rest⟩ := except_bind_ok rest
    obtain ⟨_, -, rest⟩ := except_bind_ok rest
    obtain ⟨_, -, rest⟩ := except_bind_ok rest
    obtain ⟨_, -, rest⟩ := except_bind_ok rest
    cases rest
    exact .single (mapError_ok parsed) (require_ok same) (require_ok component) (require_ok platform) (require_ok arch)
      rfl

end Verified

end RemudaRmm.Endpoint
