import RemudaRmm.Foundation.AuthenticatedCipher
import RemudaRmm.Foundation.Checks

/-! The secrets of the database (`secretCrypto.ts`): three generations of ciphertext told apart by their front, keys by
identifier from a keyring or the environment, and associated data that binds a ciphertext to its column. The cipher, the
hash and the JSON parser are parameters; the environment stays the same. -/
namespace RemudaRmm.Security
open Foundation List Option

inductive Json where
  | string (t : Units)
  | object (entries : List (Units × Json))
  | other

/-- What the code takes from its platform. -/
structure Platform where
  cipher : AuthenticatedCipher
  sha256 : Bytes → Bytes
  parseJson : Units → Option Json
  replaced : Bytes → Text

structure Environment where
  APP_ENCRYPTION_KEY : Option Units := none
  SSO_ENCRYPTION_KEY : Option Units := none
  SECRET_ENCRYPTION_KEY : Option Units := none
  APP_ENCRYPTION_KEY_ID : Option Units := none
  SECRET_ENCRYPTION_KEY_ID : Option Units := none
  APP_ENCRYPTION_KEYRING : Option Units := none
  SECRET_ENCRYPTION_KEYRING : Option Units := none
  JWT_SECRET : Option Units := none
  SESSION_SECRET : Option Units := none
  NODE_ENV : Option Units := none

structure SecretCryptoOptions where
  aad : Option Units := none
  strict : Bool := false

def ascii (s : String) : Units := units s.toList

def ENCRYPTED_V1_PREFIX : Units := ascii "enc:v1:"

def ENCRYPTED_V2_PREFIX : Units := ascii "enc:v2:"

def ENCRYPTED_V3_PREFIX : Units := ascii "enc:v3:"

def isKeyIdUnit (u : UInt16) : Bool :=
  (65 ≤ u.toNat && u.toNat ≤ 90) || (97 ≤ u.toNat && u.toNat ≤ 122) || (48 ≤ u.toNat && u.toNat ≤ 57) ||
    u == 46 || u == 95 || u == 45

/-- `KEY_ID_PATTERN`. -/
def matchesKeyId (t : Units) : Bool := !t.isEmpty && t.all isKeyIdUnit

/-- The first of the settings that is neither unset nor empty. -/
def firstSet : List (Option Units) → Option Units
  | [] => none
  | none :: rest => firstSet rest
  | some t :: rest => if t = [] then firstSet rest else some t

section Keys
variable (platform : Platform) (env : Environment)

def deriveEncryptionKey (keySource : Units) : Bytes := platform.sha256 (utf8 keySource)

def dedicatedKey : Option Units :=
  firstSet [env.APP_ENCRYPTION_KEY, env.SSO_ENCRYPTION_KEY, env.SECRET_ENCRYPTION_KEY]

def getLegacyDecryptionKeys : List Bytes :=
  (([env.JWT_SECRET, env.SESSION_SECRET].filterMap (Option.map trimUnits)).filter
    fun source => source ≠ [] ∧ some source ≠ dedicatedKey env).map (deriveEncryptionKey platform)

def getEncryptionKey : Except String Bytes :=
  match dedicatedKey env with
  | some keySource => .ok (deriveEncryptionKey platform keySource)
  | none =>
    if env.NODE_ENV = some (ascii "production") then
      .error ("Missing APP_ENCRYPTION_KEY for secret encryption in production. " ++
        "Set APP_ENCRYPTION_KEY (or SSO_ENCRYPTION_KEY/SECRET_ENCRYPTION_KEY) in your environment.")
    else
      match firstSet [env.JWT_SECRET, env.SESSION_SECRET,
        if env.NODE_ENV = some (ascii "test") then some (ascii "test-only-secret-encryption-key") else none] with
      | some keySource => .ok (deriveEncryptionKey platform keySource)
      | none => .error "Missing APP_ENCRYPTION_KEY (or JWT_SECRET in development) for secret encryption"

def getActiveKeyId : Except String (Option Units) :=
  match firstSet [env.APP_ENCRYPTION_KEY_ID, env.SECRET_ENCRYPTION_KEY_ID] with
  | none => .ok none
  | some keyId =>
    if matchesKeyId (trimUnits keyId) then .ok (some (trimUnits keyId))
    else .error "Invalid APP_ENCRYPTION_KEY_ID for secret encryption"

def getKeyringEnv : Option Units := firstSet [env.APP_ENCRYPTION_KEYRING, env.SECRET_ENCRYPTION_KEYRING]

def malformedKeyring : String := "Malformed APP_ENCRYPTION_KEYRING for secret encryption"

/-- The keyring with the entry in front; an earlier key of the same identifier is hidden. -/
def setKey (keyring : List (Units × Bytes)) (entry : Units × Json) : Except String (List (Units × Bytes)) :=
  match entry.2 with
  | .string keySource =>
    if matchesKeyId (trimUnits entry.1) ∧ keySource ≠ [] then
      .ok ((trimUnits entry.1, deriveEncryptionKey platform keySource) :: keyring)
    else .error malformedKeyring
  | _ => .error malformedKeyring

def getEncryptionKeyring : Except String (List (Units × Bytes)) :=
  match getKeyringEnv env with
  | none => .ok []
  | some raw =>
    if trimUnits raw = [] then .ok []
    else
      match platform.parseJson raw with
      | some (.object entries) => entries.foldlM (setKey platform) []
      | _ => .error malformedKeyring

def getV2EncryptionKey (keyId : Units) : Except String Bytes := do
  let keyring ← getEncryptionKeyring platform env
  match keyring.lookup keyId with
  | some keyringKey => return keyringKey
  | none =>
    let activeKeyId ← getActiveKeyId env
    match if activeKeyId = some keyId then dedicatedKey env else none with
    | some activeKeySource => return deriveEncryptionKey platform activeKeySource
    | none => throw "Unknown encrypted secret key ID"

end Keys

def malformedSecret : String := "Malformed encrypted secret"

structure Payload where
  iv : Bytes
  text : Sealed

def parseEncryptedPayload (encoded : Units) : Except String Payload :=
  match encoded.splitOn 46 with
  | [ivText, authTagText, ciphertextText] =>
    if ivText = [] ∨ authTagText = [] ∨ ciphertextText = [] then .error malformedSecret
    else .ok ⟨ofBase64url ivText, ofBase64url ciphertextText, ofBase64url authTagText⟩
  | _ => .error malformedSecret

section Ciphers
variable (platform : Platform)

def encryptWithKey (iv : Bytes) (value : Units) (key : Bytes) (front : Units) (aad : Bytes) : Units :=
  let text := platform.cipher.encrypt key iv aad (utf8 value)
  front ++ (base64url iv ++ 46 :: (base64url text.authTag ++ 46 :: base64url text.ciphertext))

def decryptWithKey (encoded : Units) (key aad : Bytes) : Except String Units := do
  let payload ← parseEncryptedPayload encoded
  let plaintext ← platform.cipher.decrypt key payload.iv aad payload.text
  return ofUtf8 platform.replaced plaintext

end Ciphers

def isEncryptedSecret (value : Units) : Bool :=
  ENCRYPTED_V1_PREFIX.isPrefixOf value || ENCRYPTED_V2_PREFIX.isPrefixOf value || ENCRYPTED_V3_PREFIX.isPrefixOf value

def SecretCryptoOptions.bound (options : SecretCryptoOptions) : Option Units := firstSet [options.aad]

section Secrets
variable (platform : Platform) (env : Environment)

/-- What is written under an identified key: the third generation with associated data, the second without. -/
def encryptUnder (iv : Bytes) (value : Units) (activeKeyId : Units) (key : Bytes) (options : SecretCryptoOptions) :
    Units :=
  match options.bound with
  | some aad => encryptWithKey platform iv value key (ENCRYPTED_V3_PREFIX ++ activeKeyId ++ [58]) (utf8 aad)
  | none => encryptWithKey platform iv value key (ENCRYPTED_V2_PREFIX ++ activeKeyId ++ [58]) []

def encryptSecret (iv : Bytes) (value : Option Units) (options : SecretCryptoOptions) :
    Except String (Option Units) :=
  match firstSet [value] with
  | none => .ok none
  | some value =>
    if isEncryptedSecret value then .ok (some value)
    else do
      match ← getActiveKeyId env with
      | some activeKeyId =>
        let key ← getV2EncryptionKey platform env activeKeyId
        return some (encryptUnder platform iv value activeKeyId key options)
      | none =>
        let key ← getEncryptionKey platform env
        return some (encryptWithKey platform iv value key ENCRYPTED_V1_PREFIX [])

def decryptLegacy (payload : Units) (primaryError : String) : List Bytes → Except String Units
  | [] => .error primaryError
  | legacyKey :: rest =>
    match decryptWithKey platform payload legacyKey [] with
    | .ok plaintext => .ok plaintext
    | .error _ => decryptLegacy payload primaryError rest

def decryptV1 (payload : Units) : Except String Units :=
  match (do decryptWithKey platform payload (← getEncryptionKey platform env) []) with
  | .ok plaintext => .ok plaintext
  | .error primaryError => decryptLegacy platform payload primaryError (getLegacyDecryptionKeys platform env)

/-- The second and the third generation, whose payload is preceded by the identifier of the key. -/
def decryptIdentified (isV3 : Bool) (encoded : Units) (options : SecretCryptoOptions) : Except String Units := do
  let keyId := encoded.takeWhile (· ≠ 58)
  let payload := (encoded.dropWhile (· ≠ 58)).tail
  if 58 ∉ encoded ∨ keyId = [] then throw malformedSecret
  if matchesKeyId keyId = false ∨ payload = [] then throw malformedSecret
  if isV3 then
    match options.bound with
    | none => throw "AAD is required to decrypt v3 secrets"
    | some aad => decryptWithKey platform payload (← getV2EncryptionKey platform env keyId) (utf8 aad)
  else
    if options.strict ∧ options.bound ≠ none then
      throw "Strict v3 requested but ciphertext is v2 — refusing to decrypt downgraded blob"
    decryptWithKey platform payload (← getV2EncryptionKey platform env keyId) []

def decryptSecret (value : Option Units) (options : SecretCryptoOptions) : Except String (Option Units) :=
  match firstSet [value] with
  | none => .ok none
  | some value =>
    if isEncryptedSecret value = false then .ok (some value)
    else if ENCRYPTED_V1_PREFIX.isPrefixOf value then some <$> decryptV1 platform env (value.drop 7)
    else some <$> decryptIdentified platform env (ENCRYPTED_V3_PREFIX.isPrefixOf value) (value.drop 7) options

def columnAad (table column : Units) : Units := table ++ 46 :: column

def decryptForColumn (table column : Units) (value : Option Units) (strict : Bool) : Except String (Option Units) :=
  decryptSecret platform env value ⟨some (columnAad table column), strict⟩

def reencryptSecret (iv : Bytes) (value : Option Units) (options : SecretCryptoOptions) :
    Except String (Option Units) :=
  match firstSet [value] with
  | none => .ok none
  | some value => do
      match ← getActiveKeyId env with
      | none => throw "APP_ENCRYPTION_KEY_ID is required to re-encrypt secrets"
      | some activeKeyId =>
        match firstSet [← decryptSecret platform env (some value) options] with
        | none => return none
        | some plaintext =>
          let key ← getV2EncryptionKey platform env activeKeyId
          return some (encryptUnder platform iv plaintext activeKeyId key options)

end Secrets

@[simp] theorem firstSet_some {t : Units} (some_unit : t ≠ []) : firstSet [some t] = some t := if_neg some_unit

def payloadText (iv : Bytes) (text : Sealed) : Units :=
  base64url iv ++ 46 :: (base64url text.authTag ++ 46 :: base64url text.ciphertext)

theorem payloadText_ne_nil (iv : Bytes) (text : Sealed) : payloadText iv text ≠ [] :=
  append_ne_nil_of_right_ne_nil _ (cons_ne_nil _ _)

theorem parse_payloadText {iv : Bytes} {text : Sealed} (some_iv : iv ≠ []) (some_tag : text.authTag ≠ [])
    (some_text : text.ciphertext ≠ []) : parseEncryptedPayload (payloadText iv text) = .ok ⟨iv, text⟩ := by
  have plain : ∀ bytes, ∀ c ∈ base64url bytes, (c == 46) = false := by
    intro bytes c member
    rw [beq_eq_false_iff_ne]
    rintro rfl
    exact dot_not_mem_base64url bytes member
  have front : ∀ bytes rest, (base64url bytes ++ 46 :: rest).splitOn 46 = base64url bytes :: rest.splitOn 46 :=
    fun bytes rest => splitOnP_append_cons_of_forall_mem (plain bytes) 46 (beq_self_eq_true _) rest
  have last : (base64url text.ciphertext).splitOn 46 = [base64url text.ciphertext] :=
    splitOnP_eq_singleton (plain _)
  have filled : ¬(base64url iv = [] ∨ base64url text.authTag = [] ∨ base64url text.ciphertext = []) := by
    rintro (empty | empty | empty)
    · exact base64url_ne_nil some_iv empty
    · exact base64url_ne_nil some_tag empty
    · exact base64url_ne_nil some_text empty
  rw [parseEncryptedPayload, payloadText, front, front, last]
  simp only [if_neg filled, ofBase64url_base64url]

section RoundTrip
variable {platform : Platform} {env : Environment} {iv key : Bytes} {value : Units}
variable {keyId : Units}

theorem decryptWithKey_encrypted (some_iv : iv ≠ []) (some_unit : value ≠ []) (aad : Bytes) :
    decryptWithKey platform (payloadText iv (platform.cipher.encrypt key iv aad (utf8 value))) key aad =
      .ok (units (scalars value)) := by
  have parsed := parse_payloadText some_iv (platform.cipher.authTag_ne_nil key iv aad (utf8 value))
    (platform.cipher.ciphertext_ne_nil key iv aad (utf8_ne_nil some_unit))
  unfold decryptWithKey
  rw [parsed]
  simp only [bind, Except.bind, platform.cipher.decrypt_encrypt, pure, Except.pure, ofUtf8_utf8]

theorem colon_not_mem_keyId (valid : matchesKeyId keyId = true) : ∀ c ∈ keyId, c ≠ 58 := by
  intro c member
  rintro rfl
  rw [matchesKeyId, Bool.and_eq_true, List.all_eq_true] at valid
  exact absurd (valid.2 58 member) (by decide)

theorem keyId_ne_nil (valid : matchesKeyId keyId = true) : keyId ≠ [] := by
  rintro rfl
  cases valid

theorem decryptIdentified_written {payload : Units} (valid : matchesKeyId keyId = true) (filled : payload ≠ [])
    (isV3 : Bool) (options : SecretCryptoOptions) :
    decryptIdentified platform env isV3 (keyId ++ 58 :: payload) options = if isV3 then
        match options.bound with
        | none => .error "AAD is required to decrypt v3 secrets"
        | some aad => getV2EncryptionKey platform env keyId >>= (decryptWithKey platform payload · (utf8 aad))
      else if options.strict ∧ options.bound ≠ none then
        .error "Strict v3 requested but ciphertext is v2 — refusing to decrypt downgraded blob"
      else getV2EncryptionKey platform env keyId >>= (decryptWithKey platform payload · []) := by
  have plain : ∀ c ∈ keyId, decide (c ≠ 58) = true := fun c member => decide_eq_true (colon_not_mem_keyId valid c member)
  have front : (keyId ++ 58 :: payload).takeWhile (· ≠ 58) = keyId := by
    rw [takeWhile_append_of_pos plain, takeWhile_cons_of_neg (by decide), append_nil]
  have back : (keyId ++ 58 :: payload).dropWhile (· ≠ 58) = 58 :: payload := by
    rw [dropWhile_append_of_pos plain, dropWhile_cons_of_neg (by decide)]
  have member : (58 : UInt16) ∈ keyId ++ 58 :: payload := mem_append_right keyId mem_cons_self
  unfold decryptIdentified
  simp only [front, back, tail_cons, member, not_true, false_or, if_neg (keyId_ne_nil valid), valid,
    Bool.true_eq_false, if_neg filled]
  cases isV3 with
  | true => cases options.bound <;> rfl
  | false =>
    by_cases strict : options.strict = true ∧ options.bound ≠ none
    · simp only [if_pos strict]
      rfl
    · simp only [if_neg strict]
      rfl

theorem decryptSecret_v1 (t : Units) (options : SecretCryptoOptions) :
    decryptSecret platform env (some (ENCRYPTED_V1_PREFIX ++ t)) options = some <$> decryptV1 platform env t := rfl

theorem decryptSecret_v2 (t : Units) (options : SecretCryptoOptions) :
    decryptSecret platform env (some (ENCRYPTED_V2_PREFIX ++ t)) options =
      some <$> decryptIdentified platform env false t options := rfl

theorem decryptSecret_v3 (t : Units) (options : SecretCryptoOptions) :
    decryptSecret platform env (some (ENCRYPTED_V3_PREFIX ++ t)) options =
      some <$> decryptIdentified platform env true t options := rfl

theorem decryptSecret_encryptUnder (valid : matchesKeyId keyId = true)
    (known : getV2EncryptionKey platform env keyId = .ok key) (some_iv : iv ≠ []) (some_unit : value ≠ [])
    (options : SecretCryptoOptions) :
    decryptSecret platform env (some (encryptUnder platform iv value keyId key options)) options =
      .ok (some (units (scalars value))) := by
  have read : ∀ aad, getV2EncryptionKey platform env keyId >>=
      (decryptWithKey platform (payloadText iv (platform.cipher.encrypt key iv aad (utf8 value))) · aad) =
        .ok (units (scalars value)) := by
    intro aad
    rw [known]
    exact decryptWithKey_encrypted some_iv some_unit aad
  have shape : ∀ front aad, encryptWithKey platform iv value key (front ++ keyId ++ [58]) aad =
      front ++ (keyId ++ 58 :: payloadText iv (platform.cipher.encrypt key iv aad (utf8 value))) := by
    intro front aad
    simp only [encryptWithKey, payloadText, append_assoc, singleton_append]
  unfold encryptUnder
  cases bound : options.bound with
  | none =>
    dsimp only
    rw [shape, decryptSecret_v2, decryptIdentified_written valid (payloadText_ne_nil _ _), bound]
    rw [if_neg (by decide), if_neg fun strict => strict.2 rfl, read]
    rfl
  | some aad =>
    dsimp only
    rw [shape, decryptSecret_v3, decryptIdentified_written valid (payloadText_ne_nil _ _), bound]
    dsimp only
    rw [if_pos rfl, read]
    rfl

theorem decryptSecret_encrypted_v1 (known : getEncryptionKey platform env = .ok key) (some_iv : iv ≠ [])
    (some_unit : value ≠ []) (options : SecretCryptoOptions) :
    decryptSecret platform env (some (encryptWithKey platform iv value key ENCRYPTED_V1_PREFIX [])) options =
      .ok (some (units (scalars value))) := by
  have read : decryptWithKey platform (payloadText iv (platform.cipher.encrypt key iv [] (utf8 value))) key [] =
    .ok (units (scalars value)) := decryptWithKey_encrypted some_iv some_unit []
  unfold payloadText at read
  unfold encryptWithKey
  dsimp only
  rw [decryptSecret_v1, decryptV1, known]
  simp only [bind, Except.bind, read]
  rfl

theorem activeKeyId_valid (active : getActiveKeyId env = .ok (some keyId)) : matchesKeyId keyId = true := by
  unfold getActiveKeyId at active
  split at active
  · cases active
  · split_ifs at active with valid
    cases Except.ok.inj active
    exact valid

theorem encryptSecret_stored {options : SecretCryptoOptions} {stored : Option Units} (some_unit : value ≠ [])
    (plain : isEncryptedSecret value = false)
    (encrypted : encryptSecret platform env iv (some value) options = .ok stored) :
    (∃ keyId key, getActiveKeyId env = .ok (some keyId) ∧ getV2EncryptionKey platform env keyId = .ok key ∧
        stored = some (encryptUnder platform iv value keyId key options)) ∨
      (∃ key, getActiveKeyId env = .ok none ∧ getEncryptionKey platform env = .ok key ∧
        stored = some (encryptWithKey platform iv value key ENCRYPTED_V1_PREFIX [])) := by
  rw [encryptSecret, firstSet_some some_unit] at encrypted
  dsimp only at encrypted
  rw [if_neg (by rw [plain]; decide)] at encrypted
  obtain ⟨active, found, rest⟩ := except_bind_ok encrypted
  cases active with
  | some keyId =>
    obtain ⟨key, known, written⟩ := except_bind_ok rest
    exact .inl ⟨keyId, key, found, known, (Except.ok.inj written).symm⟩
  | none =>
    obtain ⟨key, known, written⟩ := except_bind_ok rest
    exact .inr ⟨key, found, known, (Except.ok.inj written).symm⟩

theorem reencryptSecret_written {options : SecretCryptoOptions} {plaintext : Units}
    (decrypted : decryptSecret platform env (some value) options = .ok (some plaintext)) (some_plain : plaintext ≠ [])
    (active : getActiveKeyId env = .ok (some keyId)) (known : getV2EncryptionKey platform env keyId = .ok key) :
    reencryptSecret platform env iv (some value) options =
      .ok (some (encryptUnder platform iv plaintext keyId key options)) := by
  have some_unit : value ≠ [] := by
    rintro rfl
    cases decrypted
  rw [reencryptSecret, firstSet_some some_unit]
  dsimp only
  rw [active]
  simp only [bind, Except.bind, decrypted, firstSet_some some_plain, known]
  rfl

theorem getV2EncryptionKey_keyring {keyring : List (Units × Bytes)}
    (held : getEncryptionKeyring platform env = .ok keyring) (found : keyring.lookup keyId = some key) :
    getV2EncryptionKey platform env keyId = .ok key := by
  rw [getV2EncryptionKey, held]
  simp only [bind, Except.bind, found]
  rfl

end RoundTrip

/-- The keyring of the environment holds the key under which the other one encrypts. -/
def KeepsKey (platform : Platform) (env rotated : Environment) : Prop :=
  ∃ keyId key keyring, getActiveKeyId env = .ok (some keyId) ∧ getV2EncryptionKey platform env keyId = .ok key ∧
    getEncryptionKeyring platform rotated = .ok keyring ∧ keyring.lookup keyId = some key

def ActiveKeyKnown (platform : Platform) (env : Environment) : Prop :=
  ∃ keyId key, getActiveKeyId env = .ok (some keyId) ∧ getV2EncryptionKey platform env keyId = .ok key

/-- A well-formed secret that does not begin like a ciphertext is read back as it was stored, under the same
environment and under one that keeps its key; and under an active key what is encrypted anew is read as before. -/
theorem secrets_round_trip (platform : Platform) (env : Environment) (options : SecretCryptoOptions) (iv : Bytes)
    (drawn : iv.length = 12) :
    (∀ p stored, p ≠ [] → WellFormed p → isEncryptedSecret p = false →
      encryptSecret platform env iv (some p) options = .ok stored →
        decryptSecret platform env stored options = .ok (some p) ∧
        ∀ rotated, KeepsKey platform env rotated → decryptSecret platform rotated stored options = .ok (some p)) ∧
    ∀ v p, decryptSecret platform env v options = .ok (some p) → p ≠ [] → WellFormed p → ActiveKeyKnown platform env →
      ∃ stored, reencryptSecret platform env iv v options = .ok stored ∧
        decryptSecret platform env stored options = .ok (some p) := by
  have some_iv : iv ≠ [] := by
    rintro rfl
    cases drawn
  constructor
  · intro p stored some_unit formed plain encrypted
    rcases encryptSecret_stored some_unit plain encrypted with
      ⟨keyId, key, active, known, rfl⟩ | ⟨key, inactive, known, rfl⟩
    · have read : ∀ env', getV2EncryptionKey platform env' keyId = .ok key →
          decryptSecret platform env' (some (encryptUnder platform iv p keyId key options)) options = .ok (some p) := by
        intro env' held
        rw [decryptSecret_encryptUnder (activeKeyId_valid active) held some_iv some_unit options, formed]
      refine ⟨read env known, ?_⟩
      rintro rotated ⟨keyId', key', keyring, active', known', held, found⟩
      rw [active] at active'
      cases Except.ok.inj active'
      rw [known] at known'
      cases known'
      exact read rotated (getV2EncryptionKey_keyring held found)
    · rw [decryptSecret_encrypted_v1 known some_iv some_unit options, formed]
      refine ⟨rfl, ?_⟩
      rintro rotated ⟨keyId', key', keyring, active', -⟩
      rw [inactive] at active'
      cases active'
  · rintro v p decrypted some_plain formed ⟨keyId, key, active, known⟩
    cases v with
    | none => cases decrypted
    | some v =>
      refine ⟨_, reencryptSecret_written decrypted some_plain active known, ?_⟩
      rw [decryptSecret_encryptUnder (activeKeyId_valid active) known some_iv some_plain options, formed]

/-- A platform whose cipher spells out what it is given, and whose JSON is that of one keyring. -/
def samplePlatform : Platform where
  cipher := spelledCipher
  sha256 := id
  parseJson raw := if raw = ascii "keyring" then some (.object [(ascii "old", .string (ascii "material"))]) else none
  replaced := fun _ => []

def sampleEnv : Environment where
  APP_ENCRYPTION_KEY := some (ascii "material")
  APP_ENCRYPTION_KEY_ID := some (ascii "old")

def rotatedEnv : Environment where
  APP_ENCRYPTION_KEY := some (ascii "fresh")
  APP_ENCRYPTION_KEY_ID := some (ascii "new")
  APP_ENCRYPTION_KEYRING := some (ascii "keyring")

def legacyEnv : Environment where
  APP_ENCRYPTION_KEY := some (ascii "material")

def sampleIv : Bytes := [1, 2, 3, 4, 5, 6, 7, 8, 9, 10, 11, 12]

def sampleOptions : SecretCryptoOptions where
  aad := some (ascii "webhooks.secret")

def sampleStored (p : Units) : Units :=
  encryptUnder samplePlatform sampleIv p (ascii "old") (utf8 (ascii "material")) sampleOptions

theorem hunter2_round_trip :
    decryptSecret samplePlatform sampleEnv (some (sampleStored (ascii "hunter2"))) sampleOptions =
      .ok (some (ascii "hunter2")) ∧
    decryptSecret samplePlatform rotatedEnv (some (sampleStored (ascii "hunter2"))) sampleOptions =
      .ok (some (ascii "hunter2")) ∧
    ∃ stored, reencryptSecret samplePlatform sampleEnv sampleIv (some (ascii "hunter2")) sampleOptions = .ok stored ∧
      decryptSecret samplePlatform sampleEnv stored sampleOptions = .ok (some (ascii "hunter2")) := by
  obtain ⟨trip, anew⟩ := secrets_round_trip samplePlatform sampleEnv sampleOptions sampleIv rfl
  obtain ⟨same, kept⟩ := trip (ascii "hunter2") _ (by decide) (by decide) (by decide) rfl
  refine ⟨same, kept rotatedEnv ?_, ?_⟩
  · exact ⟨ascii "old", _, _, rfl, rfl, rfl, rfl⟩
  · exact anew (some (ascii "hunter2")) (ascii "hunter2") rfl (by decide) (by decide) ⟨ascii "old", _, rfl, rfl⟩

/-- A secret that begins like a ciphertext, one with half of a pair, and one that is to be encrypted anew where no
key is active, are lost. -/
theorem secrets_lost :
    (encryptSecret samplePlatform sampleEnv sampleIv (some (ascii "enc:v1:hunter2")) sampleOptions =
        .ok (some (ascii "enc:v1:hunter2")) ∧
      decryptSecret samplePlatform sampleEnv (some (ascii "enc:v1:hunter2")) sampleOptions ≠
        .ok (some (ascii "enc:v1:hunter2"))) ∧
    (encryptSecret samplePlatform sampleEnv sampleIv (some [0xd800]) sampleOptions =
        .ok (some (sampleStored [0xd800])) ∧
      decryptSecret samplePlatform sampleEnv (some (sampleStored [0xd800])) sampleOptions ≠ .ok (some [0xd800])) ∧
    decryptSecret samplePlatform legacyEnv (some (ascii "hunter2")) sampleOptions = .ok (some (ascii "hunter2")) ∧
      ∀ stored, reencryptSecret samplePlatform legacyEnv sampleIv (some (ascii "hunter2")) sampleOptions ≠
        .ok stored := by
  refine ⟨⟨rfl, fun read => ?_⟩, ⟨rfl, fun read => ?_⟩, rfl, fun stored written => ?_⟩
  · cases read
  · have known : getV2EncryptionKey samplePlatform sampleEnv (ascii "old") = .ok (utf8 (ascii "material")) := rfl
    unfold sampleStored at read
    rw [decryptSecret_encryptUnder (by decide) known (by decide) (by decide)] at read
    exact absurd (some.inj (Except.ok.inj read)) (by decide)
  · cases written

/-- The payload decrypts under the key and the associated data. -/
def Opens (platform : Platform) (key aad : Bytes) (payload : Units) : Prop :=
  ∃ parsed plaintext, parseEncryptedPayload payload = .ok parsed ∧
    platform.cipher.decrypt key parsed.iv aad parsed.text = .ok plaintext

/-- The keys that are tried on the first generation: that of the environment and the legacy ones. -/
def v1Keys (platform : Platform) (env : Environment) : List Bytes :=
  (getEncryptionKey platform env).toOption.toList ++ getLegacyDecryptionKeys platform env

/-- The value is of the third generation, and under a known key the associated data has gone into it. -/
def ProducedWith (platform : Platform) (env : Environment) (aad : Bytes) (value : Units) : Prop :=
  ∃ keyId payload key parsed plaintext, value = ENCRYPTED_V3_PREFIX ++ (keyId ++ 58 :: payload) ∧
    matchesKeyId keyId = true ∧ getV2EncryptionKey platform env keyId = .ok key ∧
    parseEncryptedPayload payload = .ok parsed ∧ parsed.text = platform.cipher.encrypt key parsed.iv aad plaintext

section Columns
variable {platform : Platform} {env : Environment} {value payload : Units} {aad : Bytes}

theorem decryptWithKey_ok_iff {key : Bytes} :
    (∃ p, decryptWithKey platform payload key aad = .ok p) ↔ Opens platform key aad payload := by
  constructor
  · rintro ⟨p, decrypted⟩
    obtain ⟨parsed, read, rest⟩ := except_bind_ok decrypted
    obtain ⟨plaintext, opened, -⟩ := except_bind_ok rest
    exact ⟨parsed, plaintext, read, opened⟩
  · rintro ⟨parsed, plaintext, read, opened⟩
    refine ⟨ofUtf8 platform.replaced plaintext, ?_⟩
    rw [decryptWithKey, read]
    simp only [bind, Except.bind, opened]
    rfl

theorem fallback_ok_iff {x : Except String Units} {y : String → Except String Units} {second : Prop}
    (later : ∀ e, (∃ p, y e = .ok p) ↔ second) :
    (∃ p : Units, (match x with
      | .ok p => .ok p
      | .error e => y e) = Except.ok p) ↔ (∃ p, x = .ok p) ∨ second := by
  cases x with
  | ok p => exact ⟨fun _ => .inl ⟨p, rfl⟩, fun _ => ⟨p, rfl⟩⟩
  | error e => simp only [later, reduceCtorEq, exists_false, false_or]

theorem decryptLegacy_ok_iff (primaryError : String) (keys : List Bytes) :
    (∃ p, decryptLegacy platform payload primaryError keys = .ok p) ↔ ∃ key ∈ keys, Opens platform key [] payload := by
  induction keys with
  | nil => simp [decryptLegacy]
  | cons key keys ih =>
    rw [exists_mem_cons_iff, ← decryptWithKey_ok_iff]
    exact fallback_ok_iff fun _ => ih

theorem decryptV1_ok_iff :
    (∃ p, decryptV1 platform env payload = .ok p) ↔ ∃ key ∈ v1Keys platform env, Opens platform key [] payload := by
  unfold decryptV1 v1Keys
  rw [fallback_ok_iff fun e => decryptLegacy_ok_iff e (getLegacyDecryptionKeys platform env)]
  simp only [mem_append, or_and_right, exists_or]
  apply or_congr_left
  cases getEncryptionKey platform env with
  | error e => simp [bind, Except.bind, Except.toOption]
  | ok key => simpa [bind, Except.bind, Except.toOption] using decryptWithKey_ok_iff

theorem columnAad_bound (table column : Units) (strict : Bool) :
    (⟨some (columnAad table column), strict⟩ : SecretCryptoOptions).bound = some (columnAad table column) :=
  firstSet_some (append_ne_nil_of_right_ne_nil _ (cons_ne_nil _ _))

theorem decryptIdentified_malformed (isV3 : Bool) (encoded : Units) (options : SecretCryptoOptions) :
    decryptIdentified platform env isV3 encoded options = .error malformedSecret ∨
      ∃ keyId payload, encoded = keyId ++ 58 :: payload ∧ matchesKeyId keyId = true ∧ payload ≠ [] := by
  unfold decryptIdentified
  by_cases separated : 58 ∉ encoded ∨ encoded.takeWhile (· ≠ 58) = []
  · left
    simp only [if_pos separated]
    rfl
  · by_cases malformed : matchesKeyId (encoded.takeWhile (· ≠ 58)) = false ∨ (encoded.dropWhile (· ≠ 58)).tail = []
    · left
      simp only [if_neg separated, if_pos malformed]
      rfl
    · rw [not_or, not_not] at separated
      rw [not_or, Bool.not_eq_false] at malformed
      refine .inr ⟨encoded.takeWhile (· ≠ 58), (encoded.dropWhile (· ≠ 58)).tail, ?_, malformed⟩
      obtain ⟨front, back, rfl, unseparated⟩ := eq_append_cons_of_mem separated.1
      have plain : ∀ c ∈ front, decide (c ≠ 58) = true :=
        fun c member => decide_eq_true fun same => unseparated (same ▸ member)
      rw [takeWhile_append_of_pos plain, dropWhile_append_of_pos plain,
        takeWhile_cons_of_neg (by decide), dropWhile_cons_of_neg (by decide), append_nil, tail_cons]

theorem decryptIdentified_strict_v2 {options : SecretCryptoOptions} (strict : options.strict = true)
    (bound : options.bound ≠ none) (encoded : Units) :
    ∃ e, decryptIdentified platform env false encoded options = .error e := by
  rcases decryptIdentified_malformed false encoded options with refused | ⟨keyId, payload, rfl, valid, filled⟩
  · exact ⟨_, refused⟩
  · rw [decryptIdentified_written valid filled, if_neg (by decide), if_pos ⟨strict, bound⟩]
    exact ⟨_, rfl⟩

theorem decryptIdentified_v3_ok {encoded p aad : Units} {options : SecretCryptoOptions}
    (bound : options.bound = some aad) (decrypted : decryptIdentified platform env true encoded options = .ok p) :
    ∃ keyId payload key, encoded = keyId ++ 58 :: payload ∧ matchesKeyId keyId = true ∧
      getV2EncryptionKey platform env keyId = .ok key ∧ Opens platform key (utf8 aad) payload := by
  rcases decryptIdentified_malformed true encoded options with refused | ⟨keyId, payload, rfl, valid, filled⟩
  · rw [refused] at decrypted
    cases decrypted
  · rw [decryptIdentified_written valid filled, if_pos rfl, bound] at decrypted
    obtain ⟨key, known, read⟩ := except_bind_ok decrypted
    exact ⟨keyId, payload, key, rfl, valid, known, decryptWithKey_ok_iff.mp ⟨p, read⟩⟩

theorem ProducedWith.unique {other : Bytes} (one : ProducedWith platform env aad value)
    (two : ProducedWith platform env other value) : other = aad := by
  obtain ⟨keyId, payload, key, parsed, plaintext, rfl, valid, known, read, text⟩ := one
  obtain ⟨keyId', payload', key', parsed', plaintext', same, valid', known', read', text'⟩ := two
  obtain ⟨rfl, rfl⟩ := append_sep_inj (fun member => colon_not_mem_keyId valid 58 member rfl)
    (fun member => colon_not_mem_keyId valid' 58 member rfl) (append_cancel_left same)
  rw [known] at known'
  cases known'
  rw [read] at read'
  cases read'
  exact (platform.cipher.encrypt_inj (text'.symm.trans text)).2

theorem isEncryptedSecret_cases (encrypted : isEncryptedSecret value = true) :
    ∃ t, value = ENCRYPTED_V1_PREFIX ++ t ∨ value = ENCRYPTED_V2_PREFIX ++ t ∨ value = ENCRYPTED_V3_PREFIX ++ t := by
  simp only [isEncryptedSecret, Bool.or_eq_true, List.isPrefixOf_iff_prefix] at encrypted
  rcases encrypted with (⟨t, rfl⟩ | ⟨t, rfl⟩) | ⟨t, rfl⟩
  · exact ⟨t, .inl rfl⟩
  · exact ⟨t, .inr (.inl rfl)⟩
  · exact ⟨t, .inr (.inr rfl)⟩

end Columns

theorem map_some_error_iff {x : Except String Units} :
    (∃ e, (some <$> x : Except String (Option Units)) = .error e) ↔ ¬∃ p, x = .ok p := by
  cases x with
  | error e =>
    refine ⟨?_, fun _ => ⟨e, rfl⟩⟩
    rintro - ⟨p, same⟩
    cases same
  | ok p =>
    refine ⟨?_, fun none => absurd ⟨p, rfl⟩ none⟩
    rintro ⟨e, same⟩
    cases same

/-- A strict column refuses what has not been produced for it, but for a payload of the first generation that one of
the keys opens. -/
theorem decryptForColumn_strict_iff (platform : Platform) (env : Environment) (table column value : Units)
    (encrypted : isEncryptedSecret value = true) :
    ((∃ e, decryptForColumn platform env table column (some value) true = .error e) ∨
      (ProducedWith platform env (utf8 (columnAad table column)) value ∧
        ∀ aad, ProducedWith platform env aad value → aad = utf8 (columnAad table column))) ↔
    (ENCRYPTED_V1_PREFIX.isPrefixOf value = true →
      ∀ key ∈ v1Keys platform env, ¬Opens platform key [] (value.drop 7)) := by
  have bound := columnAad_bound table column true
  unfold decryptForColumn
  obtain ⟨t, rfl | rfl | rfl⟩ := isEncryptedSecret_cases encrypted
  · have foreign : ¬ProducedWith platform env (utf8 (columnAad table column)) (ENCRYPTED_V1_PREFIX ++ t) := by
      rintro ⟨keyId, payload, key, parsed, plaintext, same, -⟩
      cases same
    have first : ENCRYPTED_V1_PREFIX.isPrefixOf (ENCRYPTED_V1_PREFIX ++ t) = true := rfl
    have rest : (ENCRYPTED_V1_PREFIX ++ t).drop 7 = t := rfl
    rw [decryptSecret_v1, map_some_error_iff, decryptV1_ok_iff, first, rest]
    simp only [foreign, false_and, or_false, forall_const, not_exists, not_and]
  · have later : ENCRYPTED_V1_PREFIX.isPrefixOf (ENCRYPTED_V2_PREFIX ++ t) = false := rfl
    have refusal : ∃ e, decryptIdentified platform env false t ⟨some (columnAad table column), true⟩ = .error e :=
      decryptIdentified_strict_v2 rfl (fun missing => absurd (bound.symm.trans missing) (some_ne_none _)) t
    obtain ⟨e, refused⟩ := refusal
    rw [decryptSecret_v2, refused, later]
    exact ⟨fun _ same => absurd same (by decide), fun _ => .inl ⟨e, rfl⟩⟩
  · have later : ENCRYPTED_V1_PREFIX.isPrefixOf (ENCRYPTED_V3_PREFIX ++ t) = false := rfl
    rw [decryptSecret_v3, map_some_error_iff, later]
    refine ⟨fun _ same => absurd same (by decide), fun _ => ?_⟩
    by_cases read : ∃ p, decryptIdentified platform env true t ⟨some (columnAad table column), true⟩ = .ok p
    · obtain ⟨p, decrypted⟩ := read
      obtain ⟨keyId, payload, key, rfl, valid, known, parsed, plaintext, found, opened⟩ :=
        decryptIdentified_v3_ok bound decrypted
      have produced : ProducedWith platform env (utf8 (columnAad table column))
          (ENCRYPTED_V3_PREFIX ++ (keyId ++ 58 :: payload)) :=
        ⟨keyId, payload, key, parsed, plaintext, rfl, valid, known, found, platform.cipher.encrypt_of_decrypt opened⟩
      exact .inr ⟨produced, fun aad other => produced.unique other⟩
    · exact .inl read

/-- A secret of the first generation, as it stands in the column it was written to. -/
def sampleV1 : Units :=
  encryptWithKey samplePlatform sampleIv (ascii "hunter2") (utf8 (ascii "material")) ENCRYPTED_V1_PREFIX []

theorem webhook_secret_strict :
    (∃ e, decryptForColumn samplePlatform sampleEnv (ascii "webhooks") (ascii "secret")
      (some (sampleStored (ascii "hunter2"))) true = .error e) ∨
    (ProducedWith samplePlatform sampleEnv (utf8 (columnAad (ascii "webhooks") (ascii "secret")))
        (sampleStored (ascii "hunter2")) ∧
      ∀ aad, ProducedWith samplePlatform sampleEnv aad (sampleStored (ascii "hunter2")) →
        aad = utf8 (columnAad (ascii "webhooks") (ascii "secret"))) :=
  (decryptForColumn_strict_iff samplePlatform sampleEnv (ascii "webhooks") (ascii "secret")
    (sampleStored (ascii "hunter2")) rfl).mpr fun first => by cases first

/-- A secret of the first generation is decrypted in a strict column of another table. -/
theorem strict_column_opens_v1 :
    ¬((∃ e, decryptForColumn samplePlatform sampleEnv (ascii "webhooks") (ascii "secret") (some sampleV1) true =
        .error e) ∨
      (ProducedWith samplePlatform sampleEnv (utf8 (columnAad (ascii "webhooks") (ascii "secret"))) sampleV1 ∧
        ∀ aad, ProducedWith samplePlatform sampleEnv aad sampleV1 →
          aad = utf8 (columnAad (ascii "webhooks") (ascii "secret")))) := by
  rintro (⟨e, refused⟩ | ⟨⟨keyId, payload, key, parsed, plaintext, same, -⟩, -⟩)
  · have known : getEncryptionKey samplePlatform sampleEnv = .ok (utf8 (ascii "material")) := rfl
    unfold decryptForColumn sampleV1 at refused
    rw [decryptSecret_encrypted_v1 known (by decide) (by decide)] at refused
    cases refused
  · cases same

end RemudaRmm.Security
