import RemudaRmm.Foundation.Calendar
import RemudaRmm.Foundation.Encodings
import RemudaRmm.Foundation.InsertionMap

/-! The comparison of a scan with a network baseline (`services/networkBaseline.ts`): the events of a scan, the key
under which an event counts as a repetition, and the devices that are known afterwards. -/
namespace RemudaRmm.Baselines
open Foundation

inductive AssetType where
  | workstation | server | printer | router | switch | firewall | accessPoint | phone | iot | camera | nas | unknown
  deriving DecidableEq

def AssetType.text : AssetType → Text
  | workstation => "workstation".toList
  | server => "server".toList
  | printer => "printer".toList
  | router => "router".toList
  | switch => "switch".toList
  | firewall => "firewall".toList
  | accessPoint => "access_point".toList
  | phone => "phone".toList
  | iot => "iot".toList
  | camera => "camera".toList
  | nas => "nas".toList
  | unknown => "unknown".toList

def assetTypes : List AssetType :=
  [.workstation, .server, .printer, .router, .switch, .firewall, .accessPoint, .phone, .iot, .camera, .nas, .unknown]

inductive NetworkEventType where
  | newDevice | deviceDisappeared | deviceChanged | rogueDevice
  deriving DecidableEq

def NetworkEventType.text : NetworkEventType → Text
  | newDevice => "new_device".toList
  | deviceDisappeared => "device_disappeared".toList
  | deviceChanged => "device_changed".toList
  | rogueDevice => "rogue_device".toList

def isSpace (c : Char) : Bool := isSpaceCode c.toNat

def trim (t : Text) : Text := trimBy isSpace t

structure OpenPort where
  port : ℤ
  service : Text
  deriving DecidableEq

structure DiscoveredHostResult where
  ip : Text
  (mac hostname assetType manufacturer : Option Text)
  openPorts : Option (List OpenPort)
  deriving DecidableEq

structure DiscoveredAsset where
  (linkedDeviceId macAddress hostname : Option Text)
  assetType : Option AssetType
  manufacturer : Option Text
  openPorts : Option (List OpenPort)

structure EnrichedDiscoveredHost where
  ip : Text
  (mac hostname : Option Text)
  assetType : AssetType
  manufacturer : Option Text
  openPorts : Option (List OpenPort)
  linkedDeviceId : Option Text

/-- A device of the baseline; times are in milliseconds. -/
structure KnownNetworkDevice where
  ip : Text
  (mac hostname : Option Text)
  assetType : AssetType
  (manufacturer linkedDeviceId : Option Text)
  (firstSeen lastSeen : ℤ)

structure PreviousState where
  (hostname macAddress : Option Text)
  assetType : AssetType
  manufacturer : Option Text
  lastSeen : ℤ

structure CurrentState where
  (hostname macAddress : Option Text)
  assetType : AssetType
  manufacturer : Option Text
  openPorts : List OpenPort

structure NetworkChangeEvent where
  eventType : NetworkEventType
  ipAddress : Text
  (macAddress hostname : Option Text)
  assetType : AssetType
  previousState : Option PreviousState
  currentState : Option CurrentState
  linkedDeviceId : Option Text
  detectedAt : ℤ

structure OrgNetworkPolicy where
  blockedManufacturers : List Text
  allowedAssetTypes : List AssetType

/-- The letters in lower case, and an event as its row gives it back; without a row where the insert fails. -/
structure Platform where
  toLowerCase : Text → Text
  stored : NetworkChangeEvent → Option NetworkChangeEvent

def jsonChar (c : Char) : Text :=
  if c = '"' then "\\\"".toList
  else if c = '\\' then "\\\\".toList
  else if c.toNat = 8 then "\\b".toList
  else if c.toNat = 9 then "\\t".toList
  else if c.toNat = 10 then "\\n".toList
  else if c.toNat = 12 then "\\f".toList
  else if c.toNat = 13 then "\\r".toList
  else if c.toNat < 32 then
    "\\u00".toList ++ [Nat.digitChar (c.toNat / 16), Nat.digitChar (c.toNat % 16)]
  else [c]

def jsonString (t : Text) : Text := '"' :: (t.flatMap jsonChar ++ ['"'])

def jsonInt (z : ℤ) : Text := if z < 0 then '-' :: decimal z.natAbs else decimal z.natAbs

def jsonList (items : List Text) : Text := '[' :: ([','].intercalate items ++ [']'])

def jsonObject (members : List (Option (Text × Text))) : Text :=
  '\x7b' :: ([','].intercalate ((members.filterMap id).map fun m => jsonString m.1 ++ ':' :: m.2) ++ ['\x7d'])

def jsonNull : Text := "null".toList

/-- `toISOString`. -/
def toIso (ms : ℤ) : Text :=
  let day := Civil.normalize (12 * 1970) (1 + ms / 86400000)
  let inDay := (ms % 86400000).toNat
  let year :=
    if 0 ≤ day.year ∧ day.year ≤ 9999 then padStart 4 (decimal day.year.toNat)
    else (if day.year < 0 then '-' else '+') :: padStart 6 (decimal day.year.natAbs)
  year ++ '-' :: padStart 2 (decimal day.month) ++ '-' :: padStart 2 (decimal day.day) ++
    'T' :: padStart 2 (decimal (inDay / 3600000)) ++ ':' :: padStart 2 (decimal (inDay / 60000 % 60)) ++
    ':' :: padStart 2 (decimal (inDay / 1000 % 60)) ++ '.' :: padStart 3 (decimal (inDay % 1000)) ++ ['Z']

/-- A member that is there with `null` for a missing value. -/
def nullable (key : String) (value : Option Text) : Option (Text × Text) :=
  some (key.toList, (value.map jsonString).getD jsonNull)

def optional (key : String) (value : Option Text) : Option (Text × Text) :=
  value.map fun t => (key.toList, jsonString t)

def PreviousState.json (state : PreviousState) : Text :=
  jsonObject
    [some ("assetType".toList, jsonString state.assetType.text), nullable "hostname" state.hostname,
      some ("lastSeen".toList, jsonString (toIso state.lastSeen)), nullable "macAddress" state.macAddress,
      nullable "manufacturer" state.manufacturer]

def OpenPort.json (p : OpenPort) : Text :=
  jsonObject [some ("port".toList, jsonInt p.port), some ("service".toList, jsonString p.service)]

def CurrentState.json (state : CurrentState) : Text :=
  jsonObject
    [some ("assetType".toList, jsonString state.assetType.text), optional "hostname" state.hostname,
      optional "macAddress" state.macAddress, optional "manufacturer" state.manufacturer,
      some ("openPorts".toList, jsonList (state.openPorts.map OpenPort.json))]

section Normal
variable (p : Platform)

def normalizeAssetType (value : Option Text) : AssetType :=
  match value with
  | none | some [] => .unknown
  | some text =>
    let normalized := (p.toLowerCase (trim text)).map fun c => if isSpace c || c == '-' then '_' else c
    if normalized = "port_scan".toList then .unknown
    else if normalized = "windows".toList ∨ normalized = "linux".toList ∨ normalized = "macos".toList then
      .workstation
    else (assetTypes.find? fun type => type.text = normalized).getD .unknown

/-- `normalizeMac` and `normalizeHostname`. -/
def normalizeName (name : Option Text) : Option Text :=
  (name.map fun text => p.toLowerCase (trim text)).filter (· ≠ [])

def resolveLinkedDeviceId (value : Option Text) : Option Text := value.filter (· ≠ [])

def parseKnownDevices (stored : List KnownNetworkDevice) : List KnownNetworkDevice :=
  stored.filterMap fun record =>
    if trim record.ip = [] then none
    else some { record with ip := trim record.ip, linkedDeviceId := resolveLinkedDeviceId record.linkedDeviceId }

def enrich (discovered : Text → Option DiscoveredAsset) (host : DiscoveredHostResult) : EnrichedDiscoveredHost where
  ip := host.ip
  mac := host.mac <|> (discovered host.ip).bind (·.macAddress)
  hostname := host.hostname <|> (discovered host.ip).bind (·.hostname)
  assetType := normalizeAssetType p
    (host.assetType <|> ((discovered host.ip).bind (·.assetType)).map AssetType.text <|> some "unknown".toList)
  manufacturer := host.manufacturer <|> (discovered host.ip).bind (·.manufacturer)
  openPorts := host.openPorts <|> (discovered host.ip).bind (·.openPorts)
  linkedDeviceId := (discovered host.ip).bind (·.linkedDeviceId)

def isRogueDeviceByPolicy (host : EnrichedDiscoveredHost) (policy : OrgNetworkPolicy) : Bool :=
  let manufacturer := (host.manufacturer.map fun text => p.toLowerCase (trim text)).getD []
  (manufacturer ≠ [] && policy.blockedManufacturers.contains manufacturer) ||
    (policy.allowedAssetTypes ≠ [] && !policy.allowedAssetTypes.contains host.assetType)

def mergedDevice (now : ℤ) (current : Option KnownNetworkDevice) (host : EnrichedDiscoveredHost) :
    KnownNetworkDevice where
  ip := host.ip
  mac := host.mac <|> current.bind (·.mac)
  hostname := host.hostname <|> current.bind (·.hostname)
  assetType := host.assetType
  manufacturer := host.manufacturer <|> current.bind (·.manufacturer)
  linkedDeviceId := resolveLinkedDeviceId host.linkedDeviceId <|> current.bind (·.linkedDeviceId)
  firstSeen := (current.map (·.firstSeen)).getD now
  lastSeen := now

def mergeHost (now : ℤ) (state : List (Text × KnownNetworkDevice) × List KnownNetworkDevice)
    (host : EnrichedDiscoveredHost) : List (Text × KnownNetworkDevice) × List KnownNetworkDevice :=
  if host.ip = [] then state
  else (InsertionMap.remove host.ip state.1, state.2 ++ [mergedDevice now (InsertionMap.get host.ip state.1) host])

def mergeKnownDevices (now : ℤ) (existing : List KnownNetworkDevice) (scanResults : List EnrichedDiscoveredHost) :
    List KnownNetworkDevice :=
  let merged := scanResults.foldl (mergeHost now)
    (InsertionMap.ofValues (·.ip) (existing.filter fun device => device.ip ≠ []), [])
  merged.2 ++ merged.1.map Prod.snd

def fingerprint (e : NetworkChangeEvent) : Text :=
  [':'].intercalate
    [e.eventType.text, e.ipAddress, (normalizeName p e.macAddress).getD [], (normalizeName p e.hostname).getD [],
      e.assetType.text, (e.previousState.map PreviousState.json).getD [],
      (e.currentState.map CurrentState.json).getD []]

def hasHostChanged (existing : KnownNetworkDevice) (current : EnrichedDiscoveredHost) : Bool :=
  if normalizeName p existing.mac ≠ normalizeName p current.mac then true
  else if normalizeName p existing.hostname ≠ normalizeName p current.hostname then true
  else existing.assetType ≠ current.assetType

def buildPreviousState (existing : KnownNetworkDevice) : PreviousState :=
  ⟨existing.hostname, existing.mac, existing.assetType, existing.manufacturer, existing.lastSeen⟩

def buildCurrentState (host : EnrichedDiscoveredHost) : CurrentState :=
  ⟨host.hostname, host.mac, host.assetType, host.manufacturer, host.openPorts.getD []⟩

structure Pending where
  eventKeys : List Text
  events : List NetworkChangeEvent

def Pending.tryQueueEvent (pending : Pending) (e : NetworkChangeEvent) : Pending :=
  if fingerprint p e ∈ pending.eventKeys then pending
  else ⟨fingerprint p e :: pending.eventKeys, pending.events ++ [e]⟩

def hostEvent (type : NetworkEventType) (now : ℤ) (previous : Option KnownNetworkDevice)
    (host : EnrichedDiscoveredHost) : NetworkChangeEvent :=
  ⟨type, host.ip, host.mac, host.hostname, host.assetType, previous.map buildPreviousState,
    some (buildCurrentState host), host.linkedDeviceId <|> previous.bind (·.linkedDeviceId), now⟩

def compareHost (now : ℤ) (policy : OrgNetworkPolicy) (knownByIp : List (Text × KnownNetworkDevice))
    (pending : Pending) (host : EnrichedDiscoveredHost) : Pending :=
  match InsertionMap.get host.ip knownByIp with
  | none =>
    let queued := pending.tryQueueEvent p (hostEvent .newDevice now none host)
    if isRogueDeviceByPolicy p host policy then queued.tryQueueEvent p (hostEvent .rogueDevice now none host)
    else queued
  | some existing =>
    if hasHostChanged p existing host then
      pending.tryQueueEvent p (hostEvent .deviceChanged now (some existing) host)
    else pending

def dayMs : ℤ := 24 * 60 * 60 * 1000

def compareKnown (now : ℤ) (scannedIps : List Text) (pending : Pending) (known : KnownNetworkDevice) : Pending :=
  if known.ip ∈ scannedIps then pending
  else if known.lastSeen > now - dayMs then pending
  else
    pending.tryQueueEvent p
      ⟨.deviceDisappeared, known.ip, known.mac, known.hostname, known.assetType, some (buildPreviousState known), none,
        known.linkedDeviceId, now⟩

structure NetworkBaseline where
  knownDevices : List KnownNetworkDevice
  events : List NetworkChangeEvent

structure ScanCall where
  now : ℤ
  hosts : List DiscoveredHostResult
  policy : OrgNetworkPolicy

variable (discovered : Text → Option DiscoveredAsset)

def enrichedHosts (hosts : List DiscoveredHostResult) : List EnrichedDiscoveredHost :=
  (hosts.filter fun host => host.ip ≠ []).map (enrich p discovered)

def pendingEvents (baseline : NetworkBaseline) (call : ScanCall) : Pending :=
  let knownDevices := parseKnownDevices baseline.knownDevices
  let enriched := enrichedHosts p discovered call.hosts
  let recent := baseline.events.filter fun e => call.now - dayMs ≤ e.detectedAt
  let compared := enriched.foldl (compareHost p call.now call.policy (InsertionMap.ofValues (·.ip) knownDevices))
    ⟨recent.map (fingerprint p), []⟩
  knownDevices.foldl (compareKnown p call.now (enriched.map (·.ip))) compared

/-- The baseline after the scan and the events that were created; nothing where an event cannot be inserted. -/
def compareBaselineScan (baseline : NetworkBaseline) (call : ScanCall) :
    Option (NetworkBaseline × List NetworkChangeEvent) :=
  let created := (pendingEvents p discovered baseline call).events
  (created.mapM p.stored).map fun rows =>
    (⟨mergeKnownDevices call.now (parseKnownDevices baseline.knownDevices) (enrichedHosts p discovered call.hosts),
      baseline.events ++ rows⟩, created)

end Normal

end RemudaRmm.Baselines
