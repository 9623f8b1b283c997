import RemudaRmm.Foundation.Text
import Mathlib.Data.List.Perm.Basic

/-! What a scan does to the topology of a site (`reconcileTopology.ts`): edges are written from the neighbours and the
forwarding tables that walked devices report, and edges that are no longer reported are aged out. -/
namespace RemudaRmm.Discovery
open Foundation

structure LldpNeighbor where
  localPort : Text
  localIfName : Option Text
  (remoteChassisId remotePortId : Text)
  remoteSysName : Option Text

structure CdpNeighbor where
  (localPort remoteDeviceId remotePortId : Text)
  remoteAddress : Option Text

structure FdbEntry where
  mac : Text
  bridgePort : ℕ
  ifName : Option Text
  vlan : Option ℕ

structure DeviceAdjacency where
  sourceDeviceIp : Text
  sourceChassisId : Option Text
  lldp : List LldpNeighbor
  cdp : List CdpNeighbor
  fdb : List FdbEntry

structure DiscoveredAsset where
  (id orgId siteId : ℕ)
  ipAddress : Text
  (macAddress hostname snmpSysName : Option Text)

/-- The entries of a `Map` in the order in which they were set. -/
abbrev SetEntries := List (Text × ℕ)

def SetEntries.get (entries : SetEntries) (key : Text) : Option ℕ :=
  (entries.reverse.find? (·.1 = key)).map Prod.snd

structure AssetMatchIndex where
  (byMac byIp bySysName : SetEntries)

def truthy (t : Option Text) : Option Text := t.filter (· ≠ [])

def normMac (t : Text) : Text := (t.map Char.toLower).filter fun c => c.isDigit || ('a' ≤ c && c ≤ 'f')

/-- `rows` are the assets of the organisation's site, in the order in which they are selected. -/
def assetIndexOf (rows : List DiscoveredAsset) : AssetMatchIndex where
  byMac := rows.filterMap fun r => (truthy r.macAddress).map fun mac => (normMac mac, r.id)
  byIp := rows.filterMap fun r => (truthy (some r.ipAddress)).map fun ip => (ip, r.id)
  bySysName := rows.flatMap fun r =>
    ((truthy r.hostname).map fun name => (name, r.id)).toList ++
      ((truthy r.snmpSysName).map fun name => (name, r.id)).toList

def buildAssetIndex (orgId siteId : ℕ) (assets : List DiscoveredAsset) : AssetMatchIndex :=
  assetIndexOf (assets.filter fun r => r.orgId = orgId ∧ r.siteId = siteId)

section Index
variable (assetIndex : AssetMatchIndex)

structure InfraEdge where
  (sourceId targetId : ℕ)
  method : Text
  interfaceName : Option Text

def lldp : Text := "lldp".toList

def cdp : Text := "cdp".toList

def fdb : Text := "fdb".toList

def lldpTarget (n : LldpNeighbor) : Option ℕ :=
  (assetIndex.byMac.get (normMac n.remoteChassisId)).or ((truthy n.remoteSysName).bind assetIndex.bySysName.get)

def cdpTarget (n : CdpNeighbor) : Option ℕ :=
  ((truthy n.remoteAddress).bind assetIndex.byIp.get).or
    ((truthy (some n.remoteDeviceId)).bind assetIndex.bySysName.get)

def push (out : List InfraEdge) (e : InfraEdge) : List InfraEdge :=
  if e.sourceId = e.targetId ∨
      ∃ o ∈ out, o.sourceId = e.sourceId ∧ o.targetId = e.targetId ∧ o.method = e.method then out
  else out ++ [e]

def blockEdges (block : DeviceAdjacency) : List InfraEdge :=
  (assetIndex.byIp.get block.sourceDeviceIp).elim [] fun sourceId =>
    (block.lldp.filterMap fun n =>
      (lldpTarget assetIndex n).map fun targetId => ⟨sourceId, targetId, lldp, n.localIfName.or (some n.localPort)⟩) ++
    block.cdp.filterMap fun n =>
      (cdpTarget assetIndex n).map fun targetId => ⟨sourceId, targetId, cdp, some n.localPort⟩

def buildInfraEdges (adjacency : List DeviceAdjacency) : List InfraEdge :=
  (adjacency.flatMap (blockEdges assetIndex)).foldl push []

def MAX_MACS_PER_ACCESS_PORT : ℕ := 16

structure FdbAttachment where
  (switchAssetId hostAssetId : ℕ)
  interfaceName : Option Text
  vlan : Option ℕ

structure FdbReconcileResult where
  attachments : List FdbAttachment := []
  skippedUnknownMac : ℕ := 0
  skippedUplinkPort : ℕ := 0
  skippedOverThreshold : ℕ := 0

def portKey (e : FdbEntry) : Text := e.ifName.getD (decimal e.bridgePort)

def isUplink (block : DeviceAdjacency) (e : FdbEntry) : Bool :=
  let uplinkIfNames := block.lldp.filterMap fun n => truthy n.localIfName
  let uplinkLocalPorts := (block.lldp.filterMap fun n => truthy (some n.localPort)) ++
    block.cdp.filterMap fun n => truthy (some n.localPort)
  e.ifName.any (fun ifName => ifName ∈ uplinkIfNames ∨ ifName ∈ uplinkLocalPorts) ||
    decide (decimal e.bridgePort ∈ uplinkLocalPorts)

/-- `accessByPort`: the entries of each port, the ports in the order of their first entry. -/
def groupByPort : List (Text × List FdbEntry) → FdbEntry → List (Text × List FdbEntry)
  | [], e => [(portKey e, [e])]
  | (key, entries) :: rest, e =>
    if key = portKey e then (key, entries ++ [e]) :: rest else (key, entries) :: groupByPort rest e

def attachEntry (switchAssetId : ℕ) (result : FdbReconcileResult) (e : FdbEntry) : FdbReconcileResult :=
  match (truthy (some (normMac e.mac))).bind assetIndex.byMac.get with
  | none => { result with skippedUnknownMac := result.skippedUnknownMac + 1 }
  | some hostAssetId =>
    if hostAssetId = switchAssetId then result
    else { result with attachments := result.attachments ++ [⟨switchAssetId, hostAssetId, e.ifName, e.vlan⟩] }

def attachPort (switchAssetId : ℕ) (result : FdbReconcileResult) (port : Text × List FdbEntry) : FdbReconcileResult :=
  if MAX_MACS_PER_ACCESS_PORT < port.2.length then
    { result with skippedOverThreshold := result.skippedOverThreshold + 1 }
  else port.2.foldl (attachEntry assetIndex switchAssetId) result

def computeFdbAttachments (block : DeviceAdjacency) (switchAssetId : Option ℕ) : FdbReconcileResult :=
  switchAssetId.elim {} fun switchAssetId =>
    let access := block.fdb.filter fun e => !isUplink block e
    (access.foldl groupByPort []).foldl (attachPort assetIndex switchAssetId)
      { skippedUplinkPort := block.fdb.countP (isUplink block) }

/-- The asset a block is about: by the address, or failing that by the chassis. -/
def blockSource (block : DeviceAdjacency) : Option ℕ :=
  (assetIndex.byIp.get block.sourceDeviceIp).or
    ((truthy block.sourceChassisId).bind fun chassis => assetIndex.byMac.get (normMac chassis))

def computeWalkedSourceIds (adjacency : List DeviceAdjacency) : List ℕ := adjacency.filterMap (blockSource assetIndex)

def fdbAttachments (adjacency : List DeviceAdjacency) : List FdbAttachment :=
  adjacency.flatMap fun block => (computeFdbAttachments assetIndex block (blockSource assetIndex block)).attachments

end Index

def discoveredAsset : Text := "discovered_asset".toList

/-- `ux_network_topology_provenance`. -/
structure EdgeKey where
  (orgId siteId : ℕ)
  sourceType : Text
  sourceId : ℕ
  targetType : Text
  targetId : ℕ
  method : Option Text
  deriving DecidableEq

structure EdgeRow where
  connectionType : Text
  interfaceName : Option Text
  vlan : Option ℕ
  confidence : Option Text
  lastVerifiedAt : Option ℤ
  updatedAt : ℤ

/-- The edges under their keys. -/
abbrev Topology := EdgeKey → Option EdgeRow

def MEASURED_EDGE_AGEOUT_FLOOR_MS : ℤ := 5 * 60 * 1000

def verifiedSince (floor : ℤ) (row : EdgeRow) : Bool := row.lastVerifiedAt.any (floor ≤ ·)

section Site
variable (orgId siteId : ℕ) (now : ℤ)

def edgeKey (sourceId targetId : ℕ) (method : Text) : EdgeKey :=
  ⟨orgId, siteId, discoveredAsset, sourceId, discoveredAsset, targetId, some method⟩

def upsertInfraEdge (topology : Topology) (e : InfraEdge) : Topology :=
  let key := edgeKey orgId siteId e.sourceId e.targetId e.method
  Function.update topology key (some ((topology key).elim
    ⟨"infra".toList, e.interfaceName, none, some "high".toList, some now, now⟩ fun row =>
      { row with interfaceName := e.interfaceName, confidence := some "high".toList, lastVerifiedAt := some now,
                 updatedAt := now }))

def upsertFdbAttachment (topology : Topology) (att : FdbAttachment) : Topology :=
  Function.update topology (edgeKey orgId siteId att.switchAssetId att.hostAssetId fdb)
    (some ⟨"access".toList, att.interfaceName, att.vlan, some "medium".toList, some now, now⟩)

/-- Deletes the edges of walked sources that are not kept; an edge is kept if something was written in this pass and the
edge was verified since the floor. -/
def ageOutEdges (methods : List Text) (upserted : Bool) (walkedSourceIds : List ℕ) (topology : Topology) : Topology :=
  fun key => (topology key).filter fun row =>
    !(walkedSourceIds ≠ [] && key.orgId = orgId && key.siteId = siteId && key.method.any (· ∈ methods) &&
      key.sourceId ∈ walkedSourceIds && !(upserted && verifiedSince (now - MEASURED_EDGE_AGEOUT_FLOOR_MS) row))

def ageOutMeasuredEdges (upserted : List InfraEdge) : List ℕ → Topology → Topology :=
  ageOutEdges orgId siteId now [lldp, cdp] (upserted ≠ [])

def ageOutFdbEdges (anyFdbUpserted : Bool) : List ℕ → Topology → Topology :=
  ageOutEdges orgId siteId now [fdb] anyFdbUpserted

/-- One call, with the assets as they are selected and one reading of the clock. -/
def reconcileTopology (assets : List DiscoveredAsset) (adjacency : List DeviceAdjacency) (topology : Topology) :
    Topology :=
  if adjacency = [] then ageOutMeasuredEdges orgId siteId now [] [] topology
  else
    let assetIndex := buildAssetIndex orgId siteId assets
    let edges := buildInfraEdges assetIndex adjacency
    let walkedSourceIds := computeWalkedSourceIds assetIndex adjacency
    let attachments := fdbAttachments assetIndex adjacency
    let written := attachments.foldl (upsertFdbAttachment orgId siteId now)
      (edges.foldl (upsertInfraEdge orgId siteId now) topology)
    ageOutFdbEdges orgId siteId now (attachments ≠ []) walkedSourceIds
      (ageOutMeasuredEdges orgId siteId now edges walkedSourceIds written)

end Site

end RemudaRmm.Discovery
