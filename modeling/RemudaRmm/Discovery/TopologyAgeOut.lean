import RemudaRmm.Discovery.TopologyWrites

/-! Which edges a scan ages out. Neighbours are rebuilt for devices that are found by their address only, while devices
found by their chassis count as walked too, and the grace holds only if the pass has written an edge. -/
namespace RemudaRmm.Discovery
open Foundation List Option EdgeRow

section AgeOut
variable {orgId siteId : ℕ} {now : ℤ} {methods : List Text} {upserted : Bool} {walked walked' : List ℕ}
  {topology topology' : Topology} {key : EdgeKey} {row : EdgeRow}

def Doomed (orgId siteId : ℕ) (now : ℤ) (methods : List Text) (upserted : Bool) (walked : List ℕ) (key : EdgeKey)
    (row : EdgeRow) : Prop :=
  key.orgId = orgId ∧ key.siteId = siteId ∧ (∃ method ∈ methods, key.method = some method) ∧ key.sourceId ∈ walked ∧
    ¬(upserted = true ∧ verifiedSince (now - MEASURED_EDGE_AGEOUT_FLOOR_MS) row = true)

theorem ageOutEdges_of_none (absent : topology key = none) :
    ageOutEdges orgId siteId now methods upserted walked topology key = none := by
  rw [ageOutEdges, absent]
  rfl

theorem doomed_iff :
    (walked ≠ [] && key.orgId = orgId && key.siteId = siteId && key.method.any (· ∈ methods) &&
      key.sourceId ∈ walked && !(upserted && verifiedSince (now - MEASURED_EDGE_AGEOUT_FLOOR_MS) row)) = true ↔
      Doomed orgId siteId now methods upserted walked key row := by
  have method : key.method.any (fun m => decide (m ∈ methods)) = true ↔ ∃ m ∈ methods, key.method = some m := by
    cases key.method with
    | none => simp only [any_none, Bool.false_eq_true, reduceCtorEq, and_false, exists_false]
    | some m => simp only [any_some, decide_eq_true_eq, Option.some.injEq, exists_eq_right']
  simp only [Bool.and_eq_true, decide_eq_true_eq, Bool.not_eq_true', Bool.and_eq_false_iff, Doomed, method, not_and_or,
    Bool.not_eq_true]
  constructor
  · rintro ⟨⟨⟨⟨⟨-, org⟩, site⟩, method⟩, source⟩, kept⟩
    exact ⟨org, site, method, source, kept⟩
  · rintro ⟨org, site, method, source, kept⟩
    exact ⟨⟨⟨⟨⟨ne_nil_of_mem source, org⟩, site⟩, method⟩, source⟩, kept⟩

theorem ageOutEdges_eq_none (stored : topology key = some row) :
    ageOutEdges orgId siteId now methods upserted walked topology key = none ↔
      Doomed orgId siteId now methods upserted walked key row := by
  rw [ageOutEdges, stored, filter_some_eq_none, ← doomed_iff]
  simp only [Bool.not_eq_true', Bool.not_eq_false]

theorem ageOutEdges_of_not (stored : topology key = some row)
    (spared : ¬Doomed orgId siteId now methods upserted walked key row) :
    ageOutEdges orgId siteId now methods upserted walked topology key = some row := by
  rw [ageOutEdges, stored]
  apply filter_some_pos
  rw [Bool.not_eq_true', ← Bool.not_eq_true, doomed_iff]
  exact spared

theorem doomed_outline : Doomed orgId siteId now methods upserted walked key row ↔
    Doomed orgId siteId now methods upserted walked key row.outline := Iff.rfl

theorem ageOutEdges_outline (same : ∀ id, id ∈ walked ↔ id ∈ walked')
    (outlines : (topology key).map outline = (topology' key).map outline) :
    (ageOutEdges orgId siteId now methods upserted walked topology key).map outline =
      (ageOutEdges orgId siteId now methods upserted walked' topology' key).map outline := by
  cases stored : topology key with
  | none =>
    rw [stored, map_none] at outlines
    rw [ageOutEdges_of_none stored, ageOutEdges_of_none (map_eq_none_iff.mp outlines.symm)]
  | some row =>
    rw [stored, map_some] at outlines
    obtain ⟨row', stored', outline⟩ := map_eq_some_iff.mp outlines.symm
    have agree : Doomed orgId siteId now methods upserted walked key row ↔
        Doomed orgId siteId now methods upserted walked' key row' := by
      rw [@doomed_outline _ _ _ _ _ _ _ row, @doomed_outline _ _ _ _ _ _ _ row', outline]
      simp only [Doomed, same]
    by_cases doomed : Doomed orgId siteId now methods upserted walked key row
    · rw [(ageOutEdges_eq_none stored).mpr doomed, (ageOutEdges_eq_none stored').mpr (agree.mp doomed)]
    · rw [ageOutEdges_of_not stored doomed, ageOutEdges_of_not stored' (mt agree.mpr doomed), map_some,
        map_some, outline]

theorem ageOutEdges_unwalked : ageOutEdges orgId siteId now methods upserted [] topology = topology := by
  funext key
  cases stored : topology key with
  | none => exact ageOutEdges_of_none stored
  | some row => exact ageOutEdges_of_not stored fun doomed => absurd doomed.2.2.2.1 not_mem_nil

end AgeOut

section Call
variable {orgId siteId : ℕ} {now : ℤ} {assets : List DiscoveredAsset} {adjacency adjacency' : List DeviceAdjacency}
  {topology : Topology} {key : EdgeKey} {row : EdgeRow}
variable {sourceId targetId : ℕ} {method : Text}

def Reinforced (orgId siteId : ℕ) (assetIndex : AssetMatchIndex) (adjacency : List DeviceAdjacency) (key : EdgeKey) :
    Prop :=
  ∃ e ∈ buildInfraEdges assetIndex adjacency, edgeKey orgId siteId e.sourceId e.targetId e.method = key

/-- The edge is one that the call writes for a host on an access port. -/
def Reattached (orgId siteId : ℕ) (assetIndex : AssetMatchIndex) (adjacency : List DeviceAdjacency) (key : EdgeKey) :
    Prop :=
  ∃ att ∈ fdbAttachments assetIndex adjacency, edgeKey orgId siteId att.switchAssetId att.hostAssetId fdb = key

variable {assetIndex : AssetMatchIndex}

theorem edgeKey_eq : edgeKey orgId siteId sourceId targetId method = key ↔
    key.orgId = orgId ∧ key.siteId = siteId ∧ key.sourceType = discoveredAsset ∧ key.targetType = discoveredAsset ∧
      key.sourceId = sourceId ∧ key.targetId = targetId ∧ key.method = some method := by
  constructor
  · rintro rfl
    exact ⟨rfl, rfl, rfl, rfl, rfl, rfl, rfl⟩
  · cases key
    rintro ⟨rfl, rfl, rfl, rfl, rfl, rfl, rfl⟩
    rfl

theorem reinforced_iff : Reinforced orgId siteId assetIndex adjacency key ↔
    key.orgId = orgId ∧ key.siteId = siteId ∧ key.sourceType = discoveredAsset ∧ key.targetType = discoveredAsset ∧
      ∃ method, key.method = some method ∧ Rebuilt assetIndex adjacency key.sourceId key.targetId method := by
  constructor
  · rintro ⟨e, member, here⟩
    obtain ⟨org, site, source, target, sourceId, targetId, method⟩ := edgeKey_eq.mp here
    exact ⟨org, site, source, target, e.method, method,
      mem_buildInfraEdges.mp ⟨e, member, by rw [sourceId, targetId, InfraEdge.place]⟩⟩
  · rintro ⟨org, site, source, target, method, same, rebuilt⟩
    obtain ⟨e, member, place⟩ := mem_buildInfraEdges.mpr rebuilt
    obtain ⟨sourceId, rest⟩ := Prod.mk.inj place
    obtain ⟨targetId, rfl⟩ := Prod.mk.inj rest
    exact ⟨e, member, edgeKey_eq.mpr ⟨org, site, source, target, sourceId.symm, targetId.symm, same⟩⟩

theorem reattached_iff : Reattached orgId siteId assetIndex adjacency key ↔
    key.orgId = orgId ∧ key.siteId = siteId ∧ key.sourceType = discoveredAsset ∧ key.targetType = discoveredAsset ∧
      key.method = some fdb ∧
      ∃ block ∈ adjacency, blockSource assetIndex block = some key.sourceId ∧
        Attached assetIndex block key.targetId := by
  constructor
  · rintro ⟨att, member, here⟩
    obtain ⟨org, site, source, target, sourceId, targetId, method⟩ := edgeKey_eq.mp here
    obtain ⟨block, among, computed⟩ := mem_flatMap.mp member
    refine ⟨org, site, source, target, method, block, among, ?_, att, computed, targetId.symm⟩
    rw [computeFdbAttachments_switch computed, sourceId]
  · rintro ⟨org, site, source, target, method, block, among, found, att, computed, host⟩
    have switch := some.inj (found.symm.trans (computeFdbAttachments_switch computed))
    exact ⟨att, mem_flatMap.mpr ⟨block, among, computed⟩,
      edgeKey_eq.mpr ⟨org, site, source, target, switch, host.symm, method⟩⟩

theorem lldp_ne_fdb : lldp ≠ fdb := by decide

theorem cdp_ne_fdb : cdp ≠ fdb := by decide

theorem Rebuilt.method_eq (rebuilt : Rebuilt assetIndex adjacency sourceId targetId method) :
    method = lldp ∨ method = cdp := by
  obtain ⟨-, -, -, ⟨same, -⟩ | ⟨same, -⟩, -⟩ := rebuilt
  · exact .inl same
  · exact .inr same

theorem Rebuilt.ne_fdb (rebuilt : Rebuilt assetIndex adjacency sourceId targetId method) : method ≠ fdb := by
  rcases rebuilt.method_eq with rfl | rfl
  · exact lldp_ne_fdb
  · exact cdp_ne_fdb

theorem not_reattached_of_reinforced (reinforced : Reinforced orgId siteId assetIndex adjacency key) :
    ¬Reattached orgId siteId assetIndex adjacency key := by
  intro reattached
  obtain ⟨-, -, -, -, method, same, rebuilt⟩ := reinforced_iff.mp reinforced
  obtain ⟨-, -, -, -, other, -⟩ := reattached_iff.mp reattached
  exact rebuilt.ne_fdb (some.inj (same.symm.trans other))

theorem blockSource_of_byIp {block : DeviceAdjacency}
    (found : assetIndex.byIp.get block.sourceDeviceIp = some sourceId) :
    blockSource assetIndex block = some sourceId := by
  rw [blockSource, found]
  rfl

theorem Rebuilt.hasBlock (rebuilt : Rebuilt assetIndex adjacency key.sourceId targetId method) :
    HasBlock assetIndex adjacency key := by
  obtain ⟨block, among, found, -, -⟩ := rebuilt
  exact ⟨block, among, blockSource_of_byIp found⟩

theorem mem_computeWalkedSourceIds :
    key.sourceId ∈ computeWalkedSourceIds assetIndex adjacency ↔ HasBlock assetIndex adjacency key := mem_filterMap

/-- The topology after the edges have been written and before any is aged out. -/
def written (orgId siteId : ℕ) (now : ℤ) (assetIndex : AssetMatchIndex) (adjacency : List DeviceAdjacency)
    (topology : Topology) : Topology :=
  (fdbAttachments assetIndex adjacency).foldl (upsertFdbAttachment orgId siteId now)
    ((buildInfraEdges assetIndex adjacency).foldl (upsertInfraEdge orgId siteId now) topology)

theorem written_of_reinforced (now : ℤ) (topology : Topology)
    (reinforced : Reinforced orgId siteId assetIndex adjacency key) :
    (written orgId siteId now assetIndex adjacency topology key).map outline =
      some (rebuiltOutline now (topology key)) := by
  rw [written, (foldl_upsertFdbAttachment _ _ key).2 (not_reattached_of_reinforced reinforced)]
  exact (foldl_upsertInfraEdge _ _ key).1 reinforced

theorem written_of_reattached (now : ℤ) (topology : Topology)
    (reattached : Reattached orgId siteId assetIndex adjacency key) :
    (written orgId siteId now assetIndex adjacency topology key).map outline = some (attachedOutline now) :=
  (foldl_upsertFdbAttachment _ _ key).1 reattached

theorem written_of_not (now : ℤ) (topology : Topology) (unseen : ¬Reinforced orgId siteId assetIndex adjacency key)
    (unattached : ¬Reattached orgId siteId assetIndex adjacency key) :
    written orgId siteId now assetIndex adjacency topology key = topology key := by
  rw [written, (foldl_upsertFdbAttachment _ _ key).2 unattached]
  exact (foldl_upsertInfraEdge _ _ key).2 unseen

theorem reconcileTopology_eq : reconcileTopology orgId siteId now assets adjacency topology =
    ageOutFdbEdges orgId siteId now (fdbAttachments (buildAssetIndex orgId siteId assets) adjacency ≠ [])
      (computeWalkedSourceIds (buildAssetIndex orgId siteId assets) adjacency)
      (ageOutMeasuredEdges orgId siteId now (buildInfraEdges (buildAssetIndex orgId siteId assets) adjacency)
        (computeWalkedSourceIds (buildAssetIndex orgId siteId assets) adjacency)
        (written orgId siteId now (buildAssetIndex orgId siteId assets) adjacency topology)) := by
  unfold reconcileTopology
  split
  · next empty =>
    subst empty
    exact ageOutEdges_unwalked.symm
  · rfl

def Stale (now : ℤ) (row : EdgeRow) : Prop :=
  ∀ verified, row.lastVerifiedAt = some verified → verified < now - MEASURED_EDGE_AGEOUT_FLOOR_MS

theorem verifiedSince_iff : verifiedSince (now - MEASURED_EDGE_AGEOUT_FLOOR_MS) row = true ↔ ¬Stale now row := by
  unfold verifiedSince Stale
  cases row.lastVerifiedAt with
  | none =>
    simp only [any_none, Bool.false_eq_true, reduceCtorEq, false_implies, implies_true, not_true_eq_false]
  | some verified => simp only [any_some, decide_eq_true_eq, Option.some.injEq, forall_eq', not_lt]

theorem not_stale_of_fresh (fresh : row.lastVerifiedAt = some now) : ¬Stale now row := by
  intro stale
  have early := stale now fresh
  unfold MEASURED_EDGE_AGEOUT_FLOOR_MS at early
  omega

section Fate
variable {edges : List InfraEdge} {attachments : List FdbAttachment} {walked : List ℕ}

theorem agedOut_eq_none (stored : topology key = some row) : ageOutFdbEdges orgId siteId now (attachments ≠ []) walked
        (ageOutMeasuredEdges orgId siteId now edges walked topology) key = none ↔
      Doomed orgId siteId now [lldp, cdp] (edges ≠ []) walked key row ∨
        Doomed orgId siteId now [fdb] (attachments ≠ []) walked key row := by
  by_cases condemned : Doomed orgId siteId now [lldp, cdp] (edges ≠ []) walked key row
  · have gone : ageOutMeasuredEdges orgId siteId now edges walked topology key = none :=
      (ageOutEdges_eq_none stored).mpr condemned
    exact iff_of_true (ageOutEdges_of_none gone) (.inl condemned)
  · have stays : ageOutMeasuredEdges orgId siteId now edges walked topology key = some row :=
      ageOutEdges_of_not stored condemned
    rw [ageOutFdbEdges, ageOutEdges_eq_none stays, or_iff_right condemned]

theorem agedOut_of_not (stored : topology key = some row)
    (measured : ¬Doomed orgId siteId now [lldp, cdp] (edges ≠ []) walked key row)
    (attached : ¬Doomed orgId siteId now [fdb] (attachments ≠ []) walked key row) :
    ageOutFdbEdges orgId siteId now (attachments ≠ []) walked
        (ageOutMeasuredEdges orgId siteId now edges walked topology) key = some row :=
  ageOutEdges_of_not (ageOutEdges_of_not stored measured) attached

end Fate

section Deletions
variable {edges : List InfraEdge} {attachments : List FdbAttachment} {walked : List ℕ}

theorem doomed_measured_iff : Doomed orgId siteId now [lldp, cdp] (edges ≠ []) walked key row ↔
    key.orgId = orgId ∧ key.siteId = siteId ∧ (key.method = some lldp ∨ key.method = some cdp) ∧
      key.sourceId ∈ walked ∧ (edges ≠ [] → Stale now row) := by
  simp only [Doomed, verifiedSince_iff, decide_eq_true_eq, mem_cons, not_mem_nil, or_false, exists_eq_or_imp,
    exists_eq_left, not_and, not_not]

theorem doomed_fdb_iff : Doomed orgId siteId now [fdb] (attachments ≠ []) walked key row ↔
    key.orgId = orgId ∧ key.siteId = siteId ∧ key.method = some fdb ∧ key.sourceId ∈ walked ∧
      (attachments ≠ [] → Stale now row) := by
  simp only [Doomed, verifiedSince_iff, decide_eq_true_eq, mem_cons, not_mem_nil, or_false, exists_eq_left,
    not_and, not_not]

theorem kept_of_reinforced (reinforced : Reinforced orgId siteId (buildAssetIndex orgId siteId assets) adjacency key) :
    reconcileTopology orgId siteId now assets adjacency topology key ≠ none := by
  obtain ⟨row, stored, outline⟩ := map_eq_some_iff.mp
    (written_of_reinforced now topology reinforced)
  have fresh : row.lastVerifiedAt = some now := by
    rw [show row.lastVerifiedAt = row.outline.lastVerifiedAt from rfl, outline, rebuiltOutline]
    cases topology key <;> rfl
  have live := not_stale_of_fresh fresh
  obtain ⟨-, -, -, -, method, same, rebuilt⟩ := reinforced_iff.mp reinforced
  obtain ⟨e, member, -⟩ := reinforced
  rw [reconcileTopology_eq, ne_eq, agedOut_eq_none stored, doomed_measured_iff, doomed_fdb_iff]
  rintro (⟨-, -, -, -, stale⟩ | ⟨-, -, other, -⟩)
  · exact live (stale (ne_nil_of_mem member))
  · exact rebuilt.ne_fdb (some.inj (same.symm.trans other))

theorem kept_of_reattached (reattached : Reattached orgId siteId (buildAssetIndex orgId siteId assets) adjacency key) :
    reconcileTopology orgId siteId now assets adjacency topology key ≠ none := by
  obtain ⟨row, stored, outline⟩ := map_eq_some_iff.mp
    (written_of_reattached now topology reattached)
  have fresh : row.lastVerifiedAt = some now := by
    rw [show row.lastVerifiedAt = row.outline.lastVerifiedAt from rfl, outline, attachedOutline]
  have live := not_stale_of_fresh fresh
  obtain ⟨-, -, -, -, method, -⟩ := reattached_iff.mp reattached
  obtain ⟨att, member, -⟩ := reattached
  rw [reconcileTopology_eq, ne_eq, agedOut_eq_none stored, doomed_measured_iff, doomed_fdb_iff]
  rintro (⟨-, -, other, -⟩ | ⟨-, -, -, -, stale⟩)
  · rcases other with other | other
    · exact lldp_ne_fdb (some.inj (other.symm.trans method))
    · exact cdp_ne_fdb (some.inj (other.symm.trans method))
  · exact live (stale (ne_nil_of_mem member))

theorem deleted_iff (stored : topology key = some row)
    (unseen : ¬Reinforced orgId siteId (buildAssetIndex orgId siteId assets) adjacency key)
    (unattached : ¬Reattached orgId siteId (buildAssetIndex orgId siteId assets) adjacency key) :
    reconcileTopology orgId siteId now assets adjacency topology key = none ↔
      key.orgId = orgId ∧ key.siteId = siteId ∧ HasBlock (buildAssetIndex orgId siteId assets) adjacency key ∧
        ((key.method = some lldp ∨ key.method = some cdp) ∧
            (buildInfraEdges (buildAssetIndex orgId siteId assets) adjacency ≠ [] → Stale now row) ∨
          key.method = some fdb ∧
            (fdbAttachments (buildAssetIndex orgId siteId assets) adjacency ≠ [] → Stale now row)) := by
  have still := (written_of_not now topology unseen unattached).trans stored
  rw [reconcileTopology_eq, agedOut_eq_none still, doomed_measured_iff, doomed_fdb_iff, mem_computeWalkedSourceIds]
  constructor
  · rintro (⟨org, site, method, walked, stale⟩ | ⟨org, site, method, walked, stale⟩)
    · exact ⟨org, site, walked, .inl ⟨method, stale⟩⟩
    · exact ⟨org, site, walked, .inr ⟨method, stale⟩⟩
  · rintro ⟨org, site, walked, ⟨method, stale⟩ | ⟨method, stale⟩⟩
    · exact .inl ⟨org, site, method, walked, stale⟩
    · exact .inr ⟨org, site, method, walked, stale⟩

end Deletions

def Measured (key : EdgeKey) : Prop := ∃ method ∈ [lldp, cdp, fdb], key.method = some method

theorem measured_iff : Measured key ↔ key.method = some lldp ∨ key.method = some cdp ∨ key.method = some fdb := by
  simp only [Measured, mem_cons, not_mem_nil, or_false, exists_eq_or_imp, exists_eq_left]

theorem reconcileTopology_of_foreign (foreign : key.orgId ≠ orgId ∨ key.siteId ≠ siteId ∨ ¬Measured key ∨
      ¬HasBlock (buildAssetIndex orgId siteId assets) adjacency key) :
    reconcileTopology orgId siteId now assets adjacency topology key = topology key := by
  have unseen : ¬Reinforced orgId siteId (buildAssetIndex orgId siteId assets) adjacency key := by
    intro reinforced
    obtain ⟨org, site, -, -, method, same, rebuilt⟩ := reinforced_iff.mp reinforced
    rcases foreign with other | other | other | other
    · exact other org
    · exact other site
    · refine other (measured_iff.mpr ?_)
      rcases rebuilt.method_eq with rfl | rfl
      · exact .inl same
      · exact .inr (.inl same)
    · exact other rebuilt.hasBlock
  have unattached : ¬Reattached orgId siteId (buildAssetIndex orgId siteId assets) adjacency key := by
    intro reattached
    obtain ⟨org, site, -, -, method, block, among, found, -⟩ := reattached_iff.mp reattached
    rcases foreign with other | other | other | other
    · exact other org
    · exact other site
    · exact other (measured_iff.mpr (.inr (.inr method)))
    · exact other ⟨block, among, found⟩
  have same := written_of_not now topology unseen unattached
  cases stored : topology key with
  | none =>
    rw [reconcileTopology_eq]
    exact ageOutEdges_of_none (ageOutEdges_of_none (same.trans stored))
  | some row =>
    rw [reconcileTopology_eq]
    refine agedOut_of_not (same.trans stored) ?_ ?_
    · rw [doomed_measured_iff, mem_computeWalkedSourceIds]
      rintro ⟨org, site, method, walked, -⟩
      rcases foreign with other | other | other | other
      · exact other org
      · exact other site
      · exact other (measured_iff.mpr (method.imp id .inl))
      · exact other walked
    · rw [doomed_fdb_iff, mem_computeWalkedSourceIds]
      rintro ⟨org, site, method, walked, -⟩
      rcases foreign with other | other | other | other
      · exact other org
      · exact other site
      · exact other (measured_iff.mpr (.inr (.inr method)))
      · exact other walked

def AnyRebuilt (assetIndex : AssetMatchIndex) (adjacency : List DeviceAdjacency) : Prop :=
  ∃ sourceId targetId method, Rebuilt assetIndex adjacency sourceId targetId method

def AnyAttached (assetIndex : AssetMatchIndex) (adjacency : List DeviceAdjacency) : Prop :=
  ∃ block ∈ adjacency, ∃ targetId, Attached assetIndex block targetId

theorem buildInfraEdges_ne_nil : buildInfraEdges assetIndex adjacency ≠ [] ↔ AnyRebuilt assetIndex adjacency := by
  constructor
  · intro some
    obtain ⟨e, member⟩ := exists_mem_of_ne_nil _ some
    exact ⟨e.sourceId, e.targetId, e.method, mem_buildInfraEdges.mp ⟨e, member, rfl⟩⟩
  · rintro ⟨sourceId, targetId, method, rebuilt⟩
    obtain ⟨e, member, -⟩ := mem_buildInfraEdges.mpr rebuilt
    exact ne_nil_of_mem member

theorem fdbAttachments_ne_nil : fdbAttachments assetIndex adjacency ≠ [] ↔ AnyAttached assetIndex adjacency := by
  constructor
  · intro some
    obtain ⟨att, member⟩ := exists_mem_of_ne_nil _ some
    obtain ⟨block, among, computed⟩ := mem_flatMap.mp member
    exact ⟨block, among, att.hostAssetId, att, computed, rfl⟩
  · rintro ⟨block, among, targetId, att, computed, -⟩
    exact ne_nil_of_mem (mem_flatMap.mpr ⟨block, among, computed⟩)

theorem yields_of_reinforced (reinforced : Reinforced orgId siteId assetIndex adjacency key) :
    Yields assetIndex adjacency key := by
  obtain ⟨-, -, source, target, method, same, block, among, found, neighbour, -⟩ := reinforced_iff.mp reinforced
  exact ⟨source, target, block, among, blockSource_of_byIp found, .inl ⟨method, same, neighbour⟩⟩

theorem yields_of_reattached (reattached : Reattached orgId siteId assetIndex adjacency key) :
    Yields assetIndex adjacency key := by
  obtain ⟨-, -, source, target, method, block, among, found, host⟩ := reattached_iff.mp reattached
  exact ⟨source, target, block, among, found, .inr ⟨method, host⟩⟩

theorem reattached_of_yields (org : key.orgId = orgId) (site : key.siteId = siteId) (method : key.method = some fdb)
    (yields : Yields assetIndex adjacency key) : Reattached orgId siteId assetIndex adjacency key := by
  obtain ⟨source, target, block, among, found, ⟨other, same, ⟨is, -⟩ | ⟨is, -⟩⟩ | ⟨-, host⟩⟩ := yields
  · exact absurd (is.symm.trans (some.inj (same.symm.trans method))) lldp_ne_fdb
  · exact absurd (is.symm.trans (some.inj (same.symm.trans method))) cdp_ne_fdb
  · exact reattached_iff.mpr ⟨org, site, source, target, method, block, among, found, host⟩

/-- Nothing goes wrong with the edge: a stale edge that is reported again is rebuilt, and the grace of an edge that was
verified lately is not lost for want of any edge to write. -/
def Spares (now : ℤ) (assetIndex : AssetMatchIndex) (adjacency : List DeviceAdjacency) (key : EdgeKey) (row : EdgeRow) :
    Prop :=
  HasBlock assetIndex adjacency key →
    (key.method = some lldp ∨ key.method = some cdp →
      (Stale now row → Yields assetIndex adjacency key →
        ∃ method, key.method = some method ∧ Rebuilt assetIndex adjacency key.sourceId key.targetId method) ∧
      (¬Stale now row → AnyRebuilt assetIndex adjacency)) ∧
    (key.method = some fdb → ¬Stale now row → AnyAttached assetIndex adjacency)

theorem spares_of_reinforced (reinforced : Reinforced orgId siteId assetIndex adjacency key) :
    Spares now assetIndex adjacency key row := by
  obtain ⟨-, -, -, -, method, same, rebuilt⟩ := reinforced_iff.mp reinforced
  refine fun _ => ⟨fun _ => ⟨fun _ _ => ⟨method, same, rebuilt⟩, fun _ => ⟨_, _, _, rebuilt⟩⟩, fun other => ?_⟩
  exact absurd (some.inj (same.symm.trans other)) rebuilt.ne_fdb

theorem spares_of_reattached (reattached : Reattached orgId siteId assetIndex adjacency key) :
    Spares now assetIndex adjacency key row := by
  obtain ⟨-, -, -, -, method, block, among, -, host⟩ := reattached_iff.mp reattached
  refine fun _ => ⟨fun other => ?_, fun _ _ => ⟨block, among, key.targetId, host⟩⟩
  rcases other with other | other
  · exact absurd (some.inj (other.symm.trans method)) lldp_ne_fdb
  · exact absurd (some.inj (other.symm.trans method)) cdp_ne_fdb

theorem attached_agrees_iff {block yields stale any : Prop} (silent : ¬yields) :
    ((block ∧ (any → stale)) ↔ block ∧ ¬yields ∧ stale) ↔ (block → ¬stale → any) := by tauto

theorem measured_agrees_iff {block yields rebuilt stale any : Prop} (lost : yields → ¬rebuilt) :
    ((block ∧ (any → stale)) ↔ block ∧ ¬yields ∧ stale) ↔
      (block → (stale → yields → rebuilt) ∧ (¬stale → any)) := by tauto

theorem deleted_iff_spares (stored : topology key = some row) (org : key.orgId = orgId) (site : key.siteId = siteId)
    (measured : Measured key) :
    (reconcileTopology orgId siteId now assets adjacency topology key = none ↔
      HasBlock (buildAssetIndex orgId siteId assets) adjacency key ∧
        ¬Yields (buildAssetIndex orgId siteId assets) adjacency key ∧ Stale now row) ↔
      Spares now (buildAssetIndex orgId siteId assets) adjacency key row := by
  by_cases reinforced : Reinforced orgId siteId (buildAssetIndex orgId siteId assets) adjacency key
  · refine iff_of_true ?_ (spares_of_reinforced reinforced)
    exact iff_of_false (kept_of_reinforced reinforced) fun ⟨_, silent, _⟩ => silent (yields_of_reinforced reinforced)
  by_cases reattached : Reattached orgId siteId (buildAssetIndex orgId siteId assets) adjacency key
  · refine iff_of_true ?_ (spares_of_reattached reattached)
    exact iff_of_false (kept_of_reattached reattached) fun ⟨_, silent, _⟩ => silent (yields_of_reattached reattached)
  rw [deleted_iff stored reinforced reattached, buildInfraEdges_ne_nil, fdbAttachments_ne_nil, Spares]
  by_cases attaches : key.method = some fdb
  · have silent : ¬Yields (buildAssetIndex orgId siteId assets) adjacency key := fun yields =>
      reattached (reattached_of_yields org site attaches yields)
    have apart : ¬(key.method = some lldp ∨ key.method = some cdp) := by
      rintro (other | other)
      · exact lldp_ne_fdb (some.inj (other.symm.trans attaches))
      · exact cdp_ne_fdb (some.inj (other.symm.trans attaches))
    simp only [and_iff_right org, and_iff_right site, or_iff_right (mt And.left apart), and_iff_right attaches,
      forall_prop_of_false apart, forall_prop_of_true attaches, true_and]
    exact attached_agrees_iff silent
  · have neighbours : key.method = some lldp ∨ key.method = some cdp := by
      rcases measured_iff.mp measured with is | is | is
      · exact .inl is
      · exact .inr is
      · exact absurd is attaches
    have lost : Yields (buildAssetIndex orgId siteId assets) adjacency key →
        ¬∃ method, key.method = some method ∧
          Rebuilt (buildAssetIndex orgId siteId assets) adjacency key.sourceId key.targetId method :=
      fun yields rebuilt => reinforced (reinforced_iff.mpr ⟨org, site, yields.1, yields.2.1, rebuilt⟩)
    simp only [and_iff_right org, and_iff_right site, or_iff_left (mt And.left attaches), and_iff_right neighbours,
      forall_prop_of_false attaches, forall_prop_of_true neighbours, and_true]
    exact measured_agrees_iff lost

section Order
variable (same : adjacency'.Perm adjacency)
include same

theorem rebuilt_perm {sourceId targetId : ℕ} {method : Text} :
    Rebuilt assetIndex adjacency' sourceId targetId method ↔ Rebuilt assetIndex adjacency sourceId targetId method := by
  simp only [Rebuilt, same.mem_iff]

theorem reinforced_perm :
    Reinforced orgId siteId assetIndex adjacency' key ↔ Reinforced orgId siteId assetIndex adjacency key := by
  simp only [reinforced_iff, rebuilt_perm same]

theorem reattached_perm :
    Reattached orgId siteId assetIndex adjacency' key ↔ Reattached orgId siteId assetIndex adjacency key := by
  simp only [reattached_iff, same.mem_iff]

theorem written_perm : (written orgId siteId now assetIndex adjacency' topology key).map outline =
    (written orgId siteId now assetIndex adjacency topology key).map outline := by
  by_cases reinforced : Reinforced orgId siteId assetIndex adjacency key
  · rw [written_of_reinforced now topology reinforced,
      written_of_reinforced now topology ((reinforced_perm same).mpr reinforced)]
  by_cases reattached : Reattached orgId siteId assetIndex adjacency key
  · rw [written_of_reattached now topology reattached,
      written_of_reattached now topology ((reattached_perm same).mpr reattached)]
  · rw [written_of_not now topology reinforced reattached,
      written_of_not now topology (mt (reinforced_perm same).mp reinforced)
        (mt (reattached_perm same).mp reattached)]

theorem reconcileTopology_perm :
    (reconcileTopology orgId siteId now assets adjacency' topology key).map outline =
      (reconcileTopology orgId siteId now assets adjacency topology key).map outline := by
  have rebuilds : buildInfraEdges (buildAssetIndex orgId siteId assets) adjacency' ≠ [] ↔
      buildInfraEdges (buildAssetIndex orgId siteId assets) adjacency ≠ [] := by
    simp only [buildInfraEdges_ne_nil, AnyRebuilt, rebuilt_perm same]
  have attaches : fdbAttachments (buildAssetIndex orgId siteId assets) adjacency' ≠ [] ↔
      fdbAttachments (buildAssetIndex orgId siteId assets) adjacency ≠ [] := by
    simp only [fdbAttachments_ne_nil, AnyAttached, same.mem_iff]
  have walked : ∀ id, id ∈ computeWalkedSourceIds (buildAssetIndex orgId siteId assets) adjacency' ↔
      id ∈ computeWalkedSourceIds (buildAssetIndex orgId siteId assets) adjacency :=
    fun id => (same.filterMap _).mem_iff
  rw [reconcileTopology_eq, reconcileTopology_eq, ageOutFdbEdges, ageOutFdbEdges, ageOutMeasuredEdges,
    ageOutMeasuredEdges, decide_eq_decide.mpr rebuilds, decide_eq_decide.mpr attaches]
  exact ageOutEdges_outline walked (ageOutEdges_outline walked (written_perm same))

end Order

end Call

section Exact
variable (orgId siteId : ℕ) (now : ℤ) (assets : List DiscoveredAsset) (adjacency : List DeviceAdjacency)
  (topology : Topology)

/-- A call removes exactly the measured edges of walked devices that are no longer reported and whose grace is over. -/
structure AgesOutExactly : Prop where
  deleted : ∀ key row, topology key = some row → key.orgId = orgId → key.siteId = siteId → Measured key →
    (reconcileTopology orgId siteId now assets adjacency topology key = none ↔
      HasBlock (buildAssetIndex orgId siteId assets) adjacency key ∧
        ¬Yields (buildAssetIndex orgId siteId assets) adjacency key ∧ Stale now row)
  unchanged : ∀ key, key.orgId ≠ orgId ∨ key.siteId ≠ siteId ∨ ¬Measured key ∨
    ¬HasBlock (buildAssetIndex orgId siteId assets) adjacency key →
      reconcileTopology orgId siteId now assets adjacency topology key = topology key
  permuted : ∀ adjacency', adjacency'.Perm adjacency → ∀ key,
    (reconcileTopology orgId siteId now assets adjacency' topology key).map outline =
      (reconcileTopology orgId siteId now assets adjacency topology key).map outline

/-- Every stored edge of a walked device that is reported again past its grace is reported by a device that is found by
its address, and where an edge is still in its grace there is some edge to write. -/
def SparesReported : Prop :=
  ∀ key row, topology key = some row → key.orgId = orgId → key.siteId = siteId → Measured key →
    Spares now (buildAssetIndex orgId siteId assets) adjacency key row

theorem agesOutExactly_iff : AgesOutExactly orgId siteId now assets adjacency topology ↔
    SparesReported orgId siteId now assets adjacency topology := by
  constructor
  · intro exact key row stored org site measured
    exact (deleted_iff_spares stored org site measured).mp (exact.deleted key row stored org site measured)
  · intro spares
    constructor
    case deleted =>
      intro key row stored org site measured
      exact (deleted_iff_spares stored org site measured).mpr (spares key row stored org site measured)
    case unchanged => exact fun key foreign => reconcileTopology_of_foreign foreign
    case permuted => exact fun adjacency' same key => reconcileTopology_perm same

end Exact

def sampleAsset (id : ℕ) (ipAddress macAddress : String) : DiscoveredAsset :=
  ⟨id, 1, 1, ipAddress.toList, some macAddress.toList, none, none⟩

def sampleAssets : List DiscoveredAsset :=
  [sampleAsset 1 "10.0.0.1" "aa:00:00:00:00:01", sampleAsset 2 "10.0.0.2" "aa:00:00:00:00:02"]

/-- The first asset, walked at an address that is not the one it was discovered at, reports the second. -/
def sampleBlock : DeviceAdjacency where
  sourceDeviceIp := "10.0.0.99".toList
  sourceChassisId := some "AA-00-00-00-00-01".toList
  lldp := [⟨"1".toList, none, "aa:00:00:00:00:02".toList, "2".toList, none⟩]
  cdp := []
  fdb := []

def sampleRow : EdgeRow := ⟨"infra".toList, none, none, some "high".toList, some 0, 0⟩

def sampleTopology : Topology := Function.update (fun _ => none) (edgeKey 1 1 1 2 lldp) (some sampleRow)

theorem chassis_neighbour_deleted : ¬AgesOutExactly 1 1 3600000 sampleAssets [sampleBlock] sampleTopology := by
  intro exact
  have gone :
      reconcileTopology 1 1 3600000 sampleAssets [sampleBlock] sampleTopology (edgeKey 1 1 1 2 lldp) = none := by decide
  have reported := (exact.deleted _ sampleRow (Function.update_self ..) rfl rfl
    ⟨lldp, mem_cons_self, rfl⟩).mp gone
  refine reported.2.1 ⟨rfl, rfl, sampleBlock, mem_cons_self, by decide, .inl ⟨lldp, rfl, .inl ⟨rfl, ?_⟩⟩⟩
  exact ⟨_, mem_cons_self, by decide⟩

end RemudaRmm.Discovery
