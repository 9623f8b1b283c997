import RemudaRmm.Discovery.ReconcileTopology

/-! Which edges a scan writes, whatever the order of its reports. -/
namespace RemudaRmm.Discovery
open Foundation List Function Option

section Reports
variable (assetIndex : AssetMatchIndex) (adjacency : List DeviceAdjacency)

/-- An entry of the block resolves to the target with the method. -/
def Neighbour (block : DeviceAdjacency) (targetId : ℕ) (method : Text) : Prop :=
  (method = lldp ∧ ∃ n ∈ block.lldp, lldpTarget assetIndex n = some targetId) ∨
    (method = cdp ∧ ∃ n ∈ block.cdp, cdpTarget assetIndex n = some targetId)

/-- A device that is found by its address reports a neighbour other than itself. -/
def Rebuilt (sourceId targetId : ℕ) (method : Text) : Prop :=
  ∃ block ∈ adjacency, assetIndex.byIp.get block.sourceDeviceIp = some sourceId ∧
    Neighbour assetIndex block targetId method ∧ sourceId ≠ targetId

def Attached (block : DeviceAdjacency) (targetId : ℕ) : Prop :=
  ∃ att ∈ (computeFdbAttachments assetIndex block (blockSource assetIndex block)).attachments,
    att.hostAssetId = targetId

def HasBlock (key : EdgeKey) : Prop := ∃ block ∈ adjacency, blockSource assetIndex block = some key.sourceId

/-- A block with the edge's source reports its target again with its method. -/
def Yields (key : EdgeKey) : Prop :=
  key.sourceType = discoveredAsset ∧ key.targetType = discoveredAsset ∧
    ∃ block ∈ adjacency, blockSource assetIndex block = some key.sourceId ∧
      ((∃ method, key.method = some method ∧ Neighbour assetIndex block key.targetId method) ∨
        (key.method = some fdb ∧ Attached assetIndex block key.targetId))

variable {assetIndex adjacency}

def InfraEdge.place (e : InfraEdge) : ℕ × ℕ × Text := (e.sourceId, e.targetId, e.method)

theorem mem_foldl_push {l out : List InfraEdge} {place : ℕ × ℕ × Text} :
    (∃ e ∈ l.foldl push out, e.place = place) ↔
      (∃ e ∈ out, e.place = place) ∨ ∃ e ∈ l, e.place = place ∧ e.sourceId ≠ e.targetId := by
  induction l generalizing out with
  | nil => simp only [foldl_nil, not_mem_nil, false_and, exists_false, or_false]
  | cons d l ih =>
    rw [foldl_cons, ih]
    by_cases self : d.sourceId = d.targetId
    · rw [push, if_pos (.inl self)]
      simp only [mem_cons, exists_eq_or_imp, self, ne_eq, not_true_eq_false, and_false, false_or]
    · by_cases seen : ∃ o ∈ out, o.sourceId = d.sourceId ∧ o.targetId = d.targetId ∧ o.method = d.method
      · rw [push, if_pos (.inr seen)]
        obtain ⟨o, member, source, target, method⟩ := seen
        have same : o.place = d.place := by rw [InfraEdge.place, InfraEdge.place, source, target, method]
        constructor
        · rintro (old | ⟨e, later, rest⟩)
          · exact .inl old
          · exact .inr ⟨e, mem_cons_of_mem d later, rest⟩
        · rintro (old | ⟨e, among, rest, apart⟩)
          · exact .inl old
          · rcases mem_cons.mp among with rfl | later
            · exact .inl ⟨o, member, same.trans rest⟩
            · exact .inr ⟨e, later, rest, apart⟩
      · rw [push, if_neg (not_or.mpr ⟨self, seen⟩)]
        constructor
        · rintro (⟨e, member, rest⟩ | ⟨e, later, rest⟩)
          · rcases mem_append.mp member with old | new
            · exact .inl ⟨e, old, rest⟩
            · obtain rfl := mem_singleton.mp new
              exact .inr ⟨e, mem_cons_self, rest, self⟩
          · exact .inr ⟨e, mem_cons_of_mem d later, rest⟩
        · rintro (⟨e, old, rest⟩ | ⟨e, among, rest, apart⟩)
          · exact .inl ⟨e, mem_append_left _ old, rest⟩
          · rcases mem_cons.mp among with rfl | later
            · exact .inl ⟨e, mem_append_right _ mem_cons_self, rest⟩
            · exact .inr ⟨e, later, rest, apart⟩

theorem mem_blockEdges {block : DeviceAdjacency} {sourceId targetId : ℕ} {method : Text} :
    (∃ e ∈ blockEdges assetIndex block, e.place = (sourceId, targetId, method)) ↔
      assetIndex.byIp.get block.sourceDeviceIp = some sourceId ∧ Neighbour assetIndex block targetId method := by
  unfold blockEdges
  cases found : assetIndex.byIp.get block.sourceDeviceIp with
  | none => simp only [elim_none, not_mem_nil, false_and, exists_false, reduceCtorEq]
  | some source =>
    simp only [elim_some, mem_append, mem_filterMap, map_eq_some_iff, Neighbour]
    constructor
    · rintro ⟨e, ⟨n, member, target, resolved, rfl⟩ | ⟨n, member, target, resolved, rfl⟩, place⟩
      · obtain ⟨rfl, rest⟩ := Prod.mk.inj place
        cases rest
        exact ⟨rfl, .inl ⟨rfl, n, member, resolved⟩⟩
      · obtain ⟨rfl, rest⟩ := Prod.mk.inj place
        cases rest
        exact ⟨rfl, .inr ⟨rfl, n, member, resolved⟩⟩
    · rintro ⟨same, ⟨rfl, n, member, resolved⟩ | ⟨rfl, n, member, resolved⟩⟩ <;> cases same
      · exact ⟨_, .inl ⟨n, member, targetId, resolved, rfl⟩, rfl⟩
      · exact ⟨_, .inr ⟨n, member, targetId, resolved, rfl⟩, rfl⟩

theorem mem_buildInfraEdges {sourceId targetId : ℕ} {method : Text} :
    (∃ e ∈ buildInfraEdges assetIndex adjacency, e.place = (sourceId, targetId, method)) ↔
      Rebuilt assetIndex adjacency sourceId targetId method := by
  rw [buildInfraEdges, mem_foldl_push]
  constructor
  · rintro (⟨e, none, -⟩ | ⟨e, among, place, apart⟩)
    · cases none
    · obtain ⟨block, member, pushed⟩ := mem_flatMap.mp among
      obtain ⟨source, neighbour⟩ := mem_blockEdges.mp ⟨e, pushed, place⟩
      obtain ⟨rfl, rest⟩ := Prod.mk.inj place
      obtain ⟨rfl, -⟩ := Prod.mk.inj rest
      exact ⟨block, member, source, neighbour, apart⟩
  · rintro ⟨block, member, source, neighbour, apart⟩
    obtain ⟨e, pushed, place⟩ := mem_blockEdges.mpr ⟨source, neighbour⟩
    refine .inr ⟨e, mem_flatMap.mpr ⟨block, member, pushed⟩, place, ?_⟩
    obtain ⟨rfl, rest⟩ := Prod.mk.inj place
    obtain ⟨rfl, -⟩ := Prod.mk.inj rest
    exact apart

theorem attachEntry_switch {source : ℕ} {result : FdbReconcileResult} {e : FdbEntry}
    (own : ∀ att ∈ result.attachments, att.switchAssetId = source) :
    ∀ att ∈ (attachEntry assetIndex source result e).attachments, att.switchAssetId = source := by
  unfold attachEntry
  split
  · exact own
  · split
    · exact own
    · intro att member
      rcases mem_append.mp member with old | new
      · exact own att old
      · rw [mem_singleton.mp new]

theorem attachPort_switch {source : ℕ} {result : FdbReconcileResult} {port : Text × List FdbEntry}
    (own : ∀ att ∈ result.attachments, att.switchAssetId = source) :
    ∀ att ∈ (attachPort assetIndex source result port).attachments, att.switchAssetId = source := by
  unfold attachPort
  split
  · exact own
  · induction port.2 generalizing result with
    | nil => exact own
    | cons e entries ih => exact ih (attachEntry_switch own)

theorem computeFdbAttachments_switch {block : DeviceAdjacency} {source : Option ℕ} {att : FdbAttachment}
    (member : att ∈ (computeFdbAttachments assetIndex block source).attachments) : source = some att.switchAssetId := by
  cases source with
  | none => cases member
  | some id =>
    have all : ∀ (ports : List (Text × List FdbEntry)) (result : FdbReconcileResult),
        (∀ att ∈ result.attachments, att.switchAssetId = id) →
        ∀ att ∈ (ports.foldl (attachPort assetIndex id) result).attachments, att.switchAssetId = id := by
      intro ports
      induction ports with
      | nil => exact fun _ own => own
      | cons port ports ih => exact fun result own => ih _ (attachPort_switch own)
    exact congrArg some (all _ _ (fun _ absent => absurd absent not_mem_nil) att member).symm

end Reports

section Written
variable {orgId siteId : ℕ} {now : ℤ}

def EdgeRow.outline (row : EdgeRow) : EdgeRow := { row with interfaceName := none, vlan := none }

def rebuiltOutline (now : ℤ) (old : Option EdgeRow) : EdgeRow :=
  old.elim ⟨"infra".toList, none, none, some "high".toList, some now, now⟩ fun row =>
    { row.outline with confidence := some "high".toList, lastVerifiedAt := some now, updatedAt := now }

def attachedOutline (now : ℤ) : EdgeRow := ⟨"access".toList, none, none, some "medium".toList, some now, now⟩

theorem rebuiltOutline_again (row : EdgeRow) (old : Option EdgeRow) (same : row.outline = rebuiltOutline now old) :
    rebuiltOutline now (some row) = rebuiltOutline now old := by
  cases old with
  | none =>
    simp only [rebuiltOutline, elim_some, elim_none] at same ⊢
    rw [same]
  | some old =>
    simp only [rebuiltOutline, elim_some] at same ⊢
    rw [same]

/-- Where each write puts its outline at its own place only, the last one at a place is found there. -/
theorem foldl_outline {α : Type} {step : Topology → α → Topology} {place : α → EdgeKey}
    {fresh : Option EdgeRow → EdgeRow}
    (own : ∀ topology x, (step topology x (place x)).map EdgeRow.outline = some (fresh (topology (place x))))
    (other : ∀ topology x key, key ≠ place x → step topology x key = topology key)
    (again : ∀ row old, row.outline = fresh old → fresh (some row) = fresh old) (xs : List α) (topology : Topology)
    (key : EdgeKey) :
    ((∃ x ∈ xs, place x = key) → (xs.foldl step topology key).map EdgeRow.outline = some (fresh (topology key))) ∧
    ((¬∃ x ∈ xs, place x = key) → xs.foldl step topology key = topology key) := by
  induction xs generalizing topology with
  | nil => exact ⟨fun ⟨_, absent, _⟩ => absurd absent not_mem_nil, fun _ => rfl⟩
  | cons d xs ih =>
    obtain ⟨written, still⟩ := ih (step topology d)
    rw [foldl_cons]
    by_cases here : place d = key
    · subst here
      refine ⟨fun _ => ?_, fun absent => absurd ⟨d, mem_cons_self, rfl⟩ absent⟩
      by_cases later : ∃ x ∈ xs, place x = place d
      · rw [written later]
        obtain ⟨row, stored, outline⟩ := map_eq_some_iff.mp (own topology d)
        rw [stored, again row _ outline]
      · rw [still later, own]
    · rw [other topology d key (Ne.symm here)] at written still
      constructor
      · rintro ⟨x, among, same⟩
        rcases mem_cons.mp among with rfl | later
        · exact absurd same here
        · exact written ⟨x, later, same⟩
      · intro absent
        exact still fun ⟨x, later, same⟩ => absent ⟨x, mem_cons_of_mem d later, same⟩

theorem foldl_upsertInfraEdge (edges : List InfraEdge) (topology : Topology) (key : EdgeKey) :
    ((∃ e ∈ edges, edgeKey orgId siteId e.sourceId e.targetId e.method = key) →
      (edges.foldl (upsertInfraEdge orgId siteId now) topology key).map EdgeRow.outline =
        some (rebuiltOutline now (topology key))) ∧
    ((¬∃ e ∈ edges, edgeKey orgId siteId e.sourceId e.targetId e.method = key) →
      edges.foldl (upsertInfraEdge orgId siteId now) topology key = topology key) := by
  refine foldl_outline (fun topology e => ?_) (fun _ _ _ elsewhere => update_of_ne elsewhere _ _) rebuiltOutline_again
    edges topology key
  rw [upsertInfraEdge, update_self]
  cases topology (edgeKey orgId siteId e.sourceId e.targetId e.method) <;> rfl

theorem foldl_upsertFdbAttachment (attachments : List FdbAttachment) (topology : Topology) (key : EdgeKey) :
    ((∃ att ∈ attachments, edgeKey orgId siteId att.switchAssetId att.hostAssetId fdb = key) →
      (attachments.foldl (upsertFdbAttachment orgId siteId now) topology key).map EdgeRow.outline =
        some (attachedOutline now)) ∧
    ((¬∃ att ∈ attachments, edgeKey orgId siteId att.switchAssetId att.hostAssetId fdb = key) →
      attachments.foldl (upsertFdbAttachment orgId siteId now) topology key = topology key) := by
  refine @foldl_outline FdbAttachment _ _ (fun _ => attachedOutline now) (fun topology att => ?_)
    (fun _ _ _ elsewhere => update_of_ne elsewhere _ _) (fun _ _ _ => rfl) attachments topology key
  rw [upsertFdbAttachment, update_self]
  rfl

end Written

end RemudaRmm.Discovery
