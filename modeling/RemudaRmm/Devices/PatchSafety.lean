import RemudaRmm.Devices.PatchApproval

/-! What the approval of a patch rests on, and that a stricter configuration approves no other patch. Whether a deferral is
over is said only of release dates and ends of deferrals that are times of the platform. -/
namespace RemudaRmm.Devices
open Foundation List Option List

section Approved
variable (toLowerCase : Text → Text) (parseDate : Text → Option ℤ)
variable {reason : ApprovalReason} {deviceId : Text}

/-- The deferral is over: there is none, or the patch has a release date and the end of the deferral is not ahead. -/
def Elapsed (releaseDate : Option Text) (deferralDays now : ℤ) : Prop :=
  deferralDays ≤ 0 ∨ ∃ text, releaseDate = some text ∧ text ≠ [] ∧
    ∀ start, parseDate text = some start → ∀ deferralEnd, timeClip (start + deferralDays * dayMs) = some deferralEnd →
      deferralEnd ≤ now

/-- An approval of the partner, for all its rings or for the ring. -/
def ManuallyApproved (store : PatchStore) (partnerId : Text) (ringId : Option Text) (patch : PatchRow) : Prop :=
  ∃ row ∈ store.patchApprovals, row.partnerId = partnerId ∧ row.patchId = patch.id ∧ row.status = .approved ∧
    (row.ringId = none ∨ row.ringId = ringId)

/-- The rule of the patch's category approves by itself, for the severity of the patch where it lists severities. -/
def CategoryApproved (config : ApprovalEvaluationConfig) (now : ℤ) (patch : PatchRow) : Prop :=
  ∃ rule, categoryRuleFor toLowerCase patch (buildCategoryRuleMap toLowerCase config.categoryRules) = some rule ∧
    rule.autoApprove = true ∧
    (rule.severityFilter.getD [] ≠ [] → ∃ s, patch.severity = some s ∧ s.name ∈ rule.severityFilter.getD []) ∧
    Elapsed parseDate patch.releaseDate (rule.deferralDaysOverride.getD config.deferralDays) now

/-- The ring approves by itself, for a severity that it lists. -/
def RingApproved (config : ApprovalEvaluationConfig) (now : ℤ) (patch : PatchRow) : Prop :=
  (parseRingAutoApprove config.autoApprove).enabled = true ∧
    (∃ s, patch.severity = some s ∧ s.name ∈ (parseRingAutoApprove config.autoApprove).severities) ∧
    Elapsed parseDate patch.releaseDate (parseRingAutoApprove config.autoApprove).deferralDays now

/-- No rule for the package of the patch blocks it, or pins it to a version that it may be past. -/
def FreeOfAppRules (config : ApprovalEvaluationConfig) (patch : PatchRow) : Prop :=
  ∀ rule, appRuleFor toLowerCase patch (buildAppRuleMap toLowerCase config.apps) = some rule →
    ∃ pinnedVersion, rule.action = .pin pinnedVersion ∧
      (comparePatchVersions patch.version (some pinnedVersion) = some .lt ∨
        comparePatchVersions patch.version (some pinnedVersion) = some .eq)

variable {toLowerCase} {parseDate} {store : PatchStore} {config : ApprovalEvaluationConfig} {patch : PatchRow}
  {now : ℤ} {ringId : Option Text}

theorem not_held_iff {releaseDate : Option Text} {days : ℤ} :
    isHeldByDeferral parseDate releaseDate days now = false ↔ Elapsed parseDate releaseDate days now := by
  unfold isHeldByDeferral Elapsed
  by_cases none : days ≤ 0
  · rw [if_pos none]
    exact iff_of_true rfl (.inl none)
  · rw [if_neg none, or_iff_right none]
    cases releaseDate with
    | none => simp [truthy]
    | some text =>
      cases text with
      | nil => simp [truthy]
      | cons ch rest =>
        cases begins : parseDate (ch :: rest) with
        | none => simp [truthy, begins]
        | some start =>
          cases ends : timeClip (start + days * dayMs) with
          | none | some stop => simp [truthy, begins, ends]

theorem severityIn_iff {severity : Option PatchSeverity} {listed : List Text} :
    severityIn severity listed = true ↔ ∃ s, severity = some s ∧ s.name ∈ listed := by
  cases severity with
  | none | some s => simp [severityIn]

theorem evaluateCategoryRule_some {rule : CategoryRule} {days : ℤ} :
    evaluateCategoryRule parseDate patch rule days now = some reason ↔
      (rule.severityFilter.getD [] ≠ [] → severityIn patch.severity (rule.severityFilter.getD []) = true) ∧
        isHeldByDeferral parseDate patch.releaseDate (rule.deferralDaysOverride.getD days) now = false ∧
        reason = .categoryRule := by
  unfold evaluateCategoryRule
  dsimp only
  rw [← isEmpty_eq_false_iff]
  cases (rule.severityFilter.getD []).isEmpty with
  | true =>
    cases isHeldByDeferral parseDate patch.releaseDate (rule.deferralDaysOverride.getD days) now with
    | true => simp
    | false => simp [@eq_comm _ reason]
  | false =>
    cases severityIn patch.severity (rule.severityFilter.getD []) with
    | false => simp
    | true =>
      cases isHeldByDeferral parseDate patch.releaseDate (rule.deferralDaysOverride.getD days) now with
      | true => simp
      | false => simp [@eq_comm _ reason]

theorem severityIn_nil (severity : Option PatchSeverity) : severityIn severity [] = false := by
  cases severity with
  | none | some s => rfl

theorem evaluateRing_some {ring : RingAutoApproveConfig} :
    evaluateRing parseDate patch ring now = some reason ↔
      ring.enabled = true ∧ severityIn patch.severity ring.severities = true ∧
        isHeldByDeferral parseDate patch.releaseDate ring.deferralDays now = false ∧ reason = .ringAutoApprove := by
  unfold evaluateRing
  cases ring.enabled with
  | false => simp
  | true =>
    cases listed : ring.severities with
    | nil => simp [severityIn_nil]
    | cons severity others =>
      cases severityIn patch.severity (severity :: others) with
      | false => simp
      | true =>
        cases isHeldByDeferral parseDate patch.releaseDate ring.deferralDays now with
        | true => simp
        | false => simp [@eq_comm _ reason]

theorem passesAppRules_iff {apps : Option (List PolicyAppRule)} : passesAppRules toLowerCase apps patch = true ↔
    evaluateAppRule toLowerCase patch (buildAppRuleMap toLowerCase apps) = .allowed := by
  have unmatched : appRuleFor toLowerCase patch (buildAppRuleMap toLowerCase apps) = none →
      evaluateAppRule toLowerCase patch (buildAppRuleMap toLowerCase apps) = .allowed := by
    intro none
    rw [evaluateAppRule, none]
  unfold passesAppRules
  dsimp only
  split_ifs with empty unnamed
  · refine iff_of_true rfl (unmatched ?_)
    rw [isEmpty_iff.mp empty]
    unfold appRuleFor
    cases patch.packageId with
    | none => rfl
    | some packageId => exact ite_self _
  · refine iff_of_true rfl (unmatched ?_)
    rw [Bool.and_eq_true, Bool.not_eq_true'] at unnamed
    unfold appRuleFor
    cases package : patch.packageId with
    | none => rfl
    | some packageId =>
      rw [package] at unnamed
      have blank : packageId = [] := isEmpty_iff.mp (by simpa [truthy] using unnamed.1)
      exact if_pos blank
  · exact beq_iff_eq

theorem evaluateAppRule_allowed {rules : List (Text × PolicyAppRule)} :
    evaluateAppRule toLowerCase patch rules = .allowed ↔ ∀ rule, appRuleFor toLowerCase patch rules = some rule →
      ∃ pinnedVersion, rule.action = .pin pinnedVersion ∧
        (comparePatchVersions patch.version (some pinnedVersion) = some .lt ∨
          comparePatchVersions patch.version (some pinnedVersion) = some .eq) := by
  unfold evaluateAppRule
  cases appRuleFor toLowerCase patch rules with
  | none => simp
  | some rule =>
    cases action : rule.action with
    | block => simp [action]
    | pin pinnedVersion =>
      cases order : comparePatchVersions patch.version (some pinnedVersion) with
      | none => simp [action, order]
      | some o =>
        cases o with
        | lt | eq | gt => simp [action, order]

theorem mem_resolve {orgId : Text} {a : ApprovedPatch} :
    a ∈ resolveApprovedPatchesForDevice toLowerCase parseDate store now deviceId orgId config ↔
      ∃ partnerId, partnerOf store orgId = some partnerId ∧ partnerId ≠ [] ∧
        ∃ c ∈ finalCandidates toLowerCase store deviceId config, ∃ reason,
          evaluatePatchApproval toLowerCase parseDate c.patch (effectiveRing config partnerId) config
            (manualApprovalSet store partnerId (effectiveRing config partnerId)
              ((finalCandidates toLowerCase store deviceId config).map fun c => c.patch.id)) now = some reason ∧
          a = approvedPatch c reason := by
  unfold resolveApprovedPatchesForDevice
  cases partnerOf store orgId with
  | none => simp
  | some partnerId =>
    dsimp only
    split_ifs with blank
    · simp [blank]
    · simp [blank, mem_filterMap, eq_comm]

theorem contains_manualApprovalSet {partnerId : Text} {patchIds : List Text} (listed : patch.id ∈ patchIds) :
    (manualApprovalSet store partnerId ringId patchIds).contains patch.id = true ↔
      ManuallyApproved store partnerId ringId patch := by
  unfold manualApprovalSet ManuallyApproved
  rw [contains_iff_mem, List.mem_map]
  constructor
  · rintro ⟨row, member, same⟩
    obtain ⟨stored, kept⟩ := mem_filter.mp member
    obtain ⟨⟨partner, -, approved⟩, scope⟩ := of_decide_eq_true kept
    exact ⟨row, stored, partner, same, approved, scope.symm⟩
  · rintro ⟨row, stored, partner, same, approved, scope⟩
    exact ⟨row, mem_filter.mpr ⟨stored, decide_eq_true ⟨⟨partner, same ▸ listed, approved⟩, scope.symm⟩⟩, same⟩

theorem evaluatePatchApproval_some {manual : List Text} :
    evaluatePatchApproval toLowerCase parseDate patch ringId config manual now = some reason ↔
      (manual.contains patch.id = true ∧ reason = .manual) ∨
      (manual.contains patch.id = false ∧ truthy ringId = true ∧
        ((∃ rule, categoryRuleFor toLowerCase patch (buildCategoryRuleMap toLowerCase config.categoryRules) = some rule ∧
            rule.autoApprove = true ∧ evaluateCategoryRule parseDate patch rule config.deferralDays now = some reason) ∨
          ((∀ rule, categoryRuleFor toLowerCase patch (buildCategoryRuleMap toLowerCase config.categoryRules) = some rule →
              rule.autoApprove = false) ∧
            evaluateRing parseDate patch (parseRingAutoApprove config.autoApprove) now = some reason))) := by
  unfold evaluatePatchApproval
  cases manual.contains patch.id with
  | true => simp [@eq_comm _ reason]
  | false =>
    cases truthy ringId with
    | false => simp
    | true =>
      cases categoryRuleFor toLowerCase patch (buildCategoryRuleMap toLowerCase config.categoryRules) with
      | none => simp
      | some rule =>
        cases approves : rule.autoApprove with
        | true | false => simp [approves]

theorem mem_finalCandidates {c : Candidate} :
    c ∈ finalCandidates toLowerCase store deviceId config ↔
      c ∈ pendingPatches store deviceId ∧ sourceAllowed config c.patch = true ∧
        FreeOfAppRules toLowerCase config c.patch := by
  unfold finalCandidates FreeOfAppRules
  rw [mem_filter, mem_filter, and_assoc, passesAppRules_iff, evaluateAppRule_allowed]

theorem mem_pendingPatches {c : Candidate} :
    c ∈ pendingPatches store deviceId ↔ ∃ row ∈ store.devicePatches, row.id = c.devicePatchId ∧
      row.deviceId = deviceId ∧ row.status = .pending ∧ row.patchId = c.patch.id ∧ c.patch ∈ store.patches := by
  unfold pendingPatches
  constructor
  · intro member
    obtain ⟨row, kept, joined⟩ := mem_flatMap.mp member
    obtain ⟨stored, device⟩ := mem_filter.mp kept
    obtain ⟨found, matched, rfl⟩ := mem_map.mp joined
    obtain ⟨there, same⟩ := mem_filter.mp matched
    obtain ⟨own, outstanding⟩ := of_decide_eq_true device
    exact ⟨row, stored, rfl, own, mem_singleton.mp outstanding, (of_decide_eq_true same).symm, there⟩
  · rintro ⟨row, stored, named, own, pending, same, there⟩
    refine mem_flatMap.mpr ⟨row, mem_filter.mpr ⟨stored, decide_eq_true ⟨own, ?_⟩⟩,
      mem_map.mpr ⟨c.patch, mem_filter.mpr ⟨there, decide_eq_true same.symm⟩, ?_⟩⟩
    · exact mem_singleton.mpr pending
    · rw [named]

theorem approved_reason {partnerId : Text} {patchIds : List Text} (listed : patch.id ∈ patchIds)
    (approved : evaluatePatchApproval toLowerCase parseDate patch ringId config
      (manualApprovalSet store partnerId ringId patchIds) now = some reason) :
    ManuallyApproved store partnerId ringId patch ∨ (truthy ringId = true ∧
      (CategoryApproved toLowerCase parseDate config now patch ∨ RingApproved parseDate config now patch)) := by
  rcases evaluatePatchApproval_some.mp approved with ⟨manual, -⟩ | ⟨-, ring, byRule | ⟨-, byRing⟩⟩
  · exact .inl ((contains_manualApprovalSet listed).mp manual)
  · obtain ⟨rule, found, approves, evaluated⟩ := byRule
    obtain ⟨severity, free, -⟩ := evaluateCategoryRule_some.mp evaluated
    exact .inr ⟨ring, .inl ⟨rule, found, approves, fun some_filter => severityIn_iff.mp (severity some_filter),
      not_held_iff.mp free⟩⟩
  · obtain ⟨enabled, severity, free, -⟩ := evaluateRing_some.mp byRing
    exact .inr ⟨ring, .inr ⟨enabled, severityIn_iff.mp severity, not_held_iff.mp free⟩⟩

end Approved

section Stricter
variable (toLowerCase : Text → Text) (parseDate : Text → Option ℤ) (patches : List PatchRow)
variable {reason : ApprovalReason}

/-- A deferral that stays or gets longer, where its end is still a time for every release date. -/
def LongerDeferral (days next : ℤ) : Prop :=
  next = days ∨ (days ≤ next ∧ ∀ patch ∈ patches, ∀ text start, patch.releaseDate = some text →
    parseDate text = some start → timeClip (start + next * dayMs) ≠ none)

/-- A list of severities that loses some, but does not become empty. -/
def FewerSeverities (listed next : List Text) : Prop := next ⊆ listed ∧ (next = [] → listed = [])

structure StricterRule (days nextDays : ℤ) (rule next : CategoryRule) : Prop where
  category : next.category = rule.category
  autoApprove : next.autoApprove = rule.autoApprove
  severities : FewerSeverities (rule.severityFilter.getD []) (next.severityFilter.getD [])
  deferral : LongerDeferral parseDate patches (rule.deferralDaysOverride.getD days) (next.deferralDaysOverride.getD nextDays)

structure Stricter (config next : ApprovalEvaluationConfig) : Prop where
  ring : next.ringId = config.ringId ∧ next.ringPartnerId = config.ringPartnerId
  sources : next.sources = config.sources
  categoryRules : List.Forall₂ (StricterRule parseDate patches config.deferralDays next.deferralDays)
    config.categoryRules next.categoryRules
  enabled : (parseRingAutoApprove next.autoApprove).enabled = (parseRingAutoApprove config.autoApprove).enabled
  severities : (parseRingAutoApprove next.autoApprove).severities ⊆ (parseRingAutoApprove config.autoApprove).severities
  deferral : LongerDeferral parseDate patches (parseRingAutoApprove config.autoApprove).deferralDays
    (parseRingAutoApprove next.autoApprove).deferralDays
  apps : next.apps = config.apps ∨ ∃ front rule back, config.apps.getD [] = front ++ back ∧
    next.apps = some (front ++ rule :: back) ∧ ∀ r ∈ front ++ back,
      appRuleKey toLowerCase r.source r.packageId ≠ appRuleKey toLowerCase rule.source rule.packageId

variable {toLowerCase} {parseDate} {patches} {config next : ApprovalEvaluationConfig} {patch : PatchRow} {now : ℤ}

theorem timeClip_eq {ms stop : ℤ} (clipped : timeClip ms = some stop) : stop = ms := by
  unfold timeClip at clipped
  split_ifs at clipped
  exact (some.inj clipped).symm

theorem not_held_of_longer {days nextDays : ℤ} (longer : LongerDeferral parseDate patches days nextDays)
    (member : patch ∈ patches) (free : isHeldByDeferral parseDate patch.releaseDate nextDays now = false) :
    isHeldByDeferral parseDate patch.releaseDate days now = false := by
  rcases longer with rfl | ⟨le, times⟩
  · exact free
  · rw [not_held_iff] at free ⊢
    rcases free with none | ⟨text, release, filled, ended⟩
    · exact .inl (le.trans none)
    · refine .inr ⟨text, release, filled, fun start begins stop ends => ?_⟩
      obtain ⟨later, clipped⟩ := ne_none_iff_exists'.mp (times patch member text start release begins)
      have bound := ended start begins later clipped
      have first := timeClip_eq ends
      have second := timeClip_eq clipped
      have day : 0 < dayMs := by decide
      have order : days * dayMs ≤ nextDays * dayMs := mul_le_mul_of_nonneg_right le day.le
      omega

theorem severityIn_of_subset {severity : Option PatchSeverity} {listed fewer : List Text} (subset : fewer ⊆ listed)
    (within : severityIn severity fewer = true) : severityIn severity listed = true := by
  obtain ⟨s, given, member⟩ := severityIn_iff.mp within
  exact severityIn_iff.mpr ⟨s, given, subset member⟩

theorem evaluateCategoryRule_of_stricter {days nextDays : ℤ} {rule nextRule : CategoryRule}
    (stricter : StricterRule parseDate patches days nextDays rule nextRule) (member : patch ∈ patches)
    (approved : evaluateCategoryRule parseDate patch nextRule nextDays now = some reason) :
    evaluateCategoryRule parseDate patch rule days now = some reason := by
  obtain ⟨severity, free, rfl⟩ := evaluateCategoryRule_some.mp approved
  refine evaluateCategoryRule_some.mpr ⟨fun filtered => ?_, not_held_of_longer stricter.deferral member free, rfl⟩
  have still : nextRule.severityFilter.getD [] ≠ [] := fun none => filtered (stricter.severities.2 none)
  exact severityIn_of_subset stricter.severities.1 (severity still)

theorem evaluateRing_of_stricter {ring nextRing : RingAutoApproveConfig} (enabled : nextRing.enabled = ring.enabled)
    (severities : nextRing.severities ⊆ ring.severities)
    (deferral : LongerDeferral parseDate patches ring.deferralDays nextRing.deferralDays) (member : patch ∈ patches)
    (approved : evaluateRing parseDate patch nextRing now = some reason) :
    evaluateRing parseDate patch ring now = some reason := by
  obtain ⟨on, severity, free, rfl⟩ := evaluateRing_some.mp approved
  exact evaluateRing_some.mpr ⟨enabled ▸ on, severityIn_of_subset severities severity,
    not_held_of_longer deferral member free, rfl⟩

section Maps
variable {β : Type} {R : β → β → Prop}

def SameKeys (R : β → β → Prop) (first second : List (Text × β)) : Prop :=
  List.Forall₂ (fun a b => a.1 = b.1 ∧ R a.2 b.2) first second

theorem mapGet_rel {first second : List (Text × β)} (same : SameKeys R first second) (key : Text) :
    Option.Rel R (mapGet first key) (mapGet second key) := by
  induction same with
  | nil => exact .none
  | @cons a b first second both others ih =>
    unfold mapGet at ih ⊢
    rw [find?_cons, find?_cons, ← both.1]
    cases decide (a.1 = key) with
    | true => exact .some both.2
    | false => exact ih

theorem foldl_sameKeys {rules nextRules : List CategoryRule} {S : CategoryRule → CategoryRule → Prop}
    (related : List.Forall₂ S rules nextRules) (categories : ∀ a b, S a b → b.category = a.category)
    {first second : List (Text × CategoryRule)} (same : SameKeys S first second) : SameKeys S
      (rules.foldl (fun map rule => if rule.category = [] then map else (toLowerCase rule.category, rule) :: map) first)
      (nextRules.foldl (fun map rule => if rule.category = [] then map else (toLowerCase rule.category, rule) :: map)
        second) := by
  induction related generalizing first second with
  | nil => exact same
  | @cons a b rules nextRules both others ih =>
    rw [foldl_cons, foldl_cons]
    apply ih
    rw [categories a b both]
    split_ifs
    · exact same
    · exact .cons ⟨rfl, both⟩ same

end Maps

theorem categoryRuleFor_rel {first second : List (Text × CategoryRule)} {S : CategoryRule → CategoryRule → Prop}
    (same : SameKeys S first second) :
    Option.Rel S (categoryRuleFor toLowerCase patch first) (categoryRuleFor toLowerCase patch second) := by
  have fallback : Option.Rel S
      (if isThirdPartyPatchSource patch.source.name then mapGet first "third_party_app".toList else none)
      (if isThirdPartyPatchSource patch.source.name then mapGet second "third_party_app".toList else none) := by
    split_ifs
    · exact mapGet_rel same _
    · exact .none
  unfold categoryRuleFor
  cases patch.category with
  | none => exact fallback
  | some category =>
    dsimp only
    by_cases blank : category = []
    · rw [if_pos blank, if_pos blank]
      exact fallback
    · rw [if_neg blank, if_neg blank]
      have found := mapGet_rel same (toLowerCase category)
      generalize mapGet first (toLowerCase category) = one at found ⊢
      generalize mapGet second (toLowerCase category) = two at found ⊢
      cases found with
      | none => exact fallback
      | some both => exact .some both

theorem buildAppRuleMap_eq (apps : Option (List PolicyAppRule)) : buildAppRuleMap toLowerCase apps =
    ((apps.getD []).map fun rule => (appRuleKey toLowerCase rule.source rule.packageId, rule)).reverse := by
  have fold : ∀ (listed : List PolicyAppRule) (map : List (Text × PolicyAppRule)),
      listed.foldl (fun map rule => (appRuleKey toLowerCase rule.source rule.packageId, rule) :: map) map =
        (listed.map fun rule => (appRuleKey toLowerCase rule.source rule.packageId, rule)).reverse ++ map := by
    intro listed
    induction listed with
    | nil => exact fun _ => rfl
    | cons rule rest ih =>
      intro map
      rw [foldl_cons, ih, map_cons, reverse_cons, append_assoc]
      rfl
  exact (fold _ []).trans (append_nil _)

theorem mapGet_added {front back : List PolicyAppRule} {rule found : PolicyAppRule} {key : Text}
    (apart : ∀ r ∈ front ++ back,
      appRuleKey toLowerCase r.source r.packageId ≠ appRuleKey toLowerCase rule.source rule.packageId)
    (there : mapGet (buildAppRuleMap toLowerCase (some (front ++ back))) key = some found) :
    mapGet (buildAppRuleMap toLowerCase (some (front ++ rule :: back))) key = some found := by
  rw [buildAppRuleMap_eq] at there ⊢
  unfold mapGet at there ⊢
  obtain ⟨entry, first, rfl⟩ := map_eq_some_iff.mp there
  have keyed : entry.1 = key := by simpa using find?_some first
  have listed := mem_reverse.mp (mem_of_find?_eq_some first)
  obtain ⟨r, member, rfl⟩ := mem_map.mp listed
  have other : decide (appRuleKey toLowerCase rule.source rule.packageId = key) = false :=
    decide_eq_false fun same => apart r member (keyed.trans same.symm)
  simp only [getD_some, map_append, map_cons, reverse_append, reverse_cons,
    append_assoc, find?_append, find?_cons, find?_nil, other, none_or] at first ⊢
  rw [first]
  rfl

theorem appRuleFor_of_stricter (stricter : Stricter toLowerCase parseDate patches config next) {rule : PolicyAppRule}
    (found : appRuleFor toLowerCase patch (buildAppRuleMap toLowerCase config.apps) = some rule) :
    appRuleFor toLowerCase patch (buildAppRuleMap toLowerCase next.apps) = some rule := by
  rcases stricter.apps with same | ⟨front, added, back, before, after, apart⟩
  · rw [same]
    exact found
  · have unfolded : buildAppRuleMap toLowerCase config.apps = buildAppRuleMap toLowerCase (some (front ++ back)) := by
      rw [buildAppRuleMap, before]
      rfl
    rw [unfolded] at found
    rw [after]
    unfold appRuleFor at found ⊢
    cases package : patch.packageId with
    | none =>
      rw [package] at found
      cases found
    | some packageId =>
      rw [package] at found
      dsimp only at found ⊢
      split_ifs at found ⊢
      exact mapGet_added apart found

theorem evaluatePatchApproval_of_stricter {ringId : Option Text} {manual nextManual : List Text}
    (stricter : Stricter toLowerCase parseDate patches config next)
    (member : patch ∈ patches) (same : nextManual.contains patch.id = manual.contains patch.id)
    (approved : evaluatePatchApproval toLowerCase parseDate patch ringId next nextManual now = some reason) :
    evaluatePatchApproval toLowerCase parseDate patch ringId config manual now = some reason := by
  have rules : Option.Rel (StricterRule parseDate patches config.deferralDays next.deferralDays)
      (categoryRuleFor toLowerCase patch (buildCategoryRuleMap toLowerCase config.categoryRules))
      (categoryRuleFor toLowerCase patch (buildCategoryRuleMap toLowerCase next.categoryRules)) :=
    categoryRuleFor_rel (foldl_sameKeys stricter.categoryRules (fun _ _ both => both.category) .nil)
  rw [evaluatePatchApproval_some, same] at approved
  rw [evaluatePatchApproval_some]
  generalize categoryRuleFor toLowerCase patch (buildCategoryRuleMap toLowerCase config.categoryRules) = one at *
  generalize categoryRuleFor toLowerCase patch (buildCategoryRuleMap toLowerCase next.categoryRules) = two at *
  rcases approved with manually | ⟨unlisted, ring, ⟨nextRule, found, approves, evaluated⟩ | ⟨none, evaluated⟩⟩
  · exact .inl manually
  · subst found
    cases rules with
    | @some rule _ both =>
      refine .inr ⟨unlisted, ring, .inl ⟨rule, rfl, both.autoApprove ▸ approves, ?_⟩⟩
      exact evaluateCategoryRule_of_stricter both member evaluated
  · refine .inr ⟨unlisted, ring, .inr ⟨fun rule found => ?_, ?_⟩⟩
    · subst found
      cases rules with
      | @some _ nextRule both => exact both.autoApprove ▸ none nextRule rfl
    · exact evaluateRing_of_stricter stricter.enabled stricter.severities stricter.deferral member evaluated

end Stricter

section Resolve
variable {toLowerCase : Text → Text} {parseDate : Text → Option ℤ} {store : PatchStore}
  {config next : ApprovalEvaluationConfig} {now : ℤ} {deviceId orgId : Text}

theorem resolve_of_stricter (stricter : Stricter toLowerCase parseDate store.patches config next) :
    resolveApprovedPatchesForDevice toLowerCase parseDate store now deviceId orgId next ⊆
      resolveApprovedPatchesForDevice toLowerCase parseDate store now deviceId orgId config := by
  intro a member
  obtain ⟨partnerId, partner, named, c, candidate, reason, approved, rfl⟩ := mem_resolve.mp member
  obtain ⟨pending, source, free⟩ := mem_finalCandidates.mp candidate
  have still : c ∈ finalCandidates toLowerCase store deviceId config := by
    refine mem_finalCandidates.mpr ⟨pending, ?_, fun rule found => free rule (appRuleFor_of_stricter stricter found)⟩
    rw [sourceAllowed, ← stricter.sources]
    exact source
  have ring : effectiveRing next partnerId = effectiveRing config partnerId := by
    rw [effectiveRing, stricter.ring.1, stricter.ring.2]
    rfl
  rw [ring] at approved
  obtain ⟨-, -, -, -, -, -, stored⟩ := mem_pendingPatches.mp pending
  refine mem_resolve.mpr ⟨partnerId, partner, named, c, still, reason, ?_, rfl⟩
  refine evaluatePatchApproval_of_stricter stricter stored ?_ approved
  have before := mem_map_of_mem (f := fun c : Candidate => c.patch.id) still
  have after := mem_map_of_mem (f := fun c : Candidate => c.patch.id) candidate
  rw [Bool.eq_iff_iff, contains_manualApprovalSet after, contains_manualApprovalSet before]

/-- Every patch that is returned is outstanding on the device, comes from a source of the policy and is free of the rules
for applications. It is approved by the partner, or the ring that is in force approves it by a category rule or by
itself. A stricter configuration returns no other patch. -/
theorem resolve_sound_and_monotone (toLowerCase : Text → Text) (parseDate : Text → Option ℤ) (store : PatchStore)
    (now : ℤ) (deviceId orgId : Text) (config : ApprovalEvaluationConfig) :
    (∀ a ∈ resolveApprovedPatchesForDevice toLowerCase parseDate store now deviceId orgId config,
      ∃ partnerId, partnerOf store orgId = some partnerId ∧
      ∃ row ∈ store.devicePatches, ∃ patch ∈ store.patches,
        (row.id = a.devicePatchId ∧ row.deviceId = deviceId ∧ row.status = .pending ∧ row.patchId = patch.id ∧
          a = approvedPatch ⟨row.id, patch⟩ a.approvalReason) ∧
        (∀ allowed, buildAllowedPatchSources config.sources = some allowed → patch.source ∈ allowed) ∧
        FreeOfAppRules toLowerCase config patch ∧
        (ManuallyApproved store partnerId (effectiveRing config partnerId) patch ∨
          (truthy (effectiveRing config partnerId) = true ∧
            (CategoryApproved toLowerCase parseDate config now patch ∨ RingApproved parseDate config now patch)))) ∧
    ∀ next, Stricter toLowerCase parseDate store.patches config next →
      resolveApprovedPatchesForDevice toLowerCase parseDate store now deviceId orgId next ⊆
        resolveApprovedPatchesForDevice toLowerCase parseDate store now deviceId orgId config := by
  refine ⟨fun a member => ?_, fun next stricter => resolve_of_stricter stricter⟩
  obtain ⟨partnerId, partner, -, c, candidate, reason, approved, rfl⟩ := mem_resolve.mp member
  obtain ⟨pending, source, free⟩ := mem_finalCandidates.mp candidate
  obtain ⟨row, stored, named, own, outstanding, same, there⟩ := mem_pendingPatches.mp pending
  have listed := mem_map_of_mem (f := fun c : Candidate => c.patch.id) candidate
  refine ⟨partnerId, partner, row, stored, c.patch, there, ⟨named, own, outstanding, same, ?_⟩, ?_, free,
    approved_reason listed approved⟩
  · rw [named]
    rfl
  · intro allowed given
    rw [sourceAllowed, given] at source
    exact contains_iff_mem.mp source

end Resolve

def sampleStore (patch : PatchRow) : PatchStore :=
  ⟨[⟨"org".toList, some "partner".toList⟩], [patch], [⟨"dp".toList, "device".toList, patch.id, .pending⟩], []⟩

def samplePatch (severity : Option PatchSeverity) (releaseDate : Option Text) : PatchRow :=
  ⟨"p".toList, .microsoft, "KB1".toList, none, none, "Update".toList, severity, some "security".toList, releaseDate, false⟩

def sampleConfig (severityFilter : Option (List Text)) (deferralDays : ℤ) : ApprovalEvaluationConfig :=
  ⟨some "ring".toList, some "partner".toList, [⟨"security".toList, true, severityFilter, none⟩], .null, deferralDays,
    none, none⟩

/-- A critical patch of the first of January, ten days later: it stays approved under a longer deferral and with fewer
severities, and the longer deferral approves nothing else. -/
theorem resolve_sound_and_monotone_january :
    (resolveApprovedPatchesForDevice (map Char.toLower)
      (fun t => if t = "2026-01-01".toList then some 1767225600000 else none)
      (sampleStore (samplePatch (some .critical) (some "2026-01-01".toList))) 1768089600000 "device".toList "org".toList
      (sampleConfig (some ["critical".toList]) 5)).map ApprovedPatch.patchId = ["p".toList] ∧
    resolveApprovedPatchesForDevice (map Char.toLower)
        (fun t => if t = "2026-01-01".toList then some 1767225600000 else none)
        (sampleStore (samplePatch (some .critical) (some "2026-01-01".toList))) 1768089600000 "device".toList "org".toList
        (sampleConfig (some ["critical".toList]) 5) ⊆
      resolveApprovedPatchesForDevice (map Char.toLower)
        (fun t => if t = "2026-01-01".toList then some 1767225600000 else none)
        (sampleStore (samplePatch (some .critical) (some "2026-01-01".toList))) 1768089600000 "device".toList "org".toList
        (sampleConfig (some ["critical".toList, "important".toList]) 3) := by
  refine ⟨by decide +kernel, (resolve_sound_and_monotone _ _ _ _ _ _ _).2 _ ?_⟩
  refine ⟨⟨rfl, rfl⟩, rfl, .cons ⟨rfl, rfl, ⟨by decide, by decide⟩, .inr ⟨by decide, ?_⟩⟩ .nil, rfl,
    List.Subset.refl _, .inl rfl, .inl rfl⟩
  intro patch member text start dated begins
  rcases mem_singleton.mp member with rfl
  cases dated
  cases begins
  decide

/-- A category rule without severities approves a patch without a severity, and without a deferral it needs no release
date; nobody has approved the patch. -/
theorem category_rule_approves_unrated :
    (sampleStore (samplePatch none none)).patchApprovals = [] ∧
      resolveApprovedPatchesForDevice (map Char.toLower) (fun _ => none) (sampleStore (samplePatch none none))
        1768089600000 "device".toList "org".toList (sampleConfig none 0) =
          [⟨"p".toList, "dp".toList, "KB1".toList, "Update".toList, some "security".toList, none, false,
            .categoryRule⟩] := by
  decide +kernel

end RemudaRmm.Devices
