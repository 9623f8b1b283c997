import Mathlib.Data.List.Infix
import Mathlib.Data.Prod.Lex
import RemudaRmm.Foundation.FirstWins
import RemudaRmm.Policies.TimeWindows

/-! The rules for elevations (`pamRuleEngine.ts`): the first enabled rule whose criteria all hold gives the verdict.
Lower case is a parameter, and identifiers are ordered as `localeCompare` orders them. -/
namespace RemudaRmm.Approvals
open Foundation Policies Option

inductive PamRuleNegateKey
  | signer | signerGroup | hash | pathGlob | parentImage | commandLine | user | adGroup | toolName | riskTier
  deriving DecidableEq

inductive PamRuleVerdict
  | autoApprove | autoDeny | requireApproval | ignore
  deriving DecidableEq

structure PamRule (ι : Type*) where
  id : ι
  name : Text
  enabled : Bool
  priority : ℤ
  matchSigner : Option Text
  matchSignerGroupId : Option Text
  matchHash : Option Text
  matchPathGlob : Option Text
  matchParentImage : Option Text
  matchCommandLine : Option Text
  matchUser : Option Text
  matchAdGroup : Option Text
  matchToolName : Option Text
  matchRiskTier : Option ℤ
  matchNegate : Option (List PamRuleNegateKey)
  timeWindow : Option PamRuleTimeWindow
  verdict : PamRuleVerdict
  approvalDurationMinutes : Option ℤ
  createdAt : Option ℤ

structure PamRuleCandidate where
  targetExecutablePath : Option Text
  targetExecutableHash : Option Text
  targetExecutableSigner : Option Text
  subjectUsername : Text
  parentImage : Option Text
  commandLine : Option Text
  subjectAdGroups : Option (List Text)
  toolName : Option Text
  riskTier : Option ℤ
  instant : Option ℤ

structure PamRuleMatch (ι : Type*) where
  ruleId : ι
  ruleName : Text
  verdict : PamRuleVerdict
  approvalDurationMinutes : Option ℤ
  deriving DecidableEq

/-- Lower case, what an instant is in a zone, and the time of the call. -/
structure PamPlatform where
  toLowerCase : Text → Text
  localInstant : ℤ → Text → Option LocalInstant
  now : ℤ

abbrev SignerGroupResolver := Text → Option (List Text)

inductive GlobToken
  | star (crossesSlash : Bool)
  | literal (ch : Char)
  deriving DecidableEq

/-- A run of stars is one token, which crosses slashes if it has two stars or more. -/
def globTokens : Text → List GlobToken
  | [] => []
  | c :: g =>
    if c = '*' then
      match globTokens g with
      | .star _ :: tokens => .star true :: tokens
      | tokens => .star false :: tokens
    else .literal c :: globTokens g

/-- Whether the tokens match what is left of the text, from each of its places on. -/
def globRow (token : GlobToken) : Text → List Bool → List Bool
  | c :: t, here :: later =>
    match token with
    | .star crossesSlash =>
      let next := globRow (.star crossesSlash) t later
      (here || ((crossesSlash || c ≠ '/') && next.headD false)) :: next
    | .literal ch => (ch = c && later.headD false) :: globRow (.literal ch) t later
  | [], row => if token matches .star _ then row else [false]
  | _, [] => []

section Matching
variable {ι : Type*} (platform : PamPlatform)

def matchPathGlob (glob path : Text) : Bool :=
  let norm (s : Text) := platform.toLowerCase (s.map fun c => if c = '\\' then '/' else c)
  ((globTokens (norm glob)).foldr (fun token row => globRow token (norm path) row)
    (List.replicate (norm path).length false ++ [true])).headD false

def eqCi (a b : Text) : Bool := platform.toLowerCase a = platform.toLowerCase b

/-- An empty text is no criterion. -/
def given (criterion : Option Text) : Option Text := criterion.filter (· ≠ [])

def hasToolActionCriterion (rule : PamRule ι) : Bool := (given rule.matchToolName).isSome || rule.matchRiskTier.isSome

def hasAnyCriteria (rule : PamRule ι) : Bool :=
  (given rule.matchSigner).isSome || (given rule.matchSignerGroupId).isSome || (given rule.matchHash).isSome ||
    (given rule.matchPathGlob).isSome || (given rule.matchParentImage).isSome ||
    (given rule.matchCommandLine).isSome || (given rule.matchUser).isSome || (given rule.matchAdGroup).isSome ||
    (given rule.matchToolName).isSome || rule.matchRiskTier.isSome

/-- A criterion that the rule has is satisfied if its data are there and the test holds, or fails when negated. -/
def satisfied {α β : Type*} (rule : PamRule ι) (key : PamRuleNegateKey) (criterion : Option α) (data : α → Option β)
    (test : α → β → Bool) : Bool :=
  criterion.all fun wanted => (data wanted).any fun present =>
    if key ∈ rule.matchNegate.getD [] then !test wanted present else test wanted present

def signerMembers (signerGroups : Option SignerGroupResolver) (signer : Option Text) (id : Text) :
    Option (List Text × Text) :=
  signer.bind fun signer => ((signerGroups.bind (· id)).filter (· ≠ [])).map fun members => (members, signer)

def ruleMatches (rule : PamRule ι) (candidate : PamRuleCandidate) (signerGroups : Option SignerGroupResolver) : Bool :=
  hasAnyCriteria rule &&
    satisfied rule .hash (given rule.matchHash) (fun _ => candidate.targetExecutableHash) (eqCi platform) &&
    satisfied rule .signer (given rule.matchSigner) (fun _ => candidate.targetExecutableSigner) (eqCi platform) &&
    satisfied rule .signerGroup (given rule.matchSignerGroupId)
      (signerMembers signerGroups candidate.targetExecutableSigner)
      (fun _ (members, signer) => members.any fun s => eqCi platform s signer) &&
    satisfied rule .pathGlob (given rule.matchPathGlob) (fun _ => candidate.targetExecutablePath)
      (matchPathGlob platform) &&
    satisfied rule .parentImage (given rule.matchParentImage) (fun _ => candidate.parentImage)
      (matchPathGlob platform) &&
    satisfied rule .commandLine (given rule.matchCommandLine) (fun _ => candidate.commandLine)
      (fun wanted line => platform.toLowerCase wanted <:+: platform.toLowerCase line) &&
    satisfied rule .user (given rule.matchUser) (fun _ => some candidate.subjectUsername) (eqCi platform) &&
    satisfied rule .adGroup (given rule.matchAdGroup) (fun _ => candidate.subjectAdGroups)
      (fun wanted groups => groups.any fun g => eqCi platform g wanted) &&
    satisfied rule .toolName (given rule.matchToolName) (fun _ => candidate.toolName) (eqCi platform) &&
    satisfied rule .riskTier rule.matchRiskTier (fun _ => candidate.riskTier) (fun wanted tier => wanted = tier) &&
    rule.timeWindow.all (isWithinTimeWindow (platform.localInstant (candidate.instant.getD platform.now)))

end Matching

section Evaluation
variable {ι : Type*} [LinearOrder ι] (platform : PamPlatform)

/-- Lower priorities first, then older rules, then by identifier; a rule without a date is of the epoch. -/
def compareRules (a b : PamRule ι) : Ordering :=
  if a.priority ≠ b.priority then compare a.priority b.priority
  else if a.createdAt.getD 0 ≠ b.createdAt.getD 0 then compare (a.createdAt.getD 0) (b.createdAt.getD 0)
  else compare a.id b.id

def PamRule.toMatch (rule : PamRule ι) : PamRuleMatch ι :=
  ⟨rule.id, rule.name, rule.verdict, rule.approvalDurationMinutes⟩

def evaluatePamRules (rules : List (PamRule ι)) (candidate : PamRuleCandidate)
    (signerGroups : Option SignerGroupResolver) : Option (PamRuleMatch ι) :=
  ((rules.insertionSort fun a b => compareRules a b ≠ .gt).find? fun rule =>
    rule.enabled && ruleMatches platform rule candidate signerGroups).map PamRule.toMatch

def evaluatePamToolActionRules (rules : List (PamRule ι)) (candidate : PamRuleCandidate) : Option (PamRuleMatch ι) :=
  evaluatePamRules platform (rules.filter hasToolActionCriterion) candidate none

end Evaluation

section Laws
variable {ι : Type*} {platform : PamPlatform} {rule : PamRule ι} {rules : List (PamRule ι)}
  {candidate other : PamRuleCandidate} {signerGroups more : Option SignerGroupResolver}

def Effective (platform : PamPlatform) (candidate : PamRuleCandidate) (signerGroups : Option SignerGroupResolver)
    (rule : PamRule ι) : Prop := rule.enabled = true ∧ ruleMatches platform rule candidate signerGroups = true

/-- The second candidate has what the first one has, at the same instant. -/
structure PamRuleCandidate.Extends (platform : PamPlatform) (candidate other : PamRuleCandidate) : Prop where
  path : ∀ x ∈ candidate.targetExecutablePath, other.targetExecutablePath = some x
  hash : ∀ x ∈ candidate.targetExecutableHash, other.targetExecutableHash = some x
  signer : ∀ x ∈ candidate.targetExecutableSigner, other.targetExecutableSigner = some x
  parentImage : ∀ x ∈ candidate.parentImage, other.parentImage = some x
  commandLine : ∀ x ∈ candidate.commandLine, other.commandLine = some x
  groups : ∀ x ∈ candidate.subjectAdGroups, other.subjectAdGroups = some x
  toolName : ∀ x ∈ candidate.toolName, other.toolName = some x
  riskTier : ∀ x ∈ candidate.riskTier, other.riskTier = some x
  user : other.subjectUsername = candidate.subjectUsername
  instant : other.instant.getD platform.now = candidate.instant.getD platform.now

/-- The second map has the members of every group that has some in the first. -/
def GroupsExtend (signerGroups more : Option SignerGroupResolver) : Prop :=
  ∀ id, ∀ members ∈ signerGroups.bind (· id), members ≠ [] → more.bind (· id) = some members

/-- A time window is no identifying criterion. -/
structure PamRule.Unidentified (rule : PamRule ι) : Prop where
  signer : given rule.matchSigner = none
  signerGroup : given rule.matchSignerGroupId = none
  hash : given rule.matchHash = none
  pathGlob : given rule.matchPathGlob = none
  parentImage : given rule.matchParentImage = none
  commandLine : given rule.matchCommandLine = none
  user : given rule.matchUser = none
  adGroup : given rule.matchAdGroup = none
  toolName : given rule.matchToolName = none
  riskTier : rule.matchRiskTier = none

/-- The candidate has the data of a tool action that the rule names. -/
def Supplies (candidate : PamRuleCandidate) (rule : PamRule ι) : Prop :=
  (given rule.matchToolName ≠ none → candidate.toolName ≠ none) ∧
    (rule.matchRiskTier ≠ none → candidate.riskTier ≠ none)

theorem satisfied_mono {α β : Type*} {key : PamRuleNegateKey} {criterion : Option α} {data data' : α → Option β}
    {test : α → β → Bool} (adds : ∀ wanted, ∀ present ∈ data wanted, data' wanted = some present)
    (holds : satisfied rule key criterion data test = true) : satisfied rule key criterion data' test = true := by
  cases criterion with
  | none => rfl
  | some wanted =>
    obtain ⟨present, there, passes⟩ := (any_eq_true _ _).mp holds
    exact (any_eq_true _ _).mpr ⟨present, adds wanted present there, passes⟩

theorem present_of_satisfied {α β : Type*} {key : PamRuleNegateKey} {criterion : Option α} {data : Option β}
    {test : α → β → Bool} (holds : satisfied rule key criterion (fun _ => data) test = true)
    (named : criterion ≠ none) : data ≠ none := by
  obtain ⟨wanted, rfl⟩ := ne_none_iff_exists'.mp named
  obtain ⟨present, there, -⟩ := (any_eq_true _ _).mp holds
  rw [show data = some present from there]
  exact some_ne_none present

theorem signerMembers_mono (adds : ∀ x ∈ candidate.targetExecutableSigner, other.targetExecutableSigner = some x)
    (groups : GroupsExtend signerGroups more) (id : Text) :
    ∀ present ∈ signerMembers signerGroups candidate.targetExecutableSigner id,
      signerMembers more other.targetExecutableSigner id = some present := by
  intro present there
  obtain ⟨signer, signed, rest⟩ := bind_eq_some_iff.mp there
  obtain ⟨members, held, rfl⟩ := map_eq_some_iff.mp rest
  obtain ⟨found, some_member⟩ := filter_eq_some_iff.mp held
  rw [signerMembers, adds signer signed, bind_some, groups id members found (of_decide_eq_true some_member),
    ← found, held, map_some]

theorem ruleMatches_mono (adds : candidate.Extends platform other) (groups : GroupsExtend signerGroups more)
    (fits : ruleMatches platform rule candidate signerGroups = true) : ruleMatches platform rule other more = true := by
  simp only [ruleMatches, Bool.and_eq_true, and_assoc] at fits ⊢
  obtain ⟨criteria, hash, signer, group, path, parent, line, user, adGroup, tool, tier, window⟩ := fits
  refine ⟨criteria, ?_, ?_, ?_, ?_, ?_, ?_, ?_, ?_, ?_, ?_, ?_⟩
  · exact satisfied_mono (fun _ => adds.hash) hash
  · exact satisfied_mono (fun _ => adds.signer) signer
  · exact satisfied_mono (signerMembers_mono adds.signer groups) group
  · exact satisfied_mono (fun _ => adds.path) path
  · exact satisfied_mono (fun _ => adds.parentImage) parent
  · exact satisfied_mono (fun _ => adds.commandLine) line
  · rw [adds.user]
    exact user
  · exact satisfied_mono (fun _ => adds.groups) adGroup
  · exact satisfied_mono (fun _ => adds.toolName) tool
  · exact satisfied_mono (fun _ => adds.riskTier) tier
  · rw [adds.instant]
    exact window

theorem ruleMatches_unidentified (bare : rule.Unidentified) :
    ruleMatches platform rule candidate signerGroups = false := by
  have criteria : hasAnyCriteria rule = false := by
    simp only [hasAnyCriteria, bare.signer, bare.signerGroup, bare.hash, bare.pathGlob, bare.parentImage,
      bare.commandLine, bare.user, bare.adGroup, bare.toolName, bare.riskTier, isSome_none, Bool.or_self]
  simp only [ruleMatches, criteria, Bool.false_and]

theorem supplies_of_matches (fits : ruleMatches platform rule candidate signerGroups = true) :
    Supplies candidate rule := by
  simp only [ruleMatches, Bool.and_eq_true] at fits
  exact ⟨present_of_satisfied fits.1.1.2, present_of_satisfied fits.1.2⟩

variable [LinearOrder ι]

def PamRule.rank (rule : PamRule ι) : ℤ ×ₗ ℤ ×ₗ ι :=
  toLex (rule.priority, toLex (rule.createdAt.getD 0, rule.id))

theorem compareRules_iff {a b : PamRule ι} : compareRules a b ≠ .gt ↔ a.rank ≤ b.rank := by
  rw [compareRules, PamRule.rank, PamRule.rank, Prod.Lex.toLex_le_toLex, Prod.Lex.toLex_le_toLex]
  split_ifs with priority created
  · rw [compare_le_iff_le, le_iff_lt_or_eq]
    simp [priority]
  · rw [not_not] at priority
    rw [compare_le_iff_le, le_iff_lt_or_eq]
    simp [priority, created]
  · rw [not_not] at priority created
    rw [compare_le_iff_le]
    simp [priority, created]

instance : Std.Total fun a b : PamRule ι => compareRules a b ≠ .gt where
  total a b := by
    rw [compareRules_iff, compareRules_iff]
    exact le_total a.rank b.rank

instance : IsTrans (PamRule ι) fun a b => compareRules a b ≠ .gt where
  trans a b c first second := by
    rw [compareRules_iff] at *
    exact first.trans second

theorem id_eq_of_rank {a b : PamRule ι} (first : a.rank ≤ b.rank) (second : b.rank ≤ a.rank) : a.id = b.id := by
  have same := congrArg (fun r => (ofLex (ofLex r).2).2) (le_antisymm first second)
  exact same

theorem evaluatePamRules_eq_some_iff (distinct : (rules.map (·.id)).Nodup) {m : PamRuleMatch ι} :
    evaluatePamRules platform rules candidate signerGroups = some m ↔ ∃ rule ∈ rules,
      Effective platform candidate signerGroups rule ∧
        (∀ r ∈ rules, Effective platform candidate signerGroups r → rule.rank ≤ r.rank) ∧ rule.toMatch = m := by
  have strict : ∀ a ∈ rules, ∀ b ∈ rules, compareRules a b ≠ .gt → compareRules b a ≠ .gt → a = b := by
    intro a first b second le ge
    rw [compareRules_iff] at le ge
    exact List.inj_on_of_nodup_map distinct first second (id_eq_of_rank le ge)
  rw [evaluatePamRules, map_eq_some_iff]
  refine exists_congr fun rule => ?_
  rw [find?_insertionSort_eq_some_iff strict]
  simp only [Bool.and_eq_true, compareRules_iff, and_assoc, Effective]

/-- Rules never grant on missing data, and their outcome does not depend on the order of the list. -/
structure PamRulesLaw (platform : PamPlatform) (rules : List (PamRule ι)) (candidate : PamRuleCandidate)
    (signerGroups : Option SignerGroupResolver) : Prop where
  least : ∀ listed : List (PamRule ι), listed.Perm rules → ∀ m,
    evaluatePamRules platform listed candidate signerGroups = some m ↔ ∃ rule ∈ rules,
      Effective platform candidate signerGroups rule ∧
        (∀ r ∈ rules, Effective platform candidate signerGroups r → rule.rank ≤ r.rank) ∧ rule.toMatch = m
  monotone : ∀ other more, candidate.Extends platform other → GroupsExtend signerGroups more → ∀ rule : PamRule ι,
    ruleMatches platform rule candidate signerGroups = true → ruleMatches platform rule other more = true
  identified : ∀ rule : PamRule ι, rule.Unidentified → ruleMatches platform rule candidate signerGroups = false
  toolAction : ∀ m, evaluatePamToolActionRules platform rules candidate = some m →
    ∃ rule ∈ rules, hasToolActionCriterion rule = true ∧ rule.toMatch = m
  supplied : ∀ rule : PamRule ι, ruleMatches platform rule candidate signerGroups = true → Supplies candidate rule

theorem pam_rules_law (distinct : (rules.map (·.id)).Nodup) : PamRulesLaw platform rules candidate signerGroups where
  least listed perm m := by
    have distinct' : (listed.map (·.id)).Nodup := (perm.map _).nodup_iff.mpr distinct
    rw [evaluatePamRules_eq_some_iff distinct']
    simp only [perm.mem_iff]
  monotone _ _ adds groups _ := ruleMatches_mono adds groups
  identified _ := ruleMatches_unidentified
  toolAction m found := by
    obtain ⟨rule, listed, same⟩ := map_eq_some_iff.mp found
    have member := List.mem_filter.mp ((List.mem_insertionSort _).mp (List.mem_of_find?_eq_some listed))
    exact ⟨rule, member.1, member.2, same⟩
  supplied _ := supplies_of_matches

def plainPlatform : PamPlatform := ⟨List.map Char.toLower, fun _ _ => none, 0⟩

/-- A rule on a signer only. -/
def signerRule (id : ℕ) (signer : Text) (verdict : PamRuleVerdict) : PamRule ℕ where
  id := id
  name := []
  enabled := true
  priority := 100
  matchSigner := some signer
  matchSignerGroupId := none
  matchHash := none
  matchPathGlob := none
  matchParentImage := none
  matchCommandLine := none
  matchUser := none
  matchAdGroup := none
  matchToolName := none
  matchRiskTier := none
  matchNegate := none
  timeWindow := none
  verdict := verdict
  approvalDurationMinutes := none
  createdAt := none

def adobeCandidate : PamRuleCandidate :=
  ⟨none, none, some "Adobe Inc.".toList, "kim".toList, none, none, none, none, none, none⟩

theorem pam_rules_law_signers : PamRulesLaw plainPlatform
    [signerRule 2 "ADOBE INC.".toList .autoDeny, signerRule 1 "adobe inc.".toList .autoApprove] adobeCandidate none :=
  pam_rules_law (by decide)

end Laws
end RemudaRmm.Approvals
