import RemudaRmm.Devices.FilterEngine
import RemudaRmm.Foundation.Checks

/-! What a device filter says, as a tree of predicates, and that its SQL says the same when `OR` binds weaker than `AND`
and `AND` weaker than `NOT`. -/
namespace RemudaRmm.Devices
open Foundation List Conjunction Truth

section Meaning
variable (columnOf : Table → Text → Option Word) (stringOf : FilterValue → Text) (predicate : SQL → Truth)

def singleMeaning (t : SQL) : Truth := if t = [.yes] then .yes else if t = [.no] then .no else predicate t

/-- Installed software: each name of `hasAll` has to be there; `notInstalled` is the opposite of `installed`. -/
def softwareMeaning (field : Text) (operator : FilterOperator) (value : FilterValue) : Truth :=
  let items := value.items.getD []
  let signed := fun v : Truth => if field = "software.installed".toList then v else v.not
  if operator ∈ [.inList, .hasAny, .hasAll] ∧ items = [] then .yes
  else if operator = .hasAll then
    signed (.all (items.map fun v => predicate
      (relatedSQL "software_inventory" [softwareName, word "=", bound (.string (stringOf v))])))
  else
    match softwareMatch stringOf operator value with
    | .error _ => .unknown
    | .ok found =>
      let value := predicate (relatedSQL "software_inventory" found)
      if operator = .notContains then value.not else signed value

def conditionMeaning (c : FilterCondition) : Truth :=
  match virtualSQL c.field with
  | some inner => if (c.operator == .notEquals) != isNegative c.value then (predicate inner).not else predicate inner
  | none =>
    if startsWith "software." c.field then softwareMeaning stringOf predicate c.field c.operator c.value
    else
      match fieldSQL columnOf stringOf c.field c.operator c.value with
      | .ok t => singleMeaning predicate t
      | .error _ => .unknown

mutual
def filterMeaning : Filter → Truth
  | .condition c => conditionMeaning columnOf stringOf predicate c
  | .group .and conditions => .all (partMeanings conditions)
  | .group .or conditions => if conditions.isEmpty then .yes else .any (partMeanings conditions)

def partMeanings : List Filter → List Truth
  | [] => []
  | f :: rest => filterMeaning f :: partMeanings rest
end

end Meaning

def siteMeaning (device : Device) : Option (List Text) → Truth
  | none => .yes
  | some ids => .ofProp (device.siteId ∈ ids)

def Inert (t : SQL) : Prop := ∀ s, advance s t = some s

section Inert
variable {t : SQL}

theorem Inert.operand (inert : Inert t) (a : Word) : Inert (.operand a :: t) := inert

theorem Inert.brackets (inert : Inert t) : Inert (.left :: t ++ [.right]) := by
  intro s
  show advance ⟨s.depth + 1, s.awaiting⟩ (t ++ [.right]) = some s
  rw [advance_append, inert]
  rfl

theorem inert_listSQL (items : List FilterValue) : Inert (listSQL items) := by
  refine Inert.brackets ?_
  induction items with
  | nil => exact fun _ => rfl
  | cons v items ih =>
    cases items with
    | nil => exact fun _ => rfl
    | cons w items =>
      rw [map_cons, map_cons, intercalate_cons_cons]
      exact ih

theorem inert_valueSQL (v : FilterValue) : Inert (valueSQL v) := by
  unfold valueSQL
  split
  · exact inert_listSQL _
  · exact fun _ => rfl

end Inert

section Leaves
variable {columnOf : Table → Text → Option Word} {stringOf : FilterValue → Text} {predicate : SQL → Truth}
variable {t column : SQL} {value : FilterValue} {operator : FilterOperator} {a : Word} {field : Text}

theorem relatedSQL_whole (table : String) {p : SQL} (whole : advance .start p = some .start) :
    advance .start (relatedSQL table p) = some .start := by
  have inside : advance ⟨1, false⟩ p = some ⟨1, false⟩ := advance_lift whole false
  show advance ⟨1, false⟩ (p ++ [.right]) = some .start
  rw [advance_append, inside]
  rfl

theorem getIntervalSQL_inert {amount : Number} {unit : String} (built : getIntervalSQL stringOf amount unit = .ok t) :
    Inert t := by
  unfold getIntervalSQL at built
  split at built
  · split_ifs at built
    all_goals
      cases built
      exact fun _ => rfl
  · cases built

theorem sinceSQL_cases {sign refusal : String} (built : sinceSQL stringOf column sign value refusal = .ok t) :
    ∃ x rest, t = column ++ x :: rest ∧ advance .start (x :: rest) = some .start := by
  unfold sinceSQL at built
  split at built
  next amount unit =>
    obtain ⟨interval, found, built⟩ := except_bind_ok built
    cases built
    refine ⟨_, _, append_assoc _ _ _, ?_⟩
    exact getIntervalSQL_inert found .start
  · cases built

theorem applyOperator_cases (built : applyOperator stringOf column operator value = .ok t) :
    t = [.yes] ∨ t = [.no] ∨ ∃ x rest, t = column ++ x :: rest ∧ advance .start (x :: rest) = some .start := by
  have compared : ∀ sign, t = column ++ word sign :: valueSQL value →
      ∃ x rest, t = column ++ x :: rest ∧ advance .start (x :: rest) = some .start :=
    fun sign same => ⟨_, _, same, (inert_valueSQL value).operand _ .start⟩
  unfold applyOperator at built
  cases operator with
  | equals | notEquals | greaterThan | greaterThanOrEquals | lessThan | lessThanOrEquals | «matches» | before | after =>
    exact .inr (.inr (compared _ (Except.ok.inj built).symm))
  | inList =>
    dsimp only at built
    split at built
    · exact .inr (.inl (Except.ok.inj built).symm)
    · exact .inr (.inr ⟨_, _, (Except.ok.inj built).symm, inert_listSQL _ .start⟩)
    · cases built
  | notIn =>
    dsimp only at built
    split at built
    · exact .inl (Except.ok.inj built).symm
    · exact .inr (.inr ⟨_, _, (Except.ok.inj built).symm, inert_listSQL _ .start⟩)
    · cases built
  | hasAny | hasAll =>
    dsimp only at built
    split at built
    · exact .inr (.inr ⟨_, _, (Except.ok.inj built).symm, inert_listSQL _ .start⟩)
    · cases built
  | between =>
    dsimp only at built
    split at built
    · exact .inr (.inr ⟨_, _, (Except.ok.inj built).symm, rfl⟩)
    · cases built
  | withinLast | notWithinLast => exact .inr (.inr (sinceSQL_cases built))
  | _ => exact .inr (.inr ⟨_, _, (Except.ok.inj built).symm, rfl⟩)

theorem singleMeaning_eq {x : Lexeme Word} (rest : SQL) (other : x ≠ .yes ∧ x ≠ .no) :
    singleMeaning predicate (x :: rest) = predicate (x :: rest) := by
  rw [singleMeaning, if_neg, if_neg]
  · exact fun same => other.2 (List.cons.inj same).1
  · exact fun same => other.1 (List.cons.inj same).1

theorem operand_conjunction {rest : SQL} (whole : advance .start (.operand a :: rest) = some .start) :
    Conjunction predicate (.operand a :: rest) (singleMeaning predicate (.operand a :: rest)) := by
  rw [singleMeaning_eq rest (by simp)]
  exact operand whole

theorem applyOperator_conjunction (inert : Inert column)
    (built : applyOperator stringOf (.operand a :: column) operator value = .ok t) :
    Conjunction predicate t (singleMeaning predicate t) := by
  rcases applyOperator_cases built with rfl | rfl | ⟨x, rest, rfl, behind⟩
  · exact constant.1
  · exact constant.2
  · have whole : advance .start (.operand a :: column ++ x :: rest) = some .start := by
      rw [advance_append, inert.operand a]
      exact behind
    exact operand_conjunction whole

theorem latestSQL_conjunction (built : applyOperator stringOf (latestSQL a) operator value = .ok t) :
    Conjunction predicate t (singleMeaning predicate t) := by
  rcases applyOperator_cases built with rfl | rfl | ⟨x, rest, rfl, behind⟩
  · exact constant.1
  · exact constant.2
  · rw [latestSQL, append_assoc, cons_append, singleMeaning_eq _ (by simp)]
    exact query rfl behind

theorem related_conjunction (table : String)
    (built : (applyOperator stringOf [.operand a] operator value).map (relatedSQL table) = .ok t) :
    Conjunction predicate t (singleMeaning predicate t) := by
  obtain ⟨p, found, built⟩ := except_bind_ok built
  cases built
  have whole : advance .start p = some .start := by
    rcases applyOperator_cases found with rfl | rfl | ⟨x, rest, rfl, behind⟩
    · rfl
    · rfl
    · exact behind
  exact operand_conjunction (relatedSQL_whole table whole)

theorem groupSQL_conjunction (built : groupSQL operator value = .ok t) :
    Conjunction predicate t (singleMeaning predicate t) := by
  unfold groupSQL at built
  dsimp only at built
  split at built
  · cases built
    exact operand_conjunction (relatedSQL_whole _ (inert_valueSQL value .start))
  · cases built
    exact operand_conjunction (relatedSQL_whole _ ((inert_valueSQL value).brackets .start))
  · cases built

theorem getColumnForField_computed {info : FieldInfo} (found : getColumnForField field = .ok info)
    {computed : SQL} (given : info.computed = some computed) :
    ∃ a column, computed = .operand a :: column ∧ Inert column := by
  unfold getColumnForField at found
  split_ifs at found
  · cases found
    cases given
  · cases found
    cases given
  · cases found
    cases given
  · cases found
    cases given
  · split at found
    · cases found
    · cases found
      cases given
      exact ⟨_, _, rfl, fun _ => rfl⟩
  · cases found
    cases given
    exact ⟨_, _, rfl, fun _ => rfl⟩
  · cases found
    cases given
    exact ⟨_, _, rfl, fun _ => rfl⟩
  · cases found
    cases given
  · cases found
    cases given

theorem getColumnForField_ne_software {info : FieldInfo} (found : getColumnForField field = .ok info)
    (starts : ¬startsWith "software." field = true) : info.table ≠ .software := by
  unfold getColumnForField at found
  intro software
  split_ifs at found
  · cases found
    cases software
  · cases found
    cases software
  · cases found
    cases software
  · split at found
    · cases found
    · cases found
      cases software
  · cases found
    cases software
  · cases found
    cases software
  · cases found
    cases software
  · cases found
    cases software

theorem fieldSQL_conjunction (starts : ¬startsWith "software." field = true)
    (built : fieldSQL columnOf stringOf field operator value = .ok t) :
    Conjunction predicate t (singleMeaning predicate t) := by
  unfold fieldSQL at built
  split at built
  · cases built
  next info found =>
    have other := getColumnForField_ne_software found starts
    obtain ⟨table, column, computed⟩ := info
    cases computed with
    | some computed =>
      obtain ⟨a, behind, rfl, inert⟩ := getColumnForField_computed found rfl
      cases table with
      | software => exact absurd rfl other
      | _ => exact applyOperator_conjunction inert built
    | none =>
      cases table with
      | software => exact absurd rfl other
      | devices =>
        dsimp only at built
        split at built
        · cases built
        · exact applyOperator_conjunction (fun _ => rfl) built
      | hardware | network =>
        dsimp only at built
        split at built
        · cases built
        · exact related_conjunction _ built
      | metrics =>
        dsimp only at built
        split at built
        · cases built
        · exact latestSQL_conjunction built
      | groups => exact groupSQL_conjunction built

theorem softwareMatch_whole {found : SQL}
    (matched : softwareMatch stringOf operator value = .ok found) : advance .start found = some .start := by
  unfold softwareMatch at matched
  split at matched
  · cases matched
    rfl
  · cases matched
    rfl
  · cases matched
    rfl
  · cases matched
    exact inert_listSQL _ .start
  · cases matched
    exact inert_listSQL _ .start
  · cases matched

theorem software_conjunction {found : SQL} (whole : advance .start found = some .start) :
    Conjunction predicate (relatedSQL "software_inventory" found) (predicate (relatedSQL "software_inventory" found)) :=
  operand (relatedSQL_whole _ whole)

theorem signed_conjunction (p : Prop) [Decidable p] {v : Truth} (conjunction : Conjunction predicate t v) :
    Conjunction predicate (if p then t else notSQL t) (if p then v else v.not) := by
  split_ifs
  · exact conjunction
  · exact conjunction.notBracket

theorem hasAll_conjunction {items : List FilterValue} (given : items ≠ []) : Conjunction predicate
      ([Lexeme.and].intercalate (items.map fun v =>
        relatedSQL "software_inventory" [softwareName, word "=", bound (.string (stringOf v))]))
      (.all (items.map fun v => predicate
        (relatedSQL "software_inventory" [softwareName, word "=", bound (.string (stringOf v))]))) := by
  refine intercalate ?_ (fun none => given (map_eq_nil_iff.mp none))
  rw [forall₂_map_left_iff, forall₂_map_right_iff]
  exact forall₂_same.mpr fun _ _ => software_conjunction rfl

theorem softwareSQL_conjunction (built : softwareSQL stringOf field operator value = .ok t) :
    Conjunction predicate t (softwareMeaning stringOf predicate field operator value) := by
  unfold softwareSQL at built
  unfold softwareMeaning
  dsimp only at built ⊢
  by_cases empty : operator ∈ [.inList, .hasAny, .hasAll] ∧ value.items.getD [] = []
  · rw [if_pos empty] at built ⊢
    cases built
    exact constant.1
  · rw [if_neg empty] at built ⊢
    by_cases all : operator = .hasAll
    · rw [if_pos all] at built ⊢
      cases built
      have given : value.items.getD [] ≠ [] := fun none => empty ⟨by simp [all], none⟩
      exact signed_conjunction _ (hasAll_conjunction given)
    · rw [if_neg all] at built ⊢
      cases matched : softwareMatch stringOf operator value with
      | error e =>
        rw [matched] at built
        cases built
      | ok found =>
        rw [matched] at built
        cases built
        have one := @software_conjunction predicate _ (softwareMatch_whole matched)
        dsimp only
        split_ifs
        · exact one.notBracket
        · exact one
        · exact one.notBracket

theorem virtualSQL_conjunction {inner : SQL} (found : virtualSQL field = some inner) :
    Conjunction predicate inner (predicate inner) := by
  unfold virtualSQL at found
  split_ifs at found
  · cases found
    exact operand rfl
  · cases found
    exact operand rfl
  · cases found
    exact operand rfl

theorem buildConditionSQL_conjunction {c : FilterCondition} (built : buildConditionSQL columnOf stringOf c = .ok t) :
    Conjunction predicate t (conditionMeaning columnOf stringOf predicate c) := by
  unfold buildConditionSQL at built
  unfold conditionMeaning
  cases found : virtualSQL c.field with
  | some inner =>
    rw [found] at built
    cases built
    dsimp only
    split_ifs
    · exact (virtualSQL_conjunction found).notBracket
    · exact virtualSQL_conjunction found
  | none =>
    rw [found] at built
    dsimp only at built ⊢
    split_ifs with starts
    · unfold fieldSQL at built
      rw [getColumnForField_software starts] at built
      exact softwareSQL_conjunction built
    · rw [built]
      exact fieldSQL_conjunction starts built

end Leaves

section Trees
variable {columnOf : Table → Text → Option Word} {stringOf : FilterValue → Text} {predicate : SQL → Truth}

theorem joinGroup_conjunction {operator : GroupOperator} {parts : List SQL} {values : List Truth}
    (conjunctions : List.Forall₂ (Conjunction predicate) parts values) :
    Conjunction predicate (joinGroup operator parts)
      (match operator with
        | .and => .all values
        | .or => if values.isEmpty then .yes else .any values) := by
  unfold joinGroup
  by_cases none : parts = []
  · subst none
    cases conjunctions
    cases operator with
    | and | or => exact constant.1
  · rw [if_neg none]
    cases operator with
    | and => exact intercalate conjunctions none
    | or =>
      cases conjunctions with
      | nil => exact absurd rfl none
      | cons first others => exact brackets (.cons first others) none

theorem buildParts_cons {f : Filter} {rest : List Filter} {parts : List SQL}
    (built : buildParts columnOf stringOf (f :: rest) = .ok parts) :
    ∃ part others, buildSQL columnOf stringOf f = .ok part ∧ buildParts columnOf stringOf rest = .ok others ∧
      parts = part :: others := by
  unfold buildParts at built
  split at built
  · cases built
  · cases built
  next part others first second => exact ⟨part, others, first, second, (Except.ok.inj built).symm⟩

theorem buildSQL_group {operator : GroupOperator} {conditions : List Filter} {t : SQL}
    (built : buildSQL columnOf stringOf (.group operator conditions) = .ok t) :
    ∃ parts, buildParts columnOf stringOf conditions = .ok parts ∧ t = joinGroup operator parts := by
  unfold buildSQL at built
  cases found : buildParts columnOf stringOf conditions with
  | error e =>
    rw [found] at built
    cases built
  | ok parts =>
    rw [found] at built
    cases built
    exact ⟨parts, rfl, rfl⟩

mutual
theorem buildSQL_conjunction {f : Filter} {t : SQL} (built : buildSQL columnOf stringOf f = .ok t) :
    Conjunction predicate t (filterMeaning columnOf stringOf predicate f) := by
  match f with
  | .condition c =>
    unfold buildSQL at built
    unfold filterMeaning
    exact buildConditionSQL_conjunction built
  | .group operator conditions =>
    obtain ⟨parts, found, rfl⟩ := buildSQL_group built
    have joined := @joinGroup_conjunction predicate operator _ _ (buildParts_conjunctions found)
    cases operator with
    | and =>
      unfold filterMeaning
      exact joined
    | or =>
      unfold filterMeaning
      cases conditions with
      | nil | cons f rest => exact joined

theorem buildParts_conjunctions {fs : List Filter} {parts : List SQL}
    (built : buildParts columnOf stringOf fs = .ok parts) :
    List.Forall₂ (Conjunction predicate) parts (partMeanings columnOf stringOf predicate fs) := by
  match fs with
  | [] =>
    unfold buildParts at built
    cases built
    unfold partMeanings
    exact .nil
  | f :: rest =>
    obtain ⟨part, others, first, second, rfl⟩ := buildParts_cons built
    unfold partMeanings
    exact .cons (buildSQL_conjunction first) (buildParts_conjunctions second)
end

theorem boundTexts_list {ids : List Text} (given : ids ≠ []) :
    boundTexts ([word ","].intercalate ((ids.map FilterValue.string).map fun v => [bound v]) ++ [.right]) = some ids := by
  induction ids with
  | nil => exact absurd rfl given
  | cons t ids ih =>
    cases ids with
    | nil => rfl
    | cons u ids =>
      have rest := ih (cons_ne_nil _ _)
      simp only [map_cons, intercalate_cons_cons] at rest ⊢
      exact congrArg (Option.map (t :: ·)) rest

variable {other : Device → SQL → Truth} {device : Device}

theorem orgCondition_conjunction (orgId : Text) :
    Conjunction (rowPredicate other device) (orgCondition orgId) (.ofProp (device.orgId = orgId)) :=
  operand rfl

theorem siteScopeCondition_conjunction {allowedSiteIds : Option (List Text)} {t : SQL}
    (given : siteScopeCondition allowedSiteIds = some t) :
    Conjunction (rowPredicate other device) t (siteMeaning device allowedSiteIds) := by
  unfold siteScopeCondition at given
  split at given
  · cases given
  · cases given
    exact constant.2
  next ids filled =>
    cases given
    have value : rowPredicate other device
        (columnRef "devices" "site_id" :: word "IN" :: listSQL (ids.map .string)) = .ofProp (device.siteId ∈ ids) := by
      have read := boundTexts_list filled
      unfold word at read
      unfold rowPredicate listSQL columnRef word
      simp only [cons_append, and_self, if_true, read]
    rw [siteMeaning, ← value]
    exact operand (inert_listSQL _ .start)

theorem whereSQL_value {filterSQL : SQL} {value : Truth} (orgId : Text) (allowedSiteIds : Option (List Text))
    (conjunction : Conjunction (rowPredicate other device) filterSQL value) :
    conditionValue (rowPredicate other device) (whereSQL orgId allowedSiteIds filterSQL) =
      some (.and (.ofProp (device.orgId = orgId)) (.and (siteMeaning device allowedSiteIds) value)) := by
  have alone : ∀ a, and a .yes = a := by
    intro a
    cases a <;> rfl
  cases allowedSiteIds with
  | none =>
    have joined := intercalate (.cons (orgCondition_conjunction orgId) (.cons conjunction .nil))
      (cons_ne_nil _ _)
    refine joined.bracket.value.trans ?_
    show some (and _ (and value .yes)) = _
    rw [alone, siteMeaning, yes_and]
  | some ids =>
    obtain ⟨site, given⟩ : ∃ site, siteScopeCondition (some ids) = some site := by
      cases ids with
      | nil | cons t ids => exact ⟨_, rfl⟩
    have joined := intercalate
      (.cons (orgCondition_conjunction orgId) (.cons (siteScopeCondition_conjunction given) (.cons conjunction .nil)))
      (cons_ne_nil _ _)
    rw [whereSQL, given]
    refine joined.bracket.value.trans ?_
    show some (and _ (and _ (and value .yes))) = _
    rw [alone]

theorem siteMeaning_eq_yes {allowedSiteIds : Option (List Text)} :
    siteMeaning device allowedSiteIds = .yes ↔ ∀ ids, allowedSiteIds = some ids → device.siteId ∈ ids := by
  cases allowedSiteIds with
  | none => simp [siteMeaning]
  | some ids => simp [siteMeaning, ofProp]

/-- The condition of the query is read as the organisation, the sites and the tree, each one whole. So the query selects
the devices of the organisation and of the allowed sites for which the tree is true, whatever the tree is. -/
theorem evaluateFilter_meaning {operator : GroupOperator} {conditions : List Filter} {filterSQL : SQL}
    (built : buildGroupSQL columnOf stringOf operator conditions = .ok filterSQL) (other : Device → SQL → Truth)
    (orgId : Text) (allowedSiteIds : Option (List Text)) (rows : List Device) :
    (∀ device, conditionValue (rowPredicate other device) (whereSQL orgId allowedSiteIds filterSQL) =
      some (.and (.ofProp (device.orgId = orgId)) (.and (siteMeaning device allowedSiteIds)
        (filterMeaning columnOf stringOf (rowPredicate other device) (.group operator conditions))))) ∧
    ∃ ids, evaluateFilter columnOf stringOf other operator conditions orgId allowedSiteIds rows = .ok ids ∧
      ∀ id, id ∈ ids ↔ ∃ device ∈ rows, device.id = id ∧ device.orgId = orgId ∧
        (∀ sites, allowedSiteIds = some sites → device.siteId ∈ sites) ∧
        filterMeaning columnOf stringOf (rowPredicate other device) (.group operator conditions) = .yes := by
  have value : ∀ device, conditionValue (rowPredicate other device) (whereSQL orgId allowedSiteIds filterSQL) =
      some (.and (.ofProp (device.orgId = orgId)) (.and (siteMeaning device allowedSiteIds)
        (filterMeaning columnOf stringOf (rowPredicate other device) (.group operator conditions)))) :=
    fun device => whereSQL_value orgId allowedSiteIds (buildSQL_conjunction built)
  refine ⟨value, (rows.filter fun device =>
    conditionValue (rowPredicate other device) (whereSQL orgId allowedSiteIds filterSQL) = some .yes).map Device.id, ?_, ?_⟩
  · rw [evaluateFilter, built]
    rfl
  · intro id
    rw [List.mem_map]
    apply exists_congr
    intro device
    rw [mem_filter, decide_eq_true_iff, value, Option.some.injEq, and_eq_yes, and_eq_yes,
      siteMeaning_eq_yes, ofProp_eq_yes]
    tauto

/-- A disjunction with a conjunction in it, for a caller who may see one site: the second device belongs to another
organisation. -/
theorem evaluateFilter_meaning_one_site :
    ∃ ids, evaluateFilter (fun _ name => some (.column "devices" (String.ofList name)))
        (fun v => match v with | .string t => t | _ => []) (fun _ _ => .yes) .or
        [.condition ⟨"hostname".toList, .startsWith, .string "a_".toList⟩,
          .group .and [.condition ⟨"osType".toList, .equals, .string "linux".toList⟩,
            .condition ⟨"lastSeenAt".toList, .between, .range 0 10⟩]]
        "acme".toList (some ["main".toList])
        [⟨"d1".toList, "acme".toList, "main".toList⟩, ⟨"d2".toList, "other".toList, "main".toList⟩] = .ok ids ∧
      "d1".toList ∈ ids ∧ "d2".toList ∉ ids := by
  have built : buildGroupSQL (fun _ name => some (.column "devices" (String.ofList name)))
      (fun v => match v with | .string t => t | _ => []) .or
      [.condition ⟨"hostname".toList, .startsWith, .string "a_".toList⟩,
        .group .and [.condition ⟨"osType".toList, .equals, .string "linux".toList⟩,
          .condition ⟨"lastSeenAt".toList, .between, .range 0 10⟩]] = .ok _ := rfl
  obtain ⟨-, ids, selected, members⟩ := evaluateFilter_meaning built (fun _ _ => .yes) "acme".toList
    (some ["main".toList]) [⟨"d1".toList, "acme".toList, "main".toList⟩, ⟨"d2".toList, "other".toList, "main".toList⟩]
  refine ⟨ids, selected, ?_, ?_⟩
  · rw [members]
    exact ⟨_, mem_cons_self, rfl, rfl, by simp, rfl⟩
  · rw [members]
    simp

end Trees

end RemudaRmm.Devices
