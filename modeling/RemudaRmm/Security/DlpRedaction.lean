import Mathlib.Data.List.TakeWhile
import RemudaRmm.Security.ClientAiDlp
import RemudaRmm.Foundation.Checks

/-! What a call of the redaction leaves of its payload, and when it leaves nothing of what the rules match. The loop over
the matches of a custom rule ends at the first empty one, so a match behind it can be lost. -/
namespace RemudaRmm.Security
open Foundation List Option List List
variable {r c : ℕ} {s next : Collected}

structure DlpRule where
  name : Units
  action : DlpRuleAction
  spans : Units → List Span

/-- The rules that a configuration enables, each with all its matches. -/
def enabledRules (engine : RegExpEngine) (ssnActive : Bool) (config : DlpConfig) : List DlpRule :=
  (builtinOrder.filterMap fun rule =>
    (config.builtins rule).action.map fun action => ⟨rule.name, action, builtinDetector engine ssnActive rule⟩) ++
  config.customRules.map fun custom => ⟨custom.name, custom.action, (spansOf engine · ⟨custom.pattern, "gu"⟩)⟩

def DlpRule.counted (rule : DlpRule) (t : Units) : List Span := customDetect rule.spans t

def DlpRule.compiled (rule : DlpRule) : CompiledRule := ⟨rule.name, rule.action, rule.counted⟩

section Compile
variable {engine : RegExpEngine} {ssnActive : Bool}

theorem proper_builtinDetector (rule : DlpBuiltinRule) (t : Units) :
    Proper t (builtinDetector engine ssnActive rule t) := by
  cases rule with
  | creditCard | iban => exact (proper_spansOf (by simp [builtinPatterns])).filter _
  | ssn => exact proper_detectSsn _
  | apiKey => exact proper_detectApiKey
  | email | phone => exact proper_spansOf (by simp [builtinPatterns])

theorem customDetect_builtin (rule : DlpBuiltinRule) :
    customDetect (builtinDetector engine ssnActive rule) = builtinDetector engine ssnActive rule := by
  funext t
  refine takeWhile_eq_self_iff.mpr fun s member => ?_
  exact decide_eq_true (proper_builtinDetector rule t s member).1

theorem compileCustom_ok {customs : List DlpCustomRule} {rules : List CompiledRule}
    (compiled : compileCustom engine customs = .ok rules) : rules = customs.map fun custom => DlpRule.compiled
      ⟨custom.name, custom.action, (spansOf engine · ⟨custom.pattern, "gu"⟩)⟩ := by
  induction customs generalizing rules with
  | nil => exact (Except.ok.inj compiled).symm
  | cons custom rest ih =>
    unfold compileCustom at compiled
    split at compiled
    · cases compiled
    next matchAll found =>
      obtain ⟨later, others, compiled⟩ := except_bind_ok compiled
      cases compiled
      have same : (spansOf engine · ⟨custom.pattern, "gu"⟩) = matchAll := by
        funext t
        simp only [spansOf, found]
      rw [map_cons, ← ih others, same]
      rfl

theorem compileBuiltins_eq (builtins : DlpBuiltinRule → DlpBuiltinSetting) :
    compileBuiltins engine ssnActive builtins = (builtinOrder.filterMap fun rule =>
      (builtins rule).action.map fun action =>
        (⟨rule.name, action, builtinDetector engine ssnActive rule⟩ : DlpRule)).map DlpRule.compiled := by
  rw [map_filterMap]
  unfold compileBuiltins
  congr 1
  funext rule
  rw [Option.map_map]
  congr 1
  funext action
  exact congrArg (CompiledRule.mk rule.name action) (customDetect_builtin rule).symm

theorem compileRules_ok {config : DlpConfig} {rules : List CompiledRule}
    (compiled : compileRules engine ssnActive config = .ok rules) :
    rules = (enabledRules engine ssnActive config).map DlpRule.compiled := by
  unfold compileRules at compiled
  obtain ⟨later, customs, compiled⟩ := except_bind_ok compiled
  rw [← Except.ok.inj compiled, enabledRules, map_append, List.map_map, compileCustom_ok customs, compileBuiltins_eq]
  rfl

end Compile

def foundBy (content : Units) (rule : CompiledRule) : List (CompiledRule × List Span) :=
  if rule.detect content = [] then [] else [(rule, rule.detect content)]

def Scanned.with (rules : List CompiledRule) (s : Scanned) : Scanned :=
  ⟨s.location, s.found ++ rules.flatMap (foundBy s.location.content)⟩

section Scan
variable {rule : CompiledRule} {tally : Tally} {scanned : List Scanned}

theorem scanOne_eq (s : Scanned) : (scanOne rule s tally).1 = s.with [rule] := by
  unfold scanOne Scanned.with
  rw [flatMap_singleton, foundBy]
  by_cases empty : rule.detect s.location.content = []
  · rw [if_pos empty, if_pos empty, append_nil]
  · rw [if_neg empty, if_neg empty]

theorem scanOne_blocked (s : Scanned) : (scanOne rule s tally).2.blockedBy = none ↔
    tally.blockedBy = none ∧ (rule.action = .block → rule.detect s.location.content = []) := by
  unfold scanOne
  dsimp only
  split_ifs with empty both
  · exact ⟨fun free => ⟨free, fun _ => empty⟩, And.left⟩
  · exact ⟨fun free => absurd free (by simp), fun free => absurd (free.2 both.1) empty⟩
  · refine ⟨fun free => ⟨free, fun blocks => absurd ⟨blocks, free⟩ both⟩, And.left⟩

theorem scanLocations_ok {elapsed : ℕ → ℕ} {i : ℕ} {result : List Scanned × Tally}
    (ended : scanLocations elapsed rule i scanned tally = .ok result) :
    result.1 = scanned.map (Scanned.with [rule]) ∧ (result.2.blockedBy = none ↔
      tally.blockedBy = none ∧ (rule.action = .block → ∀ s ∈ scanned, rule.detect s.location.content = [])) := by
  induction scanned generalizing i tally result with
  | nil =>
    cases ended
    exact ⟨rfl, by simp⟩
  | cons s rest ih =>
    unfold scanLocations at ended
    split_ifs at ended
    dsimp only at ended
    obtain ⟨next, later, ended⟩ := except_bind_ok ended
    cases ended
    obtain ⟨found, free⟩ := ih later
    refine ⟨?_, ?_⟩
    · rw [map_cons, ← found, scanOne_eq]
    · rw [free, scanOne_blocked, forall_mem_cons, and_assoc, ← forall_and]

theorem Scanned.with_append (first second : List CompiledRule) (s : Scanned) :
    (s.with first).with second = s.with (first ++ second) := by
  unfold Scanned.with
  rw [flatMap_append, append_assoc]

theorem scanRules_ok {elapsed : ℕ → ℕ → ℕ} {k : ℕ} {rules : List CompiledRule} {result : List Scanned × Tally}
    (ended : scanRules elapsed k rules scanned tally = .ok result) :
    result.1 = scanned.map (Scanned.with rules) ∧ (result.2.blockedBy = none ↔ tally.blockedBy = none ∧
      ∀ rule ∈ rules, rule.action = .block → ∀ s ∈ scanned, rule.detect s.location.content = []) := by
  induction rules generalizing k scanned tally with
  | nil =>
    cases ended
    refine ⟨?_, by simp⟩
    have same : Scanned.with [] = id := by
      funext s
      exact congrArg (Scanned.mk s.location) (append_nil s.found)
    rw [same, List.map_id]
  | cons rule rest ih =>
    unfold scanRules at ended
    split at ended
    · cases ended
    next next one =>
      obtain ⟨first, free⟩ := scanLocations_ok one
      obtain ⟨later, rest_free⟩ := ih ended
      refine ⟨?_, ?_⟩
      · rw [later, first, List.map_map]
        refine map_congr_left fun s _ => ?_
        exact Scanned.with_append [rule] rest s
      · rw [rest_free, free, first, forall_mem_cons, and_assoc]
        simp only [List.forall_mem_map, Scanned.with]

end Scan

def Redacted (rules : List DlpRule) (content : Units) (s : Span) : Prop :=
  ∃ rule ∈ rules, rule.action = .redact ∧ s ∈ rule.spans content ∧ s.Filled

/-- A match of a rule that redacts, before the first empty match of the rule. -/
def Counted (rules : List DlpRule) (content : Units) (s : Span) : Prop :=
  ∃ rule ∈ rules, rule.action = .redact ∧ s ∈ rule.counted content

def replaced (rules : List DlpRule) (content : Units) : List (Labelled Units) :=
  mergeSpans false (redactSpans ((rules.map DlpRule.compiled).flatMap (foundBy content)))

section Replaced
variable {rules : List DlpRule} {content : Units}

theorem mem_redactSpans {s : Labelled Units} :
    s ∈ redactSpans ((rules.map DlpRule.compiled).flatMap (foundBy content)) ↔
      ∃ rule ∈ rules, rule.action = .redact ∧ s.toSpan ∈ rule.counted content ∧ s.label = rule.name := by
  unfold redactSpans
  constructor
  · intro member
    obtain ⟨x, found, inside⟩ := mem_flatMap.mp member
    obtain ⟨compiled, listed, isFound⟩ := mem_flatMap.mp found
    obtain ⟨rule, enabled, rfl⟩ := mem_map.mp listed
    unfold foundBy at isFound
    split_ifs at isFound
    · exact absurd isFound not_mem_nil
    · rcases mem_singleton.mp isFound with rfl
      dsimp only at inside
      split_ifs at inside with redacts
      · obtain ⟨span, counted, rfl⟩ := mem_map.mp inside
        exact ⟨rule, enabled, redacts, counted, rfl⟩
      · exact absurd inside not_mem_nil
  · rintro ⟨rule, enabled, redacts, counted, named⟩
    refine mem_flatMap.mpr ⟨(rule.compiled, rule.counted content), mem_flatMap.mpr
      ⟨rule.compiled, mem_map_of_mem enabled, ?_⟩, ?_⟩
    · unfold foundBy
      rw [if_neg]
      · exact mem_singleton.mpr rfl
      · exact ne_nil_of_mem counted
    · rw [if_pos (show rule.compiled.action = .redact from redacts)]
      exact mem_map.mpr ⟨s.toSpan, counted, by rw [show rule.compiled.name = s.label from named.symm]⟩

theorem exists_redactSpans {P : Span → Prop} :
    (∃ s ∈ redactSpans ((rules.map DlpRule.compiled).flatMap (foundBy content)), P s.toSpan) ↔
      ∃ s, Counted rules content s ∧ P s := by
  constructor
  · rintro ⟨s, member, holds⟩
    obtain ⟨rule, enabled, redacts, counted, -⟩ := mem_redactSpans.mp member
    exact ⟨s.toSpan, ⟨rule, enabled, redacts, counted⟩, holds⟩
  · rintro ⟨s, ⟨rule, enabled, redacts, counted⟩, holds⟩
    exact ⟨⟨s, rule.name⟩, mem_redactSpans.mpr ⟨rule, enabled, redacts, counted, rfl⟩, holds⟩

theorem DlpRule.mem_counted {rule : DlpRule} {s : Span} (counted : s ∈ rule.counted content) :
    s ∈ rule.spans content ∧ s.Filled := by
  have kept : decide s.Filled = true := mem_takeWhile_imp (p := fun m : Span => decide m.Filled) counted
  exact ⟨(takeWhile_sublist _).mem counted, of_decide_eq_true kept⟩

theorem Counted.redacted {s : Span} (counted : Counted rules content s) : Redacted rules content s := by
  obtain ⟨rule, enabled, redacts, member⟩ := counted
  exact ⟨rule, enabled, redacts, rule.mem_counted member⟩

/-- What a location has to become: one token in the place of each of the largest spans that the matches cover without a
gap, and the rest as it was. The positions that are left are those that are in no match. -/
structure Redacts (rules : List DlpRule) (content out : Units) : Prop where
  output : out = woven redactedToken content 0 (replaced rules content)
  apart : (replaced rules content).Pairwise fun a b => a.stop ≤ b.start
  within : ∀ m ∈ replaced rules content, m.Filled ∧ m.stop ≤ content.length
  named : ∀ m ∈ replaced rules content, ∃ rule ∈ rules, rule.action = .redact ∧ rule.name = m.label ∧
    ∃ s ∈ rule.spans content, s.Filled ∧ s.start = m.start
  kept : ∀ p, p ∈ woven (fun _ => []) (range content.length) 0 (replaced rules content) ↔
    p < content.length ∧ ¬∃ s, Redacted rules content s ∧ s.Has p
  whole : ∀ p, (∃ m ∈ replaced rules content, m.Crosses p) ↔ ∃ s, Redacted rules content s ∧ s.Crosses p

/-- Whatever a rule matches after an empty match is covered, without a gap, by matches that are counted. -/
def Covered (rules : List DlpRule) (content : Units) : Prop :=
  ∀ s, Redacted rules content s → ∀ p,
    (s.Has p → ∃ u, Counted rules content u ∧ u.Has p) ∧ (s.Crosses p → ∃ u, Counted rules content u ∧ u.Crosses p)

theorem replaced_has (p : ℕ) :
    (∃ m ∈ replaced rules content, m.Has p) ↔ ∃ s, Counted rules content s ∧ s.Has p :=
  (mergeSpans_has p).trans (exists_redactSpans (P := fun s => s.Has p))

theorem replaced_crosses (p : ℕ) :
    (∃ m ∈ replaced rules content, m.Crosses p) ↔ ∃ s, Counted rules content s ∧ s.Crosses p :=
  (mergeSpans_crosses p).trans (exists_redactSpans (P := fun s => s.Crosses p))

def InString (rules : List DlpRule) (content : Units) : Prop :=
  ∀ rule ∈ rules, ∀ s ∈ rule.spans content, s.stop ≤ content.length

theorem replaced_within (inString : InString rules content) :
    ∀ m ∈ replaced rules content, m.Filled ∧ m.stop ≤ content.length := by
  refine mergeSpans_within fun s member => ?_
  obtain ⟨rule, enabled, redacts, counted, -⟩ := mem_redactSpans.mp member
  obtain ⟨inside, filled⟩ := rule.mem_counted counted
  exact ⟨filled, inString rule enabled _ inside⟩

theorem replaced_laid (inString : InString rules content) : Laid content.length 0 (replaced rules content) :=
  laid_of_apart mergeSpans_apart (fun m member => ⟨Nat.zero_le _, replaced_within inString m member⟩) (Nat.zero_le _)

theorem replaced_named : ∀ m ∈ replaced rules content, ∃ rule ∈ rules, rule.action = .redact ∧ rule.name = m.label ∧
    ∃ s ∈ rule.spans content, s.Filled ∧ s.start = m.start := by
  intro m member
  obtain ⟨s, found, begins, label⟩ := mergeSpans_label m member
  obtain ⟨rule, enabled, redacts, counted, named⟩ := mem_redactSpans.mp found
  obtain ⟨inside, filled⟩ := rule.mem_counted counted
  exact ⟨rule, enabled, redacts, named.symm.trans label, s.toSpan, inside, filled, begins⟩

theorem redacts_iff (inString : InString rules content) {out : Units}
    (result : out = woven redactedToken content 0 (replaced rules content)) :
    Redacts rules content out ↔ Covered rules content := by
  have laid := replaced_laid inString
  constructor
  · intro meets s redacted p
    refine ⟨fun has => ?_, fun crosses => ?_⟩
    · have inside : p < content.length := by
        obtain ⟨rule, enabled, -, member, -⟩ := redacted
        exact lt_of_lt_of_le has.2 (inString rule enabled s member)
      by_contra uncovered
      have left := (mem_woven_positions laid p).mpr
        ⟨Nat.zero_le _, inside, fun found => uncovered ((replaced_has p).mp found)⟩
      exact ((meets.kept p).mp left).2 ⟨s, redacted, has⟩
    · exact (replaced_crosses p).mp ((meets.whole p).mpr ⟨s, redacted, crosses⟩)
  · intro covered
    refine ⟨result, mergeSpans_apart, replaced_within inString, replaced_named, fun p => ?_, fun p => ?_⟩
    · rw [mem_woven_positions laid, replaced_has]
      refine ⟨fun left => ⟨left.2.1, ?_⟩, fun left => ⟨Nat.zero_le _, left.1, ?_⟩⟩
      · rintro ⟨s, redacted, has⟩
        exact left.2.2 ((covered s redacted p).1 has)
      · rintro ⟨s, counted, has⟩
        exact left.2 ⟨s, counted.redacted, has⟩
    · rw [replaced_crosses]
      constructor
      · rintro ⟨s, counted, crosses⟩
        exact ⟨s, counted.redacted, crosses⟩
      · rintro ⟨s, redacted, crosses⟩
        exact (covered s redacted p).2 crosses

def redactedContent (rules : List DlpRule) (content : Units) : Units :=
  replaceFromRight redactedToken content (replaced rules content)

theorem redactedContent_eq (inString : InString rules content) :
    redactedContent rules content = woven redactedToken content 0 (replaced rules content) :=
  replaceFromRight_eq (replaced_laid inString)

theorem redaction_eq (location : ScanLocation) :
    redaction ((⟨location, []⟩ : Scanned).with (rules.map DlpRule.compiled)) =
      if replaced rules location.content = [] then none else some (redactedContent rules location.content) := by
  unfold redaction Scanned.with
  dsimp only
  rw [nil_append]
  by_cases empty : redactSpans ((rules.map DlpRule.compiled).flatMap (foundBy location.content)) = []
  · have none : replaced rules location.content = [] := mergeSpans_eq_nil.mpr empty
    rw [if_pos empty, if_pos none]
  · have some : replaced rules location.content ≠ [] := fun none => empty (mergeSpans_eq_nil.mp none)
    rw [if_neg empty, if_neg some]
    rfl

theorem redactedContent_nil (empty : replaced rules content = []) : redactedContent rules content = content := by
  rw [redactedContent, empty]
  rfl

theorem replaced_nil_of_unmatched (unmatched : ¬∃ s, Redacted rules content s) : replaced rules content = [] := by
  rw [replaced, mergeSpans_eq_nil]
  refine eq_nil_iff_forall_not_mem.mpr fun s member => ?_
  obtain ⟨rule, enabled, redacts, counted, -⟩ := mem_redactSpans.mp member
  exact unmatched ⟨s.toSpan, Counted.redacted ⟨rule, enabled, redacts, counted⟩⟩

end Replaced

def cellAt (grid : List (List Cell)) (r c : ℕ) : Option Cell := grid[r]?.bind fun row => row[c]?

theorem cellAt_writeCell_same (grid : List (List Cell)) (r c : ℕ) (t : Units) :
    cellAt (writeCell grid r c t) r c = (cellAt grid r c).map fun _ => .string t := by
  unfold cellAt writeCell
  rw [getElem?_modify_eq]
  cases grid[r]? with
  | none => rfl
  | some row =>
    show (row.set c (.string t))[c]? = row[c]?.map _
    rw [getElem?_set_self']
    rfl

theorem cellAt_writeCell_ne (grid : List (List Cell)) {i j : ℕ} (t : Units) (other : (r, c) ≠ (i, j)) :
    cellAt (writeCell grid r c t) i j = cellAt grid i j := by
  unfold cellAt writeCell
  by_cases row : r = i
  · subst row
    have column : c ≠ j := fun same => other (by rw [same])
    rw [getElem?_modify_eq]
    cases grid[r]? with
    | none => rfl
    | some row => exact getElem?_set_ne column
  · rw [getElem?_modify_ne _ _ row]

def rowLocations (r c : ℕ) (row : List Cell) : List ScanLocation :=
  (row.zipIdx c).filterMap fun x => (stringifyCell x.1).map fun content => ⟨cellLabel r x.2, content, some (r, x.2)⟩

def gridLocations (r : ℕ) (grid : List (List Cell)) : List ScanLocation :=
  (grid.zipIdx r).flatMap fun x => rowLocations x.2 0 x.1

theorem collectCell_ok {cell : Cell} (ended : collectCell r c cell s = .ok next) :
    next.locations = s.locations ++
      ((stringifyCell cell).map fun content => (⟨cellLabel r c, content, some (r, c)⟩ : ScanLocation)).toList := by
  unfold collectCell at ended
  split_ifs at ended
  cases text : stringifyCell cell with
  | none =>
    rw [text] at ended
    cases ended
    exact (append_nil _).symm
  | some content =>
    rw [text] at ended
    dsimp only at ended
    split_ifs at ended
    cases ended
    rfl

theorem collectRow_ok {row : List Cell} (ended : collectRow r c row s = .ok next) :
    next.locations = s.locations ++ rowLocations r c row := by
  induction row generalizing c s with
  | nil =>
    cases ended
    exact (append_nil _).symm
  | cons cell rest ih =>
    unfold collectRow at ended
    split at ended
    · cases ended
    next one found =>
      rw [ih ended, collectCell_ok found, append_assoc]
      congr 1
      unfold rowLocations
      rw [zipIdx_cons, filterMap_cons]
      cases stringifyCell cell with
      | none | some content => rfl

theorem collectRows_ok {grid : List (List Cell)} (ended : collectRows r grid s = .ok next) :
    next.locations = s.locations ++ gridLocations r grid := by
  induction grid generalizing r s with
  | nil =>
    cases ended
    exact (append_nil _).symm
  | cons row rest ih =>
    unfold collectRows at ended
    split at ended
    · cases ended
    next one found =>
      rw [ih ended, collectRow_ok found, append_assoc]
      rfl

def textLocation (t : Units) : ScanLocation := ⟨"text", t, none⟩

theorem collectLocations_ok {text : Option Units} {cells : Option (List (List Cell))} {locations : List ScanLocation}
    (ended : collectLocations text cells = .ok locations) :
    locations = (text.map textLocation).toList ++ gridLocations 0 (cells.getD []) := by
  unfold collectLocations at ended
  cases first : collectText text with
  | error e =>
    rw [first] at ended
    cases ended
  | ok s =>
    rw [first] at ended
    dsimp only at ended
    obtain ⟨next, later, ended⟩ := except_bind_ok ended
    cases ended
    rw [collectRows_ok later]
    congr 1
    unfold collectText at first
    cases text with
    | none =>
      cases first
      rfl
    | some t =>
      dsimp only at first
      split_ifs at first
      cases first
      rfl

theorem mem_gridLocations {grid : List (List Cell)} {l : ScanLocation} :
    l ∈ gridLocations 0 grid ↔ ∃ r c cell content, cellAt grid r c = some cell ∧ stringifyCell cell = some content ∧
      l = ⟨cellLabel r c, content, some (r, c)⟩ := by
  unfold gridLocations rowLocations cellAt
  simp only [mem_flatMap, mem_filterMap, Prod.exists, mem_zipIdx_iff_getElem?, map_eq_some_iff, bind_eq_some_iff]
  constructor
  · rintro ⟨row, r, there, cell, c, inRow, content, text, rfl⟩
    exact ⟨r, c, cell, content, ⟨row, there, inRow⟩, text, rfl⟩
  · rintro ⟨r, c, cell, content, ⟨row, there, inRow⟩, text, rfl⟩
    exact ⟨row, r, there, cell, c, inRow, content, text, rfl⟩

theorem foldl_slot {σ τ X : Type} {write : σ → τ → σ} {read : σ → X} {f : X → X} {writes : List τ} (slot : τ → Bool)
    (changed : ∀ w ∈ writes, slot w = true → ∀ out, read (write out w) = f (read out))
    (other : ∀ w ∈ writes, slot w = false → ∀ out, read (write out w) = read out) (twice : ∀ x, f (f x) = f x)
    (out : σ) : read (writes.foldl write out) = if writes.any slot then f (read out) else read out := by
  induction writes generalizing out with
  | nil => rfl
  | cons w rest ih =>
    rw [forall_mem_cons] at changed other
    rw [foldl_cons, ih changed.2 other.2, any_cons]
    cases here : slot w with
    | true =>
      rw [changed.1 here, Bool.true_or, if_pos rfl, twice, ite_self]
    | false => rw [other.1 here, Bool.false_or]

section Result
variable {rules : List DlpRule} {locations : List ScanLocation} {text : Option Units} {cells : Option (List (List Cell))}
variable {grid : List (List Cell)}

def scannedFor (rules : List DlpRule) (l : ScanLocation) : Scanned :=
  (⟨l, []⟩ : Scanned).with (rules.map DlpRule.compiled)

def written (rules : List DlpRule) (locations : List ScanLocation) (text : Option Units)
    (cells : Option (List (List Cell))) : Option Units × Option (List (List Cell)) :=
  (locations.map (scannedFor rules)).foldl writeLocation (text, cells)

def rewrittenCell (rules : List DlpRule) (content : Option Units) (old : Cell) : Cell :=
  match content with
  | none => old
  | some t => if replaced rules t = [] then old else .string (redactedContent rules t)

def redactedCell (rules : List DlpRule) (cell : Cell) : Cell := rewrittenCell rules (stringifyCell cell) cell

theorem scannedFor_redaction (l : ScanLocation) : redaction (scannedFor rules l) =
    if replaced rules l.content = [] then none else some (redactedContent rules l.content) := redaction_eq l

theorem grid_coords : ∀ l ∈ gridLocations 0 grid, l.coords ≠ none := by
  intro l member
  obtain ⟨r, c, cell, content, -, -, rfl⟩ := mem_gridLocations.mp member
  exact some_ne_none _

theorem writeLocation_text (out : Option Units × Option (List (List Cell))) {l : ScanLocation}
    (apart : l.coords ≠ none) : (writeLocation out (scannedFor rules l)).1 = out.1 := by
  unfold writeLocation
  split
  · rfl
  next none => exact absurd none apart
  · rfl

theorem writeLocation_cells (out : Option Units × Option (List (List Cell))) (t : Units) :
    (writeLocation out (scannedFor rules (textLocation t))).2 = out.2 := by
  unfold writeLocation
  split
  · rfl
  · rfl
  next there => cases there

theorem writeLocation_cell (out : Option Units × Option (List (List Cell))) (label : String) (content : Units)
    (r c : ℕ) : (writeLocation out (scannedFor rules ⟨label, content, some (r, c)⟩)).2 =
      if replaced rules content = [] then out.2
      else out.2.map fun grid => writeCell grid r c (redactedContent rules content) := by
  unfold writeLocation
  rw [scannedFor_redaction]
  dsimp only
  by_cases none : replaced rules content = []
  · rw [if_pos none, if_pos none]
  · rw [if_neg none, if_neg none]
    rfl

theorem foldl_text {listed : List ScanLocation} (apart : ∀ l ∈ listed, l.coords ≠ none)
    (out : Option Units × Option (List (List Cell))) :
    ((listed.map (scannedFor rules)).foldl writeLocation out).1 = out.1 := by
  induction listed generalizing out with
  | nil => rfl
  | cons l rest ih =>
    rw [forall_mem_cons] at apart
    rw [map_cons, foldl_cons, ih apart.2, writeLocation_text out apart.1]

theorem written_eq (listed : locations = (text.map textLocation).toList ++ gridLocations 0 (cells.getD [])) :
    written rules locations text cells =
      (text.map (redactedContent rules), (((gridLocations 0 (cells.getD [])).map (scannedFor rules)).foldl writeLocation
        (text.map (redactedContent rules), cells)).2) := by
  have first : ((text.map textLocation).toList.map (scannedFor rules)).foldl writeLocation (text, cells) =
      (text.map (redactedContent rules), cells) := by
    cases text with
    | none => rfl
    | some t =>
      refine Prod.ext ?_ (writeLocation_cells _ t)
      show (writeLocation (some t, cells) (scannedFor rules (textLocation t))).1 = some (redactedContent rules t)
      unfold writeLocation
      rw [scannedFor_redaction]
      by_cases none : replaced rules (textLocation t).content = []
      · rw [if_pos none]
        exact congrArg some (redactedContent_nil none).symm
      · rw [if_neg none]
        rfl
  rw [written, listed, map_append, foldl_append, first]
  exact Prod.ext (foldl_text grid_coords _) rfl

def cellOf (r c : ℕ) (out : Option Units × Option (List (List Cell))) : Option (Option Cell) :=
  out.2.map (cellAt · r c)

theorem writeLocation_other {l : ScanLocation} (member : l ∈ gridLocations 0 grid)
    {r c : ℕ} (apart : l.coords ≠ some (r, c)) (out : Option Units × Option (List (List Cell))) :
    cellOf r c (writeLocation out (scannedFor rules l)) = cellOf r c out := by
  obtain ⟨i, j, cell, content, -, -, rfl⟩ := mem_gridLocations.mp member
  unfold cellOf
  rw [writeLocation_cell]
  split_ifs
  · rfl
  · rw [Option.map_map]
    congr 1
    funext g
    exact cellAt_writeCell_ne g _ fun same => apart (by rw [same])

theorem writeLocation_here (label : String) (content : Units) (r c : ℕ)
    (out : Option Units × Option (List (List Cell))) :
    cellOf r c (writeLocation out (scannedFor rules ⟨label, content, some (r, c)⟩)) =
      (cellOf r c out).map (Option.map (rewrittenCell rules (some content))) := by
  unfold cellOf
  rw [writeLocation_cell, Option.map_map]
  by_cases none : replaced rules content = []
  · have same : rewrittenCell rules (some content) = id := by
      funext old
      exact if_pos none
    rw [if_pos none, same, Option.map_id_fun]
    rfl
  · rw [if_neg none, Option.map_map]
    congr 1
    funext g
    have same : rewrittenCell rules (some content) = fun _ => .string (redactedContent rules content) := by
      funext old
      exact if_neg none
    show cellAt (writeCell g r c _) r c = (cellAt g r c).map _
    rw [cellAt_writeCell_same, same]

theorem rewrittenCell_twice (content : Option Units) (old : Cell) :
    rewrittenCell rules content (rewrittenCell rules content old) = rewrittenCell rules content old := by
  unfold rewrittenCell
  cases content with
  | none => rfl
  | some t =>
    dsimp only
    split_ifs <;> rfl

theorem foldl_cell (r c : ℕ) {out : Option Units × Option (List (List Cell))} (start : out.2 = some grid) :
    cellOf r c (((gridLocations 0 grid).map (scannedFor rules)).foldl writeLocation out) =
      some ((cellAt grid r c).map (redactedCell rules)) := by
  have changed : ∀ w ∈ (gridLocations 0 grid).map (scannedFor rules),
      decide (w.location.coords = some (r, c)) = true → ∀ out : Option Units × Option (List (List Cell)),
        cellOf r c (writeLocation out w) =
          (cellOf r c out).map (Option.map (rewrittenCell rules ((cellAt grid r c).bind stringifyCell))) := by
    intro w member here out
    obtain ⟨l, listed, rfl⟩ := mem_map.mp member
    obtain ⟨i, j, cell, content, there, text, rfl⟩ := mem_gridLocations.mp listed
    have place : (i, j) = (r, c) := some.inj (of_decide_eq_true here)
    cases place
    rw [writeLocation_here, there, bind_some, text]
  have other : ∀ w ∈ (gridLocations 0 grid).map (scannedFor rules),
      decide (w.location.coords = some (r, c)) = false → ∀ out : Option Units × Option (List (List Cell)),
        cellOf r c (writeLocation out w) = cellOf r c out := by
    intro w member here out
    obtain ⟨l, listed, rfl⟩ := mem_map.mp member
    exact writeLocation_other listed (of_decide_eq_false here) out
  have twice : ∀ x : Option (Option Cell),
      (x.map (Option.map (rewrittenCell rules ((cellAt grid r c).bind stringifyCell)))).map
        (Option.map (rewrittenCell rules ((cellAt grid r c).bind stringifyCell))) =
          x.map (Option.map (rewrittenCell rules ((cellAt grid r c).bind stringifyCell))) := by
    intro x
    rw [Option.map_map, Option.map_comp_map]
    congr 2
    funext old
    exact rewrittenCell_twice _ old
  have begins : cellOf r c out = some (cellAt grid r c) := by
    rw [cellOf, start]
    rfl
  rw [foldl_slot _ changed other twice out, begins]
  cases there : cellAt grid r c with
  | none =>
    split_ifs <;> rfl
  | some cell =>
    cases text : stringifyCell cell with
    | none =>
      have same : redactedCell rules cell = cell := by rw [redactedCell, text]; rfl
      rw [bind_some, text, map_some, map_some, map_some, same]
      exact ite_self _
    | some content =>
      have listed := mem_gridLocations.mpr ⟨r, c, cell, content, there, text, rfl⟩
      have any : ((gridLocations 0 grid).map (scannedFor rules)).any
          (fun w => decide (w.location.coords = some (r, c))) = true :=
        any_eq_true.mpr ⟨_, mem_map_of_mem listed, decide_eq_true rfl⟩
      rw [if_pos any, bind_some, map_some, map_some, map_some, redactedCell, text]

theorem writeCell_lengths (grid : List (List Cell)) (r c : ℕ) (t : Units) :
    (writeCell grid r c t).map length = grid.map length := by
  unfold writeCell
  apply ext_getElem?
  intro i
  rw [getElem?_map, getElem?_map]
  by_cases row : r = i
  · subst row
    rw [getElem?_modify_eq]
    cases grid[r]? with
    | none => rfl
    | some row => exact congrArg some (length_set)
  · rw [getElem?_modify_ne _ _ row]

theorem foldl_lengths (listed : List ScanLocation) (out : Option Units × Option (List (List Cell))) :
    ((listed.map (scannedFor rules)).foldl writeLocation out).2.map (map length) = out.2.map (map length) := by
  induction listed generalizing out with
  | nil => rfl
  | cons l rest ih =>
    rw [map_cons, foldl_cons, ih]
    unfold writeLocation
    split
    · rfl
    · rfl
    · rw [Option.map_map]
      congr 1
      funext grid
      exact writeCell_lengths grid _ _ _

theorem written_cells (given : cells = some grid)
    (listed : locations = (text.map textLocation).toList ++ gridLocations 0 (cells.getD [])) :
    ∃ next, (written rules locations text cells).2 = some next ∧ next.map length = grid.map length ∧
      ∀ r c, cellAt next r c = (cellAt grid r c).map (redactedCell rules) := by
  subst given
  have lengths := @foldl_lengths rules (gridLocations 0 grid) (text.map (redactedContent rules), some grid)
  obtain ⟨next, there, same⟩ := map_eq_some_iff.mp lengths
  rw [written_eq listed]
  refine ⟨next, there, same, fun r c => ?_⟩
  have cell := @foldl_cell rules grid r c (text.map (redactedContent rules), some grid) rfl
  rw [cellOf, there] at cell
  exact some.inj cell

theorem written_no_cells (given : cells = none)
    (listed : locations = (text.map textLocation).toList ++ gridLocations 0 (cells.getD [])) :
    (written rules locations text cells).2 = none := by
  subst given
  rw [written_eq listed]
  rfl

theorem scanPayload_allow {elapsed : ℕ → ℕ → ℕ} {nextText : Option Units} {nextCells : Option (List (List Cell))}
    {events : List DlpRedactionEvent} (allowed : scanPayload elapsed (rules.map DlpRule.compiled) locations text cells =
      .allow nextText nextCells events) :
    (nextText, nextCells) = written rules locations text cells ∧
      ∀ rule ∈ rules, rule.action = .block → ∀ l ∈ locations, rule.counted l.content = [] := by
  unfold scanPayload at allowed
  split at allowed
  · cases allowed
  next scanned tally ended =>
    obtain ⟨found, free⟩ := scanRules_ok ended
    dsimp only at allowed found free
    split at allowed
    · cases allowed
    next unblocked =>
      cases allowed
      refine ⟨?_, fun rule enabled blocks l listed => ?_⟩
      · rw [written, found, List.map_map]
        rfl
      · exact (free.mp unblocked).2 rule.compiled (mem_map_of_mem enabled) blocks ⟨l, []⟩
          (mem_map_of_mem listed)

end Result

def payloadLocations (text : Option Units) (cells : Option (List (List Cell))) : List ScanLocation :=
  (text.map textLocation).toList ++ gridLocations 0 (cells.getD [])

def payloadRules (engine : RegExpEngine) (config : DlpConfig) (text : Option Units) (cells : Option (List (List Cell))) :
    List DlpRule :=
  enabledRules engine ((payloadLocations text cells).any fun l => ssnContextPresent engine l.content) config

/-- What has to be true of a call that allows its payload. -/
structure RedactsPayload (rules : List DlpRule) (text nextText : Option Units)
    (cells nextCells : Option (List (List Cell))) : Prop where
  inText : ∀ t, text = some t → ∃ out, nextText = some out ∧ Redacts rules t out ∧
    ((¬∃ s, Redacted rules t s) → out = t)
  inCells : ∀ grid, cells = some grid → ∃ next, nextCells = some next ∧
    next.map length = grid.map length ∧
    ∀ r c cell, cellAt grid r c = some cell → ∃ out, cellAt next r c = some out ∧
      (stringifyCell cell = none → out = cell) ∧
      ∀ content, stringifyCell cell = some content →
        (∃ t, stringifyCell out = some t ∧ Redacts rules content t) ∧ ((¬∃ s, Redacted rules content s) → out = cell)
  absent : (text = none → nextText = none) ∧ (cells = none → nextCells = none)
  unblocked : ∀ rule ∈ rules, rule.action = .block → ∀ l ∈ payloadLocations text cells, ∀ s ∈ rule.spans l.content,
    ¬s.Filled

/-- Nothing is lost at a location by ending at an empty match. -/
def NothingLost (rules : List DlpRule) (content : Units) : Prop :=
  Covered rules content ∧ ∀ rule ∈ rules, rule.action = .block →
    ∀ s ∈ (rule.spans content).dropWhile (fun m => m.Filled), ¬s.Filled

section Call
variable {engine : RegExpEngine} {config : DlpConfig} {text nextText : Option Units}
  {cells nextCells : Option (List (List Cell))} {rules : List DlpRule} {content : Units}

theorem enabledRules_inString (active : Bool) (content : Units) :
    InString (enabledRules engine active config) content := by
  intro rule enabled s member
  rcases mem_append.mp enabled with builtin | custom
  · obtain ⟨name, -, found⟩ := mem_filterMap.mp builtin
    obtain ⟨action, -, rfl⟩ := map_eq_some_iff.mp found
    exact (proper_builtinDetector name content s member).2
  · obtain ⟨given, -, rfl⟩ := mem_map.mp custom
    exact (spansOf_within s member).2

theorem redactedContent_ne_nil (inString : InString rules content) (some_span : replaced rules content ≠ []) :
    redactedContent rules content ≠ [] := by
  obtain ⟨m, rest, spans⟩ := exists_cons_of_ne_nil some_span
  rw [redactedContent_eq inString, spans]
  intro none
  have token : redactedToken m.label = [] := (append_eq_nil_iff.mp (append_eq_nil_iff.mp none).1).2
  exact absurd (append_eq_nil_iff.mp (append_eq_nil_iff.mp token).1).1 (by decide)

theorem stringify_redactedCell (inString : InString rules content) {cell : Cell}
    (textual : stringifyCell cell = some content) :
    stringifyCell (redactedCell rules cell) = some (redactedContent rules content) := by
  rw [redactedCell, textual]
  show stringifyCell (if replaced rules content = [] then cell else _) = _
  by_cases none : replaced rules content = []
  · rw [if_pos none, textual, redactedContent_nil none]
  · rw [if_neg none]
    exact if_neg (redactedContent_ne_nil inString none)

theorem redactedCell_unmatched {cell : Cell} (textual : stringifyCell cell = some content)
    (unmatched : ¬∃ s, Redacted rules content s) : redactedCell rules cell = cell := by
  rw [redactedCell, textual]
  exact if_pos (replaced_nil_of_unmatched unmatched)

theorem applyDlp_allow {slow : Units → Bool} {elapsed : ℕ → ℕ → ℕ} {input : ConfigInput}
    {events : List DlpRedactionEvent} (accepted : dlpConfigSchema engine slow input = some config)
    (allowed : applyDlp engine slow elapsed text cells input = .allow nextText nextCells events) :
    (nextText, nextCells) = written (payloadRules engine config text cells) (payloadLocations text cells) text cells ∧
      ∀ rule ∈ payloadRules engine config text cells, rule.action = .block →
        ∀ l ∈ payloadLocations text cells, rule.counted l.content = [] := by
  unfold applyDlp at allowed
  rw [accepted] at allowed
  dsimp only [getD_some] at allowed
  split at allowed
  · cases allowed
  next locations collected =>
    have listed : locations = payloadLocations text cells := collectLocations_ok collected
    subst listed
    split at allowed
    · cases allowed
    next compiled ready =>
      rw [compileRules_ok ready] at allowed
      exact scanPayload_allow allowed

theorem mem_payloadLocations_text {t : Units} (given : text = some t) :
    textLocation t ∈ payloadLocations text cells := by
  subst given
  exact mem_append_left _ (mem_singleton.mpr rfl)

theorem mem_payloadLocations_cell {grid : List (List Cell)} (given : cells = some grid) {r c : ℕ} {cell : Cell}
    (there : cellAt grid r c = some cell) (textual : stringifyCell cell = some content) :
    (⟨cellLabel r c, content, some (r, c)⟩ : ScanLocation) ∈ payloadLocations text cells := by
  subst given
  exact mem_append_right _ (mem_gridLocations.mpr ⟨r, c, cell, content, there, textual, rfl⟩)

theorem dropWhile_of_counted_nil {rule : DlpRule} (none : rule.counted content = []) :
    (rule.spans content).dropWhile (fun m => m.Filled) = rule.spans content := by
  have whole := takeWhile_append_dropWhile (p := fun m : Span => decide m.Filled) (l := rule.spans content)
  have front : (rule.spans content).takeWhile (fun m => m.Filled) = [] := none
  rw [front, nil_append] at whole
  exact whole

/-- A call that allows its payload has redacted and refused all that it has to exactly when nothing is lost by ending at
an empty match: no rule that blocks matches anything after an empty match, and what a rule that redacts matches after
one is covered by matches that are counted. -/
theorem applyDlp_redacts_iff {slow : Units → Bool} {elapsed : ℕ → ℕ → ℕ} {input : ConfigInput}
    {events : List DlpRedactionEvent} (accepted : dlpConfigSchema engine slow input = some config)
    (allowed : applyDlp engine slow elapsed text cells input = .allow nextText nextCells events) :
    RedactsPayload (payloadRules engine config text cells) text nextText cells nextCells ↔
      ∀ l ∈ payloadLocations text cells, NothingLost (payloadRules engine config text cells) l.content := by
  obtain ⟨result, counted⟩ := applyDlp_allow accepted allowed
  have inString := fun content => @enabledRules_inString engine config
    ((payloadLocations text cells).any fun l => ssnContextPresent engine l.content) content
  constructor
  · intro meets l listed
    refine ⟨?_, fun rule enabled blocks s later => ?_⟩
    · rcases mem_append.mp listed with first | inGrid
      · obtain ⟨t, given, rfl⟩ := map_eq_some_iff.mp (mem_toList.mp first)
        obtain ⟨out, -, redacts, -⟩ := meets.inText t given
        exact (redacts_iff (inString t) redacts.output).mp redacts
      · obtain ⟨r, c, cell, content, there, textual, rfl⟩ := mem_gridLocations.mp inGrid
        cases given : cells with
        | none =>
          rw [given] at there
          cases there
        | some grid =>
          rw [given] at there
          obtain ⟨next, -, -, each⟩ := meets.inCells grid given
          obtain ⟨out, -, -, some_content⟩ := each r c cell there
          obtain ⟨⟨t, -, redacts⟩, -⟩ := some_content content textual
          have covered := (redacts_iff (inString content) redacts.output).mp redacts
          rw [given] at covered
          exact covered
    · exact meets.unblocked rule enabled blocks l listed s ((dropWhile_sublist _).mem later)
  · intro nothing
    have redacts : ∀ l ∈ payloadLocations text cells, Redacts (payloadRules engine config text cells) l.content
          (redactedContent (payloadRules engine config text cells) l.content) :=
      fun l listed => (redacts_iff (inString _) (redactedContent_eq (inString _))).mpr (nothing l listed).1
    have texts : nextText = text.map (redactedContent (payloadRules engine config text cells)) :=
      (congrArg Prod.fst result).trans (congrArg Prod.fst (written_eq rfl))
    have grids := congrArg Prod.snd result
    refine ⟨fun t given => ?_, fun grid given => ?_, ⟨fun none => ?_, fun none => ?_⟩, ?_⟩
    · refine ⟨redactedContent _ t, by rw [texts, given]; rfl, redacts _ (mem_payloadLocations_text given), ?_⟩
      exact fun unmatched => redactedContent_nil (replaced_nil_of_unmatched unmatched)
    · obtain ⟨next, there, lengths, each⟩ := written_cells given rfl
      refine ⟨next, grids.trans there, lengths, fun r c cell at_place => ?_⟩
      refine ⟨redactedCell _ cell, by rw [each, at_place]; rfl, fun silent => ?_, fun content textual => ?_⟩
      · rw [redactedCell, silent]
        rfl
      · have listed := @mem_payloadLocations_cell text cells content grid given r c cell at_place textual
        exact ⟨⟨_, stringify_redactedCell (inString content) textual, redacts _ listed⟩, redactedCell_unmatched textual⟩
    · rw [texts, none]
      rfl
    · exact grids.trans (written_no_cells none rfl)
    · intro rule enabled blocks l listed s member
      have later := (nothing l listed).2 rule enabled blocks s
      rw [dropWhile_of_counted_nil (counted rule enabled blocks l listed)] at later
      exact later member

end Call

def starPattern : RegExp := ⟨unitsOf "x*", "gu"⟩

/-- What the platform does with `x*` in two strings. -/
def starMatches (t : Units) : List Span :=
  if t = unitsOf "yx" then [⟨0, 0⟩, ⟨1, 2⟩, ⟨2, 2⟩]
  else if t = unitsOf "xy" then [⟨0, 1⟩, ⟨1, 1⟩, ⟨2, 2⟩]
  else []

theorem starMatches_within {t : Units} : ∀ m ∈ starMatches t, m.start ≤ m.stop ∧ m.stop ≤ t.length := by
  unfold starMatches
  split_ifs with first second
  · subst first
    decide
  · subst second
    decide
  · exact fun _ member => absurd member not_mem_nil

theorem builtinPatterns_flags : ∀ re ∈ builtinPatterns, re.flags = "g" := by
  simp [builtinPatterns, cardCandidate, ssnDashed, ssnBare, ibanCandidate, apiKeyPatterns, hexBlob, base64Blob,
    emailPattern, phonePattern, regExp]

def starEngine : RegExpEngine where
  compile := fun re => some fun t => if re = starPattern then starMatches t else []
  within := by
    intro re f t m compiled member
    cases compiled
    dsimp only at member
    split_ifs at member
    · exact starMatches_within m member
    · exact absurd member not_mem_nil
  filled := by
    intro re builtin f t m compiled member
    cases compiled
    have other : re ≠ starPattern := by
      intro same
      have flags := builtinPatterns_flags re builtin
      rw [same] at flags
      exact absurd flags (by decide)
    dsimp only at member
    rw [if_neg other] at member
    exact absurd member not_mem_nil

def starRule : DlpCustomRule :=
  ⟨unitsOf "00000000-0000-4000-8000-000000000000", unitsOf "r", unitsOf "x*", .redact⟩

theorem starRule_accepted : dlpConfigSchema starEngine (fun _ => false) (.object (fun _ => none) [starRule]) =
    some ⟨defaultSetting, [starRule]⟩ := by
  have parsed : parseRule starEngine (fun _ => false) starRule = some starRule := by
    decide +kernel
  simp [dlpConfigSchema, parsed, dlpMaxCustomRules]

theorem applyDlp_redacts_iff_front :
    RedactsPayload (payloadRules starEngine ⟨defaultSetting, [starRule]⟩ (some (unitsOf "xy")) none)
      (some (unitsOf "xy")) (some (unitsOf "[REDACTED:r]y")) none none := by
  have allowed : applyDlp starEngine (fun _ => false) (fun _ _ => 0) (some (unitsOf "xy")) none
      (.object (fun _ => none) [starRule]) =
        .allow (some (unitsOf "[REDACTED:r]y")) none [⟨unitsOf "r", 1, "text"⟩] := by
    decide +kernel
  have same : ∀ rule ∈ payloadRules starEngine ⟨defaultSetting, [starRule]⟩ (some (unitsOf "xy")) none,
      rule.action = .redact ∧ (rule.spans (unitsOf "xy")).filter (fun m => m.Filled) = rule.counted (unitsOf "xy") := by
    decide +kernel
  refine (applyDlp_redacts_iff starRule_accepted allowed).mpr fun l listed => ?_
  rcases mem_singleton.mp listed with rfl
  refine ⟨fun s redacted p => ?_, fun rule enabled blocks => ?_⟩
  · obtain ⟨rule, enabled, redacts, member, filled⟩ := redacted
    have counted : s ∈ rule.counted (unitsOf "xy") := by
      rw [← (same rule enabled).2]
      exact mem_filter.mpr ⟨member, decide_eq_true filled⟩
    exact ⟨fun has => ⟨s, ⟨rule, enabled, redacts, counted⟩, has⟩,
      fun crosses => ⟨s, ⟨rule, enabled, redacts, counted⟩, crosses⟩⟩
  · rw [(same rule enabled).1] at blocks
    cases blocks

theorem applyDlp_keeps_match :
    applyDlp starEngine (fun _ => false) (fun _ _ => 0) (some (unitsOf "yx")) none (.object (fun _ => none) [starRule]) =
        .allow (some (unitsOf "yx")) none [] ∧
      ¬RedactsPayload (payloadRules starEngine ⟨defaultSetting, [starRule]⟩ (some (unitsOf "yx")) none)
        (some (unitsOf "yx")) (some (unitsOf "yx")) none none := by
  refine ⟨by decide +kernel, fun meets => ?_⟩
  obtain ⟨out, -, redacts, -⟩ := meets.inText _ rfl
  have left : 1 ∈ woven (fun _ : Units => []) (range (unitsOf "yx").length) 0
      (replaced (payloadRules starEngine ⟨defaultSetting, [starRule]⟩ (some (unitsOf "yx")) none) (unitsOf "yx")) := by
    decide +kernel
  have matched : Redacted (payloadRules starEngine ⟨defaultSetting, [starRule]⟩ (some (unitsOf "yx")) none)
      (unitsOf "yx") ⟨1, 2⟩ := by
    refine ⟨⟨unitsOf "r", .redact, (spansOf starEngine · starPattern)⟩, ?_, rfl, by decide +kernel, by decide⟩
    exact mem_append_right _ (mem_singleton.mpr rfl)
  exact ((redacts.kept 1).mp left).2 ⟨⟨1, 2⟩, matched, by decide⟩

end RemudaRmm.Security
