import RemudaRmm.Security.DlpDetectors

/-! The redaction of what leaves for the model provider (`clientAiDlp.ts`): the configuration, the scan of the text and
of the cells, and what is replaced. The times of a scan and of the probes of a pattern are parameters. -/
namespace RemudaRmm.Security
open Foundation

inductive DlpRuleAction where
  | redact
  | block
  | log
  deriving DecidableEq

inductive DlpBuiltinSetting where
  | redact
  | block
  | log
  | off

inductive DlpBuiltinRule where
  | creditCard
  | ssn
  | iban
  | apiKey
  | email
  | phone

structure DlpCustomRule where
  (id name pattern : Units)
  action : DlpRuleAction
  deriving DecidableEq

structure DlpConfig where
  builtins : DlpBuiltinRule → DlpBuiltinSetting
  customRules : List DlpCustomRule

/-- What is stored as a configuration: nothing, something of another form, or an object. -/
inductive ConfigInput where
  | absent
  | malformed
  | object (builtins : DlpBuiltinRule → Option DlpBuiltinSetting) (customRules : List DlpCustomRule)

def dlpMaxCustomRules : ℕ := 50

def dlpMaxPatternLength : ℕ := 200

def hasBackreference : Units → Bool
  | a :: b :: rest => (a == 92 && unitBetween '1' '9' b) || hasBackreference (b :: rest)
  | _ => false

def hasNestedQuantifier : Units → Bool
  | a :: b :: c :: rest =>
    ((unitsOf "+*\x7d").contains a && b == 41 && (unitsOf "+*\x7b?").contains c) || hasNestedQuantifier (b :: c :: rest)
  | _ => false

section Config
variable (engine : RegExpEngine) (slow : Units → Bool)

def validateDlpPattern (pattern : Units) : Option String :=
  if pattern = [] then some "empty_pattern"
  else if dlpMaxPatternLength < pattern.length then some "pattern_too_long"
  else if hasBackreference pattern then some "backreference_not_allowed"
  else if hasNestedQuantifier pattern then some "nested_quantifier"
  else if engine.compile ⟨pattern, "gu"⟩ = none then some "invalid_regex"
  else if slow pattern then some "pattern_too_slow"
  else none

def isHexUnit (u : UInt16) : Bool := isDigitUnit u || unitBetween 'a' 'f' u || unitBetween 'A' 'F' u

def isGuid (t : Units) : Bool :=
  t.length == 36 && t.zipIdx.all fun x => if x.2 ∈ [8, 13, 18, 23] then x.1 == 45 else isHexUnit x.1

def parseRule (rule : DlpCustomRule) : Option DlpCustomRule :=
  let name := trimUnits rule.name
  if isGuid rule.id ∧ name ≠ [] ∧ name.length ≤ 60 ∧ validateDlpPattern engine slow rule.pattern = none then
    some { rule with name := name }
  else none

def defaultSetting : DlpBuiltinRule → DlpBuiltinSetting
  | .creditCard => .redact
  | .ssn => .redact
  | .iban => .redact
  | .apiKey => .redact
  | .email => .off
  | .phone => .off

def dlpConfigSchema : ConfigInput → Option DlpConfig
  | .absent => some ⟨defaultSetting, []⟩
  | .malformed => none
  | .object builtins customRules =>
    match customRules.mapM (parseRule engine slow) with
    | none => none
    | some rules =>
      if rules.length ≤ dlpMaxCustomRules ∧ (rules.map DlpCustomRule.id).Nodup then
        some ⟨fun rule => (builtins rule).getD (defaultSetting rule), rules⟩
      else none

def defaultDlpConfig : DlpConfig := ⟨defaultSetting, []⟩

end Config

structure CompiledRule where
  name : Units
  action : DlpRuleAction
  detect : Units → List Span

def builtinOrder : List DlpBuiltinRule := [.creditCard, .ssn, .iban, .apiKey, .email, .phone]

def DlpBuiltinRule.name : DlpBuiltinRule → Units
  | .creditCard => unitsOf "creditCard"
  | .ssn => unitsOf "ssn"
  | .iban => unitsOf "iban"
  | .apiKey => unitsOf "apiKey"
  | .email => unitsOf "email"
  | .phone => unitsOf "phone"

def DlpBuiltinSetting.action : DlpBuiltinSetting → Option DlpRuleAction
  | .redact => some .redact
  | .block => some .block
  | .log => some .log
  | .off => none

section Rules
variable (engine : RegExpEngine) (ssnActive : Bool)

def builtinDetector : DlpBuiltinRule → Units → List Span
  | .creditCard => detectCreditCard engine
  | .ssn => (detectSsn engine · ssnActive)
  | .iban => detectIban engine
  | .apiKey => detectApiKey engine
  | .email => detectEmail engine
  | .phone => detectPhone engine

/-- The loop over the matches of a custom rule, which ends at the first empty one. -/
def customDetect (matchAll : Units → List Span) (t : Units) : List Span := (matchAll t).takeWhile fun m => m.Filled

def compileCustom : List DlpCustomRule → Except Units (List CompiledRule)
  | [] => .ok []
  | custom :: rest =>
    match engine.compile ⟨custom.pattern, "gu"⟩ with
    | none => .error (unitsOf "dlp_rule_compile_failed:" ++ custom.name)
    | some matchAll => (compileCustom rest).map (⟨custom.name, custom.action, customDetect matchAll⟩ :: ·)

def compileBuiltins (builtins : DlpBuiltinRule → DlpBuiltinSetting) : List CompiledRule :=
  builtinOrder.filterMap fun rule =>
    (builtins rule).action.map fun action => ⟨rule.name, action, builtinDetector engine ssnActive rule⟩

def compileRules (config : DlpConfig) : Except Units (List CompiledRule) :=
  (compileCustom engine config.customRules).map (compileBuiltins engine ssnActive config.builtins ++ ·)

end Rules

/-- A cell of a grid: nothing, a string, a value with a text, or an object, which may have no text. -/
inductive Cell where
  | null
  | string (t : Units)
  | scalar (text : Units)
  | object (json : Option Units)
  deriving DecidableEq

def stringifyCell : Cell → Option Units
  | .null => none
  | .string t => if t = [] then none else some t
  | .scalar text => some text
  | .object json => json

structure ScanLocation where
  label : String
  content : Units
  coords : Option (ℕ × ℕ)

def dlpMaxCells : ℕ := 50000

def dlpMaxCellChars : ℕ := 32768

def dlpMaxTotalChars : ℕ := 2000000

def dlpScanBudgetMs : ℕ := 2000

structure Collected where
  (totalChars cellCount : ℕ)
  locations : List ScanLocation

def tooLarge : Units := unitsOf "payload_too_large_for_dlp"

def cellLabel (r c : ℕ) : String := "cell[" ++ toString r ++ "][" ++ toString c ++ "]"

def collectText (text : Option Units) : Except Units Collected :=
  match text with
  | none => .ok ⟨0, 0, []⟩
  | some t => if dlpMaxTotalChars < t.length then .error tooLarge else .ok ⟨t.length, 0, [⟨"text", t, none⟩]⟩

def collectCell (r c : ℕ) (cell : Cell) (s : Collected) : Except Units Collected :=
  if dlpMaxCells < s.cellCount + 1 then .error tooLarge
  else
    match stringifyCell cell with
    | none => .ok { s with cellCount := s.cellCount + 1 }
    | some content =>
      if dlpMaxCellChars < content.length then .error tooLarge
      else if dlpMaxTotalChars < s.totalChars + content.length then .error tooLarge
      else .ok ⟨s.totalChars + content.length, s.cellCount + 1, s.locations ++ [⟨cellLabel r c, content, some (r, c)⟩]⟩

def collectRow (r : ℕ) : ℕ → List Cell → Collected → Except Units Collected
  | _, [], s => .ok s
  | c, cell :: rest, s =>
    match collectCell r c cell s with
    | .error e => .error e
    | .ok next => collectRow r (c + 1) rest next

def collectRows : ℕ → List (List Cell) → Collected → Except Units Collected
  | _, [], s => .ok s
  | r, row :: rest, s =>
    match collectRow r 0 row s with
    | .error e => .error e
    | .ok next => collectRows (r + 1) rest next

def collectLocations (text : Option Units) (cells : Option (List (List Cell))) : Except Units (List ScanLocation) :=
  match collectText text with
  | .error e => .error e
  | .ok s => (collectRows 0 (cells.getD []) s).map Collected.locations

/-- A location with what the rules have found in it. -/
structure Scanned where
  location : ScanLocation
  found : List (CompiledRule × List Span)

structure RuleCount where
  rule : Units
  count : ℕ
  locations : List String

structure Tally where
  perRule : List RuleCount
  blockedBy : Option Units

def addCount (rule : Units) (n : ℕ) (label : String) : List RuleCount → List RuleCount
  | [] => [⟨rule, n, [label]⟩]
  | a :: rest =>
    if a.rule = rule then ⟨rule, a.count + n, a.locations ++ [label]⟩ :: rest else a :: addCount rule n label rest

def scanOne (rule : CompiledRule) (s : Scanned) (tally : Tally) : Scanned × Tally :=
  let spans := rule.detect s.location.content
  if spans = [] then (s, tally)
  else
    (⟨s.location, s.found ++ [(rule, spans)]⟩,
      ⟨addCount rule.name spans.length s.location.label tally.perRule,
        if rule.action = .block ∧ tally.blockedBy = none then some rule.name else tally.blockedBy⟩)

/-- One rule, location by location; the time is read before each. -/
def scanLocations (elapsed : ℕ → ℕ) (rule : CompiledRule) :
    ℕ → List Scanned → Tally → Except Units (List Scanned × Tally)
  | _, [], tally => .ok ([], tally)
  | i, s :: rest, tally =>
    if dlpScanBudgetMs < elapsed i then .error (unitsOf "dlp_scan_budget_exceeded")
    else
      let one := scanOne rule s tally
      (scanLocations elapsed rule (i + 1) rest one.2).map fun later => (one.1 :: later.1, later.2)

def scanRules (elapsed : ℕ → ℕ → ℕ) : ℕ → List CompiledRule → List Scanned → Tally → Except Units (List Scanned × Tally)
  | _, [], scanned, tally => .ok (scanned, tally)
  | k, rule :: rest, scanned, tally =>
    match scanLocations (elapsed k) rule 0 scanned tally with
    | .error e => .error e
    | .ok next => scanRules elapsed (k + 1) rest next.1 next.2

structure DlpRedactionEvent where
  rule : Units
  count : ℕ
  location : String
  deriving DecidableEq

inductive DlpResult where
  | allow (text : Option Units) (cells : Option (List (List Cell))) (redactions : List DlpRedactionEvent)
  | block (reason : Units) (redactions : List DlpRedactionEvent)
  deriving DecidableEq

def eventOf (a : RuleCount) : DlpRedactionEvent :=
  let first := a.locations.headD ""
  ⟨a.rule, a.count,
    if a.locations.length = 1 then first else first ++ " (+" ++ toString (a.locations.length - 1) ++ " more)"⟩

def redactedToken (rule : Units) : Units := unitsOf "[REDACTED:" ++ rule ++ unitsOf "]"

def replaceSpans (content : Units) (spans : List (Labelled Units)) : Units :=
  replaceFromRight redactedToken content (mergeSpans false spans)

/-- The spans of the rules that redact, under the names of these. -/
def redactSpans (found : List (CompiledRule × List Span)) : List (Labelled Units) :=
  found.flatMap fun x => if x.1.action = .redact then x.2.map fun s => ⟨s, x.1.name⟩ else []

/-- The new content of a location, where a rule redacts something in it. -/
def redaction (s : Scanned) : Option Units :=
  let spans := redactSpans s.found
  if spans = [] then none else some (replaceSpans s.location.content spans)

def writeCell (grid : List (List Cell)) (r c : ℕ) (t : Units) : List (List Cell) :=
  grid.modify r fun row => row.set c (.string t)

def writeLocation (out : Option Units × Option (List (List Cell))) (s : Scanned) :
    Option Units × Option (List (List Cell)) :=
  match redaction s, s.location.coords with
  | none, _ => out
  | some t, none => (some t, out.2)
  | some t, some (r, c) => (out.1, out.2.map fun grid => writeCell grid r c t)

section Apply
variable (engine : RegExpEngine) (slow : Units → Bool) (elapsed : ℕ → ℕ → ℕ)

def scanPayload (rules : List CompiledRule) (locations : List ScanLocation) (text : Option Units)
    (cells : Option (List (List Cell))) : DlpResult :=
  match scanRules elapsed 0 rules (locations.map fun l => ⟨l, []⟩) ⟨[], none⟩ with
  | .error reason => .block reason []
  | .ok (scanned, tally) =>
    let redactions := tally.perRule.map eventOf
    match tally.blockedBy with
    | some rule => .block (unitsOf "dlp_blocked:" ++ rule) redactions
    | none =>
      let out := scanned.foldl writeLocation (text, cells)
      .allow out.1 out.2 redactions

def applyDlp (text : Option Units) (cells : Option (List (List Cell))) (dlpConfig : ConfigInput) : DlpResult :=
  let config := (dlpConfigSchema engine slow dlpConfig).getD defaultDlpConfig
  match collectLocations text cells with
  | .error reason => .block reason []
  | .ok locations =>
    let ssnActive := locations.any fun l => ssnContextPresent engine l.content
    match compileRules engine ssnActive config with
    | .error reason => .block reason []
    | .ok rules => scanPayload elapsed rules locations text cells

end Apply

end RemudaRmm.Security
