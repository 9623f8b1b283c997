import RemudaRmm.Foundation.Encodings
import RemudaRmm.Foundation.Spans

/-! The built-in detectors of the redaction of prompts (`clientAiDlpDetectors.ts`). How a regular expression is matched is
a parameter: it gives the successive matches of an expression in a string, as spans of code units. -/
namespace RemudaRmm.Security
open Foundation List

structure RegExp where
  source : Units
  flags : String
  deriving DecidableEq

def unitsOf (s : String) : Units := units s.toList

def regExp (source flags : String) : RegExp := ⟨unitsOf source, flags⟩

def cardCandidate : RegExp := regExp "(?<!\\d)(?:\\d[ -]?)\x7b12,18\x7d\\d(?!\\d)" "g"

def ssnDashed : RegExp := regExp "\\b(\\d\x7b3\x7d)-(\\d\x7b2\x7d)-(\\d\x7b4\x7d)\\b" "g"

def ssnBare : RegExp := regExp "(?<![\\d.-])\\d\x7b9\x7d(?![\\d.-])" "g"

def ssnContext : RegExp := regExp "\\bssns?\\b|social\\s*security" "i"

def ibanCandidate : RegExp := regExp "\\b[A-Z]\x7b2\x7d\\d\x7b2\x7d[A-Z0-9]\x7b11,30\x7d\\b" "g"

def apiKeyPatterns : List RegExp :=
  [regExp "\\bsk-(?:ant-|proj-)?[A-Za-z0-9_-]\x7b16,\x7d\\b" "g",
   regExp "\\b(?:ghp|gho|ghu|ghs|ghr)_[A-Za-z0-9_]\x7b16,\x7d\\b" "g",
   regExp "\\bgithub_pat_[A-Za-z0-9_]\x7b16,\x7d\\b" "g",
   regExp "\\bAKIA[0-9A-Z]\x7b16\x7d\\b" "g",
   regExp "\\beyJ[A-Za-z0-9_-]\x7b20,\x7d\\.[A-Za-z0-9_-]\x7b20,\x7d\\.[A-Za-z0-9_-]\x7b10,\x7d\\b" "g",
   regExp "\\bbrz_[0-9a-f]\x7b32,64\x7d\\b" "g"]

def hexBlob : RegExp := regExp "\\b[0-9a-f]\x7b32,128\x7d\\b" "g"

def base64Blob : RegExp :=
  regExp "(?<![A-Za-z0-9+/=])[A-Za-z0-9+/]\x7b32,256\x7d=\x7b0,2\x7d(?![A-Za-z0-9+/=])" "g"

def emailPattern : RegExp := regExp "\\b[A-Za-z0-9._%+-]+@[A-Za-z0-9.-]+\\.[A-Za-z]\x7b2,\x7d\\b" "g"

def phonePattern : RegExp :=
  regExp ("(?<![\\d.-])(?:\\+\\d\x7b1,3\x7d[ .-]?)?(?:\\(\\d\x7b3\x7d\\)[ .-]?|\\d\x7b3\x7d[ .-])" ++
    "\\d\x7b3\x7d[ .-]?\\d\x7b4\x7d(?![\\d-])") "g"

def builtinPatterns : List RegExp :=
  [cardCandidate, ssnDashed, ssnBare, ibanCandidate] ++ apiKeyPatterns ++ [hexBlob, base64Blob, emailPattern, phonePattern]

/-- What the platform makes of an expression: nothing where it does not compile, else its successive matches in a
string. A match lies in the string, and none of the built-in expressions matches the empty string. -/
structure RegExpEngine where
  compile : RegExp → Option (Units → List Span)
  within : ∀ re f t m, compile re = some f → m ∈ f t → m.start ≤ m.stop ∧ m.stop ≤ t.length
  filled : ∀ re ∈ builtinPatterns, ∀ f t m, compile re = some f → m ∈ f t → m.Filled

def unitBetween (low high : Char) (u : UInt16) : Bool := low.toNat ≤ u.toNat && u.toNat ≤ high.toNat

def isDigitUnit : UInt16 → Bool := unitBetween '0' '9'

def digitOf (u : UInt16) : ℕ := u.toNat - 48

/-- The digits from the right, of which every second one is doubled. -/
def luhnSum : Bool → Units → Option ℕ
  | _, [] => some 0
  | double, u :: rest =>
    if isDigitUnit u then
      let d := digitOf u
      let added := if double then (if 9 < 2 * d then 2 * d - 9 else 2 * d) else d
      (luhnSum (!double) rest).map (added + ·)
    else none

def luhnCheck (digits : Units) : Bool :=
  if digits.length < 13 || 19 < digits.length then false
  else
    match luhnSum false digits.reverse with
    | some sum => sum % 10 == 0
    | none => false

def plausibleSsn (area group serial : Units) : Bool :=
  let a := area.foldl (fun n u => 10 * n + digitOf u) 0
  if a == 0 || a == 666 || 900 ≤ a then false
  else if group == unitsOf "00" then false
  else if serial == unitsOf "0000" then false
  else true

def ibanDigits (u : UInt16) : List ℕ :=
  if unitBetween 'A' 'Z' u then [(u.toNat - 55) / 10, (u.toNat - 55) % 10] else [digitOf u]

def ibanMod97 (candidate : Units) : Bool :=
  let rearranged := candidate.drop 4 ++ candidate.take 4
  if rearranged.all fun u => isDigitUnit u || unitBetween 'A' 'Z' u then
    (rearranged.flatMap ibanDigits).foldl (fun remainder digit => (remainder * 10 + digit) % 97) 0 == 1
  else false

def slice (t : Units) (start stop : ℕ) : Units := (t.take stop).drop start

def matched (t : Units) (m : Span) : Units := slice t m.start m.stop

def mergeMatches (spans : List Span) : List Span :=
  (mergeSpans true (spans.map fun s => (⟨s, ()⟩ : Labelled Unit))).map Labelled.toSpan

section Detect
variable (engine : RegExpEngine)

def spansOf (t : Units) (re : RegExp) : List Span :=
  match engine.compile re with
  | some f => f t
  | none => []

def ssnContextPresent (t : Units) : Bool := !(spansOf engine t ssnContext).isEmpty

def detectCreditCard (t : Units) : List Span :=
  (spansOf engine t cardCandidate).filter fun m =>
    let digits := (matched t m).filter fun u => u != 32 && u != 45
    13 ≤ digits.length && digits.length ≤ 19 && luhnCheck digits

def detectSsn (t : Units) (bareContextActive : Bool) : List Span :=
  let dashed := (spansOf engine t ssnDashed).filter fun m =>
    let v := matched t m
    plausibleSsn (slice v 0 3) (slice v 4 6) (slice v 7 11)
  let bare := (spansOf engine t ssnBare).filter fun m =>
    let v := matched t m
    plausibleSsn (slice v 0 3) (slice v 3 5) (v.drop 5)
  mergeMatches (dashed ++ if bareContextActive then bare else [])

def detectIban (t : Units) : List Span := (spansOf engine t ibanCandidate).filter fun m => ibanMod97 (matched t m)

def detectApiKey (t : Units) : List Span :=
  let hex := (spansOf engine t hexBlob).filter fun m =>
    (matched t m).any isDigitUnit && (matched t m).any (unitBetween 'a' 'f')
  let base64 := (spansOf engine t base64Blob).filter fun m =>
    (matched t m).any (unitBetween 'a' 'z') && (matched t m).any (unitBetween 'A' 'Z') && (matched t m).any isDigitUnit
  mergeMatches (apiKeyPatterns.flatMap (spansOf engine t) ++ hex ++ base64)

def detectEmail (t : Units) : List Span := spansOf engine t emailPattern

def detectPhone (t : Units) : List Span := spansOf engine t phonePattern

def Proper (t : Units) (spans : List Span) : Prop := ∀ s ∈ spans, s.Filled ∧ s.stop ≤ t.length

variable {engine} {t : Units}

theorem Proper.filter {spans : List Span} (proper : Proper t spans) (keep : Span → Bool) :
    Proper t (spans.filter keep) := fun s member => proper s (mem_of_mem_filter member)

theorem Proper.append {first second : List Span} (one : Proper t first) (two : Proper t second) :
    Proper t (first ++ second) := by
  intro s member
  rcases mem_append.mp member with left | right
  · exact one s left
  · exact two s right

theorem proper_mergeMatches {spans : List Span} (proper : Proper t spans) : Proper t (mergeMatches spans) := by
  intro s member
  obtain ⟨m, merged, rfl⟩ := List.mem_map.mp member
  refine mergeSpans_within (fun b given => ?_) m merged
  obtain ⟨a, found, rfl⟩ := List.mem_map.mp given
  exact proper a found

theorem spansOf_within {re : RegExp} : ∀ s ∈ spansOf engine t re, s.start ≤ s.stop ∧ s.stop ≤ t.length := by
  intro s member
  unfold spansOf at member
  split at member
  next f compiled => exact engine.within re f t s compiled member
  · exact absurd member not_mem_nil

theorem proper_spansOf {re : RegExp} (builtin : re ∈ builtinPatterns) : Proper t (spansOf engine t re) := by
  intro s member
  refine ⟨?_, (spansOf_within s member).2⟩
  unfold spansOf at member
  split at member
  next f compiled => exact engine.filled re builtin f t s compiled member
  · exact absurd member not_mem_nil

theorem proper_detectSsn (active : Bool) : Proper t (detectSsn engine t active) := by
  refine proper_mergeMatches (Proper.append ((proper_spansOf (by simp [builtinPatterns])).filter _) ?_)
  split_ifs
  · exact (proper_spansOf (by simp [builtinPatterns])).filter _
  · exact fun _ member => absurd member not_mem_nil

theorem proper_detectApiKey : Proper t (detectApiKey engine t) := by
  refine proper_mergeMatches (Proper.append (Proper.append ?_ ((proper_spansOf ?_).filter _))
    ((proper_spansOf ?_).filter _))
  · intro s member
    obtain ⟨re, pattern, found⟩ := mem_flatMap.mp member
    exact proper_spansOf (by simp [builtinPatterns, pattern]) s found
  · simp [builtinPatterns]
  · simp [builtinPatterns]

end Detect

end RemudaRmm.Security
