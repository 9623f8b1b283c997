import RemudaRmm.Foundation.Text
import RemudaRmm.Foundation.Calendar

/-! Rows of `audit_logs` and the canonical payload over which their content is hashed: columns joined by an unescaped
bar. It determines them but for the place of the bar between the action and the resource type. -/
namespace RemudaRmm.Audit
open Foundation List Option

structure Uuid where
  text : Text
  length_eq : text.length = 36
  plain : text.all (fun c => isHexDigit c || c == '-') = true
  deriving DecidableEq

abbrev Varchar (limit : ℕ) := {t : Text // t.length ≤ limit}

inductive ActorType where
  | user | apiKey | agent | system
  deriving DecidableEq

def ActorType.text : ActorType → Text
  | .user => "user".toList
  | .apiKey => "api_key".toList
  | .agent => "agent".toList
  | .system => "system".toList

inductive AuditResult where
  | success | failure | denied
  deriving DecidableEq

def AuditResult.text : AuditResult → Text
  | .success => "success".toList
  | .failure => "failure".toList
  | .denied => "denied".toList

inductive InitiatedBy where
  | manual | ai | automation | policy | schedule | agent | integration
  deriving DecidableEq

/-- Where a reader of a printed json value stands. -/
inductive Place where
  | outside | inside | escaped
  deriving DecidableEq

/-- Neither a bar nor a backslash stands outside the strings of a json value. -/
def Place.next : Place → Char → Option Place
  | .outside, c => if c = '"' then some .inside else if c = '|' ∨ c = '\\' then none else some .outside
  | .inside, c => some (if c = '"' then .outside else if c = '\\' then .escaped else .inside)
  | .escaped, _ => some .inside

def Quoted (t : Text) : Prop := t.foldlM Place.next .outside = some .outside
  deriving Decidable

/-- A `jsonb` value, by the text it is printed as. -/
structure Jsonb where
  text : Text
  some_char : text ≠ []
  quoted : Quoted text
  deriving DecidableEq

/-- A moment without a time zone, to the microsecond. -/
structure Moment where
  date : Civil
  valid : date.Valid
  hour : Fin 24
  (minute second : Fin 60)
  micros : Fin 1000000
  deriving DecidableEq

def Moment.rank (m : Moment) : ℤ :=
  m.date.rank * 86400000000 + (((m.hour * 60 + m.minute) * 60 + m.second) * 1000000 + m.micros : ℕ)

inductive Timestamp where
  | negInfinity
  | finite (moment : Moment)
  | infinity
  deriving DecidableEq

def Timestamp.le : Timestamp → Timestamp → Bool
  | .negInfinity, _ => true
  | _, .infinity => true
  | .finite a, .finite b => a.rank ≤ b.rank
  | _, _ => false

structure AuditRow where
  id : Uuid
  orgId : Option Uuid
  timestamp : Timestamp
  actorType : ActorType
  actorId : Uuid
  actorEmail : Option (Varchar 255)
  action : Varchar 100
  resourceType : Varchar 50
  resourceId : Option Uuid
  resourceName : Option (Varchar 255)
  details : Option Jsonb
  ipAddress : Option (Varchar 45)
  userAgent : Option Text
  result : AuditResult
  errorMessage : Option Text
  initiatedBy : Option InitiatedBy
  deriving DecidableEq

/-- `YYYY` prints a year before the first by its distance from it, without the era. -/
def printedYear (year : ℤ) : ℕ := if year ≤ 0 then (1 - year).toNat else year.toNat

def padded (width n : ℕ) : Text := padStart width (decimal n)

/-- `to_char(…, 'YYYY-MM-DD"T"HH24:MI:SS.US"Z"')`. -/
def Moment.toChar (m : Moment) : Text :=
  padded 4 (printedYear m.date.year) ++ '-' :: (padded 2 m.date.month ++ '-' :: (padded 2 m.date.day ++ 'T' ::
    (padded 2 m.hour ++ ':' :: (padded 2 m.minute ++ ':' :: (padded 2 m.second ++
      '.' :: (padded 6 m.micros ++ ['Z']))))))

/-- The column holds no zone: `AT TIME ZONE 'UTC'` makes an instant of it, which `to_char` prints at the time of the
session's zone. Infinite timestamps have no text. -/
def Timestamp.toChar (zone : Moment → Moment) : Timestamp → Option Text
  | .finite m => some (zone m).toChar
  | _ => none

def AuditRow.columns (r : AuditRow) : Text :=
  r.id.text ++ '|' :: (r.actorType.text ++ '|' :: (r.actorId.text ++ '|' :: (r.action.1 ++ '|' :: (r.resourceType.1 ++
    '|' :: ((r.resourceId.elim [] Uuid.text) ++ '|' :: (r.result.text ++ '|' :: r.details.elim [] Jsonb.text))))))

def auditLogCanonicalPayload (zone : Moment → Moment) (r : AuditRow) (prev : Option Text) : Option Text :=
  (r.timestamp.toChar zone).map fun ts => prev.getD [] ++ '|' :: (r.columns ++ '|' :: ts)

/-- The rows agree in the hashed columns, up to where the action ends and the resource type begins. -/
structure Alike (zone : Moment → Moment) (r s : AuditRow) : Prop where
  id : r.id = s.id
  actorType : r.actorType = s.actorType
  actorId : r.actorId = s.actorId
  subject : r.action.1 ++ '|' :: r.resourceType.1 = s.action.1 ++ '|' :: s.resourceType.1
  resourceId : r.resourceId = s.resourceId
  result : r.result = s.result
  details : r.details = s.details
  timestamp : r.timestamp.toChar zone = s.timestamp.toChar zone

instance (zone : Moment → Moment) (r s : AuditRow) : Decidable (Alike zone r s) :=
  decidable_of_iff (r.id = s.id ∧ r.actorType = s.actorType ∧ r.actorId = s.actorId ∧
      r.action.1 ++ '|' :: r.resourceType.1 = s.action.1 ++ '|' :: s.resourceType.1 ∧
      r.resourceId = s.resourceId ∧ r.result = s.result ∧ r.details = s.details ∧
      r.timestamp.toChar zone = s.timestamp.toChar zone)
    ⟨fun h => ⟨h.1, h.2.1, h.2.2.1, h.2.2.2.1, h.2.2.2.2.1, h.2.2.2.2.2.1, h.2.2.2.2.2.2.1, h.2.2.2.2.2.2.2⟩,
      fun h => ⟨h.id, h.actorType, h.actorId, h.subject, h.resourceId, h.result, h.details, h.timestamp⟩⟩

theorem bar_notin_uuid (u : Uuid) : '|' ∉ u.text := by
  intro member
  have plain := List.all_eq_true.mp u.plain _ member
  exact absurd plain (by decide)

theorem bar_notin_actorType (a : ActorType) : '|' ∉ a.text := by cases a <;> decide

theorem bar_notin_result (r : AuditResult) : '|' ∉ r.text := by cases r <;> decide

theorem bar_notin_resourceId (u : Option Uuid) : '|' ∉ u.elim [] Uuid.text := by
  cases u with
  | none => exact not_mem_nil
  | some u => exact bar_notin_uuid u

theorem notin_padded {sep : Char} (notDigit : sep.isDigit = false) (width n : ℕ) : sep ∉ padded width n := by
  intro member
  have digit := digits_padStart width (digits_decimal n) sep member
  rw [notDigit] at digit
  cases digit

theorem bar_notin_toChar (m : Moment) : '|' ∉ m.toChar := by
  simp only [Moment.toChar, mem_append, mem_cons, not_or, not_mem_nil, not_false_eq_true, and_true]
  have digits : ∀ width n, '|' ∉ padded width n := notin_padded (by decide)
  exact ⟨digits _ _, by decide, digits _ _, by decide, digits _ _, by decide, digits _ _, by decide, digits _ _,
    by decide, digits _ _, by decide, digits _ _, by decide⟩

theorem Uuid.text_injective {u v : Uuid} (same : u.text = v.text) : u = v := by
  cases u
  cases v
  cases same
  rfl

theorem Uuid.text_ne_nil (u : Uuid) : u.text ≠ [] := length_pos_iff.mp (by rw [u.length_eq]; decide)

theorem resourceId_injective {u v : Option Uuid} (same : u.elim [] Uuid.text = v.elim [] Uuid.text) : u = v := by
  cases u with
  | none =>
    cases v with
    | none => rfl
    | some v => exact absurd same.symm v.text_ne_nil
  | some u =>
    cases v with
    | none => exact absurd same u.text_ne_nil
    | some v => exact congrArg some (Uuid.text_injective same)

theorem ActorType.text_injective {a b : ActorType} (same : a.text = b.text) : a = b := by
  cases a <;> cases b <;> first | rfl | exact absurd same (by decide)

theorem AuditResult.text_injective {a b : AuditResult} (same : a.text = b.text) : a = b := by
  cases a <;> cases b <;> first | rfl | exact absurd same (by decide)

theorem details_injective {d e : Option Jsonb} (same : d.elim [] Jsonb.text = e.elim [] Jsonb.text) : d = e := by
  cases d with
  | none =>
    cases e with
    | none => rfl
    | some e => exact absurd same.symm e.some_char
  | some d =>
    cases e with
    | none => exact absurd same d.some_char
    | some e =>
      cases d
      cases e
      cases same
      rfl

theorem quoted_details (d : Option Jsonb) : Quoted (d.elim [] Jsonb.text) := by
  cases d with
  | none => rfl
  | some d => exact d.quoted

theorem quoted_excludes {p q : Place} (opposed : p = .outside ∧ q = .inside ∨ p = .inside ∧ q = .outside) {t : Text}
    (first : t.foldlM Place.next p = some .outside) : t.foldlM Place.next q ≠ some .outside := by
  induction t generalizing p q with
  | nil =>
    cases first
    rcases opposed with ⟨-, rfl⟩ | ⟨wrong, -⟩
    · exact fun same => absurd (some.inj same) (by decide)
    · cases wrong
  | cons c t ih =>
    rcases opposed with ⟨rfl, rfl⟩ | ⟨rfl, rfl⟩
    · by_cases quote : c = '"'
      · subst quote
        exact ih (.inr ⟨rfl, rfl⟩) first
      · by_cases refused : c = '|' ∨ c = '\\'
        · rw [List.foldlM_cons, Place.next, if_neg quote, if_pos refused] at first
          cases first
        · rw [List.foldlM_cons, Place.next, if_neg quote, if_neg refused] at first
          rw [List.foldlM_cons, Place.next, if_neg quote, if_neg (fun slash => refused (.inr slash))]
          exact ih (.inl ⟨rfl, rfl⟩) first
    · by_cases quote : c = '"'
      · subst quote
        exact ih (.inl ⟨rfl, rfl⟩) first
      · by_cases refused : c = '|' ∨ c = '\\'
        · rw [foldlM_cons, Place.next, if_neg quote, if_pos refused]
          intro ended
          cases ended
        · rw [foldlM_cons, Place.next, if_neg quote, if_neg (fun slash => refused (.inr slash))] at first
          rw [foldlM_cons, Place.next, if_neg quote, if_neg refused]
          exact ih (.inr ⟨rfl, rfl⟩) first

theorem bar_next {p q : Place} (moved : p.next '|' = some q) : q = .inside := by
  cases p with
  | outside => cases moved
  | inside | escaped => exact (some.inj moved).symm

theorem quoted_extension {w d e : Text} (outer : Quoted d) (inner : Quoted e) (same : '|' :: d = w ++ '|' :: e) :
    w = [] := by
  cases w with
  | nil => rfl
  | cons c w =>
    have split : d = w ++ '|' :: e := (List.cons.inj same).2
    rw [Quoted, split, foldlM_append] at outer
    obtain ⟨p, -, rest⟩ := bind_eq_some_iff.mp outer
    rw [foldlM_cons] at rest
    obtain ⟨q, moved, ended⟩ := bind_eq_some_iff.mp rest
    rw [bar_next moved] at ended
    exact absurd ended (quoted_excludes (.inl ⟨rfl, rfl⟩) inner)

theorem append_quoted_inj {a b d e : Text} (first : Quoted d) (second : Quoted e)
    (same : a ++ '|' :: d = b ++ '|' :: e) : a = b ∧ d = e := by
  rcases append_eq_append_iff.mp same with ⟨w, rfl, rest⟩ | ⟨w, rfl, rest⟩
  · obtain rfl := quoted_extension first second rest
    exact ⟨(append_nil a).symm, (List.cons.inj rest).2⟩
  · obtain rfl := quoted_extension second first rest
    exact ⟨append_nil b, (List.cons.inj rest).2.symm⟩

theorem columns_eq_iff (r s : AuditRow) :
    r.columns = s.columns ↔ r.id = s.id ∧ r.actorType = s.actorType ∧ r.actorId = s.actorId ∧
      r.action.1 ++ '|' :: r.resourceType.1 = s.action.1 ++ '|' :: s.resourceType.1 ∧
      r.resourceId = s.resourceId ∧ r.result = s.result ∧ r.details = s.details := by
  constructor
  · intro same
    obtain ⟨id, same⟩ := append_sep_inj (bar_notin_uuid r.id) (bar_notin_uuid s.id) same
    obtain ⟨actorType, same⟩ := append_sep_inj (bar_notin_actorType _) (bar_notin_actorType _) same
    obtain ⟨actorId, same⟩ := append_sep_inj (bar_notin_uuid _) (bar_notin_uuid _) same
    have joined : (((r.action.1 ++ '|' :: r.resourceType.1) ++ '|' :: r.resourceId.elim [] Uuid.text) ++
          '|' :: r.result.text) ++ '|' :: r.details.elim [] Jsonb.text =
        (((s.action.1 ++ '|' :: s.resourceType.1) ++ '|' :: s.resourceId.elim [] Uuid.text) ++ '|' :: s.result.text) ++
          '|' :: s.details.elim [] Jsonb.text := by
      simpa only [append_assoc, cons_append] using same
    obtain ⟨joined, details⟩ := append_quoted_inj (quoted_details _) (quoted_details _) joined
    obtain ⟨joined, result⟩ := append_last_sep_inj (bar_notin_result _) (bar_notin_result _) joined
    obtain ⟨subject, resourceId⟩ := append_last_sep_inj (bar_notin_resourceId _) (bar_notin_resourceId _) joined
    exact ⟨Uuid.text_injective id, ActorType.text_injective actorType, Uuid.text_injective actorId, subject,
      resourceId_injective resourceId, AuditResult.text_injective result, details_injective details⟩
  · rintro ⟨id, actorType, actorId, subject, resourceId, result, details⟩
    have joined : ∀ rest, r.action.1 ++ '|' :: (r.resourceType.1 ++ rest) =
        s.action.1 ++ '|' :: (s.resourceType.1 ++ rest) := by
      intro rest
      simpa only [append_assoc, cons_append] using congrArg (· ++ rest) subject
    simp only [AuditRow.columns, joined, id, actorType, actorId, resourceId, result, details]

theorem canonicalPayload_eq_iff {zone : Moment → Moment} {r s : AuditRow} {t : Text}
    (printed : auditLogCanonicalPayload zone s none = some t) :
    auditLogCanonicalPayload zone r none = some t ↔ Alike zone r s := by
  obtain ⟨ts, found, rfl⟩ := map_eq_some_iff.mp printed
  constructor
  · intro same
    obtain ⟨us, other, joined⟩ := map_eq_some_iff.mp same
    have apart : ∀ {row : AuditRow} {text : Text}, row.timestamp.toChar zone = some text → '|' ∉ text := by
      intro row text shown
      cases moment : row.timestamp with
      | finite m =>
        rw [moment] at shown
        exact some.inj shown ▸ bar_notin_toChar (zone m)
      | negInfinity | infinity =>
        rw [moment] at shown
        cases shown
    obtain ⟨columns, rfl⟩ := append_last_sep_inj (apart other) (apart found) (List.cons.inj joined).2
    obtain ⟨id, actorType, actorId, subject, resourceId, result, details⟩ := (columns_eq_iff r s).mp columns
    exact ⟨id, actorType, actorId, subject, resourceId, result, details, other.trans found.symm⟩
  · intro alike
    have columns := (columns_eq_iff r s).mpr ⟨alike.id, alike.actorType, alike.actorId, alike.subject, alike.resourceId,
      alike.result, alike.details⟩
    rw [auditLogCanonicalPayload, alike.timestamp, found, columns]
    rfl

end RemudaRmm.Audit
