import Mathlib.Data.List.Forall2
import RemudaRmm.Foundation.Text

/-! Conditions in SQL as lists of lexemes. `OR` binds weaker than `AND`, and `AND` weaker than `NOT`; the `AND` of a
`BETWEEN` is part of its predicate, and so is everything in brackets that are not around a whole condition. A valuation
with three values gives the predicates. -/
namespace RemudaRmm.Foundation
open List

inductive Truth where
  | no
  | unknown
  | yes
  deriving DecidableEq

namespace Truth

def and : Truth → Truth → Truth
  | no, _ => no
  | _, no => no
  | yes, yes => yes
  | _, _ => unknown

def or : Truth → Truth → Truth
  | yes, _ => yes
  | _, yes => yes
  | no, no => no
  | _, _ => unknown

def not : Truth → Truth
  | no => yes
  | unknown => unknown
  | yes => no

def all (values : List Truth) : Truth := values.foldr and yes

def any (values : List Truth) : Truth := values.foldr or no

def ofProp (p : Prop) [Decidable p] : Truth := if p then yes else no

theorem and_assoc (a b c : Truth) : and (and a b) c = and a (and b c) := by
  cases a <;> cases b <;> cases c <;> rfl

theorem yes_and (a : Truth) : and yes a = a := by
  cases a <;> rfl

theorem all_append (first second : List Truth) : all (first ++ second) = and (all first) (all second) := by
  induction first with
  | nil => exact (yes_and _).symm
  | cons a first ih =>
    rw [cons_append]
    show and a (all (first ++ second)) = and (and a (all first)) (all second)
    rw [ih, and_assoc]

theorem and_eq_yes {a b : Truth} : and a b = yes ↔ a = yes ∧ b = yes := by
  cases a <;> cases b <;> decide

theorem ofProp_eq_yes {p : Prop} [Decidable p] : ofProp p = yes ↔ p := by
  simp [ofProp]

end Truth

/-- The lexemes that structure a condition; the rest are operands, operators and other words. -/
inductive Lexeme (α : Type) where
  | and
  | or
  | not
  | between
  | select
  | yes
  | no
  | left
  | right
  | operand (a : α)
  deriving DecidableEq

/-- How many brackets are open, and whether a `BETWEEN` outside them waits for its `AND`. -/
structure Scan where
  depth : ℕ
  awaiting : Bool

def Scan.start : Scan := ⟨0, false⟩

section Condition
variable {α : Type}

def Scan.step (s : Scan) : Lexeme α → Scan
  | .left => ⟨s.depth + 1, s.awaiting⟩
  | .right => ⟨s.depth - 1, s.awaiting⟩
  | .between => if s.depth = 0 then ⟨0, true⟩ else s
  | .and => if s.depth = 0 then ⟨0, false⟩ else s
  | _ => s

def endsDisjunct (s : Scan) : Lexeme α → Bool
  | .or => s.depth == 0
  | _ => false

def endsConjunct (s : Scan) : Lexeme α → Bool
  | .and => s.depth == 0 && !s.awaiting
  | _ => false

def splitWhen (ends : Scan → Lexeme α → Bool) : Scan → List (Lexeme α) → List (List (Lexeme α))
  | _, [] => [[]]
  | s, t :: rest =>
    if ends s t then [] :: splitWhen ends .start rest else (splitWhen ends (s.step t) rest).modifyHead (t :: ·)

def balanced : ℕ → List (Lexeme α) → Bool
  | depth, [] => depth == 0
  | depth, .left :: rest => balanced (depth + 1) rest
  | depth, .right :: rest => 0 < depth && balanced (depth - 1) rest
  | depth, _ :: rest => balanced depth rest

def unwrap : List (Lexeme α) → Option (List (Lexeme α))
  | .left :: rest =>
    match rest.getLast? with
    | some .right => if balanced 0 rest.dropLast then some rest.dropLast else none
    | _ => none
  | _ => none

/-- The value of a part without `OR` and `AND`, given that of what it is made of. -/
def conjunctValue (predicate : List (Lexeme α) → Truth) (inner : List (Lexeme α) → Option Truth) :
    List (Lexeme α) → Option Truth
  | [] => none
  | .not :: rest => (inner rest).map Truth.not
  | [.yes] => some .yes
  | [.no] => some .no
  | t =>
    match unwrap t with
    | none => some (predicate t)
    | some (.select :: _) => some (predicate t)
    | some content => inner content

def valueWithin (predicate : List (Lexeme α) → Truth) : ℕ → List (Lexeme α) → Option Truth
  | 0, _ => none
  | fuel + 1, t =>
    if balanced 0 t then
      ((splitWhen endsDisjunct .start t).mapM fun d =>
        ((splitWhen endsConjunct .start d).mapM (conjunctValue predicate (valueWithin predicate fuel))).map
          Truth.all).map Truth.any
    else none

def conditionValue (predicate : List (Lexeme α) → Truth) (t : List (Lexeme α)) : Option Truth :=
  valueWithin predicate (t.length + 1) t

theorem mapM_congr_mem {β γ : Type} {f g : β → Option γ} {l : List β} (same : ∀ b ∈ l, f b = g b) :
    l.mapM f = l.mapM g := by
  induction l with
  | nil => rfl
  | cons b l ih =>
    rw [forall_mem_cons] at same
    rw [mapM_cons, mapM_cons, same.1, ih same.2]

section Value
variable {ends : Scan → Lexeme α → Bool} {predicate : List (Lexeme α) → Truth}

theorem splitWhen_ne_nil (s : Scan) (t : List (Lexeme α)) : splitWhen ends s t ≠ [] := by
  induction t generalizing s with
  | nil => exact cons_ne_nil _ _
  | cons x t ih =>
    rw [splitWhen]
    split_ifs
    · exact cons_ne_nil _ _
    · exact fun empty => ih (s.step x) (modifyHead_eq_nil_iff.mp empty)

theorem length_splitWhen {s : Scan} {t part : List (Lexeme α)} (member : part ∈ splitWhen ends s t) :
    part.length ≤ t.length := by
  induction t generalizing s part with
  | nil =>
    rw [mem_singleton.mp member]
  | cons x t ih =>
    rw [splitWhen] at member
    split_ifs at member
    · rcases mem_cons.mp member with rfl | later
      · exact Nat.zero_le _
      · exact Nat.le_succ_of_le (ih later)
    · obtain ⟨first, others, parts⟩ := exists_cons_of_ne_nil (splitWhen_ne_nil (s.step x) t)
      rw [parts, modifyHead_cons] at member
      rcases mem_cons.mp member with rfl | later
      · exact Nat.succ_le_succ (ih (parts ▸ mem_cons_self))
      · exact Nat.le_succ_of_le (ih (parts ▸ mem_cons_of_mem first later))

theorem length_unwrap {t content : List (Lexeme α)} (unwrapped : unwrap t = some content) :
    content.length < t.length := by
  unfold unwrap at unwrapped
  split at unwrapped
  · split at unwrapped
    · split_ifs at unwrapped
      cases unwrapped
      rw [length_dropLast, length_cons]
      omega
    · cases unwrapped
  · cases unwrapped

theorem conjunctValue_congr {one two : List (Lexeme α) → Option Truth} {t : List (Lexeme α)}
    (same : ∀ u : List (Lexeme α), u.length < t.length → one u = two u) :
    conjunctValue predicate one t = conjunctValue predicate two t := by
  unfold conjunctValue
  split
  · rfl
  · rw [same _ (Nat.lt_succ_self _)]
  · rfl
  · rfl
  · split
    · rfl
    · rfl
    next content _ unwrapped => exact same content (length_unwrap unwrapped)

theorem valueWithin_congr {n m : ℕ} {t : List (Lexeme α)} (first : t.length < n) (second : t.length < m) :
    valueWithin predicate n t = valueWithin predicate m t := by
  induction n generalizing m t with
  | zero => exact absurd first (Nat.not_lt_zero _)
  | succ n ih =>
    cases m with
    | zero => exact absurd second (Nat.not_lt_zero _)
    | succ m =>
      have inner : ∀ d ∈ splitWhen endsDisjunct .start t, ∀ c ∈ splitWhen endsConjunct .start d,
          conjunctValue predicate (valueWithin predicate n) c =
            conjunctValue predicate (valueWithin predicate m) c := by
        intro d disjunct c conjunct
        have short := Nat.le_trans (length_splitWhen conjunct) (length_splitWhen disjunct)
        exact conjunctValue_congr fun u less => ih (by omega) (by omega)
      rw [valueWithin, valueWithin]
      congr 2
      refine mapM_congr_mem fun d disjunct => ?_
      rw [mapM_congr_mem fun c conjunct => inner d disjunct c conjunct]

theorem conditionValue_eq (t : List (Lexeme α)) : conditionValue predicate t = if balanced 0 t then
        ((splitWhen endsDisjunct .start t).mapM fun d =>
          ((splitWhen endsConjunct .start d).mapM (conjunctValue predicate (conditionValue predicate))).map
            Truth.all).map Truth.any
      else none := by
  rw [conditionValue, valueWithin]
  split_ifs
  · congr 1
    refine mapM_congr_mem fun d disjunct => ?_
    congr 1
    refine mapM_congr_mem fun c conjunct => conjunctValue_congr fun u less => ?_
    have short := Nat.le_trans (length_splitWhen conjunct) (length_splitWhen disjunct)
    exact valueWithin_congr (by omega) (Nat.lt_succ_self _)
  · rfl

end Value

def Scan.legal (s : Scan) : Lexeme α → Bool
  | .right => 0 < s.depth
  | .or => 0 < s.depth
  | .and => 0 < s.depth || s.awaiting
  | _ => true

def advance : Scan → List (Lexeme α) → Option Scan
  | s, [] => some s
  | s, x :: rest => if s.legal x then advance (s.step x) rest else none

section Advance
variable {s next : Scan} {t rest : List (Lexeme α)}

theorem advance_append : advance s (t ++ rest) = (advance s t).bind (advance · rest) := by
  induction t generalizing s with
  | nil => rfl
  | cons x t ih =>
    rw [cons_append, advance, advance]
    split_ifs
    · exact ih
    · rfl

theorem not_ends_of_legal {x : Lexeme α} (legal : s.legal x = true) :
    endsConjunct s x = false ∧ endsDisjunct s x = false := by
  obtain ⟨depth, awaiting⟩ := s
  cases x with
  | and => cases depth <;> cases awaiting <;> simp_all [endsConjunct, endsDisjunct, Scan.legal]
  | or => cases depth <;> simp_all [endsConjunct, endsDisjunct, Scan.legal]
  | _ => exact ⟨rfl, rfl⟩

theorem splitWhen_advance {ends : Scan → Lexeme α → Bool}
    (within : ∀ (s : Scan) (x : Lexeme α), s.legal x = true → ends s x = false) (advanced : advance s t = some next) :
    splitWhen ends s (t ++ rest) = (splitWhen ends next rest).modifyHead (t ++ ·) := by
  induction t generalizing s with
  | nil =>
    cases advanced
    obtain ⟨first, others, parts⟩ := exists_cons_of_ne_nil (@splitWhen_ne_nil α ends next rest)
    rw [nil_append, parts]
    rfl
  | cons x t ih =>
    rw [advance] at advanced
    split_ifs at advanced with legal
    rw [cons_append, splitWhen, within s x legal, if_neg (by decide), ih advanced, modifyHead_modifyHead]
    rfl

theorem step_between_depth : (s.step (.between : Lexeme α)).depth = s.depth := by
  rw [Scan.step]
  split_ifs with outside
  · exact outside.symm
  · rfl

theorem step_and_depth : (s.step (.and : Lexeme α)).depth = s.depth := by
  rw [Scan.step]
  split_ifs with outside
  · exact outside.symm
  · rfl

theorem balanced_advance (advanced : advance s t = some next) :
    balanced s.depth (t ++ rest) = balanced next.depth rest := by
  induction t generalizing s with
  | nil =>
    cases advanced
    rfl
  | cons x t ih =>
    rw [advance] at advanced
    split_ifs at advanced with legal
    have later := ih advanced
    cases x with
    | right =>
      have positive : decide (0 < s.depth) = true := legal
      rw [cons_append, balanced, positive, Bool.true_and]
      exact later
    | between =>
      rw [step_between_depth] at later
      exact later
    | and =>
      rw [step_and_depth] at later
      exact later
    | _ => exact later

theorem advance_lift (advanced : advance s t = some next) (awaiting : Bool) :
    advance ⟨s.depth + 1, awaiting⟩ t = some ⟨next.depth + 1, awaiting⟩ := by
  induction t generalizing s with
  | nil =>
    cases advanced
    rfl
  | cons x t ih =>
    rw [advance] at advanced
    split_ifs at advanced with legal
    have later := ih advanced
    cases x with
    | right =>
      have positive : 0 < s.depth := of_decide_eq_true legal
      have level : (s.step (.right : Lexeme α)).depth + 1 = s.depth := Nat.sub_add_cancel positive
      rw [level] at later
      exact later
    | between =>
      rw [step_between_depth] at later
      exact later
    | and =>
      rw [step_and_depth] at later
      exact later
    | _ => exact later

end Advance

/-- A part of a conjunction: nothing in it ends a part, and it does not begin like a query. -/
structure Elementary (t : List (Lexeme α)) : Prop where
  whole : advance .start t = some .start
  filled : t ≠ []
  unselected : t.head? ≠ some .select

/-- Neither an `OR` nor a bracket of what follows ends in it. -/
structure Stays (t : List (Lexeme α)) : Prop where
  split : ∀ rest, splitWhen endsDisjunct .start (t ++ rest) = (splitWhen endsDisjunct .start rest).modifyHead (t ++ ·)
  balanced : ∀ rest, balanced 0 (t ++ rest) = balanced 0 rest
  inside : advance ⟨1, false⟩ t = some ⟨1, false⟩

section Fragments
variable {a b t : List (Lexeme α)} {ts : List (List (Lexeme α))}

theorem Elementary.stays (elementary : Elementary t) : Stays t where
  split := fun _ => splitWhen_advance (fun _ _ legal => (not_ends_of_legal legal).2) elementary.whole
  balanced := fun _ => balanced_advance elementary.whole
  inside := advance_lift elementary.whole false

theorem Stays.and (first : Stays a) (second : Stays b) : Stays (a ++ .and :: b) where
  split := by
    intro rest
    have apart : endsDisjunct .start (.and : Lexeme α) = false := rfl
    rw [append_assoc, first.split, cons_append, splitWhen, apart, if_neg (by decide)]
    show List.modifyHead _ (List.modifyHead _ (splitWhen endsDisjunct .start (b ++ rest))) = _
    rw [second.split, modifyHead_modifyHead, modifyHead_modifyHead]
    simp only [Function.comp_def, append_assoc, cons_append]
  balanced := by
    intro rest
    rw [append_assoc, first.balanced]
    exact second.balanced rest
  inside := by
    rw [advance_append, first.inside]
    exact second.inside

theorem splitWhen_intercalate {ends : Scan → Lexeme α → Bool} {sep : Lexeme α} (separates : ends .start sep = true)
    (stays : ∀ t ∈ ts, ∀ rest, splitWhen ends .start (t ++ rest) = (splitWhen ends .start rest).modifyHead (t ++ ·))
    (some_part : ts ≠ []) : splitWhen ends .start ([sep].intercalate ts) = ts := by
  induction ts with
  | nil => exact absurd rfl some_part
  | cons t ts ih =>
    rw [forall_mem_cons] at stays
    cases ts with
    | nil =>
      have whole := stays.1 []
      rw [append_nil] at whole
      rw [intercalate_singleton, whole]
      exact congrArg (fun u => [u]) (append_nil t)
    | cons u ts =>
      rw [intercalate_cons_cons, append_assoc, stays.1, singleton_append, splitWhen, separates,
        if_pos rfl, ih stays.2 (cons_ne_nil _ _)]
      exact congrArg (· :: u :: ts) (append_nil t)

end Fragments

section Conjunctions
variable {predicate : List (Lexeme α) → Truth}

/-- Parts with `AND` between them, and their values. -/
structure Conjunction (predicate : List (Lexeme α) → Truth) (t : List (Lexeme α)) (v : Truth) : Prop where
  parts : ∃ cs : List (List (Lexeme α)), ∃ vs : List Truth, cs ≠ [] ∧ t = [.and].intercalate cs ∧
    (∀ c ∈ cs, Elementary c) ∧ cs.map (conjunctValue predicate (conditionValue predicate)) = vs.map some ∧
    v = Truth.all vs

variable {a b t : List (Lexeme α)} {v w : Truth} {ts : List (List (Lexeme α))} {vs : List Truth}

theorem Conjunction.single (elementary : Elementary t)
    (value : conjunctValue predicate (conditionValue predicate) t = some v) : Conjunction predicate t v := by
  refine ⟨[t], [v], cons_ne_nil _ _, intercalate_singleton.symm, forall_mem_singleton.mpr elementary, ?_, ?_⟩
  · rw [map_singleton, value]
    rfl
  · cases v <;> rfl

theorem Conjunction.and (first : Conjunction predicate a v) (second : Conjunction predicate b w) :
    Conjunction predicate (a ++ .and :: b) (v.and w) := by
  obtain ⟨cs, vs, some_c, rfl, elementary_c, values_c, rfl⟩ := first.parts
  obtain ⟨ds, ws, some_d, rfl, elementary_d, values_d, rfl⟩ := second.parts
  refine ⟨cs ++ ds, vs ++ ws, append_ne_nil_of_left_ne_nil some_c _, (intercalate_append some_c some_d).symm,
    ?_, ?_, (Truth.all_append vs ws).symm⟩
  · intro c member
    exact (mem_append.mp member).elim (elementary_c c) (elementary_d c)
  · rw [map_append, map_append, values_c, values_d]

theorem Stays.intercalate (stays : ∀ t ∈ ts, Stays t) (some_part : ts ≠ []) : Stays ([.and].intercalate ts) := by
  induction ts with
  | nil => exact absurd rfl some_part
  | cons t ts ih =>
    rw [forall_mem_cons] at stays
    cases ts with
    | nil =>
      rw [intercalate_singleton]
      exact stays.1
    | cons u ts =>
      rw [intercalate_cons_cons, append_assoc]
      exact stays.1.and (ih stays.2 (cons_ne_nil _ _))

theorem Conjunction.stays (conjunction : Conjunction predicate t v) : Stays t := by
  obtain ⟨cs, -, some_part, rfl, elementary, -⟩ := conjunction.parts
  exact Stays.intercalate (fun c member => (elementary c member).stays) some_part

theorem mapM_eq_some {β γ : Type} {f : β → Option γ} {l : List β} {values : List γ} (same : l.map f = values.map some) :
    l.mapM f = some values := by
  induction l generalizing values with
  | nil =>
    cases values with
    | nil => rfl
    | cons value values => cases same
  | cons b l ih =>
    cases values with
    | nil => cases same
    | cons value values =>
      obtain ⟨first, others⟩ := List.cons.inj same
      rw [mapM_cons, first, ih others]
      rfl

theorem Conjunction.disjunct (conjunction : Conjunction predicate t v) :
    ((splitWhen endsConjunct .start t).mapM (conjunctValue predicate (conditionValue predicate))).map Truth.all =
      some v := by
  obtain ⟨cs, vs, some_part, rfl, elementary, values, rfl⟩ := conjunction.parts
  rw [splitWhen_intercalate rfl (fun c member rest => splitWhen_advance (fun _ _ legal => (not_ends_of_legal legal).1)
    (elementary c member).whole) some_part, mapM_eq_some values]
  rfl

/-- With `OR` between them, parts that stay are balanced, also inside brackets. -/
theorem balanced_or (stays : ∀ t ∈ ts, Stays t) (some_part : ts ≠ []) :
    balanced 0 ([.or].intercalate ts) = true ∧ advance ⟨1, false⟩ ([.or].intercalate ts) = some ⟨1, false⟩ := by
  induction ts with
  | nil => exact absurd rfl some_part
  | cons t ts ih =>
    rw [forall_mem_cons] at stays
    cases ts with
    | nil =>
      have whole := stays.1.balanced []
      rw [append_nil] at whole
      rw [intercalate_singleton, whole]
      exact ⟨rfl, stays.1.inside⟩
    | cons u ts =>
      obtain ⟨closed, inside⟩ := ih stays.2 (cons_ne_nil _ _)
      rw [intercalate_cons_cons, append_assoc, stays.1.balanced, advance_append, stays.1.inside]
      exact ⟨closed, inside⟩

theorem conjunctions_stay (conjunctions : List.Forall₂ (Conjunction predicate) ts vs) : ∀ t ∈ ts, Stays t := by
  induction conjunctions with
  | nil => exact fun t member => absurd member not_mem_nil
  | cons first others ih => exact forall_mem_cons.mpr ⟨first.stays, ih⟩

theorem conditionValue_or (conjunctions : List.Forall₂ (Conjunction predicate) ts vs) (some_part : ts ≠ []) :
    conditionValue predicate ([.or].intercalate ts) = some (Truth.any vs) := by
  have each := conjunctions_stay conjunctions
  have values : ts.map (fun d =>
      ((splitWhen endsConjunct .start d).mapM (conjunctValue predicate (conditionValue predicate))).map Truth.all) =
        vs.map some := by
    clear each some_part
    induction conjunctions with
    | nil => rfl
    | cons first others ih => rw [map_cons, map_cons, first.disjunct, ih]
  rw [conditionValue_eq, splitWhen_intercalate rfl (fun t member => (each t member).split) some_part,
    mapM_eq_some values, (balanced_or each some_part).1]
  rfl

theorem Conjunction.value (conjunction : Conjunction predicate t v) : conditionValue predicate t = some v := by
  have one := conditionValue_or (.cons conjunction .nil) (cons_ne_nil _ _)
  rw [intercalate_singleton] at one
  rw [one]
  cases v <;> rfl

theorem Conjunction.head (conjunction : Conjunction predicate t v) : t ≠ [] ∧ t.head? ≠ some .select := by
  obtain ⟨cs, -, some_part, rfl, elementary, -⟩ := conjunction.parts
  obtain ⟨c, rest, rfl⟩ := exists_cons_of_ne_nil some_part
  obtain ⟨x, others, rfl⟩ := exists_cons_of_ne_nil (elementary c mem_cons_self).filled
  have first := (elementary _ mem_cons_self).unselected
  cases rest with
  | nil =>
    rw [intercalate_singleton]
    exact ⟨cons_ne_nil _ _, first⟩
  | cons d rest =>
    rw [intercalate_cons_cons, cons_append, cons_append]
    exact ⟨cons_ne_nil _ _, first⟩

theorem Conjunction.intercalate (conjunctions : List.Forall₂ (Conjunction predicate) ts vs) (some_part : ts ≠ []) :
    Conjunction predicate ([.and].intercalate ts) (Truth.all vs) := by
  induction conjunctions with
  | nil => exact absurd rfl some_part
  | @cons t v ts vs first others ih =>
    cases ts with
    | nil =>
      cases others
      rw [intercalate_singleton]
      have alone : Truth.all [v] = v := by cases v <;> rfl
      rw [alone]
      exact first
    | cons u ts =>
      rw [intercalate_cons_cons, append_assoc]
      exact first.and (ih (cons_ne_nil _ _))

theorem conjunctValue_brackets {inner : List (Lexeme α) → Option Truth} {rest content : List (Lexeme α)}
    (unwrapped : unwrap (.left :: rest) = some content) (unselected : content.head? ≠ some .select) :
    conjunctValue predicate inner (.left :: rest) = inner content := by
  simp only [conjunctValue, unwrapped]
  cases content with
  | nil => rfl
  | cons x content =>
    cases x with
    | select => exact absurd rfl unselected
    | _ => rfl

theorem Conjunction.brackets (conjunctions : List.Forall₂ (Conjunction predicate) ts vs) (some_part : ts ≠ []) :
    Conjunction predicate (.left :: [.or].intercalate ts ++ [.right]) (Truth.any vs) := by
  obtain ⟨closed, inside⟩ := balanced_or (conjunctions_stay conjunctions) some_part
  have whole : advance .start (.left :: [.or].intercalate ts ++ [.right]) = some .start := by
    show advance ⟨1, false⟩ ([.or].intercalate ts ++ [.right]) = some .start
    rw [advance_append, inside]
    rfl
  have content : unwrap (.left :: [.or].intercalate ts ++ [.right]) = some ([.or].intercalate ts) := by
    simp [unwrap, closed]
  have head : [.or].intercalate ts ≠ [] ∧ ([.or].intercalate ts).head? ≠ some .select := by
    cases conjunctions with
    | nil => exact absurd rfl some_part
    | @cons t v ts vs first others =>
      obtain ⟨x, rest, rfl⟩ := exists_cons_of_ne_nil first.head.1
      cases ts with
      | nil =>
        rw [intercalate_singleton]
        exact first.head
      | cons u ts =>
        rw [intercalate_cons_cons, cons_append, cons_append]
        exact ⟨cons_ne_nil _ _, first.head.2⟩
  refine Conjunction.single ⟨whole, cons_ne_nil _ _, by simp⟩ ?_
  exact (conjunctValue_brackets content head.2).trans (conditionValue_or conjunctions some_part)

theorem Conjunction.bracket (conjunction : Conjunction predicate t v) :
    Conjunction predicate (.left :: t ++ [.right]) v := by
  have one := Conjunction.brackets (.cons conjunction .nil) (cons_ne_nil _ _)
  rw [intercalate_singleton] at one
  have alone : Truth.any [v] = v := by cases v <;> rfl
  rw [alone] at one
  exact one

theorem Conjunction.notBracket (conjunction : Conjunction predicate t v) :
    Conjunction predicate (.not :: .left :: t ++ [.right]) v.not := by
  have whole : advance .start (.not :: .left :: t ++ [.right]) = some .start := by
    show advance ⟨1, false⟩ (t ++ [.right]) = some .start
    rw [advance_append, conjunction.stays.inside]
    rfl
  refine Conjunction.single ⟨whole, cons_ne_nil _ _, by simp⟩ ?_
  show (conditionValue predicate (.left :: t ++ [.right])).map Truth.not = some v.not
  rw [conjunction.bracket.value]
  rfl

theorem Conjunction.constant :
    Conjunction predicate [.yes] .yes ∧ Conjunction predicate [.no] .no :=
  ⟨.single ⟨rfl, cons_ne_nil _ _, by simp⟩ rfl, .single ⟨rfl, cons_ne_nil _ _, by simp⟩ rfl⟩

theorem Conjunction.operand {a : α} (whole : advance .start (.operand a :: t) = some .start) :
    Conjunction predicate (.operand a :: t) (predicate (.operand a :: t)) :=
  .single ⟨whole, cons_ne_nil _ _, by simp⟩ rfl

theorem Conjunction.query {x : Lexeme α} {rest : List (Lexeme α)} (query : advance .start t = some .start)
    (whole : advance .start (x :: rest) = some .start) :
    Conjunction predicate (.left :: t ++ .right :: x :: rest) (predicate (.left :: t ++ .right :: x :: rest)) := by
  have advanced : advance .start (.left :: t ++ .right :: x :: rest) = some .start := by
    have inside : advance ⟨1, false⟩ t = some ⟨1, false⟩ := advance_lift query false
    show advance ⟨1, false⟩ (t ++ .right :: x :: rest) = some .start
    rw [advance_append, inside]
    exact whole
  have closing : balanced 0 (t ++ .right :: x :: rest).dropLast = false := by
    rw [dropLast_append_of_ne_nil (cons_ne_nil _ _)]
    exact balanced_advance query
  have open_end : unwrap (.left :: t ++ .right :: x :: rest) = none := by
    rw [cons_append, unwrap, closing]
    split <;> rfl
  refine Conjunction.single ⟨advanced, cons_ne_nil _ _, by simp⟩ ?_
  rw [cons_append] at open_end ⊢
  simp only [conjunctValue, open_end]

end Conjunctions

end Condition

end RemudaRmm.Foundation
