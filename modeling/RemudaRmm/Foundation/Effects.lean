import Mathlib.Logic.Function.Basic

/-! Effects on a state in separate areas, each working on the rows of one. Two lists of effects leave the same state,
whatever the effects do to rows, exactly when each area receives the same effects in the same order. -/
namespace RemudaRmm.Foundation
open List Function

section Effects
variable {Effect Area Rows : Type} [DecidableEq Area] (area : Effect → Area)

/-- The effects that work on `a`, in their order. -/
def effectsOn (a : Area) (effects : List Effect) : List Effect := effects.filter fun e => area e = a

@[simp] theorem effectsOn_nil (a : Area) : effectsOn area a [] = [] := rfl

theorem effectsOn_append (a : Area) (first second : List Effect) :
    effectsOn area a (first ++ second) = effectsOn area a first ++ effectsOn area a second :=
  filter_append ..

variable {a : Area}

theorem effectsOn_same {e : Effect} (same : area e = a) (effects : List Effect) :
    effectsOn area a (e :: effects) = e :: effectsOn area a effects :=
  filter_cons_of_pos (decide_eq_true same)

theorem effectsOn_other {e : Effect} (other : area e ≠ a) (effects : List Effect) :
    effectsOn area a (e :: effects) = effectsOn area a effects :=
  filter_cons_of_neg (by rwa [decide_eq_true_eq])

theorem effectsOn_nil_iff (effects : List Effect) : (∀ a, effectsOn area a effects = []) ↔ effects = [] := by
  constructor
  · intro empty
    cases effects with
    | nil => rfl
    | cons e effects => cases (effectsOn_same area rfl effects).symm.trans (empty (area e))
  · intro empty a
    rw [empty, effectsOn_nil]

theorem effectsOn_toList_iff (first second : Option Effect) :
    (∀ a, effectsOn area a first.toList = effectsOn area a second.toList) ↔ first = second := by
  have found (e : Effect) : effectsOn area (area e) (some e).toList = [e] := effectsOn_same area rfl []
  constructor
  · intro agree
    cases first with
    | none =>
      cases second with
      | none => rfl
      | some e => cases (agree (area e)).trans (found e)
    | some e =>
      have there := (found e).symm.trans (agree (area e))
      cases second with
      | none => cases there
      | some e' =>
        by_cases same : area e' = area e
        · rw [Option.toList_some, effectsOn_same area same] at there
          rw [(List.cons.inj there).1]
        · rw [Option.toList_some, effectsOn_other area same] at there
          cases there
  · intro same a
    rw [same]

theorem effectsOn_all {effects : List Effect} (all : ∀ e ∈ effects, area e = a) :
    effectsOn area a effects = effects :=
  filter_eq_self.mpr fun e member => decide_eq_true (all e member)

theorem effectsOn_none {effects : List Effect} (none : ∀ e ∈ effects, area e ≠ a) :
    effectsOn area a effects = [] :=
  filter_eq_nil_iff.mpr fun e member => by rw [decide_eq_true_eq]; exact none e member

theorem effectsOn_swap_iff {first second others : List Effect} (inFirst : ∀ e ∈ first, area e = a)
    (inSecond : ∀ e ∈ second, area e = a) (apart : ∀ e ∈ others, area e ≠ a) :
    (∀ b, effectsOn area b (first ++ others) = effectsOn area b (others ++ second)) ↔ first = second := by
  simp only [effectsOn_append]
  constructor
  · intro agree
    have there := agree a
    rwa [effectsOn_all area inFirst, effectsOn_all area inSecond, effectsOn_none area apart, append_nil,
      nil_append] at there
  · rintro rfl b
    by_cases same : b = a
    · rw [same, effectsOn_none area apart, append_nil, nil_append]
    · rw [effectsOn_none area fun e member there => same (there.symm.trans (inFirst e member)), nil_append, append_nil]

variable (apply : Effect → Rows → Rows)

def perform (state : Area → Rows) (e : Effect) : Area → Rows :=
  update state (area e) (apply e (state (area e)))

def performAll (state : Area → Rows) (effects : List Effect) : Area → Rows :=
  effects.foldl (perform area apply) state

theorem performAll_apply (state : Area → Rows) (effects : List Effect) (a : Area) :
    performAll area apply state effects a = (effectsOn area a effects).foldl (fun rows e => apply e rows) (state a) := by
  induction effects generalizing state with
  | nil => rfl
  | cons e effects ih =>
    rw [performAll, foldl_cons, ← performAll, ih]
    by_cases same : area e = a
    · rw [effectsOn_same area same, foldl_cons, perform, same, update_self]
    · rw [effectsOn_other area same, perform, update_of_ne (Ne.symm same)]

theorem foldl_record (effects rows : List Effect) :
    effects.foldl (fun rows e => rows ++ [e]) rows = rows ++ effects := by
  induction effects generalizing rows with
  | nil => rw [foldl_nil, append_nil]
  | cons e effects ih => rw [foldl_cons, ih, append_assoc, singleton_append]

theorem performAll_agree_iff (first second : List Effect) :
    (∀ (Rows : Type) (apply : Effect → Rows → Rows) (state : Area → Rows),
        performAll area apply state first = performAll area apply state second) ↔
      ∀ a, effectsOn area a first = effectsOn area a second := by
  constructor
  · intro agree a
    have recorded := congrFun (agree (List Effect) (fun e rows => rows ++ [e]) fun _ => []) a
    rwa [performAll_apply, performAll_apply, foldl_record, foldl_record, nil_append, nil_append] at recorded
  · intro agree Rows apply state
    funext a
    rw [performAll_apply, performAll_apply, agree]

end Effects
end RemudaRmm.Foundation
