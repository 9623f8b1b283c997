import Mathlib.Data.List.Basic

/-! Runs of step functions, and what a run preserves when every step of it meets a condition on the
state before the step. `foldl` runs a total step; `run` a step that may be disabled. -/
namespace RemudaRmm.Foundation
open List Function Option
variable {σ ε : Type*}
variable {step : σ → ε → σ} {C D : σ → ε → Prop} {s : σ} {e : ε} {es pre post : List ε} {Inv P : σ → Prop}

/-- What is shown of a pair that is returned holds of the pair it is returned as. -/
theorem of_some_eq {α β : Type*} {made : α → β → Prop} {a c : α} {b d : β} (same : some (a, b) = some (c, d))
    (here : made a b) : made c d := by
  cases same
  exact here

/-- An update is seen in its own place, and nowhere else. -/
theorem update_eq_or {α β : Type*} [DecidableEq α] (f : α → β) (a : α) (v : β) (x : α) :
    x = a ∧ update f a v x = v ∨ x ≠ a ∧ update f a v x = f x := by
  by_cases same : x = a
  · exact .inl ⟨same, by rw [same, update_self]⟩
  · exact .inr ⟨same, update_of_ne same v f⟩

/-- Every step of the run meets the condition in the state before it. -/
def StepsMeet (step : σ → ε → σ) (C : σ → ε → Prop) (s : σ) (es : List ε) : Prop :=
  ∀ pre e post, es = pre ++ e :: post → C (pre.foldl step s) e

/-- The property holds in every state the run passes through, the first and the last included. -/
def Throughout (step : σ → ε → σ) (P : σ → Prop) (s : σ) (es : List ε) : Prop :=
  ∀ pre post, es = pre ++ post → P (pre.foldl step s)

theorem StepsMeet.tail (h : StepsMeet step C s (e :: es)) : StepsMeet step C (step s e) es := by
  intro pre x post split
  exact h (e :: pre) x post (congrArg (e :: ·) split)

theorem StepsMeet.head (h : StepsMeet step C s (e :: es)) : C s e := h [] e es rfl

theorem StepsMeet.cons (head : C s e) (tail : StepsMeet step C (step s e) es) : StepsMeet step C s (e :: es) := by
  intro pre x post split
  cases pre with
  | nil =>
    obtain ⟨rfl, -⟩ := List.cons.inj split
    exact head
  | cons y pre =>
    obtain ⟨rfl, rest⟩ := List.cons.inj split
    exact tail pre x post rest

theorem StepsMeet.nil : StepsMeet step C s [] := by
  intro pre e post split
  exact absurd split (by simp)

/-- Whether a run meets a condition can be seen by running it. -/
instance decidableStepsMeet {step : σ → ε → σ} {C : σ → ε → Prop} [∀ s e, Decidable (C s e)] :
    ∀ (es : List ε) (s : σ), Decidable (StepsMeet step C s es)
  | [], _ => .isTrue StepsMeet.nil
  | e :: es, s =>
    have : Decidable (StepsMeet step C (step s e) es) := decidableStepsMeet es (step s e)
    decidable_of_iff (C s e ∧ StepsMeet step C (step s e) es)
      ⟨fun both => StepsMeet.cons both.1 both.2, fun meets => ⟨meets.head, meets.tail⟩⟩

theorem StepsMeet.of_forall (meet : ∀ e ∈ es, ∀ t, C t e) : StepsMeet step C s es := by
  rintro pre e post rfl
  exact meet e (mem_append_right pre mem_cons_self) _

/-- Two conditions that agree under an invariant of the run are met by the same runs. -/
theorem stepsMeet_congr (keep : ∀ s e, Inv s → C s e → Inv (step s e)) (agree : ∀ s e, Inv s → (C s e ↔ D s e))
    (start : Inv s) : StepsMeet step C s es ↔ StepsMeet step D s es := by
  induction es generalizing s with
  | nil => exact ⟨fun _ => StepsMeet.nil, fun _ => StepsMeet.nil⟩
  | cons e es ih =>
    constructor
    · intro meets
      exact StepsMeet.cons ((agree s e start).mp meets.head) ((ih (keep s e start meets.head)).mp meets.tail)
    · intro meets
      have first := (agree s e start).mpr meets.head
      exact StepsMeet.cons first ((ih (keep s e start first)).mpr meets.tail)

theorem Throughout.start (h : Throughout step P s es) : P s := h [] es rfl

theorem Throughout.tail (h : Throughout step P s (e :: es)) : Throughout step P (step s e) es := by
  intro pre post split
  exact h (e :: pre) post (congrArg (e :: ·) split)

theorem Throughout.cons (head : P s) (tail : Throughout step P (step s e) es) : Throughout step P s (e :: es) := by
  intro pre post split
  cases pre with
  | nil => exact head
  | cons y pre =>
    obtain ⟨rfl, rest⟩ := List.cons.inj split
    exact tail pre post rest

theorem Throughout.last (h : Throughout step P s es) : P (es.foldl step s) := h es [] (append_nil es).symm

/-- A property holds throughout a run when it holds at first and after every step. -/
theorem throughout_iff_steps : Throughout step P s es ↔ P s ∧ StepsMeet step (fun s e => P (step s e)) s es := by
  induction es generalizing s with
  | nil =>
    refine ⟨fun throughout => ⟨throughout.start, StepsMeet.nil⟩, fun both pre post split => ?_⟩
    obtain ⟨rfl, -⟩ := append_eq_nil_iff.mp split.symm
    exact both.1
  | cons e es ih =>
    constructor
    · intro throughout
      obtain ⟨next, rest⟩ := ih.mp throughout.tail
      exact ⟨throughout.start, StepsMeet.cons next rest⟩
    · intro both
      exact Throughout.cons both.1 (ih.mpr ⟨both.2.head, both.2.tail⟩)

/-- An invariant that every step meeting the condition keeps holds throughout the run. -/
theorem throughout_of_invariant (keep : ∀ s e, Inv s → C s e → Inv (step s e)) (start : Inv s)
    (meet : StepsMeet step C s es) : Throughout step Inv s es := by
  induction es generalizing s with
  | nil =>
    intro pre post split
    obtain ⟨rfl, -⟩ := append_eq_nil_iff.mp split.symm
    exact start
  | cons e es ih => exact Throughout.cons start (ih (keep s e start meet.head) meet.tail)

/-- What follows from an invariant that every step keeps holds throughout every run. -/
theorem throughout_of_kept (holds : ∀ s, Inv s → P s) (keep : ∀ s e, Inv s → Inv (step s e)) (start : Inv s)
    (es : List ε) : Throughout step P s es := by
  intro pre post split
  have kept : Throughout step Inv s es :=
    throughout_of_invariant (C := fun _ _ => True) (fun s e inv _ => keep s e inv) start fun _ _ _ _ => trivial
  exact holds _ (kept pre post split)

/-- Where a step that misses the condition also breaks the property, the property holds throughout
exactly the runs that meet the condition. -/
theorem throughout_iff (holds : ∀ s, Inv s → P s) (keep : ∀ s, ∀ e ∈ es, Inv s → C s e → Inv (step s e))
    (breaks : ∀ s, ∀ e ∈ es, Inv s → ¬C s e → ¬P (step s e)) (start : Inv s) :
    Throughout step P s es ↔ StepsMeet step C s es := by
  induction es generalizing s with
  | nil =>
    refine ⟨fun _ => StepsMeet.nil, fun _ pre post split => ?_⟩
    obtain ⟨rfl, -⟩ := append_eq_nil_iff.mp split.symm
    exact holds s start
  | cons e es ih =>
    have later := fun next => ih (s := next) (fun s x member => keep s x (mem_cons_of_mem e member))
      (fun s x member => breaks s x (mem_cons_of_mem e member))
    constructor
    · intro throughout
      by_cases meets : C s e
      · exact StepsMeet.cons meets ((later _ (keep s e mem_cons_self start meets)).mp throughout.tail)
      · exact absurd throughout.tail.start (breaks s e mem_cons_self start meets)
    · intro meets
      have onward := keep s e mem_cons_self start meets.head
      exact Throughout.cons (holds s start) ((later _ onward).mpr meets.tail)

theorem foldl_pair {ρ : Type*} (f : ρ → ε → ρ) (step : σ → ε → σ) (r : ρ) (s : σ) (es : List ε) :
    es.foldl (fun x e => (f x.1 e, step x.2 e)) (r, s) = (es.foldl f r, es.foldl step s) := by
  induction es generalizing r s with
  | nil => rfl
  | cons e es ih => exact ih (f r e) (step s e)

/-- A run of a step that may be disabled; `none` once a disabled step is asked for. -/
def run (step : σ → ε → Option σ) : σ → List ε → Option σ
  | s, [] => some s
  | s, e :: es => (step s e).bind fun next => run step next es

/-- Every enabled step of the run meets the condition in the state before it. -/
def Meets (step : σ → ε → Option σ) (C : σ → ε → Prop) : σ → List ε → Prop
  | _, [] => True
  | s, e :: es => C s e ∧ ∀ next, step s e = some next → Meets step C next es

variable {step : σ → ε → Option σ}

theorem run_cons {t : σ} (h : run step s (e :: es) = some t) :
    ∃ next, step s e = some next ∧ run step next es = some t :=
  bind_eq_some_iff.mp h

theorem Meets.cons {next : σ} (first : C s e)
    (stepped : step s e = some next) (rest : Meets step C next es) : Meets step C s (e :: es) := by
  refine ⟨first, fun other again => ?_⟩
  rw [some.inj (again.symm.trans stepped)]
  exact rest

/-- Whether a run meets a condition can be seen by running it. -/
instance decidableMeets {step : σ → ε → Option σ} {C : σ → ε → Prop} [∀ s e, Decidable (C s e)] :
    ∀ (es : List ε) (s : σ), Decidable (Meets step C s es)
  | [], _ => .isTrue trivial
  | e :: es, s =>
    match found : step s e with
    | none => decidable_of_iff (C s e) (by simp [Meets, found])
    | some next =>
      have : Decidable (Meets step C next es) := decidableMeets es next
      decidable_of_iff (C s e ∧ Meets step C next es) (by simp [Meets, found])

theorem Meets.take (meets : Meets step C s (pre ++ post)) : Meets step C s pre := by
  induction pre generalizing s with
  | nil => exact trivial
  | cons e pre ih => exact ⟨meets.1, fun next stepped => ih (meets.2 next stepped)⟩

theorem Meets.drop {mid : σ} (meets : Meets step C s (pre ++ post))
    (reach : run step s pre = some mid) : Meets step C mid post := by
  induction pre generalizing s with
  | nil =>
    cases reach
    exact meets
  | cons e pre ih =>
    obtain ⟨next, first, rest⟩ := run_cons reach
    exact ih (meets.2 next first) rest

theorem Meets.append (first : Meets step C s pre)
    (rest : ∀ mid, run step s pre = some mid → Meets step C mid post) : Meets step C s (pre ++ post) := by
  induction pre generalizing s with
  | nil => exact rest s rfl
  | cons e pre ih =>
    refine ⟨first.1, fun next stepped => ih (first.2 next stepped) fun mid reach => rest mid ?_⟩
    rw [run, stepped]
    exact reach

theorem Meets.and_mem {all : List ε}
    (meets : Meets step C s es) (listed : ∀ e ∈ es, e ∈ all) : Meets step (fun s e => C s e ∧ e ∈ all) s es := by
  induction es generalizing s with
  | nil => exact trivial
  | cons e es ih =>
    refine ⟨⟨meets.1, listed e mem_cons_self⟩, fun next stepped => ?_⟩
    exact ih (meets.2 next stepped) fun x member => listed x (mem_cons_of_mem e member)

/-- A condition that follows from an invariant of the run is met. -/
theorem Meets.of_invariant (Inv : σ → Prop)
    (keep : ∀ s, ∀ e ∈ es, ∀ next, Inv s → step s e = some next → Inv next) (holds : ∀ s, ∀ e ∈ es, Inv s → C s e)
    (start : Inv s) : Meets step C s es := by
  induction es generalizing s with
  | nil => exact trivial
  | cons e es ih =>
    refine ⟨holds s e mem_cons_self start, fun next stepped => ?_⟩
    apply ih
    · exact fun s x member => keep s x (mem_cons_of_mem e member)
    · exact fun s x member => holds s x (mem_cons_of_mem e member)
    · exact keep s e mem_cons_self next start stepped

/-- What follows from an invariant and a condition of the run is met. -/
theorem Meets.under (keep : ∀ s e next, Inv s → C s e → step s e = some next → Inv next)
    (gives : ∀ s e, Inv s → C s e → D s e) (start : Inv s) (meets : Meets step C s es) : Meets step D s es := by
  induction es generalizing s with
  | nil => exact trivial
  | cons e es ih =>
    refine ⟨gives s e start meets.1, fun next stepped => ?_⟩
    exact ih (keep s e next start meets.1 stepped) (meets.2 next stepped)

/-- Two conditions that agree under an invariant of the run are met by the same runs. -/
theorem meets_congr (keep : ∀ s e next, Inv s → C s e → step s e = some next → Inv next)
    (agree : ∀ s e, Inv s → (C s e ↔ D s e)) (start : Inv s) : Meets step C s es ↔ Meets step D s es := by
  constructor
  · exact Meets.under keep (fun s e inv => (agree s e inv).mp) start
  · refine Meets.under (fun s e next inv meets => ?_) (fun s e inv => (agree s e inv).mpr) start
    exact keep s e next inv ((agree s e inv).mpr meets)

/-- An invariant that every enabled step meeting the condition keeps holds where the run ends. -/
theorem run_invariant (keep : ∀ s e next, Inv s → C s e → step s e = some next → Inv next)
    {t : σ} (start : Inv s) (meet : Meets step C s es) (reach : run step s es = some t) : Inv t := by
  induction es generalizing s with
  | nil =>
    cases reach
    exact start
  | cons e es ih =>
    obtain ⟨next, first, rest⟩ := run_cons reach
    exact ih (keep s e next start meet.1 first) (meet.2 next first) rest

end RemudaRmm.Foundation
