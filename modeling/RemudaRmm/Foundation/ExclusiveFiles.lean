import Mathlib.Data.Option.Basic
import Mathlib.Tactic.SplitIfs
import Mathlib.Tactic.ByContra

/-! Files that are only ever created where there was none: who holds one, what it holds, and what was there before. -/
namespace RemudaRmm.Foundation
open Function Option

/-- The files of a store, the file that each holder is busy with, and the files that are done with. -/
structure Holdings (ι π κ : Type*) where
  files : π → Option κ
  held : ι → Option (π × κ)
  settled : π → κ → Prop

namespace Holdings
variable {ι π κ : Type*} [DecidableEq ι] [DecidableEq π]

def create (h : Holdings ι π κ) (a : ι) (p : π) (c : κ) : Holdings ι π κ :=
  { h with files := update h.files p (some c), held := update h.held a (some (p, c)) }

def rewrite (h : Holdings ι π κ) (a : ι) (p : π) (c : κ) : Holdings ι π κ := h.create a p c

def pass (h : Holdings ι π κ) (a b : ι) : Holdings ι π κ :=
  { h with held := update (update h.held a none) b (h.held a) }

def leave (h : Holdings ι π κ) (a : ι) : Holdings ι π κ := { h with held := update h.held a none }

def remove (h : Holdings ι π κ) (a : ι) (p : π) : Holdings ι π κ :=
  { h with files := update h.files p none, held := update h.held a none }

def settle (h : Holdings ι π κ) (a : ι) (p : π) (c : κ) : Holdings ι π κ :=
  { h with held := update h.held a none, settled := fun q d => h.settled q d ∨ (q = p ∧ d = c) }

/-- Every file held or done with is as its holder left it and was not there before; nothing else has changed. -/
structure Sound (before : π → Option κ) (place : π → Prop) (h : Holdings ι π κ) : Prop where
  kept : ∀ a p c, h.held a = some (p, c) → h.files p = some c ∧ before p = none ∧ place p
  apart : ∀ a b p c d, h.held a = some (p, c) → h.held b = some (p, d) → a = b
  done : ∀ p c, h.settled p c → h.files p = some c ∧ before p = none ∧ place p
  released : ∀ a p c d, h.settled p c → h.held a ≠ some (p, d)
  changed : ∀ p, h.files p ≠ before p → before p = none ∧ place p

variable {before : π → Option κ} {place : π → Prop} {h : Holdings ι π κ} {a b : ι} {p : π} {c d : κ}

omit [DecidableEq ι] [DecidableEq π] in
/-- What is held and settled as in a sound store, or less settled, is sound, with more places allowed. -/
theorem Sound.of_eq {g : Holdings ι π κ} {wider : π → Prop} (sound : Sound before place g) (files : h.files = g.files)
    (held : ∀ a, h.held a = g.held a) (settled : ∀ p c, h.settled p c → g.settled p c)
    (places : ∀ p, place p → wider p) : Sound before wider h := by
  refine ⟨?_, ?_, ?_, ?_, ?_⟩
  · intro a p c own
    rw [files]
    obtain ⟨there, absent, inside⟩ := sound.kept a p c (held a ▸ own)
    exact ⟨there, absent, places p inside⟩
  · exact fun a b p c d first second => sound.apart a b p c d (held a ▸ first) (held b ▸ second)
  · intro p c done
    rw [files]
    obtain ⟨there, absent, inside⟩ := sound.done p c (settled p c done)
    exact ⟨there, absent, places p inside⟩
  · exact fun a p c d done own => sound.released a p c d (settled p c done) (held a ▸ own)
  · intro p differs
    rw [files] at differs
    exact (sound.changed p differs).imp_right (places p)

omit [DecidableEq ι] [DecidableEq π] in
theorem Sound.start (files : h.files = before) (held : ∀ a, h.held a = none) (settled : ∀ p c, ¬h.settled p c) :
    Sound before place h where
  kept a p c own := by rw [held a] at own; cases own
  apart a b p c d own := by rw [held a] at own; cases own
  done p c done := absurd done (settled p c)
  released a p c d done := absurd done (settled p c)
  changed p differs := absurd (congrFun files p) differs

theorem Sound.create (sound : Sound before place h) (free : h.files p = none) (there : place p) :
    Sound before place (h.create a p c) := by
  have unheld : ∀ b d, h.held b ≠ some (p, d) := by
    intro b d own
    rw [(sound.kept b p d own).1] at free
    cases free
  have absent : before p = none := by
    by_contra present
    have same : h.files p = before p := by
      by_contra differs
      exact present (sound.changed p differs).1
    exact present (same ▸ free)
  refine ⟨?_, ?_, ?_, ?_, ?_⟩
  · intro b q d own
    simp only [Holdings.create, update_apply] at own ⊢
    split_ifs at own with same
    · cases own
      exact ⟨if_pos rfl, absent, there⟩
    · have other : q ≠ p := by
        rintro rfl
        exact unheld b d own
      rw [if_neg other]
      exact sound.kept b q d own
  · intro b e q d d' first second
    simp only [Holdings.create, update_apply] at first second
    split_ifs at first second with one two two
    · exact one.trans two.symm
    · cases first
      exact absurd second (unheld e d')
    · cases second
      exact absurd first (unheld b d)
    · exact sound.apart b e q d d' first second
  · intro q d done
    have kept := sound.done q d done
    have other : q ≠ p := by
      rintro rfl
      rw [kept.1] at free
      cases free
    exact ⟨(update_of_ne other _ _).trans kept.1, kept.2⟩
  · intro b q d d' done own
    have kept := sound.done q d done
    simp only [Holdings.create, update_apply] at own
    split_ifs at own with same
    · cases own
      rw [kept.1] at free
      cases free
    · exact sound.released b q d d' done own
  · intro q differs
    by_cases same : q = p
    · exact same ▸ ⟨absent, there⟩
    · exact sound.changed q fun equal => differs ((update_of_ne same _ _).trans equal)

theorem Sound.rewrite (sound : Sound before place h) (own : h.held a = some (p, c)) :
    Sound before place (h.rewrite a p d) := by
  have kept := sound.kept a p c own
  refine ⟨?_, ?_, ?_, ?_, ?_⟩
  · intro b q e held
    simp only [Holdings.rewrite, Holdings.create, update_apply] at held ⊢
    split_ifs at held with same
    · cases held
      exact ⟨if_pos rfl, kept.2⟩
    · have other : q ≠ p := by
        rintro rfl
        exact same (sound.apart b a q e c held own)
      rw [if_neg other]
      exact sound.kept b q e held
  · intro b e q d₁ d₂ first second
    simp only [Holdings.rewrite, Holdings.create, update_apply] at first second
    split_ifs at first second with one two two
    · exact one.trans two.symm
    · cases first
      exact one.trans (sound.apart e a p d₂ c second own).symm
    · cases second
      exact (sound.apart b a p d₁ c first own).trans two.symm
    · exact sound.apart b e q d₁ d₂ first second
  · intro q e done
    have other : q ≠ p := by
      rintro rfl
      exact sound.released a q e c done own
    have settled := sound.done q e done
    exact ⟨(update_of_ne other _ _).trans settled.1, settled.2⟩
  · intro b q e e' done held
    simp only [Holdings.rewrite, Holdings.create, update_apply] at held
    split_ifs at held with same
    · cases held
      exact sound.released a p e c done own
    · exact sound.released b q e e' done held
  · intro q differs
    by_cases same : q = p
    · exact same ▸ kept.2
    · exact sound.changed q fun equal => differs ((update_of_ne same _ _).trans equal)

omit [DecidableEq π] in
theorem Sound.leave (sound : Sound before place h) : Sound before place (h.leave a) := by
  have less : ∀ b x, (h.leave a).held b = some x → h.held b = some x := by
    intro b x held
    simp only [Holdings.leave, update_apply] at held
    split_ifs at held
    exact held
  exact ⟨fun b p c held => sound.kept b p c (less b _ held),
    fun b e p c d first second => sound.apart b e p c d (less b _ first) (less e _ second), sound.done,
    fun b p c d done held => sound.released b p c d done (less b _ held), sound.changed⟩

omit [DecidableEq π] in
theorem Sound.pass (sound : Sound before place h) : Sound before place (h.pass a b) := by
  have source : ∀ e x, (h.pass a b).held e = some x → ∃ e', h.held e' = some x ∧ (e' = a ↔ e = b) := by
    intro e x held
    simp only [Holdings.pass, update_apply] at held
    split_ifs at held with one two
    · exact ⟨a, held, by simp [one]⟩
    · exact ⟨e, held, by simp [one, two]⟩
  refine ⟨?_, ?_, sound.done, ?_, sound.changed⟩
  · intro e p c held
    obtain ⟨e', own, -⟩ := source e _ held
    exact sound.kept e' p c own
  · intro e f p c d first second
    simp only [Holdings.pass, update_apply] at first second
    split_ifs at first second with one two three four
    · exact one.trans two.symm
    · exact absurd (sound.apart a f p c d first second).symm three
    · exact absurd (sound.apart e a p c d first second) (by assumption)
    · exact sound.apart e f p c d first second
  · intro e p c d done held
    obtain ⟨e', own, -⟩ := source e _ held
    exact sound.released e' p c d done own

theorem Sound.remove (sound : Sound before place h) (own : h.held a = some (p, c)) :
    Sound before place (h.remove a p) := by
  have kept := sound.kept a p c own
  refine ⟨?_, ?_, ?_, ?_, ?_⟩
  · intro b q e held
    simp only [Holdings.remove, update_apply] at held ⊢
    split_ifs at held with same
    have other : q ≠ p := by
      rintro rfl
      exact same (sound.apart b a q e c held own)
    rw [if_neg other]
    exact sound.kept b q e held
  · exact (sound.leave (a := a)).apart
  · intro q e done
    have other : q ≠ p := by
      rintro rfl
      exact sound.released a q e c done own
    have settled := sound.done q e done
    exact ⟨(update_of_ne other _ _).trans settled.1, settled.2⟩
  · exact (sound.leave (a := a)).released
  · intro q differs
    by_cases same : q = p
    · exact same ▸ kept.2
    · exact sound.changed q fun equal => differs ((update_of_ne same _ _).trans equal)

omit [DecidableEq π] in
theorem Sound.settle (sound : Sound before place h) (own : h.held a = some (p, c)) :
    Sound before place (h.settle a p c) := by
  have left := sound.leave (a := a)
  refine ⟨left.kept, left.apart, ?_, ?_, sound.changed⟩
  · rintro q e (done | ⟨rfl, rfl⟩)
    · exact sound.done q e done
    · exact sound.kept a q e own
  · rintro b q e d (done | ⟨rfl, rfl⟩) held
    · exact left.released b q e d done held
    · simp only [Holdings.settle, update_apply] at held
      split_ifs at held with same
      exact same (sound.apart b a q d e held own)

end Holdings

end RemudaRmm.Foundation
