import Mathlib.Algebra.Order.Group.Int
import Mathlib.Data.List.Nodup

/-! A sorted set under one key of a store that forgets: distinct members, each with a score. A log of the last instants
is kept in one by trimming it, adding to it and renewing its expiry at once. -/
namespace RemudaRmm.Foundation
open List

/-- No key holds an empty set. -/
structure ScoredSet (α : Type*) where
  entries : List (α × ℕ)
  expiry : Option ℕ
  nodup : (entries.map Prod.fst).Nodup
  vacant : entries = [] → expiry = none

namespace ScoredSet
variable {α : Type*}

def empty : ScoredSet α := ⟨[], none, nodup_nil, fun _ => rfl⟩

def ofEntries (expiry : Option ℕ) (entries : List (α × ℕ)) (nodup : (entries.map Prod.fst).Nodup) : ScoredSet α where
  entries := entries
  expiry := if entries.isEmpty then none else expiry
  nodup := nodup
  vacant := fun none => by rw [none, isEmpty_nil, if_pos rfl]

def live (now : ℕ) (set : ScoredSet α) : ScoredSet α := if set.expiry.all (now ≤ ·) then set else empty

/-- Without the members whose score is at most `cutoff`. -/
def removeUpTo (cutoff : ℤ) (set : ScoredSet α) : ScoredSet α :=
  ofEntries set.expiry (set.entries.filter fun e => cutoff < (e.2 : ℤ))
    (set.nodup.sublist (filter_sublist.map Prod.fst))

def card (set : ScoredSet α) : ℕ := set.entries.length

def oldest (set : ScoredSet α) : Option ℕ := (set.entries.map Prod.snd).min?

/-- A new time to live, in the clock's unit; none is left of a set that is given 0. -/
def expire (now ttl : ℕ) (set : ScoredSet α) : ScoredSet α :=
  if ttl = 0 then empty else ofEntries (some (now + ttl)) set.entries set.nodup

section Add
variable [DecidableEq α]

theorem nodup_add (set : ScoredSet α) (entry : α × ℕ) :
    ((set.entries.filter (fun e => e.1 ≠ entry.1) ++ [entry]).map Prod.fst).Nodup := by
  rw [map_append, nodup_append]
  refine ⟨set.nodup.sublist (filter_sublist.map Prod.fst), nodup_singleton _, ?_⟩
  intro m member n single same
  obtain ⟨e, kept, rfl⟩ := List.mem_map.mp member
  rw [map_singleton, mem_singleton] at single
  exact of_decide_eq_true (mem_filter.mp kept).2 (same.trans single)

/-- One member with its score; a member that is there gets the new score. -/
def add (set : ScoredSet α) (entry : α × ℕ) : ScoredSet α where
  entries := set.entries.filter (fun e => e.1 ≠ entry.1) ++ [entry]
  expiry := set.expiry
  nodup := nodup_add set entry
  vacant := fun none => absurd none (append_ne_nil_of_right_ne_nil _ (cons_ne_nil _ _))

def addAll (set : ScoredSet α) (fresh : List (α × ℕ)) : ScoredSet α := fresh.foldl add set

theorem entries_add {set : ScoredSet α} {entry : α × ℕ} (fresh : entry.1 ∉ set.entries.map Prod.fst) :
    (set.add entry).entries = set.entries ++ [entry] := by
  have others : set.entries.filter (fun e => e.1 ≠ entry.1) = set.entries := by
    apply filter_eq_self.mpr
    intro e member
    exact decide_eq_true fun same => fresh (same ▸ List.mem_map_of_mem member)
  exact congrArg (· ++ [entry]) others

theorem entries_addAll {set : ScoredSet α} {fresh : List (α × ℕ)}
    (distinct : (set.entries.map Prod.fst ++ fresh.map Prod.fst).Nodup) :
    (set.addAll fresh).entries = set.entries ++ fresh := by
  induction fresh generalizing set with
  | nil => exact (append_nil _).symm
  | cons entry fresh ih =>
    have new : entry.1 ∉ set.entries.map Prod.fst := fun old =>
      (nodup_append.mp distinct).2.2 _ old _ (mem_cons_self ..) rfl
    have step := entries_add new
    have rest : (set.add entry).addAll fresh = set.addAll (entry :: fresh) := rfl
    rw [← rest, ih, step, append_assoc, singleton_append]
    rw [step, map_append, map_singleton, append_assoc, singleton_append]
    exact distinct

end Add

@[simp] theorem entries_ofEntries (expiry : Option ℕ) (entries : List (α × ℕ))
    (nodup : (entries.map Prod.fst).Nodup) : (ofEntries expiry entries nodup).entries = entries := rfl

theorem entries_live_ofEntries {now e : ℕ} {es : List (α × ℕ)} {nodup : (es.map Prod.fst).Nodup} (present : es ≠ []) :
    ((ofEntries (some e) es nodup).live now).entries = if now ≤ e then es else [] := by
  have expiry : (ofEntries (some e) es nodup).expiry = some e := if_neg fun none => present (List.isEmpty_iff.mp none)
  have test : (ofEntries (some e) es nodup).expiry.all (now ≤ ·) = true ↔ now ≤ e := by
    rw [expiry, Option.all_some, decide_eq_true_eq]
  unfold live
  rw [apply_ite entries]
  exact if_congr test rfl rfl

theorem entries_live_empty {now : ℕ} (set : ScoredSet α) (vacant : set.entries = []) : (set.live now).entries = [] := by
  unfold live
  split_ifs
  · exact vacant
  · rfl

section Log
variable {window last now : ℕ} {set : ScoredSet α} {log fresh : List (α × ℕ)}

/-- The entries of a log that are younger than the window at an instant. -/
def recent (window now : ℕ) (log : List (α × ℕ)) : List (α × ℕ) := log.filter fun e => now < e.2 + window

/-- Trimmed to the window and with the new entries, before the expiry is renewed. -/
def extend [DecidableEq α] (window now : ℕ) (set : ScoredSet α) (fresh : List (α × ℕ)) : ScoredSet α :=
  ((set.live now).removeUpTo (now - window)).addAll fresh

/-- From an instant on, what is young in the set is what is young in the log. -/
structure Tracks (window last : ℕ) (set : ScoredSet α) (log : List (α × ℕ)) : Prop where
  past : ∀ e ∈ log, e.2 ≤ last
  young : ∀ now, last ≤ now → recent window now (set.live now).entries = recent window now log

theorem recent_append (first second : List (α × ℕ)) :
    recent window now (first ++ second) = recent window now first ++ recent window now second :=
  filter_append first second

theorem recent_recent (later : last ≤ now) : recent window now (recent window last log) = recent window now log := by
  unfold recent
  rw [List.filter_filter]
  apply filter_congr
  intro e _
  rw [← Bool.decide_and, decide_eq_decide]
  omega

theorem recent_eq_nil (log : List (α × ℕ)) (old : ∀ e ∈ log, e.2 + window ≤ now) : recent window now log = [] := by
  apply filter_eq_nil_iff.mpr
  intro e member young
  exact absurd (of_decide_eq_true young) (Nat.not_lt.mpr (old e member))

theorem tracks_empty (last : ℕ) : Tracks window last (empty : ScoredSet α) [] where
  past := fun _ member => absurd member not_mem_nil
  young := fun now _ => by rw [entries_live_empty empty rfl]

theorem Tracks.later (tracks : Tracks window last set log) (le : last ≤ now) : Tracks window now set log where
  past := fun e member => (tracks.past e member).trans le
  young := fun later after => tracks.young later (le.trans after)

variable [DecidableEq α]

/-- After the trim the set holds what is young in the log; the new entries follow it. -/
theorem Tracks.entries_extend (tracks : Tracks window last set log) (le : last ≤ now)
    (distinct : (log.map Prod.fst ++ fresh.map Prod.fst).Nodup) :
    (set.extend window now fresh).entries = recent window now log ++ fresh := by
  have trimmed : ((set.live now).removeUpTo (now - window)).entries = recent window now log := by
    rw [← tracks.young now le]
    unfold removeUpTo recent
    rw [entries_ofEntries]
    apply filter_congr
    intro e _
    rw [decide_eq_decide]
    omega
  have names : ((recent window now log).map Prod.fst ++ fresh.map Prod.fst).Nodup := by
    apply List.Nodup.sublist _ distinct
    exact (filter_sublist.map Prod.fst).append_right _
  unfold ScoredSet.extend
  rw [entries_addAll, trimmed]
  rw [trimmed]
  exact names

/-- Renewing the expiry with each extension, the set goes on to follow the log. -/
theorem Tracks.extend (tracks : Tracks window last set log) (le : last ≤ now)
    (distinct : (log.map Prod.fst ++ fresh.map Prod.fst).Nodup) (scores : ∀ e ∈ fresh, e.2 = now) :
    Tracks window now ((set.extend window now fresh).expire now window) (log ++ fresh) := by
  have past : ∀ e ∈ log ++ fresh, e.2 ≤ now := by
    intro e member
    rcases mem_append.mp member with old | new
    · exact (tracks.past e old).trans le
    · exact (scores e new).le
  refine ⟨past, fun later after => ?_⟩
  have entries := tracks.entries_extend le distinct
  have together : recent window later (recent window now log ++ fresh) = recent window later (log ++ fresh) := by
    rw [recent_append, recent_append, recent_recent after]
  unfold expire
  split_ifs with zero
  · rw [entries_live_empty empty rfl, recent_eq_nil (log ++ fresh)]
    · rfl
    · intro e member
      have := past e member
      omega
  · by_cases none : (set.extend window now fresh).entries = []
    · rw [entries_live_empty (ofEntries _ _ _) none, ← together, ← entries, none]
    · rw [entries_live_ofEntries none]
      split_ifs with alive
      · rw [entries, together]
      · rw [recent_eq_nil (log ++ fresh)]
        · rfl
        · intro e member
          have := past e member
          omega

end Log

end ScoredSet

end RemudaRmm.Foundation
