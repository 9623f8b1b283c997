import Mathlib.Data.List.Sort

/-! Half-open spans of positions. Spans that overlap are merged into the largest one without a gap, and each merged span
is replaced in a list by the token of its label. -/
namespace RemudaRmm.Foundation
open List

structure Span where
  (start stop : ℕ)
  deriving DecidableEq

namespace Span

def Filled (s : Span) : Prop := s.start < s.stop
  deriving Decidable

def Has (s : Span) (p : ℕ) : Prop := s.start ≤ p ∧ p < s.stop
  deriving Decidable

def Crosses (s : Span) (p : ℕ) : Prop := s.start < p ∧ p < s.stop

end Span

structure Labelled (β : Type) extends Span where
  label : β

section Merge
variable {β : Type}

/-- The order in which spans are merged: by their start, then by their end. -/
def spanLe (a b : Labelled β) : Prop := a.start < b.start ∨ (a.start = b.start ∧ a.stop ≤ b.stop)

instance decidableSpanLe : DecidableRel (@spanLe β) := fun _ _ => inferInstanceAs (Decidable (_ ∨ _))

/-- The next span begins inside the last one, or at its end where `touching` spans are merged too. -/
def joins (touching : Bool) (last next : Labelled β) : Prop :=
  next.start < last.stop ∨ (touching = true ∧ next.start = last.stop)

instance decidableJoins (touching : Bool) (last next : Labelled β) : Decidable (joins touching last next) :=
  inferInstanceAs (Decidable (_ ∨ _))

/-- The loop over sorted spans: a span is merged into the last one or is the new last one. -/
def mergeSorted (touching : Bool) : Labelled β → List (Labelled β) → List (Labelled β)
  | last, [] => [last]
  | last, next :: rest =>
    if joins touching last next then
      mergeSorted touching { last with stop := max last.stop next.stop } rest
    else last :: mergeSorted touching next rest

def mergeSpans (touching : Bool) (spans : List (Labelled β)) : List (Labelled β) :=
  match spans.insertionSort spanLe with
  | [] => []
  | first :: rest => mergeSorted touching first rest

def Rising (spans : List (Labelled β)) : Prop := spans.Pairwise fun a b => a.start ≤ b.start

section Loop
variable {touching : Bool} {last next : Labelled β} {rest : List (Labelled β)}

theorem Rising.skip (rising : Rising (last :: next :: rest)) (stop : ℕ) :
    Rising ({ last with stop := stop } :: rest) := by
  unfold Rising at rising ⊢
  rw [pairwise_cons, pairwise_cons] at rising
  rw [pairwise_cons]
  exact ⟨fun b member => rising.1 b (mem_cons_of_mem _ member), rising.2.2⟩

theorem Rising.first (rising : Rising (last :: next :: rest)) : last.start ≤ next.start :=
  rel_of_pairwise_cons rising mem_cons_self

/-- What holds of the two spans for a position holds of the span that they are merged into. -/
theorem mergeSorted_exists {P : Span → Prop} (rising : Rising (last :: rest))
    (merged : ∀ a b : Labelled β, a.start ≤ b.start → joins touching a b →
      (P ⟨a.start, max a.stop b.stop⟩ ↔ P a.toSpan ∨ P b.toSpan)) :
    (∃ m ∈ mergeSorted touching last rest, P m.toSpan) ↔ ∃ s ∈ last :: rest, P s.toSpan := by
  induction rest generalizing last with
  | nil => rw [mergeSorted]
  | cons next rest ih =>
    rw [mergeSorted]
    split_ifs with joined
    · rw [ih (rising.skip _), exists_mem_cons_iff, exists_mem_cons_iff, exists_mem_cons_iff, ← or_assoc]
      exact or_congr_left (merged last next rising.first joined)
    · rw [exists_mem_cons_iff, ih (List.Pairwise.of_cons rising), @exists_mem_cons_iff _ _ last]

theorem has_merged {a b : Labelled β} {p : ℕ} (rising : a.start ≤ b.start) (joined : joins touching a b) :
    Span.Has ⟨a.start, max a.stop b.stop⟩ p ↔ a.Has p ∨ b.Has p := by
  unfold joins at joined
  unfold Span.Has
  dsimp only
  omega

theorem crosses_merged {a b : Labelled β} {p : ℕ} (rising : a.start ≤ b.start) (joined : joins false a b) :
    Span.Crosses ⟨a.start, max a.stop b.stop⟩ p ↔ a.Crosses p ∨ b.Crosses p := by
  unfold joins at joined
  unfold Span.Crosses
  dsimp only
  simp only [Bool.false_eq_true, false_and, or_false] at joined
  omega

theorem mergeSorted_spans {P : Labelled β → Prop} (rising : Rising (last :: rest)) (each : ∀ s ∈ last :: rest, P s)
    (merged : ∀ a b : Labelled β, P a → P b → P { a with stop := max a.stop b.stop }) :
    ∀ m ∈ mergeSorted touching last rest, P m := by
  induction rest generalizing last with
  | nil => exact each
  | cons next rest ih =>
    rw [mergeSorted]
    rw [forall_mem_cons, forall_mem_cons] at each
    split_ifs
    · exact ih (rising.skip _) (forall_mem_cons.mpr ⟨merged _ _ each.1 each.2.1, each.2.2⟩)
    · exact forall_mem_cons.mpr ⟨each.1, ih (List.Pairwise.of_cons rising) (forall_mem_cons.mpr each.2)⟩

theorem mergeSorted_start (rising : Rising (last :: rest)) :
    ∀ m ∈ mergeSorted touching last rest, last.start ≤ m.start := by
  induction rest generalizing last with
  | nil =>
    intro m member
    rw [mem_singleton.mp member]
  | cons next rest ih =>
    rw [mergeSorted]
    split_ifs
    · exact ih (rising.skip _)
    · rw [forall_mem_cons]
      refine ⟨le_rfl, fun m member => ?_⟩
      exact rising.first.trans (ih (List.Pairwise.of_cons rising) m member)

theorem mergeSorted_unjoined (rising : Rising (last :: rest)) :
    (mergeSorted touching last rest).Pairwise fun a b => a.start ≤ b.start ∧ ¬joins touching a b := by
  induction rest generalizing last with
  | nil => exact pairwise_singleton _ _
  | cons next rest ih =>
    rw [mergeSorted]
    split_ifs with joined
    · exact ih (rising.skip _)
    · have later := List.Pairwise.of_cons rising
      refine pairwise_cons.mpr ⟨fun m member => ?_, ih later⟩
      have begins := mergeSorted_start later m member
      refine ⟨rising.first.trans begins, ?_⟩
      cases touching <;> simp only [joins, true_and, Bool.false_eq_true, false_and, or_false] at joined ⊢ <;> omega

end Loop

theorem rising_insertionSort (spans : List (Labelled β)) : Rising (spans.insertionSort spanLe) := by
  have total : Std.Total (@spanLe β) := ⟨fun a b => by unfold spanLe; omega⟩
  have trans : IsTrans (Labelled β) spanLe := ⟨fun a b c => by unfold spanLe; omega⟩
  refine (pairwise_insertionSort spanLe spans).imp fun {a b} le => ?_
  unfold spanLe at le
  omega

section Whole
variable {touching : Bool} {spans : List (Labelled β)}

theorem mergeSpans_cases (spans : List (Labelled β)) :
    (spans = [] ∧ mergeSpans touching spans = []) ∨
      ∃ first rest, (first :: rest).Perm spans ∧ Rising (first :: rest) ∧
        mergeSpans touching spans = mergeSorted touching first rest := by
  have sorted := rising_insertionSort spans
  have same := perm_insertionSort spanLe spans
  unfold mergeSpans
  cases found : spans.insertionSort spanLe with
  | nil =>
    rw [found] at same
    exact .inl ⟨same.symm.eq_nil, rfl⟩
  | cons first rest =>
    rw [found] at same sorted
    exact .inr ⟨first, rest, same, sorted, rfl⟩

theorem mergeSorted_ne_nil (last : Labelled β) (rest : List (Labelled β)) : mergeSorted touching last rest ≠ [] := by
  induction rest generalizing last with
  | nil => exact cons_ne_nil _ _
  | cons next rest ih =>
    rw [mergeSorted]
    split_ifs
    · exact ih _
    · exact cons_ne_nil _ _

theorem mergeSpans_eq_nil : mergeSpans touching spans = [] ↔ spans = [] := by
  rcases @mergeSpans_cases β touching spans with ⟨rfl, none⟩ | ⟨first, rest, same, -, merged⟩
  · exact iff_of_true none rfl
  · rw [merged]
    refine iff_of_false (mergeSorted_ne_nil first rest) fun empty => ?_
    exact cons_ne_nil first rest (perm_nil.mp (empty ▸ same))

theorem mergeSpans_has (p : ℕ) : (∃ m ∈ mergeSpans touching spans, m.Has p) ↔ ∃ s ∈ spans, s.Has p := by
  rcases @mergeSpans_cases β touching spans with ⟨rfl, none⟩ | ⟨first, rest, same, rising, merged⟩
  · rw [none]
  · rw [merged, mergeSorted_exists (P := fun s => s.Has p) rising fun a b => has_merged]
    simp only [same.mem_iff]

theorem mergeSpans_crosses (p : ℕ) : (∃ m ∈ mergeSpans false spans, m.Crosses p) ↔ ∃ s ∈ spans, s.Crosses p := by
  rcases @mergeSpans_cases β false spans with ⟨rfl, none⟩ | ⟨first, rest, same, rising, merged⟩
  · rw [none]
  · rw [merged, mergeSorted_exists (P := fun s => s.Crosses p) rising fun a b => crosses_merged]
    simp only [same.mem_iff]

theorem mergeSpans_unjoined :
    (mergeSpans touching spans).Pairwise fun a b => a.start ≤ b.start ∧ ¬joins touching a b := by
  rcases @mergeSpans_cases β touching spans with ⟨rfl, none⟩ | ⟨first, rest, same, rising, merged⟩
  · rw [none]
    exact List.Pairwise.nil
  · rw [merged]
    exact mergeSorted_unjoined rising

theorem mergeSpans_apart : (mergeSpans touching spans).Pairwise fun a b => a.stop ≤ b.start := by
  refine mergeSpans_unjoined.imp fun {a b} unjoined => ?_
  unfold joins at unjoined
  omega

theorem mergeSpans_each {P : Labelled β → Prop} (each : ∀ s ∈ spans, P s)
    (merged : ∀ a b : Labelled β, P a → P b → P { a with stop := max a.stop b.stop }) :
    ∀ m ∈ mergeSpans touching spans, P m := by
  rcases @mergeSpans_cases β touching spans with ⟨rfl, none⟩ | ⟨first, rest, same, rising, result⟩
  · rw [none]
    exact fun _ member => absurd member not_mem_nil
  · rw [result]
    exact mergeSorted_spans rising (fun s member => each s (same.mem_iff.mp member)) merged

theorem mergeSpans_within {n : ℕ} (each : ∀ s ∈ spans, s.Filled ∧ s.stop ≤ n) :
    ∀ m ∈ mergeSpans touching spans, m.Filled ∧ m.stop ≤ n := by
  refine mergeSpans_each (P := fun s => s.Filled ∧ s.stop ≤ n) each fun a b first second => ?_
  exact ⟨lt_of_lt_of_le first.1 (le_max_left _ _), max_le first.2 second.2⟩

/-- A merged span is labelled by one of the spans that begin where it does. -/
theorem mergeSpans_label : ∀ m ∈ mergeSpans touching spans, ∃ s ∈ spans, s.start = m.start ∧ s.label = m.label :=
  mergeSpans_each (P := fun m => ∃ s ∈ spans, s.start = m.start ∧ s.label = m.label)
    (fun s member => ⟨s, member, rfl, rfl⟩) fun _ _ found _ => found

end Whole

section Replace
variable {α : Type} (token : β → List α)

/-- The loop from the last span to the first, in which the offsets of the spans before stay good. -/
def replaceFromRight (content : List α) (spans : List (Labelled β)) : List α :=
  spans.foldr (fun m out => out.take m.start ++ token m.label ++ out.drop m.stop) content

/-- The content from a position on, with one token in the place of each span. -/
def woven (content : List α) : ℕ → List (Labelled β) → List α
  | start, [] => content.drop start
  | start, m :: rest => (content.take m.start).drop start ++ token m.label ++ woven content m.stop rest

/-- Spans one after the other from a position on, inside a list. -/
def Laid (n : ℕ) : ℕ → List (Labelled β) → Prop
  | start, [] => start ≤ n
  | start, m :: rest => start ≤ m.start ∧ m.start ≤ m.stop ∧ Laid n m.stop rest

variable {token} {n start : ℕ} {spans : List (Labelled β)} {content : List α}

theorem Laid.le (laid : Laid n start spans) : start ≤ n := by
  induction spans generalizing start with
  | nil => exact laid
  | cons m rest ih => exact laid.1.trans (laid.2.1.trans (ih laid.2.2))

theorem Laid.above (laid : Laid n start spans) : ∀ s ∈ spans, start ≤ s.start := by
  induction spans generalizing start with
  | nil => exact fun _ member => absurd member not_mem_nil
  | cons m rest ih =>
    obtain ⟨begins, filled, later⟩ := laid
    rw [forall_mem_cons]
    exact ⟨begins, fun s member => begins.trans (filled.trans (ih later s member))⟩

theorem laid_of_apart (apart : spans.Pairwise fun a b => a.stop ≤ b.start)
    (within : ∀ m ∈ spans, start ≤ m.start ∧ m.Filled ∧ m.stop ≤ n) (le : start ≤ n) : Laid n start spans := by
  induction spans generalizing start with
  | nil => exact le
  | cons m rest ih =>
    obtain ⟨first, later⟩ := pairwise_cons.mp apart
    rw [forall_mem_cons] at within
    obtain ⟨⟨begins, filled, ends⟩, others⟩ := within
    refine ⟨begins, Nat.le_of_lt filled, ih later (fun b member => ?_) ends⟩
    exact ⟨first b member, (others b member).2⟩

theorem replaceFromRight_eq (laid : Laid content.length start spans) :
    replaceFromRight token content spans = content.take start ++ woven token content start spans := by
  induction spans generalizing start with
  | nil => exact (take_append_drop start content).symm
  | cons m rest ih =>
    obtain ⟨begins, filled, later⟩ := laid
    have ends : m.stop ≤ content.length := later.le
    have front : (content.take m.stop).length = m.stop := length_take_of_le ends
    have kept : content.take start ++ (content.take m.start).drop start = content.take m.start := by
      have split := take_append_drop start (content.take m.start)
      rw [take_take, min_eq_left begins] at split
      exact split
    show List.take m.start (replaceFromRight token content rest) ++ token m.label ++
      List.drop m.stop (replaceFromRight token content rest) = _
    rw [ih later, take_append_of_le_length (filled.trans_eq front.symm), take_take, min_eq_left filled,
      drop_append_of_le_length front.ge, drop_eq_nil_of_le front.le, nil_append, woven,
      append_assoc, append_assoc, ← append_assoc, ← append_assoc, kept, append_assoc]

/-- The positions outside the spans are what is left of a list of positions. -/
theorem mem_woven_positions (laid : Laid n start spans) (p : ℕ) :
    p ∈ woven (fun _ : β => []) (List.range n) start spans ↔ start ≤ p ∧ p < n ∧ ¬∃ m ∈ spans, m.Has p := by
  induction spans generalizing start with
  | nil =>
    rw [woven, range_eq_range', drop_range', mem_range'_1]
    have le : start ≤ n := laid
    simp only [not_mem_nil, false_and, exists_false, not_false_eq_true, and_true]
    omega
  | cons m rest ih =>
    obtain ⟨begins, filled, later⟩ := laid
    have ends := later.le
    rw [woven, append_nil, mem_append, ih later, exists_mem_cons_iff, take_range,
      range_eq_range', drop_range', mem_range'_1]
    have above : (∃ s ∈ rest, s.Has p) → m.stop ≤ p := by
      rintro ⟨s, member, has⟩
      exact (later.above s member).trans has.1
    unfold Span.Has at above ⊢
    by_cases inside : ∃ s ∈ rest, s.start ≤ p ∧ p < s.stop
    · have after := above inside
      simp only [inside, not_true_eq_false, and_false, or_true, or_false, iff_false]
      omega
    · simp only [inside, not_false_eq_true, and_true, or_false]
      omega

end Replace

end Merge

end RemudaRmm.Foundation
