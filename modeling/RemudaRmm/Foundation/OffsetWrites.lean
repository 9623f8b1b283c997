import Mathlib

/-! Writes at chosen offsets: what they leave, and when the sum of their lengths tells that nothing is missing. -/
namespace RemudaRmm.Foundation

/-- The data put at an offset; what lies between the end and the offset is filled up. -/
def writeAt {α : Type*} (fill : α) (offset : ℕ) (data content : List α) : List α :=
  if data = [] then content
  else content.take offset ++ List.replicate (offset - content.length) fill ++ data ++
    content.drop (offset + data.length)

structure Write (α : Type*) where
  start : ℕ
  data : List α
  deriving DecidableEq

variable {α : Type*}

namespace Write

def stop (w : Write α) : ℕ := w.start + w.data.length

def places (w : Write α) : Finset ℕ := Finset.Ico w.start w.stop

theorem mem_places {w : Write α} {i : ℕ} : i ∈ w.places ↔ w.start ≤ i ∧ i < w.stop := Finset.mem_Ico

theorem card_places (w : Write α) : w.places.card = w.data.length := by
  rw [places, Nat.card_Ico, stop]
  omega

end Write

/-- What the writes leave of an empty file; the newest stands first. -/
def written (fill : α) : List (Write α) → List α
  | [] => []
  | w :: ws => writeAt fill w.start w.data (written fill ws)

def covered : List (Write α) → Finset ℕ
  | [] => ∅
  | w :: ws => w.places ∪ covered ws

def sizes (ws : List (Write α)) : ℕ := (ws.map fun w => w.data.length).sum

def Inside (ws : List (Write α)) (n : ℕ) : Prop := ∀ w ∈ ws, w.data ≠ [] → w.stop ≤ n

def Apart (ws : List (Write α)) : Prop := ws.Pairwise fun w v => Disjoint w.places v.places

theorem length_writeAt (fill : α) (offset : ℕ) {data : List α} (filled : data ≠ []) (content : List α) :
    (writeAt fill offset data content).length = max content.length (offset + data.length) := by
  have positive := List.length_pos_of_ne_nil filled
  simp only [writeAt, if_neg filled, List.length_append, List.length_take, List.length_replicate, List.length_drop]
  omega

theorem writeAt_end (fill : α) (data content : List α) :
    writeAt fill content.length data content = content ++ data := by
  unfold writeAt
  split_ifs with none
  · rw [none, List.append_nil]
  · rw [List.take_length, Nat.sub_self, List.replicate_zero, List.append_nil,
      List.drop_eq_nil_of_le (Nat.le_add_right _ _), List.append_nil]

theorem writeAt_inside (fill : α) {offset i : ℕ} {data : List α} (content : List α) (from_start : offset ≤ i)
    (before_stop : i < offset + data.length) : (writeAt fill offset data content)[i]? = data[i - offset]? := by
  have filled : data ≠ [] := by
    rintro rfl
    rw [List.length_nil] at before_stop
    omega
  have front : (content.take offset ++ List.replicate (offset - content.length) fill).length = offset := by
    rw [List.length_append, List.length_take, List.length_replicate]
    omega
  rw [writeAt, if_neg filled, List.append_assoc, List.getElem?_append_right (by omega), front,
    List.getElem?_append_left (by omega)]

theorem writeAt_outside (fill : α) {offset i : ℕ} {data content : List α} (there : i < content.length)
    (apart : ¬(offset ≤ i ∧ i < offset + data.length)) : (writeAt fill offset data content)[i]? = content[i]? := by
  unfold writeAt
  split_ifs with none
  · rfl
  · by_cases before : i < offset
    · rw [List.append_assoc, List.append_assoc, List.getElem?_append_left (by rw [List.length_take]; omega),
        List.getElem?_take_of_lt before]
    · have past : offset + data.length ≤ i := by omega
      have front : (content.take offset ++ List.replicate (offset - content.length) fill ++ data).length =
          offset + data.length := by
        simp only [List.length_append, List.length_take, List.length_replicate]
        omega
      rw [List.getElem?_append_right (by omega), front, List.getElem?_drop]
      congr 1
      omega

variable {ws : List (Write α)}

theorem mem_covered {i : ℕ} : i ∈ covered ws ↔ ∃ w ∈ ws, i ∈ w.places := by
  induction ws with
  | nil => simp [covered]
  | cons w ws ih => simp [covered, ih]

variable {fill : α}

theorem written_lt {i : ℕ} (there : i ∈ covered ws) : i < (written fill ws).length := by
  induction ws with
  | nil => simp [covered] at there
  | cons w ws ih =>
    rw [written]
    by_cases filled : w.data = []
    · rw [covered, Finset.mem_union, Write.mem_places, Write.stop, filled, List.length_nil] at there
      rw [writeAt, if_pos filled]
      rcases there with inside | before
      · omega
      · exact ih before
    · rw [length_writeAt fill _ filled, lt_max_iff]
      rcases Finset.mem_union.mp there with inside | before
      · exact .inr (Write.mem_places.mp inside).2
      · exact .inl (ih before)

theorem length_written_le {n : ℕ} : (written fill ws).length ≤ n ↔ Inside ws n := by
  induction ws with
  | nil => simp [written, Inside]
  | cons w ws ih =>
    rw [written, Inside, List.forall_mem_cons]
    by_cases filled : w.data = []
    · rw [writeAt, if_pos filled, ih]
      exact ⟨fun inside => ⟨fun some => absurd filled some, inside⟩, fun inside => inside.2⟩
    · rw [length_writeAt fill _ filled, max_le_iff, ih]
      exact ⟨fun both => ⟨fun _ => both.2, both.1⟩, fun both => ⟨both.2, both.1 filled⟩⟩

/-- A covered byte is what one of the writes that cover it put there. -/
theorem written_by {i : ℕ} (there : i ∈ covered ws) :
    ∃ w ∈ ws, i ∈ w.places ∧ (written fill ws)[i]? = w.data[i - w.start]? := by
  induction ws with
  | nil => simp [covered] at there
  | cons w ws ih =>
    by_cases inside : i ∈ w.places
    · refine ⟨w, List.mem_cons_self, inside, ?_⟩
      exact writeAt_inside fill _ (Write.mem_places.mp inside).1 (Write.mem_places.mp inside).2
    · have before : i ∈ covered ws := (Finset.mem_union.mp there).resolve_left inside
      obtain ⟨v, member, place, same⟩ := ih before
      refine ⟨v, List.mem_cons_of_mem w member, place, ?_⟩
      rw [written, writeAt_outside fill (written_lt before) fun both => inside (Write.mem_places.mpr both), same]

theorem card_covered_le (ws : List (Write α)) : (covered ws).card ≤ sizes ws := by
  induction ws with
  | nil => simp [covered, sizes]
  | cons w ws ih =>
    have union := Finset.card_union_le w.places (covered ws)
    rw [Write.card_places] at union
    simp only [covered, sizes, List.map_cons, List.sum_cons] at *
    omega

theorem disjoint_covered {w : Write α} : Disjoint w.places (covered ws) ↔ ∀ v ∈ ws, Disjoint w.places v.places := by
  induction ws with
  | nil => simp [covered]
  | cons v ws ih => simp [covered, ih]

/-- As many places as bytes are covered exactly when no two writes meet. -/
theorem card_covered_iff (ws : List (Write α)) : (covered ws).card = sizes ws ↔ Apart ws := by
  induction ws with
  | nil => simp [covered, sizes, Apart]
  | cons w ws ih =>
    have rest := card_covered_le ws
    have union := Finset.card_union_add_card_inter w.places (covered ws)
    have meet : (w.places ∩ covered ws).card = 0 ↔ Disjoint w.places (covered ws) := by
      rw [Finset.card_eq_zero, Finset.disjoint_iff_inter_eq_empty]
    rw [Write.card_places] at union
    rw [Apart, List.pairwise_cons, ← disjoint_covered, ← meet, ← Apart, ← ih]
    simp only [covered, sizes, List.map_cons, List.sum_cons] at *
    omega

/-- Writes of as many bytes as there is room for that stay apart and inside cover all of it. -/
theorem covered_of_apart {n : ℕ} (total : sizes ws = n) (apart : Apart ws)
    (inside : Inside ws n) : covered ws = Finset.range n := by
  have within : covered ws ⊆ Finset.range n := by
    intro i there
    obtain ⟨w, member, place⟩ := mem_covered.mp there
    have filled : w.data ≠ [] := by
      intro none
      rw [Write.mem_places, Write.stop, none, List.length_nil] at place
      omega
    exact Finset.mem_range.mpr (lt_of_lt_of_le (Write.mem_places.mp place).2 (inside w member filled))
  refine Finset.eq_of_subset_of_card_le within ?_
  rw [Finset.card_range, (card_covered_iff ws).mpr apart, total]

/-- Writes that stay inside fill what some of them, apart from each other, add up to. -/
theorem fills_of_apart {some_ws ws : List (Write α)} {n : ℕ} (among : some_ws ⊆ ws)
    (total : sizes some_ws = n) (apart : Apart some_ws) (inside : Inside ws n) :
    (written fill ws).length = n ∧ ∀ i < n, i ∈ covered ws := by
  have all : ∀ i < n, i ∈ covered ws := by
    intro i small
    have there : i ∈ covered some_ws := by
      rw [covered_of_apart total apart fun w member => inside w (among member)]
      exact Finset.mem_range.mpr small
    obtain ⟨w, member, place⟩ := mem_covered.mp there
    exact mem_covered.mpr ⟨w, among member, place⟩
  refine ⟨le_antisymm (length_written_le.mpr inside) ?_, all⟩
  cases n with
  | zero => exact Nat.zero_le _
  | succ n => exact written_lt (all n (Nat.lt_succ_self n))

/-- Where as many bytes are written as there is room for, the writes fill it exactly when they stay apart and inside. -/
theorem fills_iff {n : ℕ} (total : sizes ws = n) :
    ((written fill ws).length = n ∧ ∀ i < n, i ∈ covered ws) ↔ Apart ws ∧ Inside ws n := by
  constructor
  · rintro ⟨length, all⟩
    have inside : Inside ws n := length_written_le.mp (Nat.le_of_eq length)
    have most : n ≤ (covered ws).card := by
      have subset : Finset.range n ⊆ covered ws := fun i member => all i (Finset.mem_range.mp member)
      simpa using Finset.card_le_card subset
    exact ⟨(card_covered_iff ws).mp (le_antisymm (card_covered_le ws) (total ▸ most)), inside⟩
  · rintro ⟨apart, inside⟩
    exact fills_of_apart (List.Subset.refl ws) total apart inside

end RemudaRmm.Foundation
