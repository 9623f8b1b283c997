import Mathlib.Data.List.Lex
import RemudaRmm.Devices.PatchApproval

/-! When the comparison of patch versions is an order, and a pin allows all that is below what it allows. -/
namespace RemudaRmm.Devices
open Foundation List List

theorem charUnits_append {c d : Char} {s t : Units} (same : charUnits c ++ s = charUnits d ++ t) : c = d ∧ s = t := by
  have plain : ∀ n, n < 0x10000 → (UInt16.ofNat n).toNat = n := fun n small => UInt16.toNat_ofNat_of_lt' small
  have first := char_scalar c
  have second := char_scalar d
  have heads := congrArg (fun u : Units => (u.headD 0).toNat) same
  have codes : c.toNat = d.toNat → c = d := fun code => Char.toNat_inj.mp code
  unfold charUnits at same heads
  split_ifs at same heads with small less less
  · simp only [singleton_append, headD_cons, plain _ small, plain _ less] at heads
    exact ⟨codes heads, (cons.inj same).2⟩
  · simp only [cons_append, headD_cons] at heads
    rw [plain _ small, plain _ (by omega)] at heads
    omega
  · simp only [cons_append, headD_cons] at heads
    rw [plain _ less, plain _ (by omega)] at heads
    omega
  · simp only [cons_append, nil_append, headD_cons] at heads
    obtain ⟨-, rest⟩ := cons.inj same
    obtain ⟨low, later⟩ := cons.inj rest
    have lows := congrArg UInt16.toNat low
    rw [plain _ (by omega), plain _ (by omega)] at heads lows
    exact ⟨codes (by omega), later⟩

theorem units_injective : Function.Injective units := by
  intro s t same
  induction s generalizing t with
  | nil =>
    cases t with
    | nil => rfl
    | cons d t =>
      simp only [units, flatMap_cons, charUnits, flatMap_nil] at same
      split_ifs at same <;> cases same
  | cons c s ih =>
    cases t with
    | nil =>
      simp only [units, flatMap_cons, charUnits, flatMap_nil] at same
      split_ifs at same <;> cases same
    | cons d t =>
      obtain ⟨rfl, rest⟩ := charUnits_append same
      rw [ih rest]

def Numeral (x : Text) : Prop := x ≠ [] ∧ x.all Char.isDigit

instance decidableNumeral (x : Text) : Decidable (Numeral x) := inferInstanceAs (Decidable (_ ∧ _))

/-- Beyond the numbers of the platform. -/
def Infinite (x : Text) : Prop := Numeral x ∧ toDouble (number x) = none

instance decidableInfinite (x : Text) : Decidable (Infinite x) := inferInstanceAs (Decidable (_ ∧ _))

def compareParts (as bs : List Text) : Ordering :=
  (as.zip bs).foldr (fun p later => (comparePart p.1 p.2).then later) .eq

/-- The first parts that are not equal are numerals beyond the numbers of the platform. -/
def Overflows : List Text → List Text → Prop
  | x :: as, y :: bs => (Infinite x ∧ Infinite y) ∨ (comparePart x y = .eq ∧ Overflows as bs)
  | _, _ => False

/-- No parts differ, or the first that do ascend. -/
def Ascends : List Text → List Text → Prop
  | x :: as, y :: bs => comparePart x y = .lt ∨ (comparePart x y = .eq ∧ Ascends as bs)
  | _, _ => True

/-- In the order of text something else than a numeral is between two numerals. -/
structure Straddled (upper lower t : Text) : Prop where
  upperNumeral : Numeral upper
  lowerNumeral : Numeral lower
  other : ¬Numeral t
  above : units lower < units t
  below : units t < units upper

/-- Where three versions part, one of them is between the others in the order of text, and these have numerals there and
are, compared as numbers, in the other order. -/
def Tangled : List Text → List Text → List Text → Prop
  | x :: as, y :: bs, z :: cs =>
    (Straddled x y z ∧ Ascends (x :: as) (y :: bs)) ∨ (Straddled y z x ∧ Ascends (y :: bs) (z :: cs)) ∨
      (Straddled z x y ∧ ¬Ascends (x :: as) (z :: cs)) ∨
        (comparePart x y = .eq ∧ comparePart y z = .eq ∧ Tangled as bs cs)
  | _, _, _ => False

section Part
variable {x y z : Text} {as bs cs : List Text}

theorem comparePart_numerals (left : Numeral x) (right : Numeral y) : comparePart x y = compareNumerals x y :=
  if_pos ⟨left, right⟩

theorem comparePart_mixed (mixed : ¬(Numeral x ∧ Numeral y)) :
    comparePart x y = if x = y then .eq else if units x < units y then .lt else .gt :=
  if_neg mixed

theorem comparePart_lt_iff (mixed : ¬(Numeral x ∧ Numeral y)) : comparePart x y = .lt ↔ units x < units y := by
  rw [comparePart_mixed mixed]
  split_ifs with same less
  · rw [same]
    simp
  · simp [less]
  · simp [less]

theorem comparePart_eq_iff (mixed : ¬(Numeral x ∧ Numeral y)) : comparePart x y = .eq ↔ x = y := by
  rw [comparePart_mixed mixed]
  split_ifs with same less <;> simp [same]

theorem units_lt_iff (differ : x ≠ y) : ¬units x < units y ↔ units y < units x := by
  constructor
  · intro above
    rcases List.le_iff_lt_or_eq.mp (List.not_lt.mp above) with less | same
    · exact less
    · exact absurd (units_injective same).symm differ
  · exact fun above below => List.lt_irrefl _ (List.lt_trans above below)

theorem comparePart_swap (finite : ¬(Infinite x ∧ Infinite y)) : comparePart y x = (comparePart x y).swap := by
  by_cases numerals : Numeral x ∧ Numeral y
  · rw [comparePart_numerals numerals.1 numerals.2, comparePart_numerals numerals.2 numerals.1]
    unfold compareNumerals
    unfold Infinite at finite
    cases first : toDouble (number x) with
    | none =>
      cases second : toDouble (number y) with
      | none => exact absurd ⟨⟨numerals.1, first⟩, numerals.2, second⟩ finite
      | some b => rfl
    | some a =>
      cases second : toDouble (number y) with
      | none => rfl
      | some b => exact Std.OrientedOrd.eq_swap
  · have other : ¬(Numeral y ∧ Numeral x) := fun both => numerals both.symm
    by_cases same : x = y
    · rw [(comparePart_eq_iff numerals).mpr same, (comparePart_eq_iff other).mpr same.symm]
      rfl
    · by_cases less : units x < units y
      · have greater : comparePart y x = .gt := by
          rw [comparePart_mixed other, if_neg (Ne.symm same), if_neg ((units_lt_iff (Ne.symm same)).mpr less)]
        rw [greater, (comparePart_lt_iff numerals).mpr less]
        rfl
      · have greater : comparePart x y = .gt := by
          rw [comparePart_mixed numerals, if_neg same, if_neg less]
        rw [greater, (comparePart_lt_iff other).mpr ((units_lt_iff same).mp less)]
        rfl

theorem comparePart_infinite (left : Infinite x) (right : Infinite y) : comparePart x y = .gt := by
  rw [comparePart_numerals left.1 right.1, compareNumerals, left.2, right.2]

theorem compareNumerals_then (first : compareNumerals x y ≠ .gt) (second : compareNumerals y z ≠ .gt) :
    compareNumerals x z = (compareNumerals x y).then (compareNumerals y z) := by
  unfold compareNumerals at first second ⊢
  generalize toDouble (number x) = a, toDouble (number y) = b, toDouble (number z) = c at first second ⊢
  cases a with
  | none => exact absurd rfl first
  | some a =>
    cases b with
    | none => exact absurd rfl second
    | some b =>
      cases c with
      | none => cases less : compare a b <;> simp_all
      | some c =>
        simp only at first second ⊢
        rcases lt_trichotomy a b with less | same | greater
        · have later : a < c := lt_of_lt_of_le less (compare_le_iff_le.mp second)
          rw [compare_lt_iff_lt.mpr less, compare_lt_iff_lt.mpr later]
          rfl
        · rw [same, compare_eq_iff_eq.mpr rfl]
          rfl
        · exact absurd (compare_gt_iff_gt.mpr greater) first

theorem comparePart_then (alone : ¬(Numeral x ∧ Numeral y)) (apart : ¬(Numeral y ∧ Numeral z))
    (wide : ¬(Numeral x ∧ Numeral z)) (first : comparePart x y ≠ .gt) (second : comparePart y z ≠ .gt) :
    comparePart x z = (comparePart x y).then (comparePart y z) := by
  cases left : comparePart x y with
  | gt => exact absurd left first
  | eq =>
    rw [(comparePart_eq_iff alone).mp left]
    rfl
  | lt =>
    have less := (comparePart_lt_iff alone).mp left
    refine (comparePart_lt_iff wide).mpr ?_
    cases right : comparePart y z with
    | gt => exact absurd right second
    | eq => rwa [← (comparePart_eq_iff apart).mp right]
    | lt => exact List.lt_trans less ((comparePart_lt_iff apart).mp right)

theorem ascends_cons_trans (composes : comparePart x y ≠ .gt → comparePart y z ≠ .gt →
      comparePart x z = (comparePart x y).then (comparePart y z))
    {tangled : Prop} (rest : (Ascends as bs → Ascends bs cs → Ascends as cs) ↔ ¬tangled) :
    (Ascends (x :: as) (y :: bs) → Ascends (y :: bs) (z :: cs) → Ascends (x :: as) (z :: cs)) ↔
      ¬(comparePart x y = .eq ∧ comparePart y z = .eq ∧ tangled) := by
  simp only [Ascends]
  cases left : comparePart x y with
  | gt => simp
  | lt | eq =>
    cases right : comparePart y z <;> simp_all

theorem ascends_mixed (mixed : ¬(Numeral x ∧ Numeral y)) (differ : x ≠ y) :
    Ascends (x :: as) (y :: bs) ↔ units x < units y := by
  simp only [Ascends, comparePart_lt_iff mixed, comparePart_eq_iff mixed, differ, false_and, or_false]

theorem straddled_iff (upper : Numeral x) (lower : Numeral y) (other : ¬Numeral z) :
    Straddled x y z ↔ units y < units z ∧ units z < units x :=
  ⟨fun between => ⟨between.above, between.below⟩, fun between => ⟨upper, lower, other, between.1, between.2⟩⟩

theorem tangled_cons_of_uniform (first : ¬Straddled x y z) (second : ¬Straddled y z x) (third : ¬Straddled z x y) :
    Tangled (x :: as) (y :: bs) (z :: cs) ↔ comparePart x y = .eq ∧ comparePart y z = .eq ∧ Tangled as bs cs := by
  simp only [Tangled, first, second, third, false_and, false_or]

theorem ascends_trans_iff (sized : as.length = bs.length) :
    (Ascends as bs → Ascends bs cs → Ascends as cs) ↔ ¬Tangled as bs cs := by
  induction as generalizing bs cs with
  | nil => simp [Ascends, Tangled]
  | cons x as ih =>
    cases bs with
    | nil => cases sized
    | cons y bs =>
      cases cs with
      | nil => simp [Ascends, Tangled]
      | cons z cs =>
        have rest := @ih bs cs (Nat.succ.inj sized)
        have other (n m t : Text) (numeral : Numeral t) : ¬Straddled n m t := fun between => between.other numeral
        have upper (n m t : Text) (plain : ¬Numeral n) : ¬Straddled n m t := fun between => plain between.upperNumeral
        have lower (n m t : Text) (plain : ¬Numeral m) : ¬Straddled n m t := fun between => plain between.lowerNumeral
        have differ {n t : Text} (numeral : Numeral n) (plain : ¬Numeral t) : n ≠ t := by
          intro same
          exact plain (same ▸ numeral)
        by_cases front : Numeral x ∧ Numeral y
        · by_cases last : Numeral z
          · rw [tangled_cons_of_uniform (other _ _ _ last) (other _ _ _ front.1) (other _ _ _ front.2)]
            refine ascends_cons_trans ?_ rest
            rw [comparePart_numerals front.1 front.2, comparePart_numerals front.2 last,
              comparePart_numerals front.1 last]
            exact compareNumerals_then
          · have back : ¬(Numeral y ∧ Numeral z) := fun both => last both.2
            have ends : ¬(Numeral x ∧ Numeral z) := fun both => last both.2
            simp only [Tangled, straddled_iff front.1 front.2 last, upper z x y last, lower y z x last,
              ascends_mixed back (differ front.2 last), ascends_mixed ends (differ front.1 last),
              comparePart_eq_iff back, differ front.2 last, false_and, and_false, or_false]
            rw [← units_lt_iff (differ front.1 last)]
            tauto
        · by_cases back : Numeral y ∧ Numeral z
          · have first : ¬Numeral x := fun numeral => front ⟨numeral, back.1⟩
            have ends : ¬(Numeral x ∧ Numeral z) := fun both => first both.1
            simp only [Tangled, straddled_iff back.1 back.2 first, upper x y z first, lower z x y first,
              ascends_mixed front (differ back.1 first).symm, ascends_mixed ends (differ back.2 first).symm,
              comparePart_eq_iff front, (differ back.1 first).symm, false_and, or_false, false_or]
            rw [← units_lt_iff (differ back.2 first).symm]
            tauto
          · by_cases ends : Numeral x ∧ Numeral z
            · have middle : ¬Numeral y := fun numeral => front ⟨ends.1, numeral⟩
              simp only [Tangled, straddled_iff ends.2 ends.1 middle, lower x y z middle, upper y z x middle,
                ascends_mixed front (differ ends.1 middle), ascends_mixed back (differ ends.2 middle).symm,
                comparePart_eq_iff front, differ ends.1 middle, false_and, or_false, false_or]
              rw [not_and_not_right, and_imp]
            · have first : ¬Straddled x y z := fun between => front ⟨between.upperNumeral, between.lowerNumeral⟩
              have second : ¬Straddled y z x := fun between => back ⟨between.upperNumeral, between.lowerNumeral⟩
              have third : ¬Straddled z x y := fun between => ends ⟨between.lowerNumeral, between.upperNumeral⟩
              rw [tangled_cons_of_uniform first second third]
              exact ascends_cons_trans (comparePart_then front back ends) rest

theorem compareParts_cons : compareParts (x :: as) (y :: bs) = (comparePart x y).then (compareParts as bs) := rfl

theorem compareParts_ne_gt_iff : compareParts as bs ≠ .gt ↔ Ascends as bs := by
  induction as generalizing bs with
  | nil => simp [compareParts, Ascends]
  | cons x as ih =>
    cases bs with
    | nil => simp [compareParts, Ascends]
    | cons y bs =>
      rw [compareParts_cons]
      simp only [Ascends, ← ih]
      cases comparePart x y <;> simp

theorem compareParts_swap_iff (sized : as.length = bs.length) :
    compareParts bs as = (compareParts as bs).swap ↔ ¬Overflows as bs := by
  induction as generalizing bs with
  | nil =>
    cases bs with
    | nil => simp [compareParts, Overflows]
    | cons y bs => cases sized
  | cons x as ih =>
    cases bs with
    | nil => cases sized
    | cons y bs =>
      have rest := @ih bs (Nat.succ.inj sized)
      rw [compareParts_cons, compareParts_cons, Overflows]
      by_cases infinite : Infinite x ∧ Infinite y
      · rw [comparePart_infinite infinite.1 infinite.2, comparePart_infinite infinite.2 infinite.1]
        simp [infinite]
      · rw [comparePart_swap infinite]
        cases comparePart x y with
        | lt | gt => simp [infinite]
        | eq => simpa [infinite] using rest

end Part

/-- A text that is not blank. -/
structure PatchVersion where
  text : Text
  filled : trimBy (fun c => isSpaceCode c.toNat) text ≠ []

namespace PatchVersion

def parts (v : PatchVersion) : List Text := versionParts (trimBy (fun c => isSpaceCode c.toNat) v.text)

def width (a b c : PatchVersion) : ℕ := max (max a.parts.length b.parts.length) c.parts.length

def padded (v : PatchVersion) (n : ℕ) : List Text := padParts n v.parts

def AtMost (v w : PatchVersion) : Prop := ∃ o, comparePatchVersions (some v.text) (some w.text) = some o ∧ o ≠ .gt

/-- The comparison of the versions is an order on them, and a pin at the third of them allows all that is below what it
allows of them. -/
structure Ordered (a b c : PatchVersion) : Prop where
  antisymmetric : comparePatchVersions (some b.text) (some a.text) =
    (comparePatchVersions (some a.text) (some b.text)).map Ordering.swap
  transitive : a.AtMost b → b.AtMost c → a.AtMost c
  pinned : ∀ toLowerCase patch rules rule, appRuleFor toLowerCase patch rules = some rule → rule.action = .pin c.text →
    a.AtMost b → evaluateAppRule toLowerCase { patch with version := some b.text } rules = .allowed →
      evaluateAppRule toLowerCase { patch with version := some a.text } rules = .allowed

variable {a b c v w : PatchVersion}

theorem length_padded {n : ℕ} (wide : v.parts.length ≤ n) : (v.padded n).length = n := by
  rw [padded, padParts, length_append, length_replicate]
  omega

theorem comparePart_small {x y : Text} (left : Numeral x) (right : Numeral y) (first : number x < 2 ^ 53)
    (second : number y < 2 ^ 53) : comparePart x y = compare (number x : ℚ) (number y) := by
  rw [comparePart_numerals left right, compareNumerals, toDouble_natCast first, toDouble_natCast second]

theorem comparePart_zero : comparePart ['0'] ['0'] = .eq := by
  rw [comparePart_small (by decide) (by decide) (by decide) (by decide)]
  exact compare_eq_iff_eq.mpr rfl

theorem compareParts_zeros (as bs : List Text) (sized : as.length = bs.length) (k : ℕ) :
    compareParts (as ++ replicate k ['0']) (bs ++ replicate k ['0']) = compareParts as bs := by
  have zeros : compareParts (replicate k ['0']) (replicate k ['0']) = .eq := by
    induction k with
    | zero => rfl
    | succ k ih => rw [replicate_succ, compareParts_cons, comparePart_zero, ih]; rfl
  rw [compareParts, zip_append sized, foldr_append]
  exact congrArg (fun rest => foldr _ rest _) zeros

theorem padded_add (m n : ℕ) (wide : v.parts.length ≤ m) (less : m ≤ n) :
    v.padded n = v.padded m ++ replicate (n - m) ['0'] := by
  rw [padded, padded, padParts, padParts, append_assoc, replicate_append_replicate]
  congr 2
  omega

theorem compare_eq (n : ℕ) (left : v.parts.length ≤ n) (right : w.parts.length ≤ n) :
    comparePatchVersions (some v.text) (some w.text) = some (compareParts (v.padded n) (w.padded n)) := by
  let m := max v.parts.length w.parts.length
  have less : m ≤ n := max_le left right
  have first : v.parts.length ≤ m := le_max_left _ _
  have second : w.parts.length ≤ m := le_max_right _ _
  have same : (v.padded m).length = (w.padded m).length := by rw [length_padded first, length_padded second]
  rw [padded_add m n first less, padded_add m n second less, compareParts_zeros _ _ same]
  exact if_neg (not_or.mpr ⟨v.filled, w.filled⟩)

theorem atMost_iff (n : ℕ) (left : v.parts.length ≤ n) (right : w.parts.length ≤ n) :
    v.AtMost w ↔ Ascends (v.padded n) (w.padded n) := by
  rw [AtMost, compare_eq n left right, ← compareParts_ne_gt_iff]
  simp

theorem evaluateAppRule_pin {toLowerCase : Text → Text} {patch : PatchRow} {rules : List (Text × PolicyAppRule)}
    {rule : PolicyAppRule} (found : appRuleFor toLowerCase patch rules = some rule) (pin : rule.action = .pin c.text) :
    evaluateAppRule toLowerCase { patch with version := some v.text } rules = .allowed ↔ v.AtMost c := by
  have same : appRuleFor toLowerCase { patch with version := some v.text } rules = some rule := found
  rw [evaluateAppRule, same]
  simp only [pin, AtMost]
  cases comparePatchVersions (some v.text) (some c.text) with
  | none => simp
  | some o => cases o <;> simp

/-- The comparison is an order on three versions exactly when the first two do not part at numerals beyond the numbers
of the platform, and numbers and text do not disagree where the three part. -/
theorem ordered_iff (a b c : PatchVersion) : Ordered a b c ↔
    ¬Overflows (a.padded (width a b c)) (b.padded (width a b c)) ∧
      ¬Tangled (a.padded (width a b c)) (b.padded (width a b c)) (c.padded (width a b c)) := by
  have first : a.parts.length ≤ width a b c := le_trans (le_max_left _ _) (le_max_left _ _)
  have second : b.parts.length ≤ width a b c := le_trans (le_max_right _ _) (le_max_left _ _)
  have third : c.parts.length ≤ width a b c := le_max_right _ _
  have sized : (a.padded (width a b c)).length = (b.padded (width a b c)).length := by
    rw [length_padded first, length_padded second]
  rw [← compareParts_swap_iff sized, ← ascends_trans_iff sized, ← atMost_iff _ first second,
    ← atMost_iff _ second third, ← atMost_iff _ first third]
  constructor
  · intro ordered
    have swapped := ordered.antisymmetric
    rw [compare_eq _ second first, compare_eq _ first second] at swapped
    exact ⟨Option.some.inj swapped, ordered.transitive⟩
  · intro ⟨swapped, through⟩
    refine ⟨?_, through, ?_⟩
    · rw [compare_eq _ second first, compare_eq _ first second, swapped]
      rfl
    · intro toLowerCase patch rules rule found pin below allowed
      exact (evaluateAppRule_pin found pin).mpr (through below ((evaluateAppRule_pin found pin).mp allowed))

def ten : PatchVersion := ⟨"10".toList, by decide⟩

def oneA : PatchVersion := ⟨"1a".toList, by decide⟩

def nine : PatchVersion := ⟨"9".toList, by decide⟩

/-- `10 ≤ 1a ≤ 9` as texts, and ten is above nine. -/
theorem not_ordered_ten : ¬Ordered ten oneA nine := by
  intro ordered
  have below := ordered.transitive ⟨.lt, by decide +kernel, by decide⟩ ⟨.lt, by decide +kernel, by decide⟩
  rw [atMost_iff 1 (by decide) (by decide), ← compareParts_ne_gt_iff] at below
  refine below ?_
  have parts : comparePart "10".toList "9".toList = .gt := by
    rw [comparePart_small (by decide) (by decide) (by decide) (by decide)]
    exact compare_gt_iff_gt.mpr (Nat.cast_lt.mpr (by decide))
  exact (congrArg (fun o : Ordering => o.then .eq) parts).trans rfl

end PatchVersion

end RemudaRmm.Devices
