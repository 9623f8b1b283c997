import Mathlib.Data.List.Induction
import Mathlib.Data.List.Nodup

/-! A map that keeps its entries in the order in which their keys came; a later value takes the place of an earlier. -/
namespace RemudaRmm.Foundation.InsertionMap
open List Option

variable {α κ ν : Type*} [DecidableEq κ]

def put (key : κ) (value : ν) : List (κ × ν) → List (κ × ν)
  | [] => [(key, value)]
  | entry :: rest => if entry.1 = key then (key, value) :: rest else entry :: put key value rest

def get (key : κ) : List (κ × ν) → Option ν
  | [] => none
  | entry :: rest => if entry.1 = key then some entry.2 else get key rest

def remove (key : κ) (entries : List (κ × ν)) : List (κ × ν) := entries.filter fun entry => entry.1 ≠ key

def ofValues (key : ν → κ) (values : List ν) : List (κ × ν) :=
  values.foldl (fun entries value => put (key value) value entries) []

/-- The values under each key, in the order in which they came. -/
def groupBy (key : ν → κ) (values : List ν) : List (κ × List ν) :=
  values.foldl (fun groups value => put (key value) ((get (key value) groups).getD [] ++ [value]) groups) []

variable {entries : List (κ × ν)}

theorem put_absent {key : κ} (value : ν) (absent : key ∉ entries.map Prod.fst) :
    put key value entries = entries ++ [(key, value)] := by
  induction entries with
  | nil => rfl
  | cons entry rest ih =>
    rw [map_cons, mem_cons, not_or] at absent
    rw [put, if_neg (Ne.symm absent.1), ih absent.2, cons_append]

variable {value : ν}

theorem mem_keys_put {key other : κ} :
    other ∈ (put key value entries).map Prod.fst ↔ other = key ∨ other ∈ entries.map Prod.fst := by
  induction entries with
  | nil => simp [put]
  | cons entry rest ih =>
    rw [put]
    split_ifs with same
    · simp [same]
    · rw [map_cons, mem_cons, ih, map_cons, mem_cons]
      exact or_left_comm

theorem keys_put {key : κ} (keys : (entries.map Prod.fst).Nodup) : ((put key value entries).map Prod.fst).Nodup := by
  induction entries with
  | nil => simp [put]
  | cons entry rest ih =>
    rw [map_cons, nodup_cons] at keys
    rw [put]
    split_ifs with same
    · exact nodup_cons.mpr ⟨same ▸ keys.1, keys.2⟩
    · refine nodup_cons.mpr ⟨?_, ih keys.2⟩
      rw [mem_keys_put, not_or]
      exact ⟨same, keys.1⟩

theorem ofValues_of_nodup (key : ν → κ) {values : List ν} (keys : (values.map key).Nodup) :
    ofValues key values = values.map fun value => (key value, value) := by
  have step : ∀ (values : List ν) (entries : List (κ × ν)), (values.map key).Nodup →
      (∀ value ∈ values, key value ∉ entries.map Prod.fst) →
      values.foldl (fun entries value => put (key value) value entries) entries =
        entries ++ values.map fun value => (key value, value) := by
    intro values
    induction values with
    | nil => exact fun entries _ _ => (append_nil entries).symm
    | cons value values ih =>
      intro entries keys absent
      rw [map_cons, nodup_cons] at keys
      rw [foldl_cons, put_absent value (absent value mem_cons_self), ih _ keys.2, map_cons,
        append_assoc, singleton_append]
      intro other member
      rw [map_append, mem_append, not_or]
      refine ⟨absent other (mem_cons_of_mem value member), fun same => ?_⟩
      rw [map_singleton, mem_singleton] at same
      exact keys.1 (List.mem_map.mpr ⟨other, member, same⟩)
  exact (step values [] keys fun _ _ => not_mem_nil).trans (nil_append _)

theorem get_pairs_iff (key : ν → κ) {values : List ν} (keys : (values.map key).Nodup) {k : κ} :
    get k (values.map fun value => (key value, value)) = some value ↔ value ∈ values ∧ key value = k := by
  induction values with
  | nil => simp [get]
  | cons first values ih =>
    rw [map_cons, nodup_cons] at keys
    rw [map_cons, get, mem_cons]
    split_ifs with same
    · constructor
      · intro found
        cases found
        exact ⟨.inl rfl, same⟩
      · rintro ⟨rfl | later, equal⟩
        · rfl
        · exact absurd (List.mem_map.mpr ⟨value, later, equal.trans same.symm⟩) keys.1
    · rw [ih keys.2]
      constructor
      · exact fun found => ⟨.inr found.1, found.2⟩
      · rintro ⟨rfl | later, equal⟩
        · exact absurd equal same
        · exact ⟨later, equal⟩

theorem get_pairs_eq_none (key : ν → κ) {values : List ν} {k : κ} :
    get k (values.map fun value => (key value, value)) = none ↔ ∀ value ∈ values, key value ≠ k := by
  induction values with
  | nil => simp [get]
  | cons first values ih =>
    rw [map_cons, get, forall_mem_cons]
    split_ifs with same
    · exact ⟨fun missing => absurd missing (by simp), fun all => absurd same all.1⟩
    · rw [ih]
      exact ⟨fun all => ⟨same, all⟩, fun all => all.2⟩

theorem get_remove_of_ne {key other : κ} (differs : other ≠ key) (entries : List (κ × ν)) :
    get other (remove key entries) = get other entries := by
  induction entries with
  | nil => rfl
  | cons entry rest ih =>
    by_cases same : entry.1 = key
    · rw [remove, filter_cons_of_neg (by simpa using same), ← remove, ih, get,
        if_neg fun equal => differs (equal.symm.trans same)]
    · rw [remove, filter_cons_of_pos (by simpa using same), ← remove, get, get, ih]

theorem get_put (key other : κ) (value : ν) (entries : List (κ × ν)) :
    get other (put key value entries) = if key = other then some value else get other entries := by
  induction entries with
  | nil => rfl
  | cons entry rest ih =>
    by_cases first : entry.1 = key
    · rw [put, if_pos first, get, get, first]
      split_ifs <;> rfl
    · rw [put, if_neg first, get, ih, get]
      by_cases same : entry.1 = other
      · rw [if_pos same, if_pos same, if_neg fun equal => first (same.trans equal.symm)]
      · rw [if_neg same, if_neg same]

theorem mem_iff_get {key : κ} (keys : (entries.map Prod.fst).Nodup) :
    (key, value) ∈ entries ↔ get key entries = some value := by
  induction entries with
  | nil => simp [get]
  | cons entry rest ih =>
    rw [map_cons, nodup_cons] at keys
    rw [get, mem_cons]
    split_ifs with same
    · constructor
      · rintro (rfl | later)
        · rfl
        · exact absurd (List.mem_map.mpr ⟨_, later, same.symm⟩) keys.1
      · intro found
        exact .inl (Prod.ext same.symm (some.inj found).symm)
    · rw [← ih keys.2]
      exact or_iff_right fun equal => same (congrArg Prod.fst equal).symm

theorem groupBy_append (key : ν → κ) (values : List ν) (value : ν) :
    groupBy key (values ++ [value]) =
      put (key value) ((get (key value) (groupBy key values)).getD [] ++ [value]) (groupBy key values) := by
  rw [groupBy, foldl_append]
  rfl

theorem keys_groupBy (key : ν → κ) (values : List ν) : ((groupBy key values).map Prod.fst).Nodup := by
  induction values using List.reverseRecOn with
  | nil => exact nodup_nil
  | append_singleton values value ih =>
    rw [groupBy_append]
    exact keys_put ih

/-- A group holds the values with its key, and a key that no value has has no group. -/
theorem get_groupBy (key : ν → κ) (values : List ν) (k : κ) :
    get k (groupBy key values) =
      if values.filter (fun value => key value = k) = [] then none
      else some (values.filter fun value => key value = k) := by
  induction values using List.reverseRecOn with
  | nil => rfl
  | append_singleton values value ih =>
    rw [groupBy_append, get_put, filter_append]
    by_cases same : key value = k
    · subst same
      have kept : [value].filter (fun other => key other = key value) = [value] := filter_cons_of_pos (by simp)
      rw [if_pos rfl, ih, kept, if_neg (append_ne_nil_of_right_ne_nil _ (cons_ne_nil value []))]
      split_ifs with empty
      · rw [empty]
        rfl
      · rfl
    · rw [if_neg same, ih, filter_cons_of_neg (by simpa using same), filter_nil, append_nil]

theorem mem_groupBy_iff {key : ν → κ} {values group : List ν} {k : κ} :
    (k, group) ∈ groupBy key values ↔ group = values.filter (fun value => key value = k) ∧ group ≠ [] := by
  rw [mem_iff_get (keys_groupBy key values), get_groupBy]
  split_ifs with empty
  · constructor
    · intro found
      exact absurd found (by simp)
    · rintro ⟨rfl, some⟩
      exact absurd empty some
  · constructor
    · intro found
      cases found
      exact ⟨rfl, empty⟩
    · rintro ⟨rfl, -⟩
      rfl

end RemudaRmm.Foundation.InsertionMap
