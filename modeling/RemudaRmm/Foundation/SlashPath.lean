import Mathlib.Data.List.Basic
import RemudaRmm.Foundation.Text

/-! Paths whose elements are separated by slashes: their shortest equivalent, joining, and what lies in a directory.
All of it is about the text of a path; nothing is looked up. -/
namespace RemudaRmm.Foundation
open List
variable {a b p : Text} {parts front back : List Text}

def slashed (parts : List Text) : Text := ['/'].intercalate parts

def pushElement (rooted : Bool) (stack : List Text) (element : Text) : List Text :=
  if element = [] ∨ element = ['.'] then stack
  else if element = ['.', '.'] then
    match stack with
    | [] => if rooted then [] else [element]
    | last :: rest => if last = ['.', '.'] then element :: stack else rest
  else element :: stack

def cleanElements (rooted : Bool) (elements : List Text) : List Text :=
  (elements.foldl (pushElement rooted) []).reverse

def cleanPath (p : Text) : Text :=
  if p.head? = some '/' then '/' :: slashed (cleanElements true (p.splitOn '/'))
  else
    let body := slashed (cleanElements false (p.splitOn '/'))
    if body = [] then ['.'] else body

def joinPath (elements : List Text) : Text :=
  let given := elements.filter (· ≠ [])
  if given = [] then [] else cleanPath (slashed given)

def pathDir (p : Text) : Text := cleanPath (p.reverse.dropWhile (· ≠ '/')).reverse

def Within (directory p : Text) : Prop := p = directory ∨ directory ++ ['/'] <+: p
  deriving Decidable

theorem Within.trans (outer : Within a b) (inner : Within b p) : Within a p := by
  rcases inner with rfl | inner
  · exact outer
  · rcases outer with rfl | outer
    · exact .inr inner
    · exact .inr (outer.trans ((prefix_append b ['/']).trans inner))

theorem Within.nested (first : Within a p) (second : Within b p) : Within a b ∨ Within b a := by
  rcases first with rfl | first
  · exact .inr second
  · rcases second with rfl | second
    · exact .inl (.inr first)
    · rcases List.prefix_or_prefix_of_prefix first second with shorter | longer
      · rcases prefix_concat_iff.mp shorter with same | inside
        · exact .inl (.inl (append_cancel_right same).symm)
        · exact .inl (.inr inside)
      · rcases prefix_concat_iff.mp longer with same | inside
        · exact .inr (.inl (append_cancel_right same).symm)
        · exact .inr (.inr inside)

/-- A file below a directory; everything rooted is below the root. -/
def Below (directory p : Text) : Prop := (directory = ['/'] ∧ p.head? = some '/') ∨ Within directory p
  deriving Decidable

theorem rooted_of_within_root (inside : Within a ['/']) (rooted : p.head? = some '/') : Below a p := by
  obtain ⟨rest, rfl⟩ : ∃ rest, p = '/' :: rest := head?_eq_some_iff.mp rooted
  rcases inside with same | longer
  · exact .inl ⟨same.symm, rfl⟩
  · cases a with
    | nil => exact .inr (.inr (cons_prefix_cons.mpr ⟨rfl, List.nil_prefix⟩))
    | cons c a =>
      have short := longer.length_le
      simp only [cons_append, length_cons, length_append, length_nil] at short
      omega

theorem Below.trans (outer : Below a b) (inner : Below b p) : Below a p := by
  rcases outer with ⟨rfl, rootedB⟩ | outer
  · refine .inl ⟨rfl, ?_⟩
    rcases inner with ⟨-, rooted⟩ | rfl | inner
    · exact rooted
    · exact rootedB
    · obtain ⟨rest, rfl⟩ := head?_eq_some_iff.mp rootedB
      obtain ⟨more, rfl⟩ := inner
      rfl
  · rcases inner with ⟨rfl, rooted⟩ | inner
    · exact rooted_of_within_root outer rooted
    · exact .inr (outer.trans inner)

theorem below_root_nested (rooted : p.head? = some '/') (second : Below b p) : Below ['/'] b ∨ Below b ['/'] := by
  rcases second with ⟨rfl, -⟩ | rfl | longer
  · exact .inl (.inr (.inl rfl))
  · exact .inl (.inl ⟨rfl, rooted⟩)
  · cases b with
    | nil => exact .inr (.inr (.inr (prefix_refl _)))
    | cons c b =>
      obtain ⟨more, rfl⟩ := longer
      exact .inl (.inl ⟨rfl, rooted⟩)

theorem Below.nested (first : Below a p) (second : Below b p) : Below a b ∨ Below b a := by
  rcases first with ⟨rfl, rooted⟩ | first
  · exact below_root_nested rooted second
  · rcases second with ⟨rfl, rooted⟩ | second
    · exact (below_root_nested rooted (.inr first)).symm
    · exact (first.nested second).imp .inr .inr

/-- A name that stands for itself. -/
structure IsName (t : Text) : Prop where
  filled : t ≠ []
  plain : '/' ∉ t
  notHere : t ≠ ['.']
  notUp : t ≠ ['.', '.']

instance decidableIsName (t : Text) : Decidable (IsName t) :=
  decidable_of_iff (t ≠ [] ∧ '/' ∉ t ∧ t ≠ ['.'] ∧ t ≠ ['.', '.'])
    ⟨fun ⟨a, b, c, d⟩ => ⟨a, b, c, d⟩, fun name => ⟨name.filled, name.plain, name.notHere, name.notUp⟩⟩

theorem pushElement_name {t : Text} (name : IsName t) (rooted : Bool) (stack : List Text) :
    pushElement rooted stack t = t :: stack := by
  unfold pushElement
  rw [if_neg (not_or.mpr ⟨name.filled, name.notHere⟩), if_neg name.notUp]

theorem foldl_pushElement (names : ∀ t ∈ parts, IsName t) (rooted : Bool) (stack : List Text) :
    parts.foldl (pushElement rooted) stack = parts.reverse ++ stack := by
  induction parts generalizing stack with
  | nil => rfl
  | cons t parts ih =>
    rw [foldl_cons, pushElement_name (names t mem_cons_self), ih fun u member =>
      names u (mem_cons_of_mem t member), reverse_cons, append_assoc]
    rfl

theorem splitOn_slashed (names : ∀ t ∈ parts, IsName t) (some_part : parts ≠ []) :
    (slashed parts).splitOn '/' = parts :=
  splitOn_intercalate '/' (fun t member => (names t member).plain) some_part

theorem slashed_cons_cons (t u : Text) (parts : List Text) :
    slashed (t :: u :: parts) = t ++ '/' :: slashed (u :: parts) := by
  simp only [slashed, intercalate_cons_cons, append_assoc, singleton_append]

theorem slashed_singleton (t : Text) : slashed [t] = t := intercalate_singleton

theorem slashed_append (some_front : front ≠ []) (some_back : back ≠ []) :
    slashed (front ++ back) = slashed front ++ '/' :: slashed back := intercalate_append some_front some_back

theorem slashed_head (names : ∀ t ∈ parts, IsName t) (some_part : parts ≠ []) :
    slashed parts ≠ [] ∧ (slashed parts).head? ≠ some '/' := by
  obtain ⟨t, rest, rfl⟩ := exists_cons_of_ne_nil some_part
  have name := names t mem_cons_self
  obtain ⟨c, cs, rfl⟩ := exists_cons_of_ne_nil name.filled
  have plain : c ≠ '/' := fun same => name.plain (same ▸ mem_cons_self)
  cases rest with
  | nil =>
    rw [slashed_singleton]
    exact ⟨cons_ne_nil _ _, fun same => plain (Option.some.inj same)⟩
  | cons u rest =>
    rw [slashed_cons_cons]
    exact ⟨cons_ne_nil _ _, fun same => plain (Option.some.inj same)⟩

theorem cleanPath_slashed (names : ∀ t ∈ parts, IsName t) (some_part : parts ≠ []) :
    cleanPath (slashed parts) = slashed parts := by
  obtain ⟨filled, unrooted⟩ := slashed_head names some_part
  have elements : cleanElements false parts = parts := by
    rw [cleanElements, foldl_pushElement names, append_nil, reverse_reverse]
  rw [cleanPath, if_neg unrooted, splitOn_slashed names some_part, elements]
  exact if_neg filled

theorem slashed_flatten {groups : List (List Text)} (filled : ∀ g ∈ groups, g ≠ []) :
    slashed (groups.map slashed) = slashed groups.flatten := by
  induction groups with
  | nil => rfl
  | cons g groups ih =>
    have rest := ih fun h member => filled h (mem_cons_of_mem g member)
    cases groups with
    | nil => simp [slashed_singleton]
    | cons h groups =>
      have some_rest : (h :: groups).flatten ≠ [] := by
        rw [flatten_cons]
        exact append_ne_nil_of_left_ne_nil (filled h (mem_cons_of_mem g mem_cons_self)) _
      rw [map_cons, map_cons, slashed_cons_cons, ← map_cons, rest, @flatten_cons _ g,
        slashed_append (filled g mem_cons_self) some_rest]

theorem joinPath_slashed (groups : List (List Text)) (some_group : groups ≠ [])
    (names : ∀ g ∈ groups, g ≠ [] ∧ ∀ t ∈ g, IsName t) : joinPath (groups.map slashed) = slashed groups.flatten := by
  have given : (groups.map slashed).filter (· ≠ []) = groups.map slashed := by
    rw [filter_eq_self]
    intro p member
    obtain ⟨g, listed, rfl⟩ := List.mem_map.mp member
    exact decide_eq_true (slashed_head (names g listed).2 (names g listed).1).1
  have some_name : groups.flatten ≠ [] := by
    obtain ⟨g, rest, rfl⟩ := exists_cons_of_ne_nil some_group
    rw [flatten_cons]
    exact append_ne_nil_of_left_ne_nil (names g mem_cons_self).1 _
  rw [joinPath, given, if_neg (by simpa using some_group), slashed_flatten fun g member => (names g member).1]
  refine cleanPath_slashed (fun t member => ?_) some_name
  obtain ⟨g, listed, inside⟩ := mem_flatten.mp member
  exact (names g listed).2 t inside

theorem joinPath_names (names : ∀ t ∈ parts, IsName t) (some_part : parts ≠ []) : joinPath parts = slashed parts := by
  have joined := joinPath_slashed (parts.map fun t => [t]) (by simpa using some_part) (by simpa using names)
  simpa only [List.map_map, Function.comp_def, slashed_singleton, List.map_id_fun', id, ← flatMap_def,
    flatMap_singleton'] using joined

theorem joinPath_rooted (names : ∀ t ∈ front ++ back, IsName t) (some_back : back ≠ []) :
    joinPath (('/' :: slashed front) :: back) = '/' :: slashed (front ++ back) := by
  have named : ∀ t ∈ back, IsName t := fun t member => names t (mem_append_right _ member)
  have given : (('/' :: slashed front) :: back).filter (· ≠ []) = ('/' :: slashed front) :: back := by
    rw [filter_eq_self]
    intro p member
    rcases mem_cons.mp member with rfl | inside
    · exact decide_eq_true (cons_ne_nil _ _)
    · exact decide_eq_true (named p inside).filled
  have whole : slashed (('/' :: slashed front) :: back) = '/' :: (slashed front ++ '/' :: slashed back) := by
    obtain ⟨t, rest, rfl⟩ := exists_cons_of_ne_nil some_back
    rw [slashed_cons_cons, cons_append]
  have elements : ('/' :: (slashed front ++ '/' :: slashed back)).splitOn '/' =
      [] :: ((slashed front).splitOn '/' ++ back) := by
    rw [← nil_append ('/' :: _), splitOn_append_cons_self, splitOn_append_cons_self, splitOn_slashed named some_back]
    rfl
  have cleaned : cleanElements true ([] :: ((slashed front).splitOn '/' ++ back)) = front ++ back := by
    unfold cleanElements
    cases front with
    | nil =>
      rw [nil_append, show ([] : Text) :: ((slashed []).splitOn '/' ++ back) = [[], []] ++ back from rfl,
        foldl_append, foldl_pushElement named]
      exact (congrArg List.reverse (append_nil _)).trans (reverse_reverse _)
    | cons t front =>
      rw [splitOn_slashed (fun u member => names u (mem_append_left _ member)) (cons_ne_nil _ _),
        foldl_cons, foldl_pushElement names]
      exact (congrArg List.reverse (append_nil _)).trans (reverse_reverse _)
  rw [joinPath, given, if_neg (cons_ne_nil _ _), whole, cleanPath, if_pos head?_cons, elements, cleaned]

theorem cleanPath_rooted (names : ∀ t ∈ parts, IsName t) : cleanPath ('/' :: slashed parts) = '/' :: slashed parts := by
  rw [cleanPath, if_pos head?_cons]
  cases parts with
  | nil => decide
  | cons t parts =>
    have elements : ('/' :: slashed (t :: parts)).splitOn '/' = [] :: t :: parts := by
      rw [← nil_append ('/' :: _), splitOn_append_cons_self, splitOn_slashed names (cons_ne_nil _ _)]
      rfl
    rw [elements, cleanElements, foldl_cons, foldl_pushElement names]
    exact congrArg (fun l => '/' :: slashed l) ((congrArg List.reverse (append_nil _)).trans
      (reverse_reverse _))

theorem joinPath_rooted_slashed (names : ∀ t ∈ front ++ back, IsName t)
    (some_back : back ≠ []) : joinPath ['/' :: slashed front, slashed back] = '/' :: slashed (front ++ back) := by
  rw [← joinPath_rooted names some_back]
  have named : ∀ t ∈ back, IsName t := fun t member => names t (mem_append_right _ member)
  have filled := (slashed_head named some_back).1
  have given : (('/' :: slashed front) :: back).filter (· ≠ []) = ('/' :: slashed front) :: back := by
    rw [filter_eq_self]
    intro p member
    rcases mem_cons.mp member with rfl | inside
    · exact decide_eq_true (cons_ne_nil _ _)
    · exact decide_eq_true (named p inside).filled
  obtain ⟨t, rest, rfl⟩ := exists_cons_of_ne_nil some_back
  have pair : [('/' :: slashed front), slashed (t :: rest)].filter (· ≠ []) =
      ['/' :: slashed front, slashed (t :: rest)] := by
    rw [filter_eq_self]
    intro p member
    rcases mem_cons.mp member with rfl | inside
    · exact decide_eq_true (cons_ne_nil _ _)
    · exact decide_eq_true ((mem_singleton.mp inside).symm ▸ filled)
  rw [joinPath, joinPath, given, pair, if_neg (cons_ne_nil _ _), if_neg (cons_ne_nil _ _),
    slashed_cons_cons, slashed_cons_cons, slashed_singleton]

theorem slashed_injective {a b : List Text} (first : ∀ t ∈ a, IsName t) (second : ∀ t ∈ b, IsName t) (some_a : a ≠ [])
    (some_b : b ≠ []) (same : slashed a = slashed b) : a = b := by
  rw [← splitOn_slashed first some_a, same, splitOn_slashed second some_b]

end RemudaRmm.Foundation
