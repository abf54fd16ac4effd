import ArduinoOS.Kernel.Path
import Mathlib.Algebra.BigOperators.Group.List.Basic
import Mathlib.Algebra.Order.Group.Int
import Mathlib.Algebra.Ring.Int.Defs
import Mathlib.Data.List.Induction

/-!
# The meaning of a path

An absolute path is a list of names, one behind each slash. Its meaning is the
stack these names leave. The depth of a path is that of its meaning, so what
changes the depth changes the meaning.
-/

set_option autoImplicit false

namespace ArduinoOS.Kernel

def dotName : CStr := CStr.lit "."
def parentName : CStr := CStr.lit ".."

/-- The names behind the slashes of an absolute path. -/
def components (path : CStr) : List CStr := path.tail.splitOn slash

/-- A name that leaves the stack as it is. -/
def Blank (name : CStr) : Prop := name = [] ∨ name = dotName

instance (name : CStr) : Decidable (Blank name) := inferInstanceAs (Decidable (_ ∨ _))

/-- A `..` stays on an empty stack and on another one. -/
def pop : List CStr → List CStr
  | [] => [parentName]
  | top::rest => if top = parentName then parentName::top::rest else rest

/-- The stack behind a name, its top first. -/
def push (stack : List CStr) (name : CStr) : List CStr :=
  if Blank name then stack else if name = parentName then pop stack else name::stack

def meaning (path : CStr) : List CStr := (components path).foldl push []

/-- The path with these names. -/
def text (names : List CStr) : CStr := names.flatMap (fun x => slash::x)

/-- The shortest path with this meaning. -/
def canonical (stack : List CStr) : CStr :=
  if stack = [] then rootPath else text stack.reverse

/-! ### Names and text -/

theorem text_nil : text [] = [] := rfl

theorem text_cons (x : CStr) (names : List CStr) : text (x::names) = slash::(x++text names) := rfl

theorem text_append (A B : List CStr) : text (A++B) = text A++text B := List.flatMap_append

theorem text_eq_nil {names : List CStr} : text names = [] ↔ names = [] := by
  cases names with
  | nil => simp [text_nil]
  | cons x rest => simp [text_cons]

theorem text_intercalate {names : List CStr} (h : names ≠ []) :
    text names = slash::[slash].intercalate names := by
  induction names with
  | nil => exact absurd rfl h
  | cons x rest ih =>
    cases rest with
    | nil => simp [text_cons, text_nil]
    | cons y rest =>
      rw [text_cons, ih (by simp)]
      simp [List.intercalate, List.intersperse]

/-- Names without slashes in them. -/
def Named (names : List CStr) : Prop := ∀ x ∈ names, slash ∉ x

theorem named_append {A B : List CStr} : Named (A++B) ↔ Named A ∧ Named B := List.forall_mem_append

theorem named_cons {x : CStr} {A : List CStr} : Named (x::A) ↔ slash ∉ x ∧ Named A :=
  List.forall_mem_cons

theorem components_text {names : List CStr} (h : Named names) (hne : names ≠ []) :
    components (text names) = names := by
  rw [components, text_intercalate hne, List.tail_cons]
  exact List.splitOn_intercalate slash h hne

/-- Text that starts with a slash is that of some names. -/
theorem exists_names {s : CStr} (h : ∀ x, s.head? = some x → x = slash) :
    ∃ names, Named names ∧ text names = s := by
  induction hn : s.length using Nat.strong_induction_on generalizing s with
  | _ n ih =>
    cases s with
    | nil => exact ⟨[], by simp [Named], rfl⟩
    | cons x rest =>
      have hsplit := List.takeWhile_append_dropWhile (p := fun y => y != slash) (l := rest)
      have hlen := congrArg List.length hsplit
      rw [List.length_append] at hlen
      rw [List.length_cons] at hn
      obtain ⟨names, hnamed, htext⟩ := ih (rest.dropWhile (fun y => y != slash)).length (by omega)
        (fun y hy => by
          have hnot := List.head?_dropWhile_not (fun y => y != slash) rest
          rw [hy] at hnot
          simpa using hnot) rfl
      refine ⟨rest.takeWhile (fun y => y != slash)::names, named_cons.mpr ⟨fun hmem => ?_, hnamed⟩, ?_⟩
      · have hne := List.all_eq_true.mp (List.all_takeWhile (p := fun y => y != slash)
          (l := rest)) slash hmem
        simp at hne
      · rw [text_cons, htext, hsplit, h x rfl]

/-! ### Rewrites -/

theorem push_blank {x : CStr} (h : Blank x) (stack : List CStr) : push stack x = stack := if_pos h

theorem push_name {x : CStr} (hblank : ¬ Blank x) (hparent : x ≠ parentName) (stack : List CStr) :
    push stack x = x::stack := by
  rw [push, if_neg hblank, if_neg hparent]

theorem parent_not_blank : ¬ Blank parentName := by decide

theorem push_parent_name {x : CStr} (hparent : x ≠ parentName) (stack : List CStr) :
    push (x::stack) parentName = stack := by
  rw [push, if_neg parent_not_blank, if_pos rfl]
  exact if_neg hparent

/-- `..` on nothing but others. -/
theorem push_parent_kept {stack : List CStr} (h : ∀ x ∈ stack, x = parentName) :
    push stack parentName = parentName::stack := by
  rw [push, if_neg parent_not_blank, if_pos rfl]
  cases stack with
  | nil => rfl
  | cons top rest => exact if_pos (h top (by simp))

theorem drop_blank {x : CStr} (h : Blank x) (A B : List CStr) (stack : List CStr) :
    (A++x::B).foldl push stack = (A++B).foldl push stack := by
  rw [List.foldl_append, List.foldl_cons, push_blank h, List.foldl_append]

theorem drop_parent {x : CStr} (hblank : ¬ Blank x) (hparent : x ≠ parentName)
    (A B : List CStr) (stack : List CStr) :
    (A++x::parentName::B).foldl push stack = (A++B).foldl push stack := by
  rw [List.foldl_append, List.foldl_cons, List.foldl_cons, push_name hblank hparent,
    push_parent_name hparent, List.foldl_append]

/-! ### Depth -/

/-- One up for a name and one down for `..`. -/
def weight (name : CStr) : ℤ :=
  if Blank name then 0 else if name = parentName then -1 else 1

def depth (names : List CStr) : ℤ := (names.map weight).sum

@[simp] theorem depth_nil : depth [] = 0 := rfl

@[simp] theorem depth_cons (x : CStr) (names : List CStr) :
    depth (x::names) = weight x+depth names := by
  rw [depth, depth, List.map_cons, List.sum_cons]

@[simp] theorem depth_append (A B : List CStr) : depth (A++B) = depth A+depth B := by
  rw [depth, depth, depth, List.map_append, List.sum_append]

theorem weight_parent : weight parentName = -1 := by decide

theorem weight_blank {x : CStr} (h : Blank x) : weight x = 0 := if_pos h

theorem weight_name {x : CStr} (hblank : ¬ Blank x) (hparent : x ≠ parentName) : weight x = 1 := by
  rw [weight, if_neg hblank, if_neg hparent]

/-- No blank name is on a stack. -/
def Solid (stack : List CStr) : Prop := ∀ x ∈ stack, ¬ Blank x

theorem push_solid {stack : List CStr} (h : Solid stack) (name : CStr) : Solid (push stack name) := by
  rw [push]
  split
  case isTrue => exact h
  case isFalse hblank =>
    split
    case isFalse => exact List.forall_mem_cons.mpr ⟨hblank, h⟩
    case isTrue =>
      cases stack with
      | nil => exact List.forall_mem_cons.mpr ⟨parent_not_blank, h⟩
      | cons top rest =>
        rw [pop]
        split
        · exact List.forall_mem_cons.mpr ⟨parent_not_blank, h⟩
        · exact (List.forall_mem_cons.mp h).2

theorem push_depth {stack : List CStr} (h : Solid stack) (name : CStr) :
    depth (push stack name) = depth stack+weight name := by
  by_cases hblank : Blank name
  · rw [push_blank hblank, weight_blank hblank, Int.add_zero]
  · by_cases hparent : name = parentName
    · subst hparent
      rw [push, if_neg hblank, if_pos rfl, weight_parent]
      cases stack with
      | nil => decide
      | cons top rest =>
        rw [pop]
        split
        case isTrue htop =>
          rw [depth_cons, weight_parent, Int.add_comm]
        case isFalse htop =>
          rw [depth_cons, weight_name (h top (by simp)) htop]
          omega
    · rw [push_name hblank hparent, depth_cons, Int.add_comm]

/-- The depth of a path is that of its meaning. -/
theorem foldl_depth (names : List CStr) {stack : List CStr} (h : Solid stack) :
    depth (names.foldl push stack) = depth stack+depth names := by
  induction names generalizing stack with
  | nil => rw [List.foldl_nil, depth_nil, Int.add_zero]
  | cons x rest ih =>
    rw [List.foldl_cons, ih (push_solid h x), push_depth h, depth_cons, Int.add_assoc]

theorem meaning_depth (path : CStr) : depth (meaning path) = depth (components path) := by
  rw [meaning, foldl_depth _ (by simp [Solid]), depth_nil, Int.zero_add]

/-! ### Names that are in their last form -/

/-- Every `..` is on nothing but others, and nothing is behind a blank name. -/
structure Final (names : List CStr) : Prop where
  parents : ∀ A x B, names = A++x::parentName::B → x = parentName
  blanks : ∀ A x B, names = A++x::B → Blank x → B = []

theorem final_init {A : List CStr} {x : CStr} (h : Final (A++[x])) : Final A :=
  ⟨fun P y Q hA => h.parents P y (Q++[x]) (by rw [hA]; simp),
    fun P y Q hA hblank => by
      have hnil := h.blanks P y (Q++[x]) (by rw [hA]; simp) hblank
      simp at hnil⟩

theorem final_parents {A : List CStr} (h : Final (A++[parentName])) : ∀ x ∈ A, x = parentName := by
  induction A using List.reverseRecOn with
  | nil => simp
  | append_singleton A y ih =>
    have hy : y = parentName := h.parents A y [] (by simp)
    subst hy
    intro x hx
    rcases List.mem_append.mp hx with hx | hx
    · exact ih (final_init h) x hx
    · exact List.mem_singleton.mp hx

/-- Names without a blank one mean themselves. -/
theorem final_meaning {names : List CStr} (h : Final names) (hsolid : Solid names) :
    names.foldl push [] = names.reverse := by
  induction names using List.reverseRecOn with
  | nil => rfl
  | append_singleton A x ih =>
    rw [List.foldl_append, List.foldl_cons, List.foldl_nil,
      ih (final_init h) (fun y hy => hsolid y (List.mem_append_left _ hy)), List.reverse_append]
    have hx : ¬ Blank x := hsolid x (by simp)
    by_cases hparent : x = parentName
    · subst hparent
      rw [push_parent_kept (fun y hy => final_parents h y (List.mem_reverse.mp hy))]
      rfl
    · rw [push_name hx hparent]
      rfl

/-- The path without its trailing slash, except for the root. -/
def trim (path : CStr) : CStr :=
  if path ≠ rootPath ∧ path.getLast? = some slash then path.dropLast else path

theorem final_solid {A : List CStr} {x : CStr} (h : Final (A++[x])) : Solid A := by
  intro y hy hblank
  obtain ⟨P, Q, rfl⟩ := List.append_of_mem hy
  have hnil := h.blanks P y (Q++[x]) (by simp) hblank
  simp at hnil

theorem text_last {A : List CStr} {x : CStr} (hx : slash ∉ x) (hne : x ≠ []) :
    (text (A++[x])).getLast? ≠ some slash := by
  rw [text_append, text_cons, text_nil, List.append_nil]
  intro hlast
  obtain ⟨y, rest, rfl⟩ := List.exists_cons_of_ne_nil hne
  rw [List.getLast?_append, List.getLast?_cons_cons] at hlast
  have hmem : slash ∈ y::rest := by
    cases hl : (y::rest).getLast? with
    | none => simp at hl
    | some z =>
      rw [hl, Option.some_or] at hlast
      exact Option.some.inj hlast ▸ List.mem_of_getLast? hl
  exact hx hmem

/-- A path in its last form is the shortest one exactly when it does not end
with a dot. -/
theorem final_canonical {names : List CStr} (hnamed : Named names) (hne : names ≠ [])
    (h : Final names) :
    trim (text names) = canonical (names.foldl push []) ↔ names.getLast? ≠ some dotName := by
  obtain ⟨A, x, rfl⟩ : ∃ A x, names = A++[x] :=
    ⟨names.dropLast, names.getLast hne, (List.dropLast_append_getLast hne).symm⟩
  have hA := final_meaning (final_init h) (final_solid h)
  have hx : slash ∉ x := (named_cons.mp (named_append.mp hnamed).2).1
  rw [List.getLast?_append, List.getLast?_singleton, Option.some_or]
  by_cases hempty : x = []
  · subst hempty
    rw [drop_blank (Or.inl rfl), List.append_nil, hA]
    have htext : text (A++[[]]) = text A++[slash] := by
      rw [text_append, text_cons, text_nil, List.append_nil]
    refine ⟨fun _ => by decide, fun _ => ?_⟩
    rw [canonical, trim, htext]
    cases A with
    | nil => rfl
    | cons y rest =>
      have hroot : text (y::rest)++[slash] ≠ rootPath := by
        rw [text_cons]
        simp [rootPath]
      rw [if_pos ⟨hroot, by simp⟩, List.dropLast_concat, if_neg (by simp), List.reverse_reverse]
  · have hkept : trim (text (A++[x])) = text (A++[x]) :=
      if_neg (fun hlast => text_last hx hempty hlast.2)
    rw [hkept]
    by_cases hdot : x = dotName
    · subst hdot
      rw [drop_blank (Or.inr rfl), List.append_nil, hA]
      refine ⟨fun heq => ?_, fun hnot => absurd rfl hnot⟩
      have hlen := congrArg List.length heq
      rw [text_append, canonical] at hlen
      split at hlen
      case isTrue hnil =>
        rw [List.reverse_eq_nil_iff.mp hnil] at hlen
        exact absurd hlen (by decide)
      case isFalse =>
        rw [List.reverse_reverse, List.length_append] at hlen
        exact absurd (Nat.add_eq_left.mp hlen) (by decide)
    · have hsolid : Solid (A++[x]) := by
        intro y hy
        rcases List.mem_append.mp hy with hy | hy
        · exact final_solid h y hy
        · rw [List.mem_singleton.mp hy]
          exact fun hblank => hblank.elim hempty hdot
      rw [final_meaning h hsolid, canonical, if_neg (by simp), List.reverse_reverse]
      exact ⟨fun _ heq => hdot (Option.some.inj heq), fun _ => rfl⟩

end ArduinoOS.Kernel
