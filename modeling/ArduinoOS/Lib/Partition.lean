import ArduinoOS.Lib.Passes

/-!
# Passes until nothing changes

A pass repeated until it changes nothing, and such a loop repeated once more
until it changes nothing. With the swap that takes one kind of elements behind
the other kind this is a stable partition.
-/

set_option autoImplicit false

namespace ArduinoOS.Passes

variable {α : Type*}

/-- `do change = step; while (change)`, and whether there was any change. -/
def untilUnchanged (step : α → α × Bool) : ℕ → α → Option (α × Bool)
  | 0, _ => none
  | fuel+1, a =>
      if (step a).2 then (untilUnchanged step fuel (step a).1).map (fun r => (r.1, true))
      else some ((step a).1, false)

/-- `while (f())`. -/
def whileChanged (f : α → Option (α × Bool)) : ℕ → α → Option α
  | 0, _ => none
  | fuel+1, a => (f a).bind (fun r => if r.2 then whileChanged f fuel r.1 else some r.1)

section Loops

variable {step : α → α × Bool} {I : α → Prop} (μ : α → ℕ)

/-- Steps that come down at each change end in a step that changes nothing. -/
theorem untilUnchanged_ends (hI : ∀ a, I a → I (step a).1)
    (hμ : ∀ a, (step a).2 = true → μ (step a).1 < μ a) (n : ℕ) (a : α) (hn : μ a < n)
    (ha : I a) :
    ∃ b change, untilUnchanged step n a = some ((step b).1, change) ∧ I b ∧
      (step b).2 = false := by
  induction n generalizing a with
  | zero => omega
  | succ n ih =>
    cases hchange : (step a).2 with
    | true =>
      have hless := hμ a hchange
      obtain ⟨b, change, hrun, hb⟩ := ih (step a).1 (by omega) (hI a ha)
      refine ⟨b, true, ?_, hb⟩
      rw [untilUnchanged, if_pos hchange, hrun]
      rfl
    | false =>
      refine ⟨a, false, ?_, ha, hchange⟩
      rw [untilUnchanged, if_neg (by rw [hchange]; exact Bool.false_ne_true)]

/-- A loop that has ended in a step without a change is run once more at most. -/
theorem whileChanged_ends {n : ℕ} {a b : α} {change : Bool} (hstep : step b = (b, false))
    (hrun : untilUnchanged step n a = some (b, change)) (k : ℕ) :
    whileChanged (untilUnchanged step n) (k+2) a = some b := by
  have hagain : untilUnchanged step n b = some (b, false) := by
    cases n with
    | zero => cases hrun
    | succ n =>
      rw [untilUnchanged, hstep]
      rfl
  rw [whileChanged, hrun, Option.bind_some]
  cases change with
  | false => rfl
  | true =>
    rw [if_pos rfl, whileChanged, hagain]
    rfl

end Loops

section Kinds

variable (p : α → Bool)

/-- An element of the kind is behind one of the other kind. -/
def behind (a b : α) : Bool := p a && !p b

/-- The pairs of an element of the kind and one of the other kind behind it. -/
def misplaced : List α → ℕ
  | [] => 0
  | a::as => (if p a then as.countP (fun b => !p b) else 0)+misplaced as

theorem carry_filter (a : α) (bs : List α) :
    (carry (behind p) a bs).1.filter p = (a::bs).filter p ∧
      (carry (behind p) a bs).1.filter (fun x => !p x) = (a::bs).filter (fun x => !p x) := by
  induction bs generalizing a with
  | nil => exact ⟨rfl, rfl⟩
  | cons b bs ih =>
    rw [carry]
    split
    case isTrue hswap =>
      rw [behind, Bool.and_eq_true, Bool.not_eq_true'] at hswap
      obtain ⟨hkind, hother⟩ := ih a
      constructor
      · simp [hkind, hswap.1, hswap.2]
      · simp [hother, hswap.1, hswap.2]
    case isFalse =>
      obtain ⟨hkind, hother⟩ := ih b
      constructor
      · rw [List.filter_cons, hkind, List.filter_cons (x := a)]
      · rw [List.filter_cons, hother, List.filter_cons (x := a)]

/-- A pass that swaps brings one element at least closer to its kind. -/
theorem carry_misplaced (a : α) (bs : List α) :
    misplaced p (carry (behind p) a bs).1+(if (carry (behind p) a bs).2 then 1 else 0) ≤
      misplaced p (a::bs) := by
  induction bs generalizing a with
  | nil => exact Nat.le_refl _
  | cons b bs ih =>
    rw [carry]
    split
    case isTrue hswap =>
      rw [behind, Bool.and_eq_true, Bool.not_eq_true'] at hswap
      have hrest := ih a
      simp only [misplaced, hswap.1, hswap.2, if_true, List.countP_cons] at hrest ⊢
      simp only [Bool.not_false, if_true, Bool.false_eq_true, if_false]
      omega
    case isFalse =>
      have hrest := ih b
      have hcount : (carry (behind p) b bs).1.countP (fun x => !p x) =
          (b::bs).countP (fun x => !p x) := by
        rw [List.countP_eq_length_filter, (carry_filter p b bs).2, List.countP_eq_length_filter]
      rw [misplaced, hcount, misplaced.eq_2 p a (b::bs)]
      dsimp only
      omega

theorem front_filter (xs : List α) :
    (front (behind p) xs).1.filter p = xs.filter p ∧
      (front (behind p) xs).1.filter (fun x => !p x) = xs.filter (fun x => !p x) := by
  cases xs with
  | nil => exact ⟨rfl, rfl⟩
  | cons a as => exact carry_filter p a as

theorem front_misplaced (xs : List α) (h : (front (behind p) xs).2 = true) :
    misplaced p (front (behind p) xs).1 < misplaced p xs := by
  cases xs with
  | nil => cases h
  | cons a as =>
    have hcarry := carry_misplaced p a as
    rw [front] at h ⊢
    rw [if_pos h] at hcarry
    omega

/-- Where every element of the kind is behind all others, the two kinds are the two parts. -/
theorem kinds_apart (xs : List α) (h : xs.Pairwise (fun a b => p a = true → p b = true)) :
    xs = xs.filter (fun x => !p x)++xs.filter p := by
  induction xs with
  | nil => rfl
  | cons a as ih =>
    obtain ⟨hfirst, hrest⟩ := List.pairwise_cons.mp h
    cases ha : p a with
    | true =>
      have hall : ∀ b ∈ as, p b = true := fun b hb => hfirst b hb ha
      have hnone : as.filter (fun x => !p x) = [] := by
        rw [List.filter_eq_nil_iff]
        intro b hb
        simp [hall b hb]
      simp [ha, hnone, List.filter_eq_self.mpr hall]
    | false =>
      simp only [ha, List.filter_cons, Bool.not_false, if_true, Bool.false_eq_true, if_false,
        List.cons_append]
      rw [← ih hrest]

theorem front_unchanged (xs : List α) (h : (front (behind p) xs).2 = false) :
    (front (behind p) xs).1 = xs ∧ xs = xs.filter (fun x => !p x)++xs.filter p := by
  cases xs with
  | nil => exact ⟨rfl, rfl⟩
  | cons a as =>
    have hswap : ∀ a b, behind p a b = true ↔ ¬ (p a = true → p b = true) := by
      intro a b
      simp [behind]
    obtain ⟨hsame, hsorted⟩ := carry_unchanged (behind p) (fun a b => p a = true → p b = true)
      hswap (fun _ _ _ hab hbc ha => hbc (hab ha)) a as h
    exact ⟨hsame, kinds_apart p _ hsorted⟩

/-- The elements that are not of the kind, and behind them those that are. -/
theorem front_partitions (xs : List α) {fuel : ℕ} (hfuel : misplaced p xs < fuel) (k : ℕ) :
    whileChanged (untilUnchanged (front (behind p)) fuel) (k+2) xs =
      some (xs.filter (fun x => !p x)++xs.filter p) := by
  obtain ⟨b, change, hrun, hkept, hlast⟩ := untilUnchanged_ends (misplaced p)
    (I := fun ys => ys.filter p = xs.filter p ∧
      ys.filter (fun x => !p x) = xs.filter (fun x => !p x))
    (fun ys hys => ⟨(front_filter p ys).1.trans hys.1, (front_filter p ys).2.trans hys.2⟩)
    (front_misplaced p) fuel xs hfuel ⟨rfl, rfl⟩
  obtain ⟨hsame, hparts⟩ := front_unchanged p b hlast
  have hstep : front (behind p) b = (b, false) := Prod.ext hsame hlast
  rw [hstep] at hrun
  rw [whileChanged_ends hstep hrun]
  rw [hkept.1, hkept.2] at hparts
  rw [← hparts]

end Kinds

end ArduinoOS.Passes
