import Mathlib.Tactic.Common
import Mathlib.Data.Nat.Init

/-!
# Machines that step

A step leads to a state and says whether the machine goes on; it may also be
undefined. A machine whose steps are runs of another one is simulated by it, along
every run that keeps to the states where this is known.
-/

set_option autoImplicit false

namespace ArduinoOS.Stepping

variable {σ : Type*} (step big : σ → Option (Bool × σ))

/-- So many steps, or fewer if the machine stops. -/
def runFor : ℕ → σ → Option (Bool × σ)
  | 0, s => some (true, s)
  | n+1, s =>
      match step s with
      | some (true, s) => runFor n s
      | r => r

variable {step big}

theorem runFor_one (s : σ) : runFor step 1 s = step s := by
  rw [runFor]
  cases h : step s with
  | none => rfl
  | some r =>
    obtain ⟨goesOn, s'⟩ := r
    cases goesOn <;> rfl

/-- A step that goes on. -/
theorem runFor_next {s s' : σ} (h : step s = some (true, s')) (n : ℕ) :
    runFor step (n+1) s = runFor step n s' := by
  rw [runFor, h]

/-- A run that goes on is followed by another one. -/
theorem runFor_add {m : ℕ} {s s' : σ} (h : runFor step m s = some (true, s')) (n : ℕ) :
    runFor step (m+n) s = runFor step n s' := by
  induction m generalizing s with
  | zero =>
    cases h
    rw [Nat.zero_add]
  | succ m ih =>
    rw [runFor] at h
    rw [Nat.succ_add, runFor]
    cases hs : step s with
    | none =>
      rw [hs] at h
      cases h
    | some r =>
      rw [hs] at h
      obtain ⟨goesOn, s''⟩ := r
      cases goesOn with
      | false => cases h
      | true => exact ih h

/-- The first step of a run that goes on. -/
theorem runFor_first {n : ℕ} {s s' : σ} (h : step s = some (true, s')) {k : ℕ} {t : σ}
    (hk : k < n) (ht : runFor step k s' = some (true, t)) :
    k+1 < n+1 ∧ runFor step (k+1) s = some (true, t) :=
  ⟨by omega, by rw [runFor_next h]; exact ht⟩

/-- Every state that a run goes through. -/
def Along (step : σ → Option (Bool × σ)) (Inv : σ → Prop) (n : ℕ) (s : σ) : Prop :=
  ∀ k < n, ∀ t, runFor step k s = some (true, t) → Inv t

theorem along_first {Inv : σ → Prop} {n : ℕ} {s : σ} (h : Along step Inv (n+1) s) : Inv s :=
  h 0 (Nat.succ_pos n) s rfl

theorem along_next {Inv : σ → Prop} {n : ℕ} {s s' : σ} (h : Along step Inv (n+1) s)
    (hs : step s = some (true, s')) : Along step Inv n s' := by
  intro k hk t ht
  obtain ⟨hlt, hrun⟩ := runFor_first hs hk ht
  exact h (k+1) hlt t hrun

/-- A run that has stopped does not go on. -/
theorem runFor_stopped {m : ℕ} {s s' : σ} (h : runFor step m s = some (false, s')) (n : ℕ) :
    runFor step (m+n) s = some (false, s') := by
  induction m generalizing s with
  | zero => cases h
  | succ m ih =>
    rw [runFor] at h
    rw [Nat.succ_add, runFor]
    cases hs : step s with
    | none =>
      rw [hs] at h
      cases h
    | some r =>
      rw [hs] at h
      obtain ⟨goesOn, s''⟩ := r
      cases goesOn with
      | false => exact h
      | true => exact ih h

theorem along_left {Inv : σ → Prop} {m n : ℕ} {s : σ} (h : Along step Inv (m+n) s) :
    Along step Inv m s :=
  fun k hk t ht => h k (by omega) t ht

theorem along_right {Inv : σ → Prop} {m n : ℕ} {s s' : σ} (h : Along step Inv (m+n) s)
    (hm : runFor step m s = some (true, s')) : Along step Inv n s' := by
  intro k hk t ht
  exact h (m+k) (by omega) t (by rw [runFor_add hm]; exact ht)

/-- An invariant that steps keep holds along every run. -/
theorem along_of_kept {Inv : σ → Prop}
    (hkept : ∀ s s', Inv s → step s = some (true, s') → Inv s') (n : ℕ) (s : σ) (h : Inv s) :
    Along step Inv n s := by
  intro k _ t ht
  induction k generalizing s with
  | zero =>
    cases ht
    exact h
  | succ k ih =>
    rw [runFor] at ht
    cases hs : step s with
    | none =>
      rw [hs] at ht
      cases ht
    | some r =>
      rw [hs] at ht
      obtain ⟨goesOn, s'⟩ := r
      cases goesOn with
      | false => cases ht
      | true => exact ih s' (hkept s s' h hs) (by omega) ht

/-- Every big step is a run, so every run of big steps is one too, and no shorter. -/
theorem runs_simulated {Inv : σ → Prop}
    (hbig : ∀ s r, Inv s → big s = some r → ∃ m, 0 < m ∧ runFor step m s = some r)
    (n : ℕ) (s : σ) (r : Bool × σ) (halong : Along big Inv n s)
    (hrun : runFor big n s = some r) :
    ∃ m, runFor step m s = some r ∧ (r.1 = true → n ≤ m) := by
  induction n generalizing s with
  | zero => exact ⟨0, hrun, fun _ => Nat.le_refl 0⟩
  | succ n ih =>
    cases hs : big s with
    | none =>
      rw [runFor, hs] at hrun
      cases hrun
    | some first =>
      obtain ⟨goesOn, s'⟩ := first
      obtain ⟨m, hm, hfirst⟩ := hbig s _ (along_first halong) hs
      rw [runFor, hs] at hrun
      cases goesOn with
      | false =>
        cases hrun
        exact ⟨m, hfirst, fun h => by cases h⟩
      | true =>
        obtain ⟨m', hrest, hle⟩ := ih s' (along_next halong hs) hrun
        refine ⟨m+m', by rw [runFor_add hfirst]; exact hrest, fun h => ?_⟩
        have hle' := hle h
        omega

end ArduinoOS.Stepping
