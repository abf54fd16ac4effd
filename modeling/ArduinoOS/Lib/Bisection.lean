import Mathlib.Tactic.Common
import Mathlib.Tactic.Ring

/-!
# Bisection

The distance between a value for which a test fails and one for which it succeeds
is halved until it is a step at most. The test may have no answer; where it always
has one, the value that is found succeeds and the one a step before it fails.
-/

set_option autoImplicit false

namespace ArduinoOS.Bisection

/-- The rounds end when the distance is a step at most. -/
def bisect (test : ℕ → Option Bool) (step : ℕ) : ℕ → ℕ → ℕ → Option ℕ
  | 0, _, _ => none
  | fuel+1, good, bad =>
      if good-step > bad then do
        let succeeds ← test ((bad+good)/2)
        if succeeds then bisect test step fuel ((bad+good)/2) bad
        else bisect test step fuel good ((bad+good)/2)
      else some good

theorem bisect_near {test : ℕ → Option Bool} {step fuel good bad : ℕ} (h : good ≤ bad+step) :
    bisect test step (fuel+1) good bad = some good := by
  rw [bisect, if_neg (by omega)]

/-- From a distance of `2^k` steps the search needs `k` rounds. -/
theorem bisect_spec {test : ℕ → Option Bool} {step : ℕ} (k fuel bad : ℕ) (hstep : 1 ≤ step)
    (hfuel : k < fuel)
    (htest : ∀ j, bad < bad+j*step → j ≤ 2^k → ∃ b, test (bad+j*step) = some b)
    (hgood : test (bad+2^k*step) = some true) (hbad : test bad = some false) :
    ∃ j, 1 ≤ j ∧ j ≤ 2^k ∧ bisect test step fuel (bad+2^k*step) bad = some (bad+j*step) ∧
      test (bad+j*step) = some true ∧ test (bad+(j-1)*step) = some false := by
  induction k generalizing fuel bad with
  | zero =>
    obtain ⟨fuel, rfl⟩ := Nat.exists_eq_add_of_lt hfuel
    refine ⟨1, Nat.le_refl 1, Nat.le_refl 1, ?_, hgood, ?_⟩
    · rw [pow_zero, show 0+fuel+1 = fuel+1 by omega]
      exact bisect_near (by omega)
    · rw [Nat.sub_self, Nat.zero_mul]
      exact hbad
  | succ k ih =>
    obtain ⟨fuel, rfl⟩ : ∃ f, fuel = f+1 := ⟨fuel-1, by omega⟩
    have htwo : 2^(k+1)*step = 2^k*step+2^k*step := by ring
    have hpos : 1 ≤ 2^k := Nat.one_le_two_pow
    have hle : step ≤ 2^k*step := Nat.le_mul_of_pos_left step hpos
    have hmid : (bad+(bad+2^(k+1)*step))/2 = bad+2^k*step := by
      rw [htwo]
      omega
    obtain ⟨b, hb⟩ := htest (2^k) (by omega) (Nat.pow_le_pow_right (by omega) (by omega))
    rw [bisect, if_pos (by omega), hmid, hb]
    cases b with
    | true =>
      obtain ⟨j, hj, hjk, hrun, hfound, hbefore⟩ := ih fuel bad (by omega)
        (fun j hj hjk => htest j hj (by omega)) hb hbad
      exact ⟨j, hj, by omega, hrun, hfound, hbefore⟩
    | false =>
      have hshift : ∀ j, bad+2^k*step+j*step = bad+(2^k+j)*step := fun j => by ring
      have hend : bad+2^k*step+2^k*step = bad+2^(k+1)*step := by
        rw [htwo, Nat.add_assoc]
      obtain ⟨j, hj, hjk, hrun, hfound, hbefore⟩ := ih fuel (bad+2^k*step) (by omega)
        (by
          intro j hj hjk
          rw [hshift] at hj ⊢
          exact htest (2^k+j) (by omega) (by omega)) (by rw [hend]; exact hgood) hb
      refine ⟨2^k+j, by omega, by omega, ?_, ?_, ?_⟩
      · rw [← hshift, ← hrun, hend]
        rfl
      · rw [← hshift]
        exact hfound
      · rw [show 2^k+j-1 = 2^k+(j-1) by omega, ← hshift]
        exact hbefore

end ArduinoOS.Bisection
