import ArduinoOS.Lib.ByteProgram

/-!
# Stores side by side

A device whose accesses in range are honoured and keep a relation between the
states, such as that the stores beside it stay as they are. Programs keep it too.
-/

set_option autoImplicit false

namespace ArduinoOS.ByteProgram

variable {α σ ε : Type}

structure Beside (h : Handler σ ε) (size : ℕ) (view : σ → Image) (Kept : σ → σ → Prop) : Prop where
  refl : ∀ s, Kept s s
  trans : ∀ s s₁ s₂, Kept s s₁ → Kept s₁ s₂ → Kept s s₂
  read : ∀ s addr len, addr+len ≤ size →
    ∃ s', (h.read addr len) s = .ok ((slice (view s) addr len, len), s') ∧
      (∀ a < size, view s' a = view s a) ∧ Kept s s'
  write : ∀ s addr data, addr+data.length ≤ size →
    ∃ s', (h.write addr data) s = .ok (data.length, s') ∧
      (∀ a < size, view s' a = overwrite (view s) addr data a) ∧ Kept s s'

theorem beside_run {h : Handler σ ε} {size : ℕ} {view : σ → Image} {Kept : σ → σ → Prop}
    (hb : Beside h size view Kept) {p : Prog α} {s : σ} {m m' : Image} {a : α}
    (hv : ∀ i < size, view s i = m i) (hp : p.exec size m = some (a, m')) :
    ∃ s', p.run h s = .ok (a, s') ∧ (∀ i < size, view s' i = m' i) ∧ Kept s s' := by
  induction p generalizing s m with
  | ret b =>
    cases hp
    exact ⟨s, rfl, hv, hb.refl s⟩
  | abort => cases hp
  | read addr len k ih =>
    rw [Prog.exec] at hp
    split at hp
    case isFalse => cases hp
    case isTrue hin =>
      obtain ⟨s₁, h₁, hs₁, hk₁⟩ := hb.read s addr len hin
      have he : slice (view s) addr len = slice m addr len :=
        slice_congr _ _ _ _ (fun i _ hi => hv i (by omega))
      rw [he] at h₁
      obtain ⟨s₂, h₂, hs₂, hk₂⟩ := ih _ _ (fun i hi => (hs₁ i hi).trans (hv i hi)) hp
      refine ⟨s₂, ?_, hs₂, hb.trans _ _ _ hk₁ hk₂⟩
      change (h.read addr len s >>= fun r => (k r.1.1 r.1.2).run h r.2) = _
      rw [h₁]
      exact h₂
  | write addr data k ih =>
    rw [Prog.exec] at hp
    split at hp
    case isFalse => cases hp
    case isTrue hin =>
      obtain ⟨s₁, h₁, hs₁, hk₁⟩ := hb.write s addr data hin
      have he : ∀ i < size, view s₁ i = overwrite m addr data i := by
        intro i hi
        rw [hs₁ i hi, overwrite, overwrite, hv i hi]
      obtain ⟨s₂, h₂, hs₂, hk₂⟩ := ih _ he hp
      refine ⟨s₂, ?_, hs₂, hb.trans _ _ _ hk₁ hk₂⟩
      change (h.write addr data s >>= fun r => (k r.1).run h r.2) = _
      rw [h₁]
      exact h₂

end ArduinoOS.ByteProgram
