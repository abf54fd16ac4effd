import ArduinoOS.Lib.ByteProgram
import ArduinoOS.Lib.Faulting

/-!
# Programs that only read

Where the reads of a device give one image, from every state of a set that they
keep, a program that only reads gives what it gives on the image.
-/

set_option autoImplicit false

namespace ArduinoOS.ByteProgram
open ArduinoOS.Faulting

variable {α β σ ε : Type}

namespace Prog

theorem readOnly_bind {p : Prog α} {f : α → Prog β} (hp : p.ReadOnly)
    (hf : ∀ a, (f a).ReadOnly) : (p >>= f).ReadOnly := by
  change (p.bind f).ReadOnly
  induction p with
  | ret a => exact hf a
  | abort => trivial
  | read addr len k ih => exact fun data n => ih data n (hp data n)
  | write addr data k ih => exact hp.elim

theorem readOnly_exec {p : Prog α} (hp : p.ReadOnly) {size : ℕ} {m m' : Image} {a : α}
    (hx : p.exec size m = some (a, m')) : m' = m := by
  induction p with
  | ret b =>
    cases hx
    rfl
  | abort => cases hx
  | read addr len k ih =>
    rw [exec] at hx
    split at hx
    · exact ih _ _ (hp _ _) hx
    · cases hx
  | write addr data k ih => exact hp.elim

end Prog

/-- From every state of the set a read inside the image gives its bytes, and the
state stays in the set. -/
def Reads (h : Handler σ ε) (I : σ → Prop) (size : ℕ) (m : Image) : Prop :=
  ∀ addr len, addr+len ≤ size → Gives I (h.read addr len) (.ok (slice m addr len, len))

theorem gives_readOnly {h : Handler σ ε} {I : σ → Prop} {size : ℕ} {m m' : Image}
    (hr : Reads h I size m) {p : Prog α} (hp : p.ReadOnly) {a : α}
    (hx : p.exec size m = some (a, m')) : Gives I (p.run h) (.ok a) := by
  induction p with
  | ret b =>
    have hb : b = a := congrArg Prod.fst (Option.some.inj hx)
    rw [← hb]
    exact gives_pure b
  | abort => cases hx
  | read addr len k ih =>
    rw [Prog.exec] at hx
    split at hx
    · rename_i hin
      exact gives_bind (hr addr len hin) (ih _ _ (hp _ _) hx)
    · cases hx
  | write addr data k ih => exact hp.elim

end ArduinoOS.ByteProgram
