import ArduinoOS.Lib.Faulting

/-!
# Runs of calls

A system answers calls and may fault. It simulates an abstract machine through a
view of its states when, from every state that is sound, each call that is allowed
ends without a fault in a sound state, with an answer and a change of the view
that the machine allows. Then every run of such calls does.
-/

set_option autoImplicit false

namespace ArduinoOS.Simulation
open ArduinoOS.Faulting

variable {S A C R ε : Type}

/-- One call after another. -/
def runCalls (run : C → Run S ε R) : List C → Run S ε (List R)
  | [] => pure []
  | c::cs => do
      let r ← run c
      let rs ← runCalls run cs
      pure (r::rs)

/-- The calls with their answers lead from one abstract state to the other. -/
inductive Steps (Step : C → R → A → A → Prop) : List C → List R → A → A → Prop
  | nil (a : A) : Steps Step [] [] a a
  | cons {c : C} {cs : List C} {r : R} {rs : List R} {a a₁ a₂ : A} (hstep : Step c r a a₁)
      (hrest : Steps Step cs rs a₁ a₂) : Steps Step (c::cs) (r::rs) a a₂

structure Simulates (run : C → Run S ε R) (Sound : S → Prop) (view : S → A) (Allowed : C → Prop)
    (Step : C → R → A → A → Prop) : Prop where
  call : ∀ c s, Allowed c → Sound s →
    ∃ r s', run c s = .ok (r, s') ∧ Sound s' ∧ Step c r (view s) (view s')

theorem simulates_run {run : C → Run S ε R} {Sound : S → Prop} {view : S → A}
    {Allowed : C → Prop} {Step : C → R → A → A → Prop}
    (h : Simulates run Sound view Allowed Step) (cs : List C) {s : S}
    (hcs : ∀ c ∈ cs, Allowed c) (hs : Sound s) :
    ∃ rs s', runCalls run cs s = .ok (rs, s') ∧ Sound s' ∧
      Steps Step cs rs (view s) (view s') := by
  induction cs generalizing s with
  | nil => exact ⟨[], s, rfl, hs, Steps.nil _⟩
  | cons c cs ih =>
    obtain ⟨r, s₁, hrun, hs₁, hstep⟩ := h.call c s (hcs c List.mem_cons_self) hs
    obtain ⟨rs, s₂, hrest, hs₂, hsteps⟩ :=
      ih (fun c' hc' => hcs c' (List.mem_cons_of_mem c hc')) hs₁
    refine ⟨r::rs, s₂, ?_, hs₂, Steps.cons hstep hsteps⟩
    rw [runCalls, bind_of_ok hrun, bind_of_ok hrest]
    rfl

/-- What every abstract step keeps holds after a run of them. -/
theorem steps_kept {Step : C → R → A → A → Prop} {P : A → Prop} {cs : List C} {rs : List R}
    {a a' : A} (hsteps : Steps Step cs rs a a')
    (hkept : ∀ c ∈ cs, ∀ r a a', Step c r a a' → P a → P a') (h : P a) : P a' := by
  induction hsteps with
  | nil => exact h
  | cons hstep _ ih =>
    apply ih (fun c hc => hkept c (List.mem_cons_of_mem _ hc))
    exact hkept _ List.mem_cons_self _ _ _ hstep h

end ArduinoOS.Simulation
