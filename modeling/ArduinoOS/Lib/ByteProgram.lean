import Mathlib.Data.List.GetD
import Mathlib.Data.Nat.Basic
import Mathlib.Tactic.Common

/-!
# Programs over a byte-addressed store

A program reads and writes blocks of a store it knows only through these two
calls, and may abort. The same program runs over any handler: over a pure
image, where an access outside the image is an error, and over a stateful
device whose calls may fail. A device that honours every access in range
simulates the image, so results proved over images carry over to devices.
-/

set_option autoImplicit false

namespace ArduinoOS.ByteProgram

/-- The contents of a store: one byte for each address. -/
abbrev Image := ℕ → UInt8

def slice (m : Image) (addr len : ℕ) : List UInt8 :=
  (List.range len).map (fun i => m (addr+i))

def overwrite (m : Image) (addr : ℕ) (data : List UInt8) : Image := fun a =>
  if addr ≤ a then data.getD (a-addr) (m a) else m a

@[simp] theorem slice_length (m : Image) (addr len : ℕ) : (slice m addr len).length = len := by
  simp [slice]

@[simp] theorem slice_zero (m : Image) (addr : ℕ) : slice m addr 0 = [] := rfl

@[simp] theorem slice_one (m : Image) (addr : ℕ) : slice m addr 1 = [m addr] := rfl

theorem slice_getElem (m : Image) (addr len i : ℕ) (h : i < (slice m addr len).length) :
    (slice m addr len)[i] = m (addr+i) := by
  simp [slice]

theorem slice_getElem? (m : Image) (addr len i : ℕ) (h : i < len) :
    (slice m addr len)[i]? = some (m (addr+i)) := by
  simp [slice, h]

theorem slice_succ (m : Image) (addr len : ℕ) :
    slice m addr (len+1) = m addr :: slice m (addr+1) len := by
  apply List.ext_getElem
  · simp
  · intro i h₁ h₂
    cases i with
    | zero => simp [slice_getElem]
    | succ i => simp [slice_getElem]; congr 1; omega

theorem slice_shift (m m' : Image) (a b len : ℕ) (h : ∀ i < len, m (a+i) = m' (b+i)) :
    slice m a len = slice m' b len :=
  List.map_congr_left (fun i hi => h i (List.mem_range.mp hi))

theorem slice_add (m : Image) (addr n k : ℕ) :
    slice m addr (n+k) = slice m addr n++slice m (addr+n) k := by
  simp [slice, List.range_add, Nat.add_assoc]

theorem slice_congr (m m' : Image) (addr len : ℕ)
    (h : ∀ a, addr ≤ a → a < addr+len → m a = m' a) : slice m addr len = slice m' addr len := by
  apply List.map_congr_left
  intro i hi
  exact h _ (by omega) (by have := List.mem_range.mp hi; omega)

theorem slice_take (m : Image) (addr len n : ℕ) :
    (slice m addr len).take n = slice m addr (min n len) := by
  apply List.ext_getElem
  · simp
  · intro i h₁ h₂
    simp [slice_getElem]

theorem slice_drop (m : Image) (addr len n : ℕ) :
    (slice m addr len).drop n = slice m (addr+n) (len-n) := by
  apply List.ext_getElem
  · simp
  · intro i h₁ h₂
    simp [slice_getElem, Nat.add_assoc]

theorem overwrite_below (m : Image) (addr : ℕ) (data : List UInt8) (a : ℕ) (h : a < addr) :
    overwrite m addr data a = m a := by
  simp [overwrite, show ¬ addr ≤ a by omega]

theorem overwrite_above (m : Image) (addr : ℕ) (data : List UInt8) (a : ℕ)
    (h : addr+data.length ≤ a) : overwrite m addr data a = m a := by
  unfold overwrite
  split
  · exact List.getD_eq_default _ _ (by omega)
  · rfl

theorem overwrite_outside (m : Image) (addr : ℕ) (data : List UInt8) (a : ℕ)
    (h : a < addr ∨ addr+data.length ≤ a) : overwrite m addr data a = m a := by
  rcases h with h | h
  · exact overwrite_below m addr data a h
  · exact overwrite_above m addr data a h

theorem overwrite_inside (m : Image) (addr : ℕ) (data : List UInt8) (a : ℕ)
    (h₁ : addr ≤ a) (h₂ : a-addr < data.length) : overwrite m addr data a = data[a-addr] := by
  simp [overwrite, h₁, h₂]

@[simp] theorem overwrite_nil (m : Image) (addr : ℕ) : overwrite m addr [] = m := by
  funext a
  simp [overwrite]

@[simp] theorem overwrite_one_self (m : Image) (addr : ℕ) (b : UInt8) :
    overwrite m addr [b] addr = b := by
  simp [overwrite]

theorem overwrite_one_ne (m : Image) (addr a : ℕ) (b : UInt8) (h : a ≠ addr) :
    overwrite m addr [b] a = m a :=
  overwrite_outside m addr [b] a (by simp; omega)

theorem slice_overwrite (m : Image) (addr : ℕ) (data : List UInt8) :
    slice (overwrite m addr data) addr data.length = data := by
  apply List.ext_getElem
  · simp
  · intro i h₁ h₂
    rw [slice_getElem, overwrite_inside _ _ _ _ (by omega) (by simpa using h₂)]
    simp

theorem slice_overwrite_outside (m : Image) (addr : ℕ) (data : List UInt8) (a len : ℕ)
    (h : a+len ≤ addr ∨ addr+data.length ≤ a) :
    slice (overwrite m addr data) a len = slice m a len :=
  slice_congr _ _ _ _ (fun b h₁ h₂ => overwrite_outside _ _ _ _ (by omega))

/-- A write inside a slice splits it in three. -/
theorem slice_overwrite_within (m : Image) (addr len offset : ℕ) (data : List UInt8)
    (h : offset+data.length ≤ len) :
    slice (overwrite m (addr+offset) data) addr len =
      (slice m addr len).take offset++(data++(slice m addr len).drop (offset+data.length)) := by
  apply List.ext_getElem
  · simp
    omega
  · intro i h₁ h₂
    rw [slice_length] at h₁
    rw [slice_getElem]
    by_cases hlow : i < offset
    · rw [overwrite_below _ _ _ _ (by omega), List.getElem_append_left (by simp; omega),
        List.getElem_take, slice_getElem]
    · rw [List.getElem_append_right (by simp; omega)]
      simp only [List.length_take, slice_length, show min offset len = offset by omega]
      by_cases hmid : i < offset+data.length
      · rw [overwrite_inside _ _ _ _ (by omega) (by omega),
          List.getElem_append_left (by omega)]
        congr 1
        omega
      · rw [overwrite_above _ _ _ _ (by omega), List.getElem_append_right (by omega),
          List.getElem_drop, slice_getElem]
        congr 1
        omega

/-- A program with results in `α`. A read returns the buffer it was given and
the count the store reports; a write returns the reported count. -/
inductive Prog (α : Type) : Type
  | ret (a : α)
  | abort
  | read (addr len : ℕ) (k : List UInt8 → ℕ → Prog α)
  | write (addr : ℕ) (data : List UInt8) (k : ℕ → Prog α)

namespace Prog

variable {α β : Type}

def bind (p : Prog α) (f : α → Prog β) : Prog β :=
  match p with
  | .ret a => f a
  | .abort => .abort
  | .read addr len k => .read addr len (fun bs n => (k bs n).bind f)
  | .write addr data k => .write addr data (fun n => (k n).bind f)

instance : Monad Prog where
  pure := Prog.ret
  bind := Prog.bind

/-- A program all of whose branches only read. -/
def ReadOnly : Prog α → Prop
  | .ret _ => True
  | .abort => True
  | .read _ _ k => ∀ bs n, (k bs n).ReadOnly
  | .write _ _ _ => False

/-- Execution over an image of `size` bytes: any access outside it is an
error, and so is `abort`. -/
def exec (size : ℕ) : Prog α → Image → Option (α × Image)
  | .ret a, m => some (a, m)
  | .abort, _ => none
  | .read addr len k, m =>
      if addr+len ≤ size then (k (slice m addr len) len).exec size m else none
  | .write addr data k, m =>
      if addr+data.length ≤ size then (k data.length).exec size (overwrite m addr data) else none

@[simp] theorem exec_pure (size : ℕ) (a : α) (m : Image) :
    (pure a : Prog α).exec size m = some (a, m) := rfl

@[simp] theorem exec_ret (size : ℕ) (a : α) (m : Image) :
    (Prog.ret a).exec size m = some (a, m) := rfl

@[simp] theorem exec_bind (size : ℕ) (p : Prog α) (f : α → Prog β) (m : Image) :
    (p >>= f).exec size m = (p.exec size m).bind (fun r => (f r.1).exec size r.2) := by
  change (p.bind f).exec size m = _
  induction p generalizing m with
  | ret a => rfl
  | abort => rfl
  | read addr len k ih =>
    simp only [Prog.bind, exec]
    split
    · exact ih _ _ _
    · rfl
  | write addr data k ih =>
    simp only [Prog.bind, exec]
    split
    · exact ih _ _
    · rfl

theorem bind_bind {γ : Type} (p : Prog α) (f : α → Prog β) (g : β → Prog γ) :
    p >>= f >>= g = p >>= fun a => f a >>= g := by
  change (p.bind f).bind g = p.bind (fun a => (f a).bind g)
  induction p with
  | ret a => rfl
  | abort => rfl
  | read addr len k ih => simp only [Prog.bind, ih]
  | write addr data k ih => simp only [Prog.bind, ih]

/-- One step of a program proof: a known first part is replaced by its result. -/
theorem exec_bind_of (size : ℕ) (p : Prog α) (f : α → Prog β) (m m' : Image) (a : α)
    (h : p.exec size m = some (a, m')) :
    (p >>= f).exec size m = (f a).exec size m' := by
  rw [exec_bind, h]
  rfl

theorem exec_bind_some (size : ℕ) (p : Prog α) (f : α → Prog β) (m m' : Image) (b : β) :
    (p >>= f).exec size m = some (b, m') ↔
      ∃ a m₁, p.exec size m = some (a, m₁) ∧ (f a).exec size m₁ = some (b, m') := by
  rw [exec_bind, Option.bind_eq_some_iff]
  constructor
  · rintro ⟨⟨a, m₁⟩, h, h'⟩
    exact ⟨a, m₁, h, h'⟩
  · rintro ⟨a, m₁, h, h'⟩
    exact ⟨⟨a, m₁⟩, h, h'⟩

theorem exec_write_one (size addr : ℕ) (b : UInt8) (m : Image) (h : addr < size) :
    (Prog.write addr [b] pure).exec size m = some (1, overwrite m addr [b]) := by
  simp only [exec, List.length_singleton, show addr+1 ≤ size by omega, if_true]
  rfl

end Prog

/-- What runs a program's calls against a device with state `σ`; `ε` is the
type of faults. -/
structure Handler (σ ε : Type) where
  abort : ε
  read : ℕ → ℕ → StateT σ (Except ε) (List UInt8 × ℕ)
  write : ℕ → List UInt8 → StateT σ (Except ε) ℕ

variable {α σ ε : Type}

def Prog.run (h : Handler σ ε) : Prog α → StateT σ (Except ε) α
  | .ret a => pure a
  | .abort => throw h.abort
  | .read addr len k => do
      let r ← h.read addr len
      (k r.1 r.2).run h
  | .write addr data k => do
      let n ← h.write addr data
      (k n).run h

/-- A device that holds `size` bytes, seen through `view`, and honours every
access inside them. Nothing is said about accesses outside. -/
structure Lawful (h : Handler σ ε) (size : ℕ) (view : σ → Image) : Prop where
  read : ∀ s addr len, addr+len ≤ size →
    ∃ s', (h.read addr len) s = .ok ((slice (view s) addr len, len), s') ∧
      ∀ a < size, view s' a = view s a
  write : ∀ s addr data, addr+data.length ≤ size →
    ∃ s', (h.write addr data) s = .ok (data.length, s') ∧
      ∀ a < size, view s' a = overwrite (view s) addr data a

/-- A lawful device simulates the image it holds. -/
theorem lawful_run (h : Handler σ ε) (size : ℕ) (view : σ → Image) (hl : Lawful h size view)
    (p : Prog α) (s : σ) (m m' : Image) (a : α) (hv : ∀ i < size, view s i = m i)
    (hp : p.exec size m = some (a, m')) :
    ∃ s', p.run h s = .ok (a, s') ∧ ∀ i < size, view s' i = m' i := by
  induction p generalizing s m with
  | ret b =>
    simp only [Prog.exec, Option.some.injEq, Prod.mk.injEq] at hp
    obtain ⟨rfl, rfl⟩ := hp
    exact ⟨s, rfl, hv⟩
  | abort => simp [Prog.exec] at hp
  | read addr len k ih =>
    simp only [Prog.exec] at hp
    split at hp
    · rename_i hin
      obtain ⟨s₁, h₁, hs₁⟩ := hl.read s addr len hin
      have he : slice (view s) addr len = slice m addr len :=
        slice_congr _ _ _ _ (fun i _ hi => hv i (by omega))
      rw [he] at h₁
      obtain ⟨s₂, h₂, hs₂⟩ := ih _ _ s₁ m (fun i hi => (hs₁ i hi).trans (hv i hi)) hp
      refine ⟨s₂, ?_, hs₂⟩
      change (h.read addr len s >>= fun r => (k r.1.1 r.1.2).run h r.2) = _
      rw [h₁]
      exact h₂
    · simp at hp
  | write addr data k ih =>
    simp only [Prog.exec] at hp
    split at hp
    · rename_i hin
      obtain ⟨s₁, h₁, hs₁⟩ := hl.write s addr data hin
      have he : ∀ i < size, view s₁ i = overwrite m addr data i := by
        intro i hi
        rw [hs₁ i hi]
        simp only [overwrite, hv i hi]
      obtain ⟨s₂, h₂, hs₂⟩ := ih _ s₁ _ he hp
      refine ⟨s₂, ?_, hs₂⟩
      change (h.write addr data s >>= fun r => (k r.1).run h r.2) = _
      rw [h₁]
      exact h₂
    · simp at hp

theorem Prog.run_bind {β : Type} (h : Handler σ ε) (p : Prog α) (f : α → Prog β) :
    (p >>= f).run h = p.run h >>= fun a => (f a).run h := by
  change (p.bind f).run h = _
  induction p with
  | ret a => rfl
  | abort => rfl
  | read addr len k ih =>
    rw [Prog.bind, Prog.run, Prog.run, bind_assoc]
    congr 1
    funext r
    exact ih r.1 r.2
  | write addr data k ih =>
    rw [Prog.bind, Prog.run, Prog.run, bind_assoc]
    congr 1
    funext n
    exact ih n

/-- On a lawful device the first part of a program is replaced by its result. -/
theorem lawful_bind {β : Type} (h : Handler σ ε) (size : ℕ) (view : σ → Image)
    (hl : Lawful h size view) (p : Prog α) (f : α → Prog β) {s : σ} {m m' : Image} {a : α}
    (hv : ∀ i < size, view s i = m i) (hp : p.exec size m = some (a, m')) :
    ∃ s₁, (∀ i < size, view s₁ i = m' i) ∧ (p >>= f).run h s = (f a).run h s₁ := by
  obtain ⟨s₁, hrun, hview⟩ := lawful_run h size view hl p s m m' a hv hp
  refine ⟨s₁, hview, ?_⟩
  rw [Prog.run_bind]
  change (p.run h s >>= fun r => (f r.1).run h r.2) = _
  rw [hrun]
  rfl

/-- On this image, and on a device that shows it, the program comes down to
another one. -/
structure Leads (h : Handler σ ε) (size : ℕ) (view : σ → Image) (m : Image) (p q : Prog α) :
    Prop where
  exec : p.exec size m = q.exec size m
  run : ∀ s, (∀ i < size, view s i = m i) →
    ∃ s₁, (∀ i < size, view s₁ i = m i) ∧ p.run h s = q.run h s₁

theorem leads_refl (h : Handler σ ε) (size : ℕ) (view : σ → Image) (m : Image) (p : Prog α) :
    Leads h size view m p p :=
  ⟨rfl, fun s hv => ⟨s, hv, rfl⟩⟩

/-- A first part that leaves the image as it is. -/
theorem leads_bind {β : Type} (h : Handler σ ε) (size : ℕ) (view : σ → Image)
    (hl : Lawful h size view) {m : Image} {p : Prog α} {a : α}
    (hp : p.exec size m = some (a, m)) {f : α → Prog β} {q : Prog β}
    (hq : Leads h size view m (f a) q) : Leads h size view m (p >>= f) q := by
  refine ⟨?_, fun s hv => ?_⟩
  · rw [Prog.exec_bind_of _ _ _ _ _ _ hp, hq.exec]
  · obtain ⟨s₁, hv₁, hrun₁⟩ := lawful_bind h size view hl p f hv hp
    obtain ⟨s₂, hv₂, hrun₂⟩ := hq.run s₁ hv₁
    exact ⟨s₂, hv₂, hrun₁.trans hrun₂⟩

/-- All answers the program can come to, whatever the store says. -/
def Prog.Returns (P : α → Prop) : Prog α → Prop
  | .ret a => P a
  | .abort => True
  | .read _ _ k => ∀ data n, (k data n).Returns P
  | .write _ _ k => ∀ n, (k n).Returns P

theorem Prog.returns_bind {β : Type} {P : β → Prop} (p : Prog α) {f : α → Prog β}
    (hf : ∀ a, (f a).Returns P) : (p >>= f).Returns P := by
  change (p.bind f).Returns P
  induction p with
  | ret a => exact hf a
  | abort => trivial
  | read addr len k ih => exact fun data n => ih data n
  | write addr data k ih => exact fun n => ih n

/-- The second part of a program may rely on what the first part returns. -/
theorem Prog.returns_bind_of {β : Type} {P : α → Prop} {Q : β → Prop} {p : Prog α}
    {f : α → Prog β} (hp : p.Returns P) (hf : ∀ a, P a → (f a).Returns Q) :
    (p >>= f).Returns Q := by
  change (p.bind f).Returns Q
  induction p with
  | ret a => exact hf a hp
  | abort => trivial
  | read addr len k ih => exact fun data n => ih data n (hp data n)
  | write addr data k ih => exact fun n => ih n (hp n)

theorem Prog.returns_run {P : α → Prop} {p : Prog α} (hp : p.Returns P) {h : Handler σ ε}
    {s s' : σ} {a : α} (hrun : p.run h s = .ok (a, s')) : P a := by
  induction p generalizing s with
  | ret b =>
    cases hrun
    exact hp
  | abort => cases hrun
  | read addr len k ih =>
    change (h.read addr len s >>= fun r => (k r.1.1 r.1.2).run h r.2) = _ at hrun
    cases hr : h.read addr len s with
    | error e =>
      rw [hr] at hrun
      cases hrun
    | ok r =>
      rw [hr] at hrun
      exact ih r.1.1 r.1.2 (hp r.1.1 r.1.2) hrun
  | write addr data k ih =>
    change (h.write addr data s >>= fun r => (k r.1).run h r.2) = _ at hrun
    cases hr : h.write addr data s with
    | error e =>
      rw [hr] at hrun
      cases hrun
    | ok r =>
      rw [hr] at hrun
      exact ih r.1 (hp r.1) hrun

/-- The plainest lawful device: an image with its bounds checked. -/
def imageDevice (size : ℕ) : Handler Image Unit where
  abort := ()
  read addr len := fun m =>
    if addr+len ≤ size then .ok ((slice m addr len, len), m) else .error ()
  write addr data := fun m =>
    if addr+data.length ≤ size then .ok (data.length, overwrite m addr data) else .error ()

theorem imageDevice_lawful (size : ℕ) : Lawful (imageDevice size) size id := by
  constructor
  · intro m addr len h
    exact ⟨m, by simp [imageDevice, h], fun _ _ => rfl⟩
  · intro m addr data h
    exact ⟨overwrite m addr data, by simp [imageDevice, h], fun _ _ => rfl⟩

end ArduinoOS.ByteProgram
