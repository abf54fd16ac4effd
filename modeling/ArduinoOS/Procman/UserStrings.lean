import ArduinoOS.Procman.Exec
import ArduinoOS.Procman.ProcessMemory

/-!
# Strings from the memory of a process

A string is read up to its terminator or up to a number of bytes. It stays in
the buffer that it is read into when the terminator comes in time, and so does
everything that is then done with it there.
-/

set_option autoImplicit false

namespace ArduinoOS.Procman
open ArduinoOS.CBuffer ArduinoOS.Faulting ArduinoOS.Kernel

/-! ### Strings in memory -/

/-- What can be read at each address. -/
abbrev Bytes := UInt16 → Option UInt8

/-- This many bytes can be read, and none of them is the terminator. -/
def Chars (mem : Bytes) (addr : UInt16) (k : ℕ) : Prop :=
  ∀ j < k, ∃ c, mem (addr+UInt16.ofNat j) = some c ∧ c ≠ 0

/-- The string of `k` characters. -/
def Terminated (mem : Bytes) (addr : UInt16) (k : ℕ) : Prop :=
  Chars mem addr k ∧ mem (addr+UInt16.ofNat k) = some 0

/-- `k` characters in front of a byte that cannot be read. -/
def Broken (mem : Bytes) (addr : UInt16) (k : ℕ) : Prop :=
  Chars mem addr k ∧ mem (addr+UInt16.ofNat k) = none

theorem chars_zero (mem : Bytes) (addr : UInt16) : Chars mem addr 0 :=
  fun j hj => absurd hj (Nat.not_lt_zero j)

theorem addr_succ (addr : UInt16) (j : ℕ) :
    addr+1+UInt16.ofNat j = addr+UInt16.ofNat (j+1) := by
  apply UInt16.toNat_inj.mp
  simp only [UInt16.toNat_add, UInt16.toNat_ofNat', UInt16.toNat_one]
  omega

theorem addr_zero (addr : UInt16) : addr+UInt16.ofNat 0 = addr := by
  apply UInt16.toNat_inj.mp
  have h := addr.toNat_lt
  simp only [UInt16.toNat_add, UInt16.toNat_ofNat']
  omega

theorem chars_cons {mem : Bytes} {addr : UInt16} {c : UInt8} (hc : mem addr = some c)
    (hne : c ≠ 0) {k : ℕ} (h : Chars mem (addr+1) k) : Chars mem addr (k+1) := by
  intro j hj
  cases j with
  | zero => exact ⟨c, by rw [addr_zero, hc], hne⟩
  | succ j =>
    obtain ⟨c', hc', hne'⟩ := h j (by omega)
    exact ⟨c', by rw [← addr_succ, hc'], hne'⟩

theorem chars_tail {mem : Bytes} {addr : UInt16} {k : ℕ} (h : Chars mem addr (k+1)) :
    Chars mem (addr+1) k := by
  intro j hj
  obtain ⟨c, hc, hne⟩ := h (j+1) (by omega)
  exact ⟨c, by rw [addr_succ, hc], hne⟩

theorem chars_le {mem : Bytes} {addr : UInt16} {k j : ℕ} (h : Chars mem addr k) (hj : j ≤ k) :
    Chars mem addr j := fun i hi => h i (by omega)

theorem chars_head {mem : Bytes} {addr : UInt16} {k : ℕ} (h : Chars mem addr (k+1)) :
    ∃ c, mem addr = some c ∧ c ≠ 0 := by
  obtain ⟨c, hc, hne⟩ := h 0 (by omega)
  exact ⟨c, by rw [← addr_zero addr, hc], hne⟩

/-- How the first bytes at an address begin. -/
theorem chars_cases (mem : Bytes) (addr : UInt16) (len : ℕ) :
    Chars mem addr len ∨ ∃ k < len, Broken mem addr k ∨ Terminated mem addr k := by
  induction len with
  | zero => exact Or.inl (chars_zero mem addr)
  | succ len ih =>
    rcases ih with hall | ⟨k, hk, hends⟩
    · cases hc : mem (addr+UInt16.ofNat len) with
      | none => exact Or.inr ⟨len, Nat.lt_succ_self len, Or.inl ⟨hall, hc⟩⟩
      | some c =>
        by_cases hzero : c = 0
        · exact Or.inr ⟨len, Nat.lt_succ_self len, Or.inr ⟨hall, by rw [hc, hzero]⟩⟩
        · left
          intro j hj
          by_cases hlast : j = len
          · exact ⟨c, by rw [hlast, hc], hzero⟩
          · exact hall j (by omega)
    · exact Or.inr ⟨k, by omega, hends⟩

/-- The end of a string is in one place. -/
theorem chars_end {mem : Bytes} {addr : UInt16} {k j : ℕ} (hk : Chars mem addr k)
    (hj : ∀ c, mem (addr+UInt16.ofNat j) = some c → c = 0) : k ≤ j := by
  by_contra hlt
  obtain ⟨c, hc, hne⟩ := hk j (by omega)
  exact hne (hj c hc)

theorem terminated_unique {mem : Bytes} {addr : UInt16} {k j : ℕ} (hk : Terminated mem addr k)
    (hj : Terminated mem addr j) : k = j := by
  have hkj : k ≤ j := chars_end hk.1 (fun c hc => by rw [hj.2] at hc; cases hc; rfl)
  have hjk : j ≤ k := chars_end hj.1 (fun c hc => by rw [hk.2] at hc; cases hc; rfl)
  omega

/-- What is read of a string in at most `len` bytes. -/
def strAt (mem : Bytes) (addr : UInt16) : ℕ → Option (List UInt8)
  | 0 => some []
  | len+1 =>
      match mem addr with
      | none => none
      | some c => if c = 0 then some [c] else (strAt mem (addr+1) len).map (fun bytes => c::bytes)

theorem str_cons {mem : Bytes} {addr : UInt16} {c : UInt8} (hc : mem addr = some c)
    (hne : c ≠ 0) (len : ℕ) :
    strAt mem addr (len+1) = (strAt mem (addr+1) len).map (fun bytes => c::bytes) := by
  rw [strAt, hc]
  exact if_neg hne

theorem str_terminated {mem : Bytes} {addr : UInt16} {k len : ℕ} (h : Terminated mem addr k)
    (hk : k < len) : ∃ bytes, strAt mem addr len = some bytes ∧ bytes.length = k+1 ∧
      bytes[k]? = some 0 ∧ ∀ j < k, bytes[j]? ≠ some 0 := by
  induction len generalizing addr k with
  | zero => omega
  | succ len ih =>
    cases k with
    | zero =>
      have hzero : mem addr = some 0 := by rw [← h.2, addr_zero]
      refine ⟨[0], ?_, rfl, rfl, fun j hj => absurd hj (Nat.not_lt_zero j)⟩
      rw [strAt, hzero]
      rfl
    | succ k =>
      obtain ⟨c, hc, hne⟩ := chars_head h.1
      obtain ⟨rest, hrest, hlen, hend, hbefore⟩ := ih (k := k)
        ⟨chars_tail h.1, by rw [addr_succ]; exact h.2⟩ (by omega)
      refine ⟨c::rest, by rw [str_cons hc hne, hrest]; rfl, by rw [List.length_cons, hlen],
        by rw [List.getElem?_cons_succ, hend], fun j hj => ?_⟩
      cases j with
      | zero =>
        rw [List.getElem?_cons_zero]
        exact fun h => hne (Option.some.inj h)
      | succ j =>
        rw [List.getElem?_cons_succ]
        exact hbefore j (by omega)

theorem str_broken {mem : Bytes} {addr : UInt16} {k len : ℕ} (h : Broken mem addr k)
    (hk : k < len) : strAt mem addr len = none := by
  induction len generalizing addr k with
  | zero => omega
  | succ len ih =>
    cases k with
    | zero =>
      have hnone : mem addr = none := by rw [← h.2, addr_zero]
      rw [strAt, hnone]
    | succ k =>
      obtain ⟨c, hc, hne⟩ := chars_head h.1
      rw [str_cons hc hne, ih (k := k)
        ⟨chars_tail h.1, by rw [addr_succ]; exact h.2⟩ (by omega)]
      rfl

/-- Without a terminator the string that is read has none. -/
theorem str_full {mem : Bytes} {addr : UInt16} {len : ℕ} (h : Chars mem addr len) :
    ∃ bytes, strAt mem addr len = some bytes ∧ bytes.length = len ∧ ∀ c ∈ bytes, c ≠ 0 := by
  induction len generalizing addr with
  | zero => exact ⟨[], rfl, rfl, fun c hc => nomatch hc⟩
  | succ len ih =>
    obtain ⟨c, hc, hne⟩ := chars_head h
    obtain ⟨rest, hrest, hlen, hall⟩ := ih (chars_tail h)
    refine ⟨c::rest, by rw [str_cons hc hne, hrest]; rfl, by rw [List.length_cons, hlen],
      fun x hx => ?_⟩
    rcases List.mem_cons.mp hx with rfl | hx
    · exact hne
    · exact hall x hx

/-! ### Reading them -/

/-- In these states the memory of the process reads as `mem`. -/
def ReadsAs {φ : Type} (F : Files φ) (process : ProcManProcess)
    (procData : ProcManProcessProcData) (I : φ → Prop) (mem : Bytes) : Prop :=
  ∀ addr, Gives I (procManProcessMemoryReadByte F process procData addr) (.ok (mem addr))

section Reading

variable {φ : Type} {F : Files φ} {process : ProcManProcess} {procData : ProcManProcessProcData}
  {I : φ → Prop} {mem : Bytes} (hm : ReadsAs F process procData I mem)
include hm

theorem readStr_gives (addr : UInt16) (len : ℕ) :
    Gives I
      (procManProcessMemoryReadStr F process procData addr len) (.ok (strAt mem addr len)) := by
  induction len generalizing addr with
  | zero => exact gives_pure _
  | succ len ih =>
    refine gives_bind (hm addr) ?_
    rw [strAt]
    cases mem addr with
    | none => exact gives_pure _
    | some c =>
      dsimp only
      split
      case isTrue => exact gives_pure _
      case isFalse => exact gives_bind (ih (addr+1)) (gives_pure _)

/-- A string that fits is copied to its place. -/
theorem readStrInto_fits {b : Buffer} {offset len : ℕ} {addr : UInt16} {bytes : List UInt8}
    (h : strAt mem addr len = some bytes) (hfits : offset+bytes.length ≤ b.length) :
    ∃ b', memcpy b offset bytes = .ok b' ∧ Gives I
      (readStrInto F process procData b offset addr len) (.ok (some b')) := by
  induction len generalizing b offset addr bytes with
  | zero =>
    cases h
    exact ⟨b, memcpy_nil hfits, gives_pure _⟩
  | succ len ih =>
    rw [strAt] at h
    have hread := hm addr
    cases hc : mem addr with
    | none =>
      rw [hc] at h
      cases h
    | some c =>
      rw [hc] at h hread
      dsimp only at h
      have hput : Gives I
          (onBuffer (put b offset c)) (.ok (b.set offset c)) := by
        have hroom : offset < b.length := by
          split at h
          case isTrue =>
            cases h
            exact hfits
          case isFalse =>
            obtain ⟨rest, _, rfl⟩ := Option.map_eq_some_iff.mp h
            rw [List.length_cons] at hfits
            omega
        rw [put_ok hroom c]
        exact gives_fromExcept (.ok (b.set offset c))
      by_cases hzero : c = 0
      · rw [if_pos hzero] at h
        cases h
        refine ⟨b.set offset c, ?_, gives_bind hread (gives_bind hput ?_)⟩
        · rw [← memcpy_cons hfits, memcpy_nil (by rw [List.length_set]; exact hfits)]
        · rw [if_pos hzero]
          exact gives_pure _
      · rw [if_neg hzero] at h
        obtain ⟨rest, hrest, rfl⟩ := Option.map_eq_some_iff.mp h
        obtain ⟨b', hcpy, hgives⟩ := ih hrest
          (show offset+1+rest.length ≤ (b.set offset c).length by
            rw [List.length_cons] at hfits
            rw [List.length_set]
            omega)
        refine ⟨b', by rw [← memcpy_cons hfits, hcpy], gives_bind hread (gives_bind hput ?_)⟩
        rw [if_neg hzero]
        exact hgives

/-- What is read in front of a byte that cannot be read has to fit too. -/
theorem readStrInto_broken {b : Buffer} {offset len k : ℕ} {addr : UInt16}
    (h : Broken mem addr k) (hk : k < len) (hfits : offset+k ≤ b.length) :
    Gives I
      (readStrInto F process procData b offset addr len) (.ok none) := by
  induction len generalizing b offset addr k with
  | zero => omega
  | succ len ih =>
    have hread := hm addr
    cases k with
    | zero =>
      have hnone : mem addr = none := by rw [← h.2, addr_zero]
      rw [hnone] at hread
      exact gives_bind hread (gives_pure _)
    | succ k =>
      obtain ⟨c, hc, hne⟩ := chars_head h.1
      rw [hc] at hread
      have hput : Gives I
          (onBuffer (put b offset c)) (.ok (b.set offset c)) := by
        rw [put_ok (by omega) _]
        exact gives_fromExcept (.ok (b.set offset c))
      refine gives_bind hread (gives_bind hput ?_)
      rw [if_neg hne]
      exact ih (k := k) ⟨chars_tail h.1, by rw [addr_succ]; exact h.2⟩
        (by omega) (by rw [List.length_set]; omega)

/-- A string that goes on at the end of the buffer. -/
theorem readStrInto_overflows {b : Buffer} {offset len k : ℕ} {addr : UInt16} {c : UInt8}
    (h : Chars mem addr k) (hc : mem (addr+UInt16.ofNat k) = some c) (hk : k < len)
    (hend : offset+k = b.length) :
    Gives I
      (readStrInto F process procData b offset addr len) (.error .outOfBounds) := by
  induction len generalizing b offset addr k with
  | zero => omega
  | succ len ih =>
    have hread := hm addr
    cases k with
    | zero =>
      rw [addr_zero] at hc
      rw [hc] at hread
      refine gives_bind hread (gives_fault ?_)
      rw [put, if_neg (by omega)]
      exact gives_fromExcept (Except.error Fault.outOfBounds)
    | succ k =>
      obtain ⟨x, hx, hne⟩ := chars_head h
      rw [hx] at hread
      have hput : Gives I
          (onBuffer (put b offset x)) (.ok (b.set offset x)) := by
        rw [put_ok (by omega) _]
        exact gives_fromExcept (.ok (b.set offset x))
      refine gives_bind hread (gives_bind hput ?_)
      rw [if_neg hne]
      exact ih (k := k) (chars_tail h) (by rw [addr_succ]; exact hc) (by omega)
        (by rw [List.length_set]; omega)

theorem readStrInto_terminated {b : Buffer} {offset len k : ℕ} {addr : UInt16}
    (h : Terminated mem addr k) (hk : k < len) (hfits : offset+k < b.length) :
    ∃ b', Gives I (readStrInto F process procData b offset addr len) (.ok (some b')) ∧
      b'.length = b.length ∧ b'[offset+k]? = some 0 ∧ (∀ j < k, b'[offset+j]? ≠ some 0) ∧
      ∀ j, j < offset ∨ offset+k < j → b'[j]? = b[j]? := by
  obtain ⟨bytes, hbytes, hlen, hend, hbefore⟩ := str_terminated h hk
  obtain ⟨b', hcpy, hgives⟩ := readStrInto_fits hm hbytes
    (by omega : offset+bytes.length ≤ b.length)
  obtain ⟨b₁, hcpy₁, hlength, hin, hout⟩ := memcpy_ok (by omega : offset+bytes.length ≤ b.length)
  rw [hcpy] at hcpy₁
  cases hcpy₁
  refine ⟨b', hgives, hlength, by rw [hin k (by omega), hend], fun j hj => ?_,
    fun j hj => hout j (by omega)⟩
  rw [hin j (by omega)]
  exact hbefore j hj

theorem readStrInto_full {b : Buffer} {offset len : ℕ} {addr : UInt16}
    (h : Chars mem addr len) (hfits : offset+len ≤ b.length) :
    ∃ b', Gives I (readStrInto F process procData b offset addr len) (.ok (some b')) ∧
      (∀ j < len, b'[offset+j]? ≠ some 0) ∧
      ∀ j, j < offset ∨ offset+len ≤ j → b'[j]? = b[j]? := by
  obtain ⟨bytes, hbytes, hlen, hall⟩ := str_full h
  obtain ⟨b', hcpy, hgives⟩ := readStrInto_fits hm hbytes
    (by omega : offset+bytes.length ≤ b.length)
  obtain ⟨b₁, hcpy₁, _, hin, hout⟩ := memcpy_ok (by omega : offset+bytes.length ≤ b.length)
  rw [hcpy] at hcpy₁
  cases hcpy₁
  refine ⟨b', hgives, fun j hj hzero => ?_, fun j hj => hout j (by omega)⟩
  rw [hin j (by omega)] at hzero
  exact hall 0 (List.mem_of_getElem? hzero) rfl

/-- The string that is read has a terminator unless none of the bytes is one. -/
theorem readStr_iff {s : φ} (hs : I s) (addr : UInt16) (len : ℕ) :
    (∀ bytes s', procManProcessMemoryReadStr F process procData addr len s =
      .ok (some bytes, s') → 0 ∈ bytes) ↔ ¬ Chars mem addr len := by
  obtain ⟨s₁, hrun, _⟩ := readStr_gives hm addr len s hs
  constructor
  · intro h hall
    obtain ⟨bytes, hbytes, _, hne⟩ := str_full hall
    rw [hbytes] at hrun
    exact hne 0 (h bytes s₁ hrun) rfl
  · intro hnot bytes s' hread
    rcases chars_cases mem addr len with hall | ⟨k, hk, hbroken | hterminated⟩
    · exact absurd hall hnot
    · rw [hrun, str_broken hbroken hk] at hread
      cases hread
    · obtain ⟨bytes', hbytes, _, hend, _⟩ := str_terminated hterminated hk
      rw [hrun, hbytes] at hread
      cases hread
      exact List.mem_of_getElem? hend

/-! ### Paths -/

omit hm in
theorem gives_onBuffer {α β : Type} (x : Except Trap α) (f : α → β) :
    Gives I (onBuffer x >>= fun a => pure (f a)) ((x.mapError trapFault).map f) := by
  cases x with
  | ok a => exact gives_bind (gives_fromExcept (Except.ok a)) (gives_pure (f a))
  | error t => exact gives_fault (gives_fromExcept (Except.error (trapFault t)))

theorem readEnvPath_broken {addr : UInt16} {k : ℕ} (h : Broken mem addr k)
    (hk : k < KernelFsPathMax) {b : Buffer} (hb : b.length = KernelFsPathMax) (steps : ℕ) :
    Gives I (readEnvPath F steps process procData b addr) (.ok none) :=
  gives_bind (readStrInto_broken hm h hk (by omega)) (gives_pure _)

theorem readEnvPath_terminated {addr : UInt16} {k : ℕ} (h : Terminated mem addr k)
    (hk : k < KernelFsPathMax) {b : Buffer} (hb : b.length = KernelFsPathMax) :
    ∃ b', b'.length = KernelFsPathMax ∧ b'[k]? = some 0 ∧ (∀ j < k, b'[j]? ≠ some 0) ∧
      ∀ steps, Gives I (readEnvPath F steps process procData b addr)
        (((kernelFsPathNormalise steps b').mapError trapFault).map some) := by
  obtain ⟨b', hread, hlen, hend, hbefore, _⟩ := readStrInto_terminated hm h hk
    (by omega : 0+k < b.length)
  simp only [Nat.zero_add] at hend hbefore
  exact ⟨b', by omega, hend, hbefore, fun steps => gives_bind hread (gives_onBuffer _ some)⟩

omit hm in
theorem normalise_safe {b : Buffer} {k : ℕ} (hpos : 0 < k) (hend : b[k]? = some 0)
    (hbefore : ∀ j < k, b[j]? ≠ some 0) (steps : ℕ) :
    KeepsPath b k (kernelFsPathNormalise steps b) :=
  kernelFsPathNormalise_keeps ⟨hend, hbefore 0 hpos⟩ steps

omit hm in
theorem mapError_ne {α : Type} {x : Except Trap α} {β : Type} (f : α → β)
    (h : x ≠ .error .outOfBounds) : (x.mapError trapFault).map f ≠ .error .outOfBounds := by
  cases x with
  | ok a => exact fun h => nomatch h
  | error t =>
    cases t with
    | outOfBounds => exact absurd rfl h
    | diverges => exact fun h => nomatch h

omit hm in
theorem keepsPath_ne {b : Buffer} {n : ℕ} {x : Except Trap Buffer} (h : KeepsPath b n x) :
    x ≠ .error .outOfBounds := by
  rintro rfl
  cases h

omit hm in
theorem ne_of_gives {α : Type} {x : Run φ Fault α} {r : Except Fault α} {s : φ} (hs : I s)
    (hx : Gives I x r) (hr : r ≠ .error .outOfBounds) : x s ≠ .error .outOfBounds := by
  cases r with
  | ok a =>
    obtain ⟨s', hrun, _⟩ := hx s hs
    rw [hrun]
    exact fun h => nomatch h
  | error e =>
    have hrun : x s = .error e := hx s hs
    rw [hrun]
    exact fun h => hr (by cases h; rfl)

omit hm in
/-- The path at an address has an end in its first bytes: it breaks off where it
cannot be read, or has its terminator, and is then not empty. -/
def PathFits (mem : Bytes) (addr : UInt16) : Prop :=
  ∃ k < KernelFsPathMax, Broken mem addr k ∨ (0 < k ∧ Terminated mem addr k)

/-- A path that is read into its buffer and normalised there. -/
theorem path_iff {s : φ} (hs : I s) (addr : UInt16) :
    ((∀ bytes s', procManProcessMemoryReadStr F process procData addr KernelFsPathMax s =
        .ok (some bytes, s') → 0 ∈ bytes) ∧
      ∀ steps b, b.length = KernelFsPathMax →
        readEnvPath F steps process procData b addr s ≠ .error .outOfBounds) ↔
      PathFits mem addr := by
  rw [readStr_iff hm hs]
  constructor
  · rintro ⟨hends, hstays⟩
    rcases chars_cases mem addr KernelFsPathMax with hall | ⟨k, hk, hbroken | hterminated⟩
    · exact absurd hall hends
    · exact ⟨k, hk, Or.inl hbroken⟩
    · cases k with
      | succ k => exact ⟨k+1, hk, Or.inr ⟨Nat.succ_pos k, hterminated⟩⟩
      | zero =>
        -- the empty path is left by one byte
        obtain ⟨b', hlen, hend, _, hgives⟩ := readEnvPath_terminated hm hterminated hk
          (List.length_replicate (n := KernelFsPathMax) (a := (0 : UInt8)))
        obtain ⟨rest, rfl⟩ : ∃ rest, b' = 0::rest := by
          cases b' with
          | nil => cases hend
          | cons c rest =>
            rw [List.getElem?_cons_zero] at hend
            exact ⟨rest, by rw [Option.some.inj hend]⟩
        have hfault := hgives 1
        rw [kernelFsPathNormalise_empty rest 0] at hfault
        exact absurd (hfault s hs) (hstays 1 _ List.length_replicate)
  · rintro ⟨k, hk, hends⟩
    constructor
    · intro hall
      rcases hends with hbroken | ⟨_, hterminated⟩
      · obtain ⟨c, hc, _⟩ := hall k hk
        rw [hbroken.2] at hc
        cases hc
      · obtain ⟨c, hc, hne⟩ := hall k hk
        rw [hterminated.2] at hc
        cases hc
        exact hne rfl
    · intro steps b hb
      rcases hends with hbroken | ⟨hpos, hterminated⟩
      · exact ne_of_gives hs (readEnvPath_broken hm hbroken hk hb steps) (fun h => nomatch h)
      · obtain ⟨b', _, hend, hbefore, hgives⟩ := readEnvPath_terminated hm hterminated hk hb
        exact ne_of_gives hs (hgives steps)
          (mapError_ne some (keepsPath_ne (normalise_safe hpos hend hbefore steps)))

/-! ### Arguments -/

omit hm in
/-- The arguments that follow one another from an address on fit into what is
left of the buffer, up to the first that cannot be read. -/
def ArgvFits (mem : Bytes) (argvPtr : UInt16) (offset : ℕ) : ℕ → Prop
  | 0 => True
  | argc+1 => ∃ k < KernelFsPathMax,
      (Broken mem (argvPtr+UInt16.ofNat offset) k ∧ offset+k ≤ 256) ∨
      (Terminated mem (argvPtr+UInt16.ofNat offset) k ∧ offset+k < 256 ∧
        ArgvFits mem argvPtr (offset+k+1) argc)

omit hm in
/-- Arguments stand in the buffer from `offset` on, and the first of them is the
string at this address. -/
structure ArgvRead (mem : Bytes) (addr : UInt16) (b : Buffer) (offset argc k : ℕ) : Prop where
  first : Terminated mem addr k
  terminator : b[offset+k]? = some 0
  chars : ∀ j < k, b[offset+j]? ≠ some 0
  total : ∃ e ≤ 256, argvEnd b offset argc = .ok e

omit hm in
theorem argvEnd_succ {b : Buffer} {offset k : ℕ} (hend : b[offset+k]? = some 0)
    (hbefore : ∀ j < k, b[offset+j]? ≠ some 0) (argc : ℕ) :
    argvEnd b offset (argc+1) = argvEnd b (offset+k+1) argc := by
  rw [argvEnd, strlen_eq hend hbefore]
  rfl

omit hm in
/-- One more argument in front of those that have been read behind it. -/
theorem argvRead_cons {addr : UInt16} {b₁ b' : Buffer} {offset argc k : ℕ}
    (hfirst : Terminated mem addr k)
    (hend : b₁[offset+k]? = some 0) (hbefore : ∀ j < k, b₁[offset+j]? ≠ some 0)
    (hsame : ∀ j < offset+k+1, b'[j]? = b₁[j]?)
    (hrest : ∃ e ≤ 256, argvEnd b' (offset+k+1) argc = .ok e) :
    ArgvRead mem addr b' offset (argc+1) k := by
  have hend' : b'[offset+k]? = some 0 := by rw [hsame _ (by omega), hend]
  have hbefore' : ∀ j < k, b'[offset+j]? ≠ some 0 := by
    intro j hj
    rw [hsame _ (by omega)]
    exact hbefore j hj
  refine ⟨hfirst, hend', hbefore', ?_⟩
  rw [argvEnd_succ hend' hbefore']
  exact hrest

/-- Reading arguments that fit: they stand behind what is there, or one could
not be read. -/
theorem readArgv_fits {argvPtr : UInt16} {b : Buffer} {offset argc : ℕ} (hb : b.length = 256)
    (h : ArgvFits mem argvPtr offset argc) :
    ∃ r, Gives I (readArgv F process procData argvPtr b offset argc) (.ok r) ∧
      ∀ b', r = some b' → b'.length = 256 ∧ (∀ j < offset, b'[j]? = b[j]?) ∧
        (argc = 0 ∧ b' = b ∨ ∃ k < KernelFsPathMax,
          ArgvRead mem (argvPtr+UInt16.ofNat offset) b' offset argc k) := by
  induction argc generalizing b offset with
  | zero =>
    refine ⟨some b, gives_pure _, fun b' hr => ?_⟩
    cases hr
    exact ⟨hb, fun _ _ => rfl, Or.inl ⟨rfl, rfl⟩⟩
  | succ argc ih =>
    obtain ⟨k, hk, ⟨hbroken, hroom⟩ | ⟨hterminated, hroom, hrest⟩⟩ := h
    · exact ⟨none, gives_bind (readStrInto_broken hm hbroken hk (by omega)) (gives_pure _),
        fun b' hr => nomatch hr⟩
    · obtain ⟨b₁, hread, hlen₁, hend₁, hbefore₁, hsame₁⟩ :=
        readStrInto_terminated hm hterminated hk (by omega : offset+k < b.length)
      have hn : strlen b₁ offset = .ok k := strlen_eq hend₁ hbefore₁
      obtain ⟨r, hgives, hr⟩ := ih (b := b₁) (by omega) hrest
      refine ⟨r, gives_bind hread ?_, fun b' hsome => ?_⟩
      · have hbuffer : Gives I (onBuffer (strlen b₁ offset)) (.ok k) := by
          rw [hn]
          exact gives_fromExcept (Except.ok k)
        exact gives_bind hbuffer hgives
      · obtain ⟨hlen', hsame', hends⟩ := hr b' hsome
        refine ⟨hlen', fun j hj => ?_, Or.inr ⟨k, hk, ?_⟩⟩
        · rw [hsame' j (by omega), hsame₁ j (Or.inl hj)]
        · refine argvRead_cons hterminated hend₁ hbefore₁ hsame' ?_
          rcases hends with ⟨rfl, _⟩ | ⟨_, _, hread'⟩
          · exact ⟨offset+k+1, by omega, rfl⟩
          · exact hread'.total

/-- Reading arguments that do not fit leaves a buffer without terminators. -/
theorem readArgv_overruns {argvPtr : UInt16} {b : Buffer} {offset argc : ℕ} (hb : b.length = 256)
    (hoffset : offset ≤ 256) (hzero : ∀ j : ℕ, offset ≤ j → b[j]? ≠ some 0)
    (h : ¬ ArgvFits mem argvPtr offset argc) :
    Gives I (readArgv F process procData argvPtr b offset argc) (.error .outOfBounds) := by
  induction argc generalizing b offset with
  | zero => exact absurd trivial h
  | succ argc ih =>
    have hoverflow : ∀ k c, Chars mem (argvPtr+UInt16.ofNat offset) k →
        mem (argvPtr+UInt16.ofNat offset+UInt16.ofNat k) = some c → k < KernelFsPathMax →
        offset+k = 256 →
        Gives I (readArgv F process procData argvPtr b offset (argc+1)) (.error .outOfBounds) :=
      fun k c hchars hc hk hend =>
        gives_fault (readStrInto_overflows hm hchars hc hk (by omega))
    have hinside : ∀ k, Chars mem (argvPtr+UInt16.ofNat offset) k → 256 < offset+k →
        k ≤ KernelFsPathMax →
        Gives I (readArgv F process procData argvPtr b offset (argc+1))
          (.error .outOfBounds) := by
      intro k hchars hend hk
      obtain ⟨c, hc, _⟩ := hchars (256-offset) (by omega)
      exact hoverflow (256-offset) c (chars_le hchars (by omega)) hc (by omega) (by omega)
    rcases chars_cases mem (argvPtr+UInt16.ofNat offset) KernelFsPathMax with
      hall | ⟨k, hk, hbroken | hterminated⟩
    · by_cases hroom : offset+KernelFsPathMax ≤ 256
      · -- no terminator is in the buffer, and none behind it
        obtain ⟨b', hread, hne, hsame⟩ :=
          readStrInto_full hm hall (by omega : offset+KernelFsPathMax ≤ b.length)
        refine gives_bind hread (gives_fault ?_)
        rw [strlen_overruns (fun j hj => ?_)]
        · exact gives_fromExcept (Except.error Fault.outOfBounds)
        · by_cases hin : j < offset+KernelFsPathMax
          · have hj' := hne (j-offset) (by omega)
            rwa [Nat.add_sub_cancel' hj] at hj'
          · rw [hsame j (Or.inr (by omega))]
            exact hzero j hj
      · exact hinside KernelFsPathMax hall (by omega) (Nat.le_refl _)
    · have hroom : 256 < offset+k := by
        by_contra hroom
        exact h ⟨k, hk, Or.inl ⟨hbroken, by omega⟩⟩
      exact hinside k hbroken.1 hroom (by omega)
    · by_cases hroom : offset+k < 256
      · obtain ⟨b₁, hread, hlen₁, hend₁, hbefore₁, hsame₁⟩ :=
          readStrInto_terminated hm hterminated hk (by omega : offset+k < b.length)
        have hbuffer : Gives I (onBuffer (strlen b₁ offset)) (.ok k) := by
          rw [strlen_eq hend₁ hbefore₁]
          exact gives_fromExcept (Except.ok k)
        refine gives_bind hread (gives_bind hbuffer (ih (by omega) (by omega) (fun j hj => ?_)
          (fun hrest => h ⟨k, hk, Or.inr ⟨hterminated, hroom, hrest⟩⟩)))
        rw [hsame₁ j (Or.inr (by omega))]
        exact hzero j (by omega)
      · by_cases hlast : offset+k = 256
        · exact hoverflow k 0 hterminated.1 hterminated.2 hk hlast
        · exact hinside k hterminated.1 (by omega) (by omega)

/-- The arguments of an exec, in a buffer that may hold anything before. -/
theorem argv_iff {s : φ} (hs : I s) (argvPtr : UInt16) (argc : ℕ) :
    (∀ b : Buffer, b.length = 256 →
      readArgv F process procData argvPtr b 0 argc s ≠ .error .outOfBounds) ↔
      ArgvFits mem argvPtr 0 argc := by
  constructor
  · intro h
    by_contra hnot
    have hall : ∀ j : ℕ, 0 ≤ j → (List.replicate 256 (1 : UInt8))[j]? ≠ some 0 := by
      intro j _ hj
      have hmem := List.eq_of_mem_replicate (List.mem_of_getElem? hj)
      cases hmem
    exact h _ List.length_replicate
      (readArgv_overruns hm List.length_replicate (Nat.zero_le _) hall hnot s hs)
  · intro h b hb
    obtain ⟨r, hgives, _⟩ := readArgv_fits hm hb h
    exact ne_of_gives hs hgives (fun h => nomatch h)

/-! ### The arguments of the process itself -/

omit hm in
/-- The argument that is found behind `n` terminators. -/
inductive ArgAt (mem : Bytes) : UInt16 → ℕ → UInt16 → Prop
  | here (addr : UInt16) : ArgAt mem addr 0 addr
  | next (addr addr' : UInt16) (n : ℕ) (c : UInt8) (hc : mem addr = some c)
      (h : ArgAt mem (addr+1) (if c = 0 then n else n+1) addr') : ArgAt mem addr (n+1) addr'

omit hm in
/-- The arguments from the `n`-th on fit into what is left of the buffer. -/
def CopyFits (mem : Bytes) (n offset : ℕ) : ℕ → Prop
  | 0 => True
  | argc+1 => ∀ addr, ArgAt mem (UInt16.ofNat ProcManEnvVarsVirtualOffset) n addr →
      ∃ k < 65535, (Broken mem addr k ∧ offset+k ≤ 256) ∨
        (Terminated mem addr k ∧ offset+k < 256 ∧ CopyFits mem (n+1) (offset+k+1) argc)

theorem argvAddr_cases (addr : UInt16) (n left : ℕ) :
    ∃ r, Gives I (argvAddr F process procData addr n left) r ∧
      (r = .error .diverges ∨ r = .ok none ∨
        ∃ addr', r = .ok (some addr') ∧ ArgAt mem addr n addr') := by
  induction left generalizing addr n with
  | zero => exact ⟨.error .diverges, fun _ _ => rfl, Or.inl rfl⟩
  | succ left ih =>
    rw [argvAddr]
    cases n with
    | zero => exact ⟨_, gives_pure _, Or.inr (Or.inr ⟨addr, rfl, .here addr⟩)⟩
    | succ n =>
      rw [if_neg (Nat.succ_ne_zero n)]
      have hread := hm addr
      cases hc : mem addr with
      | none =>
        rw [hc] at hread
        exact ⟨_, gives_bind hread (gives_pure _), Or.inr (Or.inl rfl)⟩
      | some c =>
        rw [hc] at hread
        obtain ⟨r, hgives, hr⟩ := ih (addr+1) (if c = 0 then n else n+1)
        refine ⟨r, gives_bind hread ?_, ?_⟩
        · dsimp only
          rw [Nat.add_sub_cancel]
          exact hgives
        · rcases hr with hr | hr | ⟨addr', hr, hat⟩
          · exact Or.inl hr
          · exact Or.inr (Or.inl hr)
          · exact Or.inr (Or.inr ⟨addr', hr, .next addr addr' n c hc hat⟩)

theorem argvAddr_at {addr addr' : UInt16} {n : ℕ} (h : ArgAt mem addr n addr') :
    ∃ least, ∀ left ≥ least, Gives I (argvAddr F process procData addr n left)
      (.ok (some addr')) := by
  induction h with
  | here addr =>
    refine ⟨1, fun left hleft => ?_⟩
    obtain ⟨left, rfl⟩ := Nat.exists_eq_succ_of_ne_zero (by omega : left ≠ 0)
    exact gives_pure _
  | next addr addr' n c hc _ ih =>
    obtain ⟨least, hall⟩ := ih
    refine ⟨least+1, fun left hleft => ?_⟩
    obtain ⟨left, rfl⟩ := Nat.exists_eq_succ_of_ne_zero (by omega : left ≠ 0)
    have hread := hm addr
    rw [hc] at hread
    rw [argvAddr, if_neg (Nat.succ_ne_zero n)]
    refine gives_bind hread ?_
    dsimp only
    rw [Nat.add_sub_cancel]
    exact hall left (by omega)

omit hm in
/-- The argument's number is not out of range. -/
theorem getArgvNStr_eq {n : ℕ} (hn : n < procData.argc.toNat) (steps : ℕ) (b : Buffer)
    (offset : ℕ) : procManProcessGetArgvNStr F steps process procData (u8 n) b offset =
      (do
        let addr ← argvAddr F process procData (UInt16.ofNat ProcManEnvVarsVirtualOffset) n steps
        match addr with
        | none => pure none
        | some addr => readStrInto F process procData b offset addr 65535) := by
  have hargc := procData.argc.toNat_lt
  have hmax : ARGVMAX = 255 := rfl
  have hu8 : u8 n = n := Nat.mod_eq_of_lt (by omega)
  rw [procManProcessGetArgvNStr, hu8]
  exact if_neg (by omega)

theorem copyArgv_fits {b : Buffer} {n offset argc : ℕ} (hb : b.length = 256)
    (hn : n+argc ≤ procData.argc.toNat) (h : CopyFits mem n offset argc) (steps : ℕ) :
    ∃ r, Gives I (copyArgv F steps process procData b offset n argc) r ∧
      r ≠ .error .outOfBounds ∧
      ∀ b', r = .ok (some b') → b'.length = 256 ∧ (∀ j < offset, b'[j]? = b[j]?) ∧
        (argc = 0 ∧ b' = b ∨ ∃ addr k,
          ArgAt mem (UInt16.ofNat ProcManEnvVarsVirtualOffset) n addr ∧
          ArgvRead mem addr b' offset argc k) := by
  induction argc generalizing b n offset with
  | zero =>
    refine ⟨.ok (some b), gives_pure _, (fun h => nomatch h), fun b' hr => ?_⟩
    cases hr
    exact ⟨hb, fun _ _ => rfl, Or.inl ⟨rfl, rfl⟩⟩
  | succ argc ih =>
    rw [copyArgv, getArgvNStr_eq (by omega)]
    obtain ⟨found, hfind, rfl | rfl | ⟨addr, rfl, hat⟩⟩ :=
      argvAddr_cases hm (UInt16.ofNat ProcManEnvVarsVirtualOffset) n steps
    · exact ⟨_, gives_fault (gives_fault hfind), (fun h => nomatch h), fun b' hr => nomatch hr⟩
    · exact ⟨.ok none, gives_bind (gives_bind hfind (gives_pure _)) (gives_pure _),
        (fun h => nomatch h), fun b' hr => nomatch hr⟩
    · obtain ⟨k, hk, ⟨hbroken, hroom⟩ | ⟨hterminated, hroom, hrest⟩⟩ := h addr hat
      · exact ⟨.ok none, gives_bind (gives_bind hfind
          (readStrInto_broken hm hbroken hk (by omega))) (gives_pure _),
          (fun h => nomatch h), fun b' hr => nomatch hr⟩
      · obtain ⟨b₁, hread, hlen₁, hend₁, hbefore₁, hsame₁⟩ :=
          readStrInto_terminated hm hterminated hk (by omega : offset+k < b.length)
        obtain ⟨r, hgives, hne, hr⟩ := ih (b := b₁) (by omega) (by omega) hrest
        have hbuffer : Gives I (onBuffer (strlen b₁ offset)) (.ok k) := by
          rw [strlen_eq hend₁ hbefore₁]
          exact gives_fromExcept (Except.ok k)
        refine ⟨r, gives_bind (gives_bind hfind hread) (gives_bind hbuffer hgives), hne,
          fun b' hsome => ?_⟩
        obtain ⟨hlen', hsame', hends⟩ := hr b' hsome
        refine ⟨hlen', fun j hj => ?_, Or.inr ⟨addr, k, hat, ?_⟩⟩
        · rw [hsame' j (by omega), hsame₁ j (Or.inl hj)]
        · refine argvRead_cons hterminated hend₁ hbefore₁ hsame' ?_
          rcases hends with ⟨rfl, _⟩ | ⟨_, _, _, hread'⟩
          · exact ⟨offset+k+1, by omega, rfl⟩
          · exact hread'.total

theorem copyArgv_overruns {b : Buffer} {n offset argc : ℕ} (hb : b.length = 256)
    (hn : n+argc ≤ procData.argc.toNat) (hoffset : offset ≤ 256)
    (h : ¬ CopyFits mem n offset argc) :
    ∃ least, ∀ steps ≥ least, Gives I (copyArgv F steps process procData b offset n argc)
      (.error .outOfBounds) := by
  induction argc generalizing b n offset with
  | zero => exact absurd trivial h
  | succ argc ih =>
    rw [CopyFits] at h
    obtain ⟨addr, hnot⟩ := not_forall.mp h
    obtain ⟨hat, hnot⟩ := Classical.not_imp.mp hnot
    obtain ⟨least, hfind⟩ := argvAddr_at (F := F) hm hat
    have hinside : ∀ k, Chars mem addr k → 256 < offset+k → k ≤ 65535 →
        ∃ least, ∀ steps ≥ least, Gives I (copyArgv F steps process procData b offset n (argc+1))
          (.error .outOfBounds) := by
      intro k hchars hend hk
      obtain ⟨c, hc, _⟩ := hchars (256-offset) (by omega)
      refine ⟨least, fun steps hsteps => ?_⟩
      rw [copyArgv, getArgvNStr_eq (by omega)]
      exact gives_fault (gives_bind (hfind steps hsteps) (readStrInto_overflows hm
        (chars_le hchars (by omega : 256-offset ≤ k)) hc (by omega) (by omega)))
    rcases chars_cases mem addr 65535 with hall | ⟨k, hk, hbroken | hterminated⟩
    · exact hinside 65535 hall (by omega) (Nat.le_refl _)
    · have hroom : 256 < offset+k := by
        by_contra hroom
        exact hnot ⟨k, hk, Or.inl ⟨hbroken, by omega⟩⟩
      exact hinside k hbroken.1 hroom (by omega)
    · by_cases hroom : offset+k < 256
      · obtain ⟨b₁, hread, hlen₁, hend₁, hbefore₁, _⟩ :=
          readStrInto_terminated hm hterminated hk (by omega : offset+k < b.length)
        have hbuffer : Gives I (onBuffer (strlen b₁ offset)) (.ok k) := by
          rw [strlen_eq hend₁ hbefore₁]
          exact gives_fromExcept (Except.ok k)
        obtain ⟨least', hrest⟩ := ih (b := b₁) (n := n+1) (by omega)
          (by omega) (show offset+k+1 ≤ 256 by omega)
          (fun hrest => hnot ⟨k, hk, Or.inr ⟨hterminated, hroom, hrest⟩⟩)
        refine ⟨max least least', fun steps hsteps => ?_⟩
        rw [copyArgv, getArgvNStr_eq (by omega)]
        exact gives_bind (gives_bind (hfind steps (by omega)) hread)
          (gives_bind hbuffer (hrest steps (by omega)))
      · by_cases hlast : offset+k = 256
        · refine ⟨least, fun steps hsteps => ?_⟩
          rw [copyArgv, getArgvNStr_eq (by omega)]
          exact gives_fault (gives_bind (hfind steps hsteps) (readStrInto_overflows hm
            hterminated.1 hterminated.2 hk (by omega)))
        · exact hinside k hterminated.1 (by omega) (by omega)

/-- The arguments of an exec2, in a buffer that may hold anything before. -/
theorem copy_iff {s : φ} (hs : I s) {start argc : ℕ} (hn : start+argc ≤ procData.argc.toNat) :
    (∀ steps (b : Buffer), b.length = 256 →
      copyArgv F steps process procData b 0 start argc s ≠ .error .outOfBounds) ↔
      CopyFits mem start 0 argc := by
  constructor
  · intro h
    by_contra hnot
    obtain ⟨least, hall⟩ := copyArgv_overruns (F := F) hm
      (List.length_replicate (n := 256) (a := (0 : UInt8))) hn (Nat.zero_le _) hnot
    exact h least _ List.length_replicate (hall least (Nat.le_refl _) s hs)
  · intro h steps b hb
    obtain ⟨r, hgives, hne, _⟩ := copyArgv_fits hm hb hn h steps
    exact ne_of_gives hs hgives hne

end Reading

end ArduinoOS.Procman
