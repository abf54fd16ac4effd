import ArduinoOS.Kernel.Descriptors
import ArduinoOS.Procman.Kill
import Mathlib.Data.Fin.Tuple.Basic

/-!
# A process's own descriptors

A process knows its open files by their place in a table of eight global
descriptors. Opening a file looks for the first place that is free.
-/

set_option autoImplicit false

namespace ArduinoOS.Procman
open ArduinoOS.Faulting ArduinoOS.Kernel

/-- The loop for a spare slot, which ends one past the table without one. -/
def spareLocalFd (procData : ProcManProcessProcData) : ℕ :=
  match Fin.find? (fun i => procData.fds i == 0) with
  | some i => i.val+1
  | none => ProcManMaxFds

/-- The byte after the table is not one of its entries. -/
def procManProcessOpenFile {φ : Type} (F : Files φ) (procData : ProcManProcessProcData)
    (path : CStr) (mode : ℕ) : Run φ Fault (ℕ × ProcManProcessProcData) :=
  if mode = KernelFsFdModeNone ∨ mode ≥ KernelFsFdModeMax then
    pure (ProcManLocalFdInvalid, procData)
  else
    let localFd := spareLocalFd procData
    if localFd = ProcManMaxFds-1 then pure (ProcManLocalFdInvalid, procData)
    else do
      let globalFd ← F.kernelFsFileOpen path mode
      if h : localFd-1 < 8 then
        let procData := procData.setFd ⟨localFd-1, h⟩ (UInt8.ofNat globalFd)
        if procData.fds ⟨localFd-1, h⟩ = 0 then pure (ProcManLocalFdInvalid, procData)
        else pure (localFd, procData)
      else throw .outOfBounds

/-! ### The first free place -/

/-- The place is free and those before it are not. -/
def LowestFree (d : ProcManProcessProcData) (i : Fin 8) : Prop :=
  d.fds i = 0 ∧ ∀ j < i, d.fds j ≠ 0

instance (d : ProcManProcessProcData) (i : Fin 8) : Decidable (LowestFree d i) :=
  inferInstanceAs (Decidable (_ ∧ _))

def FdsFull (d : ProcManProcessProcData) : Prop := ∀ i, d.fds i ≠ 0

variable {d : ProcManProcessProcData} {i j : Fin 8}

theorem spare_lowest (h : LowestFree d i) : spareLocalFd d = i.val+1 := by
  have hfind : Fin.find? (fun i => d.fds i == 0) = some i := by
    rw [Fin.find?_eq_some_iff]
    simpa [LowestFree] using h
  rw [spareLocalFd, hfind]

theorem spare_full (h : FdsFull d) : spareLocalFd d = ProcManMaxFds := by
  have hfind : Fin.find? (fun i => d.fds i == 0) = none := by
    rw [Fin.find?_eq_none_iff]
    simpa [FdsFull] using h
  rw [spareLocalFd, hfind]

theorem full_or_lowest (d : ProcManProcessProcData) : FdsFull d ∨ ∃ i, LowestFree d i := by
  cases hfind : Fin.find? (fun i => d.fds i == 0) with
  | none =>
    rw [Fin.find?_eq_none_iff] at hfind
    exact .inl (by simpa [FdsFull] using hfind)
  | some i =>
    rw [Fin.find?_eq_some_iff] at hfind
    exact .inr ⟨i, by simpa [LowestFree] using hfind⟩

theorem lowest_unique (h : LowestFree d i) (h' : LowestFree d j) : i = j := by
  rcases lt_trichotomy i j with hlt | rfl | hlt
  · exact absurd h.1 (h'.2 i hlt)
  · rfl
  · exact absurd h'.1 (h.2 j hlt)

theorem lowest_not_full (h : LowestFree d i) : ¬ FdsFull d := fun hfull => hfull i h.1

@[simp] theorem setFd_same (d : ProcManProcessProcData) (i : Fin 8) (fd : UInt8) :
    (d.setFd i fd).fds i = fd := by
  simp [ProcManProcessProcData.setFd]

theorem setFd_ne (d : ProcManProcessProcData) {i j : Fin 8} (h : j ≠ i) (fd : UInt8) :
    (d.setFd i fd).fds j = d.fds j := by
  simp [ProcManProcessProcData.setFd, h]

theorem setFd_zero (h : d.fds i = 0) : d.setFd i 0 = d := by
  rw [ProcManProcessProcData.setFd, ← h, Function.update_eq_self]

/-! ### What an open does -/

section Opening

variable {φ : Type} {F : Files φ} {path : CStr} {mode : ℕ} {s : φ}

abbrev BadMode (mode : ℕ) : Prop := mode = KernelFsFdModeNone ∨ mode ≥ KernelFsFdModeMax

theorem openFile_bad (h : BadMode mode) :
    procManProcessOpenFile F d path mode s = .ok ((ProcManLocalFdInvalid, d), s) := by
  rw [procManProcessOpenFile, if_pos h]
  rfl

/-- The last place is never handed out. -/
theorem openFile_last (h : LowestFree d i) (hlast : i.val = 7) :
    procManProcessOpenFile F d path mode s = .ok ((ProcManLocalFdInvalid, d), s) := by
  unfold procManProcessOpenFile
  split
  · rfl
  · simp only [spare_lowest h, hlast]
    rfl

theorem openFile_found (hmode : ¬ BadMode mode) (h : LowestFree d i) (hi : i.val < 7) :
    procManProcessOpenFile F d path mode s =
      (F.kernelFsFileOpen path mode >>= fun globalFd =>
        if UInt8.ofNat globalFd = 0 then pure (ProcManLocalFdInvalid, d)
        else pure (i.val+1, d.setFd i (UInt8.ofNat globalFd))) s := by
  have hne : i.val+1 ≠ ProcManMaxFds-1 := by
    rw [ProcManMaxFds]
    omega
  have hlt : i.val+1-1 < 8 := by omega
  have hindex : (⟨i.val+1-1, hlt⟩ : Fin 8) = i := Fin.ext rfl
  rw [procManProcessOpenFile, if_neg hmode, spare_lowest h, if_neg hne]
  simp only [dif_pos hlt, hindex, setFd_same]
  have hstored : (fun globalFd => if UInt8.ofNat globalFd = 0 then
      (pure (ProcManLocalFdInvalid, d.setFd i (UInt8.ofNat globalFd)) :
        Run φ Fault (ℕ × ProcManProcessProcData))
      else pure (i.val+1, d.setFd i (UInt8.ofNat globalFd))) = fun globalFd =>
        if UInt8.ofNat globalFd = 0 then pure (ProcManLocalFdInvalid, d)
        else pure (i.val+1, d.setFd i (UInt8.ofNat globalFd)) := by
    funext globalFd
    by_cases hzero : UInt8.ofNat globalFd = 0
    · rw [if_pos hzero, if_pos hzero, hzero, setFd_zero h.1]
    · rw [if_neg hzero, if_neg hzero]
  rw [hstored]

/-- Without a free place the byte after the table is written. -/
theorem openFile_full (hmode : ¬ BadMode mode) (h : FdsFull d) :
    procManProcessOpenFile F d path mode s =
      (F.kernelFsFileOpen path mode >>= fun _ => throw .outOfBounds) s := by
  rw [procManProcessOpenFile, if_neg hmode, spare_full h]
  rfl

end Opening

end ArduinoOS.Procman
