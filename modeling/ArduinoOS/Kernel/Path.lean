import ArduinoOS.CStr

/-!
# Paths

Validity and splitting of paths, and the string comparisons the device lookups
rest on. A path is split at its last slash.
-/

set_option autoImplicit false

namespace ArduinoOS.Kernel

def KernelFsPathMax : ℕ := 64

def slash : CChar := CChar.ofChar '/'

def rootPath : CStr := [slash]

def kernelFsPathIsValid (path : CStr) : Bool :=
  path.head? == some slash && (path == rootPath || path.getLast? != some slash)

/-- The part after the last slash. -/
def baseName (path : CStr) : CStr := (path.reverse.takeWhile (fun c => c != slash)).reverse

def dirName (path : CStr) : CStr :=
  (path.reverse.dropWhile (fun c => c != slash)).tail.reverse

/-- The dirname and basename; an invalid path fails an assertion. -/
def kernelFsPathSplit (path : CStr) : Option (CStr × CStr) :=
  if kernelFsPathIsValid path then some (dirName path, baseName path) else none

/-- The number of leading characters two strings share. -/
def kstrMatchLen : CStr → CStr → ℕ
  | a::as, b::bs => if a = b then kstrMatchLen as bs+1 else 0
  | _, _ => 0

/-- The length is a `uint16_t`. -/
def kstrStrlen (s : CStr) : ℕ := u16 s.length

/-! ### Splitting -/

theorem valid_head {path : CStr} (h : kernelFsPathIsValid path = true) :
    ∃ rest, path = slash::rest := by
  simp only [kernelFsPathIsValid, Bool.and_eq_true, beq_iff_eq] at h
  cases path with
  | nil => simp at h
  | cons c rest =>
    simp only [List.head?_cons, Option.some.injEq] at h
    exact ⟨rest, by rw [h.1]⟩

theorem split_parts {path : CStr} (h : slash ∈ path) :
    path = dirName path++slash::baseName path := by
  have hr : slash ∈ path.reverse := List.mem_reverse.mpr h
  have hsplit := List.takeWhile_append_dropWhile (p := fun c => c != slash) (l := path.reverse)
  cases hd : path.reverse.dropWhile (fun c => c != slash) with
  | nil =>
    rw [hd, List.append_nil] at hsplit
    have hall := List.all_takeWhile (p := fun c => c != slash) (l := path.reverse)
    rw [hsplit, List.all_eq_true] at hall
    have hne := hall slash hr
    simp at hne
  | cons c rest =>
    have hc : c = slash := by
      have hnot := List.head?_dropWhile_not (fun c => c != slash) path.reverse
      rw [hd] at hnot
      simpa using hnot
    rw [hd, hc] at hsplit
    have hrev := congrArg List.reverse hsplit
    simp only [List.reverse_append, List.reverse_cons, List.reverse_reverse,
      List.append_assoc, List.singleton_append] at hrev
    rw [dirName, baseName, hd]
    exact hrev.symm

theorem slash_not_mem_baseName (path : CStr) : slash ∉ baseName path := by
  intro h
  rw [baseName, List.mem_reverse] at h
  have hall := List.all_takeWhile (p := fun c => c != slash) (l := path.reverse)
  rw [List.all_eq_true] at hall
  have hne := hall slash h
  simp at hne

/-! ### Common prefixes -/

theorem kstrMatchLen_le_left (p m : CStr) : kstrMatchLen p m ≤ p.length := by
  induction p generalizing m with
  | nil => simp [kstrMatchLen]
  | cons a as ih =>
    cases m with
    | nil => simp [kstrMatchLen]
    | cons b bs =>
      have hle := ih bs
      simp only [kstrMatchLen, List.length_cons]
      split
      · omega
      · omega

theorem kstrMatchLen_le_right (p m : CStr) : kstrMatchLen p m ≤ m.length := by
  induction p generalizing m with
  | nil => simp [kstrMatchLen]
  | cons a as ih =>
    cases m with
    | nil => simp [kstrMatchLen]
    | cons b bs =>
      have hle := ih bs
      simp only [kstrMatchLen, List.length_cons]
      split
      · omega
      · omega

/-- The whole of `m` matches exactly when it is a prefix. -/
theorem kstrMatchLen_eq_length (p m : CStr) : kstrMatchLen p m = m.length ↔ m <+: p := by
  induction p generalizing m with
  | nil => cases m with
    | nil => simp [kstrMatchLen]
    | cons b bs => simp [kstrMatchLen]
  | cons a as ih =>
    cases m with
    | nil => simp [kstrMatchLen]
    | cons b bs =>
      simp only [kstrMatchLen, List.length_cons, List.cons_prefix_cons]
      by_cases hab : a = b
      · simp [hab, ih]
      · simp [hab, Ne.symm hab]

end ArduinoOS.Kernel
