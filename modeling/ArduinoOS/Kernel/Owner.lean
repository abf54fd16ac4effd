import Mathlib.Data.Nat.Find
import ArduinoOS.Kernel.Open

/-!
# The device that owns a path

The owner is the device with the longest mount point that is the path or ends
at one of its slashes. The search ranks mount points by how many characters
they share with the path, whether or not these end at a slash, and stops at the
first improvement as long as the path. It finds the owner exactly when no other
mount point outranks it or stops the search early.
-/

set_option autoImplicit false

namespace ArduinoOS.Kernel
open ArduinoOS.Faulting

/-! ### Owners -/

/-- The mount point is the path, the root, or a directory above the path. -/
def Covers (mountPoint path : CStr) : Prop :=
  mountPoint = path ∨ mountPoint = rootPath ∨ (mountPoint++[slash]) <+: path

/-- The mount points of a table are paths, and no two are the same. -/
structure MountPoints (devices : Devices) : Prop where
  valid : ∀ i < KernelFsDevicesMax, ∀ d, devices i = some d →
    kernelFsPathIsValid d.mountPoint = true ∧ d.mountPoint.length < KernelFsPathMax
  distinct : ∀ i < KernelFsDevicesMax, ∀ j < KernelFsDevicesMax, ∀ d d', devices i = some d →
    devices j = some d' → d.mountPoint = d'.mountPoint → i = j

structure ValidDevices (devices : Devices) : Prop where
  valid : ∀ i < KernelFsDevicesMax, ∀ d, devices i = some d →
    kernelFsPathIsValid d.mountPoint = true ∧ d.mountPoint.length < KernelFsPathMax
  distinct : ∀ i < KernelFsDevicesMax, ∀ j < KernelFsDevicesMax, ∀ d d', devices i = some d →
    devices j = some d' → d.mountPoint = d'.mountPoint → i = j
  root : ∃ i < KernelFsDevicesMax, ∃ d, devices i = some d ∧ d.mountPoint = rootPath

theorem ValidDevices.mountPoints {devices : Devices} (hd : ValidDevices devices) :
    MountPoints devices := ⟨hd.valid, hd.distinct⟩

/-- Slot `i` holds the device whose mount point covers the path and is longest. -/
structure Owner (devices : Devices) (path : CStr) (i : ℕ) (d : KernelFsDevice) : Prop where
  slot : i < KernelFsDevicesMax
  device : devices i = some d
  covers : Covers d.mountPoint path
  longest : ∀ j < KernelFsDevicesMax, ∀ d', devices j = some d' → Covers d'.mountPoint path →
    d'.mountPoint.length ≤ d.mountPoint.length

/-- `rest` is what follows the mount point and a slash. -/
def RestOf (mountPoint path rest : CStr) : Prop :=
  path = mountPoint++slash::rest ∨ (path = mountPoint++rest ∧ rest.head? ≠ some slash)

theorem rootPath_prefix_path {path : CStr} (h : kernelFsPathIsValid path = true) :
    rootPath <+: path := by
  obtain ⟨rest, rfl⟩ := valid_head h
  exact ⟨rest, rfl⟩

theorem covers_prefix_path {mountPoint path : CStr} (hp : kernelFsPathIsValid path = true)
    (h : Covers mountPoint path) : mountPoint <+: path := by
  rcases h with rfl | rfl | h
  · exact List.prefix_refl _
  · exact rootPath_prefix_path hp
  · exact (List.prefix_append mountPoint [slash]).trans h

theorem covers_matchLen {mountPoint path : CStr} (hp : kernelFsPathIsValid path = true)
    (h : Covers mountPoint path) : kstrMatchLen path mountPoint = mountPoint.length :=
  (kstrMatchLen_eq_length path mountPoint).mpr (covers_prefix_path hp h)

/-- Valid paths share at least their first slash. -/
theorem matchLen_pos {path mountPoint : CStr} (hp : kernelFsPathIsValid path = true)
    (hm : kernelFsPathIsValid mountPoint = true) : 1 ≤ kstrMatchLen path mountPoint := by
  obtain ⟨p, rfl⟩ := valid_head hp
  obtain ⟨q, rfl⟩ := valid_head hm
  simp [kstrMatchLen]

theorem owner_exists {devices : Devices} (hd : ValidDevices devices) (path : CStr)
    (hp : kernelFsPathIsValid path = true) : ∃ i d, Owner devices path i d := by
  classical
  -- among the covering lengths, which the path's length bounds, take the largest
  let P : ℕ → Prop := fun n => ∃ i < KernelFsDevicesMax, ∃ d, devices i = some d ∧
    Covers d.mountPoint path ∧ d.mountPoint.length = n
  have hex : ∃ n ≤ path.length, P n := by
    obtain ⟨i, hi, d, hdi, hroot⟩ := hd.root
    have hle := (rootPath_prefix_path hp).length_le
    exact ⟨d.mountPoint.length, by rw [hroot]; exact hle, i, hi, d, hdi,
      Or.inr (Or.inl hroot), rfl⟩
  obtain ⟨n, hn, hPn⟩ := hex
  have hspec : P (Nat.findGreatest P path.length) := Nat.findGreatest_spec hn hPn
  obtain ⟨i, hi, d, hdi, hcov, hlen⟩ := hspec
  refine ⟨i, d, hi, hdi, hcov, ?_⟩
  intro j hj d' hdj hcov'
  rw [hlen]
  exact Nat.le_findGreatest (covers_prefix_path hp hcov').length_le ⟨j, hj, d', hdj, hcov', rfl⟩

/-- Covering mount points of one length are equal, so the owner is unique. -/
theorem owner_unique {devices : Devices} (hd : MountPoints devices) {path : CStr}
    (hp : kernelFsPathIsValid path = true) {i j : ℕ} {d d' : KernelFsDevice}
    (h : Owner devices path i d) (h' : Owner devices path j d') : i = j := by
  have h₁ := h.longest j h'.slot d' h'.device h'.covers
  have h₂ := h'.longest i h.slot d h.device h.covers
  have he : d.mountPoint = d'.mountPoint :=
    (List.prefix_of_prefix_length_le (covers_prefix_path hp h.covers) (covers_prefix_path hp h'.covers)
      h₂).eq_of_length (by omega)
  exact hd.distinct i h.slot j h'.slot d d' h.device h'.device he

/-! ### The search -/

/-- No other device outranks the owner in slot `i`, and none stops the search
before it. Only mount points no longer than the path take part. -/
structure LookupClear (devices : Devices) (path : CStr) (i : ℕ) (d : KernelFsDevice) : Prop where
  before : ∀ j < i, ∀ d', devices j = some d' → d'.mountPoint.length ≤ path.length →
    kstrMatchLen path d'.mountPoint < d.mountPoint.length
  after : ∀ j, i < j → j < KernelFsDevicesMax → ∀ d', devices j = some d' →
    d'.mountPoint.length ≤ path.length → kstrMatchLen path d'.mountPoint ≤ d.mountPoint.length
  stops : ∀ j < i, ∀ d', devices j = some d' → d'.mountPoint.length = path.length →
    ∃ k < j, ∃ d'', devices k = some d'' ∧ d''.mountPoint.length ≤ path.length ∧
      kstrMatchLen path d'.mountPoint ≤ kstrMatchLen path d''.mountPoint

section Search

variable {devices : Devices} (hd : ValidDevices devices) {path : CStr}
  (hp : kernelFsPathIsValid path = true)

theorem strlen_mountPoint (hd : MountPoints devices) {i : ℕ} (hi : i < KernelFsDevicesMax)
    {d : KernelFsDevice} (h : devices i = some d) :
    kstrStrlen d.mountPoint = d.mountPoint.length := by
  have hlt := (hd.valid i hi d h).2
  rw [KernelFsPathMax] at hlt
  exact u16_of_lt (by omega)

/-- The search ends with what it has or with a slot it still looks at. -/
theorem loop_result (fuel j best : ℕ) (bd : Option ℕ) :
    kernelFsGetDeviceFromPathRecursiveLoop devices path j best bd fuel = bd ∨
      ∃ k, j ≤ k ∧ kernelFsGetDeviceFromPathRecursiveLoop devices path j best bd fuel = some k := by
  induction fuel generalizing j best bd with
  | zero => exact Or.inl rfl
  | succ fuel ih =>
    have hlater : ∀ best' bd', (bd' = bd ∨ bd' = some j) →
        kernelFsGetDeviceFromPathRecursiveLoop devices path (j+1) best' bd' fuel = bd ∨
          ∃ k, j ≤ k ∧
            kernelFsGetDeviceFromPathRecursiveLoop devices path (j+1) best' bd' fuel = some k := by
      intro best' bd' hbd
      rcases ih (j+1) best' bd' with hr | ⟨k, hk, hr⟩
      · rcases hbd with rfl | rfl
        · exact Or.inl hr
        · exact Or.inr ⟨j, le_refl j, hr⟩
      · exact Or.inr ⟨k, by omega, hr⟩
    rw [kernelFsGetDeviceFromPathRecursiveLoop]
    split
    · exact hlater best bd (Or.inl rfl)
    · split
      · split
        · exact hlater best bd (Or.inl rfl)
        · split
          · exact Or.inr ⟨j, le_refl j, rfl⟩
          · exact hlater _ (some j) (Or.inr rfl)
      · exact hlater best bd (Or.inl rfl)

include hd

/-- From behind the owner's slot on, the search keeps it exactly when nothing
outranks it. -/
theorem loop_after (i n : ℕ) (fuel j : ℕ) (hij : i < j)
    (hfuel : j+fuel = KernelFsDevicesMax) :
    kernelFsGetDeviceFromPathRecursiveLoop devices path j n (some i) fuel = some i ↔
      ∀ k, j ≤ k → k < KernelFsDevicesMax → ∀ d', devices k = some d' →
        d'.mountPoint.length ≤ path.length → kstrMatchLen path d'.mountPoint ≤ n := by
  induction fuel generalizing j with
  | zero =>
    simp only [kernelFsGetDeviceFromPathRecursiveLoop, true_iff]
    intro k hk hlt
    omega
  | succ fuel ih =>
    have hrec := ih (j+1) (by omega) (by omega)
    have hsplit : (∀ k, j ≤ k → k < KernelFsDevicesMax → ∀ d', devices k = some d' →
        d'.mountPoint.length ≤ path.length → kstrMatchLen path d'.mountPoint ≤ n) ↔
        (∀ d', devices j = some d' → d'.mountPoint.length ≤ path.length →
          kstrMatchLen path d'.mountPoint ≤ n) ∧
        ∀ k, j+1 ≤ k → k < KernelFsDevicesMax → ∀ d', devices k = some d' →
          d'.mountPoint.length ≤ path.length → kstrMatchLen path d'.mountPoint ≤ n := by
      constructor
      · intro h
        exact ⟨h j (le_refl j) (by omega), fun k hk => h k (by omega)⟩
      · rintro ⟨h₁, h₂⟩ k hk hlt
        by_cases hkj : k = j
        · subst hkj
          exact h₁
        · exact h₂ k (by omega) hlt
    rw [hsplit, kernelFsGetDeviceFromPathRecursiveLoop]
    cases hdj : devices j with
    | none => simpa using hrec
    | some d' =>
      have hlen := strlen_mountPoint hd.mountPoints (by omega) hdj
      have hj : (∀ x, some d' = some x → x.mountPoint.length ≤ path.length →
          kstrMatchLen path x.mountPoint ≤ n) ↔
          (d'.mountPoint.length ≤ path.length → kstrMatchLen path d'.mountPoint ≤ n) := by
        simp
      rw [hj]
      dsimp only
      by_cases hbetter : kstrMatchLen path d'.mountPoint > n
      · rw [if_pos hbetter]
        by_cases hlong : path.length < kstrStrlen d'.mountPoint
        · rw [if_pos hlong, hrec]
          constructor
          · exact fun h => ⟨fun hle => by omega, h⟩
          · exact fun h => h.2
        · -- the better match replaces the owner for good
          have hno : ¬ (d'.mountPoint.length ≤ path.length →
              kstrMatchLen path d'.mountPoint ≤ n) := by
            intro h
            have hle := h (by omega)
            omega
          have hlost : ∀ n', kernelFsGetDeviceFromPathRecursiveLoop devices path (j+1) n'
              (some j) fuel ≠ some i := by
            intro n' he
            rcases @loop_result devices path fuel (j+1) n' (some j) with
              hr | ⟨k, hk, hr⟩
            · rw [hr] at he
              have := Option.some.inj he
              omega
            · rw [hr] at he
              have := Option.some.inj he
              omega
          rw [if_neg hlong]
          split
          · simp only [hno, false_and, iff_false]
            intro he
            have := Option.some.inj he
            omega
          · simp only [hno, false_and, iff_false]
            exact hlost _
      · rw [if_neg hbetter, hrec]
        constructor
        · exact fun h => ⟨fun _ => by omega, h⟩
        · exact fun h => h.2

/-- What the search knows after the slots below `j`, none of which stopped it. -/
structure Seen (devices : Devices) (path : CStr) (j best : ℕ) (bd : Option ℕ) : Prop where
  bound : ∀ k < j, ∀ d', devices k = some d' → d'.mountPoint.length ≤ path.length →
    kstrMatchLen path d'.mountPoint ≤ best
  attained : best = 0 ∨ ∃ k < j, bd = some k ∧ ∃ d', devices k = some d' ∧
    d'.mountPoint.length ≤ path.length ∧ kstrMatchLen path d'.mountPoint = best
  stops : ∀ k < j, ∀ d', devices k = some d' → d'.mountPoint.length = path.length →
    ∃ l < k, ∃ d'', devices l = some d'' ∧ d''.mountPoint.length ≤ path.length ∧
      kstrMatchLen path d'.mountPoint ≤ kstrMatchLen path d''.mountPoint

omit hd in
theorem seen_skip {j best : ℕ} {bd : Option ℕ} (h : Seen devices path j best bd)
    (hj : ∀ d', devices j = some d' → d'.mountPoint.length ≤ path.length →
      kstrMatchLen path d'.mountPoint ≤ best ∧ 1 ≤ kstrMatchLen path d'.mountPoint) :
    Seen devices path (j+1) best bd := by
  constructor
  · intro k hk d' hdk hle
    by_cases hkj : k = j
    · subst hkj
      exact (hj d' hdk hle).1
    · exact h.bound k (by omega) d' hdk hle
  · rcases h.attained with h0 | ⟨k, hk, hrest⟩
    · exact Or.inl h0
    · exact Or.inr ⟨k, by omega, hrest⟩
  · intro k hk d' hdk hlen
    by_cases hkj : k = j
    · subst hkj
      have hle := hj d' hdk (by omega)
      rcases h.attained with h0 | ⟨l, hl, _, d'', hdl, hle', hml⟩
      · omega
      · exact ⟨l, hl, d'', hdl, hle', by omega⟩
    · exact h.stops k (by omega) d' hdk hlen

omit hd in
theorem seen_take {j best : ℕ} {bd : Option ℕ} (h : Seen devices path j best bd)
    {d' : KernelFsDevice} (hdj : devices j = some d')
    (hbetter : best < kstrMatchLen path d'.mountPoint)
    (hlt : d'.mountPoint.length < path.length) :
    Seen devices path (j+1) (kstrMatchLen path d'.mountPoint) (some j) := by
  constructor
  · intro k hk d'' hdk hle
    by_cases hkj : k = j
    · subst hkj
      rw [hdj] at hdk
      cases hdk
      exact le_refl _
    · have hb := h.bound k (by omega) d'' hdk hle
      omega
  · exact Or.inr ⟨j, by omega, rfl, d', hdj, by omega, rfl⟩
  · intro k hk d'' hdk hlen
    by_cases hkj : k = j
    · subst hkj
      rw [hdj] at hdk
      cases hdk
      omega
    · exact h.stops k (by omega) d'' hdk hlen

include hp

/-- At the owner's own slot. -/
theorem loop_at {i : ℕ} {d : KernelFsDevice} (ho : Owner devices path i d) {best : ℕ}
    {bd : Option ℕ} (hseen : Seen devices path i best bd) (fuel : ℕ)
    (hfuel : i+(fuel+1) = KernelFsDevicesMax) :
    kernelFsGetDeviceFromPathRecursiveLoop devices path i best bd (fuel+1) = some i ↔
      LookupClear devices path i d := by
  have hlen := strlen_mountPoint hd.mountPoints ho.slot ho.device
  have hmatch := covers_matchLen hp ho.covers
  have hle := (covers_prefix_path hp ho.covers).length_le
  have hpos := matchLen_pos hp (hd.valid i ho.slot d ho.device).1
  rw [kernelFsGetDeviceFromPathRecursiveLoop, ho.device]
  dsimp only
  by_cases hbetter : kstrMatchLen path d.mountPoint > best
  · have hbefore : ∀ j < i, ∀ d', devices j = some d' → d'.mountPoint.length ≤ path.length →
        kstrMatchLen path d'.mountPoint < d.mountPoint.length := by
      intro j hj d' hdj hle'
      have hb := hseen.bound j hj d' hdj hle'
      omega
    rw [if_pos hbetter, if_neg (by omega : ¬ path.length < kstrStrlen d.mountPoint)]
    by_cases hexact : path.length = kstrStrlen d.mountPoint
    · rw [if_pos hexact]
      simp only [true_iff]
      refine ⟨hbefore, ?_, hseen.stops⟩
      intro j _ _ d' _ _
      have hm := kstrMatchLen_le_left path d'.mountPoint
      omega
    · rw [if_neg hexact, loop_after hd i _ fuel (i+1) (by omega) (by omega), hmatch]
      constructor
      · intro hafter
        exact ⟨hbefore, fun j hj => hafter j (by omega), hseen.stops⟩
      · intro hclear k hk
        exact hclear.after k (by omega)
  · -- some earlier mount point shares as much of the path, and is kept
    rw [if_neg hbetter]
    rcases hseen.attained with h0 | ⟨k, hk, hbd, d', hdk, hle', hml⟩
    · omega
    · constructor
      · intro hr
        rcases @loop_result devices path fuel (i+1) best bd with h | ⟨l, hl, h⟩
        · rw [h, hbd] at hr
          have := Option.some.inj hr
          omega
        · rw [h] at hr
          have := Option.some.inj hr
          omega
      · intro hclear
        have hb := hclear.before k hk d' hdk hle'
        omega

theorem loop_owner {i : ℕ} {d : KernelFsDevice} (ho : Owner devices path i d) (fuel j best : ℕ)
    (bd : Option ℕ) (hji : j ≤ i) (hfuel : j+fuel = KernelFsDevicesMax)
    (hseen : Seen devices path j best bd) :
    kernelFsGetDeviceFromPathRecursiveLoop devices path j best bd fuel = some i ↔
      LookupClear devices path i d := by
  induction fuel generalizing j best bd with
  | zero =>
    have hi := ho.slot
    omega
  | succ fuel ih =>
    by_cases hj : j = i
    · subst hj
      exact loop_at hd hp ho hseen fuel hfuel
    rw [kernelFsGetDeviceFromPathRecursiveLoop]
    cases hdj : devices j with
    | none =>
      exact ih (j+1) best bd (by omega) (by omega)
        (seen_skip hseen (by rw [hdj]; intro d' h; cases h))
    | some d' =>
      have hlen := strlen_mountPoint hd.mountPoints (by have := ho.slot; omega) hdj
      have hpos := matchLen_pos hp (hd.valid j (by have := ho.slot; omega) d' hdj).1
      dsimp only
      by_cases hbetter : kstrMatchLen path d'.mountPoint > best
      · rw [if_pos hbetter]
        by_cases hlong : path.length < kstrStrlen d'.mountPoint
        · rw [if_pos hlong]
          refine ih (j+1) best bd (by omega) (by omega) (seen_skip hseen ?_)
          intro d'' h hle
          rw [hdj] at h
          cases h
          omega
        · rw [if_neg hlong]
          by_cases hexact : path.length = kstrStrlen d'.mountPoint
          · -- a mount point as long as the path stops the search here
            rw [if_pos hexact]
            constructor
            · intro h
              exact absurd (Option.some.inj h) hj
            · intro hclear
              obtain ⟨k, hk, d'', hdk, hle, hml⟩ := hclear.stops j (by omega) d' hdj (by omega)
              have hb := hseen.bound k hk d'' hdk hle
              omega
          · rw [if_neg hexact]
            exact ih (j+1) _ _ (by omega) (by omega)
              (seen_take hseen hdj hbetter (by omega))
      · rw [if_neg hbetter]
        refine ih (j+1) best bd (by omega) (by omega) (seen_skip hseen ?_)
        intro d'' h hle
        rw [hdj] at h
        cases h
        exact ⟨by omega, hpos⟩

/-- The search finds the owner exactly when the table is clear for it. -/
theorem lookup_owner {i : ℕ} {d : KernelFsDevice} (ho : Owner devices path i d) :
    kernelFsGetDeviceFromPathRecursiveLoop devices path 0 0 none KernelFsDevicesMax = some i ↔
      LookupClear devices path i d := by
  apply loop_owner hd hp ho KernelFsDevicesMax 0 0 none (Nat.zero_le i) (by simp)
  constructor
  · intro k hk
    omega
  · exact Or.inl rfl
  · intro k hk
    omega

end Search

/-! ### Sub-paths -/

theorem kstrLoop_eq (devices : Devices) {path : CStr} (hlen : path.length < 65536) (fuel : ℕ)
    (i best : ℕ) (bd : Option ℕ) :
    kernelFsGetDeviceFromPathRecursiveKStrLoop devices path i best bd fuel =
      kernelFsGetDeviceFromPathRecursiveLoop devices path i best bd fuel := by
  have hpath : kstrStrlen path = path.length := u16_of_lt hlen
  induction fuel generalizing i best bd with
  | zero => rfl
  | succ fuel ih =>
    rw [kernelFsGetDeviceFromPathRecursiveKStrLoop, kernelFsGetDeviceFromPathRecursiveLoop]
    cases devices i with
    | none => exact ih (i+1) best bd
    | some d => simp only [hpath, ih]

theorem getChar_slash (s : CStr) (i : ℕ) :
    s.getChar i = slash.val ↔ (s.drop i).head? = some slash := by
  induction s generalizing i with
  | nil =>
    have hne := slash.ne
    cases i with
    | zero => simp [CStr.getChar, CStr.bytes, hne.symm]
    | succ i => simp [CStr.getChar, CStr.bytes, hne.symm]
  | cons c s ih =>
    cases i with
    | zero =>
      rw [List.drop_zero, List.head?_cons, Option.some.injEq]
      exact ⟨fun h => CStr.val_injective h, fun h => by rw [h]; rfl⟩
    | succ i =>
      rw [List.drop_succ_cons, ← ih i]
      rfl

theorem subPathAfter_rest {mountPoint path : CStr} (hlen : mountPoint.length < 65536)
    (h : mountPoint <+: path) : RestOf mountPoint path (subPathAfter path mountPoint) := by
  obtain ⟨rest, rfl⟩ := h
  have hstr : kstrStrlen mountPoint = mountPoint.length := u16_of_lt hlen
  rw [subPathAfter, hstr, List.drop_left]
  by_cases hs : rest.head? = some slash
  · rw [if_pos hs]
    cases rest with
    | nil => cases hs
    | cons c rest =>
      rw [List.head?_cons, Option.some.injEq] at hs
      exact Or.inl (by rw [hs]; rfl)
  · rw [if_neg hs]
    exact Or.inr ⟨rfl, hs⟩

/-- The offset string starts where the pointer is left. -/
theorem kstrO_subPath {mountPoint path : CStr} (hlen : mountPoint.length < KernelFsPathMax) :
    kstrO path (if path.getChar (kstrStrlen mountPoint) = slash.val then
      kstrStrlen mountPoint+1 else kstrStrlen mountPoint) = subPathAfter path mountPoint := by
  rw [KernelFsPathMax] at hlen
  have hstr : kstrStrlen mountPoint = mountPoint.length := u16_of_lt (by omega)
  have hoff : ∀ n ≤ 256, n < 256 → kstrO path n = path.drop n := by
    intro n hn hlt
    rw [kstrO, if_neg (by omega), u8_of_lt hlt]
  rw [subPathAfter, hstr]
  by_cases hs : path.getChar mountPoint.length = slash.val
  · rw [if_pos hs, if_pos ((getChar_slash _ _).mp hs), hoff _ (by omega) (by omega), List.tail_drop]
  · rw [if_neg hs, if_neg (fun h => hs ((getChar_slash _ _).mpr h)), hoff _ (by omega) (by omega)]

/-- Both lookups give slot `i` and the rest of the path after its device's mount
point and slash. -/
def LookupFinds (devices : Devices) (path : CStr) (i : ℕ) (d : KernelFsDevice) : Prop :=
  ∃ rest, RestOf d.mountPoint path rest ∧
    kernelFsGetDeviceFromPathRecursive devices path = some (i, rest) ∧
    kernelFsGetDeviceFromPathRecursiveKStr devices path = some (i, rest)

theorem lookupFinds_iff {devices : Devices} {path : CStr} (hd : ValidDevices devices)
    (hp : kernelFsPathIsValid path = true) (hlen : path.length < KernelFsPathMax) {i : ℕ}
    {d : KernelFsDevice} (ho : Owner devices path i d) :
    LookupFinds devices path i d ↔ cachedIndex devices path = some i := by
  rw [KernelFsPathMax] at hlen
  have hd64 := (hd.valid i ho.slot d ho.device).2
  constructor
  · rintro ⟨rest, _, hfind, _⟩
    rw [kernelFsGetDeviceFromPathRecursive] at hfind
    rw [cachedIndex]
    cases hl : kernelFsGetDeviceFromPathRecursiveLoop devices path 0 0 none
        KernelFsDevicesMax with
    | none =>
      rw [hl] at hfind
      cases hfind
    | some j =>
      rw [hl] at hfind
      dsimp only at hfind
      rw [Option.map_eq_some_iff] at hfind
      obtain ⟨d', _, he⟩ := hfind
      exact congrArg some (Prod.ext_iff.mp he).1
  · intro hidx
    rw [cachedIndex] at hidx
    refine ⟨subPathAfter path d.mountPoint, ?_, ?_, ?_⟩
    · rw [KernelFsPathMax] at hd64
      exact subPathAfter_rest (by omega) (covers_prefix_path hp ho.covers)
    · rw [kernelFsGetDeviceFromPathRecursive, hidx]
      dsimp only
      rw [ho.device, Option.map_some]
    · rw [kernelFsGetDeviceFromPathRecursiveKStr, kstrLoop_eq devices (by omega), hidx]
      dsimp only
      rw [ho.device, Option.map_some, kstrO_subPath hd64]

/-! ### The index an open caches -/

/-- A device at the path owns it. -/
theorem owner_device {devices : Devices} {path : CStr} {i j : ℕ} {d : KernelFsDevice}
    (hd : MountPoints devices) (hp : kernelFsPathIsValid path = true)
    (ho : Owner devices path i d) (hj : kernelFsGetDeviceFromPath devices path = some j) :
    j = i := by
  obtain ⟨hjlt, d', hdj, hmp⟩ := getDevice_some hj
  refine owner_unique hd hp ⟨hjlt, hdj, Or.inl hmp, ?_⟩ ho
  intro k _ d'' _ hcov
  rw [hmp]
  exact (covers_prefix_path hp hcov).length_le

/-- Without one, a device at the dirname does. -/
theorem dirname_owner {devices : Devices} {path : CStr} {j : ℕ} {d : KernelFsDevice}
    (hd : MountPoints devices) (hp : kernelFsPathIsValid path = true)
    (hnone : kernelFsGetDeviceFromPath devices path = none)
    (hj : kernelFsGetDeviceFromPath devices (dirName path) = some j)
    (hdj : devices j = some d) : Owner devices path j d := by
  have hjlt := (getDevice_some hj).1
  have hmp : d.mountPoint = dirName path := by
    obtain ⟨_, d', hdj', hmp⟩ := getDevice_some hj
    rw [hdj, Option.some.injEq] at hdj'
    rwa [hdj']
  have hslash : slash ∈ path := by
    obtain ⟨rest, rfl⟩ := valid_head hp
    exact List.mem_cons_self
  have hparts := split_parts hslash
  have hpos : 1 ≤ (dirName path).length := by
    have hv := (hd.valid j hjlt d hdj).1
    rw [hmp] at hv
    obtain ⟨rest, hrest⟩ := valid_head hv
    simp [hrest]
  refine ⟨hjlt, hdj, Or.inr (Or.inr ?_), ?_⟩
  · rw [hmp]
    exact ⟨baseName path, by rw [List.append_assoc]; exact hparts.symm⟩
  · intro k hk d'' hdk hcov
    rw [hmp]
    rcases hcov with hself | hroot | ⟨rest, hrest⟩
    · exact absurd hself (getDevice_none.mp hnone k hk d'' hdk)
    · rw [hroot]
      exact hpos
    · -- the slash after this mount point is not behind the last one
      by_contra hgt
      have hmem : slash ∈ baseName path := by
        have hdrop := congrArg (List.drop (dirName path).length) (hrest.trans hparts)
        rw [List.drop_left, List.append_assoc, List.drop_append_of_le_length (by omega)] at hdrop
        have hne : d''.mountPoint.drop (dirName path).length ≠ [] := by
          rw [ne_eq, List.drop_eq_nil_iff]
          omega
        cases hm : d''.mountPoint.drop (dirName path).length with
        | nil => exact absurd hm hne
        | cons c cs =>
          rw [hm, List.cons_append, List.cons.injEq] at hdrop
          rw [← hdrop.2]
          simp
      exact slash_not_mem_baseName path hmem

theorem owner_dirname {devices : Devices} {path : CStr} {i j : ℕ} {d : KernelFsDevice}
    (hd : MountPoints devices) (hp : kernelFsPathIsValid path = true)
    (ho : Owner devices path i d) (hnone : kernelFsGetDeviceFromPath devices path = none)
    (hj : kernelFsGetDeviceFromPath devices (dirName path) = some j) : j = i := by
  obtain ⟨_, d', hdj, _⟩ := getDevice_some hj
  exact owner_unique hd hp (dirname_owner hd hp hnone hj hdj) ho

/-- Whatever an open of the path returns, its entry caches slot `i`, which is the
device at the path or, without one, the volume the path lies in. -/
def OpenCaches {σ : Type} (p : Platform σ) (devices : Devices) (path : CStr) (i : ℕ) : Prop :=
  ∀ mode fd s s', s.1.devices = devices → kernelFsFileOpen p path mode s = .ok (fd, s') →
    fd ≠ KernelFsFdInvalid → (∃ e, s'.1.fdt fd = some e ∧ e.path = path ∧ e.deviceIndex = i) ∧
      (kernelFsGetDeviceFromPath devices path = some i ∨
        kernelFsGetDeviceFromPath devices path = none ∧
          kernelFsGetDeviceFromPath devices (dirName path) = some i)

theorem openCaches_of_index {σ : Type} (p : Platform σ) {devices : Devices} {path : CStr}
    (hd : ValidDevices devices) (hp : kernelFsPathIsValid path = true) {i : ℕ}
    {d : KernelFsDevice} (ho : Owner devices path i d) (hidx : cachedIndex devices path = some i) :
    OpenCaches p devices path i := by
  intro mode fd s s' hdev hopen hfd
  obtain ⟨hok, _, _, j, hj, hs'⟩ := open_entry p hopen hfd
  rw [hdev, hidx, Option.some.injEq] at hj
  subst hj
  constructor
  · exact ⟨openedEntry path mode i, by rw [hs']; simp, rfl, rfl⟩
  · have hdevice := hok.device
    rw [hdev] at hdevice
    rcases hdevice with ⟨j, hj⟩ | ⟨hnone, j, hj⟩
    · rw [owner_device hd.mountPoints hp ho hj] at hj
      exact Or.inl hj
    · rw [owner_dirname hd.mountPoints hp ho hnone hj] at hj
      exact Or.inr ⟨hnone, hj⟩

theorem deviceTable_valid {l : List KernelFsDevice} (hlen : l.length ≤ KernelFsDevicesMax)
    (hvalid : ∀ d ∈ l, kernelFsPathIsValid d.mountPoint = true ∧
      d.mountPoint.length < KernelFsPathMax)
    (hdistinct : (l.map KernelFsDevice.mountPoint).Nodup)
    (hroot : rootPath ∈ l.map KernelFsDevice.mountPoint) : ValidDevices (deviceTable l) := by
  constructor
  · intro i _ d hdi
    exact hvalid d (List.mem_of_getElem? hdi)
  · intro i _ j _ d d' hdi hdj he
    have hi : (l.map KernelFsDevice.mountPoint)[i]? = some d.mountPoint := by
      rw [List.getElem?_map, show l[i]? = some d from hdi, Option.map_some]
    have hj : (l.map KernelFsDevice.mountPoint)[j]? = some d.mountPoint := by
      rw [List.getElem?_map, show l[j]? = some d' from hdj, Option.map_some, he]
    have hlt := (List.getElem?_eq_some_iff.mp hi).1
    exact (List.getElem?_inj hlt hdistinct).mp (hi.trans hj.symm)
  · obtain ⟨d, hmem, hd⟩ := List.mem_map.mp hroot
    obtain ⟨i, hi, he⟩ := List.mem_iff_getElem.mp hmem
    exact ⟨i, by omega, d, by rw [deviceTable, List.getElem?_eq_getElem hi, he], hd⟩

theorem pinDevices_valid : ValidDevices (deviceTable pinDevices) :=
  deviceTable_valid (by decide) (by decide) (by decide) (by decide)

theorem deviceTable_owner {l : List KernelFsDevice} {path : CStr} {i : ℕ} {d : KernelFsDevice}
    (hlen : l.length ≤ KernelFsDevicesMax) (hdi : l[i]? = some d)
    (hpath : d.mountPoint = path) (hp : kernelFsPathIsValid path = true) :
    Owner (deviceTable l) path i d := by
  refine ⟨?_, hdi, Or.inl hpath, ?_⟩
  · have hlt := (List.getElem?_eq_some_iff.mp hdi).1
    omega
  · intro j _ d' _ hcov
    rw [hpath]
    exact (covers_prefix_path hp hcov).length_le

theorem deviceTable_clear {l : List KernelFsDevice} {path : CStr} {i : ℕ} {d : KernelFsDevice}
    (hbefore : ∀ d' ∈ l.take i, kstrMatchLen path d'.mountPoint < d.mountPoint.length ∧
      d'.mountPoint.length ≠ path.length)
    (hafter : ∀ d' ∈ l, kstrMatchLen path d'.mountPoint ≤ d.mountPoint.length) :
    LookupClear (deviceTable l) path i d := by
  have hmem : ∀ j < i, ∀ d', deviceTable l j = some d' → d' ∈ l.take i := by
    intro j hj d' hdj
    apply @List.mem_of_getElem? _ _ j
    rw [List.getElem?_take_of_lt hj]
    exact hdj
  constructor
  · intro j hj d' hdj _
    exact (hbefore d' (hmem j hj d' hdj)).1
  · intro j _ _ d' hdj _
    exact hafter d' (List.mem_of_getElem? hdj)
  · intro j hj d' hdj hlen
    exact absurd hlen (hbefore d' (hmem j hj d' hdj)).2

end ArduinoOS.Kernel
