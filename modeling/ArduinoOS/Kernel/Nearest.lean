import ArduinoOS.Kernel.Owner

/-!
# Where the search for a device ends

A mount point leads when it shares more of the path than every mount point
before it in the table, those longer than the path apart. The search ends at
the first leader as long as the path, and without one at the last leader.
-/

set_option autoImplicit false

namespace ArduinoOS.Kernel
open ArduinoOS.Faulting

structure Leads (devices : Devices) (path : CStr) (i : ℕ) (d : KernelFsDevice) : Prop where
  slot : i < KernelFsDevicesMax
  device : devices i = some d
  short : d.mountPoint.length ≤ path.length
  beats : ∀ j < i, ∀ d', devices j = some d' → d'.mountPoint.length ≤ path.length →
    kstrMatchLen path d'.mountPoint < kstrMatchLen path d.mountPoint

structure Nearest (devices : Devices) (path : CStr) (i : ℕ) (d : KernelFsDevice) : Prop where
  leads : Leads devices path i d
  stops : ∀ j d', Leads devices path j d' → d'.mountPoint.length = path.length → i ≤ j
  last : d.mountPoint.length = path.length ∨ ∀ j d', Leads devices path j d' → j ≤ i

/-- What the end of a search tells. -/
def EndsAt (devices : Devices) (path : CStr) : Option ℕ → Prop
  | none => ∀ i d, ¬ Leads devices path i d
  | some i => ∃ d, Nearest devices path i d

section Search

variable {devices : Devices} {path : CStr}

theorem nearest_unique {i i' : ℕ} {d d' : KernelFsDevice} (h : Nearest devices path i d)
    (h' : Nearest devices path i' d') : i = i' := by
  apply Nat.le_antisymm
  · rcases h'.last with hlen | hlast
    · exact h.stops i' d' h'.leads hlen
    · exact hlast i d h.leads
  · rcases h.last with hlen | hlast
    · exact h'.stops i d h.leads hlen
    · exact hlast i' d' h'.leads

/-- What the search knows of the slots below `j`, none of which stopped it. -/
structure Looked (devices : Devices) (path : CStr) (j best : ℕ) (bd : Option ℕ) : Prop where
  bound : ∀ k < j, ∀ d', devices k = some d' → d'.mountPoint.length ≤ path.length →
    kstrMatchLen path d'.mountPoint ≤ best
  unstopped : ∀ k d, Leads devices path k d → d.mountPoint.length = path.length → j ≤ k
  found : bd = none ∧ best = 0 ∨ ∃ i d, bd = some i ∧ Leads devices path i d ∧ i < j ∧
    best = kstrMatchLen path d.mountPoint

theorem looked_skip {j best : ℕ} {bd : Option ℕ} (h : Looked devices path j best bd)
    (hj : ∀ d', devices j = some d' → d'.mountPoint.length ≤ path.length →
      kstrMatchLen path d'.mountPoint ≤ best)
    (hno : ∀ d', ¬ Leads devices path j d') : Looked devices path (j+1) best bd := by
  constructor
  · intro k hk d' hdk hle
    by_cases hkj : k = j
    · subst hkj
      exact hj d' hdk hle
    · exact h.bound k (by omega) d' hdk hle
  · intro k d hlead hlen
    have hle := h.unstopped k d hlead hlen
    by_cases hkj : k = j
    · subst hkj
      exact absurd hlead (hno d)
    · omega
  · rcases h.found with h0 | ⟨i, d, hbd, hlead, hi, hbest⟩
    · exact Or.inl h0
    · exact Or.inr ⟨i, d, hbd, hlead, by omega, hbest⟩

/-- A slot that shares more than all before it leads. -/
theorem looked_leads {j best : ℕ} {bd : Option ℕ} (h : Looked devices path j best bd)
    {d : KernelFsDevice} (hj : j < KernelFsDevicesMax) (hdj : devices j = some d)
    (hshort : d.mountPoint.length ≤ path.length) (hmore : best < kstrMatchLen path d.mountPoint) :
    Leads devices path j d :=
  ⟨hj, hdj, hshort, fun k hk d' hdk hle => by have := h.bound k hk d' hdk hle; omega⟩

theorem looked_take {j best : ℕ} {bd : Option ℕ} (h : Looked devices path j best bd)
    {d : KernelFsDevice} (hlead : Leads devices path j d)
    (hmore : best < kstrMatchLen path d.mountPoint) (hlen : d.mountPoint.length ≠ path.length) :
    Looked devices path (j+1) (kstrMatchLen path d.mountPoint) (some j) := by
  constructor
  · intro k hk d' hdk hle
    by_cases hkj : k = j
    · subst hkj
      rw [hlead.device, Option.some.injEq] at hdk
      rw [hdk]
    · have hb := h.bound k (by omega) d' hdk hle
      omega
  · intro k d' hlead' hlen'
    have hle := h.unstopped k d' hlead' hlen'
    by_cases hkj : k = j
    · subst hkj
      have hsame := hlead.device.symm.trans hlead'.device
      rw [Option.some.injEq] at hsame
      rw [hsame] at hlen
      exact absurd hlen' hlen
    · omega
  · exact Or.inr ⟨j, d, rfl, hlead, by omega, rfl⟩

variable (hd : MountPoints devices) (hp : kernelFsPathIsValid path = true)
include hd hp

/-- After the last slot the best match so far is where the search ends. -/
theorem looked_all {best : ℕ} {bd : Option ℕ}
    (h : Looked devices path KernelFsDevicesMax best bd) : EndsAt devices path bd := by
  rcases h.found with ⟨rfl, hbest⟩ | ⟨i, d, rfl, hlead, hi, hbest⟩
  · intro i d hlead
    have hb := h.bound i hlead.slot d hlead.device hlead.short
    have hpos := matchLen_pos hp (hd.valid i hlead.slot d hlead.device).1
    omega
  · refine ⟨d, hlead, ?_, Or.inr ?_⟩
    · intro j d' hlead' hlen
      have hle := h.unstopped j d' hlead' hlen
      have := hlead'.slot
      omega
    · intro j d' hlead'
      by_contra hlt
      have hb := h.bound j hlead'.slot d' hlead'.device hlead'.short
      have hbeats := hlead'.beats i (by omega) d hlead.device hlead.short
      omega

theorem search_ends (fuel j best : ℕ) (bd : Option ℕ) (hfuel : j+fuel = KernelFsDevicesMax)
    (h : Looked devices path j best bd) :
    EndsAt devices path
      (kernelFsGetDeviceFromPathRecursiveLoop devices path j best bd fuel) := by
  induction fuel generalizing j best bd with
  | zero =>
    rw [Nat.add_zero] at hfuel
    rw [hfuel] at h
    exact looked_all hd hp h
  | succ fuel ih =>
    have hj : j < KernelFsDevicesMax := by omega
    have hskip : (∀ d', devices j = some d' → d'.mountPoint.length ≤ path.length →
        kstrMatchLen path d'.mountPoint ≤ best) → Looked devices path (j+1) best bd := by
      intro hle
      apply looked_skip h hle
      intro d' hlead
      have hb := hle d' hlead.device hlead.short
      rcases h.found with ⟨_, h0⟩ | ⟨i, d, _, hlead', hi, hbest⟩
      · have hpos := matchLen_pos hp (hd.valid j hj d' hlead.device).1
        omega
      · have hbeats := hlead.beats i hi d hlead'.device hlead'.short
        omega
    rw [kernelFsGetDeviceFromPathRecursiveLoop]
    cases hdj : devices j with
    | none =>
      apply ih (j+1) best bd (by omega)
      apply hskip
      rw [hdj]
      intro d' h
      cases h
    | some d =>
      have hlen := strlen_mountPoint hd hj hdj
      dsimp only
      by_cases hbetter : kstrMatchLen path d.mountPoint > best
      · rw [if_pos hbetter]
        by_cases hlong : path.length < kstrStrlen d.mountPoint
        · rw [if_pos hlong]
          apply ih (j+1) best bd (by omega)
          apply hskip
          rw [hdj]
          intro d' h hle
          cases h
          omega
        · have hlead := looked_leads h hj hdj (by omega) hbetter
          rw [if_neg hlong]
          by_cases hexact : path.length = kstrStrlen d.mountPoint
          · rw [if_pos hexact]
            exact ⟨d, hlead, fun k d' hlead' hlen' => h.unstopped k d' hlead' hlen',
              Or.inl (by omega)⟩
          · rw [if_neg hexact]
            exact ih (j+1) _ _ (by omega) (looked_take h hlead hbetter (by omega))
      · rw [if_neg hbetter]
        apply ih (j+1) best bd (by omega)
        apply hskip
        rw [hdj]
        intro d' h hle
        cases h
        omega

/-- The search ends at the nearest mount point, and finds nothing exactly when
every mount point is longer than the path. -/
theorem search_nearest : EndsAt devices path (cachedIndex devices path) := by
  apply search_ends hd hp KernelFsDevicesMax 0 0 none (Nat.zero_add _)
  exact ⟨fun k hk => by omega, fun k _ _ _ => Nat.zero_le k, Or.inl ⟨rfl, rfl⟩⟩

theorem nearest_iff {i : ℕ} {d : KernelFsDevice} :
    Nearest devices path i d ↔ cachedIndex devices path = some i ∧ devices i = some d := by
  have hends := search_nearest hd hp
  constructor
  · intro h
    refine ⟨?_, h.leads.device⟩
    cases hc : cachedIndex devices path with
    | none =>
      rw [hc] at hends
      exact absurd h.leads (hends i d)
    | some j =>
      rw [hc] at hends
      obtain ⟨d', h'⟩ := hends
      rw [nearest_unique h' h]
  · rintro ⟨hc, hdi⟩
    rw [hc] at hends
    obtain ⟨d', h'⟩ := hends
    have hsame := hdi.symm.trans h'.leads.device
    rw [Option.some.injEq] at hsame
    rwa [hsame]

omit hp in
/-- At a mount point it ends at one as long. -/
theorem nearest_mounted {i j : ℕ} {d : KernelFsDevice} (h : Nearest devices path i d)
    (hj : kernelFsGetDeviceFromPath devices path = some j) :
    d.mountPoint.length = path.length := by
  obtain ⟨hslot, d', hdj, hmp⟩ := getDevice_some hj
  have hmatch : kstrMatchLen path d'.mountPoint = path.length := by
    rw [hmp]
    exact (kstrMatchLen_eq_length path path).mpr (List.prefix_refl path)
  -- only a mount point equal to the path shares all of it, so the path's own leads
  have hlead : Leads devices path j d' := by
    refine ⟨hslot, hdj, by rw [hmp], fun k hk d'' hdk hle => ?_⟩
    have hleft := kstrMatchLen_le_left path d''.mountPoint
    by_contra hnot
    have hwhole : kstrMatchLen path d''.mountPoint = d''.mountPoint.length := by
      have hright := kstrMatchLen_le_right path d''.mountPoint
      omega
    have hprefix := (kstrMatchLen_eq_length path d''.mountPoint).mp hwhole
    have hsame := hprefix.eq_of_length (by omega)
    have := hd.distinct k (by omega) j hslot d'' d' hdk hdj (hsame.trans hmp.symm)
    omega
  rcases h.last with hlen | hlast
  · exact hlen
  · have hi := h.stops j d' hlead (by rw [hmp])
    have hj := hlast j d' hlead
    have hij : i = j := by omega
    have hsame := h.leads.device.symm.trans (hij ▸ hdj)
    rw [Option.some.injEq] at hsame
    rw [hsame, hmp]

end Search

end ArduinoOS.Kernel
