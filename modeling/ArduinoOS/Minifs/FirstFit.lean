import ArduinoOS.Minifs.Device

/-!
# First fit

The search for a free region on any image whose header lists disjoint regions
in order. What it answers is the lowest place at which the wanted number of
blocks is outside the header and outside all files; it answers 0 exactly when
there is no such place.
-/

set_option autoImplicit false

namespace ArduinoOS.Minifs
open ArduinoOS.ByteProgram

/-- Blocks of the volume, its header included. -/
def totalFactor (m : Image) : ℕ := (m MINIFSHEADERTOTALSIZEADDR).toNat+1

/-- The block behind the region of a slot. -/
def finFactor (m : Image) (i : ℕ) : ℕ := offsetFactor m i+storedSizeFactor m (offsetFactor m i)

/-- The regions of `n` files: ascending, disjoint, of one block at least, outside
the header and inside the volume. -/
structure Regions (m : Image) (n : ℕ) : Prop where
  count : n ≤ MINIFSMAXFILES
  least : ∀ i < n, MINIFSFILEMINOFFSETFACTOR ≤ offsetFactor m i
  zeros : ∀ i, n ≤ i → i < MINIFSMAXFILES → offsetFactor m i = 0
  block : ∀ i < n, offsetFactor m i < finFactor m i
  disjoint : ∀ i j, i < j → j < n → finFactor m i ≤ offsetFactor m j
  inside : ∀ i < n, finFactor m i ≤ totalFactor m

theorem regions_of_onDisk {m : Image} {n : ℕ} (h : OnDisk m n) : Regions m n := by
  refine ⟨h.count, h.least, h.zeros, ?_, h.disjoint, h.inside⟩
  intro i hi
  have hlen := List.length_pos_of_mem (h.terminated i hi)
  have hsize := h.size i hi
  simp only [storedBytes, slice_length] at hlen
  simp only [show MINIFSFACTOR = 128 from rfl] at hsize
  simp only [finFactor]
  omega

/-- The `k` blocks from `g` on belong to the volume, and neither to its header
nor to a file. -/
def FreeRegion (m : Image) (n g k : ℕ) : Prop :=
  ∀ b, g ≤ b → b < g+k → MINIFSFILEMINOFFSETFACTOR ≤ b ∧ b < totalFactor m ∧
    ∀ i < n, ¬(offsetFactor m i ≤ b ∧ b < finFactor m i)

/-- Only the ends of a region matter. -/
theorem freeRegion_iff {m : Image} {n g k : ℕ} (h : Regions m n) (hk : 1 ≤ k) :
    FreeRegion m n g k ↔ 1 ≤ g ∧ g+k ≤ totalFactor m ∧
      ∀ i < n, g+k ≤ offsetFactor m i ∨ finFactor m i ≤ g := by
  constructor
  · intro hfree
    have hfirst := hfree g (Nat.le_refl g) (by omega)
    have hlast := hfree (g+k-1) (by omega) (by omega)
    refine ⟨hfirst.1, by omega, ?_⟩
    intro i hi
    have hblock := h.block i hi
    have hout := hfirst.2.2 i hi
    by_cases hstart : g ≤ offsetFactor m i
    · left
      by_contra hinto
      have hmid := (hfree (offsetFactor m i) hstart (by omega)).2.2 i hi
      omega
    · right
      omega
  · rintro ⟨hleast, hend, hapart⟩ b hb hb'
    refine ⟨Nat.le_trans hleast hb, by omega, ?_⟩
    intro i hi
    have hside := hapart i hi
    omega

/-- The answer is the lowest free region, or 0 if there is none. -/
def FirstFit (m : Image) (n k f : ℕ) : Prop :=
  (f = 0 ↔ ∀ g, ¬FreeRegion m n g k) ∧
    (f ≠ 0 → FreeRegion m n f k ∧ ∀ g, FreeRegion m n g k → f ≤ g)

theorem firstFit_some {m : Image} {n k f : ℕ} (hf : f ≠ 0) (hfree : FreeRegion m n f k)
    (hleast : ∀ g, FreeRegion m n g k → f ≤ g) : FirstFit m n k f :=
  ⟨iff_of_false hf (fun hnone => hnone f hfree), fun _ => ⟨hfree, hleast⟩⟩

theorem firstFit_none {m : Image} {n k : ℕ} (hnone : ∀ g, ¬FreeRegion m n g k) :
    FirstFit m n k 0 :=
  ⟨iff_of_true rfl hnone, fun h => absurd rfl h⟩

section Search

variable {size : ℕ} {m : Image} {n : ℕ} (h : Regions m n)
  (hsize : MINIFSFACTOR*totalFactor m ≤ size)
include h hsize

/-! ### Reading the regions -/

omit h in
theorem exec_offsetFactor (i : ℕ) (hi : i < 126) :
    (miniFsFileGetBaseOffsetFactorFromIndex i).exec size m = some (offsetFactor m i, m) := by
  simp only [totalFactor, show MINIFSFACTOR = 128 from rfl] at hsize
  rw [miniFsFileGetBaseOffsetFactorFromIndex, show MINIFSHEADERFILEBASEADDR = 2 from rfl,
    Prog.exec_bind_of _ _ _ _ _ _ (exec_readByte (2+i) (by omega) (by omega))]
  rfl

omit h in
theorem exec_totalFactor :
    miniFsGetTotalSizeFactorMinusOne.exec size m = some (totalFactor m-1, m) := by
  simp only [totalFactor, show MINIFSFACTOR = 128 from rfl] at hsize
  rw [miniFsGetTotalSizeFactorMinusOne, show MINIFSHEADERTOTALSIZEADDR = 1 from rfl,
    Prog.exec_bind_of _ _ _ _ _ _ (exec_readByte 1 (by omega) (by omega))]
  rfl

omit h hsize in
theorem totalFactor_le : totalFactor m ≤ 256 := by
  have hbyte := (m MINIFSHEADERTOTALSIZEADDR).toNat_lt
  simp only [totalFactor]
  omega

theorem exec_storedSizeFactor (i : ℕ) (hi : i < n) :
    (miniFsFileGetSizeFactorFromIndex i).exec size m =
      some (storedSizeFactor m (offsetFactor m i), m) := by
  have hc : n ≤ 126 := h.count
  have hleast : 1 ≤ offsetFactor m i := h.least i hi
  have hblock := h.block i hi
  have hin := h.inside i hi
  have htotal := totalFactor_le (m := m)
  have hbase : (miniFsFileGetBaseOffsetFromIndex i).exec size m =
      some (128*offsetFactor m i, m) := by
    rw [miniFsFileGetBaseOffsetFromIndex,
      Prog.exec_bind_of _ _ _ _ _ _ (exec_offsetFactor hsize i (by omega)),
      show MINIFSFACTOR = 128 from rfl, u16_of_lt (by omega), Nat.mul_comm]
    rfl
  have hfield : miniFsFileGetSizeFactorOffsetFromBaseOffset (128*offsetFactor m i) =
      128*offsetFactor m i+2 := by
    rw [miniFsFileGetSizeFactorOffsetFromBaseOffset, if_neg (by omega), u16_of_lt (by omega)]
  simp only [show MINIFSFACTOR = 128 from rfl] at hsize
  rw [miniFsFileGetSizeFactorFromIndex, Prog.exec_bind_of _ _ _ _ _ _ hbase,
    miniFsFileGetSizeFactorFromBaseOffset, hfield, if_neg (by omega),
    Prog.exec_bind_of _ _ _ _ _ _ (exec_readByte (128*offsetFactor m i+2) (by omega) (by omega))]
  rfl

/-! ### The gaps in turn -/

/-- No free region starts before the end of the files seen so far. -/
def NoneBefore (m : Image) (n k i : ℕ) : Prop :=
  ∀ g, FreeRegion m n g k → finFactor m i ≤ g

omit hsize in
theorem noneBefore_first {k : ℕ} (hk : 1 ≤ k) (hn : 0 < n)
    (hfront : ¬k ≤ offsetFactor m 0-1) : NoneBefore m n k 0 := by
  intro g hfree
  obtain ⟨hleast, _, hapart⟩ := (freeRegion_iff h hk).mp hfree
  have hside := hapart 0 hn
  omega

omit hsize in
theorem noneBefore_next {k i : ℕ} (hk : 1 ≤ k) (hi : i+1 < n) (hbefore : NoneBefore m n k i)
    (hgap : ¬finFactor m i+k ≤ offsetFactor m (i+1)) : NoneBefore m n k (i+1) := by
  intro g hfree
  have hseen := hbefore g hfree
  obtain ⟨_, _, hapart⟩ := (freeRegion_iff h hk).mp hfree
  have hside := hapart (i+1) hi
  omega

omit hsize in
/-- The space behind a file is free as far as the next file, or the end. -/
theorem freeRegion_behind {k i : ℕ} (hk : 1 ≤ k) (hi : i < n)
    (hnext : i+1 < n → finFactor m i+k ≤ offsetFactor m (i+1))
    (hend : finFactor m i+k ≤ totalFactor m) : FreeRegion m n (finFactor m i) k := by
  have hleast : 1 ≤ offsetFactor m i := h.least i hi
  have hblock := h.block i hi
  apply (freeRegion_iff h hk).mpr
  refine ⟨by omega, hend, ?_⟩
  intro j hj
  rcases Nat.lt_trichotomy j i with hji | rfl | hij
  · right
    have hle := h.disjoint j i hji hi
    omega
  · exact Or.inr (Nat.le_refl _)
  · left
    have hroom := hnext (by omega)
    rcases Nat.lt_or_ge (i+1) j with hlt | hge
    · have hle := h.disjoint (i+1) j hlt hj
      have hpos := h.block (i+1) (by omega)
      omega
    · rw [show j = i+1 by omega]
      exact hroom

theorem exec_firstFitLoop {k : ℕ} (hk : 1 ≤ k) (fuel i : ℕ) (hfuel : i+1+fuel = 126)
    (hi : i < n) (hbefore : NoneBefore m n k i) :
    (∃ f last, (miniFsFindFreeRegionLoop k i (i+1) fuel).exec size m = some ((some f, last), m) ∧
        f ≠ 0 ∧ FreeRegion m n f k ∧ ∀ g, FreeRegion m n g k → f ≤ g) ∨
      ((miniFsFindFreeRegionLoop k i (i+1) fuel).exec size m = some ((none, n-1), m) ∧
        NoneBefore m n k (n-1)) := by
  have hc : n ≤ 126 := h.count
  induction fuel generalizing i with
  | zero =>
    right
    rw [show n-1 = i by omega]
    exact ⟨rfl, hbefore⟩
  | succ fuel ih =>
    rw [miniFsFindFreeRegionLoop,
      Prog.exec_bind_of _ _ _ _ _ _ (exec_offsetFactor hsize (i+1) (by omega))]
    by_cases hnext : i+1 < n
    · have hleast : 1 ≤ offsetFactor m (i+1) := h.least (i+1) hnext
      have hdisj := h.disjoint i (i+1) (by omega) hnext
      have hblock := h.block (i+1) hnext
      have hin := h.inside (i+1) hnext
      have htotal := totalFactor_le (m := m)
      have hfin : finFactor m i = offsetFactor m i+storedSizeFactor m (offsetFactor m i) := rfl
      rw [if_neg (by omega),
        Prog.exec_bind_of _ _ _ _ _ _ (exec_offsetFactor hsize i (by omega)),
        Prog.exec_bind_of _ _ _ _ _ _ (exec_storedSizeFactor h hsize i hi)]
      by_cases hgap : finFactor m i+k ≤ offsetFactor m (i+1)
      · left
        rw [if_pos (by omega), u8_of_lt (by omega)]
        have hleast' := h.block i hi
        exact ⟨finFactor m i, i, rfl, by omega,
          freeRegion_behind h hk hi (fun _ => hgap) (by omega), hbefore⟩
      · rw [if_neg (by omega)]
        exact ih (i+1) (by omega) hnext (noneBefore_next h hk hnext hbefore hgap)
    · right
      rw [if_pos (h.zeros (i+1) (by omega) (by rw [show MINIFSMAXFILES = 126 from rfl]; omega)),
        show n-1 = i by omega]
      exact ⟨rfl, hbefore⟩

theorem exec_firstFit {k : ℕ} (hk : 1 ≤ k) :
    ∃ f, (miniFsFindFreeRegionFactor k).exec size m = some (f, m) ∧ FirstFit m n k f := by
  have hc : n ≤ 126 := h.count
  have htotal := totalFactor_le (m := m)
  have hpos : 1 ≤ totalFactor m := by simp [totalFactor]
  have hfirst := exec_offsetFactor (m := m) hsize 0 (by omega)
  rw [miniFsFindFreeRegionFactor, Prog.exec_bind_of _ _ _ _ _ _ hfirst]
  rcases Nat.eq_zero_or_pos n with rfl | hn
  · rw [if_pos (h.zeros 0 (Nat.le_refl 0) (by decide)),
      Prog.exec_bind_of _ _ _ _ _ _ (exec_totalFactor hsize),
      show MINIFSFILEMINOFFSETFACTOR = 1 from rfl]
    have hroom : u32 (totalFactor m-1+4294967296-1+1) = totalFactor m-1 := by
      simp only [u32]
      omega
    have hiff : ∀ g, FreeRegion m 0 g k ↔ 1 ≤ g ∧ g+k ≤ totalFactor m := by
      intro g
      simpa using freeRegion_iff h hk
    rw [hroom]
    by_cases hfit : k > totalFactor m-1
    · rw [if_pos hfit]
      refine ⟨0, rfl, firstFit_none ?_⟩
      intro g hfree
      have hend := (hiff g).mp hfree
      omega
    · rw [if_neg hfit]
      exact ⟨1, rfl, firstFit_some (by omega) ((hiff 1).mpr ⟨by omega, by omega⟩)
        (fun g hfree => ((hiff g).mp hfree).1)⟩
  · have hleast : 1 ≤ offsetFactor m 0 := h.least 0 hn
    have hblock := h.block 0 hn
    have hin := h.inside 0 hn
    rw [if_neg (by omega), Prog.exec_bind_of _ _ _ _ _ _ hfirst,
      show MINIFSFILEMINOFFSETFACTOR = 1 from rfl]
    have hroom : u32 (offsetFactor m 0+4294967296-1) = offsetFactor m 0-1 := by
      simp only [u32]
      omega
    rw [hroom]
    by_cases hfront : k ≤ offsetFactor m 0-1
    · rw [if_pos hfront]
      refine ⟨1, rfl, firstFit_some (by omega) ?_ ?_⟩
      · apply (freeRegion_iff h hk).mpr
        refine ⟨Nat.le_refl 1, by omega, ?_⟩
        intro i hi
        left
        rcases Nat.eq_zero_or_pos i with rfl | hi'
        · omega
        · have hle := h.disjoint 0 i hi' hi
          omega
      · intro g hfree
        exact ((freeRegion_iff h hk).mp hfree).1
    · rw [if_neg hfront]
      rcases exec_firstFitLoop h hsize hk 125 0 rfl hn (noneBefore_first h hk hn hfront) with
        ⟨f, last, hx, hf, hfree, hlow⟩ | ⟨hx, hbefore⟩
      · change (miniFsFindFreeRegionLoop k 0 1 (MINIFSMAXFILES-1)).exec size m = _ at hx
        rw [Prog.exec_bind_of _ _ _ _ _ _ hx]
        exact ⟨f, rfl, firstFit_some hf hfree hlow⟩
      · change (miniFsFindFreeRegionLoop k 0 1 (MINIFSMAXFILES-1)).exec size m = _ at hx
        rw [Prog.exec_bind_of _ _ _ _ _ _ hx]
        dsimp only
        have hlast : n-1 < n := by omega
        have hend := h.inside (n-1) hlast
        have hfin : finFactor m (n-1) =
          offsetFactor m (n-1)+storedSizeFactor m (offsetFactor m (n-1)) := rfl
        rw [Prog.exec_bind_of _ _ _ _ _ _ (exec_offsetFactor hsize (n-1) (by omega)),
          Prog.exec_bind_of _ _ _ _ _ _ (exec_storedSizeFactor h hsize (n-1) hlast),
          Prog.exec_bind_of _ _ _ _ _ _ (exec_totalFactor hsize)]
        by_cases hbehind : finFactor m (n-1)+k ≤ totalFactor m
        · rw [if_pos (by omega), u8_of_lt (by omega)]
          have hblock' := h.block (n-1) hlast
          exact ⟨finFactor m (n-1), rfl, firstFit_some (by omega)
            (freeRegion_behind h hk hlast (fun hlt => by omega) hbehind) hbefore⟩
        · rw [if_neg (by omega)]
          refine ⟨0, rfl, firstFit_none ?_⟩
          intro g hfree
          have hseen := hbefore g hfree
          have hstop := ((freeRegion_iff h hk).mp hfree).2.1
          omega

end Search

/-- On a device that holds a volume the search answers the lowest free region,
and leaves the volume as it is. -/
theorem findFreeRegion_firstFit {σ ε : Type} (dev : Handler σ ε) (size : ℕ) (view : σ → Image)
    (hl : Lawful dev size view) (s : σ) (n : ℕ) (h : Regions (view s) n)
    (hsize : MINIFSFACTOR*totalFactor (view s) ≤ size) (sizeFactor : ℕ)
    (hleast : 1 ≤ sizeFactor) :
    ∃ f s', (miniFsFindFreeRegionFactor sizeFactor).run dev s = .ok (f, s') ∧
      (∀ a < size, view s' a = view s a) ∧ FirstFit (view s) n sizeFactor f := by
  obtain ⟨f, hx, hfit⟩ := exec_firstFit h hsize hleast
  obtain ⟨s', hrun, hview⟩ := run_of_exec hl hx
  exact ⟨f, s', hrun, hview, hfit⟩

/-- A volume of 256 blocks with four blocks of a file at its start and a file
that ends at its last block. -/
def endsImage : Image := fun a =>
  if a = 1 then 255 else if a = 2 then 1 else if a = 3 then 200
  else if a = 130 then 4 else if a = 25602 then 56 else 0

theorem endsImage_regions : Regions endsImage 2 := by
  have hcases : ∀ i < 2, i = 0 ∨ i = 1 := by omega
  refine ⟨by decide, ?_, ?_, ?_, ?_, ?_⟩
  · intro i hi
    rcases hcases i hi with rfl | rfl <;> decide
  · intro i hlow hhigh
    rw [show MINIFSMAXFILES = 126 from rfl] at hhigh
    simp only [offsetFactor, endsImage, show MINIFSHEADERFILEBASEADDR = 2 from rfl]
    rw [if_neg (by omega), if_neg (by omega), if_neg (by omega)]
    split
    · omega
    · split
      · omega
      · rfl
  · intro i hi
    rcases hcases i hi with rfl | rfl <;> decide
  · intro i j hij hj
    rw [show i = 0 by omega, show j = 1 by omega]
    decide
  · intro i hi
    rcases hcases i hi with rfl | rfl <;> decide

theorem findFreeRegion_firstFit_ends :
    ∃ f s', (miniFsFindFreeRegionFactor 196).run (imageDevice 32768) endsImage = .ok (f, s') ∧
      (∀ a < 32768, id s' a = id endsImage a) ∧ FirstFit (id endsImage) 2 196 f :=
  findFreeRegion_firstFit (imageDevice 32768) 32768 id (imageDevice_lawful 32768) endsImage 2
    endsImage_regions (by decide) 196 (by decide)

end ArduinoOS.Minifs
