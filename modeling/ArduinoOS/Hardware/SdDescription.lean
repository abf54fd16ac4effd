import ArduinoOS.Hardware.SdStages

/-!
# A card that is ready describes itself

From the point where its type is known the card is asked for its way of
addressing, its block size and its register. The type stays; a good end has
counted at least one block.
-/

set_option autoImplicit false

namespace ArduinoOS.Hardware.Sd
open ArduinoOS.Faulting ArduinoOS.Fuel
open ArduinoOS.Kernel (Fault)

variable {bytes : ℕ → UInt8} {h : Host} {c : SdCard} {s' : Host × SdCard} {r : SdInitResult}

/-! ### The size -/

theorem oldBlocks_ne_zero {cSize shift : ℕ} (hsize : cSize < 4096) (hshift : shift ≤ 15) :
    u32 ((cSize+1)*2^shift) ≠ 0 := by
  have hpow : 2^shift ≤ 2^15 := Nat.pow_le_pow_right (by omega) hshift
  have hpos : 0 < 2^shift := Nat.two_pow_pos shift
  have hbound : (cSize+1)*2^shift ≤ 4096*2^15 := Nat.mul_le_mul (by omega) hpow
  rw [u32_of_lt (lt_of_le_of_lt hbound (by decide))]
  exact Nat.mul_ne_zero (by omega) (by omega)

theorem blockCount_ne_zero (csd : List UInt8)
    (hgood : csdRefused ((csd.getD 0 0).toNat/64) ((csd.getD 5 0).toNat % 16) = false) :
    csdBlockCount csd ≠ 0 := by
  simp only [csdBlockCount]
  split
  · rename_i hversion
    rw [hversion] at hgood
    have hlen : 7 ≤ (csd.getD 5 0).toNat % 16 := by simpa [csdRefused] using hgood
    have h7 := (csd.getD 7 0).toNat_lt
    have h8 := (csd.getD 8 0).toNat_lt
    have h10 := (csd.getD 10 0).toNat_lt
    exact oldBlocks_ne_zero (by omega) (by omega)
  · split
    · rw [u32_of_lt (by omega)]
      omega
    · rw [u32_of_lt (by omega)]
      omega

/-- The bytes of the register from a position on. -/
def csdOf (bytes : ℕ → UInt8) (p : ℕ) : List UInt8 :=
  bytes p::((List.range 5).map (fun i => bytes (p+1+i)) ++
    (List.range 10).map (fun i => bytes (p+6+i)))

theorem csdOf_ne_zero {p : ℕ} (hgood : CsdGood bytes p) : csdBlockCount (csdOf bytes p) ≠ 0 :=
  blockCount_ne_zero _ hgood.2

/-! ### The register -/

theorem ends_readBytes {α : Type} {a : α} (n : ℕ) {g : ℕ → List UInt8 → SdRun α} :
    Ends (fun f => readBytes bytes n >>= fun l => g f l) (h, c) a s' ↔
      Ends (fun f => g f ((List.range n).map (fun i => bytes (h.pos+i))))
        (h.goTo (h.pos+n), c) a s' :=
  ends_step (readBytes_run n)

theorem ends_readByte {α : Type} {a : α} {g : ℕ → UInt8 → SdRun α} :
    Ends (fun f => spiReadByte bytes >>= fun b => g f b) (h, c) a s' ↔
      Ends (fun f => g f (bytes h.pos)) (h.goTo (h.pos+1), c) a s' :=
  ends_step readByte_run

theorem ends_onCard {α : Type} {a : α} (u : SdCard → SdCard) {g : ℕ → SdRun α} :
    Ends (fun f => onCard u >>= fun _ => g f) (h, c) a s' ↔ Ends g (h, u c) a s' :=
  ends_step (show onCard u (h, c) = .ok ((), (h, u c)) from rfl)

theorem readCsd_ends : Ends (sdReadCsd bytes) (h, c) r s' ↔
    if (bytes h.pos).toNat/64 ≥ 2 then r = .badCard ∧ s' = (h.goTo (h.pos+1), c)
    else if csdRefused ((bytes h.pos).toNat/64) ((bytes (h.pos+5)).toNat % 16)
      then r = .badCard ∧ s' = (h.goTo (h.pos+6), c)
    else ∃ v, Idle bytes (h.pos+18) v ∧ r = .ok ∧
      s' = (h.goTo v, { c with blockCount := csdBlockCount (csdOf bytes h.pos) }) := by
  change Ends (fun f => sdReadCsd bytes f) (h, c) r s' ↔ _
  simp only [sdReadCsd]
  simp only [ends_readByte, ends_if, ends_readBytes, ends_onCard, ends_pure,
    ends_flushed (lasting_const _)]
  rfl

theorem readCsd_lasting : Lasting (sdReadCsd bytes) := by
  apply lasting_bind (lasting_const _)
  intro first
  apply lasting_ite (lasting_const _)
  apply lasting_bind (lasting_const _)
  intro head
  apply lasting_ite (lasting_const _)
  apply lasting_bind (lasting_const _)
  intro rest
  apply lasting_bind (lasting_const _)
  intro _
  apply lasting_bind (lasting_const _)
  intro _
  exact lasting_bind flush_lasting (fun _ => lasting_const _)

/-! ### The commands before it -/

theorem checkCsd_later (b : UInt8) : Lasting (fun f => if b ≠ 0x00 then pure .badCard
    else sdWaitForResponse bytes 1024 >>= fun token =>
      if token ≠ 0xFE then pure .badCard else sdReadCsd bytes f) := by
  apply lasting_ite (lasting_const _)
  apply lasting_bind (lasting_const _)
  intro token
  exact lasting_ite (lasting_const _) readCsd_lasting

theorem checkCsd_lasting : Lasting (sdCheckCsd bytes) := by
  apply lasting_bind (lasting_const _)
  intro _
  apply lasting_bind (lasting_const _)
  intro b
  exact lasting_bind flush_lasting (fun _ => checkCsd_later b)

theorem ends_wait {α : Type} {a : α} (max : ℕ) {g : ℕ → UInt8 → SdRun α} :
    Ends (fun f => sdWaitForResponse bytes max >>= fun b => g f b) (h, c) a s' ↔
      Ends (fun f => g f (answer bytes max h.pos).1) (h.goTo (answer bytes max h.pos).2, c) a s' :=
  ends_step (wait_run max)

theorem checkCsd_ends : Ends (sdCheckCsd bytes) (h, c) r s' ↔
    ∃ b q, AskedIdle bytes h.pos b q ∧
      if b ≠ 0x00 then r = .badCard ∧ s' = (h.goTo q, c)
      else if (answer bytes 1024 q).1 ≠ 0xFE
        then r = .badCard ∧ s' = (h.goTo (answer bytes 1024 q).2, c)
      else Ends (sdReadCsd bytes) (h.goTo (answer bytes 1024 q).2, c) r s' := by
  change Ends (fun f => sdCheckCsd bytes f) (h, c) r s' ↔ _
  simp only [sdCheckCsd]
  rw [ends_askIdle [0x49, 0x00, 0x00, 0x00, 0x00, 0x01] rfl checkCsd_later]
  simp only [ends_if, ends_wait, ends_pure]
  rfl

theorem setBlockSize_later (b : UInt8) :
    Lasting (fun f => if b ≠ 0x00 then pure .badCard else sdCheckCsd bytes f) :=
  lasting_ite (lasting_const _) checkCsd_lasting

theorem setBlockSize_lasting (mode : SdAddressMode) :
    Lasting (fun f => sdSetBlockSize bytes f mode) := by
  apply lasting_ite
  · apply lasting_bind (lasting_const _)
    intro _
    apply lasting_bind (lasting_const _)
    intro b
    exact lasting_bind flush_lasting (fun _ => setBlockSize_later b)
  · exact checkCsd_lasting

theorem setBlockSize_ends (mode : SdAddressMode) :
    Ends (fun f => sdSetBlockSize bytes f mode) (h, c) r s' ↔
      if mode = .byte then ∃ b q, AskedIdle bytes h.pos b q ∧
        if b ≠ 0x00 then r = .badCard ∧ s' = (h.goTo q, c)
        else Ends (sdCheckCsd bytes) (h.goTo q, c) r s'
      else Ends (sdCheckCsd bytes) (h, c) r s' := by
  simp only [sdSetBlockSize, ends_if]
  rw [ends_askIdle [0x50, 0x00, 0x00, 0x02, 0x00, 0x01] rfl setBlockSize_later]
  simp only [ends_if, ends_pure]

/-- The card once its type is known. -/
def typed (c : SdCard) : SdCard := { c with type := .sdVer2Plus }

theorem describe_ends : Ends (sdDescribe bytes) (h, c) r s' ↔
    ∃ b q, Asked bytes h.pos b q ∧
      if b ≠ 0x00 then ∃ t, Idle bytes q t ∧ r = .badCard ∧ s' = (h.goTo t, typed c)
      else ∃ t, Idle bytes (four bytes q).2 t ∧
        Ends (fun f => sdSetBlockSize bytes f (addressModeOf (four bytes q).1))
          (h.goTo t, { typed c with addressMode := addressModeOf (four bytes q).1 }) r s' := by
  have hlater (l : List UInt8) : Lasting (fun f =>
      onCard (fun card => { card with addressMode := addressModeOf l }) >>= fun _ =>
        sdSetBlockSize bytes f (addressModeOf l)) :=
    lasting_bind (lasting_const _) (fun _ => setBlockSize_lasting _)
  have hflushed (l : List UInt8) (h : Host) (c : SdCard) :
      Ends (fun f => sdWriteDummyBytes bytes f >>= fun _ =>
        onCard (fun card => { card with addressMode := addressModeOf l }) >>= fun _ =>
          sdSetBlockSize bytes f (addressModeOf l)) (h, c) r s' ↔ _ := ends_flushed (hlater l)
  change Ends (fun f => sdDescribe bytes f) (h, c) r s' ↔ _
  simp only [sdDescribe]
  rw [ends_onCard, ends_ask [0x7A, 0x00, 0x00, 0x00, 0x00, 0x01] rfl]
  simp only [ends_if, ends_four, ends_flushed (lasting_const _), hflushed, ends_pure, ends_onCard]
  rfl

/-! ### What is left -/

/-- Only the position moves on the host, the type stays, and a success has
counted the blocks. -/
structure Kept (h : Host) (type : SdType) (r : SdInitResult) (s' : Host × SdCard) : Prop where
  host : ∃ q, s'.1 = h.goTo q
  type_eq : s'.2.type = type
  counted : r = .ok → s'.2.blockCount ≠ 0

theorem kept_failed (h : Host) (c : SdCard) (q : ℕ) :
    Kept h c.type .badCard (h.goTo q, c) := ⟨⟨q, rfl⟩, rfl, by simp⟩

theorem kept_goTo {type : SdType} {q : ℕ} (hkept : Kept (h.goTo q) type r s') : Kept h type r s' where
  host := by simpa using hkept.host
  type_eq := hkept.type_eq
  counted := hkept.counted

theorem readCsd_kept (hend : Ends (sdReadCsd bytes) (h, c) r s') : Kept h c.type r s' := by
  have hcases := readCsd_ends.mp hend
  split at hcases
  · obtain ⟨rfl, rfl⟩ := hcases
    exact kept_failed h c _
  rename_i hversion
  split at hcases
  · obtain ⟨rfl, rfl⟩ := hcases
    exact kept_failed h c _
  rename_i hlen
  obtain ⟨v, -, rfl, rfl⟩ := hcases
  exact ⟨⟨v, rfl⟩, rfl, fun _ => csdOf_ne_zero ⟨Nat.lt_of_not_le hversion, by simpa using hlen⟩⟩

theorem checkCsd_kept (hend : Ends (sdCheckCsd bytes) (h, c) r s') : Kept h c.type r s' := by
  obtain ⟨b, q, -, hcases⟩ := checkCsd_ends.mp hend
  split at hcases
  · obtain ⟨rfl, rfl⟩ := hcases
    exact kept_failed h c _
  split at hcases
  · obtain ⟨rfl, rfl⟩ := hcases
    exact kept_failed h c _
  · exact kept_goTo (readCsd_kept hcases)

theorem setBlockSize_kept {mode : SdAddressMode}
    (hend : Ends (fun f => sdSetBlockSize bytes f mode) (h, c) r s') : Kept h c.type r s' := by
  have hcases := (setBlockSize_ends mode).mp hend
  split at hcases
  · obtain ⟨b, q, -, hcases⟩ := hcases
    split at hcases
    · obtain ⟨rfl, rfl⟩ := hcases
      exact kept_failed h c _
    · exact kept_goTo (checkCsd_kept hcases)
  · exact checkCsd_kept hcases

theorem describe_kept (hend : Ends (sdDescribe bytes) (h, c) r s') :
    Kept h .sdVer2Plus r s' := by
  obtain ⟨b, q, -, hcases⟩ := describe_ends.mp hend
  split at hcases
  · obtain ⟨t, -, rfl, rfl⟩ := hcases
    exact kept_failed h (typed c) t
  · obtain ⟨t, -, hcases⟩ := hcases
    exact kept_goTo (setBlockSize_kept hcases)

/-! ### The sequences of a success -/

theorem readCsd_ok : (∃ s', Ends (sdReadCsd bytes) (h, c) .ok s') ↔
    CsdGood bytes h.pos ∧ ∃ v, Idle bytes (h.pos+18) v := by
  constructor
  · rintro ⟨s', hend⟩
    have hcases := readCsd_ends.mp hend
    split at hcases
    · simp at hcases
    rename_i hversion
    split at hcases
    · simp at hcases
    rename_i hlen
    obtain ⟨v, hidle, -, -⟩ := hcases
    exact ⟨⟨Nat.lt_of_not_le hversion, by simpa using hlen⟩, v, hidle⟩
  · rintro ⟨⟨hversion, hlen⟩, v, hidle⟩
    exists (h.goTo v, { c with blockCount := csdBlockCount (csdOf bytes h.pos) })
    apply readCsd_ends.mpr
    rw [if_neg (Nat.not_le.mpr hversion), if_neg (by simp [hlen])]
    exact ⟨v, hidle, rfl, rfl⟩

theorem checkCsd_ok : (∃ s', Ends (sdCheckCsd bytes) (h, c) .ok s') ↔ SendsCsd bytes h.pos := by
  constructor
  · rintro ⟨s', hend⟩
    obtain ⟨b, t, hasked, hcases⟩ := checkCsd_ends.mp hend
    split at hcases
    · simp at hcases
    rename_i hzero
    obtain rfl := not_not.mp hzero
    split at hcases
    · simp at hcases
    rename_i htoken
    obtain ⟨hgood, v, hidle⟩ := readCsd_ok.mp ⟨s', hcases⟩
    exact ⟨t, _, v, hasked, Prod.ext (not_not.mp htoken) rfl, hgood, hidle⟩
  · rintro ⟨t, u, v, hasked, htoken, hgood, hidle⟩
    obtain ⟨s', hend⟩ := (readCsd_ok (h := h.goTo u) (c := c)).mpr ⟨hgood, v, hidle⟩
    refine ⟨s', checkCsd_ends.mpr ⟨0, t, hasked, ?_⟩⟩
    rw [if_neg (by simp), htoken, if_neg (by simp)]
    exact hend

theorem setBlockSize_ok {mode : SdAddressMode} :
    (∃ s', Ends (fun f => sdSetBlockSize bytes f mode) (h, c) .ok s') ↔
      ∃ s, (if mode = .byte then AskedIdle bytes h.pos 0 s else s = h.pos) ∧
        SendsCsd bytes s := by
  simp only [setBlockSize_ends]
  by_cases hmode : mode = .byte
  · simp only [if_pos hmode]
    constructor
    · rintro ⟨s', b, q, hasked, hcases⟩
      split at hcases
      · simp at hcases
      rename_i hzero
      obtain rfl := not_not.mp hzero
      exact ⟨q, hasked, checkCsd_ok.mp ⟨s', hcases⟩⟩
    · rintro ⟨q, hasked, hsends⟩
      obtain ⟨s', hend⟩ := (checkCsd_ok (h := h.goTo q) (c := c)).mpr hsends
      exact ⟨s', 0, q, hasked, by simpa using hend⟩
  · simp only [if_neg hmode, exists_eq_left]
    exact checkCsd_ok

theorem describe_ok : (∃ s', Ends (sdDescribe bytes) (h, c) .ok s') ↔ Describes bytes h.pos := by
  constructor
  · rintro ⟨s', hend⟩
    obtain ⟨b, q, hasked, hcases⟩ := describe_ends.mp hend
    split at hcases
    · simp at hcases
    rename_i hzero
    obtain rfl := not_not.mp hzero
    obtain ⟨r, hidle, hcases⟩ := hcases
    obtain ⟨s, hset, hsends⟩ := setBlockSize_ok.mp ⟨s', hcases⟩
    exact ⟨q, r, s, hasked, hidle, hset, hsends⟩
  · rintro ⟨q, r, s, hasked, hidle, hset, hsends⟩
    obtain ⟨s', hend⟩ := (setBlockSize_ok (h := h.goTo r)
      (c := { typed c with addressMode := addressModeOf (four bytes q).1 })).mpr ⟨s, hset, hsends⟩
    refine ⟨s', describe_ends.mpr ⟨0, q, hasked, ?_⟩⟩
    rw [if_neg (by simp)]
    exact ⟨r, hidle, hend⟩

theorem describe_lasting : Lasting (sdDescribe bytes) := by
  apply lasting_bind (lasting_const _)
  intro _
  apply lasting_bind (lasting_const _)
  intro _
  apply lasting_bind (lasting_const _)
  intro b
  apply lasting_ite
  · exact lasting_bind flush_lasting (fun _ => lasting_const _)
  · apply lasting_bind (lasting_const _)
    intro l
    apply lasting_bind flush_lasting
    intro _
    exact lasting_bind (lasting_const _) (fun _ => setBlockSize_lasting _)

end ArduinoOS.Hardware.Sd
