import ArduinoOS.Hardware.SdDialogue

/-!
# The stages of the dialogue

Each stage of the dialogue ends well exactly on the sequences that say so, and
moves nothing of the host but the position in the sequence.
-/

set_option autoImplicit false

namespace ArduinoOS.Hardware.Sd
open ArduinoOS.Faulting ArduinoOS.Fuel
open ArduinoOS.Kernel (Fault)

variable {bytes : ℕ → UInt8} {h : Host} {c : SdCard} {s' : Host × SdCard}
  {r : Option SdInitResult} {e : SdInitResult}

/-! ### Getting ready -/

/-- One attempt. -/
theorem startLoop_step (i : ℕ) :
    Ends (fun f => sdStartLoop bytes f (i+1)) (h, c) r s' ↔
      ∃ b q, AskedIdle bytes h.pos b q ∧
        if b = 0x05 then r = some .unsupportedCard ∧ s' = (h.goTo q, c)
        else if b ≠ 0x01 then r = some .badCard ∧ s' = (h.goTo q, c)
        else ∃ b' q', AskedIdle bytes q b' q' ∧
          if b' = 0x01 then Ends (fun f => sdStartLoop bytes f i) (h.goTo q', c) r s'
          else if b' = 0x00 then r = none ∧ s' = (h.goTo q', c)
          else r = some .badCard ∧ s' = (h.goTo q', c) := by
  have hlater (b' : UInt8) : Lasting (fun f => if b' = 0x01 then sdStartLoop bytes f i
      else if b' = 0x00 then pure none else pure (some .badCard)) :=
    lasting_ite (startLoop_lasting i) (lasting_const _)
  have hnext (b : UInt8) : Lasting (fun f =>
      if b = 0x05 then pure (some .unsupportedCard)
      else if b ≠ 0x01 then pure (some .badCard)
      else sdWriteCommand [0x69, 0x40, 0x00, 0x00, 0x00, 0x77] >>= fun _ =>
        sdWaitForResponse bytes 16 >>= fun b' => sdWriteDummyBytes bytes f >>= fun _ =>
          if b' = 0x01 then sdStartLoop bytes f i
          else if b' = 0x00 then pure none else pure (some .badCard)) := by
    apply lasting_ite (lasting_const _)
    apply lasting_ite (lasting_const _)
    apply lasting_bind (lasting_const _)
    intro _
    apply lasting_bind (lasting_const _)
    intro b'
    exact lasting_bind flush_lasting (fun _ => hlater b')
  simp only [sdStartLoop]
  rw [ends_askIdle [0x77, 0x00, 0x00, 0x00, 0x00, 0x65] rfl hnext]
  simp only [ends_if, ends_pure, goTo_goTo, goTo_pos,
    ends_askIdle [0x69, 0x40, 0x00, 0x00, 0x00, 0x77] rfl hlater]

theorem startLoop_frame (i : ℕ)
    (hend : Ends (fun f => sdStartLoop bytes f i) (h, c) r s') :
    (∃ q, s' = (h.goTo q, c)) ∧ r ≠ some .ok := by
  induction i generalizing h with
  | zero =>
    obtain ⟨rfl, rfl⟩ := ends_pure.mp hend
    exact ⟨⟨h.pos, rfl⟩, by simp⟩
  | succ i ih =>
    obtain ⟨b, q, -, hend⟩ := (startLoop_step i).mp hend
    split at hend
    · exact ⟨⟨q, hend.2⟩, by simp [hend.1]⟩
    split at hend
    · exact ⟨⟨q, hend.2⟩, by simp [hend.1]⟩
    obtain ⟨b', q', -, hend⟩ := hend
    split at hend
    · simpa using ih hend
    split at hend
    · exact ⟨⟨q', hend.2⟩, by simp [hend.1]⟩
    · exact ⟨⟨q', hend.2⟩, by simp [hend.1]⟩

theorem startLoop_none (i : ℕ) :
    Ends (fun f => sdStartLoop bytes f i) (h, c) none s' ↔
      ∃ t, Starts bytes i h.pos t ∧ s' = (h.goTo t, c) := by
  induction i generalizing h with
  | zero =>
    simp only [sdStartLoop, ends_pure, Starts]
    simp
  | succ i ih =>
    rw [startLoop_step]
    constructor
    · rintro ⟨b, q, hasked, hend⟩
      split at hend
      · simp at hend
      split at hend
      · simp at hend
      rename_i hone
      obtain rfl := not_not.mp hone
      obtain ⟨b', q', hasked', hend⟩ := hend
      split at hend
      · rename_i hone'
        subst hone'
        obtain ⟨t, ht, rfl⟩ := ih.mp hend
        exact ⟨t, ⟨q, hasked, .inr ⟨q', hasked', ht⟩⟩, rfl⟩
      split at hend
      · rename_i hzero
        subst hzero
        exact ⟨q', ⟨q, hasked, .inl hasked'⟩, hend.2⟩
      · simp at hend
    · rintro ⟨t, ⟨q, hasked, hzero | ⟨q', hasked', ht⟩⟩, rfl⟩
      · exact ⟨1, q, hasked, by simpa using ⟨0, t, hzero, by simp⟩⟩
      · have hend := (ih (h := h.goTo q')).mpr ⟨t, ht, rfl⟩
        exact ⟨1, q, hasked, by simpa using ⟨1, q', hasked', by simpa using hend⟩⟩

theorem startLoop_some (i : ℕ) :
    (∃ e s', Ends (fun f => sdStartLoop bytes f i) (h, c) (some e) s') ↔
      DeclinesStart bytes i h.pos := by
  induction i generalizing h with
  | zero =>
    simp only [sdStartLoop, ends_pure, DeclinesStart]
    simp
  | succ i ih =>
    simp only [startLoop_step]
    constructor
    · rintro ⟨e, s', b, q, hasked, hend⟩
      by_cases hone : b = 0x01
      · subst hone
        rw [if_neg (by decide), if_neg (by simp)] at hend
        obtain ⟨b', q', hasked', hend⟩ := hend
        refine .inr ⟨q, hasked, ?_⟩
        split at hend
        · rename_i hone'
          subst hone'
          exact .inr ⟨q', hasked', ih.mp ⟨e, s', hend⟩⟩
        split at hend
        · simp at hend
        · exact .inl ⟨b', q', hasked', by assumption, by assumption⟩
      · exact .inl ⟨b, q, hasked, hone⟩
    · rintro (⟨b, q, hasked, hb⟩ | ⟨q, hasked, ⟨b', q', hasked', hzero, hone⟩ | ⟨q', hasked', hlater⟩⟩)
      · by_cases hold : b = 0x05
        · exact ⟨.unsupportedCard, (h.goTo q, c), b, q, hasked, by simp [hold]⟩
        · exact ⟨.badCard, (h.goTo q, c), b, q, hasked, by simp [hold, hb]⟩
      · refine ⟨.badCard, (h.goTo q', c), 1, q, hasked, ?_⟩
        rw [if_neg (by decide), if_neg (by simp)]
        exact ⟨b', q', hasked', by simp [hzero, hone]⟩
      · obtain ⟨e, s', hend⟩ := (ih (h := h.goTo q')).mpr hlater
        refine ⟨e, s', 1, q, hasked, ?_⟩
        rw [if_neg (by decide), if_neg (by simp)]
        exact ⟨1, q', hasked', by simpa using hend⟩

/-! ### From the reset on -/

theorem ends_four {α : Type} {a : α} {g : ℕ → List UInt8 → SdRun α} :
    Ends (fun f => sdReadFour bytes >>= fun l => g f l) (h, c) a s' ↔
      Ends (fun f => g f (four bytes h.pos).1) (h.goTo (four bytes h.pos).2, c) a s' :=
  ends_step four_run

theorem checkVoltage_later (l : List UInt8) : Lasting (fun f =>
    if l ≠ [0x00, 0x00, 0x01, 0xAA] then pure (some .badCard) else sdStartLoop bytes f 1024) :=
  lasting_ite (lasting_const _) (startLoop_lasting 1024)

theorem checkVoltage_lasting : Lasting (sdCheckVoltage bytes) := by
  apply lasting_bind (lasting_const _)
  intro _
  apply lasting_bind (lasting_const _)
  intro b
  apply lasting_ite
  · exact lasting_bind flush_lasting (fun _ => lasting_const _)
  · apply lasting_bind (lasting_const _)
    intro l
    exact lasting_bind flush_lasting (fun _ => checkVoltage_later l)

theorem checkVoltage_ends :
    Ends (sdCheckVoltage bytes) (h, c) r s' ↔ ∃ b q, Asked bytes h.pos b q ∧
      if b ≠ 0x01 then ∃ t, Idle bytes q t ∧ r = some .unsupportedCard ∧ s' = (h.goTo t, c)
      else ∃ t, Idle bytes (four bytes q).2 t ∧
        if (four bytes q).1 ≠ [0x00, 0x00, 0x01, 0xAA]
          then r = some .badCard ∧ s' = (h.goTo t, c)
        else Ends (fun f => sdStartLoop bytes f 1024) (h.goTo t, c) r s' := by
  change Ends (fun f => sdCheckVoltage bytes f) (h, c) r s' ↔ _
  simp only [sdCheckVoltage]
  rw [ends_ask [0x48, 0x00, 0x00, 0x01, 0xAA, 0x87] rfl]
  have hlater (l : List UInt8) (h : Host) : Ends (fun f => sdWriteDummyBytes bytes f >>= fun _ =>
      if l ≠ [0x00, 0x00, 0x01, 0xAA] then pure (some .badCard)
      else sdStartLoop bytes f 1024) (h, c) r s' ↔ _ := ends_flushed (checkVoltage_later l)
  simp only [ends_if, ends_four, ends_flushed (lasting_const _), hlater, ends_pure]
  simp only [goTo_pos, goTo_goTo]
  rfl

theorem open_lasting : Lasting (sdOpen bytes) := by
  apply lasting_bind (lasting_const _)
  intro _
  apply lasting_bind (lasting_const _)
  intro b
  apply lasting_ite (lasting_const _)
  exact lasting_bind flush_lasting (fun _ => checkVoltage_lasting)

theorem open_ends :
    Ends (sdOpen bytes) (h, c) r s' ↔ ∃ b q, Asked bytes h.pos b q ∧
      if b ≠ 0x01 then r = some .couldNotReset ∧ s' = (h.goTo q, c)
      else ∃ t, Idle bytes q t ∧ Ends (sdCheckVoltage bytes) (h.goTo t, c) r s' := by
  change Ends (fun f => sdOpen bytes f) (h, c) r s' ↔ _
  simp only [sdOpen]
  rw [ends_ask [0x40, 0x00, 0x00, 0x00, 0x00, 0x95] rfl]
  simp only [ends_if, ends_flushed checkVoltage_lasting, ends_pure, goTo_pos, goTo_goTo]

/-- Until the card is ready nothing but the position moves, and what ends it
early is no success. -/
theorem open_frame (hend : Ends (sdOpen bytes) (h, c) r s') :
    (∃ q, s' = (h.goTo q, c)) ∧ r ≠ some .ok := by
  obtain ⟨b, q, -, hend⟩ := open_ends.mp hend
  split at hend
  · exact ⟨⟨q, hend.2⟩, by simp [hend.1]⟩
  obtain ⟨t, -, hend⟩ := hend
  obtain ⟨b', q', -, hend⟩ := checkVoltage_ends.mp hend
  split at hend
  · obtain ⟨u, -, rfl, rfl⟩ := hend
    exact ⟨⟨u, rfl⟩, by simp⟩
  obtain ⟨u, -, hend⟩ := hend
  split at hend
  · obtain ⟨rfl, rfl⟩ := hend
    exact ⟨⟨u, rfl⟩, by simp⟩
  · simpa using startLoop_frame 1024 hend

theorem open_none :
    Ends (sdOpen bytes) (h, c) none s' ↔ ∃ t, Opens bytes h.pos t ∧ s' = (h.goTo t, c) := by
  simp only [open_ends, checkVoltage_ends, startLoop_none]
  constructor
  · rintro ⟨b, q, hasked, hend⟩
    split at hend
    · simp at hend
    rename_i hone
    obtain rfl := not_not.mp hone
    obtain ⟨p, hidle, b', q', hasked', hend⟩ := hend
    split at hend
    · simp at hend
    rename_i hone'
    obtain rfl := not_not.mp hone'
    obtain ⟨u, hidle', hend⟩ := hend
    split at hend
    · simp at hend
    rename_i hecho
    obtain ⟨t, hstarts, rfl⟩ := hend
    exact ⟨t, ⟨p, q', u, ⟨q, hasked, hidle⟩, hasked', not_not.mp hecho, hidle', hstarts⟩, rfl⟩
  · rintro ⟨t, ⟨p, q', u, ⟨q, hasked, hidle⟩, hasked', hecho, hidle', hstarts⟩, rfl⟩
    refine ⟨1, q, hasked, ?_⟩
    rw [if_neg (by simp)]
    refine ⟨p, hidle, 1, q', hasked', ?_⟩
    rw [if_neg (by simp)]
    refine ⟨u, hidle', ?_⟩
    rw [if_neg (by simp [hecho])]
    exact ⟨t, hstarts, rfl⟩

theorem open_some :
    (∃ e s', Ends (sdOpen bytes) (h, c) (some e) s') ↔ Declines bytes h.pos := by
  constructor
  · rintro ⟨e, s', hend⟩
    obtain ⟨b, q, hasked, hend⟩ := open_ends.mp hend
    by_cases hone : b = 0x01
    · subst hone
      rw [if_neg (by simp)] at hend
      obtain ⟨p, hidle, hend⟩ := hend
      obtain ⟨b', q', hasked', hend⟩ := checkVoltage_ends.mp hend
      refine .inr ⟨p, ⟨q, hasked, hidle⟩, ?_⟩
      by_cases hone' : b' = 0x01
      · subst hone'
        rw [if_neg (by simp)] at hend
        obtain ⟨u, hidle', hend⟩ := hend
        refine .inr ⟨q', u, hasked', hidle', ?_⟩
        split at hend
        · rename_i hecho
          exact .inl hecho
        · exact .inr ((startLoop_some 1024).mp ⟨e, s', hend⟩)
      · rw [if_pos hone'] at hend
        obtain ⟨u, hidle', -⟩ := hend
        exact .inl ⟨b', u, ⟨q', hasked', hidle'⟩, hone'⟩
    · exact .inl ⟨b, q, hasked, hone⟩
  · simp only [open_ends, checkVoltage_ends]
    rintro (⟨b, q, hasked, hb⟩ | ⟨p, ⟨q, hasked, hidle⟩, hrest⟩)
    · exact ⟨.couldNotReset, (h.goTo q, c), b, q, hasked, by simp [hb]⟩
    rcases hrest with ⟨b', u, ⟨q', hasked', hidle'⟩, hb'⟩ | ⟨q', u, hasked', hidle', hrest⟩
    · refine ⟨.unsupportedCard, (h.goTo u, c), 1, q, hasked, ?_⟩
      rw [if_neg (by simp)]
      refine ⟨p, hidle, b', q', hasked', ?_⟩
      rw [if_pos hb']
      exact ⟨u, hidle', by simp⟩
    · by_cases hecho : (four bytes q').1 = [0x00, 0x00, 0x01, 0xAA]
      · have hlater := hrest.resolve_left (not_not.mpr hecho)
        obtain ⟨e, s', hend⟩ := (startLoop_some (h := h.goTo u) (c := c) 1024).mpr hlater
        refine ⟨e, s', 1, q, hasked, ?_⟩
        rw [if_neg (by simp)]
        refine ⟨p, hidle, 1, q', hasked', ?_⟩
        rw [if_neg (by simp)]
        exact ⟨u, hidle', by simpa [hecho] using hend⟩
      · refine ⟨.badCard, (h.goTo u, c), 1, q, hasked, ?_⟩
        rw [if_neg (by simp)]
        refine ⟨p, hidle, 1, q', hasked', ?_⟩
        rw [if_neg (by simp)]
        exact ⟨u, hidle', by simp [hecho]⟩

end ArduinoOS.Hardware.Sd
