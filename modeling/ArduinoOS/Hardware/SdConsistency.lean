import ArduinoOS.Hardware.SdDescription

/-!
# The card's state after a start

A start that fails before the type of the card is known leaves the slot as it
was. One that fails later leaves the type behind, and the slot counts as
mounted. A flush may find no idle byte and never end.
-/

set_option autoImplicit false

namespace ArduinoOS.Hardware.Sd
open ArduinoOS.Faulting ArduinoOS.Fuel
open ArduinoOS.Kernel (Fault)

variable {bytes : ℕ → UInt8} {spiFd powerPin slaveSelectPin : ℕ} {h : Host} {c : SdCard}
  {s' : Host × SdCard} {r : SdInitResult}

/-! ### The whole start -/

/-- What is left of the dialogue once the card is open, or could not be opened. -/
def afterOpen (bytes : ℕ → UInt8) (opened : Option SdInitResult) (fuel : ℕ) :
    SdRun SdInitResult :=
  match opened with
  | some result => pure result
  | none => sdDescribe bytes fuel

theorem afterOpen_lasting (opened : Option SdInitResult) : Lasting (afterOpen bytes opened) := by
  cases opened with
  | none => exact describe_lasting
  | some result => exact lasting_const _

theorem dialogue_eq (fuel : ℕ) :
    sdDialogue bytes fuel = sdOpen bytes fuel >>= fun opened => afterOpen bytes opened fuel := rfl

theorem dialogue_lasting : Lasting (sdDialogue bytes) :=
  lasting_bind open_lasting afterOpen_lasting

theorem dialogue_ends : Ends (sdDialogue bytes) (h, c) r s' ↔
    Ends (sdOpen bytes) (h, c) (some r) s' ∨
      ∃ t, Opens bytes h.pos t ∧ Ends (sdDescribe bytes) (h.goTo t, c) r s' := by
  rw [show sdDialogue bytes = _ from funext dialogue_eq, ends_bind open_lasting afterOpen_lasting]
  constructor
  · rintro ⟨opened, s₁, hopen, hrest⟩
    cases opened with
    | none =>
      obtain ⟨t, hopens, rfl⟩ := open_none.mp hopen
      exact .inr ⟨t, hopens, hrest⟩
    | some result =>
      obtain ⟨rfl, rfl⟩ := ends_pure.mp hrest
      exact .inl hopen
  · rintro (hopen | ⟨t, hopens, hrest⟩)
    · exact ⟨some r, s', hopen, ends_pure.mpr ⟨rfl, rfl⟩⟩
    · exact ⟨none, (h.goTo t, c), open_none.mpr ⟨t, hopens, rfl⟩, hrest⟩

/-- The card as the start begins with it. -/
def fresh (powerPin slaveSelectPin : ℕ) : SdCard :=
  ⟨0, .badCard, .byte, powerPin, slaveSelectPin⟩

/-- The host once the card has been woken up. -/
def Host.started (h : Host) (spiFd powerPin slaveSelectPin : ℕ) : Host where
  pos := h.pos+1+200
  pins := (pinWrite slaveSelectPin false (pinWrite powerPin true h.pins).2).2
  kernelSpiLockFd := spiFd
  kernelSpiSlaveSelectPin := 255
  opened := spiFd::h.opened

/-- The pins at the end of a start. -/
def finishedPins (powerPin slaveSelectPin : ℕ) (result : SdInitResult) (p : Pins) : Pins :=
  if result = .ok then (pinWrite slaveSelectPin true p).2
  else (pinWrite powerPin false (pinWrite slaveSelectPin true p).2).2

theorem setPin_run (pin : ℕ) (value : Bool) :
    setPin pin value (h, c) = .ok ((), ({ h with pins := (pinWrite pin value h.pins).2 }, c)) := rfl

theorem release_run (hlock : h.kernelSpiLockFd ≠ 0) (hselect : h.kernelSpiSlaveSelectPin = 255) :
    kernelSpiReleaseLock (h, c) = .ok ((), ({ h with
      opened := h.opened.erase h.kernelSpiLockFd, kernelSpiLockFd := 0 }, c)) := by
  simp [kernelSpiReleaseLock, onHost, hlock, hselect]

def Host.finished (h : Host) (powerPin slaveSelectPin : ℕ) (result : SdInitResult) : Host :=
  { h with
    pins := finishedPins powerPin slaveSelectPin result h.pins
    opened := h.opened.erase h.kernelSpiLockFd
    kernelSpiLockFd := 0 }

theorem finish_run (hlock : h.kernelSpiLockFd ≠ 0) (hselect : h.kernelSpiSlaveSelectPin = 255) :
    sdFinish powerPin slaveSelectPin r (h, c) =
      .ok (r, (h.finished powerPin slaveSelectPin r, c)) := by
  by_cases hr : r = .ok
  · rw [sdFinish, if_pos hr, bind_of_ok (setPin_run _ _),
      bind_of_ok (release_run (by exact hlock) (by exact hselect)), Host.finished, finishedPins, if_pos hr]
    rfl
  · rw [sdFinish, if_neg hr, bind_of_ok (setPin_run _ _), bind_of_ok (setPin_run _ _),
      bind_of_ok (release_run (by exact hlock) (by exact hselect)), Host.finished, finishedPins,
      if_neg hr]
    rfl

theorem init_locked (hlocked : h.kernelSpiLockFd ≠ 0 ∨ spiFd = 0) :
    Ends (fun f => sdInit bytes spiFd f powerPin slaveSelectPin) (h, c) r s' ↔
      r = .spiLockFail ∧ s' = (h, fresh powerPin slaveSelectPin) := by
  have hgrab (c : SdCard) : kernelSpiGrabLockNoSlaveSelect spiFd (h, c) =
      .ok (false, (h, c)) := by
    by_cases hheld : h.kernelSpiLockFd = 0
    · have hnone := hlocked.resolve_left (not_not.mpr hheld)
      simp [kernelSpiGrabLockNoSlaveSelect, onHost, hheld, hnone]
    · simp [kernelSpiGrabLockNoSlaveSelect, onHost, hheld]
  simp only [sdInit]
  rw [ends_onCard, ends_step (hgrab _)]
  simp only [if_true, ends_pure]
  rfl

theorem dialogue_host (hend : Ends (sdDialogue bytes) (h, c) r s') : ∃ q, s'.1 = h.goTo q := by
  rcases dialogue_ends.mp hend with hopen | ⟨t, -, hdescribe⟩
  · obtain ⟨⟨q, rfl⟩, -⟩ := open_frame hopen
    exact ⟨q, rfl⟩
  · simpa using (describe_kept hdescribe).host

theorem writeBytes_run (written : List UInt8) :
    spiWriteBytes written (h, c) = .ok ((), (h.goTo (h.pos+written.length), c)) := rfl

theorem dummyBytes_run (count : ℕ) :
    sdWriteDummyBytesN count (h, c) = .ok ((), (h.goTo (h.pos+count), c)) := by
  rw [sdWriteDummyBytesN, writeBytes_run, List.length_replicate]

theorem init_ends (hfree : h.kernelSpiLockFd = 0) (hfd : spiFd ≠ 0) :
    Ends (fun f => sdInit bytes spiFd f powerPin slaveSelectPin) (h, c) r s' ↔
      ∃ s₁, Ends (sdDialogue bytes)
          (h.started spiFd powerPin slaveSelectPin, fresh powerPin slaveSelectPin) r s₁ ∧
        s' = (s₁.1.finished powerPin slaveSelectPin r, s₁.2) := by
  have hgrab (c : SdCard) : kernelSpiGrabLockNoSlaveSelect spiFd (h, c) = .ok (true, ({ h with
      kernelSpiLockFd := spiFd, kernelSpiSlaveSelectPin := 255, opened := spiFd::h.opened },
      c)) := by
    simp [kernelSpiGrabLockNoSlaveSelect, onHost, hfree, hfd]
  have hfinish {r : SdInitResult} {s₁ : Host × SdCard} (hdialogue : Ends (sdDialogue bytes)
      (h.started spiFd powerPin slaveSelectPin, fresh powerPin slaveSelectPin) r s₁) :
      sdFinish powerPin slaveSelectPin r s₁ =
        .ok (r, (s₁.1.finished powerPin slaveSelectPin r, s₁.2)) := by
    obtain ⟨q, hq⟩ := dialogue_host hdialogue
    obtain ⟨h₁, c₁⟩ := s₁
    subst hq
    exact finish_run hfd rfl
  simp only [sdInit]
  rw [ends_onCard, ends_step (hgrab _)]
  simp only [Bool.true_eq_false, if_false]
  rw [ends_step (writeBytes_run _), ends_step (setPin_run _ _), ends_step (dummyBytes_run _),
    ends_step (setPin_run _ _),
    ends_bind dialogue_lasting (fun a => lasting_const (sdFinish powerPin slaveSelectPin a))]
  simp only [ends_const]
  constructor
  · rintro ⟨a, s₁, hdialogue, hend⟩
    rw [hfinish hdialogue] at hend
    cases hend
    exact ⟨s₁, hdialogue, rfl⟩
  · rintro ⟨s₁, hdialogue, rfl⟩
    exact ⟨r, s₁, hdialogue, hfinish hdialogue⟩

theorem init_lasting : Lasting (fun f => sdInit bytes spiFd f powerPin slaveSelectPin) := by
  apply lasting_bind (lasting_const _)
  intro _
  apply lasting_bind (lasting_const _)
  intro locked
  apply lasting_ite (lasting_const _)
  apply lasting_bind (lasting_const _)
  intro _
  apply lasting_bind (lasting_const _)
  intro _
  apply lasting_bind (lasting_const _)
  intro _
  apply lasting_bind (lasting_const _)
  intro _
  exact lasting_bind dialogue_lasting (fun _ => lasting_const _)

/-- However a start ends, the bus is as it was. -/
theorem init_lock
    (hend : Ends (fun f => sdInit bytes spiFd f powerPin slaveSelectPin) (h, c) r s') :
    s'.1.kernelSpiLockFd = h.kernelSpiLockFd ∧ s'.1.opened = h.opened := by
  by_cases hlocked : h.kernelSpiLockFd ≠ 0 ∨ spiFd = 0
  · obtain ⟨-, rfl⟩ := (init_locked hlocked).mp hend
    exact ⟨rfl, rfl⟩
  · have hfree : h.kernelSpiLockFd = 0 := by
      by_contra hheld
      exact hlocked (.inl hheld)
    have hfd : spiFd ≠ 0 := fun hnone => hlocked (.inr hnone)
    obtain ⟨s₁, hdialogue, rfl⟩ := (init_ends hfree hfd).mp hend
    obtain ⟨q, hq⟩ := dialogue_host hdialogue
    simp [Host.finished, hq, Host.started, Host.goTo, hfree]

/-! ### When it is consistent -/

/-- What holds when a start has ended: the lock is given back, and the type
tells whether there is a card. -/
def Consistent (h : Host) (powerPin slaveSelectPin : ℕ) (r : SdInitResult)
    (s' : Host × SdCard) : Prop :=
  if r = .ok then
    s'.2.type ≠ .badCard ∧ s'.2.blockCount ≠ 0 ∧ s'.1.kernelSpiLockFd = 0 ∧ s'.1.opened = h.opened
  else
    s'.2.type = .badCard ∧ (r ≠ .spiLockFail →
      s'.1.pins.states powerPin = false ∧ s'.1.pins.states slaveSelectPin = true ∧
        s'.1.kernelSpiLockFd = 0 ∧ s'.1.opened = h.opened)

/-- The card cannot be asked, declines, or opens and then describes itself. -/
def StartsWell (bytes : ℕ → UInt8) (spiFd : ℕ) (h : Host) : Prop :=
  (h.kernelSpiLockFd ≠ 0 ∨ spiFd = 0) ∨ Declines bytes (h.pos+1+200) ∨
    ∃ t, Opens bytes (h.pos+1+200) t ∧ Describes bytes t

theorem finished_pins (hpower : pinIsValid powerPin = true)
    (hselect : pinIsValid slaveSelectPin = true) (hne : powerPin ≠ slaveSelectPin)
    (hr : r ≠ .ok) (p : Pins) :
    (finishedPins powerPin slaveSelectPin r p).states powerPin = false ∧
      (finishedPins powerPin slaveSelectPin r p).states slaveSelectPin = true := by
  simp [finishedPins, hr, write_states hpower, write_states hselect,
    Function.update_of_ne hne.symm]

theorem init_consistent_iff (hpower : pinIsValid powerPin = true)
    (hselect : pinIsValid slaveSelectPin = true) (hne : powerPin ≠ slaveSelectPin) :
    (∃ r s', Ends (fun f => sdInit bytes spiFd f powerPin slaveSelectPin) (h, c) r s' ∧
      Consistent h powerPin slaveSelectPin r s') ↔ StartsWell bytes spiFd h := by
  by_cases hlocked : h.kernelSpiLockFd ≠ 0 ∨ spiFd = 0
  · constructor
    · exact fun _ => .inl hlocked
    · intro _
      exact ⟨.spiLockFail, _, (init_locked hlocked).mpr ⟨rfl, rfl⟩, by simp [Consistent, fresh]⟩
  · have hfree : h.kernelSpiLockFd = 0 := by
      by_contra hheld
      exact hlocked (.inl hheld)
    have hfd : spiFd ≠ 0 := fun hnone => hlocked (.inr hnone)
    simp only [init_ends hfree hfd, StartsWell, hlocked, false_or]
    constructor
    · rintro ⟨r, s', ⟨s₁, hdialogue, rfl⟩, hconsistent⟩
      rcases dialogue_ends.mp hdialogue with hopen | ⟨t, hopens, hdescribe⟩
      · exact .inl (open_some.mp ⟨r, s₁, hopen⟩)
      · by_cases hr : r = .ok
        · subst hr
          exact .inr ⟨t, hopens, describe_ok.mp ⟨s₁, hdescribe⟩⟩
        · -- the type stays behind
          have htype := (describe_kept hdescribe).type_eq
          simp [Consistent, hr, htype] at hconsistent
    · rintro (hdeclines | ⟨t, hopens, hdescribes⟩)
      · obtain ⟨r, s₁, hopen⟩ := (open_some (h := h.started spiFd powerPin slaveSelectPin)
          (c := fresh powerPin slaveSelectPin)).mpr hdeclines
        obtain ⟨⟨q, rfl⟩, hr⟩ := open_frame hopen
        refine ⟨r, _, ⟨_, dialogue_ends.mpr (.inl hopen), rfl⟩, ?_⟩
        have hpins := finished_pins (r := r) hpower hselect hne (by simpa using hr)
        simp [Consistent, show r ≠ .ok by simpa using hr, Host.finished, hpins, fresh,
          Host.started, Host.goTo]
      · obtain ⟨s₁, hdescribe⟩ := (describe_ok
          (h := (h.started spiFd powerPin slaveSelectPin).goTo t)
          (c := fresh powerPin slaveSelectPin)).mpr hdescribes
        have hkept := describe_kept hdescribe
        obtain ⟨q, hq⟩ := hkept.host
        refine ⟨.ok, _, ⟨_, dialogue_ends.mpr (.inr ⟨t, hopens, hdescribe⟩), rfl⟩, ?_⟩
        simp [Consistent, Host.finished, hkept.type_eq, hkept.counted rfl, hq, Host.started,
          Host.goTo]

end ArduinoOS.Hardware.Sd
