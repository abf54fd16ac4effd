import ArduinoOS.Hardware.Sd

/-!
# The dialogue with a card, by its bytes

Positions in the sequence of bytes: where an answer is found, where a flush
ends, and from them which sequences make the card decline, open and describe
itself.
-/

set_option autoImplicit false

namespace ArduinoOS.Hardware.Sd
open ArduinoOS.Faulting ArduinoOS.Fuel
open ArduinoOS.Kernel (Fault)

section Sequences

variable (bytes : ℕ → UInt8)

/-- The first byte that is not idle among so many, and the position after it. -/
def answer : ℕ → ℕ → UInt8 × ℕ
  | 0, p => (0xFF, p)
  | max+1, p => if bytes p ≠ 0xFF then (bytes p, p+1) else answer max (p+1)

/-- The first idle byte from a position on ends before another one. -/
def Idle (p q : ℕ) : Prop :=
  ∃ n, (∀ i < n, bytes (p+i) ≠ 0xFF) ∧ bytes (p+n) = 0xFF ∧ q = p+n+1

def four (p : ℕ) : List UInt8 × ℕ :=
  let r0 := answer bytes 16 p
  let r1 := answer bytes 16 r0.2
  let r2 := answer bytes 16 r1.2
  let r3 := answer bytes 16 r2.2
  ([r0.1, r1.1, r2.1, r3.1], r3.2)

/-- A command of six bytes is answered so. -/
def Asked (p : ℕ) (b : UInt8) (q : ℕ) : Prop := answer bytes 16 (p+6) = (b, q)

def AskedIdle (p : ℕ) (b : UInt8) (r : ℕ) : Prop := ∃ q, Asked bytes p b q ∧ Idle bytes q r

/-- The card does not get ready in so many attempts. -/
def DeclinesStart : ℕ → ℕ → Prop
  | 0, _ => True
  | i+1, p =>
      (∃ b q, AskedIdle bytes p b q ∧ b ≠ 1) ∨
      ∃ q, AskedIdle bytes p 1 q ∧
        ((∃ b r, AskedIdle bytes q b r ∧ b ≠ 0 ∧ b ≠ 1) ∨
          ∃ r, AskedIdle bytes q 1 r ∧ DeclinesStart i r)

def Starts : ℕ → ℕ → ℕ → Prop
  | 0, _, _ => False
  | i+1, p, t => ∃ q, AskedIdle bytes p 1 q ∧
      (AskedIdle bytes q 0 t ∨ ∃ r, AskedIdle bytes q 1 r ∧ Starts i r t)

/-- A wrong answer, or none, before the type of the card is known; every flush
before it comes to an end. -/
def Declines (p : ℕ) : Prop :=
  (∃ b q, Asked bytes p b q ∧ b ≠ 1) ∨
  ∃ q, AskedIdle bytes p 1 q ∧
    ((∃ b r, AskedIdle bytes q b r ∧ b ≠ 1) ∨
      ∃ r t, Asked bytes q 1 r ∧ Idle bytes (four bytes r).2 t ∧
        ((four bytes r).1 ≠ [0x00, 0x00, 0x01, 0xAA] ∨ DeclinesStart bytes 1024 t))

/-- The card gets ready. -/
def Opens (p t : ℕ) : Prop :=
  ∃ q r u, AskedIdle bytes p 1 q ∧ Asked bytes q 1 r ∧
    (four bytes r).1 = [0x00, 0x00, 0x01, 0xAA] ∧ Idle bytes (four bytes r).2 u ∧
    Starts bytes 1024 u t

/-- The register from here on is one that is understood. -/
def CsdGood (p : ℕ) : Prop :=
  (bytes p).toNat/64 < 2 ∧ csdRefused ((bytes p).toNat/64) ((bytes (p+5)).toNat % 16) = false

/-- The register is asked for, sent and followed by a flush that ends. -/
def SendsCsd (p : ℕ) : Prop :=
  ∃ t u v, AskedIdle bytes p 0 t ∧ answer bytes 1024 t = (0xFE, u) ∧ CsdGood bytes u ∧
    Idle bytes (u+18) v

/-- A card that is ready answers all further commands as it should. -/
def Describes (p : ℕ) : Prop :=
  ∃ q r s, Asked bytes p 0 q ∧ Idle bytes (four bytes q).2 r ∧
    (if addressModeOf (four bytes q).1 = .byte then AskedIdle bytes r 0 s else s = r) ∧
    SendsCsd bytes s

end Sequences

def Host.goTo (h : Host) (p : ℕ) : Host := { h with pos := p }

@[simp] theorem goTo_pos (h : Host) (p : ℕ) : (h.goTo p).pos = p := rfl

@[simp] theorem goTo_goTo (h : Host) (p q : ℕ) : (h.goTo p).goTo q = h.goTo q := rfl

theorem goTo_self (h : Host) : h.goTo h.pos = h := rfl

variable {bytes : ℕ → UInt8} {h : Host} {c : SdCard} {s s' : Host × SdCard}

/-! ### Steps without fuel -/

theorem readByte_run : spiReadByte bytes (h, c) = .ok (bytes h.pos, (h.goTo (h.pos+1), c)) := rfl

theorem command_run (command : List UInt8) :
    sdWriteCommand command (h, c) = .ok ((), (h.goTo (h.pos+command.length), c)) := rfl

theorem wait_run (max : ℕ) : sdWaitForResponse bytes max (h, c) =
    .ok ((answer bytes max h.pos).1, (h.goTo (answer bytes max h.pos).2, c)) := by
  induction max generalizing h with
  | zero => rfl
  | succ max ih =>
    rw [sdWaitForResponse, bind_of_ok readByte_run, answer]
    split
    · rfl
    · rw [ih]
      rfl

theorem four_run : sdReadFour bytes (h, c) =
    .ok ((four bytes h.pos).1, (h.goTo (four bytes h.pos).2, c)) := by
  rw [sdReadFour, bind_of_ok (wait_run 16), bind_of_ok (wait_run 16), bind_of_ok (wait_run 16),
    bind_of_ok (wait_run 16)]
  rfl

theorem readBytes_run (n : ℕ) : readBytes bytes n (h, c) =
    .ok ((List.range n).map (fun i => bytes (h.pos+i)), (h.goTo (h.pos+n), c)) := by
  induction n generalizing h with
  | zero => rfl
  | succ n ih =>
    rw [readBytes, bind_of_ok readByte_run, bind_of_ok ih, List.range_succ_eq_map]
    simp only [List.map_cons, List.map_map, goTo_pos, goTo_goTo, Nat.add_zero]
    have hmap : (fun i => bytes (h.pos+1+i)) = (fun i => bytes (h.pos+i)) ∘ Nat.succ := by
      funext i
      simp [Nat.add_comm, Nat.add_left_comm]
    rw [hmap, Nat.add_right_comm, Nat.add_assoc]
    rfl

/-! ### The flush -/

theorem flush_lasting : Lasting (sdWriteDummyBytes bytes) := by
  intro f f' s r hle hrun
  induction f generalizing f' s with
  | zero => cases hrun
  | succ f ih =>
    obtain ⟨f', rfl⟩ : ∃ n, f' = n+1 := ⟨f'-1, by omega⟩
    obtain ⟨h, c⟩ := s
    rw [sdWriteDummyBytes, bind_of_ok readByte_run] at hrun ⊢
    by_cases hbusy : bytes h.pos ≠ 0xFF
    · rw [if_pos hbusy] at hrun ⊢
      exact ih f' _ (by omega) hrun
    · rw [if_neg hbusy] at hrun ⊢
      exact hrun

theorem idle_iff {p q : ℕ} :
    Idle bytes p q ↔ if bytes p = 0xFF then q = p+1 else Idle bytes (p+1) q := by
  constructor
  · rintro ⟨n, hbusy, hidle, rfl⟩
    cases n with
    | zero =>
      rw [Nat.add_zero] at hidle
      rw [if_pos hidle]
    | succ n =>
      rw [if_neg (by simpa using hbusy 0 (by omega))]
      refine ⟨n, ?_, ?_, ?_⟩
      · intro i hi
        have hnext := hbusy (i+1) (by omega)
        rwa [show p+(i+1) = p+1+i by omega] at hnext
      · rwa [show p+(n+1) = p+1+n by omega] at hidle
      · omega
  · split
    · rename_i hidle
      rintro rfl
      exact ⟨0, by simp, hidle, rfl⟩
    · rename_i hbusy
      rintro ⟨n, hlater, hidle, rfl⟩
      refine ⟨n+1, ?_, ?_, ?_⟩
      · intro i hi
        cases i with
        | zero => simpa using hbusy
        | succ i =>
          have hnext := hlater i (by omega)
          rwa [show p+1+i = p+(i+1) by omega] at hnext
      · rwa [show p+1+n = p+(n+1) by omega] at hidle
      · omega

theorem ends_flush {u : Unit} : Ends (sdWriteDummyBytes bytes) (h, c) u s' ↔
    ∃ q, Idle bytes h.pos q ∧ s' = (h.goTo q, c) := by
  constructor
  · rintro ⟨f, hrun⟩
    induction f generalizing h with
    | zero => cases hrun
    | succ f ih =>
      rw [sdWriteDummyBytes, bind_of_ok readByte_run] at hrun
      split at hrun
      · rename_i hbusy
        obtain ⟨q, hq, rfl⟩ := ih hrun
        exact ⟨q, idle_iff.mpr (by rw [if_neg hbusy]; exact hq), rfl⟩
      · rename_i hidle
        cases hrun
        exact ⟨h.pos+1, idle_iff.mpr (by rw [if_pos (not_not.mp hidle)]), rfl⟩
  · rintro ⟨q, ⟨n, hbusy, hidle, rfl⟩, rfl⟩
    refine ⟨n+1, ?_⟩
    induction n generalizing h with
    | zero =>
      rw [sdWriteDummyBytes, bind_of_ok readByte_run, if_neg (by simpa using hidle)]
      rfl
    | succ n ih =>
      rw [sdWriteDummyBytes, bind_of_ok readByte_run, if_pos (by simpa using hbusy 0 (by omega))]
      have hrest := ih (h := h.goTo (h.pos+1)) ?_ ?_
      · rw [hrest, goTo_goTo, goTo_pos, show h.pos+1+n+1 = h.pos+(n+1)+1 by omega]
      · intro i hi
        have hnext := hbusy (i+1) (by omega)
        rwa [show h.pos+(i+1) = (h.goTo (h.pos+1)).pos+i by simp; omega] at hnext
      · rwa [show h.pos+(n+1) = (h.goTo (h.pos+1)).pos+n by simp; omega] at hidle

/-! ### Commands -/

section Commands

variable {α : Type} {a : α}

/-- A command and its answer. -/
theorem ends_ask (command : List UInt8) (hlen : command.length = 6)
    {k : ℕ → UInt8 → SdRun α} :
    Ends (fun f => sdWriteCommand command >>= fun _ =>
        sdWaitForResponse bytes 16 >>= fun b => k f b) (h, c) a s' ↔
      ∃ b q, Asked bytes h.pos b q ∧ Ends (fun f => k f b) (h.goTo q, c) a s' := by
  rw [ends_step (command_run command), ends_step (wait_run 16)]
  simp only [goTo_pos, goTo_goTo, hlen]
  constructor
  · exact fun hrun => ⟨_, _, rfl, hrun⟩
  · rintro ⟨b, q, hasked, hrun⟩
    rw [hasked]
    exact hrun

/-- A flush before something else. -/
theorem ends_flushed {k : ℕ → SdRun α} (hk : Lasting k) :
    Ends (fun f => sdWriteDummyBytes bytes f >>= fun _ => k f) (h, c) a s' ↔
      ∃ q, Idle bytes h.pos q ∧ Ends k (h.goTo q, c) a s' := by
  rw [ends_bind flush_lasting (fun _ => hk)]
  constructor
  · rintro ⟨_, s₁, hflush, hrest⟩
    obtain ⟨q, hq, rfl⟩ := ends_flush.mp hflush
    exact ⟨q, hq, hrest⟩
  · rintro ⟨q, hq, hrest⟩
    exact ⟨(), _, ends_flush.mpr ⟨q, hq, rfl⟩, hrest⟩

/-- A command, its answer and a flush. -/
theorem ends_askIdle (command : List UInt8) (hlen : command.length = 6)
    {k : ℕ → UInt8 → SdRun α} (hk : ∀ b, Lasting (fun f => k f b)) :
    Ends (fun f => sdWriteCommand command >>= fun _ => sdWaitForResponse bytes 16 >>= fun b =>
        sdWriteDummyBytes bytes f >>= fun _ => k f b) (h, c) a s' ↔
      ∃ b q, AskedIdle bytes h.pos b q ∧ Ends (fun f => k f b) (h.goTo q, c) a s' := by
  rw [ends_ask command hlen]
  constructor
  · rintro ⟨b, q, hasked, hrun⟩
    obtain ⟨r, hidle, hrest⟩ := (ends_flushed (hk b)).mp hrun
    exact ⟨b, r, ⟨q, hasked, hidle⟩, hrest⟩
  · rintro ⟨b, r, ⟨q, hasked, hidle⟩, hrest⟩
    exact ⟨b, q, hasked, (ends_flushed (hk b)).mpr ⟨r, hidle, hrest⟩⟩

end Commands

/-! ### Getting ready -/

theorem startLoop_lasting (i : ℕ) : Lasting (fun f => sdStartLoop bytes f i) := by
  induction i with
  | zero => exact lasting_const _
  | succ i ih =>
    simp only [sdStartLoop]
    apply lasting_bind (lasting_const _)
    intro _
    apply lasting_bind (lasting_const _)
    intro b
    apply lasting_bind flush_lasting
    intro _
    apply lasting_ite (lasting_const _)
    apply lasting_ite (lasting_const _)
    apply lasting_bind (lasting_const _)
    intro _
    apply lasting_bind (lasting_const _)
    intro b'
    apply lasting_bind flush_lasting
    intro _
    exact lasting_ite ih (lasting_const _)

end ArduinoOS.Hardware.Sd
