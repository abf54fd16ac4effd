import ArduinoOS.Lib.Replace
import ArduinoOS.Procman.Compare

/-!
# Replacement in the memory of a process

The string is edited in place while it is scanned. The scan goes on by one
character whatever has been put there, so that it may find the needle again in
text that it has written, or pass over text that has moved up.
-/

set_option autoImplicit false

namespace ArduinoOS.Procman
open ArduinoOS.Faulting ArduinoOS.Kernel ArduinoOS.Minifs ArduinoOS.Replace

/-! ### The functions -/

/-- What comes of a loop that has no end of its own. -/
inductive Loop (α : Type) where
  | running
  | failed
  | done (a : α)

section Source

variable {φ : Type} (F : Files φ) (process : ProcManProcess)

def strlenFrom (procData : ProcManProcessProcData) (strAddr : UInt16) (len : ℕ) :
    ℕ → Run φ Fault (Loop ℕ)
  | 0 => pure .running
  | left+1 => do
      let c ← procManProcessMemoryReadByte F process procData strAddr
      match c with
      | none => pure .failed
      | some c =>
          if c = 0 then pure (.done (u16 len))
          else strlenFrom procData (strAddr+1) (len+1) left

def procManProcessMemoryStrlen (procData : ProcManProcessProcData) (strAddr : UInt16)
    (left : ℕ) : Run φ Fault (Loop ℕ) := strlenFrom F process procData strAddr 0 left

/-- The inner loop: the length of the needle when it is found at `i`. -/
def strreplaceMatch (procData : ProcManProcessProcData) (haystackAddr needleAddr : UInt16)
    (i j : ℕ) : ℕ → Run φ Fault (Loop (Option ℕ))
  | 0 => pure .running
  | left+1 => do
      let needleChar ← procManProcessMemoryReadByte F process procData (needleAddr+UInt16.ofNat j)
      match needleChar with
      | none => pure .failed
      | some needleChar =>
          if needleChar = 0 then pure (.done (some j))
          else do
            let haystackChar ← procManProcessMemoryReadByte F process procData
              (haystackAddr+UInt16.ofNat (i+j))
            match haystackChar with
            | none => pure .failed
            | some haystackChar =>
                if haystackChar ≠ needleChar then pure (.done none)
                else strreplaceMatch procData haystackAddr needleAddr i (j+1) left

/-- The edit: the replacement goes over the needle and the rest is moved down. -/
def strreplaceEdit (procData : ProcManProcessProcData) (haystackAddr replaceAddr : UInt16)
    (replaceLen i j steps : ℕ) : Run φ Fault (Loop ProcManProcessProcData) := do
  let placed ← procManProcessMemmove F process procData (haystackAddr+UInt16.ofNat i) replaceAddr
    replaceLen
  if placed.1 = false then pure .failed
  else do
    let remaining ← procManProcessMemoryStrlen F process placed.2
      (haystackAddr+UInt16.ofNat (i+j)) steps
    match remaining with
    | .running => pure .running
    | .failed => pure .failed
    | .done remainingLen => do
        let shifted ← procManProcessMemmove F process placed.2
          (haystackAddr+UInt16.ofNat (i+replaceLen)) (haystackAddr+UInt16.ofNat (i+j))
          (u16 (remainingLen+1))
        if shifted.1 = false then pure .failed
        else pure (.done (shifted.2.setReg 0 1))

/-- The outer loop. -/
def strreplaceLoop (haystackAddr needleAddr replaceAddr : UInt16) (replaceLen steps : ℕ)
    (procData : ProcManProcessProcData) (i : ℕ) : ℕ → Run φ Fault (Loop ProcManProcessProcData)
  | 0 => pure .running
  | left+1 => do
      let haystackChar ← procManProcessMemoryReadByte F process procData
        (haystackAddr+UInt16.ofNat i)
      match haystackChar with
      | none => pure .failed
      | some haystackChar =>
          if haystackChar = 0 then pure (.done procData)
          else do
            let found ← strreplaceMatch F process procData haystackAddr needleAddr i 0 steps
            match found with
            | .running => pure .running
            | .failed => pure .failed
            | .done none =>
                strreplaceLoop haystackAddr needleAddr replaceAddr replaceLen steps procData (i+1)
                  left
            | .done (some j) => do
                let edited ← strreplaceEdit F process procData haystackAddr replaceAddr replaceLen
                  i j steps
                match edited with
                | .running => pure .running
                | .failed => pure .failed
                | .done procData =>
                    strreplaceLoop haystackAddr needleAddr replaceAddr replaceLen steps procData
                      (i+1) left

/-- The syscall; a process for which it fails is killed. -/
def strreplaceSyscall (procData : ProcManProcessProcData) (steps : ℕ) :
    Run φ Fault (Loop ProcManProcessProcData) := do
  let replaceLen ← procManProcessMemoryStrlen F process procData (procData.regs 3) steps
  match replaceLen with
  | .running => pure .running
  | .failed => pure .failed
  | .done replaceLen =>
      strreplaceLoop F process (procData.regs 1) (procData.regs 2) (procData.regs 3) replaceLen
        steps (procData.setReg 0 0) 0 steps

end Source

/-! ### Moves inside the RAM -/

theorem movedLength_within (grants : ℕ → Bool) {m : MemoryImage} {destAddr : UInt16}
    (srcAddr : UInt16) {size : ℕ} (h : destAddr.toNat-BytecodeMemoryRamAddr+size ≤ m.ram.length) :
    movedLength grants m destAddr srcAddr size = m.ram.length ∨
      (destAddr.toNat-BytecodeMemoryRamAddr+size = m.ram.length ∧
        movedLength grants m destAddr srcAddr size =
          lenAfter grants m.env.length m.ram.length m.ram.length) := by
  apply lenAfter_fold _ h (Or.inl rfl)
  intro e he
  obtain ⟨o, ho, rfl⟩ := List.mem_map.mp he
  have hle : o ≤ size := by
    split at ho
    · exact blockEnds_le (fun i c hc => hc) 0 size o ho
    · exact blockEnds_le (fun i c hc => by rw [backwards]; omega) 0 size o ho
  omega

theorem uncovered_same {m m' : MemoryImage} (henv : m'.env.length = m.env.length)
    (hram : m'.ram.length = m.ram.length) {len : ℕ} (h : Uncovered m len) : Uncovered m' len := by
  rw [Uncovered, henv, hram]
  exact h

/-- What the growth of a RAM that is written up to its end needs: the volume
grants the size it has, and the spare bytes lie over no variable. -/
def RoomToTouch (grants : ℕ → Bool) (m : MemoryImage) : Prop :=
  grants (m.env.length+m.ram.length) = true ∧
    Uncovered m (lenAfter grants m.env.length m.ram.length m.ram.length)

/-! ### Bytes in a row -/

section Bytes

variable {m m' : MemoryImage} {addr : ℕ} {x y : List UInt8}

theorem hasBytes_append : HasBytes m addr (x++y) ↔
    HasBytes m addr x ∧ HasBytes m (addr+x.length) y := by
  constructor
  · intro h
    constructor
    · intro k hk
      rw [h k (by rw [List.length_append]; omega), List.getElem?_append_left hk]
    · intro k hk
      rw [Nat.add_assoc, h (x.length+k) (by rw [List.length_append]; omega),
        List.getElem?_append_right (Nat.le_add_right _ _), Nat.add_sub_cancel_left]
  · rintro ⟨hx, hy⟩ k hk
    rw [List.length_append] at hk
    by_cases hfirst : k < x.length
    · rw [hx k hfirst, List.getElem?_append_left hfirst]
    · have hlast := hy (k-x.length) (by omega)
      rw [show addr+x.length+(k-x.length) = addr+k by omega] at hlast
      rw [hlast, List.getElem?_append_right (Nat.not_lt.mp hfirst)]

theorem hasBytes_drop (h : HasBytes m addr x) (n : ℕ) : HasBytes m (addr+n) (x.drop n) := by
  intro k hk
  rw [List.length_drop] at hk
  rw [Nat.add_assoc, h (n+k) (by omega), List.getElem?_drop]

theorem hasBytes_cons {c : UInt8} :
    HasBytes m addr (c::x) ↔ m.byte addr = some c ∧ HasBytes m (addr+1) x := by
  have hsplit : HasBytes m addr ([c]++x) ↔
      HasBytes m addr [c] ∧ HasBytes m (addr+[c].length) x := hasBytes_append
  rw [List.singleton_append, List.length_singleton] at hsplit
  rw [hsplit]
  refine and_congr_left (fun _ => ⟨fun h => h 0 Nat.one_pos, fun h k hk => ?_⟩)
  rw [Nat.lt_one_iff.mp hk]
  exact h

theorem hasBytes_last {c : UInt8} (h : HasBytes m addr (x++[c])) :
    m.byte (addr+x.length) = some c := (hasBytes_append.mp h).2 0 Nat.one_pos

/-- Bytes outside of what has changed. -/
theorem hasBytes_kept {low high : ℕ} (h : HasBytes m addr x)
    (hkept : ∀ a b, a < low ∨ high ≤ a → m.byte a = some b → m'.byte a = some b)
    (hout : addr+x.length ≤ low ∨ high ≤ addr) : HasBytes m' addr x := by
  intro k hk
  have hbyte := h k hk
  rw [List.getElem?_eq_getElem hk] at hbyte ⊢
  exact hkept _ _ (by omega) hbyte

/-- The last byte is the terminator after the rest has moved down as before. -/
theorem shifted_last {needle replacement : List UInt8} (rest : List UInt8)
    (hshort : replacement.length ≤ needle.length) :
    ((replacement++rest)++0::(needle++(rest++[0])).drop
      (replacement.length+(rest.length+1)))[needle.length+rest.length]? = some 0 := by
  obtain ⟨d, hd⟩ := Nat.exists_eq_add_of_le hshort
  rw [List.getElem?_append_right (by rw [List.length_append]; omega), List.length_append,
    show needle.length+rest.length-(replacement.length+rest.length) = d by omega]
  cases d with
  | zero => rfl
  | succ d =>
    rw [List.getElem?_cons_succ, List.getElem?_drop,
      show replacement.length+(rest.length+1)+d = needle.length+rest.length by omega,
      List.getElem?_append_right (Nat.le_add_right _ _), Nat.add_sub_cancel_left,
      List.getElem?_append_right (Nat.le_refl _), Nat.sub_self]
    rfl

theorem stringAt_hasBytes {addr : UInt16} {str : List UInt8} (h : HasBytes m addr.toNat (str++[0]))
    (hno : 0 ∉ str) (hend : addr.toNat+str.length < 65536) :
    StringAt (fun a b => m.byte a.toNat = some b) addr str := by
  induction str generalizing addr with
  | nil => exact h 0 (Nat.succ_pos 0)
  | cons c cs ih =>
    rw [List.length_cons] at hend
    have hnext : (addr+1).toNat = addr.toNat+1 := by
      rw [UInt16.toNat_add, UInt16.toNat_one]
      omega
    refine ⟨h 0 (Nat.succ_pos _), fun hzero => hno (by simp [hzero]), ih ?_ ?_ ?_⟩
    · rw [hnext]
      exact hasBytes_drop h 1
    · exact fun hmem => hno (List.mem_cons_of_mem _ hmem)
    · omega

theorem hasBytes_stringAt {addr : UInt16} {str : List UInt8}
    (h : StringAt (fun a b => m.byte a.toNat = some b) addr str)
    (hend : addr.toNat+str.length < 65536) : HasBytes m addr.toNat (str++[0]) := by
  induction str generalizing addr with
  | nil => exact hasBytes_cons.mpr ⟨h, fun k hk => absurd hk (Nat.not_lt_zero k)⟩
  | cons c cs ih =>
    rw [List.length_cons] at hend
    have hnext : (addr+1).toNat = addr.toNat+1 := by
      rw [UInt16.toNat_add, UInt16.toNat_one]
      omega
    have hrest := ih h.2.2 (by omega)
    rw [hnext] at hrest
    exact hasBytes_cons.mpr ⟨h.1, hrest⟩

end Bytes

/-! ### The strings -/

/-- The needle and the replacement, apart from the `size` characters of the
haystack and its terminator. -/
structure Strings (m : MemoryImage) (haystackAddr needleAddr replaceAddr : UInt16) (size : ℕ)
    (needle replacement : List UInt8) : Prop where
  needleAt : StringAt (fun a b => m.byte a.toNat = some b) needleAddr needle
  needleApart : ∀ k ≤ needle.length, (needleAddr+UInt16.ofNat k).toNat < haystackAddr.toNat ∨
    haystackAddr.toNat+size+1 ≤ (needleAddr+UInt16.ofNat k).toNat
  replaceAt : HasBytes m replaceAddr.toNat (replacement++[0])
  replaceChars : 0 ∉ replacement
  replaceRegion : OneRegion m replaceAddr.toNat replacement.length
  replaceEnd : replaceAddr.toNat+replacement.length < 65536
  replaceApart : replaceAddr.toNat+replacement.length < haystackAddr.toNat ∨
    haystackAddr.toNat+size+1 ≤ replaceAddr.toNat

/-- The memory after edits of the haystack. -/
structure Edited (grants : ℕ → Bool) (m₀ m : MemoryImage) (addr size : ℕ) : Prop where
  env : m.env.length = m₀.env.length
  ram : m.ram.length = m₀.ram.length ∨ (RoomToTouch grants m₀ ∧
    addr-BytecodeMemoryRamAddr+size+1 = m₀.ram.length ∧
    m.ram.length = lenAfter grants m₀.env.length m₀.ram.length m₀.ram.length)
  others : ∀ a b, a < addr ∨ addr+size+1 ≤ a → m₀.byte a = some b → m.byte a = some b

section Edits

variable {grants : ℕ → Bool} {m₀ m m' : MemoryImage} {addr size : ℕ}

theorem edited_refl (grants : ℕ → Bool) (m : MemoryImage) (addr size : ℕ) :
    Edited grants m m addr size :=
  ⟨rfl, Or.inl rfl, fun _ _ _ hb => hb⟩

theorem edited_ram (h : Edited grants m₀ m addr size) : m₀.ram.length ≤ m.ram.length := by
  have hbounds := lenAfter_bounds grants m₀.env.length m₀.ram.length m₀.ram.length
  rcases h.ram with hsame | ⟨_, _, hgrown⟩ <;> omega

/-- A write up to the end of the RAM in the middle of the edits. -/
theorem edited_touch (h : Edited grants m₀ m addr size)
    (hend : addr-BytecodeMemoryRamAddr+size+1 ≤ m₀.ram.length)
    (hfull : m.ram.length ≤ addr-BytecodeMemoryRamAddr+size+1)
    (hroom : RoomToTouch grants m₀) : RoomToTouch grants m := by
  have hle := edited_ram h
  have hsame : m.ram.length = m₀.ram.length := by omega
  rw [RoomToTouch, h.env, hsame]
  exact ⟨hroom.1, uncovered_same h.env hsame hroom.2⟩

theorem edited_step (h : Edited grants m₀ m addr size) {i len : ℕ} (hle : i+len ≤ size)
    (hend : addr-BytecodeMemoryRamAddr+size+1 ≤ m₀.ram.length)
    (henv : m'.env.length = m.env.length)
    (hothers : ∀ a b, a < addr+i ∨ addr+i+len+1 ≤ a → m.byte a = some b → m'.byte a = some b)
    (hram : m'.ram.length = m.ram.length ∨ (RoomToTouch grants m₀ ∧
      addr-BytecodeMemoryRamAddr+i+len+1 = m.ram.length ∧
      m'.ram.length = lenAfter grants m.env.length m.ram.length m.ram.length)) :
    Edited grants m₀ m' addr size := by
  refine ⟨henv.trans h.env, ?_, fun a b hout hb => hothers a b (by omega) (h.others a b hout hb)⟩
  have hmore := edited_ram h
  rcases hram with hsame | ⟨hroom, hfull, hgrown⟩
  · rw [hsame]
    exact h.ram
  · have hsame : m.ram.length = m₀.ram.length := by omega
    rw [h.env, hsame] at hgrown
    exact Or.inr ⟨hroom, by omega, hgrown⟩

theorem stringAt_kept {str : List UInt8} {a : UInt16}
    (h : StringAt (fun a b => m.byte a.toNat = some b) a str)
    (hkept : ∀ k ≤ str.length, ∀ b, m.byte (a+UInt16.ofNat k).toNat = some b →
      m'.byte (a+UInt16.ofNat k).toNat = some b) :
    StringAt (fun a b => m'.byte a.toNat = some b) a str := by
  induction str generalizing a with
  | nil =>
    have hzero := hkept 0 (Nat.le_refl _) 0
    rw [addr_zero] at hzero
    exact hzero h
  | cons c cs ih =>
    have hhead := hkept 0 (Nat.zero_le _) c
    rw [addr_zero] at hhead
    refine ⟨hhead h.1, h.2.1, ih h.2.2 (fun k hk b hb => ?_)⟩
    rw [addr_succ] at hb ⊢
    exact hkept (k+1) (Nat.succ_le_succ hk) b hb

/-- The edits leave the needle and the replacement. -/
theorem strings_edited {haystackAddr needleAddr replaceAddr : UInt16}
    {needle replacement : List UInt8}
    (hs : Strings m₀ haystackAddr needleAddr replaceAddr size needle replacement)
    (h : Edited grants m₀ m haystackAddr.toNat size) :
    Strings m haystackAddr needleAddr replaceAddr size needle replacement := by
  have hbase : BytecodeMemoryRamAddr = 32768 := rfl
  have hwindow : MemoryImage.envIndex = 31744 := rfl
  have hvirtual : ProcManEnvVarsVirtualOffset = 64512 := rfl
  have hlen : (replacement++[(0 : UInt8)]).length = replacement.length+1 := List.length_append
  have hapart := hs.replaceApart
  have hram := edited_ram h
  refine ⟨stringAt_kept hs.needleAt (fun k hk b hb => h.others _ b (hs.needleApart k hk) hb),
    hs.needleApart, hasBytes_kept hs.replaceAt h.others (by omega), hs.replaceChars, ?_,
    hs.replaceEnd, hs.replaceApart⟩
  rcases hs.replaceRegion with hprog | ⟨hlow, hin⟩ | ⟨hlow, hout⟩
  · exact Or.inl hprog
  · exact Or.inr (Or.inl ⟨hlow, by omega⟩)
  · refine Or.inr (Or.inr ⟨hlow, ?_⟩)
    rcases h.ram with hsame | ⟨hroom, _, hgrown⟩
    · rw [hsame]
      exact hout
    · -- the first byte is a variable that can be seen
      obtain ⟨o, ho⟩ : ∃ o, replaceAddr.toNat-ProcManEnvVarsVirtualOffset = o := ⟨_, rfl⟩
      obtain ⟨hvisible, _⟩ := hasBytes_env hs.replaceAt hlow hout 0 (by omega)
      rw [ho, Nat.add_zero] at hvisible
      have huncovered := hroom.2 o hvisible (by omega)
      rw [hgrown]
      omega

end Edits

/-- What a scan from `i` on leaves in the place of `todo` and its terminator. -/
structure Scanned (m m' : MemoryImage) (addr : ℕ) (todo result : List UInt8) : Prop where
  result : ∃ stale, HasBytes m' addr (result++0::stale) ∧ result.length+stale.length = todo.length
  last : m'.byte (addr+todo.length) = some 0
  others : ∀ a b, a < addr ∨ addr+todo.length+1 ≤ a → m.byte a = some b → m'.byte a = some b

section Scans

variable {m m₁ m' : MemoryImage} {addr : ℕ} {todo rest result : List UInt8}

theorem scanned_cons {c : UInt8} {tail : List UInt8}
    (hedit : ∀ a b, a < addr ∨ addr+todo.length+1 ≤ a → m.byte a = some b → m₁.byte a = some b)
    (hbytes : HasBytes m₁ addr (c::(rest++0::tail)))
    (hlen : rest.length+tail.length+1 = todo.length)
    (hlast : m₁.byte (addr+todo.length) = some 0)
    (h : Scanned m₁ m' (addr+1) rest result) : Scanned m m' addr todo (c::result) := by
  obtain ⟨stale, hresult, hstale⟩ := h.result
  obtain ⟨hc, hrest⟩ := hasBytes_cons.mp hbytes
  have htail := (hasBytes_cons.mp (hasBytes_append.mp hrest).2).2
  refine ⟨⟨stale++tail, ?_, ?_⟩, ?_, fun a b hout hb => ?_⟩
  · have hshape : c::result++0::(stale++tail) = c::((result++0::stale)++tail) := by simp
    rw [hshape]
    refine hasBytes_cons.mpr ⟨h.others _ _ (Or.inl (Nat.lt_succ_self _)) hc,
      hasBytes_append.mpr ⟨hresult, ?_⟩⟩
    have hplace : addr+1+(result++0::stale).length = addr+1+rest.length+1 := by
      rw [List.length_append, List.length_cons]
      omega
    rw [hplace]
    exact hasBytes_kept htail h.others (Or.inr (Nat.le_refl _))
  · rw [List.length_cons, List.length_append]
    omega
  · by_cases hnone : tail.length = 0
    · rw [show addr+todo.length = addr+1+rest.length by omega]
      exact h.last
    · exact h.others _ _ (Or.inr (by omega)) hlast
  · exact h.others a b (by omega) (hedit a b hout hb)

/-- A terminator has come to the place of the scan, which goes on behind it. -/
theorem scanned_end
    (hedit : ∀ a b, a < addr ∨ addr+todo.length+1 ≤ a → m.byte a = some b → m₁.byte a = some b)
    (hzero : m₁.byte addr = some 0) (hlen : rest.length+1 = todo.length)
    (h : Scanned m₁ m' (addr+1) rest result) : Scanned m m' addr todo [] := by
  obtain ⟨stale, hresult, hstale⟩ := h.result
  refine ⟨⟨result++0::stale, ?_, ?_⟩, ?_, fun a b hout hb => ?_⟩
  · exact hasBytes_cons.mpr ⟨h.others _ _ (Or.inl (Nat.lt_succ_self _)) hzero, hresult⟩
  · rw [List.length_append, List.length_cons, List.length_nil]
    omega
  · rw [show addr+todo.length = addr+1+rest.length by omega]
    exact h.last
  · exact h.others a b (by omega) (hedit a b hout hb)

end Scans

section Runs

variable {φ : Type} {F : Files φ} {Inv : φ → Prop} {view : φ → FsView} {largest : ℕ}
  {grants : ℕ → Bool} (hl : FilesLaw F Inv view largest) (hr : ReliableReads F Inv view)
  {process : ProcManProcess} {paths : ProcessPaths} {procData : ProcManProcessProcData}
  {m : MemoryImage} {s : φ}

include hl hr

/-- A move into the RAM as it is. -/
theorem move_within (hw : ReliableWrites F Inv view)
    (hg : Growable F Inv view largest paths.ram grants) (hsmall : largest ≤ 32768)
    (hroom : m.env.length+MemoryImage.envIndex+15 ≤ largest)
    (h : MemoryAt Inv view process paths procData s m) {bytes : List UInt8}
    (destAddr srcAddr : UInt16)
    (hbytes : HasBytes m srcAddr.toNat bytes) (hregion : OneRegion m srcAddr.toNat bytes.length)
    (hsource : srcAddr.toNat+bytes.length ≤ 65536) (hin : BytecodeMemoryRamAddr ≤ destAddr.toNat)
    (hend : destAddr.toNat+bytes.length ≤ ProcManEnvVarsVirtualOffset)
    (hlast : destAddr.toNat-BytecodeMemoryRamAddr+bytes.length ≤ m.ram.length)
    (htouch : destAddr.toNat-BytecodeMemoryRamAddr+bytes.length = m.ram.length →
      RoomToTouch grants m) :
    ∃ procData' s' m', procManProcessMemmove F process procData destAddr srcAddr bytes.length s =
        .ok ((true, procData'), s') ∧ MemoryAt Inv view process paths procData' s' m' ∧
      m'.env.length = m.env.length ∧ HasBytes m' destAddr.toNat bytes ∧
      (∀ a b, a < destAddr.toNat ∨ destAddr.toNat+bytes.length ≤ a → m.byte a = some b →
        m'.byte a = some b) ∧
      (m'.ram.length = m.ram.length ∨
        (destAddr.toNat-BytecodeMemoryRamAddr+bytes.length = m.ram.length ∧
          m'.ram.length = lenAfter grants m.env.length m.ram.length m.ram.length)) ∧
      procData'.regs = procData.regs := by
  obtain ⟨procData', s', m', hrun, h', _, hpatched, hlength, hregs⟩ :=
    memmove_run hl hr hw hg hsmall h hbytes hregion hsource hin hend hroom (by
      intro e he hbeyond
      have hfull : destAddr.toNat-BytecodeMemoryRamAddr+e = m.ram.length := by omega
      rw [hfull]
      exact (htouch (by omega)).1)
  have hindex : BytecodeMemoryRamAddr+(destAddr.toNat-BytecodeMemoryRamAddr) = destAddr.toNat :=
    Nat.add_sub_cancel' hin
  have hgrown := movedLength_within grants srcAddr hlast
  rw [← hlength] at hgrown
  refine ⟨procData', s', m', hrun, h', hpatched.env, ?_, ?_, hgrown, hregs⟩
  · intro k hk
    have harrived := patched_arrived hpatched k hk
    rw [hindex] at harrived
    exact harrived
  · intro a b hout hb
    refine patched_others hpatched ?_ (by rw [hindex]; exact hout) hb
    rcases hgrown with hsame | ⟨hfull, hgrown⟩
    · intro o _ hvisible
      rw [hsame]
      exact hvisible
    · rw [hgrown]
      exact (htouch hfull).2

theorem strlen_run (left len : ℕ) (hi : Inv s)
    (hm : ProcessMemory (view s) process procData paths m) {addr : UInt16} {str : List UInt8}
    (h : StringAt (fun a b => m.byte a.toNat = some b) addr str) (hleft : str.length < left) :
    ∃ s', strlenFrom F process procData addr len left s = .ok (.done (u16 (len+str.length)), s') ∧
      Inv s' ∧ view s' = view s := by
  induction str generalizing addr len left s with
  | nil =>
    cases left with
    | zero => exact absurd hleft (Nat.not_lt_zero _)
    | succ left =>
      obtain ⟨s₁, hrun, hkept⟩ := readByte_run hl hr hi hm addr
      have hbyte : m.byte addr.toNat = some 0 := h
      rw [hbyte] at hrun
      refine ⟨s₁, ?_, hkept⟩
      rw [strlenFrom, bind_of_ok hrun]
      rfl
  | cons c cs ih =>
    cases left with
    | zero => exact absurd hleft (Nat.not_lt_zero _)
    | succ left =>
      obtain ⟨s₁, hrun, hi₁, hv₁⟩ := readByte_run hl hr hi hm addr
      rw [h.1] at hrun
      obtain ⟨s', hrest, hi', hv'⟩ := ih left (len+1) hi₁ (by rw [hv₁]; exact hm) h.2.2
        (Nat.lt_of_succ_lt_succ hleft)
      refine ⟨s', ?_, hi', hv'.trans hv₁⟩
      rw [strlenFrom, bind_of_ok hrun]
      dsimp only
      rw [if_neg h.2.1, hrest, List.length_cons, Nat.add_assoc, Nat.add_comm 1]

/-- The needle is compared with what stands at `i`. -/
theorem match_run {haystackAddr needleAddr : UInt16} (left i j : ℕ) (hi : Inv s)
    (hm : ProcessMemory (view s) process procData paths m) {needle rest : List UInt8}
    (hneedle : StringAt (fun a b => m.byte a.toNat = some b) (needleAddr+UInt16.ofNat j) needle)
    (hrest : StringAt (fun a b => m.byte a.toNat = some b) (haystackAddr+UInt16.ofNat (i+j)) rest)
    (hleft : needle.length < left) :
    ∃ s', strreplaceMatch F process procData haystackAddr needleAddr i j left s =
        .ok (.done (if needle.isPrefixOf rest then some (j+needle.length) else none), s') ∧
      Inv s' ∧ view s' = view s := by
  induction needle generalizing rest left j s with
  | nil =>
    cases left with
    | zero => exact absurd hleft (Nat.not_lt_zero _)
    | succ left =>
      obtain ⟨s₁, hrun, hkept⟩ := readByte_run hl hr hi hm (needleAddr+UInt16.ofNat j)
      have hbyte : m.byte (needleAddr+UInt16.ofNat j).toNat = some 0 := hneedle
      rw [hbyte] at hrun
      refine ⟨s₁, ?_, hkept⟩
      rw [strreplaceMatch, bind_of_ok hrun]
      rfl
  | cons c cs ih =>
    cases left with
    | zero => exact absurd hleft (Nat.not_lt_zero _)
    | succ left =>
      obtain ⟨s₁, hrun, hi₁, hv₁⟩ := readByte_run hl hr hi hm (needleAddr+UInt16.ofNat j)
      obtain ⟨s₂, hrun', hi₂, hv₂⟩ := readByte_run hl hr hi₁ (by rw [hv₁]; exact hm)
        (haystackAddr+UInt16.ofNat (i+j))
      rw [hneedle.1] at hrun
      rw [strreplaceMatch, bind_of_ok hrun]
      dsimp only
      rw [if_neg hneedle.2.1]
      cases rest with
      | nil =>
        have hbyte : m.byte (haystackAddr+UInt16.ofNat (i+j)).toNat = some 0 := hrest
        rw [hbyte] at hrun'
        refine ⟨s₂, ?_, hi₂, hv₂.trans hv₁⟩
        rw [bind_of_ok hrun']
        dsimp only
        rw [if_pos (Ne.symm hneedle.2.1)]
        rfl
      | cons d ds =>
        rw [hrest.1] at hrun'
        rw [bind_of_ok hrun']
        dsimp only
        by_cases hsame : d = c
        · have hneedle' := hneedle.2.2
          have hrest' := hrest.2.2
          rw [UInt16.add_assoc] at hneedle' hrest'
          obtain ⟨s', hgo, hi', hv'⟩ := ih left (j+1) hi₂ (by rw [hv₂, hv₁]; exact hm)
            (by rw [UInt16.ofNat_add]; exact hneedle')
            (by rw [← Nat.add_assoc, UInt16.ofNat_add]; exact hrest')
            (Nat.lt_of_succ_lt_succ hleft)
          refine ⟨s', ?_, hi', by rw [hv', hv₂, hv₁]⟩
          rw [if_neg (not_not.mpr hsame), hgo, List.isPrefixOf, hsame, beq_self_eq_true,
            Bool.true_and, List.length_cons, Nat.add_assoc, Nat.add_comm 1]
        · refine ⟨s₂, ?_, hi₂, hv₂.trans hv₁⟩
          have hdiffer : (c == d) = false := beq_false_of_ne (Ne.symm hsame)
          rw [if_pos hsame, List.isPrefixOf, hdiffer, Bool.false_and, if_neg Bool.false_ne_true]
          rfl

/-- The needle at `i` is replaced and the rest comes behind the replacement. -/
theorem edit_run (needle rest : List UInt8) (steps : ℕ) (hw : ReliableWrites F Inv view)
    (hg : Growable F Inv view largest paths.ram grants) (hsmall : largest ≤ 32768)
    (hroom : m.env.length+MemoryImage.envIndex+15 ≤ largest)
    (h : MemoryAt Inv view process paths procData s m) {haystackAddr replaceAddr : UInt16}
    {replacement : List UInt8} {i : ℕ}
    (hshort : replacement.length ≤ needle.length) (hpos : 0 < needle.length) (hno : 0 ∉ rest)
    (hregion : HasBytes m (haystackAddr.toNat+i) (needle++(rest++[0])))
    (hreplace : HasBytes m replaceAddr.toNat replacement)
    (hreplaceRegion : OneRegion m replaceAddr.toNat replacement.length)
    (hreplaceEnd : replaceAddr.toNat+replacement.length ≤ 65536)
    (hin : BytecodeMemoryRamAddr ≤ haystackAddr.toNat)
    (hend : haystackAddr.toNat+i+needle.length+rest.length+1 ≤ ProcManEnvVarsVirtualOffset)
    (hlast : haystackAddr.toNat-BytecodeMemoryRamAddr+i+needle.length+rest.length+1 ≤ m.ram.length)
    (htouch : replacement.length = needle.length →
      haystackAddr.toNat-BytecodeMemoryRamAddr+i+needle.length+rest.length+1 = m.ram.length →
      RoomToTouch grants m) (hsteps : rest.length < steps) :
    ∃ procData' s' m', strreplaceEdit F process procData haystackAddr replaceAddr
        replacement.length i needle.length steps s = .ok (.done procData', s') ∧
      MemoryAt Inv view process paths procData' s' m' ∧ m'.env.length = m.env.length ∧
      HasBytes m' (haystackAddr.toNat+i) (replacement++((rest++[0])++
        (needle++(rest++[0])).drop (replacement.length+(rest.length+1)))) ∧
      (∀ a b, a < haystackAddr.toNat+i ∨
        haystackAddr.toNat+i+needle.length+rest.length+1 ≤ a → m.byte a = some b →
        m'.byte a = some b) ∧
      (m'.ram.length = m.ram.length ∨ (replacement.length = needle.length ∧
        haystackAddr.toNat-BytecodeMemoryRamAddr+i+needle.length+rest.length+1 = m.ram.length ∧
          m'.ram.length = lenAfter grants m.env.length m.ram.length m.ram.length)) ∧
      procData'.regs = (procData.setReg 0 1).regs := by
  have hbase : BytecodeMemoryRamAddr = 32768 := rfl
  have hvirtual : ProcManEnvVarsVirtualOffset = 64512 := rfl
  have hstring : (rest++[(0 : UInt8)]).length = rest.length+1 := List.length_append
  obtain ⟨_, hrest⟩ := hasBytes_append.mp hregion
  have hplace : (haystackAddr+UInt16.ofNat i).toNat = haystackAddr.toNat+i := addr_nat (by omega)
  have hfrom : (haystackAddr+UInt16.ofNat (i+needle.length)).toNat =
      haystackAddr.toNat+(i+needle.length) := addr_nat (by omega)
  have hto : (haystackAddr+UInt16.ofNat (i+replacement.length)).toNat =
      haystackAddr.toNat+(i+replacement.length) := addr_nat (by omega)
  obtain ⟨procData₁, s₁, m₁, hmove₁, h₁, henv₁, hplaced, hkept₁, hram₁, hregs₁⟩ :=
    move_within hl hr hw hg hsmall hroom h (haystackAddr+UInt16.ofNat i) replaceAddr hreplace
      hreplaceRegion hreplaceEnd (by omega) (by omega) (by omega) (fun hfull => by omega)
  rw [hplace] at hplaced hkept₁ hram₁
  have hrest₁ : HasBytes m₁ (haystackAddr.toNat+i+needle.length) (rest++[0]) :=
    hasBytes_kept hrest hkept₁ (Or.inr (by omega))
  have hrest₁' : HasBytes m₁ (haystackAddr.toNat+(i+needle.length)) (rest++[0]) := by
    rw [← Nat.add_assoc]
    exact hrest₁
  have hlen₁ : m₁.ram.length = m.ram.length := by
    rcases hram₁ with hsame | ⟨hfull, _⟩
    · exact hsame
    · omega
  obtain ⟨s₂, hlength, hi₂, hv₂⟩ := strlen_run hl hr steps 0 h₁.inv h₁.memory
    (stringAt_hasBytes (hfrom ▸ hrest₁') hno (by omega)) hsteps
  have h₂ := memoryAt_view h₁ hi₂ hv₂
  have hsize : u16 (u16 (0+rest.length)+1) = (rest++[(0 : UInt8)]).length := by
    rw [Nat.zero_add, u16_of_lt (by omega : rest.length < 65536),
      u16_of_lt (by omega : rest.length+1 < 65536), hstring]
  rw [← henv₁] at hroom
  obtain ⟨procData', s', m', hmove, h', henv', hmoved, hkept, hram, hregs⟩ :=
    move_within hl hr hw hg hsmall hroom h₂ (haystackAddr+UInt16.ofNat (i+replacement.length))
      (haystackAddr+UInt16.ofNat (i+needle.length))
      (by rw [hfrom]; exact hrest₁') (Or.inr (Or.inl ⟨by omega, by omega⟩))
      (by omega) (by omega) (by omega) (by omega) (fun hfull => by
        have hroom₁ := htouch (by omega) (by omega)
        rw [RoomToTouch, henv₁, hlen₁]
        exact ⟨hroom₁.1, uncovered_same henv₁ hlen₁ hroom₁.2⟩)
  rw [hto, ← Nat.add_assoc] at hmoved hkept hram
  refine ⟨_, s', m', ?_, memoryAt_setReg h' 0 1, by rw [henv', henv₁], ?_, ?_, ?_, ?_⟩
  · rw [strreplaceEdit, bind_of_ok hmove₁]
    dsimp only
    rw [if_neg (by decide), procManProcessMemoryStrlen, bind_of_ok hlength]
    dsimp only
    rw [hsize, bind_of_ok hmove]
    rfl
  · apply hasBytes_append.mpr
    refine ⟨hasBytes_kept hplaced hkept (Or.inl (by omega)), hasBytes_append.mpr ⟨hmoved, ?_⟩⟩
    rw [hstring, Nat.add_assoc (haystackAddr.toNat+i)]
    exact hasBytes_kept (hasBytes_kept (hasBytes_drop hregion _) hkept₁ (Or.inr (by omega))) hkept
      (Or.inr (by omega))
  · intro a b hout hb
    exact hkept a b (by omega) (hkept₁ a b (by omega) hb)
  · rw [hlen₁, henv₁] at hram
    omega
  · rw [ProcManProcessProcData.setReg, ProcManProcessProcData.setReg, hregs, hregs₁]

theorem strreplaceLoop_run (hw : ReliableWrites F Inv view)
    (hg : Growable F Inv view largest paths.ram grants) (hsmall : largest ≤ 32768)
    {m₀ : MemoryImage} (hroom : m₀.env.length+MemoryImage.envIndex+15 ≤ largest)
    {haystackAddr needleAddr replaceAddr : UInt16} {size steps : ℕ}
    {needle replacement : List UInt8}
    (hstrings : Strings m₀ haystackAddr needleAddr replaceAddr size needle replacement)
    (hpos : 0 < needle.length) (hshort : replacement.length ≤ needle.length)
    (hin : BytecodeMemoryRamAddr ≤ haystackAddr.toNat)
    (hend : haystackAddr.toNat+size+1 ≤ ProcManEnvVarsVirtualOffset)
    (hlast : haystackAddr.toNat-BytecodeMemoryRamAddr+size+1 ≤ m₀.ram.length)
    (hsize : size < steps) (hneedle : needle.length < steps) (left : ℕ)
    {i : ℕ} {todo : List UInt8} (hno : 0 ∉ todo) (hi : i+todo.length ≤ size)
    (hleft : todo.length < left) {procData : ProcManProcessProcData} {m : MemoryImage} {s : φ}
    (h : MemoryAt Inv view process paths procData s m)
    (hedited : Edited grants m₀ m haystackAddr.toNat size)
    (hregion : HasBytes m (haystackAddr.toNat+i) (todo++[0]))
    (htouch : replacement.length = needle.length → needle <:+: todo →
      haystackAddr.toNat-BytecodeMemoryRamAddr+size+1 = m₀.ram.length →
      RoomToTouch grants m₀) :
    ∃ procData' s' m', strreplaceLoop F process haystackAddr needleAddr replaceAddr
        replacement.length steps procData i left s = .ok (.done procData', s') ∧
      MemoryAt Inv view process paths procData' s' m' ∧
      Edited grants m₀ m' haystackAddr.toNat size ∧
      Scanned m m' (haystackAddr.toNat+i) todo (rescan needle replacement left todo) ∧
      procData'.regs = if needle <:+: todo then (procData.setReg 0 1).regs else procData.regs := by
  have hbase : BytecodeMemoryRamAddr = 32768 := rfl
  have hvirtual : ProcManEnvVarsVirtualOffset = 64512 := rfl
  induction left generalizing i todo procData m s with
  | zero => exact absurd hleft (Nat.not_lt_zero _)
  | succ left ih =>
    have hplace : (haystackAddr+UInt16.ofNat i).toNat = haystackAddr.toNat+i :=
      addr_nat (by omega)
    obtain ⟨s₁, hread, hi₁, hv₁⟩ := readByte_run hl hr h.inv h.memory
      (haystackAddr+UInt16.ofNat i)
    have h₁ := memoryAt_view h hi₁ hv₁
    rw [hplace] at hread
    rw [strreplaceLoop, bind_of_ok hread]
    cases todo with
    | nil =>
      have hzero : m.byte (haystackAddr.toNat+i) = some 0 := hregion 0 (Nat.succ_pos _)
      rw [hzero]
      dsimp only
      rw [if_pos rfl]
      refine ⟨procData, s₁, m, rfl, h₁, hedited, ⟨⟨[], ?_, rfl⟩, hzero, fun _ _ _ hb => hb⟩, ?_⟩
      · exact hregion
      · have hnone : ¬ needle <:+: [] := by
          rw [List.infix_nil]
          exact List.ne_nil_of_length_pos hpos
        rw [if_neg hnone]
    | cons c cs =>
      have hhead : m.byte (haystackAddr.toNat+i) = some c := hregion 0 (Nat.succ_pos _)
      have hc : c ≠ 0 := fun hzero => hno (by simp [hzero])
      have hcs : 0 ∉ cs := fun hmem => hno (List.mem_cons_of_mem c hmem)
      rw [List.length_cons] at hi hleft
      rw [hhead]
      dsimp only
      rw [if_neg hc]
      have hstrings₁ := strings_edited hstrings hedited
      obtain ⟨s₂, hmatch, hi₂, hv₂⟩ := match_run hl hr steps i 0 hi₁ h₁.memory
        (by rw [addr_zero]; exact hstrings₁.needleAt)
        (by
          rw [Nat.add_zero]
          exact stringAt_hasBytes (hplace ▸ hregion) hno (by rw [List.length_cons]; omega))
        hneedle
      have h₂ := memoryAt_view h₁ hi₂ hv₂
      rw [bind_of_ok hmatch]
      cases hfound : needle.isPrefixOf (c::cs) with
      | false =>
        rw [if_neg Bool.false_ne_true, rescan_pass hfound]
        have hnot : ¬ needle <+: c::cs := fun hpre => by
          rw [List.isPrefixOf_iff_prefix.mpr hpre] at hfound
          cases hfound
        obtain ⟨procData', s', m', hrun, h', hedited', hscanned, hregs⟩ := ih hcs
          (by omega : i+1+cs.length ≤ size) (by omega) h₂ hedited
          (by rw [← Nat.add_assoc]; exact (hasBytes_cons.mp hregion).2)
          (fun hsame hinfix hfull => htouch hsame (List.infix_cons hinfix) hfull)
        refine ⟨procData', s', m', hrun, h', hedited', ?_, ?_⟩
        · refine scanned_cons (fun _ _ _ hb => hb) hregion (by rw [List.length_cons]; rfl) ?_ ?_
          · exact hasBytes_last hregion
          · rw [Nat.add_assoc]
            exact hscanned
        · have hsame : needle <:+: c::cs ↔ needle <:+: cs := by
            rw [List.infix_cons_iff, or_iff_right hnot]
          simp only [hregs, hsame]
      | true =>
        have hprefix : needle <+: c::cs := List.isPrefixOf_iff_prefix.mp hfound
        have hsplit : c::cs = needle++(c::cs).drop needle.length := prefix_split hfound
        rw [if_pos rfl, rescan, if_pos hfound, Nat.zero_add, if_pos hprefix.isInfix]
        generalize (c::cs).drop needle.length = rest at hsplit ⊢
        have hlen := congrArg List.length hsplit
        rw [List.length_append, List.length_cons] at hlen
        rw [hsplit, List.append_assoc] at hregion
        have henv := hedited.env
        have hram := edited_ram hedited
        have htouch₃ : replacement.length = needle.length →
            haystackAddr.toNat-BytecodeMemoryRamAddr+i+needle.length+rest.length+1 =
              m.ram.length → RoomToTouch grants m := by
          intro hsame hfull
          have hroom₀ := htouch hsame hprefix.isInfix (by omega)
          exact edited_touch hedited hlast (by omega) hroom₀
        obtain ⟨procData₃, s₃, m₃, hedit, h₃, henv₃, hregion₃, hothers₃, hram₃, hregs₃⟩ :=
          edit_run hl hr needle rest steps hw hg hsmall (by rw [henv]; exact hroom) h₂ hshort hpos
            (fun hmem => hno (by rw [hsplit]; exact List.mem_append_right _ hmem)) hregion
            (hasBytes_append.mp hstrings₁.replaceAt).1 hstrings₁.replaceRegion
            (Nat.le_of_lt hstrings₁.replaceEnd) hin (by omega) (by omega)
            htouch₃ (by omega)
        have hedited₃ : Edited grants m₀ m₃ haystackAddr.toNat size := by
          apply edited_step hedited (by omega : i+(needle.length+rest.length) ≤ size) hlast henv₃
          · intro a b hout hb
            exact hothers₃ a b (by omega) hb
          · rcases hram₃ with hsame | ⟨hshared, hfull, hgrown⟩
            · exact Or.inl hsame
            · exact Or.inr ⟨htouch hshared hprefix.isInfix (by omega), by omega, hgrown⟩
        have hagain : (procData₃.setReg 0 1).regs = (procData.setReg 0 1).regs := by
          rw [ProcManProcessProcData.setReg, hregs₃, ProcManProcessProcData.setReg]
          exact Function.update_idem _ _ _
        obtain ⟨tail, htail⟩ : ∃ tail, (needle++(rest++[0])).drop
            (replacement.length+(rest.length+1)) = tail := ⟨_, rfl⟩
        have htailLen := congrArg List.length htail
        rw [List.length_drop, List.length_append, List.length_append, List.length_singleton]
          at htailLen
        have hshape : replacement++((rest++[0])++tail) = (replacement++rest)++0::tail := by simp
        rw [htail, hshape] at hregion₃
        have hzero₃ : m₃.byte (haystackAddr.toNat+i+(cs.length+1)) = some 0 := by
          have hlast₃ := shifted_last rest hshort
          rw [htail, ← hlen] at hlast₃
          rw [hregion₃ _ (List.getElem?_eq_some_iff.mp hlast₃).1, hlast₃]
        dsimp only
        rw [bind_of_ok hedit]
        dsimp only
        cases htext : replacement++rest with
        | nil =>
          -- a terminator stands at `i`, and the scan goes on behind it
          obtain ⟨hnoReplacement, hnoRest⟩ := List.append_eq_nil_iff.mp htext
          rw [hnoRest, List.append_nil] at hsplit
          rw [htext, List.nil_append] at hregion₃
          rw [hnoReplacement, hnoRest, ← hsplit] at htail
          have htail' : cs++[0] = tail := htail
          have hnext := (hasBytes_cons.mp hregion₃).2
          rw [← htail', Nat.add_assoc] at hnext
          obtain ⟨procData', s', m', hrun, h', hedited', hscanned, hregs'⟩ := ih hcs
            (by omega : i+1+cs.length ≤ size) (by omega) h₃ hedited₃ hnext
            (fun hsame _ hfull => htouch hsame hprefix.isInfix hfull)
          refine ⟨procData', s', m', hrun, h', hedited', ?_, ?_⟩
          · rw [← Nat.add_assoc] at hscanned
            refine scanned_end ?_ (hasBytes_cons.mp hregion₃).1 rfl hscanned
            intro a b hout hb
            exact hothers₃ a b (by rw [List.length_cons] at hout; omega) hb
          · rw [hregs', hregs₃, hagain, ite_self]
        | cons y ys =>
          have htextLen := congrArg List.length htext
          rw [List.length_append, List.length_cons] at htextLen
          rw [htext, List.cons_append] at hregion₃
          have hys : 0 ∉ ys := by
            intro hmem
            have hmem' : 0 ∈ replacement++rest := by
              rw [htext]
              exact List.mem_cons_of_mem y hmem
            rcases List.mem_append.mp hmem' with hreplaced | hrest
            · exact hstrings₁.replaceChars hreplaced
            · exact hno (by rw [hsplit]; exact List.mem_append_right _ hrest)
          have hnext := (hasBytes_cons.mp hregion₃).2
          rw [← List.singleton_append, ← List.append_assoc, Nat.add_assoc] at hnext
          obtain ⟨procData', s', m', hrun, h', hedited', hscanned, hregs'⟩ := ih hys
            (by omega : i+1+ys.length ≤ size) (by omega) h₃ hedited₃ (hasBytes_append.mp hnext).1
            (fun hsame _ hfull => htouch hsame hprefix.isInfix hfull)
          refine ⟨procData', s', m', hrun, h', hedited', ?_, ?_⟩
          · rw [← Nat.add_assoc] at hscanned
            refine scanned_cons ?_ hregion₃ ?_ ?_ hscanned
            · intro a b hout hb
              exact hothers₃ a b (by rw [List.length_cons] at hout; omega) hb
            · rw [List.length_cons]
              omega
            · exact hzero₃
          · rw [hregs', hregs₃, hagain, ite_self]

/-- The syscall ends, and r0 tells whether the needle was there. The haystack
becomes what the scan makes of it. -/
theorem strreplace_run (hw : ReliableWrites F Inv view)
    (hg : Growable F Inv view largest paths.ram grants) (hsmall : largest ≤ 32768)
    (hroom : m.env.length+MemoryImage.envIndex+15 ≤ largest)
    (h : MemoryAt Inv view process paths procData s m)
    (haystack needle replacement : List UInt8) (hne : needle ≠ [])
    (hshort : replacement.length ≤ needle.length)
    (hhaystack : StringAt (ByteAt F process procData s) (procData.regs 1) haystack)
    (hneedle : StringAt (ByteAt F process procData s) (procData.regs 2) needle)
    (hreplacement : StringAt (ByteAt F process procData s) (procData.regs 3) replacement)
    (hin : BytecodeMemoryRamAddr ≤ (procData.regs 1).toNat)
    (hend : (procData.regs 1).toNat+haystack.length+1 ≤ ProcManEnvVarsVirtualOffset)
    (hlast : (procData.regs 1).toNat-BytecodeMemoryRamAddr+haystack.length+1 ≤ m.ram.length)
    (hneedleApart : ∀ k ≤ needle.length,
      (procData.regs 2+UInt16.ofNat k).toNat < (procData.regs 1).toNat ∨
        (procData.regs 1).toNat+haystack.length+1 ≤ (procData.regs 2+UInt16.ofNat k).toNat)
    (hreplaceRegion : OneRegion m (procData.regs 3).toNat replacement.length)
    (hreplaceEnd : (procData.regs 3).toNat+replacement.length < 65536)
    (hreplaceApart : (procData.regs 3).toNat+replacement.length < (procData.regs 1).toNat ∨
      (procData.regs 1).toNat+haystack.length+1 ≤ (procData.regs 3).toNat)
    (htouch : replacement.length = needle.length → needle <:+: haystack →
      (procData.regs 1).toNat-BytecodeMemoryRamAddr+haystack.length+1 = m.ram.length →
      RoomToTouch grants m)
    (steps : ℕ) (hsize : haystack.length < steps) (hneedleSize : needle.length < steps) :
    ∃ procData' s', strreplaceSyscall F process procData steps s = .ok (.done procData', s') ∧
      StringAt (ByteAt F process procData' s') (procData.regs 1)
        (rescan needle replacement steps haystack) ∧
      procData'.regs 0 = (if needle <:+: haystack then 1 else 0) ∧
      ∀ a b, a.toNat < (procData.regs 1).toNat ∨
        (procData.regs 1).toNat+haystack.length ≤ a.toNat →
        ByteAt F process procData s a b → ByteAt F process procData' s' a b := by
  have hvirtual : ProcManEnvVarsVirtualOffset = 64512 := rfl
  have hpos := List.length_pos_iff.mpr hne
  have hbyte : ByteAt F process procData s = fun a c => m.byte a.toNat = some c := by
    funext a c
    exact propext (byteAt_iff hl hr h.inv h.memory a c)
  rw [hbyte] at hhaystack hneedle hreplacement ⊢
  have hstrings : Strings m (procData.regs 1) (procData.regs 2) (procData.regs 3) haystack.length
      needle replacement :=
    ⟨hneedle, hneedleApart, hasBytes_stringAt hreplacement hreplaceEnd,
      stringAt_chars hreplacement, hreplaceRegion, hreplaceEnd, hreplaceApart⟩
  have hregion := hasBytes_stringAt hhaystack (by omega)
  obtain ⟨s₁, hlength, hi₁, hv₁⟩ := strlen_run hl hr steps 0 h.inv h.memory hreplacement
    (by omega)
  obtain ⟨procData', s', m', hrun, h', _, hscanned, hregs⟩ :=
    strreplaceLoop_run hl hr hw hg hsmall hroom hstrings hpos hshort hin hend hlast hsize
      hneedleSize steps (i := 0) (stringAt_chars hhaystack) (by omega) hsize
      (memoryAt_setReg (memoryAt_view h hi₁ hv₁) 0 0) (edited_refl grants m _ _) hregion htouch
  rw [Nat.add_zero] at hscanned
  have hbyte' : ByteAt F process procData' s' = fun a c => m'.byte a.toNat = some c := by
    funext a c
    exact propext (byteAt_iff hl hr h'.inv h'.memory a c)
  refine ⟨procData', s', ?_⟩
  rw [hbyte']
  refine ⟨?_, ?_, ?_, ?_⟩
  · rw [strreplaceSyscall, procManProcessMemoryStrlen, bind_of_ok hlength]
    dsimp only
    rw [Nat.zero_add, u16_of_lt (by omega)]
    exact hrun
  · obtain ⟨stale, hresult, hstale⟩ := hscanned.result
    rw [← List.singleton_append, ← List.append_assoc] at hresult
    refine stringAt_hasBytes (hasBytes_append.mp hresult).1 ?_ (by omega)
    intro hmem
    rcases mem_rescan hmem with hreplaced | hkept
    · exact stringAt_chars hreplacement hreplaced
    · exact stringAt_chars hhaystack hkept
  · rw [hregs]
    split <;> simp
  · intro a b hout hb
    by_cases hterminator : a.toNat = (procData.regs 1).toNat+haystack.length
    · have hzero := hasBytes_last hregion
      rw [← hterminator, hb] at hzero
      rw [Option.some.inj hzero, hterminator]
      exact hscanned.last
    · exact hscanned.others a.toNat b (by omega) hb

end Runs

/-! ### A shell that replaces -/

/-- The string "abb" in the RAM. -/
def replaceView (prog : List UInt8) : FsView :=
  (shellView prog).setFile shellPaths.ram (some [65, 0, 97, 98, 98, 0])

/-- The needle is at the start of the program and the replacement behind its two
characters and terminator. -/
def replaceData : ProcManProcessProcData :=
  ((shellData.setReg 1 32768).setReg 2 0).setReg 3 3

def replaceImage (prog : List UInt8) : MemoryImage := ⟨prog, [65, 0], [97, 98, 98, 0]⟩

theorem replace_memoryAt (prog : List UInt8) :
    MemoryAt FsView.Bounded id shellProcess shellPaths replaceData (replaceView prog)
      (replaceImage prog) where
  inv := shell_bounded prog
  memory :=
    { progFd := ⟨_, rfl, rfl, by decide⟩
      progFile := rfl
      ramFd := rfl
      ramFile := rfl
      envLen := rfl
      ramLen := rfl
      procFd := ⟨_, _, rfl, rfl, rfl⟩
      valid := by decide
      apart := by decide }
  owned := ⟨by decide, (shell_memoryAt prog).owned.alone⟩

theorem replace_room (prog : List UInt8) : RoomToTouch (fun _ => true) (replaceImage prog) := by
  refine ⟨rfl, fun o _ _ => ?_⟩
  have hlen : lenAfter (fun _ => true) (replaceImage prog).env.length
      (replaceImage prog).ram.length (replaceImage prog).ram.length = 19 := rfl
  have hwindow : MemoryImage.envIndex = 31744 := rfl
  omega

end ArduinoOS.Procman
