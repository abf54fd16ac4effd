import ArduinoOS.Procman.Memory

/-!
# The address space of a process as its files

Where an address lies in the file of the RAM, what a block of addresses reads,
and when a change of the file is a change of memory: the bytes written read
back, and no other block sees them.
-/

set_option autoImplicit false

namespace ArduinoOS.Procman
open ArduinoOS.Minifs

/-! ### Slices of a content -/

/-- A read that must find all its bytes. -/
def sliceOf (c : List UInt8) (offset len : ℕ) : Option (List UInt8) :=
  if min len (c.length-offset) = len then some ((c.drop offset).take len) else none

theorem sliceOf_some {content : List UInt8} {offset len : ℕ} {bytes : List UInt8} :
    sliceOf content offset len = some bytes ↔
      bytes.length = len ∧ ∀ k < len, content[offset+k]? = bytes[k]? := by
  rw [sliceOf]
  split
  case isTrue hfit =>
    have hlen : ((content.drop offset).take len).length = len := by
      rw [List.length_take, List.length_drop]
      exact hfit
    constructor
    · intro h
      cases h
      refine ⟨hlen, fun k hk => ?_⟩
      rw [List.getElem?_take, if_pos hk, List.getElem?_drop]
    · rintro ⟨hb, hk⟩
      congr 1
      apply List.ext_getElem?
      intro k
      by_cases hlt : k < len
      · rw [List.getElem?_take, if_pos hlt, List.getElem?_drop, hk k hlt]
      · rw [List.getElem?_eq_none (by omega), List.getElem?_eq_none (by omega)]
  case isFalse hfit =>
    constructor
    · intro h
      cases h
    · rintro ⟨hb, hk⟩
      exfalso
      have hlast := hk (len-1) (by omega)
      rw [List.getElem?_eq_getElem (l := bytes) (i := len-1) (by omega)] at hlast
      have hin := (List.getElem?_eq_some_iff.mp hlast).1
      omega

theorem sliceOf_isSome {c : List UInt8} {offset len : ℕ} (h : offset+len ≤ c.length) :
    ∃ bytes, sliceOf c offset len = some bytes := by
  refine ⟨_, if_pos ?_⟩
  omega

theorem sliceOf_bound {c : List UInt8} {offset len : ℕ} {bytes : List UInt8}
    (h : sliceOf c offset len = some bytes) (hlen : 0 < len) : offset+len ≤ c.length := by
  obtain ⟨hb, hk⟩ := sliceOf_some.mp h
  have hlast := hk (len-1) (by omega)
  rw [List.getElem?_eq_getElem (l := bytes) (i := len-1) (by omega)] at hlast
  have hin := (List.getElem?_eq_some_iff.mp hlast).1
  omega

theorem patch_getElem? {content : List UInt8} {offset : ℕ} {data : List UInt8}
    (h : data = [] ∨ offset+data.length ≤ content.length) (k : ℕ) :
    (patch content offset data)[k]? =
      if offset ≤ k ∧ k < offset+data.length then data[k-offset]? else content[k]? := by
  rcases h with rfl | h
  · simp [patch]
  · have htake : data.take (content.length-offset) = data := List.take_of_length_le (by omega)
    have hlen : (content.take offset).length = offset := by
      rw [List.length_take]
      omega
    rw [patch, htake]
    by_cases hbelow : k < offset
    · rw [List.getElem?_append_left (by omega), List.getElem?_take, if_pos hbelow,
        if_neg (by omega)]
    · rw [List.getElem?_append_right (by omega), hlen]
      by_cases hin : k < offset+data.length
      · rw [List.getElem?_append_left (by omega), if_pos (by omega)]
      · rw [List.getElem?_append_right (by omega), List.getElem?_drop, if_neg (by omega)]
        congr 1
        omega

/-! ### Addresses -/

/-- The program and the two parts of the RAM file. -/
structure MemoryImage where
  prog : List UInt8
  env : List UInt8
  ram : List UInt8

namespace MemoryImage

def file (m : MemoryImage) : List UInt8 := m.env++m.ram

/-- How far the environment variables lie above the start of the RAM. -/
def envIndex : ℕ := ProcManEnvVarsVirtualOffset-BytecodeMemoryRamAddr

/-- The offset in the RAM file that a read at this index goes to. -/
def offsetOf (m : MemoryImage) (index : ℕ) : Option ℕ :=
  if index < m.ram.length then some (m.env.length+index)
  else if envIndex ≤ index ∧ index-envIndex < m.env.length then some (index-envIndex)
  else none

/-- What a read of a block answers. -/
def block (m : MemoryImage) (addr len : ℕ) : Option (List UInt8) :=
  if addr+len < BytecodeMemoryRamAddr then sliceOf m.prog addr len
  else if BytecodeMemoryRamAddr ≤ addr then
    (m.offsetOf (addr-BytecodeMemoryRamAddr)).bind (fun offset => sliceOf m.file offset len)
  else none

theorem file_length (m : MemoryImage) : m.file.length = m.env.length+m.ram.length :=
  List.length_append

theorem file_ram (m : MemoryImage) (k : ℕ) : m.file[m.env.length+k]? = m.ram[k]? := by
  rw [file, List.getElem?_append_right (by omega)]
  congr 1
  omega

theorem offsetOf_ram {m : MemoryImage} {index : ℕ} (h : index < m.ram.length) :
    m.offsetOf index = some (m.env.length+index) := if_pos h

theorem offsetOf_env {m : MemoryImage} {index : ℕ} (h : m.ram.length ≤ index)
    (hlow : envIndex ≤ index) (hhigh : index-envIndex < m.env.length) :
    m.offsetOf index = some (index-envIndex) := by
  rw [offsetOf, if_neg (by omega), if_pos ⟨hlow, hhigh⟩]

theorem offsetOf_cases {m : MemoryImage} {index offset : ℕ} (h : m.offsetOf index = some offset) :
    (index < m.ram.length ∧ offset = m.env.length+index) ∨
      (m.ram.length ≤ index ∧ envIndex ≤ index ∧ index-envIndex < m.env.length ∧
        offset = index-envIndex) := by
  rw [offsetOf] at h
  split at h
  case isTrue hram =>
    cases h
    exact Or.inl ⟨hram, rfl⟩
  case isFalse hram =>
    split at h
    case isTrue henv =>
      exact Or.inr ⟨Nat.le_of_not_lt hram, henv.1, henv.2, (Option.some.inj h).symm⟩
    case isFalse => cases h

theorem block_prog {m : MemoryImage} {addr len : ℕ} (h : addr+len < BytecodeMemoryRamAddr) :
    m.block addr len = sliceOf m.prog addr len := if_pos h

theorem block_at {m : MemoryImage} {addr len offset : ℕ} (h : BytecodeMemoryRamAddr ≤ addr)
    (ho : m.offsetOf (addr-BytecodeMemoryRamAddr) = some offset) :
    m.block addr len = sliceOf m.file offset len := by
  rw [block, if_neg (by omega), if_pos h, ho]
  rfl

theorem block_cases {m : MemoryImage} {addr len : ℕ} {bytes : List UInt8}
    (h : m.block addr len = some bytes) :
    (addr+len < BytecodeMemoryRamAddr ∧ sliceOf m.prog addr len = some bytes) ∨
      ∃ offset, BytecodeMemoryRamAddr ≤ addr ∧
        m.offsetOf (addr-BytecodeMemoryRamAddr) = some offset ∧
        sliceOf m.file offset len = some bytes := by
  rw [block] at h
  split at h
  case isTrue hprog => exact Or.inl ⟨hprog, h⟩
  case isFalse =>
    split at h
    case isTrue hram =>
      obtain ⟨offset, ho, hs⟩ := Option.bind_eq_some_iff.mp h
      exact Or.inr ⟨offset, hram, ho, hs⟩
    case isFalse => cases h

/-- Beyond the environment variables and the RAM. -/
def Beyond (m : MemoryImage) (addr : ℕ) : Prop :=
  ProcManEnvVarsVirtualOffset+m.env.length ≤ addr ∧ BytecodeMemoryRamAddr+m.ram.length ≤ addr

theorem beyond_unreadable {m : MemoryImage} {addr len : ℕ} (h : m.Beyond addr) :
    m.block addr len = none := by
  have hbase : BytecodeMemoryRamAddr = 32768 := rfl
  have hwindow : envIndex = 31744 := rfl
  have hvirtual : ProcManEnvVarsVirtualOffset = 64512 := rfl
  have henv := h.1
  have hram := h.2
  cases hb : m.block addr len with
  | none => rfl
  | some bytes =>
    rcases block_cases hb with ⟨hprog, _⟩ | ⟨offset, hin, ho, _⟩
    · omega
    · rcases offsetOf_cases ho with ⟨hlt, _⟩ | ⟨_, _, hhigh, _⟩
      · omega
      · omega

/-- The bytes of a block are what their addresses read, but for those that a
block from the environment variables runs on to. -/
theorem block_byte {m : MemoryImage} {addr len k : ℕ} {bytes : List UInt8}
    (h : m.block addr len = some bytes) (hk : k < len) :
    m.block (addr+k) 1 = bytes[k]?.map (fun b => [b]) ∨ m.Beyond (addr+k) := by
  have hbase : BytecodeMemoryRamAddr = 32768 := rfl
  have hwindow : envIndex = 31744 := rfl
  have hvirtual : ProcManEnvVarsVirtualOffset = 64512 := rfl
  have hone : ∀ (c : List UInt8) offset, sliceOf c offset len = some bytes →
      sliceOf c (offset+k) 1 = bytes[k]?.map (fun b => [b]) := by
    intro c offset hs
    obtain ⟨hlen, hget⟩ := sliceOf_some.mp hs
    rw [List.getElem?_eq_getElem (l := bytes) (i := k) (by omega)]
    refine sliceOf_some.mpr ⟨rfl, fun j hj => ?_⟩
    have hzero : j = 0 := by omega
    rw [hzero, Nat.add_zero, hget k hk, List.getElem?_eq_getElem (l := bytes) (i := k) (by omega)]
    rfl
  have hfile := m.file_length
  rcases block_cases h with ⟨hprog, hs⟩ | ⟨offset, hin, ho, hs⟩
  · left
    rw [block_prog (by omega)]
    exact hone _ _ hs
  · have hbound := sliceOf_bound hs (by omega)
    have hnext : addr+k-BytecodeMemoryRamAddr = addr-BytecodeMemoryRamAddr+k := by omega
    rcases offsetOf_cases ho with ⟨hlt, hx⟩ | ⟨hge, hlow, hhigh, hx⟩
    · left
      have hnew : m.offsetOf (addr+k-BytecodeMemoryRamAddr) = some (offset+k) := by
        rw [hnext, offsetOf_ram (by omega), hx, Nat.add_assoc]
      rw [block_at (by omega) hnew]
      exact hone _ _ hs
    · by_cases hinside : offset+k < m.env.length
      · left
        have hsub : addr-BytecodeMemoryRamAddr+k-envIndex = offset+k := by omega
        have hnew : m.offsetOf (addr+k-BytecodeMemoryRamAddr) = some (offset+k) := by
          rw [hnext, offsetOf_env (by omega) (by omega) (by omega), hsub]
        rw [block_at (by omega) hnew]
        exact hone _ _ hs
      · right
        constructor
        · omega
        · omega

/-- Every block of the program is readable exactly when none ends at the RAM. -/
theorem prog_readable_iff (m : MemoryImage) :
    (∀ addr len, 0 < len → addr+len ≤ BytecodeMemoryRamAddr → addr+len ≤ m.prog.length →
      ∃ bytes, m.block addr len = some bytes) ↔ m.prog.length < BytecodeMemoryRamAddr := by
  constructor
  · intro h
    by_contra hlong
    obtain ⟨bytes, hb⟩ := h (BytecodeMemoryRamAddr-1) 1 (by decide) (by decide)
      (by simp only [BytecodeMemoryRamAddr] at *; omega)
    have hnone : m.block (BytecodeMemoryRamAddr-1) 1 = none := rfl
    rw [hnone] at hb
    cases hb
  · intro hshort addr len hlen hend hin
    rw [block_prog (by omega)]
    exact sliceOf_isSome hin

end MemoryImage

/-! ### Writes -/

open MemoryImage

/-- What memory promises of a write: the data reads back, blocks that do not
overlap it read as before, and no address stops being readable. -/
structure Remembers (m m' : MemoryImage) (addr : ℕ) (data : List UInt8) : Prop where
  readBack : m'.block addr data.length = some data
  frame : ∀ a len bytes, a < 65536 → a+len ≤ 65536 →
    (a+len ≤ addr ∨ addr+data.length ≤ a) →
    m.block a len = some bytes → m'.block a len = some bytes
  grows : ∀ a bytes, a < 65536 → m.block a 1 = some bytes → ∃ bytes', m'.block a 1 = some bytes'

/-- The RAM file is changed at one place only, and may have grown. -/
structure Patched (m m' : MemoryImage) (offset : ℕ) (data : List UInt8) : Prop where
  prog : m'.prog = m.prog
  env : m'.env.length = m.env.length
  ram : m.ram.length ≤ m'.ram.length
  inside : ∀ k < data.length, m'.file[offset+k]? = data[k]?
  outside : ∀ k < m.file.length, (k < offset ∨ offset+data.length ≤ k) →
    m'.file[k]? = m.file[k]?

variable {m m' : MemoryImage} {addr offset : ℕ} {data : List UInt8}

theorem patched_readBack (h : Patched m m' offset data) (ha : BytecodeMemoryRamAddr ≤ addr)
    (ho : m'.offsetOf (addr-BytecodeMemoryRamAddr) = some offset) :
    m'.block addr data.length = some data := by
  rw [block_at ha ho]
  exact sliceOf_some.mpr ⟨rfl, h.inside⟩

/-- A slice reads as before when the bytes written inside it are the old ones. -/
theorem patched_slice (h : Patched m m' offset data) {x len : ℕ} {bytes : List UInt8}
    (hs : sliceOf m.file x len = some bytes)
    (hsame : ∀ k < len, offset ≤ x+k → x+k < offset+data.length →
      data[x+k-offset]? = m.file[x+k]?) : sliceOf m'.file x len = some bytes := by
  obtain ⟨hlen, hk⟩ := sliceOf_some.mp hs
  refine sliceOf_some.mpr ⟨hlen, fun k hlt => ?_⟩
  rw [← hk k hlt]
  by_cases hin : offset ≤ x+k ∧ x+k < offset+data.length
  · have hi := h.inside (x+k-offset) (by omega)
    have hback : offset+(x+k-offset) = x+k := by omega
    rw [hback] at hi
    rw [hi]
    exact hsame k hlt hin.1 hin.2
  · have hbound := sliceOf_bound hs (by omega)
    exact h.outside (x+k) (by omega) (by omega)

theorem patched_grows (h : Patched m m' offset data) {a : ℕ} {bytes : List UInt8}
    (hb : m.block a 1 = some bytes) : ∃ bytes', m'.block a 1 = some bytes' := by
  rcases block_cases hb with ⟨hprog, hs⟩ | ⟨x, ha, ho, hs⟩
  · rw [block_prog hprog, h.prog]
    exact ⟨bytes, hs⟩
  · have henv := h.env
    have hram := h.ram
    have hfile := m'.file_length
    rcases offsetOf_cases ho with ⟨hin, _⟩ | ⟨_, hlow, hhigh, _⟩
    · rw [block_at ha (offsetOf_ram (by omega))]
      exact sliceOf_isSome (by omega)
    · by_cases hhidden : a-BytecodeMemoryRamAddr < m'.ram.length
      · rw [block_at ha (offsetOf_ram hhidden)]
        exact sliceOf_isSome (by omega)
      · rw [block_at ha (offsetOf_env (by omega) hlow (by omega))]
        exact sliceOf_isSome (by omega)

/-! ### When a write is a write of memory -/

/-- For bytes written into the RAM: those that a block starting in the
environment variables can reach, by running on beyond them, are the old ones. -/
def RamWriteStays (m : MemoryImage) (index : ℕ) (data : List UInt8) : Prop :=
  m.env.length ≤ m.ram.length-envIndex ∨ envIndex+m.env.length ≤ index+data.length ∨
    ∀ k < data.length, m.env.length+index+k < 1024 → index+k < m.ram.length →
      data[k]? = m.ram[index+k]?

/-- For bytes written through the window of the environment variables: the
window is where they are read, and those beyond it are the old ones. -/
def EnvWriteStays (m : MemoryImage) (index : ℕ) (data : List UInt8) : Prop :=
  (if index < m.ram.length then data = m.ram.drop index else index-envIndex < m.env.length) ∧
    ∀ k < data.length, m.env.length ≤ index-envIndex+k →
      data[k]? = m.ram[index-envIndex+k-m.env.length]?

variable {index : ℕ}

theorem ram_write_frame (h : Patched m m' (m.env.length+index) data)
    (hgoes : index+data.length < m.ram.length ∨ index < envIndex)
    (hshown : ∀ o < m.env.length, m.ram.length ≤ envIndex+o → index+data.length ≤ envIndex+o →
      m'.ram.length ≤ envIndex+o)
    (hstays : RamWriteStays m index data) {a len : ℕ} {bytes : List UInt8}
    (hend : a+len ≤ 65536)
    (hdis : a+len ≤ BytecodeMemoryRamAddr+index ∨
      BytecodeMemoryRamAddr+index+data.length ≤ a)
    (hb : m.block a len = some bytes) : m'.block a len = some bytes := by
  have hbase : BytecodeMemoryRamAddr = 32768 := rfl
  have hwindow : envIndex = 31744 := rfl
  have henv := h.env
  have hram := h.ram
  rcases block_cases hb with ⟨hprog, hs⟩ | ⟨x, ha, ho, hs⟩
  · rw [block_prog hprog, h.prog]
    exact hs
  · rcases offsetOf_cases ho with ⟨hin, hx⟩ | ⟨hbeyond, hlow, hhigh, hx⟩
    · -- a block of the RAM: it lies apart from the write in the file too
      rw [hx] at hs
      rw [block_at ha (offsetOf_ram (by omega)), h.env]
      exact patched_slice h hs (fun k hk hge hlt => by omega)
    · rw [hx] at hs
      have hshow := hshown (a-BytecodeMemoryRamAddr-envIndex) hhigh (by omega) (by omega)
      rw [block_at ha (offsetOf_env (by omega) hlow (by omega))]
      refine patched_slice h hs (fun k hk hge hlt => ?_)
      have hbound := sliceOf_bound hs (by omega)
      have hlen := m.file_length
      rcases hstays with hall | hall | hall
      · omega
      · omega
      · have hold := hall (a-BytecodeMemoryRamAddr-envIndex+k-(m.env.length+index)) (by omega)
          (by omega) (by omega)
        have hpos : m.env.length+(index+(a-BytecodeMemoryRamAddr-envIndex+k-
            (m.env.length+index))) = a-BytecodeMemoryRamAddr-envIndex+k := by omega
        rw [hold, ← file_ram, hpos]

theorem ram_write_stays (h : Patched m m' (m.env.length+index) data)
    (hfits : index+data.length < m'.ram.length)
    (hshown : ∀ o < m.env.length, m.ram.length ≤ envIndex+o → index+data.length ≤ envIndex+o →
      m'.ram.length ≤ envIndex+o)
    (hr : Remembers m m' (BytecodeMemoryRamAddr+index) data) : RamWriteStays m index data := by
  have hbase : BytecodeMemoryRamAddr = 32768 := rfl
  have hwindow : envIndex = 31744 := rfl
  have hlen := m.file_length
  by_cases hhidden : m.env.length ≤ m.ram.length-envIndex
  · exact Or.inl hhidden
  by_cases hover : envIndex+m.env.length ≤ index+data.length
  · exact Or.inr (Or.inl hover)
  refine Or.inr (Or.inr (fun k hk hreach hold => ?_))
  -- the block from the first visible variable up to the byte written
  have hapart : index+data.length ≤ envIndex+(m.ram.length-envIndex) := by
    by_contra hnot
    have hbad := hshown (index+data.length-envIndex) (by omega) (by omega) (by omega)
    omega
  have hfirst : m.offsetOf (envIndex+(m.ram.length-envIndex)) =
      some (m.ram.length-envIndex) := by
    rw [offsetOf_env (by omega) (by omega) (by omega), Nat.add_sub_cancel_left]
  obtain ⟨bytes, hs⟩ : ∃ bytes, sliceOf m.file (m.ram.length-envIndex)
      (m.env.length+index+k+1-(m.ram.length-envIndex)) = some bytes :=
    sliceOf_isSome (by omega)
  have hback : BytecodeMemoryRamAddr+(envIndex+(m.ram.length-envIndex))-BytecodeMemoryRamAddr =
      envIndex+(m.ram.length-envIndex) := Nat.add_sub_cancel_left _ _
  have hblock : m.block (BytecodeMemoryRamAddr+(envIndex+(m.ram.length-envIndex)))
      (m.env.length+index+k+1-(m.ram.length-envIndex)) = some bytes := by
    rw [block_at (Nat.le_add_right _ _) (by rw [hback]; exact hfirst)]
    exact hs
  have hafter := hr.frame _ _ bytes (by omega) (by omega) (by omega) hblock
  have hshow := hshown (m.ram.length-envIndex) (by omega) (by omega) (by omega)
  have henv := h.env
  have hfirst' : m'.offsetOf (envIndex+(m.ram.length-envIndex)) =
      some (m.ram.length-envIndex) := by
    rw [offsetOf_env (by omega) (by omega) (by omega), Nat.add_sub_cancel_left]
  rw [block_at (by omega) (by rw [hback]; exact hfirst')] at hafter
  have hlast := (sliceOf_some.mp hs).2 (m.env.length+index+k-(m.ram.length-envIndex)) (by omega)
  have hlast' := (sliceOf_some.mp hafter).2 (m.env.length+index+k-(m.ram.length-envIndex))
    (by omega)
  have hpos : m.ram.length-envIndex+(m.env.length+index+k-(m.ram.length-envIndex)) =
      m.env.length+(index+k) := by omega
  rw [hpos] at hlast hlast'
  rw [← file_ram, hlast, ← hlast', ← Nat.add_assoc]
  exact (h.inside k hk).symm

theorem remembers_ram_iff (h : Patched m m' (m.env.length+index) data)
    (hfits : index+data.length < m'.ram.length)
    (hgoes : index+data.length < m.ram.length ∨ index < envIndex)
    (hshown : ∀ o < m.env.length, m.ram.length ≤ envIndex+o → index+data.length ≤ envIndex+o →
      m'.ram.length ≤ envIndex+o) :
    Remembers m m' (BytecodeMemoryRamAddr+index) data ↔ RamWriteStays m index data := by
  constructor
  · exact ram_write_stays h hfits hshown
  · intro hstays
    refine ⟨?_, fun a len bytes _ hend hdis hb => ram_write_frame h hgoes hshown hstays hend hdis hb,
      fun a bytes _ hb => patched_grows h hb⟩
    apply patched_readBack h (by omega)
    rw [Nat.add_sub_cancel_left, offsetOf_ram (by omega), h.env]

/-- A write at the end of a RAM that lies over the window is read from the RAM. -/
theorem env_write_hidden (h : Patched m m' (index-envIndex) data) (hlow : envIndex ≤ index)
    (hend : m.ram.length ≤ index+data.length) (hsame : m'.ram.length = m.ram.length)
    (hsmall : m.file.length ≤ 32768) (hin : index < m.ram.length) :
    m'.block (BytecodeMemoryRamAddr+index) data.length = some data ↔
      data = m.ram.drop index := by
  have hwindow : envIndex = 31744 := rfl
  have henv := h.env
  have hlen := m.file_length
  have hback : BytecodeMemoryRamAddr+index-BytecodeMemoryRamAddr = index :=
    Nat.add_sub_cancel_left _ _
  have ho : m'.offsetOf index = some (m.env.length+index) := by
    rw [offsetOf_ram (by omega), h.env]
  rw [block_at (Nat.le_add_right _ _) (by rw [hback]; exact ho)]
  -- the bytes read lie beyond those that were written
  have hold : index+data.length = m.ram.length → ∀ k < data.length,
      m'.file[m.env.length+index+k]? = m.ram[index+k]? := by
    intro hexact k hk
    rw [h.outside _ (by omega) (by omega), Nat.add_assoc, file_ram]
  constructor
  · intro hs
    obtain ⟨_, hk⟩ := sliceOf_some.mp hs
    have hbound := sliceOf_bound hs (by omega)
    have hlen' := m'.file_length
    apply List.ext_getElem?
    intro k
    rw [List.getElem?_drop]
    by_cases hlt : k < data.length
    · rw [← hk k hlt]
      exact hold (by omega) k hlt
    · rw [List.getElem?_eq_none (by omega), List.getElem?_eq_none (by omega)]
  · intro hdata
    have hexact : data.length = m.ram.length-index := by
      rw [hdata, List.length_drop]
    refine sliceOf_some.mpr ⟨rfl, fun k hk => ?_⟩
    rw [hold (by omega) k hk, ← List.getElem?_drop, ← hdata]

theorem env_write_frame (h : Patched m m' (index-envIndex) data) (hlow : envIndex ≤ index)
    (hsame : m'.ram.length = m.ram.length)
    (hbeyond : ∀ k < data.length, m.env.length ≤ index-envIndex+k →
      data[k]? = m.ram[index-envIndex+k-m.env.length]?) {a len : ℕ} {bytes : List UInt8}
    (hdis : a+len ≤ BytecodeMemoryRamAddr+index ∨
      BytecodeMemoryRamAddr+index+data.length ≤ a)
    (hb : m.block a len = some bytes) : m'.block a len = some bytes := by
  have hwindow : envIndex = 31744 := rfl
  have hbase : BytecodeMemoryRamAddr = 32768 := rfl
  have henv := h.env
  have hreach : ∀ x, index-envIndex ≤ x → x < index-envIndex+data.length → m.env.length ≤ x →
      data[x-(index-envIndex)]? = m.file[x]? := by
    intro x hge hlt hx
    have hpos : index-envIndex+(x-(index-envIndex)) = x := by omega
    rw [hbeyond _ (by omega) (by omega), hpos, ← file_ram, Nat.add_sub_cancel' hx]
  rcases block_cases hb with ⟨hprog, hs⟩ | ⟨x, ha, ho, hs⟩
  · rw [block_prog hprog, h.prog]
    exact hs
  · rcases offsetOf_cases ho with ⟨hin, hx⟩ | ⟨hout, hwin, hhigh, hx⟩
    · rw [hx] at hs
      rw [block_at ha (offsetOf_ram (by omega)), h.env]
      exact patched_slice h hs (fun k hk hge hlt => hreach _ hge hlt (by omega))
    · rw [hx] at hs
      rw [block_at ha (offsetOf_env (by omega) hwin (by omega))]
      refine patched_slice h hs (fun k hk hge hlt => hreach _ hge hlt ?_)
      omega

theorem remembers_env_iff (h : Patched m m' (index-envIndex) data) (hlow : envIndex ≤ index)
    (hend : m.ram.length ≤ index+data.length) (hsame : m'.ram.length = m.ram.length)
    (hfits : data = [] ∨ index-envIndex+data.length ≤ m.file.length)
    (hsmall : m.file.length ≤ 32768) :
    Remembers m m' (BytecodeMemoryRamAddr+index) data ↔ EnvWriteStays m index data := by
  have hwindow : envIndex = 31744 := rfl
  have hbase : BytecodeMemoryRamAddr = 32768 := rfl
  have hlen := m.file_length
  have henv := h.env
  have hback : BytecodeMemoryRamAddr+index-BytecodeMemoryRamAddr = index :=
    Nat.add_sub_cancel_left _ _
  have hread : m'.block (BytecodeMemoryRamAddr+index) data.length = some data ↔
      if index < m.ram.length then data = m.ram.drop index
      else index-envIndex < m.env.length := by
    split
    case isTrue hin => exact env_write_hidden h hlow hend hsame hsmall hin
    case isFalse hin =>
      constructor
      · intro hb
        rcases block_cases hb with ⟨hprog, _⟩ | ⟨x, _, ho, _⟩
        · omega
        · rw [hback] at ho
          rcases offsetOf_cases ho with ⟨hram, _⟩ | ⟨_, _, hhigh, _⟩
          · omega
          · omega
      · intro hhigh
        apply patched_readBack h (Nat.le_add_right _ _)
        rw [hback]
        exact offsetOf_env (by omega) hlow (by omega)
  constructor
  · intro hr
    refine ⟨hread.mp hr.readBack, fun k hk hge => ?_⟩
    -- the byte of the RAM that the write reaches, read on its own
    have hin : index-envIndex+k-m.env.length < m.ram.length := by
      rcases hfits with rfl | hfits
      · cases hk
      · omega
    have hapart : index-envIndex+k-m.env.length < index := by
      have hwhere := hread.mp hr.readBack
      split at hwhere
      case isTrue hram =>
        have hexact : data.length = m.ram.length-index := by
          rw [hwhere, List.length_drop]
        omega
      case isFalse hram => omega
    have hback' : BytecodeMemoryRamAddr+(index-envIndex+k-m.env.length)-BytecodeMemoryRamAddr =
        index-envIndex+k-m.env.length := Nat.add_sub_cancel_left _ _
    have hpos : m.env.length+(index-envIndex+k-m.env.length) = index-envIndex+k := by omega
    obtain ⟨bytes, hs⟩ : ∃ bytes, sliceOf m.file (index-envIndex+k) 1 = some bytes :=
      sliceOf_isSome (by omega)
    have hbefore : m.block (BytecodeMemoryRamAddr+(index-envIndex+k-m.env.length)) 1 =
        some bytes := by
      rw [block_at (Nat.le_add_right _ _) (by rw [hback']; exact offsetOf_ram hin), hpos]
      exact hs
    have hafter := hr.frame _ 1 bytes (by omega) (by omega) (by omega) hbefore
    rw [block_at (Nat.le_add_right _ _)
      (by rw [hback']; exact offsetOf_ram (hsame ▸ hin)), h.env, hpos] at hafter
    have hold := (sliceOf_some.mp hs).2 0 (by decide)
    have hnew := (sliceOf_some.mp hafter).2 0 (by decide)
    rw [Nat.add_zero] at hold hnew
    rw [← file_ram, hpos, hold, ← hnew]
    exact (h.inside k hk).symm
  · rintro ⟨hwhere, hbeyond⟩
    exact ⟨hread.mpr hwhere, fun a len bytes _ _ hdis hb =>
      env_write_frame h hlow hsame hbeyond hdis hb, fun a bytes _ hb => patched_grows h hb⟩

end ArduinoOS.Procman
