import ArduinoOS.Kernel.Streams
import ArduinoOS.Procman.Compare
import ArduinoOS.Procman.Transfer

/-!
# Reads and writes as one transfer

What a descriptor leads to is a stream: content with a place for each byte, or
the queue of a circular buffer. A process that reads or writes it in blocks gets
what one call for the whole length would give.
-/

set_option autoImplicit false

namespace ArduinoOS.Procman
open ArduinoOS.Faulting ArduinoOS.Kernel ArduinoOS.Minifs

/-! ### Streams behind descriptors -/

/-- The first offset that 32 bits do not hold. -/
def offsetLimit : ℕ := 4294967296

/-- The descriptor carries this stream. -/
def Carrying {φ : Type} (Inv : φ → Prop) (carries : φ → Stream UInt8 → Prop) (t : Stream UInt8)
    (s : φ) : Prop := Inv s ∧ carries s t

/-- The accesses of one transfer at `offset` go to the stream that the descriptor
carries. The files of the process, which the view shows, are others. -/
structure StreamLaw {φ : Type} (F : Files φ) (Inv : φ → Prop) (view : φ → FsView)
    (carries : φ → Stream UInt8 → Prop) (largest fd : ℕ) (e : OpenFile) (offset len : ℕ) :
    Prop where
  files : ∀ t, FilesLaw F (Carrying Inv carries t) view largest
  fits : ∀ s t, Carrying Inv carries t s → t.Fits offsetLimit
  read : ∀ s t i n, Carrying Inv carries t s → (view s).fd fd = some e →
    e.mode &&& KernelFsFdModeRO ≠ 0 → i+n ≤ len → t.Reaches offsetLimit (offset+i) →
    ∃ s', F.kernelFsFileReadOffset fd (u32 (offset+i)) n s =
        .ok (((t.read (offset+i) n).1, (t.read (offset+i) n).1.length), s') ∧
      Carrying Inv carries (t.read (offset+i) n).2 s' ∧ view s' = view s
  write : ∀ s t i data, Carrying Inv carries t s → (view s).fd fd = some e →
    e.mode &&& KernelFsFdModeWO ≠ 0 → i+data.length ≤ len → t.Reaches offsetLimit (offset+i) →
    ∃ s', F.kernelFsFileWriteOffset fd (u32 (offset+i)) data s =
        .ok ((t.write (offset+i) data).1, s') ∧
      Carrying Inv carries (t.write (offset+i) data).2 s' ∧ view s' = view s

section Carried

variable {φ : Type} {F : Files φ} {Inv Inv' : φ → Prop} {view : φ → FsView}

theorem reliableReads_mono (h : ReliableReads F Inv view) (hle : ∀ s, Inv' s → Inv s) :
    ReliableReads F Inv' view :=
  ⟨fun s fd offset len e c hi => h.read s fd offset len e c (hle s hi)⟩

theorem reliableWrites_mono (h : ReliableWrites F Inv view) (hle : ∀ s, Inv' s → Inv s) :
    ReliableWrites F Inv' view :=
  ⟨fun s fd offset data e c hi => h.write s fd offset data e c (hle s hi)⟩

theorem growable_mono {largest : ℕ} {path : CStr} {grants : ℕ → Bool}
    (h : Growable F Inv view largest path grants) (hle : ∀ s, Inv' s → Inv s) :
    Growable F Inv' view largest path grants where
  getFilePath s fd hi := h.getFilePath s fd (hle s hi)
  close s fd e hi := h.close s fd e (hle s hi)
  resize s n c hi := h.resize s n c (hle s hi)
  openFile s c fd hi := h.openFile s c fd (hle s hi)

end Carried

/-! ### Blocks that arrive -/

theorem blockEnds_done {place : ℕ → ℕ → ℕ} {size i : ℕ} (h : size ≤ i) (left : ℕ) :
    blockEnds place size i left = [] := by
  cases left with
  | zero => rfl
  | succ left => rw [blockEnds, if_pos h]

/-- The length of the RAM after `n` of the `len` bytes asked for have arrived. -/
def arrivedLength (grants : ℕ → Bool) (m : MemoryImage) (bufAddr : UInt16) (len n : ℕ) : ℕ :=
  ((blockEnds forwards n 0 len).map (bufAddr.toNat-BytecodeMemoryRamAddr+·)).foldl
    (lenAfter grants m.env.length) m.ram.length

/-- The buffer ends below the window of the environment variables, or inside
the RAM as it is. -/
def RamBuffer (m : MemoryImage) (addr len : ℕ) : Prop :=
  BytecodeMemoryRamAddr ≤ addr ∧ (addr+len ≤ ProcManEnvVarsVirtualOffset ∨
    addr-BytecodeMemoryRamAddr+len < m.ram.length)

/-- A buffer that can be written: it ends below the window of the environment
variables, or lies where its bytes are read. -/
def ReadBuffer (m : MemoryImage) (addr len : ℕ) : Prop :=
  BytecodeMemoryRamAddr ≤ addr ∧ (addr+len ≤ ProcManEnvVarsVirtualOffset ∨
    m.InPlace (addr-BytecodeMemoryRamAddr) len)

theorem arrivedLength_inside {grants : ℕ → Bool} {m : MemoryImage} {bufAddr : UInt16} {len n : ℕ}
    (hn : n ≤ len) (h : bufAddr.toNat-BytecodeMemoryRamAddr+len < m.ram.length) :
    arrivedLength grants m bufAddr len n = m.ram.length := by
  have hends : ∀ e ∈ (blockEnds forwards n 0 len).map (bufAddr.toNat-BytecodeMemoryRamAddr+·),
      e ≤ bufAddr.toNat-BytecodeMemoryRamAddr+len := by
    intro e he
    obtain ⟨o, ho, rfl⟩ := List.mem_map.mp he
    have hle := blockEnds_le (fun i c hc => hc) 0 len o ho
    omega
  rcases lenAfter_fold hends (Nat.le_of_lt h) (Or.inl rfl) with hsame | ⟨hfull, _⟩
  · exact hsame
  · omega

section Runs

variable {φ : Type} {F : Files φ} {Inv : φ → Prop} {view : φ → FsView}
  {carries : φ → Stream UInt8 → Prop} {largest fd offset len : ℕ} {grants : ℕ → Bool}
  {process : ProcManProcess} {paths : ProcessPaths} {e : OpenFile}

/-- A block is written into a buffer in the RAM. -/
theorem ramBlock_run (hl : FilesLaw F Inv view largest) (hw : ReliableWrites F Inv view)
    (hg : Growable F Inv view largest paths.ram grants) (hsmall : largest ≤ 32768)
    {procData : ProcManProcessProcData} {s : φ} {m : MemoryImage} {addr : UInt16}
    {data : List UInt8} (hpos : 0 < data.length)
    (h : MemoryAt Inv view process paths procData s m)
    (hbuffer : RamBuffer m addr.toNat data.length)
    (hroom : m.env.length+MemoryImage.envIndex+15 ≤ largest)
    (hgrant : GrantsFor grants m (addr.toNat-BytecodeMemoryRamAddr) data.length) :
    ∃ procData' s' m', procManProcessMemoryWriteBlock F process procData addr data s =
        .ok ((true, procData'), s') ∧ MemoryAt Inv view process paths procData' s' m' ∧
      Beside (view s) (view s') paths ∧
      Patched m m' (m.env.length+(addr.toNat-BytecodeMemoryRamAddr)) data ∧
      m'.ram.length = lenAfter grants m.env.length m.ram.length
        (addr.toNat-BytecodeMemoryRamAddr+data.length) ∧
      procData'.regs = procData.regs := by
  have hbase : BytecodeMemoryRamAddr = 32768 := rfl
  have hwindow : MemoryImage.envIndex = 31744 := rfl
  have hvirtual : ProcManEnvVarsVirtualOffset = 64512 := rfl
  obtain ⟨hin, hbelow | hinside⟩ := hbuffer
  · exact ramWrite_run hl addr data hw hg hsmall h hin (by omega) (by omega) (fun hbeyond => by
      rw [Nat.add_assoc]
      exact hgrant _ (Nat.le_refl _) hbeyond)
  · obtain ⟨s', m', hrun, hi', hm', howned, hbeside, hpatched, hlength⟩ :=
      ramWrite_inside hl hw h.inv h.memory h.owned hin hinside
    refine ⟨procData, s', m', hrun, ⟨hi', hm', howned⟩, hbeside, hpatched, ?_, rfl⟩
    rw [lenAfter, if_pos hinside, hlength]

theorem readBlocks_done {procData : ProcManProcessProcData} {s : φ} {bufAddr : UInt16} {i : ℕ}
    (h : len ≤ i) (left : ℕ) : readBlocks F process fd offset bufAddr len procData i left s =
      .ok ((some i, procData), s) := by
  cases left with
  | zero => rfl
  | succ left =>
    rw [readBlocks, if_pos h]
    rfl

variable (hs : StreamLaw F Inv view carries largest fd e offset len)

include hs

/-- One block is taken from the stream. -/
theorem streamRead_run {s : φ} {t : Stream UInt8} (hfd : (view s).fd fd = some e)
    (hmode : e.mode &&& KernelFsFdModeRO ≠ 0) {procData : ProcManProcessProcData}
    {m : MemoryImage} {i n : ℕ}
    (h : MemoryAt (Carrying Inv carries t) view process paths procData s m) (hin : i+n ≤ len)
    (hreach : t.Reaches offsetLimit (offset+i)) :
    ∃ s', F.kernelFsFileReadOffset fd (u32 (offset+i)) n s =
        .ok (((t.read (offset+i) n).1, (t.read (offset+i) n).1.length), s') ∧
      MemoryAt (Carrying Inv carries (t.read (offset+i) n).2) view process paths procData s' m ∧
      view s' = view s := by
  obtain ⟨s', hrun, hi', hv⟩ := hs.read s t i n h.inv hfd hmode hin hreach
  exact ⟨s', hrun, ⟨hi', hv.symm ▸ h.memory, hv.symm ▸ h.owned⟩, hv⟩

/-- The loop from `i` on leaves in the RAM what one read of the rest gives. -/
theorem readBlocks_run (hvalid : fd ≠ KernelFsFdInvalid) (hapart : e.path ≠ paths.ram)
    (hmode : e.mode &&& KernelFsFdModeRO ≠ 0) (hw : ReliableWrites F Inv view)
    (hg : Growable F Inv view largest paths.ram grants) (hsmall : largest ≤ 32768)
    {m : MemoryImage} {bufAddr : UInt16} (hend : bufAddr.toNat+len ≤ 65536)
    (hbuffer : RamBuffer m bufAddr.toNat len)
    (hroom : m.env.length+MemoryImage.envIndex+15 ≤ largest)
    (hgrant : GrantsFor grants m (bufAddr.toNat-BytecodeMemoryRamAddr) len) (left i : ℕ)
    (hleft : len ≤ i+left) (hi : i ≤ len) {procData₁ : ProcManProcessProcData} {s₁ : φ}
    {m₁ : MemoryImage} {t : Stream UInt8} {done : List UInt8} (hdone : done.length = i)
    (h : MemoryAt (Carrying Inv carries t) view process paths procData₁ s₁ m₁)
    (hfd : (view s₁).fd fd = some e)
    (hp : Patched m m₁ (m.env.length+(bufAddr.toNat-BytecodeMemoryRamAddr)) done)
    (hin : ∀ k < i, m.env.length+(bufAddr.toNat-BytecodeMemoryRamAddr)+k < m₁.file.length)
    (hreach : t.Reaches offsetLimit (offset+i)) :
    ∃ procData' s' m', readBlocks F process fd offset bufAddr len procData₁ i left s₁ =
        .ok ((some (i+(t.read (offset+i) (len-i)).1.length), procData'), s') ∧
      MemoryAt (Carrying Inv carries (t.read (offset+i) (len-i)).2) view process paths procData' s'
        m' ∧
      Patched m m' (m.env.length+(bufAddr.toNat-BytecodeMemoryRamAddr))
        (done++(t.read (offset+i) (len-i)).1) ∧
      m'.ram.length = ((blockEnds forwards (i+(t.read (offset+i) (len-i)).1.length) i left).map
        (bufAddr.toNat-BytecodeMemoryRamAddr+·)).foldl (lenAfter grants m.env.length)
          m₁.ram.length ∧
      procData'.regs = procData₁.regs := by
  have hbase : BytecodeMemoryRamAddr = 32768 := rfl
  induction left generalizing i procData₁ s₁ m₁ t done with
  | zero =>
    have hall : len-i = 0 := by omega
    rw [hall, Stream.read_zero, List.append_nil]
    exact ⟨procData₁, s₁, m₁, rfl, h, hp, rfl, rfl⟩
  | succ left ih =>
    by_cases hfull : len ≤ i
    · have hall : len-i = 0 := by omega
      rw [hall, Stream.read_zero, List.append_nil, readBlocks, if_pos hfull, List.length_nil,
        Nat.add_zero, blockEnds_done (Nat.le_refl i)]
      exact ⟨procData₁, s₁, m₁, rfl, h, hp, rfl, rfl⟩
    obtain ⟨n, hn⟩ : ∃ n, min (len-i) 256 = n := ⟨_, rfl⟩
    obtain ⟨rest, hrest⟩ : ∃ rest, len-i = n+rest := ⟨len-i-n, by omega⟩
    obtain ⟨s₂, hread, h₂, hv₂⟩ := streamRead_run hs hfd hmode h (by omega : i+n ≤ len) hreach
    have hcount := t.read_length (offset+i) n
    rw [readBlocks, if_neg hfull, hn, bind_of_ok hread]
    dsimp only
    by_cases hnone : (t.read (offset+i) n).1.length = 0
    · have hshort := t.read_short (offset+i) rest (by omega : (t.read (offset+i) n).1.length < n)
      rw [hrest, hshort, if_pos hnone, List.eq_nil_of_length_eq_zero hnone, List.append_nil,
        List.length_nil, Nat.add_zero, blockEnds_done (Nat.le_refl i)]
      exact ⟨procData₁, s₂, m₁, rfl, h₂, hp, rfl, rfl⟩
    have hto : (bufAddr+UInt16.ofNat i).toNat = bufAddr.toNat+i := addr_nat (by omega)
    have hindex : bufAddr.toNat+i-BytecodeMemoryRamAddr = bufAddr.toNat-BytecodeMemoryRamAddr+i := by
      have := hbuffer.1
      omega
    have hblock : RamBuffer m₁ (bufAddr+UInt16.ofNat i).toNat (t.read (offset+i) n).1.length := by
      have hram := hp.ram
      rw [hto]
      obtain ⟨hlow, hbelow | hinside⟩ := hbuffer
      · exact ⟨by omega, Or.inl (by omega)⟩
      · exact ⟨by omega, Or.inr (by omega)⟩
    have hsizes : GrantsFor grants m₁ ((bufAddr+UInt16.ofNat i).toNat-BytecodeMemoryRamAddr)
        (t.read (offset+i) n).1.length := by
      intro e he hbeyond
      rw [hto, hindex, Nat.add_assoc] at hbeyond ⊢
      exact grantsFor_patched hp hgrant (by omega : i+e ≤ len) (i+e) (Nat.le_refl _) hbeyond
    obtain ⟨procData₂, s₃, m₂, hwrite, h₃, hbeside, hpatched, hlength, hregs⟩ :=
      ramBlock_run (hs.files _) (reliableWrites_mono hw (fun _ hc => hc.1))
        (growable_mono hg (fun _ hc => hc.1)) hsmall (by omega) h₂ hblock
        (by rw [hp.env]; exact hroom) hsizes
    rw [hto, hindex, hp.env, ← Nat.add_assoc] at hpatched
    rw [hto, hindex, hp.env, Nat.add_assoc] at hlength
    have hjoin : Patched m m₂ (m.env.length+(bufAddr.toNat-BytecodeMemoryRamAddr))
        (done++(t.read (offset+i) n).1) := by
      apply patched_append hp
      · rw [hdone]
        exact hin
      · rw [hdone]
        exact hpatched
    rw [if_neg hnone, List.take_length, bind_of_ok hwrite]
    dsimp only
    rw [if_neg (show ¬ true = false by decide)]
    by_cases hless : (t.read (offset+i) n).1.length < n
    · have hshort := t.read_short (offset+i) rest hless
      rw [hrest, hshort, if_pos hless, blockEnds, if_neg (by omega), Nat.add_sub_cancel_left,
        Nat.min_eq_left (by omega), blockEnds_done (Nat.le_refl _), forwards, List.map_cons,
        List.foldl_cons]
      refine ⟨procData₂, s₃, m₂, rfl, h₃, hjoin, ?_, hregs⟩
      rw [hlength, List.map_nil, List.foldl_nil]
    · have hwhole : (t.read (offset+i) n).1.length = n := by omega
      obtain ⟨procData', s', m', hloop, h', hpatched', hlength', hregs'⟩ := ih (i+n) (by omega)
        (by omega) (by rw [List.length_append, hdone, hwhole]) h₃
        (hbeside.fds fd e hvalid (by rw [hv₂]; exact hfd) hapart) hjoin
        (fun k hk => by
          have hbounds := lenAfter_bounds grants m.env.length m₁.ram.length
            (bufAddr.toNat-BytecodeMemoryRamAddr+(i+(t.read (offset+i) n).1.length))
          rw [m₂.file_length, hjoin.env]
          omega)
        (by
          rw [← Nat.add_assoc]
          exact t.read_reaches (offset+i) n (hs.fits _ _ h.inv) (by omega) hwhole)
      have hstop : len-(i+n) = rest := by omega
      obtain ⟨more, hmore⟩ : ∃ more, (t.read (offset+i) n).2.read (offset+i+n) rest = more :=
        ⟨_, rfl⟩
      have hall : t.read (offset+i) (len-i) = ((t.read (offset+i) n).1++more.1, more.2) := by
        rw [hrest, t.read_add (offset+i) n rest, hmore]
      rw [hstop, ← Nat.add_assoc, hmore] at hloop h' hpatched' hlength'
      have hsum : i+((t.read (offset+i) n).1++more.1).length = i+n+more.1.length := by
        rw [List.length_append, hwhole, Nat.add_assoc]
      rw [if_neg hless, hwhole, hall]
      dsimp only
      rw [hsum]
      refine ⟨procData', s', m', hloop, h', ?_, ?_, hregs'.trans hregs⟩
      · rw [← List.append_assoc]
        exact hpatched'
      · have hblock : min (i+n+more.1.length-i) 256 = n := by
          have hmost := (t.read (offset+i) n).2.read_length (offset+i+n) rest
          rw [hmore] at hmost
          omega
        rw [hlength', hlength, hwhole, blockEnds, if_neg (by omega), hblock, forwards,
          List.map_cons, List.foldl_cons]

/-- A buffer among the environment variables is filled with one block. -/
theorem envRead_run (hmode : e.mode &&& KernelFsFdModeRO ≠ 0) (hw : ReliableWrites F Inv view)
    {m : MemoryImage} {bufAddr : UInt16} (hin : BytecodeMemoryRamAddr ≤ bufAddr.toNat)
    (hplace : m.InPlace (bufAddr.toNat-BytecodeMemoryRamAddr) len) (hsmall : len ≤ 256)
    {procData : ProcManProcessProcData} {s : φ} {t : Stream UInt8}
    (h : MemoryAt (Carrying Inv carries t) view process paths procData s m)
    (hfd : (view s).fd fd = some e) (hreach : t.Reaches offsetLimit offset) (left : ℕ) (hleft : len ≤ left) :
    ∃ s' m', readBlocks F process fd offset bufAddr len procData 0 left s =
        .ok ((some (t.read offset len).1.length, procData), s') ∧
      Carrying Inv carries (t.read offset len).2 s' ∧
      ProcessMemory (view s') process procData paths m' ∧
      ∀ a, m'.byte a = if bufAddr.toNat ≤ a ∧ a < bufAddr.toNat+(t.read offset len).1.length then
        (t.read offset len).1[a-bufAddr.toNat]? else m.byte a := by
  by_cases hnothing : len = 0
  · refine ⟨s, m, ?_, ?_, h.memory, fun a => ?_⟩
    · rw [readBlocks_done (by omega), hnothing, t.read_zero]
      rfl
    · rw [hnothing, t.read_zero]
      exact h.inv
    · rw [hnothing, t.read_zero, List.length_nil, if_neg (by omega)]
  cases left with
  | zero => omega
  | succ left =>
    have hcount := t.read_length offset len
    have hchunk : min (len-0) 256 = len := by omega
    obtain ⟨s₁, hread, h₁, _⟩ := streamRead_run hs hfd hmode h (by omega : 0+len ≤ len) hreach
    rw [readBlocks, if_neg (by omega), hchunk, bind_of_ok hread]
    rw [Nat.add_zero] at h₁ ⊢
    dsimp only
    by_cases hnone : (t.read offset len).1.length = 0
    · refine ⟨s₁, m, ?_, h₁.inv, h₁.memory, fun a => ?_⟩
      · rw [if_pos hnone, hnone]
        rfl
      · rw [hnone, if_neg (by omega)]
    have hfirst : bufAddr+UInt16.ofNat 0 = bufAddr := addr_zero bufAddr
    have hpart : m.InPlace (bufAddr.toNat-BytecodeMemoryRamAddr)
        (t.read offset len).1.length := by
      rcases hplace with hram | ⟨hout, hlow, hend⟩
      · exact Or.inl (by omega)
      · exact Or.inr ⟨hout, hlow, by omega⟩
    obtain ⟨s₂, m₂, hwrite, hi₂, hm₂, hbytes⟩ := writeBlock_inPlace (hs.files _)
      (reliableWrites_mono hw (fun _ hc => hc.1)) h₁.inv h₁.memory hin hpart
    refine ⟨s₂, m₂, ?_, hi₂, hm₂, hbytes⟩
    rw [if_neg hnone, List.take_length, hfirst, bind_of_ok hwrite]
    dsimp only
    rw [if_neg (show ¬ true = false by decide), Nat.zero_add]
    by_cases hless : (t.read offset len).1.length < len
    · rw [if_pos hless]
      rfl
    · rw [if_neg hless, readBlocks_done (by omega)]

/-- What the loop leaves in the memory. -/
theorem readBlocks_arrive (hvalid : fd ≠ KernelFsFdInvalid) (hapart : e.path ≠ paths.ram)
    (hmode : e.mode &&& KernelFsFdModeRO ≠ 0)
    (hw : ReliableWrites F Inv view) (hg : Growable F Inv view largest paths.ram grants)
    (hsmall : largest ≤ 32768) {procData : ProcManProcessProcData} {s : φ} {m : MemoryImage}
    {t : Stream UInt8} {bufAddr : UInt16} (hend : bufAddr.toNat+len ≤ 65536)
    (hbuffer : ReadBuffer m bufAddr.toNat len)
    (hroom : m.env.length+MemoryImage.envIndex+15 ≤ largest)
    (hgrant : GrantsFor grants m (bufAddr.toNat-BytecodeMemoryRamAddr) len)
    (h : MemoryAt (Carrying Inv carries t) view process paths procData s m)
    (hfd : (view s).fd fd = some e) (hreach : t.Reaches offsetLimit offset) {data : List UInt8} {rest : Stream UInt8}
    (hgiven : t.read offset len = (data, rest)) :
    ∃ procData' s' m', readBlocks F process fd offset bufAddr len procData 0 len s =
        .ok ((some data.length, procData'), s') ∧ Carrying Inv carries rest s' ∧
      ProcessMemory (view s') process procData' paths m' ∧ procData'.regs = procData.regs ∧
      (∀ k < data.length, m'.byte (bufAddr.toNat+k) = data[k]?) ∧
      ((bufAddr.toNat < ProcManEnvVarsVirtualOffset →
          Uncovered m (arrivedLength grants m bufAddr len data.length)) →
        ∀ a b, a < bufAddr.toNat ∨ bufAddr.toNat+data.length ≤ a → m.byte a = some b →
          m'.byte a = some b) := by
  have hcount := t.read_length offset len
  rw [hgiven] at hcount
  have hcases : RamBuffer m bufAddr.toNat len ∨
      (m.InPlace (bufAddr.toNat-BytecodeMemoryRamAddr) len ∧ len ≤ 256) := by
    obtain ⟨hin, hbelow | hram | ⟨hout, hlow, hlast⟩⟩ := hbuffer
    · exact Or.inl ⟨hin, Or.inl hbelow⟩
    · exact Or.inl ⟨hin, Or.inr hram⟩
    · have henv := h.memory.envLen
      have hlt := procData.envVarDataLen.toNat_lt
      exact Or.inr ⟨Or.inr ⟨hout, hlow, hlast⟩, by omega⟩
  rcases hcases with hram | ⟨hplace, hshort⟩
  · obtain ⟨procData', s', m', hrun, h', hpatched, hlength, hregs⟩ :=
      readBlocks_run hs hvalid hapart hmode hw hg hsmall hend hram hroom hgrant len 0 (by omega)
        (Nat.zero_le _) rfl h hfd (patched_nil m _) (fun k hk => absurd hk (Nat.not_lt_zero k))
        hreach
    rw [Nat.add_zero, Nat.sub_zero, hgiven] at hrun h' hpatched hlength
    rw [Nat.zero_add] at hrun hlength
    dsimp only at hlength hcount
    have hindex : BytecodeMemoryRamAddr+(bufAddr.toNat-BytecodeMemoryRamAddr) = bufAddr.toNat :=
      Nat.add_sub_cancel' hbuffer.1
    refine ⟨procData', s', m', hrun, h'.inv, h'.memory, hregs, ?_, ?_⟩
    · intro k hk
      have harrived := patched_arrived hpatched k hk
      rw [hindex] at harrived
      exact harrived
    · intro hshown a b hout hb
      refine patched_others hpatched ?_ (by rw [hindex]; exact hout) hb
      rw [hlength]
      by_cases hlow : bufAddr.toNat < ProcManEnvVarsVirtualOffset
      · exact hshown hlow
      · have hsame : arrivedLength grants m bufAddr len data.length = m.ram.length := by
          obtain ⟨_, hbelow | hinside⟩ := hram
          · have hnothing : len = 0 := by omega
            rw [hnothing]
            rfl
          · exact arrivedLength_inside hcount hinside
        rw [arrivedLength] at hsame
        intro o _ hvisible
        rw [hsame]
        exact hvisible
  · obtain ⟨s', m', hrun, hi', hm', hbytes⟩ := envRead_run hs hmode hw hbuffer.1 hplace hshort h
      hfd hreach len (Nat.le_refl len)
    rw [hgiven] at hrun hi' hbytes
    dsimp only at hbytes
    refine ⟨procData, s', m', hrun, hi', hm', rfl, ?_, ?_⟩
    · intro k hk
      rw [hbytes, if_pos (by omega), Nat.add_sub_cancel_left]
    · intro _ a b hout hb
      rw [hbytes, if_neg (by omega), hb]

/-- The loop from `i` on puts into the stream what one write of the rest would. -/
theorem writeBlocks_run (hmode : e.mode &&& KernelFsFdModeWO ≠ 0) (hr : ReliableReads F Inv view)
    {procData : ProcManProcessProcData} {m : MemoryImage} {bufAddr : UInt16} {bytes : List UInt8}
    (hbytes : HasBytes m bufAddr.toNat bytes) (hregion : OneRegion m bufAddr.toNat bytes.length)
    (hsize : bytes.length = len) (hend : bufAddr.toNat+len ≤ 65536) (left i : ℕ)
    (hleft : len ≤ i+left) (hi : i ≤ len) {s : φ} {t : Stream UInt8}
    (h : MemoryAt (Carrying Inv carries t) view process paths procData s m)
    (hfd : (view s).fd fd = some e) (hreach : t.Reaches offsetLimit (offset+i)) :
    ∃ s', writeBlocks F process fd offset bufAddr len procData i left s =
        .ok (some (i+(t.write (offset+i) (bytes.drop i)).1), s') ∧
      MemoryAt (Carrying Inv carries (t.write (offset+i) (bytes.drop i)).2) view process paths
        procData s' m := by
  induction left generalizing i s t with
  | zero =>
    rw [List.drop_of_length_le (by omega), t.write_nil]
    exact ⟨s, rfl, h⟩
  | succ left ih =>
    by_cases hfull : len ≤ i
    · rw [List.drop_of_length_le (by omega), t.write_nil, writeBlocks, if_pos hfull]
      exact ⟨s, rfl, h⟩
    obtain ⟨n, hn⟩ : ∃ n, min (len-i) 256 = n := ⟨_, rfl⟩
    obtain ⟨chunk, hchunk⟩ : ∃ chunk, (bytes.drop i).take n = chunk := ⟨_, rfl⟩
    have hlen : chunk.length = n := by
      rw [← hchunk, List.length_take, List.length_drop]
      omega
    have hsplit : bytes.drop i = chunk++bytes.drop (i+n) := by
      rw [← hchunk, ← List.drop_drop, List.take_append_drop]
    have hblock := region_block i n hbytes hregion (by omega) (by omega)
    have hto : (bufAddr+UInt16.ofNat i).toNat = bufAddr.toNat+i := addr_nat (by omega)
    obtain ⟨s₁, hread, hi₁, hv₁⟩ := readBlock_run (hs.files t)
      (reliableReads_mono hr (fun _ hc => hc.1)) h.inv h.memory (bufAddr+UInt16.ofNat i) n
    rw [hto, hblock, hchunk] at hread
    obtain ⟨s₂, hwrite, hi₂, hv₂⟩ := hs.write s₁ t i chunk hi₁ (by rw [hv₁]; exact hfd) hmode
      (by omega) hreach
    have hv := hv₂.trans hv₁
    have h₂ : MemoryAt (Carrying Inv carries (t.write (offset+i) chunk).2) view process paths
        procData s₂ m :=
      ⟨hi₂, hv.symm ▸ h.memory, hv.symm ▸ h.owned⟩
    have hcount := t.write_count (offset+i) chunk
    rw [writeBlocks, if_neg hfull, hn, bind_of_ok hread]
    dsimp only
    rw [bind_of_ok hwrite, hsplit]
    by_cases hless : (t.write (offset+i) chunk).1 < n
    · rw [if_pos hless, t.write_short (offset+i) chunk _ (by omega)]
      exact ⟨s₂, rfl, h₂⟩
    · have htaken : (t.write (offset+i) chunk).1 = chunk.length := by omega
      obtain ⟨s', hloop, h'⟩ := ih (i+n) (by omega) (by omega) h₂ (by rw [hv]; exact hfd)
        (by
          rw [← Nat.add_assoc, ← hlen]
          exact t.write_reaches (offset+i) chunk (hs.fits _ _ h.inv) (by omega) htaken)
      refine ⟨s', ?_, ?_⟩
      · rw [if_neg hless, htaken, hlen, hloop, t.write_append (offset+i) chunk _ htaken, hlen,
          Nat.add_assoc, Nat.add_assoc]
      · rw [t.write_append (offset+i) chunk _ htaken, hlen, Nat.add_assoc]
        exact h'

end Runs

/-! ### The transfers -/

/-- The local descriptor in r1 stands for this one. -/
def Names (procData : ProcManProcessProcData) (fd : ℕ) : Prop :=
  ∃ i : Fin 8, (procData.regs 1).toUInt8.toNat = i.val+1 ∧ (procData.fds i).toNat = fd

section Whole

variable {φ : Type} (F : Files φ) (carries : φ → Stream UInt8 → Prop) (process : ProcManProcess)
  (procData : ProcManProcessProcData) (fd offset : ℕ) (s : φ)

/-- The process ends with the count, the bytes and the stream of a read of the
whole length. The memory beyond them stays on a condition on their number. -/
def ReadsWhole (kept : ℕ → Prop) : Prop :=
  ∃ data s₁ procData' s',
    F.kernelFsFileReadOffset fd offset (procData.regs 4).toNat s = .ok ((data, data.length), s₁) ∧
    procManProcessReadCommon F process procData offset s = .ok ((true, procData'), s') ∧
    procData'.regs = (procData.setReg 0 (UInt16.ofNat data.length)).regs ∧
    (∃ rest, carries s₁ rest ∧ carries s' rest) ∧
    (∀ k b, data[k]? = some b →
      ByteAt F process procData' s' (procData.regs 3+UInt16.ofNat k) b) ∧
    (kept data.length → ∀ a b, a.toNat < (procData.regs 3).toNat ∨
        (procData.regs 3).toNat+data.length ≤ a.toNat →
      ByteAt F process procData s a b → ByteAt F process procData' s' a b)

/-- The process ends with the count and the stream of a write of all the bytes in
its buffer, and with its memory as before. -/
def WritesWhole : Prop :=
  ∃ bytes n s₁ s',
    (∀ k < (procData.regs 4).toNat, ∀ b,
      ByteAt F process procData s (procData.regs 3+UInt16.ofNat k) b → bytes[k]? = some b) ∧
    bytes.length = (procData.regs 4).toNat ∧
    F.kernelFsFileWriteOffset fd offset bytes s = .ok (n, s₁) ∧
    procManProcessWriteCommon F process procData offset s =
      .ok ((true, procData.setReg 0 (UInt16.ofNat n)), s') ∧
    (∃ rest, carries s₁ rest ∧ carries s' rest) ∧
    ∀ a b, ByteAt F process procData s a b →
      ByteAt F process (procData.setReg 0 (UInt16.ofNat n)) s' a b

end Whole

section Transfers

variable {φ : Type} {F : Files φ} {Inv : φ → Prop} {view : φ → FsView}
  {carries : φ → Stream UInt8 → Prop} {largest fd offset : ℕ} {grants : ℕ → Bool}
  {process : ProcManProcess} {paths : ProcessPaths} {procData : ProcManProcessProcData}
  {m : MemoryImage} {s : φ} {e : OpenFile} {t : Stream UInt8}

theorem globalFd_run (hl : FilesLaw F Inv view largest)
    (hg : Growable F Inv view largest paths.ram grants) (hi : Inv s)
    (hfd : (view s).fd fd = some e) (hnames : Names procData fd) :
    procManProcessGetGlobalFdFromLocal F procData (procData.regs 1).toUInt8.toNat s =
      .ok (fd, s) := by
  obtain ⟨i, hlocal, hglobal⟩ := hnames
  obtain ⟨⟨path, s₀⟩, hget⟩ := hg.getFilePath s fd hi
  obtain ⟨hs₀, hpath⟩ := hl.getFilePath _ _ _ _ hget
  rw [hfd] at hpath
  rw [hs₀, hpath] at hget
  have hlt := i.isLt
  have hindex : (⟨i.val+1-1, by omega⟩ : Fin 8) = i := Fin.ext (Nat.add_sub_cancel i.val 1)
  rw [procManProcessGetGlobalFdFromLocal, hlocal, if_neg (by rw [ProcManLocalFdInvalid]; omega),
    dif_pos (by omega), hindex, hglobal, bind_of_ok hget]
  rfl

variable (hr : ReliableReads F Inv view) (hw : ReliableWrites F Inv view)
  (hg : Growable F Inv view largest paths.ram grants) (hsmall : largest ≤ 32768)
  (hs : StreamLaw F Inv view carries largest fd e offset (procData.regs 4).toNat)
  (ht : carries s t) (hfd : (view s).fd fd = some e) (hvalid : fd ≠ KernelFsFdInvalid)
  (hoffset : offset < offsetLimit) (hnames : Names procData fd)
  (h : MemoryAt Inv view process paths procData s m)
  (hend : (procData.regs 3).toNat+(procData.regs 4).toNat ≤ 65536)

include hr hg hs ht hfd hvalid hoffset hnames h hend

include hw hsmall in
theorem read_whole (hapart : e.path ≠ paths.ram) (hmode : e.mode &&& KernelFsFdModeRO ≠ 0)
    (hbuffer : ReadBuffer m (procData.regs 3).toNat (procData.regs 4).toNat)
    (hroom : m.env.length+MemoryImage.envIndex+15 ≤ largest)
    (hgrant : ∀ n ≤ m.env.length+((procData.regs 3).toNat-BytecodeMemoryRamAddr)+
      (procData.regs 4).toNat, grants n = true) :
    ReadsWhole F carries process procData fd offset s (fun n =>
      (procData.regs 3).toNat < ProcManEnvVarsVirtualOffset →
        Uncovered m (arrivedLength grants m (procData.regs 3) (procData.regs 4).toNat n)) := by
  have hbase : BytecodeMemoryRamAddr = 32768 := rfl
  have hvirtual : ProcManEnvVarsVirtualOffset = 64512 := rfl
  obtain ⟨len, hlen⟩ : ∃ len, (procData.regs 4).toNat = len := ⟨_, rfl⟩
  obtain ⟨bufAddr, hbuf⟩ : ∃ bufAddr, procData.regs 3 = bufAddr := ⟨_, rfl⟩
  rw [hlen] at hs
  rw [hlen, hbuf] at hend hbuffer hgrant
  have hcarried : MemoryAt (Carrying Inv carries t) view process paths procData s m :=
    ⟨⟨h.inv, ht⟩, h.memory, h.owned⟩
  have hreach : t.Reaches offsetLimit offset := t.reaches_of_lt hoffset
  have hglobal := globalFd_run (hs.files t) (growable_mono hg (fun _ hc => hc.1))
    hcarried.inv hfd hnames
  obtain ⟨s₁, hsingle, hi₁, _⟩ := hs.read s t 0 len hcarried.inv hfd hmode (by omega) hreach
  obtain ⟨⟨data, rest⟩, hgiven⟩ : ∃ r, t.read offset len = r := ⟨_, rfl⟩
  rw [Nat.add_zero, hgiven] at hsingle hi₁
  rw [u32_of_lt hoffset] at hsingle
  have hcount := t.read_length offset len
  rw [hgiven] at hcount
  dsimp only at hcount
  obtain ⟨procData₂, s', m', hrun, hi', hm', hregs, harrived, hothers⟩ :=
    readBlocks_arrive hs hvalid hapart hmode hw hg hsmall hend hbuffer hroom
      (fun n hn _ => hgrant _ (by omega)) hcarried hfd hreach hgiven
  have hbyte := byteAt_iff (hs.files _) (reliableReads_mono hr (fun _ hc => hc.1)) hcarried.inv
    hcarried.memory
  have hbyte' := byteAt_iff (hs.files _) (reliableReads_mono hr (fun _ hc => hc.1)) hi'
    (memory_setReg hm' 0 (UInt16.ofNat data.length))
  rw [ReadsWhole, hlen, hbuf]
  refine ⟨data, s₁, procData₂.setReg 0 (UInt16.ofNat data.length), s', hsingle, ?_, ?_, ?_, ?_, ?_⟩
  · rw [procManProcessReadCommon, bind_of_ok hglobal, if_neg hvalid, hlen, hbuf, bind_of_ok hrun]
    rfl
  · rw [ProcManProcessProcData.setReg, hregs, ProcManProcessProcData.setReg]
  · exact ⟨rest, hi₁.2, hi'.2⟩
  · intro k b hb
    have hk := (List.getElem?_eq_some_iff.mp hb).1
    rw [hbyte', addr_nat (by omega), harrived k hk, hb]
  · intro hshown a b hout hb
    rw [hbyte] at hb
    rw [hbyte']
    exact hothers hshown a.toNat b hout hb

theorem write_whole (hmode : e.mode &&& KernelFsFdModeWO ≠ 0)
    (hreadable : ∀ k < (procData.regs 4).toNat,
      ∃ b, ByteAt F process procData s (procData.regs 3+UInt16.ofNat k) b)
    (hregion : OneRegion m (procData.regs 3).toNat (procData.regs 4).toNat) :
    WritesWhole F carries process procData fd offset s := by
  obtain ⟨len, hlen⟩ : ∃ len, (procData.regs 4).toNat = len := ⟨_, rfl⟩
  obtain ⟨bufAddr, hbuf⟩ : ∃ bufAddr, procData.regs 3 = bufAddr := ⟨_, rfl⟩
  rw [hlen] at hs hreadable hregion hend
  rw [hbuf] at hreadable hregion hend
  rw [WritesWhole, hlen, hbuf]
  have hcarried : MemoryAt (Carrying Inv carries t) view process paths procData s m :=
    ⟨⟨h.inv, ht⟩, h.memory, h.owned⟩
  have hreach : t.Reaches offsetLimit (offset+0) := t.reaches_of_lt hoffset
  have hglobal := globalFd_run (hs.files t) (growable_mono hg (fun _ hc => hc.1))
    hcarried.inv hfd hnames
  have hbyte := byteAt_iff (hs.files _) (reliableReads_mono hr (fun _ hc => hc.1)) hcarried.inv
    hcarried.memory
  -- the bytes in the buffer
  obtain ⟨bytes, hsize, hbytes⟩ : ∃ bytes : List UInt8, bytes.length = len ∧
      HasBytes m bufAddr.toNat bytes := by
    refine ⟨(List.range len).map (fun k => (m.byte (bufAddr.toNat+k)).getD 0), by simp, ?_⟩
    intro k hk
    rw [List.length_map, List.length_range] at hk
    obtain ⟨b, hb⟩ := hreadable k hk
    rw [hbyte, addr_nat (by omega)] at hb
    simp [hk, hb]
  obtain ⟨s₁, hsingle, hi₁, _⟩ := hs.write s t 0 bytes hcarried.inv hfd hmode (by omega) hreach
  obtain ⟨s', hrun, h'⟩ := writeBlocks_run hs hmode hr hbytes (by rw [hsize]; exact hregion) hsize
    hend len 0 (by omega) (Nat.zero_le _) hcarried hfd hreach
  rw [Nat.add_zero] at hsingle hi₁ hrun h'
  rw [u32_of_lt hoffset] at hsingle
  rw [List.drop_zero] at hrun h'
  rw [Nat.zero_add] at hrun
  have hbyte' := byteAt_iff (hs.files _) (reliableReads_mono hr (fun _ hc => hc.1)) h'.inv
    (memory_setReg h'.memory 0 (UInt16.ofNat (t.write offset bytes).1))
  refine ⟨bytes, _, s₁, s', ?_, hsize, hsingle, ?_, ⟨_, hi₁.2, h'.inv.2⟩, ?_⟩
  · intro k hk b hb
    rw [hbyte, addr_nat (by omega), hbytes k (by omega)] at hb
    exact hb
  · rw [procManProcessWriteCommon, bind_of_ok hglobal, if_neg hvalid, hlen, hbuf, bind_of_ok hrun]
    rfl
  · intro a b hb
    rw [hbyte] at hb
    rw [hbyte', hb]

end Transfers

/-! ### Files as streams -/

/-- The view without one file. -/
def FsView.hide (v : FsView) (path : CStr) : FsView := v.setFile path none

theorem hide_some {v : FsView} {path q : CStr} {c : List UInt8}
    (h : (v.hide path).file q = some c) : q ≠ path ∧ v.file q = some c := by
  rw [FsView.hide, FsView.setFile_file] at h
  split at h
  case isTrue => cases h
  case isFalse hne => exact ⟨hne, h⟩

theorem hide_setFile (v : FsView) {path q : CStr} (h : q ≠ path) (c : Option (List UInt8)) :
    (v.setFile q c).hide path = (v.hide path).setFile q c := by
  simp only [FsView.hide, FsView.setFile, FsView.mk.injEq, and_true]
  funext r
  by_cases hr : r = path
  · rw [if_pos hr, if_neg (hr ▸ h.symm), if_pos hr]
  · rw [if_neg hr, if_neg hr]

theorem hide_setFile_same (v : FsView) (path : CStr) (c : Option (List UInt8)) :
    (v.setFile path c).hide path = v.hide path := by
  simp only [FsView.hide, FsView.setFile, FsView.mk.injEq, and_true]
  funext r
  split <;> rfl

/-- The descriptor carries the content of its file. -/
def CarriesFile {φ : Type} (view : φ → FsView) (path : CStr) (s : φ) (t : Stream UInt8) : Prop :=
  ∃ c, (view s).file path = some c ∧ c.length < offsetLimit ∧ t = .content c

/-- Reads and writes of a file go as far as its content. -/
structure ExactFile {φ : Type} (F : Files φ) (Inv : φ → Prop) (view : φ → FsView) (fd : ℕ)
    (e : OpenFile) : Prop where
  read : ∀ s offset len c, Inv s → (view s).fd fd = some e → (view s).file e.path = some c →
    e.mode &&& KernelFsFdModeRO ≠ 0 →
    ∃ s', F.kernelFsFileReadOffset fd offset len s =
      .ok (((c.drop offset).take len, ((c.drop offset).take len).length), s')
  write : ∀ s offset data c, Inv s → (view s).fd fd = some e → (view s).file e.path = some c →
    e.mode &&& KernelFsFdModeWO ≠ 0 →
    ∃ s', F.kernelFsFileWriteOffset fd offset data s =
        .ok (min data.length (c.length-offset), s') ∧
      (view s').file e.path = some (patch c offset data)

section Hidden

variable {φ : Type} {F : Files φ} {Inv : φ → Prop} {view : φ → FsView} {largest : ℕ}
  {path : CStr}

/-- Calls on the other files leave the content of the hidden one. -/
theorem filesLaw_hide (hl : FilesLaw F Inv view largest) (t : Stream UInt8) :
    FilesLaw F (Carrying Inv (CarriesFile view path) t) (fun s => (view s).hide path) largest where
  fd_lt s fd e hi h := hl.fd_lt s fd e hi.1 h
  read s s' fd offset len e c r hi hfd hfile hrun := by
    obtain ⟨hi', hv, hfull⟩ := hl.read s s' fd offset len e c r hi.1 hfd (hide_some hfile).2 hrun
    refine ⟨⟨hi', ?_⟩, by rw [hv], hfull⟩
    rw [CarriesFile, hv]
    exact hi.2
  write s s' fd offset data e c n hi hfd hfile hrun := by
    obtain ⟨hne, hshown⟩ := hide_some hfile
    obtain ⟨hi', c', hwritten, hv⟩ := hl.write s s' fd offset data e c n hi.1 hfd hshown hrun
    refine ⟨⟨hi', ?_⟩, c', hwritten, by rw [hv, hide_setFile _ hne]⟩
    rw [CarriesFile, hv, FsView.setFile_file, if_neg hne.symm]
    exact hi.2
  openFile s s' q mode c fd hi hfile hrun := by
    obtain ⟨hi', hfiles, hfds, hnew⟩ := hl.openFile s s' q mode c fd hi.1 (hide_some hfile).2 hrun
    refine ⟨⟨hi', ?_⟩, ?_, hfds, hnew⟩
    · rw [CarriesFile, hfiles]
      exact hi.2
    · simp only [FsView.hide, FsView.setFile, hfiles]
  close s s' fd e k hi hfd hrun := by
    obtain ⟨hi', hv⟩ := hl.close s s' fd e k hi.1 hfd hrun
    refine ⟨⟨hi', ?_⟩, by rw [hv]; rfl⟩
    rw [CarriesFile, hv]
    exact hi.2
  resize s s' q newSize c b hi hfile hle hrun := by
    obtain ⟨hne, hshown⟩ := hide_some hfile
    obtain ⟨hi', hno, hyes⟩ := hl.resize s s' q newSize c b hi.1 hshown hle hrun
    cases b with
    | false =>
      refine ⟨⟨hi', ?_⟩, fun _ => by rw [hno rfl], fun h => by cases h⟩
      rw [CarriesFile, hno rfl]
      exact hi.2
    | true =>
      obtain ⟨c', hstart, hv⟩ := hyes rfl
      refine ⟨⟨hi', ?_⟩, fun h => (by cases h), fun _ => ⟨c', hstart, ?_⟩⟩
      · rw [CarriesFile, hv, FsView.setFile_file, if_neg hne.symm]
        exact hi.2
      · rw [hv, hide_setFile _ hne]
  delete s s' q c b hi hfile hrun := by
    obtain ⟨hne, hshown⟩ := hide_some hfile
    obtain ⟨hi', hv⟩ := hl.delete s s' q c b hi.1 hshown hrun
    cases b with
    | false =>
      rw [if_neg Bool.false_ne_true] at hv ⊢
      refine ⟨⟨hi', ?_⟩, by rw [hv]⟩
      rw [CarriesFile, hv]
      exact hi.2
    | true =>
      rw [if_pos rfl] at hv ⊢
      refine ⟨⟨hi', ?_⟩, by rw [hv, hide_setFile _ hne]⟩
      rw [CarriesFile, hv, FsView.setFile_file, if_neg hne.symm]
      exact hi.2
  getFilePath s s' fd q hrun := hl.getFilePath s s' fd q hrun

theorem reliableReads_hide (hr : ReliableReads F Inv view) :
    ReliableReads F Inv (fun s => (view s).hide path) :=
  ⟨fun s fd offset len e c hi hfd hfile => hr.read s fd offset len e c hi hfd (hide_some hfile).2⟩

theorem reliableWrites_hide (hw : ReliableWrites F Inv view) :
    ReliableWrites F Inv (fun s => (view s).hide path) :=
  ⟨fun s fd offset data e c hi hfd hfile =>
    hw.write s fd offset data e c hi hfd (hide_some hfile).2⟩

theorem growable_hide {q : CStr} {grants : ℕ → Bool} (hg : Growable F Inv view largest q grants) :
    Growable F Inv (fun s => (view s).hide path) largest q grants where
  getFilePath := hg.getFilePath
  close := hg.close
  resize s n c hi hfile := hg.resize s n c hi (hide_some hfile).2
  openFile s c fd hi hfile := hg.openFile s c fd hi (hide_some hfile).2

/-- A file of which the calls go as far as its content is a stream beside the
other files. -/
theorem file_stream {fd : ℕ} {e : OpenFile} (hl : FilesLaw F Inv view largest)
    (hx : ExactFile F Inv view fd e) (offset len : ℕ) :
    StreamLaw F Inv (fun s => (view s).hide e.path) (CarriesFile view e.path) largest fd e offset
      len where
  files t := filesLaw_hide hl t
  fits s t h := by
    obtain ⟨c, _, hlt, rfl⟩ := h.2
    exact hlt
  read s t i n h hfd hmode _ hreach := by
    obtain ⟨c, hfile, hlt, rfl⟩ := h.2
    have hoffset : offset+i < offsetLimit := hreach
    obtain ⟨s', hrun⟩ := hx.read s (u32 (offset+i)) n c h.1 hfd hfile hmode
    obtain ⟨hi', hv, _⟩ := hl.read s s' fd _ n e c _ h.1 hfd hfile hrun
    rw [u32_of_lt hoffset] at hrun ⊢
    refine ⟨s', hrun, ⟨hi', c, ?_, hlt, rfl⟩, by rw [hv]⟩
    rw [hv]
    exact hfile
  write s t i data h hfd hmode _ hreach := by
    obtain ⟨c, hfile, hlt, rfl⟩ := h.2
    have hoffset : offset+i < offsetLimit := hreach
    obtain ⟨s', hrun, hpatched⟩ := hx.write s (u32 (offset+i)) data c h.1 hfd hfile hmode
    obtain ⟨hi', c', _, hv⟩ := hl.write s s' fd _ data e c _ h.1 hfd hfile hrun
    rw [u32_of_lt hoffset] at hrun hpatched ⊢
    refine ⟨s', hrun, ⟨hi', _, hpatched, ?_, rfl⟩, by rw [hv, hide_setFile_same]⟩
    rw [patch_length]
    exact hlt

end Hidden

/-! ### The kernel's descriptors -/

/-- A descriptor of the kernel that carries a stream, when what it reads and
writes is not what the view shows. -/
theorem kernel_stream {σ : Type} (p : Platform σ) {Inv : Tables × σ → Prop}
    {view : Tables × σ → FsView} {carries : Tables × σ → Stream UInt8 → Prop}
    {largest fd offset len : ℕ} {e : OpenFile} {within : ℕ → ℕ → Prop}
    (hfiles : ∀ st, FilesLaw (kernelFiles p) (Carrying Inv carries st) view largest)
    (hfits : ∀ s st, Carrying Inv carries st s → st.Fits offsetLimit)
    (hat : ∀ s, Inv s → (view s).fd fd = some e → StreamAt (p.functors s.1) p.fat s.1 fd e.mode
      (fun h st => carries (s.1, h) st) within)
    (hwithin : ∀ i n, i+n ≤ len → within (u32 (offset+i)) n)
    (hreads : ∀ s s' o n r, Inv s → (kernelFiles p).kernelFsFileReadOffset fd o n s = .ok (r, s') →
      Inv s' ∧ view s' = view s)
    (hwrites : ∀ s s' o data r, Inv s →
      (kernelFiles p).kernelFsFileWriteOffset fd o data s = .ok (r, s') →
      Inv s' ∧ view s' = view s) :
    StreamLaw (kernelFiles p) Inv view carries largest fd e offset len where
  files := hfiles
  fits := hfits
  read s st i n h hfd hmode hin hreach := by
    obtain ⟨h', hrun, hcarries⟩ := (hat s h.1 hfd).read s.2 st (u32 (offset+i)) n h.2 hmode
      (hwithin i n hin)
    have hmod : st.read (u32 (offset+i)) n = st.read (offset+i) n := st.read_mod n hreach
    rw [hmod] at hrun hcarries
    have haccess : (kernelFiles p).kernelFsFileReadOffset fd (u32 (offset+i)) n s =
        .ok (((st.read (offset+i) n).1, (st.read (offset+i) n).1.length), (s.1, h')) := by
      change access p (fun f t => Kernel.kernelFsFileReadOffset f p.fat t fd _ n) s = _
      exact (access_ok p).mpr ⟨hrun, rfl⟩
    obtain ⟨hi', hv⟩ := hreads _ _ _ _ _ h.1 haccess
    exact ⟨(s.1, h'), haccess, ⟨hi', hcarries⟩, hv⟩
  write s st i data h hfd hmode hin hreach := by
    obtain ⟨h', hrun, hcarries⟩ := (hat s h.1 hfd).write s.2 st (u32 (offset+i)) data h.2 hmode
      (hwithin i data.length hin)
    have hmod : st.write (u32 (offset+i)) data = st.write (offset+i) data :=
      st.write_mod data hreach
    rw [hmod] at hrun hcarries
    have haccess : (kernelFiles p).kernelFsFileWriteOffset fd (u32 (offset+i)) data s =
        .ok ((st.write (offset+i) data).1, (s.1, h')) := by
      change access p (fun f t => Kernel.kernelFsFileWriteOffset f t fd _ data) s = _
      exact (access_ok p).mpr ⟨hrun, rfl⟩
    obtain ⟨hi', hv⟩ := hwrites _ _ _ _ _ h.1 haccess
    exact ⟨(s.1, h'), haccess, ⟨hi', hcarries⟩, hv⟩

/-! ### A shell with a note -/

def notePath : CStr := CStr.lit "/tmp/note"

def noteFile : OpenFile := ⟨notePath, KernelFsFdModeRW, 1⟩

/-- The shell has the note open as its first descriptor. -/
def noteView (note : List UInt8) : FsView :=
  ((shellView [47, 47]).setFile notePath (some note)).setFd 4 (some noteFile)

def noteData (bufAddr len : UInt16) : ProcManProcessProcData :=
  shellWith (fun r => if r = 1 then 1 else if r = 3 then bufAddr else if r = 4 then len else 0)
    (fun _ => 4)

theorem note_memoryAt (note : List UInt8) (bufAddr len : UInt16) :
    MemoryAt FsView.Bounded (fun v => v.hide notePath) shellProcess shellPaths
      (noteData bufAddr len) (noteView note) (shellImage [47, 47]) where
  inv := bounded_setFd (shell_bounded [47, 47]) (by decide) _
  memory :=
    { progFd := ⟨_, rfl, rfl, by decide⟩
      progFile := rfl
      ramFd := rfl
      ramFile := rfl
      envLen := rfl
      ramLen := rfl
      procFd := ⟨_, _, rfl, rfl, rfl⟩
      valid := by decide
      apart := by decide }
  owned := by
    refine ⟨by change 3 ≠ 0; decide, fun i e he hpath => ?_⟩
    have hsplit : (if i = 4 then some noteFile else (shellView [47, 47]).fd i) = some e := he
    split at hsplit
    case isTrue =>
      rw [← Option.some.inj hsplit] at hpath
      exact absurd hpath (by decide)
    case isFalse => exact (shell_memoryAt [47, 47]).owned.alone i e hsplit hpath

theorem viewFiles_exact (fd : ℕ) (e : OpenFile) : ExactFile viewFiles FsView.Bounded id fd e where
  read s offset len c _ hfd hfile hmode := by
    simp only [id] at hfd hfile
    have hread : s.readOffset fd offset len = (c.drop offset).take len := by
      simp [FsView.readOffset, FsView.content, hfd, hmode, hfile]
    refine ⟨s, ?_⟩
    change Except.ok ((s.readOffset fd offset len, (s.readOffset fd offset len).length), s) = _
    rw [hread]
  write s offset data c _ hfd hfile hmode := by
    simp only [id] at hfd hfile
    refine ⟨s.setFile e.path (some (patch c offset data)), ?_, if_pos rfl⟩
    change Except.ok (s.writeOffset fd offset data) = _
    simp [FsView.writeOffset, FsView.content, hfd, hmode, hfile]

theorem note_shellRam (note : List UInt8) : ShellRam (noteView note) := ⟨rfl, rfl, rfl, rfl⟩

end ArduinoOS.Procman
