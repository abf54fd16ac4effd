import ArduinoOS.Lib.Compare
import ArduinoOS.Procman.Memmove
import ArduinoOS.Procman.UserStrings

/-!
# Comparisons for a process

Strings and ranges are compared in blocks of 128 bytes. Both blocks are read
into the scratch buffer, which keeps what stood behind them. The answer is that
of one comparison of the whole.
-/

set_option autoImplicit false

namespace ArduinoOS.Procman
open ArduinoOS.Compare ArduinoOS.Faulting ArduinoOS.Kernel ArduinoOS.Minifs

/-! ### The functions -/

section Source

variable {φ : Type} (F : Files φ) (C : Comparisons) (process : ProcManProcess)

/-- The scratch buffer with two blocks that have been read into it. -/
def scratchBlocks (scratch : List UInt8) (chunkSize : ℕ) (first second : List UInt8) :
    List UInt8 :=
  patch (patch scratch (0*chunkSize) first) (1*chunkSize) second

/-- The loop of memcmp. -/
def memcmpBlocks (p1Addr p2Addr : UInt16) (size : ℕ) (scratch : List UInt8)
    (procData : ProcManProcessProcData) (i : ℕ) : ℕ → Run φ Fault (Bool × ProcManProcessProcData)
  | 0 => pure (true, procData)
  | left+1 =>
      if size ≤ i then pure (true, procData)
      else do
        let chunkSize := min (size-i) 128
        let first ← procManProcessMemoryReadBlock F process procData (p1Addr+UInt16.ofNat i)
          chunkSize
        match first with
        | none => pure (false, procData)
        | some first => do
            let second ← procManProcessMemoryReadBlock F process procData (p2Addr+UInt16.ofNat i)
              chunkSize
            match second with
            | none => pure (false, procData)
            | some second => do
                let scratch := scratchBlocks scratch chunkSize first second
                let r0 := UInt16.ofInt
                  (C.memcmp (scratch.drop (0*chunkSize)) (scratch.drop (1*chunkSize)) chunkSize)
                if r0 ≠ 0 then pure (true, procData.setReg 0 r0)
                else
                  memcmpBlocks p1Addr p2Addr size scratch (procData.setReg 0 r0) (i+chunkSize) left

/-- The answer is in r0; `false` when the process is to be killed. -/
def memcmpSyscall (scratch : List UInt8) (procData : ProcManProcessProcData) :
    Run φ Fault (Bool × ProcManProcessProcData) :=
  memcmpBlocks F C process (procData.regs 1) (procData.regs 2) (procData.regs 3).toNat scratch
    (procData.setReg 0 0) 0 (procData.regs 3).toNat

/-- The loop of strcmp, which has no end of its own; `none` when it is still
going. -/
def strcmpBlocks (p1Addr p2Addr : UInt16) (scratch : List UInt8)
    (procData : ProcManProcessProcData) (i : UInt16) :
    ℕ → Run φ Fault (Option (Bool × ProcManProcessProcData))
  | 0 => pure none
  | left+1 => do
      let chunkSize := 128
      let first ← procManProcessMemoryReadStr F process procData (p1Addr+i) chunkSize
      match first with
      | none => pure (some (false, procData))
      | some first => do
          let second ← procManProcessMemoryReadStr F process procData (p2Addr+i) chunkSize
          match second with
          | none => pure (some (false, procData))
          | some second => do
              let scratch := scratchBlocks scratch chunkSize first second
              let r0 := UInt16.ofInt
                (C.strncmp (scratch.drop (0*chunkSize)) (scratch.drop (1*chunkSize)) chunkSize)
              if r0 ≠ 0 ∨ 0 ∈ (scratch.drop (0*chunkSize)).take chunkSize then
                pure (some (true, procData.setReg 0 r0))
              else
                strcmpBlocks p1Addr p2Addr scratch (procData.setReg 0 r0)
                  (i+UInt16.ofNat chunkSize) left

def strcmpSyscall (scratch : List UInt8) (procData : ProcManProcessProcData) (left : ℕ) :
    Run φ Fault (Option (Bool × ProcManProcessProcData)) :=
  strcmpBlocks F C process (procData.regs 1) (procData.regs 2) scratch (procData.setReg 0 0) 0 left

end Source

/-! ### The scratch buffer -/

section Scratch

variable {scratch first second : List UInt8} {chunkSize : ℕ}

theorem scratchBlocks_length :
    (scratchBlocks scratch chunkSize first second).length = scratch.length := by
  rw [scratchBlocks, patch_length, patch_length]

theorem scratchBlocks_first (hsize : 2*chunkSize ≤ scratch.length)
    (hfirst : first.length ≤ chunkSize) :
    ((scratchBlocks scratch chunkSize first second).drop (0*chunkSize)).take chunkSize =
      (first++scratch.drop first.length).take chunkSize := by
  have hpatch : patch scratch (0*chunkSize) first = first++scratch.drop first.length := by
    rw [Nat.zero_mul, patch, List.take_zero, List.nil_append, Nat.sub_zero,
      List.take_of_length_le (by omega), Nat.zero_add]
  have hlen : (first++scratch.drop first.length).length = scratch.length := by
    rw [← hpatch, patch_length]
  rw [scratchBlocks, hpatch, Nat.zero_mul, List.drop_zero, Nat.one_mul, patch,
    List.take_append_of_le_length (by rw [List.length_take]; omega), List.take_take, Nat.min_self]

theorem scratchBlocks_second (first : List UInt8) (hsize : 2*chunkSize ≤ scratch.length)
    (hsecond : second.length ≤ chunkSize) :
    ∃ rest, (scratchBlocks scratch chunkSize first second).drop (1*chunkSize) = second++rest := by
  have hlen : (patch scratch (0*chunkSize) first).length = scratch.length := patch_length _ _ _
  rw [scratchBlocks, patch, Nat.one_mul, List.drop_append_of_le_length
    (by rw [List.length_take]; omega), List.drop_eq_nil_of_le (by rw [List.length_take]; omega),
    List.nil_append, List.take_of_length_le (by omega)]
  exact ⟨_, rfl⟩

end Scratch

/-! ### Strings in memory -/

/-- The string stands at this address, with its terminator. -/
def StringAt (byte : UInt16 → UInt8 → Prop) : UInt16 → List UInt8 → Prop
  | addr, [] => byte addr 0
  | addr, c::cs => byte addr c ∧ c ≠ 0 ∧ StringAt byte (addr+1) cs

section Strings

variable {mem : Bytes} {addr : UInt16} {str : List UInt8}

theorem stringAt_chars (h : StringAt (fun a b => mem a = some b) addr str) : 0 ∉ str := by
  induction str generalizing addr with
  | nil => exact List.not_mem_nil
  | cons c cs ih =>
    rw [List.mem_cons, not_or]
    exact ⟨fun hzero => h.2.1 hzero.symm, ih h.2.2⟩

theorem stringAt_read (h : StringAt (fun a b => mem a = some b) addr str) (len : ℕ) :
    strAt mem addr len = some ((str++[0]).take len) := by
  induction str generalizing addr len with
  | nil =>
    have hbyte : mem addr = some 0 := h
    cases len with
    | zero => rfl
    | succ len => simp [strAt, hbyte]
  | cons c cs ih =>
    cases len with
    | zero => rfl
    | succ len =>
      rw [str_cons h.1 h.2.1, ih h.2.2]
      rfl

theorem stringAt_drop (h : StringAt (fun a b => mem a = some b) addr str) (i : ℕ)
    (hi : i ≤ str.length) :
    StringAt (fun a b => mem a = some b) (addr+UInt16.ofNat i) (str.drop i) := by
  induction i generalizing addr str with
  | zero =>
    rw [addr_zero]
    exact h
  | succ i ih =>
    cases str with
    | nil => exact absurd hi (Nat.not_succ_le_zero i)
    | cons c cs =>
      rw [← addr_succ]
      exact ih h.2.2 (Nat.le_of_succ_le_succ hi)

end Strings

/-! ### The loops -/

/-- What a comparison leaves in r0. -/
structure Compared (r0 : UInt16) (a b : List UInt8) : Prop where
  zero : r0 = 0 ↔ firstDiff a b = 0
  sign : r0.toInt16.toInt.sign = (firstDiff a b).sign

theorem compared_of_sign {d : ℤ} {a b : List UInt8} (hd : -255 ≤ d ∧ d ≤ 255)
    (hsign : d.sign = (firstDiff a b).sign) : Compared (UInt16.ofInt d) a b := by
  obtain ⟨hint, hzero⟩ := word_sign hd
  refine ⟨?_, by rw [hint, hsign]⟩
  rw [hzero, ← Int.sign_eq_zero_iff_zero, hsign, Int.sign_eq_zero_iff_zero]

/-- A block that differs decides. -/
theorem compared_head {r0 : UInt16} {a b : List UInt8} {n : ℕ}
    (h : Compared r0 (a.take n) (b.take n)) (hne : r0 ≠ 0) : Compared r0 a b := by
  have hdiff : firstDiff (a.take n) (b.take n) ≠ 0 := fun hzero => hne (h.zero.mpr hzero)
  have hsplit := firstDiff_split n a b
  rw [if_neg hdiff] at hsplit
  exact ⟨by rw [hsplit]; exact h.zero, by rw [hsplit]; exact h.sign⟩

/-- After a block that is equal the rest decides. -/
theorem compared_tail {r0 r0' : UInt16} {a b : List UInt8} {n : ℕ}
    (h : Compared r0 (a.take n) (b.take n)) (hzero : r0 = 0)
    (hrest : Compared r0' (a.drop n) (b.drop n)) : Compared r0' a b := by
  have hsplit := firstDiff_split n a b
  rw [if_pos (h.zero.mp hzero)] at hsplit
  exact ⟨by rw [hsplit]; exact hrest.zero, by rw [hsplit]; exact hrest.sign⟩

theorem setReg_setReg (d : ProcManProcessProcData) (r : Fin 8) (v w : UInt16) :
    (d.setReg r v).setReg r w = d.setReg r w := by
  simp [ProcManProcessProcData.setReg]

theorem region_block {m : MemoryImage} {addr : ℕ} {bytes : List UInt8} (offset len : ℕ)
    (h : HasBytes m addr bytes) (hregion : OneRegion m addr bytes.length) (hlen : 0 < len)
    (hoffset : offset+len ≤ bytes.length) :
    m.block (addr+offset) len = some ((bytes.drop offset).take len) :=
  source_block offset len h hregion (patched_nil m (m.env.length+0)) hlen hoffset
    (fun _ => Or.inr (Nat.zero_le _)) (fun _ hout => Nat.le_trans hout (Nat.le_add_right _ _))

section Runs

variable {φ : Type} {F : Files φ} {Inv : φ → Prop} {view : φ → FsView} {largest : ℕ}
  (hl : FilesLaw F Inv view largest) (hr : ReliableReads F Inv view) {C : Comparisons}
  (hC : C.Lawful) {process : ProcManProcess} {procData : ProcManProcessProcData}
  {paths : ProcessPaths} {m : MemoryImage} {p1Addr p2Addr : UInt16}

include hl hr

theorem readStr_run (len : ℕ) {s : φ} (hi : Inv s)
    (hm : ProcessMemory (view s) process procData paths m) {addr : UInt16} {str : List UInt8}
    (h : StringAt (fun a b => m.byte a.toNat = some b) addr str) :
    ∃ s', procManProcessMemoryReadStr F process procData addr len s =
      .ok (some ((str++[0]).take len), s') ∧ Inv s' ∧ view s' = view s := by
  have hreads : ReadsAs F process procData (fun s' => Inv s' ∧ view s' = view s)
      (fun a => m.byte a.toNat) := by
    intro a s₁ h₁
    obtain ⟨s₂, hrun, hi₂, hv₂⟩ := readByte_run hl hr h₁.1 (by rw [h₁.2]; exact hm) a
    exact ⟨s₂, hrun, hi₂, hv₂.trans h₁.2⟩
  obtain ⟨s', hrun, hkept⟩ := readStr_gives hreads addr len s ⟨hi, rfl⟩
  exact ⟨s', by rw [hrun, stringAt_read h], hkept⟩

include hC

/-- The ranges are compared from the byte on that the loop has come to. -/
theorem memcmpBlocks_run {a b : List UInt8} (hsame : a.length = b.length)
    (ha : HasBytes m p1Addr.toNat a) (hb : HasBytes m p2Addr.toNat b)
    (haRegion : OneRegion m p1Addr.toNat a.length) (hbRegion : OneRegion m p2Addr.toNat b.length)
    (haEnd : p1Addr.toNat+a.length ≤ 65536) (hbEnd : p2Addr.toNat+b.length ≤ 65536)
    (left i : ℕ) (scratch : List UInt8) (hscratch : scratch.length = 256)
    (hleft : a.length ≤ i+left) {s : φ} (hi : Inv s)
    (hm : ProcessMemory (view s) process (procData.setReg 0 0) paths m) :
    ∃ r0 s', memcmpBlocks F C process p1Addr p2Addr a.length scratch (procData.setReg 0 0) i left s =
        .ok ((true, procData.setReg 0 r0), s') ∧ Inv s' ∧ view s' = view s ∧
      Compared r0 (a.drop i) (b.drop i) := by
  induction left generalizing i scratch s with
  | zero =>
    refine ⟨0, s, rfl, hi, rfl, ?_⟩
    rw [List.drop_eq_nil_of_le (by omega)]
    exact ⟨by simp, by simp⟩
  | succ left ih =>
    rw [memcmpBlocks]
    by_cases hdone : a.length ≤ i
    · refine ⟨0, s, by rw [if_pos hdone]; rfl, hi, rfl, ?_⟩
      rw [List.drop_eq_nil_of_le hdone]
      exact ⟨by simp, by simp⟩
    · rw [if_neg hdone]
      obtain ⟨n, hn⟩ : ∃ n, min (a.length-i) 128 = n := ⟨_, rfl⟩
      have hfrom : ∀ p : UInt16, p.toNat+a.length ≤ 65536 →
          (p+UInt16.ofNat i).toNat = p.toNat+i := by
        intro p hp
        rw [UInt16.toNat_add, UInt16.toNat_ofNat']
        omega
      obtain ⟨s₁, hfirst, hi₁, hv₁⟩ := readBlock_run hl hr hi hm (p1Addr+UInt16.ofNat i) n
      rw [hfrom p1Addr haEnd, region_block i n ha haRegion (by omega) (by omega)] at hfirst
      obtain ⟨s₂, hsecond, hi₂, hv₂⟩ := readBlock_run hl hr hi₁ (by rw [hv₁]; exact hm)
        (p2Addr+UInt16.ofNat i) n
      rw [hfrom p2Addr (by omega), region_block i n hb hbRegion (by omega) (by omega)] at hsecond
      have hfirstLen : ((a.drop i).take n).length = n := by
        rw [List.length_take, List.length_drop]
        omega
      have hsecondLen : ((b.drop i).take n).length = n := by
        rw [List.length_take, List.length_drop]
        omega
      obtain ⟨blocks, hblocks⟩ :
          ∃ blocks, scratchBlocks scratch n ((a.drop i).take n) ((b.drop i).take n) = blocks :=
        ⟨_, rfl⟩
      have hlength : blocks.length = 256 := by rw [← hblocks, scratchBlocks_length, hscratch]
      have hfirstIn : (blocks.drop (0*n)).take n = (a.drop i).take n := by
        rw [← hblocks, scratchBlocks_first (by omega) (by omega),
          List.take_append_of_le_length (by omega), List.take_of_length_le (by omega)]
      have hsecondIn : (blocks.drop (1*n)).take n = (b.drop i).take n := by
        obtain ⟨rest, hrest⟩ := scratchBlocks_second ((a.drop i).take n)
          (by omega : 2*n ≤ scratch.length) (Nat.le_of_eq hsecondLen)
        rw [← hblocks, hrest, List.take_append_of_le_length (by omega),
          List.take_of_length_le (by omega)]
      have hsign := hC.memcmp_sign (blocks.drop (0*n)) (blocks.drop (1*n)) n
        (by rw [List.length_drop]; omega) (by rw [List.length_drop]; omega)
      rw [hfirstIn, hsecondIn] at hsign
      have hcompared := compared_of_sign (hC.memcmp_bounds _ _ _) hsign
      rw [hn, bind_of_ok hfirst]
      dsimp only
      rw [bind_of_ok hsecond]
      dsimp only
      rw [hblocks]
      by_cases hzero : UInt16.ofInt (C.memcmp (blocks.drop (0*n)) (blocks.drop (1*n)) n) = 0
      · rw [if_neg (not_not.mpr hzero), hzero, setReg_setReg]
        obtain ⟨r0, s', hrun, hi', hv', hrest⟩ := ih (i+n) blocks hlength (by omega) hi₂
          (by rw [hv₂, hv₁]; exact hm)
        refine ⟨r0, s', hrun, hi', by rw [hv', hv₂, hv₁], compared_tail hcompared hzero ?_⟩
        rw [List.drop_drop, List.drop_drop]
        exact hrest
      · rw [if_pos hzero, setReg_setReg]
        exact ⟨_, s₂, rfl, hi₂, by rw [hv₂, hv₁], compared_head hcompared hzero⟩

/-- The strings are compared from where the loop has come to. -/
theorem strcmpBlocks_run (left : ℕ) (i : UInt16) (scratch : List UInt8)
    (hscratch : scratch.length = 256) {s : φ} (hi : Inv s)
    (hm : ProcessMemory (view s) process (procData.setReg 0 0) paths m) {a b : List UInt8}
    (ha : StringAt (fun a b => m.byte a.toNat = some b) (p1Addr+i) a)
    (hb : StringAt (fun a b => m.byte a.toNat = some b) (p2Addr+i) b)
    (hleft : a.length < 128*left) :
    ∃ r0 s', strcmpBlocks F C process p1Addr p2Addr scratch (procData.setReg 0 0) i left s =
        .ok (some (true, procData.setReg 0 r0), s') ∧ Inv s' ∧ view s' = view s ∧
      Compared r0 (a++[0]) (b++[0]) := by
  induction left generalizing i scratch s a b with
  | zero => exact absurd hleft (Nat.not_lt_zero _)
  | succ left ih =>
    have hano := stringAt_chars ha
    have hbno := stringAt_chars hb
    obtain ⟨s₁, hfirst, hi₁, hv₁⟩ := readStr_run hl hr 128 hi hm ha
    obtain ⟨s₂, hsecond, hi₂, hv₂⟩ := readStr_run hl hr 128 hi₁ (by rw [hv₁]; exact hm) hb
    obtain ⟨blocks, hblocks⟩ :
        ∃ blocks, scratchBlocks scratch 128 ((a++[0]).take 128) ((b++[0]).take 128) = blocks :=
      ⟨_, rfl⟩
    have hlength : blocks.length = 256 := by rw [← hblocks, scratchBlocks_length, hscratch]
    have hfirstIn : (blocks.drop (0*128)).take 128 =
        ((a++[0]).take 128++scratch.drop ((a++[0]).take 128).length).take 128 := by
      rw [← hblocks, scratchBlocks_first (by omega) (by rw [List.length_take]; omega)]
    have hfirstCut : upToNul ((blocks.drop (0*128)).take 128) = (a++[0]).take 128 := by
      rw [hfirstIn, upToNul_piece hano]
    have hsecondCut : upToNul ((blocks.drop (1*128)).take 128) = (b++[0]).take 128 := by
      obtain ⟨rest, hrest⟩ := scratchBlocks_second ((a++[0]).take 128)
        (by omega : 2*128 ≤ scratch.length) (List.length_take_le 128 (b++[0]))
      rw [← hblocks, hrest, upToNul_piece hbno]
    have hsign := hC.strncmp_sign (blocks.drop (0*128)) (blocks.drop (1*128)) 128
      (by rw [List.length_drop]; omega) (by rw [List.length_drop]; omega)
    rw [hfirstCut, hsecondCut] at hsign
    have hcompared := compared_of_sign (hC.strncmp_bounds _ _ _) hsign
    rw [strcmpBlocks, bind_of_ok hfirst]
    dsimp only
    rw [bind_of_ok hsecond]
    dsimp only
    rw [hblocks]
    by_cases hzero :
        UInt16.ofInt (C.strncmp (blocks.drop (0*128)) (blocks.drop (1*128)) 128) = 0
    · by_cases hends : 0 ∈ (blocks.drop (0*128)).take 128
      · rw [if_pos (Or.inr hends), setReg_setReg]
        rw [hfirstIn, nul_in_piece hano] at hends
        refine ⟨_, s₂, rfl, hi₂, by rw [hv₂, hv₁], compared_tail hcompared hzero ?_⟩
        have hlen : (a++[0]).length = a.length+1 := List.length_append
        rw [hzero, List.drop_eq_nil_of_le (by omega : (a++[0]).length ≤ 128)]
        exact ⟨by simp, by simp⟩
      · rw [if_neg (not_or.mpr ⟨not_not.mpr hzero, hends⟩), hzero, setReg_setReg]
        rw [hfirstIn, nul_in_piece hano, Nat.not_lt] at hends
        have hbends := firstDiff_ends hano hends (hcompared.zero.mp hzero)
        have ha' := stringAt_drop ha 128 hends
        have hb' := stringAt_drop hb 128 hbends
        rw [UInt16.add_assoc] at ha' hb'
        obtain ⟨r0, s', hrun, hi', hv', hrest⟩ := ih (i+UInt16.ofNat 128) blocks hlength hi₂
          (by rw [hv₂, hv₁]; exact hm) ha' hb' (by rw [List.length_drop]; omega)
        refine ⟨r0, s', hrun, hi', by rw [hv', hv₂, hv₁], compared_tail hcompared hzero ?_⟩
        rw [List.drop_append_of_le_length hends, List.drop_append_of_le_length hbends]
        exact hrest
    · rw [if_pos (Or.inl hzero), setReg_setReg]
      exact ⟨_, s₂, rfl, hi₂, by rw [hv₂, hv₁], compared_head hcompared hzero⟩

end Runs

/-- A variable, a string of the program and a length of two bytes. -/
def compareData : ProcManProcessProcData :=
  ((shellData.setReg 1 64512).setReg 2 0).setReg 3 2

end ArduinoOS.Procman
