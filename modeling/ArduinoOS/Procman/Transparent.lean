import ArduinoOS.Procman.Instructions
import ArduinoOS.Procman.ProcessMemory

/-!
# The prefetch buffer

All bytes of a tick come through the buffer in one chain. A byte of the chain is
the one a direct read gives, as long as the buffer holds what the memory holds:
nothing executed later has changed, no program has been replaced under it, and
it was not filled from beyond the environment variables.
-/

set_option autoImplicit false

namespace ArduinoOS.Procman
open ArduinoOS.Faulting ArduinoOS.Kernel ArduinoOS.Minifs

section Chains

variable {φ : Type} (F : Files φ)

/-- Fetches that follow one another, from one buffer to the next. -/
inductive Chain : ProcManPrefetchData → List (ByteFetch φ) → ProcManPrefetchData → Prop
  | nil (pd : ProcManPrefetchData) : Chain pd [] pd
  | clear (pd pd' : ProcManPrefetchData) (l : List (ByteFetch φ))
      (h : Chain (procManPrefetchDataClear pd) l pd') : Chain pd l pd'
  | fetch (e : ByteFetch φ) (pd₁ pd' : ProcManPrefetchData) (l : List (ByteFetch φ)) (s₁ : φ)
      (hread : procManPrefetchDataReadByte F e.process e.procData e.prefetchData e.addr e.files =
        .ok ((e.result, pd₁), s₁))
      (h : Chain pd₁ l pd') : Chain e.prefetchData (e::l) pd'

/-- What a run adds to the fetches is a chain. -/
def Fetches (t t' : Running φ) : Prop :=
  ∃ l, t'.fetched = t.fetched++l ∧ Chain F t.prefetchData l t'.prefetchData

variable {F} {sys : Syscall φ} {pid : ℕ} {t t' : Running φ} {s s' : ProcTable × φ}

theorem chain_append {pd pd₁ pd₂ : ProcManPrefetchData} {l l' : List (ByteFetch φ)}
    (h : Chain F pd l pd₁) (h' : Chain F pd₁ l' pd₂) : Chain F pd (l++l') pd₂ := by
  induction h with
  | nil => exact h'
  | clear pd _ l _ ih => exact .clear pd pd₂ (l++l') (ih h')
  | fetch e pd _ l s hread _ ih => exact .fetch e pd pd₂ (l++l') s hread (ih h')

theorem fetches_same (hf : t'.fetched = t.fetched) (hp : t'.prefetchData = t.prefetchData) :
    Fetches F t t' :=
  ⟨[], by rw [hf, List.append_nil], hp ▸ .nil _⟩

theorem fetches_trans {t₁ : Running φ} (h : Fetches F t t₁) (h' : Fetches F t₁ t') :
    Fetches F t t' := by
  obtain ⟨l, hl, hc⟩ := h
  obtain ⟨l', hl', hc'⟩ := h'
  exact ⟨l++l', by rw [hl', hl, List.append_assoc], chain_append hc hc'⟩

theorem fetchByte_fetches {r : Option UInt8} (h : fetchByte F pid t s = .ok ((r, t'), s')) :
    Fetches F t t' := by
  obtain ⟨r', s₁, hread, hp⟩ := bind_ok.mp h
  obtain ⟨heq, _⟩ := pure_ok.mp hp
  obtain ⟨hread, _⟩ := onSecond_ok.mp hread
  cases heq
  exact ⟨_, rfl, .fetch (ByteFetch.mk (s.1 pid) _ t.prefetchData s.2 _ r'.1) r'.2 _ [] s₁.2
    hread (.nil _)⟩

theorem getInstruction_fetches {r : Option BytecodeInstruction}
    (h : procManProcessGetInstruction F pid t s = .ok ((r, t'), s')) : Fetches F t t' := by
  obtain ⟨r₀, s₀, h₀, h⟩ := bind_ok.mp h
  have hf₀ := fetchByte_fetches h₀
  cases hr₀ : r₀.1 with
  | none =>
    rw [hr₀] at h
    cases h
    exact hf₀
  | some byte0 =>
    rw [hr₀] at h
    dsimp only at h
    split at h
    case isTrue =>
      cases h
      exact hf₀
    case isFalse =>
      obtain ⟨r₁, s₁, h₁, h⟩ := bind_ok.mp h
      have hf₁ := fetches_trans hf₀ (fetchByte_fetches h₁)
      cases hr₁ : r₁.1 with
      | none =>
        rw [hr₁] at h
        cases h
        exact hf₁
      | some byte1 =>
        rw [hr₁] at h
        dsimp only at h
        split at h
        case isTrue =>
          cases h
          exact hf₁
        case isFalse =>
          obtain ⟨r₂, s₂, h₂, h⟩ := bind_ok.mp h
          have hf₂ := fetches_trans hf₁ (fetchByte_fetches h₂)
          cases hr₂ : r₂.1 with
          | none =>
            rw [hr₂] at h
            cases h
            exact hf₂
          | some byte2 =>
            rw [hr₂] at h
            cases h
            exact hf₂

theorem skip_fetches {b : Bool} (n : ℕ) (h : skipInstructions F pid t n s = .ok ((b, t'), s')) :
    Fetches F t t' := by
  induction n generalizing t s with
  | zero =>
    cases h
    exact fetches_same rfl rfl
  | succ n ih =>
    obtain ⟨r, s₁, hget, h⟩ := bind_ok.mp h
    have hf := getInstruction_fetches hget
    cases hr : r.1 with
    | none =>
      rw [hr] at h
      cases h
      exact hf
    | some instruction =>
      rw [hr] at h
      exact fetches_trans hf (ih h)

theorem writeMemory_fetches {b : Bool} {addr : UInt16} {data : List UInt8}
    (h : writeMemory F pid t addr data s = .ok ((b, t'), s')) : Fetches F t t' := by
  obtain ⟨r, s₁, _, hp⟩ := bind_ok.mp h
  cases hp
  exact fetches_same rfl rfl

theorem memory_fetches {b : Bool} {type : BytecodeInstructionMemoryType} {destReg srcReg : Fin 8}
    {set4Value : UInt16}
    (h : procManProcessExecInstructionMemory F pid t type destReg srcReg set4Value s =
      .ok ((b, t'), s')) : Fetches F t t' := by
  cases type with
  | store8 => exact writeMemory_fetches h
  | load8 =>
    obtain ⟨value, s₁, _, h⟩ := bind_ok.mp h
    cases value <;> cases h <;> exact fetches_same rfl rfl
  | set4 =>
    cases h
    exact fetches_same rfl rfl

/-- A write and then, if it went well, changes of registers only. -/
theorem write_then_fetches {b : Bool} {addr value : UInt16} {f : Running φ → Running φ}
    (hf : ∀ t, (f t).fetched = t.fetched ∧ (f t).prefetchData = t.prefetchData)
    (h : (writeWord F pid t addr value >>= fun r =>
      if r.1 = false then pure (false, r.2) else pure (true, f r.2)) s = .ok ((b, t'), s')) :
    Fetches F t t' := by
  obtain ⟨r, s₁, hw, h⟩ := bind_ok.mp h
  have hf' := writeMemory_fetches hw
  split at h
  case isTrue =>
    cases h
    exact hf'
  case isFalse =>
    cases h
    exact fetches_trans hf' (fetches_same (hf r.2).1 (hf r.2).2)

theorem extra_fetches {b : Bool} {destReg opAReg opBReg : Fin 8}
    (h : procManProcessExecInstructionAluExtra F pid t destReg opAReg opBReg s =
      .ok ((b, t'), s')) : Fetches F t t' := by
  rw [procManProcessExecInstructionAluExtra] at h
  cases hx : bytecodeAluExtraType opBReg with
  | not | clz =>
    rw [hx] at h
    cases h
    exact fetches_same rfl rfl
  | store16 =>
    rw [hx] at h
    exact writeMemory_fetches h
  | load16 | pop16 =>
    rw [hx] at h
    obtain ⟨value, s₁, _, h⟩ := bind_ok.mp h
    cases value <;> cases h <;> exact fetches_same rfl rfl
  | push16 =>
    rw [hx] at h
    exact write_then_fetches (f := fun t => t.setReg destReg (t.procData.regs destReg+2))
      (fun _ => ⟨rfl, rfl⟩) h
  | call =>
    rw [hx] at h
    exact write_then_fetches (f := fun t =>
      (t.setReg opAReg (t.procData.regs opAReg+2)).setReg BytecodeRegisterIP
        ((t.setReg opAReg (t.procData.regs opAReg+2)).procData.regs destReg))
      (fun _ => ⟨rfl, rfl⟩) h
  | xchg8 =>
    rw [hx] at h
    obtain ⟨value, s₁, _, h⟩ := bind_ok.mp h
    cases value with
    | none =>
      cases h
      exact fetches_same rfl rfl
    | some value =>
      obtain ⟨r, s₂, hw, h⟩ := bind_ok.mp h
      have hf := writeMemory_fetches hw
      split at h
      case isTrue =>
        cases h
        exact hf
      case isFalse =>
        cases h
        exact fetches_trans hf (fetches_same rfl rfl)

theorem alu_fetches {b : Bool} {type : BytecodeInstructionAluType} {destReg opAReg opBReg : Fin 8}
    (h : procManProcessExecInstructionAlu F pid t type destReg opAReg opBReg s =
      .ok ((b, t'), s')) : Fetches F t t' := by
  cases type with
  | div =>
    simp only [procManProcessExecInstructionAlu] at h
    split at h <;> cases h <;> exact fetches_same rfl rfl
  | skip =>
    simp only [procManProcessExecInstructionAlu] at h
    split at h
    case isTrue => exact skip_fetches _ h
    case isFalse =>
      cases h
      exact fetches_same rfl rfl
  | extra => exact extra_fetches h
  | inc | dec | add | sub | mul | xor | or | and | cmp | shiftLeft | shiftRight | unknown =>
    cases h
    exact fetches_same rfl rfl

theorem misc_fetches {b : Bool} {type : BytecodeInstructionMiscType}
    (h : procManProcessExecInstructionMisc sys pid t type s = .ok ((b, t'), s')) :
    Fetches F t t' := by
  cases type with
  | nop | illegal | debug | unknown =>
    cases h
    exact fetches_same rfl rfl
  | syscall =>
    obtain ⟨r, s₁, _, h⟩ := bind_ok.mp h
    cases h
    exact fetches_same rfl rfl
  | clearInstructionCache =>
    cases h
    exact ⟨[], (List.append_nil _).symm, .clear _ _ _ (.nil _)⟩
  | unassigned => cases h

theorem exec_fetches {b : Bool} {instruction : BytecodeInstruction}
    (h : procManProcessExecInstruction F sys pid t instruction s = .ok ((b, t'), s')) :
    Fetches F t t' := by
  rw [procManProcessExecInstruction] at h
  cases hi : bytecodeInstructionParse instruction with
  | memory type destReg srcReg set4Value =>
    rw [hi] at h
    exact memory_fetches h
  | alu type destReg opAReg opBReg =>
    rw [hi] at h
    exact alu_fetches h
  | misc type =>
    rw [hi] at h
    exact misc_fetches h
  | set8 destReg value | set16 destReg value =>
    rw [hi] at h
    cases h
    exact fetches_same rfl rfl

/-- Every run of a tick's instructions adds a chain. -/
theorem loop_fetches {b : Bool} (left : ℕ)
    (h : procManProcessTickLoop F sys pid t left s = .ok ((b, t'), s')) : Fetches F t t' := by
  induction left generalizing t s with
  | zero =>
    cases h
    exact fetches_same rfl rfl
  | succ left ih =>
    obtain ⟨r, s₁, hget, h⟩ := bind_ok.mp h
    have hf := getInstruction_fetches hget
    cases hr : r.1 with
    | none =>
      rw [hr] at h
      cases h
      exact hf
    | some instruction =>
      rw [hr] at h
      obtain ⟨r', s₂, hexec, h⟩ := bind_ok.mp h
      have hf' := fetches_trans hf (exec_fetches hexec)
      split at h
      case isTrue =>
        cases h
        exact hf'
      case isFalse =>
        obtain ⟨table, s₃, _, h⟩ := bind_ok.mp h
        split at h
        case isTrue =>
          obtain ⟨_, s₄, _, h⟩ := bind_ok.mp h
          split at h
          case isTrue =>
            cases h
            exact hf'
          case isFalse => exact fetches_trans hf' (ih h)
        case isFalse => cases h

end Chains

/-! ### What the buffer holds -/

section Buffers

variable {φ : Type} (F : Files φ) (Inv : φ → Prop) (view : φ → FsView)

/-- A direct read of one address, at the moment a byte is fetched. -/
def DirectRead (e : ByteFetch φ) (addr : UInt16) (v : Option UInt8) : Prop :=
  ∃ s₁, procManProcessMemoryReadByte F e.process e.procData addr e.files = .ok (v, s₁)

/-- The program and the memory of the process are open files. -/
def Backed (e : ByteFetch φ) : Prop :=
  Inv e.files ∧ ∃ paths m, ProcessMemory (view e.files) e.process e.procData paths m

/-- The address lies beyond the environment variables and the RAM. -/
def BeyondEnv (e : ByteFetch φ) : Prop :=
  ProcManEnvVarsVirtualOffset+e.procData.envVarDataLen.toNat ≤ e.addr.toNat ∧
    BytecodeMemoryRamAddr+e.procData.ramLen.toNat ≤ e.addr.toNat

/-- No address fetched later has changed under the same program. -/
def WritesNothingExecuted (l : List (ByteFetch φ)) : Prop :=
  ∀ past e between e' rest, l = past++e::(between++e'::rest) →
    (∀ x ∈ between, x.process.progmemFd = e.process.progmemFd) →
    e'.process.progmemFd = e.process.progmemFd →
    ∀ v, DirectRead F e e'.addr v → DirectRead F e' e'.addr v

/-- The first byte fetched from a new program is not in the buffer. -/
def ReplacedOutside (l : List (ByteFetch φ)) : Prop :=
  ∀ past e e' rest, l = past++e::e'::rest →
    e'.process.progmemFd ≠ e.process.progmemFd → ¬ e'.prefetchData.Has e'.addr

/-- No byte beyond the environment variables is in the buffer when it is fetched. -/
def WindowOutside (l : List (ByteFetch φ)) : Prop :=
  ∀ e ∈ l, BeyondEnv e → ¬ e.prefetchData.Has e.addr

/-- The buffer was filled at one of the fetches so far, and the program has not
been replaced since. -/
def Filled (past : List (ByteFetch φ)) (pd : ProcManPrefetchData) : Prop :=
  pd.buffer = [] ∨ ∃ before e₀ after s₁, past = before++e₀::after ∧
    (∀ x ∈ after, x.process.progmemFd = e₀.process.progmemFd) ∧ pd.baseAddr = e₀.addr ∧
    procManProcessMemoryReadBlock F e₀.process e₀.procData e₀.addr pd.buffer.length e₀.files =
      .ok (some pd.buffer, s₁)

variable {F Inv view} {largest : ℕ} (hl : FilesLaw F Inv view largest)
  (hr : ReliableReads F Inv view)

include hl hr

theorem directRead_iff {e : ByteFetch φ} {paths : ProcessPaths} {m : MemoryImage}
    (hi : Inv e.files) (hm : ProcessMemory (view e.files) e.process e.procData paths m)
    (addr : UInt16) (v : Option UInt8) :
    DirectRead F e addr v ↔
      v = (m.block addr.toNat 1).map (fun bytes => bytes.getD 0 0) := by
  obtain ⟨s₁, hrun, _⟩ := readBlock_run hl hr hi hm addr 1
  rw [DirectRead, procManProcessMemoryReadByte, bind_of_ok hrun]
  constructor
  · rintro ⟨s₂, h⟩
    exact (pure_ok.mp h).1
  · intro h
    exact ⟨s₁, pure_ok.mpr ⟨h, rfl⟩⟩

theorem fill_cases {process : ProcManProcess} {procData : ProcManProcessProcData}
    {paths : ProcessPaths} {m : MemoryImage} {addr : UInt16} {bytes : List UInt8}
    (sizes : List ℕ) {s s' : φ} (hi : Inv s)
    (hm : ProcessMemory (view s) process procData paths m)
    (h : procManPrefetchFill F process procData addr sizes s = .ok (bytes, s')) :
    (bytes = [] ∧ ∀ len ∈ sizes, m.block addr.toNat len = none) ∨
      ∃ len ∈ sizes, m.block addr.toNat len = some bytes := by
  induction sizes generalizing s with
  | nil =>
    cases h
    exact Or.inl ⟨rfl, fun len hlen => nomatch hlen⟩
  | cons len sizes ih =>
    obtain ⟨s₁, hrun, hi₁, hv⟩ := readBlock_run hl hr hi hm addr len
    rw [procManPrefetchFill, bind_of_ok hrun] at h
    cases hb : m.block addr.toNat len with
    | some bytes' =>
      rw [hb] at h
      cases h
      exact Or.inr ⟨len, List.mem_cons_self, hb⟩
    | none =>
      rw [hb] at h
      rcases ih hi₁ (hv.symm ▸ hm) h with ⟨hnil, hall⟩ | ⟨n, hn, hsome⟩
      · refine Or.inl ⟨hnil, fun n hn => ?_⟩
        rcases List.mem_cons.mp hn with rfl | hn
        · exact hb
        · exact hall n hn
      · exact Or.inr ⟨n, List.mem_cons_of_mem _ hn, hsome⟩

omit hl hr in
/-- An address that cannot be read, high enough, lies beyond the variables. -/
theorem unreadable_beyond {e : ByteFetch φ} {paths : ProcessPaths} {m : MemoryImage}
    (hm : ProcessMemory (view e.files) e.process e.procData paths m)
    (hhigh : ProcManEnvVarsVirtualOffset ≤ e.addr.toNat)
    (hnone : m.block e.addr.toNat 1 = none) : BeyondEnv e := by
  have hbase : BytecodeMemoryRamAddr = 32768 := rfl
  have hwindow : MemoryImage.envIndex = 31744 := rfl
  have hvirtual : ProcManEnvVarsVirtualOffset = 64512 := rfl
  have henv := hm.envLen
  have hram := hm.ramLen
  have hfile := m.file_length
  have hsome : ∀ offset, m.offsetOf (e.addr.toNat-BytecodeMemoryRamAddr) = some offset →
      offset+1 ≤ m.file.length → False := by
    intro offset ho hfits
    rw [MemoryImage.block_at (by omega) ho] at hnone
    obtain ⟨bytes, hs⟩ := sliceOf_isSome hfits
    rw [hnone] at hs
    cases hs
  constructor
  · by_contra hin
    by_cases hcovered : e.addr.toNat-BytecodeMemoryRamAddr < m.ram.length
    · exact hsome _ (MemoryImage.offsetOf_ram hcovered) (by omega)
    · exact hsome _ (MemoryImage.offsetOf_env (by omega) (by omega) (by omega)) (by omega)
  · by_contra hin
    exact hsome _ (MemoryImage.offsetOf_ram (by omega)) (by omega)

/-- A byte that is in the buffer. -/
theorem hit_direct {past rest : List (ByteFetch φ)} {e : ByteFetch φ}
    (hbacked : ∀ x ∈ past++e::rest, Backed Inv view x)
    (hwrites : WritesNothingExecuted F (past++e::rest))
    (hreplaced : ReplacedOutside (past++e::rest)) (hwin : WindowOutside (past++e::rest))
    (hfilled : Filled F past e.prefetchData) (hhas : e.prefetchData.Has e.addr) :
    DirectRead F e e.addr
      e.prefetchData.buffer[e.addr.toNat-e.prefetchData.baseAddr.toNat]? ∧
    Filled F (past++[e]) e.prefetchData := by
  obtain ⟨hge, hlt⟩ := hhas
  rcases hfilled with hnil | ⟨before, e₀, after, s₁, hpast, hafter, hbase, hblock⟩
  · rw [hnil] at hlt
    exact absurd hlt (by simp only [List.length_nil]; omega)
  have hsame : e.process.progmemFd = e₀.process.progmemFd := by
    by_contra hne
    rcases List.eq_nil_or_concat after with hnil | ⟨front, x, hx⟩
    · rw [hnil] at hpast
      exact hreplaced before e₀ e rest (by rw [hpast, List.append_assoc]; rfl) hne ⟨hge, hlt⟩
    · have hxsame := hafter x (by rw [hx]; simp)
      refine hreplaced (before++e₀::front) x e rest ?_ (by rw [hxsame]; exact hne) ⟨hge, hlt⟩
      rw [hpast, hx]
      simp
  have hlist : past++e::rest = before++e₀::(after++e::rest) := by
    rw [hpast]
    simp
  have hkept := hwrites before e₀ after e rest hlist hafter hsame
  obtain ⟨hi₀, paths₀, m₀, hm₀⟩ := hbacked e₀ (by rw [hlist]; simp)
  obtain ⟨hi, paths, m, hm⟩ := hbacked e (by simp)
  obtain ⟨s₂, hrun, _⟩ := readBlock_run hl hr hi₀ hm₀ e₀.addr e.prefetchData.buffer.length
  have hm₀block : m₀.block e₀.addr.toNat e.prefetchData.buffer.length =
      some e.prefetchData.buffer := by
    rw [hrun] at hblock
    exact congrArg Prod.fst (Except.ok.inj hblock)
  have hpos : e₀.addr.toNat+(e.addr.toNat-e.prefetchData.baseAddr.toNat) = e.addr.toNat := by
    rw [← hbase]
    omega
  refine ⟨?_, Or.inr ⟨before, e₀, after++[e], s₁, by rw [hpast, List.append_assoc]; rfl,
    fun x hx => ?_, hbase, hblock⟩⟩
  · rcases MemoryImage.block_byte hm₀block
      (k := e.addr.toNat-e.prefetchData.baseAddr.toNat) (by omega) with hbyte | hbeyond
    · rw [hpos] at hbyte
      apply hkept
      rw [directRead_iff hl hr hi₀ hm₀, hbyte]
      cases e.prefetchData.buffer[e.addr.toNat-e.prefetchData.baseAddr.toNat]? <;> rfl
    · rw [hpos] at hbeyond
      exfalso
      have hnone : DirectRead F e e.addr none := by
        apply hkept
        rw [directRead_iff hl hr hi₀ hm₀, MemoryImage.beyond_unreadable hbeyond]
        rfl
      rw [directRead_iff hl hr hi hm] at hnone
      refine hwin e (by simp) (unreadable_beyond hm ?_ ?_) ⟨hge, hlt⟩
      · exact Nat.le_trans (Nat.le_add_right _ _) hbeyond.1
      · cases hb : m.block e.addr.toNat 1 with
        | none => rfl
        | some bytes =>
          rw [hb] at hnone
          cases hnone
  · rcases List.mem_append.mp hx with hx | hx
    · exact hafter x hx
    · rw [List.mem_singleton.mp hx]
      exact hsame

/-- A byte that is not in the buffer: the buffer is filled from its address on. -/
theorem miss_direct {past : List (ByteFetch φ)} {e : ByteFetch φ} {pd₁ : ProcManPrefetchData}
    {s₁ : φ} (hbacked : Backed Inv view e) (hmiss : ¬ e.prefetchData.Has e.addr)
    (hread : procManPrefetchDataReadByte F e.process e.procData e.prefetchData e.addr e.files =
      .ok ((e.result, pd₁), s₁)) :
    DirectRead F e e.addr e.result ∧ Filled F (past++[e]) pd₁ := by
  obtain ⟨hi, paths, m, hm⟩ := hbacked
  rw [procManPrefetchDataReadByte, if_neg hmiss] at hread
  obtain ⟨bytes, s₂, hfill, hread⟩ := bind_ok.mp hread
  rcases fill_cases hl hr _ hi hm hfill with ⟨hnil, hall⟩ | ⟨len, hlen, hblock⟩
  · rw [hnil] at hread
    obtain ⟨heq, _⟩ := pure_ok.mp hread
    obtain ⟨hresult, rfl⟩ := Prod.mk.inj heq
    refine ⟨?_, Or.inl rfl⟩
    rw [directRead_iff hl hr hi hm, hresult, hall 1 (by decide)]
    rfl
  · have hpos : 0 < len := by
      have hall : ∀ n ∈ procManPrefetchSizes, 0 < n := by decide
      exact hall len hlen
    have hlength : bytes.length = len := by
      rcases MemoryImage.block_cases hblock with ⟨_, hs⟩ | ⟨_, _, _, hs⟩
      · exact (sliceOf_some.mp hs).1
      · exact (sliceOf_some.mp hs).1
    rw [if_neg (by omega)] at hread
    obtain ⟨heq, _⟩ := pure_ok.mp hread
    obtain ⟨hresult, rfl⟩ := Prod.mk.inj heq
    constructor
    · rcases MemoryImage.block_byte hblock hpos with hbyte | hbeyond
      · rw [Nat.add_zero] at hbyte
        rw [directRead_iff hl hr hi hm, hresult, hbyte]
        cases bytes[0]? <;> rfl
      · rw [Nat.add_zero] at hbeyond
        rw [MemoryImage.beyond_unreadable hbeyond] at hblock
        cases hblock
    · obtain ⟨s₃, hrun, _⟩ := readBlock_run hl hr hi hm e.addr len
      refine Or.inr ⟨past, e, [], s₃, rfl, (fun x hx => nomatch hx), rfl, ?_⟩
      change procManProcessMemoryReadBlock F e.process e.procData e.addr bytes.length e.files = _
      rw [hlength, hrun, hblock]

theorem chain_direct {pd pd' : ProcManPrefetchData} {l : List (ByteFetch φ)}
    (h : Chain F pd l pd') (past : List (ByteFetch φ))
    (hbacked : ∀ x ∈ past++l, Backed Inv view x)
    (hwrites : WritesNothingExecuted F (past++l)) (hreplaced : ReplacedOutside (past++l))
    (hwin : WindowOutside (past++l)) (hfilled : Filled F past pd) :
    ∀ e ∈ l, DirectRead F e e.addr e.result := by
  induction h generalizing past with
  | nil =>
    intro e he
    cases he
  | clear pd pd' l _ ih => exact ih past hbacked hwrites hreplaced hwin (Or.inl rfl)
  | fetch e pd₁ pd' l s₁ hread _ ih =>
    have hstep : DirectRead F e e.addr e.result ∧ Filled F (past++[e]) pd₁ := by
      by_cases hhas : e.prefetchData.Has e.addr
      · rw [procManPrefetchDataReadByte, if_pos hhas] at hread
        obtain ⟨heq, _⟩ := pure_ok.mp hread
        obtain ⟨hresult, rfl⟩ := Prod.mk.inj heq
        rw [hresult]
        exact hit_direct hl hr hbacked hwrites hreplaced hwin hfilled hhas
      · exact miss_direct hl hr (hbacked e (by simp)) hhas hread
    have hassoc : past++e::l = past++[e]++l := by simp
    rw [hassoc] at hbacked hwrites hreplaced hwin
    intro x hx
    rcases List.mem_cons.mp hx with rfl | hx
    · exact hstep.1
    · exact ih (past++[e]) hbacked hwrites hreplaced hwin hstep.2 x hx

theorem writes_nothing {l : List (ByteFetch φ)} {m : MemoryImage}
    (hall : ∀ e ∈ l, Inv e.files ∧
      ∃ paths, ProcessMemory (view e.files) e.process e.procData paths m) :
    WritesNothingExecuted F l := by
  intro past e between e' rest heq _ _ v h
  obtain ⟨hi, paths, hm⟩ := hall e (by rw [heq]; simp)
  obtain ⟨hi', paths', hm'⟩ := hall e' (by rw [heq]; simp)
  rw [directRead_iff hl hr hi hm] at h
  exact (directRead_iff hl hr hi' hm' _ _).mpr h

end Buffers

/-! ### Two instructions of the shell -/

/-- One instruction that goes well, of a process that stays active. -/
theorem loop_step {φ : Type} {F : Files φ} {sys : Syscall φ} {pid left : ℕ}
    {t t₁ t₂ : Running φ} {s s₁ s₂ : ProcTable × φ} {instruction : BytecodeInstruction}
    (hget : procManProcessGetInstruction F pid t s = .ok ((some instruction, t₁), s₁))
    (hexec : procManProcessExecInstruction F sys pid t₁ instruction s₁ = .ok ((true, t₂), s₂))
    (hcounter : (s₂.1 pid).instructionCounter < 65500) (hactive : (s₂.1 pid).state = .active) :
    procManProcessTickLoop F sys pid t (left+1) s =
      procManProcessTickLoop F sys pid t₂ left (Function.update s₂.1 pid
        { s₂.1 pid with instructionCounter := (s₂.1 pid).instructionCounter+1 }, s₂.2) := by
  rw [procManProcessTickLoop, bind_of_ok hget]
  change (procManProcessExecInstruction F sys pid t₁ instruction >>= _) s₁ = _
  rw [bind_of_ok hexec]
  change (if (s₂.1 pid).instructionCounter < 65500 then _ else _ : ProcManRun φ _) s₂ = _
  rw [if_pos hcounter]
  change (if (s₂.1 pid).state ≠ .active then _ else _ : ProcManRun φ _) _ = _
  rw [if_neg (fun h => h hactive)]

def shellTable : ProcTable := fun _ => shellProcess

/-- The exit system call, whatever is asked for. -/
def exitSyscall : Syscall FsView := fun _ procData _ => pure (false, procData, procData.regs 1)

/-- The shell's record with its instruction pointer here. -/
def shellAt (addr : UInt16) : ProcManProcessProcData := shellData.setReg BytecodeRegisterIP addr

theorem shell_memory_at {prog : List UInt8} {process : ProcManProcess}
    {procData : ProcManProcessProcData} (hprog : process.progmemFd = shellProcess.progmemFd)
    (hproc : process.procFd = shellProcess.procFd) (hramFd : procData.ramFd = shellData.ramFd)
    (henv : procData.envVarDataLen = shellData.envVarDataLen)
    (hram : procData.ramLen = shellData.ramLen) :
    ProcessMemory (shellView prog) process procData shellPaths (shellImage prog) where
  progFd := hprog ▸ (shell_memory prog).progFd
  progFile := rfl
  ramFd := hramFd ▸ (shell_memory prog).ramFd
  ramFile := rfl
  envLen := henv ▸ (shell_memory prog).envLen
  ramLen := hram ▸ (shell_memory prog).ramLen
  procFd := hproc ▸ (shell_memory prog).procFd
  valid := by
    rw [hprog, hproc]
    exact (shell_memory prog).valid
  apart := (shell_memory prog).apart

/-- A byte fetched by the shell before anything was written. -/
def ShellFetch (prog : List UInt8) (e : ByteFetch FsView) : Prop :=
  e.files = shellView prog ∧ e.process.progmemFd = shellProcess.progmemFd ∧
    e.process.procFd = shellProcess.procFd ∧ e.procData.ramFd = shellData.ramFd ∧
    e.procData.envVarDataLen = shellData.envVarDataLen ∧ e.procData.ramLen = shellData.ramLen

theorem shellFetch_memory {prog : List UInt8} {e : ByteFetch FsView} (h : ShellFetch prog e) :
    FsView.Bounded e.files ∧
      ProcessMemory e.files e.process e.procData shellPaths (shellImage prog) := by
  obtain ⟨hfiles, hprog, hproc, hramFd, henv, hram⟩ := h
  rw [hfiles]
  exact ⟨shell_bounded prog, shell_memory_at hprog hproc hramFd henv hram⟩

/-- Two instructions of one byte, from its program and from its variables. -/
theorem shell_run :
    (∃ t' s', procManProcessTickLoop viewFiles exitSyscall 1 (startTick (shellAt 0)) 2
        (shellTable, shellView [192, 192]) = .ok ((true, t'), s') ∧
      t'.fetched.map (fun e => (e.addr, e.result)) = [(0, some 192), (1, some 192)] ∧
      ∀ e ∈ t'.fetched, ShellFetch [192, 192] e) ∧
    (∃ t' s', procManProcessTickLoop viewFiles exitSyscall 1 (startTick (shellAt 64513)) 2
        (shellTable, shellView [192, 192]) = .ok ((true, t'), s') ∧
      t'.fetched.map (fun e => (e.addr, e.result)) = [(64513, some 0), (64514, some 1)] ∧
      ∀ e ∈ t'.fetched, ShellFetch [192, 192] e) := by
  constructor
  · rw [loop_step rfl rfl (by decide) rfl, loop_step rfl rfl (by decide) rfl]
    refine ⟨_, _, rfl, rfl, fun e he => ?_⟩
    change e ∈ [_, _] at he
    rcases List.mem_pair.mp he with rfl | rfl
    · exact ⟨rfl, rfl, rfl, rfl, rfl, rfl⟩
    · exact ⟨rfl, rfl, rfl, rfl, rfl, rfl⟩
  · rw [loop_step rfl rfl (by decide) rfl, loop_step rfl rfl (by decide) rfl]
    refine ⟨_, _, rfl, rfl, fun e he => ?_⟩
    change e ∈ [_, _] at he
    rcases List.mem_pair.mp he with rfl | rfl
    · exact ⟨rfl, rfl, rfl, rfl, rfl, rfl⟩
    · exact ⟨rfl, rfl, rfl, rfl, rfl, rfl⟩

end ArduinoOS.Procman
