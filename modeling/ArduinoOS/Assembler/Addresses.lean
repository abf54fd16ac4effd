import ArduinoOS.Assembler.SharedDefines
import ArduinoOS.Lib.Layout

/-!
# The addresses of defines

Where the passes leave the data of each define, and what the address of its symbol
shows. A define that points to one without storage is shown what comes behind.
-/

set_option autoImplicit false

namespace ArduinoOS.Assembler
open ArduinoOS.Passes ArduinoOS.Sharing ArduinoOS.Layout

/-! ### What is to hold -/

/-- The data stands at this place. -/
def BytesAt (image : List UInt8) (a : ℕ) (data : List UInt8) : Prop :=
  (image.drop a).take data.length = data

/-- No byte is shared with an instruction. -/
def Apart (instructions : List AssemblerInstruction) (a n : ℕ) : Prop :=
  ∀ (i : ℕ) instruction, instructions[i]? = some instruction → instruction.isDefine = false →
    ∀ x, a ≤ x → x < a+n →
      ¬ (placeOf instructions i ≤ x ∧ x < placeOf instructions i+instruction.machineCodeLen)

/-- The symbol of a define leads to its data, which stands apart from every instruction. -/
def Addressed (instructions : List AssemblerInstruction) (d : AssemblerInstructionDefine) : Prop :=
  ∃ a, assemblerGetDefineSymbolAddr instructions d.symbol = some a ∧
    BytesAt (assemblerProgramWriteMachineCode instructions) a d.data ∧
    Apart instructions a d.data.length

/-- The passes end, and with their result every define is found at its address. -/
def DefinesKept (p : AssemblerProgram) : Prop :=
  ∃ least instructions, (∀ fuel ≥ least, sharedDefines fuel p.instructions = some instructions) ∧
    ∀ instruction ∈ p.instructions, ∀ d, instruction.type = .define d → Addressed instructions d

/-! ### Defines behind everything else -/

/-- The instructions once the defines have been moved. -/
def ordered (p : AssemblerProgram) : List AssemblerInstruction :=
  p.instructions.filter (fun instruction => !instruction.isDefine)++
    p.instructions.filter AssemblerInstruction.isDefine

section Ordered

variable (p : AssemblerProgram)

theorem ordered_perm : (ordered p).Perm p.instructions :=
  List.perm_append_comm.trans (List.filter_append_perm _ _)

theorem ordered_lines {i j : ℕ} {a b : AssemblerInstruction} (hi : (ordered p)[i]? = some a)
    (hj : (ordered p)[j]? = some b) (h : a.lineIndex = b.lineIndex) : i = j := by
  have hnodup : ((ordered p).map AssemblerInstruction.lineIndex).Nodup :=
    ((ordered_perm p).map _).nodup_iff.mpr p.lines
  have hlt : i < ((ordered p).map AssemblerInstruction.lineIndex).length := by
    rw [List.length_map]
    exact (List.getElem?_eq_some_iff.mp hi).1
  apply (List.getElem?_inj hlt hnodup).mp
  rw [List.getElem?_map, List.getElem?_map, hi, hj, Option.map_some, Option.map_some, h]

theorem ordered_symbols {i j : ℕ} {a b : AssemblerInstruction} {symbol : CStr}
    (hi : (ordered p)[i]? = some a) (hj : (ordered p)[j]? = some b)
    (ha : a.symbol? = some symbol) (hb : b.symbol? = some symbol) : i = j := by
  have hnodup : ((ordered p).filterMap AssemblerInstruction.symbol?).Nodup :=
    ((ordered_perm p).filterMap _).nodup_iff.mpr p.symbols
  rw [List.Nodup, List.pairwise_filterMap, List.pairwise_iff_getElem] at hnodup
  obtain ⟨hilt, rfl⟩ := List.getElem?_eq_some_iff.mp hi
  obtain ⟨hjlt, rfl⟩ := List.getElem?_eq_some_iff.mp hj
  rcases lt_trichotomy i j with hlt | heq | hlt
  · exact absurd rfl (hnodup i j hilt hjlt hlt symbol ha symbol hb)
  · exact heq
  · exact absurd rfl (hnodup j i hjlt hilt hlt symbol hb symbol ha)

theorem ordered_fresh : Fresh (ordered p) := by
  constructor
  · intro i line d hi
    exact p.unshared _ ((ordered_perm p).mem_iff.mp (List.mem_of_getElem? hi)) d rfl
  · intro i j line type type' hi hj
    exact ordered_lines p hi hj rfl

/-- With enough fuel the passes come to what one run of the second pass makes of these. -/
theorem sharedDefines_eq {fuel : ℕ}
    (hfuel : misplaced AssemblerInstruction.isDefine p.instructions+2 ≤ fuel) :
    sharedDefines fuel p.instructions = some (shrinkPass (ordered p)).1 := by
  obtain ⟨k, rfl⟩ : ∃ k, fuel = k+2 := ⟨fuel-2, by omega⟩
  have hless : misplaced AssemblerInstruction.isDefine p.instructions < k+2 := by omega
  have hfront := front_partitions AssemblerInstruction.isDefine p.instructions hless k
  rw [sharedDefines, Option.bind_eq_some_iff]
  exact ⟨ordered p, hfront, shrink_ends (ordered_fresh p) (by omega) k⟩

theorem definesKept_iff_addressed : DefinesKept p ↔ ∀ (i line : ℕ) (d : AssemblerInstructionDefine),
    (ordered p)[i]? = some ⟨line, .define d⟩ → Addressed (shrinkPass (ordered p)).1 d := by
  constructor
  · rintro ⟨least, instructions, hrun, hall⟩ i line d hi
    have hlong := hrun (least+(misplaced AssemblerInstruction.isDefine p.instructions+2)) (by omega)
    rw [sharedDefines_eq p (by omega)] at hlong
    rw [Option.some.injEq] at hlong
    rw [hlong]
    exact hall _ ((ordered_perm p).mem_iff.mp (List.mem_of_getElem? hi)) d rfl
  · intro h
    refine ⟨_, _, fun fuel hfuel => sharedDefines_eq p hfuel, fun instruction hmem d hd => ?_⟩
    obtain ⟨i, hi⟩ := List.mem_iff_getElem?.mp ((ordered_perm p).mem_iff.mpr hmem)
    obtain ⟨line, type⟩ := instruction
    cases hd
    exact h i line d hi

end Ordered

/-! ### The image -/

section Image

variable (q : List AssemblerInstruction)

open Classical in
/-- The bytes of an instruction, if it keeps them. -/
noncomputable def storedCode (i : ℕ) : List UInt8 :=
  if Stays q i then (q[i]?.map AssemblerInstruction.machineCode).getD [] else []

noncomputable def sharedImage : List UInt8 := image (storedCode q) q.length

/-- Where the bytes of an instruction are to go. -/
noncomputable def sharedPlace (i : ℕ) : ℕ := place (storedCode q) i

variable {q} {r : List AssemblerInstruction} (hq : Fresh q) (hr : SharedUpTo q r (q.length-1))

include hr in
theorem same_of_stays {i : ℕ} (h : Stays q i) : r[i]? = q[i]? := hr.same i (Or.inr h)

theorem stays_of_le {i : ℕ} (h : q.length-1 ≤ i) : Stays q i :=
  stays_of_not_foundIn (fun _ hfound => absurd hfound.1 (by omega))

include hr in
/-- What the pass does not touch. -/
theorem shared_shape {i : ℕ} {a : AssemblerInstruction} (hi : r[i]? = some a) :
    ∃ b, q[i]? = some b ∧ a.lineIndex = b.lineIndex ∧ a.symbol? = b.symbol? ∧
      a.isDefine = b.isDefine := by
  by_cases hstays : Stays q i
  · rw [same_of_stays hr hstays] at hi
    exact ⟨a, hi, rfl, rfl, rfl⟩
  · have hlt : i < q.length-1 := by
      by_contra hle
      exact hstays (stays_of_le (by omega))
    obtain ⟨t, o, instruction, hins, -, line, line', d, d', hd, -, -, rfl⟩ :=
      hr.moved i hlt hstays
    rw [hins] at hi
    cases hi
    exact ⟨_, hd, rfl, rfl, rfl⟩

include hq hr

theorem storedCode_eq (i : ℕ) :
    storedCode q i = (r[i]?.map AssemblerInstruction.machineCode).getD [] := by
  rw [storedCode]
  split
  case isTrue hstays => rw [same_of_stays hr hstays]
  case isFalse hnot =>
    have hlt : i < q.length-1 := by
      by_contra hle
      exact hnot (stays_of_le (by omega))
    obtain ⟨t, o, instruction, hins, htarget, line, line', d, d', hd, hd', -, rfl⟩ :=
      hr.moved i hlt hnot
    have hne : line' ≠ line := by
      rintro rfl
      exact htarget.2.1.1 (hq.lines t i line' _ _ hd' hd)
    rw [hins, Option.map_some, Option.getD_some, AssemblerInstruction.machineCode]
    exact (if_neg hne).symm

/-- The file as it is written. -/
theorem writeMachineCode_eq : assemblerProgramWriteMachineCode r = sharedImage q := by
  have htake := take_flatMap (storedCode q) AssemblerInstruction.machineCode r
    (storedCode_eq hq hr) r.length
  rw [List.take_length] at htake
  rw [assemblerProgramWriteMachineCode, htake, sharedImage, hr.length]

theorem placeOf_eq (i : ℕ) : placeOf r i = sharedPlace q i := by
  have htake := take_flatMap (storedCode q) AssemblerInstruction.machineCode r
    (storedCode_eq hq hr) i
  rw [placeOf, sharedPlace, place, ← htake, List.length_flatMap, BytecodeMemoryProgmemAddr,
    Nat.zero_add]
  rfl

end Image

/-! ### Where the symbols lead -/

section Symbols

theorem findIdx?_of_unique {α : Type*} {p : α → Bool} {xs : List α} {i : ℕ} {a : α}
    (hi : xs[i]? = some a) (ha : p a = true)
    (hunique : ∀ j b, xs[j]? = some b → p b = true → j = i) : xs.findIdx? p = some i := by
  obtain ⟨hlt, rfl⟩ := List.getElem?_eq_some_iff.mp hi
  rw [List.findIdx?_eq_some_iff_getElem]
  refine ⟨hlt, ha, fun j hj => ?_⟩
  intro hpj
  exact absurd (hunique j _ (List.getElem?_eq_getElem (by omega)) hpj) (by omega)

theorem firstAt_self (data : List UInt8) : FirstAt data data 0 :=
  ⟨by omega, by rw [MatchesAt, List.drop_zero, List.take_length],
    fun o ho => absurd ho (Nat.not_lt_zero o)⟩

theorem firstAt_unique {data loopData : List UInt8} {o o' : ℕ} (h : FirstAt data loopData o)
    (h' : FirstAt data loopData o') : o = o' := by
  rcases lt_trichotomy o o' with hlt | heq | hlt
  · exact absurd h.found (h'.first o hlt)
  · exact heq
  · exact absurd h'.found (h.first o' hlt)

/-- The define that the data of this one is stored in, which may be itself, and where in it. -/
structure SharedWith (q : List AssemblerInstruction) (i : ℕ) (d : AssemblerInstructionDefine)
    (t o : ℕ) : Prop where
  target : (Stays q i ∧ t = i) ∨ Target (q.length-1) (FoundIn q) i t
  found : ∃ line d', q[t]? = some ⟨line, .define d'⟩ ∧ FirstAt d.data d'.data o

/-- The address that is given for it. -/
noncomputable def sharedAddr (q : List AssemblerInstruction) (t o : ℕ) : ℕ :=
  u16 (sharedPlace q t)+o

variable (p : AssemblerProgram) {i line : ℕ} {d : AssemblerInstructionDefine}
  (hi : (ordered p)[i]? = some ⟨line, .define d⟩)

include hi

theorem exists_sharedWith : ∃ t o, SharedWith (ordered p) i d t o := by
  by_cases hstays : Stays (ordered p) i
  · exact ⟨i, 0, Or.inl ⟨hstays, rfl⟩, line, d, hi, firstAt_self d.data⟩
  · have hlt : i < (ordered p).length-1 := by
      by_contra hle
      exact hstays (stays_of_le (by omega))
    obtain ⟨t, o, -, -, htarget, line', line'', d', d'', hd, hd', hfirst, -⟩ :=
      (shrinkPass_shares (ordered_fresh p)).moved i hlt hstays
    rw [hi] at hd
    cases hd
    exact ⟨t, o, Or.inr htarget, line'', d'', hd', hfirst⟩

/-- The define's symbol is found at the define. -/
theorem symbolIndex_eq :
    assemblerGetDefineSymbolInstructionIndex (shrinkPass (ordered p)).1 d.symbol = some i := by
  have hshared := shrinkPass_shares (ordered_fresh p)
  have hlt : i < (shrinkPass (ordered p)).1.length := by
    rw [hshared.length]
    exact (List.getElem?_eq_some_iff.mp hi).1
  obtain ⟨b, hb, -, hsymbol, -⟩ := shared_shape hshared (List.getElem?_eq_getElem hlt)
  rw [hi] at hb
  cases hb
  refine findIdx?_of_unique (List.getElem?_eq_getElem hlt) ?_ fun j a hj ha => ?_
  · rw [hsymbol]
    exact beq_self_eq_true _
  · obtain ⟨b, hb, -, hsymbol', -⟩ := shared_shape hshared hj
    exact ordered_symbols p hb hi (hsymbol'.symm.trans (eq_of_beq ha)) rfl

/-- An instruction's line is found at the instruction. -/
theorem lineIndex_eq : (shrinkPass (ordered p)).1.findIdx?
    (fun loopInstruction => loopInstruction.lineIndex == line) = some i := by
  have hshared := shrinkPass_shares (ordered_fresh p)
  have hlt : i < (shrinkPass (ordered p)).1.length := by
    rw [hshared.length]
    exact (List.getElem?_eq_some_iff.mp hi).1
  obtain ⟨b, hb, hline, -⟩ := shared_shape hshared (List.getElem?_eq_getElem hlt)
  rw [hi] at hb
  cases hb
  refine findIdx?_of_unique (List.getElem?_eq_getElem hlt) ?_ fun j a hj ha => ?_
  · rw [hline]
    exact beq_self_eq_true _
  · obtain ⟨b, hb, hline', -⟩ := shared_shape hshared hj
    exact ordered_lines p hb hi (hline'.symm.trans (eq_of_beq ha))

/-- The address of a symbol is that of its data in the define it is stored in. -/
theorem symbolAddr_eq {t o : ℕ} (h : SharedWith (ordered p) i d t o) :
    assemblerGetDefineSymbolAddr (shrinkPass (ordered p)).1 d.symbol =
      some (sharedAddr (ordered p) t o) := by
  have hq := ordered_fresh p
  have hshared := shrinkPass_shares hq
  obtain ⟨htarget, line', d', hd', hfirst⟩ := h
  rw [assemblerGetDefineSymbolAddr, symbolIndex_eq p hi]
  rcases htarget with ⟨hstays, rfl⟩ | htarget
  · rw [hi] at hd'
    cases hd'
    have hzero : o = 0 := by
      have := hfirst.fits
      omega
    dsimp only
    rw [same_of_stays hshared hstays, hi]
    dsimp only
    rw [if_pos (hq.unshared t line d hi), machineCodeOffset, placeOf_eq hq hshared, hzero]
    rfl
  · have hlt := htarget.2.1.2.1.1
    have hnot := (target_iff foundIn_trans hlt).mp ⟨t, htarget⟩
    obtain ⟨t', o', _, hins, htarget', line₁, line₂, d₁, d₂, hd₁, hd₂, hfirst', rfl⟩ :=
      hshared.moved i hlt hnot
    obtain rfl := target_unique htarget htarget'
    rw [hi] at hd₁
    rw [hd'] at hd₂
    cases hd₁
    cases hd₂
    obtain rfl := firstAt_unique hfirst hfirst'
    have hne : line' ≠ line := by
      rintro rfl
      exact htarget.2.1.1 (hq.lines t i line' _ _ hd' hi)
    dsimp only
    rw [hins]
    dsimp only
    rw [if_neg hne, lineIndex_eq p hd', Option.map_some, machineCodeOffset, placeOf_eq hq hshared]
    rfl

end Symbols

/-! ### Defines and instructions apart -/

section Apart

variable (p : AssemblerProgram)

/-- The bytes in front of the defines. -/
def codeLength : ℕ := ((p.instructions.filter (fun instruction => !instruction.isDefine)).flatMap
  AssemblerInstruction.machineCode).length

theorem isDefine_iff {i : ℕ} {instruction : AssemblerInstruction}
    (hi : (ordered p)[i]? = some instruction) : instruction.isDefine = false ↔
      i < (p.instructions.filter (fun instruction => !instruction.isDefine)).length := by
  rw [ordered] at hi
  by_cases hlt : i < (p.instructions.filter (fun instruction => !instruction.isDefine)).length
  · rw [List.getElem?_append_left hlt] at hi
    have hmem := List.of_mem_filter (List.mem_of_getElem? hi)
    exact iff_of_true (by simpa using hmem) hlt
  · rw [List.getElem?_append_right (by omega)] at hi
    have hmem := List.of_mem_filter (List.mem_of_getElem? hi)
    exact iff_of_false (by simp [hmem]) hlt

theorem stays_of_code {i : ℕ} {instruction : AssemblerInstruction}
    (hi : (ordered p)[i]? = some instruction) (hcode : instruction.isDefine = false) :
    Stays (ordered p) i := by
  apply stays_of_not_foundIn
  rintro j ⟨-, -, line, _, d, _, hd, -, -⟩
  rw [hi] at hd
  cases hd
  cases hcode

/-- The defines begin behind the code. -/
theorem sharedPlace_code : sharedPlace (ordered p)
    (p.instructions.filter (fun instruction => !instruction.isDefine)).length = codeLength p := by
  have hcode := take_flatMap _ AssemblerInstruction.machineCode
    (p.instructions.filter (fun instruction => !instruction.isDefine)) (fun _ => rfl)
    (p.instructions.filter (fun instruction => !instruction.isDefine)).length
  rw [List.take_length] at hcode
  rw [codeLength, hcode, sharedPlace, place]
  congr 1
  refine image_congr fun i hi => ?_
  have hat : (ordered p)[i]? =
      (p.instructions.filter (fun instruction => !instruction.isDefine))[i]? :=
    List.getElem?_append_left hi
  have hinstruction := hat.trans (List.getElem?_eq_getElem hi)
  rw [storedCode, if_pos (stays_of_code p hinstruction ((isDefine_iff p hinstruction).mpr hi)), hat]

/-- The bytes that the layout gives to an instruction that is no define. -/
theorem code_storedCode {i : ℕ} {instruction : AssemblerInstruction}
    (hi : (ordered p)[i]? = some instruction) (hcode : instruction.isDefine = false) :
    storedCode (ordered p) i = instruction.machineCode := by
  rw [storedCode, if_pos (stays_of_code p hi hcode), hi]
  rfl

theorem apart_iff (a n : ℕ) :
    Apart (shrinkPass (ordered p)).1 a n ↔ n = 0 ∨ codeLength p ≤ a := by
  have hshared := shrinkPass_shares (ordered_fresh p)
  have hplace := placeOf_eq (ordered_fresh p) hshared
  constructor
  · intro hapart
    by_contra hnot
    obtain ⟨hn, hbefore⟩ := not_or.mp hnot
    rw [← sharedPlace_code, not_le] at hbefore
    obtain ⟨i, hi, hat, hend⟩ := exists_piece _ hbefore
    have hlt : i < (ordered p).length := by
      rw [ordered, List.length_append]
      omega
    have hinstruction := List.getElem?_eq_getElem hlt
    have hcode := (isDefine_iff p hinstruction).mpr hi
    have hstays := stays_of_code p hinstruction hcode
    refine hapart i _ ((same_of_stays hshared hstays).trans hinstruction) hcode a (Nat.le_refl a)
      (by omega) ⟨by rw [hplace]; exact hat, ?_⟩
    rw [code_storedCode p hinstruction hcode] at hend
    rw [hplace]
    exact hend
  · rintro hor i instruction hi hcode x hle hlt ⟨hat, hend⟩
    obtain ⟨b, hb, -, -, hkind⟩ := shared_shape hshared hi
    rw [hcode] at hkind
    have hb' := stays_of_code p hb hkind.symm
    rw [← same_of_stays hshared hb', hi] at hb
    have hq_i := (same_of_stays hshared hb').symm.trans hi
    have hbefore := (isDefine_iff p hq_i).mp hcode
    have hnext := place_succ (storedCode (ordered p)) i
    rw [code_storedCode p hq_i hcode] at hnext
    have hle' := place_le (storedCode (ordered p)) hbefore
    have hcodeLength := sharedPlace_code p
    rw [hplace] at hend
    simp only [sharedPlace, AssemblerInstruction.machineCodeLen] at hend hcodeLength
    rw [Nat.succ_eq_add_one] at hle'
    omega

end Apart

/-! ### Which defines are found -/

section Found

variable (p : AssemblerProgram)

/-- What comes at the define's address happens to be its data. -/
structure ShownBehind (d : AssemblerInstructionDefine) (t o : ℕ) : Prop where
  bytes : BytesAt (sharedImage (ordered p)) (sharedAddr (ordered p) t o) d.data
  apart : d.data.length = 0 ∨ codeLength p ≤ sharedAddr (ordered p) t o

/-- The define that it is stored in keeps its storage, within reach of an address. -/
structure StoredIn (t : ℕ) : Prop where
  stays : Stays (ordered p) t
  reach : sharedPlace (ordered p) t < 65536

variable {i line t o : ℕ} {d : AssemblerInstructionDefine}

theorem addressed_iff (hi : (ordered p)[i]? = some ⟨line, .define d⟩)
    (h : SharedWith (ordered p) i d t o) :
    Addressed (shrinkPass (ordered p)).1 d ↔ ShownBehind p d t o := by
  have himage := writeMachineCode_eq (ordered_fresh p) (shrinkPass_shares (ordered_fresh p))
  rw [Addressed, symbolAddr_eq p hi h, himage]
  constructor
  · rintro ⟨a, ha, hbytes, hapart⟩
    obtain rfl := Option.some.inj ha
    exact ⟨hbytes, (apart_iff p _ _).mp hapart⟩
  · rintro ⟨hbytes, hapart⟩
    exact ⟨_, rfl, hbytes, (apart_iff p _ _).mpr hapart⟩

theorem shown_of_stored (h : SharedWith (ordered p) i d t o) (ht : StoredIn p t) :
    ShownBehind p d t o := by
  obtain ⟨-, line', d', hd', hfirst⟩ := h
  have hfits := hfirst.fits
  have hsame : u16 (sharedPlace (ordered p) t) = sharedPlace (ordered p) t :=
    Nat.mod_eq_of_lt ht.reach
  have hown := (ordered_fresh p).unshared t line' d' hd'
  have hstored : storedCode (ordered p) t = d'.data := by
    rw [storedCode, if_pos ht.stays, hd']
    exact if_pos hown
  constructor
  · obtain ⟨rest, hrest⟩ := drop_place (storedCode (ordered p))
      (List.getElem?_eq_some_iff.mp hd').1
    rw [BytesAt, sharedAddr, hsame, sharedImage, ← List.drop_drop, sharedPlace, hrest, hstored,
      List.drop_append_of_le_length (by omega), List.take_append_of_le_length
        (by rw [List.length_drop]; omega)]
    exact hfirst.found
  · refine Or.inr ?_
    have hbehind := (isDefine_iff p hd').not.mp Bool.true_eq_false.mp
    rw [not_lt] at hbehind
    have hle := place_le (storedCode (ordered p)) hbehind
    have hcode := sharedPlace_code p
    rw [sharedAddr, hsame]
    simp only [sharedPlace] at hcode ⊢
    omega

end Found

/-- The magic bytes and defines of which each but the last is found in the next one. -/
def chained : AssemblerProgram where
  instructions := [
    ⟨0, .other [0x2F]⟩,
    ⟨1, .other [0x2F]⟩,
    ⟨2, .define ⟨CStr.lit "a", [97], 2, 0⟩⟩,
    ⟨3, .define ⟨CStr.lit "b", [97, 98], 3, 0⟩⟩,
    ⟨4, .define ⟨CStr.lit "c", [120, 97, 98], 4, 0⟩⟩,
    ⟨5, .define ⟨CStr.lit "d", [122], 5, 0⟩⟩]
  header := by decide
  lines := by decide
  symbols := by decide
  sizes := by simp [AssemblerInstructionMachineCodeMax]
  unshared := by simp

end ArduinoOS.Assembler
