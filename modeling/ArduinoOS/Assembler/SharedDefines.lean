import ArduinoOS.Assembler.Defines
import ArduinoOS.Lib.Sharing

/-!
# What the defines of a program share

The passes end. The defines stand behind everything else, in their order, and
each points to the first one that it is free to share with at its turn.
-/

set_option autoImplicit false

namespace ArduinoOS.Assembler
open ArduinoOS.Passes ArduinoOS.Sharing

/-! ### Data in data -/

section Data

variable (data loopData : List UInt8)

def MatchesAt (o : ℕ) : Prop := (loopData.drop o).take data.length = data

/-- The first place at which the data is found. -/
structure FirstAt (o : ℕ) : Prop where
  fits : o+data.length ≤ loopData.length
  found : MatchesAt data loopData o
  first : ∀ o' < o, ¬ MatchesAt data loopData o'

theorem infix_iff : data <:+: loopData ↔
    ∃ o, o+data.length ≤ loopData.length ∧ MatchesAt data loopData o := by
  constructor
  · rintro ⟨before, after, rfl⟩
    refine ⟨before.length, by simp, ?_⟩
    rw [MatchesAt, List.append_assoc, List.drop_left, List.take_left]
  · rintro ⟨o, -, hmatch⟩
    rw [← hmatch]
    exact (List.take_prefix _ _).isInfix.trans (List.drop_suffix _ _).isInfix

theorem findData_spec (left : ℕ) : ∀ k,
    match findData data loopData k left with
    | some o => k ≤ o ∧ o < k+left ∧ MatchesAt data loopData o ∧
        ∀ o', k ≤ o' → o' < o → ¬ MatchesAt data loopData o'
    | none => ∀ o', k ≤ o' → o' < k+left → ¬ MatchesAt data loopData o' := by
  induction left with
  | zero =>
    intro k o' hle hlt
    omega
  | succ left ih =>
    intro k
    rw [findData]
    by_cases hmatch : (loopData.drop k).take data.length = data
    · rw [if_pos hmatch]
      exact ⟨Nat.le_refl k, by omega, hmatch, fun o' hle hlt => by omega⟩
    · rw [if_neg hmatch]
      have hrest := ih (k+1)
      cases hfind : findData data loopData (k+1) left with
      | none =>
        rw [hfind] at hrest
        intro o' hle hlt
        rcases Nat.eq_or_lt_of_le hle with rfl | hlt'
        · exact hmatch
        · exact hrest o' hlt' (by omega)
      | some o =>
        rw [hfind] at hrest
        obtain ⟨hle, hlt, hfound, hfirst⟩ := hrest
        refine ⟨by omega, by omega, hfound, fun o' hle' hlt' => ?_⟩
        rcases Nat.eq_or_lt_of_le hle' with rfl | hlt''
        · exact hmatch
        · exact hfirst o' hlt'' hlt'

/-- The loop over `loopDataI` as it is started. -/
theorem findData_some {o : ℕ}
    (h : findData data loopData 0 (loopData.length+1-data.length) = some o) :
    FirstAt data loopData o := by
  have hspec := findData_spec data loopData (loopData.length+1-data.length) 0
  rw [h] at hspec
  obtain ⟨-, hlt, hmatch, hfirst⟩ := hspec
  exact ⟨by omega, hmatch, fun o' hlt' => hfirst o' (Nat.zero_le _) hlt'⟩

theorem findData_none (h : findData data loopData 0 (loopData.length+1-data.length) = none) :
    ¬ data <:+: loopData := by
  have hspec := findData_spec data loopData (loopData.length+1-data.length) 0
  rw [h] at hspec
  rw [infix_iff]
  rintro ⟨o, hfits, hmatch⟩
  exact hspec o (Nat.zero_le _) (by omega) hmatch

theorem FirstAt.isInfix {data loopData : List UInt8} {o : ℕ} (h : FirstAt data loopData o) :
    data <:+: loopData := (infix_iff data loopData).mpr ⟨o, h.fits, h.found⟩

end Data

/-! ### Which defines keep their storage -/

/-- Both are defines, neither of them the last instruction, and one is in the other. -/
def FoundIn (instructions : List AssemblerInstruction) (i j : ℕ) : Prop :=
  i < instructions.length-1 ∧ j < instructions.length-1 ∧
    ∃ line line' d d', instructions[i]? = some ⟨line, .define d⟩ ∧
      instructions[j]? = some ⟨line', .define d'⟩ ∧ d.data <:+: d'.data

/-- The instruction keeps its storage. -/
def Stays (instructions : List AssemblerInstruction) (i : ℕ) : Prop :=
  Kept (instructions.length-1) (FoundIn instructions) i

theorem foundIn_trans {instructions : List AssemblerInstruction} (i j k : ℕ)
    (h : FoundIn instructions i j) (h' : FoundIn instructions j k) :
    FoundIn instructions i k := by
  obtain ⟨hi, hj, line, line', d, d', hd, hd', hin⟩ := h
  obtain ⟨-, hk, _, line'', _, d'', hd₂, hd'', hin'⟩ := h'
  rw [hd'] at hd₂
  cases hd₂
  exact ⟨hi, hk, line, line'', d, d'', hd, hd'', hin.trans hin'⟩

/-! ### The pass that shares -/

/-- No define points to another one yet, and lines tell instructions apart. -/
structure Fresh (instructions : List AssemblerInstruction) : Prop where
  unshared : ∀ (i line : ℕ) (d : AssemblerInstructionDefine),
    instructions[i]? = some ⟨line, .define d⟩ → d.pointerLineIndex = line
  lines : ∀ (i j line : ℕ) (type type' : AssemblerInstructionType),
    instructions[i]? = some ⟨line, type⟩ → instructions[j]? = some ⟨line, type'⟩ → i = j

/-- What a define without storage of its own points to. -/
structure PointsTo (q : List AssemblerInstruction) (i t o : ℕ)
    (instruction : AssemblerInstruction) : Prop where
  target : Target (q.length-1) (FoundIn q) i t
  place : ∃ line line' d d', q[i]? = some ⟨line, .define d⟩ ∧ q[t]? = some ⟨line', .define d'⟩ ∧
    FirstAt d.data d'.data o ∧ instruction =
      ⟨line, .define { d with pointerLineIndex := line', pointerOffset := o }⟩

/-- The instructions when the pass has come to this one. -/
structure SharedUpTo (q instructions : List AssemblerInstruction) (i : ℕ) : Prop where
  length : instructions.length = q.length
  same : ∀ k, i ≤ k ∨ Stays q k → instructions[k]? = q[k]?
  moved : ∀ k < i, ¬ Stays q k → ∃ t o instruction, instructions[k]? = some instruction ∧
    PointsTo q k t o instruction

/-- The loop over `j` accepts this define. -/
def Accepts (instructions : List AssemblerInstruction) (i : ℕ) (data : List UInt8) (j : ℕ) :
    Prop :=
  i ≠ j ∧ ∃ line d, (instructions[j]? = some ⟨line, .define d⟩ ∧ d.pointerLineIndex = line) ∧
    data <:+: d.data

section Search

variable (instructions : List AssemblerInstruction) (i : ℕ) (data : List UInt8)

/-- One round of the loop over `j`. -/
theorem findDefine_step (j left : ℕ) :
    (∃ line d o, i ≠ j ∧ instructions[j]? = some ⟨line, .define d⟩ ∧
      d.pointerLineIndex = line ∧ FirstAt data d.data o ∧
      findDefine instructions i data j (left+1) = some (line, o)) ∨
    (¬ Accepts instructions i data j ∧
      findDefine instructions i data j (left+1) = findDefine instructions i data (j+1) left) := by
  rw [findDefine]
  by_cases hself : i = j
  · rw [if_pos hself]
    exact .inr ⟨fun h => h.1 hself, rfl⟩
  rw [if_neg hself]
  rcases hj : instructions[j]? with _ | ⟨line, d | code⟩
  · refine .inr ⟨?_, rfl⟩
    rintro ⟨-, line, d, ⟨hd, -⟩, -⟩
    rw [hj] at hd
    cases hd
  · dsimp only
    by_cases hown : d.pointerLineIndex = line
    · rw [if_neg (not_not.mpr hown)]
      cases hfind : findData data d.data 0 (d.data.length+1-data.length) with
      | some o =>
        exact .inl ⟨line, d, o, hself, rfl, hown, findData_some data d.data hfind, rfl⟩
      | none =>
        refine .inr ⟨?_, rfl⟩
        rintro ⟨-, line', d', ⟨hd, -⟩, hin⟩
        rw [hj] at hd
        cases hd
        exact findData_none data d.data hfind hin
    · rw [if_pos hown]
      refine .inr ⟨?_, rfl⟩
      rintro ⟨-, line', d', ⟨hd, hown'⟩, -⟩
      rw [hj] at hd
      cases hd
      exact hown hown'
  · refine .inr ⟨?_, rfl⟩
    rintro ⟨-, line', d', ⟨hd, -⟩, -⟩
    rw [hj] at hd
    cases hd

theorem findDefine_spec (left : ℕ) : ∀ j,
    match findDefine instructions i data j left with
    | some (line, o) => ∃ t d, t < j+left ∧ i ≠ t ∧ instructions[t]? = some ⟨line, .define d⟩ ∧
        d.pointerLineIndex = line ∧ FirstAt data d.data o ∧
        ∀ k, j ≤ k → k < t → ¬ Accepts instructions i data k
    | none => ∀ k, j ≤ k → k < j+left → ¬ Accepts instructions i data k := by
  induction left with
  | zero =>
    intro j k hle hlt
    omega
  | succ left ih =>
    intro j
    rcases findDefine_step instructions i data j left with
      ⟨line, d, o, hne, hd, hown, hfirst, hrun⟩ | ⟨hnot, hrun⟩
    · rw [hrun]
      exact ⟨j, d, by omega, hne, hd, hown, hfirst, fun k hle hlt => by omega⟩
    · have hrest := ih (j+1)
      rw [hrun]
      cases hfind : findDefine instructions i data (j+1) left with
      | none =>
        rw [hfind] at hrest
        intro k hle hlt
        rcases Nat.eq_or_lt_of_le hle with rfl | hlt'
        · exact hnot
        · exact hrest k hlt' (by omega)
      | some r =>
        rw [hfind] at hrest
        obtain ⟨t, d, hlt, hne, hd, hown, hfirst, hbefore⟩ := hrest
        refine ⟨t, d, by omega, hne, hd, hown, hfirst, fun k hle hlt' => ?_⟩
        rcases Nat.eq_or_lt_of_le hle with rfl | hlt''
        · exact hnot
        · exact hbefore k hlt'' hlt'

end Search

section Pass

variable {q instructions : List AssemblerInstruction} {i : ℕ} (hq : Fresh q)

theorem stays_of_not_foundIn (h : ∀ j, ¬ FoundIn q i j) : Stays q i :=
  fun j _ hbetter => h j hbetter.1

theorem sharedUpTo_refl (q : List AssemblerInstruction) : SharedUpTo q q 0 :=
  ⟨rfl, fun _ _ => rfl, fun k hk => absurd hk (Nat.not_lt_zero k)⟩

theorem sharedUpTo_next (h : SharedUpTo q instructions i) (hstays : Stays q i) :
    SharedUpTo q instructions (i+1) := by
  refine ⟨h.length, fun k hk => ?_, fun k hk hnot => ?_⟩
  · rcases hk with hle | hkept
    · exact h.same k (Or.inl (by omega))
    · exact h.same k (Or.inr hkept)
  · refine h.moved k (Nat.lt_of_le_of_ne (by omega) ?_) hnot
    rintro rfl
    exact hnot hstays

theorem sharedUpTo_set (h : SharedUpTo q instructions i) (hlt : i < q.length)
    (hnot : ¬ Stays q i) {t o : ℕ} {instruction : AssemblerInstruction}
    (hpoints : PointsTo q i t o instruction) :
    SharedUpTo q (instructions.set i instruction) (i+1) := by
  refine ⟨by rw [List.length_set, h.length], fun k hk => ?_, fun k hk hnot' => ?_⟩
  · have hne : i ≠ k := by
      rintro rfl
      exact hk.elim (by omega) hnot
    rw [List.getElem?_set_ne hne]
    exact h.same k (hk.imp_left (by omega))
  · by_cases heq : i = k
    · subst heq
      exact ⟨t, o, instruction, List.getElem?_set_self (by rw [h.length]; exact hlt), hpoints⟩
    · obtain ⟨t', o', instruction', hins, hpoints'⟩ := h.moved k (by omega) hnot'
      exact ⟨t', o', instruction', by rw [List.getElem?_set_ne heq]; exact hins, hpoints'⟩

include hq

/-- A define has its own storage so far if its turn is to come or it keeps it. -/
theorem own_iff (h : SharedUpTo q instructions i) {j line : ℕ} {d : AssemblerInstructionDefine} :
    (instructions[j]? = some ⟨line, .define d⟩ ∧ d.pointerLineIndex = line) ↔
      q[j]? = some ⟨line, .define d⟩ ∧ (j < i → Stays q j) := by
  by_cases hkept : i ≤ j ∨ Stays q j
  · rw [h.same j hkept]
    constructor
    · rintro ⟨hj, -⟩
      exact ⟨hj, fun hlt => hkept.resolve_left (by omega)⟩
    · rintro ⟨hj, -⟩
      exact ⟨hj, hq.unshared j line d hj⟩
  · obtain ⟨hlt, hnot⟩ := not_or.mp hkept
    apply iff_of_false
    · rintro ⟨hj, hown⟩
      obtain ⟨t, o, instruction, hins, htarget, hplace⟩ := h.moved j (by omega) hnot
      obtain ⟨line₁, line₂, d₁, d₂, hd₁, hd₂, -, rfl⟩ := hplace
      rw [hins] at hj
      cases hj
      have hsame := hq.lines t j line₂ _ _ hd₂ (by rw [hd₁]; exact congrArg _ (by rw [← hown]))
      exact htarget.2.1.1 hsame
    · rintro ⟨-, hstays⟩
      exact hnot (hstays (by omega))

/-- What the loop over `j` accepts is what the define is free to share with. -/
theorem free_iff_own (h : SharedUpTo q instructions i) {line : ℕ}
    {d : AssemblerInstructionDefine} (hi : q[i]? = some ⟨line, .define d⟩)
    (hlt : i < q.length-1) {j : ℕ} (hj : j < q.length-1) :
    Free (q.length-1) (FoundIn q) i j ↔ Accepts instructions i d.data j := by
  constructor
  · rintro ⟨hne, ⟨-, -, line₁, line', d₁, d', hd₁, hd', hin⟩, hearlier⟩
    rw [hi] at hd₁
    cases hd₁
    exact ⟨hne.symm, line', d', (own_iff hq h).mpr ⟨hd', hearlier⟩, hin⟩
  · rintro ⟨hne, line', d', hown, hin⟩
    obtain ⟨hd', hearlier⟩ := (own_iff hq h).mp hown
    exact ⟨hne.symm, ⟨hlt, hj, line, line', d, d', hi, hd', hin⟩, hearlier⟩

/-- What the loop over `j` ends in. -/
theorem findDefine_shares (h : SharedUpTo q instructions i) {line : ℕ}
    {d : AssemblerInstructionDefine} (hi : q[i]? = some ⟨line, .define d⟩)
    (hlt : i < q.length-1) :
    match findDefine instructions i d.data 0 (instructions.length-1) with
    | some (line', o) => ∃ t, ¬ Stays q i ∧ PointsTo q i t o
        ⟨line, .define { d with pointerLineIndex := line', pointerOffset := o }⟩
    | none => Stays q i := by
  have hspec := findDefine_spec instructions i d.data (instructions.length-1) 0
  rw [h.length, Nat.zero_add] at hspec
  rw [h.length]
  cases hfind : findDefine instructions i d.data 0 (q.length-1) with
  | none =>
    rw [hfind] at hspec
    by_contra hnot
    obtain ⟨j, hj, hfree⟩ := (free_iff foundIn_trans hlt).mpr hnot
    exact hspec j (Nat.zero_le _) hj ((free_iff_own hq h hi hlt hj).mp hfree)
  | some r =>
    rw [hfind] at hspec
    obtain ⟨t, d', ht, hne, hd', hown, hfirst, hbefore⟩ := hspec
    have hfree : Free (q.length-1) (FoundIn q) i t :=
      (free_iff_own hq h hi hlt ht).mpr ⟨hne, r.1, d', ⟨hd', hown⟩, hfirst.isInfix⟩
    have htarget : Target (q.length-1) (FoundIn q) i t := by
      refine ⟨ht, hfree, fun j hj hfree' => ?_⟩
      exact hbefore j (Nat.zero_le _) hj ((free_iff_own hq h hi hlt (by omega)).mp hfree')
    obtain ⟨hd'', -⟩ := (own_iff hq h).mp ⟨hd', hown⟩
    exact ⟨t, (target_iff foundIn_trans hlt).mp ⟨t, htarget⟩, htarget,
      line, r.1, d, d', hi, hd'', hfirst, rfl⟩

theorem shrinkFrom_shares (left : ℕ) : ∀ (i : ℕ) (instructions : List AssemblerInstruction),
    SharedUpTo q instructions i → i+left = q.length-1 →
    SharedUpTo q (shrinkFrom instructions i left).1 (q.length-1) := by
  induction left with
  | zero =>
    intro i instructions h hend
    rw [shrinkFrom, ← hend]
    exact h
  | succ left ih =>
    intro i instructions h hend
    have hsame := h.same i (Or.inl (Nat.le_refl i))
    have hnext : Stays q i →
        SharedUpTo q (shrinkFrom instructions (i+1) left).1 (q.length-1) :=
      fun hstays => ih (i+1) instructions (sharedUpTo_next h hstays) (by omega)
    rw [shrinkFrom]
    rcases hi : instructions[i]? with _ | ⟨line, d | code⟩
    · refine hnext (stays_of_not_foundIn ?_)
      rintro j ⟨-, -, line, _, d, _, hd, -, -⟩
      rw [← hsame, hi] at hd
      cases hd
    · have hq_i : q[i]? = some ⟨line, .define d⟩ := hsame.symm.trans hi
      have hsearch := findDefine_shares hq h hq_i (by omega)
      dsimp only
      rw [if_neg (not_not.mpr (hq.unshared i line d hq_i))]
      cases hfind : findDefine instructions i d.data 0 (instructions.length-1) with
      | none =>
        rw [hfind] at hsearch
        exact hnext hsearch
      | some r =>
        rw [hfind] at hsearch
        obtain ⟨t, hnot, hpoints⟩ := hsearch
        exact ih (i+1) _ (sharedUpTo_set h (by omega) hnot hpoints) (by omega)
    · refine hnext (stays_of_not_foundIn ?_)
      rintro j ⟨-, -, line, _, d, _, hd, -, -⟩
      rw [← hsame, hi] at hd
      cases hd

/-- Another run of the pass finds nothing. -/
theorem shrinkFrom_rests (h : SharedUpTo q instructions (q.length-1)) (left : ℕ) : ∀ i : ℕ,
    i+left = q.length-1 → shrinkFrom instructions i left = (instructions, false) := by
  induction left with
  | zero =>
    intro i _
    rfl
  | succ left ih =>
    intro i hend
    have hnext := ih (i+1) (by omega)
    rw [shrinkFrom]
    rcases hi : instructions[i]? with _ | ⟨line, d | code⟩
    · exact hnext
    · dsimp only
      by_cases hown : d.pointerLineIndex = line
      · rw [if_neg (not_not.mpr hown)]
        obtain ⟨hq_i, hstays⟩ := (own_iff hq h).mp ⟨hi, hown⟩
        have hspec := findDefine_spec instructions i d.data (instructions.length-1) 0
        cases hfind : findDefine instructions i d.data 0 (instructions.length-1) with
        | none => exact hnext
        | some r =>
          rw [hfind, h.length] at hspec
          obtain ⟨t, d', ht, hne, hd', hown', hfirst, -⟩ := hspec
          obtain ⟨hq_t, hstays'⟩ := (own_iff hq h).mp ⟨hd', hown'⟩
          refine absurd ⟨by omega, by omega, line, r.1, d, d', hq_i, hq_t, hfirst.isInfix⟩
            (kept_apart (by omega) (by omega) hne.symm (hstays (by omega)) (hstays' (by omega)))
      · rw [if_pos hown]
        exact hnext
    · exact hnext

theorem shrinkPass_shares : SharedUpTo q (shrinkPass q).1 (q.length-1) :=
  shrinkFrom_shares hq (q.length-1) 0 q (sharedUpTo_refl q) (Nat.zero_add _)

/-- The loop over the pass ends after two of them at most. -/
theorem shrink_ends {fuel : ℕ} (hfuel : 2 ≤ fuel) (k : ℕ) :
    whileChanged (assemblerProgramShrinkDefines fuel) (k+2) q = some (shrinkPass q).1 := by
  have hshared := shrinkPass_shares hq
  have hrest : shrinkPass (shrinkPass q).1 = ((shrinkPass q).1, false) := by
    have hrests := shrinkFrom_rests hq hshared (q.length-1) 0 (Nat.zero_add _)
    rw [shrinkPass, hshared.length]
    exact hrests
  obtain ⟨fuel, rfl⟩ : ∃ n, fuel = n+2 := ⟨fuel-2, by omega⟩
  obtain ⟨change, hrun⟩ : ∃ change,
      untilUnchanged shrinkPass (fuel+2) q = some ((shrinkPass q).1, change) := by
    rw [untilUnchanged]
    by_cases hchange : (shrinkPass q).2 = true
    · rw [if_pos hchange, untilUnchanged, hrest]
      exact ⟨true, rfl⟩
    · rw [if_neg hchange]
      exact ⟨false, rfl⟩
  exact whileChanged_ends hrest hrun k

end Pass

end ArduinoOS.Assembler
