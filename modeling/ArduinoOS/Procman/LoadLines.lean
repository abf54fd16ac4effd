import ArduinoOS.Procman.LoadTrail

/-!
# The first line of a script

What the loader does with the bytes behind `#!`, and with the arguments: in its
buffers, whatever else these hold.
-/

set_option autoImplicit false

namespace ArduinoOS.Procman
open ArduinoOS.CBuffer ArduinoOS.Faulting ArduinoOS.Kernel

/-! ### Strings in buffers -/

section Strings

variable {b : Buffer} {s : CStr}

theorem stringAt_shows (h : Shows b s) : stringAt b 0 = .ok s.bytes := by
  have hlen := h.length_le
  rw [CStr.bytes_length] at hlen
  have htake : b.take (s.length+1) = s.bytes := by
    rw [List.prefix_iff_eq_take.mp h, CStr.bytes_length]
  rw [stringAt, shows_strlen h (Nat.zero_le _), ok_bind, CBuffer.slice, Nat.sub_zero,
    if_pos (by omega), List.drop_zero, htake]

theorem charsOf_bytes (s : CStr) : charsOf s.bytes = s := by
  induction s with
  | nil => rfl
  | cons c s ih =>
    rw [CStr.bytes_cons, charsOf, dif_pos c.ne, ih]

theorem pathOf_shows {φ : Type} (h : Shows b s) (st : φ) :
    (pathOf b : Run φ Fault CStr) st = .ok (s, st) := by
  rw [pathOf, onBuffer, stringAt_shows h]
  change Except.ok (charsOf s.bytes, st) = _
  rw [charsOf_bytes]

/-- A path that can be taken from a buffer is there. -/
theorem shows_of_pathOf {φ : Type} {st st' : φ}
    (h : (pathOf b : Run φ Fault CStr) st = .ok (s, st')) : Shows b s ∧ st' = st := by
  by_cases hends : ∃ n : ℕ, b[n]? = some 0
  · obtain ⟨n, hn⟩ := hends
    obtain ⟨t, ht, -⟩ := exists_shown hn
    rw [pathOf_shows ht] at h
    cases h
    exact ⟨ht, rfl⟩
  · have hover : strlen b 0 = .error .outOfBounds :=
      strlen_overruns (fun j _ hj => hends ⟨j, hj⟩)
    rw [pathOf, onBuffer, stringAt, hover] at h
    cases h

end Strings

/-! ### The arguments of an interpreter -/

/-- The interpreter, and behind it the first argument of before. -/
theorem argvUpdate_shows {argv interpreter : Buffer} {arg0 next : CStr}
    (hlen : argv.length = 256) (harg : Shows argv arg0) (hnext : Shows interpreter next)
    (hfits : next.length+1+(arg0.length+1) ≤ 256) :
    ∃ argv', procManArgvUpdateForInterpreter argv interpreter = .ok argv' ∧ argv'.length = 256 ∧
      next.bytes++arg0.bytes <+: argv' := by
  have hslice : CBuffer.slice argv 0 (arg0.length+1) = .ok arg0.bytes := by
    have hstring := stringAt_shows harg
    rw [stringAt, shows_strlen harg (Nat.zero_le _), ok_bind, Nat.sub_zero] at hstring
    exact hstring
  have hmove : memmove argv next.bytes.length 0 (arg0.length+1) = .ok
      (argv.take next.bytes.length++
        (arg0.bytes++argv.drop (next.bytes.length+arg0.bytes.length))) := by
    rw [memmove, hslice, ok_bind, memcpy, if_pos (by simp; omega)]
  refine ⟨next.bytes++(arg0.bytes++argv.drop (next.bytes.length+arg0.bytes.length)), ?_, ?_, ?_⟩
  · rw [procManArgvUpdateForInterpreter, stringAt_shows hnext, ok_bind,
      shows_strlen harg (Nat.zero_le _), ok_bind, Nat.sub_zero, hmove, ok_bind, memcpy,
      if_pos (by simp; omega)]
    have htake : (argv.take next.bytes.length).length = next.bytes.length := by
      simp
      omega
    rw [List.take_zero, List.nil_append, Nat.zero_add, List.drop_append_of_le_length (by omega),
      List.drop_of_length_le (by omega), List.nil_append]
  · simp
    omega
  · rw [← List.append_assoc]
    exact List.prefix_append _ _

/-! ### The interpreter of a script -/

/-- `interpreterOf`, on the bytes behind `#!`. -/
def interpreterIn (steps : ℕ) (interpreterPath rest : List UInt8) : Except Trap (Option Buffer) := do
  let bytes := rest.take KernelFsPathMax
  let b ← memcpy interpreterPath 0 bytes
  if bytes.length = 0 then .error .outOfBounds
  else do
    let b ← put b (bytes.length-1) 0
    let newline ← strchr b 0 10
    match newline with
    | none => .ok none
    | some newline => do
        let b ← put b newline 0
        let b ← kernelFsPathNormalise steps b
        .ok (some b)

section Lines

variable {interpreterPath : Buffer} (hlen : interpreterPath.length = KernelFsPathMax) (steps : ℕ)

theorem scanFor_found {c : UInt8} {before behind : List UInt8} (hc : c ∉ before)
    (hzero : 0 ∉ before) : scanFor c (before++c::behind) = .ok (some before.length) := by
  induction before with
  | nil => rw [List.nil_append, scanFor, if_pos rfl, List.length_nil]
  | cons x before ih =>
    simp only [List.mem_cons, not_or] at hc hzero
    rw [List.cons_append, scanFor, if_neg (Ne.symm hc.1), if_neg (Ne.symm hzero.1), ih hc.2 hzero.2]
    rfl

theorem scanFor_missed {c : UInt8} {before behind : List UInt8} (hc : c ∉ before) (hne : c ≠ 0) :
    scanFor c (before++0::behind) = .ok none := by
  induction before with
  | nil => rw [List.nil_append, scanFor, if_neg (Ne.symm hne), if_pos rfl]
  | cons x before ih =>
    simp only [List.mem_cons, not_or] at hc
    rw [List.cons_append, scanFor, if_neg (Ne.symm hc.1)]
    by_cases hzero : x = 0
    · rw [if_pos hzero]
    · rw [if_neg hzero, ih hc.2]
      rfl

theorem set_last {bytes tail : List UInt8} (hne : bytes ≠ []) :
    (bytes++tail).set (bytes.length-1) 0 = bytes.dropLast++0::tail := by
  obtain ⟨init, x, rfl⟩ := (List.eq_nil_or_concat bytes).resolve_left hne
  simp

/-- There is no byte in front of the first one. -/
theorem interpreterIn_nil : interpreterIn steps interpreterPath [] = .error .outOfBounds := by
  rw [interpreterIn, List.take_nil, memcpy_nil (Nat.zero_le _)]
  rfl

include hlen

/-- The buffer as it is searched: the last byte that was read is gone. -/
theorem interpreterIn_searched {rest : List UInt8} (hne : rest ≠ []) :
    interpreterIn steps interpreterPath rest =
      (scanFor 10 ((rest.take KernelFsPathMax).dropLast++
        0::interpreterPath.drop (rest.take KernelFsPathMax).length) >>= fun newline =>
        match newline with
        | none => .ok none
        | some newline => do
            let b ← put ((rest.take KernelFsPathMax).dropLast++
              0::interpreterPath.drop (rest.take KernelFsPathMax).length) newline 0
            let b ← kernelFsPathNormalise steps b
            .ok (some b)) := by
  have hpos : rest.take KernelFsPathMax ≠ [] := by
    intro hnil
    rcases List.take_eq_nil_iff.mp hnil with h | h
    · cases h
    · exact hne h
  have hmax : (rest.take KernelFsPathMax).length ≤ KernelFsPathMax := by
    rw [List.length_take]
    exact Nat.min_le_left _ _
  rw [interpreterIn]
  generalize rest.take KernelFsPathMax = bytes at hpos hmax ⊢
  have hlength := List.length_pos_iff.mpr hpos
  rw [memcpy, if_pos (by omega), ok_bind, if_neg (by omega), List.take_zero, List.nil_append,
    Nat.zero_add, put, if_pos (by simp; omega), ok_bind, set_last hpos, strchr, List.drop_zero]
  cases scanFor 10 (bytes.dropLast++0::interpreterPath.drop bytes.length) with
  | error e => rfl
  | ok newline =>
    cases newline with
    | none => rfl
    | some newline =>
      change (put _ (0+newline) 0 >>= _) = (put _ newline 0 >>= _)
      rw [Nat.zero_add]

/-- The first line is found where a byte follows it and it has at most 62 characters,
none of them a terminator. -/
theorem interpreterIn_found {line behind : List UInt8} (hends : 10 ∉ line)
    (h : LineFound line behind) : interpreterIn steps interpreterPath (line++10::behind) =
      (kernelFsPathNormalise steps (lineBuffer interpreterPath line behind)).map some := by
  have hmax : KernelFsPathMax = 64 := rfl
  have hshort := h.short
  have htake : (line++10::behind).take KernelFsPathMax =
      line++10::behind.take (KernelFsPathMax-line.length-1) := by
    rw [List.take_append, List.take_of_length_le (by omega),
      show KernelFsPathMax-line.length = KernelFsPathMax-line.length-1+1 by omega,
      List.take_succ_cons, Nat.add_sub_cancel]
  have hmore : behind.take (KernelFsPathMax-line.length-1) ≠ [] := by
    intro hnil
    rcases List.take_eq_nil_iff.mp hnil with hzero | hnone
    · omega
    · exact h.more hnone
  have hbuffer : lineBuffer interpreterPath line behind =
      (((line++10::behind).take KernelFsPathMax).dropLast++0::interpreterPath.drop
        ((line++10::behind).take KernelFsPathMax).length).set line.length 0 := by
    rw [lineBuffer, set_last (by rw [htake]; simp)]
  rw [interpreterIn_searched hlen steps (by simp), hbuffer, htake]
  generalize behind.take (KernelFsPathMax-line.length-1) = more at hmore
  obtain ⟨init, x, rfl⟩ := (List.eq_nil_or_concat more).resolve_left hmore
  have hdrop : (line++10::(init.concat x)).dropLast = line++10::init := by
    rw [List.concat_eq_append, ← List.cons_append, ← List.append_assoc, List.dropLast_concat]
  rw [hdrop, List.append_assoc, List.cons_append, scanFor_found hends h.plain, ok_bind]
  dsimp only
  rw [put, if_pos (by simp), ok_bind]
  rfl

/-- Without such a line nothing is found. -/
theorem interpreterIn_missed {rest : List UInt8} (hne : rest ≠ [])
    (h : ∀ line behind, rest = line++10::behind → 10 ∉ line → ¬ LineFound line behind) :
    interpreterIn steps interpreterPath rest = .ok none := by
  have hmax : KernelFsPathMax = 64 := rfl
  rw [interpreterIn_searched hlen steps hne]
  generalize interpreterPath.drop (rest.take KernelFsPathMax).length = tail
  have hmissed : scanFor 10 ((rest.take KernelFsPathMax).dropLast++0::tail) = .ok none := by
    by_cases hmem : 10 ∈ (rest.take KernelFsPathMax).dropLast
    · obtain ⟨line, after, hsplit, hends⟩ := List.eq_append_cons_of_mem hmem
      have hpos : rest.take KernelFsPathMax ≠ [] := by
        intro hnil
        rw [hnil] at hmem
        cases hmem
      have hwhole : rest = line++10::(after++((rest.take KernelFsPathMax).getLast hpos::
          rest.drop KernelFsPathMax)) := by
        conv_lhs => rw [← List.take_append_drop KernelFsPathMax rest,
          ← List.dropLast_append_getLast hpos, hsplit]
        simp
      have hlength : line.length+1 < KernelFsPathMax := by
        have hall := congrArg List.length hsplit
        rw [List.length_dropLast, List.length_take, List.length_append, List.length_cons] at hall
        omega
      have hzero : 0 ∈ line := by
        by_contra hplain
        exact h _ _ hwhole hends ⟨by simp, hlength, hplain⟩
      obtain ⟨before, middle, rfl⟩ := List.append_of_mem hzero
      rw [hsplit, List.append_assoc, List.append_assoc, List.cons_append]
      apply scanFor_missed
      · intro hbefore
        exact hends (List.mem_append_left _ hbefore)
      · decide
    · exact scanFor_missed hmem (by decide)
  rw [hmissed]
  rfl

/-- The line stands in front of a terminator. -/
theorem lineBuffer_eq {line behind : List UInt8} (h : LineFound line behind) :
    ∃ tail, lineBuffer interpreterPath line behind = line++0::tail ∧
      (line++0::tail).length = KernelFsPathMax := by
  have hmax : KernelFsPathMax = 64 := rfl
  have hshort := h.short
  have hlength : (lineBuffer interpreterPath line behind).length = KernelFsPathMax := by
    simp only [lineBuffer, List.length_set, List.length_append, List.length_drop,
      List.length_take]
    omega
  have hprefix : (lineBuffer interpreterPath line behind).take line.length = line := by
    apply List.ext_getElem?
    intro i
    rw [List.getElem?_take]
    by_cases hi : i < line.length
    · have hbytes : ((line++10::behind).take KernelFsPathMax).length-1 ≠ i := by
        have hpos := List.length_pos_iff.mpr h.more
        simp only [List.length_take, List.length_append, List.length_cons]
        omega
      rw [if_pos hi, lineBuffer, List.getElem?_set_ne (by omega), List.getElem?_set_ne hbytes,
        List.getElem?_append_left (by simp; omega), List.getElem?_take, if_pos (by omega),
        List.getElem?_append_left hi]
    · rw [if_neg hi, List.getElem?_eq_none (by omega)]
  have hend : (lineBuffer interpreterPath line behind)[line.length]? = some 0 := by
    have hlt : line.length < (lineBuffer interpreterPath line behind).length := by omega
    rw [lineBuffer, List.length_set] at hlt
    rw [lineBuffer, List.getElem?_set_self (by simpa using hlt)]
  have hsplit : lineBuffer interpreterPath line behind =
      line++0::(lineBuffer interpreterPath line behind).drop (line.length+1) := by
    obtain ⟨hlt, hzero⟩ := List.getElem?_eq_some_iff.mp hend
    conv_lhs => rw [← List.take_append_drop line.length (lineBuffer interpreterPath line behind),
      hprefix, List.drop_eq_getElem_cons hlt, hzero]
  exact ⟨_, hsplit, by rw [← hsplit, hlength]⟩

/-- A line that is normalised is a path in the buffer. -/
theorem names_exists {line behind : List UInt8} {b : Buffer} (h : LineFound line behind)
    (hnormal : kernelFsPathNormalise steps (lineBuffer interpreterPath line behind) = .ok b) :
    b.length = KernelFsPathMax ∧ ∃ next : CStr, Shows b next ∧ next.length < KernelFsPathMax := by
  obtain ⟨tail, hbuffer, hlength⟩ := lineBuffer_eq hlen h
  rw [hbuffer] at hnormal
  cases line with
  | nil =>
    cases steps with
    | zero => cases hnormal
    | succ steps =>
      rw [List.nil_append, kernelFsPathNormalise_empty] at hnormal
      cases hnormal
  | cons c line =>
    have hc : c ≠ 0 := fun hzero => h.plain (hzero ▸ List.mem_cons_self ..)
    have hpath : PathWithin ((c::line)++0::tail) (c::line).length := by
      constructor
      · simp
      · simpa using hc
    have hkeeps := kernelFsPathNormalise_keeps hpath steps
    rw [hnormal] at hkeeps
    obtain ⟨hsame, hwithin⟩ := hkeeps
    obtain ⟨next, hshows, hle⟩ := exists_shown hwithin.terminator
    have hshort := h.short
    exact ⟨hsame.trans hlength, next, hshows, by omega⟩

end Lines

end ArduinoOS.Procman
