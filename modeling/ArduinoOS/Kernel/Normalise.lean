import ArduinoOS.Kernel.Path
import ArduinoOS.Lib.CBuffer

/-!
# Normalising a path in place

The path stands in a buffer, and the text behind its terminator is looked at
when a step shortens it. A terminated path that is not empty keeps both
properties, and no step leaves the buffer.
-/

set_option autoImplicit false

namespace ArduinoOS.Kernel
open ArduinoOS.CBuffer

/-- `d`, going down from right in front of this place. -/
def lastSlash (b : Buffer) : ℕ → Option ℕ
  | 0 => none
  | d+1 => if b[d]? = some 47 then some d else lastSlash b d

/-- The loop over `/..`. It does not move on from a name that starts with two
dots. -/
def normaliseParents (b : Buffer) (c : ℕ) (change : Bool) : ℕ → Except Trap (Buffer × Bool)
  | 0 => .error .diverges
  | steps+1 => do
      let found ← strstr b [47, 46, 46] c (b.length+1)
      match found with
      | none => .ok (b, change)
      | some c => do
          let atEnd ← matchesAt b c [47, 46, 46, 0]
          let inside ← matchesAt b c [47, 46, 46, 47]
          if atEnd = false ∧ inside = false then normaliseParents b c change steps
          else
            match lastSlash b c with
            | none => normaliseParents b (c+1) change steps
            | some d => do
                let double ← matchesAt b d [47, 46, 46, 47]
                if double then normaliseParents b (c+1) change steps
                else do
                  let n ← strlen b (c+3)
                  let b ← memmove b (if atEnd then d+1 else d) (c+3) (n+1)
                  normaliseParents b (c+1) true steps

/-- Drops the first `skip` characters of the first occurrence. -/
def dropFirst (b : Buffer) (pattern : List UInt8) (skip : ℕ) : Except Trap (Buffer × Bool) := do
  let found ← strstr b pattern 0 (b.length+1)
  match found with
  | none => .ok (b, false)
  | some c => do
      let n ← strlen b (c+skip)
      let b ← memmove b c (c+skip) (n+1)
      .ok (b, true)

/-- The loop until nothing changes. -/
def normaliseLoop (steps : ℕ) (b : Buffer) : ℕ → Except Trap Buffer
  | 0 => .error .diverges
  | left+1 => do
      let parents ← normaliseParents b 0 false steps
      let dots ← dropFirst parents.1 [47, 46, 47] 2
      let slashes ← dropFirst dots.1 [47, 47] 1
      if parents.2 || dots.2 || slashes.2 then normaliseLoop steps slashes.1 left
      else .ok slashes.1

/-- The trailing slash, except for the root. The character in front of the
terminator of an empty path is outside. -/
def trimSlash (b : Buffer) : Except Trap Buffer := do
  let root ← matchesAt b 0 [47, 0]
  if root then .ok b
  else do
    let n ← strlen b 0
    if n = 0 then .error .outOfBounds
    else do
      let last ← get b (n-1)
      if last = 47 then put b (n-1) 0 else .ok b

def kernelFsPathNormalise (steps : ℕ) (path : Buffer) : Except Trap Buffer := do
  let b ← normaliseLoop steps path steps
  trimSlash b

/-! ### Staying in the buffer -/

/-- A string that is not empty and ends at `n` or before. -/
structure PathWithin (b : Buffer) (n : ℕ) : Prop where
  terminator : b[n]? = some 0
  head : b[0]? ≠ some 0

/-- A run that stays in the buffer keeps its size and the path in it. -/
def KeepsPath (b : Buffer) (n : ℕ) : Except Trap Buffer → Prop
  | .ok b' => b'.length = b.length ∧ PathWithin b' n
  | .error t => t = .diverges

theorem lastSlash_some {b : Buffer} {c d : ℕ} (h : lastSlash b c = some d) :
    d < c ∧ b[d]? = some 47 := by
  induction c with
  | zero => cases h
  | succ c ih =>
    rw [lastSlash] at h
    split at h
    case isTrue hslash =>
      cases h
      exact ⟨Nat.lt_succ_self d, hslash⟩
    case isFalse =>
      have hd := ih h
      exact ⟨by omega, hd.2⟩

/-- Text moved down, so that it starts with a slash or not at the start. -/
theorem moveDown_keeps {b : Buffer} {n dst src k : ℕ} (hp : PathWithin b n) (hdst : dst < src)
    (hend : src+k ≤ n) (hhead : dst = 0 → b[src]? = some 47) :
    ∃ b', memmove b dst src (k+1) = .ok b' ∧ b'.length = b.length ∧ PathWithin b' n := by
  have hn := lt_of_terminator hp.terminator
  have hsrc : src+(k+1) ≤ b.length := by omega
  have hfits : dst+(k+1) ≤ b.length := by omega
  obtain ⟨b', hmove, hlen, hin, hout⟩ := memmove_ok hsrc hfits
  refine ⟨b', hmove, hlen, ⟨?_, ?_⟩⟩
  · rw [hout n (by omega), hp.terminator]
  · by_cases hzero : dst = 0
    · have h := hin 0 (by omega)
      rw [Nat.add_zero, Nat.add_zero, hhead hzero] at h
      rw [← hzero, h]
      decide
    · rw [hout 0 (by omega)]
      exact hp.head

theorem keepsPath_length {b b₁ : Buffer} {n : ℕ} {r : Except Trap Buffer}
    (hlen : b₁.length = b.length) (h : KeepsPath b₁ n r) : KeepsPath b n r := by
  cases r with
  | ok b' => exact ⟨h.1.trans hlen, h.2⟩
  | error t => exact h

theorem keepsPath_bind {b : Buffer} {n : ℕ} {x : Except Trap (Buffer × Bool)}
    {f : Buffer × Bool → Except Trap Buffer} (hx : KeepsPath b n (x.map Prod.fst))
    (hf : ∀ r, PathWithin r.1 n → KeepsPath r.1 n (f r)) : KeepsPath b n (x >>= f) := by
  cases x with
  | ok r => exact keepsPath_length hx.1 (hf r hx.2)
  | error t => exact hx

theorem normaliseParents_keeps {b : Buffer} {n c : ℕ} (hp : PathWithin b n) (hc : c ≤ n)
    (change : Bool) (steps : ℕ) :
    KeepsPath b n ((normaliseParents b c change steps).map Prod.fst) := by
  induction steps generalizing b c change with
  | zero => rfl
  | succ steps ih =>
    have hn := lt_of_terminator hp.terminator
    obtain ⟨found, hfind, hfound⟩ := strstr_ok hp.terminator hc [47, 46, 46] (by simp)
      (b.length+1) (by omega)
    rw [normaliseParents, hfind]
    cases found with
    | none => exact ⟨rfl, hp⟩
    | some c' =>
      obtain ⟨_, hin, _⟩ := hfound c' rfl
      have hin' : c'+3 ≤ n := hin
      obtain ⟨atEnd, hend, _⟩ := matchesAt_ok hp.terminator (by omega : c' ≤ n) [47, 46, 46, 0]
        (by simp)
      obtain ⟨inside, hinside, hslash⟩ := matchesAt_ok hp.terminator (by omega : c' ≤ n)
        [47, 46, 46, 47] (by simp)
      change KeepsPath b n (Except.map Prod.fst (matchesAt b c' [47, 46, 46, 0] >>= _))
      rw [hend]
      change KeepsPath b n (Except.map Prod.fst (matchesAt b c' [47, 46, 46, 47] >>= _))
      rw [hinside]
      change KeepsPath b n (Except.map Prod.fst (if atEnd = false ∧ inside = false then _ else _))
      split
      case isTrue => exact ih hp (by omega) change
      case isFalse hmatch =>
        cases hd : lastSlash b c' with
        | none => exact ih hp (by omega) change
        | some d =>
          obtain ⟨hlt, _⟩ := lastSlash_some hd
          obtain ⟨double, hdouble, _⟩ := matchesAt_ok hp.terminator (by omega : d ≤ n)
            [47, 46, 46, 47] (by simp)
          change KeepsPath b n (Except.map Prod.fst (matchesAt b d [47, 46, 46, 47] >>= _))
          rw [hdouble]
          cases double with
          | true => exact ih hp (by omega) change
          | false =>
            obtain ⟨k, hk, hkn, _⟩ := strlen_ok hp.terminator hin'
            change KeepsPath b n (Except.map Prod.fst (strlen b (c'+3) >>= _))
            rw [hk]
            have hhead : (if atEnd then d+1 else d) = 0 → b[c'+3]? = some 47 := by
              intro hzero
              cases atEnd with
              | true => cases hzero
              | false =>
                have htrue : inside = true := by
                  cases inside with
                  | true => rfl
                  | false => exact absurd ⟨rfl, rfl⟩ hmatch
                exact hslash htrue 3 (by decide)
            obtain ⟨b', hmove, hlen, hp'⟩ := moveDown_keeps hp
              (by split <;> omega : (if atEnd then d+1 else d) < c'+3) hkn hhead
            change KeepsPath b n (Except.map Prod.fst (memmove b _ (c'+3) (k+1) >>= _))
            rw [hmove]
            exact keepsPath_length hlen (ih hp' (by omega) true)

theorem dropFirst_keeps {b : Buffer} {n : ℕ} (hp : PathWithin b n) {pattern : List UInt8}
    {skip : ℕ} (hpattern : ∀ c ∈ pattern, c ≠ 0) (hskip : 0 < skip ∧ skip < pattern.length)
    (hslash : pattern[skip]? = some 47) :
    KeepsPath b n ((dropFirst b pattern skip).map Prod.fst) := by
  have hn := lt_of_terminator hp.terminator
  obtain ⟨found, hfind, hfound⟩ := strstr_ok hp.terminator (Nat.zero_le n) pattern hpattern
    (b.length+1) (by omega)
  rw [dropFirst, hfind]
  cases found with
  | none => exact ⟨rfl, hp⟩
  | some c =>
    obtain ⟨_, hin, hmatch⟩ := hfound c rfl
    obtain ⟨k, hk, hkn, _⟩ := strlen_ok hp.terminator (by omega : c+skip ≤ n)
    obtain ⟨b', hmove, hlen, hp'⟩ := moveDown_keeps hp (by omega : c < c+skip) hkn
      (fun _ => by rw [hmatch skip hskip.2, hslash])
    change KeepsPath b n (Except.map Prod.fst (strlen b (c+skip) >>= _))
    rw [hk]
    change KeepsPath b n (Except.map Prod.fst (memmove b c (c+skip) (k+1) >>= _))
    rw [hmove]
    exact ⟨hlen, hp'⟩

theorem normaliseLoop_keeps {b : Buffer} {n : ℕ} (hp : PathWithin b n) (steps left : ℕ) :
    KeepsPath b n (normaliseLoop steps b left) := by
  induction left generalizing b with
  | zero => rfl
  | succ left ih =>
    rw [normaliseLoop]
    refine keepsPath_bind (normaliseParents_keeps hp (Nat.zero_le n) false steps)
      (fun parents hparents => ?_)
    refine keepsPath_bind (dropFirst_keeps hparents (by simp) (by decide) rfl)
      (fun dots hdots => ?_)
    refine keepsPath_bind (dropFirst_keeps hdots (by simp) (by decide) rfl)
      (fun slashes hslashes => ?_)
    split
    case isTrue => exact ih hslashes
    case isFalse => exact ⟨rfl, hslashes⟩

theorem trimSlash_ok {b : Buffer} {n : ℕ} (hp : PathWithin b n) :
    ∃ b', trimSlash b = .ok b' ∧ b'.length = b.length ∧ PathWithin b' n := by
  have hn := lt_of_terminator hp.terminator
  obtain ⟨root, hroot, _⟩ := matchesAt_ok hp.terminator (Nat.zero_le n) [47, 0] (by simp)
  obtain ⟨k, hk, hkn, hend, hbefore⟩ := strlen_ok hp.terminator (Nat.zero_le n)
  rw [Nat.zero_add] at hkn hend
  rw [trimSlash, hroot, ok_bind]
  cases root with
  | true => exact ⟨b, rfl, rfl, hp⟩
  | false =>
    have hpos : k ≠ 0 := by
      rintro rfl
      exact hp.head hend
    obtain ⟨last, hget, hlast⟩ := get_ok (by omega : k-1 < b.length)
    rw [if_neg Bool.false_ne_true, hk, ok_bind, if_neg hpos, hget, ok_bind]
    split
    case isFalse => exact ⟨b, rfl, rfl, hp⟩
    case isTrue hslash =>
      have hroom : k-1 < b.length := by omega
      rw [put, if_pos hroom]
      -- one slash alone would have been the root
      have hlong : k-1 ≠ 0 := by
        intro hone
        have hk1 : k = 1 := by omega
        subst hk1
        have hm : matchesAt b 0 [47, 0] = .ok true := by
          have hget₁ : get b 1 = .ok 0 := by rw [CBuffer.get, hend]
          have hget₀ : get b 0 = .ok 47 := hslash ▸ hget
          rw [matchesAt, hget₀, ok_bind, if_pos rfl, matchesAt, hget₁]
          rfl
        rw [hm] at hroot
        cases hroot
      refine ⟨_, rfl, List.length_set, ⟨?_, ?_⟩⟩
      · rw [List.getElem?_set_ne (by omega), hp.terminator]
      · rw [List.getElem?_set_ne hlong]
        exact hp.head

theorem trimSlash_keeps {b : Buffer} {n : ℕ} (hp : PathWithin b n) :
    KeepsPath b n (trimSlash b) := by
  obtain ⟨b', hrun, hlen, hp'⟩ := trimSlash_ok hp
  rw [hrun]
  exact ⟨hlen, hp'⟩

/-- A path that is not empty is normalised within its buffer. -/
theorem kernelFsPathNormalise_keeps {b : Buffer} {n : ℕ} (hp : PathWithin b n) (steps : ℕ) :
    KeepsPath b n (kernelFsPathNormalise steps b) := by
  have hloop := normaliseLoop_keeps hp steps steps
  rw [kernelFsPathNormalise]
  cases hr : normaliseLoop steps b steps with
  | error t =>
    rw [hr] at hloop
    exact hloop
  | ok b' =>
    rw [hr] at hloop
    exact keepsPath_length hloop.1 (trimSlash_keeps hloop.2)

/-- The empty path does not stay in its buffer. -/
theorem kernelFsPathNormalise_empty (rest : Buffer) (steps : ℕ) :
    kernelFsPathNormalise (steps+1) (0::rest) = .error .outOfBounds := by
  have hloop : normaliseLoop (steps+1) (0::rest) (steps+1) = .ok (0::rest) := rfl
  rw [kernelFsPathNormalise, hloop]
  rfl

end ArduinoOS.Kernel
