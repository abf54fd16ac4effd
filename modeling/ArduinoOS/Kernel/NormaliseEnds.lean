import ArduinoOS.Kernel.Normalise

/-!
# Where normalising a path ends

The loop over `/..` moves on at every step unless it meets a name that starts
with two dots and goes on, and a pass that changes the path makes it shorter.
-/

set_option autoImplicit false

namespace ArduinoOS.Kernel
open ArduinoOS.CBuffer

/-- `/..` stands here. -/
def ParentAt (b : Buffer) (i : ℕ) : Prop :=
  b[i]? = some 47 ∧ b[i+1]? = some 46 ∧ b[i+2]? = some 46

theorem parentAt_chars {b : Buffer} {i : ℕ} {x : UInt8} (h : ParentAt b i)
    (hx : b[i+3]? = some x) : ∀ k < [47, 46, 46, x].length, b[i+k]? = [47, 46, 46, x][k]? := by
  intro k hk
  have hcases : k = 0 ∨ k = 1 ∨ k = 2 ∨ k = 3 := by
    rw [show [47, 46, 46, x].length = 4 from rfl] at hk
    omega
  rcases hcases with rfl | rfl | rfl | rfl
  · exact h.1
  · exact h.2.1
  · exact h.2.2
  · exact hx

/-- A name starts here, behind a slash, with two dots and goes on. -/
def LongAt (b : Buffer) (i : ℕ) : Prop :=
  ParentAt b i ∧ ∃ x, b[i+3]? = some x ∧ x ≠ 47 ∧ x ≠ 0

/-- A path within `n` characters without such a name. -/
structure Plain (b : Buffer) (n : ℕ) : Prop extends PathWithin b n where
  short : ∀ i, i+3 ≤ n → ¬ LongAt b i

/-- A terminator stands in front of `n`. -/
def EndsBelow (b : Buffer) (n : ℕ) : Prop := ∃ j < n, b[j]? = some 0

/-- Text moved down makes the path shorter and no name longer. -/
theorem moveDown_plain {b : Buffer} {n dst src k : ℕ} (hp : Plain b n) (hdst : dst < src)
    (hend : src+k ≤ n) (hzero : b[src+k]? = some 0)
    (hfirst : b[src]? = some 47 ∨ b[src]? = some 0) (hhead : dst = 0 → b[src]? = some 47) :
    ∃ b', memmove b dst src (k+1) = .ok b' ∧ b'.length = b.length ∧ Plain b' n ∧
      EndsBelow b' n := by
  have hn := lt_of_terminator hp.terminator
  obtain ⟨b', hmove, hlen, hin, hout⟩ := memmove_ok (show src+(k+1) ≤ b.length by omega)
    (show dst+(k+1) ≤ b.length by omega)
  obtain ⟨b'', hmove', _, hpath⟩ := moveDown_keeps hp.toPathWithin hdst hend hhead
  rw [hmove] at hmove'
  cases hmove'
  have hlast : b'[dst+k]? = some 0 := by rw [hin k (by omega), hzero]
  have hstart : b'[dst]? = some 47 ∨ b'[dst]? = some 0 := by
    have h := hin 0 (by omega)
    rw [Nat.add_zero, Nat.add_zero] at h
    rwa [h]
  refine ⟨b', hmove, hlen, ⟨hpath, fun i hi hlong => ?_⟩, ⟨dst+k, by omega, hlast⟩⟩
  obtain ⟨⟨h0, h1, h2⟩, x, h3, hx, hx0⟩ := hlong
  -- a character of the name is neither a slash nor the terminator
  have hne : ∀ j, i < j → j ≤ i+3 → b'[j]? ≠ some 47 ∧ b'[j]? ≠ some 0 := by
    intro j hij hj
    have hcases : j = i+1 ∨ j = i+2 ∨ j = i+3 := by omega
    rcases hcases with rfl | rfl | rfl
    · rw [h1]
      exact ⟨by decide, by decide⟩
    · rw [h2]
      exact ⟨by decide, by decide⟩
    · rw [h3]
      exact ⟨fun h => hx (Option.some.inj h), fun h => hx0 (Option.some.inj h)⟩
  have hnot : ¬ (i < dst ∧ dst ≤ i+3) := fun h =>
    hstart.elim (hne dst h.1 h.2).1 (hne dst h.1 h.2).2
  have hnot' : ¬ (i ≤ dst+k ∧ dst+k ≤ i+3) := by
    intro h
    by_cases heq : i = dst+k
    · rw [← heq, h0] at hlast
      cases hlast
    · exact (hne (dst+k) (by omega) h.2).2 hlast
  by_cases hbelow : i+3 < dst
  · refine hp.short i hi ⟨⟨?_, ?_, ?_⟩, x, ?_, hx, hx0⟩
    · rw [← hout i (by omega), h0]
    · rw [← hout (i+1) (by omega), h1]
    · rw [← hout (i+2) (by omega), h2]
    · rw [← hout (i+3) (by omega), h3]
  · by_cases habove : dst+k < i
    · refine hp.short i hi ⟨⟨?_, ?_, ?_⟩, x, ?_, hx, hx0⟩
      · rw [← hout i (by omega), h0]
      · rw [← hout (i+1) (by omega), h1]
      · rw [← hout (i+2) (by omega), h2]
      · rw [← hout (i+3) (by omega), h3]
    · have hmoved : ∀ j, j ≤ 3 → b'[i+j]? = b[src+(i-dst)+j]? := by
        intro j hj
        have h := hin (i-dst+j) (by omega)
        rw [show dst+(i-dst+j) = i+j by omega, show src+(i-dst+j) = src+(i-dst)+j by omega] at h
        exact h
      refine hp.short (src+(i-dst)) (by omega) ⟨⟨?_, ?_, ?_⟩, x, ?_, hx, hx0⟩
      · have h := hmoved 0 (by omega)
        rw [Nat.add_zero, Nat.add_zero] at h
        rw [← h, h0]
      · rw [← hmoved 1 (by omega), h1]
      · rw [← hmoved 2 (by omega), h2]
      · rw [← hmoved 3 (by omega), h3]

/-- A pass over part of the path ends well. -/
structure Passed (b : Buffer) (n : ℕ) (change : Bool) (r : Buffer × Bool) : Prop where
  length : r.1.length = b.length
  plain : Plain r.1 n
  shorter : (change = true → EndsBelow b n) → r.2 = true → EndsBelow r.1 n

theorem normaliseParents_passed {b : Buffer} {n c steps : ℕ} (hp : Plain b n) (hc : c ≤ n)
    (hsteps : n < c+steps) (change : Bool) :
    ∃ r, normaliseParents b c change steps = .ok r ∧ Passed b n change r := by
  induction steps generalizing b c change with
  | zero => omega
  | succ steps ih =>
    have hn := lt_of_terminator hp.terminator
    obtain ⟨found, hfind, hfound⟩ := strstr_ok hp.terminator hc [47, 46, 46] (by simp)
      (b.length+1) (by omega)
    rw [normaliseParents, hfind, ok_bind]
    cases found with
    | none => exact ⟨(b, change), rfl, rfl, hp, fun h => h⟩
    | some c' =>
      obtain ⟨hle, hin, hmatch⟩ := hfound c' rfl
      have hin' : c'+3 ≤ n := hin
      have hparent : ParentAt b c' :=
        ⟨hmatch 0 (by decide), hmatch 1 (by decide), hmatch 2 (by decide)⟩
      obtain ⟨atEnd, hend, hatEnd⟩ := matchesAt_ok hp.terminator (by omega : c' ≤ n)
        [47, 46, 46, 0] (by simp)
      obtain ⟨inside, hinside, hslash⟩ := matchesAt_ok hp.terminator (by omega : c' ≤ n)
        [47, 46, 46, 47] (by simp)
      -- the name ends behind its two dots
      have hshort : ¬ (atEnd = false ∧ inside = false) := by
        rintro ⟨rfl, rfl⟩
        obtain ⟨x, hget, hx⟩ := get_ok (by omega : c'+3 < b.length)
        obtain ⟨h0, h1, h2⟩ := hparent
        refine hp.short c' hin' ⟨⟨h0, h1, h2⟩, x, hx, ?_, ?_⟩
        · rintro rfl
          have htrue := matchesAt_true (parentAt_chars ⟨h0, h1, h2⟩ hx)
          rw [htrue] at hinside
          cases hinside
        · rintro rfl
          have htrue := matchesAt_true (parentAt_chars ⟨h0, h1, h2⟩ hx)
          rw [htrue] at hend
          cases hend
      dsimp only
      rw [hend, ok_bind, hinside, ok_bind, if_neg hshort]
      cases hd : lastSlash b c' with
      | none => exact ih hp (by omega) (by omega) change
      | some d =>
        obtain ⟨hlt, _⟩ := lastSlash_some hd
        obtain ⟨double, hdouble, _⟩ := matchesAt_ok hp.terminator (by omega : d ≤ n)
          [47, 46, 46, 47] (by simp)
        dsimp only
        rw [hdouble, ok_bind]
        cases double with
        | true => exact ih hp (by omega) (by omega) change
        | false =>
          obtain ⟨k, hk, hkn, hzero, _⟩ := strlen_ok hp.terminator hin'
          have hfirst : b[c'+3]? = some 47 ∨ b[c'+3]? = some 0 := by
            cases inside with
            | true => exact Or.inl (hslash rfl 3 (by decide))
            | false =>
              cases atEnd with
              | true => exact Or.inr (hatEnd rfl 3 (by decide))
              | false => exact absurd ⟨rfl, rfl⟩ hshort
          have hhead : (if atEnd then d+1 else d) = 0 → b[c'+3]? = some 47 := by
            intro hd0
            cases atEnd with
            | true => cases hd0
            | false =>
              cases inside with
              | true => exact hslash rfl 3 (by decide)
              | false => exact absurd ⟨rfl, rfl⟩ hshort
          obtain ⟨b', hmove, hlen, hp', hbelow⟩ := moveDown_plain hp
            (by split <;> omega : (if atEnd then d+1 else d) < c'+3) hkn hzero hfirst hhead
          rw [if_neg Bool.false_ne_true, hk, ok_bind, hmove, ok_bind]
          obtain ⟨r, hrun, hlen', hplain, hshorter⟩ := ih (c := c'+1) hp' (by omega) (by omega)
            true
          exact ⟨r, hrun, hlen'.trans hlen, hplain, fun _ => hshorter (fun _ => hbelow)⟩

theorem dropFirst_passed {b : Buffer} {n : ℕ} (hp : Plain b n) {pattern : List UInt8} {skip : ℕ}
    (hpattern : ∀ c ∈ pattern, c ≠ 0) (hskip : 0 < skip ∧ skip < pattern.length)
    (hslash : pattern[skip]? = some 47) :
    ∃ r, dropFirst b pattern skip = .ok r ∧ Passed b n false r ∧
      (EndsBelow b n → EndsBelow r.1 n) := by
  have hn := lt_of_terminator hp.terminator
  obtain ⟨found, hfind, hfound⟩ := strstr_ok hp.terminator (Nat.zero_le n) pattern hpattern
    (b.length+1) (by omega)
  rw [dropFirst, hfind, ok_bind]
  cases found with
  | none => exact ⟨(b, false), rfl, ⟨rfl, hp, fun _ h => by cases h⟩, fun h => h⟩
  | some c =>
    obtain ⟨_, hin, hmatch⟩ := hfound c rfl
    obtain ⟨k, hk, hkn, hzero, _⟩ := strlen_ok hp.terminator (by omega : c+skip ≤ n)
    have hsrc : b[c+skip]? = some 47 := by rw [hmatch skip hskip.2, hslash]
    obtain ⟨b', hmove, hlen, hp', hbelow⟩ := moveDown_plain hp (by omega : c < c+skip) hkn hzero
      (Or.inl hsrc) (fun _ => hsrc)
    dsimp only
    rw [hk, ok_bind, hmove, ok_bind]
    exact ⟨(b', true), rfl, ⟨hlen, hp', fun _ _ => hbelow⟩, fun _ => hbelow⟩

theorem dot_chars : ∀ c ∈ ([47, 46, 47] : List UInt8), c ≠ 0 := by simp

theorem slash_chars : ∀ c ∈ ([47, 47] : List UInt8), c ≠ 0 := by simp

/-- Each pass that is followed by another one has made the path shorter. -/
theorem normaliseLoop_ends {b : Buffer} {n steps left : ℕ} (hp : Plain b n) (hsteps : n < steps)
    (hleft : n < left) : ∃ b', normaliseLoop steps b left = .ok b' ∧ b'.length = b.length ∧
      ∃ n', PathWithin b' n' := by
  induction left generalizing b n with
  | zero => omega
  | succ left ih =>
    rw [normaliseLoop]
    obtain ⟨parents, hparents, h₁⟩ := normaliseParents_passed hp (Nat.zero_le n)
      (by omega : n < 0+steps) false
    obtain ⟨dots, hdots, h₂, hbelow₂⟩ := dropFirst_passed h₁.plain dot_chars
      (show 0 < 2 ∧ 2 < ([47, 46, 47] : List UInt8).length by decide) rfl
    obtain ⟨slashes, hslashes, h₃, hbelow₃⟩ := dropFirst_passed h₂.plain slash_chars
      (show 0 < 1 ∧ 1 < ([47, 47] : List UInt8).length by decide) rfl
    rw [hparents, ok_bind, hdots, ok_bind, hslashes, ok_bind]
    have hlen : slashes.1.length = b.length := (h₃.length.trans h₂.length).trans h₁.length
    split
    case isFalse => exact ⟨slashes.1, rfl, hlen, n, h₃.plain.toPathWithin⟩
    case isTrue hchange =>
      have hbelow : EndsBelow slashes.1 n := by
        rw [Bool.or_eq_true, Bool.or_eq_true] at hchange
        rcases hchange with (hc | hc) | hc
        · exact hbelow₃ (hbelow₂ (h₁.shorter (fun h => by cases h) hc))
        · exact hbelow₃ (h₂.shorter (fun h => by cases h) hc)
        · exact h₃.shorter (fun h => by cases h) hc
      obtain ⟨n', hlt, hzero⟩ := hbelow
      have hp' : Plain slashes.1 n' := ⟨⟨hzero, h₃.plain.head⟩, fun i hi => h₃.plain.short i (by omega)⟩
      obtain ⟨b', hrun, hlen', hpath⟩ := ih hp' (by omega) (by omega)
      exact ⟨b', hrun, hlen'.trans hlen, hpath⟩

theorem normalise_ends {b : Buffer} {n steps : ℕ} (hp : Plain b n) (hsteps : n < steps) :
    ∃ b', kernelFsPathNormalise steps b = .ok b' := by
  obtain ⟨b', hrun, _, n', hp'⟩ := normaliseLoop_ends hp hsteps hsteps
  obtain ⟨b'', htrim, _⟩ := trimSlash_ok hp'
  exact ⟨b'', by rw [kernelFsPathNormalise, hrun, ok_bind, htrim]⟩

/-! ### Paths that are never done -/

theorem lastSlash_none {b : Buffer} {c : ℕ} (h : ∀ d < c, b[d]? ≠ some 47) :
    lastSlash b c = none := by
  induction c with
  | zero => rfl
  | succ c ih =>
    rw [lastSlash, if_neg (h c (Nat.lt_succ_self c))]
    exact ih (fun d hd => h d (by omega))

theorem lastSlash_parent {b : Buffer} {d : ℕ} (h : ParentAt b d) : lastSlash b (d+3) = some d := by
  have h1 : b[d+1]? ≠ some 47 := by
    rw [h.2.1]
    decide
  have h2 : b[d+2]? ≠ some 47 := by
    rw [h.2.2]
    decide
  rw [lastSlash, if_neg h2, lastSlash, if_neg h1, lastSlash, if_pos h.1]

/-- A `..` that is not resolved: no name is in front of it, or another one. -/
def Unresolved (b : Buffer) (j : ℕ) : Prop :=
  b[j+3]? = some 47 ∧ ((∀ d < j, b[d]? ≠ some 47) ∨ ∃ d, j = d+3 ∧ ParentAt b d)

/-- Nothing in front of the first long name is resolved. -/
def Stuck (b : Buffer) : Prop :=
  ∃ i, LongAt b i ∧ ∀ j < i, ParentAt b j → Unresolved b j

theorem normaliseParents_stuck {b : Buffer} {i n c : ℕ} (hn : b[n]? = some 0) (hin : i+3 < n)
    (hlive : ∀ k ≤ i, b[k]? ≠ some 0) (hlong : LongAt b i)
    (hfirst : ∀ j < i, ParentAt b j → Unresolved b j) (hc : c ≤ i) (change : Bool) (steps : ℕ) :
    normaliseParents b c change steps = .error .diverges := by
  have hlt := lt_of_terminator hn
  induction steps generalizing c with
  | zero => rfl
  | succ steps ih =>
    have hpattern : ∀ k < ([47, 46, 46] : List UInt8).length,
        b[i+k]? = ([47, 46, 46] : List UInt8)[k]? := by
      intro k hk
      obtain ⟨hparent, x, hx, _⟩ := hlong
      have hcases : k = 0 ∨ k = 1 ∨ k = 2 := by
        change k < 3 at hk
        omega
      rcases hcases with rfl | rfl | rfl
      · exact hparent.1
      · exact hparent.2.1
      · exact hparent.2.2
    obtain ⟨j, hji, hfind⟩ := strstr_finds hn [47, 46, 46] (by simp) (b.length+1) (by omega) hc
      (by omega) hpattern (fun k _ hk => hlive k hk)
    obtain ⟨r, hfind', hall⟩ := strstr_ok hn (by omega : c ≤ n) [47, 46, 46] (by simp)
      (b.length+1) (by omega)
    rw [hfind] at hfind'
    cases hfind'
    obtain ⟨hcj, _, hmatch⟩ := hall j rfl
    have hparent : ParentAt b j :=
      ⟨hmatch 0 (by decide), hmatch 1 (by decide), hmatch 2 (by decide)⟩
    obtain ⟨atEnd, hend, hatEnd⟩ := matchesAt_ok hn (by omega : j ≤ n) [47, 46, 46, 0] (by simp)
    obtain ⟨inside, hinside, hslash⟩ := matchesAt_ok hn (by omega : j ≤ n) [47, 46, 46, 47]
      (by simp)
    rw [normaliseParents, hfind, ok_bind]
    dsimp only
    rw [hend, ok_bind, hinside, ok_bind]
    by_cases hsame : j = i
    · subst hsame
      obtain ⟨_, x, hx, hx47, hx0⟩ := hlong
      have hend' : atEnd = false := by
        cases atEnd with
        | false => rfl
        | true =>
          have h := hatEnd rfl 3 (by decide)
          rw [hx] at h
          exact absurd (Option.some.inj h) hx0
      have hinside' : inside = false := by
        cases inside with
        | false => rfl
        | true =>
          have h := hslash rfl 3 (by decide)
          rw [hx] at h
          exact absurd (Option.some.inj h) hx47
      rw [if_pos ⟨hend', hinside'⟩]
      exact ih (Nat.le_refl j)
    · obtain ⟨hslash', hnone | ⟨d, rfl, hdouble⟩⟩ := hfirst j (by omega) hparent
      · rw [matchesAt_true (parentAt_chars hparent hslash')] at hinside
        cases hinside
        rw [if_neg (fun h => by cases h.2), lastSlash_none hnone]
        exact ih (by omega)
      · rw [matchesAt_true (parentAt_chars hparent hslash')] at hinside
        cases hinside
        rw [if_neg (fun h => by cases h.2), lastSlash_parent hdouble]
        dsimp only
        rw [matchesAt_true (parentAt_chars hdouble hparent.1), ok_bind, if_pos rfl]
        exact ih (by omega)

/-! ### Paths -/

theorem bytes_end (path : CStr) : path.bytes[path.length]? = some 0 := by
  rw [CStr.bytes, List.getElem?_append_right (by simp), List.length_map, Nat.sub_self]
  rfl

theorem bytes_live {path : CStr} {k : ℕ} (h : k < path.length) : path.bytes[k]? ≠ some 0 := by
  rw [CStr.bytes, List.getElem?_append_left (by rwa [List.length_map]), List.getElem?_map,
    List.getElem?_eq_getElem h]
  exact fun hzero => path[k].ne (Option.some.inj hzero)

theorem long_inside {path : CStr} {i : ℕ} (h : LongAt path.bytes i) : i+3 < path.length := by
  obtain ⟨_, x, hx, _, hx0⟩ := h
  have hlt := (List.getElem?_eq_some_iff.mp hx).1
  rw [CStr.bytes_length] at hlt
  by_contra hend
  have heq : i+3 = path.length := by omega
  rw [heq, bytes_end] at hx
  exact hx0 (Option.some.inj hx).symm

theorem bytes_within {path : CStr} (h : path ≠ []) : PathWithin path.bytes path.length :=
  ⟨bytes_end path, bytes_live (List.length_pos_iff.mpr h)⟩

theorem normalise_stuck {path : CStr} (h : Stuck path.bytes) (steps : ℕ) :
    kernelFsPathNormalise steps path.bytes = .error .diverges := by
  obtain ⟨i, hlong, hfirst⟩ := h
  have hin := long_inside hlong
  have hloop : ∀ left, normaliseLoop steps path.bytes left = .error .diverges := by
    intro left
    cases left with
    | zero => rfl
    | succ left =>
      rw [normaliseLoop, normaliseParents_stuck (bytes_end path) hin
        (fun k hk => bytes_live (by omega)) hlong hfirst (Nat.zero_le i) false steps]
      rfl
  rw [kernelFsPathNormalise, hloop]
  rfl

end ArduinoOS.Kernel
