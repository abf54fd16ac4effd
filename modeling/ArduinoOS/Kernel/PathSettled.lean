import ArduinoOS.Kernel.PathSteps

/-!
# Paths that stay as they are

A pass that changes nothing leaves a path without double slashes, without a dot
between slashes, and with each `..` behind nothing or another one. On such a
path nothing changes again.
-/

set_option autoImplicit false

namespace ArduinoOS.Kernel
open ArduinoOS.CBuffer

/-- Nothing in the path is taken out. -/
structure Settled (s : CStr) : Prop where
  closed : ∀ P R, s = P++slash::dot::dot::R → ∀ x, R.head? = some x → x = slash
  parents : ∀ P R, s = P++slash::dot::dot::R → slash ∉ P ∨ ∃ Q, P = Q++[slash, dot, dot]
  dots : ∀ P R, s ≠ P++slash::dot::slash::R
  slashes : ∀ P R, s ≠ P++slash::slash::R

/-! ### What is left of it -/

theorem settled_dropLast {s : CStr} (h : Settled (s++[slash])) : Settled s := by
  refine ⟨fun P R hs x hx => ?_, fun P R hs => ?_, fun P R hs => ?_, fun P R hs => ?_⟩
  · refine h.closed P (R++[slash]) (by rw [hs]; simp) x ?_
    rw [List.head?_append, hx, Option.some_or]
  · exact h.parents P (R++[slash]) (by rw [hs]; simp)
  · exact h.dots P (R++[slash]) (by rw [hs]; simp)
  · exact h.slashes P (R++[slash]) (by rw [hs]; simp)

/-- A path is cut before its last character, or stays. -/
theorem trim_cases (s : CStr) : trim s = s ∨ (s ≠ rootPath ∧ s = trim s++[slash]) := by
  rw [trim]
  split
  case isFalse => exact Or.inl rfl
  case isTrue hlast =>
    refine Or.inr ⟨hlast.1, ?_⟩
    rw [List.dropLast_append_getLast? slash hlast.2]

theorem settled_trim {s : CStr} (h : Settled s) : Settled (trim s) := by
  rcases trim_cases s with hkept | ⟨_, hcut⟩
  · rwa [hkept]
  · rw [hcut] at h
    exact settled_dropLast h

theorem trim_head {s : CStr} (h : s.head? = some slash) : (trim s).head? = some slash := by
  rcases trim_cases s with hkept | ⟨hroot, hcut⟩
  · rwa [hkept]
  · cases ht : trim s with
    | nil =>
      rw [ht] at hcut
      exact absurd hcut hroot
    | cons x rest =>
      rw [hcut, ht] at h
      exact h

theorem trim_length (s : CStr) : (trim s).length ≤ s.length := by
  rcases trim_cases s with hkept | ⟨_, hcut⟩
  · rw [hkept]
  · have hlen := congrArg List.length hcut
    rw [List.length_append] at hlen
    omega

/-- Only the root ends in a slash. -/
theorem trim_last {s : CStr} (h : Settled s) (hroot : trim s ≠ rootPath) :
    (trim s).getLast? ≠ some slash := by
  intro hlast
  rcases trim_cases s with hkept | ⟨_, hcut⟩
  · rw [hkept] at hlast hroot
    rw [trim, if_pos ⟨hroot, hlast⟩] at hkept
    have hlen := congrArg List.length hkept
    rw [List.length_dropLast] at hlen
    rw [List.length_eq_zero_iff.mp (by omega : s.length = 0)] at hlast
    cases hlast
  · rw [← List.dropLast_append_getLast? slash hlast] at hcut
    exact h.slashes (trim s).dropLast [] (hcut.trans (by simp))

theorem trim_valid {s : CStr} (h : Settled s) (hhead : s.head? = some slash) :
    kernelFsPathIsValid (trim s) = true := by
  rw [kernelFsPathIsValid, Bool.and_eq_true, beq_iff_eq, Bool.or_eq_true, beq_iff_eq,
    bne_iff_ne]
  refine ⟨trim_head hhead, ?_⟩
  by_cases hroot : trim s = rootPath
  · exact Or.inl hroot
  · exact Or.inr (trim_last h hroot)

theorem trim_trim {s : CStr} (h : Settled s) : trim (trim s) = trim s := by
  by_cases hroot : trim s = rootPath
  · rw [hroot]
    rfl
  · rw [trim, if_neg (fun hlast => trim_last h hroot hlast.2)]

/-! ### Its names -/

/-- A last name is unique. -/
theorem last_name {P Q x y : CStr} (hx : slash ∉ x) (hy : slash ∉ y)
    (h : P++slash::x = Q++slash::y) : x = y := by
  have hbase : ∀ P x : CStr, slash ∉ x → baseName (P++slash::x) = x := by
    intro P x hx
    have htake : (x.reverse++slash::P.reverse).takeWhile (fun z => z != slash) = x.reverse := by
      rw [List.takeWhile_append_of_pos (fun z hz => by
        have hne : z ≠ slash := fun heq => hx (heq ▸ List.mem_reverse.mp hz)
        simpa using hne)]
      simp
    rw [baseName, List.reverse_append, List.reverse_cons, List.append_assoc,
      List.singleton_append, htake, List.reverse_reverse]
  rw [← hbase P x hx, h, hbase Q y hy]

theorem settled_final {names : List CStr} (hnamed : Named names) (h : Settled (text names)) :
    Final names := by
  constructor
  · rintro A x B rfl
    have htext : text (A++x::parentName::B) = (text A++slash::x)++slash::dot::dot::text B := by
      rw [text_append, text_cons, text_cons, List.append_assoc]
      rfl
    rcases h.parents _ _ htext with hnone | ⟨Q, hQ⟩
    · exact absurd (List.mem_append_right _ List.mem_cons_self) hnone
    · exact last_name (named_cons.mp (named_append.mp hnamed).2).1 (by decide) hQ
  · rintro A x B rfl hblank
    cases B with
    | nil => rfl
    | cons y B =>
      rcases hblank with rfl | rfl
      · exact absurd (by rw [text_append]; rfl) (h.slashes (text A) (y++text B))
      · exact absurd (by rw [text_append]; rfl) (h.dots (text A) (y++text B))

/-! ### Between the buffer and the string -/

section Buffers

variable {b : Buffer} {s P R : CStr}

/-- Characters that follow one another in the string stand in the buffer. -/
theorem shows_chars (h : Shows b s) (pattern : CStr) (hs : s = P++(pattern++R)) :
    ∀ k < (pattern.map CChar.val).length, b[P.length+k]? = (pattern.map CChar.val)[k]? := by
  subst hs
  intro k hk
  rw [List.length_map] at hk
  have hin : P.length+k < (P++(pattern++R)).length := by
    simp only [List.length_append]
    omega
  rw [shows_char h hin, List.getElem?_map, List.getElem?_eq_getElem hk, Option.map_some]
  congr 2
  rw [List.getElem_append_right (by omega), List.getElem_append_left (by omega)]
  simp

theorem shows_parentAt (h : Shows b s) (hs : s = P++slash::dot::dot::R) : ParentAt b P.length := by
  have hchars := shows_chars h [slash, dot, dot] hs
  exact ⟨hchars 0 (by decide), hchars 1 (by decide), hchars 2 (by decide)⟩

theorem parentAt_shows (h : Shows b s) {j : ℕ} (hparent : ParentAt b j) (hj : j+3 ≤ s.length) :
    s = s.take j++slash::dot::dot::s.drop (j+3) := by
  conv_lhs => rw [← List.take_append_drop j s]
  rw [List.drop_eq_getElem_cons (by omega : j < s.length),
    List.drop_eq_getElem_cons (by omega : j+1 < s.length),
    List.drop_eq_getElem_cons (by omega : j+1+1 < s.length),
    shows_slash h (by omega) hparent.1, shows_dot h (by omega) hparent.2.1,
    shows_dot h (by omega) hparent.2.2]

/-- The constant does not stand in the string when it is not found. -/
theorem not_found (h : Shows b s) (pattern : CStr) (hne : pattern ≠ [])
    (hnone : strstr b (pattern.map CChar.val) 0 (b.length+1) = .ok none) (P R : CStr) :
    s ≠ P++(pattern++R) := by
  intro hs
  have hlt := lt_of_terminator (shows_end h)
  have hpos := List.length_pos_iff.mpr hne
  have hlen := congrArg List.length hs
  simp only [List.length_append] at hlen
  obtain ⟨j, _, hfind⟩ := strstr_finds (shows_end h) (pattern.map CChar.val) (by
    intro x hx
    obtain ⟨y, _, rfl⟩ := List.mem_map.mp hx
    exact y.ne) (b.length+1) (by omega) (Nat.zero_le P.length) (by omega) (shows_chars h pattern hs)
    (fun k _ hk => shows_live h (by omega))
  rw [hnone] at hfind
  cases hfind

/-- Nothing is taken out where the constant does not stand. -/
theorem dropFirst_none (h : Shows b s) (pattern : CStr) (hnot : ∀ P R, s ≠ P++(pattern++R))
    (skip : ℕ) : dropFirst b (pattern.map CChar.val) skip = .ok (b, false) := by
  have hlt := lt_of_terminator (shows_end h)
  obtain ⟨found, hfind, hfound⟩ := strstr_ok (shows_end h) (Nat.zero_le _)
    (pattern.map CChar.val) (by
      intro x hx
      obtain ⟨y, _, rfl⟩ := List.mem_map.mp hx
      exact y.ne) (b.length+1) (by omega)
  rw [dropFirst, hfind, ok_bind]
  cases found with
  | none => rfl
  | some c =>
    obtain ⟨_, hin, hmatch⟩ := hfound c rfl
    rw [List.length_map] at hin
    obtain ⟨R, hR⟩ := found_text h hin hmatch
    refine absurd ?_ (hnot (s.take c) R)
    rw [hR, List.take_append_drop]

theorem settled_dots (h : Shows b s) (hsettled : Settled s) :
    dropFirst b [47, 46, 47] 2 = .ok (b, false) :=
  dropFirst_none h [slash, dot, slash] hsettled.dots 2

theorem settled_slashes (h : Shows b s) (hsettled : Settled s) :
    dropFirst b [47, 47] 1 = .ok (b, false) :=
  dropFirst_none h [slash, slash] hsettled.slashes 1

theorem lastSlash_none_iff {c : ℕ} : lastSlash b c = none ↔ ∀ d < c, b[d]? ≠ some 47 := by
  refine ⟨fun h => ?_, lastSlash_none⟩
  induction c with
  | zero => exact fun d hd => absurd hd (Nat.not_lt_zero d)
  | succ c ih =>
    rw [lastSlash] at h
    split at h
    case isTrue => cases h
    case isFalse hne =>
      intro d hd
      by_cases heq : d = c
      · rwa [heq]
      · exact ih h d (by omega)

theorem slash_not_mem_take (h : Shows b s) {j : ℕ} (hj : j ≤ s.length) :
    slash ∉ s.take j ↔ ∀ d < j, b[d]? ≠ some 47 := by
  constructor
  · intro hnot d hd hslash
    refine hnot (List.mem_take_iff_getElem.mpr ⟨d, by omega, ?_⟩)
    exact shows_slash h (by omega) hslash
  · intro hall hmem
    obtain ⟨d, hd, hget⟩ := List.mem_take_iff_getElem.mp hmem
    refine hall d (by omega) ?_
    rw [shows_char h (by omega), hget]
    rfl

theorem kept_text (h : Shows b s) (hs : s = P++slash::dot::dot::R) (hkept : KeptAt b P.length) :
    (∀ x, R.head? = some x → x = slash) ∧ (slash ∉ P ∨ ∃ Q, P = Q++[slash, dot, dot]) := by
  have hlen := congrArg List.length hs
  simp only [List.length_append, List.length_cons] at hlen
  have htake : s.take P.length = P := by rw [hs, List.take_left]
  have hdrop : s.drop (P.length+3) = R := by
    rw [hs, ← List.drop_drop, List.drop_left]
    rfl
  refine ⟨?_, ?_⟩
  · rw [← hdrop]
    exact drop_head h hkept.closed
  · rcases hkept.parent with hnone | ⟨d, hd, hdouble⟩
    · left
      rw [← htake]
      exact (slash_not_mem_take h (by omega)).mpr (lastSlash_none_iff.mp hnone)
    · right
      obtain ⟨hlt, hslash⟩ := lastSlash_some hd
      obtain ⟨_, hok, hall⟩ := matchesAt_ok (shows_end h) (by omega : d ≤ s.length)
        [47, 46, 46, 47] (by simp)
      rw [hdouble] at hok
      cases hok
      have hchars := hall rfl
      have h1 : b[d+1]? = some 46 := hchars 1 (by decide)
      have h2 : b[d+2]? = some 46 := hchars 2 (by decide)
      have h3 : b[d+3]? = some 47 := hchars 3 (by decide)
      have hparent := shows_parentAt h hs
      -- the slash in front is the one three characters before
      have heq : d+3 = P.length := by
        have hle := lastSlash_between hd (d+3) (by omega)
        have hne : P.length ≠ d+1 ∧ P.length ≠ d+2 := by
          constructor
          · intro heq
            rw [← heq, hparent.1] at h1
            cases h1
          · intro heq
            rw [← heq, hparent.1] at h2
            cases h2
        by_contra hne'
        exact hle (by omega) h3
      have hfront := parentAt_shows h ⟨hslash, h1, h2⟩ (by omega)
      refine ⟨s.take d, ?_⟩
      rw [← htake, ← heq]
      conv_lhs => rw [hfront]
      rw [show d+3 = (s.take d++[slash, dot, dot]).length by
        rw [List.length_append, List.length_take, min_eq_left (by omega)]
        rfl]
      rw [show s.take d++slash::dot::dot::s.drop (s.take d++[slash, dot, dot]).length =
        (s.take d++[slash, dot, dot])++s.drop (s.take d++[slash, dot, dot]).length by simp,
        List.take_left]

theorem text_kept (h : Shows b s) (hsettled : Settled s) {j : ℕ} (hparent : ParentAt b j)
    (hj : j+3 ≤ s.length) : KeptAt b j := by
  have hs := parentAt_shows h hparent hj
  refine ⟨?_, ?_⟩
  · by_cases hend : j+3 = s.length
    · rw [hend, shows_end h]
      exact Or.inr rfl
    · have hget : (s.drop (j+3)).head? = some (s.get ⟨j+3, by omega⟩) := by
        rw [List.head?_drop, List.getElem?_eq_getElem (by omega)]
        rfl
      have hslash := hsettled.closed _ _ hs _ hget
      rw [shows_char h (by omega : j+3 < s.length)]
      exact Or.inl (by rw [← slash_val, ← hslash]; rfl)
  · rcases hsettled.parents _ _ hs with hnone | ⟨Q, hQ⟩
    · exact Or.inl (lastSlash_none ((slash_not_mem_take h (by omega)).mp hnone))
    · have hlen := congrArg List.length hQ
      rw [List.length_take, min_eq_left (by omega), List.length_append] at hlen
      have hd : ParentAt b Q.length := shows_parentAt h (show s = Q++slash::dot::dot::(slash::dot::dot::s.drop (j+3)) by
        conv_lhs => rw [hs, hQ]
        simp)
      have hj' : j = Q.length+3 := hlen
      subst hj'
      exact Or.inr ⟨Q.length, lastSlash_parent hd,
        matchesAt_true (parentAt_chars hd hparent.1)⟩

end Buffers

end ArduinoOS.Kernel
