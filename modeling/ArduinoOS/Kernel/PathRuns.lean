import ArduinoOS.Kernel.PathSettled

/-!
# The runs that normalise a path

A run that comes to an end is a chain of steps to a path that stays as it is.
-/

set_option autoImplicit false

namespace ArduinoOS.Kernel
open ArduinoOS.CBuffer Relation

/-- An absolute path within `n` characters. -/
structure Absolute (b : Buffer) (n : ℕ) : Prop extends PathWithin b n where
  slash : b[0]? = some 47

section Runs

variable {b b' : Buffer} {n c c' d : ℕ}

theorem moveDown_absolute {dst src k : ℕ} (hp : Absolute b n) (hdst : dst < src)
    (hend : src+k ≤ n) (hhead : dst = 0 → b[src]? = some 47)
    (hmove : memmove b dst src (k+1) = .ok b') : Absolute b' n := by
  have hn := lt_of_terminator hp.terminator
  obtain ⟨b₁, hmove₁, _, hin, hout⟩ := memmove_ok (show src+(k+1) ≤ b.length by omega)
    (show dst+(k+1) ≤ b.length by omega)
  obtain ⟨b₂, hmove₂, _, hpath⟩ := moveDown_keeps hp.toPathWithin hdst hend hhead
  rw [hmove] at hmove₁ hmove₂
  cases hmove₁
  cases hmove₂
  refine ⟨hpath, ?_⟩
  by_cases hzero : dst = 0
  · have h := hin 0 (by omega)
    rw [Nat.add_zero, Nat.add_zero, hhead hzero] at h
    rw [← hzero, h]
  · rw [hout 0 (by omega), hp.slash]

theorem dropFirst_absolute (hp : Absolute b n) {pattern : List UInt8} {skip : ℕ}
    (hpattern : ∀ x ∈ pattern, x ≠ 0) (hskip : 0 < skip ∧ skip < pattern.length)
    (hslash : pattern[skip]? = some 47) {r : Buffer × Bool}
    (hrun : dropFirst b pattern skip = .ok r) :
    Absolute r.1 n ∧ (r.2 = false → r.1 = b ∧ strstr b pattern 0 (b.length+1) = .ok none) := by
  have hn := lt_of_terminator hp.terminator
  obtain ⟨found, hfind, hfound⟩ := strstr_ok hp.terminator (Nat.zero_le n) pattern hpattern
    (b.length+1) (by omega)
  rw [dropFirst, hfind, ok_bind] at hrun
  cases found with
  | none =>
    cases hrun
    exact ⟨hp, fun _ => ⟨rfl, hfind⟩⟩
  | some c =>
    obtain ⟨_, hin, hmatch⟩ := hfound c rfl
    obtain ⟨k, hk, hkn, _⟩ := strlen_ok hp.terminator (by omega : c+skip ≤ n)
    have hsrc : b[c+skip]? = some 47 := by rw [hmatch skip hskip.2, hslash]
    obtain ⟨b', hmove, _⟩ := moveDown_keeps hp.toPathWithin (by omega : c < c+skip) hkn
      (fun _ => hsrc)
    dsimp only at hrun
    rw [hk, ok_bind, hmove, ok_bind] at hrun
    cases hrun
    exact ⟨moveDown_absolute hp (by omega) hkn (fun _ => hsrc) hmove, fun h => by cases h⟩

theorem resolves_absolute (hp : Absolute b n) (hin : c'+3 ≤ n) (h : Resolves b c c' d b') :
    Absolute b' n := by
  obtain ⟨hlt, _⟩ := lastSlash_some h.slash
  obtain ⟨k, hk, hmove⟩ := h.moved
  obtain ⟨k', hk', hkn, _⟩ := strlen_ok hp.terminator hin
  rw [hk] at hk'
  cases hk'
  refine moveDown_absolute hp (by split <;> omega) hkn (fun hzero => ?_) hmove
  rcases h.closed with hslash | hend
  · exact hslash
  · rw [if_pos hend] at hzero
    cases hzero

theorem step_absolute {x y : Buffer × ℕ} (h : Step x y) (hp : Absolute x.1 n) (hc : x.2 ≤ n) :
    Absolute y.1 n ∧ y.2 ≤ n := by
  cases h with
  | kept hfound =>
    obtain ⟨_, hin, _⟩ := strstr_parent hp.terminator hc hfound
    exact ⟨hp, by dsimp only; omega⟩
  | resolved h =>
    obtain ⟨_, hin, _⟩ := strstr_parent hp.terminator hc h.found
    exact ⟨resolves_absolute hp hin h, by dsimp only; omega⟩
  | pass _ hdots hslashes =>
    have hp₁ := dropFirst_absolute hp dot_chars
      (show 0 < 2 ∧ 2 < ([47, 46, 47] : List UInt8).length by decide) rfl hdots
    have hp₂ := dropFirst_absolute hp₁.1 slash_chars
      (show 0 < 1 ∧ 1 < ([47, 47] : List UInt8).length by decide) rfl hslashes
    exact ⟨hp₂.1, Nat.zero_le n⟩

theorem steps_absolute {x y : Buffer × ℕ} (h : ReflTransGen Step x y) (hp : Absolute x.1 n)
    (hc : x.2 ≤ n) : Absolute y.1 n ∧ y.2 ≤ n := by
  induction h with
  | refl => exact ⟨hp, hc⟩
  | tail _ hstep ih => exact step_absolute hstep ih.1 ih.2

theorem normaliseParents_hangs (hparent : ParentAt b c)
    (hend : matchesAt b c [47, 46, 46, 0] = .ok false)
    (hinside : matchesAt b c [47, 46, 46, 47] = .ok false) (change : Bool) (steps : ℕ) :
    normaliseParents b c change steps = .error .diverges := by
  have hfind : strstr b [47, 46, 46] c (b.length+1) = .ok (some c) := by
    have hget : get b c = .ok 47 := by rw [CBuffer.get, hparent.1]
    have htrue : matchesAt b c [47, 46, 46] = .ok true := matchesAt_true (by
      intro k hk
      have hcases : k = 0 ∨ k = 1 ∨ k = 2 := by
        rw [show [(47 : UInt8), 46, 46].length = 3 from rfl] at hk
        omega
      rcases hcases with rfl | rfl | rfl
      · exact hparent.1
      · exact hparent.2.1
      · exact hparent.2.2)
    rw [strstr, hget, ok_bind, if_neg (by decide), htrue]
    rfl
  induction steps with
  | zero => rfl
  | succ steps ih =>
    rw [normaliseParents, hfind, ok_bind]
    dsimp only
    rw [hend, ok_bind, hinside, ok_bind, if_pos ⟨rfl, rfl⟩]
    exact ih

/-- The loop over `/..` stops where nothing more is found. -/
theorem parents_steps (hp : Absolute b n) (hc : c ≤ n) {change : Bool} {steps : ℕ}
    {r : Buffer × Bool} (hrun : normaliseParents b c change steps = .ok r) :
    ∃ c₁, ReflTransGen Step (b, c) (r.1, c₁) ∧
      strstr r.1 [47, 46, 46] c₁ (r.1.length+1) = .ok none ∧ (change = true → r.2 = true) ∧
      (r.2 = false → r.1 = b ∧ ∀ j, c ≤ j → (∀ k ≤ j, b[k]? ≠ some 0) → ParentAt b j →
        KeptAt b j) := by
  induction steps generalizing b c change with
  | zero => cases hrun
  | succ steps ih =>
    have hn := lt_of_terminator hp.terminator
    obtain ⟨found, hfind, _⟩ := strstr_ok hp.terminator hc [47, 46, 46] (by simp)
      (b.length+1) (by omega)
    have hbefore : ∀ j, c ≤ j → (∀ k ≤ j, b[k]? ≠ some 0) → ParentAt b j →
        ∃ c' ≤ j, found = some c' := by
      intro j hcj hlive hparent
      have hjn : j ≤ n := by
        by_contra hout
        exact hlive n (by omega) hp.terminator
      obtain ⟨c', hle, hfind'⟩ := strstr_finds hp.terminator [47, 46, 46] (by simp)
        (b.length+1) (by omega) hcj hjn (by
          intro k hk
          have hcases : k = 0 ∨ k = 1 ∨ k = 2 := by
            rw [show [(47 : UInt8), 46, 46].length = 3 from rfl] at hk
            omega
          rcases hcases with rfl | rfl | rfl
          · exact hparent.1
          · exact hparent.2.1
          · exact hparent.2.2) (fun k _ hk => hlive k hk)
      rw [hfind] at hfind'
      exact ⟨c', hle, Except.ok.inj hfind'⟩
    rw [normaliseParents, hfind, ok_bind] at hrun
    cases found with
    | none =>
      cases hrun
      refine ⟨c, .refl, hfind, fun h => h, fun _ => ⟨rfl, fun j hcj hlive hparent => ?_⟩⟩
      obtain ⟨_, _, hsome⟩ := hbefore j hcj hlive hparent
      cases hsome
    | some c' =>
      obtain ⟨hle, hin, hparent⟩ := strstr_parent hp.terminator hc hfind
      obtain ⟨atEnd, hend, hatEnd⟩ := matchesAt_ok hp.terminator (by omega : c' ≤ n)
        [47, 46, 46, 0] (by simp)
      obtain ⟨inside, hinside, hslash⟩ := matchesAt_ok hp.terminator (by omega : c' ≤ n)
        [47, 46, 46, 47] (by simp)
      dsimp only at hrun
      rw [hend, ok_bind, hinside, ok_bind] at hrun
      by_cases hopen : atEnd = false ∧ inside = false
      · obtain ⟨rfl, rfl⟩ := hopen
        rw [if_pos ⟨rfl, rfl⟩, normaliseParents_hangs hparent hend hinside] at hrun
        cases hrun
      · rw [if_neg hopen] at hrun
        have hclosed : b[c'+3]? = some 47 ∨ b[c'+3]? = some 0 := by
          cases inside with
          | true => exact Or.inl (hslash rfl 3 (by decide))
          | false =>
            cases atEnd with
            | true => exact Or.inr (hatEnd rfl 3 (by decide))
            | false => exact absurd ⟨rfl, rfl⟩ hopen
        have hstop : atEnd = true ↔ b[c'+3]? = some 0 := by
          refine ⟨fun h => hatEnd h 3 (by decide), fun hzero => ?_⟩
          rw [matchesAt_true (parentAt_chars hparent hzero)] at hend
          exact (Except.ok.inj hend).symm
        -- the rest of the loop after a `..` that stays
        have hkeep : ∀ hkept : KeptAt b c', normaliseParents b (c'+1) change steps = .ok r →
            ∃ c₁, ReflTransGen Step (b, c) (r.1, c₁) ∧
              strstr r.1 [47, 46, 46] c₁ (r.1.length+1) = .ok none ∧ (change = true → r.2 = true) ∧
              (r.2 = false → r.1 = b ∧ ∀ j, c ≤ j → (∀ k ≤ j, b[k]? ≠ some 0) → ParentAt b j →
                KeptAt b j) := by
          intro hkept hrest
          obtain ⟨c₁, hsteps, hnone, hchange, hsame⟩ := ih hp (by omega) hrest
          refine ⟨c₁, .head (.kept hfind hkept) hsteps, hnone, hchange, fun hfalse => ?_⟩
          obtain ⟨heq, hall⟩ := hsame hfalse
          refine ⟨heq, fun j hcj hlive hj => ?_⟩
          obtain ⟨c'', hle', hsome⟩ := hbefore j hcj hlive hj
          cases hsome
          by_cases hj' : j = c'
          · rwa [hj']
          · exact hall j (by omega) hlive hj
        cases hd : lastSlash b c' with
        | none =>
          rw [hd] at hrun
          exact hkeep ⟨hclosed, Or.inl hd⟩ hrun
        | some d =>
          rw [hd] at hrun
          obtain ⟨hlt, _⟩ := lastSlash_some hd
          obtain ⟨double, hdouble, _⟩ := matchesAt_ok hp.terminator (by omega : d ≤ n)
            [47, 46, 46, 47] (by simp)
          dsimp only at hrun
          rw [hdouble, ok_bind] at hrun
          cases double with
          | true => exact hkeep ⟨hclosed, Or.inr ⟨d, hd, hdouble⟩⟩ hrun
          | false =>
            obtain ⟨k, hk, hkn, _⟩ := strlen_ok hp.terminator hin
            rw [if_neg Bool.false_ne_true, hk, ok_bind] at hrun
            cases hmove : memmove b (if atEnd = true then d+1 else d) (c'+3) (k+1) with
            | error t =>
              rw [hmove] at hrun
              cases hrun
            | ok b' =>
              rw [hmove, ok_bind] at hrun
              have hres : Resolves b c c' d b' := by
                refine ⟨hfind, hclosed, hd, hdouble, k, hk, ?_⟩
                rw [← hmove]
                congr 1
                exact if_congr hstop.symm rfl rfl
              obtain ⟨c₁, hsteps, hnone, hchange, _⟩ := ih
                (resolves_absolute hp hin hres) (by omega) hrun
              refine ⟨c₁, .head (.resolved hres) hsteps, hnone, fun _ => hchange rfl,
                fun hfalse => ?_⟩
              rw [hchange rfl] at hfalse
              cases hfalse

/-- The loop ends at the start of a pass that changes nothing. -/
theorem loop_steps (hp : Absolute b n) {steps left : ℕ}
    (hrun : normaliseLoop steps b left = .ok b') :
    ReflTransGen Step (b, 0) (b', 0) ∧ ∀ s, Shows b' s → Settled s := by
  induction left generalizing b with
  | zero => cases hrun
  | succ left ih =>
    rw [normaliseLoop] at hrun
    cases hparents : normaliseParents b 0 false steps with
    | error t =>
      rw [hparents] at hrun
      cases hrun
    | ok parents =>
      obtain ⟨c₁, hsteps, hnone, _, hsame₁⟩ := parents_steps hp (Nat.zero_le n) hparents
      have hp₁ := (steps_absolute hsteps hp (Nat.zero_le n)).1
      rw [hparents, ok_bind] at hrun
      cases hdots : dropFirst parents.1 [47, 46, 47] 2 with
      | error t =>
        rw [hdots] at hrun
        cases hrun
      | ok dots =>
        obtain ⟨hp₂, hsame₂⟩ := dropFirst_absolute hp₁ dot_chars
          (show 0 < 2 ∧ 2 < ([47, 46, 47] : List UInt8).length by decide) rfl hdots
        rw [hdots, ok_bind] at hrun
        cases hslashes : dropFirst dots.1 [47, 47] 1 with
        | error t =>
          rw [hslashes] at hrun
          cases hrun
        | ok slashes =>
          obtain ⟨hp₃, hsame₃⟩ := dropFirst_absolute hp₂ slash_chars
            (show 0 < 1 ∧ 1 < ([47, 47] : List UInt8).length by decide) rfl hslashes
          rw [hslashes, ok_bind] at hrun
          have hpass : ReflTransGen Step (b, 0) (slashes.1, 0) :=
            hsteps.tail (.pass hnone hdots hslashes)
          split at hrun
          case isTrue =>
            obtain ⟨hrest, hsettled⟩ := ih hp₃ hrun
            exact ⟨hpass.trans hrest, hsettled⟩
          case isFalse hchange =>
            cases hrun
            rw [Bool.or_eq_true, Bool.or_eq_true, not_or, not_or, Bool.not_eq_true,
              Bool.not_eq_true, Bool.not_eq_true] at hchange
            obtain ⟨⟨h₁, h₂⟩, h₃⟩ := hchange
            obtain ⟨heq₁, hkept⟩ := hsame₁ h₁
            obtain ⟨heq₂, hnodot⟩ := hsame₂ h₂
            obtain ⟨heq₃, hnoslash⟩ := hsame₃ h₃
            refine ⟨hpass, fun s hs => ?_⟩
            rw [heq₁] at heq₂ hnodot
            rw [heq₂] at heq₃ hnoslash
            rw [heq₃] at hs
            have htext : ∀ P R, s = P++slash::dot::dot::R → KeptAt b P.length := by
              intro P R hPR
              have hlen := congrArg List.length hPR
              simp only [List.length_append, List.length_cons] at hlen
              exact hkept P.length (Nat.zero_le _) ((shows_inside hs).mpr (by omega))
                (shows_parentAt hs hPR)
            exact ⟨fun P R hPR => (kept_text hs hPR (htext P R hPR)).1,
              fun P R hPR => (kept_text hs hPR (htext P R hPR)).2,
              not_found hs [slash, dot, slash] (by simp) hnodot,
              not_found hs [slash, slash] (by simp) hnoslash⟩

/-- On a path that stays as it is every step leaves it. -/
theorem settled_step {s : CStr} {x y : Buffer × ℕ} (h : Step x y) (hs : Shows x.1 s)
    (hsettled : Settled s) (hc : x.2 ≤ s.length) : y.1 = x.1 ∧ y.2 ≤ s.length := by
  cases h with
  | kept hfound =>
    obtain ⟨_, hin, _⟩ := strstr_parent (shows_end hs) hc hfound
    exact ⟨rfl, by dsimp only; omega⟩
  | resolved h =>
    obtain ⟨_, hin, hparent⟩ := strstr_parent (shows_end hs) hc h.found
    exact (kept_not_resolved (text_kept hs hsettled hparent hin) h).elim
  | pass _ hdots hslashes =>
    rw [settled_dots hs hsettled] at hdots
    cases hdots
    rw [settled_slashes hs hsettled] at hslashes
    cases hslashes
    exact ⟨rfl, Nat.zero_le _⟩

theorem settled_steps {s : CStr} {x y : Buffer × ℕ} (h : ReflTransGen Step x y)
    (hs : Shows x.1 s) (hsettled : Settled s) (hc : x.2 ≤ s.length) :
    y.1 = x.1 ∧ y.2 ≤ s.length := by
  induction h with
  | refl => exact ⟨rfl, hc⟩
  | tail _ hstep ih =>
    obtain ⟨heq, hle⟩ := ih
    obtain ⟨heq', hle'⟩ := settled_step hstep (heq ▸ hs) hsettled hle
    exact ⟨heq'.trans heq, hle'⟩

theorem settled_parents {s : CStr} (hs : Shows b s) (hsettled : Settled s) (hc : c ≤ s.length)
    {steps : ℕ} (hsteps : s.length < c+steps) (change : Bool) :
    normaliseParents b c change steps = .ok (b, change) := by
  induction steps generalizing c with
  | zero => omega
  | succ steps ih =>
    have hlt := lt_of_terminator (shows_end hs)
    obtain ⟨found, hfind, _⟩ := strstr_ok (shows_end hs) hc [47, 46, 46] (by simp)
      (b.length+1) (by omega)
    rw [normaliseParents, hfind, ok_bind]
    cases found with
    | none => rfl
    | some c' =>
      obtain ⟨hle, hin, hparent⟩ := strstr_parent (shows_end hs) hc hfind
      have hkept := text_kept hs hsettled hparent hin
      obtain ⟨atEnd, hend, _⟩ := matchesAt_ok (shows_end hs) (by omega : c' ≤ s.length)
        [47, 46, 46, 0] (by simp)
      obtain ⟨inside, hinside, _⟩ := matchesAt_ok (shows_end hs) (by omega : c' ≤ s.length)
        [47, 46, 46, 47] (by simp)
      dsimp only
      rw [hend, ok_bind, hinside, ok_bind]
      have hclosed : ¬ (atEnd = false ∧ inside = false) := by
        rintro ⟨rfl, rfl⟩
        rcases hkept.closed with hslash | hzero
        · rw [matchesAt_true (parentAt_chars hparent hslash)] at hinside
          cases hinside
        · rw [matchesAt_true (parentAt_chars hparent hzero)] at hend
          cases hend
      rw [if_neg hclosed]
      rcases hkept.parent with hnone | ⟨d, hd, hdouble⟩
      · rw [hnone]
        exact ih (by omega) (by omega)
      · rw [hd]
        dsimp only
        rw [hdouble, ok_bind, if_pos rfl]
        exact ih (by omega) (by omega)

/-- A path that stays as it is comes out of the loop. -/
theorem settled_loop {s : CStr} (hs : Shows b s) (hsettled : Settled s) {steps left : ℕ}
    (hsteps : s.length < steps) : normaliseLoop steps b (left+1) = .ok b := by
  rw [normaliseLoop, settled_parents hs hsettled (Nat.zero_le _) (by omega), ok_bind,
    settled_dots hs hsettled, ok_bind, settled_slashes hs hsettled, ok_bind]
  rfl

/-- The end of the path is trimmed in its buffer. -/
theorem shows_trim {s : CStr} (hs : Shows b s) (hne : s ≠ []) :
    ∃ b', trimSlash b = .ok b' ∧ b'.length = b.length ∧ Shows b' (trim s) := by
  have hpos := List.length_pos_iff.mpr hne
  have hlt := lt_of_terminator (shows_end hs)
  obtain ⟨root, hroot, hall⟩ := matchesAt_ok (shows_end hs) (Nat.zero_le _) [47, 0] (by simp)
  rw [trimSlash, hroot, ok_bind]
  have hrootPath : root = true ↔ s = rootPath := by
    constructor
    · rintro rfl
      refine shows_unique hs (shows_of_chars (fun k hk => ?_) (hall rfl 1 (by decide)))
      have hk0 : k = 0 := by
        rw [show rootPath.length = 1 from rfl] at hk
        omega
      subst hk0
      exact hall rfl 0 (by decide)
    · rintro rfl
      have htrue : matchesAt b 0 [47, 0] = .ok true := matchesAt_true (by
        intro k hk
        have hcases : k = 0 ∨ k = 1 := by
          rw [show [(47 : UInt8), 0].length = 2 from rfl] at hk
          omega
        rcases hcases with rfl | rfl
        · exact shows_char hs (k := 0) (by decide)
        · exact shows_end hs)
      rw [htrue] at hroot
      exact (Except.ok.inj hroot).symm
  cases root with
  | true =>
    rw [if_pos rfl, trim, if_neg (fun h => h.1 (hrootPath.mp rfl))]
    exact ⟨b, rfl, rfl, hs⟩
  | false =>
    have hnroot : s ≠ rootPath := fun h => by cases hrootPath.mpr h
    have hlen : strlen b 0 = .ok s.length := shows_strlen hs (Nat.zero_le _)
    obtain ⟨last, hget, hlast⟩ := get_ok (by omega : s.length-1 < b.length)
    rw [if_neg Bool.false_ne_true, hlen, ok_bind, if_neg (by omega), hget, ok_bind]
    have hchar := shows_char hs (by omega : s.length-1 < s.length)
    by_cases h47 : last = 47
    · rw [h47] at hlast
      have hslash : s.getLast? = some slash := by
        rw [List.getLast?_eq_getElem?, List.getElem?_eq_getElem (by omega),
          shows_slash hs (by omega) hlast]
      rw [if_pos h47, put_ok (by omega), trim, if_pos ⟨hnroot, hslash⟩]
      refine ⟨_, rfl, List.length_set, shows_of_chars (fun k hk => ?_) ?_⟩
      · rw [List.length_dropLast] at hk
        rw [List.getElem?_set_ne (by omega), shows_char hs (by omega), List.getElem_dropLast]
      · rw [List.length_dropLast, List.getElem?_set_self (by omega)]
    · rw [if_neg h47, trim, if_neg]
      · exact ⟨b, rfl, rfl, hs⟩
      · rintro ⟨_, hslash⟩
        rw [List.getLast?_eq_getElem?, List.getElem?_eq_getElem (by omega)] at hslash
        rw [hlast] at hchar
        exact h47 (by rw [Option.some.inj hchar, Option.some.inj hslash]; rfl)

/-- A path that stays as it is, and its trailing slash is gone, is left. -/
theorem settled_fixed {s : CStr} (hsettled : Settled s) (hne : s ≠ []) (htrim : trim s = s)
    {steps : ℕ} (hsteps : s.length < steps) : kernelFsPathNormalise steps s.bytes = .ok s.bytes := by
  obtain ⟨b', hrun, hlen, hs'⟩ := shows_trim (shows_bytes s) hne
  obtain ⟨left, rfl⟩ : ∃ left, steps = left+1 := ⟨steps-1, by omega⟩
  rw [kernelFsPathNormalise, settled_loop (shows_bytes s) hsettled hsteps, ok_bind, hrun]
  rw [htrim] at hs'
  rw [List.IsPrefix.eq_of_length hs' hlen.symm]

/-- A path that is settled is not changed, whatever the fuel. -/
theorem settled_shown {s : CStr} {steps : ℕ} (hs : Shows b s)
    (hsettled : Settled s) (hslash : s.head? = some slash) (htrim : trim s = s)
    (hrun : kernelFsPathNormalise steps b = .ok b') : Shows b' s := by
  obtain ⟨rest, rfl⟩ : ∃ rest, s = slash::rest := List.head?_eq_some_iff.mp hslash
  have hhead : b[0]? = some 47 := shows_char hs (k := 0) (Nat.succ_pos _)
  have habsolute : Absolute b (slash::rest).length := by
    refine ⟨⟨shows_end hs, ?_⟩, hhead⟩
    rw [hhead]
    decide
  rw [kernelFsPathNormalise] at hrun
  cases hloop : normaliseLoop steps b steps with
  | error t =>
    rw [hloop] at hrun
    cases hrun
  | ok b₁ =>
    have hsame : b₁ = b := (settled_steps (loop_steps habsolute hloop).1 hs hsettled (Nat.zero_le _)).1
    obtain ⟨b₂, htrimmed, -, hshown⟩ := shows_trim hs (List.cons_ne_nil _ _)
    rw [hloop, ok_bind, hsame, htrimmed] at hrun
    cases hrun
    rw [htrim] at hshown
    exact hshown

end Runs

end ArduinoOS.Kernel
