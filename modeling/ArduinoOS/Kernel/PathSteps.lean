import ArduinoOS.Kernel.NormaliseEnds
import ArduinoOS.Kernel.PathNames
import Mathlib.Logic.Relation

/-!
# The steps of normalising a path

The string that a buffer shows ends at the first terminator. A step that takes
out text shows the names without it, as long as everything that it looks at
stands in front of the terminator.
-/

set_option autoImplicit false

namespace ArduinoOS.Kernel
open ArduinoOS.CBuffer

/-- The string at the start of the buffer. -/
def Shows (b : Buffer) (s : CStr) : Prop := s.bytes <+: b

def dot : CChar := CChar.ofChar '.'

section Shown

variable {b : Buffer} {s : CStr}

theorem shows_bytes (s : CStr) : Shows s.bytes s := List.prefix_rfl

theorem shows_char (h : Shows b s) {k : ℕ} (hk : k < s.length) : b[k]? = some s[k].val := by
  have hk' : k < s.bytes.length := by
    rw [CStr.bytes_length]
    omega
  rw [List.prefix_iff_getElem?.mp h k hk']
  simp [CStr.bytes, hk]

theorem shows_end (h : Shows b s) : b[s.length]? = some 0 := by
  have hk : s.length < s.bytes.length := by
    rw [CStr.bytes_length]
    omega
  rw [List.prefix_iff_getElem?.mp h s.length hk]
  simp [CStr.bytes]

theorem shows_of_chars (h : ∀ k (hk : k < s.length), b[k]? = some s[k].val)
    (hend : b[s.length]? = some 0) : Shows b s := by
  refine List.prefix_iff_getElem?.mpr (fun k hk => ?_)
  rw [CStr.bytes_length] at hk
  by_cases hlt : k < s.length
  · rw [h k hlt]
    simp [CStr.bytes, hlt]
  · have heq : k = s.length := by omega
    subst heq
    rw [hend]
    simp [CStr.bytes]

theorem shows_live (h : Shows b s) {k : ℕ} (hk : k < s.length) : b[k]? ≠ some 0 := by
  rw [shows_char h hk]
  exact fun hzero => s[k].ne (Option.some.inj hzero)

/-- A place is in front of the terminator when no terminator is up to it. -/
theorem shows_inside (h : Shows b s) {k : ℕ} : (∀ j ≤ k, b[j]? ≠ some 0) ↔ k < s.length := by
  refine ⟨fun hlive => ?_, fun hk j hj => shows_live h (by omega)⟩
  by_contra hout
  exact hlive s.length (by omega) (shows_end h)

theorem shows_unique {t : CStr} (hs : Shows b s) (ht : Shows b t) : s = t := by
  rcases List.prefix_or_prefix_of_prefix hs ht with h | h
  · exact CStr.bytes_prefix s t h
  · exact (CStr.bytes_prefix t s h).symm

theorem exists_shown {n : ℕ} (hn : b[n]? = some 0) : ∃ s, Shows b s ∧ s.length ≤ n := by
  induction b generalizing n with
  | nil => cases hn
  | cons c rest ih =>
    by_cases hc : c = 0
    · exact ⟨[], by rw [hc]; exact ⟨rest, rfl⟩, Nat.zero_le n⟩
    · cases n with
      | zero => exact absurd (Option.some.inj hn) hc
      | succ n =>
        obtain ⟨s, hs, hlen⟩ := ih (n := n) (by simpa using hn)
        refine ⟨⟨c, hc⟩::s, ?_, by simpa using hlen⟩
        rw [Shows, CStr.bytes_cons]
        exact List.cons_prefix_cons.mpr ⟨rfl, hs⟩

theorem slash_val : slash.val = 47 := rfl

theorem dot_val : dot.val = 46 := rfl

theorem shows_slash (h : Shows b s) {k : ℕ} (hk : k < s.length) (hb : b[k]? = some 47) :
    s[k] = slash := by
  rw [shows_char h hk] at hb
  exact CStr.val_injective (Option.some.inj hb)

theorem shows_dot (h : Shows b s) {k : ℕ} (hk : k < s.length) (hb : b[k]? = some 46) :
    s[k] = dot := by
  rw [shows_char h hk] at hb
  exact CStr.val_injective (Option.some.inj hb)

/-- Text moved down takes out what was in between. -/
theorem shows_moved (h : Shows b s) {dst src : ℕ} (hle : dst ≤ src) (hsrc : src ≤ s.length) :
    ∃ b', memmove b dst src (s.length-src+1) = .ok b' ∧ Shows b' (s.take dst++s.drop src) := by
  have hn := lt_of_terminator (shows_end h)
  obtain ⟨b', hmove, _, hin, hout⟩ := memmove_ok (show src+(s.length-src+1) ≤ b.length by omega)
    (show dst+(s.length-src+1) ≤ b.length by omega)
  have hlen : (s.take dst).length = dst := by
    rw [List.length_take]
    omega
  refine ⟨b', hmove, shows_of_chars (fun k hk => ?_) ?_⟩
  · rw [List.length_append, hlen, List.length_drop] at hk
    by_cases hlt : k < dst
    · rw [hout k (Or.inl hlt), List.getElem_append_left (by omega), List.getElem_take]
      exact shows_char h (by omega)
    · have hmoved := hin (k-dst) (by omega)
      rw [show dst+(k-dst) = k by omega] at hmoved
      rw [hmoved, List.getElem_append_right (by omega), List.getElem_drop]
      simp only [hlen]
      exact shows_char h (by omega)
  · have hmoved := hin (s.length-src) (by omega)
    rw [show src+(s.length-src) = s.length by omega, shows_end h] at hmoved
    rw [List.length_append, hlen, List.length_drop]
    exact hmoved

theorem shows_strlen (h : Shows b s) {i : ℕ} (hi : i ≤ s.length) :
    strlen b i = .ok (s.length-i) := by
  refine strlen_eq ?_ (fun j hj => ?_)
  · rw [show i+(s.length-i) = s.length by omega]
    exact shows_end h
  · exact shows_live h (by omega)

end Shown

/-! ### One step -/

/-- The loop looks from `c` on and takes out the `/..` at `c'` with the name
behind the slash at `d`. -/
structure Resolves (b : Buffer) (c c' d : ℕ) (b' : Buffer) : Prop where
  found : strstr b [47, 46, 46] c (b.length+1) = .ok (some c')
  closed : b[c'+3]? = some 47 ∨ b[c'+3]? = some 0
  slash : lastSlash b c' = some d
  single : matchesAt b d [47, 46, 46, 47] = .ok false
  moved : ∃ k, strlen b (c'+3) = .ok k ∧
    memmove b (if b[c'+3]? = some 0 then d+1 else d) (c'+3) (k+1) = .ok b'

/-- The `/..` at `c` stays. -/
structure KeptAt (b : Buffer) (c : ℕ) : Prop where
  closed : b[c+3]? = some 47 ∨ b[c+3]? = some 0
  parent : lastSlash b c = none ∨ ∃ d, lastSlash b c = some d ∧
    matchesAt b d [47, 46, 46, 47] = .ok true

/-- From one place of the loops to the next. -/
inductive Step : Buffer × ℕ → Buffer × ℕ → Prop
  | kept {b : Buffer} {c c' : ℕ} (hfound : strstr b [47, 46, 46] c (b.length+1) = .ok (some c'))
      (hkept : KeptAt b c') : Step (b, c) (b, c'+1)
  | resolved {b b' : Buffer} {c c' d : ℕ} (h : Resolves b c c' d b') : Step (b, c) (b', c'+1)
  | pass {b : Buffer} {dots slashes : Buffer × Bool} {c : ℕ}
      (hfound : strstr b [47, 46, 46] c (b.length+1) = .ok none)
      (hdots : dropFirst b [47, 46, 47] 2 = .ok dots)
      (hslashes : dropFirst dots.1 [47, 47] 1 = .ok slashes) : Step (b, c) (slashes.1, 0)

theorem kept_not_resolved {b b' : Buffer} {c c' d : ℕ} (hkept : KeptAt b c')
    (h : Resolves b c c' d b') : False := by
  rcases hkept.parent with hnone | ⟨d', hsome, hdouble⟩
  · rw [h.slash] at hnone
    cases hnone
  · rw [h.slash] at hsome
    cases hsome
    rw [h.single] at hdouble
    cases hdouble

theorem step_unique : Relator.RightUnique Step := by
  intro x y z hy hz
  cases hy with
  | kept hfound hkept =>
    cases hz with
    | kept hfound' =>
      rw [hfound] at hfound'
      cases hfound'
      rfl
    | resolved h =>
      have hfound' := h.found
      rw [hfound] at hfound'
      cases hfound'
      exact (kept_not_resolved hkept h).elim
    | pass hfound' =>
      rw [hfound] at hfound'
      cases hfound'
  | resolved h =>
    have hfound := h.found
    cases hz with
    | kept hfound' hkept =>
      rw [hfound] at hfound'
      cases hfound'
      exact (kept_not_resolved hkept h).elim
    | resolved h' =>
      have hfound' := h'.found
      have hslash' := h'.slash
      obtain ⟨k, hk, hmove⟩ := h.moved
      obtain ⟨k', hk', hmove'⟩ := h'.moved
      rw [hfound] at hfound'
      cases hfound'
      rw [h.slash] at hslash'
      cases hslash'
      rw [hk] at hk'
      cases hk'
      rw [hmove] at hmove'
      cases hmove'
      rfl
    | pass hfound' =>
      rw [hfound] at hfound'
      cases hfound'
  | pass hfound hdots hslashes =>
    cases hz with
    | kept hfound' =>
      rw [hfound] at hfound'
      cases hfound'
    | resolved h =>
      have hfound' := h.found
      rw [hfound] at hfound'
      cases hfound'
    | pass _ hdots' hslashes' =>
      rw [hdots] at hdots'
      cases hdots'
      rw [hslashes] at hslashes'
      cases hslashes'
      rfl

/-! ### What a step takes out -/

theorem lastSlash_between {b : Buffer} {c d : ℕ} (h : lastSlash b c = some d) :
    ∀ k, d < k → k < c → b[k]? ≠ some 47 := by
  induction c with
  | zero => cases h
  | succ c ih =>
    intro k hdk hkc
    rw [lastSlash] at h
    split at h
    case isTrue =>
      cases h
      omega
    case isFalse hne =>
      by_cases heq : k = c
      · rwa [heq]
      · exact ih h k hdk (by omega)

theorem strstr_parent {b : Buffer} {n c c' : ℕ} (hn : b[n]? = some 0) (hc : c ≤ n)
    (h : strstr b [47, 46, 46] c (b.length+1) = .ok (some c')) :
    c ≤ c' ∧ c'+3 ≤ n ∧ ParentAt b c' := by
  obtain ⟨r, hr, hall⟩ := strstr_ok hn hc [47, 46, 46] (by simp) (b.length+1)
    (by have := lt_of_terminator hn; omega)
  rw [h] at hr
  cases hr
  obtain ⟨hle, hin, hmatch⟩ := hall c' rfl
  exact ⟨hle, hin, hmatch 0 (by decide), hmatch 1 (by decide), hmatch 2 (by decide)⟩

section Taken

variable {b b' : Buffer} {s : CStr} {c c' d : ℕ}

/-- The head of what stands behind a slash. -/
theorem drop_head (h : Shows b s) {k : ℕ} (hk : b[k]? = some 47 ∨ b[k]? = some 0) :
    ∀ x, (s.drop k).head? = some x → x = slash := by
  intro x hx
  rw [List.head?_drop] at hx
  obtain ⟨hlt, hget⟩ := List.getElem?_eq_some_iff.mp hx
  rcases hk with hk | hk
  · rw [← hget, shows_slash h hlt hk]
  · exact absurd hk (shows_live h hlt)

theorem take_head {s : CStr} (h : s.head? = some slash) (k : ℕ) :
    ∀ x, (s.take k).head? = some x → x = slash := by
  intro x hx
  cases s with
  | nil => cases h
  | cons y rest =>
    cases k with
    | zero => cases hx
    | succ k =>
      cases h
      exact (Option.some.inj hx).symm

/-- A `/..` within the text is taken out with the name in front of it. -/
theorem resolves_text (h : Shows b s) (hhead : s.head? = some slash)
    (hres : Resolves b c c' d b') (hparent : ParentAt b c') (hin : c'+3 ≤ s.length) :
    ∃ A B, Named (A++(s.take c').drop (d+1)::parentName::B) ∧
      s = text (A++(s.take c').drop (d+1)::parentName::B) ∧
      (s.take c').drop (d+1) ≠ parentName ∧
      Shows b' (text (A++if B = [] then [[]] else B)) := by
  obtain ⟨hdc, hd⟩ := lastSlash_some hres.slash
  obtain ⟨A, hA, htextA⟩ := exists_names (take_head hhead d)
  obtain ⟨B, hB, htextB⟩ := exists_names (drop_head h hres.closed)
  have hlen : (s.take c').length = c' := by
    rw [List.length_take]
    omega
  -- the text from the slash on
  have hfrom : s.drop d = slash::(s.take c').drop (d+1)++s.drop c' := by
    rw [List.drop_eq_getElem_cons (by omega : d < s.length), shows_slash h (by omega) hd,
      List.cons_append]
    congr 1
    have hsplit := List.take_append_drop c' s
    conv_lhs => rw [← hsplit]
    rw [List.drop_append_of_le_length (by omega)]
  have hparents : s.drop c' = slash::dot::dot::s.drop (c'+3) := by
    rw [List.drop_eq_getElem_cons (by omega : c' < s.length),
      List.drop_eq_getElem_cons (by omega : c'+1 < s.length),
      List.drop_eq_getElem_cons (by omega : c'+1+1 < s.length),
      shows_slash h (by omega) hparent.1, shows_dot h (by omega) hparent.2.1,
      shows_dot h (by omega) hparent.2.2]
  have hname : slash ∉ (s.take c').drop (d+1) := by
    intro hmem
    obtain ⟨k, hk, hget⟩ := List.getElem_of_mem hmem
    rw [List.length_drop, hlen] at hk
    rw [List.getElem_drop, List.getElem_take] at hget
    have hchar := shows_char h (by omega : d+1+k < s.length)
    rw [hget, slash_val] at hchar
    exact lastSlash_between hres.slash (d+1+k) (by omega) (by omega) hchar
  have hdots : slash ∉ parentName := by decide
  have hs : s = text (A++(s.take c').drop (d+1)::parentName::B) := by
    rw [text_append, htextA, text_cons, text_cons, htextB]
    conv_lhs => rw [← List.take_append_drop d s, hfrom, hparents]
    rfl
  refine ⟨A, B, named_append.mpr ⟨hA, named_cons.mpr ⟨hname, named_cons.mpr ⟨hdots, hB⟩⟩⟩,
    hs, fun hdouble => ?_, ?_⟩
  · -- the two dots in front would have been seen
    have hc : c' = d+3 := by
      have := congrArg List.length hdouble
      rw [List.length_drop, hlen, show parentName.length = 2 from rfl] at this
      omega
    subst hc
    have hchars : ∀ k (hk : k < 2), b[d+1+k]? = some 46 := by
      intro k hk
      have hget : ((s.take (d+3)).drop (d+1))[k]? = parentName[k]? := by rw [hdouble]
      rw [List.getElem?_drop, List.getElem?_take, if_pos (by omega)] at hget
      rw [shows_char h (by omega : d+1+k < s.length), ← dot_val]
      rw [List.getElem?_eq_getElem (by omega)] at hget
      have hdot : parentName[k]? = some dot := by
        have hcases : k = 0 ∨ k = 1 := by omega
        rcases hcases with rfl | rfl
        · rfl
        · rfl
      rw [hdot] at hget
      rw [Option.some.inj hget]
    have htrue := matchesAt_true (parentAt_chars ⟨hd, hchars 0 (by omega), hchars 1 (by omega)⟩
      hparent.1)
    have hsingle := hres.single
    rw [htrue] at hsingle
    cases hsingle
  · obtain ⟨k, hk, hmove⟩ := hres.moved
    rw [shows_strlen h hin] at hk
    cases hk
    by_cases hend : b[c'+3]? = some 0
    · have hlast : c'+3 = s.length := by
        by_contra hne
        exact shows_live h (by omega) hend
      have hnil : B = [] := by
        rw [hlast, List.drop_length] at htextB
        exact text_eq_nil.mp htextB
      rw [if_pos hend] at hmove
      obtain ⟨b'', hmove', hshows⟩ := shows_moved h (by omega : d+1 ≤ c'+3) hin
      rw [hmove] at hmove'
      cases hmove'
      rw [if_pos hnil, text_append, htextA]
      rw [hlast, List.drop_length, List.append_nil, List.take_succ_eq_append_getElem (by omega),
        shows_slash h (by omega) hd] at hshows
      exact hshows
    · have hne : B ≠ [] := by
        rintro rfl
        rw [text_nil, eq_comm, List.drop_eq_nil_iff] at htextB
        rw [show c'+3 = s.length by omega] at hend
        exact hend (shows_end h)
      rw [if_neg hend] at hmove
      obtain ⟨b'', hmove', hshows⟩ := shows_moved h (by omega : d ≤ c'+3) hin
      rw [hmove] at hmove'
      cases hmove'
      rw [if_neg hne, text_append, htextA, htextB]
      exact hshows

/-- Behind the terminator nothing changes in front of it. -/
theorem resolves_behind (h : Shows b s) {n : ℕ} (hn : b[n]? = some 0) (hin : c'+3 ≤ n)
    (hres : Resolves b c c' d b') (hd : s.length ≤ d) : Shows b' s := by
  obtain ⟨k, hk, hmove⟩ := hres.moved
  obtain ⟨hdc, _⟩ := lastSlash_some hres.slash
  obtain ⟨k', hk', hkn, _⟩ := strlen_ok hn hin
  rw [hk] at hk'
  cases hk'
  have hlt := lt_of_terminator hn
  have hdst : (if b[c'+3]? = some 0 then d+1 else d) ≤ c'+3 := by
    split <;> omega
  obtain ⟨b'', hmove', _, _, hout⟩ := memmove_ok (show c'+3+(k+1) ≤ b.length by omega)
    (show (if b[c'+3]? = some 0 then d+1 else d)+(k+1) ≤ b.length by omega)
  rw [hmove] at hmove'
  cases hmove'
  have hslash := (lastSlash_some hres.slash).2
  -- the terminator is no slash
  have hne : d ≠ s.length := by
    rintro rfl
    rw [shows_end h] at hslash
    cases hslash
  have hkeep : ∀ j ≤ s.length, b'[j]? = b[j]? := by
    intro j hj
    exact hout j (Or.inl (by split <;> omega))
  refine shows_of_chars (fun j hj => ?_) ?_
  · rw [hkeep j (by omega), shows_char h hj]
  · rw [hkeep _ (Nat.le_refl _), shows_end h]

/-- A constant that stands in the buffer is part of the text. -/
theorem found_text (h : Shows b s) {pattern : CStr} (hin : c+pattern.length ≤ s.length)
    (hmatch : ∀ k < (pattern.map CChar.val).length, b[c+k]? = (pattern.map CChar.val)[k]?) :
    pattern <+: s.drop c := by
  refine List.prefix_iff_getElem?.mpr (fun k hk => ?_)
  have hchar := hmatch k (by rwa [List.length_map])
  rw [shows_char h (by omega), List.getElem?_map, List.getElem?_eq_getElem hk] at hchar
  rw [List.getElem?_drop, List.getElem?_eq_getElem (by omega)]
  exact congrArg some (CStr.val_injective (Option.some.inj hchar))

/-- A name between two slashes, and the first of them is taken out with it. -/
theorem dropFirst_text (h : Shows b s) (hhead : s.head? = some slash) {name : CStr}
    (hname : slash ∉ name) {r : Buffer × Bool}
    (hrun : dropFirst b ((text [name, []]).map CChar.val) (name.length+1) = .ok r) :
    (r = (b, false) ∧ strstr b ((text [name, []]).map CChar.val) 0 (b.length+1) = .ok none) ∨
    (r.2 = true ∧ ∃ A B, B ≠ [] ∧ Named (A++name::B) ∧ s = text (A++name::B) ∧
      Shows r.1 (text (A++B))) := by
  have hlen : (text [name, []]).length = name.length+2 := by
    rw [text_cons, List.length_cons, List.length_append]
    rfl
  have hlt := lt_of_terminator (shows_end h)
  obtain ⟨found, hfind, hfound⟩ := strstr_ok (shows_end h) (Nat.zero_le _)
    ((text [name, []]).map CChar.val) (by
      intro x hx
      obtain ⟨y, _, rfl⟩ := List.mem_map.mp hx
      exact y.ne) (b.length+1) (by omega)
  rw [dropFirst, hfind, ok_bind] at hrun
  cases found with
  | none => exact Or.inl ⟨(Except.ok.inj hrun).symm, hfind⟩
  | some c =>
    obtain ⟨_, hin, hmatch⟩ := hfound c rfl
    rw [List.length_map, hlen] at hin
    obtain ⟨rest, hrest⟩ := found_text h (by omega) hmatch
    have hsrc : s.drop (c+(name.length+1)) = slash::rest := by
      rw [← List.drop_drop, ← hrest, text_cons, List.cons_append, List.drop_succ_cons,
        List.append_assoc, List.drop_left]
      rfl
    dsimp only at hrun
    rw [shows_strlen h (by omega), ok_bind] at hrun
    obtain ⟨b', hmove, hshows⟩ := shows_moved h (by omega : c ≤ c+(name.length+1)) (by omega)
    rw [hmove, ok_bind] at hrun
    cases hrun
    obtain ⟨A, hA, htextA⟩ := exists_names (take_head hhead c)
    obtain ⟨B, hB, htextB⟩ := exists_names (s := s.drop (c+(name.length+1))) (by
      rw [hsrc]
      exact fun x hx => (Option.some.inj hx).symm)
    refine Or.inr ⟨rfl, A, B, ?_, named_append.mpr ⟨hA, named_cons.mpr ⟨hname, hB⟩⟩, ?_, ?_⟩
    · rintro rfl
      rw [hsrc] at htextB
      cases htextB
    · rw [text_append, htextA, text_cons, htextB]
      conv_lhs => rw [← List.take_append_drop c s, ← hrest]
      rw [hsrc, text_cons, List.cons_append, List.append_assoc]
      rfl
    · rw [text_append, htextA, htextB]
      exact hshows

end Taken

end ArduinoOS.Kernel
