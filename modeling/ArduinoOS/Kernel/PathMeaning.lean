import ArduinoOS.Kernel.PathRuns

/-!
# Normalising a path and its meaning

Each step keeps the meaning of a path, unless it takes out a `..` with a blank
name in front of it, or text on account of a `..` behind the terminator.
-/

set_option autoImplicit false

namespace ArduinoOS.Kernel
open ArduinoOS.CBuffer Relation

/-- The loops come to stand at `c` of the buffer. -/
def Visited (path : CStr) (b : Buffer) (c : ℕ) : Prop := ReflTransGen Step (path.bytes, 0) (b, c)

/-- The `..` at `c'` has its own text in front of it, where it has any. -/
def OwnText (b : Buffer) (c' d : ℕ) : Prop :=
  (∀ k ≤ d, b[k]? ≠ some 0) → ∀ k ≤ c', b[k]? ≠ some 0

/-- The name between these slashes of the text is empty or a dot. -/
def BlankAt (b : Buffer) (c' d : ℕ) : Prop :=
  (∀ k ≤ c', b[k]? ≠ some 0) ∧ (c' = d+1 ∨ c' = d+2 ∧ b[d+1]? = some 46)

/-- No `..` from behind the terminator is resolved in the text. -/
def Clear (path : CStr) : Prop :=
  ∀ b c c' d b', Visited path b c → Resolves b c c' d b' → OwnText b c' d

/-- No `..` is resolved with a blank name. -/
def NoBlank (path : CStr) : Prop :=
  ∀ b c c' d b', Visited path b c → Resolves b c c' d b' → ¬ BlankAt b c' d

/-- What normalising the path leaves in its buffer. -/
def Normalised (path out : CStr) : Prop :=
  ∃ steps b, kernelFsPathNormalise steps path.bytes = .ok b ∧ Shows b out

/-! ### One step -/

/-- This step resolves a `..` with a blank name. -/
def TakesBlank (x : Buffer × ℕ) : Prop :=
  ∃ c' d b', Resolves x.1 x.2 c' d b' ∧ BlankAt x.1 c' d

/-- The same meaning, and a dot at the end stays there. -/
structure SameMeaning (s t : CStr) : Prop where
  meaning : meaning t = meaning s
  dot : (components t).getLast? = some dotName ↔ (components s).getLast? = some dotName

theorem sameMeaning_refl (s : CStr) : SameMeaning s s := ⟨rfl, Iff.rfl⟩

theorem sameMeaning_trans {s t u : CStr} (h : SameMeaning s t) (h' : SameMeaning t u) :
    SameMeaning s u :=
  ⟨h'.meaning.trans h.meaning, h'.dot.trans h.dot⟩

theorem sameMeaning_depth {s t : CStr} (h : SameMeaning s t) :
    depth (components t) = depth (components s) := by
  rw [← meaning_depth, h.meaning, meaning_depth]

/-- The last name is the same where others are taken out in front of it. -/
theorem sameMeaning_taken {A X B : List CStr} (hnamed : Named (A++X++B)) (hB : B ≠ [])
    (h : (A++X++B).foldl push [] = (A++B).foldl push []) :
    SameMeaning (text (A++X++B)) (text (A++B)) := by
  have hnamed' : Named (A++B) := named_append.mpr
    ⟨(named_append.mp (named_append.mp hnamed).1).1, (named_append.mp hnamed).2⟩
  have hlast : ∀ P : List CStr, (P++B).getLast? = B.getLast? := by
    intro P
    rw [List.getLast?_append]
    cases hl : B.getLast? with
    | none => exact absurd (List.getLast?_eq_none_iff.mp hl) hB
    | some y => rfl
  refine ⟨?_, ?_⟩
  · rw [meaning, meaning, components_text hnamed (by simp [hB]),
      components_text hnamed' (by simp [hB]), h]
  · rw [components_text hnamed (by simp [hB]), components_text hnamed' (by simp [hB]), hlast, hlast]

theorem blank_between {b : Buffer} {s : CStr} (h : Shows b s) {c' d : ℕ} (hdc : d < c')
    (hin : c' ≤ s.length) :
    Blank ((s.take c').drop (d+1)) ↔ c' = d+1 ∨ c' = d+2 ∧ b[d+1]? = some 46 := by
  have hlen : ((s.take c').drop (d+1)).length = c'-(d+1) := by
    rw [List.length_drop, List.length_take, min_eq_left hin]
  constructor
  · rintro (hnil | hdot)
    · rw [hnil] at hlen
      left
      rw [List.length_nil] at hlen
      omega
    · right
      rw [hdot, show dotName.length = 1 from rfl] at hlen
      refine ⟨by omega, ?_⟩
      have hget : ((s.take c').drop (d+1))[0]? = dotName[0]? := by rw [hdot]
      rw [List.getElem?_drop, Nat.add_zero, List.getElem?_take, if_pos (by omega),
        List.getElem?_eq_getElem (by omega)] at hget
      rw [shows_char h (by omega), Option.some.inj hget]
      rfl
  · rintro (rfl | ⟨rfl, h46⟩)
    · exact Or.inl (List.length_eq_zero_iff.mp (by omega))
    · right
      have hchar := shows_dot h (by omega) h46
      rw [List.drop_take, show d+2-(d+1) = 1 by omega, List.drop_eq_getElem_cons (by omega), hchar]
      rfl

theorem weight_of_blank_parent {x : CStr} (h : Blank x) (A B : List CStr) :
    depth (A++x::parentName::B)+1 = depth (A++B) := by
  rw [depth_append, depth_cons, depth_cons, weight_blank h, weight_parent, depth_append]
  omega

section Steps

variable {n : ℕ} {s : CStr}

/-- A `/..` in the text. -/
theorem resolves_meaning {b b' : Buffer} {c c' d : ℕ} (h : Shows b s)
    (hhead : s.head? = some slash) (hres : Resolves b c c' d b') (hparent : ParentAt b c')
    (hin : c'+3 ≤ s.length) :
    ∃ t, Shows b' t ∧ (¬ BlankAt b c' d → SameMeaning s t) ∧
      (BlankAt b c' d → depth (components s) < depth (components t)) := by
  obtain ⟨A, B, hnamed, hs, hdouble, hshows⟩ := resolves_text h hhead hres hparent hin
  obtain ⟨hdc, _⟩ := lastSlash_some hres.slash
  have hblank : BlankAt b c' d ↔ Blank ((s.take c').drop (d+1)) := by
    rw [blank_between h hdc (by omega)]
    exact and_iff_right ((shows_inside h).mpr (by omega))
  rw [hblank]
  generalize (s.take c').drop (d+1) = x at hnamed hs hdouble
  have hnamed' := named_append.mp hnamed
  have hB := (named_cons.mp (named_cons.mp hnamed'.2).2).2
  -- the last slash stays behind a last `..`
  obtain ⟨B', hne, hB', hsame, hdepth, heq⟩ : ∃ B', B' ≠ [] ∧ Named (A++B') ∧
      (∀ stack, B.foldl push stack = B'.foldl push stack) ∧ depth B' = depth B ∧
      (if B = [] then [[]] else B) = B' := by
    by_cases hnil : B = []
    · subst hnil
      refine ⟨[[]], by simp, named_append.mpr ⟨hnamed'.1, by simp [Named]⟩, fun stack => ?_, rfl,
        if_pos rfl⟩
      rw [List.foldl_cons, push_blank (Or.inl rfl)]
    · exact ⟨B, hnil, named_append.mpr ⟨hnamed'.1, hB⟩, fun _ => rfl, rfl, if_neg hnil⟩
  rw [heq] at hshows
  have hcomp := components_text hnamed (by simp)
  have hcomp' := components_text hB' (by simp [hne])
  refine ⟨_, hshows, fun hx => ⟨?_, ?_⟩, fun hx => ?_⟩
  · rw [meaning, meaning, hs, hcomp, hcomp', drop_parent hx hdouble, List.foldl_append,
      List.foldl_append, hsame]
  · rw [hs, hcomp, hcomp', List.getLast?_append, List.getLast?_append]
    by_cases hnil : B = []
    · rw [if_pos hnil] at heq
      subst hnil heq
      change some [] = some dotName ↔ some parentName = some dotName
      decide
    · rw [if_neg hnil] at heq
      subst heq
      obtain ⟨y, rest, rfl⟩ := List.exists_cons_of_ne_nil hnil
      rw [List.getLast?_cons_cons, List.getLast?_cons_cons]
  · rw [hs, hcomp, hcomp']
    have := weight_of_blank_parent hx A B
    rw [depth_append] at this ⊢
    rw [depth_append] at this ⊢
    omega

theorem dropFirst_meaning {b : Buffer} (h : Shows b s) (hhead : s.head? = some slash)
    {name : CStr} (hname : slash ∉ name) (hblank : Blank name) {r : Buffer × Bool}
    (hrun : dropFirst b ((text [name, []]).map CChar.val) (name.length+1) = .ok r) :
    ∃ t, Shows r.1 t ∧ SameMeaning s t := by
  rcases dropFirst_text h hhead hname hrun with ⟨rfl, _⟩ | ⟨_, A, B, hB, hnamed, hs, hshows⟩
  · exact ⟨s, h, sameMeaning_refl s⟩
  · have hs' : s = text (A++[name]++B) := by rw [hs, List.append_assoc, List.singleton_append]
    refine ⟨_, hshows, hs' ▸ sameMeaning_taken (by simpa using hnamed) hB ?_⟩
    rw [List.append_assoc, List.singleton_append, drop_blank hblank]

theorem absolute_head {b : Buffer} (hp : Absolute b n) (h : Shows b s) :
    s.head? = some slash := by
  cases s with
  | nil =>
    have hend := shows_end h
    rw [List.length_nil, hp.slash] at hend
    cases hend
  | cons x rest =>
    have hchar := shows_slash h (by simp : 0 < (x::rest).length) hp.slash
    rw [List.getElem_cons_zero] at hchar
    rw [hchar]
    rfl

/-- One step keeps the meaning, or it takes out a `..` with a blank name. -/
theorem step_meaning {x y : Buffer × ℕ} (hstep : Step x y) (hp : Absolute x.1 n) (hc : x.2 ≤ n)
    (h : Shows x.1 s) (hclear : ∀ c' d b', Resolves x.1 x.2 c' d b' → OwnText x.1 c' d) :
    ∃ t, Shows y.1 t ∧ (¬ TakesBlank x → SameMeaning s t) ∧
      depth (components s) ≤ depth (components t) ∧
      (TakesBlank x → depth (components s) < depth (components t)) := by
  have hhead := absolute_head hp h
  have hsame : ∀ {t : CStr}, SameMeaning s t → ¬ TakesBlank x →
      (¬ TakesBlank x → SameMeaning s t) ∧ depth (components s) ≤ depth (components t) ∧
      (TakesBlank x → depth (components s) < depth (components t)) := by
    intro t ht hnot
    exact ⟨fun _ => ht, le_of_eq (sameMeaning_depth ht).symm, fun htakes => absurd htakes hnot⟩
  cases hstep with
  | kept hfound hkept =>
    refine ⟨s, h, hsame (sameMeaning_refl s) ?_⟩
    rintro ⟨c'', d', b'', hres, _⟩
    have hfound' := hres.found
    dsimp only at hfound'
    rw [hfound] at hfound'
    cases hfound'
    exact kept_not_resolved hkept hres
  | @resolved b b' c c' d hres =>
    obtain ⟨_, hin, hparent⟩ := strstr_parent hp.terminator hc hres.found
    have hslash := (lastSlash_some hres.slash).2
    have htakes : TakesBlank (b, c) ↔ BlankAt b c' d := by
      refine ⟨?_, fun hblank => ⟨c', d, b', hres, hblank⟩⟩
      rintro ⟨c'', d', b'', hres', hblank⟩
      have hfound' := hres'.found
      have hslash' := hres'.slash
      dsimp only at hfound' hslash'
      rw [hres.found] at hfound'
      cases hfound'
      rw [hres.slash] at hslash'
      cases hslash'
      exact hblank
    by_cases hd : d < s.length
    · have hlive := hclear c' d b' hres ((shows_inside h).mpr hd)
      have hc' := (shows_inside h).mp hlive
      have hin' : c'+3 ≤ s.length := by
        -- none of the two dots is the terminator
        have hne : s.length ≠ c'+1 ∧ s.length ≠ c'+2 := by
          have hend := shows_end h
          refine ⟨fun heq => ?_, fun heq => ?_⟩
          · rw [heq] at hend
            exact absurd (hend.symm.trans hparent.2.1) (by decide)
          · rw [heq] at hend
            exact absurd (hend.symm.trans hparent.2.2) (by decide)
        omega
      obtain ⟨t, ht, hsame', hdepth⟩ := resolves_meaning h hhead hres hparent hin'
      rw [htakes]
      refine ⟨t, ht, hsame', ?_, hdepth⟩
      by_cases hblank : BlankAt b c' d
      · exact le_of_lt (hdepth hblank)
      · exact le_of_eq (sameMeaning_depth (hsame' hblank)).symm
    · refine ⟨s, resolves_behind h hp.terminator hin hres (by omega),
        hsame (sameMeaning_refl s) ?_⟩
      rw [htakes]
      rintro ⟨hlive, _⟩
      have hlt := (shows_inside h).mp hlive
      have := (lastSlash_some hres.slash).1
      omega
  | @pass b dots slashes c hnone hdots hslashes =>
    have hdots' : slash ∉ dotName := by decide
    have hp₁ := dropFirst_absolute hp dot_chars
      (show 0 < 2 ∧ 2 < ([47, 46, 47] : List UInt8).length by decide) rfl hdots
    obtain ⟨t, ht, hst⟩ := dropFirst_meaning h hhead hdots' (Or.inr rfl) hdots
    obtain ⟨u, hu, htu⟩ := dropFirst_meaning ht (absolute_head hp₁.1 ht) List.not_mem_nil
      (Or.inl rfl) hslashes
    refine ⟨u, hu, hsame (sameMeaning_trans hst htu) ?_⟩
    rintro ⟨c'', d', b'', hres, _⟩
    have hfound := hres.found
    dsimp only at hfound
    rw [hnone] at hfound
    cases hfound

end Steps

/-! ### Runs -/

theorem bytes_absolute {path : CStr} (h : path.head? = some slash) :
    Absolute path.bytes path.length := by
  cases path with
  | nil => cases h
  | cons x rest =>
    cases h
    exact ⟨bytes_within (by simp), rfl⟩

theorem visited_absolute {path : CStr} (hhead : path.head? = some slash) {b : Buffer} {c : ℕ}
    (h : Visited path b c) : Absolute b path.length ∧ c ≤ path.length :=
  steps_absolute h (bytes_absolute hhead) (Nat.zero_le _)

/-- What a run shows from one of its places to another. -/
theorem steps_meaning {path : CStr} (hhead : path.head? = some slash) (hclear : Clear path)
    {x y : Buffer × ℕ} (hx : Visited path x.1 x.2) (h : ReflTransGen Step x y) {s : CStr}
    (hs : Shows x.1 s) :
    ∃ t, Shows y.1 t ∧ depth (components s) ≤ depth (components t) ∧
      (NoBlank path → SameMeaning s t) := by
  induction h with
  | refl => exact ⟨s, hs, le_refl _, fun _ => sameMeaning_refl s⟩
  | @tail y z hxy hyz ih =>
    obtain ⟨t, ht, hle, hsame⟩ := ih
    have hy : Visited path y.1 y.2 := hx.trans hxy
    obtain ⟨hp, hc⟩ := visited_absolute hhead hy
    obtain ⟨u, hu, hkept, hle', _⟩ := step_meaning hyz hp hc ht
      (fun c' d b' hres => hclear y.1 y.2 c' d b' hy hres)
    refine ⟨u, hu, le_trans hle hle', fun hno => sameMeaning_trans (hsame hno) (hkept ?_)⟩
    rintro ⟨c', d, b', hres, hblank⟩
    exact hno y.1 y.2 c' d b' hy hres hblank

/-- A run that resolves a `..` with a blank name comes out deeper. -/
theorem run_deeper {path out : CStr} (hhead : path.head? = some slash) (hclear : Clear path)
    {b : Buffer} (hend : Visited path b 0) (hout : Shows b out) (hsettled : Settled out)
    {x : Buffer × ℕ} (hx : Visited path x.1 x.2) (htakes : TakesBlank x) :
    depth (components path) < depth (components out) := by
  have hstuck : ¬ ReflTransGen Step (b, 0) x := by
    intro hback
    obtain ⟨heq, hle⟩ := settled_steps hback hout hsettled (Nat.zero_le _)
    obtain ⟨c', d, b', hres, _⟩ := htakes
    have hshows : Shows x.1 out := heq ▸ hout
    obtain ⟨_, hin, hparent⟩ := strstr_parent (shows_end hshows) hle hres.found
    exact kept_not_resolved (text_kept hshows hsettled hparent hin) hres
  obtain ⟨s, hs, hle, _⟩ := steps_meaning hhead hclear
    (show Visited path (path.bytes, 0).1 (path.bytes, 0).2 from .refl) hx (shows_bytes path)
  have hon := (ReflTransGen.total_of_right_unique step_unique hx hend).resolve_right hstuck
  obtain ⟨hp, hc⟩ := visited_absolute hhead hx
  rcases ReflTransGen.cases_head hon with heq | ⟨y, hxy, hy⟩
  · exact absurd (heq ▸ .refl) hstuck
  · obtain ⟨t, ht, _, _, hlt⟩ := step_meaning hxy hp hc hs
      (fun c' d b' hres => hclear x.1 x.2 c' d b' hx hres)
    obtain ⟨u, hu, hle', _⟩ := steps_meaning hhead hclear (hx.tail hxy) hy ht
    rw [shows_unique hout hu]
    exact lt_of_le_of_lt hle (lt_of_lt_of_le (hlt htakes) hle')

/-! ### The whole -/

/-- What comes out of a run, and where. -/
theorem normalised_parts {path out : CStr} (hhead : path.head? = some slash)
    (h : Normalised path out) :
    ∃ b s, Visited path b 0 ∧ Shows b s ∧ s.length ≤ path.length ∧ s.head? = some slash ∧
      Settled s ∧ out = trim s := by
  obtain ⟨steps, b', hrun, hout⟩ := h
  rw [kernelFsPathNormalise] at hrun
  cases hloop : normaliseLoop steps path.bytes steps with
  | error t =>
    rw [hloop] at hrun
    cases hrun
  | ok b =>
    rw [hloop, ok_bind] at hrun
    obtain ⟨hsteps, hsettled⟩ := loop_steps (bytes_absolute hhead) hloop
    obtain ⟨hp, _⟩ := visited_absolute hhead hsteps
    obtain ⟨s, hs, hlen⟩ := exists_shown hp.terminator
    have hslash := absolute_head hp hs
    obtain ⟨b'', htrim, _, hshows⟩ := shows_trim hs (by
      rintro rfl
      cases hslash)
    rw [hrun] at htrim
    cases htrim
    exact ⟨b, s, hsteps, hs, hlen, hslash, hsettled s hs, shows_unique hout hshows⟩

theorem names_of_path {s : CStr} (hhead : s.head? = some slash) :
    Named (components s) ∧ components s ≠ [] ∧ text (components s) = s := by
  obtain ⟨names, hnamed, htext⟩ := exists_names (s := s) (fun x hx => by
    rw [hhead] at hx
    exact (Option.some.inj hx).symm)
  have hne : names ≠ [] := by
    rintro rfl
    rw [← htext] at hhead
    cases hhead
  rw [← htext, components_text hnamed hne]
  exact ⟨hnamed, hne, rfl⟩

/-- Trimming keeps the meaning. -/
theorem trim_meaning {s : CStr} (hhead : s.head? = some slash) :
    meaning (trim s) = meaning s := by
  rcases trim_cases s with hkept | ⟨hroot, hcut⟩
  · rw [hkept]
  · obtain ⟨hnamed, hne, htext⟩ := names_of_path (trim_head hhead)
    have hs : s = text (components (trim s)++[[]]) := by
      rw [text_append, htext]
      exact hcut
    have hcomp : components s = components (trim s)++[[]] := by
      conv_lhs => rw [hs]
      exact components_text (named_append.mpr ⟨hnamed, by simp [Named]⟩) (by simp)
    rw [meaning, meaning, hcomp, drop_blank (Or.inl rfl), List.append_nil]

/-- A path whose runs resolve each `..` with the name in front of it, and that
does not end with a dot. -/
structure Sound (path : CStr) : Prop where
  clear : Clear path
  noBlank : NoBlank path
  last : (components path).getLast? ≠ some dotName

theorem normalised_meaning {path out : CStr} (hhead : path.head? = some slash)
    (h : Normalised path out) (hclear : Clear path) :
    (meaning out = meaning path ↔ NoBlank path) ∧
    (NoBlank path →
      (out = canonical (meaning path) ↔ (components path).getLast? ≠ some dotName)) := by
  obtain ⟨b, s, hvisited, hs, _, hslash, hsettled, rfl⟩ := normalised_parts hhead h
  obtain ⟨t, ht, _, hsame⟩ := steps_meaning hhead hclear
    (show Visited path (path.bytes, 0).1 (path.bytes, 0).2 from .refl) hvisited (shows_bytes path)
  have hst := shows_unique hs ht
  subst hst
  obtain ⟨hnamed, hne, htext⟩ := names_of_path hslash
  refine ⟨⟨fun heq b' c c' d b'' hv hres hblank => ?_, fun hno => ?_⟩, fun hno => ?_⟩
  · have hlt := run_deeper hhead hclear hvisited hs hsettled (x := (b', c)) hv
      ⟨c', d, b'', hres, hblank⟩
    rw [← meaning_depth, ← meaning_depth s, ← trim_meaning hslash, heq] at hlt
    exact lt_irrefl _ hlt
  · rw [trim_meaning hslash, (hsame hno).meaning]
  · have hfinal := final_canonical hnamed hne (settled_final hnamed (htext.symm ▸ hsettled))
    rw [htext] at hfinal
    have hdot := (hsame hno).dot
    rw [← (hsame hno).meaning]
    exact hfinal.trans (not_congr hdot)

/-- Normalising a path makes it no longer, valid, and one that stays as it is.
It keeps the meaning where each `..` is resolved with a name in front of it, and
comes to one path for each meaning where a dot is not last. -/
theorem path_normalise_meaning (path out : CStr) (hhead : path.head? = some slash)
    (h : Normalised path out) :
    out.length ≤ path.length ∧ kernelFsPathIsValid out = true ∧
    (∀ steps > out.length, kernelFsPathNormalise steps out.bytes = .ok out.bytes) ∧
    (Clear path → (meaning out = meaning path ↔ NoBlank path)) ∧
    (Clear path → NoBlank path →
      (out = canonical (meaning path) ↔ (components path).getLast? ≠ some dotName)) ∧
    (Sound path → ∀ path' out', path'.head? = some slash → Normalised path' out' →
      Sound path' → meaning path' = meaning path → out' = out) := by
  obtain ⟨b, s, _, _, hlen, hslash, hsettled, hout⟩ := normalised_parts hhead h
  refine ⟨?_, ?_, ?_, fun hclear => (normalised_meaning hhead h hclear).1,
    fun hclear => (normalised_meaning hhead h hclear).2, ?_⟩
  · rw [hout]
    exact le_trans (trim_length s) hlen
  · rw [hout]
    exact trim_valid hsettled hslash
  · intro steps hsteps
    rw [hout] at hsteps ⊢
    refine settled_fixed (settled_trim hsettled) ?_ (trim_trim hsettled) hsteps
    intro hnil
    have hhead' := trim_head hslash
    rw [hnil] at hhead'
    cases hhead'
  · intro hsound path' out' hhead' h' hsound' heq
    have hout₁ := ((normalised_meaning hhead h hsound.clear).2 hsound.noBlank).mpr hsound.last
    have hout₂ := ((normalised_meaning hhead' h' hsound'.clear).2 hsound'.noBlank).mpr hsound'.last
    rw [hout₁, hout₂, heq]

theorem path_normalise_meaning_plain : kernelFsPathIsValid (CStr.lit "/b") = true :=
  (path_normalise_meaning (CStr.lit "/a/../b") (CStr.lit "/b") rfl
    ⟨10, [47, 98, 0, 46, 46, 47, 98, 0], by decide +kernel, ⟨_, rfl⟩⟩).2.1

/-- A `..` behind two slashes, one from behind the terminator, and a last dot. -/
theorem path_normalise_changes :
    (Normalised (CStr.lit "/a//../b") (CStr.lit "/a/b") ∧
      meaning (CStr.lit "/a/b") ≠ meaning (CStr.lit "/a//../b")) ∧
    (Normalised (CStr.lit "/xy/../..") (CStr.lit "/") ∧
      meaning (CStr.lit "/") ≠ meaning (CStr.lit "/xy/../..")) ∧
    Normalised (CStr.lit "/a/.") (CStr.lit "/a/.") ∧ Normalised (CStr.lit "/a") (CStr.lit "/a") ∧
      meaning (CStr.lit "/a/.") = meaning (CStr.lit "/a") := by
  refine ⟨⟨⟨10, [47, 97, 47, 98, 0, 46, 47, 98, 0], by decide +kernel, ⟨_, rfl⟩⟩, by decide⟩,
    ⟨⟨11, [47, 0, 46, 0, 46, 46, 47, 46, 46, 0], by decide +kernel, ⟨_, rfl⟩⟩, by decide⟩,
    ⟨10, [47, 97, 47, 46, 0], by decide +kernel, ⟨_, rfl⟩⟩,
    ⟨10, [47, 97, 0], by decide +kernel, ⟨_, rfl⟩⟩, by decide⟩

end ArduinoOS.Kernel
