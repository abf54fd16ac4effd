import ArduinoOS.Kernel.FatNameText

/-!
# Short names on a FAT volume

Eight characters and an extension of three, padded with spaces, are put
together in place: the padding is cut off, the extension moved up by one and
then to the end of the first part, behind a dot.
-/

set_option autoImplicit false

namespace ArduinoOS.Kernel

/-- A short name as it is shown. -/
def shortText (base ext : List UInt8) : List UInt8 :=
  base++(if ext = [] then [] else '.'.toUInt8::ext)

theorem stripPadding_spec {pre : List UInt8} (hne : pre ≠ [])
    (hlast : pre.getLast? ≠ some ' '.toUInt8) (k : ℕ) (rest : List UInt8) :
    stripPadding (pre.length-1+k) (pre++(List.replicate k ' '.toUInt8++rest)) =
      (pre.length-1, pre++(List.replicate k 0++rest)) := by
  have hpos := List.length_pos_iff.mpr hne
  induction k generalizing rest with
  | zero =>
    cases hn : pre.length-1 with
    | zero => rfl
    | succ p =>
      have hchar : (pre++(List.replicate 0 ' '.toUInt8++rest)).getD (p+1) 0 ≠ ' '.toUInt8 := by
        intro hspace
        rw [← hn, List.getD_append _ _ _ _ (by omega)] at hspace
        apply hlast
        rw [List.getLast?_eq_getElem?, List.getElem?_eq_getElem (by omega)]
        rw [List.getD_eq_getElem _ _ (by omega)] at hspace
        rw [hspace]
      rw [Nat.add_zero, stripPadding, if_pos hchar]
      rfl
  | succ k ih =>
    have hlen : (pre++List.replicate k ' '.toUInt8).length = pre.length-1+k+1 := by
      rw [List.length_append, List.length_replicate]
      omega
    have hsplit : pre++(List.replicate (k+1) ' '.toUInt8++rest) =
        (pre++List.replicate k ' '.toUInt8)++ ' '.toUInt8::rest := by
      rw [List.replicate_succ']
      simp
    rw [← Nat.add_assoc, hsplit, stripPadding, ← hlen, List.getD_append_right _ _ _ _ (Nat.le_refl _),
      Nat.sub_self, List.getD_cons_zero, if_neg (not_not.mpr rfl), List.set_append_right _ _
      (Nat.le_refl _), Nat.sub_self, List.set_cons_zero, List.append_assoc, ih (0::rest)]
    rw [List.replicate_succ']
    simp

/-- The five stores that put the two parts together. -/
theorem set_five (pre : List UInt8) (x₀ x₁ x₂ x₃ x₄ a b c d e : UInt8) (rest : List UInt8) :
    (((((pre++x₀::x₁::x₂::x₃::x₄::rest).set pre.length a).set (pre.length+1) b).set
      (pre.length+2) c).set (pre.length+3) d).set (pre.length+4) e = pre++a::b::c::d::e::rest := by
  induction pre with
  | nil => rfl
  | cons y pre ih =>
    simp only [List.cons_append, List.length_cons, Nat.add_right_comm _ 1, List.set_cons_succ, ih]

theorem getD_set_other {name : List UInt8} {i j : ℕ} (h : i ≠ j) (c : UInt8) :
    (name.set i c).getD j 0 = name.getD j 0 := by
  rw [List.getD_eq_getElem?_getD, List.getElem?_set_ne h, ← List.getD_eq_getElem?_getD]

/-- A place of the extension, with padding cut off. -/
def cutSpace (c : UInt8) : UInt8 := if c = ' '.toUInt8 then 0 else c

/-- The extension is moved up by one, its padding cut off. -/
theorem shift_extension {f : List UInt8} (hf : f.length = 8) (c₁ c₂ c₃ x : UInt8)
    (rest : List UInt8) :
    (let name := f++c₁::c₂::c₃::x::rest
      let name := if name.getD 9 0 = ' '.toUInt8 then name.set 9 0 else name
      let name := if name.getD 10 0 = ' '.toUInt8 then name.set 10 0 else name
      let name := name.set 11 (name.getD 10 0)
      let name := name.set 10 (name.getD 9 0)
      name.set 9 (name.getD 8 0)) = f++c₁::c₁::cutSpace c₂::cutSpace c₃::rest := by
  have hget : ∀ (i : ℕ) (l : List UInt8), (f++l).getD (8+i) 0 = l.getD i 0 := by
    intro i l
    rw [List.getD_append_right _ _ _ _ (by omega), hf, Nat.add_sub_cancel_left]
  have hset : ∀ (i : ℕ) (l : List UInt8) (c : UInt8), (f++l).set (8+i) c = f++l.set i c := by
    intro i l c
    rw [List.set_append_right _ _ (by omega), hf, Nat.add_sub_cancel_left]
  have hnine : ∀ l : List UInt8, (if (f++c₁::c₂::l).getD 9 0 = ' '.toUInt8 then
      (f++c₁::c₂::l).set 9 0 else f++c₁::c₂::l) = f++c₁::cutSpace c₂::l := by
    intro l
    rw [hget 1, hset 1, cutSpace]
    simp only [List.getD_cons_succ, List.getD_cons_zero, List.set_cons_succ, List.set_cons_zero]
    split <;> rfl
  have hten : ∀ d, (if (f++c₁::d::c₃::x::rest).getD 10 0 = ' '.toUInt8 then
      (f++c₁::d::c₃::x::rest).set 10 0 else f++c₁::d::c₃::x::rest) =
        f++c₁::d::cutSpace c₃::x::rest := by
    intro d
    rw [hget 2, hset 2, cutSpace]
    simp only [List.getD_cons_succ, List.getD_cons_zero, List.set_cons_succ, List.set_cons_zero]
    split <;> rfl
  dsimp only
  rw [hnine, hten, hget 2, hset 3]
  simp only [List.getD_cons_succ, List.getD_cons_zero, List.set_cons_succ, List.set_cons_zero]
  rw [hget 1, hset 2]
  simp only [List.getD_cons_succ, List.getD_cons_zero, List.set_cons_succ, List.set_cons_zero]
  rw [hget 0, hset 1]
  rfl

/-- The two parts are put together behind the dot. -/
theorem join_parts {base g : List UInt8} (c₁ c₂ c₃ : UInt8) (hbase : base.length ≤ 8)
    (hpre : base <+: g) (hlen : 13 ≤ g.length) (h₁ : g.getD 9 0 = c₁) (h₂ : g.getD 10 0 = c₂)
    (h₃ : g.getD 11 0 = c₃) :
    ∃ rest, (let name := g.set base.length '.'.toUInt8
      let name := name.set (base.length+1) (name.getD 9 0)
      let name := name.set (base.length+2) (name.getD 10 0)
      let name := name.set (base.length+3) (name.getD 11 0)
      name.set (base.length+4) 0) = base ++ '.'.toUInt8::c₁::c₂::c₃::0::rest := by
  obtain ⟨l, rfl⟩ := hpre
  have hl : 5 ≤ l.length := by
    rw [List.length_append] at hlen
    omega
  match l, hl with
  | x₀::x₁::x₂::x₃::x₄::rest, _ =>
    refine ⟨rest, ?_⟩
    dsimp only
    rw [getD_set_other (i := base.length+2) (j := 11) (by omega),
      getD_set_other (i := base.length+1) (j := 11) (by omega),
      getD_set_other (i := base.length) (j := 11) (by omega), h₃,
      getD_set_other (i := base.length+1) (j := 10) (by omega),
      getD_set_other (i := base.length) (j := 10) (by omega), h₂,
      getD_set_other (i := base.length) (j := 9) (by omega), h₁]
    exact set_five base x₀ x₁ x₂ x₃ x₄ _ _ _ _ _ rest

theorem bufferString_parts {base : List UInt8} (hzero : 0 ∉ base) (l : List UInt8) :
    bufferString (base++l) = base++bufferString l := by
  rw [bufferString, List.takeWhile_append_of_pos]
  · rfl
  · intro b hb
    simp only [ne_eq, decide_not, Bool.not_eq_true', decide_eq_false_iff_not]
    rintro rfl
    exact hzero hb

theorem bufferString_extension {c₁ c₂ c₃ : UInt8} (h₁ : c₁ ≠ 0) (h₂ : c₂ ≠ 0) (h₃ : c₃ ≠ 0)
    (hspace : c₁ ≠ ' '.toUInt8) (rest : List UInt8) :
    bufferString ('.'.toUInt8::c₁::cutSpace c₂::cutSpace c₃::0::rest) =
      '.'.toUInt8::[c₁, c₂, c₃].takeWhile (· ≠ ' '.toUInt8) := by
  have hdot : '.'.toUInt8 ≠ 0 := by decide
  by_cases h₂' : c₂ = ' '.toUInt8
  · simp [bufferString, cutSpace, hdot, h₁, hspace, h₂']
  · by_cases h₃' : c₃ = ' '.toUInt8
    · simp [bufferString, cutSpace, hdot, h₁, h₂, hspace, h₂', h₃']
    · simp [bufferString, cutSpace, hdot, h₁, h₂, h₃, hspace, h₂', h₃']

theorem shortName_spec {base : List UInt8} (hne : base ≠ []) (hlen : base.length ≤ 8)
    (hlast : base.getLast? ≠ some ' '.toUInt8) (hzero : 0 ∉ base) {c₁ c₂ c₃ : UInt8} (h₁ : c₁ ≠ 0)
    (h₂ : c₂ ≠ 0) (h₃ : c₃ ≠ 0) (x y : UInt8) (rest : List UInt8) :
    shortName (base++(List.replicate (8-base.length) ' '.toUInt8++c₁::c₂::c₃::x::y::rest)) =
      shortText base ([c₁, c₂, c₃].takeWhile (· ≠ ' '.toUInt8)) := by
  have hpos := List.length_pos_iff.mpr hne
  have hseven : 7 = base.length-1+(8-base.length) := by omega
  have hf : (base++List.replicate (8-base.length) (0 : UInt8)).length = 8 := by
    rw [List.length_append, List.length_replicate]
    omega
  have hmark : ∀ l : List UInt8, (base++List.replicate (8-base.length) 0++c₁::l).getD 8 0 = c₁ := by
    intro l
    rw [List.getD_append_right _ _ _ _ (by omega), hf]
    rfl
  rw [shortName, hseven, stripPadding_spec hne hlast, ← List.append_assoc]
  dsimp only
  rw [hmark]
  by_cases hspace : c₁ = ' '.toUInt8
  · rw [if_pos hspace, List.set_append_right _ _ (by omega), hf, Nat.sub_self, List.set_cons_zero,
      List.append_assoc, bufferString_parts hzero]
    have hends : bufferString (List.replicate (8-base.length) 0++0::c₂::c₃::x::y::rest) = [] := by
      cases 8-base.length <;> simp [bufferString, List.replicate_succ]
    rw [hends, hspace]
    simp [shortText]
  · have hshift := shift_extension hf c₁ c₂ c₃ x (y::rest)
    dsimp only at hshift
    rw [if_neg hspace, hshift]
    have hat : ∀ (i : ℕ) (l : List UInt8),
        (base++List.replicate (8-base.length) 0++l).getD (8+i) 0 = l.getD i 0 := by
      intro i l
      rw [List.getD_append_right _ _ _ _ (by omega), hf, Nat.add_sub_cancel_left]
    obtain ⟨rest', hjoin⟩ := join_parts c₁ (cutSpace c₂) (cutSpace c₃)
      (g := base++List.replicate (8-base.length) 0++
        c₁::c₁::cutSpace c₂::cutSpace c₃::y::rest) hlen
      (by rw [List.append_assoc]; exact List.prefix_append _ _)
      (by rw [List.length_append, hf]; simp only [List.length_cons]; omega)
      (hat 1 _) (hat 2 _) (hat 3 _)
    dsimp only at hjoin
    have hone : base.length-1+1 = base.length := by omega
    have htwo : base.length-1+2 = base.length+1 := by omega
    have hthree : base.length-1+3 = base.length+2 := by omega
    have hfour : base.length-1+4 = base.length+3 := by omega
    have hfive : base.length-1+5 = base.length+4 := by omega
    rw [hone, htwo, hthree, hfour, hfive, hjoin, bufferString_parts hzero,
      bufferString_extension h₁ h₂ h₃ hspace, shortText, if_neg]
    rw [List.takeWhile_cons_of_pos (by simpa using hspace)]
    exact List.cons_ne_nil _ _

end ArduinoOS.Kernel
