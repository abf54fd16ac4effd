import ArduinoOS.Kernel.FatWalks

/-!
# What the walks along a FAT directory find

A walk by the lists of slots finds a path exactly when it leads to an entry, and
the child of a number. The walks of the code are these wherever the place at
hand stays that of the next slot.
-/

set_option autoImplicit false

namespace ArduinoOS.Kernel
open ArduinoOS.ByteProgram ArduinoOS.Walk

/-! ### Turns of a lookup -/

section Turns

variable {name : List UInt8} {attributes offset : ℕ} {path rest : CStr}

theorem getChar_at {pre suf : List UInt8} {b : UInt8} (h : path.map CChar.val = pre++b::suf) :
    path.getChar pre.length = b := by
  rw [CStr.getChar, CStr.bytes, h]
  simp

theorem pathTurn_last (h : path.map CChar.val = name) :
    pathTurn (.entry name attributes) path offset = .stop offset := by
  rw [pathTurn, if_pos h]

theorem pathTurn_inside (hsub : attributes &&& 0x10 ≠ 0)
    (h : path.map CChar.val = name++ '/'.toUInt8::rest.map CChar.val) :
    pathTurn (.entry name attributes) path offset = .enter rest := by
  have hne : path.map CChar.val ≠ name := by
    intro hname
    have hlen := congrArg List.length (hname.symm.trans h)
    rw [List.length_append, List.length_cons] at hlen
    omega
  have hdrop : path.drop (name.length+1) = rest := by
    apply List.map_injective_iff.mpr CStr.val_injective
    rw [List.map_drop, h, List.drop_append]
    simp
  rw [pathTurn, if_neg hne, if_pos ⟨hsub, by rw [h]; exact List.prefix_append _ _, getChar_at h⟩,
    hdrop]

variable (name attributes offset path) in
/-- An entry ends the lookup, is entered, or is passed over. -/
theorem pathTurn_entry : (path.map CChar.val = name ∧
      pathTurn (.entry name attributes) path offset = .stop offset) ∨
    (∃ rest, attributes &&& 0x10 ≠ 0 ∧ path.map CChar.val = name++ '/'.toUInt8::rest.map CChar.val ∧
      pathTurn (.entry name attributes) path offset = .enter rest) ∨
    pathTurn (.entry name attributes) path offset = .goOn path := by
  by_cases hname : path.map CChar.val = name
  · exact .inl ⟨hname, pathTurn_last hname⟩
  · right
    by_cases hdir : attributes &&& 0x10 ≠ 0 ∧ name <+: path.map CChar.val ∧
        path.getChar name.length = '/'.toUInt8
    · left
      obtain ⟨hsub, ⟨suf, hsuf⟩, hslash⟩ := hdir
      cases suf with
      | nil => exact absurd (by rw [← hsuf, List.append_nil]) hname
      | cons b suf =>
        have hb : b = '/'.toUInt8 := (getChar_at hsuf.symm).symm.trans hslash
        have hrest : (path.drop (name.length+1)).map CChar.val = suf := by
          rw [List.map_drop, ← hsuf, List.drop_append]
          simp
        have hpath : path.map CChar.val =
            name++ '/'.toUInt8::(path.drop (name.length+1)).map CChar.val := by
          rw [hrest, ← hb, hsuf]
        exact ⟨_, hsub, hpath, pathTurn_inside hsub hpath⟩
    · right
      rw [pathTurn, if_neg hname, if_neg hdir]

theorem pathTurn_goOn {kind : SlotKind} {t : CStr} (h : pathTurn kind path offset = .goOn t) :
    t = path := by
  cases kind with
  | hangs => cases h
  | finish => cases h
  | skipped => exact (Turn.goOn.inj h).symm
  | unreadable => exact (Turn.goOn.inj h).symm
  | entry name attributes =>
    rcases pathTurn_entry name attributes offset path with ⟨-, hturn⟩ | ⟨rest, -, -, hturn⟩ | hturn
    · cases hturn.symm.trans h
    · cases hturn.symm.trans h
    · exact (Turn.goOn.inj (hturn.symm.trans h)).symm

theorem pathTurn_enter {kind : SlotKind} {t : CStr} (h : pathTurn kind path offset = .enter t) :
    ∃ name attributes, kind = .entry name attributes ∧ attributes &&& 0x10 ≠ 0 ∧
      path.map CChar.val = name++ '/'.toUInt8::t.map CChar.val := by
  cases kind with
  | hangs => cases h
  | finish => cases h
  | skipped => cases h
  | unreadable => cases h
  | entry name attributes =>
    rcases pathTurn_entry name attributes offset path with
      ⟨-, hturn⟩ | ⟨rest, hsub, hpath, hturn⟩ | hturn
    · cases hturn.symm.trans h
    · cases hturn.symm.trans h
      exact ⟨name, attributes, rfl, hsub, hpath⟩
    · cases hturn.symm.trans h

theorem pathTurn_stop {kind : SlotKind} {r : ℕ} (h : pathTurn kind path offset = .stop r) :
    (kind = .finish ∧ r = 0) ∨
      ∃ name attributes, kind = .entry name attributes ∧ path.map CChar.val = name ∧
        r = offset := by
  cases kind with
  | hangs => cases h
  | finish => exact .inl ⟨rfl, (Turn.stop.inj h).symm⟩
  | skipped => cases h
  | unreadable => cases h
  | entry name attributes =>
    rcases pathTurn_entry name attributes offset path with
      ⟨hname, hturn⟩ | ⟨rest, -, -, hturn⟩ | hturn
    · exact .inr ⟨name, attributes, rfl, hname, (Turn.stop.inj (hturn.symm.trans h)).symm⟩
    · cases hturn.symm.trans h
    · cases hturn.symm.trans h

/-- The component that an entry stands for is the path up to its first slash. -/
theorem component_eq (hslash : '/'.toUInt8 ∉ name)
    (h : path.map CChar.val = name ∨
      ∃ rest : CStr, path.map CChar.val = name++ '/'.toUInt8::rest.map CChar.val) :
    name = (path.map CChar.val).takeWhile (fun b => b != '/'.toUInt8) := by
  have hall : ∀ b ∈ name, (b != '/'.toUInt8) = true := by
    intro b hb
    simp only [bne_iff_ne, ne_eq]
    exact fun heq => hslash (heq ▸ hb)
  have hbehind : ∀ suf : List UInt8, suf.takeWhile (fun b => b != '/'.toUInt8) = [] →
      path.map CChar.val = name++suf →
      name = (path.map CChar.val).takeWhile (fun b => b != '/'.toUInt8) := by
    intro suf hsuf hpath
    rw [hpath, List.takeWhile_append_of_pos hall, hsuf, List.append_nil]
  rcases h with h | ⟨rest, h⟩
  · exact hbehind [] rfl (by rw [h, List.append_nil])
  · exact hbehind _ (by simp) h

end Turns

/-! ### Paths -/

section Paths

variable {kind : ℕ → SlotKind} {sub : ℕ → List ℕ}

/-- The first component is an entry that the path ends at or that is entered. -/
theorem leads_cases {slots : List ℕ} {path : CStr} (h : LeadsFrom kind sub slots path) :
    ∃ offset name attributes, EntryOf kind slots offset name attributes ∧
      (path.map CChar.val = name ∨
        ∃ rest, attributes &&& 0x10 ≠ 0 ∧
          path.map CChar.val = name++ '/'.toUInt8::rest.map CChar.val ∧
          LeadsFrom kind sub (sub offset) rest) := by
  cases h with
  | last hentry hname => exact ⟨_, _, _, hentry, .inl hname⟩
  | inside hentry hsub hpath hrest => exact ⟨_, _, _, hentry, .inr ⟨_, hsub, hpath, hrest⟩⟩

/-- A path leads nowhere where every slot in front of the end is passed over. -/
theorem not_leads {slots : List ℕ} {path : CStr}
    (h : ∀ offset name attributes, EntryOf kind slots offset name attributes →
      pathTurn (kind offset) path offset = .goOn path) : ¬ LeadsFrom kind sub slots path := by
  intro hleads
  obtain ⟨offset, name, attributes, hentry, hpath⟩ := leads_cases hleads
  have hturn := h offset name attributes hentry
  rw [hentry.entry] at hturn
  rcases hpath with hname | ⟨rest, hsub, hpath, -⟩
  · cases (pathTurn_last hname).symm.trans hturn
  · cases (pathTurn_inside hsub hpath).symm.trans hturn

theorem entryOf_mem {slots : List ℕ} {offset : ℕ} {name : List UInt8} {attributes : ℕ}
    (h : EntryOf kind slots offset name attributes) : offset ∈ slots := by
  obtain ⟨before, behind, hslots, -⟩ := h.place
  rw [hslots]
  simp

/-- An entry stands in front of the first end marker. -/
theorem entryOf_before {before behind : List ℕ} {a offset : ℕ} {name : List UInt8}
    {attributes : ℕ} (ha : kind a = .finish)
    (h : EntryOf kind (before++a::behind) offset name attributes) : offset ∈ before := by
  obtain ⟨before', behind', hslots, hfinish⟩ := h.place
  rcases List.append_eq_append_iff.mp hslots with ⟨mid, hbefore, hbehind⟩ | ⟨mid, hbefore, hbehind⟩
  · cases mid with
    | nil =>
      rw [List.nil_append] at hbehind
      have hentry := h.entry
      rw [← (List.cons.inj hbehind).1, ha] at hentry
      cases hentry
    | cons b mid =>
      have hmem : a ∈ before' := by
        rw [hbefore, (List.cons.inj hbehind).1]
        simp
      exact absurd ha (hfinish a hmem)
  · cases mid with
    | nil =>
      rw [List.nil_append] at hbehind
      have hentry := h.entry
      rw [(List.cons.inj hbehind).1, ha] at hentry
      cases hentry
    | cons b mid =>
      rw [hbefore, ← (List.cons.inj hbehind).1]
      simp

/-- An entry behind slots that were passed over. -/
theorem entryOf_passed {before slots : List ℕ} {a : ℕ} {name : List UInt8} {attributes : ℕ}
    {path : CStr} (hbefore : ∀ x ∈ before, pathTurn (kind x) path x = .goOn path)
    (hkind : kind a = .entry name attributes) :
    EntryOf kind (before++a::slots) a name attributes := by
  apply EntryOf.mk _ hkind
  refine ⟨before, slots, rfl, ?_⟩
  intro x hx hfinish
  have hturn := hbefore x hx
  rw [hfinish] at hturn
  cases hturn

variable {v : FatVolume} {m : Image} (d : FatDirectories v m)

/-- A lookup by the lists of slots, the slots passed over before it included, finds
an entry exactly when the path leads to one. -/
theorem path_found {path : CStr} {slots visited : List ℕ} {answer : Option ℕ}
    (h : PathAlong (v.fs m) d.sub path slots visited answer) :
    ∀ before, DirectoryOf (kindOf (v.fs m)) d.root d.sub (before++slots) →
      (∀ x ∈ before, pathTurn (kindOf (v.fs m) x) path x = .goOn path) →
      (answer.getD 0 ≠ 0 ↔ LeadsFrom (kindOf (v.fs m)) d.sub (before++slots) path) := by
  induction h with
  | out path =>
    intro before _ hbefore
    rw [List.append_nil]
    exact iff_of_false (by simp) (not_leads fun offset _ _ hentry =>
      hbefore offset (entryOf_mem hentry))
  | goOn hstep _ ih =>
    rename_i path t a slots visited answer _
    intro before hdir hbefore
    cases pathTurn_goOn hstep
    have hshift : before++a::slots = (before++[a])++slots := by simp
    rw [hshift] at hdir ⊢
    apply ih (before++[a]) hdir
    intro x hx
    rcases List.mem_append.mp hx with hx | hx
    · exact hbefore x hx
    · rw [List.mem_singleton.mp hx]
      exact hstep
  | enter hstep _ ih =>
    rename_i path t a slots visited answer _
    intro before hdir hbefore
    obtain ⟨name, attributes, hkind, hsub, hpath⟩ := pathTurn_enter hstep
    have hentry : EntryOf (kindOf (v.fs m)) (before++a::slots) a name attributes :=
      entryOf_passed hbefore hkind
    have hsame := ih [] (.sub hdir hentry hsub) (by simp)
    rw [List.nil_append] at hsame
    rw [hsame]
    constructor
    · intro hrest
      exact .inside hentry hsub hpath hrest
    · intro hleads
      -- the component has one entry in the directory, the one that was entered
      obtain ⟨offset', name', attributes', hentry', hpath'⟩ := leads_cases hleads
      have hcomponent := component_eq (d.slashless _ _ _ _ hdir hentry) (.inr ⟨_, hpath⟩)
      have hname : name' = name := by
        rw [hcomponent]
        rcases hpath' with hlast | ⟨rest, -, hinside, -⟩
        · exact component_eq (d.slashless _ _ _ _ hdir hentry') (.inl hlast)
        · exact component_eq (d.slashless _ _ _ _ hdir hentry') (.inr ⟨_, hinside⟩)
      subst hname
      cases d.apart _ _ _ _ _ _ hdir hentry hentry'
      rcases hpath' with hlast | ⟨rest, -, hinside, hrest⟩
      · rw [hkind, pathTurn_last hlast] at hstep
        cases hstep
      · rw [hinside] at hpath
        have hrests := List.cons.inj (List.append_cancel_left hpath)
        rwa [List.map_injective_iff.mpr CStr.val_injective hrests.2] at hrest
  | stop hstep =>
    rename_i path a slots answer
    intro before hdir hbefore
    rcases pathTurn_stop hstep with ⟨hkind, hzero⟩ | ⟨name, attributes, hkind, hname, hfound⟩
    · rw [hzero]
      exact iff_of_false (by simp) (not_leads fun offset _ _ hentry =>
        hbefore offset (entryOf_before hkind hentry))
    · rw [hfound]
      apply iff_of_true
      · intro hzero
        rw [Option.getD_some] at hzero
        apply d.nonzero _ hdir
        rw [hzero]
        simp
      · exact .last (entryOf_passed hbefore hkind) hname

/-- What a lookup answers is zero or an entry of a directory. -/
theorem path_entry {path : CStr} {slots visited : List ℕ} {answer : Option ℕ}
    (h : PathAlong (v.fs m) d.sub path slots visited answer) :
    ∀ before, DirectoryOf (kindOf (v.fs m)) d.root d.sub (before++slots) →
      (∀ x ∈ before, pathTurn (kindOf (v.fs m) x) path x = .goOn path) →
      ∀ offset, answer = some offset → offset ≠ 0 →
        ∃ slots name attributes, DirectoryOf (kindOf (v.fs m)) d.root d.sub slots ∧
          EntryOf (kindOf (v.fs m)) slots offset name attributes := by
  induction h with
  | out path =>
    intro before _ _ offset hanswer
    cases hanswer
  | goOn hstep _ ih =>
    rename_i path t a slots visited answer _
    intro before hdir hbefore
    cases pathTurn_goOn hstep
    have hshift : before++a::slots = (before++[a])++slots := by simp
    rw [hshift] at hdir
    apply ih (before++[a]) hdir
    intro x hx
    rcases List.mem_append.mp hx with hx | hx
    · exact hbefore x hx
    · rw [List.mem_singleton.mp hx]
      exact hstep
  | enter hstep _ ih =>
    intro before hdir hbefore
    obtain ⟨name, attributes, hkind, hsub, -⟩ := pathTurn_enter hstep
    exact ih [] (.sub hdir (entryOf_passed hbefore hkind) hsub) (by simp)
  | stop hstep =>
    intro before hdir hbefore offset hanswer hne
    cases hanswer
    rcases pathTurn_stop hstep with ⟨-, hzero⟩ | ⟨name, attributes, hkind, -, hfound⟩
    · exact absurd hzero hne
    · rw [hfound]
      exact ⟨_, name, attributes, hdir, entryOf_passed hbefore hkind⟩

end Paths

end ArduinoOS.Kernel
