import ArduinoOS.Kernel.FatFound

/-!
# Where a FAT lookup visits the slots of its directories

The loops look at the slots of a directory where these lie one after another on
the volume. Nothing else ends them in time.
-/

set_option autoImplicit false

namespace ArduinoOS.Kernel
open ArduinoOS.ByteProgram ArduinoOS.Walk

/-! ### Children -/

section Children

variable {kind : ℕ → SlotKind} {childNum : ℕ}

theorem childTurn_ne_enter (k : SlotKind) (i t : ℕ) : childTurn childNum k i ≠ .enter t := by
  cases k with
  | hangs => simp [childTurn]
  | finish => simp [childTurn]
  | skipped => simp [childTurn]
  | unreadable => simp [childTurn]
  | entry name attributes =>
    rw [childTurn]
    split_ifs <;> simp

theorem childOnDisk_ne_enter (k : SlotKind) (i a t : ℕ) :
    childOnDisk childNum k i a ≠ .enter t := by
  cases k with
  | hangs => simp [childOnDisk]
  | finish => simp [childOnDisk]
  | skipped => simp [childOnDisk]
  | unreadable =>
    rw [childOnDisk]
    split_ifs <;> simp
  | entry name attributes =>
    rw [childOnDisk]
    split_ifs <;> simp

/-- The code counts the children on disk, less those with an unreadable name. -/
theorem child_matching (kind : ℕ → SlotKind) (childNum : ℕ) :
    Matching (fun childI offset => childTurn childNum (kind offset) childI)
      (fun childI offset => childOnDisk childNum (kind offset) childI offset)
      (fun i j => i ≤ j ∧ j ≤ childNum) (fun answer child => ChildIs kind answer (some child)) where
  goOn i j a t t' hle h h' := by
    cases hkind : kind a with
    | hangs => simp [childTurn, hkind] at h
    | finish => simp [childTurn, hkind] at h
    | skipped =>
      simp only [childTurn, childOnDisk, hkind, Turn.goOn.injEq] at h h'
      omega
    | unreadable =>
      simp only [childTurn, childOnDisk, hkind, Turn.goOn.injEq] at h h'
      split_ifs at h'
      rw [Turn.goOn.injEq] at h'
      omega
    | entry name attributes =>
      simp only [childTurn, childOnDisk, hkind] at h h'
      split_ifs at h h'
      rw [Turn.goOn.injEq] at h h'
      omega
  enter i j a t t' hle h h' := absurd h (childTurn_ne_enter _ _ _)
  goOn_enter i j a t t' hle h := childOnDisk_ne_enter _ _ _ _
  enter_goOn i j a t t' hle h := absurd h (childTurn_ne_enter _ _ _)
  stop i j a b hle h := by
    cases hkind : kind a with
    | hangs => simp [childTurn, hkind] at h
    | finish =>
      simp only [childTurn, hkind, Turn.stop.injEq] at h
      exact ⟨none, rfl, h.symm⟩
    | skipped => simp [childTurn, hkind] at h
    | unreadable => simp [childTurn, hkind] at h
    | entry name attributes =>
      simp only [childTurn, hkind] at h
      split_ifs at h with hi
      rw [Turn.stop.injEq] at h
      have hj : j = childNum := by omega
      exact ⟨some a, if_pos hj, name, attributes, hkind, h.symm⟩

theorem childSlots_passed {a : ℕ} {slots : List ℕ} (hends : (kind a).ends = false)
    (hcounts : (kind a).counts = false) : childSlots kind (a::slots) = childSlots kind slots := by
  simp [childSlots, hends, hcounts]

theorem childSlots_counted {a : ℕ} {slots : List ℕ} (hends : (kind a).ends = false)
    (hcounts : (kind a).counts = true) :
    childSlots kind (a::slots) = a::childSlots kind slots := by
  simp [childSlots, hends, hcounts]

/-- The search by the list finds the slot that has the number. -/
theorem child_nth {childI : ℕ} {slots visited : List ℕ} {child : Option (Option ℕ)}
    (h : Along (fun _ => []) (fun childI offset => childOnDisk childNum (kind offset) childI offset)
      childI slots visited child) (hle : childI ≤ childNum) :
    child.getD none = (childSlots kind slots)[childNum-childI]? := by
  induction h with
  | out => rfl
  | goOn hstep _ ih =>
    rename_i i t a slots visited child _
    have hcounted : ∀ (_ : (kind a).ends = false) (_ : (kind a).counts = true) (_ : i ≠ childNum)
        (_ : t = i+1), child.getD none = (childSlots kind (a::slots))[childNum-i]? := by
      intro hends hcounts hne ht
      have hsucc : childNum-i = childNum-t+1 := by omega
      rw [childSlots_counted hends hcounts, hsucc, List.getElem?_cons_succ]
      exact ih (by omega)
    cases hkind : kind a with
    | hangs => simp [childOnDisk, hkind] at hstep
    | finish => simp [childOnDisk, hkind] at hstep
    | skipped =>
      simp only [childOnDisk, hkind, Turn.goOn.injEq] at hstep
      rw [childSlots_passed (by rw [hkind]; rfl) (by rw [hkind]; rfl), hstep]
      exact ih (by omega)
    | unreadable =>
      simp only [childOnDisk, hkind] at hstep
      split_ifs at hstep with hi
      exact hcounted (by rw [hkind]; rfl) (by rw [hkind]; rfl) hi (Turn.goOn.inj hstep).symm
    | entry name attributes =>
      simp only [childOnDisk, hkind] at hstep
      split_ifs at hstep with hi
      exact hcounted (by rw [hkind]; rfl) (by rw [hkind]; rfl) hi (Turn.goOn.inj hstep).symm
  | enter hstep => exact absurd hstep (childOnDisk_ne_enter _ _ _ _)
  | stop hstep =>
    rename_i i a slots answer
    have hcounted : ∀ (_ : (kind a).ends = false) (_ : (kind a).counts = true) (_ : i = childNum)
        (_ : some a = answer), answer = (childSlots kind (a::slots))[childNum-i]? := by
      intro hends hcounts heq hanswer
      rw [childSlots_counted hends hcounts, heq, Nat.sub_self, ← hanswer]
      rfl
    cases hkind : kind a with
    | hangs => simp [childOnDisk, hkind] at hstep
    | finish =>
      simp only [childOnDisk, hkind, Turn.stop.injEq] at hstep
      simp [childSlots, hkind, SlotKind.ends, ← hstep]
    | skipped => simp [childOnDisk, hkind] at hstep
    | unreadable =>
      simp only [childOnDisk, hkind] at hstep
      split_ifs at hstep with hi
      exact hcounted (by rw [hkind]; rfl) (by rw [hkind]; rfl) hi (Turn.stop.inj hstep)
    | entry name attributes =>
      simp only [childOnDisk, hkind] at hstep
      split_ifs at hstep with hi
      exact hcounted (by rw [hkind]; rfl) (by rw [hkind]; rfl) hi (Turn.stop.inj hstep)

/-- The child is looked for in the slots of the directory exactly where they are kept. -/
theorem child_exact {fs : Fat} {start : ℕ} {slots : List ℕ} :
    (∃ fuel visited answer,
      fatDirGetChildNVisits fs childNum fuel start 0 = some (visited, answer) ∧
      ChildAlong fs childNum slots visited answer) ↔ ChildKept fs childNum start slots := by
  have hR : 0 ≤ 0 ∧ 0 ≤ childNum := ⟨le_refl 0, Nat.zero_le _⟩
  rw [ChildKept, ← stays_iff (child_matching (kindOf fs) childNum) hR]
  constructor
  · rintro ⟨fuel, visited, answer, hvisits, child, halong, -⟩
    exact ⟨visited, answer, child, (loop_iff (childLoop fs childNum)).mp ⟨fuel, hvisits⟩, halong⟩
  · rintro ⟨visited, answer, child, honward, halong⟩
    obtain ⟨fuel, hvisits⟩ := (loop_iff (childLoop fs childNum)).mpr honward
    obtain ⟨c, rfl, hchild⟩ := same_answer (child_matching (kindOf fs) childNum) hR honward halong
    exact ⟨fuel, visited, answer, hvisits, some c, halong, hchild,
      child_nth halong (Nat.zero_le _)⟩

end Children

/-! ### Paths and listings -/

/-- The slots that the loop over the directory at an offset looks at. -/
def DirVisits (fs : Fat) (childNum fuel offset : ℕ) (visited : List ℕ) (answer : Option CStr) :
    Prop :=
  (∃ start, IsDirAt fs offset ∧ entryDoor fs offset = some start ∧
      fatDirGetChildNVisits fs childNum fuel start 0 = some (visited, answer)) ∨
    ((¬ IsDirAt fs offset ∨ entryDoor fs offset = none) ∧ visited = [] ∧ answer = none)

theorem fatDirGetChildNTraced_iff {fs : Fat} {fuel childNum : ℕ} {path : CStr}
    {onWay visited : List ℕ} {answer : Option CStr} (hne : kstrStrlen path ≠ 0) :
    fatDirGetChildNTraced fs fuel path childNum = some (onWay, visited, answer) ↔
      ∃ offset, fatPathVisits fs fuel (fatGetRootDirOffset fs) path = some (onWay, offset) ∧
        DirVisits fs childNum fuel offset visited answer := by
  rw [fatDirGetChildNTraced, if_neg hne]
  cases fatPathVisits fs fuel (fatGetRootDirOffset fs) path with
  | none => simp
  | some found =>
    obtain ⟨way, offset⟩ := found
    -- the walk has come to this offset, and what is there decides
    have hnone : ∀ (_ : ¬ IsDirAt fs offset ∨ entryDoor fs offset = none),
        ((some (way, [], none) : Option (List ℕ × List ℕ × Option CStr)) =
            some (onWay, visited, answer) ↔
          ∃ offset', some (way, offset) = some (onWay, offset') ∧
            DirVisits fs childNum fuel offset' visited answer) := by
      intro hno
      constructor
      · intro h
        cases h
        exact ⟨offset, rfl, .inr ⟨hno, rfl, rfl⟩⟩
      · rintro ⟨offset', hoffset, hvisits⟩
        cases hoffset
        rcases hvisits with ⟨start, hdir, hdoor, -⟩ | ⟨-, rfl, rfl⟩
        · rcases hno with hno | hno
          · exact absurd hdir hno
          · cases hno.symm.trans hdoor
        · rfl
    simp only [Option.bind_eq_bind, Option.bind_some]
    by_cases hzero : offset = 0
    · rw [if_pos hzero]
      exact hnone (.inl fun hdir => hdir.1 hzero)
    · rw [if_neg hzero]
      cases hattributes : fatReadDirEntryAttributes fs offset with
      | none =>
        apply hnone (.inl _)
        rintro ⟨-, attributes, hsome, -⟩
        cases hattributes.symm.trans hsome
      | some attributes =>
        dsimp only
        by_cases hkind : attributes &&& 0x08 ≠ 0 ∨ attributes &&& 0x10 = 0
        · rw [if_pos hkind]
          apply hnone (.inl _)
          rintro ⟨-, attributes', hsome, hnot⟩
          cases hattributes.symm.trans hsome
          exact hnot hkind
        · rw [if_neg hkind]
          cases hdoor : entryDoor fs offset with
          | none => exact hnone (.inr hdoor)
          | some start =>
            have hdir : IsDirAt fs offset := ⟨hzero, attributes, hattributes, hkind⟩
            simp only [Option.map_eq_some_iff]
            constructor
            · rintro ⟨r, hvisits, heq⟩
              cases heq
              exact ⟨offset, rfl, .inl ⟨start, hdir, hdoor, hvisits⟩⟩
            · rintro ⟨offset', hoffset, hvisits⟩
              cases hoffset
              rcases hvisits with ⟨start', -, hdoor', hvisits⟩ | ⟨hno, -⟩
              · cases hdoor.symm.trans hdoor'
                exact ⟨_, hvisits, rfl⟩
              · rcases hno with hno | hno
                · exact absurd hdir hno
                · cases hno.symm.trans hdoor

section Exact

variable {v : FatVolume} {m : Image} (d : FatDirectories v m)

theorem lookup_exact (path : CStr) : LookupExact d path ↔ LookupKept d path := by
  have hself := matching_self
    (fun (path : CStr) offset => pathTurn (kindOf (v.fs m) offset) path offset)
  rw [LookupKept, ← stays_iff hself rfl]
  constructor
  · rintro ⟨fuel, visited, offset, answer, hvisits, halong, -⟩
    exact ⟨visited, offset, answer, (loop_iff (pathLoop (v.fs m))).mp ⟨fuel, hvisits⟩, halong⟩
  · rintro ⟨visited, offset, answer, honward, halong⟩
    obtain ⟨fuel, hvisits⟩ := (loop_iff (pathLoop (v.fs m))).mpr honward
    obtain ⟨c, hc, rfl⟩ := same_answer hself rfl honward halong
    have hoffset : offset = answer.getD 0 := by rw [hc, Option.getD_some]
    have hfound := path_found d halong [] .root (by simp)
    rw [← hoffset] at hfound
    exact ⟨fuel, visited, offset, answer, hvisits, halong, hoffset, hfound⟩

/-- A directory that the path leads to has slots. -/
theorem sub_ne_nil {path : CStr} {visited : List ℕ} {offset : ℕ}
    (h : PathAlong (v.fs m) d.sub path d.root visited (some offset))
    (hdir : IsDirAt (v.fs m) offset) : d.sub offset ≠ [] := by
  obtain ⟨hne, attributes, hattributes, hnot⟩ := hdir
  obtain ⟨slots, name, attributes', hslots, hentry⟩ :=
    path_entry d h [] .root (by simp) offset rfl hne
  -- the attributes of the entry are those that are read again
  have hsame : attributes' = attributes := by
    have hkind := hentry.entry
    rcases kindOf_cases (v.fs m) offset with hhangs | ⟨fuel, r, -, hr⟩
    · rw [hhangs] at hkind
      cases hkind
    · rw [hattributes] at hr
      rw [hr] at hkind
      cases r with
      | nameEnd => cases hkind
      | unused => cases hkind
      | error =>
        rw [classify] at hkind
        split_ifs at hkind
      | success name' =>
        rw [classify] at hkind
        split_ifs at hkind
        exact (SlotKind.entry.inj hkind).2.symm
  have hsub : attributes' &&& 0x10 ≠ 0 := by
    rw [hsame]
    exact fun hzero => hnot (.inr hzero)
  obtain ⟨chain, hhead, -, -, hchain⟩ :=
    d.sub_slots slots offset name attributes' hslots hentry hsub
  intro hnil
  cases chain with
  | nil => cases hhead
  | cons c chain =>
    have hlen := congrArg List.length (hchain.symm.trans hnil)
    have hsize : 32 ≤ v.clusterSize := by
      have hs := v.sector_legal
      have hc := v.cluster_legal
      simp only [List.mem_cons, List.not_mem_nil, or_false] at hs hc
      have hle : 1*512 ≤ v.sectorsPerCluster*v.bytesPerSector :=
        Nat.mul_le_mul (by omega) (by omega)
      rw [FatVolume.clusterSize]
      omega
    have hpos : 0 < v.clusterSize/32 := Nat.div_pos hsize (by decide)
    simp only [List.flatMap_cons, List.length_append, FatVolume.clusterSlots, List.length_map,
      List.length_range, List.length_nil] at hlen
    omega

theorem listing_exact (path : CStr) (childNum : ℕ) :
    ListingExact d path childNum ↔ ListingKept d path childNum := by
  by_cases hroot : kstrStrlen path = 0
  · rw [ListingExact, ListingKept, if_pos hroot, ← child_exact]
    simp only [fatDirGetChildNTraced, if_pos hroot, Option.map_eq_some_iff]
    constructor
    · rintro ⟨fuel, onWay, visited, answer, ⟨r, hvisits, heq⟩, halong⟩
      cases heq
      exact ⟨fuel, visited, answer, hvisits, halong⟩
    · rintro ⟨fuel, visited, answer, hvisits, halong⟩
      exact ⟨fuel, [], visited, answer, ⟨_, hvisits, rfl⟩, halong⟩
  · have hself := matching_self
      (fun (path : CStr) offset => pathTurn (kindOf (v.fs m) offset) path offset)
    rw [ListingExact, ListingKept, if_neg hroot, LookupKept, ← stays_iff hself rfl]
    simp only [if_neg hroot, fatDirGetChildNTraced_iff hroot]
    constructor
    · rintro ⟨fuel, onWay, visited, answer, ⟨offset, hpath, hvisits⟩, found, halong, hchild, -⟩
      have honward := (loop_iff (pathLoop (v.fs m))).mp ⟨fuel, hpath⟩
      obtain ⟨c, rfl, rfl⟩ := same_answer hself rfl honward halong
      rw [Option.getD_some] at hchild
      refine ⟨⟨onWay, offset, some offset, honward, halong⟩, ?_⟩
      intro visited' offset' halong' hdir
      cases (along_unique halong' halong).2
      have hslots := sub_ne_nil d halong hdir
      rcases hvisits with ⟨start, -, hdoor, hvisits⟩ | ⟨-, hnil, -⟩
      · exact ⟨start, hdoor, child_exact.mp ⟨fuel, visited, answer, hvisits, hchild hdir⟩⟩
      · obtain ⟨child, hempty, -⟩ := hchild hdir
        rw [hnil] at hempty
        cases hslots' : d.sub offset with
        | nil => exact absurd hslots' hslots
        | cons a slots =>
          rw [hslots'] at hempty
          cases hempty
    · rintro ⟨⟨onWay, offset, found, honward, halong⟩, hkept⟩
      obtain ⟨fuel, hpath⟩ := (loop_iff (pathLoop (v.fs m))).mpr honward
      obtain ⟨c, rfl, rfl⟩ := same_answer hself rfl honward halong
      by_cases hdir : IsDirAt (v.fs m) offset
      · obtain ⟨start, hdoor, hchild⟩ := hkept onWay offset halong hdir
        obtain ⟨fuel', visited, answer, hvisits, hchild'⟩ := child_exact.mpr hchild
        exact ⟨max fuel fuel', onWay, visited, answer,
          ⟨offset, loop_mono (pathLoop (v.fs m)) (le_max_left _ _) hpath,
            .inl ⟨start, hdir, hdoor,
              loop_mono (childLoop (v.fs m) childNum) (le_max_right _ _) hvisits⟩⟩,
          some offset, halong, fun _ => hchild', fun hno => absurd hdir hno⟩
      · exact ⟨fuel, onWay, [], none, ⟨offset, hpath, .inr ⟨.inl hdir, rfl, rfl⟩⟩, some offset,
          halong, fun hyes => absurd hyes hdir, fun _ => ⟨rfl, rfl⟩⟩

end Exact

/-! ### Ends -/

theorem lookup_ends (fs : Fat) (path : CStr) :
    (∃ fuel offset, fatGetFileDirEntryOffsetFromPathKStr fs fuel path = some offset) ↔
      LookupEnds fs path := by
  simp only [fatGetFileDirEntryOffsetFromPathKStr, ← fatPathVisits_answer, Option.map_eq_some_iff]
  constructor
  · rintro ⟨fuel, offset, ⟨visited, offset'⟩, hvisits, rfl⟩
    exact ⟨visited, offset', (loop_iff (pathLoop fs)).mp ⟨fuel, hvisits⟩⟩
  · rintro ⟨visited, offset, honward⟩
    obtain ⟨fuel, hvisits⟩ := (loop_iff (pathLoop fs)).mpr honward
    exact ⟨fuel, offset, _, hvisits, rfl⟩

theorem listing_ends (fs : Fat) (path : CStr) (childNum : ℕ) :
    (∃ fuel name, fatDirGetChildN fs fuel path childNum = some name) ↔
      ListingEnds fs path childNum := by
  have htraced : (∃ fuel name, fatDirGetChildN fs fuel path childNum = some name) ↔
      ∃ fuel onWay visited answer,
        fatDirGetChildNTraced fs fuel path childNum = some (onWay, visited, answer) := by
    simp only [← fatDirGetChildNTraced_answer, Option.map_eq_some_iff]
    constructor
    · rintro ⟨fuel, name, ⟨onWay, visited, answer⟩, h, -⟩
      exact ⟨fuel, onWay, visited, answer, h⟩
    · rintro ⟨fuel, onWay, visited, answer, h⟩
      exact ⟨fuel, answer, _, h, rfl⟩
  rw [htraced, ListingEnds]
  by_cases hroot : kstrStrlen path = 0
  · rw [if_pos hroot]
    simp only [fatDirGetChildNTraced, if_pos hroot, Option.map_eq_some_iff]
    constructor
    · rintro ⟨fuel, onWay, visited, answer, r, hvisits, heq⟩
      cases heq
      exact ⟨visited, answer, (loop_iff (childLoop fs childNum)).mp ⟨fuel, hvisits⟩⟩
    · rintro ⟨visited, answer, honward⟩
      obtain ⟨fuel, hvisits⟩ := (loop_iff (childLoop fs childNum)).mpr honward
      exact ⟨fuel, [], visited, answer, _, hvisits, rfl⟩
  · rw [if_neg hroot]
    simp only [fatDirGetChildNTraced_iff hroot]
    constructor
    · rintro ⟨fuel, onWay, visited, answer, offset, hpath, hvisits⟩
      refine ⟨onWay, offset, (loop_iff (pathLoop fs)).mp ⟨fuel, hpath⟩, ?_⟩
      intro hdir start hdoor
      rcases hvisits with ⟨start', -, hdoor', hvisits⟩ | ⟨hno, -⟩
      · cases hdoor.symm.trans hdoor'
        exact ⟨visited, answer, (loop_iff (childLoop fs childNum)).mp ⟨fuel, hvisits⟩⟩
      · rcases hno with hno | hno
        · exact absurd hdir hno
        · cases hno.symm.trans hdoor
    · rintro ⟨onWay, offset, honward, hends⟩
      obtain ⟨fuel, hpath⟩ := (loop_iff (pathLoop fs)).mpr honward
      by_cases hdir : IsDirAt fs offset
      · cases hdoor : entryDoor fs offset with
        | none =>
          exact ⟨fuel, onWay, [], none, offset, hpath, .inr ⟨.inr hdoor, rfl, rfl⟩⟩
        | some start =>
          obtain ⟨visited, answer, hchild⟩ := hends hdir start hdoor
          obtain ⟨fuel', hvisits⟩ := (loop_iff (childLoop fs childNum)).mpr hchild
          exact ⟨max fuel fuel', onWay, visited, answer, offset,
            loop_mono (pathLoop fs) (le_max_left _ _) hpath,
            .inl ⟨start, hdir, hdoor, loop_mono (childLoop fs childNum) (le_max_right _ _) hvisits⟩⟩
      · exact ⟨fuel, onWay, [], none, offset, hpath, .inr ⟨.inl hdir, rfl, rfl⟩⟩

/-- Slots that are all passed over never end a loop. -/
theorem never_ends {σ β : Type} {fs : Fat} (turn : SlotKind → σ → ℕ → Turn σ β)
    (hturn : ∀ s offset, ∃ t, turn .skipped s offset = .goOn t)
    (hskipped : ∀ offset < 4294967296, offset%32 = 0 → kindOf fs offset = .skipped)
    {s : σ} {offset : ℕ} {visited : List ℕ} {answer : β}
    (h : Onward nextSlot (entryDoor fs) (fun s offset => turn (kindOf fs offset) s offset) s offset
      visited answer) (hlt : offset < 4294967296) (halign : offset%32 = 0) : False := by
  induction h with
  | goOn _ _ ih =>
    apply ih (Nat.mod_lt _ (by decide))
    rw [nextSlot, u32]
    omega
  | enter hstep =>
    rename_i s t a b visited answer _ _ _
    obtain ⟨t', ht⟩ := hturn s a
    rw [hskipped _ hlt halign, ht] at hstep
    cases hstep
  | stop hstep =>
    rename_i s a answer
    obtain ⟨t', ht⟩ := hturn s a
    rw [hskipped _ hlt halign, ht] at hstep
    cases hstep

/-- The root directory fills one sector. -/
def fullRootVolume : FatVolume where
  type := .fat16
  bytesPerSector := 512
  sectorsPerCluster := 1
  fatSector := 1
  rootDirSector := 2
  firstDataSector := 3
  clusters := 1
  size := 2048
  type_read := fat16_read
  sector_legal := sector_512
  cluster_legal := cluster_one
  cluster_max := cluster_small
  fatSector_lt := fatSector_one
  clusters_top := by decide
  table_room := by decide
  data_room := by decide

/-- Its 16 slots, and all that is behind them, look like deleted entries. -/
def fullRoot : Image := fun a => if a = 17 then 16 else if a = 18 then 0 else 0xE5

theorem fullRoot_skipped {offset : ℕ} (hlt : offset < 4294967296) (halign : offset%32 = 0) :
    kindOf (fullRootVolume.fs fullRoot) offset = .skipped := by
  have hread : ∀ addr len, (fullRootVolume.fs fullRoot).readFunctor addr len =
      slice fullRoot addr (min len (2048-addr)) := fun _ _ => rfl
  by_cases hin : offset < 2048
  · have hbyte : fullRoot offset = 0xE5 := by
      rw [fullRoot, if_neg (by omega), if_neg (by omega)]
    have hname : fatReadDirEntryName (fullRootVolume.fs fullRoot) 0 offset = some .unused := by
      have hslice : fatRead (fullRootVolume.fs fullRoot) offset 11 = slice fullRoot offset 11 := by
        rw [fatRead, hread, u32_of_lt hlt, Nat.min_eq_left (by omega)]
      rw [fatReadDirEntryName, hslice, slice_succ fullRoot offset 10, hbyte]
      simp
    rw [kindOf_eq hname, classify]
  · have hempty : ∀ addr len, 2048 ≤ addr → addr < 4294967296 →
        fatRead (fullRootVolume.fs fullRoot) addr len = [] := by
      intro addr len hle hlt
      rw [fatRead, hread, u32_of_lt hlt, Nat.sub_eq_zero_of_le hle, Nat.min_zero]
      rfl
    have hname : fatReadDirEntryName (fullRootVolume.fs fullRoot) 0 offset = some .error := by
      rw [fatReadDirEntryName, hempty _ _ (by omega) hlt]
      rfl
    have hattributes : fatReadDirEntryAttributes (fullRootVolume.fs fullRoot) offset = none := by
      rw [fatReadDirEntryAttributes, fatRead8, hempty _ _ (by omega) (by omega)]
    rw [kindOf_eq hname, hattributes, classify]

def fullRootSlots : List ℕ := (List.range 16).map (fun i => 2*512+32*i)

theorem fullRootSlots_spec {offset : ℕ} (h : offset ∈ fullRootSlots) :
    offset ≠ 0 ∧ offset < 4294967296 ∧ offset%32 = 0 := by
  obtain ⟨i, hi, rfl⟩ := List.mem_map.mp h
  have hlt := List.mem_range.mp hi
  omega

theorem fullRoot_directory {slots : List ℕ}
    (h : DirectoryOf (kindOf (fullRootVolume.fs fullRoot)) fullRootSlots (fun _ => []) slots) :
    slots = fullRootSlots := by
  induction h with
  | root => rfl
  | sub _ hentry _ ih =>
    obtain ⟨-, hlt, halign⟩ := fullRootSlots_spec (ih ▸ entryOf_mem hentry)
    cases (fullRoot_skipped hlt halign).symm.trans hentry.entry

theorem fullRoot_no_entry {slots : List ℕ} {offset : ℕ} {name : List UInt8} {attributes : ℕ}
    (hdir : DirectoryOf (kindOf (fullRootVolume.fs fullRoot)) fullRootSlots (fun _ => []) slots) :
    ¬ EntryOf (kindOf (fullRootVolume.fs fullRoot)) slots offset name attributes := by
  intro hentry
  obtain ⟨-, hlt, halign⟩ := fullRootSlots_spec (fullRoot_directory hdir ▸ entryOf_mem hentry)
  cases (fullRoot_skipped hlt halign).symm.trans hentry.entry

def fullRootDirectories : FatDirectories fullRootVolume fullRoot where
  rootSector := 2
  root := fullRootSlots
  sub _ := []
  mounted := rfl
  root_fat16 _ := ⟨by decide, rfl⟩
  root_fat32 h := by cases h
  sub_slots slots offset name attributes hdir hentry := absurd hentry (fullRoot_no_entry hdir)
  apart slots offset offset' name attributes attributes' hdir hentry :=
    absurd hentry (fullRoot_no_entry hdir)
  slashless slots offset name attributes hdir hentry := absurd hentry (fullRoot_no_entry hdir)
  nonzero slots hdir hzero :=
    (fullRootSlots_spec (fullRoot_directory hdir ▸ hzero)).1 rfl

end ArduinoOS.Kernel
