import ArduinoOS.Lib.Bisection
import ArduinoOS.Minifs.Sizes
import ArduinoOS.Minifs.Steps

/-!
# Building volumes on the host

The builder formats an array, mounts it and copies the files of a host directory
into it. Without a size it doubles one until the files fit and then bisects. What
it writes holds the files of the directory and nothing else, and one block less
would not have done.
-/

set_option autoImplicit false

namespace ArduinoOS.MinifsBuilder
open ArduinoOS.ByteProgram ArduinoOS.Minifs ArduinoOS.Bisection

/-! ### The host directory -/

/-- What `stat` and `fopen` make of a name. -/
inductive HostFile
  | regular (content : List UInt8)
  | unreadable
  | directory
  | missing
  deriving DecidableEq

structure Dirent where
  d_name : CStr
  file : HostFile
  deriving DecidableEq

def gitignore : CStr := CStr.lit ".gitignore"

/-! ### Adding files -/

/-- One byte at a time until the end of the host's file. -/
def miniFsExtraCopyFile (destPath : CStr) (offset : ℕ) : List UInt8 → Prog Bool
  | [] => pure true
  | value8::rest => do
      let n ← miniFsFileWrite ⟨true⟩ destPath offset [value8]
      if n ≠ 1 then pure false else miniFsExtraCopyFile destPath (u16 (offset+1)) rest

def miniFsExtraAddFile (destPath : CStr) (content : List UInt8) : Prog Bool := do
  let created ← miniFsFileCreate ⟨true⟩ destPath (u16 content.length)
  if created then miniFsExtraCopyFile destPath 0 content else pure false

def miniFsExtraAddEntries : List Dirent → Prog Bool
  | [] => pure true
  | dp::rest =>
      if dp.d_name = gitignore then miniFsExtraAddEntries rest
      else
        match dp.file with
        | .missing => miniFsExtraAddEntries rest
        | .directory => miniFsExtraAddEntries rest
        | .unreadable => pure false
        | .regular content => do
            let added ← miniFsExtraAddFile dp.d_name content
            if added then miniFsExtraAddEntries rest else pure false

/-- The directory itself may fail to open. -/
def miniFsExtraAddDir : Option (List Dirent) → Prog Bool
  | none => pure false
  | some entries => miniFsExtraAddEntries entries

/-! ### Building -/

def MINIFSMINSIZE : ℕ := 128

def buildVolume (size : ℕ) (srcDir : Option (List Dirent)) : Prog Bool := do
  let formatted ← miniFsFormat size
  if formatted = false then pure false
  else do
    let mounted ← miniFsMountSafe
    if mounted = false then pure false else miniFsExtraAddDir srcDir

/-- The bytes that are written out, or the failure to build; no answer at all
when an assertion fails or an access leaves the array. -/
def buildVolumeExact (size : ℕ) (srcDir : Option (List Dirent)) : Option (Option (List UInt8)) :=
  ((buildVolume size srcDir).exec MINIFSMAXSIZE (fun _ => 255)).map
    (fun r => if r.1 then some (slice r.2 0 size) else none)

def buildSucceeds (srcDir : Option (List Dirent)) (size : ℕ) : Option Bool :=
  (buildVolumeExact size srcDir).map Option.isSome

/-- The build at the least size between one that is too small and a good one. -/
def buildShrunk (srcDir : Option (List Dirent)) (size : ℕ) : Option (Option (List UInt8)) := do
  let minGoodSize ← bisect (buildSucceeds srcDir) MINIFSFACTOR 9 (u16 size)
    (if size > MINIFSMINSIZE then u16 (size/2) else MINIFSMINSIZE)
  buildVolumeExact minGoodSize srcDir

/-- The sizes are doubled up to the largest; after it, the last try is made again
for its messages. -/
def buildVolumeMinLoop (srcDir : Option (List Dirent)) (size : ℕ) :
    ℕ → Option (Option (List UInt8))
  | 0 => none
  | fuel+1 =>
      if size ≤ MINIFSMAXSIZE then do
        let built ← buildVolumeExact (u16 size) srcDir
        if built.isSome then do
          let final ← buildShrunk srcDir size
          if final.isSome then pure final else buildVolumeMinLoop srcDir (size*2) fuel
        else buildVolumeMinLoop srcDir (size*2) fuel
      else buildVolumeExact MINIFSMAXSIZE srcDir

def buildVolumeMin (srcDir : Option (List Dirent)) : Option (Option (List UInt8)) :=
  buildVolumeMinLoop srcDir MINIFSMINSIZE 10

/-! ### One file -/

/-- The file, with its name, is one that a region can describe. -/
def Describable (dp : Dirent) : Prop :=
  ∀ content, dp.file = .regular content → neededLength dp.d_name content.length ≤ 255*MINIFSFACTOR

theorem patch_next (pre rest : List UInt8) (old value8 : UInt8) :
    patch (pre++old::rest) pre.length [value8] = pre++value8::rest := by
  have hroom : (pre++old::rest).length-pre.length = rest.length+1 := by simp
  rw [patch, hroom, List.take_left, List.take_of_length_le (by simp), List.length_singleton,
    List.drop_append, List.drop_of_length_le (by omega), Nat.add_sub_cancel_left]
  rfl

/-- The map after a file, and after another content for the same file. -/
theorem set_set (map : FileMap) (filename : CStr) (c c' : Option (List UInt8)) :
    (map.set filename c).set filename c' = map.set filename c' := by
  funext n
  rw [FileMap.set, FileMap.set, FileMap.set]
  split <;> rfl

section Files

variable {size : ℕ}

theorem exec_write {m : Image} {v : Volume} (h : Holds size m v) (filename : CStr) (offset : ℕ)
    (data : List UInt8) {old : List UInt8} (hfile : v.fileMap filename = some old) :
    ∃ m' v', (miniFsFileWrite ⟨true⟩ filename offset data).exec size m =
        some (min data.length (old.length-offset), m') ∧ Holds size m' v' ∧
      v'.fileMap = v.fileMap.set filename (some (patch old offset data)) := by
  obtain ⟨n, m', v', hrun, h', hstep⟩ : ∃ n m' v', (miniFsFileWrite ⟨true⟩ filename offset
      data).exec size m = some (n, m') ∧ Holds size m' v' ∧
        Step true (.write filename offset data) n v.fileMap v'.fileMap :=
    exec_call h (.write filename offset data) trivial
  rcases step_write hstep with ⟨habsent, -, -⟩ | ⟨old', hold, hn, hmap⟩
  · rw [habsent] at hfile
    cases hfile
  · rw [hfile, Option.some.injEq] at hold
    rw [hn, ← hold] at hrun
    rw [← hold] at hmap
    exact ⟨m', v', hrun, h', hmap⟩

/-- What is left of the file is written over what the new file holds. -/
theorem exec_copyFile (destPath : CStr) (rest pre tail : List UInt8) {m : Image} {v : Volume}
    (h : Holds size m v) (hfile : v.fileMap destPath = some (pre++tail))
    (hlen : tail.length = rest.length) (hsmall : pre.length+rest.length < 65536) :
    ∃ m' v', (miniFsExtraCopyFile destPath pre.length rest).exec size m = some (true, m') ∧
      Holds size m' v' ∧ v'.fileMap = v.fileMap.set destPath (some (pre++rest)) := by
  induction rest generalizing pre tail m v with
  | nil =>
    rw [List.length_nil, List.length_eq_zero_iff] at hlen
    rw [hlen] at hfile
    exact ⟨m, v, rfl, h, (fileMap_set_same hfile).symm⟩
  | cons value8 rest ih =>
    cases tail with
    | nil => simp at hlen
    | cons old tail =>
      rw [List.length_cons, List.length_cons, Nat.add_right_cancel_iff] at hlen
      rw [List.length_cons] at hsmall
      obtain ⟨m₁, v₁, hrun, h₁, hmap₁⟩ := exec_write h destPath pre.length [value8] hfile
      have hone : min [value8].length ((pre++old::tail).length-pre.length) = 1 := by
        rw [List.length_singleton, List.length_append, List.length_cons]
        omega
      rw [hone] at hrun
      have hfile₁ : v₁.fileMap destPath = some ((pre++[value8])++tail) := by
        rw [hmap₁, FileMap.set, if_pos rfl, patch_next, List.append_assoc]
        rfl
      have hpre : (pre++[value8]).length = pre.length+1 := by simp
      obtain ⟨m', v', hrest, h', hmap'⟩ := ih (pre++[value8]) tail h₁ hfile₁ hlen (by omega)
      refine ⟨m', v', ?_, h', ?_⟩
      · rw [miniFsExtraCopyFile, Prog.exec_bind_of _ _ _ _ _ _ hrun, if_neg (by decide),
          u16_of_lt (by omega), ← hpre]
        exact hrest
      · rw [hmap', hmap₁, set_set, List.append_assoc]
        rfl

/-- A file is added whole, or it was there or had no room. -/
theorem exec_addFile (destPath : CStr) (content : List UInt8) {m : Image} {v : Volume}
    (h : Holds size m v) (hb : neededLength destPath content.length ≤ 255*MINIFSFACTOR) :
    ∃ b m' v', (miniFsExtraAddFile destPath content).exec size m = some (b, m') ∧
      Holds size m' v' ∧ (b = true → v.fileMap destPath = none ∧
        v'.fileMap = v.fileMap.set destPath (some content)) := by
  have hsmall : content.length < 65536 := by
    rw [neededLength, show MINIFSFACTOR = 128 from rfl] at hb
    omega
  have hfits : (Op.create destPath content.length).Bounded := hb
  obtain ⟨n, m₁, v₁, hcall, h₁, hstep⟩ : ∃ n m' v', ((Op.create destPath content.length).call
      ⟨true⟩).exec size m = some (n, m') ∧ Holds size m' v' ∧
        Step true (.create destPath content.length) n v.fileMap v'.fileMap :=
    exec_call h _ hfits
  obtain ⟨b, m₂, hcreate, hn⟩ := (Prog.exec_bind_some size _ _ _ _ _).mp hcall
  rw [Prog.exec_pure, Option.some.injEq, Prod.mk.injEq] at hn
  rw [hn.2] at hcreate
  rw [miniFsExtraAddFile, u16_of_lt hsmall, Prog.exec_bind_of _ _ _ _ _ _ hcreate]
  cases b with
  | false => exact ⟨false, m₁, v₁, rfl, h₁, fun hb => by cases hb⟩
  | true =>
    rcases step_create hstep with ⟨hzero, -⟩ | ⟨new, hfresh, hlen, -, hmap₁⟩
    · rw [← hn.1] at hzero
      cases hzero
    · have hfile₁ : v₁.fileMap destPath = some ([]++new) := by
        rw [hmap₁, FileMap.set, if_pos rfl]
        rfl
      obtain ⟨m', v', hrun, h', hmap'⟩ := exec_copyFile destPath content [] new h₁ hfile₁ hlen
        (by simpa using hsmall)
      refine ⟨true, m', v', hrun, h', fun _ => ⟨hfresh, ?_⟩⟩
      rw [hmap', hmap₁, set_set]
      rfl

/-! ### The directory -/

/-- The map has the files of the entries and no others. -/
def HasFiles (map : FileMap) (entries : List Dirent) : Prop :=
  ∀ name content, map name = some content ↔
    name ≠ gitignore ∧ (⟨name, .regular content⟩ : Dirent) ∈ entries

theorem hasFiles_skip {map : FileMap} {entries : List Dirent} {dp : Dirent}
    (h : HasFiles map entries)
    (hskip : dp.d_name = gitignore ∨ ∀ content, dp.file ≠ .regular content) :
    HasFiles map (entries++[dp]) := by
  intro name content
  rw [h, List.mem_append, List.mem_singleton]
  refine and_congr_right (fun hname => ⟨Or.inl, ?_⟩)
  rintro (hmem | rfl)
  · exact hmem
  · rcases hskip with hgit | hfile
    · exact absurd hgit hname
    · exact absurd rfl (hfile content)

theorem hasFiles_add {map : FileMap} {entries : List Dirent} {name : CStr} {content : List UInt8}
    (h : HasFiles map entries) (hname : name ≠ gitignore) (hfresh : map name = none) :
    HasFiles (map.set name (some content)) (entries++[⟨name, .regular content⟩]) := by
  intro n c
  rw [FileMap.set, List.mem_append, List.mem_singleton]
  by_cases hn : n = name
  · subst hn
    rw [if_pos rfl]
    constructor
    · intro hc
      cases hc
      exact ⟨hname, Or.inr rfl⟩
    · rintro ⟨-, hmem | heq⟩
      · have hold := (h n c).mpr ⟨hname, hmem⟩
        rw [hfresh] at hold
        cases hold
      · cases heq
        rfl
  · rw [if_neg hn, h]
    refine and_congr_right (fun _ => ⟨Or.inl, ?_⟩)
    rintro (hmem | heq)
    · exact hmem
    · cases heq
      exact absurd rfl hn

theorem exec_addEntries (entries pre : List Dirent) {m : Image} {v : Volume}
    (h : Holds size m v) (hpre : HasFiles v.fileMap pre)
    (hb : ∀ dp ∈ entries, dp.d_name ≠ gitignore → Describable dp) :
    ∃ b m' v', (miniFsExtraAddEntries entries).exec size m = some (b, m') ∧ Holds size m' v' ∧
      (b = true → HasFiles v'.fileMap (pre++entries)) := by
  induction entries generalizing pre m v with
  | nil => exact ⟨true, m, v, rfl, h, fun _ => by rw [List.append_nil]; exact hpre⟩
  | cons dp rest ih =>
    have hrest : ∀ dp ∈ rest, dp.d_name ≠ gitignore → Describable dp := fun d hd =>
      hb d (List.mem_cons_of_mem _ hd)
    have hsplit : pre++dp::rest = pre++[dp]++rest := by simp
    rw [miniFsExtraAddEntries, hsplit]
    by_cases hgit : dp.d_name = gitignore
    · rw [if_pos hgit]
      exact ih (pre++[dp]) h (hasFiles_skip hpre (Or.inl hgit)) hrest
    · rw [if_neg hgit]
      obtain ⟨name, file⟩ := dp
      cases file with
      | missing => exact ih _ h (hasFiles_skip hpre (Or.inr (fun _ hc => by cases hc))) hrest
      | directory => exact ih _ h (hasFiles_skip hpre (Or.inr (fun _ hc => by cases hc))) hrest
      | unreadable => exact ⟨false, m, v, rfl, h, fun hb => by cases hb⟩
      | regular content =>
        have hfits := hb ⟨name, .regular content⟩ List.mem_cons_self hgit content rfl
        obtain ⟨b, m₁, v₁, hadd, h₁, hadded⟩ := exec_addFile name content h hfits
        dsimp only
        rw [Prog.exec_bind_of _ _ _ _ _ _ hadd]
        cases b with
        | false => exact ⟨false, m₁, v₁, rfl, h₁, fun hb => by cases hb⟩
        | true =>
          obtain ⟨hfresh, hmap₁⟩ := hadded rfl
          have hpre₁ : HasFiles v₁.fileMap (pre++[⟨name, .regular content⟩]) := by
            rw [hmap₁]
            exact hasFiles_add hpre hgit hfresh
          rw [if_pos rfl]
          exact ih _ h₁ hpre₁ hrest

end Files

/-! ### One size -/

/-- A larger array makes no difference to accesses that stay in the smaller one. -/
theorem exec_larger {α : Type} (x : Prog α) {size size' : ℕ} (hle : size ≤ size') {m : Image}
    {r : α×Image} (h : x.exec size m = some r) : x.exec size' m = some r := by
  induction x generalizing m with
  | ret a => exact h
  | abort => cases h
  | read addr len k ih =>
    rw [Prog.exec] at h ⊢
    split at h
    case isTrue hin =>
      rw [if_pos (by omega)]
      exact ih _ _ h
    case isFalse => cases h
  | write addr data k ih =>
    rw [Prog.exec] at h ⊢
    split at h
    case isTrue hin =>
      rw [if_pos (by omega)]
      exact ih _ h
    case isFalse => cases h

/-- The bytes as an image, zeros behind them. -/
def imageOf (data : List UInt8) : Image := fun a => data.getD a 0

/-- The bytes of a volume that holds the files of the directory. -/
structure BuiltFrom (entries : List Dirent) (data : List UInt8) : Prop where
  small : data.length ≤ MINIFSMAXSIZE
  volume : ∃ v, Holds data.length (imageOf data) v ∧ HasFiles v.fileMap entries

/-- The files that are to be added are ones that a region can describe. -/
def DirDescribable (srcDir : Option (List Dirent)) : Prop :=
  ∀ entries, srcDir = some entries → ∀ dp ∈ entries, dp.d_name ≠ gitignore → Describable dp

section Sizes

variable {srcDir : Option (List Dirent)} (hdir : DirDescribable srcDir)
include hdir

theorem exec_buildVolume (m : Image) {size : ℕ} (hmin : MINIFSMINSIZE ≤ size)
    (hmax : size ≤ MINIFSMAXSIZE) :
    ∃ b m' v, (buildVolume size srcDir).exec size m = some (b, m') ∧ Holds size m' v ∧
      (b = true → ∃ entries, srcDir = some entries ∧ HasFiles v.fileMap entries) := by
  rw [MINIFSMINSIZE] at hmin
  have hlt : size < 32896 := Nat.lt_of_le_of_lt hmax (by decide)
  obtain ⟨m₀, v₀, hformat, h₀, hempty⟩ := exec_format m size hmin hlt (Nat.le_refl size)
  rw [buildVolume, Prog.exec_bind_of _ _ _ _ _ _ hformat, if_neg (by decide), miniFsMountSafe,
    Prog.exec_bind_of _ _ _ _ _ _ (exec_isConsistent h₀), if_neg (by decide)]
  cases srcDir with
  | none => exact ⟨false, m₀, v₀, rfl, h₀, fun hb => by cases hb⟩
  | some entries =>
    have hnone : HasFiles v₀.fileMap [] := by
      intro name content
      rw [fileMap_none (by rw [hempty]; exact fun f hf => by cases hf)]
      exact ⟨fun hsome => (by cases hsome), fun hmem => (by cases hmem.2)⟩
    obtain ⟨b, m', v, hrun, h', hfiles⟩ := exec_addEntries entries [] h₀ hnone
      (hdir entries rfl)
    exact ⟨b, m', v, hrun, h', fun hb => ⟨entries, rfl, hfiles hb⟩⟩

theorem buildVolumeExact_spec {size : ℕ} (hmin : MINIFSMINSIZE ≤ size)
    (hmax : size ≤ MINIFSMAXSIZE) :
    buildVolumeExact size srcDir = some none ∨ ∃ entries data, srcDir = some entries ∧
      buildVolumeExact size srcDir = some (some data) ∧ data.length = size ∧
      BuiltFrom entries data := by
  obtain ⟨b, m', v, hrun, h', hfiles⟩ := exec_buildVolume hdir (fun _ => 255) hmin hmax
  have hbuild : buildVolumeExact size srcDir =
      some (if b then some (slice m' 0 size) else none) := by
    rw [buildVolumeExact, exec_larger _ hmax hrun]
    rfl
  cases b with
  | false => exact Or.inl hbuild
  | true =>
    obtain ⟨entries, hentries, hall⟩ := hfiles rfl
    refine Or.inr ⟨entries, slice m' 0 size, hentries, hbuild, slice_length _ _ _, ?_⟩
    constructor
    · rw [slice_length]
      exact hmax
    · rw [slice_length]
      refine ⟨v, holds_congr h' (fun a ha => ?_), hall⟩
      rw [imageOf, List.getD_eq_getElem?_getD, slice_getElem? m' 0 size a ha, Nat.zero_add]
      rfl

/-! ### The smallest size -/

theorem buildSucceeds_total {size : ℕ} (hmin : MINIFSMINSIZE ≤ size)
    (hmax : size ≤ MINIFSMAXSIZE) : ∃ b, buildSucceeds srcDir size = some b := by
  rcases buildVolumeExact_spec hdir hmin hmax with hb | ⟨_, data, _, hb, _, _⟩
  · exact ⟨false, by rw [buildSucceeds, hb]; rfl⟩
  · exact ⟨true, by rw [buildSucceeds, hb]; rfl⟩

theorem buildSucceeds_true {size : ℕ} (hmin : MINIFSMINSIZE ≤ size)
    (hmax : size ≤ MINIFSMAXSIZE) (h : buildSucceeds srcDir size = some true) :
    ∃ entries data, srcDir = some entries ∧ buildVolumeExact size srcDir = some (some data) ∧
      data.length = size ∧ BuiltFrom entries data := by
  rcases buildVolumeExact_spec hdir hmin hmax with hb | hb
  · rw [buildSucceeds, hb] at h
    cases h
  · exact hb

omit hdir in
theorem buildSucceeds_false {size : ℕ} (h : buildSucceeds srcDir size = some false) :
    buildVolumeExact size srcDir = some none := by
  rw [buildSucceeds, Option.map_eq_some_iff] at h
  obtain ⟨r, hr, hnone⟩ := h
  cases r with
  | none => exact hr
  | some data => cases hnone

/-- What is built at the size that is found: a block less does not do. -/
def LeastBuilt (srcDir : Option (List Dirent)) (r : Option (Option (List UInt8))) : Prop :=
  ∃ entries data, srcDir = some entries ∧ r = some (some data) ∧ BuiltFrom entries data ∧
    (data.length = MINIFSMINSIZE ∨
      buildVolumeExact (data.length-MINIFSFACTOR) srcDir = some none)

/-- Where a size succeeds and half of it fails, the size found between them succeeds
and fails a block before. -/
theorem buildShrunk_succ {k : ℕ} (hk : k < 8)
    (hgood : buildSucceeds srcDir (MINIFSMINSIZE*2^(k+1)) = some true)
    (hbad : buildSucceeds srcDir (MINIFSMINSIZE*2^k) = some false) :
    LeastBuilt srcDir (buildShrunk srcDir (MINIFSMINSIZE*2^(k+1))) := by
  have hpow : 2^k ≤ 128 := Nat.pow_le_pow_right (by decide) (show k ≤ 7 by omega)
  have hpos : 1 ≤ 2^k := Nat.one_le_two_pow
  have hmin : MINIFSMINSIZE = 128 := rfl
  have hmax : MINIFSMAXSIZE = 32768 := rfl
  have hfactor : MINIFSFACTOR = 128 := rfl
  have hdouble : MINIFSMINSIZE*2^(k+1) = MINIFSMINSIZE*2^k+2^k*MINIFSFACTOR := by
    rw [hmin, hfactor]
    ring
  have hin : ∀ j ≤ 2^k, MINIFSMINSIZE ≤ MINIFSMINSIZE*2^k+j*MINIFSFACTOR ∧
      MINIFSMINSIZE*2^k+j*MINIFSFACTOR ≤ MINIFSMAXSIZE := by
    intro j hj
    rw [hmin, hmax, hfactor]
    omega
  have hhalf : (MINIFSMINSIZE*2^k+2^k*MINIFSFACTOR)/2 = MINIFSMINSIZE*2^k := by
    rw [hmin, hfactor]
    omega
  have hlarge : MINIFSMINSIZE*2^k+2^k*MINIFSFACTOR > MINIFSMINSIZE := by
    rw [hmin, hfactor]
    omega
  have hwhole := (hin (2^k) (Nat.le_refl _)).2
  rw [hdouble] at hgood ⊢
  obtain ⟨j, hj, hjk, hrun, hfound, hbefore⟩ := bisect_spec k 9 (MINIFSMINSIZE*2^k)
    (by decide) (by omega)
    (fun j _ hjk => buildSucceeds_total hdir (hin j hjk).1 (hin j hjk).2) hgood hbad
  obtain ⟨entries, data, hentries, hdata, hlen, hbuilt⟩ :=
    buildSucceeds_true hdir (hin j hjk).1 (hin j hjk).2 hfound
  have hback : data.length-MINIFSFACTOR = MINIFSMINSIZE*2^k+(j-1)*MINIFSFACTOR := by
    rw [hlen, hmin, hfactor]
    omega
  refine ⟨entries, data, hentries, ?_, hbuilt, Or.inr ?_⟩
  · rw [buildShrunk, if_pos hlarge, hhalf, u16_of_lt (by omega), u16_of_lt (by omega), hrun]
    exact hdata
  · rw [hback]
    exact buildSucceeds_false hbefore

theorem buildShrunk_zero (hgood : buildSucceeds srcDir MINIFSMINSIZE = some true) :
    LeastBuilt srcDir (buildShrunk srcDir MINIFSMINSIZE) := by
  obtain ⟨entries, data, hentries, hdata, hlen, hbuilt⟩ :=
    buildSucceeds_true hdir (Nat.le_refl _) (by decide) hgood
  refine ⟨entries, data, hentries, ?_, hbuilt, Or.inl hlen⟩
  rw [buildShrunk, if_neg (Nat.lt_irrefl _), show u16 MINIFSMINSIZE = MINIFSMINSIZE from rfl,
    bisect_near (by decide), Option.bind_eq_bind, Option.bind_some]
  exact hdata

/-- The induction is on the sizes that are left to double. -/
theorem buildVolumeMinLoop_spec (left k : ℕ) (hk : k+left = 9)
    (hfail : ∀ j < k, buildVolumeExact (MINIFSMINSIZE*2^j) srcDir = some none) :
    LeastBuilt srcDir (buildVolumeMinLoop srcDir (MINIFSMINSIZE*2^k) (left+1)) ∨
      (buildVolumeMinLoop srcDir (MINIFSMINSIZE*2^k) (left+1) = some none ∧
        ∀ j ≤ 8, buildVolumeExact (MINIFSMINSIZE*2^j) srcDir = some none) := by
  induction left generalizing k with
  | zero =>
    obtain rfl : k = 9 := by omega
    have hlast : buildVolumeExact MINIFSMAXSIZE srcDir = some none := hfail 8 (by omega)
    rw [buildVolumeMinLoop, if_neg (by decide)]
    exact Or.inr ⟨hlast, fun j hj => hfail j (by omega)⟩
  | succ left ih =>
    have hpow : 2^k ≤ 256 := Nat.pow_le_pow_right (by decide) (show k ≤ 8 by omega)
    have hpos : 1 ≤ 2^k := Nat.one_le_two_pow
    have hmax : MINIFSMAXSIZE = 32768 := rfl
    have hlow : MINIFSMINSIZE ≤ MINIFSMINSIZE*2^k := Nat.le_mul_of_pos_right _ hpos
    have hhigh : MINIFSMINSIZE*2^k ≤ MINIFSMAXSIZE := by
      rw [hmax, MINIFSMINSIZE]
      omega
    have hsmall : u16 (MINIFSMINSIZE*2^k) = MINIFSMINSIZE*2^k := u16_of_lt (by omega)
    rw [buildVolumeMinLoop, if_pos hhigh, hsmall]
    rcases buildVolumeExact_spec hdir hlow hhigh with hnone | ⟨entries, data, hentries, hdata, hlen, hbuilt⟩
    · rw [hnone, show MINIFSMINSIZE*2^k*2 = MINIFSMINSIZE*2^(k+1) by ring]
      apply ih (k+1) (by omega)
      intro j hj
      rcases Nat.lt_succ_iff_lt_or_eq.mp hj with hlt | rfl
      · exact hfail j hlt
      · exact hnone
    · have hgood : buildSucceeds srcDir (MINIFSMINSIZE*2^k) = some true := by
        rw [buildSucceeds, hdata]
        rfl
      have hleast : LeastBuilt srcDir (buildShrunk srcDir (MINIFSMINSIZE*2^k)) := by
        cases k with
        | zero => exact buildShrunk_zero hdir hgood
        | succ k =>
          have hbad : buildSucceeds srcDir (MINIFSMINSIZE*2^k) = some false := by
            rw [buildSucceeds, hfail k (by omega)]
            rfl
          exact buildShrunk_succ hdir (by omega) hgood hbad
      obtain ⟨entries', data', hentries', hshrunk, hrest⟩ := hleast
      rw [hdata]
      refine Or.inl ⟨entries', data', hentries', ?_, hrest⟩
      rw [Option.bind_eq_bind, Option.bind_some, if_pos Option.isSome_some, hshrunk,
        Option.bind_some, if_pos Option.isSome_some]
      rfl

end Sizes

/-- Without a size, the builder writes a volume with the files of the directory and
no others, in the least size at which the build succeeds, or it fails at every
power of two. No assertion fails and no access leaves the array. -/
theorem buildVolumeMin_least (srcDir : Option (List Dirent)) (hdir : DirDescribable srcDir) :
    LeastBuilt srcDir (buildVolumeMin srcDir) ∨ (buildVolumeMin srcDir = some none ∧
      ∀ k ≤ 8, buildVolumeExact (MINIFSMINSIZE*2^k) srcDir = some none) :=
  buildVolumeMinLoop_spec hdir 9 0 (by omega) (fun j hj => absurd hj (Nat.not_lt_zero j))

def sampleDir : Option (List Dirent) :=
  some [⟨CStr.lit "a", .regular [1, 2, 3]⟩, ⟨gitignore, .regular []⟩, ⟨CStr.lit "d", .directory⟩]

theorem buildVolumeMin_least_sample :
    LeastBuilt sampleDir (buildVolumeMin sampleDir) ∨ (buildVolumeMin sampleDir = some none ∧
      ∀ k ≤ 8, buildVolumeExact (MINIFSMINSIZE*2^k) sampleDir = some none) := by
  apply buildVolumeMin_least
  intro entries hentries dp hdp hname content hcontent
  cases hentries
  simp only [List.mem_cons, List.not_mem_nil, or_false] at hdp
  rcases hdp with rfl | rfl | rfl
  · cases hcontent
    decide
  · exact absurd rfl hname
  · cases hcontent

end ArduinoOS.MinifsBuilder
