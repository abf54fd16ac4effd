import Mathlib.Data.List.Basic
import Mathlib.Tactic.Common

/-!
# Strings in bounded buffers

The string functions of C on an array of known size. Touching a byte outside
the array is a trap. A terminator at a known place keeps the functions that
read in front of it, and where each write ends decides whether it stays.
-/

set_option autoImplicit false

namespace ArduinoOS.CBuffer

abbrev Buffer := List UInt8

inductive Trap
  | outOfBounds
  | diverges
  deriving DecidableEq, Repr

def get (b : Buffer) (i : ℕ) : Except Trap UInt8 :=
  match b[i]? with
  | some c => .ok c
  | none => .error .outOfBounds

def put (b : Buffer) (i : ℕ) (c : UInt8) : Except Trap Buffer :=
  if i < b.length then .ok (b.set i c) else .error .outOfBounds

/-- The number of bytes in front of the terminator. -/
def scan : List UInt8 → Except Trap ℕ
  | [] => .error .outOfBounds
  | c::rest => if c = 0 then .ok 0 else (scan rest).map (fun n => n+1)

def strlen (b : Buffer) (i : ℕ) : Except Trap ℕ := scan (b.drop i)

/-- The first place of a character that is not the terminator. -/
def scanFor (c : UInt8) : List UInt8 → Except Trap (Option ℕ)
  | [] => .error .outOfBounds
  | x::rest =>
      if x = c then .ok (some 0)
      else if x = 0 then .ok none
      else (scanFor c rest).map (fun n => n.map (fun n => n+1))

def strchr (b : Buffer) (i : ℕ) (c : UInt8) : Except Trap (Option ℕ) :=
  (scanFor c (b.drop i)).map (fun n => n.map (fun n => i+n))

/-- Bytes placed at `i`. -/
def memcpy (b : Buffer) (i : ℕ) (data : List UInt8) : Except Trap Buffer :=
  if i+data.length ≤ b.length then .ok (b.take i++(data++b.drop (i+data.length)))
  else .error .outOfBounds

/-- The bytes from `i` on, as they are read. -/
def slice (b : Buffer) (i len : ℕ) : Except Trap (List UInt8) :=
  if i+len ≤ b.length then .ok ((b.drop i).take len) else .error .outOfBounds

def memmove (b : Buffer) (dst src len : ℕ) : Except Trap Buffer := do
  let data ← slice b src len
  memcpy b dst data

/-- The bytes of the string at `i`, with the terminator. -/
def stringAt (b : Buffer) (i : ℕ) : Except Trap (List UInt8) := do
  let n ← strlen b i
  slice b i (n+1)

def strcpy (b : Buffer) (src : Buffer) (i : ℕ) : Except Trap Buffer := do
  let data ← stringAt src i
  memcpy b 0 data

/-- A string, given with its terminator, goes behind the one that is there. -/
def strcat (b : Buffer) (data : List UInt8) : Except Trap Buffer := do
  let n ← strlen b 0
  memcpy b n data

/-- Comparison with a constant, which stops at the first difference. -/
def matchesAt (b : Buffer) : ℕ → List UInt8 → Except Trap Bool
  | _, [] => .ok true
  | i, c::cs => do
      let x ← get b i
      if x = c then matchesAt b (i+1) cs else .ok false

/-- The first place from `i` on where the constant stands. -/
def strstr (b : Buffer) (pattern : List UInt8) (i : ℕ) : ℕ → Except Trap (Option ℕ)
  | 0 => .error .outOfBounds
  | left+1 => do
      let x ← get b i
      if x = 0 then .ok none
      else do
        let found ← matchesAt b i pattern
        if found then .ok (some i) else strstr b pattern (i+1) left

theorem ok_bind {α β : Type} (a : α) (f : α → Except Trap β) : (Except.ok a >>= f) = f a := rfl

/-! ### Reading in front of a terminator -/

theorem scan_ok {s : List UInt8} {n : ℕ} (hz : s[n]? = some 0) :
    ∃ k ≤ n, scan s = .ok k ∧ s[k]? = some 0 ∧ ∀ j < k, s[j]? ≠ some 0 := by
  induction s generalizing n with
  | nil => cases hz
  | cons c rest ih =>
    by_cases hc : c = 0
    · exact ⟨0, Nat.zero_le n, by rw [scan, if_pos hc], by rw [List.getElem?_cons_zero, hc],
        fun j hj => absurd hj (Nat.not_lt_zero j)⟩
    · cases n with
      | zero =>
        rw [List.getElem?_cons_zero] at hz
        exact absurd (Option.some.inj hz) hc
      | succ n =>
        obtain ⟨k, hk, hscan, hend, hbefore⟩ := ih (by rwa [List.getElem?_cons_succ] at hz)
        refine ⟨k+1, by omega, by rw [scan, if_neg hc, hscan]; rfl, by simpa using hend,
          fun j hj => ?_⟩
        cases j with
        | zero =>
          rw [List.getElem?_cons_zero]
          exact fun h => hc (Option.some.inj h)
        | succ j =>
          rw [List.getElem?_cons_succ]
          exact hbefore j (by omega)

theorem scanFor_ok {s : List UInt8} {n : ℕ} (hz : s[n]? = some 0) (c : UInt8) :
    ∃ r, scanFor c s = .ok r ∧ ∀ k, r = some k → k ≤ n ∧ s[k]? = some c ∧
      ∀ j < k, s[j]? ≠ some 0 := by
  induction s generalizing n with
  | nil => cases hz
  | cons x rest ih =>
    rw [scanFor]
    by_cases hx : x = c
    · refine ⟨some 0, by rw [if_pos hx], fun k hk => ?_⟩
      cases hk
      exact ⟨Nat.zero_le n, by rw [List.getElem?_cons_zero, hx],
        fun j hj => absurd hj (Nat.not_lt_zero j)⟩
    · rw [if_neg hx]
      by_cases hzero : x = 0
      · exact ⟨none, by rw [if_pos hzero], fun k hk => nomatch hk⟩
      · rw [if_neg hzero]
        cases n with
        | zero =>
          rw [List.getElem?_cons_zero] at hz
          exact absurd (Option.some.inj hz) hzero
        | succ n =>
          obtain ⟨r, hr, hall⟩ := ih (by rwa [List.getElem?_cons_succ] at hz)
          refine ⟨r.map (fun n => n+1), by rw [hr]; rfl, fun k hk => ?_⟩
          obtain ⟨j, rfl, rfl⟩ := Option.map_eq_some_iff.mp hk
          obtain ⟨hle, hfound, hbefore⟩ := hall j rfl
          refine ⟨by omega, by rw [List.getElem?_cons_succ, hfound], fun i hi => ?_⟩
          cases i with
          | zero =>
            rw [List.getElem?_cons_zero]
            exact fun h => hzero (Option.some.inj h)
          | succ i =>
            rw [List.getElem?_cons_succ]
            exact hbefore i (by omega)

section Reading

variable {b : Buffer} {n i : ℕ}

theorem lt_of_terminator (hz : b[n]? = some 0) : n < b.length := by
  by_contra h
  rw [List.getElem?_eq_none (by omega)] at hz
  cases hz

theorem drop_terminator (hz : b[n]? = some 0) (hi : i ≤ n) : (b.drop i)[n-i]? = some 0 := by
  rw [List.getElem?_drop, Nat.add_sub_cancel' hi, hz]

theorem get_ok (hi : i < b.length) : ∃ x, get b i = .ok x ∧ b[i]? = some x :=
  ⟨b[i], by rw [get, List.getElem?_eq_getElem hi], List.getElem?_eq_getElem hi⟩

theorem strlen_ok (hz : b[n]? = some 0) (hi : i ≤ n) :
    ∃ k, strlen b i = .ok k ∧ i+k ≤ n ∧ b[i+k]? = some 0 ∧ ∀ j < k, b[i+j]? ≠ some 0 := by
  obtain ⟨k, hk, hscan, hend, hbefore⟩ := scan_ok (drop_terminator hz hi)
  rw [List.getElem?_drop] at hend
  exact ⟨k, hscan, by omega, hend, fun j hj => by
    rw [← List.getElem?_drop]
    exact hbefore j hj⟩

theorem strlen_eq {k : ℕ} (hend : b[i+k]? = some 0) (hbefore : ∀ j < k, b[i+j]? ≠ some 0) :
    strlen b i = .ok k := by
  obtain ⟨k', hlen, hle, hend', hbefore'⟩ := strlen_ok hend (Nat.le_add_right i k)
  rw [hlen]
  by_cases hlt : k' < k
  · exact absurd hend' (hbefore k' hlt)
  · congr 1
    omega

/-- A string without a terminator runs out of its buffer. -/
theorem strlen_overruns (h : ∀ j : ℕ, i ≤ j → b[j]? ≠ some 0) : strlen b i = .error .outOfBounds := by
  have hscan : ∀ s : List UInt8, (∀ j : ℕ, s[j]? ≠ some 0) → scan s = .error .outOfBounds := by
    intro s hs
    induction s with
    | nil => rfl
    | cons c rest ih =>
      have hc : c ≠ 0 := by
        have h0 := hs 0
        rw [List.getElem?_cons_zero] at h0
        exact fun h => h0 (congrArg some h)
      rw [scan, if_neg hc, ih (fun j => by
        have hj := hs (j+1)
        rwa [List.getElem?_cons_succ] at hj)]
      rfl
  refine hscan _ (fun j => ?_)
  rw [List.getElem?_drop]
  exact h (i+j) (Nat.le_add_right i j)

theorem strchr_ok (hz : b[n]? = some 0) (hi : i ≤ n) (c : UInt8) :
    ∃ r, strchr b i c = .ok r ∧ ∀ k, r = some k → i ≤ k ∧ k ≤ n ∧ b[k]? = some c ∧
      ∀ j, i ≤ j → j < k → b[j]? ≠ some 0 := by
  obtain ⟨r, hr, hall⟩ := scanFor_ok (drop_terminator hz hi) c
  refine ⟨r.map (fun n => i+n), by rw [strchr, hr]; rfl, fun k hk => ?_⟩
  obtain ⟨j, rfl, rfl⟩ := Option.map_eq_some_iff.mp hk
  obtain ⟨hle, hfound, hbefore⟩ := hall j rfl
  rw [List.getElem?_drop] at hfound
  refine ⟨Nat.le_add_right i j, by omega, hfound, fun k hk hlt => ?_⟩
  have h := hbefore (k-i) (by omega)
  rwa [List.getElem?_drop, Nat.add_sub_cancel' hk] at h

/-- Only the last character of the constant may be the terminator. -/
theorem matchesAt_ok (hz : b[n]? = some 0) (hi : i ≤ n) (pattern : List UInt8)
    (hp : ∀ c ∈ pattern.dropLast, c ≠ 0) :
    ∃ r, matchesAt b i pattern = .ok r ∧
      (r = true → ∀ k < pattern.length, b[i+k]? = pattern[k]?) := by
  induction pattern generalizing i with
  | nil => exact ⟨true, rfl, fun _ k hk => absurd hk (Nat.not_lt_zero k)⟩
  | cons c cs ih =>
    obtain ⟨x, hget, hx⟩ := get_ok (Nat.lt_of_le_of_lt hi (lt_of_terminator hz))
    have hunfold : matchesAt b i (c::cs) =
        if x = c then matchesAt b (i+1) cs else .ok false := by
      rw [matchesAt, hget]
      rfl
    rw [hunfold]
    by_cases hxc : x = c
    · rw [if_pos hxc]
      have hrest : ∃ r, matchesAt b (i+1) cs = .ok r ∧
          (r = true → ∀ k < cs.length, b[i+1+k]? = cs[k]?) := by
        cases cs with
        | nil => exact ⟨true, rfl, fun _ k hk => absurd hk (Nat.not_lt_zero k)⟩
        | cons c' cs' =>
          have hne : c ≠ 0 := hp c (by rw [List.dropLast_cons_cons]; exact List.mem_cons_self)
          have hin : i ≠ n := by
            rintro rfl
            rw [hz] at hx
            exact hne (hxc ▸ (Option.some.inj hx).symm)
          exact ih (by omega) (fun c'' hc => hp c'' (by
            rw [List.dropLast_cons_cons]
            exact List.mem_cons_of_mem _ hc))
      obtain ⟨r, hr, hall⟩ := hrest
      refine ⟨r, hr, fun htrue k hk => ?_⟩
      cases k with
      | zero => rw [Nat.add_zero, hx, hxc, List.getElem?_cons_zero]
      | succ k =>
        rw [List.getElem?_cons_succ, ← hall htrue k (by simpa using hk)]
        congr 1
        omega
    · exact ⟨false, by rw [if_neg hxc], fun h => nomatch h⟩

theorem matchesAt_true {b : Buffer} {i : ℕ} {pattern : List UInt8}
    (h : ∀ k < pattern.length, b[i+k]? = pattern[k]?) : matchesAt b i pattern = .ok true := by
  induction pattern generalizing i with
  | nil => rfl
  | cons c cs ih =>
    have hhead := h 0 (by simp)
    rw [Nat.add_zero, List.getElem?_cons_zero] at hhead
    have hget : get b i = .ok c := by rw [get, hhead]
    rw [matchesAt, hget, ok_bind, if_pos rfl]
    refine ih (fun k hk => ?_)
    have hk' := h (k+1) (by simpa using hk)
    rwa [List.getElem?_cons_succ, ← Nat.add_assoc, Nat.add_right_comm] at hk'

theorem strstr_ok (hz : b[n]? = some 0) (hi : i ≤ n) (pattern : List UInt8)
    (hp : ∀ c ∈ pattern, c ≠ 0) (left : ℕ) (hleft : n < i+left) :
    ∃ r, strstr b pattern i left = .ok r ∧ ∀ j, r = some j →
      i ≤ j ∧ j+pattern.length ≤ n ∧ ∀ k < pattern.length, b[j+k]? = pattern[k]? := by
  induction left generalizing i with
  | zero => omega
  | succ left ih =>
    obtain ⟨x, hget, hx⟩ := get_ok (Nat.lt_of_le_of_lt hi (lt_of_terminator hz))
    obtain ⟨found, hmatch, hall⟩ := matchesAt_ok hz hi pattern
      (fun c hc => hp c (List.dropLast_subset _ hc))
    have hunfold : strstr b pattern i (left+1) =
        if x = 0 then .ok none
        else if found then .ok (some i) else strstr b pattern (i+1) left := by
      rw [strstr, hget]
      change (if x = 0 then _ else _) = _
      rw [hmatch]
      rfl
    rw [hunfold]
    by_cases hzero : x = 0
    · exact ⟨none, by rw [if_pos hzero], fun j hj => nomatch hj⟩
    · have hin : i ≠ n := by
        rintro rfl
        rw [hz] at hx
        exact hzero (Option.some.inj hx).symm
      rw [if_neg hzero]
      cases found with
      | true =>
        refine ⟨some i, rfl, fun j hj => ?_⟩
        cases hj
        refine ⟨Nat.le_refl i, ?_, hall rfl⟩
        -- the terminator is not one of the characters of the constant
        by_contra hend
        have h := hall rfl (n-i) (by omega)
        rw [Nat.add_sub_cancel' hi, hz] at h
        exact hp 0 (List.mem_of_getElem? h.symm) rfl
      | false =>
        obtain ⟨r, hr, hfound⟩ := ih (i := i+1) (by omega) (by omega)
        refine ⟨r, hr, fun j hj => ?_⟩
        obtain ⟨hle, hrest⟩ := hfound j hj
        exact ⟨by omega, hrest⟩

/-- The search does not go past a place where the constant stands. -/
theorem strstr_finds (hz : b[n]? = some 0) (pattern : List UInt8) (hp : ∀ c ∈ pattern, c ≠ 0)
    (left : ℕ) (hleft : n < i+left) {j : ℕ} (hij : i ≤ j) (hjn : j ≤ n)
    (hmatch : ∀ k < pattern.length, b[j+k]? = pattern[k]?)
    (hlive : ∀ k, i ≤ k → k ≤ j → b[k]? ≠ some 0) :
    ∃ j' ≤ j, strstr b pattern i left = .ok (some j') := by
  induction left generalizing i with
  | zero => omega
  | succ left ih =>
    obtain ⟨x, hget, hx⟩ := get_ok (Nat.lt_of_le_of_lt (by omega : i ≤ n) (lt_of_terminator hz))
    obtain ⟨found, hm, _⟩ := matchesAt_ok hz (by omega : i ≤ n) pattern
      (fun c hc => hp c (List.dropLast_subset _ hc))
    have hne : x ≠ 0 := by
      rintro rfl
      exact hlive i (Nat.le_refl i) hij hx
    rw [strstr, hget, ok_bind, if_neg hne, hm, ok_bind]
    cases found with
    | true => exact ⟨i, hij, rfl⟩
    | false =>
      have hij' : i ≠ j := by
        rintro rfl
        rw [matchesAt_true hmatch] at hm
        cases hm
      exact ih (by omega) (by omega) (fun k hk => hlive k (by omega))

end Reading

/-! ### Writing -/

section Writing

variable {b : Buffer}

theorem memcpy_ok {i : ℕ} {data : List UInt8} (h : i+data.length ≤ b.length) :
    ∃ b', memcpy b i data = .ok b' ∧ b'.length = b.length ∧
      (∀ k < data.length, b'[i+k]? = data[k]?) ∧
      ∀ k, k < i ∨ i+data.length ≤ k → b'[k]? = b[k]? := by
  have htake : (b.take i).length = i := by
    rw [List.length_take]
    omega
  refine ⟨_, by rw [memcpy, if_pos h], ?_, fun k hk => ?_, fun k hk => ?_⟩
  · rw [List.length_append, List.length_append, List.length_drop, htake]
    omega
  · rw [List.getElem?_append_right (by omega), htake, Nat.add_sub_cancel_left,
      List.getElem?_append_left hk]
  · rcases hk with hk | hk
    · rw [List.getElem?_append_left (by omega), List.getElem?_take, if_pos hk]
    · rw [List.getElem?_append_right (by omega), htake, List.getElem?_append_right (by omega),
        List.getElem?_drop]
      congr 1
      omega

theorem put_ok {i : ℕ} (h : i < b.length) (c : UInt8) : put b i c = .ok (b.set i c) := if_pos h

theorem memcpy_nil {i : ℕ} (h : i ≤ b.length) : memcpy b i [] = .ok b := by
  rw [memcpy, List.length_nil, Nat.add_zero, if_pos h, List.nil_append, List.take_append_drop]

/-- Bytes placed one after the other. -/
theorem memcpy_cons {i : ℕ} {c : UInt8} {data : List UInt8}
    (h : i+(c::data).length ≤ b.length) :
    memcpy (b.set i c) (i+1) data = memcpy b i (c::data) := by
  rw [List.length_cons] at h
  have htake : (b.set i c).take (i+1) = b.take i++[c] := by
    rw [List.take_add_one, List.getElem?_set_self (by omega), List.take_set_of_le (by omega)]
    rfl
  rw [memcpy, memcpy, List.length_set, if_pos (by omega), List.length_cons, if_pos (by omega),
    htake, List.drop_set_of_lt (by omega), List.append_assoc]
  have hplace : i+1+data.length = i+(data.length+1) := by omega
  rw [hplace]
  rfl

theorem slice_ok {i len : ℕ} (h : i+len ≤ b.length) :
    ∃ data, slice b i len = .ok data ∧ data.length = len ∧
      ∀ k < len, data[k]? = b[i+k]? := by
  refine ⟨_, by rw [slice, if_pos h], ?_, fun k hk => ?_⟩
  · rw [List.length_take, List.length_drop]
    omega
  · rw [List.getElem?_take, if_pos hk, List.getElem?_drop]

theorem memmove_ok {dst src len : ℕ} (hsrc : src+len ≤ b.length) (hdst : dst+len ≤ b.length) :
    ∃ b', memmove b dst src len = .ok b' ∧ b'.length = b.length ∧
      (∀ k < len, b'[dst+k]? = b[src+k]?) ∧
      ∀ k, k < dst ∨ dst+len ≤ k → b'[k]? = b[k]? := by
  obtain ⟨data, hslice, hlen, hdata⟩ := slice_ok hsrc
  have hfits : dst+data.length ≤ b.length := by omega
  obtain ⟨b', hcpy, hlength, hin, hout⟩ := memcpy_ok hfits
  refine ⟨b', by rw [memmove, hslice]; exact hcpy, hlength, fun k hk => ?_, fun k hk => ?_⟩
  · rw [hin k (by omega), hdata k hk]
  · exact hout k (by omega)

end Writing

/-! ### Strings -/

/-- A string of at most `n` characters. -/
def EndsBy (b : Buffer) (n : ℕ) : Prop := ∃ k ≤ n, b[k]? = some 0

/-- `k` characters and a terminator. -/
structure IsString (data : List UInt8) (k : ℕ) : Prop where
  length : data.length = k+1
  terminator : data[k]? = some 0

/-- A computation on buffers that does not leave them, and what its answer has. -/
def Keeps {α : Type} (p : α → Prop) : Except Trap α → Prop
  | .ok a => p a
  | .error t => t = .diverges

theorem keeps_bind {α β : Type} {p : α → Prop} {q : β → Prop} {x : Except Trap α}
    {f : α → Except Trap β} (hx : Keeps p x) (hf : ∀ a, p a → Keeps q (f a)) :
    Keeps q (x >>= f) := by
  cases x with
  | ok a => exact hf a hx
  | error t => exact hx

theorem keeps_of_ok {α : Type} {p : α → Prop} {x : Except Trap α} {a : α} (h : x = .ok a)
    (ha : p a) : Keeps p x := by
  rw [h]
  exact ha

section Strings

variable {b : Buffer} {n : ℕ}

theorem stringAt_ok (h : EndsBy b n) : ∃ data k, k ≤ n ∧ strlen b 0 = .ok k ∧
    stringAt b 0 = .ok data ∧ IsString data k ∧ (∀ j < k, data[j]? ≠ some 0) ∧
    data[0]? = b[0]? := by
  obtain ⟨e, he, hz⟩ := h
  obtain ⟨k, hk, hle, hend, hbefore⟩ := strlen_ok hz (Nat.zero_le e)
  simp only [Nat.zero_add] at hle hend hbefore
  have hin := lt_of_terminator hend
  obtain ⟨data, hslice, hlen, hdata⟩ := slice_ok (show 0+(k+1) ≤ b.length by omega)
  simp only [Nat.zero_add] at hdata
  refine ⟨data, k, by omega, hk, by rw [stringAt, hk]; exact hslice,
    ⟨hlen, by rw [hdata k (by omega), hend]⟩, fun j hj => ?_, hdata 0 (by omega)⟩
  rw [hdata j (by omega)]
  exact hbefore j hj

/-- A string placed at the start. -/
theorem memcpy_string {data : List UInt8} {k : ℕ} (hd : IsString data k) (hfits : k < b.length) :
    Keeps (fun b' => b'.length = b.length ∧ EndsBy b' k ∧ b'[0]? = data[0]?)
      (memcpy b 0 data) := by
  have hlen := hd.length
  obtain ⟨b', hcpy, hlength, hin, _⟩ := memcpy_ok (show 0+data.length ≤ b.length by omega)
  simp only [Nat.zero_add] at hin
  exact keeps_of_ok hcpy ⟨hlength,
    ⟨k, Nat.le_refl k, by rw [hin k (by omega), hd.terminator]⟩, hin 0 (by omega)⟩

theorem strcpy_keeps {src : Buffer} (h : EndsBy src n) (hfits : n < b.length) :
    Keeps (fun b' => b'.length = b.length ∧ EndsBy b' n ∧ b'[0]? = src[0]?)
      (strcpy b src 0) := by
  obtain ⟨data, k, hk, _, hstring, hd, _, hhead⟩ := stringAt_ok h
  rw [strcpy, hstring]
  change Keeps _ (memcpy b 0 data)
  have hcpy := memcpy_string (b := b) hd (by omega)
  cases hb : memcpy b 0 data with
  | error t =>
    rw [hb] at hcpy
    exact hcpy
  | ok b' =>
    rw [hb] at hcpy
    obtain ⟨hlen, ⟨e, he, hend⟩, hhead'⟩ := hcpy
    exact ⟨hlen, ⟨e, by omega, hend⟩, hhead'.trans hhead⟩

/-- A string behind one that is not empty. -/
theorem strcat_keeps {data : List UInt8} {k : ℕ} (h : EndsBy b n) (hhead : b[0]? ≠ some 0)
    (hd : IsString data k) (hfits : n+k < b.length) :
    Keeps (fun b' => b'.length = b.length ∧ EndsBy b' (n+k) ∧ b'[0]? = b[0]?)
      (strcat b data) := by
  obtain ⟨_, i, hi, hlen, _, hstring, _, hstart⟩ := stringAt_ok h
  have hpos : i ≠ 0 := by
    rintro rfl
    rw [← hstart, hstring.terminator] at hhead
    exact hhead rfl
  have hdlen := hd.length
  obtain ⟨b', hcpy, hlength, hin, hout⟩ := memcpy_ok (show i+data.length ≤ b.length by omega)
  refine keeps_of_ok (a := b') (by rw [strcat, hlen]; exact hcpy) ⟨hlength, ⟨i+k, by omega, ?_⟩,
    hout 0 (by omega)⟩
  rw [hin k (by omega), hd.terminator]

end Strings

end ArduinoOS.CBuffer
