import ArduinoOS.CStr

/-!
# Strings of the kernel in memory

A string of the kernel is a small record: its type, and a pointer to characters
in memory or in the program's own memory, or to another such record together
with an offset. The two builds pack offset and pointer differently: an address
of the Arduino has 16 bits, and the offset takes the other 8 of the pointer.
-/

set_option autoImplicit false

namespace ArduinoOS.Kernel.KStrings

/-! ### The record -/

inductive Build
  | pc
  | arduino
  deriving DecidableEq

/-- The width of addresses, `uintptr_t` and `size_t`. -/
def Build.pointerBits : Build → ℕ
  | .pc => 64
  | .arduino => 16

def Build.unsignedBits : Build → ℕ
  | .pc => 32
  | .arduino => 16

def Build.sizeT (build : Build) (n : ℕ) : ℕ := n % 2^build.pointerBits

inductive KStrType
  | null
  | progmem
  | static
  | heap
  | offset
  deriving DecidableEq

def KStrSpareBits : ℕ := 5
def KStrArduinoPtrBits : ℕ := 24
def KStrOffsetBits : ℕ := KStrArduinoPtrBits-16
def KStrOffsetMax : ℕ := 1 <<< KStrOffsetBits

/-- The Arduino has no field for the offset, and 24 bits for the pointer. -/
structure KStr where
  type : KStrType
  spare : BitVec KStrSpareBits
  offset : UInt8
  ptr : ℕ

section Packing

variable (build : Build)

def kstrOffsetGetOffset (str : KStr) : ℕ :=
  match build with
  | .arduino => (str.ptr >>> 16) &&& 0xFF
  | .pc => str.offset.toNat

def kstrOffsetGetSrc (str : KStr) : ℕ :=
  match build with
  | .arduino => str.ptr &&& 0xFFFF
  | .pc => str.ptr

/-- The offset as it is stored, at most the maximum. -/
def clampOffset (offset : ℕ) : ℕ := if offset > KStrOffsetMax then KStrOffsetMax else offset

def kstrAllocOffset (src offset : ℕ) : KStr :=
  match build with
  | .arduino =>
      { type := .offset, spare := 0, offset := 0
        ptr := ((src &&& 0xFFFF) ||| (clampOffset offset <<< 16)) % 2^KStrArduinoPtrBits }
  | .pc => { type := .offset, spare := 0, offset := UInt8.ofNat (clampOffset offset), ptr := src }

/-- What the allocation asserts; the build for the PC asserts nothing. -/
def kstrAllocOffsetAsserts (src offset : ℕ) : Prop :=
  match build with
  | .arduino =>
      kstrOffsetGetOffset build (kstrAllocOffset build src offset) = clampOffset offset ∧
        kstrOffsetGetSrc build (kstrAllocOffset build src offset) = src
  | .pc => True

end Packing

/-! ### The functions -/

/-- What pointers lead to: records, characters, and characters of the program's memory. -/
structure Machine where
  build : Build
  kstr : ℕ → KStr
  ram : ℕ → UInt8
  progmem : ℕ → UInt8

/-- The comparisons of the C library, as functions of the two strings. -/
structure CLibrary where
  strcmp (a b : CStr) : ℤ
  strcmp_PF (a b : CStr) : ℤ
  strncmp (a b : CStr) (n : ℕ) : ℤ
  strncmp_PF (a b : CStr) (n : ℕ) : ℤ

/-- The string that begins at an address. -/
def stringAt (region : ℕ → UInt8) (addr : ℕ) : ℕ → Option CStr
  | 0 => none
  | fuel+1 =>
      if h : region addr = 0 then some []
      else (stringAt region (addr+1) fuel).map (⟨region addr, h⟩::·)

section Calls

variable (C : CLibrary) (m : Machine)

/-- `depth` bounds how many offset strings lie on each other. -/
def kstrGetChar : ℕ → KStr → ℕ → Option UInt8
  | 0, _, _ => none
  | depth+1, str, n =>
      match str.type with
      | .null => some 0
      | .progmem =>
          match m.build with
          | .arduino => some (m.progmem (str.ptr+n))
          | .pc => some 0
      | .static | .heap => some (m.ram (m.build.sizeT str.ptr+n))
      | .offset =>
          kstrGetChar depth (m.kstr (kstrOffsetGetSrc m.build str))
            (m.build.sizeT (n+kstrOffsetGetOffset m.build str))

def kstrStrlen (fuel : ℕ) : ℕ → KStr → Option ℕ
  | 0, _ => none
  | depth+1, kstr =>
      match kstr.type with
      | .null => some 0
      | .progmem =>
          match m.build with
          | .arduino => (stringAt m.progmem kstr.ptr fuel).map (fun s => u16 s.length)
          | .pc => some 0
      | .static | .heap =>
          (stringAt m.ram (m.build.sizeT kstr.ptr) fuel).map (fun s => u16 s.length)
      | .offset =>
          (kstrStrlen fuel depth (m.kstr (kstrOffsetGetSrc m.build kstr))).map
            (fun len : ℕ => wrap16 ((len : ℤ)-kstrOffsetGetOffset m.build kstr))

/-- The loop down to the base string, which adds the offsets up. -/
def kstrResolve : ℕ → KStr → ℕ → Option (KStr × ℕ)
  | 0, _, _ => none
  | depth+1, str, offset =>
      if str.type = .offset then
        kstrResolve depth (m.kstr (kstrOffsetGetSrc m.build str))
          (m.build.sizeT (offset+kstrOffsetGetOffset m.build str))
      else some (str, offset)

/-- The address of a character of a base string that is in memory. -/
def baseAddr (str : KStr) (offset : ℕ) : ℕ := m.build.sizeT (str.ptr+offset)

/-- The bytes that are written to the buffer. -/
def kstrStrcpy (fuel depth : ℕ) (kstr : KStr) : Option (List UInt8) := do
  let (str, offset) ← kstrResolve m depth kstr 0
  match str.type with
  | .null => some []
  | .progmem =>
      match m.build with
      | .arduino => (stringAt m.progmem (str.ptr+offset) fuel).map CStr.bytes
      | .pc => some []
  | .static | .heap => (stringAt m.ram (baseAddr m str offset) fuel).map CStr.bytes
  | .offset => none

/-- Both comparisons with a string of C; `far` compares with the program's memory. -/
def compareWith (near far : CStr → ℤ) (fuel depth : ℕ) (b : KStr) : Option ℤ := do
  let (str, offset) ← kstrResolve m depth b 0
  match str.type with
  | .null => some 0
  | .progmem =>
      match m.build with
      | .arduino => (stringAt m.progmem (str.ptr+offset) fuel).map far
      | .pc => some 0
  | .static | .heap => (stringAt m.ram (baseAddr m str offset) fuel).map near
  | .offset => none

def kstrStrcmp (fuel depth : ℕ) (a : CStr) (b : KStr) : Option ℤ :=
  compareWith m (C.strcmp a) (C.strcmp_PF a) fuel depth b

def kstrStrncmp (fuel depth : ℕ) (a : CStr) (b : KStr) (n : ℕ) : Option ℤ :=
  compareWith m (fun b => C.strncmp a b n) (fun b => C.strncmp_PF a b n) fuel depth b

def kstrIsNull (str : KStr) : Bool := decide (str.type = .null)

/-- The loop over both strings; `within` says whether it goes on at an index. -/
def doubleCompareLoop (within : ℕ → Bool) (getA getB : ℕ → Option UInt8) (i : ℕ) : ℕ → Option ℤ
  | 0 => none
  | fuel+1 =>
      if within i then do
        let aByte ← getA i
        let bByte ← getB i
        if aByte < bByte then some (-1)
        else if aByte > bByte then some 1
        else if aByte = 0 then some 0
        else doubleCompareLoop within getA getB (m.build.sizeT (i+1)) fuel
      else some 0

def kstrDoubleStrcmp (fuel depth : ℕ) (a b : KStr) : Option ℤ :=
  if kstrIsNull a || kstrIsNull b then some 0
  else doubleCompareLoop m (fun _ => true) (kstrGetChar m depth a) (kstrGetChar m depth b) 0 fuel

def kstrDoubleStrncmp (fuel depth : ℕ) (a b : KStr) (n : ℕ) : Option ℤ :=
  if kstrIsNull a || kstrIsNull b then some 0
  else doubleCompareLoop m (fun i => decide (i < n)) (kstrGetChar m depth a)
    (kstrGetChar m depth b) 0 fuel

/-- The loop over equal characters; the index has `bits` bits. -/
def matchLoop (bits : ℕ) (differ : UInt8 → UInt8 → Bool) (getA getB : ℕ → Option UInt8) (i : ℕ) :
    ℕ → Option ℕ
  | 0 => none
  | fuel+1 => do
      let aByte ← getA i
      let bByte ← getB i
      if aByte = 0 ∨ differ aByte bByte then some i
      else matchLoop bits differ getA getB ((i+1) % 2^bits) fuel

/-- A `char` is signed, a byte of the program's memory is not. -/
def charDiffers (a b : UInt8) : Bool := decide (a.toInt8.toInt ≠ b.toNat)

def byteDiffers (a b : UInt8) : Bool := decide (a ≠ b)

def kstrMatchLen (fuel depth : ℕ) (a : CStr) (b : KStr) : Option ℕ := do
  let (str, offset) ← kstrResolve m depth b 0
  match str.type with
  | .null => some 0
  | .progmem =>
      match m.build with
      | .arduino =>
          matchLoop m.build.pointerBits charDiffers (fun i => some (a.getChar i))
            (fun i => some (m.progmem (str.ptr+offset+i))) 0 fuel
      | .pc => some 0
  | .static | .heap =>
      matchLoop m.build.unsignedBits byteDiffers (fun i => some (a.getChar i))
        (fun i => some (m.ram (baseAddr m str offset+i))) 0 fuel
  | .offset => some 0

def kstrDoubleMatchLen (fuel depth : ℕ) (a b : KStr) : Option ℕ :=
  if kstrIsNull a || kstrIsNull b then some 0
  else (matchLoop m.build.pointerBits byteDiffers (kstrGetChar m depth a)
    (kstrGetChar m depth b) 0 fuel).map (· % 2^m.build.unsignedBits)

end Calls

end ArduinoOS.Kernel.KStrings
