import CmmEncrypt.Cursor
import Mathlib.Data.Vector.Basic

/-!
# Serialization primitives (`wire.rs`)

CompactSize, VARINT, length-prefixed bytes and LIMITED_STRING as the crate writes
them, and the two readers it has. A writer appends to the buffer it is given; a
reader takes a buffer and a cursor. Fixed-width integers are Lean's; lengths and
cursors (`usize`) are naturals, and `as u64` is `UInt64.ofNat`.
-/

namespace CmmEncrypt.Wire

open Cursor

abbrev Bytes := List UInt8

/-- Rust's `[u8; n]`. -/
abbrev ByteArr (n : Nat) := List.Vector UInt8 n

/-- Rust's `&[u8]`: no slice is longer than `isize::MAX`. -/
abbrev Slice := { bytes : Bytes // bytes.length < 2 ^ 63 }

/-- `str::as_bytes`. -/
def asBytes (s : String) : Bytes := s.toByteArray.data.toList

/-- A failed call either returns its error or panics. -/
inductive Fault (ε : Type) where
  | error (e : ε)
  | panic (message : String)
  deriving DecidableEq, Repr

def Fault.map {ε ε' : Type} (f : ε → ε') : Fault ε → Fault ε'
  | .error e => .error (f e)
  | .panic message => .panic message

/-- Code that mutates one byte buffer and may fail part of the way through. -/
abbrev Write (ε : Type) := EStateM (Fault ε) Bytes

/-- `Option::expect`. -/
def expect {ε α : Type} (o : Option α) (message : String) : Write ε α :=
  match o with
  | some a => pure a
  | none => throw (.panic message)

/-- `MAX_SIZE`: longer lengths are rejected on reading. -/
def MAX_SIZE : UInt64 := 0x02000000

inductive WireError where
  | unexpectedEof
  | nonCanonicalCompactSize
  | compactSizeTooLarge
  | varIntTooLarge
  | limitedStringTooLong (cap actual : Nat)
  deriving DecidableEq, Repr

/-! ## Little-endian integers -/

def leBytes : Nat → Nat → Bytes
  | 0, _ => []
  | k + 1, n => UInt8.ofNat n :: leBytes k (n / 256)

def ofLeBytes : Bytes → Nat
  | [] => 0
  | b :: rest => b.toNat + 256 * ofLeBytes rest

@[simp] theorem leBytes_length (k n : Nat) : (leBytes k n).length = k := by
  induction k generalizing n with
  | zero => rfl
  | succ k ih => simp [leBytes, ih]

theorem ofLeBytes_leBytes (k n : Nat) (fits : n < 256 ^ k) : ofLeBytes (leBytes k n) = n := by
  induction k generalizing n with
  | zero =>
    simp only [Nat.pow_zero] at fits
    simp [leBytes, ofLeBytes]
    omega
  | succ k ih =>
    rw [Nat.pow_succ] at fits
    have high := ih (n / 256) (Nat.div_lt_of_lt_mul (by omega))
    rw [leBytes, ofLeBytes, high, UInt8.toNat_ofNat']
    omega

def readU8 : Reader WireError UInt8 UInt8 := fun buf cursor =>
  match buf[cursor]? with
  | some b => .ok (b, cursor + 1)
  | none => .error .unexpectedEof

def readU16Le : Reader WireError UInt8 UInt16 := do
  let slice ← Reader.take .unexpectedEof 2
  pure (UInt16.ofNat (ofLeBytes slice))

def readU32Le : Reader WireError UInt8 UInt32 := do
  let slice ← Reader.take .unexpectedEof 4
  pure (UInt32.ofNat (ofLeBytes slice))

def readU64Le : Reader WireError UInt8 UInt64 := do
  let slice ← Reader.take .unexpectedEof 8
  pure (UInt64.ofNat (ofLeBytes slice))

/-! ## CompactSize -/

def writeCompactSize (buf : Bytes) (n : UInt64) : Bytes :=
  if n < 253 then buf ++ [n.toUInt8]
  else if n ≤ 0xFFFF then buf ++ [0xfd] ++ leBytes 2 n.toUInt16.toNat
  else if n ≤ 0xFFFFFFFF then buf ++ [0xfe] ++ leBytes 4 n.toUInt32.toNat
  else buf ++ [0xff] ++ leBytes 8 n.toNat

/-- The value behind the tag byte, before the size cap. -/
def readCompactSizeBody (tag : UInt8) : Reader WireError UInt8 UInt64 :=
  if tag < 253 then pure tag.toUInt64
  else if tag = 253 then do
    let v ← readU16Le
    if v < 253 then Reader.fail .nonCanonicalCompactSize else pure v.toUInt64
  else if tag = 254 then do
    let v ← readU32Le
    if v < 0x10000 then Reader.fail .nonCanonicalCompactSize else pure v.toUInt64
  else do
    let v ← readU64Le
    if v < 0x100000000 then Reader.fail .nonCanonicalCompactSize else pure v

def readCompactSize : Reader WireError UInt8 UInt64 := do
  let tag ← readU8
  let n ← readCompactSizeBody tag
  if n > MAX_SIZE then Reader.fail .compactSizeTooLarge else pure n

/-! ## VARINT -/

/-- The digit loop of `write_varint_u64`. `slots` counts the cells of the scratch array
from `len` on; an index past them is a panic. -/
def fillDigits : (slots : Nat) → (tmp : Bytes) → (len : Nat) → (n : UInt64) →
    Option (Bytes × Nat)
  | 0, _, _, _ => none
  | slots + 1, tmp, len, n =>
    let marker : UInt8 := if len ≠ 0 then 0x80 else 0x00
    let tmp := tmp.set len ((n &&& 0x7F).toUInt8 ||| marker)
    if n ≤ 0x7F then some (tmp, len) else fillDigits slots tmp (len + 1) ((n >>> 7) - 1)

/-- The output loop of `write_varint_u64`: `tmp[len]` down to `tmp[0]`. -/
def emitDigits (tmp : Bytes) : Nat → Bytes → Bytes
  | 0, buf => buf ++ [tmp.getD 0 0]
  | len + 1, buf => emitDigits tmp len (buf ++ [tmp.getD (len + 1) 0])

def writeVarintU64 (buf : Bytes) (n : UInt64) : Bytes :=
  match fillDigits 10 (List.replicate 10 0) 0 n with
  | some (tmp, len) => emitDigits tmp len buf
  | none => buf -- never taken: ten cells are enough for a `u64`

/-- `u64::MAX`. -/
def u64Max : UInt64 := 0xFFFFFFFFFFFFFFFF

def readVarintLoop : Bytes → UInt64 → Nat → Except WireError (UInt64 × Nat)
  | [], _, _ => .error .unexpectedEof
  | ch :: rest, n, cursor =>
    if n > u64Max >>> 7 then .error .varIntTooLarge
    else
      let n := (n <<< 7) ||| (ch &&& 0x7F).toUInt64
      if ch &&& 0x80 ≠ 0 then
        if n = u64Max then .error .varIntTooLarge
        else readVarintLoop rest (n + 1) (cursor + 1)
      else .ok (n, cursor + 1)

def readVarintU64 : Reader WireError UInt8 UInt64 := fun buf cursor =>
  readVarintLoop (buf.drop cursor) 0 cursor

/-! ## Length-prefixed bytes and LIMITED_STRING -/

def writeVarBytes (buf bytes : Bytes) : Bytes :=
  writeCompactSize buf (UInt64.ofNat bytes.length) ++ bytes

def writeLimitedString (s : String) (cap : Nat) : Write WireError Unit := do
  let bytes := asBytes s
  if bytes.length > cap then
    throw (.error (.limitedStringTooLong cap bytes.length))
  else
    modify (writeVarBytes · bytes)

end CmmEncrypt.Wire
