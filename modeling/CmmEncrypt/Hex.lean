import Mathlib.Data.List.Basic
import Mathlib.Tactic.Common
import Mathlib.Tactic.IntervalCases

/-!
# Hex digits

Two digits are a byte. Upper and lower case are read alike, so a text of digits is
read as the bytes whose digits it shows in lower case.
-/

namespace CmmEncrypt.Hex

def digit (c : Char) : Option Nat :=
  if '0' ≤ c ∧ c ≤ '9' then some (c.toNat - '0'.toNat)
  else if 'a' ≤ c ∧ c ≤ 'f' then some (c.toNat - 'a'.toNat + 10)
  else if 'A' ≤ c ∧ c ≤ 'F' then some (c.toNat - 'A'.toNat + 10)
  else none

def isDigit (c : Char) : Bool := (digit c).isSome

/-- The bytes of the longest prefix that consists of pairs of digits. -/
def decode : List Char → List UInt8
  | high :: low :: rest =>
    match digit high, digit low with
    | some h, some l => UInt8.ofNat (16 * h + l) :: decode rest
    | _, _ => []
  | _ => []

def encode (bytes : List UInt8) : List Char :=
  bytes.flatMap fun b => [Nat.digitChar (b.toNat / 16), Nat.digitChar (b.toNat % 16)]

theorem encode_nil : encode [] = [] := rfl

theorem encode_cons (b : UInt8) (bytes : List UInt8) :
    encode (b :: bytes) =
      Nat.digitChar (b.toNat / 16) :: Nat.digitChar (b.toNat % 16) :: encode bytes := rfl

/-- The digits by their code points. -/
theorem digit_eq_some_iff {c : Char} {n : Nat} :
    digit c = some n ↔
      (n < 10 ∧ c.toNat = n + 48) ∨
      (10 ≤ n ∧ n < 16 ∧ (c.toNat = n + 87 ∨ c.toNat = n + 55)) := by
  have order (a b : Char) : a ≤ b ↔ a.toNat ≤ b.toNat := Iff.rfl
  have zero : '0'.toNat = 48 := rfl
  have nine : '9'.toNat = 57 := rfl
  have a : 'a'.toNat = 97 := rfl
  have f : 'f'.toNat = 102 := rfl
  have A : 'A'.toNat = 65 := rfl
  have F : 'F'.toNat = 70 := rfl
  simp only [digit, order, zero, nine, a, f, A, F]
  split
  · rw [Option.some.injEq]
    omega
  · split
    · rw [Option.some.injEq]
      omega
    · split
      · rw [Option.some.injEq]
        omega
      · constructor
        · intro none
          cases none
        · intro some
          omega

theorem digitChar_toNat {n : Nat} (small : n < 16) :
    (Nat.digitChar n).toNat = if n < 10 then n + 48 else n + 87 := by
  interval_cases n <;> rfl

theorem toLower_toNat (c : Char) :
    c.toLower.toNat = if 65 ≤ c.toNat ∧ c.toNat ≤ 90 then c.toNat + 32 else c.toNat := by
  have upper : c.val ≥ 'A'.val ∧ c.val ≤ 'Z'.val ↔ 65 ≤ c.toNat ∧ c.toNat ≤ 90 := Iff.rfl
  by_cases range : 65 ≤ c.toNat ∧ c.toNat ≤ 90
  · have lower : c.toLower.toNat = (c.val + ('a'.val - 'A'.val)).toNat :=
      congrArg Char.toNat (dif_pos (upper.mpr range))
    have offset : ('a'.val - 'A'.val).toNat = 32 := rfl
    rw [if_pos range, lower]
    change 65 ≤ c.val.toNat ∧ c.val.toNat ≤ 90 at range
    change _ = c.val.toNat + 32
    rw [UInt32.toNat_add, offset]
    omega
  · have same : c.toLower = c := dif_neg (fun inside => range (upper.mp inside))
    rw [if_neg range, same]

/-- A character is a digit if it is the digit in one of the cases. -/
theorem digit_eq_some_iff_toLower {c : Char} {n : Nat} :
    digit c = some n ↔ n < 16 ∧ c.toLower = Nat.digitChar n := by
  rw [digit_eq_some_iff, ← Char.toNat_inj, toLower_toNat]
  constructor
  · intro point
    have small : n < 16 := by omega
    refine ⟨small, ?_⟩
    rw [digitChar_toNat small]
    split <;> split <;> omega
  · rintro ⟨small, point⟩
    rw [digitChar_toNat small] at point
    split at point <;> split at point <;> omega

theorem digit_toNat_div (b : UInt8) {c : Char} :
    c.toLower = Nat.digitChar (b.toNat / 16) ↔ digit c = some (b.toNat / 16) := by
  have bound := b.toNat_lt
  rw [digit_eq_some_iff_toLower, and_iff_right (by omega)]

theorem digit_toNat_mod (b : UInt8) {c : Char} :
    c.toLower = Nat.digitChar (b.toNat % 16) ↔ digit c = some (b.toNat % 16) := by
  rw [digit_eq_some_iff_toLower, and_iff_right (Nat.mod_lt _ (by decide))]

/-- Two digits are read as the byte of which they are the halves. -/
theorem decode_cons_iff {high low : Char} {rest : List Char} {b : UInt8} {bytes : List UInt8} :
    isDigit high = true ∧ isDigit low = true ∧ decode (high :: low :: rest) = b :: bytes ↔
      digit high = some (b.toNat / 16) ∧ digit low = some (b.toNat % 16) ∧
        decode rest = bytes := by
  have bound := b.toNat_lt
  constructor
  · rintro ⟨digitHigh, digitLow, read⟩
    obtain ⟨h, high_eq⟩ := Option.isSome_iff_exists.mp digitHigh
    obtain ⟨l, low_eq⟩ := Option.isSome_iff_exists.mp digitLow
    have smallHigh := (digit_eq_some_iff_toLower.mp high_eq).1
    have smallLow := (digit_eq_some_iff_toLower.mp low_eq).1
    simp only [decode, high_eq, low_eq, List.cons.injEq] at read
    obtain ⟨rfl, rest_eq⟩ := read
    have byte : (UInt8.ofNat (16 * h + l)).toNat = 16 * h + l := by
      rw [UInt8.toNat_ofNat']
      omega
    rw [high_eq, low_eq, byte]
    refine ⟨?_, ?_, rest_eq⟩
    · congr 1
      omega
    · congr 1
      omega
  · rintro ⟨high_eq, low_eq, rest_eq⟩
    refine ⟨by rw [isDigit, high_eq]; rfl, by rw [isDigit, low_eq]; rfl, ?_⟩
    have byte : 16 * (b.toNat / 16) + b.toNat % 16 = b.toNat := by omega
    simp only [decode, high_eq, low_eq, byte, UInt8.ofNat_toNat, rest_eq]

/-- Texts of digits in pairs are read as the bytes that they show in lower case. -/
theorem decode_eq_iff (chars : List Char) (bytes : List UInt8) :
    (∀ c ∈ chars, isDigit c = true) ∧ chars.length = 2 * bytes.length ∧ decode chars = bytes ↔
      chars.map Char.toLower = encode bytes := by
  induction bytes generalizing chars with
  | nil =>
    rw [encode_nil, List.map_eq_nil_iff]
    constructor
    · rintro ⟨_, size, _⟩
      exact List.length_eq_zero_iff.mp size
    · rintro rfl
      exact ⟨nofun, rfl, rfl⟩
  | cons b bytes ih =>
    match chars with
    | [] => simp [encode_cons]
    | [_] => simp [encode_cons]; omega
    | high :: low :: rest =>
      rw [encode_cons, List.map_cons, List.map_cons, List.cons.injEq, List.cons.injEq,
        digit_toNat_div, digit_toNat_mod, ← ih rest]
      simp only [List.forall_mem_cons, List.length_cons]
      constructor
      · rintro ⟨⟨digitHigh, digitLow, digits⟩, size, read⟩
        obtain ⟨high_eq, low_eq, rest_eq⟩ := decode_cons_iff.mp ⟨digitHigh, digitLow, read⟩
        exact ⟨high_eq, low_eq, digits, by omega, rest_eq⟩
      · rintro ⟨high_eq, low_eq, digits, size, rest_eq⟩
        obtain ⟨digitHigh, digitLow, read⟩ := decode_cons_iff.mpr ⟨high_eq, low_eq, rest_eq⟩
        exact ⟨⟨digitHigh, digitLow, digits⟩, by omega, read⟩

theorem decode_length {n : Nat} {chars : List Char} (digits : ∀ c ∈ chars, isDigit c = true)
    (size : chars.length = 2 * n) : (decode chars).length = n := by
  induction n generalizing chars with
  | zero =>
    rw [List.length_eq_zero_iff.mp size]
    rfl
  | succ n ih =>
    match chars with
    | [] => cases size
    | [_] =>
      rw [List.length_singleton] at size
      omega
    | high :: low :: rest =>
      simp only [List.forall_mem_cons, List.length_cons] at digits size
      obtain ⟨digitHigh, digitLow, digits⟩ := digits
      obtain ⟨h, high_eq⟩ := Option.isSome_iff_exists.mp digitHigh
      obtain ⟨l, low_eq⟩ := Option.isSome_iff_exists.mp digitLow
      simp only [decode, high_eq, low_eq, List.length_cons]
      rw [ih digits (by omega)]

/-- Lower case is kept. -/
theorem map_toLower_encode (bytes : List UInt8) :
    (encode bytes).map Char.toLower = encode bytes := by
  induction bytes with
  | nil => rfl
  | cons b bytes ih =>
    have bound := b.toNat_lt
    have lower {n : Nat} (small : n < 16) : (Nat.digitChar n).toLower = Nat.digitChar n := by
      interval_cases n <;> rfl
    rw [encode_cons, List.map_cons, List.map_cons, ih, lower (by omega), lower (by omega)]

end CmmEncrypt.Hex
