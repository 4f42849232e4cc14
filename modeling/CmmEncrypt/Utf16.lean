import Mathlib.Data.List.Basic
import Mathlib.Tactic.Common

/-!
# UTF-16 text

Text as code units, where a surrogate may lack its partner. Decoding replaces such a
surrogate; it undoes the encoding of characters, leaves an ASCII prefix as it is, and the
UTF-8 of what is decoded takes at most three bytes a unit.
-/

namespace CmmEncrypt.Utf16

def isLead (u : UInt16) : Bool := 0xD800 ≤ u && u < 0xDC00

def isTrail (u : UInt16) : Bool := 0xDC00 ≤ u && u < 0xE000

/-- A unit on its own; a surrogate stands for U+FFFD. -/
def scalar (u : UInt16) : Char :=
  if isLead u || isTrail u then Char.ofNat 0xFFFD else Char.ofNat u.toNat

def pair (u v : UInt16) : Char :=
  Char.ofNat (0x10000 + (u.toNat - 0xD800) * 0x400 + (v.toNat - 0xDC00))

def decode : List UInt16 → List Char
  | [] => []
  | [u] => [scalar u]
  | u :: v :: rest =>
    if isLead u && isTrail v then pair u v :: decode rest else scalar u :: decode (v :: rest)

/-- The units of a character. -/
def units (c : Char) : List UInt16 :=
  if c.toNat < 0x10000 then [UInt16.ofNat c.toNat]
  else [UInt16.ofNat (0xD800 + (c.toNat - 0x10000) / 0x400),
    UInt16.ofNat (0xDC00 + (c.toNat - 0x10000) % 0x400)]

def utf8 (cs : List Char) : List UInt8 := cs.flatMap String.utf8EncodeChar

theorem isLead_iff (u : UInt16) : isLead u = true ↔ 0xD800 ≤ u.toNat ∧ u.toNat < 0xDC00 := by
  rw [isLead, Bool.and_eq_true, decide_eq_true_iff, decide_eq_true_iff, UInt16.le_iff_toNat_le,
    UInt16.lt_iff_toNat_lt]
  rfl

theorem isTrail_iff (u : UInt16) : isTrail u = true ↔ 0xDC00 ≤ u.toNat ∧ u.toNat < 0xE000 := by
  rw [isTrail, Bool.and_eq_true, decide_eq_true_iff, decide_eq_true_iff, UInt16.le_iff_toNat_le,
    UInt16.lt_iff_toNat_lt]
  rfl

theorem decode_single {u : UInt16} (alone : isLead u = false) (rest : List UInt16) :
    decode (u :: rest) = scalar u :: decode rest := by
  cases rest with
  | nil => rw [decode, decode]
  | cons v rest => rw [decode, alone, Bool.false_and, if_neg Bool.false_ne_true]

theorem decode_pair {u v : UInt16} (lead : isLead u = true) (trail : isTrail v = true)
    (rest : List UInt16) : decode (u :: v :: rest) = pair u v :: decode rest := by
  rw [decode, lead, trail, Bool.and_self, if_pos rfl]

theorem utf8_cons (c : Char) (cs : List Char) :
    utf8 (c :: cs) = String.utf8EncodeChar c ++ utf8 cs := List.flatMap_cons

/-! ## ASCII -/

theorem scalar_toNat {u : UInt16} (lead : isLead u = false) (trail : isTrail u = false) :
    (scalar u).toNat = u.toNat := by
  have valid : u.toNat.isValidChar := by
    have small := u.toNat_lt
    rw [← Bool.not_eq_true, isLead_iff] at lead
    rw [← Bool.not_eq_true, isTrail_iff] at trail
    unfold Nat.isValidChar
    omega
  rw [scalar, lead, trail, Bool.or_self, if_neg Bool.false_ne_true, Char.ofNat, dif_pos valid]
  rfl

theorem ascii_alone {u : UInt16} (ascii : u ≤ 0x7F) :
    isLead u = false ∧ isTrail u = false := by
  have small : u.toNat ≤ 0x7F := UInt16.le_iff_toNat_le.mp ascii
  constructor
  · rw [← Bool.not_eq_true, isLead_iff]
    omega
  · rw [← Bool.not_eq_true, isTrail_iff]
    omega

theorem utf8_ascii {u : UInt16} (ascii : u ≤ 0x7F) :
    String.utf8EncodeChar (scalar u) = [u.toUInt8] := by
  obtain ⟨lead, trail⟩ := ascii_alone ascii
  have value := scalar_toNat lead trail
  have small : u.toNat ≤ 0x7F := UInt16.le_iff_toNat_le.mp ascii
  have single : (scalar u).utf8Size = 1 := by
    rw [Char.utf8Size_eq_one_iff, UInt32.le_iff_toNat_le]
    exact Nat.le_trans (Nat.le_of_eq value) small
  have low : (scalar u).val.toUInt8 = u.toUInt8 := by
    rw [← UInt8.toNat_inj, UInt32.toNat_toUInt8, UInt16.toNat_toUInt8]
    exact congrArg (· % 2 ^ 8) value
  rw [String.utf8EncodeChar_eq_singleton single, low]

/-- An ASCII prefix is encoded unit by unit. -/
theorem utf8_ascii_append {front : List UInt16} (ascii : ∀ u ∈ front, u ≤ 0x7F)
    (rest : List UInt16) :
    utf8 (decode (front ++ rest)) = front.map UInt16.toUInt8 ++ utf8 (decode rest) := by
  induction front with
  | nil => rfl
  | cons u front ih =>
    rw [List.forall_mem_cons] at ascii
    rw [List.cons_append, decode_single (ascii_alone ascii.1).1, utf8_cons, utf8_ascii ascii.1,
      ih ascii.2, List.map_cons]
    rfl

/-! ## Three bytes a unit -/

theorem utf8Size_le_three {c : Char} (small : c.toNat < 0x10000) : c.utf8Size ≤ 3 := by
  have fits : c.val ≤ 0xFFFF := UInt32.le_iff_toNat_le.mpr (Nat.le_of_lt_succ small)
  rw [Char.utf8Size]
  split
  · decide
  · split
    · decide
    · exact Nat.le_of_eq (if_pos fits)

theorem scalar_small (u : UInt16) : (scalar u).toNat < 0x10000 := by
  cases alone : isLead u || isTrail u with
  | true =>
    rw [scalar, alone, if_pos rfl]
    decide
  | false =>
    rw [Bool.or_eq_false_iff] at alone
    rw [scalar_toNat alone.1 alone.2]
    exact u.toNat_lt

theorem utf8_length_le (us : List UInt16) : (utf8 (decode us)).length ≤ 3 * us.length := by
  induction us using decode.induct with
  | case1 => exact Nat.le_refl _
  | case2 u =>
    rw [decode, utf8_cons, List.length_append, String.length_utf8EncodeChar]
    exact utf8Size_le_three (scalar_small u)
  | case3 u v rest both ih =>
    rw [decode, if_pos both, utf8_cons, List.length_append, String.length_utf8EncodeChar,
      List.length_cons, List.length_cons]
    have size := (pair u v).utf8Size_le_four
    omega
  | case4 u v rest apart ih =>
    rw [decode, if_neg apart, utf8_cons, List.length_append, String.length_utf8EncodeChar,
      List.length_cons]
    have size := utf8Size_le_three (scalar_small u)
    omega

/-! ## Round trip -/

/-- A character in one unit is no surrogate. -/
theorem scalar_units {c : Char} (small : c.toNat < 0x10000) :
    isLead (UInt16.ofNat c.toNat) = false ∧ scalar (UInt16.ofNat c.toNat) = c := by
  have value : (UInt16.ofNat c.toNat).toNat = c.toNat :=
    UInt16.toNat_ofNat'.trans (Nat.mod_eq_of_lt small)
  have valid : c.toNat < 0xD800 ∨ 0xDFFF < c.toNat ∧ c.toNat < 0x110000 := c.valid
  have lead : isLead (UInt16.ofNat c.toNat) = false := by
    rw [← Bool.not_eq_true, isLead_iff, value]
    omega
  have trail : isTrail (UInt16.ofNat c.toNat) = false := by
    rw [← Bool.not_eq_true, isTrail_iff, value]
    omega
  exact ⟨lead, Char.toNat_inj.mp ((scalar_toNat lead trail).trans value)⟩

/-- A character in two units is their pair. -/
theorem pair_units {c : Char} (large : ¬ c.toNat < 0x10000) :
    isLead (UInt16.ofNat (0xD800 + (c.toNat - 0x10000) / 0x400)) = true ∧
    isTrail (UInt16.ofNat (0xDC00 + (c.toNat - 0x10000) % 0x400)) = true ∧
    pair (UInt16.ofNat (0xD800 + (c.toNat - 0x10000) / 0x400))
      (UInt16.ofNat (0xDC00 + (c.toNat - 0x10000) % 0x400)) = c := by
  have valid : c.toNat < 0xD800 ∨ 0xDFFF < c.toNat ∧ c.toNat < 0x110000 := c.valid
  have high : (UInt16.ofNat (0xD800 + (c.toNat - 0x10000) / 0x400)).toNat =
      0xD800 + (c.toNat - 0x10000) / 0x400 := by
    rw [UInt16.toNat_ofNat']
    omega
  have low : (UInt16.ofNat (0xDC00 + (c.toNat - 0x10000) % 0x400)).toNat =
      0xDC00 + (c.toNat - 0x10000) % 0x400 := by
    rw [UInt16.toNat_ofNat']
    omega
  have joined : 0x10000 + (0xD800 + (c.toNat - 0x10000) / 0x400 - 0xD800) * 0x400 +
      (0xDC00 + (c.toNat - 0x10000) % 0x400 - 0xDC00) = c.toNat := by
    omega
  rw [isLead_iff, isTrail_iff, pair, high, low, joined, Char.ofNat_toNat]
  refine ⟨?_, ?_, rfl⟩ <;> omega

theorem decode_units (cs : List Char) : decode (cs.flatMap units) = cs := by
  induction cs with
  | nil => rfl
  | cons c cs ih =>
    rw [List.flatMap_cons, units]
    by_cases small : c.toNat < 0x10000
    · obtain ⟨alone, same⟩ := scalar_units small
      rw [if_pos small, List.singleton_append, decode_single alone, same, ih]
    · obtain ⟨lead, trail, same⟩ := pair_units small
      rw [if_neg small, List.cons_append, List.singleton_append, decode_pair lead trail, same, ih]

end CmmEncrypt.Utf16
