import CmmEncrypt.Wire
import Mathlib.Data.Nat.Bitwise

/-!
# CompactSize and VARINT as codes

Both writers only append, so each has a code for the written number alone. The
readers decode these codes in place: a CompactSize up to `MAX_SIZE`, a VARINT
without any bound. Code lengths are given by thresholds.
-/

namespace CmmEncrypt.WireCodec

open Cursor Wire

theorem readU8_decodes (b : UInt8) : Decodes readU8 [b] b := by
  intro before after
  simp [readU8]

theorem leBytes_decodes {k n : Nat} (fits : n < 256 ^ k) {U : Type} (conv : Nat → U) :
    Decodes (do let slice ← Reader.take WireError.unexpectedEof k
                pure (conv (ofLeBytes slice))) (leBytes k n) (conv n) := by
  have slice := Decodes.take WireError.unexpectedEof (leBytes k n)
  rw [leBytes_length] at slice
  have h := slice.map (fun slice => conv (ofLeBytes slice))
  rwa [ofLeBytes_leBytes k n fits] at h

/-! ## CompactSize -/

def compactSize (n : UInt64) : Bytes := writeCompactSize [] n

/-- How many bytes a CompactSize takes. -/
def compactSizeLen (n : Nat) : Nat :=
  if n < 253 then 1 else if n ≤ 0xFFFF then 3 else if n ≤ 0xFFFFFFFF then 5 else 9

theorem writeCompactSize_eq (buf : Bytes) (n : UInt64) :
    writeCompactSize buf n = buf ++ compactSize n := by
  unfold compactSize writeCompactSize
  split_ifs <;> simp

theorem compactSize_length (n : UInt64) : (compactSize n).length = compactSizeLen n.toNat := by
  simp only [compactSize, writeCompactSize, compactSizeLen, UInt64.lt_iff_toNat_lt,
    UInt64.le_iff_toNat_le, UInt64.reduceToNat]
  split_ifs <;> simp

theorem compactSizeLen_mono {m n : Nat} (h : m ≤ n) : compactSizeLen m ≤ compactSizeLen n := by
  unfold compactSizeLen
  split_ifs <;> omega

theorem compactSizeLen_le (n : Nat) : compactSizeLen n ≤ 9 := by
  unfold compactSizeLen
  split_ifs <;> omega

/-- One wide form: a fixed-width value, rejected when a shorter form would do. -/
theorem wideForm_decodes {k : Nat} {n : UInt64} (fits : n.toNat < 256 ^ k) {U : Type}
    (conv : Nat → U) (short : U → Prop) [DecidablePred short] (widen : U → UInt64)
    (keep : ¬ short (conv n.toNat)) (value : widen (conv n.toNat) = n) :
    Decodes (do let v ← (do let slice ← Reader.take WireError.unexpectedEof k
                            pure (conv (ofLeBytes slice)))
                if short v then Reader.fail .nonCanonicalCompactSize else pure (widen v))
      (leBytes k n.toNat) n := by
  have read := leBytes_decodes fits conv
  have rest : Decodes (if short (conv n.toNat) then Reader.fail .nonCanonicalCompactSize
      else pure (widen (conv n.toNat)) : Reader WireError UInt8 UInt64) [] n := by
    rw [if_neg keep, value]
    exact Decodes.pure n
  have h := read.bind (f := fun v => if short v then Reader.fail .nonCanonicalCompactSize
      else pure (widen v)) rest
  simpa only [List.append_nil] using h

/-- Whatever its size, a written length is parsed back before the cap is applied. -/
theorem compactSize_body (n : UInt64) : ∃ (tag : UInt8) (body : Bytes),
    compactSize n = [tag] ++ body ∧ Decodes (readCompactSizeBody tag) body n := by
  have bound : n.toNat < 2 ^ 64 := n.toNat_lt
  simp only [compactSize, writeCompactSize, UInt64.lt_iff_toNat_lt, UInt64.le_iff_toNat_le,
    UInt64.reduceToNat, List.nil_append]
  split_ifs with h₁ h₂ h₃
  · have back : n.toUInt8.toNat = n.toNat := by
      rw [UInt64.toNat_toUInt8]
      omega
    have tag : n.toUInt8 < 253 := by
      rw [UInt8.lt_iff_toNat_lt, back]
      exact h₁
    have value : n.toUInt8.toUInt64 = n := by
      apply UInt64.toNat_inj.mp
      rw [UInt8.toNat_toUInt64, back]
    refine ⟨n.toUInt8, [], rfl, ?_⟩
    rw [readCompactSizeBody, if_pos tag, value]
    exact Decodes.pure n
  · have back : n.toUInt16.toNat = n.toNat := by
      rw [UInt64.toNat_toUInt16]
      omega
    refine ⟨0xfd, leBytes 2 n.toUInt16.toNat, rfl, ?_⟩
    rw [back]
    refine wideForm_decodes (by omega) UInt16.ofNat (· < 253) UInt16.toUInt64 ?_ ?_
    · simp only [UInt16.lt_iff_toNat_lt, UInt16.toNat_ofNat', UInt16.reduceToNat]
      omega
    · apply UInt64.toNat_inj.mp
      rw [UInt16.toNat_toUInt64, UInt16.toNat_ofNat']
      omega
  · have back : n.toUInt32.toNat = n.toNat := by
      rw [UInt64.toNat_toUInt32]
      omega
    refine ⟨0xfe, leBytes 4 n.toUInt32.toNat, rfl, ?_⟩
    rw [back]
    refine wideForm_decodes (by omega) UInt32.ofNat (· < 0x10000) UInt32.toUInt64 ?_ ?_
    · simp only [UInt32.lt_iff_toNat_lt, UInt32.toNat_ofNat', UInt32.reduceToNat]
      omega
    · apply UInt64.toNat_inj.mp
      rw [UInt32.toNat_toUInt64, UInt32.toNat_ofNat']
      omega
  · refine ⟨0xff, leBytes 8 n.toNat, rfl, ?_⟩
    refine wideForm_decodes (by omega) UInt64.ofNat (· < 0x100000000) id ?_ ?_
    · simp only [UInt64.lt_iff_toNat_lt, UInt64.toNat_ofNat', UInt64.reduceToNat]
      omega
    · exact UInt64.ofNat_toNat

theorem readCompactSize_eq (n : UInt64) (before after : Bytes) :
    readCompactSize (before ++ compactSize n ++ after) before.length =
      if n > MAX_SIZE then .error .compactSizeTooLarge
      else .ok (n, before.length + (compactSize n).length) := by
  obtain ⟨tag, body, code, parsed⟩ := compactSize_body n
  have h₁ := (readU8_decodes tag).run_bind (f := fun tag => do
    let n ← readCompactSizeBody tag
    if n > MAX_SIZE then Reader.fail .compactSizeTooLarge else pure n) before (body ++ after)
  have h₂ := parsed.run_bind (f := fun n =>
    if n > MAX_SIZE then Reader.fail .compactSizeTooLarge else pure n) (before ++ [tag]) after
  simp only [List.append_assoc, List.length_append] at h₁ h₂
  simp only [code, List.append_assoc, List.length_append, readCompactSize]
  rw [h₁, h₂]
  split_ifs
  · rfl
  · rw [Nat.add_assoc]
    rfl

/-- In place, a written length is accepted exactly up to `MAX_SIZE`. -/
theorem compactSize_decodes {n : UInt64} (fits : n ≤ MAX_SIZE) :
    Decodes readCompactSize (compactSize n) n := by
  intro before after
  rw [readCompactSize_eq, if_neg (UInt64.not_lt.mpr fits)]

/-! ## VARINT -/

def varint (n : UInt64) : Bytes := writeVarintU64 [] n

/-- The flagged digits in front of the last one; each stands for its value plus one. -/
def leadDigits (m : Nat) : Bytes :=
  if m < 128 then [UInt8.ofNat (m + 128)]
  else leadDigits (m / 128 - 1) ++ [UInt8.ofNat (m % 128 + 128)]

/-- Most significant digit first, the last one unflagged. -/
def varintDigits (n : Nat) : Bytes :=
  if n < 128 then [UInt8.ofNat n] else leadDigits (n / 128 - 1) ++ [UInt8.ofNat (n % 128)]

theorem emitDigits_eq (tmp : Bytes) (len : Nat) (buf : Bytes) (inside : len < tmp.length) :
    emitDigits tmp len buf = buf ++ (tmp.take (len + 1)).reverse := by
  induction len generalizing buf with
  | zero =>
    cases tmp with
    | nil => simp at inside
    | cons b rest => simp [emitDigits]
  | succ len ih =>
    rw [emitDigits, ih _ (by omega), List.take_succ_eq_append_getElem inside,
      List.reverse_append]
    simp [inside]

theorem digit_toNat (n : UInt64) : ((n &&& 0x7F).toUInt8).toNat = n.toNat % 128 := by
  rw [UInt64.toNat_toUInt8, UInt64.toNat_and]
  have mask := Nat.and_two_pow_sub_one_eq_mod n.toNat 7
  simp only [UInt64.reduceToNat, Nat.reducePow, Nat.reduceSub] at mask ⊢
  rw [mask]
  omega

theorem flagged_toNat {b : UInt8} (digit : b.toNat < 128) : (b ||| 0x80).toNat = b.toNat + 128 := by
  rw [UInt8.toNat_or, Nat.or_comm]
  have h := Nat.two_pow_add_eq_or_of_lt (i := 7) digit 1
  exact h.symm.trans (Nat.add_comm _ _)

/-- The digit written in one round of the loop. -/
theorem written_digit (n : UInt64) (len : Nat) :
    (n &&& 0x7F).toUInt8 ||| (if len ≠ 0 then 0x80 else 0x00) =
      UInt8.ofNat (n.toNat % 128 + if len ≠ 0 then 128 else 0) := by
  apply UInt8.toNat_inj.mp
  have digit := digit_toNat n
  rw [UInt8.toNat_ofNat']
  split_ifs
  · rw [flagged_toNat (by omega), digit]
    omega
  · rw [UInt8.or_zero, digit]
    omega

theorem next_toNat {n : UInt64} (more : ¬ n ≤ 0x7F) :
    ((n >>> 7) - 1).toNat = n.toNat / 128 - 1 := by
  simp only [UInt64.le_iff_toNat_le, UInt64.reduceToNat] at more
  have shift : (n >>> 7).toNat = n.toNat / 128 := by
    simp only [UInt64.toNat_shiftRight, UInt64.reduceToNat, Nat.shiftRight_eq_div_pow,
      Nat.reduceMod, Nat.reducePow]
  have one : (1 : UInt64) ≤ n >>> 7 := by
    simp only [UInt64.le_iff_toNat_le, shift, UInt64.reduceToNat]
    omega
  rw [UInt64.toNat_sub_of_le _ _ one, shift]
  rfl

theorem take_set_succ (tmp : Bytes) (len : Nat) (b : UInt8) (inside : len < tmp.length) :
    (tmp.set len b).take (len + 1) = tmp.take len ++ [b] := by
  rw [List.take_succ_eq_append_getElem (by simpa using inside), List.getElem_set_self,
    List.take_set, List.set_eq_of_length_le (by simp)]

theorem leadDigits_last {m : Nat} (h : m < 128) : leadDigits m = [UInt8.ofNat (m + 128)] := by
  rw [leadDigits, if_pos h]

theorem leadDigits_more {m : Nat} (h : ¬ m < 128) :
    leadDigits m = leadDigits (m / 128 - 1) ++ [UInt8.ofNat (m % 128 + 128)] := by
  rw [leadDigits, if_neg h]

theorem varintDigits_last {n : Nat} (h : n < 128) : varintDigits n = [UInt8.ofNat n] := by
  rw [varintDigits, if_pos h]

theorem varintDigits_more {n : Nat} (h : ¬ n < 128) :
    varintDigits n = leadDigits (n / 128 - 1) ++ [UInt8.ofNat (n % 128)] := by
  rw [varintDigits, if_neg h]

/-- The loop ends inside the scratch array. Read downwards from where it stopped, the array
holds the digits of what was left, then what it held before. -/
theorem fillDigits_spec (slots : Nat) (tmp : Bytes) (len : Nat) (n : UInt64)
    (some_slot : 0 < slots) (room : tmp.length = len + slots) (fits : n.toNat < 128 ^ slots) :
    ∃ tmp' len', fillDigits slots tmp len n = some (tmp', len') ∧ len' < tmp'.length ∧
      (tmp'.take (len' + 1)).reverse =
        (if len = 0 then varintDigits n.toNat else leadDigits n.toNat) ++
          (tmp.take len).reverse := by
  induction slots generalizing tmp len n with
  | zero => omega
  | succ slots ih =>
    have inside : len < tmp.length := by omega
    have filled := take_set_succ tmp len
      ((n &&& 0x7F).toUInt8 ||| if len ≠ 0 then 0x80 else 0x00) inside
    rw [fillDigits]
    by_cases stop : n ≤ 0x7F
    · rw [if_pos stop]
      refine ⟨_, _, rfl, by simpa using inside, ?_⟩
      simp only [UInt64.le_iff_toNat_le, UInt64.reduceToNat] at stop
      have small : n.toNat < 128 := by omega
      rw [filled, written_digit, List.reverse_append, Nat.mod_eq_of_lt small,
        varintDigits_last small, leadDigits_last small]
      by_cases first : len = 0
      · rw [if_pos first, if_neg (not_not.mpr first)]
        rfl
      · rw [if_neg first, if_pos first]
        rfl
    · rw [if_neg stop]
      have left := next_toNat stop
      simp only [UInt64.le_iff_toNat_le, UInt64.reduceToNat] at stop
      have big : ¬ n.toNat < 128 := by omega
      rw [Nat.pow_succ] at fits
      have more : 0 < slots := by
        by_contra h
        obtain rfl : slots = 0 := by omega
        omega
      have shorter : n.toNat / 128 < 128 ^ slots := Nat.div_lt_of_lt_mul (by omega)
      obtain ⟨tmp', len', run, bound, digits⟩ := ih (tmp.set len
        ((n &&& 0x7F).toUInt8 ||| if len ≠ 0 then 0x80 else 0x00)) (len + 1) ((n >>> 7) - 1)
        more (by rw [List.length_set]; omega) (by rw [left]; omega)
      refine ⟨tmp', len', run, bound, ?_⟩
      rw [digits, if_neg (Nat.succ_ne_zero len), left, filled, written_digit,
        List.reverse_append, varintDigits_more big, leadDigits_more big]
      by_cases first : len = 0
      · rw [if_pos first, if_neg (not_not.mpr first)]
        simp
      · rw [if_neg first, if_pos first]
        simp

theorem writeVarintU64_eq (buf : Bytes) (n : UInt64) :
    writeVarintU64 buf n = buf ++ varintDigits n.toNat := by
  have bound : n.toNat < 2 ^ 64 := n.toNat_lt
  obtain ⟨tmp, len, run, inside, digits⟩ :=
    fillDigits_spec 10 (List.replicate 10 0) 0 n (by decide) (by simp) (by omega)
  rw [writeVarintU64, run]
  simp only [emitDigits_eq tmp len buf inside, digits, if_pos, List.take_zero, List.reverse_nil,
    List.append_nil]

theorem varint_eq (n : UInt64) : varint n = varintDigits n.toNat := by
  rw [varint, writeVarintU64_eq, List.nil_append]

/-! The reader's accumulator after the leading digits of `m` is `m + 1`. -/

theorem flag_iff (ch : UInt8) : ch &&& 0x80 ≠ 0 ↔ 128 ≤ ch.toNat := by
  have bound : ch.toNat < 2 ^ 8 := ch.toNat_lt
  have bit : ch.toNat &&& 2 ^ 7 = 2 ^ 7 * (ch.toNat.testBit 7).toNat := by
    rw [Nat.and_comm, Nat.two_pow_and]
  have high : (ch.toNat.testBit 7).toNat = ch.toNat / 2 ^ 7 % 2 := Nat.toNat_testBit _ _
  rw [high] at bit
  rw [ne_eq, ← UInt8.toNat_inj, UInt8.toNat_and]
  simp only [UInt8.reduceToNat, Nat.reducePow] at bit ⊢
  omega

theorem accumulate_toNat {n : UInt64} (ch : UInt8) (room : n.toNat ≤ u64Max.toNat / 128) :
    ((n <<< 7) ||| (ch &&& 0x7F).toUInt64).toNat = n.toNat * 128 + ch.toNat % 128 := by
  have shift : (n <<< 7).toNat = 2 ^ 7 * n.toNat := by
    rw [UInt64.toNat_shiftLeft]
    simp only [UInt64.reduceToNat, Nat.reduceMod, Nat.shiftLeft_eq, u64Max] at room ⊢
    omega
  have digit : (ch &&& 0x7F).toUInt64.toNat = ch.toNat % 2 ^ 7 := by
    rw [UInt8.toNat_toUInt64, UInt8.toNat_and]
    exact Nat.and_two_pow_sub_one_eq_mod ch.toNat 7
  rw [UInt64.toNat_or, shift, digit, ← Nat.two_pow_add_eq_or_of_lt (Nat.mod_lt _ (by decide))]
  omega

theorem readVarintLoop_more {ch : UInt8} {n : UInt64} (rest : Bytes) (cursor : Nat)
    (flag : 128 ≤ ch.toNat) (fits : n.toNat * 128 + ch.toNat % 128 < u64Max.toNat) :
    readVarintLoop (ch :: rest) n cursor =
      readVarintLoop rest (UInt64.ofNat (n.toNat * 128 + ch.toNat % 128 + 1)) (cursor + 1) := by
  have limit : (u64Max >>> 7).toNat = u64Max.toNat / 128 := by decide
  have room : n.toNat ≤ u64Max.toNat / 128 := by omega
  have value := accumulate_toNat ch room
  have small : u64Max.toNat < 2 ^ 64 := u64Max.toNat_lt
  have below : ¬ n > u64Max >>> 7 := by
    rw [gt_iff_lt, UInt64.lt_iff_toNat_lt, limit]
    omega
  have notMax : ((n <<< 7) ||| (ch &&& 0x7F).toUInt64) ≠ u64Max := by
    intro h
    rw [h] at value
    omega
  have next : ((n <<< 7) ||| (ch &&& 0x7F).toUInt64) + 1 =
      UInt64.ofNat (n.toNat * 128 + ch.toNat % 128 + 1) := by
    rw [UInt64.ofNat_add, ← value, UInt64.ofNat_toNat]
    rfl
  simp only [readVarintLoop, if_neg below, if_pos ((flag_iff ch).mpr flag), if_neg notMax, next]

theorem readVarintLoop_last {ch : UInt8} {n : UInt64} (rest : Bytes) (cursor : Nat)
    (plain : ch.toNat < 128) (fits : n.toNat * 128 + ch.toNat < 2 ^ 64) :
    readVarintLoop (ch :: rest) n cursor =
      .ok (UInt64.ofNat (n.toNat * 128 + ch.toNat), cursor + 1) := by
  have limit : (u64Max >>> 7).toNat = u64Max.toNat / 128 := by decide
  have max : u64Max.toNat = 2 ^ 64 - 1 := by decide
  have room : n.toNat ≤ u64Max.toNat / 128 := by omega
  have value := accumulate_toNat ch room
  have below : ¬ n > u64Max >>> 7 := by
    rw [gt_iff_lt, UInt64.lt_iff_toNat_lt, limit]
    omega
  have unflagged : ¬ ch &&& 0x80 ≠ 0 := by
    rw [flag_iff]
    omega
  rw [Nat.mod_eq_of_lt plain] at value
  simp only [readVarintLoop, if_neg below, if_neg unflagged, ← value, UInt64.ofNat_toNat]

theorem readVarintLoop_lead (m : Nat) (fits : m < u64Max.toNat) (rest : Bytes) (cursor : Nat) :
    readVarintLoop (leadDigits m ++ rest) 0 cursor =
      readVarintLoop rest (UInt64.ofNat (m + 1)) (cursor + (leadDigits m).length) := by
  have max : u64Max.toNat = 2 ^ 64 - 1 := by decide
  induction m using Nat.strong_induction_on generalizing rest cursor with
  | _ m ih =>
    by_cases last : m < 128
    · have digit : (UInt8.ofNat (m + 128)).toNat = m + 128 := by
        rw [UInt8.toNat_ofNat']
        omega
      rw [leadDigits_last last, List.singleton_append,
        readVarintLoop_more rest cursor (by rw [digit]; omega)
          (by rw [digit, UInt64.toNat_zero]; omega), digit, UInt64.toNat_zero,
        List.length_singleton]
      congr 2
      omega
    · have digit : (UInt8.ofNat (m % 128 + 128)).toNat = m % 128 + 128 := by
        rw [UInt8.toNat_ofNat']
        omega
      have acc : (UInt64.ofNat (m / 128 - 1 + 1)).toNat = m / 128 := by
        rw [UInt64.toNat_ofNat']
        omega
      have whole : m / 128 * 128 + (m % 128 + 128) % 128 + 1 = m + 1 := by omega
      rw [leadDigits_more last, List.append_assoc, ih _ (by omega) (by omega),
        List.singleton_append, readVarintLoop_more rest _ (by rw [digit]; omega)
          (by rw [digit, acc]; omega), digit, acc, whole, List.length_append,
        List.length_singleton, Nat.add_assoc]

theorem readVarintLoop_digits (n : UInt64) (rest : Bytes) (cursor : Nat) :
    readVarintLoop (varintDigits n.toNat ++ rest) 0 cursor =
      .ok (n, cursor + (varintDigits n.toNat).length) := by
  have bound : n.toNat < 2 ^ 64 := n.toNat_lt
  have max : u64Max.toNat = 2 ^ 64 - 1 := by decide
  by_cases last : n.toNat < 128
  · have digit : (UInt8.ofNat n.toNat).toNat = n.toNat := by
      rw [UInt8.toNat_ofNat']
      omega
    rw [varintDigits_last last, List.singleton_append,
      readVarintLoop_last rest cursor (by rw [digit]; exact last)
        (by rw [digit, UInt64.toNat_zero]; omega),
      digit, UInt64.toNat_zero, Nat.zero_mul, Nat.zero_add, UInt64.ofNat_toNat,
      List.length_singleton]
  · have digit : (UInt8.ofNat (n.toNat % 128)).toNat = n.toNat % 128 := by
      rw [UInt8.toNat_ofNat']
      omega
    have acc : (UInt64.ofNat (n.toNat / 128 - 1 + 1)).toNat = n.toNat / 128 := by
      rw [UInt64.toNat_ofNat']
      omega
    have whole : n.toNat / 128 * 128 + n.toNat % 128 = n.toNat := Nat.div_add_mod' _ _
    rw [varintDigits_more last, List.append_assoc, readVarintLoop_lead _ (by omega),
      List.singleton_append, readVarintLoop_last rest _ (by rw [digit]; omega)
        (by rw [digit, acc]; omega),
      digit, acc, whole, UInt64.ofNat_toNat, List.length_append, List.length_singleton,
      Nat.add_assoc]

/-- A VARINT is read back whatever number it stands for. -/
theorem varint_decodes (n : UInt64) : Decodes readVarintU64 (varint n) n := by
  intro before after
  rw [readVarintU64, List.append_assoc, List.drop_left, varint_eq]
  exact readVarintLoop_digits n after before.length

theorem leadDigits_length (k m : Nat) (fits : m < 128 ^ (k + 1)) :
    (leadDigits m).length ≤ k + 1 := by
  induction k generalizing m with
  | zero => rw [leadDigits_last (by omega), List.length_singleton]
  | succ k ih =>
    by_cases last : m < 128
    · rw [leadDigits_last last, List.length_singleton]
      omega
    · have shorter : m / 128 < 128 ^ (k + 1) :=
        Nat.div_lt_of_lt_mul (by rw [← Nat.pow_succ']; exact fits)
      have high := ih (m / 128 - 1) (by omega)
      rw [leadDigits_more last, List.length_append, List.length_singleton]
      omega

theorem varint_length {n : UInt64} (k : Nat) (fits : n.toNat < 128 ^ (k + 1)) :
    (varint n).length ≤ k + 1 := by
  rw [varint_eq]
  by_cases last : n.toNat < 128
  · rw [varintDigits_last last, List.length_singleton]
    omega
  · cases k with
    | zero => omega
    | succ k =>
      have shorter : n.toNat / 128 < 128 ^ (k + 1) :=
        Nat.div_lt_of_lt_mul (by rw [← Nat.pow_succ']; exact fits)
      have high := leadDigits_length k (n.toNat / 128 - 1) (by omega)
      rw [varintDigits_more last, List.length_append, List.length_singleton]
      omega

/-! ## The readers only move forwards -/

theorem readU8_advances : Advances readU8 := by
  intro buf c a c' h
  rw [readU8] at h
  split at h
  · obtain ⟨_, rfl⟩ := Prod.mk.inj (Except.ok.inj h)
    exact Nat.le_succ c
  · cases h

theorem readLe_advances {U : Type} (k : Nat) (conv : Nat → U) :
    Advances (do let slice ← Reader.take WireError.unexpectedEof k
                 pure (conv (ofLeBytes slice))) :=
  (Advances.take _ k).bind (fun slice => Advances.pure (conv (ofLeBytes slice)))

theorem failOr_advances {α : Type} (short : Prop) [Decidable short] (e : WireError) (a : α) :
    Advances (if short then Reader.fail e else pure a : Reader WireError UInt8 α) := by
  split
  · exact Advances.fail e
  · exact Advances.pure a

theorem readCompactSize_advances : Advances readCompactSize := by
  refine readU8_advances.bind (fun tag => Advances.bind ?_ (fun n => failOr_advances _ _ n))
  unfold readCompactSizeBody
  split_ifs
  · exact Advances.pure _
  · exact (readLe_advances 2 UInt16.ofNat).bind (fun v => failOr_advances _ _ _)
  · exact (readLe_advances 4 UInt32.ofNat).bind (fun v => failOr_advances _ _ _)
  · exact (readLe_advances 8 UInt64.ofNat).bind (fun v => failOr_advances _ _ _)

theorem readVarintLoop_advances (bytes : Bytes) (n a : UInt64) (c c' : Nat)
    (h : readVarintLoop bytes n c = .ok (a, c')) : c ≤ c' := by
  induction bytes generalizing n c with
  | nil => cases h
  | cons ch rest ih =>
    simp only [readVarintLoop] at h
    split_ifs at h
    · exact Nat.le_of_succ_le (ih _ _ h)
    · obtain ⟨_, rfl⟩ := Prod.mk.inj (Except.ok.inj h)
      exact Nat.le_succ c

theorem readVarintU64_advances : Advances readVarintU64 :=
  fun buf c a c' h => readVarintLoop_advances (buf.drop c) 0 a c c' h

end CmmEncrypt.WireCodec
