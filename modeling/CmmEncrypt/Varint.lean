import CmmEncrypt.WireCodec

/-!
# VARINT is a bijection

Every 64-bit number has one encoding of at most ten bytes, and the reader accepts
nothing else. The loops are also run with their panics: an index outside the scratch
array, a difference below zero, a shift or a sum above `u64::MAX`. None is reached.
-/

namespace CmmEncrypt.Varint

open Cursor Wire WireCodec

/-! ## The loops with their panics -/

/-- The digit loop of `write_varint_u64`; `none` is a panic, or more than `rounds` rounds. -/
def fillDigitsChecked : (rounds : Nat) → (tmp : Bytes) → (len : Nat) → (n : UInt64) →
    Option (Bytes × Nat)
  | 0, _, _, _ => none
  | rounds + 1, tmp, len, n => do
    let marker : UInt8 := if len ≠ 0 then 0x80 else 0x00
    guard (len < tmp.length)
    let tmp := tmp.set len ((n &&& 0x7F).toUInt8 ||| marker)
    if n ≤ 0x7F then some (tmp, len) else do
      guard ((1 : UInt64) ≤ n >>> 7)
      fillDigitsChecked rounds tmp (len + 1) ((n >>> 7) - 1)

/-- The output loop, each digit fetched with its bounds check. -/
def emitDigitsChecked (tmp : Bytes) : Nat → Bytes → Option Bytes
  | 0, buf => do
    let digit ← tmp[0]?
    some (buf ++ [digit])
  | len + 1, buf => do
    let digit ← tmp[len + 1]?
    emitDigitsChecked tmp len (buf ++ [digit])

def writeVarintU64Checked (buf : Bytes) (n : UInt64) : Option Bytes := do
  let (tmp, len) ← fillDigitsChecked 10 (List.replicate 10 0) 0 n
  emitDigitsChecked tmp len buf

/-- The loop of `read_varint_u64`; `none` is a shift or a sum that does not fit. -/
def readVarintLoopChecked : Bytes → UInt64 → Nat → Option (Except WireError (UInt64 × Nat))
  | [], _, _ => some (.error .unexpectedEof)
  | ch :: rest, n, cursor =>
    if n > u64Max >>> 7 then some (.error .varIntTooLarge)
    else do
      guard (n.toNat * 128 < 2 ^ 64)
      let n := (n <<< 7) ||| (ch &&& 0x7F).toUInt64
      if ch &&& 0x80 ≠ 0 then
        if n = u64Max then some (.error .varIntTooLarge)
        else do
          guard (n.toNat + 1 < 2 ^ 64)
          readVarintLoopChecked rest (n + 1) (cursor + 1)
      else some (.ok (n, cursor + 1))

theorem guard_then {α : Type} {p : Prop} [Decidable p] (holds : p) (rest : Option α) :
    (guard p >>= fun _ => rest) = rest := by
  rw [guard, if_pos holds]
  rfl

/-- A round stays inside the array, and goes on only with something left to subtract from. -/
theorem fillDigitsChecked_eq (slots : Nat) (tmp : Bytes) (len : Nat) (n : UInt64)
    (room : tmp.length = len + slots) :
    fillDigitsChecked slots tmp len n = fillDigits slots tmp len n := by
  induction slots generalizing tmp len n with
  | zero => rfl
  | succ slots ih =>
    rw [fillDigitsChecked, fillDigits, guard_then (by omega)]
    by_cases stop : n ≤ 0x7F
    · rw [if_pos stop, if_pos stop]
    · have more : (1 : UInt64) ≤ n >>> 7 := by
        simp only [UInt64.le_iff_toNat_le, UInt64.reduceToNat, UInt64.toNat_shiftRight,
          Nat.shiftRight_eq_div_pow, Nat.reduceMod, Nat.reducePow] at stop ⊢
        omega
      rw [if_neg stop, if_neg stop, guard_then more]
      exact ih _ _ _ (by rw [List.length_set]; omega)

theorem emitDigitsChecked_eq (tmp : Bytes) (len : Nat) (buf : Bytes) (inside : len < tmp.length) :
    emitDigitsChecked tmp len buf = some (emitDigits tmp len buf) := by
  induction len generalizing buf with
  | zero =>
    rw [emitDigitsChecked, emitDigits, List.getElem?_eq_getElem inside,
      List.getD_eq_getElem _ _ inside]
    rfl
  | succ len ih =>
    rw [emitDigitsChecked, emitDigits, List.getElem?_eq_getElem inside,
      List.getD_eq_getElem _ _ inside]
    exact ih _ (by omega)

theorem writeVarintU64Checked_eq (buf : Bytes) (n : UInt64) :
    writeVarintU64Checked buf n = some (writeVarintU64 buf n) := by
  have bound : n.toNat < 2 ^ 64 := n.toNat_lt
  obtain ⟨tmp, len, run, inside, _⟩ :=
    fillDigits_spec 10 (List.replicate 10 0) 0 n (by decide) (by simp) (by omega)
  rw [writeVarintU64Checked, writeVarintU64, fillDigitsChecked_eq _ _ _ _ (by simp), run]
  exact emitDigitsChecked_eq tmp len buf inside

theorem readVarintLoopChecked_eq (bytes : Bytes) (n : UInt64) (cursor : Nat) :
    readVarintLoopChecked bytes n cursor = some (readVarintLoop bytes n cursor) := by
  have limit : (u64Max >>> 7).toNat = u64Max.toNat / 128 := by decide
  have max : u64Max.toNat = 2 ^ 64 - 1 := by decide
  induction bytes generalizing n cursor with
  | nil => rfl
  | cons ch rest ih =>
    rw [readVarintLoopChecked, readVarintLoop]
    by_cases large : n > u64Max >>> 7
    · rw [if_pos large, if_pos large]
    · have room : n.toNat ≤ u64Max.toNat / 128 := by
        rw [gt_iff_lt, UInt64.lt_iff_toNat_lt, limit] at large
        omega
      rw [if_neg large, if_neg large, guard_then (by omega)]
      by_cases flag : ch &&& 0x80 ≠ 0
      · by_cases full : (n <<< 7) ||| (ch &&& 0x7F).toUInt64 = u64Max
        · simp only [if_pos flag, if_pos full]
        · have below : ((n <<< 7) ||| (ch &&& 0x7F).toUInt64).toNat + 1 < 2 ^ 64 := by
            have bound := ((n <<< 7) ||| (ch &&& 0x7F).toUInt64).toNat_lt
            have differ := mt UInt64.toNat_inj.mp full
            omega
          simp only [if_pos flag, if_neg full, guard_then below]
          exact ih _ _
      · simp only [if_neg flag]

/-! ## What the reader accepts -/

/-- The digits behind the reader when its accumulator stands at `n`. -/
def consumed (n : Nat) : Bytes := if n = 0 then [] else leadDigits (n - 1)

theorem consumed_more (n : Nat) {ch : UInt8} (flag : 128 ≤ ch.toNat) :
    consumed (n * 128 + ch.toNat % 128 + 1) = consumed n ++ [ch] := by
  have byte : ch.toNat < 2 ^ 8 := ch.toNat_lt
  have whole : ∀ k, k % 128 = ch.toNat % 128 → UInt8.ofNat (k % 128 + 128) = ch := by
    intro k same
    rw [same, ← UInt8.toNat_inj, UInt8.toNat_ofNat']
    omega
  rw [consumed, if_neg (by omega), Nat.add_sub_cancel]
  by_cases first : n = 0
  · have digit := whole ch.toNat rfl
    rw [first, Nat.zero_mul, Nat.zero_add, leadDigits_last (by omega), digit]
    rfl
  · have high : (n * 128 + ch.toNat % 128) / 128 = n := by omega
    rw [leadDigits_more (by omega), whole _ (by omega), high, consumed, if_neg first]

theorem consumed_last (n : Nat) {ch : UInt8} (plain : ch.toNat < 128) :
    consumed n ++ [ch] = varintDigits (n * 128 + ch.toNat) := by
  by_cases first : n = 0
  · rw [first, Nat.zero_mul, Nat.zero_add, varintDigits_last plain, UInt8.ofNat_toNat]
    rfl
  · have high : (n * 128 + ch.toNat) / 128 = n := by omega
    have low : (n * 128 + ch.toNat) % 128 = ch.toNat := by omega
    rw [varintDigits_more (by omega), high, low, UInt8.ofNat_toNat, consumed, if_neg first]

/-- What is behind the reader and what it reads next are together the digits of its result. -/
theorem readVarintLoop_accepts {bytes : Bytes} {acc n : UInt64} {c c' : Nat}
    (h : readVarintLoop bytes acc c = .ok (n, c')) :
    ∃ block rest, bytes = block ++ rest ∧ c' = c + block.length ∧
      consumed acc.toNat ++ block = varintDigits n.toNat := by
  have limit : (u64Max >>> 7).toNat = u64Max.toNat / 128 := by decide
  have max : u64Max.toNat = 2 ^ 64 - 1 := by decide
  induction bytes generalizing acc c with
  | nil => cases h
  | cons ch rest ih =>
    simp only [readVarintLoop] at h
    split_ifs at h with large flag full
    · have room : acc.toNat ≤ u64Max.toNat / 128 := by
        rw [gt_iff_lt, UInt64.lt_iff_toNat_lt, limit] at large
        omega
      have value := accumulate_toNat ch room
      have differ := mt UInt64.toNat_inj.mp full
      have bound := ((acc <<< 7) ||| (ch &&& 0x7F).toUInt64).toNat_lt
      obtain ⟨block, rest, rfl, rfl, digits⟩ := ih h
      refine ⟨ch :: block, rest, rfl, ?_, ?_⟩
      · rw [List.length_cons]
        omega
      · have one : (1 : UInt64).toNat = 1 := rfl
        rw [UInt64.toNat_add, value, one, Nat.mod_eq_of_lt (by omega),
          consumed_more _ ((flag_iff ch).mp flag), List.append_assoc] at digits
        exact digits
    · have room : acc.toNat ≤ u64Max.toNat / 128 := by
        rw [gt_iff_lt, UInt64.lt_iff_toNat_lt, limit] at large
        omega
      have plain : ch.toNat < 128 := Nat.lt_of_not_le (mt (flag_iff ch).mpr flag)
      have value := accumulate_toNat ch room
      obtain ⟨rfl, rfl⟩ := Prod.mk.inj (Except.ok.inj h)
      refine ⟨[ch], rest, rfl, rfl, ?_⟩
      rw [value, Nat.mod_eq_of_lt plain]
      exact consumed_last acc.toNat plain

/-- The reader accepts a number exactly where its encoding stands. -/
theorem readVarintU64_ok_iff (buf : Bytes) (c : Nat) (n : UInt64) (c' : Nat) :
    readVarintU64 buf c = .ok (n, c') ↔
      writeVarintU64 [] n <+: buf.drop c ∧ c' = c + (writeVarintU64 [] n).length := by
  change _ ↔ varint n <+: buf.drop c ∧ c' = c + (varint n).length
  rw [varint_eq, readVarintU64]
  constructor
  · intro h
    obtain ⟨block, rest, split, advanced, digits⟩ := readVarintLoop_accepts h
    obtain rfl : block = varintDigits n.toNat := digits
    exact ⟨⟨rest, split.symm⟩, advanced⟩
  · rintro ⟨⟨rest, split⟩, rfl⟩
    rw [← split]
    exact readVarintLoop_digits n rest c

/-! ## Lengths -/

theorem leadDigits_length_pos (m : Nat) : 1 ≤ (leadDigits m).length := by
  rw [leadDigits]
  split <;> simp

theorem leadDigits_mono {m n : Nat} (le : m ≤ n) :
    (leadDigits m).length ≤ (leadDigits n).length := by
  induction n using Nat.strong_induction_on generalizing m with
  | _ n ih =>
    by_cases small : m < 128
    · rw [leadDigits_last small, List.length_singleton]
      exact leadDigits_length_pos n
    · have shorter : (leadDigits (m / 128 - 1)).length ≤ (leadDigits (n / 128 - 1)).length :=
        ih (n / 128 - 1) (by omega) (by omega)
      have large : ¬ n < 128 := by omega
      rw [leadDigits_more small, leadDigits_more large, List.length_append,
        List.length_append, List.length_singleton, List.length_singleton]
      omega

theorem varint_length_pos (n : UInt64) : 1 ≤ (varint n).length := by
  rw [varint_eq, varintDigits]
  split <;> simp

/-- A single byte is enough for the numbers below 128 only. -/
theorem varint_length_one_iff (n : UInt64) : (varint n).length = 1 ↔ n.toNat < 128 := by
  constructor
  · intro single
    by_contra large
    have lead := leadDigits_length_pos (n.toNat / 128 - 1)
    rw [varint_eq, varintDigits_more large, List.length_append, List.length_singleton] at single
    omega
  · intro small
    rw [varint_eq, varintDigits_last small, List.length_singleton]

theorem varint_length_mono {m n : UInt64} (le : m ≤ n) :
    (varint m).length ≤ (varint n).length := by
  rw [UInt64.le_iff_toNat_le] at le
  by_cases small : m.toNat < 128
  · rw [varint_eq m, varintDigits_last small, List.length_singleton]
    exact varint_length_pos n
  · have shorter : m.toNat / 128 - 1 ≤ n.toNat / 128 - 1 := by omega
    have digits := leadDigits_mono shorter
    rw [varint_eq, varint_eq, varintDigits_more small, varintDigits_more (by omega),
      List.length_append, List.length_append, List.length_singleton, List.length_singleton]
    omega

/-- Neither writer nor reader panics; the encodings of the 64-bit numbers have one to ten bytes,
never fewer for a larger number; the reader accepts them and nothing else. -/
theorem varint_bijection :
    (∀ (n : UInt64) (buf : Bytes),
      writeVarintU64Checked buf n = some (buf ++ writeVarintU64 [] n) ∧
      writeVarintU64 buf n = buf ++ writeVarintU64 [] n ∧
      1 ≤ (writeVarintU64 [] n).length ∧ (writeVarintU64 [] n).length ≤ 10) ∧
    (∀ m n : UInt64, m ≤ n → (writeVarintU64 [] m).length ≤ (writeVarintU64 [] n).length) ∧
    (∀ (bytes : Bytes) (n : UInt64) (c : Nat),
      readVarintLoopChecked bytes n c = some (readVarintLoop bytes n c)) ∧
    (∀ (buf : Bytes) (c : Nat) (n : UInt64) (c' : Nat), readVarintU64 buf c = .ok (n, c') ↔
      writeVarintU64 [] n <+: buf.drop c ∧ c' = c + (writeVarintU64 [] n).length) ∧
    (∀ (n : UInt64) (before suffix : Bytes),
      readVarintU64 (before ++ writeVarintU64 [] n ++ suffix) before.length =
        .ok (n, before.length + (writeVarintU64 [] n).length)) ∧
    (∀ m n : UInt64, writeVarintU64 [] m <+: writeVarintU64 [] n → m = n) ∧
    (∀ (buf : Bytes) (c : Nat), readVarintU64 buf c = .error .varIntTooLarge →
      ∀ n : UInt64, ¬ writeVarintU64 [] n <+: buf.drop c) := by
  have appends : ∀ (n : UInt64) (buf : Bytes), writeVarintU64 buf n = buf ++ varint n := by
    intro n buf
    rw [writeVarintU64_eq, varint_eq]
  refine ⟨?_, fun m n => varint_length_mono, readVarintLoopChecked_eq, readVarintU64_ok_iff,
    varint_decodes, fun m n => (varint_decodes m).eq_of_append (varint_decodes n), ?_⟩
  · intro n buf
    have bound : n.toNat < 2 ^ 64 := n.toNat_lt
    refine ⟨?_, appends n buf, varint_length_pos n, varint_length 9 (by omega)⟩
    rw [writeVarintU64Checked_eq, appends]
    rfl
  · intro buf c tooLarge n here
    have read := (readVarintU64_ok_iff buf c n _).mpr ⟨here, rfl⟩
    rw [tooLarge] at read
    cases read

end CmmEncrypt.Varint
