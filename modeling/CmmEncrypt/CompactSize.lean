import CmmEncrypt.WireCodec

/-!
# CompactSize is canonical

The reader accepts the written form of every number up to `MAX_SIZE` and nothing
else: a longer form than needed is refused by its tag, a larger number by the cap.
-/

namespace CmmEncrypt.CompactSize

open Cursor Wire WireCodec

theorem ofLeBytes_lt (bytes : Bytes) : ofLeBytes bytes < 256 ^ bytes.length := by
  induction bytes with
  | nil => simp [ofLeBytes]
  | cons b rest ih =>
    have byte : b.toNat < 2 ^ 8 := b.toNat_lt
    rw [ofLeBytes, List.length_cons, Nat.pow_succ]
    omega

theorem leBytes_ofLeBytes (bytes : Bytes) : leBytes bytes.length (ofLeBytes bytes) = bytes := by
  induction bytes with
  | nil => rfl
  | cons b rest ih =>
    have byte : b.toNat < 2 ^ 8 := b.toNat_lt
    have low : UInt8.ofNat (b.toNat + 256 * ofLeBytes rest) = b := by
      rw [← UInt8.toNat_inj, UInt8.toNat_ofNat']
      omega
    have high : (b.toNat + 256 * ofLeBytes rest) / 256 = ofLeBytes rest := by omega
    rw [ofLeBytes, List.length_cons, leBytes, low, high, ih]

/-- The code of a number, by its value. -/
theorem compactSize_eq (n : UInt64) :
    compactSize n =
      if n.toNat < 253 then [UInt8.ofNat n.toNat]
      else if n.toNat ≤ 0xFFFF then 0xfd :: leBytes 2 n.toNat
      else if n.toNat ≤ 0xFFFFFFFF then 0xfe :: leBytes 4 n.toNat
      else 0xff :: leBytes 8 n.toNat := by
  simp only [compactSize, writeCompactSize, UInt64.lt_iff_toNat_lt, UInt64.le_iff_toNat_le,
    UInt64.reduceToNat, List.nil_append, List.singleton_append]
  split_ifs with one three five
  · have low : n.toUInt8 = UInt8.ofNat n.toNat := by
      rw [← UInt8.toNat_inj, UInt64.toNat_toUInt8, UInt8.toNat_ofNat']
    rw [low]
  · rw [UInt64.toNat_toUInt16, Nat.mod_eq_of_lt (by omega)]
  · rw [UInt64.toNat_toUInt32, Nat.mod_eq_of_lt (by omega)]
  · rfl

/-! ## What the reader accepts -/

/-- A wide form that is accepted: its bytes stand under the cursor, and no shorter form would
have done. -/
theorem wideForm_accepts {k : Nat} {U : Type} {conv : Nat → U} {short : U → Prop}
    [DecidablePred short] (widen : U → UInt64) {buf : Bytes} {c c' : Nat} {n : UInt64}
    (h : (do let v ← (do let slice ← Reader.take WireError.unexpectedEof k
                         pure (conv (ofLeBytes slice)))
             if short v then Reader.fail .nonCanonicalCompactSize else pure (widen v) :
          Reader WireError UInt8 UInt64) buf c = .ok (n, c')) :
    ∃ m, leBytes k m <+: buf.drop c ∧ c' = c + k ∧ m < 256 ^ k ∧ ¬ short (conv m) ∧
      n = widen (conv m) := by
  obtain ⟨v, c₁, read, rest⟩ := Reader.bind_ok h
  obtain ⟨slice, c₂, taken, value⟩ := Reader.bind_ok read
  obtain ⟨under, size, rfl⟩ := Reader.take_ok taken
  obtain ⟨rfl, rfl⟩ := Reader.pure_ok value
  have bytes : leBytes k (ofLeBytes slice) = slice := by
    rw [← size]
    exact leBytes_ofLeBytes slice
  have small : ofLeBytes slice < 256 ^ k := by
    rw [← size]
    exact ofLeBytes_lt slice
  split at rest
  · cases rest
  · rename_i keep
    obtain ⟨rfl, rfl⟩ := Reader.pure_ok rest
    refine ⟨ofLeBytes slice, ?_, rfl, small, keep, rfl⟩
    rw [bytes, under]
    exact List.take_prefix k _

theorem readCompactSizeBody_accepts {tag : UInt8} {buf : Bytes} {c c' : Nat} {n : UInt64}
    (h : readCompactSizeBody tag buf c = .ok (n, c')) :
    ∃ body, compactSize n = tag :: body ∧ body <+: buf.drop c ∧ c' = c + body.length := by
  rw [readCompactSizeBody] at h
  split_ifs at h with one three five
  · obtain ⟨rfl, rfl⟩ := Reader.pure_ok h
    have small : tag.toUInt64.toNat < 253 := by
      rw [UInt8.lt_iff_toNat_lt] at one
      rw [UInt8.toNat_toUInt64]
      exact one
    refine ⟨[], ?_, List.nil_prefix, rfl⟩
    rw [compactSize_eq, if_pos small, UInt8.toNat_toUInt64, UInt8.ofNat_toNat]
  · obtain ⟨m, under, rfl, fits, keep, rfl⟩ := wideForm_accepts _ h
    simp only [UInt16.lt_iff_toNat_lt, UInt16.toNat_ofNat', UInt16.reduceToNat] at keep
    have value : (UInt16.ofNat m).toUInt64.toNat = m := by
      rw [UInt16.toNat_toUInt64, UInt16.toNat_ofNat']
      omega
    refine ⟨leBytes 2 m, ?_, under, by rw [leBytes_length]⟩
    rw [compactSize_eq, value, if_neg (by omega), if_pos (by omega), three]
  · obtain ⟨m, under, rfl, fits, keep, rfl⟩ := wideForm_accepts _ h
    simp only [UInt32.lt_iff_toNat_lt, UInt32.toNat_ofNat', UInt32.reduceToNat] at keep
    have value : (UInt32.ofNat m).toUInt64.toNat = m := by
      rw [UInt32.toNat_toUInt64, UInt32.toNat_ofNat']
      omega
    refine ⟨leBytes 4 m, ?_, under, by rw [leBytes_length]⟩
    rw [compactSize_eq, value, if_neg (by omega), if_neg (by omega), if_pos (by omega), five]
  · obtain ⟨m, under, rfl, fits, keep, value⟩ := wideForm_accepts id h
    obtain rfl : n = UInt64.ofNat m := value
    simp only [UInt64.lt_iff_toNat_lt, UInt64.toNat_ofNat', UInt64.reduceToNat] at keep
    have last : tag = 0xff := by
      have byte : tag.toNat < 2 ^ 8 := tag.toNat_lt
      rw [UInt8.lt_iff_toNat_lt] at one
      rw [← UInt8.toNat_inj] at three five ⊢
      simp only [UInt8.reduceToNat] at one three five ⊢
      omega
    have value : (UInt64.ofNat m).toNat = m := by
      rw [UInt64.toNat_ofNat']
      omega
    refine ⟨leBytes 8 m, ?_, under, by rw [leBytes_length]⟩
    rw [compactSize_eq, value, if_neg (by omega), if_neg (by omega), if_neg (by omega), last]

theorem readU8_ok {buf : Bytes} {c c' : Nat} {b : UInt8} (h : readU8 buf c = .ok (b, c')) :
    buf.drop c = b :: buf.drop (c + 1) ∧ c' = c + 1 := by
  rw [readU8] at h
  split at h
  · rename_i b' here
    obtain ⟨rfl, rfl⟩ := Prod.mk.inj (Except.ok.inj h)
    obtain ⟨inside, value⟩ := List.getElem?_eq_some_iff.mp here
    rw [List.drop_eq_getElem_cons inside, value]
    exact ⟨rfl, rfl⟩
  · cases h

/-- The reader accepts a number exactly where its code stands, if it is within the cap. -/
theorem readCompactSize_ok_iff (buf : Bytes) (c : Nat) (n : UInt64) (c' : Nat) :
    readCompactSize buf c = .ok (n, c') ↔
      n ≤ MAX_SIZE ∧ compactSize n <+: buf.drop c ∧ c' = c + (compactSize n).length := by
  constructor
  · intro h
    obtain ⟨tag, c₁, first, h⟩ := Reader.bind_ok h
    obtain ⟨m, c₂, parsed, h⟩ := Reader.bind_ok h
    obtain ⟨here, rfl⟩ := readU8_ok first
    obtain ⟨body, code, ⟨rest, under⟩, rfl⟩ := readCompactSizeBody_accepts parsed
    split at h
    · cases h
    · rename_i fits
      obtain ⟨rfl, rfl⟩ := Reader.pure_ok h
      refine ⟨UInt64.not_lt.mp fits, ⟨rest, ?_⟩, ?_⟩
      · rw [code, here, ← under, List.cons_append]
      · rw [code, List.length_cons]
        omega
  · rintro ⟨fits, ⟨rest, under⟩, rfl⟩
    have inside : c ≤ buf.length := by
      by_contra outside
      have size := congrArg List.length under
      rw [List.length_append, compactSize_length, List.length_drop, compactSizeLen] at size
      split_ifs at size <;> omega
    have split : buf = buf.take c ++ compactSize n ++ rest := by
      rw [List.append_assoc, under, List.take_append_drop]
    have h := compactSize_decodes fits (buf.take c) rest
    rw [← split, List.length_take, Nat.min_eq_left inside] at h
    exact h

/-! ## What it refuses -/

/-- A wide form of a number that has a shorter one. -/
theorem overlong_refused {tag : UInt8} {k m : Nat} (fits : m < 256 ^ k) {U : Type}
    (conv : Nat → U) (short : U → Prop) [DecidablePred short] (widen : U → UInt64)
    (body : readCompactSizeBody tag = do
      let v ← (do let slice ← Reader.take WireError.unexpectedEof k
                  pure (conv (ofLeBytes slice)))
      if short v then Reader.fail .nonCanonicalCompactSize else pure (widen v))
    (small : short (conv m)) (before suffix : Bytes) :
    readCompactSize (before ++ tag :: leBytes k m ++ suffix) before.length =
      .error .nonCanonicalCompactSize := by
  have first := (readU8_decodes tag).run_bind (f := fun tag => do
    let n ← readCompactSizeBody tag
    if n > MAX_SIZE then Reader.fail .compactSizeTooLarge else pure n) before
    (leBytes k m ++ suffix)
  have second := (leBytes_decodes fits conv).run_bind (f := fun v =>
    if short v then Reader.fail .nonCanonicalCompactSize else pure (widen v))
    (before ++ [tag]) suffix
  rw [if_pos small] at second
  simp only [List.append_assoc, List.length_append, List.length_singleton, List.cons_append,
    List.nil_append] at first second ⊢
  rw [readCompactSize, first, body]
  exact Reader.bind_error second

/-- The code of a number is read back before the cap is applied, so that no two codes agree. -/
theorem compactSize_prefix {m n : UInt64} (front : compactSize m <+: compactSize n) : m = n := by
  have uncapped : ∀ n, Decodes (readU8 >>= readCompactSizeBody) (compactSize n) n := by
    intro n
    obtain ⟨tag, body, code, parsed⟩ := compactSize_body n
    rw [code]
    exact (readU8_decodes tag).bind parsed
  exact (uncapped m).eq_of_append (uncapped n) front

/-- The reader accepts the written form of a number within the cap and nothing else; a larger
number and a longer form than needed are refused, each with its own error. -/
theorem compactSize_canonical :
    (∀ (n : UInt64) (buf : Bytes), writeCompactSize buf n = buf ++ writeCompactSize [] n) ∧
    (∀ (buf : Bytes) (c : Nat) (n : UInt64) (c' : Nat), readCompactSize buf c = .ok (n, c') ↔
      n ≤ MAX_SIZE ∧ writeCompactSize [] n <+: buf.drop c ∧
      c' = c + (writeCompactSize [] n).length) ∧
    (∀ (n : UInt64) (before suffix : Bytes), MAX_SIZE < n →
      readCompactSize (before ++ writeCompactSize [] n ++ suffix) before.length =
        .error .compactSizeTooLarge) ∧
    (∀ (m : Nat) (before suffix : Bytes),
      (m < 253 → readCompactSize (before ++ 0xfd :: leBytes 2 m ++ suffix) before.length =
        .error .nonCanonicalCompactSize) ∧
      (m < 2 ^ 16 → readCompactSize (before ++ 0xfe :: leBytes 4 m ++ suffix) before.length =
        .error .nonCanonicalCompactSize) ∧
      (m < 2 ^ 32 → readCompactSize (before ++ 0xff :: leBytes 8 m ++ suffix) before.length =
        .error .nonCanonicalCompactSize)) ∧
    (∀ m n : UInt64, writeCompactSize [] m <+: writeCompactSize [] n → m = n) := by
  refine ⟨fun n buf => writeCompactSize_eq buf n, readCompactSize_ok_iff, ?_, ?_,
    fun m n => compactSize_prefix⟩
  · intro n before suffix large
    exact (readCompactSize_eq n before suffix).trans (if_pos large)
  · intro m before suffix
    refine ⟨?_, ?_, ?_⟩
    · intro small
      refine overlong_refused (by omega) UInt16.ofNat (· < 253) UInt16.toUInt64 rfl ?_ _ _
      simp only [UInt16.lt_iff_toNat_lt, UInt16.toNat_ofNat', UInt16.reduceToNat]
      omega
    · intro small
      refine overlong_refused (by omega) UInt32.ofNat (· < 0x10000) UInt32.toUInt64 rfl ?_ _ _
      simp only [UInt32.lt_iff_toNat_lt, UInt32.toNat_ofNat', UInt32.reduceToNat]
      omega
    · intro small
      refine overlong_refused (by omega) UInt64.ofNat (· < 0x100000000) id rfl ?_ _ _
      simp only [UInt64.lt_iff_toNat_lt, UInt64.toNat_ofNat', UInt64.reduceToNat]
      omega

end CmmEncrypt.CompactSize
