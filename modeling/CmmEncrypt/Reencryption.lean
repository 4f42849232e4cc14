import CmmEncrypt.Recovery
import CmmEncrypt.Reserialization
import CmmEncrypt.SmallCurve

/-!
# Encrypting again what was decrypted

Nothing in the wrapping of an outer descriptor is random once its key is known. An
entry that was written by anyone, the daemon included, comes out again byte for byte
when it is opened and wrapped under the same key, provided that the crate can write
what is inside.
-/

namespace CmmEncrypt.Reencryption

open Cursor Exactness Wire WireCodec Layout Vdxf Descriptor Sapling Api Passes Shapes Recovery
open Reserialization FallibleState

variable {r : ℕ} {Point Rng : Type} (P : Primitives r Point Rng)

/-- `chacha20poly1305`: only the encryption of a plaintext decrypts to it. -/
structure AeadExact : Prop where
  again : ∀ key nonce ciphertext plaintext,
    P.chachaDecrypt key nonce ciphertext = some plaintext →
      P.chachaEncrypt key nonce plaintext = some ciphertext

variable {P}

theorem aeadDecrypt_ok_iff {key : ByteArr 32} {ciphertext plaintext : Bytes} :
    aeadDecrypt P key ciphertext = .ok plaintext ↔
      P.chachaDecrypt key zeroNonce ciphertext = some plaintext := by
  rw [aeadDecrypt]
  cases P.chachaDecrypt key zeroNonce ciphertext with
  | none => simp
  | some found => simp

/-- Bytes that unwrap are the frame around a descriptor's own encoding. -/
theorem unwrapDescriptor_exact {key : ByteArr 20} {bytes : Bytes} {cdd : CDataDescriptor}
    (h : unwrapDescriptor key bytes = .ok cdd) :
    ∃ body, bytes = render (frame key 1 body) ∧
      Reader.toEnd .leftover readDataDescriptor body = .ok cdd := by
  obtain ⟨body, framed, read⟩ := except_bind_ok_iff.mp h
  exact ⟨body, (unwrapFrame_exact key).toEnd framed, read⟩

/-- Some descriptor wraps to a given ciphertext exactly when its plaintext holds one that the
crate can write. -/
theorem wrap_again_iff (aead : AeadCodec P) (exact : AeadExact P) {key : ByteArr 32}
    {ciphertext plaintext : Bytes} (opened : aeadDecrypt P key ciphertext = .ok plaintext)
    (short : plaintext.length ≤ MAX_SIZE.toNat) (epk : ByteArr 32) (session : Session r Rng) :
    (∃ inner final, WithinCaps inner ∧ wrapEncryptedWithKey P inner key epk session =
        .ok ({ objectData := ciphertext, epk }, final)) ↔
      ∃ cdd, unwrapDescriptor DATA_DESCRIPTOR_KEY_LE plaintext = .ok cdd ∧
        Reproducible cdd := by
  have decrypted := aeadDecrypt_ok_iff.mp opened
  constructor
  · rintro ⟨inner, final, caps, wrapped⟩
    obtain ⟨ct, encrypted, same, _⟩ :=
      (wrapEncryptedWithKey_ok_iff caps.label caps.mimeType).mp wrapped
    obtain ⟨rfl, _⟩ := WrappedEncrypted.mk.inj same
    have back := aead.back _ _ _ _ encrypted
    obtain rfl := Option.some.inj (decrypted.symm.trans back)
    have size := frame_length DATA_DESCRIPTOR_KEY_LE (render (descriptor inner))
    exact ⟨received inner, unwrapDescriptor_frame _ caps (by omega), received_reproducible inner⟩
  · rintro ⟨cdd, unwrapped, reproducible⟩
    obtain ⟨body, rfl, read⟩ := unwrapDescriptor_exact unwrapped
    obtain ⟨label, hlabel⟩ := reproducible.utf8 cdd.label List.mem_cons_self
    obtain ⟨mimeType, hmime⟩ :=
      reproducible.utf8 cdd.mimeType (List.mem_cons_of_mem _ List.mem_cons_self)
    obtain ⟨caps, written⟩ := rewritten_written read reproducible hlabel hmime
    have encrypted := exact.again _ _ _ _ decrypted
    rw [← written] at encrypted
    exact ⟨_, _, caps, (wrapEncryptedWithKey_ok_iff caps.label caps.mimeType).mpr
      ⟨ciphertext, encrypted, rfl, rfl⟩⟩

/-! ## Whole entries -/

theorem keyField_ok {field : Option Bytes} {key : ByteArr 32} (h : keyField field = .ok key) :
    field = some key.toList := by
  cases field with
  | none => cases h
  | some bytes =>
    rw [keyField, fixed] at h
    split at h
    · cases h
      rfl
    · cases h

/-- What is decrypted, and with which key. -/
theorem decryptObject_ok [AddCommGroup Point] {ivk epk : ByteArr 32} {cdd : CDataDescriptor}
    {plaintext : Bytes} (hepk : keyField cdd.epk = .ok epk)
    (h : decryptObject P ivk cdd = .ok plaintext) :
    ∃ secret, saplingKaAgree P ivk epk = .ok secret ∧
      aeadDecrypt P (kdfSapling P secret epk) cdd.objectData = .ok plaintext := by
  rw [decryptObject] at h
  obtain ⟨epk', field, h⟩ := except_bind_ok_iff.mp h
  obtain rfl := Except.ok.inj (hepk.symm.trans field)
  split at h
  · cases h
  · rename_i secret agreed
    split at h
    · cases h
    · rename_i found decrypted
      cases h
      exact ⟨secret, agreed, decrypted⟩

theorem outerCdd_received (w : WrappedEncrypted) (ivk : ByteArr 32) :
    received (outerCdd w ivk) =
      { version := 1, flags := 13, vdxfKey := none, objectData := w.objectData, label := none,
        mimeType := none, salt := none, epk := some w.epk.toList, ivk := some ivk.toList,
        ssk := none } := by
  have flags : calcFlags (outerCdd w ivk) = 13 := by
    simp only [calcFlags, outerCdd, nonempty_key]
    rfl
  rw [received, flags]
  simp only [outerCdd, content_key]
  rfl

/-- The flags 13 name an epk and an ivk and no other field. -/
theorem outer_of_flags {cdd : CDataDescriptor} (checked : Checked cdd) (version : cdd.version = 1)
    (flags : cdd.flags = 13) {epk ivk : ByteArr 32} (hepk : cdd.epk = some epk.toList)
    (hivk : cdd.ivk = some ivk.toList) :
    cdd = received (outerCdd { objectData := cdd.objectData, epk } ivk) := by
  have absent {field : Option Bytes} {bit : UInt32}
      (gate : cdd.flags &&& bit.toUInt64 ≠ 0 ↔ field.isSome) (unset : 13 &&& bit.toUInt64 = 0) :
      field = none := by
    rw [flags, unset] at gate
    simpa using gate
  have key := absent checked.vdxfKey rfl
  have label := absent checked.label rfl
  have mimeType := absent checked.mimeType rfl
  have salt := absent checked.salt rfl
  have ssk := absent checked.ssk rfl
  rw [outerCdd_received]
  cases cdd
  simp only at version flags hepk hivk key label mimeType salt ssk
  simp only [version, flags, hepk, hivk, key, label, mimeType, salt, ssk]

/-- An outer descriptor that opens is reproduced by wrapping and writing again exactly when it
has version 1 and flags 13 and the crate can write the descriptor inside. -/
theorem entry_reproduced_iff [AddCommGroup Point] (aead : AeadCodec P) (exact : AeadExact P)
    {entry : Bytes} {cdd : CDataDescriptor}
    (read : Reader.toEnd .leftover readDataDescriptor entry = .ok cdd)
    {ivk epk : ByteArr 32} (hivk : keyField cdd.ivk = .ok ivk)
    (hepk : keyField cdd.epk = .ok epk) {plaintext : Bytes}
    (opened : decryptObject P ivk cdd = .ok plaintext) (session : Session r Rng) :
    (∃ secret inner w final, saplingKaAgree P ivk epk = .ok secret ∧ WithinCaps inner ∧
        wrapEncryptedWithKey P inner (kdfSapling P secret epk) epk session = .ok (w, final) ∧
        w.objectData.length ≤ MAX_SIZE.toNat ∧
        writeDataDescriptor (outerCdd w ivk) [] = .ok () entry) ↔
      cdd.version = 1 ∧ cdd.flags = 13 ∧
        ∃ inner, unwrapDescriptor DATA_DESCRIPTOR_KEY_LE plaintext = .ok inner ∧
          Reproducible inner := by
  obtain ⟨whole, checked⟩ := readDataDescriptor_exact (Reader.toEnd_ok read)
  rw [List.drop_zero, List.drop_length, List.append_nil] at whole
  have object := checked.lengths _ List.mem_cons_self cdd.objectData rfl
  obtain ⟨secret, agreed, decrypted⟩ := decryptObject_ok hepk opened
  have size := aead.length _ _ _ _ (exact.again _ _ _ _ (aeadDecrypt_ok_iff.mp decrypted))
  have again := wrap_again_iff aead exact decrypted (by omega) epk session
  have wrote (w : WrappedEncrypted) : writeDataDescriptor (outerCdd w ivk) [] =
      .ok () ([] ++ render (descriptor (outerCdd w ivk))) :=
    writeDataDescriptor_appends (outerCdd w ivk) (Nat.zero_le 64) (Nat.zero_le 128) []
  constructor
  · rintro ⟨secret', inner, w, final, agreed', caps, wrapped, short, written⟩
    obtain rfl := Except.ok.inj (agreed.symm.trans agreed')
    rw [wrote, List.nil_append] at written
    obtain rfl : render (descriptor (outerCdd w ivk)) = entry := by
      injection written
    have outer := outer_withinCaps (w := w) ivk short
    have decoded := (descriptor_decodes _ outer.label outer.mimeType outer.toFits).toEnd
      ReadError.leftover
    obtain rfl := Except.ok.inj (read.symm.trans decoded)
    obtain ⟨_, _, rfl, _⟩ := (wrapEncryptedWithKey_ok_iff caps.label caps.mimeType).mp wrapped
    refine ⟨?_, ?_, again.mp ⟨inner, final, caps, wrapped⟩⟩
    · rw [outerCdd_received]
    · rw [outerCdd_received]
  · rintro ⟨version, flags, unwrapped⟩
    obtain ⟨inner, final, caps, wrapped⟩ := again.mpr unwrapped
    refine ⟨secret, inner, _, final, agreed, caps, wrapped, object, ?_⟩
    rw [wrote, List.nil_append, descriptor_encoding,
      ← outer_of_flags checked version flags (keyField_ok hepk) (keyField_ok hivk), whole]

/-! ## The small curve -/

theorem smallCurve_exact : AeadExact SmallCurve.primitives where
  again key nonce ciphertext plaintext h := by
    simp only [SmallCurve.primitives] at h ⊢
    split at h
    · rename_i suffix
      obtain ⟨front, rfl⟩ := List.isSuffixOf_iff_suffix.mp suffix
      cases h
      rw [List.length_append, SmallCurve.tag_length, Nat.add_sub_cancel, List.take_left]
    · cases h

/-- A wrapped pointer, opened and wrapped again. -/
theorem entry_reproduced_small : ∃ (entry : Bytes) (cdd : CDataDescriptor),
    Reader.toEnd .leftover readDataDescriptor entry = .ok cdd ∧ cdd.flags = 13 ∧
      ∃ plaintext inner, decryptObject SmallCurve.primitives (SmallCurve.primitives.frToBytes 1)
          cdd = .ok plaintext ∧
        unwrapDescriptor DATA_DESCRIPTOR_KEY_LE plaintext = .ok inner ∧ Reproducible inner := by
  have agreed := saplingKaAgree_eq SmallCurve.fr SmallCurve.points 1 8
  generalize SmallCurve.primitives.pointToBytes
    (CofactorGroup.act (1 : ZMod SmallCurve.r) (mulByCofactor 8)) = secret at agreed
  generalize SmallCurve.primitives.pointToBytes 8 = epk at agreed
  generalize SmallCurve.primitives.frToBytes 1 = ivk at agreed ⊢
  have capLabel : utf8Length (some "l") ≤ 64 := by decide
  have capMime : utf8Length none ≤ 128 := by decide
  have small : UInt32.toNat 0 < 128 := by decide
  have caps := inner_withinCaps 7 small capLabel capMime
  have sealed : SmallCurve.primitives.chachaEncrypt (kdfSapling SmallCurve.primitives secret epk)
      zeroNonce (outerPlaintext 7 0 (some "l") none) = some (outerPlaintext 7 0 (some "l") none ++
        SmallCurve.tag (kdfSapling SmallCurve.primitives secret epk)) := rfl
  have back := SmallCurve.aead.back _ _ _ _ sealed
  have size := SmallCurve.aead.length _ _ _ _ sealed
  generalize outerPlaintext 7 0 (some "l") none ++ _ = ciphertext at sealed back size
  have short : ciphertext.length ≤ MAX_SIZE.toNat := by
    have plain := outerPlaintext_length 7 small capLabel capMime
    have max : MAX_SIZE.toNat = 0x02000000 := rfl
    omega
  obtain ⟨final, wrapped⟩ : ∃ final, wrapEncryptedWithKey SmallCurve.primitives
      (innerCdd 7 0 (some "l") none) (kdfSapling SmallCurve.primitives secret epk) epk
        ⟨1, [], []⟩ = .ok (⟨ciphertext, epk⟩, final) :=
    ⟨_, (wrapEncryptedWithKey_ok_iff capLabel capMime).mpr ⟨ciphertext, sealed, rfl, rfl⟩⟩
  have outer := outer_withinCaps (w := ⟨ciphertext, epk⟩) ivk short
  have read := (descriptor_decodes _ outer.label outer.mimeType outer.toFits).toEnd
    ReadError.leftover
  have keys := outerCdd_received ⟨ciphertext, epk⟩ ivk
  have opened : decryptObject SmallCurve.primitives ivk
      (received (outerCdd ⟨ciphertext, epk⟩ ivk)) =
        .ok (outerPlaintext 7 0 (some "l") none) := by
    rw [keys, decryptObject, keyField_toList]
    simp only [bind, Except.bind, agreed, aeadDecrypt, back]
  have hivk : keyField (received (outerCdd ⟨ciphertext, epk⟩ ivk)).ivk = .ok ivk := by
    rw [keys, keyField_toList]
  have hepk : keyField (received (outerCdd ⟨ciphertext, epk⟩ ivk)).epk = .ok epk := by
    rw [keys, keyField_toList]
  have written := writeDataDescriptor_appends _ outer.label outer.mimeType []
  obtain ⟨_, flags, inner, unwrapped, reproducible⟩ :=
    (entry_reproduced_iff SmallCurve.aead smallCurve_exact read hivk hepk opened ⟨1, [], []⟩).mp
      ⟨secret, _, _, final, agreed, caps, wrapped, short, written⟩
  exact ⟨_, _, read, flags, _, inner, opened, unwrapped, reproducible⟩

end CmmEncrypt.Reencryption
