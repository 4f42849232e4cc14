import CmmEncrypt.Shapes

/-!
# Opening an entry

What a reader does with the two artifacts and nothing else: parse the value of the
entry, decrypt each descriptor with the keys found in it, follow its pointer into
the evidence gathered from the outputs, and decrypt what lies there with the same key.
-/

namespace CmmEncrypt.Recovery

open Cursor Wire WireCodec Layout Vdxf DataRef Descriptor Evidence BreakApart Script Splitting
open Sapling CofactorGroup Api Passes Executions Shapes

/-- A field of a fixed width. -/
def fixed (n : ℕ) (bytes : Bytes) : Except ReadError (ByteArr n) :=
  if size : bytes.length = n then .ok ⟨bytes, size⟩ else .error .wrongWidth

def keyField (field : Option Bytes) : Except ReadError (ByteArr 32) :=
  match field with
  | some bytes => fixed 32 bytes
  | none => .error .missingKey

variable {r : ℕ} {Point Rng : Type} [AddCommGroup Point]

/-- Decrypt the objectData of a descriptor with its epk and a viewing key. -/
def decryptObject (P : Primitives r Point Rng) (ivk : ByteArr 32) (cdd : CDataDescriptor) :
    Except ReadError Bytes := do
  let epk ← keyField cdd.epk
  match saplingKaAgree P ivk epk with
  | .error _ => .error .undecryptable
  | .ok dhsecret =>
    match aeadDecrypt P (kdfSapling P dhsecret epk) cdd.objectData with
    | .error _ => .error .undecryptable
    | .ok plaintext => .ok plaintext

/-- The descriptor in a frame, both to their ends. -/
def unwrapDescriptor (key : ByteArr 20) (bytes : Bytes) : Except ReadError CDataDescriptor := do
  let body ← Reader.toEnd .leftover (unwrapFrame key) bytes
  Reader.toEnd .leftover readDataDescriptor body

/-! ## The evidence -/

/-- The part of a split evidence in one output. -/
def scriptPart (script : Bytes) : Except ReadError (Fragment UInt8) := do
  let wrapper ← scriptEvidence script
  readPart wrapper

def readImportProof (bytes : Bytes) : Except ReadError CNotaryEvidence := do
  let evidence ← Reader.toEnd .leftover readNotaryEvidence bytes
  if evidence.type = NOTARY_TYPE_IMPORT_PROOF then .ok evidence else .error .wrongType

/-- The single evidence of the outputs, or the one whose parts they carry in order. -/
def readDeposit (scripts : List Bytes) : Except ReadError CNotaryEvidence :=
  match scripts with
  | [script] => do
    let bytes ← scriptEvidence script
    readImportProof bytes
  | scripts => do
    let (bytes, more) ← reassemble scriptPart .wrongPart scripts
    if more = [] then readImportProof bytes else .error .leftover

/-- The dataVec numbered by a pointer, under its key. -/
def objectAt (objects : List ChainObject) (subObject : UInt32) :
    Except ReadError (ByteArr 20 × Bytes) :=
  match objects[subObject.toNat]? with
  | some (.data vdxfKey dataVec) => do
    let key ← fixed 20 vdxfKey
    pure (key, dataVec)
  | _ => .error .noSuchObject

/-! ## The entry -/

/-- What one descriptor of an entry leads to. -/
structure Recovered where
  pointer : SelfRefPointer
  label : Option Bytes
  mimeType : Option Bytes
  contents : Bytes
  deriving DecidableEq

def openDescriptor (P : Primitives r Point Rng) (objects : List ChainObject)
    (cdd : CDataDescriptor) : Except ReadError Recovered := do
  let ivk ← keyField cdd.ivk
  let plaintext ← decryptObject P ivk cdd
  let inner ← unwrapDescriptor DATA_DESCRIPTOR_KEY_LE plaintext
  let pointer ← Reader.toEnd .leftover readCvdxfDataRef inner.objectData
  let (key, dataVec) ← objectAt objects pointer.subObject
  let pass1 ← unwrapDescriptor key dataVec
  let contents ← decryptObject P ivk pass1
  pure { pointer, label := inner.label, mimeType := inner.mimeType, contents }

def openEntry (P : Primitives r Point Rng) (cmmValue : Bytes) (scripts : List Bytes) :
    Except ReadError (List Recovered) := do
  let descriptors ← Reader.sequence .leftover readDataDescriptor cmmValue
  let evidence ← readDeposit scripts
  descriptors.mapM (openDescriptor P evidence.objects)

/-! ## Fields and layers -/

theorem fixed_toList {n : ℕ} (v : ByteArr n) : fixed n v.toList = .ok v := by
  rw [fixed, dif_pos v.toList_length]
  rfl

theorem keyField_toList (v : ByteArr 32) : keyField (some v.toList) = .ok v := fixed_toList v

theorem absent_fits : ∀ b : Bytes, none = some b → b.length ≤ MAX_SIZE.toNat := nofun

theorem key_fits (key : ByteArr 32) :
    ∀ b : Bytes, some key.toList = some b → b.length ≤ MAX_SIZE.toNat := by
  intro b present
  rw [← Option.some.inj present, List.Vector.toList_length]
  decide

theorem pass1_withinCaps {pass : Pass r} (fits : pass.ciphertext.length ≤ MAX_SIZE.toNat) :
    WithinCaps (pass1Cdd pass) where
  objectData := fits
  salt := absent_fits
  epk := key_fits pass.epk
  ivk := absent_fits
  ssk := absent_fits
  label := Nat.zero_le 64
  mimeType := Nat.zero_le 128

theorem outer_withinCaps {w : WrappedEncrypted} (ivkBytes : ByteArr 32)
    (fits : w.objectData.length ≤ MAX_SIZE.toNat) : WithinCaps (outerCdd w ivkBytes) where
  objectData := fits
  salt := absent_fits
  epk := key_fits w.epk
  ivk := key_fits ivkBytes
  ssk := absent_fits
  label := Nat.zero_le 64
  mimeType := Nat.zero_le 128

theorem inner_withinCaps (voutIndex : UInt32) {subObject : UInt32}
    (small : subObject.toNat < 128) {label mimeType : Option String}
    (capLabel : utf8Length label ≤ 64) (capMime : utf8Length mimeType ≤ 128) :
    WithinCaps (innerCdd voutIndex subObject label mimeType) where
  objectData := by
    have size := ref_length voutIndex small
    change (render (cvdxfDataRef { voutIndex, objectNum := 0, subObject })).length ≤ _
    rw [size]
    decide
  salt := absent_fits
  epk := absent_fits
  ivk := absent_fits
  ssk := absent_fits
  label := capLabel
  mimeType := capMime

/-- A framed descriptor is unwrapped to what its fields say. -/
theorem unwrapDescriptor_frame (key : ByteArr 20) {dd : DataDescriptor} (caps : WithinCaps dd)
    (fits : (render (descriptor dd)).length ≤ MAX_SIZE.toNat) :
    unwrapDescriptor key (render (frame key 1 (render (descriptor dd)))) = .ok (received dd) := by
  have framed := (unwrapFrame_decodes key fits).toEnd .leftover
  have body := (descriptor_decodes dd caps.label caps.mimeType caps.toFits).toEnd .leftover
  rw [unwrapDescriptor, framed]
  exact body

/-- What is unwrapped is shorter than its frame. -/
theorem unwrapDescriptor_ok {key : ByteArr 20} {bytes : Bytes} {inner : CDataDescriptor}
    (h : unwrapDescriptor key bytes = .ok inner) :
    inner.objectData.length + 20 ≤ bytes.length := by
  rw [unwrapDescriptor] at h
  cases framed : Reader.toEnd .leftover (unwrapFrame key) bytes with
  | error e =>
    rw [framed] at h
    cases h
  | ok body =>
    rw [framed] at h
    have object := readDataDescriptor_ok (Reader.toEnd_ok h)
    have inside := (unwrapFrame_ok (Reader.toEnd_ok framed)).2
    omega

section Passes

variable [DecidableEq Point] {P : Primitives r Point Rng} {d : ByteArr 11} {gD : Point}
variable {ivk : ZMod r} {rng : Rng}

/-- The holder of the viewing key decrypts what a pass encrypted. -/
theorem decryptObject_pass (fr : FrCodec P) (points : PointCodec P) (aead : AeadCodec P)
    (accepted : deriveGD P d = some gD) {contents : Bytes} {pass : Pass r}
    (made : Makes P d (P.pointToBytes (act ivk gD)) rng contents pass) {cdd : CDataDescriptor}
    (epk : cdd.epk = some pass.epk.toList) (object : cdd.objectData = pass.ciphertext) :
    decryptObject P (P.frToBytes ivk) cdd = .ok contents := by
  have agreed : saplingKaAgree P (P.frToBytes ivk) pass.epk = .ok pass.dhsecret := by
    rw [made.epk_eq fr accepted, saplingKaAgree_symm fr points, ← made.esk]
    exact made.dhsecret
  have opened : P.chachaDecrypt (kdfSapling P pass.dhsecret pass.epk) zeroNonce pass.ciphertext =
      some contents := by
    rw [← made.key, ← made.plaintext]
    exact aead.back _ _ _ _ made.encrypted
  rw [decryptObject, epk, keyField_toList, object]
  simp only [bind, Except.bind, agreed, aeadDecrypt, opened]

theorem pass1_opened (fr : FrCodec P) (points : PointCodec P) (aead : AeadCodec P)
    (accepted : deriveGD P d = some gD) {contents : Bytes} {pass : Pass r}
    (made : Makes P d (P.pointToBytes (act ivk gD)) rng contents pass) :
    decryptObject P (P.frToBytes ivk) (received (pass1Cdd pass)) = .ok contents :=
  decryptObject_pass fr points aead accepted made (content_key pass.epk) rfl

/-- An outer descriptor decrypts to a frame around the inner one. -/
theorem outer_opened (fr : FrCodec P) (points : PointCodec P) (aead : AeadCodec P)
    (accepted : deriveGD P d = some gD) {voutIndex subObject : UInt32}
    (small : subObject.toNat < 128) {label mimeType : Option String}
    (capLabel : utf8Length label ≤ 64) (capMime : utf8Length mimeType ≤ 128) {pass : Pass r}
    (made : Makes P d (P.pointToBytes (act ivk gD)) rng
      (outerPlaintext voutIndex subObject label mimeType) pass) :
    decryptObject P (P.frToBytes ivk) (received (outerCdd (wrapped pass) (P.frToBytes ivk))) =
        .ok (outerPlaintext voutIndex subObject label mimeType) ∧
      unwrapDescriptor DATA_DESCRIPTOR_KEY_LE (outerPlaintext voutIndex subObject label mimeType) =
        .ok (received (innerCdd voutIndex subObject label mimeType)) := by
  have short := inner_length voutIndex small capLabel capMime
  have max : MAX_SIZE.toNat = 0x02000000 := rfl
  have fits : (render (descriptor (innerCdd voutIndex subObject label mimeType))).length ≤
      MAX_SIZE.toNat := by omega
  exact ⟨decryptObject_pass fr points aead accepted made (content_key pass.epk) rfl,
    unwrapDescriptor_frame DATA_DESCRIPTOR_KEY_LE
      (inner_withinCaps voutIndex small capLabel capMime) fits⟩

end Passes

end CmmEncrypt.Recovery
