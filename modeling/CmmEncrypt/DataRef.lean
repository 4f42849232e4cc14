import CmmEncrypt.Varint
import CmmEncrypt.Vdxf

/-!
# The CVDXFDataRef self-reference (`data_ref.rs`)

Three integers inside three frames: the evidence reference, its type tag and the
CVDXF_Data envelope. The reader insists on every fixed field.
-/

namespace CmmEncrypt.DataRef

open Cursor Wire WireCodec Layout Varint Vdxf

/-- `CPBaaSEvidenceRef::FLAG_ISEVIDENCE`. -/
def FLAG_ISEVIDENCE : UInt32 := 1

/-- `CCrossChainDataRef::TYPE_CROSSCHAIN_DATAREF`. -/
def TYPE_CROSSCHAIN_DATAREF : UInt8 := 0

structure SelfRefPointer where
  voutIndex : UInt32
  objectNum : UInt32
  subObject : UInt32
  deriving DecidableEq, Repr

def writePbaasEvidenceRefSelfRef (buf : Bytes) (ptr : SelfRefPointer) : Bytes :=
  let buf := writeVarintU64 buf 1
  let buf := writeVarintU64 buf FLAG_ISEVIDENCE.toUInt64
  let buf := buf ++ List.replicate 32 0
  let buf := buf ++ leBytes 4 ptr.voutIndex.toNat
  let buf := writeVarintU64 buf ptr.objectNum.toUInt64
  writeVarintU64 buf ptr.subObject.toUInt64

def writeCrossChainDataRefSelfRef (buf : Bytes) (ptr : SelfRefPointer) : Bytes :=
  writePbaasEvidenceRefSelfRef (buf ++ [TYPE_CROSSCHAIN_DATAREF]) ptr

def writeCvdxfDataRefSelfRef (buf : Bytes) (ptr : SelfRefPointer) : Bytes :=
  let inner := writeCrossChainDataRefSelfRef [] ptr
  writeCvdxfData buf CROSS_CHAIN_DATA_REF_KEY_LE 1 inner

/-- The layout of the CCrossChainDataRef. -/
def crossChainDataRef (ptr : SelfRefPointer) : List Field :=
  [.raw [TYPE_CROSSCHAIN_DATAREF], .varint 1, .varint FLAG_ISEVIDENCE.toUInt64,
    .raw (List.replicate 32 0), .raw (leBytes 4 ptr.voutIndex.toNat),
    .varint ptr.objectNum.toUInt64, .varint ptr.subObject.toUInt64]

/-- The layout of the whole reference. -/
def cvdxfDataRef (ptr : SelfRefPointer) : List Field :=
  frame CROSS_CHAIN_DATA_REF_KEY_LE 1 (render (crossChainDataRef ptr))

theorem writeCrossChainDataRefSelfRef_render (buf : Bytes) (ptr : SelfRefPointer) :
    writeCrossChainDataRefSelfRef buf ptr = buf ++ render (crossChainDataRef ptr) := by
  simp only [writeCrossChainDataRefSelfRef, writePbaasEvidenceRefSelfRef, writeVarintU64_render,
    crossChainDataRef, render_cons, render_nil, Field.bytes, List.append_assoc, List.append_nil]

theorem writeCvdxfDataRefSelfRef_render (buf : Bytes) (ptr : SelfRefPointer) :
    writeCvdxfDataRefSelfRef buf ptr = buf ++ render (cvdxfDataRef ptr) := by
  rw [writeCvdxfDataRefSelfRef, writeCrossChainDataRefSelfRef_render, List.nil_append,
    writeCvdxfData_render, cvdxfDataRef]

/-- Everything but the two object numbers is fixed. -/
theorem crossChainDataRef_length_eq (ptr : SelfRefPointer) :
    (render (crossChainDataRef ptr)).length =
      39 + (varint ptr.objectNum.toUInt64).length + (varint ptr.subObject.toUInt64).length := by
  have one : (varint 1).length = 1 := by decide
  have flag : (varint FLAG_ISEVIDENCE.toUInt64).length = 1 := by decide
  simp only [crossChainDataRef, render_cons, render_nil, Field.bytes, List.length_append,
    List.length_nil, List.length_cons, List.length_replicate, leBytes_length, one, flag]
  omega

/-- Both object numbers take at most five bytes. -/
theorem crossChainDataRef_length (ptr : SelfRefPointer) :
    (render (crossChainDataRef ptr)).length ≤ 49 := by
  have short : ∀ n : UInt32, (varint n.toUInt64).length ≤ 5 := fun n =>
    varint_length 4 (by
      have := n.toNat_lt
      rw [UInt32.toNat_toUInt64]
      omega)
  have object := short ptr.objectNum
  have sub := short ptr.subObject
  rw [crossChainDataRef_length_eq]
  omega

theorem cvdxfDataRef_length_eq (ptr : SelfRefPointer) :
    (render (cvdxfDataRef ptr)).length =
      61 + (varint ptr.objectNum.toUInt64).length + (varint ptr.subObject.toUInt64).length := by
  have short := crossChainDataRef_length ptr
  have tag : compactSizeLen (UInt64.ofNat (render (crossChainDataRef ptr)).length).toNat = 1 := by
    rw [UInt64.toNat_ofNat', Nat.mod_eq_of_lt (by omega), compactSizeLen, if_pos (by omega)]
  rw [cvdxfDataRef, frame_length, tag, crossChainDataRef_length_eq]
  omega

/-- The documented 63 bytes are those of the references with small object numbers. -/
theorem cvdxfDataRef_length_iff (ptr : SelfRefPointer) :
    (render (cvdxfDataRef ptr)).length = 63 ↔
      ptr.objectNum.toNat < 128 ∧ ptr.subObject.toNat < 128 := by
  have object := varint_length_one_iff ptr.objectNum.toUInt64
  have sub := varint_length_one_iff ptr.subObject.toUInt64
  have objectPos := varint_length_pos ptr.objectNum.toUInt64
  have subPos := varint_length_pos ptr.subObject.toUInt64
  rw [UInt32.toNat_toUInt64] at object sub
  rw [cvdxfDataRef_length_eq, ← object, ← sub]
  omega

/-! ## Reading the reference -/

def readCrossChainDataRef : Read SelfRefPointer := do
  let tag ← readRaw 1
  require (tag = [TYPE_CROSSCHAIN_DATAREF]) .wrongType
  let version ← readVarint
  require (version = 1) .wrongVersion
  let flags ← readVarint
  require (flags = FLAG_ISEVIDENCE.toUInt64) .wrongReference
  let hash ← readRaw 32
  require (hash = List.replicate 32 0) .wrongReference
  let voutIndex ← readU32
  let objectNum ← readVarintU32
  let subObject ← readVarintU32
  pure { voutIndex, objectNum, subObject }

def readCvdxfDataRef : Read SelfRefPointer := do
  let body ← unwrapFrame CROSS_CHAIN_DATA_REF_KEY_LE
  Reader.within .leftover readCrossChainDataRef body

theorem readCrossChainDataRef_decodes (ptr : SelfRefPointer) :
    Decodes readCrossChainDataRef (render (crossChainDataRef ptr)) ptr := by
  refine decodes_cons (readRaw_decodes rfl) (decodes_require rfl ?_)
  refine decodes_cons (readVarint_decodes 1) (decodes_require rfl ?_)
  refine decodes_cons (readVarint_decodes _) (decodes_require rfl ?_)
  refine decodes_cons (readRaw_decodes List.length_replicate) (decodes_require rfl ?_)
  refine decodes_cons (readU32_decodes ptr.voutIndex) ?_
  refine decodes_cons (readVarintU32_decodes ptr.objectNum) ?_
  exact decodes_cons (readVarintU32_decodes ptr.subObject) (Decodes.pure ptr)

theorem crossChainDataRef_fits (ptr : SelfRefPointer) :
    (render (crossChainDataRef ptr)).length ≤ MAX_SIZE.toNat :=
  Nat.le_trans (crossChainDataRef_length ptr) (by decide)

theorem readCvdxfDataRef_decodes (ptr : SelfRefPointer) :
    Decodes readCvdxfDataRef (render (cvdxfDataRef ptr)) ptr := by
  have body := unwrapFrame_decodes CROSS_CHAIN_DATA_REF_KEY_LE (crossChainDataRef_fits ptr)
  have h := body.bind (f := Reader.within .leftover readCrossChainDataRef)
    ((readCrossChainDataRef_decodes ptr).within .leftover)
  rwa [List.append_nil] at h

/-- The frame of a reference opens to its body, the body to the three numbers and nothing
else, whatever follows; the prefix counts the body; no reference starts another one. -/
theorem dataRef_roundtrip (ptr : SelfRefPointer) :
    ∃ (encoding body : Bytes) (length : UInt64),
      (∀ buf, writeCvdxfDataRefSelfRef buf ptr = buf ++ encoding) ∧
      encoding = CROSS_CHAIN_DATA_REF_KEY_LE.toList ++ writeVarintU64 [] 1 ++
        writeCompactSize [] length ++ body ∧
      length.toNat = body.length ∧
      (∀ before suffix,
        unwrapFrame CROSS_CHAIN_DATA_REF_KEY_LE (before ++ encoding ++ suffix) before.length =
          .ok (body, before.length + encoding.length)) ∧
      Reader.toEnd .leftover readCrossChainDataRef body = .ok ptr ∧
      (encoding.length = 63 ↔ ptr.objectNum.toNat < 128 ∧ ptr.subObject.toNat < 128) ∧
      ∀ ptr', encoding <+: writeCvdxfDataRefSelfRef [] ptr' → ptr = ptr' := by
  have short := crossChainDataRef_length ptr
  refine ⟨render (cvdxfDataRef ptr), render (crossChainDataRef ptr),
    UInt64.ofNat (render (crossChainDataRef ptr)).length,
    fun buf => writeCvdxfDataRefSelfRef_render buf ptr, ?_, ?_,
    unwrapFrame_decodes CROSS_CHAIN_DATA_REF_KEY_LE (crossChainDataRef_fits ptr),
    (readCrossChainDataRef_decodes ptr).toEnd .leftover, cvdxfDataRef_length_iff ptr, ?_⟩
  · simp only [cvdxfDataRef, frame, varBytes, render_cons, render_nil, Field.bytes,
      List.append_assoc, List.append_nil]
    rfl
  · rw [UInt64.toNat_ofNat']
    omega
  · intro ptr' front
    rw [writeCvdxfDataRefSelfRef_render, List.nil_append] at front
    exact (readCvdxfDataRef_decodes ptr).eq_of_append (readCvdxfDataRef_decodes ptr') front

end CmmEncrypt.DataRef
