import CmmEncrypt.Vdxf

/-!
# CNotaryEvidence (`notary_evidence.rs`)

The evidence of an envelope is a fixed header and a counted list of chain objects,
each holding bytes under a key or one numbered part of a longer evidence. Both
shapes are read by one reader, which tells them apart by the type fields.
-/

namespace CmmEncrypt.Evidence

open Cursor Wire WireCodec Layout

/-- `CBaseChainObject::objectType` for CEvidenceData. -/
def OBJTYPE_EVIDENCE_DATA : UInt16 := 10

def EVIDENCE_TYPE_DATA : UInt32 := 1
def EVIDENCE_TYPE_MULTIPART_DATA : UInt32 := 2

def NOTARY_EVIDENCE_VERSION : UInt8 := 1
def NOTARY_TYPE_IMPORT_PROOF : UInt8 := 3
def NOTARY_TYPE_MULTIPART_DATA : UInt8 := 2
def NOTARY_STATE_SUPPORTING : UInt8 := 2

def CROSS_CHAIN_PROOF_VERSION : UInt32 := 1

structure EvidenceEntry where
  vdxfKey : ByteArr 20
  data : Bytes
  deriving DecidableEq

def writeEvidenceData (buf : Bytes) (entry : EvidenceEntry) : Bytes :=
  let buf := writeVarintU64 buf 1
  let buf := writeVarintU64 buf 1 -- again: the daemon serializes the version twice
  let buf := writeVarintU64 buf EVIDENCE_TYPE_DATA.toUInt64
  let buf := buf ++ entry.vdxfKey.toList
  writeVarBytes buf entry.data

def writeEvidenceDataChainObject (buf : Bytes) (entry : EvidenceEntry) : Bytes :=
  writeEvidenceData (buf ++ leBytes 2 OBJTYPE_EVIDENCE_DATA.toNat) entry

def writeCrossChainProof (buf : Bytes) (entries : List EvidenceEntry) : Bytes :=
  let buf := buf ++ leBytes 4 CROSS_CHAIN_PROOF_VERSION.toNat
  let buf := writeVarintU64 buf (UInt64.ofNat entries.length)
  entries.foldl writeEvidenceDataChainObject buf

def writeNotaryEvidenceForEnvelope (buf : Bytes) (systemId : ByteArr 20)
    (entries : List EvidenceEntry) : Bytes :=
  let buf := buf ++ [NOTARY_EVIDENCE_VERSION]
  let buf := buf ++ [NOTARY_TYPE_IMPORT_PROOF]
  let buf := buf ++ systemId.toList
  let buf := buf ++ List.replicate 32 0
  let buf := buf ++ List.replicate 4 0
  let buf := buf ++ [NOTARY_STATE_SUPPORTING]
  writeCrossChainProof buf entries

structure MultiPartDescriptor where
  index : UInt32
  totalLength : UInt64
  start : UInt64
  deriving DecidableEq, Repr

def writeEvidenceDataMultipart (buf : Bytes) (md : MultiPartDescriptor) (chunk : Bytes) : Bytes :=
  let buf := writeVarintU64 buf 1
  let buf := writeVarintU64 buf 1
  let buf := writeVarintU64 buf EVIDENCE_TYPE_MULTIPART_DATA.toUInt64
  let buf := writeVarintU64 buf md.index.toUInt64
  let buf := writeVarintU64 buf md.totalLength
  let buf := writeVarintU64 buf md.start
  writeVarBytes buf chunk

def writeEvidenceDataMultipartChainObject (buf : Bytes) (md : MultiPartDescriptor)
    (chunk : Bytes) : Bytes :=
  writeEvidenceDataMultipart (buf ++ leBytes 2 OBJTYPE_EVIDENCE_DATA.toNat) md chunk

def writeNotaryEvidenceMultipartChunk (buf : Bytes) (systemId : ByteArr 20)
    (md : MultiPartDescriptor) (chunk : Bytes) : Bytes :=
  let buf := buf ++ [NOTARY_EVIDENCE_VERSION]
  let buf := buf ++ [NOTARY_TYPE_MULTIPART_DATA]
  let buf := buf ++ systemId.toList
  let buf := buf ++ List.replicate 32 0
  let buf := buf ++ List.replicate 4 0
  let buf := buf ++ [NOTARY_STATE_SUPPORTING]
  let buf := buf ++ leBytes 4 CROSS_CHAIN_PROOF_VERSION.toNat
  let buf := writeVarintU64 buf 1
  writeEvidenceDataMultipartChainObject buf md chunk

/-! ## Layout -/

def dataObject (entry : EvidenceEntry) : List Field :=
  .raw (leBytes 2 OBJTYPE_EVIDENCE_DATA.toNat) :: .varint 1 :: .varint 1 ::
    .varint EVIDENCE_TYPE_DATA.toUInt64 :: .raw entry.vdxfKey.toList :: varBytes entry.data

def multipartObject (md : MultiPartDescriptor) (chunk : Bytes) : List Field :=
  .raw (leBytes 2 OBJTYPE_EVIDENCE_DATA.toNat) :: .varint 1 :: .varint 1 ::
    .varint EVIDENCE_TYPE_MULTIPART_DATA.toUInt64 :: .varint md.index.toUInt64 ::
    .varint md.totalLength :: .varint md.start :: varBytes chunk

/-- A CNotaryEvidence of either type around `count` laid out chain objects. -/
def notaryEvidence (type : UInt8) (systemId : ByteArr 20) (count : UInt64)
    (objects : List Field) : List Field :=
  .raw [NOTARY_EVIDENCE_VERSION] :: .raw [type] :: .raw systemId.toList ::
    .raw (List.replicate 32 0) :: .raw (List.replicate 4 0) :: .raw [NOTARY_STATE_SUPPORTING] ::
    .raw (leBytes 4 CROSS_CHAIN_PROOF_VERSION.toNat) :: .varint count :: objects

def envelopeEvidence (systemId : ByteArr 20) (entries : List EvidenceEntry) : List Field :=
  notaryEvidence NOTARY_TYPE_IMPORT_PROOF systemId (UInt64.ofNat entries.length)
    (entries.flatMap dataObject)

def multipartEvidence (systemId : ByteArr 20) (md : MultiPartDescriptor) (chunk : Bytes) :
    List Field :=
  notaryEvidence NOTARY_TYPE_MULTIPART_DATA systemId 1 (multipartObject md chunk)

theorem writeEvidenceDataChainObject_render (buf : Bytes) (entry : EvidenceEntry) :
    writeEvidenceDataChainObject buf entry = buf ++ render (dataObject entry) := by
  simp only [writeEvidenceDataChainObject, writeEvidenceData, writeVarintU64_render,
    writeVarBytes_render, dataObject, render_cons, render_nil, Field.bytes, List.append_assoc,
    List.append_nil]

theorem foldl_writeEvidenceDataChainObject (buf : Bytes) (entries : List EvidenceEntry) :
    entries.foldl writeEvidenceDataChainObject buf =
      buf ++ render (entries.flatMap dataObject) := by
  induction entries generalizing buf with
  | nil => simp
  | cons entry entries ih =>
    rw [List.foldl_cons, ih, writeEvidenceDataChainObject_render, List.flatMap_cons,
      render_append, List.append_assoc]

theorem writeNotaryEvidenceForEnvelope_render (buf : Bytes) (systemId : ByteArr 20)
    (entries : List EvidenceEntry) :
    writeNotaryEvidenceForEnvelope buf systemId entries =
      buf ++ render (envelopeEvidence systemId entries) := by
  simp only [writeNotaryEvidenceForEnvelope, writeCrossChainProof, writeVarintU64_render,
    foldl_writeEvidenceDataChainObject, envelopeEvidence, notaryEvidence, render_cons, render_nil,
    Field.bytes, List.append_assoc, List.append_nil]

theorem writeNotaryEvidenceMultipartChunk_render (buf : Bytes) (systemId : ByteArr 20)
    (md : MultiPartDescriptor) (chunk : Bytes) :
    writeNotaryEvidenceMultipartChunk buf systemId md chunk =
      buf ++ render (multipartEvidence systemId md chunk) := by
  simp only [writeNotaryEvidenceMultipartChunk, writeEvidenceDataMultipartChainObject,
    writeEvidenceDataMultipart, writeVarintU64_render, writeVarBytes_render, multipartEvidence,
    notaryEvidence, multipartObject, render_cons, render_nil, Field.bytes, List.append_assoc,
    List.append_nil]

/-! ## Reading evidence -/

inductive ChainObject where
  | data (vdxfKey dataVec : Bytes)
  | multipart (md : MultiPartDescriptor) (chunk : Bytes)
  deriving DecidableEq, Repr

structure CNotaryEvidence where
  type : UInt8
  systemId : Bytes
  objects : List ChainObject
  deriving DecidableEq, Repr

def readDataObject : Read ChainObject := do
  let vdxfKey ← readRaw 20
  let dataVec ← readVarBytes
  pure (.data vdxfKey dataVec)

def readMultipartObject : Read ChainObject := do
  let index ← readVarintU32
  let totalLength ← readVarint
  let start ← readVarint
  let chunk ← readVarBytes
  pure (.multipart { index, totalLength, start } chunk)

def readEvidenceData (type : UInt64) : Read ChainObject :=
  if type = EVIDENCE_TYPE_DATA.toUInt64 then readDataObject
  else if type = EVIDENCE_TYPE_MULTIPART_DATA.toUInt64 then readMultipartObject
  else Reader.fail .wrongType

def readChainObject : Read ChainObject := do
  let objectType ← readU16
  require (objectType = OBJTYPE_EVIDENCE_DATA) .wrongType
  let _ ← readVarint
  let version ← readVarint -- the second of the two wins
  require (version = 1) .wrongVersion
  let type ← readVarint
  readEvidenceData type

def readNotaryEvidence : Read CNotaryEvidence := do
  let version ← readByte
  require (version = NOTARY_EVIDENCE_VERSION) .wrongVersion
  let type ← readByte
  let systemId ← readRaw 20
  let hash ← readRaw 32
  require (hash = List.replicate 32 0) .wrongReference
  let n ← readRaw 4
  require (n = List.replicate 4 0) .wrongReference
  let state ← readByte
  require (state = NOTARY_STATE_SUPPORTING) .wrongType
  let proofVersion ← readU32
  require (proofVersion = CROSS_CHAIN_PROOF_VERSION) .wrongVersion
  let count ← readVarint
  let objects ← Reader.times readChainObject count.toNat
  pure { type, systemId, objects }

theorem readChainObject_data (entry : EvidenceEntry) (fits : entry.data.length ≤ MAX_SIZE.toNat) :
    Decodes readChainObject (render (dataObject entry))
      (.data entry.vdxfKey.toList entry.data) := by
  refine decodes_cons (readU16_decodes OBJTYPE_EVIDENCE_DATA) (decodes_require rfl ?_)
  refine decodes_cons (readVarint_decodes 1) ?_
  refine decodes_cons (readVarint_decodes 1) (decodes_require rfl ?_)
  refine decodes_cons (readVarint_decodes EVIDENCE_TYPE_DATA.toUInt64) ?_
  refine decodes_cons (readRaw_decodes entry.vdxfKey.toList_length) ?_
  exact (readVarBytes_decodes fits).map (ChainObject.data entry.vdxfKey.toList)

theorem readChainObject_multipart (md : MultiPartDescriptor) {chunk : Bytes}
    (fits : chunk.length ≤ MAX_SIZE.toNat) :
    Decodes readChainObject (render (multipartObject md chunk)) (.multipart md chunk) := by
  refine decodes_cons (readU16_decodes OBJTYPE_EVIDENCE_DATA) (decodes_require rfl ?_)
  refine decodes_cons (readVarint_decodes 1) ?_
  refine decodes_cons (readVarint_decodes 1) (decodes_require rfl ?_)
  refine decodes_cons (readVarint_decodes EVIDENCE_TYPE_MULTIPART_DATA.toUInt64) ?_
  refine decodes_cons (readVarintU32_decodes md.index) ?_
  refine decodes_cons (readVarint_decodes md.totalLength) ?_
  refine decodes_cons (readVarint_decodes md.start) ?_
  exact (readVarBytes_decodes fits).map (ChainObject.multipart md)

/-- The header, then whatever the counted objects decode to. -/
theorem readNotaryEvidence_decodes (type : UInt8) (systemId : ByteArr 20) {count : UInt64}
    {fields : List Field} {objects : List ChainObject}
    (body : Decodes (Reader.times readChainObject count.toNat) (render fields) objects) :
    Decodes readNotaryEvidence (render (notaryEvidence type systemId count fields))
      { type, systemId := systemId.toList, objects } := by
  refine decodes_cons (readByte_decodes NOTARY_EVIDENCE_VERSION) (decodes_require rfl ?_)
  refine decodes_cons (readByte_decodes type) ?_
  refine decodes_cons (readRaw_decodes systemId.toList_length) ?_
  refine decodes_cons (readRaw_decodes List.length_replicate) (decodes_require rfl ?_)
  refine decodes_cons (readRaw_decodes List.length_replicate) (decodes_require rfl ?_)
  refine decodes_cons (readByte_decodes NOTARY_STATE_SUPPORTING) (decodes_require rfl ?_)
  refine decodes_cons (readU32_decodes CROSS_CHAIN_PROOF_VERSION) (decodes_require rfl ?_)
  refine decodes_cons (readVarint_decodes count) ?_
  exact body.map (CNotaryEvidence.mk type systemId.toList)

theorem render_flatMap {α : Type} (f : α → List Field) (xs : List α) :
    render (xs.flatMap f) = xs.flatMap (fun x => render (f x)) := by
  rw [render, List.flatMap_assoc]
  rfl

theorem readNotaryEvidence_envelope (systemId : ByteArr 20) (entries : List EvidenceEntry)
    (countable : entries.length < 2 ^ 64)
    (fits : ∀ entry ∈ entries, entry.data.length ≤ MAX_SIZE.toNat) :
    Decodes readNotaryEvidence (render (envelopeEvidence systemId entries))
      { type := NOTARY_TYPE_IMPORT_PROOF, systemId := systemId.toList,
        objects := entries.map (fun entry => .data entry.vdxfKey.toList entry.data) } := by
  refine readNotaryEvidence_decodes NOTARY_TYPE_IMPORT_PROOF systemId ?_
  rw [UInt64.toNat_ofNat', Nat.mod_eq_of_lt countable, render_flatMap]
  exact Decodes.times entries (fun entry => render (dataObject entry)) _
    (fun entry member => readChainObject_data entry (fits entry member))

theorem readNotaryEvidence_multipart (systemId : ByteArr 20) (md : MultiPartDescriptor)
    {chunk : Bytes} (fits : chunk.length ≤ MAX_SIZE.toNat) :
    Decodes readNotaryEvidence (render (multipartEvidence systemId md chunk))
      { type := NOTARY_TYPE_MULTIPART_DATA, systemId := systemId.toList,
        objects := [.multipart md chunk] } := by
  refine readNotaryEvidence_decodes NOTARY_TYPE_MULTIPART_DATA systemId ?_
  have one := Decodes.times [()] (fun _ => render (multipartObject md chunk))
    (fun _ => ChainObject.multipart md chunk)
    (fun _ _ => readChainObject_multipart md fits)
  rwa [List.flatMap_cons, List.flatMap_nil, List.append_nil] at one

/-! ## Both shapes in one buffer -/

/-- Rust's `&[EvidenceEntry]`: no slice is longer than `isize::MAX`. -/
abbrev EntrySlice := { entries : List EvidenceEntry // entries.length < 2 ^ 63 }

/-- What the reader sees of an entry. -/
def EvidenceEntry.read (entry : EvidenceEntry) : ChainObject :=
  .data entry.vdxfKey.toList entry.data

/-- The type is the second byte of an evidence. -/
theorem notaryEvidence_type {type type' : UInt8} {systemId systemId' : ByteArr 20}
    {count count' : UInt64} {fields fields' : List Field}
    (front : render (notaryEvidence type systemId count fields) <+:
      render (notaryEvidence type' systemId' count' fields')) : type = type' := by
  simp only [notaryEvidence, render_cons, Field.bytes, List.singleton_append] at front
  exact (List.cons_prefix_cons.mp (List.cons_prefix_cons.mp front).2).1

/-- An evidence of either shape is read back in front of any suffix, entry by entry, and no
evidence of one shape starts one of the other. -/
theorem notaryEvidence_roundtrip (systemId : ByteArr 20) :
    (∀ entries : EntrySlice, (∀ entry ∈ entries.val, entry.data.length ≤ MAX_SIZE.toNat) →
      ∃ encoding,
        (∀ buf, writeNotaryEvidenceForEnvelope buf systemId entries.val = buf ++ encoding) ∧
        ∀ before suffix, readNotaryEvidence (before ++ encoding ++ suffix) before.length =
          .ok ({ type := NOTARY_TYPE_IMPORT_PROOF, systemId := systemId.toList,
                 objects := entries.val.map EvidenceEntry.read },
            before.length + encoding.length)) ∧
    (∀ (md : MultiPartDescriptor) (chunk : Bytes), chunk.length ≤ MAX_SIZE.toNat →
      ∃ encoding,
        (∀ buf, writeNotaryEvidenceMultipartChunk buf systemId md chunk = buf ++ encoding) ∧
        ∀ before suffix, readNotaryEvidence (before ++ encoding ++ suffix) before.length =
          .ok ({ type := NOTARY_TYPE_MULTIPART_DATA, systemId := systemId.toList,
                 objects := [.multipart md chunk] }, before.length + encoding.length)) ∧
    ∀ (systemId' : ByteArr 20) (entries : List EvidenceEntry) (md : MultiPartDescriptor)
        (chunk : Bytes),
      ¬ writeNotaryEvidenceForEnvelope [] systemId entries <+:
          writeNotaryEvidenceMultipartChunk [] systemId' md chunk ∧
      ¬ writeNotaryEvidenceMultipartChunk [] systemId' md chunk <+:
          writeNotaryEvidenceForEnvelope [] systemId entries := by
  refine ⟨?_, ?_, ?_⟩
  · rintro ⟨entries, size⟩ fits
    have countable : entries.length < 2 ^ 64 := by omega
    exact ⟨_, fun buf => writeNotaryEvidenceForEnvelope_render buf systemId entries,
      readNotaryEvidence_envelope systemId entries countable fits⟩
  · intro md chunk fits
    exact ⟨_, fun buf => writeNotaryEvidenceMultipartChunk_render buf systemId md chunk,
      readNotaryEvidence_multipart systemId md fits⟩
  · intro systemId' entries md chunk
    rw [writeNotaryEvidenceForEnvelope_render, writeNotaryEvidenceMultipartChunk_render,
      List.nil_append, List.nil_append]
    constructor
    · intro front
      exact absurd (notaryEvidence_type front) (by decide)
    · intro front
      exact absurd (notaryEvidence_type front) (by decide)

/-- Two entries, one of them without data. -/
theorem notaryEvidence_roundtrip_two :
    ∃ encoding, readNotaryEvidence (encoding ++ [0xFF]) 0 =
      .ok ({ type := 3, systemId := List.replicate 20 0xBB,
             objects := [.data (List.replicate 20 0xAA) [1, 2],
               .data (List.replicate 20 0xCC) []] }, encoding.length) := by
  obtain ⟨encoding, _, read⟩ := (notaryEvidence_roundtrip (List.Vector.replicate 20 0xBB)).1
    ⟨[⟨List.Vector.replicate 20 0xAA, [1, 2]⟩, ⟨List.Vector.replicate 20 0xCC, []⟩], by decide⟩
    (by decide)
  have h := read [] [0xFF]
  rw [List.nil_append, List.length_nil, Nat.zero_add] at h
  exact ⟨encoding, h⟩

end CmmEncrypt.Evidence
