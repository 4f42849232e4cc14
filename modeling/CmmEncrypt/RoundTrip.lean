import CmmEncrypt.Capacity
import CmmEncrypt.Outputs
import CmmEncrypt.Recovery

/-!
# End to end

A reader of the two artifacts recovers what was encrypted: the value of the entry
parses to its descriptors, the outputs give the evidence back, whether it was split
or not, and each descriptor leads to its own object.
-/

namespace CmmEncrypt.RoundTrip

open Cursor Wire WireCodec Layout Vdxf DataRef Descriptor Evidence BreakApart Script Splitting
open Sapling CofactorGroup Api Deposit Passes Executions Shapes Recovery Outcomes Outputs Capacity

/-- What a request should be read back as, one item for every descriptor. -/
def recovered (request : EncryptRequest) : List Recovered :=
  { pointer := pointerTo request 0,
    label := (contentStr request.label).map asBytes,
    mimeType := (contentStr request.mimeType).map asBytes,
    contents := request.plaintext.val } ::
  (request.signature.map fun signature =>
    { pointer := pointerTo request 1,
      label := some (asBytes "signature"), mimeType := some (asBytes "application/json"),
      contents := signature.val : Recovered }).toList

/-! ## Gathering the evidence -/

theorem readDeposit_many {scripts : List Bytes} (many : 2 ≤ scripts.length) :
    readDeposit scripts = (do
      let (bytes, more) ← reassemble scriptPart .wrongPart scripts
      if more = [] then readImportProof bytes else .error .leftover) := by
  match scripts with
  | [] => cases many
  | [_] =>
    rw [List.length_singleton] at many
    omega
  | _ :: _ :: _ => rfl

/-- However an evidence is laid out over outputs, it is gathered again. -/
theorem readDeposit_scripts (systemId : ByteArr 20) {evidence : Bytes} (nonempty : evidence ≠ [])
    (countable : pieceCount maxChunk evidence < 2 ^ 32) :
    readDeposit (depositScripts systemId evidence) = readImportProof evidence := by
  have positive : 0 < maxChunk := by decide
  rcases Nat.lt_or_ge (evidenceScript evidence).length MAX_SCRIPT_ELEMENT_SIZE with short | long
  · rw [depositScripts_single systemId short, readDeposit, scriptEvidence_short short]
    rfl
  · have parts : ∀ i < pieceCount maxChunk evidence,
        scriptPart (evidenceScript (render (wrapper systemId maxChunk evidence i))) =
          .ok (partOf maxChunk evidence i) := by
      intro i inside
      rw [scriptPart, (wrapper_carried systemId evidence i).item]
      exact readPart_wrapper systemId positive (by decide) countable inside
    have gathered := reassemble_pieces positive nonempty
      (fun i => evidenceScript (render (wrapper systemId maxChunk evidence i))) .wrongPart [] parts
    have many : 2 ≤ (depositScripts systemId evidence).length := by
      rw [depositScripts_split systemId long, List.length_map, List.length_range]
      exact two_pieces long
    rw [readDeposit_many many, depositScripts_split systemId long]
    rw [List.append_nil] at gathered
    rw [gathered]
    rfl

theorem readImportProof_envelope (systemId : ByteArr 20) {entries : List EvidenceEntry}
    (countable : entries.length < 2 ^ 64)
    (fits : ∀ entry ∈ entries, entry.data.length ≤ MAX_SIZE.toNat) :
    readImportProof (render (envelopeEvidence systemId entries)) =
      .ok { type := NOTARY_TYPE_IMPORT_PROOF, systemId := systemId.toList,
            objects := entries.map (fun entry => .data entry.vdxfKey.toList entry.data) } := by
  have parsed := (readNotaryEvidence_envelope systemId entries countable fits).toEnd .leftover
  rw [readImportProof, parsed]
  simp only [bind, Except.bind, if_true]

theorem dataObject_length_le (entry : EvidenceEntry) :
    (render (dataObject entry)).length ≤ 34 + entry.data.length := by
  have one : (varint 1).length = 1 := by decide
  have type : (varint EVIDENCE_TYPE_DATA.toUInt64).length = 1 := by decide
  have data := varBytes_length_le entry.data
  simp only [dataObject, render_cons, Field.bytes, List.length_append, leBytes_length, one, type,
    List.Vector.toList_length]
  omega

/-- Two readable entries make far fewer than 2^32 pieces. -/
theorem evidence_countable {r : ℕ} {Point Rng : Type} {e : Execution r Point Rng}
    (systemId : ByteArr 20)
    (fits : ∀ entry ∈ entries e, entry.data.length ≤ MAX_SIZE.toNat) :
    pieceCount maxChunk (evidence systemId e) < 2 ^ 32 := by
  have max : MAX_SIZE.toNat = 0x02000000 := rfl
  have count : (varint (UInt64.ofNat (entries e).length)).length ≤ 10 :=
    varint_length 9 (by have := (UInt64.ofNat (entries e).length).toNat_lt; omega)
  have objects : (render ((entries e).flatMap dataObject)).length ≤
      (entries e).length • (34 + MAX_SIZE.toNat) := by
    have each : ∀ size ∈ (entries e).map (fun entry => (render (dataObject entry)).length),
        size ≤ 34 + MAX_SIZE.toNat := by
      intro size member
      obtain ⟨entry, inside, rfl⟩ := List.mem_map.mp member
      have object := dataObject_length_le entry
      have data := fits entry inside
      omega
    have total := List.sum_le_card_nsmul _ _ each
    rw [List.length_map] at total
    rw [render_flatMap, List.length_flatMap]
    exact total
  have two := Nat.mul_le_mul_right (34 + MAX_SIZE.toNat) (entries_length_le e)
  have size : (evidence systemId e).length ≤ 73 + 2 * (34 + MAX_SIZE.toNat) := by
    rw [evidence, envelopeEvidence, notaryEvidence_length]
    rw [smul_eq_mul] at objects
    omega
  by_contra many
  have long := (lt_pieceCount (by decide : 0 < maxChunk) (evidence systemId e) (2 ^ 32 - 1)).mp
    (by omega)
  rw [maxChunk] at long
  omega

/-- The chain objects of an execution, as read. -/
def objectsOf {r : ℕ} {Point Rng : Type} (e : Execution r Point Rng) : List ChainObject :=
  (entries e).map fun entry => .data entry.vdxfKey.toList entry.data

/-- The outputs of an execution give its chain objects back. -/
theorem deposit_read {r : ℕ} {Point Rng : Type} {e : Execution r Point Rng}
    (systemId : ByteArr 20) (fits : ∀ entry ∈ entries e, entry.data.length ≤ MAX_SIZE.toNat) :
    readDeposit (depositScripts systemId (evidence systemId e)) =
      .ok { type := NOTARY_TYPE_IMPORT_PROOF, systemId := systemId.toList,
            objects := objectsOf e } := by
  have nonempty : evidence systemId e ≠ [] := by
    apply List.ne_nil_of_length_pos
    rw [evidence, envelopeEvidence, notaryEvidence_length]
    omega
  rw [readDeposit_scripts systemId nonempty (evidence_countable systemId fits)]
  exact readImportProof_envelope systemId (entries_countable e) fits

/-! ## Opening the descriptors -/

theorem objectAt_data {objects : List ChainObject} {subObject : UInt32} {key : ByteArr 20}
    {data : Bytes} (object : objects[subObject.toNat]? = some (.data key.toList data)) :
    objectAt objects subObject = .ok (key, data) := by
  rw [objectAt, object]
  simp only [fixed_toList]
  rfl

variable {r : ℕ} {Point Rng : Type} [AddCommGroup Point] [DecidableEq Point]
variable {P : Primitives r Point Rng} {request : EncryptRequest} {rng : Rng}
variable {e : Execution r Point Rng}

/-- Decrypting, unwrapping, following the pointer and decrypting again. -/
theorem openDescriptor_eq (fr : FrCodec P) (points : PointCodec P) (aead : AeadCodec P)
    (ran : Ran P request rng e) {object : UInt32 × Option String × Option String}
    (member : object ∈ pointed request) {outer : Pass r}
    (outerMade : Encrypts P e
      (outerPlaintext request.dataDepositVoutIndex object.1 object.2.1 object.2.2) outer)
    {payload : Bytes} {key : ByteArr 20} {pass : Pass r} (made : Encrypts P e payload pass)
    (fits : (dataVec key pass).length ≤ MAX_SIZE.toNat) {objects : List ChainObject}
    (found : objects[object.1.toNat]? = some (.data key.toList (dataVec key pass))) :
    openDescriptor P objects (received (outerDescriptor P e outer)) =
      .ok { pointer := pointerTo request object.1,
            label := (contentStr object.2.1).map asBytes,
            mimeType := (contentStr object.2.2).map asBytes, contents := payload } := by
  have accepted := searchDiversifier_accepted ran.found
  obtain ⟨small, label, mimeType⟩ := Ran.pointed_caps ran object member
  obtain ⟨_, outerMade⟩ := outerMade
  obtain ⟨_, made⟩ := made
  have ivk : keyField (received (outerDescriptor P e outer)).ivk = .ok (P.frToBytes e.ivk) := by
    change keyField (content (some (P.frToBytes e.ivk).toList)) = _
    rw [content_key, keyField_toList]
  obtain ⟨decrypted, unwrapped⟩ :=
    outer_opened fr points aead accepted small label mimeType outerMade
  have pointer : Reader.toEnd .leftover readCvdxfDataRef
      (received (innerCdd request.dataDepositVoutIndex object.1 object.2.1 object.2.2)).objectData =
        .ok (pointerTo request object.1) := by
    have whole := (readCvdxfDataRef_decodes (pointerTo request object.1)).toEnd .leftover
    rw [received, innerCdd]
    exact whole
  have located : objectAt objects (pointerTo request object.1).subObject =
      .ok (key, dataVec key pass) := objectAt_data found
  have size := dataVec_length key pass
  have framed : unwrapDescriptor key (dataVec key pass) = .ok (received (pass1Cdd pass)) :=
    unwrapDescriptor_frame key (pass1_withinCaps (by omega)) (by omega)
  have opened := pass1_opened fr points aead accepted made
  rw [← outerDescriptor] at decrypted
  simp only [openDescriptor, ivk, decrypted, unwrapped, pointer, located, framed, opened, bind,
    Except.bind]
  rfl

/-! ## The whole entry -/

/-- The value parses to its descriptors and nothing else. -/
theorem cmmValue_parsed (aead : AeadCodec P) (ran : Ran P request rng e) :
    Reader.sequence .leftover readDataDescriptor (cmmValue P e) =
      .ok ((outerPasses e).map fun pass => received (outerDescriptor P e pass)) := by
  apply Decodes.sequence
  · intro pass member
    have short := Ran.outer_short aead ran pass member
    have caps := outer_withinCaps (w := wrapped pass) (P.frToBytes e.ivk)
      (Nat.le_trans short (by decide))
    exact descriptor_decodes _ caps.label caps.mimeType caps.toFits
  · intro pass _ empty
    rw [outerDescriptor, outer_shape, render_cons] at empty
    exact absurd empty (List.append_ne_nil_of_left_ne_nil (by decide) _)

/-- Every descriptor of an execution leads to its object. -/
theorem descriptors_opened (fr : FrCodec P) (points : PointCodec P) (aead : AeadCodec P)
    (ran : Ran P request rng e)
    (fits : ∀ keyed ∈ payloadPasses e, (dataVec keyed.1 keyed.2).length ≤ MAX_SIZE.toNat) :
    ((outerPasses e).map fun pass => received (outerDescriptor P e pass)).mapM
        (openDescriptor P (objectsOf e)) = .ok (recovered request) := by
  apply FallibleState.mapM_ok_iff.mpr
  have data : Encrypts P e request.plaintext.val e.data := ⟨_, ran.data⟩
  have outer : Encrypts P e (outerPlaintext request.dataDepositVoutIndex 0 request.label
    request.mimeType) e.outer := ⟨_, ran.outer⟩
  have located : (objectsOf e)[0]? = some (ChainObject.data DATA_DESCRIPTOR_KEY_LE.toList
      (dataVec DATA_DESCRIPTOR_KEY_LE e.data)) := rfl
  have short : (dataVec DATA_DESCRIPTOR_KEY_LE e.data).length ≤ MAX_SIZE.toNat :=
    fits (DATA_DESCRIPTOR_KEY_LE, e.data) List.mem_cons_self
  have object : (0, request.label, request.mimeType) ∈ pointed request := List.mem_cons_self
  have first := openDescriptor_eq fr points aead ran object outer data short located
  rcases ran.attached_cases with ⟨unsigned, alone⟩ | ⟨_, pass, _, signed, both, made, outerMade⟩
  · simp only [outerPasses, recovered, unsigned, alone, Option.map_none, Option.toList_none,
      List.map_cons, List.map_nil]
    exact .cons first .nil
  · have object : (1, some SIGNATURE_OUTER_LABEL, some SIGNATURE_OUTER_MIME_TYPE) ∈
        pointed request := by
      rw [pointed, signed]
      exact List.mem_cons_of_mem _ List.mem_cons_self
    have keyed : (SIGNATURE_DATA_KEY_LE, pass) ∈ payloadPasses e := by
      rw [payloadPasses, both]
      exact List.mem_cons_of_mem _ List.mem_cons_self
    have located : (objectsOf e)[1]? = some (ChainObject.data SIGNATURE_DATA_KEY_LE.toList
        (dataVec SIGNATURE_DATA_KEY_LE pass)) := by
      rw [objectsOf, entries, both]
      rfl
    have label : contentStr (some SIGNATURE_OUTER_LABEL) = some "signature" := by decide
    have mimeType : contentStr (some SIGNATURE_OUTER_MIME_TYPE) = some "application/json" := by
      decide
    have short : (dataVec SIGNATURE_DATA_KEY_LE pass).length ≤ MAX_SIZE.toNat :=
      fits (SIGNATURE_DATA_KEY_LE, pass) keyed
    have second := openDescriptor_eq fr points aead ran object ⟨_, outerMade⟩ ⟨_, made⟩ short
      located
    rw [label, mimeType] at second
    simp only [outerPasses, recovered, signed, both, Option.map_some, Option.toList_some,
      List.map_cons, List.map_nil]
    exact .cons first (.cons second .nil)

/-- A request whose serialized lengths fit, on a tape whose diversifier search succeeds, is
encrypted, and the two artifacts give everything back. -/
theorem encryptPublicDecrypt_roundtrip (fr : FrCodec P) (points : PointCodec P)
    (aead : AeadCodec P) (limit : AeadLimit P) (request : EncryptRequest) (rng : Rng)
    (found : ∃ i < 64, deriveGD P (drawnDiversifier P rng i) ≠ none)
    (label : utf8Length request.label ≤ 64) (mimeType : utf8Length request.mimeType ≤ 128)
    (within : WithinMaxSize request) :
    ∃ result final, call P request rng = .ok (result, final) ∧
      openEntry P result.cmmEntry.2 result.dataDepositOutputScripts =
        .ok (recovered request) := by
  obtain ⟨result, final, run⟩ := call_returns fr points (within.seals limit) rng
    ((search_isSome_iff P rng).mpr found) label mimeType
  obtain ⟨e, ran, same, _⟩ := (call_ok_iff ..).mp run
  have fits := (Ran.withinMaxSize_iff aead ran).mp within
  have entryFits : ∀ entry ∈ entries e, entry.data.length ≤ MAX_SIZE.toNat := by
    rw [entries_eq, List.forall_mem_map]
    exact fits
  have deposit := deposit_read request.systemId entryFits
  have parsed := cmmValue_parsed aead ran
  have opened := descriptors_opened fr points aead ran fits
  refine ⟨result, final, run, ?_⟩
  have value : (resultOf P request e).cmmEntry.2 = cmmValue P e := rfl
  rw [same, openEntry, value, parsed, resultOf_scripts, deposit]
  exact opened

theorem encryptPublicDecrypt_roundtrip_small :
    (∃ result final, call SmallCurve.primitives SmallCurve.request 1 = .ok (result, final) ∧
      openEntry SmallCurve.primitives result.cmmEntry.2 result.dataDepositOutputScripts =
        .ok (recovered SmallCurve.request)) ∧
    ∃ result final, call SmallCurve.primitives SmallCurve.splitRequest 1 = .ok (result, final) ∧
      2 ≤ result.dataDepositOutputScripts.length ∧
      openEntry SmallCurve.primitives result.cmmEntry.2 result.dataDepositOutputScripts =
        .ok (recovered SmallCurve.splitRequest) := by
  constructor
  · have within : WithinMaxSize SmallCurve.request := by
      unfold WithinMaxSize payloads
      decide
    exact encryptPublicDecrypt_roundtrip SmallCurve.fr SmallCurve.points SmallCurve.aead
      SmallCurve.limit SmallCurve.request 1 ⟨0, by decide, by decide⟩ (by decide) (by decide) within
  · obtain ⟨result, final, run, opened⟩ := encryptPublicDecrypt_roundtrip SmallCurve.fr
      SmallCurve.points SmallCurve.aead SmallCurve.limit SmallCurve.splitRequest 1
      ⟨0, by decide, by decide⟩ (by decide) (by decide) splitRequest_within
    exact ⟨result, final, run, two_scripts SmallCurve.aead run
      (Nat.le_of_eq SmallCurve.splitRequest_length.symm), opened⟩

end CmmEncrypt.RoundTrip
