import CmmEncrypt.Evidence
import CmmEncrypt.FallibleState
import CmmEncrypt.Reserialization
import CmmEncrypt.Script
import CmmEncrypt.Spelling

/-!
# Outputs that are read as the same

A push can be announced in a longer form than its data needs, and of the two versions
in an evidence readers look at the second only. Nothing else in an output script or in
an evidence can be changed without changing what is read, and the script that is written
is strictly shorter than every other one for the same evidence.
-/

namespace CmmEncrypt.Malleability

open Cursor Exactness Spelling FallibleState Wire WireCodec Layout Reserialization Evidence
open Script

/-! ## Pushes -/

/-- Data behind any header that can carry its length. -/
def PushSpelled (data w : Bytes) : Prop :=
  ∃ form : PushForm, data.length ≤ form.maxLen ∧ w = form.header data.length ++ data

/-- The bytes of a length, with its opcode, are the header of some form. -/
theorem readPushLength_form {op : UInt8} {buf : Bytes} {c c' len : Nat}
    (h : readPushLength op buf c = .ok (len, c')) :
    ∃ form : PushForm, len ≤ form.maxLen ∧
      [op] ++ buf.drop c = form.header len ++ buf.drop c' := by
  have direct : OP_PUSHDATA1.toNat = 76 := rfl
  rw [readPushLength] at h
  split at h
  · rename_i short
    obtain ⟨rfl, rfl⟩ := Reader.pure_ok h
    rw [UInt8.lt_iff_toNat_lt, direct] at short
    refine ⟨.direct, Nat.le_of_lt_succ short, ?_⟩
    rw [PushForm.header, UInt8.ofNat_toNat]
  · split at h
    · rename_i one
      obtain ⟨n, c₁, read, h⟩ := Reader.bind_ok h
      obtain ⟨rfl, rfl⟩ := Reader.pure_ok h
      refine ⟨.pushData1, Nat.le_of_lt_succ n.toNat_lt, ?_⟩
      rw [readByte_exact buf c n c₁ read, one, PushForm.header, UInt8.ofNat_toNat]
      rfl
    · split at h
      · rename_i two
        obtain ⟨n, c₁, read, h⟩ := Reader.bind_ok h
        obtain ⟨rfl, rfl⟩ := Reader.pure_ok h
        refine ⟨.pushData2, Nat.le_of_lt_succ n.toNat_lt, ?_⟩
        rw [readU16_exact buf c n c₁ read, two, PushForm.header]
        rfl
      · split at h
        · rename_i four
          obtain ⟨n, c₁, read, h⟩ := Reader.bind_ok h
          obtain ⟨rfl, rfl⟩ := Reader.pure_ok h
          refine ⟨.pushData4, Nat.le_of_lt_succ n.toNat_lt, ?_⟩
          rw [readU32_exact buf c n c₁ read, four, PushForm.header]
          rfl
        · cases h

theorem readPush_spells : Spells readPush PushSpelled where
  consumed := by
    intro buf c data c' h
    obtain ⟨op, c₁, opcode, h⟩ := Reader.bind_ok h
    obtain ⟨len, c₂, length, body⟩ := Reader.bind_ok h
    obtain ⟨form, carries, header⟩ := readPushLength_form length
    have size := (Reader.take_ok body).2.1
    subst size
    refine ⟨_, ⟨form, carries, rfl⟩, ?_⟩
    rw [readByte_exact buf c op c₁ opcode, header, Exact.take _ _ buf c₂ data c' body, id,
      List.append_assoc]
  decoded := by
    rintro data w ⟨form, carries, rfl⟩
    exact readPush_form carries

theorem PushSpelled.fits {data w : Bytes} (spelled : PushSpelled data w) :
    data.length < 2 ^ 32 := by
  obtain ⟨form, carries, _⟩ := spelled
  cases form <;> simp only [PushForm.maxLen] at carries <;> omega

/-- Every other form that carries the length takes more bytes than the chosen one. -/
theorem chosen_lt {len : Nat} {form : PushForm} (carries : len ≤ form.maxLen)
    (other : form ≠ PushForm.chosen len) :
    ((PushForm.chosen len).header len).length < (form.header len).length := by
  refine Nat.lt_of_le_of_ne (PushForm.chosen_shortest carries) fun same => other ?_
  generalize PushForm.chosen len = chosen at same
  cases form <;> cases chosen <;>
    simp only [PushForm.header, List.length_cons, List.length_nil, leBytes_length] at same <;>
    first | rfl | omega

theorem push_shortest : Shortest PushSpelled push := by
  intro data w spelled
  have written := push_eq spelled.fits
  obtain ⟨form, carries, rfl⟩ := spelled
  rw [written]
  by_cases chosen : form = PushForm.chosen data.length
  · exact .inl (by rw [chosen])
  · refine .inr ?_
    rw [List.length_append, List.length_append]
    exact Nat.add_lt_add_right (chosen_lt carries chosen) _

/-- A push of longer data is longer, however it is spelled. -/
theorem push_nested {enc data w : Bytes} (inner : data = enc ∨ enc.length < data.length)
    (spelled : PushSpelled data w) : w = push enc ∨ (push enc).length < w.length := by
  rcases inner with rfl | longer
  · exact push_shortest data w spelled
  · have more := pushLen_lt longer
    rw [← push_length, ← push_length] at more
    rcases push_shortest data w spelled with rfl | most
    · exact .inr more
    · exact .inr (Nat.lt_trans more most)

/-! ## Scripts -/

theorem pushSpelled_ne_nil (data : Bytes) : ¬ PushSpelled data [] := by
  rintro ⟨form, _, empty⟩
  cases form <;> cases empty

theorem parseOptCcParams_ok_iff {params : Bytes} {p : COptCCParams} :
    parseOptCcParams params = .ok p ↔
      Pieces PushSpelled ([p.version, p.evalCode, p.m, p.n] :: p.pubkey :: p.data) params := by
  rw [← Pieces.sequence_iff readPush_spells ReadError.leftover pushSpelled_ne_nil,
    parseOptCcParams]
  constructor
  · intro h
    split at h
    · rename_i read
      cases h
      exact read
    · cases h
    · cases h
  · intro read
    rw [read]

theorem readOpcode_spells (op : UInt8) : Spells (readOpcode op) (fun _ w => w = [op]) where
  consumed := by
    intro buf c u c' h
    obtain ⟨b, c₁, read, h⟩ := Reader.bind_ok h
    obtain ⟨rfl, rfl⟩ := require_ok h
    exact ⟨[b], rfl, readByte_exact buf c b c₁ read⟩
  decoded := by
    rintro u w rfl
    exact readOpcode_decodes op

theorem readScript_spells : Spells readScript (fun (pushed : Bytes × Bytes) script =>
    ∃ w₁ w₂, PushSpelled pushed.1 w₁ ∧ PushSpelled pushed.2 w₂ ∧
      script = w₁ ++ ([OP_CHECKCRYPTOCONDITION] ++ (w₂ ++ [OP_DROP]))) := by
  refine (readPush_spells.bind fun master => (readOpcode_spells _).bind fun _ =>
    readPush_spells.bind fun params => (readOpcode_spells _).bind fun _ =>
      Spells.pure (master, params)).congr ?_
  rintro ⟨master, params⟩ script
  constructor
  · rintro ⟨_, w₁, _, first, ⟨_, _, _, rfl, ⟨_, w₂, _, second, ⟨_, _, _, rfl, ⟨same, rfl⟩, rfl⟩,
      rfl⟩, rfl⟩, rfl⟩
    obtain ⟨rfl, rfl⟩ := Prod.mk.inj same
    exact ⟨w₁, w₂, first, second, rfl⟩
  · rintro ⟨w₁, w₂, first, second, rfl⟩
    exact ⟨_, w₁, _, first, ⟨⟨⟩, _, _, rfl, ⟨_, w₂, _, second, ⟨⟨⟩, _, _, rfl, ⟨rfl, rfl⟩, rfl⟩,
      rfl⟩, rfl⟩, rfl⟩

/-- Every byte of the script is that of the written one, but each of its seven pushes can be
announced in any form that carries its length. -/
def ScriptSpelled (notaryEvidence script : Bytes) : Prop :=
  ∃ master params w₁ w₂,
    Pieces PushSpelled (optCcParams EVAL_NONE 1 1 NOTARY_EVIDENCE_CC_PUBKEY []) master ∧
    Pieces PushSpelled (optCcParams EVAL_NOTARY_EVIDENCE 1 1 NOTARY_EVIDENCE_CC_PUBKEY
      [notaryEvidence]) params ∧
    PushSpelled master w₁ ∧ PushSpelled params w₂ ∧
    script = w₁ ++ ([OP_CHECKCRYPTOCONDITION] ++ (w₂ ++ [OP_DROP]))

theorem scriptEvidence_ok_iff {notaryEvidence script : Bytes} :
    scriptEvidence script = .ok notaryEvidence ↔ ScriptSpelled notaryEvidence script := by
  constructor
  · intro h
    obtain ⟨⟨master, params⟩, pushed, h⟩ := except_bind_ok_iff.mp h
    obtain ⟨masterParams, parsed, h⟩ := except_bind_ok_iff.mp h
    obtain ⟨vParams, parsed', h⟩ := except_bind_ok_iff.mp h
    obtain ⟨w₁, w₂, first, second, whole⟩ := (readScript_spells.toEnd_iff _).mp pushed
    split at h
    · split at h
      · rename_i same
        cases h
        rw [same.1] at parsed
        rw [same.2] at parsed'
        exact ⟨master, params, w₁, w₂, parseOptCcParams_ok_iff.mp parsed,
          parseOptCcParams_ok_iff.mp parsed', first, second, whole⟩
      · cases h
    · cases h
  · rintro ⟨master, params, w₁, w₂, none, single, first, second, whole⟩
    have pushed := (readScript_spells.toEnd_iff ReadError.leftover
      (a := (master, params))).mpr ⟨w₁, w₂, first, second, whole⟩
    have parsed := (parseOptCcParams_ok_iff (p := wellKnownParams EVAL_NONE [])).mpr none
    have parsed' := (parseOptCcParams_ok_iff
      (p := wellKnownParams EVAL_NOTARY_EVIDENCE [notaryEvidence])).mpr single
    rw [scriptEvidence, pushed]
    simp only [bind, Except.bind, parsed, parsed']
    exact if_pos ⟨trivial, rfl⟩

theorem evidenceScript_shortest : Shortest ScriptSpelled evidenceScript := by
  rintro notaryEvidence script ⟨master, params, w₁, w₂, none, single, first, second, rfl⟩
  have masterPush : w₁ = push (scriptParams EVAL_NONE []) ∨ _ :=
    push_nested (push_shortest.pieces _ _ none) first
  have paramsPush : w₂ = push (scriptParams EVAL_NOTARY_EVIDENCE [notaryEvidence]) ∨ _ :=
    push_nested (push_shortest.pieces _ _ single) second
  simp only [evidenceScript, List.length_append]
  rcases masterPush with rfl | longer
  · rcases paramsPush with rfl | more
    · exact .inl rfl
    · right
      omega
  · rcases paramsPush with rfl | more
    · right
      omega
    · right
      omega

/-- A script is read as holding an evidence exactly when it spells it, and then it is the script
that is written for the evidence or longer. -/
theorem script_read_iff (notaryEvidence script : Bytes) :
    (scriptEvidence script = .ok notaryEvidence ↔ ScriptSpelled notaryEvidence script) ∧
    (scriptEvidence script = .ok notaryEvidence →
      script = writeEvalNotaryEvidenceScript [] notaryEvidence ∨
        (writeEvalNotaryEvidenceScript [] notaryEvidence).length < script.length) := by
  refine ⟨scriptEvidence_ok_iff, fun read => ?_⟩
  rw [writeEvalNotaryEvidenceScript_eq, List.nil_append]
  exact evidenceScript_shortest _ _ (scriptEvidence_ok_iff.mp read)

/-! ## Evidence -/

/-- Keys have 20 bytes and no data is longer than a length prefix may say. -/
def ObjectFits : ChainObject → Prop
  | .data vdxfKey dataVec => vdxfKey.length = 20 ∧ dataVec.length ≤ MAX_SIZE.toNat
  | .multipart _ chunk => chunk.length ≤ MAX_SIZE.toNat

/-- What follows the two versions of a chain object. -/
def objectContent : ChainObject → List Field
  | .data vdxfKey dataVec =>
    .varint EVIDENCE_TYPE_DATA.toUInt64 :: .raw vdxfKey :: varBytes dataVec
  | .multipart md chunk =>
    .varint EVIDENCE_TYPE_MULTIPART_DATA.toUInt64 :: .varint md.index.toUInt64 ::
      .varint md.totalLength :: .varint md.start :: varBytes chunk

/-- The fields of a chain object whose first version is `first`. -/
def objectFields (first : UInt64) (object : ChainObject) : List Field :=
  .raw (leBytes 2 OBJTYPE_EVIDENCE_DATA.toNat) :: .varint first :: .varint 1 ::
    objectContent object

def ObjectSpelled (object : ChainObject) (w : Bytes) : Prop :=
  ObjectFits object ∧ ∃ first, w = render (objectFields first object)

/-- Every byte is that of the written evidence but for the first version of each object. -/
def EvidenceSpelled (ev : CNotaryEvidence) (bytes : Bytes) : Prop :=
  ev.objects.length < 2 ^ 64 ∧ ∃ (systemId : ByteArr 20) (objects : Bytes),
    ev.systemId = systemId.toList ∧ Pieces ObjectSpelled ev.objects objects ∧
      bytes = render (notaryEvidence ev.type systemId (UInt64.ofNat ev.objects.length) []) ++
        objects

theorem readDataObject_ok {buf : Bytes} {c c' : Nat} {object : ChainObject}
    (h : readDataObject buf c = .ok (object, c')) :
    ∃ vdxfKey dataVec, object = .data vdxfKey dataVec ∧ ObjectFits object ∧
      buf.drop c = vdxfKey ++ (render (varBytes dataVec) ++ buf.drop c') := by
  obtain ⟨vdxfKey, c₁, hkey, h⟩ := Reader.bind_ok h
  obtain ⟨dataVec, c₂, hdata, h⟩ := Reader.bind_ok h
  obtain ⟨rfl, rfl⟩ := Reader.pure_ok h
  refine ⟨vdxfKey, dataVec, rfl, ⟨(Reader.take_ok hkey).2.1, readVarBytes_length hdata⟩, ?_⟩
  rw [Exact.take _ 20 buf c vdxfKey c₁ hkey, readVarBytes_exact buf c₁ dataVec c₂ hdata]
  rfl

theorem readMultipartObject_ok {buf : Bytes} {c c' : Nat} {object : ChainObject}
    (h : readMultipartObject buf c = .ok (object, c')) :
    ∃ md chunk, object = .multipart md chunk ∧ ObjectFits object ∧
      buf.drop c = varint md.index.toUInt64 ++ (varint md.totalLength ++ (varint md.start ++
        (render (varBytes chunk) ++ buf.drop c'))) := by
  obtain ⟨index, c₁, hindex, h⟩ := Reader.bind_ok h
  obtain ⟨totalLength, c₂, htotal, h⟩ := Reader.bind_ok h
  obtain ⟨start, c₃, hstart, h⟩ := Reader.bind_ok h
  obtain ⟨chunk, c₄, hchunk, h⟩ := Reader.bind_ok h
  obtain ⟨rfl, rfl⟩ := Reader.pure_ok h
  refine ⟨⟨index, totalLength, start⟩, chunk, rfl, readVarBytes_length hchunk, ?_⟩
  rw [readVarintU32_exact buf c index c₁ hindex, readVarint_exact buf c₁ totalLength c₂ htotal,
    readVarint_exact buf c₂ start c₃ hstart, readVarBytes_exact buf c₃ chunk c₄ hchunk]

theorem readEvidenceData_exact {type : UInt64} {buf : Bytes} {c c' : Nat} {object : ChainObject}
    (h : readEvidenceData type buf c = .ok (object, c')) :
    ObjectFits object ∧
      varint type ++ buf.drop c = render (objectContent object) ++ buf.drop c' := by
  rw [readEvidenceData] at h
  split at h
  · rename_i data
    obtain ⟨vdxfKey, dataVec, rfl, fits, rest⟩ := readDataObject_ok h
    refine ⟨fits, ?_⟩
    rw [rest, data]
    simp only [objectContent, render_cons, Field.bytes, List.append_assoc]
  · split at h
    · rename_i multipart
      obtain ⟨md, chunk, rfl, fits, rest⟩ := readMultipartObject_ok h
      refine ⟨fits, ?_⟩
      rw [rest, multipart]
      simp only [objectContent, render_cons, Field.bytes, List.append_assoc]
    · cases h

theorem readChainObject_spells : Spells readChainObject ObjectSpelled where
  consumed := by
    intro buf c object c' h
    obtain ⟨objectType, c₁, htype, h⟩ := Reader.bind_ok h
    obtain ⟨_, c₂, known, h⟩ := Reader.bind_ok h
    obtain ⟨rfl, rfl⟩ := require_ok known
    obtain ⟨first, c₃, hfirst, h⟩ := Reader.bind_ok h
    obtain ⟨second, c₄, hsecond, h⟩ := Reader.bind_ok h
    obtain ⟨_, c₅, known, h⟩ := Reader.bind_ok h
    obtain ⟨rfl, rfl⟩ := require_ok known
    obtain ⟨type, c₆, hkind, h⟩ := Reader.bind_ok h
    obtain ⟨fits, content⟩ := readEvidenceData_exact h
    refine ⟨_, ⟨fits, first, rfl⟩, ?_⟩
    rw [readU16_exact buf c _ c₁ htype, readVarint_exact buf c₁ first c₃ hfirst,
      readVarint_exact buf c₃ 1 c₄ hsecond, readVarint_exact buf c₄ type c₆ hkind, content]
    simp only [objectFields, render_cons, Field.bytes, List.append_assoc]
  decoded := by
    rintro object w ⟨fits, first, rfl⟩
    refine decodes_cons (readU16_decodes OBJTYPE_EVIDENCE_DATA) (decodes_require rfl ?_)
    refine decodes_cons (readVarint_decodes first) ?_
    refine decodes_cons (readVarint_decodes 1) (decodes_require rfl ?_)
    cases object with
    | data vdxfKey dataVec =>
      refine decodes_cons (readVarint_decodes EVIDENCE_TYPE_DATA.toUInt64) ?_
      refine decodes_cons (readRaw_decodes fits.1) ?_
      exact (readVarBytes_decodes fits.2).map (ChainObject.data vdxfKey)
    | multipart md chunk =>
      refine decodes_cons (readVarint_decodes EVIDENCE_TYPE_MULTIPART_DATA.toUInt64) ?_
      refine decodes_cons (readVarintU32_decodes md.index) ?_
      refine decodes_cons (readVarint_decodes md.totalLength) ?_
      refine decodes_cons (readVarint_decodes md.start) ?_
      exact (readVarBytes_decodes fits).map (ChainObject.multipart md)

theorem readNotaryEvidence_spells : Spells readNotaryEvidence EvidenceSpelled where
  consumed := by
    intro buf c ev c' h
    obtain ⟨version, c₁, hversion, h⟩ := Reader.bind_ok h
    obtain ⟨_, c₂, known, h⟩ := Reader.bind_ok h
    obtain ⟨rfl, rfl⟩ := require_ok known
    obtain ⟨type, c₃, htype, h⟩ := Reader.bind_ok h
    obtain ⟨systemId, c₄, hsystem, h⟩ := Reader.bind_ok h
    obtain ⟨hash, c₅, hhash, h⟩ := Reader.bind_ok h
    obtain ⟨_, c₆, known, h⟩ := Reader.bind_ok h
    obtain ⟨rfl, rfl⟩ := require_ok known
    obtain ⟨n, c₇, hn, h⟩ := Reader.bind_ok h
    obtain ⟨_, c₈, known, h⟩ := Reader.bind_ok h
    obtain ⟨rfl, rfl⟩ := require_ok known
    obtain ⟨state, c₉, hstate, h⟩ := Reader.bind_ok h
    obtain ⟨_, c₁₀, known, h⟩ := Reader.bind_ok h
    obtain ⟨rfl, rfl⟩ := require_ok known
    obtain ⟨proofVersion, c₁₁, hproof, h⟩ := Reader.bind_ok h
    obtain ⟨_, c₁₂, known, h⟩ := Reader.bind_ok h
    obtain ⟨rfl, rfl⟩ := require_ok known
    obtain ⟨count, c₁₃, hcount, h⟩ := Reader.bind_ok h
    obtain ⟨objects, c₁₄, hobjects, h⟩ := Reader.bind_ok h
    obtain ⟨rfl, rfl⟩ := Reader.pure_ok h
    obtain ⟨w, ⟨size, pieces⟩, body⟩ := (readChainObject_spells.times count.toNat).consumed hobjects
    have width := (Reader.take_ok hsystem).2.1
    refine ⟨_, ⟨size ▸ count.toNat_lt, ⟨systemId, width⟩, w, rfl, pieces, rfl⟩, ?_⟩
    rw [readByte_exact buf c _ c₁ hversion, readByte_exact buf c₁ type c₃ htype,
      Exact.take _ 20 buf c₃ systemId c₄ hsystem, Exact.take _ 32 buf c₄ _ c₅ hhash,
      Exact.take _ 4 buf c₅ _ c₇ hn, readByte_exact buf c₇ _ c₉ hstate,
      readU32_exact buf c₉ _ c₁₁ hproof, readVarint_exact buf c₁₁ count c₁₃ hcount, body, size,
      UInt64.ofNat_toNat]
    simp only [notaryEvidence, render_cons, render_nil, Field.bytes, id, List.append_assoc,
      List.nil_append, List.Vector.toList]
  decoded := by
    rintro ⟨type, _, objects⟩ w ⟨countable, systemId, body, rfl, pieces, rfl⟩
    have counted : (UInt64.ofNat objects.length).toNat = objects.length :=
      UInt64.toNat_ofNat'.trans (Nat.mod_eq_of_lt countable)
    have all := (readChainObject_spells.times objects.length).decoded ⟨rfl, pieces⟩
    rw [← counted] at all
    have raw : render [.raw body] = body := List.append_nil body
    rw [← raw] at all
    have decoded := readNotaryEvidence_decodes type systemId all
    simpa only [notaryEvidence, render_cons, render_nil, Field.bytes, List.append_assoc,
      List.append_nil] using decoded

/-- The layout of an evidence whose objects all have `first` for their first version. -/
def evidenceWith (first : UInt64) (type : UInt8) (systemId : ByteArr 20)
    (objects : List ChainObject) : Bytes :=
  render (notaryEvidence type systemId (UInt64.ofNat objects.length)
    (objects.flatMap (objectFields first)))

theorem objects_pieces (first : UInt64) {objects : List ChainObject}
    (fits : ∀ object ∈ objects, ObjectFits object) :
    Pieces ObjectSpelled objects (render (objects.flatMap (objectFields first))) := by
  induction objects with
  | nil => exact .nil
  | cons object objects ih =>
    rw [List.forall_mem_cons] at fits
    rw [List.flatMap_cons, render_append]
    exact .cons ⟨fits.1, first, rfl⟩ (ih fits.2)

theorem evidenceWith_spelled (first : UInt64) (type : UInt8) (systemId : ByteArr 20)
    {objects : List ChainObject} (countable : objects.length < 2 ^ 64)
    (fits : ∀ object ∈ objects, ObjectFits object) :
    EvidenceSpelled { type, systemId := systemId.toList, objects }
      (evidenceWith first type systemId objects) := by
  refine ⟨countable, systemId, _, rfl, objects_pieces first fits, ?_⟩
  simp only [evidenceWith, notaryEvidence, render_cons, render_nil, Field.bytes,
    List.append_assoc, List.nil_append]

/-- The objects of an envelope are laid out with 1 for both versions. -/
theorem evidenceWith_envelope (systemId : ByteArr 20) (entries : List EvidenceEntry) :
    writeNotaryEvidenceForEnvelope [] systemId entries =
      evidenceWith 1 NOTARY_TYPE_IMPORT_PROOF systemId (entries.map EvidenceEntry.read) := by
  rw [writeNotaryEvidenceForEnvelope_render, List.nil_append, envelopeEvidence, evidenceWith,
    List.length_map, List.flatMap_map]
  rfl

theorem evidenceWith_multipart (systemId : ByteArr 20) (md : MultiPartDescriptor)
    (chunk : Bytes) :
    writeNotaryEvidenceMultipartChunk [] systemId md chunk =
      evidenceWith 1 NOTARY_TYPE_MULTIPART_DATA systemId [.multipart md chunk] := by
  rw [writeNotaryEvidenceMultipartChunk_render, List.nil_append, multipartEvidence, evidenceWith,
    List.flatMap_singleton]
  rfl

/-- The bytes that are read as an evidence are those of its layout, with any VARINT for the first
version of each object; with 1 for all of them the layout is what the two writers write. -/
theorem evidence_read_iff :
    (∀ (bytes : Bytes) (ev : CNotaryEvidence),
      Reader.toEnd .leftover readNotaryEvidence bytes = .ok ev ↔ EvidenceSpelled ev bytes) ∧
    (∀ (first : UInt64) (type : UInt8) (systemId : ByteArr 20) (objects : List ChainObject),
      objects.length < 2 ^ 64 → (∀ object ∈ objects, ObjectFits object) →
        EvidenceSpelled { type, systemId := systemId.toList, objects }
          (evidenceWith first type systemId objects)) ∧
    (∀ (systemId : ByteArr 20) (entries : List EvidenceEntry),
      writeNotaryEvidenceForEnvelope [] systemId entries =
        evidenceWith 1 NOTARY_TYPE_IMPORT_PROOF systemId (entries.map EvidenceEntry.read)) ∧
    ∀ (systemId : ByteArr 20) (md : MultiPartDescriptor) (chunk : Bytes),
      writeNotaryEvidenceMultipartChunk [] systemId md chunk =
        evidenceWith 1 NOTARY_TYPE_MULTIPART_DATA systemId [.multipart md chunk] := by
  refine ⟨?_, ?_, evidenceWith_envelope, evidenceWith_multipart⟩
  · intro bytes ev
    exact readNotaryEvidence_spells.toEnd_iff _
  · intro first type systemId objects countable fits
    exact evidenceWith_spelled first type systemId countable fits

/-- Two objects of different kinds with a first version that no writer writes. -/
theorem evidence_read_two :
    Reader.toEnd .leftover readNotaryEvidence
        (evidenceWith 5 3 (List.Vector.replicate 20 0xBB)
          [.data (List.replicate 20 0xAA) [1, 2], .multipart ⟨0, 2, 0⟩ [7]]) =
      .ok { type := 3, systemId := List.replicate 20 0xBB,
            objects := [.data (List.replicate 20 0xAA) [1, 2], .multipart ⟨0, 2, 0⟩ [7]] } := by
  have fits : ∀ object ∈ [ChainObject.data (List.replicate 20 0xAA) [1, 2],
      .multipart ⟨0, 2, 0⟩ [7]], ObjectFits object := by
    rw [List.forall_mem_cons, List.forall_mem_singleton]
    exact ⟨⟨rfl, by decide⟩, by change [(7 : UInt8)].length ≤ MAX_SIZE.toNat; decide⟩
  exact (evidence_read_iff.1 _ _).mpr
    (evidence_read_iff.2.1 5 3 (List.Vector.replicate 20 0xBB) _ (by decide) fits)

end CmmEncrypt.Malleability
