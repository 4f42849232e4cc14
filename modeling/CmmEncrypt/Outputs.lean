import CmmEncrypt.Outcomes

/-!
# What the outputs of a call carry

One output carries the whole evidence when it fits; otherwise every output carries
one wrapper, and there are as many as pieces.
-/

namespace CmmEncrypt.Outputs

open Cursor Wire Layout Vdxf Evidence BreakApart Script Splitting Sapling Api Deposit Passes
open Executions Shapes

/-- The script carries this evidence, which is of this type and chain. -/
structure Carries (type : UInt8) (systemId : ByteArr 20) (script evidence : Bytes) : Prop where
  item : scriptEvidence script = .ok evidence
  parsed : ∃ objects, Reader.toEnd .leftover readNotaryEvidence evidence =
    .ok { type, systemId := systemId.toList, objects }

/-- A script within the limit is read back. -/
theorem scriptEvidence_short {evidence : Bytes}
    (short : (evidenceScript evidence).length < MAX_SCRIPT_ELEMENT_SIZE) :
    scriptEvidence (evidenceScript evidence) = .ok evidence := by
  have nested := le_pushLen (39 + pushLen evidence.length)
  rw [evidenceScript_length, MAX_SCRIPT_ELEMENT_SIZE] at short
  exact scriptEvidence_eq (by omega)

theorem wrapper_carried (systemId : ByteArr 20) (evidence : Bytes) (i : Nat) :
    Carries NOTARY_TYPE_MULTIPART_DATA systemId
      (evidenceScript (render (wrapper systemId maxChunk evidence i)))
      (render (wrapper systemId maxChunk evidence i)) where
  item := scriptEvidence_short (wrapperScript_length systemId evidence i)
  parsed := ⟨_, (wrapper_decodes systemId (by decide) evidence i).toEnd .leftover⟩

/-- No entry is longer than the evidence around it. -/
theorem entry_length_le (systemId : ByteArr 20) {entries : List EvidenceEntry}
    {entry : EvidenceEntry} (member : entry ∈ entries) :
    entry.data.length ≤ (render (envelopeEvidence systemId entries)).length := by
  have object : entry.data.length ≤ (render (dataObject entry)).length := by
    simp only [dataObject, varBytes, render_cons, render_nil, Field.bytes, List.length_append]
    omega
  have all : (render (dataObject entry)).length ≤ (render (entries.flatMap dataObject)).length := by
    rw [render_flatMap, List.length_flatMap]
    exact List.single_le_sum (fun _ _ => Nat.zero_le _) _ (List.mem_map_of_mem member)
  rw [envelopeEvidence, notaryEvidence_length]
  omega

theorem envelope_carried (systemId : ByteArr 20) {entries : List EvidenceEntry}
    (countable : entries.length < 2 ^ 64)
    (short : (evidenceScript (render (envelopeEvidence systemId entries))).length <
      MAX_SCRIPT_ELEMENT_SIZE) :
    Carries NOTARY_TYPE_IMPORT_PROOF systemId
      (evidenceScript (render (envelopeEvidence systemId entries)))
      (render (envelopeEvidence systemId entries)) where
  item := scriptEvidence_short short
  parsed := by
    have max : MAX_SIZE.toNat = 0x02000000 := rfl
    have outer := le_pushLen (39 + pushLen (render (envelopeEvidence systemId entries)).length)
    have inner := le_pushLen (render (envelopeEvidence systemId entries)).length
    rw [evidenceScript_length, MAX_SCRIPT_ELEMENT_SIZE] at short
    have fits : ∀ entry ∈ entries, entry.data.length ≤ MAX_SIZE.toNat := fun entry member => by
      have := entry_length_le systemId member
      omega
    exact ⟨_, (readNotaryEvidence_envelope systemId entries countable fits).toEnd .leftover⟩

theorem entries_length_le {r : ℕ} {Point Rng : Type} (e : Execution r Point Rng) :
    (entries e).length ≤ 2 := by
  rw [entries]
  cases e.attached <;> simp

theorem entries_countable {r : ℕ} {Point Rng : Type} (e : Execution r Point Rng) :
    (entries e).length < 2 ^ 64 :=
  Nat.lt_of_le_of_lt (entries_length_le e) (by decide)

variable {r : ℕ} {Point Rng : Type} [AddCommGroup Point] [DecidableEq Point]
variable {P : Primitives r Point Rng}

/-- A payload of as many bytes as no script may have is split. -/
theorem evidence_long (aead : AeadCodec P) {request : EncryptRequest} {rng : Rng}
    {e : Execution r Point Rng} (ran : Ran P request rng e)
    (long : MAX_SCRIPT_ELEMENT_SIZE ≤ request.plaintext.val.length) :
    MAX_SCRIPT_ELEMENT_SIZE ≤ (evidenceScript (evidence request.systemId e)).length := by
  have ciphertext := aead.length _ _ _ _ ran.data.encrypted
  rw [ran.data.plaintext] at ciphertext
  have framed := dataVec_length DATA_DESCRIPTOR_KEY_LE e.data
  have first : { vdxfKey := DATA_DESCRIPTOR_KEY_LE, data := dataVec DATA_DESCRIPTOR_KEY_LE e.data } ∈
      entries e := List.mem_cons_self
  have inside := entry_length_le request.systemId first
  have inner := le_pushLen (evidence request.systemId e).length
  have outer := le_pushLen (39 + pushLen (evidence request.systemId e).length)
  rw [← evidence] at inside
  dsimp only at inside
  rw [evidenceScript_length]
  omega

theorem two_scripts (aead : AeadCodec P) {request : EncryptRequest} {rng : Rng}
    {result : EncryptResult} {final : Session r Rng}
    (run : call P request rng = .ok (result, final))
    (long : MAX_SCRIPT_ELEMENT_SIZE ≤ request.plaintext.val.length) :
    2 ≤ result.dataDepositOutputScripts.length := by
  obtain ⟨e, ran, rfl, rfl⟩ := (call_ok_iff ..).mp run
  have split := evidence_long aead ran long
  rw [resultOf_scripts, depositScripts_split request.systemId split, List.length_map,
    List.length_range]
  exact two_pieces split

/-- The scripts of a call: all within the limit, one around the whole evidence if that stays
within it, and otherwise one around every piece, two at least. -/
theorem scripts_sized {request : EncryptRequest} {rng : Rng} {result : EncryptResult}
    {final : Session r Rng} (run : call P request rng = .ok (result, final)) :
    ∃ (e : Execution r Point Rng) (evidence : Bytes) (maxChunkSize : Nat),
      Ran P request rng e ∧
      evidence = writeNotaryEvidenceForEnvelope [] request.systemId (entries e) ∧
      dataDepositScripts request.systemId evidence =
        (.ok result.dataDepositOutputScripts : Except (Fault EncryptError) (List Bytes)) ∧
      usizeSub MAX_SCRIPT_ELEMENT_SIZE ((writeEvalNotaryEvidenceScript []
          (writeNotaryEvidenceForEnvelope [] request.systemId [])).length +
        BREAK_APART_SAFETY_MARGIN) = (.ok maxChunkSize : Except (Fault EncryptError) Nat) ∧
      0 < maxChunkSize ∧
      (∀ script ∈ result.dataDepositOutputScripts, script.length < MAX_SCRIPT_ELEMENT_SIZE) ∧
      ((writeEvalNotaryEvidenceScript [] evidence).length < MAX_SCRIPT_ELEMENT_SIZE →
        ∃ script, result.dataDepositOutputScripts = [script] ∧
          Carries NOTARY_TYPE_IMPORT_PROOF request.systemId script evidence) ∧
      (MAX_SCRIPT_ELEMENT_SIZE ≤ (writeEvalNotaryEvidenceScript [] evidence).length →
        result.dataDepositOutputScripts.length = evidence.length ⌈/⌉ maxChunkSize ∧
        2 ≤ result.dataDepositOutputScripts.length ∧
        ∀ script ∈ result.dataDepositOutputScripts, ∃ wrapper,
          Carries NOTARY_TYPE_MULTIPART_DATA request.systemId script wrapper) := by
  obtain ⟨e, ran, rfl, rfl⟩ := (call_ok_iff ..).mp run
  have written := writeNotaryEvidenceForEnvelope_render [] request.systemId (entries e)
  rw [List.nil_append, ← evidence] at written
  have positive : 0 < maxChunk := by decide
  have stepFour := dataDepositScripts_eq (ε := EncryptError) request.systemId
    (evidence request.systemId e)
  have size := maxChunk_eq (ε := EncryptError) request.systemId
  have limit := depositScripts_short request.systemId (evidence request.systemId e)
  rw [resultOf_scripts]
  refine ⟨e, evidence request.systemId e, maxChunk, ran, written.symm, stepFour, size, positive,
    limit, ?_, ?_⟩
  · intro short
    rw [writeEvalNotaryEvidenceScript_eq, List.nil_append] at short
    exact ⟨_, depositScripts_single request.systemId short,
      envelope_carried request.systemId (entries_countable e) short⟩
  · intro long
    rw [writeEvalNotaryEvidenceScript_eq, List.nil_append] at long
    have split := depositScripts_split request.systemId long
    have count : (depositScripts request.systemId (evidence request.systemId e)).length =
        pieceCount maxChunk (evidence request.systemId e) := by
      rw [split, List.length_map, List.length_range]
    have two := two_pieces long
    rw [← count] at two
    refine ⟨count, two, ?_⟩
    intro script member
    rw [split] at member
    obtain ⟨i, _, rfl⟩ := List.mem_map.mp member
    exact ⟨_, wrapper_carried request.systemId _ i⟩

theorem scripts_sized_small :
    (∃ result final, call SmallCurve.primitives SmallCurve.request 1 = .ok (result, final) ∧
      ∀ script ∈ result.dataDepositOutputScripts, script.length < 6000) ∧
    ∃ result final, call SmallCurve.primitives SmallCurve.splitRequest 1 = .ok (result, final) ∧
      2 ≤ result.dataDepositOutputScripts.length ∧
      ∀ script ∈ result.dataDepositOutputScripts, script.length < 6000 := by
  constructor
  · obtain ⟨result, final, run, _⟩ := SmallCurve.request_runs
    obtain ⟨_, _, _, _, _, _, _, _, short, _⟩ := scripts_sized run
    exact ⟨result, final, run, short⟩
  · obtain ⟨result, final, run⟩ := Outcomes.splitRequest_returns
    obtain ⟨e, evidence, _, ran, written, _, _, _, short, _, split⟩ := scripts_sized run
    have long := evidence_long SmallCurve.aead ran
      (Nat.le_of_eq SmallCurve.splitRequest_length.symm)
    rw [writeEvalNotaryEvidenceScript_eq, List.nil_append, written,
      writeNotaryEvidenceForEnvelope_render, List.nil_append] at split
    exact ⟨result, final, run, (split long).2.1, short⟩

end CmmEncrypt.Outputs
