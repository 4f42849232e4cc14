import CmmEncrypt.Api

/-!
# The data-deposit outputs

The chunk size is a constant, whatever the system id. One script carries the whole
evidence, or every script one of its pieces; the margin left for the wrapper around
a piece is always enough.
-/

namespace CmmEncrypt.Deposit

open Cursor Wire WireCodec Layout Evidence BreakApart Script Splitting Api

theorem notaryEvidence_length (type : UInt8) (systemId : ByteArr 20) (count : UInt64)
    (objects : List Field) :
    (render (notaryEvidence type systemId count objects)).length =
      63 + (varint count).length + (render objects).length := by
  simp only [notaryEvidence, render_cons, Field.bytes, List.length_append, List.length_cons,
    List.length_nil, List.length_replicate, leBytes_length, List.Vector.toList_length]
  omega

/-- An evidence without entries has its shortest script. -/
theorem emptyScript_length (systemId : ByteArr 20) :
    (evidenceScript (render (envelopeEvidence systemId []))).length = 148 := by
  have count : (varint (UInt64.ofNat ([] : List EvidenceEntry).length)).length = 1 := by decide
  rw [evidenceScript_length, envelopeEvidence, notaryEvidence_length, count]
  rfl

/-- What is left of a script element for a piece. -/
def maxChunk : Nat := 5724

theorem maxChunk_eq {ε : Type} (systemId : ByteArr 20) :
    usizeSub MAX_SCRIPT_ELEMENT_SIZE
      ((writeEvalNotaryEvidenceScript [] (writeNotaryEvidenceForEnvelope [] systemId [])).length +
        BREAK_APART_SAFETY_MARGIN) = (.ok maxChunk : Except (Fault ε) Nat) := by
  rw [writeNotaryEvidenceForEnvelope_render, writeEvalNotaryEvidenceScript_eq, List.nil_append,
    List.nil_append, emptyScript_length]
  rfl

/-- The scripts of an evidence. -/
def depositScripts (systemId : ByteArr 20) (evidence : Bytes) : List Bytes :=
  if MAX_SCRIPT_ELEMENT_SIZE ≤ (evidenceScript evidence).length then
    (List.range (pieceCount maxChunk evidence)).map
      (fun i => evidenceScript (render (wrapper systemId maxChunk evidence i)))
  else [evidenceScript evidence]

theorem depositScripts_single (systemId : ByteArr 20) {evidence : Bytes}
    (short : (evidenceScript evidence).length < MAX_SCRIPT_ELEMENT_SIZE) :
    depositScripts systemId evidence = [evidenceScript evidence] := by
  rw [depositScripts, if_neg (Nat.not_le.mpr short)]

theorem depositScripts_split (systemId : ByteArr 20) {evidence : Bytes}
    (long : MAX_SCRIPT_ELEMENT_SIZE ≤ (evidenceScript evidence).length) :
    depositScripts systemId evidence = (List.range (pieceCount maxChunk evidence)).map
      (fun i => evidenceScript (render (wrapper systemId maxChunk evidence i))) := by
  rw [depositScripts, if_pos long]

/-- Step 4 never fails: the subtraction does not underflow and no chunk is empty. -/
theorem dataDepositScripts_eq {ε : Type} (systemId : ByteArr 20) (evidence : Bytes) :
    (dataDepositScripts systemId evidence : Except (Fault ε) (List Bytes)) =
      .ok (depositScripts systemId evidence) := by
  have chunks := breakApart_eq (ε := ε) systemId evidence (by decide : 0 < maxChunk)
  have script : writeEvalNotaryEvidenceScript [] = evidenceScript := by
    funext bytes
    rw [writeEvalNotaryEvidenceScript_eq, List.nil_append]
  have size := maxChunk_eq (ε := ε) systemId
  rw [script] at size
  rw [dataDepositScripts, depositScripts, script]
  split
  · simp only [size, bind, Except.bind, chunks, pure, Except.pure, List.map_map,
      Function.comp_def]
  · rfl

/-! ## Sizes -/

/-- Three VARINTs and two length prefixes around a piece. -/
theorem wrapper_length (systemId : ByteArr 20) (evidence : Bytes) (i : Nat) :
    (render (wrapper systemId maxChunk evidence i)).length ≤ 5821 := by
  have chunk : (piece maxChunk evidence i).length ≤ 5724 := by
    rw [piece_length, maxChunk]
    omega
  have prefixLen : compactSizeLen (UInt64.ofNat (piece maxChunk evidence i).length).toNat ≤ 3 := by
    rw [UInt64.toNat_ofNat', Nat.mod_eq_of_lt (by omega)]
    exact compactSizeLen_mono chunk
  have index : (varint (partDescriptor maxChunk evidence i).index.toUInt64).length ≤ 5 :=
    varint_length 4 (by
      have := (partDescriptor maxChunk evidence i).index.toNat_lt
      rw [UInt32.toNat_toUInt64]
      omega)
  have long : ∀ n : UInt64, (varint n).length ≤ 10 := fun n =>
    varint_length 9 (by have := n.toNat_lt; omega)
  have total := long (partDescriptor maxChunk evidence i).totalLength
  have start := long (partDescriptor maxChunk evidence i).start
  have one : (varint 1).length = 1 := by decide
  have type : (varint EVIDENCE_TYPE_MULTIPART_DATA.toUInt64).length = 1 := by decide
  rw [wrapper, multipartEvidence, notaryEvidence_length, one]
  simp only [multipartObject, varBytes, render_cons, render_nil, Field.bytes, List.length_append,
    leBytes_length, List.length_nil, one, type, compactSize_length]
  omega

theorem wrapperScript_length (systemId : ByteArr 20) (evidence : Bytes) (i : Nat) :
    (evidenceScript (render (wrapper systemId maxChunk evidence i))).length < 6000 := by
  have nested := pushLen_mono (Nat.add_le_add_left
    (pushLen_mono (wrapper_length systemId evidence i)) 39)
  have value : pushLen (39 + pushLen 5821) = 5866 := by decide
  rw [evidenceScript_length]
  omega

theorem depositScripts_short (systemId : ByteArr 20) (evidence : Bytes) :
    ∀ script ∈ depositScripts systemId evidence, script.length < MAX_SCRIPT_ELEMENT_SIZE := by
  intro script member
  rw [depositScripts] at member
  split at member
  · obtain ⟨i, _, rfl⟩ := List.mem_map.mp member
    exact wrapperScript_length systemId evidence i
  · rename_i short
    rw [List.mem_singleton.mp member]
    exact Nat.lt_of_not_le short

/-- An evidence that is too long for one script is longer than one piece. -/
theorem two_pieces {evidence : Bytes}
    (long : MAX_SCRIPT_ELEMENT_SIZE ≤ (evidenceScript evidence).length) :
    2 ≤ pieceCount maxChunk evidence := by
  have size : maxChunk < evidence.length := by
    by_contra short
    have nested := pushLen_mono (Nat.add_le_add_left (pushLen_mono (Nat.not_lt.mp short)) 39)
    have value : pushLen (39 + pushLen maxChunk) = 5769 := by decide
    rw [evidenceScript_length, MAX_SCRIPT_ELEMENT_SIZE] at long
    omega
  have second := (lt_pieceCount (by decide : 0 < maxChunk) evidence 1).mpr (by omega)
  omega

end CmmEncrypt.Deposit
