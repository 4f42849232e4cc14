import CmmEncrypt.Capacity
import CmmEncrypt.SmallCurve

/-!
# How much a call publishes

The length of the entry and of every output script, as functions of the lengths of what
is encrypted. Nothing else goes into them: not the bytes of a payload, not the keys, the
system id or the output index, and not the generator.
-/

namespace CmmEncrypt.Sizes

open Wire WireCodec Layout Vdxf DataRef Descriptor Evidence BreakApart Script Splitting Sapling
open Api Deposit Passes Executions Shapes Capacity

/-! ## The lengths -/

/-- `n` bytes behind their length prefix. -/
def prefixed (n : Nat) : Nat := compactSizeLen (UInt64.ofNat n).toNat + n

/-- An optional string of `n` bytes; an empty one is left out. -/
def optionalSize (n : Nat) : Nat := if n = 0 then 0 else prefixed n

def frameSize (n : Nat) : Nat := 21 + prefixed n

/-- A pointer and two strings, before they are encrypted. -/
def innerSize (label mimeType : Nat) : Nat := 66 + optionalSize label + optionalSize mimeType

def outerSize (label mimeType : Nat) : Nat :=
  68 + prefixed (frameSize (innerSize label mimeType) + 16)

/-- The entry; a signature adds a second descriptor, with its own label and MIME type. -/
def entrySize (label mimeType : Nat) (signed : Bool) : Nat :=
  outerSize label mimeType + if signed then outerSize 9 16 else 0

def pass1Size (payload : Nat) : Nat := 35 + prefixed (payload + 16)

/-- A chain object around a payload. -/
def objectSize (payload : Nat) : Nat := 25 + prefixed (frameSize (pass1Size payload))

def evidenceSize (payloads : List Nat) : Nat := 64 + (payloads.map objectSize).sum

def scriptSize (evidence : Nat) : Nat := 42 + pushLen (39 + pushLen evidence)

/-- The wrapper around the piece numbered `i`. -/
def partSize (evidence i : Nat) : Nat :=
  69 + (varint (UInt32.ofNat i).toUInt64).length + (varint (UInt64.ofNat evidence)).length +
    (varint (UInt64.ofNat (i * maxChunk))).length +
    prefixed (min maxChunk (evidence - i * maxChunk))

def outputSizes (evidence : Nat) : List Nat :=
  if MAX_SCRIPT_ELEMENT_SIZE ≤ scriptSize evidence then
    (List.range (evidence ⌈/⌉ maxChunk)).map (fun i => scriptSize (partSize evidence i))
  else [scriptSize evidence]

/-! ## Layout by layout -/

theorem varBytes_size (bytes : Bytes) : (render (varBytes bytes)).length = prefixed bytes.length :=
  varBytes_length bytes

theorem frame_size (key : ByteArr 20) (data : Bytes) :
    (render (frame key 1 data)).length = frameSize data.length := by
  rw [frame_length, frameSize, prefixed, Nat.add_assoc]

theorem key_size (key : ByteArr 32) : (render (varBytes key.toList)).length = 33 := by
  rw [varBytes_size, key.toList_length]
  rfl

theorem optionalString_size (s : Option String) :
    (render (optionalBytes ((contentStr s).map asBytes))).length = optionalSize (utf8Length s) := by
  rcases isNonemptyStr_cases s with ⟨v, rfl, full, _, kept⟩ | ⟨_, dropped, zero⟩
  · have nonzero : (asBytes v).length ≠ 0 := by
      intro blank
      have same : v = "" := asBytes_inj (List.length_eq_zero_iff.mp blank)
      rw [same] at full
      cases full
    rw [kept, optionalSize]
    change (render (varBytes (asBytes v))).length = if (asBytes v).length = 0 then _ else _
    rw [if_neg nonzero, varBytes_size]
    rfl
  · rw [dropped, zero]
    rfl

/-- Of all flags only those of the two strings can be set. -/
theorem innerFlags_size (voutIndex subObject : UInt32) (label mimeType : Option String) :
    (varint (calcFlags (innerCdd voutIndex subObject label mimeType)).toUInt64).length = 1 := by
  have all : ∀ l m : Bool,
      (varint (
        let f : UInt32 := 0
        let f := if l then f ||| FLAG_LABEL_PRESENT else f
        if m then f ||| FLAG_MIME_TYPE_PRESENT else f).toUInt64).length = 1 := by decide
  exact all (isNonemptyStr label) (isNonemptyStr mimeType)

theorem inner_size (voutIndex : UInt32) {subObject : UInt32} (small : subObject.toNat < 128)
    (label mimeType : Option String) :
    (render (descriptor (innerCdd voutIndex subObject label mimeType))).length =
      innerSize (utf8Length label) (utf8Length mimeType) := by
  have one : (varint 1).length = 1 := by decide
  have ref : (render (varBytes (render
      (cvdxfDataRef { voutIndex, objectNum := 0, subObject })))).length = 64 := by
    rw [varBytes_size, ref_length voutIndex small]
    rfl
  rw [inner_shape, render_cons, render_cons, render_append, render_append]
  simp only [List.length_append, Field.bytes, one, innerFlags_size, ref, optionalString_size,
    innerSize]
  omega

theorem outer_size (w : WrappedEncrypted) (ivkBytes : ByteArr 32) :
    (render (descriptor (outerCdd w ivkBytes))).length = 68 + prefixed w.objectData.length := by
  have one : (varint 1).length = 1 := by decide
  have thirteen : (varint 13).length = 1 := by decide
  rw [outer_shape, render_cons, render_cons, render_append, render_append]
  simp only [List.length_append, Field.bytes, one, thirteen, varBytes_size w.objectData, key_size]
  omega

theorem dataVec_size {r : ℕ} (key : ByteArr 20) (pass : Pass r) {n : Nat}
    (ciphertext : pass.ciphertext.length = n + 16) :
    (dataVec key pass).length = frameSize (pass1Size n) := by
  rw [dataVec, frame_size, pass1_length, ciphertext, pass1Size, prefixed, Nat.add_assoc]

theorem dataObject_size (entry : EvidenceEntry) :
    (render (dataObject entry)).length = 25 + prefixed entry.data.length := by
  have one : (varint 1).length = 1 := by decide
  have type : (varint EVIDENCE_TYPE_DATA.toUInt64).length = 1 := by decide
  rw [dataObject]
  simp only [render_cons, List.length_append, Field.bytes, leBytes_length, one, type,
    entry.vdxfKey.toList_length, varBytes_size]
  omega

theorem evidenceScript_size (notaryEvidence : Bytes) :
    (evidenceScript notaryEvidence).length = scriptSize notaryEvidence.length :=
  evidenceScript_length notaryEvidence

theorem wrapper_size (systemId : ByteArr 20) (evidence : Bytes) (i : Nat) :
    (render (wrapper systemId maxChunk evidence i)).length = partSize evidence.length i := by
  have one : (varint 1).length = 1 := by decide
  have type : (varint EVIDENCE_TYPE_MULTIPART_DATA.toUInt64).length = 1 := by decide
  rw [wrapper, multipartEvidence, notaryEvidence_length, one, multipartObject]
  simp only [render_cons, List.length_append, Field.bytes, leBytes_length, one, type,
    varBytes_size, piece_length, partDescriptor, partSize]
  omega

theorem depositScripts_size (systemId : ByteArr 20) (evidence : Bytes) :
    (depositScripts systemId evidence).map List.length = outputSizes evidence.length := by
  rw [depositScripts, outputSizes, evidenceScript_size]
  split
  · rw [List.map_map, pieceCount]
    refine List.map_congr_left fun i _ => ?_
    rw [Function.comp_apply, evidenceScript_size, wrapper_size]
  · rw [List.map_singleton, evidenceScript_size]

/-! ## Calls -/

variable {r : ℕ} {Point Rng : Type} [AddCommGroup Point] [DecidableEq Point]
variable {P : Primitives r Point Rng} {request : EncryptRequest} {rng : Rng}
variable {e : Execution r Point Rng}

theorem matched_map {α β γ : Type} {R : α → β → Prop} {xs : List α} {ys : List β}
    (matched : List.Forall₂ R xs ys) {f : β → γ} {g : α → γ}
    (same : ∀ x ∈ xs, ∀ y, R x y → f y = g x) : ys.map f = xs.map g := by
  induction matched with
  | nil => rfl
  | cons related _ ih =>
    rw [List.map_cons, List.map_cons, same _ List.mem_cons_self _ related,
      ih fun x member => same x (List.mem_cons_of_mem _ member)]

theorem Encrypts.outer_size (aead : AeadCodec P) {voutIndex subObject : UInt32}
    (small : subObject.toNat < 128) {label mimeType : Option String} {pass : Pass r}
    (encrypts : Encrypts P e (outerPlaintext voutIndex subObject label mimeType) pass) :
    (render (descriptor (outerDescriptor P e pass))).length =
      outerSize (utf8Length label) (utf8Length mimeType) := by
  have ciphertext := encrypts.length aead
  rw [outerPlaintext, frame_size, inner_size voutIndex small] at ciphertext
  rw [outerDescriptor, Sizes.outer_size, wrapped, ciphertext, outerSize]

theorem Ran.cmmValue_size (aead : AeadCodec P) (ran : Ran P request rng e) :
    (cmmValue P e).length =
      entrySize (utf8Length request.label) (utf8Length request.mimeType)
        request.signature.isSome := by
  have label : utf8Length (some SIGNATURE_OUTER_LABEL) = 9 := by decide
  have mimeType : utf8Length (some SIGNATURE_OUTER_MIME_TYPE) = 16 := by decide
  have sizes := matched_map (Ran.matched ran).2
    (g := fun object => outerSize (utf8Length object.2.1) (utf8Length object.2.2))
    fun object member pass encrypts =>
      Encrypts.outer_size aead (Ran.pointed_caps ran object member).1 encrypts
  rw [cmmValue, List.length_flatMap, sizes, pointed, entrySize]
  cases request.signature with
  | none => rfl
  | some _ =>
    simp only [Option.map_some, Option.toList_some, List.map_cons, List.map_nil, List.sum_cons,
      List.sum_nil, label, mimeType, Option.isSome_some, if_true, Nat.add_zero]

theorem Ran.evidence_size (aead : AeadCodec P) (ran : Ran P request rng e) :
    (evidence request.systemId e).length =
      evidenceSize ((payloads request).map fun payload => payload.val.length) := by
  have sizes := matched_map (Ran.matched ran).1
    (f := fun keyed => (render (dataObject
      { vdxfKey := keyed.1, data := dataVec keyed.1 keyed.2 })).length)
    (g := fun payload => objectSize payload.val.length) fun payload _ keyed encrypts => by
      rw [dataObject_size, dataVec_size keyed.1 keyed.2 (encrypts.length aead), objectSize]
  have count : (varint (UInt64.ofNat (entries e).length)).length = 1 := by
    have one : (varint (UInt64.ofNat 1)).length = 1 := by decide
    have two : (varint (UInt64.ofNat 2)).length = 1 := by decide
    rw [entries]
    cases e.attached with
    | none => exact one
    | some _ => exact two
  rw [evidence, envelopeEvidence, notaryEvidence_length, count, render_flatMap, List.length_flatMap,
    entries_eq, List.map_map, evidenceSize, List.map_map]
  exact congrArg (fun objects => 64 + List.sum objects) sizes

/-- The lengths of the entry and of all outputs of a call. -/
theorem sizes_exact (aead : AeadCodec P) {result : EncryptResult} {final : Session r Rng}
    (run : call P request rng = .ok (result, final)) :
    result.cmmEntry.2.length =
      entrySize (utf8Length request.label) (utf8Length request.mimeType)
        request.signature.isSome ∧
    result.dataDepositOutputScripts.map List.length =
      outputSizes (evidenceSize ((payloads request).map fun payload => payload.val.length)) := by
  obtain ⟨e, ran, rfl, rfl⟩ := (call_ok_iff ..).mp run
  refine ⟨Ran.cmmValue_size aead ran, ?_⟩
  rw [resultOf_scripts, depositScripts_size, Ran.evidence_size aead ran]

theorem sizes_exact_small :
    ∃ result final, call SmallCurve.primitives SmallCurve.request 1 = .ok (result, final) ∧
      result.cmmEntry.2.length = 375 ∧ result.dataDepositOutputScripts.map List.length = [354] := by
  obtain ⟨result, final, run, _⟩ := SmallCurve.request_runs
  obtain ⟨entry, outputs⟩ := sizes_exact SmallCurve.aead run
  exact ⟨result, final, run, entry.trans (by decide), outputs.trans (by decide)⟩

/-- The entry of a control fixture without strings, and the outputs of 20000 bytes. -/
example : entrySize 0 0 false = 173 ∧
    outputSizes (evidenceSize [20000]) = [5888, 5889, 5889, 3164] := by decide

end CmmEncrypt.Sizes
