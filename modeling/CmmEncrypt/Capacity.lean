import CmmEncrypt.Outcomes

/-!
# How long a payload may be

The writers take any length and the readers stop at `MAX_SIZE`. Every layer around
a payload adds its overhead, so the longest field, the entry of the evidence,
decides whether all of them can be read.
-/

namespace CmmEncrypt.Capacity

open Wire WireCodec Layout Vdxf DataRef Descriptor Evidence BreakApart Script Splitting Sapling
open Api Deposit Passes Executions Shapes Outcomes

variable {r : ℕ} {Point Rng : Type}

/-- What a request encrypts in pass 1. -/
def payloads (request : EncryptRequest) : List Slice :=
  request.plaintext :: request.signature.toList

/-- A payload and the 82 bytes around it stay within `MAX_SIZE`. -/
def WithinMaxSize (request : EncryptRequest) : Prop :=
  ∀ payload ∈ payloads request, payload.val.length + 82 ≤ MAX_SIZE.toNat

/-- Readable payloads are far below the limit of the AEAD. -/
theorem WithinMaxSize.seals {r : ℕ} {Point Rng : Type} {P : Primitives r Point Rng}
    {request : EncryptRequest} (within : WithinMaxSize request) (aead : AeadLimit P) :
    SealsRequest P request := by
  have max : MAX_SIZE.toNat = 0x02000000 := rfl
  apply seals_of_limit aead
  · have room := within request.plaintext List.mem_cons_self
    omega
  · intro sig signed
    have room := within sig (List.mem_cons_of_mem _ (by rw [signed]; exact List.mem_singleton_self sig))
    omega

/-- Pointer, label and MIME type of every outer pass. -/
def pointed (request : EncryptRequest) : List (UInt32 × Option String × Option String) :=
  (0, request.label, request.mimeType) ::
    (request.signature.map fun _ =>
      (1, some SIGNATURE_OUTER_LABEL, some SIGNATURE_OUTER_MIME_TYPE)).toList

/-- The layouts that a call writes, layer by layer. -/
inductive Wrote (P : Primitives r Point Rng) (request : EncryptRequest)
    (e : Execution r Point Rng) : List Field → Prop
  | pass1 {keyed} (member : keyed ∈ payloadPasses e) :
      Wrote P request e (descriptor (pass1Cdd keyed.2))
  | dataVec {keyed} (member : keyed ∈ payloadPasses e) :
      Wrote P request e (frame keyed.1 1 (render (descriptor (pass1Cdd keyed.2))))
  | evidence : Wrote P request e (envelopeEvidence request.systemId (entries e))
  | chunk {i : Nat}
      (split : MAX_SCRIPT_ELEMENT_SIZE ≤ (evidenceScript (evidence request.systemId e)).length)
      (inside : i < pieceCount maxChunk (evidence request.systemId e)) :
      Wrote P request e (wrapper request.systemId maxChunk (evidence request.systemId e) i)
  | reference {object} (member : object ∈ pointed request) :
      Wrote P request e (cvdxfDataRef (pointerTo request object.1))
  | inner {object} (member : object ∈ pointed request) :
      Wrote P request e (descriptor
        (innerCdd request.dataDepositVoutIndex object.1 object.2.1 object.2.2))
  | outerFrame {object} (member : object ∈ pointed request) :
      Wrote P request e (frame DATA_DESCRIPTOR_KEY_LE 1 (render (descriptor
        (innerCdd request.dataDepositVoutIndex object.1 object.2.1 object.2.2))))
  | outer {pass} (member : pass ∈ outerPasses e) :
      Wrote P request e (descriptor (outerDescriptor P e pass))

/-! ## Layout by layout -/

theorem readable_nil : Readable [] := by
  rw [readable_iff]
  simp

theorem readable_raw (bytes : Bytes) (fields : List Field) :
    Readable (.raw bytes :: fields) ↔ Readable fields := by
  simp only [readable_iff, List.mem_cons, reduceCtorEq, false_or]

theorem readable_varint (n : UInt64) (fields : List Field) :
    Readable (.varint n :: fields) ↔ Readable fields := by
  simp only [readable_iff, List.mem_cons, reduceCtorEq, false_or]

theorem readable_flatMap {α : Type} (f : α → List Field) (xs : List α) :
    Readable (xs.flatMap f) ↔ ∀ x ∈ xs, Readable (f x) := by
  simp only [readable_iff, List.mem_flatMap, forall_exists_index, and_imp]
  constructor
  · intro h x hx n hn
    exact h n x hx hn
  · intro h n x hx hn
    exact h x hx n hn

theorem readable_frame (key : ByteArr 20) (version : UInt32) {data : Bytes}
    (inMemory : data.length < 2 ^ 64) :
    Readable (frame key version data) ↔ data.length ≤ MAX_SIZE.toNat := by
  rw [frame, readable_raw, readable_varint, readable_varBytes inMemory]

theorem readable_key (key : ByteArr 32) : Readable (varBytes key.toList) := by
  have size : key.toList.length = 32 := key.toList_length
  rw [readable_varBytes (by omega), size]
  decide

theorem readable_pass1 {pass : Pass r} (inMemory : pass.ciphertext.length < 2 ^ 64) :
    Readable (descriptor (pass1Cdd pass)) ↔ pass.ciphertext.length ≤ MAX_SIZE.toNat := by
  rw [pass1_shape, readable_varint, readable_varint, readable_append, readable_varBytes inMemory]
  exact and_iff_left (readable_key pass.epk)

theorem readable_outer {w : WrappedEncrypted} (ivkBytes : ByteArr 32)
    (inMemory : w.objectData.length < 2 ^ 64) :
    Readable (descriptor (outerCdd w ivkBytes)) ↔ w.objectData.length ≤ MAX_SIZE.toNat := by
  rw [outer_shape, readable_varint, readable_varint, readable_append, readable_append,
    readable_varBytes inMemory]
  exact and_iff_left ⟨readable_key w.epk, readable_key ivkBytes⟩

theorem readable_string {s : Option String} {cap : Nat} (short : utf8Length s ≤ cap)
    (fits : cap ≤ MAX_SIZE.toNat) : Readable (optionalBytes ((contentStr s).map asBytes)) := by
  have max : MAX_SIZE.toNat = 0x02000000 := rfl
  rcases isNonemptyStr_cases s with ⟨v, rfl, _, _, kept⟩ | ⟨_, dropped, _⟩
  · rw [kept]
    change (asBytes v).length ≤ cap at short
    exact (readable_varBytes (by omega)).mpr (Nat.le_trans short fits)
  · rw [dropped]
    exact readable_nil

theorem readable_inner (voutIndex : UInt32) {subObject : UInt32}
    (small : subObject.toNat < 128) {label mimeType : Option String}
    (capLabel : utf8Length label ≤ 64) (capMime : utf8Length mimeType ≤ 128) :
    Readable (descriptor (innerCdd voutIndex subObject label mimeType)) := by
  have size := ref_length voutIndex small
  rw [inner_shape, readable_varint, readable_varint, readable_append, readable_append,
    readable_varBytes (by omega), size]
  exact ⟨by decide, readable_string capLabel (by decide), readable_string capMime (by decide)⟩

theorem readable_reference (ptr : SelfRefPointer) : Readable (cvdxfDataRef ptr) := by
  have short := crossChainDataRef_length ptr
  have max : MAX_SIZE.toNat = 0x02000000 := rfl
  exact (readable_frame _ _ (by omega)).mpr (by omega)

theorem readable_wrapper (systemId : ByteArr 20) (evidence : Bytes) (i : Nat) :
    Readable (wrapper systemId maxChunk evidence i) := by
  have short := piece_fits (by decide : maxChunk ≤ MAX_SIZE.toNat) evidence i
  have max : MAX_SIZE.toNat = 0x02000000 := rfl
  simp only [wrapper, multipartEvidence, notaryEvidence, multipartObject, readable_raw,
    readable_varint]
  exact (readable_varBytes (by omega)).mpr short

theorem readable_envelope (systemId : ByteArr 20) (entries : List EvidenceEntry) :
    Readable (envelopeEvidence systemId entries) ↔
      ∀ entry ∈ entries, Readable (varBytes entry.data) := by
  simp only [envelopeEvidence, notaryEvidence, readable_raw, readable_varint, readable_flatMap,
    dataObject]

/-! ## Execution by execution -/

theorem matched_right {α β : Type} {R : α → β → Prop} {xs : List α} {ys : List β}
    (matched : List.Forall₂ R xs ys) : ∀ y ∈ ys, ∃ x ∈ xs, R x y := by
  induction matched with
  | nil => simp
  | cons related _ ih =>
    intro y member
    rcases List.mem_cons.mp member with rfl | member
    · exact ⟨_, List.mem_cons_self, related⟩
    · obtain ⟨x, inside, related⟩ := ih y member
      exact ⟨x, List.mem_cons_of_mem _ inside, related⟩

variable [AddCommGroup Point] [DecidableEq Point] {P : Primitives r Point Rng}
variable {request : EncryptRequest} {rng : Rng} {e : Execution r Point Rng}

/-- A pass of this execution encrypts `contents`. -/
def Encrypts (P : Primitives r Point Rng) (e : Execution r Point Rng) (contents : Bytes)
    (pass : Pass r) : Prop :=
  ∃ at_, Makes P e.diversifier (pkD P e) at_ contents pass

theorem Encrypts.length (aead : AeadCodec P) {contents : Bytes} {pass : Pass r}
    (encrypts : Encrypts P e contents pass) : pass.ciphertext.length = contents.length + 16 := by
  obtain ⟨_, made⟩ := encrypts
  rw [← made.plaintext]
  exact aead.length _ _ _ _ made.encrypted

/-- Payloads and pass-1 passes, outer plaintexts and outer passes, in the same order. -/
theorem Ran.matched (ran : Ran P request rng e) :
    List.Forall₂ (fun payload keyed => Encrypts P e payload.val keyed.2) (payloads request)
      (payloadPasses e) ∧
    List.Forall₂ (fun object => Encrypts P e
      (outerPlaintext request.dataDepositVoutIndex object.1 object.2.1 object.2.2))
      (pointed request) (outerPasses e) := by
  have data : Encrypts P e request.plaintext.val e.data := ⟨_, ran.data⟩
  have outer : Encrypts P e (outerPlaintext request.dataDepositVoutIndex 0 request.label
    request.mimeType) e.outer := ⟨_, ran.outer⟩
  rw [payloads, payloadPasses, pointed, outerPasses]
  rcases ran.attached_cases with ⟨unsigned, alone⟩ | ⟨_, _, _, signed, both, made, outerMade⟩
  · rw [unsigned, alone]
    exact ⟨.cons data .nil, .cons outer .nil⟩
  · rw [signed, both]
    exact ⟨.cons data (.cons ⟨_, made⟩ .nil), .cons outer (.cons ⟨_, outerMade⟩ .nil)⟩

/-- Every outer pass points at one of two objects with strings within their caps. -/
theorem Ran.pointed_caps (ran : Ran P request rng e) : ∀ object ∈ pointed request,
    object.1.toNat < 128 ∧ utf8Length object.2.1 ≤ 64 ∧ utf8Length object.2.2 ≤ 128 := by
  intro object member
  rw [pointed, List.mem_cons, Option.mem_toList, Option.map_eq_some_iff] at member
  rcases member with rfl | ⟨_, _, rfl⟩
  · exact ⟨Nat.zero_lt_succ 127, ran.label, ran.mimeType⟩
  · exact ⟨by decide, by decide, by decide⟩

/-- An outer ciphertext is short, whatever the request. -/
theorem Ran.outer_short (aead : AeadCodec P) (ran : Ran P request rng e) :
    ∀ pass ∈ outerPasses e, pass.ciphertext.length ≤ 416 := by
  intro pass member
  obtain ⟨object, inside, encrypts⟩ := matched_right (Ran.matched ran).2 pass member
  obtain ⟨small, label, mimeType⟩ := Ran.pointed_caps ran object inside
  have short := outerPlaintext_length request.dataDepositVoutIndex small label mimeType
  rw [encrypts.length aead]
  omega

/-- Whether the pass-1 layers are readable is decided by their longest field. -/
theorem Ran.withinMaxSize_iff (aead : AeadCodec P) (ran : Ran P request rng e) :
    WithinMaxSize request ↔
      ∀ keyed ∈ payloadPasses e, (dataVec keyed.1 keyed.2).length ≤ MAX_SIZE.toNat := by
  have matched := (Ran.matched ran).1
  constructor
  · intro within keyed member
    obtain ⟨payload, inside, encrypts⟩ := matched_right matched keyed member
    exact (dataVec_fits payload.property (encrypts.length aead)).mpr (within payload inside)
  · intro fits payload member
    obtain ⟨keyed, inside, encrypts⟩ := matched_right matched.flip payload member
    exact (dataVec_fits payload.property (Encrypts.length aead encrypts)).mp (fits keyed inside)

/-- The evidence is readable exactly when the payloads are short enough. -/
theorem Ran.evidence_readable_iff (aead : AeadCodec P) (ran : Ran P request rng e) :
    Readable (envelopeEvidence request.systemId (entries e)) ↔ WithinMaxSize request := by
  have inMemory : ∀ keyed ∈ payloadPasses e, (dataVec keyed.1 keyed.2).length < 2 ^ 64 := by
    intro keyed member
    obtain ⟨payload, _, encrypts⟩ := matched_right (Ran.matched ran).1 keyed member
    have bound := payload.property
    have size := dataVec_length keyed.1 keyed.2
    have ciphertext := encrypts.length aead
    omega
  rw [readable_envelope, entries_eq, List.forall_mem_map, Ran.withinMaxSize_iff aead ran]
  exact forall₂_congr fun keyed member => readable_varBytes (inMemory keyed member)

/-- Every length prefix that a call writes is accepted by the reader if and only if each
payload leaves room for the 82 bytes around it. -/
theorem written_readable_iff (aead : AeadCodec P) {result : EncryptResult}
    {final : Session r Rng} (run : call P request rng = .ok (result, final)) :
    (∃ e, Ran P request rng e ∧ result = resultOf P request e) ∧
    ∀ e, Ran P request rng e → result = resultOf P request e →
      ((∀ fields, Wrote P request e fields → Readable fields) ↔ WithinMaxSize request) := by
  obtain ⟨e, ran, same, _⟩ := (call_ok_iff ..).mp run
  refine ⟨⟨e, ran, same⟩, ?_⟩
  intro e ran _
  have max : MAX_SIZE.toNat = 0x02000000 := rfl
  constructor
  · intro readable
    exact (Ran.evidence_readable_iff aead ran).mp (readable _ .evidence)
  · intro within fields wrote
    have fits := (Ran.withinMaxSize_iff aead ran).mp within
    cases wrote with
    | @pass1 keyed member =>
      have longest := fits keyed member
      have inside := dataVec_length keyed.1 keyed.2
      exact (readable_pass1 (by omega)).mpr (by omega)
    | @dataVec keyed member =>
      have longest := fits keyed member
      have inside := dataVec_length keyed.1 keyed.2
      exact (readable_frame _ _ (by omega)).mpr (by omega)
    | evidence => exact (Ran.evidence_readable_iff aead ran).mpr within
    | chunk split inside => exact readable_wrapper request.systemId _ _
    | reference member => exact readable_reference _
    | inner member =>
      obtain ⟨small, label, mimeType⟩ := Ran.pointed_caps ran _ member
      exact readable_inner _ small label mimeType
    | outerFrame member =>
      obtain ⟨small, label, mimeType⟩ := Ran.pointed_caps ran _ member
      have short := inner_length request.dataDepositVoutIndex small label mimeType
      exact (readable_frame _ _ (by omega)).mpr (by omega)
    | outer member =>
      have short := Ran.outer_short aead ran _ member
      rw [outerDescriptor, readable_outer]
      · exact Nat.le_trans short (by decide)
      · exact Nat.lt_of_le_of_lt short (by decide)

theorem written_readable_small :
    ∃ result final e, call SmallCurve.primitives SmallCurve.request 1 = .ok (result, final) ∧
      Ran SmallCurve.primitives SmallCurve.request 1 e ∧
      ∀ fields, Wrote SmallCurve.primitives SmallCurve.request e fields → Readable fields := by
  obtain ⟨result, final, run, _⟩ := SmallCurve.request_runs
  obtain ⟨⟨e, ran, same⟩, readable⟩ := written_readable_iff SmallCurve.aead run
  have within : WithinMaxSize SmallCurve.request := by
    unfold WithinMaxSize payloads
    decide
  exact ⟨result, final, e, run, ran, (readable e ran same).mpr within⟩

theorem splitRequest_within : WithinMaxSize SmallCurve.splitRequest := by
  have size := SmallCurve.splitRequest_length
  have max : MAX_SIZE.toNat = 0x02000000 := rfl
  have payloads : payloads SmallCurve.splitRequest =
      [SmallCurve.splitRequest.plaintext, ⟨[], by decide⟩] := rfl
  rw [WithinMaxSize, payloads, List.forall_mem_cons, List.forall_mem_singleton]
  refine ⟨by omega, by decide⟩

/-- One byte more than the layers around it leave room for. -/
def longPlaintext : Slice :=
  ⟨List.replicate 33554351 0, by rw [List.length_replicate]; decide⟩

/-- The small curve encrypts it all the same, into an evidence that no reader accepts. -/
theorem every_size_readable_refuted :
    ¬ ∀ (request : EncryptRequest) (rng : ℕ) (result : EncryptResult)
        (final : Session SmallCurve.r ℕ) (e : Execution SmallCurve.r SmallCurve.Point ℕ),
        call SmallCurve.primitives request rng = .ok (result, final) →
          Ran SmallCurve.primitives request rng e →
            result = resultOf SmallCurve.primitives request e →
              ∀ fields, Wrote SmallCurve.primitives request e fields → Readable fields := by
  intro claimed
  have seals := Outcomes.seals_of_total SmallCurve.total
    { SmallCurve.request with plaintext := longPlaintext }
  obtain ⟨result, final, run⟩ := Outcomes.call_returns SmallCurve.fr SmallCurve.points seals 1
    (by decide) (by decide) (by decide)
  obtain ⟨e, ran, same, _⟩ := (call_ok_iff ..).mp run
  have within := (Ran.evidence_readable_iff SmallCurve.aead ran).mp
    (claimed _ 1 result final e run ran same _ .evidence)
  have room := within longPlaintext List.mem_cons_self
  have size : longPlaintext.val.length = 33554351 := List.length_replicate
  have max : MAX_SIZE.toNat = 0x02000000 := rfl
  omega

end CmmEncrypt.Capacity
