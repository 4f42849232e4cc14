import CmmEncrypt.RoundTrip

/-!
# Entries in a transaction

The caller puts the outputs of one call, or of several, among the outputs of a
transaction. A reader of an entry sees all of them and follows the index in the
pointer; where its evidence ends, it finds out by itself.
-/

namespace CmmEncrypt.Transaction

open Cursor Wire FallibleState Layout DataRef Descriptor Evidence BreakApart Script Splitting Vdxf
open Sapling CofactorGroup Api Deposit Passes Executions Recovery Outputs Capacity RoundTrip

/-- The evidence that starts at the first output, whatever follows it. -/
def readDepositFrom (outputs : List Bytes) : Except ReadError CNotaryEvidence :=
  match outputs with
  | [] => .error .noSuchObject
  | script :: _ => do
    let bytes ← scriptEvidence script
    let evidence ← Reader.toEnd .leftover readNotaryEvidence bytes
    if evidence.type = NOTARY_TYPE_MULTIPART_DATA then do
      let (bytes, _) ← reassemble scriptPart .wrongPart outputs
      readImportProof bytes
    else readImportProof bytes

section Following

variable {r : ℕ} {Point Rng : Type} [AddCommGroup Point] (P : Primitives r Point Rng)

/-- What a descriptor leads to, its evidence taken from the outputs its pointer names. -/
def followDescriptor (outputs : List Bytes) (cdd : CDataDescriptor) :
    Except ReadError Recovered := do
  let ivk ← keyField cdd.ivk
  let plaintext ← decryptObject P ivk cdd
  let inner ← unwrapDescriptor DATA_DESCRIPTOR_KEY_LE plaintext
  let pointer ← Reader.toEnd .leftover readCvdxfDataRef inner.objectData
  let evidence ← readDepositFrom (outputs.drop pointer.voutIndex.toNat)
  let (key, dataVec) ← objectAt evidence.objects pointer.subObject
  let pass1 ← unwrapDescriptor key dataVec
  let contents ← decryptObject P ivk pass1
  pure { pointer, label := inner.label, mimeType := inner.mimeType, contents }

def openEntryIn (outputs : List Bytes) (cmmValue : Bytes) : Except ReadError (List Recovered) := do
  let descriptors ← Reader.sequence .leftover readDataDescriptor cmmValue
  descriptors.mapM (followDescriptor P outputs)

end Following

/-! ## Where an evidence ends -/

/-- An evidence in one piece ends with its output. -/
theorem readDepositFrom_whole {systemId : ByteArr 20} {script evidence : Bytes}
    (carried : Carries NOTARY_TYPE_IMPORT_PROOF systemId script evidence) (more : List Bytes) :
    readDepositFrom (script :: more) = readImportProof evidence := by
  obtain ⟨objects, parsed⟩ := carried.parsed
  have whole : ¬ NOTARY_TYPE_IMPORT_PROOF = NOTARY_TYPE_MULTIPART_DATA := by decide
  simp only [readDepositFrom, carried.item, parsed, bind, Except.bind, if_neg whole]

/-- A first part is gathered with those that follow. -/
theorem readDepositFrom_parts {systemId : ByteArr 20} {script wrapper : Bytes}
    (carried : Carries NOTARY_TYPE_MULTIPART_DATA systemId script wrapper) (more : List Bytes) :
    readDepositFrom (script :: more) = (do
      let (bytes, _) ← reassemble scriptPart .wrongPart (script :: more)
      readImportProof bytes) := by
  obtain ⟨objects, parsed⟩ := carried.parsed
  simp only [readDepositFrom, carried.item, parsed, bind, Except.bind, if_true]

/-- The script around a piece is read as that part, wherever it stands. -/
theorem scriptPart_wrapper (systemId : ByteArr 20) {evidence : Bytes}
    (countable : pieceCount maxChunk evidence < 2 ^ 32) {i : Nat}
    (inside : i < pieceCount maxChunk evidence) :
    scriptPart (evidenceScript (render (wrapper systemId maxChunk evidence i))) =
      .ok (partOf maxChunk evidence i) := by
  rw [scriptPart, (wrapper_carried systemId evidence i).item]
  exact readPart_wrapper systemId (by decide) (by decide) countable inside

/-- An envelope laid out over outputs is read back whatever outputs follow. -/
theorem readDepositFrom_scripts (systemId : ByteArr 20) {entries : List EvidenceEntry}
    (count : entries.length < 2 ^ 64)
    (countable : pieceCount maxChunk (render (envelopeEvidence systemId entries)) < 2 ^ 32)
    (more : List Bytes) :
    readDepositFrom (depositScripts systemId (render (envelopeEvidence systemId entries)) ++ more) =
      readImportProof (render (envelopeEvidence systemId entries)) := by
  have positive : 0 < maxChunk := by decide
  rcases Nat.lt_or_ge (evidenceScript (render (envelopeEvidence systemId entries))).length
    MAX_SCRIPT_ELEMENT_SIZE with short | long
  · rw [depositScripts_single systemId short, List.singleton_append]
    exact readDepositFrom_whole (envelope_carried systemId count short) more
  · have nonempty : render (envelopeEvidence systemId entries) ≠ [] := by
      apply List.ne_nil_of_length_pos
      rw [envelopeEvidence, notaryEvidence_length]
      omega
    have gathered := reassemble_pieces positive nonempty
      (fun i => evidenceScript
        (render (wrapper systemId maxChunk (render (envelopeEvidence systemId entries)) i)))
      ReadError.wrongPart more (fun i inside => scriptPart_wrapper systemId countable inside)
    obtain ⟨k, two⟩ : ∃ k, pieceCount maxChunk (render (envelopeEvidence systemId entries)) =
      k + 1 := ⟨_, (Nat.sub_add_cancel (Nat.le_of_lt (two_pieces long))).symm⟩
    rw [depositScripts_split systemId long]
    rw [two, List.range_succ_eq_map, List.map_cons, List.cons_append] at gathered ⊢
    rw [readDepositFrom_parts (wrapper_carried systemId _ 0), gathered]
    rfl

/-- The evidence of an execution, read from its scripts. -/
theorem readDepositFrom_execution {r : ℕ} {Point Rng : Type} {e : Execution r Point Rng}
    (systemId : ByteArr 20)
    (fits : ∀ entry ∈ entries e, entry.data.length ≤ MAX_SIZE.toNat) (more : List Bytes) :
    readDepositFrom (depositScripts systemId (evidence systemId e) ++ more) =
      .ok { type := NOTARY_TYPE_IMPORT_PROOF, systemId := systemId.toList,
            objects := objectsOf e } := by
  have countable := evidence_countable systemId fits
  have read := readDepositFrom_scripts systemId (entries_countable e) countable more
  exact read.trans (readImportProof_envelope systemId (entries_countable e) fits)

/-! ## Following is opening with the evidence that the pointer names -/

variable {r : ℕ} {Point Rng : Type} [AddCommGroup Point] {P : Primitives r Point Rng}

theorem followDescriptor_ok_iff {outputs : List Bytes} {cdd : CDataDescriptor}
    {item : Recovered} :
    followDescriptor P outputs cdd = .ok item ↔
      ∃ evidence, readDepositFrom (outputs.drop item.pointer.voutIndex.toNat) = .ok evidence ∧
        openDescriptor P evidence.objects cdd = .ok item := by
  simp only [followDescriptor, openDescriptor, except_bind_ok_iff]
  constructor
  · rintro ⟨ivk, hivk, plaintext, decrypted, inner, unwrapped, pointer, hpointer, evidence, read,
      object, located, pass1, framed, contents, opened, same⟩
    cases same
    exact ⟨evidence, read, ivk, hivk, plaintext, decrypted, inner, unwrapped, pointer, hpointer,
      object, located, pass1, framed, contents, opened, rfl⟩
  · rintro ⟨evidence, read, ivk, hivk, plaintext, decrypted, inner, unwrapped, pointer, hpointer,
      object, located, pass1, framed, contents, opened, same⟩
    cases same
    exact ⟨ivk, hivk, plaintext, decrypted, inner, unwrapped, pointer, hpointer, evidence, read,
      object, located, pass1, framed, contents, opened, rfl⟩

/-! ## Several calls in one transaction -/

variable [DecidableEq Point]

/-- From the output that the call was told on, the outputs are its scripts. -/
def Placed (outputs : List Bytes) (c : Returned P) : Prop :=
  c.result.dataDepositOutputScripts <+: outputs.drop c.request.dataDepositVoutIndex.toNat

/-- Every item of an entry points to the output that the call was told. -/
theorem recovered_pointer {request : EncryptRequest} :
    ∀ item ∈ recovered request, item.pointer.voutIndex = request.dataDepositVoutIndex := by
  intro item member
  rw [recovered, List.mem_cons, Option.mem_toList, Option.map_eq_some_iff] at member
  rcases member with rfl | ⟨_, _, rfl⟩
  · rfl
  · rfl

/-- What is known of the entry of a call: its descriptors, and what each leads to in the chain
objects of its evidence. -/
theorem Returned.descriptors (fr : FrCodec P) (points : PointCodec P) (aead : AeadCodec P)
    (c : Returned P) (within : WithinMaxSize c.request) :
    ∃ (e : Execution r Point Rng) (descriptors : List CDataDescriptor),
      c.result.dataDepositOutputScripts =
        depositScripts c.request.systemId (evidence c.request.systemId e) ∧
      (∀ entry ∈ entries e, entry.data.length ≤ MAX_SIZE.toNat) ∧
      Reader.sequence .leftover readDataDescriptor c.result.cmmEntry.2 = .ok descriptors ∧
      descriptors.mapM (openDescriptor P (objectsOf e)) = .ok (recovered c.request) := by
  obtain ⟨e, ran, result, _⟩ := c.exists_execution
  have fits := (Ran.withinMaxSize_iff aead ran).mp within
  have entryFits : ∀ entry ∈ entries e, entry.data.length ≤ MAX_SIZE.toNat := by
    rw [entries_eq, List.forall_mem_map]
    exact fits
  have value : c.result.cmmEntry.2 = cmmValue P e := by
    rw [result, resultOf]
  refine ⟨e, _, ?_, entryFits, ?_, descriptors_opened fr points aead ran fits⟩
  · rw [result, resultOf_scripts]
  · rw [value]
    exact cmmValue_parsed aead ran

/-- An entry opens in every transaction that has its outputs where the call was told. -/
theorem openEntryIn_placed (fr : FrCodec P) (points : PointCodec P) (aead : AeadCodec P)
    (c : Returned P) (within : WithinMaxSize c.request) {outputs : List Bytes}
    (placed : Placed outputs c) :
    openEntryIn P outputs c.result.cmmEntry.2 = .ok (recovered c.request) := by
  obtain ⟨e, descriptors, scripts, fits, parsed, opened⟩ :=
    Returned.descriptors fr points aead c within
  obtain ⟨more, split⟩ := placed
  have read := readDepositFrom_execution c.request.systemId fits more
  rw [← scripts, split] at read
  refine except_bind_ok_iff.mpr ⟨descriptors, parsed, ?_⟩
  apply mapM_ok_mono opened
  intro cdd item member leads
  rw [← recovered_pointer item member] at read
  exact followDescriptor_ok_iff.mpr ⟨_, read, leads⟩

/-- The outputs of a transaction: those in front, then those of every call in turn. -/
def layOut (outputs : List Bytes) (calls : List (Returned P)) : List Bytes :=
  calls.foldl (fun outputs c => outputs ++ c.result.dataDepositOutputScripts) outputs

/-- Every call was told how many outputs stand in front of its own. -/
def Told : List Bytes → List (Returned P) → Prop
  | _, [] => True
  | outputs, c :: calls =>
    c.request.dataDepositVoutIndex.toNat = outputs.length ∧
      Told (outputs ++ c.result.dataDepositOutputScripts) calls

/-- Laying out appends. -/
theorem prefix_layOut (outputs : List Bytes) (calls : List (Returned P)) :
    outputs <+: layOut outputs calls := by
  induction calls generalizing outputs with
  | nil => exact List.prefix_refl outputs
  | cons c calls ih => exact (List.prefix_append outputs _).trans (ih _)

theorem placed_of_prefix {outputs whole : List Bytes} {c : Returned P}
    (told : c.request.dataDepositVoutIndex.toNat = outputs.length)
    (front : outputs ++ c.result.dataDepositOutputScripts <+: whole) : Placed whole c := by
  obtain ⟨more, rfl⟩ := front
  rw [Placed, told, List.append_assoc, List.drop_left]
  exact List.prefix_append _ more

/-- A call that was told right keeps its place, whatever is laid out behind it. -/
theorem placed_of_told {outputs : List Bytes} {calls : List (Returned P)}
    (told : Told outputs calls) (after : List Bytes) :
    ∀ c ∈ calls, Placed (layOut outputs calls ++ after) c := by
  induction calls generalizing outputs with
  | nil => simp
  | cons first calls ih =>
    obtain ⟨here, rest⟩ := told
    intro c member
    rcases List.mem_cons.mp member with rfl | later
    · refine placed_of_prefix here ?_
      exact (prefix_layOut _ calls).trans (List.prefix_append _ after)
    · exact ih rest c later

/-- Any number of calls may share a transaction: if each was told where its outputs begin, each
entry opens from the outputs of the whole transaction, whatever else stands there. -/
theorem transaction_opens (fr : FrCodec P) (points : PointCodec P) (aead : AeadCodec P)
    {before : List Bytes} {calls : List (Returned P)} (told : Told before calls)
    (within : ∀ c ∈ calls, WithinMaxSize c.request) (after : List Bytes) :
    ∀ c ∈ calls, openEntryIn P (layOut before calls ++ after) c.result.cmmEntry.2 =
      .ok (recovered c.request) := by
  intro c member
  exact openEntryIn_placed fr points aead c (within c member) (placed_of_told told after c member)

/-- The request of the small curve, told another output. -/
def smallRequest (index : UInt32) : EncryptRequest :=
  { SmallCurve.request with dataDepositVoutIndex := index }

theorem smallRequest_within (index : UInt32) : WithinMaxSize (smallRequest index) := by
  change WithinMaxSize SmallCurve.request
  unfold WithinMaxSize payloads
  decide

/-- A request whose evidence is split, told where its outputs begin. -/
def splitAt (index : UInt32) : EncryptRequest :=
  { SmallCurve.splitRequest with dataDepositVoutIndex := index }

theorem splitAt_within (index : UInt32) : WithinMaxSize (splitAt index) :=
  splitRequest_within

/-- The split request is encrypted into two scripts or more. -/
theorem exists_split (index : UInt32) {rng : ℕ}
    (found : (searchDiversifier SmallCurve.primitives DIVERSIFIER_RETRY_BUDGET
      (nextTape SmallCurve.primitives rng)).isSome) :
    ∃ c : Returned SmallCurve.primitives, c.request = splitAt index ∧ c.rng = rng ∧
      2 ≤ c.result.dataDepositOutputScripts.length := by
  have seals := Outcomes.seals_of_total SmallCurve.total (splitAt index)
  have label : utf8Length SmallCurve.splitRequest.label ≤ 64 := by decide
  have mimeType : utf8Length SmallCurve.splitRequest.mimeType ≤ 128 := by decide
  obtain ⟨result, final, run⟩ := Outcomes.call_returns SmallCurve.fr SmallCurve.points seals rng
    found label mimeType
  have many := Outputs.two_scripts SmallCurve.aead run
    (Nat.le_of_eq SmallCurve.splitRequest_length.symm)
  exact ⟨⟨_, rng, result, final, run⟩, rfl, rfl, many⟩

theorem first_found : (searchDiversifier SmallCurve.primitives DIVERSIFIER_RETRY_BUDGET
    (nextTape SmallCurve.primitives 1)).isSome := by decide

theorem second_found : (searchDiversifier SmallCurve.primitives DIVERSIFIER_RETRY_BUDGET
    (nextTape SmallCurve.primitives 7)).isSome := by decide

/-- Two calls behind seven outputs, the first of one output and the second of several, and one
output behind them. -/
theorem transaction_opens_small : ∃ first second : Returned SmallCurve.primitives,
    2 ≤ second.result.dataDepositOutputScripts.length ∧
    openEntryIn SmallCurve.primitives
        (layOut (List.replicate 7 []) [first, second] ++ [[0x6a]]) first.result.cmmEntry.2 =
      .ok (recovered (smallRequest 7)) ∧
    openEntryIn SmallCurve.primitives
        (layOut (List.replicate 7 []) [first, second] ++ [[0x6a]]) second.result.cmmEntry.2 =
      .ok (recovered (splitAt 8)) := by
  have run : (call SmallCurve.primitives (smallRequest 7) 1).toOption.map
      (fun out => out.1.dataDepositOutputScripts.length) = some 1 := by decide +kernel
  obtain ⟨first, request, _, one⟩ := exists_returned run
  obtain ⟨second, request', _, many⟩ := exists_split 8 second_found
  have told : Told (List.replicate 7 []) [first, second] := by
    refine ⟨?_, ?_, trivial⟩
    · rw [request]
      rfl
    · rw [request', List.length_append, one]
      rfl
  have within : ∀ c ∈ [first, second], WithinMaxSize c.request := by
    rw [List.forall_mem_cons, List.forall_mem_singleton, request, request']
    exact ⟨smallRequest_within 7, splitAt_within 8⟩
  have opened := transaction_opens SmallCurve.fr SmallCurve.points SmallCurve.aead told within
    [[0x6a]]
  have openedFirst := opened first List.mem_cons_self
  have openedSecond := opened second (List.mem_cons_of_mem first List.mem_cons_self)
  rw [request] at openedFirst
  rw [request'] at openedSecond
  exact ⟨first, second, many, openedFirst, openedSecond⟩

/-! ## Outputs out of place -/

/-- Some of the scripts, in any order and number, among outputs that carry no evidence. -/
def Shuffled (scripts outputs : List Bytes) : Prop :=
  ∀ output ∈ outputs, output ∈ scripts ∨ ∃ e, scriptEvidence output = .error e

theorem Shuffled.drop {scripts outputs : List Bytes} (shuffled : Shuffled scripts outputs)
    (n : Nat) : Shuffled scripts (outputs.drop n) :=
  fun output member => shuffled output (List.mem_of_mem_drop member)

/-- Shuffled scripts are read as parts of their own evidence only. -/
theorem Shuffled.genuine {systemId : ByteArr 20} {evidence : Bytes} {outputs : List Bytes}
    (shuffled : Shuffled (depositScripts systemId evidence) outputs)
    (long : MAX_SCRIPT_ELEMENT_SIZE ≤ (evidenceScript evidence).length)
    (countable : pieceCount maxChunk evidence < 2 ^ 32) :
    Genuine scriptPart maxChunk evidence outputs := by
  intro output member part read
  rcases shuffled output member with own | ⟨e, foreign⟩
  · rw [depositScripts_split systemId long] at own
    obtain ⟨i, inside, rfl⟩ := List.mem_map.mp own
    rw [scriptPart_wrapper systemId countable (List.mem_range.mp inside)] at read
    exact ⟨i, (Except.ok.inj read).symm⟩
  · rw [scriptPart, foreign] at read
    cases read

/-- What is read from shuffled scripts is the evidence, or nothing. -/
theorem readDepositFrom_shuffled {systemId : ByteArr 20} {entries : List EvidenceEntry}
    {outputs : List Bytes} (count : entries.length < 2 ^ 64)
    (countable : pieceCount maxChunk (render (envelopeEvidence systemId entries)) < 2 ^ 32)
    (shuffled : Shuffled
      (depositScripts systemId (render (envelopeEvidence systemId entries))) outputs)
    {found : CNotaryEvidence} (read : readDepositFrom outputs = .ok found) :
    readImportProof (render (envelopeEvidence systemId entries)) = .ok found := by
  cases outputs with
  | nil => cases read
  | cons script more =>
    rcases shuffled script List.mem_cons_self with own | ⟨e, foreign⟩
    · rcases Nat.lt_or_ge (evidenceScript (render (envelopeEvidence systemId entries))).length
        MAX_SCRIPT_ELEMENT_SIZE with short | long
      · rw [depositScripts_single systemId short, List.mem_singleton] at own
        rwa [own, readDepositFrom_whole (envelope_carried systemId count short)] at read
      · have genuine := shuffled.genuine long countable
        rw [depositScripts_split systemId long] at own
        obtain ⟨i, _, rfl⟩ := List.mem_map.mp own
        rw [readDepositFrom_parts (wrapper_carried systemId _ i)] at read
        obtain ⟨⟨bytes, rest⟩, gathered, proof⟩ := except_bind_ok_iff.mp read
        rwa [reassemble_genuine genuine gathered] at proof
    · rw [readDepositFrom, foreign] at read
      cases read

/-- However the outputs of a call are reordered, repeated, dropped or mixed with outputs that
carry no evidence, a reader of its entry gets what was encrypted or an error. -/
theorem rearranged_opens (fr : FrCodec P) (points : PointCodec P) (aead : AeadCodec P)
    (c : Returned P) (within : WithinMaxSize c.request) {outputs : List Bytes}
    (shuffled : Shuffled c.result.dataDepositOutputScripts outputs) {items : List Recovered}
    (opened : openEntryIn P outputs c.result.cmmEntry.2 = .ok items) :
    items = recovered c.request := by
  obtain ⟨e, descriptors, scripts, fits, parsed, known⟩ :=
    Returned.descriptors fr points aead c within
  rw [scripts] at shuffled
  obtain ⟨descriptors', parsed', followed⟩ := except_bind_ok_iff.mp opened
  obtain rfl := Except.ok.inj (parsed.symm.trans parsed')
  have same : descriptors.mapM (openDescriptor P (objectsOf e)) = .ok items := by
    apply mapM_ok_mono followed
    intro cdd item _ leads
    obtain ⟨found, read, leads⟩ := followDescriptor_ok_iff.mp leads
    have countable := evidence_countable c.request.systemId fits
    have proof := readDepositFrom_shuffled (entries_countable e) countable (shuffled.drop _) read
    rw [readImportProof_envelope c.request.systemId (entries_countable e) fits] at proof
    rw [← Except.ok.inj proof] at leads
    exact leads
  exact Except.ok.inj (same.symm.trans known)

/-- The outputs of a split evidence, found twice behind outputs that carry nothing. -/
theorem rearranged_opens_small : ∃ (c : Returned SmallCurve.primitives) (outputs : List Bytes),
    2 ≤ c.result.dataDepositOutputScripts.length ∧
    Shuffled c.result.dataDepositOutputScripts outputs ∧
    c.result.dataDepositOutputScripts.length + 7 < outputs.length ∧
      ∃ items, openEntryIn SmallCurve.primitives outputs c.result.cmmEntry.2 = .ok items ∧
        items = recovered (splitAt 7) := by
  obtain ⟨c, request, _, many⟩ := exists_split 7 first_found
  have within : WithinMaxSize c.request := by
    rw [request]
    exact splitAt_within 7
  have unread : ∃ e, scriptEvidence [] = .error e := ⟨_, rfl⟩
  have shuffled : Shuffled c.result.dataDepositOutputScripts (List.replicate 7 [] ++
      (c.result.dataDepositOutputScripts ++ c.result.dataDepositOutputScripts)) := by
    intro output member
    rcases List.mem_append.mp member with empty | own
    · rw [(List.mem_replicate.mp empty).2]
      exact .inr unread
    · exact .inl ((List.mem_append.mp own).elim id id)
  have placed : Placed (List.replicate 7 [] ++
      (c.result.dataDepositOutputScripts ++ c.result.dataDepositOutputScripts)) c := by
    have told : c.request.dataDepositVoutIndex.toNat = (List.replicate 7 ([] : Bytes)).length := by
      rw [request]
      rfl
    refine placed_of_prefix told ?_
    rw [← List.append_assoc]
    exact List.prefix_append _ _
  have opened := openEntryIn_placed SmallCurve.fr SmallCurve.points SmallCurve.aead c within placed
  have items := rearranged_opens SmallCurve.fr SmallCurve.points SmallCurve.aead c within shuffled
    opened
  refine ⟨c, _, many, shuffled, ?_, _, opened, ?_⟩
  · rw [List.length_append, List.length_append, List.length_replicate]
    omega
  · rw [items, request]

end CmmEncrypt.Transaction
