import CmmEncrypt.InputForms
import CmmEncrypt.Transaction

/-!
# From the caller's object to the entry and back

What the wrapper accepts, what it then encrypts, and what it throws. A reader of the
transaction gets back what the input offered; while the input is read, nothing but its
own fields decides what that is.
-/

namespace CmmEncrypt.EncryptDescriptor

open Wire Descriptor Sapling CofactorGroup Api FallibleState PrototypeChain JavaScript Plaintext
open Executions Outcomes Capacity RoundTrip Transaction Binding BindingRequests Wrapper InputForms
open HeapInvariants

variable {R : Realm} {H : Host R} {h : Heap R}
variable {h₀ h₁ h' : Heap R} {input p : Value} {n : Normalized} {field : String → Value}
variable {r : ℕ} {Point Rng : Type} [AddCommGroup Point] [DecidableEq Point]
variable {P : Primitives r Point Rng} {rng : Rng} {request : EncryptRequest}
variable {out : EncryptDescriptorOutput}

/-! ## The call -/

/-- How a call of the core ends for the caller of the wrapper. -/
def concluded (P : Primitives r Point Rng) (rng : Rng) (request : EncryptRequest) (h : Heap R) :
    Except Thrown (EncryptDescriptorOutput × Heap R) :=
  match call P request rng with
  | .ok (result, _) => .ok (copied result, h)
  | .error (.error e) => .error (mapEncryptError e)
  | .error (.panic _) => .error (.error "unreachable")

theorem runCore_output (intact : Intact H h) :
    (runCore H P rng request >>= outputOf H) h = concluded P rng request h := by
  rw [concluded]
  cases run : call P request rng with
  | ok out =>
    have core : runCore H P rng request h = buildResultObject H out.1 h := by
      rw [runCore, run]
    rw [bind_congr_at core, outputOf_built intact]
  | error e =>
    cases e with
    | error e =>
      have core : runCore H P rng request h = .error (mapEncryptError e) := by
        rw [runCore, run]
        rfl
      rw [bind_of_error core]
    | panic message =>
      have core : runCore H P rng request h = .error (.error "unreachable") := by
        rw [runCore, run]
        rfl
      rw [bind_of_error core]

/-- An input that offers a request is encrypted as that request. -/
theorem encryptDescriptor_eq (given : SteadyInput H h₀ h₁ input p field)
    (normalizes : Normalizes H.toEngine h₁ p n h) (offers : Offers H h n field request) :
    encryptDescriptor H P rng input h₀ = concluded P rng request h := by
  have normalized := normalizePlaintext_iff.mpr normalizes
  have steady := given.behind n h normalizes
  obtain ⟨outer, outerRead, outerAt, outerDenoted⟩ :=
    normalizeTwentyByte_offered (steady.typed _ (by decide)) offers.outerVdxfKey "outerVdxfKey"
  obtain ⟨system, systemRead, systemAt, systemDenoted⟩ :=
    normalizeTwentyByte_offered (steady.typed _ (by decide)) offers.systemId "systemId"
  obtain ⟨signature, signatureRead⟩ := steady.exists_signature offers.signature
  obtain ⟨_, signatureAt, signatureSame⟩ := steady.signature signatureRead
  have literal := steady.literal outerAt systemAt signatureAt
  obtain ⟨bits, number, index⟩ := offers.dataDepositVoutIndex
  have denotes : Denotes H h (literalField (handedPlaintext n) outer system
      (.value (orNull (field "label"))) (.value (orNull (field "mimeType")))
      (.value (field "dataDepositVoutIndex")) signature) request :=
    { plaintext := offers.plaintext, outerVdxfKey := outerDenoted, systemId := systemDenoted
      label := (textDenoted_orNull _ _).mpr offers.label
      mimeType := (textDenoted_orNull _ _).mpr offers.mimeType
      dataDepositVoutIndex := ⟨bits, congrArg Handed.value number, index⟩
      signature := (signatureSame _).mpr offers.signature }
  rw [encryptDescriptor, bind_of_ok given.plaintext, bind_of_ok normalized,
    bind_of_ok (steady.read "outerVdxfKey" (by decide)), bind_of_ok outerRead,
    bind_of_ok (steady.read "systemId" (by decide)), bind_of_ok systemRead,
    bind_of_ok signatureRead, bind_of_ok (steady.read "label" (by decide)),
    bind_of_ok (steady.read "mimeType" (by decide)),
    bind_of_ok (steady.read "dataDepositVoutIndex" (by decide)), ← runCore_output steady.intact]
  exact bind_congr_at (encryptPublicDecryptJs_eq literal denotes)

/-- Only such inputs are encrypted. -/
theorem encryptDescriptor_ok (given : SteadyInput H h₀ h₁ input p field)
    (run : encryptDescriptor H P rng input h₀ = .ok (out, h')) :
    ∃ n h request, Normalizes H.toEngine h₁ p n h ∧ Offers H h n field request ∧
      concluded P rng request h = .ok (out, h') := by
  rw [encryptDescriptor, bind_of_ok given.plaintext] at run
  obtain ⟨n, h, normalized, run⟩ := bind_ok_iff.mp run
  have normalizes := normalizePlaintext_iff.mp normalized
  have steady := given.behind n h normalizes
  rw [bind_of_ok (steady.read "outerVdxfKey" (by decide))] at run
  obtain ⟨outer, _, outerRead, behindOuter⟩ := bind_ok_iff.mp run
  obtain ⟨rfl, outerAt, outerOffered⟩ :=
    keyOffered_of_normalized (steady.typed "outerVdxfKey" (by decide))
      (steady.measured _ (by decide)) outerRead
  rw [bind_of_ok (steady.read "systemId" (by decide))] at behindOuter
  obtain ⟨system, _, systemRead, behindSystem⟩ := bind_ok_iff.mp behindOuter
  obtain ⟨rfl, systemAt, systemOffered⟩ :=
    keyOffered_of_normalized (steady.typed "systemId" (by decide))
      (steady.measured _ (by decide)) systemRead
  obtain ⟨signature, _, signatureRead, behindSignature⟩ := bind_ok_iff.mp behindSystem
  obtain ⟨rfl, signatureAt, signatureSame⟩ := steady.signature signatureRead
  rw [bind_of_ok (steady.read "label" (by decide)),
    bind_of_ok (steady.read "mimeType" (by decide)),
    bind_of_ok (steady.read "dataDepositVoutIndex" (by decide))] at behindSignature
  have literal := steady.literal outerAt systemAt signatureAt
  obtain ⟨built, h₂, bound, rest⟩ := bind_ok_iff.mp behindSignature
  obtain ⟨request, denotes, core⟩ := encryptPublicDecryptJs_ok literal bound
  refine ⟨n, _, request, normalizes, ?_, ?_⟩
  · obtain ⟨bits, number, index⟩ := denotes.dataDepositVoutIndex
    exact
      { plaintext := denotes.plaintext
        outerVdxfKey := outerOffered _ denotes.outerVdxfKey
        systemId := systemOffered _ denotes.systemId
        label := (textDenoted_orNull _ _).mp denotes.label
        mimeType := (textDenoted_orNull _ _).mp denotes.mimeType
        dataDepositVoutIndex := ⟨bits, Handed.value.inj number, index⟩
        signature := (signatureSame _).mp denotes.signature }
  · rw [← runCore_output steady.intact, bind_of_ok core]
    exact rest

/-! ## What is accepted and how it ends -/

/-- One of the diversifiers of the retry budget is accepted. -/
def Found (P : Primitives r Point Rng) (rng : Rng) : Prop :=
  ∃ i < 64, deriveGD P (drawnDiversifier P rng i) ≠ none

omit [AddCommGroup Point] [DecidableEq Point] in
/-- What an input can offer is far below the limit of the AEAD. -/
theorem seals_of_offers (offers : Offers H h n field request) (limit : AeadLimit P) :
    SealsRequest P request := by
  apply seals_of_limit limit
  · have small := offers.plaintext.small
    omega
  · intro sig signed
    rcases offers.signature with ⟨_, absent⟩ | ⟨b, holds, present⟩
    · rw [absent] at signed
      cases signed
    · rw [present] at signed
      cases signed
      have small := holds.small
      omega

theorem concluded_returns (fr : FrCodec P) (points : PointCodec P)
    (seals : SealsRequest P request) (found : Found P rng) (label : utf8Length request.label ≤ 64)
    (mimeType : utf8Length request.mimeType ≤ 128) :
    ∃ c : Returned P, c.request = request ∧
      concluded P rng request h = .ok (copied c.result, h) := by
  obtain ⟨result, final, run⟩ := call_returns fr points seals rng
    ((search_isSome_iff P rng).mpr found) label mimeType
  refine ⟨⟨request, rng, result, final, run⟩, rfl, ?_⟩
  rw [concluded, run]

/-- The error for a text of `actual` bytes in a field of `cap`. -/
def tooLong (cap actual : Nat) : Thrown :=
  .error ("Wire: LimitedStringTooLong \x7b cap: " ++ toString cap ++ ", actual: " ++
    toString actual ++ " \x7d")

/-- What was encrypted against what the fields were when they were read, in whatever state the
others left the heap: texts and copies count as they were, and the first look at the signature
decides whether there is one. `h` is the heap behind the plaintext. -/
structure Isolated (H : Host R) (h : Heap R) (input : Value) (n : Normalized)
    (request : EncryptRequest) : Prop where
  plaintext : ∀ bytes, handedPlaintext n = .fresh bytes → request.plaintext.val = bytes
  outerVdxfKey : ∃ v h', H.member input "outerVdxfKey" h = .ok (v, h') ∧
    ∀ s, v = .string s → s.toList.map Char.toLower = displayHex request.outerVdxfKey
  systemId : ∃ v h₁ h', H.member input "systemId" h₁ = .ok (v, h') ∧
    ∀ s, v = .string s → s.toList.map Char.toLower = displayHex request.systemId
  label : ∃ v h₁ h', H.member input "label" h₁ = .ok (v, h') ∧
    TextDenoted (.value v) request.label
  mimeType : ∃ v h₁ h', H.member input "mimeType" h₁ = .ok (v, h') ∧
    TextDenoted (.value v) request.mimeType
  dataDepositVoutIndex : ∃ bits h₁ h',
    H.member input "dataDepositVoutIndex" h₁ = .ok (.number bits, h') ∧
      IndexWord request.dataDepositVoutIndex bits
  signature : ∃ v h₁ h', H.member input "signature" h₁ = .ok (v, h') ∧
    (request.signature = none ↔ v.isNullish = true)

/-- A text that is accepted is handed over as the key that it shows. -/
theorem normalizeTwentyByte_text {s : String} {name : String} {arr : Handed} {h' : Heap R}
    (run : normalizeTwentyByte H.toEngine (.string s) name h = .ok (arr, h')) {key : ByteArr 20}
    (taken : ∀ bytes, arr = .fresh bytes → key.toList = bytes) :
    s.toList.map Char.toLower = displayHex key := by
  by_cases passes : isHex40 s = true
  · obtain ⟨shown, _, shows⟩ := exists_key_of_isHex40 passes
    rw [normalizeTwentyByte_shows shows] at run
    cases run
    rw [shows, Subtype.ext (taken _ rfl)]
  · rw [normalizeTwentyByte_rejects passes] at run
    cases run

/-- Only what is nullish at first is handed over as null. -/
theorem normalizeSignature_nullish_iff {h' : Heap R} {arr : Handed}
    (run : normalizeSignature H.toEngine input h = .ok (arr, h')) :
    ∃ v h₁, H.member input "signature" h = .ok (v, h₁) ∧
      (arr.isNullish = true ↔ v.isNullish = true) := by
  obtain ⟨v, h₁, read, rest⟩ := bind_ok_iff.mp run
  refine ⟨v, h₁, read, ?_⟩
  cases nullish : v.isNullish with
  | true =>
    rw [nullish, if_pos rfl] at rest
    obtain ⟨rfl, _⟩ := pure_ok_iff.mp rest
    exact iff_of_true rfl rfl
  | false =>
    rw [nullish, if_neg Bool.false_ne_true] at rest
    obtain ⟨again, h₂, _, checked⟩ := bind_ok_iff.mp rest
    refine iff_of_false ?_ Bool.false_ne_true
    rw [toUint8Array, get_bind] at checked
    split at checked
    · obtain ⟨bytes, _, _, made⟩ := bind_ok_iff.mp checked
      obtain ⟨rfl, _⟩ := pure_ok_iff.mp made
      exact Bool.false_ne_true
    · split at checked
      · rename_i array
        obtain ⟨rfl, _⟩ := pure_ok_iff.mp checked
        have some : (Handed.value again).isUint8Array h₂ = true := array
        rw [not_nullish_of_array some]
        exact Bool.false_ne_true
      · cases checked

theorem runCore_ok {built : Built} {h' : Heap R}
    (run : runCore H P rng request h = .ok (built, h')) :
    ∃ c : Returned P, c.request = request ∧ buildResultObject H c.result h = .ok (built, h') := by
  rw [runCore] at run
  cases returned : call P request rng with
  | ok out =>
    rw [returned] at run
    exact ⟨⟨request, rng, out.1, out.2, returned⟩, rfl, run⟩
  | error e =>
    rw [returned] at run
    cases e with
    | error e => cases run
    | panic message => cases run

theorem hi_short : (asBytes "hi").length < 2 ^ 63 := by decide

def exampleRequest : EncryptRequest where
  plaintext := ⟨asBytes "hi", hi_short⟩
  outerVdxfKey := List.Vector.replicate 20 0xAA
  systemId := List.Vector.replicate 20 0xBB
  label := some "l"
  mimeType := none
  dataDepositVoutIndex := 7
  signature := some ⟨[7], one_short⟩

theorem exampleHeap_length {q : Ref} (found : exampleHeap.lookup "length" q =
      some (2, .accessor (some 11))) :
    exampleHost.member (.object q) "length" exampleHeap =
      .ok (.number (Binary64.ofNat (exampleElements (.object q)).val.length), exampleHeap) :=
  getProperty_some found

/-- The arrays of the example behave like arrays. -/
theorem exampleHeap_array {q : Ref} (array : exampleHeap.inherits 2 q = true)
    (found : exampleHeap.lookup "length" q = some (2, .accessor (some 11)))
    (small : (exampleElements (.object q)).val.length < 2 ^ 31) :
    TypedArray exampleHost exampleHeap (.object q) where
  buffers := rfl
  held _ := ⟨exampleElements (.object q), exampleHost_holds array small, rfl,
    exampleHeap_length found⟩

theorem exampleHeap_other {v : Value}
    (other : exampleHeap.isInstance 2 v = false) :
    TypedArray exampleHost exampleHeap v where
  buffers := rfl
  held array := absurd array (ne_true_of_eq_false other)

theorem exampleField_typed : ∀ name ∈ laterFields,
    TypedArray exampleHost exampleHeap (exampleField name) := by
  simp only [laterFields, List.forall_mem_cons, List.not_mem_nil, false_implies, implies_true,
    and_true]
  exact ⟨exampleHeap_other rfl, exampleHeap_array exampleHeap_nine.1 exampleHeap_nine.2 (by decide),
    exampleHeap_array exampleHeap_ten.1 exampleHeap_ten.2 (by decide), exampleHeap_other rfl,
    exampleHeap_other rfl, exampleHeap_other rfl⟩

theorem example_plaintext :
    Holds exampleHost exampleHeap (.fresh (asBytes "hi")) exampleRequest.plaintext :=
  holds_fresh _ _ exampleRequest.plaintext (by decide)

theorem example_intact : Intact exampleHost exampleHeap where
  creates := by
    have own : ∀ name ∈ resultNames, exampleHeap.own 0 name = none := by decide
    intro name member
    have found : exampleHeap.lookup name 0 = none := Objects.lookup_root (own name member) rfl
    change exampleHeap.assignment 0 name = _
    rw [Heap.assignment, found]
  newArray _ := rfl
  bufferFrom _ := rfl
  mapBuffers _ := rfl

theorem example_leaves (I : Heap ownRealm → Prop) : Leaves exampleHost I where
  call _ _ _ := .pure _
  primitiveMember _ _ := .pure _
  toText _ := .pure _
  newUint8Array _ := .pure _
  serialize _ := .pure _
  length _ := .pure _
  copyTo n v := by
    change Keeps I (if size : (exampleElements v).val.length = n then _ else _)
    split
    · exact .pure _
    · exact .throw _
  toVec _ := .pure _

theorem example_behind : SteadyBehind exampleHost exampleHeap (.object 8)
    (.text (asBytes "hi")) exampleField where
  intact := example_intact
  available _ := ⟨_, example_plaintext⟩
  read name later := exampleHost_field (by revert name; decide)
  measured := by
    simp only [List.forall_mem_cons, List.not_mem_nil, false_implies, implies_true, and_true]
    constructor
    · rintro length h' ⟨⟩
      rfl
    · intro length h' measured
      have same := (exampleHeap_length exampleHeap_nine.2).symm.trans measured
      cases same
      rfl
  typed := exampleField_typed

theorem example_normalizes : Normalizes exampleHost.toEngine exampleHeap (.string "hi")
    (.text (asBytes "hi")) exampleHeap := .text "hi"

theorem example_steady : SteadyInput exampleHost exampleHeap exampleHeap (.object 8)
    (.string "hi") exampleField where
  plaintext := exampleHost_field (by decide)
  behind n h normalizes := by
    have only := (normalizePlaintext_iff.mpr example_normalizes).symm.trans
      (normalizePlaintext_iff.mpr normalizes)
    cases only
    exact example_behind

theorem example_offers : Offers exampleHost exampleHeap (.text (asBytes "hi")) exampleField
    exampleRequest where
  plaintext := example_plaintext
  outerVdxfKey := .text (by decide)
  systemId := by
    obtain ⟨bytes, holds, _⟩ := (exampleField_typed "systemId" (by decide)).held exampleHeap_nine.1
    have same : (.ok (exampleElements (.object 9), exampleHeap) : Except Thrown _) = _ :=
      holds.toVec
    cases same
    exact .array holds (by decide)
  label := .inr ⟨_, rfl, rfl⟩
  mimeType := .inl ⟨rfl, rfl⟩
  dataDepositVoutIndex := ⟨_, rfl, .inl rfl⟩
  signature := by
    obtain ⟨bytes, holds, _⟩ := (exampleField_typed "signature" (by decide)).held exampleHeap_ten.1
    have same : (.ok (exampleElements (.object 10), exampleHeap) : Except Thrown _) = _ :=
      holds.toVec
    cases same
    exact .inr ⟨_, holds, rfl⟩

theorem example_found : Found SmallCurve.primitives 1 := ⟨0, by decide, by decide⟩

end CmmEncrypt.EncryptDescriptor
