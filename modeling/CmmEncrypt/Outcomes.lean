import CmmEncrypt.Shapes
import CmmEncrypt.SmallCurve

/-!
# How a call can end

Under the laws of the primitives nothing inside a pass can fail, so a call fails
only through the diversifier search or one of the two string caps.
-/

namespace CmmEncrypt.Outcomes

open Wire Layout Descriptor Sapling CofactorGroup Api FallibleState Passes Executions Shapes

variable {r : ℕ} {Point Rng : Type} [AddCommGroup Point] [DecidableEq Point]
variable {P : Primitives r Point Rng}

/-- The AEAD takes both payloads, and whatever is no longer than the plaintext of an outer pass
can be. -/
structure SealsRequest (P : Primitives r Point Rng) (request : EncryptRequest) : Prop where
  plaintext : Sealable P request.plaintext.val
  signature : ∀ sig, request.signature = some sig → Sealable P sig.val
  short : ∀ contents : Bytes, contents.length ≤ 400 → Sealable P contents

omit [AddCommGroup Point] [DecidableEq Point] in
theorem seals_of_total (aead : AeadTotal P) (request : EncryptRequest) :
    SealsRequest P request where
  plaintext key nonce := aead.total key nonce _ request.plaintext.property
  signature sig _ key nonce := aead.total key nonce _ sig.property
  short contents short key nonce :=
    aead.total key nonce contents (Nat.lt_of_le_of_lt short (by decide))

omit [AddCommGroup Point] [DecidableEq Point] in
theorem seals_of_limit (aead : AeadLimit P) {request : EncryptRequest}
    (plaintext : request.plaintext.val.length ≤ 64 * (2 ^ 32 - 1))
    (signature : ∀ sig, request.signature = some sig → sig.val.length ≤ 64 * (2 ^ 32 - 1)) :
    SealsRequest P request where
  plaintext key nonce := aead.total key nonce _ plaintext
  signature sig signed key nonce := aead.total key nonce _ (signature sig signed)
  short contents short key nonce := aead.total key nonce contents (Nat.le_trans short (by decide))

/-- Every fallible step before the outer descriptor succeeds, so its failure is the call's. -/
theorem encryptToRecipient_fails (fr : FrCodec P) (points : PointCodec P)
    {request : EncryptRequest} (seals : SealsRequest P request) {ivk : ZMod r} {d : ByteArr 11} {gD : Point}
    (accepted : deriveGD P d = some gD) {e : Fault WireError}
    (failed : Fails (writeDataDescriptor (innerCdd request.dataDepositVoutIndex 0 request.label
      request.mimeType)) e) (s : Session r Rng) :
    encryptToRecipient P request ivk d gD s = .error (e.map EncryptError.wire) := by
  obtain ⟨data, made⟩ := exists_pass fr points accepted ivk s.rng seals.plaintext
  have first := encryptPass1Cdd_ok_iff.mpr ⟨data, made, rfl, rfl⟩
  have second : ∃ out s', whenSome request.signature (fun sig =>
      encryptPass1Cdd P sig.val d (P.pointToBytes (act ivk gD))) (after P s data) =
        .ok (out, s') := by
    cases signature : request.signature with
    | none => exact ⟨none, _, rfl⟩
    | some sig =>
      obtain ⟨pass, passMade⟩ := exists_pass fr points accepted ivk (after P s data).rng
        (seals.signature sig signature)
      have run := encryptPass1Cdd_ok_iff.mpr ⟨pass, passMade, rfl, rfl⟩
      exact ⟨_, _, bind_of_ok run⟩
  obtain ⟨out, s', second⟩ := second
  obtain ⟨_, outerMade⟩ := exists_pass fr points accepted ivk s'.rng
    (seals.short [] (Nat.zero_le 400))
  rw [encryptToRecipient, bind_of_ok first, bind_of_ok second,
    bind_of_ok (depositScripts_ok_iff.mpr ⟨rfl, rfl⟩)]
  exact bind_of_error (buildOuterWrappedDescriptor_fails failed outerMade)

/-- The `i`-th diversifier drawn behind the viewing key. -/
def drawnDiversifier (P : Primitives r Point Rng) (rng : Rng) (i : Nat) : ByteArr 11 :=
  (P.fillBytes 11 (diversifierTape P (nextTape P rng) i)).1

theorem search_isSome_iff (P : Primitives r Point Rng) (rng : Rng) :
    (searchDiversifier P DIVERSIFIER_RETRY_BUDGET (nextTape P rng)).isSome ↔
      ∃ i < 64, deriveGD P (drawnDiversifier P rng i) ≠ none := by
  have exhausted := searchDiversifier_none_iff P DIVERSIFIER_RETRY_BUDGET (nextTape P rng)
  rw [Option.isSome_iff_ne_none, ne_eq, exhausted]
  push Not
  rfl

/-- An accepted diversifier and strings within their caps are all that a call needs. -/
theorem exists_execution (fr : FrCodec P) (points : PointCodec P)
    {request : EncryptRequest} (seals : SealsRequest P request) {rng tape : Rng} {d : ByteArr 11} {gD : Point}
    (found : searchDiversifier P DIVERSIFIER_RETRY_BUDGET (nextTape P rng) =
      some ((d, gD), tape))
    (label : utf8Length request.label ≤ 64) (mimeType : utf8Length request.mimeType ≤ 128) :
    ∃ e, Ran P request rng e := by
  have accepted := searchDiversifier_accepted found
  have pass (at_ : Rng) {contents : Bytes} (taken : Sealable P contents) :=
    exists_pass fr points accepted (P.frRandom rng).1 at_ taken
  have outerShort : Sealable P (outerPlaintext request.dataDepositVoutIndex 0 request.label
      request.mimeType) :=
    seals.short _ (outerPlaintext_length _ (by decide) label mimeType)
  have signatureShort : Sealable P (outerPlaintext request.dataDepositVoutIndex 1
      (some SIGNATURE_OUTER_LABEL) (some SIGNATURE_OUTER_MIME_TYPE)) :=
    seals.short _ (outerPlaintext_length _ (by decide) (by decide) (by decide))
  obtain ⟨data, made⟩ := pass tape seals.plaintext
  obtain ⟨outer, outerMade⟩ :=
    pass ((nextTape P)^[if request.signature.isSome then 2 else 1] tape) outerShort
  cases signature : request.signature with
  | none =>
    refine ⟨⟨_, d, gD, tape, data, outer, none⟩, rfl, found, label, mimeType, made, outerMade, ?_⟩
    rw [signature]
    trivial
  | some sig =>
    obtain ⟨sigPass, sigMade⟩ := pass (nextTape P tape) (seals.signature sig signature)
    obtain ⟨sigOuter, sigOuterMade⟩ := pass ((nextTape P)^[3] tape) signatureShort
    refine ⟨⟨_, d, gD, tape, data, outer, some (sigPass, sigOuter)⟩, rfl, found, label, mimeType,
      made, outerMade, ?_⟩
    rw [signature]
    exact ⟨sigMade, sigOuterMade⟩

theorem call_returns (fr : FrCodec P) (points : PointCodec P) {request : EncryptRequest}
    (seals : SealsRequest P request) (rng : Rng)
    (found : (searchDiversifier P DIVERSIFIER_RETRY_BUDGET (nextTape P rng)).isSome)
    (label : utf8Length request.label ≤ 64) (mimeType : utf8Length request.mimeType ≤ 128) :
    ∃ result final, call P request rng = .ok (result, final) := by
  obtain ⟨⟨⟨d, gD⟩, tape⟩, found⟩ := Option.isSome_iff_exists.mp found
  obtain ⟨e, ran⟩ := exists_execution fr points seals found label mimeType
  exact ⟨_, _, (call_ok_iff ..).mpr ⟨e, ran, rfl, rfl⟩⟩

theorem splitRequest_returns : ∃ result final,
    call SmallCurve.primitives SmallCurve.splitRequest 1 = .ok (result, final) :=
  call_returns SmallCurve.fr SmallCurve.points (seals_of_total SmallCurve.total _) 1 (by decide)
    (by decide) (by decide)

/-- The four ways in which a call ends. -/
theorem call_cases (fr : FrCodec P) (points : PointCodec P) {request : EncryptRequest}
    (seals : SealsRequest P request) (rng : Rng) :
    (searchDiversifier P DIVERSIFIER_RETRY_BUDGET (nextTape P rng) = none ∧
      call P request rng = .error (.error .diversifierSearchExhausted)) ∨
    ((searchDiversifier P DIVERSIFIER_RETRY_BUDGET (nextTape P rng)).isSome ∧
      (64 < utf8Length request.label ∧ call P request rng = .error (.error (.wire
          (.limitedStringTooLong 64 (utf8Length request.label)))) ∨
       utf8Length request.label ≤ 64 ∧ 128 < utf8Length request.mimeType ∧
        call P request rng = .error (.error (.wire
          (.limitedStringTooLong 128 (utf8Length request.mimeType)))) ∨
       utf8Length request.label ≤ 64 ∧ utf8Length request.mimeType ≤ 128 ∧
        ∃ out, call P request rng = .ok out)) := by
  cases search : searchDiversifier P DIVERSIFIER_RETRY_BUDGET (nextTape P rng) with
  | none => exact .inl ⟨rfl, call_of_search_none request search⟩
  | some found =>
    obtain ⟨⟨d, gD⟩, tape⟩ := found
    refine .inr ⟨rfl, ?_⟩
    have accepted := searchDiversifier_accepted search
    by_cases label : utf8Length request.label ≤ 64
    · by_cases mimeType : utf8Length request.mimeType ≤ 128
      · obtain ⟨result, final, run⟩ :=
          call_returns fr points seals rng (by rw [search]; rfl) label mimeType
        exact .inr (.inr ⟨label, mimeType, _, run⟩)
      · have long : 128 < utf8Length request.mimeType := by omega
        refine .inr (.inl ⟨label, long, ?_⟩)
        rw [call_of_search_some request search]
        exact encryptToRecipient_fails fr points seals accepted
          (writeDataDescriptor_mimeTooLong (innerCdd request.dataDepositVoutIndex 0 request.label
            request.mimeType) label long).fails _
    · have long : 64 < utf8Length request.label := by omega
      refine .inl ⟨long, ?_⟩
      rw [call_of_search_some request search]
      exact encryptToRecipient_fails fr points seals accepted
        (writeDataDescriptor_labelTooLong (innerCdd request.dataDepositVoutIndex 0 request.label
          request.mimeType) long).fails _

/-- The exact conditions of the three errors; every other outcome is a result. -/
theorem call_outcomes (fr : FrCodec P) (points : PointCodec P) (aead : AeadTotal P)
    (request : EncryptRequest) (rng : Rng) :
    (call P request rng = .error (.error .diversifierSearchExhausted) ↔
      ∀ i < 64, deriveGD P (drawnDiversifier P rng i) = none) ∧
    ((∃ i < 64, deriveGD P (drawnDiversifier P rng i) ≠ none) →
      (∀ n, call P request rng = .error (.error (.wire (.limitedStringTooLong 64 n))) ↔
        utf8Length request.label = n ∧ 64 < n) ∧
      (utf8Length request.label ≤ 64 →
        (∀ n, call P request rng = .error (.error (.wire (.limitedStringTooLong 128 n))) ↔
          utf8Length request.mimeType = n ∧ 128 < n) ∧
        (utf8Length request.mimeType ≤ 128 → ∃ out, call P request rng = .ok out))) ∧
    (∀ e, call P request rng ≠ .error (.error (.crypto e))) ∧
    (∀ e, call P request rng ≠ .error (.error (.ephemeral e))) ∧
    ∀ message, call P request rng ≠ .error (.panic message) := by
  have exhausted := searchDiversifier_none_iff P DIVERSIFIER_RETRY_BUDGET (nextTape P rng)
  rw [← search_isSome_iff, Option.isSome_iff_ne_none]
  change (_ ↔ ∀ i < DIVERSIFIER_RETRY_BUDGET, _) ∧ _
  unfold drawnDiversifier
  rw [← exhausted]
  rcases call_cases fr points (seals_of_total aead request) rng with
    ⟨none, run⟩ | ⟨found, ⟨long, run⟩ | ⟨label, long, run⟩ | ⟨label, mime, out, run⟩⟩
  · simp [run, none]
  · have some := Option.isSome_iff_ne_none.mp found
    simp only [run, some, ne_eq, not_false_eq_true, forall_const, Except.error.injEq,
      Fault.error.injEq, reduceCtorEq, EncryptError.wire.injEq,
      WireError.limitedStringTooLong.injEq, true_and, implies_true, and_true]
    constructor
    · intro n
      constructor
      · intro same
        exact ⟨same, by omega⟩
      · exact And.left
    · intro short
      omega
  · have some := Option.isSome_iff_ne_none.mp found
    simp only [run, some, ne_eq, not_false_eq_true, forall_const, Except.error.injEq,
      Fault.error.injEq, reduceCtorEq, EncryptError.wire.injEq,
      WireError.limitedStringTooLong.injEq, true_and, implies_true, and_true, label]
    refine ⟨fun n => by omega, ?_, ?_⟩
    · intro n
      constructor
      · intro same
        exact ⟨same, by omega⟩
      · exact And.left
    · intro short
      omega
  · have some := Option.isSome_iff_ne_none.mp found
    simp only [run, some, ne_eq, not_false_eq_true, forall_const, reduceCtorEq, implies_true,
      and_true, label, mime, Except.ok.injEq, exists_eq', false_iff, not_and]
    refine ⟨trivial, ?_, ?_⟩
    · intro n same
      omega
    · intro n same
      omega

/-- A signed call on the small curve goes through. -/
theorem call_outcomes_small :
    ∃ out, call SmallCurve.primitives SmallCurve.request 1 = .ok out := by
  have h := call_outcomes SmallCurve.fr SmallCurve.points SmallCurve.total SmallCurve.request 1
  have strings := h.2.1 ⟨0, by decide, by decide⟩
  exact (strings.2 (by decide)).2 (by decide)

end CmmEncrypt.Outcomes
