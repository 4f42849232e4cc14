import CmmEncrypt.Deposit
import CmmEncrypt.Passes
import Mathlib.Tactic.Simproc.ExistsAndEq

/-!
# Successful calls

A call succeeds exactly when there is an execution: a viewing key, an accepted
diversifier, and one pass for the payload, one for its descriptor and two more for
a signature, made at fixed places of the tape. The result is a function of the
execution and of the request's two keys.
-/

namespace CmmEncrypt.Executions

open Wire Layout Vdxf DataRef Descriptor Evidence Script Sapling CofactorGroup Api
open FallibleState Deposit Passes

/-- The values of one successful call. `tape` is the generator behind the diversifier
search; `attached` are the two passes of the signature. -/
structure Execution (r : ℕ) (Point Rng : Type) where
  ivk : ZMod r
  diversifier : ByteArr 11
  gD : Point
  tape : Rng
  data : Pass r
  outer : Pass r
  attached : Option (Pass r × Pass r)

variable {r : ℕ} {Point Rng : Type}

/-- The tape after one scalar has been drawn. -/
def nextTape (P : Primitives r Point Rng) (rng : Rng) : Rng := (P.frRandom rng).2

/-- All passes in the order in which they are made. -/
def passes (e : Execution r Point Rng) : List (Pass r) :=
  match e.attached with
  | none => [e.data, e.outer]
  | some (signature, signatureOuter) => [e.data, signature, e.outer, signatureOuter]

/-! ## What an execution writes -/

/-- The pointer to a chain object of the request's own output. -/
def pointerTo (request : EncryptRequest) (subObject : UInt32) : SelfRefPointer where
  voutIndex := request.dataDepositVoutIndex
  objectNum := 0
  subObject := subObject

def dataVec (key : ByteArr 20) (pass : Pass r) : Bytes :=
  render (frame key 1 (render (descriptor (pass1Cdd pass))))

def entries (e : Execution r Point Rng) : List EvidenceEntry :=
  { vdxfKey := DATA_DESCRIPTOR_KEY_LE, data := dataVec DATA_DESCRIPTOR_KEY_LE e.data } ::
    (e.attached.map fun both =>
      { vdxfKey := SIGNATURE_DATA_KEY_LE,
        data := dataVec SIGNATURE_DATA_KEY_LE both.1 : EvidenceEntry }).toList

/-- The pass-1 passes, each with the key of its frame. -/
def payloadPasses (e : Execution r Point Rng) : List (ByteArr 20 × Pass r) :=
  (DATA_DESCRIPTOR_KEY_LE, e.data) ::
    ((e.attached.map Prod.fst).map fun pass => (SIGNATURE_DATA_KEY_LE, pass)).toList

theorem entries_eq (e : Execution r Point Rng) :
    entries e = (payloadPasses e).map fun keyed =>
      { vdxfKey := keyed.1, data := dataVec keyed.1 keyed.2 } := by
  rw [entries, payloadPasses]
  cases e.attached <;> rfl

def evidence (systemId : ByteArr 20) (e : Execution r Point Rng) : Bytes :=
  render (envelopeEvidence systemId (entries e))

/-- The outer passes, whose descriptors make up the value of the entry. -/
def outerPasses (e : Execution r Point Rng) : List (Pass r) :=
  e.outer :: (e.attached.map Prod.snd).toList

def outerDescriptor (P : Primitives r Point Rng) (e : Execution r Point Rng) (pass : Pass r) :
    DataDescriptor :=
  outerCdd (wrapped pass) (P.frToBytes e.ivk)

def cmmValue (P : Primitives r Point Rng) (e : Execution r Point Rng) : Bytes :=
  (outerPasses e).flatMap (fun pass => render (descriptor (outerDescriptor P e pass)))

/-- The session an execution ends in. -/
def session (P : Primitives r Point Rng) (e : Execution r Point Rng) : Session r Rng where
  rng := (nextTape P)^[(passes e).length] e.tape
  draws := (passes e).map Pass.scalar
  seals := (passes e).map (fun pass => (pass.key, pass.plaintext))

variable [AddCommGroup Point]

def pkD (P : Primitives r Point Rng) (e : Execution r Point Rng) : ByteArr 32 :=
  P.pointToBytes (act e.ivk e.gD)

def resultOf (P : Primitives r Point Rng) (request : EncryptRequest) (e : Execution r Point Rng) :
    EncryptResult where
  cmmEntry := (request.outerVdxfKey, cmmValue P e)
  dataDepositOutputScripts := depositScripts request.systemId (evidence request.systemId e)
  publishedIvk := P.frToBytes e.ivk
  outerEpk := e.outer.epk
  ephemeralDiversifier := e.diversifier
  ephemeralPkD := pkD P e

theorem resultOf_scripts (P : Primitives r Point Rng) (request : EncryptRequest)
    (e : Execution r Point Rng) : (resultOf P request e).dataDepositOutputScripts =
      depositScripts request.systemId (evidence request.systemId e) := by
  rw [resultOf]

/-- The result of an unsigned execution, written out. -/
theorem resultOf_unsigned (P : Primitives r Point Rng) (request : EncryptRequest) (ivk : ZMod r)
    (d : ByteArr 11) (gD : Point) (tape : Rng) (data outer : Pass r) :
    resultOf P request ⟨ivk, d, gD, tape, data, outer, none⟩ =
      { cmmEntry := (request.outerVdxfKey,
          render (descriptor (outerCdd (wrapped outer) (P.frToBytes ivk)))),
        dataDepositOutputScripts := depositScripts request.systemId
          (evidence request.systemId ⟨ivk, d, gD, tape, data, outer, none⟩),
        publishedIvk := P.frToBytes ivk, outerEpk := outer.epk, ephemeralDiversifier := d,
        ephemeralPkD := P.pointToBytes (act ivk gD) } := by
  simp only [resultOf, cmmValue, outerPasses, outerDescriptor, pkD, Option.map_none,
    Option.toList_none, List.flatMap_cons, List.flatMap_nil, List.append_nil]

theorem resultOf_signed (P : Primitives r Point Rng) (request : EncryptRequest) (ivk : ZMod r)
    (d : ByteArr 11) (gD : Point) (tape : Rng) (data sig outer sigOuter : Pass r) :
    resultOf P request ⟨ivk, d, gD, tape, data, outer, some (sig, sigOuter)⟩ =
      { cmmEntry := (request.outerVdxfKey,
          render (descriptor (outerCdd (wrapped outer) (P.frToBytes ivk))) ++
            render (descriptor (outerCdd (wrapped sigOuter) (P.frToBytes ivk)))),
        dataDepositOutputScripts := depositScripts request.systemId
          (evidence request.systemId ⟨ivk, d, gD, tape, data, outer, some (sig, sigOuter)⟩),
        publishedIvk := P.frToBytes ivk, outerEpk := outer.epk, ephemeralDiversifier := d,
        ephemeralPkD := P.pointToBytes (act ivk gD) } := by
  simp only [resultOf, cmmValue, outerPasses, outerDescriptor, pkD, Option.map_some,
    Option.toList_some, List.flatMap_cons, List.flatMap_nil, List.append_nil]

variable [DecidableEq Point]

/-! ## The diversifier search -/

/-- The first accepted diversifier within the budget, and the tape behind it. -/
def searchDiversifier (P : Primitives r Point Rng) :
    Nat → Rng → Option ((ByteArr 11 × Point) × Rng)
  | 0, _ => none
  | budget + 1, rng =>
    match deriveGD P (P.fillBytes 11 rng).1 with
    | some gD => some (((P.fillBytes 11 rng).1, gD), (P.fillBytes 11 rng).2)
    | none => searchDiversifier P budget (P.fillBytes 11 rng).2

theorem findValidDiversifierLoop_eq (P : Primitives r Point Rng) (budget : Nat)
    (s : Session r Rng) :
    findValidDiversifierLoop P budget s =
      match searchDiversifier P budget s.rng with
      | some (out, rng) => .ok (out, { s with rng })
      | none => .error (.error .diversifierSearchExhausted) := by
  induction budget generalizing s with
  | zero => rfl
  | succ budget ih =>
    have drawn : fillBytes P 11 s = (.ok ((P.fillBytes 11 s.rng).1,
      { s with rng := (P.fillBytes 11 s.rng).2 }) : Except (Fault EncryptError) _) := rfl
    rw [findValidDiversifierLoop, bind_of_ok drawn, searchDiversifier]
    cases deriveGD P (P.fillBytes 11 s.rng).1 with
    | some gD => rfl
    | none => exact ih { s with rng := (P.fillBytes 11 s.rng).2 }

/-- The tape after `i` diversifiers have been drawn. -/
def diversifierTape (P : Primitives r Point Rng) (rng : Rng) (i : Nat) : Rng :=
  (fun rng => (P.fillBytes 11 rng).2)^[i] rng

/-- The search fails exactly when it rejects every diversifier of the budget. -/
theorem searchDiversifier_none_iff (P : Primitives r Point Rng) (budget : Nat) (rng : Rng) :
    searchDiversifier P budget rng = none ↔
      ∀ i < budget, deriveGD P (P.fillBytes 11 (diversifierTape P rng i)).1 = none := by
  induction budget generalizing rng with
  | zero => simp [searchDiversifier]
  | succ budget ih =>
    have first : diversifierTape P rng 0 = rng := rfl
    have later : ∀ i, diversifierTape P rng (i + 1) =
      diversifierTape P (P.fillBytes 11 rng).2 i := fun i => rfl
    rw [searchDiversifier, Nat.forall_lt_succ_left, first]
    cases deriveGD P (P.fillBytes 11 rng).1 with
    | some gD => simp
    | none => simp only [later, true_and, ih]

/-- What the search finds was accepted. -/
theorem searchDiversifier_accepted {P : Primitives r Point Rng} {budget : Nat} {rng rng' : Rng}
    {d : ByteArr 11} {gD : Point} (h : searchDiversifier P budget rng = some ((d, gD), rng')) :
    deriveGD P d = some gD := by
  induction budget generalizing rng with
  | zero => cases h
  | succ budget ih =>
    rw [searchDiversifier] at h
    split at h
    · rename_i gD' accepted
      cases h
      exact accepted
    · exact ih h

/-! ## Executions are the successful calls -/

/-- The passes of a signature are made third and last. -/
def SignatureMakes (P : Primitives r Point Rng) (request : EncryptRequest)
    (e : Execution r Point Rng) : Option Slice → Option (Pass r × Pass r) → Prop
  | none, none => True
  | some signature, some (pass, outer) =>
    Makes P e.diversifier (pkD P e) (nextTape P e.tape) signature.val pass ∧
    Makes P e.diversifier (pkD P e) ((nextTape P)^[3] e.tape)
      (outerPlaintext request.dataDepositVoutIndex 1 (some SIGNATURE_OUTER_LABEL)
        (some SIGNATURE_OUTER_MIME_TYPE)) outer
  | _, _ => False

/-- `e` is the execution of `request` on the generator `rng`. -/
structure Ran (P : Primitives r Point Rng) (request : EncryptRequest) (rng : Rng)
    (e : Execution r Point Rng) : Prop where
  ivk : e.ivk = (P.frRandom rng).1
  found : searchDiversifier P DIVERSIFIER_RETRY_BUDGET (nextTape P rng) =
    some ((e.diversifier, e.gD), e.tape)
  label : utf8Length request.label ≤ 64
  mimeType : utf8Length request.mimeType ≤ 128
  data : Makes P e.diversifier (pkD P e) e.tape request.plaintext.val e.data
  outer : Makes P e.diversifier (pkD P e)
    ((nextTape P)^[if request.signature.isSome then 2 else 1] e.tape)
    (outerPlaintext request.dataDepositVoutIndex 0 request.label request.mimeType) e.outer
  attached : SignatureMakes P request e request.signature e.attached

/-- Either there is no signature and no pass for it, or there are both its passes. -/
theorem Ran.attached_cases {P : Primitives r Point Rng} {request : EncryptRequest} {rng : Rng}
    {e : Execution r Point Rng} (ran : Ran P request rng e) :
    (request.signature = none ∧ e.attached = none) ∨
    ∃ signature pass outer, request.signature = some signature ∧
      e.attached = some (pass, outer) ∧
      Makes P e.diversifier (pkD P e) (nextTape P e.tape) signature.val pass ∧
      Makes P e.diversifier (pkD P e) ((nextTape P)^[3] e.tape)
        (outerPlaintext request.dataDepositVoutIndex 1 (some SIGNATURE_OUTER_LABEL)
          (some SIGNATURE_OUTER_MIME_TYPE)) outer := by
  have made := ran.attached
  cases signature : request.signature <;> cases attached : e.attached <;>
    rw [signature, attached] at made
  · exact .inl ⟨rfl, rfl⟩
  · exact absurd made id
  · exact absurd made id
  · exact .inr ⟨_, _, _, rfl, rfl, made.1, made.2⟩

/-- Every pass of an execution encrypts to its one address. -/
theorem Ran.passes_make {P : Primitives r Point Rng} {request : EncryptRequest} {rng : Rng}
    {e : Execution r Point Rng} (ran : Ran P request rng e) :
    ∀ pass ∈ passes e, ∃ at_ contents, Makes P e.diversifier (pkD P e) at_ contents pass := by
  intro pass member
  rw [passes] at member
  rcases ran.attached_cases with ⟨_, alone⟩ | ⟨_, _, _, _, both, made, outerMade⟩
  · rw [alone, List.mem_cons, List.mem_singleton] at member
    rcases member with rfl | rfl
    · exact ⟨_, _, ran.data⟩
    · exact ⟨_, _, ran.outer⟩
  · simp only [both, List.mem_cons, List.not_mem_nil, or_false] at member
    rcases member with rfl | rfl | rfl | rfl
    · exact ⟨_, _, ran.data⟩
    · exact ⟨_, _, made⟩
    · exact ⟨_, _, ran.outer⟩
    · exact ⟨_, _, outerMade⟩

theorem Ran.attached_isSome {P : Primitives r Point Rng} {request : EncryptRequest} {rng : Rng}
    {e : Execution r Point Rng} (ran : Ran P request rng e) :
    e.attached.isSome = request.signature.isSome := by
  rcases ran.attached_cases with ⟨unsigned, alone⟩ | ⟨_, _, _, signed, both, _⟩
  · rw [unsigned, alone]
    rfl
  · rw [signed, both]
    rfl

theorem depositScripts_ok_iff {ε : Type} {systemId : ByteArr 20} {evidence : Bytes}
    {scripts : List Bytes} {s s' : Session r Rng} :
    liftPanic (dataDepositScripts systemId evidence : Except (Fault ε) (List Bytes)) s =
        .ok (scripts, s') ↔
      scripts = depositScripts systemId evidence ∧ s' = s := by
  rw [dataDepositScripts_eq, liftPanic, Except.ok.injEq, Prod.mk.injEq, eq_comm,
    eq_comm (b := s')]

theorem call_of_search_none {P : Primitives r Point Rng} (request : EncryptRequest) {rng : Rng}
    (none : searchDiversifier P DIVERSIFIER_RETRY_BUDGET (nextTape P rng) = none) :
    call P request rng = .error (.error .diversifierSearchExhausted) := by
  have drawn : randomFr P { rng, draws := [], seals := [] } =
    (.ok ((P.frRandom rng).1, { rng := nextTape P rng, draws := [], seals := [] }) :
      Except (Fault EncryptError) _) := rfl
  rw [call, encryptPublicDecrypt, bind_of_ok drawn]
  apply bind_of_error
  rw [findValidDiversifier, findValidDiversifierLoop_eq, none]

theorem call_of_search_some {P : Primitives r Point Rng} (request : EncryptRequest)
    {rng tape : Rng} {d : ByteArr 11} {gD : Point}
    (found : searchDiversifier P DIVERSIFIER_RETRY_BUDGET (nextTape P rng) =
      some ((d, gD), tape)) :
    call P request rng =
      encryptToRecipient P request (P.frRandom rng).1 d gD { rng := tape, draws := [], seals := [] }
    := by
  have drawn : randomFr P { rng, draws := [], seals := [] } =
    (.ok ((P.frRandom rng).1, { rng := nextTape P rng, draws := [], seals := [] }) :
      Except (Fault EncryptError) _) := rfl
  have search : findValidDiversifier P { rng := nextTape P rng, draws := [], seals := [] } =
      .ok ((d, gD), { rng := tape, draws := [], seals := [] }) := by
    rw [findValidDiversifier, findValidDiversifierLoop_eq, found]
  rw [call, encryptPublicDecrypt, bind_of_ok drawn, bind_of_ok search]

theorem writeCvdxfData_nil (key : ByteArr 20) :
    writeCvdxfData [] key 1 = fun data => render (frame key 1 data) := by
  funext data
  rw [writeCvdxfData_render, List.nil_append]

/-- Without a signature two passes are made. -/
theorem encryptToRecipient_unsigned {P : Primitives r Point Rng} {request : EncryptRequest}
    (unsigned : request.signature = none) (ivk : ZMod r) (d : ByteArr 11) (gD : Point) (tape : Rng)
    (result : EncryptResult) (final : Session r Rng) :
    encryptToRecipient P request ivk d gD { rng := tape, draws := [], seals := [] } =
        .ok (result, final) ↔
      utf8Length request.label ≤ 64 ∧ utf8Length request.mimeType ≤ 128 ∧ ∃ data outer : Pass r,
        Makes P d (P.pointToBytes (act ivk gD)) tape request.plaintext.val data ∧
        Makes P d (P.pointToBytes (act ivk gD)) (nextTape P tape)
          (outerPlaintext request.dataDepositVoutIndex 0 request.label request.mimeType) outer ∧
        result = resultOf P request ⟨ivk, d, gD, tape, data, outer, none⟩ ∧
        final = session P ⟨ivk, d, gD, tape, data, outer, none⟩ := by
  simp only [encryptToRecipient, unsigned, whenSome, bind_ok_iff, encryptPass1Cdd_ok_iff,
    pure_ok_iff, depositScripts_ok_iff, buildOuterWrappedDescriptor_ok_iff, outerCdd_ok_iff,
    writeCvdxfData_nil, writeNotaryEvidenceForEnvelope_render, List.nil_append, resultOf_unsigned,
    -- the session and the output of every step are determined
    existsAndEq, true_and, and_true]
  constructor
  · rintro ⟨data, made, outer, ⟨label, mime, outerMade⟩, rfl, rfl⟩
    exact ⟨label, mime, data, outer, made, outerMade, rfl, rfl⟩
  · rintro ⟨label, mime, data, outer, made, outerMade, rfl, rfl⟩
    exact ⟨data, made, outer, ⟨label, mime, outerMade⟩, rfl, rfl⟩

/-- With a signature four passes are made. -/
theorem encryptToRecipient_signed {P : Primitives r Point Rng} {request : EncryptRequest}
    {signature : Slice} (signed : request.signature = some signature) (ivk : ZMod r)
    (d : ByteArr 11) (gD : Point) (tape : Rng) (result : EncryptResult) (final : Session r Rng) :
    encryptToRecipient P request ivk d gD { rng := tape, draws := [], seals := [] } =
        .ok (result, final) ↔
      utf8Length request.label ≤ 64 ∧ utf8Length request.mimeType ≤ 128 ∧
      ∃ data sig outer sigOuter : Pass r,
        Makes P d (P.pointToBytes (act ivk gD)) tape request.plaintext.val data ∧
        Makes P d (P.pointToBytes (act ivk gD)) (nextTape P tape) signature.val sig ∧
        Makes P d (P.pointToBytes (act ivk gD)) ((nextTape P)^[2] tape)
          (outerPlaintext request.dataDepositVoutIndex 0 request.label request.mimeType) outer ∧
        Makes P d (P.pointToBytes (act ivk gD)) ((nextTape P)^[3] tape)
          (outerPlaintext request.dataDepositVoutIndex 1 (some SIGNATURE_OUTER_LABEL)
            (some SIGNATURE_OUTER_MIME_TYPE)) sigOuter ∧
        result = resultOf P request ⟨ivk, d, gD, tape, data, outer, some (sig, sigOuter)⟩ ∧
        final = session P ⟨ivk, d, gD, tape, data, outer, some (sig, sigOuter)⟩ := by
  simp only [encryptToRecipient, signed, whenSome, bind_ok_iff, encryptPass1Cdd_ok_iff,
    pure_ok_iff, depositScripts_ok_iff, buildOuterWrappedDescriptor_ok_iff, outerCdd_ok_iff,
    writeCvdxfData_nil, writeNotaryEvidenceForEnvelope_render, List.nil_append, resultOf_signed,
    existsAndEq, true_and, and_true]
  constructor
  · rintro ⟨data, made, sig, sigMade, outer, ⟨label, mime, outerMade⟩, sigOuter,
      ⟨_, _, sigOuterMade⟩, rfl, rfl⟩
    exact ⟨label, mime, data, sig, outer, sigOuter, made, sigMade, outerMade, sigOuterMade, rfl,
      rfl⟩
  · rintro ⟨label, mime, data, sig, outer, sigOuter, made, sigMade, outerMade, sigOuterMade,
      rfl, rfl⟩
    exact ⟨data, made, sig, sigMade, outer, ⟨label, mime, outerMade⟩, sigOuter,
      ⟨by decide, by decide, sigOuterMade⟩, rfl, rfl⟩

/-- A call returns exactly the results of the executions of its request. -/
theorem call_ok_iff (P : Primitives r Point Rng) (request : EncryptRequest) (rng : Rng)
    (result : EncryptResult) (final : Session r Rng) :
    call P request rng = .ok (result, final) ↔
      ∃ e, Ran P request rng e ∧ result = resultOf P request e ∧ final = session P e := by
  cases search : searchDiversifier P DIVERSIFIER_RETRY_BUDGET (nextTape P rng) with
  | none =>
    rw [call_of_search_none request search]
    constructor
    · intro bad
      cases bad
    · rintro ⟨e, ran, _⟩
      have found := ran.found
      rw [search] at found
      cases found
  | some found =>
    obtain ⟨⟨d, gD⟩, tape⟩ := found
    rw [call_of_search_some request search]
    constructor
    · intro ok
      cases signature : request.signature with
      | none =>
        obtain ⟨label, mime, data, outer, made, outerMade, rfl, rfl⟩ :=
          (encryptToRecipient_unsigned signature ..).mp ok
        refine ⟨_, ⟨rfl, search, label, mime, made, ?_, ?_⟩, rfl, rfl⟩
        · rw [signature]
          exact outerMade
        · rw [signature]
          trivial
      | some sig =>
        obtain ⟨label, mime, data, pass, outer, sigOuter, made, sigMade, outerMade, sigOuterMade,
          rfl, rfl⟩ := (encryptToRecipient_signed signature ..).mp ok
        refine ⟨_, ⟨rfl, search, label, mime, made, ?_, ?_⟩, rfl, rfl⟩
        · rw [signature]
          exact outerMade
        · rw [signature]
          exact ⟨sigMade, sigOuterMade⟩
    · rintro ⟨⟨ivk, d', gD', tape', data, outer, attached⟩, ran, rfl, rfl⟩
      obtain ⟨hivk, found, label, mime, made, outerMade, signed⟩ := ran
      simp only at hivk found
      rw [search] at found
      cases found
      subst hivk
      cases signature : request.signature with
      | none =>
        rw [signature] at outerMade signed
        cases attached with
        | some both => exact absurd signed id
        | none =>
          exact (encryptToRecipient_unsigned signature ..).mpr
            ⟨label, mime, data, outer, made, outerMade, rfl, rfl⟩
      | some sig =>
        rw [signature] at outerMade signed
        cases attached with
        | none => exact absurd signed id
        | some both =>
          exact (encryptToRecipient_signed signature ..).mpr
            ⟨label, mime, data, both.1, outer, both.2, made, signed.1, outerMade, signed.2, rfl,
              rfl⟩

/-- A call that returned, wherever its generator stood. -/
structure Returned (P : Primitives r Point Rng) where
  request : EncryptRequest
  rng : Rng
  result : EncryptResult
  final : Session r Rng
  run : call P request rng = .ok (result, final)

/-- What a returned call executed. -/
theorem Returned.exists_execution {P : Primitives r Point Rng} (c : Returned P) :
    ∃ e, Ran P c.request c.rng e ∧ c.result = resultOf P c.request e ∧ c.final = session P e :=
  (call_ok_iff ..).mp c.run

/-- A call of which anything is known has returned. -/
theorem exists_returned {P : Primitives r Point Rng} {request : EncryptRequest} {rng : Rng}
    {α : Type} {f : EncryptResult × Session r Rng → α} {a : α}
    (known : (call P request rng).toOption.map f = some a) :
    ∃ c : Returned P, c.request = request ∧ c.rng = rng ∧ f (c.result, c.final) = a := by
  cases run : call P request rng with
  | error e =>
    rw [run] at known
    cases known
  | ok out =>
    rw [run] at known
    exact ⟨⟨request, rng, out.1, out.2, run⟩, rfl, rfl, Option.some.inj known⟩

end CmmEncrypt.Executions
