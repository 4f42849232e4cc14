import CmmEncrypt.Recovery
import CmmEncrypt.SmallCurve

/-!
# Where the framing is missing

`vdxf.rs` says that the data-descriptor key wraps both the entry and the inner
stage. The outer pass does frame what it encrypts; the value of the entry and the
pass-1 plaintext are not framed, in any call.
-/

namespace CmmEncrypt.Framing

open Cursor Wire Layout Vdxf DataRef Descriptor Sapling CofactorGroup Api Passes Executions
open Shapes Recovery

/-! ## The value of the entry -/

/-- The value is a sequence of frames under the data-descriptor key, each around one flags:13
descriptor. -/
def FramedEntry (count : Nat) (cmmValue : Bytes) : Prop :=
  ∃ frames, Reader.sequence .leftover readFrame cmmValue = .ok frames ∧ frames.length = count ∧
    ∀ frame ∈ frames, frame.key = DATA_DESCRIPTOR_KEY_LE.toList ∧ frame.version = 1 ∧
      ∃ cdd, Reader.toEnd .leftover readDataDescriptor frame.data = .ok cdd ∧ cdd.flags = 13

/-- A value of framed descriptors starts with the first byte of the key. -/
theorem FramedEntry.head {count : Nat} {cmmValue : Bytes} (framed : FramedEntry count cmmValue)
    (positive : 0 < count) : cmmValue.head? = some 0x08 := by
  obtain ⟨frames, parsed, size, each⟩ := framed
  cases frames with
  | nil =>
    rw [List.length_nil] at size
    omega
  | cons frame frames =>
    obtain ⟨c, first⟩ := Reader.sequence_head parsed
    obtain ⟨key, _⟩ := readFrame_ok first
    rw [(each frame List.mem_cons_self).1, List.drop_zero] at key
    cases cmmValue with
    | nil => cases key
    | cons b rest =>
      have head : 0x08 = b := (List.cons.inj key).1
      rw [List.head?_cons, ← head]

/-- The value of an execution starts with the version of its first descriptor. -/
theorem cmmValue_not_framed {r : ℕ} {Point Rng : Type} (P : Primitives r Point Rng)
    (e : Execution r Point Rng) {count : Nat} (positive : 0 < count) :
    ¬ FramedEntry count (cmmValue P e) := by
  intro framed
  have head := framed.head positive
  rw [cmmValue_eq] at head
  cases head

variable {r : ℕ} {Point Rng : Type} [AddCommGroup Point] [DecidableEq Point]
variable {P : Primitives r Point Rng}

/-- No call writes the frames: the value of the entry is its descriptors, back to back. -/
theorem entry_never_framed {request : EncryptRequest} {rng : Rng} {result : EncryptResult}
    {final : Session r Rng} (run : call P request rng = .ok (result, final)) :
    ¬ FramedEntry (if request.signature.isSome then 2 else 1) result.cmmEntry.2 := by
  obtain ⟨e, _, rfl, _⟩ := (call_ok_iff ..).mp run
  exact cmmValue_not_framed P e (by split <;> decide)

theorem entry_never_framed_small :
    ∃ result final, call SmallCurve.primitives SmallCurve.request 1 = .ok (result, final) ∧
      ¬ FramedEntry 2 result.cmmEntry.2 := by
  obtain ⟨result, final, run, _⟩ := SmallCurve.request_runs
  exact ⟨result, final, run, entry_never_framed run⟩

/-- The signed call on the small curve returns a value that is not framed. -/
theorem framed_entry_refuted :
    ¬ ∀ (request : EncryptRequest) (rng : ℕ) (result : EncryptResult)
        (final : Session SmallCurve.r ℕ),
        call SmallCurve.primitives request rng = .ok (result, final) →
          FramedEntry (if request.signature.isSome then 2 else 1) result.cmmEntry.2 := by
  intro claimed
  obtain ⟨result, final, run, _⟩ := SmallCurve.request_runs
  have framed := claimed SmallCurve.request 1 result final run
  obtain ⟨e, _, rfl, _⟩ := (call_ok_iff ..).mp run
  exact cmmValue_not_framed SmallCurve.primitives e (by decide) framed

/-! ## The two layers -/

/-- A layer built as the outer one: its ciphertext holds a framed descriptor around `contents`. -/
def LayerHolds (P : Primitives r Point Rng) (ivk : ByteArr 32) (dd : DataDescriptor)
    (contents : Bytes) : Prop :=
  ∃ plaintext inner, decryptObject P ivk (received dd) = .ok plaintext ∧
    unwrapDescriptor DATA_DESCRIPTOR_KEY_LE plaintext = .ok inner ∧ inner.objectData = contents

/-- Both data descriptors of a call are unwrapped in the same way: the outer one to the
reference, the pass-1 one to the payload. -/
def OneShape (P : Primitives r Point Rng) (request : EncryptRequest) (publishedIvk : ByteArr 32)
    (e : Execution r Point Rng) : Prop :=
  LayerHolds P publishedIvk (outerDescriptor P e e.outer)
    (render (cvdxfDataRef (pointerTo request 0))) ∧
  LayerHolds P publishedIvk (pass1Cdd e.data) request.plaintext.val

/-- The outer layer has the shape. -/
theorem outer_layerHolds (fr : FrCodec P) (points : PointCodec P) (aead : AeadCodec P)
    {request : EncryptRequest} {rng : Rng} {e : Execution r Point Rng}
    (ran : Ran P request rng e) :
    LayerHolds P (P.frToBytes e.ivk) (outerDescriptor P e e.outer)
      (render (cvdxfDataRef (pointerTo request 0))) := by
  have opened := outer_opened fr points aead (searchDiversifier_accepted ran.found) (by decide)
    ran.label ran.mimeType ran.outer
  exact ⟨_, _, opened.1, opened.2, rfl⟩

/-- The pass-1 layer has not: it decrypts to the payload itself, and a payload is not longer
than a frame around it. -/
theorem pass1_not_layerHolds (fr : FrCodec P) (points : PointCodec P) (aead : AeadCodec P)
    {request : EncryptRequest} {rng : Rng} {e : Execution r Point Rng}
    (ran : Ran P request rng e) :
    ¬ LayerHolds P (P.frToBytes e.ivk) (pass1Cdd e.data) request.plaintext.val := by
  rintro ⟨plaintext, inner, decrypted, unwrapped, object⟩
  rw [pass1_opened fr points aead (searchDiversifier_accepted ran.found) ran.data] at decrypted
  obtain rfl := Except.ok.inj decrypted
  have inside := unwrapDescriptor_ok unwrapped
  rw [object] at inside
  omega

/-- In every call the outer layer has the shape and the pass-1 layer has not. -/
theorem layers_never_alike (fr : FrCodec P) (points : PointCodec P) (aead : AeadCodec P)
    {request : EncryptRequest} {rng : Rng} {result : EncryptResult} {final : Session r Rng}
    (run : call P request rng = .ok (result, final)) :
    (∃ e, Ran P request rng e ∧ result = resultOf P request e) ∧
    ∀ e, Ran P request rng e → result = resultOf P request e →
      LayerHolds P result.publishedIvk (outerDescriptor P e e.outer)
        (render (cvdxfDataRef (pointerTo request 0))) ∧
      ¬ OneShape P request result.publishedIvk e := by
  obtain ⟨e, ran, same, _⟩ := (call_ok_iff ..).mp run
  refine ⟨⟨e, ran, same⟩, ?_⟩
  rintro e ran rfl
  refine ⟨outer_layerHolds fr points aead ran, ?_⟩
  intro alike
  exact pass1_not_layerHolds fr points aead ran alike.2

theorem layers_never_alike_small :
    ∃ result final e, call SmallCurve.primitives SmallCurve.request 1 = .ok (result, final) ∧
      Ran SmallCurve.primitives SmallCurve.request 1 e ∧
      ¬ OneShape SmallCurve.primitives SmallCurve.request result.publishedIvk e := by
  obtain ⟨result, final, run, _⟩ := SmallCurve.request_runs
  obtain ⟨⟨e, ran, same⟩, differ⟩ :=
    layers_never_alike SmallCurve.fr SmallCurve.points SmallCurve.aead run
  exact ⟨result, final, e, run, ran, (differ e ran same).2⟩

/-- The three bytes encrypted on the small curve are not a framed descriptor. -/
theorem one_shape_refuted :
    ¬ ∀ (request : EncryptRequest) (rng : ℕ) (result : EncryptResult)
        (final : Session SmallCurve.r ℕ) (e : Execution SmallCurve.r SmallCurve.Point ℕ),
        call SmallCurve.primitives request rng = .ok (result, final) →
          Ran SmallCurve.primitives request rng e →
            result = resultOf SmallCurve.primitives request e →
              OneShape SmallCurve.primitives request result.publishedIvk e := by
  intro claimed
  obtain ⟨result, final, run, _⟩ := SmallCurve.request_runs
  obtain ⟨e, ran, rfl, _⟩ := (call_ok_iff ..).mp run
  have alike := claimed SmallCurve.request 1 _ final e run ran rfl
  exact pass1_not_layerHolds SmallCurve.fr SmallCurve.points SmallCurve.aead ran alike.2

end CmmEncrypt.Framing
