import CmmEncrypt.Executions
import CmmEncrypt.SmallCurve

/-!
# No AEAD key is used twice

The nonce is always zero, so every pass needs a key of its own. A pass has its own
scalar; on a diversified base different scalars have different public keys, and the
public key is part of what the key is derived from.
-/

namespace CmmEncrypt.KeySeparation

open Wire Sapling CofactorGroup Api Passes Executions

theorem nodup_map_of_nodup_map {α β γ : Type} {f : α → β} {g : α → γ} {xs : List α}
    (distinct : (xs.map f).Nodup) (reflects : ∀ x ∈ xs, ∀ y ∈ xs, g x = g y → f x = f y) :
    (xs.map g).Nodup := by
  have each := distinct.of_map f
  rw [List.nodup_map_iff_inj_on each] at distinct ⊢
  intro x hx y hy same
  exact distinct x hx y hy (reflects x hx y hy same)

variable {r : ℕ} {Point Rng : Type} [AddCommGroup Point] [DecidableEq Point]
variable {P : Primitives r Point Rng}

/-- What a pass hands to the key derivation. -/
def kdfInput (pass : Pass r) : ByteArr 32 × ByteArr 32 := (pass.dhsecret, pass.epk)

/-- Every AEAD call of a run has its own draw, and distinct draws make distinct public keys,
distinct inputs of the key derivation and, if that has no collision on them, distinct keys. -/
theorem keys_distinct (fr : FrCodec P) (points : PointCodec P) (curve : CurveOrder r Point)
    {request : EncryptRequest} {rng : Rng} {result : EncryptResult} {final : Session r Rng}
    (run : call P request rng = .ok (result, final)) :
    ∃ passes : List (Pass r),
      passes.length = (if request.signature.isSome then 4 else 2) ∧
      final.draws = passes.map Pass.scalar ∧
      final.seals = passes.map (fun pass => (pass.key, pass.plaintext)) ∧
      (∀ pass ∈ passes, pass.esk = P.frToBytes pass.scalar ∧
        deriveEpk P pass.esk result.ephemeralDiversifier = .ok pass.epk ∧
        saplingKaAgree P pass.esk result.ephemeralPkD = .ok pass.dhsecret ∧
        pass.key = kdfSapling P pass.dhsecret pass.epk) ∧
      (final.draws.Nodup →
        (passes.map Pass.epk).Nodup ∧ (passes.map kdfInput).Nodup ∧
        ((∀ p ∈ passes, ∀ q ∈ passes,
            kdfSapling P p.dhsecret p.epk = kdfSapling P q.dhsecret q.epk →
              kdfInput p = kdfInput q) →
          (final.seals.map Prod.fst).Nodup)) := by
  obtain ⟨e, ran, rfl, rfl⟩ := (call_ok_iff P request rng result final).mp run
  have accepted := searchDiversifier_accepted ran.found
  have keys : ∀ pass ∈ passes e, pass.esk = P.frToBytes pass.scalar ∧
      deriveEpk P pass.esk e.diversifier = .ok pass.epk ∧
      saplingKaAgree P pass.esk (pkD P e) = .ok pass.dhsecret ∧
      pass.key = kdfSapling P pass.dhsecret pass.epk := by
    intro pass member
    obtain ⟨_, _, made⟩ := ran.passes_make pass member
    exact ⟨made.esk, made.epk, made.dhsecret, made.key⟩
  have epk : ∀ p ∈ passes e, ∀ q ∈ passes e, p.epk = q.epk → p.scalar = q.scalar := by
    intro p hp q hq same
    obtain ⟨_, _, madeP⟩ := ran.passes_make p hp
    obtain ⟨_, _, madeQ⟩ := ran.passes_make q hq
    rw [madeP.epk_eq fr accepted, madeQ.epk_eq fr accepted] at same
    exact epk_injective points curve accepted same
  refine ⟨passes e, ?_, rfl, rfl, keys, ?_⟩
  · rw [passes, ← ran.attached_isSome]
    cases e.attached <;> rfl
  · intro draws
    have inputs : ((passes e).map kdfInput).Nodup :=
      nodup_map_of_nodup_map draws
        (fun p hp q hq same => epk p hp q hq (congrArg Prod.snd same))
    refine ⟨nodup_map_of_nodup_map draws epk, inputs, ?_⟩
    intro noCollision
    have sealKeys : (session P e).seals.map Prod.fst = (passes e).map Pass.key := by
      rw [session, List.map_map]
      rfl
    rw [sealKeys]
    refine nodup_map_of_nodup_map inputs (fun p hp q hq same => noCollision p hp q hq ?_)
    rw [← (keys p hp).2.2.2, ← (keys q hq).2.2.2]
    exact same

theorem keys_distinct_small :
    ∃ result final, call SmallCurve.primitives SmallCurve.request 1 = .ok (result, final) ∧
      (final.seals.map Prod.fst).Nodup ∧
      ∃ passes : List (Pass SmallCurve.r), passes.length = 4 ∧
        (passes.map Pass.epk).Nodup ∧ (passes.map kdfInput).Nodup := by
  obtain ⟨result, final, run, draws⟩ := SmallCurve.request_runs
  have distinct : final.draws.Nodup := by
    rw [draws]
    decide
  obtain ⟨passes, count, _, _, derived, separate⟩ :=
    keys_distinct SmallCurve.fr SmallCurve.points SmallCurve.curve run
  obtain ⟨epks, inputs, keys⟩ := separate distinct
  -- secret and public key are encodings, which their first bytes determine
  have noCollision : ∀ p ∈ passes, ∀ q ∈ passes,
      kdfSapling SmallCurve.primitives p.dhsecret p.epk =
        kdfSapling SmallCurve.primitives q.dhsecret q.epk → kdfInput p = kdfInput q := by
    intro p hp q hq same
    obtain ⟨secret, key⟩ := SmallCurve.kdfSapling_heads same
    obtain ⟨_, epkP, dhP, _⟩ := derived p hp
    obtain ⟨_, epkQ, dhQ, _⟩ := derived q hq
    obtain ⟨_, hp⟩ := SmallCurve.deriveEpk_encoded epkP
    obtain ⟨_, hq⟩ := SmallCurve.deriveEpk_encoded epkQ
    obtain ⟨_, hsp⟩ := SmallCurve.saplingKaAgree_encoded dhP
    obtain ⟨_, hsq⟩ := SmallCurve.saplingKaAgree_encoded dhQ
    rw [hp, hq] at key
    rw [hsp, hsq] at secret
    rw [kdfInput, kdfInput, hp, hq, hsp, hsq, SmallCurve.encode_of_head key,
      SmallCurve.encode_of_head secret]
  exact ⟨result, final, run, keys noCollision, passes, count, epks, inputs⟩

end CmmEncrypt.KeySeparation
