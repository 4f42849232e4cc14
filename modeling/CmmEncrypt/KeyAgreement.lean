import CmmEncrypt.SmallCurve

/-!
# Key agreement

Both sides clear the cofactor of the point they receive before they multiply, so that
they agree on the secret, whatever small-order component the point has.
-/

namespace CmmEncrypt.KeyAgreement

open Wire Sapling CofactorGroup

variable {r : ℕ} {Point Rng : Type} [AddCommGroup Point] [DecidableEq Point]
  {P : Primitives r Point Rng}

/-- Sender and holder of the viewing key agree; a small-order component of the point changes
nothing; the secret is a point of the prime-order subgroup, which has order `r`. -/
theorem keyAgreement_sound (points : PointCodec P) (curve : CurveOrder r Point) :
    (∀ (eskBytes ivkBytes : ByteArr 32) (esk ivk : ZMod r) (d : ByteArr 11) (gD : Point),
      P.frFromBytes eskBytes = some esk → P.frFromBytes ivkBytes = some ivk →
      deriveGD P d = some gD →
        ∃ epk secret, deriveEpk P eskBytes d = .ok epk ∧
          saplingKaAgree P eskBytes (P.pointToBytes (act ivk gD)) = .ok secret ∧
          saplingKaAgree P ivkBytes epk = .ok secret) ∧
    (∀ (scalarBytes : ByteArr 32) (s : ZMod r) (p q : Point),
      P.frFromBytes scalarBytes = some s → addOrderOf (p - q) ∣ 8 →
        ∃ secret, saplingKaAgree P scalarBytes (P.pointToBytes p) = .ok secret ∧
          saplingKaAgree P scalarBytes (P.pointToBytes q) = .ok secret) ∧
    (∀ scalarBytes pointBytes secret, saplingKaAgree P scalarBytes pointBytes = .ok secret →
      ∃ point ∈ AddSubgroup.torsionBy Point (r : ℤ), secret = P.pointToBytes point) ∧
    (Odd r → Nat.card (AddSubgroup.torsionBy Point (r : ℤ)) = r) := by
  refine ⟨?_, ?_, ?_, ?_⟩
  · intro eskBytes ivkBytes esk ivk d gD eskOk ivkOk found
    refine ⟨P.pointToBytes (act esk gD), P.pointToBytes (act esk (mulByCofactor (act ivk gD))),
      ?_, saplingKaAgree_point points eskOk _, ?_⟩
    · simp only [deriveEpk, eskOk, found]
    · rw [saplingKaAgree_point points ivkOk, mulByCofactor, mulByCofactor, agreement]
  · intro scalarBytes s p q scalar small
    refine ⟨_, saplingKaAgree_point points scalar p, ?_⟩
    rw [saplingKaAgree_point points scalar, mulByCofactor, mulByCofactor, cleared_congr small]
  · intro scalarBytes pointBytes secret ok
    obtain ⟨s, p, rfl⟩ := saplingKaAgree_ok ok
    exact ⟨_, act_cleared_mem curve.card s p, rfl⟩
  · intro odd
    have coprime : r.Coprime (2 ^ 3) := (Nat.coprime_two_right.mpr odd).pow_right 3
    exact card_torsionBy curve.prime coprime (by decide) curve.card

/-- The viewing key zero, and a point with a component of order 8. -/
theorem keyAgreement_sound_small :
    (∃ epk secret,
      saplingKaAgree SmallCurve.primitives (SmallCurve.encode (5 : ZMod SmallCurve.r))
        (SmallCurve.encode (act (0 : ZMod SmallCurve.r) (8 : SmallCurve.Point))) = .ok secret ∧
      saplingKaAgree SmallCurve.primitives (SmallCurve.encode (0 : ZMod SmallCurve.r)) epk =
        .ok secret) ∧
    saplingKaAgree SmallCurve.primitives (SmallCurve.encode (5 : ZMod SmallCurve.r))
        (SmallCurve.encode (3 : SmallCurve.Point)) =
      saplingKaAgree SmallCurve.primitives (SmallCurve.encode (5 : ZMod SmallCurve.r))
        (SmallCurve.encode (16 : SmallCurve.Point)) := by
  obtain ⟨agree, blind, _⟩ := keyAgreement_sound SmallCurve.points SmallCurve.curve
  have five := SmallCurve.fr.back 5
  have zero := SmallCurve.fr.back 0
  obtain ⟨epk, secret, _, sender, holder⟩ := agree _ _ 5 0 (List.Vector.replicate 11 1) 8 five zero
    (by decide)
  have small : addOrderOf (3 - 16 : SmallCurve.Point) ∣ 8 :=
    addOrderOf_dvd_iff_nsmul_eq_zero.mpr (by decide)
  obtain ⟨_, left, right⟩ := blind _ 5 3 16 five small
  exact ⟨⟨epk, secret, sender, holder⟩, left.trans right.symm⟩

end CmmEncrypt.KeyAgreement
