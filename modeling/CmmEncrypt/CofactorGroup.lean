import Mathlib.Algebra.Module.Torsion.Basic
import Mathlib.Data.ZMod.Basic
import Mathlib.GroupTheory.OrderOfElement
import Mathlib.GroupTheory.Perm.Cycle.Type

/-!
# Scalars acting on a group with a cofactor

A commutative group of order `h * r` with `r` prime, written additively. Scalars
are the integers modulo `r`; one acts through its canonical representative, on
every point of the group. Multiplying by the cofactor `h` lands in the part killed
by `r`, and a nonzero point there tells all scalars apart.
-/

namespace CmmEncrypt.CofactorGroup

universe u
variable {G : Type u} [AddCommGroup G] {h r : ℕ}

/-- A scalar times a point. -/
def act (s : ZMod r) (p : G) : G := s.val • p

theorem act_comm (s t : ZMod r) (p : G) : act s (act t p) = act t (act s p) := by
  rw [act, act, act, act, smul_smul, smul_smul, Nat.mul_comm]

theorem act_cofactor (s : ZMod r) (p : G) : h • act s p = act s (h • p) := by
  rw [act, act, smul_smul, smul_smul, Nat.mul_comm]

/-- Both sides of a key agreement clear the other's point and get the same secret. -/
theorem agreement (s t : ZMod r) (p : G) : act s (h • act t p) = act t (h • act s p) := by
  rw [act_cofactor, act_cofactor, act_comm]

/-- A point multiplied by the cofactor is killed by `r`. -/
theorem cleared (card : Nat.card G = h * r) (p : G) : r • (h • p) = 0 := by
  rw [smul_smul, Nat.mul_comm, ← card]
  exact card_nsmul_eq_zero'

theorem act_injective (prime : r.Prime) {p : G} (killed : r • p = 0) (nonzero : p ≠ 0)
    {s t : ZMod r} (same : act s p = act t p) : s = t := by
  have : Fact r.Prime := ⟨prime⟩
  have order : addOrderOf p = r := addOrderOf_eq_prime killed nonzero
  have congruent := nsmul_eq_nsmul_iff_modEq.mp same
  rw [order] at congruent
  have small : s.val = t.val := Nat.ModEq.eq_of_lt_of_lt congruent s.val_lt t.val_lt
  exact ZMod.val_injective r small

/-- With a cofactor prime to `r`, clearing a nonzero point that `r` kills leaves it nonzero. -/
theorem cofactor_ne_zero (coprime : r.Coprime h) {p : G} (killed : r • p = 0)
    (nonzero : p ≠ 0) : h • p ≠ 0 := by
  intro cleared
  have divides : addOrderOf p ∣ r.gcd h := Nat.dvd_gcd
    (addOrderOf_dvd_iff_nsmul_eq_zero.mpr killed) (addOrderOf_dvd_iff_nsmul_eq_zero.mpr cleared)
  rw [coprime.gcd_eq_one, Nat.dvd_one, AddMonoid.addOrderOf_eq_one_iff] at divides
  exact nonzero divides

theorem act_killed (s : ZMod r) {p : G} (killed : r • p = 0) : r • act s p = 0 := by
  rw [act, smul_comm, killed, smul_zero]

theorem zero_act [NeZero r] (p : G) : act (0 : ZMod r) p = 0 := by
  rw [act, ZMod.val_zero, zero_smul]

/-- Only the zero scalar sends a nonzero point that `r` kills to zero. -/
theorem eq_zero_of_act (prime : r.Prime) {p : G} (killed : r • p = 0) (nonzero : p ≠ 0)
    {s : ZMod r} (image : act s p = 0) : s = 0 := by
  have : NeZero r := ⟨prime.ne_zero⟩
  exact act_injective prime killed nonzero (image.trans (zero_act p).symm)

/-- Scalars that agree on a point that `r` kills are equal, unless the point is zero. -/
theorem agreed_injective (prime : r.Prime) (coprime : r.Coprime h) {p : G} (killed : r • p = 0)
    (nonzero : p ≠ 0) {s t : ZMod r} (same : act s (h • p) = act t (h • p)) : s = t := by
  have killedAgain : r • (h • p) = 0 := by
    rw [smul_comm, killed, smul_zero]
  exact act_injective prime killedAgain (cofactor_ne_zero coprime killed nonzero) same

/-! ## Small-order components -/

/-- Clearing the cofactor forgets what the cofactor kills. -/
theorem cleared_congr {p q : G} (small : addOrderOf (p - q) ∣ h) : h • p = h • q := by
  have killed : h • (p - q) = 0 := addOrderOf_dvd_iff_nsmul_eq_zero.mp small
  rw [smul_sub] at killed
  exact sub_eq_zero.mp killed

/-- A cleared point stays in the part killed by `r`, whatever multiplies it. -/
theorem act_cleared_mem (card : Nat.card G = h * r) (s : ZMod r) (p : G) :
    act s (h • p) ∈ AddSubgroup.torsionBy G (r : ℤ) := by
  rw [AddSubgroup.torsionBy.nsmul_iff, act, smul_comm, cleared card, smul_zero]

/-- The part killed by `r` is a subgroup of order `r`. -/
theorem card_torsionBy (prime : r.Prime) (coprime : r.Coprime h) (positive : 0 < h)
    (card : Nat.card G = h * r) : Nat.card (AddSubgroup.torsionBy G (r : ℤ)) = r := by
  have : Fact r.Prime := ⟨prime⟩
  have finite : Finite G := Nat.finite_of_card_ne_zero (by
    rw [card]
    exact Nat.mul_ne_zero positive.ne' prime.ne_zero)
  -- an order shared with the cofactor would be shared by the cofactor and `r`
  have apart : (Nat.card (AddSubgroup.torsionBy G (r : ℤ))).Coprime h := by
    refine Nat.Coprime.symm (Nat.coprime_of_dvd ?_)
    intro k kPrime kCofactor kCard
    have : Fact k.Prime := ⟨kPrime⟩
    obtain ⟨x, order⟩ := exists_prime_addOrderOf_dvd_card' k kCard
    have divides : k ∣ r := by
      rw [← order, addOrderOf_dvd_iff_nsmul_eq_zero]
      exact AddSubgroup.torsionBy.nsmul x
    have one := Nat.eq_one_of_dvd_coprimes coprime divides kCofactor
    exact kPrime.one_lt.ne' one
  have divides : Nat.card (AddSubgroup.torsionBy G (r : ℤ)) ∣ h * r := by
    rw [← card]
    exact AddSubgroup.card_addSubgroup_dvd_card _
  rcases (Nat.dvd_prime prime).mp (apart.dvd_of_dvd_mul_left divides) with trivial | whole
  · obtain ⟨g, order⟩ := exists_prime_addOrderOf_dvd_card' r (Dvd.intro_left h card.symm)
    have member : g ∈ AddSubgroup.torsionBy G (r : ℤ) := by
      rw [AddSubgroup.torsionBy.nsmul_iff, ← order]
      exact addOrderOf_nsmul_eq_zero g
    have bottom := AddSubgroup.eq_bot_of_card_eq _ trivial
    rw [bottom, AddSubgroup.mem_bot] at member
    rw [member, addOrderOf_zero] at order
    exact absurd order prime.one_lt.ne
  · exact whole

end CmmEncrypt.CofactorGroup
