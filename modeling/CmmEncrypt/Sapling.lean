import CmmEncrypt.CofactorGroup
import CmmEncrypt.Wire

/-!
# Sapling primitives (`crypto.rs`, `ephemeral.rs`)

The curve, the scalar and point codecs, the hashes, the AEAD and the random
generator come from other crates and are parameters. What the code relies on is
stated as laws, one structure for each crate's promise, and assumed by name where
a result needs it.
-/

namespace CmmEncrypt.Sapling

open Wire CofactorGroup

/-- The functions of `jubjub`, `blake2b_simd`, `blake2s_simd`, `chacha20poly1305` and
`rand_core` that the crate calls. `Fr` is `ZMod r`; an AEAD call may fail. -/
structure Primitives (r : ℕ) (Point Rng : Type) where
  frToBytes : ZMod r → ByteArr 32
  frFromBytes : ByteArr 32 → Option (ZMod r)
  frRandom : Rng → ZMod r × Rng
  fillBytes : (n : ℕ) → Rng → ByteArr n × Rng
  pointToBytes : Point → ByteArr 32
  pointFromBytes : ByteArr 32 → Option Point
  blake2b : (personal : ByteArr 16) → Bytes → ByteArr 32
  blake2s : (personal : ByteArr 8) → Bytes → ByteArr 32
  chachaEncrypt : (key : ByteArr 32) → (nonce : ByteArr 12) → Bytes → Option Bytes
  chachaDecrypt : (key : ByteArr 32) → (nonce : ByteArr 12) → Bytes → Option Bytes

inductive CryptoError where
  | invalidScalar
  | invalidPoint
  | aeadFailed
  deriving DecidableEq, Repr

inductive EphemeralError where
  | invalidDiversifier
  | invalidScalar
  deriving DecidableEq, Repr

/-- What a run reads and leaves behind. `draws` and `seals` are ghosts: the scalar of every
`generate_esk` call, and the key and plaintext of every `aead_encrypt` call. -/
structure Session (r : ℕ) (Rng : Type) where
  rng : Rng
  draws : List (ZMod r)
  seals : List (ByteArr 32 × Bytes)

/-- Code that draws random values and may fail. -/
abbrev Run (r : ℕ) (Rng ε : Type) := StateT (Session r Rng) (Except (Fault ε))

variable {r : ℕ} {Point Rng ε : Type} (P : Primitives r Point Rng)

/-! ## Laws -/

/-- `jubjub`: a scalar's encoding is canonical. -/
structure FrCodec : Prop where
  back : ∀ s, P.frFromBytes (P.frToBytes s) = some s

/-- `jubjub`: the encoding of a curve point is accepted and decodes to it. -/
structure PointCodec : Prop where
  back : ∀ p, P.pointFromBytes (P.pointToBytes p) = some p

/-- `jubjub`: the curve has order `8 r` with `r` prime. -/
structure CurveOrder (r : ℕ) (Point : Type) : Prop where
  prime : r.Prime
  card : Nat.card Point = 8 * r

/-- `chacha20poly1305`: sixteen bytes longer, and decryption inverts encryption. -/
structure AeadCodec : Prop where
  length : ∀ key nonce plaintext ciphertext,
    P.chachaEncrypt key nonce plaintext = some ciphertext →
      ciphertext.length = plaintext.length + 16
  back : ∀ key nonce plaintext ciphertext,
    P.chachaEncrypt key nonce plaintext = some ciphertext →
      P.chachaDecrypt key nonce ciphertext = some plaintext

/-- `chacha20poly1305`: encrypting a buffer in memory does not fail. -/
structure AeadTotal : Prop where
  total : ∀ key nonce plaintext, plaintext.length < 2 ^ 63 →
    (P.chachaEncrypt key nonce plaintext).isSome

/-- `chacha20poly1305`: encrypting at most 2^32 − 1 blocks of 64 bytes does not fail. -/
structure AeadLimit : Prop where
  total : ∀ key nonce plaintext, plaintext.length ≤ 64 * (2 ^ 32 - 1) →
    (P.chachaEncrypt key nonce plaintext).isSome

section Codecs

variable {P}

theorem pointToBytes_injective (points : PointCodec P) {p q : Point}
    (same : P.pointToBytes p = P.pointToBytes q) : p = q := by
  have h := points.back p
  rw [same, points.back q] at h
  exact (Option.some.inj h).symm

end Codecs

/-! ## `crypto.rs` -/

def KDF_PERSONALIZATION : ByteArr 16 := ⟨asBytes "Zcash_SaplingKDF", by decide⟩

def kdfSapling (dhsecret epk : ByteArr 32) : ByteArr 32 :=
  P.blake2b KDF_PERSONALIZATION (dhsecret.toList ++ epk.toList)

def zeroNonce : ByteArr 12 := List.Vector.replicate 12 0

def aeadEncrypt (key : ByteArr 32) (plaintext : Bytes) : Run r Rng ε Bytes := fun session =>
  match P.chachaEncrypt key zeroNonce plaintext with
  | some ciphertext =>
    .ok (ciphertext, { session with seals := session.seals ++ [(key, plaintext)] })
  | none => .error (.panic "ChaCha20Poly1305 encrypt is infallible for in-memory buffers")

def aeadDecrypt (key : ByteArr 32) (ciphertext : Bytes) : Except CryptoError Bytes :=
  match P.chachaDecrypt key zeroNonce ciphertext with
  | some plaintext => .ok plaintext
  | none => .error .aeadFailed

section Points

variable [AddCommGroup Point]

/-- `ExtendedPoint::mul_by_cofactor`. -/
def mulByCofactor (p : Point) : Point := 8 • p

def saplingKaAgree (scalarBytes pointBytes : ByteArr 32) : Except CryptoError (ByteArr 32) :=
  match P.frFromBytes scalarBytes with
  | none => .error .invalidScalar
  | some scalar =>
    match P.pointFromBytes pointBytes with
    | none => .error .invalidPoint
    | some point => .ok (P.pointToBytes (act scalar (mulByCofactor point)))

section Agreement

variable {P}

/-- An agreement on an encoded point multiplies the cleared point. -/
theorem saplingKaAgree_point (points : PointCodec P) {scalarBytes : ByteArr 32} {s : ZMod r}
    (scalar : P.frFromBytes scalarBytes = some s) (p : Point) :
    saplingKaAgree P scalarBytes (P.pointToBytes p) =
      .ok (P.pointToBytes (act s (mulByCofactor p))) := by
  simp only [saplingKaAgree, scalar, points.back p]

theorem saplingKaAgree_ok {scalarBytes pointBytes secret : ByteArr 32}
    (ok : saplingKaAgree P scalarBytes pointBytes = .ok secret) :
    ∃ (s : ZMod r) (p : Point), secret = P.pointToBytes (act s (mulByCofactor p)) := by
  rw [saplingKaAgree] at ok
  split at ok
  · cases ok
  · split at ok
    · cases ok
    · exact ⟨_, _, (Except.ok.inj ok).symm⟩

theorem saplingKaAgree_eq (fr : FrCodec P) (points : PointCodec P) (s : ZMod r) (p : Point) :
    saplingKaAgree P (P.frToBytes s) (P.pointToBytes p) =
      .ok (P.pointToBytes (act s (mulByCofactor p))) :=
  saplingKaAgree_point points (fr.back s) p

/-- The sender and the holder of the viewing key agree. -/
theorem saplingKaAgree_symm (fr : FrCodec P) (points : PointCodec P) (esk ivk : ZMod r)
    (gD : Point) :
    saplingKaAgree P (P.frToBytes ivk) (P.pointToBytes (act esk gD)) =
      saplingKaAgree P (P.frToBytes esk) (P.pointToBytes (act ivk gD)) := by
  rw [saplingKaAgree_eq fr points, saplingKaAgree_eq fr points, mulByCofactor, mulByCofactor,
    agreement]

end Agreement

/-! ## `ephemeral.rs` -/

def GH_FIRST_BLOCK : Bytes :=
  asBytes "096b36a5804bfacef1691e173c366a47ff5ba84a44f26ddd7e8d9f79d5b42df0"

def GH_D_PERSONALIZATION : ByteArr 8 := ⟨asBytes "Zcash_gd", by decide⟩

def generateEsk : Run r Rng ε (ByteArr 32) := fun session =>
  let (scalar, rng) := P.frRandom session.rng
  .ok (P.frToBytes scalar, { session with rng, draws := session.draws ++ [scalar] })

variable [DecidableEq Point]

def deriveGD (d : ByteArr 11) : Option Point :=
  match P.pointFromBytes (P.blake2s GH_D_PERSONALIZATION (GH_FIRST_BLOCK ++ d.toList)) with
  | none => none
  | some point => if mulByCofactor point = 0 then none else some (mulByCofactor point)

def deriveEpk (esk : ByteArr 32) (d : ByteArr 11) : Except EphemeralError (ByteArr 32) :=
  match P.frFromBytes esk with
  | none => .error .invalidScalar
  | some scalar =>
    match deriveGD P d with
    | none => .error .invalidDiversifier
    | some gD => .ok (P.pointToBytes (act scalar gD))

variable {P}

/-- A diversified base is a cleared point other than the identity. -/
theorem deriveGD_some {d : ByteArr 11} {gD : Point} (h : deriveGD P d = some gD) :
    gD ≠ 0 ∧ ∃ point, gD = mulByCofactor point := by
  rw [deriveGD] at h
  split at h
  · cases h
  · rename_i point decoded
    split at h
    · cases h
    · rename_i nonzero
      cases h
      exact ⟨nonzero, point, rfl⟩

theorem deriveEpk_eq (fr : FrCodec P) {d : ByteArr 11} {gD : Point} (s : ZMod r)
    (found : deriveGD P d = some gD) :
    deriveEpk P (P.frToBytes s) d = .ok (P.pointToBytes (act s gD)) := by
  simp only [deriveEpk, fr.back s, found]

/-- On a diversified base, different scalars have different public keys. -/
theorem epk_injective (points : PointCodec P) (curve : CurveOrder r Point) {d : ByteArr 11}
    {gD : Point} (found : deriveGD P d = some gD) {s t : ZMod r}
    (same : P.pointToBytes (act s gD) = P.pointToBytes (act t gD)) : s = t := by
  obtain ⟨nonzero, point, rfl⟩ := deriveGD_some found
  exact act_injective curve.prime (cleared curve.card point) nonzero
    (pointToBytes_injective points same)

end Points

end CmmEncrypt.Sapling
