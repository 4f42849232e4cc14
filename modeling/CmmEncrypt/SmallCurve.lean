import CmmEncrypt.Api
import Mathlib.Data.Nat.Prime.Defs
import Mathlib.SetTheory.Cardinal.Finite
import Mathlib.Tactic.NormNum.Prime

/-!
# The laws hold together

A group of order 8 · 13 with one-byte encodings, hashes that pick bytes of their
input, an AEAD that appends half of its key as a tag and a counter as generator. It
satisfies every law that the results assume of the real crates.
-/

namespace CmmEncrypt.SmallCurve

open Wire Sapling Api

section Codec

variable {m : ℕ}

/-- A residue in the first byte, the others zero. -/
def encode (s : ZMod m) : ByteArr 32 :=
  ⟨UInt8.ofNat s.val :: List.replicate 31 0, by simp⟩

def decode (bytes : ByteArr 32) : Option (ZMod m) :=
  if bytes = encode (bytes.head.toNat : ZMod m) then some (bytes.head.toNat : ZMod m) else none

theorem decode_encode [NeZero m] (small : m ≤ 256) (s : ZMod m) : decode (encode s) = some s := by
  have bound : s.val < m := s.val_lt
  have head : (encode s).head = UInt8.ofNat s.val := rfl
  have value : (UInt8.ofNat s.val).toNat = s.val := by
    rw [UInt8.toNat_ofNat']
    omega
  rw [decode, head, value, ZMod.natCast_zmod_val, if_pos rfl]

theorem encode_of_head {s t : ZMod m} (same : (encode s).head = (encode t).head) :
    encode s = encode t := by
  change UInt8.ofNat s.val = UInt8.ofNat t.val at same
  exact Subtype.ext (congrArg (· :: List.replicate 31 0) same)

end Codec

abbrev r : ℕ := 13
abbrev Point := ZMod (8 * r)

/-- Bytes 0 and 32 of the input: one of the secret, one of the public key. -/
def pickKey (bytes : Bytes) : ByteArr 32 :=
  ⟨bytes.getD 0 0 :: bytes.getD 32 0 :: List.replicate 30 0, by simp⟩

/-- The first byte behind the 64-byte first block: the diversifier's. -/
def pickPoint (bytes : Bytes) : ByteArr 32 :=
  ⟨bytes.getD 64 0 :: List.replicate 31 0, by simp⟩

def tag (key : ByteArr 32) : Bytes := key.toList.take 16

def primitives : Primitives r Point ℕ where
  frToBytes := encode
  frFromBytes := decode
  frRandom n := ((n : ZMod r), n + 1)
  fillBytes k n := (List.Vector.replicate k (UInt8.ofNat n), n + 1)
  pointToBytes := encode
  pointFromBytes := decode
  blake2b _ bytes := pickKey bytes
  blake2s _ bytes := pickPoint bytes
  chachaEncrypt key _ plaintext := some (plaintext ++ tag key)
  chachaDecrypt key _ ciphertext :=
    if (tag key).isSuffixOf ciphertext then some (ciphertext.take (ciphertext.length - 16))
    else none

theorem tag_length (key : ByteArr 32) : (tag key).length = 16 := by
  rw [tag, List.length_take, List.Vector.toList_length]
  rfl

theorem fr : FrCodec primitives := ⟨decode_encode (by decide)⟩

theorem points : PointCodec primitives := ⟨decode_encode (by decide)⟩

theorem curve : CurveOrder r Point where
  prime := by norm_num
  card := Nat.card_zmod _

theorem aead : AeadCodec primitives where
  length key nonce plaintext ciphertext h := by
    obtain rfl := Option.some.inj h
    rw [List.length_append, tag_length]
  back key nonce plaintext ciphertext h := by
    obtain rfl := Option.some.inj h
    have suffix : (tag key).isSuffixOf (plaintext ++ tag key) = true := by
      rw [List.isSuffixOf_iff_suffix]
      exact List.suffix_append plaintext (tag key)
    have body : (plaintext ++ tag key).take ((plaintext ++ tag key).length - 16) = plaintext := by
      rw [List.length_append, tag_length, Nat.add_sub_cancel, List.take_left]
    simp only [primitives, suffix, if_true, body]

theorem total : AeadTotal primitives := ⟨fun _ _ _ _ => rfl⟩

theorem limit : AeadLimit primitives := ⟨fun _ _ _ _ => rfl⟩

/-! ## Keys -/

theorem head_getD {n : ℕ} (bytes : ByteArr (n + 1)) (rest : Bytes) :
    (bytes.toList ++ rest).getD 0 0 = bytes.head := by
  obtain ⟨_ | ⟨b, bs⟩, size⟩ := bytes
  · cases size
  · rfl

/-- A derived key shows the first byte of the secret and of the public key. -/
theorem kdfSapling_heads {dhsecret dhsecret' epk epk' : ByteArr 32}
    (same : kdfSapling primitives dhsecret epk = kdfSapling primitives dhsecret' epk') :
    dhsecret.head = dhsecret'.head ∧ epk.head = epk'.head := by
  have second (secret key : ByteArr 32) :
      (secret.toList ++ key.toList).getD 32 0 = key.head := by
    rw [List.getD_append_right _ _ _ _ (by rw [List.Vector.toList_length]),
      List.Vector.toList_length, Nat.sub_self, ← head_getD key [], List.append_nil]
  have bytes := congrArg List.Vector.toList same
  change _ :: _ :: _ = _ :: _ :: _ at bytes
  obtain ⟨first, bytes⟩ := List.cons.inj bytes
  obtain ⟨next, _⟩ := List.cons.inj bytes
  rw [head_getD, head_getD] at first
  rw [second, second] at next
  exact ⟨first, next⟩

theorem saplingKaAgree_encoded {scalar point out : ByteArr 32}
    (ok : saplingKaAgree primitives scalar point = .ok out) : ∃ p : Point, out = encode p := by
  obtain ⟨_, _, same⟩ := saplingKaAgree_ok ok
  exact ⟨_, same⟩

theorem deriveEpk_encoded {esk epk : ByteArr 32} {d : ByteArr 11}
    (ok : deriveEpk primitives esk d = .ok epk) : ∃ p : Point, epk = encode p := by
  rw [deriveEpk] at ok
  split at ok
  · cases ok
  · split at ok
    · cases ok
    · exact ⟨_, (Except.ok.inj ok).symm⟩

/-! ## A call -/

/-- A signed request: three bytes, a label, no MIME type and an empty signature. -/
def request : EncryptRequest where
  plaintext := ⟨[1, 2, 3], by decide⟩
  outerVdxfKey := List.Vector.replicate 20 0xAA
  systemId := List.Vector.replicate 20 0xBB
  label := some "l"
  mimeType := none
  dataDepositVoutIndex := 7
  signature := some ⟨[], by decide⟩

/-- The call returns, and its four draws differ. -/
theorem request_runs : ∃ result final, call primitives request 1 = .ok (result, final) ∧
    final.draws = [3, 4, 5, 6] := by
  have draws : (call primitives request 1).toOption.map (fun out => out.2.draws) =
      some [3, 4, 5, 6] := by decide +kernel
  cases run : call primitives request 1 with
  | error e =>
    rw [run] at draws
    cases draws
  | ok out =>
    rw [run] at draws
    exact ⟨out.1, out.2, rfl, Option.some.inj draws⟩

theorem split_short : (List.replicate 6000 (0 : UInt8)).length < 2 ^ 63 := by
  rw [List.length_replicate]
  decide

/-- As many bytes as no script may have. -/
def splitRequest : EncryptRequest :=
  { request with plaintext := ⟨List.replicate 6000 0, split_short⟩ }

theorem splitRequest_length : splitRequest.plaintext.val.length = 6000 := List.length_replicate

end CmmEncrypt.SmallCurve
