import CmmEncrypt.Executions

/-!
# The three descriptors of a call

Which fields the pass-1, outer and inner descriptors have, and how long they are.
The first two always have the same flags; the inner one has a label and a MIME type
when the request does.
-/

namespace CmmEncrypt.Shapes

open Wire WireCodec Layout Vdxf DataRef Descriptor Sapling Api Passes Executions

variable {r : ℕ}

theorem content_key {n : ℕ} (key : ByteArr (n + 1)) :
    content (some key.toList) = some key.toList := by
  rcases key with ⟨_ | ⟨b, bytes⟩, size⟩
  · cases size
  · rfl

theorem nonempty_key {n : ℕ} (key : ByteArr (n + 1)) :
    isNonemptyBytes (some key.toList) = true := by
  rcases key with ⟨_ | ⟨b, bytes⟩, size⟩
  · cases size
  · rfl

/-- flags:5, a ciphertext and an epk. -/
theorem pass1_shape (pass : Pass r) :
    descriptor (pass1Cdd pass) =
      .varint 1 :: .varint 5 :: (varBytes pass.ciphertext ++ varBytes pass.epk.toList) := by
  have flags : calcFlags (pass1Cdd pass) = 5 := by
    simp only [calcFlags, pass1Cdd, nonempty_key]
    rfl
  rw [descriptor, flags]
  simp only [pass1Cdd, content_key]
  simp only [optionalKey, optionalBytes, contentStr, content, Option.elim_none, Option.elim_some,
    Option.filter_none, Option.map_none, List.append_nil, List.nil_append]
  rfl

/-- flags:13, a ciphertext, an epk and the ivk. -/
theorem outer_shape (w : WrappedEncrypted) (ivkBytes : ByteArr 32) :
    descriptor (outerCdd w ivkBytes) =
      .varint 1 :: .varint 13 ::
        (varBytes w.objectData ++ (varBytes w.epk.toList ++ varBytes ivkBytes.toList)) := by
  have flags : calcFlags (outerCdd w ivkBytes) = 13 := by
    simp only [calcFlags, outerCdd, nonempty_key]
    rfl
  rw [descriptor, flags]
  simp only [outerCdd, content_key]
  simp only [optionalKey, optionalBytes, contentStr, content, Option.elim_none, Option.elim_some,
    Option.filter_none, Option.map_none, List.append_nil, List.nil_append]
  rfl

theorem inner_shape (voutIndex subObject : UInt32) (label mimeType : Option String) :
    descriptor (innerCdd voutIndex subObject label mimeType) =
      .varint 1 :: .varint (calcFlags (innerCdd voutIndex subObject label mimeType)).toUInt64 ::
        (varBytes (render (cvdxfDataRef { voutIndex, objectNum := 0, subObject })) ++
          (optionalBytes ((contentStr label).map asBytes) ++
            optionalBytes ((contentStr mimeType).map asBytes))) := by
  rw [descriptor]
  simp only [innerCdd]
  simp only [optionalKey, optionalBytes, content, Option.elim_none, Option.filter_none,
    List.append_nil, List.nil_append]
  rfl

/-- The value of the entry: the first descriptor around its ciphertext, then the second. -/
theorem cmmValue_eq {Point Rng : Type} (P : Primitives r Point Rng) (e : Execution r Point Rng) :
    cmmValue P e =
      [0x01, 0x0d] ++ render (varBytes e.outer.ciphertext) ++
        (render (varBytes e.outer.epk.toList) ++ render (varBytes (P.frToBytes e.ivk).toList) ++
          (e.attached.map Prod.snd).toList.flatMap
            (fun pass => render (descriptor (outerCdd (wrapped pass) (P.frToBytes e.ivk))))) := by
  have header : (Field.varint 1).bytes ++ (Field.varint 13).bytes = [0x01, 0x0d] := by decide
  rw [cmmValue, outerPasses, List.flatMap_cons, outerDescriptor, outer_shape, render_cons,
    render_cons, render_append, render_append, ← header]
  simp only [List.append_assoc, outerDescriptor, wrapped]

/-! ## Lengths -/

theorem pass1_length (pass : Pass r) :
    (render (descriptor (pass1Cdd pass))).length =
      35 + compactSizeLen (UInt64.ofNat pass.ciphertext.length).toNat + pass.ciphertext.length := by
  have one : (varint 1).length = 1 := by decide
  have five : (varint 5).length = 1 := by decide
  have epk : (render (varBytes pass.epk.toList)).length = 33 := by
    rw [varBytes_length, List.Vector.toList_length]
    rfl
  rw [pass1_shape, render_cons, render_cons, render_append, List.length_append, List.length_append,
    List.length_append, varBytes_length, epk, Field.bytes, Field.bytes, one, five]
  omega

/-- A framed pass-1 descriptor is longer than what it holds, but not by much. -/
theorem dataVec_length (key : ByteArr 20) (pass : Pass r) :
    pass.ciphertext.length ≤ (render (descriptor (pass1Cdd pass))).length ∧
    (render (descriptor (pass1Cdd pass))).length ≤ (dataVec key pass).length ∧
    (dataVec key pass).length ≤ pass.ciphertext.length + 74 := by
  have size := pass1_length pass
  have inner := compactSizeLen_le (UInt64.ofNat pass.ciphertext.length).toNat
  have outer :=
    compactSizeLen_le (UInt64.ofNat (render (descriptor (pass1Cdd pass))).length).toNat
  rw [dataVec, frame_length]
  omega

/-- The framed pass-1 descriptor is the longest field around a payload of `n` bytes. -/
theorem dataVec_fits {key : ByteArr 20} {pass : Pass r} {n : ℕ} (inMemory : n < 2 ^ 63)
    (ciphertext : pass.ciphertext.length = n + 16) :
    (dataVec key pass).length ≤ MAX_SIZE.toNat ↔ n + 82 ≤ MAX_SIZE.toNat := by
  have max : MAX_SIZE.toNat = 0x02000000 := rfl
  have size := pass1_length pass
  rw [ciphertext, UInt64.toNat_ofNat', Nat.mod_eq_of_lt (by omega)] at size
  rw [dataVec, frame_length, UInt64.toNat_ofNat', max]
  unfold compactSizeLen at size ⊢
  split_ifs at size ⊢ <;> omega

theorem optionalBytes_length_le (s : Option String) :
    (render (optionalBytes ((contentStr s).map asBytes))).length ≤ 9 + utf8Length s := by
  rcases isNonemptyStr_cases s with ⟨v, rfl, _, _, kept⟩ | ⟨_, dropped, _⟩
  · rw [kept]
    exact varBytes_length_le (asBytes v)
  · rw [dropped]
    exact Nat.zero_le _

theorem ref_length (voutIndex : UInt32) {subObject : UInt32} (small : subObject.toNat < 128) :
    (render (cvdxfDataRef { voutIndex, objectNum := 0, subObject })).length = 63 :=
  (cvdxfDataRef_length_iff _).mpr ⟨Nat.zero_lt_succ 127, small⟩

theorem inner_length (voutIndex : UInt32) {subObject : UInt32} (small : subObject.toNat < 128)
    {label mimeType : Option String} (capLabel : utf8Length label ≤ 64)
    (capMime : utf8Length mimeType ≤ 128) :
    (render (descriptor (innerCdd voutIndex subObject label mimeType))).length ≤ 300 := by
  have one : (varint 1).length = 1 := by decide
  have flags : (varint (calcFlags (innerCdd voutIndex subObject label mimeType)).toUInt64).length
      ≤ 5 := varint_length 4 (by
    have := (calcFlags (innerCdd voutIndex subObject label mimeType)).toNat_lt
    rw [UInt32.toNat_toUInt64]
    omega)
  have ref := varBytes_length_le (render (cvdxfDataRef { voutIndex, objectNum := 0, subObject }))
  have l := optionalBytes_length_le label
  have m := optionalBytes_length_le mimeType
  rw [ref_length voutIndex small] at ref
  rw [inner_shape, render_cons, render_cons, render_append, render_append]
  simp only [List.length_append, Field.bytes, one]
  omega

theorem outerPlaintext_length (voutIndex : UInt32) {subObject : UInt32}
    (small : subObject.toNat < 128) {label mimeType : Option String}
    (capLabel : utf8Length label ≤ 64) (capMime : utf8Length mimeType ≤ 128) :
    (outerPlaintext voutIndex subObject label mimeType).length ≤ 400 := by
  have inner := inner_length voutIndex small capLabel capMime
  have tag := compactSizeLen_le (UInt64.ofNat
    (render (descriptor (innerCdd voutIndex subObject label mimeType))).length).toNat
  rw [outerPlaintext, frame_length]
  omega

end CmmEncrypt.Shapes
