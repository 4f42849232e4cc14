import CmmEncrypt.CompactSize
import CmmEncrypt.DataRef
import CmmEncrypt.Descriptor
import CmmEncrypt.Exactness

/-!
# Writing again what was read

The readers refuse every encoding but one, so a value that was read is written back
byte for byte, whoever wrote it first. For descriptors this holds of what the writer
can produce at all: known flags, no empty field, a version other than zero.
-/

namespace CmmEncrypt.Reserialization

open Cursor Exactness Wire WireCodec Layout Varint CompactSize Vdxf DataRef Descriptor

/-! ## Single fields -/

theorem readVarint_exact : Exact readVarint varint := by
  refine Exact.mapError _ ?_
  intro buf c n c' h
  obtain ⟨⟨rest, split⟩, rfl⟩ := (readVarintU64_ok_iff buf c n c').mp h
  change buf.drop c = writeVarintU64 [] n ++ _
  rw [← List.drop_drop, ← split, List.drop_left]

theorem readLength_exact : Exact readLength compactSize := by
  refine Exact.mapError _ ?_
  intro buf c n c' h
  obtain ⟨_, ⟨rest, split⟩, rfl⟩ := (readCompactSize_ok_iff buf c n c').mp h
  rw [← List.drop_drop, ← split, List.drop_left]

theorem readVarBytes_exact : Exact readVarBytes (fun bytes => render (varBytes bytes)) := by
  intro buf c bytes c' h
  obtain ⟨n, c₁, length, h⟩ := Reader.bind_ok h
  have size := (Reader.take_ok h).2.1
  have body := Exact.take _ _ buf c₁ bytes c' h
  have written : UInt64.ofNat bytes.length = n := by
    rw [size, UInt64.ofNat_toNat]
  rw [readLength_exact buf c n c₁ length, body, ← written]
  simp only [varBytes, render_cons, render_nil, Field.bytes, id, List.append_nil,
    List.append_assoc]

theorem readLimitedString_exact (cap : Nat) :
    Exact (readLimitedString cap) (fun bytes => render (varBytes bytes)) := by
  intro buf c bytes c' h
  obtain ⟨read, c₁, body, h⟩ := Reader.bind_ok h
  split at h
  · cases h
  · obtain ⟨rfl, rfl⟩ := Reader.pure_ok h
    exact readVarBytes_exact buf c read c₁ body

theorem readVarintU32_exact : Exact readVarintU32 (fun n => varint n.toUInt64) := by
  intro buf c n c' h
  obtain ⟨m, c₁, read, h⟩ := Reader.bind_ok h
  obtain ⟨_, c₂, small, h⟩ := Reader.bind_ok h
  obtain ⟨fits, rfl⟩ := require_ok small
  obtain ⟨rfl, rfl⟩ := Reader.pure_ok h
  have back : m.toUInt32.toUInt64 = m := by
    rw [← UInt64.toNat_inj, UInt32.toNat_toUInt64, UInt64.toNat_toUInt32, Nat.mod_eq_of_lt fits]
  change buf.drop c = varint m.toUInt32.toUInt64 ++ _
  rw [back]
  exact readVarint_exact buf c m c₁ read

theorem readByte_exact : Exact readByte (fun b => [b]) := by
  refine Exact.mapError _ ?_
  intro buf c b c' h
  obtain ⟨here, rfl⟩ := readU8_ok h
  exact here

/-- A number of fixed width. -/
theorem readLe_exact {α : Type} {k : Nat} {conv : Nat → α} {toNat : α → Nat}
    (back : ∀ n, n < 256 ^ k → toNat (conv n) = n) :
    Exact (Reader.mapError ReadError.wire (do
      let slice ← Reader.take WireError.unexpectedEof k
      pure (conv (ofLeBytes slice)))) (fun a => leBytes k (toNat a)) := by
  refine Exact.mapError _ ?_
  intro buf c a c' h
  obtain ⟨slice, c₁, taken, h⟩ := Reader.bind_ok h
  obtain ⟨rfl, rfl⟩ := Reader.pure_ok h
  have small := ofLeBytes_lt slice
  have block := leBytes_ofLeBytes slice
  rw [(Reader.take_ok taken).2.1] at small block
  dsimp only
  rw [back _ small, block]
  exact Exact.take _ _ buf c slice c₁ taken

theorem readU16_exact : Exact readU16 (fun n => leBytes 2 n.toNat) :=
  readLe_exact fun _ small => UInt16.toNat_ofNat'.trans (Nat.mod_eq_of_lt small)

theorem readU32_exact : Exact readU32 (fun n => leBytes 4 n.toNat) :=
  readLe_exact fun _ small => UInt32.toNat_ofNat'.trans (Nat.mod_eq_of_lt small)

/-! ## Frames and references -/

theorem readFrame_exact :
    Exact readFrame (fun f => f.key ++ (varint f.version ++ render (varBytes f.data))) := by
  intro buf c f c' h
  obtain ⟨key, c₁, hkey, h⟩ := Reader.bind_ok h
  obtain ⟨version, c₂, hversion, h⟩ := Reader.bind_ok h
  obtain ⟨data, c₃, hdata, h⟩ := Reader.bind_ok h
  obtain ⟨rfl, rfl⟩ := Reader.pure_ok h
  rw [Exact.take _ 20 buf c key c₁ hkey, readVarint_exact buf c₁ version c₂ hversion,
    readVarBytes_exact buf c₂ data c₃ hdata]
  simp only [id, List.append_assoc]

/-- A frame that is unwrapped is the frame that `write_cvdxf_data` writes around its body. -/
theorem unwrapFrame_exact (key : ByteArr 20) :
    Exact (unwrapFrame key) (fun data => render (frame key 1 data)) := by
  intro buf c data c' h
  change buf.drop c = render (frame key 1 data) ++ buf.drop c'
  obtain ⟨f, c₁, read, h⟩ := Reader.bind_ok h
  obtain ⟨_, c₂, hkey, h⟩ := Reader.bind_ok h
  obtain ⟨_, c₃, hversion, h⟩ := Reader.bind_ok h
  obtain ⟨sameKey, rfl⟩ := require_ok hkey
  obtain ⟨sameVersion, rfl⟩ := require_ok hversion
  obtain ⟨rfl, rfl⟩ := Reader.pure_ok h
  have one : UInt32.toUInt64 1 = 1 := rfl
  have exact := readFrame_exact buf c f c₁ read
  dsimp only at exact
  rw [sameKey, sameVersion] at exact
  rw [exact, frame, render_cons, render_cons, Field.bytes, Field.bytes, one]

theorem readCrossChainDataRef_exact :
    Exact readCrossChainDataRef (fun ptr => render (crossChainDataRef ptr)) := by
  intro buf c ptr c' h
  obtain ⟨tag, c₁, htag, h⟩ := Reader.bind_ok h
  obtain ⟨_, c₂, known, h⟩ := Reader.bind_ok h
  obtain ⟨rfl, rfl⟩ := require_ok known
  obtain ⟨version, c₃, hversion, h⟩ := Reader.bind_ok h
  obtain ⟨_, c₄, known, h⟩ := Reader.bind_ok h
  obtain ⟨rfl, rfl⟩ := require_ok known
  obtain ⟨flags, c₅, hflags, h⟩ := Reader.bind_ok h
  obtain ⟨_, c₆, known, h⟩ := Reader.bind_ok h
  obtain ⟨rfl, rfl⟩ := require_ok known
  obtain ⟨hash, c₇, hhash, h⟩ := Reader.bind_ok h
  obtain ⟨_, c₈, known, h⟩ := Reader.bind_ok h
  obtain ⟨rfl, rfl⟩ := require_ok known
  obtain ⟨voutIndex, c₉, hvout, h⟩ := Reader.bind_ok h
  obtain ⟨objectNum, c₁₀, hobject, h⟩ := Reader.bind_ok h
  obtain ⟨subObject, c₁₁, hsub, h⟩ := Reader.bind_ok h
  obtain ⟨rfl, rfl⟩ := Reader.pure_ok h
  rw [Exact.take _ 1 buf c _ c₁ htag, readVarint_exact buf c₁ 1 c₃ hversion,
    readVarint_exact buf c₃ _ c₅ hflags, Exact.take _ 32 buf c₅ _ c₇ hhash,
    readU32_exact buf c₇ voutIndex c₉ hvout,
    readVarintU32_exact buf c₉ objectNum c₁₀ hobject,
    readVarintU32_exact buf c₁₀ subObject c₁₁ hsub]
  simp only [crossChainDataRef, render_cons, render_nil, Field.bytes, id, List.append_assoc,
    List.append_nil]

theorem readCvdxfDataRef_exact :
    Exact readCvdxfDataRef (fun ptr => render (cvdxfDataRef ptr)) := by
  intro buf c ptr c' h
  change buf.drop c = render (cvdxfDataRef ptr) ++ buf.drop c'
  obtain ⟨body, c₁, framed, h⟩ := Reader.bind_ok h
  rw [Reader.within] at h
  split at h
  · rename_i inner read
    cases h
    rw [unwrapFrame_exact _ buf c body _ framed, readCrossChainDataRef_exact.toEnd read,
      cvdxfDataRef]
  · cases h

/-- The bytes that are read as a reference are those the crate writes for it, and no others. -/
theorem dataRef_read_iff (bytes : Bytes) (ptr : SelfRefPointer) :
    Reader.toEnd .leftover readCvdxfDataRef bytes = .ok ptr ↔
      bytes = writeCvdxfDataRefSelfRef [] ptr := by
  rw [writeCvdxfDataRefSelfRef_render, List.nil_append]
  exact readCvdxfDataRef_exact.toEnd_iff (readCvdxfDataRef_decodes ptr)

/-! ## Descriptors -/

/-- The bytes of a descriptor as read. -/
def encoding (cdd : CDataDescriptor) : Bytes :=
  varint cdd.version ++ (varint cdd.flags ++ (cdd.vdxfKey.elim [] id ++
    (render (varBytes cdd.objectData) ++ (render (optionalBytes cdd.label) ++
    (render (optionalBytes cdd.mimeType) ++ (render (optionalBytes cdd.salt) ++
    (render (optionalBytes cdd.epk) ++ (render (optionalBytes cdd.ivk) ++
    render (optionalBytes cdd.ssk)))))))))

/-- An optional field of the format: there exactly when its flag is set. -/
theorem gatedBy_ok {α : Type} {flags : UInt64} {bit : UInt32} {rd : Read α} {buf : Bytes}
    {c c' : Nat} {o : Option α} (h : gatedBy flags bit rd buf c = .ok (o, c')) :
    (flags &&& bit.toUInt64 ≠ 0 ↔ o.isSome) ∧
      ∀ a, o = some a → rd buf c = .ok (a, c') := by
  rw [gatedBy, Reader.gated] at h
  split at h
  · rename_i set
    obtain ⟨a, c₁, read, h⟩ := Reader.bind_ok h
    obtain ⟨rfl, rfl⟩ := Reader.pure_ok h
    refine ⟨iff_of_true set rfl, ?_⟩
    rintro _ ⟨⟩
    exact read
  · rename_i unset
    obtain ⟨rfl, rfl⟩ := Reader.pure_ok h
    refine ⟨iff_of_false unset Bool.false_ne_true, ?_⟩
    intro a absent
    cases absent

theorem gatedBy_exact {flags : UInt64} {bit : UInt32} {rd : Read Bytes}
    (exact : Exact rd (fun bytes => render (varBytes bytes))) :
    Exact (gatedBy flags bit rd) (fun o => render (optionalBytes o)) := by
  intro buf c o c' h
  rw [gatedBy] at h
  have whole := exact.gated buf c o c' h
  cases o with
  | none => exact whole
  | some bytes => exact whole

/-- What reading a descriptor checks. -/
structure Checked (cdd : CDataDescriptor) : Prop where
  vdxfKey : cdd.flags &&& FLAG_VDXF_KEY_PRESENT.toUInt64 ≠ 0 ↔ cdd.vdxfKey.isSome
  label : cdd.flags &&& FLAG_LABEL_PRESENT.toUInt64 ≠ 0 ↔ cdd.label.isSome
  mimeType : cdd.flags &&& FLAG_MIME_TYPE_PRESENT.toUInt64 ≠ 0 ↔ cdd.mimeType.isSome
  salt : cdd.flags &&& FLAG_SALT_PRESENT.toUInt64 ≠ 0 ↔ cdd.salt.isSome
  epk : cdd.flags &&& FLAG_ENCRYPTION_PUBLIC_KEY_PRESENT.toUInt64 ≠ 0 ↔ cdd.epk.isSome
  ivk : cdd.flags &&& FLAG_INCOMING_VIEWING_KEY_PRESENT.toUInt64 ≠ 0 ↔ cdd.ivk.isSome
  ssk : cdd.flags &&& FLAG_SYMMETRIC_ENCRYPTION_KEY_PRESENT.toUInt64 ≠ 0 ↔ cdd.ssk.isSome
  keyLength : ∀ key, cdd.vdxfKey = some key → key.length = 20
  labelLength : ∀ label, cdd.label = some label → label.length ≤ 64
  mimeTypeLength : ∀ mimeType, cdd.mimeType = some mimeType → mimeType.length ≤ 128
  lengths : ∀ field ∈ [some cdd.objectData, cdd.salt, cdd.epk, cdd.ivk, cdd.ssk],
    ∀ bytes, field = some bytes → bytes.length ≤ MAX_SIZE.toNat

theorem readVarBytes_length {buf bytes : Bytes} {c c' : Nat}
    (h : readVarBytes buf c = .ok (bytes, c')) : bytes.length ≤ MAX_SIZE.toNat := by
  obtain ⟨n, c₁, length, h⟩ := Reader.bind_ok h
  rw [readLength, Reader.mapError] at length
  split at length
  · rename_i out read
    cases length
    have small := ((readCompactSize_ok_iff buf c n c₁).mp read).1
    rw [(Reader.take_ok h).2.1]
    exact UInt64.le_iff_toNat_le.mp small
  · cases length

theorem readLimitedString_length {cap : Nat} {buf bytes : Bytes} {c c' : Nat}
    (h : readLimitedString cap buf c = .ok (bytes, c')) : bytes.length ≤ cap := by
  obtain ⟨read, c₁, _, h⟩ := Reader.bind_ok h
  split at h
  · cases h
  · rename_i short
    obtain ⟨rfl, _⟩ := Reader.pure_ok h
    exact Nat.not_lt.mp short

/-- A descriptor that is read stands there in its own encoding, and its fields are those its
flags name. -/
theorem readDataDescriptor_exact {buf : Bytes} {c c' : Nat} {cdd : CDataDescriptor}
    (h : readDataDescriptor buf c = .ok (cdd, c')) :
    buf.drop c = encoding cdd ++ buf.drop c' ∧ Checked cdd := by
  obtain ⟨version, c₁, hversion, h⟩ := Reader.bind_ok h
  obtain ⟨flags, c₂, hflags, h⟩ := Reader.bind_ok h
  obtain ⟨vdxfKey, c₃, hkey, h⟩ := Reader.bind_ok h
  obtain ⟨objectData, c₄, hobject, h⟩ := Reader.bind_ok h
  obtain ⟨label, c₅, hlabel, h⟩ := Reader.bind_ok h
  obtain ⟨mimeType, c₆, hmime, h⟩ := Reader.bind_ok h
  obtain ⟨salt, c₇, hsalt, h⟩ := Reader.bind_ok h
  obtain ⟨epk, c₈, hepk, h⟩ := Reader.bind_ok h
  obtain ⟨ivk, c₉, hivk, h⟩ := Reader.bind_ok h
  obtain ⟨ssk, c₁₀, hssk, h⟩ := Reader.bind_ok h
  obtain ⟨rfl, rfl⟩ := Reader.pure_ok h
  constructor
  · have key := hkey
    rw [gatedBy] at key
    rw [readVarint_exact buf c version c₁ hversion, readVarint_exact buf c₁ flags c₂ hflags,
      (Exact.take _ 20).gated buf c₂ vdxfKey c₃ key,
      readVarBytes_exact buf c₃ objectData c₄ hobject,
      gatedBy_exact (readLimitedString_exact 64) buf c₄ label c₅ hlabel,
      gatedBy_exact (readLimitedString_exact 128) buf c₅ mimeType c₆ hmime,
      gatedBy_exact readVarBytes_exact buf c₆ salt c₇ hsalt,
      gatedBy_exact readVarBytes_exact buf c₇ epk c₈ hepk,
      gatedBy_exact readVarBytes_exact buf c₈ ivk c₉ hivk,
      gatedBy_exact readVarBytes_exact buf c₉ ssk c₁₀ hssk]
    simp only [encoding, List.append_assoc]
  · constructor
    · exact (gatedBy_ok hkey).1
    · exact (gatedBy_ok hlabel).1
    · exact (gatedBy_ok hmime).1
    · exact (gatedBy_ok hsalt).1
    · exact (gatedBy_ok hepk).1
    · exact (gatedBy_ok hivk).1
    · exact (gatedBy_ok hssk).1
    · exact fun key present => (Reader.take_ok ((gatedBy_ok hkey).2 key present)).2.1
    · exact fun bytes present => readLimitedString_length ((gatedBy_ok hlabel).2 bytes present)
    · exact fun bytes present => readLimitedString_length ((gatedBy_ok hmime).2 bytes present)
    · simp only [List.forall_mem_cons, List.not_mem_nil, false_implies, implies_true, and_true]
      refine ⟨?_, ?_, ?_, ?_, ?_⟩
      · rintro bytes ⟨⟩
        exact readVarBytes_length hobject
      · exact fun bytes present => readVarBytes_length ((gatedBy_ok hsalt).2 bytes present)
      · exact fun bytes present => readVarBytes_length ((gatedBy_ok hepk).2 bytes present)
      · exact fun bytes present => readVarBytes_length ((gatedBy_ok hivk).2 bytes present)
      · exact fun bytes present => readVarBytes_length ((gatedBy_ok hssk).2 bytes present)

/-! ## What the writer can produce -/

theorem flag_iff_testBit {flags bit : UInt32} {i : Nat} (one : bit.toNat = 2 ^ i) :
    flags &&& bit ≠ 0 ↔ flags.toNat.testBit i = true := by
  rw [ne_eq, ← UInt32.toNat_inj, UInt32.toNat_and, one, Nat.and_two_pow]
  cases flags.toNat.testBit i <;> simp

/-- Flag words without unknown bits that name the same fields are equal. -/
theorem FlagsName.unique {dd : DataDescriptor} {f g : UInt32} (hf : FlagsName f dd)
    (hg : FlagsName g dd) (knownF : f.toNat < 2 ^ 8) (knownG : g.toNat < 2 ^ 8) : f = g := by
  have each {bit : UInt32} {p : Prop} (i : Nat) (one : bit.toNat = 2 ^ i)
      (first : f &&& bit ≠ 0 ↔ p)
      (second : g &&& bit ≠ 0 ↔ p) : f.toNat.testBit i = g.toNat.testBit i := by
    rw [Bool.eq_iff_iff, ← flag_iff_testBit one, ← flag_iff_testBit one, first, second]
  apply UInt32.toNat_inj.mp
  apply Nat.eq_of_testBit_eq
  intro i
  match i with
  | 0 => exact each 0 rfl hf.encrypted hg.encrypted
  | 1 => exact each 1 rfl hf.salt hg.salt
  | 2 => exact each 2 rfl hf.epk hg.epk
  | 3 => exact each 3 rfl hf.ivk hg.ivk
  | 4 => exact each 4 rfl hf.ssk hg.ssk
  | 5 => exact each 5 rfl hf.label hg.label
  | 6 => exact each 6 rfl hf.mimeType hg.mimeType
  | 7 => exact each 7 rfl hf.vdxfKey hg.vdxfKey
  | i + 8 =>
    have above : 2 ^ 8 ≤ 2 ^ (i + 8) := Nat.pow_le_pow_right (by decide) (by omega)
    rw [Nat.testBit_lt_two_pow (by omega), Nat.testBit_lt_two_pow (by omega)]

theorem calcFlags_known (dd : DataDescriptor) : (calcFlags dd).toNat < 2 ^ 8 := by
  have all : ∀ e k l m s p i y : Bool,
      (let f : UInt32 := 0
       let f := if e then f ||| FLAG_ENCRYPTED_DATA else f
       let f := if k then f ||| FLAG_VDXF_KEY_PRESENT else f
       let f := if l then f ||| FLAG_LABEL_PRESENT else f
       let f := if m then f ||| FLAG_MIME_TYPE_PRESENT else f
       let f := if s then f ||| FLAG_SALT_PRESENT else f
       let f := if p then f ||| FLAG_ENCRYPTION_PUBLIC_KEY_PRESENT else f
       let f := if i then f ||| FLAG_INCOMING_VIEWING_KEY_PRESENT else f
       if y then f ||| FLAG_SYMMETRIC_ENCRYPTION_KEY_PRESENT else f).toNat < 2 ^ 8 := by decide
  exact all _ _ _ _ _ _ _ _

/-- A descriptor as read that the writer can have written. -/
structure Reproducible (cdd : CDataDescriptor) : Prop where
  version : 0 < cdd.version.toNat ∧ cdd.version.toNat < 2 ^ 32
  known : cdd.flags.toNat < 2 ^ 8
  nonempty : ∀ field ∈ [cdd.label, cdd.mimeType, cdd.salt, cdd.epk, cdd.ivk, cdd.ssk],
    field ≠ some []
  utf8 : ∀ field ∈ [cdd.label, cdd.mimeType], ∃ text : Option String, text.map asBytes = field

theorem content_ne (b : Option Bytes) : content b ≠ some [] := by
  rcases isNonemptyBytes_cases b with ⟨v, rfl, nonempty, _, kept⟩ | ⟨_, dropped⟩
  · rw [kept]
    exact fun same => nonempty (Option.some.inj same)
  · rw [dropped]
    exact nofun

theorem contentStr_ne (s : Option String) : (contentStr s).map asBytes ≠ some [] := by
  rcases isNonemptyStr_cases s with ⟨v, rfl, nonempty, _, kept⟩ | ⟨_, dropped, _⟩
  · rw [kept]
    intro same
    have blank : v = "" := asBytes_inj (Option.some.inj same)
    rw [blank] at nonempty
    exact absurd nonempty (by decide)
  · rw [dropped]
    exact nofun

/-- Whatever is written is reproducible. -/
theorem received_reproducible (dd : DataDescriptor) : Reproducible (received dd) where
  version := by
    have fits := (Descriptor.normalize dd).version.toNat_lt
    change 0 < (Descriptor.normalize dd).version.toUInt64.toNat ∧ _
    rw [UInt32.toNat_toUInt64]
    refine ⟨?_, fits⟩
    rw [Descriptor.normalize, Nat.pos_iff_ne_zero]
    dsimp only
    split
    · decide
    · rename_i nonzero
      exact fun zero => nonzero (UInt32.toNat_inj.mp zero)
  known := by
    change (calcFlags dd).toUInt64.toNat < _
    rw [UInt32.toNat_toUInt64]
    exact calcFlags_known dd
  nonempty := by
    simp only [received, List.forall_mem_cons, content_ne, contentStr_ne, ne_eq, not_false_eq_true,
      List.not_mem_nil, false_implies, implies_true, and_true]
  utf8 := by
    simp only [received, List.forall_mem_cons, List.not_mem_nil, false_implies, implies_true,
      and_true]
    exact ⟨⟨_, rfl⟩, ⟨_, rfl⟩⟩

/-- The descriptor to hand to the writer for one that was read, its strings decoded. -/
def rewritten (cdd : CDataDescriptor) (label mimeType : Option String) : DataDescriptor where
  encrypted := cdd.encrypted
  vdxfKey := cdd.vdxfKey.bind fun key =>
    if size : key.length = 20 then some ⟨key, size⟩ else none
  objectData := cdd.objectData
  label := label
  mimeType := mimeType
  salt := cdd.salt
  epk := cdd.epk
  ivk := cdd.ivk
  ssk := cdd.ssk
  version := cdd.version.toUInt32

theorem content_eq {b : Option Bytes} (nonempty : b ≠ some []) :
    content b = b ∧ (isNonemptyBytes b = b.isSome) := by
  match b with
  | none => exact ⟨rfl, rfl⟩
  | some [] => exact absurd rfl nonempty
  | some (x :: xs) => exact ⟨rfl, rfl⟩

theorem contentStr_eq {s : Option String} (nonempty : s.map asBytes ≠ some []) :
    contentStr s = s ∧ isNonemptyStr s = (s.map asBytes).isSome := by
  rcases isNonemptyStr_cases s with ⟨v, rfl, _, set, kept⟩ | ⟨unset, dropped, zero⟩
  · exact ⟨kept, set⟩
  · cases s with
    | none => exact ⟨rfl, rfl⟩
    | some v => exact absurd (congrArg some (List.length_eq_zero_iff.mp zero)) nonempty

/-- The writer's flags for a reproducible descriptor are those it was read with. -/
theorem rewritten_received {cdd : CDataDescriptor} (checked : Checked cdd)
    (reproducible : Reproducible cdd) {label mimeType : Option String}
    (hlabel : label.map asBytes = cdd.label) (hmime : mimeType.map asBytes = cdd.mimeType) :
    received (rewritten cdd label mimeType) = cdd := by
  obtain ⟨⟨positive, narrow⟩, known, nonempty, _⟩ := reproducible
  simp only [List.forall_mem_cons, List.not_mem_nil, false_implies, implies_true, and_true,
    ← hlabel, ← hmime] at nonempty
  obtain ⟨nlabel, nmime, nsalt, nepk, nivk, nssk⟩ := nonempty
  have widened : cdd.flags.toUInt32.toUInt64 = cdd.flags := by
    rw [← UInt64.toNat_inj, UInt32.toNat_toUInt64, UInt64.toNat_toUInt32]
    exact Nat.mod_eq_of_lt (Nat.lt_trans known (by decide))
  have flag (bit : UInt32) : cdd.flags.toUInt32 &&& bit ≠ 0 ↔ cdd.flags &&& bit.toUInt64 ≠ 0 := by
    rw [← widened_flag, widened]
  have key : (rewritten cdd label mimeType).vdxfKey.map List.Vector.toList = cdd.vdxfKey := by
    rw [rewritten]
    cases present : cdd.vdxfKey with
    | none => rfl
    | some key =>
      rw [Option.bind_some, dif_pos (checked.keyLength key present)]
      rfl
  have keySome : (rewritten cdd label mimeType).vdxfKey.isSome = cdd.vdxfKey.isSome := by
    rw [← key, Option.isSome_map]
  have names : FlagsName cdd.flags.toUInt32 (rewritten cdd label mimeType) := by
    constructor
    · rw [flag, rewritten, CDataDescriptor.encrypted, decide_eq_true_iff]
    · rw [flag, checked.vdxfKey, keySome]
    · rw [flag, checked.label, rewritten, (contentStr_eq nlabel).2, hlabel]
    · rw [flag, checked.mimeType, rewritten, (contentStr_eq nmime).2, hmime]
    · rw [flag, checked.salt, rewritten, (content_eq nsalt).2]
    · rw [flag, checked.epk, rewritten, (content_eq nepk).2]
    · rw [flag, checked.ivk, rewritten, (content_eq nivk).2]
    · rw [flag, checked.ssk, rewritten, (content_eq nssk).2]
  have narrowed : cdd.flags.toUInt32.toNat < 2 ^ 8 := by
    rw [← UInt32.toNat_toUInt64, widened]
    exact known
  have flags := FlagsName.unique (calcFlags_name _) names (calcFlags_known _) narrowed
  have version : (Descriptor.normalize (rewritten cdd label mimeType)).version =
      cdd.version.toUInt32 := by
    have nonzero : cdd.version.toUInt32 ≠ 0 := by
      rw [ne_eq, ← UInt32.toNat_inj, UInt64.toNat_toUInt32, Nat.mod_eq_of_lt narrow]
      exact positive.ne'
    rw [Descriptor.normalize, rewritten]
    exact if_neg nonzero
  have wide : cdd.version.toUInt32.toUInt64 = cdd.version := by
    rw [← UInt64.toNat_inj, UInt32.toNat_toUInt64, UInt64.toNat_toUInt32, Nat.mod_eq_of_lt narrow]
  rw [received, version, flags, wide, widened, key]
  simp only [rewritten, (contentStr_eq nlabel).1, (contentStr_eq nmime).1, (content_eq nsalt).1,
    (content_eq nepk).1, (content_eq nivk).1, (content_eq nssk).1, hlabel, hmime]

theorem descriptor_encoding (dd : DataDescriptor) :
    render (descriptor dd) = encoding (received dd) := by
  have key : render (optionalKey dd.vdxfKey) = (dd.vdxfKey.map List.Vector.toList).elim [] id := by
    cases dd.vdxfKey with
    | none => rfl
    | some key => simp only [optionalKey, Option.elim_some, Option.map_some, render_cons,
        render_nil, Field.bytes, List.append_nil, id]
  simp only [descriptor, render_cons, render_append, Field.bytes, key, encoding, received]

theorem rewritten_withinCaps {cdd : CDataDescriptor} (checked : Checked cdd)
    {label mimeType : Option String} (hlabel : label.map asBytes = cdd.label)
    (hmime : mimeType.map asBytes = cdd.mimeType) :
    WithinCaps (rewritten cdd label mimeType) := by
  have lengths := checked.lengths
  simp only [List.forall_mem_cons, List.not_mem_nil, false_implies, implies_true,
    and_true] at lengths
  obtain ⟨object, salt, epk, ivk, ssk⟩ := lengths
  have short {s : Option String} {field : Option Bytes} {cap : Nat}
      (same : s.map asBytes = field) (bound : ∀ b, field = some b → b.length ≤ cap) :
      utf8Length s ≤ cap := by
    cases s with
    | none => exact Nat.zero_le cap
    | some v => exact bound (asBytes v) same.symm
  exact ⟨⟨object _ rfl, salt, epk, ivk, ssk⟩, short hlabel checked.labelLength,
    short hmime checked.mimeTypeLength⟩

/-- A reproducible descriptor is written back byte for byte. -/
theorem rewritten_written {bytes : Bytes} {cdd : CDataDescriptor}
    (read : Reader.toEnd .leftover readDataDescriptor bytes = .ok cdd)
    (reproducible : Reproducible cdd) {label mimeType : Option String}
    (hlabel : label.map asBytes = cdd.label) (hmime : mimeType.map asBytes = cdd.mimeType) :
    WithinCaps (rewritten cdd label mimeType) ∧
      render (descriptor (rewritten cdd label mimeType)) = bytes := by
  obtain ⟨whole, checked⟩ := readDataDescriptor_exact (Reader.toEnd_ok read)
  rw [List.drop_zero, List.drop_length, List.append_nil] at whole
  refine ⟨rewritten_withinCaps checked hlabel hmime, ?_⟩
  rw [descriptor_encoding, rewritten_received checked reproducible hlabel hmime, whole]

/-- The byte strings that the writer can produce are those that are read as a reproducible
descriptor, and handing that descriptor to the writer produces them again. -/
theorem descriptor_reproduced_iff (bytes : Bytes) :
    ((∃ dd, WithinCaps dd ∧ writeDataDescriptor dd [] = .ok () bytes) ↔
      ∃ cdd, Reader.toEnd .leftover readDataDescriptor bytes = .ok cdd ∧ Reproducible cdd) ∧
    ∀ cdd label mimeType, Reader.toEnd .leftover readDataDescriptor bytes = .ok cdd →
      Reproducible cdd → label.map asBytes = cdd.label → mimeType.map asBytes = cdd.mimeType →
        writeDataDescriptor (rewritten cdd label mimeType) [] = .ok () bytes := by
  have again : ∀ cdd label mimeType, Reader.toEnd .leftover readDataDescriptor bytes = .ok cdd →
      Reproducible cdd → label.map asBytes = cdd.label → mimeType.map asBytes = cdd.mimeType →
        writeDataDescriptor (rewritten cdd label mimeType) [] = .ok () bytes := by
    intro cdd label mimeType read reproducible hlabel hmime
    obtain ⟨caps, written⟩ := rewritten_written read reproducible hlabel hmime
    rw [writeDataDescriptor_appends _ caps.label caps.mimeType, List.nil_append, written]
  refine ⟨⟨?_, ?_⟩, again⟩
  · rintro ⟨dd, caps, written⟩
    rw [writeDataDescriptor_appends dd caps.label caps.mimeType, List.nil_append] at written
    obtain rfl : render (descriptor dd) = bytes := by
      injection written
    exact ⟨received dd, (descriptor_decodes dd caps.label caps.mimeType caps.toFits).toEnd _,
      received_reproducible dd⟩
  · rintro ⟨cdd, read, reproducible⟩
    obtain ⟨label, hlabel⟩ := reproducible.utf8 cdd.label List.mem_cons_self
    obtain ⟨mimeType, hmime⟩ :=
      reproducible.utf8 cdd.mimeType (List.mem_cons_of_mem _ List.mem_cons_self)
    have caps := (rewritten_written read reproducible hlabel hmime).1
    exact ⟨_, caps, again cdd label mimeType read reproducible hlabel hmime⟩

end CmmEncrypt.Reserialization
