import CmmEncrypt.Vdxf

/-!
# CDataDescriptor (`data_descriptor.rs`)

The flags and the fields are computed by two functions that must agree bit by
bit. The layout of a descriptor names the optional fields that have content; both
functions are shown to follow it, and the flags-gated reader to invert it.
-/

namespace CmmEncrypt.Descriptor

open Cursor Wire WireCodec Layout

/-- `DEFAULT_VERSION`. -/
def DEFAULT_VERSION : UInt32 := 1

def FLAG_ENCRYPTED_DATA : UInt32 := 0x01
def FLAG_SALT_PRESENT : UInt32 := 0x02
def FLAG_ENCRYPTION_PUBLIC_KEY_PRESENT : UInt32 := 0x04
def FLAG_INCOMING_VIEWING_KEY_PRESENT : UInt32 := 0x08
def FLAG_SYMMETRIC_ENCRYPTION_KEY_PRESENT : UInt32 := 0x10
def FLAG_LABEL_PRESENT : UInt32 := 0x20
def FLAG_MIME_TYPE_PRESENT : UInt32 := 0x40
def FLAG_VDXF_KEY_PRESENT : UInt32 := 0x80

/-- The defaults are those of the derived `Default`. -/
structure DataDescriptor where
  encrypted : Bool := false
  vdxfKey : Option (ByteArr 20) := none
  objectData : Bytes := []
  label : Option String := none
  mimeType : Option String := none
  salt : Option Bytes := none
  epk : Option Bytes := none
  ivk : Option Bytes := none
  ssk : Option Bytes := none
  version : UInt32 := 0
  deriving DecidableEq

def isNonemptyStr (s : Option String) : Bool := s.elim false (fun v => !v.isEmpty)

def isNonemptyBytes (b : Option Bytes) : Bool := b.elim false (fun v => !v.isEmpty)

def calcFlags (dd : DataDescriptor) : UInt32 :=
  let f : UInt32 := 0
  let f := if dd.encrypted then f ||| FLAG_ENCRYPTED_DATA else f
  let f := if dd.vdxfKey.isSome then f ||| FLAG_VDXF_KEY_PRESENT else f
  let f := if isNonemptyStr dd.label then f ||| FLAG_LABEL_PRESENT else f
  let f := if isNonemptyStr dd.mimeType then f ||| FLAG_MIME_TYPE_PRESENT else f
  let f := if isNonemptyBytes dd.salt then f ||| FLAG_SALT_PRESENT else f
  let f := if isNonemptyBytes dd.epk then f ||| FLAG_ENCRYPTION_PUBLIC_KEY_PRESENT else f
  let f := if isNonemptyBytes dd.ivk then f ||| FLAG_INCOMING_VIEWING_KEY_PRESENT else f
  if isNonemptyBytes dd.ssk then f ||| FLAG_SYMMETRIC_ENCRYPTION_KEY_PRESENT else f

/-- A field written under `if flags & bit != 0`. -/
def whenFlag (flags bit : UInt32) (field : Write WireError Unit) : Write WireError Unit :=
  if flags &&& bit ≠ 0 then field else pure ()

def guarded : String := "guarded by flag bit"

def writeDataDescriptor (dd : DataDescriptor) : Write WireError Unit := do
  let version := if dd.version = 0 then DEFAULT_VERSION else dd.version
  let flags := calcFlags dd
  modify (writeVarintU64 · version.toUInt64)
  modify (writeVarintU64 · flags.toUInt64)
  whenFlag flags FLAG_VDXF_KEY_PRESENT do
    let key ← expect dd.vdxfKey guarded
    modify (· ++ key.toList)
  modify (writeVarBytes · dd.objectData)
  whenFlag flags FLAG_LABEL_PRESENT do
    let label ← expect dd.label guarded
    writeLimitedString label 64
  whenFlag flags FLAG_MIME_TYPE_PRESENT do
    let mimeType ← expect dd.mimeType guarded
    writeLimitedString mimeType 128
  whenFlag flags FLAG_SALT_PRESENT do
    let salt ← expect dd.salt guarded
    modify (writeVarBytes · salt)
  whenFlag flags FLAG_ENCRYPTION_PUBLIC_KEY_PRESENT do
    let epk ← expect dd.epk guarded
    modify (writeVarBytes · epk)
  whenFlag flags FLAG_INCOMING_VIEWING_KEY_PRESENT do
    let ivk ← expect dd.ivk guarded
    modify (writeVarBytes · ivk)
  whenFlag flags FLAG_SYMMETRIC_ENCRYPTION_KEY_PRESENT do
    let ssk ← expect dd.ssk guarded
    modify (writeVarBytes · ssk)

/-! ## The flags name the fields with content -/

/-- Each of the eight bits is set by its own condition and by no other. -/
theorem calcFlags_bits (e k l m s p i y : Bool) :
    let f : UInt32 := 0
    let f := if e then f ||| FLAG_ENCRYPTED_DATA else f
    let f := if k then f ||| FLAG_VDXF_KEY_PRESENT else f
    let f := if l then f ||| FLAG_LABEL_PRESENT else f
    let f := if m then f ||| FLAG_MIME_TYPE_PRESENT else f
    let f := if s then f ||| FLAG_SALT_PRESENT else f
    let f := if p then f ||| FLAG_ENCRYPTION_PUBLIC_KEY_PRESENT else f
    let f := if i then f ||| FLAG_INCOMING_VIEWING_KEY_PRESENT else f
    let f := if y then f ||| FLAG_SYMMETRIC_ENCRYPTION_KEY_PRESENT else f
    (f &&& FLAG_ENCRYPTED_DATA ≠ 0 ↔ e) ∧ (f &&& FLAG_VDXF_KEY_PRESENT ≠ 0 ↔ k) ∧
    (f &&& FLAG_LABEL_PRESENT ≠ 0 ↔ l) ∧ (f &&& FLAG_MIME_TYPE_PRESENT ≠ 0 ↔ m) ∧
    (f &&& FLAG_SALT_PRESENT ≠ 0 ↔ s) ∧ (f &&& FLAG_ENCRYPTION_PUBLIC_KEY_PRESENT ≠ 0 ↔ p) ∧
    (f &&& FLAG_INCOMING_VIEWING_KEY_PRESENT ≠ 0 ↔ i) ∧
    (f &&& FLAG_SYMMETRIC_ENCRYPTION_KEY_PRESENT ≠ 0 ↔ y) := by
  revert e k l m s p i y
  decide

/-- Which bits a flag word names, field by field. -/
structure FlagsName (flags : UInt32) (dd : DataDescriptor) : Prop where
  encrypted : flags &&& FLAG_ENCRYPTED_DATA ≠ 0 ↔ dd.encrypted
  vdxfKey : flags &&& FLAG_VDXF_KEY_PRESENT ≠ 0 ↔ dd.vdxfKey.isSome
  label : flags &&& FLAG_LABEL_PRESENT ≠ 0 ↔ isNonemptyStr dd.label
  mimeType : flags &&& FLAG_MIME_TYPE_PRESENT ≠ 0 ↔ isNonemptyStr dd.mimeType
  salt : flags &&& FLAG_SALT_PRESENT ≠ 0 ↔ isNonemptyBytes dd.salt
  epk : flags &&& FLAG_ENCRYPTION_PUBLIC_KEY_PRESENT ≠ 0 ↔ isNonemptyBytes dd.epk
  ivk : flags &&& FLAG_INCOMING_VIEWING_KEY_PRESENT ≠ 0 ↔ isNonemptyBytes dd.ivk
  ssk : flags &&& FLAG_SYMMETRIC_ENCRYPTION_KEY_PRESENT ≠ 0 ↔ isNonemptyBytes dd.ssk

theorem calcFlags_name (dd : DataDescriptor) : FlagsName (calcFlags dd) dd := by
  obtain ⟨e, k, l, m, s, p, i, y⟩ := calcFlags_bits dd.encrypted dd.vdxfKey.isSome
    (isNonemptyStr dd.label) (isNonemptyStr dd.mimeType) (isNonemptyBytes dd.salt)
    (isNonemptyBytes dd.epk) (isNonemptyBytes dd.ivk) (isNonemptyBytes dd.ssk)
  exact ⟨e, k, l, m, s, p, i, y⟩

/-! ## Layout -/

/-- The content of an optional field; an empty one has none. -/
def contentStr (s : Option String) : Option String := s.filter (fun v => !v.isEmpty)

def content (b : Option Bytes) : Option Bytes := b.filter (fun v => !v.isEmpty)

/-- The descriptor a reader can hope to see: empty fields absent, version 0 read as 1. -/
def normalize (dd : DataDescriptor) : DataDescriptor where
  encrypted := dd.encrypted
  vdxfKey := dd.vdxfKey
  objectData := dd.objectData
  label := contentStr dd.label
  mimeType := contentStr dd.mimeType
  salt := content dd.salt
  epk := content dd.epk
  ivk := content dd.ivk
  ssk := content dd.ssk
  version := if dd.version = 0 then DEFAULT_VERSION else dd.version

def optionalBytes (b : Option Bytes) : List Field := b.elim [] varBytes

def optionalKey (key : Option (ByteArr 20)) : List Field := key.elim [] (fun k => [.raw k.toList])

def descriptor (dd : DataDescriptor) : List Field :=
  .varint (normalize dd).version.toUInt64 :: .varint (calcFlags dd).toUInt64 ::
    (optionalKey dd.vdxfKey ++ (varBytes dd.objectData ++
      (optionalBytes ((contentStr dd.label).map asBytes) ++
      (optionalBytes ((contentStr dd.mimeType).map asBytes) ++
      (optionalBytes (content dd.salt) ++ (optionalBytes (content dd.epk) ++
      (optionalBytes (content dd.ivk) ++ optionalBytes (content dd.ssk))))))))

/-- `len()` of an optional string, 0 when there is none. -/
def utf8Length (s : Option String) : Nat := s.elim 0 (fun v => (asBytes v).length)

theorem isNonemptyBytes_cases (b : Option Bytes) :
    (∃ v, b = some v ∧ v ≠ [] ∧ isNonemptyBytes b = true ∧ content b = some v) ∨
      (isNonemptyBytes b = false ∧ content b = none) := by
  cases b with
  | none => exact .inr ⟨rfl, rfl⟩
  | some v =>
    cases v with
    | nil => exact .inr ⟨rfl, rfl⟩
    | cons x xs => exact .inl ⟨x :: xs, rfl, List.cons_ne_nil x xs, rfl, rfl⟩

theorem isNonemptyStr_cases (s : Option String) :
    (∃ v, s = some v ∧ v.isEmpty = false ∧ isNonemptyStr s = true ∧ contentStr s = some v) ∨
      (isNonemptyStr s = false ∧ contentStr s = none ∧ utf8Length s = 0) := by
  cases s with
  | none => exact .inr ⟨rfl, rfl, rfl⟩
  | some v =>
    cases empty : v.isEmpty with
    | false => exact .inl ⟨v, rfl, empty, by simp [isNonemptyStr, empty],
        by simp [contentStr, empty]⟩
    | true =>
      have blank : v = "" := by simpa using empty
      subst blank
      exact .inr ⟨by simp [isNonemptyStr], by simp [contentStr], rfl⟩

theorem whenFlag_open {flags bit : UInt32} {w : Write WireError Unit} {xs : List Field}
    (set : flags &&& bit ≠ 0) (h : Appends w xs) : Appends (whenFlag flags bit w) xs := by
  rw [whenFlag, if_pos set]
  exact h

theorem whenFlag_shut {flags bit : UInt32} (w : Write WireError Unit)
    (unset : ¬ flags &&& bit ≠ 0) : Appends (whenFlag flags bit w) [] := by
  rw [whenFlag, if_neg unset]
  exact appends_nothing

/-- A byte field is written iff it has content; `expect` never panics behind its flag. -/
theorem bytesField_appends {flags bit : UInt32} {b : Option Bytes}
    (gate : flags &&& bit ≠ 0 ↔ isNonemptyBytes b) :
    Appends (whenFlag flags bit (do
      let v ← expect b guarded
      modify (writeVarBytes · v))) (optionalBytes (content b)) := by
  rcases isNonemptyBytes_cases b with ⟨v, rfl, _, nonempty, kept⟩ | ⟨empty, dropped⟩
  · rw [kept]
    exact whenFlag_open (gate.mpr nonempty)
      (appends_modify (fun buf => writeVarBytes_render buf v))
  · rw [dropped]
    exact whenFlag_shut _ (by rw [gate, empty]; exact Bool.false_ne_true)

theorem stringField_appends {flags bit : UInt32} {s : Option String} {cap : Nat}
    (gate : flags &&& bit ≠ 0 ↔ isNonemptyStr s) (short : utf8Length s ≤ cap) :
    Appends (whenFlag flags bit (do
      let v ← expect s guarded
      writeLimitedString v cap)) (optionalBytes ((contentStr s).map asBytes)) := by
  rcases isNonemptyStr_cases s with ⟨v, rfl, _, nonempty, kept⟩ | ⟨empty, dropped, _⟩
  · rw [kept]
    exact whenFlag_open (gate.mpr nonempty) (writeLimitedString_appends short)
  · rw [dropped]
    exact whenFlag_shut _ (by rw [gate, empty]; exact Bool.false_ne_true)

/-- A string over its cap has content, so its flag is set and the write is refused. -/
theorem stringField_fails {flags bit : UInt32} {s : Option String} {cap : Nat}
    (gate : flags &&& bit ≠ 0 ↔ isNonemptyStr s) (long : cap < utf8Length s) :
    FailsAfter (whenFlag flags bit (do
      let v ← expect s guarded
      writeLimitedString v cap)) [] (.error (.limitedStringTooLong cap (utf8Length s))) := by
  rcases isNonemptyStr_cases s with ⟨v, rfl, _, nonempty, _⟩ | ⟨_, _, zero⟩
  · rw [whenFlag, if_pos (gate.mpr nonempty)]
    exact writeLimitedString_fails long
  · omega

theorem keyField_appends {flags bit : UInt32} {key : Option (ByteArr 20)}
    (gate : flags &&& bit ≠ 0 ↔ key.isSome) :
    Appends (whenFlag flags bit (do
      let k ← expect key guarded
      modify (· ++ k.toList))) (optionalKey key) := by
  cases key with
  | none => exact whenFlag_shut _ (by rw [gate]; exact Bool.false_ne_true)
  | some k =>
    refine whenFlag_open (gate.mpr rfl) (appends_modify (fun buf => ?_))
    rw [optionalKey, Option.elim_some, render_cons, render_nil, List.append_nil, Field.bytes]

theorem writeDataDescriptor_appends (dd : DataDescriptor) (label : utf8Length dd.label ≤ 64)
    (mimeType : utf8Length dd.mimeType ≤ 128) :
    Appends (writeDataDescriptor dd) (descriptor dd) := by
  have names := calcFlags_name dd
  refine appends_then (appends_varint _) ?_
  refine appends_then (appends_varint _) ?_
  refine appends_then (keyField_appends names.vdxfKey) ?_
  refine appends_then (appends_modify (writeVarBytes_render · dd.objectData)) ?_
  refine appends_then (stringField_appends names.label label) ?_
  refine appends_then (stringField_appends names.mimeType mimeType) ?_
  refine appends_then (bytesField_appends names.salt) ?_
  refine appends_then (bytesField_appends names.epk) ?_
  exact appends_then (bytesField_appends names.ivk) (bytesField_appends names.ssk)

/-- What stands in front of the label. -/
def beforeLabel (dd : DataDescriptor) : List Field :=
  .varint (normalize dd).version.toUInt64 :: .varint (calcFlags dd).toUInt64 ::
    (optionalKey dd.vdxfKey ++ varBytes dd.objectData)

/-- What stands in front of the MIME type. -/
def beforeMimeType (dd : DataDescriptor) : List Field :=
  beforeLabel dd ++ optionalBytes ((contentStr dd.label).map asBytes)

theorem writeDataDescriptor_labelTooLong (dd : DataDescriptor)
    (long : 64 < utf8Length dd.label) :
    FailsAfter (writeDataDescriptor dd) (beforeLabel dd)
      (.error (.limitedStringTooLong 64 (utf8Length dd.label))) := by
  have names := calcFlags_name dd
  rw [beforeLabel, ← List.append_nil (varBytes dd.objectData)]
  refine failsAfter_later (appends_varint _) ?_
  refine failsAfter_later (appends_varint _) ?_
  refine failsAfter_later (keyField_appends names.vdxfKey) ?_
  refine failsAfter_later (appends_modify (writeVarBytes_render · dd.objectData)) ?_
  exact failsAfter_first (stringField_fails names.label long)

theorem writeDataDescriptor_mimeTooLong (dd : DataDescriptor)
    (label : utf8Length dd.label ≤ 64) (long : 128 < utf8Length dd.mimeType) :
    FailsAfter (writeDataDescriptor dd) (beforeMimeType dd)
      (.error (.limitedStringTooLong 128 (utf8Length dd.mimeType))) := by
  have names := calcFlags_name dd
  rw [beforeMimeType, beforeLabel, List.cons_append, List.cons_append, List.append_assoc,
    ← List.append_nil (optionalBytes ((contentStr dd.label).map asBytes))]
  refine failsAfter_later (appends_varint _) ?_
  refine failsAfter_later (appends_varint _) ?_
  refine failsAfter_later (keyField_appends names.vdxfKey) ?_
  refine failsAfter_later (appends_modify (writeVarBytes_render · dd.objectData)) ?_
  refine failsAfter_later (stringField_appends names.label label) ?_
  exact failsAfter_first (stringField_fails names.mimeType long)

/-! ## Reading descriptors -/

/-- A descriptor as read: strings are their UTF-8 bytes. -/
structure CDataDescriptor where
  version : UInt64
  flags : UInt64
  vdxfKey : Option Bytes
  objectData : Bytes
  label : Option Bytes
  mimeType : Option Bytes
  salt : Option Bytes
  epk : Option Bytes
  ivk : Option Bytes
  ssk : Option Bytes
  deriving DecidableEq, Repr

/-- The reader's side of `whenFlag`. -/
def gatedBy {α : Type} (flags : UInt64) (bit : UInt32) (rd : Read α) : Read (Option α) :=
  Reader.gated (flags &&& bit.toUInt64 ≠ 0) rd

/-- The documented field order. -/
def readDataDescriptor : Read CDataDescriptor := do
  let version ← readVarint
  let flags ← readVarint
  let vdxfKey ← gatedBy flags FLAG_VDXF_KEY_PRESENT (readRaw 20)
  let objectData ← readVarBytes
  let label ← gatedBy flags FLAG_LABEL_PRESENT (readLimitedString 64)
  let mimeType ← gatedBy flags FLAG_MIME_TYPE_PRESENT (readLimitedString 128)
  let salt ← gatedBy flags FLAG_SALT_PRESENT readVarBytes
  let epk ← gatedBy flags FLAG_ENCRYPTION_PUBLIC_KEY_PRESENT readVarBytes
  let ivk ← gatedBy flags FLAG_INCOMING_VIEWING_KEY_PRESENT readVarBytes
  let ssk ← gatedBy flags FLAG_SYMMETRIC_ENCRYPTION_KEY_PRESENT readVarBytes
  pure { version, flags, vdxfKey, objectData, label, mimeType, salt, epk, ivk, ssk }

def CDataDescriptor.encrypted (cdd : CDataDescriptor) : Bool :=
  cdd.flags &&& FLAG_ENCRYPTED_DATA.toUInt64 ≠ 0

/-- What the reader sees of a descriptor. -/
def received (dd : DataDescriptor) : CDataDescriptor where
  version := (normalize dd).version.toUInt64
  flags := (calcFlags dd).toUInt64
  vdxfKey := dd.vdxfKey.map List.Vector.toList
  objectData := dd.objectData
  label := (contentStr dd.label).map asBytes
  mimeType := (contentStr dd.mimeType).map asBytes
  salt := content dd.salt
  epk := content dd.epk
  ivk := content dd.ivk
  ssk := content dd.ssk

/-- The byte fields are short enough to be read back. -/
structure Fits (dd : DataDescriptor) : Prop where
  objectData : dd.objectData.length ≤ MAX_SIZE.toNat
  salt : ∀ b, dd.salt = some b → b.length ≤ MAX_SIZE.toNat
  epk : ∀ b, dd.epk = some b → b.length ≤ MAX_SIZE.toNat
  ivk : ∀ b, dd.ivk = some b → b.length ≤ MAX_SIZE.toNat
  ssk : ∀ b, dd.ssk = some b → b.length ≤ MAX_SIZE.toNat

/-- Widening to 64 bits neither sets nor clears a flag. -/
theorem widened_flag (flags bit : UInt32) :
    flags.toUInt64 &&& bit.toUInt64 ≠ 0 ↔ flags &&& bit ≠ 0 := by
  rw [← UInt32.toUInt64_and, ne_eq, ne_eq, not_iff_not]
  constructor
  · intro h
    exact UInt32.toUInt64_inj.mp h
  · intro h
    rw [h]
    rfl

theorem gatedBy_open {α : Type} {flags bit : UInt32} {rd : Read α} {block : Bytes} {a : α}
    (set : flags &&& bit ≠ 0) (h : Decodes rd block a) :
    Decodes (gatedBy flags.toUInt64 bit rd) block (some a) :=
  h.gated_open ((widened_flag flags bit).mpr set)

theorem gatedBy_shut {α : Type} {flags bit : UInt32} (rd : Read α)
    (unset : ¬ flags &&& bit ≠ 0) : Decodes (gatedBy flags.toUInt64 bit rd) [] none :=
  Decodes.gated_shut rd (fun h => unset ((widened_flag flags bit).mp h))

theorem bytesField_decodes {flags bit : UInt32} {b : Option Bytes}
    (gate : flags &&& bit ≠ 0 ↔ isNonemptyBytes b)
    (fits : ∀ v, b = some v → v.length ≤ MAX_SIZE.toNat) :
    Decodes (gatedBy flags.toUInt64 bit readVarBytes) (render (optionalBytes (content b)))
      (content b) := by
  rcases isNonemptyBytes_cases b with ⟨v, rfl, _, nonempty, kept⟩ | ⟨empty, dropped⟩
  · rw [kept]
    exact gatedBy_open (gate.mpr nonempty) (readVarBytes_decodes (fits v rfl))
  · rw [dropped]
    exact gatedBy_shut _ (by rw [gate, empty]; exact Bool.false_ne_true)

theorem stringField_decodes {flags bit : UInt32} {s : Option String} {cap : Nat}
    (gate : flags &&& bit ≠ 0 ↔ isNonemptyStr s) (short : utf8Length s ≤ cap)
    (fits : cap ≤ MAX_SIZE.toNat) :
    Decodes (gatedBy flags.toUInt64 bit (readLimitedString cap))
      (render (optionalBytes ((contentStr s).map asBytes))) ((contentStr s).map asBytes) := by
  rcases isNonemptyStr_cases s with ⟨v, rfl, _, nonempty, kept⟩ | ⟨empty, dropped, _⟩
  · rw [kept]
    exact gatedBy_open (gate.mpr nonempty) (readLimitedString_decodes short fits)
  · rw [dropped]
    exact gatedBy_shut _ (by rw [gate, empty]; exact Bool.false_ne_true)

theorem keyField_decodes {flags bit : UInt32} {key : Option (ByteArr 20)}
    (gate : flags &&& bit ≠ 0 ↔ key.isSome) :
    Decodes (gatedBy flags.toUInt64 bit (readRaw 20)) (render (optionalKey key))
      (key.map List.Vector.toList) := by
  cases key with
  | none => exact gatedBy_shut _ (by rw [gate]; exact Bool.false_ne_true)
  | some k =>
    have read := readRaw_decodes k.toList_length
    rw [optionalKey, Option.elim_some, render_cons, render_nil, List.append_nil]
    exact gatedBy_open (gate.mpr rfl) read

theorem descriptor_decodes (dd : DataDescriptor) (label : utf8Length dd.label ≤ 64)
    (mimeType : utf8Length dd.mimeType ≤ 128) (fits : Fits dd) :
    Decodes readDataDescriptor (render (descriptor dd)) (received dd) := by
  have names := calcFlags_name dd
  refine decodes_cons (readVarint_decodes (normalize dd).version.toUInt64) ?_
  refine decodes_cons (readVarint_decodes (calcFlags dd).toUInt64) ?_
  refine decodes_append (keyField_decodes names.vdxfKey) ?_
  refine decodes_append (readVarBytes_decodes fits.objectData) ?_
  refine decodes_append (stringField_decodes names.label label (by decide)) ?_
  refine decodes_append (stringField_decodes names.mimeType mimeType (by decide)) ?_
  refine decodes_append (bytesField_decodes names.salt fits.salt) ?_
  refine decodes_append (bytesField_decodes names.epk fits.epk) ?_
  refine decodes_append (bytesField_decodes names.ivk fits.ivk) ?_
  exact (bytesField_decodes names.ssk fits.ssk).map
    (CDataDescriptor.mk _ _ _ _ _ _ _ _ _)

/-- The objectData is a stretch of the buffer. -/
theorem readDataDescriptor_ok {buf : Bytes} {c c' : Nat} {cdd : CDataDescriptor}
    (h : readDataDescriptor buf c = .ok (cdd, c')) : cdd.objectData.length ≤ buf.length := by
  obtain ⟨version, _, _, h⟩ := Reader.bind_ok h
  obtain ⟨flags, _, _, h⟩ := Reader.bind_ok h
  obtain ⟨vdxfKey, _, _, h⟩ := Reader.bind_ok h
  obtain ⟨objectData, _, object, h⟩ := Reader.bind_ok h
  obtain ⟨label, _, _, h⟩ := Reader.bind_ok h
  obtain ⟨mimeType, _, _, h⟩ := Reader.bind_ok h
  obtain ⟨salt, _, _, h⟩ := Reader.bind_ok h
  obtain ⟨epk, _, _, h⟩ := Reader.bind_ok h
  obtain ⟨ivk, _, _, h⟩ := Reader.bind_ok h
  obtain ⟨ssk, _, _, h⟩ := Reader.bind_ok h
  obtain ⟨rfl, _⟩ := Reader.pure_ok h
  obtain ⟨n, _, _, body⟩ := Reader.bind_ok object
  obtain ⟨rfl, _, _⟩ := Reader.take_ok body
  change ((buf.drop _).take n.toNat).length ≤ buf.length
  rw [List.length_take, List.length_drop]
  omega

/-! ## Nothing but the normal form is lost -/

theorem asBytes_inj {s t : String} (same : asBytes s = asBytes t) : s = t := by
  apply String.toByteArray_inj.mp
  apply ByteArray.ext
  exact Array.toList_inj.mp same

theorem map_asBytes_inj {s t : Option String} (same : s.map asBytes = t.map asBytes) : s = t :=
  Option.map_injective (fun _ _ => asBytes_inj) same

theorem received_encrypted (dd : DataDescriptor) : (received dd).encrypted = dd.encrypted := by
  have names :=
    (widened_flag (calcFlags dd) FLAG_ENCRYPTED_DATA).trans (calcFlags_name dd).encrypted
  rw [CDataDescriptor.encrypted, received, Bool.eq_iff_iff, decide_eq_true_iff]
  exact names

theorem normalize_eq_of_received {dd dd' : DataDescriptor} (same : received dd = received dd') :
    normalize dd = normalize dd' := by
  have encrypted : dd.encrypted = dd'.encrypted := by
    rw [← received_encrypted dd, same, received_encrypted dd']
  have version := congrArg CDataDescriptor.version same
  have key := congrArg CDataDescriptor.vdxfKey same
  have label := congrArg CDataDescriptor.label same
  have mimeType := congrArg CDataDescriptor.mimeType same
  have version' := UInt32.toUInt64_inj.mp version
  have key' := Option.map_injective List.Vector.toList_injective key
  simp only [normalize, DataDescriptor.mk.injEq] at version' ⊢
  exact ⟨encrypted, key', congrArg CDataDescriptor.objectData same, map_asBytes_inj label,
    map_asBytes_inj mimeType, congrArg CDataDescriptor.salt same,
    congrArg CDataDescriptor.epk same, congrArg CDataDescriptor.ivk same,
    congrArg CDataDescriptor.ssk same, version'⟩

/-- What the format can carry. -/
structure WithinCaps (dd : DataDescriptor) : Prop extends Fits dd where
  label : utf8Length dd.label ≤ 64
  mimeType : utf8Length dd.mimeType ≤ 128

/-- A descriptor within the caps is written, is read back in front of any suffix, and no
other descriptor starts with the same bytes unless it has the same normal form. -/
theorem dataDescriptor_roundtrip (dd : DataDescriptor) (caps : WithinCaps dd) :
    ∃ encoding,
      (∀ buf, writeDataDescriptor dd buf = .ok () (buf ++ encoding)) ∧
      (∀ before suffix,
        readDataDescriptor (before ++ encoding ++ suffix) before.length =
          .ok (received dd, before.length + encoding.length)) ∧
      (received dd).encrypted = dd.encrypted ∧ FlagsName (calcFlags dd) dd ∧
      ∀ dd' encoding' suffix suffix', WithinCaps dd' →
        writeDataDescriptor dd' [] = .ok () encoding' →
        encoding ++ suffix = encoding' ++ suffix' →
          normalize dd = normalize dd' ∧ encoding = encoding' ∧ suffix = suffix' := by
  have decodes := descriptor_decodes dd caps.label caps.mimeType caps.toFits
  refine ⟨render (descriptor dd), writeDataDescriptor_appends dd caps.label caps.mimeType, decodes,
    received_encrypted dd, calcFlags_name dd, ?_⟩
  intro dd' encoding' suffix suffix' caps' written same
  rw [writeDataDescriptor_appends dd' caps'.label caps'.mimeType, List.nil_append] at written
  obtain rfl : render (descriptor dd') = encoding' := by
    injection written
  have decodes' := descriptor_decodes dd' caps'.label caps'.mimeType caps'.toFits
  obtain ⟨value, block, rest⟩ := decodes.unique decodes' same
  exact ⟨normalize_eq_of_received value, block, rest⟩

/-- An encrypted descriptor with a label, an empty salt and no version. -/
def labelled : DataDescriptor where
  encrypted := true
  objectData := [7, 8]
  label := some "l"
  salt := some []

theorem dataDescriptor_roundtrip_labelled :
    ∃ encoding, ∀ buf, writeDataDescriptor labelled buf = .ok () (buf ++ encoding) := by
  obtain ⟨encoding, written, _⟩ := dataDescriptor_roundtrip labelled
    ⟨⟨by decide, by simp [labelled], by simp [labelled], by simp [labelled], by simp [labelled]⟩,
      by decide, by decide⟩
  exact ⟨encoding, written⟩

end CmmEncrypt.Descriptor
