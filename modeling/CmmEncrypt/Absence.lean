import CmmEncrypt.Descriptor
import CmmEncrypt.Varint

/-!
# Absent content and rejected descriptors

An optional field has several values without content, the daemon's has one. Empty
strings and slices are written as absent ones; the null key is not. A descriptor
that is rejected has been written up to the string that is too long.
-/

namespace CmmEncrypt.Absence

open Cursor Wire WireCodec Layout Varint Descriptor

/-! ## What the daemon sees -/

/-- `uint160::IsNull`. -/
def nullKey : ByteArr 20 := List.Vector.replicate 20 0

/-- A descriptor in the daemon's data model: empty fields and the null key are absent. -/
def daemonValue (dd : DataDescriptor) : DataDescriptor :=
  { Descriptor.normalize dd with vdxfKey := dd.vdxfKey.filter (· ≠ nullKey) }

/-- Every presence bit says whether its field has content. -/
structure PresenceBits (dd : DataDescriptor) : Prop where
  vdxfKey : calcFlags dd &&& FLAG_VDXF_KEY_PRESENT ≠ 0 ↔ (daemonValue dd).vdxfKey.isSome
  label : calcFlags dd &&& FLAG_LABEL_PRESENT ≠ 0 ↔ (daemonValue dd).label.isSome
  mimeType : calcFlags dd &&& FLAG_MIME_TYPE_PRESENT ≠ 0 ↔ (daemonValue dd).mimeType.isSome
  salt : calcFlags dd &&& FLAG_SALT_PRESENT ≠ 0 ↔ (daemonValue dd).salt.isSome
  epk : calcFlags dd &&& FLAG_ENCRYPTION_PUBLIC_KEY_PRESENT ≠ 0 ↔ (daemonValue dd).epk.isSome
  ivk : calcFlags dd &&& FLAG_INCOMING_VIEWING_KEY_PRESENT ≠ 0 ↔ (daemonValue dd).ivk.isSome
  ssk : calcFlags dd &&& FLAG_SYMMETRIC_ENCRYPTION_KEY_PRESENT ≠ 0 ↔ (daemonValue dd).ssk.isSome

theorem content_isSome (b : Option Bytes) : (content b).isSome = isNonemptyBytes b := by
  rcases isNonemptyBytes_cases b with ⟨v, _, _, nonempty, kept⟩ | ⟨empty, dropped⟩
  · rw [kept, nonempty]
    rfl
  · rw [dropped, empty]
    rfl

theorem contentStr_isSome (s : Option String) : (contentStr s).isSome = isNonemptyStr s := by
  rcases isNonemptyStr_cases s with ⟨v, _, _, nonempty, kept⟩ | ⟨empty, dropped, _⟩
  · rw [kept, nonempty]
    rfl
  · rw [dropped, empty]
    rfl

theorem filter_null_isSome_iff (key : Option (ByteArr 20)) :
    ((key.filter (· ≠ nullKey)).isSome ↔ key.isSome) ↔ key ≠ some nullKey := by
  cases key with
  | none => simp
  | some k => by_cases null : k = nullKey <;> simp [Option.filter, null]

/-- The bits are right unless the key is the null key. -/
theorem presenceBits_iff (dd : DataDescriptor) :
    PresenceBits dd ↔ dd.vdxfKey ≠ some nullKey := by
  have names := calcFlags_name dd
  rw [← filter_null_isSome_iff]
  constructor
  · intro bits
    exact bits.vdxfKey.symm.trans names.vdxfKey
  · intro keyed
    refine ⟨names.vdxfKey.trans keyed.symm, ?_, ?_, ?_, ?_, ?_, ?_⟩
    · exact names.label.trans (by rw [daemonValue, Descriptor.normalize, contentStr_isSome])
    · exact names.mimeType.trans (by rw [daemonValue, Descriptor.normalize, contentStr_isSome])
    · exact names.salt.trans (by rw [daemonValue, Descriptor.normalize, content_isSome])
    · exact names.epk.trans (by rw [daemonValue, Descriptor.normalize, content_isSome])
    · exact names.ivk.trans (by rw [daemonValue, Descriptor.normalize, content_isSome])
    · exact names.ssk.trans (by rw [daemonValue, Descriptor.normalize, content_isSome])

/-! ## Empty content is written as no content -/

theorem isNonemptyBytes_content (b : Option Bytes) :
    isNonemptyBytes (content b) = isNonemptyBytes b := by
  rcases isNonemptyBytes_cases b with ⟨v, rfl, _, _, kept⟩ | ⟨empty, dropped⟩
  · rw [kept]
  · rw [dropped, empty]
    rfl

theorem isNonemptyStr_content (s : Option String) :
    isNonemptyStr (contentStr s) = isNonemptyStr s := by
  rcases isNonemptyStr_cases s with ⟨v, rfl, _, _, kept⟩ | ⟨empty, dropped, _⟩
  · rw [kept]
  · rw [dropped, empty]
    rfl

theorem calcFlags_normalize (dd : DataDescriptor) :
    calcFlags (Descriptor.normalize dd) = calcFlags dd := by
  simp only [calcFlags, Descriptor.normalize, isNonemptyBytes_content, isNonemptyStr_content]
  rfl

theorem whenFlag_congr {flags bit : UInt32} {w w' : Write WireError Unit}
    (same : flags &&& bit ≠ 0 → w = w') : whenFlag flags bit w = whenFlag flags bit w' := by
  by_cases set : flags &&& bit ≠ 0
  · rw [same set]
  · rw [whenFlag, whenFlag, if_neg set, if_neg set]

/-- A gated field is written from its content. -/
theorem bytesField_content {flags bit : UInt32} {b : Option Bytes}
    (gate : flags &&& bit ≠ 0 ↔ isNonemptyBytes b) :
    whenFlag flags bit (do
      let v ← expect (content b) guarded
      modify (writeVarBytes · v)) =
    whenFlag flags bit (do
      let v ← expect b guarded
      modify (writeVarBytes · v)) := by
  apply whenFlag_congr
  intro set
  rcases isNonemptyBytes_cases b with ⟨v, rfl, _, _, kept⟩ | ⟨empty, _⟩
  · rw [kept]
  · rw [gate, empty] at set
    cases set

theorem stringField_content {flags bit : UInt32} {s : Option String} (cap : Nat)
    (gate : flags &&& bit ≠ 0 ↔ isNonemptyStr s) :
    whenFlag flags bit (do
      let v ← expect (contentStr s) guarded
      writeLimitedString v cap) =
    whenFlag flags bit (do
      let v ← expect s guarded
      writeLimitedString v cap) := by
  apply whenFlag_congr
  intro set
  rcases isNonemptyStr_cases s with ⟨v, rfl, _, _, kept⟩ | ⟨empty, _, _⟩
  · rw [kept]
  · rw [gate, empty] at set
    cases set

theorem writeDataDescriptor_normalize (dd : DataDescriptor) :
    writeDataDescriptor (Descriptor.normalize dd) = writeDataDescriptor dd := by
  have names := calcFlags_name dd
  have version : (if (Descriptor.normalize dd).version = 0 then DEFAULT_VERSION
      else (Descriptor.normalize dd).version) =
      if dd.version = 0 then DEFAULT_VERSION else dd.version := by
    rw [Descriptor.normalize]
    by_cases zero : dd.version = 0
    · simp only [if_pos zero]
      rfl
    · simp only [if_neg zero]
  simp only [writeDataDescriptor, calcFlags_normalize, version]
  simp only [Descriptor.normalize, stringField_content 64 names.label,
    stringField_content 128 names.mimeType, bytesField_content names.salt,
    bytesField_content names.epk, bytesField_content names.ivk, bytesField_content names.ssk]

/-- Descriptors with one value in the daemon's model differ in the null key at most. -/
theorem normalize_eq_of_daemonValue {dd dd' : DataDescriptor}
    (same : daemonValue dd = daemonValue dd') (keys : dd.vdxfKey.isSome = dd'.vdxfKey.isSome) :
    Descriptor.normalize dd = Descriptor.normalize dd' := by
  have filtered := congrArg DataDescriptor.vdxfKey same
  have key : dd.vdxfKey = dd'.vdxfKey := by
    simp only [daemonValue] at filtered
    cases left : dd.vdxfKey with
    | none =>
      rw [left] at keys
      exact (Option.isNone_iff_eq_none.mp (by simpa using keys.symm)).symm
    | some k =>
      rw [left] at keys
      obtain ⟨k', right⟩ := Option.isSome_iff_exists.mp keys.symm
      rw [left, right] at filtered
      rw [right]
      by_cases null : k = nullKey <;> by_cases null' : k' = nullKey <;>
        simp_all [Option.filter]
  simp only [daemonValue, Descriptor.normalize, DataDescriptor.mk.injEq] at same ⊢
  obtain ⟨encrypted, _, rest⟩ := same
  exact ⟨encrypted, key, rest⟩

/-- Two descriptors that are one value to the daemon are written alike if and only if both or
neither have a key, and all their presence bits are right as well if and only if neither has
the null key. -/
theorem written_alike_iff (dd dd' : DataDescriptor) (same : daemonValue dd = daemonValue dd') :
    (calcFlags dd = calcFlags dd' ∧ writeDataDescriptor dd = writeDataDescriptor dd' ↔
      dd.vdxfKey.isSome = dd'.vdxfKey.isSome) ∧
    ((calcFlags dd = calcFlags dd' ∧ writeDataDescriptor dd = writeDataDescriptor dd') ∧
        PresenceBits dd ∧ PresenceBits dd' ↔
      dd.vdxfKey ≠ some nullKey ∧ dd'.vdxfKey ≠ some nullKey) := by
  have alike : calcFlags dd = calcFlags dd' ∧ writeDataDescriptor dd = writeDataDescriptor dd' ↔
      dd.vdxfKey.isSome = dd'.vdxfKey.isSome := by
    constructor
    · rintro ⟨flags, _⟩
      have here := (calcFlags_name dd).vdxfKey
      rw [flags] at here
      exact Bool.eq_iff_iff.mpr (here.symm.trans (calcFlags_name dd').vdxfKey)
    · intro keys
      have normal := normalize_eq_of_daemonValue same keys
      rw [← calcFlags_normalize dd, ← writeDataDescriptor_normalize dd, normal]
      exact ⟨calcFlags_normalize dd', writeDataDescriptor_normalize dd'⟩
  refine ⟨alike, ?_⟩
  rw [presenceBits_iff, presenceBits_iff, alike]
  constructor
  · exact And.right
  · rintro ⟨key, key'⟩
    refine ⟨?_, key, key'⟩
    rw [Bool.eq_iff_iff, ← (filter_null_isSome_iff _).mpr key,
      ← (filter_null_isSome_iff _).mpr key']
    have filtered := congrArg DataDescriptor.vdxfKey same
    simp only [daemonValue] at filtered
    rw [filtered]

/-- An empty label and salt are written as none at all. -/
theorem written_alike_empty :
    writeDataDescriptor { objectData := [7], label := some "", salt := some [] } =
      writeDataDescriptor { objectData := [7], version := 1 } :=
  ((written_alike_iff { objectData := [7], label := some "", salt := some [] }
    { objectData := [7], version := 1 } (by decide)).1.mpr rfl).2

/-- The null key sets its flag. -/
theorem null_key_written :
    ¬ ∀ dd dd' : DataDescriptor, daemonValue dd = daemonValue dd' →
        calcFlags dd = calcFlags dd' ∧ writeDataDescriptor dd = writeDataDescriptor dd' := by
  intro claimed
  have flags := (claimed { vdxfKey := some nullKey } {} (by decide)).1
  exact absurd flags (by decide)

/-! ## What a rejected descriptor leaves behind -/

/-- What the wire tests ask of a limited string, asked of a descriptor. -/
structure LeavesBuffer (dd : DataDescriptor) (buf : Bytes) : Prop where
  rejected : ∀ e left, writeDataDescriptor dd buf = .error e left → left = buf
  accepted : ∀ left, writeDataDescriptor dd buf = .ok () left →
    left = buf ++ render (descriptor dd)

/-- The outcome and the buffer, for the three ways through the writer. -/
theorem writeDataDescriptor_cases (dd : DataDescriptor) (buf : Bytes) :
    (64 < utf8Length dd.label ∧ writeDataDescriptor dd buf =
      .error (.error (.limitedStringTooLong 64 (utf8Length dd.label)))
        (buf ++ render (beforeLabel dd))) ∨
    (utf8Length dd.label ≤ 64 ∧ 128 < utf8Length dd.mimeType ∧ writeDataDescriptor dd buf =
      .error (.error (.limitedStringTooLong 128 (utf8Length dd.mimeType)))
        (buf ++ render (beforeMimeType dd))) ∨
    (utf8Length dd.label ≤ 64 ∧ utf8Length dd.mimeType ≤ 128 ∧ writeDataDescriptor dd buf =
      .ok () (buf ++ render (descriptor dd))) := by
  by_cases label : utf8Length dd.label ≤ 64
  · by_cases mimeType : utf8Length dd.mimeType ≤ 128
    · exact .inr (.inr ⟨label, mimeType, writeDataDescriptor_appends dd label mimeType buf⟩)
    · have long := Nat.lt_of_not_le mimeType
      exact .inr (.inl ⟨label, long, writeDataDescriptor_mimeTooLong dd label long buf⟩)
  · have long := Nat.lt_of_not_le label
    exact .inl ⟨long, writeDataDescriptor_labelTooLong dd long buf⟩

/-- The version VARINT stands in front of the label, so something is always left behind. -/
theorem render_beforeLabel_ne_nil (dd : DataDescriptor) : render (beforeLabel dd) ≠ [] := by
  have first := varint_length_pos (Descriptor.normalize dd).version.toUInt64
  intro nothing
  rw [beforeLabel, render_cons, List.append_eq_nil_iff] at nothing
  rw [Field.bytes] at nothing
  rw [nothing.1] at first
  exact absurd first (Nat.lt_irrefl 0)

theorem render_beforeMimeType_ne_nil (dd : DataDescriptor) : render (beforeMimeType dd) ≠ [] := by
  intro nothing
  rw [beforeMimeType, render_append, List.append_eq_nil_iff] at nothing
  exact render_beforeLabel_ne_nil dd nothing.1

theorem not_leavesBuffer {dd : DataDescriptor} {buf : Bytes} {e : Fault WireError}
    {fields : List Field} (refused : writeDataDescriptor dd buf = .error e (buf ++ render fields))
    (written : render fields ≠ []) : ¬ LeavesBuffer dd buf := by
  intro leaves
  have same := leaves.rejected _ _ refused
  exact written (List.append_right_eq_self.mp same)

/-- The writer rejects exactly the descriptors with a string over its cap, and then never
leaves the buffer as it was. -/
theorem leavesBuffer_iff (dd : DataDescriptor) (buf : Bytes) :
    (LeavesBuffer dd buf ↔ utf8Length dd.label ≤ 64 ∧ utf8Length dd.mimeType ≤ 128) ∧
    ((∃ e left, writeDataDescriptor dd buf = .error e left) ↔
      64 < utf8Length dd.label ∨ 128 < utf8Length dd.mimeType) := by
  rcases writeDataDescriptor_cases dd buf with
    ⟨long, outcome⟩ | ⟨short, long, outcome⟩ | ⟨label, mimeType, outcome⟩
  · have left := not_leavesBuffer outcome (render_beforeLabel_ne_nil dd)
    refine ⟨⟨fun leaves => absurd leaves left, fun ⟨short, _⟩ => ?_⟩,
      ⟨fun _ => .inl long, fun _ => ⟨_, _, outcome⟩⟩⟩
    exact absurd short (Nat.not_le.mpr long)
  · have left := not_leavesBuffer outcome (render_beforeMimeType_ne_nil dd)
    refine ⟨⟨fun leaves => absurd leaves left, fun ⟨_, short⟩ => ?_⟩,
      ⟨fun _ => .inr long, fun _ => ⟨_, _, outcome⟩⟩⟩
    exact absurd short (Nat.not_le.mpr long)
  · refine ⟨⟨fun _ => ⟨label, mimeType⟩, fun _ => ⟨?_, ?_⟩⟩, ⟨?_, ?_⟩⟩
    · intro e left error
      rw [outcome] at error
      cases error
    · intro left ok
      rw [outcome] at ok
      injection ok with _ same
      exact same.symm
    · rintro ⟨e, left, error⟩
      rw [outcome] at error
      cases error
    · intro long
      omega

/-- A label of 65 bytes is refused with four bytes written: version, flags and objectData. -/
theorem rejected_leaves_bytes :
    ¬ ∀ (dd : DataDescriptor) (buf : Bytes), LeavesBuffer dd buf := by
  intro claimed
  have refused := writeDataDescriptor_labelTooLong
    { version := 1, objectData := [0], label := some (String.ofList (List.replicate 65 'L')) }
    (by decide) []
  exact not_leavesBuffer refused (render_beforeLabel_ne_nil _) (claimed _ [])

end CmmEncrypt.Absence
