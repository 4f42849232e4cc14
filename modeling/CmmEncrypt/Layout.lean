import CmmEncrypt.WireCodec

/-!
# Layouts

What a writer appends is a list of fields: raw bytes, VARINTs and CompactSize
lengths. A layout is rendered once, decoded field by field, measured field by
field, and it remembers which of its bytes are length prefixes.
-/

namespace CmmEncrypt.Layout

open Cursor Wire WireCodec

inductive Field where
  | raw (bytes : Bytes)
  | varint (n : UInt64)
  | compactSize (n : UInt64)
  deriving DecidableEq

def Field.bytes : Field → Bytes
  | .raw bytes => bytes
  | .varint n => WireCodec.varint n
  | .compactSize n => WireCodec.compactSize n

def render (fields : List Field) : Bytes := fields.flatMap Field.bytes

@[simp] theorem render_nil : render [] = [] := rfl

@[simp] theorem render_cons (x : Field) (xs : List Field) :
    render (x :: xs) = x.bytes ++ render xs := rfl

@[simp] theorem render_append (xs ys : List Field) : render (xs ++ ys) = render xs ++ render ys :=
  List.flatMap_append

theorem writeVarintU64_render (buf : Bytes) (n : UInt64) :
    writeVarintU64 buf n = buf ++ render [.varint n] := by
  rw [writeVarintU64_eq, render_cons, render_nil, List.append_nil, Field.bytes, varint_eq]

theorem writeCompactSize_render (buf : Bytes) (n : UInt64) :
    writeCompactSize buf n = buf ++ render [.compactSize n] := by
  rw [writeCompactSize_eq, render_cons, render_nil, List.append_nil, Field.bytes]

/-- A length prefix and the bytes it counts. -/
def varBytes (bytes : Bytes) : List Field :=
  [.compactSize (UInt64.ofNat bytes.length), .raw bytes]

theorem varBytes_length (bytes : Bytes) :
    (render (varBytes bytes)).length =
      compactSizeLen (UInt64.ofNat bytes.length).toNat + bytes.length := by
  simp only [varBytes, render_cons, render_nil, Field.bytes, List.length_append, List.length_nil,
    compactSize_length, Nat.add_zero]

theorem varBytes_length_le (bytes : Bytes) :
    (render (varBytes bytes)).length ≤ 9 + bytes.length := by
  have tag := compactSizeLen_le (UInt64.ofNat bytes.length).toNat
  rw [varBytes_length]
  omega

theorem writeVarBytes_render (buf bytes : Bytes) :
    writeVarBytes buf bytes = buf ++ render (varBytes bytes) := by
  rw [writeVarBytes, writeCompactSize_render, List.append_assoc]
  simp [varBytes, Field.bytes]

/-! ## Writers that may fail -/

/-- Whatever the buffer holds, the writer appends the layout to it. -/
def Appends {ε : Type} (w : Write ε Unit) (fields : List Field) : Prop :=
  ∀ buf, w buf = .ok () (buf ++ render fields)

/-- Whatever the buffer holds, the writer fails; what it leaves behind is not said. -/
def Fails {ε : Type} (w : Write ε Unit) (e : Fault ε) : Prop :=
  ∀ buf, ∃ left, w buf = .error e left

/-- Whatever the buffer holds, the writer appends the layout to it and then fails. -/
def FailsAfter {ε : Type} (w : Write ε Unit) (fields : List Field) (e : Fault ε) : Prop :=
  ∀ buf, w buf = .error e (buf ++ render fields)

section Writers

variable {ε : Type} {w w' : Write ε Unit} {xs ys : List Field} {e : Fault ε}

theorem FailsAfter.fails (h : FailsAfter w xs e) : Fails w e := fun buf => ⟨_, h buf⟩

theorem appends_nothing : Appends (pure () : Write ε Unit) [] := by
  intro buf
  rw [render_nil, List.append_nil]
  rfl

theorem appends_modify {f : Bytes → Bytes} (h : ∀ buf, f buf = buf ++ render xs) :
    Appends (modify f : Write ε Unit) xs := by
  intro buf
  rw [← h buf]
  rfl

theorem appends_then (first : Appends w xs) (rest : Appends w' ys) :
    Appends (w >>= fun _ => w') (xs ++ ys) := by
  intro buf
  change EStateM.bind w (fun _ => w') buf = _
  rw [EStateM.bind, first buf, render_append, ← List.append_assoc]
  exact rest (buf ++ render xs)

theorem failsAfter_first (first : FailsAfter w xs e) : FailsAfter (w >>= fun _ => w') xs e := by
  intro buf
  change EStateM.bind w (fun _ => w') buf = _
  rw [EStateM.bind, first buf]

theorem failsAfter_later (first : Appends w xs) (rest : FailsAfter w' ys e) :
    FailsAfter (w >>= fun _ => w') (xs ++ ys) e := by
  intro buf
  change EStateM.bind w (fun _ => w') buf = _
  rw [EStateM.bind, first buf, render_append, ← List.append_assoc]
  exact rest (buf ++ render xs)

end Writers

theorem appends_varint {ε : Type} (n : UInt64) :
    Appends (modify (writeVarintU64 · n) : Write ε Unit) [.varint n] :=
  appends_modify (writeVarintU64_render · n)

theorem writeLimitedString_appends {s : String} {cap : Nat} (short : (asBytes s).length ≤ cap) :
    Appends (writeLimitedString s cap) (varBytes (asBytes s)) := by
  rw [writeLimitedString, if_neg (Nat.not_lt.mpr short)]
  exact appends_modify (fun buf => writeVarBytes_render buf (asBytes s))

/-- A string over its cap is refused before anything is written. -/
theorem writeLimitedString_fails {s : String} {cap : Nat} (long : cap < (asBytes s).length) :
    FailsAfter (writeLimitedString s cap) []
      (.error (.limitedStringTooLong cap (asBytes s).length)) := by
  intro buf
  rw [writeLimitedString, if_pos long, render_nil, List.append_nil]
  rfl

/-! ## Length prefixes -/

/-- Every CompactSize of the layout is accepted by the reader where it stands. -/
def Readable (fields : List Field) : Prop :=
  ∀ before n after, fields = before ++ .compactSize n :: after →
    readCompactSize (render fields) (render before).length =
      .ok (n, (render before).length + (WireCodec.compactSize n).length)

theorem readable_iff (fields : List Field) :
    Readable fields ↔ ∀ n, .compactSize n ∈ fields → n ≤ MAX_SIZE := by
  constructor
  · intro readable n member
    obtain ⟨before, after, split⟩ := List.append_of_mem member
    have h := readable before n after split
    rw [split, render_append, render_cons, ← List.append_assoc] at h
    change readCompactSize (render before ++ WireCodec.compactSize n ++ render after) _ = _ at h
    rw [readCompactSize_eq] at h
    split at h
    · cases h
    · rename_i fits
      exact UInt64.not_lt.mp fits
  · intro fits before n after split
    have small : n ≤ MAX_SIZE := fits n (by rw [split]; simp)
    have h := compactSize_decodes small (render before) (render after)
    rw [split, render_append, render_cons, ← List.append_assoc]
    exact h

theorem readable_append (xs ys : List Field) :
    Readable (xs ++ ys) ↔ Readable xs ∧ Readable ys := by
  simp only [readable_iff, List.mem_append, or_imp, forall_and]

theorem readable_varBytes {bytes : Bytes} (inMemory : bytes.length < 2 ^ 64) :
    Readable (varBytes bytes) ↔ bytes.length ≤ MAX_SIZE.toNat := by
  rw [readable_iff]
  simp only [varBytes, List.mem_cons, Field.compactSize.injEq, reduceCtorEq, List.not_mem_nil,
    or_false, forall_eq, UInt64.le_iff_toNat_le, UInt64.toNat_ofNat', Nat.mod_eq_of_lt inMemory]

/-! ## Readers of single fields -/

/-- Why a reader gives up. -/
inductive ReadError where
  | wire (e : WireError)
  | leftover
  | integerTooLarge
  | stringTooLong
  | wrongKey
  | wrongVersion
  | wrongType
  | wrongPart
  | wrongScript
  | wrongReference
  | noSuchObject
  | wrongWidth
  | missingKey
  | undecryptable
  deriving DecidableEq, Repr

abbrev Read (α : Type) := Reader ReadError UInt8 α

def readVarint : Read UInt64 := readVarintU64.mapError ReadError.wire

def readLength : Read UInt64 := readCompactSize.mapError ReadError.wire

def readRaw (n : Nat) : Read Bytes := Reader.take (.wire .unexpectedEof) n

def readVarBytes : Read Bytes := do
  let n ← readLength
  readRaw n.toNat

/-- The read side of LIMITED_STRING. -/
def readLimitedString (cap : Nat) : Read Bytes := do
  let bytes ← readVarBytes
  if bytes.length > cap then Reader.fail .stringTooLong else pure bytes

/-- The reader stops unless the value read is the expected one. -/
def require (ok : Prop) [Decidable ok] (e : ReadError) : Read PUnit :=
  if ok then pure ⟨⟩ else Reader.fail e

theorem require_decodes {ok : Prop} [Decidable ok] (holds : ok) (e : ReadError) :
    Decodes (require ok e) [] ⟨⟩ := by
  rw [require, if_pos holds]
  exact Decodes.pure _

theorem require_ok {ok : Prop} [Decidable ok] {e : ReadError} {buf : Bytes} {c c' : Nat}
    {u : PUnit} (h : require ok e buf c = .ok (u, c')) : ok ∧ c = c' := by
  rw [require] at h
  split at h
  · rename_i holds
    exact ⟨holds, (Reader.pure_ok h).2⟩
  · cases h

theorem readVarint_decodes (n : UInt64) : Decodes readVarint (Field.varint n).bytes n :=
  (varint_decodes n).mapError ReadError.wire

theorem readRaw_decodes {k : Nat} {bytes : Bytes} (size : bytes.length = k) :
    Decodes (readRaw k) (Field.raw bytes).bytes bytes := by
  subst size
  exact Decodes.take _ bytes

/-- The first field of a layout, then the rest of it. -/
theorem decodes_cons {α γ : Type} {rd : Read α} {f : α → Read γ} {x : Field} {xs : List Field}
    {a : α} {b : γ} (first : Decodes rd x.bytes a) (rest : Decodes (f a) (render xs) b) :
    Decodes (rd >>= f) (render (x :: xs)) b :=
  first.bind rest

theorem decodes_append {α γ : Type} {rd : Read α} {f : α → Read γ} {xs ys : List Field}
    {a : α} {b : γ} (first : Decodes rd (render xs) a) (rest : Decodes (f a) (render ys) b) :
    Decodes (rd >>= f) (render (xs ++ ys)) b := by
  rw [render_append]
  exact first.bind rest

/-- A check between two fields reads nothing. -/
theorem decodes_require {γ : Type} {ok : Prop} [Decidable ok] {e : ReadError} {rd : Read γ}
    {block : Bytes} {b : γ} (holds : ok) (rest : Decodes rd block b) :
    Decodes (require ok e >>= fun _ => rd) block b :=
  (require_decodes holds e).bind rest

theorem readVarBytes_decodes {bytes : Bytes} (fits : bytes.length ≤ MAX_SIZE.toNat) :
    Decodes readVarBytes (render (varBytes bytes)) bytes := by
  have max : MAX_SIZE.toNat = 0x02000000 := rfl
  have size : (UInt64.ofNat bytes.length).toNat = bytes.length := by
    rw [UInt64.toNat_ofNat']
    omega
  have accepted : UInt64.ofNat bytes.length ≤ MAX_SIZE := by
    rw [UInt64.le_iff_toNat_le, size]
    exact fits
  refine decodes_cons ((compactSize_decodes accepted).mapError ReadError.wire) ?_
  rw [size]
  have body : Decodes (readRaw bytes.length) (Field.raw bytes).bytes bytes := readRaw_decodes rfl
  rwa [render_cons, render_nil, List.append_nil]

theorem readLimitedString_decodes {bytes : Bytes} {cap : Nat} (short : bytes.length ≤ cap)
    (fits : cap ≤ MAX_SIZE.toNat) :
    Decodes (readLimitedString cap) (render (varBytes bytes)) bytes := by
  have body := readVarBytes_decodes (Nat.le_trans short fits)
  have kept : (if bytes.length > cap then Reader.fail .stringTooLong else pure bytes :
      Read Bytes) = pure bytes := if_neg (Nat.not_lt.mpr short)
  have rest : Decodes (if bytes.length > cap then Reader.fail .stringTooLong else pure bytes :
      Read Bytes) (render []) bytes := by
    rw [kept]
    exact Decodes.pure bytes
  have h := decodes_append (f := fun bytes =>
    if bytes.length > cap then Reader.fail .stringTooLong else pure bytes) body rest
  rwa [List.append_nil] at h

theorem readVarint_advances : Advances readVarint :=
  readVarintU64_advances.mapError ReadError.wire

theorem readLength_advances : Advances readLength :=
  readCompactSize_advances.mapError ReadError.wire

/-! ## Fixed widths -/

def readByte : Read UInt8 := readU8.mapError ReadError.wire

def readU16 : Read UInt16 := readU16Le.mapError ReadError.wire

def readU32 : Read UInt32 := readU32Le.mapError ReadError.wire

/-- A VARINT that must fit in 32 bits. -/
def readVarintU32 : Read UInt32 := do
  let n ← readVarint
  require (n.toNat < 2 ^ 32) .integerTooLarge
  pure n.toUInt32

theorem readByte_decodes (b : UInt8) : Decodes readByte (Field.raw [b]).bytes b :=
  (readU8_decodes b).mapError ReadError.wire

theorem readU16_decodes (n : UInt16) : Decodes readU16 (Field.raw (leBytes 2 n.toNat)).bytes n := by
  have fits : n.toNat < 256 ^ 2 := n.toNat_lt
  have h := (leBytes_decodes fits UInt16.ofNat).mapError ReadError.wire
  rwa [UInt16.ofNat_toNat] at h

theorem readU32_decodes (n : UInt32) : Decodes readU32 (Field.raw (leBytes 4 n.toNat)).bytes n := by
  have fits : n.toNat < 256 ^ 4 := n.toNat_lt
  have h := (leBytes_decodes fits UInt32.ofNat).mapError ReadError.wire
  rwa [UInt32.ofNat_toNat] at h

theorem readVarintU32_decodes (n : UInt32) :
    Decodes readVarintU32 (Field.varint n.toUInt64).bytes n := by
  have fits : n.toUInt64.toNat < 2 ^ 32 := by
    rw [UInt32.toNat_toUInt64]
    exact n.toNat_lt
  have back : n.toUInt64.toUInt32 = n := UInt32.toUInt32_toUInt64 n
  have rest := decodes_require (e := .integerTooLarge) fits
    (Decodes.pure (ε := ReadError) (β := UInt8) n.toUInt64.toUInt32)
  have h := (readVarint_decodes n.toUInt64).bind (f := fun m => do
    require (m.toNat < 2 ^ 32) .integerTooLarge
    pure m.toUInt32) rest
  rwa [List.append_nil, back] at h

end CmmEncrypt.Layout
