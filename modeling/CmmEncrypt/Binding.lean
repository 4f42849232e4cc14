import CmmEncrypt.Api
import CmmEncrypt.Binary64
import CmmEncrypt.JavaScript

/-!
# The binding (`wasm/src/lib.rs`)

`encryptPublicDecrypt` reads the fields of a JavaScript object one after the other,
runs the core on them and builds an object from its result. Every field is checked
before the first byte is copied out of the typed arrays and before anything is drawn.
-/

namespace CmmEncrypt.Binding

open Wire Sapling Api FallibleState JavaScript

/-- A value of a field: one that the caller has as well, or a new `Uint8Array`. -/
inductive Handed where
  | value (v : Value)
  | fresh (bytes : Bytes)
  deriving DecidableEq

/-- An object that a request is read from: the caller's own, or a literal of the wrapper. -/
inductive RequestObject where
  | value (v : Value)
  | literal (fields : List (String × Handed))

/-- An object that the binding has built, or a value found in the place of one. -/
inductive Built where
  | bytes (bytes : Bytes)
  | array (elements : List Bytes)
  | object (fields : List (String × Built))
  | value (v : Value)

/-- What js_sys makes of a typed array that the caller has as well, and what functions that can
be replaced make of the objects of the binding. -/
structure Host (R : Realm) extends Engine R where
  /-- `Uint8Array::length`. -/
  length : Value → Js R UInt32
  /-- `Uint8Array::copy_to`. -/
  copyTo (n : ℕ) : Value → Js R (ByteArr n)
  /-- `Uint8Array::to_vec`. -/
  toVec : Value → Js R Slice
  /-- `Array::new`, and `push` for every element. -/
  newArray : List Bytes → Js R Built
  /-- A setter on an object and the value assigned; what members the object then has. -/
  callSetter : Ref → List (String × Built) → Built → Js R (List (String × Built))
  /-- A getter on an object. -/
  callGetter : Ref → Built → Js R Built
  /-- `Buffer.from`. -/
  bufferFrom : Built → Js R Bytes
  /-- `v.map((s) => Buffer.from(s))`. -/
  mapBuffers : Built → Js R (List Bytes)

variable {R : Realm}

/-- A panic in WebAssembly. -/
def trap {α : Type} : Js R α := throw (.error "unreachable")

def Handed.isNullish : Handed → Bool
  | .value v => v.isNullish
  | .fresh _ => false

/-- `instanceof Uint8Array`. -/
def Handed.isUint8Array (h : Heap R) : Handed → Bool
  | .value v => h.isInstance R.uint8ArrayPrototype v
  | .fresh _ => true

/-- `JsValue::as_string`. -/
def Handed.asString : Handed → Option String
  | .value (.string s) => some s
  | _ => none

/-- `JsValue::as_f64`. -/
def Handed.asF64 : Handed → Option UInt64
  | .value (.number bits) => some bits
  | _ => none

section Arrays

variable (H : Host R)

def lengthOf : Handed → Js R UInt32
  | .value v => H.length v
  | .fresh bytes => pure (UInt32.ofNat bytes.length)

/-- The lengths have to agree. -/
def copyTo (n : ℕ) : Handed → Js R (ByteArr n)
  | .value v => H.copyTo n v
  | .fresh bytes => if size : bytes.length = n then pure ⟨bytes, size⟩ else trap

/-- No vector of a 32-bit target is longer than `isize::MAX`. -/
def toVec : Handed → Js R Slice
  | .value v => H.toVec v
  | .fresh bytes =>
    if small : bytes.length < 2 ^ 31 then pure ⟨bytes, Nat.lt_trans small (by decide)⟩ else trap

def optionToVec : Option Handed → Js R (Option Slice)
  | none => pure none
  | some arr => do
    let bytes ← toVec H arr
    pure (some bytes)

end Arrays

/-! ## Field readers -/

section Readers

variable (E : Engine R)

/-- `Reflect::get`. A field that a literal lacks is looked up on its prototype. -/
def reflectGet (obj : RequestObject) (field : String) : Js R Handed :=
  match obj with
  | .value (.object r) => do
    let val ← E.getProperty r field
    pure (.value val)
  | .value _ => throw (.typeError "Reflect.get called on non-object")
  | .literal fields =>
    match fields.lookup field with
    | some val => pure val
    | none => do
      let val ← E.getProperty R.objectPrototype field
      pure (.value val)

/-- Whatever `Reflect::get` throws is replaced. -/
def readField (obj : RequestObject) (field : String) : Js R Handed := fun h =>
  match reflectGet E obj field h with
  | .ok out => .ok out
  | .error _ => .error (.error ("request must be an object with a " ++ field ++ " field"))

/-- `dyn_into::<Uint8Array>`. -/
def dynIntoUint8Array (val : Handed) (message : String) : Js R Handed := do
  let h ← get
  if val.isUint8Array h then pure val else throw (.error message)

def readUint8Array (obj : RequestObject) (field : String) : Js R Handed := do
  let val ← readField E obj field
  if val.isNullish then throw (.error (field ++ " is required (Uint8Array)"))
  else dynIntoUint8Array val (field ++ " must be a Uint8Array")

def readUint8Array20b (H : Host R) (obj : RequestObject) (field : String) :
    Js R (ByteArr 20) := do
  let arr ← readUint8Array H.toEngine obj field
  let len ← lengthOf H arr
  if len ≠ 20 then
    throw (.error (field ++ " must be exactly 20 bytes, got " ++ toString len.toNat))
  else copyTo H 20 arr

def readOptionalUint8Array (obj : RequestObject) (field : String) : Js R (Option Handed) := do
  let val ← readField E obj field
  if val.isNullish then pure none
  else do
    let arr ← dynIntoUint8Array val (field ++ " must be a Uint8Array (or null/undefined)")
    pure (some arr)

def readOptionalString (obj : RequestObject) (field : String) : Js R (Option String) := do
  let val ← readField E obj field
  if val.isNullish then pure none
  else
    match val.asString with
    | some s => pure (some s)
    | none => throw (.error (field ++ " must be a string (or null/undefined)"))

/-- `u32::MAX`. -/
def U32_MAX : ℚ := 4294967295

def readU32 (obj : RequestObject) (field : String) : Js R UInt32 := do
  let val ← readField E obj field
  if val.isNullish then throw (.error (field ++ " is required (number)"))
  else
    match val.asF64 with
    | none => throw (.error (field ++ " must be a number"))
    | some n =>
      if ¬ Binary64.isFinite n ∨ Binary64.value n < 0 ∨ Binary64.value n > U32_MAX ∨
          Binary64.fract (Binary64.value n) ≠ 0 then
        throw (.error (field ++ " must be a non-negative integer that fits in u32"))
      else pure (Binary64.toUInt32 n)

end Readers

/-! ## Results -/

/-- `{w:?}`. -/
def debugWireError : WireError → String
  | .unexpectedEof => "UnexpectedEof"
  | .nonCanonicalCompactSize => "NonCanonicalCompactSize"
  | .compactSizeTooLarge => "CompactSizeTooLarge"
  | .varIntTooLarge => "VarIntTooLarge"
  | .limitedStringTooLong cap actual =>
    "LimitedStringTooLong \x7b cap: " ++ toString cap ++ ", actual: " ++ toString actual ++ " \x7d"

/-- `{c:?}`. -/
def debugCryptoError : CryptoError → String
  | .invalidScalar => "InvalidScalar"
  | .invalidPoint => "InvalidPoint"
  | .aeadFailed => "AeadFailed"

/-- `{e:?}`. -/
def debugEphemeralError : EphemeralError → String
  | .invalidDiversifier => "InvalidDiversifier"
  | .invalidScalar => "InvalidScalar"

def mapEncryptError : EncryptError → Thrown
  | .wire w => .error ("Wire: " ++ debugWireError w)
  | .crypto c => .error ("Crypto: " ++ debugCryptoError c)
  | .ephemeral e => .error ("Ephemeral: " ++ debugEphemeralError e)
  | .diversifierSearchExhausted => .error "DiversifierSearchExhausted"

section Building

variable (H : Host R)

/-- `Reflect::set` on an object of the binding. It answers whether it has assigned anything, and
nobody looks at the answer. -/
def reflectSet (fields : List (String × Built)) (key : String) (value : Built) :
    Js R (List (String × Built)) := do
  match fields.lookup key with
  | some _ => pure (fields.map fun field => if field.1 = key then (key, value) else field)
  | none =>
    let h ← get
    match h.assignment R.objectPrototype key with
    | .create => pure (fields ++ [(key, value)])
    | .refuse => pure fields
    | .call setter => H.callSetter setter fields value

/-- The caller of `build_result_object` replaces whatever `Reflect::set` throws. -/
def setMember (fields : List (String × Built)) (key : String) (value : Built) :
    Js R (List (String × Built)) := fun h =>
  match reflectSet H fields key value h with
  | .ok out => .ok out
  | .error _ => .error (.error "failed to construct result object")

def buildResultObject (result : EncryptResult) : Js R Built := do
  let cmmEntry ← setMember H [] "vdxfKey" (.bytes result.cmmEntry.1.toList)
  let cmmEntry ← setMember H cmmEntry "value" (.bytes result.cmmEntry.2)
  let ret ← setMember H [] "cmmEntry" (.object cmmEntry)
  let scriptsArray ← H.newArray result.dataDepositOutputScripts
  let ret ← setMember H ret "dataDepositOutputScripts" scriptsArray
  let ret ← setMember H ret "publishedIvk" (.bytes result.publishedIvk.toList)
  let ret ← setMember H ret "outerEpk" (.bytes result.outerEpk.toList)
  let ret ← setMember H ret "ephemeralDiversifier" (.bytes result.ephemeralDiversifier.toList)
  let ret ← setMember H ret "ephemeralPkD" (.bytes result.ephemeralPkD.toList)
  pure (.object ret)

end Building

variable {r : ℕ} {Point Rng : Type} [AddCommGroup Point] [DecidableEq Point]

/-- The core on a generator, its failures thrown. -/
def runCore (H : Host R) (P : Primitives r Point Rng) (rng : Rng) (request : EncryptRequest) :
    Js R Built :=
  match call P request rng with
  | .ok (result, _) => buildResultObject H result
  | .error (.error e) => throw (mapEncryptError e)
  | .error (.panic _) => trap

/-- `encrypt_public_decrypt_js`; `rng` is what `OsRng` yields. -/
def encryptPublicDecryptJs (H : Host R) (P : Primitives r Point Rng) (rng : Rng)
    (request : RequestObject) : Js R Built := do
  let plaintext ← readUint8Array H.toEngine request "plaintext"
  let outerVdxfKey ← readUint8Array20b H request "outerVdxfKey"
  let systemId ← readUint8Array20b H request "systemId"
  let label ← readOptionalString H.toEngine request "label"
  let mimeType ← readOptionalString H.toEngine request "mimeType"
  let dataDepositVoutIndex ← readU32 H.toEngine request "dataDepositVoutIndex"
  let signature ← readOptionalUint8Array H.toEngine request "signature"
  let plaintextBytes ← toVec H plaintext
  let signatureBytes ← optionToVec H signature
  runCore H P rng
    { plaintext := plaintextBytes, outerVdxfKey, systemId, label, mimeType, dataDepositVoutIndex,
      signature := signatureBytes }

/-! ## What the readers accept -/

section Accepted

variable {E : Engine R} {H : Host R} {obj : RequestObject} {field : String} {h h' : Heap R}

theorem dynIntoUint8Array_ok_iff {val out : Handed} {message : String} :
    dynIntoUint8Array val message h = .ok (out, h') ↔
      val.isUint8Array h = true ∧ out = val ∧ h' = h := by
  rw [dynIntoUint8Array, get_bind]
  by_cases array : val.isUint8Array h = true
  · rw [if_pos array, pure_ok_iff]
    exact (and_iff_right array).symm
  · rw [if_neg array]
    constructor
    · intro thrown
      cases thrown
    · rintro ⟨is, _⟩
      exact absurd is array

/-- Nothing nullish is an instance of anything. -/
theorem not_nullish_of_array {val : Handed} (array : val.isUint8Array h = true) :
    val.isNullish = false := by
  cases val with
  | fresh bytes => rfl
  | value v =>
    cases v with
    | undefined => cases array
    | null => cases array
    | _ => rfl

theorem readUint8Array_ok_iff {val : Handed} :
    readUint8Array E obj field h = .ok (val, h') ↔
      readField E obj field h = .ok (val, h') ∧ val.isUint8Array h' = true := by
  rw [readUint8Array, bind_ok_iff]
  constructor
  · rintro ⟨val', h₁, read, rest⟩
    cases nullish : val'.isNullish with
    | true =>
      rw [nullish] at rest
      cases rest
    | false =>
      rw [nullish, if_neg Bool.false_ne_true, dynIntoUint8Array_ok_iff] at rest
      obtain ⟨array, rfl, rfl⟩ := rest
      exact ⟨read, array⟩
  · rintro ⟨read, array⟩
    refine ⟨val, h', read, ?_⟩
    rw [not_nullish_of_array array, if_neg Bool.false_ne_true]
    exact dynIntoUint8Array_ok_iff.mpr ⟨array, rfl, rfl⟩

theorem readUint8Array20b_ok_iff {key : ByteArr 20} :
    readUint8Array20b H obj field h = .ok (key, h') ↔
      ∃ arr h₁ h₂, readField H.toEngine obj field h = .ok (arr, h₁) ∧
        arr.isUint8Array h₁ = true ∧ lengthOf H arr h₁ = .ok (20, h₂) ∧
        copyTo H 20 arr h₂ = .ok (key, h') := by
  simp only [readUint8Array20b, bind_ok_iff, readUint8Array_ok_iff]
  constructor
  · rintro ⟨arr, h₁, ⟨read, array⟩, len, h₂, measured, rest⟩
    by_cases wrong : len ≠ 20
    · rw [if_pos wrong] at rest
      cases rest
    · rw [if_neg wrong] at rest
      rw [not_not.mp wrong] at measured
      exact ⟨arr, h₁, h₂, read, array, measured, rest⟩
  · rintro ⟨arr, h₁, h₂, read, array, measured, copied⟩
    exact ⟨arr, h₁, ⟨read, array⟩, 20, h₂, measured, copied⟩

theorem readOptionalUint8Array_ok_iff {out : Option Handed} :
    readOptionalUint8Array E obj field h = .ok (out, h') ↔
      ∃ val, readField E obj field h = .ok (val, h') ∧
        (val.isNullish = true ∧ out = none ∨ val.isUint8Array h' = true ∧ out = some val) := by
  rw [readOptionalUint8Array, bind_ok_iff]
  constructor
  · rintro ⟨val, h₁, read, rest⟩
    cases nullish : val.isNullish with
    | true =>
      rw [nullish, if_pos rfl, pure_ok_iff] at rest
      obtain ⟨rfl, rfl⟩ := rest
      exact ⟨val, read, .inl ⟨nullish, rfl⟩⟩
    | false =>
      rw [nullish, if_neg Bool.false_ne_true, bind_ok_iff] at rest
      obtain ⟨arr, h₂, checked, rest⟩ := rest
      obtain ⟨array, rfl, rfl⟩ := dynIntoUint8Array_ok_iff.mp checked
      obtain ⟨rfl, rfl⟩ := pure_ok_iff.mp rest
      exact ⟨arr, read, .inr ⟨array, rfl⟩⟩
  · rintro ⟨val, read, ⟨nullish, rfl⟩ | ⟨array, rfl⟩⟩
    · refine ⟨val, h', read, ?_⟩
      rw [nullish, if_pos rfl]
      rfl
    · refine ⟨val, h', read, ?_⟩
      rw [not_nullish_of_array array, if_neg Bool.false_ne_true]
      exact bind_ok_iff.mpr ⟨val, h', dynIntoUint8Array_ok_iff.mpr ⟨array, rfl, rfl⟩, rfl⟩

theorem readOptionalString_ok_iff {out : Option String} :
    readOptionalString E obj field h = .ok (out, h') ↔
      ∃ val, readField E obj field h = .ok (val, h') ∧
        (val.isNullish = true ∧ out = none ∨ ∃ s, val = .value (.string s) ∧ out = some s) := by
  rw [readOptionalString, bind_ok_iff]
  constructor
  · rintro ⟨val, h₁, read, rest⟩
    cases nullish : val.isNullish with
    | true =>
      rw [nullish, if_pos rfl, pure_ok_iff] at rest
      obtain ⟨rfl, rfl⟩ := rest
      exact ⟨val, read, .inl ⟨nullish, rfl⟩⟩
    | false =>
      rw [nullish, if_neg Bool.false_ne_true] at rest
      cases text : val.asString with
      | none =>
        rw [text] at rest
        cases rest
      | some s =>
        rw [text] at rest
        obtain ⟨rfl, rfl⟩ := pure_ok_iff.mp rest
        match val, text with
        | .value (.string _), rfl => exact ⟨_, read, .inr ⟨_, rfl, rfl⟩⟩
  · rintro ⟨val, read, ⟨nullish, rfl⟩ | ⟨s, rfl, rfl⟩⟩
    · refine ⟨val, h', read, ?_⟩
      rw [nullish, if_pos rfl]
      rfl
    · exact ⟨_, h', read, rfl⟩

/-! ## Indices -/

/-- The words that are read as an index: the double of the index, and minus zero for zero. -/
def IndexWord (n : UInt32) (bits : UInt64) : Prop :=
  bits = Binary64.ofNat n.toNat ∨ n = 0 ∧ bits = 0x8000000000000000

theorem indexWord_iff {n : UInt32} {bits : UInt64} :
    IndexWord n bits ↔ Binary64.isFinite bits = true ∧ Binary64.value bits = n.toNat := by
  have small : n.toNat < 2 ^ 53 := Nat.lt_trans n.toNat_lt (by decide)
  have zero : n.toNat = 0 ↔ n = 0 := by rw [← UInt32.toNat_inj]; rfl
  rw [Binary64.finite_value_iff bits small, zero, IndexWord]

/-- The four conditions of the check leave the whole numbers that fit. -/
theorem index_checked_iff {n : UInt32} {bits : UInt64} :
    ¬ (¬ Binary64.isFinite bits ∨ Binary64.value bits < 0 ∨ Binary64.value bits > U32_MAX ∨
        Binary64.fract (Binary64.value bits) ≠ 0) ∧ n = Binary64.toUInt32 bits ↔
      IndexWord n bits := by
  rw [indexWord_iff, U32_MAX]
  push Not
  constructor
  · rintro ⟨⟨finite, nonneg, inside, whole⟩, rfl⟩
    obtain ⟨k, same⟩ := Binary64.exists_natCast whole nonneg
    have small : k < 2 ^ 32 := by
      rw [same] at inside
      have bound : k ≤ 4294967295 := by exact_mod_cast inside
      omega
    rw [Binary64.toUInt32_of_value finite same small, UInt32.toNat_ofNat_of_lt' small]
    exact ⟨finite, same⟩
  · rintro ⟨finite, same⟩
    have small := n.toNat_lt
    refine ⟨⟨finite, ?_, ?_, ?_⟩, ?_⟩
    · rw [same]
      exact n.toNat.cast_nonneg
    · rw [same]
      exact_mod_cast Nat.le_of_lt_succ small
    · rw [same, Binary64.fract, Binary64.trunc_natCast, Int.cast_natCast, sub_self]
    · rw [Binary64.toUInt32_of_value finite same small, UInt32.ofNat_toNat]

theorem readU32_ok_iff {n : UInt32} :
    readU32 E obj field h = .ok (n, h') ↔
      ∃ bits, readField E obj field h = .ok (.value (.number bits), h') ∧ IndexWord n bits := by
  rw [readU32, bind_ok_iff]
  constructor
  · rintro ⟨val, h₁, read, rest⟩
    cases nullish : val.isNullish with
    | true =>
      rw [nullish] at rest
      cases rest
    | false =>
      rw [nullish, if_neg Bool.false_ne_true] at rest
      cases number : val.asF64 with
      | none =>
        rw [number] at rest
        cases rest
      | some bits =>
        rw [number] at rest
        dsimp only at rest
        match val, number with
        | .value (.number _), rfl =>
          split at rest
          · cases rest
          · rename_i checked
            obtain ⟨rfl, rfl⟩ := pure_ok_iff.mp rest
            exact ⟨bits, read, index_checked_iff.mp ⟨checked, rfl⟩⟩
  · rintro ⟨bits, read, index⟩
    refine ⟨_, h', read, ?_⟩
    obtain ⟨checked, rfl⟩ := index_checked_iff.mpr index
    exact congrFun (if_neg checked) h'

theorem literal_read (E : Engine R) (h : Heap R) (field : String) (val : Handed) :
    readField E (.literal [(field, val)]) field h = .ok (val, h) := by
  have found : [(field, val)].lookup field = some val := by simp
  rw [readField, reflectGet, found]
  rfl

/-- Of all 64-bit words the ones with an index for a value are accepted, and read as that index;
each index has a word of its own, and zero a second one. -/
theorem index_exact (E : Engine R) (h : Heap R) (field : String) :
    (∀ bits : UInt64,
      (∃ n, readU32 E (.literal [(field, .value (.number bits))]) field h = .ok (n, h) ∧
        Binary64.isFinite bits = true ∧ Binary64.value bits = n.toNat ∧
        (bits = Binary64.ofNat n.toNat ∨ n = 0 ∧ bits = 0x8000000000000000)) ∨
      (∀ n : UInt32, Binary64.isFinite bits = true → Binary64.value bits ≠ n.toNat) ∧
        readU32 E (.literal [(field, .value (.number bits))]) field h =
          .error (.error (field ++ " must be a non-negative integer that fits in u32"))) ∧
    ∀ n : UInt32, readU32 E (.literal [(field, .value (.number (Binary64.ofNat n.toNat)))]) field
      h = .ok (n, h) := by
  have accepted {n : UInt32} {bits : UInt64} (index : IndexWord n bits) :
      readU32 E (.literal [(field, .value (.number bits))]) field h = .ok (n, h) :=
    readU32_ok_iff.mpr ⟨bits, literal_read E h field _, index⟩
  refine ⟨?_, fun n => accepted (.inl rfl)⟩
  intro bits
  by_cases some : ∃ n, IndexWord n bits
  · obtain ⟨n, index⟩ := some
    obtain ⟨finite, value⟩ := indexWord_iff.mp index
    exact .inl ⟨n, accepted index, finite, value, index⟩
  · refine .inr ⟨fun n finite value => some ⟨n, indexWord_iff.mpr ⟨finite, value⟩⟩, ?_⟩
    rw [readU32, bind_of_ok (literal_read E h field _)]
    by_cases fails : ¬ Binary64.isFinite bits ∨ Binary64.value bits < 0 ∨
        Binary64.value bits > U32_MAX ∨ Binary64.fract (Binary64.value bits) ≠ 0
    · exact congrFun (if_pos fails) h
    · exact absurd ⟨_, index_checked_iff.mp ⟨fails, rfl⟩⟩ some

end Accepted

end CmmEncrypt.Binding
