import CmmEncrypt.HeapInvariants
import CmmEncrypt.SmallCurve

/-!
# Requests of the binding

The fields of an object denote a request of the core when reading them changes nothing
and each holds what its reader accepts. Such a request is the one that is run; every
other object is rejected for the first field that does not fit.
-/

namespace CmmEncrypt.BindingRequests

open Wire Sapling Api FallibleState PrototypeChain JavaScript Plaintext Binding HeapInvariants

variable {R : Realm}

/-! ## Fields that are data -/

/-- A typed array that a 32-bit target can take over, and its bytes. -/
structure Holds (H : Host R) (h : Heap R) (arr : Handed) (bytes : Slice) : Prop where
  array : arr.isUint8Array h = true
  small : bytes.val.length < 2 ^ 31
  length : lengthOf H arr h = .ok (UInt32.ofNat bytes.val.length, h)
  copyTo : ∀ {n : ℕ} (size : bytes.val.length = n), copyTo H n arr h = .ok (⟨bytes.val, size⟩, h)
  toVec : toVec H arr h = .ok (bytes, h)

/-- An array that nobody else has holds its bytes. -/
theorem holds_fresh (H : Host R) (h : Heap R) (bytes : Slice) (small : bytes.val.length < 2 ^ 31) :
    Holds H h (.fresh bytes.val) bytes where
  array := rfl
  small := small
  length := rfl
  copyTo size := by
    rw [Binding.copyTo, dif_pos size]
    rfl
  toVec := by
    rw [Binding.toVec, dif_pos small]
    rfl

def requestFields : List String :=
  ["plaintext", "outerVdxfKey", "systemId", "label", "mimeType", "dataDepositVoutIndex",
    "signature"]

/-- The fields are data: reading one changes nothing, and the typed arrays among them can be
taken over. -/
structure Steady (H : Host R) (h : Heap R) (obj : RequestObject) (field : String → Handed) :
    Prop where
  read : ∀ name ∈ requestFields, reflectGet H.toEngine obj name h = .ok (field name, h)
  held : ∀ name ∈ requestFields, (field name).isUint8Array h = true →
    ∃ bytes, Holds H h (field name) bytes

def TextDenoted (val : Handed) (text : Option String) : Prop :=
  val.isNullish = true ∧ text = none ∨ ∃ s, val = .value (.string s) ∧ text = some s

def KeyDenoted (H : Host R) (h : Heap R) (val : Handed) (key : ByteArr 20) : Prop :=
  ∃ bytes, Holds H h val bytes ∧ bytes.val = key.toList

def BytesDenoted (H : Host R) (h : Heap R) (val : Handed) (bytes : Option Slice) : Prop :=
  val.isNullish = true ∧ bytes = none ∨ ∃ b, Holds H h val b ∧ bytes = some b

/-- The request of the core that the fields of an object denote. -/
structure Denotes (H : Host R) (h : Heap R) (field : String → Handed) (request : EncryptRequest) :
    Prop where
  plaintext : Holds H h (field "plaintext") request.plaintext
  outerVdxfKey : KeyDenoted H h (field "outerVdxfKey") request.outerVdxfKey
  systemId : KeyDenoted H h (field "systemId") request.systemId
  label : TextDenoted (field "label") request.label
  mimeType : TextDenoted (field "mimeType") request.mimeType
  dataDepositVoutIndex : ∃ bits, field "dataDepositVoutIndex" = .value (.number bits) ∧
    IndexWord request.dataDepositVoutIndex bits
  signature : BytesDenoted H h (field "signature") request.signature

section Steady

variable {H : Host R} {obj : RequestObject} {h h' : Heap R} {field : String → Handed}
variable {name : String}

theorem Steady.readField (steady : Steady H h obj field) (member : name ∈ requestFields) :
    readField H.toEngine obj name h = .ok (field name, h) := by
  rw [Binding.readField, steady.read name member]

theorem Steady.readField_ok_iff (steady : Steady H h obj field) (member : name ∈ requestFields)
    {val : Handed} :
    Binding.readField H.toEngine obj name h = .ok (val, h') ↔ val = field name ∧ h' = h := by
  rw [steady.readField member, Except.ok.injEq, Prod.mk.injEq, eq_comm, eq_comm (b := h')]

theorem Holds.unique {arr : Handed} {a b : Slice} (ha : Holds H h arr a) (hb : Holds H h arr b) :
    a = b := by
  have same := ha.toVec.symm.trans hb.toVec
  injection same with same
  exact (Prod.mk.inj same).1

theorem KeyDenoted.unique {arr : Handed} {a b : ByteArr 20} (ha : KeyDenoted H h arr a)
    (hb : KeyDenoted H h arr b) : a = b := by
  obtain ⟨bytes, holds, same⟩ := ha
  obtain ⟨bytes', holds', same'⟩ := hb
  rw [holds.unique holds'] at same
  exact Subtype.ext (same.symm.trans same')

theorem bytesDenoted_of_nullish {val : Handed} {bytes : Option Slice}
    (nullish : val.isNullish = true) : BytesDenoted H h val bytes ↔ bytes = none := by
  constructor
  · rintro (⟨_, rfl⟩ | ⟨b, holds, _⟩)
    · rfl
    · cases nullish.symm.trans (not_nullish_of_array holds.array)
  · intro absent
    exact .inl ⟨nullish, absent⟩

theorem bytesDenoted_of_holds {val : Handed} {bytes : Option Slice} {b : Slice}
    (holds : Holds H h val b) : BytesDenoted H h val bytes ↔ bytes = some b := by
  constructor
  · rintro (⟨nullish, _⟩ | ⟨b', holds', rfl⟩)
    · cases nullish.symm.trans (not_nullish_of_array holds.array)
    · rw [holds.unique holds']
  · intro present
    exact .inr ⟨b, holds, present⟩

theorem textDenoted_of_nullish {val : Handed} {text : Option String}
    (nullish : val.isNullish = true) : TextDenoted val text ↔ text = none := by
  constructor
  · rintro (⟨_, rfl⟩ | ⟨s, rfl, _⟩)
    · rfl
    · cases nullish
  · intro absent
    exact .inl ⟨nullish, absent⟩

theorem Steady.readUint8Array_iff (steady : Steady H h obj field)
    (member : name ∈ requestFields) {val : Handed} :
    readUint8Array H.toEngine obj name h = .ok (val, h') ↔
      val = field name ∧ h' = h ∧ ∃ bytes, Holds H h (field name) bytes := by
  rw [readUint8Array_ok_iff, steady.readField_ok_iff member]
  constructor
  · rintro ⟨⟨rfl, rfl⟩, array⟩
    exact ⟨rfl, rfl, steady.held name member array⟩
  · rintro ⟨rfl, rfl, bytes, holds⟩
    exact ⟨⟨rfl, rfl⟩, holds.array⟩

theorem Steady.readUint8Array20b_iff (steady : Steady H h obj field)
    (member : name ∈ requestFields) {key : ByteArr 20} :
    readUint8Array20b H obj name h = .ok (key, h') ↔
      h' = h ∧ KeyDenoted H h (field name) key := by
  simp only [readUint8Array20b_ok_iff, steady.readField_ok_iff member]
  constructor
  · rintro ⟨arr, h₁, h₂, ⟨rfl, rfl⟩, array, measured, copied⟩
    obtain ⟨bytes, holds⟩ := steady.held name member array
    rw [holds.length, Except.ok.injEq, Prod.mk.injEq] at measured
    obtain ⟨twenty, rfl⟩ := measured
    have size : bytes.val.length = 20 := by
      have value := congrArg UInt32.toNat twenty
      rw [UInt32.toNat_ofNat_of_lt' (Nat.lt_trans holds.small (by decide))] at value
      exact value
    rw [holds.copyTo size] at copied
    cases copied
    exact ⟨rfl, bytes, holds, rfl⟩
  · rintro ⟨rfl, bytes, holds, same⟩
    have size : bytes.val.length = 20 := by rw [same, List.Vector.toList_length]
    refine ⟨_, h', h', ⟨rfl, rfl⟩, holds.array, ?_, ?_⟩
    · rw [holds.length, size]
      rfl
    · rw [holds.copyTo size]
      exact congrArg (fun key => Except.ok (key, h')) (Subtype.ext same)

theorem Steady.readOptionalString_iff (steady : Steady H h obj field)
    (member : name ∈ requestFields) {text : Option String} :
    readOptionalString H.toEngine obj name h = .ok (text, h') ↔
      h' = h ∧ TextDenoted (field name) text := by
  simp only [readOptionalString_ok_iff, steady.readField_ok_iff member]
  constructor
  · rintro ⟨val, ⟨rfl, rfl⟩, denoted⟩
    exact ⟨rfl, denoted⟩
  · rintro ⟨rfl, denoted⟩
    exact ⟨_, ⟨rfl, rfl⟩, denoted⟩

theorem Steady.readU32_iff (steady : Steady H h obj field) (member : name ∈ requestFields)
    {n : UInt32} :
    readU32 H.toEngine obj name h = .ok (n, h') ↔
      h' = h ∧ ∃ bits, field name = .value (.number bits) ∧ IndexWord n bits := by
  simp only [readU32_ok_iff, steady.readField_ok_iff member]
  constructor
  · rintro ⟨bits, ⟨same, rfl⟩, index⟩
    exact ⟨rfl, bits, same.symm, index⟩
  · rintro ⟨rfl, bits, same, index⟩
    exact ⟨bits, ⟨same.symm, rfl⟩, index⟩

theorem Steady.readOptionalUint8Array_iff (steady : Steady H h obj field)
    (member : name ∈ requestFields) {out : Option Handed} :
    readOptionalUint8Array H.toEngine obj name h = .ok (out, h') ↔
      h' = h ∧ ((field name).isNullish = true ∧ out = none ∨
        ∃ bytes, Holds H h (field name) bytes ∧ out = some (field name)) := by
  simp only [readOptionalUint8Array_ok_iff, steady.readField_ok_iff member]
  constructor
  · rintro ⟨val, ⟨rfl, rfl⟩, absent | ⟨array, rfl⟩⟩
    · exact ⟨rfl, .inl absent⟩
    · obtain ⟨bytes, holds⟩ := steady.held name member array
      exact ⟨rfl, .inr ⟨bytes, holds, rfl⟩⟩
  · rintro ⟨rfl, absent | ⟨bytes, holds, rfl⟩⟩
    · exact ⟨_, ⟨rfl, rfl⟩, .inl absent⟩
    · exact ⟨_, ⟨rfl, rfl⟩, .inr ⟨holds.array, rfl⟩⟩

theorem optionToVec_iff {signature : Option Handed} {out : Option Slice} {val : Handed}
    (read : val.isNullish = true ∧ signature = none ∨
      ∃ bytes, Holds H h val bytes ∧ signature = some val) :
    optionToVec H signature h = .ok (out, h') ↔ h' = h ∧ BytesDenoted H h val out := by
  rcases read with ⟨nullish, rfl⟩ | ⟨bytes, holds, rfl⟩
  · rw [optionToVec, pure_ok_iff, bytesDenoted_of_nullish nullish, and_comm]
  · rw [optionToVec, bind_of_ok holds.toVec, pure_ok_iff, bytesDenoted_of_holds holds, and_comm]

variable {r : ℕ} {Point Rng : Type} [AddCommGroup Point] [DecidableEq Point]
variable {P : Primitives r Point Rng} {rng : Rng} {request : EncryptRequest} {built : Built}

/-- The binding runs the core on the request that the fields denote. -/
theorem encryptPublicDecryptJs_eq (steady : Steady H h obj field)
    (denotes : Denotes H h field request) :
    encryptPublicDecryptJs H P rng obj h = runCore H P rng request h := by
  have plaintext := (steady.readUint8Array_iff (by decide)).mpr
    ⟨rfl, rfl, _, denotes.plaintext⟩
  have outerVdxfKey := (steady.readUint8Array20b_iff (by decide)).mpr ⟨rfl, denotes.outerVdxfKey⟩
  have systemId := (steady.readUint8Array20b_iff (by decide)).mpr ⟨rfl, denotes.systemId⟩
  have label := (steady.readOptionalString_iff (by decide)).mpr ⟨rfl, denotes.label⟩
  have mimeType := (steady.readOptionalString_iff (by decide)).mpr ⟨rfl, denotes.mimeType⟩
  have index := (steady.readU32_iff (by decide)).mpr ⟨rfl, denotes.dataDepositVoutIndex⟩
  obtain ⟨signature, read⟩ : ∃ signature : Option Handed,
      (field "signature").isNullish = true ∧ signature = none ∨
        ∃ bytes, Holds H h (field "signature") bytes ∧ signature = some (field "signature") := by
    rcases denotes.signature with ⟨nullish, _⟩ | ⟨bytes, holds, _⟩
    · exact ⟨none, .inl ⟨nullish, rfl⟩⟩
    · exact ⟨_, .inr ⟨bytes, holds, rfl⟩⟩
  have signatureRead := (steady.readOptionalUint8Array_iff (by decide)).mpr ⟨rfl, read⟩
  have copied := (optionToVec_iff read).mpr ⟨rfl, denotes.signature⟩
  rw [encryptPublicDecryptJs, bind_of_ok plaintext, bind_of_ok outerVdxfKey, bind_of_ok systemId,
    bind_of_ok label, bind_of_ok mimeType, bind_of_ok index, bind_of_ok signatureRead,
    bind_of_ok denotes.plaintext.toVec, bind_of_ok copied]

/-- Unless the fields denote a request there is no result. -/
theorem encryptPublicDecryptJs_ok (steady : Steady H h obj field)
    (run : encryptPublicDecryptJs H P rng obj h = .ok (built, h')) :
    ∃ request, Denotes H h field request ∧ runCore H P rng request h = .ok (built, h') := by
  simp only [encryptPublicDecryptJs, bind_ok_iff] at run
  obtain ⟨plaintext, h₁, plaintextRead, key, h₂, keyRead, system, h₃, systemRead, label, h₄,
    labelRead, mimeType, h₅, mimeRead, index, h₆, indexRead, signature, h₇, signatureRead,
    plaintextBytes, h₈, plaintextCopied, signatureBytes, h₉, signatureCopied, core⟩ := run
  obtain ⟨rfl, rfl, bytes, holds⟩ := (steady.readUint8Array_iff (by decide)).mp plaintextRead
  obtain ⟨rfl, keyed⟩ := (steady.readUint8Array20b_iff (by decide)).mp keyRead
  obtain ⟨rfl, named⟩ := (steady.readUint8Array20b_iff (by decide)).mp systemRead
  obtain ⟨rfl, labelled⟩ := (steady.readOptionalString_iff (by decide)).mp labelRead
  obtain ⟨rfl, typed⟩ := (steady.readOptionalString_iff (by decide)).mp mimeRead
  obtain ⟨rfl, indexed⟩ := (steady.readU32_iff (by decide)).mp indexRead
  obtain ⟨rfl, signed⟩ := (steady.readOptionalUint8Array_iff (by decide)).mp signatureRead
  rw [holds.toVec] at plaintextCopied
  cases plaintextCopied
  obtain ⟨rfl, attached⟩ := (optionToVec_iff signed).mp signatureCopied
  exact ⟨_, ⟨holds, keyed, named, labelled, typed, indexed, attached⟩, core⟩

end Steady

/-! ## An object on a heap -/

def exampleField : String → Value
  | "plaintext" => .string "hi"
  | "outerVdxfKey" => .string "aAAaaaaaaaaaaaaaaaaaaaaaaaaaaaaaaaaaaaaa"
  | "systemId" => .object 9
  | "label" => .string "l"
  | "dataDepositVoutIndex" => .number (Binary64.ofNat 7)
  | "signature" => .object 10
  | _ => .undefined

theorem twenty_short : (List.replicate 20 (0xBB : UInt8)).length < 2 ^ 63 := by decide

theorem one_short : ([7] : Bytes).length < 2 ^ 63 := by decide

theorem none_short : ([] : Bytes).length < 2 ^ 63 := by decide

/-- The elements of 9, a `Uint8Array`, and of 10, a Buffer. -/
def exampleElements : Value → Slice
  | .object 9 => ⟨List.replicate 20 0xBB, twenty_short⟩
  | .object 10 => ⟨[7], one_short⟩
  | _ => ⟨[], none_short⟩

/-- 8 is the input, and 11 is the getter of `length` on `Uint8Array.prototype`. -/
def exampleHeap : Heap ownRealm where
  own r key :=
    if r = 8 ∧ key ∈ requestFields then some (.data (exampleField key))
    else if r = 2 ∧ key = "length" then some (.accessor (some 11))
    else none
  proto r :=
    if r = 0 then none else if r = 3 ∨ r = 9 then some 2 else if r = 10 then some 3 else some 0
  wellFounded := by
    refine Subrelation.wf (fun {q r} next => ?_) Nat.lt_wfRel.wf
    have lower : ∀ q r : Nat, (if r = 0 then none else if r = 3 ∨ r = 9 then some 2
        else if r = 10 then some 3 else some 0) = some q → q < r := by
      intro q r next
      split at next
      · cases next
      · split at next
        · cases next
          omega
        · split at next <;> cases next <;> omega
    exact lower q r next
  writable _ _ := true
  setter _ _ := none
  callable r := r = 11
  array _ := false
  view r := r = 9 ∨ r = 10
  rooted q object := by
    have zero : q = 0 := by simpa [ownRealm] using object
    simp [zero]

def exampleHost : Host ownRealm where
  call _ this _ := pure (.number (Binary64.ofNat (exampleElements this).val.length))
  primitiveMember _ _ := pure .undefined
  toText _ := pure ""
  newUint8Array v := pure (exampleElements v).val
  serialize _ := pure (some "\x7b\x7d")
  length v := pure (UInt32.ofNat (exampleElements v).val.length)
  copyTo n v :=
    if size : (exampleElements v).val.length = n then pure ⟨(exampleElements v).val, size⟩
    else trap
  toVec v := pure (exampleElements v)
  newArray scripts := pure (.array scripts)
  callSetter _ fields _ := pure fields
  callGetter _ _ := pure (.value .undefined)
  bufferFrom
    | .bytes bytes => pure bytes
    | _ => throw (.typeError "The first argument must be of type string or an array")
  mapBuffers
    | .array elements => pure elements
    | _ => throw (.typeError "map is not a function")

theorem exampleHost_field {name : String} (member : name ∈ requestFields) :
    exampleHost.member (.object 8) name exampleHeap = .ok (exampleField name, exampleHeap) := by
  have own : exampleHeap.own 8 name = some (.data (exampleField name)) :=
    if_pos ⟨rfl, member⟩
  exact getProperty_some (Objects.lookup_own own)

theorem exampleHost_holds {q : Ref} (array : exampleHeap.inherits 2 q = true)
    (small : (exampleElements (.object q)).val.length < 2 ^ 31) :
    Holds exampleHost exampleHeap (.value (.object q)) (exampleElements (.object q)) where
  array := array
  small := small
  length := rfl
  copyTo {k} size := by
    change (if size : (exampleElements (.object q)).val.length = k then _ else _ : Js ownRealm _)
      exampleHeap = _
    rw [dif_pos size]
    rfl
  toVec := rfl

theorem exampleHeap_nine : exampleHeap.inherits 2 9 = true ∧
    exampleHeap.lookup "length" 9 = some (2, .accessor (some 11)) := by
  constructor
  · rw [Objects.inherits_proto (q := 2) rfl, if_pos rfl]
  · rw [Objects.lookup_proto (q := 2) rfl rfl, Objects.lookup_own rfl]

theorem exampleHeap_ten : exampleHeap.inherits 2 10 = true ∧
    exampleHeap.lookup "length" 10 = some (2, .accessor (some 11)) := by
  constructor
  · rw [Objects.inherits_proto (q := 3) rfl, if_neg (by decide),
      Objects.inherits_proto (q := 2) rfl, if_pos rfl]
  · rw [Objects.lookup_proto (q := 3) rfl rfl, Objects.lookup_proto (q := 2) rfl rfl,
      Objects.lookup_own rfl]

theorem example_data : Steady exampleHost exampleHeap (.value (.object 8))
    (fun name => .value (exampleField name)) where
  read name member := by
    have read : exampleHost.getProperty 8 name exampleHeap = .ok (exampleField name, exampleHeap) :=
      exampleHost_field member
    rw [reflectGet, bind_of_ok read]
    rfl
  held := by
    simp only [requestFields, List.forall_mem_cons, List.not_mem_nil, false_implies,
      implies_true, and_true]
    refine ⟨?_, ?_, ?_, ?_, ?_, ?_, ?_⟩
    · exact fun array => absurd array Bool.false_ne_true
    · exact fun array => absurd array Bool.false_ne_true
    · exact fun _ => ⟨_, exampleHost_holds exampleHeap_nine.1 (by decide)⟩
    · exact fun array => absurd array Bool.false_ne_true
    · exact fun array => absurd array Bool.false_ne_true
    · exact fun array => absurd array Bool.false_ne_true
    · exact fun _ => ⟨_, exampleHost_holds exampleHeap_ten.1 (by decide)⟩

section Objections

variable {H : Host R} {obj : RequestObject} {h h' : Heap R} {field : String → Handed}
variable {name : String}

/-! ## The first field that does not fit -/

inductive FieldKind where
  | array
  | key
  | text
  | index
  | optionalArray

/-- The reader of each field. -/
def kindOf : String → FieldKind
  | "plaintext" => .array
  | "outerVdxfKey" => .key
  | "systemId" => .key
  | "label" => .text
  | "mimeType" => .text
  | "dataDepositVoutIndex" => .index
  | _ => .optionalArray

/-- What there is to object to in a value, and the words for it. -/
inductive Objection (H : Host R) (h : Heap R) : FieldKind → Handed → String → Prop
  | required {val : Handed} (nullish : val.isNullish = true) :
      Objection H h .array val " is required (Uint8Array)"
  | notArray {val : Handed} (present : val.isNullish = false) (other : val.isUint8Array h = false) :
      Objection H h .array val " must be a Uint8Array"
  | noKey {val : Handed} {m : String} (objection : Objection H h .array val m) :
      Objection H h .key val m
  | wrongLength {val : Handed} {bytes : Slice} (holds : Holds H h val bytes)
      (size : bytes.val.length ≠ 20) :
      Objection H h .key val (" must be exactly 20 bytes, got " ++ toString bytes.val.length)
  | notText {val : Handed} (present : val.isNullish = false) (other : val.asString = none) :
      Objection H h .text val " must be a string (or null/undefined)"
  | missing {val : Handed} (nullish : val.isNullish = true) :
      Objection H h .index val " is required (number)"
  | notNumber {val : Handed} (present : val.isNullish = false) (other : val.asF64 = none) :
      Objection H h .index val " must be a number"
  | notIndex {val : Handed} {bits : UInt64} (number : val.asF64 = some bits)
      (none : ∀ n, ¬ IndexWord n bits) :
      Objection H h .index val " must be a non-negative integer that fits in u32"
  | notOptional {val : Handed} (present : val.isNullish = false)
      (other : val.isUint8Array h = false) :
      Objection H h .optionalArray val " must be a Uint8Array (or null/undefined)"

/-- A reader objects to a field, or there is nothing to object to and it answers. -/
def Judged (H : Host R) (h : Heap R) (field : String → Handed) (name : String) {α : Type}
    (reader : Js R α) : Prop :=
  (∃ m, Objection H h (kindOf name) (field name) m ∧ reader h = .error (.error (name ++ m))) ∨
    (∀ m, ¬ Objection H h (kindOf name) (field name) m) ∧ ∃ a, reader h = .ok (a, h)

/-- Reading the fields in turn, every run stops at the first that there is something to object
to. -/
def Rejects (H : Host R) (h : Heap R) (field : String → Handed) (fields : List String)
    {ι α : Type} (run : ι → Js R α) : Prop :=
  ∃ earlier name later m, fields = earlier ++ name :: later ∧
    (∀ before ∈ earlier, ∀ m, ¬ Objection H h (kindOf before) (field before) m) ∧
    Objection H h (kindOf name) (field name) m ∧
    ∀ i, run i h = .error (.error (name ++ m))

section Rejected

variable {ι α β : Type} {fields : List String} {reader : Js R β} {rest : ι → β → Js R α}

theorem Rejects.here {m : String} (objection : Objection H h (kindOf name) (field name) m)
    (thrown : reader h = .error (.error (name ++ m))) :
    Rejects H h field (name :: fields) (fun i => reader >>= rest i) :=
  ⟨[], name, fields, m, rfl, List.forall_mem_nil _, objection, fun _ => bind_of_error thrown⟩

theorem Rejects.later {a : β} (fits : ∀ m, ¬ Objection H h (kindOf name) (field name) m)
    (read : reader h = .ok (a, h)) (rejects : Rejects H h field fields (fun i => rest i a)) :
    Rejects H h field (name :: fields) (fun i => reader >>= rest i) := by
  obtain ⟨earlier, culprit, later, m, rfl, silent, objection, thrown⟩ := rejects
  refine ⟨name :: earlier, culprit, later, m, rfl, ?_, objection, fun i => ?_⟩
  · rw [List.forall_mem_cons]
    exact ⟨fits, silent⟩
  · exact (bind_of_ok read).trans (thrown i)

end Rejected

theorem Steady.readUint8Array_judged (steady : Steady H h obj field)
    (member : name ∈ requestFields) :
    (∃ m, Objection H h .array (field name) m ∧
      readUint8Array H.toEngine obj name h = .error (.error (name ++ m))) ∨
    (∀ m, ¬ Objection H h .array (field name) m) ∧
      readUint8Array H.toEngine obj name h = .ok (field name, h) := by
  have read := steady.readField member
  rw [readUint8Array, bind_of_ok read]
  cases nullish : (field name).isNullish with
  | true => exact .inl ⟨_, .required nullish, rfl⟩
  | false =>
    rw [if_neg Bool.false_ne_true, dynIntoUint8Array, get_bind]
    cases array : (field name).isUint8Array h with
    | false => exact .inl ⟨_, .notArray nullish array, rfl⟩
    | true =>
      refine .inr ⟨?_, rfl⟩
      intro m objection
      cases objection with
      | required absent => cases nullish.symm.trans absent
      | notArray _ other => cases array.symm.trans other

theorem Steady.readUint8Array20b_judged (steady : Steady H h obj field)
    (member : name ∈ requestFields) (kind : kindOf name = .key) :
    Judged H h field name (readUint8Array20b H obj name) := by
  rw [Judged, kind, readUint8Array20b]
  rcases steady.readUint8Array_judged member with ⟨m, objection, thrown⟩ | ⟨silent, read⟩
  · exact .inl ⟨m, .noKey objection, bind_of_error thrown⟩
  · obtain ⟨_, _, bytes, holds⟩ := (steady.readUint8Array_iff member).mp read
    have length : (UInt32.ofNat bytes.val.length).toNat = bytes.val.length :=
      UInt32.toNat_ofNat_of_lt' (Nat.lt_trans holds.small (by decide))
    rw [bind_of_ok read, bind_of_ok holds.length]
    by_cases size : bytes.val.length = 20
    · refine .inr ⟨?_, ?_⟩
      · intro m objection
        cases objection with
        | noKey objection => exact silent m objection
        | wrongLength holds' wrong =>
          rw [holds.unique holds'] at size
          exact wrong size
      · rw [size]
        exact ⟨_, holds.copyTo size⟩
    · refine .inl ⟨_, .wrongLength holds size, ?_⟩
      have wrong : UInt32.ofNat bytes.val.length ≠ 20 := by
        intro same
        rw [same] at length
        exact size length.symm
      rw [if_pos wrong, length, String.append_assoc]
      rfl

theorem Steady.readOptionalString_judged (steady : Steady H h obj field)
    (member : name ∈ requestFields) (kind : kindOf name = .text) :
    Judged H h field name (readOptionalString H.toEngine obj name) := by
  rw [Judged, kind, readOptionalString, bind_of_ok (steady.readField member)]
  cases nullish : (field name).isNullish with
  | true =>
    refine .inr ⟨?_, _, rfl⟩
    intro m objection
    cases objection with
    | notText present _ => cases nullish.symm.trans present
  | false =>
    cases text : (field name).asString with
    | none => exact .inl ⟨_, .notText nullish text, rfl⟩
    | some s =>
      refine .inr ⟨?_, _, rfl⟩
      intro m objection
      cases objection with
      | notText _ other => cases text.symm.trans other

theorem Steady.readU32_judged (steady : Steady H h obj field) (member : name ∈ requestFields)
    (kind : kindOf name = .index) :
    Judged H h field name (readU32 H.toEngine obj name) := by
  rw [Judged, kind, readU32, bind_of_ok (steady.readField member)]
  cases nullish : (field name).isNullish with
  | true => exact .inl ⟨_, .missing nullish, rfl⟩
  | false =>
    cases number : (field name).asF64 with
    | none => exact .inl ⟨_, .notNumber nullish number, rfl⟩
    | some bits =>
      dsimp only
      rw [if_neg Bool.false_ne_true]
      split
      · rename_i fails
        refine .inl ⟨_, .notIndex number ?_, rfl⟩
        intro n index
        exact (index_checked_iff.mpr index).1 fails
      · rename_i passes
        refine .inr ⟨?_, _, rfl⟩
        have index : IndexWord _ bits := index_checked_iff.mp ⟨passes, rfl⟩
        intro m objection
        cases objection with
        | missing absent => cases nullish.symm.trans absent
        | notNumber _ other => cases number.symm.trans other
        | notIndex same none =>
          cases number.symm.trans same
          exact none _ index

theorem Steady.readOptionalUint8Array_judged (steady : Steady H h obj field)
    (member : name ∈ requestFields) (kind : kindOf name = .optionalArray) :
    Judged H h field name (readOptionalUint8Array H.toEngine obj name) := by
  rw [Judged, kind, readOptionalUint8Array, bind_of_ok (steady.readField member)]
  cases nullish : (field name).isNullish with
  | true =>
    refine .inr ⟨?_, _, rfl⟩
    intro m objection
    cases objection with
    | notOptional present _ => cases nullish.symm.trans present
  | false =>
    rw [if_neg Bool.false_ne_true]
    cases array : (field name).isUint8Array h with
    | false =>
      refine .inl ⟨_, .notOptional nullish array, ?_⟩
      apply bind_of_error
      rw [dynIntoUint8Array, get_bind, array]
      rfl
    | true =>
      refine .inr ⟨?_, some (field name), ?_⟩
      · intro m objection
        cases objection with
        | notOptional _ other => cases array.symm.trans other
      · rw [bind_of_ok (dynIntoUint8Array_ok_iff.mpr ⟨array, rfl, rfl⟩)]
        rfl

variable {r : ℕ} {Point Rng : Type} [AddCommGroup Point] [DecidableEq Point]

/-- The binding runs the core on what the fields denote, or it throws for the first field that
there is something to object to. Neither depends on the generator. -/
theorem first_objection (P : Primitives r Point Rng) (steady : Steady H h obj field) :
    (∃ request, Denotes H h field request ∧
      ∀ rng, encryptPublicDecryptJs H P rng obj h = runCore H P rng request h) ∨
    ∃ earlier name later m, requestFields = earlier ++ name :: later ∧
      (∀ before ∈ earlier, ∀ m, ¬ Objection H h (kindOf before) (field before) m) ∧
      Objection H h (kindOf name) (field name) m ∧
      ∀ rng, encryptPublicDecryptJs H P rng obj h = .error (.error (name ++ m)) := by
  have plaintextAt : "plaintext" ∈ requestFields := by decide
  have outerAt : "outerVdxfKey" ∈ requestFields := by decide
  have systemAt : "systemId" ∈ requestFields := by decide
  have labelAt : "label" ∈ requestFields := by decide
  have mimeAt : "mimeType" ∈ requestFields := by decide
  have indexAt : "dataDepositVoutIndex" ∈ requestFields := by decide
  have signatureAt : "signature" ∈ requestFields := by decide
  have settled : (∃ request, Denotes H h field request) ∨
      Rejects H h field requestFields (fun rng => encryptPublicDecryptJs H P rng obj) := by
    unfold encryptPublicDecryptJs requestFields
    rcases steady.readUint8Array_judged plaintextAt with
      ⟨m, objection, thrown⟩ | ⟨plaintextFits, plaintextRead⟩
    · exact .inr (.here objection thrown)
    refine Or.imp_right (.later plaintextFits plaintextRead) ?_
    rcases steady.readUint8Array20b_judged outerAt rfl with
      ⟨m, objection, thrown⟩ | ⟨outerFits, outer, outerRead⟩
    · exact .inr (.here objection thrown)
    refine Or.imp_right (.later outerFits outerRead) ?_
    rcases steady.readUint8Array20b_judged systemAt rfl with
      ⟨m, objection, thrown⟩ | ⟨systemFits, system, systemRead⟩
    · exact .inr (.here objection thrown)
    refine Or.imp_right (.later systemFits systemRead) ?_
    rcases steady.readOptionalString_judged labelAt rfl with
      ⟨m, objection, thrown⟩ | ⟨labelFits, label, labelRead⟩
    · exact .inr (.here objection thrown)
    refine Or.imp_right (.later labelFits labelRead) ?_
    rcases steady.readOptionalString_judged mimeAt rfl with
      ⟨m, objection, thrown⟩ | ⟨mimeFits, mimeType, mimeRead⟩
    · exact .inr (.here objection thrown)
    refine Or.imp_right (.later mimeFits mimeRead) ?_
    rcases steady.readU32_judged indexAt rfl with
      ⟨m, objection, thrown⟩ | ⟨indexFits, index, indexRead⟩
    · exact .inr (.here objection thrown)
    refine Or.imp_right (.later indexFits indexRead) ?_
    rcases steady.readOptionalUint8Array_judged signatureAt rfl with
      ⟨m, objection, thrown⟩ | ⟨_, signature, signatureRead⟩
    · exact .inr (.here objection thrown)
    obtain ⟨_, _, bytes, holds⟩ := (steady.readUint8Array_iff plaintextAt).mp plaintextRead
    obtain ⟨_, read⟩ := (steady.readOptionalUint8Array_iff signatureAt).mp signatureRead
    have attached : ∃ out, BytesDenoted H h (field "signature") out := by
      rcases read with ⟨nullish, _⟩ | ⟨b, held, _⟩
      · exact ⟨none, .inl ⟨nullish, rfl⟩⟩
      · exact ⟨some b, .inr ⟨b, held, rfl⟩⟩
    obtain ⟨out, denoted⟩ := attached
    have denotes : Denotes H h field
        { plaintext := bytes, outerVdxfKey := outer, systemId := system, label, mimeType,
          dataDepositVoutIndex := index, signature := out } :=
      { plaintext := holds
        outerVdxfKey := ((steady.readUint8Array20b_iff outerAt).mp outerRead).2
        systemId := ((steady.readUint8Array20b_iff systemAt).mp systemRead).2
        label := ((steady.readOptionalString_iff labelAt).mp labelRead).2
        mimeType := ((steady.readOptionalString_iff mimeAt).mp mimeRead).2
        dataDepositVoutIndex := ((steady.readU32_iff indexAt).mp indexRead).2
        signature := denoted }
    exact .inl ⟨_, denotes⟩
  refine settled.imp_left ?_
  rintro ⟨request, denotes⟩
  exact ⟨request, denotes, fun rng => encryptPublicDecryptJs_eq steady denotes⟩

end Objections

/-- The binding takes no text for a plaintext. -/
theorem first_objection_small : ∃ m, ∀ rng,
    encryptPublicDecryptJs exampleHost SmallCurve.primitives rng (.value (.object 8)) exampleHeap =
      .error (.error ("plaintext" ++ m)) := by
  have text : Objection exampleHost exampleHeap .array (.value (exampleField "plaintext"))
      " must be a Uint8Array" := .notArray rfl rfl
  rcases first_objection SmallCurve.primitives example_data with
    ⟨request, denotes, _⟩ | ⟨earlier, name, later, m, fields, fits, _, thrown⟩
  · cases denotes.plaintext.array
  · cases earlier with
    | nil =>
      obtain ⟨rfl, _⟩ := List.cons.inj fields
      exact ⟨m, thrown⟩
    | cons first earlier =>
      obtain ⟨rfl, _⟩ := List.cons.inj fields
      exact absurd text (fits _ List.mem_cons_self _)

/-! ## Fields that nobody else can change -/

/-- What a request has in common with the fields that it was read from, whatever else ran while
they were read. -/
structure Takes (field : String → Handed) (request : EncryptRequest) : Prop where
  plaintext : ∀ bytes, field "plaintext" = .fresh bytes → request.plaintext.val = bytes
  outerVdxfKey : ∀ bytes, field "outerVdxfKey" = .fresh bytes →
    request.outerVdxfKey.toList = bytes
  systemId : ∀ bytes, field "systemId" = .fresh bytes → request.systemId.toList = bytes
  label : TextDenoted (field "label") request.label
  mimeType : TextDenoted (field "mimeType") request.mimeType
  dataDepositVoutIndex : ∃ bits, field "dataDepositVoutIndex" = .value (.number bits) ∧
    IndexWord request.dataDepositVoutIndex bits
  signature : ∀ bytes, field "signature" = .fresh bytes →
    ∃ s, request.signature = some s ∧ s.val = bytes
  unsigned : request.signature = none ↔ (field "signature").isNullish = true

section Fixed

variable {H : Host R} {obj : RequestObject} {h h' : Heap R} {field : String → Handed}
variable {name : String}

theorem copyTo_fresh {n : ℕ} {bytes : Bytes} {out : ByteArr n}
    (run : copyTo H n (.fresh bytes) h = .ok (out, h')) : out.toList = bytes := by
  rw [copyTo] at run
  split at run
  · cases run
    rfl
  · cases run

theorem toVec_fresh {bytes : Bytes} {out : Slice}
    (run : toVec H (.fresh bytes) h = .ok (out, h')) : out.val = bytes := by
  rw [toVec] at run
  split at run
  · cases run
    rfl
  · cases run

variable (fixed : ∀ name ∈ requestFields, ∀ h : Heap R,
  reflectGet H.toEngine obj name h = .ok (field name, h))
include fixed

theorem readField_fixed (member : name ∈ requestFields) {val : Handed}
    (read : readField H.toEngine obj name h = .ok (val, h')) : val = field name ∧ h' = h := by
  rw [readField, fixed name member] at read
  cases read
  exact ⟨rfl, rfl⟩

theorem readUint8Array20b_fixed (member : name ∈ requestFields) {key : ByteArr 20}
    (read : readUint8Array20b H obj name h = .ok (key, h')) :
    ∀ bytes, field name = .fresh bytes → key.toList = bytes := by
  obtain ⟨arr, h₁, h₂, got, _, _, copied⟩ := readUint8Array20b_ok_iff.mp read
  obtain ⟨rfl, rfl⟩ := readField_fixed fixed member got
  intro bytes own
  rw [own] at copied
  exact copyTo_fresh copied

theorem readOptionalString_fixed (member : name ∈ requestFields) {text : Option String}
    (read : readOptionalString H.toEngine obj name h = .ok (text, h')) :
    TextDenoted (field name) text := by
  obtain ⟨val, got, denoted⟩ := readOptionalString_ok_iff.mp read
  obtain ⟨rfl, _⟩ := readField_fixed fixed member got
  exact denoted

variable {r : ℕ} {Point Rng : Type} [AddCommGroup Point] [DecidableEq Point]
variable {P : Primitives r Point Rng} {rng : Rng} {built : Built}

/-- A result is the core's on a request that takes the fields over, and what every function on
the heap leaves alone is as it was when the core is run. -/
theorem encryptPublicDecryptJs_takes
    (run : encryptPublicDecryptJs H P rng obj h = .ok (built, h')) :
    ∃ request h₁, Takes field request ∧ (∀ I, Leaves H I → I h → I h₁) ∧
      runCore H P rng request h₁ = .ok (built, h') := by
  simp only [encryptPublicDecryptJs, bind_ok_iff] at run
  obtain ⟨plaintext, h₁, plaintextRead, key, h₂, keyRead, system, h₃, systemRead, label, h₄,
    labelRead, mimeType, h₅, mimeRead, index, h₆, indexRead, signature, h₇, signatureRead,
    plaintextBytes, h₈, plaintextCopied, signatureBytes, h₉, signatureCopied, core⟩ := run
  have left : ∀ I, Leaves H I → I h → I h₉ := by
    intro I leaves start
    have i₁ := keeps_readUint8Array leaves obj _ _ _ _ start plaintextRead
    have i₂ := keeps_readUint8Array20b leaves obj _ _ _ _ i₁ keyRead
    have i₃ := keeps_readUint8Array20b leaves obj _ _ _ _ i₂ systemRead
    have i₄ := keeps_readOptionalString leaves obj _ _ _ _ i₃ labelRead
    have i₅ := keeps_readOptionalString leaves obj _ _ _ _ i₄ mimeRead
    have i₆ := keeps_readU32 leaves obj _ _ _ _ i₅ indexRead
    have i₇ := keeps_readOptionalUint8Array leaves obj _ _ _ _ i₆ signatureRead
    have i₈ := keeps_toVec leaves _ _ _ _ i₇ plaintextCopied
    exact keeps_optionToVec leaves _ _ _ _ i₈ signatureCopied
  obtain ⟨rfl, _⟩ := readField_fixed fixed (by decide) (readUint8Array_ok_iff.mp plaintextRead).1
  obtain ⟨bits, got, indexed⟩ := readU32_ok_iff.mp indexRead
  obtain ⟨number, _⟩ := readField_fixed fixed (by decide) got
  obtain ⟨val, got, signed⟩ := readOptionalUint8Array_ok_iff.mp signatureRead
  obtain ⟨rfl, _⟩ := readField_fixed fixed (by decide) got
  refine ⟨_, _, ?_, left, core⟩
  have signatureTaken : (∀ bytes, field "signature" = .fresh bytes →
      ∃ s, signatureBytes = some s ∧ s.val = bytes) ∧
      (signatureBytes = none ↔ (field "signature").isNullish = true) := by
    rcases signed with ⟨nullish, rfl⟩ | ⟨array, rfl⟩
    · obtain ⟨rfl, _⟩ := pure_ok_iff.mp signatureCopied
      refine ⟨fun bytes own => ?_, iff_of_true rfl nullish⟩
      rw [own] at nullish
      cases nullish
    · obtain ⟨s, _, copied, rest⟩ := bind_ok_iff.mp signatureCopied
      obtain ⟨rfl, _⟩ := pure_ok_iff.mp rest
      refine ⟨fun bytes own => ⟨s, rfl, ?_⟩, iff_of_false (Option.some_ne_none s) ?_⟩
      · rw [own] at copied
        exact toVec_fresh copied
      · rw [not_nullish_of_array array]
        exact Bool.false_ne_true
  exact
    { plaintext := fun bytes own => toVec_fresh (own ▸ plaintextCopied)
      outerVdxfKey := readUint8Array20b_fixed fixed (by decide) keyRead
      systemId := readUint8Array20b_fixed fixed (by decide) systemRead
      label := readOptionalString_fixed fixed (by decide) labelRead
      mimeType := readOptionalString_fixed fixed (by decide) mimeRead
      dataDepositVoutIndex := ⟨bits, number.symm, indexed⟩
      signature := signatureTaken.1
      unsigned := signatureTaken.2 }

end Fixed

end CmmEncrypt.BindingRequests
