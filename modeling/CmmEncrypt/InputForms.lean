import CmmEncrypt.BindingRequests
import CmmEncrypt.Wrapper

/-!
# The forms of an input

An input of the wrapper offers a request of the core when its fields, read as data,
denote the fields of the request in one of the accepted forms: keys as bytes or in
display form, binary fields as Buffers or typed arrays, absent fields as either nullish
value.
-/

namespace CmmEncrypt.InputForms

open Wire Api FallibleState PrototypeChain JavaScript Plaintext Binding BindingRequests Wrapper

variable {R : Realm} {H : Host R} {h : Heap R}

/-! ## What the binding builds is what the wrapper reads -/

def copied (result : EncryptResult) : EncryptDescriptorOutput where
  cmmEntry := { vdxfKey := result.cmmEntry.1.toList, value := result.cmmEntry.2 }
  dataDepositOutputScripts := result.dataDepositOutputScripts
  publishedIvk := result.publishedIvk.toList
  outerEpk := result.outerEpk.toList
  ephemeralDiversifier := result.ephemeralDiversifier.toList
  ephemeralPkD := result.ephemeralPkD.toList

/-- The members that the binding assigns. -/
def resultNames : List String :=
  ["vdxfKey", "value", "cmmEntry", "dataDepositOutputScripts", "publishedIvk", "outerEpk",
    "ephemeralDiversifier", "ephemeralPkD"]

/-- Nothing on `Object.prototype` steps in when one of these members is assigned, and the
functions that collect the scripts and copy the result do what they are there for. -/
structure Intact (H : Host R) (h : Heap R) : Prop where
  creates : ∀ name ∈ resultNames, h.assignment R.objectPrototype name = .create
  newArray : ∀ elements, H.newArray elements h = .ok (.array elements, h)
  bufferFrom : ∀ bytes, H.bufferFrom (.bytes bytes) h = .ok (bytes, h)
  mapBuffers : ∀ elements, H.mapBuffers (.array elements) h = .ok (elements, h)

theorem setMember_created {fields : List (String × Built)} {key : String} (value : Built)
    (new : fields.lookup key = none)
    (creates : h.assignment R.objectPrototype key = .create) :
    setMember H fields key value h = .ok (fields ++ [(key, value)], h) := by
  have assigned : reflectSet H fields key value h = .ok (fields ++ [(key, value)], h) := by
    rw [reflectSet, new]
    dsimp only
    rw [get_bind, creates]
    rfl
  rw [setMember, assigned]

/-- The members of a result, each with its own. -/
def members (result : EncryptResult) : Built :=
  .object
    [("cmmEntry", .object
      [("vdxfKey", .bytes result.cmmEntry.1.toList), ("value", .bytes result.cmmEntry.2)]),
     ("dataDepositOutputScripts", .array result.dataDepositOutputScripts),
     ("publishedIvk", .bytes result.publishedIvk.toList),
     ("outerEpk", .bytes result.outerEpk.toList),
     ("ephemeralDiversifier", .bytes result.ephemeralDiversifier.toList),
     ("ephemeralPkD", .bytes result.ephemeralPkD.toList)]

theorem buildResultObject_members (intact : Intact H h) (result : EncryptResult) :
    buildResultObject H result h = .ok (members result, h) := by
  have creates := intact.creates
  simp only [resultNames, List.forall_mem_cons, List.not_mem_nil, false_implies, implies_true,
    and_true] at creates
  obtain ⟨vdxfKey, value, cmmEntry, scripts, ivk, epk, diversifier, pkD⟩ := creates
  rw [buildResultObject, bind_of_ok (setMember_created _ rfl vdxfKey),
    bind_of_ok (setMember_created _ rfl value), bind_of_ok (setMember_created _ rfl cmmEntry),
    bind_of_ok (intact.newArray _), bind_of_ok (setMember_created _ rfl scripts),
    bind_of_ok (setMember_created _ rfl ivk), bind_of_ok (setMember_created _ rfl epk),
    bind_of_ok (setMember_created _ rfl diversifier), bind_of_ok (setMember_created _ rfl pkD)]
  rfl

theorem memberOf_own {fields : List (String × Built)} {key : String} {built : Built}
    (own : fields.lookup key = some built) :
    memberOf H (.object fields) key h = .ok (built, h) := by
  rw [memberOf, own]
  rfl

theorem outputOf_members (intact : Intact H h) (result : EncryptResult) :
    outputOf H (members result) h = .ok (copied result, h) := by
  rw [outputOf, members, bind_of_ok (memberOf_own rfl), bind_of_ok (memberOf_own rfl),
    bind_of_ok (intact.bufferFrom _), bind_of_ok (memberOf_own rfl),
    bind_of_ok (memberOf_own rfl), bind_of_ok (intact.bufferFrom _),
    bind_of_ok (memberOf_own rfl), bind_of_ok (intact.mapBuffers _),
    bind_of_ok (memberOf_own rfl), bind_of_ok (intact.bufferFrom _),
    bind_of_ok (memberOf_own rfl), bind_of_ok (intact.bufferFrom _),
    bind_of_ok (memberOf_own rfl), bind_of_ok (intact.bufferFrom _),
    bind_of_ok (memberOf_own rfl), bind_of_ok (intact.bufferFrom _)]
  rfl

/-- What the binding builds is copied as it is. -/
theorem outputOf_built (intact : Intact H h) (result : EncryptResult) :
    (buildResultObject H result >>= outputOf H) h = .ok (copied result, h) := by
  rw [bind_of_ok (buildResultObject_members intact result), outputOf_members intact]

/-- What the caller of the binding can see of a result that cannot be built: only the array of
the scripts fails in its own words. -/
def Unbuilt (H : Host R) (result : EncryptResult) (e : Thrown) : Prop :=
  e = .error "failed to construct result object" ∨
    ∃ h, H.newArray result.dataDepositOutputScripts h = .error e

theorem setMember_unbuilt (result : EncryptResult) (fields : List (String × Built)) (key : String)
    (value : Built) : FailsOnly (Unbuilt H result) (setMember H fields key value) := by
  intro h e run
  rw [setMember] at run
  split at run <;> cases run
  exact .inl rfl

theorem buildResultObject_unbuilt (result : EncryptResult) :
    FailsOnly (Unbuilt H result) (buildResultObject H result) := by
  have assigned := setMember_unbuilt (H := H) result
  have collected : FailsOnly (Unbuilt H result) (H.newArray result.dataDepositOutputScripts) :=
    fun h e run => .inr ⟨h, run⟩
  rw [buildResultObject]
  refine .bind (assigned _ _ _) fun cmmEntry => .bind (assigned _ _ _) fun cmmEntry => ?_
  refine .bind (assigned _ _ _) fun ret => .bind collected fun scriptsArray => ?_
  refine .bind (assigned _ _ _) fun ret => .bind (assigned _ _ _) fun ret => ?_
  refine .bind (assigned _ _ _) fun ret => .bind (assigned _ _ _) fun ret => ?_
  exact .bind (assigned _ _ _) fun ret => .pure _

/-- Every name that the binding reads is in the wrapper's literal. -/
def literalField (plaintext outerVdxfKey systemId label mimeType index signature : Handed) :
    String → Handed
  | "plaintext" => plaintext
  | "outerVdxfKey" => outerVdxfKey
  | "systemId" => systemId
  | "label" => label
  | "mimeType" => mimeType
  | "dataDepositVoutIndex" => index
  | _ => signature

theorem requestObject_read (E : Engine R)
    (plaintext outerVdxfKey systemId label mimeType index signature : Handed) :
    ∀ name ∈ requestFields,
      reflectGet E (requestObject plaintext outerVdxfKey systemId label mimeType index signature)
        name h = .ok (literalField plaintext outerVdxfKey systemId label mimeType index signature
          name, h) := by
  simp only [requestFields, List.forall_mem_cons, List.not_mem_nil, false_implies, implies_true,
    and_true]
  exact ⟨rfl, rfl, rfl, rfl, rfl, rfl, rfl⟩

/-! ## Typed arrays of the caller -/

/-- A value that passes for a `Uint8Array` can be read, copied and measured, and Buffers pass. -/
structure TypedArray (H : Host R) (h : Heap R) (v : Value) : Prop where
  buffers : h.proto R.bufferPrototype = some R.uint8ArrayPrototype
  held : h.isInstance R.uint8ArrayPrototype v = true → ∃ bytes : Slice,
    Holds H h (.value v) bytes ∧ H.newUint8Array v h = .ok (bytes.val, h) ∧
      H.member v "length" h = .ok (.number (Binary64.ofNat bytes.val.length), h)

theorem TypedArray.buffer_array {v : Value} (typed : TypedArray H h v)
    (buffer : h.isInstance R.bufferPrototype v = true) :
    h.isInstance R.uint8ArrayPrototype v = true := by
  cases v with
  | object r => exact Objects.inherits_trans buffer typed.buffers
  | _ => cases buffer

theorem TypedArray.of_holds {v : Value} (typed : TypedArray H h v) {bytes : Slice}
    (holds : Holds H h (.value v) bytes) : H.newUint8Array v h = .ok (bytes.val, h) ∧
      H.member v "length" h = .ok (.number (Binary64.ofNat bytes.val.length), h) := by
  obtain ⟨bytes', holds', copied, measured⟩ := typed.held holds.array
  rw [holds.unique holds']
  exact ⟨copied, measured⟩

/-- A Buffer is copied, another array is passed on. -/
def handedArray (h : Heap R) (v : Value) (bytes : Slice) : Handed :=
  if h.isInstance R.bufferPrototype v then .fresh bytes.val else .value v

/-- Either way the bytes arrive. -/
theorem handedArray_holds {v : Value} {bytes : Slice} (holds : Holds H h (.value v) bytes) :
    Holds H h (handedArray h v bytes) bytes := by
  rw [handedArray]
  split
  · exact holds_fresh H h bytes holds.small
  · exact holds

theorem toUint8Array_iff {v : Value} (typed : TypedArray H h v) {out : Handed} {h' : Heap R} :
    toUint8Array H.toEngine v h = .ok (out, h') ↔ h' = h ∧ ∃ bytes, Holds H h (.value v) bytes ∧
      out = handedArray h v bytes := by
  rw [toUint8Array, get_bind]
  by_cases buffer : h.isInstance R.bufferPrototype v = true
  · obtain ⟨bytes, holds, copied, _⟩ := typed.held (typed.buffer_array buffer)
    simp only [if_pos buffer, handedArray]
    rw [bind_of_ok copied, pure_ok_iff]
    constructor
    · rintro ⟨rfl, rfl⟩
      exact ⟨rfl, bytes, holds, rfl⟩
    · rintro ⟨rfl, bytes', holds', rfl⟩
      rw [holds.unique holds']
      exact ⟨rfl, rfl⟩
  · rw [if_neg buffer]
    by_cases array : h.isInstance R.uint8ArrayPrototype v = true
    · obtain ⟨bytes, holds, _⟩ := typed.held array
      simp only [if_pos array, if_neg buffer, handedArray]
      rw [pure_ok_iff]
      constructor
      · rintro ⟨rfl, rfl⟩
        exact ⟨rfl, bytes, holds, rfl⟩
      · rintro ⟨rfl, _, _, rfl⟩
        exact ⟨rfl, rfl⟩
    · rw [if_neg array]
      constructor
      · intro thrown
        cases thrown
      · rintro ⟨_, _, holds, _⟩
        exact absurd holds.array array

/-! ## Keys -/

/-- A key is offered in display form or as its bytes. -/
inductive KeyOffered (H : Host R) (h : Heap R) : Value → ByteArr 20 → Prop
  | text {s : String} {key : ByteArr 20} (shows : s.toList.map Char.toLower = displayHex key) :
      KeyOffered H h (.string s) key
  | array {v : Value} {key : ByteArr 20} {bytes : Slice} (holds : Holds H h (.value v) bytes)
      (same : bytes.val = key.toList) : KeyOffered H h v key

theorem checkedLength_ok_iff {E : Engine R} {arr out : Handed} {name : String} {h' : Heap R} :
    checkedLength E arr name h = .ok (out, h') ↔
      out = arr ∧ arrayLength E arr h = .ok (.number (Binary64.ofNat 20), h') := by
  rw [checkedLength, bind_ok_iff]
  constructor
  · rintro ⟨length, h₁, measured, rest⟩
    by_cases wrong : length ≠ .number (Binary64.ofNat 20)
    · rw [if_pos wrong, bind_ok_iff] at rest
      obtain ⟨_, _, _, rest⟩ := rest
      obtain ⟨_, _, _, thrown⟩ := bind_ok_iff.mp rest
      cases thrown
    · rw [if_neg wrong, pure_ok_iff] at rest
      obtain ⟨rfl, rfl⟩ := rest
      rw [not_not.mp wrong] at measured
      exact ⟨rfl, measured⟩
  · rintro ⟨rfl, measured⟩
    exact ⟨_, h', measured, rfl⟩

theorem twenty_iff {bytes : Slice} (small : bytes.val.length < 2 ^ 31) :
    Value.number (Binary64.ofNat bytes.val.length) = .number (Binary64.ofNat 20) ↔
      bytes.val.length = 20 := by
  rw [Value.number.injEq]
  exact Binary64.ofNat_inj (Nat.lt_trans small (by decide)) (by decide)

/-- An array passes if it has twenty bytes. -/
theorem normalizeTwentyByte_holds_iff {v : Value} (typed : TypedArray H h v) {bytes : Slice}
    (holds : Holds H h (.value v) bytes) {name : String} {out : Handed} {h' : Heap R} :
    normalizeTwentyByte H.toEngine v name h = .ok (out, h') ↔
      h' = h ∧ bytes.val.length = 20 ∧ out = handedArray h v bytes := by
  obtain ⟨copied, measured⟩ := typed.of_holds holds
  have object : ∃ q, v = .object q := by
    have array := holds.array
    cases v with
    | object q => exact ⟨q, rfl⟩
    | _ => cases array
  obtain ⟨q, rfl⟩ := object
  rw [normalizeTwentyByte, get_bind, handedArray]
  · split
    · rw [bind_of_ok copied, checkedLength_ok_iff]
      change _ ∧ (.ok (_, h) : Except Thrown _) = _ ↔ _
      rw [Except.ok.injEq, Prod.mk.injEq, twenty_iff holds.small, eq_comm (b := h')]
      tauto
    · rw [checkedLength_ok_iff, arrayLength, measured, Except.ok.injEq, Prod.mk.injEq,
        twenty_iff holds.small, eq_comm (b := h')]
      tauto
  · intro s same
    cases same

/-- If it is an array at all, it can be taken over. -/
def Available (H : Host R) (h : Heap R) (arr : Handed) : Prop :=
  arr.isUint8Array h = true → ∃ bytes, Holds H h arr bytes

theorem normalizeTwentyByte_offered {v : Value} (typed : TypedArray H h v) {key : ByteArr 20}
    (offered : KeyOffered H h v key) (name : String) :
    ∃ out, normalizeTwentyByte H.toEngine v name h = .ok (out, h) ∧ Available H h out ∧
      KeyDenoted H h out key := by
  cases offered with
  | text shows =>
    have size : key.toList.length < 2 ^ 31 := by
      rw [List.Vector.toList_length]
      decide
    have holds := holds_fresh H h ⟨key.toList, Nat.lt_trans size (by decide)⟩ size
    exact ⟨_, normalizeTwentyByte_shows shows name, fun _ => ⟨_, holds⟩, _, holds, rfl⟩
  | array holds same =>
    have size := congrArg List.length same
    rw [List.Vector.toList_length] at size
    have handed := handedArray_holds holds
    exact ⟨_, (normalizeTwentyByte_holds_iff typed holds).mpr ⟨rfl, size, rfl⟩,
      fun _ => ⟨_, handed⟩, _, handed, same⟩

/-- What is no array and not hex is passed on for the binding to refuse. -/
theorem keyOffered_of_normalized {v : Value} (typed : TypedArray H h v) {name : String}
    {out : Handed} {h' : Heap R}
    (measured : ∀ length h', H.member v "length" h = .ok (length, h') → h' = h)
    (run : normalizeTwentyByte H.toEngine v name h = .ok (out, h')) :
    h' = h ∧ Available H h out ∧ ∀ key, KeyDenoted H h out key → KeyOffered H h v key := by
  by_cases array : h.isInstance R.uint8ArrayPrototype v = true
  · obtain ⟨bytes, holds, _⟩ := typed.held array
    obtain ⟨rfl, _, rfl⟩ := (normalizeTwentyByte_holds_iff typed holds).mp run
    have handed := handedArray_holds holds
    refine ⟨rfl, fun _ => ⟨_, handed⟩, ?_⟩
    rintro key ⟨bytes', holds', same⟩
    rw [handed.unique holds'] at holds
    exact .array holds same
  · by_cases text : ∃ s, v = .string s
    · obtain ⟨s, rfl⟩ := text
      by_cases passes : isHex40 s = true
      · obtain ⟨key, _, shows⟩ := exists_key_of_isHex40 passes
        rw [normalizeTwentyByte_shows shows] at run
        cases run
        obtain ⟨_, again, available, denoted⟩ :=
          normalizeTwentyByte_offered typed (.text shows) name
        rw [normalizeTwentyByte_shows shows] at again
        cases again
        refine ⟨rfl, available, ?_⟩
        intro key' denoted'
        rw [denoted'.unique denoted]
        exact .text shows
      · rw [normalizeTwentyByte_rejects passes] at run
        cases run
    · have unbuffered : ¬ h.isInstance R.bufferPrototype v = true :=
        fun buffer => array (typed.buffer_array buffer)
      have passed : checkedLength H.toEngine (.value v) name h = .ok (out, h') := by
        rw [normalizeTwentyByte, get_bind, if_neg unbuffered] at run
        · exact run
        · rintro s rfl
          exact text ⟨s, rfl⟩
      obtain ⟨rfl, length⟩ := checkedLength_ok_iff.mp passed
      obtain rfl := measured _ _ length
      refine ⟨rfl, fun is => absurd is array, ?_⟩
      rintro key ⟨bytes, holds, _⟩
      exact absurd holds.array array

/-! ## Inputs whose fields are data -/

/-- The fields that are read behind the plaintext. -/
def laterFields : List String :=
  ["outerVdxfKey", "systemId", "signature", "label", "mimeType", "dataDepositVoutIndex"]

/-- Behind a plaintext normalized to `n`, reading the input changes nothing, and nothing gets in
the way of the result. -/
structure SteadyBehind (H : Host R) (h : Heap R) (input : Value) (n : Normalized)
    (field : String → Value) : Prop where
  intact : Intact H h
  available : Available H h (handedPlaintext n)
  read : ∀ name ∈ laterFields, H.member input name h = .ok (field name, h)
  measured : ∀ name ∈ ["outerVdxfKey", "systemId"], ∀ length h',
    H.member (field name) "length" h = .ok (length, h') → h' = h
  typed : ∀ name ∈ laterFields, TypedArray H h (field name)

/-- The plaintext is `p`; if it can be normalized at all, the input is steady from then on. -/
structure SteadyInput (H : Host R) (h₀ h₁ : Heap R) (input p : Value) (field : String → Value) :
    Prop where
  plaintext : H.member input "plaintext" h₀ = .ok (p, h₁)
  behind : ∀ n h, Normalizes H.toEngine h₁ p n h → SteadyBehind H h input n field

/-- The fields offer a request. -/
structure Offers (H : Host R) (h : Heap R) (n : Normalized) (field : String → Value)
    (request : EncryptRequest) : Prop where
  plaintext : Holds H h (handedPlaintext n) request.plaintext
  outerVdxfKey : KeyOffered H h (field "outerVdxfKey") request.outerVdxfKey
  systemId : KeyOffered H h (field "systemId") request.systemId
  label : TextDenoted (.value (field "label")) request.label
  mimeType : TextDenoted (.value (field "mimeType")) request.mimeType
  dataDepositVoutIndex : ∃ bits, field "dataDepositVoutIndex" = .number bits ∧
    IndexWord request.dataDepositVoutIndex bits
  signature : BytesDenoted H h (.value (field "signature")) request.signature

variable {h' : Heap R} {input : Value} {n : Normalized} {field : String → Value}

theorem TypedArray.available {v : Value} (typed : TypedArray H h v) :
    Available H h (.value v) := by
  intro array
  obtain ⟨bytes, holds, _⟩ := typed.held array
  exact ⟨bytes, holds⟩

theorem available_null : Available H h (.value .null) := by
  intro array
  exact absurd array Bool.false_ne_true

theorem TypedArray.available_orNull {v : Value} (typed : TypedArray H h v) :
    Available H h (.value (orNull v)) := by
  rw [orNull]
  split
  · exact available_null
  · exact typed.available

theorem textDenoted_orNull (v : Value) (text : Option String) :
    TextDenoted (.value (orNull v)) text ↔ TextDenoted (.value v) text := by
  rw [orNull]
  cases nullish : v.isNullish with
  | false => rfl
  | true =>
    have null : (Handed.value .null).isNullish = true := rfl
    have blank : (Handed.value v).isNullish = true := nullish
    rw [if_pos rfl, textDenoted_of_nullish null, textDenoted_of_nullish blank]

/-- What is handed over for the signature stands for the same bytes. -/
theorem SteadyBehind.signature (steady : SteadyBehind H h input n field) {out : Handed}
    (run : normalizeSignature H.toEngine input h = .ok (out, h')) :
    h' = h ∧ Available H h out ∧ ∀ bytes,
      BytesDenoted H h out bytes ↔ BytesDenoted H h (.value (field "signature")) bytes := by
  have read := steady.read "signature" (by decide)
  rw [normalizeSignature, bind_of_ok read] at run
  cases nullish : (field "signature").isNullish with
  | true =>
    rw [nullish, if_pos rfl, pure_ok_iff] at run
    obtain ⟨rfl, rfl⟩ := run
    refine ⟨rfl, available_null, ?_⟩
    have null : (Handed.value .null).isNullish = true := rfl
    have blank : (Handed.value (field "signature")).isNullish = true := nullish
    intro bytes
    rw [bytesDenoted_of_nullish null, bytesDenoted_of_nullish blank]
  | false =>
    rw [nullish, if_neg Bool.false_ne_true, bind_of_ok read,
      toUint8Array_iff (steady.typed "signature" (by decide))] at run
    obtain ⟨rfl, bytes, holds, rfl⟩ := run
    have handed := handedArray_holds holds
    refine ⟨rfl, fun _ => ⟨_, handed⟩, ?_⟩
    intro out
    rw [bytesDenoted_of_holds handed, bytesDenoted_of_holds holds]

theorem SteadyBehind.exists_signature (steady : SteadyBehind H h input n field)
    {bytes : Option Slice} (denoted : BytesDenoted H h (.value (field "signature")) bytes) :
    ∃ out, normalizeSignature H.toEngine input h = .ok (out, h) := by
  have read := steady.read "signature" (by decide)
  rw [normalizeSignature, bind_of_ok read]
  rcases denoted with ⟨nullish, _⟩ | ⟨b, holds, _⟩
  · have nullish : (field "signature").isNullish = true := nullish
    rw [nullish]
    exact ⟨_, rfl⟩
  · have some : (field "signature").isNullish = false := not_nullish_of_array holds.array
    rw [some, if_neg Bool.false_ne_true, bind_of_ok read]
    exact ⟨_, (toUint8Array_iff (steady.typed "signature" (by decide))).mpr ⟨rfl, b, holds, rfl⟩⟩

/-- The literal of the wrapper, its fields read as data. -/
theorem SteadyBehind.literal (steady : SteadyBehind H h input n field)
    {outerVdxfKey systemId signature : Handed} (outerAt : Available H h outerVdxfKey)
    (systemAt : Available H h systemId) (signatureAt : Available H h signature) :
    Steady H h
      (requestObject (handedPlaintext n) outerVdxfKey systemId (.value (orNull (field "label")))
        (.value (orNull (field "mimeType"))) (.value (field "dataDepositVoutIndex")) signature)
      (literalField (handedPlaintext n) outerVdxfKey systemId (.value (orNull (field "label")))
        (.value (orNull (field "mimeType"))) (.value (field "dataDepositVoutIndex")) signature)
    where
  read := requestObject_read _ _ _ _ _ _ _ _
  held := by
    simp only [requestFields, List.forall_mem_cons, List.not_mem_nil, false_implies,
      implies_true, and_true]
    exact ⟨steady.available, outerAt, systemAt,
      (steady.typed "label" (by decide)).available_orNull,
      (steady.typed "mimeType" (by decide)).available_orNull,
      (steady.typed "dataDepositVoutIndex" (by decide)).available, signatureAt⟩

end CmmEncrypt.InputForms
