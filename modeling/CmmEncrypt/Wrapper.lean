import CmmEncrypt.Binding
import CmmEncrypt.Hex
import CmmEncrypt.Plaintext

/-!
# The wrapper (`index.ts`)

`encryptDescriptor` normalizes the fields of its input, hands them to the binding in
an object of its own and copies the result into Buffers.
-/

namespace CmmEncrypt.Wrapper

open Wire Sapling Api FallibleState JavaScript Plaintext Binding

variable {R : Realm}

structure CmmEntry where
  vdxfKey : Bytes
  value : Bytes
  deriving DecidableEq

structure EncryptDescriptorOutput where
  cmmEntry : CmmEntry
  dataDepositOutputScripts : List Bytes
  publishedIvk : Bytes
  outerEpk : Bytes
  ephemeralDiversifier : Bytes
  ephemeralPkD : Bytes
  deriving DecidableEq

/-- `String.prototype.length`: UTF-16 code units. -/
def utf16Length (s : String) : Nat :=
  (s.toList.map fun c => if c.toNat < 0x10000 then 1 else 2).sum

/-- `/^[0-9a-fA-F]{40}$/`. -/
def isHex40 (s : String) : Bool := s.toList.length == 40 && s.toList.all Hex.isDigit

/-- What `normalizePlaintext` returns. -/
def handedPlaintext : Normalized → Handed
  | .copied bytes => .fresh bytes
  | .same p => .value p
  | .text bytes => .fresh bytes
  | .json bytes => .fresh bytes

section Normalization

variable (E : Engine R)

def toUint8Array (b : Value) : Js R Handed := do
  let h ← get
  if h.isInstance R.bufferPrototype b then do
    let bytes ← E.newUint8Array b
    pure (.fresh bytes)
  else if h.isInstance R.uint8ArrayPrototype b then pure (.value b)
  else throw (.error ("signature must be a Buffer or Uint8Array; got " ++ h.typeOf b))

/-- `arr.length` of an array that only the wrapper has is the number of its bytes. -/
def arrayLength : Handed → Js R Value
  | .value v => E.member v "length"
  | .fresh bytes => pure (.number (Binary64.ofNat bytes.length))

def checkedLength (arr : Handed) (name : String) : Js R Handed := do
  let length ← arrayLength E arr
  if length ≠ .number (Binary64.ofNat 20) then do
    let length ← arrayLength E arr
    let got ← E.toText length
    throw (.error (name ++ " must be exactly 20 bytes; got " ++ got))
  else pure arr

def normalizeTwentyByte (v : Value) (name : String) : Js R Handed :=
  match v with
  | .string s =>
    if ¬ isHex40 s then
      throw (.error (name ++ " must be a 40-char hex string or a 20-byte binary; " ++
        "got string of length " ++ toString (utf16Length s)))
    else
      let be := Hex.decode s.toList
      let le := be.reverse
      pure (.fresh le)
  | v => do
    let h ← get
    if h.isInstance R.bufferPrototype v then do
      let bytes ← E.newUint8Array v
      checkedLength E (.fresh bytes) name
    else checkedLength E (.value v) name

end Normalization

/-! ## The result -/

section Result

variable (H : Host R)

/-- A member that the object does not have itself. -/
def inheritedMember (object : Built) (proto : Ref) (key : String) : Js R Built := do
  let h ← get
  match h.lookup key proto with
  | none => pure (.value .undefined)
  | some (_, .data v) => pure (.value v)
  | some (_, .accessor none) => pure (.value .undefined)
  | some (_, .accessor (some getter)) => H.callGetter getter object

/-- A member of what the binding has returned. -/
def memberOf (object : Built) (key : String) : Js R Built :=
  match object with
  | .object fields =>
    match fields.lookup key with
    | some built => pure built
    | none => inheritedMember H object R.objectPrototype key
  | .bytes _ => inheritedMember H object R.uint8ArrayPrototype key
  | .array _ => inheritedMember H object R.arrayPrototype key
  | .value v => do
    let member ← H.member v key
    pure (.value member)

def outputOf (result : Built) : Js R EncryptDescriptorOutput := do
  let cmmEntry ← memberOf H result "cmmEntry"
  let vdxfKey ← memberOf H cmmEntry "vdxfKey"
  let vdxfKey ← H.bufferFrom vdxfKey
  let cmmEntry ← memberOf H result "cmmEntry"
  let value ← memberOf H cmmEntry "value"
  let value ← H.bufferFrom value
  let scripts ← memberOf H result "dataDepositOutputScripts"
  let dataDepositOutputScripts ← H.mapBuffers scripts
  let publishedIvk ← memberOf H result "publishedIvk"
  let publishedIvk ← H.bufferFrom publishedIvk
  let outerEpk ← memberOf H result "outerEpk"
  let outerEpk ← H.bufferFrom outerEpk
  let ephemeralDiversifier ← memberOf H result "ephemeralDiversifier"
  let ephemeralDiversifier ← H.bufferFrom ephemeralDiversifier
  let ephemeralPkD ← memberOf H result "ephemeralPkD"
  let ephemeralPkD ← H.bufferFrom ephemeralPkD
  pure
    { cmmEntry := { vdxfKey, value }, dataDepositOutputScripts, publishedIvk, outerEpk,
      ephemeralDiversifier, ephemeralPkD }

end Result

/-! ## The call -/

/-- `v ?? null`. -/
def orNull (v : Value) : Value := if v.isNullish then .null else v

variable {r : ℕ} {Point Rng : Type} [AddCommGroup Point] [DecidableEq Point]

/-- The signature field is read once for the test and once more for the value. -/
def normalizeSignature (E : Engine R) (input : Value) : Js R Handed := do
  let signature ← E.member input "signature"
  if signature.isNullish then pure (.value .null)
  else do
    let signature ← E.member input "signature"
    toUint8Array E signature

/-- The object literal that is handed to the binding. -/
def requestObject (plaintext outerVdxfKey systemId label mimeType dataDepositVoutIndex signature :
    Handed) : RequestObject :=
  .literal
    [("plaintext", plaintext),
     ("outerVdxfKey", outerVdxfKey),
     ("systemId", systemId),
     ("label", label),
     ("mimeType", mimeType),
     ("dataDepositVoutIndex", dataDepositVoutIndex),
     ("signature", signature)]

def encryptDescriptor (H : Host R) (P : Primitives r Point Rng) (rng : Rng) (input : Value) :
    Js R EncryptDescriptorOutput := do
  let plaintext ← H.member input "plaintext"
  let plaintextBytes ← normalizePlaintext H.toEngine plaintext
  let outerVdxfKey ← H.member input "outerVdxfKey"
  let outerVdxfKey ← normalizeTwentyByte H.toEngine outerVdxfKey "outerVdxfKey"
  let systemId ← H.member input "systemId"
  let systemId ← normalizeTwentyByte H.toEngine systemId "systemId"
  let signature ← normalizeSignature H.toEngine input
  let label ← H.member input "label"
  let mimeType ← H.member input "mimeType"
  let dataDepositVoutIndex ← H.member input "dataDepositVoutIndex"
  let result ← encryptPublicDecryptJs H P rng
    (requestObject (handedPlaintext plaintextBytes) outerVdxfKey systemId (.value (orNull label))
      (.value (orNull mimeType)) (.value dataDepositVoutIndex) signature)
  outputOf H result

/-! ## Keys as text -/

/-- The display form: the bytes from the last to the first, in lower case. -/
def displayHex (key : ByteArr 20) : List Char := Hex.encode key.toList.reverse

theorem isHex40_iff (s : String) :
    isHex40 s = true ↔ s.toList.length = 40 ∧ ∀ c ∈ s.toList, Hex.isDigit c = true := by
  rw [isHex40, Bool.and_eq_true, beq_iff_eq, List.all_eq_true]

/-- A text that passes shows the digits of a key, and the key is what it is read as. -/
theorem exists_key_of_isHex40 {s : String} (passes : isHex40 s = true) :
    ∃ key : ByteArr 20, (Hex.decode s.toList).reverse = key.toList ∧
      s.toList.map Char.toLower = displayHex key := by
  obtain ⟨size, digits⟩ := (isHex40_iff s).mp passes
  have twenty : (Hex.decode s.toList).length = 20 := Hex.decode_length digits size
  refine ⟨⟨(Hex.decode s.toList).reverse, by rw [List.length_reverse, twenty]⟩, rfl, ?_⟩
  change _ = Hex.encode (Hex.decode s.toList).reverse.reverse
  rw [List.reverse_reverse]
  exact (Hex.decode_eq_iff _ _).mp ⟨digits, by rw [size, twenty], rfl⟩

theorem isHex40_of_shows {s : String} {key : ByteArr 20}
    (shows : s.toList.map Char.toLower = displayHex key) :
    isHex40 s = true ∧ (Hex.decode s.toList).reverse = key.toList := by
  obtain ⟨digits, size, read⟩ := (Hex.decode_eq_iff _ _).mpr shows
  rw [List.length_reverse, List.Vector.toList_length] at size
  refine ⟨(isHex40_iff s).mpr ⟨size, digits⟩, ?_⟩
  rw [read, List.reverse_reverse]

theorem normalizeTwentyByte_shows {E : Engine R} {h : Heap R} {s : String} {key : ByteArr 20}
    (shows : s.toList.map Char.toLower = displayHex key) (name : String) :
    normalizeTwentyByte E (.string s) name h = .ok (.fresh key.toList, h) := by
  obtain ⟨passes, read⟩ := isHex40_of_shows shows
  rw [normalizeTwentyByte, if_neg (not_not.mpr passes)]
  simp only [read]
  rfl

theorem normalizeTwentyByte_rejects {E : Engine R} {h : Heap R} {s : String}
    (fails : ¬ isHex40 s = true) (name : String) :
    normalizeTwentyByte E (.string s) name h =
      .error (.error (name ++ " must be a 40-char hex string or a 20-byte binary; " ++
        "got string of length " ++ toString (utf16Length s))) := by
  rw [normalizeTwentyByte, if_pos fails]
  rfl

/-- A text is accepted if it is the display form of a key in any case, and is read as that key;
every key has its display form. -/
theorem twentyByte_text (E : Engine R) (h : Heap R) (name : String) :
    (∀ s : String,
      (∃ key : ByteArr 20, s.toList.map Char.toLower = displayHex key ∧
        normalizeTwentyByte E (.string s) name h = .ok (.fresh key.toList, h)) ∨
      (∀ key : ByteArr 20, s.toList.map Char.toLower ≠ displayHex key) ∧
        normalizeTwentyByte E (.string s) name h =
          .error (.error (name ++ " must be a 40-char hex string or a 20-byte binary; " ++
            "got string of length " ++ toString (utf16Length s)))) ∧
    ∀ key : ByteArr 20, normalizeTwentyByte E (.string (String.ofList (displayHex key))) name h =
      .ok (.fresh key.toList, h) := by
  refine ⟨?_, ?_⟩
  · intro s
    by_cases passes : isHex40 s = true
    · obtain ⟨key, _, shows⟩ := exists_key_of_isHex40 passes
      exact .inl ⟨key, shows, normalizeTwentyByte_shows shows name⟩
    · refine .inr ⟨?_, normalizeTwentyByte_rejects passes name⟩
      intro key shows
      exact passes (isHex40_of_shows shows).1
  · intro key
    apply normalizeTwentyByte_shows
    rw [String.toList_ofList, displayHex, Hex.map_toLower_encode]

end CmmEncrypt.Wrapper
