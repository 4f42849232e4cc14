import CmmEncrypt.BreakApart
import CmmEncrypt.DataRef
import CmmEncrypt.Descriptor
import CmmEncrypt.Sapling
import CmmEncrypt.Script

/-!
# The end-to-end call (`api.rs`)

One run samples a viewing key and a diversified address, encrypts the payload and
the optional signature, lays the evidence out over output scripts, and encrypts
the descriptors that point at it.
-/

namespace CmmEncrypt.Api

open Wire Layout Vdxf DataRef Descriptor Evidence BreakApart Script Sapling CofactorGroup

def SIGNATURE_OUTER_LABEL : String := "signature"
def SIGNATURE_OUTER_MIME_TYPE : String := "application/json"

def MAX_SCRIPT_ELEMENT_SIZE : Nat := 6000
def BREAK_APART_SAFETY_MARGIN : Nat := 128
def DIVERSIFIER_RETRY_BUDGET : Nat := 64

structure EncryptRequest where
  plaintext : Slice
  outerVdxfKey : ByteArr 20
  systemId : ByteArr 20
  label : Option String
  mimeType : Option String
  dataDepositVoutIndex : UInt32
  signature : Option Slice

structure EncryptResult where
  cmmEntry : ByteArr 20 × Bytes
  dataDepositOutputScripts : List Bytes
  publishedIvk : ByteArr 32
  outerEpk : ByteArr 32
  ephemeralDiversifier : ByteArr 11
  ephemeralPkD : ByteArr 32
  deriving DecidableEq

inductive EncryptError where
  | wire (e : WireError)
  | crypto (e : CryptoError)
  | ephemeral (e : EphemeralError)
  | diversifierSearchExhausted
  deriving DecidableEq, Repr

/-- Output of `wrap_encrypted_with_key`. -/
structure WrappedEncrypted where
  objectData : Bytes
  epk : ByteArr 32

section Lifting

variable {r : ℕ} {Rng ε ε' α : Type}

/-- `?` through a `From` impl. -/
def attempt (convert : ε' → ε) (x : Except ε' α) : Run r Rng ε α := fun session =>
  match x with
  | .ok a => .ok (a, session)
  | .error e => .error (.error (convert e))

/-- `?` on a writer; the buffer written so far is `buf`. -/
def tryWrite (convert : WireError → ε) (w : Write WireError Unit) (buf : Bytes) :
    Run r Rng ε Bytes := fun session =>
  match w buf with
  | .ok () buf => .ok (buf, session)
  | .error e _ => .error (e.map convert)

/-- `?` on a run that fails in another way. -/
def tryRun (convert : ε' → ε) (x : Run r Rng ε' α) : Run r Rng ε α := fun session =>
  match x session with
  | .ok out => .ok out
  | .error e => .error (e.map convert)

def liftPanic (x : Except (Fault ε) α) : Run r Rng ε α := fun session =>
  match x with
  | .ok a => .ok (a, session)
  | .error e => .error e

/-- `Option::map` of a fallible step. -/
def whenSome {β : Type} (o : Option β) (step : β → Run r Rng ε α) : Run r Rng ε (Option α) :=
  match o with
  | some b => do
    let a ← step b
    pure (some a)
  | none => pure none

end Lifting

/-- Subtraction on `usize`. -/
def usizeSub {ε : Type} (a b : Nat) : Except (Fault ε) Nat :=
  if b ≤ a then .ok (a - b) else .error (.panic "attempt to subtract with overflow")

/-- Step 4 of `encrypt_public_decrypt`: one script, or one for every part. -/
def dataDepositScripts {ε : Type} (systemId : ByteArr 20) (notaryEvidenceBytes : Bytes) :
    Except (Fault ε) (List Bytes) := do
  let trialScript := writeEvalNotaryEvidenceScript [] notaryEvidenceBytes
  if trialScript.length ≥ MAX_SCRIPT_ELEMENT_SIZE then
    let emptyEvidenceBytes := writeNotaryEvidenceForEnvelope [] systemId []
    let emptyScript := writeEvalNotaryEvidenceScript [] emptyEvidenceBytes
    let baseOverhead := emptyScript.length + BREAK_APART_SAFETY_MARGIN
    let maxChunkSize ← usizeSub MAX_SCRIPT_ELEMENT_SIZE baseOverhead
    let chunkWrappers ← breakApart systemId notaryEvidenceBytes maxChunkSize
    pure (chunkWrappers.map (writeEvalNotaryEvidenceScript []))
  else pure [trialScript]

variable {r : ℕ} {Point Rng : Type} [AddCommGroup Point] [DecidableEq Point]
variable (P : Primitives r Point Rng)

/-- `wrap_encrypted_with_key` (`data_descriptor.rs`). -/
def wrapEncryptedWithKey (inner : DataDescriptor) (symmetricKey epk : ByteArr 32) :
    Run r Rng WireError WrappedEncrypted := do
  let innerBytes ← tryWrite id (writeDataDescriptor inner) []
  let plaintext := writeCvdxfData [] DATA_DESCRIPTOR_KEY_LE 1 innerBytes
  let ciphertext ← aeadEncrypt P symmetricKey plaintext
  pure { objectData := ciphertext, epk }

def encryptPass1Cdd (plaintext : Bytes) (diversifier : ByteArr 11) (pkDBytes : ByteArr 32) :
    Run r Rng EncryptError Bytes := do
  let esk ← generateEsk P
  let epk ← attempt EncryptError.ephemeral (deriveEpk P esk diversifier)
  let dhsecret ← attempt EncryptError.crypto (saplingKaAgree P esk pkDBytes)
  let k := kdfSapling P dhsecret epk
  let ciphertext ← aeadEncrypt P k plaintext
  let cdd : DataDescriptor :=
    { encrypted := true, objectData := ciphertext, epk := some epk.toList, version := 1 }
  tryWrite EncryptError.wire (writeDataDescriptor cdd) []

def buildOuterWrappedDescriptor (voutIndex subObject : UInt32) (label mimeType : Option String)
    (diversifier : ByteArr 11) (pkDBytes : ByteArr 32) :
    Run r Rng EncryptError WrappedEncrypted := do
  let ccdrBytes := writeCvdxfDataRefSelfRef [] { voutIndex, objectNum := 0, subObject }
  let innerCdd : DataDescriptor := { objectData := ccdrBytes, label, mimeType, version := 1 }
  let esk ← generateEsk P
  let epk ← attempt EncryptError.ephemeral (deriveEpk P esk diversifier)
  let dhsecret ← attempt EncryptError.crypto (saplingKaAgree P esk pkDBytes)
  let k := kdfSapling P dhsecret epk
  tryRun EncryptError.wire (wrapEncryptedWithKey P innerCdd k epk)

/-- `Fr::random` on the run's generator. -/
def randomFr {ε : Type} : Run r Rng ε (ZMod r) := fun session =>
  let (scalar, rng) := P.frRandom session.rng
  .ok (scalar, { session with rng })

def fillBytes {ε : Type} (n : ℕ) : Run r Rng ε (ByteArr n) := fun session =>
  let (bytes, rng) := P.fillBytes n session.rng
  .ok (bytes, { session with rng })

/-- The `for` loop over the retry budget. -/
def findValidDiversifierLoop : Nat → Run r Rng EncryptError (ByteArr 11 × Point)
  | 0 => throw (.error .diversifierSearchExhausted)
  | budget + 1 => do
    let d ← fillBytes P 11
    match deriveGD P d with
    | some gD => pure (d, gD)
    | none => findValidDiversifierLoop budget

def findValidDiversifier : Run r Rng EncryptError (ByteArr 11 × Point) :=
  findValidDiversifierLoop P DIVERSIFIER_RETRY_BUDGET

/-- The flags:13 descriptor around a wrapped one. -/
def outerCdd (wrapped : WrappedEncrypted) (ivkBytes : ByteArr 32) : DataDescriptor :=
  { encrypted := true, objectData := wrapped.objectData, epk := some wrapped.epk.toList,
    ivk := some ivkBytes.toList, version := 1 }

/-- Steps 2 to 6 of `encrypt_public_decrypt`, after the ephemeral recipient is known. -/
def encryptToRecipient (request : EncryptRequest) (ivkFr : ZMod r) (diversifier : ByteArr 11)
    (gD : Point) : Run r Rng EncryptError EncryptResult := do
  let ivkBytes := P.frToBytes ivkFr
  let pkDBytes := P.pointToBytes (act ivkFr gD)
  -- 2: pass-1 AEAD over the payload and the signature
  let pass1DataCddBytes ← encryptPass1Cdd P request.plaintext.val diversifier pkDBytes
  let pass1SigCddBytes ← whenSome request.signature fun sig =>
    encryptPass1Cdd P sig.val diversifier pkDBytes
  -- 3: dataVec entries
  let cedDataVecData := writeCvdxfData [] DATA_DESCRIPTOR_KEY_LE 1 pass1DataCddBytes
  let cedDataVecSig := pass1SigCddBytes.map (writeCvdxfData [] SIGNATURE_DATA_KEY_LE 1)
  -- 4: evidence and its scripts
  let entries : List EvidenceEntry :=
    { vdxfKey := DATA_DESCRIPTOR_KEY_LE, data := cedDataVecData } ::
      (cedDataVecSig.map fun cedSig =>
        { vdxfKey := SIGNATURE_DATA_KEY_LE, data := cedSig : EvidenceEntry }).toList
  let notaryEvidenceBytes := writeNotaryEvidenceForEnvelope [] request.systemId entries
  let dataDepositOutputScripts ←
    liftPanic (dataDepositScripts request.systemId notaryEvidenceBytes)
  -- 5: the outer descriptor of the payload
  let dataOuterWrapped ← buildOuterWrappedDescriptor P request.dataDepositVoutIndex 0
    request.label request.mimeType diversifier pkDBytes
  let cmmValue ← tryWrite EncryptError.wire
    (writeDataDescriptor (outerCdd dataOuterWrapped ivkBytes)) []
  -- 6: the outer descriptor of the signature, appended
  let withSignature ← whenSome request.signature fun _ => do
    let sigOuterWrapped ← buildOuterWrappedDescriptor P request.dataDepositVoutIndex 1
      (some SIGNATURE_OUTER_LABEL) (some SIGNATURE_OUTER_MIME_TYPE) diversifier pkDBytes
    tryWrite EncryptError.wire (writeDataDescriptor (outerCdd sigOuterWrapped ivkBytes)) cmmValue
  pure
    { cmmEntry := (request.outerVdxfKey, withSignature.getD cmmValue)
      dataDepositOutputScripts
      publishedIvk := ivkBytes
      outerEpk := dataOuterWrapped.epk
      ephemeralDiversifier := diversifier
      ephemeralPkD := pkDBytes }

def encryptPublicDecrypt (request : EncryptRequest) : Run r Rng EncryptError EncryptResult := do
  -- 1: ephemeral recipient
  let ivkFr ← randomFr P
  let (diversifier, gD) ← findValidDiversifier P
  encryptToRecipient P request ivkFr diversifier gD

/-- A call on a fresh generator: the result and the session it leaves behind. -/
def call (request : EncryptRequest) (rng : Rng) :
    Except (Fault EncryptError) (EncryptResult × Session r Rng) :=
  encryptPublicDecrypt P request { rng, draws := [], seals := [] }

end CmmEncrypt.Api
