import CmmEncrypt.Api
import CmmEncrypt.FallibleState

/-!
# One AEAD pass

Both passes of the call draw a scalar, derive its public key and the shared secret,
and encrypt under the derived key. A `Pass` records these values; the two functions
that make one are specified by it, so that nothing else has to unfold them.
-/

namespace CmmEncrypt.Passes

open Wire Layout Vdxf DataRef Descriptor Sapling CofactorGroup Api FallibleState

/-- The values of one pass. -/
structure Pass (r : ℕ) where
  scalar : ZMod r
  esk : ByteArr 32
  epk : ByteArr 32
  dhsecret : ByteArr 32
  key : ByteArr 32
  plaintext : Bytes
  ciphertext : Bytes

variable {r : ℕ} {Point Rng ε : Type}

/-- What a pass leaves behind. -/
def after (P : Primitives r Point Rng) (session : Session r Rng) (pass : Pass r) :
    Session r Rng where
  rng := (P.frRandom session.rng).2
  draws := session.draws ++ [pass.scalar]
  seals := session.seals ++ [(pass.key, pass.plaintext)]

/-- The pass-1 descriptor, flags:5. -/
def pass1Cdd (pass : Pass r) : DataDescriptor :=
  { encrypted := true, objectData := pass.ciphertext, epk := some pass.epk.toList, version := 1 }

/-- What an outer pass hands to the outer descriptor. -/
def wrapped (pass : Pass r) : WrappedEncrypted where
  objectData := pass.ciphertext
  epk := pass.epk

/-- The descriptor inside an outer one. -/
def innerCdd (voutIndex subObject : UInt32) (label mimeType : Option String) : DataDescriptor :=
  { objectData := render (cvdxfDataRef { voutIndex, objectNum := 0, subObject }), label, mimeType,
    version := 1 }

/-- The plaintext of an outer pass. -/
def outerPlaintext (voutIndex subObject : UInt32) (label mimeType : Option String) : Bytes :=
  render (frame DATA_DESCRIPTOR_KEY_LE 1
    (render (descriptor (innerCdd voutIndex subObject label mimeType))))

/-- A writer that appends is run to its end. -/
theorem tryWrite_ok {convert : WireError → ε} {w : Write WireError Unit} {fields : List Field}
    (h : Appends w fields) (buf : Bytes) (session : Session r Rng) :
    tryWrite convert w buf session = .ok (buf ++ render fields, session) := by
  rw [tryWrite, h buf]

theorem tryWrite_error {convert : WireError → ε} {w : Write WireError Unit}
    {e : Fault WireError} (h : Fails w e) (buf : Bytes) (session : Session r Rng) :
    tryWrite convert w buf session = .error (e.map convert) := by
  obtain ⟨left, failed⟩ := h buf
  rw [tryWrite, failed]

theorem attempt_ok_iff {ε' α : Type} {convert : ε' → ε} {x : Except ε' α} {a : α}
    {session session' : Session r Rng} :
    attempt convert x session = .ok (a, session') ↔ x = .ok a ∧ session' = session := by
  cases x with
  | error e =>
    constructor
    · intro h
      cases h
    · rintro ⟨h, _⟩
      cases h
  | ok b =>
    constructor
    · intro h
      cases h
      exact ⟨rfl, rfl⟩
    · rintro ⟨h, rfl⟩
      cases h
      rfl

theorem tryRun_ok_iff {ε' α : Type} {convert : ε' → ε} {x : Run r Rng ε' α}
    {session : Session r Rng} {out : α × Session r Rng} :
    tryRun convert x session = .ok out ↔ x session = .ok out := by
  cases h : x session with
  | ok b => simp only [tryRun, h, Except.ok.injEq]
  | error e => simp only [tryRun, h, reduceCtorEq]

theorem aeadEncrypt_ok_iff {P : Primitives r Point Rng} {key : ByteArr 32}
    {plaintext ciphertext : Bytes} {session session' : Session r Rng} :
    (aeadEncrypt P key plaintext : Run r Rng ε Bytes) session = .ok (ciphertext, session') ↔
      P.chachaEncrypt key zeroNonce plaintext = some ciphertext ∧
      session' = { session with seals := session.seals ++ [(key, plaintext)] } := by
  rw [aeadEncrypt]
  cases h : P.chachaEncrypt key zeroNonce plaintext with
  | none =>
    constructor
    · intro bad
      cases bad
    · rintro ⟨bad, _⟩
      cases bad
  | some ct =>
    constructor
    · intro ok
      cases ok
      exact ⟨rfl, rfl⟩
    · rintro ⟨ok, rfl⟩
      cases ok
      rfl

theorem generateEsk_eq {P : Primitives r Point Rng} (session : Session r Rng) :
    (generateEsk P : Run r Rng ε (ByteArr 32)) session =
      .ok (P.frToBytes (P.frRandom session.rng).1,
        { session with rng := (P.frRandom session.rng).2,
                       draws := session.draws ++ [(P.frRandom session.rng).1] }) := rfl

/-- Neither descriptor of a pass has a label or MIME type, so writing it cannot fail. -/
theorem pass1Cdd_written (pass : Pass r) (session : Session r Rng) :
    tryWrite EncryptError.wire (writeDataDescriptor (pass1Cdd pass)) [] session =
      .ok (render (descriptor (pass1Cdd pass)), session) :=
  tryWrite_ok (writeDataDescriptor_appends (pass1Cdd pass) (Nat.zero_le 64) (Nat.zero_le 128))
    [] session

theorem outerCdd_ok_iff {w : WrappedEncrypted} {ivkBytes : ByteArr 32} {buf bytes : Bytes}
    {session session' : Session r Rng} :
    tryWrite EncryptError.wire (writeDataDescriptor (outerCdd w ivkBytes)) buf session =
        .ok (bytes, session') ↔
      bytes = buf ++ render (descriptor (outerCdd w ivkBytes)) ∧ session' = session := by
  rw [tryWrite_ok (writeDataDescriptor_appends (outerCdd w ivkBytes) (Nat.zero_le 64)
    (Nat.zero_le 128)), Except.ok.injEq, Prod.mk.injEq, eq_comm, eq_comm (b := session')]

theorem wrapEncryptedWithKey_fails {P : Primitives r Point Rng} {inner : DataDescriptor}
    {e : Fault WireError}
    (h : Fails (writeDataDescriptor inner) e) (key epk : ByteArr 32) (session : Session r Rng) :
    wrapEncryptedWithKey P inner key epk session = .error (e.map id) :=
  bind_of_error (tryWrite_error h [] session)

/-- Within the caps, wrapping succeeds exactly when the AEAD does. -/
theorem wrapEncryptedWithKey_ok_iff {P : Primitives r Point Rng} {inner : DataDescriptor}
    {key epk : ByteArr 32}
    {w : WrappedEncrypted} {session session' : Session r Rng}
    (label : utf8Length inner.label ≤ 64) (mimeType : utf8Length inner.mimeType ≤ 128) :
    wrapEncryptedWithKey P inner key epk session = .ok (w, session') ↔
      ∃ ciphertext,
        P.chachaEncrypt key zeroNonce
          (render (frame DATA_DESCRIPTOR_KEY_LE 1 (render (descriptor inner)))) =
            some ciphertext ∧
        w = { objectData := ciphertext, epk } ∧
        session' = { session with seals := session.seals ++
          [(key, render (frame DATA_DESCRIPTOR_KEY_LE 1 (render (descriptor inner))))] } := by
  have written : tryWrite id (writeDataDescriptor inner) [] session =
      .ok ([] ++ render (descriptor inner), session) :=
    tryWrite_ok (writeDataDescriptor_appends inner label mimeType) [] session
  rw [List.nil_append] at written
  rw [wrapEncryptedWithKey, bind_of_ok written]
  simp only [writeCvdxfData_render, List.nil_append, bind_ok_iff, aeadEncrypt_ok_iff, pure_ok_iff]
  constructor
  · rintro ⟨ciphertext, _, ⟨hct, rfl⟩, rfl, rfl⟩
    exact ⟨ciphertext, hct, rfl, rfl⟩
  · rintro ⟨ciphertext, hct, rfl, rfl⟩
    exact ⟨ciphertext, _, ⟨hct, rfl⟩, rfl, rfl⟩

theorem wrapEncryptedWithKey_caps {P : Primitives r Point Rng} {inner : DataDescriptor}
    {key epk : ByteArr 32}
    {session : Session r Rng} {out : WrappedEncrypted × Session r Rng}
    (ok : wrapEncryptedWithKey P inner key epk session = .ok out) :
    utf8Length inner.label ≤ 64 ∧ utf8Length inner.mimeType ≤ 128 := by
  have label : utf8Length inner.label ≤ 64 := by
    by_contra long
    rw [wrapEncryptedWithKey_fails (writeDataDescriptor_labelTooLong inner (by omega)).fails] at ok
    cases ok
  refine ⟨label, ?_⟩
  by_contra long
  have refused := (writeDataDescriptor_mimeTooLong inner label (by omega)).fails
  rw [wrapEncryptedWithKey_fails refused] at ok
  cases ok

variable [AddCommGroup Point] [DecidableEq Point]

/-- `pass` is the pass that encrypts `contents` to the address `(d, pkD)` when the
generator stands at `rng`. -/
structure Makes (P : Primitives r Point Rng) (d : ByteArr 11) (pkD : ByteArr 32) (rng : Rng)
    (contents : Bytes) (pass : Pass r) : Prop where
  scalar : pass.scalar = (P.frRandom rng).1
  esk : pass.esk = P.frToBytes pass.scalar
  epk : deriveEpk P pass.esk d = .ok pass.epk
  dhsecret : saplingKaAgree P pass.esk pkD = .ok pass.dhsecret
  key : pass.key = kdfSapling P pass.dhsecret pass.epk
  plaintext : pass.plaintext = contents
  encrypted : P.chachaEncrypt pass.key zeroNonce pass.plaintext = some pass.ciphertext

variable {P : Primitives r Point Rng} {d : ByteArr 11} {pkD : ByteArr 32} {rng : Rng}

/-- The pass of given keys and ciphertext. -/
def passOf (P : Primitives r Point Rng) (rng : Rng) (epk dhsecret : ByteArr 32)
    (plaintext ciphertext : Bytes) : Pass r where
  scalar := (P.frRandom rng).1
  esk := P.frToBytes (P.frRandom rng).1
  epk := epk
  dhsecret := dhsecret
  key := kdfSapling P dhsecret epk
  plaintext := plaintext
  ciphertext := ciphertext

theorem passOf_makes {epk dhsecret : ByteArr 32} {plaintext ciphertext : Bytes}
    (hepk : deriveEpk P (P.frToBytes (P.frRandom rng).1) d = .ok epk)
    (hdh : saplingKaAgree P (P.frToBytes (P.frRandom rng).1) pkD = .ok dhsecret)
    (hct : P.chachaEncrypt (kdfSapling P dhsecret epk) zeroNonce plaintext = some ciphertext) :
    Makes P d pkD rng plaintext (passOf P rng epk dhsecret plaintext ciphertext) :=
  ⟨rfl, rfl, hepk, hdh, rfl, rfl, hct⟩

/-- A pass is determined by the three calls that can fail. -/
theorem makes_iff {contents : Bytes} {pass : Pass r} :
    Makes P d pkD rng contents pass ↔ ∃ epk dhsecret ciphertext,
      deriveEpk P (P.frToBytes (P.frRandom rng).1) d = .ok epk ∧
      saplingKaAgree P (P.frToBytes (P.frRandom rng).1) pkD = .ok dhsecret ∧
      P.chachaEncrypt (kdfSapling P dhsecret epk) zeroNonce contents = some ciphertext ∧
      pass = passOf P rng epk dhsecret contents ciphertext := by
  constructor
  · intro made
    obtain ⟨scalar, esk, epk, dhsecret, key, plaintext, ciphertext⟩ := pass
    obtain ⟨hscalar, hesk, hepk, hdh, hkey, hpt, hct⟩ := made
    simp only at hscalar hesk hepk hdh hkey hpt hct
    subst hscalar hesk hkey hpt
    exact ⟨epk, dhsecret, ciphertext, hepk, hdh, hct, rfl⟩
  · rintro ⟨epk, dhsecret, ciphertext, hepk, hdh, hct, rfl⟩
    exact passOf_makes hepk hdh hct

theorem Makes.unique {contents : Bytes} {p q : Pass r} (hp : Makes P d pkD rng contents p)
    (hq : Makes P d pkD rng contents q) : p = q := by
  obtain ⟨epk, dhsecret, ciphertext, hepk, hdh, hct, rfl⟩ := makes_iff.mp hp
  obtain ⟨epk', dhsecret', ciphertext', hepk', hdh', hct', rfl⟩ := makes_iff.mp hq
  obtain rfl := Except.ok.inj (hepk.symm.trans hepk')
  obtain rfl := Except.ok.inj (hdh.symm.trans hdh')
  obtain rfl := Option.some.inj (hct.symm.trans hct')
  rfl

/-- The public key of a pass encodes its scalar times the diversified base. -/
theorem Makes.epk_eq (fr : FrCodec P) {gD : Point} (accepted : deriveGD P d = some gD)
    {contents : Bytes} {pass : Pass r} (made : Makes P d pkD rng contents pass) :
    pass.epk = P.pointToBytes (act pass.scalar gD) := by
  have h := made.epk
  rw [made.esk, deriveEpk_eq fr pass.scalar accepted] at h
  exact (Except.ok.inj h).symm

/-- The AEAD takes these contents. -/
def Sealable (P : Primitives r Point Rng) (contents : Bytes) : Prop :=
  ∀ key nonce, (P.chachaEncrypt key nonce contents).isSome

/-- The keys of a pass always come out, and so does a pass over what the AEAD takes. -/
theorem exists_pass (fr : FrCodec P) (points : PointCodec P) {gD : Point}
    (found : deriveGD P d = some gD) (ivk : ZMod r) (rng : Rng) {contents : Bytes}
    (taken : Sealable P contents) :
    ∃ pass, Makes P d (P.pointToBytes (act ivk gD)) rng contents pass := by
  have epk := deriveEpk_eq fr (P.frRandom rng).1 found
  have dhsecret := saplingKaAgree_eq fr points (P.frRandom rng).1 (act ivk gD)
  obtain ⟨ciphertext, encrypted⟩ := Option.isSome_iff_exists.mp
    (taken (kdfSapling P _ _) zeroNonce)
  exact ⟨_, passOf_makes epk dhsecret encrypted⟩

/-- A pass-1 descriptor comes out exactly when its pass does. -/
theorem encryptPass1Cdd_ok_iff {plaintext bytes : Bytes} {session session' : Session r Rng} :
    encryptPass1Cdd P plaintext d pkD session = .ok (bytes, session') ↔
      ∃ pass, Makes P d pkD session.rng plaintext pass ∧
        bytes = render (descriptor (pass1Cdd pass)) ∧ session' = after P session pass := by
  rw [encryptPass1Cdd, bind_of_ok (generateEsk_eq session)]
  simp only [bind_ok_iff, attempt_ok_iff, aeadEncrypt_ok_iff]
  constructor
  · rintro ⟨epk, _, ⟨hepk, rfl⟩, dhsecret, _, ⟨hdh, rfl⟩, ct, _, ⟨hct, rfl⟩, written⟩
    have made := passOf_makes hepk hdh hct
    have run := pass1Cdd_written (passOf P session.rng epk dhsecret plaintext ct)
      (after P session (passOf P session.rng epk dhsecret plaintext ct))
    obtain ⟨rfl, rfl⟩ := Prod.mk.inj (Except.ok.inj (written.symm.trans run))
    exact ⟨_, made, rfl, rfl⟩
  · rintro ⟨pass, made, rfl, rfl⟩
    obtain ⟨epk, dhsecret, ct, hepk, hdh, hct, rfl⟩ := makes_iff.mp made
    refine ⟨epk, _, ⟨hepk, rfl⟩, dhsecret, _, ⟨hdh, rfl⟩, ct, _, ⟨hct, rfl⟩, ?_⟩
    exact pass1Cdd_written (passOf P session.rng epk dhsecret plaintext ct) _

/-! ## Outer passes -/

/-- The keys are drawn and derived before the inner descriptor is written. -/
theorem buildOuterWrappedDescriptor_fails {voutIndex subObject : UInt32}
    {label mimeType : Option String} {session : Session r Rng} {e : Fault WireError}
    (h : Fails (writeDataDescriptor (innerCdd voutIndex subObject label mimeType)) e)
    {contents : Bytes} {pass : Pass r} (made : Makes P d pkD session.rng contents pass) :
    buildOuterWrappedDescriptor P voutIndex subObject label mimeType d pkD session =
      .error (e.map EncryptError.wire) := by
  obtain ⟨epk, dhsecret, ct, hepk, hdh, hct, rfl⟩ := makes_iff.mp made
  rw [buildOuterWrappedDescriptor, bind_of_ok (generateEsk_eq session),
    bind_of_ok (attempt_ok_iff.mpr ⟨hepk, rfl⟩), bind_of_ok (attempt_ok_iff.mpr ⟨hdh, rfl⟩),
    writeCvdxfDataRefSelfRef_render, List.nil_append]
  have failed := wrapEncryptedWithKey_fails (P := P) h (kdfSapling P dhsecret epk) epk
    { session with rng := (P.frRandom session.rng).2,
                   draws := session.draws ++ [(P.frRandom session.rng).1] }
  rw [innerCdd] at failed
  rw [tryRun, failed]
  cases e <;> rfl

/-- A wrapped descriptor comes out exactly when label and MIME type are within their caps
and its pass comes out. -/
theorem buildOuterWrappedDescriptor_ok_iff {voutIndex subObject : UInt32}
    {label mimeType : Option String} {w : WrappedEncrypted} {session session' : Session r Rng} :
    buildOuterWrappedDescriptor P voutIndex subObject label mimeType d pkD session =
        .ok (w, session') ↔
      utf8Length label ≤ 64 ∧ utf8Length mimeType ≤ 128 ∧
      ∃ pass, Makes P d pkD session.rng (outerPlaintext voutIndex subObject label mimeType) pass ∧
        w = wrapped pass ∧ session' = after P session pass := by
  rw [buildOuterWrappedDescriptor, bind_of_ok (generateEsk_eq session),
    writeCvdxfDataRefSelfRef_render, List.nil_append]
  simp only [bind_ok_iff, attempt_ok_iff, tryRun_ok_iff]
  constructor
  · rintro ⟨epk, _, ⟨hepk, rfl⟩, dhsecret, _, ⟨hdh, rfl⟩, ok⟩
    obtain ⟨capLabel, capMime⟩ := wrapEncryptedWithKey_caps ok
    obtain ⟨ct, hct, rfl, rfl⟩ := (wrapEncryptedWithKey_ok_iff capLabel capMime).mp ok
    exact ⟨capLabel, capMime, _, passOf_makes hepk hdh hct, rfl, rfl⟩
  · rintro ⟨capLabel, capMime, pass, made, rfl, rfl⟩
    obtain ⟨epk, dhsecret, ct, hepk, hdh, hct, rfl⟩ := makes_iff.mp made
    refine ⟨epk, _, ⟨hepk, rfl⟩, dhsecret, _, ⟨hdh, rfl⟩, ?_⟩
    exact (wrapEncryptedWithKey_ok_iff capLabel capMime).mpr ⟨ct, hct, rfl, rfl⟩

end CmmEncrypt.Passes
