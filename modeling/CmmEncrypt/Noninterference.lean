import CmmEncrypt.Outcomes

/-!
# Two calls on one tape

The recipient and the keys of every pass are drawn from the tape alone; a request
only decides what is encrypted. So each of the two artifacts depends on the fields
that are encrypted into it, and on nothing else.
-/

namespace CmmEncrypt.Noninterference

open Wire Layout Descriptor Sapling Api Passes Executions Shapes

variable {r : ℕ} {Point Rng : Type} [AddCommGroup Point] [DecidableEq Point]
variable {P : Primitives r Point Rng} {rng : Rng}

/-- Two passes at one place of the tape and to one address differ in their contents only. -/
theorem Makes.same_keys {d : ByteArr 11} {pkD : ByteArr 32} {contents₁ contents₂ : Bytes}
    {p q : Pass r} (hp : Makes P d pkD rng contents₁ p) (hq : Makes P d pkD rng contents₂ q) :
    p.epk = q.epk ∧ p.key = q.key := by
  obtain ⟨epk, dhsecret, _, hepk, hdh, _, rfl⟩ := makes_iff.mp hp
  obtain ⟨epk', dhsecret', _, hepk', hdh', _, rfl⟩ := makes_iff.mp hq
  obtain rfl := Except.ok.inj (hepk.symm.trans hepk')
  obtain rfl := Except.ok.inj (hdh.symm.trans hdh')
  exact ⟨rfl, rfl⟩

variable {q₁ q₂ : EncryptRequest} {e₁ e₂ : Execution r Point Rng}

/-- The recipient is chosen before the request is looked at. -/
theorem Ran.same_recipient (ran₁ : Ran P q₁ rng e₁) (ran₂ : Ran P q₂ rng e₂) :
    e₁.ivk = e₂.ivk ∧ e₁.diversifier = e₂.diversifier ∧ e₁.gD = e₂.gD ∧ e₁.tape = e₂.tape := by
  have found := ran₁.found.symm.trans ran₂.found
  simp only [Option.some.injEq, Prod.mk.injEq] at found
  obtain ⟨⟨diversifier, gD⟩, tape⟩ := found
  exact ⟨ran₁.ivk.trans ran₂.ivk.symm, diversifier, gD, tape⟩

theorem Ran.same_pkD (ran₁ : Ran P q₁ rng e₁) (ran₂ : Ran P q₂ rng e₂) : pkD P e₁ = pkD P e₂ := by
  obtain ⟨ivk, _, gD, _⟩ := Ran.same_recipient ran₁ ran₂
  rw [pkD, pkD, ivk, gD]

/-- The payload's pass depends on the payload. -/
theorem Ran.same_data (ran₁ : Ran P q₁ rng e₁) (ran₂ : Ran P q₂ rng e₂)
    (plaintext : q₁.plaintext = q₂.plaintext) : e₁.data = e₂.data := by
  obtain ⟨_, diversifier, _, tape⟩ := Ran.same_recipient ran₁ ran₂
  have made := ran₁.data
  rw [diversifier, Ran.same_pkD ran₁ ran₂, tape, plaintext] at made
  exact made.unique ran₂.data

/-- The outer pass of the payload is made with the same keys for every label and MIME type. -/
theorem Ran.same_outer_keys (ran₁ : Ran P q₁ rng e₁) (ran₂ : Ran P q₂ rng e₂)
    (signed : q₁.signature.isSome = q₂.signature.isSome) :
    e₁.outer.epk = e₂.outer.epk ∧ e₁.outer.key = e₂.outer.key := by
  obtain ⟨_, diversifier, _, tape⟩ := Ran.same_recipient ran₁ ran₂
  have made := ran₁.outer
  rw [diversifier, Ran.same_pkD ran₁ ran₂, tape, signed] at made
  exact Makes.same_keys made ran₂.outer

theorem Ran.same_outer (ran₁ : Ran P q₁ rng e₁) (ran₂ : Ran P q₂ rng e₂)
    (label : q₁.label = q₂.label) (mimeType : q₁.mimeType = q₂.mimeType)
    (vout : q₁.dataDepositVoutIndex = q₂.dataDepositVoutIndex)
    (signed : q₁.signature.isSome = q₂.signature.isSome) : e₁.outer = e₂.outer := by
  obtain ⟨_, diversifier, _, tape⟩ := Ran.same_recipient ran₁ ran₂
  have made := ran₁.outer
  rw [diversifier, Ran.same_pkD ran₁ ran₂, tape, signed, label, mimeType, vout] at made
  exact made.unique ran₂.outer

/-- The two passes of a signature: the first depends on the signature, the second only on
the output the pointer names. -/
theorem Ran.same_attached (ran₁ : Ran P q₁ rng e₁) (ran₂ : Ran P q₂ rng e₂) :
    (q₁.signature = q₂.signature → e₁.attached.map Prod.fst = e₂.attached.map Prod.fst) ∧
    (q₁.signature.isSome = q₂.signature.isSome →
      q₁.dataDepositVoutIndex = q₂.dataDepositVoutIndex →
        e₁.attached.map Prod.snd = e₂.attached.map Prod.snd) := by
  obtain ⟨_, diversifier, _, tape⟩ := Ran.same_recipient ran₁ ran₂
  rcases ran₁.attached_cases with ⟨unsigned₁, alone₁⟩ | ⟨_, _, _, signed₁, both₁, made₁, outer₁⟩ <;>
    rcases ran₂.attached_cases with ⟨unsigned₂, alone₂⟩ | ⟨_, _, _, signed₂, both₂, made₂, outer₂⟩
  · rw [alone₁, alone₂]
    exact ⟨fun _ => rfl, fun _ _ => rfl⟩
  · rw [unsigned₁, signed₂]
    exact ⟨nofun, nofun⟩
  · rw [signed₁, unsigned₂]
    exact ⟨nofun, nofun⟩
  · rw [signed₁, signed₂, both₁, both₂]
    rw [diversifier, Ran.same_pkD ran₁ ran₂, tape] at made₁ outer₁
    constructor
    · intro same
      rw [Option.some.inj same] at made₁
      exact congrArg some (made₁.unique made₂)
    · intro _ vout
      rw [vout] at outer₁
      exact congrArg some (outer₁.unique outer₂)

/-- Each artifact is determined by the tape and the fields encrypted into it; label and MIME
type reach the content-multimap value only through one ciphertext. -/
theorem artifacts_noninterfering {result₁ result₂ : EncryptResult} {final₁ final₂ : Session r Rng}
    (run₁ : call P q₁ rng = .ok (result₁, final₁)) (run₂ : call P q₂ rng = .ok (result₂, final₂)) :
    (q₁.label = q₂.label → q₁.mimeType = q₂.mimeType →
      q₁.dataDepositVoutIndex = q₂.dataDepositVoutIndex →
      q₁.signature.isSome = q₂.signature.isSome →
        result₁.cmmEntry.2 = result₂.cmmEntry.2 ∧ result₁.publishedIvk = result₂.publishedIvk ∧
        result₁.outerEpk = result₂.outerEpk ∧
        result₁.ephemeralDiversifier = result₂.ephemeralDiversifier ∧
        result₁.ephemeralPkD = result₂.ephemeralPkD) ∧
    (q₁.plaintext = q₂.plaintext → q₁.systemId = q₂.systemId → q₁.signature = q₂.signature →
      result₁.dataDepositOutputScripts = result₂.dataDepositOutputScripts) ∧
    (q₁.dataDepositVoutIndex = q₂.dataDepositVoutIndex →
      q₁.signature.isSome = q₂.signature.isSome →
        ∃ (key : ByteArr 32) (ciphertext₁ ciphertext₂ rest : Bytes),
          P.chachaEncrypt key zeroNonce (outerPlaintext q₁.dataDepositVoutIndex 0 q₁.label
            q₁.mimeType) = some ciphertext₁ ∧
          P.chachaEncrypt key zeroNonce (outerPlaintext q₁.dataDepositVoutIndex 0 q₂.label
            q₂.mimeType) = some ciphertext₂ ∧
          result₁.cmmEntry.2 = [0x01, 0x0d] ++ render (varBytes ciphertext₁) ++ rest ∧
          result₂.cmmEntry.2 = [0x01, 0x0d] ++ render (varBytes ciphertext₂) ++ rest) := by
  obtain ⟨e₁, ran₁, rfl, rfl⟩ := (call_ok_iff ..).mp run₁
  obtain ⟨e₂, ran₂, rfl, rfl⟩ := (call_ok_iff ..).mp run₂
  obtain ⟨ivk, diversifier, _, _⟩ := Ran.same_recipient ran₁ ran₂
  have attached := Ran.same_attached ran₁ ran₂
  refine ⟨?_, ?_, ?_⟩
  · intro label mimeType vout signed
    have outer := Ran.same_outer ran₁ ran₂ label mimeType vout signed
    have value : cmmValue P e₁ = cmmValue P e₂ := by
      rw [cmmValue_eq, cmmValue_eq, outer, ivk, attached.2 signed vout]
    exact ⟨value, congrArg P.frToBytes ivk, congrArg Pass.epk outer, diversifier,
      Ran.same_pkD ran₁ ran₂⟩
  · intro plaintext systemId signature
    have encrypted : payloadPasses e₁ = payloadPasses e₂ := by
      rw [payloadPasses, payloadPasses, Ran.same_data ran₁ ran₂ plaintext, attached.1 signature]
    rw [resultOf_scripts, resultOf_scripts, evidence, evidence, entries_eq, entries_eq, encrypted,
      systemId]
  · intro vout signed
    obtain ⟨epk, key⟩ := Ran.same_outer_keys ran₁ ran₂ signed
    refine ⟨e₁.outer.key, e₁.outer.ciphertext, e₂.outer.ciphertext, _, ?_, ?_, cmmValue_eq P e₁, ?_⟩
    · rw [← ran₁.outer.plaintext]
      exact ran₁.outer.encrypted
    · rw [key, vout, ← ran₂.outer.plaintext]
      exact ran₂.outer.encrypted
    · rw [epk, ivk, attached.2 signed vout]
      exact cmmValue_eq P e₂

theorem artifacts_noninterfering_small :
    ∃ result₁ result₂ final₁ final₂,
      call SmallCurve.primitives SmallCurve.request 1 = .ok (result₁, final₁) ∧
      call SmallCurve.primitives { SmallCurve.request with label := none } 1 =
        .ok (result₂, final₂) ∧
      result₁.dataDepositOutputScripts = result₂.dataDepositOutputScripts ∧
      ∃ ciphertext₁ ciphertext₂ rest,
        result₁.cmmEntry.2 = [0x01, 0x0d] ++ render (varBytes ciphertext₁) ++ rest ∧
        result₂.cmmEntry.2 = [0x01, 0x0d] ++ render (varBytes ciphertext₂) ++ rest := by
  obtain ⟨result₁, final₁, run₁, _⟩ := SmallCurve.request_runs
  have seals := Outcomes.seals_of_total SmallCurve.total
    { SmallCurve.request with label := none }
  obtain ⟨result₂, final₂, run₂⟩ := Outcomes.call_returns SmallCurve.fr SmallCurve.points seals 1
    (by decide) (by decide) (by decide)
  obtain ⟨_, scripts, values⟩ := artifacts_noninterfering run₁ run₂
  obtain ⟨_, ciphertext₁, ciphertext₂, rest, _, _, first, second⟩ := values rfl rfl
  exact ⟨result₁, result₂, final₁, final₂, run₁, run₂, scripts rfl rfl rfl, ciphertext₁,
    ciphertext₂, rest, first, second⟩

end CmmEncrypt.Noninterference
