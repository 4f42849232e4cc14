import CmmEncrypt.KeySeparation

/-!
# Keys over many calls

A process calls the crate again and again on one generator, and other processes call
it on theirs. Calls that publish different viewing keys never share an AEAD key: what
two of them hand to the key derivation agrees only where both draw the scalar zero.
-/

namespace CmmEncrypt.ManyCalls

open Wire Sapling CofactorGroup Api Passes Executions KeySeparation

/-- Lists without repetition hold `z` at most once together when no two of them hold it. -/
theorem count_flatten_le_one {α : Type} [DecidableEq α] {z : α} {xss : List (List α)}
    (each : ∀ xs ∈ xss, xs.Nodup) :
    xss.flatten.count z ≤ 1 ↔ xss.Pairwise (fun xs ys => ¬ (z ∈ xs ∧ z ∈ ys)) := by
  induction xss with
  | nil => simp
  | cons xs xss ih =>
    have rest := ih (fun ys member => each ys (List.mem_cons_of_mem xs member))
    rw [List.flatten_cons, List.count_append, List.pairwise_cons, ← rest]
    by_cases held : z ∈ xs
    · have once := List.count_eq_one_of_mem (each xs List.mem_cons_self) held
      have later : xss.flatten.count z = 0 ↔ ∀ ys ∈ xss, z ∉ ys := by
        rw [List.count_eq_zero, List.mem_flatten]
        simp only [not_exists, not_and]
      simp only [held, true_and, ← later]
      omega
    · rw [List.count_eq_zero_of_not_mem held]
      simp [held]

variable {r : ℕ} {Point Rng : Type} [AddCommGroup Point] {P : Primitives r Point Rng}

/-- What ties a pass to the viewing key and the base of its call. -/
structure AgreedOn (P : Primitives r Point Rng) (ivk : ZMod r) (gD : Point) (pass : Pass r) :
    Prop where
  epk : pass.epk = P.pointToBytes (act pass.scalar gD)
  dhsecret : pass.dhsecret = P.pointToBytes (act ivk (mulByCofactor (act pass.scalar gD)))

/-- A pass of the scalar zero derives its key from two encodings of the identity. -/
theorem AgreedOn.kdfInput_zero {ivk : ZMod r} {gD : Point} {pass : Pass r} [NeZero r]
    (agreed : AgreedOn P ivk gD pass) (zero : pass.scalar = 0) :
    kdfInput pass = (P.pointToBytes 0, P.pointToBytes 0) := by
  have identity : act pass.scalar gD = 0 := by
    rw [zero, zero_act]
  rw [kdfInput, agreed.dhsecret, agreed.epk, identity, mulByCofactor, smul_zero, act, smul_zero]

variable [DecidableEq Point]

theorem agreedOn_of_makes (fr : FrCodec P) (points : PointCodec P) {d : ByteArr 11} {gD : Point}
    (accepted : deriveGD P d = some gD) {ivk : ZMod r} {rng : Rng} {contents : Bytes}
    {pass : Pass r} (made : Makes P d (P.pointToBytes (act ivk gD)) rng contents pass) :
    AgreedOn P ivk gD pass where
  epk := made.epk_eq fr accepted
  dhsecret := by
    have agreed := made.dhsecret
    rw [made.esk, saplingKaAgree_eq fr points] at agreed
    have secret := Except.ok.inj agreed
    rw [← secret, mulByCofactor, mulByCofactor, agreement]

/-- One public key under two viewing keys gives one secret only where the public key encodes
the identity. -/
theorem kdfInput_alike_iff (points : PointCodec P) (curve : CurveOrder r Point) (odd : r ≠ 2)
    {d d' : ByteArr 11} {gD gD' : Point} (accepted : deriveGD P d = some gD)
    (accepted' : deriveGD P d' = some gD') {ivk ivk' : ZMod r} (viewing : ivk ≠ ivk')
    {p q : Pass r} (first : AgreedOn P ivk gD p) (second : AgreedOn P ivk' gD' q) :
    kdfInput p = kdfInput q ↔ p.scalar = 0 ∧ q.scalar = 0 := by
  have nonempty : NeZero r := ⟨curve.prime.ne_zero⟩
  have coprime : r.Coprime 8 :=
    ((Nat.coprime_primes curve.prime Nat.prime_two).mpr odd).pow_right 3
  obtain ⟨nonzero, point, rfl⟩ := deriveGD_some accepted
  obtain ⟨nonzero', point', rfl⟩ := deriveGD_some accepted'
  have killed := cleared curve.card point
  have killed' := cleared curve.card point'
  constructor
  · intro same
    obtain ⟨secrets, keys⟩ := Prod.mk.inj same
    rw [first.epk, second.epk] at keys
    have meeting := pointToBytes_injective points keys
    rw [first.dhsecret, second.dhsecret, ← meeting] at secrets
    have shared := pointToBytes_injective points secrets
    -- a nonzero meeting point tells the viewing keys apart
    have identity : act p.scalar (mulByCofactor point) = 0 := by
      by_contra away
      exact viewing (agreed_injective curve.prime coprime (act_killed p.scalar killed) away shared)
    have identity' := meeting.symm.trans identity
    exact ⟨eq_zero_of_act curve.prime killed nonzero identity,
      eq_zero_of_act curve.prime killed' nonzero' identity'⟩
  · rintro ⟨zero, zero'⟩
    rw [first.kdfInput_zero zero, second.kdfInput_zero zero']

/-! ## Calls that returned -/

/-- The keys of the AEAD calls of a call. -/
def sealKeys (c : Returned P) : List (ByteArr 32) := c.final.seals.map Prod.fst

/-- The passes of a call agree on its viewing key and its base, and they leave its ghosts. -/
structure PassesOf (c : Returned P) (ivk : ZMod r) (gD : Point) (passes : List (Pass r)) :
    Prop where
  published : c.result.publishedIvk = P.frToBytes ivk
  accepted : deriveGD P c.result.ephemeralDiversifier = some gD
  draws : c.final.draws = passes.map Pass.scalar
  seals : c.final.seals = passes.map (fun pass => (pass.key, pass.plaintext))
  agreed : ∀ pass ∈ passes, AgreedOn P ivk gD pass
  derived : ∀ pass ∈ passes, pass.esk = P.frToBytes pass.scalar ∧
    deriveEpk P pass.esk c.result.ephemeralDiversifier = .ok pass.epk ∧
    saplingKaAgree P pass.esk c.result.ephemeralPkD = .ok pass.dhsecret ∧
    pass.key = kdfSapling P pass.dhsecret pass.epk

theorem exists_passesOf (fr : FrCodec P) (points : PointCodec P) (c : Returned P) :
    ∃ (ivk : ZMod r) (gD : Point) (passes : List (Pass r)), PassesOf c ivk gD passes := by
  obtain ⟨e, ran, result, final⟩ := c.exists_execution
  have accepted := searchDiversifier_accepted ran.found
  refine ⟨e.ivk, e.gD, passes e, ?_⟩
  constructor
  · rw [result, resultOf]
  · rw [result]
    exact accepted
  · rw [final, session]
  · rw [final, session]
  · intro pass member
    obtain ⟨_, _, made⟩ := ran.passes_make pass member
    exact agreedOn_of_makes fr points accepted made
  · rw [result]
    intro pass member
    obtain ⟨_, _, made⟩ := ran.passes_make pass member
    exact ⟨made.esk, made.epk, made.dhsecret, made.key⟩

/-- Within a call the inputs of the key derivation differ exactly where the draws do. -/
theorem PassesOf.inputs_nodup_iff (points : PointCodec P) (curve : CurveOrder r Point)
    {c : Returned P} {ivk : ZMod r} {gD : Point} {passes : List (Pass r)}
    (made : PassesOf c ivk gD passes) :
    (passes.map kdfInput).Nodup ↔ c.final.draws.Nodup := by
  rw [made.draws]
  constructor
  · intro inputs
    refine nodup_map_of_nodup_map inputs (fun p hp q hq same => ?_)
    rw [kdfInput, kdfInput, (made.agreed p hp).epk, (made.agreed p hp).dhsecret, same,
      (made.agreed q hq).epk, (made.agreed q hq).dhsecret]
  · intro draws
    refine nodup_map_of_nodup_map draws (fun p hp q hq same => ?_)
    have keys := congrArg Prod.snd same
    rw [kdfInput, kdfInput] at keys
    dsimp only at keys
    rw [(made.agreed p hp).epk, (made.agreed q hq).epk] at keys
    exact epk_injective points curve made.accepted keys

/-- Two calls with different viewing keys derive a common key only if both draw zero. -/
theorem PassesOf.disjoint_iff (points : PointCodec P) (curve : CurveOrder r Point) (odd : r ≠ 2)
    {c c' : Returned P} {ivk ivk' : ZMod r} {gD gD' : Point} {passes passes' : List (Pass r)}
    (made : PassesOf c ivk gD passes) (made' : PassesOf c' ivk' gD' passes')
    (viewing : c.result.publishedIvk ≠ c'.result.publishedIvk) :
    (passes.map kdfInput).Disjoint (passes'.map kdfInput) ↔
      ¬ (0 ∈ c.final.draws ∧ 0 ∈ c'.final.draws) := by
  have keys : ivk ≠ ivk' := by
    rintro rfl
    exact viewing (made.published.trans made'.published.symm)
  have alike {p q : Pass r} (hp : p ∈ passes) (hq : q ∈ passes') :=
    kdfInput_alike_iff points curve odd made.accepted made'.accepted keys (made.agreed p hp)
      (made'.agreed q hq)
  rw [made.draws, made'.draws, List.mem_map, List.mem_map]
  constructor
  · rintro apart ⟨⟨p, hp, zero⟩, q, hq, zero'⟩
    refine apart (List.mem_map_of_mem hp) ?_
    rw [(alike hp hq).mpr ⟨zero, zero'⟩]
    exact List.mem_map_of_mem hq
  · intro lonely input first second
    obtain ⟨p, hp, rfl⟩ := List.mem_map.mp first
    obtain ⟨q, hq, same⟩ := List.mem_map.mp second
    obtain ⟨zero, zero'⟩ := (alike hp hq).mp same.symm
    exact lonely ⟨⟨p, hp, zero⟩, q, hq, zero'⟩

/-- Whatever calls a process has made, in whatever order: if they published different viewing
keys, the inputs of all key derivations differ exactly when no call repeats a draw and at most
one draw of all is zero; and without a collision among them, neither does an AEAD key repeat. -/
theorem keys_distinct_across_calls (fr : FrCodec P) (points : PointCodec P)
    (curve : CurveOrder r Point) (odd : r ≠ 2) (log : List (Returned P))
    (viewing : (log.map (fun c => c.result.publishedIvk)).Nodup) :
    ∃ passes : Returned P → List (Pass r),
      (∀ c, c.final.draws = (passes c).map Pass.scalar ∧
        c.final.seals = (passes c).map (fun pass => (pass.key, pass.plaintext)) ∧
        ∀ pass ∈ passes c, pass.esk = P.frToBytes pass.scalar ∧
          deriveEpk P pass.esk c.result.ephemeralDiversifier = .ok pass.epk ∧
          saplingKaAgree P pass.esk c.result.ephemeralPkD = .ok pass.dhsecret ∧
          pass.key = kdfSapling P pass.dhsecret pass.epk) ∧
      (((log.flatMap passes).map kdfInput).Nodup ↔
        (∀ c ∈ log, c.final.draws.Nodup) ∧
          (log.flatMap (fun c => c.final.draws)).count 0 ≤ 1) ∧
      ((∀ p ∈ log.flatMap passes, ∀ q ∈ log.flatMap passes,
          kdfSapling P p.dhsecret p.epk = kdfSapling P q.dhsecret q.epk →
            kdfInput p = kdfInput q) →
        ((log.flatMap sealKeys).Nodup ↔
          (∀ c ∈ log, c.final.draws.Nodup) ∧
            (log.flatMap (fun c => c.final.draws)).count 0 ≤ 1)) := by
  choose ivk gD passes made using exists_passesOf (P := P) fr points
  have inputs : ((log.flatMap passes).map kdfInput).Nodup ↔
      (∀ c ∈ log, c.final.draws.Nodup) ∧
        (log.flatMap (fun c => c.final.draws)).count 0 ≤ 1 := by
    rw [List.map_flatMap, List.nodup_flatMap]
    have within : (∀ c ∈ log, ((passes c).map kdfInput).Nodup) ↔
        ∀ c ∈ log, c.final.draws.Nodup :=
      forall₂_congr fun c _ => (made c).inputs_nodup_iff points curve
    rw [within]
    refine and_congr_right fun draws => ?_
    have different := List.pairwise_map.mp viewing
    have apart := fun c c' => (made c).disjoint_iff points curve odd (made c')
    rw [List.flatMap_def, count_flatten_le_one (by simpa using draws), List.pairwise_map]
    constructor
    · intro disjoint
      exact different.imp₂ (fun c c' other => (apart c c' other).mp) disjoint
    · intro lonely
      exact different.imp₂ (fun c c' other => (apart c c' other).mpr) lonely
  refine ⟨passes, fun c => ⟨(made c).draws, (made c).seals, (made c).derived⟩, inputs, ?_⟩
  intro noCollision
  rw [← inputs]
  have keys : log.flatMap sealKeys = (log.flatMap passes).map Pass.key := by
    rw [List.map_flatMap]
    refine List.flatMap_congr (fun c _ => ?_)
    rw [sealKeys, (made c).seals, List.map_map]
    rfl
  have derived : ∀ p ∈ log.flatMap passes, p.key = kdfSapling P p.dhsecret p.epk := by
    intro p member
    obtain ⟨c, _, inside⟩ := List.mem_flatMap.mp member
    exact ((made c).derived p inside).2.2.2
  rw [keys]
  constructor
  · intro distinct
    refine nodup_map_of_nodup_map distinct (fun p hp q hq same => ?_)
    obtain ⟨secret, epk⟩ := Prod.mk.inj same
    rw [derived p hp, derived q hq, secret, epk]
  · intro distinct
    refine nodup_map_of_nodup_map distinct (fun p hp q hq same => ?_)
    rw [derived p hp, derived q hq] at same
    exact noCollision p hp q hq same

/-- Two calls on the small curve, the second where the first left the generator. -/
theorem keys_distinct_across_calls_small :
    ∃ first second : Returned SmallCurve.primitives, second.rng = first.final.rng ∧
      ([first, second].flatMap sealKeys).Nodup := by
  have run : (call SmallCurve.primitives SmallCurve.request 1).toOption.map
      (fun out => (out.2.draws, out.1.publishedIvk, out.2.rng)) =
        some ([3, 4, 5, 6], SmallCurve.encode (1 : ZMod SmallCurve.r), 7) := by decide +kernel
  have run' : (call SmallCurve.primitives SmallCurve.request 7).toOption.map
      (fun out => (out.2.draws, out.1.publishedIvk, out.2.rng)) =
        some ([9, 10, 11, 12], SmallCurve.encode (7 : ZMod SmallCurve.r), 13) := by decide +kernel
  obtain ⟨first, _, _, seen⟩ := exists_returned run
  obtain ⟨second, _, start, seen'⟩ := exists_returned run'
  obtain ⟨draws, ivk, next⟩ : _ ∧ _ ∧ first.final.rng = 7 := by simpa using seen
  obtain ⟨draws', ivk', _⟩ : _ ∧ _ ∧ second.final.rng = 13 := by simpa using seen'
  have viewing : ([first, second].map (fun c => c.result.publishedIvk)).Nodup := by
    rw [List.map_cons, List.map_singleton, ivk, ivk']
    decide
  obtain ⟨passes, derived, _, keys⟩ := keys_distinct_across_calls SmallCurve.fr SmallCurve.points
    SmallCurve.curve (by decide) [first, second] viewing
  have fresh : (∀ c ∈ [first, second], c.final.draws.Nodup) ∧
      ([first, second].flatMap (fun c => c.final.draws)).count 0 ≤ 1 := by
    simp only [List.forall_mem_cons, List.flatMap_cons, List.flatMap_nil, draws, draws']
    decide
  refine ⟨first, second, start.trans next.symm, (keys ?_).mpr fresh⟩
  -- secret and public key are encodings, which their first bytes determine
  have encoded : ∀ p ∈ [first, second].flatMap passes, ∃ point secret : SmallCurve.Point,
      p.epk = SmallCurve.encode point ∧ p.dhsecret = SmallCurve.encode secret := by
    intro p member
    obtain ⟨c, _, inside⟩ := List.mem_flatMap.mp member
    obtain ⟨_, epk, dhsecret, _⟩ := (derived c).2.2 p inside
    obtain ⟨point, hp⟩ := SmallCurve.deriveEpk_encoded epk
    obtain ⟨secret, hs⟩ := SmallCurve.saplingKaAgree_encoded dhsecret
    exact ⟨point, secret, hp, hs⟩
  intro p hp q hq same
  obtain ⟨secrets, keys⟩ := SmallCurve.kdfSapling_heads same
  obtain ⟨_, _, hp, hsp⟩ := encoded p hp
  obtain ⟨_, _, hq, hsq⟩ := encoded q hq
  rw [hp, hq] at keys
  rw [hsp, hsq] at secrets
  rw [kdfInput, kdfInput, hp, hq, hsp, hsq, SmallCurve.encode_of_head keys,
    SmallCurve.encode_of_head secrets]

end CmmEncrypt.ManyCalls
