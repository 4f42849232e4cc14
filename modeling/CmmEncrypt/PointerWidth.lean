import CmmEncrypt.BreakApart

/-!
# BreakApart on machine words (`notary_evidence.rs`)

The offsets of the loop are words of the pointer's width and its index is a `u32`;
sums of either wrap. A second round means that the chunk size is smaller than the
evidence, which fills less than half of the address space, so no offset wraps.
-/

namespace CmmEncrypt.PointerWidth

open Wire Layout Evidence Splitting BreakApart

/-- The variables of the loop, for pointers of `w` bits. -/
structure LoopState (w : Nat) where
  offset : BitVec w
  index : UInt32
  out : List Bytes

variable {w : Nat}

def LoopState.start : LoopState w := { offset := 0, index := 0, out := [] }

/-- `serialized_notary_evidence.len()`. -/
def len (s : Bytes) : BitVec w := BitVec.ofNat w s.length

/-- The condition of the `while` loop. -/
def Going (s : Bytes) (st : LoopState w) : Prop := st.offset < len s

/-- The `end` of a round. The sum wraps as it does in a release build. -/
def stop (s : Bytes) (m : BitVec w) (st : LoopState w) : BitVec w :=
  let sum := st.offset + m
  if sum ≤ len s then sum else len s

/-- `&s[start..stop]`. -/
def slice (s : Bytes) (start stop : Nat) : Except (Fault Empty) Bytes :=
  if stop < start then
    .error (.panic s!"slice index starts at {start} but ends at {stop}")
  else if s.length < stop then
    .error (.panic s!"range end index {stop} out of range for slice of length {s.length}")
  else .ok ((s.drop start).take (stop - start))

/-- The body of the loop. -/
def round (systemId : ByteArr 20) (s : Bytes) (m : BitVec w) (st : LoopState w) :
    Except (Fault Empty) (LoopState w) := do
  let chunk ← slice s st.offset.toNat (stop s m st).toNat
  let md : MultiPartDescriptor :=
    { index := st.index, totalLength := UInt64.ofNat s.length,
      start := UInt64.ofNat st.offset.toNat }
  let buf := writeNotaryEvidenceMultipartChunk [] systemId md chunk
  pure { offset := stop s m st, index := st.index + 1, out := st.out ++ [buf] }

/-- The states in which the loop's condition is tested, after so many rounds. -/
inductive Reached (systemId : ByteArr 20) (s : Bytes) (m : BitVec w) : Nat → LoopState w → Prop
  | start : Reached systemId s m 0 .start
  | next {k : Nat} {st st' : LoopState w} (reached : Reached systemId s m k st)
      (going : Going s st) (run : round systemId s m st = .ok st') :
      Reached systemId s m (k + 1) st'

/-! ## No sum wraps -/

section Words

variable {s : Bytes} {m : BitVec w}

theorem width_pos (positive : 1 ≤ m.toNat) : 0 < w := by
  have bound := m.isLt
  by_cases zero : w = 0
  · subst zero
    omega
  · omega

/-- The address space is twice what a slice can fill. -/
theorem address_space (positive : 1 ≤ m.toNat) : 2 ^ w = 2 * 2 ^ (w - 1) := by
  have width := width_pos positive
  rw [← Nat.pow_succ', Nat.sub_one, Nat.succ_pred_eq_of_pos width]

theorem len_toNat (small : s.length ≤ 2 ^ (w - 1) - 1) (positive : 1 ≤ m.toNat) :
    (len s : BitVec w).toNat = s.length := by
  have space := address_space positive
  have half := Nat.two_pow_pos (w - 1)
  rw [len, BitVec.toNat_ofNat, Nat.mod_eq_of_lt (by omega)]

theorem going_iff (small : s.length ≤ 2 ^ (w - 1) - 1) (positive : 1 ≤ m.toNat)
    (st : LoopState w) : Going s st ↔ st.offset.toNat < s.length := by
  rw [Going, BitVec.lt_def, len_toNat small positive]

theorem stop_toNat (small : s.length ≤ 2 ^ (w - 1) - 1) (positive : 1 ≤ m.toNat)
    {st : LoopState w} (sum : st.offset.toNat + m.toNat ≤ 2 ^ w - 1) :
    (stop s m st).toNat = min (st.offset.toNat + m.toNat) s.length := by
  have length := len_toNat small positive
  have space := Nat.two_pow_pos w
  have exact_sum : (st.offset + m).toNat = st.offset.toNat + m.toNat := by
    rw [BitVec.toNat_add, Nat.mod_eq_of_lt (by omega)]
  rw [stop]
  by_cases within : st.offset + m ≤ len s
  · rw [if_pos within, exact_sum]
    rw [BitVec.le_def, length, exact_sum] at within
    exact (Nat.min_eq_left within).symm
  · rw [if_neg within, length]
    rw [BitVec.le_def, length, exact_sum] at within
    exact (Nat.min_eq_right (by omega)).symm

theorem slice_inside {start stop : Nat} (ordered : start ≤ stop) (inside : stop ≤ s.length) :
    slice s start stop = .ok ((s.drop start).take (stop - start)) := by
  rw [slice, if_neg (Nat.not_lt.mpr ordered), if_neg (Nat.not_lt.mpr inside)]

end Words

/-! ## The rounds -/

section Rounds

variable {systemId : ByteArr 20} {s : Bytes} {m : BitVec w}

/-- What holds after `k` rounds. -/
structure AtPiece (systemId : ByteArr 20) (s : Bytes) (m : BitVec w) (k : Nat)
    (st : LoopState w) : Prop where
  counted : k ≤ pieceCount m.toNat s
  offset : st.offset.toNat = min (k * m.toNat) s.length
  index : st.index = UInt32.ofNat k
  out : st.out = (List.range k).map (fun i => render (wrapper systemId m.toNat s i))

theorem atPiece_start : AtPiece systemId s m 0 (.start : LoopState w) where
  counted := Nat.zero_le _
  offset := by simp [LoopState.start]
  index := rfl
  out := rfl

theorem AtPiece.going_iff {k : Nat} {st : LoopState w} (at_k : AtPiece systemId s m k st)
    (small : s.length ≤ 2 ^ (w - 1) - 1) (positive : 1 ≤ m.toNat) :
    Going s st ↔ k < pieceCount m.toNat s := by
  rw [PointerWidth.going_iff small positive, lt_pieceCount positive, at_k.offset]
  omega

/-- A first round starts at zero; any other one has a full chunk in front of it. -/
theorem AtPiece.sum_le {k : Nat} {st : LoopState w} (at_k : AtPiece systemId s m k st)
    (small : s.length ≤ 2 ^ (w - 1) - 1) (positive : 1 ≤ m.toNat)
    (inside : k < pieceCount m.toNat s) : st.offset.toNat + m.toNat ≤ 2 ^ w - 1 := by
  have offset := at_k.offset
  have below := (lt_pieceCount positive s k).mp inside
  have word := m.isLt
  have space := address_space positive
  cases k with
  | zero => omega
  | succ k =>
    rw [Nat.add_mul, Nat.one_mul] at offset below
    omega

theorem AtPiece.stop_eq {k : Nat} {st : LoopState w} (at_k : AtPiece systemId s m k st)
    (small : s.length ≤ 2 ^ (w - 1) - 1) (positive : 1 ≤ m.toNat)
    (inside : k < pieceCount m.toNat s) :
    (stop s m st).toNat = min ((k + 1) * m.toNat) s.length := by
  have below := (lt_pieceCount positive s k).mp inside
  rw [stop_toNat small positive (at_k.sum_le small positive inside), at_k.offset, Nat.add_mul,
    Nat.one_mul]
  omega

theorem AtPiece.round {k : Nat} {st : LoopState w} (at_k : AtPiece systemId s m k st)
    (small : s.length ≤ 2 ^ (w - 1) - 1) (positive : 1 ≤ m.toNat)
    (inside : k < pieceCount m.toNat s) :
    ∃ st', round systemId s m st = .ok st' ∧ AtPiece systemId s m (k + 1) st' := by
  have below := (lt_pieceCount positive s k).mp inside
  have here : st.offset.toNat = k * m.toNat := by
    rw [at_k.offset]
    omega
  have stops := at_k.stop_eq small positive inside
  have next : (k + 1) * m.toNat = k * m.toNat + m.toNat := by
    rw [Nat.add_mul, Nat.one_mul]
  have chunk : (s.drop (k * m.toNat)).take (min ((k + 1) * m.toNat) s.length - k * m.toNat) =
      piece m.toNat s k := by
    rw [piece, List.take_eq_take_iff, List.length_drop]
    omega
  refine ⟨⟨stop s m st, st.index + 1, st.out ++ [render (wrapper systemId m.toNat s k)]⟩, ?_,
    inside, stops, ?_, ?_⟩
  · rw [PointerWidth.round, here, stops, slice_inside (by omega) (by omega), chunk, at_k.index]
    change Except.ok _ = _
    rw [writeNotaryEvidenceMultipartChunk_render, List.nil_append]
    rfl
  · rw [at_k.index]
    exact (UInt32.ofNat_add k 1).symm
  · rw [at_k.out, List.range_succ, List.map_append, List.map_singleton]

theorem Reached.atPiece {k : Nat} {st : LoopState w} (reached : Reached systemId s m k st)
    (small : s.length ≤ 2 ^ (w - 1) - 1) (positive : 1 ≤ m.toNat) :
    AtPiece systemId s m k st := by
  induction reached with
  | start => exact atPiece_start
  | next _ going run ih =>
    have inside := (ih.going_iff small positive).mp going
    obtain ⟨st', run', after⟩ := ih.round small positive inside
    rw [run] at run'
    injection run' with same
    exact same ▸ after

theorem reached_every (systemId : ByteArr 20) (small : s.length ≤ 2 ^ (w - 1) - 1)
    (positive : 1 ≤ m.toNat) (k : Nat) (counted : k ≤ pieceCount m.toNat s) :
    ∃ st, Reached systemId s m k st := by
  induction k with
  | zero => exact ⟨.start, .start⟩
  | succ k ih =>
    obtain ⟨st, reached⟩ := ih (by omega)
    have at_k := reached.atPiece small positive
    obtain ⟨st', run, _⟩ := at_k.round small positive counted
    exact ⟨st', .next reached ((at_k.going_iff small positive).mpr counted) run⟩

end Rounds

end CmmEncrypt.PointerWidth
