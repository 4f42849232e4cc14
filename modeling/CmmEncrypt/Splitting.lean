import Mathlib.Algebra.Order.Floor.Div
import Mathlib.Data.List.Basic
import Mathlib.Tactic.Common

/-!
# Cutting a list into numbered parts and gathering them again

A list is cut into pieces of a fixed size, the last one possibly shorter. A part
carries its number, the length of the whole, its offset and its piece; a reader
that gathers parts in order until it has the whole knows by itself where to stop.
-/

namespace CmmEncrypt.Splitting

universe u
variable {α ω ε : Type u}

/-- The piece of size `m` numbered `i`. -/
def piece (m : Nat) (s : List α) (i : Nat) : List α := (s.drop (i * m)).take m

def pieceCount (m : Nat) (s : List α) : Nat := s.length ⌈/⌉ m

theorem lt_pieceCount {m : Nat} (positive : 0 < m) (s : List α) (i : Nat) :
    i < pieceCount m s ↔ i * m < s.length := by
  have h := ceilDiv_le_iff_le_mul (b := s.length) (c := i) positive
  rw [← not_iff_not, Nat.not_lt, Nat.not_lt, pieceCount, h, Nat.mul_comm]

theorem length_le_pieceCount {m : Nat} (positive : 0 < m) (s : List α) :
    s.length ≤ pieceCount m s * m := by
  have h := (lt_pieceCount positive s (pieceCount m s)).not.mp (Nat.lt_irrefl _)
  omega

theorem piece_length (m : Nat) (s : List α) (i : Nat) :
    (piece m s i).length = min m (s.length - i * m) := by
  rw [piece, List.length_take, List.length_drop]

theorem piece_ne_nil {m : Nat} (positive : 0 < m) {s : List α} {i : Nat}
    (inside : i < pieceCount m s) : piece m s i ≠ [] := by
  have offset := (lt_pieceCount positive s i).mp inside
  have size := piece_length m s i
  intro empty
  rw [empty, List.length_nil] at size
  omega

/-- Every piece in front of another one is full. -/
theorem piece_full {m : Nat} (positive : 0 < m) {s : List α} {i : Nat}
    (next : i + 1 < pieceCount m s) : (piece m s i).length = m := by
  have offset := (lt_pieceCount positive s (i + 1)).mp next
  rw [Nat.add_mul, Nat.one_mul] at offset
  rw [piece_length]
  omega

theorem take_append_piece (m : Nat) (s : List α) (i : Nat) :
    s.take (i * m) ++ piece m s i = s.take ((i + 1) * m) := by
  rw [Nat.add_mul, Nat.one_mul, List.take_add, piece]

theorem flatten_pieces_take (m : Nat) (s : List α) (k : Nat) :
    ((List.range k).map (piece m s)).flatten = s.take (k * m) := by
  induction k with
  | zero => simp
  | succ k ih =>
    rw [List.range_succ, List.map_append, List.flatten_append, ih, List.map_singleton,
      List.flatten_singleton, take_append_piece]

/-- Nothing is lost. -/
theorem flatten_pieces {m : Nat} (positive : 0 < m) (s : List α) :
    ((List.range (pieceCount m s)).map (piece m s)).flatten = s := by
  rw [flatten_pieces_take, List.take_of_length_le (length_le_pieceCount positive s)]

/-- A piece starts where the pieces in front of it end. -/
theorem pieces_before {m : Nat} (positive : 0 < m) {s : List α} {i : Nat}
    (inside : i < pieceCount m s) :
    ((((List.range (pieceCount m s)).map (piece m s)).take i).map List.length).sum = i * m := by
  have offset := (lt_pieceCount positive s i).mp inside
  rw [← List.length_flatten, ← List.map_take, List.take_range, Nat.min_eq_left (by omega),
    flatten_pieces_take, List.length_take]
  omega

/-! ## Gathering -/

/-- One part of a whole of length `total`. -/
structure Fragment (α : Type u) where
  index : Nat
  total : Nat
  start : Nat
  chunk : List α

/-- Gather parts in order until the whole is there; the outputs behind it are returned. -/
def collect (part : ω → Except ε (Fragment α)) (bad : ε) (total : Nat) :
    List ω → Nat → List α → Except ε (List α × List ω)
  | [], _, gathered => if gathered.length = total then .ok (gathered, []) else .error bad
  | o :: rest, index, gathered =>
    if gathered.length = total then .ok (gathered, o :: rest) else
    match part o with
    | .error e => .error e
    | .ok p =>
      if p.index = index ∧ p.total = total ∧ p.start = gathered.length then
        collect part bad total rest (index + 1) (gathered ++ p.chunk)
      else .error bad

/-- The first part says how long the whole is. -/
def reassemble (part : ω → Except ε (Fragment α)) (bad : ε) :
    List ω → Except ε (List α × List ω)
  | [] => .error bad
  | o :: rest =>
    match part o with
    | .error e => .error e
    | .ok p => collect part bad p.total (o :: rest) 0 []

/-- The part that holds the piece numbered `i`. -/
def partOf (m : Nat) (s : List α) (i : Nat) : Fragment α where
  index := i
  total := s.length
  start := i * m
  chunk := piece m s i

theorem collect_done {part : ω → Except ε (Fragment α)} {bad : ε} {total index : Nat}
    {gathered : List α} (more : List ω) (whole : gathered.length = total) :
    collect part bad total more index gathered = .ok (gathered, more) := by
  cases more with
  | nil => rw [collect, if_pos whole]
  | cons o rest => rw [collect, if_pos whole]

/-- After `i` parts the pieces gathered are the first `i * m` elements. -/
theorem collect_pieces {m : Nat} (positive : 0 < m) (s : List α) (block : Nat → ω)
    {part : ω → Except ε (Fragment α)} (bad : ε) (more : List ω)
    (parts : ∀ i, i < pieceCount m s → part (block i) = .ok (partOf m s i))
    (k i : Nat) (left : i + k = pieceCount m s) :
    collect part bad s.length ((List.range' i k).map block ++ more) i (s.take (i * m)) =
      .ok (s, more) := by
  induction k generalizing i with
  | zero =>
    obtain rfl : i = pieceCount m s := left
    rw [List.range'_zero, List.map_nil, List.nil_append,
      List.take_of_length_le (length_le_pieceCount positive s)]
    exact collect_done more rfl
  | succ k ih =>
    have inside : i < pieceCount m s := by omega
    have offset := (lt_pieceCount positive s i).mp inside
    have gathered : (s.take (i * m)).length = i * m := by
      rw [List.length_take]
      omega
    have rest := ih (i + 1) (by omega)
    rw [List.range'_succ, List.map_cons, List.cons_append, collect, if_neg (by omega),
      parts i inside]
    simp only [partOf, gathered, and_self, if_true, take_append_piece]
    exact rest

/-- Whatever follows the parts of a nonempty list, gathering stops behind the last one. -/
theorem reassemble_pieces {m : Nat} (positive : 0 < m) {s : List α} (nonempty : s ≠ [])
    (block : Nat → ω) {part : ω → Except ε (Fragment α)} (bad : ε) (more : List ω)
    (parts : ∀ i, i < pieceCount m s → part (block i) = .ok (partOf m s i)) :
    reassemble part bad ((List.range (pieceCount m s)).map block ++ more) = .ok (s, more) := by
  have first : 0 < pieceCount m s := by
    rw [lt_pieceCount positive, Nat.zero_mul]
    exact List.length_pos_iff.mpr nonempty
  have run := collect_pieces positive s block bad more parts (pieceCount m s) 0 (Nat.zero_add _)
  rw [Nat.zero_mul, List.take_zero, ← List.range_eq_range'] at run
  obtain ⟨k, count⟩ : ∃ k, pieceCount m s = k + 1 := ⟨pieceCount m s - 1, by omega⟩
  rw [count, List.range_succ_eq_map, List.map_cons, List.cons_append] at run ⊢
  simp only [reassemble, parts 0 first, partOf]
  exact run

/-! ## Parts out of place -/

/-- Whatever the outputs, none of them is read as anything but a part of `s`. -/
def Genuine (part : ω → Except ε (Fragment α)) (m : Nat) (s : List α) (outputs : List ω) : Prop :=
  ∀ o ∈ outputs, ∀ p, part o = .ok p → ∃ i, p = partOf m s i

/-- A part is taken only in its own place, so what has been gathered is always a beginning. -/
theorem collect_genuine {part : ω → Except ε (Fragment α)} {bad : ε} {m : Nat} {s : List α}
    {outputs : List ω} (genuine : Genuine part m s outputs) {index : Nat} {out : List α}
    {more : List ω}
    (run : collect part bad s.length outputs index (s.take (index * m)) = .ok (out, more)) :
    out = s := by
  have whole {k : Nat} (full : (s.take k).length = s.length) : s.take k = s := by
    rw [List.length_take] at full
    exact List.take_of_length_le (by omega)
  induction outputs generalizing index with
  | nil =>
    rw [collect] at run
    split at run
    · rename_i full
      cases run
      exact whole full
    · cases run
  | cons o rest ih =>
    rw [collect] at run
    split at run
    · rename_i full
      cases run
      exact whole full
    · split at run
      · cases run
      · rename_i p read
        obtain ⟨i, rfl⟩ := genuine o List.mem_cons_self p read
        split at run
        · rename_i inPlace
          obtain rfl : i = index := inPlace.1
          rw [partOf, take_append_piece] at run
          exact ih (fun q member => genuine q (List.mem_cons_of_mem o member)) run
        · cases run

/-- However its parts are mixed up, dropped or repeated, nothing but the whole is gathered. -/
theorem reassemble_genuine {part : ω → Except ε (Fragment α)} {bad : ε} {m : Nat} {s : List α}
    {outputs : List ω} (genuine : Genuine part m s outputs) {out : List α} {more : List ω}
    (run : reassemble part bad outputs = .ok (out, more)) : out = s := by
  cases outputs with
  | nil => cases run
  | cons o rest =>
    rw [reassemble] at run
    split at run
    · cases run
    · rename_i p read
      obtain ⟨i, rfl⟩ := genuine o List.mem_cons_self p read
      have start : s.take (0 * m) = [] := by rw [Nat.zero_mul, List.take_zero]
      rw [partOf, ← start] at run
      exact collect_genuine genuine run

end CmmEncrypt.Splitting
