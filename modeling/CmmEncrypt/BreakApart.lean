import CmmEncrypt.Evidence
import CmmEncrypt.Splitting

/-!
# BreakApart (`notary_evidence.rs`)

The loop that spreads a serialized CNotaryEvidence over several outputs moves an
offset, an index and the list of wrappers together. It is shown to write one
wrapper for every piece of the evidence, and the wrappers to be gathered again.
-/

namespace CmmEncrypt.BreakApart

open Cursor Wire Layout Evidence Splitting

/-- The `while` loop. `index += 1` wraps as it does in a release build. -/
def breakApartLoop (systemId : ByteArr 20) (serialized : Bytes) (maxChunkSize : Nat)
    (positive : 0 < maxChunkSize) (offset : Nat) (index : UInt32) (out : List Bytes) :
    List Bytes :=
  if offset < serialized.length then
    let stop := min (offset + maxChunkSize) serialized.length
    let chunk := (serialized.drop offset).take (stop - offset)
    let md : MultiPartDescriptor :=
      { index, totalLength := UInt64.ofNat serialized.length, start := UInt64.ofNat offset }
    let buf := writeNotaryEvidenceMultipartChunk [] systemId md chunk
    breakApartLoop systemId serialized maxChunkSize positive stop (index + 1) (out ++ [buf])
  else out
termination_by serialized.length - offset

def breakApart {ε : Type} (systemId : ByteArr 20) (serialized : Bytes) (maxChunkSize : Nat) :
    Except (Fault ε) (List Bytes) :=
  if positive : 0 < maxChunkSize then
    .ok (breakApartLoop systemId serialized maxChunkSize positive 0 0 [])
  else .error (.panic "max_chunk_size must be positive")

/-! ## One wrapper for every piece -/

def partDescriptor (m : Nat) (s : Bytes) (i : Nat) : MultiPartDescriptor where
  index := UInt32.ofNat i
  totalLength := UInt64.ofNat s.length
  start := UInt64.ofNat (i * m)

/-- The layout of the wrapper around the piece numbered `i`. -/
def wrapper (systemId : ByteArr 20) (m : Nat) (s : Bytes) (i : Nat) : List Field :=
  multipartEvidence systemId (partDescriptor m s i) (piece m s i)

/-- One round: a chunk is written and the offset moves to its end. -/
theorem breakApartLoop_more (systemId : ByteArr 20) {s : Bytes} {m : Nat} (positive : 0 < m)
    {offset : Nat} (index : UInt32) (out : List Bytes) (more : offset < s.length) :
    breakApartLoop systemId s m positive offset index out =
      breakApartLoop systemId s m positive (min (offset + m) s.length) (index + 1)
        (out ++ [render (multipartEvidence systemId
          { index, totalLength := UInt64.ofNat s.length, start := UInt64.ofNat offset }
          ((s.drop offset).take (min (offset + m) s.length - offset)))]) := by
  have written := writeNotaryEvidenceMultipartChunk_render [] systemId
    { index, totalLength := UInt64.ofNat s.length, start := UInt64.ofNat offset }
    ((s.drop offset).take (min (offset + m) s.length - offset))
  rw [List.nil_append] at written
  rw [← written, breakApartLoop, if_pos more]

/-- In the round numbered `i` the loop stands at the piece numbered `i`. -/
theorem breakApartLoop_eq (systemId : ByteArr 20) (s : Bytes) (m : Nat) (positive : 0 < m)
    (k i : Nat) (out : List Bytes) (left : i + k = pieceCount m s) :
    breakApartLoop systemId s m positive (min (i * m) s.length) (UInt32.ofNat i) out =
      out ++ (List.range' i k).map (fun i => render (wrapper systemId m s i)) := by
  induction k generalizing i out with
  | zero =>
    have done := length_le_pieceCount positive s
    obtain rfl : i = pieceCount m s := left
    rw [breakApartLoop, if_neg (by omega), List.range'_zero, List.map_nil, List.append_nil]
  | succ k ih =>
    have inside : i < pieceCount m s := by omega
    have offset := (lt_pieceCount positive s i).mp inside
    have here : min (i * m) s.length = i * m := by omega
    have stop : min (i * m + m) s.length = min ((i + 1) * m) s.length := by
      rw [Nat.add_mul, Nat.one_mul]
    have chunk : (s.drop (i * m)).take (min (i * m + m) s.length - i * m) = piece m s i := by
      rw [piece, List.take_eq_take_iff, List.length_drop]
      omega
    have next : UInt32.ofNat i + 1 = UInt32.ofNat (i + 1) := (UInt32.ofNat_add i 1).symm
    rw [here, breakApartLoop_more systemId positive _ _ offset, chunk, next, stop,
      ih (i + 1) _ (by omega), List.range'_succ, List.map_cons, List.append_assoc,
      List.singleton_append, wrapper, partDescriptor]

theorem breakApart_eq {ε : Type} (systemId : ByteArr 20) (s : Bytes) {m : Nat}
    (positive : 0 < m) :
    (breakApart systemId s m : Except (Fault ε) (List Bytes)) =
      .ok ((List.range (pieceCount m s)).map (fun i => render (wrapper systemId m s i))) := by
  have run := breakApartLoop_eq systemId s m positive (pieceCount m s) 0 [] (Nat.zero_add _)
  rw [Nat.zero_mul, Nat.zero_min, List.nil_append, ← List.range_eq_range'] at run
  rw [breakApart, dif_pos positive]
  exact congrArg Except.ok run

/-! ## Reading the parts back -/

/-- The part held by a multipart evidence; any other evidence holds none. -/
def partIn (evidence : CNotaryEvidence) : Except ReadError (Fragment UInt8) :=
  match evidence.objects with
  | [.multipart md chunk] =>
    if evidence.type = NOTARY_TYPE_MULTIPART_DATA then
      .ok { index := md.index.toNat, total := md.totalLength.toNat, start := md.start.toNat, chunk }
    else .error .wrongType
  | _ => .error .wrongType

def readPart (output : Bytes) : Except ReadError (Fragment UInt8) :=
  match Reader.toEnd .leftover readNotaryEvidence output with
  | .ok evidence => partIn evidence
  | .error e => .error e

/-- Walk contiguous wrappers from the first one on. -/
def reassembleParts (outputs : List Bytes) : Except ReadError (Bytes × List Bytes) :=
  reassemble readPart .wrongPart outputs

theorem piece_fits {m : Nat} (readable : m ≤ MAX_SIZE.toNat) (s : Bytes) (i : Nat) :
    (piece m s i).length ≤ MAX_SIZE.toNat := by
  rw [piece_length]
  omega

theorem wrapper_decodes (systemId : ByteArr 20) {m : Nat} (readable : m ≤ MAX_SIZE.toNat)
    (s : Bytes) (i : Nat) :
    Decodes readNotaryEvidence (render (wrapper systemId m s i))
      { type := NOTARY_TYPE_MULTIPART_DATA, systemId := systemId.toList,
        objects := [.multipart (partDescriptor m s i) (piece m s i)] } :=
  readNotaryEvidence_multipart systemId (partDescriptor m s i) (piece_fits readable s i)

/-- Below 2^32 pieces of readable size no field of the descriptor wraps. -/
theorem partDescriptor_exact {m : Nat} (positive : 0 < m) (readable : m ≤ MAX_SIZE.toNat)
    {s : Bytes} (countable : pieceCount m s < 2 ^ 32) {i : Nat} (inside : i < pieceCount m s) :
    (partDescriptor m s i).index.toNat = i ∧
      (partDescriptor m s i).totalLength.toNat = s.length ∧
      (partDescriptor m s i).start.toNat = i * m := by
  have max : MAX_SIZE.toNat = 0x02000000 := rfl
  have offset := (lt_pieceCount positive s i).mp inside
  have whole := length_le_pieceCount positive s
  have bound : pieceCount m s * m ≤ 2 ^ 32 * 0x02000000 :=
    Nat.mul_le_mul (Nat.le_of_lt countable) (by omega)
  simp only [partDescriptor, UInt32.toNat_ofNat', UInt64.toNat_ofNat']
  refine ⟨?_, ?_, ?_⟩ <;> apply Nat.mod_eq_of_lt <;> omega

theorem partIn_wrapper (systemId : ByteArr 20) {m : Nat} (positive : 0 < m)
    (readable : m ≤ MAX_SIZE.toNat) {s : Bytes} (countable : pieceCount m s < 2 ^ 32) {i : Nat}
    (inside : i < pieceCount m s) :
    partIn { type := NOTARY_TYPE_MULTIPART_DATA, systemId := systemId.toList,
             objects := [.multipart (partDescriptor m s i) (piece m s i)] } =
      .ok (partOf m s i) := by
  obtain ⟨index, total, start⟩ := partDescriptor_exact positive readable countable inside
  simp only [partIn, if_pos, index, total, start, partOf]

theorem readPart_wrapper (systemId : ByteArr 20) {m : Nat} (positive : 0 < m)
    (readable : m ≤ MAX_SIZE.toNat) {s : Bytes} (countable : pieceCount m s < 2 ^ 32) {i : Nat}
    (inside : i < pieceCount m s) :
    readPart (render (wrapper systemId m s i)) = .ok (partOf m s i) := by
  rw [readPart, (wrapper_decodes systemId readable s i).toEnd .leftover]
  exact partIn_wrapper systemId positive readable countable inside

/-- As many wrappers as pieces, each around its piece, and a reader that
starts at the first one gathers the evidence and stops behind the last. -/
theorem breakApart_roundtrip {ε : Type} (systemId : ByteArr 20) (s : Bytes) (m : Nat)
    (nonempty : s ≠ []) (positive : 0 < m) (readable : m ≤ MAX_SIZE.toNat)
    (countable : s.length ⌈/⌉ m < 2 ^ 32) :
    ∃ wrappers chunks : List Bytes,
      (breakApart systemId s m : Except (Fault ε) (List Bytes)) = .ok wrappers ∧
      wrappers.length = s.length ⌈/⌉ m ∧ chunks.length = wrappers.length ∧ chunks.flatten = s ∧
      (∀ i w, wrappers[i]? = some w → ∃ md chunk, chunks[i]? = some chunk ∧
        Reader.toEnd .leftover readNotaryEvidence w =
          .ok { type := NOTARY_TYPE_MULTIPART_DATA, systemId := systemId.toList,
                objects := [.multipart md chunk] } ∧
        chunk ≠ [] ∧ chunk.length ≤ m ∧ (i + 1 < wrappers.length → chunk.length = m) ∧
        md.index.toNat = i ∧ md.totalLength.toNat = s.length ∧
        md.start.toNat = ((chunks.take i).map List.length).sum) ∧
      ∀ more : List Bytes, reassembleParts (wrappers ++ more) = .ok (s, more) := by
  refine ⟨(List.range (pieceCount m s)).map (fun i => render (wrapper systemId m s i)),
    (List.range (pieceCount m s)).map (piece m s), breakApart_eq systemId s positive, ?_, ?_,
    flatten_pieces positive s, ?_, ?_⟩
  · rw [List.length_map, List.length_range, pieceCount]
  · rw [List.length_map, List.length_map]
  · intro i w at_i
    rw [List.getElem?_map, Option.map_eq_some_iff] at at_i
    obtain ⟨j, at_j, rfl⟩ := at_i
    obtain ⟨inside, at_j⟩ := List.getElem?_eq_some_iff.mp at_j
    rw [List.getElem_range] at at_j
    rw [List.length_range] at inside
    subst at_j
    obtain ⟨index, total, start⟩ := partDescriptor_exact positive readable countable inside
    refine ⟨partDescriptor m s i, piece m s i, ?_,
      (wrapper_decodes systemId readable s i).toEnd .leftover, piece_ne_nil positive inside, ?_, ?_,
      index, total, ?_⟩
    · rw [List.getElem?_map, List.getElem?_range inside, Option.map_some]
    · rw [piece_length]
      exact Nat.min_le_left _ _
    · intro next
      rw [List.length_map, List.length_range] at next
      exact piece_full positive next
    · rw [start, pieces_before positive inside]
  · intro more
    exact reassemble_pieces positive nonempty (fun i => render (wrapper systemId m s i))
      .wrongPart more (fun i inside => readPart_wrapper systemId positive readable countable inside)

/-- Three bytes in parts of two, followed by one more output. -/
theorem breakApart_roundtrip_small :
    ∃ wrappers : List Bytes,
      (breakApart (List.Vector.replicate 20 0xBB) [1, 2, 3] 2 :
        Except (Fault Unit) (List Bytes)) = .ok wrappers ∧
      wrappers.length = 2 ∧ reassembleParts (wrappers ++ [[0]]) = .ok ([1, 2, 3], [[0]]) := by
  obtain ⟨wrappers, _, run, count, _, _, _, gathered⟩ :=
    breakApart_roundtrip (ε := Unit) (List.Vector.replicate 20 0xBB) [1, 2, 3] 2 (by decide)
      (by decide) (by decide) (by decide)
  exact ⟨wrappers, run, count, gathered [[0]]⟩

end CmmEncrypt.BreakApart
