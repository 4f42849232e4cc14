import CmmEncrypt.Utf16
import CmmEncrypt.Wire
import Mathlib.Data.Nat.Basic

/-!
# Text on its way into the module (`verusid_cmm_encrypt.js`)

Labels and MIME types are copied into the memory of the module. ASCII is copied unit by
unit until another unit turns up; what is left is encoded into a block that is made large
enough first and cut to size afterwards. The bytes are those that an encoder writes for
the whole text at once.
-/

namespace CmmEncrypt.PassString

open Wire Utf16

/-- The bytes of the module by address. -/
abbrev Memory := Nat → UInt8

/-- A length or pointer as the module gets it. -/
def u32 (n : Nat) : Nat := n % 2 ^ 32

def region (m : Memory) (ptr n : Nat) : Bytes := (List.range n).map fun i => m (ptr + i)

/-- `mem[ptr] = byte`. -/
def store (m : Memory) (ptr : Nat) (byte : UInt8) : Memory :=
  fun a => if a = ptr then byte else m a

/-- `view.set(bytes)` on the view that begins at `ptr`. -/
def storeAll (m : Memory) (ptr : Nat) : Bytes → Memory
  | [] => m
  | b :: bytes => storeAll (store m ptr b) (ptr + 1) bytes

/-- A block of that length, unless the module traps. -/
abbrev Malloc := Nat → Memory → Option (Nat × Memory)
/-- The pointer, the old and the new length of a block. -/
abbrev Realloc := Nat → Nat → Nat → Memory → Option (Nat × Memory)

/-- Where `Live m ptr n` says that a block of `n` bytes is at `ptr`: stores into a block leave
it there, and one that is moved or resized keeps what fits into it. -/
structure Allocator (malloc : Malloc) (realloc : Option Realloc)
    (Live : Memory → Nat → Nat → Prop) : Prop where
  fresh : ∀ n m ptr m', malloc n m = some (ptr, m') → Live m' ptr n
  kept : ∀ m ptr n i byte, Live m ptr n → i < n → Live (store m (ptr + i) byte) ptr n
  resized : ∀ f, realloc = some f → ∀ ptr old new m ptr' m', Live m ptr old →
    f ptr old new m = some (ptr', m') → Live m' ptr' new
  moved : ∀ f, realloc = some f → ∀ ptr old new m ptr' m', Live m ptr old →
    f ptr old new m = some (ptr', m') →
      region m' ptr' (min old new) = region m ptr (min old new)

/-- `encodeInto` stops before the first character that does not fit. -/
def encodeInto : List Char → Nat → Bytes
  | [], _ => []
  | c :: cs, room =>
    if (String.utf8EncodeChar c).length ≤ room then
      String.utf8EncodeChar c ++ encodeInto cs (room - (String.utf8EncodeChar c).length)
    else []

/-- The loop over `offset`, on the units from there on. -/
def copyAscii (ptr : Nat) : List UInt16 → Nat → Memory → Nat × Memory
  | [], offset, m => (offset, m)
  | code :: arg, offset, m =>
    if code > 0x7F then (offset, m)
    else copyAscii ptr arg (offset + 1) (store m (ptr + offset) code.toUInt8)

/-- The pointer, and `WASM_VECTOR_LEN`. -/
structure Passed where
  ptr : Nat
  len : Nat
  memory : Memory

/-- What the module finds there. -/
def Passed.bytes (passed : Passed) : Bytes := region passed.memory passed.ptr passed.len

def passStringToWasm0 (arg : List UInt16) (malloc : Malloc) (realloc : Option Realloc)
    (m : Memory) : Option Passed :=
  match realloc with
  | none => do
    let buf := utf8 (decode arg)
    let (ptr, m) ← malloc (u32 buf.length) m
    pure { ptr, len := buf.length, memory := storeAll m ptr buf }
  | some realloc => do
    let len := arg.length
    let (ptr, m) ← malloc (u32 len) m
    let (offset, m) := copyAscii ptr arg 0 m
    if offset ≠ len then
      let arg := if offset ≠ 0 then arg.drop offset else arg
      let grown := offset + arg.length * 3
      let (ptr, m) ← realloc ptr (u32 len) (u32 grown) m
      let written := encodeInto (decode arg) (grown - offset)
      let m := storeAll m (ptr + offset) written
      let offset := offset + written.length
      let (ptr, m) ← realloc ptr (u32 grown) (u32 offset) m
      pure { ptr, len := offset, memory := m }
    else pure { ptr, len := offset, memory := m }

/-! ## Regions -/

theorem region_length (m : Memory) (ptr n : Nat) : (region m ptr n).length = n := by
  rw [region, List.length_map, List.length_range]

theorem region_add (m : Memory) (ptr n k : Nat) :
    region m ptr (n + k) = region m ptr n ++ region m (ptr + n) k := by
  rw [region, List.range_add, List.map_append, List.map_map]
  congr 1
  refine List.map_congr_left fun i _ => ?_
  rw [Function.comp_apply, Nat.add_assoc]

/-- Regions that agree also agree up to any shorter length. -/
theorem region_shorter {m m' : Memory} {ptr ptr' n k : Nat} (short : k ≤ n)
    (same : region m ptr n = region m' ptr' n) : region m ptr k = region m' ptr' k := by
  obtain ⟨rest, rfl⟩ := Nat.exists_eq_add_of_le short
  rw [region_add, region_add] at same
  exact (List.append_inj same (by rw [region_length, region_length])).1

/-- A store behind a region does not touch it. -/
theorem region_store (m : Memory) {ptr n a : Nat} (behind : ptr + n ≤ a) (byte : UInt8) :
    region (store m a byte) ptr n = region m ptr n := by
  refine List.map_congr_left fun i inside => ?_
  have before := List.mem_range.mp inside
  rw [store, if_neg (by omega)]

theorem region_storeAll (m : Memory) (ptr n : Nat) (bytes : Bytes) :
    region (storeAll m (ptr + n) bytes) ptr (n + bytes.length) = region m ptr n ++ bytes := by
  induction bytes generalizing m n with
  | nil => rw [storeAll, List.length_nil, Nat.add_zero, List.append_nil]
  | cons b bytes ih =>
    have last : region (store m (ptr + n) b) ptr (n + 1) = region m ptr n ++ [b] := by
      have one : region (store m (ptr + n) b) (ptr + n) 1 = [b] := by
        rw [region, List.range_one, List.map_singleton, store, Nat.add_zero, if_pos rfl]
      rw [region_add, region_store m (Nat.le_refl _), one]
    rw [storeAll, List.length_cons, Nat.add_comm bytes.length, ← Nat.add_assoc, Nat.add_assoc ptr,
      ih, last, List.append_assoc, List.singleton_append]

/-! ## The two paths -/

/-- With room enough, everything is encoded. -/
theorem encodeInto_all {cs : List Char} {room : Nat} (enough : (utf8 cs).length ≤ room) :
    encodeInto cs room = utf8 cs := by
  induction cs generalizing room with
  | nil => rfl
  | cons c cs ih =>
    rw [utf8_cons, List.length_append] at enough
    rw [encodeInto, if_pos (Nat.le_of_add_right_le enough), ih (Nat.le_sub_of_add_le' enough),
      utf8_cons]

/-- The loop copies some ASCII units to the place they have in the block. -/
theorem copyAscii_spec (ptr : Nat) (arg : List UInt16) (offset : Nat) (m : Memory) :
    ∃ front rest, arg = front ++ rest ∧ (∀ u ∈ front, u ≤ 0x7F) ∧
      (copyAscii ptr arg offset m).1 = offset + front.length ∧
      region (copyAscii ptr arg offset m).2 ptr (offset + front.length) =
        region m ptr offset ++ front.map UInt16.toUInt8 := by
  induction arg generalizing offset m with
  | nil => exact ⟨[], [], rfl, List.forall_mem_nil _, rfl, (List.append_nil _).symm⟩
  | cons code arg ih =>
    rw [copyAscii]
    split
    · exact ⟨[], code :: arg, rfl, List.forall_mem_nil _, rfl, (List.append_nil _).symm⟩
    · rename_i ascii
      obtain ⟨front, rest, rfl, each, stop, copied⟩ :=
        ih (offset + 1) (store m (ptr + offset) code.toUInt8)
      refine ⟨code :: front, rest, rfl, ?_, ?_, ?_⟩
      · rw [List.forall_mem_cons]
        exact ⟨UInt16.not_lt.mp ascii, each⟩
      · rw [stop, List.length_cons]
        omega
      · have one := region_storeAll m ptr offset [code.toUInt8]
        rw [storeAll, storeAll, List.length_singleton] at one
        rw [one, List.append_assoc, List.singleton_append] at copied
        rw [List.length_cons, List.map_cons, ← copied, Nat.add_assoc, Nat.add_comm 1]

/-! ## Blocks -/

section Blocks

variable {malloc : Malloc} {realloc : Option Realloc} {Live : Memory → Nat → Nat → Prop}
  (allocator : Allocator malloc realloc Live)

include allocator

theorem storeAll_live {m : Memory} {ptr n offset : Nat} {bytes : Bytes} (live : Live m ptr n)
    (inside : offset + bytes.length ≤ n) : Live (storeAll m (ptr + offset) bytes) ptr n := by
  induction bytes generalizing m offset with
  | nil => exact live
  | cons b bytes ih =>
    rw [List.length_cons] at inside
    have first := allocator.kept m ptr n offset b live (by omega)
    have rest : offset + 1 + bytes.length ≤ n := by omega
    exact ih first rest

theorem copyAscii_live {m : Memory} {ptr n offset : Nat} {arg : List UInt16}
    (live : Live m ptr n) (inside : offset + arg.length ≤ n) :
    Live (copyAscii ptr arg offset m).2 ptr n := by
  induction arg generalizing m offset with
  | nil => exact live
  | cons code arg ih =>
    rw [List.length_cons] at inside
    rw [copyAscii]
    split
    · exact live
    · have first := allocator.kept m ptr n offset code.toUInt8 live (by omega)
      exact ih first (by omega)

/-- Behind the copied part, the rest is encoded into a block that is resized twice. -/
theorem region_grown {f : Realloc} (given : realloc = some f)
    {ptr len offset room grown cut : Nat} {m m₁ m₂ : Memory} {front written : Bytes}
    (live : Live m ptr len) (inside : offset ≤ len) (copied : region m ptr offset = front)
    (fits : written.length ≤ room)
    (grows : f ptr len (offset + room) m = some (grown, m₁))
    (cuts : f grown (offset + room) (offset + written.length)
      (storeAll m₁ (grown + offset) written) = some (cut, m₂)) :
    Live m₂ cut (offset + written.length) ∧
    region m₂ cut (offset + written.length) = front ++ written := by
  have wide := allocator.resized f given _ _ _ _ _ _ live grows
  have moved := allocator.moved f given _ _ _ _ _ _ live grows
  have filled : Live (storeAll m₁ (grown + offset) written) grown (offset + room) :=
    storeAll_live allocator wide (Nat.add_le_add_left fits offset)
  have shrunk := allocator.moved f given _ _ _ _ _ _ filled cuts
  have first : region m₁ grown offset = front :=
    (region_shorter (Nat.le_min.mpr ⟨inside, Nat.le_add_right offset room⟩) moved).trans copied
  rw [Nat.min_eq_right (Nat.add_le_add_left fits offset), region_storeAll, first] at shrunk
  exact ⟨allocator.resized f given _ _ _ _ _ _ filled cuts, shrunk⟩

end Blocks

section Texts

variable {malloc : Malloc} {Live : Memory → Nat → Nat → Prop} {arg : List UInt16}
  {m : Memory} {out : Passed}

theorem u32_small {n : Nat} (small : 3 * arg.length < 2 ^ 32) (fits : n ≤ 3 * arg.length) :
    u32 n = n := Nat.mod_eq_of_lt (Nat.lt_of_le_of_lt fits small)

/-- Plainly encoded, the text is stored as it is. -/
theorem passString_plain (allocator : Allocator malloc none Live)
    (small : 3 * arg.length < 2 ^ 32) (done : passStringToWasm0 arg malloc none m = some out) :
    Live out.memory out.ptr out.len ∧ out.bytes = utf8 (decode arg) := by
  obtain ⟨⟨ptr, m₁⟩, got, stored⟩ := Option.bind_eq_some_iff.mp done
  cases stored
  rw [u32_small small (utf8_length_le arg)] at got
  have live := allocator.fresh _ _ _ _ got
  have whole := region_storeAll m₁ ptr 0 (utf8 (decode arg))
  rw [Nat.add_zero, Nat.zero_add] at whole
  exact ⟨storeAll_live allocator live (Nat.le_of_eq (Nat.zero_add _)), whole⟩

/-- The path over ASCII ends with the bytes of the plain one. -/
theorem passString_grown {f : Realloc} (allocator : Allocator malloc (some f) Live)
    (small : 3 * arg.length < 2 ^ 32)
    (done : passStringToWasm0 arg malloc (some f) m = some out) :
    Live out.memory out.ptr out.len ∧ out.bytes = utf8 (decode arg) := by
  obtain ⟨⟨ptr, m₁⟩, got, later⟩ := Option.bind_eq_some_iff.mp done
  rw [u32_small small (Nat.le_mul_of_pos_left _ (by decide))] at got
  have fresh := allocator.fresh _ _ _ _ got
  have live := copyAscii_live allocator fresh (Nat.le_of_eq (Nat.zero_add arg.length))
  obtain ⟨front, rest, split, ascii, stop, copied⟩ := copyAscii_spec ptr arg 0 m₁
  rw [Nat.zero_add] at stop copied
  have lengths : arg.length = front.length + rest.length := by rw [split, List.length_append]
  have encoded : utf8 (decode arg) = front.map UInt16.toUInt8 ++ utf8 (decode rest) := by
    rw [split, utf8_ascii_append ascii]
  -- The slice is taken only behind something.
  have sliced : (if front.length ≠ 0 then arg.drop front.length else arg) = rest := by
    rw [split]
    split
    · exact List.drop_left
    · rename_i none
      rw [List.length_eq_zero_iff.mp (not_not.mp none), List.nil_append]
  simp only [stop, sliced] at later
  rw [encoded]
  by_cases all : front.length = arg.length
  · rw [if_neg (not_not.mpr all)] at later
    cases later
    have nothing : rest = [] := List.length_eq_zero_iff.mp (by omega)
    rw [nothing, decode, utf8, List.flatMap_nil, List.append_nil]
    rw [← all] at live
    exact ⟨live, copied⟩
  · have enough : (utf8 (decode rest)).length ≤ rest.length * 3 := by
      rw [Nat.mul_comm]
      exact utf8_length_le rest
    rw [if_pos all, Nat.add_sub_cancel_left, encodeInto_all enough] at later
    obtain ⟨⟨grown, m₂⟩, grows, later⟩ := Option.bind_eq_some_iff.mp later
    obtain ⟨⟨cut, m₃⟩, cuts, later⟩ := Option.bind_eq_some_iff.mp later
    cases later
    have wide : u32 (front.length + rest.length * 3) = front.length + rest.length * 3 :=
      u32_small small (by omega)
    have final : u32 (front.length + (utf8 (decode rest)).length) =
        front.length + (utf8 (decode rest)).length := u32_small small (by omega)
    rw [u32_small small (Nat.le_mul_of_pos_left _ (by decide)), wide] at grows
    rw [wide, final] at cuts
    exact region_grown allocator rfl live (by omega) copied enough grows cuts

end Texts

/-- The bytes of a text without lone surrogates. -/
theorem asBytes_eq_utf8 (s : String) : asBytes s = utf8 s.toList := by
  rw [asBytes, ← String.utf8Encode_toList, List.utf8Encode, List.toList_data_toByteArray]
  rfl

/-- With `__wbindgen_realloc` or without, the module gets the UTF-8 of the text in a block of
just that length, of no more than three bytes a unit, and the bytes of any string that the
text spells. -/
theorem passString_exact {malloc : Malloc} {realloc : Option Realloc}
    {Live : Memory → Nat → Nat → Prop} (allocator : Allocator malloc realloc Live)
    {arg : List UInt16} (small : 3 * arg.length < 2 ^ 32) {m : Memory} {out : Passed}
    (done : passStringToWasm0 arg malloc realloc m = some out) :
    Live out.memory out.ptr out.len ∧ out.bytes = utf8 (decode arg) ∧
    out.len ≤ 3 * arg.length ∧
    ∀ s : String, arg = s.toList.flatMap units → out.bytes = asBytes s := by
  have stored : Live out.memory out.ptr out.len ∧ out.bytes = utf8 (decode arg) := by
    cases realloc with
    | none => exact passString_plain allocator small done
    | some f => exact passString_grown allocator small done
  refine ⟨stored.1, stored.2, ?_, fun s spelled => ?_⟩
  · have length := congrArg List.length stored.2
    rw [Passed.bytes, region_length] at length
    rw [length]
    exact utf8_length_le arg
  · rw [stored.2, spelled, decode_units, asBytes_eq_utf8]

/-- An allocator of one block, which moves whenever it is resized. -/
def mallocSmall : Malloc := fun n m => if n ≤ 64 then some (128, m) else none

def reallocSmall : Realloc := fun ptr old new m =>
  if new ≤ 64 then
    some ((ptr + 64) % 256, fun a =>
      if (ptr + 64) % 256 ≤ a ∧ a < (ptr + 64) % 256 + min old new then
        m (ptr + (a - (ptr + 64) % 256))
      else m a)
  else none

theorem allocatorSmall : Allocator mallocSmall (some reallocSmall) fun _ _ n => n ≤ 64 where
  fresh n m ptr m' got := by
    rw [mallocSmall, Option.ite_none_right_eq_some] at got
    exact got.1
  kept _ _ _ _ _ live _ := live
  resized f given ptr old new m ptr' m' _ got := by
    cases given
    rw [reallocSmall, Option.ite_none_right_eq_some] at got
    exact got.1
  moved f given ptr old new m ptr' m' _ got := by
    cases given
    rw [reallocSmall, Option.ite_none_right_eq_some, Option.some_inj] at got
    obtain ⟨_, moved⟩ := got
    cases moved
    refine List.map_congr_left fun i inside => ?_
    have before := List.mem_range.mp inside
    refine (if_pos ⟨Nat.le_add_right _ i, Nat.add_lt_add_left before _⟩).trans ?_
    rw [Nat.add_sub_cancel_left]

/-- A letter, one beyond ASCII and a surrogate alone. -/
theorem passString_exact_small :
    let arg : List UInt16 := [0x61, 0xE9, 0xD83D]
    3 * arg.length < 2 ^ 32 ∧
    ∃ out, passStringToWasm0 arg mallocSmall (some reallocSmall) (fun _ => 0) = some out ∧
      out.bytes = [0x61, 0xC3, 0xA9, 0xEF, 0xBF, 0xBD] ∧ out.len ≤ 64 ∧
      out.bytes = utf8 (decode arg) := by
  intro arg
  have small : 3 * arg.length < 2 ^ 32 := by decide
  have run : passStringToWasm0 arg mallocSmall (some reallocSmall) (fun _ => 0) = some _ := rfl
  have stored := passString_exact allocatorSmall small run
  exact ⟨small, _, run, stored.2.1.trans (by decide), stored.1, stored.2.1⟩

end CmmEncrypt.PassString
