import Mathlib.Data.List.Basic
import Mathlib.Tactic.Common

/-!
# Cursor readers and the blocks they decode

A reader sees a whole buffer and a cursor into it, and returns a value with the
cursor advanced. `Decodes rd block a` says that `rd` turns `block` into `a`
wherever the block stands, whatever precedes and follows it. Blocks compose along
`bind`, and two blocks decoded by one reader can neither disagree nor be proper
prefixes of one another. Buffer elements, failures and values are arbitrary types.
-/

namespace CmmEncrypt.Cursor

universe u
variable {ε ε' β α γ : Type u}

/-- A reader over a buffer of `β` with failures in `ε`. -/
def Reader (ε β α : Type u) : Type u := List β → Nat → Except ε (α × Nat)

namespace Reader

instance : Monad (Reader ε β) where
  pure a := fun _ c => .ok (a, c)
  bind rd f := fun buf c =>
    match rd buf c with
    | .ok (a, c₁) => f a buf c₁
    | .error e => .error e

def fail (e : ε) : Reader ε β α := fun _ _ => .error e

/-- The next `n` elements, or the given error when fewer are left. -/
def take (eof : ε) (n : Nat) : Reader ε β (List β) := fun buf c =>
  if c + n ≤ buf.length then .ok ((buf.drop c).take n, c + n) else .error eof

def mapError (f : ε → ε') (rd : Reader ε β α) : Reader ε' β α := fun buf c =>
  match rd buf c with
  | .ok r => .ok r
  | .error e => .error (f e)

/-- Read only when the gate is open. -/
def gated (gate : Prop) [Decidable gate] (rd : Reader ε β α) : Reader ε β (Option α) :=
  if gate then rd >>= fun a => pure (some a) else pure none

def times (rd : Reader ε β α) : Nat → Reader ε β (List α)
  | 0 => pure []
  | n + 1 => rd >>= fun a => times rd n >>= fun as => pure (a :: as)

/-- Run a reader on a whole buffer and insist that nothing is left over. -/
def toEnd (leftover : ε) (rd : Reader ε β α) (buf : List β) : Except ε α :=
  match rd buf 0 with
  | .ok (a, c) => if c = buf.length then .ok a else .error leftover
  | .error e => .error e

/-- Parse a block already taken out of the buffer, to its end. -/
def within (leftover : ε) (rd : Reader ε β α) (block : List β) : Reader ε β α := fun _ c =>
  match toEnd leftover rd block with
  | .ok a => .ok (a, c)
  | .error e => .error e

/-- Back-to-back items from the cursor to the end of the buffer. -/
def items (leftover : ε) (rd : Reader ε β α) (buf : List β) : Nat → Nat → Except ε (List α)
  | 0, c => if c = buf.length then .ok [] else .error leftover
  | fuel + 1, c =>
    if c = buf.length then .ok [] else
    match rd buf c with
    | .error e => .error e
    | .ok (a, c₁) =>
      match items leftover rd buf fuel c₁ with
      | .error e => .error e
      | .ok as => .ok (a :: as)

/-- As many items as the buffer holds; its length is fuel enough for nonempty items. -/
def sequence (leftover : ε) (rd : Reader ε β α) (buf : List β) : Except ε (List α) :=
  items leftover rd buf buf.length 0

theorem bind_ok {rd : Reader ε β α} {f : α → Reader ε β γ} {buf : List β} {c c' : Nat} {b : γ}
    (h : (rd >>= f) buf c = .ok (b, c')) :
    ∃ a c₁, rd buf c = .ok (a, c₁) ∧ f a buf c₁ = .ok (b, c') := by
  change (match rd buf c with | .ok (a, c₁) => f a buf c₁ | .error e => .error e) = _ at h
  cases hr : rd buf c with
  | error e => rw [hr] at h; cases h
  | ok r => rw [hr] at h; exact ⟨r.1, r.2, rfl, h⟩

theorem bind_error {rd : Reader ε β α} {f : α → Reader ε β γ} {buf : List β} {c : Nat} {e : ε}
    (h : rd buf c = .error e) : (rd >>= f) buf c = .error e := by
  change (match rd buf c with | .ok (a, c₁) => f a buf c₁ | .error e => .error e) = _
  rw [h]

theorem pure_ok {a b : α} {buf : List β} {c c' : Nat}
    (h : (pure a : Reader ε β α) buf c = .ok (b, c')) : a = b ∧ c = c' :=
  Prod.mk.inj (Except.ok.inj h)

theorem take_ok {eof : ε} {n : Nat} {buf xs : List β} {c c' : Nat}
    (h : take eof n buf c = .ok (xs, c')) :
    xs = (buf.drop c).take n ∧ xs.length = n ∧ c' = c + n := by
  rw [take] at h
  split at h
  · obtain ⟨rfl, rfl⟩ := Prod.mk.inj (Except.ok.inj h)
    refine ⟨rfl, ?_, rfl⟩
    rw [List.length_take, List.length_drop]
    omega
  · cases h

theorem toEnd_ok {leftover : ε} {rd : Reader ε β α} {buf : List β} {a : α}
    (h : toEnd leftover rd buf = .ok a) : rd buf 0 = .ok (a, buf.length) := by
  rw [toEnd] at h
  split at h
  · rename_i b c hr
    split at h
    · rename_i hc
      rw [hr, Except.ok.inj h, hc]
    · cases h
  · cases h

/-- The first item of a nonempty sequence stands at the start of the buffer. -/
theorem sequence_head {leftover : ε} {rd : Reader ε β α} {buf : List β} {a : α} {as : List α}
    (h : sequence leftover rd buf = .ok (a :: as)) : ∃ c, rd buf 0 = .ok (a, c) := by
  rw [sequence] at h
  cases hn : buf.length with
  | zero =>
    rw [hn, items, if_pos hn.symm] at h
    cases h
  | succ n =>
    rw [hn, items, if_neg (by omega)] at h
    split at h
    · cases h
    · rename_i b c hr
      split at h
      · cases h
      · obtain ⟨rfl, _⟩ := List.cons.inj (Except.ok.inj h)
        exact ⟨c, hr⟩

end Reader

open Reader

/-- `rd` decodes the block to `a` at any place of any buffer. -/
def Decodes (rd : Reader ε β α) (block : List β) (a : α) : Prop :=
  ∀ before after : List β,
    rd (before ++ block ++ after) before.length = .ok (a, before.length + block.length)

namespace Decodes

theorem pure (a : α) : Decodes (Pure.pure a : Reader ε β α) [] a :=
  fun _ _ => rfl

/-- After a decoded block, the rest of the reader runs from behind it. -/
theorem run_bind {rd : Reader ε β α} {f : α → Reader ε β γ} {xs : List β} {a : α}
    (first : Decodes rd xs a) (before after : List β) :
    (rd >>= f) (before ++ xs ++ after) before.length =
      f a (before ++ xs ++ after) (before.length + xs.length) := by
  change (match rd (before ++ xs ++ after) before.length with
    | .ok (a, c₁) => f a (before ++ xs ++ after) c₁
    | .error e => .error e) = _
  rw [first before after]

theorem bind {rd : Reader ε β α} {f : α → Reader ε β γ} {xs ys : List β} {a : α} {b : γ}
    (first : Decodes rd xs a) (second : Decodes (f a) ys b) :
    Decodes (rd >>= f) (xs ++ ys) b := by
  intro before after
  have h₁ := first.run_bind (f := f) before (ys ++ after)
  have h₂ := second (before ++ xs) after
  simp only [List.append_assoc, List.length_append, Nat.add_assoc] at h₁ h₂ ⊢
  rw [h₁, h₂]

/-- The last step of a block only repackages what was read. -/
theorem map {rd : Reader ε β α} {xs : List β} {a : α} (f : α → γ) (first : Decodes rd xs a) :
    Decodes (rd >>= fun a => Pure.pure (f a)) xs (f a) := by
  have h := first.bind (f := fun a => Pure.pure (f a)) (Decodes.pure (f a))
  simpa only [List.append_nil] using h

theorem take (eof : ε) (xs : List β) : Decodes (Reader.take eof xs.length) xs xs := by
  intro before after
  simp [Reader.take]

theorem mapError {rd : Reader ε β α} {xs : List β} {a : α} (f : ε → ε')
    (h : Decodes rd xs a) : Decodes (rd.mapError f) xs a := by
  intro before after
  simp only [Reader.mapError, h before after]

theorem gated_open {gate : Prop} [Decidable gate] {rd : Reader ε β α} {xs : List β} {a : α}
    (isOpen : gate) (h : Decodes rd xs a) : Decodes (Reader.gated gate rd) xs (some a) := by
  rw [Reader.gated, if_pos isOpen]
  exact h.map some

theorem gated_shut {gate : Prop} [Decidable gate] (rd : Reader ε β α) (shut : ¬ gate) :
    Decodes (Reader.gated gate rd) [] none := by
  rw [Reader.gated, if_neg shut]
  exact Decodes.pure none

theorem times {ι : Type u} {rd : Reader ε β α} (xs : List ι) (block : ι → List β)
    (value : ι → α) (each : ∀ x ∈ xs, Decodes rd (block x) (value x)) :
    Decodes (Reader.times rd xs.length) (xs.flatMap block) (xs.map value) := by
  induction xs with
  | nil => exact Decodes.pure []
  | cons x xs ih =>
    have head := each x List.mem_cons_self
    have tail := ih (fun y hy => each y (List.mem_cons_of_mem x hy))
    rw [List.flatMap_cons, List.map_cons]
    exact head.bind (tail.map (fun as => value x :: as))

/-- Two blocks decoded by one reader at the start of one buffer are the same block. -/
theorem unique {rd : Reader ε β α} {xs ys s t : List β} {a b : α}
    (hx : Decodes rd xs a) (hy : Decodes rd ys b) (same : xs ++ s = ys ++ t) :
    a = b ∧ xs = ys ∧ s = t := by
  have h₁ := hx [] s
  have h₂ := hy [] t
  simp only [List.nil_append, List.length_nil, Nat.zero_add] at h₁ h₂
  rw [same] at h₁
  obtain ⟨hab, hlen⟩ := Prod.mk.inj (Except.ok.inj (h₁.symm.trans h₂))
  obtain ⟨hxy, hst⟩ := List.append_inj same hlen
  exact ⟨hab, hxy, hst⟩

/-- A block in front of another one is that block. -/
theorem eq_of_append {rd : Reader ε β α} {xs ys : List β} {a b : α} (hx : Decodes rd xs a)
    (hy : Decodes rd ys b) (front : xs <+: ys) : a = b := by
  obtain ⟨rest, split⟩ := front
  have whole : xs ++ rest = ys ++ [] := by
    rw [split, List.append_nil]
  exact (hx.unique hy whole).1

theorem toEnd {rd : Reader ε β α} {xs : List β} {a : α} (leftover : ε)
    (h : Decodes rd xs a) : Reader.toEnd leftover rd xs = .ok a := by
  have h₁ := h [] []
  simp only [List.nil_append, List.append_nil, List.length_nil, Nat.zero_add] at h₁
  simp only [Reader.toEnd, h₁, if_pos]

theorem within {rd : Reader ε β α} {block : List β} {a : α} (leftover : ε)
    (h : Decodes rd block a) : Decodes (Reader.within leftover rd block) [] a := by
  intro before after
  rw [Reader.within, h.toEnd leftover]
  rfl

theorem items {ι : Type u} {rd : Reader ε β α} (leftover : ε) (xs : List ι)
    (block : ι → List β) (value : ι → α) (each : ∀ x ∈ xs, Decodes rd (block x) (value x))
    (proper : ∀ x ∈ xs, block x ≠ []) (before : List β) (fuel : Nat)
    (enough : (xs.flatMap block).length ≤ fuel) :
    Reader.items leftover rd (before ++ xs.flatMap block) fuel before.length =
      .ok (xs.map value) := by
  induction xs generalizing before fuel with
  | nil => cases fuel <;> simp [Reader.items]
  | cons x xs ih =>
    have hpos := List.length_pos_iff.mpr (proper x List.mem_cons_self)
    rw [List.flatMap_cons, List.length_append] at enough
    obtain ⟨k, rfl⟩ : ∃ k, fuel = k + 1 := ⟨fuel - 1, by omega⟩
    have head := each x List.mem_cons_self before (xs.flatMap block)
    have tail := ih (fun y hy => each y (List.mem_cons_of_mem x hy))
      (fun y hy => proper y (List.mem_cons_of_mem x hy)) (before ++ block x) k (by omega)
    have more : before.length ≠ (before ++ (block x ++ xs.flatMap block)).length := by
      simp only [List.length_append]
      omega
    rw [List.append_assoc] at head
    rw [List.append_assoc, List.length_append] at tail
    rw [List.flatMap_cons, Reader.items, if_neg more, head]
    simp only [tail, List.map_cons]

/-- A concatenation of nonempty blocks is decoded block by block. -/
theorem sequence {ι : Type u} {rd : Reader ε β α} (leftover : ε) (xs : List ι)
    (block : ι → List β) (value : ι → α) (each : ∀ x ∈ xs, Decodes rd (block x) (value x))
    (proper : ∀ x ∈ xs, block x ≠ []) :
    Reader.sequence leftover rd (xs.flatMap block) = .ok (xs.map value) :=
  Decodes.items leftover xs block value each proper [] _ (Nat.le_refl _)

end Decodes

/-! ## Readers never move backwards -/

def Advances (rd : Reader ε β α) : Prop :=
  ∀ buf c a c', rd buf c = .ok (a, c') → c ≤ c'

namespace Advances

theorem pure (a : α) : Advances (Pure.pure a : Reader ε β α) := by
  intro buf c b c' h
  exact Nat.le_of_eq (pure_ok h).2

theorem fail (e : ε) : Advances (Reader.fail e : Reader ε β α) := by
  intro buf c a c' h
  cases h

theorem take (eof : ε) (n : Nat) : Advances (Reader.take eof n : Reader ε β (List β)) := by
  intro buf c xs c' h
  have := (take_ok h).2.2
  omega

theorem bind {rd : Reader ε β α} {f : α → Reader ε β γ} (first : Advances rd)
    (second : ∀ a, Advances (f a)) : Advances (rd >>= f) := by
  intro buf c b c' h
  obtain ⟨a, c₁, h₁, h₂⟩ := bind_ok h
  exact Nat.le_trans (first buf c a c₁ h₁) (second a buf c₁ b c' h₂)

theorem mapError {rd : Reader ε β α} (f : ε → ε') (h : Advances rd) :
    Advances (rd.mapError f) := by
  intro buf c a c' hr
  rw [Reader.mapError] at hr
  split at hr
  · rename_i r hok
    cases hr
    exact h buf c a c' hok
  · cases hr

end Advances

end CmmEncrypt.Cursor
