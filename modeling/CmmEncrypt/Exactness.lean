import CmmEncrypt.Cursor

/-!
# Readers that accept one encoding only

`Exact rd enc` says that whatever `rd` accepts is, element for element, the encoding of
the value it returns. With `Decodes`, which says that encodings are accepted, it makes
reading and writing each other's inverse.
-/

namespace CmmEncrypt.Exactness

open Cursor Reader

universe u
variable {ε ε' β α : Type u}

/-- The reader consumes the encoding of its value. -/
def Exact (rd : Reader ε β α) (enc : α → List β) : Prop :=
  ∀ buf c a c', rd buf c = .ok (a, c') → buf.drop c = enc a ++ buf.drop c'

namespace Exact

variable {rd : Reader ε β α} {enc : α → List β}

theorem take (eof : ε) (n : Nat) : Exact (Reader.take eof n : Reader ε β (List β)) id := by
  intro buf c xs c' h
  obtain ⟨rfl, _, rfl⟩ := take_ok h
  rw [id, ← List.drop_drop, List.take_append_drop]

theorem mapError (f : ε → ε') (exact : Exact rd enc) : Exact (rd.mapError f) enc := by
  intro buf c a c' h
  rw [Reader.mapError] at h
  split at h
  · rename_i out read
    cases h
    exact exact buf c a c' read
  · cases h

theorem gated {gate : Prop} [Decidable gate] (exact : Exact rd enc) :
    Exact (Reader.gated gate rd) (fun o => o.elim [] enc) := by
  intro buf c o c' h
  rw [Reader.gated] at h
  split at h
  · obtain ⟨a, c₁, read, h⟩ := bind_ok h
    obtain ⟨rfl, rfl⟩ := pure_ok h
    exact exact buf c a c₁ read
  · obtain ⟨rfl, rfl⟩ := pure_ok h
    rfl

theorem toEnd {leftover : ε} (exact : Exact rd enc) {buf : List β} {a : α}
    (h : Reader.toEnd leftover rd buf = .ok a) : buf = enc a := by
  have whole := exact buf 0 a buf.length (toEnd_ok h)
  rwa [List.drop_zero, List.drop_length, List.append_nil] at whole

/-- Where encodings are decoded, a whole buffer is read as a value exactly when it is the
value's encoding. -/
theorem toEnd_iff {leftover : ε} (exact : Exact rd enc) {a : α} (decodes : Decodes rd (enc a) a)
    {buf : List β} : Reader.toEnd leftover rd buf = .ok a ↔ buf = enc a := by
  constructor
  · exact exact.toEnd
  · rintro rfl
    exact decodes.toEnd leftover

end Exact

end CmmEncrypt.Exactness
