import CmmEncrypt.Cursor

/-!
# Readers that accept several encodings of one value

`Spells rd spelling` says which words a reader takes for which value: it consumes a
spelling of what it returns, and every spelling is read wherever it stands. Spellings
compose along `bind` and over lists, and a whole buffer is read as a value exactly when
it spells it. `Shortest` singles out one spelling that is strictly shorter than all others.
-/

namespace CmmEncrypt.Spelling

open Cursor Reader

universe u
variable {ε β α γ : Type u}

/-- The words that a reader takes for a value. -/
structure Spells (rd : Reader ε β α) (spelling : α → List β → Prop) : Prop where
  consumed : ∀ {buf c a c'}, rd buf c = .ok (a, c') →
    ∃ w, spelling a w ∧ buf.drop c = w ++ buf.drop c'
  decoded : ∀ {a w}, spelling a w → Decodes rd w a

/-- Back-to-back spellings of the values of a list. -/
inductive Pieces (spelling : α → List β → Prop) : List α → List β → Prop
  | nil : Pieces spelling [] []
  | cons {a : α} {as : List α} {w ws : List β} (head : spelling a w)
      (tail : Pieces spelling as ws) : Pieces spelling (a :: as) (w ++ ws)

namespace Spells

variable {rd : Reader ε β α} {spelling : α → List β → Prop}

theorem pure (a : α) :
    Spells (Pure.pure a : Reader ε β α) (fun b w => b = a ∧ w = []) where
  consumed := by
    intro buf c b c' h
    obtain ⟨rfl, rfl⟩ := pure_ok h
    exact ⟨[], ⟨rfl, rfl⟩, rfl⟩
  decoded := by
    rintro b w ⟨rfl, rfl⟩
    exact Decodes.pure b

theorem bind {f : α → Reader ε β γ} {rest : α → γ → List β → Prop} (first : Spells rd spelling)
    (second : ∀ a, Spells (f a) (rest a)) :
    Spells (rd >>= f) (fun b w => ∃ a w₁ w₂, spelling a w₁ ∧ rest a b w₂ ∧ w = w₁ ++ w₂) where
  consumed := by
    intro buf c b c' h
    obtain ⟨a, c₁, read, h⟩ := bind_ok h
    obtain ⟨w₁, spelled, front⟩ := first.consumed read
    obtain ⟨w₂, spelled', back⟩ := (second a).consumed h
    refine ⟨w₁ ++ w₂, ⟨a, w₁, w₂, spelled, spelled', rfl⟩, ?_⟩
    rw [front, back, List.append_assoc]
  decoded := by
    rintro b w ⟨a, w₁, w₂, spelled, spelled', rfl⟩
    exact (first.decoded spelled).bind ((second a).decoded spelled')

theorem congr {spelling' : α → List β → Prop} (spells : Spells rd spelling)
    (same : ∀ a w, spelling a w ↔ spelling' a w) : Spells rd spelling' where
  consumed := by
    intro buf c a c' h
    obtain ⟨w, spelled, front⟩ := spells.consumed h
    exact ⟨w, (same a w).mp spelled, front⟩
  decoded spelled := spells.decoded ((same _ _).mpr spelled)

theorem times (spells : Spells rd spelling) (n : Nat) :
    Spells (Reader.times rd n) (fun as w => as.length = n ∧ Pieces spelling as w) := by
  induction n with
  | zero =>
    refine (Spells.pure []).congr ?_
    intro as w
    constructor
    · rintro ⟨rfl, rfl⟩
      exact ⟨rfl, .nil⟩
    · rintro ⟨empty, pieces⟩
      cases pieces with
      | nil => exact ⟨rfl, rfl⟩
      | cons _ _ => cases empty
  | succ n ih =>
    refine (spells.bind fun a => ih.bind fun as => Spells.pure (a :: as)).congr ?_
    intro as w
    constructor
    · rintro ⟨a, w₁, _, spelled, ⟨as', w₂, _, ⟨rfl, pieces⟩, ⟨rfl, rfl⟩, rfl⟩, rfl⟩
      rw [List.append_nil]
      exact ⟨rfl, .cons spelled pieces⟩
    · rintro ⟨size, pieces⟩
      cases pieces with
      | nil => cases size
      | cons head tail =>
        refine ⟨_, _, _, head, ⟨_, _, [], ⟨Nat.succ.inj size, tail⟩, ⟨rfl, rfl⟩, rfl⟩, ?_⟩
        rw [List.append_nil]

/-- A whole buffer is read as the values it spells. -/
theorem toEnd_iff (spells : Spells rd spelling) (leftover : ε) {buf : List β} {a : α} :
    Reader.toEnd leftover rd buf = .ok a ↔ spelling a buf := by
  constructor
  · intro h
    obtain ⟨w, spelled, whole⟩ := spells.consumed (toEnd_ok h)
    rw [List.drop_zero, List.drop_length, List.append_nil] at whole
    rwa [whole]
  · intro spelled
    exact (spells.decoded spelled).toEnd leftover

theorem items {leftover : ε} (spells : Spells rd spelling) {buf : List β} {fuel c : Nat}
    {as : List α} (h : Reader.items leftover rd buf fuel c = .ok as) :
    Pieces spelling as (buf.drop c) := by
  induction fuel generalizing c as with
  | zero =>
    rw [Reader.items] at h
    split at h
    · rename_i done
      cases h
      rw [done, List.drop_length]
      exact .nil
    · cases h
  | succ fuel ih =>
    rw [Reader.items] at h
    split at h
    · rename_i done
      cases h
      rw [done, List.drop_length]
      exact .nil
    · split at h
      · cases h
      · rename_i a c₁ read
        split at h
        · cases h
        · rename_i rest more
          cases h
          obtain ⟨w, spelled, front⟩ := spells.consumed read
          rw [front]
          exact .cons spelled (ih more)

end Spells

namespace Pieces

variable {rd : Reader ε β α} {spelling : α → List β → Prop} {as : List α} {w : List β}

/-- The spellings one by one. -/
theorem words (pieces : Pieces spelling as w) :
    ∃ spelled : List (α × List β), as = spelled.map Prod.fst ∧ w = spelled.flatMap Prod.snd ∧
      ∀ p ∈ spelled, spelling p.1 p.2 := by
  induction pieces with
  | nil => exact ⟨[], rfl, rfl, by simp⟩
  | cons head tail ih =>
    obtain ⟨spelled, rfl, rfl, each⟩ := ih
    exact ⟨(_, _) :: spelled, rfl, rfl, List.forall_mem_cons.mpr ⟨head, each⟩⟩

/-- Where no spelling is empty, a buffer is read item by item exactly as the list it spells. -/
theorem sequence_iff (spells : Spells rd spelling) (leftover : ε)
    (proper : ∀ a, ¬ spelling a []) :
    Reader.sequence leftover rd w = .ok as ↔ Pieces spelling as w := by
  constructor
  · intro h
    have pieces := spells.items h
    rwa [List.drop_zero] at pieces
  · intro pieces
    obtain ⟨spelled, rfl, rfl, each⟩ := pieces.words
    refine Decodes.sequence leftover spelled Prod.snd Prod.fst ?_ ?_
    · exact fun p member => spells.decoded (each p member)
    · intro p member empty
      have spelled := each p member
      rw [empty] at spelled
      exact proper p.1 spelled

end Pieces

/-! ## The shortest spelling -/

/-- Any other spelling is strictly longer. -/
def Shortest (spelling : α → List β → Prop) (enc : α → List β) : Prop :=
  ∀ a w, spelling a w → w = enc a ∨ (enc a).length < w.length

/-- The shortest spelling of a list is made of the shortest ones of its values. -/
theorem Shortest.pieces {spelling : α → List β → Prop} {enc : α → List β}
    (shortest : Shortest spelling enc) :
    Shortest (Pieces spelling) (fun as => as.flatMap enc) := by
  intro as w pieces
  induction pieces with
  | nil => exact .inl rfl
  | cons head tail ih =>
    dsimp only at ih ⊢
    rw [List.flatMap_cons, List.length_append, List.length_append]
    rcases shortest _ _ head with rfl | longer
    · rcases ih with rfl | more
      · exact .inl rfl
      · exact .inr (Nat.add_lt_add_left more _)
    · rcases ih with rfl | more
      · exact .inr (Nat.add_lt_add_right longer _)
      · exact .inr (Nat.add_lt_add longer more)

end CmmEncrypt.Spelling
