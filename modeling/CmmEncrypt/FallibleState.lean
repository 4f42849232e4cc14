import Mathlib.Tactic.Common

/-!
# Rules for code that threads a state and may fail

A computation takes a state to a value and a new state, or to an error. Its runs
are taken apart and put together step by step: a sequence succeeds when both steps
do, and the first error of a sequence is the error of the sequence.
-/

namespace CmmEncrypt.FallibleState

universe u
variable {σ ε α β : Type u} {x : StateT σ (Except ε) α} {f : α → StateT σ (Except ε) β}

theorem bind_of_ok {s s' : σ} {a : α} (h : x s = .ok (a, s')) : (x >>= f) s = f a s' := by
  change Except.bind (x s) (fun out => f out.1 out.2) = _
  rw [h]
  rfl

theorem bind_of_error {s : σ} {e : ε} (h : x s = .error e) : (x >>= f) s = .error e := by
  change Except.bind (x s) (fun out => f out.1 out.2) = _
  rw [h]
  rfl

/-- Only the run of the first step from the state at hand matters. -/
theorem bind_congr_at {y : StateT σ (Except ε) α} {s : σ} (same : x s = y s) :
    (x >>= f) s = (y >>= f) s := by
  change Except.bind (x s) _ = Except.bind (y s) _
  rw [same]

theorem bind_ok_iff {s s'' : σ} {b : β} :
    (x >>= f) s = .ok (b, s'') ↔ ∃ a s', x s = .ok (a, s') ∧ f a s' = .ok (b, s'') := by
  cases h : x s with
  | error e =>
    rw [bind_of_error h]
    constructor
    · intro bad
      cases bad
    · rintro ⟨a, s', ok, _⟩
      cases ok
  | ok out =>
    obtain ⟨a, s'⟩ := out
    rw [bind_of_ok h]
    constructor
    · intro rest
      exact ⟨a, s', rfl, rest⟩
    · rintro ⟨_, _, ok, rest⟩
      cases ok
      exact rest

theorem bind_error_iff {s : σ} {e : ε} :
    (x >>= f) s = .error e ↔
      x s = .error e ∨ ∃ a s', x s = .ok (a, s') ∧ f a s' = .error e := by
  cases h : x s with
  | error e' =>
    rw [bind_of_error h]
    constructor
    · intro same
      cases same
      exact .inl rfl
    · rintro (same | ⟨_, _, ok, _⟩)
      · cases same
        rfl
      · cases ok
  | ok out =>
    obtain ⟨a, s'⟩ := out
    rw [bind_of_ok h]
    constructor
    · intro rest
      exact .inr ⟨a, s', rfl, rest⟩
    · rintro (bad | ⟨_, _, ok, rest⟩)
      · cases bad
      · cases ok
        exact rest

theorem pure_ok_iff {s s' : σ} {a b : α} :
    (pure a : StateT σ (Except ε) α) s = .ok (b, s') ↔ b = a ∧ s' = s := by
  constructor
  · intro h
    cases h
    exact ⟨rfl, rfl⟩
  · rintro ⟨rfl, rfl⟩
    rfl

/-! ## Invariants -/

/-- Every run that goes through keeps the invariant. -/
def Keeps (I : σ → Prop) (x : StateT σ (Except ε) α) : Prop :=
  ∀ s a s', I s → x s = .ok (a, s') → I s'

section Keeps

variable {I : σ → Prop}

theorem Keeps.pure (a : α) : Keeps I (Pure.pure a : StateT σ (Except ε) α) := by
  intro s b s' start run
  obtain ⟨_, rfl⟩ := pure_ok_iff.mp run
  exact start

theorem Keeps.throw (e : ε) : Keeps I (throw e : StateT σ (Except ε) α) := by
  intro s b s' _ run
  cases run

theorem Keeps.bind (first : Keeps I x) (rest : ∀ a, Keeps I (f a)) : Keeps I (x >>= f) := by
  intro s b s'' start run
  obtain ⟨a, s', ran, ran'⟩ := bind_ok_iff.mp run
  exact rest a s' b s'' (first s a s' start ran) ran'

/-- What depends on the state is looked at state by state. -/
theorem Keeps.get_bind {f : σ → StateT σ (Except ε) β} (rest : ∀ s, Keeps I (f s)) :
    Keeps I ((get : StateT σ (Except ε) σ) >>= f) := fun s b s' start run =>
  rest s s b s' start run

end Keeps

/-! ## Errors -/

/-- Every run that fails does so with one of these errors. -/
def FailsOnly (Q : ε → Prop) (x : StateT σ (Except ε) α) : Prop := ∀ s e, x s = .error e → Q e

section FailsOnly

variable {Q : ε → Prop}

theorem FailsOnly.pure (a : α) : FailsOnly Q (Pure.pure a : StateT σ (Except ε) α) := by
  intro s e run
  cases run

theorem FailsOnly.bind (first : FailsOnly Q x) (rest : ∀ a, FailsOnly Q (f a)) :
    FailsOnly Q (x >>= f) := by
  intro s e run
  rcases bind_error_iff.mp run with failed | ⟨a, s', _, failed⟩
  · exact first s e failed
  · exact rest a s' e failed

end FailsOnly

/-! ## Without a state -/

theorem except_bind_ok_iff {x : Except ε α} {f : α → Except ε β} {b : β} :
    (x >>= f) = .ok b ↔ ∃ a, x = .ok a ∧ f a = .ok b := by
  cases x with
  | error e =>
    constructor
    · intro bad
      cases bad
    · rintro ⟨a, bad, _⟩
      cases bad
  | ok a =>
    constructor
    · intro rest
      exact ⟨a, rfl, rest⟩
    · rintro ⟨_, ok, rest⟩
      cases ok
      exact rest

/-- A list goes through exactly when every element does. -/
theorem mapM_ok_iff {f : α → Except ε β} {xs : List α} {ys : List β} :
    xs.mapM f = .ok ys ↔ List.Forall₂ (fun x y => f x = .ok y) xs ys := by
  constructor
  · intro run
    induction xs generalizing ys with
    | nil =>
      cases run
      exact .nil
    | cons x xs ih =>
      rw [List.mapM_cons] at run
      obtain ⟨y, first, rest⟩ := except_bind_ok_iff.mp run
      obtain ⟨more, later, same⟩ := except_bind_ok_iff.mp rest
      cases same
      exact .cons first (ih later)
  · intro each
    induction each with
    | nil => rfl
    | cons first _ ih =>
      rw [List.mapM_cons, first, ih]
      rfl

/-- What goes through with one function goes through with another that agrees on the outcome. -/
theorem mapM_ok_mono {f g : α → Except ε β} {xs : List α} {ys : List β}
    (run : xs.mapM f = .ok ys) (agree : ∀ x, ∀ y ∈ ys, f x = .ok y → g x = .ok y) :
    xs.mapM g = .ok ys := by
  have each := mapM_ok_iff.mp run
  refine mapM_ok_iff.mpr ?_
  clear run
  induction each with
  | nil => exact .nil
  | cons first _ ih =>
    have head := agree _ _ List.mem_cons_self first
    exact .cons head (ih (fun x y member => agree x y (List.mem_cons_of_mem _ member)))

end CmmEncrypt.FallibleState
