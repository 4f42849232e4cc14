import Mathlib.Tactic.Common

/-!
# Objects with prototypes

An object has own properties and at most one prototype, and no chain of prototypes
is endless. A property is looked up along the chain; the nearest holder answers.
-/

namespace CmmEncrypt.PrototypeChain

/-- The chains are finite: walking to the prototype is well-founded. -/
structure Objects (Ref Key Property : Type) where
  own : Ref → Key → Option Property
  proto : Ref → Option Ref
  wellFounded : WellFounded (fun q r => proto r = some q)

namespace Objects

variable {Ref Key Property : Type} (objects : Objects Ref Key Property)

/-- The nearest holder of a property on the chain of `r`, and what it holds. -/
def lookup (key : Key) (r : Ref) : Option (Ref × Property) :=
  match objects.own r key with
  | some property => some (r, property)
  | none =>
    match _next : objects.proto r with
    | none => none
    | some q => lookup key q
termination_by objects.wellFounded.wrap r

/-- `target` is on the chain of `r`, behind `r` itself. -/
def inherits [DecidableEq Ref] (target r : Ref) : Bool :=
  match _next : objects.proto r with
  | none => false
  | some q => if q = target then true else inherits target q
termination_by objects.wellFounded.wrap r

variable {objects} {key : Key} {r q : Ref} {property : Property}

theorem lookup_own (own : objects.own r key = some property) :
    objects.lookup key r = some (r, property) := by
  rw [lookup, own]

theorem lookup_proto (own : objects.own r key = none) (next : objects.proto r = some q) :
    objects.lookup key r = objects.lookup key q := by
  rw [lookup, own]
  dsimp only
  split
  · rename_i none_next
    rw [next] at none_next
    cases none_next
  · rename_i q' some_next
    rw [next] at some_next
    cases some_next
    rfl

theorem lookup_root (own : objects.own r key = none) (root : objects.proto r = none) :
    objects.lookup key r = none := by
  rw [lookup, own]
  dsimp only
  split
  · rfl
  · rename_i q' some_next
    rw [root] at some_next
    cases some_next

/-- A holder holds the property itself. -/
theorem lookup_holds (found : objects.lookup key r = some (q, property)) :
    objects.own q key = some property := by
  induction r using objects.wellFounded.induction with
  | _ r ih =>
    cases own : objects.own r key with
    | some _ =>
      rw [lookup_own own] at found
      cases found
      exact own
    | none =>
      cases next : objects.proto r with
      | none =>
        rw [lookup_root own next] at found
        cases found
      | some r' =>
        rw [lookup_proto own next] at found
        exact ih r' next found

theorem inherits_root [DecidableEq Ref] (target : Ref) (root : objects.proto r = none) :
    objects.inherits target r = false := by
  rw [inherits]
  split
  · rfl
  · rename_i q' some_next
    rw [root] at some_next
    cases some_next

theorem inherits_proto [DecidableEq Ref] {target : Ref} (next : objects.proto r = some q) :
    objects.inherits target r = if q = target then true else objects.inherits target q := by
  rw [inherits]
  split
  · rename_i none_next
    rw [next] at none_next
    cases none_next
  · rename_i q' some_next
    rw [next] at some_next
    cases some_next
    rfl

/-- What is behind something on a chain is on the chain. -/
theorem inherits_trans [DecidableEq Ref] {target beyond : Ref}
    (inherits : objects.inherits target r = true) (behind : objects.proto target = some beyond) :
    objects.inherits beyond r = true := by
  induction r using objects.wellFounded.induction with
  | _ r ih =>
    cases next : objects.proto r with
    | none =>
      rw [inherits_root target next] at inherits
      cases inherits
    | some q =>
      rw [inherits_proto next] at inherits ⊢
      split at inherits
      · rename_i found
        subst found
        rw [inherits_proto behind, if_pos rfl, ite_self]
      · split
        · rfl
        · exact ih q next inherits

/-- A chain of one prototype answers from it or not at all. -/
theorem lookup_short (own : objects.own r key = none) (next : objects.proto r = some q)
    (root : objects.proto q = none) :
    objects.lookup key r = (objects.own q key).map (fun property => (q, property)) := by
  rw [lookup_proto own next]
  cases held : objects.own q key with
  | none => rw [lookup_root held root, Option.map_none]
  | some _ => rw [lookup_own held, Option.map_some]

end Objects

end CmmEncrypt.PrototypeChain
