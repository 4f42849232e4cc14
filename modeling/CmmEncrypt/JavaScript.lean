import CmmEncrypt.FallibleState
import CmmEncrypt.PrototypeChain
import CmmEncrypt.Wire

/-!
# The JavaScript that plaintext passes through

Objects live on a heap; reading a property may run a getter, which may change the
heap or throw. What functions do, how primitives are turned into text, and how
`JSON.stringify` writes a value once its `toJSON` has been dealt with, is up to the
engine; the property lookups are not.
-/

namespace CmmEncrypt.JavaScript

open Wire PrototypeChain FallibleState

abbrev Ref := Nat

/-- A string is a sequence of characters: it has no surrogate without its partner. -/
inductive Value where
  | undefined
  | null
  | boolean (b : Bool)
  | number (bits : UInt64)
  | bigint (n : Int)
  | string (s : String)
  | symbol (id : Nat)
  | object (r : Ref)
  deriving DecidableEq, Repr

inductive Property where
  | data (value : Value)
  | accessor (getter : Option Ref)
  deriving DecidableEq, Repr

/-- The intrinsic objects of the code's own realm, and the `Object.prototype` of every realm. -/
structure Realm where
  objectPrototype : Ref
  arrayPrototype : Ref
  bufferPrototype : Ref
  uint8ArrayPrototype : Ref
  arrayBufferPrototype : Ref
  isObjectPrototype : Ref → Bool
  objectPrototype_is : isObjectPrototype objectPrototype = true

/-- The objects, their internal slots, and the attributes of their properties that assignments
ask for. The prototype of an `Object.prototype` is null and cannot be changed. -/
structure Heap (R : Realm) extends Objects Ref String Property where
  writable : Ref → String → Bool
  setter : Ref → String → Option Ref
  callable : Ref → Bool
  array : Ref → Bool
  view : Ref → Bool
  rooted : ∀ q, R.isObjectPrototype q = true → proto q = none

inductive Thrown where
  | error (message : String)
  | typeError (message : String)
  | value (v : Value)
  deriving DecidableEq, Repr

/-- Code that may change the heap and may throw. -/
abbrev Js (R : Realm) := StateT (Heap R) (Except Thrown)

/-- What the engine and the functions on the heap do. -/
structure Engine (R : Realm) where
  /-- A function applied to `this` and its arguments. -/
  call : Ref → Value → List Value → Js R Value
  /-- A property of a value that is no object. -/
  primitiveMember : Value → String → Js R Value
  /-- A value in a template literal. -/
  toText : Value → Js R String
  /-- `new Uint8Array(v)`. -/
  newUint8Array : Value → Js R Bytes
  /-- `SerializeJSONProperty` behind its `toJSON` step; there may be no text. -/
  serialize : Value → Js R (Option String)

variable {R : Realm}

/-- `IsCallable`. -/
def Heap.isCallable (h : Heap R) : Value → Bool
  | .object r => h.callable r
  | _ => false

/-- The `typeof` operator. -/
def Heap.typeOf (h : Heap R) : Value → String
  | .undefined => "undefined"
  | .null => "object"
  | .boolean _ => "boolean"
  | .number _ => "number"
  | .bigint _ => "bigint"
  | .string _ => "string"
  | .symbol _ => "symbol"
  | .object r => if h.callable r then "function" else "object"

/-- `v instanceof C`, where `target` is `C.prototype`. -/
def Heap.isInstance (h : Heap R) (target : Ref) : Value → Bool
  | .object r => h.inherits target r
  | _ => false

/-- What assigning to a name does that an object does not have itself. -/
inductive Assignment where
  | create
  | refuse
  | call (setter : Ref)
  deriving DecidableEq, Repr

/-- `OrdinarySet` of an object with this prototype: a data property is shadowed unless it is
read-only, and an accessor is asked. -/
def Heap.assignment (h : Heap R) (proto : Ref) (key : String) : Assignment :=
  match h.lookup key proto with
  | none => .create
  | some (holder, .data _) => if h.writable holder key then .create else .refuse
  | some (holder, .accessor _) =>
    match h.setter holder key with
    | none => .refuse
    | some setter => .call setter

def Value.isNullish (v : Value) : Bool := v = .undefined ∨ v = .null

variable (E : Engine R)

/-- The value of a property; a getter is called, and one that is missing is `undefined`. -/
def Engine.read (receiver : Value) : Property → Js R Value
  | .data value => pure value
  | .accessor none => pure .undefined
  | .accessor (some getter) => E.call getter receiver []

/-- `[[Get]]` of an ordinary object. -/
def Engine.getProperty (r : Ref) (key : String) : Js R Value := do
  let h ← get
  match h.lookup key r with
  | none => pure .undefined
  | some (_, property) => E.read (.object r) property

/-- The expression `v.key`. -/
def Engine.member (v : Value) (key : String) : Js R Value :=
  match v with
  | .undefined =>
    throw (.typeError ("Cannot read properties of undefined (reading '" ++ key ++ "')"))
  | .null => throw (.typeError ("Cannot read properties of null (reading '" ++ key ++ "')"))
  | .object r => E.getProperty r key
  | primitive => E.primitiveMember primitive key

/-- `JSON.stringify` of an object: the value it writes is what `toJSON` returns, if there is
such a function anywhere on the chain. -/
def Engine.jsonStringify (r : Ref) : Js R (Option String) := do
  let toJSON ← E.getProperty r "toJSON"
  let h ← get
  match toJSON with
  | .object f =>
    if h.callable f then
      let value ← E.call f (.object r) [.string ""]
      E.serialize value
    else E.serialize (.object r)
  | _ => E.serialize (.object r)

/-- `new TextEncoder().encode`; without a text it encodes the empty one. -/
def encode (text : Option String) : Bytes := text.elim [] asBytes

/-! ## Runs -/

variable {E} {h h' : Heap R} {r : Ref} {key : String} {v : Value}

/-- Reading the heap changes nothing. -/
theorem get_bind {α : Type} (f : Heap R → Js R α) (h : Heap R) :
    ((get : Js R (Heap R)) >>= f) h = f h h := rfl

theorem getProperty_none (missing : h.lookup key r = none) :
    E.getProperty r key h = .ok (.undefined, h) := by
  rw [Engine.getProperty, get_bind, missing]
  rfl

theorem getProperty_some {q : Ref} {property : Property}
    (found : h.lookup key r = some (q, property)) :
    E.getProperty r key h = E.read (.object r) property h := by
  rw [Engine.getProperty, get_bind, found]

/-- Only a getter can answer with anything but a property's own value. -/
theorem read_cases (E : Engine R) (receiver : Value) (property : Property) :
    (∃ value, ∀ h, E.read receiver property h = .ok (value, h)) ∨
      ∃ getter, property = .accessor (some getter) := by
  cases property with
  | data value => exact .inl ⟨value, fun _ => rfl⟩
  | accessor getter =>
    cases getter with
    | none => exact .inl ⟨.undefined, fun _ => rfl⟩
    | some getter => exact .inr ⟨getter, rfl⟩

/-- Without a `toJSON` function the object itself is written. -/
theorem jsonStringify_plain (found : E.getProperty r "toJSON" h = .ok (v, h'))
    (plain : h'.isCallable v = false) :
    E.jsonStringify r h = E.serialize (.object r) h' := by
  rw [Engine.jsonStringify, bind_of_ok found, get_bind]
  cases v with
  | object f =>
    have plain : h'.callable f = false := plain
    simp only [plain, Bool.false_eq_true, if_false]
  | _ => rfl

/-- The lookup of `toJSON` is the first thing `JSON.stringify` does. -/
theorem jsonStringify_looks_up {out : Option String} {h'' : Heap R}
    (written : E.jsonStringify r h = .ok (out, h'')) :
    ∃ v h', E.getProperty r "toJSON" h = .ok (v, h') := by
  obtain ⟨v, h', found, _⟩ := bind_ok_iff.mp written
  exact ⟨v, h', found⟩

end CmmEncrypt.JavaScript
