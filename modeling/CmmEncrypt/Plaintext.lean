import CmmEncrypt.JavaScript

/-!
# Plaintext (`index.ts`)

`normalizePlaintext` turns a caller's value into the bytes that are encrypted. An
object is written as JSON, and three guards are meant to make sure that the JSON is
the object's own. They look at own properties and at two prototypes, while
`JSON.stringify` follows the whole chain and asks a getter once more.
-/

namespace CmmEncrypt.Plaintext

open Wire PrototypeChain FallibleState JavaScript

variable {R : Realm}

/-- The bytes of a plaintext, and the branch they come from. -/
inductive Normalized where
  | copied (bytes : Bytes)
  | same (p : Value)
  | text (bytes : Bytes)
  | json (bytes : Bytes)
  deriving DecidableEq, Repr

/-- `${(p as object).constructor.name}`. -/
def constructorName (E : Engine R) (r : Ref) : Js R String := do
  let constructor ← E.getProperty r "constructor"
  let name ← E.member constructor "name"
  E.toText name

/-- `${(p as object).constructor?.name ?? 'unknown'}`. -/
def constructorNameOrUnknown (E : Engine R) (r : Ref) : Js R String := do
  let constructor ← E.getProperty r "constructor"
  let name ← if constructor.isNullish then pure .undefined else E.member constructor "name"
  if name.isNullish then pure "unknown" else E.toText name

/-- `isPlainObject`. -/
def isPlainObject (h : Heap R) (r : Ref) : Bool :=
  match h.proto r with
  | none => true
  | some proto => proto = R.objectPrototype ∨ h.proto proto = none

/-- The guard against an own `toJSON`. -/
def rejectToJSON (E : Engine R) (r : Ref) : Js R Unit := do
  let h ← get
  match h.own r "toJSON" with
  | none => pure ()
  | some _ => do
    let toJSON ← E.getProperty r "toJSON"
    let h ← get
    if h.typeOf toJSON = "function" then
      throw (.error ("plaintext object must not define a toJSON() method — " ++
        "it would silently transform the payload before encryption"))
    else pure ()

/-- The branches for objects that are no bytes. -/
def normalizeObject (E : Engine R) (r : Ref) : Js R Normalized := do
  let h ← get
  if h.view r ∨ h.inherits R.arrayBufferPrototype r then
    let name ← constructorName E r
    throw (.error ("plaintext binary input must be a Buffer or Uint8Array; got " ++ name))
  else if ¬ isPlainObject h r ∧ ¬ h.array r then
    let name ← constructorNameOrUnknown E r
    throw (.error ("plaintext object must be a plain object or array; got " ++ name))
  else do
    rejectToJSON E r
    let text ← E.jsonStringify r
    pure (.json (encode text))

def notAnObject (type : String) : Thrown :=
  .error ("plaintext must be a string, Buffer/Uint8Array, or object; got " ++ type)

/-- `typeof p` is `'object'` for objects that are no functions, and for null. -/
def normalizePlaintext (E : Engine R) (p : Value) : Js R Normalized := do
  let h ← get
  if p.isNullish then
    throw (.error "plaintext must not be null or undefined")
  else if h.isInstance R.bufferPrototype p then do
    let bytes ← E.newUint8Array p
    pure (.copied bytes)
  else if h.isInstance R.uint8ArrayPrototype p then
    pure (.same p)
  else
    match p with
    | .string s => pure (.text (encode (some s)))
    | .object r =>
      if h.typeOf p ≠ "object" then throw (notAnObject (h.typeOf p)) else normalizeObject E r
    | p => throw (notAnObject (h.typeOf p))

/-! ## What the guards let through -/

variable {E : Engine R} {h h' : Heap R} {r : Ref}

theorem typeOf_function_iff (h : Heap R) (v : Value) :
    h.typeOf v = "function" ↔ h.isCallable v = true := by
  cases v with
  | object f => by_cases callable : h.callable f <;> simp [Heap.typeOf, Heap.isCallable, callable]
  | _ => simp [Heap.typeOf, Heap.isCallable]

/-- The guard passes objects without an own `toJSON`, and objects whose own one answers with
something that is no function. -/
theorem rejectToJSON_ok_iff {h₁ : Heap R} :
    rejectToJSON E r h = .ok ((), h₁) ↔
      (h.own r "toJSON" = none ∧ h₁ = h) ∨
      ∃ property v, h.own r "toJSON" = some property ∧
        E.read (.object r) property h = .ok (v, h₁) ∧ h₁.isCallable v = false := by
  rw [rejectToJSON, get_bind]
  cases own : h.own r "toJSON" with
  | none =>
    constructor
    · intro passed
      exact .inl ⟨rfl, (pure_ok_iff.mp passed).2⟩
    · rintro (⟨_, rfl⟩ | ⟨_, _, some_own, _⟩)
      · rfl
      · cases some_own
  | some property =>
    dsimp only
    rw [bind_ok_iff, getProperty_some (Objects.lookup_own own)]
    constructor
    · rintro ⟨v, h₂, answer, passed⟩
      rw [get_bind] at passed
      by_cases function : h₂.typeOf v = "function"
      · rw [if_pos function] at passed
        cases passed
      · rw [if_neg function] at passed
        obtain rfl := (pure_ok_iff.mp passed).2
        rw [typeOf_function_iff, Bool.not_eq_true] at function
        exact .inr ⟨property, v, rfl, answer, function⟩
    · rintro (⟨none_own, _⟩ | ⟨_, v, same, answer, plain⟩)
      · cases none_own
      · cases same
        refine ⟨v, h₁, answer, ?_⟩
        rw [get_bind, if_neg (by rw [typeOf_function_iff, plain]; exact Bool.false_ne_true)]
        rfl

/-- What is known of an object that reaches `JSON.stringify`. -/
structure LetThrough (E : Engine R) (h : Heap R) (r : Ref) (h₁ : Heap R) : Prop where
  notBuffer : h.inherits R.bufferPrototype r = false
  notUint8Array : h.inherits R.uint8ArrayPrototype r = false
  notFunction : h.callable r = false
  notView : h.view r = false
  notArrayBuffer : h.inherits R.arrayBufferPrototype r = false
  plainOrArray : isPlainObject h r = true ∨ h.array r = true
  guarded : rejectToJSON E r h = .ok ((), h₁)

theorem normalizeObject_json_iff {bytes : Bytes} :
    normalizeObject E r h = .ok (.json bytes, h') ↔
      h.view r = false ∧ h.inherits R.arrayBufferPrototype r = false ∧
      (isPlainObject h r = true ∨ h.array r = true) ∧
      ∃ h₁ text, rejectToJSON E r h = .ok ((), h₁) ∧
        E.jsonStringify r h₁ = .ok (text, h') ∧ bytes = encode text := by
  rw [normalizeObject, get_bind]
  by_cases binary : h.view r ∨ h.inherits R.arrayBufferPrototype r
  · rw [if_pos binary, bind_ok_iff]
    constructor
    · rintro ⟨_, _, _, thrown⟩
      cases thrown
    · rintro ⟨view, buffer, _⟩
      simp [view, buffer] at binary
  · rw [if_neg binary]
    simp only [not_or, Bool.not_eq_true] at binary
    by_cases other : ¬ isPlainObject h r ∧ ¬ h.array r
    · rw [if_pos other, bind_ok_iff]
      constructor
      · rintro ⟨_, _, _, thrown⟩
        cases thrown
      · rintro ⟨_, _, plain | array, _⟩
        · exact absurd plain other.1
        · exact absurd array other.2
    · rw [if_neg other, bind_ok_iff]
      have plainOrArray : isPlainObject h r = true ∨ h.array r = true := by
        by_cases plain : isPlainObject h r = true
        · exact .inl plain
        · exact .inr (not_not.mp fun array => other ⟨plain, array⟩)
      constructor
      · rintro ⟨_, h₁, guarded, rest⟩
        obtain ⟨text, h₂, written, rest⟩ := bind_ok_iff.mp rest
        obtain ⟨same, rfl⟩ := pure_ok_iff.mp rest
        injection same with same
        exact ⟨binary.1, binary.2, plainOrArray, h₁, text, guarded, written, same⟩
      · rintro ⟨_, _, _, h₁, text, guarded, written, rfl⟩
        exact ⟨(), h₁, guarded, bind_ok_iff.mpr ⟨text, h', written, rfl⟩⟩

theorem normalizePlaintext_json_iff {bytes : Bytes} :
    normalizePlaintext E (.object r) h = .ok (.json bytes, h') ↔
      ∃ h₁ text, LetThrough E h r h₁ ∧ E.jsonStringify r h₁ = .ok (text, h') ∧
        bytes = encode text := by
  rw [normalizePlaintext, get_bind, if_neg (by simp [Value.isNullish])]
  by_cases buffer : h.isInstance R.bufferPrototype (.object r) = true
  · rw [if_pos buffer, bind_ok_iff]
    constructor
    · rintro ⟨_, _, _, copied⟩
      cases copied
    · rintro ⟨_, _, through, _⟩
      exact absurd (through.notBuffer.symm.trans buffer) Bool.false_ne_true
  · rw [if_neg buffer]
    by_cases array : h.isInstance R.uint8ArrayPrototype (.object r) = true
    · rw [if_pos array]
      constructor
      · intro same
        cases same
      · rintro ⟨_, _, through, _⟩
        exact absurd (through.notUint8Array.symm.trans array) Bool.false_ne_true
    · rw [if_neg array]
      dsimp only
      by_cases function : h.callable r = true
      · rw [if_pos (by simp [Heap.typeOf, function])]
        constructor
        · intro thrown
          cases thrown
        · rintro ⟨_, _, through, _⟩
          exact absurd (through.notFunction.symm.trans function) Bool.false_ne_true
      · rw [if_neg (by simp [Heap.typeOf, function]), normalizeObject_json_iff]
        rw [Bool.not_eq_true] at buffer array function
        constructor
        · rintro ⟨view, arrayBuffer, plain, h₁, text, guarded, rest⟩
          exact ⟨h₁, text, ⟨buffer, array, function, view, arrayBuffer, plain, guarded⟩, rest⟩
        · rintro ⟨h₁, text, through, rest⟩
          exact ⟨through.notView, through.notArrayBuffer, through.plainOrArray, h₁, text,
            through.guarded, rest⟩

/-- The values that are turned into bytes, the bytes, and the heap behind them: texts, Buffers,
other typed arrays, and objects that the guards let through and `JSON.stringify` can write. -/
inductive Normalizes (E : Engine R) (h : Heap R) : Value → Normalized → Heap R → Prop
  | text (s : String) : Normalizes E h (.string s) (.text (encode (some s))) h
  | buffer {p : Value} {bytes : Bytes} {h' : Heap R}
      (buffer : h.isInstance R.bufferPrototype p = true)
      (copied : E.newUint8Array p h = .ok (bytes, h')) : Normalizes E h p (.copied bytes) h'
  | array {p : Value} (other : h.isInstance R.bufferPrototype p = false)
      (array : h.isInstance R.uint8ArrayPrototype p = true) : Normalizes E h p (.same p) h
  | json {r : Ref} {h₁ h' : Heap R} {text : Option String} (through : LetThrough E h r h₁)
      (written : E.jsonStringify r h₁ = .ok (text, h')) :
      Normalizes E h (.object r) (.json (encode text)) h'

theorem normalizeObject_json {n : Normalized} (run : normalizeObject E r h = .ok (n, h')) :
    ∃ bytes, n = .json bytes := by
  rw [normalizeObject, get_bind] at run
  split at run
  · obtain ⟨_, _, _, thrown⟩ := bind_ok_iff.mp run
    cases thrown
  · split at run
    · obtain ⟨_, _, _, thrown⟩ := bind_ok_iff.mp run
      cases thrown
    · obtain ⟨_, _, _, rest⟩ := bind_ok_iff.mp run
      obtain ⟨text, _, _, made⟩ := bind_ok_iff.mp rest
      exact ⟨_, (pure_ok_iff.mp made).1⟩

/-- Nothing nullish is an instance of anything. -/
theorem not_nullish_of_instance {p : Value} {target : Ref} (is : h.isInstance target p = true) :
    p.isNullish = false := by
  cases p with
  | undefined => cases is
  | null => cases is
  | _ => rfl

/-- The plaintexts that are accepted. -/
theorem normalizePlaintext_iff {p : Value} {n : Normalized} :
    normalizePlaintext E p h = .ok (n, h') ↔ Normalizes E h p n h' := by
  constructor
  · intro run
    have whole := run
    rw [normalizePlaintext, get_bind] at run
    split at run
    · cases run
    · split at run
      · rename_i buffer
        obtain ⟨bytes, _, copied, made⟩ := bind_ok_iff.mp run
        obtain ⟨rfl, rfl⟩ := pure_ok_iff.mp made
        exact .buffer buffer copied
      · rename_i other
        split at run
        · rename_i array
          obtain ⟨rfl, rfl⟩ := pure_ok_iff.mp run
          exact .array (Bool.eq_false_iff.mpr other) array
        · cases p with
          | string s =>
            obtain ⟨rfl, rfl⟩ := pure_ok_iff.mp run
            exact .text s
          | object q =>
            dsimp only at run
            split at run
            · cases run
            · obtain ⟨bytes, rfl⟩ := normalizeObject_json run
              obtain ⟨h₁, text, through, written, rfl⟩ := normalizePlaintext_json_iff.mp whole
              exact .json through written
          | _ => cases run
  · intro normalizes
    cases normalizes with
    | text s => rfl
    | buffer buffer copied =>
      rw [normalizePlaintext, get_bind, not_nullish_of_instance buffer,
        if_neg Bool.false_ne_true, if_pos buffer, bind_of_ok copied]
      rfl
    | array other array =>
      rw [normalizePlaintext, get_bind, not_nullish_of_instance array,
        if_neg Bool.false_ne_true, if_neg (Bool.eq_false_iff.mp other), if_pos array]
      rfl
    | json through written =>
      exact normalizePlaintext_json_iff.mpr ⟨_, _, through, written, rfl⟩

/-! ## What is encrypted -/

/-- An array, an object without a prototype, or one whose prototype is the `Object.prototype` of
some realm. -/
def Plain (h : Heap R) (r : Ref) : Prop :=
  h.array r = true ∨ h.proto r = none ∨ ∃ q, h.proto r = some q ∧ R.isObjectPrototype q = true

/-- An object that is accepted as JSON is plain, `JSON.stringify` finds no `toJSON` function on
its chain, and the bytes are the JSON of the object itself. -/
def JsonFaithful (E : Engine R) (h : Heap R) (r : Ref) : Prop :=
  ∀ bytes h', normalizePlaintext E (.object r) h = .ok (.json bytes, h') →
    Plain h r ∧ ∃ h₁ v h₂ text,
      rejectToJSON E r h = .ok ((), h₁) ∧ E.getProperty r "toJSON" h₁ = .ok (v, h₂) ∧
      h₂.isCallable v = false ∧ E.serialize (.object r) h₂ = .ok (text, h') ∧
      bytes = encode text

/-- The intrinsic prototypes of plain objects and arrays define no `toJSON`. -/
structure DefinesNoToJSON (h : Heap R) : Prop where
  object : h.own R.objectPrototype "toJSON" = none
  array : h.own R.arrayPrototype "toJSON" = none

/-- No guard rejects the object and `JSON.stringify` does not throw on it. -/
def Accepted (E : Engine R) (h : Heap R) (r : Ref) : Prop :=
  ∃ h₁ out, LetThrough E h r h₁ ∧ E.jsonStringify r h₁ = .ok out

/-- The ways past the guards: a prototype that looks like an `Object.prototype` because it has
none itself, a `toJSON` function further up, and a getter that answers differently the second
time it is asked. -/
inductive Disguised (E : Engine R) (h : Heap R) (r : Ref) : Prop
  | overNull {q : Ref} (prototype : h.proto r = some q) (root : h.proto q = none)
      (notObject : R.isObjectPrototype q = false) (notArray : h.array r = false)
  | inherited {q : Ref} {property : Property} {v : Value} {h₂ : Heap R}
      (own : h.own r "toJSON" = none) (found : h.lookup "toJSON" r = some (q, property))
      (notObject : q ≠ R.objectPrototype) (notArray : q ≠ R.arrayPrototype)
      (holder : h.array r = true ∨ h.proto r = some q ∧ h.proto q = none)
      (answer : E.read (.object r) property h = .ok (v, h₂))
      (function : h₂.isCallable v = true)
  | fickle {getter : Ref} {first v : Value} {h₁ h₂ : Heap R}
      (own : h.own r "toJSON" = some (.accessor (some getter)))
      (answer : E.call getter (.object r) [] h = .ok (first, h₁))
      (quiet : h₁.isCallable first = false)
      (again : E.getProperty r "toJSON" h₁ = .ok (v, h₂))
      (function : h₂.isCallable v = true)

/-- An object that passes for a plain one is plain, unless its prototype stands for itself. -/
theorem plain_or_overNull (through : isPlainObject h r = true ∨ h.array r = true) :
    Plain h r ∨ Disguised E h r := by
  cases array : h.array r with
  | true => exact .inl (.inl array)
  | false =>
    rw [array] at through
    have plain := through.resolve_right Bool.false_ne_true
    cases prototype : h.proto r with
    | none => exact .inl (.inr (.inl prototype))
    | some q =>
      cases object : R.isObjectPrototype q with
      | true => exact .inl (.inr (.inr ⟨q, prototype, object⟩))
      | false =>
        rw [isPlainObject, prototype, decide_eq_true_iff] at plain
        rcases plain with rfl | root
        · exact absurd (object.symm.trans R.objectPrototype_is) Bool.false_ne_true
        · exact .inr (.overNull prototype root object array)

/-- Where the `toJSON` can come from that an object finds but does not own. -/
theorem inherited_holder (clean : DefinesNoToJSON h)
    (through : isPlainObject h r = true ∨ h.array r = true) {q : Ref} {property : Property}
    (own : h.own r "toJSON" = none) (found : h.lookup "toJSON" r = some (q, property)) :
    q ≠ R.objectPrototype ∧ q ≠ R.arrayPrototype ∧
      (h.array r = true ∨ h.proto r = some q ∧ h.proto q = none) := by
  have held := Objects.lookup_holds found
  refine ⟨?_, ?_, ?_⟩
  · rintro rfl
    rw [clean.object] at held
    cases held
  · rintro rfl
    rw [clean.array] at held
    cases held
  · rcases through with plain | array
    · cases prototype : h.proto r with
      | none =>
        rw [Objects.lookup_root own prototype] at found
        cases found
      | some q' =>
        rw [isPlainObject, prototype, decide_eq_true_iff] at plain
        have root : h.proto q' = none := by
          rcases plain with rfl | root
          · exact h.rooted _ R.objectPrototype_is
          · exact root
        rw [Objects.lookup_short own prototype root, Option.map_eq_some_iff] at found
        obtain ⟨_, _, same⟩ := found
        injection same with holder _
        subst holder
        exact .inr ⟨rfl, root⟩
    · exact .inl array

/-- A function that `JSON.stringify` finds has come one of two ways. -/
theorem disguised_of_function (clean : DefinesNoToJSON h) {h₁ h₂ : Heap R} {v : Value}
    (through : LetThrough E h r h₁) (found : E.getProperty r "toJSON" h₁ = .ok (v, h₂))
    (function : h₂.isCallable v = true) : Disguised E h r := by
  rcases rejectToJSON_ok_iff.mp through.guarded with
    ⟨own, rfl⟩ | ⟨property, first, own, answer, quiet⟩
  · cases looked : h₁.lookup "toJSON" r with
    | none =>
      rw [getProperty_none looked] at found
      cases found
      cases function
    | some holder =>
      obtain ⟨q, property⟩ := holder
      rw [getProperty_some looked] at found
      obtain ⟨notObject, notArray, holder⟩ :=
        inherited_holder clean through.plainOrArray own looked
      exact .inherited own looked notObject notArray holder found function
  · rcases read_cases E (.object r) property with ⟨value, steady⟩ | ⟨getter, rfl⟩
    · rw [steady h] at answer
      cases answer
      rw [getProperty_some (Objects.lookup_own own), steady h] at found
      cases found
      exact absurd (quiet.symm.trans function) Bool.false_ne_true
    · exact .fickle own answer quiet found function

/-- A disguised object that is accepted is not faithful. -/
theorem not_faithful_of_disguised (accepted : Accepted E h r) (disguised : Disguised E h r) :
    ¬ JsonFaithful E h r := by
  intro faithful
  obtain ⟨h₁, ⟨text, h'⟩, through, written⟩ := accepted
  have json := normalizePlaintext_json_iff.mpr ⟨h₁, text, through, written, rfl⟩
  obtain ⟨plain, h₁', v, h₂, _, guarded, found, quiet, _⟩ := faithful _ _ json
  cases disguised with
  | overNull prototype root notObject notArray =>
    rcases plain with array | null | ⟨q', prototype', object⟩
    · exact absurd (notArray.symm.trans array) Bool.false_ne_true
    · rw [prototype] at null
      cases null
    · rw [prototype] at prototype'
      cases prototype'
      exact absurd (notObject.symm.trans object) Bool.false_ne_true
  | inherited own looked _ _ _ answer function =>
    rcases rejectToJSON_ok_iff.mp guarded with ⟨_, rfl⟩ | ⟨_, _, some_own, _⟩
    · rw [getProperty_some looked, answer] at found
      cases found
      exact absurd (quiet.symm.trans function) Bool.false_ne_true
    · rw [own] at some_own
      cases some_own
  | fickle own answer _ again function =>
    rcases rejectToJSON_ok_iff.mp guarded with ⟨none_own, _⟩ | ⟨_, _, some_own, answer', _⟩
    · rw [own] at none_own
      cases none_own
    · rw [own] at some_own
      cases some_own
      change E.call _ (.object r) [] h = _ at answer'
      rw [answer] at answer'
      cases answer'
      rw [again] at found
      cases found
      exact absurd (quiet.symm.trans function) Bool.false_ne_true

/-- The JSON branch writes the object's own content unless the object is accepted in disguise. -/
theorem jsonFaithful_iff (E : Engine R) (h : Heap R) (r : Ref) (clean : DefinesNoToJSON h) :
    JsonFaithful E h r ↔ ¬ (Accepted E h r ∧ Disguised E h r) := by
  constructor
  · rintro faithful ⟨accepted, disguised⟩
    exact not_faithful_of_disguised accepted disguised faithful
  · intro honest bytes h' json
    obtain ⟨h₁, text, through, written, encoded⟩ := normalizePlaintext_json_iff.mp json
    have undisguised : ¬ Disguised E h r := fun disguised =>
      honest ⟨⟨h₁, _, through, written⟩, disguised⟩
    obtain ⟨v, h₂, found⟩ := jsonStringify_looks_up written
    have quiet : h₂.isCallable v = false := by
      rw [← Bool.not_eq_true]
      exact fun function => undisguised (disguised_of_function clean through found function)
    rw [jsonStringify_plain found quiet] at written
    exact ⟨(plain_or_overNull through.plainOrArray).resolve_right undisguised,
      h₁, v, h₂, text, through.guarded, found, quiet, written, encoded⟩

/-! ## An object over a null prototype -/

def ownRealm : Realm where
  objectPrototype := 0
  arrayPrototype := 1
  uint8ArrayPrototype := 2
  bufferPrototype := 3
  arrayBufferPrototype := 4
  isObjectPrototype r := r = 0
  objectPrototype_is := rfl

/-- 5 is `() => 'x'`, 6 is `Object.assign(Object.create(null), { toJSON: 5 })`, 7 is
`Object.create(6)`, and everything from 8 on is `{}`. -/
def smallHeap : Heap ownRealm where
  own r key := if r = 6 ∧ key = "toJSON" then some (.data (.object 5)) else none
  proto r := if r = 0 ∨ r = 6 then none else if r = 7 then some 6 else some 0
  wellFounded := by
    refine Subrelation.wf (fun {q r} next => ?_) Nat.lt_wfRel.wf
    have lower : ∀ q r : Nat, (if r = 0 ∨ r = 6 then none else if r = 7 then some 6 else some 0) =
        some q → q < r := by
      intro q r next
      split at next
      · cases next
      · split at next <;> cases next <;> omega
    exact lower q r next
  writable _ _ := true
  setter _ _ := none
  callable r := r = 5
  array _ := false
  view _ := false
  rooted q object := by
    have zero : q = 0 := by simpa [ownRealm] using object
    simp [zero]

def smallEngine : Engine ownRealm where
  call _ _ _ := pure (.string "x")
  primitiveMember _ _ := pure .undefined
  toText _ := pure ""
  newUint8Array _ := pure []
  serialize
    | .string s => pure (some ("\"" ++ s ++ "\""))
    | _ => pure (some "{}")

theorem smallHeap_clean : DefinesNoToJSON smallHeap := ⟨rfl, rfl⟩

/-- A plain `{}` is written as itself. -/
theorem jsonFaithful_braces : JsonFaithful smallEngine smallHeap 8 := by
  refine (jsonFaithful_iff smallEngine smallHeap 8 smallHeap_clean).mpr ?_
  rintro ⟨_, disguised⟩
  have own : smallHeap.own 8 "toJSON" = none := rfl
  cases disguised with
  | overNull prototype _ notObject _ =>
    cases prototype
    cases notObject
  | inherited _ found _ _ _ _ _ =>
    rw [Objects.lookup_short own rfl rfl] at found
    cases found
  | fickle some_own _ _ _ _ => cases own.symm.trans some_own

theorem smallHeap_inherits (target : Ref) :
    smallHeap.inherits target 7 = if 6 = target then true else false := by
  rw [Objects.inherits_proto rfl, Objects.inherits_root target rfl]

/-- The guards see a plain object without a `toJSON`; what is encrypted is what the `toJSON` of
its prototype returns. -/
theorem created_over_null :
    ¬ ∀ (R : Realm) (E : Engine R) (h : Heap R) (r : Ref), DefinesNoToJSON h →
        JsonFaithful E h r := by
  intro claimed
  have own : smallHeap.own 7 "toJSON" = none := rfl
  have found : smallHeap.lookup "toJSON" 7 = some (6, .data (.object 5)) :=
    Objects.lookup_short own rfl rfl
  have through : LetThrough smallEngine smallHeap 7 smallHeap :=
    { notBuffer := smallHeap_inherits 3, notUint8Array := smallHeap_inherits 2,
      notFunction := rfl, notView := rfl, notArrayBuffer := smallHeap_inherits 4,
      plainOrArray := .inl rfl, guarded := rejectToJSON_ok_iff.mpr (.inl ⟨own, rfl⟩) }
  have written : smallEngine.jsonStringify 7 smallHeap = .ok (some "\"x\"", smallHeap) := by
    rw [Engine.jsonStringify, bind_of_ok (getProperty_some found)]
    rfl
  exact not_faithful_of_disguised ⟨smallHeap, _, through, written⟩
    (.inherited own found (by decide) (by decide) (.inr ⟨rfl, rfl⟩) rfl rfl)
    (claimed ownRealm smallEngine smallHeap 7 smallHeap_clean)

end CmmEncrypt.Plaintext
