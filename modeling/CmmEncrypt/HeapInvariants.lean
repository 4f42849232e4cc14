import CmmEncrypt.Wrapper

/-!
# What reading an input leaves as it was

The code itself writes to no object of the caller; only functions that run while it
reads do. An invariant of the heap that they all keep is therefore kept until the
result is built.
-/

namespace CmmEncrypt.HeapInvariants

open Wire FallibleState PrototypeChain JavaScript Plaintext Binding Wrapper

variable {R : Realm} {H : Host R} {I : Heap R → Prop}

/-- Whatever the engine and the functions on the heap do keeps the invariant. -/
structure Leaves (H : Host R) (I : Heap R → Prop) : Prop where
  call : ∀ f this args, Keeps I (H.call f this args)
  primitiveMember : ∀ v key, Keeps I (H.primitiveMember v key)
  toText : ∀ v, Keeps I (H.toText v)
  newUint8Array : ∀ v, Keeps I (H.newUint8Array v)
  serialize : ∀ v, Keeps I (H.serialize v)
  length : ∀ v, Keeps I (H.length v)
  copyTo : ∀ n v, Keeps I (H.copyTo n v)
  toVec : ∀ v, Keeps I (H.toVec v)

variable (leaves : Leaves H I)
include leaves

/-! ## Properties -/

theorem keeps_read (receiver : Value) (property : Property) :
    Keeps I (H.read receiver property) := by
  cases property with
  | data value => exact .pure value
  | accessor getter =>
    cases getter with
    | none => exact .pure Value.undefined
    | some getter => exact leaves.call getter receiver []

theorem keeps_getProperty (r : Ref) (key : String) : Keeps I (H.getProperty r key) := by
  refine .get_bind fun h => ?_
  cases h.lookup key r with
  | none => exact .pure Value.undefined
  | some holder => exact keeps_read leaves _ _

theorem keeps_member (v : Value) (key : String) : Keeps I (H.member v key) := by
  cases v with
  | undefined => exact .throw _
  | null => exact .throw _
  | object r => exact keeps_getProperty leaves r key
  | _ => exact leaves.primitiveMember _ key

theorem keeps_jsonStringify (r : Ref) : Keeps I (H.jsonStringify r) := by
  refine .bind (keeps_getProperty leaves r "toJSON") fun toJSON => .get_bind fun h => ?_
  cases toJSON with
  | object f =>
    dsimp only
    split
    · exact .bind (leaves.call f _ _) fun value => leaves.serialize value
    · exact leaves.serialize _
  | _ => exact leaves.serialize _

/-! ## The wrapper -/

theorem keeps_rejectToJSON (r : Ref) : Keeps I (rejectToJSON H.toEngine r) := by
  refine .get_bind fun h => ?_
  cases h.own r "toJSON" with
  | none => exact .pure ()
  | some _ =>
    refine .bind (keeps_getProperty leaves r "toJSON") fun toJSON => .get_bind fun h => ?_
    split
    · exact .throw _
    · exact .pure ()

theorem keeps_normalizeObject (r : Ref) : Keeps I (normalizeObject H.toEngine r) := by
  refine .get_bind fun h => ?_
  split
  · intro h a h' _ run
    obtain ⟨_, _, _, thrown⟩ := bind_ok_iff.mp run
    cases thrown
  · split
    · intro h a h' _ run
      obtain ⟨_, _, _, thrown⟩ := bind_ok_iff.mp run
      cases thrown
    · exact .bind (keeps_rejectToJSON leaves r) fun _ =>
        .bind (keeps_jsonStringify leaves r) fun text => .pure _

theorem keeps_normalizePlaintext (p : Value) : Keeps I (normalizePlaintext H.toEngine p) := by
  refine .get_bind fun h => ?_
  split
  · exact .throw _
  · split
    · exact .bind (leaves.newUint8Array p) fun bytes => .pure _
    · split
      · exact .pure _
      · cases p with
        | string s => exact .pure _
        | object r =>
          dsimp only
          split
          · exact .throw _
          · exact keeps_normalizeObject leaves r
        | _ => exact .throw _

theorem keeps_toUint8Array (b : Value) : Keeps I (toUint8Array H.toEngine b) := by
  refine .get_bind fun h => ?_
  split
  · exact .bind (leaves.newUint8Array b) fun bytes => .pure _
  · split
    · exact .pure _
    · exact .throw _

theorem keeps_arrayLength (arr : Handed) : Keeps I (arrayLength H.toEngine arr) := by
  cases arr with
  | value v => exact keeps_member leaves v "length"
  | fresh bytes => exact .pure _

theorem keeps_checkedLength (arr : Handed) (name : String) :
    Keeps I (checkedLength H.toEngine arr name) := by
  refine .bind (keeps_arrayLength leaves arr) fun length => ?_
  split
  · exact .bind (keeps_arrayLength leaves arr) fun length =>
      .bind (leaves.toText length) fun got => .throw _
  · exact .pure arr

theorem keeps_normalizeTwentyByte (v : Value) (name : String) :
    Keeps I (normalizeTwentyByte H.toEngine v name) := by
  rw [normalizeTwentyByte.eq_def]
  split
  · split
    · exact .throw _
    · exact .pure _
  · refine .get_bind fun h => ?_
    split
    · exact .bind (leaves.newUint8Array _) fun bytes => keeps_checkedLength leaves _ name
    · exact keeps_checkedLength leaves _ name

theorem keeps_normalizeSignature (input : Value) :
    Keeps I (normalizeSignature H.toEngine input) := by
  refine .bind (keeps_member leaves input "signature") fun signature => ?_
  split
  · exact .pure _
  · exact .bind (keeps_member leaves input "signature") fun signature =>
      keeps_toUint8Array leaves signature

/-! ## The binding -/

variable (obj : RequestObject) (field : String)

theorem keeps_readField : Keeps I (readField H.toEngine obj field) := by
  have reads : Keeps I (reflectGet H.toEngine obj field) := by
    cases obj with
    | value v =>
      cases v with
      | object r => exact .bind (keeps_getProperty leaves r field) fun val => .pure _
      | _ => exact .throw _
    | literal fields =>
      rw [reflectGet]
      cases fields.lookup field with
      | some val => exact .pure val
      | none => exact .bind (keeps_getProperty leaves _ field) fun val => .pure _
  intro h val h' start run
  rw [readField] at run
  cases read : reflectGet H.toEngine obj field h with
  | ok out =>
    rw [read] at run
    cases run
    exact reads h _ _ start read
  | error e =>
    rw [read] at run
    cases run

omit leaves in
theorem keeps_dynIntoUint8Array (val : Handed) (message : String) :
    Keeps I (dynIntoUint8Array val message : Js R Handed) := by
  refine .get_bind fun h => ?_
  split
  · exact .pure val
  · exact .throw _

theorem keeps_readUint8Array : Keeps I (readUint8Array H.toEngine obj field) := by
  refine .bind (keeps_readField leaves obj field) fun val => ?_
  split
  · exact .throw _
  · exact keeps_dynIntoUint8Array val _

theorem keeps_lengthOf (arr : Handed) : Keeps I (lengthOf H arr) := by
  cases arr with
  | value v => exact leaves.length v
  | fresh bytes => exact .pure _

theorem keeps_copyTo (n : ℕ) (arr : Handed) : Keeps I (copyTo H n arr) := by
  cases arr with
  | value v => exact leaves.copyTo n v
  | fresh bytes =>
    rw [copyTo]
    split
    · exact .pure _
    · exact .throw _

theorem keeps_toVec (arr : Handed) : Keeps I (toVec H arr) := by
  cases arr with
  | value v => exact leaves.toVec v
  | fresh bytes =>
    rw [toVec]
    split
    · exact .pure _
    · exact .throw _

theorem keeps_optionToVec (arr : Option Handed) : Keeps I (optionToVec H arr) := by
  cases arr with
  | none => exact .pure none
  | some arr => exact .bind (keeps_toVec leaves arr) fun bytes => .pure _

theorem keeps_readUint8Array20b : Keeps I (readUint8Array20b H obj field) := by
  refine .bind (keeps_readUint8Array leaves obj field) fun arr =>
    .bind (keeps_lengthOf leaves arr) fun len => ?_
  split
  · exact .throw _
  · exact keeps_copyTo leaves 20 arr

theorem keeps_readOptionalUint8Array :
    Keeps I (readOptionalUint8Array H.toEngine obj field) := by
  refine .bind (keeps_readField leaves obj field) fun val => ?_
  split
  · exact .pure none
  · exact .bind (keeps_dynIntoUint8Array val _) fun arr => .pure _

theorem keeps_readOptionalString : Keeps I (readOptionalString H.toEngine obj field) := by
  refine .bind (keeps_readField leaves obj field) fun val => ?_
  split
  · exact .pure none
  · cases val.asString with
    | some s => exact .pure _
    | none => exact .throw _

theorem keeps_readU32 : Keeps I (readU32 H.toEngine obj field) := by
  refine .bind (keeps_readField leaves obj field) fun val => ?_
  split
  · exact .throw _
  · cases val.asF64 with
    | none => exact .throw _
    | some n =>
      dsimp only
      split
      · exact .throw _
      · exact .pure _

end CmmEncrypt.HeapInvariants
