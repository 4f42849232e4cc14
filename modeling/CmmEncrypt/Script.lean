import CmmEncrypt.Layout

/-!
# EVAL_NOTARY_EVIDENCE output scripts (`cc_script.rs`)

Pushes nest two deep: the parameters are pushes, and the script pushes them. The
length of a script is the length of its evidence plus the two push prefixes and a
constant; the push reader takes the script apart again.
-/

namespace CmmEncrypt.Script

open Cursor Wire Layout

def EVAL_NOTARY_EVIDENCE : UInt8 := 0x03
def EVAL_NONE : UInt8 := 0x00
def COPT_CC_PARAMS_VERSION_V3 : UInt8 := 3

def NOTARY_EVIDENCE_CC_PUBKEY : ByteArr 33 :=
  ⟨[0x03, 0xe1, 0x89, 0x4e, 0x9d, 0x48, 0x71, 0x25, 0xbe, 0x5a, 0x8c, 0x66, 0x57, 0xa8, 0xce, 0x01,
    0xbc, 0x81, 0xba, 0x78, 0x16, 0xd6, 0x98, 0xdb, 0xfc, 0xfb, 0x04, 0x83, 0x75, 0x4e, 0xb5, 0xa2,
    0xd9], rfl⟩

def OP_PUSHDATA1 : UInt8 := 0x4c
def OP_PUSHDATA2 : UInt8 := 0x4d
def OP_PUSHDATA4 : UInt8 := 0x4e
def OP_CHECKCRYPTOCONDITION : UInt8 := 0xcc
def OP_DROP : UInt8 := 0x75

def writePush (buf data : Bytes) : Bytes :=
  if data.length < OP_PUSHDATA1.toNat then buf ++ [UInt8.ofNat data.length] ++ data
  else if data.length ≤ 0xff then buf ++ [OP_PUSHDATA1] ++ [UInt8.ofNat data.length] ++ data
  else if data.length ≤ 0xffff then
    buf ++ [OP_PUSHDATA2] ++ leBytes 2 (UInt16.ofNat data.length).toNat ++ data
  else buf ++ [OP_PUSHDATA4] ++ leBytes 4 (UInt32.ofNat data.length).toNat ++ data

def writeV3OptCcParamsPk (buf : Bytes) (evalCode m n : UInt8) (pubkey : ByteArr 33)
    (data : List Bytes) : Bytes :=
  let params := writePush [] [COPT_CC_PARAMS_VERSION_V3, evalCode, m, n]
  let params := writePush params pubkey.toList
  let params := data.foldl writePush params
  writePush buf params

def writeEvalNotaryEvidenceScript (buf notaryEvidence : Bytes) : Bytes :=
  let buf := writeV3OptCcParamsPk buf EVAL_NONE 1 1 NOTARY_EVIDENCE_CC_PUBKEY []
  let buf := buf ++ [OP_CHECKCRYPTOCONDITION]
  let buf := writeV3OptCcParamsPk buf EVAL_NOTARY_EVIDENCE 1 1 NOTARY_EVIDENCE_CC_PUBKEY
    [notaryEvidence]
  buf ++ [OP_DROP]

/-! ## Pushes -/

def push (data : Bytes) : Bytes := writePush [] data

/-- How many bytes a push of `n` bytes takes. -/
def pushLen (n : Nat) : Nat :=
  n + if n < 76 then 1 else if n ≤ 0xff then 2 else if n ≤ 0xffff then 3 else 5

theorem writePush_eq (buf data : Bytes) : writePush buf data = buf ++ push data := by
  unfold push writePush
  split_ifs <;> simp only [List.append_assoc, List.nil_append]

theorem foldl_writePush (buf : Bytes) (data : List Bytes) :
    data.foldl writePush buf = buf ++ data.flatMap push := by
  induction data generalizing buf with
  | nil => rw [List.foldl_nil, List.flatMap_nil, List.append_nil]
  | cons d data ih => rw [List.foldl_cons, ih, writePush_eq, List.flatMap_cons, List.append_assoc]

theorem push_length (data : Bytes) : (push data).length = pushLen data.length := by
  have op : OP_PUSHDATA1.toNat = 76 := rfl
  simp only [push, writePush, pushLen, op, List.nil_append]
  split_ifs <;>
    simp only [List.length_append, List.length_cons, List.length_nil, leBytes_length] <;> omega

theorem le_pushLen (n : Nat) : n ≤ pushLen n := by
  unfold pushLen
  split_ifs <;> omega

theorem pushLen_lt {m n : Nat} (h : m < n) : pushLen m < pushLen n := by
  unfold pushLen
  split_ifs <;> omega

theorem pushLen_mono {m n : Nat} (h : m ≤ n) : pushLen m ≤ pushLen n := by
  rcases Nat.lt_or_eq_of_le h with less | rfl
  · exact Nat.le_of_lt (pushLen_lt less)
  · exact Nat.le_refl _

/-- The four ways to announce the length of a push. -/
inductive PushForm where
  | direct
  | pushData1
  | pushData2
  | pushData4
  deriving DecidableEq, Repr

namespace PushForm

def maxLen : PushForm → Nat
  | .direct => 75
  | .pushData1 => 0xff
  | .pushData2 => 0xffff
  | .pushData4 => 0xffffffff

/-- What stands in front of `len` bytes of data. -/
def header (form : PushForm) (len : Nat) : Bytes :=
  match form with
  | .direct => [UInt8.ofNat len]
  | .pushData1 => [OP_PUSHDATA1, UInt8.ofNat len]
  | .pushData2 => OP_PUSHDATA2 :: leBytes 2 len
  | .pushData4 => OP_PUSHDATA4 :: leBytes 4 len

/-- The form that `write_push` takes. -/
def chosen (len : Nat) : PushForm :=
  if len < 76 then .direct else if len ≤ 0xff then .pushData1
  else if len ≤ 0xffff then .pushData2 else .pushData4

theorem chosen_carries {len : Nat} (fits : len < 2 ^ 32) : len ≤ (chosen len).maxLen := by
  unfold chosen maxLen
  split_ifs <;> simp only <;> omega

/-- A shorter form than the chosen one cannot carry the length. -/
theorem chosen_shortest {len : Nat} {form : PushForm} (carries : len ≤ form.maxLen) :
    ((chosen len).header len).length ≤ (form.header len).length := by
  have size : ∀ form : PushForm, (form.header len).length = match form with
      | .direct => 1 | .pushData1 => 2 | .pushData2 => 3 | .pushData4 => 5 := by
    intro form
    cases form <;> simp [header]
  rw [size, size]
  unfold chosen
  cases form <;> simp only [maxLen] at carries <;> split_ifs <;> simp only <;> omega

end PushForm

theorem push_eq {data : Bytes} (fits : data.length < 2 ^ 32) :
    push data = (PushForm.chosen data.length).header data.length ++ data := by
  have op : OP_PUSHDATA1.toNat = 76 := rfl
  simp only [push, writePush, op, List.nil_append, PushForm.chosen]
  split_ifs with direct one two
  · rfl
  · rfl
  · have small : (UInt16.ofNat data.length).toNat = data.length := by
      rw [UInt16.toNat_ofNat']
      omega
    rw [small]
    rfl
  · have small : (UInt32.ofNat data.length).toNat = data.length := by
      rw [UInt32.toNat_ofNat']
      omega
    rw [small]
    rfl

/-! ## Parameters and scripts -/

/-- The pushes inside a COptCCParams. -/
def optCcParams (evalCode m n : UInt8) (pubkey : ByteArr 33) (data : List Bytes) : List Bytes :=
  [COPT_CC_PARAMS_VERSION_V3, evalCode, m, n] :: pubkey.toList :: data

/-- The parameters that are pushed by a script around `data`. -/
def scriptParams (evalCode : UInt8) (data : List Bytes) : Bytes :=
  (optCcParams evalCode 1 1 NOTARY_EVIDENCE_CC_PUBKEY data).flatMap push

/-- The script of an evidence. -/
def evidenceScript (notaryEvidence : Bytes) : Bytes :=
  push (scriptParams EVAL_NONE []) ++ ([OP_CHECKCRYPTOCONDITION] ++
    (push (scriptParams EVAL_NOTARY_EVIDENCE [notaryEvidence]) ++ [OP_DROP]))

theorem writeV3OptCcParamsPk_eq (buf : Bytes) (evalCode m n : UInt8) (pubkey : ByteArr 33)
    (data : List Bytes) :
    writeV3OptCcParamsPk buf evalCode m n pubkey data =
      buf ++ push ((optCcParams evalCode m n pubkey data).flatMap push) := by
  have header : writePush [] [COPT_CC_PARAMS_VERSION_V3, evalCode, m, n] =
      push [COPT_CC_PARAMS_VERSION_V3, evalCode, m, n] := rfl
  rw [writeV3OptCcParamsPk, header, foldl_writePush, writePush_eq, writePush_eq, optCcParams,
    List.flatMap_cons, List.flatMap_cons, List.append_assoc]

theorem writeEvalNotaryEvidenceScript_eq (buf notaryEvidence : Bytes) :
    writeEvalNotaryEvidenceScript buf notaryEvidence = buf ++ evidenceScript notaryEvidence := by
  rw [writeEvalNotaryEvidenceScript, writeV3OptCcParamsPk_eq, writeV3OptCcParamsPk_eq,
    evidenceScript, scriptParams, scriptParams]
  simp only [List.append_assoc]

theorem scriptParams_length (evalCode : UInt8) (data : List Bytes) :
    (scriptParams evalCode data).length =
      39 + (data.map (fun d => pushLen d.length)).sum := by
  have header : (push [COPT_CC_PARAMS_VERSION_V3, evalCode, 1, 1]).length = 5 := push_length _
  have pubkey : (push NOTARY_EVIDENCE_CC_PUBKEY.toList).length = 34 := by
    rw [push_length, NOTARY_EVIDENCE_CC_PUBKEY.toList_length]
    rfl
  have items : (data.flatMap push).length = (data.map (fun d => pushLen d.length)).sum := by
    rw [List.length_flatMap]
    simp only [push_length]
  rw [scriptParams, optCcParams, List.flatMap_cons, List.flatMap_cons, List.length_append,
    List.length_append, header, pubkey, items, ← Nat.add_assoc]

theorem masterParams_length : (scriptParams EVAL_NONE []).length = 39 := by
  rw [scriptParams_length]
  rfl

theorem evidenceParams_length (notaryEvidence : Bytes) :
    (scriptParams EVAL_NOTARY_EVIDENCE [notaryEvidence]).length =
      39 + pushLen notaryEvidence.length := by
  rw [scriptParams_length, List.map_singleton, List.sum_singleton]

/-- Parameters that can be pushed hold evidence that can be pushed. -/
theorem evidence_fits {n : Nat} (fits : 39 + pushLen n < 2 ^ 32) : n < 2 ^ 32 := by
  have held := le_pushLen n
  omega

/-- The master parameters and both opcodes are 42 bytes. -/
theorem evidenceScript_length (notaryEvidence : Bytes) :
    (evidenceScript notaryEvidence).length = 42 + pushLen (39 + pushLen notaryEvidence.length) := by
  have master : (push (scriptParams EVAL_NONE [])).length = 40 := by
    rw [push_length, masterParams_length]
    rfl
  have params : (push (scriptParams EVAL_NOTARY_EVIDENCE [notaryEvidence])).length =
      pushLen (39 + pushLen notaryEvidence.length) := by
    rw [push_length, evidenceParams_length]
  rw [evidenceScript, List.length_append, List.length_append, List.length_append, master, params,
    List.length_singleton, List.length_singleton]
  omega

/-! ## Reading scripts -/

/-- The length behind a push opcode. -/
def readPushLength (op : UInt8) : Read Nat :=
  if op < OP_PUSHDATA1 then pure op.toNat
  else if op = OP_PUSHDATA1 then do
    let len ← readByte
    pure len.toNat
  else if op = OP_PUSHDATA2 then do
    let len ← readU16
    pure len.toNat
  else if op = OP_PUSHDATA4 then do
    let len ← readU32
    pure len.toNat
  else Reader.fail .wrongScript

def readPush : Read Bytes := do
  let op ← readByte
  let len ← readPushLength op
  readRaw len

structure COptCCParams where
  version : UInt8
  evalCode : UInt8
  m : UInt8
  n : UInt8
  pubkey : Bytes
  data : List Bytes
  deriving DecidableEq, Repr

/-- Parameters are pushes to their end: a header, a key and the data. -/
def parseOptCcParams (params : Bytes) : Except ReadError COptCCParams :=
  match Reader.sequence .leftover readPush params with
  | .ok ([version, evalCode, m, n] :: pubkey :: data) =>
    .ok { version, evalCode, m, n, pubkey, data }
  | .ok _ => .error .wrongScript
  | .error e => .error e

def readOpcode (op : UInt8) : Read PUnit := do
  let b ← readByte
  require (b = op) .wrongScript

/-- `push OP_CHECKCRYPTOCONDITION push OP_DROP`: the two pushes. -/
def readScript : Read (Bytes × Bytes) := do
  let master ← readPush
  readOpcode OP_CHECKCRYPTOCONDITION
  let params ← readPush
  readOpcode OP_DROP
  pure (master, params)

/-- The 1-of-1 parameters under the well-known key. -/
def wellKnownParams (evalCode : UInt8) (data : List Bytes) : COptCCParams where
  version := COPT_CC_PARAMS_VERSION_V3
  evalCode := evalCode
  m := 1
  n := 1
  pubkey := NOTARY_EVIDENCE_CC_PUBKEY.toList
  data := data

/-- The one data item of an EVAL_NOTARY_EVIDENCE script. -/
def scriptEvidence (script : Bytes) : Except ReadError Bytes := do
  let (master, params) ← Reader.toEnd .leftover readScript script
  let masterParams ← parseOptCcParams master
  let vParams ← parseOptCcParams params
  match vParams.data with
  | [notaryEvidence] =>
    if masterParams = wellKnownParams EVAL_NONE [] ∧
        vParams = wellKnownParams EVAL_NOTARY_EVIDENCE [notaryEvidence] then
      .ok notaryEvidence
    else .error .wrongScript
  | _ => .error .wrongScript

/-- Whatever form announces it, data within the form's limit is read back. -/
theorem readPush_form {form : PushForm} {data : Bytes} (carries : data.length ≤ form.maxLen) :
    Decodes readPush (form.header data.length ++ data) data := by
  have op : OP_PUSHDATA1.toNat = 76 := rfl
  have body : Decodes (readRaw data.length) (Field.raw data).bytes data := readRaw_decodes rfl
  cases form with
  | direct =>
    simp only [PushForm.maxLen] at carries
    have small : (UInt8.ofNat data.length).toNat = data.length := by
      rw [UInt8.toNat_ofNat']
      omega
    have short : UInt8.ofNat data.length < OP_PUSHDATA1 := by
      rw [UInt8.lt_iff_toNat_lt, small, op]
      omega
    have len : Decodes (readPushLength (UInt8.ofNat data.length)) [] data.length := by
      rw [readPushLength, if_pos short, small]
      exact Decodes.pure _
    exact (readByte_decodes (UInt8.ofNat data.length)).bind (len.bind body)
  | pushData1 =>
    simp only [PushForm.maxLen] at carries
    have small : (UInt8.ofNat data.length).toNat = data.length := by
      rw [UInt8.toNat_ofNat']
      omega
    have len := (readByte_decodes (UInt8.ofNat data.length)).map UInt8.toNat
    rw [small] at len
    exact (readByte_decodes OP_PUSHDATA1).bind (len.bind body)
  | pushData2 =>
    simp only [PushForm.maxLen] at carries
    have small : (UInt16.ofNat data.length).toNat = data.length := by
      rw [UInt16.toNat_ofNat']
      omega
    have len := (readU16_decodes (UInt16.ofNat data.length)).map UInt16.toNat
    rw [small] at len
    exact (readByte_decodes OP_PUSHDATA2).bind (len.bind body)
  | pushData4 =>
    simp only [PushForm.maxLen] at carries
    have small : (UInt32.ofNat data.length).toNat = data.length := by
      rw [UInt32.toNat_ofNat']
      omega
    have len := (readU32_decodes (UInt32.ofNat data.length)).map UInt32.toNat
    rw [small] at len
    exact (readByte_decodes OP_PUSHDATA4).bind (len.bind body)

theorem readPush_decodes {data : Bytes} (fits : data.length < 2 ^ 32) :
    Decodes readPush (push data) data := by
  rw [push_eq fits]
  exact readPush_form (PushForm.chosen_carries fits)

theorem push_ne_nil (data : Bytes) : push data ≠ [] := by
  have size := push_length data
  intro empty
  rw [empty, List.length_nil, pushLen] at size
  split_ifs at size

theorem parseOptCcParams_eq (evalCode : UInt8) {data : List Bytes}
    (fits : ∀ d ∈ data, d.length < 2 ^ 32) :
    parseOptCcParams (scriptParams evalCode data) =
      .ok (wellKnownParams evalCode data) := by
  have each : ∀ d ∈ optCcParams evalCode 1 1 NOTARY_EVIDENCE_CC_PUBKEY data,
      Decodes readPush (push d) (id d) := by
    intro d member
    rw [optCcParams, List.mem_cons, List.mem_cons] at member
    rcases member with rfl | rfl | member
    · exact readPush_decodes (Nat.lt_of_lt_of_le (by decide : 4 < 5) (by decide))
    · exact readPush_decodes (by decide)
    · exact readPush_decodes (fits d member)
  have all := Decodes.sequence ReadError.leftover
    (optCcParams evalCode 1 1 NOTARY_EVIDENCE_CC_PUBKEY data) push id each
    (fun d _ => push_ne_nil d)
  rw [List.map_id] at all
  rw [parseOptCcParams, scriptParams, all]
  rfl

theorem readOpcode_decodes (op : UInt8) : Decodes (readOpcode op) [op] ⟨⟩ := by
  have check := require_decodes (rfl : op = op) ReadError.wrongScript
  have h := (readByte_decodes op).bind (f := fun b => require (b = op) .wrongScript) check
  rwa [List.append_nil] at h

theorem readScript_decodes {notaryEvidence : Bytes}
    (fits : 39 + pushLen notaryEvidence.length < 2 ^ 32) :
    Decodes readScript (evidenceScript notaryEvidence)
      (scriptParams EVAL_NONE [], scriptParams EVAL_NOTARY_EVIDENCE [notaryEvidence]) := by
  have masterFits : (scriptParams EVAL_NONE []).length < 2 ^ 32 := by
    rw [masterParams_length]
    decide
  have paramsFit : (scriptParams EVAL_NOTARY_EVIDENCE [notaryEvidence]).length < 2 ^ 32 := by
    rw [evidenceParams_length]
    exact fits
  refine (readPush_decodes masterFits).bind ?_
  refine (readOpcode_decodes OP_CHECKCRYPTOCONDITION).bind ?_
  refine (readPush_decodes paramsFit).bind ?_
  exact (readOpcode_decodes OP_DROP).map (fun _ => (scriptParams EVAL_NONE [], _))

theorem scriptEvidence_eq {notaryEvidence : Bytes}
    (fits : 39 + pushLen notaryEvidence.length < 2 ^ 32) :
    scriptEvidence (evidenceScript notaryEvidence) = .ok notaryEvidence := by
  have item : notaryEvidence.length < 2 ^ 32 := evidence_fits fits
  have none : ∀ d ∈ ([] : List Bytes), d.length < 2 ^ 32 := by simp
  have single : ∀ d ∈ [notaryEvidence], d.length < 2 ^ 32 := by simpa using item
  have master := parseOptCcParams_eq EVAL_NONE none
  have params := parseOptCcParams_eq EVAL_NOTARY_EVIDENCE single
  rw [scriptEvidence, (readScript_decodes fits).toEnd .leftover]
  simp only [bind, Except.bind, master, params]
  exact if_pos ⟨trivial, rfl⟩

/-! ## The script determines its evidence -/

/-- `write_push` announces the data in a form that carries its length, and in no longer one
than any form that does. -/
def ShortestPush (data : Bytes) : Prop :=
  ∃ form : PushForm, data.length ≤ form.maxLen ∧
    (∀ buf, writePush buf data = buf ++ form.header data.length ++ data) ∧
    ∀ other : PushForm, data.length ≤ other.maxLen →
      (form.header data.length).length ≤ (other.header data.length).length

theorem shortestPush {data : Bytes} (fits : data.length < 2 ^ 32) : ShortestPush data := by
  refine ⟨PushForm.chosen data.length, PushForm.chosen_carries fits, ?_, ?_⟩
  · intro buf
    rw [writePush_eq, push_eq fits, List.append_assoc]
  · intro other carries
    exact PushForm.chosen_shortest carries

/-- A script whose parameters can be pushed is taken apart in front of any suffix, down to its
evidence, which it determines; every push is the shortest, and scripts grow with evidence. -/
theorem evidenceScript_roundtrip (notaryEvidence : Bytes)
    (fits : (scriptParams EVAL_NOTARY_EVIDENCE [notaryEvidence]).length < 2 ^ 32) :
    ∃ script master params : Bytes,
      (∀ buf, writeEvalNotaryEvidenceScript buf notaryEvidence = buf ++ script) ∧
      (∀ before suffix, readScript (before ++ script ++ suffix) before.length =
        .ok ((master, params), before.length + script.length)) ∧
      parseOptCcParams master = .ok (wellKnownParams EVAL_NONE []) ∧
      parseOptCcParams params = .ok (wellKnownParams EVAL_NOTARY_EVIDENCE [notaryEvidence]) ∧
      (∀ data ∈ [master, params] ++ optCcParams EVAL_NONE 1 1 NOTARY_EVIDENCE_CC_PUBKEY [] ++
        optCcParams EVAL_NOTARY_EVIDENCE 1 1 NOTARY_EVIDENCE_CC_PUBKEY [notaryEvidence],
        ShortestPush data) ∧
      (∀ other, (scriptParams EVAL_NOTARY_EVIDENCE [other]).length < 2 ^ 32 →
        writeEvalNotaryEvidenceScript [] other = script → other = notaryEvidence) ∧
      ∀ longer : Bytes, notaryEvidence.length < longer.length →
        script.length < (writeEvalNotaryEvidenceScript [] longer).length := by
  have params := fits
  rw [evidenceParams_length] at params
  have item : notaryEvidence.length < 2 ^ 32 := evidence_fits params
  have single : ∀ d ∈ [notaryEvidence], d.length < 2 ^ 32 := by simpa using item
  refine ⟨evidenceScript notaryEvidence, scriptParams EVAL_NONE [],
    scriptParams EVAL_NOTARY_EVIDENCE [notaryEvidence],
    fun buf => writeEvalNotaryEvidenceScript_eq buf notaryEvidence, readScript_decodes params,
    parseOptCcParams_eq EVAL_NONE (by simp), parseOptCcParams_eq EVAL_NOTARY_EVIDENCE single,
    ?_, ?_, ?_⟩
  · intro data member
    apply shortestPush
    simp only [optCcParams, List.cons_append, List.nil_append, List.mem_cons, List.not_mem_nil,
      or_false] at member
    rcases member with rfl | rfl | rfl | rfl | rfl | rfl | rfl
    · rw [masterParams_length]
      decide
    · exact fits
    · exact (by decide : 4 < 2 ^ 32)
    · exact (by decide : 33 < 2 ^ 32)
    · exact (by decide : 4 < 2 ^ 32)
    · exact (by decide : 33 < 2 ^ 32)
    · exact item
  · intro other fits' same
    rw [evidenceParams_length] at fits'
    rw [writeEvalNotaryEvidenceScript_eq, List.nil_append] at same
    have found := scriptEvidence_eq fits'
    rw [same, scriptEvidence_eq params] at found
    exact (Except.ok.inj found).symm
  · intro longer more
    have nested := pushLen_lt (Nat.add_lt_add_left (pushLen_lt more) 39)
    rw [writeEvalNotaryEvidenceScript_eq, List.nil_append, evidenceScript_length,
      evidenceScript_length]
    omega

/-- An evidence of 256 bytes changes the form of the inner push and of the outer one. -/
theorem evidenceScript_roundtrip_wide :
    ∃ script : Bytes,
      writeEvalNotaryEvidenceScript [] (List.replicate 256 7) = script ∧
      scriptEvidence script = .ok (List.replicate 256 7) := by
  have size : (List.replicate 256 (7 : UInt8)).length = 256 := List.length_replicate
  obtain ⟨script, master, params, written, read, none, one, _⟩ :=
    evidenceScript_roundtrip (List.replicate 256 7) (by
      rw [evidenceParams_length, size]
      decide)
  refine ⟨script, written [], ?_⟩
  have whole := Decodes.toEnd .leftover read
  rw [scriptEvidence, whole]
  simp only [bind, Except.bind, none, one]
  exact if_pos ⟨trivial, rfl⟩

end CmmEncrypt.Script
