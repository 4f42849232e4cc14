import CmmEncrypt.Layout

/-!
# CVDXF and CVDXF_Data framing (`vdxf.rs`)

A frame is a 20-byte key, a VARINT version and a length-prefixed body. The reader
is the `IsValid` side of the daemon's framing: every key and version is let
through, and `unwrapFrame` asks for one of each.
-/

namespace CmmEncrypt.Vdxf

open Cursor Wire WireCodec Layout

/-- `DEFAULT_VERSION`. -/
def DEFAULT_VERSION : UInt32 := 1

def DATA_DESCRIPTOR_KEY_LE : ByteArr 20 :=
  ⟨[0x08, 0xa2, 0xeb, 0xb2, 0xc5, 0x5f, 0x83, 0xa8, 0xe2, 0xa4, 0x26, 0xa5, 0x33, 0x20, 0xed, 0x4d,
    0x42, 0x12, 0x4f, 0x4d], rfl⟩

def SIGNATURE_DATA_KEY_LE : ByteArr 20 :=
  ⟨[0x2a, 0xf2, 0xa4, 0x88, 0xd3, 0x17, 0xc7, 0x6a, 0xf6, 0xf7, 0x64, 0xec, 0x2c, 0x04, 0x00, 0x9a,
    0x9e, 0x35, 0x8b, 0xb4], rfl⟩

def CROSS_CHAIN_DATA_REF_KEY_LE : ByteArr 20 :=
  ⟨[0xd6, 0xae, 0x5a, 0xc0, 0x57, 0x1b, 0x22, 0xd1, 0x61, 0x26, 0x1b, 0x87, 0xc7, 0x48, 0xf6, 0xe0,
    0xae, 0xe0, 0x33, 0x4d], rfl⟩

def writeCvdxfHeader (buf : Bytes) (key : ByteArr 20) (version : UInt32) : Bytes :=
  writeVarintU64 (buf ++ key.toList) version.toUInt64

def writeCvdxfData (buf : Bytes) (key : ByteArr 20) (version : UInt32) (data : Bytes) : Bytes :=
  writeCompactSize (writeCvdxfHeader buf key version) (UInt64.ofNat data.length) ++ data

/-- The layout of a frame. -/
def frame (key : ByteArr 20) (version : UInt32) (data : Bytes) : List Field :=
  .raw key.toList :: .varint version.toUInt64 :: varBytes data

theorem writeCvdxfData_render (buf : Bytes) (key : ByteArr 20) (version : UInt32) (data : Bytes) :
    writeCvdxfData buf key version data = buf ++ render (frame key version data) := by
  rw [writeCvdxfData, writeCvdxfHeader, writeVarintU64_render, writeCompactSize_render]
  simp [frame, varBytes, Field.bytes]

theorem frame_length (key : ByteArr 20) (data : Bytes) :
    (render (frame key 1 data)).length =
      21 + compactSizeLen (UInt64.ofNat data.length).toNat + data.length := by
  have version : (varint (UInt32.toUInt64 1)).length = 1 := by decide
  simp only [frame, varBytes, render_cons, render_nil, Field.bytes, List.length_append,
    List.length_nil, List.Vector.toList_length, version, compactSize_length]
  omega

/-! ## Reading frames -/

/-- A CVDXF_Data frame as read. -/
structure Frame where
  key : Bytes
  version : UInt64
  data : Bytes
  deriving DecidableEq, Repr

def readFrame : Read Frame := do
  let key ← readRaw 20
  let version ← readVarint
  let data ← readVarBytes
  pure { key, version, data }

/-- A frame under a given key and version 1. -/
def unwrapFrame (key : ByteArr 20) : Read Bytes := do
  let frame ← readFrame
  require (frame.key = key.toList) .wrongKey
  require (frame.version = 1) .wrongVersion
  pure frame.data

theorem readFrame_decodes (key : ByteArr 20) (version : UInt32) {data : Bytes}
    (fits : data.length ≤ MAX_SIZE.toNat) :
    Decodes readFrame (render (frame key version data))
      { key := key.toList, version := version.toUInt64, data } := by
  refine decodes_cons (readRaw_decodes key.toList_length) ?_
  refine decodes_cons (readVarint_decodes version.toUInt64) ?_
  exact (readVarBytes_decodes fits).map (Frame.mk key.toList version.toUInt64)

theorem unwrapFrame_decodes (key : ByteArr 20) {data : Bytes}
    (fits : data.length ≤ MAX_SIZE.toNat) :
    Decodes (unwrapFrame key) (render (frame key 1 data)) data := by
  have read := readFrame_decodes key 1 fits
  have checks := decodes_require (e := .wrongKey) (rfl : key.toList = key.toList)
    (decodes_require (e := .wrongVersion) (rfl : UInt32.toUInt64 1 = 1) (Decodes.pure data))
  have h := read.bind (f := fun frame => do
    require (frame.key = key.toList) .wrongKey
    require (frame.version = 1) .wrongVersion
    pure frame.data) checks
  rwa [List.append_nil] at h

/-- The key of a frame is the twenty bytes under the cursor, and its body lies behind them. -/
theorem readFrame_ok {buf : Bytes} {c c' : Nat} {frame : Frame}
    (h : readFrame buf c = .ok (frame, c')) :
    frame.key = (buf.drop c).take 20 ∧ frame.data.length + 20 + c ≤ buf.length := by
  obtain ⟨key, c₁, hkey, h⟩ := Reader.bind_ok h
  obtain ⟨version, c₂, hversion, h⟩ := Reader.bind_ok h
  obtain ⟨data, c₃, hdata, h⟩ := Reader.bind_ok h
  obtain ⟨n, c₄, hlength, hbody⟩ := Reader.bind_ok hdata
  obtain ⟨rfl, _⟩ := Reader.pure_ok h
  obtain ⟨keyBytes, keyLength, rfl⟩ := Reader.take_ok hkey
  obtain ⟨dataBytes, _, _⟩ := Reader.take_ok hbody
  have forward₁ := readVarint_advances _ _ _ _ hversion
  have forward₂ := readLength_advances _ _ _ _ hlength
  refine ⟨keyBytes, ?_⟩
  have keyInside := congrArg List.length keyBytes
  have dataInside := congrArg List.length dataBytes
  rw [List.length_take, List.length_drop] at keyInside dataInside
  change data.length + 20 + c ≤ buf.length
  omega

theorem unwrapFrame_ok {key : ByteArr 20} {buf data : Bytes} {c c' : Nat}
    (h : unwrapFrame key buf c = .ok (data, c')) :
    (buf.drop c).take 20 = key.toList ∧ data.length + 20 + c ≤ buf.length := by
  obtain ⟨frame, c₁, hframe, h⟩ := Reader.bind_ok h
  obtain ⟨_, c₂, hkey, h⟩ := Reader.bind_ok h
  obtain ⟨_, c₃, _, h⟩ := Reader.bind_ok h
  obtain ⟨rfl, _⟩ := Reader.pure_ok h
  obtain ⟨keyBytes, inside⟩ := readFrame_ok hframe
  exact ⟨keyBytes.symm.trans (require_ok hkey).1, inside⟩

end CmmEncrypt.Vdxf
