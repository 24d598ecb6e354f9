import NexusMainframe.Lib.Bytes
import Mathlib.Data.UInt

/-!
# WebSocket frames

The base framing of the WebSocket protocol: a byte with the FIN bit and the opcode, the
payload length in one, three or nine bytes with the mask bit in front, the masking key of
a masked frame, and the payload, which in a masked frame is XORed with the key repeated.
-/

namespace WebSocket

/-- A masking key. -/
structure Key where
  bytes : Bytes
  length_bytes : bytes.length = 4

/-- The payload XORed with the key repeated, which masks and unmasks it. -/
def applyMask (key bs : Bytes) : Bytes :=
  bs.mapIdx fun i b => b ^^^ key.getD (i % 4) 0

@[simp]
theorem length_applyMask (key bs : Bytes) :
  (applyMask key bs).length = bs.length
  := by
  simp [applyMask]

@[simp]
theorem applyMask_applyMask (key bs : Bytes) :
  applyMask key (applyMask key bs) = bs
  := by
  apply List.ext_getElem
  · simp
  · intro i _ _
    simp only [applyMask, List.getElem_mapIdx, UInt8.xor_assoc, UInt8.xor_self, UInt8.xor_zero]

/-- A frame, masked or not, with its payload before the mask. -/
structure Frame where
  fin : Bool
  opcode : Fin 16
  mask : Option Key
  payload : Bytes

namespace Frame

/-- The opcodes that are written as numbers rest on this one instance. -/
instance instNeZero : NeZero 16 := ⟨by decide⟩

/-- The byte with the FIN bit and the opcode. -/
def firstByte (fin : Bool) (opcode : Fin 16) : UInt8 :=
  UInt8.ofNat ((if fin then 128 else 0) + opcode)

/-- The byte with the mask bit and the short length, or the kind of the long one. -/
def secondByte (masked : Bool) (n : Fin 128) : UInt8 :=
  UInt8.ofNat ((if masked then 128 else 0) + n)

/-- The short length of a payload: its length, or which long length follows. -/
def shortLength (n : Nat) : Fin 128 :=
  if h : n < 126 then ⟨n, by omega⟩ else if n < 65536 then 126 else 127

/-- The long length that follows the second byte. -/
def longLength (n : Nat) : Bytes :=
  if n < 126 then [] else if n < 65536 then Bytes.bigEndian 2 n else Bytes.bigEndian 8 n

/-- The masking key of a frame, if it has one. -/
def keyBytes : Option Key → Bytes
  | none => []
  | some key => key.bytes

/-- The payload as it is sent. -/
def body (f : Frame) : Bytes :=
  match f.mask with
  | none => f.payload
  | some key => applyMask key.bytes f.payload

/-- What goes before the payload. -/
def header (f : Frame) : Bytes :=
  [firstByte f.fin f.opcode, secondByte f.mask.isSome (shortLength f.payload.length)]
    ++ (longLength f.payload.length ++ keyBytes f.mask)

/-- The bytes of a frame. -/
def encode (f : Frame) : Bytes :=
  f.header ++ f.body

/-- An unfragmented text frame. -/
def text (mask : Option Key) (payload : Bytes) : Frame :=
  ⟨true, 1, mask, payload⟩

theorem firstByte_and (fin : Bool) (opcode : Fin 16) :
  firstByte fin opcode &&& 0x0F = UInt8.ofNat opcode
  := by
  decide +revert

theorem ofNat_opcode_eq (opcode opcode' : Fin 16) :
  UInt8.ofNat opcode = UInt8.ofNat opcode' ↔ opcode = opcode'
  := by
  decide +revert

theorem secondByte_and_mask (masked : Bool) (n : Fin 128) :
  secondByte masked n &&& 0x80 ≠ 0 ↔ masked = true
  := by
  decide +revert

theorem secondByte_and_length (masked : Bool) (n : Fin 128) :
  (secondByte masked n &&& 0x7F).toNat = n
  := by
  decide +revert

@[simp]
theorem length_body (f : Frame) :
  f.body.length = f.payload.length
  := by
  unfold body
  split <;> simp

end Frame

end WebSocket
