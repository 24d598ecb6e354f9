import NexusMainframe.Lib.WebSocket

/-!
# Heads of WebSocket frames

The head of a frame as any peer may write it: two bytes, an extended length of two or eight
bytes if the second byte announces one, and a masking key if it announces one. The extended
length need not be the shortest form of its number, and the payload need not be there.
-/

namespace WebSocket

/-- The bytes in front of a payload, with the lengths that the first two call for. -/
structure Head where
  first : UInt8
  second : UInt8
  extended : Bytes
  key : Bytes
  length_extended : extended.length =
    if (second &&& 0x7F).toNat = 126 then 2 else if (second &&& 0x7F).toNat = 127 then 8 else 0
  length_key : key.length = if second &&& 0x80 ≠ 0 then 4 else 0

namespace Head

/-- The kind of the frame. -/
def opcode (h : Head) : UInt8 :=
  h.first &&& 0x0F

/-- The length of the payload that the head announces. -/
def length (h : Head) : Nat :=
  if h.extended = [] then (h.second &&& 0x7F).toNat else Bytes.ofBigEndian h.extended

/-- The bytes as they are sent. -/
def bytes (h : Head) : Bytes :=
  [h.first, h.second] ++ (h.extended ++ h.key)

end Head

/-- A frame with the payload that its head announces, as it is sent. -/
structure WholeFrame where
  head : Head
  body : Bytes
  length_body : body.length = head.length

namespace WholeFrame

/-- The head with the payload behind it. -/
def bytes (f : WholeFrame) : Bytes :=
  f.head.bytes ++ f.body

end WholeFrame

end WebSocket
