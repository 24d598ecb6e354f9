import NexusMainframe.Lib.Varint

/-!
# The protocol buffers wire format

A message is a sequence of fields. A field begins with a tag, the field number and the wire
type in one base-128 number, and holds a base-128 number (wire type 0) or a byte string
with its length in front (wire type 2).
-/

namespace Protobuf

/-- A field of wire type 0 or 2. -/
inductive Field where
  | varint (num value : Nat)
  | bytes (num : Nat) (value : Bytes)

namespace Field

/-- The tag in front of a field. -/
def tag : Field → Nat
  | varint num _ => num * 8
  | bytes num _ => num * 8 + 2

/-- What follows the tag. -/
def body : Field → Bytes
  | varint _ value => Varint.encode 10 value
  | bytes _ value => Varint.encode 10 value.length ++ value

/-- The bytes of a field. -/
def encode (f : Field) : Bytes :=
  Varint.encode 10 f.tag ++ f.body

/-- The tag, and the number or the length, are 64-bit numbers. -/
def Encodable : Field → Prop
  | varint num value => num < 2 ^ 61 ∧ value < 2 ^ 64
  | bytes num value => num < 2 ^ 61 ∧ value.length < 2 ^ 64

theorem tag_lt {f : Field} (h : f.Encodable) :
  f.tag < 2 ^ 64
  := by
  cases f with
  | varint num value =>
      have := h.1
      rw [tag]
      omega
  | bytes num value =>
      have := h.1
      rw [tag]
      omega

theorem encode_ne_nil (f : Field) :
  f.encode ≠ []
  := by
  rw [encode, Varint.encode]
  split <;> simp

end Field

/-! ### Reading fields -/

/-- The number in front of a byte string, of ten digits at most, without the bits that go over
64, and what follows it. -/
def number (bs : Bytes) : Option (Nat × Bytes) :=
  (Varint.decode 10 bs).map fun p => (p.1 % 2 ^ 64, p.2)

/-- What is left of the data behind some complete fields. -/
inductive Behind (data : Bytes) : Bytes → Prop where
  | start : Behind data data
  | varint {bs bs' rest tag value} (h : Behind data bs) (htag : number bs = some (tag, bs'))
      (htype : tag % 8 = 0) (hvalue : number bs' = some (value, rest)) : Behind data rest
  | bytes {bs bs' rest tag len} (h : Behind data bs) (htag : number bs = some (tag, bs'))
      (htype : tag % 8 = 2) (hlen : number bs' = some (len, rest)) (hle : len ≤ rest.length) :
      Behind data (rest.drop len)

/-- Behind some complete fields stands a tag of wire type 2, and then the length `len`, and
`rest` follows. -/
def Announces (data : Bytes) (len : Nat) (rest : Bytes) : Prop :=
  ∃ bs bs' tag, Behind data bs ∧ number bs = some (tag, bs') ∧ tag % 8 = 2 ∧
    number bs' = some (len, rest)

theorem number_length_lt
    {bs rest : Bytes} {n : Nat} (h : number bs = some (n, rest)) :
  rest.length < bs.length
  := by
  obtain ⟨⟨m, r⟩, hdecode, heq⟩ := Option.map_eq_some_iff.mp h
  obtain ⟨-, rfl⟩ := Prod.mk.inj heq
  apply Varint.decode_length_lt hdecode

theorem Behind.length_le {data rest : Bytes} (h : Behind data rest) :
  rest.length ≤ data.length
  := by
  induction h with
  | start => apply le_refl
  | varint _ htag _ hvalue ih =>
      have := number_length_lt htag
      have := number_length_lt hvalue
      omega
  | bytes _ htag _ hlen _ ih =>
      have := number_length_lt htag
      have := number_length_lt hlen
      rw [List.length_drop]
      omega

theorem Announces.length_le
    {data rest : Bytes} {len : Nat} (h : Announces data len rest) :
  rest.length ≤ data.length
  := by
  obtain ⟨bs, bs', tag, hbehind, htag, -, hlen⟩ := h
  have := hbehind.length_le
  have := number_length_lt htag
  have := number_length_lt hlen
  omega

end Protobuf
