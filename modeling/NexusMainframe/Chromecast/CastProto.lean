import NexusMainframe.Lib.Machine
import NexusMainframe.Lib.Protobuf
import Mathlib.Data.UInt

/-!
# Cast messages

A cast message is encoded as a protocol buffers message of six fields. The decoder takes
fields of the wire types 0 and 2 in any order and fails on any other. It adds a length that
it reads to its position in 64 bits, so a length close to `2 ^ 64` passes its bounds check;
the string that is assigned then throws.
-/

namespace NexusMainframe

/-- The string fields of a message; the payload is always a text. -/
structure CastMessage where
  sourceId : Bytes := []
  destinationId : Bytes := []
  namespaceUri : Bytes := []
  payloadUtf8 : Bytes := []
deriving DecidableEq

namespace CastProto

open Protobuf

/-! ### Encoder -/

/-- The bytes that `writeVarint` appends. -/
def writeVarint (v : UInt64) : Bytes :=
  if v > 0x7F then ((v &&& 0x7F) ||| 0x80).toUInt8 :: writeVarint (v >>> 7)
  else [v.toUInt8]
termination_by v.toNat
decreasing_by
  have hv : 0x7F < v.toNat := UInt64.lt_iff_toNat_lt.mp ‹v > 0x7F›
  rw [UInt64.toNat_shiftRight, Nat.shiftRight_eq_div_pow]
  apply Nat.div_lt_self
  · omega
  · decide

/-- `writeTag`: the number of a field and its wire type in one varint. -/
def writeTag (field wireType : UInt64) : Bytes :=
  writeVarint ((field <<< 3) ||| wireType)

/-- `writeVarintField`. -/
def writeVarintField (field v : UInt64) : Bytes :=
  writeTag field 0 ++ writeVarint v

/-- `writeStringField`: a tag, the length and the bytes. -/
def writeStringField (field : UInt64) (s : Bytes) : Bytes :=
  writeTag field 2 ++ writeVarint (UInt64.ofNat s.length) ++ s

/-- `encodeCastMessage`: the six fields, with version and payload type 0. -/
def encodeCastMessage (msg : CastMessage) : Bytes :=
  writeVarintField 1 0
    ++ writeStringField 2 msg.sourceId
    ++ writeStringField 3 msg.destinationId
    ++ writeStringField 4 msg.namespaceUri
    ++ writeVarintField 5 0
    ++ writeStringField 6 msg.payloadUtf8

/-! ### Decoder -/

/-- The loop of `readVarint`, on what is left of the data. -/
def readVarintLoop (shift : Nat) (out : UInt64) : Bytes → Option (UInt64 × Bytes)
  | [] => none
  | b :: rest =>
      let out := out ||| ((b &&& 0x7F).toUInt64 <<< UInt64.ofNat shift)
      if b &&& 0x80 = 0 then some (out, rest)
      else if shift + 7 ≥ 64 then none
      else readVarintLoop (shift + 7) out rest

/-- `readVarint` from where the reader stands. -/
def readVarint (rest : Bytes) : Option (UInt64 × Bytes) :=
  readVarintLoop 0 0 rest

/-- Why no message comes of the data: the decoder gives up, or `std::string::assign`
throws. -/
inductive Failure where
  | nullopt
  | lengthError
deriving DecidableEq

/-- The `max_size` of a string. -/
def maxSize : Nat :=
  2 ^ 63 - 1

/-- `readStringField` on data of `size` bytes, of which `rest` is left. -/
def readStringField (size : Nat) (rest : Bytes) : Except Failure (Bytes × Bytes) :=
  match readVarint rest with
  | none => .error .nullopt
  | some (len, rest) =>
      let pos := size - rest.length
      if UInt64.ofNat pos + len > UInt64.ofNat size then .error .nullopt
      else if len.toNat > maxSize then .error .lengthError
      else .ok (rest.take len.toNat, rest.drop len.toNat)

/-- The `switch` over the field number. -/
def setField (msg : CastMessage) (fieldNum : Int) (s : Bytes) : CastMessage :=
  if fieldNum = 2 then { msg with sourceId := s }
  else if fieldNum = 3 then { msg with destinationId := s }
  else if fieldNum = 4 then { msg with namespaceUri := s }
  else if fieldNum = 6 then { msg with payloadUtf8 := s }
  else msg

/-- One round of the decoder's loop: the message with the field that was read, and what is
left. -/
def decodeField (size : Nat) (msg : CastMessage) (rest : Bytes) :
    Except Failure (CastMessage × Bytes) :=
  match readVarint rest with
  | none => .error .nullopt
  | some (tag, rest) =>
      let fieldNum := Machine.wrapInt32 (tag >>> 3).toNat
      let wireType := Machine.wrapInt32 (tag &&& 0x7).toNat
      if wireType = 0 then
        match readVarint rest with
        | none => .error .nullopt
        | some (_, rest) => .ok (msg, rest)
      else if wireType = 2 then
        (readStringField size rest).map fun p => (setField msg fieldNum p.1, p.2)
      else .error .nullopt

/-! ### Base-128 numbers -/

/-- The test for another byte. -/
theorem gt_iff (v : UInt64) :
  v > 0x7F ↔ ¬ v.toNat < 128
  := by
  rw [gt_iff_lt, UInt64.lt_iff_toNat_lt, Nat.not_lt]
  rfl

/-- `writeVarint` writes the base-128 form. -/
theorem writeVarint_eq_encode
    {k : Nat} {v : UInt64} (h : v.toNat < 128 ^ (k + 1)) :
  writeVarint v = Varint.encode (k + 1) v.toNat
  := by
  induction k generalizing v with
  | zero =>
      have hv : v.toNat < 128 := by simpa using h
      rw [writeVarint, if_neg (by rw [gt_iff]; simpa using hv), Varint.encode, if_pos hv]
      rfl
  | succ k ih =>
      rw [writeVarint, Varint.encode]
      by_cases hv : v.toNat < 128
      · rw [if_neg (by rw [gt_iff]; simpa using hv), if_pos hv]
        rfl
      · have hshift : (v >>> 7).toNat = v.toNat / 128 := by
          rw [UInt64.toNat_shiftRight, Nat.shiftRight_eq_div_pow]
          rfl
        have hbyte : ((v &&& 0x7F) ||| 0x80).toUInt8 = UInt8.ofNat (v.toNat % 128 + 128) := by
          have hor := Nat.two_pow_add_eq_or_of_lt (Nat.mod_lt v.toNat (by decide : 0 < 2 ^ 7)) 1
          apply UInt8.toNat_inj.mp
          rw [UInt64.toNat_toUInt8, UInt64.toNat_or, UInt64.toNat_and, UInt8.toNat_ofNat']
          have hand : v.toNat &&& (0x7F : UInt64).toNat = v.toNat % 2 ^ 7 :=
            Nat.and_two_pow_sub_one_eq_mod v.toNat 7
          have h80 : (0x80 : UInt64).toNat = 2 ^ 7 * 1 := rfl
          rw [hand, h80, Nat.or_comm, ← hor, Nat.add_comm]
        have hdiv : (v >>> 7).toNat < 128 ^ (k + 1) := by
          rw [hshift]
          rw [pow_succ'] at h
          omega
        rw [if_pos (by rw [gt_iff]; exact hv), if_neg hv, ih hdiv, hbyte, hshift]

/-- The continuation bit. -/
theorem and_continuation (b : UInt8) :
  b &&& 0x80 = 0 ↔ b.toNat < 128
  := by
  have hbit : b.toNat &&& 2 ^ 7 = (b.toNat.testBit 7).toNat * 2 ^ 7 := Nat.and_two_pow b.toNat 7
  have hlt := b.toNat_lt
  rw [← UInt8.toNat_inj, UInt8.toNat_and]
  change b.toNat &&& 2 ^ 7 = 0 ↔ b.toNat < 128
  rw [hbit, Nat.testBit_eq_decide_div_mod_eq]
  by_cases hb : b.toNat / 2 ^ 7 % 2 = 1 <;> simp <;> omega

/-- The digit in a byte. -/
theorem and_digit (b : UInt8) :
  (b &&& 0x7F).toUInt64 = UInt64.ofNat (b.toNat % 128)
  := by
  have hand : b.toNat &&& (0x7F : UInt8).toNat = b.toNat % 2 ^ 7 :=
    Nat.and_two_pow_sub_one_eq_mod b.toNat 7
  apply UInt64.toNat_inj.mp
  rw [UInt8.toNat_toUInt64, UInt8.toNat_and, hand, UInt64.toNat_ofNat']
  omega

/-- The digits are shifted in from bit `shift` on, and ten of them are read at most. -/
theorem readVarintLoop_eq
    {k shift : Nat} (h : shift + 7 * (k + 1) = 70) (out : UInt64) (rest : Bytes) :
  readVarintLoop shift out rest
    = (Varint.decode (k + 1) rest).map fun p => (out ||| UInt64.ofNat (p.1 <<< shift), p.2)
  := by
  induction rest generalizing k shift out with
  | nil => rfl
  | cons b rest ih =>
      have hbits : (b &&& 0x7F).toUInt64 <<< UInt64.ofNat shift
          = UInt64.ofNat ((b.toNat % 128) <<< shift) := by
        rw [and_digit, UInt64.ofNat_shiftLeft _ _ (by omega)]
      rw [readVarintLoop, Varint.decode, hbits]
      by_cases hb : b.toNat < 128
      · rw [if_pos ((and_continuation b).mpr hb), if_pos hb, Nat.mod_eq_of_lt hb]
        rfl
      · rw [if_neg (by rw [and_continuation]; exact hb), if_neg hb]
        cases k with
        | zero =>
            rw [if_pos (by omega), Varint.decode]
            rfl
        | succ k =>
            rw [if_neg (by omega), ih (k := k) (by omega), Option.map_map]
            congr 1
            funext p
            have hsum : (b.toNat % 128) <<< shift ||| p.1 <<< (shift + 7)
                = (b.toNat - 128 + 128 * p.1) <<< shift := by
              have hmod : b.toNat % 128 = b.toNat - 128 := by
                have := b.toNat_lt
                omega
              have hor := Nat.shiftLeft_add_eq_or_of_lt (i := 7) (b := b.toNat - 128)
                (by have := b.toNat_lt; omega) p.1
              rw [Nat.add_comm shift, Nat.shiftLeft_add, ← Nat.shiftLeft_or_distrib, hmod,
                Nat.or_comm, ← hor, Nat.shiftLeft_eq p.1, Nat.mul_comm p.1, Nat.add_comm]
            rw [Function.comp_apply, ← hsum, UInt64.ofNat_or, UInt64.or_assoc]

theorem writeVarint_eq (v : UInt64) :
  writeVarint v = Varint.encode 10 v.toNat
  := by
  apply writeVarint_eq_encode
  exact v.toNat_lt.trans_le (by decide)

/-- `readVarint` reads a base-128 number of at most ten digits, and drops what goes over 64
bits. -/
theorem readVarint_eq (rest : Bytes) :
  readVarint rest = (Varint.decode 10 rest).map fun p => (UInt64.ofNat p.1, p.2)
  := by
  rw [readVarint, readVarintLoop_eq (k := 9) rfl]
  simp

theorem readVarint_encode
    {n : Nat} (h : n < 2 ^ 64) (rest : Bytes) :
  readVarint (Varint.encode 10 n ++ rest) = some (UInt64.ofNat n, rest)
  := by
  have hn : n < 128 ^ (9 + 1) := h.trans (by decide)
  rw [readVarint_eq, Varint.decode_encode hn]
  rfl

/-- A number takes at least one byte. -/
theorem readVarint_length_lt
    {rest rest' : Bytes} {v : UInt64} (h : readVarint rest = some (v, rest')) :
  rest'.length < rest.length
  := by
  rw [readVarint_eq] at h
  obtain ⟨⟨n, bs⟩, hdecode, heq⟩ := Option.map_eq_some_iff.mp h
  obtain ⟨-, rfl⟩ := Prod.mk.inj heq
  apply Varint.decode_length_lt hdecode

/-! ### The loop over the fields -/

theorem readStringField_length_lt
    {size : Nat} {rest s rest' : Bytes} (h : readStringField size rest = .ok (s, rest')) :
  rest'.length < rest.length
  := by
  unfold readStringField at h
  split at h
  next => cases h
  next len bs hread =>
    have := readVarint_length_lt hread
    dsimp only at h
    split at h
    next => cases h
    next =>
      split at h
      next => cases h
      next =>
        obtain ⟨-, rfl⟩ := Prod.mk.inj (Except.ok.inj h)
        rw [List.length_drop]
        omega

theorem decodeField_length_lt
    {size : Nat} {msg msg' : CastMessage} {rest rest' : Bytes}
    (h : decodeField size msg rest = .ok (msg', rest')) :
  rest'.length < rest.length
  := by
  unfold decodeField at h
  split at h
  next => cases h
  next tag bs htag =>
    have hbs := readVarint_length_lt htag
    dsimp only at h
    split at h
    next =>
      split at h
      next => cases h
      next v bs' hv =>
        have hbs' := readVarint_length_lt hv
        obtain ⟨-, rfl⟩ := Prod.mk.inj (Except.ok.inj h)
        omega
    next =>
      split at h
      next =>
        cases hs : readStringField size bs with
        | error e =>
            rw [hs] at h
            cases h
        | ok p =>
            obtain ⟨s, rest'⟩ := p
            rw [hs] at h
            obtain ⟨-, rfl⟩ := Prod.mk.inj (Except.ok.inj h)
            have := readStringField_length_lt hs
            dsimp only
            omega
      next => cases h

/-- The loop of `decodeCastMessage`. -/
def decodeFields (size : Nat) (msg : CastMessage) (rest : Bytes) : Except Failure CastMessage :=
  if rest = [] then .ok msg
  else
    match _h : decodeField size msg rest with
    | .error e => .error e
    | .ok (msg, rest) => decodeFields size msg rest
termination_by rest.length
decreasing_by apply decodeField_length_lt _h

/-- `decodeCastMessage`. -/
def decodeCastMessage (data : Bytes) : Except Failure CastMessage :=
  decodeFields data.length {} data

/-! ### Decoding what was encoded -/

/-- What a field does to the message. -/
def applyField (msg : CastMessage) : Field → CastMessage
  | .varint _ _ => msg
  | .bytes num s => setField msg (Machine.wrapInt32 num) s

theorem readStringField_encode
    {s : Bytes} {size : Nat} {rest : Bytes} (hs : s.length + rest.length ≤ size)
    (hsize : size < 2 ^ 63) :
  readStringField size (Varint.encode 10 s.length ++ s ++ rest) = .ok (s, rest)
  := by
  have hlen : (UInt64.ofNat s.length).toNat = s.length := by
    rw [UInt64.toNat_ofNat']
    omega
  have hpos : (UInt64.ofNat (size - (s ++ rest).length) + UInt64.ofNat s.length).toNat
      = size - rest.length := by
    rw [UInt64.toNat_add, UInt64.toNat_ofNat', UInt64.toNat_ofNat', List.length_append]
    omega
  have hfits : ¬ UInt64.ofNat (size - (s ++ rest).length) + UInt64.ofNat s.length
      > UInt64.ofNat size := by
    rw [gt_iff_lt, UInt64.lt_iff_toNat_lt, hpos, UInt64.toNat_ofNat']
    omega
  have hmax : ¬ (UInt64.ofNat s.length).toNat > maxSize := by
    rw [hlen, maxSize]
    omega
  rw [readStringField, List.append_assoc, readVarint_encode (by omega)]
  dsimp only
  rw [if_neg hfits, if_neg hmax, hlen, List.take_left, List.drop_left]

theorem tag_shiftRight {num wireType : Nat} (hnum : num < 2 ^ 61) (hwire : wireType < 8) :
  (UInt64.ofNat (num * 8 + wireType) >>> 3).toNat = num
  := by
  rw [UInt64.toNat_shiftRight, UInt64.toNat_ofNat', Nat.shiftRight_eq_div_pow]
  change (num * 8 + wireType) % 2 ^ 64 / 2 ^ 3 = num
  omega

theorem tag_and (num : Nat) {wireType : Nat} (hwire : wireType < 8) :
  (UInt64.ofNat (num * 8 + wireType) &&& 0x7).toNat = wireType
  := by
  rw [UInt64.toNat_and, UInt64.toNat_ofNat']
  change (num * 8 + wireType) % 2 ^ 64 &&& 2 ^ 3 - 1 = wireType
  rw [Nat.and_two_pow_sub_one_eq_mod]
  omega

/-- One round of the loop reads a field. -/
theorem decodeField_encode
    {f : Field} (h : f.Encodable) (msg : CastMessage) {size : Nat} {rest : Bytes}
    (hf : f.encode.length + rest.length ≤ size) (hsize : size < 2 ^ 63) :
  decodeField size msg (f.encode ++ rest) = .ok (applyField msg f, rest)
  := by
  rw [decodeField, Field.encode, List.append_assoc, readVarint_encode (Field.tag_lt h)]
  rw [Field.encode, List.length_append] at hf
  cases f with
  | varint num value =>
      have htype : Machine.wrapInt32 (0 : Nat) = 0 := rfl
      have hand := tag_and num (by decide : 0 < 8)
      rw [Nat.add_zero] at hand
      dsimp only [Field.tag, Field.body]
      rw [hand, if_pos htype, readVarint_encode h.2]
      rfl
  | bytes num value =>
      have htype : Machine.wrapInt32 (2 : Nat) = 2 := rfl
      rw [Field.body, List.length_append] at hf
      dsimp only [Field.tag, Field.body]
      rw [tag_and num (by decide), tag_shiftRight h.1 (by decide), htype, if_neg (by decide),
        if_pos rfl, readStringField_encode (by omega) hsize]
      rfl

/-- The loop applies the fields one after the other. -/
theorem decodeFields_encode
    {fs : List Field} (h : ∀ f ∈ fs, f.Encodable) (msg : CastMessage) {size : Nat}
    (hfs : (fs.flatMap Field.encode).length ≤ size) (hsize : size < 2 ^ 63) :
  decodeFields size msg (fs.flatMap Field.encode) = .ok (fs.foldl applyField msg)
  := by
  induction fs generalizing msg with
  | nil =>
      rw [decodeFields]
      rfl
  | cons f fs ih =>
      obtain ⟨hf, hrest⟩ := List.forall_mem_cons.mp h
      rw [List.flatMap_cons, List.length_append] at hfs
      have hround := decodeField_encode hf msg hfs hsize
      rw [List.flatMap_cons, decodeFields, if_neg (by simp [f.encode_ne_nil])]
      split
      next hread => cases hread.symm.trans hround
      next hread =>
        obtain ⟨rfl, rfl⟩ := Prod.mk.inj (Except.ok.inj (hread.symm.trans hround))
        apply ih hrest _ (by omega)

/-- The fields of a message. -/
def fields (msg : CastMessage) : List Field :=
  [.varint 1 0, .bytes 2 msg.sourceId, .bytes 3 msg.destinationId, .bytes 4 msg.namespaceUri,
    .varint 5 0, .bytes 6 msg.payloadUtf8]

theorem writeTag_eq {num wireType : Nat} (hnum : num < 2 ^ 61) (hwire : wireType < 8) :
  writeTag (UInt64.ofNat num) (UInt64.ofNat wireType) = Varint.encode 10 (num * 8 + wireType)
  := by
  have htag : (UInt64.ofNat num <<< 3) ||| UInt64.ofNat wireType
      = UInt64.ofNat (num * 8 + wireType) := by
    have hshift : UInt64.ofNat (num <<< 3) = UInt64.ofNat num <<< 3 :=
      UInt64.ofNat_shiftLeft num 3 (by decide)
    rw [← hshift, ← UInt64.ofNat_or, ← Nat.shiftLeft_add_eq_or_of_lt (by omega), Nat.shiftLeft_eq]
  rw [writeTag, htag, writeVarint_eq, UInt64.toNat_ofNat', Nat.mod_eq_of_lt (by omega)]

theorem writeStringField_eq
    {num : Nat} {s : Bytes} (h : Field.Encodable (.bytes num s)) :
  writeStringField (UInt64.ofNat num) s = Field.encode (.bytes num s)
  := by
  have htag : writeTag (UInt64.ofNat num) 2 = Varint.encode 10 (num * 8 + 2) :=
    writeTag_eq h.1 (by decide)
  have hlen := h.2
  rw [writeStringField, Field.encode, Field.body, Field.tag, ← htag, writeVarint_eq,
    UInt64.toNat_ofNat', Nat.mod_eq_of_lt (by omega), List.append_assoc]

theorem writeVarintField_eq {num : Nat} (h : num < 2 ^ 61) :
  writeVarintField (UInt64.ofNat num) 0 = Field.encode (.varint num 0)
  := by
  have htag : writeTag (UInt64.ofNat num) 0 = Varint.encode 10 (num * 8 + 0) :=
    writeTag_eq h (by decide)
  rw [writeVarintField, Field.encode, Field.body, Field.tag, ← Nat.add_zero (num * 8), ← htag,
    writeVarint_eq]
  rfl

theorem encodable_fields
    {msg : CastMessage} (h : (encodeCastMessage msg).length < 2 ^ 63) :
  ∀ f ∈ fields msg, f.Encodable
  := by
  simp only [encodeCastMessage, writeStringField, List.length_append] at h
  simp only [fields, List.mem_cons, List.not_mem_nil, or_false, forall_eq_or_imp, forall_eq,
    Field.Encodable]
  omega

/-- A message is encoded as its fields. -/
theorem encodeCastMessage_eq
    {msg : CastMessage} (h : ∀ f ∈ fields msg, f.Encodable) :
  encodeCastMessage msg = (fields msg).flatMap Field.encode
  := by
  simp only [fields, List.mem_cons, List.not_mem_nil, or_false, forall_eq_or_imp, forall_eq] at h
  obtain ⟨-, h2, h3, h4, -, h6⟩ := h
  rw [fields, List.flatMap_cons, List.flatMap_cons, List.flatMap_cons, List.flatMap_cons,
    List.flatMap_cons, List.flatMap_cons, List.flatMap_nil, List.append_nil,
    ← writeVarintField_eq (by decide), ← writeStringField_eq h2, ← writeStringField_eq h3,
    ← writeStringField_eq h4, ← writeVarintField_eq (by decide), ← writeStringField_eq h6]
  simp only [encodeCastMessage, List.append_assoc]
  rfl

/-- A message is decoded from its encoding. -/
theorem decodeCastMessage_encode
    {msg : CastMessage} (h : (encodeCastMessage msg).length < 2 ^ 63) :
  decodeCastMessage (encodeCastMessage msg) = .ok msg
  := by
  have hfields := encodable_fields h
  rw [encodeCastMessage_eq hfields] at h ⊢
  rw [decodeCastMessage, decodeFields_encode hfields _ (le_refl _) h]
  rfl

theorem encodeCastMessage_ne_nil (msg : CastMessage) :
  encodeCastMessage msg ≠ []
  := by
  have hfirst : writeVarintField 1 0 = Field.encode (.varint 1 0) :=
    writeVarintField_eq (by decide)
  simp [encodeCastMessage, hfirst, Field.encode_ne_nil]

end CastProto

end NexusMainframe
