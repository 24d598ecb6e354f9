import NexusMainframe.Chromecast.CastProto

/-!
# Fields of any kind in a cast message

Other encoders than `encodeCastMessage` write fields in another order, more than once, or with
other numbers. The decoder takes the last byte string of each of the fields 2, 3, 4 and 6, and
none of the numbers. It gives up on data that is cut inside a field.
-/

namespace NexusMainframe

namespace CastProto

open Protobuf

/-- A field as the wire format has it: a number below `2 ^ 29`, and a 64-bit number or the bytes
of a string. -/
def Valid : Field → Prop
  | .varint num value => 1 ≤ num ∧ num < 2 ^ 29 ∧ value < 2 ^ 64
  | .bytes num value => 1 ≤ num ∧ num < 2 ^ 29 ∧ value.length ≤ maxSize

instance instDecidableValid (f : Field) : Decidable (Valid f) :=
  match f with
  | .varint num value => inferInstanceAs (Decidable (1 ≤ num ∧ num < 2 ^ 29 ∧ value < 2 ^ 64))
  | .bytes num value =>
      inferInstanceAs (Decidable (1 ≤ num ∧ num < 2 ^ 29 ∧ value.length ≤ maxSize))

theorem Valid.encodable {f : Field} (h : Valid f) :
  f.Encodable
  := by
  cases f with
  | varint num value =>
      obtain ⟨-, hnum, hvalue⟩ := h
      constructor
      · omega
      · apply hvalue
  | bytes num value =>
      obtain ⟨-, hnum, hvalue⟩ := h
      rw [maxSize] at hvalue
      constructor
      · omega
      · omega

/-- The byte strings of a field number, in order. -/
def occurrences (num : Nat) (fs : List Field) : List Bytes :=
  fs.filterMap fun
    | .varint _ _ => none
    | .bytes n value => if n = num then some value else none

/-- The last byte string of a field number, if there is one. -/
def last (num : Nat) (fs : List Field) : Bytes :=
  (occurrences num fs).getLastD []

/-! ### The last byte strings -/

theorem last_concat_varint (num n value : Nat) (fs : List Field) :
  last num (fs ++ [.varint n value]) = last num fs
  := by
  simp [last, occurrences]

theorem last_concat_bytes (num n : Nat) (value : Bytes) (fs : List Field) :
  last num (fs ++ [.bytes n value]) = if n = num then value else last num fs
  := by
  unfold last occurrences
  rw [List.filterMap_append]
  by_cases h : n = num
  · simp [h]
  · simp [h]

/-- The fields of a sequence leave the last byte strings in the message. -/
theorem foldl_applyField {fs : List Field} (h : ∀ f ∈ fs, Valid f) :
  fs.foldl applyField {} = ⟨last 2 fs, last 3 fs, last 4 fs, last 6 fs⟩
  := by
  induction fs using List.reverseRec with
  | nil => rfl
  | append_singleton fs f ih =>
      have hf := h f (by simp)
      rw [List.foldl_concat, ih fun g hg => h g (by simp [hg])]
      cases f with
      | varint n value => simp only [applyField, last_concat_varint]
      | bytes n value =>
          obtain ⟨-, hn, -⟩ := hf
          have hnum : Machine.wrapInt32 n = n := Machine.wrapInt32_of_lt (by omega)
          have h2 : (n : Int) = 2 ↔ n = 2 := Int.natCast_inj (n := 2)
          have h3 : (n : Int) = 3 ↔ n = 3 := Int.natCast_inj (n := 3)
          have h4 : (n : Int) = 4 ↔ n = 4 := Int.natCast_inj (n := 4)
          have h6 : (n : Int) = 6 ↔ n = 6 := Int.natCast_inj (n := 6)
          simp only [applyField, last_concat_bytes, setField, hnum, h2, h3, h4, h6]
          split_ifs <;> first | rfl | omega

/-! ### Rounds of the loop -/

theorem decodeFields_of_ok
    {size : Nat} {msg msg' : CastMessage} {rest rest' : Bytes}
    (h : decodeField size msg rest = .ok (msg', rest')) :
  decodeFields size msg rest = decodeFields size msg' rest'
  := by
  have hlt := decodeField_length_lt h
  have hne : rest ≠ [] := by
    rw [← List.length_pos_iff]
    omega
  rw [decodeFields, if_neg hne]
  split
  next hread => cases hread.symm.trans h
  next hread =>
    obtain ⟨rfl, rfl⟩ := Prod.mk.inj (Except.ok.inj (hread.symm.trans h))
    rfl

theorem decodeFields_of_error
    {size : Nat} {msg : CastMessage} {rest : Bytes} {e : Failure} (hne : rest ≠ [])
    (h : decodeField size msg rest = .error e) :
  decodeFields size msg rest = .error e
  := by
  rw [decodeFields, if_neg hne]
  split
  next hread => rw [← Except.error.inj (hread.symm.trans h)]
  next hread => cases hread.symm.trans h

/-- The fields in front are applied one after the other. -/
theorem decodeFields_append
    {fs : List Field} (h : ∀ f ∈ fs, f.Encodable) (msg : CastMessage) {size : Nat} {rest : Bytes}
    (hfs : (fs.flatMap Field.encode).length + rest.length ≤ size) (hsize : size < 2 ^ 63) :
  decodeFields size msg (fs.flatMap Field.encode ++ rest)
    = decodeFields size (fs.foldl applyField msg) rest
  := by
  induction fs generalizing msg with
  | nil => rfl
  | cons f fs ih =>
      obtain ⟨hf, hrest⟩ := List.forall_mem_cons.mp h
      rw [List.flatMap_cons, List.length_append] at hfs
      have hlen : f.encode.length + (fs.flatMap Field.encode ++ rest).length ≤ size := by
        rw [List.length_append]
        omega
      rw [List.flatMap_cons, List.append_assoc,
        decodeFields_of_ok (decodeField_encode hf msg hlen hsize), ih hrest _ (by omega)]
      rfl

/-! ### Data that is cut -/

theorem readVarint_of_prefix
    {n : Nat} {front : Bytes} (h : front <+: Varint.encode 10 n)
    (hne : front ≠ Varint.encode 10 n) :
  readVarint front = none
  := by
  rw [readVarint_eq, Varint.decode_of_prefix h hne, Option.map_none]

/-- A front of two pieces is one of the first piece, or all of it and a front of the second. -/
theorem prefix_append_cases {a b front : Bytes} (h : front <+: a ++ b) (hne : front ≠ a ++ b) :
  (front <+: a ∧ front ≠ a) ∨ ∃ front', front = a ++ front' ∧ front' <+: b ∧ front' ≠ b
  := by
  by_cases hpre : a <+: front
  · obtain ⟨front', rfl⟩ := hpre
    right
    use front', rfl, (List.prefix_append_right_inj a).mp h
    intro heq
    apply hne
    rw [heq]
  · left
    use (List.prefix_or_prefix_of_prefix h (List.prefix_append a b)).resolve_right hpre
    rintro rfl
    apply hpre (List.prefix_refl _)

/-- A string field that is cut ends in front of the end that its length announces. -/
theorem readStringField_of_prefix
    {value front : Bytes} {size : Nat} (hvalue : value.length ≤ maxSize)
    (h : front <+: Varint.encode 10 value.length ++ value)
    (hne : front ≠ Varint.encode 10 value.length ++ value) (hfront : front.length ≤ size)
    (hsize : size < 2 ^ 63) :
  readStringField size front = .error .nullopt
  := by
  rw [maxSize] at hvalue
  rcases prefix_append_cases h hne with ⟨hpre, hcut⟩ | ⟨front', rfl, hpre, hcut⟩
  · rw [readStringField, readVarint_of_prefix hpre hcut]
  · have hlt : front'.length < value.length := by
      have hle := hpre.length_le
      have hneq : front'.length ≠ value.length := fun heq => hcut (hpre.eq_of_length heq)
      omega
    rw [List.length_append] at hfront
    have hover : UInt64.ofNat (size - front'.length) + UInt64.ofNat value.length
        > UInt64.ofNat size := by
      rw [gt_iff_lt, UInt64.lt_iff_toNat_lt, UInt64.toNat_add, UInt64.toNat_ofNat',
        UInt64.toNat_ofNat', UInt64.toNat_ofNat']
      omega
    rw [readStringField, readVarint_encode (by omega)]
    dsimp only
    rw [if_pos hover]

/-- A round on a field that is cut gives up. -/
theorem decodeField_of_prefix
    {f : Field} (hf : Valid f) (msg : CastMessage) {size : Nat} {front : Bytes}
    (h : front <+: f.encode) (hne : front ≠ f.encode) (hfront : front.length ≤ size)
    (hsize : size < 2 ^ 63) :
  decodeField size msg front = .error .nullopt
  := by
  rw [Field.encode] at h hne
  rcases prefix_append_cases h hne with ⟨hpre, hcut⟩ | ⟨front', rfl, hpre, hcut⟩
  · rw [decodeField, readVarint_of_prefix hpre hcut]
  · rw [decodeField, readVarint_encode (Field.tag_lt hf.encodable)]
    cases f with
    | varint num value =>
        have htype : Machine.wrapInt32 (0 : Nat) = 0 := rfl
        have hand := tag_and num (by decide : 0 < 8)
        rw [Nat.add_zero] at hand
        dsimp only [Field.tag]
        rw [hand, if_pos htype, readVarint_of_prefix hpre hcut]
    | bytes num value =>
        have htype : Machine.wrapInt32 (2 : Nat) = 2 := rfl
        obtain ⟨-, -, hvalue⟩ := hf
        rw [List.length_append] at hfront
        dsimp only [Field.tag]
        rw [tag_and num (by decide), htype, if_neg (by decide), if_pos rfl,
          readStringField_of_prefix hvalue hpre hcut (by omega) hsize]
        rfl

/-- A prefix of an encoded sequence that ends inside a field, by its length. -/
def EndsInside (fs : List Field) (n : Nat) : Prop :=
  ∃ before f after, fs = before ++ f :: after ∧ (before.flatMap Field.encode).length < n
    ∧ n < ((before ++ [f]).flatMap Field.encode).length

theorem decodeCastMessage_take
    {fs : List Field} (h : ∀ f ∈ fs, Valid f) {n : Nat} (hn : n < 2 ^ 63)
    (hinside : EndsInside fs n) :
  decodeCastMessage ((fs.flatMap Field.encode).take n) = .error .nullopt
  := by
  obtain ⟨before, f, after, rfl, hlt, hgt⟩ := hinside
  obtain ⟨k, rfl⟩ := Nat.exists_eq_add_of_le hlt.le
  rw [List.flatMap_append, List.flatMap_singleton, List.length_append] at hgt
  have hf := h f (by simp)
  have htake : ((before ++ f :: after).flatMap Field.encode).take
      ((before.flatMap Field.encode).length + k)
        = before.flatMap Field.encode ++ f.encode.take k := by
    rw [List.flatMap_append, List.take_length_add_append, List.flatMap_cons,
      List.take_append_of_le_length (by omega)]
  have hlen : (f.encode.take k).length = k := by
    rw [List.length_take]
    omega
  have hne : f.encode.take k ≠ f.encode := by
    intro heq
    have := congrArg List.length heq
    omega
  rw [htake, decodeCastMessage, decodeFields_append (fun g hg => (h g (by simp [hg])).encodable) _
    (by rw [List.length_append]) (by rw [List.length_append]; omega)]
  apply decodeFields_of_error
  · rw [← List.length_pos_iff]
    omega
  · apply decodeField_of_prefix hf _ (List.take_prefix _ _) hne
    · rw [List.length_append]
      omega
    · rw [List.length_append]
      omega

/-- The message of a sequence of fields, of data that is cut inside one of them, and of an
encoded message. A buffer has fewer than `2 ^ 63` bytes. -/
theorem decodeCastMessage_isLast
    (fs : List Field) (h : ∀ f ∈ fs, Valid f) :
  ((fs.flatMap Field.encode).length < 2 ^ 63 →
      decodeCastMessage (fs.flatMap Field.encode)
        = .ok { sourceId := last 2 fs, destinationId := last 3 fs, namespaceUri := last 4 fs,
                payloadUtf8 := last 6 fs })
    ∧ (∀ n < 2 ^ 63, EndsInside fs n →
        decodeCastMessage ((fs.flatMap Field.encode).take n) = .error .nullopt)
    ∧ ∀ msg, (encodeCastMessage msg).length < 2 ^ 63 →
        decodeCastMessage (encodeCastMessage msg) = .ok msg
  := by
  constructor
  · intro hsize
    rw [decodeCastMessage, decodeFields_encode (fun f hf => (h f hf).encodable) _ (le_refl _) hsize,
      foldl_applyField h]
  · constructor
    · intro n hn hinside
      apply decodeCastMessage_take h hn hinside
    · intro msg hmsg
      apply decodeCastMessage_encode hmsg

/-- Two sources, a number in the place of a destination, an unknown field, and a cut inside the
first field. -/
theorem decodeCastMessage_isLast_repeated :
  let fs := [Field.bytes 2 [0x61], .varint 3 7, .bytes 2 [0x62], .bytes 99 [0x63, 0x64]]
  decodeCastMessage (fs.flatMap Field.encode)
      = .ok { sourceId := [0x62], destinationId := [], namespaceUri := [], payloadUtf8 := [] }
    ∧ decodeCastMessage ((fs.flatMap Field.encode).take 2) = .error .nullopt
    ∧ decodeCastMessage (encodeCastMessage {}) = .ok {}
  := by
  intro fs
  have hvalid : ∀ f ∈ fs, Valid f := by
    decide
  obtain ⟨hlast, hcut, hround⟩ := decodeCastMessage_isLast fs hvalid
  constructor
  · exact hlast (by decide)
  · constructor
    · apply hcut 2 (by decide)
      use [], .bytes 2 [0x61], [.varint 3 7, .bytes 2 [0x62], .bytes 99 [0x63, 0x64]], rfl
      decide
    · apply hround {}
      have hfields : ∀ f ∈ fields {}, f.Encodable := by
        intro f hf
        apply Valid.encodable
        revert f
        decide
      rw [encodeCastMessage_eq hfields]
      decide

end CastProto

end NexusMainframe
