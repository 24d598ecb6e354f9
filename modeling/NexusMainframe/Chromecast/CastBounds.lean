import NexusMainframe.Chromecast.CastProto

/-!
# The bounds of the cast decoder

A length passes the check of `readStringField` if it is at most what is left, or if it takes
the position past `2 ^ 64`. So the decoder stays inside its buffer, and throws nothing, as long
as no length that the fields announce reaches over 64 bits.
-/

namespace NexusMainframe

namespace CastProto

open Protobuf

/-- The bytes of an object, of which there are at most `PTRDIFF_MAX`. -/
structure Buffer where
  bytes : Bytes
  length_le : bytes.length ≤ maxSize

/-- `readStringField` reads the length `len`, in front of `rest`, and the length passes the
check. -/
def Accepts (size : Nat) (bs : Bytes) (len : UInt64) (rest : Bytes) : Prop :=
  readVarint bs = some (len, rest) ∧
    ¬ UInt64.ofNat (size - rest.length) + len > UInt64.ofNat size

/-- The message and what is left of the data at the head of the decoder's loop. -/
inductive Reached (data : Bytes) : CastMessage → Bytes → Prop where
  | start : Reached data {} data
  | field {msg msg' rest rest'} (h : Reached data msg rest)
      (hfield : decodeField data.length msg rest = .ok (msg', rest')) : Reached data msg' rest'

/-- The decoder calls `readStringField` when `bs` is left of the data. -/
def Calls (data bs : Bytes) : Prop :=
  ∃ msg rest tag, Reached data msg rest ∧ readVarint rest = some (tag, bs) ∧
    Machine.wrapInt32 (tag &&& 0x7).toNat = 2

/-- The decoder returns, and takes no more bytes for a string than are left. -/
structure Safe (data : Bytes) : Prop where
  noThrow : decodeCastMessage data ≠ .error .lengthError
  inside : ∀ bs len rest, Calls data bs → Accepts data.length bs len rest →
    len.toNat ≤ rest.length

/-! ### The numbers that are read -/

theorem readVarint_eq_some_iff {bs rest : Bytes} {v : UInt64} :
  readVarint bs = some (v, rest) ↔ number bs = some (v.toNat, rest)
  := by
  rw [readVarint_eq, number]
  cases Varint.decode 10 bs with
  | none => simp
  | some p =>
      have hv : UInt64.ofNat p.1 = v ↔ p.1 % 2 ^ 64 = v.toNat := by
        rw [← UInt64.toNat_inj, UInt64.toNat_ofNat']
      simp only [Option.map_some, Option.some.injEq, Prod.mk.injEq, hv]

/-- A number that is read has 64 bits. -/
theorem exists_readVarint_of_number
    {bs rest : Bytes} {n : Nat} (h : number bs = some (n, rest)) :
  ∃ v : UInt64, v.toNat = n ∧ readVarint bs = some (v, rest)
  := by
  have hlt : n < 2 ^ 64 := by
    obtain ⟨p, -, heq⟩ := Option.map_eq_some_iff.mp h
    have := (Prod.mk.inj heq).1
    omega
  have hv : (UInt64.ofNat n).toNat = n := by
    rw [UInt64.toNat_ofNat', Nat.mod_eq_of_lt hlt]
  use UInt64.ofNat n, hv
  rwa [readVarint_eq_some_iff, hv]

/-- The wire type of a tag. -/
theorem wireType_eq (tag : UInt64) :
  Machine.wrapInt32 (tag &&& 0x7).toNat = (tag.toNat % 8 : Nat)
  := by
  have hand : (tag &&& 0x7).toNat = tag.toNat % 8 := by
    rw [UInt64.toNat_and]
    apply Nat.and_two_pow_sub_one_eq_mod tag.toNat 3
  rw [hand]
  apply Machine.wrapInt32_of_lt
  omega

/-! ### The check of a length -/

/-- The check lets a length pass that wraps around. -/
theorem not_gt_iff
    {size : Nat} {rest : Bytes} (hsize : size ≤ maxSize) (hrest : rest.length ≤ size)
    (len : UInt64) :
  ¬ UInt64.ofNat (size - rest.length) + len > UInt64.ofNat size ↔
    len.toNat ≤ rest.length ∨ 2 ^ 64 ≤ size - rest.length + len.toNat
  := by
  have hlen := len.toNat_lt
  rw [maxSize] at hsize
  rw [gt_iff_lt, UInt64.lt_iff_toNat_lt, UInt64.toNat_add, UInt64.toNat_ofNat',
    UInt64.toNat_ofNat']
  omega

theorem readStringField_of_accepts
    {size : Nat} {bs rest : Bytes} {len : UInt64} (h : Accepts size bs len rest)
    (hlen : len.toNat ≤ maxSize) :
  readStringField size bs = .ok (rest.take len.toNat, rest.drop len.toNat)
  := by
  rw [readStringField, h.1]
  dsimp only
  rw [if_neg h.2, if_neg (Nat.not_lt.mpr hlen)]

/-- A string whose length is missing or does not pass the check ends the decoding; any other is
read, or throws if its length is above `maxSize`. -/
theorem readStringField_cases (size : Nat) (bs : Bytes) :
  readStringField size bs = .error .nullopt
    ∨ ∃ len rest, Accepts size bs len rest
      ∧ (readStringField size bs = .ok (rest.take len.toNat, rest.drop len.toNat)
        ∨ maxSize < len.toNat ∧ readStringField size bs = .error .lengthError)
  := by
  cases hread : readVarint bs with
  | none =>
      left
      rw [readStringField, hread]
  | some p =>
      obtain ⟨len, rest⟩ := p
      by_cases hcheck : UInt64.ofNat (size - rest.length) + len > UInt64.ofNat size
      · left
        rw [readStringField, hread]
        apply if_pos hcheck
      · right
        use len, rest, ⟨hread, hcheck⟩
        rcases Nat.lt_or_ge maxSize len.toNat with hlen | hlen
        · right
          use hlen
          rw [readStringField, hread]
          dsimp only
          rw [if_neg hcheck, if_pos hlen]
        · left
          apply readStringField_of_accepts ⟨hread, hcheck⟩ hlen

/-- A string that is read has a length that passed the check. -/
theorem exists_accepts_of_ok
    {size : Nat} {bs s rest' : Bytes} (h : readStringField size bs = .ok (s, rest')) :
  ∃ len rest, Accepts size bs len rest ∧ rest' = rest.drop len.toNat
  := by
  rcases readStringField_cases size bs with hnone | ⟨len, rest, haccepts, hok | ⟨-, hthrows⟩⟩
  · cases hnone.symm.trans h
  · obtain ⟨-, hrest⟩ := Prod.mk.inj (Except.ok.inj (h.symm.trans hok))
    use len, rest
  · cases hthrows.symm.trans h

/-- A string that throws has a length that passed the check and is above `maxSize`. -/
theorem exists_accepts_of_lengthError
    {size : Nat} {bs : Bytes} (h : readStringField size bs = .error .lengthError) :
  ∃ len rest, Accepts size bs len rest ∧ maxSize < len.toNat
  := by
  rcases readStringField_cases size bs with hnone | ⟨len, rest, haccepts, hok | ⟨hlen, -⟩⟩
  · cases hnone.symm.trans h
  · cases hok.symm.trans h
  · use len, rest

/-! ### One round of the loop -/

theorem decodeField_of_varint
    {size : Nat} {msg : CastMessage} {bs bs' rest : Bytes} {tag v : UInt64}
    (htag : readVarint bs = some (tag, bs')) (htype : tag.toNat % 8 = 0)
    (hv : readVarint bs' = some (v, rest)) :
  decodeField size msg bs = .ok (msg, rest)
  := by
  rw [decodeField, htag]
  dsimp only
  rw [wireType_eq, htype, if_pos Nat.cast_zero, hv]

theorem decodeField_of_bytes
    (size : Nat) (msg : CastMessage) {bs bs' : Bytes} {tag : UInt64}
    (htag : readVarint bs = some (tag, bs')) (htype : tag.toNat % 8 = 2) :
  decodeField size msg bs
    = (readStringField size bs').map
        fun p => (setField msg (Machine.wrapInt32 (tag >>> 3).toNat) p.1, p.2)
  := by
  rw [decodeField, htag]
  dsimp only
  rw [wireType_eq, htype, if_neg (by decide), if_pos Nat.cast_ofNat]

/-- A round that does not give up reads a number, or a byte string. -/
theorem decodeField_cases
    {size : Nat} {msg : CastMessage} {bs : Bytes}
    (h : decodeField size msg bs ≠ .error .nullopt) :
  ∃ tag bs', readVarint bs = some (tag, bs') ∧
    ((tag.toNat % 8 = 0 ∧
        ∃ v rest, readVarint bs' = some (v, rest) ∧ decodeField size msg bs = .ok (msg, rest)) ∨
      tag.toNat % 8 = 2)
  := by
  cases htag : readVarint bs with
  | none =>
      rw [decodeField, htag] at h
      contradiction
  | some p =>
      obtain ⟨tag, bs'⟩ := p
      use tag, bs', rfl
      rw [decodeField, htag] at h
      dsimp only at h
      rw [wireType_eq] at h
      split at h
      next htype =>
        left
        have hzero : tag.toNat % 8 = 0 := by exact_mod_cast htype
        cases hv : readVarint bs' with
        | none =>
            rw [hv] at h
            contradiction
        | some q => exact ⟨hzero, q.1, q.2, rfl, decodeField_of_varint htag hzero hv⟩
      next =>
        split at h
        next htype =>
          right
          exact_mod_cast htype
        next => contradiction

/-! ### The fields that are passed -/

section

variable {data : Bytes}

/-- Behind complete fields stands the head of the loop: their lengths all pass the check. -/
theorem exists_reached_of_behind
    (hdata : data.length ≤ maxSize) {rest : Bytes} (h : Behind data rest) :
  ∃ msg, Reached data msg rest
  := by
  induction h with
  | start => exact ⟨_, .start⟩
  | varint _ htag htype hvalue ih =>
      obtain ⟨msg, hmsg⟩ := ih
      obtain ⟨tag, rfl, hread⟩ := exists_readVarint_of_number htag
      obtain ⟨v, rfl, hv⟩ := exists_readVarint_of_number hvalue
      exact ⟨msg, .field hmsg (decodeField_of_varint hread htype hv)⟩
  | @bytes _ _ rest _ _ hbehind htag htype hlen hle ih =>
      obtain ⟨msg, hmsg⟩ := ih
      have hrest : rest.length ≤ data.length :=
        Announces.length_le ⟨_, _, _, hbehind, htag, htype, hlen⟩
      obtain ⟨tag, rfl, hread⟩ := exists_readVarint_of_number htag
      obtain ⟨len, rfl, hlength⟩ := exists_readVarint_of_number hlen
      have hcheck := (not_gt_iff hdata hrest len).mpr (.inl hle)
      have hs := readStringField_of_accepts ⟨hlength, hcheck⟩ (hle.trans (hrest.trans hdata))
      have hfield := decodeField_of_bytes data.length msg hread htype
      rw [hs] at hfield
      exact ⟨_, .field hmsg hfield⟩

/-- No length that the fields of the data announce takes its position past 64 bits. -/
def Addressable (data : Bytes) : Prop :=
  ∀ len rest, Announces data len rest → data.length - rest.length + len < 2 ^ 64

/-- Where every length is addressable, one that passes the check is at most what is left. -/
theorem Addressable.length_le_of_accepts
    (h : Addressable data) (hdata : data.length ≤ maxSize) {bs bs' rest : Bytes}
    {tag len : UInt64} (hbehind : Behind data bs) (htag : readVarint bs = some (tag, bs'))
    (htype : tag.toNat % 8 = 2) (haccepts : Accepts data.length bs' len rest) :
  len.toNat ≤ rest.length
  := by
  have hannounces : Announces data len.toNat rest :=
    ⟨bs, bs', tag.toNat, hbehind, readVarint_eq_some_iff.mp htag, htype,
      readVarint_eq_some_iff.mp haccepts.1⟩
  have hlt := h _ _ hannounces
  have hcheck := (not_gt_iff hdata hannounces.length_le len).mp haccepts.2
  omega

/-- Where every length is addressable, the loop passes complete fields only. -/
theorem Addressable.behind
    (h : Addressable data) (hdata : data.length ≤ maxSize) {msg : CastMessage} {rest : Bytes}
    (hreached : Reached data msg rest) :
  Behind data rest
  := by
  induction hreached with
  | start => apply Behind.start
  | @field msg msg' bs rest' _ hfield ih =>
      obtain ⟨tag, bs', htag, hcases⟩ := decodeField_cases (by rw [hfield]; nofun)
      have htag' := readVarint_eq_some_iff.mp htag
      rcases hcases with ⟨htype, v, rest, hv, hround⟩ | htype
      · obtain ⟨-, rfl⟩ := Prod.mk.inj (Except.ok.inj (hfield.symm.trans hround))
        apply Behind.varint ih htag' htype (readVarint_eq_some_iff.mp hv)
      · rw [decodeField_of_bytes data.length msg htag htype] at hfield
        cases hs : readStringField data.length bs' with
        | error e =>
            rw [hs] at hfield
            cases hfield
        | ok p =>
            rw [hs] at hfield
            obtain ⟨-, rfl⟩ := Prod.mk.inj (Except.ok.inj hfield)
            obtain ⟨len, rest, haccepts, hdrop⟩ := exists_accepts_of_ok hs
            have hle := h.length_le_of_accepts hdata ih htag htype haccepts
            rw [hdrop]
            apply Behind.bytes ih htag' htype (readVarint_eq_some_iff.mp haccepts.1) hle

theorem Addressable.inside
    (h : Addressable data) (hdata : data.length ≤ maxSize) {bs rest : Bytes} {len : UInt64}
    (hcalls : Calls data bs) (haccepts : Accepts data.length bs len rest) :
  len.toNat ≤ rest.length
  := by
  obtain ⟨msg, bs', tag, hreached, htag, htype⟩ := hcalls
  rw [wireType_eq] at htype
  apply h.length_le_of_accepts hdata (h.behind hdata hreached) htag (by exact_mod_cast htype)
    haccepts

/-- A run of the loop that throws calls `readStringField` where it throws. -/
theorem exists_calls_of_lengthError
    {msg : CastMessage} {rest : Bytes} (hreached : Reached data msg rest)
    (h : decodeFields data.length msg rest = .error .lengthError) :
  ∃ bs, Calls data bs ∧ readStringField data.length bs = .error .lengthError
  := by
  -- The induction is on what is left of the data.
  induction hn : rest.length using Nat.strong_induction_on generalizing msg rest with
  | _ n ih =>
      rw [decodeFields] at h
      split at h
      next => cases h
      next =>
        split at h
        next e hfield =>
          cases h
          obtain ⟨tag, bs, htag, hcases⟩ := decodeField_cases (by rw [hfield]; nofun)
          rcases hcases with ⟨-, v, rest', -, hround⟩ | htype
          · cases hfield.symm.trans hround
          · have hcalls : Calls data bs :=
              ⟨msg, rest, tag, hreached, htag, by rw [wireType_eq, htype]; rfl⟩
            use bs, hcalls
            rw [decodeField_of_bytes data.length msg htag htype] at hfield
            cases hs : readStringField data.length bs with
            | error e =>
                rw [hs] at hfield
                cases hfield
                rfl
            | ok p =>
                rw [hs] at hfield
                cases hfield
        next msg' rest' hfield =>
          have hlt := decodeField_length_lt hfield
          apply ih _ (hn ▸ hlt) (.field hreached hfield) h rfl

end

/-- The decoder is safe on the buffers whose announced lengths all stay within 64 bits when
they are added to their positions. -/
theorem safe_iff (data : Buffer) :
  Safe data.bytes ↔ Addressable data.bytes
  := by
  have hdata := data.length_le
  constructor
  · intro hsafe len rest hannounces
    have hrest := hannounces.length_le
    obtain ⟨bs, bs', tag, hbehind, htag, htype, hlen⟩ := hannounces
    obtain ⟨msg, hreached⟩ := exists_reached_of_behind hdata hbehind
    obtain ⟨tag, rfl, hread⟩ := exists_readVarint_of_number htag
    obtain ⟨len, rfl, hlength⟩ := exists_readVarint_of_number hlen
    by_contra hge
    have hcheck := (not_gt_iff hdata hrest len).mpr (.inr (Nat.not_lt.mp hge))
    have hcalls : Calls data.bytes bs' :=
      ⟨msg, bs, tag, hreached, hread, by rw [wireType_eq, htype]; rfl⟩
    have hle := hsafe.inside _ _ _ hcalls ⟨hlength, hcheck⟩
    rw [maxSize] at hdata
    omega
  · intro haddressable
    have hinside : ∀ bs len rest, Calls data.bytes bs →
        Accepts data.bytes.length bs len rest → len.toNat ≤ rest.length :=
      fun _ _ _ hcalls haccepts => haddressable.inside hdata hcalls haccepts
    refine ⟨?_, hinside⟩
    intro hthrow
    obtain ⟨bs, hcalls, hs⟩ := exists_calls_of_lengthError .start hthrow
    obtain ⟨len, rest, haccepts, hlen⟩ := exists_accepts_of_lengthError hs
    have hle := hinside _ _ _ hcalls haccepts
    obtain ⟨_, bs', tag, hreached, htag, -⟩ := hcalls
    have hrest : rest.length ≤ data.bytes.length := by
      have hnumber := readVarint_eq_some_iff.mp haccepts.1
      have := number_length_lt hnumber
      have := number_length_lt (readVarint_eq_some_iff.mp htag)
      have := (haddressable.behind hdata hreached).length_le
      omega
    omega

/-- A string field whose length is `2 ^ 64 - 1`. -/
def wrapping : Buffer where
  bytes := [0x12, 0xFF, 0xFF, 0xFF, 0xFF, 0xFF, 0xFF, 0xFF, 0xFF, 0xFF, 0x01]
  length_le := by decide

/-- The length takes the position around to 10, and the assignment of the string throws. -/
theorem not_safe_wrapping :
  decodeCastMessage wrapping.bytes = .error .lengthError ∧ ¬ Safe wrapping.bytes
  := by
  have hfield : decodeField 11 {} wrapping.bytes = .error .lengthError := by decide
  have hthrow : decodeCastMessage wrapping.bytes = .error .lengthError := by
    rw [decodeCastMessage, decodeFields, if_neg (by decide)]
    split
    next h =>
      cases h.symm.trans hfield
      rfl
    next h => cases h.symm.trans hfield
  exact ⟨hthrow, fun h => h.noThrow hthrow⟩

end CastProto

end NexusMainframe
