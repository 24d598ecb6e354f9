import NexusMainframe.Lib.Bytes

/-!
# Base-128 variable-length integers

`Varint.encode k n` writes `n` in base 128, the least significant digit first, with the
high bit of a byte set when another byte follows, in at most `k` bytes. `Varint.decode k`
reads such a number off the front of a byte string and fails when `k` bytes do not end it.
-/

namespace Varint

/-- The base-128 form of `n`, cut off after `k` bytes. -/
def encode : Nat → Nat → Bytes
  | 0, _ => []
  | k + 1, n =>
      if n < 128 then [UInt8.ofNat n]
      else UInt8.ofNat (n % 128 + 128) :: encode k (n / 128)

/-- The number in front of a byte string, of at most `k` bytes, and what follows it. -/
def decode : Nat → Bytes → Option (Nat × Bytes)
  | 0, _ => none
  | _ + 1, [] => none
  | k + 1, b :: bs =>
      if b.toNat < 128 then some (b.toNat, bs)
      else (decode k bs).map fun p => (b.toNat - 128 + 128 * p.1, p.2)

/-- A number of more than one digit takes more than one byte. -/
theorem two_le_length_encode
    {k n : Nat} (h : 128 ≤ n) :
  2 ≤ (encode (k + 2) n).length
  := by
  rw [encode, if_neg (by omega), encode]
  split <;> simp

/-- A number of at most `k + 1` digits is read back, and what follows it is left. -/
theorem decode_encode
    {k n : Nat} (h : n < 128 ^ (k + 1)) (rest : Bytes) :
  decode (k + 1) (encode (k + 1) n ++ rest) = some (n, rest)
  := by
  induction k generalizing n with
  | zero =>
      have hb : (UInt8.ofNat n).toNat = n := by
        rw [UInt8.toNat_ofNat']
        omega
      have hn : n < 128 := by omega
      simp [encode, decode, hb, hn]
  | succ k ih =>
      rw [encode]
      split
      next hn =>
        have hb : (UInt8.ofNat n).toNat = n := by
          rw [UInt8.toNat_ofNat']
          omega
        simp [decode, hb, hn]
      next hn =>
        have hb : (UInt8.ofNat (n % 128 + 128)).toNat = n % 128 + 128 := by
          rw [UInt8.toNat_ofNat']
          omega
        have hdiv : n / 128 < 128 ^ (k + 1) := by
          rw [pow_succ'] at h
          omega
        rw [List.cons_append, decode, hb, if_neg (by omega), ih hdiv]
        simp only [Option.map_some, Option.some.injEq, Prod.mk.injEq, and_true]
        omega

/-- A first byte without the high bit is the whole number. -/
theorem decode_cons_of_lt
    (k : Nat) {b : UInt8} (hb : b.toNat < 128) (bs : Bytes) :
  decode (k + 1) (b :: bs) = some (b.toNat, bs)
  := by
  rw [decode, if_pos hb]

/-- Reading a number takes at least one byte. -/
theorem decode_length_lt
    {k n : Nat} {bs rest : Bytes} (h : decode k bs = some (n, rest)) :
  rest.length < bs.length
  := by
  induction k generalizing n bs rest with
  | zero => simp [decode] at h
  | succ k ih =>
      cases bs with
      | nil => simp [decode] at h
      | cons b bs =>
          rw [decode] at h
          split at h
          next =>
            simp only [Option.some.injEq, Prod.mk.injEq] at h
            simp [h.2]
          next =>
            obtain ⟨⟨m, r⟩, hm, hr⟩ := Option.map_eq_some_iff.mp h
            obtain ⟨-, rfl⟩ := Prod.mk.inj hr
            have := ih hm
            simp only [List.length_cons]
            omega

/-- A first byte with the high bit is followed by at least one more byte of the number. -/
theorem decode_cons_length_lt
    {k n : Nat} {b : UInt8} (hb : 128 ≤ b.toNat) {bs rest : Bytes}
    (h : decode k (b :: bs) = some (n, rest)) :
  rest.length < bs.length
  := by
  cases k with
  | zero => simp [decode] at h
  | succ k =>
      rw [decode, if_neg (by omega)] at h
      obtain ⟨⟨m, r⟩, hm, hr⟩ := Option.map_eq_some_iff.mp h
      obtain ⟨-, rfl⟩ := Prod.mk.inj hr
      apply decode_length_lt hm

/-- A number that is cut off is not read. -/
theorem decode_of_prefix
    {k n : Nat} {bs : Bytes} (h : bs <+: encode k n) (hne : bs ≠ encode k n) :
  decode k bs = none
  := by
  induction k generalizing n bs with
  | zero => rfl
  | succ k ih =>
      cases bs with
      | nil => rfl
      | cons b bs =>
          rw [encode] at h hne
          split at h
          next hn =>
            rw [if_pos hn] at hne
            obtain ⟨rfl, hbs⟩ := List.cons_prefix_cons.mp h
            rw [List.prefix_nil.mp hbs] at hne
            exact (hne rfl).elim
          next hn =>
            rw [if_neg hn] at hne
            obtain ⟨rfl, hbs⟩ := List.cons_prefix_cons.mp h
            have hb : ¬ (UInt8.ofNat (n % 128 + 128)).toNat < 128 := by
              rw [UInt8.toNat_ofNat']
              omega
            rw [decode, if_neg hb, ih hbs fun heq => hne (by rw [heq]), Option.map_none]

end Varint
