import Mathlib.Data.List.Basic
import Mathlib.Data.List.Induction
import Mathlib.Data.Nat.Bitwise
import Mathlib.Data.Nat.Digits.Defs
import Mathlib.Tactic.Ring
import Mathlib.Tactic.Linarith

/-!
# Byte strings and big-endian numbers

A byte string is a list of bytes. `Bytes.bigEndian k n` is the `k`-byte big-endian form of
`n`, built by shifting as a machine builds it, and `Bytes.ofBigEndian` reads such a form
back: it undoes `bigEndian k` on the numbers below `256 ^ k`.
-/

/-- A byte string. -/
abbrev Bytes := List UInt8

/-- The decisions of membership in a list of byte strings rest on this one instance. -/
instance Bytes.instLawfulBEq : LawfulBEq Bytes := inferInstance

namespace Bytes

/-- The bytes of a text of ASCII characters. -/
def ofAscii (s : String) : Bytes :=
  s.toList.map fun c => UInt8.ofNat c.toNat

/-- The decimal digits of a number. -/
def decimal (n : Nat) : Bytes :=
  if n = 0 then [0x30] else ((Nat.digits 10 n).map fun d => UInt8.ofNat (0x30 + d)).reverse

/-- The number that decimal digits stand for. -/
def ofDecimal (bs : Bytes) : Nat :=
  bs.foldl (fun n b => n * 10 + (b.toNat - 0x30)) 0

/-- The decimal digits of a number, with zeros in front of fewer than `k` of them. -/
def padded (k n : Nat) : Bytes :=
  List.replicate (k - (decimal n).length) 0x30 ++ decimal n

/-- The `k` low bytes of `n`, the most significant one first. -/
def bigEndian (k n : Nat) : Bytes :=
  (List.range k).reverse.map fun i => UInt8.ofNat (n >>> (8 * i))

/-- The number a big-endian byte string stands for. -/
def ofBigEndian (bs : Bytes) : Nat :=
  bs.foldl (fun n b => n * 256 + b.toNat) 0

/-- A text of ASCII characters has bytes below 128. -/
theorem ofAscii_lt
    {s : String} (h : s.toList.all (fun c => c.toNat < 0x80) = true) :
  ∀ b ∈ ofAscii s, b.toNat < 0x80
  := by
  intro b hb
  obtain ⟨c, hc, rfl⟩ := List.mem_map.mp hb
  have hlt := of_decide_eq_true (List.all_eq_true.mp h c hc)
  rw [UInt8.toNat_ofNat']
  omega

/-- The digits of a number are digits. -/
theorem decimal_digit (n : Nat) :
  ∀ b ∈ decimal n, 0x30 ≤ b.toNat ∧ b.toNat ≤ 0x39
  := by
  intro b hb
  unfold decimal at hb
  split at hb
  next =>
    rw [List.mem_singleton.mp hb]
    decide
  next =>
    obtain ⟨d, hd, rfl⟩ := List.mem_map.mp (List.mem_reverse.mp hb)
    have := Nat.digits_lt_base (by decide : 1 < 10) hd
    rw [UInt8.toNat_ofNat']
    omega

theorem decimal_ne_nil (n : Nat) :
  decimal n ≠ []
  := by
  unfold decimal
  split
  next => simp
  next hn => simpa [Nat.digits_eq_nil_iff_eq_zero] using hn

theorem ofDecimal_decimal (n : Nat) :
  ofDecimal (decimal n) = n
  := by
  unfold decimal
  split
  next hn =>
    rw [hn]
    rfl
  next =>
    have hdigits : ∀ ds : List Nat, (∀ d ∈ ds, d < 10) →
        ofDecimal (ds.map fun d => UInt8.ofNat (0x30 + d)).reverse = Nat.ofDigits 10 ds := by
      intro ds hds
      induction ds with
      | nil => rfl
      | cons d ds ih =>
          obtain ⟨hd, hds⟩ := List.forall_mem_cons.mp hds
          have ih := ih hds
          have hbyte : (UInt8.ofNat (0x30 + d)).toNat = 0x30 + d := by
            rw [UInt8.toNat_ofNat']
            omega
          rw [ofDecimal] at ih ⊢
          rw [List.map_cons, List.reverse_cons, List.foldl_concat, ih, hbyte, Nat.ofDigits_cons,
            Nat.add_sub_cancel_left]
          omega
    rw [hdigits _ fun d hd => Nat.digits_lt_base (by decide) hd, Nat.ofDigits_digits]

theorem decimal_lt (n : Nat) :
  ∀ b ∈ decimal n, b.toNat < 0x80
  := by
  intro b hb
  have := decimal_digit n b hb
  omega

theorem padded_lt (k n : Nat) :
  ∀ b ∈ padded k n, b.toNat < 0x80
  := by
  intro b hb
  rcases List.mem_append.mp hb with hb | hb
  · rw [List.eq_of_mem_replicate hb]
    decide
  · apply decimal_lt n b hb

@[simp]
theorem length_bigEndian (k n : Nat) :
  (bigEndian k n).length = k
  := by
  simp [bigEndian]

theorem bigEndian_succ (k n : Nat) :
  bigEndian (k + 1) n = UInt8.ofNat (n >>> (8 * k)) :: bigEndian k n
  := by
  simp [bigEndian, List.range_succ]

/-- The last byte of a big-endian form is the low byte, and the bytes before it are the
form of the rest. -/
theorem bigEndian_succ_last (k n : Nat) :
  bigEndian (k + 1) n = bigEndian k (n / 256) ++ [UInt8.ofNat n]
  := by
  induction k with
  | zero => simp [bigEndian]
  | succ k ih =>
      have hshift : n >>> (8 * (k + 1)) = (n / 256) >>> (8 * k) := by
        rw [Nat.mul_succ, Nat.add_comm, Nat.shiftRight_add, Nat.shiftRight_eq_div_pow n 8]
      rw [bigEndian_succ, ih, bigEndian_succ, hshift]
      rfl

@[simp]
theorem ofBigEndian_nil :
  ofBigEndian [] = 0
  := rfl

@[simp]
theorem ofBigEndian_append_singleton (bs : Bytes) (b : UInt8) :
  ofBigEndian (bs ++ [b]) = ofBigEndian bs * 256 + b.toNat
  := by
  simp [ofBigEndian]

/-- Reading a `k`-byte form back gives the number modulo `256 ^ k`. -/
theorem ofBigEndian_bigEndian (k n : Nat) :
  ofBigEndian (bigEndian k n) = n % 256 ^ k
  := by
  induction k generalizing n with
  | zero => simp [bigEndian, Nat.mod_one]
  | succ k ih =>
      have hlow : (UInt8.ofNat n).toNat = n % 256 := UInt8.toNat_ofNat'
      rw [bigEndian_succ_last, ofBigEndian_append_singleton, ih, hlow, pow_succ', Nat.mod_mul]
      ring

/-- A byte string is the big-endian form, of its own length, of the number it stands
for. -/
theorem bigEndian_ofBigEndian (bs : Bytes) :
  bigEndian bs.length (ofBigEndian bs) = bs
  := by
  induction bs using List.reverseRec with
  | nil => rfl
  | append_singleton bs b ih =>
      have hb := b.toNat_lt
      have hdiv : (ofBigEndian bs * 256 + b.toNat) / 256 = ofBigEndian bs := by omega
      have hlow : UInt8.ofNat (ofBigEndian bs * 256 + b.toNat) = b := by
        apply UInt8.toNat_inj.mp
        rw [UInt8.toNat_ofNat']
        omega
      rw [List.length_append, List.length_singleton, bigEndian_succ_last,
        ofBigEndian_append_singleton, hdiv, hlow, ih]

end Bytes
