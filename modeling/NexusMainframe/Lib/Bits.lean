import NexusMainframe.Lib.Bytes
import Mathlib.Data.UInt

/-!
# Bit strings

The low bits of a number as a list, the highest one first, and the number that such a list
stands for. The bits of a byte string are those of its bytes, one byte after the other. A list
is cut into groups of one length from its start on, and what is left over at its end is in
none of them.
-/

namespace Bits

/-- The `w` low bits of a number, the highest one first. -/
def ofNat (w n : Nat) : List Bool :=
  (List.range w).reverse.map n.testBit

/-- The number that bits stand for. -/
def value (bits : List Bool) : Nat :=
  bits.foldl (fun n b => 2 * n + b.toNat) 0

/-- The bits of a byte string. -/
def ofBytes (data : Bytes) : List Bool :=
  data.flatMap fun b => ofNat 8 b.toNat

/-- The groups of `n` elements, from the start on. -/
def groups {α : Type} (n : Nat) (l : List α) : List (List α) :=
  (List.range (l.length / n)).map fun i => (l.drop (i * n)).take n

/-- The bytes of a bit string; bits behind the last byte are left out. -/
def toBytes (bits : List Bool) : Bytes :=
  (groups 8 bits).map fun g => UInt8.ofNat (value g)

/-! ### The bits of a number -/

@[simp]
theorem length_ofNat (w n : Nat) :
  (ofNat w n).length = w
  := by
  simp [ofNat]

theorem ofNat_succ (w n : Nat) :
  ofNat (w + 1) n = n.testBit w :: ofNat w n
  := by
  simp [ofNat, List.range_succ]

/-- The low bits are the last ones. -/
theorem ofNat_add (u w n : Nat) :
  ofNat (u + w) n = ofNat u (n >>> w) ++ ofNat w n
  := by
  induction u with
  | zero => simp [ofNat]
  | succ u ih =>
      rw [Nat.add_right_comm, ofNat_succ, ofNat_succ, ih, Nat.testBit_shiftRight, Nat.add_comm w u]
      rfl

/-- Two numbers that agree modulo `2 ^ w` have the same low bits. -/
theorem ofNat_mod (w n : Nat) :
  ofNat w (n % 2 ^ w) = ofNat w n
  := by
  unfold ofNat
  apply List.map_congr_left
  intro i hi
  have hi : i < w := by simpa using hi
  simp [Nat.testBit_mod_two_pow, hi]

theorem ofNat_zero (w : Nat) :
  ofNat w 0 = List.replicate w false
  := by
  induction w with
  | zero => rfl
  | succ w ih => rw [ofNat_succ, ih, Nat.zero_testBit, List.replicate_succ]

theorem value_concat (bits : List Bool) (b : Bool) :
  value (bits ++ [b]) = 2 * value bits + b.toNat
  := by
  simp [value]

theorem value_ofNat (w n : Nat) :
  value (ofNat w n) = n % 2 ^ w
  := by
  induction w generalizing n with
  | zero => simp [ofNat, value, Nat.mod_one]
  | succ w ih =>
      have hlast : ofNat 1 n = [n.testBit 0] := rfl
      rw [ofNat_add w 1, hlast, value_concat, ih, Nat.shiftRight_one, Nat.testBit_zero, pow_succ',
        Nat.mod_mul]
      rcases Nat.mod_two_eq_zero_or_one n with h | h
      · simp [h]
      · simp [h]
        omega

/-- Bits are the low bits, as many as they are, of the number they stand for. -/
theorem ofNat_value (bits : List Bool) :
  ofNat bits.length (value bits) = bits
  := by
  induction bits using List.reverseRec with
  | nil => rfl
  | append_singleton bits b ih =>
      have hlow : ofNat 1 (2 * value bits + b.toNat) = [b] := by
        cases b
        · simp [ofNat]
        · simp [ofNat]
      have hrest : (2 * value bits + b.toNat) >>> 1 = value bits := by
        rw [Nat.shiftRight_one]
        have := b.toNat_le
        omega
      rw [List.length_append, List.length_singleton, value_concat, ofNat_add, hlow, hrest, ih]

theorem value_lt (bits : List Bool) :
  value bits < 2 ^ bits.length
  := by
  rw [← ofNat_value bits, value_ofNat, length_ofNat]
  apply Nat.mod_lt
  positivity

/-! ### The bits of a byte string -/

@[simp]
theorem ofBytes_nil :
  ofBytes [] = []
  := rfl

@[simp]
theorem ofBytes_cons (b : UInt8) (data : Bytes) :
  ofBytes (b :: data) = ofNat 8 b.toNat ++ ofBytes data
  := rfl

@[simp]
theorem ofBytes_append (data rest : Bytes) :
  ofBytes (data ++ rest) = ofBytes data ++ ofBytes rest
  := by
  simp [ofBytes]

@[simp]
theorem length_ofBytes (data : Bytes) :
  (ofBytes data).length = 8 * data.length
  := by
  induction data with
  | nil => rfl
  | cons b data ih =>
      rw [ofBytes_cons, List.length_append, length_ofNat, ih, List.length_cons]
      omega

theorem ofBytes_replicate_zero (n : Nat) :
  ofBytes (List.replicate n 0) = List.replicate (8 * n) false
  := by
  induction n with
  | zero => rfl
  | succ n ih =>
      rw [List.replicate_succ, ofBytes_cons, ih, UInt8.toNat_zero, ofNat_zero,
        List.replicate_append_replicate, Nat.mul_succ, Nat.add_comm]

/-- The bits of a big-endian form are the low bits of its number. -/
theorem ofBytes_bigEndian (k n : Nat) :
  ofBytes (Bytes.bigEndian k n) = ofNat (8 * k) n
  := by
  induction k with
  | zero => rfl
  | succ k ih =>
      have hbyte : (UInt8.ofNat (n >>> (8 * k))).toNat = (n >>> (8 * k)) % 2 ^ 8 :=
        UInt8.toNat_ofNat'
      rw [Bytes.bigEndian_succ, ofBytes_cons, ih, hbyte, ofNat_mod, Nat.mul_succ, Nat.add_comm,
        ofNat_add]

theorem value_append (bits rest : List Bool) :
  value (bits ++ rest) = value bits * 2 ^ rest.length + value rest
  := by
  induction rest using List.reverseRec with
  | nil => simp [value]
  | append_singleton rest b ih =>
      rw [← List.append_assoc, value_concat, value_concat, ih, List.length_append,
        List.length_singleton, pow_succ]
      ring

/-- The bits of a byte string stand for the number of which it is the big-endian form. -/
theorem value_ofBytes (data : Bytes) :
  value (ofBytes data) = Bytes.ofBigEndian data
  := by
  induction data using List.reverseRec with
  | nil => rfl
  | append_singleton data b ih =>
      have hb : ofBytes [b] = ofNat 8 b.toNat := List.append_nil _
      rw [ofBytes_append, value_append, ih, hb, value_ofNat, length_ofNat,
        Nat.mod_eq_of_lt b.toNat_lt, Bytes.ofBigEndian_append_singleton]
      rfl

theorem drop_ofBytes (data : Bytes) (i : Nat) :
  (ofBytes data).drop (8 * i) = ofBytes (data.drop i)
  := by
  induction i generalizing data with
  | zero => rfl
  | succ i ih =>
      cases data with
      | nil => simp
      | cons b data =>
          rw [ofBytes_cons, Nat.mul_succ, Nat.add_comm, ← List.drop_drop,
            List.drop_left' (length_ofNat 8 _), ih, List.drop_succ_cons]

theorem take_ofBytes (data : Bytes) (i : Nat) :
  (ofBytes data).take (8 * i) = ofBytes (data.take i)
  := by
  induction i generalizing data with
  | zero => rfl
  | succ i ih =>
      cases data with
      | nil => simp
      | cons b data =>
          have hi : 8 * (i + 1) = (ofNat 8 b.toNat).length + 8 * i := by
            rw [length_ofNat]
            omega
          rw [ofBytes_cons, List.take_succ_cons, ofBytes_cons, ← ih, hi,
            List.take_length_add_append]

/-- The number of a word of four bytes. -/
theorem toNat_word (b₀ b₁ b₂ b₃ : UInt8) :
  ((b₀.toUInt32 <<< 24) ||| (b₁.toUInt32 <<< 16) ||| (b₂.toUInt32 <<< 8) ||| b₃.toUInt32).toNat
    = Bytes.ofBigEndian [b₀, b₁, b₂, b₃]
  := by
  have h₀ := b₀.toNat_lt
  have h₁ := b₁.toNat_lt
  have h₂ := b₂.toNat_lt
  have h₃ := b₃.toNat_lt
  have hshift : ∀ (b : UInt8) (n : UInt32), b.toNat <<< (n.toNat % 32) < 2 ^ 32 →
      (b.toUInt32 <<< n).toNat = b.toNat <<< (n.toNat % 32) := by
    intro b n h
    rw [UInt32.toNat_shiftLeft, UInt8.toNat_toUInt32, Nat.mod_eq_of_lt h]
  have e₀ : (b₀.toUInt32 <<< 24).toNat = 2 ^ 24 * b₀.toNat := by
    rw [hshift b₀ 24 (by simp [Nat.shiftLeft_eq]; omega)]
    simp [Nat.shiftLeft_eq, Nat.mul_comm]
  have e₁ : (b₁.toUInt32 <<< 16).toNat = 2 ^ 16 * b₁.toNat := by
    rw [hshift b₁ 16 (by simp [Nat.shiftLeft_eq]; omega)]
    simp [Nat.shiftLeft_eq, Nat.mul_comm]
  have e₂ : (b₂.toUInt32 <<< 8).toNat = 2 ^ 8 * b₂.toNat := by
    rw [hshift b₂ 8 (by simp [Nat.shiftLeft_eq]; omega)]
    simp [Nat.shiftLeft_eq, Nat.mul_comm]
  -- each byte fits under those before it, so the disjunctions are sums
  have s₁ : 2 ^ 24 * b₀.toNat ||| 2 ^ 16 * b₁.toNat = 2 ^ 16 * (2 ^ 8 * b₀.toNat + b₁.toNat) := by
    rw [← Nat.two_pow_add_eq_or_of_lt (by omega)]
    ring
  have s₂ : 2 ^ 16 * (2 ^ 8 * b₀.toNat + b₁.toNat) ||| 2 ^ 8 * b₂.toNat
      = 2 ^ 8 * (2 ^ 16 * b₀.toNat + 2 ^ 8 * b₁.toNat + b₂.toNat) := by
    rw [← Nat.two_pow_add_eq_or_of_lt (by omega)]
    ring
  rw [UInt32.toNat_or, UInt32.toNat_or, UInt32.toNat_or, e₀, e₁, e₂, s₁, s₂,
    UInt8.toNat_toUInt32, ← Nat.two_pow_add_eq_or_of_lt h₃]
  simp only [Bytes.ofBigEndian, List.foldl_cons, List.foldl_nil]
  ring

/-! ### Groups -/

/-- The bits of a byte string in groups of whole bytes. -/
theorem groups_ofBytes (n : Nat) (data : Bytes) :
  groups (8 * n) (ofBytes data) = (groups n data).map ofBytes
  := by
  unfold groups
  rw [length_ofBytes, Nat.mul_div_mul_left _ _ (by decide : 0 < 8), List.map_map]
  apply List.map_congr_left
  intro i _
  have hi : i * (8 * n) = 8 * (i * n) := by ring
  simp only [Function.comp_apply]
  rw [hi, drop_ofBytes, take_ofBytes]

theorem length_of_mem_groups {α : Type} {n : Nat} {l g : List α} (h : g ∈ groups n l) :
  g.length = n
  := by
  obtain ⟨i, hi, rfl⟩ := List.mem_map.mp h
  have hi : i + 1 ≤ l.length / n := List.mem_range.mp hi
  have hmul : (i + 1) * n ≤ l.length := (Nat.mul_le_mul_right n hi).trans (Nat.div_mul_le_self _ _)
  rw [List.length_take, List.length_drop]
  rw [Nat.add_mul, Nat.one_mul] at hmul
  omega

theorem groups_of_length_lt {α : Type} {n : Nat} {l : List α} (h : l.length < n) :
  groups n l = []
  := by
  simp [groups, Nat.div_eq_of_lt h]

theorem groups_append {α : Type} {n : Nat} {g : List α} (hg : g.length = n) (hn : 0 < n)
    (l : List α) :
  groups n (g ++ l) = g :: groups n l
  := by
  have hlen : (g ++ l).length / n = l.length / n + 1 := by
    rw [List.length_append, hg, Nat.add_div_left _ hn]
  unfold groups
  rw [hlen, List.range_succ_eq_map, List.map_cons, List.map_map, Nat.zero_mul, List.drop_zero,
    List.take_left' hg]
  congr 1
  apply List.map_congr_left
  intro i _
  have hi : (i + 1) * n = g.length + i * n := by
    rw [hg]
    ring
  simp only [Function.comp_apply]
  rw [Nat.succ_eq_add_one, hi, List.drop_length_add_append]

/-- The groups of a bit string that has no rest, one after the other, are the bit string. -/
theorem flatten_groups {α : Type} {n : Nat} (hn : 0 < n) (k : Nat) {l : List α}
    (h : l.length = n * k) :
  (groups n l).flatten = l
  := by
  induction k generalizing l with
  | zero =>
      rw [List.eq_nil_of_length_eq_zero h, groups_of_length_lt hn]
      rfl
  | succ k ih =>
      have htake : (l.take n).length = n := by
        rw [List.length_take, h, Nat.mul_succ]
        omega
      have hdrop : (l.drop n).length = n * k := by
        rw [List.length_drop, h, Nat.mul_succ]
        omega
      have hgroups := groups_append htake hn (l.drop n)
      rw [List.take_append_drop] at hgroups
      rw [hgroups, List.flatten_cons, ih hdrop, List.take_append_drop]

/-- Bytes are read back from their bits, with fewer than eight bits behind them. -/
theorem toBytes_ofBytes_append (data : Bytes) {rest : List Bool} (h : rest.length < 8) :
  toBytes (ofBytes data ++ rest) = data
  := by
  induction data with
  | nil => simp [toBytes, groups_of_length_lt h]
  | cons b data ih =>
      unfold toBytes at ih ⊢
      rw [ofBytes_cons, List.append_assoc, groups_append (length_ofNat 8 _) (by decide),
        List.map_cons, ih, value_ofNat, Nat.mod_eq_of_lt b.toNat_lt, UInt8.ofNat_toNat]

end Bits
