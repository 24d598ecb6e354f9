import Mathlib.Algebra.Ring.Int.Defs
import Mathlib.Algebra.Ring.Nat
import Mathlib.Data.Int.Basic

/-!
# Machine integers

Numbers as C converts them: `wrapInt32` to a 32-bit signed integer, and `toSize` from a
signed integer to a 64-bit `size_t`. A count that is passed through an `int` and back,
`toSize (wrapInt32 n)`, is a different one from `2 ^ 31` on: too large as long as bit 31
is set, and `0` at the multiples of `2 ^ 32`.
-/

namespace Machine

/-- The 32-bit two's complement number congruent to `n`. -/
def wrapInt32 (n : Int) : Int :=
  n.bmod (2 ^ 32)

/-- A signed integer converted to `size_t`. -/
def toSize (n : Int) : Nat :=
  (n % 2 ^ 64).toNat

/-- A count passed through an `int`, by the part below `2 ^ 32`. -/
theorem toSize_wrapInt32 (n : Nat) :
  toSize (wrapInt32 n)
    = if n % 2 ^ 32 < 2 ^ 31 then n % 2 ^ 32 else 2 ^ 64 - 2 ^ 32 + n % 2 ^ 32
  := by
  simp only [toSize, wrapInt32, Int.bmod]
  split <;> split <;> omega

theorem toSize_wrapInt32_eq_zero {n : Nat} :
  toSize (wrapInt32 n) = 0 ↔ n % 2 ^ 32 = 0
  := by
  rw [toSize_wrapInt32]
  split <;> omega

/-- What goes over `k` in `2 ^ 32 + k` is lost. -/
theorem toSize_wrapInt32_add (k : Nat) :
  toSize (wrapInt32 (2 ^ 32 + k : Nat)) = toSize (wrapInt32 k)
  := by
  rw [toSize_wrapInt32, toSize_wrapInt32, Nat.add_mod_left]

/-- Adding wraps around once. -/
theorem wrapInt32_wrapInt32_add (m n : Int) :
  wrapInt32 (wrapInt32 m + n) = wrapInt32 (m + n)
  := Int.bmod_add_bmod

/-- Numbers closer than `2 ^ 32` wrap around to different ones. -/
theorem wrapInt32_inj {m n : Int} (hlt : m < n + 2 ^ 32) (hgt : n < m + 2 ^ 32) :
  wrapInt32 m = wrapInt32 n ↔ m = n
  := by
  simp only [wrapInt32, Int.bmod]
  split <;> split <;> omega

/-- A count that comes out of an `int` too large is more than `2 ^ 31`. -/
theorem min_toSize_wrapInt32_le (n : Nat) {limit : Nat} (h : limit ≤ 2 ^ 31) :
  min (toSize (wrapInt32 n)) limit ≤ n
  := by
  rw [toSize_wrapInt32]
  split <;> omega

/-- A count below `2 ^ 31` fits. -/
theorem wrapInt32_of_lt {n : Nat} (h : n < 2 ^ 31) :
  wrapInt32 n = n
  := by
  apply Int.bmod_eq_of_le <;> omega

theorem toNat_wrapInt32_le (n : Nat) :
  (wrapInt32 n).toNat ≤ n
  := by
  simp only [wrapInt32, Int.bmod]
  split <;> omega

end Machine
