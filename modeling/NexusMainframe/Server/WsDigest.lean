import NexusMainframe.Lib.Base64
import NexusMainframe.Lib.SecureHash

/-!
# The digest and the encoding of the handshake, loop by loop

`sha1` and `base64Encode` of the server as it computes them: the buffer that is padded one byte
after the other, the blocks that are read from it index by index, the text that grows by four
characters in each turn. They are `Digest.sha1` and `Digest.base64Encode`, and so the standards'.
-/

namespace NexusMainframe

namespace WsServer

open Digest (Words rotl round wordAt addBlock)
open SecureHash (HashValue)

/-! ### SHA-1 -/

/-- The loop that pushes zeros. -/
def padLoop (m : Bytes) : Bytes :=
  if m.length % 64 = 56 then m else padLoop (m ++ [0])
termination_by (120 - m.length % 64) % 64
decreasing_by
  rw [List.length_append, List.length_singleton]
  omega

/-- The padded buffer. -/
def padded (data : Bytes) : Bytes :=
  let bits : UInt64 := UInt64.ofNat data.length * 8
  [7, 6, 5, 4, 3, 2, 1, 0].foldl
    (fun m i => m ++ [(bits >>> UInt64.ofNat (i * 8)).toUInt8])
    (padLoop (data ++ [0x80]))

/-- A word of the buffer. There is none when it is read behind the end of the buffer. -/
def readWord (m : Bytes) (i : Nat) : Option UInt32 := do
  let b₀ ← m[i]?
  let b₁ ← m[i + 1]?
  let b₂ ← m[i + 2]?
  let b₃ ← m[i + 3]?
  return (b₀.toUInt32 <<< 24) ||| (b₁.toUInt32 <<< 16) ||| (b₂.toUInt32 <<< 8) ||| b₃.toUInt32

/-- The words `w` of the block at an index. -/
def blockWords (m : Bytes) (i : Nat) : Option (List UInt32) := do
  let w ← (List.range 16).mapM fun j => readWord m (i + j * 4)
  return (List.range' 16 64).foldl
    (fun w j => w ++ [rotl (w.getD (j - 3) 0 ^^^ w.getD (j - 8) 0 ^^^ w.getD (j - 14) 0
      ^^^ w.getD (j - 16) 0) 1]) w

/-- The loop over the blocks, from an index on. -/
def blockLoop (m : Bytes) (i : Nat) (h : Words) : Option Words :=
  if i < m.length then do
    let w ← blockWords m i
    let h' := (List.range 80).foldl (fun h j => round h j (w.getD j 0)) h
    blockLoop m (i + 64) ⟨h.a + h'.a, h.b + h'.b, h.c + h'.c, h.d + h'.d, h.e + h'.e⟩
  else some h
termination_by m.length - i

/-- The digest, when every read of the buffer was one of a byte in it. -/
def sha1 (data : Bytes) : Option Bytes := do
  let h ← blockLoop (padded data) 0 Words.init
  return [h.a, h.b, h.c, h.d, h.e].flatMap fun w =>
    [3, 2, 1, 0].map fun j => (w >>> UInt32.ofNat (j * 8)).toUInt8

/-! ### The padded buffer -/

theorem padLoop_eq (m : Bytes) :
  padLoop m = m ++ List.replicate ((120 - m.length % 64) % 64) 0
  := by
  fun_induction padLoop m with
  | case1 m h => simp [h]
  | case2 m h ih =>
      have hcount : (120 - m.length % 64) % 64 = (120 - (m.length + 1) % 64) % 64 + 1 := by omega
      rw [ih, List.length_append, List.length_singleton, hcount, List.append_assoc,
        List.replicate_succ]
      rfl

/-- The byte of the length at a position. -/
theorem lengthByte_eq (n : Nat) {i : Nat} (h : i < 8) :
  ((UInt64.ofNat n * 8) >>> UInt64.ofNat (i * 8)).toUInt8 = UInt8.ofNat ((n * 8) >>> (8 * i))
  := by
  apply UInt8.toNat_inj.mp
  have hshift : (UInt64.ofNat (i * 8)).toNat % 64 = 8 * i := by
    rw [UInt64.toNat_ofNat']
    omega
  have hbits : (UInt64.ofNat n * 8).toNat = n * 8 % 2 ^ 64 := by
    rw [UInt64.toNat_mul, UInt64.toNat_ofNat', Nat.mod_mul_mod]
    rfl
  rw [UInt64.toNat_toUInt8, UInt64.toNat_shiftRight, hshift, hbits, UInt8.toNat_ofNat']
  apply Nat.eq_of_testBit_eq
  intro j
  rw [Nat.testBit_mod_two_pow, Nat.testBit_mod_two_pow, Nat.testBit_shiftRight,
    Nat.testBit_shiftRight, Nat.testBit_mod_two_pow]
  by_cases hj : j < 8
  · have hbit : 8 * i + j < 64 := by omega
    simp [hj, hbit]
  · simp [hj]

theorem padded_eq (data : Bytes) :
  padded data = Digest.pad data
  := by
  have hlength : [7, 6, 5, 4, 3, 2, 1, 0].map (fun i =>
      ((UInt64.ofNat data.length * 8) >>> UInt64.ofNat (i * 8)).toUInt8)
        = Bytes.bigEndian 8 (data.length * 8) := by
    apply List.map_congr_left
    intro i hi
    apply lengthByte_eq
    simp at hi
    omega
  have hcount : (120 - (data.length + 1) % 64) % 64 = (119 - data.length % 64) % 64 := by omega
  unfold padded Digest.pad
  rw [padLoop_eq, List.length_append, List.length_singleton, hcount, ← hlength]
  simp

theorem length_pad (data : Bytes) :
  (Digest.pad data).length = 64 * ((data.length + 72) / 64)
  := by
  simp only [Digest.pad, List.length_append, List.length_singleton, List.length_replicate,
    Bytes.length_bigEndian]
  omega

/-! ### The blocks -/

/-- A word that lies in the buffer is read. -/
theorem readWord_eq {m : Bytes} {i : Nat} (h : i + 4 ≤ m.length) :
  readWord m i = some (wordAt m i)
  := by
  have hget : ∀ j, j < 4 → m[i + j]? = some (m.getD (i + j) 0) := by
    intro j hj
    rw [List.getD_eq_getElem?_getD, List.getElem?_eq_getElem (by omega), Option.getD_some]
  have h₀ := hget 0 (by decide)
  unfold readWord wordAt
  rw [Nat.add_zero] at h₀
  rw [h₀, hget 1 (by decide), hget 2 (by decide), hget 3 (by decide)]
  rfl

theorem wordAt_slice {m : Bytes} {i j : Nat} (hj : j < 16) :
  wordAt ((m.drop i).take 64) (j * 4) = wordAt m (i + j * 4)
  := by
  have hget : ∀ n, n < 64 → ((m.drop i).take 64).getD n 0 = m.getD (i + n) 0 := by
    intro n hn
    simp [List.getD_eq_getElem?_getD, List.getElem?_take_of_lt hn]
  unfold wordAt
  rw [hget _ (by omega), hget _ (by omega), hget _ (by omega), hget _ (by omega)]
  rfl

theorem mapM_eq_map {α β : Type} {f : α → Option β} {g : α → β} {l : List α}
    (h : ∀ a ∈ l, f a = some (g a)) :
  l.mapM f = some (l.map g)
  := by
  induction l with
  | nil => rfl
  | cons a l ih =>
      obtain ⟨ha, hl⟩ := List.forall_mem_cons.mp h
      rw [List.mapM_cons, ha, ih hl]
      rfl

/-- The words of a block that lies in the buffer. -/
theorem blockWords_eq {m : Bytes} {i : Nat} (h : i + 64 ≤ m.length) :
  blockWords m i = some (Digest.schedule ((m.drop i).take 64))
  := by
  have hwords : (List.range 16).mapM (fun j => readWord m (i + j * 4))
      = some ((List.range 16).map fun j => wordAt ((m.drop i).take 64) (j * 4)) := by
    apply mapM_eq_map
    intro j hj
    have hj : j < 16 := by simpa using hj
    rw [readWord_eq (by omega), wordAt_slice hj]
  have hrange : List.range' 16 64 = (List.range 64).map (16 + ·) := List.range'_eq_map_range ..
  have hindex : ∀ j, 16 + j - 3 = j + 13 ∧ 16 + j - 8 = j + 8 ∧ 16 + j - 14 = j + 2
      ∧ 16 + j - 16 = j := by
    intro j
    omega
  unfold blockWords Digest.schedule
  rw [hwords, hrange]
  simp only [Option.bind_eq_bind, Option.bind_some, Option.pure_def, List.foldl_map, hindex]

/-- The rounds, by the index of the words. -/
theorem foldl_zipIdx {α β : Type} (g : β → Nat → α → β) (l : List α) (a : α) (h : β) :
  l.zipIdx.foldl (fun h p => g h p.2 p.1) h
    = (List.range l.length).foldl (fun h j => g h j (l.getD j a)) h
  := by
  have hzip : l.zipIdx = (List.range l.length).map fun j => (l.getD j a, j) := by
    apply List.ext_getElem
    · simp
    · intro i h₁ h₂
      have hi : i < l.length := by simpa using h₁
      simp [List.getD_eq_getElem?_getD, hi]
  rw [hzip, List.foldl_map]

/-- The loop takes one group of the buffer after the other. -/
theorem blockLoop_eq (m : Bytes) (i : Nat) (h : Words) (k : Nat) (hk : m.length = i + 64 * k) :
  blockLoop m i h = some ((Bits.groups 64 (m.drop i)).foldl addBlock h)
  := by
  induction k generalizing i h with
  | zero =>
      have hnil : m.drop i = [] := List.drop_eq_nil_of_le (by omega)
      rw [blockLoop, if_neg (by omega), hnil]
      rfl
  | succ k ih =>
      have hblock : ((m.drop i).take 64).length = 64 := by
        rw [List.length_take, List.length_drop]
        omega
      have hgroups := Bits.groups_append hblock (by decide) (m.drop (i + 64))
      rw [← List.drop_drop, List.take_append_drop] at hgroups
      have hlength : (Digest.schedule ((m.drop i).take 64)).length = 80 := by
        rw [SecureHash.schedule_eq hblock, List.length_map, List.length_range]
      have hrounds := foldl_zipIdx round (Digest.schedule ((m.drop i).take 64)) 0 h
      rw [hlength] at hrounds
      rw [blockLoop, if_pos (by omega), blockWords_eq (by omega)]
      simp only [Option.bind_eq_bind, Option.bind_some]
      rw [← hrounds, ih _ _ (by omega), hgroups, List.drop_drop, List.foldl_cons, addBlock]

/-! ### The digest -/

theorem sha1_eq (data : Bytes) :
  sha1 data = some (Digest.sha1 data)
  := by
  have hloop := blockLoop_eq (padded data) 0 Words.init ((data.length + 72) / 64)
    (by rw [padded_eq, length_pad, Nat.zero_add])
  have hword : ∀ w : UInt32, ([3, 2, 1, 0].map fun j => (w >>> UInt32.ofNat (j * 8)).toUInt8)
      = Bytes.bigEndian 4 w.toNat := by
    intro w
    apply List.map_congr_left
    intro j hj
    have hj : j < 4 := by
      simp at hj
      omega
    have hshift : (UInt32.ofNat (j * 8)).toNat % 32 = 8 * j := by
      rw [UInt32.toNat_ofNat']
      omega
    apply UInt8.toNat_inj.mp
    rw [UInt32.toNat_toUInt8, UInt32.toNat_shiftRight, hshift, UInt8.toNat_ofNat']
  unfold sha1 Digest.sha1
  rw [hloop, padded_eq, List.drop_zero, Bits.groups, List.foldl_map]
  simp only [Option.bind_eq_bind, Option.bind_some, Option.pure_def, hword]

/-- The digest of every byte string of fewer than `2 ^ 61` bytes is the standard's: the buffer is
the message, `0x80`, the fewest zeros and the length, each round is the standard's, and no read
is one behind the end of the buffer. -/
theorem sha1_isDigest (data : Bytes) (h : data.length < 2 ^ 61) :
  (∃ zeros length, padded data = data ++ [0x80] ++ List.replicate zeros 0 ++ length
      ∧ length.length = 8 ∧ Bytes.ofBigEndian length = 8 * data.length
      ∧ (padded data).length % 64 = 0
      ∧ ∀ k < zeros, (data.length + 1 + k + 8) % 64 ≠ 0)
    ∧ (∀ w t h, HashValue.ofWords (round h t w)
        = SecureHash.round w.toBitVec t (HashValue.ofWords h))
    ∧ ∃ digest, sha1 data = some digest ∧ digest.length = 20
      ∧ Bits.ofBytes digest = SecureHash.digest (Bits.ofBytes data)
  := by
  constructor
  · use (119 - data.length % 64) % 64, Bytes.bigEndian 8 (data.length * 8)
    have hlength := length_pad data
    rw [padded_eq]
    use rfl, Bytes.length_bigEndian 8 _
    constructor
    · rw [Bytes.ofBigEndian_bigEndian, Nat.mod_eq_of_lt (by omega), Nat.mul_comm]
    · constructor
      · omega
      · intro k hk
        omega
  · constructor
    · intro w t h
      apply SecureHash.ofWords_round
    · use Digest.sha1 data, sha1_eq data
      constructor
      · simp [Digest.sha1]
      · rw [SecureHash.digest_ofBytes]

/-- The message of the standard's first example. -/
theorem sha1_isDigest_abc :
  Bits.ofBytes (Digest.sha1 [0x61, 0x62, 0x63])
    = SecureHash.digest (Bits.ofBytes [0x61, 0x62, 0x63])
  := by
  obtain ⟨-, -, digest, hdigest, -, hbits⟩ := sha1_isDigest [0x61, 0x62, 0x63] (by decide)
  rw [sha1_eq, Option.some_inj] at hdigest
  rw [hdigest, hbits]

/-! ### Base64 -/

/-- The digits, by their values. -/
def base64Table : Bytes :=
  Bytes.ofAscii "ABCDEFGHIJKLMNOPQRSTUVWXYZabcdefghijklmnopqrstuvwxyz0123456789+/"

/-- The four characters that one turn of the loop appends. -/
def base64Turn (data : Bytes) (i : Nat) : Bytes :=
  let v := (data.getD i 0).toUInt32 <<< 16
  let v := if i + 1 < data.length then v ||| ((data.getD (i + 1) 0).toUInt32 <<< 8) else v
  let v := if i + 2 < data.length then v ||| (data.getD (i + 2) 0).toUInt32 else v
  [base64Table.getD ((v >>> 18) &&& 63).toNat 0,
   base64Table.getD ((v >>> 12) &&& 63).toNat 0,
   if i + 1 < data.length then base64Table.getD ((v >>> 6) &&& 63).toNat 0 else 0x3D,
   if i + 2 < data.length then base64Table.getD (v &&& 63).toNat 0 else 0x3D]

/-- The loop over the bytes, from an index on. -/
def base64Loop (data : Bytes) (i : Nat) (out : Bytes) : Bytes :=
  if i < data.length then base64Loop data (i + 3) (out ++ base64Turn data i) else out
termination_by data.length - i

/-- `base64Encode`: three bytes to four digits, and what is left over at the end. -/
def base64Encode (data : Bytes) : Bytes :=
  base64Loop data 0 []

theorem base64Char_zero (v : UInt32) :
  Digest.base64Char v 0 = base64Table.getD (v &&& 63).toNat 0
  := by
  rw [Digest.base64Char, UInt32.shiftRight_zero]
  rfl

theorem drop_eq_getD_cons {data : Bytes} {i : Nat} (h : i < data.length) :
  data.drop i = data.getD i 0 :: data.drop (i + 1)
  := by
  rw [List.drop_eq_getElem_cons h, List.getD_eq_getElem?_getD, List.getElem?_eq_getElem h,
    Option.getD_some]

/-- A turn appends the encoding of the next three bytes, or of the tail of two or one. -/
theorem base64Turn_append {data : Bytes} {i : Nat} (h : i < data.length) :
  base64Turn data i ++ Digest.base64Encode (data.drop (i + 3)) = Digest.base64Encode (data.drop i)
  := by
  unfold base64Turn
  rw [drop_eq_getD_cons h]
  by_cases h₁ : i + 1 < data.length
  · rw [drop_eq_getD_cons h₁]
    by_cases h₂ : i + 2 < data.length
    · rw [drop_eq_getD_cons h₂]
      simp only [Digest.base64Encode, base64Char_zero, if_pos h₁, if_pos h₂]
      rfl
    · have hnil : data.drop (i + 1 + 1) = [] := List.drop_eq_nil_of_le (by omega)
      have hrest : data.drop (i + 3) = [] := List.drop_eq_nil_of_le (by omega)
      simp only [hnil, hrest, Digest.base64Encode, if_pos h₁, if_neg h₂]
      rfl
  · have h₂ : ¬ i + 2 < data.length := by omega
    have hnil : data.drop (i + 1) = [] := List.drop_eq_nil_of_le (by omega)
    have hrest : data.drop (i + 3) = [] := List.drop_eq_nil_of_le (by omega)
    simp only [hnil, hrest, Digest.base64Encode, if_neg h₁, if_neg h₂]
    rfl

theorem base64Loop_eq (data : Bytes) (i : Nat) (out : Bytes) :
  base64Loop data i out = out ++ Digest.base64Encode (data.drop i)
  := by
  fun_induction base64Loop data i out with
  | case1 i out h ih => rw [ih, List.append_assoc, base64Turn_append h]
  | case2 i out h =>
      rw [List.drop_eq_nil_of_le (by omega)]
      simp [Digest.base64Encode]

theorem base64Encode_eq (data : Bytes) :
  base64Encode data = Digest.base64Encode data
  := by
  rw [base64Encode, base64Loop_eq, List.drop_zero, List.nil_append]

/-- The text of every byte string is its standard encoding: four characters for each three
bytes, or part of three, with `=` in the places at the end that are left; and the bytes are
decoded from it. -/
theorem base64Encode_isEncoding (data : Bytes) :
  base64Encode data = Base64.encode data
    ∧ (base64Encode data).length = 4 * ((data.length + 2) / 3)
    ∧ (∃ chars, (∀ c ∈ chars, c ∈ Base64.alphabet ∧ c ≠ 0x3D)
        ∧ base64Encode data = chars ++ List.replicate ((3 - data.length % 3) % 3) 0x3D)
    ∧ Base64.decode (base64Encode data) = some data
  := by
  have hencode : base64Encode data = Base64.encode data := by
    rw [base64Encode_eq, Base64.encode_eq]
  rw [hencode]
  constructor
  · rfl
  · constructor
    · apply Base64.length_encode
    · constructor
      · use Base64.chars (Bits.ofBytes data)
        constructor
        · intro c hc
          constructor
          · apply Base64.chars_mem _ c hc
          · apply Base64.chars_ne _ c hc
        · apply Base64.encode_eq_chars
      · apply Base64.decode_encode

end WsServer

end NexusMainframe
