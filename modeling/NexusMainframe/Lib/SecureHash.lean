import NexusMainframe.Lib.Bits
import NexusMainframe.Lib.Digest
import Mathlib.Data.BitVec

/-!
# The Secure Hash Standard's SHA-1

SHA-1 as the standard states it: on bit strings, with the functions `ch`, `parity` and `maj`
by exclusive disjunctions, words of 32 bits, and a padding with the smallest number of zeros
that brings the length to 448 modulo 512. `digest_sha1` says that `Digest.sha1`, on bytes, with
its own forms of the functions and its own number of zeros, is this digest.
-/

namespace SecureHash

/-- A word of 32 bits. -/
abbrev Word := BitVec 32

def ch (x y z : Word) : Word := (x &&& y) ^^^ (~~~x &&& z)

def parity (x y z : Word) : Word := x ^^^ y ^^^ z

def maj (x y z : Word) : Word := (x &&& y) ^^^ (x &&& z) ^^^ (y &&& z)

/-- The function of round `t`. -/
def f (t : Nat) : Word → Word → Word → Word :=
  if t < 20 then ch else if t < 40 then parity else if t < 60 then maj else parity

/-- The constant of round `t`. -/
def constant (t : Nat) : Word :=
  if t < 20 then 0x5A827999 else if t < 40 then 0x6ED9EBA1 else if t < 60 then 0x8F1BBCDC
  else 0xCA62C1D6

/-- A hash value. -/
@[ext]
structure HashValue where
  a : Word
  b : Word
  c : Word
  d : Word
  e : Word

/-- The hash value at the start. -/
def initial : HashValue where
  a := 0x67452301
  b := 0xEFCDAB89
  c := 0x98BADCFE
  d := 0x10325476
  e := 0xC3D2E1F0

/-! ### Padding -/

theorem exists_zeros (ℓ : Nat) :
  ∃ k, (ℓ + 1 + k) % 512 = 448
  := by
  use (959 - ℓ % 512) % 512
  omega

/-- The smallest number of zeros behind the one bit. -/
def zeros (ℓ : Nat) : Nat :=
  Nat.find (exists_zeros ℓ)

/-- A message with a one bit, zeros, and its length in 64 bits. -/
def pad (message : List Bool) : List Bool :=
  message ++ [true] ++ List.replicate (zeros message.length) false
    ++ Bits.ofNat 64 message.length

theorem zeros_eq (ℓ : Nat) :
  zeros ℓ = (959 - ℓ % 512) % 512
  := by
  apply (Nat.find_eq_iff _).mpr
  constructor
  · omega
  · intro k hk
    omega

/-! ### The digest -/

/-- The words of a block. -/
def words (block : List Bool) : List Word :=
  (Bits.groups 32 block).map fun g => BitVec.ofNat 32 (Bits.value g)

/-- The message schedule. -/
def schedule (block : List Word) (t : Nat) : Word :=
  if t < 16 then block.getD t 0
  else (schedule block (t - 3) ^^^ schedule block (t - 8) ^^^ schedule block (t - 14)
    ^^^ schedule block (t - 16)).rotateLeft 1
termination_by t

/-- One round. -/
def round (w : Word) (t : Nat) (h : HashValue) : HashValue where
  a := h.a.rotateLeft 5 + f t h.b h.c h.d + h.e + constant t + w
  b := h.a
  c := h.b.rotateLeft 30
  d := h.c
  e := h.d

/-- The rounds on a block up to round `t`. -/
def rounds (block : List Word) (h : HashValue) : Nat → HashValue
  | 0 => h
  | t + 1 => round (schedule block t) t (rounds block h t)

/-- The hash value after a block. -/
def compress (h : HashValue) (block : List Bool) : HashValue :=
  let h' := rounds (words block) h 80
  ⟨h'.a + h.a, h'.b + h.b, h'.c + h.c, h'.d + h.d, h'.e + h.e⟩

/-- The digest of a message, of 160 bits. -/
def digest (message : List Bool) : List Bool :=
  let h := (Bits.groups 512 (pad message)).foldl compress initial
  [h.a, h.b, h.c, h.d, h.e].flatMap fun w => Bits.ofNat 32 w.toNat

/-! ### The padding of bytes -/

/-- The padding of the bits is the padding of the bytes: the one bit and the seven zeros behind
it are the byte `0x80`. -/
theorem pad_ofBytes (data : Bytes) :
  pad (Bits.ofBytes data) = Bits.ofBytes (Digest.pad data)
  := by
  have hone : Bits.ofBytes [0x80] = [true] ++ List.replicate 7 false := by decide
  have hzeros : zeros (8 * data.length) = 7 + 8 * ((119 - data.length % 64) % 64) := by
    rw [zeros_eq]
    omega
  unfold pad Digest.pad
  simp only [Bits.ofBytes_append, Bits.length_ofBytes, Bits.ofBytes_replicate_zero,
    Bits.ofBytes_bigEndian]
  rw [hone, hzeros, List.replicate_add, Nat.mul_comm data.length 8]
  simp only [List.append_assoc]

/-! ### Words -/

/-- `ch` by a disjunction. -/
theorem ch_eq_or (x y z : Word) :
  (x &&& y) ||| (~~~x &&& z) = ch x y z
  := by
  ext i hi
  simp only [ch, BitVec.getElem_or, BitVec.getElem_xor, BitVec.getElem_and, BitVec.getElem_not]
  cases x[i] <;> simp

/-- `maj` by disjunctions. -/
theorem maj_eq_or (x y z : Word) :
  (x &&& y) ||| (x &&& z) ||| (y &&& z) = maj x y z
  := by
  ext i hi
  simp only [maj, BitVec.getElem_or, BitVec.getElem_xor, BitVec.getElem_and]
  cases x[i] <;> cases y[i] <;> simp

/-- A slice, read element by element. -/
theorem take_drop_eq_map {α : Type} (l : List α) (x : α) {i n : Nat} (h : i + n ≤ l.length) :
  (l.drop i).take n = (List.range n).map fun j => l.getD (i + j) x
  := by
  apply List.ext_getElem
  · rw [List.length_take, List.length_drop, List.length_map, List.length_range]
    omega
  · intro j h₁ h₂
    have hj : j < n := by simpa using h₂
    simp [List.getD_eq_getElem?_getD, List.getElem?_eq_getElem (show i + j < l.length by omega)]

/-- The word from an index on is the number of its four bytes. -/
theorem toNat_wordAt {m : Bytes} {i : Nat} (h : i + 4 ≤ m.length) :
  (Digest.wordAt m i).toNat = Bytes.ofBigEndian ((m.drop i).take 4)
  := by
  rw [take_drop_eq_map m 0 h]
  apply Bits.toNat_word

/-- The words of a block are those of its bytes. -/
theorem words_getD {block : Bytes} (h : block.length = 64) {j : Nat} (hj : j < 16) :
  (words (Bits.ofBytes block)).getD j 0 = (Digest.wordAt block (j * 4)).toBitVec
  := by
  have hlen : j < block.length / 4 := by omega
  have hword := toNat_wordAt (m := block) (i := j * 4) (by omega)
  have hgroup : (words (Bits.ofBytes block))[j]?
      = some (BitVec.ofNat 32 (Bytes.ofBigEndian ((block.drop (j * 4)).take 4))) := by
    have hbytes : Bits.groups 32 (Bits.ofBytes block) = (Bits.groups 4 block).map Bits.ofBytes :=
      Bits.groups_ofBytes 4 block
    rw [words, hbytes, List.map_map, List.getElem?_map]
    simp [Bits.groups, hlen, Bits.value_ofBytes]
  rw [List.getD_eq_getElem?_getD, hgroup, Option.getD_some, ← hword]
  apply BitVec.eq_of_toNat_eq
  rw [BitVec.toNat_ofNat, UInt32.toNat_toBitVec, Nat.mod_eq_of_lt (UInt32.toNat_lt _)]

/-! ### The schedule -/

theorem schedule_lt {block : List Word} {t : Nat} (ht : t < 16) :
  schedule block t = block.getD t 0
  := by
  rw [schedule, if_pos ht]

theorem schedule_add (block : List Word) (t : Nat) :
  schedule block (t + 16) = (schedule block (t + 13) ^^^ schedule block (t + 8)
    ^^^ schedule block (t + 2) ^^^ schedule block t).rotateLeft 1
  := by
  rw [schedule, if_neg (by omega)]
  rfl

/-- The words that the loop of the schedule has appended so far are those of the standard. -/
theorem schedule_foldl {block : Bytes} (h : block.length = 64) (n : Nat) :
  (List.range n).foldl
      (fun w j => w ++ [Digest.rotl (w.getD (j + 13) 0 ^^^ w.getD (j + 8) 0
        ^^^ w.getD (j + 2) 0 ^^^ w.getD j 0) 1])
      ((List.range 16).map fun j => Digest.wordAt block (j * 4))
    = (List.range (n + 16)).map fun t =>
        UInt32.ofBitVec (schedule (words (Bits.ofBytes block)) t)
  := by
  induction n with
  | zero =>
      rw [List.range_zero, List.foldl_nil, Nat.zero_add]
      apply List.map_congr_left
      intro j hj
      have hj : j < 16 := by simpa using hj
      rw [schedule_lt hj, words_getD h hj]
  | succ n ih =>
      have hget : ∀ t, t < n + 16 → ((List.range (n + 16)).map fun t =>
          UInt32.ofBitVec (schedule (words (Bits.ofBytes block)) t)).getD t 0
            = UInt32.ofBitVec (schedule (words (Bits.ofBytes block)) t) := by
        intro t ht
        simp [List.getD_eq_getElem?_getD, ht]
      rw [List.range_succ (n := n), List.foldl_concat, ih, hget _ (by omega), hget _ (by omega),
        hget _ (by omega), hget _ (by omega), Nat.add_right_comm, List.range_succ (n := n + 16),
        List.map_append, List.map_singleton, schedule_add]
      rfl

/-- The schedule is the standard's. -/
theorem schedule_eq {block : Bytes} (h : block.length = 64) :
  Digest.schedule block = (List.range 80).map fun t =>
    UInt32.ofBitVec (schedule (words (Bits.ofBytes block)) t)
  := schedule_foldl h 64

/-! ### The rounds -/

/-- The words of a digest as a hash value. -/
def HashValue.ofWords (w : Digest.Words) : HashValue where
  a := w.a.toBitVec
  b := w.b.toBitVec
  c := w.c.toBitVec
  d := w.d.toBitVec
  e := w.e.toBitVec

theorem ofWords_round (h : Digest.Words) (t : Nat) (w : UInt32) :
  HashValue.ofWords (Digest.round h t w) = round w.toBitVec t (HashValue.ofWords h)
  := by
  unfold Digest.round round HashValue.ofWords f constant
  split_ifs
  · simp only [UInt32.toBitVec_add, UInt32.toBitVec_or, UInt32.toBitVec_and, UInt32.toBitVec_not,
      ch_eq_or]
    rfl
  · rfl
  · simp only [UInt32.toBitVec_add, UInt32.toBitVec_or, UInt32.toBitVec_and, maj_eq_or]
    rfl
  · rfl

/-- The rounds over the first words of a list. -/
theorem ofWords_rounds (h : Digest.Words) (block : List Word) (n : Nat) :
  HashValue.ofWords (((List.range n).map fun t => UInt32.ofBitVec (schedule block t)).zipIdx.foldl
      (fun h p => Digest.round h p.2 p.1) h)
    = rounds block (HashValue.ofWords h) n
  := by
  induction n with
  | zero => rfl
  | succ n ih =>
      rw [List.range_succ, List.map_append, List.map_singleton, List.zipIdx_append,
        List.foldl_append, List.length_map, List.length_range, Nat.zero_add, List.zipIdx_singleton,
        List.foldl_cons, List.foldl_nil, ofWords_round, ih]
      rfl

theorem ofWords_addBlock (h : Digest.Words) {block : Bytes} (hblock : block.length = 64) :
  HashValue.ofWords (Digest.addBlock h block)
    = compress (HashValue.ofWords h) (Bits.ofBytes block)
  := by
  have hrounds := ofWords_rounds h (words (Bits.ofBytes block)) 80
  unfold compress
  rw [← hrounds, ← schedule_eq hblock]
  simp only [HashValue.ofWords, Digest.addBlock, UInt32.toBitVec_add, BitVec.add_comm]

/-! ### The digest of bytes -/

theorem ofWords_foldl (blocks : List Bytes) (hblocks : ∀ b ∈ blocks, b.length = 64)
    (h : Digest.Words) :
  HashValue.ofWords (blocks.foldl Digest.addBlock h)
    = (blocks.map Bits.ofBytes).foldl compress (HashValue.ofWords h)
  := by
  induction blocks generalizing h with
  | nil => rfl
  | cons b blocks ih =>
      obtain ⟨hb, hblocks⟩ := List.forall_mem_cons.mp hblocks
      rw [List.foldl_cons, List.map_cons, List.foldl_cons, ih hblocks, ofWords_addBlock h hb]

/-- The digest of the bits of a byte string is the bits of its digest. -/
theorem digest_ofBytes (data : Bytes) :
  digest (Bits.ofBytes data) = Bits.ofBytes (Digest.sha1 data)
  := by
  have hblocks := ofWords_foldl (Bits.groups 64 (Digest.pad data))
    (fun _ hb => Bits.length_of_mem_groups hb) Digest.Words.init
  have hgroups : Bits.groups 512 (Bits.ofBytes (Digest.pad data))
      = (Bits.groups 64 (Digest.pad data)).map Bits.ofBytes := Bits.groups_ofBytes 64 _
  have hinit : HashValue.ofWords Digest.Words.init = initial := rfl
  have hword : ∀ w : UInt32, Bits.ofNat 32 w.toBitVec.toNat
      = Bits.ofBytes (Bytes.bigEndian 4 w.toNat) := fun w => (Bits.ofBytes_bigEndian 4 w.toNat).symm
  unfold digest
  rw [pad_ofBytes, hgroups, ← hinit, ← hblocks, Bits.groups, List.foldl_map]
  simp only [HashValue.ofWords, List.flatMap_cons, List.flatMap_nil, hword, Digest.sha1,
    Bits.ofBytes_append, Bits.ofBytes_nil]

end SecureHash
