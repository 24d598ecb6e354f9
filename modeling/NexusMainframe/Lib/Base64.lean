import NexusMainframe.Lib.Bits
import NexusMainframe.Lib.Digest

/-!
# The standard's Base64

Base64 as the standard states it, on bits: they are filled up with zeros to groups of six, each
group is a character, and `=` fills the characters up to groups of four. The decoder is a strict
one: it takes nothing but what the encoder makes. `encode_eq` says that `Digest.base64Encode`,
on three bytes at a time, is this encoding.
-/

namespace Base64

/-- The 64 digits. -/
def alphabet : Bytes :=
  Bytes.ofAscii "ABCDEFGHIJKLMNOPQRSTUVWXYZabcdefghijklmnopqrstuvwxyz0123456789+/"

/-- The character of six bits. -/
def char (g : List Bool) : UInt8 :=
  alphabet.getD (Bits.value g) 0

/-- The characters of a bit string, filled up with zeros. -/
def chars (bits : List Bool) : Bytes :=
  (Bits.groups 6 (bits ++ List.replicate ((6 - bits.length % 6) % 6) false)).map char

/-- Characters with `=` behind them, up to a multiple of four. -/
def fill (cs : Bytes) : Bytes :=
  cs ++ List.replicate ((4 - cs.length % 4) % 4) 0x3D

/-- The digits of the bits in groups of six, filled up with `=` to groups of four. -/
def encode (data : Bytes) : Bytes :=
  fill (chars (Bits.ofBytes data))

/-- The six bits of a character. -/
def bits (c : UInt8) : Option (List Bool) :=
  (alphabet.idxOf? c).map (Bits.ofNat 6)

/-- The bytes of a text: it is characters of the alphabet, filled up, and the bits behind the
last byte are fewer than six, and zeros. -/
def decode (text : Bytes) : Option Bytes := do
  let cs := text.takeWhile fun c => c ≠ 0x3D
  let groups ← cs.mapM bits
  let rest := groups.flatten.drop (8 * (groups.flatten.length / 8))
  if text = fill cs ∧ rest.length < 6 ∧ ∀ b ∈ rest, b = false then
    return Bits.toBytes groups.flatten
  else none

/-! ### Characters and bits -/

theorem bits_char {g : List Bool} (h : g.length = 6) :
  bits (char g) = some g
  := by
  have hindex : ∀ v < 64, (alphabet.idxOf? (alphabet.getD v 0)) = some v := by decide +kernel
  have hv : Bits.value g < 64 := by
    have := Bits.value_lt g
    rwa [h] at this
  unfold bits char
  rw [hindex _ hv, Option.map_some, ← h, Bits.ofNat_value]

theorem char_mem {g : List Bool} (h : g.length = 6) :
  char g ∈ alphabet
  := by
  have hv : Bits.value g < alphabet.length := by
    have := Bits.value_lt g
    rwa [h] at this
  rw [char, List.getD_eq_getElem?_getD, List.getElem?_eq_getElem hv]
  apply List.getElem_mem

theorem length_chars (l : List Bool) :
  (chars l).length = (l.length + 5) / 6
  := by
  simp only [chars, Bits.groups, List.length_map, List.length_range, List.length_append,
    List.length_replicate]
  omega

/-- Four characters for each three bytes, or part of three. -/
theorem length_encode (data : Bytes) :
  (encode data).length = 4 * ((data.length + 2) / 3)
  := by
  simp only [encode, fill, List.length_append, List.length_replicate, length_chars,
    Bits.length_ofBytes]
  omega

theorem chars_mem (l : List Bool) :
  ∀ c ∈ chars l, c ∈ alphabet
  := by
  intro c hc
  obtain ⟨g, hg, rfl⟩ := List.mem_map.mp hc
  apply char_mem (Bits.length_of_mem_groups hg)

theorem chars_ne (l : List Bool) :
  ∀ c ∈ chars l, c ≠ 0x3D
  := by
  have halphabet : ∀ c ∈ alphabet, c ≠ 0x3D := by decide +kernel
  intro c hc
  apply halphabet c (chars_mem l c hc)

/-- The padding of an encoded byte string, and nothing else in it, is `=`. -/
theorem encode_eq_chars (data : Bytes) :
  encode data = chars (Bits.ofBytes data) ++ List.replicate ((3 - data.length % 3) % 3) 0x3D
  := by
  unfold encode fill
  rw [length_chars, Bits.length_ofBytes]
  congr 2
  rcases (by omega : data.length % 3 = 0 ∨ data.length % 3 = 1 ∨ data.length % 3 = 2)
    with h | h | h
  · omega
  · omega
  · omega

/-! ### Decoding -/

theorem takeWhile_fill {cs : Bytes} (h : ∀ c ∈ cs, c ≠ 0x3D) :
  (fill cs).takeWhile (fun c => c ≠ 0x3D) = cs
  := by
  unfold fill
  rw [List.takeWhile_append_of_pos (by simpa using h), List.takeWhile_replicate]
  simp

theorem mapM_bits_char {gs : List (List Bool)} (h : ∀ g ∈ gs, g.length = 6) :
  (gs.map char).mapM bits = some gs
  := by
  induction gs with
  | nil => rfl
  | cons g gs ih =>
      obtain ⟨hg, hgs⟩ := List.forall_mem_cons.mp h
      rw [List.map_cons, List.mapM_cons, bits_char hg, ih hgs]
      rfl

/-- Decoding gives back the bytes. -/
theorem decode_encode (data : Bytes) :
  decode (encode data) = some data
  := by
  have hbits := Bits.length_ofBytes data
  obtain ⟨zeros, hzeros⟩ : ∃ zeros, zeros = (6 - (Bits.ofBytes data).length % 6) % 6 := ⟨_, rfl⟩
  have hlen : (Bits.ofBytes data ++ List.replicate zeros false).length
      = 6 * (((Bits.ofBytes data).length + 5) / 6) := by
    rw [List.length_append, List.length_replicate]
    omega
  have hgroups := Bits.flatten_groups (by decide) _ hlen
  have hdrop : (Bits.ofBytes data ++ List.replicate zeros false).drop
      (8 * ((Bits.ofBytes data ++ List.replicate zeros false).length / 8))
        = List.replicate zeros false := by
    apply List.drop_left'
    rw [List.length_append, List.length_replicate]
    omega
  have hrest : (List.replicate zeros false).length < 6 := by
    rw [List.length_replicate]
    omega
  have hmap := mapM_bits_char fun g (hg : g ∈ Bits.groups 6 (Bits.ofBytes data
    ++ List.replicate zeros false)) => Bits.length_of_mem_groups hg
  have hzero : ∀ b ∈ List.replicate zeros false, b = false :=
    fun b hb => List.eq_of_mem_replicate hb
  unfold decode encode
  dsimp only
  rw [takeWhile_fill (chars_ne _), chars, ← hzeros, hmap]
  simp only [Option.bind_eq_bind, Option.bind_some, hgroups, hdrop, Option.pure_def]
  rw [if_pos ⟨trivial, hrest, hzero⟩, Bits.toBytes_ofBytes_append _ (hrest.trans (by decide))]

/-! ### Three bytes at a time -/

theorem base64Char_eq (v : UInt32) {shift : Nat} (h : shift < 32) :
  Digest.base64Char v (UInt32.ofNat shift) = char (Bits.ofNat 6 (v.toNat >>> shift))
  := by
  have hshift : (UInt32.ofNat shift).toNat % 32 = shift := by
    rw [UInt32.toNat_ofNat']
    omega
  have hlow : ((v >>> UInt32.ofNat shift) &&& 63).toNat = (v.toNat >>> shift) % 2 ^ 6 := by
    rw [UInt32.toNat_and, UInt32.toNat_shiftRight, hshift]
    apply Nat.and_two_pow_sub_one_eq_mod _ 6
  rw [char, Bits.value_ofNat, ← hlow]
  rfl

/-- The 24 bits of a number in four groups. -/
theorem ofNat_twentyFour (n : Nat) :
  Bits.ofNat 24 n = Bits.ofNat 6 (n >>> 18) ++ (Bits.ofNat 6 (n >>> 12)
    ++ (Bits.ofNat 6 (n >>> 6) ++ Bits.ofNat 6 n))
  := by
  have h₁ := Bits.ofNat_add 6 18 n
  have h₂ := Bits.ofNat_add 6 12 n
  have h₃ := Bits.ofNat_add 6 6 n
  rw [h₁, h₂, h₃]

/-- The bits of three bytes, put together in one word. -/
theorem ofBytes_three (a b c : UInt8) :
  Bits.ofBytes [a, b, c]
    = Bits.ofNat 24 ((a.toUInt32 <<< 16) ||| (b.toUInt32 <<< 8) ||| c.toUInt32).toNat
  := by
  have hword := Bits.toNat_word 0 a b c
  have hvalue : Bytes.ofBigEndian [0, a, b, c] = Bytes.ofBigEndian [a, b, c] := by
    simp [Bytes.ofBigEndian]
  have hzero : (0 : UInt8).toUInt32 <<< 24 = 0 := rfl
  rw [hzero, UInt32.zero_or, hvalue] at hword
  rw [hword, ← Bits.value_ofBytes]
  exact (Bits.ofNat_value (Bits.ofBytes [a, b, c])).symm

theorem chars_append {g : List Bool} (hg : g.length = 6) (l : List Bool) :
  chars (g ++ l) = char g :: chars l
  := by
  have hzeros : (6 - (g ++ l).length % 6) % 6 = (6 - l.length % 6) % 6 := by
    rw [List.length_append, hg, Nat.add_mod_left]
  unfold chars
  rw [hzeros, List.append_assoc, Bits.groups_append hg (by decide), List.map_cons]

theorem fill_append {cs : Bytes} (hcs : cs.length = 4) (l : Bytes) :
  fill (cs ++ l) = cs ++ fill l
  := by
  unfold fill
  rw [List.length_append, hcs, Nat.add_mod_left, List.append_assoc]

/-- The zeros that are filled up may as well be there from the start. -/
theorem chars_append_zeros (l : List Bool) :
  chars (l ++ List.replicate ((6 - l.length % 6) % 6) false) = chars l
  := by
  have hlen : (6 - (l ++ List.replicate ((6 - l.length % 6) % 6) false).length % 6) % 6 = 0 := by
    rw [List.length_append, List.length_replicate]
    omega
  unfold chars
  rw [hlen, List.replicate_zero, List.append_nil]

/-- One byte and the zeros behind it. -/
theorem ofBytes_one (a : UInt8) :
  Bits.ofBytes [a] ++ List.replicate 4 false
    = Bits.ofNat 6 ((a.toUInt32 <<< 16).toNat >>> 18)
      ++ Bits.ofNat 6 ((a.toUInt32 <<< 16).toNat >>> 12)
  := by
  have hthree := ofBytes_three a 0 0
  have hword : (a.toUInt32 <<< 16) ||| ((0 : UInt8).toUInt32 <<< 8) ||| (0 : UInt8).toUInt32
      = a.toUInt32 <<< 16 := by simp
  have hzeros : Bits.ofBytes [a, 0, 0]
      = (Bits.ofBytes [a] ++ List.replicate 4 false) ++ List.replicate 12 false := by
    simp [Bits.ofBytes, Bits.ofNat_zero]
  rw [hword, hzeros, ofNat_twentyFour, ← List.append_assoc] at hthree
  apply List.append_inj_left hthree
  simp

/-- Two bytes and the zeros behind them. -/
theorem ofBytes_two (a b : UInt8) :
  Bits.ofBytes [a, b] ++ List.replicate 2 false
    = Bits.ofNat 6 (((a.toUInt32 <<< 16) ||| (b.toUInt32 <<< 8)).toNat >>> 18)
      ++ (Bits.ofNat 6 (((a.toUInt32 <<< 16) ||| (b.toUInt32 <<< 8)).toNat >>> 12)
        ++ Bits.ofNat 6 (((a.toUInt32 <<< 16) ||| (b.toUInt32 <<< 8)).toNat >>> 6))
  := by
  have hthree := ofBytes_three a b 0
  have hword : (a.toUInt32 <<< 16) ||| (b.toUInt32 <<< 8) ||| (0 : UInt8).toUInt32
      = (a.toUInt32 <<< 16) ||| (b.toUInt32 <<< 8) := by simp
  have hzeros : Bits.ofBytes [a, b, 0]
      = (Bits.ofBytes [a, b] ++ List.replicate 2 false) ++ List.replicate 6 false := by
    simp [Bits.ofBytes, Bits.ofNat_zero]
  rw [hword, hzeros, ofNat_twentyFour, ← List.append_assoc, ← List.append_assoc] at hthree
  rw [← List.append_assoc]
  apply List.append_inj_left hthree
  simp

theorem chars_one (a : UInt8) :
  chars (Bits.ofBytes [a])
    = [Digest.base64Char (a.toUInt32 <<< 16) 18, Digest.base64Char (a.toUInt32 <<< 16) 12]
  := by
  have h₀ := base64Char_eq (a.toUInt32 <<< 16) (by decide : 18 < 32)
  have h₁ := base64Char_eq (a.toUInt32 <<< 16) (by decide : 12 < 32)
  have hzeros := chars_append_zeros (Bits.ofBytes [a])
  have hlast := chars_append (Bits.length_ofNat 6 ((a.toUInt32 <<< 16).toNat >>> 12)) []
  rw [List.append_nil] at hlast
  rw [Bits.length_ofBytes] at hzeros
  rw [← hzeros, List.length_singleton]
  rw [ofBytes_one, chars_append (Bits.length_ofNat 6 _), hlast, ← h₀, ← h₁]
  rfl

theorem chars_two (a b : UInt8) :
  chars (Bits.ofBytes [a, b])
    = [Digest.base64Char ((a.toUInt32 <<< 16) ||| (b.toUInt32 <<< 8)) 18,
       Digest.base64Char ((a.toUInt32 <<< 16) ||| (b.toUInt32 <<< 8)) 12,
       Digest.base64Char ((a.toUInt32 <<< 16) ||| (b.toUInt32 <<< 8)) 6]
  := by
  have h₀ := base64Char_eq ((a.toUInt32 <<< 16) ||| (b.toUInt32 <<< 8)) (by decide : 18 < 32)
  have h₁ := base64Char_eq ((a.toUInt32 <<< 16) ||| (b.toUInt32 <<< 8)) (by decide : 12 < 32)
  have h₂ := base64Char_eq ((a.toUInt32 <<< 16) ||| (b.toUInt32 <<< 8)) (by decide : 6 < 32)
  have hzeros := chars_append_zeros (Bits.ofBytes [a, b])
  have hlast := chars_append (Bits.length_ofNat 6
    (((a.toUInt32 <<< 16) ||| (b.toUInt32 <<< 8)).toNat >>> 6)) []
  rw [List.append_nil] at hlast
  rw [Bits.length_ofBytes] at hzeros
  rw [← hzeros, List.length_cons, List.length_singleton]
  rw [ofBytes_two, chars_append (Bits.length_ofNat 6 _), chars_append (Bits.length_ofNat 6 _),
    hlast, ← h₀, ← h₁, ← h₂]
  rfl

theorem chars_three (a b c : UInt8) (l : List Bool) :
  chars (Bits.ofBytes [a, b, c] ++ l)
    = [Digest.base64Char ((a.toUInt32 <<< 16) ||| (b.toUInt32 <<< 8) ||| c.toUInt32) 18,
       Digest.base64Char ((a.toUInt32 <<< 16) ||| (b.toUInt32 <<< 8) ||| c.toUInt32) 12,
       Digest.base64Char ((a.toUInt32 <<< 16) ||| (b.toUInt32 <<< 8) ||| c.toUInt32) 6,
       Digest.base64Char ((a.toUInt32 <<< 16) ||| (b.toUInt32 <<< 8) ||| c.toUInt32) 0] ++ chars l
  := by
  rw [ofBytes_three]
  generalize (a.toUInt32 <<< 16) ||| (b.toUInt32 <<< 8) ||| c.toUInt32 = v
  have h₀ := base64Char_eq v (by decide : 18 < 32)
  have h₁ := base64Char_eq v (by decide : 12 < 32)
  have h₂ := base64Char_eq v (by decide : 6 < 32)
  have h₃ := base64Char_eq v (by decide : 0 < 32)
  rw [Nat.shiftRight_zero] at h₃
  simp only [ofNat_twentyFour, List.append_assoc, chars_append (Bits.length_ofNat 6 _)]
  rw [← h₀, ← h₁, ← h₂, ← h₃]
  rfl

/-- The encoding by three bytes at a time is the standard's. -/
theorem encode_eq (data : Bytes) :
  encode data = Digest.base64Encode data
  := by
  fun_induction Digest.base64Encode data with
  | case1 => rfl
  | case2 a v =>
      rw [encode, chars_one]
      rfl
  | case3 a b v =>
      rw [encode, chars_two]
      rfl
  | case4 a b c rest v ih =>
      have hcons : Bits.ofBytes (a :: b :: c :: rest)
          = Bits.ofBytes [a, b, c] ++ Bits.ofBytes rest := Bits.ofBytes_append [a, b, c] rest
      rw [← ih, encode, hcons, chars_three, fill_append rfl]
      rfl

end Base64
