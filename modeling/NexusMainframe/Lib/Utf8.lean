import NexusMainframe.Lib.Bytes

/-!
# UTF-8

A byte string is valid UTF-8 when it is the encoding of a list of characters. Every ASCII
string is; no string with the byte `0xFF` is.
-/

namespace Utf8

/-- The encoding of a list of characters. -/
def encode (cs : List Char) : Bytes :=
  cs.flatMap String.utf8EncodeChar

/-- A byte string that encodes a list of characters. -/
def Valid (bs : Bytes) : Prop :=
  ∃ cs, bs = encode cs

theorem valid_iff (bs : Bytes) :
  Valid bs ↔ bs.toByteArray.IsValidUTF8
  := by
  constructor
  · rintro ⟨cs, rfl⟩
    apply ByteArray.IsValidUTF8.intro cs
    rfl
  · rintro ⟨cs, h⟩
    use cs
    apply List.toByteArray_inj.mp h

instance decidableValid (bs : Bytes) : Decidable (Valid bs) :=
  decidable_of_iff _ (valid_iff bs).symm

/-- A character below 128 is encoded as one byte. -/
theorem encodeChar_of_le
    {c : Char} (h : c.toNat ≤ 0x7f) :
  String.utf8EncodeChar c = [UInt8.ofNat c.toNat]
  := by
  rw [String.utf8EncodeChar]
  apply if_pos h

/-- The other characters are encoded as bytes from 128 to 247. -/
theorem encodeChar_bounds
    {c : Char} (h : 0x7f < c.toNat) :
  ∀ b ∈ String.utf8EncodeChar c, 0x80 ≤ b.toNat ∧ b.toNat < 0xf8
  := by
  have h' : ¬ c.val.toNat ≤ 0x7f := Nat.not_le.mpr h
  intro b hb
  rw [String.utf8EncodeChar, if_neg h'] at hb
  split at hb
  · simp only [List.mem_cons, List.not_mem_nil, or_false] at hb
    rcases hb with rfl | rfl <;> rw [UInt8.toNat_ofNat'] <;> omega
  · split at hb
    · simp only [List.mem_cons, List.not_mem_nil, or_false] at hb
      rcases hb with rfl | rfl | rfl <;> rw [UInt8.toNat_ofNat'] <;> omega
    · simp only [List.mem_cons, List.not_mem_nil, or_false] at hb
      rcases hb with rfl | rfl | rfl | rfl <;> rw [UInt8.toNat_ofNat'] <;> omega

theorem toNat_ofNat
    {n : Nat} (h : n < 0x80) :
  (Char.ofNat n).toNat = n
  := by
  have hvalid : n.isValidChar := Or.inl (by omega)
  rw [Char.ofNat, dif_pos hvalid]
  rfl

/-- A byte below 128 is the encoding of a character. -/
theorem encode_ofNat
    {b : UInt8} (h : b.toNat < 0x80) :
  String.utf8EncodeChar (Char.ofNat b.toNat) = [b]
  := by
  rw [encodeChar_of_le (by rw [toNat_ofNat h]; omega), toNat_ofNat h, UInt8.ofNat_toNat]

/-- ASCII is valid UTF-8. -/
theorem valid_of_ascii
    {bs : Bytes} (h : ∀ b ∈ bs, b.toNat < 0x80) :
  Valid bs
  := by
  use bs.map fun b => Char.ofNat b.toNat
  induction bs with
  | nil => rfl
  | cons b bs ih =>
      rw [List.map_cons, encode, List.flatMap_cons, encode_ofNat (h b (by simp)),
        List.singleton_append]
      congr 1
      apply ih (fun b hb => h b (by simp [hb]))

theorem Valid.append {bs bs' : Bytes} (h : Valid bs) (h' : Valid bs') :
  Valid (bs ++ bs')
  := by
  obtain ⟨cs, rfl⟩ := h
  obtain ⟨cs', rfl⟩ := h'
  use cs ++ cs'
  rw [encode, encode, encode, List.flatMap_append]

/-- A byte below 128 in front. -/
theorem Valid.cons
    {b : UInt8} {bs : Bytes} (hb : b.toNat < 0x80) (h : Valid bs) :
  Valid (b :: bs)
  := by
  rw [← List.singleton_append]
  apply Valid.append _ h
  apply valid_of_ascii
  simpa using hb

theorem Valid.flatten
    {parts : List Bytes} (h : ∀ part ∈ parts, Valid part) :
  Valid parts.flatten
  := by
  induction parts with
  | nil => exact ⟨[], rfl⟩
  | cons part parts ih =>
      rw [List.flatten_cons]
      apply (h part List.mem_cons_self).append
      apply ih
      intro part' hpart
      apply h part' (List.mem_cons_of_mem part hpart)

/-- UTF-8 in front of a string does not matter. -/
theorem Valid.append_iff {bs bs' : Bytes} (h : Valid bs) :
  Valid (bs ++ bs') ↔ Valid bs'
  := by
  obtain ⟨cs, rfl⟩ := h
  induction cs with
  | nil => rfl
  | cons c cs ih =>
      have hcons : (encode (c :: cs) ++ bs').toByteArray
          = [c].utf8Encode ++ (encode cs ++ bs').toByteArray := by
        rw [encode, List.flatMap_cons, List.append_assoc, List.toByteArray_append,
          List.utf8Encode_singleton]
        rfl
      rw [valid_iff, hcons, ByteArray.isValidUTF8_utf8Encode_singleton_append_iff, ← valid_iff, ih]

/-- A byte below 128 at the end is a character of its own. -/
theorem Valid.of_concat
    {bs : Bytes} {b : UInt8} (hb : b.toNat < 0x80) (h : Valid (bs ++ [b])) :
  Valid bs
  := by
  obtain ⟨cs, h⟩ := h
  rcases List.eq_nil_or_concat cs with rfl | ⟨cs, c, rfl⟩
  · simp [encode] at h
  · rw [List.concat_eq_append, encode, List.flatMap_append, List.flatMap_singleton] at h
    by_cases hc : c.toNat ≤ 0x7f
    · rw [encodeChar_of_le hc] at h
      use cs
      apply (List.append_inj' h rfl).1
    · have hbounds := encodeChar_bounds (Nat.not_le.mp hc)
      rcases List.eq_nil_or_concat (String.utf8EncodeChar c) with hnil | ⟨init, x, hinit⟩
      · exact absurd hnil (String.utf8EncodeChar_ne_nil)
      · rw [List.concat_eq_append] at hinit
        rw [hinit, ← List.append_assoc] at h
        obtain ⟨-, hx⟩ := List.append_inj' h rfl
        have hlast := (hbounds x (by simp [hinit])).1
        rw [← List.singleton_inj.mp hx] at hlast
        omega

/-- ASCII behind a string does not matter. -/
theorem valid_append_ascii
    {bs suffix : Bytes} (h : ∀ b ∈ suffix, b.toNat < 0x80) :
  Valid (bs ++ suffix) ↔ Valid bs
  := by
  constructor
  · intro hvalid
    induction suffix using List.reverseRecOn with
    | nil => rwa [List.append_nil] at hvalid
    | append_singleton suffix b ih =>
        rw [← List.append_assoc] at hvalid
        apply ih
        · intro b' hb'
          apply h b' (List.mem_append_left _ hb')
        · apply hvalid.of_concat (h b (by simp))
  · intro hvalid
    apply hvalid.append (valid_of_ascii h)

/-- `0xFF` occurs in no encoding. -/
theorem not_valid_of_mem
    {bs : Bytes} (h : 0xFF ∈ bs) :
  ¬ Valid bs
  := by
  rintro ⟨cs, rfl⟩
  obtain ⟨c, -, hc⟩ := List.mem_flatMap.mp h
  by_cases hle : c.toNat ≤ 0x7f
  · rw [encodeChar_of_le hle, List.mem_singleton] at hc
    have := congrArg UInt8.toNat hc
    rw [UInt8.toNat_ofNat'] at this
    have h255 : (0xFF : UInt8).toNat = 255 := rfl
    omega
  · have := (encodeChar_bounds (by omega) _ hc).2
    have h255 : (0xFF : UInt8).toNat = 255 := rfl
    omega

end Utf8
