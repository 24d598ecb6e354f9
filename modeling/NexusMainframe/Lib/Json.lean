import NexusMainframe.Lib.Utf8

/-!
# JSON

JSON values, the access to the members of an object with a default, the grammar of JSON
texts, and a serialiser for objects of strings whose texts the grammar accepts.
-/

/-- A JSON value. A number is an integer, or the bits of a floating-point number. -/
inductive Json where
  | null
  | boolean (b : Bool)
  | integer (n : Int)
  | float (bits : UInt64)
  | string (s : Bytes)
  | array (elements : List Json)
  | object (members : List (Bytes × Json))

namespace Json

/-! ### Members -/

/-- Why a member cannot be read as a string: the value is no object, or the member is no
string. -/
inductive TypeError where
  | noObject
  | noString
deriving DecidableEq

/-- The string member of an object under a key, or a default when the key is absent. -/
def value (j : Json) (key fallback : Bytes) : Except TypeError Bytes :=
  match j with
  | object members =>
      match members.lookup key with
      | none => .ok fallback
      | some (string s) => .ok s
      | some _ => .error .noString
  | _ => .error .noObject

theorem bind_eq_ok
    {α : Type} {r : Except TypeError Bytes} {f : Bytes → Except TypeError α} {a : α} :
  r >>= f = .ok a ↔ ∃ s, r = .ok s ∧ f s = .ok a
  := by
  cases r <;> simp [bind, Except.bind]

/-- What `value` reads is an object. -/
theorem exists_object_of_value
    {j : Json} {key fallback s : Bytes} (h : j.value key fallback = .ok s) :
  ∃ members, j = object members
  := by
  cases j with
  | object members => use members
  | null | boolean | integer | float | string | array => cases h

/-- The member under a key is a string, if there is one. -/
def StringOrAbsent (members : List (Bytes × Json)) (key : Bytes) : Prop :=
  ∀ j, members.lookup key = some j → ∃ s, j = string s

theorem stringOrAbsent_iff (members : List (Bytes × Json)) (key fallback : Bytes) :
  StringOrAbsent members key ↔ ∃ s, (object members).value key fallback = .ok s
  := by
  simp only [value, StringOrAbsent]
  cases hmember : members.lookup key with
  | none => simp
  | some j => cases j <;> simp

theorem value_object_eq_string_iff {members : List (Bytes × Json)} {key s : Bytes} (hs : s ≠ []) :
  (object members).value key [] = .ok s ↔ members.lookup key = some (string s)
  := by
  simp only [value]
  cases hmember : members.lookup key with
  | none => simp [hs.symm]
  | some j => cases j <;> simp

/-- The object with the given string members. -/
def ofStrings (members : List (Bytes × Bytes)) : Json :=
  object (members.map fun m => (m.1, string m.2))

/-! ### Texts -/

/-- White space between tokens. -/
def IsSpace (bs : Bytes) : Prop :=
  ∀ b ∈ bs, b ∈ [0x20, 0x09, 0x0A, 0x0D]

/-- A digit. -/
def IsDigit (b : UInt8) : Prop :=
  0x30 ≤ b.toNat ∧ b.toNat ≤ 0x39

/-- A hexadecimal digit, in either case. -/
def IsHexDigit (b : UInt8) : Prop :=
  IsDigit b ∨ (0x41 ≤ b.toNat ∧ b.toNat ≤ 0x46) ∨ (0x61 ≤ b.toNat ∧ b.toNat ≤ 0x66)

/-- A sequence of digits, not empty. -/
def IsDigits (bs : Bytes) : Prop :=
  bs ≠ [] ∧ ∀ b ∈ bs, IsDigit b

/-- A number: a sign, an integer without leading zeros, a fraction and an exponent. -/
inductive IsNumber : Bytes → Prop where
  | mk {sign int frac exp esign : Bytes} (hsign : sign = [] ∨ sign = [0x2D])
      (hint : int = [0x30] ∨ (IsDigits int ∧ int.head? ≠ some 0x30))
      (hfrac : frac = [] ∨ ∃ ds, IsDigits ds ∧ frac = 0x2E :: ds)
      (hesign : esign = [] ∨ esign = [0x2B] ∨ esign = [0x2D])
      (hexp : exp = [] ∨ ∃ e ds, (e = 0x65 ∨ e = 0x45) ∧ IsDigits ds ∧ exp = e :: esign ++ ds) :
      IsNumber (sign ++ int ++ frac ++ exp)

/-- A character of a string: itself, or escaped. -/
inductive IsStringChar : Bytes → Prop where
  | unescaped (c : Char) (control : 0x20 ≤ c.toNat) (quote : c.toNat ≠ 0x22)
      (backslash : c.toNat ≠ 0x5C) : IsStringChar (String.utf8EncodeChar c)
  | escape (b : UInt8) (h : b ∈ [0x22, 0x5C, 0x2F, 0x62, 0x66, 0x6E, 0x72, 0x74]) :
      IsStringChar [0x5C, b]
  | unicode (hex : Bytes) (four : hex.length = 4) (h : ∀ b ∈ hex, IsHexDigit b) :
      IsStringChar (0x5C :: 0x75 :: hex)

/-- A string between its quotes. -/
def IsString (bs : Bytes) : Prop :=
  ∃ cs : List Bytes, (∀ c ∈ cs, IsStringChar c) ∧ bs = 0x22 :: cs.flatten ++ [0x22]

/-- A value, without the space around it. An element of an array, and the key and the
value of a member, stand between the space before and after them. -/
inductive IsValue : Bytes → Prop where
  | null : IsValue (Bytes.ofAscii "null")
  | true : IsValue (Bytes.ofAscii "true")
  | false : IsValue (Bytes.ofAscii "false")
  | number {bs} (h : IsNumber bs) : IsValue bs
  | string {bs} (h : IsString bs) : IsValue bs
  | emptyArray {ws} (h : IsSpace ws) : IsValue (0x5B :: ws ++ [0x5D])
  | array (es : List (Bytes × Bytes × Bytes)) (nonempty : es ≠ [])
      (space : ∀ e ∈ es, IsSpace e.1 ∧ IsSpace e.2.2) (value : ∀ e ∈ es, IsValue e.2.1) :
      IsValue (0x5B :: [0x2C].intercalate (es.map fun e => e.1 ++ e.2.1 ++ e.2.2) ++ [0x5D])
  | emptyObject {ws} (h : IsSpace ws) : IsValue (0x7B :: ws ++ [0x7D])
  | object (ms : List ((Bytes × Bytes × Bytes) × (Bytes × Bytes × Bytes))) (nonempty : ms ≠ [])
      (space : ∀ m ∈ ms, IsSpace m.1.1 ∧ IsSpace m.1.2.2 ∧ IsSpace m.2.1 ∧ IsSpace m.2.2.2)
      (key : ∀ m ∈ ms, IsString m.1.2.1) (value : ∀ m ∈ ms, IsValue m.2.2.1) :
      IsValue (0x7B :: [0x2C].intercalate (ms.map fun m =>
        m.1.1 ++ m.1.2.1 ++ m.1.2.2 ++ 0x3A :: (m.2.1 ++ m.2.2.1 ++ m.2.2.2)) ++ [0x7D])

/-- A JSON text. -/
def IsText (bs : Bytes) : Prop :=
  ∃ ws v ws', IsSpace ws ∧ IsValue v ∧ IsSpace ws' ∧ bs = ws ++ v ++ ws'

/-! ### Serialising objects of strings -/

/-- A hexadecimal digit in lower case. -/
def hexDigit (n : Nat) : UInt8 :=
  UInt8.ofNat (if n < 10 then 0x30 + n else 0x57 + n)

/-- A byte inside a string, escaped if it has to be. -/
def escape (b : UInt8) : Bytes :=
  if b = 0x22 ∨ b = 0x5C then [0x5C, b]
  else if b = 0x08 then [0x5C, 0x62]
  else if b = 0x09 then [0x5C, 0x74]
  else if b = 0x0A then [0x5C, 0x6E]
  else if b = 0x0C then [0x5C, 0x66]
  else if b = 0x0D then [0x5C, 0x72]
  else if b.toNat < 0x20 then
    [0x5C, 0x75, 0x30, 0x30, hexDigit (b.toNat / 16), hexDigit (b.toNat % 16)]
  else [b]

/-- The text of a string. -/
def printString (s : Bytes) : Bytes :=
  0x22 :: s.flatMap escape ++ [0x22]

/-- The text of an object of strings, without white space. -/
def printStrings (members : List (Bytes × Bytes)) : Bytes :=
  0x7B :: [0x2C].intercalate (members.map fun m => printString m.1 ++ 0x3A :: printString m.2)
    ++ [0x7D]

/-- The members of an object of strings. -/
def strings : Json → Option (List (Bytes × Bytes))
  | object members =>
      members.mapM fun m =>
        match m.2 with
        | string s => some (m.1, s)
        | _ => none
  | _ => none

/-- The text of an object of strings, if they are all valid UTF-8. -/
def dumpStrings (j : Json) : Option Bytes :=
  j.strings.bind fun members =>
    if ∀ m ∈ members, Utf8.Valid m.1 ∧ Utf8.Valid m.2 then some (printStrings members) else none

theorem strings_ofStrings (members : List (Bytes × Bytes)) :
  (ofStrings members).strings = some members
  := by
  rw [ofStrings, strings]
  induction members with
  | nil => rfl
  | cons m members ih => simp [List.mapM_cons, ih]

theorem isHexDigit_hexDigit
    {n : Nat} (h : n < 16) :
  IsHexDigit (hexDigit n)
  := by
  unfold hexDigit
  split
  next hn =>
    left
    rw [IsDigit, UInt8.toNat_ofNat']
    omega
  next hn =>
    right
    right
    rw [UInt8.toNat_ofNat']
    omega

theorem isStringChar_escape
    {b : UInt8} (h : b.toNat < 0x80) :
  IsStringChar (escape b)
  := by
  unfold escape
  split
  next hq =>
    apply IsStringChar.escape
    rcases hq with rfl | rfl <;> simp
  next hq =>
    iterate 5
      split
      next =>
        apply IsStringChar.escape
        simp
    split
    next hlow =>
      apply IsStringChar.unicode
      · rfl
      · intro d hd
        simp only [List.mem_cons, List.not_mem_nil, or_false] at hd
        rcases hd with rfl | rfl | rfl | rfl
        · left
          constructor <;> decide
        · left
          constructor <;> decide
        · apply isHexDigit_hexDigit
          omega
        · apply isHexDigit_hexDigit
          omega
    next hlow =>
      rw [not_or] at hq
      have hchar := Utf8.toNat_ofNat h
      rw [← Utf8.encode_ofNat h]
      apply IsStringChar.unescaped
      · omega
      · rw [hchar]
        intro heq
        apply hq.1 (UInt8.toNat_inj.mp heq)
      · rw [hchar]
        intro heq
        apply hq.2 (UInt8.toNat_inj.mp heq)

/-- Escaping the bytes of a character gives a character of a string. -/
theorem isStringChar_flatMap_escape (c : Char) :
  IsStringChar ((String.utf8EncodeChar c).flatMap escape)
  := by
  by_cases hc : c.toNat ≤ 0x7f
  · rw [Utf8.encodeChar_of_le hc, List.flatMap_singleton]
    apply isStringChar_escape
    rw [UInt8.toNat_ofNat']
    omega
  · have hbounds := Utf8.encodeChar_bounds (Nat.not_le.mp hc)
    have hsame : ∀ b ∈ String.utf8EncodeChar c, escape b = [b] := by
      intro b hb
      have hb := (hbounds b hb).1
      have hne : ∀ k : UInt8, k.toNat < 0x80 → b ≠ k := by
        rintro k hk rfl
        omega
      simp only [escape, hne 0x22 (by decide), hne 0x5C (by decide), hne 0x08 (by decide),
        hne 0x09 (by decide), hne 0x0A (by decide), hne 0x0C (by decide), hne 0x0D (by decide),
        or_self, if_false]
      rw [if_neg (by omega)]
    rw [List.flatMap_congr hsame, List.flatMap_singleton']
    apply IsStringChar.unescaped <;> omega

theorem isString_printString
    {s : Bytes} (h : Utf8.Valid s) :
  IsString (printString s)
  := by
  obtain ⟨cs, rfl⟩ := h
  use cs.map fun c => (String.utf8EncodeChar c).flatMap escape
  constructor
  · intro d hd
    obtain ⟨c, -, rfl⟩ := List.mem_map.mp hd
    apply isStringChar_flatMap_escape
  · rw [printString, Utf8.encode, List.flatMap_assoc]
    rfl

/-- A character of a string is UTF-8. -/
theorem IsStringChar.valid {bs : Bytes} (h : IsStringChar bs) :
  Utf8.Valid bs
  := by
  cases h with
  | unescaped c _ _ _ =>
      use [c]
      rw [Utf8.encode, List.flatMap_singleton]
  | escape b h =>
      simp only [List.mem_cons, List.not_mem_nil, or_false] at h
      rcases h with rfl | rfl | rfl | rfl | rfl | rfl | rfl | rfl <;> decide
  | unicode hex _ h =>
      have hhex : Utf8.Valid hex := by
        apply Utf8.valid_of_ascii
        intro b hb
        have := h b hb
        unfold IsHexDigit IsDigit at this
        omega
      apply Utf8.Valid.cons (by decide)
      apply Utf8.Valid.cons (by decide) hhex

theorem IsString.valid {bs : Bytes} (h : IsString bs) :
  Utf8.Valid bs
  := by
  obtain ⟨cs, hcs, rfl⟩ := h
  apply Utf8.Valid.append
  · apply Utf8.Valid.cons (by decide)
    apply Utf8.Valid.flatten
    intro c hc
    apply (hcs c hc).valid
  · decide

/-- An object of strings is serialised just if they are all valid UTF-8. -/
theorem dumpStrings_eq_none {members : List (Bytes × Bytes)} :
  dumpStrings (ofStrings members) = none
    ↔ ∃ m ∈ members, ¬ Utf8.Valid m.1 ∨ ¬ Utf8.Valid m.2
  := by
  rw [dumpStrings, strings_ofStrings, Option.bind_some]
  split
  next hall =>
    simp only [reduceCtorEq, false_iff]
    rintro ⟨m, hm, hnot | hnot⟩
    · apply hnot (hall m hm).1
    · apply hnot (hall m hm).2
  next hall =>
    simp only [true_iff]
    simpa only [not_forall, not_and_or, exists_prop] using hall

theorem isValue_printStrings
    {members : List (Bytes × Bytes)} (h : ∀ m ∈ members, Utf8.Valid m.1 ∧ Utf8.Valid m.2) :
  IsValue (printStrings members)
  := by
  have hempty : IsSpace [] := by
    intro b hb
    cases hb
  by_cases hne : members = []
  · subst hne
    apply IsValue.emptyObject hempty
  · have hobject := IsValue.object
      (members.map fun m => (([], printString m.1, []), ([], printString m.2, [])))
      (by simpa using hne)
      (by
        simp only [List.mem_map, forall_exists_index, and_imp]
        rintro _ m hm rfl
        use hempty, hempty, hempty)
      (by
        simp only [List.mem_map, forall_exists_index, and_imp]
        rintro _ m hm rfl
        apply isString_printString (h m hm).1)
      (by
        simp only [List.mem_map, forall_exists_index, and_imp]
        rintro _ m hm rfl
        apply IsValue.string (isString_printString (h m hm).2))
    simpa [printStrings, Function.comp_def] using hobject

/-- The text of an object of strings is a JSON text. -/
theorem isText_dumpStrings
    {members : List (Bytes × Bytes)} {text : Bytes}
    (h : dumpStrings (ofStrings members) = some text) :
  IsText text
  := by
  rw [dumpStrings, strings_ofStrings, Option.bind_some] at h
  split at h
  next hall =>
    obtain rfl := Option.some.inj h
    use [], printStrings members, []
    simp [IsSpace, isValue_printStrings hall]
  next => cases h

end Json
