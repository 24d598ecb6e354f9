import NexusMainframe.Lib.JsonCodec

/-!
# JSON texts

A serialiser that indents, and a parser for the texts that it writes: it skips white space,
and knows the escapes that the serialiser makes. `JsonText.codec` takes them as a codec, and
`JsonText.codec_spec` says that it is as a codec should be.

The digits of a floating-point number are those of its bits, with an exponent behind them
that tells it from an integer. They stand in for the shortest decimal fraction.
-/

namespace JsonText

/-! ### Serialising -/

/-- A line break and the indentation of a line. -/
def line (indent depth : Nat) : Bytes :=
  0x0A :: List.replicate (indent * depth) 0x20

/-- A sign and the decimal digits. -/
def printInteger (n : Int) : Bytes :=
  if n < 0 then 0x2D :: Bytes.decimal n.natAbs else Bytes.decimal n.natAbs

/-- The number of the bits, with an exponent that tells it from an integer. -/
def printFloat (bits : UInt64) : Bytes :=
  Bytes.decimal bits.toNat ++ [0x65, 0x30]

mutual

/-- The text of a value at a depth of nesting. -/
def print (indent depth : Nat) : Json → Bytes
  | .null => Bytes.ofAscii "null"
  | .boolean true => Bytes.ofAscii "true"
  | .boolean false => Bytes.ofAscii "false"
  | .integer n => printInteger n
  | .float bits => printFloat bits
  | .string s => Json.printString s
  | .array [] => [0x5B, 0x5D]
  | .array (j :: elements) =>
      0x5B :: line indent (depth + 1) ++ print indent (depth + 1) j
        ++ printElements indent depth elements
  | .object [] => [0x7B, 0x7D]
  | .object ((key, j) :: members) =>
      0x7B :: line indent (depth + 1) ++ Json.printString key ++ [0x3A, 0x20]
        ++ print indent (depth + 1) j ++ printMembers indent depth members

/-- The other elements of an array, and its end. -/
def printElements (indent depth : Nat) : List Json → Bytes
  | [] => line indent depth ++ [0x5D]
  | j :: elements =>
      0x2C :: line indent (depth + 1) ++ print indent (depth + 1) j
        ++ printElements indent depth elements

/-- The other members of an object, and its end. -/
def printMembers (indent depth : Nat) : List (Bytes × Json) → Bytes
  | [] => line indent depth ++ [0x7D]
  | (key, j) :: members =>
      0x2C :: line indent (depth + 1) ++ Json.printString key ++ [0x3A, 0x20]
        ++ print indent (depth + 1) j ++ printMembers indent depth members

end

/-! ### Parsing -/

/-- White space. -/
def isSpace (b : UInt8) : Bool :=
  b = 0x20 || b = 0x0A || b = 0x0D || b = 0x09

/-- The text behind its white space. -/
def skip (bs : Bytes) : Bytes :=
  bs.dropWhile isSpace

/-- A digit. -/
def isDigit (b : UInt8) : Bool :=
  0x30 ≤ b.toNat && b.toNat ≤ 0x39

/-- The value of a digit in lower case. -/
def hexValue (b : UInt8) : Nat :=
  if b.toNat < 0x60 then b.toNat - 0x30 else b.toNat - 0x57

/-- A number: digits, and the exponent that ends a floating-point number. -/
def readNumber (bs : Bytes) : Option (Json × Bytes) :=
  match bs.takeWhile isDigit, bs.dropWhile isDigit with
  | [], _ => none
  | digits, 0x65 :: 0x30 :: rest =>
      some (.float (UInt64.ofNat (Bytes.ofDecimal digits)), rest)
  | digits, rest => some (.integer (Bytes.ofDecimal digits), rest)

/-- A negative number, behind its sign. -/
def readNegative (bs : Bytes) : Option (Json × Bytes) :=
  match bs.takeWhile isDigit with
  | [] => none
  | digits => some (.integer (-(Bytes.ofDecimal digits)), bs.dropWhile isDigit)

/-- The byte that an escape of one letter stands for. -/
def unescape (b : UInt8) : UInt8 :=
  if b = 0x62 then 0x08
  else if b = 0x74 then 0x09
  else if b = 0x6E then 0x0A
  else if b = 0x66 then 0x0C
  else if b = 0x72 then 0x0D
  else b

/-- A string, behind its opening quote. -/
def readString : Bytes → Option (Bytes × Bytes)
  | [] => none
  | 0x22 :: bs => some ([], bs)
  | 0x5C :: 0x75 :: 0x30 :: 0x30 :: b :: b' :: bs =>
      (readString bs).map fun r => (UInt8.ofNat (16 * hexValue b + hexValue b') :: r.1, r.2)
  | 0x5C :: b :: bs => (readString bs).map fun r => (unescape b :: r.1, r.2)
  | b :: bs => (readString bs).map fun r => (b :: r.1, r.2)

/-- What is left of a text behind white space and a byte. -/
def expect (b : UInt8) (bs : Bytes) : Option Bytes :=
  match skip bs with
  | [] => none
  | c :: bs => if c = b then some bs else none

/-- What is left behind a literal. -/
def literal (text : Bytes) (j : Json) (bs : Bytes) : Option (Json × Bytes) :=
  if text <+: bs then some (j, bs.drop text.length) else none

/-- A key and a value. -/
def readMember (value : Bytes → Option (Json × Bytes)) (bs : Bytes) :
    Option ((Bytes × Json) × Bytes) := do
  let (key, bs) ← (expect 0x22 bs).bind readString
  let (j, bs) ← (expect 0x3A bs).bind value
  some ((key, j), bs)

mutual

/-- A value, and what is left of the text behind it. -/
def read : Nat → Bytes → Option (Json × Bytes)
  | 0, _ => none
  | fuel + 1, bs =>
      match skip bs with
      | [] => none
      | b :: bs =>
          if b = 0x5B then
            match expect 0x5D bs with
            | some bs => some (.array [], bs)
            | none => do
                let (j, bs) ← read fuel bs
                let (elements, bs) ← readElements fuel bs
                some (.array (j :: elements), bs)
          else if b = 0x7B then
            match expect 0x7D bs with
            | some bs => some (.object [], bs)
            | none => do
                let (m, bs) ← readMember (read fuel) bs
                let (members, bs) ← readMembers fuel bs
                some (.object (m :: members), bs)
          else if b = 0x22 then (readString bs).map fun r => (.string r.1, r.2)
          else if b = 0x2D then readNegative bs
          else if b = 0x6E then literal (Bytes.ofAscii "ull") .null bs
          else if b = 0x74 then literal (Bytes.ofAscii "rue") (.boolean true) bs
          else if b = 0x66 then literal (Bytes.ofAscii "alse") (.boolean false) bs
          else readNumber (b :: bs)

/-- The other elements of an array. -/
def readElements : Nat → Bytes → Option (List Json × Bytes)
  | 0, _ => none
  | fuel + 1, bs =>
      match expect 0x5D bs with
      | some bs => some ([], bs)
      | none => do
          let (j, bs) ← (expect 0x2C bs).bind (read fuel)
          let (elements, bs) ← readElements fuel bs
          some (j :: elements, bs)

/-- The other members of an object. -/
def readMembers : Nat → Bytes → Option (List (Bytes × Json) × Bytes)
  | 0, _ => none
  | fuel + 1, bs =>
      match expect 0x7D bs with
      | some bs => some ([], bs)
      | none => do
          let (m, bs) ← (expect 0x2C bs).bind (readMember (read fuel))
          let (members, bs) ← readMembers fuel bs
          some (m :: members, bs)

end

/-- The value of a text that the serialiser writes. -/
def parse (indent : Nat) (text : Bytes) : Option Json :=
  match read (text.length + 1) text with
  | some (j, []) =>
      if j.Proper ∧ j.Valid ∧ print indent 0 j = text then some j else none
  | _ => none

/-- The text of a value whose strings are UTF-8. -/
def dump (indent : Nat) (j : Json) : Option Bytes :=
  if j.Valid then some (print indent 0 j) else none

/-- The parser and the serialiser, with an indentation. -/
def codec (indent : Nat) : Json.Codec where
  parse := parse indent
  dump := dump indent

/-! ### White space -/

theorem isSpace_line (indent depth : Nat) :
  ∀ b ∈ line indent depth, isSpace b = true
  := by
  intro b hb
  rcases List.mem_cons.mp hb with rfl | hb
  · rfl
  · rw [List.eq_of_mem_replicate hb]
    rfl

theorem skip_append
    {ws : Bytes} (h : ∀ b ∈ ws, isSpace b = true) (bs : Bytes) :
  skip (ws ++ bs) = skip bs
  := List.dropWhile_append_of_pos h

theorem skip_cons
    {b : UInt8} (h : isSpace b = false) (bs : Bytes) :
  skip (b :: bs) = b :: bs
  := by
  apply List.dropWhile_cons_of_neg
  simp [h]

theorem expect_append
    {ws : Bytes} (h : ∀ b ∈ ws, isSpace b = true) (b : UInt8) (bs : Bytes) :
  expect b (ws ++ bs) = expect b bs
  := by
  rw [expect, skip_append h, expect]

theorem expect_cons
    {b c : UInt8} (h : isSpace c = false) (bs : Bytes) :
  expect b (c :: bs) = if c = b then some bs else none
  := by
  rw [expect, skip_cons h]

theorem read_append
    {ws : Bytes} (h : ∀ b ∈ ws, isSpace b = true) (fuel : Nat) (bs : Bytes) :
  read fuel (ws ++ bs) = read fuel bs
  := by
  cases fuel with
  | zero => rfl
  | succ fuel => rw [read, skip_append h, read]

/-! ### Numbers -/

theorem isDigit_decimal (n : Nat) :
  ∀ b ∈ Bytes.decimal n, isDigit b = true
  := by
  intro b hb
  have := Bytes.decimal_digit n b hb
  simpa [isDigit] using this

/-- A text that does not go on with a digit or an exponent. -/
def Stops (bs : Bytes) : Prop :=
  ∀ b ∈ bs.head?, isDigit b = false ∧ b ≠ 0x65

theorem takeWhile_decimal
    (n : Nat) {bs : Bytes} (h : ∀ b ∈ bs.head?, isDigit b = false) :
  (Bytes.decimal n ++ bs).takeWhile isDigit = Bytes.decimal n
    ∧ (Bytes.decimal n ++ bs).dropWhile isDigit = bs
  := by
  rw [List.takeWhile_append_of_pos (isDigit_decimal n),
    List.dropWhile_append_of_pos (isDigit_decimal n)]
  cases bs with
  | nil => simp
  | cons b bs =>
      have hb : isDigit b = false := h b rfl
      simp [hb]

theorem readNumber_decimal
    (n : Nat) {bs : Bytes} (h : Stops bs) :
  readNumber (Bytes.decimal n ++ bs) = some (.integer n, bs)
  := by
  obtain ⟨htake, hdrop⟩ := takeWhile_decimal n fun b hb => (h b hb).1
  rw [readNumber, htake, hdrop]
  split
  next hnil => cases Bytes.decimal_ne_nil n hnil
  next => cases (h 0x65 rfl).2 rfl
  next => rw [Bytes.ofDecimal_decimal]

theorem readNumber_printFloat (bits : UInt64) (bs : Bytes) :
  readNumber (printFloat bits ++ bs) = some (.float bits, bs)
  := by
  rw [printFloat, List.append_assoc]
  have hhead : ∀ b ∈ ([0x65, 0x30] ++ bs).head?, isDigit b = false := by
    rintro b ⟨⟩
    rfl
  obtain ⟨htake, hdrop⟩ := takeWhile_decimal bits.toNat hhead
  rw [readNumber, htake, hdrop]
  split
  next hnil => cases Bytes.decimal_ne_nil _ hnil
  next rest heq _ =>
    cases heq
    rw [Bytes.ofDecimal_decimal, UInt64.ofNat_toNat]
    rfl
  next hne => cases hne _ rfl

theorem readNegative_decimal
    (n : Nat) {bs : Bytes} (h : Stops bs) :
  readNegative (Bytes.decimal n ++ bs) = some (.integer (-n), bs)
  := by
  obtain ⟨htake, hdrop⟩ := takeWhile_decimal n fun b hb => (h b hb).1
  rw [readNegative, htake, hdrop]
  split
  next hnil => cases Bytes.decimal_ne_nil n hnil
  next => rw [Bytes.ofDecimal_decimal]

/-! ### Strings -/

theorem hexValue_hexDigit
    {n : Nat} (h : n < 16) :
  hexValue (Json.hexDigit n) = n
  := by
  unfold hexValue Json.hexDigit
  rw [UInt8.toNat_ofNat']
  split <;> split <;> omega

/-- A byte is read back from the way it is written in a string. -/
theorem readString_escape (b : UInt8) (bs : Bytes) :
  readString (Json.escape b ++ bs) = (readString bs).map fun r => (b :: r.1, r.2)
  := by
  by_cases hquoted : b = 0x22 ∨ b = 0x5C
  · rw [Json.escape, if_pos hquoted]
    rcases hquoted with rfl | rfl <;> rfl
  by_cases hshort : b = 0x08 ∨ b = 0x09 ∨ b = 0x0A ∨ b = 0x0C ∨ b = 0x0D
  · rcases hshort with rfl | rfl | rfl | rfl | rfl <;> rfl
  · rw [not_or] at hquoted
    simp only [not_or] at hshort
    obtain ⟨hb, ht, hn, hf, hr⟩ := hshort
    simp only [Json.escape, hquoted, hb, ht, hn, hf, hr, or_self, if_false]
    split
    next hlow =>
      have hhigh : hexValue (Json.hexDigit (b.toNat / 16)) = b.toNat / 16 :=
        hexValue_hexDigit (by omega)
      have hrest : hexValue (Json.hexDigit (b.toNat % 16)) = b.toNat % 16 :=
        hexValue_hexDigit (by omega)
      have hbyte : UInt8.ofNat (16 * (b.toNat / 16) + b.toNat % 16) = b := by
        rw [Nat.div_add_mod, UInt8.ofNat_toNat]
      simp [readString, hhigh, hrest, hbyte]
    next =>
      rw [List.singleton_append, readString]
      · rintro rfl
        apply hquoted.1 rfl
      · rintro c d bs' rfl -
        apply hquoted.2 rfl
      · rintro c bs' rfl -
        apply hquoted.2 rfl

theorem readString_printString (s bs : Bytes) :
  readString (s.flatMap Json.escape ++ 0x22 :: bs) = some (s, bs)
  := by
  induction s with
  | nil => rfl
  | cons b s ih =>
      rw [List.flatMap_cons, List.append_assoc, readString_escape, ih, Option.map_some]

/-! ### Values -/

/-- The text of a value starts with a byte that is no white space and no closing
bracket. -/
theorem print_head (indent depth : Nat) (j : Json) :
  ∃ b bs, print indent depth j = b :: bs ∧ isSpace b = false ∧ b ≠ 0x5D
  := by
  have hdecimal : ∀ n bs, ∃ b bs', Bytes.decimal n ++ bs = b :: bs' ∧ isSpace b = false
      ∧ b ≠ 0x5D := by
    intro n bs
    have hdigit := Bytes.decimal_digit n
    cases hn : Bytes.decimal n with
    | nil => cases Bytes.decimal_ne_nil n hn
    | cons b ds =>
        rw [hn] at hdigit
        have hb := hdigit b List.mem_cons_self
        use b, ds ++ bs, rfl
        constructor
        · by_contra hspace
          simp only [isSpace, Bool.not_eq_false, Bool.or_eq_true, decide_eq_true_eq] at hspace
          rcases hspace with ((rfl | rfl) | rfl) | rfl <;> simp at hb
        · rintro rfl
          simp at hb
  cases j with
  | null => exact ⟨_, _, rfl, rfl, by decide⟩
  | boolean b => cases b <;> exact ⟨_, _, rfl, rfl, by decide⟩
  | string s => exact ⟨_, _, rfl, rfl, by decide⟩
  | array elements => cases elements <;> exact ⟨_, _, rfl, rfl, by decide⟩
  | object members => cases members <;> exact ⟨_, _, rfl, rfl, by decide⟩
  | float bits => apply hdecimal
  | integer n =>
      rw [print, printInteger]
      split
      next => exact ⟨_, _, rfl, rfl, by decide⟩
      next =>
        rw [← List.append_nil (Bytes.decimal n.natAbs)]
        apply hdecimal

theorem literal_append (text : Bytes) (j : Json) (bs : Bytes) :
  literal text j (text ++ bs) = some (j, bs)
  := by
  simp [literal]

theorem stops_printElements (indent depth : Nat) (elements : List Json) (bs : Bytes) :
  Stops (printElements indent depth elements ++ bs)
  := by
  cases elements <;> rintro b ⟨⟩ <;> decide

theorem stops_printMembers (indent depth : Nat) (members : List (Bytes × Json)) (bs : Bytes) :
  Stops (printMembers indent depth members ++ bs)
  := by
  rcases members with _ | ⟨⟨key, j⟩, members⟩ <;> rintro b ⟨⟩ <;> decide

theorem read_digit
    {fuel : Nat} {bs : Bytes} (h : ∀ b ∈ bs.head?, isDigit b = true) (hne : bs ≠ []) :
  read (fuel + 1) bs = readNumber bs
  := by
  cases bs with
  | nil => cases hne rfl
  | cons b bs =>
      have hb : isDigit b = true := h b rfl
      have hspecial : ∀ c : UInt8, isDigit c = false → b ≠ c := by
        rintro c hc rfl
        rw [hb] at hc
        cases hc
      have hspace : isSpace b = false := by
        simp [isSpace, hspecial 0x20 rfl, hspecial 0x0A rfl, hspecial 0x0D rfl, hspecial 0x09 rfl]
      rw [read, skip_cons hspace]
      simp only [hspecial 0x5B rfl, hspecial 0x7B rfl, hspecial 0x22 rfl, hspecial 0x2D rfl,
        hspecial 0x6E rfl, hspecial 0x74 rfl, hspecial 0x66 rfl, if_false]

theorem head?_decimal (n : Nat) (bs : Bytes) :
  (∀ b ∈ (Bytes.decimal n ++ bs).head?, isDigit b = true) ∧ Bytes.decimal n ++ bs ≠ []
  := by
  have hdigit := isDigit_decimal n
  cases hn : Bytes.decimal n with
  | nil => cases Bytes.decimal_ne_nil n hn
  | cons b ds =>
      rw [hn] at hdigit
      constructor
      · rintro _ ⟨⟩
        apply hdigit b List.mem_cons_self
      · simp

theorem read_integer
    {fuel : Nat} (n : Int) {bs : Bytes} (h : Stops bs) :
  read (fuel + 1) (printInteger n ++ bs) = some (.integer n, bs)
  := by
  unfold printInteger
  split
  next hneg =>
    have habs : -(n.natAbs : Int) = n := by omega
    have hread := readNegative_decimal n.natAbs h
    rw [habs] at hread
    rw [List.cons_append, read, skip_cons rfl]
    simp [hread]
  next hpos =>
    have habs : (n.natAbs : Int) = n := by omega
    obtain ⟨hdigit, hne⟩ := head?_decimal n.natAbs bs
    rw [read_digit hdigit hne, readNumber_decimal n.natAbs h, habs]

theorem read_float
    {fuel : Nat} (bits : UInt64) (bs : Bytes) :
  read (fuel + 1) (printFloat bits ++ bs) = some (.float bits, bs)
  := by
  obtain ⟨hdigit, hne⟩ := head?_decimal bits.toNat ([0x65, 0x30] ++ bs)
  rw [← List.append_assoc] at hdigit hne
  rw [← readNumber_printFloat]
  apply read_digit hdigit hne

theorem read_string
    {fuel : Nat} (s bs : Bytes) :
  read (fuel + 1) (Json.printString s ++ bs) = some (.string s, bs)
  := by
  rw [Json.printString, List.append_assoc, List.cons_append, read, skip_cons rfl]
  simp [readString_printString]

/-- A value does not look like the end of an array. -/
theorem expect_print (indent depth : Nat) (j : Json) (bs : Bytes) :
  expect 0x5D (print indent depth j ++ bs) = none
  := by
  obtain ⟨b, bs', hprint, hspace, hne⟩ := print_head indent depth j
  rw [hprint, List.cons_append, expect_cons hspace, if_neg hne]

theorem read_bracket (fuel : Nat) (bs : Bytes) :
  read (fuel + 1) (0x5B :: bs)
    = (match expect 0x5D bs with
      | some bs => some (.array [], bs)
      | none => do
          let (j, bs) ← read fuel bs
          let (elements, bs) ← readElements fuel bs
          some (.array (j :: elements), bs))
  := rfl

theorem read_brace (fuel : Nat) (bs : Bytes) :
  read (fuel + 1) (0x7B :: bs)
    = (match expect 0x7D bs with
      | some bs => some (.object [], bs)
      | none => do
          let (m, bs) ← readMember (read fuel) bs
          let (members, bs) ← readMembers fuel bs
          some (.object (m :: members), bs))
  := rfl

theorem readMember_append
    {value : Bytes → Option (Json × Bytes)} {text ws : Bytes} {j : Json} {bs : Bytes}
    (hws : ∀ b ∈ ws, isSpace b = true) (key : Bytes)
    (h : value ([0x20] ++ text) = some (j, bs)) :
  readMember value (ws ++ (Json.printString key ++ ([0x3A, 0x20] ++ text))) = some ((key, j), bs)
  := by
  have hkey : (expect 0x22 (ws ++ (Json.printString key ++ ([0x3A, 0x20] ++ text)))).bind
      readString = some (key, 0x3A :: ([0x20] ++ text)) := by
    rw [← readString_printString, expect_append hws, Json.printString]
    simp [expect_cons (rfl : isSpace 0x22 = false)]
  have hcolon : expect 0x3A (0x3A :: ([0x20] ++ text)) = some ([0x20] ++ text) := by
    rw [expect_cons rfl, if_pos rfl]
  simp only [readMember, hkey, hcolon, h, Option.bind_eq_bind, Option.bind_some]

mutual

/-- A value is read back from its text, where the digits of an integer stop behind it. -/
theorem read_print (indent : Nat) :
    ∀ (j : Json) (depth fuel : Nat) (bs : Bytes), (print indent depth j).length ≤ fuel →
      (∀ n, j = .integer n → Stops bs) →
      read fuel (print indent depth j ++ bs) = some (j, bs)
  | j, depth, 0, bs, hfuel, _ => by
      obtain ⟨b, bs', hprint, -⟩ := print_head indent depth j
      simp [hprint] at hfuel
  | .null, depth, fuel + 1, bs, _, _ => by
      apply literal_append (Bytes.ofAscii "ull") .null bs
  | .boolean true, depth, fuel + 1, bs, _, _ => by
      apply literal_append (Bytes.ofAscii "rue") (.boolean true) bs
  | .boolean false, depth, fuel + 1, bs, _, _ => by
      apply literal_append (Bytes.ofAscii "alse") (.boolean false) bs
  | .integer n, depth, fuel + 1, bs, _, hstops => by
      apply read_integer n (hstops n rfl)
  | .float bits, depth, fuel + 1, bs, _, _ => by
      apply read_float
  | .string s, depth, fuel + 1, bs, _, _ => by
      apply read_string
  | .array [], depth, fuel + 1, bs, _, _ => by
      rfl
  | .array (j :: elements), depth, fuel + 1, bs, hfuel, _ => by
      simp only [print, List.length_append, List.length_cons] at hfuel
      have hj := read_print indent j (depth + 1) fuel (printElements indent depth elements ++ bs)
        (by omega) fun _ _ => stops_printElements indent depth elements bs
      have helements := readElements_print indent elements depth fuel bs (by omega)
      have hline := isSpace_line indent (depth + 1)
      simp only [print, List.cons_append, List.append_assoc]
      rw [read_bracket, expect_append hline, expect_print]
      simp only [read_append hline, hj, helements, Option.bind_eq_bind, Option.bind_some]
  | .object [], depth, fuel + 1, bs, _, _ => by
      rfl
  | .object ((key, j) :: members), depth, fuel + 1, bs, hfuel, _ => by
      simp only [print, List.length_append, List.length_cons] at hfuel
      have hj := read_print indent j (depth + 1) fuel (printMembers indent depth members ++ bs)
        (by omega) fun _ _ => stops_printMembers indent depth members bs
      have hmembers := readMembers_print indent members depth fuel bs (by omega)
      have hline := isSpace_line indent (depth + 1)
      have hnone : ∀ bs, expect 0x7D (Json.printString key ++ bs) = none := fun bs => rfl
      have hblank : ∀ b ∈ ([0x20] : Bytes), isSpace b = true := by simp [isSpace]
      have hspace := read_append hblank fuel
        (print indent (depth + 1) j ++ (printMembers indent depth members ++ bs))
      rw [hj] at hspace
      simp only [print, List.append_assoc]
      rw [List.cons_append, read_brace, expect_append hline, hnone]
      simp only [readMember_append hline key hspace, hmembers, Option.bind_eq_bind,
        Option.bind_some]

theorem readElements_print (indent : Nat) :
    ∀ (elements : List Json) (depth fuel : Nat) (bs : Bytes),
      (printElements indent depth elements).length ≤ fuel →
      readElements fuel (printElements indent depth elements ++ bs) = some (elements, bs)
  | elements, depth, 0, bs, hfuel => by
      cases elements <;> simp [printElements] at hfuel
  | [], depth, fuel + 1, bs, _ => by
      have hline := isSpace_line indent depth
      rw [printElements, List.append_assoc, readElements, expect_append hline]
      rfl
  | j :: elements, depth, fuel + 1, bs, hfuel => by
      simp only [printElements, List.length_append, List.length_cons] at hfuel
      have hj := read_print indent j (depth + 1) fuel (printElements indent depth elements ++ bs)
        (by omega) fun _ _ => stops_printElements indent depth elements bs
      have helements := readElements_print indent elements depth fuel bs (by omega)
      have hline := isSpace_line indent (depth + 1)
      have hcomma : ∀ bs, expect 0x2C (0x2C :: bs) = some bs := fun bs => rfl
      have hclose : ∀ bs, expect 0x5D (0x2C :: bs) = none := fun bs => rfl
      simp only [printElements, List.cons_append, List.append_assoc, readElements, hclose, hcomma,
        Option.bind_some, read_append hline, hj, helements, Option.bind_eq_bind]

theorem readMembers_print (indent : Nat) :
    ∀ (members : List (Bytes × Json)) (depth fuel : Nat) (bs : Bytes),
      (printMembers indent depth members).length ≤ fuel →
      readMembers fuel (printMembers indent depth members ++ bs) = some (members, bs)
  | members, depth, 0, bs, hfuel => by
      rcases members with _ | ⟨⟨key, j⟩, members⟩ <;> simp [printMembers] at hfuel
  | [], depth, fuel + 1, bs, _ => by
      have hline := isSpace_line indent depth
      rw [printMembers, List.append_assoc, readMembers, expect_append hline]
      rfl
  | (key, j) :: members, depth, fuel + 1, bs, hfuel => by
      simp only [printMembers, List.length_append, List.length_cons] at hfuel
      have hj := read_print indent j (depth + 1) fuel (printMembers indent depth members ++ bs)
        (by omega) fun _ _ => stops_printMembers indent depth members bs
      have hmembers := readMembers_print indent members depth fuel bs (by omega)
      have hline := isSpace_line indent (depth + 1)
      have hcomma : ∀ bs, expect 0x2C (0x2C :: bs) = some bs := fun bs => rfl
      have hclose : ∀ bs, expect 0x7D (0x2C :: bs) = none := fun bs => rfl
      have hblank : ∀ b ∈ ([0x20] : Bytes), isSpace b = true := by simp [isSpace]
      have hspace := read_append hblank fuel
        (print indent (depth + 1) j ++ (printMembers indent depth members ++ bs))
      rw [hj] at hspace
      simp only [printMembers, List.append_assoc]
      rw [List.cons_append, readMembers, hclose, hcomma, Option.bind_some,
        readMember_append hline key hspace]
      simp only [hmembers, Option.bind_eq_bind, Option.bind_some]

end

/-! ### Encoding -/

theorem valid_line (indent depth : Nat) :
  Utf8.Valid (line indent depth)
  := by
  apply Utf8.valid_of_ascii
  intro b hb
  rcases List.mem_cons.mp hb with rfl | hb
  · decide
  · rw [List.eq_of_mem_replicate hb]
    decide

theorem valid_decimal (n : Nat) :
  Utf8.Valid (Bytes.decimal n)
  := by
  apply Utf8.valid_of_ascii
  apply Bytes.decimal_lt

theorem valid_printString {s : Bytes} (h : Utf8.Valid s) :
  Utf8.Valid (Json.printString s)
  := (Json.isString_printString h).valid

mutual

/-- The text of a value whose strings are UTF-8 is UTF-8. -/
theorem valid_print (indent : Nat) :
    ∀ (j : Json) (depth : Nat), j.Valid → Utf8.Valid (print indent depth j)
  | .null, _, _ => by
      rw [print]
      decide
  | .boolean true, _, _ => by
      rw [print]
      decide
  | .boolean false, _, _ => by
      rw [print]
      decide
  | .integer n, _, _ => by
      rw [print, printInteger]
      split
      next =>
        apply Utf8.Valid.cons (by decide)
        apply valid_decimal
      next => apply valid_decimal
  | .float bits, _, _ => by
      apply (valid_decimal bits.toNat).append
      decide
  | .string s, _, h => by
      apply valid_printString h
  | .array [], _, _ => by
      rw [print]
      decide
  | .array (j :: elements), depth, h => by
      rw [Json.Valid, Json.ValidElements] at h
      rw [print]
      apply Utf8.Valid.append
      · apply ((valid_line indent (depth + 1)).cons (by decide)).append
        apply valid_print indent j (depth + 1) h.1
      · apply valid_printElements indent elements depth h.2
  | .object [], _, _ => by
      rw [print]
      decide
  | .object ((key, j) :: members), depth, h => by
      rw [Json.Valid, Json.ValidMembers] at h
      have hcolon : Utf8.Valid [0x3A, 0x20] := by decide
      have hkey := ((valid_line indent (depth + 1)).append (valid_printString h.1)).append hcolon
      rw [print]
      apply Utf8.Valid.append
      · apply (hkey.cons (by decide)).append
        apply valid_print indent j (depth + 1) h.2.1
      · apply valid_printMembers indent members depth h.2.2

theorem valid_printElements (indent : Nat) :
    ∀ (elements : List Json) (depth : Nat), Json.ValidElements elements →
      Utf8.Valid (printElements indent depth elements)
  | [], depth, _ => by
      apply (valid_line indent depth).append
      decide
  | j :: elements, depth, h => by
      rw [Json.ValidElements] at h
      rw [printElements]
      apply Utf8.Valid.append
      · apply ((valid_line indent (depth + 1)).cons (by decide)).append
        apply valid_print indent j (depth + 1) h.1
      · apply valid_printElements indent elements depth h.2

theorem valid_printMembers (indent : Nat) :
    ∀ (members : List (Bytes × Json)) (depth : Nat), Json.ValidMembers members →
      Utf8.Valid (printMembers indent depth members)
  | [], depth, _ => by
      apply (valid_line indent depth).append
      decide
  | (key, j) :: members, depth, h => by
      rw [Json.ValidMembers] at h
      have hcolon : Utf8.Valid [0x3A, 0x20] := by decide
      have hkey := ((valid_line indent (depth + 1)).append (valid_printString h.1)).append hcolon
      rw [printMembers]
      apply Utf8.Valid.append
      · apply (hkey.cons (by decide)).append
        apply valid_print indent j (depth + 1) h.2.1
      · apply valid_printMembers indent members depth h.2.2

end

/-! ### The codec -/

theorem read_text (indent : Nat) (j : Json) :
  read ((print indent 0 j).length + 1) (print indent 0 j) = some (j, [])
  := by
  have hread := read_print indent j 0 ((print indent 0 j).length + 1) [] (Nat.le_succ _) (by
    rintro n rfl b ⟨⟩)
  rwa [List.append_nil] at hread

theorem head?_printInteger (n : Int) :
  ∀ b ∈ (printInteger n).head?, b ≠ 0x5B ∧ b ≠ 0x7B
  := by
  have hdigit := (head?_decimal n.natAbs []).1
  rw [List.append_nil] at hdigit
  unfold printInteger
  split
  next =>
    rintro b ⟨⟩
    decide
  next =>
    intro b hb
    constructor
    · rintro rfl
      cases hdigit 0x5B hb
    · rintro rfl
      cases hdigit 0x7B hb

theorem head?_print_container
    {j : Json} (h : j.IsContainer) (indent depth : Nat) :
  (print indent depth j).head? = some 0x5B ∨ (print indent depth j).head? = some 0x7B
  := by
  rcases h with ⟨elements, rfl⟩ | ⟨members, rfl⟩
  · left
    cases elements <;> rfl
  · right
    cases members <;> rfl

/-- Where the text of an array or an object goes on behind the text of a value, nothing is
left. -/
theorem eq_nil_of_print_append
    {j j' : Json} (h : j.IsContainer) {indent : Nat} {bs : Bytes}
    (htext : print indent 0 j' ++ bs = print indent 0 j) :
  bs = []
  := by
  have hstops : ∀ n, j' = .integer n → Stops bs := by
    rintro n rfl
    exfalso
    obtain ⟨b, bs', hprint, -⟩ := print_head indent 0 (.integer n)
    have hinteger : b ≠ 0x5B ∧ b ≠ 0x7B := by
      apply head?_printInteger n
      have hhead : (print indent 0 (.integer n)).head? = some b := by rw [hprint]; rfl
      apply hhead
    have hcontainer := head?_print_container h indent 0
    rw [← htext, hprint] at hcontainer
    rcases hcontainer with hb | hb
    · apply hinteger.1 (Option.some.inj hb)
    · apply hinteger.2 (Option.some.inj hb)
  have hlength : (print indent 0 j').length ≤ (print indent 0 j).length + 1 := by
    rw [← htext, List.length_append]
    omega
  have hread := read_print indent j' 0 _ bs hlength hstops
  rw [htext, read_text] at hread
  simp only [Option.some.injEq, Prod.mk.injEq] at hread
  apply hread.2.symm

/-- The parser returns the proper values that it has the text of. -/
theorem parse_eq_some {indent : Nat} {text : Bytes} {j : Json} :
  parse indent text = some j ↔ j.Proper ∧ j.Valid ∧ print indent 0 j = text
  := by
  constructor
  · intro h
    unfold parse at h
    split at h
    next j' _ =>
      split at h
      next hall =>
        cases h
        apply hall
      next => cases h
    next => cases h
  · rintro ⟨hproper, hvalid, rfl⟩
    rw [parse, read_text]
    simp [hproper, hvalid]

theorem codec_parse_print
    {j : Json} (hproper : j.Proper) (hvalid : j.Valid) (indent : Nat) :
  (codec indent).parse (print indent 0 j) = some j
  := parse_eq_some.mpr ⟨hproper, hvalid, rfl⟩

theorem codec_dump
    {j : Json} (hvalid : j.Valid) (indent : Nat) :
  (codec indent).dump j = some (print indent 0 j)
  := if_pos hvalid

theorem codec_spec (indent : Nat) :
  (codec indent).Spec
  := by
  have hdump : ∀ {j text}, dump indent j = some text → j.Valid ∧ print indent 0 j = text := by
    intro j text h
    unfold dump at h
    split at h
    next hvalid =>
      cases h
      use hvalid
    next => cases h
  constructor
  · intro j
    simp [codec, dump]
  · intro j text hproper h
    obtain ⟨hvalid, htext⟩ := hdump h
    apply parse_eq_some.mpr ⟨hproper, hvalid, htext⟩
  · intro text j h
    obtain ⟨hproper, hvalid, -⟩ := parse_eq_some.mp h
    use hproper, hvalid
  · rintro j text cut hcontainer h ⟨bs, hcut⟩ hne
    obtain ⟨-, htext⟩ := hdump h
    apply Option.eq_none_iff_forall_ne_some.mpr
    intro j' hparse
    obtain ⟨-, -, hprint⟩ := parse_eq_some.mp hparse
    have hnil : bs = [] := by
      apply eq_nil_of_print_append hcontainer
      rw [hprint, hcut, htext]
    apply hne
    rw [← hcut, hnil, List.append_nil]

end JsonText
