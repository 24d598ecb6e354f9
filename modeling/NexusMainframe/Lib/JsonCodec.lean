import NexusMainframe.Lib.Json

/-!
# Parsing and serialising JSON

`Json.Codec` is a parser with a serialiser, and `Json.Codec.Spec` what a program may assume
of them: the serialiser refuses just the values with a string that is not UTF-8, the parser
reads back what the serialiser has written of a proper value, and no text of an array or an
object has a shorter text in front. The access to parts of a value comes with conversions
that fail on a value of another type.

A value is proper when a parser can return it: the keys of an object are in order and
different, integers fit into a machine word, and floating-point numbers are finite.
-/

namespace Json

/-! ### Proper values -/

/-- A floating-point number that is no infinity and no NaN. -/
def IsFinite (bits : UInt64) : Prop :=
  bits.toNat / 0x10000000000000 % 0x800 ≠ 0x7FF

instance : DecidablePred IsFinite :=
  fun _ => inferInstanceAs (Decidable (_ ≠ _))

/-- The order of keys, byte by byte. -/
def KeyLt (key key' : Bytes) : Prop :=
  List.Lex (fun b b' : UInt8 => b.toNat < b'.toNat) key key'

instance : DecidableRel KeyLt :=
  fun key key' => inferInstanceAs
    (Decidable (List.Lex (fun b b' : UInt8 => b.toNat < b'.toNat) key key'))

mutual

/-- All strings and keys are UTF-8. -/
def Valid : Json → Prop
  | string s => Utf8.Valid s
  | array elements => ValidElements elements
  | object members => ValidMembers members
  | null | boolean _ | integer _ | float _ => True

/-- The elements are valid. -/
def ValidElements : List Json → Prop
  | [] => True
  | j :: elements => Valid j ∧ ValidElements elements

/-- The keys and the values are valid. -/
def ValidMembers : List (Bytes × Json) → Prop
  | [] => True
  | (key, j) :: members => Utf8.Valid key ∧ Valid j ∧ ValidMembers members

end

mutual

/-- A value as a parser returns it. -/
def Proper : Json → Prop
  | integer n => -0x8000000000000000 ≤ n ∧ n < 0x10000000000000000
  | float bits => IsFinite bits
  | array elements => ProperElements elements
  | object members => (members.map Prod.fst).Pairwise KeyLt ∧ ProperMembers members
  | null | boolean _ | string _ => True

/-- The elements are proper. -/
def ProperElements : List Json → Prop
  | [] => True
  | j :: elements => Proper j ∧ ProperElements elements

/-- The values are proper. -/
def ProperMembers : List (Bytes × Json) → Prop
  | [] => True
  | (_, j) :: members => Proper j ∧ ProperMembers members

end

theorem validElements_iff {elements : List Json} :
  ValidElements elements ↔ ∀ j ∈ elements, Valid j
  := by
  induction elements with
  | nil => simp [ValidElements]
  | cons j elements ih => simp [ValidElements, ih]

theorem validMembers_iff {members : List (Bytes × Json)} :
  ValidMembers members ↔ ∀ m ∈ members, Utf8.Valid m.1 ∧ Valid m.2
  := by
  induction members with
  | nil => simp [ValidMembers]
  | cons m members ih => simp [ValidMembers, ih, and_assoc]

theorem properElements_iff {elements : List Json} :
  ProperElements elements ↔ ∀ j ∈ elements, Proper j
  := by
  induction elements with
  | nil => simp [ProperElements]
  | cons j elements ih => simp [ProperElements, ih]

theorem properMembers_iff {members : List (Bytes × Json)} :
  ProperMembers members ↔ ∀ m ∈ members, Proper m.2
  := by
  induction members with
  | nil => simp [ProperMembers]
  | cons m members ih => simp [ProperMembers, ih]

@[simp]
theorem valid_string {s : Bytes} : Valid (string s) ↔ Utf8.Valid s :=
  Iff.rfl

@[simp]
theorem valid_boolean {b : Bool} : Valid (boolean b) :=
  trivial

@[simp]
theorem valid_integer {n : Int} : Valid (integer n) :=
  trivial

@[simp]
theorem proper_string {s : Bytes} : Proper (string s) :=
  trivial

@[simp]
theorem proper_boolean {b : Bool} : Proper (boolean b) :=
  trivial

@[simp]
theorem proper_integer {n : Int} :
  Proper (integer n) ↔ -0x8000000000000000 ≤ n ∧ n < 0x10000000000000000
  := Iff.rfl

@[simp]
theorem valid_array {elements : List Json} :
  Valid (array elements) ↔ ∀ j ∈ elements, Valid j
  := by
  rw [Valid, validElements_iff]

@[simp]
theorem valid_object {members : List (Bytes × Json)} :
  Valid (object members) ↔ ∀ m ∈ members, Utf8.Valid m.1 ∧ Valid m.2
  := by
  rw [Valid, validMembers_iff]

@[simp]
theorem proper_array {elements : List Json} :
  Proper (array elements) ↔ ∀ j ∈ elements, Proper j
  := by
  rw [Proper, properElements_iff]

@[simp]
theorem proper_object {members : List (Bytes × Json)} :
  Proper (object members) ↔ (members.map Prod.fst).Pairwise KeyLt ∧ ∀ m ∈ members, Proper m.2
  := by
  rw [Proper, properMembers_iff]

mutual

/-- A value is looked through for texts that are not UTF-8. -/
def decidableValid : ∀ j : Json, Decidable (Valid j)
  | string s => inferInstanceAs (Decidable (Utf8.Valid s))
  | array elements => decidableValidElements elements
  | object members => decidableValidMembers members
  | null | boolean _ | integer _ | float _ => isTrue trivial

def decidableValidElements : ∀ elements : List Json, Decidable (ValidElements elements)
  | [] => isTrue trivial
  | j :: elements =>
      have := decidableValid j
      have := decidableValidElements elements
      inferInstanceAs (Decidable (Valid j ∧ ValidElements elements))

def decidableValidMembers :
    ∀ members : List (Bytes × Json), Decidable (ValidMembers members)
  | [] => isTrue trivial
  | (key, j) :: members =>
      have := decidableValid j
      have := decidableValidMembers members
      inferInstanceAs (Decidable (Utf8.Valid key ∧ Valid j ∧ ValidMembers members))

end

mutual

/-- A value is looked through for numbers out of range and objects out of order. -/
def decidableProper : ∀ j : Json, Decidable (Proper j)
  | integer n => inferInstanceAs (Decidable (-0x8000000000000000 ≤ n ∧ n < 0x10000000000000000))
  | float bits => inferInstanceAs (Decidable (IsFinite bits))
  | array elements => decidableProperElements elements
  | object members =>
      have := decidableProperMembers members
      inferInstanceAs
        (Decidable ((members.map Prod.fst).Pairwise KeyLt ∧ ProperMembers members))
  | null | boolean _ | string _ => isTrue trivial

def decidableProperElements : ∀ elements : List Json, Decidable (ProperElements elements)
  | [] => isTrue trivial
  | j :: elements =>
      have := decidableProper j
      have := decidableProperElements elements
      inferInstanceAs (Decidable (Proper j ∧ ProperElements elements))

def decidableProperMembers :
    ∀ members : List (Bytes × Json), Decidable (ProperMembers members)
  | [] => isTrue trivial
  | (_, j) :: members =>
      have := decidableProper j
      have := decidableProperMembers members
      inferInstanceAs (Decidable (Proper j ∧ ProperMembers members))

end

instance : DecidablePred Valid :=
  decidableValid

instance : DecidablePred Proper :=
  decidableProper

/-! ### The order of keys -/

theorem KeyLt.head {b b' : UInt8} (h : b.toNat < b'.toNat) (key key' : Bytes) :
  KeyLt (b :: key) (b' :: key')
  := List.Lex.rel (r := fun b b' : UInt8 => b.toNat < b'.toNat) h

theorem KeyLt.trans
    {key key' key'' : Bytes} (h : KeyLt key key') (h' : KeyLt key' key'') :
  KeyLt key key''
  := by
  unfold KeyLt at *
  induction h generalizing key'' with
  | nil =>
      cases h' <;> apply List.Lex.nil
  | cons _ ih =>
      cases h' with
      | cons h' => apply List.Lex.cons (ih h')
      | rel h' => apply KeyLt.head h'
  | rel h =>
      cases h' with
      | cons h' => apply KeyLt.head h
      | rel h' => apply KeyLt.head (lt_trans h h')

/-- Of two different keys one is less than the other. -/
theorem KeyLt.of_not
    {key key' : Bytes} (hne : key ≠ key') (h : ¬ KeyLt key key') :
  KeyLt key' key
  := by
  unfold KeyLt at *
  induction key generalizing key' with
  | nil =>
      cases key' with
      | nil => exact (hne rfl).elim
      | cons b' key' => exact (h List.Lex.nil).elim
  | cons b key ih =>
      cases key' with
      | nil => apply List.Lex.nil
      | cons b' key' =>
          rcases lt_trichotomy b.toNat b'.toNat with hlt | heq | hgt
          · exact (h (KeyLt.head hlt key key')).elim
          · obtain rfl := UInt8.toNat_inj.mp heq
            apply List.Lex.cons
            apply ih
            · rintro rfl
              apply hne rfl
            · intro hlt
              apply h (List.Lex.cons hlt)
          · apply KeyLt.head hgt

theorem KeyLt.ne {key key' : Bytes} (h : KeyLt key key') :
  key ≠ key'
  := by
  unfold KeyLt at h
  induction h with
  | nil => simp
  | cons _ ih =>
      intro heq
      apply ih (List.cons_inj_right _ |>.mp heq)
  | rel h =>
      rintro heq
      rw [List.cons_eq_cons] at heq
      rw [heq.1] at h
      apply lt_irrefl _ h

/-- The keys of a proper object are different. -/
theorem Proper.nodup_keys {members : List (Bytes × Json)} (h : (object members).Proper) :
  (members.map Prod.fst).Nodup
  := (proper_object.mp h).1.imp KeyLt.ne

/-! ### Access -/

/-- What a loop over a value goes through. -/
def items : Json → List Json
  | null => []
  | array elements => elements
  | object members => members.map Prod.snd
  | j => [j]

/-- The member of an object under a key; a value that is no object has none. -/
def member (key : Bytes) : Json → Option Json
  | object members => members.lookup key
  | _ => none

/-- `get<std::string>`, which throws on any other kind. -/
def asString : Json → Option Bytes
  | string s => some s
  | _ => none

/-- `get<bool>`. -/
def asBoolean : Json → Option Bool
  | boolean b => some b
  | _ => none

/-- A number as a 32-bit integer, where `truncate` takes a floating-point number to one. -/
def asInt32 (truncate : UInt64 → Int32) : Json → Option Int32
  | integer n => some (Int32.ofInt n)
  | float bits => some (truncate bits)
  | boolean b => some (if b then 1 else 0)
  | _ => none

/-- A number as a floating-point number, where `widen` takes an integer to one. -/
def asDouble (widen : Int → UInt64) : Json → Option UInt64
  | integer n => some (widen n)
  | float bits => some bits
  | _ => none

/-- `get<std::vector<std::string>>`. -/
def asStrings : Json → Option (List Bytes)
  | array elements => elements.mapM asString
  | _ => none

/-- The member of an object under a key, converted, or a default when the key is absent; the
access fails on a value that is no object and where the conversion fails. -/
def valueAs {α : Type} (convert : Json → Option α) (key : Bytes) (fallback : α) :
    Json → Option α
  | object members =>
      match members.lookup key with
      | none => some fallback
      | some j => convert j
  | _ => none

/-- The members with one set under a key, in the order of keys. -/
def setMember (key : Bytes) (j : Json) : List (Bytes × Json) → List (Bytes × Json)
  | [] => [(key, j)]
  | (key', j') :: members =>
      if key = key' then (key, j) :: members
      else if KeyLt key key' then (key, j) :: (key', j') :: members
      else (key', j') :: setMember key j members

theorem mem_setMember
    {key : Bytes} {j : Json} {members : List (Bytes × Json)} {m : Bytes × Json}
    (h : m ∈ setMember key j members) :
  m = (key, j) ∨ m ∈ members
  := by
  induction members with
  | nil =>
      left
      apply List.mem_singleton.mp h
  | cons m' members ih =>
      rw [setMember] at h
      split at h
      · rcases List.mem_cons.mp h with rfl | h
        · left
          rfl
        · right
          apply List.mem_cons_of_mem m' h
      · split at h
        · rcases List.mem_cons.mp h with rfl | h
          · left
            rfl
          · right
            apply h
        · rcases List.mem_cons.mp h with rfl | h
          · right
            apply List.mem_cons_self
          · rcases ih h with rfl | h
            · left
              rfl
            · right
              apply List.mem_cons_of_mem m' h

/-- A member that is set keeps the keys in order. -/
theorem sorted_setMember
    {members : List (Bytes × Json)} (h : (members.map Prod.fst).Pairwise KeyLt) (key : Bytes)
    (j : Json) :
  ((setMember key j members).map Prod.fst).Pairwise KeyLt
  := by
  induction members with
  | nil => simp [setMember]
  | cons m members ih =>
      obtain ⟨key', j'⟩ := m
      rw [List.map_cons, List.pairwise_cons] at h
      rw [setMember]
      split
      next heq =>
        rw [List.map_cons, List.pairwise_cons, heq]
        apply h
      next hne =>
        split
        next hlt =>
          rw [List.map_cons, List.pairwise_cons]
          constructor
          · intro k hk
            rcases List.mem_cons.mp hk with rfl | hk
            · apply hlt
            · apply hlt.trans (h.1 k hk)
          · apply List.pairwise_cons.mpr h
        next hlt =>
          rw [List.map_cons, List.pairwise_cons]
          constructor
          · intro k hk
            obtain ⟨m, hm, rfl⟩ := List.mem_map.mp hk
            rcases mem_setMember hm with rfl | hm
            · apply KeyLt.of_not hne hlt
            · apply h.1 m.1 (List.mem_map_of_mem hm)
          · apply ih h.2

theorem asInt32_toInt (truncate : UInt64 → Int32) (n : Int32) :
  asInt32 truncate (integer n.toInt) = some n
  := by
  simp [asInt32]

theorem mapM_asString_map (names : List Bytes) :
  (names.map string).mapM asString = some names
  := by
  induction names with
  | nil => rfl
  | cons name names ih => simp [List.mapM_cons, asString, ih]

theorem mem_of_member {members : List (Bytes × Json)} {key : Bytes} {j : Json}
    (h : (object members).member key = some j) :
  (key, j) ∈ members
  := by
  obtain ⟨before, rest, rfl, -⟩ := List.lookup_eq_some_iff.mp h
  simp

/-- What is read under a key is the default, or what a member is converted to. -/
theorem valueAs_eq_some
    {α : Type} {convert : Json → Option α} {key : Bytes} {fallback x : α} {j : Json}
    (h : j.valueAs convert key fallback = some x) :
  (j.member key = none ∧ x = fallback) ∨ ∃ v, j.member key = some v ∧ convert v = some x
  := by
  cases j with
  | object members =>
      simp only [valueAs, Json.member] at h ⊢
      cases hlookup : members.lookup key with
      | none =>
          rw [hlookup] at h
          left
          use rfl, (Option.some.inj h).symm
      | some v =>
          rw [hlookup] at h
          right
          use v, rfl, h
  | _ => cases h

/-- A member that is there is converted. -/
theorem valueAs_of_member
    {α : Type} {convert : Json → Option α} {key : Bytes} {fallback : α} {j v : Json}
    (h : j.member key = some v) :
  j.valueAs convert key fallback = convert v
  := by
  cases j with
  | object members =>
      simp only [Json.member] at h
      simp only [valueAs, h]
  | _ => cases h

/-- A member that is read as it is, or the default. -/
theorem valueAs_some (members : List (Bytes × Json)) (key : Bytes) (fallback : Json) :
  (object members).valueAs some key fallback = some (((object members).member key).getD fallback)
  := by
  simp only [valueAs, Json.member]
  cases members.lookup key <;> rfl

theorem exists_object_of_member {key : Bytes} {j v : Json} (h : j.member key = some v) :
  ∃ members, j = object members
  := by
  cases j with
  | object members => use members
  | _ => cases h

theorem Proper.member {j v : Json} {key : Bytes} (h : j.Proper) (hv : j.member key = some v) :
  v.Proper
  := by
  cases j with
  | object members => apply (proper_object.mp h).2 (key, v) (mem_of_member hv)
  | _ => cases hv

theorem Proper.items {j : Json} (h : j.Proper) :
  ∀ item ∈ j.items, item.Proper
  := by
  intro item hitem
  cases j with
  | null => cases hitem
  | array elements => apply proper_array.mp h item hitem
  | object members =>
      obtain ⟨m, hm, rfl⟩ := List.mem_map.mp hitem
      apply (proper_object.mp h).2 m hm
  | boolean _ | integer _ | float _ | string _ =>
      obtain rfl := List.mem_singleton.mp hitem
      apply h

/-- A member of a value whose strings are UTF-8 is one too. -/
theorem Valid.member {j v : Json} {key : Bytes} (h : j.Valid) (hv : j.member key = some v) :
  v.Valid
  := by
  cases j with
  | object members => apply (valid_object.mp h (key, v) (mem_of_member hv)).2
  | _ => cases hv

theorem Valid.items {j : Json} (h : j.Valid) :
  ∀ item ∈ j.items, item.Valid
  := by
  intro item hitem
  cases j with
  | null => cases hitem
  | array elements => apply valid_array.mp h item hitem
  | object members =>
      obtain ⟨m, hm, rfl⟩ := List.mem_map.mp hitem
      apply (valid_object.mp h m hm).2
  | boolean _ | integer _ | float _ | string _ =>
      obtain rfl := List.mem_singleton.mp hitem
      apply h

/-- A string that is read from a value whose strings are UTF-8 is UTF-8. -/
theorem Valid.valueAs_asString
    {j : Json} (h : j.Valid) {key fallback s : Bytes} (hfallback : Utf8.Valid fallback)
    (hs : j.valueAs asString key fallback = some s) :
  Utf8.Valid s
  := by
  rcases valueAs_eq_some hs with ⟨-, rfl⟩ | ⟨v, hv, hs⟩
  · apply hfallback
  · have hv := h.member hv
    cases v with
    | string s' =>
        obtain rfl := Option.some.inj hs
        apply hv
    | _ => cases hs

/-- A member of a value whose strings are UTF-8, or a default that is such a value. -/
theorem Valid.valueAs_some
    {j : Json} (h : j.Valid) {key : Bytes} {fallback v : Json} (hfallback : fallback.Valid)
    (hv : j.valueAs some key fallback = some v) :
  v.Valid
  := by
  rcases valueAs_eq_some hv with ⟨-, rfl⟩ | ⟨v', hv', hsame⟩
  · apply hfallback
  · obtain rfl := Option.some.inj hsame
    apply h.member hv'

/-- What an array of strings is converted to. -/
theorem mapM_asString_eq_some
    {elements : List Json} {names : List Bytes} (h : elements.mapM asString = some names) :
  elements = names.map string
  := by
  induction elements generalizing names with
  | nil =>
      cases h
      rfl
  | cons j elements ih =>
      rw [List.mapM_cons] at h
      simp only [Option.bind_eq_bind, Option.bind_eq_some_iff] at h
      obtain ⟨name, hname, names, hnames, ⟨⟩⟩ := h
      rw [ih hnames]
      cases j with
      | string s =>
          cases hname
          rfl
      | _ => cases hname

theorem Valid.valueAs_asStrings
    {j : Json} (h : j.Valid) {key : Bytes} {names : List Bytes}
    (hnames : j.valueAs asStrings key [] = some names) :
  ∀ name ∈ names, Utf8.Valid name
  := by
  rcases valueAs_eq_some hnames with ⟨-, rfl⟩ | ⟨v, hv, hnames⟩
  · simp
  · have hv := h.member hv
    cases v with
    | array elements =>
        rw [mapM_asString_eq_some hnames] at hv
        simpa using hv
    | _ => cases hnames

/-! ### Codecs -/

/-- A parser and a serialiser. -/
structure Codec where
  parse : Bytes → Option Json
  dump : Json → Option Bytes

/-- An array or an object. -/
def IsContainer (j : Json) : Prop :=
  (∃ elements, j = array elements) ∨ ∃ members, j = object members

/-- What may be assumed of a parser and a serialiser. -/
structure Codec.Spec (c : Codec) : Prop where
  /-- Just the values with a string that is not UTF-8 are not serialised. -/
  dump_eq_none : ∀ j, c.dump j = none ↔ ¬ Valid j
  /-- A proper value is read back. -/
  parse_dump : ∀ j text, Proper j → c.dump j = some text → c.parse text = some j
  /-- What the parser returns is proper, with UTF-8 strings. -/
  proper_of_parse : ∀ text j, c.parse text = some j → Proper j ∧ Valid j
  /-- The text of an array or an object is not cut short to another text. -/
  parse_cut : ∀ j text cut, IsContainer j → c.dump j = some text → cut <+: text →
    cut ≠ text → c.parse cut = none

theorem Codec.Spec.exists_dump
    {c : Codec} (h : c.Spec) {j : Json} (hj : Valid j) :
  ∃ text, c.dump j = some text
  := by
  apply Option.ne_none_iff_exists'.mp
  rw [Ne, h.dump_eq_none, not_not]
  apply hj

theorem Codec.Spec.valid_of_dump
    {c : Codec} (h : c.Spec) {j : Json} {text : Bytes} (hj : c.dump j = some text) :
  Valid j
  := by
  by_contra hnot
  rw [(h.dump_eq_none j).mpr hnot] at hj
  cases hj

/-- The empty text is no value's. -/
theorem Codec.Spec.parse_nil {c : Codec} (h : c.Spec) :
  c.parse [] = none
  := by
  obtain ⟨text, htext⟩ := h.exists_dump (show (array []).Valid by simp)
  obtain ⟨text', htext'⟩ := h.exists_dump (show (object []).Valid by simp)
  by_cases hnil : [] = text
  · apply h.parse_cut _ _ _ (Or.inr ⟨[], rfl⟩) htext' (List.nil_prefix)
    rintro rfl
    have harray := h.parse_dump _ _ (by simp) htext
    have hobject := h.parse_dump _ _ (by simp) htext'
    rw [← hnil, hobject] at harray
    cases harray
  · apply h.parse_cut _ _ _ (Or.inl ⟨[], rfl⟩) htext (List.nil_prefix) hnil

/-- What a program that stops leaves of the text of an array or an object is no value's. -/
theorem Codec.Spec.parse_part
    {c : Codec} (h : c.Spec) {j : Json} (hj : IsContainer j) {part : Bytes}
    (hpart : part <+: (c.dump j).getD []) (hne : c.dump j ≠ some part) :
  c.parse part = none
  := by
  cases htext : c.dump j with
  | none =>
      rw [htext, Option.getD_none, List.prefix_nil] at hpart
      rw [hpart, h.parse_nil]
  | some text =>
      rw [htext] at hpart hne
      apply h.parse_cut j text part hj htext hpart
      rintro rfl
      apply hne rfl

end Json
