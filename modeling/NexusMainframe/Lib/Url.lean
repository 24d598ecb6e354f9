import NexusMainframe.Lib.Search
import Mathlib.Data.List.Basic

/-!
# Decoding URLs

A URL is split at its first question mark, what stands in front of it at the slashes and what
stands behind it at the ampersands, and the parts are percent-decoded. The query that is
written without encoding anything is read back just if the names and values have nothing in
them that the decoder would take for something else.
-/

namespace Url

/-! ### Percent-decoding -/

/-- The value of a hexadecimal digit, in either case. -/
def hexDigit (b : UInt8) : Option Nat :=
  if 0x30 ≤ b.toNat ∧ b.toNat ≤ 0x39 then some (b.toNat - 0x30)
  else if 0x41 ≤ b.toNat ∧ b.toNat ≤ 0x46 then some (b.toNat - 0x37)
  else if 0x61 ≤ b.toNat ∧ b.toNat ≤ 0x66 then some (b.toNat - 0x57)
  else none

/-- The byte that a percent sign and two hexadecimal digits stand for. -/
def escape (a b c : UInt8) : Option UInt8 :=
  if a = 0x25 then
    (hexDigit b).bind fun high => (hexDigit c).map fun low => UInt8.ofNat (16 * high + low)
  else none

/-- Replaces the escapes; a percent sign without two digits behind it stands for itself. -/
def percentDecode : Bytes → Bytes
  | [] => []
  | [a] => [a]
  | [a, b] => [a, b]
  | a :: b :: c :: bs =>
      match escape a b c with
      | some byte => byte :: percentDecode bs
      | none => a :: percentDecode (b :: c :: bs)

/-- An escape occurs in a text. -/
def HasEscape (s : Bytes) : Prop :=
  ∃ a b c, [a, b, c] <:+: s ∧ (escape a b c).isSome

theorem hasEscape_cons {a : UInt8} {s : Bytes} (h : HasEscape s) :
  HasEscape (a :: s)
  := by
  obtain ⟨x, y, z, hinfix, hescape⟩ := h
  use x, y, z, hinfix.trans (List.suffix_cons a s).isInfix

theorem not_hasEscape_of_length {s : Bytes} (h : s.length < 3) :
  ¬ HasEscape s
  := by
  rintro ⟨a, b, c, hinfix, -⟩
  have hle := hinfix.length_le
  rw [List.length_cons, List.length_cons, List.length_cons] at hle
  omega

theorem percentDecode_length_le (s : Bytes) :
  (percentDecode s).length ≤ s.length
  := by
  fun_induction percentDecode s with
  | case1 | case2 | case3 => apply le_refl
  | case4 a b c bs byte hescape ih =>
      simp only [List.length_cons]
      omega
  | case5 a b c bs hescape ih =>
      simp only [List.length_cons] at ih ⊢
      omega

theorem percentDecode_length_lt {s : Bytes} (h : HasEscape s) :
  (percentDecode s).length < s.length
  := by
  fun_induction percentDecode s with
  | case1 => cases not_hasEscape_of_length (by simp) h
  | case2 => cases not_hasEscape_of_length (by simp) h
  | case3 => cases not_hasEscape_of_length (by simp) h
  | case4 a b c bs byte hescape ih =>
      have hle := percentDecode_length_le bs
      simp only [List.length_cons]
      omega
  | case5 a b c bs hescape ih =>
      have hrest : HasEscape (b :: c :: bs) := by
        obtain ⟨x, y, z, hinfix, hsome⟩ := h
        rcases List.infix_cons_iff.mp hinfix with hprefix | hinfix
        · simp only [List.cons_prefix_cons, List.nil_prefix, and_true] at hprefix
          obtain ⟨rfl, rfl, rfl⟩ := hprefix
          rw [hescape] at hsome
          cases hsome
        · use x, y, z
      rw [List.length_cons, List.length_cons]
      apply Nat.succ_lt_succ (ih hrest)

/-- A text decodes to itself just if it has no escapes. -/
theorem percentDecode_eq_self_iff {s : Bytes} :
  percentDecode s = s ↔ ¬ HasEscape s
  := by
  constructor
  · intro heq h
    have hlt := percentDecode_length_lt h
    rw [heq] at hlt
    apply lt_irrefl _ hlt
  · intro h
    fun_induction percentDecode s with
    | case1 | case2 | case3 => rfl
    | case4 a b c bs byte hescape ih =>
        refine (h ⟨a, b, c, ⟨[], bs, rfl⟩, ?_⟩).elim
        rw [hescape]
        rfl
    | case5 a b c bs hescape ih => rw [ih fun hrest => h (hasEscape_cons hrest)]

/-- A byte that is in no escape. -/
def Separates (b : UInt8) : Prop :=
  b ≠ 0x25 ∧ hexDigit b = none

theorem separates_equals : Separates 0x3D := by
  constructor <;> decide

theorem separates_question : Separates 0x3F := by
  constructor <;> decide

theorem percentDecode_cons {b : UInt8} (h : b ≠ 0x25) (s : Bytes) :
  percentDecode (b :: s) = b :: percentDecode s
  := by
  rcases s with _ | ⟨c, _ | ⟨d, s⟩⟩
  · rfl
  · rfl
  · simp only [percentDecode, escape, if_neg h]

/-- What stands in front of such a byte and what stands behind it is decoded on its own. -/
theorem percentDecode_append_cons {b : UInt8} (h : Separates b) (c s : Bytes) :
  percentDecode (c ++ b :: s) = percentDecode c ++ b :: percentDecode s
  := by
  fun_induction percentDecode c with
  | case1 => apply percentDecode_cons h.1
  | case2 a =>
      cases s with
      | nil => rfl
      | cons d s =>
          have hnone : escape a b d = none := by
            simp [escape, h.2]
          rw [List.singleton_append, percentDecode, hnone, percentDecode_cons h.1]
          rfl
  | case3 a a' =>
      have hnone : escape a a' b = none := by
        simp [escape, h.2]
      have htail : percentDecode (a' :: b :: s) = a' :: b :: percentDecode s := by
        cases s with
        | nil => rfl
        | cons d s =>
            have hnone : escape a' b d = none := by
              simp [escape, h.2]
            rw [percentDecode, hnone, percentDecode_cons h.1]
      change percentDecode (a :: a' :: b :: s) = _
      rw [percentDecode, hnone, htail]
      rfl
  | case4 a a' a'' bs byte hescape ih =>
      change percentDecode (a :: a' :: a'' :: (bs ++ b :: s)) = _
      rw [percentDecode, hescape, ih]
      rfl
  | case5 a a' a'' bs hescape ih =>
      change percentDecode (a :: a' :: a'' :: (bs ++ b :: s)) = _
      rw [percentDecode, hescape]
      rw [List.cons_append, List.cons_append] at ih
      rw [ih]
      rfl

/-- Nothing decodes to what stands in it behind such a byte: that would have the byte in it over
and over. -/
theorem percentDecode_append_cons_ne {b : UInt8} (h : Separates b) (c s : Bytes) :
  percentDecode (c ++ b :: s) ≠ s
  := by
  induction hlen : s.length using Nat.strong_induction_on generalizing c s with
  | h n ih =>
      intro heq
      have hsplit := heq
      rw [percentDecode_append_cons h] at hsplit
      have hlt := congrArg List.length hsplit
      rw [List.length_append, List.length_cons] at hlt
      apply ih (percentDecode s).length (by omega) (percentDecode c) (percentDecode s) rfl
      rw [hsplit]

/-! ### Splitting -/

/-- A text is one part just if it has no separator. -/
theorem splitOn_length_eq_one_iff {a : UInt8} {s : Bytes} :
  (s.splitOn a).length = 1 ↔ a ∉ s
  := by
  constructor
  · intro hlen hmem
    obtain ⟨front, back, rfl⟩ := List.append_of_mem hmem
    rw [List.splitOn_append_cons_self, List.length_append] at hlen
    have hfront := List.length_pos_iff.mpr (List.splitOn_ne_nil a front)
    have hback := List.length_pos_iff.mpr (List.splitOn_ne_nil a back)
    omega
  · intro h
    rw [List.splitOn_eq_singleton h]
    rfl

/-- What is put together from parts is split into the parts of these. -/
theorem splitOn_append_flatMap (a : UInt8) (s : Bytes) (parts : List Bytes) :
  (s ++ parts.flatMap fun t => a :: t).splitOn a
    = (s :: parts).flatMap fun t => t.splitOn a
  := by
  induction parts generalizing s with
  | nil => simp
  | cons t parts ih =>
      rw [List.flatMap_cons, List.cons_append, List.splitOn_append_cons_self, ih]
      rfl

theorem intercalate_cons (a : UInt8) (s : Bytes) (parts : List Bytes) :
  [a].intercalate (s :: parts) = s ++ parts.flatMap fun t => a :: t
  := by
  induction parts generalizing s with
  | nil => simp
  | cons t parts ih =>
      rw [List.intercalate_cons_cons, ih, List.flatMap_cons]
      simp

/-- What is not a separator stands in a part. -/
theorem mem_intercalate {a c : UInt8} (hne : c ≠ a) {parts : List Bytes} :
  c ∈ [a].intercalate parts ↔ ∃ t ∈ parts, c ∈ t
  := by
  cases parts with
  | nil => simp
  | cons t parts =>
      rw [intercalate_cons]
      simp [hne]

theorem splitOn_intercalate (a : UInt8) {parts : List Bytes} (h : parts ≠ []) :
  ([a].intercalate parts).splitOn a = parts.flatMap fun t => t.splitOn a
  := by
  cases parts with
  | nil => cases h rfl
  | cons t parts => rw [intercalate_cons, splitOn_append_flatMap]

theorem length_le_flatMap_splitOn (a : UInt8) (parts : List Bytes) :
  parts.length ≤ (parts.flatMap fun t => t.splitOn a).length
  := by
  induction parts with
  | nil => apply le_refl
  | cons t parts ih =>
      have ht := List.length_pos_iff.mpr (List.splitOn_ne_nil a t)
      rw [List.flatMap_cons, List.length_append, List.length_cons]
      omega

/-- Parts that are not split further have no separator. -/
theorem flatMap_splitOn_length_eq_iff (a : UInt8) (parts : List Bytes) :
  (parts.flatMap fun t => t.splitOn a).length = parts.length ↔ ∀ t ∈ parts, a ∉ t
  := by
  induction parts with
  | nil => simp
  | cons t parts ih =>
      have ht := List.length_pos_iff.mpr (List.splitOn_ne_nil a t)
      have hle := length_le_flatMap_splitOn a parts
      rw [List.forall_mem_cons, ← ih, ← splitOn_length_eq_one_iff, List.flatMap_cons,
        List.length_append, List.length_cons]
      omega

theorem flatMap_splitOn_of_notMem {a : UInt8} {parts : List Bytes} (h : ∀ t ∈ parts, a ∉ t) :
  (parts.flatMap fun t => t.splitOn a) = parts
  := by
  induction parts with
  | nil => rfl
  | cons t parts ih =>
      obtain ⟨ht, hparts⟩ := List.forall_mem_cons.mp h
      rw [List.flatMap_cons, List.splitOn_eq_singleton ht, ih hparts]
      rfl

/-! ### Queries -/

/-- A name and a value, around the first equals sign. -/
def decodePair (piece : Bytes) : Bytes × Bytes :=
  (percentDecode (piece.takeWhile (· ≠ 0x3D)),
    percentDecode ((piece.dropWhile (· ≠ 0x3D)).drop 1))

/-- The pairs of a query, with the question mark in front of it. -/
def decodeQuery : Bytes → List (Bytes × Bytes)
  | [] => []
  | _ :: query => (query.splitOn 0x26).map decodePair

/-- The segments of the path and the pairs of the query. -/
def decode (url : Bytes) : List Bytes × List (Bytes × Bytes) :=
  (((url.takeWhile (· ≠ 0x3F)).splitOn 0x2F).map percentDecode,
    decodeQuery (url.dropWhile (· ≠ 0x3F)))

/-- A pair as it is written without encoding it. -/
def pairText (pair : Bytes × Bytes) : Bytes :=
  pair.1 ++ 0x3D :: pair.2

/-- A query that is written without encoding it. -/
def queryText : List (Bytes × Bytes) → Bytes
  | [] => []
  | pair :: pairs => 0x3F :: pairText pair ++ (pairs.map pairText).flatMap fun t => 0x26 :: t

/-- A pair that needs no encoding. -/
structure PlainPair (pair : Bytes × Bytes) : Prop where
  noEquals : 0x3D ∉ pair.1
  noAmpersand : 0x26 ∉ pair.1 ∧ 0x26 ∉ pair.2
  noEscape : ¬ HasEscape pair.1 ∧ ¬ HasEscape pair.2

theorem all_ne {c : UInt8} {s : Bytes} (h : c ∉ s) :
  ∀ b ∈ s, decide (b ≠ c) = true
  := by
  intro b hb
  rw [decide_eq_true_eq]
  rintro rfl
  apply h hb

theorem decodePair_append {name : Bytes} (h : 0x3D ∉ name) (value : Bytes) :
  decodePair (name ++ 0x3D :: value) = (percentDecode name, percentDecode value)
  := by
  rw [decodePair, List.takeWhile_append_of_pos (all_ne h),
    List.dropWhile_append_of_pos (all_ne h)]
  simp

/-- Where a text in front of a pair does no harm to it, neither it nor the name has an equals
sign. -/
theorem of_decodePair_eq
    {front name value : Bytes}
    (h : decodePair (front ++ name ++ 0x3D :: value) = (name, value)) :
  0x3D ∉ front ++ name ∧ percentDecode (front ++ name) = name ∧ percentDecode value = value
  := by
  have hnot : 0x3D ∉ front ++ name := by
    intro hmem
    obtain ⟨a, b, hsplit, ha⟩ := List.eq_append_cons_of_mem hmem
    rw [hsplit, List.append_assoc, List.cons_append, decodePair_append ha] at h
    apply percentDecode_append_cons_ne separates_equals b value (Prod.mk.inj h).2
  rw [decodePair_append hnot] at h
  use hnot, (Prod.mk.inj h).1, (Prod.mk.inj h).2

/-- A pair is read back just if its name has no equals sign, and there is nothing to decode. -/
theorem decodePair_pairText_iff {pair : Bytes × Bytes} :
  decodePair (pairText pair) = pair ↔
    0x3D ∉ pair.1 ∧ ¬ HasEscape pair.1 ∧ ¬ HasEscape pair.2
  := by
  rw [← percentDecode_eq_self_iff, ← percentDecode_eq_self_iff]
  constructor
  · intro h
    have h : decodePair ([] ++ pair.1 ++ 0x3D :: pair.2) = (pair.1, pair.2) := h
    apply of_decodePair_eq h
  · rintro ⟨hequals, hname, hvalue⟩
    rw [pairText, decodePair_append hequals, hname, hvalue]

/-- A query with a text in front of its first pair is read as the pairs just if each of them is
read on its own, the first with the text, and nothing is split. -/
theorem decodeQuery_eq_iff {front : Bytes} {pair : Bytes × Bytes} {pairs : List (Bytes × Bytes)} :
  decodeQuery (0x3F :: (front ++ pairText pair)
      ++ (pairs.map pairText).flatMap fun t => 0x26 :: t) = pair :: pairs ↔
    decodePair (front ++ pairText pair) = pair ∧ 0x26 ∉ front ++ pairText pair ∧
      ∀ p ∈ pairs, decodePair (pairText p) = p ∧ 0x26 ∉ pairText p
  := by
  have hsplit := splitOn_append_flatMap 0x26 (front ++ pairText pair) (pairs.map pairText)
  rw [List.cons_append, decodeQuery, hsplit]
  constructor
  · intro h
    have hlen := congrArg List.length h
    have hnone :=
      flatMap_splitOn_length_eq_iff 0x26 ((front ++ pairText pair) :: pairs.map pairText)
    rw [List.length_map, List.length_cons] at hlen
    rw [hlen, List.length_cons, List.length_map] at hnone
    have hnone := hnone.mp rfl
    rw [flatMap_splitOn_of_notMem hnone, List.map_cons, List.map_map] at h
    obtain ⟨hfirst, hrest⟩ := List.cons.inj h
    rw [List.forall_mem_cons, List.forall_mem_map] at hnone
    rw [← List.map_id pairs] at hrest
    use hfirst, hnone.1
    intro p hp
    have hread := List.map_inj_left.mp ((List.map_map).symm.trans hrest)
    use hread p hp, hnone.2 p hp
  · rintro ⟨hfirst, hnot, hrest⟩
    have hnone : ∀ t ∈ (front ++ pairText pair) :: pairs.map pairText, 0x26 ∉ t := by
      rw [List.forall_mem_cons, List.forall_mem_map]
      use hnot
      intro p hp
      apply (hrest p hp).2
    rw [flatMap_splitOn_of_notMem hnone, List.map_cons, List.map_map, hfirst]
    congr 1
    conv_rhs => rw [← List.map_id pairs]
    apply List.map_congr_left
    intro p hp
    apply (hrest p hp).1

theorem plainPair_iff {pair : Bytes × Bytes} :
  PlainPair pair ↔ decodePair (pairText pair) = pair ∧ 0x26 ∉ pairText pair
  := by
  rw [decodePair_pairText_iff, pairText, List.mem_append, List.mem_cons]
  constructor
  · intro h
    simp [h.noEquals, h.noAmpersand, h.noEscape]
  · rintro ⟨⟨hequals, hname, hvalue⟩, hnot⟩
    push Not at hnot
    exact ⟨hequals, ⟨hnot.1, hnot.2.2⟩, hname, hvalue⟩

/-- A query that is not encoded is read back just if its pairs are plain. -/
theorem decodeQuery_queryText_iff {pairs : List (Bytes × Bytes)} :
  decodeQuery (queryText pairs) = pairs ↔ ∀ pair ∈ pairs, PlainPair pair
  := by
  cases pairs with
  | nil => simp [queryText, decodeQuery]
  | cons pair pairs =>
      rw [queryText, ← List.nil_append (pairText pair), decodeQuery_eq_iff, List.nil_append,
        List.forall_mem_cons, plainPair_iff, and_assoc]
      simp only [plainPair_iff]

/-- With a question mark and a text in front of it, a query is not read back. -/
theorem decodeQuery_append_ne (front : Bytes) (pairs : List (Bytes × Bytes)) :
  decodeQuery (0x3F :: front ++ queryText pairs) ≠ pairs
  := by
  intro h
  cases pairs with
  | nil =>
      rw [queryText, List.append_nil, decodeQuery, List.map_eq_nil_iff] at h
      apply List.splitOn_ne_nil 0x26 front h
  | cons pair pairs =>
      have heq : 0x3F :: front ++ queryText (pair :: pairs)
          = 0x3F :: (front ++ [0x3F] ++ pairText pair)
            ++ (pairs.map pairText).flatMap fun t => 0x26 :: t := by
        simp [queryText]
      rw [heq, decodeQuery_eq_iff, pairText, ← List.append_assoc] at h
      obtain ⟨-, hname, -⟩ := of_decodePair_eq h.1
      rw [List.append_assoc, List.singleton_append] at hname
      apply percentDecode_append_cons_ne separates_question front pair.1 hname

/-- A path with a query that is not encoded is decoded to some segments and the pairs just if the
path has no question mark and these segments, and the pairs are plain. -/
theorem decode_append_queryText_iff
    {path : Bytes} {segments : List Bytes} {pairs : List (Bytes × Bytes)} :
  decode (path ++ queryText pairs) = (segments, pairs) ↔
    0x3F ∉ path ∧ (path.splitOn 0x2F).map percentDecode = segments ∧
      ∀ pair ∈ pairs, PlainPair pair
  := by
  rw [← decodeQuery_queryText_iff, decode, Prod.mk.injEq]
  by_cases hmem : 0x3F ∈ path
  · obtain ⟨a, b, rfl, ha⟩ := List.eq_append_cons_of_mem hmem
    constructor
    · rintro ⟨-, hquery⟩
      rw [List.append_assoc, List.dropWhile_append_of_pos (all_ne ha), List.cons_append,
        List.dropWhile_cons_of_neg (by simp)] at hquery
      cases decodeQuery_append_ne b pairs hquery
    · rintro ⟨hnot, -⟩
      cases hnot hmem
  · have htake : (queryText pairs).takeWhile (· ≠ 0x3F) = [] := by
      cases pairs with
      | nil => rfl
      | cons pair pairs => simp [queryText]
    have hdrop : (queryText pairs).dropWhile (· ≠ 0x3F) = queryText pairs := by
      cases pairs with
      | nil => rfl
      | cons pair pairs => simp [queryText]
    rw [List.takeWhile_append_of_pos (all_ne hmem), List.dropWhile_append_of_pos (all_ne hmem),
      htake, hdrop, List.append_nil]
    simp [hmem]

end Url
