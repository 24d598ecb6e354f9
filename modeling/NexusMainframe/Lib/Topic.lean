import NexusMainframe.Lib.Bytes

/-!
# Topic names and topic filters

A topic name and a topic filter of MQTT are byte strings cut into levels at each `/`. A
filter may have `+` for a level, which any one level matches, and `#` for its last level,
which any number of levels match, none included. A filter that starts with a wildcard
matches no topic that starts with `$`.
-/

namespace Topic

/-! ### Levels -/

def slash : UInt8 := 0x2F

def plus : UInt8 := 0x2B

def hash : UInt8 := 0x23

def dollar : UInt8 := 0x24

/-- The levels of a topic name or filter, the empty ones included. -/
def levels (bs : Bytes) : List Bytes :=
  bs.splitOn slash

@[simp]
theorem levels_ne_nil (bs : Bytes) :
  levels bs ≠ []
  := List.splitOn_ne_nil slash bs

theorem levels_of_not_mem
    {l : Bytes} (h : slash ∉ l) :
  levels l = [l]
  := List.splitOn_eq_singleton h

theorem levels_append_slash
    {l : Bytes} (h : slash ∉ l) (rest : Bytes) :
  levels (l ++ slash :: rest) = l :: levels rest
  := List.splitOn_append_cons_self_of_not_mem h rest

/-- A byte string is one level, or a level in front of a shorter byte string. -/
theorem eq_level (bs : Bytes) :
  slash ∉ bs ∨ ∃ l rest, slash ∉ l ∧ bs = l ++ slash :: rest
  := by
  by_cases h : slash ∈ bs
  · right
    obtain ⟨l, rest, rfl, hl⟩ := List.eq_append_cons_of_mem h
    use l, rest
  · left
    apply h

/-- Induction over the levels of a byte string. -/
theorem level_induction
    {P : Bytes → Prop} (last : ∀ l, slash ∉ l → P l)
    (level : ∀ l rest, slash ∉ l → P rest → P (l ++ slash :: rest)) (bs : Bytes) :
  P bs
  := by
  induction hn : bs.length using Nat.strong_induction_on generalizing bs with
  | h n ih =>
      rcases eq_level bs with h | ⟨l, rest, hl, rfl⟩
      · apply last bs h
      · apply level l rest hl
        apply ih rest.length _ rest rfl
        rw [← hn, List.length_append, List.length_cons]
        omega

/-! ### Validity -/

/-- A wildcard takes a whole level, and `#` takes the last. -/
def ValidLevels : List Bytes → Prop
  | [] => True
  | l :: ls => (plus ∈ l → l = [plus]) ∧ (hash ∈ l → l = [hash] ∧ ls = []) ∧ ValidLevels ls

/-- A filter as a client may subscribe to it. -/
structure ValidFilter (filter : Bytes) : Prop where
  nonempty : filter ≠ []
  levels : ValidLevels (levels filter)

/-- A topic as a client may publish to it. -/
structure ValidName (topic : Bytes) : Prop where
  nonempty : topic ≠ []
  noPlus : plus ∉ topic
  noHash : hash ∉ topic

/-- A level of a valid filter is `+`, or `#` at the end, or has no wildcard in it. -/
theorem ValidLevels.cases
    {l : Bytes} {ls : List Bytes} (h : ValidLevels (l :: ls)) :
  l = [plus] ∨ (l = [hash] ∧ ls = []) ∨ plus ∉ l ∧ hash ∉ l
  := by
  obtain ⟨hplus, hhash, -⟩ := h
  by_cases hp : plus ∈ l
  · left
    apply hplus hp
  · by_cases hh : hash ∈ l
    · right
      left
      apply hhash hh
    · right
      right
      use hp, hh

/-- A level without wildcards in it is no wildcard. -/
theorem ne_wildcard
    {l : Bytes} (hplus : plus ∉ l) (hhash : hash ∉ l) :
  ¬ (l = [plus] ∨ l = [hash])
  := by
  rintro (rfl | rfl)
  · simp at hplus
  · simp at hhash

/-- A valid filter that begins with `#` is `#`. -/
theorem levels_eq_hash_iff
    {filter : Bytes} (h : ValidLevels (levels filter)) :
  levels filter = [[hash]] ↔ filter.head? = some hash
  := by
  constructor
  · intro heq
    have hjoin : [slash].intercalate (filter.splitOn slash) = filter :=
      List.intercalate_splitOn slash
    rw [show filter.splitOn slash = [[hash]] from heq] at hjoin
    rw [← hjoin]
    rfl
  · intro hhead
    rcases eq_level filter with hl | ⟨l, rest, hl, rfl⟩
    · rw [levels_of_not_mem hl] at h ⊢
      rw [(h.2.1 (List.mem_of_head? hhead)).1]
    · rw [levels_append_slash hl] at h
      cases l with
      | nil =>
          simp [slash, hash] at hhead
      | cons c l =>
          have hc : hash ∈ c :: l := by
            apply List.mem_of_head?
            simpa using hhead
          exact (levels_ne_nil rest (h.2.1 hc).2).elim

/-! ### Matching -/

/-- A list of filter levels matches a list of topic levels. -/
inductive LevelsMatch : List Bytes → List Bytes → Prop where
  | nil : LevelsMatch [] []
  | level {l fs ts} : LevelsMatch fs ts → LevelsMatch (l :: fs) (l :: ts)
  | single {l fs ts} : LevelsMatch fs ts → LevelsMatch ([plus] :: fs) (l :: ts)
  | multi {ts} : LevelsMatch [[hash]] ts

/-- A topic that starts with `$` is reserved from a filter that starts with a wildcard. -/
def Reserved (filter topic : Bytes) : Prop :=
  (filter.head? = some plus ∨ filter.head? = some hash) ∧ topic.head? = some dollar

/-- A topic filter matches a topic name. -/
structure Matches (filter topic : Bytes) : Prop where
  levels : LevelsMatch (levels filter) (levels topic)
  notReserved : ¬ Reserved filter topic

@[simp]
theorem levelsMatch_nil_iff {ts : List Bytes} :
  LevelsMatch [] ts ↔ ts = []
  := by
  constructor
  · rintro ⟨⟩
    rfl
  · rintro rfl
    apply LevelsMatch.nil

@[simp]
theorem levelsMatch_cons_nil {f : Bytes} {fs : List Bytes} :
  LevelsMatch (f :: fs) [] ↔ f = [hash] ∧ fs = []
  := by
  constructor
  · rintro ⟨⟩
    use rfl
  · rintro ⟨rfl, rfl⟩
    apply LevelsMatch.multi

@[simp]
theorem levelsMatch_plus {fs : List Bytes} {t : Bytes} {ts : List Bytes} :
  LevelsMatch ([plus] :: fs) (t :: ts) ↔ LevelsMatch fs ts
  := by
  constructor
  · rintro (_ | h | h | _) <;> apply h
  · apply LevelsMatch.single

/-- A level without wildcards matches itself alone. -/
theorem levelsMatch_literal
    {l : Bytes} (hplus : plus ∉ l) (hhash : hash ∉ l) {fs : List Bytes} {t : Bytes}
    {ts : List Bytes} :
  LevelsMatch (l :: fs) (t :: ts) ↔ l = t ∧ LevelsMatch fs ts
  := by
  constructor
  · rintro (_ | h | h | _)
    · use rfl, h
    · simp at hplus
    · simp at hhash
  · rintro ⟨rfl, h⟩
    apply LevelsMatch.level h

end Topic
