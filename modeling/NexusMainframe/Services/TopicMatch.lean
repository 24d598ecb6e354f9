import NexusMainframe.Lib.Topic

/-!
# Matching topics to filters

`topicMatches` walks a filter and a topic character by character. It agrees with the
matching by levels except in two situations: it has no rule for topics that start with
`$`, and it stops at the end of the topic without trying a wildcard on an empty last
level.
-/

namespace NexusMainframe

namespace WsService

/-- `topicMatches`, on what is left of the filter and of the topic from the positions
reached. -/
def topicMatches : Bytes → Bytes → Bool
  | f :: filter, t :: topic =>
      if f = Topic.hash then true
      else if f = Topic.plus then
        topicMatches filter ((t :: topic).dropWhile fun c => c ≠ Topic.slash)
      else if f = t then topicMatches filter topic
      else false
  | [], topic => topic = []
  | f :: filter, [] => f = Topic.slash ∧ filter.head? = some Topic.hash

/-! ### One level -/

@[simp]
theorem topicMatches_slash_slash (filter topic : Bytes) :
  topicMatches (Topic.slash :: filter) (Topic.slash :: topic) = topicMatches filter topic
  := by
  simp [topicMatches, Topic.slash, Topic.hash, Topic.plus]

/-- `#` matches all that is left of the topic, when something is. -/
theorem topicMatches_hash (topic : Bytes) :
  topicMatches [Topic.hash] topic = true ↔ topic ≠ []
  := by
  cases topic <;> simp [topicMatches, Topic.slash, Topic.hash]

/-- A byte string at the end of a level is empty or goes on with `/`. -/
inductive LevelEnd : Bytes → Prop where
  | last : LevelEnd []
  | next (rest : Bytes) : LevelEnd (Topic.slash :: rest)

/-- `+` skips a level, when something is left of the topic. -/
theorem topicMatches_plus
    (filter : Bytes) {t : Bytes} (ht : Topic.slash ∉ t) {topic : Bytes} (hend : LevelEnd topic) :
  topicMatches (Topic.plus :: filter) (t ++ topic) = true
    ↔ t ++ topic ≠ [] ∧ topicMatches filter topic = true
  := by
  have hlevel : ∀ c ∈ t, decide (c ≠ Topic.slash) = true := by
    intro c hc
    rw [decide_eq_true_iff]
    rintro rfl
    apply ht hc
  have hdrop : (t ++ topic).dropWhile (fun c => c ≠ Topic.slash) = topic := by
    rw [List.dropWhile_append_of_pos hlevel]
    cases hend with
    | last => rfl
    | next rest => simp
  cases hrest : t ++ topic with
  | nil => simp [topicMatches, Topic.slash, Topic.plus]
  | cons c rest =>
      rw [hrest] at hdrop
      rw [topicMatches, if_neg (by decide), if_pos rfl, hdrop]
      simp

/-- A level without wildcards matches itself. -/
theorem topicMatches_literal
    {l : Bytes} (hl : Topic.slash ∉ l) (hplus : Topic.plus ∉ l) (hhash : Topic.hash ∉ l) {t : Bytes}
    (ht : Topic.slash ∉ t) {filter topic : Bytes} (hfilter : LevelEnd filter)
    (htopic : LevelEnd topic) :
  topicMatches (l ++ filter) (t ++ topic) = true ↔ l = t ∧ topicMatches filter topic = true
  := by
  induction l generalizing t with
  | nil =>
      cases t with
      | nil => simp
      | cons c t =>
          have hc : Topic.slash ≠ c := fun h => ht (by simp [h])
          cases hfilter with
          | last => simp [topicMatches]
          | next rest => simp [topicMatches, hc, show Topic.slash ≠ Topic.hash by decide,
              show Topic.slash ≠ Topic.plus by decide]
  | cons c l ih =>
      simp only [List.mem_cons, not_or] at hl hplus hhash
      cases t with
      | nil =>
          cases htopic with
          | last => simp [topicMatches, Ne.symm hl.1]
          | next rest =>
              simp [topicMatches, Ne.symm hl.1, Ne.symm hplus.1, Ne.symm hhash.1]
      | cons d t =>
          have ih := ih hl.2 hplus.2 hhash.2 (t := t) (fun h => ht (by simp [h]))
          simp only [List.cons_append, topicMatches, Ne.symm hplus.1, Ne.symm hhash.1, if_false]
          by_cases hcd : c = d
          · simp [hcd, ih]
          · simp [hcd]

/-! ### The whole topic -/

/-- The last level of the topic is empty, and the filter has a wildcard in its place. -/
def TrailingWildcard : List Bytes → List Bytes → Prop
  | f :: _, [t] => t = [] ∧ (f = [Topic.plus] ∨ f = [Topic.hash])
  | _ :: fs, _ :: ts => TrailingWildcard fs ts
  | _, _ => False

theorem trailingWildcard_single (f : Bytes) (fs : List Bytes) (t : Bytes) :
  TrailingWildcard (f :: fs) [t] ↔ t = [] ∧ (f = [Topic.plus] ∨ f = [Topic.hash])
  := Iff.rfl

theorem trailingWildcard_cons
    (f : Bytes) (fs : List Bytes) (t : Bytes) {ts : List Bytes} (h : ts ≠ []) :
  TrailingWildcard (f :: fs) (t :: ts) ↔ TrailingWildcard fs ts
  := by
  cases ts with
  | nil => exact (h rfl).elim
  | cons u ts => rfl

theorem trailingWildcard_nil (ts : List Bytes) :
  ¬ TrailingWildcard [] ts
  := by
  cases ts <;> exact id

/-- `topicMatches` is the matching by levels, without the empty last levels under a
wildcard. -/
theorem topicMatches_eq_true
    {filter : Bytes} (hfilter : Topic.ValidLevels (Topic.levels filter)) (topic : Bytes) :
  topicMatches filter topic = true
    ↔ Topic.LevelsMatch (Topic.levels filter) (Topic.levels topic)
      ∧ ¬ TrailingWildcard (Topic.levels filter) (Topic.levels topic)
  := by
  induction filter using Topic.level_induction generalizing topic with
  | last l hl =>
      rw [Topic.levels_of_not_mem hl] at hfilter ⊢
      rcases Topic.eq_level topic with ht | ⟨t, u, ht, rfl⟩
      · rw [Topic.levels_of_not_mem ht, trailingWildcard_single]
        rcases hfilter.cases with rfl | ⟨rfl, -⟩ | ⟨hp, hh⟩
        · have h := topicMatches_plus [] ht LevelEnd.last
          simpa [topicMatches] using h
        · simp [topicMatches_hash, Topic.LevelsMatch.multi]
        · have h := topicMatches_literal hl hp hh ht LevelEnd.last LevelEnd.last
          have hne := Topic.ne_wildcard hp hh
          rw [Topic.levelsMatch_literal hp hh]
          simpa [topicMatches, hne] using h
      · rw [Topic.levels_append_slash ht, trailingWildcard_cons _ _ _ (Topic.levels_ne_nil u)]
        rcases hfilter.cases with rfl | ⟨rfl, -⟩ | ⟨hp, hh⟩
        · have h := topicMatches_plus [] ht (LevelEnd.next u)
          simpa [topicMatches] using h
        · simp [topicMatches_hash, Topic.LevelsMatch.multi, trailingWildcard_nil]
        · have h := topicMatches_literal hl hp hh ht LevelEnd.last (LevelEnd.next u)
          rw [Topic.levelsMatch_literal hp hh]
          simpa [topicMatches] using h
  | level l rest hl ih =>
      rw [Topic.levels_append_slash hl] at hfilter ⊢
      have hhead := Topic.levels_eq_hash_iff hfilter.2.2
      have hcases := hfilter.cases
      simp only [Topic.levels_ne_nil, and_false, false_or] at hcases
      rcases Topic.eq_level topic with ht | ⟨t, u, ht, rfl⟩
      · have hparent : Topic.LevelsMatch (Topic.levels rest) []
            ↔ topicMatches (Topic.slash :: rest) [] = true := by
          obtain ⟨f, fs, hlevels⟩ := List.exists_cons_of_ne_nil (Topic.levels_ne_nil rest)
          rw [hlevels] at hhead ⊢
          simpa [topicMatches] using hhead
        rw [Topic.levels_of_not_mem ht, trailingWildcard_single]
        rcases hcases with rfl | ⟨hp, hh⟩
        · have h := topicMatches_plus (Topic.slash :: rest) ht LevelEnd.last
          rw [Topic.levelsMatch_plus, hparent]
          simpa [and_comm] using h
        · have h := topicMatches_literal hl hp hh ht (LevelEnd.next rest) LevelEnd.last
          have hne := Topic.ne_wildcard hp hh
          rw [Topic.levelsMatch_literal hp hh, hparent]
          simpa [hne] using h
      · rw [Topic.levels_append_slash ht, trailingWildcard_cons _ _ _ (Topic.levels_ne_nil u)]
        rcases hcases with rfl | ⟨hp, hh⟩
        · have h := topicMatches_plus (Topic.slash :: rest) ht (LevelEnd.next u)
          rw [topicMatches_slash_slash, ih hfilter.2.2] at h
          simpa using h
        · have h := topicMatches_literal hl hp hh ht (LevelEnd.next rest) (LevelEnd.next u)
          rw [topicMatches_slash_slash, ih hfilter.2.2] at h
          rw [Topic.levelsMatch_literal hp hh, and_assoc]
          apply h

/-- `topicMatches` agrees with the matching of MQTT just if, when the levels match, the
topic is reserved from the filter exactly when it ends in an empty level under a
wildcard. -/
theorem topicMatches_iff_matches_iff
    {filter : Bytes} (hfilter : Topic.ValidFilter filter) (topic : Bytes) :
  (topicMatches filter topic = true ↔ Topic.Matches filter topic)
    ↔ (Topic.LevelsMatch (Topic.levels filter) (Topic.levels topic) →
      (TrailingWildcard (Topic.levels filter) (Topic.levels topic)
        ↔ Topic.Reserved filter topic))
  := by
  have hmatches : Topic.Matches filter topic
      ↔ Topic.LevelsMatch (Topic.levels filter) (Topic.levels topic)
        ∧ ¬ Topic.Reserved filter topic := by
    constructor
    · rintro ⟨hlevels, hreserved⟩
      use hlevels, hreserved
    · rintro ⟨hlevels, hreserved⟩
      constructor
      · apply hlevels
      · apply hreserved
  rw [topicMatches_eq_true hfilter.levels, hmatches, and_congr_right_iff, not_iff_not]

theorem topicMatches_iff_matches_sensors :
  topicMatches (Bytes.ofAscii "home/+/#") (Bytes.ofAscii "home/sensors") = true
    ↔ Topic.Matches (Bytes.ofAscii "home/+/#") (Bytes.ofAscii "home/sensors")
  := by
  have hfilter : Topic.ValidFilter (Bytes.ofAscii "home/+/#") := by
    constructor
    · decide
    · use by decide, by decide, by decide, by decide, by decide, by decide
      trivial
  apply (topicMatches_iff_matches_iff hfilter _).mpr
  intro _
  constructor
  · rintro ⟨h, -⟩
    cases h
  · rintro ⟨h | h, -⟩ <;> cases h

/-- The filter `a/+` matches the topic `a/` level by level, and `topicMatches` does not. -/
theorem not_topicMatches_iff_matches :
  ¬ ∀ filter topic : Bytes, Topic.ValidFilter filter → Topic.ValidName topic →
      (topicMatches filter topic = true ↔ Topic.Matches filter topic)
  := by
  intro h
  have hfilter : Topic.ValidFilter (Bytes.ofAscii "a/+") := by
    constructor
    · decide
    · use by decide, by decide, by decide, by decide
      trivial
  have htopic : Topic.ValidName (Bytes.ofAscii "a/") := by
    constructor <;> decide
  have hmatches : Topic.Matches (Bytes.ofAscii "a/+") (Bytes.ofAscii "a/") := by
    constructor
    · apply Topic.LevelsMatch.level
      apply Topic.LevelsMatch.single
      apply Topic.LevelsMatch.nil
    · rintro ⟨h | h, -⟩ <;> cases h
  have htrue := (h _ _ hfilter htopic).mpr hmatches
  revert htrue
  decide

end WsService

end NexusMainframe
