import NexusMainframe.Lib.Bytes

/-!
# Searching byte strings

`Bytes.find text bs` splits a byte string around the first place where a text occurs in it.
-/

namespace Bytes

/-- What stands before and behind the first occurrence of a text, if there is one. -/
def find (text : Bytes) : Bytes → Option (Bytes × Bytes)
  | [] => if text = [] then some ([], []) else none
  | b :: bs =>
      if text <+: b :: bs then some ([], (b :: bs).drop text.length)
      else (find text bs).map fun p => (b :: p.1, p.2)

variable {text bs : Bytes}

theorem eq_of_find {p : Bytes × Bytes} (h : find text bs = some p) :
  bs = p.1 ++ text ++ p.2
  := by
  induction bs generalizing p with
  | nil =>
      rw [find] at h
      split at h
      next htext =>
        cases h
        rw [htext]
        rfl
      next => cases h
  | cons b bs ih =>
      rw [find] at h
      split at h
      next hprefix =>
        cases h
        obtain ⟨rest, hrest⟩ := hprefix
        rw [← hrest, List.drop_left]
        rfl
      next =>
        obtain ⟨q, hq, rfl⟩ := Option.map_eq_some_iff.mp h
        rw [ih hq]
        simp

/-- The first occurrence is not behind another. -/
theorem exists_find_of_append (text before rest : Bytes) :
  ∃ p, find text (before ++ text ++ rest) = some p ∧ rest <:+ p.2
  := by
  induction before with
  | nil =>
      rw [List.nil_append]
      cases htext : text with
      | nil =>
          cases rest with
          | nil => exact ⟨([], []), rfl, List.suffix_rfl⟩
          | cons b rest => exact ⟨([], b :: rest), rfl, List.suffix_rfl⟩
      | cons t ts =>
          use ([], rest)
          rw [List.cons_append, find, if_pos ⟨rest, rfl⟩, ← List.cons_append, List.drop_left]
          exact ⟨rfl, List.suffix_rfl⟩
  | cons b before ih =>
      rw [List.cons_append, List.cons_append, find]
      split
      next =>
        have hrest : rest <:+ b :: (before ++ text ++ rest) := by
          rw [← List.cons_append]
          apply List.suffix_append
        refine ⟨_, rfl, ?_⟩
        apply List.suffix_of_suffix_length_le hrest (List.drop_suffix _ _)
        simp only [List.length_drop, List.length_append, List.length_cons]
        omega
      next =>
        obtain ⟨p, hp, hsuffix⟩ := ih
        use (b :: p.1, p.2)
        rw [hp]
        exact ⟨rfl, hsuffix⟩

/-- What stands behind the first occurrence of a text, if there is one. -/
def behind (text bs : Bytes) : Option Bytes :=
  (find text bs).map Prod.snd

theorem behind_cons (b : UInt8) (bs : Bytes) :
  behind text (b :: bs)
    = if text <+: b :: bs then some ((b :: bs).drop text.length) else behind text bs
  := by
  unfold behind
  rw [find]
  split
  next => rfl
  next =>
    rw [Option.map_map]
    rfl

theorem behind_nil (h : text ≠ []) :
  behind text [] = none
  := by
  rw [behind, find, if_neg h]
  rfl

/-- A text with a byte that does not occur does not occur. -/
theorem behind_eq_none_of_notMem {c : UInt8} (hc : c ∈ text) (h : c ∉ bs) :
  behind text bs = none
  := by
  rw [behind, Option.map_eq_none_iff]
  by_contra hfound
  obtain ⟨p, hp⟩ := Option.ne_none_iff_exists'.mp hfound
  apply h
  rw [eq_of_find hp]
  simp [hc]

/-- A text ends in front of a byte that does not stand in it. -/
theorem prefix_append_cons_iff {c : UInt8} (hc : c ∉ text) (a b : Bytes) :
  text <+: a ++ c :: b ↔ text <+: a
  := by
  constructor
  · intro h
    rcases List.prefix_or_prefix_of_prefix h (List.prefix_append a (c :: b)) with h' | ⟨t, rfl⟩
    · exact h'
    · have ht := (List.prefix_append_right_inj a).mp h
      cases t with
      | nil => simp
      | cons x t =>
          have hx := (List.cons_prefix_cons.mp ht).1
          simp [hx] at hc
  · intro h
    apply h.trans (List.prefix_append a _)

/-- A search goes on behind a byte that does not stand in the text. -/
theorem behind_append_cons {c : UInt8} (htext : text ≠ []) (hc : c ∉ text) (a b : Bytes) :
  behind text (a ++ c :: b) = ((behind text a).map (· ++ c :: b)).or (behind text b)
  := by
  induction a with
  | nil =>
      have hno : ¬ text <+: c :: b := by
        intro h
        have hnil := (prefix_append_cons_iff hc [] b).mp h
        exact htext (List.prefix_nil.mp hnil)
      rw [List.nil_append, behind_cons, if_neg hno, behind_nil htext]
      rfl
  | cons x a ih =>
      have hiff := prefix_append_cons_iff hc (x :: a) b
      rw [List.cons_append] at hiff ⊢
      rw [behind_cons, behind_cons]
      by_cases h : text <+: x :: a
      · rw [if_pos (hiff.mpr h), if_pos h, ← List.cons_append,
          List.drop_append_of_le_length h.length_le]
        rfl
      · rw [if_neg (mt hiff.mp h), if_neg h, ih]

theorem takeWhile_append_cons {c : UInt8} {a : Bytes} (ha : c ∉ a) (b : Bytes) :
  (a ++ c :: b).takeWhile (fun x => x ≠ c) = a
  := by
  rw [List.takeWhile_append_of_pos]
  · simp
  · intro x hx
    simp only [ne_eq, decide_eq_true_eq]
    rintro rfl
    exact ha hx

/-- A text with one last byte `c` occurs in front of the first `c` just when what goes before
ends in it. -/
theorem behind_concat {c : UInt8} {t a : Bytes} (ht : c ∉ t) (ha : c ∉ a) (b : Bytes) :
  behind (t ++ [c]) (a ++ c :: b) = if t <:+ a then some b else behind (t ++ [c]) b
  := by
  have hhere : ∀ a : Bytes, c ∉ a → (t ++ [c] <+: a ++ c :: b ↔ t = a) := by
    intro a ha
    constructor
    · rintro ⟨rest, h⟩
      rw [List.append_assoc, List.singleton_append] at h
      have hfront := congrArg (List.takeWhile fun x => x ≠ c) h
      rwa [takeWhile_append_cons ht, takeWhile_append_cons ha] at hfront
    · rintro rfl
      use b
      simp
  induction a with
  | nil =>
      rw [List.nil_append, behind_cons]
      have hnil := hhere [] ha
      rw [List.nil_append] at hnil
      by_cases h : t = []
      · rw [if_pos (hnil.mpr h), if_pos (List.suffix_nil.mpr h), h]
        rfl
      · rw [if_neg (mt hnil.mp h), if_neg (mt List.suffix_nil.mp h)]
  | cons x a ih =>
      have hx := hhere (x :: a) ha
      rw [List.cons_append] at hx ⊢
      rw [behind_cons, ih fun h => ha (List.mem_cons_of_mem x h)]
      by_cases h : t = x :: a
      · have hsuffix : t <:+ x :: a := List.suffix_cons_iff.mpr (Or.inl h)
        have hdrop : (x :: (a ++ c :: b)).drop (t ++ [c]).length = b := by
          have hfront : x :: (a ++ c :: b) = (t ++ [c]) ++ b := by
            rw [h]
            simp
          rw [hfront, List.drop_left]
        rw [if_pos (hx.mpr h), if_pos hsuffix, hdrop]
      · have hiff : t <:+ x :: a ↔ t <:+ a := by
          rw [List.suffix_cons_iff, or_iff_right h]
        rw [if_neg (mt hx.mp h)]
        by_cases hs : t <:+ a
        · rw [if_pos hs, if_pos (hiff.mpr hs)]
        · rw [if_neg hs, if_neg (mt hiff.mp hs)]

/-- A text is found in front of everything when its first byte does not stand before it. -/
theorem find_of_notMem {c : UInt8} {t a : Bytes} (ha : c ∉ a) (rest : Bytes) :
  find (c :: t) (a ++ (c :: t ++ rest)) = some (a, rest)
  := by
  induction a with
  | nil =>
      rw [List.nil_append, List.cons_append, find, if_pos ⟨rest, rfl⟩, ← List.cons_append,
        List.drop_left]
  | cons x a ih =>
      have hno : ¬ c :: t <+: x :: (a ++ (c :: t ++ rest)) := by
        intro h
        apply ha
        rw [(List.cons_prefix_cons.mp h).1]
        apply List.mem_cons_self
      rw [List.cons_append, find, if_neg hno, ih fun h => ha (List.mem_cons_of_mem x h)]
      rfl

end Bytes
