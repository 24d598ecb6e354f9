import Mathlib.Data.List.Infix

/-!
# Overwriting a file

A file that is opened for writing is emptied, and then the new text is written into it from
its start to its end. The process may stop before, between or after; `Overwrite.after` is the
text that the file has then. Where the reader takes a text that is cut short for an empty
content, it finds the old content or the new one just in the cases of `Overwrite.Harmless`.
-/

namespace Overwrite

/-- Where the process stops: before it has opened the file, or when it has written a number
of elements of the text. -/
inductive Stop
  | unopened
  | wrote (n : Nat)

variable {α β : Type}

/-- What the file has after the stop. There is no text where the program fails to make one
when it has opened the file. -/
def after (old : List α) (text : Option (List α)) : Stop → List α
  | .unopened => old
  | .wrote n => (text.getD []).take n

/-- The reader finds the contents in whole texts, and the empty content in other parts of the
new one. -/
structure Reads (read : List α → β) (empty : β) (old : List α) (text : Option (List α))
    (content content' : β) : Prop where
  read_old : read old = content
  read_text : ∀ t ∈ text, read t = content'
  read_part : ∀ part, part <+: text.getD [] → text ≠ some part → read part = empty

/-- The file is not opened, one of the contents is empty, or the text is written whole. -/
def Harmless (empty : β) (text : Option (List α)) (content content' : β) (stop : Stop) : Prop :=
  stop = .unopened ∨ content = empty ∨ content' = empty
    ∨ ∃ n t, stop = .wrote n ∧ text = some t ∧ t.length ≤ n

variable {read : List α → β} {empty content content' : β} {old : List α}
  {text : Option (List α)}

/-- The reader finds the old or the new content just after a harmless stop. -/
theorem Reads.read_after_iff
    (h : Reads read empty old text content content') (stop : Stop) :
  read (after old text stop) = content ∨ read (after old text stop) = content'
    ↔ Harmless empty text content content' stop
  := by
  cases stop with
  | unopened =>
      constructor
      · intro _
        left
        rfl
      · intro _
        left
        apply h.read_old
  | wrote n =>
      by_cases hwhole : text = some ((text.getD []).take n)
      · constructor
        · intro _
          right
          right
          right
          use n, (text.getD []).take n, rfl, hwhole
          apply List.length_take_le
        · intro _
          right
          apply h.read_text _ hwhole
      · rw [after, h.read_part _ (List.take_prefix n _) hwhole]
        constructor
        · rintro (hempty | hempty)
          · right
            left
            apply hempty.symm
          · right
            right
            left
            apply hempty.symm
        · rintro (hstop | hempty | hempty | ⟨m, t, hstop, rfl, hle⟩)
          · cases hstop
          · left
            apply hempty.symm
          · right
            apply hempty.symm
          · exfalso
            cases hstop
            apply hwhole
            rw [Option.getD_some, List.take_of_length_le hle]

end Overwrite
