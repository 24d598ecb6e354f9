import Mathlib.Data.List.Infix
import Mathlib.Data.List.Nodup

/-!
# Windows of a list

What stands together in a list of a given length is a window of it. The elements of every
window are different just if no element comes again so soon that a window has it twice.
-/

namespace Window

variable {α : Type*} {xs : List α} {n : Nat}

theorem isInfix_take_drop (xs : List α) (t n : Nat) :
  (xs.drop t).take n <:+: xs
  := (List.take_prefix n _).isInfix.trans (List.drop_suffix t xs).isInfix

/-- Two positions that are close enough are in one window, if there is any. -/
theorem exists_start
    {p q length : Nat} (hclose : q < p + n) (hq : q < length) (hlength : n ≤ length) :
  ∃ t, t ≤ p ∧ q < t + n ∧ t + n ≤ length
  := by
  by_cases h : p + n ≤ length
  · exact ⟨p, by omega⟩
  · exact ⟨length - n, by omega⟩

/-- The elements of the windows of a length are different just if equal elements are as far
apart, where there is a window. -/
theorem nodup_iff :
  (∀ w, w <:+: xs → w.length = n → w.Nodup)
    ↔ (n ≤ xs.length → ∀ p q x, p < q → q < p + n → xs[p]? = some x → xs[q]? ≠ some x)
  := by
  constructor
  · intro h hlength p q x hp hclose hx hx'
    obtain ⟨hq, -⟩ := List.getElem?_eq_some_iff.mp hx'
    obtain ⟨t, ht, hqt, htn⟩ := exists_start hclose hq hlength
    have hwindow : ((xs.drop t).take n).length = n := by
      rw [List.length_take, List.length_drop]
      omega
    have hnodup := h _ (isInfix_take_drop xs t n) hwindow
    rw [List.nodup_iff_getElem?_ne_getElem?] at hnodup
    apply hnodup (p - t) (q - t) (by omega)
      (by rw [List.length_take, List.length_drop]; omega)
    rw [List.getElem?_take_of_lt (by omega), List.getElem?_take_of_lt (by omega),
      List.getElem?_drop, List.getElem?_drop, Nat.add_sub_cancel' ht,
      Nat.add_sub_cancel' (by omega), hx, hx']
  · rintro h w ⟨front, back, rfl⟩ hw
    rw [List.nodup_iff_getElem?_ne_getElem?]
    intro p q hp hq heq
    have hx : w[p]? = some w[p] := List.getElem?_eq_getElem (by omega)
    have hposition : ∀ m < w.length, (front ++ w ++ back)[front.length + m]? = w[m]? := by
      intro m hm
      rw [List.append_assoc, List.getElem?_append_right (by omega), Nat.add_sub_cancel_left,
        List.getElem?_append_left hm]
    apply h (by simp; omega) (front.length + p) (front.length + q) w[p] (by omega) (by omega)
    · rw [hposition p (by omega), hx]
    · rw [hposition q hq, ← heq, hx]

end Window
