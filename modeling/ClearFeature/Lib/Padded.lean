import Mathlib.Data.List.GetD
import Mathlib.Order.PiLex

/-!
# Lists with zeros after their end

Two lists that are filled up with zeros to one width compare as the sequences
that they become with zeros for ever.
-/

namespace Padded

section
variable {α : Type} [Zero α]

/-- The list with zeros for ever after it. -/
def padded (l : List α) : Lex (ℕ → α) := toLex fun i => l.getD i 0

/-- The list with zeros after it up to a width. -/
def fill (width : ℕ) (l : List α) : List α := l ++ List.replicate (width - l.length) 0

variable {l m : List α} {width : ℕ}

theorem length_fill (h : l.length ≤ width) : (fill width l).length = width := by
  rw [fill, List.length_append, List.length_replicate]
  omega

theorem getD_fill (i : ℕ) : (fill width l).getD i 0 = l.getD i 0 := by
  rw [fill]
  by_cases h : i < l.length
  · rw [List.getD_append _ _ _ _ h]
  · rw [List.getD_append_right _ _ _ _ (not_lt.mp h), List.getD_eq_default l 0 (not_lt.mp h)]
    by_cases hi : i - l.length < width - l.length
    · rw [List.getD_replicate _ hi]
    · rw [List.getD_eq_default _ _ (by rw [List.length_replicate]; omega)]

theorem padded_fill : padded (fill width l) = padded l := funext fun i => getD_fill i

end

section
variable {α : Type} [Zero α] [LinearOrder α] {l m : List α} {width : ℕ}

theorem padded_lt_iff : padded l < padded m ↔ ∃ i, (∀ j < i, l.getD j 0 = m.getD j 0) ∧ l.getD i 0 < m.getD i 0 := Iff.rfl

/-- Lists of one length differ first within it. -/
theorem lt_iff_of_length (h : l.length = m.length) : l < m ↔ padded l < padded m := by
  rw [List.lt_iff_exists, padded_lt_iff]
  constructor
  · rintro (⟨-, hlt⟩ | ⟨i, hl, hm, heq, hlt⟩)
    · omega
    · refine ⟨i, fun j hj => ?_, ?_⟩
      · rw [List.getD_eq_getElem l 0 (hj.trans hl), List.getD_eq_getElem m 0 (hj.trans hm)]
        exact heq j hj
      · rw [List.getD_eq_getElem l 0 hl, List.getD_eq_getElem m 0 hm]
        exact hlt
  · rintro ⟨i, heq, hlt⟩
    have hl : i < l.length := by
      by_contra hge
      rw [List.getD_eq_default l 0 (not_lt.mp hge), List.getD_eq_default m 0 (h ▸ not_lt.mp hge)] at hlt
      exact lt_irrefl _ hlt
    have hm : i < m.length := h ▸ hl
    refine .inr ⟨i, hl, hm, fun j hj => ?_, ?_⟩
    · rw [← List.getD_eq_getElem l 0 (hj.trans hl), ← List.getD_eq_getElem m 0 (hj.trans hm)]
      exact heq j hj
    · rw [← List.getD_eq_getElem l 0 hl, ← List.getD_eq_getElem m 0 hm]
      exact hlt

theorem fill_lt_iff (hl : l.length ≤ width) (hm : m.length ≤ width) : fill width l < fill width m ↔ padded l < padded m := by
  rw [lt_iff_of_length ((length_fill hl).trans (length_fill hm).symm), padded_fill, padded_fill]

end

end Padded
