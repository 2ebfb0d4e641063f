import Mathlib.Order.Lattice
import Mathlib.Data.List.Induction

/-!
# The last maximum of a list

Scanning a list and replacing the kept element by every later one whose key is
not smaller keeps the last element of greatest key.
-/

namespace LastMax

variable {α κ : Type} [LinearOrder κ] (key : α → κ)

def step (kept : Option α) (a : α) : Option α :=
  match kept with
  | none => some a
  | some b => if key b ≤ key a then some a else some b

def lastMax (l : List α) : Option α := l.foldl (step key) none

@[simp] theorem lastMax_nil : lastMax key [] = none := rfl

theorem lastMax_append (l : List α) (a : α) : lastMax key (l ++ [a]) = step key (lastMax key l) a := by
  simp [lastMax]

/-- `a` is the last element of `l` with the greatest key. -/
def IsLastMax (l : List α) (a : α) : Prop :=
  ∃ l₁ l₂, l = l₁ ++ a :: l₂ ∧ (∀ b ∈ l₁, key b ≤ key a) ∧ ∀ b ∈ l₂, key b < key a

theorem lastMax_spec (l : List α) : lastMax key l = none ∧ l = [] ∨ ∃ a, lastMax key l = some a ∧ IsLastMax key l a := by
  induction l using List.reverseRecOn with
  | nil => exact .inl ⟨rfl, rfl⟩
  | append_singleton l a ih =>
    rw [lastMax_append]
    refine .inr ?_
    rcases ih with ⟨h, rfl⟩ | ⟨b, h, l₁, l₂, rfl, h₁, h₂⟩
    · exact ⟨a, by rw [h]; rfl, [], [], rfl, by simp, by simp⟩
    · rw [h]
      by_cases hb : key b ≤ key a
      · refine ⟨a, if_pos hb, l₁ ++ b :: l₂, [], by simp, fun c hc => ?_, by simp⟩
        rcases List.mem_append.mp hc with hc | hc
        · exact le_trans (h₁ c hc) hb
        · rcases List.mem_cons.mp hc with rfl | hc
          · exact hb
          · exact le_trans (le_of_lt (h₂ c hc)) hb
      · refine ⟨b, if_neg hb, l₁, l₂ ++ [a], by simp, h₁, fun c hc => ?_⟩
        rcases List.mem_append.mp hc with hc | hc
        · exact h₂ c hc
        · rw [List.mem_singleton.mp hc]; exact lt_of_not_ge hb

theorem isLastMax_of_eq {l : List α} {a : α} (h : lastMax key l = some a) : IsLastMax key l a := by
  rcases lastMax_spec key l with ⟨h', -⟩ | ⟨b, h', hb⟩
  · rw [h] at h'; cases h'
  · rw [h] at h'; cases h'; exact hb

@[simp] theorem lastMax_eq_none {l : List α} : lastMax key l = none ↔ l = [] := by
  rcases lastMax_spec key l with ⟨h, e⟩ | ⟨b, h, l₁, l₂, e, -⟩
  · simp [e]
  · simp only [h, reduceCtorEq, false_iff]
    exact fun hn => by simp [hn] at e

theorem IsLastMax.mem {l : List α} {a : α} (h : IsLastMax key l a) : a ∈ l := by
  obtain ⟨l₁, l₂, rfl, -⟩ := h
  simp

theorem IsLastMax.le {l : List α} {a : α} (h : IsLastMax key l a) : ∀ b ∈ l, key b ≤ key a := by
  obtain ⟨l₁, l₂, rfl, h₁, h₂⟩ := h
  intro b hb
  rcases List.mem_append.mp hb with hb | hb
  · exact h₁ b hb
  · rcases List.mem_cons.mp hb with rfl | hb
    · exact le_refl _
    · exact le_of_lt (h₂ b hb)

theorem mem_of_lastMax {l : List α} {a : α} (h : lastMax key l = some a) : a ∈ l := (isLastMax_of_eq key h).mem

theorem le_of_lastMax {l : List α} {a : α} (h : lastMax key l = some a) : ∀ b ∈ l, key b ≤ key a :=
  (isLastMax_of_eq key h).le

end LastMax
