import Mathlib.Data.List.Induction

/-!
# The latest value of a history

A register that every entry with a value overwrites shows the value of the last
such entry. It depends on the order of the entries only if they disagree.
-/

namespace Latest

section
variable {α β : Type} (f : α → Option β)

def latest (as : List α) : Option β := (as.filterMap f).getLast?

@[simp] theorem latest_nil : latest f [] = none := rfl

theorem latest_snoc (as : List α) (a : α) : latest f (as ++ [a]) = (f a).or (latest f as) := by
  unfold latest
  rw [List.filterMap_append]
  cases h : f a with
  | none => simp [h]
  | some b => simp [h]

variable {f}

theorem mem_of_latest {as : List α} {b : β} (h : latest f as = some b) : ∃ a ∈ as, f a = some b := by
  have hm := List.mem_of_getLast? h
  rwa [List.mem_filterMap] at hm

theorem latest_eq_none {as : List α} : latest f as = none ↔ ∀ a ∈ as, f a = none := by
  unfold latest
  rw [List.getLast?_eq_none_iff, List.filterMap_eq_nil_iff]

/-- Entries that agree may come in any order and any number of times. -/
theorem latest_eq {as bs : List α} (hsame : ∀ b, (∃ a ∈ as, f a = some b) ↔ ∃ a ∈ bs, f a = some b)
    (hagree : ∀ a ∈ as, ∀ a' ∈ as, ∀ b b', f a = some b → f a' = some b' → b = b') : latest f as = latest f bs := by
  cases ha : latest f as with
  | none =>
    rw [latest_eq_none] at ha
    refine (latest_eq_none.mpr fun a hm => ?_).symm
    by_contra hne
    obtain ⟨b, hb⟩ := Option.ne_none_iff_exists'.mp hne
    obtain ⟨a', hm', hb'⟩ := (hsame b).mpr ⟨a, hm, hb⟩
    rw [ha a' hm'] at hb'
    cases hb'
  | some b =>
    obtain ⟨a, hm, hb⟩ := mem_of_latest ha
    cases hb' : latest f bs with
    | none =>
      obtain ⟨a', hm', he⟩ := (hsame b).mp ⟨a, hm, hb⟩
      rw [latest_eq_none.mp hb' a' hm'] at he
      cases he
    | some b' =>
      obtain ⟨a', hm', he⟩ := mem_of_latest hb'
      obtain ⟨a'', hm'', he''⟩ := (hsame b').mpr ⟨a', hm', he⟩
      rw [hagree a hm a'' hm'' b b' hb he'']

end

end Latest
