/-!
# Cells that a final value closes

A cell takes every value it is given until it holds a final one. With one final
value at most, what a cell ends with depends on the set of the values alone.
-/

namespace Closing

section
variable {α β : Type} (final : α → Bool)

def put (cell : Option α) (a : α) : Option α := if cell.any final then cell else some a

def run (cell : Option α) (as : List α) : Option α := as.foldl (put final) cell

variable {final}

theorem put_of_final {cell : Option α} (h : cell.any final = true) (a : α) : put final cell a = cell := if_pos h

theorem put_of_open {cell : Option α} (h : cell.any final = false) (a : α) : put final cell a = some a := by
  unfold put
  rw [if_neg (by simp [h])]

theorem put_isSome (cell : Option α) (a : α) : (put final cell a).isSome = true := by
  by_cases h : cell.any final = true
  · rw [put_of_final h]
    cases cell with
    | none => cases h
    | some c => rfl
  · rw [put_of_open (eq_false_of_ne_true h)]
    rfl

theorem run_of_final {cell : Option α} (h : cell.any final = true) : ∀ as : List α, run final cell as = cell
  | [] => rfl
  | a :: as => by
    show run final (put final cell a) as = cell
    rw [put_of_final h a]
    exact run_of_final h as

theorem run_mem_final {w : α} (hw : final w = true) : ∀ {as : List α} {cell : Option α},
    (∀ a ∈ as, final a = true → a = w) → (∀ c, cell = some c → final c = true → c = w) →
    w ∈ as → run final cell as = some w
  | a :: as, cell, has, hcell, hmem => by
    show run final (put final cell a) as = some w
    by_cases hc : cell.any final = true
    · rw [put_of_final hc, run_of_final hc]
      cases cell with
      | none => cases hc
      | some c => rw [hcell c rfl hc]
    · rw [put_of_open (eq_false_of_ne_true hc)]
      by_cases ha : final a = true
      · have haw : a = w := has a List.mem_cons_self ha
        rw [run_of_final (by simpa using ha), haw]
      · have hne : w ≠ a := fun e => ha (e ▸ hw)
        refine run_mem_final hw (fun b hb => has b (List.mem_cons_of_mem _ hb)) ?_ ?_
        · rintro c ⟨⟩ hf
          exact absurd hf ha
        · exact (List.mem_cons.mp hmem).resolve_left hne

theorem run_open : ∀ {as : List α} {cell : Option α}, cell.any final = false → (∀ a ∈ as, final a = false) →
    run final cell as = as.getLast?.or cell
  | [], _, _, _ => rfl
  | a :: as, cell, hcell, has => by
    have ha : (some a).any final = false := by simpa using has a List.mem_cons_self
    show run final (put final cell a) as = _
    rw [put_of_open hcell, run_open ha fun b hb => has b (List.mem_cons_of_mem _ hb)]
    cases as with
    | nil => rfl
    | cons b bs => simp [List.getLast?_cons]

/-- The values may come in any order and any number of times; what is open is compared by `g`. -/
theorem run_map_eq {as bs : List α} (g : α → β) (hsame : ∀ a, a ∈ as ↔ a ∈ bs)
    (hone : ∀ a ∈ as, ∀ b ∈ as, final a = true → final b = true → a = b)
    (hopen : ∀ a ∈ as, ∀ b ∈ as, final a = false → final b = false → g a = g b) :
    (run final none as).map g = (run final none bs).map g := by
  by_cases h : ∃ w ∈ as, final w = true
  · obtain ⟨w, hw, hf⟩ := h
    have has : ∀ a ∈ as, final a = true → a = w := fun a ha hfa => hone a ha w hw hfa hf
    have hbs : ∀ b ∈ bs, final b = true → b = w := fun b hb => has b ((hsame b).mpr hb)
    rw [run_mem_final hf has (by simp) hw, run_mem_final hf hbs (by simp) ((hsame w).mp hw)]
  · have has : ∀ a ∈ as, final a = false := fun a ha => eq_false_of_ne_true fun hf => h ⟨a, ha, hf⟩
    have hbs : ∀ b ∈ bs, final b = false := fun b hb => has b ((hsame b).mpr hb)
    rw [run_open rfl has, run_open rfl hbs, Option.or_none, Option.or_none]
    cases ha : as.getLast? with
    | none =>
      rw [List.getLast?_eq_none_iff] at ha
      subst ha
      have hnil : bs = [] := List.eq_nil_iff_forall_not_mem.mpr fun b hb => by
        have := (hsame b).mpr hb
        simp at this
      subst hnil
      rfl
    | some a =>
      have hma := List.mem_of_getLast? ha
      cases hb : bs.getLast? with
      | none =>
        rw [List.getLast?_eq_none_iff] at hb
        subst hb
        have := (hsame a).mp hma
        simp at this
      | some b =>
        have hmb := (hsame b).mpr (List.mem_of_getLast? hb)
        rw [Option.map_some, Option.map_some, hopen a hma b hmb (has a hma) (has b hmb)]

end

end Closing
