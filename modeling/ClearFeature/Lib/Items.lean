/-!
# Items handled one by one

Each item is handled in the state the ones before it left; handling it returns
something or raises. Where raising leaves nothing that handling looks at, the
items that do not raise go through as if they were alone.
-/

namespace Items

section
variable {S I E R : Type} (handle : S → I → S × Except E R)

def final (s : S) (items : List I) : S := items.foldl (fun s item => (handle s item).1) s

def outcomes : S → List I → List (Except E R)
  | _, [] => []
  | s, item :: items => (handle s item).2 :: outcomes (handle s item).1 items

/-- The items that do not raise in their turn. -/
def kept : S → List I → List I
  | _, [] => []
  | s, item :: items =>
    match (handle s item).2 with
    | .ok _ => item :: kept (handle s item).1 items
    | .error _ => kept (handle s item).1 items

def raised : List (Except E R) → List E
  | [] => []
  | .ok _ :: outs => raised outs
  | .error e :: outs => e :: raised outs

def returned : List (Except E R) → List R
  | [] => []
  | .ok r :: outs => r :: returned outs
  | .error _ :: outs => returned outs

@[simp] theorem final_nil (s : S) : final handle s [] = s := rfl

@[simp] theorem final_cons (s : S) (item : I) (items : List I) :
    final handle s (item :: items) = final handle (handle s item).1 items := rfl

theorem length_returned : ∀ outs : List (Except E R), (returned outs).length + (raised outs).length = outs.length
  | [] => rfl
  | .ok r :: outs => by
    have ih := length_returned outs
    simp only [returned, raised, List.length_cons]
    omega
  | .error e :: outs => by
    have ih := length_returned outs
    simp only [returned, raised, List.length_cons]
    omega

theorem length_outcomes : ∀ (s : S) (items : List I), (outcomes handle s items).length = items.length
  | _, [] => rfl
  | s, item :: items => by
    simp only [outcomes, List.length_cons, length_outcomes]

theorem length_kept : ∀ (s : S) (items : List I),
    (kept handle s items).length = (returned (outcomes handle s items)).length
  | _, [] => rfl
  | s, item :: items => by
    rw [kept, outcomes]
    cases (handle s item).2 with
    | ok r => rw [List.length_cons, returned, List.length_cons, length_kept]
    | error e => exact length_kept _ items

@[simp] theorem returned_ok : ∀ rs : List R, returned (rs.map (Except.ok : R → Except E R)) = rs
  | [] => rfl
  | r :: rs => congrArg (r :: ·) (returned_ok rs)

@[simp] theorem raised_ok : ∀ rs : List R, raised (rs.map (Except.ok : R → Except E R)) = []
  | [] => rfl
  | _ :: rs => raised_ok rs

theorem returned_map {R' : Type} (f : R → R') : ∀ outs : List (Except E R),
    returned (outs.map (Except.map f)) = (returned outs).map f
  | [] => rfl
  | .ok r :: outs => congrArg (f r :: ·) (returned_map f outs)
  | .error _ :: outs => returned_map f outs

theorem mem_returned : ∀ {outs : List (Except E R)} {r : R}, r ∈ returned outs ↔ Except.ok r ∈ outs
  | [], r => by simp [returned]
  | .ok r' :: outs, r => by
    rw [returned, List.mem_cons, List.mem_cons, mem_returned]
    simp
  | .error e :: outs, r => by
    rw [returned, List.mem_cons, mem_returned]
    simp

/-! ## The loop -/

variable {T : Type} (isolates : E → Bool) (ok : T → R → T) (bad : T → E → T)

/-- What is raised is noted with its item, or ends the loop. -/
def loop : S → List I → T → S × Except E T
  | s, [], t => (s, .ok t)
  | s, item :: items, t =>
    match (handle s item).2 with
    | .ok r => loop (handle s item).1 items (ok t r)
    | .error e => if isolates e then loop (handle s item).1 items (bad t e) else ((handle s item).1, .error e)

def tally : T → List (Except E R) → T
  | t, [] => t
  | t, .ok r :: outs => tally (ok t r) outs
  | t, .error e :: outs => tally (bad t e) outs

variable {handle isolates ok bad}

theorem loop_isolated : ∀ {s : S} {items : List I} {t : T},
    (∀ e ∈ raised (outcomes handle s items), isolates e = true) →
    loop handle isolates ok bad s items t = (final handle s items, .ok (tally ok bad t (outcomes handle s items)))
  | s, [], t, _ => rfl
  | s, item :: items, t, h => by
    rw [loop, final_cons, outcomes]
    rw [outcomes] at h
    cases hh : (handle s item).2 with
    | ok r =>
      rw [hh] at h
      exact loop_isolated h
    | error e =>
      rw [hh] at h
      dsimp only
      rw [if_pos (h e List.mem_cons_self)]
      exact loop_isolated fun e' he' => h e' (List.mem_cons_of_mem _ he')

/-- What handling keeps, the loop keeps, wherever it ends. -/
theorem loop_keeps {P : S → Prop} : ∀ {s : S} {items : List I} {t : T},
    (∀ s, ∀ item ∈ items, P s → P (handle s item).1) → P s → P (loop handle isolates ok bad s items t).1
  | s, [], t, _, hs => hs
  | s, item :: items, t, h, hs => by
    have hs' := h s item List.mem_cons_self hs
    have hrest : ∀ s, ∀ item ∈ items, P s → P (handle s item).1 := fun s i hi => h s i (List.mem_cons_of_mem _ hi)
    rw [loop]
    cases (handle s item).2 with
    | ok r => exact loop_keeps hrest hs'
    | error e =>
      dsimp only
      by_cases hi : isolates e = true
      · rw [if_pos hi]
        exact loop_keeps hrest hs'
      · rw [if_neg hi]
        exact hs'

theorem isolated_of_loop : ∀ {s : S} {items : List I} {t t' : T},
    (loop handle isolates ok bad s items t).2 = .ok t' → ∀ e ∈ raised (outcomes handle s items), isolates e = true
  | s, [], t, t', _ => fun e he => (nomatch he)
  | s, item :: items, t, t', h => by
    rw [loop] at h
    rw [outcomes]
    cases hh : (handle s item).2 with
    | ok r =>
      rw [hh] at h
      exact isolated_of_loop h
    | error e =>
      rw [hh] at h
      dsimp only at h
      by_cases hi : isolates e = true
      · rw [if_pos hi] at h
        intro e' he'
        rcases List.mem_cons.mp he' with rfl | he'
        · exact hi
        · exact isolated_of_loop h e' he'
      · rw [if_neg hi] at h
        cases h

/-! ## Items that do not matter to each other -/

variable (handle)

/-- Handling looks at the state up to `same` only, and raising leaves it the same. -/
structure Isolated (same : S → S → Prop) : Prop where
  refl : ∀ s, same s s
  trans : ∀ {s₁ s₂ s₃}, same s₁ s₂ → same s₂ s₃ → same s₁ s₃
  state : ∀ {s₁ s₂} item, same s₁ s₂ → same (handle s₁ item).1 (handle s₂ item).1
  outcome : ∀ {s₁ s₂} item, same s₁ s₂ → (handle s₁ item).2 = (handle s₂ item).2
  raises : ∀ {s₁ s₂} item e, same s₁ s₂ → (handle s₂ item).2 = .error e → same s₁ (handle s₂ item).1

variable {handle} {same : S → S → Prop}

/-- Without the items that raise, the others return the same and leave the same. -/
theorem Isolated.kept (h : Isolated handle same) : ∀ {s₁ s₂ : S} (items : List I), same s₁ s₂ →
    same (final handle s₁ (Items.kept handle s₂ items)) (final handle s₂ items) ∧
    outcomes handle s₁ (Items.kept handle s₂ items) = (returned (outcomes handle s₂ items)).map .ok
  | s₁, s₂, [], hs => ⟨hs, rfl⟩
  | s₁, s₂, item :: items, hs => by
    rw [Items.kept, final_cons, outcomes]
    cases hh : (handle s₂ item).2 with
    | error e => exact h.kept items (h.raises item e hs hh)
    | ok r =>
      obtain ⟨hfinal, houts⟩ := h.kept items (h.state item hs)
      refine ⟨hfinal, ?_⟩
      rw [outcomes, h.outcome item hs, hh, houts]
      rfl

end

end Items
