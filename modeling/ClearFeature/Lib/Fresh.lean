import Mathlib.Data.List.Basic

/-!
# Keeping what is new

An element is dropped when its key has been kept already or when it is
known. Elements that are known for another reason only after a first part has
been kept are the ones that a cut between the parts drops.
-/

namespace Fresh

section
variable {α κ : Type} [DecidableEq κ] (key : α → κ) (known near : α → Bool)

def fresh : List α → List κ → List α
  | [], _ => []
  | a :: as, seen =>
    if key a ∈ seen then fresh as seen
    else if known a then fresh as seen
    else a :: fresh as (key a :: seen)

/-- Elements of one key are known together. -/
def Respects (p : α → Bool) : Prop := ∀ a b, key a = key b → p a = p b

variable {key known near}

/-- Only what is in `seen` counts. -/
theorem fresh_congr : ∀ (as : List α) {s s' : List κ}, (∀ k, k ∈ s ↔ k ∈ s') → fresh key known as s = fresh key known as s'
  | [], _, _, _ => rfl
  | a :: as, s, s', h => by
    rw [fresh, fresh, fresh_congr as h]
    by_cases hs : key a ∈ s
    · rw [if_pos hs, if_pos ((h _).mp hs)]
    · rw [if_neg hs, if_neg fun hs' => hs ((h _).mpr hs')]
      have h' : ∀ k, k ∈ key a :: s ↔ k ∈ key a :: s' := by
        intro k
        rw [List.mem_cons, List.mem_cons, h k]
      rw [fresh_congr as h']

theorem fresh_append : ∀ (as bs : List α) (s : List κ), fresh key known (as ++ bs) s =
    fresh key known as s ++ fresh key known bs ((fresh key known as s).map key ++ s)
  | [], bs, s => rfl
  | a :: as, bs, s => by
    rw [List.cons_append, fresh, fresh]
    by_cases hs : key a ∈ s
    · rw [if_pos hs, if_pos hs]
      exact fresh_append as bs s
    rw [if_neg hs, if_neg hs]
    by_cases hk : known a = true
    · rw [if_pos hk, if_pos hk]
      exact fresh_append as bs s
    rw [if_neg hk, if_neg hk, fresh_append as bs, List.cons_append]
    refine congrArg (a :: _ ++ ·) (fresh_congr bs fun k => ?_)
    simp only [List.mem_append, List.mem_cons, List.map_cons]
    exact or_left_comm.trans or_assoc.symm

/-- What is kept: the first of each key that is neither seen nor known. -/
theorem exists_mem_fresh (hknown : Respects key known) {p : α → Prop} (hp : ∀ a b, key a = key b → p a → p b) :
    ∀ (as : List α) (s : List κ),
      (∃ a ∈ fresh key known as s, p a) ↔ ∃ a ∈ as, key a ∉ s ∧ known a = false ∧ p a
  | [], s => by
    constructor
    · intro ⟨a, ha, _⟩
      cases ha
    · intro ⟨a, ha, _⟩
      cases ha
  | a :: as, s => by
    rw [fresh]
    by_cases hs : key a ∈ s
    · rw [if_pos hs, exists_mem_fresh hknown hp as s]
      constructor
      · intro ⟨b, hb, h⟩
        exact ⟨b, List.mem_cons_of_mem _ hb, h⟩
      · intro ⟨b, hb, h⟩
        rcases List.mem_cons.mp hb with rfl | hb
        · exact absurd hs h.1
        · exact ⟨b, hb, h⟩
    rw [if_neg hs]
    by_cases hk : known a = true
    · rw [if_pos hk, exists_mem_fresh hknown hp as s]
      constructor
      · intro ⟨b, hb, h⟩
        exact ⟨b, List.mem_cons_of_mem _ hb, h⟩
      · intro ⟨b, hb, h⟩
        rcases List.mem_cons.mp hb with rfl | hb
        · exact absurd hk (Bool.not_eq_true _ ▸ h.2.1)
        · exact ⟨b, hb, h⟩
    rw [if_neg hk]
    have hk' : known a = false := Bool.not_eq_true _ ▸ hk
    constructor
    · intro ⟨b, hb, h⟩
      rcases List.mem_cons.mp hb with rfl | hb
      · exact ⟨b, List.mem_cons_self, hs, hk', h⟩
      · obtain ⟨c, hc, hcs, hcp⟩ := (exists_mem_fresh hknown hp as _).mp ⟨b, hb, h⟩
        exact ⟨c, List.mem_cons_of_mem _ hc, fun hcs' => hcs (List.mem_cons_of_mem _ hcs'), hcp⟩
    · intro ⟨b, hb, hbs, hbk, hbp⟩
      by_cases he : key b = key a
      · exact ⟨a, List.mem_cons_self, hp b a he hbp⟩
      rcases List.mem_cons.mp hb with rfl | hb
      · exact absurd rfl he
      have hbs' : key b ∉ key a :: s := by
        intro h
        rcases List.mem_cons.mp h with h | h
        · exact he h
        · exact hbs h
      obtain ⟨c, hc, hcp⟩ := (exists_mem_fresh hknown hp as _).mpr ⟨b, hb, hbs', hbk, hbp⟩
      exact ⟨c, List.mem_cons_of_mem _ hc, hcp⟩

/-- Where more is known, exactly that is left out of what is kept, if it covers the keys that are not seen. -/
theorem fresh_or (hnear : Respects key near) : ∀ (as : List α) {s s' : List κ}, (∀ k ∈ s', k ∈ s) →
    (∀ a, key a ∈ s → key a ∈ s' ∨ near a = true) →
    fresh key (fun a => known a || near a) as s' = (fresh key known as s).filter fun a => !near a
  | [], _, _, _, _ => rfl
  | a :: as, s, s', hsub, hcover => by
    rw [fresh, fresh]
    by_cases hs' : key a ∈ s'
    · rw [if_pos hs', if_pos (hsub _ hs')]
      exact fresh_or hnear as hsub hcover
    rw [if_neg hs']
    by_cases hs : key a ∈ s
    · have hn : near a = true := (hcover a hs).resolve_left hs'
      rw [if_pos hs, if_pos (by rw [hn, Bool.or_true])]
      exact fresh_or hnear as hsub hcover
    rw [if_neg hs]
    by_cases hk : known a = true
    · rw [if_pos hk, if_pos (by rw [hk, Bool.true_or])]
      exact fresh_or hnear as hsub hcover
    rw [if_neg hk]
    by_cases hn : near a = true
    · rw [if_pos (by rw [hn, Bool.or_true]), List.filter_cons_of_neg (by simp [hn])]
      refine fresh_or hnear as (fun k h => List.mem_cons_of_mem _ (hsub k h)) fun b hb => ?_
      rcases List.mem_cons.mp hb with he | hb
      · exact .inr ((hnear b a he).trans hn)
      · exact hcover b hb
    · rw [if_neg (by simp [hk, hn]), List.filter_cons_of_pos (by simp [hn])]
      refine congrArg (a :: ·) (fresh_or hnear as (fun k h => ?_) fun b hb => ?_)
      · rcases List.mem_cons.mp h with h | h
        · exact List.mem_cons.mpr (.inl h)
        · exact List.mem_cons_of_mem _ (hsub k h)
      · rcases List.mem_cons.mp hb with h | h
        · exact .inl (List.mem_cons.mpr (.inl h))
        · exact (hcover b h).imp_left (List.mem_cons_of_mem _)

/-- The cut after `as` does not matter if what `as` makes known of `bs` has keys of `as`. -/
theorem fresh_cut (hknown : Respects key known) (hnear : Respects key near) (as bs : List α)
    (hcover : ∀ a ∈ fresh key known as [], ∀ b, key a = key b → near b = true) :
    fresh key known as [] ++ fresh key (fun a => known a || near a) bs [] = fresh key known (as ++ bs) [] ↔
      ∀ b ∈ bs, known b = false → near b = true → ∃ a ∈ as, key a = key b := by
  have hseen : ∀ b, key b ∈ (fresh key known as []).map key ++ [] ↔ ∃ a ∈ as, known a = false ∧ key a = key b := by
    intro b
    have hmem := exists_mem_fresh hknown (p := fun a => key a = key b) (fun a a' he h => he.symm.trans h) as []
    rw [List.append_nil, List.mem_map, hmem]
    simp
  have hor : fresh key (fun a => known a || near a) bs [] =
      (fresh key known bs ((fresh key known as []).map key ++ [])).filter fun a => !near a := by
    refine fresh_or hnear bs (fun _ h => nomatch h) fun b hb => ?_
    rw [List.append_nil] at hb
    obtain ⟨a, ha, he⟩ := List.mem_map.mp hb
    exact .inr (hcover a ha b he)
  rw [fresh_append, hor, List.append_cancel_left_eq, List.filter_eq_self]
  have hany := exists_mem_fresh hknown (p := fun a => near a = true) (fun a b he h => (hnear a b he).symm.trans h) bs
    ((fresh key known as []).map key ++ [])
  constructor
  · intro h b hb hk hn
    by_contra hno
    have hbs : key b ∉ (fresh key known as []).map key ++ [] := by
      intro hin
      obtain ⟨a, ha, -, he⟩ := (hseen b).mp hin
      exact hno ⟨a, ha, he⟩
    obtain ⟨c, hc, hcn⟩ := hany.mpr ⟨b, hb, hbs, hk, hn⟩
    have hcn' := h c hc
    rw [hcn] at hcn'
    cases hcn'
  · intro h b hb
    by_contra hn
    obtain ⟨c, hc, hcs, hck, hcn⟩ := hany.mp ⟨b, hb, by simpa using hn⟩
    obtain ⟨a, ha, he⟩ := h c hc hck hcn
    exact hcs ((hseen c).mpr ⟨a, ha, (hknown a c he).trans hck, he⟩)

end

end Fresh
