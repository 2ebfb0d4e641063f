import Mathlib.Data.List.Basic

/-!
# Lists joined by a separator

Parts without the separator are read back from their join, a join is cut at a
separator in one way only, and a join that ends with another one shares its last
parts.
-/

namespace Separated

section
variable {α : Type} {sep : α}

/-- The parts with the separator after each. -/
def closed (sep : α) (parts : List (List α)) : List α := parts.flatMap (· ++ [sep])

theorem closed_cons (part : List α) (parts : List (List α)) : closed sep (part :: parts) = part ++ sep :: closed sep parts := by
  rw [closed, List.flatMap_cons, List.append_assoc]
  rfl

theorem intercalate_append_cons (part : List α) (parts : List (List α)) : ∀ before : List (List α),
    [sep].intercalate (before ++ part :: parts) = closed sep before ++ [sep].intercalate (part :: parts)
  | [] => rfl
  | first :: before => by
    have hne : before ++ part :: parts ≠ [] := List.append_ne_nil_of_right_ne_nil _ (List.cons_ne_nil _ _)
    rw [List.cons_append, List.intercalate_cons_of_ne_nil hne, intercalate_append_cons part parts before, closed_cons,
      List.append_assoc, List.append_assoc]
    rfl

/-- A text in front of a join goes to its first part. -/
theorem append_intercalate (start part : List α) (parts : List (List α)) :
    start ++ [sep].intercalate (part :: parts) = [sep].intercalate ((start ++ part) :: parts) := by
  cases parts with
  | nil => simp only [List.intercalate_singleton]
  | cons next parts => rw [List.intercalate_cons_cons, List.intercalate_cons_cons, List.append_assoc, List.append_assoc,
      List.append_assoc]

theorem mem_intercalate {a : α} : ∀ {parts : List (List α)}, a ∈ [sep].intercalate parts →
    a = sep ∨ ∃ part ∈ parts, a ∈ part
  | [], h => nomatch h
  | [part], h => .inr ⟨part, List.mem_cons_self, by simpa using h⟩
  | part :: part' :: parts, h => by
    rw [List.intercalate_cons_cons] at h
    rcases List.mem_append.mp h with h | h
    · rcases List.mem_append.mp h with h | h
      · exact .inr ⟨part, List.mem_cons_self, h⟩
      · exact .inl (List.mem_singleton.mp h)
    · rcases mem_intercalate h with h | ⟨p, hp, h⟩
      · exact .inl h
      · exact .inr ⟨p, List.mem_cons_of_mem _ hp, h⟩

/-- The first separator cuts a list in one way. -/
theorem cut_inj : ∀ {a a' b b' : List α}, sep ∉ a → sep ∉ a' → a ++ sep :: b = a' ++ sep :: b' → a = a' ∧ b = b'
  | [], [], _, _, _, _, h => ⟨rfl, (List.cons.inj h).2⟩
  | [], _ :: _, _, _, _, ha', h => absurd (List.mem_cons.mpr (.inl (List.cons.inj h).1)) ha'
  | _ :: _, [], _, _, ha, _, h => absurd (List.mem_cons.mpr (.inl (List.cons.inj h).1.symm)) ha
  | x :: a, x' :: a', b, b', ha, ha', h => by
    obtain ⟨hx, h⟩ := List.cons.inj h
    obtain ⟨haa, hbb⟩ := cut_inj (fun hm => ha (List.mem_cons_of_mem _ hm)) (fun hm => ha' (List.mem_cons_of_mem _ hm)) h
    exact ⟨by rw [hx, haa], hbb⟩

/-- So does the last one. -/
theorem last_cut_inj {a a' b b' : List α} (hb : sep ∉ b) (hb' : sep ∉ b') (h : a ++ sep :: b = a' ++ sep :: b') :
    a = a' ∧ b = b' := by
  have hrev := congrArg List.reverse h
  rw [List.reverse_append, List.reverse_append, List.reverse_cons, List.reverse_cons, List.append_assoc,
    List.append_assoc] at hrev
  obtain ⟨hbb, haa⟩ := cut_inj (fun hm => hb (List.mem_reverse.mp hm)) (fun hm => hb' (List.mem_reverse.mp hm)) hrev
  exact ⟨List.reverse_injective haa, List.reverse_injective hbb⟩

end

section
variable {α : Type} [DecidableEq α] {sep : α}

theorem not_mem_splitOn : ∀ {l part : List α}, part ∈ l.splitOn sep → sep ∉ part
  | [], part, h => by
    rw [List.splitOn_nil] at h
    rw [List.mem_singleton.mp h]
    exact List.not_mem_nil
  | a :: l, part, h => by
    have ih : ∀ part ∈ l.splitOn sep, sep ∉ part := fun _ => not_mem_splitOn
    rw [List.splitOn_cons_eq_if_modifyHead] at h
    split at h
    · rcases List.mem_cons.mp h with rfl | h
      · exact List.not_mem_nil
      · exact ih part h
    · rename_i hne
      cases hs : l.splitOn sep with
      | nil => exact absurd hs (List.splitOn_ne_nil sep l)
      | cons first parts =>
        rw [hs] at h ih
        rcases List.mem_cons.mp h with rfl | h
        · intro hm
          rcases List.mem_cons.mp hm with he | hm
          · exact hne (beq_iff_eq.mpr he.symm)
          · exact ih first List.mem_cons_self hm
        · exact ih part (List.mem_cons_of_mem _ h)

/-- A join of parts that ends with another join: its parts are some parts, one that ends with the other's first part, and
the other's further parts. -/
theorem join_suffix {parts others : List (List α)} {other start : List α} (hparts : ∀ part ∈ parts, sep ∉ part)
    (hne : parts ≠ []) (hother : sep ∉ other) (hothers : ∀ part ∈ others, sep ∉ part)
    (h : [sep].intercalate parts = start ++ [sep].intercalate (other :: others)) :
    ∃ before last, parts = before ++ (last ++ other) :: others ∧ start = closed sep before ++ last := by
  have hstart : [sep].intercalate (start.splitOn sep) = start := List.intercalate_splitOn sep
  have hmem : ∀ part ∈ start.splitOn sep, sep ∉ part := fun _ => not_mem_splitOn
  rcases List.eq_nil_or_concat' (start.splitOn sep) with hnil | ⟨before, last, hsplit⟩
  · exact absurd hnil (List.splitOn_ne_nil sep start)
  rw [hsplit] at hstart hmem
  rw [intercalate_append_cons, List.intercalate_singleton] at hstart
  rw [← hstart, List.append_assoc, append_intercalate, ← intercalate_append_cons] at h
  have hfree : ∀ part ∈ before ++ (last ++ other) :: others, sep ∉ part := by
    intro part hp
    rcases List.mem_append.mp hp with hp | hp
    · exact hmem part (List.mem_append_left _ hp)
    · rcases List.mem_cons.mp hp with rfl | hp
      · intro hm
        rcases List.mem_append.mp hm with hm | hm
        · exact hmem last (List.mem_append_right _ (List.mem_singleton.mpr rfl)) hm
        · exact hother hm
      · exact hothers part hp
  have hcut := congrArg (List.splitOn sep) h
  rw [List.splitOn_intercalate sep hparts hne, List.splitOn_intercalate sep hfree
    (List.append_ne_nil_of_right_ne_nil _ (List.cons_ne_nil _ _))] at hcut
  exact ⟨before, last, hcut, hstart.symm⟩

end

end Separated
