import ClearFeature.Lib.LastMax
import Mathlib.Data.Prod.Lex
import Mathlib.Data.List.Nodup

/-!
# The first row of a descending order

A query sorts its rows by falling keys and keeps one. When no two rows have the
same key, the row does not depend on how the table stores them.
-/

namespace OrderBy

variable {α κ : Type} [LinearOrder κ] (key : α → κ)

def sortDesc (rows : List α) : List α := rows.mergeSort fun a b => decide (key b ≤ key a)

def limitOne (rows : List α) : Option α := (sortDesc key rows).head?

/-- No two rows share a key. -/
def DistinctKeys (rows : List α) : Prop := ∀ a ∈ rows, ∀ b ∈ rows, key a = key b → a = b

theorem limitOne_eq_none {rows : List α} : limitOne key rows = none ↔ rows = [] := by
  unfold limitOne sortDesc
  rw [List.head?_eq_none_iff]
  exact ⟨fun h => (h ▸ List.mergeSort_perm rows _ : List.Perm [] rows).nil_eq.symm, fun h => by rw [h, List.mergeSort_nil]⟩

theorem limitOne_greatest {rows : List α} {a : α} (h : limitOne key rows = some a) : a ∈ rows ∧ ∀ b ∈ rows, key b ≤ key a := by
  have hperm : List.Perm (sortDesc key rows) rows := List.mergeSort_perm rows _
  have hsorted : (sortDesc key rows).Pairwise fun a b => decide (key b ≤ key a) := by
    apply List.pairwise_mergeSort
    · intro a b c hab hbc
      exact decide_eq_true (le_trans (of_decide_eq_true hbc) (of_decide_eq_true hab))
    · intro a b
      rw [Bool.or_eq_true, decide_eq_true_iff, decide_eq_true_iff]
      exact le_total (key b) (key a)
  unfold limitOne at h
  cases hs : sortDesc key rows with
  | nil => rw [hs] at h; cases h
  | cons a' rest =>
    rw [hs] at h hperm hsorted
    cases h
    refine ⟨hperm.subset List.mem_cons_self, fun b hb => ?_⟩
    rcases List.mem_cons.mp (hperm.symm.subset hb) with rfl | hb
    · exact le_refl _
    · exact of_decide_eq_true (List.rel_of_pairwise_cons hsorted hb)

theorem limitOne_eq_some {rows : List α} (hd : DistinctKeys key rows) {a : α} :
    limitOne key rows = some a ↔ a ∈ rows ∧ ∀ b ∈ rows, key b ≤ key a := by
  refine ⟨limitOne_greatest key, fun ⟨hm, hle⟩ => ?_⟩
  cases h : limitOne key rows with
  | none =>
    rw [(limitOne_eq_none key).mp h] at hm
    cases hm
  | some a' =>
    obtain ⟨hm', hle'⟩ := limitOne_greatest key h
    rw [hd a hm a' hm' (le_antisymm (hle' a hm) (hle a' hm'))]

omit [LinearOrder κ] in
theorem DistinctKeys.perm {rows rows' : List α} (hd : DistinctKeys key rows) (hp : rows.Perm rows') :
    DistinctKeys key rows' := fun a ha b hb => hd a (hp.symm.subset ha) b (hp.symm.subset hb)

theorem limitOne_perm {rows rows' : List α} (hd : DistinctKeys key rows) (hp : rows.Perm rows') :
    limitOne key rows = limitOne key rows' := by
  apply Option.ext
  intro a
  rw [limitOne_eq_some key hd, limitOne_eq_some key (hd.perm key hp)]
  constructor
  · rintro ⟨hm, hle⟩
    exact ⟨hp.subset hm, fun b hb => hle b (hp.symm.subset hb)⟩
  · rintro ⟨hm, hle⟩
    exact ⟨hp.symm.subset hm, fun b hb => hle b (hp.subset hb)⟩

section
variable {β : Type} (f : β → α)

omit [LinearOrder κ] in
theorem DistinctKeys.map {rows : List β} (hd : DistinctKeys (key ∘ f) rows) : DistinctKeys key (rows.map f) := by
  intro a ha b hb h
  obtain ⟨a', ha', rfl⟩ := List.mem_map.mp ha
  obtain ⟨b', hb', rfl⟩ := List.mem_map.mp hb
  rw [hd a' ha' b' hb' h]

theorem limitOne_map {rows : List β} (hd : DistinctKeys (key ∘ f) rows) :
    limitOne key (rows.map f) = (limitOne (key ∘ f) rows).map f := by
  cases h : limitOne (key ∘ f) rows with
  | none =>
    rw [(limitOne_eq_none _).mp h]
    exact (limitOne_eq_none key).mpr rfl
  | some a =>
    obtain ⟨hm, hle⟩ := limitOne_greatest _ h
    refine (limitOne_eq_some key (hd.map key f)).mpr ⟨List.mem_map_of_mem hm, fun b hb => ?_⟩
    obtain ⟨b', hb', rfl⟩ := List.mem_map.mp hb
    exact hle b' hb'

theorem lastMax_map (rows : List β) : LastMax.lastMax key (rows.map f) = (LastMax.lastMax (key ∘ f) rows).map f := by
  induction rows using List.reverseRecOn with
  | nil => rfl
  | append_singleton rows b ih =>
    rw [List.map_append, List.map_singleton, LastMax.lastMax_append, LastMax.lastMax_append, ih]
    cases LastMax.lastMax (key ∘ f) rows with
    | none => rfl
    | some a =>
      by_cases h : key (f a) ≤ key (f b)
      · simp [LastMax.step, h]
      · simp [LastMax.step, h]

end

section
variable {ι : Type} [LinearOrder ι] (id : α → ι)

omit [LinearOrder κ] in
theorem distinct_of_numbered {rows : List α} (hid : rows.Pairwise fun a b => id a < id b) :
    DistinctKeys (fun a => toLex (key a, id a)) rows := by
  intro a ha b hb h
  have hids : id a = id b := congrArg (fun k => (ofLex k).2) h
  have hnodup : (rows.map id).Nodup := List.pairwise_map.mpr (hid.imp ne_of_lt)
  exact List.inj_on_of_nodup_map hnodup ha hb hids

/-- Rows numbered in the order in which they stand: the last greatest row is the first one when the number decides
between equal keys. -/
theorem lastMax_eq_limitOne {rows : List α} (hid : rows.Pairwise fun a b => id a < id b) :
    LastMax.lastMax key rows = limitOne (fun a => toLex (key a, id a)) rows := by
  have hd := distinct_of_numbered key id hid
  cases h : LastMax.lastMax key rows with
  | none =>
    rw [(LastMax.lastMax_eq_none key).mp h]
    exact ((limitOne_eq_none _).mpr rfl).symm
  | some a =>
    obtain ⟨l₁, l₂, rfl, h₁, h₂⟩ := LastMax.isLastMax_of_eq key h
    refine ((limitOne_eq_some _ hd).mpr ⟨by simp, fun b hb => ?_⟩).symm
    rw [Prod.Lex.toLex_le_toLex]
    rcases List.mem_append.mp hb with hb | hb
    · have hlt : id b < id a := (List.pairwise_append.mp hid).2.2 b hb a List.mem_cons_self
      rcases lt_or_eq_of_le (h₁ b hb) with hk | hk
      · exact .inl hk
      · exact .inr ⟨hk, le_of_lt hlt⟩
    · rcases List.mem_cons.mp hb with rfl | hb
      · exact .inr ⟨rfl, le_refl _⟩
      · exact .inl (h₂ b hb)

end

end OrderBy
