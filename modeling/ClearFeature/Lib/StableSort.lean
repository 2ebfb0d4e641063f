import Mathlib.Data.List.Sort
import Mathlib.Data.List.Forall2
import Mathlib.Data.List.Perm.Basic

/-!
# Sorting by a key, and lists up to order

A stable sort forgets how entries with different keys stood and keeps how
entries with the same key stood, and nothing else.
-/

namespace StableSort

section
variable {α κ : Type} [LinearOrder κ] (key : α → κ)

/-- `sorted(l, key=key)`. -/
def sortedBy (l : List α) : List α := l.insertionSort fun a b => key a ≤ key b

/-- The entries with key `k`, in their order. -/
def keyed (k : κ) (l : List α) : List α := l.filter fun a => key a = k

theorem mem_keyed {k : κ} {l : List α} {a : α} : a ∈ keyed key k l ↔ a ∈ l ∧ key a = k := by
  simp [keyed, List.mem_filter]

theorem sortedBy_perm (l : List α) : (sortedBy key l).Perm l := List.perm_insertionSort _ l

theorem sortedBy_pairwise (l : List α) : (sortedBy key l).Pairwise fun a b => key a ≤ key b := by
  have : Std.Total fun a b : α => key a ≤ key b := ⟨fun a b => le_total (key a) (key b)⟩
  have : IsTrans α fun a b => key a ≤ key b := ⟨fun a b c => le_trans⟩
  exact List.pairwise_insertionSort (fun a b => key a ≤ key b) l

theorem keyed_orderedInsert (k : κ) (a : α) (l : List α) :
    keyed key k (l.orderedInsert (fun a b => key a ≤ key b) a) = keyed key k (a :: l) := by
  induction l with
  | nil => rfl
  | cons b l ih =>
    rw [List.orderedInsert_cons]
    by_cases hab : key a ≤ key b
    · rw [if_pos hab]
    · rw [if_neg hab]
      -- a is put behind b only when their keys differ
      by_cases ha : key a = k
      · have hb : key b ≠ k := fun hb => hab (le_of_eq (ha.trans hb.symm))
        unfold keyed at ih ⊢
        rw [List.filter_cons_of_neg (by simpa using hb), ih, List.filter_cons_of_pos (by simpa using ha),
          List.filter_cons_of_pos (by simpa using ha), List.filter_cons_of_neg (by simpa using hb)]
      · unfold keyed at ih ⊢
        rw [List.filter_cons_of_neg (l := b :: l) (by simpa using ha), List.filter_cons, List.filter_cons, ih,
          List.filter_cons_of_neg (by simpa using ha)]

theorem keyed_sortedBy (k : κ) (l : List α) : keyed key k (sortedBy key l) = keyed key k l := by
  induction l with
  | nil => rfl
  | cons a l ih =>
    have h : keyed key k (sortedBy key (a :: l)) = keyed key k (a :: sortedBy key l) := keyed_orderedInsert key k a _
    unfold keyed at ih h ⊢
    rw [h, List.filter_cons, List.filter_cons, ih]

/-- A sorted list is known from its parts of one key. -/
theorem eq_of_keyed : ∀ {l l' : List α}, (l.Pairwise fun a b => key a ≤ key b) →
    (l'.Pairwise fun a b => key a ≤ key b) → (∀ k, keyed key k l = keyed key k l') → l = l'
  | [], [], _, _, _ => rfl
  | [], b :: l', _, _, h => by
    have hm : b ∈ keyed key (key b) [] := h (key b) ▸ (mem_keyed key).mpr ⟨List.mem_cons_self, rfl⟩
    cases hm
  | a :: l, [], _, _, h => by
    have hm : a ∈ keyed key (key a) [] := h (key a) ▸ (mem_keyed key).mpr ⟨List.mem_cons_self, rfl⟩
    cases hm
  | a :: l, b :: l', hs, hs', h => by
    have hab : key a ≤ key b := by
      have hm : b ∈ a :: l := ((mem_keyed key).mp (h (key b) ▸ (mem_keyed key).mpr ⟨List.mem_cons_self, rfl⟩)).1
      rcases List.mem_cons.mp hm with rfl | hm
      · exact le_refl _
      · exact List.rel_of_pairwise_cons hs hm
    have hba : key b ≤ key a := by
      have hm : a ∈ b :: l' := ((mem_keyed key).mp (h (key a) ▸ (mem_keyed key).mpr ⟨List.mem_cons_self, rfl⟩)).1
      rcases List.mem_cons.mp hm with rfl | hm
      · exact le_refl _
      · exact List.rel_of_pairwise_cons hs' hm
    have hk : key a = key b := le_antisymm hab hba
    have hhead := h (key a)
    unfold keyed at hhead
    rw [List.filter_cons_of_pos (by simp), List.filter_cons_of_pos (by simp [hk])] at hhead
    obtain ⟨rfl, -⟩ := List.cons.inj hhead
    refine congrArg (a :: ·) (eq_of_keyed hs.of_cons hs'.of_cons fun k => ?_)
    have hk := h k
    unfold keyed at hk ⊢
    by_cases ha : key a = k
    · rw [List.filter_cons_of_pos (by simpa using ha), List.filter_cons_of_pos (by simpa using ha)] at hk
      exact (List.cons.inj hk).2
    · rwa [List.filter_cons_of_neg (by simpa using ha), List.filter_cons_of_neg (by simpa using ha)] at hk

theorem sortedBy_eq_iff {l l' : List α} :
    sortedBy key l = sortedBy key l' ↔ ∀ k, keyed key k l = keyed key k l' := by
  constructor
  · intro h k
    rw [← keyed_sortedBy key k l, h, keyed_sortedBy]
  · intro h
    refine eq_of_keyed key (sortedBy_pairwise key l) (sortedBy_pairwise key l') fun k => ?_
    rw [keyed_sortedBy, keyed_sortedBy, h k]

theorem perm_of_sortedBy_eq {l l' : List α} (h : sortedBy key l = sortedBy key l') : l.Perm l' :=
  (sortedBy_perm key l).symm.trans (h ▸ sortedBy_perm key l')

/-- Without ties the order is forgotten altogether. -/
theorem sortedBy_eq_iff_perm {l l' : List α} (hk : ∀ a ∈ l, ∀ b ∈ l, key a = key b → a = b) :
    sortedBy key l = sortedBy key l' ↔ l.Perm l' := by
  refine ⟨perm_of_sortedBy_eq key, fun h => ?_⟩
  have hp : (sortedBy key l).Perm (sortedBy key l') :=
    (sortedBy_perm key l).trans (h.trans (sortedBy_perm key l').symm)
  refine hp.eq_of_pairwise (fun a b ha hb hab hba => ?_) (sortedBy_pairwise key l) (sortedBy_pairwise key l')
  have ha' : a ∈ l := (sortedBy_perm key l).subset ha
  have hb' : b ∈ l := h.symm.subset ((sortedBy_perm key l').subset hb)
  exact hk a ha' b hb' (le_antisymm hab hba)

end

/-! ## Lists up to order -/

section
variable {α β γ : Type}

/-- `l'` lists partners of the members of `l`, in any order. -/
def UpToOrder (R : α → β → Prop) (l : List α) (l' : List β) : Prop := ∃ m, l.Perm m ∧ List.Forall₂ R m l'

theorem forall₂_iff_map_eq {R : α → β → Prop} {f : α → γ} {g : β → γ} : ∀ {l : List α} {l' : List β},
    (∀ a ∈ l, ∀ b ∈ l', R a b ↔ f a = g b) → (List.Forall₂ R l l' ↔ l.map f = l'.map g)
  | [], [], _ => by simp
  | [], b :: l', _ => by simp
  | a :: l, [], _ => by simp
  | a :: l, b :: l', h => by
    have ih := forall₂_iff_map_eq fun a' ha' b' hb' => h a' (List.mem_cons_of_mem a ha') b' (List.mem_cons_of_mem b hb')
    rw [List.forall₂_cons, List.map_cons, List.map_cons, List.cons.injEq, ih,
      h a List.mem_cons_self b List.mem_cons_self]

theorem upToOrder_iff_perm {R : α → β → Prop} {f : α → γ} {g : β → γ} {l : List α} {l' : List β}
    (h : ∀ a ∈ l, ∀ b ∈ l', R a b ↔ f a = g b) : UpToOrder R l l' ↔ (l.map f).Perm (l'.map g) := by
  constructor
  · rintro ⟨m, hp, hf⟩
    have hm := (forall₂_iff_map_eq fun a ha b hb => h a (hp.symm.subset ha) b hb).mp hf
    exact hm ▸ hp.map f
  · intro hp
    have hf : List.Forall₂ (fun a c => f a = c) l (l.map f) :=
      (forall₂_iff_map_eq fun _ _ _ _ => Iff.rfl).mpr (List.map_id _).symm
    have hcomp : Relation.Comp (List.Forall₂ fun a c => f a = c) List.Perm l (l'.map g) := ⟨l.map f, hf, hp⟩
    rw [List.forall₂_comp_perm_eq_perm_comp_forall₂] at hcomp
    obtain ⟨m, hm, hf⟩ := hcomp
    have hmap : m.map f = (l'.map g).map id := (forall₂_iff_map_eq fun _ _ _ _ => Iff.rfl).mp hf
    rw [List.map_id] at hmap
    exact ⟨m, hm, (forall₂_iff_map_eq fun a ha b hb => h a (hm.symm.subset ha) b hb).mpr hmap⟩

theorem UpToOrder.imp {R T : α → β → Prop} {l : List α} {l' : List β} (h : UpToOrder R l l')
    (hRT : ∀ a b, R a b → T a b) : UpToOrder T l l' := by
  obtain ⟨m, hp, hf⟩ := h
  exact ⟨m, hp, hf.imp hRT⟩

theorem UpToOrder.partner {R : α → β → Prop} {l : List α} {l' : List β} (h : UpToOrder R l l') {b : β} (hb : b ∈ l') :
    ∃ a ∈ l, R a b := by
  obtain ⟨m, hp, hf⟩ := h
  obtain ⟨i, hi, rfl⟩ := List.getElem_of_mem hb
  have hi' : i < m.length := hf.length_eq ▸ hi
  exact ⟨m[i], hp.symm.subset (List.getElem_mem hi'), hf.get hi' hi⟩

theorem UpToOrder.flatMap_perm {R : α → β → Prop} {F : α → List γ} {G : β → List γ} {l : List α} {l' : List β}
    (h : UpToOrder R l l') (hFG : ∀ a b, R a b → (F a).Perm (G b)) : (l.flatMap F).Perm (l'.flatMap G) := by
  obtain ⟨m, hp, hf⟩ := h
  refine (hp.flatMap_right F).trans ?_
  clear hp
  induction hf with
  | nil => exact .refl _
  | cons hab _ ih =>
    rw [List.flatMap_cons, List.flatMap_cons]
    exact (hFG _ _ hab).append ih

theorem UpToOrder.map_perm {R : α → β → Prop} {f : α → γ} {g : β → γ} {l : List α} {l' : List β}
    (h : UpToOrder R l l') (hfg : ∀ a b, R a b → f a = g b) : (l.map f).Perm (l'.map g) :=
  (upToOrder_iff_perm fun _ _ _ _ => Iff.rfl).mp (h.imp hfg)

/-- Members with names of their own: a second property is one of the members of equal name. -/
theorem upToOrder_and {R T : α → β → Prop} (f : α → γ) (g : β → γ) {l : List α} {l' : List β}
    (hR : ∀ a b, R a b → f a = g b) (hn : (l.map f).Nodup) :
    UpToOrder (fun a b => R a b ∧ T a b) l l' ↔
      UpToOrder R l l' ∧ ∀ a ∈ l, ∀ b ∈ l', f a = g b → T a b := by
  constructor
  · intro h
    refine ⟨h.imp fun _ _ => And.left, fun a ha b hb hab => ?_⟩
    obtain ⟨a', ha', hr, ht⟩ := h.partner hb
    have heq : a' = a := List.inj_on_of_nodup_map hn ha' ha ((hR a' b hr).trans hab.symm)
    exact heq ▸ ht
  · rintro ⟨⟨m, hp, hf⟩, ht⟩
    refine ⟨m, hp, ?_⟩
    rw [List.forall₂_iff_zip] at hf ⊢
    refine ⟨hf.1, fun hm => ?_⟩
    have hr := hf.2 hm
    exact ⟨hr, ht _ (hp.symm.subset (List.of_mem_zip hm).1) _ (List.of_mem_zip hm).2 (hR _ _ hr)⟩

end

/-! ## What a sorted list shows -/

section
variable {α γ κ : Type} [LinearOrder κ] (key : α → κ) (f : α → γ)

theorem map_keyed (k : κ) (l : List α) :
    keyed Prod.fst k (l.map fun a => (key a, f a)) = (keyed key k l).map fun a => (key a, f a) := by
  unfold keyed
  rw [List.filter_map]
  rfl

theorem map_sortedBy (l : List α) :
    sortedBy Prod.fst (l.map fun a => (key a, f a)) = (sortedBy key l).map fun a => (key a, f a) := by
  unfold sortedBy
  rw [← List.map_insertionSort (fun a b => key a ≤ key b) (fun a b : κ × γ => a.1 ≤ b.1) _ _ fun _ _ _ _ => Iff.rfl]

variable {l l' : List α} (hkey : ∀ a ∈ l, ∀ b ∈ l', f a = f b → key a = key b)
include hkey

omit [LinearOrder κ] in
theorem map_eq_iff_map_pair_eq {m m' : List α} (hm : ∀ a ∈ m, a ∈ l) (hm' : ∀ a ∈ m', a ∈ l') :
    m.map f = m'.map f ↔ (m.map fun a => (key a, f a)) = m'.map fun a => (key a, f a) := by
  rw [← forall₂_iff_map_eq (R := fun a b => f a = f b) fun _ _ _ _ => Iff.rfl]
  refine forall₂_iff_map_eq fun a ha b hb => ?_
  rw [Prod.mk.injEq]
  exact ⟨fun h => ⟨hkey a (hm a ha) b (hm' b hb) h, h⟩, And.right⟩

/-- The sorted lists look alike exactly when their parts of one key do. -/
theorem map_sortedBy_eq_iff :
    (sortedBy key l).map f = (sortedBy key l').map f ↔ ∀ k, (keyed key k l).map f = (keyed key k l').map f := by
  rw [map_eq_iff_map_pair_eq key f hkey (fun a => (sortedBy_perm key l).mem_iff.mp)
    (fun a => (sortedBy_perm key l').mem_iff.mp), ← map_sortedBy, ← map_sortedBy, sortedBy_eq_iff]
  refine forall_congr' fun k => ?_
  rw [map_keyed, map_keyed, map_eq_iff_map_pair_eq key f hkey (fun a ha => ((mem_keyed key).mp ha).1)
    (fun a ha => ((mem_keyed key).mp ha).1)]

omit [LinearOrder κ] in
theorem map_perm_iff_map_pair_perm :
    (l.map f).Perm (l'.map f) ↔ (l.map fun a => (key a, f a)).Perm (l'.map fun a => (key a, f a)) := by
  rw [← upToOrder_iff_perm (R := fun a b => f a = f b) fun _ _ _ _ => Iff.rfl]
  refine upToOrder_iff_perm fun a ha b hb => ?_
  rw [Prod.mk.injEq]
  exact ⟨fun h => ⟨hkey a ha b hb h, h⟩, And.right⟩

theorem map_sortedBy_eq_iff_perm (hties : ∀ a ∈ l, ∀ b ∈ l, key a = key b → a = b) :
    (sortedBy key l).map f = (sortedBy key l').map f ↔ (l.map f).Perm (l'.map f) := by
  rw [map_eq_iff_map_pair_eq key f hkey (fun a => (sortedBy_perm key l).mem_iff.mp)
    (fun a => (sortedBy_perm key l').mem_iff.mp), ← map_sortedBy, ← map_sortedBy,
    map_perm_iff_map_pair_perm key f hkey]
  refine sortedBy_eq_iff_perm _ fun a ha b hb h => ?_
  obtain ⟨a', ha', rfl⟩ := List.mem_map.mp ha
  obtain ⟨b', hb', rfl⟩ := List.mem_map.mp hb
  rw [hties a' ha' b' hb' h]

end

end StableSort
