/-!
# Insertion-ordered dictionaries

A dictionary is the list of its entries. Setting a key that is present keeps
its place; setting a new key appends it.
-/

namespace Dict

section
variable {K V W : Type} [DecidableEq K]

def get? : List (K × V) → K → Option V
  | [], _ => none
  | (k', v) :: d, k => if k' = k then some v else get? d k

def set : List (K × V) → K → V → List (K × V)
  | [], k, v => [(k, v)]
  | (k', v') :: d, k, v => if k' = k then (k, v) :: d else (k', v') :: set d k v

def keys (d : List (K × V)) : List K := d.map Prod.fst

def values (d : List (K × V)) : List V := d.map Prod.snd

@[simp] theorem get?_nil (k : K) : get? ([] : List (K × V)) k = none := rfl

theorem get?_cons (k' : K) (v : V) (d : List (K × V)) (k : K) :
    get? ((k', v) :: d) k = if k' = k then some v else get? d k := rfl

@[simp] theorem get?_set_self : ∀ (d : List (K × V)) (k : K) (v : V), get? (set d k v) k = some v
  | [], k, v => by simp [set, get?]
  | (k', v') :: d, k, v => by
    by_cases h : k' = k
    · simp [set, get?, h]
    · simp [set, get?, h, get?_set_self d k v]

theorem get?_set_ne : ∀ (d : List (K × V)) {k k₂ : K} (v : V), k ≠ k₂ → get? (set d k v) k₂ = get? d k₂
  | [], k, k₂, v, h => by simp [set, get?, h]
  | (k', v') :: d, k, k₂, v, h => by
    by_cases hk : k' = k
    · subst hk; simp [set, get?, h]
    · by_cases hk₂ : k' = k₂
      · subst hk₂; simp [set, get?, hk]
      · simp [set, get?, hk, hk₂, get?_set_ne d v h]

theorem get?_set (d : List (K × V)) (k k₂ : K) (v : V) :
    get? (set d k v) k₂ = if k = k₂ then some v else get? d k₂ := by
  by_cases h : k = k₂
  · subst h; simp
  · rw [get?_set_ne d v h, if_neg h]

theorem mem_of_get? : ∀ {d : List (K × V)} {k : K} {v : V}, get? d k = some v → (k, v) ∈ d
  | [], _, _, h => by simp at h
  | (k', v') :: d, k, v, h => by
    rw [get?_cons] at h
    by_cases hk : k' = k
    · subst hk; simp only [if_true, Option.some.injEq] at h; subst h; simp
    · rw [if_neg hk] at h; exact List.mem_cons_of_mem _ (mem_of_get? h)

theorem get?_eq_none_iff : ∀ {d : List (K × V)} {k : K}, get? d k = none ↔ k ∉ keys d
  | [], k => by simp [keys]
  | (k', v') :: d, k => by
    have ih := get?_eq_none_iff (d := d) (k := k)
    rw [get?_cons]
    by_cases hk : k' = k
    · subst hk; simp [keys]
    · simp only [keys, List.map_cons, List.mem_cons, not_or] at ih ⊢
      rw [if_neg hk, ih]
      exact ⟨fun h => ⟨fun e => hk e.symm, h⟩, fun h => h.2⟩

theorem get?_of_mem : ∀ {d : List (K × V)} {k : K} {v : V}, (keys d).Nodup → (k, v) ∈ d → get? d k = some v
  | [], _, _, _, h => by cases h
  | (k', v') :: d, k, v, hn, h => by
    simp only [keys, List.map_cons, List.nodup_cons] at hn
    rcases List.mem_cons.mp h with h | h
    · cases h; simp [get?]
    · have hne : k' ≠ k := fun e => hn.1 (e ▸ List.mem_map_of_mem (f := Prod.fst) h)
      rw [get?_cons, if_neg hne]; exact get?_of_mem hn.2 h

theorem mem_keys_set : ∀ {d : List (K × V)} {k : K} {v : V} {k₂ : K},
    k₂ ∈ keys (set d k v) ↔ k₂ = k ∨ k₂ ∈ keys d
  | [], k, v, k₂ => by simp [set, keys]
  | (k', v') :: d, k, v, k₂ => by
    have ih : k₂ ∈ keys (set d k v) ↔ k₂ = k ∨ k₂ ∈ keys d := mem_keys_set
    by_cases hk : k' = k
    · subst hk; simp [set, keys]
    · simp only [set, if_neg hk, keys, List.map_cons, List.mem_cons] at ih ⊢
      rw [ih]
      exact ⟨fun h => by rcases h with h | h | h <;> simp [h], fun h => by rcases h with h | h | h <;> simp [h]⟩

theorem keys_set_nodup : ∀ {d : List (K × V)} (k : K) (v : V), (keys d).Nodup → (keys (set d k v)).Nodup
  | [], k, v, _ => by simp [set, keys]
  | (k', v') :: d, k, v, h => by
    by_cases hk : k' = k
    · subst hk; simpa [set, keys] using h
    · have h' : k' ∉ keys d ∧ (keys d).Nodup := by simpa [keys] using h
      have hn : k' ∉ keys (set d k v) := by
        intro hm
        rcases mem_keys_set.mp hm with e | e
        · exact hk e
        · exact h'.1 e
      simp only [set, if_neg hk]
      exact List.nodup_cons.mpr ⟨hn, keys_set_nodup k v h'.2⟩

theorem mem_set_cases : ∀ {d : List (K × V)} {k : K} {v : V} {e : K × V},
    e ∈ set d k v → e = (k, v) ∨ e ∈ d
  | [], _, _, _, h => by simpa [set] using h
  | (k', v') :: d, k, v, e, h => by
    by_cases hk : k' = k
    · simp only [set, if_pos hk, List.mem_cons] at h ⊢
      rcases h with h | h
      · exact .inl h
      · exact .inr (.inr h)
    · simp only [set, if_neg hk, List.mem_cons] at h ⊢
      rcases h with h | h
      · exact .inr (.inl h)
      · rcases mem_set_cases h with h | h
        · exact .inl h
        · exact .inr (.inr h)

theorem set_of_notMem : ∀ {d : List (K × V)} {k : K} (v : V), k ∉ keys d → set d k v = d ++ [(k, v)]
  | [], _, _, _ => rfl
  | (k', v') :: d, k, v, h => by
    simp only [keys, List.map_cons, List.mem_cons, not_or] at h
    rw [set, if_neg fun e => h.1 e.symm, set_of_notMem v h.2]
    rfl

/-- Setting a key that is there keeps the keys in their places. -/
theorem keys_set_of_mem : ∀ {d : List (K × V)} {k : K} (v : V), k ∈ keys d → keys (set d k v) = keys d
  | [], _, _, h => by simp [keys] at h
  | (k', v') :: d, k, v, h => by
    by_cases hk : k' = k
    · subst hk
      simp [set, keys]
    · have hm : k ∈ keys d := by
        simp only [keys, List.map_cons, List.mem_cons] at h
        exact h.resolve_left fun e => hk e.symm
      have ih := keys_set_of_mem v hm
      simp only [keys] at ih
      simp only [set, if_neg hk, keys, List.map_cons, ih]

theorem set_comm : ∀ {d : List (K × V)} {k k₂ : K} (v v₂ : V), k ≠ k₂ → k ∈ keys d → k₂ ∈ keys d →
    set (set d k v) k₂ v₂ = set (set d k₂ v₂) k v
  | [], _, _, _, _, _, h, _ => by simp [keys] at h
  | (k', v') :: d, k, k₂, v, v₂, hne, h, h₂ => by
    simp only [keys, List.map_cons, List.mem_cons] at h h₂
    by_cases hk : k' = k
    · have hk₂ : k ≠ k₂ := hne
      subst hk
      simp [set, hk₂]
    · by_cases hk₂ : k' = k₂
      · subst hk₂
        simp [set, hk]
      · have ih := set_comm v v₂ hne (h.resolve_left fun e => hk e.symm) (h₂.resolve_left fun e => hk₂ e.symm)
        simp [set, hk, hk₂, ih]

theorem get?_map (f : V → W) : ∀ (d : List (K × V)) (k : K),
    get? (d.map fun e => (e.1, f e.2)) k = (get? d k).map f
  | [], k => rfl
  | (k', v) :: d, k => by
    have ih := get?_map f d k
    rw [List.map_cons, get?_cons, get?_cons, ih]
    by_cases h : k' = k
    · rw [if_pos h, if_pos h]
      rfl
    · rw [if_neg h, if_neg h]

theorem set_map (f : V → W) : ∀ (d : List (K × V)) (k : K) (v : V),
    set (d.map fun p => (p.1, f p.2)) k (f v) = (set d k v).map fun p => (p.1, f p.2)
  | [], k, v => rfl
  | (k', v') :: d, k, v => by
    by_cases h : k' = k
    · simp [set, h]
    · simp [set, h, set_map f d k v]

/-- What is found does not depend on the order of the entries. -/
theorem get?_perm {d d' : List (K × V)} (hn : (keys d).Nodup) (h : d.Perm d') (k : K) : get? d k = get? d' k := by
  have hn' : (keys d').Nodup := (h.map Prod.fst).nodup_iff.mp hn
  refine Option.ext fun v => ?_
  constructor
  · intro hg
    exact get?_of_mem hn' (h.mem_iff.mp (mem_of_get? hg))
  · intro hg
    exact get?_of_mem hn (h.mem_iff.mpr (mem_of_get? hg))

theorem mem_iff_get? {d : List (K × V)} (hn : (keys d).Nodup) {e : K × V} : e ∈ d ↔ get? d e.1 = some e.2 :=
  ⟨fun he => get?_of_mem hn he, fun hg => mem_of_get? hg⟩

theorem set_perm {d d' : List (K × V)} (hn : (keys d).Nodup) (h : d.Perm d') (k : K) (v : V) :
    (set d k v).Perm (set d' k v) := by
  have hn' : (keys d').Nodup := (h.map Prod.fst).nodup_iff.mp hn
  have hset : (keys (set d k v)).Nodup := keys_set_nodup k v hn
  have hset' : (keys (set d' k v)).Nodup := keys_set_nodup k v hn'
  have hof : ∀ l : List (K × V), (keys l).Nodup → l.Nodup := by
    intro l hl
    exact List.Pairwise.of_map Prod.fst (fun _ _ hne he => hne (congrArg Prod.fst he)) hl
  refine (List.perm_ext_iff_of_nodup (hof _ hset) (hof _ hset')).mpr ?_
  intro e
  rw [mem_iff_get? hset, mem_iff_get? hset', get?_set, get?_set, get?_perm hn h]

end

end Dict
