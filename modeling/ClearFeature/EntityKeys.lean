import ClearFeature.Lib.Separated
import ClearFeature.Models

/-!
# Entity keys and their texts

The separators are refused inside names and values, so the text of a key gives
its parts back. A key that is read from a mapping depends on the mapping alone,
not on the order of its entries.
-/

namespace ClearFeature

/-! ## Parts from a text -/

/-- Neither separator occurs. -/
def Plain (s : String) : Prop := '|' ∉ s.toList ∧ '=' ∉ s.toList

theorem checkReserved_ok {label token : String} {u : Unit} (h : checkReserved label token = .ok u) : Plain token := by
  unfold checkReserved hasChar at h
  dsimp only at h
  by_cases hb : token.toList.contains '|' = true
  · rw [if_pos hb] at h
    cases h
  · by_cases he : token.toList.contains '=' = true
    · rw [if_neg hb, if_pos he] at h
      cases h
    · exact ⟨by simpa using hb, by simpa using he⟩

theorem validatePart_ok {name value : String} {u : Unit} (h : validatePart name value = .ok u) :
    Plain name ∧ Plain value := by
  unfold validatePart at h
  split at h
  · cases h
  · split at h
    · cases h
    · obtain ⟨u, hn, hv⟩ := bind_eq_ok.mp h
      exact ⟨checkReserved_ok hn, checkReserved_ok hv⟩

theorem validateParts_eq_ok : ∀ {parts : List (String × String)} {u : Unit},
    validateParts parts = .ok u ↔ ∀ p ∈ parts, validatePart p.1 p.2 = .ok ()
  | [], u => by simp [validateParts]
  | (name, value) :: parts, u => by
    have ih : validateParts parts = .ok u ↔ ∀ p ∈ parts, validatePart p.1 p.2 = .ok () := validateParts_eq_ok
    simp only [validateParts, bind_eq_ok, ih, List.mem_cons, forall_eq_or_imp]
    exact ⟨fun ⟨_, h, hs⟩ => ⟨h, hs⟩, fun ⟨h, hs⟩ => ⟨(), h, hs⟩⟩

def partText (p : String × String) : List Char := (p.1 ++ "=" ++ p.2).toList

theorem partTexts_inj : ∀ {ps qs : List (String × String)}, (∀ p ∈ ps, Plain p.1 ∧ Plain p.2) →
    (∀ p ∈ qs, Plain p.1 ∧ Plain p.2) → ps.map partText = qs.map partText → ps = qs
  | [], [], _, _, _ => rfl
  | [], q :: qs, _, _, h => by cases h
  | p :: ps, [], _, _, h => by cases h
  | p :: ps, q :: qs, hp, hq, h => by
    simp only [List.map_cons, List.cons.injEq] at h
    obtain ⟨hpq, h⟩ := h
    obtain ⟨hp₁, hps⟩ := List.forall_mem_cons.mp hp
    obtain ⟨hq₁, hqs⟩ := List.forall_mem_cons.mp hq
    have hpart : p.1.toList ++ '=' :: p.2.toList = q.1.toList ++ '=' :: q.2.toList := by
      simpa [partText] using hpq
    obtain ⟨hname, hvalue⟩ := Separated.cut_inj hp₁.1.2 hq₁.1.2 hpart
    rw [partTexts_inj hps hqs h, Prod.ext (String.toList_injective hname) (String.toList_injective hvalue)]

theorem joinParts_toList (ps : List (String × String)) : (joinParts ps).toList = ['|'].intercalate (ps.map partText) := by
  unfold joinParts
  rw [String.toList_intercalate, List.map_map]
  rfl

theorem partText_plain {p : String × String} (hp : Plain p.1 ∧ Plain p.2) : '|' ∉ partText p := by
  obtain ⟨⟨hn, -⟩, hv, -⟩ := hp
  simp [partText, hn, hv]

theorem joinParts_splitOn {ps : List (String × String)} (hp : ∀ p ∈ ps, Plain p.1 ∧ Plain p.2) (hne : ps ≠ []) :
    (joinParts ps).toList.splitOn '|' = ps.map partText := by
  have hplain : ∀ l ∈ ps.map partText, '|' ∉ l := by
    intro l hl
    obtain ⟨p, hm, rfl⟩ := List.mem_map.mp hl
    exact partText_plain (hp p hm)
  rw [joinParts_toList]
  exact List.splitOn_intercalate '|' hplain (by simpa using hne)

theorem joinParts_inj {ps qs : List (String × String)} (hp : ∀ p ∈ ps, Plain p.1 ∧ Plain p.2)
    (hq : ∀ p ∈ qs, Plain p.1 ∧ Plain p.2) (hps : ps ≠ []) (hqs : qs ≠ []) (h : joinParts ps = joinParts qs) :
    ps = qs :=
  partTexts_inj hp hq (by rw [← joinParts_splitOn hp hps, ← joinParts_splitOn hq hqs, h])

/-! ## Parts as a mapping -/

theorem map_partOf {d : List (String × String)} (hn : (Dict.keys d).Nodup) :
    (Dict.keys d).map (fun n => (n, partOf d n)) = d := by
  unfold Dict.keys
  rw [List.map_map]
  refine (List.map_congr_left fun p hp => ?_).trans (List.map_id d)
  obtain ⟨n, v⟩ := p
  show (n, partOf d n) = (n, v)
  unfold partOf
  rw [Dict.get?_of_mem hn hp]
  rfl

theorem dictOf_of_nodup {parts : List (String × String)} (hn : (Dict.keys parts).Nodup) : dictOf parts = parts := by
  have hfold : ∀ (parts acc : List (String × String)), (Dict.keys (acc ++ parts)).Nodup →
      parts.foldl (fun d p => Dict.set d p.1 p.2) acc = acc ++ parts := by
    intro parts
    induction parts with
    | nil => exact fun acc _ => (List.append_nil acc).symm
    | cons p parts ih =>
      intro acc hn
      have happ : acc ++ p :: parts = (acc ++ [p]) ++ parts := by simp
      have hfresh : p.1 ∉ Dict.keys acc := by
        intro hm
        unfold Dict.keys at hn hm
        rw [List.map_append, List.map_cons] at hn
        exact (List.nodup_append.mp hn).2.2 _ hm _ List.mem_cons_self rfl
      rw [List.foldl_cons, Dict.set_of_notMem _ hfresh, happ]
      rw [happ] at hn
      exact ih _ hn
  exact hfold parts [] hn

theorem dictOf_nodup (parts : List (String × String)) : (Dict.keys (dictOf parts)).Nodup := by
  have hfold : ∀ (parts acc : List (String × String)), (Dict.keys acc).Nodup →
      (Dict.keys (parts.foldl (fun d p => Dict.set d p.1 p.2) acc)).Nodup := by
    intro parts
    induction parts with
    | nil => exact fun acc hn => hn
    | cons p parts ih => exact fun acc hn => ih _ (Dict.keys_set_nodup p.1 p.2 hn)
  exact hfold parts [] List.nodup_nil

theorem validateKeyOrder_eq_ok {d : List (String × String)} {order : List String} {u : Unit} :
    validateKeyOrder d order = .ok u ↔
      order.length = d.length ∧ (∀ n ∈ order, n ∈ Dict.keys d) ∧ ∀ n ∈ Dict.keys d, n ∈ order := by
  unfold validateKeyOrder
  split
  · rename_i h
    constructor
    · intro h'
      cases h'
    · rintro ⟨h₁, h₂, h₃⟩
      exact (h.elim (fun h => h h₁) fun h => h.elim (fun h => h h₂) fun h => h h₃).elim
  · rename_i h
    simp only [not_or, not_not] at h
    exact ⟨fun _ => h, fun _ => rfl⟩

theorem encodeEntityKey_order {d : List (String × String)} {order : List String} {s : String} :
    encodeEntityKey d (some order) = .ok s ↔ d ≠ [] ∧ (∀ p ∈ d, validatePart p.1 p.2 = .ok ()) ∧
      validateKeyOrder d order = .ok () ∧ s = joinParts (order.map fun n => (n, partOf d n)) := by
  unfold encodeEntityKey
  cases d with
  | nil => simp
  | cons p d =>
    rw [if_neg (by simp)]
    constructor
    · intro h
      obtain ⟨u, hv, h⟩ := bind_eq_ok.mp h
      obtain ⟨u', ho, h⟩ := bind_eq_ok.mp h
      cases h
      exact ⟨by simp, validateParts_eq_ok.mp hv, ho, rfl⟩
    · rintro ⟨-, hv, ho, rfl⟩
      rw [show validateParts (p :: d) = .ok () from validateParts_eq_ok.mpr hv, ok_bind]
      dsimp only
      rw [ho]
      rfl

theorem encodeEntityKey_sorted {d : List (String × String)} {s : String} (h : encodeEntityKey d none = .ok s) :
    d ≠ [] ∧ (∀ p ∈ d, validatePart p.1 p.2 = .ok ()) ∧
      s = joinParts ((sortNames (Dict.keys d)).map fun n => (n, partOf d n)) := by
  unfold encodeEntityKey at h
  cases d with
  | nil => cases h
  | cons p d =>
    rw [if_neg (by simp)] at h
    obtain ⟨u, hv, h⟩ := bind_eq_ok.mp h
    cases h
    exact ⟨by simp, validateParts_eq_ok.mp hv, rfl⟩

/-- The text in sorted order tells mappings apart. -/
theorem perm_of_encoded {d d' : List (String × String)} (hn : (Dict.keys d).Nodup) (hn' : (Dict.keys d').Nodup)
    {s : String} (h : encodeEntityKey d none = .ok s) (h' : encodeEntityKey d' none = .ok s) : d.Perm d' := by
  have hsorted : ∀ {d : List (String × String)}, (Dict.keys d).Nodup →
      ((sortNames (Dict.keys d)).map fun n => (n, partOf d n)).Perm d := by
    intro d hn
    have hp := (List.perm_insertionSort (· ≤ ·) (Dict.keys d)).map fun n => (n, partOf d n)
    rw [map_partOf hn] at hp
    exact hp
  obtain ⟨hne, hv, hs⟩ := encodeEntityKey_sorted h
  obtain ⟨hne', hv', hs'⟩ := encodeEntityKey_sorted h'
  have hparts := joinParts_inj (fun p hp => validatePart_ok (hv p ((hsorted hn).mem_iff.mp hp)))
    (fun p hp => validatePart_ok (hv' p ((hsorted hn').mem_iff.mp hp)))
    (fun e => hne ((hsorted hn).symm.trans (e ▸ .nil)).eq_nil)
    (fun e => hne' ((hsorted hn').symm.trans (e ▸ .nil)).eq_nil) (hs.symm.trans hs')
  have hperm := hsorted hn
  rw [hparts] at hperm
  exact hperm.symm.trans (hsorted hn')

namespace EntityKey

theorem ofParts_parts (k : EntityKey) : ofParts k.parts = .ok k := by
  unfold ofParts
  split
  · rename_i s h
    have hs := h.symm.trans k.valid
    cases hs
    rfl
  · rename_i e h
    have he := h.symm.trans k.valid
    cases he

theorem parts_nodup (k : EntityKey) : (Dict.keys k.parts).Nodup := by
  obtain ⟨-, -, ho, -⟩ := encodeEntityKey_order.mp k.valid
  obtain ⟨hlen, -, hsub⟩ := validateKeyOrder_eq_ok.mp ho
  have hsubperm := List.subperm_of_subset (dictOf_nodup k.parts) hsub
  have hle : (Dict.keys k.parts).length ≤ (Dict.keys (dictOf k.parts)).length := by
    rw [hlen]
    simp [Dict.keys]
  exact (hsubperm.perm_of_length_le hle).nodup_iff.mp (dictOf_nodup k.parts)

theorem dictOf_parts (k : EntityKey) : dictOf k.parts = k.parts := dictOf_of_nodup k.parts_nodup

theorem encoded_spec (k : EntityKey) : k.parts ≠ [] ∧ (∀ p ∈ k.parts, validatePart p.1 p.2 = .ok ()) ∧
    validateKeyOrder k.parts (Dict.keys k.parts) = .ok () ∧ k.encode = joinParts k.parts := by
  have h := k.valid
  unfold encodeParts at h
  rw [dictOf_parts, encodeEntityKey_order, map_partOf k.parts_nodup] at h
  exact h

theorem encode_inj {k k' : EntityKey} (h : k.encode = k'.encode) : k.parts = k'.parts := by
  obtain ⟨hne, hv, -, hs⟩ := k.encoded_spec
  obtain ⟨hne', hv', -, hs'⟩ := k'.encoded_spec
  exact joinParts_inj (fun p hp => validatePart_ok (hv p hp)) (fun p hp => validatePart_ok (hv' p hp)) hne hne'
    (hs.symm.trans (h.trans hs'))

theorem eq_of_encode {k k' : EntityKey} (h : k.encode = k'.encode) : k = k' := by
  have hparts := encode_inj h
  obtain ⟨parts, encoded, valid⟩ := k
  obtain ⟨parts', encoded', valid'⟩ := k'
  cases hparts
  cases h
  rfl

/-- A key is read back from its mapping, whatever the order of the entries, in the order of its own parts. -/
theorem fromMapping_perm {k : EntityKey} {d : List (String × String)} (h : k.parts.Perm d) :
    fromMapping d (some (Dict.keys k.parts)) = .ok k := by
  obtain ⟨hne, hv, ho, -⟩ := k.encoded_spec
  have hkeys : (Dict.keys k.parts).Perm (Dict.keys d) := h.map Prod.fst
  have hd : encodeEntityKey d (some (Dict.keys k.parts)) =
      .ok (joinParts ((Dict.keys k.parts).map fun n => (n, partOf d n))) := by
    refine encodeEntityKey_order.mpr ⟨fun e => hne ?_, fun p hp => hv p (h.mem_iff.mpr hp), ?_, rfl⟩
    · rw [e] at h
      exact h.eq_nil
    · refine validateKeyOrder_eq_ok.mpr ⟨by simpa [Dict.keys] using h.length_eq, fun n hn => hkeys.mem_iff.mp hn,
        fun n hn => hkeys.mem_iff.mpr hn⟩
  have hparts : (Dict.keys k.parts).map (fun n => (n, partOf d n)) = k.parts := by
    refine Eq.trans (List.map_congr_left fun n _ => ?_) (map_partOf k.parts_nodup)
    unfold partOf
    rw [Dict.get?_perm k.parts_nodup h]
  unfold fromMapping
  rw [hd, ok_bind]
  dsimp only [Option.getD_some]
  rw [hparts, ofParts_parts]

theorem encoded_of_perm {k : EntityKey} {d : List (String × String)} (h : k.parts.Perm d) :
    ∃ s, encodeEntityKey d none = .ok s := by
  obtain ⟨hne, hv, -, -⟩ := k.encoded_spec
  have hne' : d.isEmpty = false := by
    cases d with
    | nil => exact absurd h.eq_nil hne
    | cons p d => rfl
  unfold encodeEntityKey
  rw [hne', if_neg Bool.false_ne_true]
  rw [show validateParts d = .ok () from validateParts_eq_ok.mpr fun p hp => hv p (h.mem_iff.mpr hp)]
  exact ⟨_, rfl⟩

end EntityKey

end ClearFeature
