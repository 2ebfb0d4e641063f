import ClearFeature.BundleIdentity
import ClearFeature.EntityKeys
import ClearFeature.WireEncode

/-!
# Events read back

What `to_dict` writes, `from_dict` reads: the fields come back one by one from
the dictionary with sorted keys, and writing them again changes nothing.
-/

namespace ClearFeature

open StableSort

/-! ## Sorted dictionaries -/

theorem sortedBy_of_pairwise {α κ : Type} [LinearOrder κ] {key : α → κ} {l : List α}
    (h : l.Pairwise fun a b => key a ≤ key b) : sortedBy key l = l :=
  h.insertionSort_eq

namespace Value

theorem properList_iff {xs : List Value} : ProperList xs ↔ ∀ x ∈ xs, x.Proper := by
  induction xs with
  | nil => simp [ProperList]
  | cons x xs ih => rw [ProperList, ih, List.forall_mem_cons]

theorem properFields_iff {kvs : List (String × Value)} : ProperFields kvs ↔ ∀ kv ∈ kvs, kv.2.Proper := by
  induction kvs with
  | nil => simp [ProperFields]
  | cons kv kvs ih =>
    obtain ⟨k, v⟩ := kv
    rw [ProperFields, ih, List.forall_mem_cons]

theorem keys_normalFields (kvs : List (String × Value)) : Dict.keys (normalFields false kvs) = Dict.keys kvs := by
  rw [normalFields_eq_map, Dict.keys, List.map_map]
  rfl

mutual
theorem Proper.normal : ∀ {v : Value}, v.Proper → (v.normal false).Proper
  | .null, _ => trivial
  | .bool _, _ => trivial
  | .int _, _ => trivial
  | .float _, _ => trivial
  | .str _, _ => trivial
  | .arr xs, h => ProperList.normal h
  | .obj kvs, h => by
    have hperm := sortedBy_perm Prod.fst (normalFields false kvs)
    refine ⟨?_, properFields_iff.mpr fun kv hkv => ?_⟩
    · have hkeys : (Dict.keys (normalFields false kvs)).Nodup := by
        rw [keys_normalFields]
        exact h.1
      exact (hperm.map Prod.fst).nodup_iff.mpr hkeys
    · exact properFields_iff.mp (ProperFields.normal h.2) kv (hperm.mem_iff.mp hkv)
theorem ProperList.normal : ∀ {xs : List Value}, ProperList xs → ProperList (normalList false xs)
  | [], _ => trivial
  | _ :: _, h => ⟨Proper.normal h.1, ProperList.normal h.2⟩
theorem ProperFields.normal : ∀ {kvs : List (String × Value)}, ProperFields kvs → ProperFields (normalFields false kvs)
  | [], _ => trivial
  | _ :: _, h => ⟨Proper.normal h.1, ProperFields.normal h.2⟩
end

theorem normalFields_sortedBy (kvs : List (String × Value)) :
    normalFields false (sortedBy Prod.fst kvs) = sortedBy Prod.fst (normalFields false kvs) := by
  rw [normalFields_eq_map, normalFields_eq_map]
  exact List.map_insertionSort (fun a b : String × Value => a.1 ≤ b.1) (fun a b : String × Value => a.1 ≤ b.1) _ _
    fun _ _ _ _ => Iff.rfl

mutual
/-- What is in key order stays as it is. -/
theorem normal_normal : ∀ v : Value, (v.normal false).normal false = v.normal false
  | .null => rfl
  | .bool _ => rfl
  | .int _ => rfl
  | .float _ => rfl
  | .str _ => rfl
  | .arr xs => by rw [normal, normal, normalList_normalList xs]
  | .obj kvs => by
    rw [normal, normal, normalFields_sortedBy, normalFields_normalFields kvs,
      sortedBy_of_pairwise (sortedBy_pairwise Prod.fst _)]
theorem normalList_normalList : ∀ xs : List Value, normalList false (normalList false xs) = normalList false xs
  | [] => rfl
  | x :: xs => by rw [normalList, normalList, normal_normal x, normalList_normalList xs]
theorem normalFields_normalFields : ∀ kvs : List (String × Value),
    normalFields false (normalFields false kvs) = normalFields false kvs
  | [] => rfl
  | (k, v) :: kvs => by rw [normalFields, normalFields, normal_normal v, normalFields_normalFields kvs]
end

theorem get?_normal {kvs : List (String × Value)} (hn : (Dict.keys kvs).Nodup) (name : String) :
    Dict.get? (sortedBy Prod.fst (normalFields false kvs)) name = (Dict.get? kvs name).map (Value.normal false) := by
  rw [← Dict.get?_perm ((keys_normalFields kvs).symm ▸ hn) (sortedBy_perm Prod.fst _).symm, normalFields_eq_map,
    Dict.get?_map]

end Value

namespace Wire

/-! ## Mappings -/

theorem textKeys_map : ∀ kvs : List (String × Value), textKeys (kvs.map fun kv => (.str kv.1, kv.2)) = .ok kvs
  | [] => rfl
  | (k, v) :: kvs => by
    rw [List.map_cons, textKeys, textKeys_map kvs]
    rfl

theorem eq_of_textKeys : ∀ {m : Value.Mapping} {kvs : List (String × Value)}, textKeys m = .ok kvs →
    m = kvs.map fun kv => (.str kv.1, kv.2)
  | [], kvs, h => by
    cases h
    rfl
  | (.str k, v) :: m, kvs, h => by
    obtain ⟨kvs', hm, h⟩ := bind_eq_ok.mp h
    cases h
    rw [List.map_cons, ← eq_of_textKeys hm]
  | (.null, _) :: _, _, h => by cases h
  | (.bool _, _) :: _, _, h => by cases h
  | (.int _, _) :: _, _, h => by cases h
  | (.float _, _) :: _, _, h => by cases h
  | (.arr _, _) :: _, _, h => by cases h
  | (.obj _, _) :: _, _, h => by cases h

theorem normalMapping_map (kvs : List (String × Value)) : normalMapping (kvs.map fun kv => (.str kv.1, kv.2)) =
    (sortedBy Prod.fst (Value.normalFields false kvs)).map fun kv => (.str kv.1, kv.2) := by
  rw [normalMapping, textKeys_map, Value.normalFields_eq_map]

/-- A dictionary with text keys is read back in key order. -/
theorem toMapping_normal {m : Value.Mapping} {kvs : List (String × Value)} (h : textKeys m = .ok kvs) :
    ((Value.obj kvs).normal false).toMapping = .ok (normalMapping m) := by
  rw [eq_of_textKeys h, normalMapping_map]
  rfl

theorem textKeys_normal {m : Value.Mapping} {kvs : List (String × Value)} (h : textKeys m = .ok kvs) :
    textKeys (normalMapping m) = .ok (sortedBy Prod.fst (Value.normalFields false kvs)) := by
  rw [eq_of_textKeys h, normalMapping_map, textKeys_map]

theorem normalMapping_normal {m : Value.Mapping} {kvs : List (String × Value)} (h : textKeys m = .ok kvs) :
    normalMapping (normalMapping m) = normalMapping m := by
  rw [eq_of_textKeys h, normalMapping_map, normalMapping_map, Value.normalFields_sortedBy,
    Value.normalFields_normalFields, sortedBy_of_pairwise (sortedBy_pairwise Prod.fst _)]

/-- A dictionary with text keys, none of them twice. -/
def TextKeyed (m : Value.Mapping) : Prop := ∃ kvs, textKeys m = .ok kvs ∧ (Value.obj kvs).Proper

theorem TextKeyed.proper {m : Value.Mapping} (h : TextKeyed m) {kvs : List (String × Value)} (hkvs : textKeys m = .ok kvs) :
    (Value.obj kvs).Proper := by
  obtain ⟨kvs', h, hproper⟩ := h
  rw [hkvs] at h
  cases h
  exact hproper

/-! ## Entries that may be missing -/

/-- The entries of an encoding, some of them left out that are at the default `optional` gives them. -/
structure LeftOut (optional full kvs : List (String × Value)) : Prop where
  sublist : kvs.Sublist full
  default : ∀ kv ∈ full, kv ∉ kvs → Dict.get? optional kv.1 = some kv.2

theorem LeftOut.refl (optional full : List (String × Value)) : LeftOut optional full full :=
  ⟨.refl full, fun _ h hn => absurd h hn⟩

section
variable {optional full kvs : List (String × Value)} (h : LeftOut optional full kvs) (hn : (Dict.keys full).Nodup)
include h hn

theorem LeftOut.distinct : (Dict.keys kvs).Nodup := (h.sublist.map Prod.fst).nodup hn

theorem LeftOut.proper (hp : Value.ProperFields full) : (Value.obj kvs).Proper :=
  ⟨h.distinct hn, Value.properFields_iff.mpr fun kv hkv => Value.properFields_iff.mp hp kv (h.sublist.subset hkv)⟩

theorem LeftOut.get? {name : String} {v : Value} (hv : Dict.get? full name = some v) :
    Dict.get? kvs name = some v ∨ Dict.get? kvs name = none ∧ Dict.get? optional name = some v := by
  have hfull := Dict.mem_of_get? hv
  by_cases hmem : (name, v) ∈ kvs
  · exact .inl (Dict.get?_of_mem (h.distinct hn) hmem)
  · refine .inr ⟨?_, h.default _ hfull hmem⟩
    rcases Option.eq_none_or_eq_some (Dict.get? kvs name) with hnone | ⟨v', hv'⟩
    · exact hnone
    · -- an entry under the same name would be the same entry
      have hfull' := Dict.get?_of_mem hn (h.sublist.subset (Dict.mem_of_get? hv'))
      rw [hv] at hfull'
      cases hfull'
      exact absurd (Dict.mem_of_get? hv') hmem

/-- A field that is always written is read back. -/
theorem LeftOut.item (name : String) {v : Value} (hv : Dict.get? full name = some v)
    (hrequired : Dict.get? optional name = none) : ((Value.obj kvs).normal false).item name = .ok (v.normal false) := by
  have hget : Dict.get? kvs name = some v := by
    rcases h.get? hn hv with hget | ⟨-, hoptional⟩
    · exact hget
    · rw [hrequired] at hoptional
      cases hoptional
  rw [Value.normal, Value.item, Value.get?_normal (h.distinct hn), hget]
  rfl

/-- A field that may be missing is read back, or its default is. -/
theorem LeftOut.getOr (name : String) {v default : Value} (hv : Dict.get? full name = some v)
    (hoptional : Dict.get? optional name = some default) (hdefault : default.normal false = default) :
    ((Value.obj kvs).normal false).getOr name default = .ok (v.normal false) := by
  rw [Value.normal, Value.getOr, Value.get?_normal (h.distinct hn)]
  rcases h.get? hn hv with hget | ⟨hget, hv'⟩
  · rw [hget]
    rfl
  · rw [hoptional] at hv'
    cases hv'
    rw [hget, hdefault]
    rfl

theorem LeftOut.listOr (name : String) {xs : List Value} (hv : Dict.get? full name = some (.arr xs))
    (hoptional : Dict.get? optional name = some (.arr [])) :
    listOr ((Value.obj kvs).normal false) name = .ok (xs.map (Value.normal false)) := by
  rw [Wire.listOr, h.getOr hn name hv hoptional rfl, ok_bind, Value.normal, Value.normalList_eq_map]
  rfl

end

/-! ## Times -/

def IsAware : WireTime → Prop
  | .aware _ => True
  | .naive _ => False

section
variable {text : JsonText}

theorem iso_written {time : WireTime} (h : IsAware time) : ∃ v, iso text time = .ok v := by
  cases time with
  | aware t => exact ⟨_, rfl⟩
  | naive t => cases h

theorem iso?_written {time : Option WireTime} (h : ∀ t ∈ time.toList, IsAware t) : ∃ v, iso? text time = .ok v := by
  cases time with
  | none => exact ⟨_, rfl⟩
  | some t => exact iso_written (h t (List.mem_singleton.mpr rfl))

theorem iso_eq_ok {time : WireTime} {v : Value} (h : iso text time = .ok v) :
    ∃ s, v = .str s ∧ text.fromisoformat s = some time := by
  cases time with
  | aware t =>
    cases h
    exact ⟨_, rfl, text.fromisoformat_isoformat t⟩
  | naive t => cases h

theorem iso_proper {time : WireTime} {v : Value} (h : iso text time = .ok v) : v.Proper := by
  obtain ⟨s, rfl, -⟩ := iso_eq_ok h
  trivial

theorem iso?_proper : ∀ {time : Option WireTime} {v : Value}, iso? text time = .ok v → v.Proper
  | none, _, h => by
    cases h
    trivial
  | some _, _, h => iso_proper h

theorem iso?_eq_ok {time : Option WireTime} {v : Value} (h : iso? text time = .ok v) :
    (v.normal false).toTime? text.toWireCodec = .ok time := by
  cases time with
  | none =>
    cases h
    rfl
  | some t =>
    obtain ⟨s, rfl, hread⟩ := iso_eq_ok h
    rw [Value.normal_str, Value.toTime?, if_neg (by simp [Value.isNone]), Value.toTime, hread]
    rfl

variable (text) in
/-- `isoformat` on what is known to be aware. -/
theorem isoformat?_eq (time : Option Int) : iso? text (time.map .aware) = .ok (isoformat? text time) := by
  cases time with
  | none => rfl
  | some t => rfl

variable {optional full kvs : List (String × Value)}

theorem LeftOut.timeAt (h : LeftOut optional full kvs) (hn : (Dict.keys full).Nodup) (name : String) {v : Value}
    {time : WireTime} (hv : Dict.get? full name = some v) (hrequired : Dict.get? optional name = none)
    (htime : iso text time = .ok v) : timeAt text.toWireCodec ((Value.obj kvs).normal false) name = .ok time := by
  obtain ⟨s, rfl, hread⟩ := iso_eq_ok htime
  rw [Wire.timeAt, h.item hn name hv hrequired, ok_bind, Value.normal_str, Value.toTime, hread]

theorem LeftOut.timeAt? (h : LeftOut optional full kvs) (hn : (Dict.keys full).Nodup) (name : String) {v : Value}
    {time : Option WireTime} (hv : Dict.get? full name = some v) (hoptional : Dict.get? optional name = some .null)
    (htime : iso? text time = .ok v) : timeAt? text.toWireCodec ((Value.obj kvs).normal false) name = .ok time := by
  rw [Wire.timeAt?, h.getOr hn name hv hoptional rfl, ok_bind, iso?_eq_ok htime]

end

/-! ## Lists and dictionaries of parts -/

theorem forall₂_of_mapM {ε α β : Type} {f : α → Except ε β} : ∀ {l : List α} {l' : List β}, l.mapM f = .ok l' →
    List.Forall₂ (fun a b => f a = .ok b) l l'
  | [], l', h => by
    cases h
    exact .nil
  | a :: l, l', h => by
    rw [List.mapM_cons] at h
    obtain ⟨b, hb, h⟩ := bind_eq_ok.mp h
    obtain ⟨bs, hbs, h⟩ := bind_eq_ok.mp h
    cases h
    exact .cons hb (forall₂_of_mapM hbs)

theorem mapM_written {ε α β : Type} {f : α → Except ε β} : ∀ {l : List α}, (∀ a ∈ l, ∃ b, f a = .ok b) →
    ∃ l', l.mapM f = .ok l'
  | [], _ => ⟨[], rfl⟩
  | a :: l, h => by
    obtain ⟨⟨b, hb⟩, hl⟩ := List.forall_mem_cons.mp h
    obtain ⟨bs, hbs⟩ := mapM_written hl
    exact ⟨b :: bs, by rw [List.mapM_cons, hb, ok_bind, hbs]; rfl⟩

section
variable {T : Type} {read : Value → Except PyErr T} {normal : T → T}

/-- `d` is read back as `a`. -/
def ReadsAs (read : Value → Except PyErr T) (normal : T → T) (a : T) (d : Value) : Prop :=
  d.Proper ∧ read (d.normal false) = .ok (normal a)

/-- Parts that are read back one by one. -/
theorem forall₂_reads {R : T → Value → Prop} {l : List T} {ds : List Value} (h : List.Forall₂ R l ds)
    (hreads : ∀ a ∈ l, ∀ d, R a d → ReadsAs read normal a d) : List.Forall₂ (ReadsAs read normal) l ds := by
  induction h with
  | nil => exact .nil
  | cons hd _ ih =>
    obtain ⟨ha, hl⟩ := List.forall_mem_cons.mp hreads
    exact .cons (ha _ hd) (ih hl)

theorem list_roundTrip : ∀ {l : List T} {ds : List Value}, List.Forall₂ (ReadsAs read normal) l ds →
    (Value.arr ds).Proper ∧ (Value.normalList false ds).mapM read = .ok (l.map normal)
  | _, _, .nil => ⟨trivial, rfl⟩
  | _, _, .cons hd hds => by
    obtain ⟨hproper, hread⟩ := list_roundTrip hds
    refine ⟨⟨hd.1, hproper⟩, ?_⟩
    rw [Value.normalList, List.mapM_cons, hd.2, ok_bind, hread]
    rfl

/-- Named parts: each name with its part. -/
def Named (R : T → Value → Prop) (entry : String × T) (kv : String × Value) : Prop := entry.1 = kv.1 ∧ R entry.2 kv.2

theorem mapM_map_eq_ok {ε α β γ : Type} {f : β → Except ε γ} {g : α → β} {k : α → γ} {l : List α}
    (h : ∀ a ∈ l, f (g a) = .ok (k a)) : (l.map g).mapM f = .ok (l.map k) := by
  rw [List.mapM_map]
  exact mapM_eq_ok h

theorem named_eq_map {R : T → Value → Prop} {entries : List (String × T)} {kvs : List (String × Value)}
    (h : List.Forall₂ (Named R) entries kvs) : ∃ parts : List (String × T × Value),
      entries = parts.map (fun p => (p.1, p.2.1)) ∧ kvs = parts.map (fun p => (p.1, p.2.2)) ∧
        ∀ p ∈ parts, R p.2.1 p.2.2 := by
  induction h with
  | nil => exact ⟨[], rfl, rfl, fun _ h => (nomatch h)⟩
  | @cons entry kv entries kvs hd _ ih =>
    obtain ⟨parts, rfl, rfl, hparts⟩ := ih
    obtain ⟨name, a⟩ := entry
    obtain ⟨name', d⟩ := kv
    obtain ⟨hname, hd⟩ := hd
    cases hname
    exact ⟨(name, a, d) :: parts, rfl, rfl, List.forall_mem_cons.mpr ⟨hd, hparts⟩⟩

theorem forall₂_named {R : T → Value → Prop} {entries : List (String × T)} {kvs : List (String × Value)}
    (h : List.Forall₂ (Named R) entries kvs) (hreads : ∀ e ∈ entries, ∀ d, R e.2 d → ReadsAs read normal e.2 d) :
    List.Forall₂ (Named (ReadsAs read normal)) entries kvs := by
  induction h with
  | nil => exact .nil
  | cons hd _ ih =>
    obtain ⟨ha, hl⟩ := List.forall_mem_cons.mp hreads
    exact .cons ⟨hd.1, ha _ hd.2⟩ (ih hl)

/-- The parts are read in the order of their names. -/
theorem entries_roundTrip {entries : List (String × T)} {kvs : List (String × Value)}
    (h : List.Forall₂ (Named (ReadsAs read normal)) entries kvs) (hn : (Dict.keys entries).Nodup) :
    (Value.obj kvs).Proper ∧ ∃ sorted, (Value.obj kvs).normal false = .obj sorted ∧
      (sorted.mapM fun kv => do return (kv.1, ← read kv.2)) = .ok (normalEntries normal entries) := by
  obtain ⟨parts, rfl, rfl, hparts⟩ := named_eq_map h
  refine ⟨⟨?_, Value.properFields_iff.mpr fun kv hkv => ?_⟩, _, rfl, ?_⟩
  · rw [Dict.keys, List.map_map] at hn ⊢
    exact hn
  · obtain ⟨p, hp, rfl⟩ := List.mem_map.mp hkv
    exact (hparts p hp).1
  · rw [Value.normalFields_eq_map, List.map_map, normalEntries]
    have hsort := map_sortedBy (fun p : String × T × Value => p.1) (fun p => p.2.2.normal false) parts
    have hsort' := map_sortedBy (fun p : String × T × Value => p.1) (fun p => p.2.1) parts
    rw [hsort', List.map_map]
    refine Eq.trans (congrArg _ hsort) (mapM_map_eq_ok fun p hp => ?_)
    rw [(hparts p ((sortedBy_perm _ parts).mem_iff.mp hp)).2, ok_bind]
    rfl

end

end Wire

end ClearFeature
