import ClearFeature.EntityKeys
import ClearFeature.EventsSurvive
import ClearFeature.Retries

/-!
# Copies of a retried event

A retry copy is the event written again. It is well formed as the event was, so
the next copy can be written and keyed too, and it reads back as the same event.
-/

namespace ClearFeature.Wire

open StableSort

/-! ## Entity keys that can be encoded -/

theorem wirePart_eq_ok {name value : Value} {part : String × String} (h : wirePart name value = .ok part) :
    name = .str part.1 ∧ value = .str part.2 ∧ validatePart part.1 part.2 = .ok () := by
  cases name with
  | str n =>
    cases value with
    | str v =>
      obtain ⟨u, hvalid, h⟩ := bind_eq_ok.mp h
      cases h
      exact ⟨rfl, rfl, hvalid⟩
    | _ =>
      -- any other value is refused, by one of three messages
      simp only [wirePart] at h
      split at h
      · cases h
      · split at h <;> cases h
  | _ =>
    simp only [wirePart] at h
    split at h <;> cases h

theorem wireParts_eq_ok : ∀ {m : Value.Mapping} {parts : List (String × String)}, wireParts m = .ok parts →
    m = wirePairs parts ∧ ∀ p ∈ parts, validatePart p.1 p.2 = .ok ()
  | [], _, h => by
    cases h
    exact ⟨rfl, fun _ h => (nomatch h)⟩
  | (name, value) :: m, _, h => by
    obtain ⟨part, hpart, h⟩ := bind_eq_ok.mp h
    obtain ⟨rest, hrest, h⟩ := bind_eq_ok.mp h
    cases h
    obtain ⟨rfl, rfl, hvalid⟩ := wirePart_eq_ok hpart
    obtain ⟨rfl, hvalids⟩ := wireParts_eq_ok hrest
    exact ⟨rfl, List.forall_mem_cons.mpr ⟨hvalid, hvalids⟩⟩

/-- What an entity key that can be encoded consists of. -/
theorem EntityRef.encodable_iff {e : EntityRef} : (∃ key, e.encoded = .ok key) ↔
    ∃ parts : List (String × String), parts ≠ [] ∧ (∀ p ∈ parts, validatePart p.1 p.2 = .ok ()) ∧
      e.entityKey = wirePairs parts := by
  constructor
  · rintro ⟨key, h⟩
    obtain ⟨parts, hparts, h⟩ := bind_eq_ok.mp h
    obtain ⟨hkey, hvalid⟩ := wireParts_eq_ok hparts
    exact ⟨parts, (encodeEntityKey_sorted h).1, hvalid, hkey⟩
  · rintro ⟨parts, hne, hvalid, hkey⟩
    have hencode : encodeEntityKey parts none =
        .ok (joinParts ((sortNames (Dict.keys parts)).map fun n => (n, partOf parts n))) := by
      have hvalids : validateParts parts = .ok () := validateParts_eq_ok.mpr hvalid
      rw [encodeEntityKey, if_neg (by simpa using hne), hvalids]
      rfl
    exact ⟨_, bind_eq_ok.mpr ⟨parts, hkey ▸ wireParts_wirePairs hvalid, hencode⟩⟩

theorem normalMapping_wirePairs (parts : List (String × String)) :
    normalMapping (wirePairs parts) = wirePairs (sortedBy Prod.fst parts) := by
  have hpairs : wirePairs parts = (parts.map fun p => (p.1, Value.str p.2)).map fun kv => (.str kv.1, kv.2) := by
    rw [List.map_map]
    rfl
  have hfields : Value.normalFields false (parts.map fun p => (p.1, Value.str p.2)) =
      parts.map fun p => (p.1, Value.str p.2) := by
    rw [Value.normalFields_eq_map, List.map_map]
    rfl
  rw [hpairs, normalMapping_map, hfields, map_sortedBy Prod.fst fun p : String × String => Value.str p.2, List.map_map]
  rfl

theorem EntityRef.encodable_normal {e : EntityRef} (h : ∃ key, e.encoded = .ok key) :
    ∃ key, e.normal.encoded = .ok key := by
  obtain ⟨parts, hne, hvalid, hkey⟩ := encodable_iff.mp h
  have hperm := sortedBy_perm Prod.fst parts
  refine encodable_iff.mpr ⟨sortedBy Prod.fst parts, ?_, fun p hp => hvalid p (hperm.mem_iff.mp hp), ?_⟩
  · intro hnil
    rw [hnil] at hperm
    exact hne hperm.symm.eq_nil
  · rw [normal, hkey, normalMapping_wirePairs]

/-! ## Events that are read back are as they were built -/

theorem TextKeyed.normal {m : Value.Mapping} (h : TextKeyed m) : TextKeyed (normalMapping m) := by
  obtain ⟨kvs, hkvs, hproper⟩ := h
  exact ⟨_, textKeys_normal hkvs, hproper.normal⟩

theorem proper_normal {vs : List Value} (h : ∀ v ∈ vs, v.Proper) : ∀ v ∈ vs.map (Value.normal false), v.Proper := by
  intro v hv
  obtain ⟨w, hw, rfl⟩ := List.mem_map.mp hv
  exact (h w hw).normal

theorem EntityRef.Built.normal {e : EntityRef} (h : e.Built) : e.normal.Built :=
  ⟨h.entityType.normal, h.entityKey.normal⟩

theorem ReportDescriptor.Built.normal {r : ReportDescriptor} (h : r.Built) : r.normal.Built := proper_normal h

theorem FeatureComputeRequested.Built.normal {e : FeatureComputeRequested} (h : e.Built) : e.normal.Built := by
  refine ⟨?_, h.entity.normal, fun r hr => ?_, h.deadline⟩
  · have hfields : e.normal.fields = e.fields.map (Value.normal false) := by
      simp only [fields, FeatureComputeRequested.normal, List.map_cons, List.map_nil, Value.normal,
        Value.normalList_eq_map]
    rw [hfields]
    exact proper_normal h.proper
  · obtain ⟨r', hr', rfl⟩ := List.mem_map.mp hr
    exact (h.reports r' hr').normal

theorem FeatureResult.Built.normal {r : FeatureResult} (h : r.Built) : r.normal.Built :=
  ⟨proper_normal h.proper, checkRef_normal h.ref⟩

theorem FeatureWriteSet.Built.normal {w : FeatureWriteSet} (h : w.Built) : w.normal.Built := by
  have hperm := sortedBy_perm Prod.fst w.results
  refine ⟨proper_normal h.proper, ?_, fun r hr => ?_, h.sourceRefs.normal⟩
  · have hkeys : Dict.keys w.normal.results = Dict.keys (sortedBy Prod.fst w.results) := by
      rw [FeatureWriteSet.normal, normalEntries, Dict.keys, List.map_map]
      rfl
    rw [hkeys]
    exact (hperm.map Prod.fst).nodup_iff.mpr h.names
  · obtain ⟨r', hr', rfl⟩ := List.mem_map.mp hr
    exact (h.results r' (hperm.mem_iff.mp hr')).normal

theorem FeatureOfflineWriteRequested.Built.normal {e : FeatureOfflineWriteRequested} (h : e.Built) :
    e.normal.Built :=
  ⟨proper_normal h.proper, h.writeSet.normal⟩

/-! ## Well-formed events -/

/-- The timestamps are aware and the entity key can be encoded. -/
structure FeatureComputeRequested.WellFormed (e : FeatureComputeRequested) : Prop where
  built : e.Built
  aware : ∀ t ∈ e.times, IsAware t
  encodable : ∃ key, e.entity.encoded = .ok key

/-- The timestamps are aware; the entity key of a write set can always be encoded. -/
structure FeatureOfflineWriteRequested.WellFormed (e : FeatureOfflineWriteRequested) : Prop where
  built : e.Built
  aware : ∀ t ∈ e.times, IsAware t

theorem FeatureComputeRequested.times_normal (e : FeatureComputeRequested) : e.normal.times = e.times := by
  simp only [times, normal, List.flatMap_map]
  rfl

theorem FeatureComputeRequested.WellFormed.normal {e : FeatureComputeRequested} (h : e.WellFormed) :
    e.normal.WellFormed :=
  ⟨h.built.normal, e.times_normal ▸ h.aware, EntityRef.encodable_normal h.encodable⟩

theorem FeatureOfflineWriteRequested.WellFormed.normal {e : FeatureOfflineWriteRequested} (h : e.WellFormed) :
    e.normal.WellFormed :=
  ⟨h.built.normal, h.aware⟩

/-- A copy is written, and reads back as the same event. -/
theorem FeatureComputeRequested.WellFormed.copy {text : WireText} {e : FeatureComputeRequested} (h : e.WellFormed) :
    ∃ raw, toJson text (toDict text) e = .ok raw ∧ fromJson text (fromDict text.toWireCodec) raw = .ok e.normal := by
  obtain ⟨d, hd⟩ := written h.built h.aware
  exact ⟨_, bind_eq_ok.mpr ⟨d, hd, rfl⟩, (reads h.built (encodes hd)).fromJson (text.printable d)⟩

theorem FeatureOfflineWriteRequested.WellFormed.copy {text : WireText} {e : FeatureOfflineWriteRequested}
    (h : e.WellFormed) :
    ∃ raw, toJson text (toDict text) e = .ok raw ∧ fromJson text (fromDict text.toWireCodec) raw = .ok e.normal := by
  obtain ⟨d, hd⟩ := written h.built h.aware
  exact ⟨_, bind_eq_ok.mpr ⟨d, hd, rfl⟩, (reads h.built (encodes hd)).fromJson (text.printable d)⟩

end ClearFeature.Wire
