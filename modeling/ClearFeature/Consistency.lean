import ClearFeature.FeatureStore
import ClearFeature.Validator

/-!
# Online against offline (`fs_core/consistency.py`)

The check compares the online value with the offline row of greatest event time,
the last appended on ties. The online value is the one the write guard kept.
-/

namespace ClearFeature

inductive ConsistencyStatus where
  | ok
  | missingOnline
  | missingOffline
  | missingBoth
  | staleOnline
  | onlineNewerThanOffline
  | valueMismatch
  deriving DecidableEq, Repr

structure FeatureConsistencyItem where
  featureName : String
  status : ConsistencyStatus
  offlineValue : Value
  onlineValue : Value
  offlineDataTs : Option Int
  onlineDataTs : Option Int
  offlineFeatureVersion : Option Int
  onlineFeatureVersion : Option Int

structure FeatureConsistencyReport where
  consistent : Bool
  items : List (String × FeatureConsistencyItem)

def latestOffline (recs : List OfflineFeatureRecord) : Option OfflineFeatureRecord :=
  LastMax.lastMax (fun rec => rec.result.dataTs) recs

def classifyStatus (offline : Option OfflineFeatureRecord) (online : Option FeatureResult) : ConsistencyStatus :=
  match offline, online with
  | none, none => .missingBoth
  | some _, none => .missingOnline
  | none, some _ => .missingOffline
  | some rec, some r =>
    if r.dataTs < rec.result.dataTs then .staleOnline
    else if r.dataTs > rec.result.dataTs then .onlineNewerThanOffline
    else if rec.result.value.pyEq r.value = false then .valueMismatch
    else .ok

def classify (name : String) (offline : Option OfflineFeatureRecord) (online : Option FeatureResult) :
    FeatureConsistencyItem where
  featureName := name
  status := classifyStatus offline online
  offlineValue := (offline.map (·.result.value)).getD .null
  onlineValue := (online.map (·.value)).getD .null
  offlineDataTs := offline.map (·.result.dataTs)
  onlineDataTs := online.map (·.dataTs)
  offlineFeatureVersion := offline.map (·.result.ref.version)
  onlineFeatureVersion := online.map (·.ref.version)

section
variable (offline : OfflineStore) (online : OnlineStore) (view : FeatureViewDef) (viewVersion : Int) (entityKey : EntityKey)

def consistencyItems : List String → List (String × FeatureConsistencyItem) →
    Except PyErr (List (String × FeatureConsistencyItem))
  | [], items => .ok items
  | name :: names, items =>
    match Dict.get? (featuresByName view.features) name with
    | none => .error (.valueError s!"unknown feature {reprStr name}")
    | some f =>
      let version := f.featureVersion
      let recs := offline.get entityKey (some name) (some version) (some view.name) (some viewVersion)
      let onlineResult := online.get view.name viewVersion entityKey name version
      consistencyItems names (Dict.set items name (classify name (latestOffline recs) onlineResult))

def checkOnlineOfflineConsistency (featureNames : List String) : Except PyErr FeatureConsistencyReport := do
  let items ← consistencyItems offline online view viewVersion entityKey featureNames []
  .ok ⟨items.all fun i => i.2.status = .ok, items⟩

end

/-! ## What the guard keeps of a history -/

def keep (kept : Option FeatureResult) (rec : OfflineFeatureRecord) : Option FeatureResult :=
  if (decideOver kept rec.result).stored then some rec.result else kept

def onlineOf (recs : List OfflineFeatureRecord) : Option FeatureResult := recs.foldl keep none

theorem onlineOf_append (recs : List OfflineFeatureRecord) (rec : OfflineFeatureRecord) :
    onlineOf (recs ++ [rec]) = keep (onlineOf recs) rec := by simp [onlineOf]

theorem guard_dataTs {a b : FeatureResult} (h : a.guard ≤ b.guard) : a.dataTs ≤ b.dataTs := by
  have h : toLex (a.dataTs, _) ≤ toLex (b.dataTs, _) := h
  rw [Prod.Lex.toLex_le_toLex] at h
  omega

theorem guard_lt_of_dataTs {a b : FeatureResult} (h : a.dataTs < b.dataTs) : a.guard < b.guard :=
  Prod.Lex.toLex_lt_toLex.mpr (.inl h)

theorem onlineOf_spec (recs : List OfflineFeatureRecord) : recs = [] ∧ onlineOf recs = none ∨
    ∃ e, onlineOf recs = some e ∧ (∃ rec ∈ recs, rec.result = e) ∧ ∀ rec ∈ recs, rec.result.guard ≤ e.guard := by
  induction recs using List.reverseRecOn with
  | nil => exact .inl ⟨rfl, rfl⟩
  | append_singleton recs rec ih =>
    refine .inr ?_
    rw [onlineOf_append]
    rcases ih with ⟨rfl, h⟩ | ⟨e, h, ⟨w, hw, rfl⟩, hle⟩
    · refine ⟨rec.result, ?_, ⟨rec, by simp, rfl⟩, by simp⟩
      rw [h, keep, decideOver_none]
      rfl
    · rw [h, keep]
      by_cases hs : (decideOver (some w.result) rec.result).stored = true
      · rw [if_pos hs]
        have hge : w.result.guard ≤ rec.result.guard := by
          rcases decideOver_stored.mp hs with h | ⟨h, -⟩
          · exact le_of_lt h
          · exact le_of_eq h
        refine ⟨rec.result, rfl, ⟨rec, by simp, rfl⟩, fun r hr => ?_⟩
        rcases List.mem_append.mp hr with hr | hr
        · exact le_trans (hle r hr) hge
        · rw [List.mem_singleton.mp hr]
      · rw [if_neg hs]
        refine ⟨w.result, rfl, ⟨w, List.mem_append_left _ hw, rfl⟩, fun r hr => ?_⟩
        rcases List.mem_append.mp hr with hr | hr
        · exact hle r hr
        · rw [List.mem_singleton.mp hr]
          by_contra hn
          exact hs (decideOver_stored.mpr (.inl (lt_of_not_ge hn)))

theorem keep_older {e : FeatureResult} : ∀ (recs : List OfflineFeatureRecord),
    (∀ rec ∈ recs, rec.result.dataTs < e.dataTs) → recs.foldl keep (some e) = some e
  | [], _ => rfl
  | rec :: recs, h => by
    have hlt : rec.result.guard < e.guard := guard_lt_of_dataTs (h rec List.mem_cons_self)
    have hk : keep (some e) rec = some e := by
      rw [keep, if_neg]
      intro hs
      rcases decideOver_stored.mp hs with h' | ⟨h', -⟩
      · exact absurd hlt (not_lt_of_gt h')
      · exact absurd h' (ne_of_gt hlt)
    rw [List.foldl_cons, hk]
    exact keep_older recs fun r hr => h r (List.mem_cons_of_mem _ hr)

/-! ## Runs of compute calls -/

/-- A call that raises writes nothing. -/
def runCall (s : StoreState) (c : FeatureStore × ComputeCall) : StoreState :=
  match c.1.compute c.2 s with
  | .ok (_, s') => s'
  | .error _ => s

def runCalls (calls : List (FeatureStore × ComputeCall)) (s : StoreState) : StoreState := calls.foldl runCall s

/-- Both stores have seen the same writes in the same order. -/
def Mirrors (s : StoreState) : Prop := ∀ slot, Dict.get? s.online slot = onlineOf (s.offline.rows slot)

theorem writes_get? (view : String) (vv : Int) (slot : FeatureSlot) : ∀ (rs : List FeatureResult) (online : OnlineStore),
    Dict.get? (rs.foldl (fun (vs : OnlineStore) r => (vs.write view vv r).2) online) slot =
      (OfflineStore.rows (rs.map fun r => ⟨view, vv, r⟩) slot).foldl keep (Dict.get? online slot)
  | [], online => rfl
  | r :: rs, online => by
    rw [List.foldl_cons, writes_get? view vv slot rs, OnlineStore.get?_write]
    simp only [OfflineStore.rows, List.map_cons, List.filter_cons, decide_eq_true_eq]
    by_cases hs : r.slot view vv = slot
    · have hs' : OfflineFeatureRecord.slot ⟨view, vv, r⟩ = slot := hs
      rw [if_pos hs', List.foldl_cons, keep]
      simp only [hs, true_and]
    · have hs' : ¬ OfflineFeatureRecord.slot ⟨view, vv, r⟩ = slot := hs
      rw [if_neg hs', if_neg fun h => hs h.1]

theorem runCall_mirrors {s : StoreState} (hs : Mirrors s) (c : FeatureStore × ComputeCall)
    (hw : c.2.writeOnline = true) : Mirrors (runCall s c) := by
  unfold runCall
  cases hc : c.1.compute c.2 s with
  | error e => exact hs
  | ok out =>
    obtain ⟨o, s'⟩ := out
    obtain ⟨writeSet, -, -, he⟩ := FeatureStore.compute_writes hc
    simp only [FeatureStore.storeWrites, hw, if_true, List.foldl_append, FeatureStore.applyWrite_appends,
      FeatureStore.applyWrite_onlines] at he
    intro slot
    simp only [he, OfflineStore.appendMany_eq, OfflineStore.rows_append, onlineOf, List.foldl_append]
    rw [writes_get?, hs slot]
    rfl

theorem runCalls_mirrors : ∀ {calls : List (FeatureStore × ComputeCall)} {s : StoreState}, Mirrors s →
    (∀ c ∈ calls, c.2.writeOnline = true) → Mirrors (runCalls calls s)
  | [], s, hs, _ => hs
  | c :: calls, s, hs, hw => by
    have hc : Mirrors (runCall s c) := runCall_mirrors hs c (hw c List.mem_cons_self)
    have hcs : ∀ c' ∈ calls, c'.2.writeOnline = true := fun c' hc' => hw c' (List.mem_cons_of_mem _ hc')
    exact @runCalls_mirrors calls (runCall s c) hc hcs

/-! ## The verdict -/

/-- At one event time the newest input never moves back, and a write the guard refuses repeats the kept value. -/
def Settled (recs : List OfflineFeatureRecord) : Prop :=
  recs.Pairwise fun a b => a.result.dataTs = b.result.dataTs → a.result.guard ≤ b.result.guard ∧
    ((decideOver (some a.result) b.result).stored = false → b.result.value.pyEq a.result.value = true)

theorem latest_split {recs : List OfflineFeatureRecord} (hne : recs ≠ []) :
    ∃ before last after, recs = before ++ last :: after ∧
      (∀ rec ∈ before, rec.result.dataTs ≤ last.result.dataTs) ∧ (∀ rec ∈ after, rec.result.dataTs < last.result.dataTs) ∧
      latestOffline recs = some last ∧ onlineOf recs = keep (onlineOf before) last := by
  rcases LastMax.lastMax_spec (fun rec : OfflineFeatureRecord => rec.result.dataTs) recs with ⟨-, h⟩ | ⟨last, hl, before, after, e, h₁, h₂⟩
  · exact absurd h hne
  refine ⟨before, last, after, e, h₁, h₂, hl, ?_⟩
  have hsplit : before ++ last :: after = before ++ [last] ++ after := by simp
  obtain ⟨k, hk, hkl⟩ : ∃ k, onlineOf (before ++ [last]) = some k ∧ last.result.guard ≤ k.guard := by
    rcases onlineOf_spec (before ++ [last]) with ⟨h, -⟩ | ⟨k, hk, -, hle⟩
    · simp at h
    · exact ⟨k, hk, hle last (by simp)⟩
  have hafter : after.foldl keep (some k) = some k :=
    keep_older after fun rec hr => lt_of_lt_of_le (h₂ rec hr) (guard_dataTs hkl)
  rw [e, hsplit, onlineOf, List.foldl_append, ← onlineOf_append, hk]
  have hk' : List.foldl keep none (before ++ [last]) = some k := hk
  rw [hk', hafter]

/-- The row that the check compares was stored, or the result kept instead carries its value. -/
def Agrees (before : List OfflineFeatureRecord) (last : OfflineFeatureRecord) : Prop :=
  (decideOver (onlineOf before) last.result).stored = true ∨
    ∃ e, onlineOf before = some e ∧ last.result.value.pyEq e.value = true

theorem classifyStatus_eq {last : OfflineFeatureRecord} {e : FeatureResult} (h : e.dataTs = last.result.dataTs) :
    classifyStatus (some last) (some e) = if last.result.value.pyEq e.value then .ok else .valueMismatch := by
  simp only [classifyStatus, h, lt_irrefl, if_false]
  cases last.result.value.pyEq e.value <;> rfl

theorem verdict {recs : List OfflineFeatureRecord} (hne : recs ≠ []) : ∃ before last after,
    recs = before ++ last :: after ∧ latestOffline recs = some last ∧
    (classifyStatus (latestOffline recs) (onlineOf recs) = .ok ∨
      classifyStatus (latestOffline recs) (onlineOf recs) = .valueMismatch) ∧
    (classifyStatus (latestOffline recs) (onlineOf recs) = .ok ↔ Agrees before last) ∧
    (Settled recs → Agrees before last) := by
  obtain ⟨before, last, after, e, h₁, h₂, hl, ho⟩ := latest_split hne
  refine ⟨before, last, after, e, hl, ?_⟩
  rcases onlineOf_spec recs with ⟨h, -⟩ | ⟨k, hk, ⟨w, hw, rfl⟩, hle⟩
  · exact absurd h hne
  have hlast : last ∈ recs := by rw [e]; simp
  have hdata : w.result.dataTs = last.result.dataTs := by
    have hge := guard_dataTs (hle last hlast)
    have hle' := LastMax.le_of_lastMax _ hl w hw
    omega
  have hstatus := classifyStatus_eq hdata
  rw [hl, hk, hstatus]
  rw [ho, keep] at hk
  refine ⟨by cases last.result.value.pyEq w.result.value <;> simp, ?_, fun hset => ?_⟩
  · by_cases hs : (decideOver (onlineOf before) last.result).stored = true
    · rw [if_pos hs] at hk
      have hv : last.result.value.pyEq w.result.value = true := by
        rw [Option.some.inj hk]
        exact Value.pyEq_refl _
      simp [Agrees, hs, hv]
    · rw [if_neg hs] at hk
      rw [hk] at hs
      simp [Agrees, hs, hk]
  · by_cases hs : (decideOver (onlineOf before) last.result).stored = true
    · exact .inl hs
    · rw [if_neg hs] at hk
      refine .inr ⟨w.result, hk, ?_⟩
      have hwb : ∃ w' ∈ before, w'.result = w.result := by
        rcases onlineOf_spec before with ⟨-, h⟩ | ⟨k, h, ⟨w', hw', hr⟩, -⟩
        · rw [h] at hk; cases hk
        · exact ⟨w', hw', by rw [hr]; exact Option.some.inj (h.symm.trans hk)⟩
      obtain ⟨w', hw', hr⟩ := hwb
      have hpair := hset
      rw [e, Settled, List.pairwise_append] at hpair
      have hwl := hpair.2.2 w' hw' last List.mem_cons_self (by rw [hr, hdata])
      rw [hr] at hwl
      exact hwl.2 (by rw [← hk]; simpa using hs)

theorem consistencyItems_from {offline : OfflineStore} {online : OnlineStore} {view : FeatureViewDef} {vv : Int}
    {key : EntityKey} : ∀ {names : List String} {items items' : List (String × FeatureConsistencyItem)},
    consistencyItems offline online view vv key names items = .ok items' → ∀ n item, (n, item) ∈ items' →
      (n, item) ∈ items ∨ ∃ f, Dict.get? (featuresByName view.features) n = some f ∧
        item = classify n (latestOffline (offline.rows ⟨key.encode, view.name, vv, n, f.featureVersion⟩))
          (Dict.get? online ⟨key.encode, view.name, vv, n, f.featureVersion⟩)
  | [], items, items', h, n, item, hm => by cases h; exact .inl hm
  | name :: names, items, items', h, n, item, hm => by
    rw [consistencyItems] at h
    cases hf : Dict.get? (featuresByName view.features) name with
    | none => rw [hf] at h; cases h
    | some f =>
      simp only [hf, OfflineStore.get_eq_rows] at h
      rcases consistencyItems_from h n item hm with hm | hm
      · rcases Dict.mem_set_cases hm with e | hm
        · cases e
          exact .inr ⟨f, hf, rfl⟩
        · exact .inl hm
      · exact .inr hm

/-- After any calls that write online, a feature that was ever written is present on both sides at the same event
time; the values agree exactly when the last row of that event time was stored or carries the kept value. -/
theorem consistency_after_calls (calls : List (FeatureStore × ComputeCall))
    (hw : ∀ c ∈ calls, c.2.writeOnline = true) (view : FeatureViewDef) (viewVersion : Int) (key : EntityKey)
    (names : List String) (report : FeatureConsistencyReport)
    (h : checkOnlineOfflineConsistency (runCalls calls {}).offline (runCalls calls {}).online view viewVersion key names =
      .ok report) :
    ∀ name item, (name, item) ∈ report.items → ∃ f, Dict.get? (featuresByName view.features) name = some f ∧
      let recs := (runCalls calls {}).offline.rows ⟨key.encode, view.name, viewVersion, name, f.featureVersion⟩
      recs ≠ [] → ∃ before last after, recs = before ++ last :: after ∧ latestOffline recs = some last ∧
        (item.status = .ok ∨ item.status = .valueMismatch) ∧ (item.status = .ok ↔ Agrees before last) ∧
        (Settled recs → item.status = .ok) := by
  intro name item hm
  obtain ⟨items, hi, h⟩ := bind_eq_ok.mp h
  cases h
  rcases consistencyItems_from hi name item hm with hm | ⟨f, hf, rfl⟩
  · cases hm
  refine ⟨f, hf, fun hne => ?_⟩
  have hmir : Mirrors (runCalls calls {}) := runCalls_mirrors (fun _ => rfl) hw
  obtain ⟨before, last, after, e, hl, hst, hiff, hset⟩ := verdict hne
  simp only [classify, hmir _]
  exact ⟨before, last, after, e, hl, hst, hiff, fun hs => hiff.mpr (hset hs)⟩

/-! ## A late report at an equal event time -/

theorem reactiveOnLast_ok : ({ feature := "last", propagation := .reactive } : DependencyFields).check = .ok () := by decide

def lastFeature : FeatureDef where
  name := "last"
  kind := .udf
  featureVersion := 1
  udf := "u.b"
  dtype := "int"
  status := "live"
  inputs := ["a", "b"]
  lifecycle := .live
  ok := by decide

def lastView : FeatureViewDef where
  name := "risk"
  entity := "user"
  keyFields := ["user_id"]
  viewVersion := 1
  owner := "o"
  status := "live"
  features := [lastFeature]
  ok := by decide
  groups_nodup := by exact List.nodup_nil

def lastTable : List (List JsonTok × String) :=
  [(canonicalValueJson (.int 10), "4a44dc15364204a80fe80e9039455cc1608281820fe2b24f1e5233ade6af1dd5"),
   (canonicalValueJson (.int 5), "ef2d127de37b942baad06145e54b0c619a1f22327b2ebbcfbec78f5564afe39d"),
   (fingerprintText [("source:a", 1, "ha"), ("source:b", 10, "hb10")],
    "4c5efb3bd2065aa401ec8a9a63a6f9cc59be7d8dd3cb35d4c9c60fa9ebe1c817"),
   (fingerprintText [("source:a", 1, "ha"), ("source:b", 5, "hb5")],
    "916bdcabd899bcc2215a9e83adfbcc9ee4af7cd938d0a85cf8a7360f4c7698e3")]

def reportA : RawReportMeta :=
  ⟨{ reportRef := "rep_a", reportType := "a", entityType := "user", entityKey := userKey, reportTs := 1,
     payloadSizeBytes := 1, contentHash := "ha", storageUri := "mem://a", createdAt := 11 }, by decide⟩

def reportB : RawReportMeta :=
  ⟨{ reportRef := "rep_b", reportType := "b", entityType := "user", entityKey := userKey, reportTs := 10,
     payloadSizeBytes := 2, contentHash := "hb10", storageUri := "mem://b", createdAt := 11 }, by decide⟩

/-- An older report of source `b`, landed later. -/
def reportLate : RawReportMeta :=
  ⟨{ reportRef := "rep_late", reportType := "b", entityType := "user", entityKey := userKey, reportTs := 5,
     payloadSizeBytes := 1, contentHash := "hb5", storageUri := "mem://late", createdAt := 21 }, by decide⟩

def lastStore : FeatureStore where
  core := {
    registry := userRegistry lastView
    udfs := [("u.b", fun sources _ => .ok ((Dict.get? sources "b").getD .null))]
    sha256 := digestTable lastTable }
  resolver := {
    payloadStore := [("mem://a", .int 0), ("mem://b", .int 10), ("mem://late", .int 5)]
    metaRepo := { metas := [("rep_a", reportA), ("rep_b", reportB), ("rep_late", reportLate)] } }

def stampOf (row : RawReportMeta) (h : isBlank row.contentHash = false) : SourceStamp :=
  { reportTs := row.reportTs, contentHash := row.contentHash, hash_ok := h }

def lastCall : ComputeCall where
  view := "risk"
  viewVersion := 1
  entityKey := userKey
  requestedFeatures := ["last"]
  sourceRefs := [("a", "rep_a"), ("b", "rep_b")]
  sourceStamps := [("a", stampOf reportA (by decide)), ("b", stampOf reportB (by decide))]
  calcTs := 20

def lateCall : ComputeCall where
  view := "risk"
  viewVersion := 1
  entityKey := userKey
  requestedFeatures := ["last"]
  sourceRefs := [("a", "rep_a"), ("b", "rep_late")]
  sourceStamps := [("a", stampOf reportA (by decide)), ("b", stampOf reportLate (by decide))]
  calcTs := 30

def lastCheck (calls : List (FeatureStore × ComputeCall)) : Except PyErr FeatureConsistencyReport :=
  checkOnlineOfflineConsistency (runCalls calls {}).offline (runCalls calls {}).online lastView 1 userKey ["last"]

def reportStatuses (report : Except PyErr FeatureConsistencyReport) : List (String × ConsistencyStatus) :=
  match report with
  | .ok report => report.items.map fun i => (i.1, i.2.status)
  | .error _ => []

/-- The late report has the same oldest input and an older newest one: appended last, refused online. -/
theorem late_report_mismatch : validateRegistry lastStore.core.registry = .ok () ∧ lastCall.calcTs ≤ lateCall.calcTs ∧
    lastCall.writeOnline = true ∧ lateCall.writeOnline = true ∧
    reportStatuses (lastCheck [(lastStore, lastCall)]) = [("last", .ok)] ∧
    reportStatuses (lastCheck [(lastStore, lastCall), (lastStore, lateCall)]) = [("last", .valueMismatch)] := by
  decide +kernel

theorem consistency_after_late_report : ∃ report,
    lastCheck [(lastStore, lastCall), (lastStore, lateCall)] = .ok report ∧ ∀ name item, (name, item) ∈ report.items →
      ∃ f, Dict.get? (featuresByName lastView.features) name = some f ∧
        let recs := (runCalls [(lastStore, lastCall), (lastStore, lateCall)] {}).offline.rows
          ⟨userKey.encode, lastView.name, 1, name, f.featureVersion⟩
        recs ≠ [] → ∃ before last after, recs = before ++ last :: after ∧ latestOffline recs = some last ∧
          (item.status = .ok ∨ item.status = .valueMismatch) ∧ (item.status = .ok ↔ Agrees before last) ∧
          (Settled recs → item.status = .ok) := by
  have h : lastCheck [(lastStore, lastCall), (lastStore, lateCall)] = .ok _ := eq_ok_okGet _ (by decide +kernel)
  refine ⟨_, h, consistency_after_calls _ ?_ lastView 1 userKey ["last"] _ h⟩
  intro c hc
  rcases List.mem_cons.mp hc with rfl | hc
  · rfl
  · rw [List.mem_singleton.mp hc]
    rfl

end ClearFeature
