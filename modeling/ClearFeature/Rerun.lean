import ClearFeature.Consistency

/-!
# Stopping between the store writes

A call appends its new results one by one and then writes them online one by
one. A rerun drops what has been appended, and with it the online writes that
were still to come.
-/

namespace ClearFeature

open FeatureStore

/-- The stores when the process stops after `k` of the call's store writes. -/
def stoppedAfter (call : ComputeCall) (writeSet : FeatureWriteSet) (s : StoreState) (k : Nat) : StoreState :=
  ((storeWrites call (toWrite call writeSet s)).take k).foldl (applyWrite call.view call.viewVersion) s

/-! ## The duplicate filter on a rerun -/

section
variable {view : String} {vv : Int}

theorem partitionLoop_eq_filter (offline : OfflineStore) : ∀ (rs : List FeatureResult) (seen : List Signature),
    (rs.map (FeatureResult.slot view vv)).Nodup → (∀ r ∈ rs, r.signature ∉ seen) →
    (partitionLoop offline view vv rs seen).1 = rs.filter fun r => !existsInOffline offline view vv r
  | [], _, _, _ => rfl
  | r :: rs, seen, hn, hs => by
    simp only [List.map_cons, List.nodup_cons] at hn
    rw [partitionLoop, if_neg (hs r List.mem_cons_self), List.filter_cons]
    cases he : existsInOffline offline view vv r with
    | true =>
      simp only [if_true, Bool.not_true, Bool.false_eq_true, if_false]
      exact partitionLoop_eq_filter offline rs seen hn.2 fun r' hr' => hs r' (List.mem_cons_of_mem _ hr')
    | false =>
      simp only [Bool.false_eq_true, if_false, Bool.not_false, if_true]
      refine congrArg (r :: ·) (partitionLoop_eq_filter offline rs _ hn.2 fun r' hr' => ?_)
      -- a later result with the same signature would share the slot
      intro h
      rcases List.mem_cons.mp h with h | h
      · have hslot : r'.slot view vv = r.slot view vv := (twin_of_signature h).1
        exact hn.1 (hslot ▸ List.mem_map_of_mem (f := FeatureResult.slot view vv) hr')
      · exact hs r' (List.mem_cons_of_mem _ hr') h

/-- Once the first `k` new results have been appended, the filter finds the others. -/
theorem partition_rerun (offline : OfflineStore) (rs : List FeatureResult) (k : Nat)
    (hn : (rs.map (FeatureResult.slot view vv)).Nodup) :
    let new := (partitionNewResults offline view vv rs).1
    (partitionNewResults (offline ++ (new.take k).map fun r => ⟨view, vv, r⟩) view vv rs).1 = new.drop k := by
  intro new
  have hnew : new = rs.filter fun r => !existsInOffline offline view vv r :=
    partitionLoop_eq_filter offline rs [] hn (by simp)
  have hnn : (new.map (FeatureResult.slot view vv)).Nodup := by
    rw [hnew]
    exact hn.sublist (List.filter_sublist.map _)
  rw [partitionNewResults, partitionLoop_eq_filter _ rs [] hn (by simp)]
  have hsplit : ∀ r, (!existsInOffline (offline ++ (new.take k).map fun r => ⟨view, vv, r⟩) view vv r) =
      (!existsInOffline ((new.take k).map fun r => ⟨view, vv, r⟩) view vv r && !existsInOffline offline view vv r) := by
    intro r
    rw [existsInOffline_append, Bool.not_or, Bool.and_comm]
  simp only [hsplit]
  rw [← List.filter_filter, ← hnew]
  have htake : (new.take k).filter (fun r => !existsInOffline ((new.take k).map fun r => ⟨view, vv, r⟩) view vv r) = [] := by
    refine List.filter_eq_nil_iff.mpr fun r hr => ?_
    rw [existsInOffline_self hr]
    simp
  have hdrop : (new.drop k).filter (fun r => !existsInOffline ((new.take k).map fun r => ⟨view, vv, r⟩) view vv r) =
      new.drop k := by
    refine List.filter_eq_self.mpr fun r hr => ?_
    rw [← List.take_append_drop k new, List.map_append, List.nodup_append] at hnn
    have hne : r.slot view vv ∉ (new.take k).map (FeatureResult.slot view vv) := fun hm =>
      hnn.2.2 _ hm _ (List.mem_map_of_mem (f := FeatureResult.slot view vv) hr) rfl
    rw [existsInOffline_other hne]
    rfl
  calc new.filter (fun r => !existsInOffline ((new.take k).map fun r => ⟨view, vv, r⟩) view vv r)
      = (new.take k ++ new.drop k).filter _ := by rw [List.take_append_drop]
    _ = new.drop k := by rw [List.filter_append, htake, hdrop, List.nil_append]

/-! ## The online values -/

theorem writes_mem {rs : List FeatureResult} (hn : (rs.map (FeatureResult.slot view vv)).Nodup) {r : FeatureResult}
    (hr : r ∈ rs) (online : OnlineStore) :
    Dict.get? (rs.foldl (fun (vs : OnlineStore) r => (vs.write view vv r).2) online) (r.slot view vv) =
      keep (Dict.get? online (r.slot view vv)) ⟨view, vv, r⟩ := by
  obtain ⟨l₁, l₂, rfl⟩ := List.append_of_mem hr
  rw [List.map_append, List.map_cons, List.nodup_append, List.nodup_cons] at hn
  have hrows : ∀ l : List FeatureResult, r.slot view vv ∉ l.map (FeatureResult.slot view vv) →
      OfflineStore.rows (l.map fun r => ⟨view, vv, r⟩) (r.slot view vv) = [] := by
    intro l hl
    refine List.filter_eq_nil_iff.mpr fun rec hm => ?_
    obtain ⟨r', hr', rfl⟩ := List.mem_map.mp hm
    simp only [decide_eq_true_eq]
    exact fun h => hl (h ▸ List.mem_map_of_mem (f := FeatureResult.slot view vv) hr')
  have h₁ : r.slot view vv ∉ l₁.map (FeatureResult.slot view vv) := fun hm =>
    hn.2.2 _ hm _ List.mem_cons_self rfl
  rw [writes_get?, List.map_append, List.map_cons, OfflineStore.rows_append, hrows l₁ h₁, List.nil_append]
  have hself : OfflineStore.rows (⟨view, vv, r⟩ :: l₂.map fun r => ⟨view, vv, r⟩) (r.slot view vv) = [⟨view, vv, r⟩] := by
    have htail := hrows l₂ hn.2.1.1
    unfold OfflineStore.rows at htail ⊢
    rw [List.filter_cons, if_pos (by simp [OfflineFeatureRecord.slot]), htail]
  rw [hself]
  rfl

theorem writes_other {rs : List FeatureResult} {slot : FeatureSlot} (h : slot ∉ rs.map (FeatureResult.slot view vv))
    (online : OnlineStore) :
    Dict.get? (rs.foldl (fun (vs : OnlineStore) r => (vs.write view vv r).2) online) slot = Dict.get? online slot := by
  rw [writes_get?]
  have hrows : OfflineStore.rows (rs.map fun r => ⟨view, vv, r⟩) slot = [] := by
    refine List.filter_eq_nil_iff.mpr fun rec hm => ?_
    obtain ⟨r', hr', rfl⟩ := List.mem_map.mp hm
    simp only [decide_eq_true_eq]
    exact fun e => h (e ▸ List.mem_map_of_mem (f := FeatureResult.slot view vv) hr')
  rw [hrows]
  rfl

end

def SameOnline (a b : Option FeatureResult) : Prop :=
  match a, b with
  | none, none => True
  | some a, some b => a.value.pyEq b.value = true
  | _, _ => False

theorem SameOnline.refl (a : Option FeatureResult) : SameOnline a a := by
  cases a <;> simp [SameOnline]

/-- Leaving a write out is invisible when the guard refuses it or the stored value is the same. -/
theorem sameOnline_keep {e : Option FeatureResult} {rec : OfflineFeatureRecord} :
    SameOnline e (keep e rec) ↔ (decideOver e rec.result).stored = false ∨
      ∃ x, e = some x ∧ x.value.pyEq rec.result.value = true := by
  unfold keep
  cases hs : (decideOver e rec.result).stored with
  | false => simp [SameOnline.refl]
  | true =>
    cases e with
    | none => simp [SameOnline]
    | some x => simp [SameOnline]

/-- The new results that were appended and not yet written online after `k` store writes. -/
def unwritten (call : ComputeCall) (writeSet : FeatureWriteSet) (s : StoreState) (k : Nat) : List FeatureResult :=
  ((toWrite call writeSet s).take k).drop (k - (toWrite call writeSet s).length)

theorem toWrite_dedup {call : ComputeCall} (hdup : call.skipDuplicateOffline = true) (writeSet : FeatureWriteSet)
    (s : StoreState) : toWrite call writeSet s =
      (partitionNewResults s.offline call.view call.viewVersion (Dict.values writeSet.results)).1 := if_pos hdup

/-- What a stop leaves behind: the first `k` appends, and the online writes that come after all appends. -/
theorem stoppedAfter_eq {call : ComputeCall} (hon : call.writeOnline = true) (writeSet : FeatureWriteSet)
    (s : StoreState) (k : Nat) : let new := toWrite call writeSet s
    stoppedAfter call writeSet s k =
      { offline := s.offline ++ (new.take k).map fun r => ⟨call.view, call.viewVersion, r⟩
        online := (new.take (k - new.length)).foldl
          (fun (vs : OnlineStore) r => (vs.write call.view call.viewVersion r).2) s.online } := by
  intro new
  unfold stoppedAfter storeWrites
  rw [hon, if_pos rfl, List.take_append, List.length_map, ← List.map_take, ← List.map_take, List.foldl_append,
    applyWrite_appends, applyWrite_onlines, OfflineStore.appendMany_eq]

theorem results_slots {fs : FeatureStore} {call : ComputeCall} {loader : Option (String → Except PyErr Value)}
    {writeSet : FeatureWriteSet} (h : fs.computeWriteSet call loader = .ok writeSet) :
    ((Dict.values writeSet.results).map (FeatureResult.slot call.view call.viewVersion)).Nodup ∧
    ∃ viewDef, fs.core.findView call.view call.viewVersion = .ok viewDef ∧ ∀ r ∈ Dict.values writeSet.results,
      r.ref.name ∈ call.requestedFeatures ∧ r.entityKey = call.entityKey ∧
      ∃ f, Dict.get? (featuresByName viewDef.features) r.ref.name = some f ∧ r.ref = f.ref := by
  obtain ⟨hn, viewDef, hv, hr⟩ := computeWriteSet_results h
  have hname : ∀ p ∈ writeSet.results, p.2.ref.name = p.1 := by
    intro p hp
    obtain ⟨-, -, f, hf, e⟩ := hr p.1 p.2 (Dict.get?_of_mem hn hp)
    rw [e]
    exact (featuresByName_name hf).2
  refine ⟨?_, viewDef, hv, fun r hm => ?_⟩
  · have hnames : ((Dict.values writeSet.results).map (FeatureResult.slot call.view call.viewVersion)).map
        FeatureSlot.featureName = Dict.keys writeSet.results := by
      simp only [Dict.values, Dict.keys, List.map_map]
      exact List.map_congr_left hname
    exact List.Nodup.of_map _ (hnames ▸ hn)
  · obtain ⟨p, hp, rfl⟩ := List.mem_map.mp hm
    obtain ⟨hreq, hkey, f, hf, e⟩ := hr p.1 p.2 (Dict.get?_of_mem hn hp)
    rw [hname p hp]
    exact ⟨hreq, hkey, f, hf, e⟩

/-- The part in the middle of a list shares no image with the rest. -/
theorem nodup_middle {α β : Type} {f : α → β} {l₁ l₂ l₃ : List α} (h : ((l₁ ++ l₂ ++ l₃).map f).Nodup) :
    ((l₁ ++ l₃).map f).Nodup ∧ ∀ a ∈ l₂, f a ∉ (l₁ ++ l₃).map f := by
  refine ⟨h.sublist (List.Sublist.map _ (List.Sublist.append_right (List.sublist_append_left _ _) _)), ?_⟩
  intro a ha hm
  have hmap := List.mem_map_of_mem (f := f) ha
  rw [List.map_append, List.map_append, List.append_assoc, List.nodup_append, List.nodup_append] at h
  rw [List.map_append] at hm
  rcases List.mem_append.mp hm with hm | hm
  · exact h.2.2 _ hm _ (List.mem_append_left _ hmap) rfl
  · exact h.2.1.2.2 _ hmap _ hm rfl

/-- What has been written online, what is missing there, and what has not been appended. -/
theorem toWrite_parts (call : ComputeCall) (writeSet : FeatureWriteSet) (s : StoreState) (k : Nat) :
    let new := toWrite call writeSet s
    new = new.take (k - new.length) ++ unwritten call writeSet s k ++ new.drop k := by
  intro new
  have ht : new.take (k - new.length) = (new.take k).take (k - new.length) := by
    rw [List.take_take, Nat.min_eq_left (Nat.sub_le k _)]
  have hu : (new.take k).take (k - new.length) ++ unwritten call writeSet s k = new.take k :=
    List.take_append_drop (k - new.length) (new.take k)
  rw [ht, hu, List.take_append_drop]

theorem compute_online {fs : FeatureStore} {call : ComputeCall} (hon : call.writeOnline = true)
    {writeSet : FeatureWriteSet} (hw : fs.computeWriteSet call none = .ok writeSet) {s s' : StoreState}
    {o : ComputeOutcome} (h : fs.compute call s = .ok (o, s')) :
    s'.online = (toWrite call writeSet s).foldl
      (fun (vs : OnlineStore) r => (vs.write call.view call.viewVersion r).2) s.online := by
  obtain ⟨w, hw', -, e⟩ := compute_writes h
  cases hw.symm.trans hw'
  rw [e, storeWrites, hon, if_pos rfl, List.foldl_append, applyWrite_appends, applyWrite_onlines]

/-- A stop after `k` store writes and a rerun to completion leave the online values of one uninterrupted run exactly
when every result appended but not yet written online would not have changed its online value. -/
theorem rerun_converges_iff (fs : FeatureStore) (call : ComputeCall) (hon : call.writeOnline = true)
    (hdup : call.skipDuplicateOffline = true) (writeSet : FeatureWriteSet) (hw : fs.computeWriteSet call none = .ok writeSet)
    (viewDef : FeatureViewDef) (hv : fs.core.findView call.view call.viewVersion = .ok viewDef)
    (s s₁ s₂ : StoreState) (k : Nat) (o₁ o₂ : ComputeOutcome) (h₁ : fs.compute call s = .ok (o₁, s₁))
    (h₂ : fs.compute call (stoppedAfter call writeSet s k) = .ok (o₂, s₂)) :
    (∀ name ∈ call.requestedFeatures, ∀ f, Dict.get? (featuresByName viewDef.features) name = some f →
      SameOnline (s₂.online.get call.view call.viewVersion call.entityKey name f.featureVersion)
        (s₁.online.get call.view call.viewVersion call.entityKey name f.featureVersion)) ↔
    ∀ r ∈ unwritten call writeSet s k,
      (decideOver (Dict.get? s.online (r.slot call.view call.viewVersion)) r).stored = false ∨
      ∃ e, Dict.get? s.online (r.slot call.view call.viewVersion) = some e ∧ e.value.pyEq r.value = true := by
  obtain ⟨hslots, v, hv', hrefs⟩ := results_slots hw
  cases hv.symm.trans hv'
  let new := toWrite call writeSet s
  have hnewdef : new = (partitionNewResults s.offline call.view call.viewVersion (Dict.values writeSet.results)).1 :=
    toWrite_dedup hdup writeSet s
  have hsub : List.Sublist new (Dict.values writeSet.results) := hnewdef ▸ partition_sublist _
  have hn : (new.map (FeatureResult.slot call.view call.viewVersion)).Nodup := hslots.sublist (hsub.map _)
  -- the uninterrupted run writes all new results online, the rerun those the stop did not append
  have hs₁ : s₁.online = new.foldl (fun (vs : OnlineStore) r => (vs.write call.view call.viewVersion r).2) s.online :=
    compute_online hon hw h₁
  have hs₂ : s₂.online = (new.take (k - new.length) ++ new.drop k).foldl
      (fun (vs : OnlineStore) r => (vs.write call.view call.viewVersion r).2) s.online := by
    have hre : toWrite call writeSet (stoppedAfter call writeSet s k) = new.drop k := by
      rw [toWrite_dedup hdup, stoppedAfter_eq hon, hnewdef, toWrite_dedup hdup]
      exact partition_rerun s.offline _ k hslots
    rw [compute_online hon hw h₂, hre, stoppedAfter_eq hon, List.foldl_append]
  have hparts : new = new.take (k - new.length) ++ unwritten call writeSet s k ++ new.drop k :=
    toWrite_parts call writeSet s k
  have hmem : ∀ r ∈ new, r ∈ new.take (k - new.length) ++ new.drop k ∨ r ∈ unwritten call writeSet s k := by
    intro r hr
    rw [hparts] at hr
    simp only [List.mem_append] at hr ⊢
    tauto
  obtain ⟨hwritten, hmissing⟩ := nodup_middle (hparts ▸ hn)
  have hfirst : ∀ r ∈ new, Dict.get? s₁.online (r.slot call.view call.viewVersion) =
      keep (Dict.get? s.online (r.slot call.view call.viewVersion)) ⟨call.view, call.viewVersion, r⟩ := fun r hr => by
    rw [hs₁, writes_mem hn hr]
  constructor
  · intro hsame r hr
    have hrn : r ∈ new := by
      rw [hparts]
      simp [hr]
    obtain ⟨hreq, hkey, f, hf, e⟩ := hrefs r (hsub.subset hrn)
    have hslot : (⟨call.entityKey.encode, call.view, call.viewVersion, r.ref.name, f.featureVersion⟩ : FeatureSlot) =
        r.slot call.view call.viewVersion := by
      simp [FeatureResult.slot, hkey, e, FeatureDef.ref]
    have h := hsame r.ref.name hreq f hf
    simp only [OnlineStore.get, hslot] at h
    rw [hfirst r hrn, hs₂, writes_other (hmissing r hr)] at h
    exact sameOnline_keep.mp h
  · intro hcond name hname f hf
    simp only [OnlineStore.get]
    by_cases hin : (⟨call.entityKey.encode, call.view, call.viewVersion, name, f.featureVersion⟩ : FeatureSlot) ∈
        new.map (FeatureResult.slot call.view call.viewVersion)
    · obtain ⟨r, hr, e⟩ := List.mem_map.mp hin
      rw [← e, hfirst r hr, hs₂]
      rcases hmem r hr with hw' | hm
      · rw [writes_mem hwritten hw']
        exact SameOnline.refl _
      · rw [writes_other (hmissing r hm)]
        exact sameOnline_keep.mpr (hcond r hm)
    · have hin' : (⟨call.entityKey.encode, call.view, call.viewVersion, name, f.featureVersion⟩ : FeatureSlot) ∉
          (new.take (k - new.length) ++ new.drop k).map (FeatureResult.slot call.view call.viewVersion) := by
        intro h
        refine hin ?_
        rw [List.map_append] at h
        rcases List.mem_append.mp h with h | h
        · exact (List.take_sublist _ _).map _ |>.subset h
        · exact (List.drop_sublist _ _).map _ |>.subset h
      rw [hs₁, hs₂, writes_other hin, writes_other hin']
      exact SameOnline.refl _

/-! ## A stop after the append -/

def batchCall : ComputeCall := { lastCall with skipDuplicateOffline := true }

def batchWriteSet : FeatureWriteSet := okGet (lastStore.computeWriteSet batchCall none) (by decide +kernel)

theorem batchWriteSet_eq : lastStore.computeWriteSet batchCall none = .ok batchWriteSet := eq_ok_okGet _ _

/-- Is there an online value of `last` after a run of the batch call from `s`? -/
def servesAfter (s : StoreState) : Option Bool :=
  match lastStore.compute batchCall s with
  | .ok (_, s') => some (s'.online.get "risk" 1 userKey "last" 1).isSome
  | .error _ => none

/-- Stopped between the append and the online write, the rerun drops the result and never writes it online. -/
theorem rerun_drops_online : validateRegistry lastStore.core.registry = .ok () ∧ batchCall.writeOnline = true ∧
    batchCall.skipDuplicateOffline = true ∧ servesAfter {} = some true ∧
    servesAfter (stoppedAfter batchCall batchWriteSet {} 1) = some false := by
  decide +kernel

/-- A request has served the result online, and its history is still to be written. -/
def servedOnline : StoreState where
  online := (Dict.values batchWriteSet.results).foldl (fun (vs : OnlineStore) r => (vs.write "risk" 1 r).2) []

/-- Stopped between the append and the online write, over an online value that the write would not change. -/
theorem rerun_converges_served : ∃ o₁ s₁ o₂ s₂, lastStore.compute batchCall servedOnline = .ok (o₁, s₁) ∧
    lastStore.compute batchCall (stoppedAfter batchCall batchWriteSet servedOnline 1) = .ok (o₂, s₂) ∧
    unwritten batchCall batchWriteSet servedOnline 1 ≠ [] ∧
    ∀ name ∈ batchCall.requestedFeatures, ∀ f, Dict.get? (featuresByName lastView.features) name = some f →
      SameOnline (s₂.online.get "risk" 1 userKey name f.featureVersion)
        (s₁.online.get "risk" 1 userKey name f.featureVersion) := by
  have h₁ := eq_ok_okGet (lastStore.compute batchCall servedOnline) (by decide +kernel)
  have h₂ := eq_ok_okGet (lastStore.compute batchCall (stoppedAfter batchCall batchWriteSet servedOnline 1))
    (by decide +kernel)
  have hrefused : ∀ r ∈ unwritten batchCall batchWriteSet servedOnline 1,
      (decideOver (Dict.get? servedOnline.online (r.slot "risk" 1)) r).stored = false := by
    decide +kernel
  refine ⟨_, _, _, _, h₁, h₂, by decide +kernel, ?_⟩
  apply (rerun_converges_iff lastStore batchCall rfl rfl batchWriteSet batchWriteSet_eq lastView (by decide +kernel)
    servedOnline _ _ 1 _ _ h₁ h₂).mpr
  intro r hr
  exact .inl (hrefused r hr)

end ClearFeature
