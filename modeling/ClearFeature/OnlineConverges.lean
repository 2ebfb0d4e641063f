import ClearFeature.Dedup

/-!
# Online writes converge

Each write keeps the greater guard pair, so the order of writing and repeated
writes do not matter for the pair that stays, nor for its value when a pair
comes with one value.
-/

namespace ClearFeature

namespace OnlineStore

section
variable (view : String) (viewVersion : Int)

theorem write_keeps_greater {values : OnlineStore} {slot : FeatureSlot} {r x : FeatureResult}
    (hr : r.slot view viewVersion = slot) (hx : Dict.get? values slot = some x) :
    ∃ y, Dict.get? (values.write view viewVersion r).2 slot = some y ∧ (y = x ∨ y = r) ∧
      x.guard ≤ y.guard ∧ r.guard ≤ y.guard := by
  have hget := get?_write values view viewVersion r slot
  rw [hx] at hget
  by_cases hs : (decideOver (some x) r).stored = true
  · rw [if_pos ⟨hr, hs⟩] at hget
    have hle : x.guard ≤ r.guard := by
      rcases decideOver_stored.mp hs with h | ⟨h, -⟩
      · exact le_of_lt h
      · exact le_of_eq h
    exact ⟨r, hget, .inr rfl, hle, le_refl _⟩
  · rw [if_neg fun h => hs h.2] at hget
    have hge : r.guard ≤ x.guard := by
      refine le_of_not_gt fun h => hs ?_
      exact decideOver_stored.mpr (.inl h)
    exact ⟨x, hget, .inl rfl, le_refl _, hge⟩

theorem write_first {values : OnlineStore} {slot : FeatureSlot} {r : FeatureResult}
    (hr : r.slot view viewVersion = slot) (hx : Dict.get? values slot = none) :
    Dict.get? (values.write view viewVersion r).2 slot = some r := by
  have hget := get?_write values view viewVersion r slot
  rw [hx, if_pos ⟨hr, rfl⟩] at hget
  exact hget

theorem write_unchanged {values : OnlineStore} {r : FeatureResult}
    (h : (values.write view viewVersion r).1 = .skippedStale ∨ (values.write view viewVersion r).1 = .noop) :
    (values.write view viewVersion r).2 = values := by
  unfold write at h ⊢
  dsimp only at h ⊢
  rcases h with h | h
  · rw [h]
    rfl
  · rw [h]
    rfl

theorem writeMany_append (values : OnlineStore) (rs : List FeatureResult) (r : FeatureResult) :
    (values.writeMany view viewVersion (rs ++ [r])).2 =
      ((values.writeMany view viewVersion rs).2.write view viewVersion r).2 := by
  simp only [writeMany_snd, List.foldl_append, List.foldl_cons, List.foldl_nil]

/-- After a sequence of writes the slot holds one of them, of the greatest guard pair. -/
theorem writeMany_greatest {values : OnlineStore} {slot : FeatureSlot} (hx : Dict.get? values slot = none)
    (ws : List FeatureResult) (hslot : ∀ r ∈ ws, r.slot view viewVersion = slot) :
    ws = [] ∧ Dict.get? (values.writeMany view viewVersion ws).2 slot = none ∨
    ∃ e ∈ ws, Dict.get? (values.writeMany view viewVersion ws).2 slot = some e ∧ ∀ r ∈ ws, r.guard ≤ e.guard := by
  induction ws using List.reverseRecOn with
  | nil => exact .inl ⟨rfl, hx⟩
  | append_singleton ws r ih =>
    have hr : r.slot view viewVersion = slot := hslot r (by simp)
    have hws : ∀ r ∈ ws, r.slot view viewVersion = slot := fun r h => hslot r (List.mem_append_left _ h)
    rw [writeMany_append]
    refine .inr ?_
    rcases ih hws with ⟨rfl, hnone⟩ | ⟨e, he, hget, hmax⟩
    · refine ⟨r, by simp, write_first view viewVersion hr hnone, fun r' h => ?_⟩
      rw [List.nil_append, List.mem_singleton] at h
      rw [h]
    · obtain ⟨y, hy, hor, hxy, hry⟩ := write_keeps_greater view viewVersion hr hget
      refine ⟨y, ?_, hy, fun r' h => ?_⟩
      · rcases hor with rfl | rfl
        · exact List.mem_append_left _ he
        · simp
      · rcases List.mem_append.mp h with h | h
        · exact le_trans (hmax r' h) hxy
        · rw [List.mem_singleton.mp h]
          exact hry

end

end OnlineStore

/-- Every order of writing a collection, with any repetitions, leaves a record of the greatest guard pair, and the
same value. -/
theorem online_writes_converge (view : String) (viewVersion : Int) (slot : FeatureSlot) (values : OnlineStore)
    (hempty : Dict.get? values slot = none) (collection : List FeatureResult) (hne : collection ≠ [])
    (hslot : ∀ r ∈ collection, r.slot view viewVersion = slot)
    (hties : ∀ r ∈ collection, ∀ r' ∈ collection, r.guard = r'.guard →
      r.inputFingerprint = r'.inputFingerprint ∧ trustedAvailableAt r = trustedAvailableAt r' ∧
        r.value.pyEq r'.value = true) :
    ∃ top ∈ collection, (∀ r ∈ collection, r.guard ≤ top.guard) ∧
      ∀ ws : List FeatureResult, (∀ r, r ∈ ws ↔ r ∈ collection) →
        (∃ e ∈ collection, Dict.get? (values.writeMany view viewVersion ws).2 slot = some e ∧ e.guard = top.guard ∧
          e.value.pyEq top.value = true) ∧
        ∀ before r after, ws = before ++ r :: after →
          let s := (values.writeMany view viewVersion before).2
          (∀ x, Dict.get? s slot = some x →
            ∃ y, Dict.get? (s.write view viewVersion r).2 slot = some y ∧ x.guard ≤ y.guard) ∧
          ((s.write view viewVersion r).1 = .skippedStale ∨ (s.write view viewVersion r).1 = .noop →
            (s.write view viewVersion r).2 = s) := by
  rcases OnlineStore.writeMany_greatest view viewVersion hempty collection hslot with ⟨h, -⟩ | ⟨top, htop, -, hmax⟩
  · exact absurd h hne
  refine ⟨top, htop, hmax, fun ws hws => ⟨?_, fun before r after hsplit => ⟨fun x hx => ?_, ?_⟩⟩⟩
  · have hslot' : ∀ r ∈ ws, r.slot view viewVersion = slot := fun r h => hslot r ((hws r).mp h)
    rcases OnlineStore.writeMany_greatest view viewVersion hempty ws hslot' with ⟨rfl, -⟩ | ⟨e, he, hget, hmax'⟩
    · exact absurd ((hws top).mpr htop) (List.not_mem_nil)
    · have hec := (hws e).mp he
      have hguard : e.guard = top.guard := le_antisymm (hmax e hec) (hmax' top ((hws top).mpr htop))
      exact ⟨e, hec, hget, hguard, (hties e hec top htop hguard).2.2⟩
  · have hr : r ∈ collection := (hws r).mp (by rw [hsplit]; simp)
    obtain ⟨y, hy, -, hle, -⟩ := OnlineStore.write_keeps_greater view viewVersion (hslot r hr) hx
    exact ⟨y, hy, hle⟩
  · exact OnlineStore.write_unchanged view viewVersion

def twoScores : List FeatureResult := [scoreAt 1 1 "fp1", { scoreAt 2 2 "fp2" with dataTs := 5, maxInputDataTs := some 5 }]

theorem online_writes_converge_two :
    ∃ top ∈ twoScores, (∀ r ∈ twoScores, r.guard ≤ top.guard) ∧
      ∀ ws : List FeatureResult, (∀ r, r ∈ ws ↔ r ∈ twoScores) →
        (∃ e ∈ twoScores, Dict.get? (OnlineStore.writeMany [] "risk" 1 ws).2 scoreSlot = some e ∧ e.guard = top.guard ∧
          e.value.pyEq top.value = true) ∧
        ∀ before r after, ws = before ++ r :: after →
          let s := (OnlineStore.writeMany [] "risk" 1 before).2
          (∀ x, Dict.get? s scoreSlot = some x →
            ∃ y, Dict.get? (OnlineStore.write s "risk" 1 r).2 scoreSlot = some y ∧ x.guard ≤ y.guard) ∧
          ((OnlineStore.write s "risk" 1 r).1 = .skippedStale ∨ (OnlineStore.write s "risk" 1 r).1 = .noop →
            (OnlineStore.write s "risk" 1 r).2 = s) :=
  online_writes_converge "risk" 1 scoreSlot [] rfl twoScores (by decide) (by decide) (by decide +kernel)

end ClearFeature
