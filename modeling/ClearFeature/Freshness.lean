import ClearFeature.Lineage
import ClearFeature.Stores
import ClearFeature.Validator

/-!
# Fresher inputs and the online guard

The guard pair of a result grows with the stamps below the feature, so a result
from older stamps never passes the guard of one from newer stamps. It can only
tie with it.
-/

namespace ClearFeature

theorem result_guard (c : FeatureComputation) (ref : FeatureRef) (key : EntityKey) (calcTs : Int) :
    (c.result ref key calcTs).guard = toLex (c.dataTs, c.maxInputDataTs) := rfl

theorem not_skipped {env : EvalEnv} : ∀ (n : Nat) (name : String),
    (∀ k f, EvalEnv.Below env.byName name k → Dict.get? env.byName k = some f →
      ∀ d ∈ f.deps, d.maxInputAgeSeconds = none) → env.eval n name ≠ .ok none
  | 0, name, _, h => by cases h
  | n + 1, name, hn, h => by
    have hloop : ∀ (deps : List FeatureDependency) (st : DepState), (∀ d ∈ deps, d.maxInputAgeSeconds = none) →
        (∀ d ∈ deps, env.eval n d.feature ≠ .ok none) → evalDeps (env.eval n) env.calcTs deps st ≠ .ok none := by
      intro deps
      induction deps with
      | nil => intro st _ _ h; cases h
      | cons d deps ih =>
        intro st hd hr h
        simp only [evalDeps, bind_eq_ok] at h
        obtain ⟨comp, hc, out, ha, h⟩ := h
        cases comp with
        | none => exact hr d List.mem_cons_self hc
        | some c =>
          simp only [addDep, edgeIsStale, hd d List.mem_cons_self, ok_bind, Bool.false_and, Bool.false_eq_true,
            if_false] at ha
          cases ha
          exact ih _ (fun d' hd' => hd d' (List.mem_cons_of_mem _ hd'))
            (fun d' hd' => hr d' (List.mem_cons_of_mem _ hd')) h
    simp only [EvalEnv.eval] at h
    cases hb : Dict.get? env.base name with
    | some c => rw [hb] at h; cases h
    | none =>
      cases hf : Dict.get? env.byName name with
      | none => simp only [hb, hf] at h; cases h
      | some f =>
        simp only [hb, hf, bind_eq_ok] at h
        obtain ⟨sources, -, out, hd, h⟩ := h
        cases out with
        | none =>
          refine hloop _ _ (hn name f (.refl name) hf) (fun d hdm => ?_) hd
          exact not_skipped n d.feature fun k g hk => hn k g (.dep hf hdm hk)
        | some st =>
          obtain ⟨c, -, h⟩ := bind_eq_ok.mp h
          cases h

theorem Below.trans {byName : List (String × FeatureDef)} {a b c : String} (h : EvalEnv.Below byName a b)
    (h' : EvalEnv.Below byName b c) : EvalEnv.Below byName a c := by
  induction h with
  | refl name => exact h'
  | dep hf hd _ ih => exact .dep hf hd (ih h')

theorem SameSkips.of_no_bounds {env env' : EvalEnv} (hby : env'.byName = env.byName) {name : String}
    (hn : ∀ k f, EvalEnv.Below env.byName name k → Dict.get? env.byName k = some f →
      ∀ d ∈ f.deps, d.maxInputAgeSeconds = none) : EvalEnv.SameSkips env env' name := by
  intro k hk
  have hn' : ∀ k' f, EvalEnv.Below env.byName k k' → Dict.get? env.byName k' = some f →
      ∀ d ∈ f.deps, d.maxInputAgeSeconds = none := fun k' f hk' => hn k' f (Below.trans hk hk')
  constructor
  · rintro ⟨n, h⟩
    exact absurd h (not_skipped n k hn')
  · rintro ⟨n, h⟩
    exact absurd h (not_skipped n k (hby ▸ hn'))

/-- A result from stamps nowhere newer never overtakes the guard; unless it ties with the stored result and has
other inputs or another trusted availability, writing it changes nothing. -/
theorem fresher_inputs_win (core : ComputeCore) (view : String) (viewVersion : Int) (viewDef : FeatureViewDef)
    (hview : core.findView view viewVersion = .ok viewDef) (key : EntityKey) (f : String)
    (loader loader' : String → Except PyErr Value) (stamps stamps' : SourceStamps) (calcTs calcTs' : Int)
    (names names' : List String) (results results' : List (String × FeatureResult)) (ctx ctx' : RequestContext)
    (h : core.compute view viewVersion key names ⟨loader, [], [], []⟩ stamps calcTs = .ok (results, ctx))
    (h' : core.compute view viewVersion key names' ⟨loader', [], [], []⟩ stamps' calcTs' = .ok (results', ctx'))
    (r r' : FeatureResult) (hr : Dict.get? results f = some r) (hr' : Dict.get? results' f = some r')
    (hfresh : EvalEnv.Fresher (core.env viewDef loader stamps calcTs) (core.env viewDef loader' stamps' calcTs') f)
    (hskip : EvalEnv.SameSkips (core.env viewDef loader stamps calcTs) (core.env viewDef loader' stamps' calcTs') f)
    (online : OnlineStore) (hw : (online.write view viewVersion r').1.stored = true) :
    r.guard ≤ r'.guard ∧
    (r.guard ≠ r'.guard ∨ r.inputFingerprint = r'.inputFingerprint ∧ availabilityDiffers r r' = false →
      ∀ slot, Dict.get? ((online.write view viewVersion r').2.write view viewVersion r).2 slot =
        Dict.get? (online.write view viewVersion r').2 slot) := by
  obtain ⟨v, hv, hs⟩ := compute_sound h
  obtain ⟨v', hv', hs'⟩ := compute_sound h'
  cases hview.symm.trans hv
  cases hview.symm.trans hv'
  obtain ⟨-, c, fd, he, hf, rfl⟩ := hs f r hr
  obtain ⟨-, c', fd', he', hf', rfl⟩ := hs' f r' hr'
  cases hf.symm.trans hf'
  have hb' : (core.env viewDef loader' stamps' calcTs').base = [] := rfl
  have hby : (core.env viewDef loader' stamps' calcTs').byName = (core.env viewDef loader stamps calcTs).byName := rfl
  have hmono := he.summary_mono rfl hb' hby hfresh hskip c' he'
  have hle : (c.result fd.ref key calcTs).guard ≤ (c'.result fd.ref key calcTs').guard := by
    rw [result_guard, result_guard, Prod.Lex.toLex_le_toLex]
    rcases lt_or_eq_of_le hmono.1 with h | h
    · exact .inl h
    · exact .inr ⟨h, hmono.2⟩
  refine ⟨hle, fun hcase slot => ?_⟩
  rw [OnlineStore.get?_write _ _ _ (c.result fd.ref key calcTs)]
  -- both results are filed under one slot, and the first write left its own result there
  have hslot : (c.result fd.ref key calcTs).slot view viewVersion = (c'.result fd.ref key calcTs').slot view viewVersion :=
    rfl
  by_cases hsl : (c'.result fd.ref key calcTs').slot view viewVersion = slot
  · subst hsl
    have hcur : Dict.get? (online.write view viewVersion (c'.result fd.ref key calcTs')).2
        ((c'.result fd.ref key calcTs').slot view viewVersion) = some (c'.result fd.ref key calcTs') := by
      rw [OnlineStore.get?_write, if_pos ⟨rfl, hw⟩]
    rw [hcur, if_neg]
    rintro ⟨-, hst⟩
    rcases decideOver_stored.mp hst with hlt | ⟨heq, hne⟩
    · exact absurd hle (not_le_of_gt hlt)
    · rcases hcase with hc | ⟨hfp, hav⟩
      · exact hc heq.symm
      · rcases hne with hne | hne
        · exact hne (congrArg (·.getD "") hfp)
        · rw [hav] at hne; cases hne
  · rw [if_neg]
    rintro ⟨e, -⟩
    exact hsl (hslot ▸ e)

/-! ## Ties and skips -/

def tripleFeature : FeatureDef where
  name := "triple"
  kind := .udf
  featureVersion := 1
  udf := "u.b"
  dtype := "int"
  status := "live"
  inputs := ["a", "b", "c"]
  lifecycle := .live
  ok := by decide

def baseFeature : FeatureDef where
  name := "base"
  kind := .udf
  featureVersion := 1
  udf := "u.one"
  dtype := "int"
  status := "live"
  inputs := ["a", "c"]
  lifecycle := .live
  ok := by decide

def recentFeature : FeatureDef where
  name := "recent"
  kind := .udf
  featureVersion := 1
  udf := "u.one"
  dtype := "int"
  status := "live"
  inputs := ["b"]
  lifecycle := .live
  ok := by decide

/-- Skipped once `recent` is older than ten seconds. -/
def gatedFeature : FeatureDef where
  name := "gated"
  kind := .udf
  featureVersion := 1
  udf := "u.one"
  dtype := "int"
  status := "live"
  deps := [⟨{ feature := "recent", maxInputAgeSeconds := some 10 }, by decide⟩]
  lifecycle := .live
  ok := by decide

theorem optionalGated_ok : ({ feature := "gated", required := false } : DependencyFields).check = .ok () := by decide

def mixFeature : FeatureDef where
  name := "mix"
  kind := .udf
  featureVersion := 1
  udf := "u.count"
  dtype := "int"
  status := "live"
  deps := [⟨{ feature := "base" }, by decide⟩, ⟨{ feature := "gated", required := false }, optionalGated_ok⟩]
  lifecycle := .live
  ok := by decide

/-- Its value has one of two key orders; the canonical text is the same. -/
def orderFeature : FeatureDef where
  name := "order"
  kind := .udf
  featureVersion := 1
  udf := "u.order"
  dtype := "dict"
  status := "live"
  inputs := ["a", "b"]
  lifecycle := .live
  ok := by decide

def keysFeature : FeatureDef where
  name := "keys"
  kind := .udf
  featureVersion := 1
  udf := "u.keys"
  dtype := "list"
  status := "live"
  deps := [⟨{ feature := "order" }, by decide⟩]
  lifecycle := .live
  ok := by decide

def freshView : FeatureViewDef where
  name := "risk"
  entity := "user"
  keyFields := ["user_id"]
  viewVersion := 1
  owner := "o"
  status := "live"
  features := [tripleFeature, baseFeature, recentFeature, gatedFeature, mixFeature, orderFeature, keysFeature]
  ok := by decide
  groups_nodup := by exact List.nodup_nil

def hashOne : String := "sha256:6b86b273ff34fce19d6b804eff5a3f5747ada4eaa22f1d49c01e52ddb7875b4b"

def hashXY : String := "sha256:689a8f1db95402580476e38c264278ce7b1e664320cfb4e9ae8d3a908cf09964"

def freshTable : List (List JsonTok × String) :=
  [(canonicalValueJson (.int 5),
    "ef2d127de37b942baad06145e54b0c619a1f22327b2ebbcfbec78f5564afe39d"),
   (fingerprintText [("source:a", 1, "ha"), ("source:b", 5, "hb5"), ("source:c", 10, "hc")],
    "1e6ede5b44a9f83810620c29889fbe083d541ac9f601e1d433a37731b3d4c02a"),
   (canonicalValueJson (.int 6),
    "e7f6c011776e8db7cd330b54174fd76f7d0216b612387a5ffcfb81e6f0919683"),
   (fingerprintText [("source:a", 1, "ha"), ("source:b", 6, "hb6"), ("source:c", 10, "hc")],
    "4d1dddecc2da50e4debc6b777ef1193f97b9d6123b6f524b9faba877f573f6c8"),
   (canonicalValueJson (.int 1),
    "6b86b273ff34fce19d6b804eff5a3f5747ada4eaa22f1d49c01e52ddb7875b4b"),
   (fingerprintText [("source:a", 5, "ha"), ("source:c", 6, "hc6")],
    "b97799a64ac846d4f641e2dbb69486a55666f29157d594fcb6892d82d21c1013"),
   (fingerprintText [("source:a", 5, "ha"), ("source:c", 7, "hc7")],
    "56efb9a53d48239e4c8cd5d8826b89aff09ca41d63d00711c8a50ae303475210"),
   (fingerprintText [("source:b", 8, "hb8")],
    "7e3a7daeb974d5a115c6c24b5b951cf7a96e42ab0ace3bfe899c0c5be772887b"),
   (fingerprintText [("source:b", 9, "hb9")],
    "564d73a9b15877563eda6611d89fe37f98553b1247a5ef2950f59ad0ba9cd071"),
   (fingerprintText [("recent:v1", 8, hashOne)],
    "870a5b2b327be578c1a9f2d45419bbee6d6882de454fa818ae42052b9a368677"),
   (canonicalValueJson (.int 2),
    "d4735e3a265e16eee03f59718b9b5d03019c07d8b6c51f90da3a666eec13ab35"),
   (fingerprintText [("base:v1", 5, hashOne), ("gated:v1", 8, hashOne)],
    "3b5e6e38ff8572a66bd023ad2bbcdadbdd701ddcfda46b568520fd2d9fd63693"),
   (fingerprintText [("base:v1", 5, hashOne)],
    "285f876869dd4ac18342d643869809ccf165d56df24cfe7acb9e94050d246236"),
   (canonicalValueJson (.obj [("x", .int 1), ("y", .int 2)]),
    "689a8f1db95402580476e38c264278ce7b1e664320cfb4e9ae8d3a908cf09964"),
   (fingerprintText [("source:a", 1, "ha"), ("source:b", 5, "hb5")],
    "916bdcabd899bcc2215a9e83adfbcc9ee4af7cd938d0a85cf8a7360f4c7698e3"),
   (fingerprintText [("source:a", 1, "ha"), ("source:b", 6, "hb6")],
    "aaf2167a45ca23c486860dd85cb0728e64734efc7d742d5aec9b6e5d93a58af7"),
   (canonicalValueJson (.arr [.str "x", .str "y"]),
    "01f650e85c95620160b40ed22626dca932e9f700ffe599be060da184dd4d7822"),
   (canonicalValueJson (.arr [.str "y", .str "x"]),
    "130ee8e596eaf850c202d0c8c0b1f9a9ba5c223e21c0b2d357c56173b1fc5f90"),
   (fingerprintText [("order:v1", 1, hashXY)],
    "ffa2699209350b4ca4b3c470e9352f3faad9d354de1f355b04bf50c111dd16ab"),
   (fingerprintText [("source:a", 2, "ha2"), ("source:b", 6, "hb6")],
    "497a2bccb0a3a7d990e7aee83089f7328e6d9b3a3d601aacccac37877f7d1163"),
   (fingerprintText [("order:v1", 2, hashXY)],
    "74acdfcabb830ab90959f598d1934a85b6971952089098ecd4c546f60529f70e")]

def xThenY : Value := .obj [("x", .int 1), ("y", .int 2)]

def yThenX : Value := .obj [("y", .int 2), ("x", .int 1)]

def freshUdfs : List (String × Udf) :=
  [("u.one", fun _ _ => .ok (.int 1)),
   ("u.b", fun sources _ => .ok ((Dict.get? sources "b").getD .null)),
   ("u.count", fun _ deps => .ok (.int deps.length)),
   ("u.order", fun sources _ => .ok (match Dict.get? sources "b" with
      | some (.int 5) => xThenY
      | _ => yThenX)),
   ("u.keys", fun _ deps => .ok (match Dict.get? deps "order" with
      | some (.obj kvs) => .arr (kvs.map fun kv => .str kv.1)
      | _ => .null))]

def freshCore : ComputeCore where
  registry := userRegistry freshView
  udfs := freshUdfs
  sha256 := digestTable freshTable

def stampAt (t : Int) (hash : String) (h : isBlank hash = false) : SourceStamp :=
  { reportTs := t, contentHash := hash, hash_ok := h }

def trustedAt (t : Int) (hash : String) (h : isBlank hash = false) : SourceStamp :=
  { reportTs := t, contentHash := hash, availableAt := some t, availabilitySource := some .sourceProvided, hash_ok := h }

def freshRun (f : String) (b : Int) (stamps : SourceStamps) (calcTs : Int) : Option FeatureResult :=
  match freshCore.compute "risk" 1 userKey [f] ⟨fun s => .ok (.int (if s = "b" then b else 0)), [], [], []⟩ stamps calcTs with
  | .ok (results, _) => Dict.get? results f
  | .error _ => none

/-- Nowhere older, the same stamp at the same time, newer somewhere. -/
def NewerStamps (stamps stamps' : SourceStamps) : Prop :=
  Dict.keys stamps = Dict.keys stamps' ∧
  (∀ p ∈ stamps, ∃ s' ∈ Dict.get? stamps' p.1, p.2.reportTs ≤ s'.reportTs ∧ (p.2.reportTs = s'.reportTs → p.2 = s')) ∧
  ∃ p ∈ stamps, ∃ s' ∈ Dict.get? stamps' p.1, p.2.reportTs < s'.reportTs

instance (stamps stamps' : SourceStamps) : Decidable (NewerStamps stamps stamps') := inferInstanceAs (Decidable (_ ∧ _ ∧ _))

/-- Writing the newer result to an empty store and then the older one leaves another value than the newer one. -/
def replaced (r r' : Option FeatureResult) : Bool :=
  match r, r' with
  | some r, some r' =>
    let after := ((OnlineStore.write [] "risk" 1 r').2.write "risk" 1 r).2
    match after.get "risk" 1 userKey r'.ref.name 1 with
    | some e => !e.value.pyEq r'.value
    | none => false
  | _, _ => false

def tripleOld : SourceStamps :=
  [("a", stampAt 1 "ha" rfl), ("b", stampAt 5 "hb5" (by decide)), ("c", stampAt 10 "hc" (by decide))]

def tripleNew : SourceStamps :=
  [("a", stampAt 1 "ha" rfl), ("b", stampAt 6 "hb6" (by decide)), ("c", stampAt 10 "hc" (by decide))]

def mixOld : SourceStamps :=
  [("a", stampAt 5 "ha" rfl), ("b", stampAt 8 "hb8" rfl), ("c", stampAt 6 "hc6" (by decide))]

def mixNew : SourceStamps :=
  [("a", stampAt 5 "ha" rfl), ("b", stampAt 9 "hb9" (by decide)), ("c", stampAt 7 "hc7" (by decide))]

def keysOld : SourceStamps := [("a", trustedAt 1 "ha" (by decide)), ("b", trustedAt 5 "hb5" (by decide))]

def keysNew : SourceStamps := [("a", trustedAt 1 "ha" (by decide)), ("b", trustedAt 6 "hb6" (by decide))]

/-- A tie with another fingerprint, an optional dependency skipped by the newer computation only, and a tie with
another trusted availability. -/
theorem fresher_inputs_replaced : validateRegistry freshCore.registry = .ok () ∧
    (NewerStamps tripleOld tripleNew ∧ replaced (freshRun "triple" 5 tripleOld 20) (freshRun "triple" 6 tripleNew 20)) ∧
    (NewerStamps mixOld mixNew ∧ replaced (freshRun "mix" 8 mixOld 20) (freshRun "mix" 9 mixNew 10000020)) ∧
    (NewerStamps keysOld keysNew ∧ replaced (freshRun "keys" 5 keysOld 20) (freshRun "keys" 6 keysNew 20)) := by
  decide +kernel

/-- Newer stamps for the feature `order` that `keys` depends on. -/
def keysNewer : SourceStamps := [("a", trustedAt 2 "ha2" (by decide)), ("b", trustedAt 6 "hb6" (by decide))]

def keysOut (b : Int) (stamps : SourceStamps) : Except PyErr (List (String × FeatureResult) × RequestContext) :=
  freshCore.compute "risk" 1 userKey ["keys"] ⟨fun s => .ok (.int (if s = "b" then b else 0)), [], [], []⟩ stamps 20

theorem keysOut_ok : (keysOut 5 keysOld).toBool = true ∧ (keysOut 6 keysNewer).toBool = true := by decide +kernel

def olderKeys : FeatureResult :=
  ((Dict.get? (okGet (keysOut 5 keysOld) keysOut_ok.1).1 "keys").get (by decide +kernel))

def newerKeys : FeatureResult :=
  ((Dict.get? (okGet (keysOut 6 keysNewer) keysOut_ok.2).1 "keys").get (by decide +kernel))

theorem keys_features : Dict.get? (featuresByName freshView.features) "keys" = some keysFeature ∧
    Dict.get? (featuresByName freshView.features) "order" = some orderFeature := by
  decide +kernel

theorem below_keys {n k : String} (h : EvalEnv.Below (featuresByName freshView.features) n k) :
    (n = "keys" → k = "keys" ∨ k = "order") ∧ (n = "order" → k = "order") := by
  induction h with
  | refl name => exact ⟨.inl, id⟩
  | dep hf hd _ ih =>
    refine ⟨?_, ?_⟩
    · intro hn
      subst hn
      cases hf.symm.trans keys_features.1
      rw [List.mem_singleton.mp hd] at ih
      exact .inr (ih.2 rfl)
    · intro hn
      subst hn
      cases hf.symm.trans keys_features.2
      cases hd

/-- The newer result is stored, and the older one does not replace it. -/
theorem fresher_inputs_win_keys : olderKeys.guard < newerKeys.guard ∧
    ∀ slot, Dict.get? ((OnlineStore.write [] "risk" 1 newerKeys).2.write "risk" 1 olderKeys).2 slot =
      Dict.get? (OnlineStore.write [] "risk" 1 newerKeys).2 slot := by
  have hold := eq_ok_okGet (keysOut 5 keysOld) keysOut_ok.1
  have hnew := eq_ok_okGet (keysOut 6 keysNewer) keysOut_ok.2
  have hlt : olderKeys.guard ≠ newerKeys.guard := by decide +kernel
  have hfeatures : ∀ k f, EvalEnv.Below (featuresByName freshView.features) "keys" k →
      Dict.get? (featuresByName freshView.features) k = some f → f = keysFeature ∨ f = orderFeature := by
    intro k f hk hf
    rcases (below_keys hk).1 rfl with rfl | rfl
    · exact .inl (Option.some.inj (hf.symm.trans keys_features.1))
    · exact .inr (Option.some.inj (hf.symm.trans keys_features.2))
  obtain ⟨hle, hkept⟩ := fresher_inputs_win freshCore "risk" 1 freshView (by decide +kernel) userKey "keys" _ _ keysOld
    keysNewer 20 20 ["keys"] ["keys"] (okGet (keysOut 5 keysOld) keysOut_ok.1).1
    (okGet (keysOut 6 keysNewer) keysOut_ok.2).1 (okGet (keysOut 5 keysOld) keysOut_ok.1).2
    (okGet (keysOut 6 keysNewer) keysOut_ok.2).2 hold hnew olderKeys newerKeys (Option.some_get _).symm
    (Option.some_get _).symm (by
      intro k f hk hf src hs s s' h h'
      rcases hfeatures k f hk hf with rfl | rfl
      · cases hs
      · simp only [orderFeature, List.mem_cons, List.not_mem_nil, or_false] at hs
        rcases hs with rfl | rfl
        · cases h
          cases h'
          decide
        · cases h
          cases h'
          decide) (by
      refine SameSkips.of_no_bounds ?_ fun k f hk hf d hd => ?_
      · rfl
      · rcases hfeatures k f hk hf with rfl | rfl
        · rw [List.mem_singleton.mp hd]
        · cases hd) [] (by decide +kernel)
  exact ⟨lt_of_le_of_ne hle hlt, hkept (.inl hlt)⟩

end ClearFeature
