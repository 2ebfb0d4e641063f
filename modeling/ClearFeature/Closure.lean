import ClearFeature.Freshness
import Mathlib.Order.Bounds.Basic
import Mathlib.Data.Set.Finite.Lemmas
import Mathlib.Data.Set.Finite.List

/-!
# The metadata of a feature against its closure

The stamps that take part in a value are those of the raw sources it reads,
directly or through computed dependencies. The metadata is their minimum,
their latest availability, and whether all of them make a trusted claim.
-/

namespace ClearFeature

/-- The availability is known, and the source itself claims it. -/
def SourceStamp.trusted (s : SourceStamp) : Prop :=
  s.availableAt ≠ none ∧ s.availabilitySource = some .sourceProvided

namespace EvalEnv

def usedStamps (env : EvalEnv) (name : String) : Set SourceStamp :=
  {s | ∃ src, env.Uses name src ∧ Dict.get? env.stamps src = some s}

/-- The times of the direct inputs: report times of sources, `data_ts` of computed dependencies. -/
def directTimes (env : EvalEnv) (name : String) : Set Int :=
  {t | ∃ f, Dict.get? env.byName name = some f ∧
    ((∃ src ∈ f.inputs, ∃ s, Dict.get? env.stamps src = some s ∧ s.reportTs = t) ∨
      ∃ d ∈ f.deps, ∃ c, env.Evaluates d.feature (some c) ∧ c.dataTs = t)}

structure SummarisesClosure (env : EvalEnv) (name : String) (c : FeatureComputation) : Prop where
  stamped : ∀ src, env.Uses name src → ∃ s, Dict.get? env.stamps src = some s
  data_ts : IsLeast (Set.image SourceStamp.reportTs (env.usedStamps name)) c.dataTs
  available_at : ∀ a, c.availableAt = some a ↔ (∀ s ∈ env.usedStamps name, s.availableAt ≠ none) ∧
    IsGreatest {b | ∃ s ∈ env.usedStamps name, s.availableAt = some b} a
  absent : c.availableAt = none ↔ ∃ s ∈ env.usedStamps name, s.availableAt = none
  source_provided : c.availabilitySource = some .sourceProvided ↔ ∀ s ∈ env.usedStamps name, s.trusted
  max_input : IsGreatest (env.directTimes name) c.maxInputDataTs
  data_le : c.dataTs ≤ c.maxInputDataTs
  max_le : ∃ newest, IsGreatest (Set.image SourceStamp.reportTs (env.usedStamps name)) newest ∧
    c.maxInputDataTs ≤ newest

end EvalEnv

/-! ## Availability of one node -/

theorem maxAvailable_mem : ∀ {rows : List InputRow} {a : Int}, maxAvailable rows = some a →
    ∃ row ∈ rows, row.availableAt = some a
  | [], a, h => by cases h
  | [r], a, h => ⟨r, List.mem_singleton.mpr rfl, h⟩
  | r :: r₂ :: rows, a, h => by
    rw [maxAvailable] at h
    cases hr : r.availableAt with
    | none => simp [hr] at h
    | some b =>
      cases hrs : maxAvailable (r₂ :: rows) with
      | none => simp [hr, hrs] at h
      | some b' =>
        simp only [hr, hrs, Option.some.injEq] at h
        by_cases hle : b ≤ b'
        · obtain ⟨row, hm, e⟩ := maxAvailable_mem hrs
          refine ⟨row, List.mem_cons_of_mem _ hm, ?_⟩
          rw [e, ← h, max_eq_right hle]
        · refine ⟨r, List.mem_cons_self, ?_⟩
          rw [hr, ← h, max_eq_left (by omega)]

theorem maxAvailable_none : ∀ {rows : List InputRow}, rows ≠ [] → maxAvailable rows = none →
    ∃ row ∈ rows, row.availableAt = none
  | [], hne, _ => absurd rfl hne
  | [r], _, h => ⟨r, List.mem_singleton.mpr rfl, h⟩
  | r :: r₂ :: rows, _, h => by
    rw [maxAvailable] at h
    cases hr : r.availableAt with
    | none => exact ⟨r, List.mem_cons_self, hr⟩
    | some b =>
      cases hrs : maxAvailable (r₂ :: rows) with
      | none =>
        obtain ⟨row, hm, e⟩ := maxAvailable_none (List.cons_ne_nil _ _) hrs
        exact ⟨row, List.mem_cons_of_mem _ hm, e⟩
      | some b' => simp [hr, hrs] at h

/-- What the availability of a computation says about its input rows. -/
structure Claims (c : FeatureComputation) (rows : List InputRow) : Prop where
  latest : ∀ a, c.availableAt = some a → ∃ row ∈ rows, row.availableAt = some a
  absent : c.availableAt = none → ∃ row ∈ rows, row.availableAt = none
  trusted : c.availabilitySource = some .sourceProvided ↔
    c.availableAt ≠ none ∧ ∀ row ∈ rows, row.availabilitySource = some .sourceProvided

theorem computation_available {sha256 : Sha256} {v : Value} {rows : List InputRow} {degraded : Bool}
    {c : FeatureComputation} (h : computation sha256 v rows degraded = .ok c) :
    rows ≠ [] ∧ c.availableAt = maxAvailable rows := by
  obtain ⟨-, row, rest, rfl, rfl⟩ := computation_ok h
  exact ⟨List.cons_ne_nil _ _, rfl⟩

theorem computation_source {sha256 : Sha256} {v : Value} {rows : List InputRow} {degraded : Bool}
    {c : FeatureComputation} (h : computation sha256 v rows degraded = .ok c) :
    c.availabilitySource = some .sourceProvided ↔
      c.availableAt ≠ none ∧ ∀ row ∈ rows, row.availabilitySource = some .sourceProvided := by
  obtain ⟨-, row, rest, rfl, rfl⟩ := computation_ok h
  unfold computedFrom
  dsimp only
  cases ha : maxAvailable (row :: rest) with
  | none => simp
  | some a =>
    by_cases hall : ((row :: rest).all fun r => decide (r.availabilitySource = some .sourceProvided)) = true
    · simp only [hall, Option.isSome_some, Bool.and_self, if_pos]
      refine ⟨fun _ => ⟨by simp, fun r hm => ?_⟩, fun _ => trivial⟩
      simpa using List.all_eq_true.mp hall r hm
    · simp only [hall, Option.isSome_some, Bool.and_false, if_pos]
      refine ⟨fun h => (nomatch h), fun h => absurd ?_ hall⟩
      exact List.all_eq_true.mpr fun r hm => by simpa using h.2 r hm

theorem computation_claims {sha256 : Sha256} {v : Value} {rows : List InputRow} {degraded : Bool}
    {c : FeatureComputation} (h : computation sha256 v rows degraded = .ok c) : Claims c rows := by
  obtain ⟨hne, ha⟩ := computation_available h
  refine ⟨fun a h => maxAvailable_mem (ha ▸ h), fun h => maxAvailable_none hne (ha ▸ h), computation_source h⟩

namespace EvalEnv
variable {env : EvalEnv}

/-! ## Over the closure -/

theorem Node.claims {name : String} {c : FeatureComputation} {feature : FeatureDef} {sources : List (String × Value)}
    {st : DepState} (h : Node env name c feature sources st) :
    ∃ rows, Rows env feature rows ∧ Summarises c rows ∧ Claims c rows := by
  obtain ⟨rows, v, degraded, hr, hc⟩ := h.input_rows
  exact ⟨rows, hr, computation_summarises hc, computation_claims hc⟩

theorem mem_usedStamps {name : String} {feature : FeatureDef} (hf : Dict.get? env.byName name = some feature)
    {s : SourceStamp} : s ∈ env.usedStamps name ↔
      (∃ src ∈ feature.inputs, Dict.get? env.stamps src = some s) ∨
      ∃ d ∈ feature.deps, (∃ c, env.Evaluates d.feature (some c)) ∧ s ∈ env.usedStamps d.feature := by
  constructor
  · rintro ⟨src, hu, hs⟩
    cases hu with
    | source hf' hm =>
      cases hf.symm.trans hf'
      exact .inl ⟨src, hm, hs⟩
    | dep hf' hd he hu =>
      cases hf.symm.trans hf'
      exact .inr ⟨_, hd, ⟨_, he⟩, src, hu, hs⟩
  · rintro (⟨src, hm, hs⟩ | ⟨d, hd, ⟨c, he⟩, src, hu, hs⟩)
    · exact ⟨src, .source hf hm, hs⟩
    · exact ⟨src, .dep hf hd he hu, hs⟩

/-- A property of availability claims that holds of a row holds of a stamp of the closure. -/
theorem Evaluates.claimed (hb : env.base = []) (p : Option Int → Prop) (hp : ∀ c rows, Claims c rows → p c.availableAt →
    ∃ row ∈ rows, p row.availableAt) {name : String} {c : FeatureComputation} (he : env.Evaluates name (some c)) :
    p c.availableAt → ∃ s ∈ env.usedStamps name, p s.availableAt := by
  refine closure_induction (motive := fun name c => p c.availableAt → ∃ s ∈ env.usedStamps name, p s.availableAt)
    hb ?_ he
  intro name c feature sources st hn ih hc
  obtain ⟨rows, hr, -, hcl⟩ := hn.claims
  obtain ⟨row, hm, hrow⟩ := hp c rows hcl hc
  rcases hr.cases row hm with ⟨src, hsrc, stamp, hst, rfl⟩ | ⟨d, hd, cd, g, hed, rfl⟩
  · exact ⟨stamp, (mem_usedStamps hn.found).mpr (.inl ⟨src, hsrc, hst⟩), hrow⟩
  · obtain ⟨s, hs, hps⟩ := ih d hd cd hed hrow
    exact ⟨s, (mem_usedStamps hn.found).mpr (.inr ⟨d, hd, ⟨cd, hed⟩, hs⟩), hps⟩

theorem Evaluates.trusted_iff (hb : env.base = []) {name : String} {c : FeatureComputation}
    (he : env.Evaluates name (some c)) :
    c.availabilitySource = some .sourceProvided ↔ ∀ s ∈ env.usedStamps name, s.trusted := by
  refine closure_induction (motive := fun name c => c.availabilitySource = some .sourceProvided ↔
    ∀ s ∈ env.usedStamps name, s.trusted) hb ?_ he
  intro name c feature sources st hn ih
  obtain ⟨rows, hr, hsum, hcl⟩ := hn.claims
  rw [hcl.trusted]
  constructor
  · rintro ⟨hknown, hall⟩ s hs
    rcases (mem_usedStamps hn.found).mp hs with ⟨src, hm, hst⟩ | ⟨d, hd, ⟨cd, hed⟩, hs⟩
    · obtain ⟨stamp, hst', hin⟩ := hr.of_source src hm
      cases hst.symm.trans hst'
      obtain ⟨a, ha⟩ := Option.ne_none_iff_exists'.mp hknown
      obtain ⟨b, hb', -⟩ := hsum.available a ha _ hin
      exact ⟨Option.ne_none_iff_exists'.mpr ⟨b, hb'⟩, hall _ hin⟩
    · obtain ⟨g, hin⟩ := hr.of_dep d hd cd hed
      exact (ih d hd cd hed).mp (hall _ hin) s hs
  · intro hs
    have hrow : ∀ row ∈ rows, row.availableAt ≠ none ∧ row.availabilitySource = some .sourceProvided := by
      intro row hm
      rcases hr.cases row hm with ⟨src, hsrc, stamp, hst, rfl⟩ | ⟨d, hd, cd, g, hed, rfl⟩
      · exact hs stamp ((mem_usedStamps hn.found).mpr (.inl ⟨src, hsrc, hst⟩))
      · have hcd := (ih d hd cd hed).mpr fun s h => hs s ((mem_usedStamps hn.found).mpr (.inr ⟨d, hd, ⟨cd, hed⟩, h⟩))
        obtain ⟨feature', sources', st', hn'⟩ := hed.node (by simp [hb])
        obtain ⟨rows', -, -, hcl'⟩ := hn'.claims
        exact ⟨(hcl'.trusted.mp hcd).1, hcd⟩
    refine ⟨fun hnone => ?_, fun row hm => (hrow row hm).2⟩
    obtain ⟨row, hm, e⟩ := hcl.absent hnone
    exact (hrow row hm).1 e

theorem usedStamps_finite (env : EvalEnv) (name : String) : (env.usedStamps name).Finite := by
  refine Set.Finite.subset (List.finite_toSet (env.stamps.map Prod.snd)) ?_
  rintro s ⟨src, -, hs⟩
  exact List.mem_map.mpr ⟨_, Dict.mem_of_get? hs, rfl⟩

theorem Evaluates.max_input_direct (hb : env.base = []) {name : String} {c : FeatureComputation}
    (he : env.Evaluates name (some c)) : IsGreatest (env.directTimes name) c.maxInputDataTs := by
  obtain ⟨feature, sources, st, hn⟩ := he.node (by simp [hb])
  obtain ⟨rows, hr, hsum, -⟩ := hn.claims
  constructor
  · obtain ⟨row, hm, e⟩ := hsum.max_mem
    refine ⟨feature, hn.found, ?_⟩
    rcases hr.cases row hm with ⟨src, hsrc, s, hs, rfl⟩ | ⟨d, hd, cd, g, hed, rfl⟩
    · exact .inl ⟨src, hsrc, s, hs, e⟩
    · exact .inr ⟨d, hd, cd, hed, e⟩
  · rintro t ⟨f, hf, h⟩
    cases hn.found.symm.trans hf
    rcases h with ⟨src, hsrc, s, hs, rfl⟩ | ⟨d, hd, cd, hed, rfl⟩
    · obtain ⟨s', hs', hin⟩ := hr.of_source src hsrc
      cases hs.symm.trans hs'
      exact hsum.le_max _ hin
    · obtain ⟨g, hin⟩ := hr.of_dep d hd cd hed
      exact hsum.le_max _ hin

/-- The newest input is not newer than the newest stamp below. -/
theorem Evaluates.max_input_le (hb : env.base = []) {name : String} {c : FeatureComputation}
    (he : env.Evaluates name (some c)) {t : Int} (ht : ∀ s ∈ env.usedStamps name, s.reportTs ≤ t) :
    c.maxInputDataTs ≤ t := by
  obtain ⟨feature, sources, st, hn⟩ := he.node (by simp [hb])
  obtain ⟨rows, hr, hsum, -⟩ := hn.claims
  obtain ⟨row, hm, e⟩ := hsum.max_mem
  rw [← e]
  rcases hr.cases row hm with ⟨src, hsrc, s, hs, rfl⟩ | ⟨d, hd, cd, g, hed, rfl⟩
  · exact ht s ((mem_usedStamps hn.found).mpr (.inl ⟨src, hsrc, hs⟩))
  · -- a dependency's `data_ts` is itself the report time of a stamp it uses
    obtain ⟨src, s, hu, hs, e'⟩ := hed.data_ts_used hb
    have hin : s ∈ env.usedStamps name := (mem_usedStamps hn.found).mpr (.inr ⟨d, hd, ⟨cd, hed⟩, src, hu, hs⟩)
    exact le_trans (le_of_eq e'.symm) (ht s hin)

theorem Evaluates.summarisesClosure (hb : env.base = []) {name : String} {c : FeatureComputation}
    (he : env.Evaluates name (some c)) : SummarisesClosure env name c := by
  have hbound : ∀ s ∈ env.usedStamps name, c.dataTs ≤ s.reportTs ∧
      ∀ a, c.availableAt = some a → ∃ b, s.availableAt = some b ∧ b ≤ a := by
    rintro s ⟨src, hu, hs⟩
    obtain ⟨s', hs', h⟩ := hu.bounds hb he
    cases hs.symm.trans hs'
    exact h
  have habsent : c.availableAt = none ↔ ∃ s ∈ env.usedStamps name, s.availableAt = none := by
    refine ⟨he.claimed hb (· = none) fun c rows hcl => hcl.absent, ?_⟩
    rintro ⟨s, hs, hnone⟩
    by_contra hne
    obtain ⟨a, ha⟩ := Option.ne_none_iff_exists'.mp hne
    obtain ⟨b, hb', -⟩ := (hbound s hs).2 a ha
    cases hnone.symm.trans hb'
  have hlatest : ∀ a, c.availableAt = some a →
      IsGreatest {b | ∃ s ∈ env.usedStamps name, s.availableAt = some b} a := by
    intro a ha
    refine ⟨he.claimed hb (· = some a) (fun c rows hcl => hcl.latest a) ha, ?_⟩
    rintro b ⟨s, hs, hsb⟩
    obtain ⟨b', hb', hle⟩ := (hbound s hs).2 a ha
    cases hsb.symm.trans hb'
    exact hle
  obtain ⟨src, stamp, hu, hst, hdata⟩ := he.data_ts_used hb
  have hused : stamp ∈ env.usedStamps name := ⟨src, hu, hst⟩
  obtain ⟨newest, hnew, hgreatest⟩ := Set.exists_max_image (env.usedStamps name) SourceStamp.reportTs
    (usedStamps_finite env name) ⟨stamp, hused⟩
  obtain ⟨feature, sources, st, hn⟩ := he.node (by simp [hb])
  obtain ⟨rows, -, hsum, -⟩ := hn.claims
  exact {
    stamped := fun src hu => by
      obtain ⟨s, hs, -⟩ := hu.bounds hb he
      exact ⟨s, hs⟩
    data_ts := by
      refine ⟨⟨stamp, hused, hdata⟩, ?_⟩
      rintro t ⟨s, hs, rfl⟩
      exact (hbound s hs).1
    available_at := fun a => by
      refine ⟨fun ha => ⟨fun s hs hnone => ?_, hlatest a ha⟩, ?_⟩
      · cases ha.symm.trans (habsent.mpr ⟨s, hs, hnone⟩)
      · rintro ⟨hall, hgr⟩
        cases ha : c.availableAt with
        | none =>
          obtain ⟨s, hs, hnone⟩ := habsent.mp ha
          exact absurd hnone (hall s hs)
        | some a' => rw [(hlatest a' ha).unique hgr]
    absent := habsent
    source_provided := he.trusted_iff hb
    max_input := he.max_input_direct hb
    data_le := by
      obtain ⟨row, hm, e⟩ := hsum.data_mem
      exact e ▸ hsum.le_max row hm
    max_le := by
      refine ⟨newest.reportTs, ⟨⟨newest, hnew, rfl⟩, ?_⟩, he.max_input_le hb hgreatest⟩
      rintro t ⟨s, hs, rfl⟩
      exact hgreatest s hs }

end EvalEnv

/-! ## A request -/

/-- Every feature that was computed has metadata over its closure, and a result carries it. -/
theorem metadata_summarises_closure (core : ComputeCore) (view : String) (viewVersion : Int) (entityKey : EntityKey)
    (names : List String) (loader : String → Except PyErr Value) (stamps : SourceStamps) (calcTs : Int)
    (viewDef : FeatureViewDef) (results : List (String × FeatureResult)) (ctx : RequestContext)
    (hv : core.findView view viewVersion = .ok viewDef)
    (h : core.compute view viewVersion entityKey names ⟨loader, [], [], []⟩ stamps calcTs = .ok (results, ctx)) :
    (∀ name c, Dict.get? ctx.features name = some c → (core.env viewDef loader stamps calcTs).Evaluates name (some c) ∧
      (core.env viewDef loader stamps calcTs).SummarisesClosure name c) ∧
    ∀ name r, Dict.get? results name = some r → ∃ c, (core.env viewDef loader stamps calcTs).SummarisesClosure name c ∧
      r.dataTs = c.dataTs ∧ r.maxInputDataTs = some c.maxInputDataTs ∧ r.availableAt = c.availableAt ∧
      r.availabilitySource = c.availabilitySource := by
  rw [ComputeCore.compute, hv, ok_bind] at h
  have hempty := @ContextSound.empty (core.env viewDef loader stamps calcTs) rfl
  obtain ⟨hsound, hresults⟩ := computeLoop_sound hempty h
  constructor
  · intro name c hc
    have he := hsound.features name c hc
    exact ⟨he, he.summarisesClosure rfl⟩
  · intro name r hr
    rcases hresults name r hr with hold | ⟨-, c, f, he, -, rfl⟩
    · cases hold
    · exact ⟨c, he.summarisesClosure rfl, rfl, rfl, rfl, rfl⟩

/-- The closure of `mix` without its skipped dependency `gated`. -/
def mixOut : Except PyErr (List (String × FeatureResult) × RequestContext) :=
  freshCore.compute "risk" 1 userKey ["mix"] ⟨fun _ => .ok .null, [], [], []⟩ mixNew 10000020

theorem mixOut_ok : mixOut.toBool = true := by decide +kernel

theorem mixOut_view : freshCore.findView "risk" 1 = .ok freshView := by rfl

theorem metadata_summarises_closure_mix :
    (∀ name c, Dict.get? (okGet mixOut mixOut_ok).2.features name = some c →
      (freshCore.env freshView (fun _ => .ok .null) mixNew 10000020).Evaluates name (some c) ∧
      (freshCore.env freshView (fun _ => .ok .null) mixNew 10000020).SummarisesClosure name c) ∧
    ∀ name r, Dict.get? (okGet mixOut mixOut_ok).1 name = some r →
      ∃ c, (freshCore.env freshView (fun _ => .ok .null) mixNew 10000020).SummarisesClosure name c ∧
      r.dataTs = c.dataTs ∧ r.maxInputDataTs = some c.maxInputDataTs ∧ r.availableAt = c.availableAt ∧
      r.availabilitySource = c.availabilitySource :=
  metadata_summarises_closure freshCore "risk" 1 userKey ["mix"] _ mixNew 10000020 freshView _ _ mixOut_view
    (eq_ok_okGet mixOut mixOut_ok)

end ClearFeature
