import ClearFeature.Eval

/-!
# Metadata over the whole closure

A feature's metadata is built from its direct inputs only. Over the recursion
it speaks about every raw source that took part in the value.
-/

namespace ClearFeature

/-! ## One node -/

theorem minTs_le : ∀ {rows : List InputRow} {t : Int},
    minTs t rows ≤ t ∧ ∀ row ∈ rows, minTs t rows ≤ row.dataTs
  | [], t => by simp [minTs]
  | row :: rows, t => by
    have ih : minTs (min t row.dataTs) rows ≤ min t row.dataTs ∧
        ∀ row' ∈ rows, minTs (min t row.dataTs) rows ≤ row'.dataTs := minTs_le
    have e : minTs t (row :: rows) = minTs (min t row.dataTs) rows := rfl
    rw [e]
    refine ⟨by omega, fun row' hm => ?_⟩
    rcases List.mem_cons.mp hm with rfl | hm
    · omega
    · exact ih.2 _ hm

theorem minTs_mem : ∀ (rows : List InputRow) (t : Int),
    minTs t rows = t ∨ ∃ row ∈ rows, row.dataTs = minTs t rows
  | [], t => .inl rfl
  | row :: rows, t => by
    have e : minTs t (row :: rows) = minTs (min t row.dataTs) rows := rfl
    rw [e]
    rcases minTs_mem rows (min t row.dataTs) with h | ⟨row', hm, h⟩
    · rw [h]
      rcases le_total t row.dataTs with hl | hl
      · exact .inl (by omega)
      · exact .inr ⟨row, List.mem_cons_self, by omega⟩
    · exact .inr ⟨row', List.mem_cons_of_mem _ hm, h⟩

theorem maxTs_ge : ∀ {rows : List InputRow} {t : Int},
    t ≤ maxTs t rows ∧ ∀ row ∈ rows, row.dataTs ≤ maxTs t rows
  | [], t => by simp [maxTs]
  | row :: rows, t => by
    have ih : max t row.dataTs ≤ maxTs (max t row.dataTs) rows ∧
        ∀ row' ∈ rows, row'.dataTs ≤ maxTs (max t row.dataTs) rows := maxTs_ge
    have e : maxTs t (row :: rows) = maxTs (max t row.dataTs) rows := rfl
    rw [e]
    refine ⟨by omega, fun row' hm => ?_⟩
    rcases List.mem_cons.mp hm with rfl | hm
    · omega
    · exact ih.2 _ hm

theorem maxTs_mem : ∀ (rows : List InputRow) (t : Int),
    maxTs t rows = t ∨ ∃ row ∈ rows, row.dataTs = maxTs t rows
  | [], t => .inl rfl
  | row :: rows, t => by
    have e : maxTs t (row :: rows) = maxTs (max t row.dataTs) rows := rfl
    rw [e]
    rcases maxTs_mem rows (max t row.dataTs) with h | ⟨row', hm, h⟩
    · rw [h]
      rcases le_total t row.dataTs with hl | hl
      · exact .inr ⟨row, List.mem_cons_self, by omega⟩
      · exact .inl (by omega)
    · exact .inr ⟨row', List.mem_cons_of_mem _ hm, h⟩

theorem maxAvailable_some : ∀ {rows : List InputRow} {a : Int}, maxAvailable rows = some a →
    ∀ row ∈ rows, ∃ b, row.availableAt = some b ∧ b ≤ a
  | [], a, h, row, hm => by cases hm
  | [r], a, h, row, hm => by
    rw [List.mem_singleton.mp hm]
    exact ⟨a, h, le_refl a⟩
  | r :: r₂ :: rows, a, h, row, hm => by
    rw [maxAvailable] at h
    cases hr : r.availableAt with
    | none => simp [hr] at h
    | some b =>
      cases hrs : maxAvailable (r₂ :: rows) with
      | none => simp [hr, hrs] at h
      | some b' =>
        simp only [hr, hrs, Option.some.injEq] at h
        rcases List.mem_cons.mp hm with rfl | hm
        · exact ⟨b, hr, by omega⟩
        · obtain ⟨a', ha', hle⟩ := maxAvailable_some hrs row hm
          exact ⟨a', ha', by omega⟩

structure Summarises (c : FeatureComputation) (rows : List InputRow) : Prop where
  data_le : ∀ row ∈ rows, c.dataTs ≤ row.dataTs
  data_mem : ∃ row ∈ rows, row.dataTs = c.dataTs
  le_max : ∀ row ∈ rows, row.dataTs ≤ c.maxInputDataTs
  max_mem : ∃ row ∈ rows, row.dataTs = c.maxInputDataTs
  available : ∀ a, c.availableAt = some a → ∀ row ∈ rows, ∃ b, row.availableAt = some b ∧ b ≤ a

theorem computation_summarises {sha256 : Sha256} {v : Value} {rows : List InputRow} {degraded : Bool}
    {c : FeatureComputation} (h : computation sha256 v rows degraded = .ok c) : Summarises c rows := by
  obtain ⟨-, row, rest, rfl, rfl⟩ := computation_ok h
  refine ⟨fun r hm => ?_, ?_, fun r hm => ?_, ?_, fun a ha => maxAvailable_some ha⟩
  · rcases List.mem_cons.mp hm with rfl | hm
    · exact minTs_le.1
    · exact minTs_le.2 _ hm
  · rcases minTs_mem rest row.dataTs with h | ⟨r, hm, h⟩
    · exact ⟨row, List.mem_cons_self, h.symm⟩
    · exact ⟨r, List.mem_cons_of_mem _ hm, h⟩
  · rcases List.mem_cons.mp hm with rfl | hm
    · exact maxTs_ge.1
    · exact maxTs_ge.2 _ hm
  · rcases maxTs_mem rest row.dataTs with h | ⟨r, hm, h⟩
    · exact ⟨row, List.mem_cons_self, h.symm⟩
    · exact ⟨r, List.mem_cons_of_mem _ hm, h⟩

theorem sourceRows_stamp {name : String} {stamps : SourceStamps} : ∀ {srcs : List String} {rows : List InputRow},
    sourceRows name stamps srcs = .ok rows → ∀ src ∈ srcs, ∃ stamp, Dict.get? stamps src = some stamp ∧
      stampRow src stamp ∈ rows
  | [], rows, h, src, hm => by cases hm
  | s :: srcs, rows, h, src, hm => by
    rw [sourceRows] at h
    cases hs : Dict.get? stamps s with
    | none => rw [hs] at h; cases h
    | some stamp =>
      simp only [hs, bind_eq_ok] at h
      obtain ⟨rest, hr, h⟩ := h
      cases h
      rcases List.mem_cons.mp hm with rfl | hm
      · exact ⟨stamp, hs, List.mem_cons_self⟩
      · obtain ⟨st, hst, hin⟩ := sourceRows_stamp hr src hm
        exact ⟨st, hst, List.mem_cons_of_mem _ hin⟩

theorem sourceRows_mem {name : String} {stamps : SourceStamps} : ∀ {srcs : List String} {rows : List InputRow},
    sourceRows name stamps srcs = .ok rows → ∀ row ∈ rows, ∃ src ∈ srcs, ∃ stamp,
      Dict.get? stamps src = some stamp ∧ row = stampRow src stamp
  | [], rows, h, row, hm => by cases h; cases hm
  | s :: srcs, rows, h, row, hm => by
    rw [sourceRows] at h
    cases hs : Dict.get? stamps s with
    | none => rw [hs] at h; cases h
    | some stamp =>
      simp only [hs, bind_eq_ok] at h
      obtain ⟨rest, hr, h⟩ := h
      cases h
      rcases List.mem_cons.mp hm with rfl | hm
      · exact ⟨s, List.mem_cons_self, stamp, hs, rfl⟩
      · obtain ⟨src, hsrc, h⟩ := sourceRows_mem hr row hm
        exact ⟨src, List.mem_cons_of_mem _ hsrc, h⟩

theorem depRows_comp {byName : List (String × FeatureDef)} : ∀ {comps : List (String × FeatureComputation)}
    {rows : List InputRow}, depRows byName comps = .ok rows → ∀ k c, (k, c) ∈ comps →
      ∃ f, Dict.get? byName k = some f ∧ depRow f c ∈ rows
  | [], rows, h, k, c, hm => by cases hm
  | (k', c') :: comps, rows, h, k, c, hm => by
    rw [depRows] at h
    cases hf : Dict.get? byName k' with
    | none => rw [hf] at h; cases h
    | some f =>
      simp only [hf, bind_eq_ok] at h
      obtain ⟨rest, hr, h⟩ := h
      cases h
      rcases List.mem_cons.mp hm with e | hm
      · cases e
        exact ⟨f, hf, List.mem_cons_self⟩
      · obtain ⟨g, hg, hin⟩ := depRows_comp hr k c hm
        exact ⟨g, hg, List.mem_cons_of_mem _ hin⟩

theorem depRows_mem {byName : List (String × FeatureDef)} : ∀ {comps : List (String × FeatureComputation)}
    {rows : List InputRow}, depRows byName comps = .ok rows → ∀ row ∈ rows, ∃ k c f, (k, c) ∈ comps ∧
      Dict.get? byName k = some f ∧ row = depRow f c
  | [], rows, h, row, hm => by cases h; cases hm
  | (k', c') :: comps, rows, h, row, hm => by
    rw [depRows] at h
    cases hf : Dict.get? byName k' with
    | none => rw [hf] at h; cases h
    | some f =>
      simp only [hf, bind_eq_ok] at h
      obtain ⟨rest, hr, h⟩ := h
      cases h
      rcases List.mem_cons.mp hm with rfl | hm
      · exact ⟨k', c', f, List.mem_cons_self, hf, rfl⟩
      · obtain ⟨k, c, g, hin, h⟩ := depRows_mem hr row hm
        exact ⟨k, c, g, List.mem_cons_of_mem _ hin, h⟩

/-! ## A node of an evaluation -/

namespace EvalEnv
variable {env : EvalEnv}

/-- How a computed feature was put together. -/
structure Node (env : EvalEnv) (name : String) (c : FeatureComputation) (feature : FeatureDef)
    (sources : List (String × Value)) (st : DepState) : Prop where
  found : Dict.get? env.byName name = some feature
  loaded : evalSources env.loader [] feature.inputs = .ok sources
  comps : ∀ k c, Dict.get? st.1 k = some c ↔ (∃ d ∈ feature.deps, d.feature = k) ∧ env.Evaluates k (some c)
  visited : ∀ d ∈ feature.deps, ∃ r, env.Evaluates d.feature r
  nodup : (Dict.keys st.1).Nodup
  finished : env.finish feature sources st = .ok c

theorem eval_node {n : Nat} {name : String} {c : FeatureComputation} (h : env.eval (n + 1) name = .ok (some c))
    (hb : Dict.get? env.base name = none) : ∃ feature sources st, Node env name c feature sources st ∧
      ∀ k c', Dict.get? st.1 k = some c' → env.eval n k = .ok (some c') := by
  simp only [eval, hb] at h
  cases hf : Dict.get? env.byName name with
  | none => rw [hf] at h; cases h
  | some feature =>
    simp only [hf, bind_eq_ok] at h
    obtain ⟨sources, hl, out, hd, h⟩ := h
    cases out with
    | none => cases h
    | some st =>
      simp only [bind_eq_ok] at h
      obtain ⟨c', hc, h⟩ := h
      cases h
      have hin : ∀ k c', Dict.get? st.1 k = some c' → (∃ d ∈ feature.deps, d.feature = k) ∧
          env.eval n k = .ok (some c') := fun k c' hk =>
        ((evalDeps_comps hd (by simp) k c').mp hk).elim (fun hk => by simp at hk) id
      refine ⟨feature, sources, st, ⟨hf, hl, fun k c' => ?_, fun d hm => ?_, evalDeps_nodup hd (by simp [Dict.keys]), hc⟩,
        fun k c' hk => (hin k c' hk).2⟩
      · refine ⟨fun hk => ⟨(hin k c' hk).1, n, (hin k c' hk).2⟩, ?_⟩
        rintro ⟨hk, m, he⟩
        have hd' := evalDeps_mono (fun _ _ => eval_mono (Nat.le_max_left n m)) hd
        exact (evalDeps_comps hd' (by simp) k c').mpr (.inr ⟨hk, eval_mono (Nat.le_max_right n m) he⟩)
      · obtain ⟨r, hr⟩ := evalDeps_visited hd d hm
        exact ⟨r, n, hr⟩

theorem Evaluates.node {name : String} {c : FeatureComputation} (h : env.Evaluates name (some c))
    (hb : Dict.get? env.base name = none) : ∃ feature sources st, Node env name c feature sources st := by
  obtain ⟨n, h⟩ := h
  obtain ⟨feature, sources, st, hn, -⟩ := eval_node (eval_succ h) hb
  exact ⟨feature, sources, st, hn⟩

/-- Induction over the computed closure: a property passes from the computed dependencies to the feature. -/
theorem Evaluates.closure_induction {motive : String → FeatureComputation → Prop} (hb : env.base = [])
    (step : ∀ name c feature sources st, Node env name c feature sources st →
      (∀ d ∈ feature.deps, ∀ cd, env.Evaluates d.feature (some cd) → motive d.feature cd) → motive name c)
    {name : String} {c : FeatureComputation} (he : env.Evaluates name (some c)) : motive name c := by
  obtain ⟨n, he⟩ := he
  induction n generalizing name c with
  | zero => cases he
  | succ n ih =>
    obtain ⟨feature, sources, st, hn, hin⟩ := eval_node he (by simp [hb])
    refine step name c feature sources st hn fun d hd cd hed => ?_
    exact ih (hin _ _ ((hn.comps _ _).mpr ⟨⟨d, hd, rfl⟩, hed⟩))

/-- The input rows of a computed feature: its stamps and its computed dependencies. -/
structure Rows (env : EvalEnv) (feature : FeatureDef) (rows : List InputRow) : Prop where
  of_source : ∀ src ∈ feature.inputs, ∃ stamp, Dict.get? env.stamps src = some stamp ∧ stampRow src stamp ∈ rows
  of_dep : ∀ d ∈ feature.deps, ∀ c, env.Evaluates d.feature (some c) → ∃ f, depRow f c ∈ rows
  cases : ∀ row ∈ rows,
    (∃ src ∈ feature.inputs, ∃ stamp, Dict.get? env.stamps src = some stamp ∧ row = stampRow src stamp) ∨
    ∃ d ∈ feature.deps, ∃ c f, env.Evaluates d.feature (some c) ∧ row = depRow f c

theorem Node.input_rows {name : String} {c : FeatureComputation} {feature : FeatureDef}
    {sources : List (String × Value)} {st : DepState} (h : Node env name c feature sources st) :
    ∃ rows v degraded, Rows env feature rows ∧ computation env.core.sha256 v rows degraded = .ok c := by
  have hf := h.finished
  simp only [finish, finishNode, bind_eq_ok] at hf
  obtain ⟨srcRows, hs, comRows, hc, udf, -, v, -, hf⟩ := hf
  refine ⟨srcRows ++ comRows, v, st.2, ⟨fun src hm => ?_, fun d hm c' he => ?_, fun row hm => ?_⟩, hf⟩
  · obtain ⟨stamp, hst, hin⟩ := sourceRows_stamp hs src hm
    exact ⟨stamp, hst, List.mem_append_left _ hin⟩
  · have hk := Dict.mem_of_get? ((h.comps d.feature c').mpr ⟨⟨d, hm, rfl⟩, he⟩)
    obtain ⟨f, -, hin⟩ := depRows_comp hc _ _ hk
    exact ⟨f, List.mem_append_right _ hin⟩
  · rcases List.mem_append.mp hm with hm | hm
    · exact .inl (sourceRows_mem hs row hm)
    · obtain ⟨k, c', f, hin, -, e⟩ := depRows_mem hc row hm
      obtain ⟨⟨d, hd, rfl⟩, he⟩ := (h.comps k c').mp (Dict.get?_of_mem h.nodup hin)
      exact .inr ⟨d, hd, c', f, he, e⟩

theorem Node.rows {name : String} {c : FeatureComputation} {feature : FeatureDef} {sources : List (String × Value)}
    {st : DepState} (h : Node env name c feature sources st) :
    ∃ rows, Rows env feature rows ∧ Summarises c rows := by
  obtain ⟨rows, v, degraded, hr, hc⟩ := h.input_rows
  exact ⟨rows, hr, computation_summarises hc⟩

/-! ## The closure -/

/-- The raw source `src` takes part in the value of `name`; skipped dependencies do not. -/
inductive Uses (env : EvalEnv) : String → String → Prop where
  | source {name src : String} {f : FeatureDef} : Dict.get? env.byName name = some f → src ∈ f.inputs →
      Uses env name src
  | dep {name src : String} {f : FeatureDef} {d : FeatureDependency} {c : FeatureComputation} :
      Dict.get? env.byName name = some f → d ∈ f.deps → env.Evaluates d.feature (some c) → Uses env d.feature src →
      Uses env name src

theorem Uses.bounds (hb : env.base = []) {name src : String} (hu : env.Uses name src) :
    ∀ {c : FeatureComputation}, env.Evaluates name (some c) → ∃ stamp, Dict.get? env.stamps src = some stamp ∧
      c.dataTs ≤ stamp.reportTs ∧
      ∀ a, c.availableAt = some a → ∃ b, stamp.availableAt = some b ∧ b ≤ a := by
  induction hu with
  | @source name src f hf hm =>
    intro c he
    obtain ⟨feature, sources, st, hn⟩ := he.node (by simp [hb])
    obtain ⟨rows, hr, hs⟩ := hn.rows
    cases hf.symm.trans hn.found
    obtain ⟨stamp, hst, hin⟩ := hr.of_source src hm
    exact ⟨stamp, hst, hs.data_le _ hin, fun a ha => hs.available a ha _ hin⟩
  | @dep name src f d cd hf hd hed _ ih =>
    intro c he
    obtain ⟨feature, sources, st, hn⟩ := he.node (by simp [hb])
    obtain ⟨rows, hr, hs⟩ := hn.rows
    cases hf.symm.trans hn.found
    obtain ⟨g, hin⟩ := hr.of_dep d hd cd hed
    obtain ⟨stamp, hst, hle, hav⟩ := ih hed
    refine ⟨stamp, hst, le_trans (hs.data_le _ hin) hle, fun a ha => ?_⟩
    obtain ⟨b, hcb, hba⟩ := hs.available a ha _ hin
    obtain ⟨b', hb', hle'⟩ := hav b hcb
    exact ⟨b', hb', le_trans hle' hba⟩

theorem Evaluates.data_ts_used (hb : env.base = []) {name : String} {c : FeatureComputation}
    (he : env.Evaluates name (some c)) : ∃ src stamp, env.Uses name src ∧
      Dict.get? env.stamps src = some stamp ∧ stamp.reportTs = c.dataTs := by
  refine closure_induction (motive := fun name c => ∃ src stamp, env.Uses name src ∧
    Dict.get? env.stamps src = some stamp ∧ stamp.reportTs = c.dataTs) hb ?_ he
  intro name c feature sources st hn ih
  obtain ⟨rows, hr, hs⟩ := hn.rows
  obtain ⟨row, hm, e⟩ := hs.data_mem
  rcases hr.cases row hm with ⟨src, hsrc, stamp, hst, rfl⟩ | ⟨d, hd, cd, g, hed, rfl⟩
  · exact ⟨src, stamp, .source hn.found hsrc, hst, e⟩
  · obtain ⟨src, stamp, hu, hst, e'⟩ := ih d hd cd hed
    exact ⟨src, stamp, .dep hn.found hd hed hu, hst, e'.trans e⟩

/-! ## Two requests -/

/-- `k` is `name` or a dependency of something below `name`, computed or not. -/
inductive Below (byName : List (String × FeatureDef)) : String → String → Prop where
  | refl (name : String) : Below byName name name
  | dep {name k : String} {f : FeatureDef} {d : FeatureDependency} : Dict.get? byName name = some f → d ∈ f.deps →
      Below byName d.feature k → Below byName name k

/-- No stamp read below `name` is older in `env'` than in `env`. -/
def Fresher (env env' : EvalEnv) (name : String) : Prop :=
  ∀ k f, Below env.byName name k → Dict.get? env.byName k = some f → ∀ src ∈ f.inputs, ∀ s s',
    Dict.get? env.stamps src = some s → Dict.get? env'.stamps src = some s' → s.reportTs ≤ s'.reportTs

/-- Both evaluations leave out the same features below `name`. -/
def SameSkips (env env' : EvalEnv) (name : String) : Prop :=
  ∀ k, Below env.byName name k → (env.Evaluates k none ↔ env'.Evaluates k none)

/-- Stamps that are nowhere older give a summary that is nowhere older, if the same features are skipped. -/
theorem Evaluates.summary_mono {env env' : EvalEnv} (hb : env.base = []) (hb' : env'.base = [])
    (hby : env'.byName = env.byName) {name : String} {c : FeatureComputation} (he : env.Evaluates name (some c)) :
    Fresher env env' name → SameSkips env env' name → ∀ c', env'.Evaluates name (some c') →
      c.dataTs ≤ c'.dataTs ∧ c.maxInputDataTs ≤ c'.maxInputDataTs := by
  refine closure_induction (motive := fun name c => Fresher env env' name → SameSkips env env' name →
    ∀ c', env'.Evaluates name (some c') → c.dataTs ≤ c'.dataTs ∧ c.maxInputDataTs ≤ c'.maxInputDataTs) hb ?_ he
  intro name c feature sources st hn ih hle hskip c' he'
  obtain ⟨rows, hr, hs⟩ := hn.rows
  obtain ⟨feature', sources', st', hn'⟩ := he'.node (by simp [hb'])
  obtain ⟨rows', hr', hs'⟩ := hn'.rows
  cases (hby ▸ hn'.found).symm.trans hn.found
  have hsrc : ∀ src ∈ feature.inputs, ∀ s s', Dict.get? env.stamps src = some s →
      Dict.get? env'.stamps src = some s' → s.reportTs ≤ s'.reportTs := fun src hm =>
    hle name feature (.refl name) hn.found src hm
  have hdep : ∀ d ∈ feature.deps, ∀ cd cd', env.Evaluates d.feature (some cd) → env'.Evaluates d.feature (some cd') →
      cd.dataTs ≤ cd'.dataTs := fun d hd cd cd' h h' =>
    (ih d hd cd h (fun k f hk => hle k f (.dep hn.found hd hk)) (fun k hk => hskip k (.dep hn.found hd hk)) cd' h').1
  have hsame : ∀ d ∈ feature.deps, (env.Evaluates d.feature none ↔ env'.Evaluates d.feature none) := fun d hd =>
    hskip _ (.dep hn.found hd (.refl _))
  constructor
  · -- the row that gives the new minimum stands against an older row of the old computation
    obtain ⟨row', hm', e'⟩ := hs'.data_mem
    rw [← e']
    rcases hr'.cases row' hm' with ⟨src, hm, s', hs₁', rfl⟩ | ⟨d, hd, cd', g, hed', rfl⟩
    · obtain ⟨s, hst, hin⟩ := hr.of_source src hm
      exact le_trans (hs.data_le _ hin) (hsrc src hm s s' hst hs₁')
    · obtain ⟨r, hrd⟩ := hn.visited d hd
      cases r with
      | none => cases Evaluates.det ((hsame d hd).mp hrd) hed'
      | some cd =>
        obtain ⟨g', hin⟩ := hr.of_dep d hd cd hrd
        exact le_trans (hs.data_le _ hin) (hdep d hd cd cd' hrd hed')
  · obtain ⟨row, hm, e⟩ := hs.max_mem
    rw [← e]
    rcases hr.cases row hm with ⟨src, hin, s, hst, rfl⟩ | ⟨d, hd, cd, g, hed, rfl⟩
    · obtain ⟨s', hst', hin'⟩ := hr'.of_source src hin
      exact le_trans (hsrc src hin s s' hst hst') (hs'.le_max _ hin')
    · obtain ⟨r, hrd⟩ := hn'.visited d hd
      cases r with
      | none => cases Evaluates.det ((hsame d hd).mpr hrd) hed
      | some cd' =>
        obtain ⟨g', hin'⟩ := hr'.of_dep d hd cd' hrd
        exact le_trans (hdep d hd cd cd' hed hrd) (hs'.le_max _ hin')

end EvalEnv

end ClearFeature
