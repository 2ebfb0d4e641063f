import ClearFeature.Freshness
import ClearFeature.Planner
import ClearFeature.Resolution

/-!
# The graphs that validation accepts

The depth computation comes to an end on every view, and it accepts exactly the
acyclic graphs whose chains fit under the cap. On such a view the planner and
the core meet no feature twice on their way down.
-/

namespace ClearFeature

/-! ## Graphs -/

/-- Every dependency names a feature of the view. -/
def Resolvable (view : FeatureViewDef) : Prop :=
  ∀ f ∈ view.features, ∀ d ∈ f.deps, ∃ g ∈ view.features, g.name = d.feature

/-- No feature depends on itself, directly or through others. -/
def Acyclic (byName : List (String × FeatureDef)) : Prop := ∀ n, ¬ Relation.TransGen (Needs byName) n n

/-- A list of features each of which needs the next. -/
def DependencyChain (byName : List (String × FeatureDef)) (names : List String) : Prop := names.IsChain (Needs byName)

/-- No chain has more than `cap` steps. -/
def ChainsWithin (byName : List (String × FeatureDef)) (cap : Nat) : Prop :=
  ∀ n names, DependencyChain byName (n :: names) → names.length ≤ cap

/-- `view.max_dependency_depth or DEFAULT_DEPENDENCY_DEPTH_CAP` -/
def FeatureViewDef.depthCap (view : FeatureViewDef) : Nat := view.maxDependencyDepth.getD defaultDependencyDepthCap

/-! ## What is accepted -/

theorem transGen_lt {byName : List (String × FeatureDef)} {rank : String → Nat}
    (hlt : ∀ n m, Needs byName n m → rank m < rank n) {n m : String} (h : Relation.TransGen (Needs byName) n m) :
    rank m < rank n := by
  induction h with
  | single h => exact hlt _ _ h
  | tail _ h ih => exact (hlt _ _ h).trans ih

theorem chain_length_le {byName : List (String × FeatureDef)} {rank : String → Nat}
    (hlt : ∀ n m, Needs byName n m → rank m < rank n) : ∀ {names : List String} {n : String},
    DependencyChain byName (n :: names) → names.length ≤ rank n
  | [], n, _ => Nat.zero_le _
  | m :: names, n, h => by
    obtain ⟨hneeds, hrest⟩ := List.isChain_cons_cons.mp h
    have hlen : names.length ≤ rank m := chain_length_le hlt hrest
    have hrank := hlt n m hneeds
    rw [List.length_cons]
    omega

theorem accepted_sound {view : FeatureViewDef} {u : Unit}
    (h : validateDependencyGraph view (featuresByName view.features) = .ok u) :
    Acyclic (featuresByName view.features) ∧ ChainsWithin (featuresByName view.features) view.depthCap := by
  obtain ⟨memo, hranked, hall⟩ := graph_ranked h
  have hlt := fun n m h => hranked.lt hall (n := n) (m := m) h
  refine ⟨fun n hcycle => ?_, fun n names hchain => ?_⟩
  · exact Nat.lt_irrefl _ (transGen_lt hlt hcycle)
  · exact (chain_length_le hlt hchain).trans (hranked.le_cap n)

/-! ## What is acceptable -/

def Deep (byName : List (String × FeatureDef)) (n : String) (depth : Nat) : Prop :=
  ∃ names, DependencyChain byName (n :: names) ∧ names.length = depth

/-- Each entry of a memo is the length of a chain. -/
def Realised (byName : List (String × FeatureDef)) (memo : List (String × Nat)) : Prop :=
  ∀ n depth, Dict.get? memo n = some depth → Deep byName n depth

section
variable {view : FeatureViewDef} {byName : List (String × FeatureDef)} {cap : Nat}

theorem depthsOf_complete {rec : List (String × Nat) → String → Except PyErr (Nat × List (String × Nat))} :
    ∀ {deps : List FeatureDependency} {memo : List (String × Nat)},
    (∀ d ∈ deps, ∀ memo, Realised byName memo → ∃ depth memo', rec memo d.feature = .ok (depth, memo') ∧
      Realised byName memo' ∧ Deep byName d.feature depth) →
    Realised byName memo → ∃ depths memo', depthsOf rec memo deps = .ok (depths, memo') ∧ Realised byName memo' ∧
      ∀ depth ∈ depths, ∃ d ∈ deps, Deep byName d.feature depth
  | [], memo, _, hm => ⟨[], memo, rfl, hm, fun depth h => nomatch h⟩
  | dep :: deps, memo, hrec, hm => by
    obtain ⟨depth, memo₁, h₁, hm₁, hdeep⟩ := hrec dep List.mem_cons_self memo hm
    obtain ⟨depths, memo₂, h₂, hm₂, hall⟩ := depthsOf_complete (fun d hd => hrec d (List.mem_cons_of_mem _ hd)) hm₁
    refine ⟨depth :: depths, memo₂, ?_, hm₂, fun depth' hdepth => ?_⟩
    · rw [depthsOf, h₁, ok_bind]
      dsimp only
      rw [h₂, ok_bind]
    · rcases List.mem_cons.mp hdepth with rfl | hdepth
      · exact ⟨dep, List.mem_cons_self, hdeep⟩
      · obtain ⟨d, hd, hdeep'⟩ := hall depth' hdepth
        exact ⟨d, List.mem_cons_of_mem _ hd, hdeep'⟩

theorem foldl_max_mem : ∀ (ds : List Nat) (d : Nat), ds.foldl max d ∈ d :: ds
  | [], d => List.mem_singleton.mpr rfl
  | e :: ds, d => by
    rw [List.foldl_cons]
    rcases List.mem_cons.mp (foldl_max_mem ds (max d e)) with h | h
    · rw [h]
      rcases Nat.le_total d e with hle | hle
      · rw [Nat.max_eq_right hle]
        exact List.mem_cons_of_mem _ List.mem_cons_self
      · rw [Nat.max_eq_left hle]
        exact List.mem_cons_self
    · exact List.mem_cons_of_mem _ (List.mem_cons_of_mem _ h)

/-- The longest of the chains below, with one step in front. -/
theorem deep_of_depths {name : String} {f : FeatureDef} (hf : Dict.get? byName name = some f) {depths : List Nat}
    {depth : Nat} (hdepth : depth = match depths with
      | [] => 0
      | d :: ds => 1 + ds.foldl max d)
    (hall : ∀ depth ∈ depths, ∃ d ∈ f.deps, Deep byName d.feature depth) : Deep byName name depth := by
  subst hdepth
  cases depths with
  | nil => exact ⟨[], List.IsChain.singleton name, rfl⟩
  | cons d ds =>
    obtain ⟨dep, hdep, names, hchain, hlen⟩ := hall _ (foldl_max_mem ds d)
    refine ⟨dep.feature :: names, List.isChain_cons_cons.mpr ⟨⟨f, hf, dep, hdep, rfl⟩, hchain⟩, ?_⟩
    rw [List.length_cons, hlen, Nat.add_comm]

theorem realised_set {memo : List (String × Nat)} {name : String} {depth : Nat} (hm : Realised byName memo)
    (hdeep : Deep byName name depth) : Realised byName (Dict.set memo name depth) := by
  intro n found hn
  rw [Dict.get?_set] at hn
  by_cases he : name = n
  · rw [if_pos he] at hn
    cases hn
    exact he ▸ hdeep
  · rw [if_neg he] at hn
    exact hm n found hn

/-- The way down to a name: no feature on it comes twice, and each depends on the name. -/
structure OnPath (byName : List (String × FeatureDef)) (visiting : List String) (name : String) : Prop where
  nodup : visiting.Nodup
  known : ∀ v ∈ visiting, ∃ f, Dict.get? byName v = some f
  above : ∀ v ∈ visiting, Relation.TransGen (Needs byName) v name

theorem OnPath.fresh {visiting : List String} {name : String} (h : OnPath byName visiting name) (hacyclic : Acyclic byName) :
    name ∉ visiting :=
  fun hm => hacyclic name (h.above name hm)

theorem OnPath.push {visiting : List String} {name dep : String} {f : FeatureDef} (h : OnPath byName visiting name)
    (hacyclic : Acyclic byName) (hf : Dict.get? byName name = some f) (hneeds : Needs byName name dep) :
    OnPath byName (visiting ++ [name]) dep where
  nodup := List.nodup_append.mpr ⟨h.nodup, List.nodup_singleton name, fun v hm w hw e =>
    h.fresh hacyclic (List.mem_singleton.mp hw ▸ e ▸ hm)⟩
  known v hv := by
    rcases List.mem_append.mp hv with hv | hv
    · exact h.known v hv
    · exact ⟨f, List.mem_singleton.mp hv ▸ hf⟩
  above v hv := by
    rcases List.mem_append.mp hv with hv | hv
    · exact (h.above v hv).tail hneeds
    · exact List.mem_singleton.mp hv ▸ .single hneeds

theorem OnPath.length_le {visiting names : List String} {name : String} (h : OnPath byName visiting name)
    (hnames : ∀ n f, Dict.get? byName n = some f → n ∈ names) : visiting.length ≤ names.length :=
  h.nodup.length_le_of_subset fun v hv => by
    obtain ⟨f, hf⟩ := h.known v hv
    exact hnames v f hf

theorem depthOf_complete {names : List String} (hnames : ∀ n f, Dict.get? byName n = some f → n ∈ names)
    (hknown : ∀ n m, Needs byName n m → ∃ f, Dict.get? byName m = some f) (hacyclic : Acyclic byName)
    (hcap : ChainsWithin byName cap) : ∀ {fuel : Nat} {visiting : List String} {memo : List (String × Nat)} {name : String},
    (∃ f, Dict.get? byName name = some f) → OnPath byName visiting name → names.length < fuel + visiting.length →
    Realised byName memo → ∃ depth memo', depthOf view byName cap fuel visiting memo name = .ok (depth, memo') ∧
      Realised byName memo' ∧ Deep byName name depth
  | 0, visiting, memo, name, _, hpath, hfuel, _ => by
    have hlen := hpath.length_le hnames
    omega
  | fuel + 1, visiting, memo, name, ⟨f, hf⟩, hpath, hfuel, hm => by
    unfold depthOf
    cases hmemo : Dict.get? memo name with
    | some depth => exact ⟨depth, memo, rfl, hm, hm name depth hmemo⟩
    | none =>
      dsimp only
      rw [if_neg (hpath.fresh hacyclic), hf]
      dsimp only
      have hrec : ∀ d ∈ f.deps, ∀ memo, Realised byName memo → ∃ depth memo',
          depthOf view byName cap fuel (visiting ++ [name]) memo d.feature = .ok (depth, memo') ∧
            Realised byName memo' ∧ Deep byName d.feature depth := by
        intro d hd memo hm
        have hneeds : Needs byName name d.feature := ⟨f, hf, d, hd, rfl⟩
        refine depthOf_complete hnames hknown hacyclic hcap (hknown _ _ hneeds) (hpath.push hacyclic hf hneeds) ?_ hm
        rw [List.length_append, List.length_singleton]
        omega
      obtain ⟨depths, memo₁, hdeps, hm₁, hall⟩ := depthsOf_complete hrec hm
      have hdeep := deep_of_depths hf rfl hall
      have hle : ∀ depth, Deep byName name depth → ¬ cap < depth := by
        rintro depth ⟨chain, hchain, rfl⟩
        exact not_lt.mpr (hcap name chain hchain)
      rw [hdeps, ok_bind]
      exact ⟨_, _, bind_eq_ok.mpr ⟨(), raiseIf_eq_ok.mpr (hle _ hdeep), rfl⟩, realised_set hm₁ hdeep, hdeep⟩

theorem depthAll_complete {fuel : Nat} : ∀ {fs : List FeatureDef} {memo : List (String × Nat)},
    (∀ f ∈ fs, ∀ memo, Realised byName memo → ∃ depth memo',
      depthOf view byName cap fuel [] memo f.name = .ok (depth, memo') ∧ Realised byName memo') →
    Realised byName memo → depthAll view byName cap fuel memo fs = .ok ()
  | [], memo, _, _ => rfl
  | f :: fs, memo, hall, hm => by
    obtain ⟨depth, memo', h, hm'⟩ := hall f List.mem_cons_self memo hm
    rw [depthAll, h, ok_bind]
    exact depthAll_complete (fun g hg => hall g (List.mem_cons_of_mem _ hg)) hm'

end

theorem featuresByName_known {fs : List FeatureDef} {f : FeatureDef} (hf : f ∈ fs) :
    ∃ g, Dict.get? (featuresByName fs) f.name = some g := by
  have hfold : ∀ (fs : List FeatureDef) (d : List (String × FeatureDef)), f ∈ fs ∨ (∃ g, Dict.get? d f.name = some g) →
      ∃ g, Dict.get? (fs.foldl (fun d f => Dict.set d f.name f) d) f.name = some g := by
    intro fs
    induction fs with
    | nil => exact fun d h => h.elim (fun hm => nomatch hm) id
    | cons g fs ih =>
      intro d h
      rw [List.foldl_cons]
      apply ih
      rw [Dict.get?_set]
      by_cases he : g.name = f.name
      · rw [if_pos he]
        exact .inr ⟨g, rfl⟩
      · rw [if_neg he]
        refine h.imp (fun hm => ?_) id
        rcases List.mem_cons.mp hm with rfl | hm
        · exact absurd rfl he
        · exact hm
  exact hfold fs [] (.inl hf)

theorem Resolvable.needs_known {view : FeatureViewDef} (hres : Resolvable view) {n m : String}
    (h : Needs (featuresByName view.features) n m) : ∃ f, Dict.get? (featuresByName view.features) m = some f := by
  obtain ⟨f, hf, d, hd, rfl⟩ := h
  obtain ⟨g, hg, hname⟩ := hres f (featuresByName_name hf).1 d hd
  exact hname ▸ featuresByName_known hg

theorem names_of_features {view : FeatureViewDef} (n : String) (f : FeatureDef)
    (h : Dict.get? (featuresByName view.features) n = some f) : n ∈ view.features.map fun f => f.name := by
  obtain ⟨hf, rfl⟩ := featuresByName_name h
  exact List.mem_map_of_mem hf

theorem onPath_nil {byName : List (String × FeatureDef)} (name : String) : OnPath byName [] name :=
  ⟨List.nodup_nil, fun _ hv => (nomatch hv), fun _ hv => (nomatch hv)⟩

theorem names_lt_fuel (view : FeatureViewDef) :
    (view.features.map fun f => f.name).length < view.features.length + 1 + ([] : List String).length := by
  rw [List.length_map]
  exact Nat.lt_succ_self _

theorem accepted_complete {view : FeatureViewDef} (hres : Resolvable view)
    (hacyclic : Acyclic (featuresByName view.features)) (hcap : ChainsWithin (featuresByName view.features) view.depthCap) :
    validateDependencyGraph view (featuresByName view.features) = .ok () := by
  refine depthAll_complete (fun f hf memo hm => ?_) fun n depth h => (nomatch h)
  obtain ⟨depth, memo', h, hm', -⟩ := depthOf_complete names_of_features (fun n m h => hres.needs_known h) hacyclic hcap
    (featuresByName_known hf) (onPath_nil f.name) (names_lt_fuel view) hm
  exact ⟨depth, memo', h, hm'⟩

/-! ## No cycle below an accepted view -/

/-- A report of a cycle, or a recursion that goes too deep. -/
def Endless : PyErr → Prop
  | .valueError msg => "dependency cycle detected".toList <+: msg.toList
  | .other cls _ => cls = "RecursionError"
  | _ => False

def Begins (c : Char) (s : String) : Prop := s.toList.head? = some c

theorem Begins.append {c : Char} {s t : String} (h : Begins c s) : Begins c (s ++ t) := by
  unfold Begins at h ⊢
  rw [String.toList_append, List.head?_append, h]
  rfl

theorem Begins.not_endless {c : Char} {msg : String} (h : Begins c msg) (hc : c ≠ 'd') : ¬ Endless (.valueError msg) := by
  rintro ⟨rest, hrest⟩
  rw [Begins, ← hrest] at h
  exact hc (Option.some.inj h).symm

/-- What is raised meets `P`, what is returned meets `Q`. -/
def Gives {α : Type} (P : PyErr → Prop) (Q : α → Prop) : Except PyErr α → Prop
  | .ok a => Q a
  | .error e => P e

theorem Gives.bind {α β : Type} {P : PyErr → Prop} {Q : α → Prop} {R : β → Prop} {x : Except PyErr α}
    {f : α → Except PyErr β} (hx : Gives P Q x) (hf : ∀ a, Q a → Gives P R (f a)) : Gives P R (x >>= f) := by
  cases x with
  | error e => exact hx
  | ok a => exact hf a hx

theorem Gives.raised {α : Type} {P : PyErr → Prop} {Q : α → Prop} {x : Except PyErr α} (h : Gives P Q x) {e : PyErr}
    (he : x = .error e) : P e := by
  subst he
  exact h

abbrev EndsWell {α : Type} (x : Except PyErr α) : Prop := Gives (fun e => ¬ Endless e) (fun _ => True) x

theorem ends_raiseIf {p : Prop} [Decidable p] {msg : String} {c : Char} (h : Begins c msg) (hc : c ≠ 'd') :
    EndsWell (raiseIf p msg) := by
  unfold raiseIf
  split
  · exact h.not_endless hc
  · exact trivial

/-! ### The planner -/

theorem begins_feature : Begins 'f' "feature " := by
  unfold Begins
  decide

theorem begins_unknown : Begins 'u' "unknown feature " := by
  unfold Begins
  decide

section
variable {view : FeatureViewDef} {byName : List (String × FeatureDef)} {allowShadow : Bool}

theorem checkComputable_ends (f : FeatureDef) : EndsWell (checkComputable view allowShadow f) := by
  have hn : Begins 'f' (s!"feature {reprStr f.name} in view {reprStr view.name}") :=
    .append <| .append <| .append begins_feature
  unfold checkComputable
  refine (ends_raiseIf (.append hn) (by decide)).bind fun _ _ => ?_
  refine (ends_raiseIf (.append <| .append hn) (by decide)).bind fun _ _ => ?_
  refine (ends_raiseIf (.append hn) (by decide)).bind fun _ _ => ?_
  refine (ends_raiseIf (.append hn) (by decide)).bind fun _ _ => ?_
  exact ends_raiseIf (.append <| .append <| .append hn) (by decide)

theorem addFeature_ends {unknown : String} {c : Char} (hu : Begins c unknown) (hc : c ≠ 'd') (ordered : List String)
    (name : String) : EndsWell (addFeature view byName allowShadow unknown ordered name) := by
  unfold addFeature
  cases Dict.get? byName name with
  | none => exact hu.not_endless hc
  | some f => exact (checkComputable_ends f).bind fun _ _ => trivial

theorem addRequested_ends : ∀ (names ordered : List String), EndsWell (addRequested view byName allowShadow ordered names)
  | [], ordered => trivial
  | name :: names, ordered => by
    have hu : Begins 'u' (s!"unknown feature {reprStr name} in view {reprStr view.name} v{view.viewVersion}") :=
      .append <| .append <| .append <| .append <| .append begins_unknown
    unfold addRequested
    exact (addFeature_ends hu (by decide) ordered name).bind fun ordered _ => addRequested_ends names ordered

theorem addMembers_ends (group : String) : ∀ (names ordered : List String),
    EndsWell (addMembers view byName allowShadow group ordered names)
  | [], ordered => trivial
  | name :: names, ordered => by
    have hbase : Begins 'f' "feature group " := by
      unfold Begins
      decide
    have hu : Begins 'f'
        (s!"feature group {reprStr group} references unknown feature {reprStr name} in view {reprStr view.name}") :=
      .append <| .append <| .append <| .append <| .append hbase
    unfold addMembers
    exact (addFeature_ends hu (by decide) ordered name).bind fun ordered _ => addMembers_ends group names ordered

theorem addGroups_ends : ∀ (groups ordered : List String) (expanded : List (String × List String)),
    EndsWell (addGroups view byName allowShadow ordered expanded groups)
  | [], ordered, expanded => trivial
  | group :: groups, ordered, expanded => by
    have hbase : Begins 'u' "unknown feature group " := by
      unfold Begins
      decide
    have hu : Begins 'u' (s!"unknown feature group {reprStr group} in view {reprStr view.name} v{view.viewVersion}") :=
      .append <| .append <| .append <| .append <| .append hbase
    unfold addGroups
    cases Dict.get? view.featureGroups group with
    | none => exact hu.not_endless (by decide)
    | some members => exact (addMembers_ends group members ordered).bind fun ordered _ => addGroups_ends groups ordered _

theorem visitDeps_ends {rec : List String → String → Except PyErr (List String)} {name : String} :
    ∀ {deps : List FeatureDependency} {done : List String}, (∀ d ∈ deps, ∀ done, EndsWell (rec done d.feature)) →
      EndsWell (visitDeps view byName rec name done deps)
  | [], done, _ => trivial
  | dep :: deps, _, hrec => by
    unfold visitDeps
    cases Dict.get? byName dep.feature with
    | none =>
      have hu : Begins 'f'
          (s!"feature {reprStr name} depends on unknown feature {reprStr dep.feature} in view {reprStr view.name}") :=
        .append <| .append <| .append <| .append <| .append begins_feature
      exact hu.not_endless (by decide)
    | some target =>
      have hn : Begins 'f' (s!"feature {reprStr name} in view {reprStr view.name}") :=
        .append <| .append <| .append begins_feature
      refine (ends_raiseIf (.append <| .append <| .append <| .append hn) (by decide)).bind fun _ _ => ?_
      refine (hrec dep List.mem_cons_self _).bind fun done _ => ?_
      exact visitDeps_ends fun d hd => hrec d (List.mem_cons_of_mem _ hd)

/-- What is being visited lies above the name, so that none of it is met again. -/
theorem visit_ends {names : List String} (hnames : ∀ n f, Dict.get? byName n = some f → n ∈ names)
    (hacyclic : Acyclic byName) : ∀ {fuel : Nat} {visiting done : List String} {name : String}, OnPath byName visiting name →
      names.length < fuel + visiting.length → EndsWell (visit view byName fuel visiting done name)
  | 0, visiting, done, name, hpath, hfuel => by
    have hlen := hpath.length_le hnames
    omega
  | fuel + 1, visiting, done, name, hpath, hfuel => by
    unfold visit
    by_cases hdone : name ∈ done
    · rw [if_pos hdone]
      trivial
    rw [if_neg hdone, if_neg (hpath.fresh hacyclic)]
    cases hf : Dict.get? byName name with
    | none =>
      have hu : Begins 'u' (s!"unknown feature {reprStr name} in view {reprStr view.name}") :=
        .append <| .append <| .append begins_unknown
      exact hu.not_endless (by decide)
    | some f =>
      refine Gives.bind (Q := fun _ => True) (visitDeps_ends fun d hd done => ?_) fun _ _ => trivial
      refine visit_ends hnames hacyclic (hpath.push hacyclic hf ⟨f, hf, d, hd, rfl⟩) ?_
      rw [List.length_append, List.length_singleton]
      omega

end

section
variable {view : FeatureViewDef} (hacyclic : Acyclic (featuresByName view.features))
include hacyclic

theorem validateDeps_ends : ∀ {names done : List String}, EndsWell (validateDeps view (featuresByName view.features) done names)
  | [], _ => trivial
  | name :: _, _ =>
    (visit_ends names_of_features hacyclic (onPath_nil name) (names_lt_fuel view)).bind fun _ _ => validateDeps_ends

theorem planFeatures_ends (requested groups : List String) (allowShadow : Bool) :
    EndsWell (planFeatures view requested groups allowShadow) := by
  have hbase : Begins 'r' "request expands to no output features for view " := by
    unfold Begins
    decide
  have hempty : Begins 'r' (s!"request expands to no output features for view {reprStr view.name} v{view.viewVersion}") :=
    .append <| .append <| .append hbase
  unfold planFeatures
  refine (addRequested_ends requested []).bind fun ordered _ => ?_
  refine (addGroups_ends groups ordered []).bind fun out _ => ?_
  refine (ends_raiseIf hempty (by decide)).bind fun _ _ => ?_
  exact (validateDeps_ends hacyclic).bind fun _ _ => trivial

end

/-! ### The core -/

/-- What a source or a user function raises. -/
def Outside (core : ComputeCore) (loader : String → Except PyErr Value) (e : PyErr) : Prop :=
  (∃ src, loader src = .error e) ∨
    ∃ id udf sources deps, Dict.get? core.udfs id = some udf ∧ udf sources deps = .error e

theorem Gives.mono {α : Type} {P P' : PyErr → Prop} {Q Q' : α → Prop} {x : Except PyErr α} (h : Gives P Q x)
    (hP : ∀ e, P e → P' e) (hQ : ∀ a, Q a → Q' a) : Gives P' Q' x := by
  cases x with
  | error e => exact hP e h
  | ok a => exact hQ a h

section
variable (core : ComputeCore) (loader : String → Except PyErr Value)

abbrev CoreEndsWell {α : Type} (Q : α → Prop) (x : Except PyErr α) : Prop :=
  Gives (fun e => ¬ Endless e ∨ Outside core loader e) Q x

variable {core loader}

theorem EndsWell.settles {α : Type} {x : Except PyErr α} (h : EndsWell x) : CoreEndsWell core loader (fun _ => True) x :=
  h.mono (fun _ h => .inl h) fun _ h => h

theorem getSource_settles {ctx : RequestContext} (hctx : ctx.sourceLoader = loader) (src : String) :
    CoreEndsWell core loader (fun out => out.2.sourceLoader = loader) (ctx.getSource src) := by
  unfold RequestContext.getSource
  cases Dict.get? ctx.sources src with
  | some v => exact hctx
  | none =>
    dsimp only
    rw [hctx]
    cases hl : loader src with
    | error e => exact .inr (.inl ⟨src, hl⟩)
    | ok v => exact rfl

theorem loadSources_settles : ∀ {srcs : List String} {acc : List (String × Value)} {ctx : RequestContext},
    ctx.sourceLoader = loader → CoreEndsWell core loader (fun out => out.2.sourceLoader = loader) (loadSources acc srcs ctx)
  | [], _, _, hctx => hctx
  | src :: _, _, _, hctx => (getSource_settles hctx src).bind fun _ hctx => loadSources_settles hctx

theorem sourceRows_ends {name : String} {stamps : SourceStamps} : ∀ {srcs : List String}, EndsWell (sourceRows name stamps srcs)
  | [] => trivial
  | src :: srcs => by
    unfold sourceRows
    cases Dict.get? stamps src with
    | none =>
      have hu : ∀ missing : String, Begins 'f' (s!"feature {reprStr name} reads source {reprStr src} {missing}") :=
        fun _ => .append <| .append <| .append <| .append <| .append begins_feature
      exact (hu _).not_endless (by decide)
    | some stamp => exact sourceRows_ends.bind fun _ _ => trivial

theorem depRows_ends {byName : List (String × FeatureDef)} : ∀ {comps : List (String × FeatureComputation)},
    EndsWell (depRows byName comps)
  | [] => trivial
  | (dep, c) :: comps => by
    unfold depRows
    cases Dict.get? byName dep with
    | none => exact id
    | some f => exact depRows_ends.bind fun _ _ => trivial

theorem computation_ends {sha256 : Sha256} {value : Value} {rows : List InputRow} {degraded : Bool} :
    EndsWell (computation sha256 value rows degraded) := by
  have hempty : Begins 'm' "min() iterable argument is empty" := by
    unfold Begins
    decide
  cases rows with
  | nil => exact hempty.not_endless (by decide)
  | cons row rows =>
    simp only [computation]
    split
    · exact fun h : "OverflowError" = "RecursionError" => absurd h (by decide)
    · trivial

theorem getUdf_ends {id : String} : EndsWell (core.getUdf id) := by
  have hbase : Begins 'u' "unknown udf id " := by
    unfold Begins
    decide
  have hu : Begins 'u' (s!"unknown udf id {reprStr id}") := .append hbase
  unfold ComputeCore.getUdf
  cases Dict.get? core.udfs id with
  | none => exact hu.not_endless (by decide)
  | some udf => trivial

theorem getUdf_found {id : String} {udf : Udf} (h : core.getUdf id = .ok udf) : Dict.get? core.udfs id = some udf := by
  unfold ComputeCore.getUdf at h
  cases hg : Dict.get? core.udfs id with
  | none =>
    rw [hg] at h
    cases h
  | some udf' =>
    rw [hg] at h
    cases h
    rfl

theorem finishNode_settles {byName : List (String × FeatureDef)} {stamps : SourceStamps} {f : FeatureDef}
    {sources : List (String × Value)} {comps : List (String × FeatureComputation)} {degraded : Bool} :
    CoreEndsWell core loader (fun _ => True) (finishNode core byName stamps f sources comps degraded) := by
  unfold finishNode
  refine sourceRows_ends.settles.bind fun _ _ => depRows_ends.settles.bind fun _ _ => ?_
  cases hu : core.getUdf f.udf with
  | error e => exact .inl (getUdf_ends.raised hu)
  | ok udf =>
    rw [ok_bind]
    cases hv : udf sources (comps.map fun c => (c.1, c.2.value)) with
    | error e => exact .inr (.inr ⟨f.udf, udf, _, _, getUdf_found hu, hv⟩)
    | ok v => exact computation_ends.settles

theorem addDep_ends {calcTs : Int} {dep : FeatureDependency} {comp : Option FeatureComputation} {st : DepState} :
    EndsWell (addDep calcTs dep comp st) := by
  unfold addDep
  cases comp with
  | none => trivial
  | some c =>
    refine Gives.bind (Q := fun _ => True) ?_ fun _ _ => trivial
    unfold edgeIsStale
    cases dep.maxInputAgeSeconds with
    | none => trivial
    | some age =>
      dsimp only
      split
      · exact fun h : "OverflowError" = "RecursionError" => absurd h (by decide)
      · trivial

theorem resolveDeps_settles {rec : String → RequestContext → Except PyErr (Option FeatureComputation × RequestContext)}
    {calcTs : Int} : ∀ {deps : List FeatureDependency} {st : DepState} {ctx : RequestContext},
    (∀ d ∈ deps, ∀ ctx : RequestContext, ctx.sourceLoader = loader →
      CoreEndsWell core loader (fun out => out.2.sourceLoader = loader) (rec d.feature ctx)) →
    ctx.sourceLoader = loader →
      CoreEndsWell core loader (fun out => out.2.sourceLoader = loader) (resolveDeps rec calcTs deps st ctx)
  | [], _, _, _, hctx => hctx
  | dep :: deps, st, ctx, hrec, hctx => by
    unfold resolveDeps
    refine (hrec dep List.mem_cons_self ctx hctx).bind fun out hctx => ?_
    refine addDep_ends.settles.bind fun added _ => ?_
    cases added with
    | none => exact hctx
    | some st => exact resolveDeps_settles (fun d hd => hrec d (List.mem_cons_of_mem _ hd)) hctx

theorem resolve_settles {byName : List (String × FeatureDef)} {stamps : SourceStamps} {calcTs : Int} {names : List String}
    (hnames : ∀ n f, Dict.get? byName n = some f → n ∈ names) (hacyclic : Acyclic byName) :
    ∀ {fuel : Nat} {visiting : List String} {name : String} {ctx : RequestContext}, OnPath byName visiting name →
      names.length < fuel + visiting.length → ctx.sourceLoader = loader →
      CoreEndsWell core loader (fun out => out.2.sourceLoader = loader)
        (core.resolve byName stamps calcTs fuel visiting name ctx)
  | 0, visiting, name, ctx, hpath, hfuel, _ => by
    have hlen := hpath.length_le hnames
    omega
  | fuel + 1, visiting, name, ctx, hpath, hfuel, hctx => by
    rw [ComputeCore.resolve]
    cases Dict.get? ctx.features name with
    | some c => exact hctx
    | none =>
      dsimp only
      by_cases hskip : ctx.isSkipped name = true
      · rw [if_pos hskip]
        exact hctx
      rw [if_neg hskip]
      cases hf : Dict.get? byName name with
      | none =>
        have hu : Begins 'u' (s!"unknown feature {reprStr name}") := .append begins_unknown
        exact .inl (hu.not_endless (by decide))
      | some f =>
        dsimp only
        rw [if_neg (hpath.fresh hacyclic)]
        refine (loadSources_settles hctx).bind fun loaded hctx => ?_
        refine (resolveDeps_settles (fun d hd ctx hctx => ?_) hctx).bind fun resolved hctx => ?_
        · refine resolve_settles hnames hacyclic (hpath.push hacyclic hf ⟨f, hf, d, hd, rfl⟩) ?_ hctx
          rw [List.length_append, List.length_singleton]
          omega
        obtain ⟨out, ctx'⟩ := resolved
        cases out with
        | none => exact hctx
        | some st => exact finishNode_settles.bind fun _ _ => hctx

end

section
variable {core : ComputeCore} {loader : String → Except PyErr Value} {view : FeatureViewDef}
  (hacyclic : Acyclic (featuresByName view.features))
include hacyclic

theorem computeLoop_settles {entityKey : EntityKey} {stamps : SourceStamps} {calcTs : Int} : ∀ {names : List String}
    {results : List (String × FeatureResult)} {ctx : RequestContext}, ctx.sourceLoader = loader →
    CoreEndsWell core loader (fun _ => True)
      (core.computeLoop (featuresByName view.features) view.fuel entityKey stamps calcTs names results ctx)
  | [], _, _, _ => trivial
  | name :: names, results, ctx, hctx => by
    unfold ComputeCore.computeLoop
    refine (resolve_settles names_of_features hacyclic (onPath_nil name) (names_lt_fuel view) hctx).bind fun out hctx => ?_
    obtain ⟨comp, ctx'⟩ := out
    cases comp with
    | none => exact computeLoop_settles hctx
    | some c =>
      dsimp only
      cases Dict.get? (featuresByName view.features) name with
      | none => exact .inl id
      | some f => exact computeLoop_settles hctx

theorem compute_settles {name : String} {version : Int} (hfind : core.findView name version = .ok view)
    {entityKey : EntityKey} {names : List String} {ctx : RequestContext} (hctx : ctx.sourceLoader = loader)
    {stamps : SourceStamps} {calcTs : Int} :
    CoreEndsWell core loader (fun _ => True) (core.compute name version entityKey names ctx stamps calcTs) := by
  rw [ComputeCore.compute, hfind, ok_bind]
  exact computeLoop_settles hacyclic hctx

end

/-! ## Validation and the two other recursions -/

/-- No request on the view ends in a report of a cycle, unless a source or a user function raises one. -/
structure CycleFree (view : FeatureViewDef) : Prop where
  planner : ∀ requested groups allowShadow e, planFeatures view requested groups allowShadow = .error e → ¬ Endless e
  core : ∀ (core : ComputeCore) name version, core.findView name version = .ok view →
    ∀ entityKey names ctx stamps calcTs e, core.compute name version entityKey names ctx stamps calcTs = .error e →
      ¬ Endless e ∨ Outside core ctx.sourceLoader e

/-- For every view with resolvable dependencies: its graph is accepted exactly when it is acyclic and no chain is longer
than the cap, and then neither the planner nor the core reports a cycle or recurs too deep. -/
theorem graph_accepted_iff {view : FeatureViewDef} (hres : Resolvable view) :
    (validateDependencyGraph view (featuresByName view.features) = .ok () ↔
      Acyclic (featuresByName view.features) ∧ ChainsWithin (featuresByName view.features) view.depthCap) ∧
    (validateDependencyGraph view (featuresByName view.features) = .ok () → CycleFree view) := by
  refine ⟨⟨accepted_sound, fun ⟨hacyclic, hcap⟩ => accepted_complete hres hacyclic hcap⟩, fun h => ?_⟩
  obtain ⟨hacyclic, -⟩ := accepted_sound h
  constructor
  · intro requested groups allowShadow e herr
    exact (planFeatures_ends hacyclic requested groups allowShadow).raised herr
  · intro core name version hfind entityKey names ctx stamps calcTs e herr
    exact (compute_settles hacyclic hfind rfl).raised herr

theorem graph_accepted_iff_fresh : Resolvable freshView ∧
    Acyclic (featuresByName freshView.features) ∧ CycleFree freshView := by
  have hres : Resolvable freshView := by
    unfold Resolvable
    decide
  have hok : validateDependencyGraph freshView (featuresByName freshView.features) = .ok () := by decide
  obtain ⟨hiff, hfree⟩ := graph_accepted_iff hres
  exact ⟨hres, (hiff.mp hok).1, hfree hok⟩

end ClearFeature
