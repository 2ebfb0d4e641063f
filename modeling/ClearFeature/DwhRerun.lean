import ClearFeature.DwhImport
import ClearFeature.Validator

/-!
# Rerunning an import

A row that was appended is a duplicate for good. What a run did not announce of
its new rows, no later run announces.
-/

namespace ClearFeature

open Prog (Service exec exec_bind)

/-! ## Stores and calls -/

/-- What an import changes, and the number of calls made so far. -/
structure ImportStores where
  offline : OfflineStore := []
  updates : List FeatureUpdated := []
  manifests : List FeatureRowsManifest := []
  calls : Nat := 0

/-- The clock, the ids and the errors of the calls: any call to a store or to the broker may raise. -/
structure ImportBackend where
  clock : Nat → Int
  uuid4Hex : Nat → String
  fault : Nat → Option PyErr

namespace ImportBackend

variable (b : ImportBackend)

def guarded {α : Type} (s : ImportStores) (a : α) : Except PyErr α :=
  match b.fault s.calls with
  | none => .ok a
  | some e => .error e

/-- A call that raises changes nothing. -/
def act (s : ImportStores) (c : RunnerCall FeatureUpdated Unit DwhOwn) : ImportStores :=
  let called := { s with calls := s.calls + 1 }
  if (b.fault s.calls).isSome then called
  else
    match c with
    | .publish _ _ event _ => { called with updates := s.updates ++ [event] }
    | .own (.appendMany view viewVersion results) => { called with offline := s.offline.appendMany view viewVersion results }
    | .own (.upsertManifest manifest) => { called with manifests := s.manifests ++ [manifest] }
    | _ => called

def answer (s : ImportStores) : (c : RunnerCall FeatureUpdated Unit DwhOwn) → RunnerCall.Ans DwhOwn.Ans c
  | .poll => none
  | .now => b.clock s.calls
  | .commit _ | .publish _ _ _ _ | .statusPut _ _ => b.guarded s ()
  | .statusRead _ _ => .ok none
  | .own (.partitionNewResults view viewVersion results) =>
    b.guarded s (ClearFeature.partitionNewResults s.offline view viewVersion results)
  | .own (.appendMany _ _ _) => b.guarded s ()
  | .own .uuid4Hex => b.uuid4Hex s.calls
  | .own (.upsertManifest _) => b.guarded s ()

def service : Service (RunnerCall FeatureUpdated Unit DwhOwn) (RunnerCall.Ans DwhOwn.Ans) ImportStores := ⟨b.act, b.answer⟩

end ImportBackend

/-! ## Calls -/

def ImportStores.called (s : ImportStores) : ImportStores := { s with calls := s.calls + 1 }

section
variable {b : ImportBackend} {α : Type} (s : ImportStores)

theorem exec_now (f : Int → DwhImport.Program α) :
    exec b.service s (Runner.now >>= f) = exec b.service s.called (f (b.clock s.calls)) := by
  show exec b.service (b.act s .now) _ = _
  unfold ImportBackend.act
  split <;> rfl

theorem exec_uuid4Hex (f : String → DwhImport.Program α) :
    exec b.service s (DwhImport.uuid4Hex >>= f) = exec b.service s.called (f (b.uuid4Hex s.calls)) := by
  show exec b.service (b.act s (.own .uuid4Hex)) _ = _
  unfold ImportBackend.act
  split <;> rfl

theorem exec_publish (topic key : String) (event : FeatureUpdated) (f : Except PyErr Unit → DwhImport.Program α) :
    exec b.service s (Runner.publish topic key event >>= f) =
      match b.fault s.calls with
      | none => exec b.service { s.called with updates := s.updates ++ [event] } (f (.ok ()))
      | some e => exec b.service s.called (f (.error e)) := by
  show exec b.service (b.act s (.publish topic key event [])) (f (b.guarded s ())) = _
  unfold ImportBackend.act ImportBackend.guarded
  cases b.fault s.calls <;> rfl

theorem exec_partitionNew (view : String) (vv : Int) (rs : List FeatureResult)
    (f : Except PyErr (List FeatureResult × Nat) → DwhImport.Program α) :
    exec b.service s (DwhImport.partitionNew view vv rs >>= f) =
      match b.fault s.calls with
      | none => exec b.service s.called (f (.ok (partitionNewResults s.offline view vv rs)))
      | some e => exec b.service s.called (f (.error e)) := by
  show exec b.service (b.act s (.own (.partitionNewResults view vv rs))) (f (b.guarded s _)) = _
  unfold ImportBackend.act ImportBackend.guarded
  cases b.fault s.calls <;> rfl

theorem exec_appendMany (view : String) (vv : Int) (rs : List FeatureResult) (f : Except PyErr Unit → DwhImport.Program α) :
    exec b.service s (DwhImport.appendMany view vv rs >>= f) =
      match b.fault s.calls with
      | none => exec b.service { s.called with offline := s.offline.appendMany view vv rs } (f (.ok ()))
      | some e => exec b.service s.called (f (.error e)) := by
  show exec b.service (b.act s (.own (.appendMany view vv rs))) (f (b.guarded s ())) = _
  unfold ImportBackend.act ImportBackend.guarded
  cases b.fault s.calls <;> rfl

theorem exec_upsertManifest (manifest : FeatureRowsManifest) (f : Except PyErr Unit → DwhImport.Program α) :
    exec b.service s (DwhImport.upsertManifest manifest >>= f) =
      match b.fault s.calls with
      | none => exec b.service { s.called with manifests := s.manifests ++ [manifest] } (f (.ok ()))
      | some e => exec b.service s.called (f (.error e)) := by
  show exec b.service (b.act s (.own (.upsertManifest manifest))) (f (b.guarded s ())) = _
  unfold ImportBackend.act ImportBackend.guarded
  cases b.fault s.calls <;> rfl

end

/-! ## The stages of a run -/

section
variable {b : ImportBackend} (i : DwhImport)

theorem publish_offline : ∀ (events : List FeatureUpdated) (s : ImportStores),
    (exec b.service s (publishFeatureUpdates (fun event => event) events : DwhImport.Program _)).1.offline = s.offline
  | [], s => rfl
  | event :: events, s => by
    unfold publishFeatureUpdates
    cases event.entity.encoded with
    | error e => rfl
    | ok key =>
      dsimp only
      rw [exec_publish]
      cases b.fault s.calls with
      | some e => rfl
      | none => exact publish_offline events _

/-- Where the results that are new land. -/
theorem exec_land (rs : List FeatureResult) (s : ImportStores) :
    exec b.service s (i.land rs) =
      match b.fault s.calls, b.fault (s.calls + 1) with
      | none, none =>
        let kept := partitionNewResults s.offline i.config.view i.config.viewVersion rs
        ({ s.called.called with offline := s.offline.appendMany i.config.view i.config.viewVersion kept.1 }, .ok kept)
      | none, some e => (s.called.called, .error e)
      | some e, _ => (s.called, .error e) := by
  unfold DwhImport.land
  rw [exec_partitionNew]
  cases b.fault s.calls with
  | some e => rfl
  | none =>
    dsimp only
    rw [exec_appendMany]
    show (match b.fault (s.calls + 1) with | none => _ | some e => _) = _
    cases b.fault (s.calls + 1) <;> rfl

theorem announce_offline (viewDef : FeatureViewDef) (rs : List FeatureResult) (s : ImportStores) :
    (exec b.service s (i.announce viewDef rs)).1.offline = s.offline := by
  unfold DwhImport.announce emitFeatureUpdates
  rw [exec_bind, exec_bind]
  have h := publish_offline (b := b) (buildFeatureUpdatedEvents viewDef rs i.config.entityType .dwhImport) s
  rw [← h]
  cases (exec b.service s (publishFeatureUpdates (fun event => event)
    (buildFeatureUpdatedEvents viewDef rs i.config.entityType .dwhImport) : DwhImport.Program _)).2 <;> rfl

/-- Only what has a reactive dependent can fail to be announced. -/
theorem announce_error {viewDef : FeatureViewDef} {rs : List FeatureResult} {s s' : ImportStores} {e : PyErr}
    (h : exec b.service s (i.announce viewDef rs) = (s', .error e)) :
    ∃ r ∈ rs, r.ref.name ∈ featuresWithReactiveDependents viewDef := by
  by_contra hnone
  push Not at hnone
  have hempty : buildFeatureUpdatedEvents viewDef rs i.config.entityType .dwhImport = [] := by
    unfold buildFeatureUpdatedEvents
    rw [List.map_eq_nil_iff, List.filter_eq_nil_iff]
    intro r hr
    simpa using hnone r hr
  unfold DwhImport.announce emitFeatureUpdates at h
  rw [hempty] at h
  cases h

theorem exec_announce_nil (viewDef : FeatureViewDef) (s : ImportStores) :
    exec b.service s (i.announce viewDef []) = (s, .ok 0) := rfl

/-- A run that ends here has announced nothing more, and without faults it ends well. -/
def Ends (b : ImportBackend) (s : ImportStores) (out : ImportStores × Except PyErr FeatureRowsManifest) : Prop :=
  out.1.updates = s.updates ∧ ((∀ n, b.fault n = none) → ∃ manifest, out.2 = .ok manifest)

theorem exec_datasetId (s : ImportStores) : ∃ calls id, exec b.service s i.datasetId = ({ s with calls }, id) := by
  unfold DwhImport.datasetId
  by_cases h : DwhImport.textOr i.config.datasetId "" = ""
  · rw [if_pos h, exec_uuid4Hex]
    exact ⟨_, _, rfl⟩
  · rw [if_neg h]
    exact ⟨_, _, rfl⟩

theorem recordRun_ends (createdAt : Int) (rows : ImportedRows) (rs : List FeatureResult) (duplicates : Nat)
    (s : ImportStores) : Ends b s (exec b.service s (i.recordRun createdAt rows rs duplicates)) := by
  unfold DwhImport.recordRun
  rw [exec_uuid4Hex, exec_bind]
  obtain ⟨calls, id, hid⟩ := exec_datasetId (b := b) i s.called
  rw [hid]
  dsimp only
  rw [exec_upsertManifest]
  dsimp only
  cases hfault : b.fault calls with
  | none => exact ⟨rfl, fun _ => ⟨_, rfl⟩⟩
  | some e =>
    refine ⟨rfl, fun hnone => ?_⟩
    rw [hnone] at hfault
    cases hfault

variable {i} {viewDef : FeatureViewDef} {rows : ImportedRows}

/-- A run whose results are all stored appends and announces nothing. -/
theorem stored_ends (hgather : i.gather = .ok (viewDef, rows)) {s : ImportStores}
    (hstored : ∀ r ∈ rows.validResults, existsInOffline s.offline i.config.view i.config.viewVersion r = true) :
    Ends b s (exec b.service s i.runDwhFeatureImport) := by
  have hkept : partitionNewResults s.called.offline i.config.view i.config.viewVersion rows.validResults =
      ([], rows.validResults.length) := partitionLoop_of_stored [] hstored
  unfold DwhImport.runDwhFeatureImport
  rw [exec_now, hgather]
  dsimp only
  rw [exec_bind, exec_land, hkept]
  cases hpartition : b.fault s.called.calls with
  | some e =>
    refine ⟨rfl, fun hnone => ?_⟩
    rw [hnone] at hpartition
    cases hpartition
  | none =>
    cases happend : b.fault (s.called.calls + 1) with
    | some e =>
      refine ⟨rfl, fun hnone => ?_⟩
      rw [hnone] at happend
      cases happend
    | none =>
      dsimp only
      rw [exec_bind, exec_announce_nil]
      exact recordRun_ends i _ rows [] _ _

end

/-! ## A failed publication -/

namespace DwhImport

variable (i : DwhImport)

/-- The rows were appended, and then their announcement raised. -/
structure PublicationFails (b : ImportBackend) (s s' : ImportStores) (e : PyErr) (viewDef : FeatureViewDef)
    (rows : ImportedRows) (newResults : List FeatureResult) : Prop where
  gathered : i.gather = .ok (viewDef, rows)
  fails : ∃ landed duplicates, exec b.service s.called (i.land rows.validResults) = (landed, .ok (newResults, duplicates)) ∧
    exec b.service landed (i.announce viewDef newResults) = (s', .error e)

/-- Between the two moments every result of the import that has reactive dependents was announced. -/
def Announced (viewDef : FeatureViewDef) (rows : ImportedRows) (before after : ImportStores) : Prop :=
  ∃ published, after.updates = before.updates ++ published ∧
    ∀ r ∈ rows.validResults, r.ref.name ∈ featuresWithReactiveDependents viewDef →
      ∃ event ∈ published, event.entity = ⟨i.config.entityType, dictOf r.entityKey.parts⟩ ∧
        event.featureName = r.ref.name ∧ event.featureVersion = r.ref.version

variable {i} {b : ImportBackend} {s s' : ImportStores} {e : PyErr} {viewDef : FeatureViewDef} {rows : ImportedRows}
  {newResults : List FeatureResult}

theorem PublicationFails.run (h : i.PublicationFails b s s' e viewDef rows newResults) :
    exec b.service s i.runDwhFeatureImport = (s', .error e) := by
  obtain ⟨landed, duplicates, hland, hfail⟩ := h.fails
  unfold runDwhFeatureImport
  rw [exec_now, h.gathered]
  dsimp only
  rw [exec_bind, hland]
  dsimp only
  rw [exec_bind, hfail]
  rfl

theorem PublicationFails.landed (h : i.PublicationFails b s s' e viewDef rows newResults) :
    newResults = (partitionNewResults s.offline i.config.view i.config.viewVersion rows.validResults).1 ∧
      s'.offline = s.offline.appendMany i.config.view i.config.viewVersion newResults := by
  obtain ⟨landed, duplicates, hland, hfail⟩ := h.fails
  have hoffline := announce_offline (b := b) i viewDef newResults landed
  rw [hfail] at hoffline
  rw [exec_land] at hland
  cases hpartition : b.fault s.called.calls with
  | some e =>
    rw [hpartition] at hland
    cases hland
  | none =>
    rw [hpartition] at hland
    cases happend : b.fault (s.called.calls + 1) with
    | some e =>
      rw [happend] at hland
      cases hland
    | none =>
      rw [happend] at hland
      obtain ⟨hstate, hnew⟩ := Prod.mk.inj hland
      have hnew : newResults = (partitionNewResults s.offline i.config.view i.config.viewVersion rows.validResults).1 :=
        congrArg Prod.fst (Except.ok.inj hnew).symm
      refine ⟨hnew, hoffline.trans ?_⟩
      rw [← hstate, hnew]
      rfl

/-- Every result of a failed run stays a duplicate, whatever is appended later. -/
theorem PublicationFails.stored (h : i.PublicationFails b s s' e viewDef rows newResults) {later : ImportStores}
    (hlater : s'.offline <+: later.offline) : ∀ r ∈ rows.validResults,
    existsInOffline later.offline i.config.view i.config.viewVersion r = true := by
  intro r hr
  obtain ⟨hnew, hoffline⟩ := h.landed
  obtain ⟨more, hmore⟩ := hlater
  rw [← hmore, existsInOffline_append, hoffline, hnew, partition_stored s.offline rows.validResults r hr, Bool.true_or]

/-- Some result of a failed run has reactive dependents. -/
theorem PublicationFails.dependent (h : i.PublicationFails b s s' e viewDef rows newResults) :
    ∃ r ∈ rows.validResults, r.ref.name ∈ featuresWithReactiveDependents viewDef := by
  obtain ⟨landed, duplicates, -, hfail⟩ := h.fails
  obtain ⟨r, hr, hdep⟩ := announce_error i hfail
  refine ⟨r, ?_, hdep⟩
  rw [h.landed.1] at hr
  exact (partition_sublist rows.validResults).subset hr

end DwhImport

/-! ## Two users -/

def incomeFeature : FeatureDef where
  name := "income"
  kind := .udf
  featureVersion := 1
  udf := "u.income"
  dtype := "int"
  status := "live"
  inputs := ["a"]
  lifecycle := .live
  ok := by decide

def bandFeature : FeatureDef where
  name := "band"
  kind := .udf
  featureVersion := 1
  udf := "u.band"
  dtype := "int"
  status := "live"
  deps := [⟨{ feature := "income", propagation := .reactive }, by decide⟩]
  lifecycle := .live
  ok := by decide

def bandView : FeatureViewDef where
  name := "risk"
  entity := "user"
  keyFields := ["user_id"]
  viewVersion := 1
  owner := "o"
  status := "live"
  features := [incomeFeature, bandFeature]
  ok := by decide
  groups_nodup := by exact List.nodup_nil

def incomeRow (user : String) : Value :=
  .obj [("entity_key", .obj [("user_id", .str user)]), ("feature_name", .str "income"), ("feature_version", .int 1),
    ("value", .int 1000), ("data_ts", .str "2026-07-01T00:00:00Z"), ("calc_ts", .str "2026-07-01T01:00:00Z")]

def textFields (kvs : List (String × Value)) : List (String × String) :=
  kvs.filterMap fun kv =>
    match kv.2 with
    | .str text => some (kv.1, text)
    | _ => none

/-- The validation of rows with the two times of the example. -/
def incomeValidate : List (String × Value) → Except PyErr DwhFeatureRow
  | [(_, .obj kvs), (_, .str featureName), (_, .int featureVersion), (_, value), (_, .str "2026-07-01T00:00:00Z"),
      (_, .str "2026-07-01T01:00:00Z")] =>
    if h : textFields kvs = [] then .error (.valueError "entity_key must be non-empty")
    else
      .ok {
        entityKey := textFields kvs
        featureName
        featureVersion
        value
        dataTs := 1782864000000000
        dataTsText := "2026-07-01T00:00:00+00:00"
        calcTs := 1782867600000000
        entityKey_ne := h }
  | _ => .error (.valueError "6 validation errors for DwhFeatureRow")

def hashThousand : String := "40510175845988f13f6162ed8526f0b09f73384467fa855e1e79b44a56562a58"

def incomeMaterial (user : String) : String :=
  "user_id=" ++ user ++ "|income:v1|2026-07-01T00:00:00+00:00|sha256:" ++ hashThousand

def incomeImport : DwhImport where
  codec := {
    modelValidate := incomeValidate
    sha256 := digestTable [(canonicalValueJson (.int 1000), hashThousand)]
    fingerprint := fun texts =>
      if texts = [incomeMaterial "1", incomeMaterial "2"] then "b802ad7d675783ae6f0e9f45a436a6133804a0bd44a6193690565031cbced133"
      else "" }
  registry := userRegistry bandView
  readRows := fun _ => [.ok (incomeRow "1"), .ok (incomeRow "2")]
  config := { entityType := "user", view := "risk", viewVersion := 1, queryName := "q" }
  failFast := false

/-- The broker refuses the second event. -/
def secondRefused : ImportBackend where
  clock := fun _ => 1782871200000000
  uuid4Hex := fun _ => "0"
  fault := fun n => if n = 4 then some (.other "RuntimeError" "broker down") else none

def noFaults : ImportBackend := { secondRefused with fault := fun _ => none }

def failedIncome : ImportStores := (exec secondRefused.service {} incomeImport.runDwhFeatureImport).1

theorem income_fails : ∃ rows newResults,
    incomeImport.PublicationFails secondRefused {} failedIncome
      (.valueError "feature_updates publish failed: broker down") bandView rows newResults :=
  ⟨_, _, rfl, _, _, rfl, rfl⟩

/-- No run after a failed publication recovers it: the failed run appended all its results, so a rerun finds nothing new
and announces nothing, although some result has reactive dependents. -/
theorem dwh_rerun_never_recovers (i : DwhImport) (first : ImportBackend) (s s' : ImportStores) (e : PyErr)
    (viewDef : FeatureViewDef) (rows : ImportedRows) (newResults : List FeatureResult)
    (h : i.PublicationFails first s s' e viewDef rows newResults) :
    exec first.service s i.runDwhFeatureImport = (s', .error e) ∧
      ∀ (again : ImportBackend) (later : ImportStores), s'.offline <+: later.offline →
        ¬ i.Announced viewDef rows later (exec again.service later i.runDwhFeatureImport).1 ∧
        ((∀ n, again.fault n = none) → ∃ manifest, (exec again.service later i.runDwhFeatureImport).2 = .ok manifest) := by
  refine ⟨h.run, fun again later hlater => ?_⟩
  obtain ⟨hsilent, hok⟩ : Ends again later _ := stored_ends h.gathered (h.stored hlater)
  refine ⟨?_, hok⟩
  rintro ⟨published, hpublished, hall⟩
  rw [hsilent] at hpublished
  have hnone : published = [] := List.self_eq_append_right.mp hpublished
  obtain ⟨r, hr, hdep⟩ := h.dependent
  obtain ⟨event, hevent, -⟩ := hall r hr hdep
  rw [hnone] at hevent
  cases hevent

theorem dwh_rerun_never_recovers_income : ∃ rows,
    ¬ incomeImport.Announced bandView rows failedIncome (exec noFaults.service failedIncome incomeImport.runDwhFeatureImport).1 := by
  obtain ⟨rows, newResults, hfails⟩ := income_fails
  exact ⟨rows, ((dwh_rerun_never_recovers incomeImport secondRefused {} failedIncome _ bandView rows newResults hfails).2
    noFaults failedIncome (List.prefix_refl _)).1⟩

/-- The rerun goes through and the second user is never announced. -/
theorem dwh_rerun_income :
    (exec secondRefused.service {} incomeImport.runDwhFeatureImport).2 =
      .error (.valueError "feature_updates publish failed: broker down") ∧
    (∃ manifest, (exec noFaults.service failedIncome incomeImport.runDwhFeatureImport).2 = .ok manifest ∧
      manifest.itemCountRead = 2 ∧ manifest.itemCountWritten = 0) ∧
    featuresWithReactiveDependents bandView = ["income"] ∧
    failedIncome.offline.map (fun rec => (rec.result.entityKey.encode, rec.result.ref.name)) =
      [("user_id=1", "income"), ("user_id=2", "income")] ∧
    (exec noFaults.service failedIncome incomeImport.runDwhFeatureImport).1.updates.map
      (fun event => (event.entity.entityKey, event.featureName)) = [([("user_id", "1")], "income")] :=
  ⟨rfl, ⟨_, rfl, rfl, rfl⟩, rfl, rfl, rfl⟩

end ClearFeature
