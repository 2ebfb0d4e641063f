import ClearFeature.RetryCopies
import ClearFeature.RetryRounds
import Mathlib.Logic.Denumerable
import Mathlib.Logic.Equiv.List
import Mathlib.Tactic.DeriveCountable

/-!
# Retries are bounded and end in one dead letter

Both runners count the attempts of an event whose handling always fails: its
copies go up to the limit, the last one becomes the dead letter, and no offset is
committed before what replaces its message is acknowledged.
-/

namespace ClearFeature

open Prog Runner

section
variable {Rec E R Own : Type} {OwnAns : Own → Type}

/-- What holds wherever a run can be stopped. -/
structure RetriesSafe (topic : RetryTopic Rec E) (attempt : Int) (limit : Nat) (b : RetryBroker) : Prop where
  copies : ∀ (i : Nat) (entry : LogEntry), b.log[i]? = some entry → getAttempt entry.headers = attempt + i ∧
    ∃ e, topic.fromJson entry.value = .ok e ∧ topic.Copy e
  bounded : b.log.length ≤ limit
  once : b.dead.length ≤ 1
  last : b.dead ≠ [] → b.log.length = limit
  committed : ∀ offset, offset < b.committed → offset + 1 < b.log.length ∨ b.dead ≠ []

/-- The retries of one message, in any rounds, and in calm rounds, where the broker takes every record. -/
structure RetriesBounded (topic : RetryTopic Rec E) (stores : StoreAnswers OwnAns)
    (program : RunnerProg Rec R OwnAns (Except PyErr ProcessResult)) (first : LogEntry) (maxAttempts : Int) : Prop where
  safe : ∀ calm rs b b', Rounds topic stores calm program { log := [first] } rs b →
    Stops (retryEnv topic stores calm) b program b' →
    RetriesSafe topic (getAttempt first.headers) (handlings (getAttempt first.headers) maxAttempts) b'
  statuses : ∀ rs b, Rounds topic stores true program { log := [first] } rs b →
    rs.map (·.status) = calmStatuses (handlings (getAttempt first.headers) maxAttempts) rs.length
  deadLetters : ∀ rs b, Rounds topic stores true program { log := [first] } rs b →
    b.dead.length = if rs.length < handlings (getAttempt first.headers) maxAttempts then 0 else 1
  rounds : ∀ n, ∃ rs b, rs.length = n ∧ Rounds topic stores true program { log := [first] } rs b

variable {topic : RetryTopic Rec E} {attempt maxAttempts : Int} {stores : StoreAnswers OwnAns} {b : RetryBroker}
  {program : RunnerProg Rec R OwnAns (Except PyErr ProcessResult)}

theorem RetryChain.safe (h : RetryChain topic attempt maxAttempts b) :
    RetriesSafe topic attempt (handlings attempt maxAttempts) b := by
  have hacknowledged := h.acknowledged
  refine ⟨fun i entry hi => (h.entries i entry hi).2, h.length_le, ?_, fun hdead => (h.length_of_dead hdead).2, ?_⟩
  · rcases h.dead with hnil | ⟨hone, -⟩
    · rw [hnil]
      exact Nat.zero_le _
    · exact hone.le
  · intro offset hoffset
    by_cases hdead : b.dead = []
    · left
      rw [hdead, List.length_nil] at hacknowledged
      omega
    · exact .inr hdead

/-- The first message by itself. -/
theorem RetryChain.first {first : LogEntry} {e : E} (herror : first.error = none)
    (hdecode : topic.fromJson first.value = .ok e) (hcopy : topic.Copy e) :
    RetryChain topic (getAttempt first.headers) maxAttempts { log := [first] } := by
  refine ⟨fun i entry hi => ?_, Nat.one_pos, fun h => absurd h (lt_irrefl 1), .inl rfl, rfl, ⟨le_rfl, Nat.zero_le _⟩⟩
  cases i with
  | zero =>
    cases hi
    exact ⟨herror, (Int.add_zero _).symm, e, hdecode, hcopy⟩
  | succ i => cases hi

theorem CalmChain.statuses_eq {statuses : List ProcessStatus} (h : CalmChain topic attempt maxAttempts b statuses) :
    statuses = calmStatuses (handlings attempt maxAttempts) statuses.length ∧
      b.dead.length = if statuses.length < handlings attempt maxAttempts then 0 else 1 := by
  have hnonempty := h.chain.nonempty
  by_cases hdead : b.dead = []
  · have hretried := h.retried hdead
    have hlength : statuses.length = b.log.length - 1 := by
      rw [hretried, List.length_replicate]
    have hlt : statuses.length < handlings attempt maxAttempts := by
      have hle := h.chain.length_le
      omega
    constructor
    · rw [calmStatuses, if_pos hlt, hlength]
      exact hretried
    · rw [if_pos hlt, hdead]
      rfl
  · obtain ⟨hone, hlast⟩ := h.chain.length_of_dead hdead
    obtain ⟨idle, hfinished⟩ := h.finished hdead
    have hlength : statuses.length = handlings attempt maxAttempts + idle := by
      rw [hfinished, List.length_append, List.length_replicate, List.length_cons, List.length_replicate]
      omega
    have hnlt : ¬ statuses.length < handlings attempt maxAttempts := by omega
    constructor
    · rw [calmStatuses, if_neg hnlt, hlength, Nat.add_sub_cancel_left, ← hlast]
      exact hfinished
    · rw [if_neg hnlt, hone]

/-- A runner that counts attempts bounds the retries. -/
theorem CountsAttempts.bounded {first : LogEntry} (hcounts : CountsAttempts topic (getAttempt first.headers) maxAttempts
    stores program) {e : E} (herror : first.error = none) (hdecode : topic.fromJson first.value = .ok e)
    (hcopy : topic.Copy e) : RetriesBounded topic stores program first maxAttempts := by
  have hfirst : RetryChain topic (getAttempt first.headers) maxAttempts { log := [first] } :=
    .first herror hdecode hcopy
  have hcalm : CalmChain topic (getAttempt first.headers) maxAttempts { log := [first] } [] :=
    ⟨hfirst, rfl, rfl, fun _ => rfl, fun h => absurd rfl h⟩
  have hchain : ∀ rs b, Rounds topic stores true program { log := [first] } rs b →
      CalmChain topic (getAttempt first.headers) maxAttempts b (rs.map (·.status)) :=
    fun rs b hrounds => hrounds.calm_statuses hcounts hcalm
  constructor
  · intro calm rs b b' hrounds hstops
    obtain ⟨hchain, hpending⟩ := hrounds.chain hcounts hfirst rfl
    exact (hstops.always (hcounts calm b hchain hpending)).safe
  · intro rs b hrounds
    have hstatuses := (hchain rs b hrounds).statuses_eq.1
    rwa [List.length_map] at hstatuses
  · intro rs b hrounds
    have hdead := (hchain rs b hrounds).statuses_eq.2
    rwa [List.length_map] at hdead
  · intro n
    induction n with
    | zero => exact ⟨[], _, rfl, .start _⟩
    | succ n ih =>
      obtain ⟨rs, b, hlength, hrounds⟩ := ih
      have hb := hchain rs b hrounds
      obtain ⟨b', r, hreturns⟩ := (retryEnv_live topic stores true).returns program b
      obtain ⟨result, rfl, -⟩ := hreturns.always (hcounts true b hb.chain hb.settled)
      exact ⟨rs ++ [result], b', by rw [List.length_append, hlength]; rfl, hrounds.round hreturns⟩

end

/-! ## The online worker -/

namespace Online

open Wire (toJson computeEvents)

/-- The copies of a compute event. -/
def retryTopic (text : WireText) (e : Wire.FeatureComputeRequested) :
    RetryTopic (OnlineRecord Wire.FeatureComputeRequested Value) Wire.FeatureComputeRequested where
  name := featureComputeOnline
  stage := "online_worker"
  fromJson := (computeEvents text).fromJson
  retry := .compute
  dlq := .dlq
  key := (computeEvents text).encoded
  payload
    | .compute e => (toJson text (Wire.FeatureComputeRequested.toDict text) e).toOption
    | _ => none
  deadLetter
    | .dlq event => some event
    | _ => none
  Copy e' := e'.WellFormed ∧ e'.normal = e.normal
  name_ne := by decide
  deadLetter_dlq _ := rfl
  key_ok h := h.1.encodable
  payload_ok {e'} h := by
    obtain ⟨raw, hraw, hread⟩ : ∃ raw, toJson text (Wire.FeatureComputeRequested.toDict text) e' = .ok raw ∧ _ := h.1.copy
    refine ⟨raw, e'.normal, congrArg Except.toOption hraw, hread, h.1.normal, ?_⟩
    rw [Wire.FeatureComputeRequested.normal_normal h.1.built, h.2]

abbrev Stores : Type := StoreAnswers (OnlineOwn.Ans (E := Wire.FeatureComputeRequested) (R := Value))

section
variable {text : WireText} {e : Wire.FeatureComputeRequested} {stores : Stores} {attempt maxAttempts : Int}
  {handle : Wire.FeatureComputeRequested → Program Wire.FeatureComputeRequested Value (Except PyErr WorkerResult)}

theorem always_retryOrDlq {calm : Bool} {b : RetryBroker} {m : ConsumedMessage} {e' : Wire.FeatureComputeRequested}
    (h : LastPolled (retryTopic text e) attempt maxAttempts b m e') (failureStatus error : String) :
    Always (retryEnv (retryTopic text e) stores calm) (RetryChain (retryTopic text e) attempt maxAttempts) b
      (retryOrDlq (computeEvents text) m e' failureStatus error maxAttempts) fun b' r => ∃ result, r = .ok result ∧
        RetryChain (retryTopic text e) attempt maxAttempts b' ∧ b'.pending = false ∧
          AttemptOutcome attempt maxAttempts calm b b' result.status := by
  unfold retryOrDlq
  apply always_bind
  refine (ClearFeature.always_retryOrDlq h failureStatus (some error)).mono ?_
  rintro b' r ⟨result, rfl, hchain, hpending, houtcome⟩
  apply always_bind
  unfold statusAfterRetryOrDlq
  split
  · exact always_safeUpdate hchain ⟨hchain, result, rfl, hchain, hpending, houtcome⟩
  · exact always_safeUpdate hchain ⟨hchain, result, rfl, hchain, hpending, houtcome⟩
  · exact ⟨hchain, hchain, result, rfl, hchain, hpending, houtcome⟩

theorem counts_attempts {failure : Except PyErr WorkerResult} {failureStatus error : String}
    (hretried : retried failure = some (failureStatus, error))
    (hfails : ∀ e', (retryTopic text e).Copy e' → FailsWith (retryTopic text e) stores failure (handle e')) :
    CountsAttempts (retryTopic text e) attempt maxAttempts stores
      (processNextWith (computeEvents text) handle maxAttempts) := by
  apply counts_of_polled rfl
  intro calm b m e' hlast
  unfold processEventWith
  apply always_bind
  apply always_safeUpdate hlast.chain
  apply always_bind
  refine ((hfails e' hlast.copy).always hlast.chain).mono ?_
  rintro b' a ⟨rfl, rfl⟩
  cases a with
  | error err =>
    cases hretried
    exact always_retryOrDlq hlast _ _
  | ok result =>
    cases result with
    | computeFailed err =>
      cases hretried
      exact always_retryOrDlq hlast _ _
    | _ => cases hretried

/-- The worker's own handler, when the computation always raises the same exception and no deadline is near. -/
theorem handleFeatureComputeRequested_fails {err : PyErr} (herr : err.isDeterministic = true)
    (hcompute : ∀ e' a, stores.own (.compute e') a → a = .error err)
    (hclock : ∀ t, stores.clock t → e.expired t = .ok false) {e' : Wire.FeatureComputeRequested}
    (hcopy : (retryTopic text e).Copy e') : FailsWith (retryTopic text e) stores (.ok (.computeFailed err.msg))
      (handleFeatureComputeRequested (computeEvents text) e') := by
  obtain ⟨key, hkey⟩ := hcopy.1.encodable
  have hexpires : e'.expiresAt = e.expiresAt := by
    change e'.normal.expiresAt = e.normal.expiresAt
    rw [hcopy.2]
  have hexpired : ∀ t, e'.expired t = e.expired t := fun t => by
    rw [Wire.FeatureComputeRequested.expired, hexpires, Wire.FeatureComputeRequested.expired]
  have hencoded : (computeEvents text).encoded e' = .ok key := hkey
  rw [handleFeatureComputeRequested, hencoded]
  dsimp only
  rw [failsWith_ask_bind]
  refine ⟨trivial, fun t ht => ?_⟩
  have hnow : (computeEvents text).expired e' t = .ok false := (hexpired t).trans (hclock t ht)
  rw [hnow]
  refine ⟨trivial, fun a ha => ?_⟩
  cases hcompute e' a ha
  change FailsWith _ stores _ (if err.isDeterministic = true then _ else _)
  rw [if_pos herr]
  rfl

end

end Online

/-! ## The offline writer -/

namespace Offline

open Wire (TypedWriteSet toJson offlineEvents)

/-- The copies of an offline-write event. -/
def retryTopic (text : WireText) (typed : TypedWriteSet) (e : Wire.FeatureOfflineWriteRequested) :
    RetryTopic (OfflineRecord Wire.FeatureOfflineWriteRequested) Wire.FeatureOfflineWriteRequested where
  name := featureWriteOffline
  stage := "offline_writer"
  fromJson := (offlineEvents text typed).fromJson
  retry := .retry
  dlq := .dlq
  key e' := ((offlineEvents text typed).writeSet e').map fun writeSet => writeSet.entityKey.encode
  payload
    | .retry e => (toJson text (Wire.FeatureOfflineWriteRequested.toDict text) e).toOption
    | _ => none
  deadLetter
    | .dlq event => some event
    | _ => none
  Copy e' := e'.WellFormed ∧ e'.normal = e.normal
  name_ne := by decide
  deadLetter_dlq _ := rfl
  key_ok _ := ⟨_, rfl⟩
  payload_ok {e'} h := by
    obtain ⟨raw, hraw, hread⟩ : ∃ raw, toJson text (Wire.FeatureOfflineWriteRequested.toDict text) e' = .ok raw ∧ _ :=
      h.1.copy
    refine ⟨raw, e'.normal, congrArg Except.toOption hraw, hread, h.1.normal, ?_⟩
    rw [Wire.FeatureOfflineWriteRequested.normal_normal h.1.built, h.2]

abbrev Stores : Type := StoreAnswers OfflineOwn.Ans

section
variable {text : WireText} {typed : TypedWriteSet} {e : Wire.FeatureOfflineWriteRequested} {stores : Stores}
  {attempt maxAttempts : Int}
  {handle : Wire.FeatureOfflineWriteRequested →
    Program Wire.FeatureOfflineWriteRequested Value (Except PyErr OfflineWriteResult)}

theorem always_retryOrDlq {calm : Bool} {b : RetryBroker} {m : ConsumedMessage} {e' : Wire.FeatureOfflineWriteRequested}
    (h : LastPolled (retryTopic text typed e) attempt maxAttempts b m e') (failureStatus error : String) :
    Always (retryEnv (retryTopic text typed e) stores calm) (RetryChain (retryTopic text typed e) attempt maxAttempts) b
      (retryOrDlq (offlineEvents text typed) m e' failureStatus error maxAttempts) fun b' r => ∃ result, r = .ok result ∧
        RetryChain (retryTopic text typed e) attempt maxAttempts b' ∧ b'.pending = false ∧
          AttemptOutcome attempt maxAttempts calm b b' result.status := by
  unfold retryOrDlq
  apply always_bind
  refine (ClearFeature.always_retryOrDlq h failureStatus (some error)).mono ?_
  rintro b' r ⟨result, rfl, hchain, hpending, houtcome⟩
  apply always_bind
  unfold statusAfterRetryOrDlq
  split
  · exact always_safeUpdate hchain ⟨hchain, result, rfl, hchain, hpending, houtcome⟩
  · exact always_safeUpdate hchain ⟨hchain, result, rfl, hchain, hpending, houtcome⟩
  · exact ⟨hchain, hchain, result, rfl, hchain, hpending, houtcome⟩

theorem counts_attempts {failure : Except PyErr OfflineWriteResult} {failureStatus error : String}
    (hretried : retried failure = some (failureStatus, error))
    (hfails : ∀ e', (retryTopic text typed e).Copy e' → FailsWith (retryTopic text typed e) stores failure (handle e')) :
    CountsAttempts (retryTopic text typed e) attempt maxAttempts stores
      (processNextWith (offlineEvents text typed) handle maxAttempts) := by
  apply counts_of_polled rfl
  intro calm b m e' hlast
  unfold processEventWith
  apply always_bind
  refine ((hfails e' hlast.copy).always hlast.chain).mono ?_
  rintro b' a ⟨rfl, rfl⟩
  cases a with
  | error err =>
    cases hretried
    exact always_retryOrDlq hlast _ _
  | ok result => cases hretried

end

end Offline

/-! ## One event of each kind -/

instance countableChar : Countable Char :=
  Function.Injective.countable (f := Char.toNat) fun a b h => by rw [← Char.ofNat_toNat a, h, Char.ofNat_toNat]

instance countableString : Countable String := Function.Injective.countable (f := String.toList) fun _ _ => String.toList_injective

instance : Countable PyFloat := by
  refine Function.Injective.countable (f := fun x : PyFloat => (x.neg, x.mant, x.exp)) fun x y h => ?_
  obtain ⟨neg, mant, exp, _⟩ := x
  cases h
  rfl

deriving instance Countable for JsonTok

/-- The texts of some values; any other value gets a text of zeros. -/
noncomputable def sampleWrite (samples : List (List JsonTok × Bytes)) (toks : List JsonTok) : Bytes :=
  match Dict.get? samples toks with
  | some raw => raw
  | none => List.replicate ((exists_injective_nat (List JsonTok)).choose toks) 0

theorem sampleWrite_injective {samples : List (List JsonTok × Bytes)} (hzero : ∀ s ∈ samples, ∃ b ∈ s.2, b ≠ 0)
    (hdistinct : ∀ s ∈ samples, ∀ s' ∈ samples, s.2 = s'.2 → s.1 = s'.1) :
    Function.Injective (sampleWrite samples) := by
  have hmixed : ∀ {raw : Bytes} {n : Nat}, (∃ b ∈ raw, b ≠ 0) → raw ≠ List.replicate n 0 := by
    rintro raw n ⟨b, hb, hne⟩ rfl
    exact hne (List.eq_of_mem_replicate hb)
  intro toks toks' h
  unfold sampleWrite at h
  cases hs : Dict.get? samples toks with
  | some raw =>
    have hmem := Dict.mem_of_get? hs
    cases hs' : Dict.get? samples toks' with
    | some raw' =>
      rw [hs, hs'] at h
      exact hdistinct _ hmem _ (Dict.mem_of_get? hs') h
    | none =>
      rw [hs, hs'] at h
      exact absurd h (hmixed (hzero _ hmem))
  | none =>
    cases hs' : Dict.get? samples toks' with
    | some raw' =>
      rw [hs, hs'] at h
      exact absurd h.symm (hmixed (hzero _ (Dict.mem_of_get? hs')))
    | none =>
      rw [hs, hs'] at h
      have hlength := congrArg List.length h
      rw [List.length_replicate, List.length_replicate] at hlength
      exact (exists_injective_nat (List JsonTok)).choose_spec hlength

section
variable {s s' : List JsonTok × Bytes} {samples : List (List JsonTok × Bytes)}

theorem sampleWrite_pair_injective (hs : ∃ b ∈ s.2, b ≠ 0) (hs' : ∃ b ∈ s'.2, b ≠ 0) (hne : s.2 ≠ s'.2) :
    Function.Injective (sampleWrite [s, s']) := by
  apply sampleWrite_injective
  · simp only [List.forall_mem_cons]
    exact ⟨hs, hs', fun _ h => absurd h List.not_mem_nil⟩
  · intro r hr r' hr' h
    simp only [List.mem_cons, List.not_mem_nil, or_false] at hr hr'
    rcases hr with rfl | rfl
    · rcases hr' with rfl | rfl
      · rfl
      · exact absurd h hne
    · rcases hr' with rfl | rfl
      · exact absurd h.symm hne
      · rfl

theorem sampleWrite_first : sampleWrite (s :: samples) s.1 = s.2 := by
  rw [sampleWrite, Dict.get?_cons, if_pos rfl]

theorem sampleWrite_second (hne : s.1 ≠ s'.1) : sampleWrite (s :: s' :: samples) s'.1 = s'.2 := by
  rw [sampleWrite, Dict.get?_cons, if_neg hne, Dict.get?_cons, if_pos rfl]

end

def newYear : Int := 1704067200000000

/-- `isoformat` at the one instant of the samples. -/
def sampleIso (t : Int) : String := if t = newYear then "2024-01-01T00:00:00+00:00" else toString t

theorem sampleIso_injective : Function.Injective sampleIso := by
  have hne : ∀ t : Int, "2024-01-01T00:00:00+00:00" ≠ toString t := by
    intro t h
    have hread := intOfText_toString t
    rw [← h] at hread
    have hnone : (intOfText "2024-01-01T00:00:00+00:00".toList).isSome = false := by decide
    rw [hread] at hnone
    cases hnone
  intro t t' h
  unfold sampleIso at h
  by_cases ht : t = newYear
  · by_cases ht' : t' = newYear
    · rw [ht, ht']
    · rw [if_pos ht, if_neg ht'] at h
      exact absurd h (hne t')
  · by_cases ht' : t' = newYear
    · rw [if_neg ht, if_pos ht'] at h
      exact absurd h.symm (hne t)
    · rw [if_neg ht, if_neg ht'] at h
      have hread := intOfText_toString t
      rw [h, intOfText_toString] at hread
      exact (Option.some.inj hread).symm

def sampleRequest : Wire.FeatureComputeRequested where
  requestId := .str "r1"
  jobId := .str "j1"
  priority := .str "normal"
  deadlineMs := .int 500
  entity := ⟨.str "user", [(.str "user_id", .str "1")]⟩
  view := .str "v"
  viewVersion := .int 1
  reports := []
  writePolicy := .str "online_first"
  idempotencyKey := .str "k1"
  correlationId := .str "c1"
  occurredAt := .aware newYear
  requestedFeatureGroups := []
  requestedFeatures := [.str "f"]
  eventTs := none
  expiresAt := none
  eventType := .str "feature_compute.requested"
  eventVersion := .int 1

def sampleOfflineWrite : Wire.FeatureOfflineWriteRequested where
  requestId := .str "r1"
  jobId := .str "j1"
  correlationId := .str "c1"
  occurredAt := .aware newYear
  writeSet := {
    view := .str "v"
    viewVersion := .int 1
    entityKey := userKey
    results := []
    sourceRefs := []
    requestId := .str "r1"
    jobId := .str "j1"
    runId := .null
    correlationId := .str "c1"
    writePolicy := .str "online_first" }
  eventType := .str "feature_write.offline.requested"
  eventVersion := .int 1

/-- The dictionaries of the two events. -/
def requestDict : Value := .obj (sampleRequest.entries
  (.obj [("entity_type", .str "user"), ("entity_key", .obj [("user_id", .str "1")])]) []
  (.str "2024-01-01T00:00:00+00:00") .null .null)

def offlineWriteDict : Value := .obj (sampleOfflineWrite.entries (.str "2024-01-01T00:00:00+00:00")
  (.obj (sampleOfflineWrite.writeSet.entries [] [])))

def requestText : Bytes :=
  ["\x7b\"correlation_id\": \"c1\", ", "\"deadline_ms\": 500, ", "\"entity\": \x7b\"entity_key\": ",
   "\x7b\"user_id\": \"1\"\x7d, ", "\"entity_type\": \"user\"\x7d, ", "\"event_ts\": null, ", "\"event_type\": ",
   "\"feature_compute.requested\", ", "\"event_version\": 1, ", "\"expires_at\": null, ",
   "\"idempotency_key\": \"k1\", ", "\"job_id\": \"j1\", ", "\"occurred_at\": ", "\"2024-01-01T00:00:00",
   "+00:00\", ", "\"priority\": \"normal\", ", "\"reports\": [], ", "\"request_id\": \"r1\", ",
   "\"requested_feature_groups\": ", "[], ", "\"requested_features\": [\"f\"], ", "\"view\": \"v\", ",
   "\"view_version\": 1, ", "\"write_policy\": ", "\"online_first\"\x7d"].flatMap asciiBytes

def offlineWriteText : Bytes :=
  ["\x7b\"correlation_id\": \"c1\", ", "\"event_type\": ", "\"feature_write.offline.", "requested\", ",
   "\"event_version\": 1, ", "\"job_id\": \"j1\", ", "\"occurred_at\": ", "\"2024-01-01T00:00:00", "+00:00\", ",
   "\"request_id\": \"r1\", ", "\"write_set\": ", "\x7b\"correlation_id\": \"c1\", ", "\"entity_key\": ",
   "[[\"user_id\", \"1\"]], ", "\"job_id\": \"j1\", ", "\"request_id\": \"r1\", ", "\"results\": \x7b\x7d, ",
   "\"run_id\": null, ", "\"source_refs\": \x7b\x7d, ", "\"view\": \"v\", ", "\"view_version\": 1, ",
   "\"write_policy\": ", "\"online_first\"\x7d\x7d"].flatMap asciiBytes

def samples : List (List JsonTok × Bytes) :=
  [(canonicalValueJson requestDict, requestText), (canonicalValueJson offlineWriteDict, offlineWriteText)]

theorem sampleWrite_samples_injective : Function.Injective (sampleWrite samples) := by
  have hrequest : ∃ b ∈ requestText, b ≠ 0 := ⟨123, by decide +kernel, by decide⟩
  have hwrite : ∃ b ∈ offlineWriteText, b ≠ 0 := ⟨123, by decide +kernel, by decide⟩
  have hne : requestText ≠ offlineWriteText := by decide +kernel
  exact sampleWrite_pair_injective hrequest hwrite hne

/-- A text that is the real one on the two events. -/
noncomputable def sampleText : WireText :=
  .ofInjective (sampleWrite samples) sampleWrite_samples_injective sampleIso sampleIso_injective

theorem dumps_sampleText (value : Value) : sampleText.dumps value = sampleWrite samples (canonicalValueJson value) :=
  rfl

theorem dumps_requestDict : sampleText.dumps requestDict = requestText := by
  rw [dumps_sampleText]
  exact sampleWrite_first

theorem dumps_offlineWriteDict : sampleText.dumps offlineWriteDict = offlineWriteText := by
  have hne : canonicalValueJson requestDict ≠ canonicalValueJson offlineWriteDict := by decide +kernel
  rw [dumps_sampleText]
  exact sampleWrite_second hne

theorem sampleRequest_wellFormed : sampleRequest.WellFormed := by
  refine ⟨⟨?_, ⟨trivial, [("user_id", .str "1")], rfl, ?_⟩, fun r hr => (nomatch hr), rfl⟩, ?_, ?_⟩
  · simp [sampleRequest, Wire.FeatureComputeRequested.fields, Value.Proper, Value.ProperList]
  · exact ⟨List.nodup_singleton _, trivial, trivial⟩
  · simp [sampleRequest, Wire.FeatureComputeRequested.times, Wire.IsAware]
  · exact ⟨"user_id=1", by decide⟩

theorem sampleOfflineWrite_wellFormed : sampleOfflineWrite.WellFormed := by
  refine ⟨⟨?_, ?_, List.nodup_nil, fun r hr => (nomatch hr), [], rfl, List.nodup_nil, trivial⟩, ?_⟩
  · simp [sampleOfflineWrite, Wire.FeatureOfflineWriteRequested.fields, Value.Proper]
  · simp [sampleOfflineWrite, Wire.FeatureWriteSet.fields, Value.Proper]
  · simp [sampleOfflineWrite, Wire.FeatureOfflineWriteRequested.times, Wire.IsAware]

theorem fromJson_requestText :
    (Wire.computeEvents sampleText).fromJson requestText = .ok sampleRequest.normal := by
  have hdict : sampleRequest.toDict sampleText = .ok requestDict := rfl
  rw [← dumps_requestDict]
  exact (Wire.FeatureComputeRequested.reads sampleRequest_wellFormed.built (Wire.FeatureComputeRequested.encodes hdict)).fromJson (sampleText.printable _)

theorem fromJson_offlineWriteText (typed : Wire.TypedWriteSet) :
    (Wire.offlineEvents sampleText typed).fromJson offlineWriteText = .ok sampleOfflineWrite.normal := by
  have hdict : sampleOfflineWrite.toDict sampleText = .ok offlineWriteDict := rfl
  rw [← dumps_offlineWriteDict]
  exact (Wire.FeatureOfflineWriteRequested.reads sampleOfflineWrite_wellFormed.built
    (Wire.FeatureOfflineWriteRequested.encodes hdict)).fromJson
    (sampleText.printable _)

def textOf : Value → String
  | .str s => s
  | _ => ""

/-- The sample has no results and no sources. -/
def sampleTyped : Wire.TypedWriteSet where
  of w := {
    view := textOf w.view
    viewVersion := 1
    entityKey := w.entityKey
    results := []
    sourceRefs := []
    requestId := some (textOf w.requestId)
    jobId := some (textOf w.jobId)
    correlationId := some (textOf w.correlationId)
    writePolicy := textOf w.writePolicy }
  entityKey_of _ := rfl

/-- The computation always raises, and time stands still. -/
def failingStores : Online.Stores where
  own
    | .compute _, a => a = .error (.keyError "income")
    | _, _ => True
  clock t := t = newYear
  answers
    | .compute _ => ⟨_, rfl⟩
    | .writeOnline _ => ⟨.ok [], trivial⟩
    | .putResult _ => ⟨.ok (), trivial⟩
  ticks := ⟨_, rfl⟩

def idleStores : Offline.Stores where
  own _ _ := True
  clock _ := True
  answers
    | .appendNew _ _ _ => ⟨.ok (), trivial⟩
  ticks := ⟨0, trivial⟩

/-- Both runners bound the retries of a well-formed event whose handling always fails in the same retried way. -/
theorem retries_bounded (text : WireText) (typed : Wire.TypedWriteSet) (raw : Bytes) (headers : Headers)
    (maxAttempts : Int) :
    (∀ (e : Wire.FeatureComputeRequested) (stores : Online.Stores)
      (handle : Wire.FeatureComputeRequested → Online.Program Wire.FeatureComputeRequested Value (Except PyErr WorkerResult))
      (failure : Except PyErr WorkerResult),
      (Wire.computeEvents text).fromJson raw = .ok e → e.WellFormed → (Online.retried failure).isSome = true →
      (∀ e', (Online.retryTopic text e).Copy e' → FailsWith (Online.retryTopic text e) stores failure (handle e')) →
      RetriesBounded (Online.retryTopic text e) stores
        (Online.processNextWith (Wire.computeEvents text) handle maxAttempts) ⟨raw, headers, none⟩ maxAttempts) ∧
    (∀ (e : Wire.FeatureOfflineWriteRequested) (stores : Offline.Stores)
      (handle : Wire.FeatureOfflineWriteRequested →
        Offline.Program Wire.FeatureOfflineWriteRequested Value (Except PyErr OfflineWriteResult))
      (failure : Except PyErr OfflineWriteResult),
      (Wire.offlineEvents text typed).fromJson raw = .ok e → e.WellFormed → (Offline.retried failure).isSome = true →
      (∀ e', (Offline.retryTopic text typed e).Copy e' →
        FailsWith (Offline.retryTopic text typed e) stores failure (handle e')) →
      RetriesBounded (Offline.retryTopic text typed e) stores
        (Offline.processNextWith (Wire.offlineEvents text typed) handle maxAttempts) ⟨raw, headers, none⟩ maxAttempts) := by
  constructor
  · intro e stores handle failure hdecode hwell hretried hfails
    obtain ⟨⟨failureStatus, error⟩, hretried⟩ := Option.isSome_iff_exists.mp hretried
    exact (Online.counts_attempts hretried hfails).bounded rfl hdecode ⟨hwell, rfl⟩
  · intro e stores handle failure hdecode hwell hretried hfails
    obtain ⟨⟨failureStatus, error⟩, hretried⟩ := Option.isSome_iff_exists.mp hretried
    exact (Offline.counts_attempts hretried hfails).bounded rfl hdecode ⟨hwell, rfl⟩

/-- Three attempts of each of the two events, the first copies having none: the worker's computation always raises, the
writer's handler always raises. -/
theorem retries_bounded_three :
    RetriesBounded (Online.retryTopic sampleText sampleRequest.normal) failingStores
        (Online.processNext (Wire.computeEvents sampleText) 3) ⟨requestText, [], none⟩ 3 ∧
      RetriesBounded (Offline.retryTopic sampleText sampleTyped sampleOfflineWrite.normal) idleStores
        (Offline.processNextWith (Wire.offlineEvents sampleText sampleTyped)
          (fun _ => pure (.error (.other "RuntimeError" "disk full"))) 3) ⟨offlineWriteText, [], none⟩ 3 := by
  constructor
  · rw [Online.processNext_eq]
    refine (retries_bounded sampleText sampleTyped requestText [] 3).1 sampleRequest.normal failingStores _
      (.ok (.computeFailed "income")) fromJson_requestText sampleRequest_wellFormed.normal rfl fun e' hcopy => ?_
    have herr : (PyErr.keyError "income").isDeterministic = true := rfl
    exact Online.handleFeatureComputeRequested_fails herr (fun _ _ h => h) (fun _ _ => rfl) hcopy
  · exact (retries_bounded sampleText sampleTyped offlineWriteText [] 3).2 sampleOfflineWrite.normal idleStores _
      (.error (.other "RuntimeError" "disk full")) (fromJson_offlineWriteText sampleTyped)
      sampleOfflineWrite_wellFormed.normal rfl fun _ _ => rfl

end ClearFeature
