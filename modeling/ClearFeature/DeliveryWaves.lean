import ClearFeature.Delivery

/-!
# Commits of the batch and the propagation runner

A chunk is done when its results are stored and announced and its completion is
published. An update is done when a later wave has executed each of its
candidates and has gone through.
-/

namespace ClearFeature

open Prog

/-! ## The batch worker -/

/-- `itemDone` holds the results of an item, or the text of a deterministic error. -/
inductive BatchEffect where
  | published (sent : Sent BatchRecord)
  | planned (event : BatchChunkRequested) (viewDef : FeatureViewDef) (features : List String)
  | itemDone (viewDef : FeatureViewDef) (features : List String) (item : BatchItem)
      (outcome : Except String (List FeatureResult))
  | appended (view : String) (viewVersion : Int) (results : List FeatureResult)

def itemGain (viewDef : FeatureViewDef) (features : List String) (item : BatchItem) :
    Except PyErr (List FeatureResult) → Gain BatchEffect
  | .ok results => .one (.itemDone viewDef features item (.ok results))
  | .error e => if e.isDeterministic then .one (.itemDone viewDef features item (.error e.msg)) else .none

def batchEffects : Effects BatchRecord BatchOwn BatchEffect BatchOwn.Ans where
  published := .published
  achieved := fun
    | .plan event, .ok (viewDef, features) => .one (.planned event viewDef features)
    | .computeItem viewDef features item, a => itemGain viewDef features item a
    | .persistItem viewDef features item _, a => itemGain viewDef features item a
    | .appendNew view viewVersion results, .ok () => .one (.appended view viewVersion results)
    | _, _ => .none

/-- The tally after one more item. -/
def Batch.ChunkTally.add (t : Batch.ChunkTally) : Except String (List FeatureResult) → Batch.ChunkTally
  | .ok results => t.ok results
  | .error e => t.failed e

section
variable (fromJson : Bytes → Except PyErr BatchChunkRequested)

/-- Every item of the chunk has its results or its error, and the results of all items are stored and announced. -/
structure ChunkDone (has : BatchEffect → Prop) (event : BatchChunkRequested) (viewDef : FeatureViewDef)
    (features : List String) (outcomes : List (Except String (List FeatureResult))) : Prop where
  items : List.Forall₂ (fun item r => has (.itemDone viewDef features item r)) event.items outcomes
  appended : Batch.isRefChunk event = true →
    has (.appended viewDef.name viewDef.viewVersion (outcomes.foldl .add ({} : Batch.ChunkTally)).results)
  announced : ∀ u ∈ buildFeatureUpdatedEvents viewDef (outcomes.foldl .add ({} : Batch.ChunkTally)).results viewDef.entity
    .batchWorker, Announced .updated (fun p => has (.published p)) u

/-- The message is a dead letter; or its chunk was planned and done, and the report on it tells what became of its items. -/
def batchOutcome : Outcome BatchEffect := fun has m =>
  DeadLettered .dlq featureComputeBatch "batch_worker" (fun p => has (.published p)) m ∨
  ∃ event viewDef features outcomes, fromJson m.value = .ok event ∧ has (.planned event viewDef features) ∧
    ChunkDone has event viewDef features outcomes ∧
    has (.published ⟨batchJobEvents, event.batchJobId,
      .processed (Batch.processedEvent event (outcomes.foldl .add {})), []⟩)

theorem ChunkDone.mono {has has' : BatchEffect → Prop} (hle : ∀ e, has e → has' e) {event : BatchChunkRequested}
    {viewDef : FeatureViewDef} {features : List String} {outcomes : List (Except String (List FeatureResult))}
    (h : ChunkDone has event viewDef features outcomes) : ChunkDone has' event viewDef features outcomes where
  items := h.items.imp fun _ _ => hle _
  appended hr := hle _ (h.appended hr)
  announced u hu := (h.announced u hu).mono fun _ => hle _

theorem batchOutcome_mono : (batchOutcome fromJson).Mono := by
  intro has has' m hle ho
  rcases ho with h | ⟨event, viewDef, features, outcomes, hj, hp, hd, hr⟩
  · exact .inl (h.mono fun _ => hle _)
  · exact .inr ⟨event, viewDef, features, outcomes, hj, hle _ hp, hd.mono hle, hle _ hr⟩

theorem Ledger.extends_gain_one {Eff : Type} (l : Ledger Eff) (g : Gain Eff) (hg : ∀ f, g ≠ .all f) :
    l.Extends (l.gain g) := by
  cases g with
  | none => exact .refl l
  | one e => exact l.extends_credit e
  | all f => exact absurd rfl (hg f)

/-- The tally is made of what became of the items, in their order. -/
theorem wp_itemLoop {m : ConsumedMessage} {ms : List ConsumedMessage} (viewDef : FeatureViewDef) (features : List String)
    {one : BatchItem → Batch.Program (Except PyErr (List FeatureResult))}
    (hone : ∀ (l : Ledger BatchEffect) item, l.polled = m :: ms →
      wp (commitMonitor Unit batchEffects (batchOutcome fromJson)) l (one item) fun l' r =>
        l.Extends l' ∧ ∀ f, itemGain viewDef features item r = .one f → l'.Has m f) :
    ∀ (items : List BatchItem) (t : Batch.ChunkTally) {l : Ledger BatchEffect}, l.polled = m :: ms →
    wp (commitMonitor Unit batchEffects (batchOutcome fromJson)) l (Batch.itemLoop one items t) fun l' r =>
      l.Extends l' ∧ ∀ t', r = .ok t' → ∃ outcomes, t' = outcomes.foldl .add t ∧
        List.Forall₂ (fun item r => l'.Has m (.itemDone viewDef features item r)) items outcomes
  | [], t, l, hp => by
    refine ⟨.refl l, fun t' ht => ⟨[], ?_, .nil⟩⟩
    cases ht
    rfl
  | item :: items, t, l, hp => by
    unfold Batch.itemLoop
    rw [wp_bind]
    refine wp_mono (fun l' r h => ?_) (hone l item hp)
    have hp' : l'.polled = m :: ms := h.1.polled.trans hp
    have hcons : ∀ outcome, l'.Has m (.itemDone viewDef features item outcome) →
        wp (commitMonitor Unit batchEffects (batchOutcome fromJson)) l' (Batch.itemLoop one items (t.add outcome))
          fun l'' r => l.Extends l'' ∧ ∀ t', r = .ok t' → ∃ outcomes, t' = outcomes.foldl .add t ∧
            List.Forall₂ (fun item r => l''.Has m (.itemDone viewDef features item r)) (item :: items) outcomes := by
      intro outcome hd
      refine wp_mono (fun l'' r h'' => ⟨h.1.trans h''.1, fun t' hr => ?_⟩)
        (wp_itemLoop viewDef features hone items (t.add outcome) hp')
      obtain ⟨outcomes, ht, hall⟩ := h''.2 t' hr
      exact ⟨outcome :: outcomes, ht, .cons (h''.1.has _ _ hd) hall⟩
    cases r with
    | ok results => exact hcons (.ok results) (h.2 _ rfl)
    | error e =>
      dsimp only
      cases he : e.isDeterministic with
      | true => exact hcons (.error e.msg) (h.2 _ (by simp only [itemGain, he, if_true]))
      | false => exact ⟨h.1, fun t' ht => by cases ht⟩

theorem wp_itemCall {m : ConsumedMessage} {ms : List ConsumedMessage} (c : BatchOwn)
    (hc : BatchOwn.Ans c = Except PyErr (List FeatureResult)) (viewDef : FeatureViewDef) (features : List String)
    (item : BatchItem) {l : Ledger BatchEffect} (hp : l.polled = m :: ms)
    (hg : ∀ a, batchEffects.achieved c a = itemGain viewDef features item (cast hc a)) :
    wp (commitMonitor Unit batchEffects (batchOutcome fromJson)) l (Runner.own c) fun l' r =>
      l.Extends l' ∧ ∀ f, itemGain viewDef features item (cast hc r) = .one f → l'.Has m f := by
  refine ⟨fun m hm => (nomatch hm), fun a => ?_⟩
  show l.Extends (l.gain (batchEffects.achieved c a)) ∧
    ∀ f, itemGain viewDef features item (cast hc a) = .one f → (l.gain (batchEffects.achieved c a)).Has m f
  rw [hg]
  refine ⟨l.extends_gain_one _ ?_, fun f hf => ?_⟩
  · intro f
    unfold itemGain
    split
    · exact fun h => (nomatch h)
    · split <;> exact fun h => (nomatch h)
  · rw [hf]
    exact Ledger.has_credit_head hp f

section
variable (event : BatchChunkRequested) (viewDef : FeatureViewDef) (features : List String) {m : ConsumedMessage}
  {ms : List ConsumedMessage} {l : Ledger BatchEffect}

/-- What a chunk that was computed leaves. -/
def ChunkComputed (m : ConsumedMessage) (ms : List ConsumedMessage) (l l' : Ledger BatchEffect) :
    Except PyErr Batch.ChunkTally → Prop
  | .error _ => l.Extends l' ∧ l'.polled = m :: ms
  | .ok t => l.Extends l' ∧ l'.polled = m :: ms ∧
    ∃ outcomes, t = outcomes.foldl .add {} ∧ ChunkDone (l'.Has m) event viewDef features outcomes

/-- References: every item is computed, then all results are appended and announced. -/
theorem wp_computeRefChunk (hp : l.polled = m :: ms) :
    wp (commitMonitor Unit batchEffects (batchOutcome fromJson)) l (Batch.computeRefChunk event viewDef features)
      (ChunkComputed event viewDef features m ms l) := by
  unfold Batch.computeRefChunk
  rw [wp_bind]
  refine wp_mono (fun l₁ r h₁ => ?_) (wp_itemLoop fromJson viewDef features (fun l item hp =>
    wp_itemCall fromJson (.computeItem viewDef features item) rfl viewDef features item hp fun _ => rfl) event.items {} hp)
  have hp₁ := h₁.1.polled.trans hp
  cases r with
  | error e => exact ⟨h₁.1, hp₁⟩
  | ok t =>
    obtain ⟨outcomes, ht, hitems⟩ := h₁.2 t rfl
    dsimp only
    rw [wp_own]
    intro a
    cases a with
    | error e => exact ⟨h₁.1, hp₁⟩
    | ok u =>
      have ha := Ledger.has_credit_head hp₁ (.appended viewDef.name viewDef.viewVersion t.results)
      have hx := l₁.extends_credit (.appended viewDef.name viewDef.viewVersion t.results)
      show wp _ (l₁.credit (.appended viewDef.name viewDef.viewVersion t.results)) _ _
      dsimp only
      rw [wp_bind]
      refine wp_mono (fun l₂ r h₂ => ?_) (wp_emitFeatureUpdates _ viewDef _ _ _)
      have hp₂ : l₂.polled = m :: ms := h₂.1.polled.trans hp₁
      have hx₂ := (h₁.1.trans hx).trans h₂.1
      cases r with
      | error e => exact ⟨hx₂, hp₂⟩
      | ok n =>
        have hdone : ChunkDone (l₂.Has m) event viewDef features outcomes := by
          subst ht
          exact ⟨hitems.imp fun _ _ h => h₂.1.has _ _ (hx.has _ _ h), fun _ => h₂.1.has _ _ ha,
            fun u hu => (h₂.2 n rfl u hu).2 m ms hp₁⟩
        dsimp only
        split
        · rw [wp_own]
          intro a
          cases a with
          | error e => exact ⟨hx₂, hp₂⟩
          | ok u => exact ⟨hx₂, hp₂, outcomes, ht, hdone⟩
        · exact ⟨hx₂, hp₂, outcomes, ht, hdone⟩

/-- Inline items: each is stored when it is computed, and all results are announced. -/
theorem wp_computeInlineChunk (hr : Batch.isRefChunk event = false) (hp : l.polled = m :: ms) :
    wp (commitMonitor Unit batchEffects (batchOutcome fromJson)) l (Batch.computeInlineChunk event viewDef features)
      (ChunkComputed event viewDef features m ms l) := by
  unfold Batch.computeInlineChunk
  rw [wp_bind]
  refine wp_mono (fun l₁ r h₁ => ?_) (wp_itemLoop fromJson viewDef features (fun l item hp =>
    wp_itemCall fromJson (.persistItem viewDef features item event.writeOnline) rfl viewDef features item hp fun _ => rfl)
    event.items {} hp)
  have hp₁ := h₁.1.polled.trans hp
  cases r with
  | error e => exact ⟨h₁.1, hp₁⟩
  | ok t =>
    obtain ⟨outcomes, ht, hitems⟩ := h₁.2 t rfl
    dsimp only
    rw [wp_bind]
    refine wp_mono (fun l₂ r h₂ => ?_) (wp_emitFeatureUpdates _ viewDef _ _ _)
    have hp₂ : l₂.polled = m :: ms := h₂.1.polled.trans hp₁
    cases r with
    | error e => exact ⟨h₁.1.trans h₂.1, hp₂⟩
    | ok n =>
      refine ⟨h₁.1.trans h₂.1, hp₂, outcomes, ht, hitems.imp fun _ _ h => h₂.1.has _ _ h, fun h => ?_, fun u hu => ?_⟩
      · rw [hr] at h
        cases h
      · subst ht
        exact (h₂.2 n rfl u hu).2 m ms hp₁

theorem wp_chunk (hp : l.polled = m :: ms) :
    wp (commitMonitor Unit batchEffects (batchOutcome fromJson)) l
      (if Batch.isRefChunk event then Batch.computeRefChunk event viewDef features
        else Batch.computeInlineChunk event viewDef features)
      (ChunkComputed event viewDef features m ms l) := by
  cases hr : Batch.isRefChunk event with
  | true =>
    rw [if_pos rfl]
    exact wp_computeRefChunk fromJson event viewDef features hp
  | false =>
    rw [if_neg Bool.false_ne_true]
    exact wp_computeInlineChunk fromJson event viewDef features hr hp

end

section
variable {m : ConsumedMessage} {ms : List ConsumedMessage} {l : Ledger BatchEffect}

theorem wp_batchDead (hp : l.polled = m :: ms) (status error : String) :
    wp (commitMonitor Unit batchEffects (batchOutcome fromJson)) l (Batch.deadLetter m status error) fun _ _ => True :=
  wp_mono (fun _ _ _ => trivial) (wp_deadLetter hp fun _ _ h => .inl ⟨_, h, rfl, rfl, rfl⟩)

/-- A chunk that was read from the message is committed once it is done and the report on it is published. -/
theorem wp_batchEvent (hp : l.polled = m :: ms) {event : BatchChunkRequested} (hj : fromJson m.value = .ok event) :
    wp (commitMonitor Unit batchEffects (batchOutcome fromJson)) l (Batch.processEvent m event) fun _ _ => True := by
  unfold Batch.processEvent Batch.handleBatchChunk
  rw [wp_bind, wp_own]
  intro planned
  cases planned with
  | error e =>
    dsimp only
    split
    · exact wp_batchDead fromJson (by exact hp) _ _
    · trivial
  | ok planned =>
    obtain ⟨viewDef, features⟩ := planned
    have hplan := Ledger.has_credit_head hp (BatchEffect.planned event viewDef features)
    show wp _ (l.credit (.planned event viewDef features)) _ _
    dsimp only
    rw [wp_bind]
    refine wp_mono (fun l₁ r h₁ => ?_) (wp_chunk fromJson event viewDef features (by exact hp))
    cases r with
    | error e => trivial
    | ok t =>
      obtain ⟨hx₁, hp₁, outcomes, ht, hdone⟩ := h₁
      dsimp only
      rw [wp_publish]
      refine ⟨fun e => trivial, ?_⟩
      refine wp_commitThen ?_ (.inr ⟨event, viewDef, features, outcomes, hj, Ledger.has_credit _ (hx₁.has _ _ hplan),
        hdone.mono fun _ => Ledger.has_credit _, ?_⟩) (fun _ => trivial) trivial
      · show m ∈ l₁.polled
        rw [hp₁]
        exact List.mem_cons_self
      · subst ht
        exact Ledger.has_credit_head hp₁ _

end

theorem batch_covered (l : Ledger BatchEffect) :
    wp (commitMonitor Unit batchEffects (batchOutcome fromJson)) l (Batch.processNext fromJson) fun _ _ => True := by
  unfold Batch.processNext
  rw [wp_poll]
  refine ⟨trivial, fun m => ?_⟩
  dsimp only
  cases m.error with
  | some e => trivial
  | none =>
    dsimp only
    rw [wp_own]
    intro paused
    cases paused with
    | error e => trivial
    | ok paused =>
      cases paused with
      | true => trivial
      | false =>
        dsimp only
        rw [wp_own]
        intro acquired
        cases acquired with
        | error e => trivial
        | ok acquired =>
          cases acquired with
          | false => trivial
          | true =>
            dsimp only
            cases hj : fromJson m.value with
            | error e => exact wp_batchDead fromJson (by exact rfl) _ _
            | ok event => exact wp_batchEvent fromJson (by exact rfl) hj

end

/-! ## The propagation worker -/

/-- `wave` is a wave that went through: its entries, and what was achieved since the last poll. -/
inductive WaveEffect where
  | published (sent : Sent PropagationRecord)
  | refused (unit : WaveUnit)
  | skipped (unit : WaveUnit)
  | computed (unit : WaveUnit) (result : FeatureResult)
  | modelRan (unit : WaveUnit)
  | stored (view : String) (viewVersion : Int) (results : List FeatureResult)
  | wave (entries : DebounceStore) (recent : List WaveEffect)

def waveEffects : Effects PropagationRecord PropagationOwn WaveEffect PropagationOwn.Ans where
  published := .published
  achieved := fun
    | .recompute unit, .ok none => .one (.skipped unit)
    | .recompute unit, .ok (some result) => .one (.computed unit result)
    | .recompute unit, .error e => if e.isDeterministic then .one (.refused unit) else .none
    | .recomputeModel unit, .ok _ => .one (.modelRan unit)
    | .recomputeModel unit, .error e => if e.isDeterministic then .one (.refused unit) else .none
    | .appendNew view viewVersion results, .ok () => .one (.stored view viewVersion results)
    | .appendNew _ _ _, .error _ => .none
    | .waveMetrics _ entries, _ => .all fun recent => .wave entries recent

section
variable {U : Type} (events : UpdateEvents U) (registry : Registry) (hasModelRunner : Bool)

def ResultStored (recent : List WaveEffect) (entry : DebounceEntry) (result : FeatureResult) : Prop :=
  .stored entry.view entry.viewVersion [result] ∈ recent ∧
  ∀ v, findView? registry entry.view entry.viewVersion = some v →
    ∀ u ∈ buildFeatureUpdatedEvents v [result] entry.entity.entityType .recomputeWave,
      Announced .updated (fun p => .published p ∈ recent) u

/-- The entry was taken up by the wave: refused, skipped or left without a model runner, run by the model, or computed
with its result stored and announced. -/
def Executed (recent : List WaveEffect) (entry : DebounceEntry) : Prop :=
  ∀ entityKey, Propagation.unitKey (findView? registry entry.view entry.viewVersion) entry = .ok entityKey →
    ∃ calcTs, let unit : WaveUnit := ⟨entry.view, entry.viewVersion, entityKey, entry.dependentFeature, calcTs, 0⟩
      .refused unit ∈ recent ∨ .skipped unit ∈ recent ∨ .modelRan unit ∈ recent ∨
      Propagation.isModel (findView? registry entry.view entry.viewVersion) entry.dependentFeature = true ∧
        hasModelRunner = false ∨
      ∃ result, .computed unit result ∈ recent ∧ ResultStored registry recent entry result

theorem Executed.mono {recent recent' : List WaveEffect} {entry : DebounceEntry} (hle : ∀ e ∈ recent, e ∈ recent')
    (h : Executed registry hasModelRunner recent entry) : Executed registry hasModelRunner recent' entry := by
  intro entityKey hk
  obtain ⟨calcTs, h⟩ := h entityKey hk
  refine ⟨calcTs, ?_⟩
  rcases h with h | h | h | h | ⟨result, h, hs, hu⟩
  · exact .inl (hle _ h)
  · exact .inr (.inl (hle _ h))
  · exact .inr (.inr (.inl (hle _ h)))
  · exact .inr (.inr (.inr (.inl h)))
  · exact .inr (.inr (.inr (.inr ⟨result, hle _ h, hle _ hs, fun v hv u hm => (hu v hv u hm).mono fun _ => hle _⟩)))

def StandsFor (entry : DebounceEntry) (candidate : RecomputeCandidate) : Prop :=
  entry.view = candidate.view ∧ entry.viewVersion = candidate.viewVersion ∧
  entry.dependentFeature = candidate.dependentFeature ∧ entry.dependentVersion = candidate.dependentVersion

/-- The message is a dead letter; or every candidate of its update is among the entries of one wave that went through, and was executed there. -/
def updateOutcome : Outcome WaveEffect := fun has m =>
  DeadLettered .dlq featureUpdates "propagation_worker" (fun p => has (.published p)) m ∨
  ∃ event candidates entries recent, events.fromJson m.value = .ok event ∧
    events.plan event = .ok candidates ∧ has (.wave entries recent) ∧
    ∀ c ∈ candidates, ∃ encoded entry, events.encoded event = .ok encoded ∧
      (debounceKey c encoded, entry) ∈ entries ∧ StandsFor entry c ∧ Executed registry hasModelRunner recent entry

theorem updateOutcome_mono : (updateOutcome events registry hasModelRunner).Mono := by
  intro has has' m hle ho
  rcases ho with h | ⟨event, candidates, entries, recent, hj, hp, hw, hc⟩
  · exact .inl (h.mono fun _ => hle _)
  · exact .inr ⟨event, candidates, entries, recent, hj, hp, hle _ hw, hc⟩

/-! ### A wave -/

theorem Ledger.recent_credit {Eff : Type} (l : Ledger Eff) (e : Eff) : e ∈ (l.credit e).recent := List.mem_cons_self

theorem wp_recomputeModelDependent {l : Ledger WaveEffect} (unit : WaveUnit) (t : WaveTally) :
    wp (commitMonitor Unit waveEffects (updateOutcome events registry hasModelRunner)) l
      (Propagation.recomputeModelDependent hasModelRunner unit t) fun l' r => l.Extends l' ∧ ∀ t', r = .ok t' →
        .refused unit ∈ l'.recent ∨ .modelRan unit ∈ l'.recent ∨ hasModelRunner = false := by
  unfold Propagation.recomputeModelDependent
  cases hm : hasModelRunner with
  | false => exact ⟨.refl l, fun _ _ => .inr (.inr rfl)⟩
  | true =>
    rw [if_pos rfl, wp_own]
    intro a
    cases a with
    | error e =>
      simp only [waveEffects]
      cases he : e.isDeterministic with
      | true => exact ⟨l.extends_credit _, fun _ _ => .inl (l.recent_credit _)⟩
      | false => exact ⟨.refl l, fun t' ht => (nomatch ht)⟩
    | ok d => exact ⟨l.extends_credit _, fun _ _ => .inr (.inl (l.recent_credit _))⟩

theorem wp_storeUnit {l : Ledger WaveEffect} (entry : DebounceEntry) (result : FeatureResult) (t : WaveTally) :
    wp (commitMonitor Unit waveEffects (updateOutcome events registry hasModelRunner)) l
      (Propagation.storeUnit (findView? registry entry.view entry.viewVersion) entry result t) fun l' r =>
        l.Extends l' ∧ ∀ t', r = .ok t' → ResultStored registry l'.recent entry result := by
  unfold Propagation.storeUnit
  rw [wp_own]
  intro a
  cases a with
  | error e => exact ⟨.refl l, fun t' ht => (nomatch ht)⟩
  | ok u =>
    have hx := l.extends_credit (.stored entry.view entry.viewVersion [result])
    have hs := l.recent_credit (.stored entry.view entry.viewVersion [result])
    show wp _ (l.credit (.stored entry.view entry.viewVersion [result])) _ _
    dsimp only
    cases hv : findView? registry entry.view entry.viewVersion with
    | none =>
      refine ⟨hx, fun t' _ => ⟨hs, fun v h => ?_⟩⟩
      rw [hv] at h
      cases h
    | some v =>
      dsimp only
      rw [wp_bind]
      refine wp_mono (fun l' r h => ?_) (wp_emitFeatureUpdates _ v _ _ _)
      cases r with
      | error e => exact ⟨hx.trans h.1, fun t' ht => (nomatch ht)⟩
      | ok n =>
        refine ⟨hx.trans h.1, fun t' _ => ⟨h.1.recent _ hs, fun v' hv' u hu => ?_⟩⟩
        cases hv.symm.trans hv'
        exact (h.2 n rfl u hu).1

theorem wp_waveUnit {l : Ledger WaveEffect} (calcTs : Int) (entry : DebounceEntry) (t : WaveTally) :
    wp (commitMonitor Unit waveEffects (updateOutcome events registry hasModelRunner)) l
      (Propagation.waveUnit registry hasModelRunner calcTs 0 entry t) fun l' r =>
        l.Extends l' ∧ ∀ t', r = .ok t' → Executed registry hasModelRunner l'.recent entry := by
  unfold Propagation.waveUnit
  dsimp only
  cases hk : Propagation.unitKey (findView? registry entry.view entry.viewVersion) entry with
  | error e =>
    refine ⟨.refl l, fun t' _ entityKey h => ?_⟩
    rw [hk] at h
    cases h
  | ok entityKey =>
    -- an entry has one key, so one unit of the wave stands for it
    have hexec : ∀ {l' : Ledger WaveEffect}, (let unit : WaveUnit :=
        ⟨entry.view, entry.viewVersion, entityKey, entry.dependentFeature, calcTs, 0⟩
        .refused unit ∈ l'.recent ∨ .skipped unit ∈ l'.recent ∨ .modelRan unit ∈ l'.recent ∨
        Propagation.isModel (findView? registry entry.view entry.viewVersion) entry.dependentFeature = true ∧
          hasModelRunner = false ∨
        ∃ result, .computed unit result ∈ l'.recent ∧ ResultStored registry l'.recent entry result) →
        Executed registry hasModelRunner l'.recent entry := by
      intro l' h key' hk'
      cases hk.symm.trans hk'
      exact ⟨calcTs, h⟩
    dsimp only
    cases hm : Propagation.isModel (findView? registry entry.view entry.viewVersion) entry.dependentFeature with
    | true =>
      rw [if_pos rfl]
      refine wp_mono (fun l' r h => ⟨h.1, fun t' ht => hexec ?_⟩)
        (wp_recomputeModelDependent events registry hasModelRunner _ t)
      rcases h.2 t' ht with h | h | h
      · exact .inl h
      · exact .inr (.inr (.inl h))
      · exact .inr (.inr (.inr (.inl ⟨hm, h⟩)))
    | false =>
      rw [if_neg (by simp), wp_own]
      intro a
      cases a with
      | error e =>
        simp only [waveEffects]
        cases he : e.isDeterministic with
        | true => exact ⟨l.extends_credit _, fun t' _ => hexec (.inl (l.recent_credit _))⟩
        | false => exact ⟨.refl l, fun t' ht => (nomatch ht)⟩
      | ok out =>
        cases out with
        | none => exact ⟨l.extends_credit _, fun t' _ => hexec (.inr (.inl (l.recent_credit _)))⟩
        | some result =>
          have hx := l.extends_credit (.computed
            ⟨entry.view, entry.viewVersion, entityKey, entry.dependentFeature, calcTs, 0⟩ result)
          refine wp_mono (fun l' r h => ⟨hx.trans h.1, fun t' ht => hexec ?_⟩)
            (wp_storeUnit events registry hasModelRunner entry result t)
          exact .inr (.inr (.inr (.inr ⟨result, h.1.recent _ (l.recent_credit _), h.2 t' ht⟩)))

theorem wp_waveLoop (calcTs : Int) : ∀ (entries : DebounceStore) (t : WaveTally) (l : Ledger WaveEffect),
    wp (commitMonitor Unit waveEffects (updateOutcome events registry hasModelRunner)) l
      (Propagation.waveLoop registry hasModelRunner calcTs 0 entries t) fun l' r =>
        l.Extends l' ∧ ∀ t', r = .ok t' → ∀ e ∈ entries, Executed registry hasModelRunner l'.recent e.2
  | [], t, l => by
    refine ⟨.refl l, fun _ _ e he => ?_⟩
    cases he
  | (key, entry) :: entries, t, l => by
    unfold Propagation.waveLoop
    rw [wp_bind]
    refine wp_mono (fun l₁ r h₁ => ?_) (wp_waveUnit events registry hasModelRunner calcTs entry t)
    cases r with
    | error e => exact ⟨h₁.1, fun t' ht => (nomatch ht)⟩
    | ok t₁ =>
      refine wp_mono (fun l₂ r h₂ => ⟨h₁.1.trans h₂.1, fun t' ht e he => ?_⟩) (wp_waveLoop calcTs entries t₁ l₁)
      rcases List.mem_cons.mp he with rfl | he
      · exact (h₁.2 t₁ rfl).mono registry hasModelRunner h₂.1.recent
      · exact h₂.2 t' ht e he

theorem wp_executeWave (entries : DebounceStore) (l : Ledger WaveEffect) :
    wp (commitMonitor Unit waveEffects (updateOutcome events registry hasModelRunner)) l
      (Propagation.executeWave registry hasModelRunner entries) fun l' r =>
        l'.polled = l.polled ∧ ∀ t, r = .ok t → ∃ recent, (∀ m ∈ l.polled, l'.Has m (.wave entries recent)) ∧
          ∀ e ∈ entries, Executed registry hasModelRunner recent e.2 := by
  unfold Propagation.executeWave
  rw [wp_now]
  intro calcTs
  rw [wp_bind]
  refine wp_mono (fun l₁ r h₁ => ?_) (wp_waveLoop events registry hasModelRunner calcTs entries {} l)
  cases r with
  | error e => exact ⟨h₁.1.polled, fun t ht => (nomatch ht)⟩
  | ok t =>
    dsimp only
    rw [wp_own]
    intro u
    refine ⟨h₁.1.polled, fun _ _ => ⟨l₁.recent, fun m hm => ?_, h₁.2 t rfl⟩⟩
    refine List.mem_append_left _ (List.mem_map.mpr ⟨m, ?_, rfl⟩)
    rw [h₁.1.polled]
    exact hm

/-! ### A round -/

/-- The held messages were polled, and their candidates are in the debounce store. -/
structure RoundOk (round : Propagation.Round) (l : Ledger WaveEffect) : Prop where
  held : ∀ m ∈ round.pending, m ∈ l.polled ∧ ∃ event candidates, events.fromJson m.value = .ok event ∧
    events.plan event = .ok candidates ∧ ∀ c ∈ candidates, ∃ encoded, events.encoded event = .ok encoded ∧
      ∃ entry, Dict.get? round.debounce (debounceKey c encoded) = some entry
  named : ∀ key entry, Dict.get? round.debounce key = some entry → entry.view = key.view ∧
    entry.viewVersion = key.viewVersion ∧ entry.dependentFeature = key.dependentFeature ∧
    entry.dependentVersion = key.dependentVersion

theorem wp_commitAll {l : Ledger WaveEffect} : ∀ (messages : List ConsumedMessage),
    (∀ m ∈ messages, m ∈ l.polled ∧ updateOutcome events registry hasModelRunner (l.Has m) m) →
    wp (commitMonitor Unit waveEffects (updateOutcome events registry hasModelRunner)) l
      (Propagation.commitAll messages) fun _ _ => True
  | [], _ => trivial
  | m :: messages, h => by
    unfold Propagation.commitAll
    rw [wp_commit]
    refine ⟨h m List.mem_cons_self, fun a => ?_⟩
    cases a with
    | error e => trivial
    | ok u => exact wp_commitAll messages fun m' hm => h m' (List.mem_cons_of_mem _ hm)

theorem wp_flush {round : Propagation.Round} {l : Ledger WaveEffect} (hr : RoundOk events round l) :
    wp (commitMonitor Unit waveEffects (updateOutcome events registry hasModelRunner)) l
      (Propagation.flush registry hasModelRunner round) fun _ _ => True := by
  unfold Propagation.flush
  rw [wp_bind]
  refine wp_mono (fun l' r h => ?_) (wp_executeWave events registry hasModelRunner round.debounce l)
  cases r with
  | error e => trivial
  | ok t =>
    obtain ⟨recent, hw, he⟩ := h.2 t rfl
    dsimp only
    rw [wp_bind]
    refine wp_mono (fun _ r _ => ?_) (wp_commitAll events registry hasModelRunner round.pending fun m hm => ?_)
    · cases r <;> trivial
    · obtain ⟨hpolled, event, candidates, hj, hp, hc⟩ := hr.held m hm
      refine ⟨h.1 ▸ hpolled, .inr ⟨event, candidates, round.debounce, recent, hj, hp, hw m hpolled, fun c hcm => ?_⟩⟩
      obtain ⟨encoded, henc, entry, hget⟩ := hc c hcm
      have hmem := Dict.mem_of_get? hget
      exact ⟨encoded, entry, henc, hmem, hr.named _ _ hget, he _ hmem⟩

theorem observe_named {entries : DebounceStore} (encoded : String) (c : RecomputeCandidate) (dataTs calcTs : Int)
    (hn : ∀ key entry, Dict.get? entries key = some entry → entry.view = key.view ∧
      entry.viewVersion = key.viewVersion ∧ entry.dependentFeature = key.dependentFeature ∧
      entry.dependentVersion = key.dependentVersion) :
    (∀ key entry, Dict.get? (entries.observe (debounceKey c encoded) c dataTs calcTs) key = some entry →
      entry.view = key.view ∧ entry.viewVersion = key.viewVersion ∧ entry.dependentFeature = key.dependentFeature ∧
      entry.dependentVersion = key.dependentVersion) ∧
    (∀ key entry, Dict.get? entries key = some entry →
      ∃ entry', Dict.get? (entries.observe (debounceKey c encoded) c dataTs calcTs) key = some entry') ∧
    ∃ entry, Dict.get? (entries.observe (debounceKey c encoded) c dataTs calcTs) (debounceKey c encoded) =
      some entry := by
  refine ⟨DebounceStore.observe_preserves _ c dataTs calcTs hn ⟨rfl, rfl, rfl, rfl⟩ fun _ _ _ _ h => h,
    fun key entry h => ?_, ?_⟩
  · exact Option.isSome_iff_exists.mp (DebounceStore.observe_keeps _ c dataTs calcTs (by rw [h]; rfl))
  · exact Option.isSome_iff_exists.mp (DebounceStore.observe_adds _ c dataTs calcTs entries)

theorem observeAll_named {event : U} : ∀ {candidates : List RecomputeCandidate} {entries entries' : DebounceStore},
    Propagation.observeAll events event candidates entries = .ok entries' →
    (∀ key entry, Dict.get? entries key = some entry → entry.view = key.view ∧
      entry.viewVersion = key.viewVersion ∧ entry.dependentFeature = key.dependentFeature ∧
      entry.dependentVersion = key.dependentVersion) →
    (∀ key entry, Dict.get? entries' key = some entry → entry.view = key.view ∧
      entry.viewVersion = key.viewVersion ∧ entry.dependentFeature = key.dependentFeature ∧
      entry.dependentVersion = key.dependentVersion) ∧
    (∀ key entry, Dict.get? entries key = some entry → ∃ entry', Dict.get? entries' key = some entry') ∧
    ∀ c ∈ candidates, ∃ encoded, events.encoded event = .ok encoded ∧
      ∃ entry, Dict.get? entries' (debounceKey c encoded) = some entry
  | [], entries, entries', h, hn => by
    cases h
    refine ⟨hn, fun key entry h => ⟨entry, h⟩, fun c hc => ?_⟩
    cases hc
  | c :: candidates, entries, entries', h, hn => by
    unfold Propagation.observeAll at h
    obtain ⟨encoded, henc, h⟩ := bind_eq_ok.mp h
    obtain ⟨hn₁, hkeep₁, entry, hentry⟩ :=
      observe_named encoded c (events.dataTs event) (events.calcTs event) hn
    obtain ⟨hn₂, hkeep₂, hall⟩ := observeAll_named h hn₁
    refine ⟨hn₂, fun key entry hk => ?_, fun c' hc' => ?_⟩
    · obtain ⟨entry₁, h₁⟩ := hkeep₁ key entry hk
      exact hkeep₂ key entry₁ h₁
    · rcases List.mem_cons.mp hc' with rfl | hc'
      · exact ⟨encoded, henc, hkeep₂ _ entry hentry⟩
      · exact hall c' hc'

/-- An update that is planned and observed holds its message in the round. -/
theorem RoundOk.observed {round : Propagation.Round} {l : Ledger WaveEffect} (hr : RoundOk events round l)
    {m : ConsumedMessage} {event : U} (hj : events.fromJson m.value = .ok event) {entries : DebounceStore}
    (hh : Propagation.handleFeatureUpdated events event round.debounce = .ok (.ok entries)) :
    RoundOk events ⟨entries, round.pending ++ [m]⟩ { l with polled := m :: l.polled, recent := [] } := by
  unfold Propagation.handleFeatureUpdated at hh
  cases hp : events.plan event with
  | error e =>
    rw [hp] at hh
    dsimp only at hh
    split at hh <;> cases hh
  | ok candidates =>
    rw [hp] at hh
    obtain ⟨entries', ho, hh⟩ := bind_eq_ok.mp hh
    cases hh
    obtain ⟨hn, hold, hall⟩ := observeAll_named events ho hr.named
    refine ⟨fun m' hm' => ?_, hn⟩
    rcases List.mem_append.mp hm' with hm' | hm'
    · obtain ⟨hpolled, ev, cs, hj', hp', hc⟩ := hr.held m' hm'
      refine ⟨List.mem_cons_of_mem _ hpolled, ev, cs, hj', hp', fun c hcm => ?_⟩
      obtain ⟨encoded, henc, entry, hget⟩ := hc c hcm
      exact ⟨encoded, henc, hold _ entry hget⟩
    · cases List.mem_singleton.mp hm'
      exact ⟨List.mem_cons_self, event, candidates, hj, hp, hall⟩

theorem wp_observe {round : Propagation.Round} {l : Ledger WaveEffect} (hr : RoundOk events round l) :
    wp (commitMonitor Unit waveEffects (updateOutcome events registry hasModelRunner)) l
      (Propagation.processNext events round) fun l' r => ∀ out round', r = .ok (out, round') →
        RoundOk events round' l' := by
  have hkeep : ∀ {l' : Ledger WaveEffect}, (∀ m ∈ l.polled, m ∈ l'.polled) → RoundOk events round l' :=
    fun h => ⟨fun m hm => ⟨h m (hr.held m hm).1, (hr.held m hm).2⟩, hr.named⟩
  unfold Propagation.processNext
  rw [wp_poll]
  refine ⟨fun out round' h => ?_, fun m => ?_⟩
  · cases h
    exact hkeep fun m hm => hm
  · have hdead : ∀ status error, wp (commitMonitor Unit waveEffects (updateOutcome events registry hasModelRunner))
        { l with polled := m :: l.polled, recent := [] }
        (do return (← Propagation.deadLetter m status error).map (·, round)) fun l' r =>
          ∀ out round', r = .ok (out, round') → RoundOk events round' l' := by
      intro status error
      rw [wp_bind]
      refine wp_mono (fun l' r hp => ?_) (wp_deadLetter (by exact rfl) fun _ _ h => .inl ⟨_, h, rfl, rfl, rfl⟩)
      intro out round' h
      cases r with
      | error e => cases h
      | ok result =>
        cases h
        refine hkeep fun m' hm => ?_
        rw [hp]
        exact List.mem_cons_of_mem _ hm
    dsimp only
    cases m.error with
    | some e =>
      intro out round' h
      cases h
      exact hkeep fun m' hm => List.mem_cons_of_mem _ hm
    | none =>
      dsimp only
      cases hj : events.fromJson m.value with
      | error e => exact hdead _ _
      | ok event =>
        dsimp only
        cases hh : Propagation.handleFeatureUpdated events event round.debounce with
        | error e =>
          intro out round' h
          cases h
        | ok handled =>
          cases handled with
          | error e => exact hdead _ _
          | ok entries =>
            intro out round' h
            cases h
            exact hr.observed events hj hh

theorem propagation_covered : ∀ (n : Nat) (round : Propagation.Round) (l : Ledger WaveEffect), RoundOk events round l →
    wp (commitMonitor Unit waveEffects (updateOutcome events registry hasModelRunner)) l
      (Propagation.run events registry hasModelRunner n round) fun _ _ => True
  | 0, round, l, hr => wp_flush events registry hasModelRunner hr
  | n + 1, round, l, hr => by
    unfold Propagation.run
    rw [wp_bind]
    refine wp_mono (fun l' r h => ?_) (wp_observe events registry hasModelRunner hr)
    cases r with
    | error e => trivial
    | ok out => exact propagation_covered n out.2 l' (h out.1 out.2 rfl)

end

end ClearFeature
