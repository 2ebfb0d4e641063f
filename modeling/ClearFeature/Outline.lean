import ClearFeature.OfflineRunner
import ClearFeature.OnlineRunner

/-!
# The calls of the online worker and of the offline writer

One walk over each of the two programs. A monitor of a worker's calls gives the
rules of its outline: what is known between the calls, and that each call may
be made where it stands.
-/

namespace ClearFeature

open Prog

section
variable {Rec R Own σ α : Type} {OwnAns : Own → Type}

abbrev RunnerMonitor (Rec R : Type) {Own : Type} (OwnAns : Own → Type) : Type → Type :=
  Monitor (RunnerCall Rec R Own) (RunnerCall.Ans OwnAns)

/-- Neither a part of a status update nor a write of the status. -/
def RunnerCall.Plain : RunnerCall Rec R Own → Prop
  | .statusRead _ _ | .statusPut _ _ => False
  | _ => True

variable (mon : RunnerMonitor Rec R OwnAns σ) (inv : σ → Prop)

/-- The call is allowed under `inv` and keeps it, whatever is answered. -/
def Keeps (c : RunnerCall Rec R Own) : Prop :=
  ∀ s, inv s → mon.allowed s c ∧ ∀ a, inv (mon.record s c a)

/-- The call is allowed under `pre` and leaves `inv`; answered as wished, it leaves `post`. -/
def Yields (pre post : σ → Prop) (c : RunnerCall Rec R Own) (wished : RunnerCall.Ans OwnAns c) : Prop :=
  ∀ s, pre s → mon.allowed s c ∧ (∀ a, inv (mon.record s c a)) ∧ post (mon.record s c wished)

def KeepsUpdate (requestId : R) (changes : StatusChanges) : Prop :=
  ∀ s, inv s → wp mon s (Runner.safeUpdate requestId changes) fun s _ => inv s

variable {mon inv} {s : σ} {post : σ → α → Prop}

theorem Keeps.yields {c : RunnerCall Rec R Own} {wished : RunnerCall.Ans OwnAns c} (hc : Keeps mon inv c) :
    Yields mon inv inv inv c wished := by
  intro s hs
  obtain ⟨hallowed, hrec⟩ := hc s hs
  exact ⟨hallowed, hrec, hrec wished⟩

theorem wp_ask {c : RunnerCall Rec R Own} {f : RunnerCall.Ans OwnAns c → RunnerProg Rec R OwnAns α}
    (hc : mon.allowed s c) (hf : ∀ a, wp mon (mon.record s c a) (f a) post) : wp mon s (ask c >>= f) post :=
  ⟨hc, hf⟩

theorem wp_keeps {c : RunnerCall Rec R Own} {f : RunnerCall.Ans OwnAns c → RunnerProg Rec R OwnAns α}
    (hc : Keeps mon inv c) (hs : inv s) (hf : ∀ s a, inv s → wp mon s (f a) post) :
    wp mon s (ask c >>= f) post := by
  obtain ⟨hallowed, hrec⟩ := hc s hs
  exact ⟨hallowed, fun a => hf _ a (hrec a)⟩

theorem wp_keepsUpdate {requestId : R} {changes : StatusChanges} {f : Unit → RunnerProg Rec R OwnAns α}
    (hu : KeepsUpdate mon inv requestId changes) (hs : inv s) (hf : ∀ s, inv s → wp mon s (f ()) post) :
    wp mon s (Runner.safeUpdate requestId changes >>= f) post := by
  rw [wp_bind]
  apply wp_mono _ (hu s hs)
  intro s' u h
  exact hf s' h

theorem keeps_commitThen {m : ConsumedMessage} {rest : RunnerProg Rec R OwnAns (Except PyErr ProcessResult)}
    {post : σ → Except PyErr ProcessResult → Prop} (hc : Keeps mon inv (.commit m)) (hs : inv s)
    (he : ∀ s e, inv s → post s (.error e)) (h : ∀ s, inv s → wp mon s rest post) :
    wp mon s (Runner.commitThen m rest) post := by
  unfold Runner.commitThen
  apply wp_keeps hc hs
  intro s' a hs'
  cases a with
  | error e => exact he s' e hs'
  | ok u => exact h s' hs'

variable {topic stage : String} {dlq : DeadLetterEvent → Rec} {m : ConsumedMessage} {status : String}
  {error : Option String}

theorem keeps_deadLetter {attempt limit : Option Int} (hc : Keeps mon inv (.commit m))
    (hp : ∀ event, Keeps mon inv (.publish dlqTopic topic (dlq event) [])) (hs : inv s) :
    wp mon s (Runner.deadLetter topic stage dlq m status error attempt limit) fun s _ => inv s := by
  unfold Runner.deadLetter
  apply wp_keeps (hp _) hs
  intro s' a hs'
  cases a with
  | error e => exact hs'
  | ok u => exact keeps_commitThen hc hs' (fun s e h => h) fun s h => h

theorem keeps_retryOrDlq {retry : Rec} {key : Except PyErr String} {limit : Int} (hc : Keeps mon inv (.commit m))
    (hp : ∀ event, Keeps mon inv (.publish dlqTopic topic (dlq event) []))
    (hr : ∀ key headers, Keeps mon inv (.publish topic key retry headers)) (hs : inv s) :
    wp mon s (Runner.retryOrDlq topic stage dlq retry key m status error limit) fun s _ => inv s := by
  unfold Runner.retryOrDlq
  dsimp only
  split
  · cases key with
    | error e => exact hs
    | ok key =>
      apply wp_keeps (hr key _) hs
      intro s' a hs'
      cases a with
      | error e => exact hs'
      | ok u => exact keeps_commitThen hc hs' (fun s e h => h) fun s h => h
  · exact keeps_deadLetter hc hp hs

theorem keeps_emitFeatureUpdates {updated : FeatureUpdated → Rec} {viewDef : FeatureViewDef}
    {results : List FeatureResult} {entityType : String} {source : FeatureUpdateSource}
    (hp : ∀ key event, Keeps mon inv (.publish featureUpdates key (updated event) [])) (hs : inv s) :
    wp mon s (emitFeatureUpdates updated viewDef results entityType source : RunnerProg Rec R OwnAns (Except PyErr Nat))
      fun s _ => inv s := by
  have hpub : ∀ (events : List FeatureUpdated) s, inv s → wp mon s
      (publishFeatureUpdates updated events : RunnerProg Rec R OwnAns (Except PyErr Unit)) fun s _ => inv s := by
    intro events
    induction events with
    | nil => exact fun s h => h
    | cons event events ih =>
      intro s h
      unfold publishFeatureUpdates
      cases event.entity.encoded with
      | error e => exact h
      | ok key =>
        apply wp_keeps (hp key event) h
        intro s' a h'
        cases a with
        | error e => exact h'
        | ok u => exact ih s' h'
  unfold emitFeatureUpdates
  dsimp only
  rw [wp_bind]
  apply wp_mono _ (hpub _ s hs)
  intro s' r h
  cases r <;> exact h

end

/-! ## The online worker -/

/-- `lapsed` and `live` hold after the deadline check of an event, `told` once its expiry is announced, `stored` once
its result is stored; `inv` holds throughout. -/
structure Online.Outline {E R σ : Type} (events : ComputeEvents E R)
    (mon : RunnerMonitor (OnlineRecord E R) R (OnlineOwn.Ans (E := E) (R := R)) σ) where
  inv : σ → Prop
  lapsed : E → σ → Prop
  live : E → σ → Prop
  told : E → σ → Prop
  stored : E → σ → Prop
  live_inv : ∀ {event s}, live event s → inv s
  told_inv : ∀ {event s}, told event s → inv s
  stored_inv : ∀ {event s}, stored event s → inv s
  poll : Keeps mon inv .poll
  commit : ∀ m, Keeps mon inv (.commit m)
  dlq : ∀ topic event, Keeps mon inv (.publish dlqTopic topic (.dlq event) [])
  retry : ∀ key event headers, Keeps mon inv (.publish featureComputeOnline key (.compute event) headers)
  running : ∀ requestId error, KeepsUpdate mon inv requestId { status := some .running, error }
  failed : ∀ requestId error, KeepsUpdate mon inv requestId { status := some .failed, error }
  now : ∀ event s, inv s → mon.allowed s .now ∧ ∀ t, inv (mon.record s .now t) ∧
    (events.expired event t = .ok true → lapsed event (mon.record s .now t)) ∧
    (events.expired event t = .ok false → live event (mon.record s .now t))
  announceExpired : ∀ key event, Yields mon inv (lapsed event) (told event)
    (.publish featureComputeCompleted key (completedFor events event [] (some "deadline_expired")) [])
    (Except.ok () : Except PyErr Unit)
  commitExpired : ∀ event m, Keeps mon (told event) (.commit m)
  expired : ∀ event s, told event s → wp mon s (Runner.safeUpdate (events.requestId event) {
    status := some .completed
    onlineWriteStatus := some (some "deadline_expired")
    offlineWriteStatus := some none
    metadataWriteStatus := some (some "pending")
    error := some none }) fun s _ => inv s
  compute : ∀ event, Keeps mon (live event) (.own (.compute event))
  writeOnline : ∀ event writeSet, Keeps mon (live event) (.own (.writeOnline writeSet))
  offlineWrite : ∀ event key writeSet,
    Keeps mon (live event) (.publish featureWriteOffline key (.offlineWrite ⟨events.requestId event, writeSet⟩) [])
  announce : ∀ event key names outcomes, Keeps mon (live event)
    (.publish featureComputeCompleted key (completedFor events event names (some (aggregateOnlineStatus outcomes))) [])
  putResult : ∀ event writeSet written, Yields mon inv (live event) (stored event)
    (.own (.putResult (RequestResult.fromWriteSet (events.requestId event) writeSet written)))
    (Except.ok () : Except PyErr Unit)
  commitOk : ∀ event m, Keeps mon (stored event) (.commit m)
  completed : ∀ event outcomes s, stored event s → wp mon s (Runner.safeUpdate (events.requestId event) {
    status := some .completed
    onlineWriteStatus := some (some (aggregateOnlineStatus outcomes))
    offlineWriteStatus := some (some "pending")
    metadataWriteStatus := some (some "pending")
    error := some none }) fun s _ => inv s

namespace Online.Outline

section
variable {E R σ : Type} {events : ComputeEvents E R}
  {mon : RunnerMonitor (OnlineRecord E R) R (OnlineOwn.Ans (E := E) (R := R)) σ}
  (o : Online.Outline events mon) {s : σ}
include o

theorem retryOrDlq {m : ConsumedMessage} (event : E) {status error : String} {limit : Int} (hs : o.inv s) :
    wp mon s (Online.retryOrDlq events m event status error limit) fun s _ => o.inv s := by
  unfold Online.retryOrDlq
  rw [wp_bind]
  apply wp_mono _ (keeps_retryOrDlq (o.commit m) (o.dlq _) (fun key headers => o.retry key event headers) hs)
  intro s' r hs'
  cases r with
  | error e => exact hs'
  | ok result =>
    dsimp only
    unfold Online.statusAfterRetryOrDlq
    split
    · exact wp_keepsUpdate (o.running _ _) hs' fun s h => h
    · exact wp_keepsUpdate (o.failed _ _) hs' fun s h => h
    · exact hs'

def After (event : E) (s : σ) : Except PyErr WorkerResult → Prop
  | .ok (.ok _ _) => o.live event s
  | .ok .deadlineExpired => o.told event s
  | _ => o.inv s

theorem handleComputed (event : E) {writeSet : FeatureWriteSet} (hs : o.live event s) :
    wp mon s (Online.handleComputed events event writeSet) (o.After event) := by
  unfold Online.handleComputed
  apply wp_keeps (o.writeOnline event writeSet) hs
  intro s₁ written h₁
  cases written with
  | error e => exact o.live_inv h₁
  | ok written =>
    apply wp_keeps (o.offlineWrite event _ writeSet) h₁
    intro s₂ a h₂
    cases a with
    | error e => exact o.live_inv h₂
    | ok u =>
      apply wp_keeps (o.announce event _ _ _) h₂
      intro s₃ a h₃
      cases a with
      | error e => exact o.live_inv h₃
      | ok u => exact h₃

theorem handleFeatureComputeRequested (event : E) (hs : o.inv s) :
    wp mon s (Online.handleFeatureComputeRequested events event) (o.After event) := by
  unfold Online.handleFeatureComputeRequested
  cases events.encoded event with
  | error e => exact hs
  | ok key =>
    obtain ⟨hnow, hrec⟩ := o.now event s hs
    apply wp_ask hnow
    intro t
    obtain ⟨hinv, hlapsed, hlive⟩ := hrec t
    cases ht : events.expired event t with
    | error e => exact hinv
    | ok expired =>
      cases expired with
      | true =>
        unfold Online.handleExpired
        obtain ⟨hallowed, hkeep, htold⟩ := o.announceExpired key event _ (hlapsed ht)
        apply wp_ask hallowed
        intro a
        cases a with
        | error e => exact hkeep _
        | ok u => exact htold
      | false =>
        apply wp_keeps (o.compute event) (hlive ht)
        intro s₁ r h₁
        cases r with
        | ok writeSet => exact o.handleComputed event h₁
        | error e =>
          dsimp only
          split <;> exact o.live_inv h₁

theorem finishOk (m : ConsumedMessage) (event : E) {writeSet : FeatureWriteSet} {written : OnlineWritten}
    (hs : o.live event s) : wp mon s (Online.finishOk events m event writeSet written) fun s _ => o.inv s := by
  unfold Online.finishOk
  obtain ⟨hallowed, hkeep, hstored⟩ := o.putResult event writeSet written s hs
  apply wp_ask hallowed
  intro a
  cases a with
  | error e => exact hkeep _
  | ok u =>
    apply keeps_commitThen (o.commitOk event m) hstored fun s e h => o.stored_inv h
    intro s' hs'
    rw [wp_bind]
    exact o.completed event _ s' hs'

theorem finishExpired (m : ConsumedMessage) (event : E) (hs : o.told event s) :
    wp mon s (Online.finishExpired events m event) fun s _ => o.inv s := by
  unfold Online.finishExpired
  apply keeps_commitThen (o.commitExpired event m) hs (fun s e h => o.told_inv h)
  intro s' hs'
  rw [wp_bind]
  exact o.expired event s' hs'

theorem processEvent (maxAttempts : Int) (m : ConsumedMessage) (event : E) (hs : o.inv s) :
    wp mon s (Online.processEvent events maxAttempts m event) fun s _ => o.inv s := by
  unfold Online.processEvent
  apply wp_keepsUpdate (o.running _ _) hs
  intro s' hs'
  rw [wp_bind]
  apply wp_mono _ (o.handleFeatureComputeRequested event hs')
  intro s₁ r h₁
  cases r with
  | error e => exact o.retryOrDlq event h₁
  | ok r =>
    cases r with
    | ok writeSet written => exact o.finishOk m event h₁
    | deadlineExpired => exact o.finishExpired m event h₁
    | computeFailed e => exact o.retryOrDlq event h₁
    | onlineWriteFailed e => exact h₁
    | publishFailed e => exact h₁

theorem processNext (maxAttempts : Int) (hs : o.inv s) :
    wp mon s (Online.processNext events maxAttempts) fun s _ => o.inv s := by
  unfold Online.processNext
  apply wp_keeps o.poll hs
  intro s' message hs'
  cases message with
  | none => exact hs'
  | some m =>
    dsimp only
    cases m.error with
    | some e => exact hs'
    | none =>
      dsimp only
      cases events.fromJson m.value with
      | error e => exact keeps_deadLetter (o.commit m) (o.dlq _) hs'
      | ok event => exact o.processEvent maxAttempts m event hs'

end

end Online.Outline

/-! ## The offline writer -/

/-- What the offline writer reports of the offline write. -/
def offlineReports : List (Option String) := [some "written", some "retrying", some "failed_dlq"]

structure Offline.Outline {O R σ : Type}
    (mon : RunnerMonitor (OfflineRecord O) R OfflineOwn.Ans σ) where
  inv : σ → Prop
  call : ∀ c, c.Plain → Keeps mon inv c
  update : ∀ requestId changes, (∃ report ∈ offlineReports, changes.offlineWriteStatus = some report) →
    KeepsUpdate mon inv requestId changes

namespace Offline.Outline

section
variable {O R σ : Type} (events : OfflineEvents O R) (registry : Registry)
  {mon : RunnerMonitor (OfflineRecord O) R OfflineOwn.Ans σ}
  (o : Offline.Outline mon) {s : σ}
include o

theorem retryOrDlq {m : ConsumedMessage} (event : O) {status error : String} {limit : Int} (hs : o.inv s) :
    wp mon s (Offline.retryOrDlq events m event status error limit) fun s _ => o.inv s := by
  unfold Offline.retryOrDlq
  dsimp only
  rw [wp_bind]
  apply wp_mono _ (keeps_retryOrDlq (o.call _ trivial) (fun _ => o.call _ trivial) (fun _ _ => o.call _ trivial) hs)
  intro s' r hs'
  cases r with
  | error e => exact hs'
  | ok result =>
    dsimp only
    unfold Offline.statusAfterRetryOrDlq
    split
    · exact wp_keepsUpdate (o.update _ _ ⟨some "retrying", by decide, rfl⟩) hs' fun s h => h
    · exact wp_keepsUpdate (o.update _ _ ⟨some "failed_dlq", by decide, rfl⟩) hs' fun s h => h
    · exact hs'

theorem handleFeatureOfflineWrite (event : O) (hs : o.inv s) :
    wp mon s (Offline.handleFeatureOfflineWrite events registry event) fun s _ => o.inv s := by
  unfold Offline.handleFeatureOfflineWrite
  cases events.writeSet event with
  | error e => exact hs
  | ok writeSet =>
    apply wp_keeps (o.call (.own _) trivial) hs
    intro s' a hs'
    cases a with
    | error e => exact hs'
    | ok u =>
      dsimp only
      unfold Offline.announce
      cases findView? registry writeSet.view writeSet.viewVersion with
      | none => exact hs'
      | some viewDef =>
        dsimp only
        rw [wp_bind]
        apply wp_mono _ (keeps_emitFeatureUpdates (fun _ _ => o.call _ trivial) hs')
        intro s₁ r h₁
        cases r <;> exact h₁

theorem processEvent (maxAttempts : Int) (m : ConsumedMessage) (event : O) (hs : o.inv s) :
    wp mon s (Offline.processEvent events registry maxAttempts m event) fun s _ => o.inv s := by
  unfold Offline.processEvent
  rw [wp_bind]
  apply wp_mono _ (o.handleFeatureOfflineWrite events registry event hs)
  intro s₁ r h₁
  cases r with
  | error e => exact o.retryOrDlq events event h₁
  | ok r =>
    cases r with
    | ok n =>
      dsimp only
      unfold Offline.finishOk
      apply keeps_commitThen (o.call _ trivial) h₁ (fun s e h => h)
      intro s₂ h₂
      exact wp_keepsUpdate (o.update _ _ ⟨some "written", by decide, rfl⟩) h₂ fun s h => h
    | invalidEvent e =>
      dsimp only
      unfold Offline.finishInvalid
      rw [wp_bind]
      apply wp_mono _ (keeps_deadLetter (o.call _ trivial) (fun _ => o.call _ trivial) h₁)
      intro s₂ r h₂
      cases r with
      | error e => exact h₂
      | ok result =>
        dsimp only
        split
        · exact wp_keepsUpdate (o.update _ _ ⟨some "failed_dlq", by decide, rfl⟩) h₂ fun s h => h
        · exact h₂
    | appendFailed e => exact h₁
    | propagationPublishFailed e => exact h₁

theorem processNext (maxAttempts : Int) (hs : o.inv s) :
    wp mon s (Offline.processNext events registry maxAttempts) fun s _ => o.inv s := by
  unfold Offline.processNext
  apply wp_keeps (o.call .poll trivial) hs
  intro s' message hs'
  cases message with
  | none => exact hs'
  | some m =>
    dsimp only
    cases m.error with
    | some e => exact hs'
    | none =>
      dsimp only
      cases events.fromJson m.value with
      | error e => exact keeps_deadLetter (o.call _ trivial) (fun _ => o.call _ trivial) hs'
      | ok event => exact o.processEvent events registry maxAttempts m event hs'

end

end Offline.Outline

end ClearFeature
