import ClearFeature.BatchRunner
import ClearFeature.OfflineRunner
import ClearFeature.OnlineRunner
import ClearFeature.PropagationRunner
import ClearFeature.Sessions

/-!
# Commits of the four runners

Each runner commits a message only when the message is done: what was computed
is stored and announced, or a retry copy or a dead letter is acknowledged. What
a commit leaves behind is another matter: a message polled before and not
committed is passed over.
-/

namespace ClearFeature

open Prog

/-! ## Calls under the ledger -/

section
variable {Rec R Own Eff : Type} {OwnAns : Own → Type} {eff : Effects Rec Own Eff OwnAns} {outcome : Outcome Eff}
  {α : Type} {l : Ledger Eff} {post : Ledger Eff → α → Prop}

theorem wp_poll {f : Option ConsumedMessage → RunnerProg Rec R OwnAns α} :
    wp (commitMonitor R eff outcome) l (Runner.poll >>= f) post ↔
      wp (commitMonitor R eff outcome) { l with recent := [] } (f none) post ∧
      ∀ m, wp (commitMonitor R eff outcome) { l with polled := m :: l.polled, recent := [] } (f (some m)) post := by
  rw [wp_ask_bind]
  constructor
  · intro h
    exact ⟨h.2 none, fun m => h.2 (some m)⟩
  · intro h
    refine ⟨fun m hm => (nomatch hm), fun a => ?_⟩
    cases a with
    | none => exact h.1
    | some m => exact h.2 m

theorem wp_now {f : Int → RunnerProg Rec R OwnAns α} :
    wp (commitMonitor R eff outcome) l (Runner.now >>= f) post ↔
      ∀ t, wp (commitMonitor R eff outcome) l (f t) post := by
  rw [wp_ask_bind]
  exact ⟨fun h => h.2, fun h => ⟨fun m hm => (nomatch hm), h⟩⟩

theorem wp_commit {m : ConsumedMessage} {f : Except PyErr Unit → RunnerProg Rec R OwnAns α} :
    wp (commitMonitor R eff outcome) l (Runner.commit m >>= f) post ↔
      (m ∈ l.polled ∧ outcome (l.Has m) m) ∧ ∀ a, wp (commitMonitor R eff outcome) l (f a) post := by
  rw [wp_ask_bind]
  constructor
  · intro h
    exact ⟨h.1 m rfl, h.2⟩
  · intro h
    refine ⟨fun m' hm => ?_, h.2⟩
    cases hm
    exact h.1

theorem wp_publish {topic key : String} {rec : Rec} {headers : Headers}
    {f : Except PyErr Unit → RunnerProg Rec R OwnAns α} :
    wp (commitMonitor R eff outcome) l (Runner.publish topic key rec headers >>= f) post ↔
      (∀ e, wp (commitMonitor R eff outcome) l (f (.error e)) post) ∧
      wp (commitMonitor R eff outcome) (l.credit (eff.published ⟨topic, key, rec, headers⟩)) (f (.ok ())) post := by
  rw [wp_ask_bind]
  constructor
  · intro h
    exact ⟨fun e => h.2 (.error e), h.2 (.ok ())⟩
  · intro h
    refine ⟨fun m hm => (nomatch hm), fun a => ?_⟩
    cases a with
    | error e => exact h.1 e
    | ok u => exact h.2

theorem wp_own {c : Own} {f : OwnAns c → RunnerProg Rec R OwnAns α} :
    wp (commitMonitor R eff outcome) l (Runner.own c >>= f) post ↔
      ∀ a, wp (commitMonitor R eff outcome) (l.gain (eff.achieved c a)) (f a) post := by
  rw [wp_ask_bind]
  exact ⟨fun h => h.2, fun h => ⟨fun m hm => (nomatch hm), h⟩⟩

theorem wp_safeUpdate {requestId : R} {changes : StatusChanges} {post : Ledger Eff → Unit → Prop} (h : post l ()) :
    wp (commitMonitor R eff outcome) l (Runner.safeUpdate requestId changes) post := by
  unfold Runner.safeUpdate
  rw [wp_ask_bind]
  refine ⟨fun m hm => (nomatch hm), fun a => ?_⟩
  cases a with
  | error e => exact h
  | ok entry =>
    cases entry with
    | none => exact h
    | some existing => exact ⟨fun m hm => (nomatch hm), fun _ => h⟩

theorem wp_commitThen {m : ConsumedMessage} {rest : RunnerProg Rec R OwnAns (Except PyErr ProcessResult)}
    {post : Ledger Eff → Except PyErr ProcessResult → Prop} (hm : m ∈ l.polled) (ho : outcome (l.Has m) m)
    (he : ∀ e, post l (.error e)) (h : wp (commitMonitor R eff outcome) l rest post) :
    wp (commitMonitor R eff outcome) l (Runner.commitThen m rest) post := by
  unfold Runner.commitThen
  rw [wp_commit]
  refine ⟨⟨hm, ho⟩, fun a => ?_⟩
  cases a with
  | error e => exact he e
  | ok u => exact h

theorem Ledger.has_credit_head {m : ConsumedMessage} {ms : List ConsumedMessage} (hp : l.polled = m :: ms) (e : Eff) :
    (l.credit e).Has m e := by
  unfold Has credit
  rw [hp]
  exact List.mem_cons_self

/-- The dead letter is acknowledged when the message is committed, and all that was there before is still there. -/
theorem wp_deadLetter {topic stage : String} {dlq : DeadLetterEvent → Rec} {m : ConsumedMessage}
    {ms : List ConsumedMessage} {status : String} {error : Option String} {attempt limit : Option Int}
    (hp : l.polled = m :: ms) (ho : ∀ has : Eff → Prop, (∀ e, l.Has m e → has e) →
      has (eff.published ⟨dlqTopic, topic, dlq ⟨topic, stage, status, error, m.value, attempt, limit⟩, []⟩) →
      outcome has m) :
    wp (commitMonitor R eff outcome) l (Runner.deadLetter topic stage dlq m status error attempt limit)
      fun l' _ => l'.polled = l.polled := by
  unfold Runner.deadLetter
  rw [wp_publish]
  refine ⟨fun e => rfl, ?_⟩
  refine wp_commitThen ?_ (ho _ (fun e h => Ledger.has_credit _ h) (Ledger.has_credit_head hp _)) (fun _ => rfl) rfl
  show m ∈ l.polled
  rw [hp]
  exact List.mem_cons_self

/-- A message that comes to its end in a retry copy or in a dead letter is done by either. -/
theorem wp_retryOrDlq {topic stage : String} {dlq : DeadLetterEvent → Rec} {retry : Rec} {key : Except PyErr String}
    {m : ConsumedMessage} {ms : List ConsumedMessage} {status : String} {error : Option String} {limit : Int}
    (hp : l.polled = m :: ms)
    (hd : ∀ (letter : DeadLetterEvent) (has : Eff → Prop), letter.sourceTopic = topic → letter.failureStage = stage →
      letter.sourcePayload = m.value → has (eff.published ⟨dlqTopic, topic, dlq letter, []⟩) → outcome has m)
    (hr : ∀ k (has : Eff → Prop), key = .ok k →
      has (eff.published ⟨topic, k, retry, withAttemptHeader m.headers (nextAttempt m.headers)⟩) → outcome has m) :
    wp (commitMonitor R eff outcome) l (Runner.retryOrDlq topic stage dlq retry key m status error limit)
      fun l' _ => l'.polled = l.polled := by
  unfold Runner.retryOrDlq
  dsimp only
  split
  · cases key with
    | error e => exact (rfl : l.polled = l.polled)
    | ok key =>
      rw [wp_publish]
      refine ⟨fun e => rfl, ?_⟩
      refine wp_commitThen ?_ (hr key _ rfl (Ledger.has_credit_head hp _)) (fun _ => rfl) rfl
      show m ∈ l.polled
      rw [hp]
      exact List.mem_cons_self
  · exact wp_deadLetter hp fun has _ h => hd _ has rfl rfl rfl h

structure Ledger.Extends (l l' : Ledger Eff) : Prop where
  polled : l'.polled = l.polled
  has : ∀ m e, l.Has m e → l'.Has m e
  recent : ∀ e ∈ l.recent, e ∈ l'.recent

theorem Ledger.Extends.refl (l : Ledger Eff) : l.Extends l := ⟨rfl, fun _ _ h => h, fun _ h => h⟩

theorem Ledger.Extends.trans {l l' l'' : Ledger Eff} (h : l.Extends l') (h' : l'.Extends l'') : l.Extends l'' :=
  ⟨h'.polled.trans h.polled, fun m e he => h'.has m e (h.has m e he), fun e he => h'.recent e (h.recent e he)⟩

theorem Ledger.extends_credit (l : Ledger Eff) (e : Eff) : l.Extends (l.credit e) :=
  ⟨rfl, fun _ _ h => has_credit e h, fun _ h => List.mem_cons_of_mem _ h⟩

/-- The update of a feature, as it is sent under the key of its entity. -/
def Announced (updated : FeatureUpdated → Rec) (sent : Sent Rec → Prop) (u : FeatureUpdated) : Prop :=
  ∃ key, u.entity.encoded = .ok key ∧ sent ⟨featureUpdates, key, updated u, []⟩

omit eff outcome l post in
theorem Announced.mono {updated : FeatureUpdated → Rec} {sent sent' : Sent Rec → Prop} {u : FeatureUpdated}
    (hle : ∀ p, sent p → sent' p) (h : Announced updated sent u) : Announced updated sent' u := by
  obtain ⟨key, he, hs⟩ := h
  exact ⟨key, he, hle _ hs⟩

theorem wp_publishFeatureUpdates {updated : FeatureUpdated → Rec} : ∀ (events : List FeatureUpdated) (l : Ledger Eff),
    wp (commitMonitor R eff outcome) l
      (publishFeatureUpdates updated events : RunnerProg Rec R OwnAns (Except PyErr Unit))
      fun l' r => l.Extends l' ∧ (r = .ok () → ∀ u ∈ events,
        Announced updated (fun p => eff.published p ∈ l'.recent) u ∧
        ∀ m ms, l.polled = m :: ms → Announced updated (fun p => l'.Has m (eff.published p)) u)
  | [], l => by
    refine ⟨.refl l, fun _ u hu => ?_⟩
    cases hu
  | event :: events, l => by
    unfold publishFeatureUpdates
    cases hkey : event.entity.encoded with
    | error e => exact ⟨.refl l, fun h => (nomatch h)⟩
    | ok key =>
      dsimp only
      rw [wp_publish]
      refine ⟨fun e => ⟨.refl l, fun h => (nomatch h)⟩, ?_⟩
      refine wp_mono (fun l' r h => ?_) (wp_publishFeatureUpdates events
        (l.credit (eff.published ⟨featureUpdates, key, updated event, []⟩)))
      refine ⟨(l.extends_credit _).trans h.1, fun hr u hu => ?_⟩
      rcases List.mem_cons.mp hu with rfl | hu
      · exact ⟨⟨key, hkey, h.1.recent _ List.mem_cons_self⟩,
          fun m ms hp => ⟨key, hkey, h.1.has _ _ (Ledger.has_credit_head hp _)⟩⟩
      · exact h.2 hr u hu

theorem wp_emitFeatureUpdates {updated : FeatureUpdated → Rec} (l : Ledger Eff) (viewDef : FeatureViewDef)
    (results : List FeatureResult) (entityType : String) (source : FeatureUpdateSource) :
    wp (commitMonitor R eff outcome) l
      (emitFeatureUpdates updated viewDef results entityType source : RunnerProg Rec R OwnAns (Except PyErr Nat))
      fun l' r => l.Extends l' ∧ ∀ n, r = .ok n →
        ∀ u ∈ buildFeatureUpdatedEvents viewDef results entityType source,
          Announced updated (fun p => eff.published p ∈ l'.recent) u ∧
          ∀ m ms, l.polled = m :: ms → Announced updated (fun p => l'.Has m (eff.published p)) u := by
  unfold emitFeatureUpdates
  dsimp only
  rw [wp_bind]
  refine wp_mono (fun l' r h => ?_) (wp_publishFeatureUpdates _ l)
  cases r with
  | error e => exact ⟨h.1, fun n hn => (nomatch hn)⟩
  | ok u => exact ⟨h.1, fun n _ => h.2 rfl⟩

end

section
variable {Rec : Type}

/-- The payload of the message lies in a dead letter of the runner. -/
def DeadLettered (dlq : DeadLetterEvent → Rec) (topic stage : String) (sent : Sent Rec → Prop)
    (m : ConsumedMessage) : Prop :=
  ∃ letter, sent ⟨dlqTopic, topic, dlq letter, []⟩ ∧ letter.sourceTopic = topic ∧ letter.failureStage = stage ∧
    letter.sourcePayload = m.value

/-- A copy went back to the topic of the message, with its headers and one attempt more. -/
def SentAgain (topic key : String) (retry : Rec) (sent : Sent Rec → Prop) (m : ConsumedMessage) : Prop :=
  sent ⟨topic, key, retry, withAttemptHeader m.headers (nextAttempt m.headers)⟩

theorem DeadLettered.mono {dlq : DeadLetterEvent → Rec} {topic stage : String} {sent sent' : Sent Rec → Prop}
    {m : ConsumedMessage} (hle : ∀ p, sent p → sent' p) (h : DeadLettered dlq topic stage sent m) :
    DeadLettered dlq topic stage sent' m := by
  obtain ⟨letter, hs, h⟩ := h
  exact ⟨letter, hle _ hs, h⟩

end

/-! ## The online worker -/

inductive OnlineEffect (E R : Type) where
  | published (sent : Sent (OnlineRecord E R))
  | computed (event : E) (writeSet : FeatureWriteSet)
  | onlineWritten (writeSet : FeatureWriteSet) (outcomes : OnlineWritten)
  | resultStored (result : RequestResult R)

def onlineEffects (E R : Type) :
    Effects (OnlineRecord E R) (OnlineOwn E R) (OnlineEffect E R) OnlineOwn.Ans where
  published := .published
  achieved := fun
    | .compute event, .ok writeSet => .one (.computed event writeSet)
    | .compute _, .error _ => .none
    | .writeOnline writeSet, .ok outcomes => .one (.onlineWritten writeSet outcomes)
    | .writeOnline _, .error _ => .none
    | .putResult result, .ok () => .one (.resultStored result)
    | .putResult _, .error _ => .none

section
variable {E R : Type} (events : ComputeEvents E R)

/-- The request of the message had expired, and its completion says so. -/
def ExpiredOnline (has : OnlineEffect E R → Prop) (event : E) : Prop :=
  ∃ key t, events.encoded event = .ok key ∧ events.expired event t = .ok true ∧
    has (.published ⟨featureComputeCompleted, key, Online.completedFor events event [] (some "deadline_expired"), []⟩)

/-- What was computed for the event is written online, requested offline and announced as completed. -/
structure WrittenOnline (has : OnlineEffect E R → Prop) (event : E) (writeSet : FeatureWriteSet)
    (outcomes : OnlineWritten) : Prop where
  computed : has (.computed event writeSet)
  written : has (.onlineWritten writeSet outcomes)
  offline : has (.published
    ⟨featureWriteOffline, writeSet.entityKey.encode, .offlineWrite ⟨events.requestId event, writeSet⟩, []⟩)
  completed : has (.published ⟨featureComputeCompleted, writeSet.entityKey.encode, Online.completedFor events event
    (Online.writtenFeatures writeSet outcomes) (some (aggregateOnlineStatus (Dict.values outcomes))), []⟩)

/-- The message is a dead letter; or its event was sent again, had expired, or was computed, written, announced and stored
as the result of its request. -/
def onlineOutcome : Outcome (OnlineEffect E R) := fun has m =>
  DeadLettered .dlq featureComputeOnline "online_worker" (fun p => has (.published p)) m ∨
  ∃ event, events.fromJson m.value = .ok event ∧
    ((∃ key, events.encoded event = .ok key ∧
        SentAgain featureComputeOnline key (.compute event) (fun p => has (.published p)) m) ∨
      ExpiredOnline events has event ∨
      ∃ writeSet outcomes, WrittenOnline events has event writeSet outcomes ∧
        has (.resultStored (RequestResult.fromWriteSet (events.requestId event) writeSet outcomes)))

theorem WrittenOnline.mono {has has' : OnlineEffect E R → Prop} (hle : ∀ e, has e → has' e) {event : E}
    {writeSet : FeatureWriteSet} {outcomes : OnlineWritten} (h : WrittenOnline events has event writeSet outcomes) :
    WrittenOnline events has' event writeSet outcomes :=
  ⟨hle _ h.computed, hle _ h.written, hle _ h.offline, hle _ h.completed⟩

theorem onlineOutcome_mono : (onlineOutcome events).Mono := by
  intro has has' m hle ho
  rcases ho with h | ⟨event, hj, ⟨key, hk, h⟩ | ⟨key, t, hk, he, h⟩ | ⟨writeSet, outcomes, h, hs⟩⟩
  · exact .inl (h.mono fun _ => hle _)
  · exact .inr ⟨event, hj, .inl ⟨key, hk, hle _ h⟩⟩
  · exact .inr ⟨event, hj, .inr (.inl ⟨key, t, hk, he, hle _ h⟩)⟩
  · exact .inr ⟨event, hj, .inr (.inr ⟨writeSet, outcomes, h.mono events hle, hle _ hs⟩)⟩

def HandledOnline (m : ConsumedMessage) (ms : List ConsumedMessage) (event : E) (l : Ledger (OnlineEffect E R)) :
    Except PyErr WorkerResult → Prop
  | .ok (.ok writeSet outcomes) => l.polled = m :: ms ∧ WrittenOnline events (l.Has m) event writeSet outcomes
  | .ok .deadlineExpired => l.polled = m :: ms ∧ ExpiredOnline events (l.Has m) event
  | _ => l.polled = m :: ms

theorem wp_handleExpired {l : Ledger (OnlineEffect E R)} {m : ConsumedMessage} {ms : List ConsumedMessage}
    (hp : l.polled = m :: ms) {event : E} {key : String} {t : Int} (hk : events.encoded event = .ok key)
    (he : events.expired event t = .ok true) :
    wp (commitMonitor R (onlineEffects E R) (onlineOutcome events)) l (Online.handleExpired events event key)
      (HandledOnline events m ms event) := by
  unfold Online.handleExpired
  rw [wp_publish]
  exact ⟨fun e => hp, hp, key, t, hk, he, Ledger.has_credit_head hp _⟩

theorem wp_handleComputed {l : Ledger (OnlineEffect E R)} {m : ConsumedMessage} {ms : List ConsumedMessage}
    (hp : l.polled = m :: ms) (event : E) (writeSet : FeatureWriteSet) (hc : l.Has m (.computed event writeSet)) :
    wp (commitMonitor R (onlineEffects E R) (onlineOutcome events)) l (Online.handleComputed events event writeSet)
      (HandledOnline events m ms event) := by
  unfold Online.handleComputed
  rw [wp_own]
  intro a
  cases a with
  | error e => exact hp
  | ok outcomes =>
    have h₁ : (l.credit (.onlineWritten writeSet outcomes)).Has m (.onlineWritten writeSet outcomes) :=
      Ledger.has_credit_head hp _
    show wp _ (l.credit (.onlineWritten writeSet outcomes)) _ _
    rw [wp_publish]
    refine ⟨fun e => hp, ?_⟩
    rw [wp_publish]
    refine ⟨fun e => hp, hp, ?_, ?_, ?_, ?_⟩
    · exact Ledger.has_credit _ (Ledger.has_credit _ (Ledger.has_credit _ hc))
    · exact Ledger.has_credit _ (Ledger.has_credit _ h₁)
    · exact Ledger.has_credit _ (Ledger.has_credit_head (by exact hp) _)
    · exact Ledger.has_credit_head (by exact hp) _

theorem wp_handleOnline {l : Ledger (OnlineEffect E R)} {m : ConsumedMessage} {ms : List ConsumedMessage}
    (hp : l.polled = m :: ms) (event : E) :
    wp (commitMonitor R (onlineEffects E R) (onlineOutcome events)) l (Online.handleFeatureComputeRequested events event)
      (HandledOnline events m ms event) := by
  unfold Online.handleFeatureComputeRequested
  cases hk : events.encoded event with
  | error e => exact hp
  | ok key =>
    dsimp only
    rw [wp_now]
    intro t
    cases he : events.expired event t with
    | error e => exact hp
    | ok expired =>
      cases expired with
      | true => exact wp_handleExpired events hp hk he
      | false =>
        dsimp only
        rw [wp_own]
        intro a
        cases a with
        | ok writeSet =>
          have hc : (l.credit (.computed event writeSet)).Has m (.computed event writeSet) := Ledger.has_credit_head hp _
          exact wp_handleComputed events (by exact hp) event writeSet hc
        | error e =>
          dsimp only
          split <;> exact hp

theorem wp_onlineRetry {l : Ledger (OnlineEffect E R)} {m : ConsumedMessage} {ms : List ConsumedMessage}
    (hp : l.polled = m :: ms) {event : E} (hj : events.fromJson m.value = .ok event) (status error : String) (limit : Int) :
    wp (commitMonitor R (onlineEffects E R) (onlineOutcome events)) l
      (Online.retryOrDlq events m event status error limit) fun _ _ => True := by
  unfold Online.retryOrDlq
  rw [wp_bind]
  refine wp_mono (fun l r _ => ?_) (wp_retryOrDlq hp
    (fun letter _ ht hs hv h => .inl ⟨letter, h, ht, hs, hv⟩) fun key _ hk h => .inr ⟨event, hj, .inl ⟨key, hk, h⟩⟩)
  cases r with
  | error e => trivial
  | ok result =>
    dsimp only
    rw [wp_bind]
    unfold Online.statusAfterRetryOrDlq
    split
    · exact wp_safeUpdate trivial
    · exact wp_safeUpdate trivial
    · trivial

theorem online_covered (maxAttempts : Int) (l : Ledger (OnlineEffect E R)) :
    wp (commitMonitor R (onlineEffects E R) (onlineOutcome events)) l (Online.processNext events maxAttempts)
      fun _ _ => True := by
  unfold Online.processNext
  rw [wp_poll]
  refine ⟨trivial, fun m => ?_⟩
  dsimp only
  cases m.error with
  | some e => trivial
  | none =>
    dsimp only
    cases hj : events.fromJson m.value with
    | error e =>
      exact wp_mono (fun _ _ _ => trivial) (wp_deadLetter (by exact rfl) fun _ _ h => .inl ⟨_, h, rfl, rfl, rfl⟩)
    | ok event =>
      dsimp only
      unfold Online.processEvent
      rw [wp_bind]
      refine wp_safeUpdate ?_
      rw [wp_bind]
      refine wp_mono ?_ (wp_handleOnline events (rfl : _ = m :: l.polled) event)
      intro l' result hr
      have hmem : ∀ {l' : Ledger (OnlineEffect E R)}, l'.polled = m :: l.polled → m ∈ l'.polled := by
        intro l' h
        rw [h]
        exact List.mem_cons_self
      cases result with
      | error e => exact wp_onlineRetry events hr hj _ _ maxAttempts
      | ok result =>
        cases result with
        | ok writeSet outcomes =>
          obtain ⟨hp, hw⟩ := hr
          dsimp only
          unfold Online.finishOk
          rw [wp_own]
          intro a
          cases a with
          | error e => trivial
          | ok u =>
            have hs : l'.credit (.resultStored (RequestResult.fromWriteSet (events.requestId event) writeSet outcomes))
                = l'.gain ((onlineEffects E R).achieved (.putResult (RequestResult.fromWriteSet
                  (events.requestId event) writeSet outcomes)) (.ok u)) := rfl
            rw [← hs]
            refine wp_commitThen (hmem hp) ?_ (fun _ => trivial) ?_
            · exact .inr ⟨event, hj, .inr (.inr ⟨writeSet, outcomes, hw.mono events fun _ => Ledger.has_credit _,
                Ledger.has_credit_head hp _⟩)⟩
            · rw [wp_bind]
              exact wp_safeUpdate trivial
        | deadlineExpired =>
          obtain ⟨hp, hx⟩ := hr
          dsimp only
          unfold Online.finishExpired
          refine wp_commitThen (hmem hp) (.inr ⟨event, hj, .inr (.inl hx)⟩) (fun _ => trivial) ?_
          rw [wp_bind]
          exact wp_safeUpdate trivial
        | computeFailed e => exact wp_onlineRetry events hr hj _ _ maxAttempts
        | onlineWriteFailed e => trivial
        | publishFailed e => trivial

end

/-! ## The offline writer -/

inductive OfflineEffect (O : Type) where
  | published (sent : Sent (OfflineRecord O))
  | appended (view : String) (viewVersion : Int) (results : List FeatureResult)

def offlineEffects (O : Type) : Effects (OfflineRecord O) OfflineOwn (OfflineEffect O) OfflineOwn.Ans where
  published := .published
  achieved := fun
    | .appendNew view viewVersion results, .ok () => .one (.appended view viewVersion results)
    | .appendNew _ _ _, .error _ => .none

section
variable {O R : Type} (events : OfflineEvents O R) (registry : Registry)

/-- The announcements of a write set; none for a view the registry does not have. -/
def offlineUpdates (writeSet : FeatureWriteSet) : List FeatureUpdated :=
  match findView? registry writeSet.view writeSet.viewVersion with
  | none => []
  | some v => buildFeatureUpdatedEvents v (Dict.values writeSet.results) v.entity .offlineWriter

/-- The results of the write set are stored and announced. -/
def WrittenOffline (has : OfflineEffect O → Prop) (writeSet : FeatureWriteSet) : Prop :=
  has (.appended writeSet.view writeSet.viewVersion (Dict.values writeSet.results)) ∧
  ∀ u ∈ offlineUpdates registry writeSet, Announced .updated (fun p => has (.published p)) u

/-- The message is a dead letter; or its event was sent again under the key of its entity, or stored and announced. -/
def offlineOutcome : Outcome (OfflineEffect O) := fun has m =>
  DeadLettered .dlq featureWriteOffline "offline_writer" (fun p => has (.published p)) m ∨
  ∃ event writeSet, events.fromJson m.value = .ok event ∧ events.writeSet event = .ok writeSet ∧
    (SentAgain featureWriteOffline writeSet.entityKey.encode (.retry event) (fun p => has (.published p)) m ∨
      WrittenOffline registry has writeSet)

theorem WrittenOffline.mono {has has' : OfflineEffect O → Prop} (hle : ∀ e, has e → has' e) {writeSet : FeatureWriteSet}
    (h : WrittenOffline registry has writeSet) : WrittenOffline registry has' writeSet :=
  ⟨hle _ h.1, fun u hu => (h.2 u hu).mono fun _ => hle _⟩

theorem offlineOutcome_mono : (offlineOutcome events registry).Mono := by
  intro has has' m hle ho
  rcases ho with h | ⟨event, writeSet, hj, hw, h | h⟩
  · exact .inl (h.mono fun _ => hle _)
  · exact .inr ⟨event, writeSet, hj, hw, .inl (hle _ h)⟩
  · exact .inr ⟨event, writeSet, hj, hw, .inr (h.mono registry hle)⟩

theorem wp_handleOffline {l : Ledger (OfflineEffect O)} {m : ConsumedMessage} {ms : List ConsumedMessage}
    (hp : l.polled = m :: ms) (event : O) :
    wp (commitMonitor R (offlineEffects O) (offlineOutcome events registry)) l
      (Offline.handleFeatureOfflineWrite events registry event)
      fun l' r => l'.polled = m :: ms ∧ ∀ n, r = .ok (.ok n) → ∃ writeSet, events.writeSet event = .ok writeSet ∧
        WrittenOffline registry (l'.Has m) writeSet := by
  unfold Offline.handleFeatureOfflineWrite
  cases hw : events.writeSet event with
  | error e => exact ⟨hp, fun n hn => (nomatch hn)⟩
  | ok writeSet =>
    dsimp only
    rw [wp_own]
    intro a
    cases a with
    | error e => exact ⟨hp, fun n hn => (nomatch hn)⟩
    | ok u =>
      have ha := Ledger.has_credit_head hp
        (.appended writeSet.view writeSet.viewVersion (Dict.values writeSet.results))
      show wp _ (l.credit (.appended writeSet.view writeSet.viewVersion (Dict.values writeSet.results))) _ _
      dsimp only
      unfold Offline.announce
      cases hv : findView? registry writeSet.view writeSet.viewVersion with
      | none =>
        refine ⟨hp, fun n _ => ⟨writeSet, rfl, ha, fun u hu => ?_⟩⟩
        simp only [offlineUpdates, hv] at hu
        cases hu
      | some v =>
        dsimp only
        rw [wp_bind]
        refine wp_mono (fun l' r h => ?_) (wp_emitFeatureUpdates _ v _ _ _)
        cases r with
        | error e => exact ⟨h.1.polled.trans hp, fun n hn => (nomatch hn)⟩
        | ok n =>
          refine ⟨h.1.polled.trans hp, fun _ _ => ⟨writeSet, rfl, h.1.has _ _ ha, fun u hu => ?_⟩⟩
          simp only [offlineUpdates, hv] at hu
          exact (h.2 n rfl u hu).2 m ms hp

theorem wp_offlineRetry {l : Ledger (OfflineEffect O)} {m : ConsumedMessage} {ms : List ConsumedMessage}
    (hp : l.polled = m :: ms) {event : O} (hj : events.fromJson m.value = .ok event) (status error : String)
    (limit : Int) :
    wp (commitMonitor R (offlineEffects O) (offlineOutcome events registry)) l
      (Offline.retryOrDlq events m event status error limit) fun _ _ => True := by
  unfold Offline.retryOrDlq
  dsimp only
  rw [wp_bind]
  refine wp_mono (fun l r _ => ?_) (wp_retryOrDlq hp
    (fun letter _ ht hs hv h => .inl ⟨letter, h, ht, hs, hv⟩) fun key _ hk h => ?_)
  · cases r with
    | error e => trivial
    | ok result =>
      dsimp only
      rw [wp_bind]
      unfold Offline.statusAfterRetryOrDlq
      split
      · exact wp_safeUpdate trivial
      · exact wp_safeUpdate trivial
      · trivial
  · cases hw : events.writeSet event with
    | error e =>
      rw [hw] at hk
      cases hk
    | ok writeSet =>
      rw [hw] at hk
      cases hk
      exact .inr ⟨event, writeSet, hj, hw, .inl h⟩

theorem offline_covered (maxAttempts : Int) (l : Ledger (OfflineEffect O)) :
    wp (commitMonitor R (offlineEffects O) (offlineOutcome events registry)) l
      (Offline.processNext events registry maxAttempts) fun _ _ => True := by
  unfold Offline.processNext
  rw [wp_poll]
  refine ⟨trivial, fun m => ?_⟩
  dsimp only
  cases m.error with
  | some e => trivial
  | none =>
    dsimp only
    cases hj : events.fromJson m.value with
    | error e =>
      exact wp_mono (fun _ _ _ => trivial) (wp_deadLetter (by exact rfl) fun _ _ h => .inl ⟨_, h, rfl, rfl, rfl⟩)
    | ok event =>
      dsimp only
      unfold Offline.processEvent
      rw [wp_bind]
      refine wp_mono ?_ (wp_handleOffline events registry (rfl : _ = m :: l.polled) event)
      intro l' result hr
      obtain ⟨hp, hr⟩ := hr
      cases result with
      | error e => exact wp_offlineRetry events registry hp hj _ _ maxAttempts
      | ok result =>
        cases result with
        | ok n =>
          obtain ⟨writeSet, hw, h⟩ := hr n rfl
          dsimp only
          unfold Offline.finishOk
          refine wp_commitThen ?_ (.inr ⟨event, writeSet, hj, hw, .inr h⟩) (fun _ => trivial) ?_
          · rw [hp]
            exact List.mem_cons_self
          · rw [wp_bind]
            exact wp_safeUpdate trivial
        | invalidEvent e =>
          dsimp only
          unfold Offline.finishInvalid
          rw [wp_bind]
          refine wp_mono (fun l r _ => ?_) (wp_deadLetter hp fun _ _ h => .inl ⟨_, h, rfl, rfl, rfl⟩)
          cases r with
          | error e => trivial
          | ok result =>
            dsimp only
            split
            · rw [wp_bind]
              exact wp_safeUpdate trivial
            · trivial
        | appendFailed e => trivial
        | propagationPublishFailed e => trivial

end

end ClearFeature
