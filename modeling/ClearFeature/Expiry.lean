import Mathlib.Data.List.Induction
import ClearFeature.Readable

/-!
# Expiry of a request (`api/online_worker.py`, `api/metadata_writer.py`)

One compute event is delivered again and again, one delivery after the other.
Each checks the deadline by its own reading of the clock; any may stop between
two calls, so that a later one goes over what it left.
-/

namespace ClearFeature

open Prog

/-! ## The event -/

/-- The one event of the run: every message decodes to it or to nothing. -/
structure ExpiringEvent (R : Type) where
  fromJson : Bytes → Except PyErr Unit
  requestId : R
  encoded : Except PyErr String
  expiresAt : Option Int

namespace ExpiringEvent

variable {R : Type} (event : ExpiringEvent R)

/-- `event.expires_at is not None and now >= event.expires_at` -/
def expired (t : Int) : Bool := event.expiresAt.any (decide <| · ≤ t)

def events : ComputeEvents Unit R where
  fromJson := event.fromJson
  requestId _ := event.requestId
  encoded _ := event.encoded
  expired _ t := .ok (event.expired t)

theorem expired_mono {t t' : Int} (hle : t ≤ t') (h : event.expired t) : event.expired t' := by
  unfold expired at *
  cases hx : event.expiresAt with
  | none =>
    rw [hx] at h
    cases h
  | some x =>
    rw [hx] at h
    have hxt : x ≤ t := of_decide_eq_true h
    exact decide_eq_true (Int.le_trans hxt hle)

end ExpiringEvent

/-! ## The run -/

structure ExpiryRun (R : Type) where
  statuses : List (R × RequestStatus) := []
  completions : List (FeatureComputeCompleted R) := []
  onlineWrites : List FeatureWriteSet := []
  offlineWrites : List (FeatureOfflineWriteRequested R) := []
  clock : Option Int := none
  message : Option ConsumedMessage := none
  delivery : Option (Online.Program Unit R (Except PyErr ProcessResult)) := none

inductive ExpiryAction where
  | accept
  | deliver (message : ConsumedMessage) (maxAttempts : Int)
  | crash
  | call (env : CallEnv)

namespace ExpiryRun

section
variable {R : Type} [DecidableEq R]

/-- The clock never goes back. -/
def reading (s : ExpiryRun R) (env : CallEnv) : Int :=
  match s.clock with
  | none => env.now
  | some t => max t env.now

def apply (s : ExpiryRun R) : RunnerCall (OnlineRecord Unit R) R (OnlineOwn Unit R) → ExpiryRun R
  | .publish _ _ (.completed event) _ => { s with completions := s.completions ++ [event] }
  | .publish _ _ (.offlineWrite event) _ => { s with offlineWrites := s.offlineWrites ++ [event] }
  | .statusPut requestId status => { s with statuses := Dict.set s.statuses requestId status }
  | .own (.writeOnline writeSet) => { s with onlineWrites := s.onlineWrites ++ [writeSet] }
  | _ => s

def perform (s : ExpiryRun R) (env : CallEnv) : RunnerCall (OnlineRecord Unit R) R (OnlineOwn Unit R) → ExpiryRun R
  | .now => { s with clock := some (s.reading env) }
  | c => if env.reached then s.apply c else s

def answer (s : ExpiryRun R) (env : CallEnv) :
    (c : RunnerCall (OnlineRecord Unit R) R (OnlineOwn Unit R)) → RunnerCall.Ans OnlineOwn.Ans c
  | .poll => s.message
  | .now => s.reading env
  | .commit _ | .publish _ _ _ _ | .statusPut _ _ => env.reply ()
  | .statusRead requestId _ => env.reply (Dict.get? s.statuses requestId)
  | .own (.compute _) => env.computed
  | .own (.writeOnline _) => env.reply env.written
  | .own (.putResult _) => env.reply ()

variable (event : ExpiringEvent R)

def step (s : ExpiryRun R) : ExpiryAction → ExpiryRun R
  | .accept =>
    { s with statuses := Dict.set s.statuses event.requestId ⟨.accepted, none, none, some "pending", none⟩ }
  | .deliver message maxAttempts =>
    match s.delivery with
    -- the delivery before has not ended
    | some (.call _ _) => s
    | _ => { s with message := some message, delivery := some (Online.processNext event.events maxAttempts) }
  | .crash => { s with delivery := none }
  | .call env =>
    match s.delivery with
    | some (.call c k) => { s.perform env c with delivery := some (k (s.answer env c)) }
    | _ => s

/-- `_project_completed` and the merge of `upsert_request`, on the online write status. -/
def projectCompleted (_existing : Option String) (completed : FeatureComputeCompleted R) : Option String :=
  match completed.onlineWriteStatus with
  | none | some "" => some "written"
  | some status => some status

def projection (s : ExpiryRun R) : Option String := s.completions.foldl projectCompleted none

def ReportsExpiry (s : ExpiryRun R) : Prop :=
  (Dict.get? s.statuses event.requestId).bind RequestStatus.onlineWriteStatus = some "deadline_expired" ∨
  s.projection = some "deadline_expired"

def Unwritten (s : ExpiryRun R) : Prop := s.onlineWrites = [] ∧ s.offlineWrites = []

/-- A delivery that finds the event expired finds nothing written before. -/
def ExpiresUnwritten (s : ExpiryRun R) : ExpiryAction → Prop
  | .call env =>
    match s.delivery.bind Prog.next? with
    | some .now => event.expired (s.reading env) → s.Unwritten
    | _ => True
  | _ => True

instance (s : ExpiryRun R) : Decidable s.Unwritten := inferInstanceAs (Decidable (_ ∧ _))

instance decidableExpiresUnwritten (s : ExpiryRun R) (a : ExpiryAction) : Decidable (s.ExpiresUnwritten event a) := by
  unfold ExpiresUnwritten
  split
  · split <;> infer_instance
  · infer_instance

end

end ExpiryRun

/-! ## What a delivery knows -/

inductive Deadline where
  | unknown
  | live
  | lapsed

/-- The expiry is reported by a delivery that knows of it, and what is written is written by one that has found the event
live. An entry that shows the expiry makes it known. -/
def deadlineMonitor {R : Type} (event : ExpiringEvent R) :
    Monitor (RunnerCall (OnlineRecord Unit R) R (OnlineOwn Unit R)) (RunnerCall.Ans OnlineOwn.Ans) Deadline where
  allowed known
    | .publish _ _ (.completed completed) _ => completed.onlineWriteStatus = some "deadline_expired" → known = .lapsed
    | .publish _ _ (.offlineWrite _) _ => known = .live
    | .own (.writeOnline _) => known = .live
    | .statusPut _ status => status.onlineWriteStatus = some "deadline_expired" → known = .lapsed
    | _ => True
  record known c a := match c, a with
    | .now, t => if event.expired t then .lapsed else .live
    | .statusRead _ _, .ok (some existing) =>
      if existing.onlineWriteStatus = some "deadline_expired" then .lapsed else known
    | _, _ => known

section
variable {R : Type} (event : ExpiringEvent R)

theorem deadline_safeUpdate {known : Deadline} {requestId : R} {changes : StatusChanges}
    (hc : changes.onlineWriteStatus = some (some "deadline_expired") → known = .lapsed) :
    wp (deadlineMonitor event) known (Runner.safeUpdate requestId changes) fun _ _ => True := by
  unfold Runner.safeUpdate
  apply wp_ask trivial
  intro a
  cases a with
  | error e => trivial
  | ok entry =>
    cases entry with
    | none => trivial
    | some existing =>
      refine ⟨fun hput => ?_, fun a => trivial⟩
      show (if existing.onlineWriteStatus = some "deadline_expired" then Deadline.lapsed else known) = .lapsed
      split
      · rfl
      · rename_i hne
        cases ho : changes.onlineWriteStatus with
        | none =>
          simp only [applyChanges, ho, Option.getD_none] at hput
          exact absurd hput hne
        | some status =>
          simp only [applyChanges, ho, Option.getD_some] at hput
          subst hput
          exact hc ho

theorem aggregateOnlineStatus_ne_expired (outcomes : List WriteOutcome) :
    aggregateOnlineStatus outcomes ≠ "deadline_expired" := by
  unfold aggregateOnlineStatus
  split
  · decide
  · split <;> decide

def deadlineOutline : Online.Outline event.events (deadlineMonitor event) where
  inv _ := True
  lapsed _ known := known = .lapsed
  live _ known := known = .live
  told _ known := known = .lapsed
  stored _ known := known = .live
  live_inv h := trivial
  told_inv h := trivial
  stored_inv h := trivial
  poll known h := ⟨trivial, fun a => trivial⟩
  commit m known h := ⟨trivial, fun a => trivial⟩
  dlq topic record known h := ⟨trivial, fun a => trivial⟩
  retry key record headers known h := ⟨trivial, fun a => trivial⟩
  running requestId error known h := deadline_safeUpdate event fun hc => (nomatch hc)
  failed requestId error known h := deadline_safeUpdate event fun hc => (nomatch hc)
  now _ known h := by
    refine ⟨trivial, fun t => ⟨trivial, fun ht => ?_, fun ht => ?_⟩⟩
    · exact if_pos (Except.ok.inj ht)
    · have hlive : event.expired t = false := Except.ok.inj ht
      exact if_neg (by rw [hlive]; decide)
  announceExpired key _ known h := ⟨fun _ => h, fun a => trivial, h⟩
  commitExpired _ m known h := ⟨trivial, fun a => h⟩
  expired _ known h := deadline_safeUpdate event fun _ => h
  compute _ known h := ⟨trivial, fun a => h⟩
  writeOnline _ writeSet known h := ⟨h, fun a => h⟩
  offlineWrite _ key writeSet known h := ⟨h, fun a => h⟩
  announce _ key names outcomes known h := by
    refine ⟨fun hexp => ?_, fun a => h⟩
    exact absurd (Option.some.inj hexp) (aggregateOnlineStatus_ne_expired outcomes)
  putResult _ writeSet written known h := ⟨trivial, fun a => trivial, h⟩
  commitOk _ m known h := ⟨trivial, fun a => h⟩
  completed _ outcomes known h := deadline_safeUpdate event fun hexp =>
    absurd (Option.some.inj (Option.some.inj hexp)) (aggregateOnlineStatus_ne_expired outcomes)

end

/-! ## Every run -/

namespace ExpiryRun

section
variable {R : Type} [DecidableEq R] (event : ExpiringEvent R)

def Lapsed (s : ExpiryRun R) : Prop := ∃ t ∈ s.clock, event.expired t = true

def Knows (s : ExpiryRun R) : Deadline → Prop
  | .unknown => True
  | .live => ∃ t ∈ s.clock, event.expired t = false
  | .lapsed => s.Lapsed event

/-- What is reported as expired has lapsed, and what has lapsed is unwritten. -/
structure Truthful (s : ExpiryRun R) : Prop where
  shown : ∀ requestId status, Dict.get? s.statuses requestId = some status →
    status.onlineWriteStatus = some "deadline_expired" → s.Lapsed event
  told : ∀ completed ∈ s.completions, completed.onlineWriteStatus = some "deadline_expired" → s.Lapsed event
  unwritten : s.Lapsed event → s.Unwritten

structure Inv (s : ExpiryRun R) : Prop extends s.Truthful event where
  delivery : ∀ p ∈ s.delivery, ∃ known, s.Knows event known ∧ p.wp (deadlineMonitor event) known fun _ _ => True

variable {event}

omit [DecidableEq R] in
theorem Knows.not_lapsed {s : ExpiryRun R} (h : s.Knows event .live) : ¬ s.Lapsed event := by
  rintro ⟨t, ht, hexp⟩
  obtain ⟨t', ht', hlive⟩ := h
  rw [ht] at ht'
  cases ht'
  rw [hexp] at hlive
  cases hlive

theorem Truthful.put {s : ExpiryRun R} (hs : s.Truthful event) {requestId : R} {status : RequestStatus}
    (hput : status.onlineWriteStatus = some "deadline_expired" → s.Lapsed event) :
    Truthful event { s with statuses := Dict.set s.statuses requestId status } where
  shown id st hget hexp := by
    rw [Dict.get?_set] at hget
    split at hget
    · cases hget
      exact hput hexp
    · exact hs.shown id st hget hexp
  told := hs.told
  unwritten := hs.unwritten

theorem Truthful.apply {s : ExpiryRun R} (hs : s.Truthful event) {known : Deadline} (hk : s.Knows event known)
    {c : RunnerCall (OnlineRecord Unit R) R (OnlineOwn Unit R)} (hc : (deadlineMonitor event).allowed known c) :
    (s.apply c).Truthful event := by
  cases c with
  | poll => exact hs
  | now => exact hs
  | commit m => exact hs
  | statusRead requestId changes => exact hs
  | statusPut requestId status =>
    apply hs.put
    intro hexp
    have hlapsed : known = .lapsed := hc hexp
    subst hlapsed
    exact hk
  | publish topic key record headers =>
    cases record with
    | compute e => exact hs
    | dlq e => exact hs
    | completed completed =>
      refine ⟨hs.shown, fun c hm hexp => ?_, hs.unwritten⟩
      rcases List.mem_append.mp hm with hm | hm
      · exact hs.told c hm hexp
      · cases List.mem_singleton.mp hm
        have hlapsed : known = .lapsed := hc hexp
        subst hlapsed
        exact hk
    | offlineWrite e =>
      have hlive : known = .live := hc
      subst hlive
      exact ⟨hs.shown, hs.told, fun h => absurd h hk.not_lapsed⟩
  | own c =>
    cases c with
    | compute e => exact hs
    | putResult result => exact hs
    | writeOnline writeSet =>
      have hlive : known = .live := hc
      subst hlive
      exact ⟨hs.shown, hs.told, fun h => absurd h hk.not_lapsed⟩

omit [DecidableEq R] in
theorem Lapsed.reading {s : ExpiryRun R} (h : s.Lapsed event) (env : CallEnv) :
    event.expired (s.reading env) = true := by
  obtain ⟨t, ht, hexp⟩ := h
  unfold ExpiryRun.reading
  rw [ht]
  exact event.expired_mono (Int.le_max_left t env.now) hexp

theorem Truthful.now {s : ExpiryRun R} (hs : s.Truthful event) (env : CallEnv)
    (hu : event.expired (s.reading env) → s.Unwritten) :
    Truthful event { s with clock := some (s.reading env) } where
  shown requestId status hget hexp := ⟨_, rfl, (hs.shown requestId status hget hexp).reading env⟩
  told completed hm hexp := ⟨_, rfl, (hs.told completed hm hexp).reading env⟩
  unwritten h := by
    obtain ⟨t, ht, hexp⟩ := h
    cases ht
    exact hu hexp

theorem perform_eq (s : ExpiryRun R) (env : CallEnv) {c : RunnerCall (OnlineRecord Unit R) R (OnlineOwn Unit R)}
    (hc : c ≠ .now) : s.perform env c = if env.reached then s.apply c else s := by
  cases c with
  | now => exact absurd rfl hc
  | _ => rfl

theorem apply_clock (s : ExpiryRun R) (c : RunnerCall (OnlineRecord Unit R) R (OnlineOwn Unit R)) :
    (s.apply c).clock = s.clock := by
  cases c with
  | publish topic key record headers => cases record <;> rfl
  | own c => cases c <;> rfl
  | _ => rfl

omit [DecidableEq R] in
theorem Knows.of_clock {s s' : ExpiryRun R} (h : s'.clock = s.clock) {known : Deadline} (hk : s.Knows event known) :
    s'.Knows event known := by
  cases known with
  | unknown => trivial
  | live =>
    unfold Knows at *
    rw [h]
    exact hk
  | lapsed =>
    unfold Knows Lapsed at *
    rw [h]
    exact hk

theorem Truthful.perform {s : ExpiryRun R} (hs : s.Truthful event) {known : Deadline} (hk : s.Knows event known)
    {c : RunnerCall (OnlineRecord Unit R) R (OnlineOwn Unit R)} (hc : (deadlineMonitor event).allowed known c)
    (env : CallEnv) (hu : c = .now → event.expired (s.reading env) → s.Unwritten) :
    (s.perform env c).Truthful event := by
  by_cases hnow : c = .now
  · subst hnow
    exact hs.now env (hu rfl)
  · rw [perform_eq s env hnow]
    split
    · exact hs.apply hk hc
    · exact hs

theorem Knows.record {s : ExpiryRun R} (hs : s.Truthful event) {known : Deadline} (hk : s.Knows event known)
    (env : CallEnv) (c : RunnerCall (OnlineRecord Unit R) R (OnlineOwn Unit R)) :
    (s.perform env c).Knows event ((deadlineMonitor event).record known c (s.answer env c)) := by
  by_cases hnow : c = .now
  · subst hnow
    show Knows event _ (if event.expired (s.reading env) then Deadline.lapsed else .live)
    split
    · rename_i hexp
      exact ⟨_, rfl, hexp⟩
    · rename_i hexp
      exact ⟨_, rfl, eq_false_of_ne_true hexp⟩
  · have hclock : (s.perform env c).clock = s.clock := by
      rw [perform_eq s env hnow]
      split
      · exact apply_clock s c
      · rfl
    apply Knows.of_clock hclock
    cases c with
    | now => exact absurd rfl hnow
    | statusRead requestId changes =>
      cases ha : s.answer env (.statusRead requestId changes) with
      | error e => exact hk
      | ok entry =>
        cases entry with
        | none => exact hk
        | some existing =>
          obtain ⟨-, -, hget⟩ := CallEnv.reply_ok ha
          show Knows event s (if existing.onlineWriteStatus = some "deadline_expired" then Deadline.lapsed else known)
          split
          · rename_i hexp
            exact hs.shown requestId existing hget hexp
          · exact hk
    | _ => exact hk

theorem Inv.initial : Inv event ({} : ExpiryRun R) := by
  refine ⟨⟨?_, ?_, ?_⟩, ?_⟩
  · intro requestId status h
    cases h
  · intro completed h
    cases h
  · intro h
    exact ⟨rfl, rfl⟩
  · intro p h
    cases h

theorem Inv.step {s : ExpiryRun R} (hi : s.Inv event) (a : ExpiryAction) (hu : s.ExpiresUnwritten event a) :
    (s.step event a).Inv event := by
  cases a with
  | accept => exact ⟨hi.toTruthful.put fun h => (nomatch h), hi.delivery⟩
  | crash => exact ⟨⟨hi.shown, hi.told, hi.unwritten⟩, fun p h => (nomatch h)⟩
  | deliver message maxAttempts =>
    unfold ExpiryRun.step
    dsimp only
    split
    · exact hi
    · refine ⟨⟨hi.shown, hi.told, hi.unwritten⟩, fun p hp => ?_⟩
      cases hp
      exact ⟨.unknown, trivial, (deadlineOutline event).processNext maxAttempts trivial⟩
  | call env =>
    unfold ExpiryRun.step
    dsimp only
    split
    · rename_i c k hd
      obtain ⟨known, hk, hallowed, hrec⟩ := hi.delivery _ hd
      have hs := hi.toTruthful.perform hk hallowed env fun hc hexp => by
        subst hc
        unfold ExpiresUnwritten at hu
        rw [hd] at hu
        exact hu hexp
      refine ⟨⟨hs.shown, hs.told, hs.unwritten⟩, fun p hp => ?_⟩
      cases hp
      exact ⟨_, hk.record hi.toTruthful env c, hrec _⟩
    · exact hi

omit [DecidableEq R] in
theorem projection_expired {s : ExpiryRun R} (h : s.projection = some "deadline_expired") :
    ∃ completed ∈ s.completions, completed.onlineWriteStatus = some "deadline_expired" := by
  unfold projection at h
  cases hc : s.completions using List.reverseRecOn with
  | nil =>
    rw [hc] at h
    cases h
  | append_singleton before last =>
    rw [hc, List.foldl_append] at h
    refine ⟨last, List.mem_append_right _ (List.mem_singleton.mpr rfl), ?_⟩
    unfold projectCompleted at h
    dsimp only [List.foldl] at h
    split at h
    · exact absurd h (by decide)
    · exact absurd h (by decide)
    · rename_i status hst
      rw [hst]
      exact h

end

end ExpiryRun

/-- Where a delivery that finds the event expired finds nothing written, a reported expiry is true. -/
theorem reported_expiry_true (R : Type) [DecidableEq R] (event : ExpiringEvent R) (actions : List ExpiryAction)
    (hu : Runs.Steady (ExpiryRun.step event) (ExpiryRun.ExpiresUnwritten event) {} actions)
    (visited : List ExpiryAction) (hv : visited <+: actions)
    (hr : (Runs.run (ExpiryRun.step event) {} visited).ReportsExpiry event) :
    (Runs.run (ExpiryRun.step event) {} visited).Unwritten := by
  obtain ⟨rest, rfl⟩ := hv
  have hkeep : ∀ (s : ExpiryRun R) a, s.Inv event → s.ExpiresUnwritten event a → (s.step event a).Inv event :=
    fun s a hi hc => hi.step a hc
  have hi := Runs.Steady.invariant hkeep ExpiryRun.Inv.initial (Runs.Steady.append.mp hu).1
  apply hi.unwritten
  rcases hr with hr | hr
  · obtain ⟨status, hget, hexp⟩ := Option.bind_eq_some_iff.mp hr
    exact hi.shown _ status hget hexp
  · obtain ⟨completed, hm, hexp⟩ := ExpiryRun.projection_expired hr
    exact hi.told completed hm hexp

/-! ## A delivery that stops after it has written -/

def soonExpired : ExpiringEvent String where
  fromJson _ := .ok ()
  requestId := "freq_1"
  encoded := .ok "user_id=1"
  expiresAt := some 100

/-- One delivery of the event, `calls` calls long, at the time `now`. -/
def delivered (now : Int) (calls : Nat) : List ExpiryAction :=
  .deliver ⟨0, [], [], none⟩ 5 :: List.replicate calls (.call { allAnswer with now })

/-- The first delivery stops after the offline write event; the second finds the event expired. -/
theorem expired_after_write :
    let s := Runs.run (ExpiryRun.step soonExpired) {} ([.accept] ++ delivered 20 7 ++ [.crash] ++ delivered 200 8)
    s.ReportsExpiry soonExpired ∧ ¬ s.Unwritten := by
  refine ⟨.inr ?_, ?_⟩ <;> decide +kernel

theorem expired_before_write :
    (Runs.run (ExpiryRun.step soonExpired) {} ([.accept] ++ delivered 200 8)).ReportsExpiry soonExpired ∧
    (Runs.run (ExpiryRun.step soonExpired) {} ([.accept] ++ delivered 200 8)).Unwritten := by
  have hu : Runs.Steady (ExpiryRun.step soonExpired) (ExpiryRun.ExpiresUnwritten soonExpired) {}
      ([.accept] ++ delivered 200 8) := by
    decide +kernel
  have hr : (Runs.run (ExpiryRun.step soonExpired) {} ([.accept] ++ delivered 200 8)).ReportsExpiry soonExpired := by
    refine .inr ?_
    decide +kernel
  exact ⟨hr, reported_expiry_true String soonExpired ([.accept] ++ delivered 200 8) hu _ (List.prefix_refl _) hr⟩

end ClearFeature
