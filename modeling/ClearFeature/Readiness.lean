import ClearFeature.Lib.Dict
import ClearFeature.Lib.Runs
import ClearFeature.Lib.StableSort
import Mathlib.Data.String.Basic
import Mathlib.Logic.Function.Basic

/-!
# Readiness (`api/readiness.py`)

A check asks each dependency of the role through a probe thread that it waits
for only so long. Checks run at the same time, one for each request of `/ready`.
-/

namespace ClearFeature

/-! ## Dependencies -/

def depKafka : String := "kafka"

def depPostgres : String := "postgres"

def depMinio : String := "minio"

def depValkey : String := "valkey"

def roleDependencies : List (String × List String) :=
  [("api", [depKafka, depPostgres, depMinio, depValkey]), ("online-worker", [depKafka, depMinio, depValkey]),
   ("offline-writer", [depKafka, depPostgres]), ("metadata-writer", [depKafka, depPostgres]),
   ("model-score-writer", [depKafka, depValkey]), ("batch-worker", [depKafka, depPostgres, depMinio, depValkey]),
   ("propagation-worker", [depKafka, depPostgres])]

/-- The names of the probes, each with its place. -/
structure ReadinessChecker where
  role : String
  runners : List (String × Nat)
  places : (runners.map Prod.snd).Nodup

/-- The probes that the process has built and the role needs. -/
def ReadinessChecker.init (role : String) (probes : List String) : Except String ReadinessChecker :=
  match Dict.get? roleDependencies role with
  | none => .error s!"unknown readiness role '{role}'"
  | some required =>
    .ok {
      role
      runners := (probes.filter (· ∈ required)).zipIdx
      places := by
        rw [List.zipIdx_map_snd]
        exact List.nodup_range' }

/-! ## Probe threads -/

/-- How a probe thread ends; `died` is an exception that `_target` does not catch. -/
inductive ProbeEnd where
  | returned
  | raised (errorType : String)
  | died
  deriving DecidableEq

inductive ProbeStatus where
  | ok
  | failed
  | timeout
  deriving DecidableEq

def ProbeEnd.status : ProbeEnd → ProbeStatus
  | .returned => .ok
  | .raised _ => .failed
  | .died => .failed

inductive ThreadState where
  | created
  | alive
  | ended (outcome : ProbeEnd)
  deriving DecidableEq

def ThreadState.isOpen : ThreadState → Bool
  | .ended _ => false
  | _ => true

/-- `owner` is the check that has created the thread. -/
structure ProbeThread (ι : Type) where
  owner : ι
  state : ThreadState

/-- `_ProbeRunner`: all threads it has had, and the one in `_thread`. -/
structure ProbeRunner (ι : Type) where
  threads : List (ProbeThread ι) := []
  current : Option Nat := none

namespace ProbeRunner

section
variable {ι : Type}

def stateOf? (r : ProbeRunner ι) (t : Nat) : Option ThreadState := r.threads[t]?.map ProbeThread.state

def currentState? (r : ProbeRunner ι) : Option ThreadState := r.current.bind r.stateOf?

/-- `self._thread is not None and self._thread.is_alive()` -/
def inFlight (r : ProbeRunner ι) : Bool := r.currentState? = some .alive

/-- The thread that is about to be replaced has not been started yet. -/
def overtaken (r : ProbeRunner ι) : Bool := r.currentState? = some .created

def create (r : ProbeRunner ι) (i : ι) : ProbeRunner ι where
  threads := r.threads ++ [⟨i, .created⟩]
  current := some r.threads.length

def setState (r : ProbeRunner ι) (t : Nat) (state : ThreadState) : ProbeRunner ι :=
  match r.threads[t]? with
  | none => r
  | some thread => { r with threads := r.threads.set t { thread with state } }

def start (r : ProbeRunner ι) (t : Nat) : ProbeRunner ι := r.setState t .alive

/-- The call into the dependency comes to an end. -/
def finish (r : ProbeRunner ι) (t : Nat) (outcome : ProbeEnd) : ProbeRunner ι :=
  if r.stateOf? t = some .alive then r.setState t (.ended outcome) else r

/-- The threads that have not ended. -/
def openThreads (r : ProbeRunner ι) : Nat := r.threads.countP (·.state.isOpen)

def owners (r : ProbeRunner ι) : List ι := r.threads.map ProbeThread.owner

/-- All open threads but one have been overtaken. -/
def Bounded (r : ProbeRunner ι) (overtakings : Nat) : Prop :=
  r.openThreads ≤ overtakings + (if r.currentState?.any ThreadState.isOpen then 1 else 0)

theorem currentState?_create (r : ProbeRunner ι) (i : ι) : (r.create i).currentState? = some .created := by
  simp [currentState?, stateOf?, create]

theorem openThreads_create (r : ProbeRunner ι) (i : ι) : (r.create i).openThreads = r.openThreads + 1 := by
  simp [openThreads, create, ThreadState.isOpen]

theorem threads_setState (r : ProbeRunner ι) (t t' : Nat) (state : ThreadState) :
    (r.setState t state).threads[t']? =
      if t = t' then r.threads[t']?.map fun thread => { thread with state } else r.threads[t']? := by
  unfold setState
  cases h : r.threads[t]? with
  | none =>
    by_cases ht : t = t'
    · subst ht
      simp [h]
    · simp [ht]
  | some thread =>
    by_cases ht : t = t'
    · subst ht
      have hlt := (List.getElem?_eq_some_iff.mp h).1
      have hget := (List.getElem?_eq_some_iff.mp h).2
      simp [hlt, hget]
    · simp [ht]

theorem stateOf?_setState (r : ProbeRunner ι) (t t' : Nat) (state : ThreadState) :
    (r.setState t state).stateOf? t' = if t = t' then (r.stateOf? t').map fun _ => state else r.stateOf? t' := by
  unfold stateOf?
  rw [threads_setState]
  split
  · simp only [Option.map_map]
    rfl
  · rfl

theorem setState_current (r : ProbeRunner ι) (t : Nat) (state : ThreadState) : (r.setState t state).current = r.current := by
  unfold setState
  split <;> rfl

theorem setState_owners (r : ProbeRunner ι) (t : Nat) (state : ThreadState) : (r.setState t state).owners = r.owners := by
  unfold setState owners
  cases h : r.threads[t]? with
  | none => rfl
  | some thread =>
    have howner : (r.threads.map ProbeThread.owner)[t]? = some thread.owner := by
      rw [List.getElem?_map, h]
      rfl
    simp only [List.map_set]
    obtain ⟨hlt, heq⟩ := List.getElem?_eq_some_iff.mp howner
    rw [← heq, List.set_getElem_self]

/-- The state of one thread changes the number of open threads by what it changes itself. -/
theorem openThreads_setState {r : ProbeRunner ι} {t : Nat} {old : ThreadState} (h : r.stateOf? t = some old)
    (state : ThreadState) :
    (r.setState t state).openThreads + (if old.isOpen then 1 else 0) =
      r.openThreads + (if state.isOpen then 1 else 0) := by
  obtain ⟨thread, hthread, rfl⟩ := Option.map_eq_some_iff.mp h
  obtain ⟨hlt, hget⟩ := List.getElem?_eq_some_iff.mp hthread
  unfold setState openThreads
  rw [hthread]
  dsimp only
  rw [List.countP_set hlt, hget]
  dsimp only
  by_cases hopen : thread.state.isOpen = true
  · have hpos : 0 < r.threads.countP (·.state.isOpen) := by
      apply List.countP_pos_iff.mpr
      exact ⟨thread, List.mem_of_getElem? hthread, hopen⟩
    simp only [hopen, if_true]
    omega
  · simp [hopen]

theorem Bounded.create {r : ProbeRunner ι} {n : Nat} (h : r.Bounded n) (i : ι) (hfree : r.inFlight = false) :
    (r.create i).Bounded (n + (if r.overtaken then 1 else 0)) := by
  unfold Bounded at h ⊢
  rw [currentState?_create, openThreads_create]
  have hsame : (r.currentState?.any ThreadState.isOpen) = r.overtaken := by
    unfold inFlight at hfree
    unfold overtaken
    cases hs : r.currentState? with
    | none => simp
    | some state =>
      rw [hs] at hfree
      cases state <;> simp [ThreadState.isOpen] at hfree ⊢
  rw [hsame] at h
  simp only [Option.any_some, ThreadState.isOpen, if_true]
  omega

theorem Bounded.start {r : ProbeRunner ι} {n t : Nat} (h : r.Bounded n) (hcreated : r.stateOf? t = some .created) :
    (r.start t).Bounded n := by
  have hcount := openThreads_setState hcreated .alive
  have hcurrent : ((r.start t).currentState?.any ThreadState.isOpen) = r.currentState?.any ThreadState.isOpen := by
    unfold currentState? ProbeRunner.start
    rw [setState_current]
    cases hc : r.current with
    | none => rfl
    | some t' =>
      simp only [Option.bind_some, stateOf?_setState]
      by_cases ht : t = t'
      · subst ht
        simp [hcreated, ThreadState.isOpen]
      · simp [ht]
  unfold Bounded at h ⊢
  rw [hcurrent]
  simp only [ThreadState.isOpen, if_true] at hcount
  unfold ProbeRunner.start
  omega

theorem Bounded.finish {r : ProbeRunner ι} {n : Nat} (h : r.Bounded n) (t : Nat) (outcome : ProbeEnd) :
    (r.finish t outcome).Bounded n := by
  unfold ProbeRunner.finish
  split
  · rename_i halive
    have hcount := openThreads_setState halive (.ended outcome)
    simp only [ThreadState.isOpen, if_true] at hcount
    unfold Bounded at h ⊢
    have hothers : ((if r.currentState?.any ThreadState.isOpen then 1 else 0) : Nat) ≤
        (if (r.setState t (.ended outcome)).currentState?.any ThreadState.isOpen then 1 else 0) + 1 := by
      split <;> split <;> omega
    simp only [Bool.false_eq_true, if_false] at hcount
    omega
  · exact h

/-- The thread `t` is one of the check `i`. -/
def Has (r : ProbeRunner ι) (t : Nat) (i : ι) (state : ThreadState) : Prop :=
  r.threads[t]? = some ({ owner := i, state } : ProbeThread ι)

theorem Has.stateOf {r : ProbeRunner ι} {t : Nat} {i : ι} {state : ThreadState} (h : r.Has t i state) :
    r.stateOf? t = some state := by
  unfold Has at h
  simp [stateOf?, h]

theorem Has.unique {r : ProbeRunner ι} {t : Nat} {i j : ι} {state state' : ThreadState} (h : r.Has t i state)
    (h' : r.Has t j state') : i = j ∧ state = state' := by
  unfold Has at h h'
  rw [h] at h'
  cases h'
  exact ⟨rfl, rfl⟩

theorem Has.create {r : ProbeRunner ι} {t : Nat} {i : ι} {state : ThreadState} (h : r.Has t i state) (j : ι) :
    (r.create j).Has t i state := by
  unfold Has ProbeRunner.create
  dsimp only
  rw [List.getElem?_append_left (List.getElem?_eq_some_iff.mp h).1]
  exact h

theorem Has.setState {r : ProbeRunner ι} {t : Nat} {i : ι} {old : ThreadState} (h : r.Has t i old)
    (state : ThreadState) : (r.setState t state).Has t i state := by
  unfold Has at h ⊢
  rw [threads_setState, if_pos rfl, h]
  rfl

theorem Has.setState_ne {r : ProbeRunner ι} {t t' : Nat} {i : ι} {old : ThreadState} (h : r.Has t' i old) (hne : t ≠ t')
    (state : ThreadState) : (r.setState t state).Has t' i old := by
  unfold Has at h ⊢
  rw [threads_setState, if_neg hne]
  exact h

/-- What others do leaves the threads of a check alone, but they may end. -/
structure Others (i : ι) (r r' : ProbeRunner ι) : Prop where
  created : ∀ t, r.Has t i .created → r'.Has t i .created
  started : ∀ t state, r.Has t i state → state ≠ .created → ∃ state', r'.Has t i state' ∧ state' ≠ .created
  ended : ∀ t outcome, r.Has t i (.ended outcome) → r'.Has t i (.ended outcome)
  owners : i ∈ r'.owners → i ∈ r.owners

theorem Others.of_keep {i : ι} {r r' : ProbeRunner ι} (hkeep : ∀ t state, r.Has t i state → r'.Has t i state)
    (howners : i ∈ r'.owners → i ∈ r.owners) : Others i r r' where
  created t h := hkeep t _ h
  started t state h hstate := ⟨state, hkeep t _ h, hstate⟩
  ended t _ h := hkeep t _ h
  owners := howners

theorem Others.refl (i : ι) (r : ProbeRunner ι) : Others i r r := of_keep (fun _ _ h => h) (fun h => h)

theorem Others.create {i j : ι} (hne : i ≠ j) (r : ProbeRunner ι) : Others i r (r.create j) := by
  apply of_keep
  · intro t state h
    exact h.create j
  · intro h
    simpa [ProbeRunner.owners, ProbeRunner.create, hne] using h

theorem Others.start {i j : ι} (hne : i ≠ j) {r : ProbeRunner ι} {t : Nat} (hj : r.Has t j .created) :
    Others i r (r.start t) := by
  apply of_keep
  · intro t' state h
    apply h.setState_ne
    intro ht
    subst ht
    exact hne (h.unique hj).1
  · unfold ProbeRunner.start
    rw [setState_owners]
    exact fun h => h

theorem Others.finish (i : ι) (r : ProbeRunner ι) (t : Nat) (outcome : ProbeEnd) : Others i r (r.finish t outcome) := by
  unfold ProbeRunner.finish
  split
  · rename_i halive
    have hkeep : ∀ t' state, r.Has t' i state → state ≠ .alive → (r.setState t (.ended outcome)).Has t' i state := by
      intro t' state h hstate
      apply h.setState_ne
      intro ht
      subst ht
      rw [h.stateOf] at halive
      cases halive
      exact hstate rfl
    refine ⟨fun t' h => hkeep t' _ h (by simp), ?_, fun t' _ h => hkeep t' _ h (by simp), ?_⟩
    · intro t' state h hstate
      by_cases ht : t = t'
      · subst ht
        exact ⟨_, h.setState _, by simp⟩
      · exact ⟨state, h.setState_ne ht _, hstate⟩
    · rw [setState_owners]
      exact fun h => h
  · exact Others.refl i r

end

end ProbeRunner

/-! ## Checks -/

structure ReadinessReport where
  ready : Bool
  role : String
  checks : List (String × ProbeStatus)
  deriving DecidableEq

inductive ReadinessLog where
  | recovered (workerRole : String)
  | failed (workerRole : String) (failedDependencies : List String)
  deriving DecidableEq

/-- Where a check is in the run of one probe. -/
inductive ProbePhase where
  | entering
  | created (t : Nat)
  | joining (t : Nat)

inductive CheckPhase where
  | probing (checks : List (String × ProbeStatus)) (rest : List (String × Nat)) (phase : ProbePhase)
  | logging (report : ReadinessReport) (event : Option ReadinessLog)
  | returned (report : ReadinessReport)

/-- `decided` has the transitions in the order in which checks see them, `logged` in the order of the log. -/
structure ReadinessWorld (ι : Type) where
  runner : Nat → ProbeRunner ι := fun _ => {}
  lastReady : Option Bool := none
  phase : ι → CheckPhase
  decided : List (ι × ReadinessLog) := []
  logged : List (ι × ReadinessLog) := []

/-- A check goes on, with `expired` once the time to wait for a thread is over, or a call into a dependency ends. -/
inductive ReadinessAction (ι : Type) where
  | advance (i : ι) (expired : Bool)
  | finish (r t : Nat) (outcome : ProbeEnd)

namespace ReadinessChecker

section
variable {ι : Type} (checker : ReadinessChecker)

def initial : ReadinessWorld ι := { phase := fun _ => .probing [] checker.runners .entering }

def report (checks : List (String × ProbeStatus)) : ReadinessReport where
  ready := (Dict.values checks).all (· = .ok)
  role := checker.role
  checks

/-- The logged event of `_log_transition`, for the readiness seen before. -/
def transition (previous : Option Bool) (report : ReadinessReport) : Option ReadinessLog :=
  if report.ready ∧ previous = some false then some (.recovered report.role)
  else if ¬ report.ready ∧ previous ≠ some false then
    some (.failed report.role
      (StableSort.sortedBy id ((report.checks.filter fun check => check.2 ≠ .ok).map Prod.fst)))
  else none

section
variable [DecidableEq ι]

def advance (w : ReadinessWorld ι) (i : ι) (expired : Bool) : ReadinessWorld ι :=
  match w.phase i with
  | .probing checks [] _ =>
    let report := checker.report checks
    let event := transition w.lastReady report
    { w with
      lastReady := some report.ready
      phase := Function.update w.phase i (.logging report event)
      decided := w.decided ++ event.toList.map (i, ·) }
  | .probing checks ((name, r) :: rest) .entering =>
    if (w.runner r).inFlight then
      { w with phase := Function.update w.phase i (.probing (Dict.set checks name .timeout) rest .entering) }
    else
      { w with
        runner := Function.update w.runner r ((w.runner r).create i)
        phase := Function.update w.phase i
          (.probing checks ((name, r) :: rest) (.created (w.runner r).threads.length)) }
  | .probing checks ((name, r) :: rest) (.created t) =>
    { w with
      runner := Function.update w.runner r ((w.runner r).start t)
      phase := Function.update w.phase i (.probing checks ((name, r) :: rest) (.joining t)) }
  | .probing checks ((name, r) :: rest) (.joining t) =>
    match (w.runner r).stateOf? t with
    | some (.ended outcome) =>
      { w with phase := Function.update w.phase i (.probing (Dict.set checks name outcome.status) rest .entering) }
    | _ =>
      if expired then
        { w with phase := Function.update w.phase i (.probing (Dict.set checks name .timeout) rest .entering) }
      else w
  | .logging report event =>
    { w with phase := Function.update w.phase i (.returned report), logged := w.logged ++ event.toList.map (i, ·) }
  | .returned _ => w

def step (w : ReadinessWorld ι) : ReadinessAction ι → ReadinessWorld ι
  | .advance i expired => checker.advance w i expired
  | .finish r t outcome => { w with runner := Function.update w.runner r ((w.runner r).finish t outcome) }

def run (actions : List (ReadinessAction ι)) : ReadinessWorld ι := Runs.run checker.step checker.initial actions

/-- The action replaces a thread of the probe that another check has created and not started yet. -/
def overtakes (r : Nat) (w : ReadinessWorld ι) : ReadinessAction ι → Bool
  | .advance i _ =>
    match w.phase i with
    | .probing _ ((_, r') :: _) .entering => r' = r && (w.runner r).overtaken
    | _ => false
  | .finish _ _ _ => false

def overtakings (r : Nat) : ReadinessWorld ι → List (ReadinessAction ι) → Nat
  | _, [] => 0
  | w, a :: as => (if overtakes r w a then 1 else 0) + overtakings r (checker.step w a) as

end

/-! ### The invariant of the checks -/

/-- A status other than `timeout` is how a thread of the check itself has ended. -/
structure Answered (w : ReadinessWorld ι) (i : ι) (r : Nat) (status : ProbeStatus) : Prop where
  ok : status = .ok → ∃ t, (w.runner r).Has t i (.ended .returned)
  failed : status = .failed → ∃ t outcome, (w.runner r).Has t i (.ended outcome) ∧ outcome ≠ .returned

structure Probed (w : ReadinessWorld ι) (i : ι) (checks : List (String × ProbeStatus)) (rest : List (String × Nat)) :
    Prop where
  split : ∃ done, done ++ rest = checker.runners ∧ ∀ e ∈ done, e.1 ∈ Dict.keys checks
  keys : (Dict.keys checks).Nodup
  answered : ∀ e ∈ checks, ∃ r, (e.1, r) ∈ checker.runners ∧ Answered w i r e.2

/-- The check has no thread of these probes. -/
def Fresh (w : ReadinessWorld ι) (i : ι) (rest : List (String × Nat)) : Prop := ∀ e ∈ rest, i ∉ (w.runner e.2).owners

def AtProbe (w : ReadinessWorld ι) (i : ι) (rest : List (String × Nat)) : ProbePhase → Prop
  | .entering => Fresh w i rest
  | .created t => ∃ e rest', rest = e :: rest' ∧ (w.runner e.2).Has t i .created ∧ Fresh w i rest'
  | .joining t => ∃ e rest', rest = e :: rest' ∧ (∃ state, (w.runner e.2).Has t i state ∧ state ≠ .created) ∧
      Fresh w i rest'

def CheckInv (w : ReadinessWorld ι) (i : ι) : CheckPhase → Prop
  | .probing checks rest phase => Probed checker w i checks rest ∧ AtProbe w i rest phase
  | .logging report _ => ∃ checks, report = checker.report checks ∧ Probed checker w i checks []
  | .returned report => ∃ checks, report = checker.report checks ∧ Probed checker w i checks []

variable {checker} {w w' : ReadinessWorld ι} {i : ι}

theorem Probed.of_ended
    (hended : ∀ r t outcome, (w.runner r).Has t i (.ended outcome) → (w'.runner r).Has t i (.ended outcome))
    {checks : List (String × ProbeStatus)} {rest : List (String × Nat)} (h : Probed checker w i checks rest) :
    Probed checker w' i checks rest := by
  refine ⟨h.split, h.keys, ?_⟩
  intro e he
  obtain ⟨r, hr, hanswered⟩ := h.answered e he
  refine ⟨r, hr, ?_, ?_⟩
  · intro hs
    obtain ⟨t, ht⟩ := hanswered.ok hs
    exact ⟨t, hended r t _ ht⟩
  · intro hs
    obtain ⟨t, outcome, ht, hne⟩ := hanswered.failed hs
    exact ⟨t, outcome, hended r t _ ht, hne⟩

theorem Probed.others (hother : ∀ r, ProbeRunner.Others i (w.runner r) (w'.runner r))
    {checks : List (String × ProbeStatus)} {rest : List (String × Nat)} (h : Probed checker w i checks rest) :
    Probed checker w' i checks rest := h.of_ended fun r => (hother r).ended

theorem Fresh.others (hother : ∀ r, ProbeRunner.Others i (w.runner r) (w'.runner r)) {rest : List (String × Nat)}
    (h : Fresh w i rest) : Fresh w' i rest :=
  fun e he howner => h e he ((hother e.2).owners howner)

theorem CheckInv.others (hother : ∀ r, ProbeRunner.Others i (w.runner r) (w'.runner r)) {phase : CheckPhase}
    (h : CheckInv checker w i phase) : CheckInv checker w' i phase := by
  cases phase with
  | logging report event =>
    obtain ⟨checks, hreport, hprobed⟩ := h
    exact ⟨checks, hreport, hprobed.others hother⟩
  | returned report =>
    obtain ⟨checks, hreport, hprobed⟩ := h
    exact ⟨checks, hreport, hprobed.others hother⟩
  | probing checks rest phase =>
    refine ⟨h.1.others hother, ?_⟩
    have hat := h.2
    cases phase with
    | entering => exact Fresh.others hother hat
    | created t =>
      obtain ⟨e, rest', hrest, ht, hfresh⟩ := hat
      exact ⟨e, rest', hrest, (hother _).created t ht, hfresh.others hother⟩
    | joining t =>
      obtain ⟨e, rest', hrest, ⟨state, ht, hne⟩, hfresh⟩ := hat
      exact ⟨e, rest', hrest, (hother _).started t state ht hne, hfresh.others hother⟩

/-- The status of a probe is set and the check goes on to the next one. -/
theorem Probed.set {checks : List (String × ProbeStatus)} {name : String} {r : Nat} {rest : List (String × Nat)}
    (h : Probed checker w i checks ((name, r) :: rest)) {status : ProbeStatus} (hstatus : Answered w i r status) :
    Probed checker w i (Dict.set checks name status) rest := by
  obtain ⟨done, hdone, hkeys⟩ := h.split
  refine ⟨⟨done ++ [(name, r)], by simp [← hdone], ?_⟩, Dict.keys_set_nodup name status h.keys, ?_⟩
  · intro e he
    rw [Dict.mem_keys_set]
    simp only [List.mem_append, List.mem_singleton] at he
    cases he with
    | inl he => exact .inr (hkeys e he)
    | inr he =>
      subst he
      exact .inl rfl
  · intro e he
    cases Dict.mem_set_cases he with
    | inl he =>
      subst he
      exact ⟨r, by simp [← hdone], hstatus⟩
    | inr he => exact h.answered e he

variable (checker) in
structure Inv (w : ReadinessWorld ι) : Prop where
  checks : ∀ i, CheckInv checker w i (w.phase i)
  once : ∀ r, (w.runner r).owners.Nodup

theorem Inv.initial : Inv checker (checker.initial (ι := ι)) := by
  refine ⟨?_, ?_⟩
  · intro i
    refine ⟨⟨⟨[], rfl, by simp⟩, by simp [Dict.keys], by simp⟩, ?_⟩
    intro e _
    simp [ReadinessChecker.initial, ProbeRunner.owners]
  · intro r
    simp [ReadinessChecker.initial, ProbeRunner.owners]

/-- One check goes on, and the others see only what it does to the runners. -/
theorem Inv.move (h : Inv checker w) (hphase : ∀ j, j ≠ i → w'.phase j = w.phase j)
    (hothers : ∀ j, j ≠ i → ∀ r, ProbeRunner.Others j (w.runner r) (w'.runner r))
    (hi : CheckInv checker w' i (w'.phase i)) (honce : ∀ r, (w'.runner r).owners.Nodup) : Inv checker w' := by
  refine ⟨?_, honce⟩
  intro j
  by_cases hj : j = i
  · rw [hj]
    exact hi
  · rw [hphase j hj]
    exact (h.checks j).others (hothers j hj)

theorem update_runner (w : ReadinessWorld ι) (r r' : Nat) (runner : ProbeRunner ι) :
    Function.update w.runner r runner r' = if r' = r then runner else w.runner r' := by
  by_cases h : r' = r
  · subst h
    simp
  · simp [h]

theorem Inv.report (h : Inv checker w) {checks : List (String × ProbeStatus)} {phase : ProbePhase}
    (hp : w.phase i = .probing checks [] phase) (event : Option ReadinessLog) :
    CheckInv checker w i (.logging (checker.report checks) event) := by
  have hcheck := h.checks i
  rw [hp] at hcheck
  exact ⟨checks, rfl, hcheck.1⟩

/-- The check leaves the probe with a status. -/
theorem Inv.leave (h : Inv checker w) {checks : List (String × ProbeStatus)} {name : String} {r : Nat}
    {rest : List (String × Nat)} {phase : ProbePhase} (hp : w.phase i = .probing checks ((name, r) :: rest) phase)
    (hfresh : Fresh w i rest) {status : ProbeStatus} (hstatus : Answered w i r status) :
    CheckInv checker w i (.probing (Dict.set checks name status) rest .entering) := by
  have hcheck := h.checks i
  rw [hp] at hcheck
  exact ⟨hcheck.1.set hstatus, hfresh⟩

theorem Answered.timeout (w : ReadinessWorld ι) (i : ι) (r : Nat) : Answered w i r .timeout :=
  ⟨fun h => (nomatch h), fun h => (nomatch h)⟩

theorem Answered.of_ended {r t : Nat} {outcome : ProbeEnd} (h : (w.runner r).Has t i (.ended outcome)) :
    Answered w i r outcome.status := by
  refine ⟨?_, ?_⟩
  · intro hs
    cases outcome with
    | returned => exact ⟨t, h⟩
    | raised e => cases hs
    | died => cases hs
  · intro hs
    cases outcome with
    | returned => cases hs
    | raised e => exact ⟨t, _, h, by simp⟩
    | died => exact ⟨t, _, h, by simp⟩

variable [DecidableEq ι]

theorem Inv.finish (h : Inv checker w) (r t : Nat) (outcome : ProbeEnd) :
    Inv checker (checker.step w (.finish r t outcome)) := by
  refine ⟨?_, ?_⟩
  · intro i
    apply (h.checks i).others
    intro r'
    simp only [step, update_runner]
    split
    · rename_i hr
      subst hr
      exact ProbeRunner.Others.finish i _ t outcome
    · exact ProbeRunner.Others.refl i _
  · intro r'
    simp only [step, update_runner]
    split
    · rename_i hr
      subst hr
      unfold ProbeRunner.finish
      split
      · rw [ProbeRunner.setState_owners]
        exact h.once r'
      · exact h.once r'
    · exact h.once r'

/-- The runners stay, and the check takes a phase that is right with them. -/
theorem Inv.setPhase (h : Inv checker w) {phase : CheckPhase} (hrunner : w'.runner = w.runner)
    (hphase : w'.phase = Function.update w.phase i phase) (hi : CheckInv checker w i phase) : Inv checker w' := by
  have hother : ∀ j r, ProbeRunner.Others j (w.runner r) (w'.runner r) := by
    intro j r
    rw [hrunner]
    exact ProbeRunner.Others.refl j _
  apply h.move (i := i)
  · intro j hj
    rw [hphase, Function.update_of_ne hj]
  · intro j _
    exact hother j
  · rw [hphase, Function.update_self]
    exact hi.others (hother i)
  · intro r
    rw [hrunner]
    exact h.once r

theorem Inv.create (h : Inv checker w) {checks : List (String × ProbeStatus)} {name : String} {r : Nat}
    {rest : List (String × Nat)} (hp : w.phase i = .probing checks ((name, r) :: rest) .entering) :
    Inv checker { w with
      runner := Function.update w.runner r ((w.runner r).create i)
      phase := Function.update w.phase i
        (.probing checks ((name, r) :: rest) (.created (w.runner r).threads.length)) } := by
  have hcheck := h.checks i
  rw [hp] at hcheck
  obtain ⟨hprobed, hfresh⟩ := hcheck
  have hnew : i ∉ (w.runner r).owners := hfresh (name, r) List.mem_cons_self
  -- the probes that are left have other places
  have hplaces : ∀ e ∈ rest, e.2 ≠ r := by
    intro e he heq
    obtain ⟨done, hdone, -⟩ := hprobed.split
    have hn := checker.places
    rw [← hdone, List.map_append, List.map_cons] at hn
    have := (List.nodup_cons.mp (List.nodup_append.mp hn).2.1).1
    apply this
    rw [← heq]
    exact List.mem_map.mpr ⟨e, he, rfl⟩
  apply h.move (i := i)
  · intro j hj
    simp [Function.update_of_ne hj]
  · intro j hj r'
    simp only [update_runner]
    split
    · rename_i hr
      subst hr
      exact ProbeRunner.Others.create hj _
    · exact ProbeRunner.Others.refl j _
  · simp only [Function.update_self]
    refine ⟨hprobed.of_ended ?_, (name, r), rest, rfl, ?_, ?_⟩
    · intro r' t outcome ht
      simp only [update_runner]
      split
      · rename_i hr
        subst hr
        exact ht.create i
      · exact ht
    · simp [ProbeRunner.Has, ProbeRunner.create]
    · intro e he
      simp only [update_runner, if_neg (hplaces e he)]
      exact hfresh e (List.mem_cons_of_mem _ he)
  · intro r'
    simp only [update_runner]
    split
    · rename_i hr
      simp only [ProbeRunner.owners, ProbeRunner.create, List.map_append, List.map_cons, List.map_nil]
      exact List.nodup_append.mpr ⟨h.once r, by simp, by
        intro a ha b hb hab
        simp only [List.mem_singleton] at hb
        subst hb
        subst hab
        exact hnew ha⟩
    · exact h.once r'

theorem Inv.start (h : Inv checker w) {checks : List (String × ProbeStatus)} {name : String} {r t : Nat}
    {rest : List (String × Nat)} (hp : w.phase i = .probing checks ((name, r) :: rest) (.created t)) :
    Inv checker { w with
      runner := Function.update w.runner r ((w.runner r).start t)
      phase := Function.update w.phase i (.probing checks ((name, r) :: rest) (.joining t)) } := by
  have hcheck := h.checks i
  rw [hp] at hcheck
  obtain ⟨hprobed, e, rest', hrest, hcreated, hfresh⟩ := hcheck
  cases hrest
  have howners : ∀ r', (Function.update w.runner r ((w.runner r).start t) r').owners = (w.runner r').owners := by
    intro r'
    rw [update_runner]
    split
    · rename_i hr
      subst hr
      exact ProbeRunner.setState_owners _ _ _
    · rfl
  have hended : ∀ r' t' outcome, (w.runner r').Has t' i (.ended outcome) →
      (Function.update w.runner r ((w.runner r).start t) r').Has t' i (.ended outcome) := by
    intro r' t' outcome ht
    rw [update_runner]
    split
    · rename_i hr
      subst hr
      apply ht.setState_ne
      intro heq
      subst heq
      cases (ht.unique hcreated).2
    · exact ht
  apply h.move (i := i)
  · intro j hj
    simp [Function.update_of_ne hj]
  · intro j hj r'
    simp only [update_runner]
    split
    · rename_i hr
      subst hr
      exact ProbeRunner.Others.start hj hcreated
    · exact ProbeRunner.Others.refl j _
  · simp only [Function.update_self]
    refine ⟨hprobed.of_ended hended, (name, r), rest, rfl, ⟨.alive, ?_, by simp⟩, ?_⟩
    · simp only [Function.update_self]
      exact hcreated.setState _
    · intro e he
      rw [howners]
      exact hfresh e he
  · intro r'
    rw [howners]
    exact h.once r'

theorem Inv.advance (h : Inv checker w) (i : ι) (expired : Bool) : Inv checker (checker.advance w i expired) := by
  have hcheck := h.checks i
  unfold ReadinessChecker.advance
  cases hp : w.phase i with
  | logging report event =>
    rw [hp] at hcheck
    have hreturned : CheckInv checker w i (.returned report) := hcheck
    exact h.setPhase rfl rfl hreturned
  | returned report => exact h
  | probing checks rest phase =>
    rw [hp] at hcheck
    cases rest with
    | nil => exact h.setPhase rfl rfl (h.report hp _)
    | cons e rest =>
      obtain ⟨name, r⟩ := e
      cases phase with
      | entering =>
        have hfresh : Fresh w i rest := fun e he => hcheck.2 e (List.mem_cons_of_mem _ he)
        dsimp only
        split
        · exact h.setPhase rfl rfl (h.leave hp hfresh (Answered.timeout w i r))
        · exact h.create hp
      | created t => exact h.start hp
      | joining t =>
        obtain ⟨-, e, rest', hrest, ⟨state, hthread, hstarted⟩, hfresh⟩ := hcheck
        cases hrest
        dsimp only
        rw [hthread.stateOf]
        cases state with
        | created => exact absurd rfl hstarted
        | ended outcome => exact h.setPhase rfl rfl (h.leave hp hfresh (Answered.of_ended hthread))
        | alive =>
          dsimp only
          split
          · exact h.setPhase rfl rfl (h.leave hp hfresh (Answered.timeout w i r))
          · exact h

theorem Inv.step (h : Inv checker w) (a : ReadinessAction ι) : Inv checker (checker.step w a) := by
  cases a with
  | advance i expired => exact h.advance i expired
  | finish r t outcome => exact h.finish r t outcome

theorem Inv.run (actions : List (ReadinessAction ι)) : ∀ {w : ReadinessWorld ι}, Inv checker w →
    Inv checker (Runs.run checker.step w actions) := by
  induction actions with
  | nil => intro w h; exact h
  | cons a actions ih => intro w h; exact ih (h.step a)

/-! ### How many threads there are -/

/-- Threads become more only by a check that enters, and one more is open only if it overtakes another check. -/
theorem Inv.bounded_step (h : Inv checker w) {r n : Nat} (hb : (w.runner r).Bounded n) (a : ReadinessAction ι) :
    ((checker.step w a).runner r).Bounded (n + (if overtakes r w a then 1 else 0)) := by
  have hmono : ∀ {runner : ProbeRunner ι} {n m : Nat}, runner.Bounded n → n ≤ m → runner.Bounded m := by
    intro runner n m hb hle
    unfold ProbeRunner.Bounded at hb ⊢
    omega
  cases a with
  | finish r' t outcome =>
    apply hmono _ (Nat.le_add_right _ _)
    simp only [ReadinessChecker.step, update_runner]
    split
    · rename_i hr
      subst hr
      exact hb.finish t outcome
    · exact hb
  | advance i expired =>
    have hcheck := h.checks i
    simp only [ReadinessChecker.step]
    unfold ReadinessChecker.advance
    cases hp : w.phase i with
    | logging report event => exact hmono hb (Nat.le_add_right _ _)
    | returned report => exact hmono hb (Nat.le_add_right _ _)
    | probing checks rest phase =>
      rw [hp] at hcheck
      cases rest with
      | nil => exact hmono hb (Nat.le_add_right _ _)
      | cons e rest =>
        obtain ⟨name, r'⟩ := e
        cases phase with
        | entering =>
          dsimp only
          by_cases hfree : (w.runner r').inFlight = true
          · rw [if_pos hfree]
            exact hmono hb (Nat.le_add_right _ _)
          · rw [if_neg hfree]
            simp only [update_runner]
            by_cases hr : r = r'
            · subst hr
              simpa [overtakes, hp] using hb.create i (eq_false_of_ne_true hfree)
            · rw [if_neg hr]
              exact hmono hb (Nat.le_add_right _ _)
        | created t =>
          obtain ⟨-, e, rest', hrest, hcreated, -⟩ := hcheck
          cases hrest
          apply hmono _ (Nat.le_add_right _ _)
          simp only [update_runner]
          split
          · rename_i hr
            subst hr
            exact hb.start hcreated.stateOf
          · exact hb
        | joining t =>
          apply hmono _ (Nat.le_add_right _ _)
          dsimp only
          split
          · exact hb
          · split
            · exact hb
            · exact hb

theorem Inv.bounded_run {r : Nat} (actions : List (ReadinessAction ι)) : ∀ {w : ReadinessWorld ι} {n : Nat},
    Inv checker w → (w.runner r).Bounded n →
    ((Runs.run checker.step w actions).runner r).Bounded (n + checker.overtakings r w actions) := by
  induction actions with
  | nil => intro w n _ hb; exact hb
  | cons a actions ih =>
    intro w n h hb
    have := ih (h.step a) (h.bounded_step hb a)
    rw [Runs.run_cons, overtakings, ← Nat.add_assoc]
    exact this

/-! ### Who is overtaken -/

/-- The check has created the thread `t` of the probe and is about to start it. -/
def AboutToStart (w : ReadinessWorld ι) (j : ι) (r t : Nat) : Prop :=
  ∃ checks name rest, w.phase j = .probing checks ((name, r) :: rest) (.created t)

def Pending (w : ReadinessWorld ι) : Prop := ∀ r t j, (w.runner r).Has t j .created → AboutToStart w j r t

omit [DecidableEq ι] in
theorem ProbeRunner.Has.of_setState {runner : ProbeRunner ι} {t t' : Nat} {j : ι} {state : ThreadState}
    (hstate : state ≠ .created) (h : (runner.setState t state).Has t' j .created) :
    runner.Has t' j .created ∧ t ≠ t' := by
  unfold ProbeRunner.Has at h
  rw [ProbeRunner.threads_setState] at h
  by_cases ht : t = t'
  · rw [if_pos ht] at h
    obtain ⟨thread, -, hthread⟩ := Option.map_eq_some_iff.mp h
    cases hthread
    exact absurd rfl hstate
  · rw [if_neg ht] at h
    exact ⟨h, ht⟩

theorem Pending.setPhase (h : Pending w) {phase : CheckPhase} (hrunner : w'.runner = w.runner)
    (hphase : w'.phase = Function.update w.phase i phase) (hi : ∀ r t, ¬ AboutToStart w i r t) : Pending w' := by
  intro r t j hj
  rw [hrunner] at hj
  have hold := h r t j hj
  have hne : j ≠ i := by
    intro he
    subst he
    exact hi r t hold
  unfold AboutToStart at hold ⊢
  rw [hphase, Function.update_of_ne hne]
  exact hold

theorem Pending.step (h : Pending w) (a : ReadinessAction ι) : Pending (checker.step w a) := by
  cases a with
  | finish r t outcome =>
    intro r' t' j hj
    apply h r' t' j
    simp only [ReadinessChecker.step, update_runner] at hj
    split at hj
    · rename_i hr
      subst hr
      unfold ProbeRunner.finish at hj
      split at hj
      · exact (ProbeRunner.Has.of_setState (by simp) hj).1
      · exact hj
    · exact hj
  | advance i expired =>
    simp only [ReadinessChecker.step]
    unfold ReadinessChecker.advance
    cases hp : w.phase i with
    | logging report event => exact h.setPhase rfl rfl (by simp [AboutToStart, hp])
    | returned report => exact h
    | probing checks rest phase =>
      cases rest with
      | nil => exact h.setPhase rfl rfl (by simp [AboutToStart, hp])
      | cons e rest =>
        obtain ⟨name, r⟩ := e
        cases phase with
        | entering =>
          have hi : ∀ r t, ¬ AboutToStart w i r t := by simp [AboutToStart, hp]
          dsimp only
          split
          · exact h.setPhase rfl rfl hi
          · intro r' t j hj
            by_cases hji : j = i
            · subst hji
              simp only [update_runner] at hj
              by_cases hr : r' = r
              · subst hr
                rw [if_pos rfl] at hj
                by_cases ht : t < (w.runner r').threads.length
                · unfold ProbeRunner.Has ProbeRunner.create at hj
                  dsimp only at hj
                  rw [List.getElem?_append_left ht] at hj
                  exact absurd (h r' t j hj) (hi r' t)
                · have hlt := (List.getElem?_eq_some_iff.mp hj).1
                  simp only [ProbeRunner.create, List.length_append, List.length_singleton] at hlt
                  have ht : t = (w.runner r').threads.length := by omega
                  subst ht
                  exact ⟨checks, name, rest, by simp⟩
              · rw [if_neg hr] at hj
                exact absurd (h r' t j hj) (hi r' t)
            · have hold : (w.runner r').Has t j .created := by
                simp only [update_runner] at hj
                by_cases hr : r' = r
                · subst hr
                  rw [if_pos rfl] at hj
                  unfold ProbeRunner.Has ProbeRunner.create at hj
                  dsimp only at hj
                  by_cases ht : t < (w.runner r').threads.length
                  · rwa [List.getElem?_append_left ht] at hj
                  · rw [List.getElem?_append_right (Nat.le_of_not_lt ht)] at hj
                    have hmem := List.mem_of_getElem? hj
                    simp only [List.mem_singleton, ProbeThread.mk.injEq] at hmem
                    exact absurd hmem.1 hji
                · rwa [if_neg hr] at hj
              obtain ⟨checks', name', rest', hphase⟩ := h r' t j hold
              exact ⟨checks', name', rest', by simpa [Function.update_of_ne hji] using hphase⟩
        | created t =>
          intro r' t' j hj
          have hold : (w.runner r').Has t' j .created ∧ (r' = r → t ≠ t') := by
            simp only [update_runner] at hj
            split at hj
            · rename_i hr
              subst hr
              obtain ⟨hold, ht⟩ := ProbeRunner.Has.of_setState (by simp) hj
              exact ⟨hold, fun _ => ht⟩
            · rename_i hr
              exact ⟨hj, fun he => absurd he hr⟩
          obtain ⟨checks', name', rest', hphase⟩ := h r' t' j hold.1
          have hji : j ≠ i := by
            intro he
            subst he
            rw [hp] at hphase
            cases hphase
            exact hold.2 rfl rfl
          exact ⟨checks', name', rest', by simpa [Function.update_of_ne hji] using hphase⟩
        | joining t =>
          have hi : ∀ r t, ¬ AboutToStart w i r t := by simp [AboutToStart, hp]
          dsimp only
          split
          · exact h.setPhase rfl rfl hi
          · split
            · exact h.setPhase rfl rfl hi
            · exact h

variable (checker) in
theorem Pending.run (actions : List (ReadinessAction ι)) : ∀ {w : ReadinessWorld ι}, Pending w →
    Pending (Runs.run checker.step w actions) := by
  induction actions with
  | nil => intro w h; exact h
  | cons a actions ih => intro w h; exact ih (h.step a)

omit [DecidableEq ι] in
theorem Pending.overtaken (h : Pending w) {r : Nat} {a : ReadinessAction ι} (ho : overtakes r w a = true) :
    ∃ j t, AboutToStart w j r t := by
  have hcurrent : (w.runner r).overtaken = true := by
    unfold overtakes at ho
    split at ho
    · split at ho
      · exact (Bool.and_eq_true_iff.mp ho).2
      · cases ho
    · cases ho
  have hcreated : (w.runner r).currentState? = some .created := by
    simpa [ProbeRunner.overtaken] using hcurrent
  obtain ⟨t, -, hstate⟩ := Option.bind_eq_some_iff.mp hcreated
  obtain ⟨thread, hthread, hcreated⟩ := Option.map_eq_some_iff.mp hstate
  refine ⟨thread.owner, t, h r t thread.owner ?_⟩
  unfold ProbeRunner.Has
  rw [hthread, ← hcreated]

/-- However checks interleave, all but one of the open threads of a probe come from checks that entered while another
check had created its thread and not started it, and each check has at most one thread of each probe. -/
theorem probe_threads_bounded (checker : ReadinessChecker) (actions : List (ReadinessAction ι)) (r : Nat) :
    let w := checker.run actions
    (w.runner r).openThreads ≤ checker.overtakings r checker.initial actions + 1 ∧ (w.runner r).owners.Nodup ∧
    ∀ (before : List (ReadinessAction ι)) (a : ReadinessAction ι), overtakes r (checker.run before) a = true →
      ∃ j t, AboutToStart (checker.run before) j r t := by
  intro w
  refine ⟨?_, (Inv.initial.run actions).once r, ?_⟩
  · have hinitial : ((checker.initial (ι := ι)).runner r).Bounded 0 := by
      simp [ProbeRunner.Bounded, ReadinessChecker.initial, ProbeRunner.openThreads]
    have hbounded := Inv.initial.bounded_run actions hinitial
    unfold ProbeRunner.Bounded at hbounded
    have hone : ((if (w.runner r).currentState?.any ThreadState.isOpen then 1 else 0) : Nat) ≤ 1 := by
      split <;> omega
    have hw : Runs.run checker.step checker.initial actions = w := rfl
    rw [hw] at hbounded
    omega
  · intro before a ho
    have hpending : Pending (checker.initial (ι := ι)) := by
      intro r t j hj
      simp [ReadinessChecker.initial, ProbeRunner.Has] at hj
    exact (hpending.run checker before).overtaken ho

/-! ### The log -/

/-- Failures and recoveries take turns; `down` says that the next one is a recovery. -/
def Alternates : Bool → List ReadinessLog → Prop
  | _, [] => True
  | down, .failed _ _ :: log => down = false ∧ Alternates true log
  | down, .recovered _ :: log => down = true ∧ Alternates false log

def downAfter : Bool → List ReadinessLog → Bool
  | down, [] => down
  | _, .failed _ _ :: log => downAfter true log
  | _, .recovered _ :: log => downAfter false log

omit [DecidableEq ι] in
theorem alternates_append (log log' : List ReadinessLog) : ∀ down,
    Alternates down (log ++ log') ↔ Alternates down log ∧ Alternates (downAfter down log) log' := by
  induction log with
  | nil => intro down; simp [Alternates, downAfter]
  | cons event log ih =>
    intro down
    cases event <;> simp [Alternates, downAfter, ih, and_assoc]

omit [DecidableEq ι] in
theorem downAfter_append (log log' : List ReadinessLog) : ∀ down,
    downAfter down (log ++ log') = downAfter (downAfter down log) log' := by
  induction log with
  | nil => intro down; rfl
  | cons event log ih =>
    intro down
    cases event <;> simp [downAfter, ih]

/-- The event says what the report says. -/
def Tells (report : ReadinessReport) : ReadinessLog → Prop
  | .recovered role => report.ready = true ∧ role = report.role
  | .failed role names => report.ready = false ∧ role = report.role ∧
      names = StableSort.sortedBy id ((report.checks.filter fun check => check.2 ≠ .ok).map Prod.fst)

theorem transition_spec (previous : Option Bool) (report : ReadinessReport) :
    (∀ event, transition previous report = some event → Tells report event) ∧
    Alternates (previous = some false) (transition previous report).toList ∧
    downAfter (previous = some false) (transition previous report).toList = !report.ready := by
  unfold transition
  by_cases hready : report.ready = true
  · by_cases hprevious : previous = some false
    · simp [hready, hprevious, Tells, Alternates, downAfter]
    · simp [hready, hprevious, Alternates, downAfter]
  · by_cases hprevious : previous = some false
    · simp [hready, hprevious, Alternates, downAfter]
    · simp [hready, hprevious, Tells, Alternates, downAfter]

def LogPhase (w : ReadinessWorld ι) (i : ι) : CheckPhase → Prop
  | .probing _ _ _ => ∀ event, (i, event) ∉ w.decided ∧ (i, event) ∉ w.logged
  | .logging report event? => ∀ event, ((i, event) ∈ w.decided ↔ event? = some event) ∧ (i, event) ∉ w.logged ∧
      (event? = some event → Tells report event)
  | .returned report => ∀ event, ((i, event) ∈ w.decided ↔ (i, event) ∈ w.logged) ∧
      ((i, event) ∈ w.decided → Tells report event)

structure LogInv (w : ReadinessWorld ι) : Prop where
  alternates : Alternates false (w.decided.map Prod.snd)
  down : downAfter false (w.decided.map Prod.snd) = decide (w.lastReady = some false)
  phase : ∀ i, LogPhase w i (w.phase i)
  once : (w.logged.map Prod.fst).Nodup

omit [DecidableEq ι] in
theorem LogPhase.of_same {w w' : ReadinessWorld ι} {j : ι}
    (hdecided : ∀ event, (j, event) ∈ w'.decided ↔ (j, event) ∈ w.decided)
    (hlogged : ∀ event, (j, event) ∈ w'.logged ↔ (j, event) ∈ w.logged) {phase : CheckPhase} (h : LogPhase w j phase) :
    LogPhase w' j phase := by
  cases phase <;> simpa [LogPhase, hdecided, hlogged] using h

theorem LogInv.setPhase (h : LogInv w) {phase : CheckPhase} (hdecided : w'.decided = w.decided)
    (hlogged : w'.logged = w.logged) (hlast : w'.lastReady = w.lastReady)
    (hphase : w'.phase = Function.update w.phase i phase) (hi : LogPhase w i phase) : LogInv w' := by
  refine ⟨by rw [hdecided]; exact h.alternates, by rw [hdecided, hlast]; exact h.down, ?_,
    by rw [hlogged]; exact h.once⟩
  intro j
  apply LogPhase.of_same (w := w)
  · intro event
    rw [hdecided]
  · intro event
    rw [hlogged]
  · by_cases hj : j = i
    · subst hj
      rw [hphase, Function.update_self]
      exact hi
    · rw [hphase, Function.update_of_ne hj]
      exact h.phase j

/-- A check sees a transition, or none. -/
theorem LogInv.decides (h : LogInv w) {checks : List (String × ProbeStatus)} {phase : ProbePhase}
    (hp : w.phase i = .probing checks [] phase) (report : ReadinessReport) :
    LogInv { w with
      lastReady := some report.ready
      phase := Function.update w.phase i (.logging report (transition w.lastReady report))
      decided := w.decided ++ (transition w.lastReady report).toList.map (i, ·) } := by
  obtain ⟨htells, halternates, hdown⟩ := transition_spec w.lastReady report
  have hnew : ((transition w.lastReady report).toList.map (i, ·)).map Prod.snd = (transition w.lastReady report).toList := by
    simp [List.map_map, Function.comp_def]
  have hi := h.phase i
  rw [hp] at hi
  refine ⟨?_, ?_, ?_, h.once⟩
  · rw [List.map_append, hnew, alternates_append, h.down]
    exact ⟨h.alternates, halternates⟩
  · rw [List.map_append, hnew, downAfter_append, h.down, hdown]
    cases report.ready <;> simp
  · intro j
    by_cases hj : j = i
    · subst hj
      simp only [Function.update_self]
      intro event
      refine ⟨?_, (hi event).2, htells event⟩
      simp [(hi event).1]
    · simp only [Function.update_of_ne hj]
      apply LogPhase.of_same (w := w) _ _ (h.phase j)
      · intro event
        simp [Ne.symm hj]
      · intro event
        rfl

theorem LogInv.logs (h : LogInv w) {report : ReadinessReport} {event? : Option ReadinessLog}
    (hp : w.phase i = .logging report event?) :
    LogInv { w with
      phase := Function.update w.phase i (.returned report)
      logged := w.logged ++ event?.toList.map (i, ·) } := by
  have hi := h.phase i
  rw [hp] at hi
  refine ⟨h.alternates, h.down, ?_, ?_⟩
  · intro j
    by_cases hj : j = i
    · subst hj
      simp only [Function.update_self]
      intro event
      obtain ⟨hdecided, hlogged, htells⟩ := hi event
      refine ⟨?_, fun hd => htells (hdecided.mp hd)⟩
      simp [hdecided, hlogged]
    · simp only [Function.update_of_ne hj]
      apply LogPhase.of_same (w := w) _ _ (h.phase j)
      · intro event
        rfl
      · intro event
        simp [Ne.symm hj]
  · have hnew : i ∉ w.logged.map Prod.fst := by
      intro hmem
      obtain ⟨⟨j, event⟩, hm, rfl⟩ := List.mem_map.mp hmem
      exact (hi event).2.1 hm
    cases event? with
    | none => simpa using h.once
    | some event =>
      simp only [Option.toList_some, List.map_cons, List.map_nil, List.map_append]
      exact List.nodup_append.mpr ⟨h.once, by simp, by
        intro a ha b hb hab
        simp only [List.mem_singleton] at hb
        subst hb
        subst hab
        exact hnew ha⟩

theorem LogInv.step (h : LogInv w) (a : ReadinessAction ι) : LogInv (checker.step w a) := by
  cases a with
  | finish r t outcome =>
    refine ⟨h.alternates, h.down, ?_, h.once⟩
    intro i
    exact LogPhase.of_same (fun _ => Iff.rfl) (fun _ => Iff.rfl) (h.phase i)
  | advance i expired =>
    have hi := h.phase i
    simp only [ReadinessChecker.step]
    unfold ReadinessChecker.advance
    cases hp : w.phase i with
    | logging report event => exact h.logs hp
    | returned report => exact h
    | probing checks rest phase =>
      rw [hp] at hi
      cases rest with
      | nil => exact h.decides hp (checker.report checks)
      | cons e rest =>
        obtain ⟨name, r⟩ := e
        cases phase with
        | entering =>
          dsimp only
          split
          · exact h.setPhase rfl rfl rfl rfl hi
          · exact h.setPhase rfl rfl rfl rfl hi
        | created t => exact h.setPhase rfl rfl rfl rfl hi
        | joining t =>
          dsimp only
          split
          · exact h.setPhase rfl rfl rfl rfl hi
          · split
            · exact h.setPhase rfl rfl rfl rfl hi
            · exact h

variable (checker) in
theorem LogInv.run (actions : List (ReadinessAction ι)) : ∀ {w : ReadinessWorld ι}, LogInv w →
    LogInv (Runs.run checker.step w actions) := by
  induction actions with
  | nil => intro w h; exact h
  | cons a actions ih => intro w h; exact ih (h.step a)

omit [DecidableEq ι] in
variable (checker) in
theorem LogInv.initial : LogInv (checker.initial (ι := ι)) := by
  refine ⟨trivial, rfl, ?_, by simp [ReadinessChecker.initial]⟩
  intro i event
  simp [ReadinessChecker.initial]

omit [DecidableEq ι] in
theorem Probed.ready_iff {checks : List (String × ProbeStatus)} (h : Probed checker w i checks []) :
    (checker.report checks).ready = true ↔ ∀ e ∈ checker.runners, Dict.get? checks e.1 = some .ok := by
  obtain ⟨done, hdone, hkeys⟩ := h.split
  rw [List.append_nil] at hdone
  subst hdone
  simp only [report, Dict.values, List.all_map, List.all_eq_true, Function.comp_apply, decide_eq_true_eq]
  constructor
  · intro hall e he
    have hkey := hkeys e he
    cases hg : Dict.get? checks e.1 with
    | none => exact absurd hkey (Dict.get?_eq_none_iff.mp hg)
    | some status =>
      have := hall _ (Dict.mem_of_get? hg)
      simp only at this
      rw [this]
  · intro hall e he
    obtain ⟨r, hr, -⟩ := h.answered e he
    have hg := Dict.get?_of_mem h.keys he
    rw [hall _ hr] at hg
    exact (Option.some.inj hg).symm

/-- A check that has returned is ready exactly if each probe of the role answered `ok`, and then its own call into each
dependency has returned. Transitions alternate, and what a check has seen is logged once, when it returns at the latest. -/
theorem readiness_reports (checker : ReadinessChecker) (actions : List (ReadinessAction ι)) :
    let w := checker.run actions
    (∀ i report, w.phase i = .returned report →
      (report.ready = true ↔ ∀ e ∈ checker.runners, Dict.get? report.checks e.1 = some .ok) ∧
      (∀ e ∈ report.checks, ∃ r, (e.1, r) ∈ checker.runners ∧ Answered w i r e.2) ∧
      ∀ event, ((i, event) ∈ w.decided ↔ (i, event) ∈ w.logged) ∧ ((i, event) ∈ w.decided → Tells report event)) ∧
    Alternates false (w.decided.map Prod.snd) ∧ (w.logged.map Prod.fst).Nodup := by
  intro w
  have hinv : Inv checker w := Inv.initial.run actions
  have hlog : LogInv w := (LogInv.initial checker).run checker actions
  refine ⟨?_, hlog.alternates, hlog.once⟩
  intro i report hi
  have hcheck := hinv.checks i
  have hphase := hlog.phase i
  rw [hi] at hcheck hphase
  obtain ⟨checks, rfl, hprobed⟩ := hcheck
  exact ⟨hprobed.ready_iff, hprobed.answered, hphase⟩

end

end ReadinessChecker

end ClearFeature
