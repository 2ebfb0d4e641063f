import ClearFeature.Expiry
import ClearFeature.Rerun

/-!
# The deadline of a compute event (`api/online_worker.py`)

The handler compares the deadline with the clock once, before it computes. The
features are written one by one after that, each at a time of its own.
-/

namespace ClearFeature

open Prog (Service exec)

/-! ## A worker in time -/

/-- The moments passed so far, the online store, and the results it took with their times. -/
structure TimedStores where
  tick : Nat := 0
  online : OnlineStore := []
  written : List (FeatureResult × Int) := []

/-- Each call takes place at a moment of its own, and so does each write of the loop; any may raise. The view, the
entity key and the plan of the event make the `call` of `compute_write_set`, or raise. -/
structure TimedBackend where
  clock : Nat → Int
  clock_mono : ∀ m n, m ≤ n → clock m ≤ clock n
  store : FeatureStore
  call : Except PyErr ComputeCall
  loader : String → Except PyErr Value
  fault : Nat → Option PyErr

namespace TimedBackend

variable (b : TimedBackend)

def computed : Except PyErr FeatureWriteSet := do
  b.store.computeWriteSet (← b.call) (some b.loader)

/-- `write_many`, write by write. -/
def writeMany (view : String) (viewVersion : Int) :
    List FeatureResult → TimedStores → OnlineWritten → TimedStores × Except PyErr OnlineWritten
  | [], s, outcomes => (s, .ok outcomes)
  | r :: rs, s, outcomes =>
    match b.fault s.tick with
    | some e => ({ s with tick := s.tick + 1 }, .error e)
    | none =>
      let (outcome, online) := s.online.write view viewVersion r
      let written := if outcome.stored then s.written ++ [(r, b.clock s.tick)] else s.written
      writeMany view viewVersion rs { tick := s.tick + 1, online, written } (Dict.set outcomes r.ref.encode outcome)

section
variable {R : Type}

def act (s : TimedStores) : RunnerCall (OnlineRecord Unit R) R (OnlineOwn Unit R) → TimedStores
  | .own (.writeOnline writeSet) => (b.writeMany writeSet.view writeSet.viewVersion (Dict.values writeSet.results) s []).1
  | _ => { s with tick := s.tick + 1 }

def guarded (s : TimedStores) : Except PyErr Unit :=
  match b.fault s.tick with
  | none => .ok ()
  | some e => .error e

def answer (s : TimedStores) :
    (c : RunnerCall (OnlineRecord Unit R) R (OnlineOwn Unit R)) → RunnerCall.Ans OnlineOwn.Ans c
  | .poll => none
  | .now => b.clock s.tick
  | .commit _ | .publish _ _ _ _ | .statusPut _ _ => b.guarded s
  | .statusRead _ _ => .ok none
  | .own (.compute _) => b.computed
  | .own (.writeOnline writeSet) =>
    (b.writeMany writeSet.view writeSet.viewVersion (Dict.values writeSet.results) s []).2
  | .own (.putResult _) => b.guarded s

def service : Service (RunnerCall (OnlineRecord Unit R) R (OnlineOwn Unit R)) (RunnerCall.Ans OnlineOwn.Ans) TimedStores :=
  ⟨b.act, b.answer⟩

end

/-! ## What is written, and when -/

/-- The results the store takes, from the given moment on and up to the first write that raises. -/
def taken (view : String) (viewVersion : Int) : List FeatureResult → OnlineStore → Nat → List (FeatureResult × Int)
  | [], _, _ => []
  | r :: rs, online, tick =>
    match b.fault tick with
    | some _ => []
    | none =>
      let (outcome, online) := online.write view viewVersion r
      if outcome.stored then (r, b.clock tick) :: taken view viewVersion rs online (tick + 1)
      else taken view viewVersion rs online (tick + 1)

def takenFrom (writeSet : FeatureWriteSet) (online : OnlineStore) (tick : Nat) : List (FeatureResult × Int) :=
  b.taken writeSet.view writeSet.viewVersion (Dict.values writeSet.results) online tick

variable {b}

theorem writeMany_written {view : String} {vv : Int} : ∀ (rs : List FeatureResult) (s : TimedStores)
    (outcomes : OnlineWritten), (b.writeMany view vv rs s outcomes).1.written = s.written ++ b.taken view vv rs s.online s.tick
  | [], s, outcomes => (List.append_nil _).symm
  | r :: rs, s, outcomes => by
    unfold writeMany taken
    cases b.fault s.tick with
    | some e => exact (List.append_nil _).symm
    | none =>
      dsimp only
      rw [writeMany_written rs]
      by_cases hstored : (s.online.write view vv r).1.stored = true
      · rw [if_pos hstored, if_pos hstored, List.append_assoc]
        rfl
      · rw [if_neg hstored, if_neg hstored]

theorem mem_taken_cons {view : String} {vv : Int} {r : FeatureResult} {rs : List FeatureResult} {online : OnlineStore}
    {tick : Nat} {w : FeatureResult × Int} : w ∈ b.taken view vv (r :: rs) online tick ↔ b.fault tick = none ∧
      ((decideOver (Dict.get? online (r.slot view vv)) r).stored = true ∧ w = (r, b.clock tick) ∨
        w ∈ b.taken view vv rs (online.write view vv r).2 (tick + 1)) := by
  have hdecided : (online.write view vv r).1 = decideOver (Dict.get? online (r.slot view vv)) r := rfl
  rw [taken]
  cases b.fault tick with
  | some e => simp
  | none =>
    dsimp only
    rw [hdecided]
    by_cases hstored : (decideOver (Dict.get? online (r.slot view vv)) r).stored = true
    · rw [if_pos hstored, List.mem_cons]
      simp [hstored]
    · rw [if_neg hstored]
      simp [hstored]

/-- With one result a slot, the store takes what the guard lets through against the entry it held before. -/
theorem mem_taken {view : String} {vv : Int} {w : FeatureResult × Int} : ∀ {rs : List FeatureResult} {online : OnlineStore}
    {tick : Nat}, (rs.map (FeatureResult.slot view vv)).Nodup → (w ∈ b.taken view vv rs online tick ↔
      ∃ i, rs[i]? = some w.1 ∧ (∀ j ≤ i, b.fault (tick + j) = none) ∧
        (decideOver (Dict.get? online (w.1.slot view vv)) w.1).stored = true ∧ w.2 = b.clock (tick + i))
  | [], online, tick, _ => by simp [taken]
  | r :: rs, online, tick, hn => by
    obtain ⟨hr, hrest⟩ := List.nodup_cons.mp hn
    have hsame : ∀ r' ∈ rs, Dict.get? (online.write view vv r).2 (r'.slot view vv) = Dict.get? online (r'.slot view vv) := by
      intro r' hm
      rw [OnlineStore.get?_write, if_neg]
      intro h
      exact hr (List.mem_map.mpr ⟨r', hm, h.1.symm⟩)
    have hshift : ∀ n, tick + 1 + n = tick + (n + 1) := fun n => by omega
    rw [mem_taken_cons, mem_taken hrest]
    constructor
    · rintro ⟨hf, ⟨hstored, rfl⟩ | ⟨i, hi, hnone, hstored, ht⟩⟩
      · refine ⟨0, rfl, fun j hj => ?_, hstored, rfl⟩
        rw [Nat.le_zero.mp hj]
        exact hf
      · rw [hsame _ (List.mem_of_getElem? hi)] at hstored
        rw [hshift] at ht
        refine ⟨i + 1, hi, fun j hj => ?_, hstored, ht⟩
        cases j with
        | zero => exact hf
        | succ j =>
          rw [← hshift]
          exact hnone j (Nat.le_of_succ_le_succ hj)
    · rintro ⟨i, hi, hnone, hstored, ht⟩
      refine ⟨hnone 0 (Nat.zero_le i), ?_⟩
      cases i with
      | zero =>
        cases hi
        exact .inl ⟨hstored, Prod.ext rfl ht⟩
      | succ i =>
        rw [← hsame _ (List.mem_of_getElem? hi)] at hstored
        rw [← hshift] at ht
        refine .inr ⟨i, hi, fun j hj => ?_, hstored, ht⟩
        rw [hshift]
        exact hnone (j + 1) (Nat.succ_le_succ hj)

theorem computed_slots {writeSet : FeatureWriteSet} (h : b.computed = .ok writeSet) :
    ((Dict.values writeSet.results).map (FeatureResult.slot writeSet.view writeSet.viewVersion)).Nodup := by
  obtain ⟨call, -, hcomputed⟩ := bind_eq_ok.mp h
  obtain ⟨hslots, -⟩ := results_slots hcomputed
  obtain ⟨p, -, hw⟩ := bind_eq_ok.mp hcomputed
  cases hw
  exact hslots

section
variable {R : Type} {event : ExpiringEvent R} {online : OnlineStore} {x : Int}

theorem service_publish (s : TimedStores) (topic key : String) (record : OnlineRecord Unit R) (headers : Headers) :
    b.service.answer s (.publish topic key record headers) = b.guarded s := rfl

theorem service_compute (s : TimedStores) : (@service b R).answer s (.own (.compute ())) = b.computed := rfl

theorem handleExpired_written (key : String) (s : TimedStores) :
    (exec b.service s (Online.handleExpired event.events () key)).1.written = s.written := by
  unfold Online.handleExpired
  rw [Prog.exec_ask_bind, service_publish]
  cases b.guarded s <;> rfl

theorem handleComputed_written (writeSet : FeatureWriteSet) (s : TimedStores) :
    (exec b.service s (Online.handleComputed event.events () writeSet)).1.written =
      s.written ++ b.takenFrom writeSet s.online s.tick := by
  let rest := b.writeMany writeSet.view writeSet.viewVersion (Dict.values writeSet.results) s []
  have hrest : rest.1.written = s.written ++ b.takenFrom writeSet s.online s.tick := writeMany_written _ _ _
  have hact : (@service b R).act s (.own (.writeOnline writeSet)) = rest.1 := rfl
  have hanswer : (@service b R).answer s (.own (.writeOnline writeSet)) = rest.2 := rfl
  unfold Online.handleComputed
  rw [Prog.exec_ask_bind, ← hrest, hact, hanswer]
  cases rest.2 with
  | error e => rfl
  | ok onlineWritten =>
    dsimp only
    rw [Prog.exec_ask_bind, service_publish]
    cases b.guarded rest.1 with
    | error e => rfl
    | ok u =>
      dsimp only
      rw [Prog.exec_ask_bind, service_publish]
      cases b.guarded _ <;> rfl

/-- Nothing is written if the event has expired when the handler looks, and the third moment is that of the first write. -/
theorem handle_written (hx : event.expiresAt = some x) :
    (exec b.service { online } (Online.handleFeatureComputeRequested event.events ())).1.written =
      match event.encoded, b.computed with
      | .ok _, .ok writeSet => if x ≤ b.clock 0 then [] else b.takenFrom writeSet online 2
      | _, _ => [] := by
  have hexpired : event.expired (b.clock 0) = decide (x ≤ b.clock 0) := by
    unfold ExpiringEvent.expired
    rw [hx]
    rfl
  have hclock : event.events.expired () ((@service b R).answer { online } .now) = .ok (decide (x ≤ b.clock 0)) :=
    congrArg Except.ok hexpired
  have hencoded : event.events.encoded () = event.encoded := rfl
  unfold Online.handleFeatureComputeRequested
  rw [hencoded]
  cases event.encoded with
  | error e => rfl
  | ok key =>
    dsimp only
    rw [Prog.exec_ask_bind, hclock]
    by_cases hlapsed : x ≤ b.clock 0
    · rw [decide_eq_true hlapsed]
      refine (handleExpired_written key _).trans ?_
      cases b.computed with
      | error e => rfl
      | ok writeSet => exact (if_pos hlapsed).symm
    · rw [decide_eq_false hlapsed]
      dsimp only
      rw [Prog.exec_ask_bind, service_compute]
      cases b.computed with
      | ok writeSet =>
        dsimp only
        rw [if_neg hlapsed]
        exact handleComputed_written writeSet _
      | error e =>
        dsimp only
        by_cases hd : e.isDeterministic = true
        · rw [if_pos hd]
          rfl
        · rw [if_neg hd]
          rfl

end

/-- The event is refused or found expired, or nothing is computed, or the clock shows a time before the deadline whenever
the loop gets to a result that passes the guard against the entry stored before. The third moment is that of the first
write. -/
def KeepsDeadline {R : Type} (b : TimedBackend) (event : ExpiringEvent R) (online : OnlineStore) (x : Int) : Prop :=
  (∃ e, event.encoded = .error e) ∨ x ≤ b.clock 0 ∨ ∀ writeSet, b.computed = .ok writeSet →
    ∀ i r, (Dict.values writeSet.results)[i]? = some r → (∀ j ≤ i, b.fault (2 + j) = none) →
      (decideOver (Dict.get? online (r.slot writeSet.view writeSet.viewVersion)) r).stored = true → b.clock (2 + i) < x

theorem taken_in_time {writeSet : FeatureWriteSet} (h : b.computed = .ok writeSet) {online : OnlineStore} {x : Int} :
    (∀ w ∈ b.takenFrom writeSet online 2, w.2 < x) ↔
      ∀ i r, (Dict.values writeSet.results)[i]? = some r → (∀ j ≤ i, b.fault (2 + j) = none) →
        (decideOver (Dict.get? online (r.slot writeSet.view writeSet.viewVersion)) r).stored = true →
          b.clock (2 + i) < x := by
  unfold takenFrom
  constructor
  · intro hall i r hi hnone hstored
    exact hall (r, b.clock (2 + i)) ((mem_taken (computed_slots h)).mpr ⟨i, hi, hnone, hstored, rfl⟩)
  · intro hall w hw
    obtain ⟨i, hi, hnone, hstored, ht⟩ := (mem_taken (computed_slots h)).mp hw
    rw [ht]
    exact hall i w.1 hi hnone hstored

end TimedBackend

/-! ## A slow computation -/

/-- So much time passes from each moment to the next. -/
def pacedWorker (pace : Nat) : TimedBackend where
  clock n := pace * n
  clock_mono m n h := by
    show (pace * m : Int) ≤ pace * n
    exact_mod_cast Nat.mul_le_mul_left pace h
  store := lastStore
  call := .ok lastCall
  loader := lastStore.loaderOf lastCall.sourceRefs
  fault _ := none

/-- The handler writes nothing at or after the deadline exactly where it has nothing to write or the deadline has not come
when it gets to what it writes. -/
theorem deadline_kept_iff (R : Type) (event : ExpiringEvent R) (x : Int) (hx : event.expiresAt = some x) (b : TimedBackend)
    (online : OnlineStore) :
    (∀ w ∈ (exec b.service { online } (Online.handleFeatureComputeRequested event.events ())).1.written, w.2 < x) ↔
      b.KeepsDeadline event online x := by
  rw [TimedBackend.handle_written hx]
  unfold TimedBackend.KeepsDeadline
  cases event.encoded with
  | error e => simp
  | ok key =>
    cases hc : b.computed with
    | error e => simp
    | ok writeSet =>
      dsimp only
      by_cases hlapsed : x ≤ b.clock 0
      · simp [hlapsed]
      · rw [if_neg hlapsed, TimedBackend.taken_in_time hc]
        simp [hlapsed]

theorem deadline_kept_iff_paced :
    ((∀ w ∈ (exec (pacedWorker 40).service {} (Online.handleFeatureComputeRequested soonExpired.events ())).1.written,
      w.2 < 100) ↔ (pacedWorker 40).KeepsDeadline soonExpired [] 100) ∧
    ((∀ w ∈ (exec (pacedWorker 50).service {} (Online.handleFeatureComputeRequested soonExpired.events ())).1.written,
      w.2 < 100) ↔ (pacedWorker 50).KeepsDeadline soonExpired [] 100) :=
  ⟨deadline_kept_iff String soonExpired 100 rfl (pacedWorker 40) [],
    deadline_kept_iff String soonExpired 100 rfl (pacedWorker 50) []⟩

/-- The event has a hundred units left when it is looked at, and its feature is written when they are over. -/
theorem deadline_missed :
    let out := exec (pacedWorker 50).service {} (Online.handleFeatureComputeRequested soonExpired.events ())
    soonExpired.expiresAt = some 100 ∧ (pacedWorker 50).clock 0 < 100 ∧
      out.1.written.map (fun w => (w.1.ref.name, w.2)) = [("last", 100)] ∧
      out.1.online.map (fun row => row.1.featureName) = ["last"] := by
  decide +kernel

end ClearFeature
