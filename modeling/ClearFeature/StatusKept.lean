import ClearFeature.Outline
import ClearFeature.Readable
import ClearFeature.StatusWriters

/-!
# The final status of a request is kept

Every write of an online worker is the second half of an update. Where the
accepted entry comes first and no mark or repair puts a stale status back, the
entry shows the final status from the update on.
-/

namespace ClearFeature

open Prog

/-! ## Updates are made in two calls -/

section
variable {Rec R Own α : Type} {OwnAns : Own → Type}

/-- What is pending is the write of an update whose entry has been read. -/
def updateMonitor : RunnerMonitor Rec R OwnAns (Option (R × RequestStatus)) where
  allowed pending c := match pending with
    | none => ∀ requestId status, c ≠ .statusPut requestId status
    | some (requestId, status) => c = .statusPut requestId status
  record _ c a := match c, a with
    | .statusRead requestId changes, .ok (some existing) => some (requestId, applyChanges existing changes)
    | _, _ => none

/-- The program writes the status in updates only. -/
def Updating (p : RunnerProg Rec R OwnAns α) : Prop := p.wp updateMonitor none fun pending _ => pending = none

theorem Updating.not_put {requestId : R} {status : RequestStatus}
    {k : RunnerCall.Ans OwnAns (.statusPut requestId status) → RunnerProg Rec R OwnAns α} :
    ¬ Updating (.call (.statusPut requestId status) k) :=
  fun h => h.1 requestId status rfl

/-- After the read of an entry the write follows. -/
theorem updating_pending {requestId : R} {status : RequestStatus} {p : RunnerProg Rec R OwnAns α}
    (h : p.wp updateMonitor (some (requestId, status)) fun pending _ => pending = none) :
    ∃ k, p = .call (.statusPut requestId status) k ∧ ∀ a, Updating (k a) := by
  cases p with
  | ret a => cases h
  | call c k =>
    obtain ⟨hc, hrec⟩ := h
    subst hc
    exact ⟨k, rfl, hrec⟩

theorem update_plain {c : RunnerCall Rec R Own} (hc : c.Plain) :
    Keeps (updateMonitor : RunnerMonitor Rec R OwnAns _) (· = none) c := by
  intro pending h
  subst h
  refine ⟨fun requestId status e => ?_, fun a => ?_⟩
  · subst e
    exact hc
  · cases c with
    | statusRead requestId changes => exact absurd hc id
    | _ => rfl

theorem update_safeUpdate (requestId : R) (changes : StatusChanges) :
    KeepsUpdate (updateMonitor : RunnerMonitor Rec R OwnAns _) (· = none) requestId changes := by
  intro pending h
  subst h
  unfold Runner.safeUpdate
  apply wp_ask (fun _ _ e => (nomatch e))
  intro a
  cases a with
  | error e => rfl
  | ok entry =>
    cases entry with
    | none => rfl
    | some existing => exact ⟨rfl, fun a => rfl⟩

end

section
variable {E R : Type} (events : ComputeEvents E R)

def updatingOutline : Online.Outline events updateMonitor where
  inv := (· = none)
  lapsed _ := (· = none)
  live _ := (· = none)
  told _ := (· = none)
  stored _ := (· = none)
  live_inv h := h
  told_inv h := h
  stored_inv h := h
  poll := update_plain trivial
  commit m := update_plain trivial
  dlq topic event := update_plain trivial
  retry key event headers := update_plain trivial
  running requestId error := update_safeUpdate _ _
  failed requestId error := update_safeUpdate _ _
  now event pending h := by
    subst h
    exact ⟨fun _ _ e => (nomatch e), fun t => ⟨rfl, fun _ => rfl, fun _ => rfl⟩⟩
  announceExpired key event := Keeps.yields (update_plain trivial)
  commitExpired event m := update_plain trivial
  expired event := update_safeUpdate _ _
  compute event := update_plain trivial
  writeOnline event writeSet := update_plain trivial
  offlineWrite event key writeSet := update_plain trivial
  announce event key names outcomes := update_plain trivial
  putResult event writeSet written := Keeps.yields (update_plain trivial)
  commitOk event m := update_plain trivial
  completed event outcomes := update_safeUpdate _ _

theorem online_updating (maxAttempts : Int) : Updating (Online.processNext events maxAttempts) :=
  (updatingOutline events).processNext maxAttempts rfl

end

/-! ## One step -/

section
variable {Rec R Own α : Type} {OwnAns : Own → Type} {programs : List (RunnerProg Rec R OwnAns α)} {i : Nat}

theorem putAt_put {requestId : R} {status : RequestStatus}
    {k : RunnerCall.Ans OwnAns (.statusPut requestId status) → RunnerProg Rec R OwnAns α}
    (hi : programs[i]? = some (.call (.statusPut requestId status) k)) :
    putAt programs i = some (requestId, status) := by
  unfold putAt
  rw [hi]
  rfl

theorem updateAt_read {requestId : R} {changes : StatusChanges}
    {k : RunnerCall.Ans OwnAns (.statusRead requestId changes) → RunnerProg Rec R OwnAns α}
    (hi : programs[i]? = some (.call (.statusRead requestId changes) k)) :
    updateAt programs i = some (requestId, changes) := by
  unfold updateAt
  rw [hi]
  rfl

theorem updateAt_plain {c : RunnerCall Rec R Own} {k : RunnerCall.Ans OwnAns c → RunnerProg Rec R OwnAns α}
    (hi : programs[i]? = some (.call c k)) (hc : c.Plain) : updateAt programs i = none := by
  unfold updateAt
  rw [hi]
  cases c with
  | statusRead requestId changes => exact absurd hc id
  | _ => rfl

theorem putAt_plain {c : RunnerCall Rec R Own} {k : RunnerCall.Ans OwnAns c → RunnerProg Rec R OwnAns α}
    (hi : programs[i]? = some (.call c k)) (hc : c.Plain) : putAt programs i = none := by
  unfold putAt
  rw [hi]
  cases c with
  | statusPut requestId status => exact absurd hc id
  | _ => rfl

theorem Updating.putAt_set {q : RunnerProg Rec R OwnAns α} (hq : Updating q) : putAt (programs.set i q) i = none := by
  unfold putAt
  by_cases hlt : i < programs.length
  · rw [List.getElem?_set_self hlt]
    cases q with
    | ret a => rfl
    | call c k =>
      cases c with
      | statusPut requestId status => exact absurd hq Updating.not_put
      | _ => rfl
  · rw [List.getElem?_eq_none (by rw [List.length_set]; exact Nat.le_of_not_lt hlt)]
    rfl

end

section
variable {Rec R Own α : Type} {OwnAns : Own → Type} [DecidableEq R] {svc : CallService Rec R Own OwnAns}
  {topic : String} {s : RequestStores R} {programs : List (RunnerProg Rec R OwnAns α)} {i : Nat} {env : CallEnv}

theorem advance_statuses (hs : svc.KeepsStatuses) (topic : String) (s : RequestStores R)
    (programs : List (RunnerProg Rec R OwnAns α)) (i : Nat) (env : CallEnv) :
    (advance svc topic s programs i env).1.statuses = s.statuses ∨
    env.reached = true ∧ ∃ put ∈ putAt programs i,
      (advance svc topic s programs i env).1.statuses = Dict.set s.statuses put.1 put.2 := by
  cases hi : programs[i]? with
  | none => exact .inl (by rw [advance_done fun c k => by simp [hi]])
  | some p =>
    cases p with
    | ret a => exact .inl (by rw [advance_done fun c k => by simp [hi]])
    | call c k =>
      rw [advance_call hi]
      rcases hs.perform_statuses s env c with h | ⟨hr, requestId, status, hc, h⟩
      · exact .inl h
      · subst hc
        refine .inr ⟨hr, (requestId, status), ?_, h⟩
        unfold putAt
        rw [hi]
        rfl

def updateStatuses (statuses : List (R × RequestStatus)) : Option (R × StatusChanges) → List (R × RequestStatus)
  | none => statuses
  | some (requestId, changes) =>
    match Dict.get? statuses requestId with
    | none => statuses
    | some existing => Dict.set statuses requestId (applyChanges existing changes)

/-- The first half of an update reads the entry; the second half, where there is one, follows. -/
theorem advanceUpdate_read {requestId : R} {changes : StatusChanges}
    {k : RunnerCall.Ans OwnAns (.statusRead requestId changes) → RunnerProg Rec R OwnAns α}
    (hi : programs[i]? = some (.call (.statusRead requestId changes) k)) :
    advanceUpdate svc topic s programs i env =
      let next := programs.set i (k (.ok (Dict.get? s.statuses requestId)))
      if (putAt next i).isSome then advance svc topic s next i (env.forStatus next i) else (s, next) := by
  have hs : s.perform svc (env.forStatus programs i) (.statusRead requestId changes) = s := by
    unfold RequestStores.perform
    split <;> rfl
  have ha : s.answer svc topic (env.forStatus programs i) (.statusRead requestId changes) =
      .ok (Dict.get? s.statuses requestId) := by
    simp only [RequestStores.answer, CallEnv.forStatus, updateAt_read hi, CallEnv.reply, Option.isSome_some,
      Bool.or_true, if_true, Bool.and_self]
  unfold advanceUpdate
  rw [advance_call hi, updateAt_read hi, hs, ha]
  dsimp only
  rw [Option.isSome_some, Bool.true_and]

theorem advanceUpdate_plain {c : RunnerCall Rec R Own} {k : RunnerCall.Ans OwnAns c → RunnerProg Rec R OwnAns α}
    (hi : programs[i]? = some (.call c k)) (hc : c.Plain) :
    advanceUpdate svc topic s programs i env =
      (s.perform svc env c, programs.set i (k (s.answer svc topic env c))) := by
  have henv : env.forStatus programs i = env := by
    unfold CallEnv.forStatus
    rw [putAt_plain hi hc, updateAt_plain hi hc]
    rfl
  unfold advanceUpdate
  rw [henv, advance_call hi, updateAt_plain hi hc]
  rfl

theorem advanceUpdate_updating (hs : svc.KeepsStatuses) (topic : String) (s : RequestStores R) (i : Nat) (env : CallEnv)
    (hp : ∀ p ∈ programs, Updating p) :
    (advanceUpdate svc topic s programs i env).1.statuses = updateStatuses s.statuses (updateAt programs i) ∧
    ∀ p ∈ (advanceUpdate svc topic s programs i env).2, Updating p := by
  cases hi : programs[i]? with
  | none =>
    have hdone : ∀ c k, programs[i]? ≠ some (.call c k) := fun c k => by simp [hi]
    unfold advanceUpdate updateAt
    rw [advance_done hdone, hi]
    exact ⟨rfl, hp⟩
  | some p =>
    have hmem := List.mem_of_getElem? hi
    obtain ⟨hlt, -⟩ := List.getElem?_eq_some_iff.mp hi
    cases p with
    | ret a =>
      have hdone : ∀ c k, programs[i]? ≠ some (.call c k) := fun c k => by simp [hi]
      unfold advanceUpdate updateAt
      rw [advance_done hdone, hi]
      exact ⟨rfl, hp⟩
    | call c k =>
      obtain ⟨hallowed, hrec⟩ := hp _ hmem
      have hset : ∀ q, Updating q → ∀ p ∈ programs.set i q, Updating p := by
        intro q hq p hm
        rcases List.mem_or_eq_of_mem_set hm with hm | rfl
        · exact hp p hm
        · exact hq
      cases c with
      | statusPut requestId status => exact absurd rfl (hallowed requestId status)
      | statusRead requestId changes =>
        have hread := hrec (.ok (Dict.get? s.statuses requestId))
        rw [advanceUpdate_read hi]
        cases he : Dict.get? s.statuses requestId with
        | none =>
          rw [he] at hread
          have hq : Updating (k (.ok none)) := hread
          dsimp only
          rw [hq.putAt_set, updateAt_read hi]
          simp only [updateStatuses, he]
          exact ⟨rfl, hset _ hq⟩
        | some existing =>
          rw [he] at hread
          obtain ⟨k', hq, hk'⟩ := updating_pending hread
          have hnext : (programs.set i (k (.ok (some existing))))[i]? =
              some (.call (.statusPut requestId (applyChanges existing changes)) k') := by
            rw [List.getElem?_set_self hlt, hq]
          dsimp only
          rw [putAt_put hnext, Option.isSome_some, if_pos rfl, advance_call hnext, updateAt_read hi]
          simp only [updateStatuses, he, List.set_set]
          refine ⟨?_, hset _ (hk' _)⟩
          unfold RequestStores.perform CallEnv.forStatus
          rw [putAt_put hnext]
          rfl
      | _ =>
        rw [advanceUpdate_plain hi trivial, updateAt_plain hi trivial]
        rcases hs.perform_statuses s env _ with h | ⟨-, requestId, status, hc, h⟩
        · exact ⟨h, hset _ (hrec _)⟩
        · cases hc

end

/-! ## Every run -/

namespace StatusSystem

section
variable {E R : Type} {O : Type} [DecidableEq R] (wire : RequestWire E O R)

/-- The entry shows what the online worker reported, where that is final. -/
structure Inv (s : StatusSystem E R) : Prop where
  kept : ∀ requestId status, Dict.get? s.reported requestId = some status → status.final →
    s.statusOf requestId = some status
  workers : ∀ p ∈ s.workers, Updating p

theorem Inv.initial : Inv ({} : StatusSystem E R) := by
  refine ⟨?_, ?_⟩
  · intro requestId status h
    cases h
  · intro p h
    cases h

theorem Inv.put {s : StatusSystem E R} (hi : Inv s) {statuses : List (R × RequestStatus)} (put : R × RequestStatus)
    (hput : statuses = Dict.set s.stores.statuses put.1 put.2)
    (hsame : ∀ status, Dict.get? s.reported put.1 = some status → status.final → put.2.status = status) :
    ∀ requestId status, Dict.get? s.reported requestId = some status → status.final →
      (Dict.get? statuses requestId).map RequestStatus.status = some status := by
  intro requestId status hrep hfin
  rw [hput, Dict.get?_set]
  split
  · rename_i heq
    subst heq
    exact congrArg some (hsame status hrep hfin)
  · exact hi.kept requestId status hrep hfin

theorem Inv.update {s : StatusSystem E R} (hi : Inv s) {update : Option (R × StatusChanges)}
    (ho : ∀ u ∈ update, u.2.status.map RequestState.final = some true → (s.statusOf u.1).isSome) :
    ∀ requestId status, Dict.get? (recordReport s.reported update) requestId = some status → status.final →
      (Dict.get? (updateStatuses s.stores.statuses update) requestId).map RequestStatus.status = some status := by
  cases update with
  | none => exact hi.kept
  | some u =>
    obtain ⟨id, changes⟩ := u
    have hfound := ho _ rfl
    unfold recordReport updateStatuses
    dsimp only at hfound ⊢
    cases hc : changes.status with
    | none =>
      cases he : Dict.get? s.stores.statuses id with
      | none => exact hi.kept
      | some existing =>
        apply hi.put (id, applyChanges existing changes) rfl
        intro status hrep hfin
        have hold := hi.kept id status hrep hfin
        unfold statusOf at hold
        rw [he] at hold
        simp only [applyChanges, hc, Option.getD_none]
        exact Option.some.inj hold
    | some new =>
      intro requestId status hrep hfin
      rw [hc] at hfound
      dsimp only at hrep
      rw [Dict.get?_set] at hrep
      split at hrep
      · rename_i heq
        subst heq
        cases hrep
        obtain ⟨old, hold⟩ := Option.isSome_iff_exists.mp (hfound (congrArg some hfin))
        obtain ⟨existing, he, -⟩ := Option.map_eq_some_iff.mp hold
        rw [he]
        dsimp only
        rw [Dict.get?_set_self, Option.map_some]
        simp only [applyChanges, hc, Option.getD_some]
      · rename_i hne
        have hold := hi.kept requestId status hrep hfin
        cases Dict.get? s.stores.statuses id with
        | none => exact hold
        | some existing =>
          dsimp only
          rw [Dict.get?_set_ne _ _ hne]
          exact hold

theorem Inv.advance {Rec Own α : Type} {OwnAns : Own → Type} {svc : CallService Rec R Own OwnAns}
    (hs : svc.KeepsStatuses) {s : StatusSystem E R} (hi : Inv s) {topic : String}
    {programs : List (RunnerProg Rec R OwnAns α)} {i : Nat} {env : CallEnv}
    (ho : ∀ put ∈ putAt programs i, ∀ status, Dict.get? s.reported put.1 = some status → status.final →
      put.2.status = status) :
    ∀ requestId status, Dict.get? s.reported requestId = some status → status.final →
      (Dict.get? (advance svc topic s.stores programs i env).1.statuses requestId).map RequestStatus.status =
        some status := by
  rcases advance_statuses hs topic s.stores programs i env with
    h | ⟨-, put, hput, h⟩
  · rw [h]
    exact hi.kept
  · exact hi.put put h (ho put hput)

theorem Inv.same {s : StatusSystem E R} (hi : Inv s) {put : R × RequestStatus}
    (hsame : s.statusOf put.1 = some put.2.status) :
    ∀ status, Dict.get? s.reported put.1 = some status → status.final → put.2.status = status := by
  intro status hrep hfin
  have hold := hi.kept put.1 status hrep hfin
  rw [hsame] at hold
  exact Option.some.inj hold

theorem Inv.step {s : StatusSystem E R} (hi : Inv s) (a : StatusAction E R) (ho : s.InOrder a) :
    Inv (s.step wire a) := by
  cases a with
  | submit event => exact ⟨hi.kept, hi.workers⟩
  | startWorker maxAttempts =>
    refine ⟨hi.kept, fun p hp => ?_⟩
    rcases List.mem_append.mp hp with hp | hp
    · exact hi.workers p hp
    · cases List.mem_singleton.mp hp
      exact online_updating wire.compute maxAttempts
  | startMark completion =>
    unfold StatusSystem.step
    dsimp only
    split
    · exact ⟨hi.kept, hi.workers⟩
    · exact hi
  | startRead requestId => exact ⟨hi.kept, hi.workers⟩
  | advanceSubmission i env =>
    refine ⟨hi.advance (onlineService_keepsStatuses wire) fun put hput status hrep hfin => ?_, hi.workers⟩
    refine absurd ?_ (ho put hput)
    rw [hrep]
    exact congrArg some hfin
  | advanceWorker i env =>
    obtain ⟨hstatuses, hworkers⟩ := advanceUpdate_updating (onlineService_keepsStatuses wire) featureComputeOnline s.stores i env
      hi.workers
    refine ⟨fun requestId status hrep hfin => ?_, hworkers⟩
    have hkept := hi.update ho requestId status hrep hfin
    rw [← hstatuses] at hkept
    exact hkept
  | advanceMark i env =>
    exact ⟨hi.advance (metadataService_keepsStatuses _) fun put hput => hi.same (ho put hput), hi.workers⟩
  | advanceRead i env durable =>
    exact ⟨hi.advance (metadataService_keepsStatuses _) fun put hput => hi.same (ho put hput), hi.workers⟩

end

end StatusSystem

/-- Where the writers keep their order, a final status that was reported stays in the entry. -/
theorem terminal_status_kept (E O R : Type) [DecidableEq R] (wire : RequestWire E O R) (actions : List (StatusAction E R))
    (ho : Runs.Steady (StatusSystem.step wire) StatusSystem.InOrder {} actions)
    (visited : List (StatusAction E R)) (hv : visited <+: actions) :
    (Runs.run (StatusSystem.step wire) {} visited).TerminalKept := by
  obtain ⟨rest, rfl⟩ := hv
  have hkeep : ∀ (s : StatusSystem E R) a, StatusSystem.Inv s → s.InOrder a → StatusSystem.Inv (s.step wire a) :=
    fun s a hi hc => hi.step wire a hc
  have hi := Runs.Steady.invariant hkeep StatusSystem.Inv.initial (Runs.Steady.append.mp ho).1
  exact fun _ => hi.kept

/-! ## Orders that lose the final status -/

def statusStep : StatusSystem Bytes String → StatusAction Bytes String → StatusSystem Bytes String :=
  StatusSystem.step oneRequest

def publishes : List (StatusAction Bytes String) := [.submit (asciiBytes computeText), .advanceSubmission 0 allAnswer]

/-- The worker up to its completion event, and from there on. -/
def announces : List (StatusAction Bytes String) := .startWorker 5 :: List.replicate 7 (.advanceWorker 0 allAnswer)

def finishes : List (StatusAction Bytes String) := List.replicate 3 (.advanceWorker 0 allAnswer)

theorem worker_outruns_api :
    let s := Runs.run statusStep {} (publishes ++ announces ++ finishes ++ [.advanceSubmission 0 allAnswer])
    s.Idle ∧ (Dict.get? s.stores.results "freq_1").isSome ∧ Dict.get? s.reported "freq_1" = some .completed ∧
      s.statusOf "freq_1" = some .accepted := by
  decide +kernel

def accepted : List (StatusAction Bytes String) := publishes ++ [.advanceSubmission 0 allAnswer]

/-- The metadata writer handles the completion event between the worker's last calls and puts `running` back. -/
example :
    let s := Runs.run statusStep {} (accepted ++ announces ++ [.startMark 0, .advanceMark 0 allAnswer] ++ finishes ++
      [.advanceMark 0 allAnswer])
    s.Idle ∧ Dict.get? s.reported "freq_1" = some .completed ∧ s.statusOf "freq_1" = some .running := by
  decide +kernel

/-- The mark and a read follow the final update. -/
def markedLast : List (StatusAction Bytes String) :=
  accepted ++ announces ++ finishes ++ [.startRead "freq_1", .advanceRead 0 allAnswer (.ok (some "completed")),
    .advanceRead 0 allAnswer (.ok (some "completed")), .advanceRead 0 allAnswer (.ok (some "completed")), .startMark 0,
    .advanceMark 0 allAnswer]

theorem marked_last_kept :
    (Runs.run statusStep {} markedLast).Idle ∧
    Dict.get? (Runs.run statusStep {} markedLast).reported "freq_1" = some .completed ∧
    Runs.Steady statusStep StatusSystem.InOrder {} markedLast ∧
    (Runs.run statusStep {} markedLast).TerminalKept := by
  have ho : Runs.Steady statusStep StatusSystem.InOrder {} markedLast := by
    decide +kernel
  exact ⟨by decide +kernel, by decide +kernel, ho,
    terminal_status_kept Bytes Bytes String oneRequest markedLast ho markedLast (List.prefix_refl _)⟩

end ClearFeature
