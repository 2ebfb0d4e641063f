import ClearFeature.Lib.Runs
import ClearFeature.Outline

/-!
# Completed requests and their results

The API, the online worker and the offline writer share one status entry per
request; only the online worker stores the result. Their programs interleave
call by call, and any of them may stop anywhere or see the same message again.
-/

namespace ClearFeature

open Prog

/-! ## Which requests are settled -/

/-- What settles a request: a published record, or an answered own call. `assumed` are the updates for which a request
with a status entry counts as settled already. -/
structure Settles (Rec R Own : Type) (OwnAns : Own → Type) where
  published : Rec → R → Prop
  stored : (c : Own) → OwnAns c → R → Prop
  assumed : StatusChanges → Prop

section
variable {Rec R Own : Type} {OwnAns : Own → Type}

def Settles.record (set : Settles Rec R Own OwnAns) (settled : R → Prop) :
    (c : RunnerCall Rec R Own) → RunnerCall.Ans OwnAns c → R → Prop
  | .publish _ _ rec _, .ok () => fun r => settled r ∨ set.published rec r
  | .statusRead requestId changes, .ok (some existing) => fun r =>
    settled r ∨ r = requestId ∧ (existing.status = .completed ∨ set.assumed changes)
  | .own c, a => fun r => settled r ∨ set.stored c a r
  | _, _ => settled

/-- The status `completed` is written for settled requests only. -/
def settleMonitor (set : Settles Rec R Own OwnAns) :
    Prog.Monitor (RunnerCall Rec R Own) (RunnerCall.Ans OwnAns) (R → Prop) where
  allowed settled c := ∀ requestId status, c = .statusPut requestId status → status.status = .completed →
    settled requestId
  record := set.record

def SettledLe (settled settled' : R → Prop) : Prop := ∀ r, settled r → settled' r

variable {set : Settles Rec R Own OwnAns} {settled : R → Prop} {α : Type} {post : (R → Prop) → α → Prop}

theorem settleMonitor_grows : (settleMonitor set).Grows SettledLe where
  allowed hle h requestId status hc hs := hle _ (h requestId status hc hs)
  record {settled settled' c a} hle := by
    intro r h
    cases c with
    | publish topic key rec headers =>
      cases a with
      | error e => exact hle r h
      | ok u => exact h.imp (hle r) id
    | statusRead requestId changes =>
      cases a with
      | error e => exact hle r h
      | ok entry =>
        cases entry with
        | none => exact hle r h
        | some existing => exact h.imp (hle r) id
    | own c => exact h.imp (hle r) id
    | poll => exact hle r h
    | now => exact hle r h
    | commit m => exact hle r h
    | statusPut requestId status => exact hle r h

theorem wp_quiet {c : RunnerCall Rec R Own} {f : RunnerCall.Ans OwnAns c → RunnerProg Rec R OwnAns α}
    (hc : ∀ requestId status, c ≠ .statusPut requestId status)
    (h : ∀ a, wp (settleMonitor set) (set.record settled c a) (f a) post) :
    wp (settleMonitor set) settled (ask c >>= f) post :=
  ⟨fun requestId status e _ => absurd e (hc requestId status), h⟩

theorem settle_safeUpdate {requestId : R} {changes : StatusChanges}
    (h : changes.status = some .completed → settled requestId ∨ set.assumed changes) :
    wp (settleMonitor set) settled (Runner.safeUpdate requestId changes) fun settled' _ => SettledLe settled settled' := by
  unfold Runner.safeUpdate
  refine wp_quiet (fun _ _ e => (nomatch e)) fun a => ?_
  cases a with
  | error e => exact fun r h => h
  | ok entry =>
    cases entry with
    | none => exact fun r h => h
    | some existing =>
      refine ⟨fun id status e hs => ?_, fun _ r h => .inl h⟩
      cases e
      cases hch : changes.status with
      | none =>
        simp only [applyChanges, hch, Option.getD_none] at hs
        exact .inr ⟨rfl, .inl hs⟩
      | some st =>
        simp only [applyChanges, hch, Option.getD_some] at hs
        subst hs
        rcases h hch with h | h
        · exact .inl h
        · exact .inr ⟨rfl, .inr h⟩

theorem settle_plain {inv : (R → Prop) → Prop} {c : RunnerCall Rec R Own} (hc : c.Plain)
    (hinv : ∀ settled a, inv settled → inv (set.record settled c a)) : Keeps (settleMonitor set) inv c := by
  intro settled h
  refine ⟨fun requestId status e _ => ?_, fun a => hinv settled a h⟩
  subst e
  exact absurd hc id

end

/-! ## The online worker -/

section
variable {E R : Type} (events : ComputeEvents E R)

/-- A request whose deadline had passed when it was handled. -/
def FeatureComputeCompleted.Expired (event : FeatureComputeCompleted R) (requestId : R) : Prop :=
  event.requestId = requestId ∧ event.onlineWriteStatus = some "deadline_expired"

def onlineSettles (E R : Type) : Settles (OnlineRecord E R) R (OnlineOwn E R) OnlineOwn.Ans where
  published := fun
    | .completed event, r => event.Expired r
    | _, _ => False
  stored := fun
    | .putResult result, .ok (), r => result.requestId = r
    | _, _, _ => False
  assumed := fun _ => False

theorem settle_update {set : Settles (OnlineRecord E R) R (OnlineOwn E R) OnlineOwn.Ans} {settled : R → Prop}
    {requestId : R} {changes : StatusChanges} (h : changes.status = some .completed → settled requestId) :
    wp (settleMonitor set) settled (Runner.safeUpdate requestId changes) fun _ _ => True :=
  wp_mono (fun _ _ _ => trivial) (settle_safeUpdate fun hc => .inl (h hc))

/-- An event whose expiry is announced is settled, and so is one whose result is stored. -/
def onlineSettlesOutline : Online.Outline events (settleMonitor (onlineSettles E R)) where
  inv _ := True
  lapsed _ _ := True
  live _ _ := True
  told event settled := settled (events.requestId event)
  stored event settled := settled (events.requestId event)
  live_inv h := h
  told_inv _ := trivial
  stored_inv _ := trivial
  poll := settle_plain trivial fun _ _ h => h
  commit m := settle_plain trivial fun _ _ h => h
  dlq topic event := settle_plain trivial fun _ _ h => h
  retry key event headers := settle_plain trivial fun _ _ h => h
  running requestId error settled _ := settle_update fun h => (nomatch h)
  failed requestId error settled _ := settle_update fun h => (nomatch h)
  now event settled _ := by
    refine ⟨fun _ _ e => (nomatch e), fun t => ⟨trivial, fun _ => trivial, fun _ => trivial⟩⟩
  announceExpired key event settled _ := by
    refine ⟨fun _ _ e => (nomatch e), fun _ => trivial, ?_⟩
    exact .inr ⟨rfl, rfl⟩
  commitExpired event m := settle_plain trivial fun _ _ h => h
  expired event settled h := settle_update fun _ => h
  compute event := settle_plain trivial fun _ _ h => h
  writeOnline event writeSet := settle_plain trivial fun _ _ h => h
  offlineWrite event key writeSet := settle_plain trivial fun _ _ h => h
  announce event key names outcomes := settle_plain trivial fun _ _ h => h
  putResult event writeSet written settled _ := by
    refine ⟨fun _ _ e => (nomatch e), fun _ => trivial, ?_⟩
    exact .inr rfl
  commitOk event m := settle_plain trivial fun _ _ h => h
  completed event outcomes settled h := settle_update fun _ => h

theorem online_settles (maxAttempts : Int) (settled : R → Prop) :
    wp (settleMonitor (onlineSettles E R)) settled (Online.processNext events maxAttempts) fun _ _ => True :=
  (onlineSettlesOutline events).processNext maxAttempts trivial

end

/-! ## The offline writer -/

section
variable {O R : Type} (events : OfflineEvents O R) (registry : Registry)

/-- The offline writer stores no result: what it reports as completed must be settled already. -/
def offlineSettles (O R : Type) : Settles (OfflineRecord O) R OfflineOwn OfflineOwn.Ans where
  published := fun _ _ => False
  stored := fun _ _ _ => False
  assumed := fun changes => changes.status = some .completed

def offlineSettlesOutline (O R : Type) : Offline.Outline (settleMonitor (offlineSettles O R)) where
  inv _ := True
  call c hc := settle_plain hc fun _ _ h => h
  update requestId changes _ settled _ :=
    wp_mono (fun _ _ _ => trivial) (settle_safeUpdate fun h => .inr h)

theorem offline_settles (maxAttempts : Int) (settled : R → Prop) :
    wp (settleMonitor (offlineSettles O R)) settled (Offline.processNext events registry maxAttempts)
      fun _ _ => True :=
  (offlineSettlesOutline O R).processNext events registry maxAttempts trivial

end

end ClearFeature
