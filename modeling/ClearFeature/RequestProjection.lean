import ClearFeature.BatchProjection
import ClearFeature.Lib.Latest

/-!
# Request snapshots and the order of events

Each event of a request merges a partial snapshot. The status shows the last
terminal one, the two write statuses the last event that set them, and the time
of creation is fixed by the first event that arrives.
-/

namespace ClearFeature

/-! ## What an event merges -/

/-- The snapshot an event merges, if its projection gets there. -/
def MetadataEvent.snapshot (t : Readings) : MetadataEvent → Option RequestMetadata
  | .requested e =>
    match e.occurredAt with
    | .aware createdAt => some (Writer.requestedSnapshot t e createdAt)
    | .naive _ => none
  | .completed e => some (Writer.completedSnapshot t e)
  | .offlineRequested e => some (Writer.offlineSnapshot t e)
  | .dlq e =>
    match e.occurredAt with
    | .aware _ => Writer.dlqSnapshot t e
    | .naive _ => none
  | _ => none

/-- The snapshots after one merge; an unhashable request id raises before the write. -/
def merged (requests : List (Value.Key × RequestMetadata)) (metadata : RequestMetadata) (now : Int) :
    List (Value.Key × RequestMetadata) :=
  match metadata.requestId.asKey with
  | .error _ => requests
  | .ok key => Dict.set requests key (MetadataStore.upserted (Dict.get? requests key) metadata now)

def Stores.withSnapshot (s : Stores) (metadata : RequestMetadata) (now : Int) : Stores :=
  { s with requests := { s.requests with requests := merged s.requests.requests metadata now } }

def Stores.snapshots (s : Stores) : List (Value.Key × RequestMetadata) := s.requests.requests

section
variable {s : Stores}

theorem fixes_snapshots_audit (ehash : String) (eventType requestId : Value) (occurredAt : WireTime) (createdAt : Int) :
    Writing.Fixes Stores.snapshots (Writer.audit ehash eventType occurredAt createdAt requestId) := by
  refine (Writing.fixes_need _).bind fun event => Writing.fixes_write fun {s s'} h => ?_
  cases h
  exact MetadataStore.appendEvent_requests s.requests event

theorem fixes_snapshots_audited (ehash : String) (eventType requestId : Value) (occurredAt : WireTime) (createdAt : Int) :
    Writing.Fixes Stores.snapshots (do
      Writer.audit ehash eventType occurredAt createdAt requestId
      return requestId) :=
  (fixes_snapshots_audit _ _ _ _ _).bind fun _ => Writing.fixes_pure _

theorem fixes_snapshots_projectReport (t : Readings) (event : Wire.FeatureComputeRequested)
    (descriptor : Wire.ReportDescriptor) : Writing.Fixes Stores.snapshots (Writer.projectReport t event descriptor) := by
  refine (Writing.fixes_need _).bind fun row => Writing.fixes_write fun h => ?_
  obtain ⟨rawMeta, -, h⟩ := bind_eq_ok.mp h
  cases h
  rfl

theorem fixes_snapshots_onBatch (w : BatchMetadata.BatchMetadataStore.Program Unit) :
    Writing.Fixes Stores.snapshots (Writer.onBatch w) := fun s => by
  show (Writing.left (EStateM.run (Writing.within _ _ w) s)).snapshots = s.snapshots
  rw [Writing.run_within]
  rfl

theorem upsertRequest_eq (s : Stores) (metadata : RequestMetadata) (now : Int) :
    EStateM.run (Writer.upsertRequest metadata now) s =
      match metadata.requestId.asKey with
      | .error e => .error e s
      | .ok _ => .ok () (s.withSnapshot metadata now) := by
  cases hk : metadata.requestId.asKey with
  | error e =>
    refine Writing.run_write_error ?_
    unfold MetadataStore.upsertRequest
    rw [hk]
    rfl
  | ok key =>
    refine Writing.run_write_ok ?_
    unfold Stores.withSnapshot merged
    rw [MetadataStore.upsertRequest_ok now hk, hk]
    rfl

/-- A merge, and then a program that leaves the snapshots as they are. -/
theorem left_upsertRequest {w : Unit → Writer.Program Value} (hw : ∀ u, Writing.Fixes Stores.snapshots (w u)) (metadata : RequestMetadata)
    (now : Int) : (Writing.left (EStateM.run (Writer.upsertRequest metadata now >>= w) s)).snapshots = merged s.snapshots metadata now := by
  have hrun := upsertRequest_eq s metadata now
  cases hk : metadata.requestId.asKey with
  | error e =>
    rw [hk] at hrun
    rw [Writing.run_bind_of_error hrun, merged, hk]
    rfl
  | ok key =>
    rw [hk] at hrun
    rw [Writing.run_bind_of_ok hrun]
    exact hw () _

/-- An event merges its snapshot and leaves the others, however its projection ends. -/
theorem left_project (event : MetadataEvent) (ehash : String) (t : Readings) :
    (Writing.left (EStateM.run (event.project ehash t) s)).snapshots =
      match event.snapshot t with
      | none => s.snapshots
      | some metadata => merged s.snapshots metadata t.merged := by
  cases event with
  | requested e =>
    dsimp only [MetadataEvent.project, MetadataEvent.snapshot, Writer.projectRequested]
    cases e.occurredAt with
    | naive _ => rfl
    | aware createdAt =>
      rw [requireAware_aware, Writing.run_bind_of_ok (Writing.run_need_ok createdAt s)]
      exact left_upsertRequest (fun _ => (fixes_snapshots_audit _ _ _ _ _).bind fun _ =>
        (Writing.fixes_each (fixes_snapshots_projectReport t e) e.reports).bind fun _ => Writing.fixes_pure _) _ _
  | completed e => exact left_upsertRequest (fun _ => fixes_snapshots_audited _ _ _ _ _) _ _
  | offlineRequested e => exact left_upsertRequest (fun _ => fixes_snapshots_audited _ _ _ _ _) _ _
  | modelScore e => exact fixes_snapshots_audited _ _ _ _ _ s
  | batchChunkRequested e =>
    exact (fixes_snapshots_onBatch _).bind (fun _ => (fixes_snapshots_onBatch _).bind fun _ =>
      fixes_snapshots_audited _ _ _ _ _) s
  | batchChunkProcessed e =>
    exact (Writing.fixes_need _).bind (fun _ => (fixes_snapshots_onBatch _).bind fun _ =>
      fixes_snapshots_audited _ _ _ _ _) s
  | dlq e =>
    dsimp only [MetadataEvent.project, MetadataEvent.snapshot, Writer.projectDlq]
    cases htime : e.occurredAt with
    | naive _ => rfl
    | aware instant =>
      rw [Writing.run_bind_of_ok (run_audit _ _ _ _ _)]
      let event : RequestEvent := ⟨ehash, e.eventType, instant, t.projected, e.originalRequestId⟩
      have haudit : ({ s with requests := (s.requests.appendEvent event).1 } : Stores).snapshots = s.snapshots :=
        MetadataStore.appendEvent_requests s.requests event
      dsimp only
      cases Writer.dlqSnapshot t e with
      | none => exact haudit
      | some metadata => exact (left_upsertRequest (fun _ => Writing.fixes_pure _) metadata t.merged).trans (by rw [haudit])

end

/-! ## The fields of a snapshot -/

structure RequestFields where
  status : Option SnapshotStatus
  onlineWriteStatus : Value
  offlineWriteStatus : Option OfflineWriteStatus
  createdAt : Option Int

def RequestMetadata.fields (metadata : RequestMetadata) : RequestFields :=
  ⟨metadata.status, metadata.onlineWriteStatus, metadata.offlineWriteStatus, metadata.createdAt⟩

/-- What a snapshot does to the fields: the first one makes them. -/
def RequestFields.merge (existing : Option RequestFields) (incoming : RequestFields) (now : Int) : RequestFields :=
  match existing with
  | none => { incoming with createdAt := incoming.createdAt.or (some now) }
  | some existing =>
    { status := mergeStatus existing.status incoming.status
      onlineWriteStatus := pick incoming.onlineWriteStatus existing.onlineWriteStatus
      offlineWriteStatus := incoming.offlineWriteStatus.or existing.offlineWriteStatus
      createdAt := existing.createdAt.or incoming.createdAt }

theorem fields_upserted (existing : Option RequestMetadata) (metadata : RequestMetadata) (now : Int) :
    (MetadataStore.upserted existing metadata now).fields =
      RequestFields.merge (existing.map RequestMetadata.fields) metadata.fields now := by
  cases existing <;> rfl

/-- The key of the request an event is about and the fields it carries; neither depends on the clock. -/
def MetadataEvent.carries (event : MetadataEvent) (key : Value.Key) : Option RequestFields :=
  match event.snapshot ⟨0, 0, 0, 0⟩ with
  | none => none
  | some metadata => if metadata.requestId.asKey.toOption = some key then some metadata.fields else none

theorem snapshot_clock (event : MetadataEvent) (t t' : Readings) :
    (event.snapshot t).map (fun m => (m.requestId, m.fields)) = (event.snapshot t').map fun m => (m.requestId, m.fields) := by
  cases event with
  | requested e =>
    dsimp only [MetadataEvent.snapshot]
    cases e.occurredAt <;> rfl
  | dlq e =>
    dsimp only [MetadataEvent.snapshot]
    cases e.occurredAt with
    | naive _ => rfl
    | aware _ =>
      dsimp only [Writer.dlqSnapshot]
      split_ifs <;> rfl
  | _ => rfl

theorem get?_merged (requests : List (Value.Key × RequestMetadata)) (metadata : RequestMetadata) (now : Int)
    (key : Value.Key) : (Dict.get? (merged requests metadata now) key).map RequestMetadata.fields =
      if metadata.requestId.asKey.toOption = some key then
        some (RequestFields.merge ((Dict.get? requests key).map RequestMetadata.fields) metadata.fields now)
      else (Dict.get? requests key).map RequestMetadata.fields := by
  unfold merged
  cases hk : metadata.requestId.asKey with
  | error e => rfl
  | ok k =>
    dsimp only
    rw [Dict.get?_set]
    by_cases hkey : k = key
    · subst hkey
      rw [if_pos rfl, if_pos (by rfl), Option.map_some, fields_upserted]
    · have hne : ¬ (Except.ok k : Except PyErr Value.Key).toOption = some key := fun e => hkey (Option.some.inj e)
      rw [if_neg hkey, if_neg hne]

/-- The fields a message carries for a request, with the time of the merge. -/
def RawMessage.update (codec : WireCodec) (key : Value.Key) (m : RawMessage) : Option (RequestFields × Int) :=
  ((decoded codec m.rawValue).bind fun event => event.carries key).map fun fields => (fields, m.clock.merged)

def Stores.fieldsOf (s : Stores) (key : Value.Key) : Option RequestFields :=
  (Dict.get? s.snapshots key).map RequestMetadata.fields

section
variable {codec : WireCodec} {key : Value.Key}

theorem fieldsOf_deliver (s : Stores) (m : RawMessage) : (deliver codec s m).fieldsOf key =
    match m.update codec key with
    | none => s.fieldsOf key
    | some (fields, now) => some (RequestFields.merge (s.fieldsOf key) fields now) := by
  unfold deliver RawMessage.update
  cases hd : decoded codec m.rawValue with
  | none =>
    rw [projectEvent_undecoded s m.clock hd]
    rfl
  | some event =>
    rw [projectEvent_decoded s m.clock hd, Option.bind_some]
    unfold Stores.fieldsOf
    rw [left_project event _ m.clock]
    have hclock := snapshot_clock event m.clock ⟨0, 0, 0, 0⟩
    unfold MetadataEvent.carries
    cases hsnap : event.snapshot m.clock with
    | none =>
      rw [hsnap, Option.map_none, eq_comm, Option.map_eq_none_iff] at hclock
      rw [hclock]
      rfl
    | some metadata =>
      rw [hsnap, Option.map_some, eq_comm, Option.map_eq_some_iff] at hclock
      obtain ⟨metadata', hsnap', heq⟩ := hclock
      obtain ⟨hid, hfields⟩ := Prod.mk.inj heq
      rw [hsnap']
      dsimp only
      rw [get?_merged, hid, hfields]
      by_cases hkey : metadata.requestId.asKey.toOption = some key
      · rw [if_pos hkey, if_pos hkey]
        rfl
      · rw [if_neg hkey, if_neg hkey]
        rfl

def applyUpdate (existing : Option RequestFields) (update : RequestFields × Int) : Option RequestFields :=
  some (RequestFields.merge existing update.1 update.2)

theorem fieldsOf_run : ∀ (ms : List RawMessage) (s : Stores), (Runs.run (deliver codec) s ms).fieldsOf key =
    (ms.filterMap (RawMessage.update codec key)).foldl applyUpdate (s.fieldsOf key)
  | [], _ => rfl
  | m :: ms, s => by
    rw [Runs.run_cons, fieldsOf_run ms, fieldsOf_deliver]
    cases hu : m.update codec key with
    | none => rw [List.filterMap_cons_none hu]
    | some update => rw [List.filterMap_cons_some hu, List.foldl_cons]; rfl

end

/-! ## What a history of updates leaves -/

def RequestFields.terminalStatus (fields : RequestFields) : Option SnapshotStatus := fields.status.filter SnapshotStatus.terminal

def RequestFields.onlineStatus (fields : RequestFields) : Option Value :=
  if fields.onlineWriteStatus.isNone then none else some fields.onlineWriteStatus

open Latest

/-- The last terminal status, or without one the last status; of the write statuses the last; the first time. -/
def historyFields (us : List (RequestFields × Int)) : Option RequestFields :=
  us.head?.map fun first =>
    { status := (latest (fun u => u.1.terminalStatus) us).or (latest (fun u => u.1.status) us)
      onlineWriteStatus := (latest (fun u => u.1.onlineStatus) us).getD .null
      offlineWriteStatus := latest (fun u => u.1.offlineWriteStatus) us
      createdAt := first.1.createdAt.or (some first.2) }

theorem terminal_of_latest {us : List (RequestFields × Int)} {status : SnapshotStatus}
    (h : latest (fun u => u.1.terminalStatus) us = some status) : status.terminal = true := by
  obtain ⟨u, -, hu⟩ := mem_of_latest h
  exact (Option.filter_eq_some_iff.mp hu).2

theorem mergeStatus_eq (existing incoming : Option SnapshotStatus) : mergeStatus existing incoming =
    ((incoming.filter SnapshotStatus.terminal).or (existing.filter SnapshotStatus.terminal)).or (incoming.or existing) := by
  unfold mergeStatus
  cases incoming with
  | none => cases existing with
    | none => rfl
    | some status => cases status <;> rfl
  | some inc => cases existing with
    | none => cases inc <;> rfl
    | some status => cases inc <;> cases status <;> rfl

/-- The status of a history is terminal exactly if some entry is. -/
theorem filter_history (us : List (RequestFields × Int)) :
    ((latest (fun u => u.1.terminalStatus) us).or (latest (fun u => u.1.status) us)).filter SnapshotStatus.terminal =
      latest (fun u => u.1.terminalStatus) us := by
  cases hterm : latest (fun u : RequestFields × Int => u.1.terminalStatus) us with
  | some status => simp [terminal_of_latest hterm]
  | none =>
    rw [Option.none_or]
    cases hstatus : latest (fun u : RequestFields × Int => u.1.status) us with
    | none => rfl
    | some status =>
      obtain ⟨u, hu, he⟩ := mem_of_latest hstatus
      have hnone : u.1.status.filter SnapshotStatus.terminal = none := latest_eq_none.mp hterm u hu
      rw [he] at hnone
      exact hnone

theorem pick_eq (incoming : RequestFields) (existing : Option Value) :
    pick incoming.onlineWriteStatus (existing.getD .null) = (incoming.onlineStatus.or existing).getD .null := by
  unfold pick RequestFields.onlineStatus
  by_cases h : incoming.onlineWriteStatus.isNone = true
  · rw [if_pos h, if_pos h, Option.none_or]
  · rw [if_neg h, if_neg h]
    rfl

theorem onlineStatus_getD (fields : RequestFields) : fields.onlineStatus.getD .null = fields.onlineWriteStatus := by
  unfold RequestFields.onlineStatus
  cases fields.onlineWriteStatus <;> rfl

theorem foldl_applyUpdate (us : List (RequestFields × Int)) : us.foldl applyUpdate none = historyFields us := by
  induction us using List.reverseRecOn with
  | nil => rfl
  | append_singleton us u ih =>
    rw [List.foldl_concat, ih]
    unfold applyUpdate historyFields
    rw [latest_snoc, latest_snoc, latest_snoc, latest_snoc]
    cases us with
    | nil =>
      have hstatus : u.1.terminalStatus.or u.1.status = u.1.status := by
        unfold RequestFields.terminalStatus
        cases u.1.status with
        | none => rfl
        | some status => cases status <;> rfl
      simp only [List.head?_nil, Option.map_none, List.nil_append, List.head?_cons, Option.map_some, latest_nil,
        Option.or_none, RequestFields.merge, hstatus, onlineStatus_getD]
    | cons first rest =>
      simp only [List.head?_cons, Option.map_some, List.cons_append, RequestFields.merge, Option.some.injEq,
        RequestFields.mk.injEq]
      refine ⟨?_, pick_eq u.1 _, trivial, ?_⟩
      · rw [mergeStatus_eq, filter_history]
        unfold RequestFields.terminalStatus
        cases latest (fun u : RequestFields × Int => u.1.status.filter SnapshotStatus.terminal) (first :: rest) with
        | none => rfl
        | some status => cases u.1.status.filter SnapshotStatus.terminal <;> rfl
      · rw [Option.or_assoc, Option.some_or]

/-! ## Sets of events of a request -/

section
variable (codec : WireCodec) (key : Value.Key)

/-- Some delivered event carries these fields for the request. -/
def Carried (ms : List RawMessage) (fields : RequestFields) : Prop :=
  ∃ event, Delivered codec ms event ∧ event.carries key = some fields

/-- The runs deliver the same events of the request. -/
def SameUpdates (xs ys : List RawMessage) : Prop :=
  ∀ event fields, event.carries key = some fields → (Delivered codec xs event ↔ Delivered codec ys event)

/-- All events that set what `f` reads set it to the same value. -/
def Agree {β : Type} (f : RequestFields → Option β) (ms : List RawMessage) : Prop :=
  ∀ x y b b', Carried codec key ms x → Carried codec key ms y → f x = some b → f y = some b' → b = b'

variable {codec key}

theorem carried_iff {ms : List RawMessage} {fields : RequestFields} : Carried codec key ms fields ↔
    ∃ u ∈ ms.filterMap (RawMessage.update codec key), u.1 = fields := by
  constructor
  · rintro ⟨event, ⟨m, hm, hd⟩, hc⟩
    refine ⟨(fields, m.clock.merged), List.mem_filterMap.mpr ⟨m, hm, ?_⟩, rfl⟩
    rw [RawMessage.update, hd, Option.bind_some, hc, Option.map_some]
  · rintro ⟨u, hu, rfl⟩
    obtain ⟨m, hm, hu⟩ := List.mem_filterMap.mp hu
    obtain ⟨fields, hf, rfl⟩ := Option.map_eq_some_iff.mp hu
    obtain ⟨event, hd, hc⟩ := Option.bind_eq_some_iff.mp hf
    exact ⟨event, ⟨m, hm, hd⟩, hc⟩

theorem SameUpdates.carried {xs ys : List RawMessage} (h : SameUpdates codec key xs ys) {fields : RequestFields} :
    Carried codec key xs fields ↔ Carried codec key ys fields :=
  exists_congr fun event => and_congr_left fun hc => h event fields hc

theorem latest_updates_eq {β : Type} {f : RequestFields → Option β} {xs ys : List RawMessage}
    (hsame : SameUpdates codec key xs ys) (hagree : Agree codec key f xs) :
    latest (fun u => f u.1) (xs.filterMap (RawMessage.update codec key)) =
      latest (fun u => f u.1) (ys.filterMap (RawMessage.update codec key)) := by
  have hset : ∀ {as bs : List RawMessage} {b : β}, (∀ fields, Carried codec key as fields → Carried codec key bs fields) →
      (∃ u ∈ as.filterMap (RawMessage.update codec key), f u.1 = some b) →
      ∃ u ∈ bs.filterMap (RawMessage.update codec key), f u.1 = some b := by
    rintro as bs b hab ⟨u, hu, hb⟩
    obtain ⟨u', hu', he⟩ := carried_iff.mp (hab u.1 (carried_iff.mpr ⟨u, hu, rfl⟩))
    exact ⟨u', hu', by rw [he]; exact hb⟩
  refine latest_eq (fun b => ⟨hset fun _ => hsame.carried.mp, hset fun _ => hsame.carried.mpr⟩) ?_
  intro u hu u' hu' b b' hb hb'
  exact hagree u.1 u'.1 b b' (carried_iff.mpr ⟨u, hu, rfl⟩) (carried_iff.mpr ⟨u', hu', rfl⟩) hb hb'

/-- An event that does not end a request accepts it. -/
theorem carries_status {event : MetadataEvent} {fields : RequestFields} {status : SnapshotStatus}
    (h : event.carries key = some fields) (hs : fields.status = some status) (hopen : status.terminal = false) :
    status = .accepted := by
  unfold MetadataEvent.carries at h
  cases hsnap : event.snapshot ⟨0, 0, 0, 0⟩ with
  | none =>
    rw [hsnap] at h
    cases h
  | some metadata =>
    rw [hsnap] at h
    dsimp only at h
    have hfields : metadata.status = some status := by
      split at h
      · cases h
        exact hs
      · cases h
    cases event with
    | requested e =>
      dsimp only [MetadataEvent.snapshot] at hsnap
      cases htime : e.occurredAt with
      | naive _ =>
        rw [htime] at hsnap
        cases hsnap
      | aware createdAt =>
        rw [htime] at hsnap
        cases hsnap
        cases hfields
        rfl
    | completed e =>
      cases hsnap
      cases hfields
      cases hopen
    | offlineRequested e =>
      cases hsnap
      cases hfields
    | dlq e =>
      dsimp only [MetadataEvent.snapshot, Writer.dlqSnapshot] at hsnap
      split at hsnap
      · split_ifs at hsnap
        · cases hsnap
          cases hfields
        · cases hsnap
          cases hfields
          cases hopen
      · cases hsnap
    | _ => cases hsnap

theorem latest_status_eq {xs ys : List RawMessage} (hsame : SameUpdates codec key xs ys)
    (hagree : Agree codec key RequestFields.terminalStatus xs) :
    (latest (fun u => u.1.terminalStatus) (xs.filterMap (RawMessage.update codec key))).or
        (latest (fun u => u.1.status) (xs.filterMap (RawMessage.update codec key))) =
      (latest (fun u => u.1.terminalStatus) (ys.filterMap (RawMessage.update codec key))).or
        (latest (fun u => u.1.status) (ys.filterMap (RawMessage.update codec key))) := by
  rw [← latest_updates_eq hsame hagree]
  cases hterm : latest (fun u => u.1.terminalStatus) (xs.filterMap (RawMessage.update codec key)) with
  | some status => rfl
  | none =>
    rw [Option.none_or, Option.none_or]
    -- without a terminal status every status is that of an accepted request
    refine latest_updates_eq (f := RequestFields.status) hsame fun x y b b' hx hy hb hb' => ?_
    have hacc : ∀ {x : RequestFields} {b : SnapshotStatus}, Carried codec key xs x → x.status = some b → b = .accepted := by
      intro x b hx hb
      obtain ⟨u, hu, rfl⟩ := carried_iff.mp hx
      have hnone : u.1.status.filter SnapshotStatus.terminal = none := latest_eq_none.mp hterm u hu
      rw [hb] at hnone
      obtain ⟨event, -, hc⟩ := hx
      exact carries_status hc hb (by simpa using hnone)
    rw [hacc hx hb, hacc hy hb']

theorem head?_updates {xs ys : List RawMessage} (hsame : SameUpdates codec key xs ys) {u : RequestFields × Int}
    (h : (xs.filterMap (RawMessage.update codec key)).head? = some u) :
    ∃ v, (ys.filterMap (RawMessage.update codec key)).head? = some v := by
  have hx := carried_iff.mpr ⟨u, List.mem_of_mem_head? h, rfl⟩
  obtain ⟨v, hv, -⟩ := carried_iff.mp (hsame.carried.mp hx)
  cases hys : ys.filterMap (RawMessage.update codec key) with
  | nil =>
    rw [hys] at hv
    cases hv
  | cons v vs => exact ⟨v, rfl⟩

theorem SameUpdates.symm {xs ys : List RawMessage} (h : SameUpdates codec key xs ys) : SameUpdates codec key ys xs :=
  fun event fields hc => (h event fields hc).symm

/-- Two histories of the same events agree on a field if the events do. -/
theorem historyFields_map {β : Type} {xs ys : List RawMessage} (hsame : SameUpdates codec key xs ys) (f : RequestFields → β)
    (h : ∀ u v, (xs.filterMap (RawMessage.update codec key)).head? = some u →
      (ys.filterMap (RawMessage.update codec key)).head? = some v →
      (historyFields (xs.filterMap (RawMessage.update codec key))).map f =
        (historyFields (ys.filterMap (RawMessage.update codec key))).map f) :
    (historyFields (xs.filterMap (RawMessage.update codec key))).map f =
      (historyFields (ys.filterMap (RawMessage.update codec key))).map f := by
  cases hx : (xs.filterMap (RawMessage.update codec key)).head? with
  | some u =>
    obtain ⟨v, hv⟩ := head?_updates hsame hx
    exact h u v hx hv
  | none =>
    cases hy : (ys.filterMap (RawMessage.update codec key)).head? with
    | some v =>
      obtain ⟨u, hu⟩ := head?_updates hsame.symm hy
      rw [hu] at hx
      cases hx
    | none =>
      unfold historyFields
      rw [hx, hy]
      rfl

end

/-- The snapshot of a request after a history of its events, in the midst of any others: the status is the last terminal
one, or else that of an accepted request, the write statuses are those set last, the time of creation is that of the
first event. Two histories of the same events agree on each of them unless the events that decide it differ. -/
theorem request_projection_history (codec : WireCodec) (key : Value.Key) (s : Stores) (hs : s.fieldsOf key = none)
    (xs ys : List RawMessage) (hsame : SameUpdates codec key xs ys) :
    let us := xs.filterMap (RawMessage.update codec key)
    let vs := ys.filterMap (RawMessage.update codec key)
    let a := (Runs.run (deliver codec) s xs).fieldsOf key
    let b := (Runs.run (deliver codec) s ys).fieldsOf key
    a = historyFields us ∧ b = historyFields vs ∧
      (Agree codec key RequestFields.terminalStatus xs → a.map RequestFields.status = b.map RequestFields.status) ∧
      (Agree codec key RequestFields.onlineStatus xs →
        a.map RequestFields.onlineWriteStatus = b.map RequestFields.onlineWriteStatus) ∧
      (Agree codec key RequestFields.offlineWriteStatus xs →
        a.map RequestFields.offlineWriteStatus = b.map RequestFields.offlineWriteStatus) ∧
      ∀ createdAt, (us.head?.bind fun u => u.1.createdAt) = some createdAt →
        (vs.head?.bind fun v => v.1.createdAt) = some createdAt →
        a.map RequestFields.createdAt = b.map RequestFields.createdAt := by
  intro us vs a b
  have ha : a = historyFields us := by
    rw [← foldl_applyUpdate us, ← hs]
    exact fieldsOf_run xs s
  have hb : b = historyFields vs := by
    rw [← foldl_applyUpdate vs, ← hs]
    exact fieldsOf_run ys s
  refine ⟨ha, hb, fun hagree => ?_, fun hagree => ?_, fun hagree => ?_, fun createdAt hu hv => ?_⟩
  all_goals rw [ha, hb]
  · refine historyFields_map hsame _ fun u v hu hv => ?_
    have heq := latest_status_eq hsame hagree
    unfold historyFields
    rw [hu, hv, Option.map_some, Option.map_some, Option.map_some, Option.map_some, heq]
  · refine historyFields_map hsame _ fun u v hu hv => ?_
    have heq := latest_updates_eq hsame hagree
    unfold historyFields
    rw [hu, hv, Option.map_some, Option.map_some, Option.map_some, Option.map_some, heq]
  · refine historyFields_map hsame _ fun u v hu hv => ?_
    have heq := latest_updates_eq hsame hagree
    unfold historyFields
    rw [hu, hv, Option.map_some, Option.map_some, Option.map_some, Option.map_some, heq]
  · obtain ⟨u, hu, hcu⟩ := Option.bind_eq_some_iff.mp hu
    obtain ⟨v, hv, hcv⟩ := Option.bind_eq_some_iff.mp hv
    unfold historyFields
    rw [hu, hv, Option.map_some, Option.map_some, Option.map_some, Option.map_some, hcu, hcv]
    rfl

/-! ## Messages about one request -/

def userEntityText : String := "\"entity\": " ++ itemText "1"

/-- The fields of a completed event after the first two, in the order of the text. -/
def completedFields : List (String × Value) :=
  [("request_id", .str "freq_1"), ("event_type", .str "feature_compute.completed"), ("entity", userItem "1"),
    ("view", .str "users"), ("view_version", .int 1), ("correlation_id", .str "freq_1"),
    ("occurred_at", .str "2024-01-01T00:00:00+00:00")]

def completedText : String :=
  ", \"request_id\": \"freq_1\", \"event_type\": \"feature_compute.completed\", " ++ userEntityText ++
  ", \"view\": \"users\", \"view_version\": 1, \"correlation_id\": \"freq_1\", " ++
  "\"occurred_at\": \"2024-01-01T00:00:00+00:00\"\x7d"

/-- The fields of a dead letter after the first two. -/
def dlqFields : List (String × Value) :=
  [("failure_status", .str "poison"), ("event_type", .str "event.dlq"), ("error", .str "boom"),
    ("occurred_at", .str "2024-01-01T00:00:00+00:00"), ("source_payload_b64", .str ""),
    ("original_request_id", .str "freq_1")]

def dlqText : String :=
  ", \"failure_status\": \"poison\", \"event_type\": \"event.dlq\", \"error\": \"boom\", " ++
  "\"occurred_at\": \"2024-01-01T00:00:00+00:00\", \"source_payload_b64\": \"\", \"original_request_id\": \"freq_1\"\x7d"

def computeRequested : KnownMessage where
  tag := 'r'
  rest := "equest_id\": \"freq_1\", \"event_type\": \"feature_compute.requested\", \"job_id\": \"fjob_1\", " ++
    "\"priority\": \"normal\", \"deadline_ms\": 1000, " ++ userEntityText ++ ", \"view\": \"users\", \"view_version\": 1, " ++
    "\"reports\": [], \"write_policy\": \"online_first\", \"idempotency_key\": \"k\", \"correlation_id\": \"freq_1\", " ++
    "\"occurred_at\": \"2024-01-01T00:00:00+00:00\"\x7d"
  value := .obj [("request_id", .str "freq_1"), ("event_type", .str "feature_compute.requested"), ("job_id", .str "fjob_1"),
    ("priority", .str "normal"), ("deadline_ms", .int 1000), ("entity", userItem "1"), ("view", .str "users"),
    ("view_version", .int 1), ("reports", .arr []), ("write_policy", .str "online_first"), ("idempotency_key", .str "k"),
    ("correlation_id", .str "freq_1"), ("occurred_at", .str "2024-01-01T00:00:00+00:00")]

def completedWritten : KnownMessage where
  tag := 'j'
  rest := "ob_id\": \"fjob_1\", \"online_write_status\": \"written\"" ++ completedText
  value := .obj (("job_id", .str "fjob_1") :: ("online_write_status", .str "written") :: completedFields)

def completedNoop : KnownMessage where
  tag := 'o'
  rest := "nline_write_status\": \"noop\", \"job_id\": \"fjob_1\"" ++ completedText
  value := .obj (("online_write_status", .str "noop") :: ("job_id", .str "fjob_1") :: completedFields)

def offlineRequested : KnownMessage where
  tag := 'w'
  rest := "rite_set\": \x7b\"entity_key\": [[\"user_id\", \"1\"]], \"results\": \x7b\x7d, \"view\": \"users\", " ++
    "\"view_version\": 1, \"source_refs\": \x7b\x7d\x7d, \"event_type\": \"feature_write.offline.requested\", " ++
    "\"request_id\": \"freq_1\", \"job_id\": \"fjob_1\", \"correlation_id\": \"freq_1\", " ++
    "\"occurred_at\": \"2024-01-01T00:00:00+00:00\"\x7d"
  value := .obj [("write_set", .obj [("entity_key", .arr [.arr [.str "user_id", .str "1"]]), ("results", .obj []),
      ("view", .str "users"), ("view_version", .int 1), ("source_refs", .obj [])]),
    ("event_type", .str "feature_write.offline.requested"), ("request_id", .str "freq_1"), ("job_id", .str "fjob_1"),
    ("correlation_id", .str "freq_1"), ("occurred_at", .str "2024-01-01T00:00:00+00:00")]

def offlineFailed : KnownMessage where
  tag := 's'
  rest := "ource_topic\": \"feature_write.offline.requested\", \"failure_stage\": \"offline_writer\"" ++ dlqText
  value := .obj (("source_topic", .str "feature_write.offline.requested") :: ("failure_stage", .str "offline_writer") ::
    dlqFields)

def onlineFailed : KnownMessage where
  tag := 'f'
  rest := "ailure_stage\": \"online_worker\", \"source_topic\": \"feature_compute.requested\"" ++ dlqText
  value := .obj (("failure_stage", .str "online_worker") :: ("source_topic", .str "feature_compute.requested") :: dlqFields)

def requestMessages : List KnownMessage :=
  [computeRequested, completedWritten, completedNoop, offlineRequested, offlineFailed, onlineFailed]

def requestCodec : WireCodec := codecOf requestMessages

def requestKey : Value.Key := [.str "freq_1"]

theorem requestTags_nodup : (requestMessages.map fun m => UInt8.ofNat m.tag.toNat).Nodup := by
  show ((['r', 'j', 'o', 'w', 's', 'f'] : List Char).map fun c => UInt8.ofNat c.toNat).Nodup
  decide

theorem carries_known {m : KnownMessage} {fields : RequestFields} (hm : m ∈ requestMessages)
    (h : ∃ event, ((handlerOf requestCodec (eventTypeOf m.value)).bind fun decode => (decode m.value).toOption) =
      some event ∧ event.carries requestKey = some fields) (now : Int) :
    (m.sent now).update requestCodec requestKey = some (fields, now) := by
  obtain ⟨event, he, hc⟩ := h
  have hd : decoded requestCodec m.raw = some event := decoded_codecOf requestTags_nodup hm he
  rw [RawMessage.update, KnownMessage.sent_rawValue, hd, Option.bind_some, hc]
  rfl

theorem update_computeRequested (now : Int) : (computeRequested.sent now).update requestCodec requestKey =
    some (⟨some .accepted, .null, none, some 1704067200000000⟩, now) :=
  carries_known (by simp [requestMessages]) ⟨_, rfl, rfl⟩ now

theorem update_completedWritten (now : Int) : (completedWritten.sent now).update requestCodec requestKey =
    some (⟨some .completed, .str "written", none, none⟩, now) :=
  carries_known (by simp [requestMessages]) ⟨_, rfl, rfl⟩ now

theorem update_completedNoop (now : Int) : (completedNoop.sent now).update requestCodec requestKey =
    some (⟨some .completed, .str "noop", none, none⟩, now) :=
  carries_known (by simp [requestMessages]) ⟨_, rfl, rfl⟩ now

theorem update_offlineRequested (now : Int) : (offlineRequested.sent now).update requestCodec requestKey =
    some (⟨none, .null, some .pending, none⟩, now) :=
  carries_known (by simp [requestMessages]) ⟨_, rfl, rfl⟩ now

theorem update_offlineFailed (now : Int) : (offlineFailed.sent now).update requestCodec requestKey =
    some (⟨none, .null, some .failedDlq, none⟩, now) :=
  carries_known (by simp [requestMessages]) ⟨_, rfl, rfl⟩ now

theorem update_onlineFailed (now : Int) : (onlineFailed.sent now).update requestCodec requestKey =
    some (⟨some .failed, .null, none, none⟩, now) :=
  carries_known (by simp [requestMessages]) ⟨_, rfl, rfl⟩ now

theorem sameUpdates_of_raws {codec : WireCodec} {key : Value.Key} {xs ys : List RawMessage}
    (h : ∀ raw, (∃ m ∈ xs, m.rawValue = raw) ↔ ∃ m ∈ ys, m.rawValue = raw) : SameUpdates codec key xs ys :=
  fun _ _ _ => ⟨Delivered.of_raws fun raw => (h raw).mp, Delivered.of_raws fun raw => (h raw).mpr⟩

def requestOnce : List RawMessage := [computeRequested.sent 1, completedWritten.sent 2]

def requestAgain : List RawMessage := [computeRequested.sent 1, completedWritten.sent 2, computeRequested.sent 3]

theorem updates_requestOnce : requestOnce.filterMap (RawMessage.update requestCodec requestKey) =
    [(⟨some .accepted, .null, none, some 1704067200000000⟩, 1), (⟨some .completed, .str "written", none, none⟩, 2)] := by
  rw [requestOnce, List.filterMap_cons_some (update_computeRequested 1), List.filterMap_cons_some (update_completedWritten 2)]
  rfl

theorem head?_requestAgain : (requestAgain.filterMap (RawMessage.update requestCodec requestKey)).head? =
    some (⟨some .accepted, .null, none, some 1704067200000000⟩, 1) := by
  rw [requestAgain, List.filterMap_cons_some (update_computeRequested 1)]
  rfl

/-- The request is delivered again after its completion. -/
theorem request_projection_history_replay :
    let a := (Runs.run (deliver requestCodec) {} requestOnce).fieldsOf requestKey
    let b := (Runs.run (deliver requestCodec) {} requestAgain).fieldsOf requestKey
    a.map RequestFields.status = b.map RequestFields.status ∧ a.map RequestFields.createdAt = b.map RequestFields.createdAt := by
  have hsame : SameUpdates requestCodec requestKey requestOnce requestAgain := by
    refine sameUpdates_of_raws fun raw => ?_
    rw [requestOnce, requestAgain]
    simp only [List.mem_cons, List.not_mem_nil, or_false, exists_eq_or_imp, exists_eq_left, KnownMessage.sent_rawValue]
    generalize computeRequested.raw = request, completedWritten.raw = completed
    tauto
  obtain ⟨-, -, hstatus, -, -, hcreated⟩ := request_projection_history requestCodec requestKey {} rfl _ _ hsame
  refine ⟨hstatus fun x y b b' hx hy hb hb' => ?_, hcreated 1704067200000000 ?_ ?_⟩
  · have honly : ∀ {x : RequestFields} {b : SnapshotStatus}, Carried requestCodec requestKey requestOnce x →
        x.terminalStatus = some b → b = .completed := by
      intro x b hx hb
      obtain ⟨u, hu, rfl⟩ := carried_iff.mp hx
      rw [updates_requestOnce] at hu
      rcases List.mem_pair.mp hu with rfl | rfl
      · cases hb
      · cases hb
        rfl
    rw [honly hx hb, honly hy hb']
  · rw [updates_requestOnce]
    rfl
  · rw [head?_requestAgain]
    rfl

/-- All events of one request, and the same ones in the reverse order. -/
def forwards : List RawMessage :=
  [computeRequested.sent 1, completedWritten.sent 2, completedNoop.sent 3, offlineRequested.sent 4, offlineFailed.sent 5,
    onlineFailed.sent 6]

def backwards : List RawMessage :=
  [onlineFailed.sent 1, offlineFailed.sent 2, offlineRequested.sent 3, completedNoop.sent 4, completedWritten.sent 5,
    computeRequested.sent 6]

/-- No field of the snapshot is the same in both orders. -/
theorem request_projection_backwards :
    SameUpdates requestCodec requestKey forwards backwards ∧
      (Runs.run (deliver requestCodec) {} forwards).fieldsOf requestKey =
        some ⟨some .failed, .str "noop", some .failedDlq, some 1704067200000000⟩ ∧
      (Runs.run (deliver requestCodec) {} backwards).fieldsOf requestKey =
        some ⟨some .completed, .str "written", some .pending, some 1⟩ := by
  refine ⟨sameUpdates_of_raws fun raw => ?_, ?_, ?_⟩
  · rw [forwards, backwards]
    simp only [List.mem_cons, List.not_mem_nil, or_false, exists_eq_or_imp, exists_eq_left, KnownMessage.sent_rawValue]
    generalize computeRequested.raw = r₁, completedWritten.raw = r₂, completedNoop.raw = r₃, offlineRequested.raw = r₄,
      offlineFailed.raw = r₅, onlineFailed.raw = r₆
    tauto
  · rw [fieldsOf_run, forwards, List.filterMap_cons_some (update_computeRequested 1),
      List.filterMap_cons_some (update_completedWritten 2), List.filterMap_cons_some (update_completedNoop 3),
      List.filterMap_cons_some (update_offlineRequested 4), List.filterMap_cons_some (update_offlineFailed 5),
      List.filterMap_cons_some (update_onlineFailed 6)]
    rfl
  · rw [fieldsOf_run, backwards, List.filterMap_cons_some (update_onlineFailed 1),
      List.filterMap_cons_some (update_offlineFailed 2), List.filterMap_cons_some (update_offlineRequested 3),
      List.filterMap_cons_some (update_completedNoop 4), List.filterMap_cons_some (update_completedWritten 5),
      List.filterMap_cons_some (update_computeRequested 6)]
    rfl

end ClearFeature
