import ClearFeature.Wire

/-!
# Durable request metadata (`fs_core/stores/metadata.py`)

One snapshot for each request, merged from partial snapshots, and the hashes of
the events that were audited. What is stored is what the events carried: only
the fields the writer sets itself have a type.
-/

namespace ClearFeature

inductive SnapshotStatus where
  | accepted
  | running
  | completed
  | failed
  deriving DecidableEq, Repr

def SnapshotStatus.terminal : SnapshotStatus → Bool
  | .completed | .failed => true
  | .accepted | .running => false

inductive OfflineWriteStatus where
  | pending
  | failedDlq
  deriving DecidableEq, Repr

structure RequestMetadata where
  requestId : Value
  updatedAt : Int
  jobId : Value := .null
  status : Option SnapshotStatus := none
  entityType : Value := .null
  entityKey : Option Value.Mapping := none
  view : Value := .null
  viewVersion : Value := .null
  requestedFeatures : List Value := []
  requestedFeatureGroups : List Value := []
  onlineWriteStatus : Value := .null
  offlineWriteStatus : Option OfflineWriteStatus := none
  createdAt : Option Int := none
  finishedAt : Option Int := none
  error : Value := .null

/-- `inc if inc is not None else exi` -/
def pick (inc exi : Value) : Value := if inc.isNone then exi else inc

/-- `inc or exi` on lists. -/
def orList (inc exi : List Value) : List Value := if inc.isEmpty then exi else inc

def mergeStatus (existing incoming : Option SnapshotStatus) : Option SnapshotStatus :=
  match incoming with
  | none => existing
  | some inc => if existing.any SnapshotStatus.terminal && !inc.terminal then existing else some inc

def mergeRequest (existing incoming : RequestMetadata) (now : Int) : RequestMetadata where
  requestId := existing.requestId
  updatedAt := now
  jobId := pick incoming.jobId existing.jobId
  status := mergeStatus existing.status incoming.status
  entityType := pick incoming.entityType existing.entityType
  entityKey := incoming.entityKey.or existing.entityKey
  view := pick incoming.view existing.view
  viewVersion := pick incoming.viewVersion existing.viewVersion
  requestedFeatures := orList incoming.requestedFeatures existing.requestedFeatures
  requestedFeatureGroups := orList incoming.requestedFeatureGroups existing.requestedFeatureGroups
  onlineWriteStatus := pick incoming.onlineWriteStatus existing.onlineWriteStatus
  offlineWriteStatus := incoming.offlineWriteStatus.or existing.offlineWriteStatus
  createdAt := existing.createdAt.or incoming.createdAt
  finishedAt := incoming.finishedAt.or existing.finishedAt
  error := pick incoming.error existing.error

/-! ## The store -/

structure RequestEvent where
  eventHash : String
  eventType : Value
  occurredAt : Int
  createdAt : Int
  requestId : Value

structure MetadataStore where
  requests : List (Value.Key × RequestMetadata) := []
  eventHashes : List String := []

namespace MetadataStore

/-- The snapshot after an upsert at the time `now`. -/
def upserted (existing : Option RequestMetadata) (metadata : RequestMetadata) (now : Int) : RequestMetadata :=
  match existing with
  | none => { metadata with updatedAt := now, createdAt := metadata.createdAt.or (some now) }
  | some existing => mergeRequest existing metadata now

def upsertRequest (store : MetadataStore) (metadata : RequestMetadata) (now : Int) : Except PyErr MetadataStore := do
  let key ← metadata.requestId.asKey
  let existing := Dict.get? store.requests key
  return { store with requests := Dict.set store.requests key (upserted existing metadata now) }

/-- `append_event`; it says whether the event is new. -/
def appendEvent (store : MetadataStore) (event : RequestEvent) : MetadataStore × Bool :=
  if event.eventHash ∈ store.eventHashes then (store, false)
  else ({ store with eventHashes := store.eventHashes ++ [event.eventHash] }, true)

def getRequest (store : MetadataStore) (requestId : Value) : Except PyErr (Option RequestMetadata) := do
  let key ← requestId.asKey
  return Dict.get? store.requests key

theorem appendEvent_requests (store : MetadataStore) (event : RequestEvent) :
    (store.appendEvent event).1.requests = store.requests := by
  unfold appendEvent
  split <;> rfl

theorem upsertRequest_ok {store : MetadataStore} {metadata : RequestMetadata} {key : Value.Key} (now : Int)
    (hk : metadata.requestId.asKey = .ok key) :
    store.upsertRequest metadata now =
      .ok { store with requests := Dict.set store.requests key (upserted (Dict.get? store.requests key) metadata now) } := by
  unfold upsertRequest
  rw [hk]
  rfl

end MetadataStore

end ClearFeature
