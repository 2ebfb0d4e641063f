import ClearFeature.Models

/-!
# Raw reports (`fs_core/raw/`)

A report is found by its reference: the metadata row gives the storage URI, the
payload store the payload. A row's identity never changes once written; a
trusted availability may be corrected, with an audit entry.
-/

namespace ClearFeature

/-! ## Metadata rows -/

structure RawReportMetaFields where
  reportRef : String
  reportType : String
  entityType : String
  entityKey : EntityKey
  reportTs : Int
  payloadSizeBytes : Int
  contentHash : String
  storageUri : String
  createdAt : Int
  format : String := "json"
  compression : String := "gzip"
  availableAt : Option Int := none
  availabilitySource : Option AvailabilitySource := none
  deriving DecidableEq

def RawReportMetaFields.check (m : RawReportMetaFields) : Except PyErr Unit := do
  raiseIf (isBlank m.reportRef) "report_ref must be non-empty"
  raiseIf (m.payloadSizeBytes < 0) "payload_size_bytes must be >= 0"
  raiseIf (m.availabilitySource = some .sourceProvided ∧ ∃ a ∈ m.availableAt, a < m.reportTs)
    "available_at must not precede report_ts (a fact cannot be available before its as-of time)"
  raiseIf (m.availabilitySource ≠ none ∧ m.availabilitySource ≠ some .sourceProvided ∧
      m.availabilitySource ≠ some .ingestionTime)
    "availability_source must be source_provided or ingestion_time"

structure RawReportMeta extends RawReportMetaFields where
  ok : toRawReportMetaFields.check = .ok ()
  deriving DecidableEq

def RawReportMeta.make (m : RawReportMetaFields) : Except PyErr RawReportMeta :=
  match h : m.check with
  | .ok () => .ok ⟨m, h⟩
  | .error e => .error e

theorem RawReportMeta.fields_of_make {f : RawReportMetaFields} {m : RawReportMeta} (h : make f = .ok m) :
    m.toRawReportMetaFields = f := by
  unfold make at h
  split at h
  · cases h
    rfl
  · cases h

/-- The fields of `_IDENTITY_FIELDS`. -/
structure RawReportIdentity where
  reportType : String
  entityType : String
  entityKey : EntityKey
  reportTs : Int
  payloadSizeBytes : Int
  contentHash : String
  storageUri : String
  format : String
  compression : String
  deriving DecidableEq

def RawReportMeta.identity (m : RawReportMeta) : RawReportIdentity :=
  ⟨m.reportType, m.entityType, m.entityKey, m.reportTs, m.payloadSizeBytes, m.contentHash, m.storageUri, m.format,
    m.compression⟩

def rawMetaConflicts (a b : RawReportMeta) : Bool := decide (a.identity ≠ b.identity)

def isAvailabilityCorrection (existing incoming : RawReportMeta) : Bool :=
  !rawMetaConflicts existing incoming &&
    decide (incoming.availabilitySource = some .sourceProvided ∧ incoming.availableAt ≠ none ∧
      incoming.availableAt ≠ existing.availableAt)

/-! ## The repository -/

structure CorrectionContext where
  changeOrigin : String
  manifestId : Option String := none
  requestId : Option String := none
  actorKeyId : Option String := none
  deriving DecidableEq

structure AvailabilityChange where
  reportRef : String
  oldAvailableAt : Option Int
  newAvailableAt : Option Int
  oldAvailabilitySource : Option AvailabilitySource
  newAvailabilitySource : Option AvailabilitySource
  changedAt : Int
  context : CorrectionContext
  deriving DecidableEq

def buildAvailabilityChange (existing incoming : RawReportMeta) (context : Option CorrectionContext) (now : Int) :
    AvailabilityChange where
  reportRef := existing.reportRef
  oldAvailableAt := existing.availableAt
  newAvailableAt := incoming.availableAt
  oldAvailabilitySource := existing.availabilitySource
  newAvailabilitySource := incoming.availabilitySource
  changedAt := now
  context := context.getD { changeOrigin := "unknown" }

structure MetaRepository where
  metas : List (String × RawReportMeta) := []
  availabilityChanges : List AvailabilityChange := []

namespace MetaRepository

def getMeta (repo : MetaRepository) (reportRef : String) : Except PyErr RawReportMeta :=
  match Dict.get? repo.metas reportRef with
  | some m => .ok m
  | none => .error (.keyError (reprStr reportRef))

/-- `replace(existing, available_at=…, availability_source=…)`, which runs the checks again. -/
def corrected (existing incoming : RawReportMeta) : Except PyErr RawReportMeta :=
  RawReportMeta.make { existing.toRawReportMetaFields with
    availableAt := incoming.availableAt, availabilitySource := incoming.availabilitySource }

/-- The audit entry is appended before the row is replaced. -/
def upsert (repo : MetaRepository) (incoming : RawReportMeta) (context : Option CorrectionContext) (now : Int) :
    MetaRepository × Except PyErr Bool :=
  match Dict.get? repo.metas incoming.reportRef with
  | none => ({ repo with metas := Dict.set repo.metas incoming.reportRef incoming }, .ok true)
  | some existing =>
    if rawMetaConflicts existing incoming then
      (repo, .error (.other "RawReportMetaConflictError" incoming.reportRef))
    else if isAvailabilityCorrection existing incoming then
      let repo := { repo with
        availabilityChanges := repo.availabilityChanges ++ [buildAvailabilityChange existing incoming context now] }
      match corrected existing incoming with
      | .error e => (repo, .error e)
      | .ok m => ({ repo with metas := Dict.set repo.metas incoming.reportRef m }, .ok true)
    else (repo, .ok false)

end MetaRepository

/-! ## Payloads -/

abbrev PayloadStore := List (String × Value)

def PayloadStore.put (payloads : PayloadStore) (storageUri : String) (payload : Value) : PayloadStore :=
  Dict.set payloads storageUri payload

def PayloadStore.getPayload (payloads : PayloadStore) (storageUri : String) : Except PyErr Value :=
  match Dict.get? payloads storageUri with
  | some v => .ok v
  | none => .error (.keyError (reprStr storageUri))

/-! ## Report resolution -/

structure ReportResolver where
  payloadStore : PayloadStore
  metaRepo : MetaRepository

/-- `make_source_loader(source_refs, expected_types)`. -/
def ReportResolver.makeSourceLoader (resolver : ReportResolver) (sourceRefs : List (String × String))
    (expectedTypes : Option (List (String × String))) (sourceName : String) : Except PyErr Value :=
  match Dict.get? sourceRefs sourceName with
  | none => .error (.valueError s!"no report_ref bound for source {reprStr sourceName}")
  | some reportRef =>
    match resolver.metaRepo.getMeta reportRef with
    | .error _ => .error (.valueError s!"unknown report_ref {reprStr reportRef}")
    | .ok row => do
      match expectedTypes.bind (Dict.get? · sourceName) with
      | none => .ok ()
      | some expected =>
        raiseIf (row.reportType ≠ expected)
          (let found := s!"but report_ref {reprStr reportRef} has {reprStr row.reportType}"
           s!"source {reprStr sourceName} expected report_type {reprStr expected} {found}")
      match resolver.payloadStore.getPayload row.storageUri with
      | .ok payload => .ok payload
      | .error _ =>
        .error (.valueError
          s!"no payload stored at storage_uri {reprStr row.storageUri} for report_ref {reprStr reportRef}")

/-! ## What an upsert does -/

theorem MetaRepository.corrected_identity {existing incoming m : RawReportMeta} (h : corrected existing incoming = .ok m) :
    m.identity = existing.identity := by
  unfold RawReportMeta.identity
  rw [RawReportMeta.fields_of_make h]

/-- The row under a reference after an upsert: untouched, inserted, or with its availability corrected. -/
theorem MetaRepository.upsert_cases (repo : MetaRepository) (incoming : RawReportMeta)
    (context : Option CorrectionContext) (now : Int) (ref : String) :
    Dict.get? (repo.upsert incoming context now).1.metas ref = Dict.get? repo.metas ref ∨
    incoming.reportRef = ref ∧ Dict.get? (repo.upsert incoming context now).1.metas ref = some incoming ∧
      Dict.get? repo.metas ref = none ∨
    incoming.reportRef = ref ∧ ∃ existing m, Dict.get? repo.metas ref = some existing ∧
      Dict.get? (repo.upsert incoming context now).1.metas ref = some m ∧ m.identity = existing.identity := by
  unfold upsert
  cases he : Dict.get? repo.metas incoming.reportRef with
  | none =>
    by_cases hr : incoming.reportRef = ref
    · subst hr
      exact .inr (.inl ⟨rfl, Dict.get?_set_self _ _ _, he⟩)
    · exact .inl (Dict.get?_set_ne _ _ hr)
  | some existing =>
    by_cases hc : rawMetaConflicts existing incoming = true
    · left
      simp [hc]
    · by_cases ha : isAvailabilityCorrection existing incoming = true
      · cases hm : corrected existing incoming with
        | error e =>
          left
          simp [hc, ha, hm]
        | ok m =>
          simp only [hc, ha, hm]
          by_cases hr : incoming.reportRef = ref
          · subst hr
            exact .inr (.inr ⟨rfl, existing, m, he, Dict.get?_set_self _ _ _, corrected_identity hm⟩)
          · exact .inl (Dict.get?_set_ne _ _ hr)
      · left
        simp [hc, ha]

theorem MetaRepository.upsert_ok {repo : MetaRepository} {incoming : RawReportMeta}
    {context : Option CorrectionContext} {now : Int} {isNew : Bool}
    (h : (repo.upsert incoming context now).2 = .ok isNew) :
    ∃ m, Dict.get? (repo.upsert incoming context now).1.metas incoming.reportRef = some m ∧
      m.identity = incoming.identity := by
  unfold upsert at h ⊢
  cases he : Dict.get? repo.metas incoming.reportRef with
  | none => exact ⟨incoming, Dict.get?_set_self _ _ _, rfl⟩
  | some existing =>
    simp only [he] at h
    by_cases hc : rawMetaConflicts existing incoming = true
    · rw [if_pos hc] at h
      cases h
    · have hid : existing.identity = incoming.identity := by simpa [rawMetaConflicts] using hc
      by_cases ha : isAvailabilityCorrection existing incoming = true
      · cases hm : corrected existing incoming with
        | error e =>
          simp only [hc, ha, hm] at h
          cases h
        | ok m =>
          simp only [hc, ha, hm]
          exact ⟨m, Dict.get?_set_self _ _ _, (corrected_identity hm).trans hid⟩
      · simp only [hc, ha]
        exact ⟨existing, he, hid⟩

end ClearFeature
