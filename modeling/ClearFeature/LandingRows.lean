import ClearFeature.LandingAccounts

/-!
# The rows of a landing and the repository

A row that can be described is upserted; it is refused exactly if its reference
stands for a report of another identity, and that never changes.
-/

namespace ClearFeature

open Items MetaRepository

/-! ## One upsert -/

section
variable {repo : MetaRepository} {u : MetaUpsert} {ref : String}

/-- The identity under a reference: that of the row that is there, or of the first one to come. -/
def standing (repo : MetaRepository) (coming : List RawReportMeta) (ref : String) : Option RawReportIdentity :=
  ((Dict.get? repo.metas ref).map RawReportMeta.identity).or
    ((coming.find? fun m => m.reportRef = ref).map RawReportMeta.identity)

theorem standing_of_stored {m : RawReportMeta} (h : Dict.get? repo.metas ref = some m) (coming : List RawReportMeta) :
    standing repo coming ref = some m.identity := by
  unfold standing
  rw [h]
  rfl

/-- A row stays under its reference, with its identity. -/
theorem after_identity (u : MetaUpsert) {m : RawReportMeta} (h : Dict.get? repo.metas ref = some m) :
    ∃ m', Dict.get? (repo.after u).metas ref = some m' ∧ m'.identity = m.identity := by
  have hcase := repo.upserted u.incoming u.context u.now
  generalize hout : repo.upsert u.incoming u.context u.now = out at hcase
  rw [after_eq u hout]
  cases hcase with
  | inserted hnone =>
    have hne : u.incoming.reportRef ≠ ref := by
      intro he
      rw [he, h] at hnone
      cases hnone
    exact ⟨m, (Dict.get?_set_ne _ _ hne).trans h, rfl⟩
  | conflict _ _ => exact ⟨m, h, rfl⟩
  | duplicate _ _ _ => exact ⟨m, h, rfl⟩
  | @correction existing m' hsome hid htrusted havailable hnew hm =>
    by_cases he : u.incoming.reportRef = ref
    · rw [he, h] at hsome
      cases hsome
      refine ⟨m', he ▸ Dict.get?_set_self _ _ _, ?_⟩
      unfold RawReportMeta.identity
      rw [hm]
    · exact ⟨m, (Dict.get?_set_ne _ _ he).trans h, rfl⟩

theorem after_other (h : u.incoming.reportRef ≠ ref) :
    Dict.get? (repo.after u).metas ref = Dict.get? repo.metas ref := by
  have hcase := repo.upserted u.incoming u.context u.now
  generalize hout : repo.upsert u.incoming u.context u.now = out at hcase
  rw [after_eq u hout]
  cases hcase with
  | inserted _ => exact Dict.get?_set_ne _ _ h
  | conflict _ _ => rfl
  | duplicate _ _ _ => rfl
  | correction _ _ _ _ _ _ => exact Dict.get?_set_ne _ _ h

/-- The identity of the upserted row, unless another report stands there. -/
theorem after_self (repo : MetaRepository) (u : MetaUpsert) : ∃ m',
    Dict.get? (repo.after u).metas u.incoming.reportRef = some m' ∧
      standing repo [u.incoming] u.incoming.reportRef = some m'.identity := by
  cases h : Dict.get? repo.metas u.incoming.reportRef with
  | some m =>
    obtain ⟨m', hm', hid⟩ := after_identity u h
    exact ⟨m', hm', (standing_of_stored h _).trans (congrArg some hid.symm)⟩
  | none =>
    have hcase := repo.upserted u.incoming u.context u.now
    generalize hout : repo.upsert u.incoming u.context u.now = out at hcase
    rw [after_eq u hout]
    unfold standing
    rw [h]
    cases hcase with
    | inserted _ => exact ⟨u.incoming, Dict.get?_set_self _ _ _, by simp⟩
    | conflict hsome _ =>
      rw [h] at hsome
      cases hsome
    | duplicate hsome _ _ =>
      rw [h] at hsome
      cases hsome
    | correction hsome _ _ _ _ _ =>
      rw [h] at hsome
      cases hsome

/-- The identity under a reference never changes. -/
theorem standing_after (u : MetaUpsert) (coming : List RawReportMeta) (ref : String) :
    standing (repo.after u) coming ref = standing repo (u.incoming :: coming) ref := by
  by_cases he : u.incoming.reportRef = ref
  · subst he
    obtain ⟨m', hm', hid⟩ := after_self repo u
    rw [standing_of_stored hm', ← hid]
    unfold standing
    simp
  · unfold standing
    rw [after_other he, List.find?_cons_of_neg (by simp [he])]

theorem standing_afterAll (coming : List RawReportMeta) (ref : String) : ∀ (us : List MetaUpsert) (repo : MetaRepository),
    standing (repo.afterAll us) coming ref = standing repo (us.map MetaUpsert.incoming ++ coming) ref
  | [], _ => rfl
  | u :: us, repo => (standing_afterAll coming ref us (repo.after u)).trans (standing_after u _ ref)

variable (repo) in
/-- An upsert goes through exactly if its identity stands under its reference. -/
theorem upsert_ok_iff (context : Option CorrectionContext) (now : Int) (m : RawReportMeta) (coming : List RawReportMeta) :
    (∃ isNew, (repo.upsert m context now).2 = .ok isNew) ↔ standing repo (m :: coming) m.reportRef = some m.identity := by
  have hcase := repo.upserted m context now
  generalize repo.upsert m context now = out at hcase
  cases hcase with
  | inserted h =>
    refine iff_of_true ⟨true, rfl⟩ ?_
    unfold standing
    rw [h, List.find?_cons_of_pos (by simp)]
    rfl
  | conflict h hid =>
    rw [standing_of_stored h]
    refine iff_of_false (fun ⟨_, h⟩ => nomatch h) fun h => hid (Option.some.inj h)
  | duplicate h hid hsame =>
    rw [standing_of_stored h]
    exact iff_of_true ⟨false, rfl⟩ (congrArg some hid)
  | correction h hid _ _ _ _ =>
    rw [standing_of_stored h]
    exact iff_of_true ⟨true, rfl⟩ (congrArg some hid)

end

/-! ## One row -/

/-- The fields of the metadata of a row. -/
def landedFields (b : RawBackend) (landing : LandingRun) (row : JsonlReportRow) (entityKey : EntityKey)
    (serialized : Bytes) : RawReportMetaFields :=
  let src := givenOr row.sourceName landing.sourceName
  let rtype := givenOr row.reportType landing.reportType
  let contentHash := b.contentHash serialized
  let reportRef := givenOr row.reportRef (b.deriveReportRef entityKey.encode src rtype contentHash)
  { reportRef := reportRef
    reportType := rtype
    entityType := landing.entityType
    entityKey := entityKey
    reportTs := row.eventTs
    payloadSizeBytes := serialized.length
    contentHash := contentHash
    storageUri := b.makeStorageUri rtype reportRef row.eventTs
    createdAt := landing.createdAt
    format := b.rawFormat
    compression := b.rawCompression
    availableAt := some (row.availableAt.getD landing.createdAt)
    availabilitySource := some (if row.availableAt.isSome then .sourceProvided else .ingestionTime) }

theorem landMeta_eq_ok {b : RawBackend} {landing : LandingRun} {row : JsonlReportRow} {m : RawReportMeta} :
    landMeta b landing row = .ok m ↔ ∃ entityKey, EntityKey.fromMapping row.entityKey none = .ok entityKey ∧
      ∃ serialized, b.serializePayload row.payload = .ok serialized ∧
        RawReportMeta.make (landedFields b landing row entityKey serialized) = .ok m := by
  unfold landMeta
  simp only [bind_eq_ok]
  rfl

section
variable (b : LandingBackend) (request : LandingRequest) (env : LandingEnv)

/-- The metadata of a row that can be described. -/
def describedRow : PreparedRow → Option RawReportMeta
  | .malformed _ => none
  | .parsed row => (landMeta b.toRawBackend (request.run env) row).toOption

def describedRows (prepared : List PreparedRow) : List RawReportMeta := prepared.filterMap (describedRow b request env)

variable {b request env} in
theorem describedRow_eq_some {row : JsonlReportRow} {m : RawReportMeta} :
    describedRow b request env (.parsed row) = some m ↔ landMeta b.toRawBackend (request.run env) row = .ok m := by
  show (landMeta b.toRawBackend (request.run env) row).toOption = some m ↔ _
  cases landMeta b.toRawBackend (request.run env) row with
  | error e => exact ⟨fun h => (nomatch h), fun h => (nomatch h)⟩
  | ok m' => exact ⟨fun h => congrArg Except.ok (Option.some.inj h), fun h => congrArg some (Except.ok.inj h)⟩

def landUpsert (m : RawReportMeta) (i : Nat) : MetaUpsert := ⟨m, some (request.run env).correctionContext, env.now i⟩

/-- What landing a row comes to. -/
inductive LandedOne (s : RawStores) (item : PreparedRow × Nat) : RawStores × Except PyErr Landed → Prop
  | undescribed (e : PyErr) (h : describedRow b request env item.1 = none) : LandedOne s item (s, .error e)
  | unsent (e : PyErr) (h : env.upsertRaises item.2 = some e) : LandedOne s item (s, .error e)
  | refused (e : PyErr) {m : RawReportMeta} (h : describedRow b request env item.1 = some m)
      (hid : standing s.repo [m] m.reportRef ≠ some m.identity)
      (hsame : s.repo.after (landUpsert request env m item.2) = s.repo) : LandedOne s item (s, .error e)
  | unput (e : PyErr) {m : RawReportMeta} (h : describedRow b request env item.1 = some m)
      (hraises : env.putRaises item.2 = some e) :
      LandedOne s item ({ s with repo := s.repo.after (landUpsert request env m item.2) }, .error e)
  | landed {row : JsonlReportRow} {m : RawReportMeta} {isNew : Bool} (hitem : item.1 = .parsed row)
      (h : describedRow b request env item.1 = some m) (hid : standing s.repo [m] m.reportRef = some m.identity)
      (hnew : (s.repo.upsert m (some (request.run env).correctionContext) (env.now item.2)).2 = .ok isNew) :
      LandedOne s item (⟨s.payloads.put m.storageUri row.payload, s.repo.after (landUpsert request env m item.2)⟩,
        .ok ⟨row, m, isNew⟩)

theorem landed_one (s : RawStores) (item : PreparedRow × Nat) :
    LandedOne b request env s item (landOne b request env s item) := by
  unfold landOne
  cases hitem : item.1 with
  | malformed error => exact .undescribed _ (by rw [hitem]; rfl)
  | parsed row =>
    dsimp only
    cases hm : landMeta b.toRawBackend (request.run env) row with
    | error e => exact .undescribed _ (by rw [hitem, describedRow, hm]; rfl)
    | ok m =>
      have hdescribed : describedRow b request env item.1 = some m := by
        rw [hitem, describedRow, hm]
        rfl
      dsimp only
      cases hraises : env.upsertRaises item.2 with
      | some e => exact .unsent e hraises
      | none =>
        dsimp only
        have hok := upsert_ok_iff s.repo (some (request.run env).correctionContext) (env.now item.2) m []
        cases hu : (s.repo.upsert m (some (request.run env).correctionContext) (env.now item.2)).2 with
        | error e =>
          have hsame : s.repo.after (landUpsert request env m item.2) = s.repo := after_error hu
          have hid : standing s.repo [m] m.reportRef ≠ some m.identity := by
            intro hid
            obtain ⟨isNew, hnew⟩ := hok.mpr hid
            rw [hu] at hnew
            cases hnew
          dsimp only
          have hrepo : (s.repo.upsert m (some (request.run env).correctionContext) (env.now item.2)).1 = s.repo := hsame
          rw [hrepo]
          exact .refused e hdescribed hid hsame
        | ok isNew =>
          dsimp only
          cases hput : env.putRaises item.2 with
          | some e => exact .unput e hdescribed hput
          | none => exact .landed hitem hdescribed (hok.mp ⟨isNew, hu⟩) hu

/-! ## A landing -/

/-- The stores raise nothing. -/
structure LandingEnv.Quiet (env : LandingEnv) : Prop where
  upserts : ∀ i, env.upsertRaises i = none
  puts : ∀ i, env.putRaises i = none

def landUpserts (prepared : List PreparedRow) (n : Nat) : List MetaUpsert :=
  (prepared.zipIdx n).filterMap fun item =>
    (describedRow b request env item.1).map fun m => landUpsert request env m item.2

theorem landUpserts_incoming : ∀ (prepared : List PreparedRow) (n : Nat),
    (landUpserts b request env prepared n).map MetaUpsert.incoming = describedRows b request env prepared
  | [], _ => rfl
  | item :: prepared, n => by
    have ih := landUpserts_incoming prepared (n + 1)
    unfold landUpserts describedRows at ih ⊢
    rw [List.zipIdx_cons, List.filterMap_cons, List.filterMap_cons]
    cases describedRow b request env item with
    | none => exact ih
    | some m => exact congrArg (m :: ·) ih

variable {b request env}

theorem landOne_repo (hq : env.Quiet) (s : RawStores) (item : PreparedRow × Nat) :
    (landOne b request env s item).1.repo = (describedRow b request env item.1).elim s.repo fun m =>
      s.repo.after (landUpsert request env m item.2) := by
  have hcase := landed_one b request env s item
  generalize landOne b request env s item = out at hcase
  cases hcase with
  | undescribed e h => rw [h, Option.elim_none]
  | unsent e h =>
    rw [hq.upserts] at h
    cases h
  | refused e h _ hsame => rw [h, Option.elim_some, hsame]
  | unput e _ h =>
    rw [hq.puts] at h
    cases h
  | landed _ h _ _ => rw [h, Option.elim_some]

theorem final_repo (hq : env.Quiet) : ∀ (prepared : List PreparedRow) (s : RawStores) (n : Nat),
    (final (landOne b request env) s (prepared.zipIdx n)).repo = s.repo.afterAll (landUpserts b request env prepared n)
  | [], _, _ => rfl
  | item :: prepared, s, n => by
    have ih := final_repo hq prepared (landOne b request env s (item, n)).1 (n + 1)
    rw [List.zipIdx_cons, final_cons, ih, landOne_repo hq]
    unfold landUpserts
    rw [List.zipIdx_cons, List.filterMap_cons]
    cases describedRow b request env item with
    | none => rfl
    | some m => rfl

end

end ClearFeature
