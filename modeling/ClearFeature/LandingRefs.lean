import ClearFeature.LandingReplay

/-!
# Derived references (`api/jsonl_ingestion.py`)

A row without a reference gets one from the text that joins its entity key,
source, report type and content hash. Rows that this text does not tell apart
share a reference, and the second one is refused if its identity differs.
-/

namespace ClearFeature

open Items MetaRepository

/-! ## Runs of landings -/

structure LandingCall where
  request : LandingRequest
  env : LandingEnv
  prepared : List PreparedRow

section
variable (b : LandingBackend)

def LandingCall.land (s : RawStores × LandedDatasets) (call : LandingCall) : RawStores × LandedDatasets :=
  let out := landReportRows b call.request call.env call.prepared s.1 s.2
  (out.1, out.2.1)

def afterLandings (calls : List LandingCall) : RawStores × LandedDatasets := calls.foldl (LandingCall.land b) ({}, {})

/-- A row of the landing that can be described, and its metadata. -/
def Describes (call : LandingCall) (row : JsonlReportRow) (m : RawReportMeta) : Prop :=
  .parsed row ∈ call.prepared ∧ landMeta b.toRawBackend (call.request.run call.env) row = .ok m

/-- What tells two reports apart. -/
structure ReportValues where
  entityType : String
  entityKey : EntityKey
  sourceName : String
  reportType : String
  eventTs : Int
  contentHash : String
  deriving DecidableEq

def reportValues (call : LandingCall) (row : JsonlReportRow) (m : RawReportMeta) : ReportValues :=
  ⟨m.entityType, m.entityKey, givenOr row.sourceName call.request.sourceName, m.reportType, m.reportTs, m.contentHash⟩

/-- The text a reference is derived from. -/
def refMaterial (call : LandingCall) (row : JsonlReportRow) (m : RawReportMeta) : String :=
  "|".intercalate [m.entityKey.encode, givenOr row.sourceName call.request.sourceName, m.reportType, m.contentHash]

/-- The text tells the reports of a run apart. -/
def OneReportPerMaterial (calls : List LandingCall) : Prop :=
  ∀ call₁ ∈ calls, ∀ call₂ ∈ calls, ∀ row₁ m₁ row₂ m₂, Describes b call₁ row₁ m₁ → Describes b call₂ row₂ m₂ →
    refMaterial call₁ row₁ m₁ = refMaterial call₂ row₂ m₂ → reportValues call₁ row₁ m₁ = reportValues call₂ row₂ m₂

/-- No two texts that a run hashes have one digest, nor one start of it that makes a reference. -/
def CollisionFree (calls : List LandingCall) : Prop :=
  ∀ call₁ ∈ calls, ∀ call₂ ∈ calls, ∀ row₁ m₁ row₂ m₂, Describes b call₁ row₁ m₁ → Describes b call₂ row₂ m₂ →
    ((b.sha256 (refMaterial call₁ row₁ m₁).toUTF8.toList).toList.take 32 =
        (b.sha256 (refMaterial call₂ row₂ m₂).toUTF8.toList).toList.take 32 →
      refMaterial call₁ row₁ m₁ = refMaterial call₂ row₂ m₂) ∧
    ∀ serialized₁ serialized₂, b.serializePayload row₁.payload = .ok serialized₁ →
      b.serializePayload row₂.payload = .ok serialized₂ → b.sha256 serialized₁ = b.sha256 serialized₂ →
      serialized₁ = serialized₂

/-- A landing that neither the stores nor a rejection for another reason ends. -/
structure LandingCall.Regular (call : LandingCall) : Prop where
  quiet : call.env.Quiet
  copies : call.request.copyMode = copyMode
  ends : call.request.failFast = false ∨ ∀ item ∈ call.prepared, (describedRow b call.request call.env item).isSome

/-- No row that can be described is rejected, and each has its row under its reference, which it shares with its own
report only. -/
structure LandsEveryRow (s : RawStores × LandedDatasets) (call : LandingCall) : Prop where
  accepted : List.Forall₂ (fun item out => (describedRow b call.request call.env item).isSome → ∃ landed, out = .ok landed)
    call.prepared (landOutcomes b call.request call.env s.1 call.prepared)
  stored : ∀ row m, Describes b call row m → ∃ stored, Dict.get? (call.land b s).1.repo.metas m.reportRef = some stored ∧
    stored.identity = m.identity
  apart : ∀ row₁ m₁ row₂ m₂, Describes b call row₁ m₁ → Describes b call row₂ m₂ → m₁.reportRef = m₂.reportRef →
    reportValues call row₁ m₁ = reportValues call row₂ m₂

end

/-! ## References and identities -/

section
variable {b : LandingBackend} {call call₁ call₂ : LandingCall} {row row₁ row₂ : JsonlReportRow} {m m₁ m₂ : RawReportMeta}

theorem Describes.fields (h : Describes b call row m) : ∃ serialized, b.serializePayload row.payload = .ok serialized ∧
    m.toRawReportMetaFields =
      landedFields b.toRawBackend (call.request.run call.env) row m.entityKey serialized := by
  obtain ⟨entityKey, -, serialized, hs, hm⟩ := landMeta_eq_ok.mp h.2
  have hfields := RawReportMeta.fields_of_make hm
  have hkey : m.entityKey = entityKey := congrArg RawReportMetaFields.entityKey hfields
  exact ⟨serialized, hs, hkey ▸ hfields⟩

theorem Describes.reportRef (h : Describes b call row m) (href : row.reportRef = none) : m.reportRef =
    "rep_" ++ String.ofList ((b.sha256 (refMaterial call row m).toUTF8.toList).toList.take 32) := by
  obtain ⟨serialized, -, hfields⟩ := h.fields
  have hreportRef := congrArg RawReportMetaFields.reportRef hfields
  have htype : m.reportType = givenOr row.reportType call.request.reportType :=
    congrArg RawReportMetaFields.reportType hfields
  have hhash : m.contentHash = b.contentHash serialized := congrArg RawReportMetaFields.contentHash hfields
  rw [hreportRef]
  unfold landedFields refMaterial
  rw [htype, hhash, href]
  rfl

theorem material_of_ref (h : m₁.reportRef = m₂.reportRef) (h₁ : Describes b call₁ row₁ m₁) (h₂ : Describes b call₂ row₂ m₂)
    (href₁ : row₁.reportRef = none) (href₂ : row₂.reportRef = none) :
    (b.sha256 (refMaterial call₁ row₁ m₁).toUTF8.toList).toList.take 32 =
      (b.sha256 (refMaterial call₂ row₂ m₂).toUTF8.toList).toList.take 32 := by
  rw [h₁.reportRef href₁, h₂.reportRef href₂, String.append_right_inj] at h
  exact String.ofList_injective h

/-- What the other fields of a row are made of. -/
theorem Describes.storage (h : Describes b call row m) : ∃ serialized, b.serializePayload row.payload = .ok serialized ∧
    m.contentHash = "sha256:" ++ b.sha256 serialized ∧ m.payloadSizeBytes = serialized.length ∧
    m.storageUri = b.makeStorageUri m.reportType m.reportRef m.reportTs ∧ m.format = b.rawFormat ∧
    m.compression = b.rawCompression := by
  obtain ⟨serialized, hs, hfields⟩ := h.fields
  have hreportRef := congrArg RawReportMetaFields.reportRef hfields
  have htype := congrArg RawReportMetaFields.reportType hfields
  have hts := congrArg RawReportMetaFields.reportTs hfields
  refine ⟨serialized, hs, congrArg RawReportMetaFields.contentHash hfields,
    congrArg RawReportMetaFields.payloadSizeBytes hfields, ?_, congrArg RawReportMetaFields.format hfields,
    congrArg RawReportMetaFields.compression hfields⟩
  rw [hreportRef, htype, hts]
  exact congrArg RawReportMetaFields.storageUri hfields

/-- The values make the identity. -/
theorem identity_of_values (h₁ : Describes b call₁ row₁ m₁) (h₂ : Describes b call₂ row₂ m₂)
    (hv : reportValues call₁ row₁ m₁ = reportValues call₂ row₂ m₂) (href : m₁.reportRef = m₂.reportRef)
    (hfree : ∀ serialized₁ serialized₂, b.serializePayload row₁.payload = .ok serialized₁ →
      b.serializePayload row₂.payload = .ok serialized₂ → b.sha256 serialized₁ = b.sha256 serialized₂ →
      serialized₁ = serialized₂) : m₁.identity = m₂.identity := by
  simp only [reportValues, ReportValues.mk.injEq] at hv
  obtain ⟨hentity, hkey, -, htype, hts, hhash⟩ := hv
  obtain ⟨serialized₁, hs₁, hhash₁, hsize₁, huri₁, hformat₁, hcompression₁⟩ := h₁.storage
  obtain ⟨serialized₂, hs₂, hhash₂, hsize₂, huri₂, hformat₂, hcompression₂⟩ := h₂.storage
  have hdigest : b.sha256 serialized₁ = b.sha256 serialized₂ := by
    rw [hhash₁, hhash₂, String.append_right_inj] at hhash
    exact hhash
  have hsame := hfree serialized₁ serialized₂ hs₁ hs₂ hdigest
  unfold RawReportMeta.identity
  rw [hentity, hkey, htype, hts, hhash, hsize₁, hsize₂, hsame, huri₁, huri₂, htype, href, hts, hformat₁, hformat₂,
    hcompression₁, hcompression₂]

/-- Of rows with one text, the identity leaves nothing open. -/
theorem values_of_identity (h : refMaterial call₁ row₁ m₁ = refMaterial call₂ row₂ m₂) (hid : m₁.identity = m₂.identity) :
    reportValues call₁ row₁ m₁ = reportValues call₂ row₂ m₂ := by
  simp only [RawReportMeta.identity, RawReportIdentity.mk.injEq] at hid
  obtain ⟨htype, hentity, hkey, hts, -, hhash, -⟩ := hid
  have hsource : givenOr row₁.sourceName call₁.request.sourceName = givenOr row₂.sourceName call₂.request.sourceName := by
    unfold refMaterial at h
    rw [htype, hkey, hhash] at h
    simp only [String.intercalate_cons_cons, String.intercalate_singleton, String.append_assoc,
      String.append_right_inj] at h
    rw [String.append_left_inj] at h
    exact h
  simp only [reportValues, ReportValues.mk.injEq]
  exact ⟨hentity, hkey, hsource, htype, hts, hhash⟩

end

/-! ## What the landings leave -/

section
variable {b : LandingBackend} {calls : List LandingCall} {call : LandingCall}

/-- What every row keeps, a landing keeps, wherever it ends. -/
theorem land_keeps {P : RawStores → Prop} (s : RawStores × LandedDatasets)
    (h : ∀ s, ∀ item ∈ call.prepared.zipIdx, P s → P (landOne b call.request call.env s item).1) (hs : P s.1) :
    P (call.land b s).1 := by
  show P (landReportRows b call.request call.env call.prepared s.1 s.2).1
  unfold landReportRows
  by_cases hregister : call.request.copyMode = registerInPlace
  · rw [if_pos hregister]
    exact hs
  rw [if_neg hregister]
  by_cases hcopy : call.request.copyMode = copyMode
  · rw [if_neg (not_not.mpr hcopy)]
    dsimp only
    have hloop : P (loop (landOne b call.request call.env) (fun _ => !call.request.failFast)
        (LandingProgress.accept call.request call.env) (LandingProgress.reject call.request call.env) s.1
        call.prepared.zipIdx {}).1 := loop_keeps h hs
    generalize loop (landOne b call.request call.env) _ _ _ s.1 call.prepared.zipIdx
      ({} : LandingProgress) = out at hloop
    obtain ⟨s', result⟩ := out
    cases result with
    | error e => exact hloop
    | ok p => exact hloop
  · rw [if_pos hcopy]
    exact hs

theorem landOne_standing {request : LandingRequest} {env : LandingEnv} (s : RawStores) (item : PreparedRow × Nat)
    (ref : String) : standing (landOne b request env s item).1.repo [] ref = standing s.repo [] ref ∨
      ∃ m, describedRow b request env item.1 = some m ∧
        standing (landOne b request env s item).1.repo [] ref = standing s.repo [m] ref := by
  have hcase := landed_one b request env s item
  generalize landOne b request env s item = out at hcase
  cases hcase with
  | undescribed e _ => exact .inl rfl
  | unsent e _ => exact .inl rfl
  | refused e _ _ _ => exact .inl rfl
  | @unput e m h _ => exact .inr ⟨m, h, standing_after (landUpsert request env m item.2) [] ref⟩
  | @landed row m isNew _ h _ _ => exact .inr ⟨m, h, standing_after (landUpsert request env m item.2) [] ref⟩

theorem standing_singleton (repo : MetaRepository) (m : RawReportMeta) (ref : String) : standing repo [m] ref =
    (standing repo [] ref).or (if m.reportRef = ref then some m.identity else none) := by
  unfold standing
  rw [List.find?_nil, Option.map_none, Option.or_none]
  by_cases h : m.reportRef = ref
  · rw [if_pos h, List.find?_cons_of_pos (by simp [h]), Option.map_some]
  · rw [if_neg h, List.find?_cons_of_neg (by simp [h]), List.find?_nil, Option.map_none]

/-- An identity stays under its reference. -/
theorem land_standing (s : RawStores × LandedDatasets) (call : LandingCall) {ref : String} {identity : RawReportIdentity}
    (h : standing s.1.repo [] ref = some identity) : standing (call.land b s).1.repo [] ref = some identity := by
  refine land_keeps (P := fun s => standing s.repo [] ref = some identity) s (fun s item _ hs => ?_) h
  rcases landOne_standing (b := b) s item ref with hsame | ⟨m, -, hsame⟩
  · rw [hsame, hs]
  · rw [hsame, standing_singleton, hs, Option.some_or]

theorem landings_standing {ref : String} {identity : RawReportIdentity} : ∀ (after : List LandingCall)
    (s : RawStores × LandedDatasets), standing s.1.repo [] ref = some identity →
    standing (after.foldl (LandingCall.land b) s).1.repo [] ref = some identity
  | [], _, h => h
  | call :: after, s, h => landings_standing after (call.land b s) (land_standing s call h)

/-- Every row that is there was described in a landing. -/
def Stems (b : LandingBackend) (calls : List LandingCall) (s : RawStores) : Prop :=
  ∀ ref identity, standing s.repo [] ref = some identity →
    ∃ call ∈ calls, ∃ row m, Describes b call row m ∧ m.reportRef = ref ∧ m.identity = identity

theorem Describes.of_item {item : PreparedRow} {m : RawReportMeta} (hitem : item ∈ call.prepared)
    (h : describedRow b call.request call.env item = some m) : ∃ row, item = .parsed row ∧ Describes b call row m := by
  cases item with
  | malformed error => cases h
  | parsed row => exact ⟨row, rfl, hitem, describedRow_eq_some.mp h⟩

theorem landOne_stems (hcall : call ∈ calls) (s : RawStores) (item : PreparedRow × Nat) (hitem : item.1 ∈ call.prepared)
    (hs : Stems b calls s) : Stems b calls (landOne b call.request call.env s item).1 := by
  intro ref identity h
  rcases landOne_standing (b := b) s item ref with hsame | ⟨m, hm, hsame⟩
  · exact hs ref identity (hsame ▸ h)
  · rw [hsame, standing_singleton] at h
    cases hstands : standing s.repo [] ref with
    | some identity' =>
      rw [hstands, Option.some_or] at h
      cases h
      exact hs ref _ hstands
    | none =>
      rw [hstands, Option.none_or] at h
      by_cases href : m.reportRef = ref
      · rw [if_pos href] at h
        cases h
        obtain ⟨row, -, hdescribes⟩ := Describes.of_item hitem hm
        exact ⟨call, hcall, row, m, hdescribes, href, rfl⟩
      · rw [if_neg href] at h
        cases h

theorem land_stems (hcall : call ∈ calls) (s : RawStores × LandedDatasets) (hs : Stems b calls s.1) :
    Stems b calls (call.land b s).1 :=
  land_keeps s (fun s item hitem hs => landOne_stems hcall s item (List.fst_mem_of_mem_zipIdx hitem) hs) hs

theorem landings_stem : ∀ (before : List LandingCall) (s : RawStores × LandedDatasets), (∀ call ∈ before, call ∈ calls) →
    Stems b calls s.1 → Stems b calls (before.foldl (LandingCall.land b) s).1
  | [], _, _, hs => hs
  | call :: before, s, h, hs =>
    landings_stem before (call.land b s) (fun call' h' => h call' (List.mem_cons_of_mem _ h'))
      (land_stems (h call List.mem_cons_self) s hs)

theorem stems_empty : Stems b calls {} := fun _ _ h => nomatch h

/-- Rows of one reference are one report. -/
def OneReportPerRef (b : LandingBackend) (calls : List LandingCall) : Prop :=
  ∀ call₁ ∈ calls, ∀ call₂ ∈ calls, ∀ row₁ m₁ row₂ m₂, Describes b call₁ row₁ m₁ → Describes b call₂ row₂ m₂ →
    m₁.reportRef = m₂.reportRef →
      m₁.identity = m₂.identity ∧ reportValues call₁ row₁ m₁ = reportValues call₂ row₂ m₂

theorem one_report_per_ref (hnone : ∀ call ∈ calls, ∀ row, .parsed row ∈ call.prepared → row.reportRef = none)
    (hfree : CollisionFree b calls) (hone : OneReportPerMaterial b calls) : OneReportPerRef b calls := by
  intro call₁ hcall₁ call₂ hcall₂ row₁ m₁ row₂ m₂ h₁ h₂ href
  obtain ⟨hdigest, hcontent⟩ := hfree call₁ hcall₁ call₂ hcall₂ row₁ m₁ row₂ m₂ h₁ h₂
  have hmaterial := hdigest (material_of_ref href h₁ h₂ (hnone _ hcall₁ _ h₁.1) (hnone _ hcall₂ _ h₂.1))
  have hvalues := hone call₁ hcall₁ call₂ hcall₂ row₁ m₁ row₂ m₂ h₁ h₂ hmaterial
  exact ⟨identity_of_values h₁ h₂ hvalues href hcontent, hvalues⟩

section
variable (hone : OneReportPerRef b calls) (hcall : call ∈ calls)
include hone hcall

/-- No row finds another report under its reference. -/
theorem stands_of_stems {s : RawStores} (hs : Stems b calls s) {row : JsonlReportRow} {m : RawReportMeta}
    (h : Describes b call row m) : standing s.repo [m] m.reportRef = some m.identity := by
  rw [standing_singleton, if_pos rfl]
  cases hstands : standing s.repo [] m.reportRef with
  | none => rfl
  | some identity =>
    obtain ⟨call', hcall', row', m', h', href, rfl⟩ := hs _ _ hstands
    exact congrArg some (hone call' hcall' call hcall row' m' row m h' h href).1

theorem outcomes_accepted (hq : call.env.Quiet) : ∀ (items : List PreparedRow) (s : RawStores) (n : Nat),
    (∀ item ∈ items, item ∈ call.prepared) → Stems b calls s →
    List.Forall₂ (fun item out => (describedRow b call.request call.env item).isSome → ∃ landed, out = .ok landed) items
      (outcomes (landOne b call.request call.env) s (items.zipIdx n))
  | [], _, _, _, _ => .nil
  | item :: items, s, n, hitems, hs => by
    have hitem := hitems item List.mem_cons_self
    have hrest := outcomes_accepted hq items (landOne b call.request call.env s (item, n)).1 (n + 1)
      (fun item' h' => hitems item' (List.mem_cons_of_mem _ h')) (landOne_stems hcall s (item, n) hitem hs)
    refine .cons (fun hdescribed => ?_) hrest
    obtain ⟨m, hm⟩ := Option.isSome_iff_exists.mp hdescribed
    obtain ⟨row, -, hrow⟩ := Describes.of_item hitem hm
    have hstands := stands_of_stems hone hcall hs hrow
    have hcase := landed_one b call.request call.env s (item, n)
    generalize landOne b call.request call.env s (item, n) = out at hcase
    cases hcase with
    | undescribed e h =>
      rw [show describedRow b call.request call.env item = none from h] at hm
      cases hm
    | unsent e h =>
      rw [hq.upserts] at h
      cases h
    | refused e h hid _ =>
      rw [show describedRow b call.request call.env item = some _ from h] at hm
      cases hm
      exact absurd hstands hid
    | unput e _ h =>
      rw [hq.puts] at h
      cases h
    | landed _ _ _ _ => exact ⟨_, rfl⟩

end

theorem raised_of_accepted {items : List PreparedRow} {outs : List (Except PyErr Landed)}
    (h : List.Forall₂ (fun item out => (describedRow b call.request call.env item).isSome → ∃ landed, out = .ok landed)
      items outs) (hall : ∀ item ∈ items, (describedRow b call.request call.env item).isSome) : raised outs = [] := by
  induction h with
  | nil => rfl
  | cons hout _ ih =>
    obtain ⟨landed, rfl⟩ := hout (hall _ List.mem_cons_self)
    exact ih fun item hitem => hall item (List.mem_cons_of_mem _ hitem)

theorem lands_every_row (hone : OneReportPerRef b calls) (hcall : call ∈ calls) (hr : call.Regular b)
    {s : RawStores × LandedDatasets} (hs : Stems b calls s.1) : LandsEveryRow b s call := by
  have haccepted := outcomes_accepted hone hcall hr.quiet call.prepared s.1 0 (fun _ h => h) hs
  refine ⟨haccepted, fun row m h => ?_, fun row₁ m₁ row₂ m₂ h₁ h₂ href => ?_⟩
  · obtain ⟨manifest, hmanifest⟩ := (landed_iff b call.request call.env s.1 s.2 call.prepared).mpr
      ⟨hr.copies, hr.ends.imp_right (raised_of_accepted haccepted)⟩
    obtain ⟨items, hrun, -⟩ := accounts_of_landed hmanifest
    have hland : (call.land b s).1.repo = s.1.repo.afterAll (landUpserts b call.request call.env call.prepared 0) := by
      show (landReportRows b call.request call.env call.prepared s.1 s.2).1.repo = _
      rw [hrun]
      exact final_repo hr.quiet call.prepared s.1 0
    have hm : m ∈ (landUpserts b call.request call.env call.prepared 0).map MetaUpsert.incoming := by
      rw [landUpserts_incoming]
      exact List.mem_filterMap.mpr ⟨.parsed row, h.1, describedRow_eq_some.mpr h.2⟩
    obtain ⟨stored, hstored, -⟩ := stored_of_mem s.1.repo hm
    rw [← hland] at hstored
    obtain ⟨call', hcall', row', m', h', href, hid⟩ := land_stems hcall s hs _ _ (standing_of_stored hstored [])
    exact ⟨stored, hstored, hid.symm.trans (hone call' hcall' call hcall row' m' row m h' h href).1⟩
  · exact (hone call hcall call hcall row₁ m₁ row₂ m₂ h₁ h₂ href).2

/-! ### A report of two event times -/

def taxMaterial : Bytes :=
  ["user_id=1|tax_report|tax|", "sha256:921ccc3b023a31cba91b", "f29807653e0be7e56aeac60d87f0", "b5fbc7a2412a9881"].flatMap
    asciiBytes

def raisedMaterial : Bytes :=
  ["user_id=1|tax_report|tax|", "sha256:bb5dad991c4e3d96e46d", "d57608104aa7cc11699bc9c54498", "c3e4316b0d108bb3"].flatMap
    asciiBytes

/-- The memory backend, with the digests of the materials of `income: 100` and `income: 200`. -/
def refLanding : LandingBackend where
  toRawBackend := { memoryBackend with
    sha256 := fun bytes =>
      if bytes = taxMaterial then "7fa855c60b357a7f3833dbc7bb52db6a4eb8be28c57ebc19daf99bc2d7b77eb5"
      else if bytes = raisedMaterial then "3791ed6d3b9ea3b8431924543a8774818ced0471ebb0151056df2df5fca92051"
      else memoryBackend.sha256 bytes }
  fingerprint := memoryLanding.fingerprint

/-- The same report at some event times, without a reference. -/
def unreferenced (times : List Int) : LandingCall where
  request := taxLanding
  env := quietLanding "1" 100
  prepared := times.map fun t => .parsed (taxRow none 100 t)

variable (b calls) in
/-- In a run of landings of rows without references: where the joined text tells reports apart, every regular landing
lands every row; and it does tell them apart, where every landing lands every row. -/
theorem landing_refs (hnone : ∀ call ∈ calls, ∀ row, .parsed row ∈ call.prepared → row.reportRef = none)
    (hfree : CollisionFree b calls) :
    (OneReportPerMaterial b calls → ∀ before call after, calls = before ++ call :: after → call.Regular b →
      LandsEveryRow b (afterLandings b before) call) ∧
    ((∀ before call after, calls = before ++ call :: after → LandsEveryRow b (afterLandings b before) call) →
      OneReportPerMaterial b calls) := by
  constructor
  · intro hone before call after hcalls hr
    have hmem : ∀ call' ∈ before, call' ∈ calls := fun call' h' => hcalls ▸ List.mem_append_left _ h'
    have hcall : call ∈ calls := hcalls ▸ List.mem_append_right _ List.mem_cons_self
    exact lands_every_row (one_report_per_ref hnone hfree hone) hcall hr
      (landings_stem before ({}, {}) hmem stems_empty)
  · intro hlands call₁ hcall₁ call₂ hcall₂ row₁ m₁ row₂ m₂ h₁ h₂ hmaterial
    have hleft : ∀ call ∈ calls, ∀ row m, Describes b call row m →
        standing (afterLandings b calls).1.repo [] m.reportRef = some m.identity := by
      intro call hcall row m h
      obtain ⟨before, after, hcalls⟩ := List.append_of_mem hcall
      obtain ⟨stored, hstored, hid⟩ := (hlands before call after hcalls).stored row m h
      have hstands : standing (call.land b (afterLandings b before)).1.repo [] m.reportRef = some m.identity :=
        hid ▸ standing_of_stored hstored []
      rw [hcalls]
      show standing ((before ++ call :: after).foldl (LandingCall.land b) ({}, {})).1.repo [] m.reportRef = _
      rw [List.foldl_append, List.foldl_cons]
      exact landings_standing after _ hstands
    have href : m₁.reportRef = m₂.reportRef := by
      rw [h₁.reportRef (hnone _ hcall₁ _ h₁.1), h₂.reportRef (hnone _ hcall₂ _ h₂.1), hmaterial]
    have hid := hleft call₁ hcall₁ row₁ m₁ h₁
    rw [href, hleft call₂ hcall₂ row₂ m₂ h₂] at hid
    exact values_of_identity hmaterial (Option.some.inj hid).symm

/-- Two reports of one user. -/
def firstLanding : LandingCall where
  request := taxLanding
  env := quietLanding "1" 100
  prepared := [.parsed (taxRow none 100 10), .parsed (taxRow none 200 20)]

/-- The first of them again, after a row that is no JSON. -/
def repeatedLanding : LandingCall where
  request := taxLanding
  env := quietLanding "2" 200
  prepared := [.malformed "Expecting value", .parsed (taxRow none 100 10)]

/-- The described rows of a landing. -/
def LandingCall.described (b : LandingBackend) (call : LandingCall) : List (JsonlReportRow × RawReportMeta) :=
  call.prepared.filterMap fun item =>
    match item with
    | .malformed _ => none
    | .parsed row => (landMeta b.toRawBackend (call.request.run call.env) row).toOption.map (row, ·)

theorem Describes.mem (h : Describes b call row m) : (row, m) ∈ call.described b := by
  refine List.mem_filterMap.mpr ⟨.parsed row, h.1, ?_⟩
  dsimp only
  rw [h.2]
  rfl

theorem landing_refs_repeated : LandsEveryRow refLanding (afterLandings refLanding [firstLanding]) repeatedLanding := by
  have hfree : ∀ call₁ ∈ [firstLanding, repeatedLanding], ∀ call₂ ∈ [firstLanding, repeatedLanding],
      ∀ x₁ ∈ call₁.described refLanding, ∀ x₂ ∈ call₂.described refLanding,
        ((refLanding.sha256 (refMaterial call₁ x₁.1 x₁.2).toUTF8.toList).toList.take 32 =
            (refLanding.sha256 (refMaterial call₂ x₂.1 x₂.2).toUTF8.toList).toList.take 32 →
          refMaterial call₁ x₁.1 x₁.2 = refMaterial call₂ x₂.1 x₂.2) ∧
        ∀ serialized₁ ∈ (refLanding.serializePayload x₁.1.payload).toOption,
          ∀ serialized₂ ∈ (refLanding.serializePayload x₂.1.payload).toOption,
            refLanding.sha256 serialized₁ = refLanding.sha256 serialized₂ → serialized₁ = serialized₂ := by
    decide +kernel
  have hone : ∀ call₁ ∈ [firstLanding, repeatedLanding], ∀ call₂ ∈ [firstLanding, repeatedLanding],
      ∀ x₁ ∈ call₁.described refLanding, ∀ x₂ ∈ call₂.described refLanding,
        refMaterial call₁ x₁.1 x₁.2 = refMaterial call₂ x₂.1 x₂.2 →
          reportValues call₁ x₁.1 x₁.2 = reportValues call₂ x₂.1 x₂.2 := by
    decide +kernel
  refine (landing_refs refLanding [firstLanding, repeatedLanding] ?_ ?_).1 ?_ [firstLanding] _ [] rfl
    ⟨quietLanding_quiet "2" 200, rfl, .inl rfl⟩
  · intro call hcall row hmem
    rcases List.mem_pair.mp hcall with rfl | rfl
    · simp only [firstLanding, List.mem_cons, PreparedRow.parsed.injEq, List.not_mem_nil, or_false] at hmem
      rcases hmem with rfl | rfl <;> rfl
    · simp only [repeatedLanding, List.mem_cons, reduceCtorEq, false_or, PreparedRow.parsed.injEq, List.not_mem_nil,
        or_false] at hmem
      rw [hmem]
      rfl
  · intro call₁ hcall₁ call₂ hcall₂ row₁ m₁ row₂ m₂ h₁ h₂
    obtain ⟨hdigest, hserialized⟩ := hfree call₁ hcall₁ call₂ hcall₂ (row₁, m₁) h₁.mem (row₂, m₂) h₂.mem
    refine ⟨hdigest, fun serialized₁ serialized₂ hs₁ hs₂ => hserialized serialized₁ ?_ serialized₂ ?_⟩
    · rw [hs₁]
      rfl
    · rw [hs₂]
      rfl
  · intro call₁ hcall₁ call₂ hcall₂ row₁ m₁ row₂ m₂ h₁ h₂
    exact hone call₁ hcall₁ call₂ hcall₂ (row₁, m₁) h₁.mem (row₂, m₂) h₂.mem

/-- The second event time is refused as a conflict. -/
theorem landing_refuses : ¬ LandsEveryRow refLanding ({}, {}) (unreferenced [10, 20]) := by
  intro h
  have hdescribed : ∀ item ∈ (unreferenced [10, 20]).prepared,
      (describedRow refLanding (unreferenced [10, 20]).request (unreferenced [10, 20]).env item).isSome := by
    decide +kernel
  have hraised : raised (landOutcomes refLanding (unreferenced [10, 20]).request (unreferenced [10, 20]).env {}
      (unreferenced [10, 20]).prepared) ≠ [] := by
    decide +kernel
  exact hraised (raised_of_accepted h.accepted hdescribed)

end

end ClearFeature
