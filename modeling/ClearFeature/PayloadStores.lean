import ClearFeature.RawWrites
import ClearFeature.RetriesBounded
import ClearFeature.StorageUris

/-!
# Raw payloads in an object store (`fs_core/raw/minio_payload_store.py`)

A payload is written as compressed JSON under the bucket and the key of its URI.
Of puts with different report references each one is read back, whatever is put
later, exactly where no address has a character with a meaning in URLs and no
two addresses overlap.
-/

namespace ClearFeature

/-! ## The client and the libraries -/

/-- What a client raises, with its `code` where it has one. -/
structure ClientError where
  code : Option String
  raised : PyErr

/-- A client of an object store. A write that is acknowledged is read back until the next write to the same object, and
making a bucket takes nothing away. -/
structure MinioClient where
  State : Type
  bucketExists : State → String → Except ClientError Bool
  makeBucket : State → String → State × Except ClientError Unit
  putObject : State → String → String → Bytes → String → State × Except ClientError Unit
  /-- The response, which may fail to be read. -/
  getObject : State → String → String → Except ClientError (Except PyErr Bytes)
  get_put : ∀ {s : State} {bucket key : String} {body : Bytes} {contentType : String},
    (putObject s bucket key body contentType).2 = .ok () →
      getObject (putObject s bucket key body contentType).1 bucket key = .ok (.ok body)
  kept_put : ∀ {s : State} {bucket key bucket' key' : String} {body data : Bytes} {contentType : String},
    getObject s bucket key = .ok (.ok data) → (bucket', key') ≠ (bucket, key) →
      getObject (putObject s bucket' key' body contentType).1 bucket key = .ok (.ok data)
  kept_make : ∀ {s : State} {bucket key made : String} {data : Bytes},
    getObject s bucket key = .ok (.ok data) → getObject (makeBucket s made).1 bucket key = .ok (.ok data)

/-- `gzip.compress` and `gzip.decompress` -/
structure Gzip where
  compress : Bytes → Bytes
  decompress : Bytes → Except PyErr Bytes
  decompress_compress : ∀ raw, decompress (compress raw) = .ok raw

/-- `MinIOPayloadStore` -/
structure MinioPayloadStore where
  client : MinioClient
  createBucket : Bool
  text : WireText
  gzip : Gzip
  odd : List Char → Except PyErr Unit

namespace MinioPayloadStore

/-- `_compress_for` -/
def compressFor (key : String) : Except PyErr Bool :=
  if ".json.gz".toList.isSuffixOf key.toList then .ok true
  else if ".json".toList.isSuffixOf key.toList then .ok false
  else .error (.valueError s!"unsupported payload extension for {reprStr key}; expected '.json' or '.json.gz'")

/-- `_is_not_found` -/
def isNotFound (e : ClientError) : Bool :=
  match e.code with
  | some code => code ∈ ["NoSuchKey", "NoSuchBucket"]
  | none => false

variable (store : MinioPayloadStore)

/-- `_serialize` -/
def serialize (payload : Value) (compress : Bool) : Bytes :=
  let raw := store.text.dumps payload
  if compress then store.gzip.compress raw else raw

def decompress (data : Bytes) : Except PyErr Bytes :=
  match store.gzip.decompress data with
  | .error (.other cls msg) =>
    if cls ∈ ["OSError", "BadGzipFile", "EOFError"] then .error (.valueError s!"invalid gzip payload: {msg}")
    else .error (.other cls msg)
  | result => result

/-- `_deserialize` -/
def deserialize (data : Bytes) (compress : Bool) : Except PyErr Value := do
  let data ← if compress then store.decompress data else pure data
  match store.text.loads data with
  | .error msg => .error (.valueError s!"invalid JSON payload: {msg}")
  | .ok payload => .ok payload

/-- `_ensure_bucket` -/
def ensureBucket (s : store.client.State) (bucket : String) : store.client.State × Except PyErr Unit :=
  match store.client.bucketExists s bucket with
  | .error e => (s, .error e.raised)
  | .ok true => (s, .ok ())
  | .ok false =>
    if store.createBucket then
      let (s', made) := store.client.makeBucket s bucket
      (s', made.mapError (·.raised))
    else (s, .error (.valueError s!"bucket {reprStr bucket} does not exist (pass create_bucket=True to create it)"))

def put (s : store.client.State) (storageUri : String) (payload : Value) : store.client.State × Except PyErr Unit :=
  match parseS3Uri store.odd storageUri with
  | .error e => (s, .error e)
  | .ok (bucket, key) =>
    match compressFor key with
    | .error e => (s, .error e)
    | .ok compress =>
      match store.ensureBucket s bucket with
      | (s', .error e) => (s', .error e)
      | (s', .ok ()) =>
        let contentType := if compress then "application/gzip" else "application/json"
        let (s'', written) := store.client.putObject s' bucket key (store.serialize payload compress) contentType
        (s'', written.mapError (·.raised))

def getPayload (s : store.client.State) (storageUri : String) : Except PyErr Value := do
  let (bucket, key) ← parseS3Uri store.odd storageUri
  let compress ← compressFor key
  match store.client.getObject s bucket key with
  | .error ⟨_, .keyError _⟩ => .error (.keyError storageUri)
  | .error e => .error (if isNotFound e then .keyError storageUri else e.raised)
  | .ok response =>
    let data ← response
    store.deserialize data compress

/-! ## What a put keeps and what it stores -/

theorem mapError_eq_ok {ε ε' α : Type} {x : Except ε α} {f : ε → ε'} {a : α} : x.mapError f = .ok a ↔ x = .ok a := by
  cases x with
  | ok b => exact ⟨fun h => congrArg Except.ok (Except.ok.inj h), fun h => congrArg Except.ok (Except.ok.inj h)⟩
  | error e => exact ⟨fun h => (nomatch h), fun h => (nomatch h)⟩

def Holds (s : store.client.State) (bucket key : String) (data : Bytes) : Prop :=
  store.client.getObject s bucket key = .ok (.ok data)

variable {store} {s : store.client.State} {bucket key uri : String} {data : Bytes} {payload : Value}

theorem Holds.ensureBucket (h : store.Holds s bucket key data) (bucket' : String) :
    store.Holds (store.ensureBucket s bucket').1 bucket key data := by
  unfold MinioPayloadStore.ensureBucket
  split
  · exact h
  · exact h
  · split
    · exact store.client.kept_make h
    · exact h

/-- A put to another object keeps what an object holds, also one that fails. -/
theorem Holds.put (h : store.Holds s bucket key data) (hne : parseS3Uri store.odd uri ≠ .ok (bucket, key)) :
    store.Holds (store.put s uri payload).1 bucket key data := by
  unfold MinioPayloadStore.put
  split
  · exact h
  · rename_i bucket' key' hparse
    split
    · exact h
    · have hbucket := h.ensureBucket bucket'
      split
      · rename_i hensure
        rwa [hensure] at hbucket
      · rename_i hensure
        rw [hensure] at hbucket
        exact store.client.kept_put hbucket fun heq => hne (by rw [hparse, heq])

theorem holds_put {compress : Bool} (hparse : parseS3Uri store.odd uri = .ok (bucket, key))
    (hcompress : compressFor key = .ok compress) (hput : (store.put s uri payload).2 = .ok ()) :
    store.Holds (store.put s uri payload).1 bucket key (store.serialize payload compress) := by
  unfold MinioPayloadStore.put at hput ⊢
  rw [hparse] at hput ⊢
  simp only [hcompress] at hput ⊢
  split at hput
  · exact nomatch hput
  · exact store.client.get_put (mapError_eq_ok.mp hput)

theorem deserialize_serialize (hproper : payload.Proper) (compress : Bool) :
    store.deserialize (store.serialize payload compress) compress = .ok (payload.normal false) := by
  cases compress with
  | false => simp [deserialize, serialize, store.text.loads_dumps hproper]
  | true => simp [deserialize, serialize, decompress, store.gzip.decompress_compress, store.text.loads_dumps hproper]

theorem Holds.getPayload {compress : Bool} (h : store.Holds s bucket key (store.serialize payload compress))
    (hparse : parseS3Uri store.odd uri = .ok (bucket, key)) (hcompress : compressFor key = .ok compress)
    (hproper : payload.Proper) : store.getPayload s uri = .ok (payload.normal false) := by
  unfold MinioPayloadStore.getPayload
  rw [hparse]
  simp only [ok_bind, hcompress]
  rw [h]
  exact deserialize_serialize hproper compress

end MinioPayloadStore

/-! ## Runs of puts -/

/-- A payload that the API or a landing puts: its reference is not empty, and nothing else is asked of the texts. -/
structure ReportPut extends ReportAddress where
  payload : Value
  accepted : reportRef ≠ ""
  proper : payload.Proper

namespace MinioPayloadStore

variable (store : MinioPayloadStore) (bucket : BucketName)

def putAll (s : store.client.State) (puts : List ReportPut) : store.client.State :=
  puts.foldl (fun s p => (store.put s (p.uri bucket) p.payload).1) s

/-- What is put under different references: the URI is parsed to the bucket and the key that it was built of, no two
references have one key, and a URI that was stored gives its own payload at any later time. -/
structure UniquelyAddressed (s : store.client.State) (puts : List ReportPut) : Prop where
  parsed : ∀ p ∈ puts, parseS3Uri store.odd (p.uri bucket) = .ok (bucket.name, p.key)
  apart : ∀ p ∈ puts, ∀ q ∈ puts, p.reportRef ≠ q.reportRef →
    parseS3Uri store.odd (p.uri bucket) ≠ parseS3Uri store.odd (q.uri bucket)
  gets : ∀ before p later rest, puts = before ++ p :: (later ++ rest) →
    (store.put (store.putAll bucket s before) (p.uri bucket) p.payload).2 = .ok () →
      store.getPayload (store.putAll bucket s (before ++ p :: later)) (p.uri bucket) = .ok (p.payload.normal false)

variable {store bucket} {s : store.client.State} {puts : List ReportPut}

theorem putAll_cons {p : ReportPut} : store.putAll bucket s (p :: puts) =
    store.putAll bucket (store.put s (p.uri bucket) p.payload).1 puts := by
  rw [putAll, putAll, List.foldl_cons]

theorem putAll_append {later : List ReportPut} : store.putAll bucket s (puts ++ later) =
    store.putAll bucket (store.putAll bucket s puts) later := List.foldl_append

theorem Holds.putAll {bucket' key : String} {data : Bytes} (h : store.Holds s bucket' key data)
    (hne : ∀ p ∈ puts, parseS3Uri store.odd (p.uri bucket) ≠ .ok (bucket', key)) :
    store.Holds (store.putAll bucket s puts) bucket' key data := by
  induction puts generalizing s with
  | nil => exact h
  | cons p puts ih =>
    obtain ⟨hp, hne⟩ := List.forall_mem_cons.mp hne
    have hput : store.Holds (store.put s (p.uri bucket) p.payload).1 bucket' key data := h.put hp
    rw [putAll_cons]
    exact ih hput hne

theorem compressFor_key (a : ReportAddress) : compressFor a.key = .ok true := by
  have hsuffix : ".json.gz".toList.isSuffixOf a.key.toList = true := by
    rw [List.isSuffixOf_iff_suffix, a.key_toList]
    exact List.suffix_append (a.reportType.toList ++ a.tail) ".json.gz".toList
  exact if_pos hsuffix

theorem get_later {p : ReportPut} {before later : List ReportPut}
    (hparse : parseS3Uri store.odd (p.uri bucket) = .ok (bucket.name, p.key))
    (hput : (store.put (store.putAll bucket s before) (p.uri bucket) p.payload).2 = .ok ())
    (hne : ∀ q ∈ later, parseS3Uri store.odd (q.uri bucket) ≠ .ok (bucket.name, p.key)) :
    store.getPayload (store.putAll bucket s (before ++ p :: later)) (p.uri bucket) = .ok (p.payload.normal false) := by
  have hstored := holds_put hparse (compressFor_key p.toReportAddress) hput
  have hkept := hstored.putAll hne
  rw [putAll_append, putAll_cons]
  exact hkept.getPayload hparse (compressFor_key p.toReportAddress) p.proper

end MinioPayloadStore

/-! ## The puts of submissions and landings -/

section
variable {b : RawBackend} {bucket : BucketName} {uri : String} {payload : Value}

theorem givenOr_ne {given : Option String} {default : String} (h : default ≠ "") : givenOr given default ≠ "" := by
  unfold givenOr
  split
  · split
    · exact h
    · assumption
  · exact h

theorem rep_ne (hex : String) : "rep_" ++ hex ≠ "" := by
  intro h
  have hlength := congrArg String.length h
  rw [String.length_append] at hlength
  exact absurd (Nat.eq_zero_of_add_eq_zero_right hlength) (by decide)

theorem describeReport_uri {report : InlineReportIn} {acceptedAt : Int} {d : ReportDescriptor}
    (h : describeReport b acceptedAt report = .ok d) : d.objectKey =
      b.makeStorageUri report.reportType (givenOr report.reportRef ("rep_" ++ report.uuidHex)) report.reportTs := by
  simp only [describeReport, bind_eq_ok] at h
  obtain ⟨serialized, -, h⟩ := h
  cases h
  rfl

theorem storeReports_puts (hb : b.makeStorageUri = buildS3StorageUri bucket.name) {acceptedAt : Int} :
    ∀ {reports : List InlineReportIn}, (∀ r ∈ reports, r.payload.Proper) →
      .apiPut uri payload ∈ (storeReports b acceptedAt reports).1 → ∃ p : ReportPut, p.uri bucket = uri ∧ p.payload = payload
  | [], _, h => nomatch h
  | report :: reports, hproper, h => by
    obtain ⟨hfirst, hproper⟩ := List.forall_mem_cons.mp hproper
    unfold storeReports at h
    split at h
    · exact nomatch h
    · rename_i d hd
      rcases List.mem_cons.mp h with h | h
      · cases h
        let address : ReportAddress :=
          ⟨report.reportType, givenOr report.reportRef ("rep_" ++ report.uuidHex), report.reportTs⟩
        refine ⟨⟨address, report.payload, givenOr_ne (rep_ne _), hfirst⟩, ?_, rfl⟩
        rw [describeReport_uri hd, hb]
        rfl
      · exact storeReports_puts hb hproper h

theorem submit_puts (hb : b.makeStorageUri = buildS3StorageUri bucket.name) {request : FeatureRequestIn}
    {acceptedAt : Int} (hproper : ∀ r ∈ request.reports, r.payload.Proper)
    (h : .apiPut uri payload ∈ submitFeatureRequest b request acceptedAt) :
    ∃ p : ReportPut, p.uri bucket = uri ∧ p.payload = payload := by
  have hputs := @storeReports_puts b bucket uri payload hb acceptedAt request.reports hproper
  unfold submitFeatureRequest at h
  split at h
  · exact nomatch h
  · split at h
    · exact nomatch h
    · split at h
      · rename_i heq
        rcases List.mem_append.mp h with h | h
        · exact hputs (heq ▸ h)
        · exact nomatch List.mem_singleton.mp h
      · rename_i heq
        exact hputs (heq ▸ h)

theorem land_puts (hb : b.makeStorageUri = buildS3StorageUri bucket.name) {landing : LandingRun} {row : JsonlReportRow}
    {now : Int} (hproper : row.payload.Proper) (h : .landPut uri payload ∈ landReportRow b landing row now) :
    ∃ p : ReportPut, p.uri bucket = uri ∧ p.payload = payload := by
  unfold landReportRow at h
  split at h
  · exact nomatch h
  · rename_i m hm
    simp only [landMeta, bind_eq_ok] at hm
    obtain ⟨entityKey, -, serialized, -, hm⟩ := hm
    simp only [List.mem_cons, List.not_mem_nil, or_false, reduceCtorEq, false_or] at h
    cases h
    let rtype := givenOr row.reportType landing.reportType
    let default := b.deriveReportRef entityKey.encode (givenOr row.sourceName landing.sourceName) rtype
      (b.contentHash serialized)
    let address : ReportAddress := ⟨rtype, givenOr row.reportRef default, row.eventTs⟩
    refine ⟨⟨address, row.payload, givenOr_ne (rep_ne _), hproper⟩, ?_, rfl⟩
    rw [RawReportMeta.fields_of_make hm, hb]
    rfl

/-- A submission can put any payload that can be serialized under any reference that is not empty. -/
theorem exists_submit (hb : b.makeStorageUri = buildS3StorageUri bucket.name) (p : ReportPut) {serialized : Bytes}
    (hs : b.serializePayload p.payload = .ok serialized) (acceptedAt : Int) :
    ∃ request, .apiPut (p.uri bucket) p.payload ∈ submitFeatureRequest b request acceptedAt := by
  let report : InlineReportIn :=
    { sourceName := "s", reportType := p.reportType, schemaVersion := "v1", reportTs := p.reportTs, payload := p.payload,
      reportRef := some p.reportRef, uuidHex := "" }
  obtain ⟨key, hkey⟩ : ∃ key, EntityKey.fromMapping [("user_id", "1")] none = .ok key := ⟨_, rfl⟩
  have href : givenOr (some p.reportRef) ("rep_" ++ "") = p.reportRef := if_neg p.accepted
  have hdescribed : ∃ d, describeReport b acceptedAt report = .ok d := by
    rw [describeReport, hs]
    exact ⟨_, rfl⟩
  obtain ⟨d, hd⟩ := hdescribed
  have huri : d.objectKey = p.uri bucket := by
    rw [describeReport_uri hd, hb, href]
    rfl
  refine ⟨⟨"user", [("user_id", "1")], [report]⟩, ?_⟩
  simp only [submitFeatureRequest, hkey, storeReports, hd, List.isEmpty_cons, Bool.false_eq_true, if_false, huri]
  exact List.mem_cons_self

end

open MinioPayloadStore ReportAddress UrlSplit

/-- For every run of puts under different references: they are uniquely addressed exactly when no address has a character
with a meaning in URLs or begins with a slash, and no two addresses overlap. -/
theorem payloads_addressed_iff (store : MinioPayloadStore) (bucket : BucketName) (s : store.client.State)
    {puts : List ReportPut} (hrefs : (puts.map (·.reportRef)).Nodup) : store.UniquelyAddressed bucket s puts ↔
      (∀ p ∈ puts, p.Plain) ∧ ∀ p ∈ puts, ∀ q ∈ puts, ¬ Overlaps p.toReportAddress q.toReportAddress := by
  constructor
  · intro h
    refine ⟨fun p hp => (parse_uri_iff _ _ _).mp (h.parsed p hp), fun p hp q hq hover => ?_⟩
    by_cases href : p.reportRef = q.reportRef
    · obtain rfl : p = q := List.inj_on_of_nodup_map hrefs hp hq href
      exact not_overlaps_self hover
    · refine h.apart p hp q hq href ?_
      rw [h.parsed p hp, h.parsed q hq, hover.key_eq]
  · rintro ⟨hplain, hover⟩
    have hparsed : ∀ p ∈ puts, parseS3Uri store.odd (p.uri bucket) = .ok (bucket.name, p.key) := fun p hp =>
      (parse_uri_iff _ _ _).mpr (hplain p hp)
    have hapart : ∀ p ∈ puts, ∀ q ∈ puts, p.reportRef ≠ q.reportRef →
        parseS3Uri store.odd (p.uri bucket) ≠ parseS3Uri store.odd (q.uri bucket) := by
      intro p hp q hq href h
      rw [hparsed p hp, hparsed q hq] at h
      rcases (key_eq_iff href).mp (Prod.mk.inj (Except.ok.inj h)).2 with h | h
      · exact hover p hp q hq h
      · exact hover q hq p hp h
    refine ⟨hparsed, hapart, ?_⟩
    rintro before p later rest rfl hput
    have hp : p ∈ before ++ p :: (later ++ rest) := List.mem_append_right _ List.mem_cons_self
    refine get_later (hparsed p hp) hput fun q hq h => ?_
    have hq' : q ∈ before ++ p :: (later ++ rest) :=
      List.mem_append_right _ (List.mem_cons_of_mem _ (List.mem_append_left _ hq))
    have hne : p.reportRef ≠ q.reportRef := by
      rw [List.map_append, List.map_cons] at hrefs
      have hcons := (List.nodup_append.mp hrefs).2.1
      intro heq
      refine (List.nodup_cons.mp hcons).1 ?_
      rw [heq]
      exact List.mem_map_of_mem (List.mem_append_left _ hq)
    exact hapart p hp q hq' hne (by rw [hparsed p hp, h])

/-! ## Two payloads in a bucket -/

structure Buckets where
  names : List String
  objects : List ((String × String) × Bytes)

def missing (code : String) : ClientError := ⟨some code, .other "S3Error" code⟩

def Buckets.get (s : Buckets) (bucket key : String) : Except ClientError (Except PyErr Bytes) :=
  if bucket ∈ s.names then
    match Dict.get? s.objects (bucket, key) with
    | some data => .ok (.ok data)
    | none => .error (missing "NoSuchKey")
  else .error (missing "NoSuchBucket")

theorem Buckets.get_eq_ok {s : Buckets} {bucket key : String} {data : Bytes} : s.get bucket key = .ok (.ok data) ↔
    bucket ∈ s.names ∧ Dict.get? s.objects (bucket, key) = some data := by
  unfold Buckets.get
  by_cases h : bucket ∈ s.names
  · rw [if_pos h]
    cases Dict.get? s.objects (bucket, key) with
    | some found => simp [h]
    | none => simp
  · simp [h]

/-- A client that keeps its objects in memory. -/
def memoryClient : MinioClient where
  State := Buckets
  bucketExists s bucket := .ok (bucket ∈ s.names)
  makeBucket s bucket := ({ s with names := bucket :: s.names }, .ok ())
  putObject s bucket key body _ :=
    if bucket ∈ s.names then ({ s with objects := Dict.set s.objects (bucket, key) body }, .ok ())
    else (s, .error (missing "NoSuchBucket"))
  getObject := Buckets.get
  get_put {s bucket key body contentType} h := by
    by_cases hbucket : bucket ∈ s.names
    · rw [if_pos hbucket]
      exact Buckets.get_eq_ok.mpr ⟨hbucket, Dict.get?_set_self _ _ _⟩
    · rw [if_neg hbucket] at h
      exact nomatch h
  kept_put {s bucket key bucket' key' body data contentType} h hne := by
    by_cases hbucket : bucket' ∈ s.names
    · rw [if_pos hbucket]
      obtain ⟨hnames, hobject⟩ := Buckets.get_eq_ok.mp h
      refine Buckets.get_eq_ok.mpr ⟨hnames, ?_⟩
      rw [Dict.get?_set_ne _ _ hne]
      exact hobject
    · rw [if_neg hbucket]
      exact h
  kept_make {s bucket key made data} h := by
    obtain ⟨hnames, hobject⟩ := Buckets.get_eq_ok.mp h
    exact Buckets.get_eq_ok.mpr ⟨List.mem_cons_of_mem _ hnames, hobject⟩

def incomePayload (income : Int) : Value := .obj [("income", .int income)]

def incomeText : Nat → Bytes
  | 1 => asciiBytes "\x7b\"income\": 1\x7d"
  | _ => asciiBytes "\x7b\"income\": 2\x7d"

def incomeSamples : List (List JsonTok × Bytes) :=
  [(canonicalValueJson (incomePayload 1), incomeText 1), (canonicalValueJson (incomePayload 2), incomeText 2)]

theorem sampleWrite_income_injective : Function.Injective (sampleWrite incomeSamples) := by
  have hone : ∃ b ∈ incomeText 1, b ≠ 0 := ⟨123, by decide, by decide⟩
  have htwo : ∃ b ∈ incomeText 2, b ≠ 0 := ⟨123, by decide, by decide⟩
  have hne : incomeText 1 ≠ incomeText 2 := by decide
  exact sampleWrite_pair_injective hone htwo hne

/-- What `gzip.compress` gives for the two texts, at one time. -/
def incomeGzip : Nat → Bytes
  | 1 => [31, 139, 8, 0, 0, 185, 85, 105, 2, 255, 171, 86, 202, 204, 75, 206, 207, 77, 85, 178, 82, 48, 172, 5, 0, 116,
      200, 186, 104, 13, 0, 0, 0]
  | _ => [31, 139, 8, 0, 0, 185, 85, 105, 2, 255, 171, 86, 202, 204, 75, 206, 207, 77, 85, 178, 82, 48, 170, 5, 0, 183,
      155, 151, 67, 13, 0, 0, 0]

/-- It is the real one on the two texts. -/
def sampleGzip : Gzip where
  compress raw :=
    if raw = incomeText 1 then incomeGzip 1 else if raw = incomeText 2 then incomeGzip 2 else 0 :: raw
  decompress
    | 0 :: raw => .ok raw
    | data =>
      if data = incomeGzip 1 then .ok (incomeText 1) else if data = incomeGzip 2 then .ok (incomeText 2)
      else .error (.other "BadGzipFile" "Not a gzipped file")
  decompress_compress raw := by
    by_cases hone : raw = incomeText 1
    · rw [if_pos hone, hone]
      rfl
    · rw [if_neg hone]
      by_cases htwo : raw = incomeText 2
      · rw [if_pos htwo, htwo]
        rfl
      · rw [if_neg htwo]
        rfl

noncomputable def sampleStore : MinioPayloadStore where
  client := memoryClient
  createBucket := false
  text := .ofInjective (sampleWrite incomeSamples) sampleWrite_income_injective sampleIso sampleIso_injective
  gzip := sampleGzip
  odd _ := .error (.valueError "Invalid IPv6 URL")

def rawReports : BucketName := ⟨"raw-reports", by decide, List.all_eq_true.mp (by decide)⟩

def emptyBucket : Buckets := ⟨["raw-reports"], []⟩

def incomePut (reportRef : String) (accepted : reportRef ≠ "") (income : Int) : ReportPut where
  reportType := "credit_report"
  reportRef := reportRef
  reportTs := 1782122400000000
  payload := incomePayload income
  accepted := accepted
  proper := ⟨List.nodup_singleton _, trivial, trivial⟩

theorem incomePut_plain {reportRef : String} {accepted : reportRef ≠ ""} {income : Int}
    (h : reportRef.toList.all (!hasMeaning ·) = true) : (incomePut reportRef accepted income).Plain := by
  have htype : "credit_report".toList = 'c' :: "redit_report".toList := by decide
  exact ⟨@hasMeaning_of_all "credit_report".toList (by decide), hasMeaning_of_all h, 'c', "redit_report".toList, htype,
    by decide⟩

theorem sampleStore_put {s : Buckets} {uri key : String} {payload : Value} {compress : Bool}
    (hs : "raw-reports" ∈ s.names) (hparse : parseS3Uri sampleStore.odd uri = .ok ("raw-reports", key))
    (hcompress : compressFor key = .ok compress) :
    sampleStore.put s uri payload =
      ({ s with objects := Dict.set s.objects ("raw-reports", key) (sampleStore.serialize payload compress) }, .ok ()) := by
  have hexists : sampleStore.client.bucketExists s "raw-reports" = .ok true := congrArg Except.ok (decide_eq_true hs)
  have hensure : sampleStore.ensureBucket s "raw-reports" = (s, .ok ()) := by
    unfold ensureBucket
    rw [hexists]
    rfl
  have hwritten : ∀ body contentType, sampleStore.client.putObject s "raw-reports" key body contentType =
      ({ s with objects := Dict.set s.objects ("raw-reports", key) body }, .ok ()) := fun _ _ => if_pos hs
  unfold put
  rw [hparse]
  simp only [hcompress, hensure, hwritten]
  rfl

theorem payloads_addressed_iff_two : sampleStore.UniquelyAddressed rawReports emptyBucket
    [incomePut "rep_a" (by decide) 1, incomePut "rep_b" (by decide) 2] := by
  refine (payloads_addressed_iff sampleStore rawReports emptyBucket (by decide)).mpr ⟨?_, ?_⟩
  · simp only [List.forall_mem_cons]
    exact ⟨incomePut_plain (by decide), incomePut_plain (by decide), fun _ h => (nomatch h)⟩
  · intro p _ q hq hover
    have htype : q.reportType = "credit_report" := by
      simp only [List.mem_cons, List.not_mem_nil, or_false] at hq
      rcases hq with rfl | rfl <;> rfl
    have hslash := hover.slash
    rw [htype] at hslash
    exact absurd hslash (by decide)

/-- Two references with a query part are one object: the second payload is what both URIs give. -/
theorem query_refs_collide :
    let first := incomePut "a.json?x" (by decide) 1
    let second := incomePut "a.json?y" (by decide) 2
    first.reportRef ≠ second.reportRef ∧
      sampleStore.getPayload (sampleStore.putAll rawReports emptyBucket [first, second]) (first.uri rawReports) =
        .ok (incomePayload 2) ∧
      ¬ sampleStore.UniquelyAddressed rawReports emptyBucket [first, second] := by
  intro first second
  have hne : first.reportRef ≠ second.reportRef := by decide
  have hfirst : parseS3Uri sampleStore.odd (first.uri rawReports) =
      .ok ("raw-reports", "credit_report/2026/06/22/a.json") := by
    rw [parse_uri]
    decide +kernel
  have hsecond : parseS3Uri sampleStore.odd (second.uri rawReports) =
      .ok ("raw-reports", "credit_report/2026/06/22/a.json") := by
    rw [parse_uri]
    decide +kernel
  have hcompress : compressFor "credit_report/2026/06/22/a.json" = .ok false := by decide +kernel
  refine ⟨hne, ?_, fun h => h.apart first (by simp) second (by simp) hne (hfirst.trans hsecond.symm)⟩
  have hput := @sampleStore_put emptyBucket _ _ first.payload _ (by decide) hfirst hcompress
  have hput' := @sampleStore_put (sampleStore.put emptyBucket (first.uri rawReports) first.payload).1 _ _ second.payload _
    (by rw [hput]; decide) hsecond hcompress
  have hstored := holds_put hsecond hcompress (congrArg Prod.snd hput')
  exact hstored.getPayload hfirst hcompress second.proper

end ClearFeature
