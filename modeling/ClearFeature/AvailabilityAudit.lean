import ClearFeature.Raw
import Mathlib.Data.List.Induction

/-!
# The availability audit (`fs_core/raw/meta_repository.py`)

An upsert inserts a row, refuses it, corrects the availability of the stored
row, or is a duplicate. The audit entries of a reference lead from the
availability of its first insert to the current one.
-/

namespace ClearFeature

/-! ## One upsert -/

theorem RawReportMetaFields.check_ok {f : RawReportMetaFields} : f.check = .ok () ↔
    isBlank f.reportRef = false ∧ 0 ≤ f.payloadSizeBytes ∧
      (f.availabilitySource = some .sourceProvided → ∀ a ∈ f.availableAt, f.reportTs ≤ a) ∧
      (f.availabilitySource = none ∨ f.availabilitySource = some .sourceProvided ∨
        f.availabilitySource = some .ingestionTime) := by
  unfold check
  simp only [bind_eq_ok, raiseIf_eq_ok]
  constructor
  · rintro ⟨_, hblank, _, hsize, _, htimes, hsource⟩
    refine ⟨by simpa using hblank, by omega, fun h a ha => ?_, ?_⟩
    · by_contra hlt
      exact htimes ⟨h, a, ha, by omega⟩
    · by_contra hno
      simp only [not_or] at hno
      exact hsource hno
  · rintro ⟨hblank, hsize, htimes, hsource⟩
    refine ⟨(), by simp [hblank], (), by omega, (), ?_, ?_⟩
    · rintro ⟨h, a, ha, hlt⟩
      have := htimes h a ha
      omega
    · rintro ⟨hnone, hprovided, hingested⟩
      rcases hsource with h | h | h
      · exact hnone h
      · exact hprovided h
      · exact hingested h

theorem RawReportMeta.make_of_check {f : RawReportMetaFields} (h : f.check = .ok ()) : RawReportMeta.make f = .ok ⟨f, h⟩ := by
  unfold RawReportMeta.make
  split
  · rfl
  · rename_i e he
    rw [h] at he
    cases he

namespace MetaRepository

/-- A trusted availability of the same report is not before the time of the stored row either. -/
theorem corrected_ok {existing incoming : RawReportMeta} (hid : existing.identity = incoming.identity)
    (htrusted : incoming.availabilitySource = some .sourceProvided) : ∃ m, corrected existing incoming = .ok m := by
  obtain ⟨hblank, hsize, -, -⟩ := RawReportMetaFields.check_ok.mp existing.ok
  obtain ⟨-, -, htimes, hsource⟩ := RawReportMetaFields.check_ok.mp incoming.ok
  have hts : existing.reportTs = incoming.reportTs := congrArg RawReportIdentity.reportTs hid
  have hcheck : RawReportMetaFields.check { existing.toRawReportMetaFields with
      availableAt := incoming.availableAt, availabilitySource := incoming.availabilitySource } = .ok () := by
    refine RawReportMetaFields.check_ok.mpr ⟨hblank, hsize, fun _ a ha => ?_, hsource⟩
    exact hts ▸ htimes htrusted a ha
  exact ⟨_, RawReportMeta.make_of_check hcheck⟩

/-- What an upsert of `incoming` comes to. -/
inductive Upserted (repo : MetaRepository) (incoming : RawReportMeta) (context : Option CorrectionContext) (now : Int) :
    MetaRepository × Except PyErr Bool → Prop
  | inserted (h : Dict.get? repo.metas incoming.reportRef = none) :
    Upserted repo incoming context now ({ repo with metas := Dict.set repo.metas incoming.reportRef incoming }, .ok true)
  | conflict {existing : RawReportMeta} (h : Dict.get? repo.metas incoming.reportRef = some existing)
      (hid : existing.identity ≠ incoming.identity) :
    Upserted repo incoming context now (repo, .error (.other "RawReportMetaConflictError" incoming.reportRef))
  | correction {existing m : RawReportMeta} (h : Dict.get? repo.metas incoming.reportRef = some existing)
      (hid : existing.identity = incoming.identity) (htrusted : incoming.availabilitySource = some .sourceProvided)
      (hsome : incoming.availableAt ≠ none) (hnew : incoming.availableAt ≠ existing.availableAt)
      (hm : m.toRawReportMetaFields = { existing.toRawReportMetaFields with
        availableAt := incoming.availableAt, availabilitySource := incoming.availabilitySource }) :
    Upserted repo incoming context now ({
      metas := Dict.set repo.metas incoming.reportRef m
      availabilityChanges := repo.availabilityChanges ++ [buildAvailabilityChange existing incoming context now] }, .ok true)
  | duplicate {existing : RawReportMeta} (h : Dict.get? repo.metas incoming.reportRef = some existing)
      (hid : existing.identity = incoming.identity)
      (hsame : incoming.availabilitySource = some .sourceProvided → incoming.availableAt ≠ none →
        incoming.availableAt = existing.availableAt) :
    Upserted repo incoming context now (repo, .ok false)

theorem upserted (repo : MetaRepository) (incoming : RawReportMeta) (context : Option CorrectionContext) (now : Int) :
    Upserted repo incoming context now (repo.upsert incoming context now) := by
  unfold upsert
  cases he : Dict.get? repo.metas incoming.reportRef with
  | none => exact .inserted he
  | some existing =>
    dsimp only
    by_cases hc : rawMetaConflicts existing incoming = true
    · rw [if_pos hc]
      exact .conflict he (of_decide_eq_true hc)
    · rw [if_neg hc]
      have hid : existing.identity = incoming.identity := by simpa [rawMetaConflicts] using hc
      by_cases ha : isAvailabilityCorrection existing incoming = true
      · rw [if_pos ha]
        have ha' := ha
        unfold isAvailabilityCorrection at ha'
        rw [Bool.and_eq_true, decide_eq_true_iff] at ha'
        obtain ⟨-, htrusted, hsome, hnew⟩ := ha'
        obtain ⟨m, hm⟩ := corrected_ok hid htrusted
        rw [hm]
        exact .correction he hid htrusted hsome hnew (RawReportMeta.fields_of_make hm)
      · rw [if_neg ha]
        refine .duplicate he hid fun htrusted hsome => ?_
        by_contra hnew
        refine ha ?_
        unfold isAvailabilityCorrection
        rw [Bool.and_eq_true, decide_eq_true_iff]
        exact ⟨by simpa using hc, htrusted, hsome, hnew⟩

end MetaRepository

/-! ## Runs of upserts -/

structure MetaUpsert where
  incoming : RawReportMeta
  context : Option CorrectionContext := none
  now : Int

namespace MetaRepository

def after (repo : MetaRepository) (u : MetaUpsert) : MetaRepository := (repo.upsert u.incoming u.context u.now).1

def afterAll (repo : MetaRepository) (us : List MetaUpsert) : MetaRepository := us.foldl after repo

/-- The audit entries of a reference. -/
def auditOf (repo : MetaRepository) (ref : String) : List AvailabilityChange :=
  repo.availabilityChanges.filter fun c => c.reportRef = ref

/-- A row that is there is another one afterwards. -/
def changesRow (repo : MetaRepository) (ref : String) (u : MetaUpsert) : Bool :=
  match Dict.get? repo.metas ref with
  | none => false
  | some m => decide (Dict.get? (repo.after u).metas ref ≠ some m)

def effectiveChanges (ref : String) : MetaRepository → List MetaUpsert → Nat
  | _, [] => 0
  | repo, u :: us => (if repo.changesRow ref u then 1 else 0) + effectiveChanges ref (repo.after u) us

end MetaRepository

abbrev Availability := Option Int × Option AvailabilitySource

def RawReportMeta.availability (m : RawReportMeta) : Availability := (m.availableAt, m.availabilitySource)

/-- The first row that was sent for a reference. -/
def firstInsert (us : List MetaUpsert) (ref : String) : Option RawReportMeta :=
  (us.find? fun u => u.incoming.reportRef = ref).map fun u => u.incoming

/-- The entries lead from one availability to another: each starts where the one before it ended, at a trusted
availability of another time. -/
def Chained : Availability → List AvailabilityChange → Availability → Prop
  | a, [], b => a = b
  | a, c :: cs, b => (c.oldAvailableAt, c.oldAvailabilitySource) = a ∧ c.newAvailableAt ≠ c.oldAvailableAt ∧
    c.newAvailabilitySource = some .sourceProvided ∧ Chained (c.newAvailableAt, c.newAvailabilitySource) cs b

theorem Chained.snoc {c : AvailabilityChange} : ∀ {a b : Availability} {cs : List AvailabilityChange}, Chained a cs b →
    (c.oldAvailableAt, c.oldAvailabilitySource) = b → c.newAvailableAt ≠ c.oldAvailableAt →
    c.newAvailabilitySource = some .sourceProvided →
    Chained a (cs ++ [c]) (c.newAvailableAt, c.newAvailabilitySource)
  | a, b, [], h, hold, hnew, htrusted => ⟨hold.trans h.symm, hnew, htrusted, rfl⟩
  | a, b, _ :: cs, ⟨ha, hne, ht, h⟩, hold, hnew, htrusted => ⟨ha, hne, ht, h.snoc hold hnew htrusted⟩

/-- The row of a reference and its audit entries, after its first insert. -/
def AuditedFrom (repo : MetaRepository) (ref : String) : Option RawReportMeta → Prop
  | none => Dict.get? repo.metas ref = none ∧ repo.auditOf ref = []
  | some first => ∃ m, Dict.get? repo.metas ref = some m ∧ m.reportRef = ref ∧ m.identity = first.identity ∧
    m.createdAt = first.createdAt ∧ Chained first.availability (repo.auditOf ref) m.availability

namespace MetaRepository

/-- Rows are kept under their references. -/
def Keyed (repo : MetaRepository) : Prop := ∀ ref m, Dict.get? repo.metas ref = some m → m.reportRef = ref

/-- What one upsert does to a reference. -/
inductive RowStep (repo : MetaRepository) (u : MetaUpsert) (ref : String) : Prop
  | same (hrow : Dict.get? (repo.after u).metas ref = Dict.get? repo.metas ref)
      (haudit : (repo.after u).auditOf ref = repo.auditOf ref)
      (hkept : u.incoming.reportRef = ref → ∃ m, Dict.get? repo.metas ref = some m)
  | inserted (href : u.incoming.reportRef = ref) (hnone : Dict.get? repo.metas ref = none)
      (hrow : Dict.get? (repo.after u).metas ref = some u.incoming)
      (haudit : (repo.after u).auditOf ref = repo.auditOf ref)
  | corrected {existing m : RawReportMeta} (href : u.incoming.reportRef = ref)
      (hsome : Dict.get? repo.metas ref = some existing) (hrow : Dict.get? (repo.after u).metas ref = some m)
      (hm : m.toRawReportMetaFields = { existing.toRawReportMetaFields with
        availableAt := u.incoming.availableAt, availabilitySource := u.incoming.availabilitySource })
      (htrusted : u.incoming.availabilitySource = some .sourceProvided)
      (hnew : u.incoming.availableAt ≠ existing.availableAt)
      (haudit : (repo.after u).auditOf ref =
        repo.auditOf ref ++ [buildAvailabilityChange existing u.incoming u.context u.now])

section
variable {repo : MetaRepository} (hk : repo.Keyed) (u : MetaUpsert) (ref : String)

theorem after_eq {out : MetaRepository × Except PyErr Bool} (h : repo.upsert u.incoming u.context u.now = out) :
    repo.after u = out.1 := congrArg Prod.fst h

include hk

theorem rowStep : RowStep repo u ref := by
  have hcase := repo.upserted u.incoming u.context u.now
  generalize hout : repo.upsert u.incoming u.context u.now = out at hcase
  have hafter := after_eq u hout
  by_cases href : u.incoming.reportRef = ref
  · subst href
    cases hcase with
    | inserted h =>
      refine .inserted rfl h ?_ ?_
      · rw [hafter]
        exact Dict.get?_set_self _ _ _
      · rw [hafter]
        rfl
    | conflict h hid => exact .same (by rw [hafter]) (by rw [hafter]) fun _ => ⟨_, h⟩
    | duplicate h hid hsame => exact .same (by rw [hafter]) (by rw [hafter]) fun _ => ⟨_, h⟩
    | @correction existing m h hid htrusted hsome hnew hm =>
      refine .corrected rfl h ?_ hm htrusted hnew ?_
      · rw [hafter]
        exact Dict.get?_set_self _ _ _
      · rw [hafter]
        unfold auditOf
        rw [List.filter_append]
        have hchange : (buildAvailabilityChange existing u.incoming u.context u.now).reportRef = u.incoming.reportRef :=
          hk _ _ h
        rw [List.filter_cons_of_pos (by simp [hchange]), List.filter_nil]
  · cases hcase with
    | inserted h =>
      refine .same ?_ ?_ fun h => absurd h href
      · rw [hafter]
        exact Dict.get?_set_ne _ _ href
      · rw [hafter]
        rfl
    | conflict h hid => exact .same (by rw [hafter]) (by rw [hafter]) fun h => absurd h href
    | duplicate h hid hsame => exact .same (by rw [hafter]) (by rw [hafter]) fun h => absurd h href
    | @correction existing m h hid htrusted hsome hnew hm =>
      refine .same ?_ ?_ fun h => absurd h href
      · rw [hafter]
        exact Dict.get?_set_ne _ _ href
      · rw [hafter]
        unfold auditOf
        rw [List.filter_append]
        have hchange : (buildAvailabilityChange existing u.incoming u.context u.now).reportRef ≠ ref :=
          fun he => href ((hk _ _ h).symm.trans he)
        rw [List.filter_cons_of_neg (by simp [hchange]), List.filter_nil, List.append_nil]

theorem Keyed.after : (repo.after u).Keyed := by
  intro ref m hm
  cases rowStep hk u ref with
  | same hrow haudit hkept => exact hk ref m (hrow ▸ hm)
  | inserted href hnone hrow haudit =>
    rw [hrow] at hm
    cases hm
    exact href
  | corrected href hsome hrow hfields htrusted hnew haudit =>
    rw [hrow] at hm
    cases hm
    rw [hfields]
    exact hk _ _ hsome

/-- A step adds an entry if it changes a row that is there. -/
theorem auditOf_length : ((repo.after u).auditOf ref).length =
    (repo.auditOf ref).length + if repo.changesRow ref u then 1 else 0 := by
  unfold changesRow
  cases rowStep hk u ref with
  | same hrow haudit hkept =>
    rw [haudit, hrow]
    cases Dict.get? repo.metas ref with
    | none => rfl
    | some m => simp
  | inserted href hnone hrow haudit =>
    rw [haudit, hnone]
    rfl
  | @corrected existing m href hsome hrow hm htrusted hnew haudit =>
    have hne : m ≠ existing := by
      intro he
      refine hnew ?_
      rw [← he, hm]
    rw [haudit, hsome, hrow, List.length_append]
    simp [hne]

theorem auditedFrom_step {first : Option RawReportMeta} (h : AuditedFrom repo ref first) :
    AuditedFrom (repo.after u) ref (first.or (if u.incoming.reportRef = ref then some u.incoming else none)) := by
  cases first with
  | none =>
    obtain ⟨hnone, hempty⟩ := h
    rw [Option.none_or]
    cases rowStep hk u ref with
    | same hrow haudit hkept =>
      have href : u.incoming.reportRef ≠ ref := by
        intro he
        obtain ⟨m, hm⟩ := hkept he
        rw [hnone] at hm
        cases hm
      rw [if_neg href]
      exact ⟨hrow.trans hnone, haudit.trans hempty⟩
    | inserted href _ hrow haudit =>
      rw [if_pos href]
      refine ⟨_, hrow, href, rfl, rfl, ?_⟩
      rw [haudit, hempty]
      rfl
    | corrected href hsome hrow hm htrusted hnew haudit =>
      rw [hnone] at hsome
      cases hsome
  | some first =>
    obtain ⟨m, hm, hkey, hid, hcreated, hchain⟩ := h
    rw [Option.some_or]
    cases rowStep hk u ref with
    | same hrow haudit hkept => exact ⟨m, hrow.trans hm, hkey, hid, hcreated, by rw [haudit]; exact hchain⟩
    | inserted href hnone hrow haudit =>
      rw [hm] at hnone
      cases hnone
    | @corrected existing m' href hsome hrow hfields htrusted hnew haudit =>
      rw [hm] at hsome
      cases hsome
      refine ⟨m', hrow, ?_, ?_, ?_, ?_⟩
      · rw [hfields]
        exact hkey
      · unfold RawReportMeta.identity at hid ⊢
        rw [hfields]
        exact hid
      · rw [hfields]
        exact hcreated
      · have hsnoc := hchain.snoc (c := buildAvailabilityChange m u.incoming u.context u.now) rfl hnew htrusted
        rw [haudit]
        unfold RawReportMeta.availability at hsnoc ⊢
        rw [hfields]
        exact hsnoc

/-- A trusted availability stays trusted. -/
theorem trusted_step {m : RawReportMeta} (hm : Dict.get? repo.metas ref = some m)
    (htrusted : m.availabilitySource = some .sourceProvided) :
    ∃ m', Dict.get? (repo.after u).metas ref = some m' ∧ m'.availabilitySource = some .sourceProvided := by
  cases rowStep hk u ref with
  | same hrow haudit hkept => exact ⟨m, hrow.trans hm, htrusted⟩
  | inserted href hnone hrow haudit =>
    rw [hm] at hnone
    cases hnone
  | corrected href hsome hrow hfields htrusted' hnew haudit =>
    refine ⟨_, hrow, ?_⟩
    rw [hfields]
    exact htrusted'

end

/-- A refused upsert changes nothing. -/
theorem after_error {repo : MetaRepository} {u : MetaUpsert} {e : PyErr}
    (h : (repo.upsert u.incoming u.context u.now).2 = .error e) : repo.after u = repo := by
  have hcase := repo.upserted u.incoming u.context u.now
  generalize hout : repo.upsert u.incoming u.context u.now = out at hcase h
  rw [after_eq u hout]
  cases hcase with
  | inserted _ => cases h
  | conflict _ _ => rfl
  | correction _ _ _ _ _ _ => cases h
  | duplicate _ _ _ => rfl

/-! ## Runs -/

theorem afterAll_snoc (repo : MetaRepository) (us : List MetaUpsert) (u : MetaUpsert) :
    repo.afterAll (us ++ [u]) = (repo.afterAll us).after u := List.foldl_append ..

theorem keyed_afterAll {repo : MetaRepository} (hk : repo.Keyed) : ∀ us : List MetaUpsert, (repo.afterAll us).Keyed := by
  intro us
  induction us generalizing repo with
  | nil => exact hk
  | cons u us ih => exact ih (hk.after u)

theorem auditOf_afterAll (ref : String) : ∀ {repo : MetaRepository}, repo.Keyed → ∀ us : List MetaUpsert,
    ((repo.afterAll us).auditOf ref).length = (repo.auditOf ref).length + effectiveChanges ref repo us
  | repo, hk, [] => rfl
  | repo, hk, u :: us => by
    have ih := auditOf_afterAll ref (hk.after u) us
    have hstep := auditOf_length hk u ref
    rw [effectiveChanges]
    have hall : repo.afterAll (u :: us) = (repo.after u).afterAll us := rfl
    rw [hall]
    omega

theorem trusted_afterAll (ref : String) : ∀ {repo : MetaRepository}, repo.Keyed → ∀ (us : List MetaUpsert) {m : RawReportMeta},
    Dict.get? repo.metas ref = some m → m.availabilitySource = some .sourceProvided →
    ∃ m', Dict.get? (repo.afterAll us).metas ref = some m' ∧ m'.availabilitySource = some .sourceProvided
  | repo, hk, [], m, hm, htrusted => ⟨m, hm, htrusted⟩
  | repo, hk, u :: us, m, hm, htrusted => by
    obtain ⟨m', hm', htrusted'⟩ := trusted_step hk u ref hm htrusted
    exact trusted_afterAll ref (hk.after u) us hm' htrusted'

theorem keyed_empty : Keyed {} := fun _ _ h => nomatch h

end MetaRepository

open MetaRepository

theorem firstInsert_snoc (us : List MetaUpsert) (u : MetaUpsert) (ref : String) : firstInsert (us ++ [u]) ref =
    (firstInsert us ref).or (if u.incoming.reportRef = ref then some u.incoming else none) := by
  unfold firstInsert
  rw [List.find?_append]
  cases us.find? fun u => decide (u.incoming.reportRef = ref) with
  | some u' => rfl
  | none =>
    by_cases h : u.incoming.reportRef = ref
    · simp [h]
    · simp [h]

theorem auditedFrom_afterAll (us : List MetaUpsert) (ref : String) :
    AuditedFrom (afterAll {} us) ref (firstInsert us ref) := by
  induction us using List.reverseRecOn with
  | nil => exact ⟨rfl, rfl⟩
  | append_singleton us u ih =>
    rw [afterAll_snoc, firstInsert_snoc]
    exact auditedFrom_step (keyed_afterAll keyed_empty us) u ref ih

/-- The audit of a reference after a run of upserts, from an empty repository. -/
structure AvailabilityAudited (us : List MetaUpsert) (ref : String) : Prop where
  /-- The entries lead from the first insert to the row, whose identity and `created_at` are those of the first insert. -/
  replay : AuditedFrom (afterAll {} us) ref (firstInsert us ref)
  entries : ((afterAll {} us).auditOf ref).length = effectiveChanges ref {} us
  trusted : ∀ us₁ us₂, us = us₁ ++ us₂ → ∀ m, Dict.get? (afterAll {} us₁).metas ref = some m →
    m.availabilitySource = some .sourceProvided →
    ∃ m', Dict.get? (afterAll {} us).metas ref = some m' ∧ m'.availabilitySource = some .sourceProvided
  rejected : ∀ us₁ u us₂ e, us = us₁ ++ u :: us₂ →
    ((afterAll {} us₁).upsert u.incoming u.context u.now).2 = .error e → (afterAll {} us₁).after u = afterAll {} us₁

theorem availability_audit (us : List MetaUpsert) (ref : String) : AvailabilityAudited us ref where
  replay := auditedFrom_afterAll us ref
  entries := (auditOf_afterAll ref keyed_empty us).trans (Nat.zero_add _)
  trusted := by
    intro us₁ us₂ hus m hm htrusted
    have hall : afterAll {} us = (afterAll {} us₁).afterAll us₂ := by
      rw [hus]
      exact List.foldl_append ..
    rw [hall]
    exact trusted_afterAll ref (keyed_afterAll keyed_empty us₁) us₂ hm htrusted
  rejected := fun _ _ _ _ _ h => after_error h

/-! ## A report that is corrected -/

def bankReport (contentHash : String) (availableAt : Option Int) (source : Option AvailabilitySource) :
    RawReportMetaFields where
  reportRef := "rep_1"
  reportType := "bank"
  entityType := "user"
  entityKey := ⟨[("user_id", "7")], "user_id=7", by decide⟩
  reportTs := 10
  payloadSizeBytes := 2
  contentHash := contentHash
  storageUri := "s3://raw/rep_1"
  createdAt := 20
  availableAt := availableAt
  availabilitySource := source

/-- A first insert, the same row again, a trusted availability, and another content under the reference. -/
def correctedReport : List MetaUpsert :=
  [⟨⟨bankReport "h1" (some 20) (some .ingestionTime), by decide⟩, none, 20⟩,
   ⟨⟨bankReport "h1" (some 20) (some .ingestionTime), by decide⟩, none, 30⟩,
   ⟨⟨bankReport "h1" (some 15) (some .sourceProvided), by decide⟩, none, 40⟩,
   ⟨⟨bankReport "h2" (some 15) (some .sourceProvided), by decide⟩, none, 50⟩]

theorem availability_audit_corrected : AvailabilityAudited correctedReport "rep_1" ∧
    ((afterAll {} correctedReport).auditOf "rep_1").length = 1 ∧
    (Dict.get? (afterAll {} correctedReport).metas "rep_1").map (fun m => (m.contentHash, m.availability)) =
      some ("h1", some 15, some .sourceProvided) :=
  ⟨availability_audit correctedReport "rep_1", by decide +kernel, by decide +kernel⟩

end ClearFeature
