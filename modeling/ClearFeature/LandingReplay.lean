import ClearFeature.LandingRows

/-!
# A landing again

The second time every reference stands for what it stood for, so the same rows
are refused and the same payloads are put. What may be written is the
availability of a reference that the first landing left at the last of several.
-/

namespace ClearFeature

open Items MetaRepository

/-! ## What an upsert writes -/

/-- The availability a row vouches for. -/
def RawReportMeta.trustedAt (m : RawReportMeta) : Option Int :=
  if m.availabilitySource = some .sourceProvided then m.availableAt else none

/-- An upsert writes a new row, or a trusted availability that differs. -/
def Writes (repo : MetaRepository) (m : RawReportMeta) : Prop :=
  match Dict.get? repo.metas m.reportRef with
  | none => True
  | some existing => existing.identity = m.identity ∧ m.trustedAt ≠ none ∧ m.trustedAt ≠ existing.availableAt

section
variable {repo : MetaRepository}

variable (repo) in
theorem upsert_true_iff (context : Option CorrectionContext) (now : Int) (m : RawReportMeta) :
    (repo.upsert m context now).2 = .ok true ↔ Writes repo m := by
  have hcase := repo.upserted m context now
  generalize repo.upsert m context now = out at hcase
  unfold Writes
  cases hcase with
  | inserted h =>
    rw [h]
    exact iff_of_true rfl trivial
  | conflict h hid =>
    rw [h]
    exact iff_of_false (fun h => nomatch h) fun h => hid h.1
  | correction h hid htrusted hsome hnew _ =>
    rw [h]
    have hat : m.trustedAt = m.availableAt := if_pos htrusted
    exact iff_of_true rfl ⟨hid, hat ▸ hsome, hat ▸ hnew⟩
  | @duplicate existing h hid hsame =>
    rw [h]
    refine iff_of_false (fun h => nomatch h) fun ⟨_, hsome, hnew⟩ => ?_
    by_cases htrusted : m.availabilitySource = some .sourceProvided
    · have hat : m.trustedAt = m.availableAt := if_pos htrusted
      exact hnew (hat.trans (hsame htrusted (hat ▸ hsome)))
    · exact hsome (if_neg htrusted)

theorem after_of_not_writes {u : MetaUpsert} (h : ¬ Writes repo u.incoming) : repo.after u = repo := by
  have hnot := (upsert_true_iff repo u.context u.now u.incoming).not.mpr h
  have hcase := repo.upserted u.incoming u.context u.now
  generalize hout : repo.upsert u.incoming u.context u.now = out at hcase hnot
  rw [after_eq u hout]
  cases hcase with
  | inserted _ => exact absurd rfl hnot
  | conflict _ _ => rfl
  | correction _ _ _ _ _ _ => exact absurd rfl hnot
  | duplicate _ _ _ => rfl

/-- A stored availability changes to a trusted one of its own report only. -/
theorem after_availableAt {u : MetaUpsert} {ref : String} {m : RawReportMeta} (h : Dict.get? repo.metas ref = some m) :
    ∃ m', Dict.get? (repo.after u).metas ref = some m' ∧ m'.identity = m.identity ∧
      (m'.availableAt = m.availableAt ∨ u.incoming.reportRef = ref ∧ u.incoming.identity = m.identity ∧
        u.incoming.trustedAt ≠ none ∧ m'.availableAt = u.incoming.trustedAt) := by
  have hcase := repo.upserted u.incoming u.context u.now
  generalize hout : repo.upsert u.incoming u.context u.now = out at hcase
  rw [after_eq u hout]
  cases hcase with
  | inserted hnone =>
    have hne : u.incoming.reportRef ≠ ref := by
      intro he
      rw [he, h] at hnone
      cases hnone
    exact ⟨m, (Dict.get?_set_ne _ _ hne).trans h, rfl, .inl rfl⟩
  | conflict _ _ => exact ⟨m, h, rfl, .inl rfl⟩
  | duplicate _ _ _ => exact ⟨m, h, rfl, .inl rfl⟩
  | @correction existing m' hsome hid htrusted havailable hnew hm =>
    by_cases he : u.incoming.reportRef = ref
    · rw [he, h] at hsome
      cases hsome
      have hat : u.incoming.trustedAt = u.incoming.availableAt := if_pos htrusted
      refine ⟨m', he ▸ Dict.get?_set_self _ _ _, ?_, .inr ⟨he, hid.symm, hat ▸ havailable, ?_⟩⟩
      · unfold RawReportMeta.identity
        rw [hm]
      · rw [hat, hm]
    · exact ⟨m, (Dict.get?_set_ne _ _ he).trans h, rfl, .inl rfl⟩

/-- A trusted availability is the stored one afterwards. -/
theorem after_trusted {u : MetaUpsert} {a : Int} (hat : u.incoming.trustedAt = some a)
    (hid : standing repo [u.incoming] u.incoming.reportRef = some u.incoming.identity) :
    ∃ m', Dict.get? (repo.after u).metas u.incoming.reportRef = some m' ∧ m'.identity = u.incoming.identity ∧
      m'.availableAt = some a := by
  have htrusted : u.incoming.availabilitySource = some .sourceProvided := by
    by_contra hno
    rw [RawReportMeta.trustedAt, if_neg hno] at hat
    cases hat
  have havailable : u.incoming.availableAt = some a := (if_pos htrusted).symm.trans hat
  have hcase := repo.upserted u.incoming u.context u.now
  generalize hout : repo.upsert u.incoming u.context u.now = out at hcase
  rw [after_eq u hout]
  cases hcase with
  | inserted _ => exact ⟨_, Dict.get?_set_self _ _ _, rfl, havailable⟩
  | conflict h hne =>
    rw [standing_of_stored h] at hid
    exact absurd (Option.some.inj hid) hne
  | @duplicate existing h hid hsame =>
    refine ⟨existing, h, hid, (hsame htrusted ?_).symm.trans havailable⟩
    rw [havailable]
    exact Option.some_ne_none a
  | @correction existing m' hsome hid _ _ hnew hm =>
    refine ⟨m', Dict.get?_set_self _ _ _, ?_, ?_⟩
    · unfold RawReportMeta.identity at hid ⊢
      rw [hm]
      exact hid
    · rw [hm]
      exact havailable

/-! ## The availability that is left -/

/-- Two rows that vouch for the availability of the same standing report agree. -/
def AvailabilitySettled (repo : MetaRepository) (ms : List RawReportMeta) : Prop :=
  ∀ m₁ ∈ ms, ∀ m₂ ∈ ms, m₁.reportRef = m₂.reportRef → standing repo ms m₁.reportRef = some m₁.identity →
    m₂.identity = m₁.identity → m₁.trustedAt ≠ none → m₂.trustedAt ≠ none → m₁.trustedAt = m₂.trustedAt

theorem availableAt_kept {ref : String} {a : Int} : ∀ (us : List MetaUpsert) (repo : MetaRepository) {m : RawReportMeta},
    Dict.get? repo.metas ref = some m → m.availableAt = some a →
    (∀ u ∈ us, u.incoming.reportRef = ref → u.incoming.identity = m.identity → u.incoming.trustedAt ≠ none →
      u.incoming.trustedAt = some a) →
    ∃ m', Dict.get? (repo.afterAll us).metas ref = some m' ∧ m'.availableAt = some a
  | [], repo, m, h, hat, _ => ⟨m, h, hat⟩
  | u :: us, repo, m, h, hat, hall => by
    obtain ⟨m', hm', hid, hcase⟩ := after_availableAt (u := u) h
    have hat' : m'.availableAt = some a := by
      rcases hcase with hsame | ⟨href, hidentity, hsome, hnew⟩
      · exact hsame.trans hat
      · exact hnew.trans (hall u List.mem_cons_self href hidentity hsome)
    refine availableAt_kept us (repo.after u) hm' hat' fun u' hu' href hidentity hsome => ?_
    exact hall u' (List.mem_cons_of_mem _ hu') href (hidentity.trans hid) hsome

theorem availableAt_left {ref : String} {identity : RawReportIdentity} {a : Int} :
    ∀ (us : List MetaUpsert) (repo : MetaRepository), standing repo (us.map MetaUpsert.incoming) ref = some identity →
    (∃ u ∈ us, u.incoming.reportRef = ref ∧ u.incoming.identity = identity ∧ u.incoming.trustedAt = some a) →
    (∀ u ∈ us, u.incoming.reportRef = ref → u.incoming.identity = identity → u.incoming.trustedAt ≠ none →
      u.incoming.trustedAt = some a) →
    ∃ m', Dict.get? (repo.afterAll us).metas ref = some m' ∧ m'.availableAt = some a
  | [], _, _, h, _ => by
    obtain ⟨u, hu, -⟩ := h
    cases hu
  | u :: us, repo, hstands, ⟨v, hv, href, hid, hat⟩, hall => by
    have hall' : ∀ u' ∈ us, u'.incoming.reportRef = ref → u'.incoming.identity = identity →
        u'.incoming.trustedAt ≠ none → u'.incoming.trustedAt = some a :=
      fun u' hu' => hall u' (List.mem_cons_of_mem _ hu')
    rcases List.mem_cons.mp hv with rfl | hv
    · subst href
      have hone : standing repo [v.incoming] v.incoming.reportRef = some v.incoming.identity := by
        rw [hid, ← hstands]
        unfold standing
        rw [List.map_cons, List.find?_cons_of_pos (by simp), List.find?_cons_of_pos (by simp)]
      obtain ⟨m', hm', hid', hat'⟩ := after_trusted hat hone
      exact availableAt_kept us _ hm' hat' fun u' hu' href' hidentity hsome =>
        hall' u' hu' href' (hidentity.trans (hid'.trans hid)) hsome
    · rw [List.map_cons, ← standing_after] at hstands
      exact availableAt_left us (repo.after u) hstands ⟨v, hv, href, hid, hat⟩ hall'

end

/-! ## The same rows -/

/-- What a row says whenever it is landed. -/
def RawReportMeta.report (m : RawReportMeta) : String × RawReportIdentity × Option Int :=
  (m.reportRef, m.identity, m.trustedAt)

theorem make_report {f : RawReportMetaFields} (createdAt : Int) (availableAt : Option Int)
    (h : f.availabilitySource = some .sourceProvided → availableAt = f.availableAt) :
    ((RawReportMeta.make { f with createdAt := createdAt, availableAt := availableAt }).toOption).map RawReportMeta.report =
      ((RawReportMeta.make f).toOption).map RawReportMeta.report := by
  have hcheck : RawReportMetaFields.check { f with createdAt := createdAt, availableAt := availableAt } = .ok () ↔
      f.check = .ok () := by
    rw [RawReportMetaFields.check_ok, RawReportMetaFields.check_ok]
    refine and_congr_right fun _ => and_congr_right fun _ => and_congr_left fun _ => ?_
    refine forall_congr' fun htrusted => ?_
    rw [show availableAt = f.availableAt from h htrusted]
  have herror : ∀ g : RawReportMetaFields, g.check ≠ .ok () → (RawReportMeta.make g).toOption = none := by
    intro g hg
    cases hm : RawReportMeta.make g with
    | error e => rfl
    | ok m => exact absurd (RawReportMeta.fields_of_make hm ▸ m.ok) hg
  by_cases hf : f.check = .ok ()
  · rw [RawReportMeta.make_of_check hf, RawReportMeta.make_of_check (hcheck.mpr hf)]
    refine congrArg some ?_
    unfold RawReportMeta.report RawReportMeta.trustedAt RawReportMeta.identity
    by_cases htrusted : f.availabilitySource = some .sourceProvided
    · simp only [htrusted, if_pos, h htrusted]
    · simp only [htrusted, if_false]
  · rw [herror f hf, herror _ fun hf' => hf (hcheck.mp hf')]

section
variable {b : LandingBackend} {request : LandingRequest} {env env' : LandingEnv}

variable (env') in
theorem describedRow_report {item : PreparedRow} {m : RawReportMeta} (h : describedRow b request env item = some m) :
    ∃ m', describedRow b request env' item = some m' ∧ m'.report = m.report := by
  cases item with
  | malformed error => cases h
  | parsed row =>
    obtain ⟨entityKey, hkey, serialized, hs, hm⟩ := landMeta_eq_ok.mp (describedRow_eq_some.mp h)
    have hreport := make_report (f := landedFields b.toRawBackend (request.run env) row entityKey serialized)
      env'.createdAt (some (row.availableAt.getD env'.createdAt)) fun htrusted => by
        cases hrow : row.availableAt with
        | some a => simp [landedFields, hrow]
        | none => simp [landedFields, hrow] at htrusted
    rw [hm] at hreport
    obtain ⟨m', hm', hsame⟩ := Option.map_eq_some_iff.mp hreport
    refine ⟨m', describedRow_eq_some.mpr (landMeta_eq_ok.mpr ⟨entityKey, hkey, serialized, hs, ?_⟩), hsame⟩
    exact ok_of_toOption hm'

variable (b request env env') in
theorem describedRow_report_eq (item : PreparedRow) : (describedRow b request env' item).map RawReportMeta.report =
    (describedRow b request env item).map RawReportMeta.report := by
  cases h : describedRow b request env item with
  | some m =>
    obtain ⟨m', hm', hreport⟩ := describedRow_report env' h
    rw [hm', Option.map_some, Option.map_some, hreport]
  | none =>
    cases h' : describedRow b request env' item with
    | none => rfl
    | some m' =>
      obtain ⟨m, hm, -⟩ := describedRow_report env h'
      rw [h] at hm
      cases hm

theorem describedRows_report (prepared : List PreparedRow) :
    (describedRows b request env' prepared).map RawReportMeta.report =
      (describedRows b request env prepared).map RawReportMeta.report := by
  unfold describedRows
  rw [List.map_filterMap, List.map_filterMap]
  exact List.filterMap_congr fun item _ => describedRow_report_eq b request env env' item

end

theorem standing_report {repo : MetaRepository} {ms ms' : List RawReportMeta}
    (h : ms'.map RawReportMeta.report = ms.map RawReportMeta.report) (ref : String) :
    standing repo ms' ref = standing repo ms ref := by
  have hfind : ∀ ms : List RawReportMeta, (ms.find? fun m => m.reportRef = ref).map RawReportMeta.identity =
      ((ms.map RawReportMeta.report).find? fun r => r.1 = ref).map fun r => r.2.1 := by
    intro ms
    rw [List.find?_map, Option.map_map]
    rfl
  unfold standing
  rw [hfind ms', hfind ms, h]

theorem writes_report {repo : MetaRepository} {m m' : RawReportMeta} (h : m'.report = m.report) :
    Writes repo m' ↔ Writes repo m := by
  simp only [RawReportMeta.report, Prod.mk.injEq] at h
  obtain ⟨href, hid, hat⟩ := h
  unfold Writes
  rw [href, hid, hat]

theorem not_writes_report {repo : MetaRepository} {ms ms' : List RawReportMeta}
    (h : ms'.map RawReportMeta.report = ms.map RawReportMeta.report) :
    (∀ m ∈ ms', ¬ Writes repo m) ↔ ∀ m ∈ ms, ¬ Writes repo m := by
  have hpart : ∀ {ms ms' : List RawReportMeta}, ms'.map RawReportMeta.report = ms.map RawReportMeta.report →
      (∀ m ∈ ms', ¬ Writes repo m) → ∀ m ∈ ms, ¬ Writes repo m := by
    intro ms ms' h hall m hm hwrites
    obtain ⟨m', hm', hreport⟩ := List.mem_map.mp (h ▸ List.mem_map_of_mem (f := RawReportMeta.report) hm)
    exact hall m' hm' ((writes_report hreport).mpr hwrites)
  exact ⟨hpart h, hpart h.symm⟩

/-! ## The first landing and the second -/

section
variable {repo : MetaRepository} {us : List MetaUpsert}

theorem standing_left (ref : String) :
    standing (repo.afterAll us) [] ref = standing repo (us.map MetaUpsert.incoming) ref := by
  rw [standing_afterAll, List.append_nil]

/-- A reference without a row is not among those that came. -/
theorem find?_of_unstored {ref : String} (h : Dict.get? (repo.afterAll us).metas ref = none) :
    (us.map MetaUpsert.incoming).find? (fun m => m.reportRef = ref) = none := by
  have hnone : standing (repo.afterAll us) [] ref = none := by
    unfold standing
    rw [h]
    rfl
  rw [standing_left] at hnone
  exact Option.map_eq_none_iff.mp (Option.or_eq_none_iff.mp hnone).2

variable (repo us) in
theorem standing_twice (ref : String) : standing (repo.afterAll us) (us.map MetaUpsert.incoming) ref =
    standing repo (us.map MetaUpsert.incoming) ref := by
  refine Eq.trans ?_ (standing_left ref)
  cases h : Dict.get? (repo.afterAll us).metas ref with
  | some m => rw [standing_of_stored h, standing_of_stored h]
  | none =>
    unfold standing
    rw [h, find?_of_unstored h]
    rfl

variable (repo) in
theorem stored_of_mem {m : RawReportMeta} (hm : m ∈ us.map MetaUpsert.incoming) : ∃ stored,
    Dict.get? (repo.afterAll us).metas m.reportRef = some stored ∧
      standing repo (us.map MetaUpsert.incoming) m.reportRef = some stored.identity := by
  cases h : Dict.get? (repo.afterAll us).metas m.reportRef with
  | some stored => exact ⟨stored, rfl, (standing_left m.reportRef).symm.trans (standing_of_stored h [])⟩
  | none => exact absurd (List.find?_eq_none.mp (find?_of_unstored h) m hm) (by simp)

variable (repo us) in
/-- Nothing is written the second time exactly if the availabilities are settled. -/
theorem writes_twice : (∀ m ∈ us.map MetaUpsert.incoming, ¬ Writes (repo.afterAll us) m) ↔
    AvailabilitySettled repo (us.map MetaUpsert.incoming) := by
  constructor
  · intro h m₁ hm₁ m₂ hm₂ href hstands hid hsome₁ hsome₂
    obtain ⟨stored, hstored, hidentity⟩ := stored_of_mem repo hm₁
    have hid₁ : stored.identity = m₁.identity := Option.some.inj (hidentity.symm.trans hstands)
    have hsame : ∀ m ∈ us.map MetaUpsert.incoming, m.reportRef = m₁.reportRef → m.identity = m₁.identity →
        m.trustedAt ≠ none → m.trustedAt = stored.availableAt := by
      intro m hm hr hi hsome
      by_contra hne
      refine h m hm ?_
      unfold Writes
      rw [hr, hstored]
      exact ⟨hid₁.trans hi.symm, hsome, hne⟩
    exact (hsame m₁ hm₁ rfl rfl hsome₁).trans (hsame m₂ hm₂ href.symm hid hsome₂).symm
  · intro h m hm hwrites
    obtain ⟨stored, hstored, hidentity⟩ := stored_of_mem repo hm
    unfold Writes at hwrites
    rw [hstored] at hwrites
    obtain ⟨hid, hsome, hne⟩ := hwrites
    obtain ⟨a, hat⟩ := Option.ne_none_iff_exists'.mp hsome
    rw [hid] at hidentity
    obtain ⟨u, hu, rfl⟩ := List.mem_map.mp hm
    obtain ⟨m', hm', hat'⟩ := availableAt_left us repo hidentity ⟨u, hu, rfl, rfl, hat⟩ fun v hv href hi hv' =>
      (h _ hm _ (List.mem_map_of_mem hv) href.symm hidentity hi hsome hv').symm.trans hat
    rw [hstored] at hm'
    cases hm'
    exact hne (hat.trans hat'.symm)

theorem afterAll_of_not_writes : ∀ {us : List MetaUpsert}, (∀ m ∈ us.map MetaUpsert.incoming, ¬ Writes repo m) →
    repo.afterAll us = repo
  | [], _ => rfl
  | u :: us, h => by
    have hafter : repo.after u = repo := after_of_not_writes (h u.incoming List.mem_cons_self)
    show (repo.after u).afterAll us = repo
    rw [hafter]
    exact afterAll_of_not_writes fun m hm => h m (List.mem_cons_of_mem _ hm)

end

/-- The payload a row that went through puts. -/
def outcomePut : Except PyErr Landed → Option (String × Value)
  | .error _ => none
  | .ok landed => some (landed.incoming.storageUri, landed.row.payload)

def PayloadStore.putSome (payloads : PayloadStore) : Option (String × Value) → PayloadStore
  | none => payloads
  | some p => payloads.put p.1 p.2

theorem putSome_cases (uri : String) : ∀ puts : List (Option (String × Value)),
    (∃ v, ∀ payloads, Dict.get? (puts.foldl PayloadStore.putSome payloads) uri = some v) ∨
      ∀ payloads, Dict.get? (puts.foldl PayloadStore.putSome payloads) uri = Dict.get? payloads uri
  | [] => .inr fun _ => rfl
  | put :: puts => by
    rcases putSome_cases uri puts with ⟨v, h⟩ | h
    · exact .inl ⟨v, fun payloads => h _⟩
    cases put with
    | none => exact .inr h
    | some p =>
      by_cases he : p.1 = uri
      · refine .inl ⟨p.2, fun payloads => (h _).trans ?_⟩
        exact he ▸ Dict.get?_set_self payloads p.1 p.2
      · exact .inr fun payloads => (h _).trans (Dict.get?_set_ne payloads p.2 he)

/-- The same payloads put again leave each one as it is. -/
theorem putSome_twice (puts : List (Option (String × Value))) (payloads : PayloadStore) (uri : String) :
    Dict.get? (puts.foldl PayloadStore.putSome (puts.foldl PayloadStore.putSome payloads)) uri =
      Dict.get? (puts.foldl PayloadStore.putSome payloads) uri := by
  rcases putSome_cases uri puts with ⟨v, h⟩ | h
  · rw [h, h]
  · exact h _

section
variable (b : LandingBackend) (request : LandingRequest) (env : LandingEnv)

def PreparedRow.payload? : PreparedRow → Option Value
  | .malformed _ => none
  | .parsed row => some row.payload

/-- The payload a row puts where identities stand so. -/
def landedPut (st : String → Option RawReportIdentity) (item : PreparedRow) : Option (String × Value) :=
  (describedRow b request env item).bind fun m =>
    if st m.reportRef = some m.identity then item.payload?.map fun payload => (m.storageUri, payload) else none

variable {b request env} {env' : LandingEnv}

theorem landedPut_env (st : String → Option RawReportIdentity) (item : PreparedRow) :
    landedPut b request env' st item = landedPut b request env st item := by
  have hreport := describedRow_report_eq b request env env' item
  unfold landedPut
  cases h : describedRow b request env item with
  | none =>
    rw [h] at hreport
    rw [Option.map_eq_none_iff.mp hreport]
  | some m =>
    obtain ⟨m', hm', hsame⟩ := describedRow_report env' h
    simp only [RawReportMeta.report, Prod.mk.injEq] at hsame
    obtain ⟨href, hid, -⟩ := hsame
    have huri : m'.storageUri = m.storageUri := congrArg RawReportIdentity.storageUri hid
    rw [hm', Option.bind_some, Option.bind_some, href, hid, huri]

variable (b request) in
theorem landOne_put (hq : env.Quiet) (s : RawStores) (item : PreparedRow × Nat) {st : String → Option RawReportIdentity}
    (hst : ∀ m, describedRow b request env item.1 = some m → st m.reportRef = standing s.repo [m] m.reportRef) :
    outcomePut (landOne b request env s item).2 = landedPut b request env st item.1 ∧
      (landOne b request env s item).1.payloads = s.payloads.putSome (landedPut b request env st item.1) := by
  unfold landedPut
  have hcase := landed_one b request env s item
  generalize landOne b request env s item = out at hcase
  cases hcase with
  | undescribed e h =>
    rw [h]
    exact ⟨rfl, rfl⟩
  | unsent e h =>
    rw [hq.upserts] at h
    cases h
  | refused e h hid _ =>
    rw [h, Option.bind_some, if_neg (hst _ h ▸ hid)]
    exact ⟨rfl, rfl⟩
  | unput e _ h =>
    rw [hq.puts] at h
    cases h
  | landed hitem h hid _ =>
    rw [h, Option.bind_some, if_pos ((hst _ h).trans hid), hitem]
    exact ⟨rfl, rfl⟩

theorem standing_head (repo : MetaRepository) (m : RawReportMeta) (coming : List RawReportMeta) :
    standing repo (m :: coming) m.reportRef = standing repo [m] m.reportRef := by
  unfold standing
  rw [List.find?_cons_of_pos (by simp), List.find?_cons_of_pos (by simp)]

/-- Which rows go through, and what they put, depends on the identities that stand only. -/
theorem landing_puts (hq : env.Quiet) {st : String → Option RawReportIdentity} : ∀ (prepared : List PreparedRow)
    (s : RawStores) (n : Nat), (∀ ref, st ref = standing s.repo (describedRows b request env prepared) ref) →
    (outcomes (landOne b request env) s (prepared.zipIdx n)).map outcomePut = prepared.map (landedPut b request env st) ∧
      (final (landOne b request env) s (prepared.zipIdx n)).payloads =
        (prepared.map (landedPut b request env st)).foldl PayloadStore.putSome s.payloads
  | [], _, _, _ => ⟨rfl, rfl⟩
  | item :: prepared, s, n, hst => by
    have hstands : ∀ m, describedRow b request env item = some m → st m.reportRef = standing s.repo [m] m.reportRef := by
      intro m hm
      rw [hst, describedRows, List.filterMap_cons, hm]
      exact standing_head _ _ _
    have hhead := landOne_put b request hq s (item, n) hstands
    have htail : ∀ ref, st ref = standing (landOne b request env s (item, n)).1.repo
        (describedRows b request env prepared) ref := by
      intro ref
      rw [hst, landOne_repo hq, describedRows, List.filterMap_cons]
      cases describedRow b request env item with
      | none => rfl
      | some m => exact (standing_after (landUpsert request env m n) _ ref).symm
    obtain ⟨houts, hpayloads⟩ := landing_puts hq prepared (landOne b request env s (item, n)).1 (n + 1) htail
    rw [List.zipIdx_cons, outcomes, List.map_cons, List.map_cons, final_cons, List.foldl_cons, hhead.1, houts, hpayloads,
      hhead.2]
    exact ⟨rfl, rfl⟩

variable (b request) in
/-- Nothing is counted as written exactly if no upsert writes in the state at the start. -/
theorem new_iff (hq : env.Quiet) : ∀ (prepared : List PreparedRow) (s : RawStores) (n : Nat),
    (∀ landed ∈ returned (outcomes (landOne b request env) s (prepared.zipIdx n)), landed.isNew = false) ↔
      ∀ m ∈ describedRows b request env prepared, ¬ Writes s.repo m
  | [], _, _ => iff_of_true (fun _ h => absurd h List.not_mem_nil) fun _ h => absurd h List.not_mem_nil
  | item :: prepared, s, n => by
    have ih := new_iff hq prepared (landOne b request env s (item, n)).1 (n + 1)
    rw [List.zipIdx_cons, outcomes, describedRows, List.filterMap_cons]
    have hcase := landed_one b request env s (item, n)
    generalize landOne b request env s (item, n) = out at hcase ih
    cases hcase with
    | undescribed e h =>
      have h' : describedRow b request env item = none := h
      rw [h']
      exact ih
    | unsent e h =>
      rw [hq.upserts] at h
      cases h
    | @refused e m h hid _ =>
      have h' : describedRow b request env item = some m := h
      have hno : ¬ Writes s.repo m := by
        intro hwrites
        have hnew := (upsert_true_iff s.repo none 0 m).mpr hwrites
        exact hid ((upsert_ok_iff s.repo none 0 m []).mp ⟨true, hnew⟩)
      rw [h', List.forall_mem_cons]
      exact ih.trans (and_iff_right hno).symm
    | unput e _ h =>
      rw [hq.puts] at h
      cases h
    | @landed row m isNew hitem h hid hnew =>
      have h' : describedRow b request env item = some m := h
      rw [h', returned, List.forall_mem_cons, List.forall_mem_cons]
      have hwrites := upsert_true_iff s.repo (some (request.run env).correctionContext) (env.now n) m
      rw [hnew] at hwrites
      cases isNew with
      | true => exact iff_of_false (fun h => Bool.noConfusion h.1) fun h => h.1 (hwrites.mp rfl)
      | false =>
        have hno : ¬ Writes s.repo m := fun h => by cases hwrites.mpr h
        have hsame : s.repo.after (landUpsert request env m n) = s.repo := after_of_not_writes hno
        dsimp only at ih ⊢
        rw [hsame] at ih ⊢
        exact ⟨fun h => ⟨hno, ih.mp h.2⟩, fun h => ⟨rfl, ih.mpr h.2⟩⟩

theorem raised_eq_nil_iff {outs : List (Except PyErr Landed)} : raised outs = [] ↔ ∀ put ∈ outs.map outcomePut, put ≠ none := by
  induction outs with
  | nil => exact iff_of_true rfl fun _ h => nomatch h
  | cons out outs ih =>
    rw [List.map_cons, List.forall_mem_cons]
    cases out with
    | error e => exact iff_of_false (fun h => nomatch h) fun h => h.1 rfl
    | ok landed => exact ih.trans (and_iff_right (Option.some_ne_none _)).symm

/-- The second landing counts nothing as written and leaves the stores as they are. -/
structure ReplayAddsNothing (before : RawStores) (again : RawStores × LandedDatasets × Except PyErr LandedManifest) :
    Prop where
  written : ∃ manifest, again.2.2 = .ok manifest ∧ manifest.itemCountWritten = 0
  audit : again.1.repo.availabilityChanges = before.repo.availabilityChanges
  metas : ∀ ref, Dict.get? again.1.repo.metas ref = Dict.get? before.repo.metas ref
  payloads : ∀ uri, Dict.get? again.1.payloads uri = Dict.get? before.payloads uri

variable {s : RawStores} {datasets : LandedDatasets} {prepared : List PreparedRow}

variable (env') in
/-- After a landing every reference stands for what it stood for before it. -/
theorem standing_again (hq : env.Quiet) (ref : String) :
    standing (landFinal b request env s prepared).repo (describedRows b request env' prepared) ref =
      standing s.repo (describedRows b request env prepared) ref := by
  have htwice := standing_twice s.repo (landUpserts b request env prepared 0) ref
  rw [landUpserts_incoming] at htwice
  unfold landFinal
  rw [final_repo hq, standing_report (describedRows_report prepared), htwice]

variable (b request s prepared) in
/-- The same rows go through again. -/
theorem puts_again (hq : env.Quiet) (hq' : env'.Quiet) :
    (landOutcomes b request env' (landFinal b request env s prepared) prepared).map outcomePut =
        (landOutcomes b request env s prepared).map outcomePut ∧
      ∀ uri, Dict.get? (landFinal b request env' (landFinal b request env s prepared) prepared).payloads uri =
        Dict.get? (landFinal b request env s prepared).payloads uri := by
  obtain ⟨houts, hpayloads⟩ := landing_puts hq prepared s 0 fun ref => rfl
  obtain ⟨houts', hpayloads'⟩ := landing_puts hq' prepared (landFinal b request env s prepared) 0 fun ref =>
    (standing_again env' hq ref).symm
  have hsame : prepared.map (landedPut b request env' (standing s.repo (describedRows b request env prepared))) =
      prepared.map (landedPut b request env (standing s.repo (describedRows b request env prepared))) :=
    List.map_congr_left fun item _ => landedPut_env _ item
  rw [hsame] at houts' hpayloads'
  refine ⟨houts'.trans houts.symm, fun uri => ?_⟩
  unfold landFinal at hpayloads' ⊢
  rw [hpayloads', hpayloads]
  exact putSome_twice _ _ uri

/-! ### A stream that corrects itself -/

theorem quietLanding_quiet (hex : String) (createdAt : Int) : (quietLanding hex createdAt).Quiet := ⟨fun _ => rfl, fun _ => rfl⟩

/-- One report, twice, with two trusted availabilities. -/
def correctingRows : List PreparedRow :=
  [20, 30].map fun t => .parsed { taxRow (some "rep_1") 100 10 with availableAt := some t }

/-- The same stream again adds nothing exactly if its availabilities are settled. -/
theorem landing_replay (hq : env.Quiet) (hq' : env'.Quiet) {manifest : LandedManifest} (datasets' : LandedDatasets)
    (h : (landReportRows b request env prepared s datasets).2.2 = .ok manifest) :
    ReplayAddsNothing (landReportRows b request env prepared s datasets).1
        (landReportRows b request env' prepared (landReportRows b request env prepared s datasets).1 datasets') ↔
      AvailabilitySettled s.repo (describedRows b request env prepared) := by
  obtain ⟨hputs, hpayloads⟩ := puts_again b request s prepared hq hq'
  obtain ⟨items, hfirst, -⟩ := accounts_of_landed h
  have hagain : ∃ manifest',
      (landReportRows b request env' prepared (landFinal b request env s prepared) datasets').2.2 = .ok manifest' := by
    obtain ⟨hcopy, hfast⟩ := (landed_iff b request env s datasets prepared).mp ⟨manifest, h⟩
    refine (landed_iff b request env' _ datasets' prepared).mpr ⟨hcopy, hfast.imp_right fun hnone => ?_⟩
    rw [raised_eq_nil_iff] at hnone ⊢
    rw [hputs]
    exact hnone
  obtain ⟨manifest', hmanifest'⟩ := hagain
  obtain ⟨items', hsecond, haccounts⟩ := accounts_of_landed hmanifest'
  rw [hfirst, hsecond]
  have hwritten : manifest'.itemCountWritten = 0 ↔
      ∀ m ∈ describedRows b request env' prepared, ¬ Writes (landFinal b request env s prepared).repo m := by
    have hnew := new_iff b request hq' prepared (landFinal b request env s prepared) 0
    rw [haccounts.written, List.countP_eq_zero, ← hnew]
    simp only [Bool.not_eq_true]
    rfl
  have hsettled : (∀ m ∈ describedRows b request env' prepared, ¬ Writes (landFinal b request env s prepared).repo m) ↔
      AvailabilitySettled s.repo (describedRows b request env prepared) := by
    have htwice := writes_twice s.repo (landUpserts b request env prepared 0)
    rw [landUpserts_incoming] at htwice
    rw [← htwice, not_writes_report (describedRows_report prepared)]
    exact iff_of_eq (congrArg (fun repo => ∀ m ∈ describedRows b request env prepared, ¬ Writes repo m)
      (final_repo hq prepared s 0))
  rw [← hsettled, ← hwritten]
  constructor
  · intro ⟨⟨manifest'', hmanifest'', hzero⟩, _, _, _⟩
    cases hmanifest''
    exact hzero
  · intro hzero
    have hrepo : (landFinal b request env' (landFinal b request env s prepared) prepared).repo =
        (landFinal b request env s prepared).repo := by
      have hnone := hwritten.mp hzero
      rw [← landUpserts_incoming b request env' prepared 0] at hnone
      exact (final_repo hq' prepared _ 0).trans (afterAll_of_not_writes hnone)
    exact ⟨⟨manifest', rfl, hzero⟩, congrArg _ hrepo, fun ref => by rw [hrepo], hpayloads⟩

/-- Beside the mixed rows, one report without an availability, then twice with the same trusted one. -/
def settledRows : List PreparedRow := mixedRows ++
  [none, some 30, some 30].map fun t => .parsed { taxRow (some "rep_2") 200 20 with availableAt := t }

theorem landing_replay_settled :
    let first := landReportRows memoryLanding taxLanding (quietLanding "1" 100) settledRows {} {}
    first.1.repo.availabilityChanges.length = 1 ∧
    ReplayAddsNothing first.1
      (landReportRows memoryLanding taxLanding (quietLanding "2" 200) settledRows first.1 first.2.1) := by
  refine ⟨by decide +kernel, ?_⟩
  refine (landing_replay (quietLanding_quiet "1" 100) (quietLanding_quiet "2" 200) _
    (eq_ok_okGet _ (by decide +kernel))).mpr ?_
  unfold AvailabilitySettled
  decide +kernel

/-- Each pass corrects the availability there and back. -/
theorem correcting_replay :
    let first := landReportRows memoryLanding taxLanding (quietLanding "1" 100) correctingRows {} {}
    ¬ ReplayAddsNothing first.1
      (landReportRows memoryLanding taxLanding (quietLanding "2" 200) correctingRows first.1 first.2.1) := by
  intro first h
  have haudit : (landReportRows memoryLanding taxLanding (quietLanding "2" 200) correctingRows first.1
      first.2.1).1.repo.availabilityChanges.length ≠ first.1.repo.availabilityChanges.length := by
    decide +kernel
  exact haudit (congrArg List.length h.audit)

end

end ClearFeature
