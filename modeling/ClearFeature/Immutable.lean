import ClearFeature.RawWrites

/-!
# Stored payloads and their metadata rows

Which writes keep every stored payload equal to what its row describes. The
landing refuses a conflicting reference before it writes; a submission writes
first, and its conflict is found when the event is projected.
-/

namespace ClearFeature

variable (b : RawBackend)

/-- Every row that points at the URI describes this content. -/
def RowsDescribe (s : RawState) (storageUri contentHash : String) : Prop :=
  ∀ e ∈ s.repo.metas, e.2.storageUri = storageUri → e.2.contentHash = contentHash

def RawState.unprojected (s : RawState) : List ReportDescriptor :=
  (s.published.flatMap FeatureComputeRequested.reports).filter fun d => (Dict.get? s.repo.metas d.reportRef).isNone

def StoredIs (s : RawState) (storageUri contentHash : String) : Prop :=
  ∀ payload ∈ Dict.get? s.payloads storageUri, b.payloadHash payload = .ok contentHash

/-- A new row finds no other content at its URI, stored or described. -/
def NewRowFits (s : RawState) (incoming : RawReportMeta) : Prop :=
  Dict.get? s.repo.metas incoming.reportRef = none →
    StoredIs b s incoming.storageUri incoming.contentHash ∧ RowsDescribe s incoming.storageUri incoming.contentHash

/-- A submission overwrites nothing that is described by a row or by a report waiting for its row, and what it
publishes is still stored; a landing adds a row only where no other content is. -/
def KeepsContent (s : RawState) : RawOp → Prop
  | .apiPut uri payload =>
    (∀ e ∈ s.repo.metas, e.2.storageUri = uri → b.payloadHash payload = .ok e.2.contentHash) ∧
    ∀ d ∈ s.unprojected, d.objectKey = uri → b.payloadHash payload = .ok d.contentHash
  | .publish event => ∀ d ∈ event.reports, Dict.get? s.repo.metas d.reportRef = none →
      ∃ payload ∈ Dict.get? s.payloads d.objectKey, b.payloadHash payload = .ok d.contentHash
  | .landUpsert incoming _ _ => NewRowFits b s incoming
  | .landPut _ _ | .projectReport _ _ _ => True

def RawState.next? (s : RawState) : RawAction → Option RawOp
  | .advance i => s.procs[i]?.bind List.head?
  | _ => none

def ActionKeepsContent (s : RawState) (a : RawAction) : Prop := ∀ op ∈ s.next? a, KeepsContent b s op

instance KeepsContent.decidable (s : RawState) : ∀ op, Decidable (KeepsContent b s op)
  | .apiPut _ _ => inferInstanceAs (Decidable ((∀ e ∈ _, _ → _) ∧ ∀ d ∈ _, _ → _))
  | .publish _ => inferInstanceAs (Decidable (∀ d ∈ _, _ → ∃ payload ∈ Dict.get? _ _, _))
  | .landUpsert _ _ _ => inferInstanceAs (Decidable (_ → (∀ payload ∈ Dict.get? _ _, _) ∧ ∀ e ∈ _, _ → _))
  | .landPut _ _ => isTrue trivial
  | .projectReport _ _ _ => isTrue trivial

instance ActionKeepsContent.decidable : ∀ s a, Decidable (ActionKeepsContent b s a) :=
  fun s a => inferInstanceAs (Decidable (∀ op ∈ s.next? a, _))

/-! ## The invariant -/

/-- What a process still has to do. -/
inductive Pending (s : RawState) : List RawOp → Prop
  | submitting (ops : List RawOp) (h : ∀ op ∈ ops, (∃ uri p, op = .apiPut uri p) ∨ ∃ e, op = .publish e) : Pending s ops
  | landing (incoming : RawReportMeta) (context : CorrectionContext) (now : Int) (payload : Value)
      (h : b.payloadHash payload = .ok incoming.contentHash) :
      Pending s [.landUpsert incoming context now, .landPut incoming.storageUri payload]
  | landed (payload : Value) (ref : String) (row : RawReportMeta) (hr : Dict.get? s.repo.metas ref = some row)
      (h : b.payloadHash payload = .ok row.contentHash) : Pending s [.landPut row.storageUri payload]
  | projecting (ops : List RawOp)
      (h : ∀ op ∈ ops, ∃ entity d now e, op = .projectReport entity d now ∧ e ∈ s.published ∧ d ∈ e.reports) :
      Pending s ops

structure StoresInv (s : RawState) : Prop where
  matched : PayloadsMatch b s
  agree : ∀ ref row, Dict.get? s.repo.metas ref = some row → RowsDescribe s row.storageUri row.contentHash
  described : ∀ d ∈ s.unprojected, ∃ payload ∈ Dict.get? s.payloads d.objectKey, b.payloadHash payload = .ok d.contentHash
  nodup : (Dict.keys s.repo.metas).Nodup

structure RawInv (s : RawState) : Prop where
  stores : StoresInv b s
  pending : ∀ ops ∈ s.procs, Pending b s ops

structure Grows (s s' : RawState) : Prop where
  rows : ∀ ref row, Dict.get? s.repo.metas ref = some row → ∃ row', Dict.get? s'.repo.metas ref = some row' ∧
    row'.storageUri = row.storageUri ∧ row'.contentHash = row.contentHash
  published : ∀ e ∈ s.published, e ∈ s'.published

variable {b}

theorem Grows.of_eq {s s' : RawState} (hr : s'.repo = s.repo) (hp : s'.published = s.published) : Grows s s' := by
  constructor
  · intro ref row h
    exact ⟨row, hr ▸ h, rfl, rfl⟩
  · intro e he
    rw [hp]
    exact he

theorem Pending.mono {s s' : RawState} {ops : List RawOp} (hg : Grows s s') (h : Pending b s ops) : Pending b s' ops := by
  cases h with
  | submitting ops h => exact .submitting ops h
  | landing incoming context now payload h => exact .landing incoming context now payload h
  | landed payload ref row hr h =>
    obtain ⟨row', hr', hu, hc⟩ := hg.rows ref row hr
    rw [← hu]
    exact .landed payload ref row' hr' (hc ▸ h)
  | projecting ops h =>
    refine .projecting ops fun op hop => ?_
    obtain ⟨entity, d, now, e, rfl, he, hd⟩ := h op hop
    exact ⟨entity, d, now, e, rfl, hg.published e he, hd⟩

theorem rowsDescribe_iff {s : RawState} (hn : (Dict.keys s.repo.metas).Nodup) {uri hash : String} :
    RowsDescribe s uri hash ↔
      ∀ ref row, Dict.get? s.repo.metas ref = some row → row.storageUri = uri → row.contentHash = hash := by
  constructor
  · intro h ref row hr
    exact h (ref, row) (Dict.mem_of_get? hr)
  · intro h e he
    exact h e.1 e.2 (Dict.get?_of_mem hn he)

theorem mem_unprojected {s : RawState} {d : ReportDescriptor} :
    d ∈ s.unprojected ↔ (∃ e ∈ s.published, d ∈ e.reports) ∧ Dict.get? s.repo.metas d.reportRef = none := by
  simp [RawState.unprojected]

/-! ## The payload writes -/

theorem StoresInv.put {s : RawState} (hi : StoresInv b s) {uri : String} {payload : Value}
    (hrows : ∀ ref row, Dict.get? s.repo.metas ref = some row → row.storageUri = uri →
      b.payloadHash payload = .ok row.contentHash)
    (hwait : ∀ d ∈ s.unprojected, d.objectKey = uri → b.payloadHash payload = .ok d.contentHash) :
    StoresInv b { s with payloads := s.payloads.put uri payload } := by
  refine ⟨?_, hi.agree, ?_, hi.nodup⟩
  · intro ref row p hr hp
    by_cases hu : row.storageUri = uri
    · subst hu
      simp only [PayloadStore.put, Dict.get?_set_self, Option.some.injEq] at hp
      rw [← hp]
      exact hrows ref row hr rfl
    · simp only [PayloadStore.put] at hp
      rw [Dict.get?_set_ne _ _ (Ne.symm hu)] at hp
      exact hi.matched ref row p hr hp
  · intro d hd
    by_cases hu : d.objectKey = uri
    · subst hu
      exact ⟨payload, Dict.get?_set_self _ _ _, hwait d hd rfl⟩
    · obtain ⟨p, hp, hh⟩ := hi.described d hd
      refine ⟨p, ?_, hh⟩
      simp only [PayloadStore.put]
      rw [Dict.get?_set_ne _ _ (Ne.symm hu)]
      exact hp

theorem StoresInv.landPut {s : RawState} (hi : StoresInv b s) {payload : Value} {ref : String} {row : RawReportMeta}
    (hr : Dict.get? s.repo.metas ref = some row) (h : b.payloadHash payload = .ok row.contentHash) :
    StoresInv b { s with payloads := s.payloads.put row.storageUri payload } := by
  refine hi.put ?_ ?_
  · intro ref' row' hr' hu
    have hc := hi.agree ref row hr (ref', row') (Dict.mem_of_get? hr') hu
    rw [h]
    exact congrArg Except.ok hc.symm
  · intro d hd hu
    obtain ⟨p, hp, hh⟩ := hi.described d hd
    rw [hu] at hp
    rw [h, ← hi.matched ref row p hr hp, hh]

/-! ## The row writes -/

/-- A row after an upsert is an old row, possibly with its availability corrected, or the incoming one. -/
theorem MetaRepository.row_of_upsert {repo : MetaRepository} {incoming row : RawReportMeta}
    {context : Option CorrectionContext} {now : Int} {ref : String}
    (h : Dict.get? (repo.upsert incoming context now).1.metas ref = some row) :
    (∃ old, Dict.get? repo.metas ref = some old ∧ old.storageUri = row.storageUri ∧ old.contentHash = row.contentHash) ∨
      Dict.get? repo.metas incoming.reportRef = none ∧ row = incoming := by
  rcases repo.upsert_cases incoming context now ref with hsame | ⟨rfl, hnew, hnone⟩ | ⟨-, old, m, hold, hm, hid⟩
  · exact .inl ⟨row, hsame ▸ h, rfl, rfl⟩
  · rw [hnew] at h
    cases h
    exact .inr ⟨hnone, rfl⟩
  · rw [hm] at h
    cases h
    refine .inl ⟨old, hold, ?_, ?_⟩
    · exact congrArg RawReportIdentity.storageUri hid.symm
    · exact congrArg RawReportIdentity.contentHash hid.symm

theorem MetaRepository.upsert_grows (repo : MetaRepository) (incoming : RawReportMeta)
    (context : Option CorrectionContext) (now : Int) {ref : String} {old : RawReportMeta}
    (h : Dict.get? repo.metas ref = some old) :
    ∃ row, Dict.get? (repo.upsert incoming context now).1.metas ref = some row ∧
      row.storageUri = old.storageUri ∧ row.contentHash = old.contentHash := by
  rcases repo.upsert_cases incoming context now ref with hsame | ⟨rfl, -, hnone⟩ | ⟨-, old', m, hold, hm, hid⟩
  · exact ⟨old, hsame ▸ h, rfl, rfl⟩
  · rw [hnone] at h
    cases h
  · rw [hold] at h
    cases h
    exact ⟨m, hm, congrArg RawReportIdentity.storageUri hid, congrArg RawReportIdentity.contentHash hid⟩

theorem MetaRepository.upsert_nodup {repo : MetaRepository} (hn : (Dict.keys repo.metas).Nodup)
    (incoming : RawReportMeta) (context : Option CorrectionContext) (now : Int) :
    (Dict.keys (repo.upsert incoming context now).1.metas).Nodup := by
  unfold upsert
  split
  · exact Dict.keys_set_nodup _ _ hn
  · split
    · exact hn
    · split
      · dsimp only
        split
        · exact hn
        · exact Dict.keys_set_nodup _ _ hn
      · exact hn

theorem StoresInv.upsert {s : RawState} (hi : StoresInv b s) {incoming : RawReportMeta}
    (hfit : NewRowFits b s incoming) (context : Option CorrectionContext) (now : Int) :
    StoresInv b { s with repo := (s.repo.upsert incoming context now).1 } ∧
      Grows s { s with repo := (s.repo.upsert incoming context now).1 } := by
  have hgrows : ∀ ref old, Dict.get? s.repo.metas ref = some old →
      ∃ row, Dict.get? (s.repo.upsert incoming context now).1.metas ref = some row ∧
        row.storageUri = old.storageUri ∧ row.contentHash = old.contentHash :=
    fun ref old h => s.repo.upsert_grows incoming context now h
  have hn := MetaRepository.upsert_nodup hi.nodup incoming context now
  refine ⟨⟨?_, ?_, ?_, hn⟩, ⟨hgrows, fun e he => he⟩⟩
  · intro ref row payload hr hp
    rcases MetaRepository.row_of_upsert hr with ⟨old, hold, hu, hc⟩ | ⟨hnone, rfl⟩
    · rw [← hc]
      exact hi.matched ref old payload hold (hu ▸ hp)
    · exact (hfit hnone).1 payload hp
  · intro ref row hr
    refine (rowsDescribe_iff hn).mpr fun ref' row' hr' hu => ?_
    rcases MetaRepository.row_of_upsert hr with ⟨old, hold, hou, hoc⟩ | ⟨hnone, rfl⟩ <;>
      rcases MetaRepository.row_of_upsert hr' with ⟨old', hold', hou', hoc'⟩ | ⟨hnone', rfl⟩
    · have h := (rowsDescribe_iff hi.nodup).mp (hi.agree ref old hold) ref' old' hold'
      rw [← hoc, ← hoc']
      exact h (by rw [hou, hou', hu])
    · have h := (rowsDescribe_iff hi.nodup).mp (hfit hnone').2 ref old hold
      rw [← hoc]
      exact (h (by rw [hou, hu])).symm
    · have h := (rowsDescribe_iff hi.nodup).mp (hfit hnone).2 ref' old' hold'
      rw [← hoc']
      exact h (by rw [hou', hu])
    · rfl
  · intro d hd
    obtain ⟨hpub, hnone⟩ := mem_unprojected.mp hd
    refine hi.described d (mem_unprojected.mpr ⟨hpub, ?_⟩)
    cases hold : Dict.get? s.repo.metas d.reportRef with
    | none => rfl
    | some old =>
      obtain ⟨row, hrow, -⟩ := hgrows _ old hold
      rw [hnone] at hrow
      cases hrow

theorem projectedMeta_fields {entity : EntityRef} {d : ReportDescriptor} {now : Int} {m : RawReportMeta}
    (h : projectedMeta entity d now = .ok m) :
    m.reportRef = d.reportRef ∧ m.storageUri = d.objectKey ∧ m.contentHash = d.contentHash := by
  unfold projectedMeta at h
  obtain ⟨key, -, h⟩ := bind_eq_ok.mp h
  rw [RawReportMeta.fields_of_make h]
  exact ⟨rfl, rfl, rfl⟩

theorem StoresInv.projected_fits {s : RawState} (hi : StoresInv b s) {d : ReportDescriptor}
    (hd : ∃ e ∈ s.published, d ∈ e.reports) {m : RawReportMeta} (hr : m.reportRef = d.reportRef)
    (hu : m.storageUri = d.objectKey) (hc : m.contentHash = d.contentHash) : NewRowFits b s m := by
  intro hnone
  obtain ⟨p, hp, hh⟩ := hi.described d (mem_unprojected.mpr ⟨hd, hr ▸ hnone⟩)
  rw [← hu] at hp
  rw [← hc] at hh
  constructor
  · intro p' hp'
    cases hp.symm.trans hp'
    exact hh
  · refine (rowsDescribe_iff hi.nodup).mpr fun ref row hrow hru => ?_
    have := hi.matched ref row p hrow (hru ▸ hp)
    rw [hh] at this
    exact (Except.ok.inj this).symm

/-! ## One operation, one action, a run -/

theorem StoresInv.exec {s : RawState} (hi : StoresInv b s) {op : RawOp} {ops : List RawOp}
    (hp : Pending b s (op :: ops)) (hk : KeepsContent b s op) :
    StoresInv b (s.exec op).1 ∧ Grows s (s.exec op).1 ∧
      Pending b (s.exec op).1 (bif (s.exec op).2 then ops else []) := by
  have hdone : ∀ s' : RawState, Pending b s' [] := fun s' => .submitting [] (by simp)
  cases hp with
  | submitting _ h =>
    have hrest : ∀ s', Pending b s' ops := fun s' => .submitting ops fun o ho => h o (List.mem_cons_of_mem _ ho)
    rcases h op List.mem_cons_self with ⟨uri, p, rfl⟩ | ⟨e, rfl⟩
    · refine ⟨hi.put (fun ref row hr => hk.1 (ref, row) (Dict.mem_of_get? hr)) hk.2, .of_eq rfl rfl, hrest _⟩
    · refine ⟨⟨hi.matched, hi.agree, ?_, hi.nodup⟩, ⟨fun ref row hr => ⟨row, hr, rfl, rfl⟩, ?_⟩, hrest _⟩
      · intro d hd
        obtain ⟨⟨e', he', hd'⟩, hnone⟩ := mem_unprojected.mp hd
        rcases List.mem_append.mp he' with h' | h'
        · exact hi.described d (mem_unprojected.mpr ⟨⟨e', h', hd'⟩, hnone⟩)
        · cases List.mem_singleton.mp h'
          exact hk d hd' hnone
      · intro e' he'
        exact List.mem_append_left _ he'
  | landing incoming context now payload h =>
    obtain ⟨hs, hg⟩ := hi.upsert hk (some context) now
    refine ⟨hs, hg, ?_⟩
    simp only [RawState.exec]
    cases hout : (s.repo.upsert incoming (some context) now).2 with
    | error e => exact hdone _
    | ok isNew =>
      obtain ⟨row, hrow, hid⟩ := MetaRepository.upsert_ok hout
      have hu : row.storageUri = incoming.storageUri := congrArg RawReportIdentity.storageUri hid
      have hc : row.contentHash = incoming.contentHash := congrArg RawReportIdentity.contentHash hid
      simp only [Except.toBool, cond_true]
      rw [← hu]
      exact .landed payload incoming.reportRef row hrow (hc ▸ h)
  | landed payload ref row hr h =>
    exact ⟨hi.landPut hr h, .of_eq rfl rfl, hdone _⟩
  | projecting _ h =>
    obtain ⟨entity, d, now, e, rfl, he, hd⟩ := h op List.mem_cons_self
    have hrest : Pending b s ops := .projecting ops fun o ho => h o (List.mem_cons_of_mem _ ho)
    cases hm : projectedMeta entity d now with
    | error err =>
      rw [show s.exec (.projectReport entity d now) = (s, false) by simp only [RawState.exec, hm]]
      exact ⟨hi, .of_eq rfl rfl, hdone _⟩
    | ok m =>
      obtain ⟨hr, hu, hc⟩ := projectedMeta_fields hm
      obtain ⟨hs, hg⟩ := hi.upsert (hi.projected_fits ⟨e, he, hd⟩ hr hu hc) none now
      rw [show s.exec (.projectReport entity d now) = ({ s with repo := (s.repo.upsert m none now).1 },
        (s.repo.upsert m none now).2.toBool) by simp only [RawState.exec, hm]]
      refine ⟨hs, hg, ?_⟩
      cases (s.repo.upsert m none now).2.toBool with
      | true => exact hrest.mono hg
      | false => exact hdone _

theorem storeReports_ops (b : RawBackend) (acceptedAt : Int) : ∀ reports : List InlineReportIn,
    ∀ op ∈ (storeReports b acceptedAt reports).1, ∃ uri p, op = .apiPut uri p
  | [], op, h => by cases h
  | report :: reports, op, h => by
    unfold storeReports at h
    split at h
    · cases h
    · rcases List.mem_cons.mp h with rfl | h
      · exact ⟨_, _, rfl⟩
      · exact storeReports_ops b acceptedAt reports op h

theorem submit_pending (s : RawState) (request : FeatureRequestIn) (acceptedAt : Int) :
    Pending b s (submitFeatureRequest b request acceptedAt) := by
  refine .submitting _ fun op hop => ?_
  have hputs := storeReports_ops b acceptedAt request.reports
  unfold submitFeatureRequest at hop
  split at hop
  · cases hop
  · split at hop
    · cases hop
    · split at hop
      · rename_i heq
        rcases List.mem_append.mp hop with h | h
        · exact .inl (hputs op (heq ▸ h))
        · exact .inr ⟨_, List.mem_singleton.mp h⟩
      · rename_i heq
        exact .inl (hputs op (heq ▸ hop))

theorem landMeta_hash {landing : LandingRun} {row : JsonlReportRow} {m : RawReportMeta}
    (h : landMeta b landing row = .ok m) : b.payloadHash row.payload = .ok m.contentHash := by
  unfold landMeta at h
  obtain ⟨key, -, h⟩ := bind_eq_ok.mp h
  obtain ⟨serialized, hs, h⟩ := bind_eq_ok.mp h
  unfold RawBackend.payloadHash
  rw [hs, ok_bind, RawReportMeta.fields_of_make h]
  rfl

theorem land_pending (s : RawState) (landing : LandingRun) (row : JsonlReportRow) (now : Int) :
    Pending b s (landReportRow b landing row now) := by
  unfold landReportRow
  cases hm : landMeta b landing row with
  | error e => exact .submitting [] (by simp)
  | ok m => exact .landing m landing.correctionContext now row.payload (landMeta_hash hm)

theorem project_pending {s : RawState} {event : FeatureComputeRequested} (he : event ∈ s.published) (now : Int) :
    Pending b s (projectRequested event now) := by
  refine .projecting _ fun op hop => ?_
  obtain ⟨d, hd, rfl⟩ := List.mem_map.mp hop
  exact ⟨event.entity, d, now, event, rfl, he, hd⟩

theorem RawInv.spawn {s : RawState} (hi : RawInv b s) {ops : List RawOp} (h : Pending b s ops) :
    RawInv b (s.spawn ops) := by
  refine ⟨⟨hi.stores.matched, hi.stores.agree, hi.stores.described, hi.stores.nodup⟩, ?_⟩
  intro ops' hops
  have hg : Grows s (s.spawn ops) := .of_eq rfl rfl
  rcases List.mem_append.mp hops with h' | h'
  · exact (hi.pending ops' h').mono hg
  · cases List.mem_singleton.mp h'
    exact h.mono hg

theorem RawInv.step {s : RawState} (a : RawAction) (hi : RawInv b s) (hk : ActionKeepsContent b s a) :
    RawInv b (s.step b a) := by
  cases a with
  | submit request acceptedAt => exact hi.spawn (submit_pending s request acceptedAt)
  | land landing row now => exact hi.spawn (land_pending s landing row now)
  | deliver offset now =>
    simp only [RawState.step]
    cases he : s.published[offset]? with
    | none => exact hi
    | some event => exact hi.spawn (project_pending (List.mem_of_getElem? he) now)
  | stop i =>
    refine ⟨⟨hi.stores.matched, hi.stores.agree, hi.stores.described, hi.stores.nodup⟩, fun ops hops => ?_⟩
    have hg : Grows s (s.step b (.stop i)) := .of_eq rfl rfl
    rcases List.mem_or_eq_of_mem_set hops with h | rfl
    · exact (hi.pending ops h).mono hg
    · exact .submitting [] (by simp)
  | advance i =>
    cases hp : s.procs[i]? with
    | none =>
      simp only [RawState.step, hp]
      exact hi
    | some proc =>
      cases proc with
      | nil =>
        simp only [RawState.step, hp]
        exact hi
      | cons op ops =>
        have hop : KeepsContent b s op := hk op (by simp [RawState.next?, hp])
        obtain ⟨hs, hg, hrest⟩ := hi.stores.exec (hi.pending _ (List.mem_of_getElem? hp)) hop
        simp only [RawState.step, hp]
        refine ⟨⟨hs.matched, hs.agree, hs.described, hs.nodup⟩, fun ops' hops => ?_⟩
        have hg' : Grows (s.exec op).1 { (s.exec op).1 with procs := s.procs.set i (bif (s.exec op).2 then ops else []) } :=
          .of_eq rfl rfl
        rcases List.mem_or_eq_of_mem_set hops with h | rfl
        · exact ((hi.pending ops' h).mono hg).mono hg'
        · exact hrest.mono hg'

theorem RawInv.initial : RawInv b {} := by
  refine ⟨⟨?_, ?_, ?_, ?_⟩, ?_⟩
  · intro ref row p h
    cases h
  · intro ref row h
    cases h
  · intro d h
    cases h
  · exact List.nodup_nil
  · intro ops h
    cases h

/-- In every state of a run whose steps keep content, each stored payload hashes to its row's content hash. -/
theorem payloads_immutable (b : RawBackend) (actions : List RawAction)
    (hk : Runs.Steady (RawState.step b) (ActionKeepsContent b) {} actions) :
    ∀ visited, visited <+: actions → PayloadsMatch b (Runs.run (RawState.step b) {} visited) := by
  intro visited hprefix
  obtain ⟨rest, rfl⟩ := hprefix
  have hv := (Runs.Steady.append.mp hk).1
  exact (Runs.Steady.invariant (fun s a hi hc => RawInv.step a hi hc) RawInv.initial hv).stores.matched

/-! ## A reference submitted twice -/

def incomeJson (n : Int) : Bytes := asciiBytes ("\x7b\"income\": " ++ toString n ++ "\x7d")

/-- The memory backend on reports with one integer field `income`. -/
def memoryBackend : RawBackend where
  makeStorageUri := fun _ reportRef _ => "mem://" ++ reportRef
  rawFormat := "json"
  rawCompression := "none"
  serializePayload := fun
    | .obj [("income", .int n)] => .ok (incomeJson n)
    | _ => .error (.typeError "not a report of this kind")
  sha256 := fun bytes => (Dict.get? [
    (incomeJson 100, "921ccc3b023a31cba91bf29807653e0be7e56aeac60d87f0b5fbc7a2412a9881"),
    (incomeJson 200, "bb5dad991c4e3d96e46dd57608104aa7cc11699bc9c54498c3e4316b0d108bb3")] bytes).getD ""

def incomeReport (reportRef : String) (n : Int) : InlineReportIn where
  sourceName := "tax_report"
  reportType := "tax"
  schemaVersion := "1"
  reportTs := 1000
  payload := .obj [("income", .int n)]
  reportRef := some reportRef
  uuidHex := "0"

def incomeRequest (n : Int) : FeatureRequestIn := ⟨"user", [("user_id", "1")], [incomeReport "rep_1" n]⟩

/-- A request is accepted, its event projected, and the same reference is submitted with another payload. -/
def resubmitted (n : Int) : List RawAction :=
  [.submit (incomeRequest 100) 2000, .advance 0, .advance 0, .deliver 0 2001, .advance 1, .submit (incomeRequest n) 3000,
    .advance 2]

def hashesAt (b : RawBackend) (s : RawState) (reportRef : String) : Option (Except PyErr String × String) :=
  match Dict.get? s.repo.metas reportRef with
  | none => none
  | some row => (Dict.get? s.payloads row.storageUri).map fun payload => (b.payloadHash payload, row.contentHash)

theorem PayloadsMatch.hashes_eq {s : RawState} (h : PayloadsMatch b s) {reportRef : String} :
    ∀ p ∈ hashesAt b s reportRef, p.1 = .ok p.2 := by
  intro p hp
  unfold hashesAt at hp
  cases hr : Dict.get? s.repo.metas reportRef with
  | none =>
    rw [hr] at hp
    cases hp
  | some row =>
    rw [hr] at hp
    obtain ⟨payload, hs, rfl⟩ := Option.map_eq_some_iff.mp hp
    exact h reportRef row payload hr hs

/-- The resubmission replaces the stored payload before its conflict can be found. -/
theorem resubmission_overwrites :
    ¬ PayloadsMatch memoryBackend (Runs.run (RawState.step memoryBackend) {} (resubmitted 200)) := by
  intro h
  have hs : ∃ p ∈ hashesAt memoryBackend (Runs.run (RawState.step memoryBackend) {} (resubmitted 200)) "rep_1",
      p.1 ≠ .ok p.2 := by
    decide +kernel
  obtain ⟨p, hp, hne⟩ := hs
  exact hne (h.hashes_eq p hp)

theorem resubmission_same_content :
    Runs.Steady (RawState.step memoryBackend) (ActionKeepsContent memoryBackend) {} (resubmitted 100) ∧
    ∀ visited, visited <+: resubmitted 100 →
      PayloadsMatch memoryBackend (Runs.run (RawState.step memoryBackend) {} visited) := by
  have h : Runs.Steady (RawState.step memoryBackend) (ActionKeepsContent memoryBackend) {} (resubmitted 100) := by
    decide +kernel
  exact ⟨h, payloads_immutable memoryBackend (resubmitted 100) h⟩

end ClearFeature
