import ClearFeature.Immutable
import ClearFeature.Landing

/-!
# A landing accounts for every row

What is counted, listed and hashed is what became of the rows, one after the
other; the hash does not depend on their order.
-/

namespace ClearFeature

open Items

section
variable (b : LandingBackend) (request : LandingRequest) (env : LandingEnv)

/-- What becomes of the rows. -/
def landOutcomes (s : RawStores) (prepared : List PreparedRow) : List (Except PyErr Landed) :=
  outcomes (landOne b request env) s prepared.zipIdx

def landFinal (s : RawStores) (prepared : List PreparedRow) : RawStores := final (landOne b request env) s prepared.zipIdx

/-- One item for each row, numbered in order. -/
def landedItems (outs : List (Except PyErr Landed)) : List LandedItem :=
  outs.zipIdx.map fun out => landedItem request env out.2 out.1

def landedStatus : Except PyErr Landed → String
  | .error _ => itemRejected
  | .ok landed => if landed.isNew then itemWritten else itemDuplicate

/-- The contents of the rows that are not rejected. -/
def landedContents (outs : List (Except PyErr Landed)) : List Value := (returned outs).map fun landed => landed.row.payload

/-- A row that is not rejected is the one that was read. -/
def OutcomeOf (item : PreparedRow) (out : Except PyErr Landed) : Prop :=
  ∀ landed, out = .ok landed →
    item = .parsed landed.row ∧ landMeta b.toRawBackend (request.run env) landed.row = .ok landed.incoming

/-- The manifest and the items against what became of the rows. -/
structure LandingAccounts (prepared : List PreparedRow) (outs : List (Except PyErr Landed)) (manifest : LandedManifest)
    (items : List LandedItem) : Prop where
  rows : List.Forall₂ (OutcomeOf b request env) prepared outs
  read : manifest.itemCountRead = prepared.length
  total : manifest.itemCountRead =
    manifest.itemCountWritten + manifest.itemCountDuplicate + manifest.itemCountRejected
  written : manifest.itemCountWritten = (returned outs).countP fun landed => landed.isNew
  duplicate : manifest.itemCountDuplicate = (returned outs).countP fun landed => !landed.isNew
  rejected : manifest.itemCountRejected = (raised outs).length
  listed : items = landedItems request env outs
  numbered : items.map LandedItem.itemIndex = List.range prepared.length
  statuses : items.map (fun item => item.status) = outs.map landedStatus
  first : manifest.watermarkMinEventTs = ((returned outs).map fun landed => landed.row.eventTs).min?
  last : manifest.watermarkMaxEventTs = ((returned outs).map fun landed => landed.row.eventTs).max?
  hash : manifest.contentHash =
    "sha256:" ++ b.fingerprint (sortNames ((returned outs).map fun landed => landed.incoming.contentHash))

variable {b request env}

/-! ## The loop -/

/-- Scanning with a kept extreme gives the extreme of the list. -/
theorem foldl_extreme {f : Int → Int → Int} : ∀ (ts : List Int) (m : Int),
    ts.foldl (fun m t => some (m.elim t (f · t))) (some m) = some (ts.foldl f m)
  | [], _ => rfl
  | t :: ts, m => foldl_extreme ts (f m t)

theorem foldl_min? : ∀ ts : List Int, ts.foldl (fun m t => some (m.elim t (min · t))) none = ts.min?
  | [] => rfl
  | t :: ts => by
    rw [List.foldl_cons, List.min?_cons']
    exact foldl_extreme ts t

theorem foldl_max? : ∀ ts : List Int, ts.foldl (fun m t => some (m.elim t (max · t))) none = ts.max?
  | [] => rfl
  | t :: ts => by
    rw [List.foldl_cons, List.max?_cons']
    exact foldl_extreme ts t

/-- Where the loop stands after some outcomes. -/
structure LandingProgress.Adds (request : LandingRequest) (env : LandingEnv) (p : LandingProgress)
    (outs : List (Except PyErr Landed)) (p' : LandingProgress) : Prop where
  read : p'.read = p.read + outs.length
  written : p'.written = p.written + (returned outs).countP fun landed => landed.isNew
  duplicate : p'.duplicate = p.duplicate + (returned outs).countP fun landed => !landed.isNew
  rejected : p'.rejected = p.rejected + (raised outs).length
  items : p'.items = p.items ++ (outs.zipIdx p.read).map fun out => landedItem request env out.2 out.1
  minTs : p'.minTs = ((returned outs).map fun landed => landed.row.eventTs).foldl
    (fun m t => some (m.elim t (min · t))) p.minTs
  maxTs : p'.maxTs = ((returned outs).map fun landed => landed.row.eventTs).foldl
    (fun m t => some (m.elim t (max · t))) p.maxTs
  hashes : p'.writtenHashes = p.writtenHashes ++ (returned outs).map fun landed => landed.incoming.contentHash

theorem tally_adds : ∀ (outs : List (Except PyErr Landed)) (p : LandingProgress),
    p.Adds request env outs (tally (LandingProgress.accept request env) (LandingProgress.reject request env) p outs)
  | [], p => by
    refine ⟨rfl, rfl, rfl, rfl, ?_, rfl, rfl, ?_⟩
    · exact (List.append_nil _).symm
    · exact (List.append_nil _).symm
  | .error e :: outs, p => by
    have ih := tally_adds outs (p.reject request env e)
    rw [tally]
    refine ⟨?_, ih.written, ih.duplicate, ?_, ?_, ih.minTs, ih.maxTs, ih.hashes⟩
    · rw [ih.read, List.length_cons]
      exact Nat.succ_add_eq_add_succ _ _
    · rw [ih.rejected, raised, List.length_cons]
      exact Nat.succ_add_eq_add_succ _ _
    · rw [ih.items, List.zipIdx_cons, List.map_cons]
      exact List.append_cons .. ▸ rfl
  | .ok landed :: outs, p => by
    have ih := tally_adds outs (p.accept request env landed)
    rw [tally]
    refine ⟨?_, ?_, ?_, ih.rejected, ?_, ih.minTs, ih.maxTs, ?_⟩
    · rw [ih.read, List.length_cons]
      exact Nat.succ_add_eq_add_succ _ _
    · rw [ih.written, returned, List.countP_cons]
      cases hnew : landed.isNew with
      | true => simp [LandingProgress.accept, hnew]; omega
      | false => simp [LandingProgress.accept, hnew]
    · rw [ih.duplicate, returned, List.countP_cons]
      cases hnew : landed.isNew with
      | true => simp [LandingProgress.accept, hnew]
      | false => simp [LandingProgress.accept, hnew]; omega
    · rw [ih.items, List.zipIdx_cons, List.map_cons]
      exact List.append_cons .. ▸ rfl
    · rw [ih.hashes, returned, List.map_cons]
      exact List.append_cons .. ▸ rfl

theorem countP_new (landed : List Landed) :
    landed.length = (landed.countP fun l => l.isNew) + landed.countP fun l => !l.isNew := by
  induction landed with
  | nil => rfl
  | cons l landed ih =>
    rw [List.length_cons, List.countP_cons, List.countP_cons, ih]
    cases l.isNew with
    | true => simp only [if_true, Bool.not_true, Bool.false_eq_true, if_false]; omega
    | false => simp only [if_true, Bool.not_false, Bool.false_eq_true, if_false]; omega

theorem landedItems_numbered (outs : List (Except PyErr Landed)) :
    (landedItems request env outs).map LandedItem.itemIndex = List.range outs.length := by
  have hindex : ∀ out : Except PyErr Landed × Nat, (landedItem request env out.2 out.1).itemIndex = out.2
    | (.error _, _) => rfl
    | (.ok _, _) => rfl
  unfold landedItems
  rw [List.map_map, List.range_eq_range', ← List.zipIdx_map_snd 0 outs]
  exact List.map_congr_left fun out _ => hindex out

theorem landedItems_statuses (outs : List (Except PyErr Landed)) :
    (landedItems request env outs).map (fun item => item.status) = outs.map landedStatus := by
  have hstatus : ∀ out : Except PyErr Landed × Nat, (landedItem request env out.2 out.1).status = landedStatus out.1
    | (.error _, _) => rfl
    | (.ok _, _) => rfl
  unfold landedItems
  rw [List.map_map]
  conv_rhs => rw [← List.zipIdx_map_fst 0 outs, List.map_map]
  exact List.map_congr_left fun out _ => hstatus out

theorem landOne_outcome (s : RawStores) (item : PreparedRow × Nat) :
    OutcomeOf b request env item.1 (landOne b request env s item).2 := by
  intro landed h
  unfold landOne at h
  cases hitem : item.1 with
  | malformed error =>
    rw [hitem] at h
    cases h
  | parsed row =>
    rw [hitem] at h
    dsimp only at h
    cases hm : landMeta b.toRawBackend (request.run env) row with
    | error e =>
      rw [hm] at h
      cases h
    | ok incoming =>
      rw [hm] at h
      dsimp only at h
      cases hr : env.upsertRaises item.2 with
      | some e =>
        rw [hr] at h
        cases h
      | none =>
        rw [hr] at h
        dsimp only at h
        cases hu : (s.repo.upsert incoming (some (request.run env).correctionContext) (env.now item.2)).2 with
        | error e =>
          rw [hu] at h
          cases h
        | ok isNew =>
          rw [hu] at h
          dsimp only at h
          cases hp : env.putRaises item.2 with
          | some e =>
            rw [hp] at h
            cases h
          | none =>
            rw [hp] at h
            cases h
            exact ⟨rfl, hm⟩

theorem outcomes_of : ∀ (s : RawStores) (prepared : List PreparedRow) (n : Nat),
    List.Forall₂ (OutcomeOf b request env) prepared (outcomes (landOne b request env) s (prepared.zipIdx n))
  | _, [], _ => .nil
  | s, item :: prepared, n => .cons (landOne_outcome s (item, n)) (outcomes_of _ prepared (n + 1))

/-- What is counted, listed and hashed after some outcomes. -/
theorem manifest_accounts {prepared : List PreparedRow} {p : LandingProgress} {outs : List (Except PyErr Landed)}
    (hrows : List.Forall₂ (OutcomeOf b request env) prepared outs) (h : LandingProgress.Adds request env {} outs p) :
    LandingAccounts b request env prepared outs (p.manifest b request env) p.items where
  rows := hrows
  read := h.read.trans ((Nat.zero_add _).trans hrows.length_eq.symm)
  total := by
    have hlength := length_returned outs
    have hsplit := countP_new (returned outs)
    have hread : p.read = outs.length := h.read.trans (Nat.zero_add _)
    have hwritten : p.written = (returned outs).countP fun landed => landed.isNew := h.written.trans (Nat.zero_add _)
    have hduplicate : p.duplicate = (returned outs).countP fun landed => !landed.isNew :=
      h.duplicate.trans (Nat.zero_add _)
    have hrejected : p.rejected = (raised outs).length := h.rejected.trans (Nat.zero_add _)
    show p.read = p.written + p.duplicate + p.rejected
    omega
  written := h.written.trans (Nat.zero_add _)
  duplicate := h.duplicate.trans (Nat.zero_add _)
  rejected := h.rejected.trans (Nat.zero_add _)
  listed := h.items
  numbered := by
    have hitems : p.items = landedItems request env outs := h.items
    rw [hitems, landedItems_numbered, hrows.length_eq]
  statuses := by
    have hitems : p.items = landedItems request env outs := h.items
    rw [hitems, landedItems_statuses]
  first := h.minTs.trans (foldl_min? _)
  last := h.maxTs.trans (foldl_max? _)
  hash := by
    show "sha256:" ++ b.fingerprint (sortNames p.writtenHashes) = _
    rw [h.hashes]
    rfl

variable {s : RawStores} {datasets : LandedDatasets} {prepared : List PreparedRow}

/-- A landing that comes to its end accounts for its rows. -/
theorem accounts_of_landed {manifest : LandedManifest}
    (h : (landReportRows b request env prepared s datasets).2.2 = .ok manifest) :
    ∃ items, landReportRows b request env prepared s datasets =
        (landFinal b request env s prepared, datasets.record manifest items, .ok manifest) ∧
      LandingAccounts b request env prepared (landOutcomes b request env s prepared) manifest items := by
  unfold landReportRows at h ⊢
  by_cases hregister : request.copyMode = registerInPlace
  · rw [if_pos hregister] at h
    cases h
  rw [if_neg hregister] at h ⊢
  by_cases hcopy : request.copyMode ≠ copyMode
  · rw [if_pos hcopy] at h
    cases h
  rw [if_neg hcopy] at h ⊢
  dsimp only at h ⊢
  cases hloop : (loop (landOne b request env) (fun _ => !request.failFast) (LandingProgress.accept request env)
      (LandingProgress.reject request env) s prepared.zipIdx {}).2 with
  | error e =>
    rw [hloop] at h
    cases h
  | ok p =>
    have hrun : loop (landOne b request env) (fun _ => !request.failFast) (LandingProgress.accept request env)
        (LandingProgress.reject request env) s prepared.zipIdx {} = (landFinal b request env s prepared, .ok (tally
          (LandingProgress.accept request env) (LandingProgress.reject request env) {}
          (landOutcomes b request env s prepared))) := loop_isolated (isolated_of_loop hloop)
    rw [hloop] at h
    cases h
    rw [hrun] at hloop
    cases hloop
    rw [hrun]
    exact ⟨_, rfl, manifest_accounts (outcomes_of s prepared 0) (tally_adds _ {})⟩

variable (b request env s datasets prepared) in
/-- A landing comes to its end if rows may be rejected, or if none is. -/
theorem landed_iff : (∃ manifest, (landReportRows b request env prepared s datasets).2.2 = .ok manifest) ↔
    request.copyMode = copyMode ∧ (request.failFast = false ∨ raised (landOutcomes b request env s prepared) = []) := by
  unfold landReportRows
  constructor
  · intro ⟨manifest, h⟩
    by_cases hregister : request.copyMode = registerInPlace
    · rw [if_pos hregister] at h
      cases h
    rw [if_neg hregister] at h
    by_cases hcopy : request.copyMode = copyMode
    · refine ⟨hcopy, ?_⟩
      rw [if_neg (not_not.mpr hcopy)] at h
      dsimp only at h
      cases hloop : (loop (landOne b request env) (fun _ => !request.failFast) (LandingProgress.accept request env)
          (LandingProgress.reject request env) s prepared.zipIdx {}).2 with
      | error e =>
        rw [hloop] at h
        cases h
      | ok p =>
        have hisolated := isolated_of_loop hloop
        cases hfast : request.failFast with
        | false => exact .inl rfl
        | true =>
          rw [hfast] at hisolated
          exact .inr (List.eq_nil_iff_forall_not_mem.mpr fun e he => nomatch hisolated e he)
    · rw [if_pos hcopy] at h
      cases h
  · intro ⟨hcopy, hfast⟩
    have hregister : request.copyMode ≠ registerInPlace := by
      rw [hcopy]
      decide
    have hisolated : ∀ e ∈ raised (outcomes (landOne b request env) s prepared.zipIdx),
        (fun _ : PyErr => !request.failFast) e = true := by
      intro e he
      rcases hfast with hfast | hnone
      · rw [hfast]
        rfl
      · rw [show raised (outcomes (landOne b request env) s prepared.zipIdx) = [] from hnone] at he
        cases he
    rw [if_neg hregister, if_neg (not_not.mpr hcopy), loop_isolated hisolated]
    exact ⟨_, rfl⟩

/-! ## The content hash -/

theorem sortNames_eq_of_perm {names names' : List String} (h : names.Perm names') : sortNames names = sortNames names' := by
  have hp : (sortNames names).Perm (sortNames names') :=
    (List.perm_insertionSort _ names).trans (h.trans (List.perm_insertionSort _ names').symm)
  exact hp.eq_of_pairwise (fun _ _ _ _ hle hge => String.le_antisymm hle hge) (List.pairwise_insertionSort _ names)
    (List.pairwise_insertionSort _ names')

theorem content_hashes {prepared : List PreparedRow} {outs : List (Except PyErr Landed)}
    (h : List.Forall₂ (OutcomeOf b request env) prepared outs) :
    (returned outs).map (fun landed => Except.ok landed.incoming.contentHash) =
      (landedContents outs).map b.payloadHash := by
  induction h with
  | nil => rfl
  | @cons item out _ _ hout _ ih =>
    cases out with
    | error e => exact ih
    | ok landed =>
      have hhash := landMeta_hash (hout landed rfl).2
      unfold landedContents at ih ⊢
      rw [returned, List.map_cons, List.map_cons, List.map_cons, hhash, ih]

/-- The hash is that of the sorted content hashes. -/
theorem hash_of_contents {request₁ request₂ : LandingRequest} {env₁ env₂ : LandingEnv} {prepared₁ prepared₂ : List PreparedRow}
    {outs₁ outs₂ : List (Except PyErr Landed)} {manifest₁ manifest₂ : LandedManifest} {items₁ items₂ : List LandedItem}
    (h₁ : LandingAccounts b request₁ env₁ prepared₁ outs₁ manifest₁ items₁)
    (h₂ : LandingAccounts b request₂ env₂ prepared₂ outs₂ manifest₂ items₂)
    (hp : (landedContents outs₁).Perm (landedContents outs₂)) : manifest₁.contentHash = manifest₂.contentHash := by
  have hok : ((returned outs₁).map fun landed => (Except.ok landed.incoming.contentHash : Except PyErr String)).Perm
      ((returned outs₂).map fun landed => Except.ok landed.incoming.contentHash) := by
    rw [content_hashes h₁.rows, content_hashes h₂.rows]
    exact hp.map _
  have hhashes : ((returned outs₁).map fun landed => landed.incoming.contentHash).Perm
      ((returned outs₂).map fun landed => landed.incoming.contentHash) := by
    have hget := hok.map fun hash => hash.toOption.getD ""
    rw [List.map_map, List.map_map] at hget
    exact hget
  rw [h₁.hash, h₂.hash, sortNames_eq_of_perm hhashes]

/-! ## A report, a malformed row, a conflict and the report again -/

/-- The memory backend, with the fingerprints of a few datasets of the two reports. -/
def memoryLanding : LandingBackend where
  toRawBackend := memoryBackend
  fingerprint := fun hashes =>
    let income100 := "sha256:921ccc3b023a31cba91bf29807653e0be7e56aeac60d87f0b5fbc7a2412a9881"
    let income200 := "sha256:bb5dad991c4e3d96e46dd57608104aa7cc11699bc9c54498c3e4316b0d108bb3"
    (Dict.get? [
      ([income100], "011a8c8624b888711400cb1a3f6ef06915c3f6c36f3b52dd161962d7f2525323"),
      ([income100, income100], "92ac86d5c223b6e4117679e9cbe67d6fece2cfdae0451d291a24d8032c7bfe38"),
      ([income100, income200], "a294f41bb5c0059d897b6ec4434221860b040ae4152f814a96249eec7bc38f45"),
      ([income100, income100, income200, income200, income200],
        "03fd343716967687d723a1992a5cf06bffea16df939a95370f8e1872f70fe4e7")] hashes).getD ""

def taxLanding : LandingRequest where
  sourceKind := sourceKindJsonl
  entityType := "user"
  sourceName := "tax_report"
  reportType := "tax"

def quietLanding (hex : String) (createdAt : Int) : LandingEnv where
  manifestHex := hex
  datasetHex := hex
  createdAt := createdAt
  now := fun i => createdAt + i

def taxRow (reportRef : Option String) (n eventTs : Int) : JsonlReportRow where
  entityKey := [("user_id", "1")]
  eventTs := eventTs
  payload := .obj [("income", .int n)]
  reportRef := reportRef

def mixedRows : List PreparedRow := [
  .parsed (taxRow (some "rep_1") 100 10),
  .malformed "Expecting value",
  .parsed (taxRow (some "rep_1") 200 10),
  .parsed (taxRow (some "rep_1") 100 10)]

variable (b env s datasets prepared) in
/-- Without `fail_fast`, a landing counts and lists every row, and its content hash is that of any landing whose rows
that are not rejected have the same contents, in any order. -/
theorem landing_accounts (hcopy : request.copyMode = copyMode) (hfast : request.failFast = false) :
    ∃ manifest items, landReportRows b request env prepared s datasets =
        (landFinal b request env s prepared, datasets.record manifest items, .ok manifest) ∧
      LandingAccounts b request env prepared (landOutcomes b request env s prepared) manifest items ∧
      ∀ request' env' prepared' s' datasets' manifest',
        (landReportRows b request' env' prepared' s' datasets').2.2 = .ok manifest' →
        (landedContents (landOutcomes b request' env' s' prepared')).Perm
          (landedContents (landOutcomes b request env s prepared)) →
        manifest'.contentHash = manifest.contentHash := by
  obtain ⟨manifest, hmanifest⟩ := (landed_iff b request env s datasets prepared).mpr ⟨hcopy, .inl hfast⟩
  obtain ⟨items, hrun, haccounts⟩ := accounts_of_landed hmanifest
  refine ⟨manifest, items, hrun, haccounts, fun request' env' prepared' s' datasets' manifest' h' hp => ?_⟩
  obtain ⟨items', -, haccounts'⟩ := accounts_of_landed h'
  exact hash_of_contents haccounts' haccounts hp

theorem landing_accounts_mixed :
    ∃ manifest items, landReportRows memoryLanding taxLanding (quietLanding "1" 100) mixedRows {} {} =
        (landFinal memoryLanding taxLanding (quietLanding "1" 100) {} mixedRows,
          LandedDatasets.record {} manifest items, .ok manifest) ∧
      (manifest.itemCountRead, manifest.itemCountWritten, manifest.itemCountDuplicate, manifest.itemCountRejected) =
        (4, 1, 1, 2) ∧
      items.map (fun item => item.status) = [itemWritten, itemRejected, itemRejected, itemDuplicate] ∧
      manifest.contentHash = "sha256:92ac86d5c223b6e4117679e9cbe67d6fece2cfdae0451d291a24d8032c7bfe38" := by
  obtain ⟨manifest, items, hrun, haccounts, -⟩ := landing_accounts memoryLanding (quietLanding "1" 100) {} {} mixedRows
    (rfl : taxLanding.copyMode = copyMode) rfl
  refine ⟨manifest, items, hrun, ?_, ?_, ?_⟩
  · rw [haccounts.read, haccounts.written, haccounts.duplicate, haccounts.rejected]
    decide +kernel
  · rw [haccounts.statuses]
    decide +kernel
  · rw [haccounts.hash]
    decide +kernel

end

end ClearFeature
