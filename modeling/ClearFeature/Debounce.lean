import ClearFeature.Lib.LastMax
import ClearFeature.Propagation
import Mathlib.Data.List.Nodup
import Mathlib.Data.List.Perm.Basic

/-!
# The debounce store (`DebounceStore` of `fs_core/propagation.py`)

Updates for one entity and dependent coalesce into one entry, which keeps their
ids in order. Whatever is observed is in one entry of the next drain, or of what
is pending.
-/

namespace ClearFeature.Debounce

/-- What `observe` reads of an event. -/
structure Update where
  updateId : String
  dataTs : Int
  calcTs : Int
  deriving DecidableEq

structure Entry extends DebounceEntry where
  changedInputFeature : String
  changedInputVersion : Int
  latestUpdateId : String
  firstSeenAt : Int
  updatedAt : Int
  triggerUpdateIds : List String
  deriving DecidableEq

abbrev Store := List (DebounceKey × Entry)

/-- `_key(candidate)` -/
def keyOf (candidate : RecomputeCandidate) : Except PyErr DebounceKey := do
  let encoded ← candidate.entity.encoded
  return debounceKey candidate encoded

def Entry.start (candidate : RecomputeCandidate) (event : Update) (now : Int) : Entry where
  entity := candidate.entity
  view := candidate.view
  viewVersion := candidate.viewVersion
  dependentFeature := candidate.dependentFeature
  dependentVersion := candidate.dependentVersion
  changedInputFeature := candidate.changedInputFeature
  changedInputVersion := candidate.changedInputVersion
  latestUpdateId := event.updateId
  latestDataTs := event.dataTs
  latestCalcTs := event.calcTs
  firstSeenAt := now
  updatedAt := now
  count := 1
  triggerUpdateIds := [event.updateId]

/-- One more update for the entry; one that is not older moves the watermark. -/
def Entry.coalesce (entry : Entry) (event : Update) (now : Int) : Entry :=
  let entry := { entry with
    count := entry.count + 1
    updatedAt := now
    triggerUpdateIds := entry.triggerUpdateIds ++ [event.updateId] }
  if entry.latestDataTs ≤ event.dataTs then
    { entry with latestUpdateId := event.updateId, latestDataTs := event.dataTs, latestCalcTs := event.calcTs }
  else entry

/-- Whether this made a new unit, and the store; a key that cannot be built raises. -/
def observe (store : Store) (candidate : RecomputeCandidate) (event : Update) (now : Int) :
    Except PyErr (Bool × Store) := do
  let key ← keyOf candidate
  match Dict.get? store key with
  | none => return (true, Dict.set store key (.start candidate event now))
  | some entry => return (false, Dict.set store key (entry.coalesce event now))

def pending (store : Store) : List Entry := Dict.values store

def drain (store : Store) : List Entry × Store := (Dict.values store, [])

/-! ## Calls in any order -/

structure Observation where
  candidate : RecomputeCandidate
  event : Update
  now : Int
  deriving DecidableEq

inductive Call where
  | observe (o : Observation)
  | drain

/-- What the drains return, one after the other, and what is pending in the end. -/
def run : Store → List Call → List (List Entry)
  | store, [] => [pending store]
  | store, .drain :: calls => (drain store).1 :: run (drain store).2 calls
  | store, .observe o :: calls =>
    match Debounce.observe store o.candidate o.event o.now with
    | .ok (_, store) => run store calls
    | .error _ => run store calls

/-- The observations between the drains, those that did not raise. -/
def observed : List Observation → List Call → List (List Observation)
  | seen, [] => [seen]
  | seen, .drain :: calls => seen :: observed [] calls
  | seen, .observe o :: calls =>
    match keyOf o.candidate with
    | .ok _ => observed (seen ++ [o]) calls
    | .error _ => observed seen calls

/-- The key an entry is kept under. -/
def Entry.key (entry : Entry) : Except PyErr DebounceKey := do
  let encoded ← entry.entity.encoded
  return ⟨entry.entity.entityType, encoded, entry.view, entry.viewVersion, entry.dependentFeature,
    entry.dependentVersion⟩

def observationsFor (seen : List Observation) (key : Except PyErr DebounceKey) : List Observation :=
  seen.filter fun o => keyOf o.candidate = key

/-- What an entry says of the observations for its key: their ids in order, their number, and the last of those with the
greatest event time. -/
structure Entry.Accounts (entry : Entry) (os : List Observation) : Prop where
  triggers : entry.triggerUpdateIds = os.map fun o => o.event.updateId
  count : entry.count = os.length
  latest : ∃ o, LastMax.IsLastMax (fun o : Observation => o.event.dataTs) os o ∧
    entry.latestUpdateId = o.event.updateId ∧ entry.latestDataTs = o.event.dataTs ∧
    entry.latestCalcTs = o.event.calcTs

/-- Every observation is in one entry, and every entry accounts for its observations. -/
structure Accounted (seen : List Observation) (entries : List Entry) : Prop where
  once : (entries.flatMap fun entry => observationsFor seen entry.key).Perm seen
  entry : ∀ entry ∈ entries, entry.Accounts (observationsFor seen entry.key)

/-! ## What the store keeps -/

theorem perm_groups {α κ : Type} [DecidableEq κ] {f : α → κ} : ∀ {ks : List κ} {l : List α}, ks.Nodup →
    (∀ a ∈ l, f a ∈ ks) → (ks.flatMap fun k => l.filter fun a => f a = k).Perm l
  | [], l, _, h => by
    have hl : l = [] := List.eq_nil_iff_forall_not_mem.mpr fun a ha => (nomatch h a ha)
    rw [hl]
    exact List.Perm.nil
  | k :: ks, l, hn, h => by
    obtain ⟨hk, hks⟩ := List.nodup_cons.mp hn
    -- the groups of the other keys are those of what is left
    have hrest : (ks.flatMap fun k' => l.filter fun a => f a = k') =
        ks.flatMap fun k' => (l.filter fun a => !decide (f a = k)).filter fun a => f a = k' := by
      refine List.flatMap_congr fun k' hk' => ?_
      rw [List.filter_filter]
      refine List.filter_congr fun a _ => ?_
      by_cases ha : f a = k'
      · have hne : f a ≠ k := fun he => hk (he ▸ ha ▸ hk')
        simp [hne]
      · simp [ha]
    have hall : ∀ a ∈ l.filter fun a => !decide (f a = k), f a ∈ ks := by
      intro a ha
      obtain ⟨hm, hne⟩ := List.mem_filter.mp ha
      rcases List.mem_cons.mp (h a hm) with he | he
      · simp [he] at hne
      · exact he
    rw [List.flatMap_cons, hrest]
    exact ((perm_groups hks hall).append_left _).trans (List.filter_append_perm _ l)

/-- Each entry is under its key, and accounts for the observations of this key. -/
structure Kept (seen : List Observation) (store : Store) : Prop where
  nodup : (Dict.keys store).Nodup
  present : ∀ o ∈ seen, ∃ k ∈ Dict.keys store, keyOf o.candidate = .ok k
  key : ∀ k entry, Dict.get? store k = some entry → entry.key = .ok k
  accounts : ∀ k entry, Dict.get? store k = some entry → entry.Accounts (observationsFor seen (.ok k))

theorem Kept.empty : Kept [] [] where
  nodup := List.nodup_nil
  present := fun _ h => (nomatch h)
  key := fun _ _ h => (nomatch h)
  accounts := fun _ _ h => (nomatch h)

theorem Entry.start_key {candidate : RecomputeCandidate} {key : DebounceKey} (h : keyOf candidate = .ok key)
    (event : Update) (now : Int) : (Entry.start candidate event now).key = .ok key := by
  obtain ⟨encoded, he, h⟩ := bind_eq_ok.mp h
  cases h
  exact bind_eq_ok.mpr ⟨encoded, he, rfl⟩

theorem Entry.coalesce_key (entry : Entry) (event : Update) (now : Int) : (entry.coalesce event now).key = entry.key := by
  unfold Entry.coalesce
  dsimp only
  split
  · rfl
  · rfl

theorem observationsFor_append (seen : List Observation) (o : Observation) (key : Except PyErr DebounceKey) :
    observationsFor (seen ++ [o]) key =
      observationsFor seen key ++ if keyOf o.candidate = key then [o] else [] := by
  unfold observationsFor
  rw [List.filter_append]
  by_cases h : keyOf o.candidate = key
  · rw [if_pos h, List.filter_cons_of_pos (by simpa using h), List.filter_nil]
  · rw [if_neg h, List.filter_cons_of_neg (by simpa using h), List.filter_nil]

theorem Entry.start_accounts (o : Observation) : (Entry.start o.candidate o.event o.now).Accounts [o] where
  triggers := rfl
  count := rfl
  latest := ⟨o, ⟨[], [], rfl, fun _ h => (nomatch h), fun _ h => (nomatch h)⟩, rfl, rfl, rfl⟩

theorem Entry.Accounts.coalesce {entry : Entry} {os : List Observation} (h : entry.Accounts os) (o : Observation) :
    (entry.coalesce o.event o.now).Accounts (os ++ [o]) := by
  obtain ⟨last, hlast, hid, hdata, hcalc⟩ := h.latest
  obtain ⟨before, after, hos, hbefore, hafter⟩ := hlast
  unfold Entry.coalesce
  dsimp only
  by_cases hle : entry.latestDataTs ≤ o.event.dataTs
  · rw [if_pos hle]
    refine ⟨?_, ?_, o, ⟨os, [], rfl, fun b hb => ?_, fun _ hb => (nomatch hb)⟩, rfl, rfl, rfl⟩
    · simp [h.triggers]
    · simp [h.count]
    · have hb' : b.event.dataTs ≤ last.event.dataTs :=
        LastMax.IsLastMax.le _ ⟨before, after, hos, hbefore, hafter⟩ b hb
      show b.event.dataTs ≤ o.event.dataTs
      omega
  · rw [if_neg hle]
    refine ⟨?_, ?_, last, ⟨before, after ++ [o], ?_, hbefore, fun b hb => ?_⟩, hid, hdata, hcalc⟩
    · simp [h.triggers]
    · simp [h.count]
    · rw [hos, List.append_assoc, List.cons_append]
    · rcases List.mem_append.mp hb with hb | hb
      · exact hafter b hb
      · rw [List.mem_singleton.mp hb]
        show o.event.dataTs < last.event.dataTs
        omega

/-- Observing keeps the entries of the other keys. -/
theorem Kept.observe {seen : List Observation} {store store' : Store} (h : Kept seen store) {o : Observation} {new : Bool}
    (ho : observe store o.candidate o.event o.now = .ok (new, store')) : Kept (seen ++ [o]) store' := by
  obtain ⟨key, hkey, ho⟩ := bind_eq_ok.mp ho
  obtain ⟨entry, hentry, haccounts, rfl⟩ : ∃ entry : Entry, entry.key = .ok key ∧
      entry.Accounts (observationsFor (seen ++ [o]) (.ok key)) ∧ store' = Dict.set store key entry := by
    rw [observationsFor_append, if_pos hkey]
    cases hget : Dict.get? store key with
    | none =>
      rw [hget] at ho
      cases ho
      have hnone : observationsFor seen (.ok key) = [] := by
        refine List.filter_eq_nil_iff.mpr fun o' ho' he => ?_
        obtain ⟨k, hk, hk'⟩ := h.present o' ho'
        rw [of_decide_eq_true he] at hk'
        cases hk'
        exact Dict.get?_eq_none_iff.mp hget hk
      rw [hnone]
      exact ⟨_, Entry.start_key hkey _ _, Entry.start_accounts o, rfl⟩
    | some entry =>
      rw [hget] at ho
      cases ho
      exact ⟨_, (Entry.coalesce_key entry _ _).trans (h.key key entry hget), (h.accounts key entry hget).coalesce o, rfl⟩
  refine ⟨Dict.keys_set_nodup key entry h.nodup, fun o' ho' => ?_, fun k e hk => ?_, fun k e hk => ?_⟩
  · rcases List.mem_append.mp ho' with ho' | ho'
    · obtain ⟨k, hk, hk'⟩ := h.present o' ho'
      exact ⟨k, Dict.mem_keys_set.mpr (.inr hk), hk'⟩
    · rw [List.mem_singleton.mp ho']
      exact ⟨key, Dict.mem_keys_set.mpr (.inl rfl), hkey⟩
  · rw [Dict.get?_set] at hk
    by_cases he : key = k
    · rw [if_pos he] at hk
      cases hk
      exact he ▸ hentry
    · rw [if_neg he] at hk
      exact h.key k e hk
  · rw [Dict.get?_set] at hk
    by_cases he : key = k
    · rw [if_pos he] at hk
      cases hk
      exact he ▸ haccounts
    · rw [if_neg he] at hk
      have hother : keyOf o.candidate ≠ .ok k := fun hk' => he (by rw [hkey] at hk'; cases hk'; rfl)
      rw [observationsFor_append, if_neg hother, List.append_nil]
      exact h.accounts k e hk

theorem Kept.accounted {seen : List Observation} {store : Store} (h : Kept seen store) :
    Accounted seen (Dict.values store) := by
  have hentry : ∀ e ∈ store, e.2.key = .ok e.1 ∧ e.2.Accounts (observationsFor seen (.ok e.1)) := by
    intro e he
    have hget := Dict.get?_of_mem h.nodup he
    exact ⟨h.key _ _ hget, h.accounts _ _ hget⟩
  constructor
  · have hgroups : (Dict.values store).flatMap (fun entry => observationsFor seen entry.key) =
        ((Dict.keys store).map Except.ok).flatMap fun k => seen.filter fun o => keyOf o.candidate = k := by
      unfold Dict.values Dict.keys
      rw [List.map_map, List.flatMap_map, List.flatMap_map]
      refine List.flatMap_congr fun e he => ?_
      rw [(hentry e he).1]
      rfl
    rw [hgroups]
    refine perm_groups (h.nodup.map fun _ _ he => by cases he; rfl) fun o ho => ?_
    obtain ⟨k, hk, hk'⟩ := h.present o ho
    rw [hk']
    exact List.mem_map_of_mem hk
  · intro entry hm
    obtain ⟨e, he, rfl⟩ := List.mem_map.mp hm
    rw [(hentry e he).1]
    exact (hentry e he).2

theorem run_accounted : ∀ (calls : List Call) {seen : List Observation} {store : Store}, Kept seen store →
    List.Forall₂ Accounted (observed seen calls) (run store calls)
  | [], seen, store, h => .cons h.accounted .nil
  | .drain :: calls, seen, store, h => .cons h.accounted (run_accounted calls Kept.empty)
  | .observe o :: calls, seen, store, h => by
    rw [observed, run]
    cases hkey : keyOf o.candidate with
    | error e =>
      have ho : Debounce.observe store o.candidate o.event o.now = .error e := by
        unfold Debounce.observe
        rw [hkey]
        rfl
      rw [ho]
      exact run_accounted calls h
    | ok key =>
      obtain ⟨new, store', ho⟩ : ∃ new store', Debounce.observe store o.candidate o.event o.now = .ok (new, store') := by
        unfold Debounce.observe
        rw [hkey, ok_bind]
        cases Dict.get? store key with
        | none => exact ⟨_, _, rfl⟩
        | some entry => exact ⟨_, _, rfl⟩
      rw [ho]
      exact run_accounted calls (h.observe ho)

end ClearFeature.Debounce
