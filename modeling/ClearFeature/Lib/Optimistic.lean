import ClearFeature.Lib.Runs
import Mathlib.Logic.Function.Basic

/-!
# Optimistic transactions

A transaction watches a key, reads its value, and executes the write it has
queued only if nobody has written the key in the meantime; otherwise it starts
over. Other writers write without asking. Whatever the interleaving, the values
are those of the transactions executed one after another, each at once.
-/

namespace Optimistic

section
variable {ι K V I R : Type}

/-- A transaction on one key: from an input and the value it reads, the write that it queues, if any, and its result. -/
structure Txn (K V I R : Type) where
  key : K
  body : I → V → Option V × R

inductive Phase (V I R : Type) where
  | started
  | watching (version : Nat)
  | queued (version : Nat) (input : I) (write : Option V) (result : R)
  | done (result : R)

structure Store (K V : Type) where
  value : K → V
  version : K → Nat

inductive Event (ι K V I : Type) where
  | commit (i : ι) (input : I)
  | write (k : K) (v : V)

/-- `log` is what has been written, in order; `aborts` counts the attempts of each client that were not executed. -/
structure World (ι K V I R : Type) where
  store : Store K V
  phase : ι → Phase V I R := fun _ => .started
  log : List (Event ι K V I) := []
  aborts : ι → Nat := fun _ => 0

inductive Action (ι K V I : Type) where
  | advance (i : ι) (input : I)
  | write (k : K) (v : V)

def clientOf? : Event ι K V I → Option ι
  | .commit i _ => some i
  | .write _ _ => none

/-- The clients whose transactions have been executed, in order. -/
def committed (log : List (Event ι K V I)) : List ι := log.filterMap clientOf?

theorem committed_snoc (log : List (Event ι K V I)) (e : Event ι K V I) :
    committed (log ++ [e]) = committed log ++ (clientOf? e).toList := by
  unfold committed
  rw [List.filterMap_append]
  cases h : clientOf? e <;> simp [h]

variable [DecidableEq K]

def Store.write (s : Store K V) (k : K) (v : V) : Store K V where
  value := Function.update s.value k v
  version := Function.update s.version k (s.version k + 1)

def Store.execute (s : Store K V) (k : K) : Option V → Store K V
  | none => s
  | some v => s.write k v

variable (txn : ι → Txn K V I R)

/-! ## One after another -/

/-- What an event leaves when nothing happens at the same time. -/
def apply (value : K → V) : Event ι K V I → K → V
  | .commit i input =>
    match ((txn i).body input (value (txn i).key)).1 with
    | none => value
    | some v => Function.update value (txn i).key v
  | .write k v => Function.update value k v

def replay (value : K → V) (log : List (Event ι K V I)) : K → V := log.foldl (apply txn) value

@[simp] theorem replay_nil (value : K → V) : replay txn value [] = value := rfl

theorem replay_snoc (value : K → V) (log : List (Event ι K V I)) (e : Event ι K V I) :
    replay txn value (log ++ [e]) = apply txn (replay txn value log) e := by
  simp [replay, List.foldl_append]

/-- The event may have written the key. -/
def touches (k : K) : Event ι K V I → Bool
  | .commit i _ => (txn i).key = k
  | .write k' _ => k' = k

/-- The transaction of `i` has been executed once, and it read what the log before it leaves. -/
def Executed (init : K → V) (log : List (Event ι K V I)) (i : ι) (result : R) : Prop :=
  ∃ before input after, log = before ++ .commit i input :: after ∧
    result = ((txn i).body input (replay txn init before (txn i).key)).2

theorem Executed.snoc {init : K → V} {log : List (Event ι K V I)} {i : ι} {result : R}
    (h : Executed txn init log i result) (e : Event ι K V I) : Executed txn init (log ++ [e]) i result := by
  obtain ⟨before, input, after, hlog, hresult⟩ := h
  exact ⟨before, input, after ++ [e], by simp [hlog], hresult⟩

/-! ## Interleavings -/

section
variable [DecidableEq ι]

def advance (w : World ι K V I R) (i : ι) (input : I) : World ι K V I R :=
  match w.phase i with
  | .started => { w with phase := Function.update w.phase i (.watching (w.store.version (txn i).key)) }
  | .watching n =>
    let (write, result) := (txn i).body input (w.store.value (txn i).key)
    { w with phase := Function.update w.phase i (.queued n input write result) }
  | .queued n input write result =>
    if w.store.version (txn i).key = n then
      { w with
        store := w.store.execute (txn i).key write
        phase := Function.update w.phase i (.done result)
        log := w.log ++ [.commit i input] }
    else
      { w with
        phase := Function.update w.phase i .started
        aborts := Function.update w.aborts i (w.aborts i + 1) }
  | .done _ => w

def step (w : World ι K V I R) : Action ι K V I → World ι K V I R
  | .advance i input => advance txn w i input
  | .write k v => { w with store := w.store.write k v, log := w.log ++ [.write k v] }

def run (w : World ι K V I R) (actions : List (Action ι K V I)) : World ι K V I R := Runs.run (step txn) w actions

end

/-! ## The invariant -/

/-- What a client holds on to is no newer than the store, and as long as nobody has written it is still right. -/
def PhaseInv (s : Store K V) (i : ι) (aborts : Nat) : Phase V I R → Prop
  | .started => aborts ≤ s.version (txn i).key
  | .watching n => aborts ≤ n ∧ n ≤ s.version (txn i).key
  | .queued n input write result => aborts ≤ n ∧ n ≤ s.version (txn i).key ∧
      (s.version (txn i).key = n → (write, result) = (txn i).body input (s.value (txn i).key))
  | .done _ => aborts ≤ s.version (txn i).key

structure Inv (init : K → V) (w : World ι K V I R) : Prop where
  value : w.store.value = replay txn init w.log
  phase : ∀ i, PhaseInv txn w.store i (w.aborts i) (w.phase i)
  once : (committed w.log).Nodup
  done : ∀ i, i ∈ committed w.log ↔ ∃ result, w.phase i = .done result
  executed : ∀ i result, w.phase i = .done result → Executed txn init w.log i result

variable {txn}

/-- A write makes what is held on to older. -/
theorem PhaseInv.write {s : Store K V} {i : ι} {aborts : Nat} {phase : Phase V I R} (h : PhaseInv txn s i aborts phase)
    (k : K) (v : V) : PhaseInv txn (s.write k v) i aborts phase := by
  have hle : s.version (txn i).key ≤ (s.write k v).version (txn i).key := by
    by_cases hk : (txn i).key = k
    · subst hk
      simp [Store.write]
    · simp [Store.write, Function.update_of_ne hk]
  cases phase with
  | started => exact Nat.le_trans h hle
  | watching n => exact ⟨h.1, Nat.le_trans h.2 hle⟩
  | done result => exact Nat.le_trans h hle
  | queued n input write result =>
    obtain ⟨habort, hn, hbody⟩ := h
    refine ⟨habort, Nat.le_trans hn hle, ?_⟩
    intro heq
    by_cases hk : (txn i).key = k
    · subst hk
      simp [Store.write] at heq
      omega
    · simp only [Store.write, Function.update_of_ne hk] at heq ⊢
      exact hbody heq

theorem PhaseInv.execute {s : Store K V} {i : ι} {aborts : Nat} {phase : Phase V I R} (h : PhaseInv txn s i aborts phase)
    (k : K) (write : Option V) : PhaseInv txn (s.execute k write) i aborts phase := by
  cases write with
  | none => exact h
  | some v => exact h.write k v

variable {init : K → V} {w : World ι K V I R}

theorem Inv.initial {s : Store K V} : Inv txn s.value { store := s } where
  value := rfl
  phase i := Nat.zero_le _
  once := List.nodup_nil
  done i := by simp [committed]
  executed i result h := by cases h

variable [DecidableEq ι]

/-- Only the phase of one client moves, and not to its end. -/
theorem Inv.move (h : Inv txn init w) (i : ι) {phase : Phase V I R} {aborts : Nat}
    (hphase : PhaseInv txn w.store i aborts phase) (hopen : ∀ result, w.phase i ≠ .done result)
    (hnext : ∀ result, phase ≠ .done result) :
    Inv txn init { w with phase := Function.update w.phase i phase, aborts := Function.update w.aborts i aborts } := by
  refine ⟨h.value, ?_, h.once, ?_, ?_⟩
  · intro j
    by_cases hj : j = i
    · subst hj
      simpa using hphase
    · simpa [Function.update_of_ne hj] using h.phase j
  · intro j
    by_cases hj : j = i
    · subst hj
      simp only [Function.update_self, h.done]
      constructor
      · rintro ⟨result, hr⟩
        exact absurd hr (hopen result)
      · rintro ⟨result, hr⟩
        exact absurd hr (hnext result)
    · simpa [Function.update_of_ne hj] using h.done j
  · intro j result hr
    by_cases hj : j = i
    · subst hj
      simp only [Function.update_self] at hr
      exact absurd hr (hnext result)
    · simp only [Function.update_of_ne hj] at hr
      exact h.executed j result hr

theorem Inv.write (h : Inv txn init w) (k : K) (v : V) : Inv txn init (step txn w (.write k v)) := by
  refine ⟨?_, fun i => (h.phase i).write k v, ?_, ?_, ?_⟩
  · simp only [step, replay_snoc, apply, ← h.value]
    rfl
  · simpa [step, committed_snoc, clientOf?] using h.once
  · simpa [step, committed_snoc, clientOf?] using h.done
  · intro i result hr
    exact (h.executed i result hr).snoc txn _

theorem Inv.commit (h : Inv txn init w) {i : ι} {n : Nat} {input : I} {write : Option V} {result : R}
    (hq : w.phase i = .queued n input write result) (hn : w.store.version (txn i).key = n) :
    Inv txn init
      { w with
        store := w.store.execute (txn i).key write
        phase := Function.update w.phase i (.done result)
        log := w.log ++ [.commit i input] } := by
  have hi := h.phase i
  rw [hq] at hi
  have hbody : (write, result) = (txn i).body input (w.store.value (txn i).key) := hi.2.2 hn
  have hnew : i ∉ committed w.log := by
    rw [h.done]
    rintro ⟨r, hr⟩
    rw [hq] at hr
    cases hr
  refine ⟨?_, ?_, ?_, ?_, ?_⟩
  · rw [replay_snoc, apply, ← h.value, ← hbody]
    cases write <;> rfl
  · intro j
    by_cases hj : j = i
    · subst hj
      have hle : w.aborts j ≤ w.store.version (txn j).key := Nat.le_trans hi.1 hi.2.1
      have hdone : PhaseInv txn w.store j (w.aborts j) (.done result : Phase V I R) := hle
      simpa using hdone.execute (txn j).key write
    · simpa [Function.update_of_ne hj] using (h.phase j).execute (txn i).key write
  · rw [committed_snoc]
    simp only [clientOf?, Option.toList_some]
    exact List.nodup_append.mpr ⟨h.once, by simp, by
      intro a ha b hb
      simp only [List.mem_singleton] at hb
      subst hb
      intro hab
      subst hab
      exact hnew ha⟩
  · intro j
    rw [committed_snoc]
    by_cases hj : j = i
    · subst hj
      simp [clientOf?]
    · simp [clientOf?, hj, h.done j]
  · intro j r hr
    by_cases hj : j = i
    · subst hj
      simp only [Function.update_self, Phase.done.injEq] at hr
      subst hr
      refine ⟨w.log, input, [], rfl, ?_⟩
      rw [← h.value, ← hbody]
    · simp only [Function.update_of_ne hj] at hr
      exact (h.executed j r hr).snoc txn _

theorem Inv.advance (h : Inv txn init w) (i : ι) (input : I) : Inv txn init (step txn w (.advance i input)) := by
  have hi := h.phase i
  have hself : Function.update w.aborts i (w.aborts i) = w.aborts := Function.update_eq_self i w.aborts
  simp only [step, Optimistic.advance]
  cases hp : w.phase i with
  | started =>
    rw [hp] at hi
    have hwatching : PhaseInv txn w.store i (w.aborts i) (.watching (w.store.version (txn i).key)) := ⟨hi, Nat.le_refl _⟩
    have := h.move i hwatching (by simp [hp]) (by simp)
    rwa [hself] at this
  | watching n =>
    rw [hp] at hi
    have hqueued : PhaseInv txn w.store i (w.aborts i) (.queued n input ((txn i).body input (w.store.value (txn i).key)).1
        ((txn i).body input (w.store.value (txn i).key)).2) := ⟨hi.1, hi.2, fun _ => Eq.refl _⟩
    have := h.move i hqueued (by simp [hp]) (by simp)
    rwa [hself] at this
  | done result => exact h
  | queued n input' write result =>
    rw [hp] at hi
    dsimp only
    split
    · rename_i hn
      exact h.commit hp hn
    · -- somebody has written since the key was watched
      rename_i hn
      have hstarted : PhaseInv txn w.store i (w.aborts i + 1) .started := by
        have := hi.1
        have := hi.2.1
        simp only [PhaseInv]
        omega
      exact h.move i hstarted (by simp [hp]) (by simp)

theorem Inv.step (h : Inv txn init w) : ∀ a : Action ι K V I, Inv txn init (Optimistic.step txn w a)
  | .advance i input => h.advance i input
  | .write k v => h.write k v

variable (txn) in
/-- Whatever the interleaving, the invariant holds in every state. -/
theorem run_inv (s : Store K V) (actions : List (Action ι K V I)) :
    Inv txn s.value (run txn { store := s } actions) := by
  have hsteady : ∀ (actions : List (Action ι K V I)) (w : World ι K V I R), Inv txn s.value w →
      Inv txn s.value (run txn w actions) := by
    intro actions
    induction actions with
    | nil => intro w h; exact h
    | cons a actions ih => intro w h; exact ih _ (h.step a)
  exact hsteady actions _ Inv.initial

/-! ## Attempts -/

theorem version_execute (s : Store K V) (k : K) (write : Option V) (k' : K) :
    (s.execute k write).version k' ≤ s.version k' + (if k = k' then 1 else 0) := by
  cases write with
  | none => simp [Store.execute]
  | some v =>
    by_cases hk : k' = k
    · subst hk
      simp [Store.execute, Store.write]
    · simp [Store.execute, Store.write, Function.update_of_ne hk]

theorem version_step (w : World ι K V I R) (a : Action ι K V I) (k : K) (n : Nat)
    (h : w.store.version k ≤ n + w.log.countP (touches txn k)) :
    (step txn w a).store.version k ≤ n + (step txn w a).log.countP (touches txn k) := by
  cases a with
  | write k' v =>
    have := version_execute w.store k' (some v) k
    simp only [Store.execute] at this
    simp only [step, List.countP_append, List.countP_singleton, touches, decide_eq_true_eq]
    omega
  | advance i input =>
    simp only [step, Optimistic.advance]
    cases hp : w.phase i with
    | started => exact h
    | watching m => exact h
    | done result => exact h
    | queued m input' write result =>
      have := version_execute w.store (txn i).key write k
      dsimp only
      split
      · simp only [List.countP_append, List.countP_singleton, touches, decide_eq_true_eq]
        omega
      · exact h

variable (txn) in
/-- An attempt is not executed only because somebody else has written the key. -/
theorem aborts_le (s : Store K V) (actions : List (Action ι K V I)) (i : ι) :
    (run txn { store := s } actions).aborts i ≤
      s.version (txn i).key + (run txn { store := s } actions).log.countP (touches txn (txn i).key) := by
  have hversion : (run txn { store := s } actions).store.version (txn i).key ≤
      s.version (txn i).key + (run txn { store := s } actions).log.countP (touches txn (txn i).key) := by
    have hrun : ∀ (actions : List (Action ι K V I)) (w : World ι K V I R),
        w.store.version (txn i).key ≤ s.version (txn i).key + w.log.countP (touches txn (txn i).key) →
        (run txn w actions).store.version (txn i).key ≤
          s.version (txn i).key + (run txn w actions).log.countP (touches txn (txn i).key) := by
      intro actions
      induction actions with
      | nil => intro w h; exact h
      | cons a actions ih => intro w h; exact ih _ (version_step w a _ _ h)
    apply hrun
    simp
  have h := (run_inv txn s actions).phase i
  apply Nat.le_trans ?_ hversion
  cases hp : (run txn { store := s } actions).phase i with
  | started => rw [hp] at h; exact h
  | watching n => rw [hp] at h; exact Nat.le_trans h.1 h.2
  | queued n input write result => rw [hp] at h; exact Nat.le_trans h.1 h.2.1
  | done result => rw [hp] at h; exact h

end

end Optimistic
