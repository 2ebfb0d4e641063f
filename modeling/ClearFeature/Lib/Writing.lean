/-!
# Writes that stay

A program over a store returns or raises. What it wrote before it raised stays:
nothing is rolled back. Each lemma says of a combinator when it returns or
raises, and what it leaves then.
-/

abbrev Writing (E S α : Type) : Type := EStateM E S α

namespace Writing

section
variable {E S T α β : Type}

/-- A computation that touches no store. -/
def need (x : Except E α) : Writing E S α := fun s =>
  match x with
  | .ok a => .ok a s
  | .error e => .error e s

/-- One write: it is made, or it raises and changes nothing. -/
def write (f : S → Except E S) : Writing E S Unit := fun s =>
  match f s with
  | .ok s' => .ok () s'
  | .error e => .error e s

/-- A program over a part of a larger store. -/
def within (get : T → S) (put : T → S → T) (w : Writing E S α) : Writing E T α := fun t =>
  match w.run (get t) with
  | .ok a s => .ok a (put t s)
  | .error e s => .error e (put t s)

def each (f : α → Writing E S Unit) : List α → Writing E S Unit
  | [] => pure ()
  | a :: as => do
    f a
    each f as

/-- The store after a run, whether it returned or raised. -/
def left : EStateM.Result E S α → S
  | .ok _ s => s
  | .error _ s => s

/-- Every run leaves a store that is related to the one it found. -/
def Keeps (R : S → S → Prop) (w : Writing E S α) : Prop := ∀ s, R s (left (EStateM.run w s))

theorem bind_ok {x : Writing E S α} {f : α → Writing E S β} {s s' : S} {b : β} :
    EStateM.run (x >>= f) s = .ok b s' ↔ ∃ a s₁, EStateM.run x s = .ok a s₁ ∧ EStateM.run (f a) s₁ = .ok b s' := by
  rw [EStateM.run_bind]
  cases EStateM.run x s with
  | ok a s₁ =>
    refine ⟨fun h => ⟨a, s₁, rfl, h⟩, ?_⟩
    rintro ⟨_, _, h, hf⟩
    cases h
    exact hf
  | error e s₁ => simp

theorem bind_error {x : Writing E S α} {f : α → Writing E S β} {s s' : S} {e : E} :
    EStateM.run (x >>= f) s = .error e s' ↔
      EStateM.run x s = .error e s' ∨ ∃ a s₁, EStateM.run x s = .ok a s₁ ∧ EStateM.run (f a) s₁ = .error e s' := by
  rw [EStateM.run_bind]
  cases EStateM.run x s with
  | ok a s₁ =>
    refine ⟨fun h => .inr ⟨a, s₁, rfl, h⟩, ?_⟩
    rintro (h | ⟨_, _, h, hf⟩)
    · cases h
    · cases h
      exact hf
  | error e s₁ => simp

theorem run_bind_of_ok {x : Writing E S α} {f : α → Writing E S β} {s s₁ : S} {a : α}
    (h : EStateM.run x s = .ok a s₁) : EStateM.run (x >>= f) s = EStateM.run (f a) s₁ := by
  rw [EStateM.run_bind, h]

theorem run_bind_of_error {x : Writing E S α} {f : α → Writing E S β} {s s₁ : S} {e : E}
    (h : EStateM.run x s = .error e s₁) : EStateM.run (x >>= f) s = .error e s₁ := by
  rw [EStateM.run_bind, h]

@[simp] theorem run_need_ok (a : α) (s : S) : EStateM.run (need (.ok a) : Writing E S α) s = .ok a s := rfl

@[simp] theorem run_need_error (e : E) (s : S) : EStateM.run (need (.error e) : Writing E S α) s = .error e s := rfl

theorem need_ok {x : Except E α} {s s' : S} {a : α} :
    EStateM.run (need x : Writing E S α) s = .ok a s' ↔ x = .ok a ∧ s' = s := by
  cases x with
  | ok b =>
    rw [run_need_ok]
    constructor
    · intro h
      cases h
      exact ⟨rfl, rfl⟩
    · rintro ⟨h, rfl⟩
      cases h
      rfl
  | error e => simp

theorem need_error {x : Except E α} {s s' : S} {e : E} :
    EStateM.run (need x : Writing E S α) s = .error e s' ↔ x = .error e ∧ s' = s := by
  cases x with
  | ok b => simp
  | error e' =>
    rw [run_need_error]
    constructor
    · intro h
      cases h
      exact ⟨rfl, rfl⟩
    · rintro ⟨h, rfl⟩
      cases h
      rfl

theorem run_write_ok {f : S → Except E S} {s s' : S} (h : f s = .ok s') : EStateM.run (write f) s = .ok () s' := by
  unfold EStateM.run write
  rw [h]

theorem run_write_error {f : S → Except E S} {s : S} {e : E} (h : f s = .error e) :
    EStateM.run (write f) s = .error e s := by
  unfold EStateM.run write
  rw [h]

theorem write_error {f : S → Except E S} {s s' : S} {e : E} :
    EStateM.run (write f) s = .error e s' ↔ f s = .error e ∧ s' = s := by
  cases h : f s with
  | ok s₁ => simp [run_write_ok h]
  | error e' =>
    rw [run_write_error h]
    constructor
    · intro h'
      cases h'
      exact ⟨rfl, rfl⟩
    · rintro ⟨h', rfl⟩
      cases h'
      rfl

theorem within_ok {get : T → S} {put : T → S → T} {w : Writing E S α} {t t' : T} {a : α} :
    EStateM.run (within get put w) t = .ok a t' ↔ ∃ s, EStateM.run w (get t) = .ok a s ∧ t' = put t s := by
  have h : EStateM.run (within get put w) t = match EStateM.run w (get t) with
      | .ok a s => .ok a (put t s)
      | .error e s => .error e (put t s) := rfl
  rw [h]
  cases EStateM.run w (get t) with
  | ok b s =>
    simp only [EStateM.Result.ok.injEq]
    constructor
    · rintro ⟨rfl, rfl⟩
      exact ⟨s, ⟨rfl, rfl⟩, rfl⟩
    · rintro ⟨_, ⟨rfl, rfl⟩, rfl⟩
      exact ⟨rfl, rfl⟩
  | error e s => simp

theorem within_error {get : T → S} {put : T → S → T} {w : Writing E S α} {t t' : T} {e : E} :
    EStateM.run (within get put w) t = .error e t' ↔ ∃ s, EStateM.run w (get t) = .error e s ∧ t' = put t s := by
  have h : EStateM.run (within get put w) t = match EStateM.run w (get t) with
      | .ok a s => .ok a (put t s)
      | .error e s => .error e (put t s) := rfl
  rw [h]
  cases EStateM.run w (get t) with
  | ok b s => simp
  | error e' s =>
    simp only [EStateM.Result.error.injEq]
    constructor
    · rintro ⟨rfl, rfl⟩
      exact ⟨s, ⟨rfl, rfl⟩, rfl⟩
    · rintro ⟨_, ⟨rfl, rfl⟩, rfl⟩
      exact ⟨rfl, rfl⟩

/-- A loop raises at one element, after it went through those before it. -/
theorem each_error {f : α → Writing E S Unit} {e : E} {s' : S} : ∀ {as : List α} {s : S},
    EStateM.run (each f as) s = .error e s' → ∃ before a after s₁, as = before ++ a :: after ∧
      EStateM.run (each f before) s = .ok () s₁ ∧ EStateM.run (f a) s₁ = .error e s'
  | [], s, h => nomatch h
  | a :: as, s, h => by
    rcases bind_error.mp h with h | ⟨u, s₁, ha, h⟩
    · exact ⟨[], a, as, s, rfl, rfl, h⟩
    · obtain ⟨before, b, after, s₂, rfl, hbefore, hb⟩ := each_error h
      exact ⟨a :: before, b, after, s₂, rfl, bind_ok.mpr ⟨u, s₁, ha, hbefore⟩, hb⟩

theorem Keeps.bind {R : S → S → Prop} {x : Writing E S α} {f : α → Writing E S β}
    (htrans : ∀ {a b c}, R a b → R b c → R a c) (hx : Keeps R x) (hf : ∀ a, Keeps R (f a)) : Keeps R (x >>= f) := by
  intro s
  have h := hx s
  rw [EStateM.run_bind]
  cases hr : EStateM.run x s with
  | ok a s₁ =>
    rw [hr] at h
    exact htrans h (hf a s₁)
  | error e s₁ =>
    rw [hr] at h
    exact h

theorem keeps_pure {R : S → S → Prop} (hrefl : ∀ s, R s s) (a : α) : Keeps R (pure a : Writing E S α) := hrefl

theorem keeps_need {R : S → S → Prop} (hrefl : ∀ s, R s s) (x : Except E α) : Keeps R (need x : Writing E S α) := by
  intro s
  cases x <;> exact hrefl s

theorem keeps_write {R : S → S → Prop} {f : S → Except E S} (hrefl : ∀ s, R s s)
    (h : ∀ {s s'}, f s = .ok s' → R s s') : Keeps R (write f) := by
  intro s
  cases hf : f s with
  | ok s' =>
    rw [run_write_ok hf]
    exact h hf
  | error e =>
    rw [run_write_error hf]
    exact hrefl s

theorem keeps_each {R : S → S → Prop} {f : α → Writing E S Unit} (hrefl : ∀ s, R s s)
    (htrans : ∀ {a b c}, R a b → R b c → R a c) (hf : ∀ a, Keeps R (f a)) : ∀ as : List α, Keeps R (each f as)
  | [] => keeps_pure hrefl ()
  | a :: as => Keeps.bind htrans (hf a) fun _ => keeps_each hrefl htrans hf as

/-- No run changes what `get` reads. -/
def Fixes {β : Type} (get : S → β) (w : Writing E S α) : Prop := Keeps (fun s s' => get s' = get s) w

section
variable {γ : Type} {get : S → γ}

theorem Fixes.bind {x : Writing E S α} {f : α → Writing E S β} (hx : Fixes get x) (hf : ∀ a, Fixes get (f a)) :
    Fixes get (x >>= f) := Keeps.bind (fun h h' => h'.trans h) hx hf

theorem fixes_pure (a : α) : Fixes get (pure a : Writing E S α) := fun _ => rfl

theorem fixes_need (x : Except E α) : Fixes get (need x : Writing E S α) :=
  keeps_need (R := fun s s' => get s' = get s) (fun _ => rfl) x

theorem fixes_write {f : S → Except E S} (h : ∀ {s s'}, f s = .ok s' → get s' = get s) : Fixes get (write f) :=
  keeps_write (fun _ => rfl) h

theorem fixes_each {f : α → Writing E S Unit} (hf : ∀ a, Fixes get (f a)) (as : List α) : Fixes get (each f as) :=
  keeps_each (R := fun s s' => get s' = get s) (fun _ => rfl) (fun h h' => h'.trans h) hf as

end

theorem run_within (get : T → S) (put : T → S → T) (w : Writing E S α) (t : T) :
    left (EStateM.run (within get put w) t) = put t (left (EStateM.run w (get t))) := by
  have h : EStateM.run (within get put w) t = match EStateM.run w (get t) with
      | .ok a s => .ok a (put t s)
      | .error e s => .error e (put t s) := rfl
  rw [h]
  cases EStateM.run w (get t) <;> rfl

theorem keeps_within {R : S → S → Prop} {Q : T → T → Prop} {get : T → S} {put : T → S → T} {w : Writing E S α}
    (hw : Keeps R w) (h : ∀ {t s}, R (get t) s → Q t (put t s)) : Keeps Q (within get put w) := by
  intro t
  rw [run_within]
  exact h (hw (get t))

end

end Writing
