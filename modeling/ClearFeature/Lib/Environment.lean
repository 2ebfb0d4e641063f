import ClearFeature.Lib.Prog

/-!
# Programs in an environment

An environment may answer a call in several ways, and its state follows the
answer. A program returns, or is stopped before one of its calls.
-/

namespace Prog

structure Env (C : Type) (Ans : C → Type) (S : Type) where
  may : S → (c : C) → Ans c → Prop
  after : S → (c : C) → Ans c → S

/-- Every answer is possible. -/
def Env.free {C : Type} {Ans : C → Type} : Env C Ans Unit where
  may _ _ _ := True
  after _ _ _ := ()

section
variable {C S α β : Type} {Ans : C → Type} (env : Env C Ans S)

inductive Returns : S → Prog C Ans α → S → α → Prop
  | ret (s : S) (a : α) : Returns s (.ret a) s a
  | call {s s' : S} {c : C} {k : Ans c → Prog C Ans α} {x : Ans c} {a : α} :
      env.may s c x → Returns (env.after s c x) (k x) s' a → Returns s (.call c k) s' a

/-- The program is stopped, at its end at the latest. -/
inductive Stops : S → Prog C Ans α → S → Prop
  | here (s : S) (p : Prog C Ans α) : Stops s p s
  | call {s s' : S} {c : C} {k : Ans c → Prog C Ans α} {x : Ans c} :
      env.may s c x → Stops (env.after s c x) (k x) s' → Stops s (.call c k) s'

/-- `inv` holds wherever the program may be stopped, and `post` where it returns. -/
def Always (inv : S → Prop) : S → Prog C Ans α → (S → α → Prop) → Prop
  | s, .ret a, post => inv s ∧ post s a
  | s, .call c k, post => inv s ∧ ∀ x, env.may s c x → Always inv (env.after s c x) (k x) post

/-- Every call is answered. -/
def Env.Live : Prop := ∀ s c, ∃ x, env.may s c x

variable {env}

theorem Env.Live.returns (h : env.Live) : ∀ (p : Prog C Ans α) (s : S), ∃ s' a, Returns env s p s' a
  | .ret a, s => ⟨s, a, .ret s a⟩
  | .call c k, s => by
    obtain ⟨x, hx⟩ := h s c
    obtain ⟨s', a, hreturns⟩ := h.returns (k x) (env.after s c x)
    exact ⟨s', a, .call hx hreturns⟩

variable {inv : S → Prop} {s s' : S} {post : S → α → Prop}

@[simp] theorem always_pure {a : α} : Always env inv s (pure a) post ↔ inv s ∧ post s a := Iff.rfl

theorem always_ask_bind {c : C} {f : Ans c → Prog C Ans α} : Always env inv s (ask c >>= f) post ↔
    inv s ∧ ∀ x, env.may s c x → Always env inv (env.after s c x) (f x) post := Iff.rfl

theorem Always.mono {post' : S → α → Prop} (hpost : ∀ s a, post s a → post' s a) {p : Prog C Ans α}
    (h : Always env inv s p post) : Always env inv s p post' := by
  induction p generalizing s with
  | ret a => exact ⟨h.1, hpost s a h.2⟩
  | call c k ih => exact ⟨h.1, fun x hx => ih x (h.2 x hx)⟩

theorem always_bind {p : Prog C Ans α} {f : α → Prog C Ans β} {post : S → β → Prop}
    (h : Always env inv s p fun s a => Always env inv s (f a) post) : Always env inv s (p >>= f) post := by
  induction p generalizing s with
  | ret a => exact h.2
  | call c k ih => exact ⟨h.1, fun x hx => ih x (h.2 x hx)⟩

theorem Returns.always {p : Prog C Ans α} {a : α} (hr : Returns env s p s' a) (h : Always env inv s p post) :
    post s' a := by
  induction hr with
  | ret s a => exact h.2
  | call hx _ ih => exact ih (h.2 _ hx)

@[simp] theorem returns_pure {a b : α} : Returns env s (pure a) s' b ↔ s' = s ∧ b = a := by
  constructor
  · intro h
    cases h
    exact ⟨rfl, rfl⟩
  · rintro ⟨rfl, rfl⟩
    exact .ret _ _

theorem returns_bind {p : Prog C Ans α} {f : α → Prog C Ans β} {b : β} : Returns env s (p >>= f) s' b ↔
    ∃ s₁ a, Returns env s p s₁ a ∧ Returns env s₁ (f a) s' b := by
  induction p generalizing s with
  | ret a =>
    constructor
    · exact fun h => ⟨s, a, .ret s a, h⟩
    · rintro ⟨s₁, a', h, hf⟩
      cases h
      exact hf
  | call c k ih =>
    constructor
    · intro h
      cases h with
      | call hx h =>
        obtain ⟨s₁, a, hk, hf⟩ := (ih _).mp h
        exact ⟨s₁, a, .call hx hk, hf⟩
    · rintro ⟨s₁, a, h, hf⟩
      cases h with
      | call hx hk => exact .call hx ((ih _).mpr ⟨s₁, a, hk, hf⟩)

/-- A service whose answers are possible runs as the environment may. -/
theorem returns_exec {T : Type} {srv : Service C Ans T} (hmay : ∀ s t c, env.may s c (srv.answer t c)) :
    ∀ (p : Prog C Ans α) (s : S) (t : T), ∃ s', Returns env s p s' (exec srv t p).2
  | .ret a, s, _ => ⟨s, .ret s a⟩
  | .call c k, s, t => by
    obtain ⟨s', h⟩ := returns_exec hmay (k (srv.answer t c)) (env.after s c (srv.answer t c)) (srv.act t c)
    exact ⟨s', .call (hmay s t c) h⟩

/-- The environment, with answers that are given. -/
def Env.serving (env : Env C Ans S) (answer : S → (c : C) → Ans c) : Service C Ans S :=
  ⟨fun s c => env.after s c (answer s c), answer⟩

theorem returns_serving {answer : S → (c : C) → Ans c} (hmay : ∀ s c, env.may s c (answer s c)) :
    ∀ (p : Prog C Ans α) (s : S), Returns env s p (exec (env.serving answer) s p).1 (exec (env.serving answer) s p).2
  | .ret a, s => .ret s a
  | .call c k, s => .call (hmay s c) (returns_serving hmay (k (answer s c)) (env.after s c (answer s c)))

theorem Returns.stops {p : Prog C Ans α} {a : α} (h : Returns env s p s' a) : Stops env s p s' := by
  induction h with
  | ret s a => exact .here s _
  | call hx _ ih => exact .call hx ih

theorem Stops.always {p : Prog C Ans α} (hs : Stops env s p s') (h : Always env inv s p post) : inv s' := by
  induction hs with
  | here s p =>
    cases p with
    | ret a => exact h.1
    | call c k => exact h.1
  | call hx _ ih => exact ih (h.2 _ hx)

end

end Prog
