/-!
# Programs that call out

A program either returns or makes a call and goes on with the answer. Nothing is
assumed about the answers: a monitor watches the calls with their answers, and
the weakest precondition asks that every call is allowed where it is made,
whatever was answered before.
-/

inductive Prog (C : Type) (Ans : C → Type) (α : Type) where
  | ret (a : α)
  | call (c : C) (k : Ans c → Prog C Ans α)

namespace Prog

section
variable {C : Type} {Ans : C → Type} {α β : Type}

def bind : Prog C Ans α → (α → Prog C Ans β) → Prog C Ans β
  | .ret a, f => f a
  | .call c k, f => .call c fun a => bind (k a) f

instance : Monad (Prog C Ans) where
  pure := .ret
  bind := bind

def ask (c : C) : Prog C Ans (Ans c) := .call c .ret

/-- The call a program stops at. -/
def next? : Prog C Ans α → Option C
  | .ret _ => none
  | .call c _ => some c

/-! ## Services -/

/-- A service that is always there: what a call does to its state, and what it answers. -/
structure Service (C : Type) (Ans : C → Type) (S : Type) where
  act : S → C → S
  answer : S → (c : C) → Ans c

section
variable {S : Type} (srv : Service C Ans S)

def exec : S → Prog C Ans α → S × α
  | s, .ret a => (s, a)
  | s, .call c k => exec (srv.act s c) (k (srv.answer s c))

@[simp] theorem exec_pure (s : S) (a : α) : exec srv s (pure a) = (s, a) := rfl

theorem exec_ask_bind (s : S) (c : C) (f : Ans c → Prog C Ans β) :
    exec srv s (ask c >>= f) = exec srv (srv.act s c) (f (srv.answer s c)) := rfl

theorem exec_bind (p : Prog C Ans α) (f : α → Prog C Ans β) : ∀ s : S,
    exec srv s (p >>= f) = exec srv (exec srv s p).1 (f (exec srv s p).2) := by
  induction p with
  | ret a => exact fun s => rfl
  | call c k ih => exact fun s => ih _ _

end

/-! ## Monitors -/

structure Monitor (C : Type) (Ans : C → Type) (σ : Type) where
  allowed : σ → C → Prop
  record : σ → (c : C) → Ans c → σ

variable {σ : Type} (mon : Monitor C Ans σ)

/-- Every call of the program is allowed, and its result meets `post`. -/
def wp : σ → Prog C Ans α → (σ → α → Prop) → Prop
  | s, .ret a, post => post s a
  | s, .call c k, post => mon.allowed s c ∧ ∀ a, wp (mon.record s c a) (k a) post

@[simp] theorem wp_pure (s : σ) (a : α) (post : σ → α → Prop) : wp mon s (pure a) post = post s a := rfl

@[simp] theorem wp_ret (s : σ) (a : α) (post : σ → α → Prop) : wp mon s (.ret a) post = post s a := rfl

@[simp] theorem wp_ask_bind (s : σ) (c : C) (f : Ans c → Prog C Ans β) (post : σ → β → Prop) :
    wp mon s (ask c >>= f) post = (mon.allowed s c ∧ ∀ a, wp mon (mon.record s c a) (f a) post) := rfl

variable {mon}

theorem wp_bind {s : σ} (p : Prog C Ans α) (f : α → Prog C Ans β) {post : σ → β → Prop} :
    wp mon s (p >>= f) post ↔ wp mon s p fun s a => wp mon s (f a) post := by
  induction p generalizing s with
  | ret a => exact Iff.rfl
  | call c k ih =>
    constructor
    · intro h
      exact ⟨h.1, fun a => (ih a).mp (h.2 a)⟩
    · intro h
      exact ⟨h.1, fun a => (ih a).mpr (h.2 a)⟩

theorem wp_mono {s : σ} {p : Prog C Ans α} {post post' : σ → α → Prop} (hp : ∀ s a, post s a → post' s a)
    (h : wp mon s p post) : wp mon s p post' := by
  induction p generalizing s with
  | ret a => exact hp s a h
  | call c k ih => exact ⟨h.1, fun a => ih a (h.2 a)⟩

/-- What every allowed call keeps, the program keeps. -/
theorem exec_keeps {S T : Type} {srv : Service C Ans S} {f : S → T}
    (hf : ∀ s t c, mon.allowed t c → f (srv.act s c) = f s) {p : Prog C Ans α} {post : σ → α → Prop} :
    ∀ {s : S} {t : σ}, wp mon t p post → f (exec srv s p).1 = f s := by
  induction p with
  | ret a => exact fun _ => rfl
  | call c k ih => exact fun h => (ih _ (h.2 _)).trans (hf _ _ c h.1)

/-- A monitor that allows at least as much after more has been recorded. -/
structure Monitor.Grows (mon : Monitor C Ans σ) (le : σ → σ → Prop) : Prop where
  allowed : ∀ {s s' c}, le s s' → mon.allowed s c → mon.allowed s' c
  record : ∀ {s s' c a}, le s s' → le (mon.record s c a) (mon.record s' c a)

theorem wp_weaken {le : σ → σ → Prop} (hg : mon.Grows le) {s s' : σ} {p : Prog C Ans α} {post : σ → α → Prop}
    (hpost : ∀ {s s' a}, le s s' → post s a → post s' a) (hle : le s s') (h : wp mon s p post) : wp mon s' p post := by
  induction p generalizing s s' with
  | ret a => exact hpost hle h
  | call c k ih => exact ⟨hg.allowed hle h.1, fun a => ih a (hg.record hle) (h.2 a)⟩

end

end Prog
