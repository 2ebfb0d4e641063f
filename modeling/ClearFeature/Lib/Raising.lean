import ClearFeature.Lib.Shared

/-!
# Programs that raise

A program over a service that returns or raises. What it has called before it
raised is done: nothing is rolled back. Its post-condition is about what it
returns.
-/

open Prog Shared

abbrev Raising (E C : Type) (Ans : C → Type) : Type → Type := ExceptT E (Prog C Ans)

namespace Raising

section
variable {E C α β S : Type} {Ans : C → Type}

def call (c : C) : Raising E C Ans (Ans c) := ExceptT.lift (ask c)

/-- A computation that calls nothing. -/
def need (x : Except E α) : Raising E C Ans α := ExceptT.mk (pure x)

/-- What is returned meets the condition; nothing is asked of what is raised. -/
def Returned (Q : S → α → Prop) : S → Except E α → Prop
  | s, .ok a => Q s a
  | _, .error _ => True

/-! ## Alone -/

section
variable (srv : Service C Ans S) (s : S)

@[simp] theorem alone_pure (b : β) : exec srv s (pure b : Raising E C Ans β).run = (s, .ok b) := rfl

/-- What was called before a program raises stays. -/
theorem alone_bind (x : Raising E C Ans α) (f : α → Raising E C Ans β) :
    exec srv s (x >>= f).run = match exec srv s x.run with
      | (s', .ok a) => exec srv s' (f a).run
      | (s', .error e) => (s', .error e) := by
  have hbind := Prog.exec_bind srv (x.run : Prog C Ans (Except E α)) (ExceptT.bindCont f) s
  refine Eq.trans hbind ?_
  cases hx : exec srv s x.run with
  | mk s' r => cases r <;> rfl

theorem alone_bind_ok {x : Raising E C Ans α} {s' : S} {a : α} (h : exec srv s x.run = (s', .ok a))
    (f : α → Raising E C Ans β) : exec srv s (x >>= f).run = exec srv s' (f a).run := by
  rw [alone_bind, h]

@[simp] theorem alone_need (x : Except E β) : exec srv s (need x : Raising E C Ans β).run = (s, x) := rfl

theorem alone_lift (p : Prog C Ans β) :
    exec srv s (ExceptT.lift p : Raising E C Ans β).run = ((exec srv s p).1, .ok (exec srv s p).2) :=
  Prog.exec_bind srv p (fun b => pure (Except.ok b)) s

end

/-! ## Watched -/

section
variable {σ : Type} {mon : Monitor C Ans σ} {t : σ}

/-- Every call of a program and of what follows it is allowed. -/
theorem allowed_bind {x : Raising E C Ans α} {f : α → Raising E C Ans β}
    (h : wp mon t x.run fun t _ => ∀ a, wp mon t (f a).run fun _ _ => True) :
    wp mon t (x >>= f).run fun _ _ => True := by
  apply (Prog.wp_bind (x.run : Prog C Ans (Except E α)) (ExceptT.bindCont f)).mpr
  apply wp_mono _ h
  intro t r hr
  cases r with
  | ok a => exact hr a
  | error e => trivial

theorem allowed_lift {p : Prog C Ans α} (h : wp mon t p fun _ _ => True) :
    wp mon t (ExceptT.lift p : Raising E C Ans α).run fun _ _ => True := by
  apply (Prog.wp_bind p fun a => pure (Except.ok a)).mpr
  exact wp_mono (fun _ _ _ => trivial) h

end

/-! ## Among others -/

variable {srv : Service C Ans S} {P : Protocol srv} {Q : S → β → Prop} {s : S}

@[simp] theorem safe_pure {b : β} :
    Safe P (Returned (E := E) Q) s (pure b : Raising E C Ans β).run ↔ Q s b := Iff.rfl

theorem safe_bind {x : Raising E C Ans α} {f : α → Raising E C Ans β}
    (h : Safe P (Returned fun s' a => P.le s s' → Safe P (Returned Q) s' (f a).run) s x.run) :
    Safe P (Returned Q) s (x >>= f).run := by
  apply Safe.bind
  apply (h.since (P.refl s)).mono
  intro s' r hr
  cases r with
  | ok a => exact hr.2 hr.1
  | error e => trivial

theorem safe_need {x : Except E α} {f : α → Raising E C Ans β}
    (h : ∀ a, x = .ok a → Safe P (Returned Q) s (f a).run) : Safe P (Returned Q) s (need x >>= f).run := by
  cases x with
  | ok a => exact h a rfl
  | error e => trivial

theorem safe_call {c : C} {f : Ans c → Raising E C Ans β}
    (h : ∀ s', P.le s s' → P.inv s' → P.le s' (srv.act s' c) ∧ P.inv (srv.act s' c) ∧
      Safe P (Returned Q) (srv.act s' c) (f (srv.answer s' c)).run) :
    Safe P (Returned Q) s (call c >>= f).run := h

/-- A call that is the last. -/
theorem safe_last {c : C} {Q : S → Ans c → Prop} (h : ∀ s', P.le s s' → P.inv s' → P.le s' (srv.act s' c) ∧
    P.inv (srv.act s' c) ∧ Q (srv.act s' c) (srv.answer s' c)) :
    Safe P (Returned (E := E) Q) s (call c : Raising E C Ans (Ans c)).run := h

end

end Raising
