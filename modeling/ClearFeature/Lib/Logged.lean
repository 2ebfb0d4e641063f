/-!
# Computations with a log of calls

A computation ends with a result or an error and leaves the calls it made, in
order; the calls before an error stay.
-/

/-- The calls made, and how the computation ends. -/
structure Logged (ι ε α : Type) where
  calls : List ι
  out : Except ε α

namespace Logged

variable {ι ε α β : Type}

def bind (x : Logged ι ε α) (f : α → Logged ι ε β) : Logged ι ε β :=
  match x.out with
  | .ok a => ⟨x.calls ++ (f a).calls, (f a).out⟩
  | .error e => ⟨x.calls, .error e⟩

instance : Monad (Logged ι ε) where
  pure a := ⟨[], .ok a⟩
  bind := bind

/-- A step without calls. -/
def lift (x : Except ε α) : Logged ι ε α := ⟨[], x⟩

def call (c : ι) (x : Except ε α) : Logged ι ε α := ⟨[c], x⟩

@[simp] theorem out_pure (a : α) : (pure a : Logged ι ε α).out = .ok a := rfl

@[simp] theorem out_lift (x : Except ε α) : (lift x : Logged ι ε α).out = x := rfl

@[simp] theorem out_call (c : ι) (x : Except ε α) : (call c x).out = x := rfl

@[simp] theorem out_bind (x : Logged ι ε α) (f : α → Logged ι ε β) : (x >>= f).out = x.out >>= fun a => (f a).out := by
  show (bind x f).out = _
  unfold bind
  cases x.out with
  | ok a => rfl
  | error e => rfl

theorem bind_of_ok {x : Logged ι ε α} {a : α} (h : x.out = .ok a) (f : α → Logged ι ε β) :
    x >>= f = ⟨x.calls ++ (f a).calls, (f a).out⟩ := by
  show bind x f = _
  unfold bind
  rw [h]

theorem bind_of_error {x : Logged ι ε α} {e : ε} (h : x.out = .error e) (f : α → Logged ι ε β) :
    x >>= f = ⟨x.calls, .error e⟩ := by
  show bind x f = _
  unfold bind
  rw [h]

end Logged
