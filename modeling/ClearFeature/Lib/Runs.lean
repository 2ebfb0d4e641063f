/-!
# Runs of a deterministic machine

A machine is a total step function; a run is a fold over its actions. A run is
*steady* for a condition when every action meets the condition in the state it
is taken in.
-/

namespace Runs

section
variable {S A : Type} (step : S → A → S) (cond : S → A → Prop)

def run (s : S) (as : List A) : S := as.foldl step s

def Steady : S → List A → Prop
  | _, [] => True
  | s, a :: as => cond s a ∧ Steady (step s a) as

instance Steady.decidable [∀ s a, Decidable (cond s a)] : ∀ s as, Decidable (Steady step cond s as)
  | _, [] => isTrue trivial
  | s, a :: as => match Steady.decidable (step s a) as with
    | isTrue h => decidable_of_iff (cond s a) ⟨fun hc => ⟨hc, h⟩, fun hs => hs.1⟩
    | isFalse h => isFalse fun hs => h hs.2

@[simp] theorem run_nil (s : S) : run step s [] = s := rfl

@[simp] theorem run_cons (s : S) (a : A) (as : List A) : run step s (a :: as) = run step (step s a) as := rfl

theorem run_append (s : S) (as bs : List A) : run step s (as ++ bs) = run step (run step s as) bs :=
  List.foldl_append

variable {step cond}

theorem Steady.append : ∀ {s : S} {as bs : List A}, Steady step cond s (as ++ bs) ↔
    Steady step cond s as ∧ Steady step cond (run step s as) bs
  | s, [], bs => by simp [Steady]
  | s, a :: as, bs => by
    simp only [List.cons_append, Steady, run_cons, Steady.append, and_assoc]

/-- What every step meeting the condition preserves holds after a steady run. -/
theorem Steady.invariant {Inv : S → Prop} (hstep : ∀ s a, Inv s → cond s a → Inv (step s a)) :
    ∀ {s : S} {as : List A}, Inv s → Steady step cond s as → Inv (run step s as)
  | _, [], hi, _ => hi
  | s, a :: as, hi, hs => by
    rw [run_cons]
    exact Steady.invariant hstep (hstep s a hi hs.1) hs.2

end

end Runs
