import ClearFeature.Lib.Prog
import ClearFeature.Lib.Runs
import Mathlib.Logic.Function.Basic

/-!
# Programs that share a service

Any number of programs run over one service. A step lets one of them make its
next call; a program that is not scheduled again has stopped. Each program is
proved alone: before each of its calls the others may have moved the state
along, as far as the invariant and the order on states allow.
-/

namespace Shared

open Prog

section
variable {ι C α S : Type} {Ans : C → Type}

structure World (ι C : Type) (Ans : C → Type) (α S : Type) where
  state : S
  running : ι → Prog C Ans α

/-- What a program returned, if it has. -/
def result? : Prog C Ans α → Option α
  | .ret a => some a
  | .call _ _ => none

section
variable [DecidableEq ι] (srv : Service C Ans S)

def step (w : World ι C Ans α S) (i : ι) : World ι C Ans α S :=
  match w.running i with
  | .ret _ => w
  | .call c k =>
    { state := srv.act w.state c
      running := Function.update w.running i (k (srv.answer w.state c)) }

def run (w : World ι C Ans α S) (schedule : List ι) : World ι C Ans α S := Runs.run (step srv) w schedule

theorem run_append (w : World ι C Ans α S) (schedule more : List ι) :
    run srv w (schedule ++ more) = run srv (run srv w schedule) more := Runs.run_append _ w schedule more

/-- Scheduled alone, a program makes all its calls and returns. -/
theorem run_alone (i : ι) : ∀ (p : Prog C Ans α) (w : World ι C Ans α S), w.running i = p →
    ∃ n, run srv w (List.replicate n i) =
      { state := (exec srv w.state p).1
        running := Function.update w.running i (.ret (exec srv w.state p).2) } := by
  intro p
  induction p with
  | ret a =>
    intro w hp
    have hrunning : Function.update w.running i (.ret a) = w.running := by
      rw [← hp, Function.update_eq_self]
    refine ⟨0, ?_⟩
    simp [run, exec, hrunning]
  | call c k ih =>
    intro w hp
    obtain ⟨n, hn⟩ := ih (srv.answer w.state c) (step srv w i) (by simp [step, hp])
    refine ⟨n + 1, ?_⟩
    rw [List.replicate_succ]
    change run srv (step srv w i) (List.replicate n i) = _
    rw [hn]
    simp [step, hp, exec]

end

/-- A program whose calls are answered in one state after another. -/
def answered (srv : Service C Ans S) : List S → Prog C Ans α → Option α
  | _, .ret a => some a
  | [], .call _ _ => none
  | s :: states, .call c k => answered srv states (k (srv.answer s c))

/-- The order that every step moves the state along, and what it keeps. -/
structure Protocol (srv : Service C Ans S) where
  inv : S → Prop
  le : S → S → Prop
  refl : ∀ s, le s s
  trans : ∀ {s s' s''}, le s s' → le s' s'' → le s s''

variable {srv : Service C Ans S} (P : Protocol srv)

/-- Every call keeps to the protocol and the result meets `post`, whatever the other programs do in between. -/
def Safe (post : S → α → Prop) : S → Prog C Ans α → Prop
  | s, .ret a => post s a
  | s, .call c k => ∀ s', P.le s s' → P.inv s' →
      P.le s' (srv.act s' c) ∧ P.inv (srv.act s' c) ∧ Safe post (srv.act s' c) (k (srv.answer s' c))

variable {P} {post : S → α → Prop}

@[simp] theorem safe_pure {s : S} {a : α} : Safe P post s (pure a) ↔ post s a := Iff.rfl

theorem safe_ask_bind {s : S} {c : C} {f : Ans c → Prog C Ans α} : Safe P post s (ask c >>= f) ↔
    ∀ s', P.le s s' → P.inv s' →
      P.le s' (srv.act s' c) ∧ P.inv (srv.act s' c) ∧ Safe P post (srv.act s' c) (f (srv.answer s' c)) := Iff.rfl

/-- What the others do does not endanger a program. -/
theorem Safe.stable (hpost : ∀ s s' a, P.le s s' → post s a → post s' a) {s s' : S} (hle : P.le s s') :
    ∀ {p : Prog C Ans α}, Safe P post s p → Safe P post s' p
  | .ret a, h => hpost s s' a hle h
  | .call c k, h => fun s'' hle' hinv => h s'' (P.trans hle hle') hinv

theorem Safe.bind {β : Type} {post : S → β → Prop} {f : α → Prog C Ans β} : ∀ {p : Prog C Ans α} {s : S},
    Safe P (fun s a => Safe P post s (f a)) s p → Safe P post s (p >>= f)
  | .ret _, _, h => h
  | .call _ _, _, h => fun s' hle hinv => ⟨(h s' hle hinv).1, (h s' hle hinv).2.1, (h s' hle hinv).2.2.bind⟩

theorem Safe.mono {post' : S → α → Prop} (hpost : ∀ s a, post s a → post' s a) : ∀ {p : Prog C Ans α} {s : S},
    Safe P post s p → Safe P post' s p
  | .ret _, _, h => hpost _ _ h
  | .call _ _, _, h => fun s' hle hinv => ⟨(h s' hle hinv).1, (h s' hle hinv).2.1, (h s' hle hinv).2.2.mono hpost⟩

/-- A program moves the state only along the order. -/
theorem Safe.since {s₀ : S} : ∀ {p : Prog C Ans α} {s : S}, P.le s₀ s → Safe P post s p →
    Safe P (fun s a => P.le s₀ s ∧ post s a) s p
  | .ret _, _, hle, h => ⟨hle, h⟩
  | .call _ _, _, hle, h => fun s' hle' hinv =>
    ⟨(h s' hle' hinv).1, (h s' hle' hinv).2.1,
      (h s' hle' hinv).2.2.since (P.trans (P.trans hle hle') (h s' hle' hinv).1)⟩

/-- A program that has returned has met its post-condition. -/
theorem Safe.result {p : Prog C Ans α} {s : S} (h : Safe P post s p) {a : α} (ha : result? p = some a) : post s a := by
  cases p with
  | ret b =>
    cases ha
    exact h
  | call c k => cases ha

end

/-! ## A part of a larger service -/

section
variable {C C' α S S' : Type} {Ans : C → Type} {Ans' : C' → Type}

/-- The calls of a program made as calls of another service. -/
def embed (inj : C → C') (back : ∀ c, Ans' (inj c) → Ans c) : Prog C Ans α → Prog C' Ans' α
  | .ret a => .ret a
  | .call c k => .call (inj c) fun a => embed inj back (k (back c a))

/-- One service is a part of another, and its protocol a part of the other's. -/
structure Part {srv : Service C Ans S} {srv' : Service C' Ans' S'} (P : Protocol srv) (P' : Protocol srv')
    (inj : C → C') (back : ∀ c, Ans' (inj c) → Ans c) (get : S' → S) : Prop where
  le : ∀ {s s'}, P'.le s s' → P.le (get s) (get s')
  inv : ∀ {s}, P'.inv s → P.inv (get s)
  act : ∀ s c, get (srv'.act s (inj c)) = srv.act (get s) c
  answer : ∀ s c, back c (srv'.answer s (inj c)) = srv.answer (get s) c
  keeps : ∀ {s c}, P'.inv s → P.le (get s) (srv.act (get s) c) → P.inv (srv.act (get s) c) →
    P'.le s (srv'.act s (inj c)) ∧ P'.inv (srv'.act s (inj c))

/-- A program that keeps to the protocol of a part keeps to the protocol of the whole. -/
theorem Part.safe {srv : Service C Ans S} {srv' : Service C' Ans' S'} {P : Protocol srv} {P' : Protocol srv'}
    {inj : C → C'} {back : ∀ c, Ans' (inj c) → Ans c} {get : S' → S} (h : Part P P' inj back get)
    {post : S → α → Prop} : ∀ {p : Prog C Ans α} {s : S'}, Safe P post (get s) p →
      Safe P' (fun s a => post (get s) a) s (embed inj back p)
  | .ret _, _, hp => hp
  | .call c k, s, hp => by
    intro s' hle hinv
    obtain ⟨hact, hkept, hk⟩ := hp (get s') (h.le hle) (h.inv hinv)
    obtain ⟨hle', hinv'⟩ := h.keeps hinv hact hkept
    refine ⟨hle', hinv', ?_⟩
    dsimp only
    rw [h.answer]
    rw [← h.act] at hk
    exact h.safe hk

end

section
variable {ι C α S : Type} {Ans : C → Type} [DecidableEq ι] {srv : Service C Ans S} {P : Protocol srv}
  {post : ι → S → α → Prop} (hpost : ∀ i s s' a, P.le s s' → post i s a → post i s' a)
include hpost

theorem step_safe {w : World ι C Ans α S} (hinv : P.inv w.state) (h : ∀ i, Safe P (post i) w.state (w.running i))
    (i : ι) : P.le w.state (step srv w i).state ∧ P.inv (step srv w i).state ∧
      ∀ j, Safe P (post j) (step srv w i).state ((step srv w i).running j) := by
  unfold step
  cases hp : w.running i with
  | ret a => exact ⟨P.refl _, hinv, h⟩
  | call c k =>
    have hi := h i
    rw [hp] at hi
    obtain ⟨hle, hinv', hk⟩ := hi w.state (P.refl _) hinv
    refine ⟨hle, hinv', fun j => ?_⟩
    dsimp only
    by_cases hj : j = i
    · subst hj
      rw [Function.update_self]
      exact hk
    · rw [Function.update_of_ne hj]
      exact (h j).stable (hpost j) hle

/-- Programs that are safe alone are safe together, in every interleaving. -/
theorem run_safe : ∀ (schedule : List ι) {w : World ι C Ans α S}, P.inv w.state →
    (∀ i, Safe P (post i) w.state (w.running i)) → P.le w.state (run srv w schedule).state ∧
      P.inv (run srv w schedule).state ∧ ∀ i, Safe P (post i) (run srv w schedule).state ((run srv w schedule).running i)
  | [], w, hinv, h => ⟨P.refl _, hinv, h⟩
  | i :: schedule, w, hinv, h => by
    obtain ⟨hle, hinv', h'⟩ := step_safe hpost hinv h i
    obtain ⟨hle', hfinal⟩ := run_safe schedule hinv' h'
    exact ⟨P.trans hle hle', hfinal⟩

end

end Shared
