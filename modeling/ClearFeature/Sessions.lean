import ClearFeature.Lib.Runs
import ClearFeature.Runner

/-!
# Consumer sessions

A runner consumes one partition in sessions. Within a session the consumer
returns successive offsets whatever is committed; a restart resumes at the
committed offset. A ledger keeps what the outside has acknowledged for each
polled message.
-/

namespace ClearFeature

/-! ## The ledger -/

/-- What an answered call achieves: nothing, something for the message in hand, or something for every message polled so
far, made from what was achieved since the last poll. -/
inductive Gain (Eff : Type) where
  | none
  | one (e : Eff)
  | all (f : List Eff → Eff)

structure Ledger (Eff : Type) where
  polled : List ConsumedMessage := []
  recent : List Eff := []
  effects : List (ConsumedMessage × Eff) := []

namespace Ledger

section
variable {Eff : Type}

def credit (l : Ledger Eff) (e : Eff) : Ledger Eff where
  polled := l.polled
  recent := e :: l.recent
  effects := match l.polled with
    | [] => l.effects
    | m :: _ => (m, e) :: l.effects

def creditAll (l : Ledger Eff) (e : Eff) : Ledger Eff :=
  { l with effects := l.polled.map (·, e) ++ l.effects }

def gain (l : Ledger Eff) : Gain Eff → Ledger Eff
  | .none => l
  | .one e => l.credit e
  | .all f => l.creditAll (f l.recent)

def Has (l : Ledger Eff) (m : ConsumedMessage) (e : Eff) : Prop := (m, e) ∈ l.effects

end

end Ledger

/-- A record as the broker has acknowledged it. -/
structure Sent (Rec : Type) where
  topic : String
  key : String
  record : Rec
  headers : Headers := []

/-- What published records and the runner's own calls achieve. -/
structure Effects (Rec Own Eff : Type) (OwnAns : Own → Type) where
  published : Sent Rec → Eff
  achieved : (c : Own) → OwnAns c → Gain Eff

section
variable {Rec R Own Eff : Type} {OwnAns : Own → Type}

def Effects.record (eff : Effects Rec Own Eff OwnAns) (l : Ledger Eff) :
    (c : RunnerCall Rec R Own) → RunnerCall.Ans OwnAns c → Ledger Eff
  | .poll, some m => { l with polled := m :: l.polled, recent := [] }
  | .poll, none => { l with recent := [] }
  | .publish topic key rec headers, .ok () => l.credit (eff.published ⟨topic, key, rec, headers⟩)
  | .own c, a => l.gain (eff.achieved c a)
  | _, _ => l

/-- When a message is done, in terms of the effects it has. -/
abbrev Outcome (Eff : Type) := (Eff → Prop) → ConsumedMessage → Prop

/-- More effects leave a done message done. -/
def Outcome.Mono (outcome : Outcome Eff) : Prop :=
  ∀ (d d' : Eff → Prop) (m : ConsumedMessage), (∀ e, d e → d' e) → outcome d m → outcome d' m

/-- Only a message that was polled and is done may be committed. -/
def commitMonitor (R : Type) (eff : Effects Rec Own Eff OwnAns) (outcome : Outcome Eff) :
    Prog.Monitor (RunnerCall Rec R Own) (RunnerCall.Ans OwnAns) (Ledger Eff) where
  allowed l c := ∀ m, c = .commit m → m ∈ l.polled ∧ outcome (l.Has m) m
  record := eff.record

/-! ## One partition -/

structure LogEntry where
  value : Bytes
  headers : Headers := []
  error : Option String := none

structure Partition (Rec R Own Eff : Type) (OwnAns : Own → Type) (α : Type) where
  log : List LogEntry := []
  committed : Nat := 0
  position : Nat := 0
  ledger : Ledger Eff := {}
  program : Option (RunnerProg Rec R OwnAns (Except PyErr α)) := none

inductive SessionAction (Rec R Own : Type) (OwnAns : Own → Type) where
  | produce (entry : LogEntry)
  | startRound (maxMessages : Nat)
  | advance (arrived : Bool) (answers : (c : RunnerCall Rec R Own) → RunnerCall.Ans OwnAns c)
  | restart

namespace Partition

variable {α : Type} (eff : Effects Rec Own Eff OwnAns) (round : Nat → RunnerProg Rec R OwnAns (Except PyErr α))

def messageAt (s : Partition Rec R Own Eff OwnAns α) (offset : Nat) : Option ConsumedMessage :=
  s.log[offset]?.map fun e => ⟨offset, e.value, e.headers, e.error⟩

def reply (s : Partition Rec R Own Eff OwnAns α) (arrived : Bool)
    (answers : (c : RunnerCall Rec R Own) → RunnerCall.Ans OwnAns c) :
    (c : RunnerCall Rec R Own) → RunnerCall.Ans OwnAns c
  | .poll => if arrived then s.messageAt s.position else none
  | .now => answers .now
  | .commit m => answers (.commit m)
  | .publish topic key rec headers => answers (.publish topic key rec headers)
  | .statusRead requestId changes => answers (.statusRead requestId changes)
  | .statusPut requestId status => answers (.statusPut requestId status)
  | .own c => answers (.own c)

def offsets (s : Partition Rec R Own Eff OwnAns α) :
    (c : RunnerCall Rec R Own) → RunnerCall.Ans OwnAns c → Nat × Nat
  | .poll, some _ => (s.committed, s.position + 1)
  | .commit m, .ok () => (m.offset + 1, s.position)
  | _, _ => (s.committed, s.position)

def step (s : Partition Rec R Own Eff OwnAns α) : SessionAction Rec R Own OwnAns → Partition Rec R Own Eff OwnAns α
  | .produce entry => { s with log := s.log ++ [entry] }
  | .startRound n =>
    match s.program with
    | some (.ret (.ok _)) | none => { s with program := some (round n) }
    | _ => s
  | .advance arrived answers =>
    match s.program with
    | some (.call c k) =>
      let a := s.reply arrived answers c
      let out := s.offsets c a
      { log := s.log, committed := out.1, position := out.2, ledger := eff.record s.ledger c a, program := some (k a) }
    | _ => s
  | .restart => { s with position := s.committed, program := none }

/-- The next commit, if one is next, is not past the committed offset. -/
def InOrder (s : Partition Rec R Own Eff OwnAns α) : SessionAction Rec R Own OwnAns → Prop
  | .advance _ _ => ∀ m, s.program.bind Prog.next? = some (.commit m) → m.offset ≤ s.committed
  | _ => True

/-! ## What a session keeps -/

structure Inv (outcome : Outcome Eff) (s : Partition Rec R Own Eff OwnAns α) : Prop where
  done : ∀ offset < s.committed, ∃ m, s.messageAt offset = some m ∧ outcome (s.ledger.Has m) m
  polled : ∀ m ∈ s.ledger.polled, s.messageAt m.offset = some m
  program : ∀ p ∈ s.program, p.wp (commitMonitor R eff outcome) s.ledger fun _ _ => True

end Partition

theorem Ledger.has_credit {l : Ledger Eff} {m : ConsumedMessage} {e : Eff} (e' : Eff) (h : l.Has m e) :
    (l.credit e').Has m e := by
  unfold Has credit
  cases l.polled with
  | nil => exact h
  | cons m' ms => exact List.mem_cons_of_mem _ h

theorem Effects.has_record (eff : Effects Rec Own Eff OwnAns) {l : Ledger Eff} {m : ConsumedMessage} {e : Eff}
    (c : RunnerCall Rec R Own) (a : RunnerCall.Ans OwnAns c) (h : l.Has m e) : (eff.record l c a).Has m e := by
  cases c with
  | poll =>
    cases a with
    | none => exact h
    | some m' => exact h
  | now => exact h
  | commit m' => exact h
  | publish topic key rec headers =>
    cases a with
    | error err => exact h
    | ok u => exact Ledger.has_credit _ h
  | statusRead requestId changes => exact h
  | statusPut requestId status => exact h
  | own c =>
    show (l.gain (eff.achieved c a)).Has m e
    cases eff.achieved c a with
    | none => exact h
    | one e' => exact Ledger.has_credit _ h
    | all f => exact List.mem_append_right _ h

namespace Partition

variable {α : Type} {eff : Effects Rec Own Eff OwnAns} {outcome : Outcome Eff}
  {round : Nat → RunnerProg Rec R OwnAns (Except PyErr α)}

theorem offset_of_messageAt {s : Partition Rec R Own Eff OwnAns α} {offset : Nat} {m : ConsumedMessage}
    (h : s.messageAt offset = some m) : m.offset = offset := by
  obtain ⟨e, -, rfl⟩ := Option.map_eq_some_iff.mp h
  rfl

theorem polled_reply (eff : Effects Rec Own Eff OwnAns) (s : Partition Rec R Own Eff OwnAns α) (arrived : Bool)
    (answers : (c : RunnerCall Rec R Own) → RunnerCall.Ans OwnAns c) (c : RunnerCall Rec R Own) {m : ConsumedMessage}
    (h : m ∈ (eff.record s.ledger c (s.reply arrived answers c)).polled) :
    m ∈ s.ledger.polled ∨ s.messageAt s.position = some m := by
  cases c with
  | poll =>
    cases arrived with
    | false => exact .inl h
    | true =>
      cases hm : s.messageAt s.position with
      | none =>
        simp only [reply, if_true, hm] at h
        exact .inl h
      | some m' =>
        simp only [reply, if_true, hm] at h
        rcases List.mem_cons.mp h with rfl | h
        · exact .inr rfl
        · exact .inl h
  | now => exact .inl h
  | commit m' => exact .inl h
  | publish topic key rec headers =>
    simp only [reply] at h
    cases ha : answers (.publish topic key rec headers) with
    | error err =>
      rw [ha] at h
      exact .inl h
    | ok u =>
      rw [ha] at h
      exact .inl h
  | statusRead requestId changes => exact .inl h
  | statusPut requestId status => exact .inl h
  | own c =>
    have hp : ∀ g, (s.ledger.gain g).polled = s.ledger.polled := by
      intro g
      cases g <;> rfl
    exact .inl (hp _ ▸ h)

/-- Where the committed offset moves: only past a message that is committed. -/
theorem offsets_committed (s : Partition Rec R Own Eff OwnAns α) (c : RunnerCall Rec R Own)
    (a : RunnerCall.Ans OwnAns c) :
    (s.offsets c a).1 = s.committed ∨ ∃ m, c = .commit m ∧ (s.offsets c a).1 = m.offset + 1 := by
  cases c with
  | commit m =>
    cases a with
    | error e => exact .inl rfl
    | ok u => exact .inr ⟨m, rfl, rfl⟩
  | poll => cases a <;> exact .inl rfl
  | now => exact .inl rfl
  | publish topic key rec headers => exact .inl rfl
  | statusRead requestId changes => exact .inl rfl
  | statusPut requestId status => exact .inl rfl
  | own c => exact .inl rfl

theorem Inv.initial : Inv eff outcome ({} : Partition Rec R Own Eff OwnAns α) := by
  refine ⟨?_, ?_, ?_⟩
  · intro offset h
    exact absurd h (Nat.not_lt_zero _)
  · intro m h
    cases h
  · intro p h
    cases h

variable (hmono : outcome.Mono)
include hmono

theorem Inv.advance {s : Partition Rec R Own Eff OwnAns α} (hi : Inv eff outcome s) {c : RunnerCall Rec R Own}
    {k : RunnerCall.Ans OwnAns c → RunnerProg Rec R OwnAns (Except PyErr α)} (hp : s.program = some (.call c k))
    (horder : ∀ m, c = .commit m → m.offset ≤ s.committed) (arrived : Bool)
    (answers : (c : RunnerCall Rec R Own) → RunnerCall.Ans OwnAns c) :
    Inv eff outcome {
      log := s.log, committed := (s.offsets c (s.reply arrived answers c)).1
      position := (s.offsets c (s.reply arrived answers c)).2
      ledger := eff.record s.ledger c (s.reply arrived answers c)
      program := some (k (s.reply arrived answers c)) } := by
  obtain ⟨hallowed, hrest⟩ := hi.program _ hp
  have hdone : ∀ offset m, s.messageAt offset = some m → outcome (s.ledger.Has m) m →
      outcome ((eff.record s.ledger c (s.reply arrived answers c)).Has m) m := by
    intro offset m _ ho
    exact hmono _ _ m (fun e h => eff.has_record c _ h) ho
  refine ⟨?_, ?_, ?_⟩
  · intro offset hlt
    have hold : offset < s.committed → ∃ m, s.messageAt offset = some m ∧
        outcome ((eff.record s.ledger c (s.reply arrived answers c)).Has m) m := by
      intro h
      obtain ⟨m, hm, ho⟩ := hi.done offset h
      exact ⟨m, hm, hdone offset m hm ho⟩
    rcases s.offsets_committed c (s.reply arrived answers c) with h | ⟨m, hc, h⟩
    · exact hold (h ▸ hlt)
    · -- the committed message is done, and everything before it was committed already
      obtain ⟨hpolled, ho⟩ := hallowed m hc
      have hm := hi.polled m hpolled
      have hle := horder m hc
      have hlt' : offset < m.offset + 1 := h ▸ hlt
      by_cases he : offset = m.offset
      · subst he
        exact ⟨m, hm, hdone _ m hm ho⟩
      · exact hold (by omega)
  · intro m hm
    rcases polled_reply eff s arrived answers c hm with h | h
    · exact hi.polled m h
    · rw [offset_of_messageAt h]
      exact h
  · intro p hp'
    cases hp'
    exact hrest _

variable (hcov : ∀ n l, (round n).wp (commitMonitor R eff outcome) l fun _ _ => True)
include hcov

theorem Inv.step {s : Partition Rec R Own Eff OwnAns α} (hi : Inv eff outcome s)
    (a : SessionAction Rec R Own OwnAns) (hc : s.InOrder a) : Inv eff outcome (s.step eff round a) := by
  cases a with
  | produce entry =>
    have hgrow : ∀ offset m, s.messageAt offset = some m →
        messageAt (s.step eff round (.produce entry)) offset = some m := by
      intro offset m h
      obtain ⟨e, he, rfl⟩ := Option.map_eq_some_iff.mp h
      have hlt : offset < s.log.length := (List.getElem?_eq_some_iff.mp he).1
      unfold messageAt
      simp only [Partition.step]
      rw [List.getElem?_append_left hlt, he]
      rfl
    refine ⟨?_, ?_, hi.program⟩
    · intro offset hlt
      obtain ⟨m, hm, ho⟩ := hi.done offset hlt
      exact ⟨m, hgrow offset m hm, ho⟩
    · intro m hm
      exact hgrow _ m (hi.polled m hm)
  | startRound n =>
    simp only [Partition.step]
    split
    · exact ⟨hi.done, hi.polled, fun p hp => by cases hp; exact hcov n s.ledger⟩
    · exact ⟨hi.done, hi.polled, fun p hp => by cases hp; exact hcov n s.ledger⟩
    · exact hi
  | advance arrived answers =>
    cases hp : s.program with
    | none =>
      simp only [Partition.step, hp]
      exact hi
    | some p =>
      cases p with
      | ret r =>
        simp only [Partition.step, hp]
        exact hi
      | call c k =>
        simp only [Partition.step, hp]
        refine hi.advance hmono hp ?_ arrived answers
        intro m hm
        refine hc m ?_
        rw [hp]
        exact congrArg some hm
  | restart => exact ⟨hi.done, hi.polled, fun p hp => by cases hp⟩

/-- Below the committed offset every message is done, in every state of a run that commits in order. -/
theorem none_skipped (actions : List (SessionAction Rec R Own OwnAns))
    (hs : Runs.Steady (step eff round) InOrder ({} : Partition Rec R Own Eff OwnAns α) actions) :
    ∀ visited, visited <+: actions → ∀ offset < (Runs.run (step eff round) {} visited).committed,
      ∃ m, (Runs.run (step eff round) {} visited).messageAt offset = some m ∧
        outcome ((Runs.run (step eff round) {} visited).ledger.Has m) m := by
  intro visited hprefix
  obtain ⟨rest, rfl⟩ := hprefix
  have hv := (Runs.Steady.append.mp hs).1
  have hkeep : ∀ (s : Partition Rec R Own Eff OwnAns α) a, Inv eff outcome s → s.InOrder a →
      Inv eff outcome (s.step eff round a) :=
    fun s a hi hc => Inv.step hmono hcov hi a hc
  exact (Runs.Steady.invariant hkeep Inv.initial hv).done

end Partition

end

end ClearFeature
