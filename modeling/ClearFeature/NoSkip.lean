import ClearFeature.Consistency
import ClearFeature.DeliveryWaves

/-!
# Skipped messages

A runner polls on after a message it could not commit, and the next commit
moves the committed offset past it. Runs whose commits stay in order skip
nothing.
-/

namespace ClearFeature

open Partition

section
variable {Rec R Own Eff : Type} {OwnAns : Own → Type} {α : Type}

/-- Every message below the committed offset is done, in every state of a run whose commits are in order. -/
def NoneSkipped (eff : Effects Rec Own Eff OwnAns) (outcome : Outcome Eff)
    (round : Nat → RunnerProg Rec R OwnAns (Except PyErr α)) : Prop :=
  ∀ actions, Runs.Steady (step eff round) InOrder ({} : Partition Rec R Own Eff OwnAns α) actions →
    ∀ visited, visited <+: actions → ∀ offset < (Runs.run (step eff round) {} visited).committed,
      ∃ m, (Runs.run (step eff round) {} visited).messageAt offset = some m ∧
        outcome ((Runs.run (step eff round) {} visited).ledger.Has m) m

end

/-- Three payloads are events, and the request of the first has expired. -/
def threeEvents : ComputeEvents Nat Nat where
  fromJson := fun raw =>
    if raw = asciiBytes "expired" then .ok 0
    else if raw = asciiBytes "computed" then .ok 1
    else if raw = asciiBytes "refused" then .ok 2
    else .error (.valueError "Expecting value: line 1 column 1 (char 0)")
  requestId := id
  encoded := fun _ => .ok "user_id=1"
  expired := fun event _ => .ok (event == 0)

def plainTextOffline : OfflineEvents Unit Nat where
  fromJson := fun _ => .error (.valueError "Expecting value: line 1 column 1 (char 0)")
  requestId := fun _ => 0
  writeSet := fun _ => .error (.valueError "")

def plainTextUpdates : UpdateEvents Unit where
  fromJson := plainTextOffline.fromJson
  plan := fun _ => .ok []
  encoded := fun _ => .ok "user_id=1"
  dataTs := fun _ => 0
  calcTs := fun _ => 0

def plainTextChunks (_ : Bytes) : Except PyErr BatchChunkRequested :=
  .error (.valueError "Expecting value: line 1 column 1 (char 0)")

def userWriteSet : FeatureWriteSet where
  view := "risk"
  viewVersion := 1
  entityKey := userKey
  results := []
  sourceRefs := []

abbrev OnlinePartition : Type :=
  Partition (OnlineRecord Nat Nat) Nat (OnlineOwn Nat Nat) (OnlineEffect Nat Nat) OnlineOwn.Ans ProcessResult

abbrev OnlineAction : Type := SessionAction (OnlineRecord Nat Nat) Nat (OnlineOwn Nat Nat) OnlineOwn.Ans

/-- The broker acknowledges or is not available; the second event can be computed. -/
def brokerAnswers (available : Bool) : (c : RunnerCall (OnlineRecord Nat Nat) Nat (OnlineOwn Nat Nat)) →
    RunnerCall.Ans OnlineOwn.Ans c
  | .poll => none
  | .now => 0
  | .commit _ | .statusPut _ _ => .ok ()
  | .publish _ _ _ _ => if available then .ok () else .error (.other "RuntimeError" "Kafka delivery failed")
  | .statusRead _ _ => .ok none
  | .own (.compute event) => if event = 1 then .ok userWriteSet else .error (.valueError "missing 'income'")
  | .own (.writeOnline _) => .ok []
  | .own (.putResult _) => .ok ()

def onlineStep : OnlinePartition → OnlineAction → OnlinePartition :=
  step (onlineEffects Nat Nat) fun _ => Online.processNext threeEvents 5

/-- The dead letter of the first message fails, that of the second is acknowledged. -/
def secondCommits : List OnlineAction := [
  .produce { value := asciiBytes "x" }, .produce { value := asciiBytes "y" },
  .startRound 1, .advance true (brokerAnswers true), .advance true (brokerAnswers false),
  .startRound 1, .advance true (brokerAnswers true), .advance true (brokerAnswers true), .advance true (brokerAnswers true)]

/-- One message is processed in as many calls. -/
def processed (calls : Nat) : List OnlineAction := .startRound 1 :: List.replicate calls (.advance true (brokerAnswers true))

/-- Four messages in order: a dead letter, an expired request, a computed one and one whose computation is refused. -/
def fourCommits : List OnlineAction :=
  [.produce { value := asciiBytes "x" }, .produce { value := asciiBytes "expired" },
    .produce { value := asciiBytes "computed" }, .produce { value := asciiBytes "refused" }] ++
  processed 3 ++ processed 6 ++ processed 10 ++ processed 7

/-- Where a record went to while the message at this offset was in hand. -/
structure SentTo where
  offset : Nat
  topic : String
  key : String
  headers : Headers := []
  deriving DecidableEq

def sentTo : ConsumedMessage × OnlineEffect Nat Nat → Option SentTo
  | (m, .published p) => some ⟨m.offset, p.topic, p.key, p.headers⟩
  | _ => none

section
variable {Rec R Own Eff α : Type} {OwnAns : Own → Type}

instance decidableInOrder (s : Partition Rec R Own Eff OwnAns α) : (a : SessionAction Rec R Own OwnAns) →
    Decidable (s.InOrder a)
  | .advance _ _ => match h : s.program.bind Prog.next? with
    | some (.commit m) => decidable_of_iff (m.offset ≤ s.committed)
        ⟨fun hm m' h' => by cases h.symm.trans h'; exact hm, fun hm => hm m h⟩
    | some .poll | some .now | some (.publish _ _ _ _) | some (.statusRead _ _) | some (.statusPut _ _) | some (.own _)
    | none => isTrue fun m' h' => nomatch h.symm.trans h'
  | .produce _ | .startRound _ | .restart => isTrue trivial

end

end ClearFeature
