import ClearFeature.AttemptHeader
import ClearFeature.Retries

/-!
# A bounded chain of retry copies

Each round handles the last copy and appends the next one or the dead letter,
so the copies count up from the first attempt to the limit.
-/

namespace ClearFeature

open Prog Runner

section
variable {Rec E R Own : Type} {OwnAns : Own → Type} (topic : RetryTopic Rec E) (attempt maxAttempts : Int)

/-- The copies so far, the first with the given attempt, and how far they are committed. -/
structure RetryChain (b : RetryBroker) : Prop where
  entries : ∀ (i : Nat) (entry : LogEntry), b.log[i]? = some entry → entry.error = none ∧ getAttempt entry.headers = attempt + i ∧
    ∃ e, topic.fromJson entry.value = .ok e ∧ topic.Copy e
  nonempty : 0 < b.log.length
  below : 1 < b.log.length → attempt + b.log.length - 1 < maxAttempts
  dead : b.dead = [] ∨ b.dead.length = 1 ∧ maxAttempts ≤ attempt + b.log.length
  acknowledged : b.committed + b.pending.toNat + 1 = b.log.length + b.dead.length
  position : b.committed + b.pending.toNat ≤ b.position ∧ b.position ≤ b.committed + 1

/-- How a round that handles the last copy ends. -/
inductive AttemptOutcome (calm : Bool) (b b' : RetryBroker) : ProcessStatus → Prop
  | refused {status : ProcessStatus} : calm = false → status = .retryPublishFailed ∨ status = .dlqPublishFailed →
      AttemptOutcome calm b b' status
  | republished : b.dead = [] → attempt + b.log.length < maxAttempts → b'.log.length = b.log.length + 1 → b'.dead = [] →
      b'.position = b'.committed → AttemptOutcome calm b b' .retryRepublished
  | deadLettered : b.dead = [] → maxAttempts ≤ attempt + b.log.length → b'.log = b.log → b'.dead.length = 1 →
      b'.position = b'.committed → AttemptOutcome calm b b' .deadLettered

/-- How a round ends: nothing was polled, or an attempt was made. -/
def RoundOutcome (calm : Bool) (b b' : RetryBroker) (status : ProcessStatus) : Prop :=
  status = .idle ∧ b' = b ∧ (calm = true → b.messageAt b.position = none) ∨
    AttemptOutcome attempt maxAttempts calm b b' status

theorem AttemptOutcome.of_polled {attempt maxAttempts : Int} {calm : Bool} {b b' : RetryBroker} {position : Nat}
    {status : ProcessStatus} (h : AttemptOutcome attempt maxAttempts calm { b with position := position } b' status) :
    AttemptOutcome attempt maxAttempts calm b b' status := by
  cases h with
  | refused hcalm hstatus => exact .refused hcalm hstatus
  | republished hdead hlimit hlog hdead' hposition => exact .republished hdead hlimit hlog hdead' hposition
  | deadLettered hdead hlimit hlog hdead' hposition => exact .deadLettered hdead hlimit hlog hdead' hposition

/-- A message was polled: it is the last copy, and it decodes to the event. -/
structure LastPolled (b : RetryBroker) (m : ConsumedMessage) (e : E) : Prop where
  chain : RetryChain topic attempt maxAttempts b
  settled : b.pending = false
  dead : b.dead = []
  position : b.position = b.committed + 1
  offset : m.offset = b.committed
  headers : getAttempt m.headers + 1 = attempt + b.log.length
  copy : topic.Copy e

variable {topic attempt maxAttempts} {stores : StoreAnswers OwnAns} {calm : Bool} {b : RetryBroker}

/-- An acknowledged retry copy. -/
theorem LastPolled.republish {m : ConsumedMessage} {e : E} (h : LastPolled topic attempt maxAttempts b m e)
    (hlimit : nextAttempt m.headers < maxAttempts) {raw : Bytes} {e' : E} (hraw : topic.fromJson raw = .ok e')
    (he' : topic.Copy e') : RetryChain topic attempt maxAttempts
      { b with log := b.log ++ [⟨raw, withAttemptHeader m.headers (nextAttempt m.headers), none⟩], pending := true } := by
  have hacknowledged := h.chain.acknowledged
  rw [h.settled, h.dead] at hacknowledged
  have hnext : nextAttempt m.headers = attempt + b.log.length := h.headers
  refine ⟨?_, ?_, ?_, .inl h.dead, ?_, ?_⟩
  · intro i entry hi
    by_cases hlt : i < b.log.length
    · rw [List.getElem?_append_left hlt] at hi
      exact h.chain.entries i entry hi
    · rw [List.getElem?_append_right (not_lt.mp hlt)] at hi
      have hi0 : i - b.log.length = 0 := by
        by_contra hne
        rw [List.getElem?_eq_none (by simp; omega)] at hi
        cases hi
      rw [hi0] at hi
      cases hi
      refine ⟨rfl, ?_, e', hraw, he'⟩
      rw [getAttempt_withAttemptHeader, hnext]
      congr 1
      omega
  · simp
  · intro _
    rw [hnext] at hlimit
    rw [List.length_append, List.length_singleton]
    push_cast
    omega
  · simp only [h.dead, List.length_append, Bool.toNat_true]
    simp at hacknowledged ⊢
    omega
  · rw [h.position]
    simp

/-- An acknowledged dead letter. -/
theorem LastPolled.deadLetter {m : ConsumedMessage} {e : E} (h : LastPolled topic attempt maxAttempts b m e)
    (hlimit : maxAttempts ≤ nextAttempt m.headers) (event : DeadLetterEvent) :
    RetryChain topic attempt maxAttempts { b with dead := b.dead ++ [event], pending := true } := by
  have hacknowledged := h.chain.acknowledged
  rw [h.settled, h.dead] at hacknowledged
  have hnext : nextAttempt m.headers = attempt + b.log.length := h.headers
  refine ⟨h.chain.entries, h.chain.nonempty, h.chain.below, .inr ?_, ?_, ?_⟩
  · rw [h.dead]
    exact ⟨rfl, hnext ▸ hlimit⟩
  · simp [h.dead] at hacknowledged ⊢
    omega
  · rw [h.position]
    simp

/-- The commit that follows an acknowledgement. -/
theorem RetryChain.commit (h : RetryChain topic attempt maxAttempts b) (hp : b.pending = true) :
    RetryChain topic attempt maxAttempts { b with committed := b.committed + 1, pending := false } := by
  have hacknowledged := h.acknowledged
  have hposition := h.position
  rw [hp] at hacknowledged hposition
  refine ⟨h.entries, h.nonempty, h.below, h.dead, ?_, ?_⟩
  · simpa using hacknowledged
  · simp at hposition ⊢
    omega

/-! ## A round -/

theorem RetryChain.poll (h : RetryChain topic attempt maxAttempts b) (hp : b.pending = false) {m : ConsumedMessage}
    (hm : b.messageAt b.position = some m) : m.error = none ∧ ∃ e, topic.fromJson m.value = .ok e ∧
      LastPolled topic attempt maxAttempts { b with position := b.position + 1 } m e := by
  obtain ⟨entry, hentry, rfl⟩ := Option.map_eq_some_iff.mp hm
  obtain ⟨herror, hheaders, e, hdecode, hcopy⟩ := h.entries _ _ hentry
  have hlt : b.position < b.log.length := (List.getElem?_eq_some_iff.mp hentry).1
  have hacknowledged := h.acknowledged
  have hposition := h.position
  rw [hp] at hacknowledged hposition
  simp only [Bool.toNat_false, Nat.add_zero] at hacknowledged hposition
  have hdead : b.dead.length = 0 := by omega
  have hcommitted : b.position = b.committed := by omega
  refine ⟨herror, e, hdecode, ?_, hp, List.eq_nil_of_length_eq_zero hdead, ?_, hcommitted, ?_, hcopy⟩
  · refine ⟨h.entries, h.nonempty, h.below, h.dead, h.acknowledged, ?_⟩
    rw [hp, hcommitted]
    simp
  · rw [hcommitted]
  · change getAttempt entry.headers + 1 = _
    rw [hheaders]
    change attempt + (b.position : Int) + 1 = attempt + (b.log.length : Int)
    omega

/-- The end of a round that counts the attempt. -/
theorem always_retryOrDlq {m : ConsumedMessage} {e : E} (h : LastPolled topic attempt maxAttempts b m e)
    (failureStatus : String) (error : Option String) :
    Always (retryEnv topic stores calm) (RetryChain topic attempt maxAttempts) b
      (retryOrDlq topic.name topic.stage topic.dlq (topic.retry e) (topic.key e) m failureStatus error maxAttempts :
        RunnerProg Rec R OwnAns (Except PyErr ProcessResult))
      fun b' r => ∃ result, r = .ok result ∧ RetryChain topic attempt maxAttempts b' ∧ b'.pending = false ∧
        AttemptOutcome attempt maxAttempts calm b b' result.status := by
  unfold retryOrDlq
  dsimp only
  by_cases hlimit : nextAttempt m.headers < maxAttempts
  · rw [if_pos hlimit]
    obtain ⟨key, hkey⟩ := topic.key_ok h.copy
    obtain ⟨raw, e', hraw, hdecode, hcopy⟩ := topic.payload_ok h.copy
    have hpublish : b.publish topic topic.name (topic.retry e) (withAttemptHeader m.headers (nextAttempt m.headers)) =
        { b with log := b.log ++ [⟨raw, withAttemptHeader m.headers (nextAttempt m.headers), none⟩], pending := true } := by
      rw [RetryBroker.publish, if_pos rfl, hraw]
    have hchain := h.republish hlimit hdecode hcopy
    rw [hkey]
    apply always_publish h.chain
    · intro hcalm error
      exact ⟨h.chain, _, rfl, h.chain, h.settled, .refused hcalm (.inl rfl)⟩
    · rw [hpublish]
      apply always_commitThen hchain
      rw [h.offset]
      have hcommitted := hchain.commit rfl
      refine ⟨hcommitted, _, rfl, hcommitted, rfl, .republished h.dead ?_ ?_ h.dead h.position⟩
      · exact h.headers ▸ hlimit
      · simp
  · rw [if_neg hlimit]
    unfold Runner.deadLetter
    have hchain := h.deadLetter (not_lt.mp hlimit) ⟨topic.name, topic.stage, failureStatus, error, m.value,
      some (nextAttempt m.headers), some maxAttempts⟩
    apply always_publish h.chain
    · intro hcalm error
      exact ⟨h.chain, _, rfl, h.chain, h.settled, .refused hcalm (.inr rfl)⟩
    · rw [RetryBroker.publish, if_neg topic.name_ne.symm, if_pos rfl, topic.deadLetter_dlq]
      apply always_commitThen hchain
      rw [h.offset]
      have hcommitted := hchain.commit rfl
      refine ⟨hcommitted, _, rfl, hcommitted, rfl, .deadLettered h.dead ?_ rfl ?_ h.position⟩
      · exact h.headers ▸ not_lt.mp hlimit
      · rw [h.dead]
        rfl

/-- A runner each of whose rounds is idle, or counts an attempt of the last copy. -/
def CountsAttempts (topic : RetryTopic Rec E) (attempt maxAttempts : Int) (stores : StoreAnswers OwnAns)
    (program : RunnerProg Rec R OwnAns (Except PyErr ProcessResult)) : Prop :=
  ∀ calm b, RetryChain topic attempt maxAttempts b → b.pending = false →
    Always (retryEnv topic stores calm) (RetryChain topic attempt maxAttempts) b program fun b' r =>
      ∃ result, r = .ok result ∧ RetryChain topic attempt maxAttempts b' ∧ b'.pending = false ∧
        RoundOutcome attempt maxAttempts calm b b' result.status

/-- A round starts with a poll; what follows a poll of the last copy counts the attempt. -/
theorem counts_of_polled {program : RunnerProg Rec R OwnAns (Except PyErr ProcessResult)}
    {handle : ConsumedMessage → E → RunnerProg Rec R OwnAns (Except PyErr ProcessResult)}
    {poison : ConsumedMessage → PyErr → RunnerProg Rec R OwnAns (Except PyErr ProcessResult)}
    (hprogram : program = do
      match ← poll with
      | none => return .ok ⟨.idle, false, none⟩
      | some message =>
        match message.error with
        | some e => return .ok ⟨.consumeError, false, some e⟩
        | none =>
          match topic.fromJson message.value with
          | .error e => poison message e
          | .ok event => handle message event)
    (hhandle : ∀ calm b m e, LastPolled topic attempt maxAttempts b m e →
      Always (retryEnv topic stores calm) (RetryChain topic attempt maxAttempts) b (handle m e) fun b' r =>
        ∃ result, r = .ok result ∧ RetryChain topic attempt maxAttempts b' ∧ b'.pending = false ∧
          AttemptOutcome attempt maxAttempts calm b b' result.status) :
    CountsAttempts topic attempt maxAttempts stores program := by
  intro calm b hchain hp
  rw [hprogram, always_ask_bind]
  refine ⟨hchain, fun polled hpolled => ?_⟩
  cases polled with
  | none =>
    refine ⟨hchain, _, rfl, hchain, hp, .inl ⟨rfl, rfl, fun hcalm => ?_⟩⟩
    rcases hpolled with h | ⟨h, -⟩
    · exact h.symm
    · rw [hcalm] at h
      cases h
  | some m =>
    have hm : b.messageAt b.position = some m := by
      rcases hpolled with h | ⟨-, h⟩
      · exact h.symm
      · cases h
    obtain ⟨herror, e, hdecode, hlast⟩ := hchain.poll hp hm
    dsimp only
    rw [herror, hdecode]
    refine (hhandle calm _ m e hlast).mono fun b' r hr => ?_
    obtain ⟨result, rfl, hchain', hp', houtcome⟩ := hr
    exact ⟨result, rfl, hchain', hp', .inr houtcome.of_polled⟩

/-! ## Rounds in succession -/

theorem Rounds.chain {program : RunnerProg Rec R OwnAns (Except PyErr ProcessResult)}
    (hcounts : CountsAttempts topic attempt maxAttempts stores program) {b b' : RetryBroker} {rs : List ProcessResult}
    (hrounds : Rounds topic stores calm program b rs b') (hchain : RetryChain topic attempt maxAttempts b)
    (hp : b.pending = false) : RetryChain topic attempt maxAttempts b' ∧ b'.pending = false := by
  induction hrounds with
  | start => exact ⟨hchain, hp⟩
  | round _ hreturns ih =>
    obtain ⟨hchain', hp'⟩ := ih
    obtain ⟨result, -, hchain'', hp'', -⟩ := hreturns.always (hcounts _ _ hchain' hp')
    exact ⟨hchain'', hp''⟩
  | restart _ _ hstops hpending ih =>
    obtain ⟨hchain', hp'⟩ := ih
    have hchain'' := hstops.always (hcounts _ _ hchain' hp')
    refine ⟨⟨hchain''.entries, hchain''.nonempty, hchain''.below, hchain''.dead, hchain''.acknowledged, ?_⟩, hpending⟩
    rw [hpending]
    simp

/-- How many times an event is handled. -/
def handlings (attempt maxAttempts : Int) : Nat := (max 1 (maxAttempts - attempt)).toNat

theorem RetryChain.length_le (h : RetryChain topic attempt maxAttempts b) :
    b.log.length ≤ handlings attempt maxAttempts := by
  have hnonempty := h.nonempty
  have hbelow := h.below
  unfold handlings
  by_cases hone : 1 < b.log.length
  · have hb := hbelow hone
    omega
  · omega

theorem RetryChain.length_of_dead (h : RetryChain topic attempt maxAttempts b) (hdead : b.dead ≠ []) :
    b.dead.length = 1 ∧ b.log.length = handlings attempt maxAttempts := by
  have hle := h.length_le
  have hnonempty := h.nonempty
  rcases h.dead with hnil | ⟨hlength, hlimit⟩
  · exact absurd hnil hdead
  · refine ⟨hlength, ?_⟩
    unfold handlings at hle ⊢
    omega

/-- The statuses of the first rounds when nothing is refused, late or stopped. -/
def calmStatuses (n rounds : Nat) : List ProcessStatus :=
  if rounds < n then List.replicate rounds .retryRepublished
  else List.replicate (n - 1) .retryRepublished ++ .deadLettered :: List.replicate (rounds - n) .idle

/-- In calm rounds the statuses tell how far the chain is. -/
structure CalmChain (topic : RetryTopic Rec E) (attempt maxAttempts : Int) (b : RetryBroker)
    (statuses : List ProcessStatus) : Prop where
  chain : RetryChain topic attempt maxAttempts b
  settled : b.pending = false
  position : b.position = b.committed
  retried : b.dead = [] → statuses = List.replicate (b.log.length - 1) .retryRepublished
  finished : b.dead ≠ [] → ∃ idle, statuses =
    List.replicate (b.log.length - 1) .retryRepublished ++ .deadLettered :: List.replicate idle .idle

theorem CalmChain.round {b b' : RetryBroker} {statuses : List ProcessStatus} {status : ProcessStatus}
    (h : CalmChain topic attempt maxAttempts b statuses) (hchain : RetryChain topic attempt maxAttempts b')
    (hp : b'.pending = false) (houtcome : RoundOutcome attempt maxAttempts true b b' status) :
    CalmChain topic attempt maxAttempts b' (statuses ++ [status]) := by
  rcases houtcome with ⟨rfl, rfl, hnone⟩ | houtcome
  · have hdead : b'.dead ≠ [] := by
      intro hnil
      have hacknowledged := hchain.acknowledged
      rw [hp, hnil] at hacknowledged
      have hmessage := hnone rfl
      rw [RetryBroker.messageAt, Option.map_eq_none_iff, List.getElem?_eq_none_iff, h.position] at hmessage
      simp at hacknowledged
      omega
    refine ⟨hchain, hp, h.position, fun hnil => absurd hnil hdead, fun _ => ?_⟩
    obtain ⟨idle, rfl⟩ := h.finished hdead
    refine ⟨idle + 1, ?_⟩
    rw [List.replicate_succ', List.append_assoc, List.cons_append]
  · cases houtcome with
    | refused hcalm _ => cases hcalm
    | republished hdead hlimit hlog hdead' hposition =>
      have hnonempty := h.chain.nonempty
      refine ⟨hchain, hp, hposition, fun _ => ?_, fun hne => absurd hdead' hne⟩
      rw [h.retried hdead, hlog, ← List.replicate_succ']
      congr 1
      omega
    | deadLettered hdead hlimit hlog hdead' hposition =>
      refine ⟨hchain, hp, hposition, fun hnil => ?_, fun _ => ⟨0, ?_⟩⟩
      · rw [hnil] at hdead'
        cases hdead'
      · rw [h.retried hdead, hlog]
        rfl

theorem Rounds.calm_statuses {program : RunnerProg Rec R OwnAns (Except PyErr ProcessResult)}
    (hcounts : CountsAttempts topic attempt maxAttempts stores program) {b b' : RetryBroker} {rs : List ProcessResult}
    (hrounds : Rounds topic stores true program b rs b') (hchain : CalmChain topic attempt maxAttempts b []) :
    CalmChain topic attempt maxAttempts b' (rs.map (·.status)) := by
  induction hrounds with
  | start => exact hchain
  | round _ hreturns ih =>
    obtain ⟨result, hresult, hchain', hp', houtcome⟩ := hreturns.always (hcounts _ _ ih.chain ih.settled)
    cases hresult
    rw [List.map_append]
    exact ih.round hchain' hp' houtcome
  | restart hcalm _ _ _ _ => cases hcalm

end

end ClearFeature
