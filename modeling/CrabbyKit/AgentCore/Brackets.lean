import CrabbyKit.AgentCore.Bookkeeping

/-!
# Turn brackets and the limits of a run

Turns open and close in alternation. The opening of the first turn belongs to whoever
starts the loop, the others to the loop, and giving up past the iteration limit closes a
turn that nobody opened.
-/

namespace CrabbyKit.AgentCore

open List

variable {σ τ : Type}

/-- The start or the end of a turn. -/
inductive Bracket
  | opened | closed
  deriving DecidableEq, Repr

def Observation.bracket? : Observation → Option Bracket
  | .event .turnStart => some .opened
  | .event (.turnEnd _ _) => some .closed
  | _ => none

def brackets (t : Trace) : List Bracket := t.filterMap Observation.bracket?

/-- `n` turns that were opened and closed in alternation. -/
def closedTurns : Nat → List Bracket
  | 0 => []
  | n + 1 => closedTurns n ++ [.opened, .closed]

section Projections

theorem brackets_marks (t : Trace) : brackets (marks t) = brackets t := by
  apply filterMap_marks
  rintro (e | _ | _ | _) h
  · cases e <;> first | rfl | cases h
  all_goals rfl

@[simp] theorem brackets_append (t t' : Trace) : brackets (t ++ t') = brackets t ++ brackets t' :=
  filterMap_append

@[simp] theorem brackets_endedAll (messages : List AgentMessage) :
    brackets (endedAll messages) = [] := by
  induction messages with
  | nil => rfl
  | cons m rest ih => exact ih

@[simp] theorem brackets_attemptMarks (attempts : List Attempt) :
    brackets (attemptMarks attempts) = [] := by
  induction attempts with
  | nil => rfl
  | cons a rest ih => exact ih

theorem brackets_turn (firstTurn : Bool) (t : Turn) :
    brackets (t.marks firstTurn) = brackets (opening firstTurn) ++ [.closed] := by
  have hend : brackets [.event (.turnEnd t.last.reply.toAgentMessage t.results)] = [.closed] := rfl
  simp [Turn.marks, hend]

theorem Adds.brackets {s s' : LoopState (σ × Trace)} {c r : List AgentMessage} {t : Trace}
    (h : Adds s s' c r t) : brackets s'.host.2 = brackets s.host.2 ++ AgentCore.brackets t := by
  rw [← brackets_marks, h.trace, brackets_append, brackets_marks]

theorem count_opened_closedTurns (n : Nat) : (closedTurns n).count .opened = n := by
  induction n with
  | zero => rfl
  | succ n ih =>
    rw [closedTurns, count_append, ih]
    rfl

theorem count_closed_closedTurns (n : Nat) : (closedTurns n).count .closed = n := by
  induction n with
  | zero => rfl
  | succ n ih =>
    rw [closedTurns, count_append, ih]
    rfl

end Projections

section Limits

variable {H : LoopHost σ τ} {s s' : LoopState (σ × Trace)}

/-- Where a run stands before an iteration: `made` turns are closed, the next one is open
or will be opened by the iteration, and the turns made so far kept to their model calls. -/
structure Standing (H : LoopHost σ τ) (left : Nat) (firstTurn : Bool)
    (s : LoopState (σ × Trace)) (made : Nat) : Prop where
  within : made + left = H.maxIterations
  first : firstTurn = true ↔ made = 0
  opens : brackets s.host.2 ++ brackets (opening firstTurn) = closedTurns made ++ [.opened]
  calls : (answers s.host.2).length ≤ made * (1 + H.maxStreamRetries)
  silent : agentEnds s.host.2 = []

variable {pending : List AgentMessage}

variable {t : Turn}

theorem TurnOf.calls (ht : TurnOf H pending s t) :
    (attemptAnswers t.attempts).length ≤ 1 + H.maxStreamRetries := by
  have hretries := ht.retries
  simp only [attemptAnswers, Turn.attempts, length_map, length_append, length_singleton]
  omega

variable {made : Nat} {firstTurn : Bool} {c r : List AgentMessage}

variable {left : Nat} {rest : Trace}

theorem Standing.turn (h : Standing H (left + 1) firstTurn s made)
    (ht : TurnOf H pending s t) (hbrackets : brackets rest = []) (hanswers : answers rest = [])
    (hadds : Adds s s' c r (t.marks firstTurn ++ rest)) :
    brackets s'.host.2 = closedTurns (made + 1) ∧
      (answers s'.host.2).length ≤ (made + 1) * (1 + H.maxStreamRetries) := by
  constructor
  · rw [hadds.brackets, brackets_append, brackets_turn, hbrackets, append_nil,
      ← append_assoc, h.opens, closedTurns, append_assoc]
    rfl
  · have hcalls := h.calls
    have hturn := ht.calls
    rw [hadds.answers, answers_append, answers_turn, hanswers, append_nil,
      length_append, Nat.succ_mul]
    omega

theorem Standing.again (h : Standing H (left + 1) firstTurn s made)
    (ht : TurnOf H pending s t) (hbrackets : brackets rest = []) (hanswers : answers rest = [])
    (hends : agentEnds rest = []) (hadds : Adds s s' c r (t.marks firstTurn ++ rest)) :
    Standing H left false s' (made + 1) := by
  obtain ⟨hclosed, hcalls⟩ := h.turn ht hbrackets hanswers hadds
  have hwithin := h.within
  constructor
  · omega
  · simp
  · rw [hclosed]
    rfl
  · exact hcalls
  · rw [hadds.agentEnds, h.silent, agentEnds_append, agentEnds_turn, hends]
    rfl

theorem Standing.calls_le {calls : Nat} (h : Standing H (left + 1) firstTurn s made)
    (hcalls : calls ≤ (made + 1) * (1 + H.maxStreamRetries)) :
    calls ≤ H.maxIterations * (1 + H.maxStreamRetries) := by
  have hmade : made + 1 ≤ H.maxIterations := by
    have hwithin := h.within
    omega
  exact Nat.le_trans hcalls (Nat.mul_le_mul_right _ hmade)

variable {prompts : List AgentMessage}

theorem standing_start
    (hmarks : marks s.host.2 = .event .turnStart :: endedAll prompts ++ [.supplied pending]) :
    Standing H H.maxIterations true s 0 := by
  have hbrackets : brackets s.host.2 = [.opened] := by
    rw [← brackets_marks, hmarks]
    change .opened :: brackets (endedAll prompts ++ [.supplied pending]) = [.opened]
    rw [brackets_append, brackets_endedAll]
    rfl
  have hanswers : answers s.host.2 = [] := by
    rw [← answers_marks, hmarks, answers_start]
  have hends : agentEnds s.host.2 = [] := by
    rw [← agentEnds_marks, hmarks, agentEnds_start]
  constructor
  · omega
  · simp
  · rw [hbrackets]
    rfl
  · rw [hanswers]
    exact Nat.zero_le _
  · exact hends

/-- What a run leaves: its model calls, and the brackets of its turns by the way it ended. -/
structure Bracketed (H : LoopHost σ τ) (waiting : Option (List AgentMessage))
    (r : LoopState (σ × Trace) × LoopEnd) : Prop where
  calls : (answers r.1.host.2).length ≤ H.maxIterations * (1 + H.maxStreamRetries)
  within : r.2 = .returned → waiting = none →
    ∃ n, n ≤ H.maxIterations ∧ brackets r.1.host.2 = closedTurns n
  exceeded : r.2 = .returned → waiting ≠ none → 0 < H.maxIterations →
    brackets r.1.host.2 = closedTurns H.maxIterations ++ [.closed]
  idle : r.2 = .returned → H.maxIterations = 0 → brackets r.1.host.2 = closedTurns 1
  threw : ∀ e, r.2 = .threw e → agentEnds r.1.host.2 = [] ∧
    ∃ n, n < H.maxIterations ∧ brackets r.1.host.2 = closedTurns n ++ [.opened]

theorem exceedIterations_bracketed (h : Standing H 0 firstTurn s made) :
    Bracketed H (some pending) (exceedIterations H.traced s, .returned) := by
  obtain ⟨m, hadds⟩ := exceedIterations_adds H s
  have hwithin := h.within
  have hmade : made = H.maxIterations := by omega
  have hbrackets := hadds.brackets
  constructor
  · have hcalls := h.calls
    rw [hmade] at hcalls
    rw [hadds.answers]
    exact (append_nil (answers s.host.2)).symm ▸ hcalls
  · intro _ hnone
    cases hnone
  · intro _ _ hpos
    have hlater : firstTurn = false := by
      rw [Bool.eq_false_iff, ne_eq, h.first]
      omega
    have hopens := h.opens
    rw [hlater, hmade] at hopens
    have hclosed := append_singleton_inj.mp hopens
    rw [hbrackets, hclosed.1]
    rfl
  · intro _ hzero
    have hfirst : firstTurn = true := h.first.mpr (by omega)
    have hopens := h.opens
    rw [hfirst, hmade, hzero] at hopens
    have hopened : brackets s.host.2 = [.opened] := (append_nil _).symm.trans hopens
    rw [hbrackets, hopened]
    rfl
  · intro e he
    cases he

theorem Standing.threw
    {seen : List AgentMessage} {failed : List Attempt} {answer : Except String Response}
    {e : String}
    (h : Standing H (left + 1) firstTurn s made) (hretries : failed.length ≤ H.maxStreamRetries)
    (hadds : Adds s s' c r (opening firstTurn ++ (endedAll pending ++
      (attemptMarks failed ++ [.context seen, .answer answer])))) :
    Bracketed H none (s', .threw e) := by
  have hopened : brackets s'.host.2 = closedTurns made ++ [.opened] := by
    rw [hadds.brackets, brackets_append, brackets_append, brackets_append, brackets_endedAll,
      brackets_attemptMarks, ← append_assoc, h.opens]
    exact append_nil _
  have hcalls : (answers s'.host.2).length ≤ (made + 1) * (1 + H.maxStreamRetries) := by
    have hone : answers [.context seen, .answer answer] = [answer] := rfl
    have hbefore := h.calls
    rw [hadds.answers, answers_append, answers_append, answers_append, answers_endedAll,
      answers_attemptMarks, answers_opening, hone, Nat.succ_mul]
    simp only [attemptAnswers, nil_append, length_append, length_map, length_singleton]
    omega
  have hsilent : agentEnds s'.host.2 = [] := by
    rw [hadds.agentEnds, h.silent, agentEnds_append, agentEnds_append, agentEnds_append,
      agentEnds_opening, agentEnds_endedAll, agentEnds_attemptMarks]
    rfl
  have hwithin := h.within
  have hthrew : LoopEnd.threw e ≠ .returned := LoopEnd.noConfusion
  refine ⟨h.calls_le hcalls, fun hr => absurd hr hthrew, fun hr => absurd hr hthrew,
    fun hr => absurd hr hthrew, fun _ _ => ⟨hsilent, made, ?_, hopened⟩⟩
  omega

theorem Standing.ended (h : Standing H (left + 1) firstTurn s made)
    (ht : TurnOf H pending s t) (hbrackets : brackets rest = []) (hanswers : answers rest = [])
    (hadds : Adds s s' c r (t.marks firstTurn ++ rest)) : Bracketed H none (s', .returned) := by
  obtain ⟨hclosed, hcalls⟩ := h.turn ht hbrackets hanswers hadds
  have hwithin := h.within
  constructor
  · exact h.calls_le hcalls
  · intro _ _
    exact ⟨made + 1, by omega, hclosed⟩
  · intro _ hsome
    exact absurd rfl hsome
  · intro _ hzero
    omega
  · intro e he
    cases he

theorem Started.bracketed {messages : List AgentMessage} {host : σ}
    {r : LoopState (σ × Trace) × LoopEnd} (h : Started H.traced messages (host, []) prompts r) :
    Bracketed H (waitingAtLimit H prompts messages host) r := by
  obtain ⟨pending, s, rfl, -, -, hmarks, hwaiting⟩ := h.iterates
  refine runTurns_rule
    (fun left firstTurn pending s => (∃ made, Standing H left firstTurn s made) ∧
      pendingAtLimit H.traced left firstTurn pending s = waitingAtLimit H prompts messages host)
    (fun r => Bracketed H (waitingAtLimit H prompts messages host) r) ?_ ?_ ?_
    ⟨⟨0, standing_start hmarks⟩, hwaiting⟩
  · rintro firstTurn pending s ⟨⟨made, hs⟩, hw⟩
    rw [← hw]
    exact exceedIterations_bracketed hs
  · rintro left firstTurn pending s s' ended ⟨⟨made, hs⟩, hw⟩ hturn hran
    have hnone : waitingAtLimit H prompts messages host = none := by
      rw [← hw, pendingAtLimit, hturn]
    rw [hnone]
    cases hran with
    | threw failed context seen answer hretries hsees hadds => exact hs.threw hretries hadds
    | stopped t ht hadds => exact hs.ended ht rfl rfl hadds
    | idle t ht hreply hadds => exact hs.ended ht rfl rfl hadds
  · rintro left firstTurn pending s s' next ⟨⟨made, hs⟩, hw⟩ hturn hran
    have hnext : pendingAtLimit H.traced left false next s' =
        waitingAtLimit H prompts messages host := by
      rw [← hw, pendingAtLimit, hturn]
    refine ⟨⟨made + 1, ?_⟩, hnext⟩
    cases hran with
    | steered t ht hreply next hadds => exact hs.again ht rfl rfl rfl hadds
    | followed t ht hreply next hadds => exact hs.again ht rfl rfl rfl hadds

end Limits

theorem Bracketed.opened_le {H : LoopHost σ τ} {waiting : Option (List AgentMessage)}
    {r : LoopState (σ × Trace) × LoopEnd} (h : Bracketed H waiting r) :
    (brackets r.1.host.2).count .opened ≤ max 1 H.maxIterations := by
  have hone : [Bracket.closed].count .opened = 0 := rfl
  cases hr : r.2 with
  | threw e =>
    obtain ⟨-, n, hn, hopened⟩ := h.threw e hr
    rw [hopened, count_append, count_opened_closedTurns, count_singleton_self]
    omega
  | returned =>
    by_cases hzero : H.maxIterations = 0
    · rw [h.idle hr hzero, count_opened_closedTurns]
      omega
    by_cases hwaiting : waiting = none
    · obtain ⟨n, hn, hclosed⟩ := h.within hr hwaiting
      rw [hclosed, count_opened_closedTurns]
      omega
    · rw [h.exceeded hr hwaiting (by omega), count_append, count_opened_closedTurns, hone]
      omega

theorem closedTurns_concat_closed_ne (m n : Nat) : closedTurns m ++ [.closed] ≠ closedTurns n := by
  intro heq
  have hopened := congrArg (List.count .opened) heq
  have hclosed := congrArg (List.count .closed) heq
  have hone : [Bracket.closed].count .opened = 0 := rfl
  rw [count_append, count_opened_closedTurns, count_opened_closedTurns, hone] at hopened
  rw [count_append, count_closed_closedTurns, count_closed_closedTurns,
    count_singleton_self] at hclosed
  omega

/-- A run makes at most `maxIterations` turns and as many model calls as these may have
with their retries. When it returns, its turns open and close in alternation with none left
open exactly unless it went past a positive iteration limit; when it throws, only the turn in
which it threw is open, and no end of the run is announced. -/
theorem turns_bracketed {H : LoopHost σ τ} {messages prompts : List AgentMessage} {host : σ}
    {r : LoopState (σ × Trace) × LoopEnd} (h : Started H.traced messages (host, []) prompts r) :
    (answers r.1.host.2).length ≤ H.maxIterations * (1 + H.maxStreamRetries) ∧
    (brackets r.1.host.2).count .opened ≤ max 1 H.maxIterations ∧
    (r.2 = .returned → ((∃ n, brackets r.1.host.2 = closedTurns n) ↔
      ¬ (0 < H.maxIterations ∧ waitingAtLimit H prompts messages host ≠ none))) ∧
    ∀ e, r.2 = .threw e → agentEnds r.1.host.2 = [] ∧
      ∃ n, brackets r.1.host.2 = closedTurns n ++ [.opened] := by
  have hrun := h.bracketed
  refine ⟨hrun.calls, hrun.opened_le, ?_, ?_⟩
  · intro hr
    constructor
    · rintro ⟨n, hn⟩ ⟨hpos, hwaiting⟩
      rw [hrun.exceeded hr hwaiting hpos] at hn
      exact closedTurns_concat_closed_ne _ n hn
    · intro hwithin
      by_cases hzero : H.maxIterations = 0
      · exact ⟨1, hrun.idle hr hzero⟩
      · have hnone : waitingAtLimit H prompts messages host = none := by
          by_contra hwaiting
          exact hwithin ⟨by omega, hwaiting⟩
        obtain ⟨n, -, hclosed⟩ := hrun.within hr hnone
        exact ⟨n, hclosed⟩
  · intro e he
    obtain ⟨hsilent, n, -, hopened⟩ := hrun.threw e he
    exact ⟨hsilent, n, hopened⟩

def readReply : AssistantMessage :=
  { content := [.toolCall "call_1" "read" "notes.md"], stopReason := .toolUse, timestamp := 0 }

/-- A run with one iteration whose reply asks for another one. -/
def exceededRun : LoopState (Script × Trace) × LoopEnd :=
  runAgentLoop (scriptHost 1).traced [userMessage "hi"] []
    (⟨[.ok (streamOf readReply)], [], []⟩, [])

/-- Past the iteration limit a turn ends that was never started. -/
theorem exceededRun_unbalanced :
    exceededRun.2 = .returned ∧ brackets exceededRun.1.host.2 = [.opened, .closed, .closed] ∧
      ∀ n, brackets exceededRun.1.host.2 ≠ closedTurns n := by
  have hbrackets : brackets exceededRun.1.host.2 = [.opened, .closed, .closed] := by decide
  refine ⟨by decide, hbrackets, ?_⟩
  intro n
  rw [hbrackets]
  exact closedTurns_concat_closed_ne 1 n

/-- The turns of a run with one answer are bracketed. -/
theorem plainRun_bracketed :
    (answers plainRun.1.host.2).length ≤ 15 ∧ ∃ n, brackets plainRun.1.host.2 = closedTurns n := by
  have hstart : Started (scriptHost 5).traced [] (_, []) [userMessage "hi"] plainRun :=
    .prompted [userMessage "hi"]
  have hrun := turns_bracketed hstart
  have hnone : waitingAtLimit (scriptHost 5) [userMessage "hi"] []
      ⟨[.ok (streamOf (textReply "hello"))], [], []⟩ = none := by decide
  refine ⟨hrun.1, (hrun.2.2.1 (by decide)).mpr ?_⟩
  rintro ⟨-, hwaiting⟩
  exact hwaiting hnone

end CrabbyKit.AgentCore
