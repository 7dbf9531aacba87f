import CrabbyKit.AgentCore.Trace

/-!
# What one turn adds

Every function of the loop appends to the context, to the new messages and to the
trace. Its effect is stated once, in terms of the attempts at a reply and of the turn
they belong to; what holds of whole runs is read off these descriptions.
-/

namespace CrabbyKit.AgentCore

open List

variable {σ τ : Type}

/-- Whether an observation is about whole messages, turns, model calls or suppliers. -/
def Observation.counted : Observation → Bool
  | .event .agentStart => false
  | .event (.messageStart _) => false
  | .event (.messageUpdate _) => false
  | .event (.toolExecutionStart _) => false
  | .event (.toolExecutionEnd _ _ _) => false
  | _ => true

def marks (t : Trace) : Trace := t.filter Observation.counted

def ended (m : AgentMessage) : Observation := .event (.messageEnd m)

structure Adds (s s' : LoopState (σ × Trace)) (context recorded : List AgentMessage)
    (trace : Trace) : Prop where
  messages : s'.messages = s.messages ++ context
  newMessages : s'.newMessages = s.newMessages ++ recorded
  trace : marks s'.host.2 = marks s.host.2 ++ trace

section Primitives

variable {H : LoopHost σ τ} {s s' s'' : LoopState (σ × Trace)}
  {context recorded context' recorded' : List AgentMessage} {trace trace' : Trace}

theorem Adds.refl (s : LoopState (σ × Trace)) : Adds s s [] [] [] := by
  constructor <;> simp

theorem Adds.trans (h : Adds s s' context recorded trace)
    (h' : Adds s' s'' context' recorded' trace') :
    Adds s s'' (context ++ context') (recorded ++ recorded') (trace ++ trace') := by
  constructor
  · rw [h'.messages, h.messages, append_assoc]
  · rw [h'.newMessages, h.newMessages, append_assoc]
  · rw [h'.trace, h.trace, append_assoc]

variable {o : Observation}

theorem marks_concat_counted {t : Trace} (ho : o.counted = true) :
    marks (t ++ [o]) = marks t ++ [o] := by
  simp [marks, ho]

theorem marks_concat_uncounted {t : Trace} (ho : o.counted = false) :
    marks (t ++ [o]) = marks t := by
  simp [marks, ho]

theorem Adds.emit (h : Adds s s' context recorded trace) {e : AgentEvent}
    (he : (Observation.event e).counted = true) :
    Adds s (s'.emit H.traced e) context recorded (trace ++ [.event e]) := by
  refine ⟨h.messages, h.newMessages, ?_⟩
  have hmark := marks_concat_counted (t := s'.host.2) he
  rw [h.trace, append_assoc] at hmark
  exact hmark

theorem Adds.emitUncounted (h : Adds s s' context recorded trace) {e : AgentEvent}
    (he : (Observation.event e).counted = false) :
    Adds s (s'.emit H.traced e) context recorded trace := by
  refine ⟨h.messages, h.newMessages, ?_⟩
  have hmark := marks_concat_uncounted (t := s'.host.2) he
  rw [h.trace] at hmark
  exact hmark

theorem Adds.push (h : Adds s s' context recorded trace) (m : AgentMessage) :
    Adds s (s'.push m) (context ++ [m]) recorded trace := by
  refine ⟨?_, h.newMessages, h.trace⟩
  simp only [LoopState.push, h.messages, append_assoc]

theorem Adds.record (h : Adds s s' context recorded trace) (m : AgentMessage) :
    Adds s (s'.record m) context (recorded ++ [m]) trace := by
  refine ⟨h.messages, ?_, h.trace⟩
  simp only [LoopState.record, h.newMessages, append_assoc]

theorem Adds.replaceLast {m : AgentMessage} (h : Adds s s' (context ++ [m]) recorded trace)
    (m' : AgentMessage) : Adds s (s'.replaceLast m') (context ++ [m']) recorded trace := by
  refine ⟨?_, h.newMessages, h.trace⟩
  simp only [LoopState.replaceLast, h.messages, ← append_assoc, dropLast_concat]

theorem Adds.withHost (h : Adds s s' context recorded trace) (host : σ) :
    Adds s { s' with host := (host, s'.host.2) } context recorded trace :=
  ⟨h.messages, h.newMessages, h.trace⟩

theorem Adds.note (h : Adds s s' context recorded trace) (host : σ) (ho : o.counted = true) :
    Adds s { s' with host := (host, s'.host.2 ++ [o]) } context recorded (trace ++ [o]) := by
  refine ⟨h.messages, h.newMessages, ?_⟩
  simp only [marks_concat_counted ho, h.trace, append_assoc]

end Primitives

/-- The partial replies that a stream leaves in the context: `current` is the one that
the next event overwrites, and a further start gives it up. -/
def leftBehind : Option AssistantMessage → List StreamEvent → List AgentMessage
  | _, [] => []
  | current, .start reply :: rest =>
    (current.map AssistantMessage.toAgentMessage).toList ++ leftBehind (some reply) rest
  | current, .update reply :: rest => leftBehind (current.map fun _ => reply) rest
  | _, .finish :: _ => []

def Response.leftovers (r : Response) : List AgentMessage := leftBehind none r.events

def starts : List StreamEvent → Nat
  | [] => 0
  | .start _ :: rest => starts rest + 1
  | .update _ :: rest => starts rest
  | .finish :: _ => 0

theorem leftBehind_length (current : Option AssistantMessage) (events : List StreamEvent) :
    (leftBehind current events).length = starts events - (if current.isSome then 0 else 1) := by
  induction events generalizing current with
  | nil => simp [leftBehind, starts]
  | cons event rest ih =>
    cases event with
    | start reply =>
      have hrest := ih (some reply)
      cases current with
      | none => simpa [leftBehind, starts] using hrest
      | some q => simp [leftBehind, starts, hrest]
    | update reply =>
      have hrest := ih (current.map fun _ => reply)
      simpa [leftBehind, starts] using hrest
    | finish => simp [leftBehind, starts]

theorem Response.leftovers_eq_nil_iff (r : Response) : r.leftovers = [] ↔ starts r.events ≤ 1 := by
  have hlength := leftBehind_length none r.events
  simp only [Option.isSome_none, Bool.false_eq_true, if_false] at hlength
  rw [← length_eq_zero_iff, Response.leftovers, hlength]
  omega

/-- A model call that was answered with a reply, failed or not. -/
structure Attempt where
  context : List AgentMessage
  response : Response
  reply : AssistantMessage
  result : response.result = .ok reply

def Attempt.marks (a : Attempt) : Trace :=
  [.context a.context, .answer (.ok a.response), ended a.reply.toAgentMessage]

/-- How consuming a stream ends: it throws, or its final message is in the context. -/
inductive Consumed (s₀ : LoopState (σ × Trace)) (result : Except String AssistantMessage)
    (left : List AgentMessage) : LoopState (σ × Trace) × Except String AssistantMessage → Prop
  | threw {s : LoopState (σ × Trace)} {e : String} (context : List AgentMessage)
      (h : Adds s₀ s context [] []) : Consumed s₀ result left (s, .error e)
  | replied {s : LoopState (σ × Trace)} {m : AssistantMessage} (hresult : result = .ok m)
      (h : Adds s₀ s (left ++ [m.toAgentMessage]) [] [ended m.toAgentMessage]) :
      Consumed s₀ result left (s, .ok m)

/-- How a model call ends. -/
inductive Streamed (s₀ : LoopState (σ × Trace)) :
    LoopState (σ × Trace) × Except String AssistantMessage → Prop
  | threw {s : LoopState (σ × Trace)} {e : String} (context : List AgentMessage)
      (answer : Except String Response)
      (h : Adds s₀ s context [] [.context s₀.messages, .answer answer]) : Streamed s₀ (s, .error e)
  | replied {s : LoopState (σ × Trace)} (a : Attempt) (hcontext : a.context = s₀.messages)
      (h : Adds s₀ s (a.response.leftovers ++ [a.reply.toAgentMessage]) [] a.marks) :
      Streamed s₀ (s, .ok a.reply)

def nextContext : Trace → Option (List AgentMessage)
  | [] => none
  | .context messages :: _ => some messages
  | _ :: rest => nextContext rest

def attemptMarks (attempts : List Attempt) : Trace := attempts.flatMap Attempt.marks

/-- What some attempts leave behind. -/
def attemptLeftovers (attempts : List Attempt) : List AgentMessage :=
  attempts.flatMap fun a => a.response.leftovers

/-- How a model call with its retries ends: after some transient failures it throws, or a
last attempt counts. -/
inductive Answered (limit : Nat) (s₀ : LoopState (σ × Trace)) :
    LoopState (σ × Trace) × Except String AssistantMessage → Prop
  | threw {s : LoopState (σ × Trace)} {e : String} (failed : List Attempt)
      (context seen : List AgentMessage) (answer : Except String Response)
      (hretries : failed.length ≤ limit) (htransient : ∀ a ∈ failed, a.reply.transient = true)
      (hsees : nextContext (attemptMarks failed ++ [.context seen]) = some s₀.messages)
      (h : Adds s₀ s context [] (attemptMarks failed ++ [.context seen, .answer answer])) :
      Answered limit s₀ (s, .error e)
  | replied {s : LoopState (σ × Trace)} (failed : List Attempt) (last : Attempt)
      (hretries : failed.length ≤ limit) (htransient : ∀ a ∈ failed, a.reply.transient = true)
      (hsees : nextContext (attemptMarks (failed ++ [last])) = some s₀.messages)
      (h : Adds s₀ s (attemptLeftovers (failed ++ [last]) ++ [last.reply.toAgentMessage]) []
        (attemptMarks (failed ++ [last]))) :
      Answered limit s₀ (s, .ok last.reply)

section Streams

variable {H : LoopHost σ τ} {s s₀ : LoopState (σ × Trace)}

theorem finishStream_consumed {result : Except String AssistantMessage}
    (current : Option AssistantMessage)
    (h : Adds s₀ s (current.map AssistantMessage.toAgentMessage).toList [] []) :
    Consumed s₀ result [] (finishStream H.traced result current.isSome s) := by
  cases result with
  | error e => exact .threw _ h
  | ok final =>
    cases current with
    | none =>
      have hpush := (h.push final.toAgentMessage).emitUncounted (H := H)
        (e := .messageStart final.toAgentMessage) rfl
      exact .replied rfl (hpush.emit rfl)
    | some q =>
      have hlast : Adds s₀ s ([] ++ [q.toAgentMessage]) [] [] := h
      exact .replied rfl ((hlast.replaceLast final.toAgentMessage).emit rfl)

theorem consumeStream_consumed {response : Response} {events : List StreamEvent}
    (current : Option AssistantMessage)
    (h : Adds s₀ s (current.map AssistantMessage.toAgentMessage).toList [] []) :
    Consumed s₀ response.result (leftBehind current events)
      (consumeStream H.traced response events current.isSome s) := by
  induction events generalizing current s s₀ with
  | nil =>
    simp only [consumeStream]
    cases response.interrupted with
    | none => exact finishStream_consumed current h
    | some e => exact .threw _ h
  | cons event rest ih =>
    cases event with
    | start reply =>
      have hstart := ((Adds.refl s).push reply.toAgentMessage).emitUncounted (H := H)
        (e := .messageStart reply.toAgentMessage) rfl
      have hrest : Consumed s response.result (leftBehind (some reply) rest)
          (consumeStream H.traced response (.start reply :: rest) current.isSome s) :=
        ih (some reply) hstart
      generalize consumeStream H.traced response (.start reply :: rest) current.isSome s =
        outcome at hrest ⊢
      cases hrest with
      | threw context h' => exact .threw _ (h.trans h')
      | replied hresult h' =>
        refine .replied hresult ?_
        have hall := h.trans h'
        rwa [← append_assoc] at hall
    | update reply =>
      cases current with
      | none => exact ih none h
      | some q =>
        have hlast : Adds s₀ s ([] ++ [q.toAgentMessage]) [] [] := h
        have hreplace := (hlast.replaceLast reply.toAgentMessage).emitUncounted
          (H := H) (e := .messageUpdate reply.toAgentMessage) rfl
        exact ih (some reply) hreplace
    | finish => exact finishStream_consumed current h

theorem streamAssistantResponse_streamed (H : LoopHost σ τ) (s : LoopState (σ × Trace)) :
    Streamed s (streamAssistantResponse H.traced s) := by
  simp only [streamAssistantResponse, traced_transformContext, traced_convertToLlm, traced_streamFn]
  generalize H.transformContext s.messages s.host.1 = transformed
  generalize H.streamFn (H.convertToLlm transformed.1) transformed.2 = answered
  obtain ⟨answer, host⟩ := answered
  have hcall : Adds s
      { s with host := (host, s.host.2 ++ [.context s.messages] ++ [.answer answer]) } [] []
      [.context s.messages, .answer answer] :=
    ((Adds.refl s).note transformed.2 (o := .context s.messages) rfl).note host
      (o := .answer answer) rfl
  simp only
  generalize LoopState.mk s.messages s.newMessages
    (host, s.host.2 ++ [.context s.messages] ++ [.answer answer]) = s₁ at hcall ⊢
  cases answer with
  | error e => exact .threw _ _ hcall
  | ok response =>
    have hstream : Consumed s₁ response.result (leftBehind none response.events)
        (consumeStream H.traced response response.events (none : Option AssistantMessage).isSome
          s₁) :=
      consumeStream_consumed none (Adds.refl s₁)
    simp only [Option.isSome_none] at hstream ⊢
    generalize consumeStream H.traced response response.events false s₁ = outcome at hstream ⊢
    cases hstream with
    | threw context h => exact .threw _ _ (hcall.trans h)
    | replied hresult h => exact .replied ⟨s.messages, response, _, hresult⟩ rfl (hcall.trans h)

theorem Adds.popFailed {context recorded : List AgentMessage} {trace : Trace}
    {m : AssistantMessage} (h : Adds s₀ s (context ++ [m.toAgentMessage]) recorded trace) :
    Adds s₀ (popFailed m s) context recorded trace := by
  have hlast : s.messages.getLast? = some m.toAgentMessage := by
    rw [h.messages, ← append_assoc, getLast?_concat]
  simp only [AgentCore.popFailed, hlast, if_true]
  refine ⟨?_, h.newMessages, h.trace⟩
  simp only [h.messages, ← append_assoc, dropLast_concat]

theorem nextContext_append {t : Trace} (t' : Trace) {messages : List AgentMessage}
    (h : nextContext t = some messages) : nextContext (t ++ t') = some messages := by
  induction t with
  | nil => cases h
  | cons o rest ih =>
    cases o with
    | context seen => exact h
    | event e => exact ih h
    | answer answer => exact ih h
    | supplied batch => exact ih h

@[simp] theorem attemptMarks_concat (attempts : List Attempt) (a : Attempt) :
    attemptMarks (attempts ++ [a]) = attemptMarks attempts ++ a.marks := by
  simp [attemptMarks]

@[simp] theorem attemptLeftovers_concat (attempts : List Attempt) (a : Attempt) :
    attemptLeftovers (attempts ++ [a]) = attemptLeftovers attempts ++ a.response.leftovers := by
  simp [attemptLeftovers]

theorem retryStream_answered {left attempt limit : Nat} (failed : List Attempt) (last : Attempt)
    (hleft : failed.length + left ≤ limit) (hlast : last.reply.transient = true)
    (htransient : ∀ a ∈ failed, a.reply.transient = true)
    (hsees : nextContext (attemptMarks (failed ++ [last])) = some s₀.messages)
    (h : Adds s₀ s (attemptLeftovers (failed ++ [last]) ++ [last.reply.toAgentMessage]) []
      (attemptMarks (failed ++ [last]))) :
    Answered limit s₀ (retryStream H.traced left attempt last.reply s) := by
  induction left generalizing attempt failed last s with
  | zero => exact .replied failed last hleft htransient hsees h
  | succ left ih =>
    have hroom : failed.length ≤ limit := by omega
    have hslept := h.withHost (H.sleep (H.baseRetryDelayMs * 2 ^ attempt) s.host.1)
    have hagain := hslept.popFailed
    have hfailed : ∀ a ∈ failed ++ [last], a.reply.transient = true := by
      intro a ha
      rcases mem_append.mp ha with hin | hin
      · exact htransient a hin
      · rw [mem_singleton.mp hin]
        exact hlast
    have hlength : (failed ++ [last]).length + left ≤ limit := by
      simp only [length_append, length_singleton]
      omega
    simp only [retryStream, traced_aborted, traced_sleep, traced_baseRetryDelayMs]
    by_cases hbefore : H.aborted s.host.1
    · simp only [hbefore, if_true]
      exact .replied failed last hroom htransient hsees h
    by_cases hafter : H.aborted (H.sleep (H.baseRetryDelayMs * 2 ^ attempt) s.host.1)
    · simp only [hbefore, hafter, if_true]
      exact .replied failed last hroom htransient hsees hslept
    simp only [hbefore, hafter, Bool.false_eq_true, if_false]
    have hstream := streamAssistantResponse_streamed H (popFailed last.reply
      { s with host := (H.sleep (H.baseRetryDelayMs * 2 ^ attempt) s.host.1, s.host.2) })
    generalize streamAssistantResponse H.traced _ = outcome at hstream ⊢
    cases hstream with
    | threw context answer hthrew =>
      exact .threw (failed ++ [last]) _ _ answer (by omega) hfailed (nextContext_append _ hsees)
        (hagain.trans hthrew)
    | replied a hcontext hreplied =>
      have hsees' : nextContext (attemptMarks ((failed ++ [last]) ++ [a])) = some s₀.messages := by
        rw [attemptMarks_concat]
        exact nextContext_append _ hsees
      have hall := hagain.trans hreplied
      rw [← append_assoc, ← attemptLeftovers_concat, ← attemptMarks_concat] at hall
      simp only
      split_ifs with hmore
      · exact ih (failed ++ [last]) a hlength hmore hfailed hsees' hall
      · exact .replied (failed ++ [last]) a (by omega) hfailed hsees' hall

theorem streamWithRetry_answered (H : LoopHost σ τ) (s : LoopState (σ × Trace)) :
    Answered H.maxStreamRetries s (streamWithRetry H.traced s) := by
  have hstream := streamAssistantResponse_streamed H s
  have hnone : ∀ a ∈ ([] : List Attempt), a.reply.transient = true := by simp
  simp only [streamWithRetry, traced_maxStreamRetries]
  generalize streamAssistantResponse H.traced s = outcome at hstream ⊢
  cases hstream with
  | threw context answer h =>
    exact .threw [] context s.messages answer (Nat.zero_le _) hnone rfl h
  | @replied s' a hcontext h =>
    have hsees : nextContext (attemptMarks ([] ++ [a])) = some s.messages := by
      rw [← hcontext]
      rfl
    have hfirst : Adds s s' (attemptLeftovers ([] ++ [a]) ++ [a.reply.toAgentMessage]) []
        (attemptMarks ([] ++ [a])) := by
      rw [attemptLeftovers_concat, attemptMarks_concat]
      exact h
    simp only
    split_ifs with hmore
    · exact retryStream_answered [] a (by simp) hmore hnone hsees hfirst
    · exact .replied [] a (Nat.zero_le _) hnone hsees hfirst

end Streams

end CrabbyKit.AgentCore
