import CrabbyKit.Client.Chat
import CrabbyKit.Core.Run

/-!
# The message list of a client converges

Whenever the assistant messages of the watched session have ended, the list holds what arrived
exactly if nothing was appended while one of them was streaming. An element that comes behind the
placeholder keeps it in the list for good.
-/

namespace CrabbyKit.Client

open List

/-- What a message of the server is to the list. -/
inductive Kind
  | start | update | finish | append | quiet
  deriving DecidableEq, Repr

/-- Assistant messages start, change and finish; three kinds of messages append an element. -/
def Payload.kind : Payload → Kind
  | .agentEvent (.messageStart message) => if message.role = .assistant then .start else .quiet
  | .agentEvent (.messageUpdate _ _) => .update
  | .agentEvent (.messageEnd message) => if message.role = .assistant then .finish else .quiet
  | .toolEvent _ _ (.finish _ _) => .append
  | .commandResult _ _ _ _ => .append
  | .injectMessage _ => .append
  | _ => .quiet

/-- Whether an assistant message is streaming after a message of the server. -/
def Kind.next (streaming : Bool) : Kind → Bool
  | .start => true
  | .finish => false
  | _ => streaming

/-- The order that the agent guarantees: an assistant message starts, is updated and ends before
the next one starts. -/
def bracketed : Bool → List Kind → Bool
  | streaming, [] => !streaming
  | streaming, .start :: rest => !streaming && bracketed true rest
  | streaming, .update :: rest => streaming && bracketed streaming rest
  | streaming, .finish :: rest => streaming && bracketed false rest
  | streaming, _ :: rest => bracketed streaming rest

/-- Nothing is appended while an assistant message is streaming. -/
def undisturbed : Bool → List Kind → Bool
  | _, [] => true
  | streaming, k :: rest => !(streaming && k == .append) && undisturbed (k.next streaming) rest

/-- The element that a message of the server adds to the list for good. -/
def arrival (now : Instant) : Payload → Option StreamableMessage
  | .agentEvent (.messageEnd message) =>
    if message.role = .assistant then some { message := message } else none
  | .toolEvent toolCallId toolName (.finish result isError) =>
    some (toolResultMessage now toolCallId toolName result isError)
  | .commandResult name text data isError =>
    some (commandResultMessage now name text data isError)
  | .injectMessage message => some { message := message }
  | _ => none

/-- The messages for a session, each with the time of its arrival. -/
def watched (sessionId : String) (events : List Event) : List (Instant × Payload) :=
  events.filterMap fun
    | .receive now msg => if msg.sessionId = sessionId then some (now, msg.payload) else none
    | .render => none

def kinds (items : List (Instant × Payload)) : List Kind := items.map fun item => item.2.kind

/-- The elements that have arrived. -/
def arrivals (items : List (Instant × Payload)) : List StreamableMessage :=
  items.filterMap fun item => arrival item.1 item.2

/-- No element is streaming, and behind the earlier elements there is everything that arrived,
each final message and each appended element once. -/
def Converged (earlier : List StreamableMessage) (items : List (Instant × Payload))
    (messages : List StreamableMessage) : Prop :=
  (∀ e ∈ messages, e.streaming = false) ∧
    ∃ added, messages = earlier ++ added ∧ added.Perm (arrivals items)

/-- Actions worked off one after the other, each with some stream reference. -/
inductive Works : List ChatAction → ChatState → ChatState → Prop
  | nil (chat : ChatState) : Works [] chat chat
  | cons (streamMessage : Option AgentMessage) {action : ChatAction} {rest : List ChatAction}
      {chat chat' : ChatState} (h : Works rest (chatReducer streamMessage chat action) chat') :
      Works (action :: rest) chat chat'

namespace Works

theorem append {first second : List ChatAction} {chat mid chat' : ChatState}
    (h : Works first chat mid) (h' : Works second mid chat') :
    Works (first ++ second) chat chat' := by
  induction h with
  | nil => exact h'
  | cons streamMessage _ ih => exact (ih h').cons streamMessage

theorem split {first second : List ChatAction} {chat chat' : ChatState}
    (h : Works (first ++ second) chat chat') :
    ∃ mid, Works first chat mid ∧ Works second mid chat' := by
  induction first generalizing chat with
  | nil => exact ⟨chat, nil chat, h⟩
  | cons action rest ih =>
    cases h with
    | cons streamMessage h =>
      obtain ⟨mid, hfirst, hsecond⟩ := ih h
      exact ⟨mid, hfirst.cons streamMessage, hsecond⟩

theorem foldl (streamMessage : Option AgentMessage) (actions : List ChatAction)
    (chat : ChatState) : Works actions chat (actions.foldl (chatReducer streamMessage) chat) := by
  induction actions generalizing chat with
  | nil => exact nil chat
  | cons action rest ih => exact (ih _).cons streamMessage

theorem run {sessionId : String} (events : List Event) (client : ChatClient)
    (hsession : client.refs.currentSessionId = some sessionId) :
    Works (client.pending ++
        (watched sessionId events).flatMap fun item => dispatched item.1 item.2)
      client.chat (Run.run ChatClient.step client events).render.chat := by
  induction events generalizing client with
  | nil =>
    rw [watched, filterMap_nil, flatMap_nil, append_nil]
    exact foldl _ _ _
  | cons e rest ih =>
    cases e with
    | receive now msg =>
      change Works _ _ (Run.run ChatClient.step (client.handle now msg) rest).render.chat
      by_cases hmsg : msg.sessionId = sessionId
      · have hhandle := ih (client.handle now msg)
        simp only [ChatClient.handle, hsession, hmsg, ne_eq, not_true_eq_false, if_false,
          append_assoc, forall_const] at hhandle ⊢
        simpa only [watched, filterMap_cons, hmsg, if_true, flatMap_cons] using hhandle
      · have hother : client.handle now msg = client :=
          if_pos (by rw [hsession]; exact fun h => hmsg (Option.some.inj h))
        rw [hother]
        simpa only [watched, filterMap_cons, hmsg, if_false] using ih client hsession
    | render =>
      have hrest := ih client.render hsession
      exact (foldl _ client.pending client.chat).append hrest

end Works

theorem modifyLast_concat (f : StreamableMessage → StreamableMessage)
    (messages : List StreamableMessage) (last : StreamableMessage) :
    modifyLast f (messages ++ [last]) = messages ++ [f last] := by
  simp [modifyLast]

theorem dropLast_modifyLast (f : StreamableMessage → StreamableMessage)
    (messages : List StreamableMessage) : (modifyLast f messages).dropLast = messages.dropLast := by
  rcases eq_nil_or_concat messages with rfl | ⟨initial, last, rfl⟩
  · rfl
  · rw [concat_eq_append, modifyLast_concat, dropLast_concat, dropLast_concat]

def Stale (messages : List StreamableMessage) : Prop := ∃ e ∈ messages.dropLast, e.streaming

theorem Stale.concat {messages : List StreamableMessage} (h : Stale messages)
    (e : StreamableMessage) : Stale (messages ++ [e]) := by
  obtain ⟨old, hold, hstreaming⟩ := h
  refine ⟨old, ?_, hstreaming⟩
  rw [dropLast_concat]
  exact (dropLast_sublist messages).mem hold

theorem Stale.modifyLast {messages : List StreamableMessage} (h : Stale messages)
    (f : StreamableMessage → StreamableMessage) : Stale (modifyLast f messages) := by
  rw [Stale, dropLast_modifyLast]
  exact h

theorem Stale.chatReducer {chat : ChatState} (h : Stale chat.messages)
    (streamMessage : Option AgentMessage) (action : ChatAction) :
    Stale (chatReducer streamMessage chat action).messages := by
  cases action with
  | addMessage message => exact h.concat message
  | toolExecutionEnd => exact h.concat _
  | updateStreamingMessage updater thinking =>
    have hupdated : Stale (updater.apply streamMessage chat.messages) := by
      cases updater with
      | takeStream => exact h.modifyLast _
      | finalize finalMessage => exact h.modifyLast _
    cases thinking with
    | none => exact hupdated
    | some update =>
      cases update with
      | start => exact hupdated
      | delta delta => exact hupdated
      | finish =>
        change Stale (attachThinking chat.thinking _)
        cases chat.thinking with
        | none => exact hupdated
        | some text => exact hupdated.modifyLast _
  | _ => exact h

theorem Works.stale {actions : List ChatAction} {chat chat' : ChatState}
    (hw : Works actions chat chat') (h : Stale chat.messages) : Stale chat'.messages := by
  induction hw with
  | nil => exact h
  | cons streamMessage _ ih => exact ih (h.chatReducer streamMessage _)

/-- Where a list stands: behind its settled elements there is the placeholder of the streaming
message, if there is one. -/
def Stands (streaming : Bool) (settled messages : List StreamableMessage) : Prop :=
  if streaming then ∃ placeholder, placeholder.streaming ∧ messages = settled ++ [placeholder]
  else messages = settled

theorem stands_update {settled : List StreamableMessage} {chat : ChatState}
    (h : Stands true settled chat.messages) (streamMessage : Option AgentMessage)
    (thinking : Option ThinkingUpdate) :
    Stands true settled (chatReducer streamMessage chat
      (.updateStreamingMessage .takeStream thinking)).messages := by
  obtain ⟨placeholder, hstreaming, hmessages⟩ := h
  have htaken : ∃ taken : StreamableMessage, taken.streaming ∧
      Updater.apply streamMessage .takeStream chat.messages = settled ++ [taken] := by
    rw [Updater.apply, hmessages, modifyLast_concat]
    refine ⟨_, ?_, rfl⟩
    cases streamMessage with
    | none => exact hstreaming
    | some current =>
      dsimp only
      split
      · rfl
      · exact hstreaming
  obtain ⟨taken, htaken, happly⟩ := htaken
  cases thinking with
  | none => exact ⟨taken, htaken, happly⟩
  | some update =>
    cases update with
    | start => exact ⟨taken, htaken, happly⟩
    | delta delta => exact ⟨taken, htaken, happly⟩
    | finish =>
      simp only [chatReducer, happly]
      cases chat.thinking with
      | none => exact ⟨taken, htaken, rfl⟩
      | some text =>
        rw [attachThinking, modifyLast_concat]
        refine ⟨_, ?_, rfl⟩
        split
        · exact htaken
        · exact htaken

theorem stands_finalize {settled : List StreamableMessage} {chat : ChatState}
    (h : Stands true settled chat.messages) (streamMessage : Option AgentMessage)
    (finalMessage : AgentMessage) :
    (chatReducer streamMessage chat
      (.updateStreamingMessage (.finalize finalMessage) none)).messages =
        settled ++ [{ message := finalMessage }] := by
  obtain ⟨placeholder, hstreaming, hmessages⟩ := h
  simp only [chatReducer, Updater.apply]
  rw [hmessages, modifyLast_concat, if_pos hstreaming]

theorem Works.one {action : ChatAction} {chat chat' : ChatState} (hw : Works [action] chat chat') :
    ∃ streamMessage, chat' = chatReducer streamMessage chat action := by
  cases hw with
  | cons streamMessage h =>
    cases h
    exact ⟨streamMessage, rfl⟩

theorem Works.idle {chat chat' : ChatState} (hw : Works [] chat chat') : chat' = chat := by
  cases hw
  rfl

theorem stands_append {streaming : Bool} {settled messages : List StreamableMessage}
    (h : Stands streaming settled messages) (e : StreamableMessage) :
    (streaming ∧ Stale (messages ++ [e])) ∨
      (¬ streaming ∧ Stands streaming (settled ++ [e]) (messages ++ [e])) := by
  cases streaming with
  | true =>
    obtain ⟨placeholder, hstreaming, rfl⟩ := h
    refine Or.inl ⟨rfl, placeholder, ?_, hstreaming⟩
    rw [dropLast_concat]
    exact mem_append_right _ mem_cons_self
  | false =>
    cases h
    exact Or.inr ⟨Bool.false_ne_true, rfl⟩

theorem Works.payload {now : Instant} {p : Payload} {chat chat' : ChatState}
    (hw : Works (dispatched now p) chat chat') {streaming : Bool}
    {settled : List StreamableMessage} (h : Stands streaming settled chat.messages)
    {rest : List Kind} (hbracketed : bracketed streaming (p.kind :: rest)) :
    (streaming ∧ p.kind = .append ∧ Stale chat'.messages) ∨
      (¬ (streaming ∧ p.kind = .append) ∧
        Stands (p.kind.next streaming) (settled ++ (arrival now p).toList) chat'.messages) := by
  have hquiet : p.kind = .quiet → arrival now p = none → chat'.messages = chat.messages →
      (streaming ∧ p.kind = .append ∧ Stale chat'.messages) ∨
        (¬ (streaming ∧ p.kind = .append) ∧
          Stands (p.kind.next streaming) (settled ++ (arrival now p).toList) chat'.messages) := by
    intro hkind harrival hmessages
    refine Or.inr ⟨fun hand => Kind.noConfusion (hkind.symm.trans hand.2), ?_⟩
    rw [hkind, harrival, hmessages, Option.toList_none, append_nil]
    exact h
  have happend : p.kind = .append → ∀ e, arrival now p = some e →
      chat'.messages = chat.messages ++ [e] →
      (streaming ∧ p.kind = .append ∧ Stale chat'.messages) ∨
        (¬ (streaming ∧ p.kind = .append) ∧
          Stands (p.kind.next streaming) (settled ++ (arrival now p).toList) chat'.messages) := by
    intro hkind e harrival hmessages
    rw [hmessages, harrival, hkind]
    rcases stands_append h e with ⟨hstreaming, hstale⟩ | ⟨hidle, hstands⟩
    · exact Or.inl ⟨hstreaming, rfl, hstale⟩
    · exact Or.inr ⟨fun hand => hidle hand.1, hstands⟩
  cases p with
  | agentEvent event =>
    cases event with
    | agentStart =>
      obtain ⟨_, rfl⟩ := hw.one
      exact hquiet rfl rfl rfl
    | messageStart message =>
      by_cases hrole : message.role = .assistant
      · have hkind : (Payload.agentEvent (.messageStart message)).kind = .start := if_pos hrole
        rw [dispatched, if_pos hrole] at hw
        rw [hkind, bracketed, Bool.and_eq_true, Bool.not_eq_true'] at hbracketed
        obtain ⟨rfl, _⟩ := hbracketed
        cases hw with
        | cons _ hw =>
          obtain ⟨_, rfl⟩ := hw.one
          refine Or.inr ⟨fun hand => Bool.false_ne_true hand.1, ?_⟩
          rw [hkind]
          refine ⟨{ message := message, streaming := true }, rfl, ?_⟩
          change chat.messages ++ _ = settled ++ [] ++ _
          rw [append_nil, h]
      · have hkind : (Payload.agentEvent (.messageStart message)).kind = .quiet := if_neg hrole
        rw [dispatched, if_neg hrole] at hw
        exact hquiet hkind rfl (congrArg ChatState.messages hw.idle)
    | messageUpdate message event =>
      rw [Payload.kind, bracketed, Bool.and_eq_true] at hbracketed
      obtain ⟨rfl, _⟩ := hbracketed
      obtain ⟨streamMessage, rfl⟩ := hw.one
      refine Or.inr ⟨fun hand => Kind.noConfusion hand.2, ?_⟩
      have harrival : arrival now (.agentEvent (.messageUpdate message event)) = none := rfl
      rw [harrival, Option.toList_none, append_nil]
      exact stands_update h streamMessage _
    | messageEnd message =>
      by_cases hrole : message.role = .assistant
      · have hkind : (Payload.agentEvent (.messageEnd message)).kind = .finish := if_pos hrole
        rw [dispatched, if_pos hrole] at hw
        rw [hkind, bracketed, Bool.and_eq_true] at hbracketed
        obtain ⟨rfl, _⟩ := hbracketed
        obtain ⟨streamMessage, rfl⟩ := hw.one
        rw [hkind, arrival, if_pos hrole, stands_finalize h]
        exact Or.inr ⟨fun hand => Kind.noConfusion hand.2, rfl⟩
      · have hkind : (Payload.agentEvent (.messageEnd message)).kind = .quiet := if_neg hrole
        rw [dispatched, if_neg hrole] at hw
        exact hquiet hkind (if_neg hrole) (congrArg ChatState.messages hw.idle)
    | agentEnd =>
      obtain ⟨_, rfl⟩ := hw.one
      exact hquiet rfl rfl rfl
    | other => exact hquiet rfl rfl (congrArg ChatState.messages hw.idle)
  | toolEvent toolCallId toolName event =>
    cases event with
    | start =>
      obtain ⟨_, rfl⟩ := hw.one
      exact hquiet rfl rfl rfl
    | update partialResult =>
      obtain ⟨_, rfl⟩ := hw.one
      exact hquiet rfl rfl rfl
    | finish result isError =>
      obtain ⟨_, rfl⟩ := hw.one
      exact happend rfl _ rfl rfl
  | costEvent cost =>
    obtain ⟨_, rfl⟩ := hw.one
    exact hquiet rfl rfl rfl
  | commandResult name text data isError =>
    obtain ⟨_, rfl⟩ := hw.one
    exact happend rfl _ rfl rfl
  | injectMessage message =>
    obtain ⟨_, rfl⟩ := hw.one
    exact happend rfl _ rfl rfl

theorem bracketed_tail {streaming : Bool} {k : Kind} {rest : List Kind}
    (h : bracketed streaming (k :: rest)) : bracketed (k.next streaming) rest := by
  cases k with
  | start => exact (Bool.and_eq_true_iff.mp h).2
  | update => exact (Bool.and_eq_true_iff.mp h).2
  | finish => exact (Bool.and_eq_true_iff.mp h).2
  | append => exact h
  | quiet => exact h

theorem Works.settled {items : List (Instant × Payload)} {chat chat' : ChatState}
    (hw : Works (items.flatMap fun item => dispatched item.1 item.2) chat chat')
    {streaming : Bool} {settled : List StreamableMessage}
    (h : Stands streaming settled chat.messages) (hbracketed : bracketed streaming (kinds items)) :
    (undisturbed streaming (kinds items) ∧ chat'.messages = settled ++ arrivals items) ∨
      (¬ undisturbed streaming (kinds items) ∧ ∃ e ∈ chat'.messages, e.streaming) := by
  induction items generalizing chat streaming settled with
  | nil =>
    rw [hw.idle]
    cases streaming with
    | true => cases hbracketed
    | false =>
      refine Or.inl ⟨rfl, ?_⟩
      rw [arrivals, filterMap_nil, append_nil]
      exact h
  | cons item rest ih =>
    obtain ⟨mid, hitem, hrest⟩ := hw.split
    rcases hitem.payload h hbracketed with ⟨hstreaming, hkind, hstale⟩ | ⟨hfine, hstands⟩
    · obtain ⟨e, he, hestreaming⟩ := hrest.stale hstale
      refine Or.inr ⟨?_, e, (dropLast_sublist _).mem he, hestreaming⟩
      rw [kinds, map_cons, undisturbed, hstreaming, hkind]
      exact Bool.false_ne_true
    · have hhead : undisturbed streaming (kinds (item :: rest)) =
          undisturbed (item.2.kind.next streaming) (kinds rest) := by
        rw [kinds, map_cons, undisturbed]
        have hcheck : (streaming && item.2.kind == .append) = false := by
          rw [Bool.eq_false_iff, ne_eq, Bool.and_eq_true, beq_iff_eq]
          exact hfine
        rw [hcheck, Bool.not_false, Bool.true_and]
        rfl
      have harrivals : arrivals (item :: rest) =
          (arrival item.1 item.2).toList ++ arrivals rest := by
        rw [arrivals, filterMap_cons]
        cases arrival item.1 item.2 with
        | none => rfl
        | some e => rfl
      rw [hhead, harrivals, ← append_assoc]
      exact ih hrest hstands (bracketed_tail hbracketed)

theorem arrivals_settled {items : List (Instant × Payload)} :
    ∀ e ∈ arrivals items, e.streaming = false := by
  intro e he
  obtain ⟨item, _, hitem⟩ := mem_filterMap.mp he
  revert hitem
  fun_cases arrival item.1 item.2 <;> intro hitem <;> cases hitem <;> rfl

/-- The list of a client converges exactly in the runs in which no message was appended between
the start and the end of an assistant message. -/
theorem converged_iff {client : ChatClient} {sessionId : String}
    (hsession : client.refs.currentSessionId = some sessionId) (hpending : client.pending = [])
    (hclean : ∀ e ∈ client.chat.messages, e.streaming = false) {events : List Event}
    (hbracketed : bracketed false (kinds (watched sessionId events))) :
    Converged client.chat.messages (watched sessionId events)
        (Run.run ChatClient.step client events).render.chat.messages ↔
      undisturbed false (kinds (watched sessionId events)) := by
  have hw := Works.run events client hsession
  rw [hpending, nil_append] at hw
  have hstands : Stands false client.chat.messages client.chat.messages := rfl
  rcases hw.settled hstands hbracketed with ⟨hquiet, hmessages⟩ | ⟨hdisturbed, e, he, hstreaming⟩
  · refine iff_of_true ⟨?_, _, hmessages, Perm.refl _⟩ hquiet
    intro e he
    rw [hmessages] at he
    exact (mem_append.mp he).elim (hclean e) (arrivals_settled e)
  · refine iff_of_false (fun hconverged => ?_) hdisturbed
    rw [hconverged.1 e he] at hstreaming
    cases hstreaming

def emptyClient : ChatClient where
  chat := ⟨[], .idle, none, none, fun _ => none, []⟩
  refs := ⟨some "s", none⟩
  pending := []

def replyAt (timestamp : Instant) (text : String) : AgentMessage :=
  { role := .assistant, content := .plain text, timestamp := timestamp }

/-- A steering message between the start and the end of a reply. -/
def steered : List Event :=
  [.receive 1 ⟨"s", .agentEvent (.messageStart (replyAt 1 ""))⟩,
    .receive 2 ⟨"s", .injectMessage { role := .user, content := .plain "wait", timestamp := 2 }⟩,
    .receive 3 ⟨"s", .agentEvent (.messageUpdate (replyAt 1 "do") .other)⟩, .render,
    .receive 4 ⟨"s", .agentEvent (.messageEnd (replyAt 1 "done"))⟩]

/-- The same messages with the steering message after the reply. -/
def unsteered : List Event :=
  [.receive 1 ⟨"s", .agentEvent (.messageStart (replyAt 1 ""))⟩,
    .receive 3 ⟨"s", .agentEvent (.messageUpdate (replyAt 1 "do") .other)⟩, .render,
    .receive 4 ⟨"s", .agentEvent (.messageEnd (replyAt 1 "done"))⟩,
    .receive 5 ⟨"s", .injectMessage { role := .user, content := .plain "wait", timestamp := 2 }⟩]

theorem unsteered_converged : Converged [] (watched "s" unsteered)
    (Run.run ChatClient.step emptyClient unsteered).render.chat.messages :=
  (@converged_iff emptyClient "s" rfl rfl (fun _ he => absurd he not_mem_nil) unsteered
    (by decide)).mpr (by decide)

/-- The steered reply never gets its place: its placeholder stays in the list. -/
theorem steered_not_converged : bracketed false (kinds (watched "s" steered)) ∧
    ¬ Converged [] (watched "s" steered)
      (Run.run ChatClient.step emptyClient steered).render.chat.messages := by
  refine ⟨by decide, fun h => ?_⟩
  have hplaceholder := h.1 { message := replyAt 1 "", streaming := true } (by decide)
  cases hplaceholder

end CrabbyKit.Client
