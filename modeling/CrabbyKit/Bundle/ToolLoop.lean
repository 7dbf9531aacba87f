import CrabbyKit.Bundle.StreamFormats
import CrabbyKit.Bundle.Turn
import CrabbyKit.Core.Answers

/-!
# The tool loop of a bundle turn

Every reply asks for the ids of its calls and the tool messages behind it answer them, in the
conversation and in the entries of the session alike. They pair up as long as the calls of a reply
carry ids of their own.
-/

namespace CrabbyKit.Bundle

open List

def askedIn (m : MinimalMessage) : List (Entry String) :=
  match m.role with
  | .assistant => [.ask (m.toolCalls.map WireToolCall.id)]
  | .tool => [.answer (m.toolCallId.getD "")]
  | .system => []
  | .user => []

/-- The asks and answers of a request. -/
def conversationLog (messages : List MinimalMessage) : List (Entry String) :=
  messages.flatMap askedIn

def blockCallId : ContentBlock → Option String
  | .toolCall id _ _ => some id
  | _ => none

def callIds : Content → List String
  | .plain _ => []
  | .blocks blocks => blocks.filterMap blockCallId

def askedBy : EntryData → List (Entry String)
  | .message d => match d.role with
    | .assistant => [.ask (callIds d.content)]
    | .toolResult => [.answer (d.toolCallId.getD "")]
    | .user => []
  | _ => []

def entryLog (entries : List EntryData) : List (Entry String) := entries.flatMap askedBy

/-- In every request each call is answered by exactly one tool message before the next assistant
message, the persisted calls and results pair up, and the requests are bounded. -/
structure PairsUp (state : TurnState) : Prop where
  requests : ∀ request ∈ state.requests, ∀ asked ∈ sections (conversationLog request),
    ∀ id ∈ asked.1, asked.2.count id = 1
  entries : Paired (entryLog state.entries)
  bounded : state.requests.length ≤ maxInferenceIterationsPerTurn

/-- The calls of a reply carry ids of their own, and a reply with calls asks for their use. -/
structure Clean (toolCalls : List ParsedToolCall) (stopReason : StopReason) : Prop where
  distinct : (toolCalls.map ParsedToolCall.id).Nodup
  nonempty : "" ∉ toolCalls.map ParsedToolCall.id
  toolUse : toolCalls ≠ [] → stopReason = .toolUse

namespace TurnEnv

variable (env : TurnEnv) (rejected : Nat → Option String)

/-- The hooks and the bridge hand on the messages, but may reject an iteration. -/
def Identity : Prop :=
  ∀ iter messages, env.bridgedMessages iter messages = (rejected iter).elim (.ok messages) .error

/-- The reply of an iteration, unless it fails. -/
def reply (iter : Nat) : Option (List ParsedToolCall × StopReason) :=
  match rejected iter, env.inferStream iter with
  | none, .ok (payloads, broken) => (env.completion payloads broken).toOption
  | _, _ => none

/-- A reply is clean and, if the turn goes on behind it, so are the further ones. -/
def RepliesClean : Nat → Nat → Prop
  | 0, _ => True
  | left + 1, iter => ∀ toolCalls stopReason,
    env.reply rejected iter = some (toolCalls, stopReason) → Clean toolCalls stopReason ∧
      (stopReason = .toolUse → toolCalls ≠ [] → RepliesClean left (iter + 1))

/-- Nothing but the asks, the answers and the requests of a state. -/
structure Logs (state : TurnState) (asked persisted : List (Entry String))
    (requests : List (List MinimalMessage)) : Prop where
  conversation : conversationLog state.conversation = asked
  entries : entryLog state.entries = persisted
  requests : state.requests = requests

variable {env rejected} {state : TurnState} {asked persisted : List (Entry String)}
  {requests : List (List MinimalMessage)}

theorem Logs.safeBroadcast (h : Logs state asked persisted requests) (events : List TurnEvent) :
    Logs (state.safeBroadcast events) asked persisted requests :=
  ⟨h.conversation, h.entries, h.requests⟩

theorem Logs.record (h : Logs state asked persisted requests) {data : EntryData}
    {message : MinimalMessage} {more : List (Entry String)} (hdata : askedBy data = more)
    (hmessage : askedIn message = more) :
    Logs ((state.appendEntry data).push message) (asked ++ more) (persisted ++ more) requests where
  conversation := by
    rw [← h.conversation, ← hmessage]
    exact flatMap_append.trans (congrArg _ (flatMap_singleton askedIn message))
  entries := by
    rw [← h.entries, ← hdata]
    exact flatMap_append.trans (congrArg _ (flatMap_singleton askedBy data))
  requests := h.requests

theorem Logs.runToolCall (h : Logs state asked persisted requests) (iter k : Nat)
    (tc : ParsedToolCall) :
    Logs (env.runToolCall iter k tc state) (asked ++ [.answer (toolCallId iter tc)])
      (persisted ++ [.answer (toolCallId iter tc)]) requests :=
  ((h.safeBroadcast _).safeBroadcast _).record rfl rfl

theorem Logs.runToolCalls (h : Logs state asked persisted requests) (iter k : Nat)
    (toolCalls : List ParsedToolCall) :
    Logs (env.runToolCalls iter k toolCalls state)
      (asked ++ (toolCalls.map (toolCallId iter)).map .answer)
      (persisted ++ (toolCalls.map (toolCallId iter)).map .answer) requests := by
  induction toolCalls generalizing k state asked persisted with
  | nil =>
    rw [map_nil, map_nil, append_nil, append_nil]
    exact h
  | cons tc rest ih =>
    have hone : Logs (env.runToolCall iter k tc state) _ _ requests := h.runToolCall iter k tc
    have hrest := ih hone (k + 1)
    rw [append_assoc, append_assoc, singleton_append] at hrest
    exact hrest

theorem Logs.finishReply (h : Logs state asked persisted requests) (iter : Nat)
    (textBuffer : String) (toolCalls : List ParsedToolCall) (stopReason : StopReason) :
    Logs (env.finishReply iter textBuffer toolCalls stopReason state)
      (asked ++ [.ask (toolCalls.map ParsedToolCall.id)])
      (persisted ++ [.ask (toolCalls.map ParsedToolCall.id)]) requests := by
  have hstate : ∀ finals, Logs { state with finalAssistantMessages := finals } asked persisted
      requests := fun finals => ⟨h.conversation, h.entries, h.requests⟩
  refine ((hstate _).safeBroadcast _).record ?_ ?_
  · have htext : (textBlocks textBuffer).filterMap blockCallId = [] := by
      unfold textBlocks
      split
      next => rfl
      next => rfl
    simp only [askedBy, callIds, filterMap_append, htext, nil_append, filterMap_map]
    exact congrArg (fun ids => [Entry.ask ids]) (congrFun filterMap_eq_map' toolCalls)
  · simp only [askedIn, map_map]
    rfl

theorem Logs.infer_error (h : Logs state asked persisted requests) (hid : env.Identity rejected)
    {iter : Nat} (hreply : env.reply rejected iter = none) :
    ∃ message requests', (env.infer iter state).2 = .error message ∧
      (requests' = requests ∨ requests' = requests ++ [state.conversation]) ∧
        Logs (env.infer iter state).1 asked persisted requests' := by
  have hbridged := hid iter state.conversation
  unfold infer
  rw [hbridged]
  cases hrejected : rejected iter with
  | some message => exact ⟨message, requests, rfl, Or.inl rfl, h⟩
  | none =>
    have hsent := congrArg (· ++ [state.conversation]) h.requests
    simp only [Option.elim_none]
    cases hstream : env.inferStream iter with
    | error message => exact ⟨message, _, rfl, Or.inr rfl, h.conversation, h.entries, hsent⟩
    | ok stream =>
      simp only [reply, hrejected, hstream] at hreply
      cases hcompletion : env.completion stream.1 stream.2 with
      | error message =>
        simp only [hcompletion]
        exact ⟨message, _, rfl, Or.inr rfl, h.conversation, h.entries, hsent⟩
      | ok completed =>
        rw [hcompletion] at hreply
        cases hreply

variable {toolCalls : List ParsedToolCall} {stopReason : StopReason}

theorem Logs.infer_ok (h : Logs state asked persisted requests) (hid : env.Identity rejected)
    {iter : Nat} (hreply : env.reply rejected iter = some (toolCalls, stopReason)) :
    (env.infer iter state).2 = .ok (toolCalls, stopReason) ∧
      Logs (env.infer iter state).1 (asked ++ [.ask (toolCalls.map ParsedToolCall.id)])
        (persisted ++ [.ask (toolCalls.map ParsedToolCall.id)])
        (requests ++ [state.conversation]) := by
  have hbridged := hid iter state.conversation
  unfold infer
  rw [hbridged]
  unfold reply at hreply
  split at hreply
  next payloads broken hrejected hstream =>
    rw [hrejected, hstream]
    simp only [Option.elim_none]
    cases hcompletion : env.completion payloads broken with
    | error message =>
      rw [hcompletion] at hreply
      cases hreply
    | ok completed =>
      rw [hcompletion] at hreply
      obtain rfl : completed = (toolCalls, stopReason) := Option.some.inj hreply
      refine ⟨rfl, Logs.finishReply ?_ iter _ toolCalls stopReason⟩
      exact ⟨h.conversation, h.entries, h.requests ▸ rfl⟩
  next => cases hreply

theorem toolCallId_ne (iter : Nat) (tc : ParsedToolCall) : toolCallId iter tc ≠ "" := by
  unfold toolCallId
  split
  next h => exact h
  next =>
    intro h
    have hlength := congrArg String.length h
    simp at hlength

theorem answered_toolCalls (iter : Nat) (toolCalls : List ParsedToolCall) :
    Answered (toolCalls.map ParsedToolCall.id) (toolCalls.map (toolCallId iter)) ↔
      (toolCalls.map ParsedToolCall.id).Nodup ∧ "" ∉ toolCalls.map ParsedToolCall.id := by
  have hsame : "" ∉ toolCalls.map ParsedToolCall.id →
      toolCalls.map (toolCallId iter) = toolCalls.map ParsedToolCall.id := by
    intro hnonempty
    refine map_congr_left fun tc htc => if_pos fun hempty => hnonempty ?_
    exact hempty ▸ mem_map_of_mem htc
  constructor
  · intro h
    have hnonempty : "" ∉ toolCalls.map ParsedToolCall.id := by
      intro hempty
      have hone : List.count "" (toolCalls.map (toolCallId iter)) = 1 := h.1 "" hempty
      have hmem : "" ∈ toolCalls.map (toolCallId iter) := by
        apply count_pos_iff.mp
        omega
      obtain ⟨tc, _, htc⟩ := mem_map.mp hmem
      exact toolCallId_ne iter tc htc
    rw [hsame hnonempty] at h
    exact ⟨nodup_iff_count_eq_one.mpr h.1, hnonempty⟩
  · rintro ⟨hnodup, hnonempty⟩
    rw [hsame hnonempty]
    exact ⟨nodup_iff_count_eq_one.mp hnodup, fun key hkey => hkey⟩

theorem answered_none (keys : List String) : Answered keys [] ↔ keys = [] := by
  constructor
  · intro h
    refine eq_nil_iff_forall_not_mem.mpr fun key hkey => ?_
    have hone := h.1 key hkey
    simp at hone
  · rintro rfl
    exact (answered_nil []).mpr rfl

theorem paired_last (hlast : stopReason ≠ .toolUse ∨ toolCalls = []) :
    Paired (persisted ++ [.ask (toolCalls.map ParsedToolCall.id)]) ↔
      Paired persisted ∧ Clean toolCalls stopReason := by
  have hclean : toolCalls = [] ↔ Clean toolCalls stopReason := by
    constructor
    · rintro rfl
      exact ⟨nodup_nil, not_mem_nil, fun h => absurd rfl h⟩
    · intro h
      by_contra hcalls
      exact hlast.elim (fun hstop => hstop (h.toolUse hcalls)) hcalls
  have hpaired := paired_append_ask persisted (toolCalls.map ParsedToolCall.id) []
  rw [map_nil, answered_none, map_eq_nil_iff, hclean] at hpaired
  exact hpaired

theorem paired_toolCalls (hmore : ¬(stopReason ≠ .toolUse ∨ toolCalls = [])) (iter : Nat) :
    Paired (persisted ++ [.ask (toolCalls.map ParsedToolCall.id)] ++
        (toolCalls.map (toolCallId iter)).map .answer) ↔
      Paired persisted ∧ Clean toolCalls stopReason := by
  have hclean : (toolCalls.map ParsedToolCall.id).Nodup ∧
      "" ∉ toolCalls.map ParsedToolCall.id ↔ Clean toolCalls stopReason := by
    constructor
    · rintro ⟨hdistinct, hnonempty⟩
      exact ⟨hdistinct, hnonempty, fun _ => by_contra fun hstop => hmore (Or.inl hstop)⟩
    · exact fun h => ⟨h.distinct, h.nonempty⟩
  rw [append_assoc, singleton_append, paired_append_ask, answered_toolCalls, hclean]

theorem forall_reply {P : List ParsedToolCall → StopReason → Prop} :
    (∀ tcs reason, some (toolCalls, stopReason) = some (tcs, reason) →
      P tcs reason) ↔ P toolCalls stopReason := by
  constructor
  · exact fun h => h _ _ rfl
  · intro h tcs reason heq
    cases heq
    exact h

theorem iterations_paired (hid : env.Identity rejected) (left iter : Nat)
    (h : Logs state asked persisted requests) :
    Paired (entryLog (env.iterations left iter state).1.entries) ↔
      Paired persisted ∧ env.RepliesClean rejected left iter := by
  induction left generalizing iter state asked persisted requests with
  | zero => rw [iterations, h.entries, RepliesClean, and_true]
  | succ left ih =>
    rw [iterations, RepliesClean]
    cases hreply : env.reply rejected iter with
    | none =>
      obtain ⟨message, requests', herror, _, hlogs⟩ := h.infer_error hid hreply
      have hpair : env.infer iter state = ((env.infer iter state).1, .error message) :=
        Prod.ext rfl herror
      rw [hpair]
      simp only [hlogs.entries, reduceCtorEq, false_implies, implies_true, and_true]
    | some completed =>
      obtain ⟨toolCalls, stopReason⟩ := completed
      obtain ⟨hok, hlogs⟩ := h.infer_ok hid hreply
      have hpair : env.infer iter state = ((env.infer iter state).1, .ok (toolCalls, stopReason)) :=
        Prod.ext rfl hok
      rw [hpair, forall_reply]
      dsimp only
      by_cases hlast : stopReason ≠ .toolUse ∨ toolCalls = []
      · have hnone : (stopReason = .toolUse → toolCalls ≠ [] →
            env.RepliesClean rejected left (iter + 1)) ↔ True :=
          iff_true_intro fun hstop hcalls => absurd hlast (by simp [hstop, hcalls])
        rw [if_pos hlast, (hlogs.safeBroadcast _).entries, paired_last hlast, hnone, and_true]
      · obtain ⟨hstop, hcalls⟩ := not_or.mp hlast
        have hsome : (stopReason = .toolUse → toolCalls ≠ [] →
            env.RepliesClean rejected left (iter + 1)) ↔
              env.RepliesClean rejected left (iter + 1) :=
          ⟨fun h => h (not_not.mp hstop) hcalls, fun h _ _ => h⟩
        rw [if_neg hlast, ih (iter + 1) (hlogs.runToolCalls iter 0 toolCalls),
          paired_toolCalls hlast, hsome, and_assoc]

theorem iterations_requests (hid : env.Identity rejected) (left iter : Nat)
    (h : Logs state asked persisted requests) (hasked : Paired asked)
    (hrequests : ∀ request ∈ requests, Paired (conversationLog request))
    (hclean : env.RepliesClean rejected left iter) :
    ∀ request ∈ (env.iterations left iter state).1.requests, Paired (conversationLog request) := by
  induction left generalizing iter state asked persisted requests with
  | zero =>
    rw [iterations, h.requests]
    exact hrequests
  | succ left ih =>
    rw [iterations]
    rw [RepliesClean] at hclean
    have hsent : ∀ request ∈ requests ++ [state.conversation],
        Paired (conversationLog request) := by
      intro request hrequest
      rcases mem_append.mp hrequest with hold | hnew
      · exact hrequests request hold
      · rw [mem_singleton.mp hnew, h.conversation]
        exact hasked
    cases hreply : env.reply rejected iter with
    | none =>
      obtain ⟨message, requests', herror, hrequests', hlogs⟩ := h.infer_error hid hreply
      have hpair : env.infer iter state = ((env.infer iter state).1, .error message) :=
        Prod.ext rfl herror
      rw [hpair]
      dsimp only
      rw [hlogs.requests]
      rcases hrequests' with rfl | rfl
      · exact hrequests
      · exact hsent
    | some completed =>
      obtain ⟨toolCalls, stopReason⟩ := completed
      obtain ⟨hok, hlogs⟩ := h.infer_ok hid hreply
      have hpair : env.infer iter state = ((env.infer iter state).1, .ok (toolCalls, stopReason)) :=
        Prod.ext rfl hok
      obtain ⟨hone, hrest⟩ := hclean toolCalls stopReason hreply
      rw [hpair]
      dsimp only
      by_cases hlast : stopReason ≠ .toolUse ∨ toolCalls = []
      · rw [if_pos hlast, (hlogs.safeBroadcast _).requests]
        exact hsent
      · obtain ⟨hstop, hcalls⟩ := not_or.mp hlast
        rw [if_neg hlast]
        exact ih (iter + 1) (hlogs.runToolCalls iter 0 toolCalls)
          ((paired_toolCalls hlast iter).mpr ⟨hasked, hone⟩) hsent
          (hrest (not_not.mp hstop) hcalls)

end TurnEnv

theorem paired_of_noCalls {log : List (Entry String)} (h : ∀ entry ∈ log, entry = .ask []) :
    Paired log := by
  have hall : ∀ s ∈ sectionsFrom [] [] log, s = ([], []) := by
    induction log with
    | nil => exact fun s hs => mem_singleton.mp hs
    | cons entry rest ih =>
      have hrest := ih fun e he => h e (mem_cons_of_mem entry he)
      rw [h entry mem_cons_self, sectionsFrom]
      exact forall_mem_cons.mpr ⟨rfl, hrest⟩
  intro s hs
  rw [hall s hs]
  exact (answered_nil []).mpr rfl

theorem TurnEnv.paired_conversation (env : TurnEnv) (prompt : String) :
    Paired (conversationLog (env.conversation prompt)) := by
  have hplain : ∀ m ∈ env.conversation prompt, m.role ≠ .tool ∧ m.toolCalls = [] := by
    intro m hm
    rcases mem_append.mp hm with hm | hm
    · rcases mem_append.mp hm with hm | hm
      · split at hm
        next => rw [mem_singleton.mp hm]; exact ⟨MessageRole.noConfusion, rfl⟩
        next => cases hm
      · split at hm
        next raw _ =>
          obtain ⟨entry, _, hentry⟩ := mem_filterMap.mp hm
          obtain ⟨role, hrole, hmessage⟩ := Option.bind_eq_some_iff.mp hentry
          split at hmessage
          next => cases hmessage
          next =>
            obtain rfl := Option.some.inj hmessage
            refine ⟨?_, rfl⟩
            rintro rfl
            cases hentryRole : entry.role with
            | _ => rw [hentryRole] at hrole; cases hrole
        next => cases hm
    · rw [mem_singleton.mp hm]
      exact ⟨MessageRole.noConfusion, rfl⟩
  refine paired_of_noCalls fun entry hentry => ?_
  obtain ⟨m, hm, hin⟩ := mem_flatMap.mp hentry
  obtain ⟨hrole, hcalls⟩ := hplain m hm
  unfold askedIn at hin
  cases hmrole : m.role with
  | assistant =>
    rw [hmrole, hcalls] at hin
    exact mem_singleton.mp hin
  | tool => exact absurd hmrole hrole
  | system => rw [hmrole] at hin; cases hin
  | user => rw [hmrole] at hin; cases hin

/-- The tool loop of a turn pairs its calls and results exactly when every reply that it gets
carries ids of its own and asks for the use of its calls. -/
theorem runBundleTurn_pairsUp_iff (env : TurnEnv) (rejected : Nat → Option String)
    (hid : env.Identity rejected) (prompt : String) :
    PairsUp (env.runBundleTurn prompt) ↔ (env.bundleToken && env.llm) = true →
      env.RepliesClean rejected maxInferenceIterationsPerTurn 0 := by
  let start : TurnState := { conversation := env.conversation prompt }
  have hlogs : TurnEnv.Logs start (conversationLog (env.conversation prompt)) [] [] :=
    ⟨rfl, rfl, rfl⟩
  have hfinal : (env.runBundleTurn prompt).requests = (env.work prompt).1.requests ∧
      (env.runBundleTurn prompt).entries = (env.work prompt).1.entries := by
    unfold TurnEnv.runBundleTurn
    split
    next hwork => rw [hwork]; exact ⟨rfl, rfl⟩
    next hwork => rw [hwork]; exact ⟨rfl, rfl⟩
  have hempty : Paired ([] : List (Entry String)) := paired_of_noCalls fun e he => absurd he
    not_mem_nil
  by_cases hstart : (env.bundleToken && env.llm) = true
  · have hwork : env.work prompt = env.iterations maxInferenceIterationsPerTurn 0 start := by
      obtain ⟨htoken, hllm⟩ := Bool.and_eq_true_iff.mp hstart
      rw [TurnEnv.work, htoken, hllm]
      rfl
    rw [hwork] at hfinal
    have hentries := TurnEnv.iterations_paired hid maxInferenceIterationsPerTurn 0 hlogs
    constructor
    · intro h _
      have hpaired := h.entries
      rw [hfinal.2] at hpaired
      exact (hentries.mp hpaired).2
    · intro h
      have hclean := h hstart
      constructor
      · intro request hrequest asked hasked id hmem
        rw [hfinal.1] at hrequest
        have hrequests := TurnEnv.iterations_requests hid maxInferenceIterationsPerTurn 0 hlogs
          (env.paired_conversation prompt) (fun _ h => absurd h not_mem_nil) hclean
        exact (hrequests request hrequest asked hasked).1 id hmem
      · rw [hfinal.2]
        exact hentries.mpr ⟨hempty, hclean⟩
      · obtain ⟨more, hmore, hlength⟩ := TurnEnv.iterations_requests_append
          maxInferenceIterationsPerTurn 0 start
        rw [hfinal.1, hmore]
        exact hlength
  · have hwork : (env.work prompt).1 = start := by
      rw [TurnEnv.work]
      cases htoken : env.bundleToken with
      | false => rfl
      | true =>
        cases hllm : env.llm with
        | false => rfl
        | true => exact absurd (by rw [htoken, hllm]; rfl) hstart
    rw [hwork] at hfinal
    refine iff_of_true ⟨?_, ?_, ?_⟩ fun h => absurd h hstart
    · rw [hfinal.1]
      exact fun request h => absurd h not_mem_nil
    · rw [hfinal.2]
      exact hempty
    · rw [hfinal.1]
      exact Nat.zero_le _

def unnamedCall : String × Json :=
  ("\x7b\"choices\":[\x7b\"delta\":\x7b\"tool_calls\":[\x7b\"index\":0," ++
      "\"function\":\x7b\"name\":\"ls\"\x7d\x7d]\x7d\x7d]\x7d",
    deltaChunk [("tool_calls", .arr [callDelta 0 [] [("name", .str "ls")]])])

/-- A chunk with a call under the id `a`. -/
def namedCall : String × Json :=
  ("\x7b\"choices\":[\x7b\"delta\":\x7b\"tool_calls\":[\x7b\"index\":0,\"id\":\"a\"," ++
      "\"function\":\x7b\"name\":\"ls\"\x7d\x7d]\x7d\x7d]\x7d",
    deltaChunk [("tool_calls", .arr [callDelta 0 [("id", .str "a")] [("name", .str "ls")]])])

/-- A turn whose first reply is the given chunk and whose second one is empty. -/
def callingEnv (chunk : String × Json) : TurnEnv where
  systemPrompt := ""
  jsonParse text := if text = chunk.1 then some chunk.2 else none
  jsonStringify _ := "\x7b\x7d"
  buildContext := .ok []
  bundleToken := true
  llm := true
  beforeInferenceHooks := []
  processBeforeInference _ messages := .ok messages
  inferStream iter := .ok (if iter = 0 then [chunk.1] else [], none)
  toolNames := ["ls"]
  processBeforeToolExecution _ _ := .ok (false, none)
  execute _ _ := .ok (some (.str "done"))
  now _ _ := 0

theorem callingEnv_identity (chunk : String × Json) :
    (callingEnv chunk).Identity fun _ => none := fun _ _ => rfl

/-- A call under an id of its own pairs up. -/
theorem runBundleTurn_pairsUp_named : PairsUp ((callingEnv namedCall).runBundleTurn "go") := by
  refine (runBundleTurn_pairsUp_iff _ _ (callingEnv_identity namedCall) "go").mpr fun _ => ?_
  intro toolCalls stopReason hreply
  have hfirst : (callingEnv namedCall).reply (fun _ => none) 0 =
      some ([⟨"a", "ls", .obj [], ""⟩], .toolUse) := by
    rfl
  obtain ⟨rfl, rfl⟩ := Prod.mk.inj (Option.some.inj (hfirst.symm.trans hreply))
  refine ⟨⟨by decide, by decide, fun _ => rfl⟩, fun _ _ => ?_⟩
  intro toolCalls stopReason hreply
  have hsecond : (callingEnv namedCall).reply (fun _ => none) 1 = some ([], .stop) := by
    rfl
  obtain ⟨rfl, rfl⟩ := Prod.mk.inj (Option.some.inj (hsecond.symm.trans hreply))
  exact ⟨⟨nodup_nil, not_mem_nil, fun h => absurd rfl h⟩, fun h => nomatch h⟩

/-- The result of a call without an id goes out under a synthetic one, which no call has. -/
theorem unnamed_not_pairsUp : (callingEnv unnamedCall).Identity (fun _ => none) ∧
    ¬PairsUp ((callingEnv unnamedCall).runBundleTurn "go") := by
  refine ⟨callingEnv_identity unnamedCall, fun h => ?_⟩
  have hrequest : [{ role := .user, content := "go" },
      { role := .assistant, content := "", toolCalls := [⟨"", "ls", "\x7b\x7d"⟩] },
      { role := .tool, content := "done", toolCallId := some "call_0_ls" }] ∈
        ((callingEnv unnamedCall).runBundleTurn "go").requests := by
    refine mem_of_getElem? (i := 1) ?_
    rfl
  have hone := h.requests _ hrequest ([""], ["call_0_ls"]) (by decide) "" mem_cons_self
  exact absurd hone (by decide)

end CrabbyKit.Bundle
