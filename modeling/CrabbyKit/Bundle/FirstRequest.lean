import CrabbyKit.Bundle.Turn
import CrabbyKit.Runtime.Prompt

/-!
# The first request of a bundle turn

The host persists the prompt before it dispatches the turn, and the bundle reads the context of the
session back over the spine before it adds the prompt. So a context that is read holds the prompt
already.
-/

namespace CrabbyKit.Bundle

open CrabbyKit.Runtime SessionStore

/-- What `handlePrompt` does before it dispatches to a bundle. -/
def persistPrompt (env : Environment) (sessionId text : String) (r : SessionRuntime) :
    SessionRuntime :=
  let r := r.nameSession env sessionId text
  r.append env sessionId (SessionRuntime.userEntryData text (r.now env))

/-- `SpineService.buildContext`, answered at some time or with an error of the spine. -/
def spineBuildContext (st : SessionStore) (sessionId : String) :
    Except String Instant → Except String (List AgentMessage)
  | .error message => .error message
  | .ok now => match st.buildContext sessionId now with
    | .ok messages => .ok messages
    | .error _ => .error "An internal error occurred"

def opening (systemPrompt : String) (history : List MinimalMessage) (prompt : String) :
    List MinimalMessage :=
  (if systemPrompt ≠ "" then [{ role := .system, content := systemPrompt }] else []) ++ history ++
    [{ role := .user, content := prompt }]

/-- The bundle side of a turn, on what the host has persisted. -/
structure Dispatched (turn : TurnEnv) (systemPrompt : String)
    (context : Except String (List AgentMessage)) : Prop where
  systemPrompt : turn.systemPrompt = systemPrompt
  buildContext : turn.buildContext = context

/-- The first request of a turn is what its hooks make of the opening. -/
def SendsFirst (turn : TurnEnv) (prompt : String) (messages : List MinimalMessage) : Prop :=
  ∀ first, (turn.runBundleTurn prompt).requests.head? = some first →
    turn.bridgedMessages 0 messages = .ok first

def readHistory : Except String (List AgentMessage) → List MinimalMessage
  | .ok raw => historyToMessages raw
  | .error _ => []

theorem Dispatched.conversation {turn : TurnEnv} {systemPrompt : String}
    {context : Except String (List AgentMessage)} (h : Dispatched turn systemPrompt context)
    (prompt : String) :
    turn.conversation prompt = opening systemPrompt (readHistory context) prompt := by
  rw [TurnEnv.conversation, h.systemPrompt, h.buildContext]
  cases context with
  | ok raw => rfl
  | error message => rfl

theorem opening_inj {systemPrompt prompt : String} {history history' : List MinimalMessage} :
    opening systemPrompt history prompt = opening systemPrompt history' prompt ↔
      history = history' := by
  rw [opening, opening, List.append_cancel_right_eq, List.append_cancel_left_eq]

def replayed (v : MessageView) : Option MinimalMessage :=
  (replayedRole v.role).bind fun role =>
    if flattenContent v.content = "" then none
    else some { role := role, content := flattenContent v.content }

theorem historyToMessages_eq (history : List AgentMessage) :
    historyToMessages history = (history.map view).filterMap replayed := by
  rw [List.filterMap_map]
  rfl

theorem readHistory_persistPrompt {env : Environment} {sessionId text : String}
    {r : SessionRuntime} (h : Ready env sessionId r) {readAt now : Instant}
    {previous : List AgentMessage}
    (hprevious : r.store.buildContext sessionId readAt = .ok previous) :
    readHistory (spineBuildContext (persistPrompt env sessionId text r).store sessionId (.ok now)) =
      historyToMessages previous ++
        (if text = "" then [] else [{ role := .user, content := text }]) := by
  obtain ⟨hnamed, hviews⟩ := h.nameSession text
  obtain ⟨hready, hpersisted⟩ := hnamed.persist text ((r.nameSession env sessionId text).now env)
  obtain ⟨messages, hmessages⟩ := hready.exists_buildContext now
  have hall := hready.buildContext_views hmessages
  rw [hpersisted, hviews, ← h.buildContext_views hprevious] at hall
  have hread : spineBuildContext (persistPrompt env sessionId text r).store sessionId (.ok now) =
      .ok messages := by
    rw [spineBuildContext, persistPrompt, hmessages]
  rw [hread, readHistory, historyToMessages_eq, hall, List.filterMap_append, historyToMessages_eq]
  congr 1
  by_cases htext : text = ""
  · simp [replayed, userView, replayedRole, flattenContent, htext]
  · simp [replayed, userView, replayedRole, flattenContent, htext]

def plainTurn (systemPrompt : String) (context : Except String (List AgentMessage)) : TurnEnv where
  systemPrompt := systemPrompt
  jsonParse _ := none
  jsonStringify _ := ""
  buildContext := context
  bundleToken := true
  llm := true
  beforeInferenceHooks := []
  processBeforeInference _ messages := .ok messages
  inferStream _ := .ok ([], none)
  toolNames := []
  processBeforeToolExecution _ _ := .ok (false, none)
  execute _ _ := .ok none
  now _ _ := 0

theorem sendsFirst_iff (systemPrompt prompt : String) (context : Except String (List AgentMessage))
    (history : List MinimalMessage) :
    (∀ turn, Dispatched turn systemPrompt context →
        SendsFirst turn prompt (opening systemPrompt history prompt)) ↔
      readHistory context = history := by
  constructor
  · intro h
    have hdispatched : Dispatched (plainTurn systemPrompt context) systemPrompt context :=
      ⟨rfl, rfl⟩
    have hfirst := h _ hdispatched ((plainTurn systemPrompt context).conversation prompt)
      ((TurnEnv.requests_head? prompt _).mpr ⟨rfl, rfl⟩)
    rw [hdispatched.conversation] at hfirst
    exact (opening_inj.mp (Except.ok.inj hfirst)).symm
  · rintro rfl turn hdispatched first hhead
    rw [← hdispatched.conversation]
    exact ((TurnEnv.requests_head? prompt first).mp hhead).2

/-- On every session history the first request carries the prompt once, behind the history before
it, exactly when the context is read and the prompt is empty, or the context cannot be read and
there is no history to be replayed. -/
theorem firstRequest_once_iff {calls : List StoreCall} (h : Fresh calls) {env : Environment}
    (hsupply : FreshSupply env (SessionStore.run calls)) {sessionId : String} {session : Session}
    (hsession : (SessionStore.run calls).get sessionId = some session)
    (systemPrompt text : String) (spine : Except String Instant) (readAt : Instant) :
    ∃ previous, (SessionStore.run calls).buildContext sessionId readAt = .ok previous ∧
      ((∀ turn, Dispatched turn systemPrompt (spineBuildContext
            (persistPrompt env sessionId text { store := SessionStore.run calls }).store sessionId
            spine) →
          SendsFirst turn text (opening systemPrompt (historyToMessages previous) text)) ↔
        match spine with
        | .ok _ => text = ""
        | .error _ => historyToMessages previous = []) := by
  have hresolve : (PromptCall.handlePrompt sessionId text).resolve env
      { store := SessionStore.run calls } = .ok ({ store := SessionStore.run calls }, sessionId) :=
    rfl
  have hready := (ready_of_resolve h hsupply hresolve hsession).1
  obtain ⟨previous, hprevious⟩ := hready.exists_buildContext readAt
  refine ⟨previous, hprevious, ?_⟩
  rw [sendsFirst_iff]
  cases spine with
  | ok now =>
    rw [readHistory_persistPrompt hready hprevious]
    by_cases htext : text = ""
    · simp [htext]
    · simp [htext]
  | error message => exact eq_comm

/-- In a new session whose context cannot be read the prompt is sent once. -/
theorem firstRequest_once_unread :
    SendsFirst (plainTurn "" (.error "Budget exceeded")) "hi"
      [{ role := .user, content := "hi" }] := by
  have hfresh : Fresh newSessionCalls := by decide
  have hsession : (SessionStore.run newSessionCalls).get "s" = some _ := rfl
  obtain ⟨previous, hprevious, hiff⟩ := firstRequest_once_iff hfresh (quietEnvironment_supply rfl)
    hsession "" "hi" (.error "Budget exceeded") 0
  have hempty : previous = [] := by
    have hnew : (SessionStore.run newSessionCalls).buildContext "s" 0 = .ok [] := by decide
    exact Except.ok.inj (hprevious.symm.trans hnew)
  subst hempty
  exact hiff.mpr rfl _ ⟨rfl, rfl⟩

/-- The first prompt of a new session is sent twice. -/
theorem firstRequest_twice :
    (SessionStore.run newSessionCalls).buildContext "s" 0 = .ok [] ∧
      ¬SendsFirst (plainTurn "" (spineBuildContext (persistPrompt quietEnvironment "s" "hi"
        { store := SessionStore.run newSessionCalls }).store "s" (.ok 0))) "hi"
          (opening "" (historyToMessages []) "hi") := by
  refine ⟨by decide, fun h => ?_⟩
  have hsent := h [{ role := .user, content := "hi" }, { role := .user, content := "hi" }] rfl
  cases Except.ok.inj hsent

end CrabbyKit.Bundle
