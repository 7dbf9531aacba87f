import CrabbyKit.Batch.BatchTool

/-!
# Batched calls against direct calls

When a sub-call of the batch tool is what the same call made through the loop would be.
-/

namespace CrabbyKit.Batch

open AgentCore

variable {σ Schema : Type}

namespace Session

/-- A batched call is a direct call: each sub-call leaves the marks of the same call made
through the loop, under any id, and its entry says success when that call is no error; the
entries are in input order, and none depends on another sub-call. -/
structure BatchIsDirect (S : Session σ Schema) (ids : Nat → String) (calls : List SubCall)
    (met : Nat → σ) : Prop where
  inOrder : (S.executeBatch calls met).1.results.map BatchEntry.tool = calls.map SubCall.tool
  sameRun : ∀ (i : Nat) (call : SubCall), calls[i]? = some call →
    (S.executeBatch calls met).2[i]? =
      some (S.directCall (call.toToolCall (ids i)) (met i)).marks
  sameVerdict : ∀ (i : Nat) (call : SubCall), calls[i]? = some call →
    ∃ entry, (S.executeBatch calls met).1.results[i]? = some entry ∧
      (entry.success = true ↔ (S.directCall (call.toToolCall (ids i)) (met i)).isError = false)
  independent : ∀ (i j : Nat) (call : SubCall) (met' : Nat → σ), i ≠ j →
    (∀ k, k ≠ j → met' k = met k) →
      (S.executeBatch (calls.set j call) met').1.results[i]? =
        (S.executeBatch calls met).1.results[i]?

/-- The batch tool has no tool for the call, and the loop would refuse it as well: it knows no
such tool in any case, or the arguments are invalid. -/
def RefusedAnyway (S : Session σ Schema) (call : ToolCall) : Prop :=
  S.subTool call.name = none ∧
    ∀ tool, S.findTool call.name = some tool →
      ∀ args, S.validateToolArguments tool call ≠ .ok args

/-- The pipeline has nothing to add: the loop has the tool as well, its schema takes the
arguments as they are, no hook is registered, and under the loop the tool throws exactly when
it throws without. -/
def Unmediated (S : Session σ Schema) (call : ToolCall) (world : σ) : Prop :=
  ∃ raw tool, S.subTool call.name = some raw ∧ S.findTool call.name = some tool ∧
    tool.name = raw.name ∧ S.validateToolArguments tool call = .ok call.arguments ∧
    S.beforeToolExecutionHooks = [] ∧ S.afterToolExecutionHooks = [] ∧
    (tool.execute call.arguments ⟨call.id, true, true⟩
        (S.listeners (.toolExecutionStart call) world)).1.isOk =
      (raw.execute call.arguments { toolCallId := "batch-" ++ call.name } world).1.isOk

def SubCallIsDirect (S : Session σ Schema) (id : String) (call : SubCall) (world : σ) : Prop :=
  (S.subCall call ⟨world, []⟩).2.marks = (S.directCall (call.toToolCall id) world).marks ∧
    ((S.subCall call ⟨world, []⟩).1.success = true ↔
      (S.directCall (call.toToolCall id) world).isError = false)

section One

variable {S : Session σ Schema} {id : String} {call : SubCall} {world : σ}

theorem directCall_cases (S : Session σ Schema) (call : ToolCall) (world : σ) :
    ((∀ tool, S.findTool call.name = some tool →
        ∀ args, S.validateToolArguments tool call ≠ .ok args) ∧
      S.directCall call world = ⟨[], true⟩) ∨
    ∃ tool args, S.findTool call.name = some tool ∧
      S.validateToolArguments tool call = .ok args := by
  cases hfind : S.findTool call.name with
  | none =>
    refine .inl ⟨?_, directCall_unfound hfind world⟩
    intro tool htool
    cases htool
  | some tool =>
    cases hvalid : S.validateToolArguments tool call with
    | error e =>
      refine .inl ⟨?_, directCall_invalid hfind hvalid world⟩
      intro other hother args hargs
      cases hother
      rw [hvalid] at hargs
      cases hargs
    | ok args => exact .inr ⟨tool, args, rfl, hvalid⟩

theorem directCall_marks_ne_nil {call : ToolCall} {tool : AgentTool σ Schema} {args : String}
    (hfind : S.findTool call.name = some tool)
    (hvalid : S.validateToolArguments tool call = .ok args) :
    (S.directCall call world).marks ≠ [] := by
  intro hnil
  by_cases hhooks : S.beforeToolExecutionHooks = []
  · rw [directCall_ran hfind hvalid hhooks] at hnil
    cases hnil
  · have hasked := directCall_asked hfind hvalid hhooks world
    rw [hnil] at hasked
    cases hasked

theorem subCallIsDirect_none (h : S.subTool call.tool = none) :
    SubCallIsDirect S id call world ↔ RefusedAnyway S (call.toToolCall id) := by
  obtain ⟨hfailed, hscene⟩ := subCall_none h ⟨world, []⟩
  constructor
  · rintro ⟨hmarks, -⟩
    refine ⟨h, fun tool hfind args hvalid => ?_⟩
    rw [hscene] at hmarks
    exact directCall_marks_ne_nil hfind hvalid hmarks.symm
  · rintro ⟨-, hrefused⟩
    obtain ⟨-, hdirect⟩ | ⟨tool, args, hfind, hvalid⟩ :=
      directCall_cases S (call.toToolCall id) world
    · refine ⟨by rw [hscene, hdirect], ?_⟩
      rw [hdirect, hfailed]
      exact iff_of_false Bool.false_ne_true (Bool.noConfusion)
    · exact absurd hvalid (hrefused tool hfind args)

theorem subCallIsDirect_some {raw : AgentTool σ Schema} (h : S.subTool call.tool = some raw) :
    SubCallIsDirect S id call world ↔ Unmediated S (call.toToolCall id) world := by
  obtain ⟨hsuccess, hmarks⟩ := subCall_some h ⟨world, []⟩
  simp only [List.nil_append] at hmarks
  constructor
  · rintro ⟨hsame, hverdict⟩
    rw [hmarks] at hsame
    obtain ⟨-, hdirect⟩ | ⟨tool, args, hfind, hvalid⟩ :=
      directCall_cases S (call.toToolCall id) world
    · rw [hdirect] at hsame
      cases hsame
    · by_cases hhooks : S.beforeToolExecutionHooks = []
      · rw [directCall_ran hfind hvalid hhooks] at hsame hverdict
        simp only [List.cons.injEq, Mark.ran.injEq] at hsame
        obtain ⟨⟨hname, hargs⟩, htold⟩ := hsame
        have hafter : S.afterToolExecutionHooks = [] := by
          cases hlist : S.afterToolExecutionHooks with
          | nil => rfl
          | cons hook rest => rw [hlist] at htold; cases htold
        subst hargs
        refine ⟨raw, tool, h, hfind, hname.symm, hvalid, hhooks, hafter, ?_⟩
        rw [hsuccess, Bool.not_eq_false'] at hverdict
        exact (Bool.eq_iff_iff.mpr hverdict).symm
      · have hasked := directCall_asked hfind hvalid hhooks world
        rw [← hsame] at hasked
        cases hasked
  · rintro ⟨other, tool, hother, hfind, hname, hvalid, hhooks, hafter, hthrows⟩
    have hraw : other = raw := Option.some.inj (hother.symm.trans h)
    subst hraw
    rw [SubCallIsDirect, directCall_ran hfind hvalid hhooks, hmarks, hsuccess, hafter, hname]
    refine ⟨rfl, ?_⟩
    rw [Bool.not_eq_false']
    exact Bool.eq_iff_iff.mp hthrows.symm

theorem subCallIsDirect_iff : SubCallIsDirect S id call world ↔
    RefusedAnyway S (call.toToolCall id) ∨ Unmediated S (call.toToolCall id) world := by
  cases h : S.subTool call.tool with
  | none =>
    rw [subCallIsDirect_none h]
    refine ⟨.inl, fun hor => hor.resolve_right ?_⟩
    rintro ⟨raw, tool, hraw, -⟩
    rw [show S.subTool call.tool = some raw from hraw] at h
    cases h
  | some raw =>
    rw [subCallIsDirect_some h]
    refine ⟨.inr, fun hor => hor.resolve_left ?_⟩
    rintro ⟨hnone, -⟩
    rw [show S.subTool call.tool = none from hnone] at h
    cases h

end One

section Blocked

def deleteTool : AgentTool Unit Unit :=
  { name := "delete"
    parameters := ()
    execute := fun _ _ world => (.ok ⟨[.text "deleted"], "\x7b\x7d"⟩, world)
    settledBefore := fun _ _ _ _ => true }

def idleLoop : LoopHost (Scene Unit) (AgentTool Unit Unit) :=
  { emit := fun _ s => s
    transformContext := fun messages s => (messages, s)
    convertToLlm := id
    streamFn := fun _ s => (.error "no model", s)
    aborted := fun _ => false
    sleep := fun _ s => s
    getSteeringMessages := fun s => ([], s)
    getFollowUpMessages := fun s => ([], s)
    findTool := fun _ => none
    toolNotFoundError := fun name => name
    validateToolArguments := fun _ call => .ok call.arguments
    beforeToolCall := fun _ _ _ s => (.ok none, s)
    execute := fun _ _ _ s => (.error "no tool", s)
    afterToolCall := fun _ _ _ s => (none, s)
    now := fun _ => 0
    toolExecution := .parallel
    maxIterations := 1
    maxStreamRetries := 0
    baseRetryDelayMs := 0 }

/-- A session in which a hook blocks every call. -/
def lockedSession : Session Unit Unit :=
  { baseTools := [deleteTool]
    runtimeTools := []
    capabilities := []
    activeMode := none
    defaultToolTimeout := none
    beforeToolExecutionHooks := [fun _ world => (.ok (some ⟨true, some "Doom loop"⟩), world)]
    afterToolExecutionHooks := []
    ajv := none
    toLowerCase := fun name => name
    stringify := fun args => args
    buildToolNotFoundError := fun name _ => name
    listeners := fun _ world => world
    loop := idleLoop }

end Blocked

end Session

end CrabbyKit.Batch
