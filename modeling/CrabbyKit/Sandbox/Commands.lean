import CrabbyKit.Sandbox.Tools

/-!
# Commands of elevated sessions

A command that `exec` or `process` sends comes from a call that found its session elevated.
-/

namespace CrabbyKit.Sandbox

/-- The chat session of a tool, when the caller is one. -/
def Caller.user (caller : Caller) : Option String :=
  match caller.purpose with
  | .elevate _ _ => none
  | .use _ => some caller.chat

/-- The chat session of `exec` or `process` once it has been read as elevated. -/
def Task.passed : Task → Option String
  | .probing caller => caller.user
  | .scanning caller => caller.user
  | .verifying caller => caller.user
  | .clearing _ (.stale caller) => caller.user
  | .clearing _ (.other caller) => caller.user
  | .joining caller => caller.user
  | .awaiting caller _ => caller.user
  | .starting caller => caller.user
  | .confirming caller => caller.user
  | .collecting caller => caller.user
  | .injecting caller _ _ => caller.user
  | .restarting caller => caller.user
  | .marking caller _ => caller.user
  | .executing chat _ => some chat
  | .surveyingSessions chat => some chat
  | .surveyingProcesses chat => some chat
  | .launching chat _ => some chat
  | .recording chat _ => some chat
  | .polling chat _ => some chat
  | .listing chat => some chat
  | .listed chat => some chat
  | .owning chat _ _ _ => some chat
  | .acting chat _ _ _ => some chat
  | .disowning chat _ => some chat
  | _ => none

namespace Agent

variable (options : SandboxCapabilityOptions)

/-- In the course of a run, while the call `i` of a tool waited for the check of its session, the
session was marked elevated. -/
def Marked (labels : List Label) (i : Nat) (chat : String) : Prop :=
  ∃ before after tool, labels = before ++ after ∧
    (Run.run (step options) {} before).tasks i = some (.elevating ⟨chat, .use tool⟩) ∧
    (Run.run (step options) {} before).storage.isSessionElevated chat = true

variable {options} {s s' : Agent} {i : Nat} {task : Task}

variable {chat : String}

theorem Marked.append {labels : List Label} (h : Marked options labels i chat)
    (label : Label) : Marked options (labels ++ [label]) i chat := by
  obtain ⟨before, after, tool, hsplit, hrest⟩ := h
  exact ⟨before, after ++ [label], tool, by rw [hsplit, List.append_assoc], hrest⟩

variable (s i task) in
/-- The operation has its session read as elevated, or reads it now. -/
def Passed (chat : String) : Prop :=
  task.passed = some chat ∨ ∃ tool, task = .elevating ⟨chat, .use tool⟩ ∧
    s.storage.isSessionElevated chat = true

variable (s s' i task) in
/-- A step of an operation passes no other session, and sends commands for its own only. -/
structure Passes : Prop where
  tasks : ∀ j t chat, s'.tasks j = some t → t.passed = some chat →
    s.tasks j = some t ∨ (j = i ∧ s.Passed task chat)
  sent : ∀ entry ∈ s'.sent, entry ∈ s.sent ∨
    ∃ chat command, entry = (i, chat, command) ∧ task.passed = some chat

theorem passes_of_update {next : Option Task} (htasks : s'.tasks = Function.update s.tasks i next)
    (hsent : s'.sent = s.sent)
    (hnext : ∀ t chat, next = some t → t.passed = some chat → s.Passed task chat) :
    s.Passes s' i task := by
  refine ⟨fun j t chat ht hpassed => ?_, fun entry hentry => .inl (hsent ▸ hentry)⟩
  rw [htasks] at ht
  rcases Table.update_eq_some ht with ⟨rfl, hself⟩ | ⟨-, hold⟩
  · exact .inr ⟨rfl, hnext t chat hself hpassed⟩
  · exact .inl hold

theorem passes_goOn {next : Task} (htasks : s'.tasks = Function.update s.tasks i (some next))
    (hsent : s'.sent = s.sent) (hnext : next.passed = none ∨ next.passed = task.passed) :
    s.Passes s' i task := by
  refine passes_of_update htasks hsent fun t chat ht hpassed => ?_
  cases ht
  rcases hnext with hnone | hsame
  · rw [hnone] at hpassed
    cases hpassed
  · exact .inl (hsame.symm.trans hpassed)

theorem passes_finish (htasks : s'.tasks = Function.update s.tasks i none)
    (hsent : s'.sent = s.sent) : s.Passes s' i task :=
  passes_of_update htasks hsent fun _ _ hnone => by cases hnone

theorem Passes.send {command : Command} (hpassed : task.passed = some chat)
    (h : Passes (s.send i chat command) s' i task) : s.Passes s' i task := by
  refine ⟨h.tasks, fun entry hentry => ?_⟩
  rcases h.sent entry hentry with hold | hnew
  · rcases List.mem_append.mp hold with hbefore | hlast
    · exact .inl hbefore
    · exact .inr ⟨chat, command, List.mem_singleton.mp hlast, hpassed⟩
  · exact .inr hnew

/-- `checkElevation` returned null for a session that was passed. -/
theorem passes_execute (hpassed : task.passed = some chat) (tool : Tool) :
    s.Passes (s.execute options i chat tool) i task := by
  cases tool with
  | exec command background onUpdate =>
    simp only [execute]
    split_ifs
    · exact passes_goOn rfl rfl (.inr hpassed.symm)
    · exact passes_finish rfl rfl
    · exact passes_goOn rfl rfl (.inr hpassed.symm)
  | list =>
    simp only [execute]
    split_ifs
    · exact passes_goOn rfl rfl (.inr hpassed.symm)
    · exact passes_finish rfl rfl
  | process action sessionId input =>
    simp only [execute]
    split_ifs
    · exact passes_finish rfl rfl
    · exact passes_goOn rfl rfl (.inr hpassed.symm)
    · exact passes_finish rfl rfl

theorem passes_resetByProcesses (hpassed : task.passed = some chat) :
    s.Passes (s.resetByProcesses options i chat) i task := by
  unfold resetByProcesses
  split_ifs
  · exact passes_goOn rfl rfl (.inr hpassed.symm)
  · exact passes_goOn rfl rfl (.inl rfl)

theorem passes_resetTimer (hpassed : task.passed = some chat) :
    s.Passes (s.resetTimer options i chat) i task := by
  unfold resetTimer
  split_ifs
  · exact passes_goOn rfl rfl (.inr hpassed.symm)
  · exact passes_resetByProcesses hpassed

theorem passes_startFailed {caller : Caller} {outcome : Outcome} :
    s.Passes (s.startFailed i caller outcome) i task := by
  unfold startFailed
  split
  · exact passes_finish rfl rfl
  · exact passes_finish rfl rfl

theorem passes_clearNext {clear : Clear} {clearer : Clearer} :
    s.Passes (s.clearNext i clearer clear) i (.clearing clear clearer) := by
  have hsame : ∀ next : Clear, (Task.clearing next clearer).passed =
      (Task.clearing clear clearer).passed := by
    intro next
    cases clearer <;> rfl
  cases clear with
  | listing => exact passes_goOn rfl rfl (.inr (hsame _))
  | deleting keys =>
    cases keys with
    | nil => exact passes_goOn rfl rfl (.inr (hsame _))
    | cons key keys => exact passes_goOn rfl rfl (.inr (hsame _))
  | listingOwners => exact passes_goOn rfl rfl (.inr (hsame _))
  | deletingOwners keys =>
    cases keys with
    | cons key keys => exact passes_goOn rfl rfl (.inr (hsame _))
    | nil =>
      cases clearer with
      | stale caller =>
        simp only [clearNext]
        split
        · exact passes_goOn rfl rfl (.inr rfl)
        · exact passes_goOn rfl rfl (.inr rfl)
      | other caller => exact passes_goOn rfl rfl (.inr rfl)
      | connect => exact passes_finish rfl rfl
      | timer => exact passes_goOn rfl rfl (.inl rfl)

theorem passes_advance {answer : HostAnswer} :
    s.Passes (s.advance options i answer task) i task := by
  cases task with
  | elevating caller =>
    simp only [advance]
    split_ifs with helevated
    · refine passes_of_update rfl rfl fun t chat ht hpassed => ?_
      cases ht
      obtain ⟨own, purpose⟩ := caller
      cases purpose with
      | elevate reason timeout => cases hpassed
      | use tool =>
        obtain rfl := Option.some.inj hpassed
        exact .inr ⟨tool, rfl, helevated⟩
    · obtain ⟨own, purpose⟩ := caller
      cases purpose with
      | elevate reason timeout => exact passes_goOn rfl rfl (.inl rfl)
      | use tool => exact passes_finish rfl rfl
  | probing caller =>
    simp only [advance]
    split_ifs
    · obtain ⟨own, purpose⟩ := caller
      cases purpose with
      | elevate reason timeout => exact passes_finish rfl rfl
      | use tool => exact passes_execute rfl tool
    · exact passes_goOn rfl rfl (.inr rfl)
  | scanning caller =>
    simp only [advance]
    split_ifs
    · exact passes_goOn rfl rfl (.inr rfl)
    · exact passes_goOn rfl rfl (.inr rfl)
  | verifying caller =>
    simp only [advance]
    split_ifs
    · exact passes_goOn rfl rfl (.inr rfl)
    · exact passes_goOn rfl rfl (.inr rfl)
    · exact passes_goOn rfl rfl (.inr rfl)
  | clearing clear clearer => exact passes_clearNext
  | joining caller =>
    simp only [advance]
    split
    · exact passes_goOn rfl rfl (.inr rfl)
    · exact passes_goOn rfl rfl (.inr rfl)
  | awaiting caller teardown =>
    simp only [advance]
    split_ifs
    · exact ⟨fun j t chat ht _ => .inl ht, fun entry hentry => .inl hentry⟩
    · exact passes_goOn rfl rfl (.inr rfl)
  | starting caller =>
    simp only [advance]
    split_ifs
    · exact passes_startFailed
    · exact passes_goOn rfl rfl (.inr rfl)
  | confirming caller =>
    simp only [advance]
    split_ifs
    · exact passes_startFailed
    · unfold confirmed
      split
      · exact passes_goOn rfl rfl (.inr rfl)
      · exact passes_goOn rfl rfl (.inr rfl)
    · exact passes_startFailed
  | collecting caller => exact passes_goOn rfl rfl (.inr rfl)
  | injecting caller todo envVars =>
    cases todo with
    | nil =>
      simp only [advance]
      split_ifs
      · exact passes_goOn rfl rfl (.inr rfl)
      · exact passes_goOn rfl rfl (.inr rfl)
    | cons injection todo => cases injection <;> exact passes_goOn rfl rfl (.inr rfl)
  | restarting caller =>
    simp only [advance]
    split_ifs
    · exact passes_goOn rfl rfl (.inr rfl)
    · exact passes_goOn rfl rfl (.inr rfl)
  | marking caller todo =>
    cases todo with
    | nil =>
      obtain ⟨own, purpose⟩ := caller
      cases purpose with
      | elevate reason timeout => exact passes_goOn rfl rfl (.inl rfl)
      | use tool => exact passes_execute rfl tool
    | cons field todo => exact passes_goOn rfl rfl (.inr rfl)
  | resetting chat delay =>
    simp only [advance, resetDeElevationTimer]
    split
    · exact passes_finish rfl rfl
    · exact passes_finish rfl rfl
  | executing chat command =>
    simp only [advance]
    split_ifs
    · exact Passes.send rfl (passes_finish rfl rfl)
    · exact Passes.send rfl (passes_resetTimer rfl)
  | surveyingSessions chat =>
    simp only [advance]
    split_ifs
    · exact Passes.send rfl (passes_goOn rfl rfl (.inl rfl))
    · exact Passes.send rfl (passes_resetByProcesses rfl)
  | surveyingProcesses chat => exact Passes.send rfl (passes_goOn rfl rfl (.inl rfl))
  | launching chat command =>
    simp only [advance]
    split_ifs
    · exact Passes.send rfl (passes_finish rfl rfl)
    · exact Passes.send rfl (passes_goOn rfl rfl (.inr rfl))
  | recording chat sessionId =>
    simp only [advance]
    split_ifs
    · exact passes_goOn rfl rfl (.inr rfl)
    · exact passes_goOn rfl rfl (.inl rfl)
  | polling chat sessionId => exact Passes.send rfl (passes_goOn rfl rfl (.inl rfl))
  | listing chat => exact passes_goOn rfl rfl (.inr rfl)
  | listed chat => exact Passes.send rfl (passes_finish rfl rfl)
  | owning chat action sessionId input =>
    simp only [advance]
    split_ifs
    · exact passes_finish rfl rfl
    · exact passes_finish rfl rfl
    · exact passes_goOn rfl rfl (.inr rfl)
  | acting chat action sessionId input =>
    simp only [advance]
    split_ifs
    · exact Passes.send rfl (passes_finish rfl rfl)
    · exact Passes.send rfl (passes_goOn rfl rfl (.inr rfl))
    · exact Passes.send rfl (passes_finish rfl rfl)
  | disowning chat sessionId => exact passes_finish rfl rfl
  | deElevating chat =>
    simp only [advance]
    split_ifs
    · exact passes_goOn rfl rfl (.inl rfl)
    · exact passes_finish rfl rfl
  | unmarking chat todo => cases todo <;> exact passes_goOn rfl rfl (.inl rfl)
  | surveying =>
    simp only [advance]
    split_ifs
    · exact passes_finish rfl rfl
    · exact passes_goOn rfl rfl (.inl rfl)
  | cancelling => exact passes_goOn rfl rfl (.inl rfl)
  | stopping =>
    refine ⟨fun j t chat ht hpassed => ?_, fun entry hentry => .inl hentry⟩
    rcases Table.update_eq_some (f := (s.finish i .deElevated).tasks) ht with ⟨-, hnew⟩ | ⟨-, hold⟩
    · cases hnew
      cases hpassed
    · rcases Table.update_eq_some hold with ⟨-, hnew⟩ | ⟨-, hbefore⟩
      · cases hnew
      · exact .inl hbefore
  | teardown => exact passes_finish rfl rfl
  | connecting chat =>
    simp only [advance]
    split_ifs
    · exact passes_goOn rfl rfl (.inl rfl)
    · exact passes_finish rfl rfl
  | greeting =>
    simp only [advance]
    split_ifs
    · exact passes_finish rfl rfl
    · exact passes_goOn rfl rfl (.inl rfl)
  | firing =>
    simp only [advance, executeScheduledCallback]
    split
    · exact passes_goOn rfl rfl (.inl rfl)
    · exact passes_finish rfl rfl
  | gathering =>
    simp only [advance]
    split_ifs
    · exact passes_goOn rfl rfl (.inl rfl)
    · exact passes_goOn rfl rfl (.inl rfl)
    · exact passes_goOn rfl rfl (.inl rfl)
  | inspecting =>
    simp only [advance]
    split_ifs
    · exact passes_goOn rfl rfl (.inl rfl)
    · exact passes_goOn rfl rfl (.inl rfl)
  | halting processes => cases processes <;> exact passes_goOn rfl rfl (.inl rfl)
  | shutting => exact passes_goOn rfl rfl (.inl rfl)
  | expiring => exact passes_finish rfl rfl

variable (s s') in
/-- A step passes sessions that are read as elevated only, and sends commands for such. -/
structure Lets : Prop where
  tasks : ∀ j t chat, s'.tasks j = some t → t.passed = some chat →
    s.tasks j = some t ∨ ∃ task, s.tasks j = some task ∧ s.Passed task chat
  sent : ∀ entry ∈ s'.sent, entry ∈ s.sent ∨
    ∃ task, s.tasks entry.1 = some task ∧ task.passed = some entry.2.1

theorem lets_of_eq (htasks : s'.tasks = s.tasks) (hsent : s'.sent = s.sent) : s.Lets s' :=
  ⟨fun _ _ _ ht _ => .inl (htasks ▸ ht), fun _ hentry => .inl (hsent ▸ hentry)⟩

theorem lets_spawn {next : Task} (htasks : s'.tasks = Function.update s.tasks s.started (some next))
    (hsent : s'.sent = s.sent) (hnext : next.passed = none) : s.Lets s' := by
  refine ⟨fun j t chat ht hpassed => ?_, fun _ hentry => .inl (hsent ▸ hentry)⟩
  rw [htasks] at ht
  rcases Table.update_eq_some ht with ⟨-, hnew⟩ | ⟨-, hold⟩
  · cases hnew
    rw [hnext] at hpassed
    cases hpassed
  · exact .inl hold

theorem lets_step (label : Label) : s.Lets (step options s label) := by
  cases label with
  | elevate chat reason timeout => exact lets_spawn rfl rfl rfl
  | deElevate chat => exact lets_spawn rfl rfl rfl
  | use chat tool => exact lets_spawn rfl rfl rfl
  | connect chat => exact lets_spawn rfl rfl rfl
  | alarm now =>
    simp only [step, alarm]
    split_ifs
    · exact lets_spawn rfl rfl rfl
    · exact lets_of_eq rfl rfl
  | sync callback => exact lets_of_eq rfl rfl
  | other id callback =>
    simp only [step]
    split_ifs
    · exact lets_of_eq rfl rfl
    · cases callback <;> exact lets_of_eq rfl rfl
  | die => exact lets_of_eq rfl rfl
  | advance i answer =>
    cases htask : s.tasks i with
    | none =>
      simp only [step, htask]
      exact lets_of_eq rfl rfl
    | some task =>
      simp only [step, htask]
      have hpasses : s.Passes (s.advance options i answer task) i task := passes_advance
      refine ⟨fun j t chat ht hpassed => ?_, fun entry hentry => ?_⟩
      · rcases hpasses.tasks j t chat ht hpassed with hold | ⟨rfl, hnew⟩
        · exact .inl hold
        · exact .inr ⟨task, htask, hnew⟩
      · rcases hpasses.sent entry hentry with hold | ⟨chat, command, rfl, hpassed⟩
        · exact .inl hold
        · exact .inr ⟨task, htask, hpassed⟩

theorem marked_of_sent (labels : List Label) {i : Nat} {command : Command}
    (hsent : (i, chat, command) ∈ (Run.run (step options) {} labels).sent) :
    Marked options labels i chat := by
  have hinvariant := @Run.run_induction _ _ (step options) {}
    (fun es s => s = Run.run (step options) {} es ∧
      (∀ j t chat, s.tasks j = some t → t.passed = some chat → Marked options es j chat) ∧
      ∀ entry ∈ s.sent, Marked options es entry.1 entry.2.1)
    ⟨rfl, ?_, ?_⟩ ?_ labels
  · exact hinvariant.2.2 _ hsent
  · rintro j t chat ht
    cases ht
  · rintro entry hentry
    cases hentry
  · rintro es label s ⟨rfl, htasks, hcommands⟩
    have hlets : (Run.run (step options) {} es).Lets
        (step options (Run.run (step options) {} es) label) := lets_step label
    refine ⟨(Run.run_snoc _ _ _ _).symm, fun j t chat ht htpassed => ?_, fun entry hentry => ?_⟩
    · rcases hlets.tasks j t chat ht htpassed with hold | ⟨task, htask, hnow⟩
      · exact (htasks j t chat hold htpassed).append label
      · rcases hnow with hbefore | ⟨tool, rfl, helevated⟩
        · exact (htasks j task chat htask hbefore).append label
        · exact ⟨es, [label], tool, rfl, htask, helevated⟩
    · rcases hlets.sent entry hentry with hold | ⟨task, htask, hown⟩
      · exact (hcommands entry hold).append label
      · exact (htasks entry.1 task _ htask hown).append label

end Agent

end CrabbyKit.Sandbox
