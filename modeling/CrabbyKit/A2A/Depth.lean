import CrabbyKit.A2A.Delegation

/-!
# Chains of delegations

A network of agents that prompt each other with `call_agent` and `start_task`. The depth that an
agent checks is read from its storage, where nothing puts the depth that a message carries.
-/

namespace CrabbyKit.A2A

open List Function

/-- What the client keeps in its storage. -/
inductive StoredValue
  | depth (depth : Nat)
  | pendingTask (task : PendingTask)
  | agentCard (name : String) (fetchedAt : Instant)

def depthKey : String := "a2a:depth"

def pendingTaskKey (taskId : String) : String := "task:" ++ taskId

def agentCardKey (agentUrl : String) : String := "card:" ++ agentUrl

/-- An agent: its server, and the storage of its client. -/
structure NetworkAgent where
  server : ServerState := {}
  storage : String → Option StoredValue := fun _ => none

def NetworkAgent.storedDepth (agent : NetworkAgent) : Option Nat :=
  match agent.storage depthKey with
  | some (.depth depth) => some depth
  | _ => none

/-- A turn of an agent: the delegations that lead to it, one causing the next, and the depth that
the message carries which caused it. -/
structure Turn where
  agent : String
  hops : Nat
  carried : Nat
  deriving DecidableEq, Repr

structure DepthCheck where
  turn : Turn
  depth : Nat
  deriving DecidableEq, Repr

structure Network where
  agents : String → NetworkAgent := fun _ => {}
  turns : List Turn := []
  checks : List DepthCheck := []

/-- `claw:depth` of a message, zero if it has none. -/
def carriedDepth (message : Message) : Nat :=
  match message.metadata.bind fun metadata => metadata.get "claw:depth" with
  | some (.num depth) => depth.toNat
  | _ => 0

/-- What happens in a network: a turn that no agent caused, a delegation in a turn, another step of
a server, and what the client stores. -/
inductive NetworkLabel
  | prompt (agent : String)
  | delegate (turn : Nat) (target : String) (args : DelegateArgs)
    (pushConfig : Option PushNotificationConfig) (taskNanoid sessionNanoid : String) (now : Instant)
  | settle (agent taskId : String) (outcome : Except String String) (now : Instant)
  | cacheCard (agent url name : String) (now : Instant)
  | saveTask (agent : String) (task : PendingTask)
  | deleteTask (agent taskId : String)

namespace Network

def modify (net : Network) (agent : String) (f : NetworkAgent → NetworkAgent) : Network :=
  { net with agents := Function.update net.agents agent (f (net.agents agent)) }

def store (net : Network) (agent key : String) (value : Option StoredValue) : Network :=
  net.modify agent fun a => { a with storage := Function.update a.storage key value }

/-- The request of `call_agent`, or with a push configuration the one of `start_task`. -/
def delegateParams (args : DelegateArgs) (pushConfig : Option PushNotificationConfig)
    (depth : Nat) :
    MessageSendParams :=
  match pushConfig with
  | none => callAgentParams args depth
  | some pushConfig => startTaskParams args depth pushConfig

/-- The message of a delegation arrives; each prompt that it is given to is a turn of its agent. -/
def send (net : Network) (hops : Nat) (target : String) (params : MessageSendParams)
    (taskNanoid sessionNanoid : String) (now : Instant) : Network :=
  let server := (net.agents target).server
  match handleMessage false server params taskNanoid sessionNanoid now with
  | .error _ => net
  | .ok executed =>
    let after := afterMessage false server (.ok executed)
    let net := net.modify target fun a => { a with server := after }
    { net with
      turns := net.turns ++ (after.ran.drop server.ran.length).map fun _ =>
        ⟨target, hops, carriedDepth params.message⟩ }

/-- `call_agent` and `start_task` up to the answer: the check, then the message. -/
def delegate (maxDepth : Nat) (net : Network) (turn : Turn) (target : String) (args : DelegateArgs)
    (pushConfig : Option PushNotificationConfig) (taskNanoid sessionNanoid : String)
    (now : Instant) : Network :=
  let stored := (net.agents turn.agent).storedDepth
  let net := { net with checks := net.checks ++ [⟨turn, stored.getD 0⟩] }
  match checkDepth stored maxDepth with
  | .error _ => net
  | .ok depth =>
    net.send (turn.hops + 1) target (delegateParams args pushConfig depth) taskNanoid
      sessionNanoid now

def step (maxDepth : Nat) (net : Network) : NetworkLabel → Network
  | .prompt agent => { net with turns := net.turns ++ [⟨agent, 0, 0⟩] }
  | .delegate position target args pushConfig taskNanoid sessionNanoid now =>
    match net.turns[position]? with
    | some turn => net.delegate maxDepth turn target args pushConfig taskNanoid sessionNanoid now
    | none => net
  | .settle agent taskId outcome now =>
    net.modify agent fun a => { a with server := a.server.step (.settle taskId outcome now) }
  | .cacheCard agent url name now => net.store agent (agentCardKey url) (some (.agentCard name now))
  | .saveTask agent task => net.store agent (pendingTaskKey task.taskId) (some (.pendingTask task))
  | .deleteTask agent taskId => net.store agent (pendingTaskKey taskId) none

/-- No chain is longer than the bound. -/
def Bounded (maxDepth : Nat) (net : Network) : Prop := ∀ turn ∈ net.turns, turn.hops ≤ maxDepth

/-- Each depth that was checked is the one that the turn's message carries. -/
def ChecksCarried (net : Network) : Prop := ∀ check ∈ net.checks, check.depth = check.turn.carried

def StepBounded (maxDepth : Nat) (net : Network) (label : NetworkLabel) : Prop :=
  (net.step maxDepth label).Bounded maxDepth ∧ (net.step maxDepth label).ChecksCarried

/-- A turn that delegates was not caused by a delegation. -/
def FirstHop (net : Network) : NetworkLabel → Prop
  | .delegate position _ _ _ _ _ _ => ∀ turn, net.turns[position]? = some turn → turn.hops = 0
  | _ => True

/-- What holds of a network in which only first hops have been made: no depth is stored, and a turn
that a delegation caused carries depth one. -/
structure Shallow (maxDepth : Nat) (net : Network) : Prop where
  unstored : ∀ agent, (net.agents agent).storage depthKey = none
  turns : ∀ turn ∈ net.turns,
    turn.hops = 0 ∧ turn.carried = 0 ∨ turn.hops = 1 ∧ turn.carried = 1 ∧ 0 < maxDepth
  checks : net.ChecksCarried

variable {maxDepth : Nat} {net : Network}

theorem Shallow.storedDepth (h : Shallow maxDepth net) (agent : String) :
    (net.agents agent).storedDepth = none := by
  unfold NetworkAgent.storedDepth
  rw [h.unstored]

theorem depthKey_ne_pendingTaskKey (taskId : String) : depthKey ≠ pendingTaskKey taskId := by
  intro h
  have hhead := congrArg (fun key : String => key.toList.head?) h
  simp [depthKey, pendingTaskKey] at hhead

theorem depthKey_ne_agentCardKey (url : String) : depthKey ≠ agentCardKey url := by
  intro h
  have hhead := congrArg (fun key : String => key.toList.head?) h
  simp [depthKey, agentCardKey] at hhead

theorem Shallow.modify (h : Shallow maxDepth net) (agent : String) {f : NetworkAgent → NetworkAgent}
    (hf : ∀ a : NetworkAgent, a.storage depthKey = none → (f a).storage depthKey = none) :
    Shallow maxDepth (net.modify agent f) := by
  refine { h with unstored := fun other => ?_ }
  change (Function.update net.agents agent (f (net.agents agent)) other).storage depthKey = none
  by_cases hother : other = agent
  · rw [hother, update_self]
    exact hf _ (h.unstored agent)
  · rw [update_of_ne hother]
    exact h.unstored other

theorem Shallow.store (h : Shallow maxDepth net) (agent : String) {key : String}
    (hkey : depthKey ≠ key) (value : Option StoredValue) :
    Shallow maxDepth (net.store agent key value) := by
  refine h.modify agent fun a ha => ?_
  change Function.update a.storage key value depthKey = none
  rw [update_of_ne hkey]
  exact ha

theorem carriedDepth_delegateParams (args : DelegateArgs)
    (pushConfig : Option PushNotificationConfig) :
    carriedDepth (delegateParams args pushConfig 0).message = 1 := by
  cases pushConfig with
  | none => rfl
  | some pushConfig => rfl

theorem Shallow.send (h : Shallow maxDepth net) (hbound : 0 < maxDepth) (target : String)
    (args : DelegateArgs) (pushConfig : Option PushNotificationConfig)
    (taskNanoid sessionNanoid : String) (now : Instant) :
    Shallow maxDepth (net.send 1 target (delegateParams args pushConfig 0) taskNanoid sessionNanoid
      now) := by
  unfold Network.send
  simp only
  split
  · exact h
  · rename_i executed _
    have hafter : Shallow maxDepth (net.modify target fun a =>
        { a with server := afterMessage false (net.agents target).server (.ok executed) }) :=
      h.modify target fun _ ha => ha
    refine { hafter with turns := fun turn hturn => ?_ }
    rcases mem_append.mp hturn with hold | hnew
    · exact h.turns turn hold
    · obtain ⟨_, -, rfl⟩ := mem_map.mp hnew
      exact Or.inr ⟨rfl, carriedDepth_delegateParams args pushConfig, hbound⟩

theorem shallow_step {label : NetworkLabel} (hfirst : net.FirstHop label)
    (h : Shallow maxDepth net) : Shallow maxDepth (net.step maxDepth label) := by
  cases label with
  | prompt agent =>
    refine { h with turns := fun turn hturn => ?_ }
    rcases mem_append.mp hturn with hold | hnew
    · exact h.turns turn hold
    · rw [mem_singleton.mp hnew]
      exact Or.inl ⟨rfl, rfl⟩
  | delegate position target args pushConfig taskNanoid sessionNanoid now =>
    unfold step
    simp only
    split
    · rename_i turn hturn
      have hhops := hfirst turn hturn
      have hcarried : turn.carried = 0 := by
        rcases h.turns turn (mem_of_getElem? hturn) with ⟨-, hzero⟩ | ⟨hone, -⟩
        · exact hzero
        · omega
      have hchecked : Shallow maxDepth { net with checks := net.checks ++ [⟨turn, 0⟩] } := by
        refine { h with checks := fun check hcheck => ?_ }
        rcases mem_append.mp hcheck with hold | hnew
        · exact h.checks check hold
        · rw [mem_singleton.mp hnew]
          exact hcarried.symm
      unfold delegate
      rw [h.storedDepth turn.agent, hhops]
      unfold checkDepth
      by_cases hbound : 0 ≥ maxDepth
      · simp only [Option.getD_none, if_pos hbound]
        exact hchecked
      · simp only [Option.getD_none, if_neg hbound]
        exact hchecked.send (by omega) target args pushConfig taskNanoid sessionNanoid now
    · exact h
  | settle agent taskId outcome now =>
    have hafter : Shallow maxDepth (net.modify agent fun a =>
        { a with server := a.server.step (.settle taskId outcome now) }) :=
      h.modify agent fun _ ha => ha
    exact hafter
  | cacheCard agent url name now => exact h.store agent (depthKey_ne_agentCardKey url) _
  | saveTask agent task => exact h.store agent (depthKey_ne_pendingTaskKey task.taskId) _
  | deleteTask agent taskId => exact h.store agent (depthKey_ne_pendingTaskKey taskId) _

theorem Shallow.bounded (h : Shallow maxDepth net) : net.Bounded maxDepth := by
  intro turn hturn
  rcases h.turns turn hturn with ⟨hzero, -⟩ | ⟨hone, -, hbound⟩
  · omega
  · omega

theorem firstHop_of_checksCarried {label : NetworkLabel} (h : Shallow maxDepth net)
    (hchecks : (net.step maxDepth label).ChecksCarried) : net.FirstHop label := by
  cases label with
  | delegate position target args pushConfig taskNanoid sessionNanoid now =>
    intro turn hturn
    have hmem : (⟨turn, 0⟩ : DepthCheck) ∈
        (net.step maxDepth (.delegate position target args pushConfig taskNanoid sessionNanoid
          now)).checks := by
      unfold step
      simp only [hturn]
      unfold delegate
      rw [h.storedDepth turn.agent]
      simp only
      split
      · exact mem_concat_self
      · unfold Network.send
        simp only
        split
        · exact mem_concat_self
        · exact mem_concat_self
    have hcarried := hchecks _ hmem
    rcases h.turns turn (mem_of_getElem? hturn) with ⟨hzero, -⟩ | ⟨-, hone, -⟩
    · exact hzero
    · rw [show turn.carried = 0 from hcarried.symm] at hone
      cases hone
  | _ => trivial

/-- Chains stay within the bound and checks read what the messages carry, through a run, exactly
when no turn that a delegation caused delegates on. -/
theorem depth_bounded_iff (maxDepth : Nat) (labels : List NetworkLabel) :
    Run.Allowed (StepBounded maxDepth) (step maxDepth) {} labels ↔
      Run.Allowed FirstHop (step maxDepth) {} labels := by
  have hstart : Shallow maxDepth {} :=
    ⟨fun _ => rfl, fun _ h => absurd h not_mem_nil, fun _ h => absurd h not_mem_nil⟩
  refine Run.allowed_congr hstart ?_ ?_ labels
  · intro net label h
    refine ⟨fun hstep => firstHop_of_checksCarried h hstep.2, fun hfirst => ?_⟩
    have hafter := shallow_step hfirst h
    exact ⟨hafter.bounded, hafter.checks⟩
  · exact fun net label h hfirst => shallow_step hfirst h

def delegateOn (turn : Nat) (target : String) : NetworkLabel :=
  .delegate turn target { message := "go on", messageId := "m" } none ("task-" ++ target)
    ("session-" ++ target) 0

/-- With a bound of one, three agents form a chain of two hops. -/
theorem chain_too_long :
    ((step 1 (step 1 (step 1 {} (.prompt "a")) (delegateOn 0 "b")) (delegateOn 1 "c")).turns).map
        Turn.hops = [0, 1, 2] ∧
      ¬ ∀ maxDepth labels, Run.Allowed (StepBounded maxDepth) (step maxDepth) {} labels := by
  have hturns : ((step 1 (step 1 (step 1 {} (.prompt "a")) (delegateOn 0 "b"))
      (delegateOn 1 "c")).turns) = [⟨"a", 0, 0⟩, ⟨"b", 1, 1⟩, ⟨"c", 2, 1⟩] := by
    decide
  refine ⟨by rw [hturns]; rfl, fun hall => ?_⟩
  have hstep := hall 1 [.prompt "a", delegateOn 0 "b", delegateOn 1 "c"]
    [.prompt "a", delegateOn 0 "b"] _ [] rfl
  have hbound := hstep.1 ⟨"c", 2, 1⟩ (by
    change _ ∈ (step 1 (step 1 (step 1 {} (.prompt "a")) (delegateOn 0 "b"))
      (delegateOn 1 "c")).turns
    rw [hturns]
    decide)
  revert hbound
  decide

end Network

end CrabbyKit.A2A
