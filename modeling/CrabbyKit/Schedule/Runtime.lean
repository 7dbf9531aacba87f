import CrabbyKit.Schedule.Cron
import CrabbyKit.Schedule.Store

/-!
# Schedule operations of the agent runtime

The schedule manager, the synchronisation of capability schedules and the spine's schedule
and alarm calls of `agent-runtime.ts`, over the schedule store and the one wake time of the
platform. A call that throws keeps what it wrote before.
-/

namespace CrabbyKit

/-- A callback function, known by its identity. -/
abbrev Callback := Nat

structure PromptScheduleConfig where
  id : String
  name : String
  cron : String
  enabled : Option Bool := none
  timezone : Option String := none
  maxDuration : Option String := none
  prompt : String
  sessionPrefix : Option String := none
  retention : Option Int := none
  deriving DecidableEq, Repr

structure CallbackScheduleConfig where
  id : String
  name : String
  cron : String
  enabled : Option Bool := none
  timezone : Option String := none
  maxDuration : Option String := none
  callback : Callback
  retention : Option Int := none
  deriving DecidableEq, Repr

/-- Configuration of a timer; its delay is read by nobody here. -/
structure TimerScheduleConfig where
  id : String
  callback : Callback
  deriving DecidableEq, Repr

inductive ScheduleConfig
  | prompt (config : PromptScheduleConfig)
  | callback (config : CallbackScheduleConfig)
  | timer (config : TimerScheduleConfig)
  deriving DecidableEq, Repr

/-- What `updateSchedule` may change. -/
structure ScheduleChanges where
  name : Option String := none
  cron : Option String := none
  enabled : Option Bool := none
  prompt : Option String := none
  sessionPrefix : Option String := none
  timezone : Option (Option String) := none
  retention : Option Int := none
  deriving DecidableEq, Repr

/-- The schedule table, the maps of callbacks and timer owners, and the wake time the
platform holds. -/
structure ScheduleRuntime where
  store : ScheduleStore := {}
  callbacks : List (String × Callback) := []
  timerOwners : List (String × String) := []
  wakeTime : Option Instant := none
  deriving DecidableEq, Repr

/-- A schedule operation; the delay of a timer is in milliseconds, and absent when the fire
time it leads to is no date. -/
inductive ScheduleOp
  | createSchedule (config : PromptScheduleConfig)
  | updateSchedule (id : String) (updates : ScheduleChanges)
  | deleteSchedule (id : String)
  | setTimer (id : String) (delay : Option Int) (callback : Option Callback)
  | cancelTimer (id : String)
  | syncCapabilitySchedules (declarations : List (ScheduleConfig × String))
  | spineScheduleCreate (schedule : CreateConfig)
  | spineScheduleUpdate (scheduleId : String) (patch : ScheduleUpdates)
  | spineScheduleDelete (scheduleId : String)
  | spineAlarmSet (timestamp : Instant)
  deriving DecidableEq, Repr

/-- One call: the operation, the id `nanoid()` yields to it, and the clock. -/
structure ScheduleCall where
  op : ScheduleOp
  nanoid : String
  now : Instant
  deriving DecidableEq, Repr

namespace ScheduleRuntime

variable (zones : Cron.Zones)

/-- `Map.set`. -/
def setKey {β : Type} (entries : List (String × β)) (key : String) (value : β) :
    List (String × β) :=
  entries.filter (fun e => e.1 ≠ key) ++ [(key, value)]

/-- `Map.delete`. -/
def deleteKey {β : Type} (entries : List (String × β)) (key : String) : List (String × β) :=
  entries.filter fun e => e.1 ≠ key

/-- Set the wake time to the earliest fire time, or cancel it. -/
def refreshAlarm (s : ScheduleRuntime) : ScheduleRuntime :=
  { s with wakeTime := s.store.getEarliestFireTime }

/-- A nullable text that is neither absent nor empty. -/
def truthy : Option String → Option String
  | some text => if text = "" then none else some text
  | none => none

def expiry (maxDuration : Option String) (now : Instant) : Except String (Option Instant) :=
  match truthy maxDuration with
  | none => .ok none
  | some duration => (Cron.expiresAtFromDuration duration now).map some

def promptRow (config : PromptScheduleConfig) (ownerId : Option String) (enabled : Option Bool)
    (now : Instant) : Except String CreateConfig := do
  let next ← Cron.nextFireTime zones config.cron now config.timezone
  let expiresAt ← expiry config.maxDuration now
  return {
    id := some config.id
    name := config.name
    cron := config.cron
    enabled := enabled
    handlerType := .prompt
    prompt := some config.prompt
    sessionPrefix := config.sessionPrefix
    ownerId := ownerId
    timezone := config.timezone
    expiresAt := expiresAt
    nextFireAt := some next
    retention := config.retention }

def callbackRow (config : CallbackScheduleConfig) (ownerId : String) (now : Instant) :
    Except String CreateConfig := do
  let next ← Cron.nextFireTime zones config.cron now config.timezone
  let expiresAt ← expiry config.maxDuration now
  return {
    id := some config.id
    name := config.name
    cron := config.cron
    enabled := some (config.enabled.getD true)
    handlerType := .callback
    ownerId := some ownerId
    timezone := config.timezone
    expiresAt := expiresAt
    nextFireAt := some next
    retention := config.retention }

/-- Insert a computed row; a failure throws and changes nothing. -/
def insert (row : Except String CreateConfig) (nanoid : String) (now : Instant)
    (s : ScheduleRuntime) : ScheduleRuntime × Option String :=
  match row with
  | .error e => (s, some e)
  | .ok config =>
    match s.store.create config nanoid now with
    | .error e => (s, some e)
    | .ok (store, _) => ({ s with store := store }, none)

/-- Refresh the alarm unless something was thrown. -/
def thenRefresh (outcome : ScheduleRuntime × Option String) : ScheduleRuntime × Option String :=
  match outcome with
  | (s, none) => (s.refreshAlarm, none)
  | (s, some e) => (s, some e)

def createSchedule (config : PromptScheduleConfig) (nanoid : String) (now : Instant)
    (s : ScheduleRuntime) : ScheduleRuntime × Option String :=
  thenRefresh (s.insert (promptRow zones config none config.enabled now) nanoid now)

/-- Whether a schedule belongs to a capability. -/
def owned (s : ScheduleRuntime) (id : String) : Bool :=
  (s.store.get id).any fun row => row.ownerId.isSome

def recomputed (updates : ScheduleChanges) (existing : Option Schedule) (now : Instant) :
    Except String (Option Instant) :=
  if (truthy updates.cron).isSome ∨ updates.timezone.isSome then
    let cron := updates.cron.getD ((existing.map Schedule.cron).getD "* * * * *")
    let timezone := updates.timezone.getD (existing.bind Schedule.timezone)
    (Cron.nextFireTime zones cron now timezone).map some
  else .ok none

def rowUpdates (updates : ScheduleChanges) (nextFireAt : Option Instant) : ScheduleUpdates where
  name := updates.name
  cron := updates.cron
  enabled := updates.enabled
  prompt := updates.prompt
  sessionPrefix := updates.sessionPrefix
  timezone := updates.timezone
  nextFireAt := nextFireAt.map some
  retention := updates.retention

def updateSchedule (id : String) (updates : ScheduleChanges) (now : Instant)
    (s : ScheduleRuntime) : ScheduleRuntime × Option String :=
  if s.owned id then (s, none)
  else
    match recomputed zones updates (s.store.get id) now with
    | .error e => (s, some e)
    | .ok nextFireAt =>
      match s.store.update id (rowUpdates updates nextFireAt) now with
      | (store, some _) => (refreshAlarm { s with store := store }, none)
      | (store, none) => ({ s with store := store }, none)

def deleteSchedule (id : String) (s : ScheduleRuntime) : ScheduleRuntime × Option String :=
  if s.owned id then (s, none)
  else
    (refreshAlarm { s with
      store := s.store.delete id
      callbacks := deleteKey s.callbacks id }, none)

def timerDummyCron : String := "0 0 1 1 *"

def timerRow (s : ScheduleRuntime) (id : String) (firesAt : Instant) : CreateConfig where
  id := some id
  name := id
  cron := timerDummyCron
  handlerType := .timer
  nextFireAt := some firesAt
  ownerId := s.timerOwners.lookup id

/-- Arm a timer: an existing schedule of the id goes first, then the new one is created. -/
def setTimer (id : String) (delay : Option Int) (callback : Option Callback) (nanoid : String)
    (now : Instant) (s : ScheduleRuntime) : ScheduleRuntime × Option String :=
  let existingCallback := s.callbacks.lookup id
  let s := { s with store := s.store.delete id }
  match callback.or existingCallback with
  | none => (s, some s!"setTimer(\"{id}\"): no callback provided and no existing callback found")
  | some resolved =>
    match delay with
    | none => (s, some "Invalid time value")
    | some delay =>
      match s.insert (.ok (s.timerRow id (now + delay))) nanoid now with
      | (s, some e) => (s, some e)
      | (s, none) =>
        (refreshAlarm { s with callbacks := setKey s.callbacks id resolved }, none)

def cancelTimer (id : String) (s : ScheduleRuntime) : ScheduleRuntime × Option String :=
  let isTimer := (s.store.get id).any fun row => row.handlerType = .timer
  let s := if isTimer then { s with store := s.store.delete id } else s
  (refreshAlarm { s with callbacks := deleteKey s.callbacks id }, none)

/-- Create a declared schedule, or follow a changed expression or zone. -/
def syncRow (id cron : String) (timezone : Option String) (row : Except String CreateConfig)
    (nanoid : String) (now : Instant) (s : ScheduleRuntime) : ScheduleRuntime × Option String :=
  match s.store.get id with
  | none => s.insert row nanoid now
  | some existing =>
    if existing.cron = cron ∧ existing.timezone = timezone then (s, none)
    else
      match Cron.nextFireTime zones cron now timezone with
      | .error e => (s, some e)
      | .ok next =>
        ({ s with
          store := (s.store.update id
            { cron := some cron, timezone := some timezone, nextFireAt := some (some next) }
            now).1 }, none)

def syncOne (declaration : ScheduleConfig × String) (nanoid : String) (now : Instant)
    (s : ScheduleRuntime) : ScheduleRuntime × Option String :=
  match declaration with
  | (.timer config, ownerId) =>
    ({ s with
      callbacks := setKey s.callbacks config.id config.callback
      timerOwners := setKey s.timerOwners config.id ownerId }, none)
  | (.prompt config, ownerId) =>
    s.syncRow zones config.id config.cron config.timezone
      (promptRow zones config (some ownerId) (some (config.enabled.getD true)) now) nanoid now
  | (.callback config, ownerId) =>
    let s := { s with callbacks := setKey s.callbacks config.id config.callback }
    s.syncRow zones config.id config.cron config.timezone
      (callbackRow zones config ownerId now) nanoid now

/-- Synchronise the declared schedules in order, up to the first that throws. -/
def syncAll (nanoid : String) (now : Instant) :
    List (ScheduleConfig × String) → ScheduleRuntime → ScheduleRuntime × Option String
  | [], s => (s, none)
  | declaration :: rest, s =>
    match s.syncOne zones declaration nanoid now with
    | (s, some e) => (s, some e)
    | (s, none) => syncAll nanoid now rest s

def spineScheduleCreate (schedule : CreateConfig) (nanoid : String) (now : Instant)
    (s : ScheduleRuntime) : ScheduleRuntime × Option String :=
  s.insert (.ok schedule) nanoid now

def spineScheduleUpdate (scheduleId : String) (patch : ScheduleUpdates) (now : Instant)
    (s : ScheduleRuntime) : ScheduleRuntime × Option String :=
  ({ s with store := (s.store.update scheduleId patch now).1 }, none)

def spineScheduleDelete (scheduleId : String) (s : ScheduleRuntime) :
    ScheduleRuntime × Option String :=
  ({ s with store := s.store.delete scheduleId }, none)

/-- Set the wake time for a bundle. -/
def spineAlarmSet (timestamp : Instant) (s : ScheduleRuntime) : ScheduleRuntime × Option String :=
  ({ s with wakeTime := some timestamp }, none)

/-- Carry out a call: the state it leaves and what it threw. -/
def exec (c : ScheduleCall) (s : ScheduleRuntime) : ScheduleRuntime × Option String :=
  match c.op with
  | .createSchedule config => s.createSchedule zones config c.nanoid c.now
  | .updateSchedule id updates => s.updateSchedule zones id updates c.now
  | .deleteSchedule id => s.deleteSchedule id
  | .setTimer id delay callback => s.setTimer id delay callback c.nanoid c.now
  | .cancelTimer id => s.cancelTimer id
  | .syncCapabilitySchedules declarations =>
    thenRefresh (s.syncAll zones c.nanoid c.now declarations)
  | .spineScheduleCreate schedule => s.spineScheduleCreate schedule c.nanoid c.now
  | .spineScheduleUpdate scheduleId patch => s.spineScheduleUpdate scheduleId patch c.now
  | .spineScheduleDelete scheduleId => s.spineScheduleDelete scheduleId
  | .spineAlarmSet timestamp => s.spineAlarmSet timestamp

end ScheduleRuntime

end CrabbyKit

/-!
## Firing the alarm

`handleAlarmFired` of `agent-runtime.ts`. What callbacks, fire hooks and scheduled prompts
do is given: the schedule operations carried out while they run, by themselves or by others
meanwhile, and whether they return or throw.
-/

namespace CrabbyKit

/-- What happens while user code runs: the calls made meanwhile, and how it ends. -/
structure Script (α : Type) where
  calls : List ScheduleCall := []
  outcome : Except String α

structure HookResult where
  skip : Bool := false
  prompt : Option String := none
  deriving DecidableEq, Repr

/-- One firing of the alarm: its clock, and what hooks, prompts and callbacks do in it. -/
structure Firing where
  now : Instant
  /-- The callbacks that capabilities declare, registered when none is registered. -/
  declared : List (String × Callback) := []
  onScheduleFire : Option (Schedule → Script (Option HookResult)) := none
  bundleAlarmHandler : Option (Schedule → Script (Option HookResult)) := none
  runPrompt : Schedule → String → Script Unit := fun _ _ => ⟨[], .ok ()⟩
  runCallback : Callback → Schedule → Script Unit := fun _ _ => ⟨[], .ok ()⟩

namespace ScheduleRuntime

variable (zones : Cron.Zones) (w : Firing)

/-- Carry out calls in order; what they throw is their caller's. -/
def runCalls (calls : List ScheduleCall) (s : ScheduleRuntime) : ScheduleRuntime :=
  calls.foldl (fun s c => (exec zones c s).1) s

/-- Register the declared callbacks when none is registered. -/
def ensureScheduleCallbacks (s : ScheduleRuntime) : ScheduleRuntime :=
  if s.callbacks = [] then
    { s with callbacks := w.declared.foldl (fun entries e => setKey entries e.1 e.2) [] }
  else s

def executeScheduledCallback (schedule : Schedule) (s : ScheduleRuntime) :
    ScheduleRuntime × Except String Unit :=
  let s := s.ensureScheduleCallbacks w
  match s.callbacks.lookup schedule.id with
  | none => (s, .error s!"No callback registered for schedule \"{schedule.id}\"")
  | some callback =>
    let script := w.runCallback callback schedule
    (runCalls zones script.calls s, script.outcome)

def executeScheduledPrompt (schedule : Schedule) (prompt : String) (s : ScheduleRuntime) :
    ScheduleRuntime × Except String Unit :=
  let script := w.runPrompt schedule prompt
  (runCalls zones script.calls s, script.outcome)

/-- Note the end of an execution. -/
def finish (schedule : Schedule) (outcome : ScheduleRuntime × Except String Unit) :
    ScheduleRuntime :=
  match outcome with
  | (s, .ok ()) => { s with store := s.store.markIdle schedule.id w.now }
  | (s, .error e) => { s with store := s.store.markFailed schedule.id e w.now }

def drop (id : String) (s : ScheduleRuntime) : ScheduleRuntime :=
  { s with store := s.store.delete id, callbacks := deleteKey s.callbacks id }

/-- Run a due timer: it goes when its callback returns. -/
def fireTimer (schedule : Schedule) (s : ScheduleRuntime) : ScheduleRuntime :=
  let s := { s with store := s.store.markRunning schedule.id w.now }
  match executeScheduledCallback zones w schedule s with
  | (s, .ok ()) => s.drop schedule.id
  | (s, .error e) => { s with store := s.store.markFailed schedule.id e w.now }

def askHook (hook : Option (Schedule → Script (Option HookResult))) (schedule : Schedule)
    (s : ScheduleRuntime) : ScheduleRuntime × Except String (Option HookResult) :=
  match hook with
  | none => (s, .ok none)
  | some ask => (runCalls zones (ask schedule).calls s, (ask schedule).outcome)

/-- Run a due prompt or callback schedule whose fire time has moved on, as its hooks
answered; the bundle's answer comes first, and the failure of its handler is only logged. -/
def runAnswered (schedule : Schedule) (static bundle : Option HookResult) (s : ScheduleRuntime) :
    ScheduleRuntime :=
  if static.any HookResult.skip || bundle.any HookResult.skip then s
  else
    let overridePrompt := (bundle.bind HookResult.prompt).or (static.bind HookResult.prompt)
    let s := { s with store := s.store.markRunning schedule.id w.now }
    match schedule.handlerType with
    | .prompt =>
      match truthy (overridePrompt.or schedule.prompt) with
      | some prompt => finish w schedule (executeScheduledPrompt zones w schedule prompt s)
      | none => finish w schedule (s, .ok ())
    | _ => finish w schedule (executeScheduledCallback zones w schedule s)

/-- Fire a due prompt or callback schedule. Neither the computation of its next fire time
nor its own hook is guarded. -/
def fireRecurring (schedule : Schedule) (s : ScheduleRuntime) : ScheduleRuntime × Option String :=
  match Cron.nextFireTime zones schedule.cron w.now schedule.timezone with
  | .error e => (s, some e)
  | .ok next =>
    let store := (s.store.update schedule.id { nextFireAt := some (some next) } w.now).1
    match askHook zones w.onScheduleFire schedule { s with store := store } with
    | (s, .error e) => (s, some e)
    | (s, .ok static) =>
      let (s, answer) := askHook zones w.bundleAlarmHandler schedule s
      let bundle := match answer with
        | .ok result => result
        | .error _ => none
      (runAnswered zones w schedule static bundle s, none)

def expired (schedule : Schedule) : Bool := schedule.expiresAt.any (· ≤ w.now)

/-- Process one due schedule: the state it leaves, and what it threw out of the loop. -/
def fireOne (schedule : Schedule) (s : ScheduleRuntime) : ScheduleRuntime × Option String :=
  if expired w schedule then (s.drop schedule.id, none)
  else
    match schedule.handlerType with
    | .timer => (fireTimer zones w schedule s, none)
    | _ => fireRecurring zones w schedule s

/-- The schedules processed to their end, the state left, and what was thrown. -/
structure Fired where
  attempted : List String
  runtime : ScheduleRuntime
  thrown : Option String

/-- Process due schedules in order, up to the first that throws. -/
def fireAll : List Schedule → ScheduleRuntime → Fired
  | [], s => ⟨[], s, none⟩
  | schedule :: rest, s =>
    match fireOne zones w schedule s with
    | (s, some e) => ⟨[], s, some e⟩
    | (s, none) =>
      let later := fireAll rest s
      { later with attempted := schedule.id :: later.attempted }

def handleAlarmFired (s : ScheduleRuntime) : Fired :=
  let fired := fireAll zones w (s.store.getDueSchedules w.now) s
  match fired.thrown with
  | some _ => fired
  | none => { fired with runtime := fired.runtime.refreshAlarm }

end ScheduleRuntime

end CrabbyKit
