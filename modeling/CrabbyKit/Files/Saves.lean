import CrabbyKit.Core.Run
import CrabbyKit.Files.Tools

/-!
# Saves of an editor

`ui-bridge.ts`: editors read files with an etag and send it back when they save. Each call of
the bucket is a step of its own, so that the saves of several clients and the tools of the agent
interleave. An etag is a hash of the content, of which only the results are compared.
-/

namespace CrabbyKit.Files

def editorByteLimit : Nat := 512 * 1024

def binaryProbeBytes : Nat := 8192

def isLikelyBinary (bytes : List UInt8) : Bool := (bytes.take binaryProbeBytes).any (· = 0)

structure FileContent where
  path : String
  content : String := ""
  etag : String := ""
  isBinary : Bool := false
  isLarge : Bool := false
  largeSize : Option Nat := none
  deriving DecidableEq, Repr

/-- What the bridge broadcasts. -/
inductive Event
  | fileContent (file : FileContent)
  | fileSaved (path etag : String)
  | fileConflict (path reason : String)
  | fileChanged (path : String)
  | fileError (action : String) (path : Option String) (message : String)
  deriving DecidableEq, Repr

def readFile (etag : String → String) (bucket : Bucket) (path : String) :
    Except String FileContent :=
  match validatePath path with
  | .error error => .error error
  | .ok normalizedPath =>
    match bucket normalizedPath with
    | none => .error s!"File not found: {normalizedPath}"
    | some content =>
      let bytes := encodeText content
      if isLikelyBinary bytes then .ok { path := normalizedPath, isBinary := true }
      else if editorByteLimit < bytes.length then
        .ok { path := normalizedPath, isLarge := true, largeSize := some bytes.length }
      else .ok { path := normalizedPath, content := decodeText bytes, etag := etag content }

/-- A content on its way into the bucket, with the etag that an editor expects to replace. -/
structure Write where
  key : String
  content : String
  fromEditor : Bool
  expectedEtag : Option String := none
  deriving DecidableEq, Repr

/-- What an action of an editor or a tool of the agent does next. -/
inductive Task
  /-- `currentEtag`. -/
  | checking (write : Write)
  /-- Markers are looked for in these directories, and then the content is put. -/
  | marking (write : Write) (dirs : List String)
  | markingDir (write : Write) (dir : String) (dirs : List String)
  /-- The content was put over this one. -/
  | saved (write : Write) (replaced : Option String)
  | editing (key oldString newString : String) (replaceAll : Option Bool)
  | deleting (key : String)
  deriving DecidableEq, Repr

structure Acknowledged where
  write : Write
  replaced : Option String
  deriving DecidableEq, Repr

/-- The bucket, the tasks under way by the order of their start, and what was broadcast. -/
structure Bridge where
  bucket : Bucket := fun _ => none
  tasks : Nat → Option Task := fun _ => none
  started : Nat := 0
  events : List Event := []
  acknowledged : List Acknowledged := []

/-- What clients and the agent ask for, and which task goes on. -/
inductive Request
  | read (path : String)
  | write (path content : String) (etag : Option String)
  | fileWrite (path content : String)
  | fileEdit (path oldString newString : String) (replaceAll : Option Bool)
  | fileDelete (path : String)
  | advance (task : Nat)

namespace Bridge

def emit (s : Bridge) (events : List Event) : Bridge := { s with events := s.events ++ events }

def start (s : Bridge) (task : Task) : Bridge :=
  { s with tasks := Function.update s.tasks s.started (some task), started := s.started + 1 }

def become (s : Bridge) (i : Nat) (task : Option Task) : Bridge :=
  { s with tasks := Function.update s.tasks i task }

def put (s : Bridge) (key : String) (content : Option String) : Bridge :=
  { s with bucket := Function.update s.bucket key content }

variable (etag : String → String)

def advance (s : Bridge) (i : Nat) : Task → Bridge
  | .checking write =>
    let stale := match s.bucket write.key, write.expectedEtag with
      | some content, some expected => decide (etag content ≠ expected)
      | _, _ => false
    if stale then
      (s.become i none).emit [.fileConflict write.key "File was modified since you opened it."]
    else s.become i (some (.marking write (parentDirs write.key)))
  | .marking write [] =>
    (s.put write.key (some write.content)).become i (some (.saved write (s.bucket write.key)))
  | .marking write (dir :: dirs) =>
    if s.bucket dir = none then s.become i (some (.markingDir write dir dirs))
    else s.become i (some (.marking write dirs))
  | .markingDir write dir dirs => (s.put dir (some "")).become i (some (.marking write dirs))
  | .saved write replaced =>
    let saved := if write.fromEditor then [Event.fileSaved write.key (etag write.content)] else []
    { (s.become i none).emit (saved ++ [.fileChanged write.key]) with
      acknowledged := s.acknowledged ++ [⟨write, replaced⟩] }
  | .editing key oldString newString replaceAll =>
    match s.bucket key with
    | none => (s.become i none).emit [.fileChanged key]
    | some content =>
      match editContent key oldString newString replaceAll content with
      | none => s
      | some (_, none) => (s.become i none).emit [.fileChanged key]
      | some (_, some newContent) =>
        s.become i (some (.marking { key, content := newContent, fromEditor := false } []))
  | .deleting key => ((s.put key none).become i none).emit [.fileChanged key]

def callTool (s : Bridge) (path : String) (called : String → Bridge) : Bridge :=
  match validatePath path with
  | .error _ => s
  | .ok key => called key

def step (s : Bridge) : Request → Bridge
  | .read path =>
    if path = "" then s.emit [.fileError "read" none "A path is required."]
    else
      match readFile etag s.bucket path with
      | .error message => s.emit [.fileError "read" (some path) message]
      | .ok file => s.emit [.fileContent file]
  | .write path content expectedEtag =>
    if path = "" then s.emit [.fileError "write" none "A path is required."]
    else
      match validatePath path with
      | .error message => s.emit [.fileError "write" (some path) message]
      | .ok key => s.start (.checking { key, content, fromEditor := true, expectedEtag })
  | .fileWrite path content =>
    s.callTool path fun key =>
      if maxContentBytes < (encodeText content).length then s.emit [.fileChanged key]
      else s.start (.marking { key, content, fromEditor := false } (parentDirs key))
  | .fileEdit path oldString newString replaceAll =>
    s.callTool path fun key =>
      if oldString = newString then s.emit [.fileChanged key]
      else s.start (.editing key oldString newString replaceAll)
  | .fileDelete path => s.callTool path fun key => s.start (.deleting key)
  | .advance i =>
    match s.tasks i with
    | none => s
    | some task => s.advance etag i task

end Bridge

end CrabbyKit.Files

/-!
## Saves that are not lost

A save that was checked goes on to put its content whatever happened to the file meanwhile. It
replaces the content that its editor read exactly when the file was there at the check and no
other task put something else in its place before the save did.
-/

namespace CrabbyKit.Files

variable (etag : String → String)

/-- The key and the etag that a checked save relies on until it puts its content. -/
def Task.guards : Task → Option (String × String)
  | .marking write _ => write.expectedEtag.map fun expected => (write.key, expected)
  | .markingDir write _ _ => write.expectedEtag.map fun expected => (write.key, expected)
  | _ => none

/-- The key that the next step of a task changes, with what it leaves there. -/
def Task.lands : Task → Option (String × Option String)
  | .marking write [] => some (write.key, some write.content)
  | .markingDir _ dir _ => some (dir, some "")
  | .deleting key => some (key, none)
  | _ => none

def Write.Expected (write : Write) (replaced : Option String) : Prop :=
  ∀ expected, write.expectedEtag = some expected → replaced.map etag = some expected

namespace Bridge

/-- Every acknowledged save replaced the content with the etag that it expected, and so would every
save that was checked if its turn came now. -/
structure NoLostSave (s : Bridge) : Prop where
  acknowledged : ∀ ack ∈ s.acknowledged, ack.write.Expected etag ack.replaced
  saved : ∀ i write replaced, s.tasks i = some (.saved write replaced) →
    write.Expected etag replaced
  pending : ∀ i task key expected, s.tasks i = some task → task.guards = some (key, expected) →
    (s.bucket key).map etag = some expected

/-- The file of a save with an expected etag is there when the save is checked, and what a task
leaves at a key has the etag that the other saves checked for that key expect. -/
def Undisturbed (s : Bridge) : Request → Prop
  | .advance i =>
    (∀ write, s.tasks i = some (.checking write) → write.expectedEtag.isSome →
      (s.bucket write.key).isSome) ∧
    ∀ task key content, s.tasks i = some task → task.lands = some (key, content) →
      ∀ j other expected, s.tasks j = some other → other.guards = some (key, expected) →
        (∃ write, j = i ∧ task = .marking write []) ∨ content.map etag = some expected
  | _ => True

variable {etag} {s : Bridge} {i : Nat}

variable {events : List Event}

theorem noLostSave_become {task : Option Task} {bucket : Bucket}
    {acknowledged : List Acknowledged} {started : Nat} (h : NoLostSave etag s) :
    NoLostSave etag
        ⟨bucket, Function.update s.tasks i task, started, events, acknowledged⟩ ↔
      (∀ ack ∈ acknowledged, ack.write.Expected etag ack.replaced) ∧
        (∀ write replaced, task = some (.saved write replaced) → write.Expected etag replaced) ∧
        (∀ key expected, task.bind Task.guards = some (key, expected) →
          (bucket key).map etag = some expected) ∧
        ∀ j other key expected, j ≠ i → s.tasks j = some other →
          other.guards = some (key, expected) → (bucket key).map etag = some expected := by
  constructor
  · intro hafter
    refine ⟨hafter.acknowledged, fun write replaced htask => ?_, fun key expected hguards => ?_, ?_⟩
    · exact hafter.saved i write replaced (by simpa using htask)
    · obtain ⟨other, hother, hguards⟩ := Option.bind_eq_some_iff.mp hguards
      exact hafter.pending i other key expected (by simpa using hother) hguards
    · intro j other key expected hne hother hguards
      exact hafter.pending j other key expected (by simpa [hne] using hother) hguards
  · rintro ⟨hacknowledged, hsaved, hown, hothers⟩
    refine ⟨hacknowledged, fun j write replaced htask => ?_,
      fun j other key expected hother hguards => ?_⟩
    · by_cases hji : j = i
      · subst hji
        exact hsaved write replaced (by simpa using htask)
      · exact h.saved j write replaced (by simpa [hji] using htask)
    · by_cases hji : j = i
      · subst hji
        refine hown key expected ?_
        have htask : task = some other := by simpa using hother
        rw [htask, Option.bind_some, hguards]
      · exact hothers j other key expected hji (by simpa [hji] using hother) hguards

theorem NoLostSave.become_plain {task : Option Task} {started : Nat}
    (h : NoLostSave etag s) (hguards : task.bind Task.guards = none)
    (hsaved : ∀ write replaced, task ≠ some (.saved write replaced)) :
    NoLostSave etag
      ⟨s.bucket, Function.update s.tasks i task, started, events, s.acknowledged⟩ := by
  refine (noLostSave_become h).mpr ⟨h.acknowledged, fun write replaced htask => ?_, ?_, ?_⟩
  · exact absurd htask (hsaved write replaced)
  · intro key expected hsome
    rw [hguards] at hsome
    cases hsome
  · exact fun j other key expected _ hother => h.pending j other key expected hother

theorem NoLostSave.request {request : Request} (h : NoLostSave etag s)
    (hrequest : ∀ i, request ≠ .advance i) : NoLostSave etag (s.step etag request) := by
  have hemit : ∀ events, NoLostSave etag (s.emit events) := fun events => ⟨h.1, h.2, h.3⟩
  have hstart : ∀ task : Task, task.guards = none →
      (∀ write replaced, task ≠ .saved write replaced) → NoLostSave etag (s.start task) :=
    fun task hguards hsaved => h.become_plain hguards fun write replaced htask =>
      hsaved write replaced (Option.some.inj htask)
  cases request with
  | read path =>
    simp only [step]
    split
    · exact hemit _
    · split
      · exact hemit _
      · exact hemit _
  | write path content expectedEtag =>
    simp only [step]
    split
    · exact hemit _
    · split
      · exact hemit _
      · exact hstart _ rfl fun _ _ => by simp
  | fileWrite path content =>
    simp only [step, callTool]
    split
    · exact h
    · split
      · exact hemit _
      · exact hstart _ rfl fun _ _ => by simp
  | fileEdit path oldString newString replaceAll =>
    simp only [step, callTool]
    split
    · exact h
    · split
      · exact hemit _
      · exact hstart _ rfl fun _ _ => by simp
  | fileDelete path =>
    simp only [step, callTool]
    split
    · exact h
    · exact hstart _ rfl fun _ _ => by simp
  | advance i => exact absurd rfl (hrequest i)

variable {content : Option String}

theorem relied_iff {key : String} (h : NoLostSave etag s) (who : Nat → Prop) :
    (∀ j other relied expected, who j → s.tasks j = some other →
        other.guards = some (relied, expected) →
        (Function.update s.bucket key content relied).map etag = some expected) ↔
      ∀ j other expected, who j → s.tasks j = some other → other.guards = some (key, expected) →
        content.map etag = some expected := by
  constructor
  · intro hafter j other expected hj hother hguards
    simpa using hafter j other key expected hj hother hguards
  · intro hleft j other relied expected hj hother hguards
    by_cases hkey : relied = key
    · subst hkey
      rw [Function.update_self]
      exact hleft j other expected hj hother hguards
    · rw [Function.update_of_ne hkey]
      exact h.pending j other relied expected hother hguards

variable {task : Task}

theorem undisturbed_of (htask : s.tasks i = some task) (hlands : task.lands = none)
    (hcheck : ∀ write, task = .checking write → write.expectedEtag.isSome →
      (s.bucket write.key).isSome) : Undisturbed etag s (.advance i) := by
  refine ⟨fun write hwrite => hcheck write ?_, fun other key content hother hsome => ?_⟩
  · exact Option.some.inj (htask.symm.trans hwrite)
  · obtain rfl : task = other := Option.some.inj (htask.symm.trans hother)
    rw [hlands] at hsome
    cases hsome

theorem undisturbed_lands_iff {key : String}
    (htask : s.tasks i = some task) (hlands : task.lands = some (key, content)) :
    Undisturbed etag s (.advance i) ↔
      ∀ j other expected, ¬ (∃ write, j = i ∧ task = .marking write []) → s.tasks j = some other →
        other.guards = some (key, expected) → content.map etag = some expected := by
  constructor
  · intro h j other expected hother hj hguards
    exact (h.2 task key content htask hlands j other expected hj hguards).resolve_left hother
  · intro h
    refine ⟨fun write hwrite => ?_, fun other k c hother hsome j waiting expected hj hguards => ?_⟩
    · obtain rfl : task = .checking write := Option.some.inj (htask.symm.trans hwrite)
      cases hlands
    · obtain rfl : task = other := Option.some.inj (htask.symm.trans hother)
      rw [hlands] at hsome
      obtain ⟨rfl, rfl⟩ := Prod.mk.inj (Option.some.inj hsome)
      exact (Classical.em _).imp_right fun hnot => h j waiting expected hnot hj hguards

theorem advance_checking_iff {write : Write} (h : NoLostSave etag s)
    (htask : s.tasks i = some (.checking write)) :
    NoLostSave etag (s.advance etag i (.checking write)) ↔ Undisturbed etag s (.advance i) := by
  have hcondition : Undisturbed etag s (.advance i) ↔
      (write.expectedEtag.isSome → (s.bucket write.key).isSome) := by
    constructor
    · exact fun hundisturbed => hundisturbed.1 write htask
    · intro hcheck
      refine undisturbed_of htask rfl fun other hother => ?_
      obtain rfl := Task.checking.inj hother
      exact hcheck
  rw [hcondition]
  -- The save goes on exactly with what its etag says of the file that it found.
  have hgoes : NoLostSave etag (s.become i (some (.marking write (parentDirs write.key)))) ↔
      ∀ expected, write.expectedEtag = some expected →
        (s.bucket write.key).map etag = some expected := by
    refine (noLostSave_become h).trans ⟨fun hafter expected hexpected => ?_, fun hown => ?_⟩
    · exact hafter.2.2.1 write.key expected (by
        rw [Option.bind_some, Task.guards, hexpected, Option.map_some])
    · refine ⟨h.acknowledged, by simp, fun key expected hguards => ?_, ?_⟩
      · obtain ⟨found, hfound, heq⟩ := Option.map_eq_some_iff.mp hguards
        obtain ⟨rfl, rfl⟩ := Prod.mk.inj heq
        exact hown found hfound
      · exact fun j other key expected _ hother => h.pending j other key expected hother
  cases hfile : s.bucket write.key <;> cases hexpected : write.expectedEtag <;>
    simp only [advance, hfile, hexpected]
  case none.none =>
    simp only [hfile, hexpected] at hgoes
    exact iff_of_true (hgoes.mpr (by simp)) (by simp)
  case none.some expected =>
    simp only [hfile, hexpected] at hgoes
    exact iff_of_false (fun hafter => by simpa using hgoes.mp hafter) (by simp)
  case some.none content =>
    simp only [hfile, hexpected] at hgoes
    exact iff_of_true (hgoes.mpr (by simp)) (by simp)
  case some.some content expected =>
    simp only [hfile, hexpected] at hgoes
    refine iff_of_true ?_ (by simp)
    split
    · exact h.become_plain rfl (by simp)
    · next hcurrent => exact hgoes.mpr (by simpa using hcurrent)

theorem advance_iff (h : NoLostSave etag s) (htask : s.tasks i = some task) :
    NoLostSave etag (s.advance etag i task) ↔ Undisturbed etag s (.advance i) := by
  have htrivial : ∀ {after : Bridge}, NoLostSave etag after → task.lands = none →
      (∀ write, task ≠ .checking write) →
        (NoLostSave etag after ↔ Undisturbed etag s (.advance i)) := by
    intro after hafter hlands hcheck
    exact iff_of_true hafter (undisturbed_of htask hlands fun write hwrite =>
      absurd hwrite (hcheck write))
  cases task with
  | checking write => exact advance_checking_iff h htask
  | marking write dirs =>
    cases dirs with
    | nil =>
      rw [undisturbed_lands_iff htask rfl]
      have hreplaced : write.Expected etag (s.bucket write.key) := fun expected hexpected =>
        h.pending i _ write.key expected htask (by rw [Task.guards, hexpected, Option.map_some])
      refine (noLostSave_become h).trans ?_
      have hsame : ∀ j, ¬ (∃ write', j = i ∧ Task.marking write [] = .marking write' []) ↔ j ≠ i :=
        fun j => not_congr ⟨fun hj => hj.choose_spec.1, fun hj => ⟨write, hj, rfl⟩⟩
      simp only [hsame]
      rw [← relied_iff h fun j => j ≠ i]
      constructor
      · exact fun hafter => hafter.2.2.2
      · refine fun hothers => ⟨h.acknowledged, fun other replaced hother => ?_,
          fun key expected hguards => ?_, hothers⟩
        · obtain ⟨rfl, rfl⟩ := Task.saved.inj (Option.some.inj hother)
          exact hreplaced
        · cases hguards
    | cons dir dirs =>
      refine htrivial ?_ rfl (by simp)
      have hown : ∀ key expected,
          (write.expectedEtag.map fun expected => (write.key, expected)) = some (key, expected) →
            (s.bucket key).map etag = some expected :=
        fun key expected hguards => h.pending i _ key expected htask hguards
      simp only [advance]
      split
      all_goals
        refine (noLostSave_become h).mpr ⟨h.acknowledged, by simp, hown, ?_⟩
        exact fun j other key expected _ hother => h.pending j other key expected hother
  | markingDir write dir dirs =>
    rw [undisturbed_lands_iff htask rfl]
    refine (noLostSave_become h).trans ?_
    have hall : ∀ j, ¬ (∃ write', j = i ∧ Task.markingDir write dir dirs = .marking write' []) ↔
        True := fun j => by simp
    simp only [hall]
    rw [← relied_iff h fun _ => True]
    constructor
    · rintro ⟨-, -, hown, hothers⟩ j other relied expected - hother hguards
      by_cases hj : j = i
      · subst hj
        obtain rfl : Task.markingDir write dir dirs = other :=
          Option.some.inj (htask.symm.trans hother)
        exact hown relied expected hguards
      · exact hothers j other relied expected hj hother hguards
    · intro hafter
      refine ⟨h.acknowledged, by simp, fun key expected hguards => ?_, ?_⟩
      · exact hafter i _ key expected trivial htask hguards
      · exact fun j other key expected _ hother => hafter j other key expected trivial hother
  | saved write replaced =>
    refine htrivial ?_ rfl (by simp)
    refine (noLostSave_become h).mpr ⟨?_, by simp, by simp, ?_⟩
    · intro ack hack
      rcases List.mem_append.mp hack with hack | hack
      · exact h.acknowledged ack hack
      · obtain rfl := List.mem_singleton.mp hack
        exact h.saved i write replaced htask
    · exact fun j other key expected _ hother => h.pending j other key expected hother
  | editing key oldString newString replaceAll =>
    refine htrivial ?_ rfl (by simp)
    simp only [advance]
    split
    · exact h.become_plain rfl (by simp)
    · split
      · exact h
      · exact h.become_plain rfl (by simp)
      · exact h.become_plain rfl (by simp)
  | deleting key =>
    rw [undisturbed_lands_iff htask rfl]
    refine (noLostSave_become h).trans ?_
    have hall : ∀ j, ¬ (∃ write, j = i ∧ Task.deleting key = .marking write []) ↔ True :=
      fun j => by simp
    simp only [hall]
    rw [← relied_iff h fun _ => True]
    constructor
    · rintro ⟨-, -, -, hothers⟩ j other relied expected - hother hguards
      by_cases hj : j = i
      · subst hj
        obtain rfl : Task.deleting key = other := Option.some.inj (htask.symm.trans hother)
        cases hguards
      · exact hothers j other relied expected hj hother hguards
    · intro hafter
      refine ⟨h.acknowledged, by simp, by simp, ?_⟩
      exact fun j other key expected _ hother => hafter j other key expected trivial hother

/-- In a run no save is lost exactly when every save finds its file at its check and nothing else
is put or deleted in its place before it puts its content. -/
theorem saves_lossless_iff (etag : String → String) (requests : List Request) :
    (∀ before after, requests = before ++ after →
      NoLostSave etag (Run.run (step etag) {} before)) ↔
      Run.Allowed (Undisturbed etag) (step etag) {} requests := by
  refine Run.always_iff_allowed (I := fun _ => True) trivial ⟨by simp, by simp, by simp⟩
    (fun _ _ _ => trivial) (fun s request _ h => ?_) requests
  cases request with
  | advance i =>
    cases htask : s.tasks i with
    | none =>
      have hafter : s.step etag (.advance i) = s := by simp [step, htask]
      rw [hafter]
      refine iff_of_true h ⟨fun write hwrite => ?_, fun task key content hsome => ?_⟩
      · rw [htask] at hwrite
        cases hwrite
      · rw [htask] at hsome
        cases hsome
    | some task =>
      have hafter : s.step etag (.advance i) = s.advance etag i task := by simp [step, htask]
      rw [hafter]
      exact advance_iff h htask
  | read path => exact iff_of_true (h.request (by simp)) trivial
  | write path content expectedEtag => exact iff_of_true (h.request (by simp)) trivial
  | fileWrite path content => exact iff_of_true (h.request (by simp)) trivial
  | fileEdit path oldString newString replaceAll =>
    exact iff_of_true (h.request (by simp)) trivial
  | fileDelete path => exact iff_of_true (h.request (by simp)) trivial

/-- The agent writes a file and an editor reads it. -/
def openedRun : List Request :=
  [.fileWrite "notes" "first", .advance 0, .advance 0, .read "notes"]

/-- The agent writes again after the save of an editor was checked. -/
def overtakenRun : List Request :=
  openedRun ++ [.write "notes" "mine" (some "first"), .advance 1, .fileWrite "notes" "theirs",
    .advance 2, .advance 2, .advance 1, .advance 1]

/-- The agent deletes the file before the save of an editor is checked. -/
def deletedRun : List Request :=
  openedRun ++ [.fileDelete "notes", .advance 1, .write "notes" "mine" (some "first"), .advance 2,
    .advance 2, .advance 2]

theorem overtakenRun_acknowledged : (Run.run (step id) {} overtakenRun).acknowledged =
    [⟨⟨"notes", "first", false, none⟩, none⟩, ⟨⟨"notes", "theirs", false, none⟩, some "first"⟩,
      ⟨⟨"notes", "mine", true, some "first"⟩, some "theirs"⟩] := by
  decide

/-- The save replaces what the agent wrote, or brings the deleted file back, and is
acknowledged. -/
theorem save_overwrites :
    (Run.run (step id) {} overtakenRun).acknowledged.getLast? =
        some ⟨⟨"notes", "mine", true, some "first"⟩, some "theirs"⟩ ∧
      (Run.run (step id) {} deletedRun).acknowledged.getLast? =
        some ⟨⟨"notes", "mine", true, some "first"⟩, none⟩ ∧
      ¬ ∀ (etag : String → String) requests,
        ∀ ack ∈ (Run.run (step etag) {} requests).acknowledged,
          ack.write.Expected etag ack.replaced := by
  refine ⟨by rw [overtakenRun_acknowledged]; rfl, by decide, fun hall => ?_⟩
  have hlast := hall id overtakenRun ⟨⟨"notes", "mine", true, some "first"⟩, some "theirs"⟩ (by
    rw [overtakenRun_acknowledged]
    decide) "first" rfl
  revert hlast
  decide

end Bridge

end CrabbyKit.Files
