import CrabbyKit.Files.Tools
import CrabbyKit.Schedule.Cron

/-!
# Skills and where they are kept

`types.ts`, `storage.ts` and `r2.ts`: a skill is a record in the storage of the capability and
a file in the bucket. The hash of a content is SHA-256, of which only the results are compared.
-/

namespace CrabbyKit.Skills

open Files

/-- `SkillDeclaration`, and an entry of a config change. -/
structure SkillDeclaration where
  id : String
  enabled : Option Bool := none
  deriving DecidableEq, Repr

/-- Whether a skill came from the registry or was created by the agent. -/
inductive Origin
  | registry | agent
  deriving DecidableEq, Repr

structure InstalledSkill where
  name : String
  description : String
  enabled : Bool
  origin : Origin
  registryVersion : Option String := none
  registryHash : Option String := none
  dirty : Option Bool := none
  requiresCapabilities : List String
  deriving DecidableEq, Repr

structure SkillConflict where
  skillId : String
  upstreamContent : String
  upstreamVersion : String
  upstreamHash : String
  deriving DecidableEq, Repr

structure SkillRecord (hash : String → String) where
  name : String
  description : String
  version : String
  contentHash : String
  requiresCapabilities : List String
  skillMd : String
  hashed : contentHash = hash skillMd

/-- `registry.get`: the record of an id, or none, or the registry fails. -/
abbrev SkillRegistry (hash : String → String) := String → Except String (Option (SkillRecord hash))

/-- The records and conflicts in the storage of the capability, and the agent's bucket. -/
structure State where
  installed : String → Option InstalledSkill := fun _ => none
  conflicts : String → Option SkillConflict := fun _ => none
  files : Bucket := fun _ => none

/-- The key of a skill's file. -/
def skillPath (id : String) : String := "skills/" ++ id ++ "/SKILL.md"

/-- `skillIdFromR2Path`. -/
def skillIdFromR2Path (path : String) : Option String :=
  match path.toList.dropPrefix? "skills/".toList with
  | none => none
  | some rest =>
    match rest.dropSuffix? "/SKILL.md".toList with
    | none => none
    | some id => if id = [] ∨ '/' ∈ id then none else some (String.ofList id)

namespace State

variable (s : State) (id : String)

/-- `putInstalledSkill`. -/
def putInstalled (skill : InstalledSkill) : State :=
  { s with installed := Function.update s.installed id (some skill) }

/-- `deleteInstalledSkill`. -/
def deleteInstalled : State := { s with installed := Function.update s.installed id none }

/-- `setSkillConflict`. -/
def setConflict (conflict : SkillConflict) : State :=
  { s with conflicts := Function.update s.conflicts conflict.skillId (some conflict) }

/-- `clearSkillConflict`. -/
def clearConflict : State := { s with conflicts := Function.update s.conflicts id none }

/-- `writeSkillToR2`. -/
def writeSkill (content : String) : State :=
  { s with files := Function.update s.files (skillPath id) (some content) }

/-- `deleteSkillFromR2`. -/
def deleteSkill : State := { s with files := Function.update s.files (skillPath id) none }

/-- `readSkillFromR2`. -/
def readSkill : Option String := s.files (skillPath id)

end State

theorem skillPath_inj {id other : String} : skillPath id = skillPath other ↔ id = other := by
  unfold skillPath
  rw [← String.toList_inj]
  simp only [String.toList_append]
  rw [List.append_left_inj, List.append_right_inj, String.toList_inj]

/-- What is kept of one skill. -/
structure Slot where
  skill : Option InstalledSkill
  conflict : Option SkillConflict
  file : Option String
  deriving DecidableEq

namespace State

variable {s : State} {id other : String}

def slot (s : State) (id : String) : Slot := ⟨s.installed id, s.conflicts id, s.readSkill id⟩

@[simp] theorem slot_putInstalled_self (skill : InstalledSkill) :
    (s.putInstalled id skill).slot id = { s.slot id with skill := some skill } := by
  simp [slot, putInstalled, readSkill]

@[simp] theorem slot_deleteInstalled_self :
    (s.deleteInstalled id).slot id = { s.slot id with skill := none } := by
  simp [slot, deleteInstalled, readSkill]

@[simp] theorem slot_setConflict_self (conflict : SkillConflict) :
    (s.setConflict conflict).slot conflict.skillId =
      { s.slot conflict.skillId with conflict := some conflict } := by
  simp [slot, setConflict, readSkill]

@[simp] theorem slot_clearConflict_self :
    (s.clearConflict id).slot id = { s.slot id with conflict := none } := by
  simp [slot, clearConflict, readSkill]

@[simp] theorem slot_writeSkill_self (content : String) :
    (s.writeSkill id content).slot id = { s.slot id with file := some content } := by
  simp [slot, writeSkill, readSkill]

@[simp] theorem slot_deleteSkill_self :
    (s.deleteSkill id).slot id = { s.slot id with file := none } := by
  simp [slot, deleteSkill, readSkill]

theorem slot_putInstalled_of_ne (h : other ≠ id) (skill : InstalledSkill) :
    (s.putInstalled id skill).slot other = s.slot other := by
  simp [slot, putInstalled, readSkill, h]

theorem slot_deleteInstalled_of_ne (h : other ≠ id) :
    (s.deleteInstalled id).slot other = s.slot other := by
  simp [slot, deleteInstalled, readSkill, h]

theorem slot_setConflict_of_ne {conflict : SkillConflict} (h : other ≠ conflict.skillId) :
    (s.setConflict conflict).slot other = s.slot other := by
  simp [slot, setConflict, readSkill, h]

theorem slot_clearConflict_of_ne (h : other ≠ id) :
    (s.clearConflict id).slot other = s.slot other := by
  simp [slot, clearConflict, readSkill, h]

theorem slot_writeSkill_of_ne (h : other ≠ id) (content : String) :
    (s.writeSkill id content).slot other = s.slot other := by
  simp [slot, writeSkill, readSkill, skillPath_inj, h]

theorem slot_deleteSkill_of_ne (h : other ≠ id) : (s.deleteSkill id).slot other = s.slot other := by
  simp [slot, deleteSkill, readSkill, skillPath_inj, h]

end State

end CrabbyKit.Skills

/-!
# Frontmatter of skill files

`parse-frontmatter.ts`: the lenient reader of the lines between the two `---` of a skill file.
-/

namespace CrabbyKit.Skills

structure ParsedFrontmatter where
  name : Option String := none
  description : Option String := none
  version : Option String := none
  requiresCapabilities : Option (List String) := none
  deriving DecidableEq, Repr

/-- `text.trim()`. -/
def trim (text : List Char) : List Char :=
  ((text.dropWhile Cron.isSpace).reverse.dropWhile Cron.isSpace).reverse

/-- A line break and `---`. -/
def closesFrontmatter (text : List Char) : Bool :=
  "\n---".toList.isPrefixOf text || "\r\n---".toList.isPrefixOf text

/-- The text in front of the first closing line. -/
def untilClosed : List Char → Option (List Char)
  | [] => none
  | c :: rest => if closesFrontmatter (c :: rest) then some [] else (untilClosed rest).map (c :: ·)

/-- The text between the opening line and the first closing one. -/
def frontmatterOf (content : List Char) : Option (List Char) :=
  match content with
  | '-' :: '-' :: '-' :: '\n' :: rest => untilClosed rest
  | '-' :: '-' :: '-' :: '\r' :: '\n' :: rest => untilClosed rest
  | _ => none

/-- A character that `.` does not match. -/
def isLineTerminator (c : Char) : Bool := c.toNat ∈ [10, 13, 0x2028, 0x2029]

def withoutBrackets (value : List Char) : List Char :=
  match value with
  | '[' :: rest =>
    if rest.getLast? = some ']' ∧ !rest.dropLast.any isLineTerminator then rest.dropLast else value
  | _ => value

def capabilityList (value : List Char) : List String :=
  (((withoutBrackets value).splitOn ',').map trim).filterMap fun part =>
    if part = [] then none else some (String.ofList part)

/-- A line sets the field before its first colon. -/
def readLine (result : ParsedFrontmatter) (line : List Char) : ParsedFrontmatter :=
  match line.dropWhile (· ≠ ':') with
  | [] => result
  | _ :: afterColon =>
    let key := trim (line.takeWhile (· ≠ ':'))
    let value := trim afterColon
    if key = [] ∨ value = [] then result
    else if key = "name".toList then { result with name := some (String.ofList value) }
    else if key = "description".toList then
      { result with description := some (String.ofList value) }
    else if key = "version".toList then { result with version := some (String.ofList value) }
    else if key = "requiresCapabilities".toList then
      { result with requiresCapabilities := some (capabilityList value) }
    else result

/-- `parseFrontmatter`; a `\r` before a line break is trimmed with the value of its line. -/
def parseFrontmatter (content : String) : ParsedFrontmatter :=
  match frontmatterOf content.toList with
  | none => {}
  | some frontmatter => (frontmatter.splitOn '\n').foldl readLine {}

end CrabbyKit.Skills

/-!
## Tracking of changed skill files

`dirty-tracking.ts`: after a file tool was called with the path of a skill's file, the record of
the skill is brought up to date. The hook runs whether or not the tool succeeded.
-/

namespace CrabbyKit.Skills

open Files

def ParsedFrontmatter.created (fm : ParsedFrontmatter) (id : String) : InstalledSkill where
  name := fm.name.getD id
  description := fm.description.getD ""
  enabled := true
  origin := .agent
  requiresCapabilities := fm.requiresCapabilities.getD []

/-- The path among the arguments of a tool that the hook watches, with whether it deletes. -/
def watchedPath : FileCall → Option (String × Bool)
  | .write path _ => some (path, false)
  | .edit path _ _ _ => some (path, false)
  | .delete path => some (path, true)
  | .copy _ _ => none
  | .move _ _ => none

namespace State

variable (hash : String → String)

/-- Whether the content of a skill of the registry differs from what the registry gave, and the
names in its frontmatter. -/
def trackRegistry (s : State) (id content : String) (existing : InstalledSkill) : State :=
  let isDirty := decide (some (hash content) ≠ existing.registryHash)
  let marked :=
    if some isDirty ≠ existing.dirty then s.putInstalled id { existing with dirty := some isDirty }
    else s
  let fm := parseFrontmatter content
  if fm.name.isSome ∨ fm.description.isSome then
    match marked.installed id with
    | none => marked
    | some updated =>
      marked.putInstalled id
        { updated with
          name := fm.name.getD updated.name
          description := fm.description.getD updated.description }
  else marked

def trackAgent (s : State) (id content : String) (existing : InstalledSkill) : State :=
  let fm := parseFrontmatter content
  s.putInstalled id
    { existing with
      name := fm.name.getD existing.name
      description := fm.description.getD existing.description
      requiresCapabilities := fm.requiresCapabilities.getD existing.requiresCapabilities }

def resolveConflict (s : State) (id : String) (existing : InstalledSkill)
    (conflict : SkillConflict) : State :=
  (s.clearConflict id).putInstalled id
    { existing with
      registryVersion := some conflict.upstreamVersion
      registryHash := some conflict.upstreamHash
      dirty := some false }

def handleWrite (s : State) (id : String) : State :=
  match s.readSkill id with
  | none => s
  | some content =>
    if content = "" then s
    else
      match s.installed id with
      | none => s.putInstalled id ((parseFrontmatter content).created id)
      | some existing =>
        match s.conflicts id with
        | some conflict => s.resolveConflict id existing conflict
        | none =>
          match existing.origin with
          | .registry => s.trackRegistry hash id content existing
          | .agent => s.trackAgent id content existing

def handleDelete (s : State) (id : String) : State :=
  match s.installed id with
  | none => s
  | some existing =>
    match existing.origin with
    | .registry => s.putInstalled id { existing with enabled := false }
    | .agent => s.deleteInstalled id

/-- `createAfterToolExecutionHook`. -/
def afterToolExecution (s : State) (call : FileCall) : State :=
  match watchedPath call with
  | none => s
  | some (path, deletes) =>
    match skillIdFromR2Path path with
    | none => s
    | some id => if deletes then s.handleDelete id else s.handleWrite hash id

/-- A call of a file tool and the hook after it; a tool that never returns changes nothing. -/
def callTool (s : State) (call : FileCall) : State :=
  match call.execute s.files with
  | none => s
  | some (_, files) => { s with files }.afterToolExecution hash call

variable {hash} {s : State} {id other content : String}

theorem slot_trackRegistry_self {existing : InstalledSkill} (h : s.installed id = some existing) :
    ∃ name description, (s.trackRegistry hash id content existing).slot id =
      { s.slot id with
        skill := some { existing with
          name, description
          dirty := some (decide (some (hash content) ≠ existing.registryHash)) } } := by
  have hmarked : ∀ isDirty, (if some isDirty ≠ existing.dirty then
      s.putInstalled id { existing with dirty := some isDirty } else s).slot id =
        { s.slot id with skill := some { existing with dirty := some isDirty } } := by
    intro isDirty
    split
    · exact slot_putInstalled_self _
    · next hdirty =>
      have hslot : s.slot id = { s.slot id with skill := some existing } := by
        rw [← h]
        rfl
      rw [not_not.mp hdirty]
      exact hslot
  unfold trackRegistry
  simp only
  split
  · have hskill := congrArg Slot.skill
      (hmarked (decide (some (hash content) ≠ existing.registryHash)))
    change installed _ id = _ at hskill
    rw [hskill]
    refine ⟨(parseFrontmatter content).name.getD existing.name,
      (parseFrontmatter content).description.getD existing.description, ?_⟩
    simp only
    rw [slot_putInstalled_self, hmarked]
  · exact ⟨existing.name, existing.description, hmarked _⟩

theorem slot_trackRegistry_of_ne (h : other ≠ id) (existing : InstalledSkill) :
    (s.trackRegistry hash id content existing).slot other = s.slot other := by
  have hmarked : ∀ isDirty, (if some isDirty ≠ existing.dirty then
      s.putInstalled id { existing with dirty := some isDirty } else s).slot other =
        s.slot other := by
    intro isDirty
    split
    · exact slot_putInstalled_of_ne h _
    · rfl
  unfold trackRegistry
  simp only
  split
  · split
    · exact hmarked _
    · exact (slot_putInstalled_of_ne h _).trans (hmarked _)
  · exact hmarked _

theorem slot_handleWrite_of_ne (h : other ≠ id) :
    (s.handleWrite hash id).slot other = s.slot other := by
  unfold handleWrite
  split
  · rfl
  · split
    · rfl
    · split
      · exact slot_putInstalled_of_ne h _
      · split
        · exact (slot_putInstalled_of_ne h _).trans (slot_clearConflict_of_ne h)
        · split
          · exact slot_trackRegistry_of_ne h _
          · exact slot_putInstalled_of_ne h _

theorem slot_handleDelete_of_ne (h : other ≠ id) :
    (s.handleDelete id).slot other = s.slot other := by
  unfold handleDelete
  split
  · rfl
  · split
    · exact slot_putInstalled_of_ne h _
    · exact slot_deleteInstalled_of_ne h

end State

end CrabbyKit.Skills
