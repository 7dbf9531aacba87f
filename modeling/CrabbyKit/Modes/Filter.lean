import CrabbyKit.Bundle.Dispatch

/-!
# Mode filters

The filter of the static brain (`modes/define-mode.ts`, `apply-mode.ts`,
`filter-tools-and-sections.ts`, `exclude-sections.ts`) and the one that a bundle runs in its isolate
(`bundle-sdk/src/runtime.ts`), each over the tools that one turn offers.
-/

namespace CrabbyKit.Modes

open CrabbyKit.Bundle (Filter Mode)

/-- `filter.allow && filter.allow.length > 0`, as the list it is about. -/
def allowList (filter : Filter) : List String := filter.allow.getD []

/-- `filter.deny && filter.deny.length > 0`, as the list it is about. -/
def denyList (filter : Filter) : List String := filter.deny.getD []

def assertFilterNotConflicting (filter : Option Filter) (fieldName : String) :
    Except String Unit :=
  match filter with
  | none => .ok ()
  | some filter =>
    if allowList filter ≠ [] ∧ denyList filter ≠ [] then
      .error ("defineMode: `" ++ fieldName ++
        "` filter cannot specify both `allow` and `deny`. Choose one.")
    else .ok ()

def defineMode (mode : Mode) : Except String Mode := do
  assertFilterNotConflicting mode.capabilities "capabilities"
  assertFilterNotConflicting mode.tools "tools"
  return mode

/-- A capability, with the tools that it contributes to the turn. -/
structure Capability (T : Type*) where
  id : String
  tools : Option (List T) := none
  configNamespaces : Bool := false

structure PromptSection where
  key : String
  content : String
  lines : Nat
  tokens : Nat
  capabilityId : Option String
  included : Bool
  excludedReason : Option String := none
  deriving DecidableEq, Repr

def computeDeadCapIds (knownCapabilityIds : List String) (filter : Filter) : List String :=
  if allowList filter ≠ [] then knownCapabilityIds.filter fun id => id ∉ allowList filter
  else if denyList filter ≠ [] then denyList filter
  else []

def excludePromptSectionsForMode (sections : List PromptSection) (deadCapIds : List String)
    (modeId : String) : List PromptSection :=
  if deadCapIds = [] then sections
  else sections.map fun sec =>
    if sec.included ∧ ∃ id ∈ sec.capabilityId, id ∈ deadCapIds then
      { sec with content := "", lines := 0, tokens := 0, included := false,
                 excludedReason := some ("Filtered by mode: " ++ modeId) }
    else sec

section Static

variable {T : Type*} (name : T → String)

def filterTools (tools : List T) (mode : Mode) : List T :=
  match mode.tools with
  | none => tools
  | some filter =>
    if allowList filter ≠ [] then tools.filter fun t => name t ∈ allowList filter
    else if denyList filter ≠ [] then tools.filter fun t => name t ∉ denyList filter
    else tools

def computeDeadCapIdsFromSections (sections : List PromptSection) (mode : Mode) : List String :=
  match mode.capabilities with
  | none => []
  | some filter => computeDeadCapIds (sections.filterMap PromptSection.capabilityId) filter

def filterToolsAndSections (tools : List T) (sections : List PromptSection)
    (activeMode : Option Mode) : List T × List PromptSection :=
  match activeMode with
  | none => (tools, sections)
  | some mode =>
    (filterTools name tools mode,
      excludePromptSectionsForMode sections (computeDeadCapIdsFromSections sections mode) mode.id)

/-- The tools of `resolveCapabilities`: of two with one name the first is kept. -/
def resolveTools (capabilities : List (Capability T)) : List T :=
  (capabilities.flatMap fun cap => cap.tools.getD []).foldl
    (fun tools t => if name t ∈ tools.map name then tools else tools ++ [t]) []

/-- `collectAllTools`: the tools of the agent, those that the runtime adds (config, a2a, modes)
and the ones of the capabilities. -/
def collectAllTools (baseTools runtimeTools : List T) (capabilities : List (Capability T)) :
    List T :=
  baseTools ++ runtimeTools ++ resolveTools name capabilities

/-- `deadCapIds` of `applyMode`. -/
def deadCapIds (capabilities : List (Capability T)) (mode : Mode) : List String :=
  match mode.capabilities with
  | none => []
  | some filter => computeDeadCapIds (capabilities.map Capability.id) filter

/-- `deadCapToolNames` of `applyMode`. -/
def deadCapToolNames (capabilities : List (Capability T)) (mode : Mode) : List String :=
  (capabilities.filter fun cap => cap.id ∈ deadCapIds capabilities mode).flatMap fun cap =>
    (cap.tools.getD []).map name

def surfaceGone (survivingToolNames : List String) (cap : Capability T) : Bool :=
  match cap.tools with
  | some capTools => !capTools.isEmpty && capTools.all fun t => name t ∉ survivingToolNames
  | none => cap.configNamespaces &&
    ["config_set", "config_get", "config_schema"].all fun n => n ∉ survivingToolNames

/-- `implicitDeadCapIds` of `applyMode`. -/
def implicitDeadCapIds (capabilities : List (Capability T)) (mode : Mode)
    (survivingToolNames : List String) : List String :=
  (capabilities.filter fun cap =>
    cap.id ∉ deadCapIds capabilities mode && surfaceGone name survivingToolNames cap).map
      Capability.id

/-- The tools and sections of `AppliedMode`. -/
structure AppliedMode (T : Type*) where
  tools : List T
  promptSections : List PromptSection

def applyMode (promptSections : List PromptSection) (capabilities : List (Capability T))
    (allTools : List T) (activeMode : Option Mode) : AppliedMode T :=
  match activeMode with
  | none => ⟨allTools, promptSections⟩
  | some mode =>
    let toolsAfterCapFilter :=
      allTools.filter fun t => name t ∉ deadCapToolNames name capabilities mode
    let (filteredTools, filteredSections) :=
      filterToolsAndSections name toolsAfterCapFilter promptSections (some mode)
    ⟨filteredTools, excludePromptSectionsForMode filteredSections
      (implicitDeadCapIds name capabilities mode (filteredTools.map name)) mode.id⟩

end Static

/-- An entry of the untyped tool list of a bundle: one that can be called, or some other value,
perhaps with a name. -/
inductive BundleTool (T : Type*)
  | duck (tool : T)
  | other (name : Option String)
  deriving DecidableEq, Repr

section Bundle

variable {T : Type*} (name : T → String)

/-- The `name` of an entry where it is a string. -/
def BundleTool.nameOf : BundleTool T → Option String
  | .duck tool => some (name tool)
  | .other given => given

/-- `isBundleToolDuck`: the tool of an entry that can be called. -/
def BundleTool.callable : BundleTool T → Option T
  | .duck tool => some tool
  | .other _ => none

/-- A capability of a bundle, with what its `tools` returns. -/
structure BundleCapability (T : Type*) where
  id : String
  tools : Option (List (BundleTool T)) := none

/-- `capabilityAllowedByMode` and `toolNameAllowedByMode`, which test one of the two filters. -/
def allowedByMode (filter : Option Filter) (id : String) : Bool :=
  match filter with
  | none => true
  | some filter =>
    !(allowList filter ≠ [] ∧ id ∉ allowList filter) &&
      !(denyList filter ≠ [] ∧ id ∈ denyList filter)

/-- The loop that walks a list from its end and splices out what the test hits; the number is how
many entries are still ahead. -/
def spliceBackwards {E : Type*} (hit : E → Bool) : Nat → List E → List E
  | 0, entries => entries
  | i + 1, entries =>
    match entries[i]? with
    | none => spliceBackwards hit i entries
    | some t => spliceBackwards hit i (if hit t then entries.eraseIdx i else entries)

/-- `mergedTools` of `runBundleTurn` before the filter by name. -/
def mergedTools (setupTools : List (BundleTool T)) (capabilities : List (BundleCapability T))
    (activeMode : Option Mode) : List (BundleTool T) :=
  setupTools ++ capabilities.flatMap fun cap =>
    if allowedByMode (activeMode.bind Mode.capabilities) cap.id then cap.tools.getD [] else []

/-- The filter by name: entries without a name stay. -/
def filterMergedTools (tools : List (BundleTool T)) (activeMode : Option Mode) :
    List (BundleTool T) :=
  match activeMode.bind Mode.tools with
  | none => tools
  | some filter =>
    spliceBackwards (fun t => (t.nameOf name).any fun n => !allowedByMode (some filter) n)
      tools.length tools

/-- The tools that `runBundleTurn` advertises: entries that cannot be called are left out. -/
def advertisedTools (setupTools : List (BundleTool T)) (capabilities : List (BundleCapability T))
    (activeMode : Option Mode) : List T :=
  (filterMergedTools name (mergedTools setupTools capabilities activeMode) activeMode).filterMap
    BundleTool.callable

end Bundle

end CrabbyKit.Modes
