import CrabbyKit.Skills.Tracking

/-!
# Synchronising declared skills

`sync.ts`: on connect each declared skill is compared with its record in the registry.
-/

namespace CrabbyKit.Skills

variable {hash : String → String}

def SkillRecord.installed (record : SkillRecord hash) (enabled : Bool) : InstalledSkill where
  name := record.name
  description := record.description
  enabled := enabled
  origin := .registry
  registryVersion := some record.version
  registryHash := some record.contentHash
  requiresCapabilities := record.requiresCapabilities

/-- The required capabilities that are not registered. -/
def SkillRecord.missingCaps (record : SkillRecord hash) (capabilityIds : List String) :
    List String :=
  record.requiresCapabilities.filter (· ∉ capabilityIds)

def SkillDeclaration.wanted (decl : SkillDeclaration) : Bool := decl.enabled.getD true

def SkillRecord.conflict (record : SkillRecord hash) (id : String) : SkillConflict where
  skillId := id
  upstreamContent := record.skillMd
  upstreamVersion := record.version
  upstreamHash := record.contentHash

namespace State

/-- A skill that is not there yet: its file if it is enabled, and its record. -/
def installNew (s : State) (id : String) (record : SkillRecord hash) (enabled : Bool) : State :=
  (if enabled then s.writeSkill id record.skillMd else s).putInstalled id (record.installed enabled)

def syncEnabled (s : State) (id : String) (record : SkillRecord hash) (existing : InstalledSkill)
    (enabled : Bool) : State :=
  if existing.enabled = enabled then s
  else
    let updated := s.putInstalled id { existing with enabled }
    if enabled then updated.writeSkill id record.skillMd else updated

def updateClean (s : State) (id : String) (record : SkillRecord hash) (existing : InstalledSkill)
    (enabled : Bool) : State :=
  (if enabled then s.writeSkill id record.skillMd else s).putInstalled id
    { existing with
      name := record.name
      description := record.description
      registryVersion := some record.version
      registryHash := some record.contentHash
      enabled }

/-- What `syncSingleSkill` does with the record that the registry has. -/
def syncRecord (s : State) (record : SkillRecord hash) (capabilityIds : List String)
    (decl : SkillDeclaration) (existsInState : Bool) : State :=
  if record.missingCaps capabilityIds ≠ [] then s.putInstalled decl.id (record.installed false)
  else if !existsInState then s.installNew decl.id record decl.wanted
  else
    match s.installed decl.id with
    | none => s
    | some existing =>
      if existing.origin ≠ .registry then s
      else if existing.registryVersion = some record.version then
        s.syncEnabled decl.id record existing decl.wanted
      else if existing.dirty = some true then s.setConflict (record.conflict decl.id)
      else s.updateClean decl.id record existing decl.wanted

/-- `syncSingleSkill`, with the failures that `syncSkills` logs. -/
def syncSingleSkill (registry : SkillRegistry hash) (capabilityIds : List String)
    (existsInState : String → Bool) (s : State) (decl : SkillDeclaration) : State :=
  match registry decl.id with
  | .ok (some record) => s.syncRecord record capabilityIds decl (existsInState decl.id)
  | _ => s

/-- `syncSkills`: which skills exist is read once, before the first is synchronised. -/
def syncSkills (s : State) (registry : SkillRegistry hash) (declarations : List SkillDeclaration)
    (capabilityIds : List String) : State :=
  declarations.foldl (syncSingleSkill registry capabilityIds fun id => (s.installed id).isSome) s

variable {s : State} {id other : String} {record : SkillRecord hash}

theorem slot_installNew_self (enabled : Bool) :
    (s.installNew id record enabled).slot id =
      { s.slot id with
        skill := some (record.installed enabled)
        file := if enabled then some record.skillMd else (s.slot id).file } := by
  cases enabled <;> simp [installNew]

theorem slot_syncEnabled_self (existing : InstalledSkill) (enabled : Bool) :
    (s.syncEnabled id record existing enabled).slot id =
      if existing.enabled = enabled then s.slot id
      else
        { s.slot id with
          skill := some { existing with enabled }
          file := if enabled then some record.skillMd else (s.slot id).file } := by
  unfold syncEnabled
  split
  · rfl
  · cases enabled <;> simp

theorem slot_updateClean_self (existing : InstalledSkill) (enabled : Bool) :
    (s.updateClean id record existing enabled).slot id =
      { s.slot id with
        skill := some { existing with
          name := record.name
          description := record.description
          registryVersion := some record.version
          registryHash := some record.contentHash
          enabled }
        file := if enabled then some record.skillMd else (s.slot id).file } := by
  cases enabled <;> simp [updateClean]

theorem slot_installNew_of_ne (h : other ≠ id) (enabled : Bool) :
    (s.installNew id record enabled).slot other = s.slot other := by
  rw [installNew, slot_putInstalled_of_ne h]
  split
  · exact slot_writeSkill_of_ne h _
  · rfl

theorem slot_syncEnabled_of_ne (h : other ≠ id) (existing : InstalledSkill) (enabled : Bool) :
    (s.syncEnabled id record existing enabled).slot other = s.slot other := by
  unfold syncEnabled
  split_ifs
  · rfl
  · exact (slot_writeSkill_of_ne h _).trans (slot_putInstalled_of_ne h _)
  · exact slot_putInstalled_of_ne h _

theorem slot_updateClean_of_ne (h : other ≠ id) (existing : InstalledSkill) (enabled : Bool) :
    (s.updateClean id record existing enabled).slot other = s.slot other := by
  rw [updateClean, slot_putInstalled_of_ne h]
  split
  · exact slot_writeSkill_of_ne h _
  · rfl

variable {decl : SkillDeclaration}

theorem slot_syncRecord_of_ne (h : other ≠ decl.id)
    (capabilityIds : List String) (existsInState : Bool) :
    (s.syncRecord record capabilityIds decl existsInState).slot other = s.slot other := by
  unfold syncRecord
  split_ifs
  · exact slot_putInstalled_of_ne h _
  · exact slot_installNew_of_ne h _
  · cases s.installed decl.id with
    | none => rfl
    | some existing =>
      simp only
      split_ifs
      · rfl
      · exact slot_syncEnabled_of_ne h _ _
      · exact slot_setConflict_of_ne h
      · exact slot_updateClean_of_ne h _ _

variable {registry : SkillRegistry hash} {capabilityIds : List String}
variable {existsInState : String → Bool}

theorem slot_syncSingleSkill_of_ne (h : other ≠ decl.id) :
    (s.syncSingleSkill registry capabilityIds existsInState decl).slot other = s.slot other := by
  unfold syncSingleSkill
  split
  · exact slot_syncRecord_of_ne h _ _
  · rfl

theorem slot_foldl_of_notMem {declarations : List SkillDeclaration}
    (h : ∀ decl ∈ declarations, decl.id ≠ id) :
    (declarations.foldl (syncSingleSkill registry capabilityIds existsInState) s).slot id =
      s.slot id := by
  induction declarations generalizing s with
  | nil => rfl
  | cons decl rest ih =>
    rw [List.foldl_cons, ih fun other hother => h other (List.mem_cons_of_mem decl hother)]
    exact slot_syncSingleSkill_of_ne (h decl List.mem_cons_self).symm

end State

end CrabbyKit.Skills

/-!
## The skills capability

`capability.ts`: what connecting, a change of the config, installing, uninstalling and calls of
the file tools do to the skills.
-/

namespace CrabbyKit.Skills

open Files

variable {hash : String → String}

structure Response where
  status : Nat
  error : Option String := none
  deriving DecidableEq, Repr

namespace State

def configEntry (registry : SkillRegistry hash) (s : State) (config : SkillDeclaration) :
    Except String State :=
  match s.installed config.id with
  | none => .ok s
  | some existing =>
    let enabled := config.enabled.getD existing.enabled
    if enabled ∧ !existing.enabled then
      match registry config.id with
      | .error error => .error error
      | .ok none => .ok (s.putInstalled config.id { existing with enabled })
      | .ok (some record) =>
        .ok ((s.writeSkill config.id record.skillMd).putInstalled config.id
          { existing with enabled })
    else if !enabled ∧ existing.enabled then
      .ok ((s.deleteSkill config.id).putInstalled config.id { existing with enabled })
    else .ok (s.putInstalled config.id { existing with enabled })

/-- `onConfigChange`: entries before a failure keep their effect. -/
def configChange (registry : SkillRegistry hash) : State → List SkillDeclaration → State
  | s, [] => s
  | s, config :: rest =>
    match s.configEntry registry config with
    | .error _ => s
    | .ok after => configChange registry after rest

/-- Each entry of a config change is allowed in the state in which it is applied. -/
def ConfigAllowed (registry : SkillRegistry hash) (allowed : State → SkillDeclaration → Prop) :
    State → List SkillDeclaration → Prop
  | _, [] => True
  | s, config :: rest =>
    allowed s config ∧ ∀ after, s.configEntry registry config = .ok after →
      ConfigAllowed registry allowed after rest

/-- `/skills/install`. -/
def install (s : State) (registry : SkillRegistry hash) (body : SkillDeclaration) :
    Response × State :=
  if body.id = "" then (⟨400, some "Missing skill id"⟩, s)
  else if (s.installed body.id).isSome then (⟨409, some "Skill already installed"⟩, s)
  else
    match registry body.id with
    | .error error => (⟨500, some error⟩, s)
    | .ok none => (⟨404, some "Skill not found in registry"⟩, s)
    | .ok (some record) => (⟨200, none⟩, s.installNew body.id record body.wanted)

/-- `/skills/uninstall`. -/
def uninstall (s : State) (declarations : List SkillDeclaration) (id : String) :
    Response × State :=
  if id = "" then (⟨400, some "Missing skill id"⟩, s)
  else
    match s.installed id with
    | none => (⟨404, some "Skill not installed"⟩, s)
    | some existing =>
      if id ∈ declarations.map SkillDeclaration.id then
        (⟨403, some "Cannot uninstall built-in skill"⟩, s)
      else
        (⟨200, none⟩, (if existing.enabled then s.deleteSkill id else s).deleteInstalled id)

variable {s : State} {id : String}

variable {registry : SkillRegistry hash} {config : SkillDeclaration}

theorem configEntry_cases {after : State} (h : s.configEntry registry config = .ok after) :
    after.slot config.id = s.slot config.id ∨
      ∃ existing enabled file, s.installed config.id = some existing ∧
        after.slot config.id =
          { s.slot config.id with skill := some { existing with enabled }, file } ∧
        (file = (s.slot config.id).file ∧
            (enabled = true → existing.enabled = true ∨
              config.enabled = some true ∧ registry config.id = .ok none) ∨
          (config.enabled = some false ∧ enabled = false ∧ file = none) ∨
          (config.enabled = some true ∧ existing.enabled = false ∧
            ∃ record, registry config.id = .ok (some record) ∧ file = some record.skillMd)) := by
  unfold configEntry at h
  cases hexisting : s.installed config.id with
  | none =>
    rw [hexisting] at h
    exact Or.inl (by rw [← Except.ok.inj h])
  | some existing =>
    rw [hexisting] at h
    simp only at h
    refine Or.inr ⟨existing, config.enabled.getD existing.enabled, ?_⟩
    split_ifs at h with henabling hdisabling
    · have hdisabled : existing.enabled = false := by simpa using henabling.2
      have henabled : config.enabled = some true := by
        have hwanted := henabling.1
        rw [hdisabled] at hwanted
        cases hconfig : config.enabled with
        | none => rw [hconfig] at hwanted; cases hwanted
        | some enabled => rw [hconfig] at hwanted; exact congrArg some hwanted
      rcases hrecord : registry config.id with error | _ | record
      · rw [hrecord] at h
        cases h
      · rw [hrecord] at h
        refine ⟨(s.slot config.id).file, rfl, ?_, Or.inl ⟨rfl, fun _ => Or.inr ⟨henabled, rfl⟩⟩⟩
        rw [← Except.ok.inj h, slot_putInstalled_self]
      · rw [hrecord] at h
        refine ⟨some record.skillMd, rfl, ?_,
          Or.inr (Or.inr ⟨henabled, hdisabled, record, rfl, rfl⟩)⟩
        rw [← Except.ok.inj h, slot_putInstalled_self, slot_writeSkill_self]
    · have hoff : config.enabled.getD existing.enabled = false := by simpa using hdisabling.1
      have hdisabled : config.enabled = some false := by
        rw [hdisabling.2] at hoff
        cases hconfig : config.enabled with
        | none => rw [hconfig] at hoff; cases hoff
        | some enabled => rw [hconfig] at hoff; exact congrArg some hoff
      refine ⟨none, rfl, ?_, Or.inr (Or.inl ⟨hdisabled, hoff, rfl⟩)⟩
      rw [← Except.ok.inj h, slot_putInstalled_self, slot_deleteSkill_self]
    · refine ⟨(s.slot config.id).file, rfl, ?_, Or.inl ⟨rfl, fun hon => Or.inl ?_⟩⟩
      · rw [← Except.ok.inj h, slot_putInstalled_self]
      · by_contra hexistingOff
        exact henabling ⟨hon, by simpa using hexistingOff⟩

theorem slot_configEntry_of_ne
    {after : State} (hne : id ≠ config.id) (h : s.configEntry registry config = .ok after) :
    after.slot id = s.slot id := by
  unfold configEntry at h
  split at h
  · rw [← Except.ok.inj h]
  · simp only at h
    split_ifs at h
    · split at h
      · cases h
      · rw [← Except.ok.inj h]
        exact slot_putInstalled_of_ne hne _
      · rw [← Except.ok.inj h, slot_putInstalled_of_ne hne, slot_writeSkill_of_ne hne]
    · rw [← Except.ok.inj h, slot_putInstalled_of_ne hne, slot_deleteSkill_of_ne hne]
    · rw [← Except.ok.inj h]
      exact slot_putInstalled_of_ne hne _

end State

def notesVersion (version content : String) : SkillRecord fun text => text where
  name := "Notes"
  description := "Take notes"
  version := version
  contentHash := content
  requiresCapabilities := []
  skillMd := content
  hashed := rfl

/-- What happens to the skills of an agent. -/
inductive Label (hash : String → String)
  | connect (registry : SkillRegistry hash) (declarations : List SkillDeclaration)
      (capabilityIds : List String)
  | configChange (registry : SkillRegistry hash) (configs : Option (List SkillDeclaration))
  | install (registry : SkillRegistry hash) (body : SkillDeclaration)
  | uninstall (declarations : List SkillDeclaration) (id : String)
  | tool (call : FileCall)

/-- The state after something happened. -/
def step (s : State) : Label hash → State
  | .connect registry declarations capabilityIds => s.syncSkills registry declarations capabilityIds
  | .configChange _ none => s
  | .configChange registry (some configs) => s.configChange registry configs
  | .install registry body => (s.install registry body).2
  | .uninstall declarations id => (s.uninstall declarations id).2
  | .tool call => s.callTool hash call

end CrabbyKit.Skills
