import CrabbyKit.Core.Run
import CrabbyKit.Skills.Sync

/-!
# Skills that can be loaded

An enabled skill has a file. What is declared is brought to its declared state by one
synchronisation, which a second one leaves as it is.
-/

namespace CrabbyKit.Skills

open Files List

variable {hash : String → String} {s : State} {id : String}

namespace Slot

def Enabled (slot : Slot) : Prop := ∃ skill, slot.skill = some skill ∧ skill.enabled = true

def Loadable (slot : Slot) : Prop := slot.Enabled → slot.file.isSome = true

theorem loadable_of_not {slot : Slot} (h : ¬ slot.Enabled) : slot.Loadable :=
  fun henabled => absurd henabled h

variable {conflict : Option SkillConflict}

variable {file : Option String}

theorem enabled_iff {skill : InstalledSkill} : Enabled ⟨some skill, conflict, file⟩ ↔ skill.enabled
    = true := by
  constructor
  · rintro ⟨other, hother, henabled⟩
    rw [Option.some.inj hother]
    exact henabled
  · exact fun henabled => ⟨skill, rfl, henabled⟩

theorem not_enabled_none : ¬ Enabled ⟨none, conflict, file⟩ := by
  rintro ⟨skill, hskill, -⟩
  cases hskill

theorem loadable_written (skill : InstalledSkill) {content : String} :
    Loadable ⟨some skill, conflict, if skill.enabled then some content else file⟩ := by
  intro henabled
  rw [enabled_iff] at henabled
  rw [henabled]
  rfl

end Slot

variable {decl : SkillDeclaration}

variable {record : SkillRecord hash}

theorem loadable_syncRecord
    (capabilityIds : List String) (existsInState : Bool) (h : (s.slot decl.id).Loadable) :
    ((s.syncRecord record capabilityIds decl existsInState).slot decl.id).Loadable := by
  unfold State.syncRecord
  split_ifs
  · rw [State.slot_putInstalled_self]
    exact Slot.loadable_of_not fun henabled => by
      rw [Slot.enabled_iff] at henabled
      cases henabled
  · rw [State.slot_installNew_self]
    exact Slot.loadable_written (record.installed decl.wanted)
  · cases s.installed decl.id with
    | none => exact h
    | some existing =>
      simp only
      split_ifs
      · exact h
      · rw [State.slot_syncEnabled_self]
        split
        · exact h
        · exact Slot.loadable_written { existing with enabled := decl.wanted }
      · exact h
      · rw [State.slot_updateClean_self]
        exact Slot.loadable_written { existing with
          name := record.name
          description := record.description
          registryVersion := some record.version
          registryHash := some record.contentHash
          enabled := decl.wanted }

variable {registry : SkillRegistry hash} {capabilityIds : List String}
variable {existsInState : String → Bool}

theorem loadable_foldl (declarations : List SkillDeclaration) (h : (s.slot id).Loadable) :
    ((declarations.foldl (State.syncSingleSkill registry capabilityIds existsInState) s).slot
      id).Loadable := by
  induction declarations generalizing s with
  | nil => exact h
  | cons decl rest ih =>
    refine ih ?_
    by_cases hid : decl.id = id
    · subst hid
      unfold State.syncSingleSkill
      split
      · exact loadable_syncRecord _ _ h
      · exact h
    · rw [State.slot_syncSingleSkill_of_ne (Ne.symm hid)]
      exact h

theorem enabled_syncRecord {existsInState : Bool}
    (h : ((s.syncRecord record capabilityIds decl existsInState).slot decl.id).Enabled) :
    (s.slot decl.id).Enabled ∨ decl.wanted = true ∧ record.missingCaps capabilityIds = [] := by
  unfold State.syncRecord at h
  split_ifs at h with hmissing hnew
  · rw [State.slot_putInstalled_self, Slot.enabled_iff] at h
    cases h
  · rw [State.slot_installNew_self, Slot.enabled_iff] at h
    exact Or.inr ⟨h, not_not.mp hmissing⟩
  · cases hexisting : s.installed decl.id with
    | none =>
      rw [hexisting] at h
      exact Or.inl h
    | some existing =>
      rw [hexisting] at h
      simp only at h
      split_ifs at h
      · exact Or.inl h
      · rw [State.slot_syncEnabled_self] at h
        split at h
        · exact Or.inl h
        · rw [Slot.enabled_iff] at h
          exact Or.inr ⟨h, not_not.mp hmissing⟩
      · exact Or.inl h
      · rw [State.slot_updateClean_self, Slot.enabled_iff] at h
        exact Or.inr ⟨h, not_not.mp hmissing⟩

def Enables (registry : SkillRegistry hash) (capabilityIds : List String) (id : String)
    (decl : SkillDeclaration) : Prop :=
  decl.id = id ∧ decl.wanted = true ∧
    ∃ record, registry id = .ok (some record) ∧ record.missingCaps capabilityIds = []

theorem enabled_foldl (declarations : List SkillDeclaration)
    (h : ((declarations.foldl (State.syncSingleSkill registry capabilityIds existsInState) s).slot
      id).Enabled) :
    (s.slot id).Enabled ∨ ∃ decl ∈ declarations, Enables registry capabilityIds id decl := by
  induction declarations generalizing s with
  | nil => exact Or.inl h
  | cons decl rest ih =>
    rcases ih h with hone | ⟨other, hmem, hother⟩
    · by_cases hid : decl.id = id
      · subst hid
        unfold State.syncSingleSkill at hone
        split at hone
        · next record hrecord =>
          rcases enabled_syncRecord hone with hbefore | ⟨hwanted, hcaps⟩
          · exact Or.inl hbefore
          · exact Or.inr ⟨decl, mem_cons_self, rfl, hwanted, record, hrecord, hcaps⟩
        · exact Or.inl hone
      · rw [State.slot_syncSingleSkill_of_ne (Ne.symm hid)] at hone
        exact Or.inl hone
    · exact Or.inr ⟨other, mem_cons_of_mem decl hmem, hother⟩

/-- What a synchronisation leaves of a declared skill. -/
def Settled (registry : SkillRegistry hash) (capabilityIds : List String) (decl : SkillDeclaration)
    (slot : Slot) : Prop :=
  ∀ record, registry decl.id = .ok (some record) →
    if record.missingCaps capabilityIds ≠ [] then slot.skill = some (record.installed false)
    else
      ∃ existing, slot.skill = some existing ∧
        (existing.origin ≠ .registry ∨
          existing.registryVersion = some record.version ∧ existing.enabled = decl.wanted ∨
          existing.registryVersion ≠ some record.version ∧ existing.dirty = some true ∧
            slot.conflict = some (record.conflict decl.id))

theorem settled_syncSingleSkill (h : existsInState decl.id = (s.installed decl.id).isSome) :
    Settled registry capabilityIds decl
      ((s.syncSingleSkill registry capabilityIds existsInState decl).slot decl.id) := by
  intro record hrecord
  unfold State.syncSingleSkill State.syncRecord
  rw [hrecord, h]
  simp only
  split_ifs with hmissing hnew
  · rw [State.slot_putInstalled_self]
  · rw [State.slot_installNew_self]
    exact ⟨record.installed decl.wanted, rfl, Or.inr (Or.inl ⟨rfl, rfl⟩)⟩
  · cases hexisting : s.installed decl.id with
    | none =>
      rw [hexisting] at hnew
      exact absurd rfl hnew
    | some existing =>
      simp only
      split_ifs with horigin hversion hdirty
      · exact ⟨existing, hexisting, Or.inl horigin⟩
      · rw [State.slot_syncEnabled_self]
        split
        · next henabled => exact ⟨existing, hexisting, Or.inr (Or.inl ⟨hversion, henabled⟩)⟩
        · exact ⟨_, rfl, Or.inr (Or.inl ⟨hversion, rfl⟩)⟩
      · refine ⟨existing, hexisting, Or.inr (Or.inr ⟨hversion, hdirty, ?_⟩)⟩
        exact congrArg Slot.conflict (State.slot_setConflict_self (record.conflict decl.id))
      · rw [State.slot_updateClean_self]
        exact ⟨_, rfl, Or.inr (Or.inl ⟨rfl, rfl⟩)⟩

theorem syncSingleSkill_settled (h : existsInState decl.id = (s.installed decl.id).isSome)
    (hsettled : Settled registry capabilityIds decl (s.slot decl.id)) :
    s.syncSingleSkill registry capabilityIds existsInState decl = s := by
  unfold State.syncSingleSkill
  rcases hrecord : registry decl.id with error | _ | record
  · rfl
  · rfl
  · have hslot := hsettled record hrecord
    simp only [State.syncRecord]
    split_ifs with hmissing hnew
    · rw [if_pos hmissing] at hslot
      have hskill : s.installed decl.id = some (record.installed false) := hslot
      rw [State.putInstalled, ← hskill, Function.update_eq_self]
    · rw [if_neg hmissing] at hslot
      obtain ⟨existing, hskill, -⟩ := hslot
      have hskill : s.installed decl.id = some existing := hskill
      rw [h, hskill] at hnew
      cases hnew
    · rw [if_neg hmissing] at hslot
      obtain ⟨existing, hskill, hcase⟩ := hslot
      have hskill : s.installed decl.id = some existing := hskill
      rw [hskill]
      simp only
      rcases hcase with horigin | ⟨hversion, henabled⟩ | ⟨hversion, hdirty, hconflict⟩
      · rw [if_pos horigin]
      · rw [if_pos hversion, State.syncEnabled, if_pos henabled, ite_self]
      · have hpending : s.conflicts decl.id = some (record.conflict decl.id) := hconflict
        rw [if_neg hversion, if_pos hdirty]
        have hsame : s.setConflict (record.conflict decl.id) = s := by
          rw [State.setConflict, ← hpending]
          exact congrArg (fun conflicts => { s with conflicts }) (Function.update_eq_self _ _)
        rw [hsame, ite_self]

variable {declarations : List SkillDeclaration}

theorem settled_foldl (hnodup : (declarations.map SkillDeclaration.id).Nodup)
    (h : ∀ decl ∈ declarations, existsInState decl.id = (s.installed decl.id).isSome) :
    ∀ decl ∈ declarations, Settled registry capabilityIds decl
      ((declarations.foldl (State.syncSingleSkill registry capabilityIds existsInState) s).slot
        decl.id) := by
  induction declarations generalizing s with
  | nil => exact fun _ hmem => absurd hmem not_mem_nil
  | cons first rest ih =>
    rw [map_cons, nodup_cons] at hnodup
    have hother : ∀ decl ∈ rest, decl.id ≠ first.id := by
      rintro decl hmem hid
      exact hnodup.1 (hid ▸ mem_map_of_mem hmem)
    intro decl hmem
    rcases mem_cons.mp hmem with rfl | hmem
    · rw [foldl_cons, State.slot_foldl_of_notMem hother]
      exact settled_syncSingleSkill (h _ mem_cons_self)
    · refine ih hnodup.2 (fun other hrest => ?_) decl hmem
      have hslot : (s.syncSingleSkill registry capabilityIds existsInState first).slot other.id =
          s.slot other.id := State.slot_syncSingleSkill_of_ne (hother other hrest)
      have hskill := congrArg Slot.skill hslot
      exact (h other (mem_cons_of_mem first hrest)).trans (congrArg Option.isSome hskill.symm)

theorem foldl_settled
    (h : ∀ decl ∈ declarations, Settled registry capabilityIds decl (s.slot decl.id)) :
    declarations.foldl (State.syncSingleSkill registry capabilityIds fun other =>
      (s.installed other).isSome) s = s := by
  induction declarations with
  | nil => rfl
  | cons first rest ih =>
    rw [foldl_cons, syncSingleSkill_settled rfl (h first mem_cons_self)]
    exact ih fun decl hmem => h decl (mem_cons_of_mem first hmem)

theorem syncSkills_idempotent (s : State) (registry : SkillRegistry hash)
    (capabilityIds : List String) (h : (declarations.map SkillDeclaration.id).Nodup) :
    (s.syncSkills registry declarations capabilityIds).syncSkills registry declarations
      capabilityIds = s.syncSkills registry declarations capabilityIds :=
  foldl_settled (settled_foldl h fun _ _ => rfl)

/-- An entry of a config change enables a skill that the registry has, or whose file is there. -/
def FindsContent (registry : SkillRegistry hash) (s : State) (config : SkillDeclaration) : Prop :=
  ∀ existing, s.installed config.id = some existing → existing.enabled = false →
    config.enabled = some true → registry config.id ≠ .ok none ∨ (s.readSkill config.id).isSome

theorem loadable_configEntry {config : SkillDeclaration}
    {after : State} (hfinds : FindsContent registry s config) (hloadable : (s.slot id).Loadable)
    (h : s.configEntry registry config = .ok after) : (after.slot id).Loadable := by
  by_cases hid : config.id = id
  · subst hid
    rcases State.configEntry_cases h with
      hsame | ⟨existing, enabled, file, hexisting, hafter, hfile⟩
    · rw [hsame]
      exact hloadable
    · rw [hafter]
      rcases hfile with ⟨rfl, hon⟩ | ⟨-, rfl, -⟩ | ⟨-, -, record, -, rfl⟩
      · intro henabled
        rw [Slot.enabled_iff] at henabled
        cases hexistingEnabled : existing.enabled with
        | true => exact hloadable ⟨existing, hexisting, hexistingEnabled⟩
        | false =>
          rcases hon henabled with hon | ⟨hconfig, hnone⟩
          · rw [hexistingEnabled] at hon
            cases hon
          · rcases hfinds existing hexisting hexistingEnabled hconfig with hfound | hfile
            · exact absurd hnone hfound
            · exact hfile
      · exact Slot.loadable_of_not fun henabled => by
          rw [Slot.enabled_iff] at henabled
          cases henabled
      · exact fun _ => rfl
  · rw [State.slot_configEntry_of_ne (Ne.symm hid) h]
    exact hloadable

theorem loadable_configChange (configs : List SkillDeclaration)
    (hfinds : s.ConfigAllowed registry (FindsContent registry) configs)
    (hloadable : (s.slot id).Loadable) : ((s.configChange registry configs).slot id).Loadable := by
  induction configs generalizing s with
  | nil => exact hloadable
  | cons config rest ih =>
    unfold State.configChange
    cases hafter : s.configEntry registry config with
    | error error => exact hloadable
    | ok after =>
      exact ih (hfinds.2 after hafter) (loadable_configEntry hfinds.1 hloadable hafter)

theorem loadable_install (registry : SkillRegistry hash) (body : SkillDeclaration)
    (hloadable : (s.slot id).Loadable) : ((s.install registry body).2.slot id).Loadable := by
  unfold State.install
  split_ifs
  · exact hloadable
  · exact hloadable
  · rcases registry body.id with error | _ | record
    · exact hloadable
    · exact hloadable
    · simp only
      by_cases hid : body.id = id
      · subst hid
        rw [State.slot_installNew_self]
        exact Slot.loadable_written (record.installed body.wanted)
      · rw [State.slot_installNew_of_ne (Ne.symm hid)]
        exact hloadable

theorem loadable_uninstall (declarations : List SkillDeclaration) (other : String)
    (hloadable : (s.slot id).Loadable) : ((s.uninstall declarations other).2.slot id).Loadable := by
  have hremoved : ∀ t : State, (other ≠ id → t.slot id = s.slot id) →
      ((t.deleteInstalled other).slot id).Loadable := by
    intro t ht
    by_cases hid : other = id
    · subst hid
      rw [State.slot_deleteInstalled_self]
      exact Slot.loadable_of_not Slot.not_enabled_none
    · rw [State.slot_deleteInstalled_of_ne (Ne.symm hid), ht hid]
      exact hloadable
  unfold State.uninstall
  cases s.installed other with
  | none =>
    simp only
    split <;> exact hloadable
  | some existing =>
    simp only
    split_ifs
    · exact hloadable
    · exact hloadable
    · exact hremoved _ fun hne => State.slot_deleteSkill_of_ne (Ne.symm hne)
    · exact hremoved _ fun _ => rfl

def hookedSkill (call : FileCall) : Option String :=
  (watchedPath call).bind fun watched => skillIdFromR2Path watched.1

/-- A tracked call changes the file of the skill that the hook is about, and no other. -/
def Tracked (s : State) (call : FileCall) : Prop :=
  ∀ result files id, call.execute s.files = some (result, files) →
    files (skillPath id) ≠ s.readSkill id → hookedSkill call = some id

theorem loadable_handleWrite (h : (s.slot id).Loadable) :
    ((s.handleWrite hash id).slot id).Loadable := by
  unfold State.handleWrite
  cases hcontent : s.readSkill id with
  | none => exact h
  | some content =>
    simp only
    split_ifs
    · exact h
    · -- The file that was read stays where it is.
      have hfile : ∀ skill conflict, Slot.Loadable ⟨skill, conflict, (s.slot id).file⟩ := by
        intro skill conflict _
        have hread : (s.slot id).file = some content := hcontent
        rw [hread]
        rfl
      cases hexisting : s.installed id with
      | none =>
        simp only
        rw [State.slot_putInstalled_self]
        exact hfile _ _
      | some existing =>
        simp only
        split
        · simp only [State.resolveConflict]
          rw [State.slot_putInstalled_self, State.slot_clearConflict_self]
          exact hfile _ _
        · split
          · obtain ⟨name, description, hslot⟩ :=
              State.slot_trackRegistry_self hexisting
            rw [hslot]
            exact hfile _ _
          · simp only [State.trackAgent]
            rw [State.slot_putInstalled_self]
            exact hfile _ _

theorem not_enabled_handleDelete : ¬ ((s.handleDelete id).slot id).Enabled := by
  unfold State.handleDelete
  cases hexisting : s.installed id with
  | none =>
    rintro ⟨skill, hskill, -⟩
    exact absurd (hexisting.symm.trans hskill) (by simp)
  | some existing =>
    simp only
    split
    · rw [State.slot_putInstalled_self, Slot.enabled_iff]
      simp
    · rw [State.slot_deleteInstalled_self]
      exact Slot.not_enabled_none

theorem execute_isSome {call : FileCall} {path key : String} {bucket files : Bucket}
    {result : ToolResult} (hwatched : watchedPath call = some (path, false))
    (hexecute : call.execute bucket = some (result, files)) (h : (bucket key).isSome) :
    (files key).isSome := by
  cases call with
  | write target content =>
    have hfiles := congrArg Prod.snd (Option.some.inj hexecute)
    rw [← show _ = files from hfiles]
    exact fileWrite_isSome h
  | edit target oldString newString replaceAll => exact fileEdit_isSome h hexecute
  | delete target => cases hwatched
  | copy source destination => cases hwatched
  | move source destination => cases hwatched

theorem loadable_callTool {call : FileCall} (htracked : Tracked s call)
    (hloadable : (s.slot id).Loadable) : ((s.callTool hash call).slot id).Loadable := by
  unfold State.callTool
  cases hexecute : call.execute s.files with
  | none => exact hloadable
  | some executed =>
    obtain ⟨result, files⟩ := executed
    simp only
    -- Of skills that the hook is not about, the file is the same.
    have hother : hookedSkill call ≠ some id → (({ s with files } : State).slot id).Loadable := by
      intro hne
      have hsame : files (skillPath id) = s.readSkill id := by
        by_contra hchanged
        exact hne (htracked result files id hexecute hchanged)
      have hslot : ({ s with files } : State).slot id = s.slot id :=
        congrArg (Slot.mk (s.installed id) (s.conflicts id)) hsame
      rw [hslot]
      exact hloadable
    unfold State.afterToolExecution
    rcases hwatched : watchedPath call with _ | ⟨path, deletes⟩
    · exact hother (by rw [hookedSkill, hwatched]; nofun)
    · have hhooked : hookedSkill call = skillIdFromR2Path path := by
        rw [hookedSkill, hwatched, Option.bind_some]
      simp only
      cases hid : skillIdFromR2Path path with
      | none => exact hother (by rw [hhooked, hid]; nofun)
      | some other =>
        by_cases hsame : other = id
        · subst hsame
          cases deletes with
          | true => exact Slot.loadable_of_not not_enabled_handleDelete
          | false =>
            refine loadable_handleWrite fun henabled => ?_
            exact execute_isSome hwatched hexecute (hloadable henabled)
        · have hplain := hother (by
            rw [hhooked, hid]
            exact fun heq => hsame (Option.some.inj heq))
          cases deletes with
          | true =>
            simp only [if_true]
            rw [State.slot_handleDelete_of_ne (Ne.symm hsame)]
            exact hplain
          | false =>
            simp only [Bool.false_eq_true, if_false]
            rw [State.slot_handleWrite_of_ne (Ne.symm hsame)]
            exact hplain

/-- Tool calls are tracked, and a config change finds the contents of what it enables. -/
def TrackedStep (s : State) : Label hash → Prop
  | .configChange registry (some configs) =>
    s.ConfigAllowed registry (FindsContent registry) configs
  | .tool call => Tracked s call
  | _ => True

theorem loadable_step (label : Label hash) (hloadable : (s.slot id).Loadable)
    (h : TrackedStep s label) : ((step s label).slot id).Loadable := by
  cases label with
  | connect registry declarations capabilityIds => exact loadable_foldl declarations hloadable
  | configChange registry configs =>
    cases configs with
    | none => exact hloadable
    | some configs => exact loadable_configChange configs h hloadable
  | install registry body => exact loadable_install registry body hloadable
  | uninstall declarations other => exact loadable_uninstall declarations other hloadable
  | tool call => exact loadable_callTool h hloadable

/-- An enabled skill has a file in every state that tracked steps reach. A second synchronisation
of skills that are declared once changes nothing. A synchronisation enables only what is declared,
not declared disabled, and in the registry with its capabilities registered. -/
theorem skills_loadable (hash : String → String) :
    (∀ labels : List (Label hash), Run.Allowed TrackedStep step {} labels →
      ∀ id skill, (Run.run step {} labels).installed id = some skill → skill.enabled = true →
        ((Run.run step {} labels).readSkill id).isSome) ∧
    (∀ (s : State) (registry : SkillRegistry hash) declarations capabilityIds,
      (declarations.map SkillDeclaration.id).Nodup →
        (s.syncSkills registry declarations capabilityIds).syncSkills registry declarations
          capabilityIds = s.syncSkills registry declarations capabilityIds) ∧
    ∀ (s : State) (registry : SkillRegistry hash) declarations capabilityIds id skill,
      (s.syncSkills registry declarations capabilityIds).installed id = some skill →
        skill.enabled = true →
          (∃ before, s.installed id = some before ∧ before.enabled = true) ∨
            ∃ decl ∈ declarations, Enables registry capabilityIds id decl := by
  refine ⟨?_, fun s registry declarations capabilityIds hnodup => ?_, ?_⟩
  · intro labels h id skill hskill henabled
    have hstart : (State.slot {} id).Loadable := Slot.loadable_of_not Slot.not_enabled_none
    have hrun := Run.invariant_of_allowed (I := fun s => (State.slot s id).Loadable) hstart
      (fun s e hs he => loadable_step e hs he) h labels [] (append_nil labels).symm
    exact hrun ⟨skill, hskill, henabled⟩
  · exact syncSkills_idempotent s registry capabilityIds hnodup
  · intro s registry declarations capabilityIds id skill hskill henabled
    exact enabled_foldl declarations ⟨skill, hskill, henabled⟩

def connectNotes (declarations : List SkillDeclaration) : Label fun text => text :=
  .connect (fun _ => .ok (some (notesVersion "1" "theirs"))) declarations []

def configNotes (enabled : Bool) : Label fun text => text :=
  .configChange (fun _ => .ok (some (notesVersion "1" "theirs"))) (some [⟨"notes", some enabled⟩])

/-- The same synchronisation enables a skill that was disabled; and where a skill is declared both
enabled and disabled, a second one still writes its file. -/
theorem disabled_enabled_again :
    let disabled := Run.run step {} [connectNotes [⟨"notes", none⟩], configNotes false]
    let twice := connectNotes [⟨"notes", some true⟩, ⟨"notes", some false⟩]
    let written := Run.run step {}
      [twice, configNotes true, .tool (.write "skills/notes/SKILL.md" "mine")]
    (disabled.installed "notes").map InstalledSkill.enabled = some false ∧
      ((step disabled (connectNotes [⟨"notes", none⟩])).installed "notes").map
        InstalledSkill.enabled = some true ∧
      (step written twice).readSkill "notes" = some "mine" ∧
      (step (step written twice) twice).readSkill "notes" = some "theirs" := by
  decide

end CrabbyKit.Skills
