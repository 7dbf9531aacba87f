import CrabbyKit.Core.Run
import CrabbyKit.Skills.Sync

/-!
# Customised skills

A skill of the registry is customised when its file differs from what the registry gave. As
long as every customisation is marked, a newer version waits in a conflict.
-/

namespace CrabbyKit.Skills

open Files Option

variable (hash : String → String)

namespace Slot

/-- A skill of the registry whose file does not have the recorded hash. -/
def Customised (slot : Slot) : Prop :=
  ∃ skill content, slot.skill = some skill ∧ skill.origin = .registry ∧
    slot.file = some content ∧ some (hash content) ≠ skill.registryHash

/-- A customised skill is marked dirty. -/
def Marked (slot : Slot) : Prop :=
  slot.Customised hash → slot.skill.bind InstalledSkill.dirty = some true

variable {hash} in
/-- The file of the skill, if there is one, is the registry's. -/
def Holds (slot : Slot) (record : SkillRecord hash) : Prop :=
  ∀ content, slot.file = some content → hash content = record.contentHash

/-- The origin, the recorded version and hash and the dirty flag are the same. -/
structure SameRecord (old new : Slot) : Prop where
  origin : new.skill.map InstalledSkill.origin = old.skill.map InstalledSkill.origin
  version : new.skill.map InstalledSkill.registryVersion =
    old.skill.map InstalledSkill.registryVersion
  hash : new.skill.map InstalledSkill.registryHash = old.skill.map InstalledSkill.registryHash
  dirty : new.skill.map InstalledSkill.dirty = old.skill.map InstalledSkill.dirty

structure Kept (old new : Slot) : Prop extends SameRecord old new where
  file : new.file = old.file

end Slot

variable {hash} in
/-- A declared skill is synchronised without losing a customisation. -/
structure SyncLossless (slot : Slot) (record : SkillRecord hash)
    (missingCaps existsInState wanted : Bool) : Prop where
  /-- With capabilities missing it is not customised, and no other file is left under the new
  record. -/
  unavailable : missingCaps = true → ¬ slot.Customised hash ∧ slot.Holds record
  /-- The same when it was not installed before, unless its file is written. -/
  fresh : missingCaps = false → existsInState = false →
    ¬ slot.Customised hash ∧ (wanted = false → slot.Holds record)
  /-- It is enabled at the recorded version with the recorded content only, and not when it is
  customised. -/
  again : missingCaps = false → existsInState = true → wanted = true →
    ∀ existing, slot.skill = some existing → existing.origin = .registry →
      existing.registryVersion = some record.version → existing.enabled = false →
      ¬ slot.Customised hash ∧ existing.registryHash = some record.contentHash
  /-- Another version is not recorded for a disabled skill that keeps another file. -/
  newer : missingCaps = false → existsInState = true → wanted = false →
    ∀ existing, slot.skill = some existing → existing.origin = .registry →
      existing.registryVersion ≠ some record.version → existing.dirty ≠ some true →
      slot.Holds record

variable (id : String)

/-- Connecting synchronises the skill, each time it is declared, without losing a
customisation. -/
def ConnectLossless (s : State) (registry : SkillRegistry hash)
    (declarations : List SkillDeclaration) (capabilityIds : List String) : Prop :=
  Run.Allowed
    (fun t decl => decl.id = id → ∀ record, registry id = .ok (some record) →
      SyncLossless (t.slot id) record (record.missingCaps capabilityIds ≠ [])
        (s.installed id).isSome decl.wanted)
    (State.syncSingleSkill registry capabilityIds fun other => (s.installed other).isSome)
    s declarations

/-- A config change enables the skill with the recorded content only, and not when it is
customised. -/
def ConfigLossless (registry : SkillRegistry hash) : State → List SkillDeclaration → Prop :=
  State.ConfigAllowed registry fun s config =>
    config.id = id → config.enabled = some true →
      ∀ existing record, s.installed id = some existing → existing.origin = .registry →
        existing.enabled = false → registry id = .ok (some record) →
        ¬ (s.slot id).Customised hash ∧ existing.registryHash = some record.contentHash

/-- The skill whose file the hook reads after a call. -/
def writtenSkill (call : FileCall) : Option String :=
  match watchedPath call with
  | some (path, false) => skillIdFromR2Path path
  | _ => none

/-- A call of a file tool leaves the skill's file to the hook, which marks what it reads but for
a write under a conflict: that is taken for the registry's content. Other files are not
customised, or marked before. -/
def ToolLossless (s : State) (call : FileCall) : Prop :=
  ∀ result files content, call.execute s.files = some (result, files) →
    files (skillPath id) = some content →
    if writtenSkill call = some id ∧ content ≠ "" then
      ∀ existing conflict, s.installed id = some existing → existing.origin = .registry →
        s.conflicts id = some conflict → hash content = conflict.upstreamHash
    else
      s.readSkill id = some content ∨ { s.slot id with file := some content }.Marked hash

/-- A step that loses no customisation of the skill. -/
def Lossless (s : State) : Label hash → Prop
  | .connect registry declarations capabilityIds =>
    ConnectLossless hash id s registry declarations capabilityIds
  | .configChange _ none => True
  | .configChange registry (some configs) => ConfigLossless hash id registry s configs
  | .install registry body =>
    body.id = id → body.wanted = false → ∀ record, registry id = .ok (some record) →
      (s.slot id).Holds record
  | .uninstall _ _ => True
  | .tool call => ToolLossless hash id s call

/-- A step keeps the content of a customised skill and what is recorded of it: a newer version
becomes a pending conflict, and only a change of the config that disables the skill, its removal
and the calls of the agent's file tools change the file. -/
def Respects (s : State) (label : Label hash) : Prop :=
  (s.slot id).Customised hash →
    match label with
    | .connect registry declarations _ =>
      (s.slot id).Kept ((step s label).slot id) ∧
        ∀ decl ∈ declarations, decl.id = id → ∀ record, registry id = .ok (some record) →
          (s.installed id).bind InstalledSkill.registryVersion ≠ some record.version →
          (step s label).conflicts id = some (record.conflict id)
    | .configChange _ configs =>
      (s.slot id).SameRecord ((step s label).slot id) ∧
        ((∀ config ∈ configs.getD [], config.id = id → config.enabled ≠ some false) →
          (s.slot id).Kept ((step s label).slot id))
    | .install _ _ => (s.slot id).Kept ((step s label).slot id)
    | .uninstall _ other => other ≠ id → (s.slot id).Kept ((step s label).slot id)
    | .tool call =>
      writtenSkill call ≠ some id → (s.slot id).SameRecord ((step s label).slot id)

section Sync

variable {hash id} {s : State} {record : SkillRecord hash}

namespace Slot

theorem SameRecord.refl (slot : Slot) : slot.SameRecord slot := ⟨rfl, rfl, rfl, rfl⟩

theorem Kept.refl (slot : Slot) : slot.Kept slot := ⟨SameRecord.refl slot, rfl⟩

variable {a b : Slot}

theorem SameRecord.trans {c : Slot} (hab : a.SameRecord b) (hbc : b.SameRecord c) :
    a.SameRecord c :=
  ⟨hbc.origin.trans hab.origin, hbc.version.trans hab.version, hbc.hash.trans hab.hash,
    hbc.dirty.trans hab.dirty⟩

theorem Kept.symm (h : a.Kept b) : b.Kept a :=
  ⟨⟨h.origin.symm, h.version.symm, h.hash.symm, h.dirty.symm⟩, h.file.symm⟩

theorem Kept.trans {c : Slot} (hab : a.Kept b) (hbc : b.Kept c) : a.Kept c :=
  ⟨hab.toSameRecord.trans hbc.toSameRecord, hbc.file.trans hab.file⟩

variable {slot : Slot}

theorem sameRecord_enabled {skill : InstalledSkill} (h : slot.skill = some skill)
    (enabled : Bool) (conflict : Option SkillConflict) (file : Option String) :
    slot.SameRecord ⟨some { skill with enabled }, conflict, file⟩ := by
  constructor <;> rw [h] <;> rfl

theorem Kept.customised {old new : Slot} (h : old.Kept new) (hold : old.Customised hash) :
    new.Customised hash := by
  obtain ⟨skill, content, hskill, horigin, hfile, hhash⟩ := hold
  obtain ⟨⟨horigins, -, hhashes, -⟩, hfiles⟩ := h
  rw [hskill] at horigins hhashes
  obtain ⟨kept, hkept, hkeptOrigin⟩ := map_eq_some_iff.mp horigins
  rw [hkept] at hhashes
  refine ⟨kept, content, hkept, hkeptOrigin.trans horigin, hfiles.trans hfile, ?_⟩
  rw [Option.some.inj hhashes]
  exact hhash

theorem not_customised_of_holds {record : SkillRecord hash} (h : slot.Holds record)
    (hhash : ∀ skill, slot.skill = some skill → skill.registryHash = some record.contentHash) :
    ¬ slot.Customised hash := by
  rintro ⟨skill, content, hskill, -, hfile, hne⟩
  exact hne (by rw [hhash skill hskill, h content hfile])

theorem holds_skillMd (skill : Option InstalledSkill) (conflict : Option SkillConflict) :
    Holds ⟨skill, conflict, some record.skillMd⟩ record := by
  intro content hcontent
  rw [← Option.some.inj hcontent]
  exact record.hashed.symm

theorem marked_of_not (h : ¬ slot.Customised hash) : slot.Marked hash :=
  fun hcustomised => absurd hcustomised h

end Slot

theorem not_customised_written {slot : Slot} {skill : InstalledSkill} {enabled : Bool}
    (hhash : skill.registryHash = some record.contentHash)
    (h : enabled = false → slot.Holds record) :
    ¬ Slot.Customised hash
      ⟨some skill, slot.conflict, if enabled then some record.skillMd else slot.file⟩ := by
  have hholds : Slot.Holds
      ⟨some skill, slot.conflict, if enabled then some record.skillMd else slot.file⟩ record := by
    cases enabled with
    | true => exact Slot.holds_skillMd _ _
    | false => exact h rfl
  refine Slot.not_customised_of_holds hholds fun other hother => ?_
  rw [← Option.some.inj hother]
  exact hhash

theorem Slot.Marked.of_kept {old new : Slot} (hmarked : old.Marked hash) (h : old.Kept new) :
    new.Marked hash := by
  intro hnew
  obtain ⟨skill, hskill, hdirty⟩ :=
    bind_eq_some_iff.mp (hmarked (h.symm.customised hnew))
  have hsame := h.dirty
  rw [hskill, map_some, hdirty] at hsame
  obtain ⟨kept, hkept, hkeptDirty⟩ := map_eq_some_iff.mp hsame
  rw [hkept]
  exact hkeptDirty

variable {existing : InstalledSkill}

theorem syncEnabled_spec (record : SkillRecord hash) (enabled : Bool)
    (hskill : (s.slot id).skill = some existing) (hmarked : (s.slot id).Marked hash)
    (h : enabled = true → existing.enabled = false →
      ¬ (s.slot id).Customised hash ∧ existing.registryHash = some record.contentHash) :
    ((s.syncEnabled id record existing enabled).slot id).Marked hash ∧
      ((s.slot id).Customised hash →
        (s.slot id).Kept ((s.syncEnabled id record existing enabled).slot id)) := by
  rw [State.slot_syncEnabled_self]
  split
  · exact ⟨hmarked, fun _ => Slot.Kept.refl _⟩
  · next hchanged =>
    cases enabled with
    | true =>
      obtain ⟨hplain, hhash⟩ := h rfl (Bool.eq_false_iff.mpr hchanged)
      refine ⟨Slot.marked_of_not ?_, fun hcustomised => absurd hcustomised hplain⟩
      have hwritten : ¬ Slot.Customised hash
          ⟨some { existing with enabled := true }, (s.slot id).conflict,
            if true then some record.skillMd else (s.slot id).file⟩ :=
        not_customised_written hhash fun hne => by cases hne
      exact hwritten
    | false =>
      have hkept : (s.slot id).Kept
          ⟨some { existing with enabled := false }, (s.slot id).conflict, (s.slot id).file⟩ :=
        ⟨Slot.sameRecord_enabled hskill false _ _, rfl⟩
      exact ⟨hmarked.of_kept hkept, fun _ => hkept⟩

theorem newVersion_spec (record : SkillRecord hash) (enabled : Bool)
    (hskill : (s.slot id).skill = some existing) (hmarked : (s.slot id).Marked hash)
    (h : enabled = false → existing.dirty ≠ some true → (s.slot id).Holds record) :
    let after := if existing.dirty = some true then s.setConflict (record.conflict id)
      else s.updateClean id record existing enabled
    (after.slot id).Marked hash ∧
      ((s.slot id).Customised hash →
        (s.slot id).Kept (after.slot id) ∧ after.conflicts id = some (record.conflict id)) := by
  intro after
  by_cases hdirty : existing.dirty = some true
  · have hafter : after.slot id = { s.slot id with conflict := some (record.conflict id) } := by
      change (if existing.dirty = some true then s.setConflict (record.conflict id)
        else s.updateClean id record existing enabled).slot id = _
      rw [if_pos hdirty]
      exact State.slot_setConflict_self (record.conflict id)
    have hkept : (s.slot id).Kept (after.slot id) := by
      rw [hafter]
      exact ⟨⟨rfl, rfl, rfl, rfl⟩, rfl⟩
    exact ⟨hmarked.of_kept hkept, fun _ => ⟨hkept, congrArg Slot.conflict hafter⟩⟩
  · have hplain : ¬ (s.slot id).Customised hash := by
      intro hcustomised
      have hbound := hmarked hcustomised
      rw [hskill] at hbound
      exact hdirty hbound
    refine ⟨Slot.marked_of_not ?_, fun hcustomised => absurd hcustomised hplain⟩
    change ¬ ((if existing.dirty = some true then s.setConflict (record.conflict id)
      else s.updateClean id record existing enabled).slot id).Customised hash
    rw [if_neg hdirty, State.slot_updateClean_self]
    exact not_customised_written rfl fun henabled => h henabled hdirty

theorem syncRecord_spec {decl : SkillDeclaration} {capabilityIds : List String}
    {existsInState : Bool} (hmarked : (s.slot decl.id).Marked hash)
    (h : SyncLossless (s.slot decl.id) record (record.missingCaps capabilityIds ≠ [])
      existsInState decl.wanted) :
    ((s.syncRecord record capabilityIds decl existsInState).slot decl.id).Marked hash ∧
      ((s.slot decl.id).Customised hash →
        (s.slot decl.id).Kept
          ((s.syncRecord record capabilityIds decl existsInState).slot decl.id) ∧
        ((s.installed decl.id).bind InstalledSkill.registryVersion ≠ some record.version →
          (s.syncRecord record capabilityIds decl existsInState).conflicts decl.id =
            some (record.conflict decl.id))) := by
  unfold State.syncRecord
  by_cases hmissing : record.missingCaps capabilityIds ≠ []
  · obtain ⟨hplain, hholds⟩ := h.unavailable (decide_eq_true hmissing)
    rw [if_pos hmissing]
    refine ⟨Slot.marked_of_not ?_, fun hcustomised => absurd hcustomised hplain⟩
    rw [State.slot_putInstalled_self]
    have hreplaced : Slot.Holds { s.slot decl.id with skill := some (record.installed false) }
        record := hholds
    refine Slot.not_customised_of_holds hreplaced fun skill hskill => ?_
    rw [← Option.some.inj hskill]
    rfl
  · have hpresent : decide (record.missingCaps capabilityIds ≠ []) = false :=
      decide_eq_false hmissing
    rw [if_neg hmissing]
    cases hexists : existsInState with
    | false =>
      obtain ⟨hplain, hholds⟩ := h.fresh hpresent hexists
      simp only [Bool.not_false, if_true]
      refine ⟨Slot.marked_of_not ?_, fun hcustomised => absurd hcustomised hplain⟩
      rw [State.slot_installNew_self]
      exact not_customised_written rfl hholds
    | true =>
      simp only [Bool.not_true, Bool.false_eq_true, if_false]
      cases hexisting : s.installed decl.id with
      | none =>
        refine ⟨hmarked, fun hcustomised => ?_⟩
        obtain ⟨skill, -, hskill, -⟩ := hcustomised
        exact absurd (hexisting.symm.trans hskill) (by simp)
      | some existing =>
        have hslot : (s.slot decl.id).skill = some existing := hexisting
        simp only [bind_some]
        by_cases horigin : existing.origin = .registry
        · rw [if_neg (not_not.mpr horigin)]
          by_cases hversion : existing.registryVersion = some record.version
          · rw [if_pos hversion]
            obtain ⟨hafter, hkept⟩ := syncEnabled_spec record decl.wanted hslot hmarked
              fun hwanted hdisabled =>
                h.again hpresent hexists hwanted existing hslot horigin hversion hdisabled
            exact ⟨hafter, fun hcustomised => ⟨hkept hcustomised, fun hne => absurd hversion hne⟩⟩
          · rw [if_neg hversion]
            obtain ⟨hafter, hkept⟩ := newVersion_spec record decl.wanted hslot hmarked
              fun hwanted hclean =>
                h.newer hpresent hexists hwanted existing hslot horigin hversion hclean
            refine ⟨hafter, fun hcustomised => ?_⟩
            obtain ⟨hsame, hconflict⟩ := hkept hcustomised
            exact ⟨hsame, fun _ => hconflict⟩
        · rw [if_pos horigin]
          refine ⟨hmarked, fun hcustomised => ?_⟩
          obtain ⟨skill, -, hskill, hregistry, -⟩ := hcustomised
          rw [hslot] at hskill
          exact absurd (Option.some.inj hskill ▸ hregistry) horigin

end Sync

section Steps

variable {hash id} {s : State}

theorem conflicts_installNew (record : SkillRecord hash) (enabled : Bool) :
    (s.installNew id record enabled).conflicts = s.conflicts := by
  cases enabled <;> rfl

theorem conflicts_syncEnabled (record : SkillRecord hash) (existing : InstalledSkill)
    (enabled : Bool) : (s.syncEnabled id record existing enabled).conflicts = s.conflicts := by
  unfold State.syncEnabled
  split
  · rfl
  · cases enabled <;> rfl

theorem conflicts_updateClean (record : SkillRecord hash) (existing : InstalledSkill)
    (enabled : Bool) : (s.updateClean id record existing enabled).conflicts = s.conflicts := by
  cases enabled <;> rfl

variable {record : SkillRecord hash} {decl : SkillDeclaration}

theorem conflicts_syncRecord (capabilityIds : List String) (existsInState : Bool)
    (h : s.conflicts decl.id = some (record.conflict decl.id)) :
    (s.syncRecord record capabilityIds decl existsInState).conflicts decl.id =
      some (record.conflict decl.id) := by
  unfold State.syncRecord
  split_ifs
  · exact h
  · rw [conflicts_installNew]
    exact h
  · cases s.installed decl.id with
    | none => exact h
    | some existing =>
      simp only
      split_ifs
      · exact h
      · rw [conflicts_syncEnabled]
        exact h
      · exact Function.update_self _ _ _
      · rw [conflicts_updateClean]
        exact h

variable {registry : SkillRegistry hash} {capabilityIds : List String}
variable {existsInState : String → Bool}

theorem conflicts_foldl
    (hrecord : registry id = .ok (some record)) (declarations : List SkillDeclaration)
    (h : s.conflicts id = some (record.conflict id)) :
    (declarations.foldl (State.syncSingleSkill registry capabilityIds existsInState) s).conflicts
      id = some (record.conflict id) := by
  induction declarations generalizing s with
  | nil => exact h
  | cons decl rest ih =>
    refine ih ?_
    by_cases hid : decl.id = id
    · subst hid
      unfold State.syncSingleSkill
      rw [hrecord]
      exact conflicts_syncRecord _ _ h
    · exact (congrArg Slot.conflict (State.slot_syncSingleSkill_of_ne (Ne.symm hid))).trans h

theorem syncSingleSkill_spec (hmarked : (s.slot id).Marked hash)
    (h : decl.id = id → ∀ record, registry id = .ok (some record) →
      SyncLossless (s.slot id) record (record.missingCaps capabilityIds ≠ []) (existsInState id)
        decl.wanted) :
    let after := s.syncSingleSkill registry capabilityIds existsInState decl
    (after.slot id).Marked hash ∧
      ((s.slot id).Customised hash →
        (s.slot id).Kept (after.slot id) ∧
          (decl.id = id → ∀ record, registry id = .ok (some record) →
            (s.installed id).bind InstalledSkill.registryVersion ≠ some record.version →
            after.conflicts id = some (record.conflict id))) := by
  intro after
  by_cases hid : decl.id = id
  · subst hid
    change
      ((s.syncSingleSkill registry capabilityIds existsInState decl).slot decl.id).Marked hash ∧
      ((s.slot decl.id).Customised hash → (s.slot decl.id).Kept
        ((s.syncSingleSkill registry capabilityIds existsInState decl).slot decl.id) ∧ _)
    unfold after State.syncSingleSkill
    rcases hrecord : registry decl.id with error | _ | record
    · exact ⟨hmarked, fun _ => ⟨Slot.Kept.refl _, fun _ record hfound => by cases hfound⟩⟩
    · exact ⟨hmarked, fun _ => ⟨Slot.Kept.refl _, fun _ record hfound => by cases hfound⟩⟩
    · obtain ⟨hafter, hkept⟩ := syncRecord_spec hmarked (h rfl record hrecord)
      refine ⟨hafter, fun hcustomised => ⟨(hkept hcustomised).1, fun _ found hfound hne => ?_⟩⟩
      obtain rfl : record = found := by injection hfound with hsome; injection hsome
      exact (hkept hcustomised).2 hne
  · have hslot : after.slot id = s.slot id := State.slot_syncSingleSkill_of_ne (Ne.symm hid)
    rw [hslot]
    exact ⟨hmarked, fun _ => ⟨Slot.Kept.refl _, fun hsame => absurd hsame hid⟩⟩

theorem Slot.SameRecord.registryVersion {old new : Slot} (h : old.SameRecord new) :
    new.skill.bind InstalledSkill.registryVersion =
      old.skill.bind InstalledSkill.registryVersion := by
  have hversion := h.version
  cases hnew : new.skill <;> cases hold : old.skill <;> rw [hnew, hold] at hversion
  · cases hversion
  · cases hversion
  · exact Option.some.inj hversion

theorem foldl_spec (declarations : List SkillDeclaration)
    (hmarked : (s.slot id).Marked hash)
    (h : Run.Allowed
      (fun t decl => decl.id = id → ∀ record, registry id = .ok (some record) →
        SyncLossless (t.slot id) record (record.missingCaps capabilityIds ≠ []) (existsInState id)
          decl.wanted)
      (State.syncSingleSkill registry capabilityIds existsInState) s declarations) :
    let after := declarations.foldl (State.syncSingleSkill registry capabilityIds existsInState) s
    (after.slot id).Marked hash ∧
      ((s.slot id).Customised hash →
        (s.slot id).Kept (after.slot id) ∧
          ∀ decl ∈ declarations, decl.id = id → ∀ record, registry id = .ok (some record) →
            (s.installed id).bind InstalledSkill.registryVersion ≠ some record.version →
            after.conflicts id = some (record.conflict id)) := by
  induction declarations generalizing s with
  | nil =>
    exact ⟨hmarked, fun _ => ⟨Slot.Kept.refl _, fun _ hmem => absurd hmem List.not_mem_nil⟩⟩
  | cons decl rest ih =>
    obtain ⟨hdecl, hrest⟩ := Run.allowed_cons_iff.mp h
    obtain ⟨hone, hkeptOne⟩ := syncSingleSkill_spec hmarked hdecl
    obtain ⟨hall, hkeptAll⟩ := ih hone hrest
    refine ⟨hall, fun hcustomised => ?_⟩
    obtain ⟨hkept, hconflict⟩ := hkeptOne hcustomised
    obtain ⟨hkeptRest, hconflictRest⟩ := hkeptAll (hkept.customised hcustomised)
    refine ⟨hkept.trans hkeptRest, fun other hmem hid record hrecord hne => ?_⟩
    rcases List.mem_cons.mp hmem with rfl | hmem
    · exact conflicts_foldl hrecord rest (hconflict hid record hrecord hne)
    · refine hconflictRest other hmem hid record hrecord ?_
      have hsame := hkept.registryVersion
      exact fun hversion => hne (hsame.symm.trans hversion)

theorem sameRecord_put {existing : InstalledSkill} (h : s.installed id = some existing)
    (enabled : Bool) (file : Option String) :
    (s.slot id).SameRecord { s.slot id with skill := some { existing with enabled }, file } :=
  Slot.sameRecord_enabled h enabled _ _

theorem configEntry_spec {config : SkillDeclaration} {after : State}
    (hmarked : (s.slot id).Marked hash)
    (hlossless : config.id = id → config.enabled = some true →
      ∀ existing record, s.installed id = some existing → existing.origin = .registry →
        existing.enabled = false → registry id = .ok (some record) →
        ¬ (s.slot id).Customised hash ∧ existing.registryHash = some record.contentHash)
    (h : s.configEntry registry config = .ok after) :
    (after.slot id).Marked hash ∧ (s.slot id).SameRecord (after.slot id) ∧
      ((s.slot id).Customised hash → (config.id = id → config.enabled ≠ some false) →
        (s.slot id).Kept (after.slot id)) := by
  by_cases hid : config.id = id
  · subst hid
    rcases State.configEntry_cases h with
      hsame | ⟨existing, enabled, file, hexisting, hafter, hfile⟩
    · rw [hsame]
      exact ⟨hmarked, Slot.SameRecord.refl _, fun _ _ => Slot.Kept.refl _⟩
    · have hrecord : (s.slot config.id).SameRecord (after.slot config.id) := by
        rw [hafter]
        exact sameRecord_put hexisting enabled file
      rcases hfile with
        ⟨rfl, -⟩ | ⟨hdisabled, -, rfl⟩ | ⟨henabled, hexistingDisabled, record, hfound, rfl⟩
      · have hkept : (s.slot config.id).Kept (after.slot config.id) := ⟨hrecord, by rw [hafter]⟩
        exact ⟨hmarked.of_kept hkept, hrecord, fun _ _ => hkept⟩
      · refine ⟨Slot.marked_of_not ?_, hrecord, fun _ hne => absurd hdisabled (hne rfl)⟩
        rw [hafter]
        rintro ⟨-, content, -, -, hfile, -⟩
        cases hfile
      · by_cases horigin : existing.origin = .registry
        · obtain ⟨hplain, hhash⟩ :=
            hlossless rfl henabled existing record hexisting horigin hexistingDisabled hfound
          refine ⟨Slot.marked_of_not ?_, hrecord, fun hcustomised => absurd hcustomised hplain⟩
          rw [hafter]
          refine Slot.not_customised_of_holds (Slot.holds_skillMd _ _) fun skill hskill => ?_
          rw [← Option.some.inj hskill]
          exact hhash
        · refine ⟨Slot.marked_of_not ?_, hrecord, fun hcustomised => ?_⟩
          · rw [hafter]
            rintro ⟨skill, -, hskill, hregistry, -⟩
            exact horigin (by rw [← hregistry, ← Option.some.inj hskill])
          · obtain ⟨skill, -, hskill, hregistry, -⟩ := hcustomised
            have hskill : s.installed config.id = some skill := hskill
            rw [hexisting] at hskill
            exact absurd (Option.some.inj hskill ▸ hregistry) horigin
  · rw [State.slot_configEntry_of_ne (Ne.symm hid) h]
    exact ⟨hmarked, Slot.SameRecord.refl _, fun _ _ => Slot.Kept.refl _⟩

theorem configChange_spec (configs : List SkillDeclaration)
    (hmarked : (s.slot id).Marked hash) (h : ConfigLossless hash id registry s configs) :
    ((s.configChange registry configs).slot id).Marked hash ∧
      (s.slot id).SameRecord ((s.configChange registry configs).slot id) ∧
      ((s.slot id).Customised hash →
        (∀ config ∈ configs, config.id = id → config.enabled ≠ some false) →
        (s.slot id).Kept ((s.configChange registry configs).slot id)) := by
  induction configs generalizing s with
  | nil => exact ⟨hmarked, Slot.SameRecord.refl _, fun _ _ => Slot.Kept.refl _⟩
  | cons config rest ih =>
    obtain ⟨hentry, hrest⟩ := h
    unfold State.configChange
    cases hafter : s.configEntry registry config with
    | error error => exact ⟨hmarked, Slot.SameRecord.refl _, fun _ _ => Slot.Kept.refl _⟩
    | ok after =>
      obtain ⟨hone, hrecord, hkept⟩ := configEntry_spec hmarked hentry hafter
      obtain ⟨hall, hrecordRest, hkeptRest⟩ := ih hone (hrest after hafter)
      refine ⟨hall, hrecord.trans hrecordRest, fun hcustomised hplain => ?_⟩
      have hfirst := hkept hcustomised (hplain config List.mem_cons_self)
      exact hfirst.trans (hkeptRest (hfirst.customised hcustomised)
        fun other hother => hplain other (List.mem_cons_of_mem config hother))

theorem install_spec {body : SkillDeclaration} (hmarked : (s.slot id).Marked hash)
    (hlossless : body.id = id → body.wanted = false →
      ∀ record, registry id = .ok (some record) → (s.slot id).Holds record) :
    ((s.install registry body).2.slot id).Marked hash ∧
      ((s.slot id).Customised hash → (s.slot id).Kept ((s.install registry body).2.slot id)) := by
  have hsame : (s.slot id).Marked hash ∧
      ((s.slot id).Customised hash → (s.slot id).Kept (s.slot id)) :=
    ⟨hmarked, fun _ => Slot.Kept.refl _⟩
  unfold State.install
  split_ifs with hempty hinstalled
  · exact hsame
  · exact hsame
  · rcases hrecord : registry body.id with error | _ | record
    · exact hsame
    · exact hsame
    · by_cases hid : body.id = id
      · subst hid
        have hnone : s.installed body.id = none := by simpa using hinstalled
        refine ⟨Slot.marked_of_not ?_, fun hcustomised => ?_⟩
        · simp only
          rw [State.slot_installNew_self]
          exact not_customised_written rfl fun hwanted => hlossless rfl hwanted record hrecord
        · obtain ⟨skill, -, hskill, -⟩ := hcustomised
          exact absurd (hnone.symm.trans hskill) (by simp)
      · simp only
        rw [State.slot_installNew_of_ne (Ne.symm hid)]
        exact hsame

theorem uninstall_spec (declarations : List SkillDeclaration) (other : String)
    (hmarked : (s.slot id).Marked hash) :
    ((s.uninstall declarations other).2.slot id).Marked hash ∧
      (other ≠ id → (s.slot id).Kept ((s.uninstall declarations other).2.slot id)) := by
  have hsame : (s.slot id).Marked hash ∧ (other ≠ id → (s.slot id).Kept (s.slot id)) :=
    ⟨hmarked, fun _ => Slot.Kept.refl _⟩
  have hremoved : ∀ t : State, (other ≠ id → t.slot id = s.slot id) →
      ((t.deleteInstalled other).slot id).Marked hash ∧
        (other ≠ id → (s.slot id).Kept ((t.deleteInstalled other).slot id)) := by
    intro t ht
    by_cases hid : other = id
    · subst hid
      refine ⟨Slot.marked_of_not ?_, fun hne => absurd rfl hne⟩
      rw [State.slot_deleteInstalled_self]
      rintro ⟨skill, -, hskill, -⟩
      cases hskill
    · rw [State.slot_deleteInstalled_of_ne (Ne.symm hid), ht hid]
      exact hsame
  unfold State.uninstall
  cases s.installed other with
  | none =>
    simp only
    split <;> exact hsame
  | some existing =>
    simp only
    split_ifs
    · exact hsame
    · exact hsame
    · exact hremoved _ fun hne => State.slot_deleteSkill_of_ne (Ne.symm hne)
    · exact hremoved _ fun _ => rfl

theorem handleWrite_spec
    (hlost : ∀ content, s.readSkill id = some content → content = "" → (s.slot id).Marked hash)
    (hconflict : ∀ content existing conflict, s.readSkill id = some content → content ≠ "" →
      s.installed id = some existing → existing.origin = .registry →
      s.conflicts id = some conflict → hash content = conflict.upstreamHash) :
    ((s.handleWrite hash id).slot id).Marked hash := by
  have hplain : ∀ {skill : InstalledSkill} {conflict : Option SkillConflict} {file : Option String},
      skill.origin ≠ .registry → Slot.Marked hash ⟨some skill, conflict, file⟩ := by
    intro skill conflict file horigin
    refine Slot.marked_of_not ?_
    rintro ⟨other, -, hother, hregistry, -⟩
    exact horigin (Option.some.inj hother ▸ hregistry)
  unfold State.handleWrite
  cases hcontent : s.readSkill id with
  | none =>
    refine Slot.marked_of_not ?_
    rintro ⟨-, content, -, -, hfile, -⟩
    exact absurd (hcontent.symm.trans hfile) (by simp)
  | some content =>
    simp only
    split_ifs with hempty
    · exact hlost content hcontent hempty
    · cases hexisting : s.installed id with
      | none =>
        simp only
        rw [State.slot_putInstalled_self]
        exact hplain nofun
      | some existing =>
        simp only
        cases hpending : s.conflicts id with
        | some conflict =>
          simp only [State.resolveConflict]
          rw [State.slot_putInstalled_self, State.slot_clearConflict_self]
          by_cases horigin : existing.origin = .registry
          · refine Slot.marked_of_not ?_
            rintro ⟨skill, written, hskill, -, hfile, hne⟩
            have hfile : s.readSkill id = some written := hfile
            rw [hcontent] at hfile
            rw [← Option.some.inj hskill, ← Option.some.inj hfile] at hne
            exact hne (congrArg some
              (hconflict content existing conflict hcontent hempty hexisting horigin hpending))
          · exact hplain horigin
        | none =>
          simp only
          cases horigin : existing.origin with
          | registry =>
            obtain ⟨name, description, hslot⟩ := State.slot_trackRegistry_self hexisting
            simp only
            rw [hslot]
            rintro ⟨skill, written, hskill, -, hfile, hne⟩
            have hfile : s.readSkill id = some written := hfile
            rw [hcontent] at hfile
            rw [← Option.some.inj hskill, ← Option.some.inj hfile] at hne
            exact congrArg some (decide_eq_true hne)
          | agent =>
            simp only [State.trackAgent]
            rw [State.slot_putInstalled_self]
            exact hplain (by rw [horigin]; nofun)

theorem handleDelete_spec (hmarked : (s.slot id).Marked hash) :
    ((s.handleDelete id).slot id).Marked hash ∧
      ((s.slot id).skill.map InstalledSkill.origin = some .registry →
        (s.slot id).SameRecord ((s.handleDelete id).slot id)) := by
  unfold State.handleDelete
  cases hexisting : s.installed id with
  | none => exact ⟨hmarked, fun _ => Slot.SameRecord.refl _⟩
  | some existing =>
    have hskill : (s.slot id).skill = some existing := hexisting
    simp only
    split
    · rw [State.slot_putInstalled_self]
      have hkept : (s.slot id).Kept
          { s.slot id with skill := some { existing with enabled := false } } :=
        ⟨Slot.sameRecord_enabled hexisting false _ _, rfl⟩
      exact ⟨hmarked.of_kept hkept, fun _ => hkept.toSameRecord⟩
    · next horigin =>
      rw [State.slot_deleteInstalled_self]
      constructor
      · refine Slot.marked_of_not ?_
        rintro ⟨skill, -, hnone, -⟩
        cases hnone
      · intro hregistry
        rw [hskill, map_some, horigin] at hregistry
        cases hregistry

theorem callTool_spec {call : FileCall} (hmarked : (s.slot id).Marked hash)
    (h : ToolLossless hash id s call) :
    ((s.callTool hash call).slot id).Marked hash ∧
      ((s.slot id).Customised hash → writtenSkill call ≠ some id →
        (s.slot id).SameRecord ((s.callTool hash call).slot id)) := by
  unfold State.callTool
  cases hexecute : call.execute s.files with
  | none => exact ⟨hmarked, fun _ _ => Slot.SameRecord.refl _⟩
  | some executed =>
    obtain ⟨result, files⟩ := executed
    simp only
    have hrecord : (s.slot id).SameRecord (({ s with files } : State).slot id) :=
      ⟨rfl, rfl, rfl, rfl⟩
    -- Where the hook does not read a content, the file is as it was or was marked.
    have hunread : (∀ content, files (skillPath id) = some content →
        ¬ (writtenSkill call = some id ∧ content ≠ "")) →
          (({ s with files } : State).slot id).Marked hash := by
      intro hother
      have hslot : ({ s with files } : State).slot id =
        { s.slot id with file := files (skillPath id) } := rfl
      rw [hslot]
      cases hcontent : files (skillPath id) with
      | none =>
        refine Slot.marked_of_not ?_
        rintro ⟨-, content, -, -, hfile, -⟩
        cases hfile
      | some content =>
        have hsafe := h result files content hexecute hcontent
        rw [if_neg (hother content hcontent)] at hsafe
        rcases hsafe with hsame | hafter
        · rw [← hsame]
          exact hmarked
        · exact hafter
    unfold State.afterToolExecution
    rcases hwatched : watchedPath call with _ | ⟨path, deletes⟩
    · have hnone : writtenSkill call = none := by rw [writtenSkill, hwatched]
      refine ⟨hunread fun content _ hread => ?_, fun _ _ => hrecord⟩
      rw [hnone] at hread
      cases hread.1
    · simp only
      cases hid : skillIdFromR2Path path with
      | none =>
        have hnone : writtenSkill call ≠ some id := by
          rw [writtenSkill, hwatched]
          cases deletes <;> simp [hid]
        exact ⟨hunread fun content _ hread => hnone hread.1, fun _ _ => hrecord⟩
      | some other =>
        by_cases hsame : other = id
        · subst hsame
          cases deletes with
          | true =>
            have hnone : writtenSkill call = none := by rw [writtenSkill, hwatched]
            obtain ⟨hafter, hdeleted⟩ := handleDelete_spec (hunread fun content _ hread => by
              rw [hnone] at hread
              cases hread.1)
            refine ⟨hafter, fun hcustomised _ => hrecord.trans (hdeleted ?_)⟩
            obtain ⟨skill, -, hskill, horigin, -⟩ := hcustomised
            have hinstalled : s.installed other = some skill := hskill
            change (s.installed other).map InstalledSkill.origin = _
            rw [hinstalled, map_some, horigin]
          | false =>
            have hwritten : writtenSkill call = some other := by
              rw [writtenSkill, hwatched]
              exact hid
            refine ⟨handleWrite_spec ?_ ?_, fun _ hne => absurd hwritten hne⟩
            · intro content hcontent hempty
              refine hunread fun found hfound hread => hread.2 ?_
              have hsome : files (skillPath other) = some content := hcontent
              rw [hfound] at hsome
              rw [Option.some.inj hsome, hempty]
            · intro content existing conflict hcontent hne hexisting horigin hconflict
              have hsafe := h result files content hexecute hcontent
              rw [if_pos ⟨hwritten, hne⟩] at hsafe
              exact hsafe existing conflict hexisting horigin hconflict
        · have hne : writtenSkill call ≠ some id := by
            rw [writtenSkill, hwatched]
            cases deletes with
            | true => simp
            | false => simpa [hid] using hsame
          have hplain := hunread fun content _ hread => hne hread.1
          cases deletes with
          | true =>
            simp only [if_true]
            rw [State.slot_handleDelete_of_ne (Ne.symm hsame)]
            exact ⟨hplain, fun _ _ => hrecord⟩
          | false =>
            simp only [Bool.false_eq_true, if_false]
            rw [State.slot_handleWrite_of_ne (Ne.symm hsame)]
            exact ⟨hplain, fun _ _ => hrecord⟩

theorem step_spec (label : Label hash) (hmarked : (s.slot id).Marked hash)
    (h : Lossless hash id s label) :
    ((step s label).slot id).Marked hash ∧ Respects hash id s label := by
  cases label with
  | connect registry declarations capabilityIds => exact foldl_spec declarations hmarked h
  | configChange registry configs =>
    cases configs with
    | none =>
      exact ⟨hmarked, fun _ => ⟨Slot.SameRecord.refl _, fun _ => Slot.Kept.refl _⟩⟩
    | some configs =>
      obtain ⟨hafter, hrecord, hkept⟩ := configChange_spec configs hmarked h
      exact ⟨hafter, fun hcustomised => ⟨hrecord, hkept hcustomised⟩⟩
  | install registry body => exact install_spec hmarked h
  | uninstall declarations other =>
    obtain ⟨hafter, hkept⟩ := uninstall_spec declarations other hmarked
    exact ⟨hafter, fun _ => hkept⟩
  | tool call => exact callTool_spec hmarked h

end Steps

/-- A skill is declared, and the agent customises it. -/
def customisedRun : List (Label fun text => text) :=
  [.connect (fun _ => .ok (some (notesVersion "1" "theirs"))) [⟨"notes", none⟩] [],
    .tool (.write "skills/notes/SKILL.md" "mine")]

def customisedNotes : InstalledSkill where
  name := "Notes"
  description := "Take notes"
  enabled := true
  origin := .registry
  registryVersion := some "1"
  registryHash := some "theirs"
  dirty := some true
  requiresCapabilities := []

theorem customisedRun_slot :
    (Run.run step {} customisedRun).slot "notes" = ⟨some customisedNotes, none, some "mine"⟩ := by
  decide

theorem connectLossless_version {s : State} {number content : String}
    (h : s.installed "notes" = none ∨ ∃ existing, s.installed "notes" = some existing ∧
      existing.registryVersion ≠ some number) :
    ConnectLossless _ "notes" s (fun _ => .ok (some (notesVersion number content)))
      [⟨"notes", none⟩] [] := by
  refine Run.allowed_cons (fun _ record hrecord => ?_) (Run.allowed_nil _ _ _)
  obtain rfl : notesVersion number content = record := Option.some.inj (Except.ok.inj hrecord)
  have hwanted : SkillDeclaration.wanted ⟨"notes", none⟩ ≠ false := by decide
  refine ⟨fun hmissing => ?_, fun _ hnew => ⟨?_, fun hoff => absurd hoff hwanted⟩,
    fun _ _ _ existing hskill _ hversion => ?_, fun _ _ hoff => absurd hoff hwanted⟩
  · cases hmissing
  · rintro ⟨skill, -, hskill, -⟩
    have hinstalled : s.installed "notes" = some skill := hskill
    rw [hinstalled] at hnew
    cases hnew
  · have hinstalled : s.installed "notes" = some existing := hskill
    rcases h with hnone | ⟨recorded, hrecorded, hne⟩
    · rw [hnone] at hinstalled
      cases hinstalled
    · rw [hrecorded] at hinstalled
      exact absurd (Option.some.inj hinstalled ▸ hversion) hne

end CrabbyKit.Skills
