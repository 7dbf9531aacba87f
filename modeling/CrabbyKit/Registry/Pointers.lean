import CrabbyKit.Registry.Agreement

/-!
# The pointer under interleaved calls

Several callers promote and roll back at the same time. Every statement or batch is atomic, so a
call is a read, with its checks, and later a batch. A ghost list records the active versions that
the batches leave, in their order.
-/

namespace CrabbyKit.BundleRegistry

open List Option Function

/-- What a caller has read and not written yet. -/
inductive Pending
  | idle
  | promotion (agentId : String) (versionId : Option String) (options : SetActiveOptions)
  | rollback (agentId : String) (read : BundleRow) (opts : RollbackOpts)

/-- The registry, the calls under way, and the active versions that each batch left. -/
structure Callers where
  registry : D1State := {}
  pending : Nat → Pending := fun _ => .idle
  successive : List (String × Option String) := []

inductive PointerEvent
  | createVersion (opts : CreateVersionOpts) (now : Instant) (visible : Nat → Bool)
  | startSetActive (caller : Nat) (agentId : String) (versionId : Option String)
      (options : SetActiveOptions)
  | startRollback (caller : Nat) (agentId : String) (opts : RollbackOpts)
  | finish (caller : Nat) (now : Instant)

namespace Callers

def wrote (s : Callers) (caller : Nat) (agentId : String) (registry : D1State) : Callers where
  registry := registry
  pending := Function.update s.pending caller .idle
  successive := s.successive ++ [(agentId, registry.getActiveForAgent agentId)]

/-- The caller is left with a batch to run. -/
def waits (s : Callers) (caller : Nat) (pending : Pending) : Callers :=
  { s with pending := Function.update s.pending caller pending }

variable (computeVersionId : List UInt8 → String)

/-- One statement or batch; a call whose checks fail leaves its caller idle. -/
def step (s : Callers) : PointerEvent → Callers
  | .createVersion opts now visible =>
    { s with registry := (s.registry.createVersion computeVersionId opts now visible).2 }
  | .startSetActive caller agentId versionId options =>
    match s.pending caller with
    | .idle =>
      match versionId.elim (.ok ()) fun id => s.registry.checkPromotion id options with
      | .ok () => s.waits caller (.promotion agentId versionId options)
      | .error _ => s
    | _ => s
  | .startRollback caller agentId opts =>
    match s.pending caller with
    | .idle =>
      match s.registry.rollbackRead agentId with
      | .ok read => s.waits caller (.rollback agentId read opts)
      | .error _ => s
    | _ => s
  | .finish caller now =>
    match s.pending caller with
    | .idle => s
    | .promotion agentId versionId options =>
      s.wrote caller agentId (s.registry.setActiveBatch agentId versionId now options)
    | .rollback agentId read opts =>
      s.wrote caller agentId (s.registry.rollbackBatch agentId read now opts)

/-- The active versions of an agent so far. -/
def history (s : Callers) (agentId : String) : List (Option String) :=
  (s.successive.filter fun entry => entry.1 = agentId).map Prod.snd

end Callers

def D1State.pointer (s : D1State) (agentId : String) : Option (Option String × Option String) :=
  (s.bundle agentId).map fun row => (row.activeVersionId, row.previousVersionId)

def D1State.Stored (s : D1State) (versionId : String) : Prop := (s.version versionId).isSome

/-- A promotion's batch names a stored version or none, and a rollback's batch finds the columns
that were read. -/
def Undisturbed (s : Callers) : PointerEvent → Prop
  | .finish caller _ =>
    match s.pending caller with
    | .idle => True
    | .promotion _ versionId _ => ∀ id ∈ versionId, s.registry.Stored id
    | .rollback agentId read _ =>
      s.registry.pointer agentId = some (read.activeVersionId, read.previousVersionId)
  | _ => True

/-- A pointer holds the last two entries of its agent's history. -/
inductive Tracks : Option (Option String × Option String) → List (Option String) → Prop
  | absent : Tracks none []
  | first (active : Option String) : Tracks (some (active, none)) [active]
  | later (earlier : List (Option String)) (active previous : Option String) :
      Tracks (some (active, previous)) (earlier ++ [previous, active])

theorem tracks_concat (earlier : List (Option String)) (previous active next : Option String) :
    Tracks (some (next, active)) (earlier ++ [previous, active] ++ [next]) := by
  rw [append_assoc, cons_append, ← singleton_append, ← append_assoc]
  exact .later (earlier ++ [previous]) next active

variable {history : List (Option String)}

theorem tracks_shifted {pointer : Option (Option String × Option String)}
    (h : Tracks pointer history) (versionId : Option String) :
    Tracks (some (versionId, pointer.bind Prod.fst)) (history ++ [versionId]) := by
  cases h with
  | absent => exact .first versionId
  | first active => exact .later [] versionId active
  | later earlier active previous => exact tracks_concat earlier previous active versionId

variable {active previous : Option String}

theorem tracks_swapped
    (h : Tracks (some (active, previous)) history) (hprevious : previous ≠ none) :
    ∃ earlier, history = earlier ++ [previous, active] ∧
      Tracks (some (previous, active)) (history ++ [previous]) := by
  cases h with
  | first => exact absurd rfl hprevious
  | later earlier => exact ⟨earlier, rfl, tracks_concat earlier previous active previous⟩

theorem mem_of_tracks (h : Tracks (some (active, previous)) history) {id : String}
    (hid : active = some id ∨ previous = some id) : some id ∈ history := by
  cases h with
  | first =>
    rcases hid with rfl | hid
    · exact mem_singleton.mpr rfl
    · cases hid
  | later earlier =>
    apply mem_append_right
    rcases hid with rfl | rfl
    · exact mem_cons_of_mem _ (mem_singleton.mpr rfl)
    · exact mem_cons_self

namespace D1State

theorem getActiveForAgent_eq (s : D1State) (agentId : String) :
    s.getActiveForAgent agentId = (s.pointer agentId).bind Prod.fst := by
  rw [getActiveForAgent, pointer, bind_map]
  rfl

theorem pointer_eq_some {s : D1State} {agentId : String} {columns} :
    s.pointer agentId = some columns ↔
      ∃ row, s.bundle agentId = some row ∧ (row.activeVersionId, row.previousVersionId) = columns :=
  map_eq_some_iff

theorem pointer_setActiveBatch (s : D1State) (agentId other : String)
    (versionId : Option String) (now : Instant) (options : SetActiveOptions) :
    (s.setActiveBatch agentId versionId now options).pointer other =
      if other = agentId then some (versionId, (s.pointer agentId).bind Prod.fst)
      else s.pointer other := by
  rw [← getActiveForAgent_eq]
  have hbundle := s.bundle_upsertActive agentId other versionId now
  change ((s.upsertActive agentId versionId now).bundle other).map _ = _
  rw [hbundle]
  split <;> rfl

theorem pointer_rollbackBatch (s : D1State) (agentId other : String) (read : BundleRow)
    (now : Instant) (opts : RollbackOpts) :
    (s.rollbackBatch agentId read now opts).pointer other =
      (s.pointer other).map fun columns =>
        if other = agentId then (read.previousVersionId, read.activeVersionId) else columns := by
  have hbundle : (s.rollbackBatch agentId read now opts).bundle other =
      (s.bundle other).map fun row =>
        if other = agentId then .written read.previousVersionId read.activeVersionId now row
        else row :=
    Table.lookup_modify (f := BundleRow.written _ _ now) (fun _ => rfl) other
  rw [pointer, pointer, hbundle, Option.map_map, Option.map_map]
  congr 1
  funext row
  simp only [comp_apply]
  split <;> rfl

theorem rollbackRead_eq_ok {s : D1State} {agentId : String} {read : BundleRow} :
    s.rollbackRead agentId = .ok read ↔
      s.bundle agentId = some read ∧ read.previousVersionId.getD "" ≠ "" := by
  unfold rollbackRead
  constructor
  · intro h
    split at h
    · rename_i row hrow
      split at h
      · cases h
      · rename_i hne
        obtain rfl := Except.ok.inj h
        exact ⟨hrow, hne⟩
    · cases h
  · rintro ⟨hrow, hne⟩
    rw [hrow]
    exact if_neg hne

/-- `createVersion` touches neither pointers nor log, and no version is lost. -/
theorem createVersion_tables (computeVersionId : List UInt8 → String) (s : D1State)
    (opts : CreateVersionOpts) (now : Instant) (visible : Nat → Bool) :
    (s.createVersion computeVersionId opts now visible).2.bundles = s.bundles ∧
    (s.createVersion computeVersionId opts now visible).2.deployments = s.deployments ∧
    ∀ id, s.Stored id → (s.createVersion computeVersionId opts now visible).2.Stored id := by
  by_cases hsize : opts.bytes.length ≤ maxBundleSizeBytes
  · cases hrow : s.version (computeVersionId opts.bytes) with
    | some row =>
      rw [createVersion_known hsize hrow]
      exact ⟨rfl, rfl, fun _ h => h⟩
    | none =>
      cases hvisible : verifyKvReadback visible with
      | true =>
        rw [createVersion_new hsize hrow hvisible]
        refine ⟨rfl, rfl, fun id hid => ?_⟩
        obtain ⟨old, hold⟩ := isSome_iff_exists.mp hid
        change (Table.lookup VersionRow.versionId (s.versions ++ [_]) id).isSome
        rw [Table.lookup_concat, show Table.lookup _ s.versions id = some old from hold]
        rfl
      | false =>
        have hhidden : ∃ e, s.createVersion computeVersionId opts now visible = (.error e, _) :=
          createVersion_hidden hsize hrow hvisible
        obtain ⟨e, herror⟩ := hhidden
        rw [herror]
        exact ⟨rfl, rfl, fun _ h => h⟩
  · have hlarge : ∃ e, s.createVersion computeVersionId opts now visible = (.error e, s) :=
      createVersion_large (Nat.not_le.mp hsize)
    obtain ⟨e, herror⟩ := hlarge
    rw [herror]
    exact ⟨rfl, rfl, fun _ h => h⟩

end D1State

/-- Pointers track histories of stored versions, a pending rollback has a version to go back to, and
the log lists what the batches left. -/
structure Sound (s : Callers) : Prop where
  tracked : ∀ agentId, Tracks (s.registry.pointer agentId) (s.history agentId)
  stored : ∀ agentId id, some id ∈ s.history agentId → s.registry.Stored id
  previous : ∀ caller agentId read opts, s.pending caller = .rollback agentId read opts →
    read.previousVersionId.getD "" ≠ ""
  logged : (s.registry.deployments.map fun row => (row.agentId, row.versionId)) = s.successive

theorem sound_start : Sound {} where
  tracked _ := .absent
  stored _ _ h := by cases h
  previous _ _ _ _ h := by cases h
  logged := rfl

theorem Callers.pending_waits (s : Callers) (caller other : Nat) (pending : Pending) :
    (s.waits caller pending).pending other = if other = caller then pending else s.pending other :=
  update_apply s.pending caller pending other

theorem Callers.pending_wrote (s : Callers) (caller other : Nat) (agentId : String)
    (registry : D1State) : (s.wrote caller agentId registry).pending other =
      if other = caller then .idle else s.pending other :=
  update_apply s.pending caller .idle other

variable {s : Callers}

theorem sound_waits (h : Sound s) (caller : Nat) {pending : Pending}
    (hprevious : ∀ agentId read opts, pending = .rollback agentId read opts →
      read.previousVersionId.getD "" ≠ "") :
    Sound (s.waits caller pending) where
  tracked := h.tracked
  stored := h.stored
  logged := h.logged
  previous other agentId read opts hother := by
    rw [Callers.pending_waits] at hother
    split at hother
    · exact hprevious agentId read opts hother
    · exact h.previous other agentId read opts hother

theorem Callers.history_wrote (s : Callers) (caller : Nat) (agentId other : String)
    (registry : D1State) : (s.wrote caller agentId registry).history other =
      if other = agentId then s.history other ++ [registry.getActiveForAgent agentId]
      else s.history other := by
  by_cases hsame : other = agentId
  · subst hsame
    simp [Callers.history, Callers.wrote]
  · simp [Callers.history, Callers.wrote, hsame, Ne.symm hsame]

theorem sound_wrote (h : Sound s) (caller : Nat) {agentId : String}
    {registry : D1State} (hversions : registry.versions = s.registry.versions)
    (hothers : ∀ other ≠ agentId, registry.pointer other = s.registry.pointer other)
    (hrow : Tracks (registry.pointer agentId)
      (s.history agentId ++ [registry.getActiveForAgent agentId]))
    (hstored : ∀ id, registry.getActiveForAgent agentId = some id → s.registry.Stored id)
    (hlog : registry.deployments.map (fun row => (row.agentId, row.versionId)) =
      s.registry.deployments.map (fun row => (row.agentId, row.versionId)) ++
        [(agentId, registry.getActiveForAgent agentId)]) :
    Sound (s.wrote caller agentId registry) where
  tracked other := by
    rw [Callers.history_wrote]
    by_cases hsame : other = agentId
    · subst hsame
      rw [if_pos rfl]
      exact hrow
    · rw [if_neg hsame]
      exact (hothers other hsame).symm ▸ h.tracked other
  stored other id hid := by
    change (Table.lookup VersionRow.versionId registry.versions id).isSome
    rw [hversions]
    rw [Callers.history_wrote] at hid
    split at hid
    · rcases mem_append.mp hid with hid | hid
      · exact h.stored other id hid
      · exact hstored id (mem_singleton.mp hid).symm
    · exact h.stored other id hid
  previous other agent read opts hother := by
    rw [Callers.pending_wrote] at hother
    split at hother
    · cases hother
    · exact h.previous other agent read opts hother
  logged := by
    change registry.deployments.map _ = s.successive ++ _
    rw [hlog, h.logged]

theorem sound_promotion (h : Sound s) (caller : Nat) (agentId : String)
    {versionId : Option String} (hstored : ∀ id ∈ versionId, s.registry.Stored id)
    (options : SetActiveOptions) (now : Instant) :
    Sound (s.wrote caller agentId (s.registry.setActiveBatch agentId versionId now options)) := by
  have hpointer := s.registry.pointer_setActiveBatch agentId
  have hactive : (s.registry.setActiveBatch agentId versionId now options).getActiveForAgent
      agentId = versionId := by
    rw [D1State.getActiveForAgent_eq, hpointer, if_pos rfl]
    rfl
  have hversions : (s.registry.setActiveBatch agentId versionId now options).versions =
      s.registry.versions := rfl
  apply sound_wrote h caller hversions
  · intro other hne
    rw [hpointer, if_neg hne]
  · rw [hpointer, if_pos rfl, hactive]
    exact tracks_shifted (h.tracked agentId) versionId
  · intro id hid
    rw [hactive] at hid
    exact hstored id hid
  · rw [hactive]
    exact map_append

theorem sound_rollback (h : Sound s) (caller : Nat) {agentId : String}
    {read : BundleRow} {opts : RollbackOpts}
    (hpending : s.pending caller = .rollback agentId read opts)
    (hread : s.registry.pointer agentId = some (read.activeVersionId, read.previousVersionId))
    (now : Instant) :
    Sound (s.wrote caller agentId (s.registry.rollbackBatch agentId read now opts)) ∧
    (∃ earlier, s.history agentId =
      earlier ++ [read.previousVersionId, read.activeVersionId]) ∧
    (s.registry.rollbackBatch agentId read now opts).getActiveForAgent agentId =
      read.previousVersionId := by
  have hpointer := s.registry.pointer_rollbackBatch agentId
  have hwritten : (s.registry.rollbackBatch agentId read now opts).pointer agentId =
      some (read.previousVersionId, read.activeVersionId) := by
    rw [hpointer, hread]
    simp
  have hactive : (s.registry.rollbackBatch agentId read now opts).getActiveForAgent agentId =
      read.previousVersionId := by
    rw [D1State.getActiveForAgent_eq, hwritten]
    rfl
  have hsome : read.previousVersionId ≠ none := by
    intro hnone
    apply h.previous caller agentId read opts hpending
    rw [hnone]
    rfl
  have htracked := h.tracked agentId
  rw [hread] at htracked
  obtain ⟨earlier, hhistory, hswapped⟩ := tracks_swapped htracked hsome
  have hversions : (s.registry.rollbackBatch agentId read now opts).versions =
      s.registry.versions := rfl
  refine ⟨?_, ⟨earlier, hhistory⟩, hactive⟩
  apply sound_wrote h caller hversions
  · intro other hne
    rw [hpointer]
    simp [hne]
  · rw [hwritten, hactive]
    exact hswapped
  · intro id hid
    rw [hactive] at hid
    exact h.stored agentId id (mem_of_tracks htracked (Or.inr hid))
  · rw [hactive]
    exact map_append

variable (computeVersionId : List UInt8 → String)

theorem sound_step (h : Sound s) (e : PointerEvent) (he : Undisturbed s e) :
    Sound (s.step computeVersionId e) := by
  cases e with
  | createVersion opts now visible =>
    obtain ⟨hbundles, hlog, hstored⟩ :=
      s.registry.createVersion_tables computeVersionId opts now visible
    have hpointer : ∀ agentId,
        (s.registry.createVersion computeVersionId opts now visible).2.pointer agentId =
          s.registry.pointer agentId := by
      intro agentId
      rw [D1State.pointer, D1State.bundle, hbundles]
      rfl
    constructor
    · exact fun agentId => (hpointer agentId).symm ▸ h.tracked agentId
    · exact fun agentId id hid => hstored id (h.stored agentId id hid)
    · exact h.previous
    · change List.map _ (D1State.createVersion _ _ _ _ _).2.deployments = _
      rw [hlog]
      exact h.logged
  | startSetActive caller agentId versionId options =>
    simp only [Callers.step]
    split
    · split
      · apply sound_waits h caller
        rintro agent read opts ⟨⟩
      · exact h
    · exact h
  | startRollback caller agentId opts =>
    simp only [Callers.step]
    split
    · split
      · rename_i read hread
        apply sound_waits h caller
        rintro agent other opts' ⟨⟩
        exact (D1State.rollbackRead_eq_ok.mp hread).2
      · exact h
    · exact h
  | finish caller now =>
    simp only [Callers.step]
    simp only [Undisturbed] at he
    split
    · exact h
    · rename_i agentId versionId options hpending
      rw [hpending] at he
      exact sound_promotion h caller agentId he options now
    · rename_i agentId read opts hpending
      rw [hpending] at he
      exact (sound_rollback h caller hpending he now).1

def swapped (columns : Option String × Option String) : Option String × Option String :=
  if columns.2.getD "" = "" then columns else columns.swap

theorem D1State.pointer_rollback (s : D1State) (agentId : String) (now : Instant)
    (opts : RollbackOpts) :
    (s.rollback agentId now opts).2.pointer agentId = (s.pointer agentId).map swapped := by
  unfold D1State.rollback
  cases hread : s.rollbackRead agentId with
  | ok read =>
    obtain ⟨hrow, hprevious⟩ := D1State.rollbackRead_eq_ok.mp hread
    have hpointer : s.pointer agentId = some (read.activeVersionId, read.previousVersionId) := by
      rw [D1State.pointer, hrow]
      rfl
    simp only [D1State.pointer_rollbackBatch, hpointer, map_some, if_true]
    rw [swapped, if_neg hprevious]
    rfl
  | error e =>
    have hkeep : ∀ columns ∈ s.pointer agentId, swapped columns = columns := by
      intro columns hcolumns
      obtain ⟨row, hrow, rfl⟩ := D1State.pointer_eq_some.mp hcolumns
      refine if_pos ?_
      by_contra hprevious
      rw [D1State.rollbackRead_eq_ok.mpr ⟨hrow, hprevious⟩] at hread
      cases hread
    change s.pointer agentId = _
    cases hpointer : s.pointer agentId with
    | none => rfl
    | some columns => rw [map_some, hkeep columns hpointer]

theorem swapped_swapped (columns : Option String × Option String) :
    swapped (swapped columns) = columns ↔
      (columns.2.getD "" ≠ "" → columns.1.getD "" ≠ "") := by
  obtain ⟨active, previous⟩ := columns
  by_cases hprevious : previous.getD "" = ""
  · have hkeep : swapped (active, previous) = (active, previous) := if_pos hprevious
    rw [hkeep, hkeep]
    simp only [hprevious, ne_eq, not_true_eq_false, false_implies]
  · have hswap : swapped (active, previous) = (previous, active) := if_neg hprevious
    rw [hswap]
    by_cases hactive : active.getD "" = ""
    · rw [swapped, if_pos hactive]
      simp only [Prod.mk.injEq, ne_eq, hprevious, not_false_eq_true, hactive, not_true_eq_false,
        imp_false, iff_false]
      rintro ⟨rfl, -⟩
      exact hprevious hactive
    · rw [swapped, if_neg hactive]
      exact ⟨fun _ _ => hactive, fun _ => rfl⟩

/-- What the registry promises in one state. -/
structure FollowsHistory (s : Callers) : Prop where
  stored : ∀ agentId active previous, s.registry.pointer agentId = some (active, previous) →
    ∀ id, active = some id ∨ previous = some id → s.registry.Stored id
  logged : (s.registry.deployments.map fun row => (row.agentId, row.versionId)) = s.successive
  restored : ∀ agentId now now' opts opts',
    ((s.registry.rollback agentId now opts).2.rollback agentId now' opts').2.pointer agentId =
      s.registry.pointer agentId ↔
    ∀ active previous, s.registry.pointer agentId = some (active, previous) →
      previous.getD "" ≠ "" → active.getD "" ≠ ""

/-- The batch of a caller's rollback moves the pointer to the version that was active before the
one it replaces. -/
def RollsBack (s : Callers) (caller : Nat) (now : Instant) : Prop :=
  ∀ agentId read opts, s.pending caller = .rollback agentId read opts →
    ∃ earlier version replaced, s.history agentId = earlier ++ [version, replaced] ∧
      s.registry.getActiveForAgent agentId = replaced ∧
      (s.step computeVersionId (.finish caller now)).registry.getActiveForAgent agentId = version

theorem followsHistory_of_sound (h : Sound s) : FollowsHistory s where
  stored agentId active previous hpointer id hid := by
    have htracked := h.tracked agentId
    rw [hpointer] at htracked
    exact h.stored agentId id (mem_of_tracks htracked hid)
  logged := h.logged
  restored agentId now now' opts opts' := by
    rw [D1State.pointer_rollback, D1State.pointer_rollback, Option.map_map]
    cases s.registry.pointer agentId with
    | none => simp
    | some columns =>
      rw [map_some, some_inj, comp_apply, swapped_swapped]
      constructor
      · rintro hkept active previous ⟨⟩
        exact hkept
      · exact fun hkept => hkept columns.1 columns.2 rfl

theorem rollsBack_of_sound (h : Sound s) {caller : Nat} {now : Instant}
    (hread : Undisturbed s (.finish caller now)) : RollsBack computeVersionId s caller now := by
  intro agentId read opts hpending
  simp only [Undisturbed, hpending] at hread
  obtain ⟨-, ⟨earlier, hhistory⟩, hactive⟩ := sound_rollback h caller hpending hread now
  refine ⟨earlier, read.previousVersionId, read.activeVersionId, hhistory, ?_, ?_⟩
  · rw [D1State.getActiveForAgent_eq, hread]
    rfl
  · simp only [Callers.step, hpending]
    exact hactive

/-- In every run of interleaved calls in which promotions name stored versions and a rollback's
batch finds what was read, the pointers follow the history in every state and each rollback goes
one entry back. -/
theorem pointers_follow_history {events : List PointerEvent}
    (h : Run.Allowed Undisturbed (Callers.step computeVersionId) {} events) :
    (∀ before after, events = before ++ after →
      FollowsHistory (Run.run (Callers.step computeVersionId) {} before)) ∧
    ∀ before caller now after, events = before ++ .finish caller now :: after →
      RollsBack computeVersionId (Run.run (Callers.step computeVersionId) {} before) caller
        now := by
  have hsound := Run.invariant_of_allowed sound_start
    (fun _ e hs he => sound_step computeVersionId hs e he) h
  constructor
  · intro before after hsplit
    exact followsHistory_of_sound (hsound before after hsplit)
  · intro before caller now after hsplit
    exact rollsBack_of_sound computeVersionId (hsound before _ hsplit)
      (h before (.finish caller now) after hsplit)

/-- The SHA-256 of the single bytes 2 and 3, and of 1 for any other input. -/
def digestOfByte (bytes : List UInt8) : String :=
  if bytes = [2] then "dbc1b4c900ffe48d575b5da5c638040125f65db0fe3e24494b76ea986457d986"
  else if bytes = [3] then "084fed08b978af4d7d196a7446a86b58009e636b611db16211b65a9aadff29c5"
  else digestOfOne bytes

def published (byte : UInt8) (now : Instant) : List PointerEvent :=
  [.createVersion { bytes := [byte] } now fun _ => true,
    .startSetActive 1 "researcher" (some (digestOfByte [byte])) { skipCatalogCheck := true },
    .finish 1 now]

/-- Two versions, and a rollback that nothing disturbs. -/
def undone : List PointerEvent :=
  published 1 1700000000000 ++ published 2 1700000001000 ++
    [.startRollback 2 "researcher" {}, .finish 2 1700000002000]

/-- A rollback that another caller overtakes between its read and its batch. -/
def overtaken : List PointerEvent :=
  published 1 1700000000000 ++ published 2 1700000001000 ++
    .startRollback 2 "researcher" {} :: published 3 1700000002000

/-- Both promotions and the rollback of `undone` are undisturbed, and the rollback goes back. -/
theorem undone_follows :
    (∀ before after, undone = before ++ after →
      FollowsHistory (Run.run (Callers.step digestOfByte) {} before)) ∧
    ∀ before caller now after, undone = before ++ .finish caller now :: after →
      RollsBack digestOfByte (Run.run (Callers.step digestOfByte) {} before) caller now := by
  apply pointers_follow_history
  refine Run.allowed_cons trivial (Run.allowed_cons trivial (Run.allowed_cons ?_
    (Run.allowed_cons trivial (Run.allowed_cons trivial (Run.allowed_cons ?_
      (Run.allowed_cons trivial (Run.allowed_cons ?_ (Run.allowed_nil _ _ _))))))))
  · rintro id ⟨⟩
    rfl
  · rintro id ⟨⟩
    rfl
  · rfl

/-- The overtaken rollback replaces the third version and goes back to the first one, although the
second was active before the third. -/
theorem overtaken_rollback :
    ¬RollsBack digestOfByte (Run.run (Callers.step digestOfByte) {} overtaken) 2 1700000003000 := by
  intro h
  obtain ⟨earlier, version, replaced, hhistory, -, hactive⟩ := h "researcher"
    ⟨"researcher", some (digestOfByte [2]), some (digestOfByte [1]), 1700000001000⟩ {} rfl
  have hthree : (Run.run (Callers.step digestOfByte) {} overtaken).history "researcher" =
      [some (digestOfByte [1])] ++ [some (digestOfByte [2]), some (digestOfByte [3])] := rfl
  rw [hthree] at hhistory
  obtain ⟨-, hlast⟩ := append_inj' hhistory rfl
  have hfirst : some (digestOfByte [1]) = version := hactive
  rw [← hfirst] at hlast
  exact absurd (List.cons.inj hlast).1 (by decide)

end CrabbyKit.BundleRegistry
