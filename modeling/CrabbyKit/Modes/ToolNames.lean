import CrabbyKit.Modes.Agreement

/-!
# Names of the tools offered to the model

`resolveCapabilities` drops a tool whose name another capability has used. `collectAllTools` puts
four more sources before these tools and drops nothing, and `applyMode` strips the tools of
excluded capabilities by their names.
-/

namespace CrabbyKit.Modes

open List

open CrabbyKit.Bundle (Filter Mode)

section Names

variable {T : Type*} (name : T → String)

/-- The tools that the runtime adds: for the config, for other agents if there is a client, and
for modes if there are some. -/
structure RuntimeTools where
  configTools : List T
  a2aClientTools : List T
  modeTools : List T
  config_names : configTools.map name = ["config_get", "config_set", "config_schema"]
  a2a_names : a2aClientTools.map name = [] ∨
    a2aClientTools.map name = ["call_agent", "start_task", "check_task", "cancel_task"]
  mode_names : modeTools.map name = [] ∨ modeTools.map name = ["enter_mode", "exit_mode"]

variable {name}

/-- All of them, in the order of `collectAllTools`. -/
def RuntimeTools.all (runtime : RuntimeTools name) : List T :=
  runtime.configTools ++ runtime.a2aClientTools ++ runtime.modeTools

theorem RuntimeTools.nodup (runtime : RuntimeTools name) : (runtime.all.map name).Nodup := by
  unfold RuntimeTools.all
  rw [map_append, map_append, runtime.config_names]
  rcases runtime.a2a_names with ha2a | ha2a
  · rcases runtime.mode_names with hmode | hmode
    · rw [ha2a, hmode]
      decide
    · rw [ha2a, hmode]
      decide
  · rcases runtime.mode_names with hmode | hmode
    · rw [ha2a, hmode]
      decide
    · rw [ha2a, hmode]
      decide

variable (name)

def LiveToolsKept (capabilities : List (Capability T)) (mode : Mode) : Prop :=
  ∀ cap ∈ capabilities, cap.id ∉ deadCapIds capabilities mode → ∀ t ∈ cap.tools.getD [],
    t ∈ resolveTools name capabilities → name t ∉ deadCapToolNames name capabilities mode

/-- The tools offered to the model have different names, and no mode strips a tool of a live
capability for its name. -/
def OneMeaning (baseTools : List T) (runtime : RuntimeTools name)
    (capabilities : List (Capability T)) : Prop :=
  ((collectAllTools name baseTools runtime.all capabilities).map name).Nodup ∧
    ∀ mode, LiveToolsKept name capabilities mode

/-- The names that the sources use are told apart: those of the agent's own tools, of the
runtime's, and of each capability's. -/
structure NamesApart (baseTools : List T) (runtime : RuntimeTools name)
    (capabilities : List (Capability T)) : Prop where
  base : (baseTools.map name).Nodup
  baseRuntime : ∀ t ∈ baseTools, name t ∉ runtime.all.map name
  capabilityTools : ∀ t ∈ contributed capabilities,
    name t ∉ baseTools.map name ∧ name t ∉ runtime.all.map name
  acrossCapabilities : ∀ a ∈ capabilities, ∀ b ∈ capabilities, a.id ≠ b.id →
    ∀ t ∈ a.tools.getD [], name t ∉ (b.tools.getD []).map name

variable {name}

theorem keepFirst_spec (tools kept : List T) (hkept : (kept.map name).Nodup) :
    let result := tools.foldl
      (fun kept t => if name t ∈ kept.map name then kept else kept ++ [t]) kept
    (result.map name).Nodup ∧ (∀ t ∈ result, t ∈ kept ∨ t ∈ tools) ∧
      ∀ n, n ∈ result.map name ↔ n ∈ kept.map name ∨ n ∈ tools.map name := by
  induction tools generalizing kept with
  | nil => simp [hkept]
  | cons t rest ih =>
    rw [foldl_cons]
    by_cases hmem : name t ∈ kept.map name
    · rw [if_pos hmem]
      obtain ⟨hnodup, hfrom, hnames⟩ := ih kept hkept
      refine ⟨hnodup, fun u hu => ?_, fun n => ?_⟩
      · rcases hfrom u hu with hu | hu
        · exact Or.inl hu
        · exact Or.inr (mem_cons_of_mem t hu)
      · rw [hnames n, map_cons, mem_cons]
        constructor
        · rintro (hn | hn)
          · exact Or.inl hn
          · exact Or.inr (Or.inr hn)
        · rintro (hn | rfl | hn)
          · exact Or.inl hn
          · exact Or.inl hmem
          · exact Or.inr hn
    · rw [if_neg hmem]
      have hmore : ((kept ++ [t]).map name).Nodup := by
        rw [map_append, map_singleton]
        refine nodup_append.mpr ⟨hkept, nodup_singleton _, fun n hn m hm heq => ?_⟩
        rw [mem_singleton.mp hm] at heq
        exact hmem (heq ▸ hn)
      obtain ⟨hnodup, hfrom, hnames⟩ := ih (kept ++ [t]) hmore
      refine ⟨hnodup, fun u hu => ?_, fun n => ?_⟩
      · rcases hfrom u hu with hu | hu
        · rcases mem_append.mp hu with hu | hu
          · exact Or.inl hu
          · exact Or.inr (mem_singleton.mp hu ▸ mem_cons_self)
        · exact Or.inr (mem_cons_of_mem t hu)
      · rw [hnames n, map_append, mem_append, map_singleton, mem_singleton,
          map_cons, mem_cons, or_assoc]

theorem resolveTools_spec (name : T → String) (capabilities : List (Capability T)) :
    ((resolveTools name capabilities).map name).Nodup ∧
      (∀ t ∈ resolveTools name capabilities, t ∈ contributed capabilities) ∧
      ∀ n, n ∈ (resolveTools name capabilities).map name ↔
        n ∈ (contributed capabilities).map name := by
  obtain ⟨hnodup, hfrom, hnames⟩ :=
    keepFirst_spec (contributed capabilities) [] (nodup_nil : ([].map name).Nodup)
  refine ⟨hnodup, fun t ht => ?_, fun n => ?_⟩
  · rcases hfrom t ht with hnil | hmem
    · cases hnil
    · exact hmem
  · rw [resolveTools]
    exact (hnames n).trans (by simp)

theorem collectAllTools_nodup_iff (baseTools : List T) (runtime : RuntimeTools name)
    (capabilities : List (Capability T)) :
    ((collectAllTools name baseTools runtime.all capabilities).map name).Nodup ↔
      (baseTools.map name).Nodup ∧ (∀ t ∈ baseTools, name t ∉ runtime.all.map name) ∧
        ∀ t ∈ contributed capabilities,
          name t ∉ baseTools.map name ∧ name t ∉ runtime.all.map name := by
  obtain ⟨hnodup, -, hnames⟩ := resolveTools_spec name capabilities
  unfold collectAllTools
  rw [map_append, map_append, nodup_append, nodup_append]
  constructor
  · rintro ⟨⟨hbase, -, hruntime⟩, -, happend⟩
    refine ⟨hbase, fun t ht hmem => ?_, fun t ht => ?_⟩
    · exact hruntime _ (mem_map_of_mem ht) _ hmem rfl
    · have hresolved : name t ∈ (resolveTools name capabilities).map name :=
        (hnames _).mpr (mem_map_of_mem ht)
      exact ⟨fun hmem => happend _ (mem_append_left _ hmem) _ hresolved rfl,
        fun hmem => happend _ (mem_append_right _ hmem) _ hresolved rfl⟩
  · rintro ⟨hbase, hruntime, hcapabilities⟩
    refine ⟨⟨hbase, runtime.nodup, ?_⟩, hnodup, ?_⟩
    · rintro n hn m hm rfl
      obtain ⟨t, ht, rfl⟩ := mem_map.mp hn
      exact hruntime t ht hm
    · rintro n hn m hm rfl
      obtain ⟨t, ht, rfl⟩ := mem_map.mp ((hnames n).mp hm)
      obtain ⟨hnotBase, hnotRuntime⟩ := hcapabilities t ht
      rcases mem_append.mp hn with hn | hn
      · exact hnotBase hn
      · exact hnotRuntime hn

theorem mem_deadCapToolNames {capabilities : List (Capability T)} {mode : Mode} {n : String} :
    n ∈ deadCapToolNames name capabilities mode ↔ ∃ cap ∈ capabilities,
      cap.id ∈ deadCapIds capabilities mode ∧ n ∈ (cap.tools.getD []).map name := by
  unfold deadCapToolNames
  simp only [mem_flatMap, mem_filter, decide_eq_true_eq, and_assoc]

def without (id : String) : Mode where
  id := "without"
  name := "Without"
  capabilities := some { deny := some [id] }

theorem deadCapIds_without (capabilities : List (Capability T)) (id : String) :
    deadCapIds capabilities (without id) = [id] := by
  simp [deadCapIds, without, computeDeadCapIds, allowList, denyList]

theorem liveToolsKept_iff (capabilities : List (Capability T)) :
    (∀ mode, LiveToolsKept name capabilities mode) ↔
      ∀ a ∈ capabilities, ∀ b ∈ capabilities, a.id ≠ b.id →
        ∀ t ∈ a.tools.getD [], name t ∉ (b.tools.getD []).map name := by
  constructor
  · intro h a ha b hb hne t ht hshared
    -- the tool of that name that is offered comes from some capability, and one of the two is
    -- another; the mode without that one strips the tool
    obtain ⟨-, hfrom, hnames⟩ := resolveTools_spec name capabilities
    have hcontributed : name t ∈ (contributed capabilities).map name :=
      mem_map_of_mem (mem_flatMap.mpr ⟨a, ha, ht⟩)
    obtain ⟨kept, hkept, hname⟩ := mem_map.mp ((hnames _).mpr hcontributed)
    obtain ⟨owner, howner, hown⟩ := mem_flatMap.mp (hfrom kept hkept)
    have hother : ∃ d ∈ capabilities, d.id ≠ owner.id ∧ name t ∈ (d.tools.getD []).map name := by
      by_cases hsame : owner.id = a.id
      · exact ⟨b, hb, fun heq => hne (hsame.symm.trans heq.symm), hshared⟩
      · exact ⟨a, ha, fun heq => hsame heq.symm, mem_map_of_mem ht⟩
    obtain ⟨d, hd, hapart, hmem⟩ := hother
    refine h (without d.id) owner howner ?_ kept hown hkept ?_
    · rw [deadCapIds_without, mem_singleton]
      exact hapart.symm
    · rw [hname, mem_deadCapToolNames, deadCapIds_without]
      exact ⟨d, hd, mem_singleton_self _, hmem⟩
  · intro h mode cap hcap hlive t ht _ hstripped
    obtain ⟨dead, hdead, hid, hmem⟩ := mem_deadCapToolNames.mp hstripped
    have hne : cap.id ≠ dead.id := fun heq => hlive (heq ▸ hid)
    exact h cap hcap dead hdead hne t ht hmem

/-- A name means one tool, in every mode, exactly when all sources use names of their own. -/
theorem oneMeaning_iff (baseTools : List T) (runtime : RuntimeTools name)
    (capabilities : List (Capability T)) :
    OneMeaning name baseTools runtime capabilities ↔
      NamesApart name baseTools runtime capabilities := by
  unfold OneMeaning
  rw [collectAllTools_nodup_iff, liveToolsKept_iff]
  constructor
  · rintro ⟨⟨hbase, hruntime, hcapabilities⟩, hacross⟩
    exact ⟨hbase, hruntime, hcapabilities, hacross⟩
  · intro h
    exact ⟨⟨h.base, h.baseRuntime, h.capabilityTools⟩, h.acrossCapabilities⟩

end Names

/-- The tools of a runtime without a client and without modes, each its own name. -/
def plainRuntime : RuntimeTools (id : String → String) where
  configTools := ["config_get", "config_set", "config_schema"]
  a2aClientTools := []
  modeTools := []
  config_names := rfl
  a2a_names := Or.inl rfl
  mode_names := Or.inl rfl

/-- An agent with a tool of its own that a capability also has, and one with two capabilities that
share a tool: the mode without the second has none of it. -/
theorem names_shared :
    ¬ OneMeaning id ["bash"] plainRuntime [⟨"sandbox", some ["bash"], false⟩] ∧
      collectAllTools id ["bash"] plainRuntime.all [⟨"sandbox", some ["bash"], false⟩] =
        ["bash", "config_get", "config_set", "config_schema", "bash"] ∧
      ¬ OneMeaning id [] plainRuntime
        [⟨"sandbox", some ["bash"], false⟩, ⟨"shell", some ["bash"], false⟩] ∧
      (applyMode id [] [⟨"sandbox", some ["bash"], false⟩, ⟨"shell", some ["bash"], false⟩]
        (collectAllTools id [] plainRuntime.all
          [⟨"sandbox", some ["bash"], false⟩, ⟨"shell", some ["bash"], false⟩])
        (some (without "shell"))).tools = ["config_get", "config_set", "config_schema"] := by
  refine ⟨fun h => ?_, by decide, fun h => ?_, by decide⟩
  · exact absurd h.1 (by decide)
  · have hkept := h.2 (without "shell") ⟨"sandbox", some ["bash"], false⟩ mem_cons_self
      (by decide) "bash" mem_cons_self (by decide)
    exact hkept (by decide)

end CrabbyKit.Modes
