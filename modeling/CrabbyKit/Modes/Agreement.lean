import CrabbyKit.Modes.Filter
import Mathlib.Data.List.Flatten
import Mathlib.Data.List.Nodup
import Mathlib.Data.List.Pairwise

/-!
# One mode, two brains

For a mode that `defineMode` accepts, the two filters keep the same tools: those of no excluded
capability whose names are not denied.
-/

namespace CrabbyKit.Modes

open List Option

open CrabbyKit.Bundle (Filter Mode)

/-- What a filter says about a name, in its own terms: it must be on the allow list, if there is
one, and not on the deny list. -/
def Admits (filter : Option Filter) (id : String) : Prop :=
  ∀ f ∈ filter, (allowList f ≠ [] → id ∈ allowList f) ∧ id ∉ denyList f

/-- A filter with one list at most. -/
def OneSided (filter : Option Filter) : Prop :=
  ∀ f ∈ filter, allowList f = [] ∨ denyList f = []

/-- `assertFilterNotConflicting` lets exactly the filters with one list at most pass. -/
theorem assertFilterNotConflicting_ok (filter : Option Filter) (fieldName : String) :
    assertFilterNotConflicting filter fieldName = .ok () ↔ OneSided filter := by
  cases filter with
  | none => exact iff_of_true rfl fun f hf => by cases hf
  | some f =>
    simp only [assertFilterNotConflicting, OneSided, mem_some_iff, forall_eq']
    by_cases hboth : allowList f ≠ [] ∧ denyList f ≠ []
    · rw [if_pos hboth]
      exact iff_of_false nofun (not_or.mpr hboth)
    · rw [if_neg hboth]
      exact iff_of_true rfl (by rwa [not_and_or, not_not, not_not] at hboth)

/-- `defineMode` accepts exactly the modes whose filters have one list at most. -/
theorem defineMode_ok (mode : Mode) :
    defineMode mode = .ok mode ↔ OneSided mode.capabilities ∧ OneSided mode.tools := by
  rw [← assertFilterNotConflicting_ok mode.capabilities "capabilities",
    ← assertFilterNotConflicting_ok mode.tools "tools", defineMode]
  cases assertFilterNotConflicting mode.capabilities "capabilities" with
  | error message => exact iff_of_false nofun fun h => nomatch h.1
  | ok _ =>
    cases assertFilterNotConflicting mode.tools "tools" with
    | error message => exact iff_of_false nofun fun h => nomatch h.2
    | ok _ => exact iff_of_true rfl ⟨rfl, rfl⟩

theorem mem_computeDeadCapIds {f : Filter} (h : OneSided (some f)) {known : List String}
    {id : String} (hid : id ∈ known) : id ∈ computeDeadCapIds known f ↔ ¬ Admits (some f) id := by
  have hsides := h f rfl
  simp only [computeDeadCapIds, Admits, mem_some_iff, forall_eq']
  by_cases hallow : allowList f = []
  · by_cases hdeny : denyList f = []
    · simp [hallow, hdeny]
    · simp [hallow, hdeny]
  · have hdeny : denyList f = [] := hsides.resolve_left hallow
    simp [hallow, hdeny, hid]

theorem allowedByMode_iff (filter : Option Filter) (id : String) :
    allowedByMode filter id ↔ Admits filter id := by
  cases filter with
  | none => exact iff_of_true rfl fun f hf => by cases hf
  | some f =>
    simp only [allowedByMode, Admits, mem_some_iff, forall_eq', Bool.and_eq_true,
      Bool.not_eq_true', decide_eq_false_iff_not]
    refine and_congr ⟨fun h hne => ?_, fun h hor => hor.2 (h hor.1)⟩
      ⟨fun h hin => ?_, fun h hor => h hor.2⟩
    · by_contra hnot
      exact h ⟨hne, hnot⟩
    · exact h ⟨ne_nil_of_mem hin, hin⟩

instance (filter : Option Filter) (id : String) : Decidable (Admits filter id) :=
  decidable_of_iff _ (allowedByMode_iff filter id)

theorem spliceBackwards_append {E : Type*} (hit : E → Bool) (ahead done : List E) :
    spliceBackwards hit ahead.length (ahead ++ done) = ahead.filter (fun t => !hit t) ++ done := by
  induction ahead using List.reverseRecOn generalizing done with
  | nil => rfl
  | append_singleton ahead t ih =>
    rw [length_append, length_singleton, spliceBackwards, append_assoc,
      getElem?_append_right (Nat.le_refl _), Nat.sub_self]
    simp only [singleton_append, getElem?_cons_zero, filter_append]
    cases hhit : hit t with
    | true =>
      rw [if_pos rfl, eraseIdx_append_of_length_le (Nat.le_refl _), Nat.sub_self,
        eraseIdx_cons_zero, ih]
      simp [hhit]
    | false =>
      rw [if_neg Bool.false_ne_true, ih]
      simp [hhit]

section Tools

variable {T : Type*} {name : T → String}

def contributed (capabilities : List (Capability T)) : List T :=
  capabilities.flatMap fun cap => cap.tools.getD []

theorem contributed_filter (p : Capability T → Bool) (capabilities : List (Capability T)) :
    contributed (capabilities.filter p) =
      capabilities.flatMap fun cap => if p cap then cap.tools.getD [] else [] := by
  induction capabilities with
  | nil => rfl
  | cons cap rest ih =>
    rw [flatMap_cons, ← ih, filter_cons]
    cases p cap with
    | true => rfl
    | false => rfl

variable {capabilities : List (Capability T)}

theorem resolveTools_eq (h : ((contributed capabilities).map name).Nodup) :
    resolveTools name capabilities = contributed capabilities := by
  suffices hfold : ∀ tools kept : List T, ((kept ++ tools).map name).Nodup →
      tools.foldl (fun kept t => if name t ∈ kept.map name then kept else kept ++ [t]) kept =
        kept ++ tools from hfold (contributed capabilities) [] h
  intro tools
  induction tools with
  | nil => exact fun kept _ => (append_nil kept).symm
  | cons t rest ih =>
    intro kept hnodup
    have hnew : name t ∉ kept.map name := by
      rw [map_append, map_cons] at hnodup
      exact fun hin => (nodup_append.mp hnodup).2.2 _ hin _ mem_cons_self rfl
    rw [foldl_cons, if_neg hnew, ih (kept ++ [t]) (by simpa using hnodup),
      append_assoc, singleton_append]

variable {mode : Mode}

/-- `filterTools` keeps the tools whose names the filter admits. -/
theorem filterTools_eq (h : OneSided mode.tools) (tools : List T) :
    filterTools name tools mode = tools.filter fun t => Admits mode.tools (name t) := by
  rw [filterTools]
  cases hfilter : mode.tools with
  | none =>
    refine (List.filter_eq_self.mpr fun t _ => ?_).symm
    exact decide_eq_true fun f hf => by cases hf
  | some f =>
    rw [hfilter] at h
    have hsides := h f rfl
    simp only [Admits, mem_some_iff, forall_eq']
    by_cases hallow : allowList f = []
    · by_cases hdeny : denyList f = []
      · simp [hallow, hdeny]
      · simp [hallow, hdeny]
    · have hdeny : denyList f = [] := hsides.resolve_left hallow
      simp [hallow, hdeny]

/-- Dead to `applyMode` are the capabilities that the mode does not admit. -/
theorem mem_deadCapIds (h : OneSided mode.capabilities) {cap : Capability T}
    (hcap : cap ∈ capabilities) :
    cap.id ∈ deadCapIds capabilities mode ↔ ¬ Admits mode.capabilities cap.id := by
  rw [deadCapIds]
  cases hfilter : mode.capabilities with
  | none => exact iff_of_false not_mem_nil fun hnot => hnot fun f hf => by cases hf
  | some f =>
    rw [hfilter] at h
    exact mem_computeDeadCapIds h (mem_map_of_mem hcap)

variable {baseTools : List T}

theorem filter_deadCapToolNames (h : OneSided mode.capabilities)
    (hnames : ((baseTools ++ contributed capabilities).map name).Nodup) :
    (baseTools ++ contributed capabilities).filter
        (fun t => name t ∉ deadCapToolNames name capabilities mode) =
      baseTools ++ contributed (capabilities.filter fun cap =>
        Admits mode.capabilities cap.id) := by
  have hdead : ∀ n, n ∈ deadCapToolNames name capabilities mode ↔
      ∃ cap ∈ capabilities, ¬ Admits mode.capabilities cap.id ∧
        n ∈ (cap.tools.getD []).map name := by
    intro n
    simp only [deadCapToolNames, mem_flatMap, mem_filter, decide_eq_true_eq, and_assoc]
    refine exists_congr fun cap => and_congr_right fun hcap => ?_
    rw [mem_deadCapIds h hcap]
  rw [map_append, nodup_append, contributed, map_flatMap] at hnames
  obtain ⟨_, hcaps, hapart⟩ := hnames
  rw [filter_append]
  congr 1
  · refine List.filter_eq_self.mpr fun t ht => decide_eq_true fun hin => ?_
    obtain ⟨cap, hcap, _, hn⟩ := (hdead _).mp hin
    exact hapart _ (mem_map_of_mem ht) _ (mem_flatMap.mpr ⟨cap, hcap, hn⟩) rfl
  · rw [contributed_filter, contributed, filter_flatMap]
    refine flatMap_congr fun cap hcap => ?_
    by_cases hadmits : Admits mode.capabilities cap.id
    · -- The names of one capability's tools are no other capability's.
      rw [if_pos (decide_eq_true hadmits)]
      refine List.filter_eq_self.mpr fun t ht => decide_eq_true fun hin => ?_
      obtain ⟨other, hother, hnot, hn⟩ := (hdead _).mp hin
      have hne : cap ≠ other := by
        rintro rfl
        exact hnot hadmits
      have hsymm : Std.Symm (Function.onFun List.Disjoint fun c : Capability T =>
        (c.tools.getD []).map name) := ⟨fun _ _ hxy _ hy hx => hxy hx hy⟩
      have hdisjoint := (nodup_flatMap.mp hcaps).2.forall hcap hother hne
      exact hdisjoint (mem_map_of_mem ht) hn
    · rw [if_neg (by simpa using hadmits)]
      refine filter_eq_nil_iff.mpr fun t ht => ?_
      have hin := (hdead (name t)).mpr ⟨cap, hcap, hadmits, mem_map_of_mem ht⟩
      simpa using hin

theorem applyMode_tools (hmode : defineMode mode = .ok mode)
    (promptSections : List PromptSection) {runtimeTools : List T}
    (hnames : ((baseTools ++ runtimeTools ++ contributed capabilities).map name).Nodup) :
    (applyMode name promptSections capabilities
        (collectAllTools name baseTools runtimeTools capabilities) (some mode)).tools =
      (baseTools ++ runtimeTools ++ contributed (capabilities.filter fun cap =>
        Admits mode.capabilities cap.id)).filter fun t => Admits mode.tools (name t) := by
  obtain ⟨hcapabilities, htools⟩ := (defineMode_ok mode).mp hmode
  have hown : ((contributed capabilities).map name).Nodup := by
    rw [map_append] at hnames
    exact hnames.of_append_right
  simp only [applyMode, filterToolsAndSections, collectAllTools, resolveTools_eq hown]
  rw [filterTools_eq htools, filter_deadCapToolNames hcapabilities hnames]

def Capability.toBundle (cap : Capability T) : BundleCapability T :=
  ⟨cap.id, cap.tools.map fun tools => tools.map BundleTool.duck⟩

theorem advertisedTools_eq (mode : Mode) (setupTools : List T)
    (capabilities : List (Capability T)) :
    advertisedTools name (setupTools.map BundleTool.duck) (capabilities.map Capability.toBundle)
        (some mode) =
      (setupTools ++ contributed (capabilities.filter fun cap =>
        Admits mode.capabilities cap.id)).filter fun t => Admits mode.tools (name t) := by
  have hmerged : mergedTools (setupTools.map BundleTool.duck)
      (capabilities.map Capability.toBundle) (some mode) =
        (setupTools ++ contributed (capabilities.filter fun cap =>
          Admits mode.capabilities cap.id)).map BundleTool.duck := by
    rw [mergedTools, contributed_filter, map_append, map_flatMap, flatMap_map]
    congr 1
    refine flatMap_congr fun cap _ => ?_
    simp only [bind_some, allowedByMode_iff, decide_eq_true_eq, Capability.toBundle]
    split
    · cases cap.tools with
      | none => rfl
      | some tools => rfl
    · rfl
  have hducks : ∀ tools : List T,
      (tools.map BundleTool.duck).filterMap BundleTool.callable = tools := by
    intro tools
    rw [filterMap_map]
    exact filterMap_some
  rw [advertisedTools, hmerged, filterMergedTools, bind_some]
  cases hfilter : mode.tools with
  | none =>
    dsimp only
    rw [hducks]
    refine (List.filter_eq_self.mpr fun t _ => ?_).symm
    exact decide_eq_true fun f hf => by cases hf
  | some f =>
    have hsplice := spliceBackwards_append
      (fun t => (BundleTool.nameOf name t).any fun n => !allowedByMode (some f) n)
      ((setupTools ++ contributed (capabilities.filter fun cap =>
        Admits mode.capabilities cap.id)).map BundleTool.duck) []
    rw [append_nil, append_nil] at hsplice
    dsimp only
    rw [hsplice, List.filter_map, hducks]
    refine List.filter_congr fun t _ => ?_
    simp [BundleTool.nameOf, ← allowedByMode_iff]

/-- Both brains keep the same tools in the same order: those of the capabilities that the mode
admits and the other ones, as far as it admits their names. -/
theorem modes_agree {mode : Mode} (hmode : defineMode mode = .ok mode)
    (promptSections : List PromptSection) {baseTools runtimeTools : List T}
    {capabilities : List (Capability T)}
    (hnames : ((baseTools ++ runtimeTools ++ contributed capabilities).map name).Nodup) :
    let kept := (applyMode name promptSections capabilities
      (collectAllTools name baseTools runtimeTools capabilities) (some mode)).tools
    kept = advertisedTools name ((baseTools ++ runtimeTools).map BundleTool.duck)
        (capabilities.map Capability.toBundle) (some mode) ∧
      kept.Sublist (collectAllTools name baseTools runtimeTools capabilities) ∧
      ∀ n, n ∈ kept.map name ↔ Admits mode.tools n ∧
        (n ∈ (baseTools ++ runtimeTools).map name ∨ ∃ cap ∈ capabilities,
          Admits mode.capabilities cap.id ∧ n ∈ (cap.tools.getD []).map name) := by
  intro kept
  have hkept : kept = _ := applyMode_tools hmode promptSections hnames
  refine ⟨?_, ?_, fun n => ?_⟩
  · rw [advertisedTools_eq]
    exact hkept
  · have hresolved : resolveTools name capabilities = contributed capabilities := by
      refine resolveTools_eq ?_
      rw [map_append] at hnames
      exact hnames.of_append_right
    rw [hkept, collectAllTools, hresolved]
    refine filter_sublist.trans (Sublist.append_left ?_ _)
    exact filter_sublist.flatMap _
  · rw [hkept, List.mem_map]
    simp only [mem_filter, mem_append, contributed, mem_flatMap, decide_eq_true_eq, List.mem_map]
    constructor
    · rintro ⟨t, ⟨hbase | ⟨cap, ⟨hcap, hadmits⟩, ht⟩, hname⟩, rfl⟩
      · exact ⟨hname, Or.inl ⟨t, hbase, rfl⟩⟩
      · exact ⟨hname, Or.inr ⟨cap, hcap, hadmits, t, ht, rfl⟩⟩
    · rintro ⟨hname, ⟨t, hbase, rfl⟩ | ⟨cap, hcap, hadmits, t, ht, rfl⟩⟩
      · exact ⟨t, ⟨Or.inl hbase, hname⟩, rfl⟩
      · exact ⟨t, ⟨Or.inr ⟨cap, ⟨hcap, hadmits⟩, ht⟩, hname⟩, rfl⟩

/-- A mode that allows one capability and denies the reading tool. -/
def planMode : Mode where
  id := "plan"
  name := "Planning"
  capabilities := some { allow := some ["tasks"] }
  tools := some { deny := some ["read"] }

/-- The plan mode leaves a base tool and the tasks. -/
theorem modes_agree_plan :
    let kept := (applyMode id [] [⟨"tasks", some ["task_add"], false⟩,
      ⟨"files", some ["read", "write"], false⟩] (collectAllTools id ["now"] ["config_get"]
        [⟨"tasks", some ["task_add"], false⟩, ⟨"files", some ["read", "write"], false⟩])
      (some planMode)).tools
    kept = ["now", "config_get", "task_add"] ∧
      kept = advertisedTools id [.duck "now", .duck "config_get"]
        [⟨"tasks", some [.duck "task_add"]⟩, ⟨"files", some [.duck "read", .duck "write"]⟩]
        (some planMode) :=
  ⟨by decide, (modes_agree rfl [] (by decide)).1⟩

end Tools

end CrabbyKit.Modes
