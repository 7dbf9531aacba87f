import CrabbyKit.Bundle.ProviderStream
import Mathlib.Data.List.Perm.Basic
import Mathlib.Data.List.Range

/-!
# Streamed tool calls are reassembled

A stream cuts tool calls into fragments, each with the index of its call. After any fragments the
heap holds for every index seen so far what its fragments have brought, and at the end these are
the calls.
-/

namespace CrabbyKit.Bundle

/-- A tool call as the model makes it, with its index in the stream. -/
structure StreamedCall where
  index : Int
  id : String
  name : String
  arguments : String
  deriving DecidableEq, Repr

/-- A fragment of a call: the pieces that it brings. -/
structure Fragment where
  index : Int
  id : Option String
  name : Option String
  arguments : Option String
  deriving DecidableEq, Repr

def ownFragments (fragments : List Fragment) (index : Int) : List Fragment :=
  fragments.filter fun f => f.index = index

/-- The argument pieces, one behind the other. -/
def joined : List Fragment → String
  | [] => ""
  | f :: rest => f.arguments.getD "" ++ joined rest

/-- The fragments are those of the calls, in any order that keeps the order within each call: a
call's id and name come with at least one of its fragments, and its argument pieces make up its
arguments. -/
structure Assembles (calls : List StreamedCall) (fragments : List Fragment) : Prop where
  indices : (calls.map StreamedCall.index).Nodup
  ids : (calls.map StreamedCall.id).Nodup
  nonempty : ∀ c ∈ calls, c.id ≠ ""
  fragment : ∀ f ∈ fragments, ∃ c ∈ calls, c.index = f.index ∧
    (f.id.getD "" = "" ∨ f.id = some c.id) ∧ (f.name.getD "" = "" ∨ f.name = some c.name)
  id : ∀ c ∈ calls, ∃ f ∈ fragments, f.index = c.index ∧ f.id = some c.id
  name : ∀ c ∈ calls, ∃ f ∈ fragments, f.index = c.index ∧ f.name = some c.name
  arguments : ∀ c ∈ calls, joined (ownFragments fragments c.index) = c.arguments

def firstText : List (Option String) → String
  | [] => ""
  | v :: rest => if v.getD "" ≠ "" then v.getD "" else firstText rest

def gathered (own : List Fragment) : ToolCallAccumulator where
  id := firstText (own.map Fragment.id)
  name := firstText (own.map Fragment.name)
  rawArgs := joined own

theorem firstText_concat (values : List (Option String)) (v : Option String) :
    firstText (values ++ [v]) = if firstText values ≠ "" then firstText values else v.getD "" := by
  induction values with
  | nil =>
    rw [List.nil_append, firstText, firstText, firstText]
    by_cases h : v.getD "" = ""
    · simp [h]
    · simp [h]
  | cons u rest ih =>
    rw [List.cons_append, firstText, firstText, ih]
    by_cases h : u.getD "" = ""
    · simp [h]
    · simp [h]

variable {values : List (Option String)}

theorem firstText_empty (h : ∀ v ∈ values, v.getD "" = "") :
    firstText values = "" := by
  induction values with
  | nil => rfl
  | cons v rest ih =>
    rw [firstText, if_neg (not_not_intro (h v List.mem_cons_self))]
    exact ih fun w hw => h w (List.mem_cons_of_mem v hw)

theorem firstText_eq {text : String}
    (hvalues : ∀ v ∈ values, v.getD "" = "" ∨ v = some text) (hsome : some text ∈ values) :
    firstText values = text := by
  by_cases htext : text = ""
  · rw [htext]
    refine firstText_empty fun v hv => (hvalues v hv).elim id fun heq => ?_
    rw [heq]
    exact htext
  · induction values with
    | nil => cases hsome
    | cons v rest ih =>
      rw [firstText]
      rcases hvalues v List.mem_cons_self with hempty | heq
      · have hrest : some text ∈ rest := by
          refine (List.mem_cons.mp hsome).resolve_left fun heq => htext ?_
          rw [← heq] at hempty
          exact hempty
        rw [if_neg (not_not_intro hempty)]
        exact ih (fun w hw => hvalues w (List.mem_cons_of_mem v hw)) hrest
      · rw [heq]
        exact if_pos htext

theorem joined_concat (own : List Fragment) (f : Fragment) :
    joined (own ++ [f]) = joined own ++ f.arguments.getD "" := by
  induction own with
  | nil =>
    rw [List.nil_append]
    simp only [joined, String.append_empty, String.empty_append]
  | cons g rest ih => rw [List.cons_append, joined, joined, ih, String.append_assoc]

theorem ownFragments_concat (fragments : List Fragment) (f : Fragment) (index : Int) :
    ownFragments (fragments ++ [f]) index =
      if f.index = index then ownFragments fragments index ++ [f]
      else ownFragments fragments index := by
  rw [ownFragments, List.filter_append, ownFragments]
  by_cases h : f.index = index
  · simp [h]
  · simp [h]

variable {calls : List StreamedCall} {fragments : List Fragment}

theorem Assembles.gathered_eq (h : Assembles calls fragments) {c : StreamedCall} (hc : c ∈ calls) :
    gathered (ownFragments fragments c.index) = ⟨c.id, c.name, c.arguments⟩ := by
  have hown : ∀ f ∈ ownFragments fragments c.index,
      (f.id.getD "" = "" ∨ f.id = some c.id) ∧ (f.name.getD "" = "" ∨ f.name = some c.name) := by
    intro f hf
    rw [ownFragments, List.mem_filter, decide_eq_true_eq] at hf
    obtain ⟨d, hd, hindex, hpieces⟩ := h.fragment f hf.1
    have hsame : d = c := List.inj_on_of_nodup_map h.indices hd hc (hindex.trans hf.2)
    exact hsame ▸ hpieces
  obtain ⟨fid, hfid, hidindex, hid⟩ := h.id c hc
  obtain ⟨fname, hfname, hnameindex, hname⟩ := h.name c hc
  have hidmem : fid ∈ ownFragments fragments c.index :=
    List.mem_filter.mpr ⟨hfid, decide_eq_true hidindex⟩
  have hnamemem : fname ∈ ownFragments fragments c.index :=
    List.mem_filter.mpr ⟨hfname, decide_eq_true hnameindex⟩
  have hidtext : firstText ((ownFragments fragments c.index).map Fragment.id) = c.id := by
    refine firstText_eq ?_ (hid ▸ List.mem_map_of_mem hidmem)
    intro v hv
    obtain ⟨f, hf, rfl⟩ := List.mem_map.mp hv
    exact (hown f hf).1
  have hnametext : firstText ((ownFragments fragments c.index).map Fragment.name) = c.name := by
    refine firstText_eq ?_ (hname ▸ List.mem_map_of_mem hnamemem)
    intro v hv
    obtain ⟨f, hf, rfl⟩ := List.mem_map.mp hv
    exact (hown f hf).2
  rw [gathered, hidtext, hnametext, h.arguments c hc]

/-- What the accumulators stand for after some fragments. -/
structure Holds (done : List Fragment) (state : Accumulated) : Prop where
  nodup : (state.byIndex.map Prod.fst).Nodup
  places : state.byIndex.map Prod.snd = List.range state.heap.length
  gathered : ∀ entry ∈ state.byIndex,
    state.heap[entry.2]? = some (gathered (ownFragments done entry.1))
  seen : ∀ i, i ∈ state.byIndex.map Prod.fst ↔ ∃ f ∈ done, f.index = i
  byId : ∀ entry ∈ state.byId, entry.2 < state.heap.length ∧
    ∃ f ∈ done, f.id = some entry.1 ∧ entry.1 ≠ ""

section Maps

variable {κ : Type*} [DecidableEq κ] {map : List (κ × Nat)} {key : κ} {value : Nat}

theorem mapGet_eq_none : mapGet map key = none ↔ key ∉ map.map Prod.fst := by
  rw [mapGet, Option.map_eq_none_iff, Table.lookup_eq_none, List.mem_map]
  simp only [not_exists, not_and]

theorem mapGet_eq_some (hnodup : (map.map Prod.fst).Nodup) :
    mapGet map key = some value ↔ (key, value) ∈ map := by
  simp only [mapGet, Option.map_eq_some_iff, Table.lookup_eq_some hnodup]
  constructor
  · rintro ⟨entry, ⟨hentry, rfl⟩, rfl⟩
    exact hentry
  · exact fun h => ⟨(key, value), ⟨h, rfl⟩, rfl⟩

theorem mapSet_new (h : key ∉ map.map Prod.fst) : mapSet map key value = map ++ [(key, value)] :=
  if_neg h

theorem mem_mapSet {entry : κ × Nat} (h : entry ∈ mapSet map key value) :
    entry = (key, value) ∨ entry ∈ map := by
  rw [mapSet] at h
  split at h
  · obtain ⟨old, hold, hentry⟩ := Table.mem_modify.mp h
    split at hentry
    · exact Or.inl hentry.symm
    · exact Or.inr (hentry ▸ hold)
  · rcases List.mem_append.mp h with hold | hnew
    · exact Or.inr hold
    · exact Or.inl (List.mem_singleton.mp hnew)

end Maps

namespace Holds

variable {done : List Fragment} {state : Accumulated} {f : Fragment}

theorem initial : Holds [] {} where
  nodup := List.nodup_nil
  places := rfl
  gathered _ h := absurd h List.not_mem_nil
  seen _ := iff_of_false List.not_mem_nil fun ⟨_, h, _⟩ => List.not_mem_nil h
  byId _ h := absurd h List.not_mem_nil

theorem place_lt (h : Holds done state) {entry : Int × Nat} (hentry : entry ∈ state.byIndex) :
    entry.2 < state.heap.length := by
  rw [← List.mem_range, ← h.places]
  exact List.mem_map_of_mem hentry

variable {byId : List (String × Nat)}

theorem first (h : Holds done state) (hnew : f.index ∉ state.byIndex.map Prod.fst)
    (hbyId : ∀ entry ∈ byId, entry ∈ state.byId ∨
      f.id = some entry.1 ∧ entry.1 ≠ "" ∧ entry.2 = state.heap.length) :
    Holds (done ++ [f]) ⟨state.heap ++ [Bundle.gathered [f]], byId,
      state.byIndex ++ [(f.index, state.heap.length)]⟩ where
  nodup := by
    rw [List.map_append]
    exact List.nodup_append_comm.mp (List.nodup_cons.mpr ⟨hnew, h.nodup⟩)
  places := by
    rw [List.map_append, h.places, List.length_append, List.length_singleton, List.range_succ]
    rfl
  gathered := by
    intro entry hentry
    rcases List.mem_append.mp hentry with hold | hlast
    · have hne : f.index ≠ entry.1 := fun heq => hnew (heq ▸ List.mem_map_of_mem hold)
      rw [ownFragments_concat, if_neg hne, List.getElem?_append_left (h.place_lt hold)]
      exact h.gathered entry hold
    · rw [List.mem_singleton.mp hlast]
      have hnone : ownFragments done f.index = [] := by
        refine List.filter_eq_nil_iff.mpr fun g hg heq => hnew ?_
        exact (h.seen f.index).mpr ⟨g, hg, of_decide_eq_true heq⟩
      rw [ownFragments_concat, if_pos rfl, hnone, List.nil_append,
        List.getElem?_append_right (Nat.le_refl _), Nat.sub_self]
      rfl
  seen := by
    intro i
    rw [List.map_append, List.mem_append, h.seen i]
    simp only [List.map_cons, List.map_nil, List.mem_singleton, List.mem_append]
    constructor
    · rintro (⟨g, hg, hi⟩ | rfl)
      · exact ⟨g, Or.inl hg, hi⟩
      · exact ⟨f, Or.inr rfl, rfl⟩
    · rintro ⟨g, hg | rfl, hi⟩
      · exact Or.inl ⟨g, hg, hi⟩
      · exact Or.inr hi.symm
  byId := by
    intro entry hentry
    rw [List.length_append, List.length_singleton]
    rcases hbyId entry hentry with hold | ⟨hid, hne, hplace⟩
    · obtain ⟨hlt, g, hg, hgid⟩ := h.byId entry hold
      exact ⟨by omega, g, List.mem_append_left _ hg, hgid⟩
    · exact ⟨by omega, f, List.mem_append_right _ List.mem_cons_self, hid, hne⟩

theorem further (h : Holds done state) {place : Nat} (hplace : (f.index, place) ∈ state.byIndex)
    (hbyId : ∀ entry ∈ byId, entry ∈ state.byId ∨
      f.id = some entry.1 ∧ entry.1 ≠ "" ∧ entry.2 = place) {heap : List ToolCallAccumulator}
    (hlength : heap.length = state.heap.length)
    (hself : heap[place]? = some (Bundle.gathered (ownFragments done f.index ++ [f])))
    (hother : ∀ j, j ≠ place → heap[j]? = state.heap[j]?) :
    Holds (done ++ [f]) ⟨heap, byId, state.byIndex⟩ where
  nodup := h.nodup
  places := by rw [hlength, h.places]
  gathered := by
    intro entry hentry
    rw [ownFragments_concat]
    by_cases heq : f.index = entry.1
    · have hsame : entry = (f.index, place) :=
        List.inj_on_of_nodup_map h.nodup hentry hplace heq.symm
      rw [if_pos heq, hsame]
      exact hself
    · have hne : entry.2 ≠ place := by
        intro hplaces
        have hnodup : (state.byIndex.map Prod.snd).Nodup := by
          rw [h.places]
          exact List.nodup_range
        have hsame : entry = (f.index, place) :=
          List.inj_on_of_nodup_map hnodup hentry hplace hplaces
        exact heq (hsame ▸ rfl)
      rw [if_neg heq, hother entry.2 hne]
      exact h.gathered entry hentry
  seen := by
    intro i
    rw [h.seen i]
    constructor
    · rintro ⟨g, hg, hi⟩
      exact ⟨g, List.mem_append_left _ hg, hi⟩
    · rintro ⟨g, hg, rfl⟩
      rcases List.mem_append.mp hg with hg | hg
      · exact ⟨g, hg, rfl⟩
      · rw [List.mem_singleton.mp hg]
        exact (h.seen f.index).mp (List.mem_map_of_mem hplace)
  byId := by
    intro entry hentry
    rw [hlength]
    rcases hbyId entry hentry with hold | ⟨hid, hne, hat⟩
    · obtain ⟨hlt, g, hg, hgid⟩ := h.byId entry hold
      exact ⟨hlt, g, List.mem_append_left _ hg, hgid⟩
    · exact ⟨hat ▸ h.place_lt hplace, f, List.mem_append_right _ List.mem_cons_self, hid, hne⟩

end Holds

theorem gathered_singleton (f : Fragment) :
    gathered [f] = ⟨f.id.getD "", f.name.getD "", f.arguments.getD ""⟩ := by
  have hfirst : ∀ v : Option String, firstText [v] = v.getD "" := by
    intro v
    rw [firstText, firstText]
    by_cases hv : v.getD "" = ""
    · rw [if_neg (not_not_intro hv), hv]
    · rw [if_pos hv]
  simp only [gathered, List.map_cons, List.map_nil, hfirst, joined, String.append_empty]

theorem gathered_concat (own : List Fragment) (f : Fragment) :
    gathered (own ++ [f]) =
      ⟨if (gathered own).id ≠ "" then (gathered own).id else f.id.getD "",
        if (gathered own).name ≠ "" then (gathered own).name else f.name.getD "",
        (gathered own).rawArgs ++ f.arguments.getD ""⟩ := by
  simp only [gathered, List.map_append, List.map_cons, List.map_nil, firstText_concat,
    joined_concat]
  rfl

theorem exists_of_firstText (h : firstText values ≠ "") :
    some (firstText values) ∈ values := by
  induction values with
  | nil => exact absurd rfl h
  | cons v rest ih =>
    rw [firstText] at h ⊢
    by_cases hv : v.getD "" = ""
    · rw [if_neg (not_not_intro hv)] at h ⊢
      exact List.mem_cons_of_mem v (ih h)
    · rw [if_pos hv]
      cases v with
      | none => exact absurd rfl hv
      | some text => exact List.mem_cons_self

/-- Ids tell calls apart: fragments agree on a given id exactly when they are of one call. -/
def Consistent (fragments : List Fragment) : Prop :=
  ∀ f ∈ fragments, ∀ g ∈ fragments, f.id.getD "" ≠ "" → g.id.getD "" ≠ "" →
    (f.index = g.index ↔ f.id = g.id)

theorem Assembles.consistent (h : Assembles calls fragments) : Consistent fragments := by
  intro f hf g hg hfid hgid
  obtain ⟨c, hc, hcindex, hcid, _⟩ := h.fragment f hf
  obtain ⟨d, hd, hdindex, hdid, _⟩ := h.fragment g hg
  rw [hcid.resolve_left hfid, hdid.resolve_left hgid, ← hcindex, ← hdindex, Option.some_inj]
  constructor
  · intro heq
    rw [List.inj_on_of_nodup_map h.indices hc hd heq]
  · intro heq
    rw [List.inj_on_of_nodup_map h.ids hc hd heq]

structure Rewritten (place : Nat) (written : ToolCallAccumulator) (state state' : Accumulated) :
    Prop where
  byIndex : state'.byIndex = state.byIndex
  length : state'.heap.length = state.heap.length
  self : state'.heap[place]? = some written
  other : ∀ j, j ≠ place → state'.heap[j]? = state.heap[j]?

variable {place : Nat}

theorem Rewritten.trans {a b : ToolCallAccumulator} {s s' s'' : Accumulated}
    (h : Rewritten place a s s') (h' : Rewritten place b s' s'') : Rewritten place b s s'' where
  byIndex := h'.byIndex.trans h.byIndex
  length := h'.length.trans h.length
  self := h'.self
  other j hj := (h'.other j hj).trans (h.other j hj)

variable {state : Accumulated}

variable {old : ToolCallAccumulator}

theorem rewritten_write
    (hold : state.heap[place]? = some old) (f : ToolCallAccumulator → ToolCallAccumulator) :
    Rewritten place (f old) state (state.write place f) where
  byIndex := rfl
  length := List.length_modify f state.heap place
  self := by
    rw [Accumulated.write, List.getElem?_modify_eq, hold]
    rfl
  other j hj := List.getElem?_modify_ne f state.heap (Ne.symm hj)

theorem rewritten_updateEntry
    (hold : state.heap[place]? = some old) (id name : Option String) :
    Rewritten place ⟨if id.getD "" ≠ "" then id.getD "" else old.id,
        if old.name ≠ "" then old.name else name.getD "", old.rawArgs⟩
      state (updateEntry state place id name) ∧
    ∀ entry ∈ (updateEntry state place id name).byId, entry ∈ state.byId ∨
      id = some entry.1 ∧ entry.1 ≠ "" ∧ entry.2 = place := by
  have hwithId : ∃ withId, withId = (if id.getD "" ≠ "" ∧ id.getD "" ≠ old.id then
        { state.write place fun a => { a with id := id.getD "" } with
          byId := mapSet state.byId (id.getD "") place }
      else state) ∧
      Rewritten place ⟨if id.getD "" ≠ "" then id.getD "" else old.id, old.name, old.rawArgs⟩
        state withId ∧
      ∀ entry ∈ withId.byId, entry ∈ state.byId ∨
        id = some entry.1 ∧ entry.1 ≠ "" ∧ entry.2 = place := by
    refine ⟨_, rfl, ?_⟩
    by_cases hid : id.getD "" ≠ "" ∧ id.getD "" ≠ old.id
    · rw [if_pos hid, if_pos hid.1]
      have hwrite := rewritten_write hold fun a => { a with id := id.getD "" }
      refine ⟨⟨hwrite.byIndex, hwrite.length, hwrite.self, hwrite.other⟩, fun entry hentry => ?_⟩
      rcases mem_mapSet hentry with rfl | hin
      · cases id with
        | none => exact absurd rfl hid.1
        | some text => exact Or.inr ⟨rfl, hid.1, rfl⟩
      · exact Or.inl hin
    · have hsame : (if id.getD "" ≠ "" then id.getD "" else old.id) = old.id := by
        split
        next hne => exact not_not.mp (not_and.mp hid hne)
        next => rfl
      rw [if_neg hid, hsame]
      exact ⟨⟨rfl, rfl, hold, fun _ _ => rfl⟩, fun entry hentry => Or.inl hentry⟩
  obtain ⟨withId, hdef, hrewritten, hbyId⟩ := hwithId
  cases name with
  | none =>
    have hupdate : updateEntry state place id none = withId := by
      rw [hdef]
      simp only [updateEntry, hold, Option.map_some, Option.getD_some]
    rw [hupdate]
    refine ⟨?_, hbyId⟩
    have hname : (if old.name ≠ "" then old.name else "") = old.name := by
      split
      next => rfl
      next hempty => exact (not_not.mp hempty).symm
    rw [Option.getD_none, hname]
    exact hrewritten
  | some name =>
    have hupdate : updateEntry state place id (some name) = withId.write place fun a =>
        if a.name = "" then { a with name := name } else a := by
      rw [hdef]
      simp only [updateEntry, hold, Option.map_some, Option.getD_some]
    rw [hupdate]
    refine ⟨?_, hbyId⟩
    have hwrite := hrewritten.trans (rewritten_write hrewritten.self fun a =>
      if a.name = "" then { a with name := name } else a)
    by_cases hname : old.name = ""
    · rw [if_neg (not_not_intro hname), Option.getD_some]
      simpa only [hname, if_true] using hwrite
    · rw [if_pos hname]
      simpa only [hname, if_false] using hwrite

theorem modify_concat (heap : List ToolCallAccumulator) (a : ToolCallAccumulator)
    (f : ToolCallAccumulator → ToolCallAccumulator) :
    (heap ++ [a]).modify heap.length f = heap ++ [f a] := by
  induction heap with
  | nil => rfl
  | cons b rest ih =>
    rw [List.cons_append, List.length_cons, List.modify_succ_cons, ih, List.cons_append]

variable {done : List Fragment}

theorem holds_absorbDelta {f : Fragment}
    (h : Holds done state) (hconsistent : Consistent (done ++ [f])) :
    Holds (done ++ [f]) (absorbDelta state (some f.index) f.id f.name f.arguments) := by
  have hlast : f ∈ done ++ [f] := List.mem_append_right _ List.mem_cons_self
  by_cases hseen : f.index ∈ state.byIndex.map Prod.fst
  · obtain ⟨entry, hentry, hindex⟩ := List.mem_map.mp hseen
    have hplace : (f.index, entry.2) ∈ state.byIndex := hindex ▸ hentry
    have hold := h.gathered _ hplace
    have hfind : findEntry state (some f.index) f.id = some entry.2 := by
      rw [findEntry, Option.bind_some, (mapGet_eq_some h.nodup).mpr hplace, Option.some_or]
    obtain ⟨hupdated, hbyId⟩ := rewritten_updateEntry hold f.id f.name
    -- The id that is brought is the one that was gathered, if there was one.
    have hid : (if f.id.getD "" ≠ "" then f.id.getD "" else
          (gathered (ownFragments done f.index)).id) =
        if (gathered (ownFragments done f.index)).id ≠ "" then
          (gathered (ownFragments done f.index)).id else f.id.getD "" := by
      by_cases hgathered : (gathered (ownFragments done f.index)).id = ""
      · rw [if_neg (not_not_intro hgathered), hgathered]
        split
        next => rfl
        next hne => exact (not_not.mp hne).symm
      · rw [if_pos hgathered]
        split
        next hne =>
          obtain ⟨g, hg, hgid⟩ := List.mem_map.mp (exists_of_firstText hgathered)
          obtain ⟨hgdone, hgindex⟩ := List.mem_filter.mp hg
          have hgne : g.id.getD "" ≠ "" := by
            rw [hgid]
            exact hgathered
          have hagree := (hconsistent f hlast g (List.mem_append_left _ hgdone) hne hgne).mp
            (of_decide_eq_true hgindex).symm
          rw [hagree, hgid]
          rfl
        next => rfl
    have hwritten : ∃ state', absorbDelta state (some f.index) f.id f.name f.arguments =
          state' ∧ state'.byId = (updateEntry state entry.2 f.id f.name).byId ∧
        Rewritten entry.2 (gathered (ownFragments done f.index ++ [f])) state state' := by
      refine ⟨_, rfl, ?_⟩
      rw [gathered_concat, ← hid, absorbDelta, hfind]
      cases f.arguments with
      | none =>
        refine ⟨rfl, ?_⟩
        rw [Option.getD_none, String.append_empty]
        exact hupdated
      | some text =>
        exact ⟨rfl, hupdated.trans (rewritten_write hupdated.self fun a =>
          { a with rawArgs := a.rawArgs ++ text })⟩
    obtain ⟨state', habsorb, hids, hrewritten⟩ := hwritten
    rw [habsorb]
    have hstate' : state' = ⟨state'.heap, state'.byId, state.byIndex⟩ := by
      rw [← hrewritten.byIndex]
    rw [hstate']
    exact h.further hplace (fun e he => hbyId e (hids ▸ he)) hrewritten.length hrewritten.self
      hrewritten.other
  · have hunknown : mapGet state.byIndex f.index = none := mapGet_eq_none.mpr hseen
    have hfind : findEntry state (some f.index) f.id = none := by
      rw [findEntry, Option.bind_some, hunknown, Option.none_or]
      cases hid : f.id.filter (· ≠ "") with
      | none => rfl
      | some id =>
        rw [Option.bind_some, mapGet_eq_none]
        intro hkey
        obtain ⟨hfid, hne⟩ := Option.filter_eq_some_iff.mp hid
        obtain ⟨entry, hentry, rfl⟩ := List.mem_map.mp hkey
        obtain ⟨_, g, hg, hgid, hgne⟩ := h.byId entry hentry
        have hagree := (hconsistent f hlast g (List.mem_append_left _ hg)
          (by rw [hfid]; exact hgne) (by rw [hgid]; exact hgne)).mpr (hfid.trans hgid.symm)
        exact hseen ((h.seen f.index).mpr ⟨g, hg, hagree.symm⟩)
    have hbyId : ∀ entry ∈ (newEntry state (some f.index) f.id f.name).2.byId,
        entry ∈ state.byId ∨ f.id = some entry.1 ∧ entry.1 ≠ "" ∧
          entry.2 = state.heap.length := by
      intro entry hentry
      simp only [newEntry, Accumulated.alloc] at hentry
      split at hentry
      next hne =>
        rcases mem_mapSet hentry with rfl | hin
        · refine Or.inr ⟨?_, hne, rfl⟩
          cases hfid : f.id with
          | none => exact absurd (by rw [hfid]; rfl) hne
          | some id => rfl
        · exact Or.inl hin
      next => exact Or.inl hentry
    have hstate : absorbDelta state (some f.index) f.id f.name f.arguments =
        ⟨state.heap ++ [gathered [f]], (newEntry state (some f.index) f.id f.name).2.byId,
          state.byIndex ++ [(f.index, state.heap.length)]⟩ := by
      rw [gathered_singleton, absorbDelta, hfind]
      simp only [newEntry, Accumulated.alloc, mapSet_new hseen]
      cases f.arguments with
      | none => rfl
      | some text =>
        simp only [Accumulated.write, Option.getD_some, modify_concat, String.empty_append]
    rw [hstate]
    exact h.first hseen hbyId

theorem mem_distinct (entries seen : List Nat) (hseen : seen.Nodup) :
    let distinct := entries.foldl
      (fun seen entry => if entry ∈ seen then seen else seen ++ [entry]) seen
    distinct.Nodup ∧ ∀ j, j ∈ distinct ↔ j ∈ seen ∨ j ∈ entries := by
  induction entries generalizing seen with
  | nil => exact ⟨hseen, fun j => by simp⟩
  | cons entry rest ih =>
    simp only [List.foldl_cons]
    by_cases hmem : entry ∈ seen
    · rw [if_pos hmem]
      obtain ⟨hnodup, hall⟩ := ih seen hseen
      refine ⟨hnodup, fun j => ?_⟩
      rw [hall, List.mem_cons]
      constructor
      · exact fun h => h.imp_right Or.inr
      · rintro (h | rfl | h)
        · exact Or.inl h
        · exact Or.inl hmem
        · exact Or.inr h
    · rw [if_neg hmem]
      obtain ⟨hnodup, hall⟩ := ih (seen ++ [entry])
        (List.nodup_append_comm.mp (List.nodup_cons.mpr ⟨hmem, hseen⟩))
      refine ⟨hnodup, fun j => ?_⟩
      rw [hall, List.mem_append, List.mem_singleton, List.mem_cons, or_assoc]

theorem Holds.distinctEntries_perm
    (h : Holds done state) : (distinctEntries state).Perm (state.byIndex.map Prod.snd) := by
  obtain ⟨hnodup, hall⟩ := mem_distinct
    (state.byId.map Prod.snd ++ state.byIndex.map Prod.snd) [] List.nodup_nil
  rw [h.places]
  refine (List.perm_ext_iff_of_nodup hnodup List.nodup_range).mpr fun j => ?_
  rw [hall, List.mem_append, h.places, List.mem_range]
  constructor
  · rintro (hnone | hid | hindex)
    · cases hnone
    · obtain ⟨entry, hentry, rfl⟩ := List.mem_map.mp hid
      exact (h.byId entry hentry).1
    · exact hindex
  · exact fun hlt => Or.inr (Or.inr hlt)

def StreamedCall.parsed (jsonParse : String → Option Json) (c : StreamedCall) : ParsedToolCall :=
  ⟨c.id, c.name, parseArgs jsonParse c.arguments, c.arguments⟩

theorem finalizeToolCalls_perm (h : Holds fragments state) (hassembles : Assembles calls fragments)
    (jsonParse : String → Option Json) :
    (finalizeToolCalls jsonParse state).Perm (calls.map (StreamedCall.parsed jsonParse)) := by
  have hindices : (state.byIndex.map Prod.fst).Perm (calls.map StreamedCall.index) := by
    refine (List.perm_ext_iff_of_nodup h.nodup hassembles.indices).mpr fun i => ?_
    rw [h.seen i, List.mem_map]
    constructor
    · rintro ⟨f, hf, rfl⟩
      obtain ⟨c, hc, hindex, _⟩ := hassembles.fragment f hf
      exact ⟨c, hc, hindex⟩
    · rintro ⟨c, hc, rfl⟩
      obtain ⟨f, hf, hindex, _⟩ := hassembles.id c hc
      exact ⟨f, hf, hindex⟩
  let finish (a : ToolCallAccumulator) : ParsedToolCall :=
    ⟨a.id, a.name, parseArgs jsonParse a.rawArgs, a.rawArgs⟩
  have hheld : (state.byIndex.map Prod.snd).filterMap
      (fun entry => state.heap[entry]?.map finish) =
        (state.byIndex.map Prod.fst).map fun i => finish (gathered (ownFragments fragments i)) := by
    rw [List.filterMap_map, List.map_map]
    refine List.filterMap_eq_map_iff_forall_eq_some.mpr fun entry hentry => ?_
    rw [Function.comp_apply, h.gathered entry hentry]
    rfl
  have hcalls : (calls.map StreamedCall.index).map
      (fun i => finish (gathered (ownFragments fragments i))) =
        calls.map (StreamedCall.parsed jsonParse) := by
    rw [List.map_map]
    refine List.map_congr_left fun c hc => ?_
    rw [Function.comp_apply, hassembles.gathered_eq hc]
    rfl
  have hperm := h.distinctEntries_perm.filterMap fun entry => state.heap[entry]?.map finish
  rw [hheld] at hperm
  exact hperm.trans (hcalls ▸ hindices.map _)

end CrabbyKit.Bundle
