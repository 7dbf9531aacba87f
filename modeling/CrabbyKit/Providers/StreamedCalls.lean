import CrabbyKit.Core.Table
import CrabbyKit.Providers.DeltaRuns

/-!
# Streamed calls of the native provider

The calls come out as they were streamed exactly when the loop starts a run with the first delta of
each call and nowhere else, and what then goes into a run makes up its call.
-/

namespace CrabbyKit.Completions

open List Option

/-- A tool call as the model makes it, with its index in the stream. -/
structure StreamedCall where
  index : Int
  id : String
  name : String
  arguments : String
  deriving DecidableEq, Repr

def Piece.delta : Piece → Option ToolCallDelta
  | .call tc => some tc
  | _ => none

def deltasOf (pieces : List Piece) : List ToolCallDelta := pieces.filterMap Piece.delta

def ownDeltas (deltas : List ToolCallDelta) (index : Int) : List ToolCallDelta :=
  deltas.filter fun tc => tc.index = index

/-- The deltas stream the calls: each carries the index of its call, the first one of a call
carries its id, and their pieces make up name and arguments. -/
structure Streams (calls : List StreamedCall) (deltas : List ToolCallDelta) : Prop where
  indices : (calls.map StreamedCall.index).Nodup
  nonempty : ∀ c ∈ calls, c.id ≠ ""
  delta : ∀ tc ∈ deltas, ∃ c ∈ calls, c.index = tc.index ∧ (tc.id = "" ∨ tc.id = c.id) ∧
    (tc.name = "" ∨ tc.name = c.name)
  first : ∀ c ∈ calls, (ownDeltas deltas c.index).head?.map ToolCallDelta.id = some c.id
  name : ∀ c ∈ calls, ∃ tc ∈ ownDeltas deltas c.index, tc.name = c.name
  arguments : ∀ c ∈ calls,
    String.join ((ownDeltas deltas c.index).map ToolCallDelta.arguments) = c.arguments

/-- A call as it should come out. -/
def StreamedCall.call (parse : String → Json) (c : StreamedCall) : String × String × Json :=
  (c.id, c.name, parse c.arguments)

/-- The message has one tool call for each call, and the texts and the reasoning of the stream. -/
structure Reassembled (parse : String → Json) (calls : List StreamedCall) (pieces : List Piece)
    (output : Output) : Prop where
  calls : (output.content.filterMap Block.call).Perm (calls.map (StreamedCall.call parse))
  text : String.join (output.content.map Block.textOf) = String.join (pieces.map Piece.textOf)
  thinking : String.join (output.content.map Block.thinkingOf) =
    String.join (pieces.map Piece.thinkingOf)

/-- A further delta of a call comes directly behind a delta, without an id or with that of the
call that started last; a first delta behind a delta carries another id than that. -/
def Unbroken : List Int → Option String → List Piece → Prop
  | _, _, [] => True
  | seen, _, .text _ :: rest => Unbroken seen none rest
  | seen, _, .thinking _ _ :: rest => Unbroken seen none rest
  | seen, current, .call tc :: rest =>
    if tc.index ∈ seen then
      (∃ id, current = some id ∧ (tc.id = "" ∨ tc.id = id)) ∧
        Unbroken (seen ++ [tc.index]) current rest
    else current ≠ some tc.id ∧ Unbroken (seen ++ [tc.index]) (some tc.id) rest

/-- The deltas from the first one of a call up to the first one of the next call. -/
def segmentsFrom : List Int → Option (Int × Run) → List ToolCallDelta → List (Int × Run)
  | _, current, [] => current.toList
  | seen, current, tc :: rest =>
    if tc.index ∈ seen then
      segmentsFrom (seen ++ [tc.index]) (current.map fun s => (s.1, s.2.add tc)) rest
    else current.toList ++ segmentsFrom (seen ++ [tc.index]) (some (tc.index, openRun tc)) rest

/-- The calls are kept apart: each starts a run and keeps it, and the deltas up to the first one of
the next call give its name last and arguments that parse like its own. -/
structure Separate (parse : String → Json) (calls : List StreamedCall) (pieces : List Piece) :
    Prop where
  unbroken : Unbroken [] none pieces
  whole : ∀ s ∈ segmentsFrom [] none (deltasOf pieces), ∀ c ∈ calls, c.index = s.1 →
    s.2.name = c.name ∧ parse s.2.arguments = parse c.arguments

def newIndices : List Int → List ToolCallDelta → List Int
  | _, [] => []
  | seen, tc :: rest =>
    if tc.index ∈ seen then newIndices (seen ++ [tc.index]) rest
    else tc.index :: newIndices (seen ++ [tc.index]) rest

theorem newIndices_nodup (seen : List Int) (deltas : List ToolCallDelta) :
    (newIndices seen deltas).Nodup ∧ ∀ i, i ∈ newIndices seen deltas ↔
      i ∉ seen ∧ i ∈ deltas.map ToolCallDelta.index := by
  induction deltas generalizing seen with
  | nil => exact ⟨nodup_nil, fun i => by simp [newIndices]⟩
  | cons tc rest ih =>
    obtain ⟨hnodup, hmem⟩ := ih (seen ++ [tc.index])
    rw [newIndices]
    by_cases hseen : tc.index ∈ seen
    · rw [if_pos hseen]
      refine ⟨hnodup, fun i => ?_⟩
      rw [hmem, map_cons, mem_append, mem_singleton, mem_cons]
      constructor
      · exact fun h => ⟨fun hi => h.1 (Or.inl hi), Or.inr h.2⟩
      · rintro ⟨hi, rfl | hrest⟩
        · exact absurd hseen hi
        · exact ⟨fun h => h.elim hi fun heq => hi (heq ▸ hseen), hrest⟩
    · rw [if_neg hseen]
      refine ⟨nodup_cons.mpr ⟨fun h => ((hmem _).mp h).1 ?_, hnodup⟩, fun i => ?_⟩
      · exact mem_append_right _ mem_cons_self
      · rw [mem_cons, hmem, map_cons, mem_append, mem_singleton, mem_cons]
        constructor
        · rintro (rfl | ⟨hi, hrest⟩)
          · exact ⟨hseen, Or.inl rfl⟩
          · exact ⟨fun h => hi (Or.inl h), Or.inr hrest⟩
        · rintro ⟨hi, rfl | hrest⟩
          · exact Or.inl rfl
          · by_cases heq : i = tc.index
            · exact Or.inl heq
            · exact Or.inr ⟨fun h => h.elim hi heq, hrest⟩

theorem segmentsFrom_indices (seen : List Int) (current : Option (Int × Run))
    (deltas : List ToolCallDelta) :
    (segmentsFrom seen current deltas).map Prod.fst =
      current.toList.map Prod.fst ++ newIndices seen deltas := by
  induction deltas generalizing seen current with
  | nil => exact (append_nil _).symm
  | cons tc rest ih =>
    rw [segmentsFrom, newIndices]
    by_cases hseen : tc.index ∈ seen
    · rw [if_pos hseen, if_pos hseen, ih]
      cases current with
      | _ => rfl
    · rw [if_neg hseen, if_neg hseen, map_append, ih]
      rfl

variable {calls : List StreamedCall}

variable {deltas : List ToolCallDelta}

theorem Streams.indices_perm (h : Streams calls deltas) :
    (newIndices [] deltas).Perm (calls.map StreamedCall.index) := by
  obtain ⟨hnodup, hmem⟩ := newIndices_nodup [] deltas
  refine (perm_ext_iff_of_nodup hnodup h.indices).mpr fun i => ?_
  rw [hmem, List.mem_map, List.mem_map]
  constructor
  · rintro ⟨-, tc, htc, rfl⟩
    obtain ⟨c, hc, hindex, _⟩ := h.delta tc htc
    exact ⟨c, hc, hindex⟩
  · rintro ⟨c, hc, rfl⟩
    obtain ⟨tc, htc, _⟩ := h.name c hc
    obtain ⟨hin, hindex⟩ := mem_filter.mp htc
    exact ⟨not_mem_nil, tc, hin, of_decide_eq_true hindex⟩

/-- Deltas whose ids are those of their calls, the first ones with an id. -/
def Named (calls : List StreamedCall) : List Int → List ToolCallDelta → Prop
  | _, [] => True
  | seen, tc :: rest => (∃ c ∈ calls, c.index = tc.index ∧ (tc.id = "" ∨ tc.id = c.id) ∧
      (tc.index ∉ seen → tc.id = c.id ∧ c.id ≠ "")) ∧ Named calls (seen ++ [tc.index]) rest

theorem Streams.named (h : Streams calls deltas) : Named calls [] deltas := by
  have hfrom : ∀ done rest, deltas = done ++ rest →
      Named calls (done.map ToolCallDelta.index) rest := by
    intro done rest
    induction rest generalizing done with
    | nil => exact fun _ => trivial
    | cons tc rest ih =>
      intro hsplit
      have hrest := ih (done ++ [tc]) (by rw [hsplit, append_assoc, singleton_append])
      rw [map_append] at hrest
      refine ⟨?_, hrest⟩
      have htc : tc ∈ deltas := hsplit ▸ mem_append_right done mem_cons_self
      obtain ⟨c, hc, hindex, hid, _⟩ := h.delta tc htc
      refine ⟨c, hc, hindex, hid, fun hnew => ⟨?_, h.nonempty c hc⟩⟩
      have hnone : done.filter (fun d => d.index = c.index) = [] := by
        refine filter_eq_nil_iff.mpr fun d hd heq => hnew ?_
        rw [← hindex, ← of_decide_eq_true heq]
        exact mem_map_of_mem hd
      have hown : (tc :: rest).filter (fun d => d.index = c.index) =
          tc :: rest.filter fun d => d.index = c.index :=
        filter_cons_of_pos (decide_eq_true hindex.symm)
      have hfirst := h.first c hc
      rw [ownDeltas, hsplit, filter_append, hnone, nil_append, hown] at hfirst
      exact Option.some.inj hfirst
  exact hfrom [] deltas rfl

section Runs

variable {run : Run} {tc : ToolCallDelta} {rest : List Piece}

theorem runsFrom_open : runsFrom none (.call tc :: rest) = runsFrom (some (openRun tc)) rest := rfl

theorem runsFrom_start (h : tc.id ≠ "" ∧ run.id ≠ tc.id) :
    runsFrom (some run) (.call tc :: rest) = run :: runsFrom (some (openRun tc)) rest := by
  have hstep : runStep (some run) (.call tc) = ([run], some (openRun tc)) := if_pos h
  rw [runsFrom, hstep]
  rfl

theorem runsFrom_further (h : tc.id = "" ∨ tc.id = run.id) :
    runsFrom (some run) (.call tc :: rest) = runsFrom (some (run.add tc)) rest := by
  have hstep : runStep (some run) (.call tc) = ([], some (run.add tc)) :=
    if_neg fun hother => h.elim hother.1 fun heq => hother.2 heq.symm
  rw [runsFrom, hstep]
  rfl

theorem add_id (h : tc.id = "" ∨ tc.id = run.id) : (run.add tc).id = run.id := by
  simp only [Run.add]
  split
  next hne => exact h.resolve_left hne
  next => rfl

end Runs

variable {seen : List Int}

variable {pieces : List Piece}

theorem segmentsFrom_closed (h : Unbroken seen none pieces) (s : Int × Run) :
    segmentsFrom seen (some s) (deltasOf pieces) =
      s :: segmentsFrom seen none (deltasOf pieces) := by
  induction pieces with
  | nil => rfl
  | cons piece rest ih =>
    cases piece with
    | text content => exact ih h
    | thinking field delta => exact ih h
    | call tc =>
      rw [Unbroken] at h
      by_cases hseen : tc.index ∈ seen
      · rw [if_pos hseen] at h
        obtain ⟨⟨id, hid, _⟩, _⟩ := h
        cases hid
      · have hdeltas : deltasOf (.call tc :: rest) = tc :: deltasOf rest := rfl
        rw [hdeltas, segmentsFrom, segmentsFrom, if_neg hseen, if_neg hseen]
        rfl

/-- A segment of a call has its id. -/
def OfCall (calls : List StreamedCall) (s : Int × Run) : Prop :=
  ∃ c ∈ calls, c.index = s.1 ∧ c.id = s.2.id

theorem runsFrom_eq_segments (segment : Option (Int × Run))
    (h : Unbroken seen ((segment.map Prod.snd).map Run.id) pieces)
    (hnamed : Named calls seen (deltasOf pieces)) (hsegment : ∀ s ∈ segment, OfCall calls s) :
    runsFrom (segment.map Prod.snd) pieces =
        (segmentsFrom seen segment (deltasOf pieces)).map Prod.snd ∧
      ∀ s ∈ segmentsFrom seen segment (deltasOf pieces), OfCall calls s := by
  induction pieces generalizing seen segment with
  | nil =>
    refine ⟨?_, fun s hs => hsegment s (mem_toList.mp hs)⟩
    cases segment with
    | _ => rfl
  | cons piece rest ih =>
    have hclosed : Unbroken seen none rest → Named calls seen (deltasOf rest) →
        (segment.map Prod.snd).toList ++ runsFrom none rest =
            (segmentsFrom seen segment (deltasOf rest)).map Prod.snd ∧
          ∀ s ∈ segmentsFrom seen segment (deltasOf rest), OfCall calls s := by
      intro hrest hnamed
      obtain ⟨hruns, hall⟩ := ih none hrest hnamed fun s hs => nomatch hs
      cases segment with
      | none => exact ⟨hruns, hall⟩
      | some s =>
        rw [segmentsFrom_closed hrest]
        refine ⟨?_, forall_mem_cons.mpr ⟨hsegment s rfl, hall⟩⟩
        rw [map_cons, ← hruns]
        rfl
    cases piece with
    | text content => exact hclosed h hnamed
    | thinking field delta => exact hclosed h hnamed
    | call tc =>
      have hdeltas : deltasOf (.call tc :: rest) = tc :: deltasOf rest := rfl
      rw [hdeltas] at hnamed ⊢
      rw [Named] at hnamed
      obtain ⟨⟨c, hc, hindex, hid, hfirst⟩, hnamed⟩ := hnamed
      rw [Unbroken] at h
      rw [segmentsFrom]
      by_cases hseen : tc.index ∈ seen
      · rw [if_pos hseen] at h ⊢
        obtain ⟨⟨id, hcurrent, htcid⟩, hrest⟩ := h
        cases segment with
        | none => cases hcurrent
        | some s =>
          obtain rfl : s.2.id = id := Option.some.inj hcurrent
          have hsame := add_id htcid
          rw [map_some, map_some, ← hsame] at hrest
          obtain ⟨d, hd, hdindex, hdid⟩ := hsegment s rfl
          obtain ⟨hruns, hall⟩ := ih (some (s.1, s.2.add tc)) hrest hnamed fun s' hs' => by
            obtain rfl := Option.some.inj hs'
            exact ⟨d, hd, hdindex, hdid.trans hsame.symm⟩
          rw [map_some, runsFrom_further htcid]
          exact ⟨hruns, hall⟩
      · rw [if_neg hseen] at h ⊢
        obtain ⟨hother, hrest⟩ := h
        obtain ⟨htcid, hne⟩ := hfirst hseen
        have hstep : runsFrom (segment.map Prod.snd) (.call tc :: rest) =
            (segment.map Prod.snd).toList ++ runsFrom (some (openRun tc)) rest := by
          cases segment with
          | none => exact runsFrom_open
          | some s => exact runsFrom_start ⟨htcid ▸ hne, fun heq => hother (congrArg some heq)⟩
        obtain ⟨hruns, hall⟩ := ih (some (tc.index, openRun tc)) hrest hnamed fun s' hs' => by
          obtain rfl := Option.some.inj hs'
          exact ⟨c, hc, hindex, htcid.symm⟩
        rw [hstep]
        constructor
        · rw [map_append, ← hruns, toList_map]
          rfl
        · intro s hs
          rcases mem_append.mp hs with hopen | hlater
          · exact hsegment s (mem_toList.mp hopen)
          · exact hall s hlater

def FromSeen (calls : List StreamedCall) (seen : List Int) (run : Run) : Prop :=
  run.id = "" ∨ ∃ c ∈ calls, c.index ∈ seen ∧ c.id = run.id

theorem FromSeen.mono {run : Run}
    (h : FromSeen calls seen run) (i : Int) : FromSeen calls (seen ++ [i]) run :=
  h.imp_right fun ⟨c, hc, hindex, hid⟩ => ⟨c, hc, mem_append_left _ hindex, hid⟩

theorem length_runsFrom (hids : (calls.map StreamedCall.id).Nodup) (current : Option Run)
    (hnamed : Named calls seen (deltasOf pieces))
    (hcurrent : ∀ run ∈ current, FromSeen calls seen run) :
    current.toList.length + (newIndices seen (deltasOf pieces)).length ≤
        (runsFrom current pieces).length ∧
      ((runsFrom current pieces).length =
          current.toList.length + (newIndices seen (deltasOf pieces)).length →
        Unbroken seen (current.map Run.id) pieces) := by
  induction pieces generalizing seen current with
  | nil => exact ⟨Nat.le_refl _, fun _ => trivial⟩
  | cons piece rest ih =>
    have hclosed : Named calls seen (deltasOf rest) →
        current.toList.length + (newIndices seen (deltasOf rest)).length ≤
            (current.toList ++ runsFrom none rest).length ∧
          ((current.toList ++ runsFrom none rest).length =
              current.toList.length + (newIndices seen (deltasOf rest)).length →
            Unbroken seen none rest) := by
      intro hnamed
      obtain ⟨hlength, hunbroken⟩ := ih none hnamed fun run hrun => nomatch hrun
      rw [toList_none, length_nil] at hlength hunbroken
      rw [length_append]
      refine ⟨by omega, fun heq => hunbroken ?_⟩
      omega
    cases piece with
    | text content => exact hclosed hnamed
    | thinking field delta => exact hclosed hnamed
    | call tc =>
      have hdeltas : deltasOf (.call tc :: rest) = tc :: deltasOf rest := rfl
      rw [hdeltas] at hnamed ⊢
      rw [Named] at hnamed
      obtain ⟨⟨c, hc, hindex, hid, hfirst⟩, hnamed⟩ := hnamed
      have hlast : c.index ∈ seen ++ [tc.index] :=
        hindex ▸ mem_append_right seen mem_cons_self
      have hopen : FromSeen calls (seen ++ [tc.index]) (openRun tc) :=
        hid.imp_right fun heq => ⟨c, hc, hlast, heq.symm⟩
      obtain ⟨hstarted, hunbroken⟩ := ih (some (openRun tc)) hnamed fun run hrun => by
        obtain rfl := Option.some.inj hrun
        exact hopen
      rw [toList_some, length_singleton] at hstarted hunbroken
      rw [newIndices, Unbroken]
      by_cases hseen : tc.index ∈ seen
      · rw [if_pos hseen, if_pos hseen]
        cases current with
        | none =>
          rw [runsFrom_open, toList_none, length_nil]
          exact ⟨by omega, fun heq => absurd heq (by omega)⟩
        | some run =>
          rw [toList_some, length_singleton]
          by_cases hother : tc.id ≠ "" ∧ run.id ≠ tc.id
          · rw [runsFrom_start hother, length_cons]
            exact ⟨by omega, fun heq => absurd heq (by omega)⟩
          · have htcid : tc.id = "" ∨ tc.id = run.id := by
              by_cases hempty : tc.id = ""
              · exact Or.inl hempty
              · exact Or.inr (not_not.mp fun hne => hother ⟨hempty, Ne.symm hne⟩)
            have hsame := add_id htcid
            obtain ⟨hlength, hadded⟩ := ih (some (run.add tc)) hnamed fun run' hrun' => by
              obtain rfl := Option.some.inj hrun'
              have hseenrun := (hcurrent run rfl).mono tc.index
              rw [FromSeen, ← hsame] at hseenrun
              exact hseenrun
            rw [toList_some, length_singleton] at hlength hadded
            rw [runsFrom_further htcid]
            refine ⟨hlength, fun heq => ⟨⟨run.id, rfl, htcid⟩, ?_⟩⟩
            have hrest := hadded heq
            rw [map_some, hsame] at hrest
            exact hrest
      · obtain ⟨htcid, hne⟩ := hfirst hseen
        rw [if_neg hseen, if_neg hseen, length_cons]
        cases current with
        | none =>
          rw [runsFrom_open, toList_none, length_nil]
          refine ⟨by omega, fun heq => ⟨nofun, hunbroken ?_⟩⟩
          omega
        | some run =>
          have hother : run.id ≠ tc.id := by
            intro heq
            rcases hcurrent run rfl with hempty | ⟨d, hd, hdindex, hdid⟩
            · exact hne (htcid ▸ heq ▸ hempty)
            · have hsame : d = c :=
                inj_on_of_nodup_map hids hd hc (hdid.trans (heq.trans htcid))
              exact hseen (hindex ▸ hsame ▸ hdindex)
          rw [runsFrom_start ⟨htcid ▸ hne, hother⟩, length_cons, toList_some, length_singleton]
          refine ⟨by omega, fun heq => ⟨fun h => hother (Option.some.inj h), hunbroken ?_⟩⟩
          omega

theorem map_call_perm {parse : String → Json}
    (hindices : (calls.map StreamedCall.index).Nodup) {segments : List (Int × Run)}
    (hperm : (segments.map Prod.fst).Perm (calls.map StreamedCall.index))
    (hcalls : ∀ s ∈ segments, ∀ c ∈ calls, c.index = s.1 → s.2.call parse = c.call parse) :
    (segments.map fun s => s.2.call parse).Perm (calls.map (StreamedCall.call parse)) := by
  let callAt (i : Int) : String × String × Json :=
    ((Table.lookup StreamedCall.index calls i).map (StreamedCall.call parse)).getD ("", "", .null)
  have hat : ∀ c ∈ calls, callAt c.index = c.call parse := by
    intro c hc
    simp only [callAt, (Table.lookup_eq_some hindices).mpr ⟨hc, rfl⟩, map_some, getD_some]
  have hsegments : segments.map (fun s => s.2.call parse) =
      (segments.map Prod.fst).map callAt := by
    rw [List.map_map]
    refine List.map_congr_left fun s hs => ?_
    obtain ⟨c, hc, hindex⟩ := List.mem_map.mp (hperm.subset (mem_map_of_mem hs))
    rw [hcalls s hs c hc hindex, Function.comp_apply, ← hindex, hat c hc]
  have hall : calls.map (StreamedCall.call parse) =
      (calls.map StreamedCall.index).map callAt := by
    rw [List.map_map]
    exact List.map_congr_left fun c hc => (hat c hc).symm
  rw [hsegments, hall]
  exact hperm.map callAt

section Message

variable {calls : List StreamedCall} {pieces : List Piece}

theorem Streams.segments (h : Streams calls (deltasOf pieces))
    (hunbroken : Unbroken [] none pieces) :
    runsFrom none pieces = (segmentsFrom [] none (deltasOf pieces)).map Prod.snd ∧
      ∀ s ∈ segmentsFrom [] none (deltasOf pieces), ∀ c ∈ calls, c.index = s.1 → c.id = s.2.id := by
  obtain ⟨hruns, hall⟩ := runsFrom_eq_segments none hunbroken h.named fun s hs => nomatch hs
  refine ⟨hruns, fun s hs c hc hindex => ?_⟩
  obtain ⟨d, hd, hdindex, hdid⟩ := hall s hs
  rw [inj_on_of_nodup_map h.indices hc hd (hindex.trans hdindex.symm)]
  exact hdid

theorem Streams.segments_perm (h : Streams calls (deltasOf pieces)) :
    ((segmentsFrom [] none (deltasOf pieces)).map Prod.fst).Perm
      (calls.map StreamedCall.index) := by
  rw [segmentsFrom_indices]
  exact h.indices_perm

variable {parse : String → Json}

theorem Separate.runs_perm (hseparate : Separate parse calls pieces)
    (h : Streams calls (deltasOf pieces)) :
    ((runsFrom none pieces).map (Run.call parse)).Perm (calls.map (StreamedCall.call parse)) := by
  obtain ⟨hruns, hids⟩ := h.segments hseparate.unbroken
  rw [hruns, List.map_map]
  refine map_call_perm h.indices h.segments_perm fun s hs c hc hindex => ?_
  obtain ⟨hname, harguments⟩ := hseparate.whole s hs c hc hindex
  rw [Run.call, StreamedCall.call, hids s hs c hc hindex, hname, harguments]

theorem Streams.separate (h : Streams calls (deltasOf pieces))
    (hdistinct : (calls.map StreamedCall.id).Nodup)
    (hperm : ((runsFrom none pieces).map (Run.call parse)).Perm
      (calls.map (StreamedCall.call parse))) : Separate parse calls pieces := by
  obtain ⟨_, hlength⟩ := length_runsFrom hdistinct none h.named fun run hrun => nomatch hrun
  have hcount : (runsFrom none pieces).length = (newIndices [] (deltasOf pieces)).length := by
    have hcalls := hperm.length_eq
    have hindices := h.indices_perm.length_eq
    rw [length_map, length_map] at hcalls
    rw [length_map] at hindices
    omega
  have hunbroken : Unbroken [] none pieces := by
    apply hlength
    rw [hcount, toList_none, length_nil, Nat.zero_add]
  obtain ⟨hruns, hids⟩ := h.segments hunbroken
  refine ⟨hunbroken, fun s hs c hc hindex => ?_⟩
  have hout : s.2.call parse ∈ (runsFrom none pieces).map (Run.call parse) := by
    rw [hruns]
    exact mem_map_of_mem (mem_map_of_mem hs)
  obtain ⟨d, hd, hcall⟩ := List.mem_map.mp (hperm.subset hout)
  obtain ⟨hdid, hrest⟩ := Prod.mk.inj hcall
  obtain ⟨hname, harguments⟩ := Prod.mk.inj hrest
  have hsame : d = c :=
    inj_on_of_nodup_map hdistinct hd hc (hdid.trans (hids s hs c hc hindex).symm)
  exact hsame ▸ ⟨hname.symm, harguments.symm⟩

end Message

/-- The message has the calls, the texts and the reasoning of the stream when its calls are kept
apart and, where ids tell the calls apart, only then. -/
theorem reassembled_iff_separate (parse : String → Json) {chunks : List Chunk}
    {calls : List StreamedCall} (h : Streams calls (deltasOf (piecesOf chunks))) (aborted : Bool) :
    (Separate parse calls (piecesOf chunks) → Reassembled parse calls (piecesOf chunks)
        (streamOpenAICompletions parse chunks none aborted)) ∧
      ((calls.map StreamedCall.id).Nodup → (Reassembled parse calls (piecesOf chunks)
          (streamOpenAICompletions parse chunks none aborted) ↔
        Separate parse calls (piecesOf chunks))) := by
  have hholds := holds_streamOpenAICompletions parse chunks aborted
  have henough : Separate parse calls (piecesOf chunks) → Reassembled parse calls (piecesOf chunks)
      (streamOpenAICompletions parse chunks none aborted) := by
    intro hseparate
    refine ⟨?_, hholds.text, hholds.thinking⟩
    rw [hholds.calls]
    exact hseparate.runs_perm h
  refine ⟨henough, fun hdistinct => ⟨fun hreassembled => ?_, henough⟩⟩
  have hperm := hreassembled.calls
  rw [hholds.calls] at hperm
  exact h.separate hdistinct hperm

def callChunk (toolCalls : List ToolCallDelta) : Chunk where
  id := "c"
  choice := some { delta := some { toolCalls := toolCalls } }

/-- Two calls, whose arguments are an object with a member and an empty one. -/
def sampleCalls : List StreamedCall :=
  [⟨0, "a", "ls", "\x7b\"x\":1\x7d"⟩, ⟨1, "b", "ls", "\x7b\x7d"⟩]

/-- `parseStreamingJson` on the arguments of the two calls and on the beginning of the first. -/
def sampleParse : String → Json :=
  parseStreamingJson
    (fun text => if text = "\x7b\"x\":1\x7d" then some (.obj [("x", .num 1)])
      else if text = "\x7b\x7d" then some (.obj []) else none)
    fun text => if text = "\x7b\"x\":" then some (.obj []) else none

/-- One call behind the other, with a text before them. -/
def separateChunks : List Chunk :=
  [{ id := "c", choice := some { delta := some { content := "Hi" } } },
    callChunk [⟨0, "a", "ls", "\x7b\"x\":"⟩], callChunk [⟨0, "", "", "1\x7d"⟩],
    callChunk [⟨1, "b", "ls", "\x7b\x7d"⟩]]

/-- The second call begins before the first one has ended. -/
def interleavedChunks : List Chunk :=
  [callChunk [⟨0, "a", "ls", "\x7b\"x\":"⟩], callChunk [⟨1, "b", "ls", "\x7b\x7d"⟩],
    callChunk [⟨0, "", "", "1\x7d"⟩]]

/-- Calls that are streamed one behind the other come out. -/
theorem reassembled_separateChunks :
    Reassembled sampleParse sampleCalls (piecesOf separateChunks)
      (streamOpenAICompletions sampleParse separateChunks none false) := by
  have hstreams : Streams sampleCalls (deltasOf (piecesOf separateChunks)) := by
    constructor <;> decide
  refine (reassembled_iff_separate sampleParse hstreams false).1 ⟨?_, ?_⟩
  · exact ⟨nofun, ⟨"a", rfl, Or.inl rfl⟩, by decide, trivial⟩
  · have hsegments : segmentsFrom [] none (deltasOf (piecesOf separateChunks)) =
        [(0, ⟨"a", "ls", "\x7b\"x\":1\x7d"⟩), (1, ⟨"b", "ls", "\x7b\x7d"⟩)] := by
      decide
    rw [hsegments]
    intro s hs c hc hindex
    simp only [sampleCalls, mem_cons, not_mem_nil, or_false] at hs hc
    rcases hs with rfl | rfl <;> rcases hc with rfl | rfl
    · exact ⟨rfl, rfl⟩
    · exact absurd hindex (by decide)
    · exact absurd hindex (by decide)
    · exact ⟨rfl, rfl⟩

/-- The rest of the first call goes to the second one. -/
theorem interleaved_not_reassembled :
    Streams sampleCalls (deltasOf (piecesOf interleavedChunks)) ∧
      ¬Reassembled sampleParse sampleCalls (piecesOf interleavedChunks)
        (streamOpenAICompletions sampleParse interleavedChunks none false) := by
  refine ⟨by constructor <;> decide, fun h => ?_⟩
  have hcalls : (streamOpenAICompletions sampleParse interleavedChunks none false).content.filterMap
      Block.call = [("a", "ls", .obj []), ("b", "ls", .obj [])] := by
    rfl
  have hmem : ("a", "ls", Json.obj [("x", .num 1)]) ∈
      [("a", "ls", Json.obj []), ("b", "ls", Json.obj [])] := by
    rw [← hcalls]
    exact h.calls.mem_iff.mpr mem_cons_self
  rcases mem_cons.mp hmem with heq | hmem
  · cases heq
  · exact absurd (congrArg Prod.fst (mem_singleton.mp hmem)) (by decide)

end CrabbyKit.Completions
