import CrabbyKit.Core.Interleaved
import CrabbyKit.Providers.TransformMessages

/-!
# Tool call ids for OpenAI completions

`normalizeToolCallId` of `ai/src/providers/openai-completions.ts` shortens and rewrites ids.
Every call of another model's reply and every result of such a call get what it makes of their
id, so calls are confused exactly when it makes the same of their ids.
-/

namespace CrabbyKit.Providers

open List

/-- The code unit of `|`. -/
def pipe : UInt16 := 0x7C

/-- A code unit that `[a-zA-Z0-9_-]` matches. -/
def isIdUnit (u : UInt16) : Bool :=
  (0x61 ≤ u && u ≤ 0x7A) || (0x41 ≤ u && u ≤ 0x5A) || (0x30 ≤ u && u ≤ 0x39) || u == 0x5F ||
    u == 0x2D

/-- `replace(/[^a-zA-Z0-9_-]/g, "_")`. -/
def sanitize (id : JsString) : JsString := id.map fun u => if isIdUnit u then u else 0x5F

def normalizeToolCallId (model : Model) (id : JsString) : JsString :=
  if id.contains pipe then (sanitize (id.takeWhile (· ≠ pipe))).take 40
  else if model.provider = js "openai" then (if id.length > 40 then id.take 40 else id)
  else id

/-- The callback of `convertMessages`. -/
def openAINormalizer (model : Model) : Normalizer := fun id _ => normalizeToolCallId model id

theorem normalizeToolCallId_ne_nil {model : Model} {id : JsString} (hid : id ≠ [])
    (hpipe : id.head? ≠ some pipe) : normalizeToolCallId model id ≠ [] := by
  obtain ⟨u, rest, rfl⟩ := exists_cons_of_ne_nil hid
  have hu : u ≠ pipe := fun h => hpipe (by rw [h]; rfl)
  unfold normalizeToolCallId
  split_ifs
  · rw [takeWhile_cons_of_pos (by simpa using hu)]
    exact cons_ne_nil _ _
  · exact cons_ne_nil _ _
  · exact cons_ne_nil _ _
  · exact cons_ne_nil _ _

/-- Whether the second pass keeps a message. -/
def Message.sent : Message → Bool
  | .assistant m => !m.skipped
  | _ => true

def callAt (history : List Message) (i j : Nat) : Option ToolCall :=
  match history[i]? with
  | some (.assistant m) => m.toolCalls[j]?
  | _ => none

def resultAt (history : List Message) (k : Nat) : Option ToolResultMessage :=
  match history[k]? with
  | some (.toolResult r) => some r
  | _ => none

section Repair

variable (now : Instant)

theorem Repair.flush_adds (st : Repair) :
    ∃ calls : List ToolCall, (∀ call ∈ calls, call ∈ st.pendingToolCalls) ∧
      (st.flush now).result =
        st.result ++ (calls.map (syntheticResult now)).map Message.toolResult := by
  unfold Repair.flush
  by_cases hpending : st.pendingToolCalls = []
  · simp only [hpending, ne_eq, not_true, if_false]
    exact ⟨[], fun call hcall => absurd hcall not_mem_nil, (append_nil _).symm⟩
  · simp only [hpending, ne_eq, not_false_iff, if_true]
    exact ⟨_, fun call hcall => mem_of_mem_filter hcall, rfl⟩

/-- A call of a reply that is kept. -/
def CalledIn (messages : List Message) (call : ToolCall) : Prop :=
  ∃ m, Message.assistant m ∈ messages ∧ m.skipped = false ∧ call ∈ m.toolCalls

/-- What the second pass has done with the messages so far. -/
structure Supplies (seen : List Message) (st : Repair) (calls : List ToolCall) : Prop where
  /-- The result consists of the messages that are kept and of supplied results. -/
  interleaved : Interleaved (seen.filter Message.sent)
    ((calls.map (syntheticResult now)).map Message.toolResult) st.result
  supplied : ∀ call ∈ calls, CalledIn seen call
  pending : ∀ call ∈ st.pendingToolCalls, CalledIn seen call

variable {now} {seen : List Message} {st : Repair} {calls : List ToolCall}

theorem CalledIn.mono {call : ToolCall} (h : CalledIn seen call) (m : Message) :
    CalledIn (seen ++ [m]) call := by
  obtain ⟨source, hmem, hkept, hcall⟩ := h
  exact ⟨source, mem_append_left _ hmem, hkept, hcall⟩

theorem Supplies.flush (h : Supplies now seen st calls) :
    ∃ calls', Supplies now seen (st.flush now) (calls ++ calls') := by
  obtain ⟨more, hmore, hresult⟩ := st.flush_adds now
  refine ⟨more, ?_, ?_, ?_⟩
  · rw [hresult, map_append, map_append]
    have happend := h.interleaved.append (Interleaved.rightOnly
      ((more.map (syntheticResult now)).map Message.toolResult))
    rwa [append_nil] at happend
  · intro call hcall
    rcases mem_append.mp hcall with hold | hnew
    · exact h.supplied call hold
    · exact h.pending call (hmore call hnew)
  · intro call hcall
    rw [(st.flush_spec now).1] at hcall
    exact absurd hcall not_mem_nil

theorem Supplies.keep (h : Supplies now seen st calls) {m : Message} (hm : m.sent = true)
    {st' : Repair} (hresult : st'.result = st.result ++ [m])
    (hpending : ∀ call ∈ st'.pendingToolCalls, CalledIn (seen ++ [m]) call) :
    Supplies now (seen ++ [m]) st' calls := by
  refine ⟨?_, fun call hcall => (h.supplied call hcall).mono m, hpending⟩
  rw [hresult, filter_append, filter_cons_of_pos hm, filter_nil]
  have happend := h.interleaved.append (Interleaved.leftOnly [m])
  rwa [append_nil] at happend

theorem Supplies.step (h : Supplies now seen st calls) (m : Message) :
    ∃ calls', Supplies now (seen ++ [m]) (st.step now m) (calls ++ calls') := by
  cases m with
  | toolResult r =>
    refine ⟨[], ?_⟩
    rw [append_nil]
    exact h.keep rfl rfl fun call hcall => (h.pending call hcall).mono _
  | user u =>
    obtain ⟨calls', hflush⟩ := h.flush
    exact ⟨calls', hflush.keep rfl rfl fun call hcall => (hflush.pending call hcall).mono _⟩
  | assistant m =>
    obtain ⟨calls', hflush⟩ := h.flush
    refine ⟨calls', ?_⟩
    by_cases hskipped : m.skipped = true
    · simp only [Repair.step, hskipped, if_true]
      refine ⟨?_, fun call hcall => (hflush.supplied call hcall).mono _,
        fun call hcall => (hflush.pending call hcall).mono _⟩
      rw [filter_append, filter_cons_of_neg (by simp [Message.sent, hskipped]),
        filter_nil, append_nil]
      exact hflush.interleaved
    · have hkept : m.skipped = false := by simpa using hskipped
      have hsent : (Message.assistant m).sent = true := by simp [Message.sent, hkept]
      by_cases hcalls : m.toolCalls = []
      · simp only [Repair.step, hkept, hcalls, ne_eq, not_true, if_false, Bool.false_eq_true]
        exact hflush.keep hsent rfl fun call hcall => (hflush.pending call hcall).mono _
      · simp only [Repair.step, hkept, hcalls, ne_eq, not_false_iff, if_true, if_false,
          Bool.false_eq_true]
        exact hflush.keep hsent rfl fun call hcall =>
          ⟨m, mem_append_right _ mem_cons_self, hkept, hcall⟩

theorem repaired_supplies (now : Instant) (messages : List Message) :
    ∃ calls : List ToolCall, (∀ call ∈ calls, CalledIn messages call) ∧
      Interleaved (messages.filter Message.sent)
        ((calls.map (syntheticResult now)).map Message.toolResult) (repaired now messages) := by
  have hrun : ∀ (rest seen : List Message) (st : Repair) (calls : List ToolCall),
      Supplies now seen st calls →
        ∃ calls', Supplies now (seen ++ rest) (rest.foldl (Repair.step now) st) calls' := by
    intro rest
    induction rest with
    | nil =>
      intro seen st calls h
      rw [append_nil]
      exact ⟨calls, h⟩
    | cons m rest ih =>
      intro seen st calls h
      obtain ⟨calls', hstep⟩ := h.step m
      obtain ⟨calls'', hrest⟩ := ih _ _ _ hstep
      rw [append_assoc] at hrest
      exact ⟨calls'', hrest⟩
  obtain ⟨calls, h⟩ := hrun messages [] ⟨[], [], []⟩ []
    ⟨Interleaved.nil, fun _ h => absurd h not_mem_nil, fun _ h => absurd h not_mem_nil⟩
  exact ⟨calls, h.supplied, h.interleaved⟩

end Repair

section Ids

variable (model : Model)

theorem transformed_getElem? (normalize : Option Normalizer) (earlier messages : List Message)
    (i : Nat) :
    (transformed model normalize (earlier.flatMap (renames model normalize)).reverse messages)[i]? =
      messages[i]?.map fun m => (transformMessage model normalize
        ((earlier ++ messages.take i).flatMap (renames model normalize)).reverse m).1 := by
  induction messages generalizing earlier i with
  | nil => rfl
  | cons m rest ih =>
    cases i with
    | zero => simp [transformed]
    | succ i =>
      have hids : (transformMessage model normalize
          (earlier.flatMap (renames model normalize)).reverse m).2 =
          ((earlier ++ [m]).flatMap (renames model normalize)).reverse := by
        rw [transformMessage_ids, flatMap_append, reverse_append, flatMap_singleton]
      simp only [transformed, getElem?_cons_succ]
      rw [hids, ih, append_assoc]
      rfl

variable {model} {history : List Message}

/-- All replies come from other models. -/
def Foreign (model : Model) (history : List Message) : Prop :=
  ∀ m, Message.assistant m ∈ history → isSameModel model m = false

/-- The first pass of the history that OpenAI completions get. -/
def renamed (model : Model) (history : List Message) : List Message :=
  transformed model (some (openAINormalizer model)) [] history

theorem renamed_getElem? (i : Nat) :
    (renamed model history)[i]? = history[i]?.map fun m =>
      (transformMessage model (some (openAINormalizer model))
        ((history.take i).flatMap (renames model (some (openAINormalizer model)))).reverse m).1 :=
  transformed_getElem? model _ [] history i

theorem sentId_openAI {source : AssistantMessage} (hsource : isSameModel model source = false)
    (id : JsString) :
    sentId model (some (openAINormalizer model)) source id = normalizeToolCallId model id := by
  simp [sentId, hsource, openAINormalizer]

variable {c : ToolCall}

theorem callAt_renamed (hforeign : Foreign model history) {i j : Nat}
    (hc : callAt history i j = some c) :
    ∃ d, callAt (renamed model history) i j = some d ∧ d.id = normalizeToolCallId model c.id := by
  unfold callAt at hc ⊢
  rw [renamed_getElem?]
  generalize hm : history[i]? = found at hc ⊢
  rcases found with _ | m
  · cases hc
  · cases m with
    | user u => cases hc
    | toolResult r => cases hc
    | assistant m =>
      have hsource := hforeign m (mem_of_getElem? hm)
      have hcalls := (transformBlocks_spec model (some (openAINormalizer model)) m
        ((history.take i).flatMap (renames model (some (openAINormalizer model)))).reverse
        m.content).1
      have hj := congrArg (fun ids : List JsString => ids[j]?) hcalls
      simp only [getElem?_map, sentId_openAI hsource] at hj
      change m.toolCalls[j]? = some c at hc
      change Option.map _ _ = Option.map _ m.toolCalls[j]? at hj
      rw [hc, Option.map_some] at hj
      exact Option.map_eq_some_iff.mp hj

theorem answeredId_openAI {earlier : List Message} (hforeign : Foreign model earlier)
    {m : AssistantMessage} (hm : Message.assistant m ∈ earlier)
    (hc : c ∈ m.toolCalls) (hid : normalizeToolCallId model c.id ≠ [] ∨ c.id = []) :
    answeredId model (some (openAINormalizer model)) earlier c.id =
      normalizeToolCallId model c.id := by
  -- every change of this id in the map is the same one
  have hentry : ∀ entry ∈ earlier.flatMap (renames model (some (openAINormalizer model))),
      entry.2 = normalizeToolCallId model entry.1 ∧ entry.2 ≠ entry.1 := by
    intro entry hentry
    obtain ⟨source, hsource, hrenamed⟩ := mem_flatMap.mp hentry
    cases source with
    | user u => exact absurd hrenamed not_mem_nil
    | toolResult r => exact absurd hrenamed not_mem_nil
    | assistant source =>
      obtain ⟨hcall, hne⟩ := mem_filter.mp hrenamed
      obtain ⟨call, -, rfl⟩ := mem_map.mp hcall
      exact ⟨sentId_openAI (hforeign source hsource) call.id, by simpa using hne⟩
  unfold answeredId
  cases hfind : (earlier.flatMap (renames model (some (openAINormalizer model)))).reverse.find?
      (·.1 = c.id) with
  | none =>
    by_contra hne
    have hmem : (c.id, normalizeToolCallId model c.id) ∈
        earlier.flatMap (renames model (some (openAINormalizer model))) := by
      refine mem_flatMap.mpr ⟨_, hm, mem_filter.mpr ⟨mem_map.mpr ⟨c, hc, ?_⟩, ?_⟩⟩
      · rw [sentId_openAI (hforeign m hm)]
      · simpa using fun heq => hne heq.symm
    have hnone := find?_eq_none.mp hfind _ (mem_reverse.mpr hmem)
    exact hnone (decide_eq_true rfl)
  | some entry =>
    obtain ⟨hnormalized, hne⟩ :=
      hentry entry (mem_reverse.mp (mem_of_find?_eq_some hfind))
    have hkey : entry.1 = c.id := by simpa using find?_some hfind
    rw [hkey] at hnormalized hne
    have hfull : entry.2 ≠ [] := by
      rcases hid with hid | hid
      · rwa [hnormalized]
      · intro hempty
        exact hne (hempty.trans hid.symm)
    simp only [List.isEmpty_iff, hfull, if_false]
    exact hnormalized

theorem resultAt_renamed (hforeign : Foreign model history) {i j k : Nat} (hik : i < k)
    (hc : callAt history i j = some c) {r : ToolResultMessage}
    (hr : resultAt history k = some r) (hanswers : r.toolCallId = c.id)
    (hpipe : c.id.head? ≠ some pipe) :
    ∃ s, resultAt (renamed model history) k = some s ∧
      s.toolCallId = normalizeToolCallId model c.id := by
  obtain ⟨m, hm, hcall⟩ : ∃ m, Message.assistant m ∈ history.take k ∧ c ∈ m.toolCalls := by
    unfold callAt at hc
    generalize hfound : history[i]? = found at hc
    rcases found with _ | m
    · cases hc
    · cases m with
      | user u => cases hc
      | toolResult r => cases hc
      | assistant m =>
        refine ⟨m, mem_of_getElem? (i := i) ?_, mem_of_getElem? hc⟩
        rw [getElem?_take_of_lt hik, hfound]
  have hid : normalizeToolCallId model c.id ≠ [] ∨ c.id = [] := by
    by_cases hempty : c.id = []
    · exact Or.inr hempty
    · exact Or.inl (normalizeToolCallId_ne_nil hempty hpipe)
  have hearlier : Foreign model (history.take k) :=
    fun m hm => hforeign m (mem_of_mem_take hm)
  have hanswer := answeredId_openAI hearlier hm hcall hid
  unfold resultAt at hr ⊢
  rw [renamed_getElem?]
  generalize hfound : history[k]? = found at hr ⊢
  rcases found with _ | m
  · cases hr
  · cases m with
    | user u => cases hr
    | assistant m => cases hr
    | toolResult r' =>
      cases hr
      have hsource := transformMessage_answer model (some (openAINormalizer model))
        (history.take k) r
      rw [hanswers, hanswer] at hsource
      rw [Option.map_some]
      generalize transformMessage model (some (openAINormalizer model))
        ((history.take k).flatMap (renames model (some (openAINormalizer model)))).reverse
        (.toolResult r) = outcome at hsource ⊢
      obtain ⟨message, ids⟩ := outcome
      cases message with
      | user u => cases hsource
      | assistant m =>
        simp only [Message.source] at hsource
        split_ifs at hsource
      | toolResult s => exact ⟨s, rfl, Entry.answer.inj hsource⟩

/-- OpenAI completions get the history after the first pass, without the replies that are left
out and with supplied results. Two calls have the same id there exactly when the normalizer
makes the same of their ids, and a result of an earlier call carries the id of that call when
the id did not start with a pipe. -/
theorem ids_stay_paired (now : Instant) (hforeign : Foreign model history) :
    (∃ calls : List ToolCall, (∀ call ∈ calls, CalledIn (renamed model history) call) ∧
      Interleaved ((renamed model history).filter Message.sent)
        ((calls.map (syntheticResult now)).map Message.toolResult)
        (transformMessages now history model (some (openAINormalizer model)))) ∧
    (∀ i j i' j' c c', callAt history i j = some c → callAt history i' j' = some c' →
      ∃ d d', callAt (renamed model history) i j = some d ∧
        callAt (renamed model history) i' j' = some d' ∧
        (d.id = d'.id ↔ normalizeToolCallId model c.id = normalizeToolCallId model c'.id)) ∧
    ∀ i j k c r, i < k → callAt history i j = some c → resultAt history k = some r →
      r.toolCallId = c.id → c.id.head? ≠ some pipe →
        ∃ d s, callAt (renamed model history) i j = some d ∧
          resultAt (renamed model history) k = some s ∧ s.toolCallId = d.id := by
  refine ⟨repaired_supplies now (renamed model history), ?_, ?_⟩
  · intro i j i' j' c c' hc hc'
    obtain ⟨d, hd, hid⟩ := callAt_renamed hforeign hc
    obtain ⟨d', hd', hid'⟩ := callAt_renamed hforeign hc'
    refine ⟨d, d', hd, hd', ?_⟩
    rw [hid, hid']
  · intro i j k c r hik hc hr hanswers hpipe
    obtain ⟨d, hd, hid⟩ := callAt_renamed hforeign hc
    obtain ⟨s, hs, hid'⟩ := resultAt_renamed hforeign hik hc hr hanswers hpipe
    exact ⟨d, s, hd, hs, hid'.trans hid.symm⟩

end Ids

def otherReply (ids : List JsString) : AssistantMessage :=
  { content := ids.map fun id =>
      .toolCall { id := id, name := js "read", arguments := js "\x7b\x7d" }
    api := js "openai-responses"
    provider := js "openai-codex"
    model := js "gpt-5"
    stopReason := .toolUse
    timestamp := 1 }

def okResult (id : JsString) : ToolResultMessage := ⟨id, js "read", [.text (js "ok")], false, 2⟩

/-- Ids of 41 code units that differ in the last one. -/
def longId (last : UInt16) : JsString := List.replicate 40 0x61 ++ [last]

def longIds : List Message :=
  [.assistant (otherReply [longId 0x31, longId 0x32]), .toolResult (okResult (longId 0x31)),
    .toolResult (okResult (longId 0x32))]

/-- Two long ids are cut down to the same one. -/
theorem longIds_confused :
    Foreign gpt longIds ∧ longId 0x31 ≠ longId 0x32 ∧
      (transformMessages 5 longIds gpt (some (openAINormalizer gpt))).map Message.entry =
        [.ask [List.replicate 40 0x61, List.replicate 40 0x61],
          .answer (List.replicate 40 0x61), .answer (List.replicate 40 0x61)] := by
  refine ⟨?_, by decide, by decide⟩
  intro m hm
  simp only [longIds, mem_cons, Message.assistant.injEq, reduceCtorEq, not_mem_nil, or_false] at hm
  subst hm
  decide

def pipeId : List Message :=
  [.assistant (otherReply [js "call_1|fc_1"]), .toolResult (okResult (js "call_1|fc_1"))]

/-- A pipe-separated id is cut down to its first part, in the call and in its result. -/
theorem pipeId_paired :
    ∃ d s, callAt (renamed gpt pipeId) 0 0 = some d ∧ resultAt (renamed gpt pipeId) 1 = some s ∧
      s.toolCallId = d.id := by
  have hforeign : Foreign gpt pipeId := by
    intro m hm
    simp only [pipeId, mem_cons, Message.assistant.injEq, reduceCtorEq, not_mem_nil, or_false] at hm
    subst hm
    decide
  exact (ids_stay_paired 5 hforeign).2.2 0 0 1 _ _ (by decide) rfl rfl rfl (by decide)

end CrabbyKit.Providers
