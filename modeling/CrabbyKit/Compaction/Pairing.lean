import CrabbyKit.Compaction.Engine

/-!
# Tool results across a cut

The cut point is chosen by tokens alone. Where it lies between a tool call and a result
of it, the result is kept without its call.
-/

namespace CrabbyKit.Compaction

open List

def HoldsCall (message result : AgentMessage) : Prop :=
  message.role = .assistant ∧ ∃ blocks, message.content = .blocks blocks ∧
    ∃ id name arguments, ContentBlock.toolCall id name arguments ∈ blocks ∧
      result.toolCallId = some id

/-- Every tool result follows the assistant message that holds its call. -/
def Paired (messages : List AgentMessage) : Prop :=
  ∀ (i : Nat) (result : AgentMessage), messages[i]? = some result → result.role = .toolResult →
    ∃ (j : Nat) (message : AgentMessage), j < i ∧ messages[j]? = some message ∧
      HoldsCall message result

/-- The last message before position `i` that holds the call of a result stands at `j`. -/
structure LastCall (messages : List AgentMessage) (j i : Nat) (result : AgentMessage) : Prop where
  lt : j < i
  holds : ∃ message, messages[j]? = some message ∧ HoldsCall message result
  last : ∀ (k : Nat) (message : AgentMessage), j < k → k < i → messages[k]? = some message →
    ¬ HoldsCall message result

def tokensFrom (messages : List AgentMessage) (i : Nat) : Nat :=
  estimateMessagesTokens (messages.drop i)

variable {messages : List AgentMessage} {keepRecentTokens : Nat}

theorem tokensFrom_eq {i : Nat} (hi : i < messages.length) :
    tokensFrom messages i =
      tokensFrom messages (i + 1) + (messages[i]?.map estimateTokens).getD 0 := by
  simp only [tokensFrom, estimateMessagesTokens, drop_eq_getElem_cons hi, map_cons,
    sum_cons, getElem?_eq_getElem hi, Option.map_some, Option.getD_some]
  exact Nat.add_comm _ _

theorem tokensFrom_antitone : Antitone (tokensFrom messages) := by
  apply antitone_nat_of_succ_le
  intro i
  by_cases hi : i < messages.length
  · rw [tokensFrom_eq hi]
    exact Nat.le_add_right _ _
  · have hend : messages.drop (i + 1) = [] := drop_eq_nil_of_le (by omega)
    rw [tokensFrom, hend]
    exact Nat.zero_le _

theorem findCutFrom_some {i : Nat} (hi : i ≤ messages.length) {cut : CutPoint}
    (h : findCutFrom messages keepRecentTokens i (tokensFrom messages i) = some cut) :
    keepRecentTokens ≤ tokensFrom messages cut.cutIndex ∧
      cut.recentTokens = tokensFrom messages cut.cutIndex ∧
      ∀ k, cut.cutIndex < k → k < i → tokensFrom messages k < keepRecentTokens := by
  induction i with
  | zero => cases h
  | succ i ih =>
    rw [findCutFrom, ← tokensFrom_eq hi] at h
    split_ifs at h with hreached hzero
    · cases h
      refine ⟨hreached, rfl, fun k hk hki => ?_⟩
      dsimp only at hk
      omega
    · obtain ⟨hkeep, htokens, hlater⟩ := ih (Nat.le_of_succ_le hi) h
      refine ⟨hkeep, htokens, fun k hk hki => ?_⟩
      rcases Nat.lt_succ_iff_lt_or_eq.mp hki with hlt | rfl
      · exact hlater k hk hlt
      · exact Nat.lt_of_not_le hreached

theorem exists_findCutFrom {i k : Nat} (hi : i ≤ messages.length) (hpos : 0 < k) (hki : k < i)
    (hreached : keepRecentTokens ≤ tokensFrom messages k) :
    ∃ cut, findCutFrom messages keepRecentTokens i (tokensFrom messages i) = some cut ∧
      k ≤ cut.cutIndex := by
  induction i with
  | zero => exact absurd hki (Nat.not_lt_zero k)
  | succ i ih =>
    rw [findCutFrom, ← tokensFrom_eq hi]
    split_ifs with hnow hzero
    · omega
    · exact ⟨⟨i, _⟩, rfl, Nat.le_of_lt_succ hki⟩
    · have hne : k ≠ i := by
        rintro rfl
        exact hnow hreached
      exact ih (Nat.le_of_succ_le hi) (by omega)

theorem findCutPoint_eq (messages : List AgentMessage) (keepRecentTokens : Nat) :
    findCutPoint messages keepRecentTokens =
      findCutFrom messages keepRecentTokens messages.length
        (tokensFrom messages messages.length) := by
  have hend : tokensFrom messages messages.length = 0 := by
    rw [tokensFrom, drop_length]
    rfl
  rw [findCutPoint, hend]

theorem Paired.lastCall (h : Paired messages) {i : Nat} {result : AgentMessage}
    (hresult : messages[i]? = some result) (hrole : result.role = .toolResult) :
    ∃ j, LastCall messages j i result := by
  classical
  obtain ⟨j, message, hji, hmessage, hholds⟩ := h i result hresult hrole
  let called (k : Nat) : Prop := k < i ∧ ∃ m, messages[k]? = some m ∧ HoldsCall m result
  have hcalled : called j := ⟨hji, message, hmessage, hholds⟩
  have hgreatest : called (Nat.findGreatest called i) := Nat.findGreatest_spec hji.le hcalled
  refine ⟨Nat.findGreatest called i, hgreatest.1, hgreatest.2, fun k m hk hki hm hcall => ?_⟩
  exact Nat.findGreatest_is_greatest hk hki.le ⟨hki, m, hm, hcall⟩

/-- In a list that pairs its results, the kept suffix does exactly when for each result the
budget is reached by the messages after it, or not before the message of its call. -/
theorem findCutPoint_paired_iff (h : Paired messages) (keepRecentTokens : Nat) :
    (∀ cut, findCutPoint messages keepRecentTokens = some cut →
        Paired (messages.drop cut.cutIndex)) ↔
      ∀ (i j : Nat) (result : AgentMessage), messages[i]? = some result →
        result.role = .toolResult → LastCall messages j i result →
          (i + 1 < messages.length ∧ keepRecentTokens ≤ tokensFrom messages (i + 1)) ∨
            tokensFrom messages (j + 1) < keepRecentTokens := by
  simp only [findCutPoint_eq]
  constructor
  · intro hkept i j result hresult hrole hlast
    have hi : i < messages.length := (List.getElem?_eq_some_iff.mp hresult).1
    have hji := hlast.lt
    by_contra hnot
    rw [not_or, not_lt] at hnot
    obtain ⟨hafter, hbefore⟩ := hnot
    -- the cut then falls between the call and the result
    obtain ⟨cut, hcut, hle⟩ :=
      exists_findCutFrom le_rfl (Nat.succ_pos j) (by omega : j + 1 < messages.length) hbefore
    obtain ⟨hreached, -, -⟩ := findCutFrom_some le_rfl hcut
    have hinside := (findCutFrom_bound hcut).2
    have hcuti : cut.cutIndex ≤ i := by
      by_contra hlater
      exact hafter ⟨by omega, hreached.trans (tokensFrom_antitone (by omega))⟩
    have hat : (messages.drop cut.cutIndex)[i - cut.cutIndex]? = some result := by
      rw [getElem?_drop, Nat.add_sub_cancel' hcuti]
      exact hresult
    obtain ⟨k, message, hk, hmessage, hholds⟩ := hkept cut hcut _ result hat hrole
    rw [getElem?_drop] at hmessage
    exact hlast.last (cut.cutIndex + k) message (by omega) (by omega) hmessage hholds
  · intro hcond cut hcut i result hresult hrole
    rw [getElem?_drop] at hresult
    obtain ⟨hreached, -, hlater⟩ := findCutFrom_some le_rfl hcut
    obtain ⟨j, hlast⟩ := h.lastCall hresult hrole
    have hjcut : cut.cutIndex ≤ j := by
      rcases hcond _ j result hresult hrole hlast with ⟨hlength, hafter⟩ | hbefore
      · exact absurd hafter (Nat.not_le_of_lt (hlater _ (by omega) hlength))
      · by_contra hlt
        exact absurd (hreached.trans (tokensFrom_antitone (by omega))) (Nat.not_le_of_lt hbefore)
    obtain ⟨message, hmessage, hholds⟩ := hlast.holds
    have hji := hlast.lt
    refine ⟨j - cut.cutIndex, message, by omega, ?_, hholds⟩
    rw [getElem?_drop, Nat.add_sub_cancel' hjcut]
    exact hmessage

/-- A prompt, a tool call and its result. -/
def oneCall : List AgentMessage :=
  [ { role := .user, content := .plain "Read it", timestamp := 1 },
    { role := .assistant
      content := .blocks [.toolCall "call-1" "read" "\x7b\x7d"]
      timestamp := 2 },
    { role := .toolResult, content := .plain "text", timestamp := 3, toolCallId := some "call-1" } ]

theorem oneCall_paired : Paired oneCall := by
  intro i result hresult hrole
  rcases i with _ | _ | _ | i
  · cases hresult
    cases hrole
  · cases hresult
    cases hrole
  · cases hresult
    exact ⟨1, _, Nat.lt_succ_self 1, rfl, rfl, _, rfl, _, _, _, mem_singleton.mpr rfl, rfl⟩
  · cases hresult

/-- With a small budget the cut falls between the call and the result. -/
theorem oneCall_orphaned :
    ¬ ∀ (messages : List AgentMessage) (keepRecentTokens : Nat), Paired messages →
      ∀ cut, findCutPoint messages keepRecentTokens = some cut →
        Paired (messages.drop cut.cutIndex) := by
  intro hall
  have hcut : findCutPoint oneCall 5 = some ⟨2, 9⟩ := by decide
  obtain ⟨j, message, hj, -⟩ := hall oneCall 5 oneCall_paired _ hcut 0 _ rfl rfl
  exact Nat.not_lt_zero j hj

/-- With a larger one it falls before both. -/
theorem findCutPoint_paired_iff_oneCall :
    Paired oneCall ∧
      ∀ cut, findCutPoint oneCall 10 = some cut → Paired (oneCall.drop cut.cutIndex) := by
  refine ⟨oneCall_paired, (findCutPoint_paired_iff oneCall_paired 10).mpr ?_⟩
  intro i j result hresult hrole hlast
  rcases i with _ | _ | _ | i
  · cases hresult
    cases hrole
  · cases hresult
    cases hrole
  · right
    have hj := hlast.lt
    obtain ⟨message, hmessage, hassistant, -⟩ := hlast.holds
    rcases j with _ | _ | j
    · cases hmessage
      cases hassistant
    · decide
    · omega
  · cases hresult

/-- The longest end of some messages that fits a budget. -/
structure NewestFit (budget : Nat) (messages kept : List AgentMessage) : Prop where
  newest : kept <:+ messages
  fits : estimateMessagesTokens kept ≤ budget
  longest : ∀ other, other <:+ messages → estimateMessagesTokens other ≤ budget → other <:+ kept

theorem newestFit_keepNewest (budget : Nat) (older kept : List AgentMessage)
    (h : estimateMessagesTokens kept ≤ budget) :
    NewestFit budget (older.reverse ++ kept)
      (keepNewest budget (estimateMessagesTokens kept) older kept) := by
  induction older generalizing kept with
  | nil => exact ⟨suffix_refl kept, h, fun _ hother _ => hother⟩
  | cons message older ih =>
    have htotal : estimateMessagesTokens (message :: kept) =
        estimateMessagesTokens kept + estimateTokens message := Nat.add_comm _ _
    rw [reverse_cons, append_assoc, singleton_append, keepNewest, ← htotal]
    split
    · rename_i hover
      refine ⟨(suffix_cons message kept).trans (suffix_append _ _), h, fun other hother hfits => ?_⟩
      rcases suffix_or_suffix_of_suffix hother (suffix_append _ (message :: kept)) with hin | hout
      · rcases suffix_cons_iff.mp hin with rfl | hin
        · omega
        · exact hin
      · obtain ⟨front, rfl⟩ := hout
        rw [estimateMessagesTokens, map_append, sum_append, ← estimateMessagesTokens,
          ← estimateMessagesTokens] at hfits
        omega
    · exact ih (message :: kept) (by omega)

/-- Behind the notice stands the longest end of the messages that fits half of the window. -/
theorem emergencyTruncate_newest (messages : List AgentMessage) (contextWindowTokens : Nat)
    (now : Instant) : ∃ kept, emergencyTruncate messages contextWindowTokens now =
        emergencyTruncate [] contextWindowTokens now ++ kept ∧
      NewestFit (contextWindowTokens / 2) messages kept := by
  have hfit := newestFit_keepNewest (contextWindowTokens / 2) messages.reverse [] (Nat.zero_le _)
  rw [reverse_reverse, append_nil] at hfit
  exact ⟨_, rfl, hfit⟩

end CrabbyKit.Compaction
