import CrabbyKit.Session.Mode

/-!
# What a rebuilt context is

The context of a session is a function of its active path: the messages of the path,
cut at the latest compaction. The cut is described here by splitting the path, and the
index arithmetic of `buildContext` is shown to compute it.
-/

namespace CrabbyKit

open List Option

def SessionEntry.compaction (e : SessionEntry) : Option CompactionEntryData :=
  match e.data with
  | .compaction d => some d
  | _ => none

def SessionEntry.recompact (g : CompactionEntryData → CompactionEntryData) (e : SessionEntry) :
    SessionEntry :=
  match e.data with
  | .compaction d => { e with data := .compaction (g d) }
  | _ => e

namespace SessionStore

variable {st st' : SessionStore} {sessionId : String} {now : Instant}

/-- The latest compaction of a root-to-leaf path and the entries after it. -/
def latestCompaction :
    List SessionEntry → Option (CompactionEntryData × List SessionEntry)
  | [] => none
  | e :: rest =>
    match latestCompaction rest with
    | some found => some found
    | none => e.compaction.map fun d => (d, rest)

def fromEntry (id : Option String) : List SessionEntry → Option (List SessionEntry)
  | [] => none
  | e :: rest => if some e.id = id then some (e :: rest) else fromEntry id rest

/-- The context messages of a stretch of path. -/
def messagesOf (now : Instant) (entries : List SessionEntry) : List AgentMessage :=
  entries.filterMap (toContextMessage now)

theorem messagesOf_append (now : Instant) (a b : List SessionEntry) :
    messagesOf now (a ++ b) = messagesOf now a ++ messagesOf now b :=
  filterMap_append

def summaryPart (d : CompactionEntryData) (now : Instant) : List AgentMessage :=
  if d.summary = "" then [] else [summaryMessage d.summary now]

/-- The entries a path contributes to the context: all of them without a compaction,
else those from the latest compaction's first kept entry on, or after the compaction
when the path does not meet that entry. -/
def contextEntries (path : List SessionEntry) : List SessionEntry :=
  match latestCompaction path with
  | none => path
  | some (d, later) => (fromEntry d.firstKeptEntryId path).getD later

/-- The context of a path: the summary of its latest compaction, then the messages of
the entries the path contributes. -/
def contextSpec (path : List SessionEntry) (now : Instant) : List AgentMessage :=
  match latestCompaction path with
  | none => messagesOf now path
  | some (d, _) => summaryPart d now ++ messagesOf now (contextEntries path)

theorem findCompaction_append (p q : List SessionEntry) {i : Nat} (hi : i ≤ p.length) :
    findCompaction (p ++ q) i = findCompaction p i := by
  induction i with
  | zero => rfl
  | succ i ih =>
    have hlt : i < p.length := by omega
    have hget : (p ++ q)[i]? = p[i]? := getElem?_append_left hlt
    have hrest := ih (by omega)
    unfold findCompaction
    rw [hget, hrest]

theorem findCompaction_snoc (p : List SessionEntry) (e : SessionEntry) :
    findCompaction (p ++ [e]) (p ++ [e]).length = match e.compaction with
      | some d => some (p.length, d)
      | none => findCompaction p p.length := by
  have hlen : (p ++ [e]).length = p.length + 1 := by simp
  have hget : (p ++ [e])[p.length]? = some e := by simp
  have hrest := findCompaction_append p [e] (le_refl p.length)
  rw [hlen, findCompaction, hget, hrest, map_some, SessionEntry.compaction]
  cases e.data with
  | compaction d => rfl
  | _ => rfl

theorem latestCompaction_snoc (p : List SessionEntry) (e : SessionEntry) :
    latestCompaction (p ++ [e]) = match e.compaction with
      | some d => some (d, [])
      | none => (latestCompaction p).map fun found => (found.1, found.2 ++ [e]) := by
  induction p with
  | nil =>
    rw [nil_append, latestCompaction, latestCompaction]
    cases e.compaction with
    | some d => rfl
    | none => rfl
  | cons q p ih =>
    rw [cons_append, latestCompaction, latestCompaction, ih]
    cases e.compaction with
    | some d => rfl
    | none =>
      cases latestCompaction p with
      | some found => rfl
      | none =>
        cases q.compaction with
        | some d => rfl
        | none => rfl

theorem latestCompaction_split {path later : List SessionEntry} {d : CompactionEntryData}
    (h : latestCompaction path = some (d, later)) :
    ∃ older c, path = older ++ c :: later ∧ c.compaction = some d ∧
      latestCompaction later = none := by
  induction path with
  | nil => cases h
  | cons e rest ih =>
    rw [latestCompaction] at h
    cases hr : latestCompaction rest with
    | some found =>
      rw [hr] at h
      obtain ⟨older, c, rfl, hc, hl⟩ := ih (hr.trans h)
      exact ⟨e :: older, c, rfl, hc, hl⟩
    | none =>
      rw [hr] at h
      obtain ⟨d', hd, heq⟩ := map_eq_some_iff.mp h
      cases heq
      exact ⟨[], e, rfl, hd, hr⟩

theorem findCompaction_eq (path : List SessionEntry) :
    findCompaction path path.length =
      (latestCompaction path).map fun found => (path.length - (found.2.length + 1), found.1) := by
  induction path using List.reverseRecOn with
  | nil => rfl
  | append_singleton p e ih =>
    rw [findCompaction_snoc, latestCompaction_snoc, ih]
    cases e.compaction with
    | some d => simp
    | none =>
      rw [Option.map_map]
      refine Option.map_congr fun found _ => ?_
      simp only [Function.comp_apply, length_append, length_singleton, Prod.mk.injEq, and_true]
      omega

theorem fromEntry_eq (id : Option String) (path : List SessionEntry) :
    fromEntry id path = (path.findIdx? fun e => some e.id = id).map fun i => path.drop i := by
  induction path with
  | nil => rfl
  | cons e rest ih =>
    rw [fromEntry, findIdx?_cons]
    by_cases he : some e.id = id
    · simp [he]
    · simp only [he, if_false, decide_false, Bool.false_eq_true, ih, Option.map_map]
      rfl

theorem contextOfPath_eq (path : List SessionEntry) (now : Instant) :
    contextOfPath path now = contextSpec path now := by
  unfold contextOfPath compactionBoundary contextSpec contextEntries
  rw [findCompaction_eq]
  cases hl : latestCompaction path with
  | none => rfl
  | some found =>
    obtain ⟨d, later⟩ := found
    obtain ⟨older, c, hpath, -, -⟩ := latestCompaction_split hl
    have hdrop : path.drop (path.length - (later.length + 1) + 1) = later := by
      have hlen : path.length - (later.length + 1) + 1 = (older ++ [c]).length := by
        rw [hpath]
        simp
      have happ : path = (older ++ [c]) ++ later := by
        rw [hpath]
        simp
      rw [hlen, happ, drop_left]
    have hkept : path.drop ((path.findIdx? fun e => some e.id = d.firstKeptEntryId).getD
        (path.length - (later.length + 1) + 1)) =
          (fromEntry d.firstKeptEntryId path).getD later := by
      rw [fromEntry_eq]
      cases path.findIdx? fun e => some e.id = d.firstKeptEntryId with
      | none => exact hdrop
      | some i => rfl
    simp only [map_some, hkept, messagesOf, summaryPart, truthy]
    by_cases hs : d.summary = ""
    · simp [hs]
    · simp [hs]

theorem WellFormed.buildContext_spec (h : st.WellFormed) (sessionId : String) (now : Instant) :
    st.buildContext sessionId now = .ok (contextSpec (st.path sessionId) now) := by
  rw [h.buildContext_eq, contextOfPath_eq]

@[simp] theorem recompact_id (g : CompactionEntryData → CompactionEntryData) (e : SessionEntry) :
    (e.recompact g).id = e.id := by
  unfold SessionEntry.recompact
  cases e.data with
  | _ => rfl

theorem messagesOf_recompact (now : Instant) (g : CompactionEntryData → CompactionEntryData)
    (entries : List SessionEntry) :
    messagesOf now (entries.map (SessionEntry.recompact g)) = messagesOf now entries := by
  unfold messagesOf
  rw [filterMap_map]
  refine filterMap_congr fun e _ => ?_
  simp only [Function.comp_apply, toContextMessage, SessionEntry.recompact]
  cases hd : e.data with
  | _ => simp [hd]

theorem latestCompaction_append {older tail : List SessionEntry}
    (h : latestCompaction tail ≠ none) :
    latestCompaction (older ++ tail) = latestCompaction tail := by
  obtain ⟨found, hf⟩ := ne_none_iff_exists'.mp h
  induction older with
  | nil => rfl
  | cons e older ih => rw [cons_append, latestCompaction, ih, hf]

theorem messagesOf_fromEntry_recompact (now : Instant)
    (g : CompactionEntryData → CompactionEntryData)
    (id : Option String) (older tail : List SessionEntry) :
    (fromEntry id (older.map (SessionEntry.recompact g) ++ tail)).map (messagesOf now) =
      (fromEntry id (older ++ tail)).map (messagesOf now) := by
  induction older with
  | nil => rfl
  | cons e older ih =>
    simp only [map_cons, cons_append, fromEntry, recompact_id]
    by_cases he : some e.id = id
    · have hm := messagesOf_recompact now g (e :: older)
      simp only [he, if_true, map_some, ← cons_append, ← map_cons]
      rw [messagesOf_append, messagesOf_append, hm]
    · simp only [he, if_false, ih]

theorem contextSpec_recompact (g : CompactionEntryData → CompactionEntryData)
    (older tail : List SessionEntry) (h : latestCompaction tail ≠ none) :
    contextSpec (older.map (SessionEntry.recompact g) ++ tail) now =
      contextSpec (older ++ tail) now := by
  unfold contextSpec contextEntries
  rw [latestCompaction_append h, latestCompaction_append h]
  cases hf : latestCompaction tail with
  | none => exact absurd hf h
  | some found =>
    have hm := messagesOf_fromEntry_recompact now g found.1.firstKeptEntryId older tail
    have hget : ∀ o : Option (List SessionEntry),
        messagesOf now (o.getD found.2) =
          (o.map (messagesOf now)).getD (messagesOf now found.2) := by
      intro o
      cases o with
      | none => rfl
      | some l => rfl
    simp only [hget, hm]

/-- In every reachable store the context of a session is the specified one of its active
path; stores that agree on the active path agree on the context, a collection run first
changes nothing, and compactions before a later one have no effect. -/
theorem buildContext_run (calls : List StoreCall) (h : Fresh calls) (sessionId : String)
    (now : Instant) :
    (run calls).buildContext sessionId now = .ok (contextSpec ((run calls).path sessionId) now) ∧
      (∀ calls', Fresh calls' → (run calls').path sessionId = (run calls).path sessionId →
        (run calls').buildContext sessionId now = (run calls).buildContext sessionId now) ∧
      (∀ collected st' n, (run calls).gc collected = .ok (st', n) →
        st'.buildContext sessionId now = (run calls).buildContext sessionId now) ∧
      ∀ g older tail, (run calls).path sessionId = older ++ tail → latestCompaction tail ≠ none →
        (run calls).buildContext sessionId now =
          .ok (contextSpec (older.map (SessionEntry.recompact g) ++ tail) now) := by
  have hw := wellFormed_run h
  have hspec := hw.buildContext_spec sessionId now
  refine ⟨hspec, ?_, ?_, ?_⟩
  · intro calls' h' hpath
    rw [hspec, (wellFormed_run h').buildContext_spec, hpath]
  · intro collected st' n hg
    rw [hspec, (hw.gc hg).buildContext_spec, hw.path_gc hg]
  · intro g older tail hpath hc
    rw [hspec, hpath, contextSpec_recompact g older tail hc]

/-- A run whose second compaction keeps a message of the path. -/
def twiceCompactedCalls : List StoreCall :=
  [⟨.create {}, "s", 0⟩, ⟨.appendEntry "s" (userEntry "one"), "a", 1⟩,
    ⟨.appendEntry "s" (.compaction ⟨"early", some "a", 10⟩), "b", 2⟩,
    ⟨.appendEntry "s" (userEntry "two"), "c", 3⟩,
    ⟨.appendEntry "s" (.compaction ⟨"late", some "c", 10⟩), "d", 4⟩]

/-- Its context is the second summary and the kept message. -/
theorem buildContext_run_twiceCompacted :
    (run twiceCompactedCalls).buildContext "s" 9 =
        .ok [summaryMessage "late" 9, { role := .user, content := .plain "two", timestamp := 9 }] ∧
      (run twiceCompactedCalls).buildContext "s" 9 =
        .ok (contextSpec ((run twiceCompactedCalls).path "s") 9) :=
  ⟨by decide, (buildContext_run twiceCompactedCalls (by decide) "s" 9).1⟩

/-- The context in which every latest compaction, whatever its text, contributes its
summary message. -/
def alwaysSummarised (path : List SessionEntry) (now : Instant) : List AgentMessage :=
  match latestCompaction path with
  | none => messagesOf now path
  | some (d, _) => summaryMessage d.summary now :: messagesOf now (contextEntries path)

def emptySummaryCalls : List StoreCall :=
  [⟨.create {}, "s", 0⟩, ⟨.appendEntry "s" (userEntry "one"), "a", 1⟩,
    ⟨.appendEntry "s" (.compaction ⟨"", some "a", 10⟩), "b", 2⟩]

/-- An empty summary contributes no message. -/
theorem buildContext_ne_alwaysSummarised :
    Fresh emptySummaryCalls ∧
      (run emptySummaryCalls).buildContext "s" 9 ≠
        .ok (alwaysSummarised ((run emptySummaryCalls).path "s") 9) := by
  decide

end SessionStore

end CrabbyKit
