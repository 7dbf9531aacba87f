import CrabbyKit.Session.Context
import CrabbyKit.Spine.Host

/-!
# The compaction checkpoint of a session

`spineGetCompactionCheckpoint` scans all entries of a session, `buildContext` only those on the
path to its leaf. They name one compaction unless an abandoned branch has the newest one.
-/

namespace CrabbyKit.SessionStore

variable {st : SessionStore} {sessionId : String}

/-- The payload of the compaction entry that `buildContext` cuts the path to the leaf at. -/
def contextCompaction (st : SessionStore) (sessionId : String) : Option CompactionEntryData :=
  (st.activePath sessionId).bind fun path => (findCompaction path path.length).map Prod.snd

/-- A compaction entry of the session with the greatest `seq` of them all. -/
structure NewestCompaction (st : SessionStore) (sessionId : String) (e : SessionEntry)
    (data : CompactionEntryData) : Prop where
  mem : e ∈ st.getEntries sessionId
  payload : e.compaction = some data
  newest : ∀ c ∈ st.getEntries sessionId, c.compaction.isSome = true → c.seq ≤ e.seq

/-- The newest compaction of the session, if it lies off the path to the leaf, repeats the
payload of the one that applies there. -/
def NewestApplies (st : SessionStore) (sessionId : String) : Prop :=
  ∀ e data, st.NewestCompaction sessionId e data → e ∉ st.path sessionId →
    st.contextCompaction sessionId = some data

theorem WellFormed.contextCompaction_eq (h : st.WellFormed) (sessionId : String) :
    st.contextCompaction sessionId = (latestCompaction (st.path sessionId)).map Prod.fst := by
  unfold contextCompaction
  rw [h.activePath_eq, Option.bind_some, findCompaction_eq, Option.map_map]
  rfl

theorem latestCompaction_eq_none {entries : List SessionEntry} :
    latestCompaction entries = none ↔ ∀ e ∈ entries, e.compaction = none := by
  induction entries with
  | nil => simp [latestCompaction]
  | cons e rest ih =>
    rw [latestCompaction, List.forall_mem_cons, ← ih]
    cases latestCompaction rest with
    | none => simp
    | some found => simp

/-- Of entries in the order of their `seq`, the latest compaction is the newest. -/
theorem latestCompaction_newest {entries later : List SessionEntry} {data : CompactionEntryData}
    (hordered : entries.Pairwise fun a b => a.seq < b.seq)
    (h : latestCompaction entries = some (data, later)) :
    ∃ e ∈ entries, e.compaction = some data ∧
      ∀ c ∈ entries, c.compaction.isSome = true → c.seq ≤ e.seq := by
  obtain ⟨older, e, rfl, hdata, hlater⟩ := latestCompaction_split h
  refine ⟨e, by simp, hdata, fun c hc hsome => ?_⟩
  have hbefore := (List.pairwise_append.mp hordered).2.2
  rcases List.mem_append.mp hc with hc | hc
  · exact (hbefore c hc e List.mem_cons_self).le
  · rcases List.mem_cons.mp hc with rfl | hc
    · exact le_refl _
    · -- nothing after the latest compaction is one
      rw [latestCompaction_eq_none.mp hlater c hc] at hsome
      cases hsome

/-- Entries of a session with one `seq` are one entry. -/
theorem WellFormed.eq_of_seq (h : st.WellFormed) {a b : SessionEntry}
    (ha : a ∈ st.getEntries sessionId) (hb : b ∈ st.getEntries sessionId) (heq : a.seq = b.seq) :
    a = b := by
  have hseqs : ((st.getEntries sessionId).map SessionEntry.seq).Nodup :=
    List.pairwise_map.mpr ((h.getEntries_ordered sessionId).imp fun hlt => hlt.ne)
  exact Table.eq_of_key hseqs ha hb heq

theorem WellFormed.contextCompaction_of_mem (h : st.WellFormed) {e : SessionEntry}
    {data : CompactionEntryData} (hnewest : st.NewestCompaction sessionId e data)
    (hpath : e ∈ st.path sessionId) : st.contextCompaction sessionId = some data := by
  rw [h.contextCompaction_eq]
  cases hlatest : latestCompaction (st.path sessionId) with
  | none =>
    have hnone := latestCompaction_eq_none.mp hlatest e hpath
    rw [hnewest.payload] at hnone
    cases hnone
  | some found =>
    obtain ⟨c, hc, hdata, hle⟩ := latestCompaction_newest (h.path_seq sessionId) hlatest
    have hmem : c ∈ st.getEntries sessionId := mem_getEntries.mpr (h.mem_path hc)
    have habove := hle e hpath (by rw [hnewest.payload]; rfl)
    have hbelow := hnewest.newest c hmem (by rw [hdata]; rfl)
    have hsame : c = e := by
      apply h.eq_of_seq hmem hnewest.mem
      omega
    rw [hsame, hnewest.payload] at hdata
    rw [Option.map_some, hdata]

theorem WellFormed.latestCompaction_iff (h : st.WellFormed) (sessionId : String) :
    (latestCompaction (st.getEntries sessionId)).map Prod.fst = st.contextCompaction sessionId ↔
      st.NewestApplies sessionId := by
  have hpath : ∀ e ∈ st.path sessionId, e ∈ st.getEntries sessionId :=
    fun e he => mem_getEntries.mpr (h.mem_path he)
  cases hlatest : latestCompaction (st.getEntries sessionId) with
  | none =>
    have hnone := latestCompaction_eq_none.mp hlatest
    refine iff_of_true ?_ fun e data hnewest _ => ?_
    · rw [h.contextCompaction_eq, latestCompaction_eq_none.mpr fun e he => hnone e (hpath e he)]
    · have hpayload := hnewest.payload
      rw [hnone e hnewest.mem] at hpayload
      cases hpayload
  | some found =>
    obtain ⟨e, he, hdata, hle⟩ := latestCompaction_newest (h.getEntries_ordered sessionId) hlatest
    have hnewest : st.NewestCompaction sessionId e found.1 := ⟨he, hdata, hle⟩
    rw [Option.map_some]
    constructor
    · intro heq c data hc hoff
      have habove := hle c hc.mem (by rw [hc.payload]; rfl)
      have hbelow := hc.newest e he (by rw [hdata]; rfl)
      have hsame : c = e := by
        apply h.eq_of_seq hc.mem he
        omega
      rw [← heq, ← hdata, ← hc.payload, hsame]
    · intro happlies
      by_cases hon : e ∈ st.path sessionId
      · exact (h.contextCompaction_of_mem hnewest hon).symm
      · exact (happlies e found.1 hnewest hon).symm

end CrabbyKit.SessionStore

namespace CrabbyKit.Spine

open SessionStore

theorem lastCompaction_eq (entries : List SessionEntry) :
    lastCompaction entries = (latestCompaction entries).map Prod.fst := by
  induction entries with
  | nil => rfl
  | cons e rest ih =>
    unfold lastCompaction at ih ⊢
    rw [List.reverse_cons, List.findSome?_append, ih, latestCompaction]
    cases latestCompaction rest with
    | some found => rfl
    | none =>
      unfold SessionEntry.compaction
      cases hdata : e.data with
      | _ => simp [hdata]

section Checkpoint

variable {H : Type} (rt : SpineRuntime H) (caller : SpineCaller) (s : rt.State)

/-- Whatever the checkpoint call returns is the compaction that `buildContext` uses for the
session of the caller. -/
def CheckpointAgrees : Prop :=
  ∀ reply, (spineGetCompactionCheckpoint rt caller s).1 = .ok reply →
    reply = .checkpoint (s.sessionStore.store.contextCompaction caller.sessionId)

theorem checkpoint_returns (h : ¬ Exhausted rt s caller.nonce .sql) :
    (spineGetCompactionCheckpoint rt caller s).1 = .ok (.checkpoint
      ((latestCompaction (s.sessionStore.store.getEntries caller.sessionId)).map Prod.fst)) := by
  unfold spineGetCompactionCheckpoint withSpineBudget
  rw [if_neg h]
  simp only [lastCompaction_eq]
  rfl

/-- In every reachable store, the checkpoint is the compaction that the context uses exactly
when the call is over its budget or the newest compaction applies to the path. -/
theorem checkpoint_agrees_iff (calls : List StoreCall) (hfresh : Fresh calls)
    (hstore : s.sessionStore.store = SessionStore.run calls) :
    CheckpointAgrees rt caller s ↔
      Exhausted rt s caller.nonce .sql ∨
        (SessionStore.run calls).NewestApplies caller.sessionId := by
  unfold CheckpointAgrees
  by_cases hbudget : Exhausted rt s caller.nonce .sql
  · refine iff_of_true (fun reply hreply => ?_) (Or.inl hbudget)
    unfold spineGetCompactionCheckpoint withSpineBudget at hreply
    rw [if_pos hbudget] at hreply
    cases hreply
  · rw [checkpoint_returns rt caller s hbudget, hstore,
      ← (wellFormed_run hfresh).latestCompaction_iff caller.sessionId]
    constructor
    · intro h
      have hreply := h _ rfl
      rw [SpineReply.checkpoint.injEq] at hreply
      exact Or.inr hreply
    · rintro (hover | heq) reply hreply
      · exact absurd hover hbudget
      · rw [← heq]
        exact (Except.ok.inj hreply).symm

end Checkpoint

/-- A host with the default budget and no capabilities. -/
def plainHost : SpineRuntime Unit where
  spineBudget := {}
  capabilities := []
  nanoid n := String.ofList (List.replicate n 'a')
  nanoid_injective := ofList_replicate_injective

def hostWith (sessionStore : EntryStore plainHost.nanoid) : plainHost.State where
  sessionStore := sessionStore
  memory := ()
  kvStore := .empty
  transport := ⟨.initial, List.nodup_nil⟩
  counters _ _ := 0
  activeBundleVersionId := none
  resolvedFor := none

def compactedCalls : List StoreCall :=
  [⟨.create {}, "s", 0⟩, ⟨.appendEntry "s" (userEntry "one"), "a", 1⟩,
    ⟨.appendEntry "s" (.compaction ⟨"early", some "a", 10⟩), "aa", 2⟩]

/-- It goes back to before the compaction. -/
def leftCalls : List StoreCall := compactedCalls ++ [⟨.branch "s" "a", "b", 3⟩]

def compactedStore : EntryStore plainHost.nanoid := ⟨SessionStore.run compactedCalls, 3, by decide⟩

def leftStore : EntryStore plainHost.nanoid := ⟨SessionStore.run leftCalls, 3, by decide⟩

/-- In the compacted session the checkpoint is the compaction of the context. -/
theorem checkpoint_compacted :
    (SessionStore.run compactedCalls).NewestApplies "s" ∧
      (CheckpointAgrees plainHost ⟨"agent", some "s", "n"⟩ (hostWith compactedStore) ↔
        Exhausted plainHost (hostWith compactedStore) "n" .sql ∨
          (SessionStore.run compactedCalls).NewestApplies "s") := by
  have hfresh : Fresh compactedCalls := by decide
  refine ⟨((wellFormed_run hfresh).latestCompaction_iff "s").mp (by decide), ?_⟩
  exact checkpoint_agrees_iff plainHost ⟨"agent", some "s", "n"⟩ (hostWith compactedStore)
    compactedCalls hfresh rfl

/-- After going back the context uses no compaction, but the checkpoint is the one left
behind. -/
theorem checkpoint_left :
    Fresh leftCalls ∧ (SessionStore.run leftCalls).contextCompaction "s" = none ∧
      (spineGetCompactionCheckpoint plainHost ⟨"agent", some "s", "n"⟩ (hostWith leftStore)).1 =
        .ok (.checkpoint (some ⟨"early", some "a", 10⟩)) ∧
      ¬ CheckpointAgrees plainHost ⟨"agent", some "s", "n"⟩ (hostWith leftStore) := by
  have hnone : (SessionStore.run leftCalls).contextCompaction "s" = none := by decide
  have hreply : (spineGetCompactionCheckpoint plainHost ⟨"agent", some "s", "n"⟩
      (hostWith leftStore)).1 = .ok (.checkpoint (some ⟨"early", some "a", 10⟩)) := by rfl
  refine ⟨by decide, hnone, hreply, fun h => ?_⟩
  have hagrees := h _ hreply
  have hstore : (hostWith leftStore).sessionStore.store = SessionStore.run leftCalls := rfl
  have hsession : SpineCaller.sessionId ⟨"agent", some "s", "n"⟩ = "s" := rfl
  rw [hstore, hsession, hnone] at hagrees
  cases hagrees

end CrabbyKit.Spine
