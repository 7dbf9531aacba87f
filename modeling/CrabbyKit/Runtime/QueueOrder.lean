import CrabbyKit.Core.Run
import CrabbyKit.Runtime.Queue

/-!
# Actions and order of the message queue

The `queue` branch of `handleCapabilityAction` in `agent-runtime.ts`, which finds a row by its
id alone, and the order in which the rows of a session come out. Rows of one tick come in the
order of the index on `(session_id, created_at)`, which holds them as they were inserted.
-/

namespace CrabbyKit

open List

inductive QueueAction
  | message (text : String)
  | delete (queueId : String)
  | steer (queueId : String)
  deriving DecidableEq, Repr

/-- What an action hands to its session: a text to prompt with, or a queued message to steer
in. -/
inductive QueueDelivery
  | prompt (text : String)
  | steer (item : QueuedMessage)
  deriving DecidableEq, Repr

namespace QueueStore

/-- `handleCapabilityAction` for the queue: the store after it, and what the session it is
addressed to is handed. -/
def handleQueueAction (sessionId : String) (isStreaming : Bool) (action : QueueAction)
    (nanoid : String) (now : Instant) (q : QueueStore) :
    QueueStore × Except String (Option QueueDelivery) :=
  match action with
  | .message text =>
    if isStreaming then
      match q.enqueue sessionId text nanoid now with
      | .ok q' => (q', .ok none)
      | .error e => (q, .error e)
    else (q, .ok (some (.prompt text)))
  | .delete queueId => (q.delete queueId, .ok none)
  | .steer queueId =>
    match q.get queueId with
    | none => (q, .ok none)
    | some queueItem => (q.delete queueId, .ok (some (.steer queueItem)))

def rowsOf (q : QueueStore) (sessionId : String) : List QueuedMessage :=
  q.rows.filter fun m => m.sessionId = sessionId

/-- An action keeps to its session: the rows of all others stay, and none of their messages is
steered in. -/
def KeepsTo (q : QueueStore) (sessionId : String) (isStreaming : Bool) (action : QueueAction)
    (nanoid : String) (now : Instant) : Prop :=
  (∀ other, other ≠ sessionId →
      (q.handleQueueAction sessionId isStreaming action nanoid now).1.rowsOf other =
        q.rowsOf other) ∧
    ∀ item, (q.handleQueueAction sessionId isStreaming action nanoid now).2 =
      .ok (some (.steer item)) → item.sessionId = sessionId

def NamesOwn (q : QueueStore) (sessionId : String) : QueueAction → Prop
  | .message _ => True
  | .delete queueId => ∀ m ∈ q.rows, m.id = queueId → m.sessionId = sessionId
  | .steer queueId => ∀ m ∈ q.rows, m.id = queueId → m.sessionId = sessionId

section Actions

variable {q : QueueStore} {sessionId : String} {queueId : String}

theorem rowsOf_delete_iff :
    (∀ other, other ≠ sessionId → (q.delete queueId).rowsOf other = q.rowsOf other) ↔
      ∀ m ∈ q.rows, m.id = queueId → m.sessionId = sessionId := by
  constructor
  · intro h m hm hid
    by_contra hother
    have hmem : m ∈ q.rowsOf m.sessionId := by
      unfold rowsOf
      simp [hm]
    rw [← h m.sessionId hother] at hmem
    unfold rowsOf delete at hmem
    simp [hid] at hmem
  · intro h other hother
    unfold rowsOf delete
    rw [filter_filter]
    refine filter_congr fun m hm => ?_
    by_cases hid : m.id = queueId
    · have hne : m.sessionId ≠ other := by
        rw [h m hm hid]
        exact hother.symm
      simp [hne]
    · simp [hid]

theorem rowsOf_enqueue {q' : QueueStore} {text nanoid : String} {now : Instant}
    (h : q.enqueue sessionId text nanoid now = .ok q') (other : String) :
    q'.rowsOf other = q.rowsOf other ++
      if sessionId = other then [⟨nanoid, sessionId, text, now⟩] else [] := by
  unfold enqueue at h
  split_ifs at h
  cases h
  unfold rowsOf
  rw [filter_append]
  congr 1
  by_cases hsame : sessionId = other
  · simp [hsame]
  · simp [hsame]

theorem keepsTo_message (q : QueueStore) (sessionId : String) (isStreaming : Bool)
    (text nanoid : String) (now : Instant) :
    q.KeepsTo sessionId isStreaming (.message text) nanoid now := by
  unfold KeepsTo handleQueueAction
  cases isStreaming with
  | false =>
    refine ⟨fun other _ => rfl, fun item hitem => ?_⟩
    cases hitem
  | true =>
    simp only [if_true]
    cases henqueue : q.enqueue sessionId text nanoid now with
    | error e =>
      refine ⟨fun other _ => rfl, fun item hitem => ?_⟩
      cases hitem
    | ok q' =>
      refine ⟨fun other hother => ?_, fun item hitem => ?_⟩
      · rw [rowsOf_enqueue henqueue, if_neg hother.symm, append_nil]
      · cases hitem

theorem keepsTo_iff (q : QueueStore) (sessionId : String) (isStreaming : Bool)
    (action : QueueAction) (nanoid : String) (now : Instant) :
    q.KeepsTo sessionId isStreaming action nanoid now ↔ q.NamesOwn sessionId action := by
  cases action with
  | message text =>
    exact iff_of_true (keepsTo_message q sessionId isStreaming text nanoid now) trivial
  | delete queueId =>
    unfold KeepsTo handleQueueAction NamesOwn
    rw [rowsOf_delete_iff]
    refine and_iff_left fun item hitem => ?_
    cases hitem
  | steer queueId =>
    unfold KeepsTo NamesOwn
    cases hget : q.get queueId with
    | none =>
      have hnone := Table.lookup_eq_none.mp hget
      simp only [handleQueueAction, hget]
      refine iff_of_true ⟨fun other _ => trivial, fun item hitem => ?_⟩ ?_
      · cases hitem
      · exact fun m hm hid => absurd hid (hnone m hm)
    | some queueItem =>
      simp only [handleQueueAction, hget]
      rw [rowsOf_delete_iff]
      refine and_iff_left_of_imp fun h item hitem => ?_
      cases hitem
      obtain ⟨hmem, hid⟩ := Table.mem_of_lookup hget
      exact h queueItem hmem hid

end Actions

/-- An operation on the queue of some session. -/
inductive QueueOp
  | enqueue (sessionId text nanoid : String) (now : Instant)
  | dequeue (sessionId : String)
  deriving DecidableEq, Repr

/-- A queue with the record of what was put in and what came out. -/
structure Recorded where
  store : QueueStore
  putIn : List QueuedMessage
  out : List QueuedMessage := []
  deriving DecidableEq, Repr

def record (q : QueueStore) : Recorded := { store := q, putIn := q.rows }

namespace Recorded

/-- The state after an operation; an insertion that throws puts nothing in. -/
def step (s : Recorded) : QueueOp → Recorded
  | .enqueue sessionId text nanoid now =>
    match s.store.enqueue sessionId text nanoid now with
    | .error _ => s
    | .ok store => { s with store := store, putIn := s.putIn ++ [⟨nanoid, sessionId, text, now⟩] }
  | .dequeue sessionId =>
    { s with
      store := (s.store.dequeue sessionId).1
      out := s.out ++ (s.store.dequeue sessionId).2.toList }

/-- The messages of every session came out in the order they were put in; the others wait in
that order. -/
def InOrder (s : Recorded) : Prop :=
  ∀ sessionId, (s.out.filter fun m => m.sessionId = sessionId) ++ s.store.rowsOf sessionId =
    s.putIn.filter fun m => m.sessionId = sessionId

end Recorded

/-- No waiting message of a session is older than the one put in first. -/
def FirstIsOldest (q : QueueStore) (sessionId : String) : Prop :=
  ∀ first rest, q.rowsOf sessionId = first :: rest → ∀ m ∈ rest, first.createdAt ≤ m.createdAt

/-- An operation takes from no session whose first message is not its oldest. -/
def TakesOldest (s : Recorded) : QueueOp → Prop
  | .enqueue _ _ _ _ => True
  | .dequeue sessionId => s.store.FirstIsOldest sessionId

section Order

variable {q : QueueStore} {sessionId : String}

theorem dequeue_head_iff :
    (q.dequeue sessionId).2 = (q.rowsOf sessionId).head? ↔ q.FirstIsOldest sessionId := by
  have hrows : q.rows.filter (fun m => m.sessionId = sessionId) = q.rowsOf sessionId := rfl
  unfold FirstIsOldest dequeue list
  rw [hrows]
  cases q.rowsOf sessionId with
  | nil => simp
  | cons first rest =>
    generalize hsorted : (first :: rest).insertionSort (fun a b => a.createdAt ≤ b.createdAt) = l
    have hmem : ∀ m, m ∈ l ↔ m ∈ first :: rest := by
      intro m
      rw [← hsorted, mem_insertionSort]
    constructor
    · intro htaken first' rest' heq m hm
      obtain ⟨rfl, rfl⟩ := List.cons.inj heq
      cases l with
      | nil => cases htaken
      | cons item others =>
        obtain rfl : item = first := Option.some.inj htaken
        have hle := pairwise_insertionSort
          (fun a b : QueuedMessage => a.createdAt ≤ b.createdAt) (item :: rest)
        rw [hsorted, pairwise_cons] at hle
        rcases mem_cons.mp ((hmem m).mpr (mem_cons_of_mem _ hm)) with rfl | hother
        · exact le_refl _
        · exact hle.1 m hother
    · intro h
      rw [insertionSort_cons_of_forall_rel _ (h first rest rfl)] at hsorted
      rw [← hsorted]
      rfl

theorem dequeue_some {item : QueuedMessage} (h : (q.dequeue sessionId).2 = some item) :
    item ∈ q.rowsOf sessionId ∧ (q.dequeue sessionId).1 = q.delete item.id := by
  have hperm := list_perm q sessionId
  unfold dequeue at h ⊢
  cases hlist : q.list sessionId with
  | nil =>
    rw [hlist] at h
    cases h
  | cons first rest =>
    rw [hlist] at h hperm
    obtain rfl := Option.some.inj h
    exact ⟨hperm.mem_iff.mp mem_cons_self, rfl⟩

theorem rowsOf_of_dequeue_none (h : (q.dequeue sessionId).2 = none) :
    (q.dequeue sessionId).1 = q ∧ q.rowsOf sessionId = [] := by
  obtain ⟨hsame, htexts⟩ := texts_of_dequeue_none h
  rw [hsame]
  refine ⟨rfl, perm_nil.mp ?_⟩
  have hlist : q.list sessionId = [] := map_eq_nil_iff.mp htexts
  rw [← hlist]
  exact (list_perm q sessionId).symm

theorem Keyed.rowsOf_delete (hq : q.Keyed) {item : QueuedMessage}
    (hitem : item ∈ q.rowsOf sessionId) {other : String} (hother : other ≠ sessionId) :
    (q.delete item.id).rowsOf other = q.rowsOf other := by
  obtain ⟨hmem, hsession⟩ := mem_filter.mp hitem
  refine rowsOf_delete_iff.mpr (fun m hm hid => ?_) other hother
  rw [Table.eq_of_key hq hm hmem hid]
  exact of_decide_eq_true hsession

theorem Keyed.rowsOf_delete_first (hq : q.Keyed) {first : QueuedMessage}
    {rest : List QueuedMessage} (hrows : q.rowsOf sessionId = first :: rest) :
    (q.delete first.id).rowsOf sessionId = rest := by
  have hids : ((first :: rest).map QueuedMessage.id).Nodup := by
    rw [← hrows]
    exact hq.sublist (filter_sublist.map _)
  rw [map_cons, nodup_cons, mem_map, not_exists] at hids
  have hdelete : (q.delete first.id).rowsOf sessionId =
      (q.rowsOf sessionId).filter fun m => m.id ≠ first.id := by
    unfold rowsOf delete
    rw [filter_comm]
  rw [hdelete, hrows, filter_cons_of_neg (by simp), List.filter_eq_self]
  intro m hm
  have hne : m.id ≠ first.id := fun heq => hids.1 m ⟨hm, heq⟩
  simp [hne]

end Order

namespace Recorded

variable {s : Recorded}

theorem step_keyed (h : s.store.Keyed) (op : QueueOp) : (s.step op).store.Keyed := by
  cases op with
  | enqueue sessionId text nanoid now =>
    cases henqueue : s.store.enqueue sessionId text nanoid now with
    | error e =>
      simp only [step, henqueue]
      exact h
    | ok store =>
      simp only [step, henqueue]
      exact h.enqueue henqueue
  | dequeue sessionId => exact h.dequeue sessionId

theorem enqueue_inOrder (h : s.InOrder) (sessionId text nanoid : String) (now : Instant) :
    (s.step (.enqueue sessionId text nanoid now)).InOrder := by
  cases henqueue : s.store.enqueue sessionId text nanoid now with
  | error e =>
    simp only [step, henqueue]
    exact h
  | ok store =>
    intro other
    simp only [step, henqueue]
    rw [rowsOf_enqueue henqueue, filter_append, ← h other, append_assoc]
    congr 2
    by_cases hsame : sessionId = other
    · simp [hsame]
    · simp [hsame]

theorem dequeue_inOrder_iff (hq : s.store.Keyed) (h : s.InOrder) (sessionId : String) :
    (s.step (.dequeue sessionId)).InOrder ↔
      (s.store.dequeue sessionId).2 = (s.store.rowsOf sessionId).head? := by
  unfold step InOrder
  cases htaken : (s.store.dequeue sessionId).2 with
  | none =>
    obtain ⟨hsame, hempty⟩ := rowsOf_of_dequeue_none htaken
    simp only [htaken, hsame, hempty, Option.toList_none, append_nil, head?_nil, iff_true]
    exact h
  | some item =>
    obtain ⟨hitem, hstore⟩ := dequeue_some htaken
    have hsession : item.sessionId = sessionId := of_decide_eq_true (mem_filter.mp hitem).2
    have hown := h sessionId
    simp only [htaken, hstore, Option.toList_some, filter_append]
    cases hrows : s.store.rowsOf sessionId with
    | nil =>
      rw [hrows] at hitem
      cases hitem
    | cons first rest =>
      rw [hrows] at hown
      constructor
      · intro hafter
        have hthis := hafter sessionId
        rw [← hown, append_assoc, append_cancel_left_eq] at hthis
        simp only [hsession, decide_true, filter_cons_of_pos, filter_nil,
          singleton_append, List.cons.injEq] at hthis
        rw [hthis.1]
        rfl
      · intro hhead
        obtain rfl : item = first := Option.some.inj hhead
        intro other
        by_cases hother : other = sessionId
        · subst hother
          rw [hq.rowsOf_delete_first hrows, ← hown]
          simp [hsession]
        · have hne : item.sessionId ≠ other := fun heq => hother (heq.symm.trans hsession)
          rw [hq.rowsOf_delete hitem hother, ← h other]
          simp [hne]

theorem step_inOrder_iff (hq : s.store.Keyed) (h : s.InOrder) (op : QueueOp) :
    (s.step op).InOrder ↔ TakesOldest s op := by
  cases op with
  | enqueue sessionId text nanoid now =>
    exact iff_of_true (enqueue_inOrder h sessionId text nanoid now) trivial
  | dequeue sessionId => exact (dequeue_inOrder_iff hq h sessionId).trans dequeue_head_iff

end Recorded

/-- An insertion comes no earlier than the rows that are there. -/
def NotBefore (s : Recorded) : QueueOp → Prop
  | .enqueue _ _ _ now => ∀ m ∈ s.store.rows, m.createdAt ≤ now
  | .dequeue _ => True

/-- The rows stand in the order of their times. -/
def Chronological (q : QueueStore) : Prop :=
  q.rows.Pairwise fun a b => a.createdAt ≤ b.createdAt

section Clock

variable {s : Recorded}

theorem Chronological.firstIsOldest {q : QueueStore} (h : q.Chronological) (sessionId : String) :
    q.FirstIsOldest sessionId := by
  intro first rest hrows
  have hown : (q.rowsOf sessionId).Pairwise fun a b => a.createdAt ≤ b.createdAt :=
    h.sublist filter_sublist
  rw [hrows] at hown
  exact (pairwise_cons.mp hown).1

theorem step_chronological (h : s.store.Chronological) {op : QueueOp} (hop : NotBefore s op) :
    (s.step op).store.Chronological := by
  cases op with
  | enqueue sessionId text nanoid now =>
    cases henqueue : s.store.enqueue sessionId text nanoid now with
    | error e =>
      simp only [Recorded.step, henqueue]
      exact h
    | ok store =>
      simp only [Recorded.step, henqueue]
      unfold enqueue at henqueue
      split_ifs at henqueue
      cases henqueue
      refine pairwise_append.mpr ⟨h, pairwise_singleton _ _, fun m hm new hnew => ?_⟩
      rw [mem_singleton.mp hnew]
      exact hop m hm
  | dequeue sessionId =>
    simp only [Recorded.step]
    cases htaken : (s.store.dequeue sessionId).2 with
    | none =>
      rw [(rowsOf_of_dequeue_none htaken).1]
      exact h
    | some item =>
      rw [(dequeue_some htaken).2]
      exact h.sublist filter_sublist

theorem takesOldest_of_notBefore (h : s.store.Chronological) {ops : List QueueOp}
    (hops : Run.Allowed NotBefore Recorded.step s ops) :
    Run.Allowed TakesOldest Recorded.step s ops := by
  intro before op after hsplit
  have hchronological : (Run.run Recorded.step s before).store.Chronological :=
    Run.invariant_of_allowed (I := fun s : Recorded => s.store.Chronological) h
      (fun _ _ hs hop => step_chronological hs hop) hops before (op :: after) hsplit
  cases op with
  | enqueue sessionId text nanoid now => trivial
  | dequeue sessionId => exact hchronological.firstIsOldest sessionId

end Clock

/-- An action keeps to its session exactly when the row it names does; messages come out in the
order they were put in exactly when the first is the oldest each time, which it always is under
a clock that never runs back. -/
theorem queue_isolated_and_ordered (q : QueueStore) (sessionId : String) (isStreaming : Bool)
    (action : QueueAction) (nanoid : String) (now : Instant) (ops : List QueueOp) :
    (q.KeepsTo sessionId isStreaming action nanoid now ↔ q.NamesOwn sessionId action) ∧
      (q.Keyed →
        ((∀ before after, ops = before ++ after →
            (Run.run Recorded.step q.record before).InOrder) ↔
          Run.Allowed TakesOldest Recorded.step q.record ops) ∧
        (q.Chronological → Run.Allowed NotBefore Recorded.step q.record ops →
          Run.Allowed TakesOldest Recorded.step q.record ops)) := by
  refine ⟨keepsTo_iff q sessionId isStreaming action nanoid now,
    fun hq => ⟨?_, fun h hops => takesOldest_of_notBefore h hops⟩⟩
  refine Run.always_iff_allowed (I := fun s => s.store.Keyed) hq ?_ ?_ ?_ ops
  · exact fun sessionId => rfl
  · exact fun _ op hs => Recorded.step_keyed hs op
  · exact fun _ op hs h => Recorded.step_inOrder_iff hs h op

def twoSessions : QueueStore := { rows := [⟨"q1", "A", "for A", 0⟩, ⟨"q2", "B", "for B", 0⟩] }

/-- Three messages of one tick come out in their order. -/
def oneTick : List QueueOp :=
  [.enqueue "A" "second" "q3" 0, .enqueue "A" "third" "q4" 0, .dequeue "A", .dequeue "A"]

theorem twoSessions_keyed : twoSessions.Keyed := by
  unfold Keyed
  decide

theorem twoSessions_chronological : twoSessions.Chronological := by
  unfold Chronological
  decide

theorem oneTick_notBefore : Run.Allowed NotBefore Recorded.step twoSessions.record oneTick := by
  refine Run.allowed_cons ?_ (Run.allowed_cons ?_ (Run.allowed_cons trivial
    (Run.allowed_cons trivial (Run.allowed_nil _ _ _))))
  · have htimes : ∀ m ∈ twoSessions.record.store.rows, m.createdAt ≤ 0 := by decide
    exact htimes
  · have htimes : ∀ m ∈ (twoSessions.record.step (.enqueue "A" "second" "q3" 0)).store.rows,
        m.createdAt ≤ 0 := by decide
    exact htimes

/-- Along them everything is in order. -/
theorem queue_oneTick :
    (Run.run Recorded.step twoSessions.record oneTick).out.map QueuedMessage.text =
        ["for A", "second"] ∧
      ∀ before after, oneTick = before ++ after →
        (Run.run Recorded.step twoSessions.record before).InOrder := by
  obtain ⟨horder, hclock⟩ := (queue_isolated_and_ordered twoSessions "A" true (.delete "q1") "q5" 0
    oneTick).2 twoSessions_keyed
  refine ⟨by decide, horder.mpr ?_⟩
  exact hclock twoSessions_chronological oneTick_notBefore

/-- Session `B` steers in the message of session `A`. -/
theorem steers_foreign :
    ¬ twoSessions.KeepsTo "B" true (.steer "q1") "q3" 1 ∧
      (twoSessions.handleQueueAction "B" true (.steer "q1") "q3" 1).2 =
        .ok (some (.steer ⟨"q1", "A", "for A", 0⟩)) ∧
      (twoSessions.handleQueueAction "B" true (.steer "q1") "q3" 1).1.rowsOf "A" = [] := by
  have hsteer : (twoSessions.handleQueueAction "B" true (.steer "q1") "q3" 1).2 =
      .ok (some (.steer ⟨"q1", "A", "for A", 0⟩)) := by rfl
  refine ⟨fun h => ?_, hsteer, by decide⟩
  exact absurd (h.2 _ hsteer) (by decide)

end QueueStore

end CrabbyKit
