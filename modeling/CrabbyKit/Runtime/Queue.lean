import CrabbyKit.Core.Table
import CrabbyKit.Session.Types

/-!
# The message queue

`QueueStore` of `queue/queue-store.ts` over its SQL table: the messages that arrive while
an agent is busy. The column `created_at` holds `toISOString` texts of four-digit years,
whose text order is the order of the instants they name.
-/

namespace CrabbyKit

open List

/-- A row of `message_queue`. -/
structure QueuedMessage where
  id : String
  sessionId : String
  text : String
  createdAt : Instant
  deriving DecidableEq, Repr

/-- The rows of `message_queue` in insertion order. -/
structure QueueStore where
  rows : List QueuedMessage := []
  deriving DecidableEq, Repr

namespace QueueStore

/-- `SELECT * FROM message_queue WHERE id = ? LIMIT 1`. -/
def get (q : QueueStore) (id : String) : Option QueuedMessage :=
  Table.lookup QueuedMessage.id q.rows id

/-- `SELECT * ... WHERE session_id = ? ORDER BY created_at ASC`. -/
def list (q : QueueStore) (sessionId : String) : List QueuedMessage :=
  (q.rows.filter fun m => m.sessionId = sessionId).insertionSort
    fun a b => a.createdAt ≤ b.createdAt

def enqueue (q : QueueStore) (sessionId text nanoid : String) (now : Instant) :
    Except String QueueStore :=
  if (q.get nanoid).isSome then .error "UNIQUE constraint failed: message_queue.id"
  else .ok { rows := q.rows ++ [⟨nanoid, sessionId, text, now⟩] }

def dequeue (q : QueueStore) (sessionId : String) : QueueStore × Option QueuedMessage :=
  match q.list sessionId with
  | [] => (q, none)
  | item :: _ => ({ rows := q.rows.filter fun m => m.id ≠ item.id }, some item)

/-- `DELETE FROM message_queue WHERE id = ?`. -/
def delete (q : QueueStore) (id : String) : QueueStore :=
  { rows := q.rows.filter fun m => m.id ≠ id }

/-- `DELETE FROM message_queue WHERE session_id = ?`. -/
def deleteAll (q : QueueStore) (sessionId : String) : QueueStore :=
  { rows := q.rows.filter fun m => m.sessionId ≠ sessionId }

def texts (q : QueueStore) (sessionId : String) : List String :=
  (q.list sessionId).map QueuedMessage.text

/-- Message ids are unique: the primary key of the table. -/
def Keyed (q : QueueStore) : Prop := (q.rows.map QueuedMessage.id).Nodup

variable {q q' : QueueStore} {sessionId text nanoid : String} {now : Instant}

theorem list_perm (q : QueueStore) (sessionId : String) :
    (q.list sessionId).Perm (q.rows.filter fun m => m.sessionId = sessionId) :=
  perm_insertionSort _ _

theorem texts_enqueue (h : q.enqueue sessionId text nanoid now = .ok q') :
    (q'.texts sessionId).Perm (text :: q.texts sessionId) := by
  unfold enqueue at h
  split_ifs at h
  cases h
  have hnew := (list_perm ⟨q.rows ++ [⟨nanoid, sessionId, text, now⟩]⟩ sessionId).map
    QueuedMessage.text
  have hold := (list_perm q sessionId).map QueuedMessage.text
  rw [filter_append, map_append] at hnew
  simp only [decide_true, filter_cons_of_pos, filter_nil, map_cons, map_nil] at hnew
  refine hnew.trans ((perm_append_singleton text _).trans ?_)
  exact hold.symm.cons text

theorem texts_of_dequeue_none (h : (q.dequeue sessionId).2 = none) :
    q.dequeue sessionId = (q, none) ∧ q.texts sessionId = [] := by
  unfold dequeue at h ⊢
  unfold texts
  cases hlist : q.list sessionId with
  | nil => exact ⟨rfl, rfl⟩
  | cons item rest =>
    rw [hlist] at h
    cases h

theorem Keyed.texts_dequeue (hq : q.Keyed) {item : QueuedMessage}
    (h : q.dequeue sessionId = (q', some item)) :
    (q.texts sessionId).Perm (item.text :: q'.texts sessionId) := by
  unfold dequeue at h
  unfold texts
  cases hlist : q.list sessionId with
  | nil =>
    rw [hlist] at h
    cases h
  | cons first rest =>
    rw [hlist] at h
    obtain ⟨rfl, hitem⟩ := Prod.mk.inj h
    obtain rfl := Option.some.inj hitem
    have hids : ((first :: rest).map QueuedMessage.id).Nodup := by
      rw [← hlist, ((list_perm q sessionId).map QueuedMessage.id).nodup_iff]
      exact hq.sublist (filter_sublist.map _)
    have hfirst := (nodup_cons.mp hids).1
    have hrest : (first :: rest).filter (fun m => m.id ≠ first.id) = rest := by
      rw [filter_cons_of_neg (by simp), List.filter_eq_self]
      intro m hm
      have hne : m.id ≠ first.id := fun heq => hfirst (heq ▸ mem_map_of_mem hm)
      simp [hne]
    have hnew := list_perm ⟨q.rows.filter fun m => m.id ≠ first.id⟩ sessionId
    have hold := (list_perm q sessionId).filter fun m => m.id ≠ first.id
    rw [hlist, hrest, filter_comm] at hold
    exact ((hold.trans hnew.symm).map QueuedMessage.text).cons first.text

theorem Keyed.enqueue (hq : q.Keyed) (h : q.enqueue sessionId text nanoid now = .ok q') :
    q'.Keyed := by
  unfold QueueStore.enqueue at h
  split_ifs at h with hsome
  cases h
  have hnone := Table.lookup_eq_none.mp (Option.not_isSome_iff_eq_none.mp hsome)
  unfold Keyed
  rw [map_append, nodup_append]
  refine ⟨hq, nodup_singleton _, ?_⟩
  intro a ha b hb
  obtain ⟨m, hm, rfl⟩ := mem_map.mp ha
  obtain rfl := mem_singleton.mp hb
  exact hnone m hm

theorem Keyed.dequeue (hq : q.Keyed) (sessionId : String) : (q.dequeue sessionId).1.Keyed := by
  unfold QueueStore.dequeue
  split
  · exact hq
  · exact hq.sublist (filter_sublist.map _)

theorem enqueue_of_none (h : q.get nanoid = none) (sessionId text : String) (now : Instant) :
    ∃ q', q.enqueue sessionId text nanoid now = .ok q' := by
  unfold enqueue
  rw [h]
  exact ⟨_, rfl⟩

end QueueStore

end CrabbyKit
