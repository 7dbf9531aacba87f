import CrabbyKit.Core.SortedMap
import Mathlib.Data.Char
import Mathlib.Data.List.Lex

/-!
# Capability storage

`createCapabilityStorage` of `capabilities/storage.ts` and the spine's KV calls of
`agent-runtime.ts` over one `KvStore`. A capability gets its own map exactly when its key prefix
does not begin another one's or begin with it.
-/

namespace CrabbyKit.Capabilities

open List

/-- A string as its characters, ordered as the store orders its keys. -/
abbrev Key := List Char

/-- A store of values: the rows of a listing come in the order of their keys. -/
abbrev KvStore (V : Type*) := SortedMap Key V

/-- `list({ prefix })`. -/
def KvStore.list {V : Type*} (kvStore : KvStore V) (keys : Key) : List (Key × V) :=
  kvStore.entries fun k => keys.isPrefixOf k

def keyPrefix (capabilityId : Key) : Key := "cap:".toList ++ capabilityId ++ [':']

inductive StorageOp (V : Type*)
  | get (key : Key)
  | put (key : Key) (value : V)
  | delete (key : Key)
  | list (keys : Option Key)
  deriving DecidableEq, Repr

/-- What a call returns. -/
inductive StorageReply (V : Type*)
  | value (found : Option V)
  | done
  | deleted (existed : Bool)
  | entries (rows : List (Key × V))
  deriving DecidableEq, Repr

section Storage

variable {V : Type*}

/-- `createCapabilityStorage(kvStore, capabilityId)`, called once. -/
def createCapabilityStorage (kvStore : KvStore V) (capabilityId : Key) :
    StorageOp V → KvStore V × StorageReply V
  | .get key => (kvStore, .value (kvStore.get (keyPrefix capabilityId ++ key)))
  | .put key value => (kvStore.put (keyPrefix capabilityId ++ key) value, .done)
  | .delete key =>
    let (kvStore, existed) := kvStore.delete (keyPrefix capabilityId ++ key)
    (kvStore, .deleted existed)
  | .list keys =>
    (kvStore, .entries ((kvStore.list (keyPrefix capabilityId ++ keys.getD [])).map fun row =>
      (row.1.drop (keyPrefix capabilityId).length, row.2)))

/-- What the spine passes on of an answer: `spineKvDelete` does not say whether the key existed. -/
def spineReply : StorageReply V → StorageReply V
  | .deleted _ => .done
  | reply => reply

/-- A call for a capability, by the capability itself or through the spine. -/
structure StorageCall (V : Type*) where
  capabilityId : Key
  viaSpine : Bool
  op : StorageOp V
  deriving DecidableEq, Repr

/-- The answer that the caller gets. -/
def StorageCall.reply (c : StorageCall V) (reply : StorageReply V) : StorageReply V :=
  if c.viaSpine then spineReply reply else reply

def StorageCall.exec (c : StorageCall V) (kvStore : KvStore V) : KvStore V × StorageReply V :=
  let (kvStore, reply) := createCapabilityStorage kvStore c.capabilityId c.op
  (kvStore, c.reply reply)

def answersFor (capabilityId : Key) : List (StorageCall V) → KvStore V → List (StorageReply V)
  | [], _ => []
  | c :: rest, kvStore =>
    let (kvStore', reply) := c.exec kvStore
    if c.capabilityId = capabilityId then reply :: answersFor capabilityId rest kvStore'
    else answersFor capabilityId rest kvStore'

def privateOp (own : KvStore V) : StorageOp V → KvStore V × StorageReply V
  | .get key => (own, .value (own.get key))
  | .put key value => (own.put key value, .done)
  | .delete key =>
    let (own, existed) := own.delete key
    (own, .deleted existed)
  | .list keys => (own, .entries (own.list (keys.getD [])))

def privateAnswers (capabilityId : Key) : List (StorageCall V) → KvStore V → List (StorageReply V)
  | [], _ => []
  | c :: rest, own =>
    if c.capabilityId = capabilityId then
      let (own', reply) := privateOp own c.op
      c.reply reply :: privateAnswers capabilityId rest own'
    else privateAnswers capabilityId rest own

end Storage

theorem append_lt_append_left_iff (p : Key) {a b : Key} : p ++ a < p ++ b ↔ a < b := by
  induction p with
  | nil => rfl
  | cons c rest ih => rw [cons_append, cons_append, cons_lt_cons_self, ih]

def scope (p : Key) : SortedMap.Scope Key Key where
  lift key := p ++ key
  strip key := if p.isPrefixOf key then some (key.drop p.length) else none
  strip_eq_some := by
    intro k j
    rw [Option.ite_none_right_eq_some, List.isPrefixOf_iff_prefix]
    constructor
    · rintro ⟨hp, hj⟩
      rw [← Option.some.inj hj]
      exact List.prefix_iff_eq_append.mp hp
    · rintro rfl
      exact ⟨List.prefix_append p j, by rw [List.drop_left]⟩
  lift_lt := append_lt_append_left_iff p

def owned {V : Type*} (capabilityId : Key) (kvStore : KvStore V) : KvStore V :=
  (scope (keyPrefix capabilityId)).view kvStore

/-- The answers to the calls for each of two capabilities are those of a map of its own, whatever
the store holds and however the calls are mixed. -/
def Isolated (V : Type*) (a b : Key) : Prop :=
  ∀ (kvStore : KvStore V) (calls : List (StorageCall V)),
    (∀ c ∈ calls, c.capabilityId = a ∨ c.capabilityId = b) →
      answersFor a calls kvStore = privateAnswers a calls (owned a kvStore) ∧
        answersFor b calls kvStore = privateAnswers b calls (owned b kvStore)

/-- The second id goes on behind the first one with a colon. -/
def Extends (a b : Key) : Prop := ∃ x, b = a ++ ':' :: x

section Isolation

variable {V : Type*} {a b : Key}

theorem keyPrefix_isPrefix (h : keyPrefix a <+: keyPrefix b) : a = b ∨ Extends a b := by
  have hids : a ++ [':'] <+: b ++ [':'] := by
    simpa only [keyPrefix, append_assoc, prefix_append_right_inj] using h
  obtain ⟨t, ht⟩ := hids
  rw [append_assoc, singleton_append] at ht
  rcases eq_nil_or_concat t with rfl | ⟨x, c, rfl⟩
  · exact Or.inl (append_cancel_right ht)
  · right
    rw [concat_eq_append, ← cons_append, ← append_assoc] at ht
    exact ⟨x, (append_inj' ht rfl).1.symm⟩

theorem strip_eq_none (hab : a ≠ b) (hextends : ¬ Extends a b) (hextends' : ¬ Extends b a)
    (key : Key) : (scope (keyPrefix a)).strip (keyPrefix b ++ key) = none := by
  refine if_neg fun hp => ?_
  rw [ isPrefixOf_iff_prefix] at hp
  rcases prefix_or_prefix_of_prefix hp (prefix_append _ _) with h | h
  · rcases keyPrefix_isPrefix h with heq | hext
    · exact hab heq
    · exact hextends hext
  · rcases keyPrefix_isPrefix h with heq | hext
    · exact hab heq.symm
    · exact hextends' hext

theorem createCapabilityStorage_owned (kvStore : KvStore V) (a : Key) (op : StorageOp V) :
    owned a (createCapabilityStorage kvStore a op).1 = (privateOp (owned a kvStore) op).1 ∧
      (createCapabilityStorage kvStore a op).2 = (privateOp (owned a kvStore) op).2 := by
  cases op with
  | get key =>
    exact ⟨rfl, congrArg StorageReply.value ((scope (keyPrefix a)).get_lift kvStore key)⟩
  | put key value => exact ⟨(scope (keyPrefix a)).view_put kvStore key value, rfl⟩
  | delete key =>
    obtain ⟨hview, hexisted⟩ := (scope (keyPrefix a)).delete_lift kvStore key
    exact ⟨hview, congrArg StorageReply.deleted hexisted⟩
  | list keys =>
    refine ⟨rfl, congrArg StorageReply.entries ?_⟩
    refine (scope (keyPrefix a)).entries_lift kvStore (fun k => ?_) fun j => drop_left
    simp only [ isPrefixOf_iff_prefix, scope]
    constructor
    · rintro ⟨t, rfl⟩
      exact ⟨keys.getD [] ++ t, by rw [append_assoc], prefix_append _ _⟩
    · rintro ⟨j, rfl, ht⟩
      exact (prefix_append_right_inj _).mpr ht

theorem owned_createCapabilityStorage (hab : a ≠ b) (hextends : ¬ Extends a b)
    (hextends' : ¬ Extends b a) (kvStore : KvStore V) (op : StorageOp V) :
    owned a (createCapabilityStorage kvStore b op).1 = owned a kvStore := by
  have hkey := strip_eq_none hab hextends hextends'
  cases op with
  | get key => rfl
  | put key value => exact (scope (keyPrefix a)).view_put_of_none kvStore (hkey key) value
  | delete key => exact (scope (keyPrefix a)).view_delete_of_none kvStore (hkey key)
  | list keys => rfl

theorem answersFor_eq {calls : List (StorageCall V)}
    (hcalls : ∀ c ∈ calls, c.capabilityId ≠ a →
      ¬ Extends a c.capabilityId ∧ ¬ Extends c.capabilityId a) (kvStore : KvStore V) :
    answersFor a calls kvStore = privateAnswers a calls (owned a kvStore) := by
  induction calls generalizing kvStore with
  | nil => rfl
  | cons c rest ih =>
    have hrest := ih (fun d hd => hcalls d (mem_cons_of_mem c hd)) (c.exec kvStore).1
    simp only [answersFor, privateAnswers]
    by_cases hc : c.capabilityId = a
    · obtain ⟨howned, hreply⟩ := createCapabilityStorage_owned kvStore a c.op
      rw [if_pos hc, if_pos hc, hrest]
      simp only [StorageCall.exec, hc, howned, hreply]
    · obtain ⟨hext, hext'⟩ := hcalls c mem_cons_self hc
      rw [if_neg hc, if_neg hc, hrest]
      simp only [StorageCall.exec, owned_createCapabilityStorage (Ne.symm hc) hext hext']

theorem not_isolated [Inhabited V] (h : Extends a b) : ∃ calls : List (StorageCall V),
    (∀ c ∈ calls, c.capabilityId = a ∨ c.capabilityId = b) ∧
      answersFor a calls SortedMap.empty ≠ privateAnswers a calls SortedMap.empty := by
  obtain ⟨x, rfl⟩ := h
  have hne : a ++ ':' :: x ≠ a := by simp
  have hkey : keyPrefix a ++ (x ++ [':']) = keyPrefix (a ++ ':' :: x) ++ [] := by
    simp [keyPrefix]
  refine ⟨[⟨a ++ ':' :: x, false, .put [] default⟩, ⟨a, false, .get (x ++ [':'])⟩], ?_, ?_⟩
  · simp
  · simp only [answersFor, privateAnswers, StorageCall.exec, StorageCall.reply,
      createCapabilityStorage, privateOp, hkey, SortedMap.get_put, if_neg hne]
    simp [SortedMap.get, SortedMap.empty]

/-- Two capabilities have maps of their own exactly when neither id goes on behind the other one
with a colon. -/
theorem isolated_iff (V : Type*) [Inhabited V] (a b : Key) :
    Isolated V a b ↔ ¬ Extends a b ∧ ¬ Extends b a := by
  constructor
  · intro h
    constructor
    · intro hext
      obtain ⟨calls, hcalls, hne⟩ := not_isolated (V := V) hext
      exact hne (h SortedMap.empty calls hcalls).1
    · intro hext
      obtain ⟨calls, hcalls, hne⟩ := not_isolated (V := V) hext
      exact hne (h SortedMap.empty calls fun c hc => (hcalls c hc).symm).2
  · rintro ⟨hext, hext'⟩ kvStore calls hcalls
    refine ⟨answersFor_eq (fun c hc hne => ?_) kvStore, answersFor_eq (fun c hc hne => ?_) kvStore⟩
    · rw [(hcalls c hc).resolve_left hne]
      exact ⟨hext, hext'⟩
    · rw [(hcalls c hc).resolve_right hne]
      exact ⟨hext', hext⟩

/-- A bundle whose capability is called `a:b` writes into the map of `a`. -/
theorem colon_not_isolated : ¬ Isolated String "a".toList "a:b".toList := by
  intro h
  refine absurd (h SortedMap.empty [⟨"a:b".toList, true, .put "k".toList "1"⟩,
    ⟨"a".toList, true, .get "b:k".toList⟩] (by simp)).1 ?_
  decide

end Isolation

end CrabbyKit.Capabilities
