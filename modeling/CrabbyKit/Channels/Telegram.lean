import CrabbyKit.Core.Run
import CrabbyKit.Core.UriComponent
import Mathlib.Data.List.Nodup
import Mathlib.Logic.Function.Basic

/-!
# Accounts of the Telegram channel

`TelegramAccountStore` of `account-store.ts`, with a row for each account and an index of their ids,
and `addAccount` and `removeAccount` of `index.ts`: on its own, and step by step among others, where
a step is one operation on the storage or one answer of the provider.
-/

namespace CrabbyKit.Channels.Telegram

open List Function

structure TelegramAccount where
  id : String
  token : String
  webhookSecret : String
  webhookUrl : String
  webhookActive : Bool
  addedAt : String
  deriving DecidableEq, Repr

/-- The rows and the index; an index that is not there is empty. -/
structure AccountStore where
  rows : String → Option TelegramAccount
  index : List String

inductive StoreOp where
  | put (account : TelegramAccount)
  | delete (id : String)
  deriving DecidableEq, Repr

namespace StoreOp

def id : StoreOp → String
  | put account => account.id
  | delete id => id

def row : StoreOp → Option TelegramAccount
  | put account => some account
  | delete _ => none

/-- What it writes to the index, if it writes there. -/
def newIndex : StoreOp → List String → Option (List String)
  | put account, ids => if account.id ∈ ids then none else some (ids ++ [account.id])
  | delete id, ids =>
    let next := ids.filter (· ≠ id)
    if next.length ≠ ids.length then some next else none

end StoreOp

/-- `put` and `delete`, undisturbed. -/
def AccountStore.apply (s : AccountStore) (op : StoreOp) : AccountStore :=
  ⟨Function.update s.rows op.id op.row, (op.newIndex s.index).getD s.index⟩

/-- The arguments of `addAccount`. -/
structure AddInput where
  id : String
  token : String
  webhookSecret : String
  publicUrl : Option String
  agentId : Option String := none
  deriving DecidableEq, Repr

/-- The checks of `addAccount`. -/
def AddInput.refusal (input : AddInput) : Option String :=
  if input.id = "" then some "Telegram account id is required."
  else if input.token = "" then some "Telegram bot token is required."
  else if input.webhookSecret = "" then some "Telegram webhook secret is required."
  else if input.publicUrl.getD "" = "" then
    some ("No public URL available for setWebhook. Set `PUBLIC_URL` in the worker env (or pass " ++
      "an explicit `publicUrl` on defineAgent) before adding a Telegram account.")
  else none

def AddInput.webhookUrl (input : AddInput) : String :=
  let encode (text : String) := String.ofList (encodeURIComponent text.toList)
  let url := (input.publicUrl.getD "").toList
  let agentSegment := match input.agentId with
    | some agentId => if agentId = "" then "" else "/" ++ encode agentId
    | none => ""
  String.ofList (if url.getLast? = some '/' then url.dropLast else url) ++ "/telegram/webhook" ++
    agentSegment ++ "/" ++ encode input.id

/-- The account that is stored first. -/
def AddInput.account (input : AddInput) (now : String) : TelegramAccount :=
  ⟨input.id, input.token, input.webhookSecret, input.webhookUrl, false, now⟩

/-- `addAccount`, with what `setWebhook` answers. -/
def addAccount (s : AccountStore) (input : AddInput) (now : String)
    (setWebhook : Except String Unit) : Except String TelegramAccount × AccountStore :=
  match input.refusal with
  | some message => (.error message, s)
  | none =>
    let account := input.account now
    let s := s.apply (.put account)
    match setWebhook with
    | .ok _ =>
      ( .ok { account with webhookActive := true },
        s.apply (.put { account with webhookActive := true }))
    | .error message =>
      (.error ("Telegram setWebhook failed for account \"" ++ input.id ++ "\": " ++ message),
        s.apply (.delete input.id))

/-- Where a change is: at an operation of the store, before its row, its read of the index or its
write of it, and with the call of the provider that follows; or at a call of the provider. -/
inductive Phase where
  | idle
  | row (op : StoreOp) (calls : Option TelegramAccount)
  | read (op : StoreOp) (calls : Option TelegramAccount)
  | index (ids : List String) (calls : Option TelegramAccount)
  | setWebhook (account : TelegramAccount)
  | getting (id : String)
  | deleteWebhook (id : String)
  | finished
  deriving DecidableEq, Repr

/-- The store and the changes under way. -/
structure System where
  store : AccountStore
  changes : Nat → Phase := fun _ => .idle

/-- A change starts, or goes on; `succeeds` is the answer of the provider where it is asked. -/
inductive Label where
  | add (i : Nat) (input : AddInput) (now : String)
  | remove (i : Nat) (id : String)
  | advance (i : Nat) (succeeds : Bool)
  deriving DecidableEq, Repr

/-- Behind an operation of the store. -/
def goOn : Option TelegramAccount → Phase
  | some account => .setWebhook account
  | none => .finished

def System.at (s : System) (i : Nat) (phase : Phase) : System :=
  { s with changes := Function.update s.changes i phase }

def step (s : System) : Label → System
  | .add i input now =>
    if s.changes i = .idle ∧ input.refusal = none then
      s.at i (.row (.put (input.account now)) (some (input.account now)))
    else s
  | .remove i id => if s.changes i = .idle then s.at i (.getting id) else s
  | .advance i succeeds =>
    match s.changes i with
    | .row op calls =>
      { s with store := { s.store with rows := Function.update s.store.rows op.id op.row } }.at i
        (.read op calls)
    | .read op calls =>
      match op.newIndex s.store.index with
      | some ids => s.at i (.index ids calls)
      | none => s.at i (goOn calls)
    | .index ids calls => { s with store := { s.store with index := ids } }.at i (goOn calls)
    | .setWebhook account =>
      if succeeds then s.at i (.row (.put { account with webhookActive := true }) none)
      else s.at i (.row (.delete account.id) none)
    | .getting id => s.at i (if s.store.rows id = none then .finished else .deleteWebhook id)
    | .deleteWebhook id => s.at i (.row (.delete id) none)
    | .idle | .finished => s

/-- An operation of the store has begun and has not ended. -/
def Phase.Busy : Phase → Prop
  | .read _ _ | .index _ _ => True
  | _ => False

/-- No operation of the store begins while another one is under way. -/
def Alone (s : System) : Label → Prop
  | .advance i _ => ∀ op calls, s.changes i = .row op calls → ∀ j, ¬(s.changes j).Busy
  | _ => True

def Indexed (rows : String → Option TelegramAccount) (index : List String) : Prop :=
  index.Nodup ∧ ∀ id, id ∈ index ↔ rows id ≠ none

variable {rows : String → Option TelegramAccount} {index : List String}

theorem newIndex_delete (id : String) (ids : List String) :
    ((StoreOp.delete id).newIndex ids).getD ids = ids.filter (· ≠ id) := by
  simp only [StoreOp.newIndex]
  split_ifs with hlen
  · rfl
  · exact (filter_sublist.eq_of_length (not_not.mp hlen)).symm

theorem indexed_newIndex {op : StoreOp} (hnodup : index.Nodup)
    (hother : ∀ id, id ≠ op.id → (id ∈ index ↔ rows id ≠ none)) (hrow : rows op.id = op.row) :
    Indexed rows ((op.newIndex index).getD index) := by
  cases op with
  | put account =>
    have hhas : rows account.id ≠ none := by
      rw [show rows account.id = some account from hrow]
      exact Option.some_ne_none _
    simp only [StoreOp.newIndex]
    split_ifs with hmem
    · refine ⟨hnodup, fun id => ?_⟩
      by_cases hid : id = account.id
      · rw [hid]
        exact iff_of_true hmem hhas
      · exact hother id hid
    · refine ⟨nodup_append.mpr ⟨hnodup, nodup_singleton _, ?_⟩, fun id => ?_⟩
      · intro a ha b hb heq
        rw [mem_singleton.mp hb] at heq
        exact hmem (heq ▸ ha)
      · rw [Option.getD_some, mem_append, mem_singleton]
        by_cases hid : id = account.id
        · rw [hid]
          exact iff_of_true (.inr rfl) hhas
        · rw [or_iff_left hid]
          exact hother id hid
  | delete gone =>
    rw [newIndex_delete]
    refine ⟨hnodup.filter _, fun id => ?_⟩
    rw [mem_filter, decide_eq_true_eq]
    by_cases hid : id = gone
    · rw [hid]
      exact iff_of_false (fun h => h.2 rfl) (not_not.mpr hrow)
    · rw [and_iff_left hid]
      exact hother id hid

theorem addAccount_failed (s : AccountStore) (input : AddInput) (now message : String) :
    (addAccount s input now (.error message)).2 = s ↔
      input.refusal ≠ none ∨ (s.rows input.id = none ∧ input.id ∉ s.index) := by
  unfold addAccount
  cases hrefusal : input.refusal with
  | some text => exact iff_of_true rfl (.inl (Option.some_ne_none _))
  | none =>
    rw [or_iff_right (not_not.mpr rfl)]
    have hindex : (((s.apply (.put (input.account now))).apply (.delete input.id)).index) =
        s.index.filter (· ≠ input.id) := by
      refine (newIndex_delete _ _).trans ?_
      by_cases hmem : input.id ∈ s.index
      · simp [AccountStore.apply, StoreOp.newIndex, AddInput.account, hmem]
      · simp [AccountStore.apply, StoreOp.newIndex, AddInput.account, hmem, filter_append]
    have hrows : ((s.apply (.put (input.account now))).apply (.delete input.id)).rows =
        Function.update s.rows input.id none := update_idem ..
    constructor
    · intro h
      refine ⟨?_, fun hmem => ?_⟩
      · rw [← h]
        exact (congrFun hrows _).trans (update_self ..)
      · rw [← congrArg AccountStore.index h] at hmem
        have hkept := hindex ▸ hmem
        rw [mem_filter, decide_eq_true_eq] at hkept
        exact hkept.2 rfl
    · rintro ⟨hnone, hmem⟩
      have hsame : s.index.filter (· ≠ input.id) = s.index :=
        List.filter_eq_self.mpr fun id hid => decide_eq_true fun heq => hmem (heq ▸ hid)
      have hkeep : Function.update s.rows input.id none = s.rows :=
        update_eq_self_iff.mpr hnone.symm
      exact congrArg₂ AccountStore.mk (hrows.trans hkeep) (hindex.trans hsame)

/-- What holds of the store while a change is at a phase of an operation. -/
def Pending (s : System) : Phase → Prop
  | .read op _ => s.store.index.Nodup ∧ s.store.rows op.id = op.row ∧
    ∀ id, id ≠ op.id → (id ∈ s.store.index ↔ s.store.rows id ≠ none)
  | .index ids _ => Indexed s.store.rows ids
  | _ => False

/-- One operation at most is under way, and without one the index is right. -/
def Inv (s : System) : Prop :=
  (∃ i, Pending s (s.changes i) ∧ ∀ j, j ≠ i → ¬(s.changes j).Busy) ∨
    ((∀ j, ¬(s.changes j).Busy) ∧ Indexed s.store.rows s.store.index)

variable {s : System}

theorem busy_of_pending {phase : Phase} (h : Pending s phase) : phase.Busy := by
  cases phase <;> first | exact h | trivial

theorem Inv.move (h : Inv s) {i : Nat} {phase : Phase} (hidle : ¬(s.changes i).Busy)
    (hphase : ¬phase.Busy) : Inv (s.at i phase) := by
  have hquiet : ∀ j, ¬(s.changes j).Busy → ¬((s.at i phase).changes j).Busy := by
    intro j hj
    simp only [System.at, update_apply]
    split_ifs
    · exact hphase
    · exact hj
  rcases h with ⟨j, hpending, hother⟩ | ⟨hnone, hindexed⟩
  · have hne : j ≠ i := by
      rintro rfl
      exact hidle (busy_of_pending hpending)
    refine .inl ⟨j, ?_, fun k hk => hquiet k (hother k hk)⟩
    have hsame : (s.at i phase).changes j = s.changes j := update_of_ne hne ..
    rw [hsame]
    exact hpending
  · exact .inr ⟨fun j => hquiet j (hnone j), hindexed⟩

theorem inv_goOn {i : Nat} (calls : Option TelegramAccount)
    (hother : ∀ j, j ≠ i → ¬(s.changes j).Busy) (h : Indexed s.store.rows s.store.index) :
    Inv (s.at i (goOn calls)) := by
  refine .inr ⟨fun j => ?_, h⟩
  simp only [System.at, update_apply]
  split_ifs with hj
  · cases calls <;> exact id
  · exact hother j hj

theorem Inv.step (h : Inv s) {label : Label} (halone : Alone s label) : Inv (step s label) := by
  cases label with
  | add i input now =>
    unfold Telegram.step
    simp only
    split_ifs with hadd
    · exact h.move (by rw [hadd.1]; exact id) id
    · exact h
  | remove i id =>
    unfold Telegram.step
    simp only
    split_ifs with hidle
    · exact h.move (by rw [hidle]; exact fun hbusy => hbusy) fun hbusy => hbusy
    · exact h
  | advance i succeeds =>
    unfold Telegram.step
    simp only
    have hmine : (s.changes i).Busy →
        Pending s (s.changes i) ∧ ∀ j, j ≠ i → ¬(s.changes j).Busy := by
      intro hbusy
      rcases h with ⟨j, hpending, hother⟩ | ⟨hnone, -⟩
      · obtain rfl := not_not.mp fun hne => hother i hne hbusy
        exact ⟨hpending, hother⟩
      · exact absurd hbusy (hnone i)
    cases hphase : s.changes i with
    | idle | finished => exact h
    | row op calls =>
      have hnone := halone op calls hphase
      obtain ⟨-, hnodup, hindexed⟩ := h.resolve_left fun ⟨j, hpending, _⟩ =>
        hnone j (busy_of_pending hpending)
      refine .inl ⟨i, ?_, fun j hj => ?_⟩
      · have hself : ∀ s : System, ∀ phase, (s.at i phase).changes i = phase :=
          fun _ _ => update_self ..
        rw [hself]
        refine ⟨hnodup, update_self .., fun id hid => ?_⟩
        exact (hindexed id).trans (by simp only [System.at, update_of_ne hid])
      · simp only [System.at, update_of_ne hj]
        exact hnone j
    | read op calls =>
      rw [hphase] at hmine
      obtain ⟨⟨hnodup, hrow, hindexed⟩, hother⟩ := hmine trivial
      have hnew := indexed_newIndex hnodup hindexed hrow
      dsimp only
      cases hids : op.newIndex s.store.index with
      | none =>
        rw [hids] at hnew
        exact inv_goOn calls hother hnew
      | some ids =>
        rw [hids] at hnew
        change Inv (s.at i (.index ids calls))
        refine .inl ⟨i, ?_, fun j hj => ?_⟩
        · simp only [System.at, update_self]
          exact hnew
        · simp only [System.at, update_of_ne hj]
          exact hother j hj
    | index ids calls =>
      rw [hphase] at hmine
      obtain ⟨hindexed, hother⟩ := hmine trivial
      exact @inv_goOn { s with store := { s.store with index := ids } } i calls hother hindexed
    | setWebhook account =>
      have hidle : ¬(s.changes i).Busy := by rw [hphase]; exact id
      simp only
      split_ifs
      · exact h.move hidle id
      · exact h.move hidle id
    | getting id =>
      refine h.move (by rw [hphase]; exact fun hbusy => hbusy) ?_
      split_ifs <;> exact fun hbusy => hbusy
    | deleteWebhook id =>
      exact h.move (by rw [hphase]; exact fun hbusy => hbusy) fun hbusy => hbusy

end CrabbyKit.Channels.Telegram
