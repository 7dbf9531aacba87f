import CrabbyKit.Core.Table
import CrabbyKit.Browser.Sessions

/-!
# Every live browser session is in someone's custody

A live session is recorded under its chat session, or the `open` that created it still has it in
hand. While an `open` has passed its check nothing else has its chat session in hand, and the
persistent context is with one `open` or one record.
-/

namespace CrabbyKit.Browser

open Function

/-- The chat session of an `open` that has passed its check. -/
def Task.opens : Task → Option String
  | .counting chat _ => some chat
  | .creating chat _ _ => some chat
  | .opening chat _ _ => some chat
  | _ => none

/-- The remote session that an `open` has created and not recorded. -/
def Task.carries : Task → Option (String × ActiveSession)
  | .opening chat session _ => some (chat, session)
  | _ => none

/-- An `open` that was counted first and uses the persistent context. -/
def Task.takesContext : Task → Bool
  | .creating _ _ useContext => useContext
  | .opening _ session _ => session.usedContext
  | _ => false

/-- The records that a `close` or a recovery has read and will delete. -/
def Task.drops : Task → List (String × ActiveSession)
  | .saving chat active _ => [(chat, active)]
  | .releasing chat active => [(chat, active)]
  | .forgetting chat active => [(chat, active)]
  | .recovering chat active rest => (chat, active) :: rest
  | .dropping chat active rest => (chat, active) :: rest
  | _ => []

/-- The session that a `close` or a recovery has released and whose record it deletes next. -/
def Task.released : Task → Option ActiveSession
  | .forgetting _ active => some active
  | .dropping _ active _ => some active
  | _ => none

/-- An operation has a remote session in hand. -/
def Task.Has (task : Task) (active : ActiveSession) : Prop :=
  ∃ chat, task.carries = some (chat, active) ∨ (chat, active) ∈ task.drops

/-- The outcomes after which a chat session can open again. -/
def Outcome.reopens : Outcome → Bool
  | .failed => true
  | .closed _ => true
  | .recovered _ => true
  | _ => false

namespace Manager

variable (s : Manager)

/-- Nothing has a chat session in hand. -/
def Free (chat : String) : Prop :=
  ∀ i task, s.tasks i = some task → task.opens ≠ some chat ∧ chat ∉ task.drops.map Prod.fst

/-- What is promised of the remote sessions at any point. -/
structure Lawful : Prop where
  /-- A chat session has one live session at most. -/
  single : ∀ id id' remote remote', s.live id = some remote → s.live id' = some remote' →
    remote.chat = remote'.chat → id = id'
  /-- A live session is recorded, or the `open` that created it has it in hand. -/
  recorded : ∀ id remote, s.live id = some remote →
    (∃ active, s.active.get remote.chat = some active ∧ active.browserbaseId = id) ∨
      ∃ i task session, s.tasks i = some task ∧ task.carries = some (remote.chat, session) ∧
        session.browserbaseId = id
  /-- The persistent context is used once. -/
  context : ∀ id id' remote remote', s.live id = some remote → s.live id' = some remote' →
    remote.usesContext = true → remote'.usesContext = true → id = id'
  /-- After a close, a recovery or a failed `open` there is no record, and the next `open` is not
  refused. -/
  reopens : ∀ chat outcome, s.outcome chat = some outcome → outcome.reopens = true →
    s.active.get chat = none

/-- A step is serial when an `open` passes its check only while nothing else has its chat session in
hand, takes the persistent context only while no other `open` has it, is rejected only when its
session has ended, and so are a release and the loss of the isolate. -/
def Serial (contextId : Bool) : Label → Prop
  | .advance i answer =>
    (∀ chat url, s.tasks i = some (.checking chat url) → s.active.get chat = none → s.Free chat) ∧
    (∀ chat url, s.tasks i = some (.counting chat url) → s.active.rows.isEmpty = true →
      contextId = true → ∀ j task, s.tasks j = some task → task.takesContext = false) ∧
    (∀ chat session await todo, s.tasks i = some (.opening chat session (await :: todo)) →
      answer.failed = true → await.fallible = true → s.live session.browserbaseId = none) ∧
    (∀ chat active, s.tasks i = some (.releasing chat active) → answer.failed = true →
      s.live active.browserbaseId = none) ∧
    ∀ chat active rest, s.tasks i = some (.recovering chat active rest) → answer.failed = true →
      s.live active.browserbaseId = none
  | .hibernate => ∀ i task chat session, s.tasks i = some task →
    task.carries = some (chat, session) → s.live session.browserbaseId = none
  | _ => True

/-- The invariant of serial runs. -/
structure Coherent : Prop where
  /-- One `open` has passed its check. -/
  opener : ∀ i j task task' chat, s.tasks i = some task → s.tasks j = some task' →
    task.opens = some chat → task'.opens = some chat → i = j
  /-- Its chat session has no record, and nothing is about to delete one. -/
  exclusive : ∀ i task chat, s.tasks i = some task → task.opens = some chat →
    s.active.get chat = none ∧
      ∀ j task', s.tasks j = some task' → chat ∉ task'.drops.map Prod.fst
  /-- What is about to be deleted is the record that was read. -/
  drops : ∀ i task chat active, s.tasks i = some task → (chat, active) ∈ task.drops →
    ∀ active', s.active.get chat = some active' → active' = active
  /-- What was released is not live. -/
  released : ∀ i task active, s.tasks i = some task → task.released = some active →
    s.live active.browserbaseId = none
  live : ∀ id remote, s.live id = some remote →
    (∃ active, s.active.get remote.chat = some active ∧ active.browserbaseId = id ∧
      active.usedContext = remote.usesContext) ∨
    ∃ i task session, s.tasks i = some task ∧ task.carries = some (remote.chat, session) ∧
      session.browserbaseId = id ∧ session.usedContext = remote.usesContext
  /-- The persistent context is with one `open` or with one record. -/
  contextOpen : ∀ i j task task', s.tasks i = some task → s.tasks j = some task' →
    task.takesContext = true → task'.takesContext = true → i = j
  contextRecord : ∀ i task chat active, s.tasks i = some task → task.takesContext = true →
    s.active.get chat = some active → active.usedContext = false
  contextRecords : ∀ chat chat' active active', s.active.get chat = some active →
    s.active.get chat' = some active' → active.usedContext = true → active'.usedContext = true →
      chat = chat'
  reopens : ∀ chat outcome, s.outcome chat = some outcome → outcome.reopens = true →
    s.active.get chat = none
  /-- Ids that the provider has not given are nowhere. -/
  given : ∀ id, s.created ≤ id → s.live id = none
  givenRecord : ∀ chat active, s.active.get chat = some active →
    active.browserbaseId < s.created
  givenTask : ∀ i task active, s.tasks i = some task → task.Has active →
    active.browserbaseId < s.created
  /-- Places that no operation has taken are free. -/
  free : ∀ i, s.started ≤ i → s.tasks i = none

variable {s} {s' : Manager} {i : Nat} {task : Task}

theorem Task.has_of_released {active : ActiveSession} (h : task.released = some active) :
    task.Has active := by
  cases task with
  | forgetting chat active' =>
    obtain rfl := Option.some.inj h
    exact ⟨chat, .inr List.mem_cons_self⟩
  | dropping chat active' rest =>
    obtain rfl := Option.some.inj h
    exact ⟨chat, .inr List.mem_cons_self⟩
  | _ => cases h

theorem Coherent.clients (h : s.Coherent) (cdpClients : String → Option CDPClient) :
    Coherent { s with cdpClients } :=
  ⟨h.opener, h.exclusive, h.drops, h.released, h.live, h.contextOpen, h.contextRecord,
    h.contextRecords, h.reopens, h.given, h.givenRecord, h.givenTask, h.free⟩

theorem Coherent.release (h : s.Coherent) (browserbaseId : Nat) :
    Coherent { s with live := Function.update s.live browserbaseId none } := by
  have hfewer : ∀ id remote, Function.update s.live browserbaseId none id = some remote →
      s.live id = some remote := by
    intro id remote hlive
    by_cases hid : id = browserbaseId
    · subst hid
      rw [update_self] at hlive
      cases hlive
    · rwa [update_of_ne hid] at hlive
  have hnone : ∀ id, s.live id = none → Function.update s.live browserbaseId none id = none := by
    intro id hlive
    by_cases hid : id = browserbaseId
    · subst hid
      exact update_self _ _ _
    · rwa [update_of_ne hid]
  exact ⟨h.opener, h.exclusive, h.drops,
    fun i task active htask hreleased => hnone _ (h.released i task active htask hreleased),
    fun id remote hlive => h.live id remote (hfewer id remote hlive), h.contextOpen,
    h.contextRecord, h.contextRecords, h.reopens, fun id hle => hnone id (h.given id hle),
    h.givenRecord, h.givenTask, h.free⟩

variable {chat : String}

theorem Coherent.delete (h : s.Coherent)
    (hdead : ∀ active, s.active.get chat = some active → s.live active.browserbaseId = none) :
    Coherent { s with active := (s.active.delete chat).1 } := by
  have hfewer : ∀ other active, (s.active.delete chat).1.get other = some active →
      other ≠ chat ∧ s.active.get other = some active := by
    intro other active hget
    by_cases hother : other = chat
    · subst hother
      rw [SortedMap.get_delete] at hget
      cases hget
    · rw [SortedMap.get_delete_of_ne _ hother] at hget
      exact ⟨hother, hget⟩
  have hnone : ∀ other, s.active.get other = none → (s.active.delete chat).1.get other = none := by
    intro other hget
    cases hfound : (s.active.delete chat).1.get other with
    | none => rfl
    | some active => cases hget.symm.trans (hfewer other active hfound).2
  refine ⟨h.opener, fun i task other htask hopens => ?_, fun i task other active htask hmem active'
    hget => h.drops i task other active htask hmem active' (hfewer _ _ hget).2, h.released,
    fun id remote hlive => ?_, h.contextOpen, fun i task other active htask htakes hget =>
      h.contextRecord i task other active htask htakes (hfewer _ _ hget).2,
    fun other other' active active' hget hget' =>
      h.contextRecords other other' active active' (hfewer _ _ hget).2 (hfewer _ _ hget').2,
    fun other outcome houtcome hreopens => hnone _ (h.reopens other outcome houtcome hreopens),
    h.given, fun other active hget => h.givenRecord other active (hfewer _ _ hget).2, h.givenTask,
    h.free⟩
  · obtain ⟨hget, hfree⟩ := h.exclusive i task other htask hopens
    exact ⟨hnone _ hget, hfree⟩
  · rcases h.live id remote hlive with ⟨active, hget, hid, hused⟩ | hcarried
    · refine .inl ⟨active, ?_, hid, hused⟩
      rw [← hget]
      refine SortedMap.get_delete_of_ne _ fun heq => ?_
      -- The deleted record would be that of a live session.
      rw [heq] at hget
      rw [← hid, hdead active hget] at hlive
      cases hlive
    · exact .inr hcarried

variable (s) in
/-- What may follow a task while records and live sessions stay: it has nothing in hand that the
task had not, unless it has just passed its check, been counted first, or read the record; and it
gives up no live session. -/
structure Follows (task : Task) (next : Option Task) : Prop where
  opens : ∀ t chat, next = some t → t.opens = some chat →
    task.opens = some chat ∨ (s.active.get chat = none ∧ s.Free chat)
  carries : ∀ t chat session, next = some t → t.carries = some (chat, session) →
    session.browserbaseId < s.created
  kept : ∀ chat session, task.carries = some (chat, session) →
    (∃ t, next = some t ∧ t.carries = some (chat, session)) ∨ s.live session.browserbaseId = none
  context : ∀ t, next = some t → t.takesContext = true → task.takesContext = true ∨
    ((∀ chat, s.active.get chat = none) ∧
      ∀ j task', s.tasks j = some task' → task'.takesContext = false)
  drops : ∀ t entry, next = some t → entry ∈ t.drops →
    entry ∈ task.drops ∨ s.active.get entry.1 = some entry.2
  released : ∀ t active, next = some t → t.released = some active →
    s.live active.browserbaseId = none

theorem Coherent.move (h : s.Coherent) (htask : s.tasks i = some task) {next : Option Task}
    (hfollows : s.Follows task next) {outcome : String → Option Outcome}
    (houtcome : ∀ chat o, outcome chat = some o → o.reopens = true → s.active.get chat = none) :
    Coherent { s with tasks := Function.update s.tasks i next, outcome } := by
  have hopens : ∀ j t chat, Function.update s.tasks i next j = some t → t.opens = some chat →
      (∃ t', s.tasks j = some t' ∧ t'.opens = some chat) ∨
        (j = i ∧ s.active.get chat = none ∧ s.Free chat) := by
    intro j t chat ht hchat
    rcases Table.update_eq_some ht with ⟨rfl, hnext⟩ | ⟨-, hold⟩
    · rcases hfollows.opens t chat hnext hchat with hbefore | hfresh
      · exact .inl ⟨task, htask, hbefore⟩
      · exact .inr ⟨rfl, hfresh⟩
    · exact .inl ⟨t, hold, hchat⟩
  have hdrops : ∀ j t entry, Function.update s.tasks i next j = some t → entry ∈ t.drops →
      (∃ t', s.tasks j = some t' ∧ entry ∈ t'.drops) ∨ s.active.get entry.1 = some entry.2 := by
    intro j t entry ht hentry
    rcases Table.update_eq_some ht with ⟨rfl, hnext⟩ | ⟨-, hold⟩
    · rcases hfollows.drops t entry hnext hentry with hbefore | hread
      · exact .inl ⟨task, htask, hbefore⟩
      · exact .inr hread
    · exact .inl ⟨t, hold, hentry⟩
  refine ⟨fun j k t t' chat ht ht' hchat hchat' => ?_, fun j t chat ht hchat => ?_,
    fun j t chat active ht hmem active' hget => ?_, fun j t active ht hreleased => ?_,
    fun id remote hlive => ?_, fun j k t t' ht ht' htakes htakes' => ?_,
    fun j t chat active ht htakes hget => ?_, h.contextRecords, houtcome, h.given, h.givenRecord,
    fun j t active ht hhas => ?_, fun j hle => ?_⟩
  · rcases hopens j t chat ht hchat with ⟨u, hu, huc⟩ | ⟨rfl, -, hfree⟩
    · rcases hopens k t' chat ht' hchat' with ⟨u', hu', huc'⟩ | ⟨rfl, -, hfree⟩
      · exact h.opener j k u u' chat hu hu' huc huc'
      · exact absurd huc (hfree j u hu).1
    · rcases hopens k t' chat ht' hchat' with ⟨u', hu', huc'⟩ | ⟨rfl, -, -⟩
      · exact absurd huc' (hfree k u' hu').1
      · rfl
  · obtain ⟨hnone, hfree⟩ : s.active.get chat = none ∧
        ∀ j task', s.tasks j = some task' → chat ∉ task'.drops.map Prod.fst := by
      rcases hopens j t chat ht hchat with ⟨u, hu, huc⟩ | ⟨-, hnone, hfree⟩
      · exact h.exclusive j u chat hu huc
      · exact ⟨hnone, fun k t' ht' => (hfree k t' ht').2⟩
    refine ⟨hnone, fun k t' ht' hmem => ?_⟩
    obtain ⟨entry, hentry, rfl⟩ := List.mem_map.mp hmem
    rcases hdrops k t' entry ht' hentry with ⟨u, hu, huentry⟩ | hread
    · exact hfree k u hu (List.mem_map.mpr ⟨entry, huentry, rfl⟩)
    · cases hnone.symm.trans hread
  · rcases hdrops j t (chat, active) ht hmem with ⟨u, hu, huentry⟩ | hread
    · exact h.drops j u chat active hu huentry active' hget
    · exact Option.some.inj (hget.symm.trans hread)
  · rcases Table.update_eq_some ht with ⟨rfl, hnext⟩ | ⟨-, hold⟩
    · exact hfollows.released t active hnext hreleased
    · exact h.released j t active hold hreleased
  · rcases h.live id remote hlive with hrecord | ⟨j, t, session, ht, hcarries, hid, hused⟩
    · exact .inl hrecord
    · refine .inr ?_
      by_cases hj : j = i
      · subst hj
        obtain rfl := Option.some.inj (ht.symm.trans htask)
        rcases hfollows.kept _ session hcarries with ⟨t', hnext, hcarries'⟩ | hdead
        · exact ⟨j, t', session, (update_self _ _ _).trans hnext, hcarries', hid, hused⟩
        · rw [hid, hlive] at hdead
          cases hdead
      · exact ⟨j, t, session, (update_of_ne hj _ _).trans ht, hcarries, hid, hused⟩
  · rcases Table.update_eq_some ht with ⟨rfl, hnext⟩ | ⟨hj, hold⟩
    · rcases Table.update_eq_some ht' with ⟨rfl, -⟩ | ⟨hk, hold'⟩
      · rfl
      · rcases hfollows.context t hnext htakes with hbefore | ⟨-, hnone⟩
        · exact h.contextOpen j k task t' htask hold' hbefore htakes'
        · rw [hnone k t' hold'] at htakes'
          cases htakes'
    · rcases Table.update_eq_some ht' with ⟨rfl, hnext'⟩ | ⟨-, hold'⟩
      · rcases hfollows.context t' hnext' htakes' with hbefore | ⟨-, hnone⟩
        · exact h.contextOpen j k t task hold htask htakes hbefore
        · rw [hnone j t hold] at htakes
          cases htakes
      · exact h.contextOpen j k t t' hold hold' htakes htakes'
  · rcases Table.update_eq_some ht with ⟨rfl, hnext⟩ | ⟨-, hold⟩
    · rcases hfollows.context t hnext htakes with hbefore | ⟨hnone, -⟩
      · exact h.contextRecord j task chat active htask hbefore hget
      · cases (hnone chat).symm.trans hget
    · exact h.contextRecord j t chat active hold htakes hget
  · rcases Table.update_eq_some ht with ⟨rfl, hnext⟩ | ⟨-, hold⟩
    · obtain ⟨chat, hcarries | hmem⟩ := hhas
      · exact hfollows.carries t chat active hnext hcarries
      · rcases hfollows.drops t _ hnext hmem with hbefore | hread
        · exact h.givenTask j task active htask ⟨chat, .inr hbefore⟩
        · exact h.givenRecord chat active hread
    · exact h.givenTask j t active hold hhas
  · exact Table.free_update h.free le_rfl (Table.lt_of_taken h.free htask) j hle

theorem follows_none (hkept : ∀ chat session, task.carries = some (chat, session) →
    s.live session.browserbaseId = none) : s.Follows task none where
  opens _ _ hnext := by cases hnext
  carries _ _ _ hnext := by cases hnext
  kept chat session hcarries := .inr (hkept chat session hcarries)
  context _ hnext := by cases hnext
  drops _ _ hnext := by cases hnext
  released _ _ hnext := by cases hnext

theorem follows_plain {next : Task} (hopens : next.opens = none) (hcarries : next.carries = none)
    (htakes : next.takesContext = false) (hreleased : next.released = none)
    (hkept : task.carries = none)
    (hdrops : ∀ entry ∈ next.drops, entry ∈ task.drops ∨ s.active.get entry.1 = some entry.2) :
    s.Follows task (some next) where
  opens t chat hnext hchat := by
    cases hnext
    rw [hopens] at hchat
    cases hchat
  carries t chat session hnext hsession := by
    cases hnext
    rw [hcarries] at hsession
    cases hsession
  kept chat session hcarried := by
    rw [hkept] at hcarried
    cases hcarried
  context t hnext ht := by
    cases hnext
    rw [htakes] at ht
    cases ht
  drops t entry hnext hentry := by
    cases hnext
    exact hdrops entry hentry
  released t active hnext hactive := by
    cases hnext
    rw [hreleased] at hactive
    cases hactive

/-- A task of an `open` may follow another one. -/
theorem follows_open {next : Task}
    (hopens : ∀ chat, next.opens = some chat →
      task.opens = some chat ∨ (s.active.get chat = none ∧ s.Free chat))
    (hcarries : ∀ chat session, next.carries = some (chat, session) →
      session.browserbaseId < s.created)
    (hkept : ∀ chat session, task.carries = some (chat, session) →
      next.carries = some (chat, session))
    (hcontext : next.takesContext = true → task.takesContext = true ∨
      ((∀ chat, s.active.get chat = none) ∧
        ∀ j task', s.tasks j = some task' → task'.takesContext = false))
    (hdrops : next.drops = []) (hreleased : next.released = none) :
    s.Follows task (some next) where
  opens t chat hnext hchat := by
    cases hnext
    exact hopens chat hchat
  carries t chat session hnext hsession := by
    cases hnext
    exact hcarries chat session hsession
  kept chat session hsession := .inl ⟨next, rfl, hkept chat session hsession⟩
  context t hnext ht := by
    cases hnext
    exact hcontext ht
  drops t entry hnext hentry := by
    cases hnext
    rw [hdrops] at hentry
    cases hentry
  released t active hnext hactive := by
    cases hnext
    rw [hreleased] at hactive
    cases hactive

variable {session : ActiveSession}

/-- The provider gives a session to an `open` that is about to have it in hand. -/
theorem Coherent.born (h : s.Coherent)
    (htask : s.tasks i = some task) (hcarries : task.carries = some (chat, session))
    (hfresh : ∀ j t active, s.tasks j = some t → t.released = some active →
      active.browserbaseId ≠ session.browserbaseId) :
    Coherent { s with
      live := Function.update s.live session.browserbaseId
        (some ⟨chat, session.usedContext⟩) } := by
  have hgiven := h.givenTask i task session htask ⟨chat, .inl hcarries⟩
  refine ⟨h.opener, h.exclusive, h.drops, fun j t active ht hreleased => ?_,
    fun id remote hlive => ?_, h.contextOpen, h.contextRecord, h.contextRecords, h.reopens,
    fun id hle => ?_, h.givenRecord, h.givenTask, h.free⟩
  · exact (update_of_ne (hfresh j t active ht hreleased) _ _).trans
      (h.released j t active ht hreleased)
  · by_cases hid : id = session.browserbaseId
    · subst hid
      have hremote := (update_self _ _ _).symm.trans hlive
      cases hremote
      exact .inr ⟨i, task, session, htask, hcarries, rfl, rfl⟩
    · exact h.live id remote ((update_of_ne hid _ _).symm.trans hlive)
  · refine (update_of_ne ?_ _ _).trans (h.given id hle)
    rintro rfl
    exact absurd hgiven hle.not_gt

theorem Coherent.number (h : s.Coherent) : Coherent { s with created := s.created + 1 } :=
  ⟨h.opener, h.exclusive, h.drops, h.released, h.live, h.contextOpen, h.contextRecord,
    h.contextRecords, h.reopens, fun id hle => h.given id (Nat.le_of_succ_le hle),
    fun chat active hget => Nat.lt_succ_of_lt (h.givenRecord chat active hget),
    fun i task active htask hhas => Nat.lt_succ_of_lt (h.givenTask i task active htask hhas),
    h.free⟩

/-- An `open` ends with the record of its session. -/
theorem Coherent.record (h : s.Coherent) {record : ActiveSession}
    (htask : s.tasks i = some (.opening chat session []))
    (hid : record.browserbaseId = session.browserbaseId)
    (hused : record.usedContext = session.usedContext) :
    Coherent { s with
      active := s.active.put chat record
      tasks := Function.update s.tasks i none
      outcome := Function.update s.outcome chat (some (.opened session.browserbaseId)) } := by
  obtain ⟨hnone, hfree⟩ := h.exclusive i _ chat htask rfl
  have hold : ∀ j t, Function.update s.tasks i none j = some t → j ≠ i ∧ s.tasks j = some t := by
    intro j t ht
    rcases Table.update_eq_some ht with ⟨-, hnext⟩ | hold
    · cases hnext
    · exact hold
  have hget : ∀ other active, (s.active.put chat record).get other = some active →
      (other = chat ∧ active = record) ∨ s.active.get other = some active := by
    intro other active hother
    by_cases heq : other = chat
    · subst heq
      rw [SortedMap.get_put] at hother
      exact .inl ⟨rfl, (Option.some.inj hother).symm⟩
    · rw [SortedMap.get_put_of_ne _ heq] at hother
      exact .inr hother
  have hcontext : ∀ j t other active, j ≠ i → s.tasks j = some t → t.takesContext = true →
      (s.active.put chat record).get other = some active → active.usedContext = false := by
    intro j t other active hj ht htakes hother
    rcases hget other active hother with ⟨rfl, rfl⟩ | hbefore
    · by_contra htrue
      have hown : (Task.opening other session []).takesContext = true :=
        hused.symm.trans (by simpa using htrue)
      exact hj (h.contextOpen j i t _ ht htask htakes hown)
    · exact h.contextRecord j t other active ht htakes hbefore
  refine ⟨fun j k t t' c ht ht' => h.opener j k t t' c (hold j t ht).2 (hold k t' ht').2,
    fun j t c ht hopens => ?_, fun j t c active ht hmem active' hother => ?_,
    fun j t active ht => h.released j t active (hold j t ht).2, fun id remote hlive => ?_,
    fun j k t t' ht ht' => h.contextOpen j k t t' (hold j t ht).2 (hold k t' ht').2,
    fun j t c active ht => hcontext j t c active (hold j t ht).1 (hold j t ht).2,
    fun c c' active active' hc hc' htrue htrue' => ?_, fun c outcome houtcome hreopens => ?_,
    h.given, fun c active hother => ?_, fun j t active ht => h.givenTask j t active (hold j t ht).2,
    fun j hle => ?_⟩
  · obtain ⟨hj, hbefore⟩ := hold j t ht
    have hc : c ≠ chat := by
      rintro rfl
      exact hj (h.opener j i t _ c hbefore htask hopens rfl)
    obtain ⟨hcnone, hcfree⟩ := h.exclusive j t c hbefore hopens
    exact ⟨(SortedMap.get_put_of_ne _ hc _).trans hcnone,
      fun k t' ht' => hcfree k t' (hold k t' ht').2⟩
  · obtain ⟨-, hown⟩ := hold j t ht
    rcases hget c active' hother with ⟨rfl, -⟩ | hbefore
    · exact absurd (List.mem_map.mpr ⟨_, hmem, rfl⟩) (hfree j t hown)
    · exact h.drops j t c active hown hmem active' hbefore
  · rcases h.live id remote hlive with ⟨active, hactive, hrest⟩ | ⟨j, t, owned, ht, hcarries, hrest⟩
    · refine .inl ⟨active, ?_, hrest⟩
      refine (SortedMap.get_put_of_ne _ (fun heq => ?_) _).trans hactive
      rw [heq] at hactive
      cases hnone.symm.trans hactive
    · by_cases hj : j = i
      · subst hj
        obtain rfl := Option.some.inj (ht.symm.trans htask)
        cases hcarries
        exact .inl ⟨record, SortedMap.get_put _ _ _, hid.trans hrest.1, hused.trans hrest.2⟩
      · exact .inr ⟨j, t, owned, (update_of_ne hj _ _).trans ht, hcarries, hrest⟩
  · rcases hget c active hc with ⟨rfl, rfl⟩ | hbefore
    · rcases hget c' active' hc' with ⟨rfl, -⟩ | hbefore'
      · rfl
      · have hown : (Task.opening c session []).takesContext = true := hused.symm.trans htrue
        rw [h.contextRecord i _ c' active' htask hown hbefore'] at htrue'
        cases htrue'
    · rcases hget c' active' hc' with ⟨rfl, rfl⟩ | hbefore'
      · have hown : (Task.opening c' session []).takesContext = true := hused.symm.trans htrue'
        rw [h.contextRecord i _ c active htask hown hbefore] at htrue
        cases htrue
      · exact h.contextRecords c c' active active' hbefore hbefore' htrue htrue'
  · by_cases hc : c = chat
    · subst hc
      have ho := (update_self _ _ _).symm.trans houtcome
      cases ho
      cases hreopens
    · exact (SortedMap.get_put_of_ne _ hc _).trans
        (h.reopens c outcome ((update_of_ne hc _ _).symm.trans houtcome) hreopens)
  · rcases hget c active hother with ⟨-, rfl⟩ | hbefore
    · rw [hid]
      exact h.givenTask i _ session htask ⟨chat, .inl rfl⟩
    · exact h.givenRecord c active hbefore
  · exact Table.free_update h.free le_rfl (Table.lt_of_taken h.free htask) j hle

end Manager

end CrabbyKit.Browser
